/-
# Computations in steps

A computation of many steps is either done or knows its next step. Running it
takes one step after the other in a loop, so the depth of the call stack does
not grow with the number of steps.
-/

namespace Rulebook

/-- A computation that is done or has steps left. -/
inductive Trampoline (α : Type)
  | done (result : α)
  | more (step : Unit → Trampoline α)

namespace Trampoline

variable {α : Type}

/-- Take all steps. -/
def run : Trampoline α → α
  | done result => result
  | more step => (step ()).run

def isDone : Trampoline α → Bool
  | done _ => true
  | more _ => false

/-- Visit the computation before every step and at its end, and fold what is
seen. -/
def foldSteps {β : Type} (see : β → Trampoline α → β) (init : β) :
    Trampoline α → β
  | done result => see init (done result)
  | more step => (step ()).foldSteps see (see init (more step))

@[simp]
theorem run_done (result : α) : (done result).run = result := rfl

@[simp]
theorem run_more (step : Unit → Trampoline α) :
    (more step).run = (step ()).run := rfl

end Trampoline

end Rulebook
