/-
# The stack of active labels

While a rule is applied, the labels of the named and traced rules around it
stand on a stack. Entering a label hands out a guard, which remembers the
depth before. Releasing a guard cuts the stack down to that depth, in whatever
order guards are released; a stack that is already shorter stays as it is.
-/

namespace Rulebook

/-- The active labels, outermost first. -/
structure Context where
  labels : Array String
  deriving DecidableEq, Inhabited, Repr

/-- Remembers the depth of a stack before a label was entered. -/
structure Guard where
  depth : Nat
  deriving DecidableEq, Inhabited, Repr

namespace Context

/-- The stack on which no label stands. -/
def empty : Context := ⟨#[]⟩

instance : EmptyCollection Context := ⟨empty⟩

/-- The active labels, outermost first. -/
def path (context : Context) : List String :=
  context.labels.toList

/-- The number of active labels. -/
def depth (context : Context) : Nat :=
  context.labels.size

def isEmpty (context : Context) : Bool :=
  context.labels.isEmpty

/-- Put `label` on the stack. The guard takes it off again. -/
def enter (context : Context) (label : String) : Guard × Context :=
  (⟨context.depth⟩, ⟨context.labels.push label⟩)

/-- Cut the stack down to the depth that the guard remembers. -/
def release (context : Context) (guard : Guard) : Context :=
  ⟨context.labels.shrink guard.depth⟩

/-- Act with `label` on the stack, and release it however the action ends.
The action says what it comes to and which stack it leaves. -/
def within {β : Type} (context : Context) (label : String)
    (act : Context → β × Context) : β × Context :=
  let (guard, inner) := context.enter label
  let (result, after) := act inner
  (result, after.release guard)

@[simp]
theorem path_empty : (∅ : Context).path = [] := rfl

@[simp]
theorem path_enter (context : Context) (label : String) :
    (context.enter label).2.path = context.path ++ [label] := by
  simp [enter, path]

@[simp]
theorem depth_guard_enter (context : Context) (label : String) :
    (context.enter label).1.depth = context.depth := rfl

@[simp]
theorem path_release (context : Context) (guard : Guard) :
    (context.release guard).path = context.path.take guard.depth := by
  simp [release, path]

theorem length_path (context : Context) :
    context.path.length = context.depth := by
  simp [path, depth]

/-- A stack is determined by its labels. -/
theorem path_injective {left right : Context} (same : left.path = right.path) :
    left = right := by
  cases left
  cases right
  simp_all [path]

/-- Releasing a guard right after entering restores the stack. -/
@[simp]
theorem release_enter (context : Context) (label : String) :
    (context.enter label).2.release (context.enter label).1 = context := by
  apply path_injective
  simp [← length_path]

end Context

end Rulebook
