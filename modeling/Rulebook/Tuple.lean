/-
# Tuples that grow at the end

A tuple has one value for each type of a list. A value can be appended to it,
the last one can be split off again, and the first one can be taken out.
-/

namespace Rulebook

/-- One value for each type of a list. -/
def Tuple : List Type → Type
  | [] => Unit
  | α :: rest => α × Tuple rest

namespace Tuple

variable {α β : Type}

/-- The tuple without values. -/
def empty : Tuple [] := ()

/-- Add a value after all others. -/
def append : {types : List Type} → Tuple types → β → Tuple (types ++ [β])
  | [], _, last => (last, ())
  | _ :: _, (value, rest), last => (value, append rest last)

/-- The values before the last one, and the last one. -/
def split : {types : List Type} → Tuple (types ++ [β]) → Tuple types × β
  | [], (last, _) => ((), last)
  | _ :: _, (value, rest) =>
    let (front, last) := split rest
    ((value, front), last)

/-- The first value. -/
def first {types : List Type} : Tuple (α :: types) → α
  | (value, _) => value

@[simp]
theorem split_append : {types : List Type} → (values : Tuple types) →
    (last : β) → (values.append last).split = (values, last)
  | [], _, _ => rfl
  | _ :: _, (value, rest), last => by simp [append, split, split_append rest]

@[simp]
theorem first_append {types : List Type} (values : Tuple (α :: types))
    (last : β) : first (values.append last) = first values := rfl

end Tuple

end Rulebook
