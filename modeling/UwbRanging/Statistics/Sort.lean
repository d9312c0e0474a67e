import UwbRanging.Arith

/-!
The sort behind the median. The comparison takes two values that cannot be compared as equal, which is no order as soon
as one of several values is not a number. What is documented of the sort is that it is stable and ascending for a total
order, and that otherwise it may break off, or leave the values in any order. Up to twenty values it inserts one by one,
whatever the comparison says.
-/

namespace UwbRanging.Statistics

/-- A sort of many values by a comparison that is no order. It may break off, and nothing is said of the order that it
leaves. It sees the values through the comparison alone. -/
class UnorderedSort where
  sort? {β : Type} (lt : β → β → Bool) (values : List β) : Option (List β)
  perm {β : Type} {lt : β → β → Bool} {values sorted : List β} : sort? lt values = some sorted → sorted.Perm values
  map {β γ : Type} (f : β → γ) (lt : γ → γ → Bool) (values : List β) :
    sort? lt (values.map f) = (sort? (fun v w => lt (f v) (f w)) values).map (List.map f)

/-- When the program runs, it takes every comparison that is no order for a mistake. -/
instance : UnorderedSort where
  sort? _ _ := none
  perm h := by cases h
  map _ _ _ := rfl

/-- Up to so many values are sorted by insertion. -/
def insertionLimit : Nat :=
  20

variable {α : Type} [Arith α]

/-- Inserts a value into a series that descends, before the first value that it is not less than. -/
def insertDescending (v : α) : List α → List α
  | [] => [v]
  | w :: ws => if Arith.lt v w then w :: insertDescending v ws else v :: w :: ws

/-- The values in ascending order, each inserted behind those before it that are not greater. -/
def ascending (values : List α) : List α :=
  (values.foldl (fun ws v => insertDescending v ws) []).reverse

/-- What is not a number does not equal itself. -/
def isNumber (v : α) : Bool :=
  Arith.eq v v

/-- Whether the outcome of the sort is known: for a series of numbers, and for a short one. -/
def isSortable (values : List α) : Bool :=
  values.length ≤ insertionLimit || values.all isNumber

/-- The values as the sort leaves them, unless it breaks off. -/
def ascending? [UnorderedSort] (values : List α) : Option (List α) :=
  if isSortable values then some (ascending values) else UnorderedSort.sort? Arith.lt values

end UwbRanging.Statistics
