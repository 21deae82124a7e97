import Mathlib.Algebra.BigOperators.Group.List.Basic

/-!
# Sums that keep a first or a last value

What a run over a list keeps can be a sum in a monoid whose parts add up in different ways:
of one the first value counts, of another the last one (`Accumulators.First`, `Last`). A
part of a sum is then the first value among the summands, or the last one.
-/

namespace Accumulators

variable {M β : Type*} [AddMonoid M]

/-- **A part of which the first value counts.** -/
structure First (part : M → Option β) : Prop where
  zero : part 0 = none
  add : ∀ s t, part (s + t) = (part s).or (part t)

/-- **A part of which the last value counts.** -/
structure Last (part : M → Option β) : Prop where
  zero : part 0 = none
  add : ∀ s t, part (s + t) = (part t).or (part s)

/-- The first value of a sum is that of the first summand that has one. -/
theorem First.sum {part : M → Option β} (h : First part) (xs : List M) :
    part xs.sum = xs.findSome? part := by
  induction xs with
  | nil => exact h.zero
  | cons x xs ih =>
    rw [List.sum_cons, h.add, ih, List.findSome?_cons]
    cases part x <;> rfl

/-- The last value of a sum is that of the last summand that has one. -/
theorem Last.sum {part : M → Option β} (h : Last part) (xs : List M) :
    part xs.sum = (xs.filterMap part).getLast? := by
  induction xs with
  | nil => exact h.zero
  | cons x xs ih =>
    rw [List.sum_cons, h.add, ih]
    cases hx : part x with
    | none => rw [List.filterMap_cons_none hx, Option.or_none]
    | some y =>
      rw [List.filterMap_cons_some hx, List.getLast?_cons]
      cases (xs.filterMap part).getLast? <;> rfl

end Accumulators
