import Mathlib.Data.List.Basic
import Mathlib.Tactic.Common

/-!
# Filters that may fail

A filter whose test may fail goes through its list and fails at the first element whose test
does (`Fallible.filter`). So it succeeds exactly if no test fails, and then gives what passes
(`Fallible.filter_eq_ok`).
-/

namespace Fallible

variable {ε α : Type*} {test : α → Except ε Bool}

/-- **The elements that pass**, or the failure of the first test that fails. -/
def filter (test : α → Except ε Bool) : List α → Except ε (List α)
  | [] => .ok []
  | x :: xs =>
    match test x, filter test xs with
    | .error e, _ => .error e
    | .ok _, .error e => .error e
    | .ok b, .ok ys => .ok (if b then x :: ys else ys)

/-- Whether the test of an element succeeds and is passed. -/
def passes (test : α → Except ε Bool) (x : α) : Bool :=
  match test x with
  | .ok b => b
  | .error _ => false

theorem passes_of_ok {x : α} {b : Bool} (h : test x = .ok b) : passes test x = b := by
  unfold passes
  rw [h]

/-- **A filter succeeds** exactly if no test fails, and gives what passes. -/
theorem filter_eq_ok {xs ys : List α} :
    filter test xs = .ok ys
      ↔ (∀ x ∈ xs, ∃ b, test x = .ok b) ∧ ys = xs.filter (passes test) := by
  induction xs generalizing ys with
  | nil =>
    rw [List.filter_nil, filter]
    refine ⟨fun h => ⟨fun x hx => absurd hx List.not_mem_nil, (Except.ok.inj h).symm⟩, ?_⟩
    rintro ⟨-, rfl⟩
    rfl
  | cons x xs ih =>
    rw [filter, List.forall_mem_cons]
    cases hx : test x with
    | error e => exact ⟨fun h => (by cases h), fun h => by obtain ⟨b, hb⟩ := h.1.1; cases hb⟩
    | ok b =>
      cases hxs : filter test xs with
      | error e =>
        refine ⟨fun h => (by cases h), fun h => ?_⟩
        have hrest := ih.mpr ⟨h.1.2, rfl⟩
        rw [hxs] at hrest
        cases hrest
      | ok zs =>
        obtain ⟨hall, rfl⟩ := ih.mp hxs
        rw [List.filter_cons, passes_of_ok hx]
        refine ⟨fun h => ⟨⟨⟨b, rfl⟩, hall⟩, (Except.ok.inj h).symm⟩, ?_⟩
        rintro ⟨-, rfl⟩
        rfl

end Fallible
