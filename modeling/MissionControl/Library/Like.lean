import Mathlib.Data.List.Infix
import Mathlib.Tactic.Common

/-!
# `LIKE` patterns

The patterns of the SQL operator `LIKE`. In a pattern `%` stands for any text and `_`
for any one character; another character stands for itself, and for those that a
folding of letters makes equal to it.

A text that is quoted in a pattern matches itself wherever it occurs
(`Like.run_contains`), but not only itself: it may hold wildcards.
-/

namespace Like

variable (fold : Char → Char)

/-- **Whether a pattern matches a text.** -/
def run : List Char → List Char → Bool
  | [], s => s.isEmpty
  | c :: p, s =>
    if c = '%' then s.tails.any (run p)
    else
      match s with
      | [] => false
      | d :: s => (decide (fold c = fold d) || decide (c = '_')) && run p s

theorem run_wildcard {p s t : List Char} (h : run fold p t = true) (hsuffix : t <:+ s) :
    run fold ('%' :: p) s = true := by
  rw [run.eq_def]
  dsimp only
  rw [if_pos rfl, List.any_eq_true]
  exact ⟨t, (List.mem_tails t s).mpr hsuffix, h⟩

/-- **What stands in a pattern matches itself**, also where it holds wildcards. -/
theorem run_append_self (u : List Char) {p s : List Char} (h : run fold p s = true) :
    run fold (u ++ p) (u ++ s) = true := by
  induction u with
  | nil => exact h
  | cons c u ih =>
    rw [List.cons_append, List.cons_append]
    by_cases hc : c = '%'
    · rw [hc]
      exact run_wildcard fold ih (List.suffix_cons _ _)
    · rw [run, if_neg hc]
      simp [ih]

/-- **A pattern for the texts that contain another one** matches them. -/
theorem run_contains {u s : List Char} (h : u <:+: s) :
    run fold ('%' :: (u ++ ['%'])) s = true := by
  obtain ⟨before, after, rfl⟩ := h
  refine run_wildcard fold (run_append_self fold u ?_) ⟨before, (List.append_assoc _ _ _).symm⟩
  exact run_wildcard fold rfl (List.nil_suffix)

end Like
