import Mathlib.Data.Fintype.Card
import Mathlib.Data.List.Nodup
import Mathlib.Tactic.Common

/-!
# Looking for a free name

A name is looked for by trying the members of a sequence one after the other until one is
free. A bounded number of trials is given (`Search.firstFree`), and a search that succeeds
finds the same name with more of them (`Search.firstFree_mono`). The search succeeds where
the members that are tried include more different ones than names are taken
(`Search.firstFree_isSome`); it does not matter that others are tried twice.
-/

namespace Search

variable {α : Type*} {taken : α → Bool} {candidate : ℕ → α}

/-- **The first free member of a sequence**, from an index on, within a number of trials. -/
def firstFree (taken : α → Bool) (candidate : ℕ → α) : ℕ → ℕ → Option α
  | 0, _ => none
  | trials + 1, i =>
    if taken (candidate i) then firstFree taken candidate trials (i + 1) else some (candidate i)

theorem firstFree_spec {trials i : ℕ} {a : α}
    (h : firstFree taken candidate trials i = some a) :
    taken a = false ∧ ∃ j, i ≤ j ∧ j < i + trials ∧ a = candidate j := by
  induction trials generalizing i with
  | zero => cases h
  | succ trials ih =>
    rw [firstFree] at h
    split at h
    · obtain ⟨hfree, j, hi, hj, ha⟩ := ih h
      exact ⟨hfree, j, by omega, by omega, ha⟩
    · next hfree =>
      cases h
      exact ⟨Bool.eq_false_iff.mpr hfree, i, le_rfl, by omega, rfl⟩

theorem firstFree_mono {trials trials' i : ℕ} {a : α} (hle : trials ≤ trials')
    (h : firstFree taken candidate trials i = some a) :
    firstFree taken candidate trials' i = some a := by
  induction trials generalizing trials' i with
  | zero => cases h
  | succ trials ih =>
    obtain ⟨more, rfl⟩ := Nat.exists_eq_succ_of_ne_zero (Nat.ne_zero_of_lt hle)
    rw [firstFree] at h ⊢
    split
    · next htaken =>
      rw [if_pos htaken] at h
      exact ih (Nat.succ_le_succ_iff.mp hle) h
    · next htaken =>
      rw [if_neg htaken] at h
      exact h

theorem taken_of_firstFree {trials i j : ℕ} (h : firstFree taken candidate trials i = none)
    (hi : i ≤ j) (hj : j < i + trials) : taken (candidate j) = true := by
  induction trials generalizing i with
  | zero => omega
  | succ trials ih =>
    rw [firstFree] at h
    split at h
    · next htaken =>
      obtain rfl | hlt := Nat.eq_or_lt_of_le hi
      · exact htaken
      · exact ih h hlt (by omega)
    · cases h

/-- **The search succeeds** if, from some trial on, more different members are tried than
names are taken. -/
theorem firstFree_isSome (names : List α) (skipped : ℕ) {trials i : ℕ}
    (hnames : ∀ a, taken a = true → a ∈ names) (hmany : skipped + names.length < trials)
    (hinj : Function.Injective fun j => candidate (i + skipped + j)) :
    (firstFree taken candidate trials i).isSome = true := by
  by_contra hnone
  have hnone := Option.not_isSome_iff_eq_none.mp hnone
  have hsub : (List.range (names.length + 1)).map (fun j => candidate (i + skipped + j))
      ⊆ names := by
    intro a ha
    obtain ⟨j, hj, rfl⟩ := List.mem_map.mp ha
    have hj := List.mem_range.mp hj
    exact hnames _ (taken_of_firstFree hnone (by omega) (by omega))
  have hnodup := (List.nodup_range (n := names.length + 1)).map hinj
  have hle := hnodup.length_le_of_subset hsub
  rw [List.length_map, List.length_range] at hle
  omega

variable (taken candidate) in
theorem find?_range_eq (trials i : ℕ) :
    ((List.range' i trials).map candidate).find? (fun a => !taken a)
      = firstFree taken candidate trials i := by
  induction trials generalizing i with
  | zero => rfl
  | succ trials ih =>
    rw [List.range'_succ, List.map_cons, List.find?_cons, firstFree, ih]
    cases taken (candidate i) with
    | true => rfl
    | false => rfl

end Search
