import Mathlib.Data.List.Basic
import Mathlib.Data.List.Flatten

/-!
# Splitting at a separator

A text of several lines is its lines joined by a separator, and splitting it
gives them back as long as none of them has the separator in it. The
converse is proved here as well: if as many pieces come out as texts went
in, the texts are the pieces (`splitOn_intercalate_eq_iff`).
-/

namespace Lines

variable {α : Type*} [DecidableEq α] (x : α)

theorem notMem_of_mem_splitOn (l : List α) :
    ∀ piece ∈ l.splitOn x, x ∉ piece := by
  induction l with
  | nil => simp
  | cons c l ih =>
    rw [List.splitOn_cons_eq_if_modifyHead]
    split
    · intro piece hpiece
      rcases List.mem_cons.mp hpiece with rfl | hpiece
      · exact List.not_mem_nil
      · exact ih piece hpiece
    · next hc =>
      have hne : x ≠ c := by
        rintro rfl
        exact hc (beq_self_eq_true _)
      cases hs : l.splitOn x with
      | nil => exact absurd hs (List.splitOn_ne_nil _ _)
      | cons a pieces =>
        rw [hs] at ih
        intro piece hpiece
        rcases List.mem_cons.mp hpiece with rfl | hpiece
        · simpa [hne] using ih a List.mem_cons_self
        · exact ih piece (List.mem_cons_of_mem _ hpiece)

/-- A text without the separator goes to the first piece of the text behind it. -/
theorem splitOn_append_of_notMem {a : List α} (h : x ∉ a) (b : List α) :
    (a ++ b).splitOn x = (b.splitOn x).modifyHead (a ++ ·) := by
  induction a with
  | nil =>
    cases hb : b.splitOn x with
    | nil => exact absurd hb (List.splitOn_ne_nil x b)
    | cons piece pieces => rw [List.nil_append, hb, List.modifyHead_cons, List.nil_append]
  | cons c a ih =>
    obtain ⟨hc, ha⟩ := List.ne_and_not_mem_of_not_mem_cons h
    rw [List.cons_append, List.splitOn_cons_eq_if_modifyHead,
      if_neg fun heq => hc (eq_of_beq heq).symm, ih ha, List.modifyHead_modifyHead]
    rfl

theorem length_splitOn_pos (l : List α) : 0 < (l.splitOn x).length :=
  List.length_pos_of_ne_nil (List.splitOn_ne_nil x l)

/-- The pieces of texts that are joined by a separator are the pieces of the
texts. -/
theorem splitOn_intercalate_eq : ∀ {ls : List (List α)}, ls ≠ [] →
    ([x].intercalate ls).splitOn x = ls.flatMap (fun l => l.splitOn x)
  | [l], _ => by simp
  | l :: m :: ls, _ => by
    have ih := splitOn_intercalate_eq (List.cons_ne_nil m ls)
    rw [List.intercalate_cons_cons, List.append_assoc, List.singleton_append,
      List.splitOn_append_cons_self, ih, List.flatMap_cons (x := l)]

theorem length_le_length_flatMap_splitOn (ls : List (List α)) :
    ls.length ≤ (ls.flatMap (fun l => l.splitOn x)).length := by
  induction ls with
  | nil => exact Nat.le_refl _
  | cons l ls ih =>
    have hpos := length_splitOn_pos x l
    rw [List.flatMap_cons, List.length_append, List.length_cons]
    omega

theorem splitOn_eq_singleton {l : List α} (h : (l.splitOn x).length = 1) :
    l.splitOn x = [l] := by
  obtain ⟨piece, hpiece⟩ := List.length_eq_one_iff.mp h
  have hself : [x].intercalate (l.splitOn x) = l := List.intercalate_splitOn x
  rw [hpiece, List.intercalate_singleton] at hself
  rw [hpiece, hself]

theorem eq_of_flatMap_splitOn : ∀ {ls ms : List (List α)},
    ls.length = ms.length → ls.flatMap (fun l => l.splitOn x) = ms → ls = ms
  | [], ms, hlength, _ => (List.length_eq_zero_iff.mp hlength.symm).symm
  | l :: ls, ms, hlength, h => by
    have hpos := length_splitOn_pos x l
    have hrest := length_le_length_flatMap_splitOn x ls
    have hone : l.splitOn x = [l] := by
      refine splitOn_eq_singleton x ?_
      rw [← h, List.flatMap_cons, List.length_append, List.length_cons] at hlength
      omega
    rw [List.flatMap_cons, hone, List.singleton_append] at h
    subst h
    rw [← eq_of_flatMap_splitOn (Nat.succ.inj hlength) rfl]

/-- **Texts joined by a separator are its pieces exactly when none of them
has the separator in it.** -/
theorem splitOn_intercalate_eq_iff {ls ms : List (List α)} (hne : ls ≠ [])
    (hlength : ls.length = ms.length) :
    ([x].intercalate ls).splitOn x = ms ↔ ls = ms ∧ ∀ l ∈ ls, x ∉ l := by
  refine ⟨fun h => ?_, fun h => ?_⟩
  · have hfree := notMem_of_mem_splitOn x ([x].intercalate ls)
    rw [h] at hfree
    rw [splitOn_intercalate_eq x hne] at h
    obtain rfl := eq_of_flatMap_splitOn x hlength h
    exact ⟨rfl, hfree⟩
  · rw [List.splitOn_intercalate x h.2 hne, h.1]

end Lines
