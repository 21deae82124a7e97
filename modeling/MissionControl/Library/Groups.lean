import Mathlib.Algebra.BigOperators.Group.List.Basic
import Mathlib.Algebra.GroupWithZero.Nat
import Mathlib.Algebra.Ring.Int.Defs
import Mathlib.Data.List.Induction
import Mathlib.Data.List.Nodup
import Mathlib.Data.List.Perm.Basic

/-!
# Grouping by a key

The elements of a list are put, one after the other, into the group of their key
(`Groups.groups`). Every element is in one group, that of its key: each group is the part
of the list with its key (`mem_groups`), the keys are different (`nodup_keys`), and all
groups together are the list (`perm_groups`). So what is counted over the groups is what is
counted over the list (`sum_groups`).
-/

namespace Groups

variable {κ α : Type*} [DecidableEq κ]

/-- An element put at the end of the group of its key, which is made if it is not there. -/
def push (k : κ) (x : α) : List (κ × List α) → List (κ × List α)
  | [] => [(k, [x])]
  | g :: gs => if g.1 = k then (k, g.2 ++ [x]) :: gs else g :: push k x gs

/-- **The groups of a list.** -/
def groups (key : α → κ) (xs : List α) : List (κ × List α) :=
  xs.foldl (fun gs x => push (key x) x gs) []

variable {key : α → κ} {k : κ} {x : α} {xs : List α} {gs : List (κ × List α)}

theorem groups_concat (key : α → κ) (xs : List α) (x : α) :
    groups key (xs ++ [x]) = push (key x) x (groups key xs) := by
  unfold groups
  rw [List.foldl_append]
  rfl

/-! ## Keys -/

theorem mem_keys_push {k' : κ} :
    k' ∈ (push k x gs).map Prod.fst ↔ k' ∈ gs.map Prod.fst ∨ k' = k := by
  induction gs with
  | nil => simp [push]
  | cons g gs ih =>
    rw [push]
    split
    · next hg =>
      subst hg
      rw [List.map_cons, List.map_cons, List.mem_cons]
      tauto
    · rw [List.map_cons, List.map_cons, List.mem_cons, List.mem_cons, ih, or_assoc]

/-- **The keys of the groups** are those of the elements. -/
theorem mem_keys_groups {k : κ} :
    k ∈ (groups key xs).map Prod.fst ↔ ∃ x ∈ xs, key x = k := by
  induction xs using List.reverseRecOn with
  | nil => simp [groups]
  | append_singleton xs x ih =>
    rw [groups_concat, mem_keys_push, ih]
    constructor
    · rintro (⟨y, hy, rfl⟩ | rfl)
      · exact ⟨y, List.mem_append_left _ hy, rfl⟩
      · exact ⟨x, by simp, rfl⟩
    · rintro ⟨y, hy, rfl⟩
      rcases List.mem_append.mp hy with hy | hy
      · exact .inl ⟨y, hy, rfl⟩
      · exact .inr (congrArg key (List.mem_singleton.mp hy))

theorem nodup_keys_push (h : (gs.map Prod.fst).Nodup) :
    ((push k x gs).map Prod.fst).Nodup := by
  induction gs with
  | nil => exact List.nodup_singleton k
  | cons g gs ih =>
    obtain ⟨hnot, hrest⟩ := List.nodup_cons.mp h
    rw [push]
    split
    · next hg =>
      subst hg
      exact h
    · next hg =>
      refine List.nodup_cons.mpr ⟨fun hmem => ?_, ih hrest⟩
      rcases mem_keys_push.mp hmem with hmem | heq
      · exact hnot hmem
      · exact hg heq

/-- **The groups have different keys.** -/
theorem nodup_keys (key : α → κ) (xs : List α) : ((groups key xs).map Prod.fst).Nodup := by
  induction xs using List.reverseRecOn with
  | nil => exact List.nodup_nil
  | append_singleton xs x ih =>
    rw [groups_concat]
    exact nodup_keys_push ih

/-! ## Elements -/

/-- A group, with one more element: another one as it was, or the one of the key. -/
theorem mem_push {g : κ × List α} (hnodup : (gs.map Prod.fst).Nodup) (h : g ∈ push k x gs) :
    (g ∈ gs ∧ g.1 ≠ k)
      ∨ (g.1 = k ∧ ((∃ ys, (k, ys) ∈ gs ∧ g.2 = ys ++ [x])
        ∨ (k ∉ gs.map Prod.fst ∧ g.2 = [x]))) := by
  induction gs with
  | nil =>
    obtain rfl := List.mem_singleton.mp h
    exact .inr ⟨rfl, .inr ⟨List.not_mem_nil, rfl⟩⟩
  | cons g' gs ih =>
    obtain ⟨hnot, hrest⟩ := List.nodup_cons.mp hnodup
    rw [push] at h
    split at h
    · next hg' =>
      subst hg'
      rcases List.mem_cons.mp h with rfl | h
      · exact .inr ⟨rfl, .inl ⟨g'.2, List.mem_cons_self, rfl⟩⟩
      · refine .inl ⟨List.mem_cons_of_mem _ h, fun heq => hnot ?_⟩
        exact heq ▸ List.mem_map_of_mem h
    · next hg' =>
      rcases List.mem_cons.mp h with rfl | h
      · exact .inl ⟨List.mem_cons_self, hg'⟩
      · rcases ih hrest h with ⟨hmem, hne⟩ | ⟨heq, ⟨ys, hys, hg⟩ | ⟨hno, hg⟩⟩
        · exact .inl ⟨List.mem_cons_of_mem _ hmem, hne⟩
        · exact .inr ⟨heq, .inl ⟨ys, List.mem_cons_of_mem _ hys, hg⟩⟩
        · refine .inr ⟨heq, .inr ⟨?_, hg⟩⟩
          rw [List.map_cons, List.mem_cons, not_or]
          exact ⟨Ne.symm hg', hno⟩

/-- **A group is the part of the list with its key.** -/
theorem mem_groups {g : κ × List α} (h : g ∈ groups key xs) :
    g.2 = xs.filter fun x => decide (key x = g.1) := by
  induction xs using List.reverseRecOn generalizing g with
  | nil => cases h
  | append_singleton xs x ih =>
    rw [groups_concat] at h
    rw [List.filter_append]
    rcases mem_push (nodup_keys key xs) h with ⟨hmem, hne⟩ | ⟨heq, ⟨ys, hys, hg⟩ | ⟨hno, hg⟩⟩
    · rw [← ih hmem, List.filter_cons_of_neg (by simpa using Ne.symm hne), List.filter_nil,
        List.append_nil]
    · have hys : ys = xs.filter fun y => decide (key y = key x) := ih hys
      rw [heq, hg, hys, List.filter_cons_of_pos (by simp), List.filter_nil]
    · have hnone : xs.filter (fun x => decide (key x = g.1)) = [] := by
        refine List.filter_eq_nil_iff.mpr fun y hy hkey => hno ?_
        exact mem_keys_groups.mpr ⟨y, hy, (of_decide_eq_true hkey).trans heq⟩
      rw [hnone, hg, heq, List.filter_cons_of_pos (by simp), List.filter_nil, List.nil_append]

theorem perm_push (k : κ) (x : α) (gs : List (κ × List α)) :
    ((push k x gs).flatMap Prod.snd).Perm (gs.flatMap Prod.snd ++ [x]) := by
  induction gs with
  | nil => exact .refl _
  | cons g gs ih =>
    rw [push]
    split
    · rw [List.flatMap_cons, List.flatMap_cons, List.append_assoc, List.append_assoc]
      exact List.perm_append_comm.append_left _
    · rw [List.flatMap_cons, List.flatMap_cons, List.append_assoc]
      exact ih.append_left _

/-- **All groups together are the list.** -/
theorem perm_groups (key : α → κ) (xs : List α) :
    ((groups key xs).flatMap Prod.snd).Perm xs := by
  induction xs using List.reverseRecOn with
  | nil => exact .refl _
  | append_singleton xs x ih =>
    rw [groups_concat]
    exact (perm_push _ _ _).trans (ih.append_right _)

theorem sum_length_groups (key : α → κ) (xs : List α) :
    ((groups key xs).map fun g => g.2.length).sum = xs.length := by
  rw [← List.length_flatMap]
  exact (perm_groups key xs).length_eq

/-- **What is counted over the groups** is what is counted over the list. -/
theorem sum_groups {M : Type*} [AddCommMonoid M] (key : α → κ) (f : α → M) (xs : List α) :
    ((groups key xs).map fun g => (g.2.map f).sum).sum = (xs.map f).sum := by
  have hsum : ∀ gs : List (κ × List α),
      (gs.map fun g => (g.2.map f).sum).sum = ((gs.flatMap Prod.snd).map f).sum := by
    intro gs
    induction gs with
    | nil => rfl
    | cons g gs ih =>
      rw [List.map_cons, List.sum_cons, ih, List.flatMap_cons, List.map_append, List.sum_append]
  rw [hsum]
  exact ((perm_groups key xs).map f).sum_eq

end Groups
