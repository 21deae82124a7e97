import Mathlib.Data.List.Nodup
import Mathlib.Tactic.Common

/-!
# Bounded lists of what came last

A list of records with keys, newest first, with a bound on its length. A record whose key
is there is put in place of the old one; another comes in front, and what is over the bound
is dropped at the end (`Recency.put`). On the keys alone that is `Recency.admitKey`, and the
list keeps just the latest keys of those that came in while they were not there
(`Recency.admitKey_take`): a key that was dropped may come in again, and then is a new one.
-/

namespace Recency

variable {α κ : Type*} [DecidableEq κ]

/-- **A key comes in.** -/
def admitKey (cap : ℕ) (ks : List κ) (k : κ) : List κ :=
  if k ∈ ks then ks else (k :: ks).take cap

/-- **A record comes in.** -/
def put (key : α → κ) (cap : ℕ) (x : α) (xs : List α) : List α :=
  match xs.findIdx? fun y => key y = key x with
  | some i => xs.set i x
  | none => (x :: xs).take cap

section Keys

variable {cap : ℕ} {ks : List κ} {k : κ}

theorem nodup_admitKey (h : ks.Nodup) : (admitKey cap ks k).Nodup := by
  unfold admitKey
  split
  · exact h
  · next hk => exact (List.nodup_cons.mpr ⟨hk, h⟩).sublist (List.take_sublist cap _)

theorem length_admitKey_le (h : ks.length ≤ cap) : (admitKey cap ks k).length ≤ cap := by
  unfold admitKey
  split
  · exact h
  · exact List.length_take_le cap _

/-- **What is kept is the latest part of what came in**, a key being new if it is not
among what is kept. -/
theorem admitKey_take (past : List κ) :
    admitKey cap (past.take cap) k
      = (if k ∈ past.take cap then past else k :: past).take cap := by
  unfold admitKey
  split
  · rfl
  · cases cap with
    | zero => rfl
    | succ n => rw [List.take_succ_cons, List.take_succ_cons, List.take_take,
        Nat.min_eq_left (Nat.le_succ n)]

end Keys

section Records

variable {key : α → κ} {cap : ℕ} {x : α} {xs : List α}

/-- Where a record is put: in place of the first one with its key. -/
theorem put_of_mem (cap : ℕ) (h : key x ∈ xs.map key) :
    ∃ i, ∃ hi : i < xs.length, key (xs[i]) = key x ∧ put key cap x xs = xs.set i x := by
  obtain ⟨y, hy, hkey⟩ := List.mem_map.mp h
  cases hfind : xs.findIdx? fun y => key y = key x with
  | none =>
    have hnone := List.findIdx?_eq_none_iff.mp hfind y hy
    exact absurd hkey (of_decide_eq_false hnone)
  | some i =>
    obtain ⟨hi, hkey, -⟩ := List.findIdx?_eq_some_iff_getElem.mp hfind
    refine ⟨i, hi, of_decide_eq_true hkey, ?_⟩
    unfold put
    rw [hfind]

theorem put_of_notMem (h : key x ∉ xs.map key) : put key cap x xs = (x :: xs).take cap := by
  have hfind : (xs.findIdx? fun y => key y = key x) = none :=
    List.findIdx?_eq_none_iff.mpr fun y hy =>
      decide_eq_false fun hkey => h (List.mem_map.mpr ⟨y, hy, hkey⟩)
  unfold put
  rw [hfind]

/-- **The keys of the records.** -/
theorem map_put : (put key cap x xs).map key = admitKey cap (xs.map key) (key x) := by
  unfold admitKey
  split
  · next h =>
    obtain ⟨i, hi, hkey, heq⟩ := put_of_mem cap h
    rw [heq, List.map_set, ← hkey]
    refine List.ext_getElem? fun j => ?_
    by_cases hj : i = j
    · subst hj
      rw [List.getElem?_set_self (by rwa [List.length_map]), List.getElem?_map,
        List.getElem?_eq_getElem hi]
      rfl
    · rw [List.getElem?_set_ne hj]
  · next h => rw [put_of_notMem h, List.map_take, List.map_cons]

/-- **A record whose key is there is put in its place**, and the others stay where they
are. -/
theorem getElem?_put_of_mem (hnodup : (xs.map key).Nodup) (h : key x ∈ xs.map key) (j : ℕ) :
    (put key cap x xs)[j]? = if xs[j]?.map key = some (key x) then some x else xs[j]? := by
  obtain ⟨i, hi, hkey, heq⟩ := put_of_mem cap h
  rw [heq]
  by_cases hj : i = j
  · subst hj
    rw [List.getElem?_set_self hi, List.getElem?_eq_getElem hi, Option.map_some, hkey,
      if_pos rfl]
  · rw [List.getElem?_set_ne hj, if_neg]
    intro hat
    -- the key stands at one place only
    have hlength : i < (xs.map key).length := by rwa [List.length_map]
    have hsame : (xs.map key)[i]? = (xs.map key)[j]? := by
      rw [List.getElem?_map, List.getElem?_map, hat, List.getElem?_eq_getElem hi,
        Option.map_some, hkey]
    exact hj ((List.getElem?_inj hlength hnodup).mp hsame)

end Records

end Recency
