import Mathlib.Data.List.Count
import Mathlib.Data.List.Nodup

/-!
# Lists of records with keys

What a client keeps of the rows of a server: a list of records, each of which has a
key. Nothing keeps the keys apart but what the operations do – records are added,
rewritten, replaced and removed by key – so how often a key **occurs** is what is
followed through them. The list **mirrors** the keys of the server if each of them
occurs once, and no other does (`Records.Mirrors`).
-/

namespace Records

variable {α κ : Type*} [DecidableEq κ] (key : α → κ)

def occurrences (k : κ) (xs : List α) : ℕ := (xs.map key).count k

def replace (k : κ) (y : α) (xs : List α) : List α := xs.map fun x => if key x = k then y else x

def rewrite (k : κ) (f : α → α) (xs : List α) : List α :=
  xs.map fun x => if key x = k then f x else x

def remove (k : κ) (xs : List α) : List α := xs.filter fun x => key x ≠ k

variable {key}

@[simp] theorem occurrences_nil (k : κ) : occurrences key k [] = 0 := rfl

theorem occurrences_cons (k : κ) (x : α) (xs : List α) :
    occurrences key k (x :: xs) = (if key x = k then 1 else 0) + occurrences key k xs := by
  show (key x :: xs.map key).count k = _
  rw [List.count_cons, Nat.add_comm]
  simp only [beq_iff_eq]
  rfl

theorem occurrences_append (k : κ) (xs ys : List α) :
    occurrences key k (xs ++ ys) = occurrences key k xs + occurrences key k ys := by
  unfold occurrences
  rw [List.map_append, List.count_append]

theorem occurrences_le {xs ys : List α} (h : xs.Sublist ys) (k : κ) :
    occurrences key k xs ≤ occurrences key k ys := (h.map key).count_le k

theorem occurrences_pos_iff {k : κ} {xs : List α} :
    0 < occurrences key k xs ↔ ∃ x ∈ xs, key x = k := by
  unfold occurrences
  rw [List.count_pos_iff, List.mem_map]

/-- **No two records share a key** exactly if no key occurs twice. -/
theorem nodup_iff_occurrences {xs : List α} :
    (xs.map key).Nodup ↔ ∀ k, occurrences key k xs ≤ 1 := List.nodup_iff_count_le_one

theorem occurrences_map {f : α → α} (hf : ∀ x, key (f x) = key x) (k : κ) (xs : List α) :
    occurrences key k (xs.map f) = occurrences key k xs := by
  unfold occurrences
  rw [List.map_map]
  exact congrArg _ (List.map_congr_left fun x _ => hf x)

/-- **Rewriting keeps the keys**, if the records keep theirs. -/
theorem occurrences_rewrite {f : α → α} (hf : ∀ x, key (f x) = key x) (k k' : κ)
    (xs : List α) : occurrences key k (rewrite key k' f xs) = occurrences key k xs := by
  refine occurrences_map (fun x => ?_) k xs
  split
  · exact hf x
  · rfl

/-- **Replacing moves the occurrences** of a key to that of the new record. -/
theorem occurrences_replace (k k' : κ) (y : α) (xs : List α) :
    occurrences key k (replace key k' y xs)
      = (if key y = k then occurrences key k' xs else 0)
        + (if k = k' then 0 else occurrences key k xs) := by
  unfold replace
  induction xs with
  | nil => simp
  | cons x xs ih =>
    rw [List.map_cons, occurrences_cons, ih, occurrences_cons, occurrences_cons]
    by_cases hx : key x = k'
    · subst hx
      rw [if_pos rfl, if_pos rfl]
      by_cases hk : k = key x
      · rw [if_pos hk, if_pos hk]
        split <;> omega
      · rw [if_neg hk, if_neg hk, if_neg (Ne.symm hk)]
        split <;> omega
    · rw [if_neg hx, if_neg hx, Nat.zero_add]
      by_cases hk : k = k'
      · subst hk
        rw [if_neg hx, if_pos rfl, if_pos rfl]
        omega
      · rw [if_neg hk, if_neg hk]
        omega

/-! ## Lists that mirror a set of keys -/

theorem map_rewrite {f : α → α} {k : κ} (hf : ∀ x, key x = k → key (f x) = k) (xs : List α) :
    (rewrite key k f xs).map key = xs.map key := by
  unfold rewrite
  rw [List.map_map]
  refine List.map_congr_left fun x _ => ?_
  show key (if key x = k then f x else x) = key x
  split
  · next hx => rw [hf x hx, hx]
  · rfl

variable (key) in
omit [DecidableEq κ] in
/-- **The records have just the keys of a set**, and no two share one. -/
structure Mirrors (xs : List α) (p : κ → Prop) : Prop where
  nodup : (xs.map key).Nodup
  mem_iff : ∀ k, k ∈ xs.map key ↔ p k

variable {xs ys : List α} {p q : κ → Prop}

omit [DecidableEq κ] in
theorem Mirrors.congr (h : Mirrors key xs p) (hpq : ∀ k, p k ↔ q k) : Mirrors key xs q :=
  ⟨h.nodup, fun k => (h.mem_iff k).trans (hpq k)⟩

omit [DecidableEq κ] in
theorem Mirrors.of_map_eq (h : Mirrors key xs p) (hmap : ys.map key = xs.map key) :
    Mirrors key ys p :=
  ⟨hmap ▸ h.nodup, fun k => hmap ▸ h.mem_iff k⟩

omit [DecidableEq κ] in
/-- **A record with a new key is added.** -/
theorem Mirrors.cons (h : Mirrors key xs p) {x : α} (hx : ¬ p (key x)) :
    Mirrors key (x :: xs) fun k => k = key x ∨ p k where
  nodup := by
    rw [List.map_cons, List.nodup_cons, h.mem_iff]
    exact ⟨hx, h.nodup⟩
  mem_iff k := by
    rw [List.map_cons, List.mem_cons, h.mem_iff]

/-- **The records with a key are removed.** -/
theorem Mirrors.remove (h : Mirrors key xs p) (k : κ) :
    Mirrors key (remove key k xs) fun k' => k' ≠ k ∧ p k' where
  nodup := h.nodup.sublist (List.filter_sublist.map key)
  mem_iff k' := by
    rw [← h.mem_iff, List.mem_map, List.mem_map]
    constructor
    · rintro ⟨x, hx, rfl⟩
      obtain ⟨hx, hne⟩ := List.mem_filter.mp hx
      exact ⟨of_decide_eq_true hne, x, hx, rfl⟩
    · rintro ⟨hne, x, hx, rfl⟩
      exact ⟨x, List.mem_filter.mpr ⟨hx, decide_eq_true hne⟩, rfl⟩

end Records
