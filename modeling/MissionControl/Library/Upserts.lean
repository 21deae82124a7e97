import Mathlib.Data.List.Count
import Mathlib.Data.List.Perm.Basic
import Mathlib.Logic.Function.Basic

/-!
# Writes by key

A list of entries is gone through, and each is written under its key, over what an earlier
entry or the start has under it (`after`). Whether an entry is picked may depend on what
it finds under its key (`picked`).

The entries of one key do not see those of the others: what is picked of them is what they
pick as a list of their own (`ofKey_picked`). Names that tell the key, and that the key
tells, are the same with their multiplicities where the keys are (`perm_map_of_keys`).

Where an entry is merged with what it finds, a key has what its own entries make of what it
had at the start (`foldl_put_apply`).
-/

namespace Upserts

variable {α κ β : Type*} [DecidableEq κ]

def ofKey (key : α → κ) (k : κ) (xs : List α) : List α := xs.filter fun x => decide (key x = k)

/-- What the keys have when the entries are written. -/
def after (key : α → κ) (value : α → β) (σ : κ → Option β) : List α → κ → Option β
  | [] => σ
  | x :: xs => after key value (Function.update σ (key x) (some (value x))) xs

/-- **The entries that are picked** by what they find under their key. -/
def picked (key : α → κ) (value : α → β) (p : Option β → α → Bool) (σ : κ → Option β) :
    List α → List α
  | [] => []
  | x :: xs =>
    if p (σ (key x)) x then
      x :: picked key value p (Function.update σ (key x) (some (value x))) xs
    else picked key value p (Function.update σ (key x) (some (value x))) xs

/-- The entries that are picked of those of one key. -/
def chain (value : α → β) (p : Option β → α → Bool) : Option β → List α → List α
  | _, [] => []
  | v, x :: xs =>
    if p v x then x :: chain value p (some (value x)) xs else chain value p (some (value x)) xs

section Keys

variable {key : α → κ} {value : α → β} {p : Option β → α → Bool} {σ : κ → Option β}

theorem mem_ofKey {k : κ} {xs : List α} {x : α} : x ∈ ofKey key k xs ↔ x ∈ xs ∧ key x = k := by
  unfold ofKey
  rw [List.mem_filter, decide_eq_true_iff]

theorem ofKey_cons_self (x : α) (xs : List α) :
    ofKey key (key x) (x :: xs) = x :: ofKey key (key x) xs :=
  List.filter_cons_of_pos (decide_eq_true rfl)

theorem ofKey_cons_of_ne {x : α} {k : κ} (h : key x ≠ k) (xs : List α) :
    ofKey key k (x :: xs) = ofKey key k xs :=
  List.filter_cons_of_neg fun hk => h (of_decide_eq_true hk)

theorem ofKey_filter (q : α → Bool) (k : κ) (xs : List α) :
    ofKey key k (xs.filter q) = (ofKey key k xs).filter q := by
  unfold ofKey
  rw [List.filter_filter, List.filter_filter]
  exact List.filter_congr fun x _ => Bool.and_comm _ _

theorem after_apply (xs : List α) (k : κ) :
    after key value σ xs k = ((ofKey key k xs).getLast?.map value).or (σ k) := by
  induction xs generalizing σ with
  | nil => rfl
  | cons x xs ih =>
    rw [after, ih]
    by_cases hk : key x = k
    · subst hk
      rw [ofKey_cons_self, Function.update_self, List.getLast?_cons]
      cases (ofKey key (key x) xs).getLast? <;> rfl
    · rw [ofKey_cons_of_ne hk, Function.update_of_ne (Ne.symm hk)]

theorem picked_subset (xs : List α) : picked key value p σ xs ⊆ xs := by
  induction xs generalizing σ with
  | nil => exact List.Subset.refl []
  | cons x xs ih =>
    rw [picked]
    split
    · exact List.cons_subset_cons x ih
    · exact List.subset_cons_of_subset x ih

/-- **The entries of a key do not see the others.** -/
theorem ofKey_picked (xs : List α) (k : κ) :
    ofKey key k (picked key value p σ xs) = chain value p (σ k) (ofKey key k xs) := by
  induction xs generalizing σ with
  | nil => rfl
  | cons x xs ih =>
    have hrest := ih (σ := Function.update σ (key x) (some (value x)))
    rw [picked]
    by_cases hk : key x = k
    · subst hk
      rw [Function.update_self] at hrest
      rw [ofKey_cons_self, chain]
      split
      · rw [ofKey_cons_self, hrest]
      · exact hrest
    · rw [Function.update_of_ne (Ne.symm hk)] at hrest
      rw [ofKey_cons_of_ne hk]
      split
      · rw [ofKey_cons_of_ne hk, hrest]
      · exact hrest

theorem chain_eq_nil {v : Option β} {xs : List α} (hv : ∀ x ∈ xs, p v x = false)
    (hsome : ∀ y, ∀ x ∈ xs, p (some y) x = false) : chain value p v xs = [] := by
  induction xs generalizing v with
  | nil => rfl
  | cons x xs ih =>
    rw [chain, if_neg (Bool.eq_false_iff.mp (hv x List.mem_cons_self))]
    exact ih (fun y hy => hsome (value x) y (List.mem_cons_of_mem x hy)) fun z y hy =>
      hsome z y (List.mem_cons_of_mem x hy)

end Keys

/-! ## Writes that merge -/

section Merging

variable {key : α → κ} {merge : Option β → α → β}

/-- An entry that is merged with what its key has. -/
def put (key : α → κ) (merge : Option β → α → β) (σ : κ → Option β) (x : α) : κ → Option β :=
  Function.update σ (key x) (some (merge (σ (key x)) x))

/-- What entries of one key make of what it has. -/
def mergeAll (merge : Option β → α → β) (v : Option β) (xs : List α) : Option β :=
  xs.foldl (fun v x => some (merge v x)) v

/-- **A key has what its own entries make of it.** -/
theorem foldl_put_apply (xs : List α) (σ : κ → Option β) (k : κ) :
    xs.foldl (put key merge) σ k = mergeAll merge (σ k) (ofKey key k xs) := by
  induction xs generalizing σ with
  | nil => rfl
  | cons x xs ih =>
    rw [List.foldl_cons, ih]
    unfold put
    by_cases hk : key x = k
    · subst hk
      rw [Function.update_self, ofKey_cons_self]
      rfl
    · rw [Function.update_of_ne (Ne.symm hk), ofKey_cons_of_ne hk]

theorem mergeAll_concat (v : Option β) (xs : List α) (x : α) :
    mergeAll merge v (xs ++ [x]) = some (merge (mergeAll merge v xs) x) := by
  unfold mergeAll
  rw [List.foldl_append]
  rfl

end Merging

theorem ofKey_map {γ : Type*} (f : γ → α) (key : α → κ) (k : κ) (xs : List γ) :
    ofKey key k (xs.map f) = (ofKey (fun x => key (f x)) k xs).map f := by
  unfold ofKey
  rw [List.filter_map]
  rfl

/-! ## Names -/

section Names

variable {γ : Type*} {key : α → κ} {name : α → γ} (keyOf : γ → κ) {xs ys : List α}

theorem countP_map_name (hkey : ∀ x ∈ xs, keyOf (name x) = key x) (k : κ) :
    (xs.map name).countP (fun n => decide (keyOf n = k)) = (ofKey key k xs).length := by
  unfold ofKey
  rw [List.countP_map, List.countP_eq_length_filter]
  exact congrArg List.length (List.filter_congr fun x hx => by
    rw [Function.comp_apply, hkey x hx])

theorem length_ofKey_of_perm (hx : ∀ x ∈ xs, keyOf (name x) = key x)
    (hy : ∀ y ∈ ys, keyOf (name y) = key y) (h : (xs.map name).Perm (ys.map name)) (k : κ) :
    (ofKey key k xs).length = (ofKey key k ys).length := by
  rw [← countP_map_name keyOf hx, ← countP_map_name keyOf hy]
  exact h.countP_eq _

open Classical in
/-- **The names are the same with their multiplicities** where the keys are, if each key has
one name. -/
theorem perm_map_of_keys (hx : ∀ x ∈ xs, keyOf (name x) = key x)
    (hy : ∀ y ∈ ys, keyOf (name y) = key y)
    (hone : ∀ x ∈ xs ++ ys, ∀ y ∈ xs ++ ys, key x = key y → name x = name y)
    (h : ∀ k, (ofKey key k xs).length = (ofKey key k ys).length) :
    (xs.map name).Perm (ys.map name) := by
  have hkeys : ∀ z ∈ xs ++ ys, keyOf (name z) = key z := fun z hz =>
    (List.mem_append.mp hz).elim (hx z) (hy z)
  rw [List.perm_iff_count]
  intro n
  by_cases hn : ∃ z ∈ xs ++ ys, name z = n
  · obtain ⟨z, hz, rfl⟩ := hn
    -- of what is listed, that of the name is that of the key
    have hcount : ∀ zs : List α, zs ⊆ xs ++ ys →
        (zs.map name).count (name z) = (ofKey key (key z) zs).length := by
      intro zs hsubset
      rw [← countP_map_name keyOf fun x hmem => hkeys x (hsubset hmem), List.count, List.countP_map,
        List.countP_map]
      refine List.countP_congr fun x hmem => ?_
      rw [Function.comp_apply, Function.comp_apply, beq_iff_eq, decide_eq_true_iff,
        hkeys x (hsubset hmem)]
      refine ⟨fun heq => ?_, hone x (hsubset hmem) z hz⟩
      rw [← hkeys x (hsubset hmem), heq, hkeys z hz]
    rw [hcount xs (List.subset_append_left xs ys), hcount ys (List.subset_append_right xs ys)]
    exact h (key z)
  · have hzero : ∀ zs : List α, zs ⊆ xs ++ ys → (zs.map name).count n = 0 := by
      intro zs hsubset
      refine List.count_eq_zero_of_not_mem fun hmem => hn ?_
      obtain ⟨z, hz, hname⟩ := List.mem_map.mp hmem
      exact ⟨z, hsubset hz, hname⟩
    rw [hzero xs (List.subset_append_left xs ys), hzero ys (List.subset_append_right xs ys)]

end Names

end Upserts
