import MissionControl.Library.Records

/-!
# The latest record of each key

Of records with keys the latest one of each key is kept: a record comes at the end if its
key is new, and takes the place of the one that is there if it is newer (`Latest.put`). What
is kept of a list (`Latest.latest`) has each of its keys once, at the place where the key
came first.

Keeping the latest goes together with what is done to all records (`Latest.latest_map`) and
with the removal of a key (`Latest.latest_remove`).
-/

namespace Latest

open Records (remove replace)

variable {α κ : Type*} [DecidableEq κ] (key : α → κ) (newer : α → α → Bool)

/-- **A record comes.** -/
def put (kept : List α) (x : α) : List α :=
  match kept.find? fun y => key y = key x with
  | none => kept ++ [x]
  | some y => if newer x y then replace key (key x) x kept else kept

/-- **The latest record of each key.** -/
def latest (xs : List α) : List α := xs.foldl (put key newer) []

variable {key newer}

/-! ## Keys -/

theorem keys_put (kept : List α) (x : α) :
    (put key newer kept x).map key
      = if key x ∈ kept.map key then kept.map key else kept.map key ++ [key x] := by
  unfold put
  split
  · next hnone =>
    rw [if_neg, List.map_append]
    · rfl
    · intro hmem
      obtain ⟨y, hy, hkey⟩ := List.mem_map.mp hmem
      exact List.find?_eq_none.mp hnone y hy (decide_eq_true hkey)
  · next y hy =>
    rw [if_pos (List.mem_map.mpr ⟨y, List.mem_of_find?_eq_some hy,
      of_decide_eq_true (List.find?_some hy :)⟩)]
    split
    · unfold replace
      rw [List.map_map]
      refine List.map_congr_left fun z _ => ?_
      rw [Function.comp_apply]
      split
      · next hkey => exact hkey.symm
      · rfl
    · rfl

/-- **A key is kept if a record has it.** -/
theorem mem_keys_latest {k : κ} {xs : List α} :
    k ∈ (latest key newer xs).map key ↔ k ∈ xs.map key := by
  have hall : ∀ kept : List α, k ∈ (xs.foldl (put key newer) kept).map key
      ↔ k ∈ kept.map key ∨ k ∈ xs.map key := by
    induction xs with
    | nil => exact fun kept => (or_iff_left List.not_mem_nil).symm
    | cons x xs ih =>
      intro kept
      rw [List.foldl_cons, ih, keys_put, List.map_cons, List.mem_cons]
      split
      · next hx =>
        constructor
        · exact fun h => h.imp id .inr
        · rintro (h | rfl | h)
          · exact .inl h
          · exact .inl hx
          · exact .inr h
      · rw [List.mem_append, List.mem_singleton, or_assoc]
  exact (hall []).trans (or_iff_right List.not_mem_nil)

theorem subset_of_latest (xs : List α) : latest key newer xs ⊆ xs := by
  have hput : ∀ (kept : List α) (x : α), put key newer kept x ⊆ kept ++ [x] := by
    intro kept x
    unfold put
    split
    · exact fun y hy => hy
    · split
      · intro y hy
        obtain ⟨z, hz, hzy⟩ := List.mem_map.mp hy
        split at hzy
        · exact List.mem_append_right _ (List.mem_singleton.mpr hzy.symm)
        · exact List.mem_append_left _ (hzy ▸ hz)
      · exact List.subset_append_left kept [x]
  have hall : ∀ kept : List α, xs.foldl (put key newer) kept ⊆ kept ++ xs := by
    induction xs with
    | nil => exact fun kept => List.subset_append_left kept []
    | cons x xs ih =>
      intro kept
      rw [List.foldl_cons, List.append_cons]
      exact List.Subset.trans (ih _) (List.append_subset.mpr
        ⟨List.Subset.trans (hput kept x) (List.subset_append_left _ xs),
          List.subset_append_right _ xs⟩)
  exact hall []

/-- **The only record of a key** is kept. -/
theorem mem_latest_of_sole {x : α} {xs : List α} (hx : x ∈ xs)
    (hsole : ∀ y ∈ xs, key y = key x → y = x) : x ∈ latest key newer xs := by
  have hmem : key x ∈ (latest key newer xs).map key :=
    mem_keys_latest.mpr (List.mem_map_of_mem hx)
  obtain ⟨y, hy, hkey⟩ := List.mem_map.mp hmem
  rwa [hsole y (subset_of_latest xs hy) hkey] at hy

/-! ## What commutes with it -/

theorem latest_map {f : α → α} (hkey : ∀ x, key (f x) = key x)
    (hnewer : ∀ x y, newer (f x) (f y) = newer x y) (xs : List α) :
    latest key newer (xs.map f) = (latest key newer xs).map f := by
  have hput : ∀ (kept : List α) (x : α),
      put key newer (kept.map f) (f x) = (put key newer kept x).map f := by
    intro kept x
    have hfind : (kept.map f).find? (fun y => key y = key (f x))
        = (kept.find? fun y => key y = key x).map f := by
      rw [List.find?_map]
      refine congrArg (Option.map f ·) (congrArg (kept.find? ·) (funext fun y => ?_))
      rw [Function.comp_apply, hkey, hkey]
    unfold put
    rw [hfind]
    cases kept.find? fun y => key y = key x with
    | none => exact (List.map_append : (kept ++ [x]).map f = kept.map f ++ [x].map f).symm
    | some y =>
      show (if newer (f x) (f y) then _ else _) = List.map f (if newer x y then _ else _)
      rw [hnewer]
      split
      · unfold replace
        rw [List.map_map, List.map_map]
        refine List.map_congr_left fun z _ => ?_
        rw [Function.comp_apply, Function.comp_apply, hkey, hkey]
        split <;> rfl
      · rfl
  have hall : ∀ kept : List α,
      (xs.map f).foldl (put key newer) (kept.map f) = (xs.foldl (put key newer) kept).map f := by
    induction xs with
    | nil => exact fun kept => rfl
    | cons x xs ih =>
      intro kept
      rw [List.map_cons, List.foldl_cons, List.foldl_cons, hput, ih]
  exact hall []

/-- A record that takes the place of those of its key is removed with them, and stays where
another key is removed. -/
theorem remove_replace (k : κ) (x : α) (xs : List α) :
    remove key k (replace key (key x) x xs) = replace key (key x) x (remove key k xs) := by
  unfold remove replace
  rw [List.filter_map]
  refine congrArg (List.map _ ·) (List.filter_congr fun z _ => ?_)
  rw [Function.comp_apply]
  split
  · next hz => rw [hz]
  · rfl

theorem replace_remove_self (x : α) (xs : List α) :
    replace key (key x) x (remove key (key x) xs) = remove key (key x) xs := by
  refine (List.map_congr_left fun z hz => ?_).trans (List.map_id _)
  exact if_neg (of_decide_eq_true (List.mem_filter.mp hz).2)

theorem remove_put_self (kept : List α) (x : α) :
    remove key (key x) (put key newer kept x) = remove key (key x) kept := by
  unfold put
  split
  · unfold remove
    rw [List.filter_append, List.filter_cons_of_neg (by simp), List.filter_nil,
      List.append_nil]
  · split
    · rw [remove_replace, replace_remove_self]
    · rfl

/-- A record of another key comes as if those of the key were not there. -/
theorem remove_put_of_ne {k : κ} {x : α} (hx : key x ≠ k) (kept : List α) :
    remove key k (put key newer kept x) = put key newer (remove key k kept) x := by
  have hfind : (remove key k kept).find? (fun y => key y = key x)
      = kept.find? fun y => key y = key x := by
    unfold remove
    rw [List.find?_filter]
    refine congrArg (kept.find? ·) (funext fun y => ?_)
    by_cases hy : key y = key x
    · simp [hy, hx]
    · simp [hy]
  unfold put
  rw [hfind]
  cases kept.find? fun y => key y = key x with
  | none =>
    show remove key k (kept ++ [x]) = remove key k kept ++ [x]
    unfold remove
    rw [List.filter_append, List.filter_cons_of_pos (by simpa using hx), List.filter_nil]
  | some y =>
    show remove key k (if newer x y then _ else _) = if newer x y then _ else _
    split
    · exact remove_replace k x kept
    · rfl

/-- **The records of a key may be removed before or after.** -/
theorem latest_remove (k : κ) (xs : List α) :
    latest key newer (remove key k xs) = remove key k (latest key newer xs) := by
  have hall : ∀ kept : List α, (remove key k xs).foldl (put key newer) (remove key k kept)
      = remove key k (xs.foldl (put key newer) kept) := by
    induction xs with
    | nil => exact fun kept => rfl
    | cons x xs ih =>
      intro kept
      rw [List.foldl_cons, ← ih]
      by_cases hx : key x = k
      · subst hx
        rw [remove_put_self]
        exact congrArg (List.foldl _ _ ·) (List.filter_cons_of_neg (by simp))
      · rw [remove_put_of_ne hx, ← List.foldl_cons]
        exact congrArg (List.foldl _ _ ·) (List.filter_cons_of_pos (by simpa using hx))
  exact hall []

end Latest
