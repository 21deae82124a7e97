import Mathlib.Data.List.Nodup

/-!
# Assignments of which the last one counts

A list of assignments to keys, of which the last one to a key counts (`last`). Where a
value is put in place of the first one (`put`), it counts if there is no other. Values that
are put for several keys are what counts exactly if each key has at most one assignment
before, or the value already (`last_putAll_iff`).
-/

namespace Assignments

variable {κ β : Type*} [DecidableEq κ]

def last (k : κ) : List (κ × β) → Option β
  | [] => none
  | e :: es => (last k es).or (if e.1 = k then some e.2 else none)

/-- How many assignments to a key there are. -/
def times (k : κ) (es : List (κ × β)) : ℕ := es.countP fun e => decide (e.1 = k)

/-- **A value put in place of the first one**, or at the end. -/
def put (k : κ) (v : β) : List (κ × β) → List (κ × β)
  | [] => [(k, v)]
  | e :: es => if e.1 = k then (k, v) :: es else e :: put k v es

def putAll (vs es : List (κ × β)) : List (κ × β) := vs.foldl (fun es v => put v.1 v.2 es) es

variable {k k' : κ} {v : β} {es : List (κ × β)}

theorem times_cons_self (e : κ × β) (es : List (κ × β)) :
    times e.1 (e :: es) = times e.1 es + 1 :=
  List.countP_cons_of_pos (decide_eq_true rfl)

theorem times_cons_of_ne {e : κ × β} (h : e.1 ≠ k) (es : List (κ × β)) :
    times k (e :: es) = times k es :=
  List.countP_cons_of_neg fun hk => h (of_decide_eq_true hk)

theorem last_cons_of_ne {e : κ × β} (h : e.1 ≠ k) (es : List (κ × β)) :
    last k (e :: es) = last k es := by
  rw [last, if_neg h, Option.or_none]

theorem last_append (k : κ) (es es' : List (κ × β)) :
    last k (es ++ es') = (last k es').or (last k es) := by
  induction es with
  | nil => rw [List.nil_append, last, Option.or_none]
  | cons e es ih => rw [List.cons_append, last, last, ih, Option.or_assoc]

theorem last_eq_none_iff : last k es = none ↔ times k es = 0 := by
  induction es with
  | nil => exact iff_of_true rfl rfl
  | cons e es ih =>
    by_cases he : e.1 = k
    · subst he
      rw [times_cons_self, last, if_pos rfl]
      refine iff_of_false (fun h => ?_) (Nat.succ_ne_zero _)
      cases (Option.or_eq_none_iff.mp h).2
    · rw [times_cons_of_ne he, last_cons_of_ne he, ih]

/-! ## Putting a value -/

theorem last_put_of_ne (h : k' ≠ k) : last k' (put k v es) = last k' es := by
  induction es with
  | nil => exact last_cons_of_ne (Ne.symm h) []
  | cons e es ih =>
    rw [put]
    split
    · next he => rw [last_cons_of_ne (Ne.symm h), last_cons_of_ne (he ▸ Ne.symm h)]
    · rw [last, last, ih]

theorem times_put_of_ne (h : k' ≠ k) : times k' (put k v es) = times k' es := by
  induction es with
  | nil => exact times_cons_of_ne (Ne.symm h) []
  | cons e es ih =>
    rw [put]
    split
    · next he => rw [times_cons_of_ne (Ne.symm h), times_cons_of_ne (he ▸ Ne.symm h)]
    · unfold times at ih ⊢
      rw [List.countP_cons, List.countP_cons, ih]

theorem put_of_forall_ne (h : ∀ e ∈ es, e.1 ≠ k) : put k v es = es ++ [(k, v)] := by
  induction es with
  | nil => rfl
  | cons e es ih =>
    obtain ⟨he, hes⟩ := List.forall_mem_cons.mp h
    rw [put, if_neg he, ih hes, List.cons_append]

/-- **The value counts**, if there was at most one assignment. -/
theorem last_put_self (h : times k es ≤ 1) : last k (put k v es) = some v := by
  induction es with
  | nil => rw [put, last, if_pos rfl, last, Option.none_or]
  | cons e es ih =>
    rw [put]
    split
    · next he =>
      rw [← he, times_cons_self] at h
      rw [last, last_eq_none_iff.mpr (he ▸ Nat.le_zero.mp (Nat.le_of_succ_le_succ h)), if_pos rfl,
        Option.none_or]
    · next he =>
      rw [times_cons_of_ne he] at h
      rw [last_cons_of_ne he, ih h]

/-- **It does not count**, if there was another one behind. -/
theorem last_put_of_two (h : 2 ≤ times k es) : last k (put k v es) = last k es := by
  induction es with
  | nil => cases h
  | cons e es ih =>
    rw [put]
    split
    · next he =>
      rw [← he, times_cons_self] at h
      obtain ⟨w, hw⟩ := Option.ne_none_iff_exists'.mp fun hnone =>
        absurd (last_eq_none_iff.mp (he ▸ hnone)) (Nat.ne_of_gt (Nat.le_of_succ_le_succ h))
      rw [last, last, hw, Option.some_or, Option.some_or]
    · next he =>
      rw [times_cons_of_ne he] at h
      rw [last_cons_of_ne he, last_cons_of_ne he, ih h]

/-! ## Putting several values -/

theorem last_putAll_of_notMem {vs : List (κ × β)} (h : k ∉ vs.map Prod.fst) :
    last k (putAll vs es) = last k es ∧ times k (putAll vs es) = times k es := by
  induction vs generalizing es with
  | nil => exact ⟨rfl, rfl⟩
  | cons w vs ih =>
    obtain ⟨hne, hrest⟩ := List.ne_and_not_mem_of_not_mem_cons h
    have hbehind : last k (putAll vs (put w.1 w.2 es)) = last k (put w.1 w.2 es)
        ∧ times k (putAll vs (put w.1 w.2 es)) = times k (put w.1 w.2 es) := ih hrest
    exact ⟨hbehind.1.trans (last_put_of_ne hne), hbehind.2.trans (times_put_of_ne hne)⟩

/-- **What counts for a key of a value** that is put. -/
theorem last_putAll_of_mem {vs : List (κ × β)} (hnodup : (vs.map Prod.fst).Nodup)
    (h : (k, v) ∈ vs) :
    last k (putAll vs es) = if times k es ≤ 1 then some v else last k es := by
  induction vs generalizing es with
  | nil => cases h
  | cons w vs ih =>
    obtain ⟨hnot, hnodup⟩ := List.nodup_cons.mp hnodup
    rcases List.mem_cons.mp h with rfl | h
    · refine (last_putAll_of_notMem hnot).1.trans ?_
      split
      · next hle => exact last_put_self hle
      · next hlt => exact last_put_of_two (Nat.lt_of_not_le hlt)
    · have hne : k ≠ w.1 := fun heq => hnot (heq ▸ List.mem_map_of_mem (f := Prod.fst) h)
      have hbehind : last k (putAll vs (put w.1 w.2 es))
          = if times k (put w.1 w.2 es) ≤ 1 then some v else last k (put w.1 w.2 es) :=
        ih hnodup h
      refine hbehind.trans ?_
      rw [times_put_of_ne hne, last_put_of_ne hne]

variable [BEq κ] [LawfulBEq κ]

omit [DecidableEq κ] in
theorem lookup_eq_some_of_mem {vs : List (κ × β)} (hnodup : (vs.map Prod.fst).Nodup)
    (h : (k, v) ∈ vs) : vs.lookup k = some v := by
  induction vs with
  | nil => cases h
  | cons w vs ih =>
    obtain ⟨hnot, hnodup⟩ := List.nodup_cons.mp hnodup
    rw [List.lookup_cons]
    rcases List.mem_cons.mp h with rfl | h
    · rw [beq_self_eq_true]
    · have hne : k ≠ w.1 := fun heq => hnot (heq ▸ List.mem_map_of_mem (f := Prod.fst) h)
      rw [beq_false_of_ne hne]
      exact ih hnodup h

/-- **The values that are put are what counts** exactly if each key had at most one
assignment, or the value. -/
theorem last_putAll_iff {vs : List (κ × β)} (hnodup : (vs.map Prod.fst).Nodup) :
    (∀ k, last k (putAll vs es) = (vs.lookup k).or (last k es))
      ↔ ∀ v ∈ vs, times v.1 es ≤ 1 ∨ last v.1 es = some v.2 := by
  constructor
  · intro h v hv
    have hgiven := h v.1
    rw [last_putAll_of_mem hnodup hv, lookup_eq_some_of_mem hnodup hv, Option.some_or] at hgiven
    split at hgiven
    · next hle => exact .inl hle
    · exact .inr hgiven
  · intro h k
    by_cases hk : k ∈ vs.map Prod.fst
    · obtain ⟨⟨k, v⟩, hv, rfl⟩ := List.mem_map.mp hk
      rw [last_putAll_of_mem hnodup hv, lookup_eq_some_of_mem hnodup hv, Option.some_or]
      split
      · rfl
      · next hlt => exact (h (k, v) hv).resolve_left hlt
    · have hnone : vs.lookup k = none := by
        refine List.lookup_eq_none_iff.mpr fun v hv => bne_iff_ne.mpr ?_
        rintro rfl
        exact hk (List.mem_map_of_mem hv)
      rw [(last_putAll_of_notMem hk).1, hnone, Option.none_or]

end Assignments
