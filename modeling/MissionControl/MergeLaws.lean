import MissionControl.NestedPaths
import MissionControl.WriteBack

/-!
# The laws of the merge

`deepMerge` writes a source into a target and keeps what the source has nothing for. A second
merge of the same source changes nothing more (`deepMerge_deepMerge`), and every value of the
target that the source neither reaches nor overwrites stays (`valueAt_deepMerge_of_untouched`),
for all objects.

The values of the source arrive, but for one name: `result['__proto__'] = x` makes a
prototype of the value, where the result has no property of that name, and the property is
lost. `JSON.parse` does give objects with such a property. So the laws hold together just
if, wherever two objects are merged, the target has a property `__proto__` where the source
has one (`mergeLaws_iff`).
-/

namespace MissionControl

open Json (assign)

/-- **An object of JSON**: no two of its properties, and none of an object inside, have one
name. -/
structure JsonObject where
  fields : List (String × Json)
  proper : (Json.obj fields).Proper

/-- Whether a value is an object that can be merged: no array, and not `null`. -/
def Json.isMergeable : Json → Bool
  | .obj _ => true
  | _ => false

/-- The object that is found by going from object to object. -/
def objectAt : List String → List (String × Json) → Option (List (String × Json))
  | [], fields => some fields
  | key :: path, fields =>
    match fields.lookup key with
    | some (.obj inner) => objectAt path inner
    | _ => none

/-- **A source leaves a path untouched**: it has nothing there, and all it has on the way are
objects that are merged. -/
def Untouched (target source : Json) (path : List String) : Prop :=
  source.valueAt path = none
    ∧ ∀ way, way <+: path → ∀ x, source.valueAt way = some x →
      x.isMergeable = true ∧ (target.valueAt way).any Json.isMergeable = true

/-- **The laws of a merge.** -/
structure MergeLaws (target source : List (String × Json)) : Prop where
  again : deepMerge (deepMerge target source) source = deepMerge target source
  /-- What the source leaves untouched keeps its value. -/
  keeps : ∀ path x, (Json.obj target).valueAt path = some x →
    Untouched (.obj target) (.obj source) path →
    (Json.obj (deepMerge target source)).valueAt path = some x
  /-- A value that is no object, or has no object to be merged into, arrives. -/
  takes : ∀ path x, (Json.obj source).valueAt path = some x →
    (x.isMergeable = false
      ∨ ((Json.obj target).valueAt path).any Json.isMergeable = false) →
    (Json.obj (deepMerge target source)).valueAt path = some x

/-- **No prototype is made**: of two objects that are merged, the target has a property
`__proto__` if the source has one. -/
def KeepsProto (target source : List (String × Json)) : Prop :=
  ∀ path t s, objectAt path target = some t → objectAt path source = some s →
    (s.lookup "__proto__").isSome = true → (t.lookup "__proto__").isSome = true

section Laws

variable {target source : List (String × Json)} {key : String}

/-! ## A merge that is made again -/

theorem assign_of_lookup {fields : List (String × Json)} {x : Json}
    (hnodup : (fields.map Prod.fst).Nodup) (h : fields.lookup key = some x) :
    assign fields key x = fields := by
  have hany : fields.any (fun f => f.1 = key) = true :=
    List.any_eq_true.mpr ⟨(key, x), mem_of_lookup h, decide_eq_true rfl⟩
  unfold assign
  rw [if_pos hany]
  refine (List.map_congr_left fun f hf => ?_).trans (List.map_id _)
  split
  · next heq =>
    have hsame := lookup_of_mem hnodup hf
    rw [heq, h] at hsame
    rw [Option.some.inj hsame, ← heq]
    rfl
  · rfl

theorem deepMerge_of_absorbed (hnodup : (target.map Prod.fst).Nodup)
    (h : ∀ f ∈ source, (f.1 = "__proto__" ∧ target.lookup f.1 = none)
      ∨ ∃ x, target.lookup f.1 = some x ∧ mergeValue (some x) f.2 = x) :
    deepMerge target source = target := by
  show mergeProperties target target source = target
  induction source with
  | nil => rw [mergeProperties]
  | cons f source ih =>
    obtain ⟨hf, hsource⟩ := List.forall_mem_cons.mp h
    rw [mergeProperties]
    rcases hf with ⟨hproto, hnone⟩ | ⟨x, hx, hsame⟩
    · rw [if_pos ⟨hproto, Option.isNone_iff_eq_none.mpr hnone⟩]
      exact ih hsource
    · have hkey : ¬ (f.1 = "__proto__" ∧ (target.lookup f.1).isNone) := by
        rintro ⟨-, hnone⟩
        rw [hx] at hnone
        cases hnone
      rw [if_neg hkey, hx, hsame, assign_of_lookup hnodup hx]
      exact ih hsource

/-- The properties of a merged object have different names, and so have those of the values,
if that holds of all that is assigned. -/
theorem proper_mergeProperties {result : List (String × Json)}
    (hresult : (Json.obj result).Proper)
    (h : ∀ f ∈ source, (mergeValue (target.lookup f.1) f.2).Proper) :
    (Json.obj (mergeProperties target result source)).Proper := by
  induction source generalizing result with
  | nil =>
    rw [mergeProperties]
    exact hresult
  | cons f source ih =>
    obtain ⟨hf, hsource⟩ := List.forall_mem_cons.mp h
    rw [mergeProperties]
    split
    · exact ih hresult hsource
    · exact ih (Json.proper_assign hresult hf) hsource

theorem proper_of_lookup {fields : List (String × Json)} {x : Json}
    (h : (Json.obj fields).Proper) (hx : fields.lookup key = some x) : x.Proper :=
  (Json.proper_obj.mp h).2 _ (mem_of_lookup hx)

mutual

theorem proper_mergeValue : ∀ (x : Json) (old : Option Json), x.Proper →
    (∀ y, old = some y → y.Proper) → (mergeValue old x).Proper
  | .obj source, old, h, hold => by
    have hnone : (mergeValue none (.obj source)).Proper := by
      rw [mergeValue_none]
      exact h
    cases old with
    | none => exact hnone
    | some y =>
      cases y with
      | obj target =>
        exact proper_mergeProperties (hold _ rfl)
          fun f hf => proper_mergeFields source h.2 f hf (target.lookup f.1)
            fun y hy => proper_of_lookup (hold _ rfl) hy
      | null | bool _ | num _ | str _ | arr _ => exact hnone
  | .null, _, h, _ | .bool _, _, h, _ | .num _, _, h, _ | .str _, _, h, _
  | .arr _, _, h, _ => h

theorem proper_mergeFields : ∀ source : List (String × Json),
    Json.Proper.properFields source → ∀ f ∈ source, ∀ old : Option Json,
      (∀ y, old = some y → y.Proper) → (mergeValue old f.2).Proper
  | [], _, f, hf, _, _ => absurd hf List.not_mem_nil
  | (_, x) :: source, h, f, hf, old, hold => by
    obtain rfl | hf := List.mem_cons.mp hf
    · exact proper_mergeValue x old h.1 hold
    · exact proper_mergeFields source h.2 f hf old hold

end

theorem proper_deepMerge (htarget : (Json.obj target).Proper)
    (hsource : (Json.obj source).Proper) : (Json.obj (deepMerge target source)).Proper :=
  proper_mergeValue (.obj source) (some (.obj target)) hsource
    fun _ h => Option.some.inj h ▸ htarget

variable (target) in
/-- What a merge leaves under a name of the source, if it leaves anything. -/
theorem lookup_deepMerge_of_mem (hnodup : (source.map Prod.fst).Nodup)
    {f : String × Json} (hf : f ∈ source) :
    (f.1 = "__proto__" ∧ target.lookup f.1 = none
        ∧ (deepMerge target source).lookup f.1 = none)
      ∨ (deepMerge target source).lookup f.1
        = some (mergeValue (target.lookup f.1) f.2) := by
  by_cases hkey : f.1 = "__proto__" ∧ (target.lookup f.1).isNone
  · obtain ⟨hproto, hnone⟩ := hkey
    have hnone := Option.isNone_iff_eq_none.mp hnone
    refine .inl ⟨hproto, hnone, ?_⟩
    rw [hproto] at hnone ⊢
    exact lookup_proto_deepMerge hnone
  · refine .inr ((lookup_mergeProperties hnodup hkey).trans ?_)
    rw [lookup_of_mem hnodup hf]
    rfl

mutual

/-- **A value that is merged again** changes nothing. -/
theorem mergeValue_mergeValue : ∀ (x : Json) (old : Option Json), x.Proper →
    (∀ y, old = some y → y.Proper) →
    mergeValue (some (mergeValue old x)) x = mergeValue old x
  | .obj source, old, h, hold => by
    -- an object that takes the place of what was there is merged into itself
    have hself : mergeValue (some (.obj source)) (.obj source) = .obj source := by
      show Json.obj (deepMerge source source) = _
      rw [deepMerge_of_absorbed h.1]
      refine fun f hf => .inr ⟨f.2, lookup_of_mem h.1 hf, ?_⟩
      have hsame := mergeFields_mergeValue source h.2 f hf none fun _ hnone => by cases hnone
      rwa [mergeValue_none] at hsame
    cases old with
    | none =>
      rw [mergeValue_none]
      exact hself
    | some y =>
      cases y with
      | obj target =>
        show Json.obj (deepMerge (deepMerge target source) source)
          = .obj (deepMerge target source)
        have hproper := proper_deepMerge (hold _ rfl) h
        rw [deepMerge_of_absorbed (Json.proper_obj.mp hproper).1]
        intro f hf
        obtain ⟨hproto, -, hnone⟩ | hmerged := lookup_deepMerge_of_mem target h.1 hf
        · exact .inl ⟨hproto, hnone⟩
        · exact .inr ⟨_, hmerged, mergeFields_mergeValue source h.2 f hf _
            fun y hy => proper_of_lookup (hold _ rfl) hy⟩
      | null | bool _ | num _ | str _ | arr _ => exact hself
  | .null, _, _, _ | .bool _, _, _, _ | .num _, _, _, _ | .str _, _, _, _
  | .arr _, _, _, _ => rfl

theorem mergeFields_mergeValue : ∀ source : List (String × Json),
    Json.Proper.properFields source → ∀ f ∈ source, ∀ old : Option Json,
      (∀ y, old = some y → y.Proper) →
      mergeValue (some (mergeValue old f.2)) f.2 = mergeValue old f.2
  | [], _, f, hf, _, _ => absurd hf List.not_mem_nil
  | (_, x) :: source, h, f, hf, old, hold => by
    obtain rfl | hf := List.mem_cons.mp hf
    · exact mergeValue_mergeValue x old h.1 hold
    · exact mergeFields_mergeValue source h.2 f hf old hold

end

/-- **A second merge of the same source changes nothing.** -/
theorem deepMerge_deepMerge (htarget : (Json.obj target).Proper)
    (hsource : (Json.obj source).Proper) :
    deepMerge (deepMerge target source) source = deepMerge target source := by
  have hsame := mergeValue_mergeValue (.obj source) (some (.obj target)) hsource
    fun _ h => Option.some.inj h ▸ htarget
  exact Json.obj.inj hsame

/-! ## What is kept -/

/-- What is no object, or has no object to be merged into, is taken as it is. -/
theorem mergeValue_of_not {x : Json} {old : Option Json}
    (h : ¬ (x.isMergeable = true ∧ old.any Json.isMergeable = true)) :
    mergeValue old x = x := by
  cases x with
  | obj source =>
    cases old with
    | none => rfl
    | some y =>
      cases y with
      | obj target => exact absurd ⟨rfl, rfl⟩ h
      | null | bool _ | num _ | str _ | arr _ => rfl
  | null | bool _ | num _ | str _ | arr _ => rfl

theorem objects_of_isMergeable {x y : Json} (hx : x.isMergeable = true)
    (hy : y.isMergeable = true) : ∃ source target, x = .obj source ∧ y = .obj target := by
  cases x <;> cases hx
  cases y <;> cases hy
  exact ⟨_, _, rfl, rfl⟩

theorem valueAt_of_lookup {fields : List (String × Json)} {x : Json}
    (h : fields.lookup key = some x) (path : List String) :
    (Json.obj fields).valueAt (key :: path) = x.valueAt path :=
  valueAt_cons_of_child (x := .obj fields) h path

/-- **A value that the source leaves untouched stays.** -/
theorem valueAt_deepMerge_of_untouched {path : List String} {x : Json}
    (hsource : (Json.obj source).Proper)
    (hx : (Json.obj target).valueAt path = some x)
    (h : Untouched (.obj target) (.obj source) path) :
    (Json.obj (deepMerge target source)).valueAt path = some x := by
  induction path generalizing target source with
  | nil => cases h.1
  | cons key path ih =>
    obtain ⟨y, hy, hx⟩ := Option.bind_eq_some_iff.mp hx
    have hy : target.lookup key = some y := hy
    have hmerged : (deepMerge target source).lookup key
        = ((source.lookup key).map (mergeValue (some y))).or (some y) := by
      rw [← hy]
      exact lookup_mergeProperties (Json.proper_obj.mp hsource).1
        fun hkey => by rw [hy] at hkey; cases hkey.2
    cases hz : source.lookup key with
    | none =>
      rw [hz] at hmerged
      exact (valueAt_of_lookup hmerged path).trans hx
    | some z =>
      rw [hz] at hmerged
      obtain ⟨hobject, hmeets⟩ := h.2 [key] (List.prefix_append [key] path) z
        (valueAt_of_lookup hz [])
      rw [valueAt_of_lookup hy []] at hmeets
      obtain ⟨source', target', rfl, rfl⟩ := objects_of_isMergeable hobject hmeets
      refine (valueAt_of_lookup hmerged path).trans (ih (proper_of_lookup hsource hz) hx ?_)
      refine ⟨(valueAt_of_lookup hz path).symm.trans h.1, fun way hway w hw => ?_⟩
      have hbehind := h.2 (key :: way) (List.cons_prefix_cons.mpr ⟨rfl, hway⟩) w
        ((valueAt_of_lookup hz way).trans hw)
      rwa [valueAt_of_lookup hy way] at hbehind

/-! ## What arrives -/

theorem objectAt_cons {path : List String} {inner : List (String × Json)}
    (h : target.lookup key = some (.obj inner)) :
    objectAt (key :: path) target = objectAt path inner := by
  rw [objectAt, h]

theorem KeepsProto.inner (h : KeepsProto target source) {t s : List (String × Json)}
    (ht : target.lookup key = some (.obj t)) (hs : source.lookup key = some (.obj s)) :
    KeepsProto t s :=
  fun path t' s' ht' hs' => h (key :: path) t' s' ((objectAt_cons ht).trans ht')
    ((objectAt_cons hs).trans hs')

/-- **A value that is not merged arrives**, where no prototype is made. -/
theorem valueAt_deepMerge_of_taken {path : List String} {x : Json}
    (hsource : (Json.obj source).Proper) (hproto : KeepsProto target source)
    (hx : (Json.obj source).valueAt path = some x)
    (h : x.isMergeable = false
      ∨ ((Json.obj target).valueAt path).any Json.isMergeable = false) :
    (Json.obj (deepMerge target source)).valueAt path = some x := by
  induction path generalizing target source with
  | nil =>
    cases hx
    rcases h with h | h <;> cases h
  | cons key path ih =>
    obtain ⟨z, hz, hx⟩ := Option.bind_eq_some_iff.mp hx
    have hz : source.lookup key = some z := hz
    have hmerged : (deepMerge target source).lookup key
        = some (mergeValue (target.lookup key) z) := by
      rcases lookup_deepMerge_of_mem target (Json.proper_obj.mp hsource).1 (mem_of_lookup hz)
        with ⟨hkey, hnone, -⟩ | hmerged
      · subst hkey
        have hsome := hproto [] _ _ rfl rfl (by rw [hz]; rfl)
        rw [hnone] at hsome
        cases hsome
      · exact hmerged
    by_cases hboth : z.isMergeable = true ∧ (target.lookup key).any Json.isMergeable = true
    · obtain ⟨hobject, hmeets⟩ := hboth
      obtain ⟨y, hy, hold⟩ := (Option.any_eq_true _ _).mp hmeets
      obtain ⟨source', target', rfl, rfl⟩ := objects_of_isMergeable hobject hold
      rw [hy] at hmerged
      rw [valueAt_of_lookup hy path] at h
      exact (valueAt_of_lookup hmerged path).trans
        (ih (proper_of_lookup hsource hz) (hproto.inner hy hz) hx h)
    · rw [mergeValue_of_not hboth] at hmerged
      exact (valueAt_of_lookup hmerged path).trans hx

theorem objectAt_deepMerge {path : List String} {t s : List (String × Json)}
    (hsource : (Json.obj source).Proper) (ht : objectAt path target = some t)
    (hs : objectAt path source = some s) :
    objectAt path (deepMerge target source) = some (deepMerge t s)
      ∧ (Json.obj s).Proper := by
  induction path generalizing target source with
  | nil =>
    cases ht
    cases hs
    exact ⟨rfl, hsource⟩
  | cons key path ih =>
    rw [objectAt] at ht hs
    split at ht
    · next t' ht' =>
      split at hs
      · next s' hs' =>
        obtain ⟨hinner, hproper⟩ := ih (proper_of_lookup hsource hs') ht hs
        refine ⟨(objectAt_cons ?_).trans hinner, hproper⟩
        refine (lookup_mergeProperties (Json.proper_obj.mp hsource).1 fun hkey => ?_).trans ?_
        · rw [ht'] at hkey
          cases hkey.2
        · rw [ht', hs']
          rfl
      · cases hs
    · cases ht

theorem valueAt_of_objectAt {path : List String} {t : List (String × Json)}
    (h : objectAt path target = some t) : (Json.obj target).valueAt path = some (.obj t) := by
  induction path generalizing target with
  | nil =>
    cases h
    rfl
  | cons key path ih =>
    rw [objectAt] at h
    split at h
    · next inner hinner => exact (valueAt_of_lookup hinner path).trans (ih h)
    · cases h

theorem keepsProto_of_takes (hsource : (Json.obj source).Proper)
    (h : ∀ path x, (Json.obj source).valueAt path = some x →
      (x.isMergeable = false
        ∨ ((Json.obj target).valueAt path).any Json.isMergeable = false) →
      (Json.obj (deepMerge target source)).valueAt path = some x) :
    KeepsProto target source := by
  intro path t s ht hs hproto
  obtain ⟨x, hx⟩ := Option.isSome_iff_exists.mp hproto
  cases hnone : t.lookup "__proto__" with
  | some y => rfl
  | none =>
    have hbehind : ∀ {fields inner : List (String × Json)}, objectAt path fields = some inner →
        (Json.obj fields).valueAt (path ++ ["__proto__"]) = inner.lookup "__proto__" := by
      intro fields inner hinner
      rw [valueAt_concat, valueAt_of_objectAt hinner]
      rfl
    have harrives := h (path ++ ["__proto__"]) x ((hbehind hs).trans hx)
      (.inr (by rw [hbehind ht, hnone]; rfl))
    rw [hbehind (objectAt_deepMerge hsource ht hs).1, lookup_proto_deepMerge hnone] at harrives
    cases harrives

/-- **The laws of the merge** hold of two objects just if no prototype is made. -/
theorem mergeLaws_iff (t s : JsonObject) :
    MergeLaws t.fields s.fields ↔ KeepsProto t.fields s.fields :=
  ⟨fun h => keepsProto_of_takes s.proper h.takes, fun h =>
    { again := deepMerge_deepMerge t.proper s.proper
      keeps := fun _ _ hx huntouched => valueAt_deepMerge_of_untouched s.proper hx huntouched
      takes := fun _ _ hx htaken => valueAt_deepMerge_of_taken s.proper h hx htaken }⟩

end Laws

def emptyObject : JsonObject := ⟨[], Json.proper_empty⟩

/-- What `JSON.parse` makes of an object with a property `__proto__`. -/
def protoObject : JsonObject :=
  ⟨[("__proto__", .num (.finite 1))], Json.proper_obj.mpr
    ⟨List.pairwise_singleton _ _, List.forall_mem_singleton.mpr trivial⟩⟩

/-- The property is lost in the merge. -/
theorem not_mergeLaws_protoObject : ¬ MergeLaws emptyObject.fields protoObject.fields :=
  fun h => by cases h.takes ["__proto__"] (.num (.finite 1)) rfl (.inl rfl)

end MissionControl
