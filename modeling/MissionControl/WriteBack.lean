import MissionControl.GatewayEntries
import MissionControl.JsonAgreement

/-!
# The write-back of a configuration

A `PUT` of an agent with a write to the gateway applies its `gateway_config` twice. In the
database it is spread over the stored configuration, so that each value takes the place of
the one before. In `openclaw.json` the fields that count as true are merged into the entry,
object by object, so that what the new value does not name stays there – and a field that
is given as `null` stays altogether. Where the two have agreed on the fields, they may
differ afterwards (`not_inAgreement_sampleWriteBack`).

They agree again just if each field that is given takes the place of what the entry has had
there: a value that counts as false is the one that was there, and an object that comes in
the place of another one has all its names, and so have the objects within it
(`writeBack_inAgreement_iff`). An id that is an infinite number is written as `null`, and
its entry is not found again.
-/

namespace MissionControl

open Json (Agree assign)

/-! ## Values that take the place of older ones -/

mutual

/-- **Whether a value that is merged into an older one takes its place**: of two objects the
new one has every name of the old one, and so have the objects within it. What is put under
the name `__proto__` is kept only where the old one has it. -/
def supersedes (old : Json) : Json → Bool
  | .obj source =>
    match old with
    | .obj target =>
      target.all (fun f => (source.lookup f.1).isSome) && supersedesFields target source
    | _ => true
  | _ => true

def supersedesFields (target : List (String × Json)) : List (String × Json) → Bool
  | [] => true
  | (key, x) :: source =>
    (match target.lookup key with
      | some old => supersedes old x
      | none => decide (key ≠ "__proto__"))
    && supersedesFields target source

end

section Supersedes

variable {target source : List (String × Json)}

theorem lookup_proto_deepMerge (h : target.lookup "__proto__" = none) :
    (deepMerge target source).lookup "__proto__" = none := by
  have hall : ∀ {result : List (String × Json)}, result.lookup "__proto__" = none →
      (mergeProperties target result source).lookup "__proto__" = none := by
    induction source with
    | nil =>
      intro result hresult
      rw [mergeProperties]
      exact hresult
    | cons f source ih =>
      intro result hresult
      rw [mergeProperties]
      split
      · exact ih hresult
      · next hkey =>
        refine ih ((lookup_assign_of_ne _ _ fun heq => hkey ⟨heq.symm, ?_⟩).trans hresult)
        rw [← heq, h]
        rfl
  exact hall h

theorem supersedesFields_iff : supersedesFields target source = true
    ↔ ∀ f ∈ source, (∀ old, target.lookup f.1 = some old → supersedes old f.2 = true)
      ∧ (target.lookup f.1 = none → f.1 ≠ "__proto__") := by
  induction source with
  | nil => exact ⟨fun _ _ hf => absurd hf List.not_mem_nil, fun _ => rfl⟩
  | cons f source ih =>
    rw [supersedesFields, Bool.and_eq_true, ih, List.forall_mem_cons]
    refine and_congr ?_ Iff.rfl
    cases target.lookup f.1 with
    | none => simp
    | some old => simp

theorem mergeValue_none (x : Json) : mergeValue none x = x := by
  cases x with
  | _ => rfl

/-- **A merge of two objects gives the new one** just if the old one has no other names, and
what is merged under each name gives what the new one has there. -/
theorem agree_deepMerge (hnodup : (source.map Prod.fst).Nodup) :
    Agree (some (.obj source)) (some (.obj (deepMerge target source)))
      ↔ (∀ f ∈ target, (source.lookup f.1).isSome = true)
        ∧ ∀ f ∈ source, (∀ old, target.lookup f.1 = some old →
            Agree (some f.2) (some (mergeValue (some old) f.2)))
          ∧ (target.lookup f.1 = none → f.1 ≠ "__proto__") := by
  have hkept : ∀ {key : String}, ¬ (key = "__proto__" ∧ (target.lookup key).isNone) →
      (deepMerge target source).lookup key
        = ((source.lookup key).map (mergeValue (target.lookup key))).or (target.lookup key) :=
    fun hkey => lookup_mergeProperties hnodup hkey
  rw [Json.agree_obj]
  constructor
  · intro h
    refine ⟨fun f hf => ?_, fun f hf => ⟨fun old hold => ?_, fun hnone heq => ?_⟩⟩
    · cases htarget : target.lookup f.1 with
      | none => exact absurd (List.lookup_eq_none_iff.mp htarget f hf) (by simp)
      | some old =>
        cases hsource : source.lookup f.1 with
        | some x => rfl
        | none =>
          have hboth := h f.1
          rw [hkept (fun hkey => by rw [htarget] at hkey; cases hkey.2), hsource, htarget]
            at hboth
          cases Json.agree_none.mp hboth.symm
    · have hboth := h f.1
      rw [hkept (fun hkey => by rw [hold] at hkey; cases hkey.2), lookup_of_mem hnodup hf,
        hold] at hboth
      exact hboth
    · have hboth := h f.1
      rw [lookup_of_mem hnodup hf, heq, lookup_proto_deepMerge (heq ▸ hnone)] at hboth
      cases Json.agree_none.mp hboth
  · rintro ⟨hnames, hfields⟩ key
    cases hsource : source.lookup key with
    | none =>
      -- a name that the source lacks is one that the target lacks, too
      have hnone : target.lookup key = none := by
        cases htarget : target.lookup key with
        | none => rfl
        | some old =>
          have hsome := hnames _ (mem_of_lookup htarget)
          rw [hsource] at hsome
          cases hsome
      have hmerged : (deepMerge target source).lookup key = none := by
        by_cases hkey : key = "__proto__"
        · subst hkey
          exact lookup_proto_deepMerge hnone
        · rw [hkept fun h => hkey h.1, hsource, hnone]
          rfl
      rw [hmerged]
      exact .refl none
    | some x =>
      obtain ⟨hold, hnew⟩ := hfields _ (mem_of_lookup hsource)
      cases htarget : target.lookup key with
      | none =>
        rw [hkept fun h => hnew htarget h.1, hsource, htarget]
        show Agree (some x) (some (mergeValue none x))
        rw [mergeValue_none]
        exact .refl _
      | some old =>
        rw [hkept fun h => (by rw [htarget] at h; cases h.2), hsource, htarget]
        exact hold old htarget

mutual

theorem agree_mergeValue_iff : ∀ (x old : Json), x.Proper →
    (Agree (some x) (some (mergeValue (some old) x)) ↔ supersedes old x = true)
  | .obj source, old, h => by
    cases old with
    | obj target =>
      show Agree _ (some (.obj (deepMerge target source))) ↔ (_ && _) = true
      rw [agree_deepMerge h.1, Bool.and_eq_true, List.all_eq_true, supersedesFields_iff]
      refine and_congr Iff.rfl (forall₂_congr fun f hf => and_congr ?_ Iff.rfl)
      exact forall₂_congr fun old _ => agree_mergeFields_iff source h.2 f hf old
    | null | bool _ | num _ | str _ | arr _ => exact iff_of_true (.refl _) rfl
  | .null, _, _ | .bool _, _, _ | .num _, _, _ | .str _, _, _ | .arr _, _, _ =>
    iff_of_true (.refl _) rfl

theorem agree_mergeFields_iff : ∀ source : List (String × Json),
    Json.Proper.properFields source → ∀ f ∈ source, ∀ old,
      (Agree (some f.2) (some (mergeValue (some old) f.2)) ↔ supersedes old f.2 = true)
  | [], _, f, hf, _ => absurd hf List.not_mem_nil
  | (_, x) :: source, h, f, hf, old => by
    obtain rfl | hf := List.mem_cons.mp hf
    · exact agree_mergeValue_iff x old h.1
    · exact agree_mergeFields_iff source h.2 f hf old

end

end Supersedes

/-! ## The entry of an agent -/

/-- Whether an entry has the id, as `a.id === agentConfig.id`. -/
def hasId (id x : Json) : Bool := (x.child "id").any fun other => strictEquals other id

/-- **The entry of an agent**: the first one of its id. -/
def entryOf (id file : Json) : Option Json := (configAgents (some file)).find? (hasId id)

section Entry

variable {around : Surroundings} {parsed d : Json} {agent : AgentConfig} {id : Json}

theorem hasId_iff (id x : Json) :
    hasId id x = true ↔ ∃ other, x.child "id" = some other ∧ strictEquals other id = true :=
  Option.any_eq_true _ _

theorem strictEquals_eq {x y : Json} (h : strictEquals x y = true) : x = y := by
  cases x with
  | null =>
    cases y with
    | null => rfl
    | _ => cases h
  | bool a =>
    cases y with
    | bool b => exact congrArg Json.bool (of_decide_eq_true h)
    | _ => cases h
  | num n =>
    cases y with
    | num m =>
      cases n with
      | nan => cases h
      | _ => exact congrArg Json.num (of_decide_eq_true h)
    | _ => cases n <;> cases h
  | str s => exact (strictEquals_str.mp h).symm
  | arr _ | obj _ => cases h

theorem get_id {x : Json} {other : Option Json} (h : Json.get (some x) "id" = .ok other) :
    other = x.child "id" := by
  cases x with
  | obj fields => exact (Except.ok.inj h).symm
  | arr elements =>
    rw [child_arr (by decide +kernel)]
    exact (Except.ok.inj h).symm
  | null => cases h
  | bool _ | num _ | str _ => exact (Except.ok.inj h).symm

/-- **The agent that is found is the first one of the id**, also when it is changed and keeps
its id. -/
theorem find?_of_findAgent {list : List Json} {found : Option ℕ}
    (h : findAgent id list = .ok found) :
    list.find? (hasId id) = found.bind (list[·]?)
      ∧ ∀ i, found = some i → ∀ f : Json → Json, (∀ x, list[i]? = some x → hasId id (f x) = true) →
        (list.modify i f).find? (hasId id) = (list[i]?).map f := by
  induction list generalizing found with
  | nil =>
    obtain rfl := Except.ok.inj h
    exact ⟨rfl, fun _ hfound => (by cases hfound)⟩
  | cons x list ih =>
    obtain ⟨other, hother, h⟩ := bind_eq_ok.mp h
    obtain rfl := get_id hother
    split at h
    · next hid =>
      obtain rfl := Except.ok.inj h
      refine ⟨List.find?_cons_of_pos hid, fun i hi f hf => ?_⟩
      obtain rfl := Option.some.inj hi
      exact List.find?_cons_of_pos (hf x rfl)
    · next hid =>
      have hid : ¬ hasId id x = true := hid
      obtain ⟨found, hfound, h⟩ := bind_eq_ok.mp h
      obtain rfl := Except.ok.inj h
      obtain ⟨hfirst, hmodify⟩ := ih hfound
      refine ⟨?_, fun i hi f hf => ?_⟩
      · rw [List.find?_cons_of_neg hid, hfirst]
        cases found with
        | none => rfl
        | some i => rfl
      · obtain ⟨j, rfl, rfl⟩ := Option.map_eq_some_iff.mp hi
        show (x :: list.modify j f).find? (hasId id) = _
        rw [List.find?_cons_of_neg hid]
        exact hmodify j rfl f hf

/-- What has a child of a name that is no index is an object. -/
theorem eq_obj_of_child {x y : Json} {key : String} (hkey : arrayIndex key = none)
    (h : x.child key = some y) : ∃ fields, x = .obj fields := by
  cases x with
  | obj fields => exact ⟨fields, rfl⟩
  | arr elements =>
    rw [child_arr hkey] at h
    cases h
  | null | bool _ | num _ | str _ => cases h

theorem mergeIntoList_of_mem (h : mergeAgent around parsed agent = .ok d) {x : Json}
    (hx : x ∈ configAgents (some parsed)) :
    mergeIntoList agent (configAgents (some parsed)) = .ok (configAgents (some d)) := by
  obtain ⟨list, hlist, -⟩ := mem_configAgents.mp hx
  have hlist : parsed.valueAt ["agents", "list"] = some (.arr list) := hlist
  obtain ⟨y, hy, hyx⟩ := Option.bind_eq_some_iff.mp hlist
  obtain ⟨z, hz, hzx⟩ := Option.bind_eq_some_iff.mp hyx
  obtain rfl := Option.some.inj hzx
  obtain ⟨fields, rfl⟩ := eq_obj_of_child (by decide +kernel) hy
  obtain ⟨agents, rfl⟩ := eq_obj_of_child (by decide +kernel) hz
  have hagents : fields.lookup "agents" = some (.obj agents) := hy
  have hold : agents.lookup "list" = some (.arr list) := hz
  have hbefore : configAgents (some (.obj fields)) = list := by
    rw [configAgents_obj, hagents]
    exact listOf_obj (by rw [hold]; rfl)
  unfold mergeAgent at h
  dsimp only at h
  rw [hagents] at h
  obtain ⟨agents', hmerged, h⟩ := bind_eq_ok.mp h
  obtain rfl := Except.ok.inj h
  unfold mergeIntoAgents at hmerged
  dsimp only at hmerged
  rw [hold] at hmerged
  obtain ⟨list', hlist', hmerged⟩ := bind_eq_ok.mp hmerged
  obtain rfl := Except.ok.inj hmerged
  have hafter : configAgents (some (.obj (assign fields "agents"
      (.obj (assign agents "list" (.arr list')))))) = list' := by
    rw [configAgents_obj, lookup_assign_self]
    exact listOf_obj (by rw [lookup_assign_self]; rfl)
  rw [hbefore, hafter, hlist']

/-- **The entry that is written**: what was there, with the agent merged into it. -/
theorem entryOf_mergeAgent (h : mergeAgent around parsed agent = .ok d) {entry : Json}
    (hentry : entryOf agent.id parsed = some entry) :
    ∃ target, entry = .obj target ∧ strictEquals agent.id agent.id = true
      ∧ entryOf agent.id d = some (.obj (deepMerge target agent.fields)) := by
  have hmerge := mergeIntoList_of_mem h (List.mem_of_find?_eq_some hentry)
  obtain ⟨found, hfound, hmerge⟩ := bind_eq_ok.mp hmerge
  obtain ⟨hfirst, hmodify⟩ := find?_of_findAgent hfound
  have hfirst : found.bind ((configAgents (some parsed))[·]?) = some entry :=
    hfirst.symm.trans hentry
  obtain ⟨i, rfl, hi⟩ := Option.bind_eq_some_iff.mp hfirst
  obtain ⟨other, hother, hequal⟩ :=
    (hasId_iff _ _).mp (List.find?_some (p := hasId agent.id) hentry)
  obtain ⟨target, rfl⟩ := eq_obj_of_child (by decide +kernel) hother
  have hsame : strictEquals agent.id agent.id = true := by
    rw [strictEquals_eq hequal] at hequal
    exact hequal
  refine ⟨target, rfl, hsame, ?_⟩
  unfold entryOf
  rw [← Except.ok.inj hmerge]
  refine (hmodify i rfl _ fun x hx => ?_).trans (by rw [hi]; rfl)
  obtain rfl := Option.some.inj (hx.symm.trans hi)
  exact (hasId_iff _ _).mpr ⟨_, lookup_id_deepMerge hother hequal, hsame⟩

theorem strictEquals_stored {other : Json} (hid : id.stored = id) (hnull : id ≠ .null) :
    strictEquals other.stored id = strictEquals other id := by
  cases other with
  | num n =>
    cases n with
    | finite q => rfl
    | nan =>
      cases id with
      | null => exact absurd rfl hnull
      | _ => rfl
    | infinity negative =>
      cases id with
      | null => exact absurd rfl hnull
      | num m =>
        cases m with
        | finite q => rfl
        | _ => cases hid
      | _ => rfl
  | arr elements =>
    rw [Json.stored_arr]
    rfl
  | _ => rfl

/-- **The entry as it is written**, if its id is written as it is. -/
theorem entryOf_stored (hid : id.stored = id) (hnull : id ≠ .null) (file : Json) :
    entryOf id file.stored = (entryOf id file).map Json.stored := by
  unfold entryOf
  rw [configAgents_stored, List.find?_map]
  refine congrArg (Option.map Json.stored) (congrArg (List.find? · _) (funext fun x => ?_))
  show (x.stored.child "id").any _ = (x.child "id").any _
  rw [child_stored, Option.any_map]
  exact congrArg (Option.any · (x.child "id"))
    (funext fun other => strictEquals_stored hid hnull)

theorem stored_of_entryOf {file entry : Json} (h : entryOf id file.stored = some entry) :
    id.stored = id := by
  obtain ⟨other, hother, hequal⟩ := (hasId_iff _ _).mp (List.find?_some (p := hasId id) h)
  rw [← stored_of_mem_configAgents (List.mem_of_find?_eq_some h), child_stored] at hother
  obtain ⟨y, -, rfl⟩ := Option.map_eq_some_iff.mp hother
  rw [← strictEquals_eq hequal, Json.stored_stored]

end Entry

/-! ## The fields that are written -/

section Fields

variable {key : String}

theorem lookup_filterMap (keys : List String) (value : String → Option Json) :
    (keys.filterMap fun k => (value k).map fun x => (k, x)).lookup key
      = if key ∈ keys then value key else none := by
  induction keys with
  | nil => rfl
  | cons k keys ih =>
    rw [List.filterMap_cons]
    by_cases hsame : key = k
    · subst hsame
      rw [if_pos List.mem_cons_self]
      cases hvalue : value key with
      | some x => exact List.lookup_cons_self
      | none =>
        rw [hvalue] at ih
        refine ih.trans ?_
        split <;> rfl
    · have hmem : key ∈ k :: keys ↔ key ∈ keys := by
        rw [List.mem_cons, or_iff_right hsame]
      rw [if_congr hmem rfl rfl]
      cases value k with
      | none => exact ih
      | some x =>
        show ((k, x) :: _).lookup key = _
        rw [List.lookup_cons, beq_false_of_ne hsame]
        exact ih

/-- **A field is written** if it counts as true. -/
theorem lookup_fields (agent : AgentConfig) (hkey : key ∈ agentConfigKeys) :
    agent.fields.lookup key
      = (Json.get? (some agent.config) key).filter fun x => Json.truthy (some x) := by
  have hother : key ≠ "id" ∧ key ≠ "name" := by
    revert key
    decide
  have hname : ((agent.name.map fun name => ("name", name)).toList).lookup key = none := by
    cases agent.name with
    | none => rfl
    | some name =>
      show [("name", name)].lookup key = none
      rw [List.lookup_cons, beq_false_of_ne hother.2]
      rfl
  unfold AgentConfig.fields
  rw [List.cons_append, List.lookup_cons, beq_false_of_ne hother.1]
  show List.lookup key (_ ++ _) = _
  rw [List.lookup_append, hname, Option.none_or, lookup_filterMap, if_pos hkey]

theorem lookup_spread {target source : List (String × Json)}
    (hnodup : (source.map Prod.fst).Nodup) :
    (spread target source).lookup key = (source.lookup key).or (target.lookup key) := by
  induction source generalizing target with
  | nil => rfl
  | cons f source ih =>
    obtain ⟨k, x⟩ := f
    rw [List.map_cons, List.nodup_cons] at hnodup
    show (spread (assign target k x) source).lookup key = _
    rw [ih hnodup.2, List.lookup_cons]
    by_cases hsame : key = k
    · subst hsame
      rw [lookup_eq_none_of_notMem hnodup.1, lookup_assign_self, beq_self_eq_true]
      rfl
    · rw [beq_false_of_ne hsame, lookup_assign_of_ne _ _ hsame]

theorem ne_toString (hkey : key ∈ agentConfigKeys) (i : ℕ) : key ≠ toString i := by
  have hnone : readDigits 10 key.toList = none := by
    revert key
    decide
  rintro rfl
  rw [show toString i = i.repr from rfl, readDigits_repr] at hnone
  cases hnone

theorem arrayIndex_eq_none (hkey : key ∈ agentConfigKeys) : arrayIndex key = none := by
  cases hindex : arrayIndex key with
  | none => rfl
  | some i =>
    unfold arrayIndex at hindex
    split at hindex
    · split at hindex
      · next hi => exact absurd hi.1.symm (ne_toString hkey _)
      · cases hindex
    · cases hindex

/-- Of the own properties of a value, the fields are those of an object. -/
theorem lookup_ownProperties (hkey : key ∈ agentConfigKeys) (x : Json) :
    x.ownProperties.lookup key = x.child key := by
  cases x with
  | obj fields => rfl
  | arr elements =>
    rw [child_arr (arrayIndex_eq_none hkey)]
    refine List.lookup_eq_none_iff.mpr fun f hf => bne_iff_ne.mpr ?_
    obtain ⟨a, -, rfl⟩ := List.mem_map.mp hf
    exact ne_toString hkey a.2
  | str s =>
    refine List.lookup_eq_none_iff.mpr fun f hf => bne_iff_ne.mpr ?_
    obtain ⟨a, -, rfl⟩ := List.mem_map.mp hf
    exact ne_toString hkey a.2
  | null | bool _ | num _ => rfl

theorem proper_ownProperties {x : Json} (h : x.Proper) : (Json.obj x.ownProperties).Proper := by
  have hindices : ∀ {α : Type} (xs : List α) (value : α → Json), (∀ a ∈ xs, (value a).Proper) →
      (Json.obj (xs.zipIdx.map fun a => (toString a.2, value a.1))).Proper := by
    intro α xs value hxs
    refine Json.proper_obj.mpr ⟨?_, fun f hf => ?_⟩
    · have hnames : (xs.zipIdx.map fun a => (toString a.2, value a.1)).map Prod.fst
          = (xs.zipIdx.map Prod.snd).map fun i => toString i := by
        rw [List.map_map, List.map_map]
        rfl
      rw [hnames, List.zipIdx_map_snd]
      refine List.Nodup.map (fun i j hij => ?_) (List.nodup_range' ..)
      exact repr_injective hij
    · obtain ⟨a, ha, rfl⟩ := List.mem_map.mp hf
      exact hxs a.1 (List.fst_mem_of_mem_zipIdx ha)
  cases x with
  | obj fields => exact h
  | arr elements => exact hindices elements id (Json.proper_arr.mp h)
  | str s => exact hindices s.toList (fun c => .str (String.singleton c)) fun _ _ => trivial
  | null | bool _ | num _ => exact Json.proper_empty

end Fields

/-! ## The configuration that is stored -/

section Stored

variable {site : AgentSite} {s : AgentState} {r : AgentRow}

theorem proper_existingConfig {config : Json} (h : existingConfig site r = .ok config) :
    config.Proper := by
  unfold existingConfig at h
  split at h
  · split at h
    · obtain rfl := Except.ok.inj h
      exact Json.proper_empty
    · split at h
      · next hparse =>
        obtain rfl := Except.ok.inj h
        exact Json.proper_of_parse hparse
      · cases h
  · obtain rfl := Except.ok.inj h
    exact Json.proper_empty

/-- **A configuration that is stored** is read back. -/
theorem existingConfig_jsonText {config : Json} (h : r .config = .text (jsonText site.rt config))
    (hnumbers : Json.NumbersRead site.rt config.numbers) :
    existingConfig site r = .ok config.readBack := by
  have hne : jsonText site.rt config ≠ "" := by
    intro heq
    have hlength := Json.length_stringify_pos hnumbers
    rw [← String.toList_ofList (l := config.stringify site.rt)] at hlength
    unfold jsonText at heq
    rw [heq] at hlength
    exact absurd hlength (by decide)
  unfold existingConfig
  rw [h]
  dsimp only
  rw [if_neg hne]
  unfold jsonText
  rw [String.toList_ofList, Json.parse_stringify hnumbers]

/-- **The configuration that a `PUT` stores**: the given one, spread over that of the row. -/
theorem assigned_config {body existing : Json} {now id : ℕ} {gatewayConfig : List (String × Json)}
    {assignments : List (AgentColumn × SqlValue)}
    (hgateway : Json.get? (some body) "gateway_config" = some (.obj gatewayConfig))
    (h : bindAssignments (configColumns site body existing now) (some (.ofNat id))
      = .ok assignments) :
    assigned site.sq assignments .config
      = some (.text (jsonText site.rt (.obj (spread existing.ownProperties gatewayConfig)))) := by
  obtain ⟨values, hvalues, h⟩ := bind_eq_ok.mp h
  obtain rfl := Except.ok.inj h
  have htruthy : Json.truthy (some (.obj gatewayConfig)) = true := rfl
  unfold configColumns setIf at hvalues ⊢
  rw [hgateway] at hvalues ⊢
  dsimp only at hvalues ⊢
  rw [htruthy, if_pos rfl] at hvalues ⊢
  generalize Json.get? (some body) "role" = role at hvalues ⊢
  generalize jsonText site.rt (.obj (spread existing.ownProperties gatewayConfig)) = t
    at hvalues ⊢
  cases role with
  | none =>
    obtain ⟨v, -, rfl⟩ := (bindAll_between (x := some (.ofNat now)) []
      [some (.str t), some (.ofNat id)] [] [.text t, .ofTime id] rfl rfl).mp hvalues
    rfl
  | some role =>
    obtain ⟨v, -, rfl⟩ := (bindAll_between (x := some role) [some (.ofNat now)]
      [some (.str t), some (.ofNat id)] [.ofTime now] [.text t, .ofTime id] rfl rfl).mp hvalues
    rfl

/-- **A `PUT` that has updated an agent** has stored the columns. -/
theorem putAgent_of_updated {id : String} {body existing : Json} {agent i : ℕ}
    {es : List AgentEvent} (hfound : lookupAgent site s id = some (agent, r))
    (hexisting : existingConfig site r = .ok existing)
    (h : (putAgent site s id (some body) true).2 = .updated i :: es) :
    ∃ assignments, bindAssignments (configColumns site body existing s.now) (some (.ofNat agent))
        = .ok assignments
      ∧ (putAgent site s id (some body) true).1.agents
        = s.agents.update agent fun r => r.assign site.sq assignments := by
  unfold putAgent at h ⊢
  dsimp only at h ⊢
  split at h
  · cases h
  · next hrole =>
    rw [hfound] at h ⊢
    dsimp only at h ⊢
    rw [hexisting] at h ⊢
    dsimp only at h ⊢
    split at h
    · cases h
    · next assignments hbind =>
      split at h
      · cases h
      · next agents hupdate => exact ⟨assignments, hbind, updateAgent_eq_ok hupdate⟩

end Stored

/-! ## The write-back -/

/-- **The database and the file agree** on an agent whose entry has the id: it has both, and
they have the same in the fields that are written. -/
def InAgreement (site : AgentSite) (agents : Table AgentRow) (agent : ℕ) (id file : Json) :
    Prop :=
  ∃ r config entry, agents.row agent = some r ∧ existingConfig site r = .ok config
    ∧ entryOf id file = some entry
    ∧ ∀ key ∈ agentConfigKeys, Agree (config.child key) (entry.child key)

/-- **A `PUT` with a write to the gateway that goes through**: what it finds and is sent, and
what becomes of the file. -/
structure WriteBack (site : AgentSite) where
  state : AgentState
  idText : String
  bodyText : String
  body : Json
  received : Json.parse site.rt bodyText.toList = some body
  agent : ℕ
  name : String
  config : Json
  gatewayConfig : List (String × Json)
  requested : putGatewayWrite site state idText (some body)
    = some (.updated agent name config (.obj gatewayConfig))
  file : Json
  around : Surroundings
  written : Json
  merged : mergeAgent around file
    (updatedAgentConfig site.rt name config (.obj gatewayConfig)) = .ok written
  /-- The runtime reads the numbers that are stored. -/
  numbersRead : Json.NumbersRead site.rt
    (Json.obj (spread config.ownProperties gatewayConfig)).numbers

/-- **A new value takes the place of what was there**, in the file as in the database: if it
counts as false it is what was there, and else nothing of what was there is kept beside it. -/
def TakesPlace (old : Option Json) (x : Json) : Prop :=
  if Json.truthy (some x) then ∀ y, old = some y → supersedes y x = true else Agree (some x) old

/-- **One field**: the value that is spread and the one that is merged agree, if they have
agreed before, just if the new one takes the place of the old one. -/
theorem agree_field_iff {stored old new : Option Json} (h : Agree stored old)
    (hnew : ∀ x, new = some x → x.Proper) :
    Agree (new.or stored)
        (((new.filter fun x => Json.truthy (some x)).map (mergeValue old)).or old)
      ↔ ∀ x, new = some x → TakesPlace old x := by
  cases new with
  | none => exact iff_of_true h fun _ hx => (by cases hx)
  | some x =>
    have hone : (∀ y, some x = some y → TakesPlace old y) ↔ TakesPlace old x :=
      ⟨fun h => h x rfl, fun h y hy => Option.some.inj hy ▸ h⟩
    rw [hone, Option.some_or, TakesPlace]
    cases htruthy : Json.truthy (some x) with
    | false =>
      rw [Option.filter_some, if_neg (by rw [htruthy]; decide)]
      exact Iff.rfl
    | true =>
      rw [Option.filter_some, if_pos htruthy, if_pos rfl]
      cases old with
      | none =>
        show Agree (some x) (some (mergeValue none x)) ↔ _
        rw [mergeValue_none]
        exact iff_of_true (.refl _) fun _ hy => (by cases hy)
      | some y =>
        show Agree (some x) (some (mergeValue (some y) x)) ↔ _
        rw [agree_mergeValue_iff x y (hnew x rfl)]
        exact ⟨fun h z hz => Option.some.inj hz ▸ h, fun h => h y rfl⟩

namespace WriteBack

variable {site : AgentSite} (w : WriteBack site)

def agentConfig : AgentConfig :=
  updatedAgentConfig site.rt w.name w.config (.obj w.gatewayConfig)

def id : Json := w.agentConfig.id

/-- The database after the `PUT`. -/
def after : AgentState := (putAgent site w.state w.idText (some w.body) true).1

theorem requested_cases : ∃ r assignments,
    w.state.agents.row w.agent = some r ∧ existingConfig site r = .ok w.config
      ∧ w.after.agents.row w.agent = some (r.assign site.sq assignments)
      ∧ assigned site.sq assignments .config = some (.text (jsonText site.rt
        (.obj (spread w.config.ownProperties w.gatewayConfig))))
      ∧ Json.get? (some w.body) "gateway_config" = some (.obj w.gatewayConfig) := by
  obtain ⟨agent, name, existing, gatewayConfig, r, hw, hfound, -, hexisting, hgateway, i, es,
    hupdated⟩ := putGatewayWrite_eq_some w.requested
  obtain ⟨rfl, rfl, rfl, rfl⟩ := GatewayWrite.updated.inj hw
  obtain ⟨assignments, hbind, hafter⟩ := putAgent_of_updated hfound hexisting hupdated
  have hrow := lookupAgent_eq_some hfound
  refine ⟨r, assignments, hrow, hexisting, ?_, assigned_config hgateway hbind, hgateway⟩
  unfold after
  rw [hafter, Table.row_update_self, hrow]
  rfl

theorem proper_gatewayConfig : (Json.obj w.gatewayConfig).Proper := by
  obtain ⟨r, assignments, -, -, -, -, hgateway⟩ := w.requested_cases
  have hbody := Json.proper_of_parse w.received
  cases hkind : w.body with
  | obj fields =>
    rw [hkind] at hbody hgateway
    exact (Json.proper_obj.mp hbody).2 _ (mem_of_lookup hgateway)
  | null | bool _ | num _ | str _ | arr _ =>
    rw [hkind] at hgateway
    cases hgateway

/-- **The configuration that is stored after the `PUT`.** -/
theorem stored_after : ∃ r config, w.after.agents.row w.agent = some r
    ∧ existingConfig site r = .ok config
    ∧ ∀ key ∈ agentConfigKeys,
      Agree (config.child key) ((w.gatewayConfig.lookup key).or (w.config.child key)) := by
  obtain ⟨r, assignments, -, hexisting, hafter, hassigned, -⟩ := w.requested_cases
  have hgateway := Json.proper_obj.mp w.proper_gatewayConfig
  have hproper : (Json.obj (spread w.config.ownProperties w.gatewayConfig)).Proper :=
    Json.proper_assignAll (proper_ownProperties (proper_existingConfig hexisting)) hgateway.2
  have hcolumn : r.assign site.sq assignments .config = .text (jsonText site.rt
      (.obj (spread w.config.ownProperties w.gatewayConfig))) := by
    rw [AgentRow.assign_apply, hassigned]
    rfl
  refine ⟨_, _, hafter, existingConfig_jsonText hcolumn w.numbersRead, fun key hkey => ?_⟩
  rw [Json.readBack_eq_stored _ hproper, child_stored]
  refine (Json.agree_stored _).trans ?_
  show Agree ((spread w.config.ownProperties w.gatewayConfig).lookup key) _
  rw [lookup_spread hgateway.1, lookup_ownProperties hkey]
  exact .refl _

theorem id_ne_null : w.id ≠ .null := by
  obtain ⟨htrue, hid⟩ | ⟨-, hid⟩ :=
    id_updatedAgentConfig site.rt w.name w.config (.obj w.gatewayConfig)
  · intro hnull
    rw [hid] at htrue
    have hnull : (updatedAgentConfig site.rt w.name w.config (.obj w.gatewayConfig)).id = .null :=
      hnull
    rw [hnull] at htrue
    cases htrue
  · intro hnull
    cases hid.symm.trans hnull

/-- **The entry that is written by the `PUT`**, if its id is written as it is. -/
theorem entry_after {entry : Json} (hentry : entryOf w.id w.file = some entry)
    (hid : w.id.stored = w.id) : ∃ entry', entryOf w.id w.written.stored = some entry'
      ∧ ∀ key ∈ agentConfigKeys, Agree (entry'.child key)
        ((((w.gatewayConfig.lookup key).filter fun x => Json.truthy (some x)).map
          (mergeValue (entry.child key))).or (entry.child key)) := by
  obtain ⟨target, rfl, -, hwritten⟩ := entryOf_mergeAgent w.merged hentry
  have hwritten : entryOf w.id w.written = some (.obj (deepMerge target w.agentConfig.fields)) :=
    hwritten
  refine ⟨_, by rw [entryOf_stored hid w.id_ne_null, hwritten]; rfl, fun key hkey => ?_⟩
  rw [child_stored]
  refine (Json.agree_stored _).trans ?_
  have hproto : key ≠ "__proto__" := by
    revert key
    decide
  show Agree ((deepMerge target w.agentConfig.fields).lookup key) _
  rw [lookup_deepMerge (nodup_fields _) hproto, lookup_fields _ hkey]
  exact .refl _

/-- What the entry has had in a field before the `PUT`. -/
def entryField (key : String) : Option Json := (entryOf w.id w.file).bind fun x => x.child key

/-- **Each field that is given takes the place** of what the entry has had there. -/
def Replaces : Prop :=
  ∀ key ∈ agentConfigKeys, ∀ x, w.gatewayConfig.lookup key = some x →
    TakesPlace (w.entryField key) x

/-- The fields that are stored and written agree just if the given ones take the place of
those before. -/
theorem agree_fields_iff {entry config' entry' : Json}
    (hentry : entryOf w.id w.file = some entry)
    (hagree : ∀ key ∈ agentConfigKeys, Agree (w.config.child key) (entry.child key))
    (hstored : ∀ key ∈ agentConfigKeys,
      Agree (config'.child key) ((w.gatewayConfig.lookup key).or (w.config.child key)))
    (hwritten : ∀ key ∈ agentConfigKeys, Agree (entry'.child key)
      ((((w.gatewayConfig.lookup key).filter fun x => Json.truthy (some x)).map
        (mergeValue (entry.child key))).or (entry.child key))) :
    (∀ key ∈ agentConfigKeys, Agree (config'.child key) (entry'.child key)) ↔ w.Replaces := by
  have hgiven : ∀ key x, w.gatewayConfig.lookup key = some x → x.Proper := fun key x hx =>
    (Json.proper_obj.mp w.proper_gatewayConfig).2 _ (mem_of_lookup hx)
  refine forall₂_congr fun key hkey => ?_
  have hfield : w.entryField key = entry.child key := by
    unfold entryField
    rw [hentry]
    rfl
  rw [hfield, ← agree_field_iff (hagree key hkey) (hgiven key)]
  constructor
  · intro h
    exact ((hstored key hkey).symm.trans h).trans (hwritten key hkey)
  · intro h
    exact ((hstored key hkey).trans h).trans (hwritten key hkey).symm

variable {w}

theorem entry_before (h : InAgreement site w.state.agents w.agent w.id w.file) :
    ∃ entry, entryOf w.id w.file = some entry
      ∧ ∀ key ∈ agentConfigKeys, Agree (w.config.child key) (entry.child key) := by
  obtain ⟨r, config, entry, hr, hconfig, hentry, hagree⟩ := h
  obtain ⟨r', assignments, hr', hconfig', -⟩ := w.requested_cases
  obtain rfl := Option.some.inj (hr.symm.trans hr')
  obtain rfl := Except.ok.inj (hconfig.symm.trans hconfig')
  exact ⟨entry, hentry, hagree⟩

theorem replaces_of_inAgreement
    (h : InAgreement site w.state.agents w.agent w.id w.file)
    (hafter : InAgreement site w.after.agents w.agent w.id w.written.stored) :
    w.id.stored = w.id ∧ w.Replaces := by
  obtain ⟨entry, hentry, hagree⟩ := entry_before h
  obtain ⟨r', config', entry', hr', hconfig', hentry', hafter⟩ := hafter
  obtain ⟨r'', config'', hr'', hconfig'', hstored⟩ := w.stored_after
  obtain rfl := Option.some.inj (hr'.symm.trans hr'')
  obtain rfl := Except.ok.inj (hconfig'.symm.trans hconfig'')
  have hid : w.id.stored = w.id := stored_of_entryOf hentry'
  obtain ⟨entry'', hentry'', hwritten⟩ := w.entry_after hentry hid
  obtain rfl := Option.some.inj (hentry'.symm.trans hentry'')
  exact ⟨hid, (w.agree_fields_iff hentry hagree hstored hwritten).mp hafter⟩

theorem inAgreement_of_replaces
    (h : InAgreement site w.state.agents w.agent w.id w.file) (hid : w.id.stored = w.id)
    (hreplaces : w.Replaces) :
    InAgreement site w.after.agents w.agent w.id w.written.stored := by
  obtain ⟨entry, hentry, hagree⟩ := entry_before h
  obtain ⟨r', config', hr', hconfig', hstored⟩ := w.stored_after
  obtain ⟨entry', hentry', hwritten⟩ := w.entry_after hentry hid
  exact ⟨r', config', entry', hr', hconfig', hentry',
    (w.agree_fields_iff hentry hagree hstored hwritten).mpr hreplaces⟩

end WriteBack

/-- **The database and the file agree again** after a `PUT` with a write to the gateway, just
if the id of the entry is written as it is, and each field that is given takes the place of
what the entry has had there. -/
theorem writeBack_inAgreement_iff (site : AgentSite) (w : WriteBack site)
    (h : InAgreement site w.state.agents w.agent w.id w.file) :
    InAgreement site w.after.agents w.agent w.id w.written.stored
      ↔ w.id.stored = w.id ∧ w.Replaces :=
  ⟨WriteBack.replaces_of_inAgreement h,
    fun hiff => WriteBack.inAgreement_of_replaces h hiff.1 hiff.2⟩

/-! ## A model without its fallbacks -/

/-- A model and what is used in its place. -/
def sampleModel : Json :=
  .obj [("primary", .str "opus"), ("fallbacks", .arr [.str "sonnet"])]

/-- Another model, without anything in its place. -/
def sampleNewModel : Json := .obj [("primary", .str "haiku")]

/-- The configuration of an agent. -/
def sampleModelConfig : Json := .obj [("openclawId", .str "bot"), ("model", sampleModel)]

/-- An agent with a model. -/
def sampleModelAgents : AgentState :=
  (postAgent sampleAgentSite (.initial 1700000000000) (some (.obj [("name", .str "bot"),
    ("role", .str "developer"), ("config", sampleModelConfig)]))).1

/-- The model is to be another one. -/
def sampleModelBody : Json :=
  .obj [("gateway_config", .obj [("model", sampleNewModel)]), ("write_to_gateway", .bool true)]

theorem lookupAgent_sampleModelAgents : ∃ r, lookupAgent sampleAgentSite sampleModelAgents "bot"
      = some (1, r) ∧ r .name = .text "bot"
    ∧ r .config = .text (jsonText sampleAgentSite.rt sampleModelConfig) := by
  have hfound : (lookupAgent sampleAgentSite sampleModelAgents "bot").map
      (fun found => (found.1, found.2 .name, found.2 .config))
      = some (1, .text "bot", .text (jsonText sampleRuntime sampleModelConfig)) := by
    decide +kernel
  obtain ⟨⟨agent, r⟩, hr, heq⟩ := Option.map_eq_some_iff.mp hfound
  obtain ⟨rfl, heq⟩ := Prod.mk.inj heq
  obtain ⟨hname, hconfig⟩ := Prod.mk.inj heq
  exact ⟨r, hr, hname, hconfig⟩

def isUpdate : List AgentEvent → Bool
  | .updated _ :: _ => true
  | _ => false

theorem putGatewayWrite_sampleModelBody :
    putGatewayWrite sampleAgentSite sampleModelAgents "bot" (some sampleModelBody)
      = some (.updated 1 "bot" sampleModelConfig
        (.obj [("model", sampleNewModel)])) := by
  obtain ⟨r, hr, hname, hconfig⟩ := lookupAgent_sampleModelAgents
  have hexisting : existingConfig sampleAgentSite r = .ok sampleModelConfig :=
    existingConfig_jsonText hconfig fun _ hq => absurd hq List.not_mem_nil
  have hupdated : ∃ i es, (putAgent sampleAgentSite sampleModelAgents "bot" (some sampleModelBody)
      true).2 = .updated i :: es := by
    have hfirst : isUpdate (putAgent sampleAgentSite sampleModelAgents "bot"
        (some sampleModelBody) true).2 = true := by decide +kernel
    unfold isUpdate at hfirst
    split at hfirst
    · next i es heq => exact ⟨i, es, heq⟩
    · cases hfirst
  obtain ⟨i, es, hupdated⟩ := hupdated
  unfold putGatewayWrite
  rw [hr]
  dsimp only
  rw [hupdated, hexisting, hname]
  rfl

/-- A file whose entry of the agent has the model. -/
def sampleModelFile (model : Json) : Json :=
  .obj [("agents", .obj [("list", .arr [.obj [("id", .str "bot"), ("model", model)]])])]

/-- **The model is updated**, in the database and in the file. -/
def sampleWriteBack : WriteBack sampleAgentSite where
  state := sampleModelAgents
  idText := "bot"
  bodyText := jsonText sampleRuntime sampleModelBody
  body := sampleModelBody
  received := by
    unfold jsonText
    rw [String.toList_ofList]
    exact Json.parse_stringify (j := sampleModelBody) fun _ hq => absurd hq List.not_mem_nil
  agent := 1
  name := "bot"
  config := sampleModelConfig
  gatewayConfig := [("model", sampleNewModel)]
  requested := putGatewayWrite_sampleModelBody
  file := sampleModelFile sampleModel
  around := sampleSurroundings
  written := sampleModelFile (.obj [("primary", .str "haiku"), ("fallbacks", .arr [.str "sonnet"])])
  merged := rfl
  numbersRead := fun _ hq => absurd hq List.not_mem_nil

theorem inAgreement_sampleWriteBack :
    InAgreement sampleAgentSite sampleWriteBack.state.agents sampleWriteBack.agent
      sampleWriteBack.id sampleWriteBack.file := by
  obtain ⟨r, hr, -, hconfig⟩ := lookupAgent_sampleModelAgents
  have hexisting : existingConfig sampleAgentSite r = .ok sampleModelConfig :=
    existingConfig_jsonText hconfig fun _ hq => absurd hq List.not_mem_nil
  refine ⟨r, _, .obj [("id", .str "bot"), ("model", sampleModel)], lookupAgent_eq_some hr,
    hexisting, ?_, fun key hkey => ?_⟩
  · rfl
  · have hid : key ≠ "id" ∧ key ≠ "openclawId" := by
      revert key
      decide
    show Agree (List.lookup key [("openclawId", .str "bot"), ("model", sampleModel)])
      (List.lookup key [("id", .str "bot"), ("model", sampleModel)])
    have hfirst : ∀ {first : String} {x : Json}, key ≠ first →
        List.lookup key [(first, x), ("model", sampleModel)]
          = List.lookup key [("model", sampleModel)] := by
      intro first x hne
      rw [List.lookup_cons, beq_false_of_ne hne]
    rw [hfirst hid.1, hfirst hid.2]
    exact .refl _

/-- **The fallbacks stay in the file alone.** -/
theorem not_inAgreement_sampleWriteBack :
    ¬ ∀ (site : AgentSite) (w : WriteBack site),
      InAgreement site w.state.agents w.agent w.id w.file →
        InAgreement site w.after.agents w.agent w.id w.written.stored := by
  intro h
  obtain ⟨-, hreplaces⟩ := WriteBack.replaces_of_inAgreement inAgreement_sampleWriteBack
    (h sampleAgentSite sampleWriteBack inAgreement_sampleWriteBack)
  have hmodel : TakesPlace (sampleWriteBack.entryField "model") sampleNewModel :=
    hreplaces "model" (by decide) sampleNewModel rfl
  have hfield : sampleWriteBack.entryField "model" = some sampleModel := rfl
  have htruthy : Json.truthy (some sampleNewModel) = true := rfl
  rw [hfield, TakesPlace, if_pos htruthy] at hmodel
  cases hmodel sampleModel rfl

/-- The two agree on the model just if the new one takes the place of the old one. -/
theorem writeBack_inAgreement_iff_sampleWriteBack :
    InAgreement sampleAgentSite sampleWriteBack.after.agents sampleWriteBack.agent
        sampleWriteBack.id sampleWriteBack.written.stored
      ↔ sampleWriteBack.id.stored = sampleWriteBack.id ∧ sampleWriteBack.Replaces :=
  writeBack_inAgreement_iff sampleAgentSite sampleWriteBack inAgreement_sampleWriteBack

end MissionControl
