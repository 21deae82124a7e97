import MissionControl.AgentNames
import MissionControl.ConfigWrites
import MissionControl.Mentions
import MissionControl.Replica

/-!
# The gateway entries of the agents

A request that creates an agent, or updates its configuration, may write it to
`openclaw.json`, where it is merged into the entry of its id. The id is made of the name: in
lower case, with a dash in place of each run of white space. So two names that the database
takes for different may have one entry, and the agent that is created last overwrites that of
the other (`not_entriesApart_sampleNames`). An update goes to the entry that the stored
configuration names, whatever that is.

The entries are kept apart in exactly the runs in which no request writes to the id of the
entry that another agent was created with (`entriesApart_iff`).
-/

namespace MissionControl

open Json (assign)

/-! ## A merged agent -/

section Merge

variable {target : List (String × Json)}

/-- **What a merge leaves under a name**: the value of the source, merged into that of the
target, or what was there. -/
theorem lookup_mergeProperties {result source : List (String × Json)} {key : String}
    (hnodup : (source.map Prod.fst).Nodup)
    (hkey : ¬ (key = "__proto__" ∧ (target.lookup key).isNone)) :
    (mergeProperties target result source).lookup key
      = ((source.lookup key).map (mergeValue (target.lookup key))).or (result.lookup key) := by
  induction source generalizing result with
  | nil => rw [mergeProperties]; rfl
  | cons f source ih =>
    obtain ⟨key', x⟩ := f
    rw [List.map_cons, List.nodup_cons] at hnodup
    rw [mergeProperties, List.lookup_cons]
    by_cases hsame : key = key'
    · subst hsame
      rw [if_neg hkey, ih hnodup.2, lookup_eq_none_of_notMem hnodup.1, lookup_assign_self,
        beq_self_eq_true]
      rfl
    · rw [beq_false_of_ne hsame]
      split
      · exact ih hnodup.2
      · rw [ih hnodup.2, lookup_assign_of_ne _ _ hsame]

theorem lookup_deepMerge {source : List (String × Json)} {key : String}
    (hnodup : (source.map Prod.fst).Nodup) (hkey : key ≠ "__proto__") :
    (deepMerge target source).lookup key
      = ((source.lookup key).map (mergeValue (target.lookup key))).or (target.lookup key) :=
  lookup_mergeProperties hnodup fun h => hkey h.1

theorem nodup_fields (agent : AgentConfig) : (agent.fields.map Prod.fst).Nodup := by
  have hnames : List.Sublist ((agent.name.map fun name => ("name", name)).toList.map Prod.fst)
      ["name"] := by
    cases agent.name with
    | none => exact List.nil_sublist _
    | some name => exact List.Sublist.refl _
  have hconfig : ∀ keys : List String, List.Sublist ((keys.filterMap fun key =>
      ((Json.get? (some agent.config) key).filter fun x => Json.truthy (some x)).map
        fun x => (key, x)).map Prod.fst) keys := by
    intro keys
    induction keys with
    | nil => exact List.Sublist.refl _
    | cons key keys ih =>
      rw [List.filterMap_cons]
      cases (Json.get? (some agent.config) key).filter fun x => Json.truthy (some x) with
      | none => exact ih.cons key
      | some x => exact ih.cons_cons key
  have hall : (agent.fields.map Prod.fst).Sublist ("id" :: ["name"] ++ agentConfigKeys) := by
    unfold AgentConfig.fields
    rw [List.cons_append, List.map_cons, List.map_append]
    exact (hnames.append (hconfig agentConfigKeys)).cons_cons "id"
  exact hall.nodup (by decide)

theorem lookup_id_deepMerge {agent : AgentConfig} {old : Json}
    (hold : target.lookup "id" = some old) (hsame : strictEquals old agent.id = true) :
    (deepMerge target agent.fields).lookup "id" = some agent.id := by
  rw [lookup_deepMerge (nodup_fields agent) (by decide), hold]
  show some (mergeValue (some old) agent.id) = _
  cases hid : agent.id with
  | obj fields =>
    rw [hid] at hsame
    cases old <;> first | cases hsame | (next n => cases n <;> cases hsame)
  | _ => rfl

end Merge

/-! ## The entries of an id -/

/-- **The entries of an id** in the list of the agents. -/
def agentsOf (id : String) (file : Json) : List Json :=
  (configAgents (some file)).filter fun x => Json.equalsText (x.child "id") id

section Entries

variable {around : Surroundings} {parsed d : Json} {agent : AgentConfig} {id : String}

/-- The list of the agents, of what is found as `agents`. -/
def listOf (agents : Option Json) : List Json :=
  match agents.bind fun x => x.child "list" with
  | some (.arr list) => list
  | _ => []

theorem configAgents_obj (fields : List (String × Json)) :
    configAgents (some (.obj fields)) = listOf (fields.lookup "agents") := by
  have hpath : (some (Json.obj fields)).bind (Json.valueAt ["agents", "list"])
      = (fields.lookup "agents").bind fun x => x.child "list" := by
    show (fields.lookup "agents").bind (Json.valueAt ["list"]) = _
    refine congrArg _ (funext fun x => ?_)
    exact Option.bind_fun_some (x.child "list")
  unfold configAgents listOf
  rewrite [hpath]
  rfl

theorem listOf_or {x : Option Json} {agents : List (String × Json)}
    (h : Json.or x (.obj []) = .obj agents) : listOf x = listOf (some (.obj agents)) := by
  cases x with
  | none =>
    cases h
    rfl
  | some x =>
    cases x with
    | obj fields =>
      cases h
      rfl
    | arr elements => cases h
    | null | bool _ | num _ | str _ =>
      unfold Json.or at h
      dsimp only at h
      split at h
      · cases h
      · cases h
        rfl

theorem listOf_obj {agents : List (String × Json)} {list : List Json}
    (h : Json.or (agents.lookup "list") (.arr []) = .arr list) :
    listOf (some (.obj agents)) = list := by
  unfold listOf
  dsimp only [Option.bind_some, Json.child]
  cases hlookup : agents.lookup "list" with
  | none =>
    rw [hlookup] at h
    cases h
    rfl
  | some x =>
    rw [hlookup] at h
    cases x with
    | arr elements =>
      cases h
      rfl
    | obj fields => cases h
    | null | bool _ | num _ | str _ =>
      unfold Json.or at h
      dsimp only at h
      split at h
      · cases h
      · cases h
        rfl

/-- **A merged agent is merged into the list that there is**, or the list stays. -/
theorem configAgents_mergeAgent (h : mergeAgent around parsed agent = .ok d) :
    configAgents (some d) = configAgents (some parsed)
      ∨ mergeIntoList agent (configAgents (some parsed)) = .ok (configAgents (some d)) := by
  obtain rfl | ⟨fields, agents, agents', rfl, hagents, rfl, hlist⟩ := mergeAgent_cases h
  · exact .inl rfl
  rw [configAgents_obj, configAgents_obj, lookup_assign_self, listOf_or hagents]
  obtain rfl | ⟨list, list', hlist, hmerge, rfl⟩ := hlist
  · exact .inl rfl
  · refine .inr ?_
    have hnew : Json.or ((assign agents "list" (.arr list')).lookup "list") (.arr [])
        = .arr list' := by
      rw [lookup_assign_self]
      rfl
    rw [listOf_obj hlist, listOf_obj hnew]
    exact hmerge

/-- Where an element is changed that does not pass a test, and does not pass it then. -/
theorem filter_modify {α : Type} {p : α → Bool} {f : α → α} {list : List α} {i : ℕ}
    (h : ∀ x, list[i]? = some x → p x = false ∧ p (f x) = false) :
    (list.modify i f).filter p = list.filter p := by
  induction list generalizing i with
  | nil => cases i <;> rfl
  | cons x list ih =>
    cases i with
    | zero =>
      obtain ⟨hx, hfx⟩ := h x rfl
      show (f x :: list).filter p = _
      rw [List.filter_cons_of_neg (Bool.eq_false_iff.mp hfx),
        List.filter_cons_of_neg (Bool.eq_false_iff.mp hx)]
    | succ i =>
      have hrest := ih (i := i) h
      show (x :: list.modify i f).filter p = _
      rw [List.filter_cons, List.filter_cons, hrest]

/-- **A merge leaves the entries of other ids.** -/
theorem filter_mergeIntoList {list list' : List Json} (h : mergeIntoList agent list = .ok list')
    (hne : agent.id ≠ .str id) :
    (list'.filter fun x => Json.equalsText (x.child "id") id)
      = list.filter fun x => Json.equalsText (x.child "id") id := by
  have hother : ¬ Json.equalsText (some agent.id) id = true := fun heq =>
    hne (Option.some.inj (Json.equalsText_iff.mp heq))
  obtain ⟨found, hfound, h⟩ := bind_eq_ok.mp h
  cases found with
  | none =>
    obtain rfl := Except.ok.inj h
    have hlast : [Json.obj agent.fields].filter (fun x => Json.equalsText (x.child "id") id)
        = [] := List.filter_cons_of_neg hother
    rw [List.filter_append, hlast, List.append_nil]
  | some i =>
    obtain rfl := Except.ok.inj h
    refine filter_modify fun x hx => ?_
    obtain ⟨y, other, hy, hother', hequal⟩ := findAgent_eq_ok hfound
    obtain rfl := Option.some.inj (hx.symm.trans hy)
    cases x with
    | obj target =>
      have hold : target.lookup "id" = some other := Except.ok.inj hother'
      constructor
      · refine Bool.eq_false_iff.mpr fun heq => hne ?_
        have heq : target.lookup "id" = some (.str id) := Json.equalsText_iff.mp heq
        rw [hold] at heq
        rw [Option.some.inj heq] at hequal
        exact strictEquals_str.mp hequal
      · show Json.equalsText ((deepMerge target agent.fields).lookup "id") id = false
        rw [lookup_id_deepMerge hold hequal]
        exact Bool.eq_false_iff.mpr hother
    | null | bool _ | num _ | str _ | arr _ => cases hother'

theorem configAgents_stored (file : Json) :
    configAgents (some file.stored) = (configAgents (some file)).map Json.stored := by
  unfold configAgents
  rw [Option.bind_some, Option.bind_some, valueAt_stored]
  cases file.valueAt ["agents", "list"] with
  | none => rfl
  | some x =>
    rw [Option.map_some]
    cases x with
    | arr list => rw [Json.stored_arr]
    | num n => cases n <;> rfl
    | _ => rfl

/-- A text is written as it is, and nothing else is written as one. -/
theorem stored_eq_str {x : Json} {t : String} : x.stored = .str t ↔ x = .str t := by
  cases x with
  | str s => exact Iff.rfl
  | num n => cases n <;> exact ⟨fun h => (by cases h), fun h => (by cases h)⟩
  | _ => exact ⟨fun h => (by cases h), fun h => (by cases h)⟩

theorem agentsOf_stored (id : String) (file : Json) :
    agentsOf id file.stored = (agentsOf id file).map Json.stored := by
  unfold agentsOf
  rw [configAgents_stored, List.filter_map]
  refine congrArg _ (List.filter_congr fun x _ => Bool.eq_iff_iff.mpr ?_)
  show Json.equalsText (x.stored.child "id") id = true ↔ _
  rw [child_stored, Json.equalsText_iff, Json.equalsText_iff]
  cases x.child "id" with
  | none => exact ⟨fun h => (by cases h), fun h => (by cases h)⟩
  | some y => rw [Option.map_some, Option.some.injEq, Option.some.injEq, stored_eq_str]

/-- **A merged agent leaves the entries of other ids**, as they are written. -/
theorem agentsOf_mergeAgent (h : mergeAgent around parsed agent = .ok d)
    (hne : agent.id ≠ .str id) : agentsOf id d.stored = agentsOf id parsed.stored := by
  have hmerged : agentsOf id d = agentsOf id parsed := by
    unfold agentsOf
    obtain hsame | hmerge := configAgents_mergeAgent h
    · rw [hsame]
    · exact filter_mergeIntoList hmerge hne
  rw [agentsOf_stored, hmerged, ← agentsOf_stored]

end Entries

/-! ## The requests -/

/-- **A write to the configuration** that a request begins: of the agent that it has created,
or of one that it has updated. -/
inductive GatewayWrite where
  | created (agent : ℕ) (name : String) (config : Json)
  | updated (agent : ℕ) (name : String) (existingConfig gatewayConfig : Json)

namespace GatewayWrite

def agent : GatewayWrite → ℕ
  | created agent _ _ => agent
  | updated agent _ _ _ => agent

def config (rt : Runtime) : GatewayWrite → AgentConfig
  | created _ name config => createdAgentConfig rt name config
  | updated _ name existingConfig gatewayConfig =>
    updatedAgentConfig rt name existingConfig gatewayConfig

/-- The agent that has been created, and its name. -/
def entry : GatewayWrite → Option (ℕ × String)
  | created agent name _ => some (agent, name)
  | updated _ _ _ _ => none

end GatewayWrite

section Requests

variable (site : AgentSite) (s : AgentState)

/-- The write of a `POST`. -/
def postGatewayWrite (body : Option Json) : Option GatewayWrite :=
  match validateBody createAgentSchema body with
  | .error _ => none
  | .ok input =>
    match (postAgent site s body).2 with
    | .created agent :: _ =>
      if input.writeToGateway = some true then
        some (.created agent input.name (.obj (resolveTemplate site input).2))
      else none
    | _ => none

/-- The write of a `PUT`. A configuration that is `null` has no `openclawId`: asking for it
throws. -/
def putGatewayWrite (id : String) (body : Option Json) : Option GatewayWrite :=
  match lookupAgent site s id with
  | none => none
  | some (agent, r) =>
    match (putAgent site s id body true).2, existingConfig site r, r .name with
    | .updated _ :: _, .ok existing, .text name =>
      match Json.get (some existing) "openclawId", Json.get? body "gateway_config" with
      | .ok _, some gatewayConfig =>
        if Json.truthy (Json.get? body "write_to_gateway")
            && Json.truthy (some gatewayConfig) then
          some (.updated agent name existing gatewayConfig)
        else none
      | _, _ => none
    | _, _, _ => none

def AgentRequest.gatewayWrite : AgentRequest → Option GatewayWrite
  | create body => postGatewayWrite site s body
  | updateOne id body _ => putGatewayWrite site s id body
  | _ => none

end Requests

/-- **A request, and the file** that its write finds, if it can be read and is JSON. -/
structure EntryAction where
  action : AgentAction
  file : Option Json
  around : Surroundings

/-- **A write that has been made**: of what, and the file before and after it. -/
structure EntryWrite where
  request : GatewayWrite
  before : Json
  after : Json

def GatewayWrite.run (rt : Runtime) (w : GatewayWrite) (a : EntryAction) : Option EntryWrite :=
  match a.file with
  | none => none
  | some parsed =>
    match mergeAgent a.around parsed (w.config rt) with
    | .ok d => some ⟨w, parsed.stored, d.stored⟩
    | .error _ => none

/-- **The agents, and those that have an entry**: the agents of the table that were created
with a write to the configuration, with the names they were created with. -/
structure EntryState where
  agents : AgentState
  entries : List (ℕ × String)

/-- The write that is made for a request. -/
def entryWrite (site : AgentSite) (s : EntryState) (a : EntryAction) : Option EntryWrite :=
  (a.action.request.gatewayWrite site (s.agents.advance a.action)).bind fun w => w.run site.rt a

/-- **The requests for agents, with their writes to the configuration.** -/
def gatewayEntries (site : AgentSite) : Machine EntryState EntryAction EntryWrite where
  step s a :=
    let agents := (agentApi site).next s.agents a.action
    let written := entryWrite site s a
    let entries := s.entries ++ (written.bind fun w => w.request.entry).toList
    (⟨agents, entries.filter fun e => (agents.agents.row e.1).isSome⟩, written.toList)

/-! ## Entries that are kept apart -/

/-- The agent of a write has an entry, or is given one. -/
def GatewayWrite.HasEntry (s : EntryState) : GatewayWrite → Prop
  | created _ _ _ => True
  | updated agent _ _ _ => ∃ name, (agent, name) ∈ s.entries

/-- **The entries have different ids.** -/
def EntriesDistinct (rt : Runtime) (s : EntryState) : Prop :=
  ∀ e ∈ s.entries, ∀ e' ∈ s.entries, e.1 ≠ e'.1 → openclawId rt e.2 ≠ openclawId rt e'.2

/-- **A write goes to an entry of its own** and leaves those of the other agents. -/
def KeepsOtherEntries (site : AgentSite) (s : EntryState) (a : EntryAction) : Prop :=
  ∀ w ∈ (gatewayEntries site).emits s a, w.request.HasEntry s →
    ∀ e ∈ s.entries, e.1 ≠ w.request.agent →
      (w.request.config site.rt).id ≠ .str (openclawId site.rt e.2)
        ∧ agentsOf (openclawId site.rt e.2) w.after = agentsOf (openclawId site.rt e.2) w.before

/-- A write is apart from an entry: the name that the agent is created with gives another
id, and so does the `openclawId` that the configuration of an agent has, if it has one. -/
def GatewayWrite.ApartFrom (rt : Runtime) (s : EntryState) (e : ℕ × String) : GatewayWrite → Prop
  | created _ name _ => openclawId rt name ≠ openclawId rt e.2
  | updated agent _ existingConfig _ => (∃ name, (agent, name) ∈ s.entries) →
    Json.truthy (Json.get? (some existingConfig) "openclawId") = true →
      Json.get? (some existingConfig) "openclawId" ≠ some (.str (openclawId rt e.2))

/-- **The write that is made is apart from the entries of the other agents.** -/
def WritesApart (site : AgentSite) (s : EntryState) (a : EntryAction) : Prop :=
  ∀ w, entryWrite site s a = some w → ∀ e ∈ s.entries, e.1 ≠ w.request.agent →
    w.request.ApartFrom site.rt s e

section Apart

variable {site : AgentSite} {s : EntryState} {a : EntryAction}

theorem name_of_postAgent {s : AgentState} {body : Option Json} {input : AgentFields} {agent : ℕ}
    {es : List AgentEvent} (hinput : validateBody createAgentSchema body = .ok input)
    (h : (postAgent site s body).2 = .created agent :: es) :
    ∃ r, (postAgent site s body).1.agents.row agent = some r ∧ r .name = .text input.name := by
  unfold postAgent at h ⊢
  rw [hinput] at h ⊢
  dsimp only at h ⊢
  split at h
  · cases h
  · next hrole =>
    rw [if_neg hrole]
    split at h
    · cases h
    · split at h
      · cases h
      · next agents hinsert =>
        obtain rfl := AgentEvent.created.inj (List.cons.inj h).1
        obtain ⟨values, hvalues, rfl⟩ := insertAgent_eq_ok hinsert
        obtain rfl := Except.ok.inj ((bindAll_create _ _ _ _ _ _ _).symm.trans hvalues)
        exact ⟨_, Table.row_insert_next _ _, AgentRow.assign_apply _ _ _⟩

theorem postGatewayWrite_eq_some {s : AgentState} {body : Option Json} {w : GatewayWrite}
    (h : postGatewayWrite site s body = some w) : ∃ agent name config r,
      w = .created agent name config ∧ name ≠ ""
        ∧ (postAgent site s body).1.agents.row agent = some r ∧ r .name = .text name := by
  unfold postGatewayWrite at h
  split at h
  · cases h
  · next input hinput =>
    split at h
    · next agent es hcreated =>
      split at h
      · obtain rfl := Option.some.inj h
        obtain ⟨r, hr, hname⟩ := name_of_postAgent hinput hcreated
        refine ⟨agent, input.name, _, r, rfl, ?_, hr, hname⟩
        unfold validateBody at hinput
        split at hinput
        · cases hinput
        · split at hinput
          · next hread =>
            cases hinput
            exact name_ne_empty hread
          · cases hinput
      · cases h
    · cases h

/-- A `PUT` with a write is one of an agent of the table, and has updated it. -/
theorem putGatewayWrite_eq_some {s : AgentState} {id : String} {body : Option Json}
    {w : GatewayWrite} (h : putGatewayWrite site s id body = some w) :
    ∃ agent name existing gatewayConfig r, w = .updated agent name existing gatewayConfig
      ∧ lookupAgent site s id = some (agent, r) ∧ r .name = .text name
      ∧ existingConfig site r = .ok existing
      ∧ Json.get? body "gateway_config" = some gatewayConfig
      ∧ ∃ i es, (putAgent site s id body true).2 = .updated i :: es := by
  unfold putGatewayWrite at h
  split at h
  · cases h
  · next agent r hfound =>
    split at h
    · next i es existing name hupdated hexisting hname =>
      split at h
      · next gatewayConfig _ hgateway =>
        split at h
        · obtain rfl := Option.some.inj h
          exact ⟨agent, name, existing, gatewayConfig, r, rfl, hfound, hname, hexisting, hgateway,
            i, es, hupdated⟩
        · cases h
      · cases h
    · cases h

theorem entryWrite_eq_some {w : EntryWrite} (h : entryWrite site s a = some w) :
    a.action.request.gatewayWrite site (s.agents.advance a.action) = some w.request
      ∧ ∃ parsed d, mergeAgent a.around parsed (w.request.config site.rt) = .ok d
        ∧ w.before = parsed.stored ∧ w.after = d.stored := by
  obtain ⟨request, hrequest, hrun⟩ := Option.bind_eq_some_iff.mp h
  unfold GatewayWrite.run at hrun
  split at hrun
  · cases hrun
  · next parsed _ =>
    split at hrun
    · next d hmerge =>
      obtain rfl := Option.some.inj hrun
      exact ⟨hrequest, parsed, d, hmerge, rfl, rfl⟩
    · cases hrun

/-- **The agents that have an entry** are those of the table, by the names they were created
with. -/
def EntriesNamed (s : EntryState) : Prop :=
  ∀ e ∈ s.entries, ∃ r, s.agents.agents.row e.1 = some r ∧ r .name = .text e.2

theorem entriesNamed_next (h : EntriesNamed s) : EntriesNamed ((gatewayEntries site).next s a) := by
  intro e he
  obtain ⟨he, hrow⟩ := List.mem_filter.mp he
  obtain ⟨r', hr'⟩ := Option.isSome_iff_exists.mp hrow
  refine ⟨r', hr', ?_⟩
  obtain he | he := List.mem_append.mp he
  · obtain ⟨r, hr, hname⟩ := h e he
    exact ((agentApi_namesKept site s.agents a.action).row_of_some hr hr').trans hname
  · obtain ⟨w, hw, hentry⟩ := Option.bind_eq_some_iff.mp (Option.mem_toList.mp he)
    have hrequest := (entryWrite_eq_some hw).1
    have hnext : (agentApi site).next s.agents a.action
        = (a.action.request.run site (s.agents.advance a.action)).1 := rfl
    rw [hnext] at hr'
    cases hkind : a.action.request with
    | create body =>
      rw [hkind] at hrequest hr'
      obtain ⟨agent, name, config, r, hcreated, -, hr, hname⟩ := postGatewayWrite_eq_some hrequest
      rw [hcreated] at hentry
      obtain rfl := Option.some.inj hentry
      obtain rfl := Option.some.inj (hr'.symm.trans hr)
      exact hname
    | updateOne id body written =>
      rw [hkind] at hrequest
      obtain ⟨agent, name, existing, gatewayConfig, r, hupdated, -⟩ :=
        putGatewayWrite_eq_some hrequest
      rw [hupdated] at hentry
      cases hentry
    | _ =>
      rw [hkind] at hrequest
      cases hrequest

/-- The entry that a `PUT` writes: that of the stored `openclawId`, or of the name. -/
theorem id_updatedAgentConfig (rt : Runtime) (name : String) (existing gatewayConfig : Json) :
    (Json.truthy (Json.get? (some existing) "openclawId") = true
        ∧ Json.get? (some existing) "openclawId"
          = some (updatedAgentConfig rt name existing gatewayConfig).id)
      ∨ (Json.truthy (Json.get? (some existing) "openclawId") = false
        ∧ (updatedAgentConfig rt name existing gatewayConfig).id
          = .str (openclawId rt name)) := by
  unfold updatedAgentConfig Json.or
  dsimp only
  cases Json.get? (some existing) "openclawId" with
  | none => exact .inr ⟨rfl, rfl⟩
  | some x =>
    dsimp only
    split
    · next htrue => exact .inl ⟨htrue, rfl⟩
    · next hfalse => exact .inr ⟨Bool.eq_false_iff.mpr hfalse, rfl⟩

/-- **Where a write goes to**, for an agent that has an entry: to one that is not another
agent's, just if it is apart from that. -/
theorem id_ne_iff_apartFrom (hnamed : EntriesNamed s) (hdistinct : EntriesDistinct site.rt s)
    {w : GatewayWrite} (hw : a.action.request.gatewayWrite site (s.agents.advance a.action)
      = some w) {e : ℕ × String} (he : e ∈ s.entries) (hne : e.1 ≠ w.agent) :
    (w.HasEntry s → (w.config site.rt).id ≠ .str (openclawId site.rt e.2))
      ↔ w.ApartFrom site.rt s e := by
  cases hkind : a.action.request with
  | create body =>
    rw [hkind] at hw
    obtain ⟨agent, name, config, r, rfl, hempty, -⟩ := postGatewayWrite_eq_some hw
    have hid : ((GatewayWrite.created agent name config).config site.rt).id
        = .str (openclawId site.rt name) := by
      show Json.str (openclawId site.rt (orElse name "agent")) = _
      rw [orElse, if_neg hempty]
    rw [hid]
    show (True → Json.str _ ≠ Json.str _) ↔ openclawId site.rt name ≠ openclawId site.rt e.2
    rw [true_imp_iff, ne_eq, Json.str.injEq]
  | updateOne id body written =>
    rw [hkind] at hw
    obtain ⟨agent, name, existing, gatewayConfig, r, rfl, hfound, hname, -⟩ :=
      putGatewayWrite_eq_some hw
    have hr := lookupAgent_eq_some hfound
    show (_ → _) ↔ (_ → _)
    refine forall_congr' fun hentry => ?_
    -- the agent has the name that its entry was written with
    have hother : openclawId site.rt name ≠ openclawId site.rt e.2 := by
      obtain ⟨name', hmem⟩ := hentry
      obtain ⟨r', hr', hname'⟩ := hnamed _ hmem
      obtain rfl := Option.some.inj (hr.symm.trans hr')
      obtain rfl := SqlValue.text.inj (hname.symm.trans hname')
      exact hdistinct _ hmem e he fun heq => hne heq.symm
    obtain ⟨htrue, hid⟩ | ⟨hfalse, hid⟩ :=
      id_updatedAgentConfig site.rt name existing gatewayConfig
    · rw [hid] at htrue ⊢
      refine ⟨fun h _ heq => h (Option.some.inj heq), fun h heq => h htrue (congrArg some heq)⟩
    · refine iff_of_true (fun heq => hother (Json.str.inj (hid.symm.trans heq))) fun htrue => ?_
      exact absurd (htrue.symm.trans hfalse) (by decide)
  | _ =>
    rw [hkind] at hw
    cases hw

/-- **What one request does**: the entries stay apart, and the write keeps the others, just
if it is apart from them. -/
theorem entriesApart_next_iff (hnamed : EntriesNamed s) (hdistinct : EntriesDistinct site.rt s) :
    EntriesDistinct site.rt ((gatewayEntries site).next s a) ∧ KeepsOtherEntries site s a
      ↔ WritesApart site s a := by
  have hemits : ∀ w, w ∈ (gatewayEntries site).emits s a ↔ entryWrite site s a = some w :=
    fun _ => Option.mem_toList
  constructor
  · rintro ⟨-, hkeeps⟩ w hw e he hne
    exact (id_ne_iff_apartFrom hnamed hdistinct (entryWrite_eq_some hw).1 he hne).mp fun hentry =>
      (hkeeps w ((hemits w).mpr hw) hentry e he hne).1
  · intro hapart
    refine ⟨?_, fun w hw hentry e he hne => ?_⟩
    · -- an agent that is created is apart from those before
      have hnew : ∀ e ∈ s.entries, ∀ w e', entryWrite site s a = some w →
          w.request.entry = some e' → e.1 ≠ e'.1 →
            openclawId site.rt e'.2 ≠ openclawId site.rt e.2 := by
        intro e he w e' hw hentry hne
        have h := hapart w hw e he
        cases hrequest : w.request with
        | created agent name config =>
          rw [hrequest] at h hentry
          obtain rfl := Option.some.inj hentry
          exact h hne
        | updated _ _ _ _ =>
          rw [hrequest] at hentry
          cases hentry
      intro e he e' he' hne
      obtain ⟨he, -⟩ := List.mem_filter.mp he
      obtain ⟨he', -⟩ := List.mem_filter.mp he'
      obtain he | he := List.mem_append.mp he <;> obtain he' | he' := List.mem_append.mp he'
      · exact hdistinct e he e' he' hne
      · obtain ⟨w, hw, hentry⟩ := Option.bind_eq_some_iff.mp (Option.mem_toList.mp he')
        exact (hnew e he w e' hw hentry hne).symm
      · obtain ⟨w, hw, hentry⟩ := Option.bind_eq_some_iff.mp (Option.mem_toList.mp he)
        exact hnew e' he' w e hw hentry hne.symm
      · have heq := Option.some.inj
          ((Option.mem_toList.mp he).symm.trans (Option.mem_toList.mp he'))
        exact absurd (congrArg Prod.fst heq) hne
    · have hw := (hemits w).mp hw
      obtain ⟨hrequest, parsed, d, hmerge, hbefore, hafter⟩ := entryWrite_eq_some hw
      have hid := (id_ne_iff_apartFrom hnamed hdistinct hrequest he hne).mpr
        (hapart w hw e he hne) hentry
      refine ⟨hid, ?_⟩
      rw [hbefore, hafter]
      exact agentsOf_mergeAgent hmerge hid

end Apart

/-- **The entries are kept apart**, and no write goes to that of another agent, in exactly
the runs in which each write that is made is apart from the entries of the others. -/
theorem entriesApart_iff (site : AgentSite) (agents : AgentState) (as : List EntryAction) :
    (gatewayEntries site).Always (EntriesDistinct site.rt) ⟨agents, []⟩ as
        ∧ (gatewayEntries site).EachStep (KeepsOtherEntries site) ⟨agents, []⟩ as
      ↔ (gatewayEntries site).EachStep (WritesApart site) ⟨agents, []⟩ as :=
  (gatewayEntries site).always_and_eachStep_iff (J := EntriesNamed)
    (fun _ he => absurd he List.not_mem_nil) (fun _ _ => entriesNamed_next)
    (fun _ he => absurd he List.not_mem_nil) (fun _ _ => entriesApart_next_iff) as

/-- An agent is created, with a write to the file. -/
def sampleCreation (name : String) (file : Json) : EntryAction where
  action := ⟨0, .create (some (.obj [("name", .str name), ("role", .str "developer"),
    ("write_to_gateway", .bool true)]))⟩
  file := some file
  around := sampleSurroundings

/-- The file with an entry of Bob Smith. -/
def sampleEntryFile : Json :=
  .obj [("agents", .obj [("list", .arr [.obj [("id", .str "bob-smith"),
    ("name", .str "Bob Smith")]])])]

/-- Two names that give one id. -/
def sampleNames : List EntryAction :=
  [sampleCreation "Bob Smith" sampleOpenclaw, sampleCreation "bob-smith" sampleEntryFile]

/-- **The entry of Bob Smith becomes that of bob-smith.** -/
theorem not_entriesApart_sampleNames :
    ¬ ∀ (site : AgentSite) (agents : AgentState) (as : List EntryAction),
      (gatewayEntries site).Always (EntriesDistinct site.rt) ⟨agents, []⟩ as
        ∧ (gatewayEntries site).EachStep (KeepsOtherEntries site) ⟨agents, []⟩ as := by
  intro h
  have hentries : ((gatewayEntries sampleAgentSite).state ⟨.initial 1700000000000, []⟩
      sampleNames).entries = [(1, "Bob Smith"), (2, "bob-smith")] := by decide +kernel
  have hdistinct := (h sampleAgentSite (.initial 1700000000000) sampleNames).1 sampleNames
    (List.prefix_refl _)
  unfold EntriesDistinct at hdistinct
  rw [hentries] at hdistinct
  have hid : openclawId sampleRuntime "Bob Smith" = openclawId sampleRuntime "bob-smith" := by
    decide +kernel
  exact hdistinct (1, "Bob Smith") (by simp) (2, "bob-smith") (by simp) (by decide) hid

end MissionControl
