import MissionControl.GatewayConfig
import MissionControl.Library.SharedCell

/-!
# Writes of the configuration file

The writers of `openclaw.json` – `PUT /api/gateway-config`, and `writeAgentToConfig` of the
requests that create or update an agent – read the whole file, change their part, and write
the whole file back. Between the two accesses of one come those of the others: what a
request writes is kept by those that touch other agents or other paths and have read it,
and is gone when one writes that had read the file before
(`not_configEffects_kept_sampleRace`). In a run in which no request writes what it had read
before another has written, the file keeps the effect of each (`configEffects_kept`).

Both are the rules of `SharedCell` at one property: the effect of a request is in the file
(`ConfigRequest.EffectIn`). What is left to prove is that a request which has read a file
with the effect writes one with it, and that is a fact about one write, of paths that are
apart and of entries of other agents.
-/

namespace MissionControl

open Json (assign)

/-! ## The requests -/

/-- A request that waits for the file: the updates of a `PUT`, or an agent. -/
inductive ConfigRequest where
  | updates (updates : List (String × Json))
  | agent (agent : AgentConfig)

/-- What a request finds beside the file: what is around its assignments. -/
structure ConfigContext where
  updates : String → Surroundings
  agent : Surroundings

def ConfigRequest.apply (rt : Runtime) (context : ConfigContext) (parsed : Json) :
    ConfigRequest → Except Exception Json
  | updates us => applyUpdates rt context.updates us parsed
  | agent a => mergeAgent context.agent parsed a

/-- **What a request does with the file it has read**, which is nothing if the file cannot
be read, or is no JSON. -/
def configRequests (site : GatewayConfigSite) : ConfigRequest → ConfigContext → Option Json →
    SharedCell.Move ConfigRequest ConfigRequest (Option Json)
  | _, _, none => .stop
  | request, context, some parsed =>
    match request.apply site.rt context parsed with
    | .ok parsed => .write request (some parsed.stored)
    | .error _ => .stop

/-- **What happens**: an agent is created or updated with a write to the gateway, values are
assigned, and a request has the access to the file that it waits for. -/
inductive ConfigAction where
  | createAgent (name : String) (config : Json)
  | updateAgent (name : String) (existingConfig gatewayConfig : Json)
  | putGatewayConfig (body : Option Json)
  | resume (i : ℕ) (context : ConfigContext)

/-- The agent of a `POST` as it is written. -/
def createdAgentConfig (rt : Runtime) (name : String) (config : Json) : AgentConfig :=
  ⟨.str (openclawId rt (orElse name "agent")), some (.str name), config⟩

/-- The agent of a `PUT` as it is written. -/
def updatedAgentConfig (rt : Runtime) (name : String) (existingConfig gatewayConfig : Json) :
    AgentConfig :=
  ⟨Json.or (Json.get? (some existingConfig) "openclawId") (.str (openclawId rt name)), none,
    gatewayConfig⟩

/-- `writeAgentToConfig` is begun where the path of the file is known. -/
def writeAgentToConfig (site : GatewayConfigSite) (agent : AgentConfig) : Option ConfigRequest :=
  if site.openclawHome = "" then none else some (.agent agent)

/-- The request that an action begins, or goes on with. -/
def ConfigAction.access (site : GatewayConfigSite) :
    ConfigAction → SharedCell.Action ConfigRequest ConfigContext
  | createAgent name config =>
    .start (writeAgentToConfig site (createdAgentConfig site.rt name config))
  | updateAgent name existingConfig gatewayConfig =>
    .start (writeAgentToConfig site
      (updatedAgentConfig site.rt name existingConfig gatewayConfig))
  | putGatewayConfig body => .start ((acceptGatewayConfig site body).toOption.map .updates)
  | resume i context => .resume i context

/-- The states of the file and of the requests for it. -/
abbrev ConfigState := SharedCell.State ConfigRequest ConfigRequest (Option Json)

abbrev ConfigEvent := SharedCell.Event ConfigRequest (Option Json)

/-- **The configuration file**, its requests interleaving wherever they wait for it. -/
def configFile (site : GatewayConfigSite) : Machine ConfigState ConfigAction ConfigEvent :=
  (SharedCell.machine (configRequests site)).comap (ConfigAction.access site)

/-! ## Effects -/

/-- The list of the agents of a file. -/
def configAgents (file : Option Json) : List Json :=
  match file.bind (Json.valueAt ["agents", "list"]) with
  | some (.arr list) => list
  | _ => []

/-- **The effect that a write has left** is still in the file: what stands at the paths of
the updates, or the agents of the id. -/
def ConfigRequest.EffectIn (written file : Option Json) : ConfigRequest → Prop
  | updates us => ∀ u ∈ us, ∀ x,
    written.bind (Json.valueAt (splitDots u.1)) = some x →
    file.bind (Json.valueAt (splitDots u.1)) = some x
  | agent a => ∀ x ∈ configAgents written, x.child "id" = some a.id.stored →
    x ∈ configAgents file

/-- **A request touches other agents or other paths** than a second one: of two agents the
ids differ, and else a path is not on the way to that of the other, or of the agents. -/
def ConfigRequest.ApartFrom : ConfigRequest → ConfigRequest → Prop
  | updates us, updates us' => ∀ u ∈ us, ∀ u' ∈ us', Apart (splitDots u.1) (splitDots u'.1)
  | updates us, agent _ => ∀ u ∈ us, Apart (splitDots u.1) ["agents", "list"]
  | agent _, updates us' => ∀ u' ∈ us', Apart ["agents", "list"] (splitDots u'.1)
  | agent a, agent a' => strictEquals a.id.stored a'.id = false

/-- **Every request that has written, and that the later ones are apart from, has its effect
in the file.** -/
def ConfigEffectsKept (es : List ConfigEvent) (file : Option Json) : Prop :=
  ∀ before i request written since, es = before ++ .put i request written :: since →
    (∀ j later w, .put j later w ∈ since → request.ApartFrom later) →
    request.EffectIn written file

/-! ## What a request leaves -/

section Leaves

variable {rt : Runtime} {around : Surroundings}

theorem or_of_child {x y fallback : Json} {key : String} (h : x.child key = some y) :
    Json.or (some x) fallback = x := by
  match x with
  | .obj _ | .arr _ => rfl
  | .null | .bool _ | .num _ | .str _ => exact nomatch h

/-- **What a merged agent does to the file**: nothing in the tree, or its `agents` are put
in place, with what the list has become. -/
theorem mergeAgent_cases {parsed d : Json} {agent : AgentConfig}
    (h : mergeAgent around parsed agent = .ok d) :
    d = parsed ∨ ∃ fields agents agents', parsed = .obj fields
      ∧ Json.or (fields.lookup "agents") (.obj []) = .obj agents
      ∧ d = .obj (assign fields "agents" (.obj agents'))
      ∧ (agents' = agents ∨ ∃ list list', Json.or (agents.lookup "list") (.arr []) = .arr list
        ∧ mergeIntoList agent list = .ok list' ∧ agents' = assign agents "list" (.arr list')) := by
  unfold mergeAgent at h
  match parsed with
  | .obj fields =>
    dsimp only at h
    split at h
    · exact Or.inl (eq_of_outside h)
    · split at h
      · next agents hagents =>
        obtain ⟨x, hx, h⟩ := bind_eq_ok.mp h
        cases h
        unfold mergeIntoAgents at hx
        dsimp only at hx
        split at hx
        · obtain rfl := eq_of_outside hx
          exact Or.inr ⟨fields, agents, agents, rfl, hagents, rfl, Or.inl rfl⟩
        · split at hx
          · next list hlist =>
            obtain ⟨list', hmerge, hx⟩ := bind_eq_ok.mp hx
            cases hx
            exact Or.inr ⟨fields, agents, _, rfl, hagents, rfl,
              Or.inr ⟨list, list', hlist, hmerge, rfl⟩⟩
          · exact nomatch hx
      · exact Or.inl (eq_of_outside h)
      · split at h
        · exact Or.inl (eq_of_outside h)
        · exact nomatch h
  | .arr _ => exact Or.inl (eq_of_outside h)
  | .null => exact nomatch h
  | .bool _ | .num _ | .str _ =>
    dsimp only at h
    split at h
    · exact Or.inl (eq_of_outside h)
    · exact nomatch h

/-- **A merged agent leaves alone what stands at a path apart.** -/
theorem valueAt_mergeAgent {path : List String} {parsed d x : Json} {agent : AgentConfig}
    (hapart : Apart path ["agents", "list"]) (h : mergeAgent around parsed agent = .ok d)
    (hx : parsed.valueAt path = some x) : d.valueAt path = some x := by
  obtain rfl | ⟨fields, agents, agents', rfl, hagents, rfl, hlist⟩ := mergeAgent_cases h
  · exact hx
  cases path with
  | nil => exact hapart.elim
  | cons key path =>
    obtain ⟨y, hy, hyx⟩ := Option.bind_eq_some_iff.mp hx
    obtain ⟨rfl, hapart⟩ | ⟨hne, -⟩ := hapart
    · -- the path parts from that of the list within `agents`
      cases path with
      | nil => exact hapart.elim
      | cons key path =>
        obtain ⟨-, hapart⟩ | ⟨hne, -⟩ := hapart
        · cases path <;> exact hapart.elim
        obtain ⟨z, hz, hzx⟩ := Option.bind_eq_some_iff.mp hyx
        have hy : fields.lookup "agents" = some y := hy
        rw [hy, or_of_child hz] at hagents
        subst hagents
        refine Option.bind_eq_some_iff.mpr ⟨.obj agents', lookup_assign_self fields _ _,
          Option.bind_eq_some_iff.mpr ⟨z, ?_, hzx⟩⟩
        obtain rfl | ⟨list, list', -, -, rfl⟩ := hlist
        · exact hz
        · exact (lookup_assign_of_ne agents _ hne).trans hz
    · exact Option.bind_eq_some_iff.mpr ⟨y, (lookup_assign_of_ne fields _ hne).trans hy, hyx⟩

theorem findAgent_eq_ok {id : Json} {list : List Json} {i : ℕ}
    (h : findAgent id list = .ok (some i)) : ∃ x other, list[i]? = some x
      ∧ Json.get (some x) "id" = .ok (some other) ∧ strictEquals other id = true := by
  induction list generalizing i with
  | nil => exact nomatch h
  | cons x list ih =>
    obtain ⟨other, hother, h⟩ := bind_eq_ok.mp h
    split at h
    · next hequal =>
      obtain rfl : 0 = i := Option.some.inj (Except.ok.inj h)
      cases other with
      | none => exact nomatch hequal
      | some other => exact ⟨x, other, rfl, hother, hequal⟩
    · obtain ⟨j, hj, h⟩ := bind_eq_ok.mp h
      obtain ⟨j, rfl, rfl⟩ := Option.map_eq_some_iff.mp (Except.ok.inj h)
      exact ih hj

theorem get_of_child {x id other : Json} (hid : x.child "id" = some id)
    (h : Json.get (some x) "id" = .ok (some other)) : other = id := by
  match x with
  | .obj fields => exact Option.some.inj ((Except.ok.inj h).symm.trans hid)
  | .null | .bool _ | .num _ | .str _ | .arr _ => exact nomatch h

theorem mem_mergeIntoList {agent : AgentConfig} {list list' : List Json} {x id : Json}
    (h : mergeIntoList agent list = .ok list') (hx : x ∈ list) (hid : x.child "id" = some id)
    (hne : strictEquals id agent.id = false) : x ∈ list' := by
  obtain ⟨found, hfound, h⟩ := bind_eq_ok.mp h
  cases found with
  | none =>
    cases h
    exact List.mem_append_left _ hx
  | some i =>
    cases h
    obtain ⟨j, hj⟩ := List.mem_iff_getElem?.mp hx
    refine List.mem_iff_getElem?.mpr ⟨j, ?_⟩
    rw [List.getElem?_modify, hj]
    refine congrArg some (if_neg ?_)
    rintro rfl
    obtain ⟨y, other, hy, hother, hequal⟩ := findAgent_eq_ok hfound
    obtain rfl : x = y := Option.some.inj (hj.symm.trans hy)
    rw [get_of_child hid hother, hne] at hequal
    exact nomatch hequal

theorem mem_configAgents {x : Json} {file : Option Json} :
    x ∈ configAgents file
      ↔ ∃ list, file.bind (Json.valueAt ["agents", "list"]) = some (.arr list) ∧ x ∈ list := by
  unfold configAgents
  constructor
  · intro hx
    split at hx
    · next list hlist => exact ⟨list, hlist, hx⟩
    · exact nomatch hx
  · rintro ⟨list, hlist, hx⟩
    rw [hlist]
    exact hx

/-- **The agents of other ids stay.** -/
theorem mem_configAgents_mergeAgent {parsed d x id : Json} {agent : AgentConfig}
    (h : mergeAgent around parsed agent = .ok d) (hx : x ∈ configAgents (some parsed))
    (hid : x.child "id" = some id) (hne : strictEquals id agent.id = false) :
    x ∈ configAgents (some d) := by
  obtain rfl | ⟨fields, agents, agents', rfl, hagents, rfl, hmerged⟩ := mergeAgent_cases h
  · exact hx
  obtain ⟨list, hlist, hx⟩ := mem_configAgents.mp hx
  have hlist : (Json.obj fields).valueAt ["agents", "list"] = some (.arr list) := hlist
  obtain ⟨y, hy, hyx⟩ := Option.bind_eq_some_iff.mp hlist
  obtain ⟨z, hz, hzx⟩ := Option.bind_eq_some_iff.mp hyx
  cases hzx
  have hy : fields.lookup "agents" = some y := hy
  rw [hy, or_of_child hz] at hagents
  subst hagents
  have hstep : ∀ {l : List Json}, agents'.lookup "list" = some (.arr l) →
      (Json.obj (assign fields "agents" (.obj agents'))).valueAt ["agents", "list"]
        = some (.arr l) := fun hl =>
    Option.bind_eq_some_iff.mpr ⟨.obj agents', lookup_assign_self fields _ _,
      Option.bind_eq_some_iff.mpr ⟨_, hl, rfl⟩⟩
  obtain rfl | ⟨list₀, list', hlist₀, hmerge, rfl⟩ := hmerged
  · exact mem_configAgents.mpr ⟨list, hstep hz, hx⟩
  · have hz : agents.lookup "list" = some (.arr list) := hz
    rw [hz] at hlist₀
    cases hlist₀
    exact mem_configAgents.mpr ⟨list', hstep (lookup_assign_self agents _ _),
      mem_mergeIntoList hmerge hx hid hne⟩

/-- **The updates leave alone what stands at a path apart from theirs.** -/
theorem valueAt_applyUpdates {around : String → Surroundings} {path : List String}
    {updates : List (String × Json)} {parsed d x : Json}
    (hapart : ∀ u ∈ updates, Apart path (splitDots u.1))
    (h : applyUpdates rt around updates parsed = .ok d) (hx : parsed.valueAt path = some x) :
    d.valueAt path = some x := by
  induction updates generalizing parsed with
  | nil =>
    cases h
    exact hx
  | cons update updates ih =>
    obtain ⟨next, hnext, h⟩ := bind_eq_ok.mp h
    have hkept := valueAt_setNested (hapart update List.mem_cons_self) hnext hx
    exact ih (fun u hu => hapart u (List.mem_cons_of_mem _ hu)) h hkept

theorem stored_of_valueAt_stored {path : List String} {y x : Json}
    (h : y.stored.valueAt path = some x) : x.stored = x := by
  rw [valueAt_stored] at h
  obtain ⟨z, -, rfl⟩ := Option.map_eq_some_iff.mp h
  exact Json.stored_stored z

theorem stored_of_mem_configAgents {y x : Json} (h : x ∈ configAgents (some y.stored)) :
    x.stored = x := by
  obtain ⟨list, hlist, hx⟩ := mem_configAgents.mp h
  have hlist := stored_of_valueAt_stored hlist
  rw [Json.stored_arr] at hlist
  obtain ⟨i, hi⟩ := List.mem_iff_getElem?.mp hx
  have hmap : (list.map Json.stored)[i]? = list[i]? := congrArg (·[i]?) (Json.arr.inj hlist)
  rw [List.getElem?_map, hi] at hmap
  exact Option.some.inj hmap

theorem mem_configAgents_stored {d x : Json} (hx : x ∈ configAgents (some d)) :
    x.stored ∈ configAgents (some d.stored) := by
  obtain ⟨list, hlist, hx⟩ := mem_configAgents.mp hx
  have hlist : d.valueAt ["agents", "list"] = some (.arr list) := hlist
  refine mem_configAgents.mpr ⟨list.map Json.stored, ?_, List.mem_map_of_mem hx⟩
  show d.stored.valueAt _ = _
  rw [valueAt_stored, hlist, ← Json.stored_arr]
  rfl

end Leaves

/-! ## Runs -/

section Runs

variable {site : GatewayConfigSite}

theorem eq_of_write_config {request o : ConfigRequest} {context : ConfigContext}
    {u w : Option Json} (h : configRequests site request context u = .write o w) :
    o = request ∧ ∃ parsed d, u = some parsed ∧ request.apply site.rt context parsed = .ok d
      ∧ w = some d.stored := by
  cases u with
  | none => exact nomatch h
  | some parsed =>
    unfold configRequests at h
    split at h
    · next hparsed => exact nomatch hparsed
    · next heq =>
      cases heq
      split at h
      · next d happly =>
        cases h
        exact ⟨rfl, _, d, rfl, happly, rfl⟩
      · exact nomatch h

/-- **What a request leaves of the effect of one that is apart from it**: all of it. -/
theorem ConfigRequest.EffectIn.write {request later : ConfigRequest} {context : ConfigContext}
    {y parsed d : Json} (h : request.EffectIn (some y.stored) (some parsed))
    (hapart : request.ApartFrom later) (happly : later.apply site.rt context parsed = .ok d) :
    request.EffectIn (some y.stored) (some d.stored) := by
  have hpath : ∀ {path : List String} {x : Json}, y.stored.valueAt path = some x →
      d.valueAt path = some x → d.stored.valueAt path = some x := by
    intro path x hy hd
    rw [valueAt_stored, hd, Option.map_some, stored_of_valueAt_stored hy]
  have hagent : ∀ {x : Json}, x ∈ configAgents (some y.stored) → x ∈ configAgents (some d) →
      x ∈ configAgents (some d.stored) := by
    intro x hy hd
    have hstored := mem_configAgents_stored hd
    rwa [stored_of_mem_configAgents hy] at hstored
  cases request with
  | updates us =>
    intro u hu x hx
    cases later with
    | updates us' => exact hpath hx (valueAt_applyUpdates (hapart u hu) happly (h u hu x hx))
    | agent a => exact hpath hx (valueAt_mergeAgent (hapart u hu) happly (h u hu x hx))
  | agent a =>
    intro x hx hid
    cases later with
    | updates us' =>
      obtain ⟨list, hlist, hmem⟩ := mem_configAgents.mp (h x hx hid)
      exact hagent hx (mem_configAgents.mpr
        ⟨list, valueAt_applyUpdates hapart happly hlist, hmem⟩)
    | agent a' => exact hagent hx (mem_configAgents_mergeAgent happly (h x hx hid) hid hapart)

end Runs

open Classical in
/-- **What becomes of the effect of a request** in any run: it is in the file, or a later
request was not apart, or one has written the file since that had read it before. -/
theorem configEffect_kept_or_overwritten (site : GatewayConfigSite) (file : Option Json)
    (as : List ConfigAction) {before since : List ConfigEvent} {i : ℕ} {request : ConfigRequest}
    {written : Option Json}
    (htrace : (configFile site).trace (.idle file) as
      = before ++ .put i request written :: since) :
    (request.EffectIn written ((configFile site).state (.idle file) as).value
        ∨ ∃ j later w, .put j later w ∈ since ∧ ¬ request.ApartFrom later)
      ∨ SharedCell.Overwritten before since := by
  unfold configFile at htrace ⊢
  rw [Machine.trace_comap] at htrace
  rw [Machine.state_comap]
  obtain ⟨request', context, u, hmade⟩ := SharedCell.made_of_put (p := configRequests site) file
    (as.map (ConfigAction.access site)) (i := i) (o := request) (w := written)
    (by rw [htrace]; exact List.mem_append_right before List.mem_cons_self)
  obtain ⟨rfl, -, y, -, -, rfl⟩ := eq_of_write_config hmade
  refine SharedCell.kept (G := fun since v => request.EffectIn (some y.stored) v
    ∨ ∃ j later w, .put j later w ∈ since ∧ ¬ request.ApartFrom later) file _ htrace ?_ ?_ ?_
  · refine Or.inl ?_
    cases request with
    | updates us => exact fun _ _ _ h => h
    | agent a => exact fun _ h _ => h
  · rintro es es' w hsub (h | ⟨j, later, w', hmem, hapart⟩)
    · exact Or.inl h
    · exact Or.inr ⟨j, later, w', hsub.subset hmem, hapart⟩
  · intro es j later context u o w h hmove
    obtain ⟨rfl, parsed, d, rfl, happly, rfl⟩ := eq_of_write_config hmove
    by_cases hapart : request.ApartFrom o
    · obtain h | ⟨j', later', w', hmem, hnot⟩ := h
      · exact Or.inl (h.write hapart happly)
      · exact Or.inr ⟨j', later', w', List.mem_append_left _ hmem, hnot⟩
    · exact Or.inr ⟨j, o, _, List.mem_append_right es List.mem_cons_self, hapart⟩

/-- **A request writes what it has read last of all**: no other one has written since. -/
def ConfigWritesFresh (site : GatewayConfigSite) (es : List ConfigEvent) (s : ConfigState)
    (a : ConfigAction) : Prop := SharedCell.WritesFresh es s (a.access site)

/-- **No update is lost** in a run in which no request writes what it had read before
another one has written: the file has the effect of every request that the later ones are
apart from. -/
theorem configEffects_kept (site : GatewayConfigSite) (file : Option Json)
    {as : List ConfigAction}
    (h : (configFile site).Throughout (ConfigWritesFresh site) (.idle file) as) :
    ConfigEffectsKept ((configFile site).trace (.idle file) as)
      ((configFile site).state (.idle file) as).value := by
  have hfresh : (SharedCell.machine (configRequests site)).Throughout SharedCell.WritesFresh
      (.idle file) (as.map (ConfigAction.access site)) := Machine.throughout_map _ h
  intro before i request written since htrace hapart
  obtain (heffect | ⟨j, later, w, hmem, hnot⟩) | hover :=
    configEffect_kept_or_overwritten site file as htrace
  · exact heffect
  · exact absurd (hapart j later w hmem) hnot
  · refine absurd hover (SharedCell.not_overwritten file hfresh (i := i) (o := request)
      (v := written) ?_)
    rw [← htrace]
    exact (Machine.trace_comap _ _ _ _).symm

/-! ## An agent and a value -/

/-- A configuration without agents. -/
def sampleOpenclaw : Json := .obj [("agents", .obj [("list", .arr [])])]

/-- A value is assigned. -/
def sampleConfigPut : ConfigAction := .putGatewayConfig (sampleUpdate "logging" (.str "debug"))

/-- An agent is updated. -/
def sampleAgentPut : ConfigAction :=
  .updateAgent "bot" (.obj [("openclawId", .str "bot")]) (.obj [("model", .str "opus")])

/-- A request has an access to the file. -/
def sampleConfigResume (i : ℕ) : ConfigAction :=
  .resume i ⟨fun _ => sampleSurroundings, sampleSurroundings⟩

/-- The updates of the request. -/
def sampleConfigUpdates : ConfigRequest := .updates [("logging", .str "debug")]

/-- The agent of the request. -/
def sampleConfigAgent : ConfigRequest := .agent ⟨.str "bot", none, .obj [("model", .str "opus")]⟩

theorem access_sampleConfigPut : sampleConfigPut.access sampleGatewayConfigSite
    = .start (some sampleConfigUpdates) := by
  show SharedCell.Action.start ((acceptGatewayConfig _ _).toOption.map _) = _
  rw [accept_sampleUpdate (by decide) (by decide +kernel)]
  rfl

theorem access_sampleAgentPut : sampleAgentPut.access sampleGatewayConfigSite
    = .start (some sampleConfigAgent) := rfl

theorem access_sampleConfigResume (i : ℕ) :
    (sampleConfigResume i).access sampleGatewayConfigSite
      = .resume i ⟨fun _ => sampleSurroundings, sampleSurroundings⟩ := rfl

/-- **A value that is assigned** is put behind the agents. -/
theorem configRequests_sampleConfigUpdates (list : List Json) :
    configRequests sampleGatewayConfigSite sampleConfigUpdates
        ⟨fun _ => sampleSurroundings, sampleSurroundings⟩
        (some (.obj [("agents", .obj [("list", .arr list)])]))
      = .write sampleConfigUpdates (some (Json.stored
        (.obj [("agents", .obj [("list", .arr list)]), ("logging", .str "debug")]))) := by
  have hsplit : splitDots "logging" = ["logging"] := by decide +kernel
  simp only [configRequests, sampleConfigUpdates, ConfigRequest.apply, applyUpdates,
    setNestedValue, hsplit]
  rfl

/-- The agent as it is written. -/
def sampleConfigAgentJson : Json := .obj [("id", .str "bot"), ("model", .str "opus")]

theorem configRequests_sampleConfigAgent :
    configRequests sampleGatewayConfigSite sampleConfigAgent
        ⟨fun _ => sampleSurroundings, sampleSurroundings⟩ (some sampleOpenclaw)
      = .write sampleConfigAgent
        (some (.obj [("agents", .obj [("list", .arr [sampleConfigAgentJson])])])) := rfl

/-- **The agent is read before the value is written.** -/
def sampleConfigRace : List ConfigAction :=
  [sampleConfigPut, sampleAgentPut] ++ [1, 2, 1, 2].map sampleConfigResume

/-- **One request after the other.** -/
def sampleConfigTurns : List ConfigAction :=
  [sampleAgentPut, sampleConfigResume 1, sampleConfigResume 1, sampleConfigPut,
    sampleConfigResume 2, sampleConfigResume 2]

/-- **A value that is lost**: the agent is written over it. -/
theorem configFile_sampleConfigRace :
    ((configFile sampleGatewayConfigSite).state (.idle (some sampleOpenclaw))
        sampleConfigRace).value
        = some (.obj [("agents", .obj [("list", .arr [sampleConfigAgentJson])])])
      ∧ (configFile sampleGatewayConfigSite).trace (.idle (some sampleOpenclaw))
          sampleConfigRace
        = [.took 1, .took 2] ++ .put 1 sampleConfigUpdates (some (Json.stored
            (.obj [("agents", .obj [("list", .arr [])]), ("logging", .str "debug")])))
          :: [.put 2 sampleConfigAgent
            (some (.obj [("agents", .obj [("list", .arr [sampleConfigAgentJson])])]))] := by
  have hagent := configRequests_sampleConfigAgent
  have hput := configRequests_sampleConfigUpdates []
  unfold sampleOpenclaw at *
  simp [sampleConfigRace, Machine.state, Machine.trace, Machine.run, Machine.next,
    Machine.emits, configFile, Machine.comap, access_sampleConfigPut, access_sampleAgentPut,
    access_sampleConfigResume, SharedCell.machine, SharedCell.State.idle, Table.insert,
    Table.update, Table.deleteWhere, Table.empty, Function.update, Option.filter, hagent, hput]

/-- **An update is lost** if a request writes what it had read before. -/
theorem not_configEffects_kept_sampleRace :
    ¬ ∀ as, ConfigEffectsKept
      ((configFile sampleGatewayConfigSite).trace (.idle (some sampleOpenclaw)) as)
      ((configFile sampleGatewayConfigSite).state (.idle (some sampleOpenclaw)) as).value := by
  intro h
  obtain ⟨hvalue, htrace⟩ := configFile_sampleConfigRace
  have hsplit : splitDots "logging" = ["logging"] := by decide +kernel
  have heffect := h sampleConfigRace _ _ _ _ _ htrace ?_
  · rw [hvalue] at heffect
    have hlogging := heffect ("logging", .str "debug") (List.mem_singleton_self _)
      (.str "debug") (by rw [hsplit]; rfl)
    rw [hsplit] at hlogging
    exact nomatch hlogging
  · intro j later w hmem
    obtain ⟨-, rfl, -⟩ := SharedCell.Event.put.inj (List.mem_singleton.mp hmem)
    intro u hu
    obtain rfl := List.mem_singleton.mp hu
    rw [hsplit]
    exact Or.inr ⟨by decide, by decide⟩

theorem trace_sampleConfigTurns :
    let trace := (configFile sampleGatewayConfigSite).trace (.idle (some sampleOpenclaw))
    let written := some (Json.obj [("agents", .obj [("list", .arr [sampleConfigAgentJson])])])
    trace (sampleConfigTurns.take 1) = []
      ∧ trace (sampleConfigTurns.take 2) = [] ++ [.took 1]
      ∧ trace (sampleConfigTurns.take 4) = [.took 1, .put 1 sampleConfigAgent written]
      ∧ trace (sampleConfigTurns.take 5)
        = [.took 1, .put 1 sampleConfigAgent written] ++ [.took 2] := by
  have hagent := configRequests_sampleConfigAgent
  have hput := configRequests_sampleConfigUpdates [sampleConfigAgentJson]
  unfold sampleOpenclaw at *
  simp [sampleConfigTurns, Machine.trace, Machine.run, Machine.next, Machine.emits, configFile,
    Machine.comap, access_sampleConfigPut, access_sampleAgentPut, access_sampleConfigResume,
    SharedCell.machine, SharedCell.State.idle, Table.insert, Table.update, Table.deleteWhere,
    Table.empty, Function.update, Option.filter, hagent, hput]

/-- Of two requests one after the other no update is lost. -/
theorem configEffects_kept_sampleTurns :
    ConfigEffectsKept
      ((configFile sampleGatewayConfigSite).trace (.idle (some sampleOpenclaw)) sampleConfigTurns)
      ((configFile sampleGatewayConfigSite).state (.idle (some sampleOpenclaw))
        sampleConfigTurns).value := by
  refine configEffects_kept sampleGatewayConfigSite (some sampleOpenclaw) ?_
  obtain ⟨hfirst, hsecond, hfourth, hfifth⟩ := trace_sampleConfigTurns
  have hstale : ∀ {es es' : List ConfigEvent} {i : ℕ}, es = es' → ¬ SharedCell.Stale es' i →
      ¬ SharedCell.Stale es i := fun heq h => heq ▸ h
  have hsplit : sampleConfigTurns = [] ++ [sampleAgentPut] ++ [sampleConfigResume 1]
      ++ [sampleConfigResume 1] ++ [sampleConfigPut] ++ [sampleConfigResume 2]
      ++ [sampleConfigResume 2] := rfl
  rw [hsplit]
  simp only [Machine.throughout_concat]
  refine ⟨⟨⟨⟨⟨⟨Machine.throughout_nil _ _ _, trivial⟩, fun _ => ?_⟩, fun _ => ?_⟩, ?_⟩,
    fun _ => ?_⟩, fun _ => ?_⟩
  · exact hstale hfirst (SharedCell.not_stale_of_notMem (by simp))
  · exact hstale hsecond (SharedCell.not_stale_concat (by simp))
  · unfold ConfigWritesFresh
    rw [access_sampleConfigPut]
    trivial
  · exact hstale hfourth (SharedCell.not_stale_of_notMem (by simp))
  · exact hstale hfifth (SharedCell.not_stale_concat (by simp))

end MissionControl
