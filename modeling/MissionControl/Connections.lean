import MissionControl.AgentRows

/-!
# Direct connections

An agent that connects drops the connections that it had, and is offline when its last
connection is dropped. In every run each agent has one connection at most, which is the one
of its last connect, and a disconnect sets the agent to `offline` exactly if no connection
of it remains (`connections_latest`). The status of the agent is derived from a count that
leaves out the connection of the request by its id, which is why the ids must be unique.
-/

namespace MissionControl

/-! ## The connections of an agent -/

/-- The connection that has been created for an agent. -/
def AgentEvent.connectionOf (agent : ℕ) : AgentEvent → Option ℕ
  | .connectionCreated i agent' => if agent' = agent then some i else none
  | _ => none

/-- **The connection of the last connect of an agent.** -/
def lastConnection (agent : ℕ) (es : List AgentEvent) : Option ℕ :=
  (es.filterMap (AgentEvent.connectionOf agent)).getLast?

def AgentState.Connected (s : AgentState) (agent i : ℕ) : Prop :=
  ∃ c, s.connections.row i = some c ∧ c.agentId = agent ∧ c.status = .connected

/-- **An agent has one connection at most, that of its last connect.** -/
def LatestConnected (es : List AgentEvent) (s : AgentState) : Prop :=
  ∀ agent, {i | s.Connected agent i}.Subsingleton
    ∧ ∀ i, s.Connected agent i → lastConnection agent es = some i

/-- **A connection of an agent is dropped**: the agent is set to `offline` exactly if no
connection of it remains. -/
structure Drops (s : AgentState) (i agent : ℕ) (s' : AgentState) : Prop where
  gone : ¬ s'.Connected agent i
  kept : (∃ j, s'.Connected agent j) → s'.agents = s.agents
  offline : (∀ j, ¬ s'.Connected agent j) →
    ∃ r, s'.agents.row agent = some r ∧ r .status = .text "offline"
  others : ∀ id, id ≠ agent → s'.agents.row id = s.agents.row id

/-- **A disconnect** drops the connection that it names, or does nothing. -/
def Disconnects (site : AgentSite) (s : AgentState) (a : AgentAction) : Prop :=
  ∀ body, a.request = .disconnect body →
    (∃ i agent, AgentEvent.connectionDisconnected i agent ∈ (agentApi site).emits s a
        ∧ Drops s i agent ((agentApi site).next s a))
      ∨ (∀ i agent, AgentEvent.connectionDisconnected i agent ∉ (agentApi site).emits s a)
        ∧ (agentApi site).next s a = s.advance a

theorem lastConnection_append (agent : ℕ) (es es' : List AgentEvent) :
    lastConnection agent (es ++ es')
      = (lastConnection agent es').or (lastConnection agent es) := by
  unfold lastConnection
  rw [List.filterMap_append, List.getLast?_append]

theorem lastConnection_eq_none {agent : ℕ} {es : List AgentEvent}
    (h : ∀ i, AgentEvent.connectionCreated i agent ∉ es) : lastConnection agent es = none := by
  unfold lastConnection
  rw [List.getLast?_eq_none_iff, List.filterMap_eq_nil_iff]
  intro e he
  cases e with
  | connectionCreated i agent' =>
    refine if_neg ?_
    rintro rfl
    exact h i he
  | _ => rfl

theorem lastConnection_created {agent : ℕ} (i : ℕ) (es : List AgentEvent)
    {es' : List AgentEvent} (h : ∀ j, AgentEvent.connectionCreated j agent ∉ es') :
    lastConnection agent (es ++ .connectionCreated i agent :: es') = some i := by
  have hsingle : lastConnection agent [.connectionCreated i agent] = some i := by
    simp [lastConnection, AgentEvent.connectionOf]
  rw [← List.singleton_append, ← List.append_assoc, lastConnection_append,
    lastConnection_eq_none h, lastConnection_append, hsingle]
  rfl

@[simp] theorem connectionCreated_notMem_storedEvents (sq : Sqlite) (i agent id : ℕ)
    (assignments : List (AgentColumn × SqlValue)) :
    AgentEvent.connectionCreated i agent ∉ storedEvents sq id assignments := by
  intro hmem
  obtain ⟨c, -, hc⟩ := List.mem_filterMap.mp hmem
  obtain ⟨v, -, heq⟩ := Option.map_eq_some_iff.mp hc
  exact nomatch heq

/-! ## What a request does to the connections -/

def SameConnection (c c' : Connection) : Prop :=
  c'.agentId = c.agentId ∧ c'.connectionId = c.connectionId
    ∧ (c'.status = .connected → c.status = .connected)

theorem SameConnection.refl (c : Connection) : SameConnection c c := ⟨rfl, rfl, id⟩

/-- **What a request does to the connections**: those it leaves connected are not of an
agent that it connects; the one that it creates is under an id of its own; and the agents
of all of them are there. -/
structure Connects (s : AgentState) (o : AgentOutcome) : Prop where
  follows : Table.Follows
    (fun _ c c' => SameConnection c c'
      ∧ (c'.status = .connected → lastConnection c.agentId o.2 = none))
    (fun i c' => i = s.connections.next ∧ lastConnection c'.agentId o.2 = some i
      ∧ (o.1.agents.row c'.agentId).isSome
      ∧ ∀ j c, s.connections.row j = some c → c.connectionId ≠ c'.connectionId)
    s.connections o.1.connections
  agents : ∀ i c c', s.connections.row i = some c → o.1.connections.row i = some c' →
    (s.agents.row c.agentId).isSome → (o.1.agents.row c.agentId).isSome

/-- **A request that connects no agent**, and deletes none. -/
structure ConnectsNone (s : AgentState) (o : AgentOutcome) : Prop where
  connections : Table.Follows (fun _ => SameConnection) (fun _ _ => False) s.connections
    o.1.connections
  nothing : ∀ i agent, AgentEvent.connectionCreated i agent ∉ o.2
  agents : Table.Keeps s.agents o.1.agents

section Requests

variable {site : AgentSite} {s : AgentState}

theorem ConnectsNone.connects {o : AgentOutcome} (h : ConnectsNone s o) : Connects s o where
  follows := h.connections.mono
    (fun _ _ _ _ hsame => ⟨hsame, fun _ => lastConnection_eq_none fun i => h.nothing i _⟩)
    fun _ _ hN => hN.elim
  agents _ _ _ _ _ hsome := h.agents _ hsome

theorem ConnectsNone.of_agents {agents : Table AgentRow} {es : List AgentEvent}
    (hkeeps : s.agents.Keeps agents)
    (hnothing : ∀ i agent, AgentEvent.connectionCreated i agent ∉ es) :
    ConnectsNone s ({ s with agents := agents }, es) where
  connections := .refl fun _ c _ => .refl c
  nothing := hnothing
  agents := hkeeps

theorem ConnectsNone.answer (response : AgentResponse) : ConnectsNone s (s.answer response) :=
  .of_agents (.refl _) (by simp)

theorem ConnectsNone.append {s' : AgentState} {es es' : List AgentEvent}
    (hnothing : ∀ i agent, AgentEvent.connectionCreated i agent ∉ es')
    (h : ConnectsNone s (s', es)) : ConnectsNone s (s', es ++ es') where
  connections := h.connections
  nothing i agent hmem := (List.mem_append.mp hmem).elim (h.nothing i agent) (hnothing i agent)
  agents := h.agents

theorem postAgent_connectsNone (body : Option Json) :
    ConnectsNone s (postAgent site s body) := by
  unfold postAgent
  split
  · exact .answer _
  · split
    · exact .answer _
    · split
      · exact .answer _
      · split
        · exact .answer _
        · next hinsert =>
          obtain ⟨values, -, rfl⟩ := insertAgent_eq_ok hinsert
          exact .of_agents (.insert _ _) (by simp)

theorem putAgentRow_connectsNone (body : Json) (id : ℕ) (r : AgentRow) :
    ConnectsNone s (putAgentRow site s body id r) := by
  unfold putAgentRow
  dsimp only
  split
  · exact .answer _
  · split
    · exact .answer _
    · split
      · exact .answer _
      · next hupdate =>
        rw [updateAgent_eq_ok hupdate]
        refine .of_agents (.update _ _ _) fun i agent hmem => ?_
        have hmem := (List.mem_append.mp hmem).resolve_left
          (connectionCreated_notMem_storedEvents _ _ _ _ _)
        split at hmem
        · simp at hmem
        · split at hmem <;> simp at hmem

theorem putAgents_connectsNone (body : Option Json) :
    ConnectsNone s (putAgents site s body) := by
  unfold putAgents
  split
  · exact .answer _
  · split
    · exact .answer _
    · split
      · split
        · exact .answer _
        · split
          · exact .answer _
          · exact putAgentRow_connectsNone _ _ _
      · exact .answer _

theorem putAgent_connectsNone (id : String) (body : Option Json) (written : Bool) :
    ConnectsNone s (putAgent site s id body written) := by
  unfold putAgent
  dsimp only
  split
  · exact .answer _
  · split
    · exact .answer _
    · split
      · exact .answer _
      · split
        · exact .answer _
        · split
          · exact .answer _
          · split
            · exact .answer _
            · next hupdate =>
              rw [updateAgent_eq_ok hupdate]
              refine .of_agents (.update _ _ _) fun i agent hmem => ?_
              split at hmem <;> simp at hmem

theorem updateAgentStatus_connectsNone (agentName : SqlValue) (status : String)
    (activity : Option String) :
    ConnectsNone s (updateAgentStatus site s agentName status activity) := by
  unfold updateAgentStatus
  split
  · exact .of_agents (.refl _) (by simp)
  · exact .of_agents (.update _ _ _) (by simp)

theorem getHeartbeat_connectsNone (id : String) : ConnectsNone s (getHeartbeat site s id) := by
  unfold getHeartbeat
  split
  · exact .answer _
  · exact ConnectsNone.append (by simp) (updateAgentStatus_connectsNone _ _ _)

theorem touchConnection_follows {connectionId : Option Json} {connections : Table Connection}
    (h : touchConnection site s connectionId = .ok connections) :
    Table.Follows (fun _ => SameConnection) (fun _ _ => False) s.connections connections := by
  unfold touchConnection at h
  split at h
  · obtain ⟨values, -, h⟩ := bind_eq_ok.mp h
    cases h
    refine .updateAll fun _ c _ => ?_
    split
    · exact ⟨rfl, rfl, id⟩
    · exact .refl c
  · cases h
    exact .refl fun _ c _ => .refl c

theorem postHeartbeat_connectsNone (id : String) (body : Option Json) :
    ConnectsNone s (postHeartbeat site s id body) := by
  unfold postHeartbeat
  dsimp only
  split
  · exact .answer _
  · split
    · exact .answer _
    · next connections htouch =>
      have hthen : ∀ {o}, (o.1.connections = connections) →
          ConnectsNone { s with connections := connections } o → ConnectsNone s o :=
        fun heq h => ⟨heq ▸ touchConnection_follows htouch, h.nothing, h.agents⟩
      split
      · exact hthen rfl (.answer _)
      · refine hthen ?_ (getHeartbeat_connectsNone id)
        unfold getHeartbeat
        split
        · rfl
        · unfold updateAgentStatus
          dsimp only
          split <;> rfl

theorem runHeartbeatCheck_connectsNone (settings : Settings) :
    ConnectsNone s (runHeartbeatCheck site s settings) := by
  refine .of_agents (.updateAll _ _) fun i agent hmem => ?_
  obtain ⟨⟨id, r⟩, -, hmem⟩ := List.mem_flatMap.mp hmem
  simp at hmem

theorem syncAgents_keeps {now : ℕ} {agents : List Json} {p p' : AgentSync}
    (h : syncAgents site now p agents = .ok p') : Table.Keeps p.agents p'.agents := by
  induction agents generalizing p with
  | nil =>
    cases h
    exact .refl _
  | cons agent agents ih =>
    obtain ⟨p₁, hagent, h⟩ := bind_eq_ok.mp h
    refine .trans ?_ (ih h)
    obtain ⟨⟨name, role, config⟩, -, hagent⟩ := bind_eq_ok.mp hagent
    obtain ⟨values, -, hagent⟩ := bind_eq_ok.mp hagent
    split at hagent
    · split at hagent
      · obtain ⟨assignments, -, hagent⟩ := bind_eq_ok.mp hagent
        obtain ⟨agents, hupdate, hagent⟩ := bind_eq_ok.mp hagent
        cases hagent
        rw [updateAgent_eq_ok hupdate]
        exact .update _ _ _
      · cases hagent
        exact .refl _
    · obtain ⟨agents, hinsert, hagent⟩ := bind_eq_ok.mp hagent
      cases hagent
      obtain ⟨values, -, rfl⟩ := insertAgent_eq_ok hinsert
      exact .insert _ _

theorem syncAgentsFromConfig_connectsNone (file : Option Json) :
    ConnectsNone s (syncAgentsFromConfig site s file) := by
  unfold syncAgentsFromConfig
  split
  · exact .answer _
  · dsimp only
    split
    · exact .answer _
    · split
      · exact .answer _
      · split
        · exact .answer _
        · next hsync =>
          refine .of_agents (syncAgents_keeps hsync) fun i agent hmem => ?_
          split at hmem <;> simp at hmem

theorem getStatus_connectsNone (stores : List (String × Option Json)) :
    ConnectsNone s (getStatus site s stores) := by
  refine .of_agents (fun id hsome => ?_) fun i agent hmem => ?_
  · rw [syncLive_row]
    exact Option.isSome_map.trans hsome
  · obtain hmem | hmem := List.mem_append.mp hmem
    · obtain ⟨l, -, hmem⟩ := List.mem_flatMap.mp hmem
      obtain ⟨⟨id, r⟩, -, hmem⟩ := List.mem_flatMap.mp hmem
      exact connectionCreated_notMem_storedEvents _ _ _ _ _ hmem
    · simp at hmem

/-- **A deletion** takes the connections of the agent with it. -/
theorem deleteAgent_connects (id : String) : Connects s (deleteAgent site s id) := by
  unfold deleteAgent
  split
  · exact (ConnectsNone.answer _).connects
  · next agent r _ =>
    refine ⟨.deleteWhere fun _ c _ => ⟨.refl c, fun _ => lastConnection_eq_none (by simp)⟩, ?_⟩
    intro i c c' hc hc' hsome
    obtain ⟨hsame, hstay⟩ := (Table.row_deleteWhere_eq_some _ _).mp hc'
    obtain rfl : c' = c := Option.some.inj (hsame.symm.trans hc)
    have hne : c'.agentId ≠ agent := by simpa using hstay
    obtain ⟨r', hr'⟩ := Option.isSome_iff_exists.mp hsome
    refine Option.isSome_iff_exists.mpr ⟨r', (Table.row_deleteWhere_eq_some _ _).mpr ⟨hr', ?_⟩⟩
    exact decide_eq_false hne

theorem connectAgent_keeps {input : ConnectFields} {agents : Table AgentRow} {agent : ℕ}
    {es : List AgentEvent} (h : connectAgent site s input = .ok (agents, agent, es)) :
    s.agents.Keeps agents ∧ (agents.row agent).isSome
      ∧ ∀ i agent', AgentEvent.connectionCreated i agent' ∉ es := by
  unfold connectAgent at h
  split at h
  · next hfound =>
    cases h
    refine ⟨.update _ _ _, ?_, by simp⟩
    exact Table.Keeps.update _ _ _ _
      (Option.isSome_iff_exists.mpr ⟨_, findByName_eq_some hfound⟩)
  · obtain ⟨agents', hinsert, h⟩ := bind_eq_ok.mp h
    cases h
    obtain ⟨values, -, rfl⟩ := insertAgent_eq_ok hinsert
    refine ⟨.insert _ _, ?_, by simp⟩
    exact Option.isSome_iff_exists.mpr ⟨_, (Table.row_insert_eq_some _ _).mpr
      (Or.inl ⟨rfl, rfl⟩)⟩

theorem disconnectAll_follows (agent now : ℕ) :
    Table.Follows (fun _ c c' => SameConnection c c'
        ∧ (c'.status = .connected → c.agentId ≠ agent)) (fun _ _ => False)
      s.connections (disconnectAll s.connections agent now) := by
  refine .updateAll fun _ c _ => ?_
  split
  · exact ⟨⟨rfl, rfl, nofun⟩, nofun⟩
  · next h => exact ⟨.refl c, fun hconnected hagent => h ⟨hagent, hconnected⟩⟩

/-- **A connect.** -/
theorem postConnect_connects (body : Option Json) (connectionId : String) :
    Connects s (postConnect site s body connectionId) := by
  unfold postConnect
  split
  · exact (ConnectsNone.answer _).connects
  · split
    · exact (ConnectsNone.answer _).connects
    · next agents agent es hconnect =>
      obtain ⟨hkeeps, hagent, hnothing⟩ := connectAgent_keeps hconnect
      have hdropped := disconnectAll_follows (s := s) agent s.now
      dsimp only
      split
      · refine ConnectsNone.connects ⟨hdropped.mono (fun _ _ _ _ h => h.1) fun _ _ h => h,
          fun i agent' hmem => ?_, hkeeps⟩
        obtain hmem | hmem := List.mem_append.mp hmem
        · exact hnothing i agent' hmem
        · simp at hmem
      · next hunique =>
        refine ⟨⟨hdropped.next_le.trans (Nat.le_succ _), fun {i c'} hc' => ?_⟩,
          fun _ _ _ _ _ hsome => hkeeps _ hsome⟩
        obtain ⟨rfl, rfl⟩ | hold := (Table.row_insert_eq_some _ _).mp hc'
        · -- the connection that is created
          refine Or.inr ⟨hdropped.next_le, rfl, ?_, hagent, fun j c hc => ?_⟩
          · exact lastConnection_created _ es (by simp)
          · have hid := (Table.any_eq_false_iff _ _).mp (Bool.eq_false_iff.mpr hunique) j _
              ((Table.row_updateAll _ _ _).trans (congrArg _ hc))
            have hid := of_decide_eq_false hid
            dsimp only at hid
            split at hid <;> exact hid
        · obtain ⟨c, hc, hsame, hstay⟩ | ⟨-, hfalse⟩ := hdropped.row hold
          · refine Or.inl ⟨c, hc, hsame, fun hconnected => lastConnection_eq_none ?_⟩
            intro j hmem
            obtain hmem | hmem := List.mem_append.mp hmem
            · exact hnothing j _ hmem
            · have hcreated : j = (disconnectAll s.connections agent s.now).next
                  ∧ c.agentId = agent := by simpa using hmem
              exact hstay hconnected hcreated.2
          · exact hfalse.elim

theorem disconnectRow_connections (i : ℕ) (c : Connection) :
    (disconnectRow site s i c).1.connections = s.connections.update i fun c =>
      { c with status := .disconnected, updatedAt := s.now } := by
  unfold disconnectRow
  dsimp only
  split <;> rfl

theorem disconnectRow_agents (site : AgentSite) (s : AgentState) (i : ℕ) (c : Connection) :
    (disconnectRow site s i c).1.agents
      = if otherActive (disconnectRow site s i c).1.connections c.agentId c.connectionId then
          s.agents
        else s.agents.update c.agentId fun r => r.assign site.sq (offlineAssignments s) := by
  rw [disconnectRow_connections]
  unfold disconnectRow
  dsimp only
  split <;> rfl

theorem disconnectRow_connectsNone (i : ℕ) (c : Connection) :
    ConnectsNone s (disconnectRow site s i c) := by
  refine ⟨?_, fun j agent hmem => ?_, ?_⟩
  · rw [disconnectRow_connections]
    exact .update (fun _ c _ _ => .refl c) fun c _ => ⟨rfl, rfl, nofun⟩
  · unfold disconnectRow at hmem
    dsimp only at hmem
    split at hmem
    · simp at hmem
    · split at hmem <;> simp at hmem
  · unfold disconnectRow
    dsimp only
    split
    · exact .refl _
    · exact .update _ _ _

theorem deleteConnect_connectsNone (body : Option Json) :
    ConnectsNone s (deleteConnect site s body) := by
  obtain ⟨i, c, -, heq⟩ | ⟨response, heq⟩ := deleteConnect_cases site s body
  · rw [heq]
    exact disconnectRow_connectsNone i c
  · rw [heq]
    exact .answer response

/-- **What each request does to the connections.** -/
theorem agentApi_connects (site : AgentSite) (s : AgentState) (a : AgentAction) :
    Connects (s.advance a) ((agentApi site).step s a) := by
  obtain ⟨elapsed, request⟩ := a
  cases request with
  | create body => exact (postAgent_connectsNone body).connects
  | update body => exact (putAgents_connectsNone body).connects
  | updateOne id body written => exact (putAgent_connectsNone id body written).connects
  | delete id => exact deleteAgent_connects id
  | heartbeat id => exact (getHeartbeat_connectsNone id).connects
  | heartbeatReport id body => exact (postHeartbeat_connectsNone id body).connects
  | connect body connectionId => exact postConnect_connects body connectionId
  | disconnect body => exact (deleteConnect_connectsNone body).connects
  | check settings => exact (runHeartbeatCheck_connectsNone settings).connects
  | sync file => exact (syncAgentsFromConfig_connectsNone file).connects
  | status stores => exact (getStatus_connectsNone stores).connects

end Requests

/-! ## Runs -/

/-- **What holds of the connections all along a run**: their ids are unique, their agents
are there, and what is connected is the connection of the last connect. -/
structure ConnectionsSound (es : List AgentEvent) (s : AgentState) : Prop where
  unique : ∀ i j c d, s.connections.row i = some c → s.connections.row j = some d →
    c.connectionId = d.connectionId → i = j
  owned : ∀ i c, s.connections.row i = some c → (s.agents.row c.agentId).isSome
  latest : ∀ i c, s.connections.row i = some c → c.status = .connected →
    lastConnection c.agentId es = some i

section Runs

variable {site : AgentSite} {es : List AgentEvent} {s : AgentState}

theorem ConnectionsSound.initial (clock : ℕ) : ConnectionsSound [] (.initial clock) :=
  ⟨nofun, nofun, nofun⟩

/-- **Each step keeps the connections sound.** -/
theorem ConnectionsSound.next (h : ConnectionsSound es s) (a : AgentAction) :
    ConnectionsSound (es ++ (agentApi site).emits s a) ((agentApi site).next s a) := by
  obtain ⟨hfollows, hagents⟩ := agentApi_connects site s a
  refine ⟨fun i j c' d' hc' hd' heq => ?_, fun i c' hc' => ?_, fun i c' hc' hconnected => ?_⟩
  · obtain ⟨c, hc, ⟨-, hid, -⟩, -⟩ | ⟨-, rfl, -, -, hfresh⟩ := hfollows.row hc'
    · obtain ⟨d, hd, ⟨-, hid', -⟩, -⟩ | ⟨-, -, -, -, hfresh⟩ := hfollows.row hd'
      · exact h.unique i j c d hc hd (hid.symm.trans (heq.trans hid'))
      · exact absurd (hid.symm.trans heq) (hfresh i c hc)
    · obtain ⟨d, hd, ⟨-, hid', -⟩, -⟩ | ⟨-, rfl, -⟩ := hfollows.row hd'
      · exact absurd (hid'.symm.trans heq.symm) (hfresh j d hd)
      · rfl
  · obtain ⟨c, hc, ⟨hagent, -⟩, -⟩ | ⟨-, -, -, hsome, -⟩ := hfollows.row hc'
    · rw [hagent]
      exact hagents i c c' hc hc' (h.owned i c hc)
    · exact hsome
  · rw [lastConnection_append]
    obtain ⟨c, hc, ⟨hagent, -, hstatus⟩, hnone⟩ | ⟨-, -, hlast, -⟩ := hfollows.row hc'
    · have hnone : lastConnection c.agentId ((agentApi site).emits s a) = none :=
        hnone hconnected
      rw [hagent, hnone, h.latest i c hc (hstatus hconnected)]
      rfl
    · have hlast : lastConnection c'.agentId ((agentApi site).emits s a) = some i := hlast
      rw [hlast]
      rfl

theorem ConnectionsSound.latestConnected (h : ConnectionsSound es s) :
    LatestConnected es s := by
  have hlatest : ∀ agent i, s.Connected agent i → lastConnection agent es = some i := by
    rintro agent i ⟨c, hc, rfl, hconnected⟩
    exact h.latest i c hc hconnected
  refine fun agent => ⟨fun i hi j hj => ?_, hlatest agent⟩
  exact Option.some.inj ((hlatest agent i hi).symm.trans (hlatest agent j hj))

/-- **Whether another connection is counted** is whether one remains. -/
theorem otherActive_iff {connections : Table Connection} {connectionId : String}
    (hdropped : ∀ j d, connections.row j = some d → d.connectionId = connectionId →
      d.status ≠ .connected) {agent : ℕ} :
    otherActive connections agent connectionId = true
      ↔ ∃ j d, connections.row j = some d ∧ d.agentId = agent ∧ d.status = .connected := by
  unfold otherActive
  rw [← not_iff_not, Bool.not_eq_true, Table.any_eq_false_iff]
  constructor
  · rintro hnone ⟨j, d, hd, hagent, hconnected⟩
    have hne : d.connectionId ≠ connectionId := fun heq => hdropped j d hd heq hconnected
    have hfalse := hnone j d hd
    rw [decide_eq_true hagent, decide_eq_true hconnected, decide_eq_true hne] at hfalse
    exact nomatch hfalse
  · intro hnone j d hd
    rw [Bool.and_assoc, Bool.and_eq_false_iff]
    refine or_iff_not_imp_left.mpr fun hagent => ?_
    rw [Bool.and_eq_false_iff]
    exact Or.inl (decide_eq_false fun hconnected =>
      hnone ⟨j, d, hd, of_decide_eq_true (Bool.of_not_eq_false hagent), hconnected⟩)

/-- **A disconnect drops the connection**, and sets the agent to `offline` exactly if none
of its connections remains. -/
theorem disconnectRow_drops (site : AgentSite) (h : ConnectionsSound es s) {i : ℕ} {c : Connection}
    (hc : s.connections.row i = some c) :
    Drops s i c.agentId (disconnectRow site s i c).1 := by
  have hdropped : ∀ j d, (disconnectRow site s i c).1.connections.row j = some d →
      d.connectionId = c.connectionId → d.status ≠ .connected := by
    intro j d hd hid
    rw [disconnectRow_connections, Table.row_update] at hd
    split at hd
    · obtain ⟨d', -, rfl⟩ := Option.map_eq_some_iff.mp hd
      exact nofun
    · next hne => exact absurd (h.unique j i d c hd hc hid) hne
  have hgone : ¬ (disconnectRow site s i c).1.Connected c.agentId i := by
    rintro ⟨d, hd, -, hconnected⟩
    refine hdropped i d hd ?_ hconnected
    rw [disconnectRow_connections, Table.row_update_self, hc] at hd
    rw [← Option.some.inj hd]
  have hremains : (∃ j, (disconnectRow site s i c).1.Connected c.agentId j)
      ↔ otherActive (disconnectRow site s i c).1.connections c.agentId c.connectionId = true :=
    (otherActive_iff hdropped).symm
  have hagents := disconnectRow_agents site s i c
  cases hactive : otherActive (disconnectRow site s i c).1.connections c.agentId
      c.connectionId with
  | true =>
    rw [hactive, if_pos rfl] at hagents
    refine ⟨hgone, fun _ => hagents, fun hnone => ?_, fun id _ => by rw [hagents]⟩
    obtain ⟨j, hj⟩ := hremains.mpr hactive
    exact absurd hj (hnone j)
  | false =>
    rw [hactive, if_neg Bool.false_ne_true] at hagents
    refine ⟨hgone, fun hsome => ?_, fun _ => ?_, fun id hne => ?_⟩
    · exact absurd (hremains.mp hsome) (Bool.not_eq_true _ ▸ hactive)
    · obtain ⟨r, hr⟩ := Option.isSome_iff_exists.mp (h.owned i c hc)
      refine ⟨r.assign site.sq (offlineAssignments s), ?_, AgentRow.assign_apply _ _ _⟩
      rw [hagents, Table.row_update_self, hr]
      rfl
    · rw [hagents, Table.row_update, if_neg hne]

/-- **A disconnect drops the connection that it names**, or does nothing. -/
theorem ConnectionsSound.disconnects (h : ConnectionsSound es s) (a : AgentAction) :
    Disconnects site s a := by
  obtain ⟨elapsed, request⟩ := a
  intro body heq
  cases heq
  have hsound : ConnectionsSound es (s.advance ⟨elapsed, .disconnect body⟩) :=
    ⟨h.unique, h.owned, h.latest⟩
  have hstep : (agentApi site).step s ⟨elapsed, .disconnect body⟩
      = deleteConnect site (s.advance ⟨elapsed, .disconnect body⟩) body := rfl
  unfold Machine.emits Machine.next
  obtain ⟨i, c, hc, heq⟩ | ⟨response, heq⟩ := deleteConnect_cases site
    (s.advance ⟨elapsed, .disconnect body⟩) body
  · rw [hstep, heq]
    obtain ⟨hgone, hkept, hoffline, hothers⟩ := disconnectRow_drops site hsound hc
    refine Or.inl ⟨i, c.agentId, ?_, hgone, hkept, hoffline, hothers⟩
    unfold disconnectRow
    dsimp only
    split <;> simp
  · rw [hstep, heq]
    exact Or.inr ⟨by simp [AgentState.answer], rfl⟩

end Runs

/-- **Direct connections**: in every state of a run each agent has one connection at most,
that of its last connect, and each disconnect sets the agent to `offline` exactly if no
connection of it remains. -/
theorem connections_latest (site : AgentSite) (clock : ℕ) (as : List AgentAction) :
    LatestConnected ((agentApi site).trace (.initial clock) as)
        ((agentApi site).state (.initial clock) as)
      ∧ (agentApi site).EachStep (Disconnects site) (.initial clock) as := by
  have hsound : ∀ as, ConnectionsSound ((agentApi site).trace (.initial clock) as)
      ((agentApi site).state (.initial clock) as) :=
    (agentApi site).invariant (ConnectionsSound.initial clock) fun _ _ a h => h.next a
  exact ⟨(hsound as).latestConnected, fun p a _ => (hsound p).disconnects a⟩

end MissionControl
