import MissionControl.AgentRows
import MissionControl.ClientStore

/-!
# The client as a replica of the server

The client and the server together: every request is served, and the events that it
broadcasts are delivered to the store. The tasks of the store are those of the server,
whatever is requested. The agents are not: the event of a deleted agent has no case in
`dispatch`, and a config sync announces one new agent, without an id, for all those that
it has created and updated.

So the store replicates the server along a run exactly when no request deletes an agent
that is there, and no config sync finds an agent that is new or has changed
(`replica_replicates_iff`).
-/

namespace MissionControl

/-! ## Events about agents -/

/-- The event adds no agent to the store. -/
def AgentEvent.Quiet : AgentEvent → Prop
  | created _ => False
  | synced _ _ _ => False
  | _ => True

section Events

variable {agents agents' : Table AgentRow}

theorem ClientStore.HasAgents.congr {store : ClientStore} (h : store.HasAgents agents)
    (hsome : ∀ id, (agents'.row id).isSome = (agents.row id).isSome) :
    store.HasAgents agents' := by
  refine Records.Mirrors.congr h fun id => ?_
  cases id with
  | none => exact Iff.rfl
  | some id => exact Bool.eq_iff_iff.mp (hsome id).symm

theorem tasks_dispatch_agent (store : ClientStore) (e : AgentEvent) :
    (store.dispatch (.agent e)).tasks = store.tasks := by
  cases e <;> rfl

theorem hasAgents_dispatch_quiet {e : AgentEvent} (he : e.Quiet) {store : ClientStore}
    (h : store.HasAgents agents) : (store.dispatch (.agent e)).HasAgents agents := by
  -- what is merged into the agent of an id has that id
  have hmerge : ∀ (id : ℕ) (agent : AgentPayload), agent.id = some id →
      (⟨(some id).or agent.id⟩ : AgentPayload).id = some id := fun _ _ _ => rfl
  cases e with
  | created agent => exact he.elim
  | synced synced created updated => exact he.elim
  | updated agent => exact Records.Mirrors.of_map_eq h (Records.map_rewrite (hmerge agent) _)
  | statusChanged agent =>
    exact Records.Mirrors.of_map_eq h (Records.map_rewrite (hmerge agent) _)
  | _ => exact h

/-- **Quiet events change no agent of the store.** -/
theorem carries_agents_quiet {es : List AgentEvent} (hes : ∀ e ∈ es, e.Quiet) :
    Carries (·.HasAgents agents) (es.map .agent) (·.HasAgents agents) := by
  refine Carries.of_each fun e he store h => ?_
  obtain ⟨e, hmem, rfl⟩ := List.mem_map.mp he
  exact hasAgents_dispatch_quiet (hes e hmem) h

/-- **A new agent is announced**: it gets into the store. -/
theorem carries_agentCreated (row : AgentRow) :
    Carries (·.HasAgents agents) [.agent (.created agents.next)]
      (·.HasAgents (agents.insert row)) := by
  intro store h
  have hnew : ¬ ((some agents.next).bind agents.row).isSome := by
    rw [Option.bind_some, agents.row_next]
    exact Bool.false_ne_true
  refine (Records.Mirrors.cons (x := ⟨some agents.next⟩) h hnew).congr fun id => ?_
  cases id with
  | none => simp
  | some id =>
    rw [Option.bind_some, Option.bind_some]
    by_cases heq : id = agents.next
    · subst heq
      rw [agents.row_insert_next]
      simp
    · rw [agents.row_insert_of_ne row heq]
      simp [heq]

end Events

/-! ## The requests about agents -/

/-- **A request announces what it does to the agents.** -/
def AgentsAnnounced (s : AgentState) (o : AgentOutcome) : Prop :=
  Carries (·.HasAgents s.agents) (o.2.map .agent) (·.HasAgents o.1.agents)

def QuietEvents (es : List AgentEvent) : Prop := ∀ e ∈ es, e.Quiet

section Requests

variable {site : AgentSite} {s : AgentState}

theorem quiet_answered (response : AgentResponse) : QuietEvents [.answered response] :=
  List.forall_mem_singleton.mpr trivial

theorem QuietEvents.append {es es' : List AgentEvent} (h : QuietEvents es)
    (h' : QuietEvents es') : QuietEvents (es ++ es') :=
  List.forall_mem_append.mpr ⟨h, h'⟩

theorem quiet_storedEvents (sq : Sqlite) (id : ℕ)
    (assignments : List (AgentColumn × SqlValue)) :
    QuietEvents (storedEvents sq id assignments) := by
  intro e he
  obtain ⟨c, -, he⟩ := List.mem_filterMap.mp he
  obtain ⟨v, -, rfl⟩ := Option.map_eq_some_iff.mp he
  exact trivial

theorem AgentsAnnounced.of_quiet {o : AgentOutcome} (h : QuietEvents o.2)
    (hsome : ∀ id, (o.1.agents.row id).isSome = (s.agents.row id).isSome) :
    AgentsAnnounced s o :=
  (carries_agents_quiet h).mono fun _ hstore => hstore.congr hsome

theorem AgentsAnnounced.answer (s : AgentState) (response : AgentResponse) :
    AgentsAnnounced s (s.answer response) :=
  .of_quiet (quiet_answered response) fun _ => rfl

theorem AgentsAnnounced.append {s' : AgentState} {es es' : List AgentEvent}
    (h : AgentsAnnounced s (s', es)) (h' : QuietEvents es') :
    AgentsAnnounced s (s', es ++ es') := by
  show Carries _ ((es ++ es').map .agent) (·.HasAgents s'.agents)
  rw [List.map_append]
  exact Carries.append h (carries_agents_quiet h')

/-- **A row is updated.** -/
theorem AgentsAnnounced.of_update {s' : AgentState} {id : ℕ} {f : AgentRow → AgentRow}
    {es : List AgentEvent} (hagents : s'.agents = s.agents.update id f) (h : QuietEvents es) :
    AgentsAnnounced s (s', es) := by
  refine .of_quiet h fun i => ?_
  show (s'.agents.row i).isSome = _
  rw [hagents, Table.isSome_row_update]

/-- **A row is inserted.** -/
theorem AgentsAnnounced.of_insert {s' : AgentState} {row : AgentRow} {es : List AgentEvent}
    (hagents : s'.agents = s.agents.insert row) (h : QuietEvents es) :
    AgentsAnnounced s (s', .created s.agents.next :: es) := by
  have hcreated : AgentsAnnounced s (s', [.created s.agents.next]) := by
    show Carries _ _ (·.HasAgents s'.agents)
    rw [hagents]
    exact carries_agentCreated row
  exact hcreated.append h

theorem postAgent_announced (body : Option Json) : AgentsAnnounced s (postAgent site s body) := by
  unfold postAgent
  split
  · exact .answer s _
  · split
    · exact .answer s _
    · split
      · exact .answer s _
      · split
        · exact .answer s _
        · next hinsert =>
          obtain ⟨values, -, rfl⟩ := insertAgent_eq_ok hinsert
          exact .of_insert rfl (quiet_answered _)

theorem putAgentRow_announced (body : Json) (id : ℕ) (r : AgentRow) :
    AgentsAnnounced s (putAgentRow site s body id r) := by
  unfold putAgentRow
  dsimp only
  split
  · exact .answer s _
  · split
    · exact .answer s _
    · split
      · exact .answer s _
      · next hupdate =>
        refine .of_update (updateAgent_eq_ok hupdate) ((quiet_storedEvents _ _ _).append ?_)
        split
        · exact quiet_answered _
        · split <;> simp [QuietEvents, AgentEvent.Quiet]

theorem putAgents_announced (body : Option Json) : AgentsAnnounced s (putAgents site s body) := by
  unfold putAgents
  split
  · exact .answer s _
  · split
    · exact .answer s _
    · split
      · split
        · exact .answer s _
        · split
          · exact .answer s _
          · exact putAgentRow_announced _ _ _
      · exact .answer s _

theorem putAgent_announced (id : String) (body : Option Json) (written : Bool) :
    AgentsAnnounced s (putAgent site s id body written) := by
  unfold putAgent
  dsimp only
  split
  · exact .answer s _
  · split
    · exact .answer s _
    · split
      · exact .answer s _
      · split
        · exact .answer s _
        · split
          · exact .answer s _
          · split
            · exact .answer s _
            · next hupdate =>
              refine .of_update (updateAgent_eq_ok hupdate) ?_
              split <;> simp [QuietEvents, AgentEvent.Quiet]

theorem updateAgentStatus_announced (agentName : SqlValue) (status : String)
    (activity : Option String) :
    AgentsAnnounced s (updateAgentStatus site s agentName status activity) := by
  unfold updateAgentStatus
  split
  · exact .of_quiet (fun _ he => nomatch he) fun _ => rfl
  · refine .of_update rfl ((quiet_storedEvents _ _ _).append ?_)
    simp [QuietEvents, AgentEvent.Quiet]

theorem getHeartbeat_announced (id : String) : AgentsAnnounced s (getHeartbeat site s id) := by
  unfold getHeartbeat
  split
  · exact .answer s _
  · exact (updateAgentStatus_announced _ _ _).append (quiet_answered _)

theorem postHeartbeat_announced (id : String) (body : Option Json) :
    AgentsAnnounced s (postHeartbeat site s id body) := by
  unfold postHeartbeat
  dsimp only
  split
  · exact .answer s _
  · split
    · exact .answer s _
    · next connections _ =>
      have hother : ∀ {o}, AgentsAnnounced { s with connections := connections } o →
          AgentsAnnounced s o := fun h => h
      split
      · exact hother (.answer _ _)
      · exact hother (getHeartbeat_announced _)

theorem connectAgent_announced {input : ConnectFields} {agents : Table AgentRow} {agent : ℕ}
    {es : List AgentEvent} (h : connectAgent site s input = .ok (agents, agent, es))
    (connections : Table Connection) : AgentsAnnounced s (⟨agents, connections, s.clock⟩, es) := by
  unfold connectAgent at h
  split at h
  · cases h
    exact .of_update rfl ((quiet_storedEvents _ _ _).append (List.forall_mem_singleton.mpr trivial))
  · obtain ⟨agents', hinsert, h⟩ := bind_eq_ok.mp h
    cases h
    obtain ⟨values, -, rfl⟩ := insertAgent_eq_ok hinsert
    exact .of_insert rfl fun _ he => nomatch he

theorem postConnect_announced (body : Option Json) (connectionId : String) :
    AgentsAnnounced s (postConnect site s body connectionId) := by
  unfold postConnect
  split
  · exact .answer s _
  · split
    · exact .answer s _
    · next hconnect =>
      dsimp only
      split
      · exact (connectAgent_announced hconnect _).append (quiet_answered _)
      · exact (connectAgent_announced hconnect _).append (by simp [QuietEvents, AgentEvent.Quiet])

theorem disconnectRow_announced (i : ℕ) (c : Connection) :
    AgentsAnnounced s (disconnectRow site s i c) := by
  unfold disconnectRow
  dsimp only
  have hes : QuietEvents [.connectionDisconnected i c.agentId, .answered .ok] := by
    simp [QuietEvents, AgentEvent.Quiet]
  split
  · exact .of_quiet hes fun _ => rfl
  · refine .of_update rfl (QuietEvents.append ?_ hes)
    split
    · exact quiet_storedEvents _ _ _
    · exact fun _ he => nomatch he

theorem deleteConnect_announced (body : Option Json) :
    AgentsAnnounced s (deleteConnect site s body) := by
  obtain ⟨i, c, -, heq⟩ | ⟨response, heq⟩ := deleteConnect_cases site s body
  · rw [heq]
    exact disconnectRow_announced i c
  · rw [heq]
    exact .answer s response

theorem runHeartbeatCheck_announced (settings : Settings) :
    AgentsAnnounced s (runHeartbeatCheck site s settings) := by
  refine .of_quiet (fun e he => ?_) fun id => Option.isSome_map
  obtain ⟨⟨id, r⟩, -, he⟩ := List.mem_flatMap.mp he
  obtain he | he := List.mem_append.mp he
  · exact quiet_storedEvents _ _ _ e he
  · rw [List.mem_singleton.mp he]
    exact trivial

theorem getStatus_announced (stores : List (String × Option Json)) :
    AgentsAnnounced s (getStatus site s stores) := by
  unfold getStatus
  dsimp only
  refine .of_quiet (QuietEvents.append (fun e he => ?_) (quiet_answered _)) fun id => ?_
  · obtain ⟨l, -, he⟩ := List.mem_flatMap.mp he
    obtain ⟨⟨id, r⟩, -, he⟩ := List.mem_flatMap.mp he
    exact quiet_storedEvents _ _ _ e he
  · dsimp only
    rw [syncLive_row, Option.isSome_map]

end Requests

/-! ## Deleting -/

section Delete

variable {site : AgentSite} {s : AgentState}

/-- **The store keeps an agent that is deleted.** -/
theorem not_hasAgents_deleteAgent {id : String} {i : ℕ} {r : AgentRow}
    (hfound : lookupAgent site s id = some (i, r)) {store : ClientStore}
    (h : store.HasAgents s.agents) :
    ¬ (store.deliver ((deleteAgent site s id).2.map .agent)).HasAgents
      (deleteAgent site s id).1.agents := by
  unfold deleteAgent
  rw [hfound]
  intro h'
  have hkept : some i ∈ store.agents.map AgentPayload.id := (h.mem_iff _).mpr (by
    rw [Option.bind_some, lookupAgent_eq_some hfound]
    rfl)
  obtain ⟨r', hr'⟩ := Option.isSome_iff_exists.mp ((h'.mem_iff (some i)).mp hkept)
  exact absurd rfl (of_decide_eq_false ((Table.row_deleteWhere_eq_some _ _).mp hr').2)

end Delete

/-! ## The sync with the configuration -/

def listedAgents (file : Option Json) : Option (List Json) :=
  match file with
  | none => none
  | some parsed =>
    let list := Json.or (Json.get? (Json.get? (some parsed) "agents") "list") (.arr [])
    if Json.equalsNumber (Json.get? (some list) "length") 0 then none
    else (Json.iterate (some list)).toOption

/-- **There is a row for the agent, which has what the configuration has.** -/
def InSync (site : AgentSite) (agents : Table AgentRow) (agent : Json) : Prop :=
  ∃ name role config values id r, mapAgentToMC site agent = .ok (name, role, config)
    ∧ SqlValue.bindAll 1 [name] = .ok values
    ∧ findByName site.sq agents (values.headD .null) = some (id, r)
    ∧ syncDiffers r role config = false

/-- **A sync has nothing to do**: if it goes through, every agent of the configuration is in
sync already. -/
def NothingToSync (site : AgentSite) (s : AgentState) (file : Option Json) : Prop :=
  ∀ agents p, listedAgents file = some agents →
    syncAgents site s.now ⟨s.agents, 0, 0⟩ agents = .ok p →
    ∀ agent ∈ agents, InSync site s.agents agent

section Sync

variable {site : AgentSite} {s : AgentState}

/-- An agent that is in sync is left alone, any other one is counted. -/
theorem syncAgent_cases {now : ℕ} {p p' : AgentSync} {agent : Json}
    (h : syncAgent site now p agent = .ok p') :
    InSync site p.agents agent ∧ p' = p
      ∨ ¬ InSync site p.agents agent ∧ p.created + p.updated < p'.created + p'.updated := by
  obtain ⟨⟨name, role, config⟩, hmap, h⟩ := bind_eq_ok.mp h
  obtain ⟨values, hvalues, h⟩ := bind_eq_ok.mp h
  have hwhich : InSync site p.agents agent ↔ ∃ id r,
      findByName site.sq p.agents (values.headD .null) = some (id, r)
        ∧ syncDiffers r role config = false := by
    constructor
    · rintro ⟨name', role', config', values', id, r, hmap', hvalues', hfound, hsame⟩
      cases hmap.symm.trans hmap'
      cases hvalues.symm.trans hvalues'
      exact ⟨id, r, hfound, hsame⟩
    · rintro ⟨id, r, hfound, hsame⟩
      exact ⟨name, role, config, values, id, r, hmap, hvalues, hfound, hsame⟩
  rw [hwhich]
  split at h
  · next id r hfound =>
    split at h
    · next hdiffers =>
      obtain ⟨_, -, h⟩ := bind_eq_ok.mp h
      obtain ⟨_, -, h⟩ := bind_eq_ok.mp h
      cases h
      refine Or.inr ⟨?_, Nat.lt_succ_self _⟩
      rintro ⟨id', r', hfound', hsame⟩
      cases hfound.symm.trans hfound'
      exact Bool.false_ne_true (hsame.symm.trans hdiffers)
    · next hsame =>
      cases h
      exact Or.inl ⟨⟨id, r, hfound, Bool.eq_false_iff.mpr hsame⟩, rfl⟩
  · next hnone =>
    obtain ⟨_, -, h⟩ := bind_eq_ok.mp h
    cases h
    refine Or.inr ⟨?_, Nat.add_lt_add_right (Nat.lt_succ_self _) _⟩
    rintro ⟨id, r, hfound, -⟩
    exact nomatch hnone.symm.trans hfound

/-- **A sync that goes through** leaves all alone, or has counted something. -/
theorem syncAgents_cases {now : ℕ} {agents : List Json} {p p' : AgentSync}
    (h : syncAgents site now p agents = .ok p') :
    (∀ agent ∈ agents, InSync site p.agents agent) ∧ p' = p
      ∨ ¬ (∀ agent ∈ agents, InSync site p.agents agent)
        ∧ p.created + p.updated < p'.created + p'.updated := by
  induction agents generalizing p with
  | nil =>
    cases h
    exact Or.inl ⟨List.forall_mem_nil _, rfl⟩
  | cons agent agents ih =>
    obtain ⟨p₁, hagent, hrest⟩ := bind_eq_ok.mp h
    rw [List.forall_mem_cons]
    obtain ⟨hsync, rfl⟩ | ⟨hnot, hlt⟩ := syncAgent_cases hagent
    · obtain ⟨hall, heq⟩ | ⟨hnot, hlt⟩ := ih hrest
      · exact Or.inl ⟨⟨hsync, hall⟩, heq⟩
      · exact Or.inr ⟨fun hall => hnot hall.2, hlt⟩
    · refine Or.inr ⟨fun hall => hnot hall.1, ?_⟩
      obtain ⟨-, rfl⟩ | ⟨-, hlt'⟩ := ih hrest
      · exact hlt
      · exact hlt.trans hlt'

/-- **What a sync comes to.** -/
theorem syncAgentsFromConfig_cases (site : AgentSite) (s : AgentState) (file : Option Json) :
    NothingToSync site s file ∧ AgentsAnnounced s (syncAgentsFromConfig site s file)
      ∨ ¬ NothingToSync site s file ∧ ∃ synced created updated,
        (syncAgentsFromConfig site s file).2
          = [.synced synced created updated, .answered .ok] := by
  unfold syncAgentsFromConfig NothingToSync listedAgents
  cases file with
  | none => exact Or.inl ⟨(fun _ _ h => nomatch h), .answer s _⟩
  | some parsed =>
    dsimp only
    generalize Json.or (Json.get? (Json.get? (some parsed) "agents") "list") (.arr []) = list
    split
    · exact Or.inl ⟨(fun _ _ h => nomatch h), .answer s _⟩
    · cases hlist : Json.iterate (some list) with
      | error e => exact Or.inl ⟨(fun _ _ h => nomatch h), .answer s _⟩
      | ok agents =>
        dsimp only [Except.toOption]
        cases hsync : syncAgents site s.now ⟨s.agents, 0, 0⟩ agents with
        | error e =>
          refine Or.inl ⟨fun agents' p hagents hp => ?_, .answer s _⟩
          cases hagents
          exact nomatch hsync.symm.trans hp
        | ok p =>
          obtain ⟨hall, rfl⟩ | ⟨hnot, hlt⟩ := syncAgents_cases hsync
          · refine Or.inl ⟨fun agents' p hagents _ => ?_, .of_quiet (quiet_answered _) fun _ => rfl⟩
            cases hagents
            exact hall
          · refine Or.inr ⟨fun h => hnot (h agents p rfl hsync), agents.length, p.created,
              p.updated, ?_⟩
            dsimp only
            rw [if_pos (by omega)]
            rfl

end Sync

/-! ## The server and the client -/

/-- **The database, the agents and the store** of a client. -/
structure ReplicaState where
  tasks : TaskDb
  agents : AgentState
  store : ClientStore

/-- **The store replicates the server**: it has the tasks and the agents that the server
has, each once. -/
structure ReplicaState.Replicates (s : ReplicaState) : Prop where
  tasks : s.store.HasTasks s.tasks.tasks
  agents : s.store.HasAgents s.agents.agents

inductive ReplicaAction where
  | task (ctx : RequestContext) (request : TaskRequest)
  | agent (a : AgentAction)

/-- **The server with a client**: a request is served, and its events are delivered. -/
def replica (site : AgentSite) : Machine ReplicaState ReplicaAction ClientEvent where
  step s
    | .task ctx request =>
      let (tasks, events) := (taskMachine site.rt).step s.tasks (ctx, request)
      let es := events.map .task
      (⟨tasks, s.agents, s.store.deliver es⟩, es)
    | .agent a =>
      let (agents, events) := (agentApi site).step s.agents a
      let es := events.map .agent
      (⟨s.tasks, agents, s.store.deliver es⟩, es)

namespace ReplicaAction

/-- The numbers that the request stores in tasks are read back. -/
def NumbersRead (rt : Runtime) : ReplicaAction → Prop
  | task _ request => request.NumbersRead rt
  | agent _ => True

/-- **The request is replicated**: it deletes no agent that is there, and is no sync that
finds an agent that is new or has changed. -/
def Replicated (site : AgentSite) (s : ReplicaState) : ReplicaAction → Prop
  | task _ _ => True
  | agent a =>
    match a.request with
    | .delete id => lookupAgent site (s.agents.advance a) id = none
    | .sync file => NothingToSync site (s.agents.advance a) file
    | _ => True

end ReplicaAction

section Replica

variable {site : AgentSite} {s : ReplicaState}

theorem agents_deliver_task (store : ClientStore) (es : List BusEvent) :
    (store.deliver (es.map .task)).agents = store.agents := by
  induction es generalizing store with
  | nil => rfl
  | cons e es ih => exact (ih _).trans (agents_dispatch_task store e)

theorem tasks_deliver_agent (store : ClientStore) (es : List AgentEvent) :
    (store.deliver (es.map .agent)).tasks = store.tasks := by
  induction es generalizing store with
  | nil => rfl
  | cons e es ih => exact (ih _).trans (tasks_dispatch_agent store e)

/-- **A request about tasks is replicated.** -/
theorem replicates_task (h : s.Replicates) {ctx : RequestContext} {request : TaskRequest}
    (hnumbers : request.NumbersRead site.rt) :
    ((replica site).next s (.task ctx request)).Replicates where
  tasks := serve_announced hnumbers _ h.tasks
  agents := by
    show Records.Mirrors AgentPayload.id (s.store.deliver (List.map _ _)).agents _
    rw [agents_deliver_task]
    exact h.agents

/-- **A request about agents is replicated if it announces what it does.** -/
theorem replicates_agent_iff (h : s.Replicates) (a : AgentAction) :
    ((replica site).next s (.agent a)).Replicates
      ↔ (s.store.deliver (((agentApi site).emits s.agents a).map .agent)).HasAgents
        ((agentApi site).next s.agents a).agents := by
  refine ⟨fun h' => h'.agents, fun hagents => ⟨?_, hagents⟩⟩
  show Records.Mirrors ParsedTask.id (s.store.deliver (List.map _ _)).tasks _
  rw [tasks_deliver_agent]
  exact h.tasks

/-- **The agents are replicated by a request exactly if it is one of those that are.** -/
theorem replicated_agent_iff (h : s.store.HasAgents s.agents.agents) (a : AgentAction) :
    (s.store.deliver (((agentApi site).emits s.agents a).map .agent)).HasAgents
        ((agentApi site).next s.agents a).agents
      ↔ (ReplicaAction.agent a).Replicated site s := by
  have hannounced : ∀ {o : AgentOutcome}, AgentsAnnounced (s.agents.advance a) o →
      (s.store.deliver (o.2.map .agent)).HasAgents o.1.agents := fun ho => ho _ h
  obtain ⟨elapsed, request⟩ := a
  cases request with
  | create body => exact iff_of_true (hannounced (postAgent_announced body)) trivial
  | update body => exact iff_of_true (hannounced (putAgents_announced body)) trivial
  | updateOne id body written =>
    exact iff_of_true (hannounced (putAgent_announced id body written)) trivial
  | heartbeat id => exact iff_of_true (hannounced (getHeartbeat_announced id)) trivial
  | heartbeatReport id body =>
    exact iff_of_true (hannounced (postHeartbeat_announced id body)) trivial
  | connect body connectionId =>
    exact iff_of_true (hannounced (postConnect_announced body connectionId)) trivial
  | disconnect body => exact iff_of_true (hannounced (deleteConnect_announced body)) trivial
  | check settings => exact iff_of_true (hannounced (runHeartbeatCheck_announced settings)) trivial
  | status stores => exact iff_of_true (hannounced (getStatus_announced stores)) trivial
  | delete id =>
    cases hfound : lookupAgent site (s.agents.advance ⟨elapsed, .delete id⟩) id with
    | none =>
      refine iff_of_true (hannounced ?_) hfound
      show AgentsAnnounced _ (deleteAgent _ _ _)
      unfold deleteAgent
      rw [hfound]
      exact .answer _ _
    | some found =>
      refine iff_of_false (not_hasAgents_deleteAgent hfound h) fun hnone => ?_
      exact nomatch hfound.symm.trans hnone
  | sync file =>
    obtain ⟨hnothing, ho⟩ | ⟨hnot, synced, created, updated, hevents⟩ :=
      syncAgentsFromConfig_cases site (s.agents.advance ⟨elapsed, .sync file⟩) file
    · exact iff_of_true (hannounced ho) hnothing
    · -- the agent that is announced has no id
      refine iff_of_false (fun h' => ?_) hnot
      have hemits : (agentApi site).emits s.agents ⟨elapsed, .sync file⟩
          = [.synced synced created updated, .answered .ok] := hevents
      rw [hemits] at h'
      exact Bool.false_ne_true ((h'.mem_iff none).mp List.mem_cons_self)

end Replica

/-! ## Whole runs -/

/-- **The store replicates the server all along a run exactly if every request of it is
replicated.** The client has fetched the tasks and agents that the server had, and the
runtime reads the numbers that it writes. -/
theorem replica_replicates_iff (site : AgentSite) {s₀ : ReplicaState} (h₀ : s₀.Replicates)
    {as : List ReplicaAction} (hnumbers : ∀ a ∈ as, a.NumbersRead site.rt) :
    (replica site).Always ReplicaState.Replicates s₀ as
      ↔ (replica site).EachStep (fun s a => a.Replicated site s) s₀ as := by
  refine (replica site).always_iff_eachStep_of_mem (J := fun _ => True) trivial
    (fun _ _ _ => trivial) h₀ fun s a ha _ h => ?_
  cases a with
  | task ctx request => exact iff_of_true (replicates_task h (hnumbers _ ha)) trivial
  | agent a => exact (replicates_agent_iff h a).trans (replicated_agent_iff h.agents a)

/-- A server without tasks and agents, and a client that has fetched them. -/
def ReplicaState.initial : ReplicaState := ⟨.empty, .initial 1000000, ⟨[], []⟩⟩

theorem ReplicaState.initial_replicates : ReplicaState.initial.Replicates where
  tasks := ⟨List.nodup_nil, fun _ => ⟨(nomatch ·), (nomatch ·)⟩⟩
  agents := ⟨List.nodup_nil, fun id => ⟨(nomatch ·), by cases id <;> exact (nomatch ·)⟩⟩

/-- A task is created, and an agent, which is deleted. -/
def sampleDeletion : List ReplicaAction :=
  [.task sampleContext (.create (some (.obj [("title", .str "Fix login")]))),
    .agent ⟨0, .create (some (.obj [("name", .str "bot"), ("role", .str "dev")]))⟩,
    .agent ⟨0, .delete "1"⟩]

theorem numbersRead_sampleDeletion :
    ∀ a ∈ sampleDeletion, a.NumbersRead sampleAgentSite.rt := by
  intro a ha
  simp only [sampleDeletion, List.mem_cons, List.not_mem_nil, or_false] at ha
  obtain rfl | rfl | rfl := ha
  · intro j data hj hread
    cases hj
    have hempty : (createTaskSchema.read (.obj [("title", .str "Fix login")])).toOption.map
        (fun data => (data.metadata.getD []).isEmpty) = some true := by decide
    rw [hread] at hempty
    rw [List.isEmpty_iff.mp (Option.some.inj hempty)]
    exact fun q hq => nomatch hq
  · exact trivial
  · exact trivial

theorem replica_replicates_iff_sampleDeletion :
    (replica sampleAgentSite).Always ReplicaState.Replicates .initial sampleDeletion
      ↔ (replica sampleAgentSite).EachStep (fun s a => a.Replicated sampleAgentSite s) .initial
        sampleDeletion :=
  replica_replicates_iff sampleAgentSite ReplicaState.initial_replicates
    numbersRead_sampleDeletion

/-- **The store keeps an agent that the server has deleted.** -/
theorem not_replica_replicates_sampleDeletion :
    ¬ ∀ (site : AgentSite) (s₀ : ReplicaState) (as : List ReplicaAction), s₀.Replicates →
      (∀ a ∈ as, a.NumbersRead site.rt) →
      (replica site).Always ReplicaState.Replicates s₀ as := by
  intro h
  have hagents := (h sampleAgentSite .initial sampleDeletion ReplicaState.initial_replicates
    numbersRead_sampleDeletion _ (List.prefix_refl _)).agents
  have hstore : ((replica sampleAgentSite).state .initial sampleDeletion).store.agents
      = [⟨some 1⟩] := by decide +kernel
  have hgone : ((((replica sampleAgentSite).state .initial sampleDeletion).agents.agents).row
      1).isSome = false := by decide +kernel
  have hmem := (hagents.mem_iff (some 1)).mp (by rw [hstore]; exact List.mem_cons_self)
  exact Bool.false_ne_true (hgone.symm.trans hmem)

end MissionControl
