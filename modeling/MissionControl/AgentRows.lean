import MissionControl.AgentApi
import MissionControl.Library.Follows

/-!
# What the requests store of an agent

Of the columns of an agent, `status` and `last_seen` tell of its life. What a request emits
as stored in them is what it stores, and the rows that it creates were never seen, with a
status of the enumeration (`agentApi_stores`). All that is said of the two columns in runs
is said of what was stored.

`Stores` says this of one request, and each request has a lemma for it: most of them write
the columns in one statement, and where there are several what is stored last counts. The
status page takes an argument of its own: many sessions may be of one agent and each of
them writes, so the last that is known by the name of the row decides (`applyLive_column`).
-/

namespace MissionControl

/-- A status of the enumeration, as a column has it. -/
def IsAgentStatus (v : SqlValue) : Prop := ∃ status : AgentStatus, v = .text status.text

/-- **A new row**: the agent was never seen. -/
def IsNewAgent (r : AgentRow) : Prop := IsAgentStatus (r .status) ∧ r .last_seen = .null

/-- The columns that are watched are the same. -/
def SameLife (r r' : AgentRow) : Prop := ∀ c ∈ AgentColumn.watched, r' c = r c

theorem SameLife.refl (r : AgentRow) : SameLife r r := fun _ _ => rfl

theorem SameLife.trans {r r' r'' : AgentRow} (h : SameLife r r') (h' : SameLife r' r'') :
    SameLife r r'' := fun c hc => (h' c hc).trans (h c hc)

theorem IsNewAgent.of_same {r r' : AgentRow} (h : IsNewAgent r) (hsame : SameLife r r') :
    IsNewAgent r' := by
  unfold IsNewAgent
  rw [hsame .status (by decide), hsame .last_seen (by decide)]
  exact h

/-! ## What is stored -/

/-- The value that an event stores in a column of an agent. -/
def AgentEvent.storedFor (id : ℕ) (c : AgentColumn) : AgentEvent → Option SqlValue
  | .stored i c' v => if i = id ∧ c' = c then some v else none
  | _ => none

/-- **What is stored last in a column of an agent.** -/
def storedIn (id : ℕ) (c : AgentColumn) (es : List AgentEvent) : Option SqlValue :=
  (es.filterMap (AgentEvent.storedFor id c)).getLast?

def StoresNothing (es : List AgentEvent) : Prop := ∀ id c v, AgentEvent.stored id c v ∉ es

@[simp] theorem storedIn_nil (id : ℕ) (c : AgentColumn) : storedIn id c [] = none := rfl

theorem storedIn_append (id : ℕ) (c : AgentColumn) (es es' : List AgentEvent) :
    storedIn id c (es ++ es') = (storedIn id c es').or (storedIn id c es) := by
  unfold storedIn
  rw [List.filterMap_append, List.getLast?_append]

theorem storedIn_eq_none {id : ℕ} {c : AgentColumn} {es : List AgentEvent}
    (h : ∀ v, AgentEvent.stored id c v ∉ es) : storedIn id c es = none := by
  unfold storedIn
  rw [List.getLast?_eq_none_iff, List.filterMap_eq_nil_iff]
  intro e he
  cases e with
  | stored i c' v =>
    refine if_neg ?_
    rintro ⟨rfl, rfl⟩
    exact h v he
  | _ => rfl

theorem stored_mem_of_storedIn {id : ℕ} {c : AgentColumn} {es : List AgentEvent}
    {v : SqlValue} (h : storedIn id c es = some v) : AgentEvent.stored id c v ∈ es := by
  obtain ⟨e, he, hv⟩ := List.mem_filterMap.mp (List.mem_of_getLast? h)
  cases e with
  | stored i c' v' =>
    obtain ⟨⟨rfl, rfl⟩, heq⟩ := Option.ite_none_right_eq_some.mp hv
    rwa [← Option.some.inj heq]
  | _ => exact nomatch hv

/-- **Where one value only is stored.** -/
theorem storedIn_eq_some {id : ℕ} {c : AgentColumn} {es : List AgentEvent} {v : SqlValue}
    (hmem : AgentEvent.stored id c v ∈ es)
    (h : ∀ w, AgentEvent.stored id c w ∈ es → w = v) : storedIn id c es = some v := by
  cases hstored : storedIn id c es with
  | none =>
    have hnone := List.filterMap_eq_nil_iff.mp (List.getLast?_eq_none_iff.mp hstored)
    exact nomatch (if_pos ⟨rfl, rfl⟩).symm.trans (hnone _ hmem)
  | some w => rw [h w (stored_mem_of_storedIn hstored)]

/-! ## What a statement sets -/

theorem assigned_eq_none {sq : Sqlite} {assignments : List (AgentColumn × SqlValue)}
    {c : AgentColumn} (h : c ∉ assignments.map Prod.fst) : assigned sq assignments c = none := by
  unfold assigned
  rw [Option.map_eq_none_iff, List.lookup_eq_none_iff]
  intro a ha
  rw [bne_iff_ne]
  rintro rfl
  exact h (List.mem_map_of_mem (List.mem_reverse.mp ha))

theorem assigned_zip_eq_none {sq : Sqlite} {columns : List AgentColumn}
    {values : List SqlValue} {c : AgentColumn} (h : c ∉ columns) :
    assigned sq (columns.zip values) c = none := by
  refine assigned_eq_none fun hc => h ?_
  obtain ⟨a, ha, rfl⟩ := List.mem_map.mp hc
  exact (List.of_mem_zip ha).1

theorem bindAssignments_eq_ok {columns : List (AgentColumn × Option Json)}
    {key : Option Json} {assignments : List (AgentColumn × SqlValue)}
    (h : bindAssignments columns key = .ok assignments) :
    ∃ values, assignments = (columns.map Prod.fst).zip values := by
  obtain ⟨values, -, h⟩ := bind_eq_ok.mp h
  exact ⟨values, (Except.ok.inj h).symm⟩

theorem lookupAgent_eq_some {site : AgentSite} {s : AgentState} {id : String} {i : ℕ}
    {r : AgentRow} (h : lookupAgent site s id = some (i, r)) : s.agents.row i = some r := by
  unfold lookupAgent at h
  split at h
  · exact findByName_eq_some h
  · obtain ⟨z, -, h⟩ := Option.bind_eq_some_iff.mp h
    split at h
    · obtain ⟨r', hr', heq⟩ := Option.map_eq_some_iff.mp h
      obtain ⟨rfl, rfl⟩ := Prod.mk.inj heq
      exact hr'
    · cases h

theorem stored_mem_storedEvents {sq : Sqlite} {i id : ℕ} {c : AgentColumn} {v : SqlValue}
    {assignments : List (AgentColumn × SqlValue)} :
    AgentEvent.stored i c v ∈ storedEvents sq id assignments
      ↔ c ∈ AgentColumn.watched ∧ i = id ∧ assigned sq assignments c = some v := by
  unfold storedEvents
  rw [List.mem_filterMap]
  constructor
  · rintro ⟨c', hc', h⟩
    obtain ⟨v', hv', heq⟩ := Option.map_eq_some_iff.mp h
    obtain ⟨rfl, rfl, rfl⟩ := AgentEvent.stored.inj heq
    exact ⟨hc', rfl, hv'⟩
  · rintro ⟨hc, rfl, hv⟩
    exact ⟨c, hc, Option.map_eq_some_iff.mpr ⟨v, hv, rfl⟩⟩

/-- **What is emitted as stored of a row is what is set.** -/
theorem storedIn_storedEvents {sq : Sqlite} {id : ℕ} {c : AgentColumn}
    (hc : c ∈ AgentColumn.watched) (assignments : List (AgentColumn × SqlValue)) :
    storedIn id c (storedEvents sq id assignments) = assigned sq assignments c := by
  cases h : assigned sq assignments c with
  | none =>
    refine storedIn_eq_none fun v hv => ?_
    exact nomatch h.symm.trans (stored_mem_storedEvents.mp hv).2.2
  | some v =>
    refine storedIn_eq_some (stored_mem_storedEvents.mpr ⟨hc, rfl, h⟩) fun w hw => ?_
    exact Option.some.inj ((stored_mem_storedEvents.mp hw).2.2.symm.trans h)

/-! ## What a request stores -/

/-- **What a request emits as stored is what it stores**: a row has the last value of a
column, or what it had before; a new row is that of an agent that was never seen. -/
structure Stores (s : AgentState) (o : AgentOutcome) : Prop where
  follows : ∀ c ∈ AgentColumn.watched,
    Table.Follows (fun id r r' => r' c = (storedIn id c o.2).getD (r c))
      (fun _ => IsNewAgent) s.agents o.1.agents
  isSome : ∀ {id : ℕ} {c : AgentColumn} {v : SqlValue}, AgentEvent.stored id c v ∈ o.2 →
    (s.agents.row id).isSome ∧ (o.1.agents.row id).isSome

section Stores

variable {site : AgentSite} {s : AgentState}

/-- **A request that stores nothing** leaves the columns as they are. -/
theorem Stores.of_nothing {o : AgentOutcome} (hnothing : StoresNothing o.2)
    (h : Table.Follows (fun _ => SameLife) (fun _ => IsNewAgent) s.agents o.1.agents) :
    Stores s o where
  follows c hc := h.mono
    (fun id r r' _ hsame => by rw [storedIn_eq_none (hnothing id c), hsame c hc]; rfl)
    fun _ _ hN => hN
  isSome hmem := absurd hmem (hnothing _ _ _)

theorem Stores.answer (response : AgentResponse) : Stores s (s.answer response) :=
  Stores.of_nothing (by simp [StoresNothing, AgentState.answer])
    (.refl fun _ _ _ => .refl _)

theorem Stores.append {s' : AgentState} {es es' : List AgentEvent}
    (hnothing : StoresNothing es') (h : Stores s (s', es)) : Stores s (s', es ++ es') where
  follows c hc := by
    refine (h.follows c hc).mono (fun id r r' _ heq => ?_) fun _ _ hN => hN
    rw [storedIn_append, storedIn_eq_none (hnothing id c)]
    exact heq
  isSome hmem := h.isSome ((List.mem_append.mp hmem).resolve_right (hnothing _ _ _))

/-- **A row has what is stored of it.** -/
theorem Stores.exists_row {o : AgentOutcome} (h : Stores s o) {id : ℕ} {r : AgentRow}
    {c : AgentColumn} {v : SqlValue} (hc : c ∈ AgentColumn.watched)
    (hr : s.agents.row id = some r) (hstored : storedIn id c o.2 = some v) :
    ∃ r', o.1.agents.row id = some r' ∧ r' c = v := by
  obtain ⟨r', hr'⟩ := Option.isSome_iff_exists.mp
    (h.isSome (stored_mem_of_storedIn hstored)).2
  have hcolumn := (h.follows c hc).row_of_some hr hr'
  rw [hstored] at hcolumn
  exact ⟨r', hr', hcolumn⟩

/-- **A row is updated.** -/
theorem Stores.of_update {id : ℕ} {r : AgentRow} (hr : s.agents.row id = some r)
    {assignments : List (AgentColumn × SqlValue)} {s' : AgentState} {es : List AgentEvent}
    (hs' : s'.agents = s.agents.update id fun r => r.assign site.sq assignments)
    (hnothing : StoresNothing es) :
    Stores s (s', storedEvents site.sq id assignments ++ es) := by
  refine Stores.append hnothing ⟨fun c hc => ?_, fun hmem => ?_⟩
  · show Table.Follows _ _ s.agents s'.agents
    rw [hs']
    refine .update (fun i r _ hne => ?_) fun r _ => ?_
    · rw [storedIn_eq_none fun v hv => hne (stored_mem_storedEvents.mp hv).2.1]
      rfl
    · rw [AgentRow.assign_apply, storedIn_storedEvents hc]
  · rw [(stored_mem_storedEvents.mp hmem).2.1]
    show _ ∧ (s'.agents.row id).isSome
    rw [hs', Table.row_update_self, hr]
    exact ⟨rfl, rfl⟩

/-- **A row is updated**, but in none of the columns. -/
theorem follows_unwatched {agents : Table AgentRow} {sq : Sqlite} {id : ℕ}
    {columns : List AgentColumn} {values : List SqlValue}
    (h : ∀ c ∈ AgentColumn.watched, c ∉ columns) :
    Table.Follows (fun _ => SameLife) (fun _ => IsNewAgent) agents
      (agents.update id fun r => r.assign sq (columns.zip values)) := by
  refine .update (fun _ _ _ _ => .refl _) fun r _ c hc => ?_
  rw [AgentRow.assign_apply, assigned_zip_eq_none (h c hc)]
  rfl

/-! ## The requests -/

theorem bindAll_create (name role status config : String) (sessionKey soulContent : Option String)
    (now : ℕ) :
    SqlValue.bindAll 8 [some (.str name), some (.str role), sessionKey.map .str,
        soulContent.map .str, some (.str status), some (.ofNat now), some (.ofNat now),
        some (.str config)]
      = .ok [.text name, .text role, .ofText sessionKey, .ofText soulContent, .text status,
        .ofTime now, .ofTime now, .text config] := by
  cases sessionKey <;> cases soulContent <;> rfl

theorem postAgent_stores (body : Option Json) : Stores s (postAgent site s body) := by
  unfold postAgent
  split
  · exact Stores.answer _
  · next input _ =>
    split
    · exact Stores.answer _
    · split
      · exact Stores.answer _
      · split
        · exact Stores.answer _
        · next agents hinsert =>
          obtain ⟨values, hvalues, rfl⟩ := insertAgent_eq_ok hinsert
          obtain rfl := Except.ok.inj ((bindAll_create _ _ _ _ _ _ _).symm.trans hvalues)
          refine Stores.of_nothing (by simp [StoresNothing])
            (.insert (fun _ _ _ => .refl _) ⟨⟨input.status, ?_⟩, ?_⟩)
          · exact AgentRow.assign_apply _ _ _
          · exact AgentRow.assign_apply _ _ _

theorem putAgentRow_stores (body : Json) {id : ℕ} {r : AgentRow}
    (hr : s.agents.row id = some r) : Stores s (putAgentRow site s body id r) := by
  unfold putAgentRow
  dsimp only
  split
  · exact Stores.answer _
  · split
    · exact Stores.answer _
    · split
      · exact Stores.answer _
      · next hupdate =>
        refine Stores.of_update hr (updateAgent_eq_ok hupdate) fun i c v hmem => ?_
        split at hmem
        · simp at hmem
        · split at hmem <;> simp at hmem

theorem putAgents_stores (body : Option Json) : Stores s (putAgents site s body) := by
  unfold putAgents
  split
  · exact Stores.answer _
  · split
    · exact Stores.answer _
    · split
      · split
        · exact Stores.answer _
        · split
          · exact Stores.answer _
          · next hfound => exact putAgentRow_stores _ (findByName_eq_some hfound)
      · exact Stores.answer _

theorem notMem_configColumns (body existing : Json) (now : ℕ) {c : AgentColumn}
    (hc : c ∉ ([.updated_at, .role, .config] : List AgentColumn)) :
    c ∉ (configColumns site body existing now).map Prod.fst := by
  intro hmem
  obtain ⟨a, ha, rfl⟩ := List.mem_map.mp hmem
  refine hc ?_
  unfold configColumns setIf at ha
  simp only [List.mem_cons, List.mem_append] at ha
  obtain (rfl | ha) | ha := ha
  · simp
  · split at ha
    · obtain rfl := List.mem_singleton.mp ha
      simp
    · exact absurd ha List.not_mem_nil
  · split at ha
    · obtain rfl := List.mem_singleton.mp ha
      simp
    · exact absurd ha List.not_mem_nil

theorem putAgent_stores (id : String) (body : Option Json) (written : Bool) :
    Stores s (putAgent site s id body written) := by
  unfold putAgent
  dsimp only
  split
  · exact Stores.answer _
  · split
    · exact Stores.answer _
    · split
      · exact Stores.answer _
      · split
        · exact Stores.answer _
        · split
          · exact Stores.answer _
          · next hbind =>
            split
            · exact Stores.answer _
            · next agents hupdate =>
              obtain ⟨values, rfl⟩ := bindAssignments_eq_ok hbind
              refine Stores.of_nothing (fun i c v hmem => ?_) ?_
              · split at hmem <;> simp at hmem
              · rw [updateAgent_eq_ok hupdate]
                refine follows_unwatched fun c hc => notMem_configColumns _ _ _ ?_
                revert c
                decide

theorem deleteAgent_stores (id : String) : Stores s (deleteAgent site s id) := by
  unfold deleteAgent
  split
  · exact Stores.answer _
  · exact Stores.of_nothing (by simp [StoresNothing]) (.deleteWhere fun _ _ _ => .refl _)

theorem updateAgentStatus_stores (agentName : SqlValue) (status : String)
    (activity : Option String) :
    Stores s (updateAgentStatus site s agentName status activity) := by
  unfold updateAgentStatus
  split
  · exact Stores.of_nothing (by simp [StoresNothing]) (.refl fun _ _ _ => .refl _)
  · next hfound =>
    exact Stores.of_update (findByName_eq_some hfound) rfl (by simp [StoresNothing])

theorem getHeartbeat_stores (id : String) : Stores s (getHeartbeat site s id) := by
  unfold getHeartbeat
  split
  · exact Stores.answer _
  · exact Stores.append (by simp [StoresNothing]) (updateAgentStatus_stores _ _ _)

theorem postHeartbeat_stores (id : String) (body : Option Json) :
    Stores s (postHeartbeat site s id body) := by
  unfold postHeartbeat
  dsimp only
  split
  · exact Stores.answer _
  · split
    · exact Stores.answer _
    · next connections _ =>
      have hother : ∀ {o}, Stores { s with connections := connections } o → Stores s o :=
        fun h => ⟨h.follows, h.isSome⟩
      split
      · exact hother (Stores.answer _)
      · exact hother (getHeartbeat_stores id)

/-- **A connect** sets the status of an agent, or creates one that was never seen. -/
theorem connectAgent_stores {input : ConnectFields} {agents : Table AgentRow} {agent : ℕ}
    {es : List AgentEvent} (h : connectAgent site s input = .ok (agents, agent, es))
    (connections : Table Connection) : Stores s (⟨agents, connections, s.clock⟩, es) := by
  unfold connectAgent at h
  split at h
  · next hfound =>
    cases h
    exact Stores.of_update (findByName_eq_some hfound) rfl (by simp [StoresNothing])
  · obtain ⟨agents', hinsert, h⟩ := bind_eq_ok.mp h
    cases h
    obtain ⟨values, hvalues, rfl⟩ := insertAgent_eq_ok hinsert
    obtain rfl : [.text input.agentName, .text ((nonEmpty input.agentRole).getD "cli"),
        .text "online", .ofTime s.now, .ofTime s.now] = values := Except.ok.inj hvalues
    refine Stores.of_nothing (by simp [StoresNothing])
      (.insert (fun _ _ _ => .refl _) ⟨⟨.online, ?_⟩, ?_⟩)
    · exact AgentRow.assign_apply _ _ _
    · exact AgentRow.assign_apply _ _ _

theorem postConnect_stores (body : Option Json) (connectionId : String) :
    Stores s (postConnect site s body connectionId) := by
  unfold postConnect
  split
  · exact Stores.answer _
  · split
    · exact Stores.answer _
    · next hconnect =>
      dsimp only
      split
      · exact Stores.append (by simp [StoresNothing]) (connectAgent_stores hconnect _)
      · exact Stores.append (by simp [StoresNothing]) (connectAgent_stores hconnect _)

theorem disconnectRow_stores (i : ℕ) (c : Connection) : Stores s (disconnectRow site s i c) := by
  unfold disconnectRow
  dsimp only
  split
  · exact Stores.of_nothing (by simp [StoresNothing]) (.refl fun _ _ _ => .refl _)
  · cases hr : s.agents.row c.agentId with
    | none =>
      refine Stores.of_nothing (by simp [StoresNothing])
        (.update (fun _ _ _ _ => .refl _) fun r hr' => ?_)
      exact nomatch hr.symm.trans hr'
    | some r => exact Stores.of_update hr rfl (by simp [StoresNothing])

theorem findConnection_eq_some {connectionId : SqlValue} {i : ℕ} {c : Connection}
    (h : findConnection site s connectionId = some (i, c)) : s.connections.row i = some c :=
  ((Table.first_eq_some _).mp h).1

/-- A disconnect comes to one of the connection that it names, or to an answer alone. -/
theorem deleteConnect_cases (site : AgentSite) (s : AgentState) (body : Option Json) :
    (∃ i c, s.connections.row i = some c ∧ deleteConnect site s body = disconnectRow site s i c)
      ∨ ∃ response, deleteConnect site s body = s.answer response := by
  unfold deleteConnect
  split
  · exact Or.inr ⟨_, rfl⟩
  · split
    · exact Or.inr ⟨_, rfl⟩
    · split
      · split
        · exact Or.inr ⟨_, rfl⟩
        · split
          · exact Or.inr ⟨_, rfl⟩
          · next hfound => exact Or.inl ⟨_, _, findConnection_eq_some hfound, rfl⟩
      · exact Or.inr ⟨_, rfl⟩

theorem deleteConnect_stores (body : Option Json) : Stores s (deleteConnect site s body) := by
  obtain ⟨i, c, -, heq⟩ | ⟨response, heq⟩ := deleteConnect_cases site s body
  · rw [heq]
    exact disconnectRow_stores i c
  · rw [heq]
    exact Stores.answer response

theorem mem_staleAgents {settings : Settings} {id : ℕ} {r : AgentRow} :
    (id, r) ∈ staleAgents s settings ↔ s.agents.row id = some r
      ∧ r .status ≠ .text "offline"
      ∧ (r .last_seen).isStale (checkThreshold s settings) = true := by
  unfold staleAgents
  rw [List.mem_filter, Table.mem_rows, Bool.and_eq_true, decide_eq_true_eq]

theorem runHeartbeatCheck_stores (settings : Settings) :
    Stores s (runHeartbeatCheck site s settings) := by
  have hstored : ∀ {id : ℕ} {c : AgentColumn} {v : SqlValue},
      AgentEvent.stored id c v ∈ (runHeartbeatCheck site s settings).2
        ↔ (∃ r, (id, r) ∈ staleAgents s settings)
          ∧ AgentEvent.stored id c v ∈ storedEvents site.sq id (offlineAssignments s) := by
    intro id c v
    unfold runHeartbeatCheck
    dsimp only
    rw [List.mem_flatMap]
    constructor
    · rintro ⟨⟨i, r⟩, hstale, hmem⟩
      have hmem := (List.mem_append.mp hmem).resolve_right (by simp)
      obtain rfl := (stored_mem_storedEvents.mp hmem).2.1
      exact ⟨⟨r, hstale⟩, hmem⟩
    · rintro ⟨⟨r, hstale⟩, hmem⟩
      exact ⟨(id, r), hstale, List.mem_append_left _ hmem⟩
  refine ⟨fun c hc => .updateAll fun id r hr => ?_, fun {id c v} hmem => ?_⟩
  · -- whether the agent is stale decides both
    have hstale : ((staleAgents s settings).any fun stale => decide (stale.1 = id)) = true
        ↔ ∃ r, (id, r) ∈ staleAgents s settings := by
      rw [List.any_eq_true]
      constructor
      · rintro ⟨⟨i, r⟩, hmem, heq⟩
        obtain rfl := of_decide_eq_true heq
        exact ⟨r, hmem⟩
      · rintro ⟨r, hmem⟩
        exact ⟨(id, r), hmem, decide_eq_true rfl⟩
    split
    · next hany =>
      have hwhich : ∀ v, AgentEvent.stored id c v ∈ (runHeartbeatCheck site s settings).2
          ↔ assigned site.sq (offlineAssignments s) c = some v := fun v => by
        rw [hstored, and_iff_right (hstale.mp hany), stored_mem_storedEvents,
          and_iff_right hc, and_iff_right rfl]
      rw [AgentRow.assign_apply]
      cases hassigned : assigned site.sq (offlineAssignments s) c with
      | none =>
        rw [storedIn_eq_none fun v hv =>
          absurd (((hwhich v).mp hv).symm.trans hassigned) (Option.some_ne_none v)]
      | some v =>
        rw [storedIn_eq_some ((hwhich v).mpr hassigned) fun w hw =>
          Option.some.inj (((hwhich w).mp hw).symm.trans hassigned)]
    · next hany =>
      rw [storedIn_eq_none fun v hv => hany (hstale.mpr (hstored.mp hv).1)]
      rfl
  · obtain ⟨⟨r, hr⟩, -⟩ := hstored.mp hmem
    have hr := (mem_staleAgents.mp hr).1
    show _ ∧ ((s.agents.row id).map _).isSome
    rw [hr]
    exact ⟨rfl, rfl⟩

theorem syncAgent_follows {now : ℕ} {p p' : AgentSync} {agent : Json}
    (h : syncAgent site now p agent = .ok p') :
    Table.Follows (fun _ => SameLife) (fun _ => IsNewAgent) p.agents p'.agents := by
  obtain ⟨⟨name, role, config⟩, -, h⟩ := bind_eq_ok.mp h
  obtain ⟨values, -, h⟩ := bind_eq_ok.mp h
  split at h
  · split at h
    · obtain ⟨assignments, hbind, h⟩ := bind_eq_ok.mp h
      obtain ⟨agents, hupdate, h⟩ := bind_eq_ok.mp h
      cases h
      obtain ⟨values, rfl⟩ := bindAssignments_eq_ok hbind
      rw [updateAgent_eq_ok hupdate]
      refine follows_unwatched ?_
      show ∀ c ∈ AgentColumn.watched, c ∉ [AgentColumn.role, .config, .updated_at]
      decide
    · cases h
      exact .refl fun _ _ _ => .refl _
  · obtain ⟨agents, hinsert, h⟩ := bind_eq_ok.mp h
    cases h
    obtain ⟨values, -, rfl⟩ := insertAgent_eq_ok hinsert
    refine .insert (fun _ _ _ => .refl _) ⟨⟨.offline, ?_⟩, ?_⟩
    all_goals
      rw [AgentRow.assign_apply, assigned_zip_eq_none]
      · rfl
      · simp

theorem syncAgents_follows {now : ℕ} {agents : List Json} {p p' : AgentSync}
    (h : syncAgents site now p agents = .ok p') :
    Table.Follows (fun _ => SameLife) (fun _ => IsNewAgent) p.agents p'.agents := by
  induction agents generalizing p with
  | nil =>
    cases h
    exact .refl fun _ _ _ => .refl _
  | cons agent agents ih =>
    obtain ⟨p₁, hagent, h⟩ := bind_eq_ok.mp h
    exact (syncAgent_follows hagent).trans (fun _ _ _ _ => .trans)
      (fun _ _ _ => .of_same) (ih h)

theorem syncAgentsFromConfig_stores (file : Option Json) :
    Stores s (syncAgentsFromConfig site s file) := by
  unfold syncAgentsFromConfig
  split
  · exact Stores.answer _
  · dsimp only
    split
    · exact Stores.answer _
    · split
      · exact Stores.answer _
      · split
        · exact Stores.answer _
        · next hsync =>
          refine Stores.of_nothing (fun i c v hmem => ?_) (syncAgents_follows hsync)
          dsimp only at hmem
          split at hmem <;> simp at hmem

/-! ## The status page -/

/-- **What is known last of an agent** by the sessions of its name. -/
def lastLive (live : List LiveAgent) (r : AgentRow) : Option LiveAgent :=
  (live.filter fun l => l.isOf r).getLast?

theorem LiveAgent.assigned_assignments (l : LiveAgent) {c : AgentColumn}
    (hc : c ∈ AgentColumn.watched) :
    ∃ v, assigned site.sq (l.assignments site s) c = some v := by
  obtain rfl | rfl : c = .status ∨ c = .last_seen := by simpa [AgentColumn.watched] using hc
  · exact ⟨_, rfl⟩
  · exact ⟨_, rfl⟩

theorem LiveAgent.isOf_congr (l : LiveAgent) {r r' : AgentRow} (h : r' .name = r .name) :
    l.isOf r' = l.isOf r := by
  unfold isOf
  rw [h]

/-- A row, as all that is known by sessions leaves it. -/
def applyLive (site : AgentSite) (s : AgentState) (live : List LiveAgent) (r : AgentRow) :
    AgentRow :=
  live.foldl (fun r l => if l.isOf r then r.assign site.sq (l.assignments site s) else r) r

theorem applyLive_concat (live : List LiveAgent) (l : LiveAgent) (r : AgentRow) :
    applyLive site s (live ++ [l]) r
      = if l.isOf (applyLive site s live r) then
          (applyLive site s live r).assign site.sq (l.assignments site s)
        else applyLive site s live r := by
  unfold applyLive
  rw [List.foldl_append]
  rfl

theorem applyLive_name (live : List LiveAgent) (r : AgentRow) :
    applyLive site s live r .name = r .name := by
  induction live using List.reverseRecOn with
  | nil => rfl
  | append_singleton live l ih =>
    rw [applyLive_concat]
    split
    · exact (AgentRow.assign_apply _ _ _).trans ih
    · exact ih

/-- **The last one that is known counts.** -/
theorem applyLive_column {c : AgentColumn} (hc : c ∈ AgentColumn.watched)
    (live : List LiveAgent) (r : AgentRow) :
    applyLive site s live r c
      = ((lastLive live r).bind fun l => assigned site.sq (l.assignments site s) c).getD
        (r c) := by
  induction live using List.reverseRecOn with
  | nil => rfl
  | append_singleton live l ih =>
    rw [applyLive_concat, l.isOf_congr (applyLive_name live r)]
    unfold lastLive
    rw [List.filter_append]
    split
    · next hof =>
      rw [List.filter_singleton, hof, cond_true, List.getLast?_concat, AgentRow.assign_apply]
      obtain ⟨v, hv⟩ := LiveAgent.assigned_assignments (s := s) l hc
      rw [Option.bind_some, hv]
      rfl
    · next hof =>
      rw [List.filter_singleton, Bool.eq_false_iff.mpr hof, cond_false, List.append_nil]
      exact ih

theorem syncLive_row (live : List LiveAgent) (agents : Table AgentRow) (id : ℕ) :
    (live.foldl (fun agents l => syncLiveAgent site s l agents) agents).row id
      = (agents.row id).map (applyLive site s live) := by
  induction live using List.reverseRecOn with
  | nil => exact Option.map_id'.symm
  | append_singleton live l ih =>
    have hrow : ∀ t, (syncLiveAgent site s l t).row id = (t.row id).map fun r =>
        if l.isOf r then r.assign site.sq (l.assignments site s) else r := fun _ => rfl
    rw [List.foldl_append, List.foldl_cons, List.foldl_nil, hrow, ih, Option.map_map]
    refine congrArg (fun f => Option.map f _) (funext fun r => ?_)
    exact (applyLive_concat live l r).symm

theorem syncLive_next (live : List LiveAgent) (agents : Table AgentRow) :
    (live.foldl (fun agents l => syncLiveAgent site s l agents) agents).next = agents.next := by
  induction live generalizing agents with
  | nil => rfl
  | cons l live ih => exact ih _

theorem stored_mem_syncLiveEvents {l : LiveAgent} {agents : Table AgentRow} {id : ℕ}
    {c : AgentColumn} {v : SqlValue} :
    AgentEvent.stored id c v ∈ syncLiveEvents site s l agents
      ↔ (∃ r, agents.row id = some r ∧ l.isOf r = true)
        ∧ c ∈ AgentColumn.watched ∧ assigned site.sq (l.assignments site s) c = some v := by
  unfold syncLiveEvents
  rw [List.mem_flatMap]
  constructor
  · rintro ⟨⟨i, r⟩, hmem, hstored⟩
    obtain ⟨hc, rfl, hv⟩ := stored_mem_storedEvents.mp hstored
    obtain ⟨hrow, hof⟩ := List.mem_filter.mp hmem
    exact ⟨⟨r, agents.mem_rows.mp hrow, hof⟩, hc, hv⟩
  · rintro ⟨⟨r, hrow, hof⟩, hc, hv⟩
    exact ⟨(id, r), List.mem_filter.mpr ⟨agents.mem_rows.mpr hrow, hof⟩,
      stored_mem_storedEvents.mpr ⟨hc, rfl, hv⟩⟩

/-- **What the status page stores for a row** is of the last agent that is known by its
name. -/
theorem storedIn_syncLiveEvents {agents : Table AgentRow} {id : ℕ} {r : AgentRow}
    (hr : agents.row id = some r) {c : AgentColumn} (hc : c ∈ AgentColumn.watched)
    (live : List LiveAgent) :
    storedIn id c (live.flatMap fun l => syncLiveEvents site s l agents)
      = (lastLive live r).bind fun l => assigned site.sq (l.assignments site s) c := by
  induction live using List.reverseRecOn with
  | nil => rfl
  | append_singleton live l ih =>
    rw [List.flatMap_append, List.flatMap_singleton, storedIn_append, ih]
    unfold lastLive
    rw [List.filter_append]
    cases hof : l.isOf r with
    | true =>
      obtain ⟨v, hv⟩ := LiveAgent.assigned_assignments (s := s) l hc
      rw [List.filter_singleton, hof, cond_true, List.getLast?_concat,
        storedIn_eq_some (stored_mem_syncLiveEvents.mpr ⟨⟨r, hr, hof⟩, hc, hv⟩) fun w hw =>
          Option.some.inj ((stored_mem_syncLiveEvents.mp hw).2.2.symm.trans hv),
        Option.bind_some, hv]
      rfl
    | false =>
      rw [List.filter_singleton, hof, cond_false, List.append_nil, storedIn_eq_none]
      · rfl
      · intro w hw
        obtain ⟨⟨r', hr', hof'⟩, -⟩ := stored_mem_syncLiveEvents.mp hw
        obtain rfl : r = r' := Option.some.inj (hr.symm.trans hr')
        exact Bool.false_ne_true (hof.symm.trans hof')

theorem getStatus_stores (stores : List (String × Option Json)) :
    Stores s (getStatus site s stores) := by
  unfold getStatus
  dsimp only
  refine Stores.append (by simp [StoresNothing])
    ⟨fun c hc => ⟨?_, fun {id r'} hr' => Or.inl ?_⟩, fun {id c v} hmem => ?_⟩
  · exact Nat.le_of_eq (syncLive_next _ _).symm
  · have hr' := (syncLive_row _ _ _).symm.trans hr'
    obtain ⟨r, hr, rfl⟩ := Option.map_eq_some_iff.mp hr'
    refine ⟨r, hr, ?_⟩
    rw [storedIn_syncLiveEvents hr hc]
    exact applyLive_column hc _ r
  · obtain ⟨l, -, hl⟩ := List.mem_flatMap.mp hmem
    obtain ⟨⟨r, hr, -⟩, -⟩ := stored_mem_syncLiveEvents.mp hl
    rw [syncLive_row, hr]
    exact ⟨rfl, rfl⟩

end Stores

/-- **What a request emits as stored is what it stores.** -/
theorem agentApi_stores (site : AgentSite) (s : AgentState) (a : AgentAction) :
    Stores (s.advance a) ((agentApi site).step s a) := by
  obtain ⟨elapsed, request⟩ := a
  cases request with
  | create body => exact postAgent_stores body
  | update body => exact putAgents_stores body
  | updateOne id body written => exact putAgent_stores id body written
  | delete id => exact deleteAgent_stores id
  | heartbeat id => exact getHeartbeat_stores id
  | heartbeatReport id body => exact postHeartbeat_stores id body
  | connect body connectionId => exact postConnect_stores body connectionId
  | disconnect body => exact deleteConnect_stores body
  | check settings => exact runHeartbeatCheck_stores settings
  | sync file => exact syncAgentsFromConfig_stores file
  | status stores => exact getStatus_stores stores

end MissionControl
