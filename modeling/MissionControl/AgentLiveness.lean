import MissionControl.AgentRows

/-!
# The life of an agent

What the columns `status` and `last_seen` say of an agent in a run. Heartbeats and status
updates store the time as `last_seen`, but a connect does not: an agent that has connected
is `online` with whatever `last_seen` it had, and the next heartbeat check may declare it
offline (`not_livingKept_sampleConnect`). The status page stores times that it finds in
files, which may be older than the last heartbeat (`not_lastSeen_monotone_sampleStatus`),
and a status that is none of the enumeration; and so does a `PUT`, whose body is not
checked (`not_status_enumerated_sampleStatusUpdate`).

`livingKept_iff`, `lastSeen_monotone_iff` and `status_enumerated_iff` say exactly in which
runs no living agent is declared offline, `last_seen` never moves backwards, and the
statuses are those of the enumeration.

All three are read off what the requests emit as stored (`agentApi_stores`), so for each of
them it is enough to know what the single requests store. The heartbeat check looks into the
row instead, and that the row has what was stored last is an invariant (`HoldsStored`).
-/

namespace MissionControl

/-! ## What the requests store -/

section Stored

variable (site : AgentSite) (s : AgentState)

/-- **What a `PUT` sets**, and the agent that it sets it for, where it succeeds. -/
def putAssignments (body : Option Json) :
    Option (ℕ × AgentRow × List (AgentColumn × SqlValue)) :=
  match body with
  | none => none
  | some body =>
    match Json.get (some body) "name" with
    | .error _ => none
    | .ok name =>
      if Json.truthy name then
        match SqlValue.bindAll 1 [name] with
        | .error _ => none
        | .ok values =>
          match findByName site.sq s.agents (values.headD .null) with
          | none => none
          | some (id, r) =>
            let columns := updateColumns site body s.now
            if columns = [] then none
            else
              match bindAssignments (columns ++ [(.updated_at, some (.ofNat s.now))])
                  (Json.get? (some body) "name") with
              | .error _ => none
              | .ok assignments =>
                match updateAgent site.sq s.agents id r assignments with
                | .error _ => none
                | .ok _ => some (id, r, assignments)
      else none

/-- What is reported with a heartbeat can be stored. -/
def reportAccepted (id : String) (body : Option Json) : Bool :=
  let body := body.getD (.obj [])
  match Json.get (some body) "connection_id" with
  | .error _ => false
  | .ok connectionId =>
    match touchConnection site s connectionId with
    | .error _ => false
    | .ok _ =>
      match reportTokens site s id (Json.get? (some body) "token_usage") with
      | .error _ => false
      | .ok _ => true

/-- **The agent whose heartbeat a request is**, if it comes to one. -/
def heartbeatRow : AgentRequest → Option (ℕ × AgentRow)
  | .heartbeat id =>
    (lookupAgent site s id).bind fun (_, r) => findByName site.sq s.agents (r .name)
  | .heartbeatReport id body =>
    if reportAccepted site s id body then
      (lookupAgent site s id).bind fun (_, r) => findByName site.sq s.agents (r .name)
    else none
  | _ => none

end Stored

section Stored

variable {site : AgentSite} {s : AgentState}

theorem storedIn_append_nothing {es es' : List AgentEvent} (h : StoresNothing es') (id : ℕ)
    (c : AgentColumn) : storedIn id c (es ++ es') = storedIn id c es := by
  rw [storedIn_append, storedIn_eq_none (h id c)]
  rfl

theorem storedIn_nothing {es : List AgentEvent} (h : StoresNothing es) (id : ℕ)
    (c : AgentColumn) : storedIn id c es = none := storedIn_eq_none (h id c)

theorem storedIn_row {sq : Sqlite} {i id : ℕ} {c : AgentColumn} {v : SqlValue}
    (hc : c ∈ AgentColumn.watched) {assignments : List (AgentColumn × SqlValue)}
    {es : List AgentEvent} (hnothing : StoresNothing es) :
    storedIn i c (storedEvents sq id assignments ++ es) = some v
      ↔ i = id ∧ assigned sq assignments c = some v := by
  rw [storedIn_append_nothing hnothing]
  constructor
  · intro h
    exact (stored_mem_storedEvents.mp (stored_mem_of_storedIn h)).2
  · rintro ⟨rfl, h⟩
    rw [storedIn_storedEvents hc, h]

theorem StoresNothing.answered (response : AgentResponse) :
    StoresNothing [.answered response] := by
  simp [StoresNothing]

/-- **What a `PUT` stores** is what it sets. -/
theorem storedIn_putAgents {body : Option Json} {i : ℕ} {c : AgentColumn} {v : SqlValue}
    (hc : c ∈ AgentColumn.watched) :
    storedIn i c (putAgents site s body).2 = some v
      ↔ ∃ r assignments, putAssignments site s body = some (i, r, assignments)
        ∧ assigned site.sq assignments c = some v := by
  have hrefused : ∀ response, storedIn i c (s.answer response).2 = some v
      ↔ ∃ r assignments, (none : Option (ℕ × AgentRow × List (AgentColumn × SqlValue)))
          = some (i, r, assignments) ∧ assigned site.sq assignments c = some v := by
    intro response
    refine iff_of_false (fun h => ?_) (by simp)
    exact nomatch (storedIn_nothing (.answered response) i c).symm.trans h
  unfold putAgents putAssignments
  cases body with
  | none => exact hrefused _
  | some body =>
    dsimp only
    cases Json.get (some body) "name" with
    | error e => exact hrefused _
    | ok name =>
      dsimp only
      split
      · cases SqlValue.bindAll 1 [name] with
        | error e => exact hrefused _
        | ok values =>
          dsimp only
          cases findByName site.sq s.agents (values.headD .null) with
          | none => exact hrefused _
          | some found =>
            obtain ⟨id, r⟩ := found
            unfold putAgentRow
            dsimp only
            split
            · exact hrefused _
            · cases bindAssignments
                  (updateColumns site body s.now ++ [(.updated_at, some (.ofNat s.now))])
                  (Json.get? (some body) "name") with
              | error e => exact hrefused _
              | ok assignments =>
                dsimp only
                cases updateAgent site.sq s.agents id r assignments with
                | error e => exact hrefused _
                | ok agents =>
                  dsimp only
                  rw [storedIn_row hc]
                  · constructor
                    · rintro ⟨rfl, hv⟩
                      exact ⟨r, assignments, rfl, hv⟩
                    · rintro ⟨r', assignments', heq, hv⟩
                      cases heq
                      exact ⟨rfl, hv⟩
                  · intro j c' w hmem
                    split at hmem
                    · simp at hmem
                    · split at hmem <;> simp at hmem
      · exact hrefused _

def heartbeatAssignments (s : AgentState) : List (AgentColumn × SqlValue) :=
  [(.status, .text "idle"), (.last_seen, .ofTime s.now),
    (.last_activity, .ofText (some "Heartbeat check")), (.updated_at, .ofTime s.now)]

theorem storedIn_getHeartbeat {id : String} {i : ℕ} {c : AgentColumn} {v : SqlValue}
    (hc : c ∈ AgentColumn.watched) :
    storedIn i c (getHeartbeat site s id).2 = some v
      ↔ (∃ r, heartbeatRow site s (.heartbeat id) = some (i, r))
        ∧ assigned site.sq (heartbeatAssignments s) c = some v := by
  unfold getHeartbeat heartbeatRow
  dsimp only
  cases lookupAgent site s id with
  | none =>
    refine iff_of_false (fun h => ?_) (by simp)
    exact nomatch (storedIn_nothing (.answered _) i c).symm.trans h
  | some found =>
    obtain ⟨j, r⟩ := found
    dsimp only
    rw [storedIn_append_nothing (.answered _), Option.bind_some]
    unfold updateAgentStatus
    cases hfound : findByName site.sq s.agents (r .name) with
    | none =>
      refine iff_of_false (fun h => ?_) (by simp)
      exact nomatch (storedIn_nil i c).symm.trans h
    | some found =>
      obtain ⟨id, r'⟩ := found
      show storedIn i c (storedEvents site.sq id (heartbeatAssignments s) ++ _) = some v ↔ _
      rw [storedIn_row hc (by simp [StoresNothing])]
      refine and_congr_left fun _ => ?_
      constructor
      · rintro rfl
        exact ⟨r', rfl⟩
      · rintro ⟨r'', heq⟩
        cases heq
        rfl

/-- A heartbeat that reports comes to a heartbeat if what it reports can be stored. -/
theorem postHeartbeat_cases (site : AgentSite) (s : AgentState) (id : String) (body : Option Json) :
    reportAccepted site s id body = true
        ∧ (∃ connections, postHeartbeat site s id body
          = getHeartbeat site { s with connections := connections } id)
      ∨ reportAccepted site s id body = false
        ∧ ∃ s' e, postHeartbeat site s id body = AgentState.answer s' (.thrown e) := by
  unfold postHeartbeat reportAccepted
  dsimp only
  cases Json.get (some (body.getD (.obj []))) "connection_id" with
  | error e => exact Or.inr ⟨rfl, s, e, rfl⟩
  | ok connectionId =>
    dsimp only
    cases touchConnection site s connectionId with
    | error e => exact Or.inr ⟨rfl, s, e, rfl⟩
    | ok connections =>
      have hreport : reportTokens site { s with connections := connections } id
            (Json.get? (some (body.getD (.obj []))) "token_usage")
          = reportTokens site s id (Json.get? (some (body.getD (.obj []))) "token_usage") :=
        rfl
      dsimp only
      rw [hreport]
      cases reportTokens site s id (Json.get? (some (body.getD (.obj []))) "token_usage") with
      | error e => exact Or.inr ⟨rfl, _, e, rfl⟩
      | ok _ => exact Or.inl ⟨rfl, connections, rfl⟩

/-- **What a heartbeat stores**, with whatever it reports. -/
theorem storedIn_heartbeat {request : AgentRequest}
    (hrequest : (∃ id, request = .heartbeat id) ∨ ∃ id body, request = .heartbeatReport id body)
    {i : ℕ} {c : AgentColumn} {v : SqlValue} (hc : c ∈ AgentColumn.watched) :
    storedIn i c (request.run site s).2 = some v
      ↔ (∃ r, heartbeatRow site s request = some (i, r))
        ∧ assigned site.sq (heartbeatAssignments s) c = some v := by
  obtain ⟨id, rfl⟩ | ⟨id, body, rfl⟩ := hrequest
  · exact storedIn_getHeartbeat hc
  · show storedIn i c (postHeartbeat site s id body).2 = some v ↔ _
    have hrow : heartbeatRow site s (.heartbeatReport id body)
        = if reportAccepted site s id body then heartbeatRow site s (.heartbeat id) else none :=
      rfl
    obtain ⟨haccepted, connections, heq⟩ | ⟨hrefused, s', e, heq⟩ :=
      postHeartbeat_cases site s id body
    · rw [heq, hrow, if_pos haccepted]
      exact storedIn_getHeartbeat (s := { s with connections := connections }) hc
    · rw [heq, hrow, hrefused]
      refine iff_of_false (fun h => ?_) (by simp)
      exact nomatch (storedIn_nothing (.answered _) i c).symm.trans h

/-- **What the status page stores** for a row is of the last agent that is known by its
name. -/
theorem storedIn_getStatus {stores : List (String × Option Json)} {i : ℕ} {r : AgentRow}
    (hr : s.agents.row i = some r) {c : AgentColumn} (hc : c ∈ AgentColumn.watched) :
    storedIn i c (getStatus site s stores).2
      = (lastLive (getAgentLiveStatuses site s.clock stores) r).bind fun l =>
        assigned site.sq (l.assignments site s) c := by
  unfold getStatus
  dsimp only
  rw [storedIn_append_nothing (.answered _), storedIn_syncLiveEvents hr hc]

/-- **The requests that store no `last_seen`**, and a status of the enumeration at most. -/
def AgentRequest.isPlain : AgentRequest → Bool
  | update _ | heartbeat _ | heartbeatReport _ _ | status _ => false
  | _ => true

theorem stored_mem_status (status : AgentStatus) {i id : ℕ} {c : AgentColumn} {v : SqlValue}
    {es : List AgentEvent} (hnothing : StoresNothing es)
    (hmem : AgentEvent.stored i c v ∈ storedEvents site.sq id
      [(.status, .text status.text), (.updated_at, .ofTime s.now)] ++ es) :
    c = .status ∧ IsAgentStatus v := by
  have hmem := (List.mem_append.mp hmem).resolve_right (hnothing _ _ _)
  obtain ⟨hc, -, hv⟩ := stored_mem_storedEvents.mp hmem
  obtain rfl | rfl : c = .status ∨ c = .last_seen := by simpa [AgentColumn.watched] using hc
  · exact ⟨rfl, status, (Option.some.inj hv).symm⟩
  · cases hv

theorem connectAgent_stored {input : ConnectFields} {agents : Table AgentRow} {agent : ℕ}
    {es : List AgentEvent} (h : connectAgent site s input = .ok (agents, agent, es)) {i : ℕ}
    {c : AgentColumn} {v : SqlValue} (hmem : AgentEvent.stored i c v ∈ es) :
    c = .status ∧ IsAgentStatus v := by
  unfold connectAgent at h
  split at h
  · cases h
    exact stored_mem_status .online (by simp [StoresNothing]) hmem
  · obtain ⟨agents', -, h⟩ := bind_eq_ok.mp h
    cases h
    simp at hmem

theorem AgentRequest.stored_of_plain {request : AgentRequest} (h : request.isPlain = true)
    {i : ℕ} {c : AgentColumn} {v : SqlValue}
    (hmem : AgentEvent.stored i c v ∈ (request.run site s).2) :
    c = .status ∧ IsAgentStatus v := by
  have hanswer : ∀ response, AgentEvent.stored i c v ∉ (s.answer response).2 := fun response =>
    StoresNothing.answered response i c v
  cases request with
  | update body => exact nomatch h
  | heartbeat id => exact nomatch h
  | heartbeatReport id body => exact nomatch h
  | status stores => exact nomatch h
  | create body =>
    have hmem : AgentEvent.stored i c v ∈ (postAgent site s body).2 := hmem
    unfold postAgent at hmem
    split at hmem
    · exact absurd hmem (hanswer _)
    · split at hmem
      · exact absurd hmem (hanswer _)
      · split at hmem
        · exact absurd hmem (hanswer _)
        · split at hmem
          · exact absurd hmem (hanswer _)
          · simp at hmem
  | updateOne id body written =>
    have hmem : AgentEvent.stored i c v ∈ (putAgent site s id body written).2 := hmem
    unfold putAgent at hmem
    dsimp only at hmem
    split at hmem
    · exact absurd hmem (hanswer _)
    · split at hmem
      · exact absurd hmem (hanswer _)
      · split at hmem
        · exact absurd hmem (hanswer _)
        · split at hmem
          · exact absurd hmem (hanswer _)
          · split at hmem
            · exact absurd hmem (hanswer _)
            · split at hmem
              · exact absurd hmem (hanswer _)
              · dsimp only at hmem
                split at hmem <;> simp at hmem
  | delete id =>
    have hmem : AgentEvent.stored i c v ∈ (deleteAgent site s id).2 := hmem
    unfold deleteAgent at hmem
    split at hmem
    · exact absurd hmem (hanswer _)
    · simp at hmem
  | connect body connectionId =>
    have hmem : AgentEvent.stored i c v ∈ (postConnect site s body connectionId).2 := hmem
    unfold postConnect at hmem
    split at hmem
    · exact absurd hmem (hanswer _)
    · split at hmem
      · exact absurd hmem (hanswer _)
      · next hconnect =>
        dsimp only at hmem
        split at hmem
        · exact connectAgent_stored hconnect ((List.mem_append.mp hmem).resolve_right (by simp))
        · exact connectAgent_stored hconnect ((List.mem_append.mp hmem).resolve_right (by simp))
  | disconnect body =>
    have hmem : AgentEvent.stored i c v ∈ (deleteConnect site s body).2 := hmem
    unfold deleteConnect at hmem
    split at hmem
    · exact absurd hmem (hanswer _)
    · split at hmem
      · exact absurd hmem (hanswer _)
      · split at hmem
        · split at hmem
          · exact absurd hmem (hanswer _)
          · split at hmem
            · exact absurd hmem (hanswer _)
            · unfold disconnectRow at hmem
              dsimp only at hmem
              split at hmem
              · simp at hmem
              · dsimp only at hmem
                split at hmem
                · exact stored_mem_status .offline (by simp [StoresNothing]) hmem
                · simp at hmem
        · exact absurd hmem (hanswer _)
  | check settings =>
    have hmem : AgentEvent.stored i c v ∈ (runHeartbeatCheck site s settings).2 := hmem
    obtain ⟨a, -, hmem⟩ := List.mem_flatMap.mp hmem
    exact stored_mem_status .offline (by simp [StoresNothing]) hmem
  | sync file =>
    have hmem : AgentEvent.stored i c v ∈ (syncAgentsFromConfig site s file).2 := hmem
    unfold syncAgentsFromConfig at hmem
    split at hmem
    · exact absurd hmem (hanswer _)
    · dsimp only at hmem
      split at hmem
      · exact absurd hmem (hanswer _)
      · split at hmem
        · exact absurd hmem (hanswer _)
        · split at hmem
          · exact absurd hmem (hanswer _)
          · dsimp only at hmem
            split at hmem <;> simp at hmem

/-! ## What may be stored -/

/-- **All that a request stores in a column** has a property, together with the row that it
is stored in. -/
def StoresOnly (site : AgentSite) (s : AgentState) (c : AgentColumn)
    (P : AgentRow → SqlValue → Prop) : AgentRequest → Prop
  | .update body => ∀ i r assignments v, putAssignments site s body = some (i, r, assignments) →
    assigned site.sq assignments c = some v → P r v
  | .heartbeat id => ∀ i r v, heartbeatRow site s (.heartbeat id) = some (i, r) →
    assigned site.sq (heartbeatAssignments s) c = some v → P r v
  | .heartbeatReport id body => ∀ i r v,
    heartbeatRow site s (.heartbeatReport id body) = some (i, r) →
    assigned site.sq (heartbeatAssignments s) c = some v → P r v
  | .status stores => ∀ i r l v, s.agents.row i = some r →
    lastLive (getAgentLiveStatuses site s.clock stores) r = some l →
    assigned site.sq (l.assignments site s) c = some v → P r v
  | _ => True

theorem putAssignments_row {body : Option Json} {i : ℕ} {r : AgentRow}
    {assignments : List (AgentColumn × SqlValue)}
    (h : putAssignments site s body = some (i, r, assignments)) : s.agents.row i = some r := by
  unfold putAssignments at h
  split at h
  · exact nomatch h
  · split at h
    · exact nomatch h
    · split at h
      · split at h
        · exact nomatch h
        · split at h
          · exact nomatch h
          · next hfound =>
            dsimp only at h
            split at h
            · exact nomatch h
            · split at h
              · exact nomatch h
              · split at h
                · exact nomatch h
                · cases h
                  exact findByName_eq_some hfound
      · exact nomatch h

theorem heartbeatRow_row {request : AgentRequest} {i : ℕ} {r : AgentRow}
    (h : heartbeatRow site s request = some (i, r)) : s.agents.row i = some r := by
  have hfind : ∀ {id : String},
      ((lookupAgent site s id).bind fun (_, r) => findByName site.sq s.agents (r .name))
        = some (i, r) → s.agents.row i = some r := by
    intro id hid
    obtain ⟨found, -, hfound⟩ := Option.bind_eq_some_iff.mp hid
    exact findByName_eq_some hfound
  unfold heartbeatRow at h
  split at h
  · exact hfind h
  · split at h
    · exact hfind h
    · exact nomatch h
  · exact nomatch h

/-- **What the requests store, by what they are.** -/
theorem storesOnly_iff {c : AgentColumn} (hc : c ∈ AgentColumn.watched)
    {P : AgentRow → SqlValue → Prop}
    (hplain : c = .status → ∀ r v, IsAgentStatus v → P r v) (request : AgentRequest) :
    (∀ i r v, s.agents.row i = some r → storedIn i c (request.run site s).2 = some v → P r v)
      ↔ StoresOnly site s c P request := by
  have hheartbeat : ∀ {request : AgentRequest}, ((∃ id, request = .heartbeat id)
        ∨ ∃ id body, request = .heartbeatReport id body) →
      ((∀ i r v, s.agents.row i = some r →
          storedIn i c (request.run site s).2 = some v → P r v)
        ↔ ∀ i r v, heartbeatRow site s request = some (i, r) →
          assigned site.sq (heartbeatAssignments s) c = some v → P r v) := by
    intro request hrequest
    constructor
    · intro h i r v hi hv
      exact h i r v (heartbeatRow_row hi) ((storedIn_heartbeat hrequest hc).mpr ⟨⟨r, hi⟩, hv⟩)
    · intro h i r v hr hstored
      obtain ⟨⟨r', hi⟩, hv⟩ := (storedIn_heartbeat hrequest hc).mp hstored
      obtain rfl : r = r' := Option.some.inj (hr.symm.trans (heartbeatRow_row hi))
      exact h i r v hi hv
  have hother : request.isPlain = true → ∀ i r v, s.agents.row i = some r →
      storedIn i c (request.run site s).2 = some v → P r v := by
    intro hrequest i r v _ hstored
    obtain ⟨hstatus, hv⟩ := AgentRequest.stored_of_plain hrequest
      (stored_mem_of_storedIn hstored)
    exact hplain hstatus r v hv
  cases request with
  | update body =>
    constructor
    · intro h i r assignments v hput hv
      exact h i r v (putAssignments_row hput)
        ((storedIn_putAgents hc).mpr ⟨r, assignments, hput, hv⟩)
    · intro h i r v hr hstored
      obtain ⟨r', assignments, hput, hv⟩ := (storedIn_putAgents hc).mp hstored
      obtain rfl : r = r' := Option.some.inj (hr.symm.trans (putAssignments_row hput))
      exact h i r assignments v hput hv
  | heartbeat id => exact hheartbeat (Or.inl ⟨id, rfl⟩)
  | heartbeatReport id body => exact hheartbeat (Or.inr ⟨id, body, rfl⟩)
  | status stores =>
    constructor
    · intro h i r l v hr hlast hv
      refine h i r v hr ((storedIn_getStatus hr hc).trans ?_)
      rw [hlast, Option.bind_some, hv]
    · intro h i r v hr hstored
      obtain ⟨l, hlast, hv⟩ :=
        Option.bind_eq_some_iff.mp ((storedIn_getStatus hr hc).symm.trans hstored)
      exact h i r l v hr hlast hv
  | create body => exact iff_of_true (hother rfl) trivial
  | updateOne id body written => exact iff_of_true (hother rfl) trivial
  | delete id => exact iff_of_true (hother rfl) trivial
  | connect body connectionId => exact iff_of_true (hother rfl) trivial
  | disconnect body => exact iff_of_true (hother rfl) trivial
  | check settings => exact iff_of_true (hother rfl) trivial
  | sync file => exact iff_of_true (hother rfl) trivial

end Stored

/-! ## Statuses of the enumeration -/

/-- The statuses of the agents are those of the enumeration. -/
def AgentState.Enumerated (s : AgentState) : Prop :=
  ∀ id r, s.agents.row id = some r → IsAgentStatus (r .status)

/-- **A request sets statuses of the enumeration only**: a `PUT` does, and no agent is known
last as active by its sessions. -/
def SetsEnumerated (site : AgentSite) (s : AgentState) (a : AgentAction) : Prop :=
  let s := s.advance a
  match a.request with
  | .update body => ∀ i r assignments v, putAssignments site s body = some (i, r, assignments) →
    assigned site.sq assignments .status = some v → IsAgentStatus v
  | .status stores => ∀ i r l, s.agents.row i = some r →
    lastLive (getAgentLiveStatuses site s.clock stores) r = some l → l.status ≠ .active
  | _ => True

section Enumerated

variable {site : AgentSite} {s : AgentState}

/-- Of the statuses that are derived from sessions, one is not of the enumeration. -/
theorem isAgentStatus_live_iff (status : LiveStatus) :
    IsAgentStatus (.text status.text) ↔ status ≠ .active := by
  cases status with
  | active =>
    refine iff_of_false ?_ (fun h => h rfl)
    rintro ⟨status, h⟩
    cases status <;> exact absurd (SqlValue.text.inj h) (by decide)
  | idle => exact iff_of_true ⟨.idle, rfl⟩ nofun
  | offline => exact iff_of_true ⟨.offline, rfl⟩ nofun

theorem setsEnumerated_iff (a : AgentAction) :
    (∀ i r v, s.agents.row i = some r →
        storedIn i .status ((agentApi site).emits s a) = some v → IsAgentStatus v)
      ↔ SetsEnumerated site s a := by
  obtain ⟨elapsed, request⟩ := a
  refine (storesOnly_iff (s := s.advance ⟨elapsed, request⟩) (c := .status)
    (P := fun _ v => IsAgentStatus v) (by decide) (fun _ _ _ hv => hv) request).trans ?_
  cases request with
  | update body => exact Iff.rfl
  | status stores =>
    constructor
    · intro h i r l hr hlast
      exact (isAgentStatus_live_iff l.status).mp (h i r l _ hr hlast rfl)
    · intro h i r l v hr hlast hv
      cases hv
      exact (isAgentStatus_live_iff l.status).mpr (h i r l hr hlast)
  | heartbeat id =>
    refine iff_of_true (fun i r v _ hv => ?_) trivial
    cases hv
    exact ⟨.idle, rfl⟩
  | heartbeatReport id body =>
    refine iff_of_true (fun i r v _ hv => ?_) trivial
    cases hv
    exact ⟨.idle, rfl⟩
  | _ => exact Iff.rfl

/-- **Each step keeps the statuses in the enumeration** exactly if it sets such only. -/
theorem enumerated_next_iff (h : s.Enumerated) (a : AgentAction) :
    ((agentApi site).next s a).Enumerated ↔ SetsEnumerated site s a := by
  have hstores := agentApi_stores site s a
  have hfollows := hstores.follows .status (by decide)
  rw [← setsEnumerated_iff]
  constructor
  · intro hnext i r v hr hstored
    obtain ⟨r', hr', rfl⟩ := hstores.exists_row (by decide) hr hstored
    exact hnext i r' hr'
  · intro hsets i r' hr'
    obtain ⟨r, hr, hstatus⟩ | ⟨-, hnew⟩ := hfollows.row hr'
    · rw [hstatus]
      cases hstored : storedIn i .status ((agentApi site).step s a).2 with
      | none => exact h i r hr
      | some v => exact hsets i r v hr hstored
    · exact hnew.1

end Enumerated

/-- **The statuses stay in the enumeration all along a run** exactly if each request of it
sets such only. -/
theorem status_enumerated_iff (site : AgentSite) (clock : ℕ) (as : List AgentAction) :
    (agentApi site).Always AgentState.Enumerated (.initial clock) as
      ↔ (agentApi site).EachStep (SetsEnumerated site) (.initial clock) as :=
  (agentApi site).always_iff_eachStep (J := fun _ => True) trivial (fun _ _ _ => trivial)
    nofun (fun _ a _ h => enumerated_next_iff h a) as

/-- The connect of an agent. -/
def sampleConnect : AgentAction :=
  ⟨0, .connect (some (.obj [("tool_name", .str "cli"), ("agent_name", .str "bot")])) "c1"⟩

/-- An update with a status that is none. -/
def sampleStatusUpdate : AgentAction :=
  ⟨0, .update (some (.obj [("name", .str "bot"), ("status", .str "napping")]))⟩

/-- **A `PUT` stores any status.** -/
theorem not_status_enumerated_sampleStatusUpdate :
    ¬ ∀ as, (agentApi sampleAgentSite).Always AgentState.Enumerated (.initial 1000000) as := by
  intro h
  have hrow : (((agentApi sampleAgentSite).state (.initial 1000000)
      [sampleConnect, sampleStatusUpdate]).agents.row 1).map (fun r => r .status)
        = some (.text "napping") := by decide +kernel
  obtain ⟨r, hr, hstatus⟩ := Option.map_eq_some_iff.mp hrow
  obtain ⟨status, heq⟩ := h _ _ (List.prefix_refl _) 1 r hr
  have htext : "napping" = status.text := SqlValue.text.inj (hstatus.symm.trans heq)
  cases status <;> exact absurd htext (by decide)

/-! ## When an agent was last seen -/

/-- **The order of the values of a column**: nothing, numbers, texts. -/
def SqlValue.AtMost : SqlValue → SqlValue → Prop
  | .null, _ => True
  | .number m, .number n => m = n ∨ n.atLeast m = true
  | .number _, .text _ => True
  | .text s, .text t => s ≤ t
  | _, _ => False

/-- **A request does not see an agent earlier than it was seen before**: where it is a
heartbeat, a `PUT`, or takes over what is known by sessions. -/
def SeenForward (site : AgentSite) (s : AgentState) (a : AgentAction) : Prop :=
  let s := s.advance a
  match a.request with
  | .update body => ∀ i r assignments v, putAssignments site s body = some (i, r, assignments) →
    assigned site.sq assignments .last_seen = some v → (r .last_seen).AtMost v
  | .heartbeat id => ∀ i r, heartbeatRow site s (.heartbeat id) = some (i, r) →
    (r .last_seen).AtMost (.ofTime s.now)
  | .heartbeatReport id body => ∀ i r,
    heartbeatRow site s (.heartbeatReport id body) = some (i, r) →
    (r .last_seen).AtMost (.ofTime s.now)
  | .status stores => ∀ i r l, s.agents.row i = some r →
    lastLive (getAgentLiveStatuses site s.clock stores) r = some l →
    (r .last_seen).AtMost ((l.lastSeen site.rt).asInteger site.sq)
  | _ => True

section LastSeen

variable {site : AgentSite} {s : AgentState}

theorem SqlValue.AtMost.refl (v : SqlValue) : v.AtMost v := by
  cases v with
  | null => trivial
  | text s => exact String.le_refl s
  | number n => exact Or.inl rfl

theorem SqlValue.AtMost.trans {u v w : SqlValue} (h : u.AtMost v) (h' : v.AtMost w) :
    u.AtMost w := by
  cases u with
  | null => trivial
  | text s =>
    cases v with
    | text t =>
      cases w with
      | text t' => exact String.le_trans h h'
      | null | number _ => exact h'.elim
    | null | number _ => exact h.elim
  | number m =>
    cases v with
    | null => exact h.elim
    | text t =>
      cases w with
      | text t' => trivial
      | null | number _ => exact h'.elim
    | number n =>
      cases w with
      | null => exact h'.elim
      | text t => trivial
      | number k =>
        obtain rfl | h := h
        · exact h'
        · obtain rfl | h' := h'
          · exact Or.inr h
          · exact Or.inr (JsNumber.atLeast_trans h h')

theorem seenForward_iff (a : AgentAction) :
    (∀ i r v, s.agents.row i = some r →
        storedIn i .last_seen ((agentApi site).emits s a) = some v → (r .last_seen).AtMost v)
      ↔ SeenForward site s a := by
  obtain ⟨elapsed, request⟩ := a
  refine (storesOnly_iff (s := s.advance ⟨elapsed, request⟩) (c := .last_seen)
    (P := fun r v => (r .last_seen).AtMost v) (by decide) nofun request).trans ?_
  cases request with
  | update body => exact Iff.rfl
  | heartbeat id =>
    constructor
    · intro h i r hi
      exact h i r _ hi rfl
    · intro h i r v hi hv
      cases hv
      exact h i r hi
  | heartbeatReport id body =>
    constructor
    · intro h i r hi
      exact h i r _ hi rfl
    · intro h i r v hi hv
      cases hv
      exact h i r hi
  | status stores =>
    constructor
    · intro h i r l hr hlast
      exact h i r l _ hr hlast rfl
    · intro h i r l v hr hlast hv
      cases hv
      exact h i r l hr hlast
  | _ => exact Iff.rfl

/-- **A step does not see an agent earlier** exactly if what it stores is no earlier. -/
theorem lastSeen_next_iff (a : AgentAction) :
    Table.Follows (fun _ r r' => (r .last_seen).AtMost (r' .last_seen)) (fun _ _ => True)
        s.agents ((agentApi site).next s a).agents
      ↔ SeenForward site s a := by
  have hstores := agentApi_stores site s a
  have hfollows := hstores.follows .last_seen (by decide)
  rw [← seenForward_iff]
  constructor
  · intro hnext i r v hr hstored
    obtain ⟨r', hr', rfl⟩ := hstores.exists_row (by decide) hr hstored
    exact hnext.row_of_some hr hr'
  · intro hforward
    refine hfollows.mono (fun i r r' hr hseen => ?_) fun _ _ _ => trivial
    rw [hseen]
    cases hstored : storedIn i .last_seen ((agentApi site).step s a).2 with
    | none => exact .refl _
    | some v => exact hforward i r v hr hstored

end LastSeen

/-- **`last_seen` never moves backwards in a run** exactly if no request of it sees an agent
earlier than it was seen before. -/
theorem lastSeen_monotone_iff (site : AgentSite) (s₀ : AgentState) (as : List AgentAction) :
    (∀ p q, p <+: q → q <+: as → ∀ id r r',
        ((agentApi site).state s₀ p).agents.row id = some r →
        ((agentApi site).state s₀ q).agents.row id = some r' →
        (r .last_seen).AtMost (r' .last_seen))
      ↔ (agentApi site).EachStep (SeenForward site) s₀ as := by
  constructor
  · intro h p a hp
    refine lastSeen_next_iff a |>.mp ?_
    have hstores := (agentApi_stores site ((agentApi site).state s₀ p) a).follows .last_seen
      (by decide)
    refine ⟨hstores.next_le, fun {id r'} hr' => ?_⟩
    obtain ⟨r, hr, -⟩ | ⟨hle, -⟩ := hstores.row hr'
    · refine Or.inl ⟨r, hr, h p (p ++ [a]) (List.prefix_append p [a]) hp id r r' hr ?_⟩
      rw [Machine.state_concat]
      exact hr'
    · exact Or.inr ⟨hle, trivial⟩
  · intro h p q hpq hq id r r' hr hr'
    have hsteps : (agentApi site).EachStep (fun s a => Table.Follows
        (fun _ r r' => (r .last_seen).AtMost (r' .last_seen)) (fun _ _ => True) s.agents
        ((agentApi site).next s a).agents) s₀ as := fun p a hp =>
      (lastSeen_next_iff a).mpr (h p a hp)
    exact (hsteps.follows _ AgentState.agents (fun _ _ => .refl _)
      (fun _ _ _ _ => .trans) hpq hq).row_of_some hr hr'

/-- A heartbeat. -/
def sampleHeartbeat : AgentAction := ⟨0, .heartbeat "bot"⟩

/-- The status page, where a session of the agent was updated a minute before. -/
def sampleStatus : AgentAction :=
  ⟨0, .status [("bot", some (.obj [("main", .obj [("updatedAt", .num (.finite 940000))])]))]⟩

/-- **The status page sets `last_seen` back** to the time of a session. -/
theorem not_lastSeen_monotone_sampleStatus :
    ¬ ∀ as p q, p <+: q → q <+: as → ∀ id r r',
      ((agentApi sampleAgentSite).state (.initial 1000000) p).agents.row id = some r →
      ((agentApi sampleAgentSite).state (.initial 1000000) q).agents.row id = some r' →
      (r .last_seen).AtMost (r' .last_seen) := by
  intro h
  have hbefore : (((agentApi sampleAgentSite).state (.initial 1000000)
      [sampleConnect, sampleHeartbeat]).agents.row 1).map (fun r => r .last_seen)
        = some (.number (.finite 1000)) := by decide +kernel
  have hafter : (((agentApi sampleAgentSite).state (.initial 1000000)
      [sampleConnect, sampleHeartbeat, sampleStatus]).agents.row 1).map (fun r => r .last_seen)
        = some (.number (.finite 940)) := by decide +kernel
  obtain ⟨r, hr, hseen⟩ := Option.map_eq_some_iff.mp hbefore
  obtain ⟨r', hr', hseen'⟩ := Option.map_eq_some_iff.mp hafter
  have hle := h _ _ _ (List.prefix_append _ [sampleStatus]) (List.prefix_refl _) 1 r r' hr hr'
  rw [hseen, hseen'] at hle
  obtain heq | hle := hle
  · exact absurd heq (by decide)
  · exact absurd hle (by decide)

/-! ## Living agents -/

/-- **The rows hold what was stored last**, and nothing was stored of those to come. -/
def HoldsStored (es : List AgentEvent) (s : AgentState) : Prop :=
  (∀ id r, s.agents.row id = some r →
      r .last_seen = (storedIn id .last_seen es).getD .null)
    ∧ ∀ id c v, AgentEvent.stored id c v ∈ es → id < s.agents.next

/-- **No living agent is declared offline**: where a heartbeat check sets an agent to
`offline`, the agent has given no sign of life within the timeout. -/
def LivingKept (site : AgentSite) (es : List AgentEvent) (s : AgentState) (a : AgentAction) :
    Prop :=
  ∀ settings, a.request = .check settings →
    ∀ id, AgentEvent.markedOffline id ∈ (agentApi site).emits s a →
      ∀ t : ℕ, AgentEvent.alive id t ∈ es → (t : ℤ) < checkThreshold (s.advance a) settings

/-- **A heartbeat check finds the living agents seen**: of an agent that is not offline and
has given a sign of life within the timeout, what was stored last as `last_seen` is within
the timeout, too. -/
def LivingSeen (es : List AgentEvent) (s : AgentState) (a : AgentAction) : Prop :=
  ∀ settings, a.request = .check settings →
    ∀ id r, s.agents.row id = some r → r .status ≠ .text "offline" →
      (∃ t : ℕ, AgentEvent.alive id t ∈ es ∧ checkThreshold (s.advance a) settings ≤ t) →
      ((storedIn id .last_seen es).getD .null).isStale (checkThreshold (s.advance a) settings)
        = false

section Living

variable {site : AgentSite} {es : List AgentEvent} {s : AgentState}

theorem holdsStored_initial (clock : ℕ) : HoldsStored [] (.initial clock) :=
  ⟨(fun _ _ h => nomatch h), fun _ _ _ h => absurd h List.not_mem_nil⟩

/-- **Each step keeps the rows at what was stored last.** -/
theorem HoldsStored.next (h : HoldsStored es s) (a : AgentAction) :
    HoldsStored (es ++ (agentApi site).emits s a) ((agentApi site).next s a) := by
  have hstores := agentApi_stores site s a
  have hfollows := hstores.follows .last_seen (by decide)
  have hlt : ∀ {id c v}, AgentEvent.stored id c v ∈ (agentApi site).emits s a →
      id < s.agents.next := by
    intro id c v hmem
    obtain ⟨r, hr⟩ := Option.isSome_iff_exists.mp (hstores.isSome hmem).1
    exact s.agents.row_lt hr
  constructor
  · intro id r' hr'
    rw [storedIn_append]
    obtain ⟨r, hr, hseen⟩ | ⟨hle, hnew⟩ := hfollows.row hr'
    · rw [hseen, h.1 id r hr]
      show (storedIn id .last_seen ((agentApi site).emits s a)).getD _ = _
      cases storedIn id .last_seen ((agentApi site).emits s a) <;> rfl
    · have hle : s.agents.next ≤ id := hle
      rw [hnew.2, storedIn_eq_none fun v hv => absurd (hlt hv) (Nat.not_lt.mpr hle),
        storedIn_eq_none fun v hv => absurd (h.2 _ _ _ hv) (Nat.not_lt.mpr hle)]
      rfl
  · intro id c v hmem
    have hnext : s.agents.next ≤ ((agentApi site).next s a).agents.next := hfollows.next_le
    obtain hmem | hmem := List.mem_append.mp hmem
    · exact (h.2 id c v hmem).trans_le hnext
    · exact (hlt hmem).trans_le hnext

theorem markedOffline_mem_runHeartbeatCheck {settings : Settings} {id : ℕ} :
    AgentEvent.markedOffline id ∈ (runHeartbeatCheck site s settings).2
      ↔ ∃ r, (id, r) ∈ staleAgents s settings := by
  unfold runHeartbeatCheck
  dsimp only
  rw [List.mem_flatMap]
  constructor
  · rintro ⟨⟨i, r⟩, hstale, hmem⟩
    obtain hmem | hmem := List.mem_append.mp hmem
    · unfold storedEvents at hmem
      obtain ⟨c, -, hc⟩ := List.mem_filterMap.mp hmem
      obtain ⟨v, -, heq⟩ := Option.map_eq_some_iff.mp hc
      exact nomatch heq
    · obtain rfl := AgentEvent.markedOffline.inj (List.mem_singleton.mp hmem)
      exact ⟨r, hstale⟩
  · rintro ⟨r, hstale⟩
    exact ⟨(id, r), hstale, List.mem_append_right _ (List.mem_singleton.mpr rfl)⟩

theorem livingKept_iff_livingSeen (h : HoldsStored es s) (a : AgentAction) :
    LivingKept site es s a ↔ LivingSeen es s a := by
  obtain ⟨elapsed, request⟩ := a
  have hmarked : ∀ settings id, AgentEvent.markedOffline id
        ∈ (agentApi site).emits s ⟨elapsed, .check settings⟩
      ↔ ∃ r, s.agents.row id = some r ∧ r .status ≠ .text "offline"
        ∧ ((storedIn id .last_seen es).getD .null).isStale
          (checkThreshold (s.advance ⟨elapsed, .check settings⟩) settings) = true := by
    intro settings id
    refine markedOffline_mem_runHeartbeatCheck.trans (exists_congr fun r => ?_)
    refine mem_staleAgents.trans (and_congr_right fun hr => and_congr_right fun _ => ?_)
    rw [h.1 id r hr]
  constructor
  · rintro hkept settings heq id r hr hstatus ⟨t, halive, hle⟩
    cases heq
    rw [← Bool.not_eq_true]
    intro hstale
    exact absurd (hkept settings rfl id ((hmarked settings id).mpr ⟨r, hr, hstatus, hstale⟩) t
      halive) (not_lt.mpr hle)
  · intro hseen settings heq id hmem t halive
    cases heq
    obtain ⟨r, hr, hstatus, hstale⟩ := (hmarked settings id).mp hmem
    by_contra hlt
    have hfalse := hseen settings rfl id r hr hstatus ⟨t, halive, not_lt.mp hlt⟩
    exact Bool.false_ne_true (hfalse.symm.trans hstale)

end Living

/-- **No living agent is declared offline in a run** exactly if each heartbeat check of it
finds the living agents seen. -/
theorem livingKept_iff (site : AgentSite) (clock : ℕ) (as : List AgentAction) :
    (agentApi site).Throughout (LivingKept site) (.initial clock) as
      ↔ (agentApi site).Throughout LivingSeen (.initial clock) as :=
  (agentApi site).throughout_iff (holdsStored_initial clock) (fun _ _ a h _ => h.next a)
    (fun _ _ a h => livingKept_iff_livingSeen h a) as

/-- The agent and the time of a sign of life. -/
def AgentEvent.signOfLife : AgentEvent → Option (ℕ × ℕ)
  | .alive agent time => some (agent, time)
  | _ => none

/-- A heartbeat check a minute later, with the default of ten minutes. -/
def sampleHeartbeatCheck : AgentAction := ⟨60000, .check fun _ => none⟩

/-- **An agent that has just connected is declared offline**: no one has seen it yet. -/
theorem not_livingKept_sampleConnect :
    ¬ ∀ as, (agentApi sampleAgentSite).Throughout (LivingKept sampleAgentSite)
      (.initial 1000000) as := by
  intro h
  have hrow : (((agentApi sampleAgentSite).state (.initial 1000000)
      [sampleConnect]).agents.row 1).map (fun r => (r .status, r .last_seen))
        = some (.text "online", .null) := by decide +kernel
  have halive : ((agentApi sampleAgentSite).trace (.initial 1000000) [sampleConnect]).filterMap
      AgentEvent.signOfLife = [(1, 1000)] := by decide +kernel
  obtain ⟨r, hr, hlife⟩ := Option.map_eq_some_iff.mp hrow
  obtain ⟨hstatus, hseen⟩ := Prod.mk.inj hlife
  obtain ⟨e, he, hsign⟩ := List.mem_filterMap.mp (halive ▸ List.mem_singleton_self (1, 1000))
  obtain rfl : e = .alive 1 1000 := by
    cases e with
    | alive agent time =>
      obtain ⟨rfl, rfl⟩ := Prod.mk.inj (Option.some.inj hsign)
      rfl
    | _ => exact nomatch hsign
  have hlt := h _ [sampleConnect] sampleHeartbeatCheck (List.prefix_refl _) _ rfl 1
    (markedOffline_mem_runHeartbeatCheck.mpr ⟨r, mem_staleAgents.mpr ⟨hr, ?_, ?_⟩⟩) 1000 he
  · revert hlt
    decide +kernel
  · rw [hstatus]
    decide
  · rw [hseen]
    rfl

end MissionControl
