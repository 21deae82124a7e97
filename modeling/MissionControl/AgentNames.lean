import MissionControl.AgentRows

/-!
# The names of the agents

An agent keeps the name that it was created with: no request sets the column of a row that
is there (`agentApi_namesKept`).
-/

namespace MissionControl

/-- **No agent is renamed**: a row was there before with its name, or is new. -/
def NamesKept : Table AgentRow → Table AgentRow → Prop :=
  Table.Follows (fun _ r r' => r' .name = r .name) fun _ _ => True

section Names

variable {site : AgentSite} {s : AgentState} {agents : Table AgentRow} {sq : Sqlite}

theorem NamesKept.refl (agents : Table AgentRow) : NamesKept agents agents :=
  Table.Follows.refl fun _ _ _ => rfl

theorem NamesKept.trans {old mid new : Table AgentRow} (h : NamesKept old mid)
    (h' : NamesKept mid new) : NamesKept old new :=
  Table.Follows.trans (fun _ _ _ _ hname hname' => hname'.trans hname) (fun _ _ _ _ _ => trivial)
    h h'

theorem NamesKept.insert (agents : Table AgentRow) (r : AgentRow) :
    NamesKept agents (agents.insert r) := Table.Follows.insert (fun _ _ _ => rfl) trivial

theorem name_assign {assignments : List (AgentColumn × SqlValue)}
    (h : assigned sq assignments .name = none) (r : AgentRow) :
    r.assign sq assignments .name = r .name := by
  rw [AgentRow.assign_apply, h]
  rfl

theorem NamesKept.update {assignments : List (AgentColumn × SqlValue)}
    (h : assigned sq assignments .name = none) (id : ℕ) :
    NamesKept agents (agents.update id fun r => r.assign sq assignments) :=
  Table.Follows.update (fun _ _ _ _ => rfl) fun r _ => name_assign h r

theorem NamesKept.of_updateAgent {columns : List (AgentColumn × Option Json)} {key : Option Json}
    {assignments : List (AgentColumn × SqlValue)} {id : ℕ} {r : AgentRow}
    {agents' : Table AgentRow} (hname : AgentColumn.name ∉ columns.map Prod.fst)
    (hbind : bindAssignments columns key = .ok assignments)
    (hupdate : updateAgent sq agents id r assignments = .ok agents') :
    NamesKept agents agents' := by
  obtain ⟨values, rfl⟩ := bindAssignments_eq_ok hbind
  rw [updateAgent_eq_ok hupdate]
  exact .update (assigned_zip_eq_none hname) id

theorem NamesKept.of_insertAgent {columns : List (AgentColumn × Option Json)}
    {agents' : Table AgentRow} (h : insertAgent sq agents columns = .ok agents') :
    NamesKept agents agents' := by
  obtain ⟨values, -, rfl⟩ := insertAgent_eq_ok h
  exact .insert _ _

/-! ## The requests -/

theorem postAgent_namesKept (body : Option Json) :
    NamesKept s.agents (postAgent site s body).1.agents := by
  unfold postAgent
  split
  · exact .refl _
  · split
    · exact .refl _
    · split
      · exact .refl _
      · split
        · exact .refl _
        · next hinsert => exact .of_insertAgent hinsert

theorem name_notMem_updateColumns (body : Json) (now : ℕ) :
    AgentColumn.name ∉ (updateColumns site body now
      ++ [(AgentColumn.updated_at, some (Json.ofNat now))]).map Prod.fst := by
  have hsetIf : ∀ (c : AgentColumn) (x : Option Json),
      AgentColumn.name ∈ (setIf c x).map Prod.fst → c = .name := by
    intro c x hmem
    unfold setIf at hmem
    split at hmem
    · exact (List.mem_singleton.mp hmem).symm
    · cases hmem
  intro hmem
  unfold updateColumns at hmem
  simp only [List.map_append, List.mem_append] at hmem
  obtain ((((((hmem | hmem) | hmem) | hmem) | hmem) | hmem) | hmem) := hmem
  · split at hmem
    · revert hmem
      simp
    · cases hmem
  · cases hsetIf _ _ hmem
  · cases hsetIf _ _ hmem
  · cases hsetIf _ _ hmem
  · cases hsetIf _ _ hmem
  · cases hsetIf _ _ hmem
  · cases List.mem_singleton.mp hmem

theorem putAgentRow_namesKept (body : Json) (id : ℕ) (r : AgentRow) :
    NamesKept s.agents (putAgentRow site s body id r).1.agents := by
  unfold putAgentRow
  dsimp only
  split
  · exact .refl _
  · split
    · exact .refl _
    · next hbind =>
      split
      · exact .refl _
      · next hupdate =>
        exact .of_updateAgent (name_notMem_updateColumns body s.now) hbind hupdate

theorem putAgents_namesKept (body : Option Json) :
    NamesKept s.agents (putAgents site s body).1.agents := by
  unfold putAgents
  split
  · exact .refl _
  · split
    · exact .refl _
    · split
      · split
        · exact .refl _
        · split
          · exact .refl _
          · exact putAgentRow_namesKept _ _ _
      · exact .refl _

theorem putAgent_namesKept (id : String) (body : Option Json) (written : Bool) :
    NamesKept s.agents (putAgent site s id body written).1.agents := by
  unfold putAgent
  dsimp only
  split
  · exact .refl _
  · split
    · exact .refl _
    · split
      · exact .refl _
      · split
        · exact .refl _
        · split
          · exact .refl _
          · next hbind =>
            split
            · exact .refl _
            · next hupdate =>
              exact .of_updateAgent (notMem_configColumns _ _ _ (by decide)) hbind hupdate

theorem deleteAgent_namesKept (id : String) :
    NamesKept s.agents (deleteAgent site s id).1.agents := by
  unfold deleteAgent
  split
  · exact .refl _
  · exact Table.Follows.deleteWhere fun _ _ _ => rfl

theorem updateAgentStatus_namesKept (agentName : SqlValue) (status : String)
    (activity : Option String) :
    NamesKept s.agents (updateAgentStatus site s agentName status activity).1.agents := by
  unfold updateAgentStatus
  split
  · exact .refl _
  · exact .update rfl _

theorem getHeartbeat_namesKept (id : String) :
    NamesKept s.agents (getHeartbeat site s id).1.agents := by
  unfold getHeartbeat
  split
  · exact .refl _
  · exact updateAgentStatus_namesKept _ _ _

theorem postHeartbeat_namesKept (id : String) (body : Option Json) :
    NamesKept s.agents (postHeartbeat site s id body).1.agents := by
  unfold postHeartbeat
  dsimp only
  split
  · exact .refl _
  · split
    · exact .refl _
    · next connections _ =>
      split
      · exact .refl _
      · exact getHeartbeat_namesKept (s := { s with connections := connections }) id

theorem postConnect_namesKept (body : Option Json) (connectionId : String) :
    NamesKept s.agents (postConnect site s body connectionId).1.agents := by
  unfold postConnect
  split
  · exact .refl _
  · split
    · exact .refl _
    · next agents agent es hconnect =>
      have hagents : NamesKept s.agents agents := by
        unfold connectAgent at hconnect
        split at hconnect
        · cases hconnect
          exact .update rfl _
        · obtain ⟨agents', hinsert, hconnect⟩ := bind_eq_ok.mp hconnect
          cases hconnect
          exact .of_insertAgent hinsert
      dsimp only
      split
      · exact hagents
      · exact hagents

theorem deleteConnect_namesKept (body : Option Json) :
    NamesKept s.agents (deleteConnect site s body).1.agents := by
  obtain ⟨i, c, -, heq⟩ | ⟨response, heq⟩ := deleteConnect_cases site s body
  · rw [heq]
    unfold disconnectRow
    dsimp only
    split
    · exact .refl _
    · exact .update rfl _
  · rw [heq]
    exact .refl _

theorem runHeartbeatCheck_namesKept (settings : Settings) :
    NamesKept s.agents (runHeartbeatCheck site s settings).1.agents := by
  refine Table.Follows.updateAll fun id r _ => ?_
  split
  · exact name_assign rfl r
  · rfl

theorem syncAgent_namesKept {now : ℕ} {p p' : AgentSync} {agent : Json}
    (h : syncAgent site now p agent = .ok p') : NamesKept p.agents p'.agents := by
  obtain ⟨⟨name, role, config⟩, -, h⟩ := bind_eq_ok.mp h
  obtain ⟨values, -, h⟩ := bind_eq_ok.mp h
  split at h
  · split at h
    · obtain ⟨assignments, hbind, h⟩ := bind_eq_ok.mp h
      obtain ⟨agents, hupdate, h⟩ := bind_eq_ok.mp h
      cases h
      refine .of_updateAgent ?_ hbind hupdate
      show AgentColumn.name ∉ [AgentColumn.role, .config, .updated_at]
      decide
    · cases h
      exact .refl _
  · obtain ⟨agents, hinsert, h⟩ := bind_eq_ok.mp h
    cases h
    exact .of_insertAgent hinsert

theorem syncAgents_namesKept {now : ℕ} {list : List Json} {p p' : AgentSync}
    (h : syncAgents site now p list = .ok p') : NamesKept p.agents p'.agents := by
  induction list generalizing p with
  | nil =>
    cases h
    exact .refl _
  | cons agent list ih =>
    obtain ⟨p₁, hagent, h⟩ := bind_eq_ok.mp h
    exact (syncAgent_namesKept hagent).trans (ih h)

theorem syncAgentsFromConfig_namesKept (file : Option Json) :
    NamesKept s.agents (syncAgentsFromConfig site s file).1.agents := by
  unfold syncAgentsFromConfig
  split
  · exact .refl _
  · dsimp only
    split
    · exact .refl _
    · split
      · exact .refl _
      · split
        · exact .refl _
        · next hsync => exact syncAgents_namesKept hsync

theorem getStatus_namesKept (stores : List (String × Option Json)) :
    NamesKept s.agents (getStatus site s stores).1.agents := by
  unfold getStatus
  dsimp only
  refine ⟨Nat.le_of_eq (syncLive_next _ _).symm, fun {id r'} hr' => .inl ?_⟩
  have hr' := (syncLive_row _ _ _).symm.trans hr'
  obtain ⟨r, hr, rfl⟩ := Option.map_eq_some_iff.mp hr'
  exact ⟨r, hr, applyLive_name _ r⟩

end Names

/-- **No request renames an agent.** -/
theorem agentApi_namesKept (site : AgentSite) (s : AgentState) (a : AgentAction) :
    NamesKept s.agents ((agentApi site).next s a).agents := by
  show NamesKept (s.advance a).agents (a.request.run site (s.advance a)).1.agents
  generalize s.advance a = s
  cases a.request with
  | create body => exact postAgent_namesKept body
  | update body => exact putAgents_namesKept body
  | updateOne id body written => exact putAgent_namesKept id body written
  | delete id => exact deleteAgent_namesKept id
  | heartbeat id => exact getHeartbeat_namesKept id
  | heartbeatReport id body => exact postHeartbeat_namesKept id body
  | connect body connectionId => exact postConnect_namesKept body connectionId
  | disconnect body => exact deleteConnect_namesKept body
  | check settings => exact runHeartbeatCheck_namesKept settings
  | sync file => exact syncAgentsFromConfig_namesKept file
  | status stores => exact getStatus_namesKept stores

end MissionControl
