import MissionControl.AgentsTable
import MissionControl.Heartbeat

/-!
# The agent of a path

The routes under `/api/agents/[id]` take the name of an agent or its id in the path, and
tell the two apart by the number that `Number` makes of it. It makes one of many names:
the agent whose name is `42` is not found by it, but the one with this id
(`not_findsAgent_sampleNumber`).

Not every segment comes to these routes. Beside `[id]` there are directories of their own,
and a path of a static segment goes to that one; a segment of dots is resolved in the URL
before there is a request. The heartbeat has no directory beside it, so only dots are kept
from it. `agentParam` and `heartbeatParam` are what is left for the dynamic segment.

A route finds an agent by its name exactly if the name comes to it, and is no number or the
id of the agent itself (`findsAgent_iff`). All the routes look the agent up in the same way, so
the proof is about the lookup (`lookupAgent_name_iff`), and each route is shown to touch the row
that was looked up and no other.
-/

namespace MissionControl

/-! ## The routes -/

/-- The directories beside `[id]` under `src/app/api/agents`. -/
def agentDirectories : List String := ["comms", "message", "sync"]

def dotSegments : List String := [".", ".."]

/-- **The parameter that `/api/agents/[id]` has** for a segment of the path. -/
def agentParam (segment : String) : Option String :=
  if segment ∈ agentDirectories ∨ segment ∈ dotSegments then none else some segment

/-- The parameter that `/api/agents/[id]/heartbeat` has. -/
def heartbeatParam (segment : String) : Option String :=
  if segment ∈ dotSegments then none else some segment

/-- The answer of `GET /api/agents/[id]`: the row, with its configuration parsed. -/
inductive GetAgentResponse where
  | error (status : ℕ) (message : String)
  | agent (id : ℕ) (r : AgentRow) (config : Json)

/-- The answer with the row that was found. -/
def answerAgent (site : AgentSite) (id : ℕ) (r : AgentRow) : GetAgentResponse :=
  match existingConfig site r with
  | .ok config => .agent id r config
  | .error _ => .error 500 "Failed to fetch agent"

/-- **`GET /api/agents/[id]`.** -/
def getAgent (site : AgentSite) (s : AgentState) (id : String) : GetAgentResponse :=
  match lookupAgent site s id with
  | none => .error 404 "Agent not found"
  | some (id, r) => answerAgent site id r

/-- Whether a request is answered that there is no such agent. -/
def NotFound (outcome : AgentOutcome) : Prop :=
  AgentEvent.answered (.error 404 "Agent not found") ∈ outcome.2

/-- **The handlers of `/api/agents/[id]` find this agent**, and no other: `GET` answers with its
row, `PUT` leaves every other row alone, and `DELETE` deletes this row only. -/
structure HandlersFind (site : AgentSite) (s : AgentState) (path : String) (id : ℕ)
    (r : AgentRow) : Prop where
  get : getAgent site s path = answerAgent site id r
  put : ∀ body written, ¬ NotFound (putAgent site s path body written)
    ∧ ∀ i ≠ id, (putAgent site s path body written).1.agents.row i = s.agents.row i
  delete : AgentEvent.deleted id ∈ (deleteAgent site s path).2
    ∧ ∀ i, (deleteAgent site s path).1.agents.row i = if i = id then none else s.agents.row i

/-- The heartbeat is that of this agent, and leaves every other row alone. -/
def HeartbeatOf (site : AgentSite) (s : AgentState) (path : String) (id : ℕ) : Prop :=
  AgentEvent.alive id s.now ∈ (getHeartbeat site s path).2
    ∧ ∀ i ≠ id, (getHeartbeat site s path).1.agents.row i = s.agents.row i

/-- **The routes find this agent by the segment**: it comes to the handlers, and they find it by
the parameter that they have. -/
structure FindsAgent (site : AgentSite) (s : AgentState) (segment : String) (id : ℕ)
    (r : AgentRow) : Prop where
  handlers : ∃ path, agentParam segment = some path ∧ HandlersFind site s path id r
  heartbeat : ∃ path, heartbeatParam segment = some path ∧ HeartbeatOf site s path id

theorem agentParam_eq_some {segment path : String} :
    agentParam segment = some path
      ↔ (segment ∉ agentDirectories ∧ segment ∉ dotSegments) ∧ path = segment := by
  unfold agentParam
  split
  · next h => exact iff_of_false nofun fun h' => h.elim h'.1.1 h'.1.2
  · next h =>
    rw [Option.some.injEq, eq_comm]
    exact ⟨fun heq => ⟨not_or.mp h, heq⟩, fun h => h.2⟩

section Routes

variable {site : AgentSite} {s : AgentState} {path : String} {id : ℕ} {r : AgentRow}

theorem row_putAgent (hfound : lookupAgent site s path = some (id, r)) (body : Option Json)
    (written : Bool) :
    ¬ NotFound (putAgent site s path body written)
      ∧ ∀ i ≠ id, (putAgent site s path body written).1.agents.row i = s.agents.row i := by
  have hrefused : ∀ text, ¬ NotFound (s.refuse 500 text)
      ∧ ∀ i ≠ id, (s.refuse 500 text).1.agents.row i = s.agents.row i := by
    intro text
    refine ⟨fun h => ?_, fun _ _ => rfl⟩
    cases List.mem_singleton.mp h
  unfold putAgent
  dsimp only
  split
  · exact hrefused _
  · split
    · exact hrefused _
    · rw [hfound]
      dsimp only
      split
      · exact hrefused _
      · split
        · exact hrefused _
        · split
          · exact hrefused _
          · next hupdate =>
            rw [updateAgent_eq_ok hupdate]
            refine ⟨fun h => ?_, fun i hi => Table.row_update_of_ne _ _ hi⟩
            rcases List.mem_append.mp h with h | h
            · split at h
              · cases List.mem_singleton.mp h
              · cases h
            · cases List.mem_singleton.mp h

theorem findByName_self (htable : IsAgentsTable site.sq s.agents)
    (hr : s.agents.row id = some r) {name : String} (hname : r .name = .text name) :
    findByName site.sq s.agents (.text name) = some (id, r) := by
  refine htable.findByName_eq_some.mpr ⟨hr, ?_⟩
  unfold AgentRow.isNamed
  rw [hname, decide_eq_true (show SqlValue.text name ≠ .null from nofun)]
  exact decide_eq_true rfl

theorem heartbeatOf_of_lookup (htable : IsAgentsTable site.sq s.agents)
    (hr : s.agents.row id = some r) {name : String} (hname : r .name = .text name)
    (hfound : lookupAgent site s path = some (id, r)) : HeartbeatOf site s path id := by
  unfold HeartbeatOf getHeartbeat updateAgentStatus
  rw [hfound]
  dsimp only
  rw [hname, findByName_self htable hr hname]
  refine ⟨?_, fun i hi => Table.row_update_of_ne _ _ hi⟩
  exact List.mem_append_left _ (List.mem_append_right _ List.mem_cons_self)

/-- **An agent that is found** by the lookup is found by all handlers. -/
theorem handlersFind_of_lookup (hfound : lookupAgent site s path = some (id, r)) :
    HandlersFind site s path id r where
  get := by
    unfold getAgent
    rw [hfound]
  put := row_putAgent hfound
  delete := by
    unfold deleteAgent
    rw [hfound]
    refine ⟨List.mem_cons_self, fun i => ?_⟩
    dsimp only [Table.deleteWhere]
    split
    · next h =>
      rw [decide_eq_true h]
      exact Option.filter_eq_none_iff.mpr fun _ _ => Bool.false_ne_true
    · next h =>
      rw [decide_eq_false h]
      cases s.agents.row i <;> rfl

theorem HandlersFind.lookup (h : HandlersFind site s path id r) :
    ∃ r', lookupAgent site s path = some (id, r') := by
  have hdeleted := h.delete.1
  unfold deleteAgent at hdeleted
  split at hdeleted
  · cases List.mem_singleton.mp hdeleted
  · next i r' hfound =>
    rcases List.mem_cons.mp hdeleted with heq | hdeleted
    · cases heq
      exact ⟨r', hfound⟩
    · cases List.mem_singleton.mp hdeleted

end Routes

/-! ## Names and numbers -/

/-- **The agent of a name is found** exactly if the name is no number, or the id of the
agent. -/
theorem lookupAgent_name_iff {site : AgentSite} {s : AgentState} {id : ℕ} {r : AgentRow}
    {name : String} (htable : IsAgentsTable site.sq s.agents) (hr : s.agents.row id = some r)
    (hname : r .name = .text name) :
    (∃ r', lookupAgent site s name = some (id, r'))
      ↔ site.rt.stringToNumber name = .nan ∨ site.rt.stringToNumber name = .finite id := by
  unfold lookupAgent
  cases hnumber : site.rt.stringToNumber name with
  | nan => exact iff_of_true ⟨r, findByName_self htable hr hname⟩ (.inl rfl)
  | infinity negative =>
    refine iff_of_false (fun ⟨_, h⟩ => (by cases h)) ?_
    rintro (h | h) <;> cases h
  | finite q =>
    dsimp only
    constructor
    · rintro ⟨r', h⟩
      obtain ⟨z, hz, h⟩ := Option.bind_eq_some_iff.mp h
      rw [JsNumber.integer_eq_some] at hz
      split at h
      · next hpos =>
        obtain ⟨r'', -, heq⟩ := Option.map_eq_some_iff.mp h
        refine .inr (hz.trans (congrArg JsNumber.finite ?_))
        rw [← (Prod.mk.inj heq).1]
        exact_mod_cast (Int.toNat_of_nonneg hpos).symm
      · cases h
    · rintro (h | h)
      · cases h
      · have hz : (JsNumber.finite q).integer = some (id : ℤ) :=
          JsNumber.integer_eq_some.mpr (by rw [h]; norm_cast)
        refine ⟨r, ?_⟩
        rw [hz, Option.bind_some, if_pos (Int.natCast_nonneg id), Int.toNat_natCast, hr]
        rfl

/-- **The routes find an agent by its name** exactly if the name comes to them, and `Number`
makes no number of it, or the id of the agent. -/
theorem findsAgent_iff (site : AgentSite) (s : AgentState) {id : ℕ} {r : AgentRow}
    {name : String} (htable : IsAgentsTable site.sq s.agents) (hr : s.agents.row id = some r)
    (hname : r .name = .text name) :
    FindsAgent site s name id r
      ↔ (name ∉ agentDirectories ∧ name ∉ dotSegments)
        ∧ (site.rt.stringToNumber name = .nan ∨ site.rt.stringToNumber name = .finite id) := by
  rw [← lookupAgent_name_iff htable hr hname]
  constructor
  · rintro ⟨⟨path, hpath, hfind⟩, -⟩
    obtain ⟨hcomes, rfl⟩ := agentParam_eq_some.mp hpath
    exact ⟨hcomes, hfind.lookup⟩
  · rintro ⟨hcomes, r', hfound⟩
    obtain rfl : r = r' := Option.some.inj (hr.symm.trans (lookupAgent_eq_some hfound))
    exact ⟨⟨name, agentParam_eq_some.mpr ⟨hcomes, rfl⟩, handlersFind_of_lookup hfound⟩,
      name, if_neg hcomes.2, heartbeatOf_of_lookup htable hr hname hfound⟩

/-! ## A name that is a number -/

/-- The first two agents: the second one is named `1`. -/
def sampleNumbered : AgentState :=
  (postAgent sampleAgentSite (sampleAgents "ada")
    (some (.obj [("name", .str "1"), ("role", .str "developer")]))).1

theorem isAgentsTable_postAgent {site : AgentSite} {s : AgentState}
    (h : IsAgentsTable site.sq s.agents) (body : Option Json) :
    IsAgentsTable site.sq (postAgent site s body).1.agents := by
  unfold postAgent
  split
  · exact h
  · split
    · exact h
    · split
      · exact h
      · split
        · exact h
        · next hinsert => exact h.of_insertAgent hinsert

theorem isAgentsTable_sampleAgents (name : String) :
    IsAgentsTable sampleAgentSite.sq (sampleAgents name).agents :=
  isAgentsTable_postAgent (.empty _) _

/-- The routes find the first agent by its name. -/
theorem findsAgent_sampleAda :
    ∃ r, (sampleAgents "ada").agents.row 1 = some r
      ∧ FindsAgent sampleAgentSite (sampleAgents "ada") "ada" 1 r := by
  have hname : ((sampleAgents "ada").agents.row 1).map (fun r => r .name)
      = some (.text "ada") := by decide +kernel
  obtain ⟨r, hr, hname⟩ := Option.map_eq_some_iff.mp hname
  exact ⟨r, hr, (findsAgent_iff sampleAgentSite (sampleAgents "ada")
    (isAgentsTable_sampleAgents "ada") hr hname).mpr
    ⟨by decide, .inl (by decide +kernel)⟩⟩

/-- **An agent named `1` is not found by its name**, but the first agent is. -/
theorem not_findsAgent_sampleNumber :
    ¬ ∀ (site : AgentSite) (s : AgentState) (id : ℕ) (r : AgentRow) (name : String),
      IsAgentsTable site.sq s.agents → s.agents.row id = some r → r .name = .text name →
        (∃ body input, validateBody createAgentSchema body = .ok input ∧ input.name = name) →
          FindsAgent site s name id r := by
  intro h
  have hname : (sampleNumbered.agents.row 2).map (fun r => r .name) = some (.text "1") := by
    decide +kernel
  obtain ⟨r, hr, hname⟩ := Option.map_eq_some_iff.mp hname
  have htable : IsAgentsTable sampleAgentSite.sq sampleNumbered.agents :=
    isAgentsTable_postAgent (isAgentsTable_sampleAgents "ada") _
  have haccepted : ∃ body input, validateBody createAgentSchema body = .ok input
      ∧ input.name = "1" :=
    ⟨some (.obj [("name", .str "1")]), _, rfl, rfl⟩
  obtain ⟨path, hpath, hfind⟩ := (h sampleAgentSite sampleNumbered 2 r "1" htable hr hname
    haccepted).handlers
  obtain ⟨-, rfl⟩ := agentParam_eq_some.mp hpath
  obtain ⟨r', hfound⟩ := hfind.lookup
  have hfirst : (lookupAgent sampleAgentSite sampleNumbered "1").map Prod.fst = some 1 := by
    decide +kernel
  rw [hfound] at hfirst
  exact absurd (Option.some.inj hfirst : 2 = 1) (by decide)

end MissionControl
