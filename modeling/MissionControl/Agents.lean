import MissionControl.Alerts
import MissionControl.Settings

/-!
# Agents and their connections

The rows of `agents` and of `direct_connections`, and the statements that the requests
write them with. A column of an agent may hold whatever a request has bound for it: only
the type affinity of the column and its constraints stand between a body and the row.

`last_seen` is written by heartbeats, by status updates and by the status page, and the
scheduler reads it to tell which agents are gone. What is written to it and to `status` is
emitted (`AgentEvent.stored`) beside the signs of life that agents have given
(`AgentEvent.alive`).
-/

namespace MissionControl

/-! ## Rows -/

/-- The columns of `agents`. -/
inductive AgentColumn where
  | name | role | session_key | soul_content | status | last_seen | last_activity
  | created_at | updated_at | config
  deriving DecidableEq

namespace AgentColumn

def key : AgentColumn → String
  | name => "name"
  | role => "role"
  | session_key => "session_key"
  | soul_content => "soul_content"
  | status => "status"
  | last_seen => "last_seen"
  | last_activity => "last_activity"
  | created_at => "created_at"
  | updated_at => "updated_at"
  | config => "config"

def required : List AgentColumn := [name, role, status, created_at, updated_at]

/-- The columns of which no two rows have the same value. -/
def unique : List AgentColumn := [name, session_key]

/-- The columns that tell of the life of an agent. -/
def watched : List AgentColumn := [status, last_seen]

/-- A value as the column keeps it: those of times are of type `INTEGER`, the others of
type `TEXT`. -/
def keep (sq : Sqlite) : AgentColumn → SqlValue → SqlValue
  | last_seen, v | created_at, v | updated_at, v => v.asInteger sq
  | _, v => v.asText sq

end AgentColumn

/-- A row of `agents`. -/
abbrev AgentRow := AgentColumn → SqlValue

namespace AgentRow

def blank : AgentRow
  | .status => .text "offline"
  | _ => .null

def assign (sq : Sqlite) (r : AgentRow) (assignments : List (AgentColumn × SqlValue)) :
    AgentRow :=
  assignments.foldl (fun r (c, v) => Function.update r c (c.keep sq v)) r

/-- The row of the name, as `WHERE name = ?` compares it. -/
def isNamed (sq : Sqlite) (name : SqlValue) (r : AgentRow) : Bool :=
  decide (name ≠ .null) && decide (r .name = name.asText sq)

end AgentRow

inductive ConnectionStatus where
  | connected | disconnected
  deriving DecidableEq

/-- A row of `direct_connections`. -/
@[ext] structure Connection where
  agentId : ℕ
  toolName : String
  toolVersion : Option String
  connectionId : String
  status : ConnectionStatus
  lastHeartbeat : ℕ
  metadata : Option String
  createdAt : ℕ
  updatedAt : ℕ

/-- **The agents, their connections, and the clock**, in milliseconds since 1970. -/
structure AgentState where
  agents : Table AgentRow
  connections : Table Connection
  clock : ℕ

namespace AgentState

def initial (clock : ℕ) : AgentState := ⟨.empty, .empty, clock⟩

/-- `Math.floor(Date.now() / 1000)`. -/
def now (s : AgentState) : ℕ := s.clock / 1000

end AgentState

/-! ## What is around the requests -/

/-- An agent template: its role, and the configuration that it builds of the overrides. -/
structure AgentTemplate where
  role : String
  buildAgentConfig : List (String × Json) → List (String × Json)

structure GatewaySession where
  agent : String
  updatedAt : Json

/-- **What is around the requests**: the runtime, the database, and the templates. The
order in which the sessions are sorted is left open: it is that of their updates where
these are numbers. -/
structure AgentSite where
  rt : Runtime
  sq : Sqlite
  getTemplate : String → Option AgentTemplate
  sortSessions : List GatewaySession → List GatewaySession
  /-- The text of an error of the runtime or the database. -/
  typeErrorText : String

inductive AgentResponse where
  | ok
  | refused (response : ApiResponse)
  /-- An error that is not caught: the framework answers with status 500. -/
  | thrown (e : Exception)

def AgentResponse.error (status : ℕ) (text : String) : AgentResponse :=
  .refused (.error status text)

/-- **What a request emits**: what it broadcasts, its answer, and what it says or stores of
the life of an agent. -/
inductive AgentEvent where
  /-- `agent.created`, with the agent. -/
  | created (agent : ℕ)
  /-- `agent.created`, of a config sync: there is no agent in it. -/
  | synced (synced created updated : ℕ)
  | updated (agent : ℕ)
  | statusChanged (agent : ℕ)
  | deleted (agent : ℕ)
  | connectionCreated (connection agent : ℕ)
  | connectionDisconnected (connection agent : ℕ)
  /-- The agent has connected, sent a heartbeat or had its status updated. -/
  | alive (agent time : ℕ)
  /-- The value has been stored in the column, which is one of those watched. -/
  | stored (agent : ℕ) (c : AgentColumn) (v : SqlValue)
  /-- The heartbeat check has set the agent to `offline`. -/
  | markedOffline (agent : ℕ)
  | answered (response : AgentResponse)

abbrev AgentOutcome := AgentState × List AgentEvent

namespace AgentState

def answer (s : AgentState) (response : AgentResponse) : AgentOutcome := (s, [.answered response])

/-- An answer with an error text, and nothing else. -/
def refuse (s : AgentState) (status : ℕ) (text : String) : AgentOutcome :=
  s.answer (.error status text)

end AgentState

/-! ## Statements -/

section Statements

variable (sq : Sqlite) (agents : Table AgentRow)

/-- `SELECT * FROM agents WHERE name = ?`. -/
def findByName (name : SqlValue) : Option (ℕ × AgentRow) := agents.first (AgentRow.isNamed sq name)

/-- The constraints on a row, which is stored under the id if there is one. -/
def checkAgent (id : Option ℕ) (r : AgentRow) : Except Exception Unit :=
  match AgentColumn.required.find? fun c => decide (r c = .null) with
  | some c => .error (.error ("NOT NULL constraint failed: agents." ++ c.key))
  | none =>
    match AgentColumn.unique.find? fun c => decide (r c ≠ .null)
        && agents.rows.any fun (id', r') => decide (some id' ≠ id) && decide (r' c = r c) with
    | some c => .error (.error ("UNIQUE constraint failed: agents." ++ c.key))
    | none => .ok ()

/-- `INSERT INTO agents (…) VALUES (…)`. -/
def insertAgent (columns : List (AgentColumn × Option Json)) :
    Except Exception (Table AgentRow) := do
  let values ← SqlValue.bindAll columns.length (columns.map Prod.snd)
  let r := AgentRow.blank.assign sq ((columns.map Prod.fst).zip values)
  checkAgent agents none r
  .ok (agents.insert r)

/-- The values that an `UPDATE … WHERE … = ?` sets. The last one that is bound tells the
row. -/
def bindAssignments (columns : List (AgentColumn × Option Json)) (key : Option Json) :
    Except Exception (List (AgentColumn × SqlValue)) := do
  let values ← SqlValue.bindAll (columns.length + 1) (columns.map Prod.snd ++ [key])
  .ok ((columns.map Prod.fst).zip values)

/-- `UPDATE agents SET …`, of the row of an id. -/
def updateAgent (id : ℕ) (r : AgentRow) (assignments : List (AgentColumn × SqlValue)) :
    Except Exception (Table AgentRow) := do
  checkAgent agents (some id) (r.assign sq assignments)
  .ok (agents.update id fun r => r.assign sq assignments)

/-- The value that is set for a column, as it is kept. -/
def assigned (assignments : List (AgentColumn × SqlValue)) (c : AgentColumn) :
    Option SqlValue :=
  (assignments.reverse.lookup c).map (c.keep sq)

/-- What is stored in the columns that are watched. -/
def storedEvents (id : ℕ) (assignments : List (AgentColumn × SqlValue)) : List AgentEvent :=
  AgentColumn.watched.filterMap fun c =>
    (assigned sq assignments c).map (AgentEvent.stored id c)

end Statements

/-! ## What the statements do -/

section Rows

variable {sq : Sqlite} {agents : Table AgentRow}

/-- **A row holds what is set last**, and what it held where nothing is set. -/
theorem AgentRow.assign_apply (r : AgentRow) (assignments : List (AgentColumn × SqlValue))
    (c : AgentColumn) : r.assign sq assignments c = (assigned sq assignments c).getD (r c) := by
  induction assignments using List.reverseRecOn with
  | nil => rfl
  | append_singleton assignments a ih =>
    have hstep : r.assign sq (assignments ++ [a])
        = Function.update (r.assign sq assignments) a.1 (a.1.keep sq a.2) := by
      unfold assign
      rw [List.foldl_append]
      rfl
    rw [hstep]
    unfold assigned
    rw [List.reverse_append, List.reverse_singleton, List.singleton_append, List.lookup_cons]
    by_cases hc : c = a.1
    · subst hc
      rw [Function.update_self, beq_self_eq_true]
      rfl
    · rw [Function.update_of_ne hc, beq_eq_false_iff_ne.mpr hc]
      exact ih

theorem findByName_eq_some {name : SqlValue} {id : ℕ} {r : AgentRow}
    (h : findByName sq agents name = some (id, r)) : agents.row id = some r :=
  (agents.first_eq_some.mp h).1

/-- **A row that is inserted.** -/
theorem insertAgent_eq_ok {columns : List (AgentColumn × Option Json)}
    {agents' : Table AgentRow} (h : insertAgent sq agents columns = .ok agents') :
    ∃ values, SqlValue.bindAll columns.length (columns.map Prod.snd) = .ok values
      ∧ agents' = agents.insert
        (AgentRow.blank.assign sq ((columns.map Prod.fst).zip values)) := by
  obtain ⟨values, hvalues, h⟩ := bind_eq_ok.mp h
  obtain ⟨_, -, h⟩ := bind_eq_ok.mp h
  exact ⟨values, hvalues, (Except.ok.inj h).symm⟩

/-- **A row that is updated.** -/
theorem updateAgent_eq_ok {id : ℕ} {r : AgentRow}
    {assignments : List (AgentColumn × SqlValue)} {agents' : Table AgentRow}
    (h : updateAgent sq agents id r assignments = .ok agents') :
    agents' = agents.update id fun r => r.assign sq assignments := by
  obtain ⟨_, -, h⟩ := bind_eq_ok.mp h
  exact (Except.ok.inj h).symm

end Rows

end MissionControl
