import MissionControl.Agents
import MissionControl.OpenclawConfig

/-!
# The requests for agents

What creates, updates and deletes agents, connects and disconnects them, takes their
heartbeats, and looks after them: the heartbeat check of the scheduler, the sync with
`openclaw.json`, and the status page, which derives a status from the session stores of
the agents. Each is one piece, as it awaits nothing between its statements.

A request emits what it has stored next to what it answers and broadcasts. The events are
no part of the source; they are how the modules above speak of a run without looking into
the requests again.
-/

namespace MissionControl

/-! ## Objects -/

/-- The own properties of a value, as `Object.entries` and a spread take them. -/
def Json.ownProperties : Json → List (String × Json)
  | .obj fields => fields
  | .arr elements => elements.zipIdx.map fun (x, i) => (toString i, x)
  | .str s => s.toList.zipIdx.map fun (c, i) => (toString i, .str (String.singleton c))
  | _ => []

/-- `{ ...target, ...source }`. -/
def spread (target source : List (String × Json)) : List (String × Json) :=
  source.foldl (fun fields (key, x) => Json.assign fields key x) target

/-- `z.boolean()`. -/
def Reader.boolean : Reader Bool := .ofType "boolean" fun | .bool b => some b | _ => none

/-! ## Creating -/

inductive AgentStatus where
  | online | offline | busy | idle | error
  deriving DecidableEq

def AgentStatus.text : AgentStatus → String
  | online => "online"
  | offline => "offline"
  | busy => "busy"
  | idle => "idle"
  | error => "error"

/-- **A parsed body** of `POST /api/agents`. -/
structure AgentFields where
  name : String
  role : Option String
  sessionKey : Option String
  soulContent : Option String
  status : AgentStatus
  config : List (String × Json)
  template : Option String
  gatewayConfig : Option (List (String × Json))
  writeToGateway : Option Bool

def Reader.fieldOptional {α : Type} (r : Reader α) : String → List (String × Json) →
    Checked (Option α) := (Schema.optional (.required r)).field

def createAgentSchema : Reader AgentFields :=
  .object fun fields =>
    ((((((((Checked.ap (.ok AgentFields.mk)
      (((Reader.string.minLength 1 (some "Name is required")).maxLength 100).field
        "name" fields)).ap
      (((Reader.string.minLength 1 (some "Role is required")).maxLength 100).fieldOptional
        "role" fields)).ap
      ((Reader.string.maxLength 200).fieldOptional "session_key" fields)).ap
      ((Reader.string.maxLength 50000).fieldOptional "soul_content" fields)).ap
      ((Reader.enum (options AgentStatus.text [.online, .offline, .busy, .idle, .error])).fieldOr
        .offline "status" fields)).ap
      (Reader.record.fieldOr [] "config" fields)).ap
      ((Reader.string.maxLength 100).fieldOptional "template" fields)).ap
      (Reader.record.fieldOptional "gateway_config" fields)).ap
      (Reader.boolean.fieldOptional "write_to_gateway" fields)

section Requests

variable (site : AgentSite) (s : AgentState)

/-- The role and the configuration that an agent is created with. -/
def resolveTemplate (input : AgentFields) : String × List (String × Json) :=
  let role := input.role.getD ""
  if input.template.getD "" ≠ "" then
    match site.getTemplate (input.template.getD "") with
    | some template =>
      (orElse role template.role,
        spread (template.buildAgentConfig (input.gatewayConfig.getD [])) input.config)
    | none => (role, input.config)
  else (role, spread input.config (input.gatewayConfig.getD []))

/-- What a `POST` inserts. -/
def createColumns (input : AgentFields) (now : ℕ) : List (AgentColumn × Option Json) :=
  let resolved := resolveTemplate site input
  [(.name, some (.str input.name)), (.role, some (.str resolved.1)),
    (.session_key, input.sessionKey.map .str), (.soul_content, input.soulContent.map .str),
    (.status, some (.str input.status.text)), (.created_at, some (.ofNat now)),
    (.updated_at, some (.ofNat now)), (.config, some (.str (jsonText site.rt (.obj resolved.2))))]

/-- **`POST /api/agents`**, up to the write to the configuration of the gateway. -/
def postAgent (body : Option Json) : AgentOutcome :=
  match validateBody createAgentSchema body with
  | .error response => s.answer (.refused response)
  | .ok input =>
    if (resolveTemplate site input).1 = "" then s.refuse 400 "Name and role are required"
    else
      match findByName site.sq s.agents (.text input.name) with
      | some _ => s.refuse 409 "Agent name already exists"
      | none =>
        match insertAgent site.sq s.agents (createColumns site input s.now) with
        | .error _ => s.refuse 500 "Failed to create agent"
        | .ok agents =>
          ({ s with agents := agents }, [.created s.agents.next, .answered .ok])

/-! ## Updating -/

/-- A column that is set if the body has a value for it. -/
def setIf (c : AgentColumn) (x : Option Json) : List (AgentColumn × Option Json) :=
  if x.isSome then [(c, x)] else []

/-- What a `PUT` sets besides the time. -/
def updateColumns (body : Json) (now : ℕ) : List (AgentColumn × Option Json) :=
  let get := Json.get? (some body)
  (if (get "status").isSome then
      [(.status, get "status"), (.last_seen, some (.ofNat now))]
    else [])
    ++ setIf .last_activity (get "last_activity")
    ++ setIf .config ((get "config").map fun config => .str (jsonText site.rt config))
    ++ setIf .session_key (get "session_key")
    ++ setIf .soul_content (get "soul_content")
    ++ setIf .role (get "role")

/-- Whether the log entry of a new status cannot be written: its text holds the status. -/
def logFails (r : AgentRow) (status : Option Json) : Bool :=
  match status with
  | some status => (match r .status with
      | .text old => !Json.equalsText (some status) old
      | _ => true)
    && (match status.toStr site.rt with
      | .ok _ => false
      | .error _ => true)
  | none => false

/-- **`PUT /api/agents`**, of the agent that was found. -/
def putAgentRow (body : Json) (id : ℕ) (r : AgentRow) : AgentOutcome :=
  let columns := updateColumns site body s.now
  if columns = [] then s.refuse 400 "No fields to update"
  else
    match bindAssignments (columns ++ [(.updated_at, some (.ofNat s.now))])
        (Json.get? (some body) "name") with
    | .error _ => s.refuse 500 "Failed to update agent"
    | .ok assignments =>
      match updateAgent site.sq s.agents id r assignments with
      | .error _ => s.refuse 500 "Failed to update agent"
      | .ok agents =>
        let status := Json.get? (some body) "status"
        ({ s with agents := agents },
          storedEvents site.sq id assignments
            ++ if logFails site r status then [.answered (.error 500 "Failed to update agent")]
              else (if status.isSome then [.alive id s.now] else [])
                ++ [.updated id, .answered .ok])

/-- **`PUT /api/agents`.** -/
def putAgents (body : Option Json) : AgentOutcome :=
  match body with
  | none => s.refuse 500 "Failed to update agent"
  | some body =>
    match Json.get (some body) "name" with
    | .error _ => s.refuse 500 "Failed to update agent"
    | .ok name =>
      if Json.truthy name then
        match SqlValue.bindAll 1 [name] with
        | .error _ => s.refuse 500 "Failed to update agent"
        | .ok values =>
          match findByName site.sq s.agents (values.headD .null) with
          | none => s.refuse 404 "Agent not found"
          | some (id, r) => putAgentRow site s body id r
      else s.refuse 400 "Agent name is required"

/-- The agent of a path: its name, or its id if that is a number. -/
def lookupAgent (id : String) : Option (ℕ × AgentRow) :=
  match site.rt.stringToNumber id with
  | .nan => findByName site.sq s.agents (.text id)
  | n => n.integer.bind fun z =>
    if 0 ≤ z then (s.agents.row z.toNat).map fun r => (z.toNat, r) else none

/-- The text of an error that is caught. -/
def AgentSite.message (site : AgentSite) (fallback : String) : Exception → String
  | .error message => orElse message fallback
  | .typeError => site.typeErrorText

/-- The configuration of a row, as it is parsed. -/
def existingConfig (r : AgentRow) : Except Exception Json :=
  match r .config with
  | .text t =>
    if t = "" then .ok (.obj [])
    else
      match Json.parse site.rt t.toList with
      | some j => .ok j
      | none => .error .typeError
  | _ => .ok (.obj [])

/-- What a `PUT` of one agent sets. -/
def configColumns (body : Json) (existing : Json) (now : ℕ) :
    List (AgentColumn × Option Json) :=
  let gatewayConfig := Json.get? (some body) "gateway_config"
  let config := match gatewayConfig with
    | some (.obj fields) => .obj (spread existing.ownProperties fields)
    | some (.arr elements) => .obj (spread existing.ownProperties (Json.arr elements).ownProperties)
    | _ => existing
  (.updated_at, some (.ofNat now)) :: setIf .role (Json.get? (some body) "role")
    ++ if Json.truthy gatewayConfig then [(.config, some (.str (jsonText site.rt config)))] else []

/-- **`PUT /api/agents/[id]`.** Where its write to the configuration of the gateway fails,
nothing is broadcast. -/
def putAgent (id : String) (body : Option Json) (written : Bool) : AgentOutcome :=
  let fails e := s.refuse 500 (site.message "Failed to update agent" e)
  match body with
  | none => fails .typeError
  | some body =>
    match Json.get (some body) "role" with
    | .error e => fails e
    | .ok _ =>
      match lookupAgent site s id with
      | none => s.refuse 404 "Agent not found"
      | some (id, r) =>
        match existingConfig site r with
        | .error e => fails e
        | .ok existing =>
          match bindAssignments (configColumns site body existing s.now) (some (.ofNat id)) with
          | .error e => fails e
          | .ok assignments =>
            match updateAgent site.sq s.agents id r assignments with
            | .error e => fails e
            | .ok agents =>
              ({ s with agents := agents },
                (if written then [.updated id] else []) ++ [.answered .ok])

/-- **`DELETE /api/agents/[id]`.** The connections of the agent go with it. -/
def deleteAgent (id : String) : AgentOutcome :=
  match lookupAgent site s id with
  | none => s.refuse 404 "Agent not found"
  | some (id, _) =>
    ({ s with
        agents := s.agents.deleteWhere fun i _ => i = id
        connections := s.connections.deleteWhere fun _ c => c.agentId = id },
      [.deleted id, .answered .ok])

/-! ## Heartbeats -/

/-- **`db_helpers.updateAgentStatus`.** -/
def updateAgentStatus (agentName : SqlValue) (status : String) (activity : Option String) :
    AgentOutcome :=
  match findByName site.sq s.agents agentName with
  | none => (s, [])
  | some (id, _) =>
    let assignments := [(.status, .text status), (.last_seen, .ofTime s.now),
      (.last_activity, .ofText activity), (.updated_at, .ofTime s.now)]
    ({ s with agents := s.agents.update id fun r => r.assign site.sq assignments },
      storedEvents site.sq id assignments ++ [.alive id s.now, .statusChanged id])

/-- **`GET /api/agents/[id]/heartbeat`.** -/
def getHeartbeat (id : String) : AgentOutcome :=
  match lookupAgent site s id with
  | none => s.refuse 404 "Agent not found"
  | some (_, r) =>
    let (s, es) := updateAgentStatus site s (r .name) "idle" (some "Heartbeat check")
    (s, es ++ [.answered .ok])

/-- The heartbeat of a connection, if the body names one. -/
def touchConnection (connectionId : Option Json) : Except Exception (Table Connection) :=
  if Json.truthy connectionId then do
    let values ← SqlValue.bindAll 4
      [some (.ofNat s.now), some (.ofNat s.now), connectionId, some (.str "connected")]
    .ok (s.connections.updateAll fun _ c =>
      if some (.text c.connectionId) = (values[2]?).map (·.asText site.sq)
          ∧ c.status = .connected then
        { c with lastHeartbeat := s.now, updatedAt := s.now }
      else c)
  else .ok s.connections

/-- The tokens that a heartbeat reports: whether they can be stored. -/
def reportTokens (id : String) (usage : Option Json) : Except Exception Unit :=
  let get := Json.get? usage
  let given x := match get x with
    | none | some .null => false
    | some _ => true
  if Json.truthy usage && Json.truthy (get "model") && given "inputTokens"
      && given "outputTokens" then
    match lookupAgent site s id with
    | none => .ok ()
    | some (_, r) => do
      let values ← SqlValue.bindAll 5 [get "model",
        some (.str ((r .name).toText site.rt ++ ":cli")), get "inputTokens", get "outputTokens",
        some (.ofNat s.now)]
      if values.any fun v => decide (v = .null) then
        .error (.error "NOT NULL constraint failed: token_usage")
      else .ok ()
  else .ok ()

/-- **`POST /api/agents/[id]/heartbeat`.** A body that is no JSON is as good as none. -/
def postHeartbeat (id : String) (body : Option Json) : AgentOutcome :=
  let body := body.getD (.obj [])
  match Json.get (some body) "connection_id" with
  | .error e => s.answer (.thrown e)
  | .ok connectionId =>
    match touchConnection site s connectionId with
    | .error e => s.answer (.thrown e)
    | .ok connections =>
      let s := { s with connections := connections }
      match reportTokens site s id (Json.get? (some body) "token_usage") with
      | .error e => s.answer (.thrown e)
      | .ok _ => getHeartbeat site s id

/-! ## Connections -/

/-- **A parsed body** of `POST /api/connect`. -/
structure ConnectFields where
  toolName : String
  toolVersion : Option String
  agentName : String
  agentRole : Option String
  metadata : Option (List (String × Json))

def connectSchema : Reader ConnectFields :=
  .object fun fields =>
    ((((Checked.ap (.ok ConnectFields.mk)
      (((Reader.string.minLength 1 (some "Tool name is required")).maxLength 100).field
        "tool_name" fields)).ap
      ((Reader.string.maxLength 50).fieldOptional "tool_version" fields)).ap
      (((Reader.string.minLength 1 (some "Agent name is required")).maxLength 100).field
        "agent_name" fields)).ap
      ((Reader.string.maxLength 100).fieldOptional "agent_role" fields)).ap
      (Reader.record.fieldOptional "metadata" fields)

def nonEmpty (s : Option String) : Option String := s.filter fun t => t ≠ ""

/-- The agent of a connection is found or created. -/
def connectAgent (input : ConnectFields) :
    Except Exception (Table AgentRow × ℕ × List AgentEvent) :=
  match findByName site.sq s.agents (.text input.agentName) with
  | some (id, _) =>
    let assignments := [(.status, .text "online"), (.updated_at, .ofTime s.now)]
    .ok (s.agents.update id fun r => r.assign site.sq assignments, id,
      storedEvents site.sq id assignments ++ [.statusChanged id])
  | none => do
    let agents ← insertAgent site.sq s.agents
      [(.name, some (.str input.agentName)),
        (.role, some (.str ((nonEmpty input.agentRole).getD "cli"))),
        (.status, some (.str "online")), (.created_at, some (.ofNat s.now)),
        (.updated_at, some (.ofNat s.now))]
    .ok (agents, s.agents.next, [.created s.agents.next])

/-- The connections of an agent are no longer connected. -/
def disconnectAll (connections : Table Connection) (agent now : ℕ) : Table Connection :=
  connections.updateAll fun _ c =>
    if c.agentId = agent ∧ c.status = .connected then
      { c with status := .disconnected, updatedAt := now }
    else c

/-- **`POST /api/connect`**, with the id that `randomUUID` gives. -/
def postConnect (body : Option Json) (connectionId : String) : AgentOutcome :=
  match validateBody connectSchema body with
  | .error response => s.answer (.refused response)
  | .ok input =>
    match connectAgent site s input with
    | .error e => s.answer (.thrown e)
    | .ok (agents, agent, es) =>
      let connections := disconnectAll s.connections agent s.now
      if connections.any fun c => c.connectionId = connectionId then
        (⟨agents, connections, s.clock⟩,
          es ++ [.answered (.thrown (.error
            "UNIQUE constraint failed: direct_connections.connection_id"))])
      else
        (⟨agents, connections.insert {
              agentId := agent
              toolName := input.toolName
              toolVersion := nonEmpty input.toolVersion
              connectionId
              status := .connected
              lastHeartbeat := s.now
              metadata := input.metadata.map fun fields => jsonText site.rt (.obj fields)
              createdAt := s.now
              updatedAt := s.now }, s.clock⟩,
          es ++ [.connectionCreated connections.next agent, .alive agent s.now,
            .answered .ok])

/-- The connection of an id, as `WHERE connection_id = ?` compares it. -/
def findConnection (connectionId : SqlValue) : Option (ℕ × Connection) :=
  s.connections.first fun c => decide (SqlValue.text c.connectionId = connectionId.asText site.sq)

/-- Whether an agent has a connection besides the one of an id. -/
def otherActive (connections : Table Connection) (agent : ℕ) (connectionId : String) : Bool :=
  connections.any fun c =>
    decide (c.agentId = agent) && decide (c.status = .connected)
      && decide (c.connectionId ≠ connectionId)

def offlineAssignments : List (AgentColumn × SqlValue) :=
  [(.status, .text "offline"), (.updated_at, .ofTime s.now)]

/-- **`DELETE /api/connect`**, of the connection that was found. -/
def disconnectRow (i : ℕ) (c : Connection) : AgentOutcome :=
  let connections := s.connections.update i fun c =>
    { c with status := .disconnected, updatedAt := s.now }
  let es := [.connectionDisconnected i c.agentId, .answered .ok]
  if otherActive connections c.agentId c.connectionId then
    ({ s with connections := connections }, es)
  else
    (⟨s.agents.update c.agentId fun r => r.assign site.sq (offlineAssignments s),
        connections, s.clock⟩,
      (match s.agents.row c.agentId with
        | some _ => storedEvents site.sq c.agentId (offlineAssignments s)
        | none => [])
        ++ es)

/-- **`DELETE /api/connect`.** -/
def deleteConnect (body : Option Json) : AgentOutcome :=
  match body with
  | none => s.refuse 400 "Invalid request body"
  | some body =>
    match Json.get (some body) "connection_id" with
    | .error e => s.answer (.thrown e)
    | .ok connectionId =>
      if Json.truthy connectionId then
        match SqlValue.bindAll 1 [connectionId] with
        | .error e => s.answer (.thrown e)
        | .ok values =>
          match findConnection site s (values.headD .null) with
          | none => s.refuse 404 "Connection not found"
          | some (i, c) => disconnectRow site s i c
      else s.refuse 400 "connection_id is required"

/-! ## The heartbeat check -/

/-- `last_seen IS NULL OR last_seen < ?`. A text is greater than every number. -/
def SqlValue.isStale (threshold : ℤ) : SqlValue → Bool
  | .null => true
  | .number n => n.lessThan (.finite threshold)
  | .text _ => false

/-- The time that an agent must have been seen since. -/
def checkThreshold (settings : Settings) : ℤ :=
  s.now - getSettingNumber settings "general.agent_timeout_minutes" 10 * 60

def staleAgents (settings : Settings) : List (ℕ × AgentRow) :=
  s.agents.rows.filter fun (_, r) =>
    decide (r .status ≠ .text "offline") && (r .last_seen).isStale (checkThreshold s settings)

/-- **`runHeartbeatCheck`.** -/
def runHeartbeatCheck (settings : Settings) : AgentOutcome :=
  let stale := staleAgents s settings
  ({ s with
      agents := s.agents.updateAll fun id r =>
        if stale.any fun (id', _) => decide (id' = id) then
          r.assign site.sq (offlineAssignments s)
        else r },
    stale.flatMap fun (id, _) =>
      storedEvents site.sq id (offlineAssignments s) ++ [.markedOffline id])

/-! ## The sync with the configuration -/

/-- What the rows of the configuration come to so far. -/
structure AgentSync where
  agents : Table AgentRow
  created : ℕ
  updated : ℕ

/-- `mapAgentToMC`: the name, the role and the text of the configuration. -/
def mapAgentToMC (agent : Json) : Except Exception (Option Json × Json × String) := do
  let identity ← Json.get (some agent) "identity"
  let get := Json.get? (some agent)
  let name := if Json.truthy (Json.get? identity "name") then Json.get? identity "name"
    else if Json.truthy (get "name") then get "name" else get "id"
  .ok (name, Json.or (Json.get? identity "theme") (.str "agent"),
    jsonText site.rt (.object [("openclawId", get "id"), ("model", get "model"),
      ("identity", identity), ("sandbox", get "sandbox"), ("tools", get "tools"),
      ("subagents", get "subagents"), ("memorySearch", get "memorySearch"),
      ("workspace", get "workspace"), ("agentDir", get "agentDir"),
      ("isDefault", some (Json.or (get "default") (.bool false)))]))

/-- Whether the row of an agent differs from what the configuration has. -/
def syncDiffers (r : AgentRow) (role : Json) (config : String) : Bool :=
  (match r .config with
    | .text t => orElse t "\x7b\x7d" ≠ config
    | _ => "\x7b\x7d" ≠ config)
  || (match r .role with
    | .text t => !Json.equalsText (some role) t
    | _ => true)

def syncAgent (now : ℕ) (p : AgentSync) (agent : Json) : Except Exception AgentSync := do
  let (name, role, config) ← mapAgentToMC site agent
  let values ← SqlValue.bindAll 1 [name]
  match findByName site.sq p.agents (values.headD .null) with
  | some (id, r) =>
    if syncDiffers r role config then do
      let assignments ← bindAssignments [(.role, some role), (.config, some (.str config)),
        (.updated_at, some (.ofNat now))] name
      let agents ← updateAgent site.sq p.agents id r assignments
      .ok { p with agents := agents, updated := p.updated + 1 }
    else .ok p
  | none =>
    let agents ← insertAgent site.sq p.agents [(.name, name), (.role, some role),
      (.created_at, some (.ofNat now)), (.updated_at, some (.ofNat now)),
      (.config, some (.str config))]
    .ok { p with agents := agents, created := p.created + 1 }

def syncAgents (now : ℕ) (p : AgentSync) : List Json → Except Exception AgentSync
  | [] => .ok p
  | agent :: agents => do
    let p ← syncAgent site now p agent
    syncAgents now p agents

/-- **`syncAgentsFromConfig`**, with what the file holds, if it holds JSON. -/
def syncAgentsFromConfig (file : Option Json) : AgentOutcome :=
  match file with
  | none => s.answer .ok
  | some parsed =>
    let list := Json.or (Json.get? (Json.get? (some parsed) "agents") "list") (.arr [])
    if Json.equalsNumber (Json.get? (some list) "length") 0 then s.answer .ok
    else
      match Json.iterate (some list) with
      | .error e => s.answer (.thrown e)
      | .ok agents =>
        match syncAgents site s.now ⟨s.agents, 0, 0⟩ agents with
        | .error e => s.answer (.thrown e)
        | .ok p =>
          ({ s with agents := p.agents },
            (if 0 < p.created ∨ 0 < p.updated then
              [.synced agents.length p.created p.updated] else [])
            ++ [.answered .ok])

/-! ## The status page -/

/-- The sessions of a store. Those behind an entry that cannot be read are left out. -/
def storeSessions (agent : String) : List Json → List GatewaySession
  | [] => []
  | entry :: entries =>
    match Json.get (some entry) "updatedAt" with
    | .error _ => []
    | .ok updatedAt =>
      let updatedAt := Json.or updatedAt (.num (.finite 0))
      match Json.toNumber site.rt (some updatedAt) with
      | .error _ => []
      | .ok _ => ⟨agent, updatedAt⟩ :: storeSessions agent entries

/-- `getAllGatewaySessions`, of the session stores, each with the name of its directory and
what it holds, if it holds JSON. -/
def getAllGatewaySessions (stores : List (String × Option Json)) : List GatewaySession :=
  site.sortSessions <| stores.flatMap fun (agent, content) =>
    match content with
    | none => []
    | some data => storeSessions site agent (data.ownProperties.map Prod.snd)

/-- A status that is derived from the sessions of an agent. -/
inductive LiveStatus where
  | active | idle | offline
  deriving DecidableEq

def LiveStatus.text : LiveStatus → String
  | active => "active"
  | idle => "idle"
  | offline => "offline"

/-- What is known of an agent by its sessions. -/
structure LiveAgent where
  name : String
  status : LiveStatus
  lastActivity : Json

/-- `now - n < limit`. -/
def ageBelow (clock limit : ℕ) : JsNumber → Bool
  | .nan => false
  | .infinity negative => !negative
  | .finite q => clock - q < limit

/-- A value as a number, which those of sessions have. -/
def Json.number (rt : Runtime) (x : Json) : JsNumber :=
  match Json.toNumber rt (some x) with
  | .ok n => n
  | .error _ => .nan

/-- The status of an agent by the last update of a session. -/
def liveStatus (clock : ℕ) (updatedAt : Json) : LiveStatus :=
  if ageBelow clock (5 * 60 * 1000) (updatedAt.number site.rt) then .active
  else if ageBelow clock (60 * 60 * 1000) (updatedAt.number site.rt) then .idle
  else .offline

/-- The text that a value is compared as, unless it is compared as a number. -/
def Json.comparedText (rt : Runtime) : Json → Option String
  | .str s => some s
  | .arr elements => ((Json.arr elements).toStr rt).toOption
  | .obj fields => ((Json.obj fields).toStr rt).toOption
  | _ => none

/-- `a > b`. -/
def Json.greater (rt : Runtime) (a b : Json) : Bool :=
  match a.comparedText rt, b.comparedText rt with
  | some x, some y => decide (y < x)
  | _, _ => (b.number rt).lessThan (a.number rt)

/-- A session among the agents so far: the latest one of an agent counts. -/
def liveStep (clock : ℕ) (live : List LiveAgent) (session : GatewaySession) : List LiveAgent :=
  let agent : LiveAgent :=
    ⟨session.agent, liveStatus site clock session.updatedAt, session.updatedAt⟩
  match live.find? fun l => l.name = session.agent with
  | none => live ++ [agent]
  | some existing =>
    if session.updatedAt.greater site.rt existing.lastActivity then
      live.map fun l => if l.name = session.agent then agent else l
    else live

def getAgentLiveStatuses (clock : ℕ) (stores : List (String × Option Json)) : List LiveAgent :=
  (getAllGatewaySessions site stores).foldl (liveStep site clock) []

/-- `Math.floor(lastActivity / 1000)`. -/
def LiveAgent.lastSeen (rt : Runtime) (l : LiveAgent) : SqlValue :=
  match l.lastActivity.number rt with
  | .finite q => .number (.finite (q / 1000).floor)
  | .infinity negative => .number (.infinity negative)
  | .nan => .null

/-- `WHERE LOWER(name) = LOWER(?) OR LOWER(REPLACE(name, ' ', '-')) = LOWER(?)`. -/
def LiveAgent.isOf (l : LiveAgent) (r : AgentRow) : Bool :=
  match r .name with
  | .text name => sqlLower name = sqlLower l.name
    || sqlLower (String.ofList (name.toList.map fun c => if c = ' ' then '-' else c))
      = sqlLower l.name
  | _ => false

def LiveAgent.assignments (l : LiveAgent) : List (AgentColumn × SqlValue) :=
  [(.status, .text l.status.text), (.last_seen, l.lastSeen site.rt),
    (.updated_at, .ofTime s.now)]

/-- The update of the rows of one agent. -/
def syncLiveAgent (l : LiveAgent) (agents : Table AgentRow) : Table AgentRow :=
  agents.updateAll fun _ r => if l.isOf r then r.assign site.sq (l.assignments site s) else r

/-- What is stored for the rows of one agent. -/
def syncLiveEvents (l : LiveAgent) (agents : Table AgentRow) : List AgentEvent :=
  (agents.rows.filter fun (_, r) => l.isOf r).flatMap fun (id, _) =>
    storedEvents site.sq id (l.assignments site s)

/-- **The status page**: the agents take over what is known by their sessions. -/
def getStatus (stores : List (String × Option Json)) : AgentOutcome :=
  let live := getAgentLiveStatuses site s.clock stores
  ({ s with agents := live.foldl (fun agents l => syncLiveAgent site s l agents) s.agents },
    live.flatMap (fun l => syncLiveEvents site s l s.agents) ++ [.answered .ok])

end Requests

/-! ## The machine -/

/-- **A request**, or a task of the scheduler. -/
inductive AgentRequest where
  | create (body : Option Json)
  | update (body : Option Json)
  | updateOne (id : String) (body : Option Json) (written : Bool)
  | delete (id : String)
  | heartbeat (id : String)
  | heartbeatReport (id : String) (body : Option Json)
  | connect (body : Option Json) (connectionId : String)
  | disconnect (body : Option Json)
  | check (settings : Settings)
  | sync (file : Option Json)
  | status (stores : List (String × Option Json))

/-- A request, and the milliseconds that have passed since the one before. -/
structure AgentAction where
  elapsed : ℕ
  request : AgentRequest

/-- What a request comes to, at the time of the state. -/
def AgentRequest.run (site : AgentSite) (s : AgentState) : AgentRequest → AgentOutcome
  | create body => postAgent site s body
  | update body => putAgents site s body
  | updateOne id body written => putAgent site s id body written
  | delete id => deleteAgent site s id
  | heartbeat id => getHeartbeat site s id
  | heartbeatReport id body => postHeartbeat site s id body
  | connect body connectionId => postConnect site s body connectionId
  | disconnect body => deleteConnect site s body
  | check settings => runHeartbeatCheck site s settings
  | sync file => syncAgentsFromConfig site s file
  | status stores => getStatus site s stores

def AgentState.advance (s : AgentState) (a : AgentAction) : AgentState :=
  { s with clock := s.clock + a.elapsed }

/-- **The requests for agents.** -/
def agentApi (site : AgentSite) : Machine AgentState AgentAction AgentEvent where
  step s a := a.request.run site (s.advance a)

/-- A site without templates, whose sessions stay in the order they are read in. -/
def sampleAgentSite : AgentSite := ⟨sampleRuntime, sampleSqlite, fun _ => none, id, ""⟩

end MissionControl
