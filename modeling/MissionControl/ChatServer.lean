import MissionControl.Agents
import MissionControl.AuthRequests
import MissionControl.JsonRoundTrip
import MissionControl.ListQueries

/-!
# The chat on the server

`POST /api/chat/messages` stores a message, and forwards it to its agent if it is asked to: it waits
for the gateway to take the message and, in a conversation with the coordinator, for the run that
comes of it. Replies are stored and broadcast on the way; the message itself is broadcast at the
end. Requests wait beside each other, and messages are read meanwhile.

What a request does between two of its waits is a `ChatWork`: the server, with the events
emitted so far. Each handler is a function from one to the next, as the source has them,
and `ChatWork.Acts` says of any of them that it stores rows, broadcasts, waits and answers,
each by the operation of `ChatWork` for it, and does nothing else.
-/

namespace MissionControl

/-! ## Rows and requests -/

/-- A row of `messages`. -/
structure ChatRow where
  conversationId : String
  fromAgent : String
  toAgent : Option String
  content : String
  messageType : Option String
  metadata : Option String
  readAt : Option ℕ
  createdAt : ℕ
  deriving DecidableEq

/-- `ForwardInfo`; `attempted` is always set. -/
structure ForwardInfo where
  delivered : Bool
  reason : Option String
  session : Option Json
  runId : Option String

/-- What a command comes to: it resolves with what it has written, or rejects with an error that
holds what it has written, if there is a child at all. -/
inductive GatewayOutcome where
  | resolved (stdout : String)
  | rejected (stdout stderr : Option String)

/-- **A request that is under way**: it runs, or waits for the gateway to take its message, or for
the run that has come of it. -/
inductive ChatCall where
  | running (messageId : ℕ)
  | sending (messageId : ℕ) (conversation : Json) (sender : String)
    (sessionKey : Option Json) (openclawAgentId : Option String)
  | waiting (messageId : ℕ) (conversation sender : String) (forward : ForwardInfo)
    (runId : String)

def ChatCall.messageId : ChatCall → ℕ
  | running id => id
  | sending id _ _ _ _ => id
  | waiting id _ _ _ _ => id

/-- **The tables that the chat writes**, and the requests that are under way. -/
structure ChatServer where
  messages : Table ChatRow
  activities : Table Activity
  notifications : Table Notification
  requests : Table ChatCall

def ChatServer.initial : ChatServer := ⟨.empty, .empty, .empty, .empty⟩

inductive ChatResponse where
  | error (status : ℕ) (message : String)
  | created (id : ℕ) (row : ChatRow) (metadata : Option Json) (forward : Option ForwardInfo)
  | found (id : ℕ) (row : ChatRow) (metadata : Option Json)

/-- **What the server shows**: broadcasts, of the message of a request or of a reply to it, commands
and answers. -/
inductive ChatServerEvent where
  | activity (id : ℕ) (activity : Activity)
  | notification (id : ℕ) (notification : Notification)
  | message (request : ℕ) (isReply : Bool) (id : ℕ) (row : ChatRow) (metadata : Option Json)
  | command (request : ℕ) (args : List String)
  | answered (request : Option ℕ) (response : ChatResponse)

/-- The site: the runtime, the database and the environment. -/
structure ChatSite where
  rt : Runtime
  sq : Sqlite
  env : String → Option String

/-- A session of the gateway, as a message is forwarded to it. -/
structure ChatSession where
  agent : String
  key : String
  sessionId : Json

/-- **What a request finds**: its body, if it is JSON, the time in milliseconds, the agent that the
recipient names, and the sessions of the gateway. -/
structure ChatPost where
  auth : RoleAnswer
  body : Option Json
  now : ℕ
  agent : Option AgentRow
  sessions : List ChatSession

/-! ## The helpers of the route -/

section Helpers

variable (site : ChatSite)

def ChatSite.coordinatorAgent : String :=
  orElse (trim (orElse (orElse ((site.env "MC_COORDINATOR_AGENT").getD "")
    ((site.env "NEXT_PUBLIC_COORDINATOR_AGENT").getD "")) "coordinator")) "coordinator"

/-- The text from the first `{` to the last `}`. -/
def objectText (text : List Char) : Option (List Char) :=
  let front := text.dropWhile (· ≠ '\x7b')
  if '\x7d' ∈ front then some (front.rdropWhile (· ≠ '\x7d')) else none

/-- **`parseGatewayJson`.** -/
def parseGatewayJson (raw : String) : Option Json :=
  (objectText (trim raw).toList).bind (Json.parse site.rt)

/-- The first of some values that is a text and not blank, trimmed. -/
def firstText : List (Option Json) → Option String
  | [] => none
  | some (.str s) :: values => if trim s = "" then firstText values else some (trim s)
  | _ :: values => firstText values

/-- **`extractReplyText`.** -/
def extractReplyText (waitPayload : Option Json) : Option String :=
  let direct := ["text", "message", "response", "output", "result"].map (Json.get? waitPayload)
  match firstText direct with
  | some text => some text
  | none =>
    let output := Json.get? waitPayload "output"
    firstText (["text", "message", "content"].map (Json.get? output))

/-- `payload?.runId`, where it is a text and not empty. -/
def payloadRunId (payload : Option Json) : Option String :=
  match Json.get? payload "runId" with
  | some (.str runId) => if runId = "" then none else some runId
  | _ => none

/-- `payload?.error`, where it is a text. -/
def payloadError (payload : Option Json) : Option String :=
  match Json.get? payload "error" with
  | some (.str error) => some error
  | _ => none

def coordinatorConversation : Json → Option String
  | .str s => if "coord:".toList <+: s.toList then some s else none
  | _ => none

/-- `name.toLowerCase().replace(/\s+/g, '-')`. -/
def dashed (name : String) : String :=
  String.ofList (go false (site.rt.toLowerCase name).toList)
where
  /-- The rest of a text, behind a blank or not. -/
  go : Bool → List Char → List Char
    | _, [] => []
    | behind, c :: rest =>
      if isWhiteSpace c then (if behind then go true rest else '-' :: go true rest)
      else c :: go false rest

/-- A value of a row, where it counts as true. -/
def truthyColumn (v : SqlValue) : Option Json :=
  if Json.truthy (some v.json) then some v.json else none

/-- `sessionKey`, of the agent or of the first of its sessions. -/
def chatSessionKey (post : ChatPost) (recipient : String) : Option Json :=
  match post.agent.bind fun r => truthyColumn (r .session_key) with
  | some key => some key
  | none =>
    match post.sessions.find? fun s =>
        site.rt.toLowerCase s.agent = site.rt.toLowerCase recipient with
    | none => none
    | some s =>
      if s.key ≠ "" then some (.str s.key)
      else if Json.truthy (some s.sessionId) then some s.sessionId
      else none

/-- `openclawId` of the configuration of the agent. -/
def configuredOpenclawId (r : AgentRow) : Option String :=
  match r .config with
  | .text config =>
    match Json.get? (Json.parse site.rt config.toList) "openclawId" with
    | some (.str id) => if id = "" then none else some id
    | _ => none
  | _ => none

/-- `openclawAgentId`. -/
def chatOpenclawId (post : ChatPost) (recipient : String) : Option String :=
  match post.agent.bind (configuredOpenclawId site) with
  | some id => some id
  | none => if dashed site recipient = "" then none else some (dashed site recipient)

end Helpers

/-! ## Storing messages -/

/-- A value of a column that may be empty, as a text. -/
def columnText (sq : Sqlite) (v : SqlValue) : Option String :=
  match v.asText sq with
  | .text s => some s
  | _ => none

/-- `INSERT INTO messages`, of the values that are bound. -/
def messageOfValues (sq : Sqlite) (now : ℕ) : List SqlValue → Option ChatRow
  | [conversationId, sender, recipient, content, messageType, metadata] =>
    match columnText sq conversationId, columnText sq sender, columnText sq content with
    | some conversationId, some sender, some content =>
      some ⟨conversationId, sender, columnText sq recipient, content, columnText sq messageType,
        columnText sq metadata, none, now⟩
    | _, _, _ => none
  | _ => none

/-- **What a handler has done**: the tables, and what it has shown. -/
structure ChatWork where
  server : ChatServer
  events : List ChatServerEvent

namespace ChatWork

variable (site : ChatSite) (w : ChatWork)

def emit (e : ChatServerEvent) : ChatWork := { w with events := w.events ++ [e] }

def store (row : ChatRow) : ChatWork :=
  { w with server := { w.server with messages := w.server.messages.insert row } }

/-- `eventBus.broadcast('chat.message', …)`, of the row of an id. It throws where the metadata of
the row is no JSON. -/
def broadcastMessage (request : ℕ) (isReply : Bool) (id : ℕ) :
    ChatWork × Option (ChatRow × Option Json) :=
  match w.server.messages.row id with
  | none => (w, none)
  | some row =>
    match parseColumn site.rt row.metadata with
    | none => (w, none)
    | some metadata => (w.emit (.message request isReply id row metadata), some (row, metadata))

def replyRow (site : ChatSite) (now : ℕ) (conversationId toAgent content messageType : String)
    (metadata : Json) : ChatRow :=
  ⟨conversationId, site.coordinatorAgent, some toAgent, content, some messageType,
    some (jsonText site.rt metadata), none, now⟩

/-- **`createChatReply`**, and whether it has not thrown. -/
def createChatReply (request now : ℕ) (conversationId toAgent content messageType : String)
    (metadata : Json) : ChatWork × Bool :=
  let row := replyRow site now conversationId toAgent content messageType metadata
  let id := w.server.messages.next
  let (w, sent) := (w.store row).broadcastMessage site request true id
  (w, sent.isSome)

def answer (request : ℕ) (response : ChatResponse) : ChatWork :=
  { w with
    server := { w.server with requests := w.server.requests.deleteWhere fun r _ => r = request }
    events := w.events ++ [.answered (some request) response] }

/-- **The end of a request**: the message is broadcast, and the request is answered. -/
def finish (request messageId : ℕ) (forward : Option ForwardInfo) : ChatWork :=
  match w.broadcastMessage site request false messageId with
  | (w, none) => w.answer request (.error 500 "Failed to send message")
  | (w, some (row, metadata)) => w.answer request (.created messageId row metadata forward)

/-- **`runOpenClaw`**: the request waits for a command. -/
def suspend (request : ℕ) (call : ChatCall) (args : List String) : ChatWork where
  server := { w.server with requests := w.server.requests.update request fun _ => call }
  events := w.events ++ [.command request args]

end ChatWork

/-! ## The requests -/

section Handlers

variable (site : ChatSite)

/-- **What comes of the message at the gateway**: whether it was taken, and the run. -/
def forwardOutcome (sessionKey : Option Json) (openclawAgentId : Option String) :
    GatewayOutcome → ForwardInfo
  | .resolved stdout =>
    ⟨true, none, session, payloadRunId (parseGatewayJson site stdout)⟩
  | .rejected stdout _ =>
    let stdout := stdout.getD ""
    if includes stdout "\"status\": \"accepted\"" || includes stdout "\"status\":\"accepted\"" then
      ⟨true, none, session, payloadRunId (parseGatewayJson site stdout)⟩
    else ⟨false, some "gateway_send_failed", none, none⟩
where
  /-- `sessionKey || openclawAgentId || undefined`. -/
  session : Option Json := sessionKey.orElse fun _ => openclawAgentId.map .str

/-- The reply to a run: its text, its type and its status. -/
structure CompletionReply where
  content : String
  messageType : String
  status : String

/-- **The reply to what has come of a run**; none where it throws. -/
def completionReply (waitPayload : Option Json) : Option CompletionReply :=
  match (Json.or (Json.get? waitPayload "status") (.str "")).toStr site.rt with
  | .error _ => none
  | .ok status =>
    let waitStatus := site.rt.toLowerCase status
    if waitStatus = "error" then
      some ⟨"I received your message, but execution failed: "
        ++ (payloadError waitPayload).getD "Unknown runtime error", "status", "error"⟩
    else if waitStatus = "timeout" then
      some ⟨"I received your message and I am still processing it. "
        ++ "I will post results as soon as execution completes.",
        "status", "processing"⟩
    else match extractReplyText waitPayload with
      | some text => some ⟨text, "text", orElse waitStatus "completed"⟩
      | none =>
        some ⟨"Execution accepted and completed. "
          ++ "No textual response payload was returned by the runtime.",
          "status", orElse waitStatus "completed"⟩

/-- The reply where it could not be found out what has come of a run. -/
def unknownReply (stdout stderr : String) : CompletionReply :=
  let reason := (payloadError (parseGatewayJson site stdout)).getD
    (trim (orElse (orElse stderr stdout)
      "Unable to read completion status from coordinator runtime."))
  ⟨"I received your message, but I could not retrieve completion output yet: " ++ reason, "status",
    "unknown"⟩

def replyMetadata (status : String) (runId : Json) : Json :=
  .obj [("status", .str status), ("runId", runId)]

/-- **The end of a request that has waited for its run.** -/
def handleWait (w : ChatWork) (request now messageId : ℕ) (conversation sender : String)
    (forward : ForwardInfo) (runId : String) (outcome : GatewayOutcome) : ChatWork :=
  let reply (w : ChatWork) (r : CompletionReply) : ChatWork × Bool :=
    w.createChatReply site request now conversation sender r.content r.messageType
      (replyMetadata r.status (.str runId))
  let unknown (w : ChatWork) (stdout stderr : Option String) : ChatWork :=
    match reply w (unknownReply site (stdout.getD "") (stderr.getD "")) with
    | (w, true) => w.finish site request messageId (some forward)
    | (w, false) => w.answer request (.error 500 "Failed to send message")
  match outcome with
  | .resolved stdout =>
    match completionReply site (parseGatewayJson site stdout) with
    | none => unknown w none none
    | some r =>
      match reply w r with
      | (w, true) => w.finish site request messageId (some forward)
      | (w, false) => unknown w none none
  | .rejected stdout stderr => unknown w stdout stderr

/-- **A request that has waited for the gateway.** Replies that throw are left out. -/
def handleSent (w : ChatWork) (request now messageId : ℕ) (conversation : Json) (sender : String)
    (forward : ForwardInfo) : ChatWork :=
  match coordinatorConversation conversation with
  | none => w.finish site request messageId (some forward)
  | some c =>
    if forward.delivered then
      let (w, _) := w.createChatReply site request now c sender
        "Received. I am coordinating downstream agents now." "status"
        (replyMetadata "accepted" ((forward.runId.map Json.str).getD .null))
      match forward.runId with
      | some runId =>
        w.suspend request (.waiting messageId c sender forward runId)
          ["gateway", "call", "agent.wait", "--timeout", "8000", "--params",
            jsonText site.rt (.obj [("runId", .str runId), ("timeoutMs", .ofNat 6000)]), "--json"]
      | none => w.finish site request messageId (some forward)
    else
      let (w, _) := w.createChatReply site request now c sender
        ("I received your message, but delivery to the live coordinator runtime failed. "
          ++ "Please restart the coordinator/gateway session and retry.")
        "status" (.obj [("status", .str "delivery_failed"), ("reason", .str "gateway_send_failed")])
      w.finish site request messageId (some forward)

/-- The message of a request, and whom it is for. -/
structure ChatMessageFields where
  sender : String
  recipient : Option String
  content : String
  messageType : Json
  conversationId : Json
  metadata : Option Json
  forward : Bool

/-- `(x || '').trim()`. -/
def trimmedField (x : Option Json) : Except Exception String :=
  ((Json.or x (.str "")).asString).map trim

def readChatMessage (body : Json) (now : ℕ) : Except Exception ChatMessageFields := do
  let sender ← trimmedField (← Json.get (some body) "from")
  let target ← Json.get (some body) "to"
  let recipient ← if Json.truthy target then (trimmedField target).map some else .ok none
  let content ← trimmedField (← Json.get (some body) "content")
  let messageType := Json.or (← Json.get (some body) "message_type") (.str "text")
  let conversationId :=
    Json.or (← Json.get (some body) "conversation_id") (.str ("conv_" ++ now.repr))
  let metadata ← Json.get (some body) "metadata"
  let forward ← Json.get (some body) "forward"
  .ok ⟨sender, recipient, content, messageType, conversationId,
    if Json.truthy metadata then metadata else none, Json.truthy forward⟩

def chatActivity (m : ChatMessageFields) (messageType : String) (id now : ℕ) : Activity where
  type := "chat_message"
  entityType := "message"
  entityId := id
  actor := m.sender
  description := "Sent " ++ messageType ++ " message"
    ++ (match m.recipient with
      | some recipient => if recipient = "" then " (broadcast)" else " to " ++ recipient
      | none => " (broadcast)")
  data := some (.obj [("conversation_id", m.conversationId),
    ("to", (m.recipient.map Json.str).getD .null), ("message_type", m.messageType)])
  createdAt := now

def chatNotification (m : ChatMessageFields) (recipient : String) (id now : ℕ) : Notification :=
  ⟨recipient, "chat_message", "Message from " ++ m.sender,
    String.ofList (sliceUnits 200 m.content.toList)
      ++ (if 200 < utf16Length m.content then "..." else ""),
    some "message", some id, none, none, now⟩

/-- The command that hands a message to the gateway. -/
def sendArgs (m : ChatMessageFields) (id now : ℕ) (sessionKey : Option Json)
    (openclawAgentId : Option String) : List String :=
  ["gateway", "call", "agent", "--timeout", "10000", "--params",
    jsonText site.rt (.obj ([
      ("message", .str ("Message from " ++ m.sender ++ ": " ++ m.content)),
      ("idempotencyKey", .str ("mc-" ++ id.repr ++ "-" ++ now.repr)),
      ("deliver", .bool false)]
      ++ match sessionKey with
        | some key => [("sessionKey", key)]
        | none => [("agentId", (openclawAgentId.map Json.str).getD .null)])), "--json"]

/-- **Forwarding a message** to its recipient. -/
def forwardMessage (w : ChatWork) (post : ChatPost) (m : ChatMessageFields) (recipient : String)
    (request id : ℕ) : ChatWork :=
  let sessionKey := chatSessionKey site post recipient
  let openclawAgentId := chatOpenclawId site post recipient
  if sessionKey.isNone ∧ openclawAgentId.isNone then
    let w := match coordinatorConversation m.conversationId with
      | some c => (w.createChatReply site request (post.now / 1000) c m.sender
          ("I received your message, but my live coordinator session is offline right now. "
            ++ "Start/restore the coordinator session and retry.")
          "status" (.obj [("status", .str "offline"), ("reason", .str "no_active_session")])).1
      | none => w
    w.finish site request id (some ⟨false, some "no_active_session", none, none⟩)
  else
    w.suspend request (.sending id m.conversationId m.sender sessionKey openclawAgentId)
      (sendArgs site m id post.now sessionKey openclawAgentId)

/-- **What a message that is accepted writes and shows.** -/
def sendMessage (s : ChatServer) (post : ChatPost) (m : ChatMessageFields) (row : ChatRow) :
    ChatWork :=
  let id := s.messages.next
  let request := s.requests.next
  let now := post.now / 1000
  let w : ChatWork := ⟨{ s with
    messages := s.messages.insert row
    requests := s.requests.insert (.running id) }, []⟩
  match m.messageType.toStr site.rt with
  | .error _ => w.answer request (.error 500 "Failed to send message")
  | .ok messageType =>
    let activity := chatActivity m messageType id now
    let w : ChatWork := ⟨{ w.server with activities := s.activities.insert activity },
      w.events ++ [.activity s.activities.next activity]⟩
    match m.recipient.filter (· ≠ "") with
    | none => w.finish site request id none
    | some recipient =>
      let notification := chatNotification m recipient id now
      let w : ChatWork := ⟨{ w.server with notifications := s.notifications.insert notification },
        w.events ++ [.notification s.notifications.next notification]⟩
      if m.forward then forwardMessage site w post m recipient request id
      else w.finish site request id none

/-- **`POST /api/chat/messages`**, up to its first wait. -/
def postMessage (s : ChatServer) (post : ChatPost) : ChatWork :=
  let refuse (status : ℕ) (message : String) : ChatWork :=
    ⟨s, [.answered none (.error status message)]⟩
  match post.auth with
  | .refused error status => refuse status error
  | .user _ =>
    match post.body with
    | none => refuse 500 "Failed to send message"
    | some body =>
      match readChatMessage body post.now with
      | .error _ => refuse 500 "Failed to send message"
      | .ok m =>
        if m.sender = "" ∨ m.content = "" then refuse 400 "\"from\" and \"content\" are required"
        else
          match SqlValue.bindAll 6 [some m.conversationId, some (.str m.sender),
              m.recipient.map .str, some (.str m.content), some m.messageType,
              m.metadata.map fun j => .str (jsonText site.rt j)] with
          | .error _ => refuse 500 "Failed to send message"
          | .ok values =>
            match messageOfValues site.sq (post.now / 1000) values with
            | none => refuse 500 "Failed to send message"
            | some row => sendMessage site s post m row

/-- **`PATCH /api/chat/messages/[id]`.** -/
def patchMessage (s : ChatServer) (auth : RoleAnswer) (id : String) (body : Option Json)
    (now : ℕ) : ChatServer × ChatResponse :=
  match auth with
  | .refused error status => (s, .error status error)
  | .user _ =>
    match body with
    | none => (s, .error 500 "Failed to update message")
    | some body =>
      match (parseInt id).bind fun n =>
          if 0 ≤ n then (s.messages.row n.toNat).map (n.toNat, ·) else none with
      | none => (s, .error 404 "Message not found")
      | some (n, row) =>
        match Json.get (some body) "read" with
        | .error _ => (s, .error 500 "Failed to update message")
        | .ok read =>
          let row' := if Json.truthy read then { row with readAt := some now } else row
          let s := { s with messages := s.messages.update n fun _ => row' }
          match parseColumn site.rt row'.metadata with
          | none => (s, .error 500 "Failed to update message")
          | some metadata => (s, .found n row' metadata)

/-- **The command of a request has ended**, and the request goes on, if it has waited for one. -/
def commandEnded (s : ChatServer) (request : ℕ) (outcome : GatewayOutcome) (now : ℕ) : ChatWork :=
  match s.requests.row request with
  | some (.sending id conversation sender sessionKey openclawAgentId) =>
    handleSent site ⟨s, []⟩ request now id conversation sender
      (forwardOutcome site sessionKey openclawAgentId outcome)
  | some (.waiting id conversation sender forward runId) =>
    handleWait site ⟨s, []⟩ request now id conversation sender forward runId outcome
  | _ => ⟨s, []⟩

/-- What happens: a request comes, the command of a request that waits ends, or a message is
read. -/
inductive ChatServerAction where
  | post (post : ChatPost)
  | command (request : ℕ) (outcome : GatewayOutcome) (now : ℕ)
  | patch (auth : RoleAnswer) (id : String) (body : Option Json) (now : ℕ)

def chatWork (s : ChatServer) : ChatServerAction → ChatWork
  | .post post => postMessage site s post
  | .command request outcome now => commandEnded site s request outcome (now / 1000)
  | .patch auth id body now =>
    let r := patchMessage site s auth id body (now / 1000)
    ⟨r.1, [.answered none r.2]⟩

/-- **The chat of the server**, as a machine: the requests run up to where they wait, one after the
other. -/
def chatServer : Machine ChatServer ChatServerAction ChatServerEvent where
  step s a := ((chatWork site s a).server, (chatWork site s a).events)

end Handlers

/-! ## What the parts of a handler do -/

section Parts

variable {site : ChatSite} {w : ChatWork} {request id now : ℕ}

theorem parseColumn_jsonText {j : Json} (hj : Json.NumbersRead site.rt j.numbers) :
    parseColumn site.rt (some (jsonText site.rt j)) = some (some j.readBack) := by
  have hne : jsonText site.rt j ≠ "" := by
    intro h
    have hlength := Json.length_stringify_pos hj
    rw [show j.stringify site.rt = [] from by
      rw [← String.toList_ofList (l := j.stringify site.rt)]
      exact congrArg String.toList h] at hlength
    exact absurd hlength (Nat.lt_irrefl 0)
  unfold parseColumn
  rw [Option.getD_some, if_neg hne, show (jsonText site.rt j).toList = j.stringify site.rt from
    String.toList_ofList, Json.parse_stringify hj]
  rfl

theorem broadcastMessage_eq {row : ChatRow} {metadata : Option Json} (isReply : Bool)
    (hrow : w.server.messages.row id = some row)
    (hmetadata : parseColumn site.rt row.metadata = some metadata) :
    w.broadcastMessage site request isReply id
      = (w.emit (.message request isReply id row metadata), some (row, metadata)) := by
  unfold ChatWork.broadcastMessage
  rw [hrow]
  dsimp only
  rw [hmetadata]

/-- **A reply** is stored and broadcast: its metadata has no numbers, and is read back. -/
theorem createChatReply_eq {conversationId toAgent content messageType : String} {metadata : Json}
    (h : metadata.numbers = []) :
    w.createChatReply site request now conversationId toAgent content messageType metadata
      = ((w.store (ChatWork.replyRow site now conversationId toAgent content messageType
          metadata)).emit (.message request true w.server.messages.next
            (ChatWork.replyRow site now conversationId toAgent content messageType metadata)
            (some metadata.readBack)), true) := by
  have hnumbers : Json.NumbersRead site.rt metadata.numbers := by
    rw [h]
    exact fun q hq => absurd hq List.not_mem_nil
  unfold ChatWork.createChatReply
  dsimp only
  rw [broadcastMessage_eq true (Table.row_insert_next _ _) (parseColumn_jsonText hnumbers)]
  rfl

/-- **The end of a request** whose message is there and can be read. -/
theorem finish_eq {row : ChatRow} {metadata : Option Json} {forward : Option ForwardInfo}
    (hrow : w.server.messages.row id = some row)
    (hmetadata : parseColumn site.rt row.metadata = some metadata) :
    w.finish site request id forward
      = (w.emit (.message request false id row metadata)).answer request
          (.created id row metadata forward) := by
  unfold ChatWork.finish
  rw [broadcastMessage_eq false hrow hmetadata]

theorem readBack_replyMetadata (status : String) (runId : Option String) :
    (replyMetadata status ((runId.map Json.str).getD .null)).readBack
      = replyMetadata status ((runId.map Json.str).getD .null) := by
  cases runId <;> rfl

theorem numbers_replyMetadata (status : String) (runId : Option String) :
    (replyMetadata status ((runId.map Json.str).getD .null)).numbers = [] := by
  cases runId <;> rfl

end Parts

/-! ## What a handler can do -/

/-- **What a handler does for its request**, step by step. -/
inductive ChatWork.Acts (request : ℕ) (w : ChatWork) : ChatWork → Prop
  | refl : Acts request w w
  | store {w' : ChatWork} (h : Acts request w w') (row : ChatRow) : Acts request w (w'.store row)
  | send {w' : ChatWork} (h : Acts request w w') (isReply : Bool) (id : ℕ) (row : ChatRow)
      (metadata : Option Json) :
      Acts request w (w'.emit (.message request isReply id row metadata))
  | suspend {w' : ChatWork} (h : Acts request w w') (call : ChatCall) (args : List String) :
      Acts request w (w'.suspend request call args)
  | answer {w' : ChatWork} (h : Acts request w w') (response : ChatResponse) :
      Acts request w (w'.answer request response)

section Acts

variable {site : ChatSite} {w w' : ChatWork} {request id now : ℕ}

namespace ChatWork.Acts

theorem broadcastMessage (h : w.Acts request w') (site : ChatSite) (isReply : Bool) (id : ℕ) :
    w.Acts request (w'.broadcastMessage site request isReply id).1 := by
  unfold ChatWork.broadcastMessage
  split
  · exact h
  split
  · exact h
  · exact h.send _ _ _ _

theorem createChatReply (h : w.Acts request w')
    (conversationId toAgent content messageType : String) (metadata : Json) :
    w.Acts request (w'.createChatReply site request now conversationId toAgent content messageType
      metadata).1 :=
  (h.store _).broadcastMessage site true _

theorem finish (h : w.Acts request w') (forward : Option ForwardInfo) :
    w.Acts request (w'.finish site request id forward) := by
  have hsent := h.broadcastMessage site false id
  unfold ChatWork.finish
  split
  · next heq =>
    rw [heq] at hsent
    exact hsent.answer _
  · next heq =>
    rw [heq] at hsent
    exact hsent.answer _

end ChatWork.Acts

theorem acts_handleSent (conversation : Json) (sender : String) (forward : ForwardInfo) :
    w.Acts request (handleSent site w request now id conversation sender forward) := by
  unfold handleSent
  split
  · exact ChatWork.Acts.refl.finish _
  split
  · dsimp only
    split
    · exact (ChatWork.Acts.refl.createChatReply _ _ _ _ _).suspend _ _
    · exact (ChatWork.Acts.refl.createChatReply _ _ _ _ _).finish _
  · exact (ChatWork.Acts.refl.createChatReply _ _ _ _ _).finish _

theorem acts_handleWait (conversation sender : String) (forward : ForwardInfo) (runId : String)
    (outcome : GatewayOutcome) :
    w.Acts request
      (handleWait site w request now id conversation sender forward runId outcome) := by
  have hreply : ∀ {w' : ChatWork} (_ : w.Acts request w') (c : CompletionReply),
      w.Acts request (w'.createChatReply site request now conversation sender c.content
        c.messageType (replyMetadata c.status (.str runId))).1 :=
    fun h c => h.createChatReply _ _ _ _ _
  have hunknown : ∀ {w' : ChatWork} (_ : w.Acts request w') (stdout stderr : String),
      w.Acts request (match w'.createChatReply site request now conversation sender
          (unknownReply site stdout stderr).content (unknownReply site stdout stderr).messageType
          (replyMetadata (unknownReply site stdout stderr).status (.str runId)) with
        | (w, true) => w.finish site request id (some forward)
        | (w, false) => w.answer request (.error 500 "Failed to send message")) := by
    intro w' h stdout stderr
    have hsaid := hreply h (unknownReply site stdout stderr)
    split
    · next heq =>
      rw [heq] at hsaid
      exact hsaid.finish _
    · next heq =>
      rw [heq] at hsaid
      exact hsaid.answer _
  unfold handleWait
  dsimp only
  split
  · split
    · exact hunknown .refl _ _
    · next c _ =>
      have hsaid := hreply (ChatWork.Acts.refl (w := w)) c
      split
      · next heq =>
        rw [heq] at hsaid
        exact hsaid.finish _
      · next heq =>
        rw [heq] at hsaid
        exact hunknown hsaid _ _
  · exact hunknown .refl _ _

theorem acts_forwardMessage (post : ChatPost) (m : ChatMessageFields) (recipient : String) :
    w.Acts request (forwardMessage site w post m recipient request id) := by
  unfold forwardMessage
  dsimp only
  split
  · split
    · exact (ChatWork.Acts.refl.createChatReply _ _ _ _ _).finish _
    · exact ChatWork.Acts.refl.finish _
  · exact ChatWork.Acts.refl.suspend _ _

/-- **A message that is accepted**: it is stored, a request is opened, and the handler acts for
it. -/
theorem acts_sendMessage (site : ChatSite) (s : ChatServer) (post : ChatPost)
    (m : ChatMessageFields) (row : ChatRow) :
    ∃ activities notifications events, (∀ e ∈ events, ∃ id, (∃ a, e = .activity id a)
        ∨ ∃ n, e = .notification id n)
      ∧ ChatWork.Acts s.requests.next ⟨⟨s.messages.insert row, activities, notifications,
          s.requests.insert (.running s.messages.next)⟩, events⟩
          (sendMessage site s post m row) := by
  unfold sendMessage
  dsimp only
  split
  · exact ⟨_, _, [], fun e he => absurd he List.not_mem_nil, ChatWork.Acts.refl.answer _⟩
  split
  · exact ⟨_, _, [_], by simp, ChatWork.Acts.refl.finish _⟩
  split
  · exact ⟨_, _, [_, _], by simp, acts_forwardMessage _ _ _⟩
  · exact ⟨_, _, [_, _], by simp, ChatWork.Acts.refl.finish _⟩

/-- **What a message that comes does**: it is refused, or opens a request. -/
theorem postMessage_cases (site : ChatSite) (s : ChatServer) (post : ChatPost) :
    (∃ response, postMessage site s post = ⟨s, [.answered none response]⟩)
      ∨ ∃ body m row, post.body = some body ∧ readChatMessage body post.now = .ok m
          ∧ postMessage site s post = sendMessage site s post m row := by
  unfold postMessage
  dsimp only
  split
  · exact .inl ⟨_, rfl⟩
  split
  · exact .inl ⟨_, rfl⟩
  next body hbody =>
  split
  · exact .inl ⟨_, rfl⟩
  next m hm =>
  split
  · exact .inl ⟨_, rfl⟩
  split
  · exact .inl ⟨_, rfl⟩
  split
  · exact .inl ⟨_, rfl⟩
  · exact .inr ⟨body, m, _, hbody, hm, rfl⟩

theorem acts_commandEnded (site : ChatSite) (s : ChatServer) (request : ℕ)
    (outcome : GatewayOutcome) (now : ℕ) :
    ChatWork.Acts request ⟨s, []⟩ (commandEnded site s request outcome now) := by
  unfold commandEnded
  split
  · exact acts_handleSent _ _ _
  · exact acts_handleWait _ _ _ _ _
  · exact .refl

/-- **A message that is read** is the only one that is written, and only when it was read
changes. -/
theorem patchMessage_cases (site : ChatSite) (s : ChatServer) (auth : RoleAnswer)
    (idText : String) (body : Option Json) (now : ℕ) :
    (patchMessage site s auth idText body now).1 = s
      ∨ ∃ n row readAt, s.messages.row n = some row
          ∧ (patchMessage site s auth idText body now).1
            = { s with messages := s.messages.update n fun _ => { row with readAt } } := by
  unfold patchMessage
  split
  · exact .inl rfl
  split
  · exact .inl rfl
  split
  · exact .inl rfl
  next n row hfound =>
  split
  · exact .inl rfl
  next read _ =>
  have hrow : s.messages.row n = some row := by
    obtain ⟨z, -, hz⟩ := Option.bind_eq_some_iff.mp hfound
    split at hz
    · obtain ⟨row', hrow', heq⟩ := Option.map_eq_some_iff.mp hz
      obtain ⟨rfl, rfl⟩ := Prod.mk.inj heq
      exact hrow'
    · cases hz
  refine .inr ⟨n, row, if Json.truthy read then some now else row.readAt, hrow, ?_⟩
  dsimp only
  by_cases hread : Json.truthy read = true
  · rw [if_pos hread, if_pos hread]
    split <;> rfl
  · rw [if_neg hread, if_neg hread]
    split <;> rfl

end Acts

end MissionControl
