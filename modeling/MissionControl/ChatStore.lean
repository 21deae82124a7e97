import MissionControl.Js
import MissionControl.Library.Machine
import MissionControl.Library.Records
import MissionControl.Library.Table

/-!
# The messages of the chat

The chat panel shows a message as soon as it is sent, under a temporary id below zero,
and replaces it by the message of the server when the response comes. The server sends
every message to all clients as well, before it responds: a message that comes this way
is added, unless one with its id is there.

A response replaces the message of its send without looking for the id it brings. So
where the message has come before the response – the order in which the server sends
them – the store then holds two messages with one id (`not_unique_sampleEcho`). It holds
no two exactly as long as every response that finds its message in the store brings an
id that is not there (`chatStore_unique_iff`). The response of a retry removes the
temporary message, and adds the other one only where it is not there.
-/

namespace MissionControl

/-! ## Messages -/

/-- `pendingStatus` of a message. -/
inductive PendingStatus where
  | sending | sent | failed
  deriving DecidableEq

structure ChatMessage where
  id : ℤ
  conversationId : String
  fromAgent : String
  toAgent : Option String
  content : String
  messageType : String
  metadata : Option Json
  readAt : Option ℕ
  createdAt : ℕ
  pendingStatus : Option PendingStatus

/-- **A message of the server**: a row of `messages`, whose id is automatic. -/
structure ServerMessage extends ChatMessage where
  id_pos : 0 < id
  notPending : pendingStatus = none

/-- The messages of one response: rows of one table. -/
structure MessageList where
  messages : List ServerMessage
  nodup : (messages.map fun m => m.id).Nodup

/-- `Conversation`, as far as messages change it. -/
structure Conversation where
  id : String
  lastMessage : Option ChatMessage
  updatedAt : ℕ

/-! ## The store -/

/-- **The store of the chat.** -/
structure ChatState where
  chatMessages : List ChatMessage
  conversations : List Conversation

/-- `slice(-500)`. -/
@[irreducible] def lastMessages (messages : List ChatMessage) : List ChatMessage :=
  messages.drop (messages.length - 500)

namespace ChatState

def setChatMessages (s : ChatState) (messages : List ChatMessage) : ChatState :=
  { s with chatMessages := lastMessages messages }

def addChatMessage (s : ChatState) (message : ChatMessage) : ChatState :=
  if 0 < message.id ∧ s.chatMessages.any (·.id = message.id) then s
  else
    { chatMessages := lastMessages (s.chatMessages ++ [message])
      conversations := s.conversations.map fun conv =>
        if conv.id = message.conversationId then
          { conv with lastMessage := some message, updatedAt := message.createdAt }
        else conv }

def replacePendingMessage (s : ChatState) (tempId : ℤ) (message : ChatMessage) : ChatState :=
  { s with
    chatMessages := Records.replace ChatMessage.id tempId
      { message with pendingStatus := some .sent } s.chatMessages }

/-- The updates are those of `pendingStatus`, the only ones made. -/
def updatePendingMessage (s : ChatState) (tempId : ℤ) (status : PendingStatus) : ChatState :=
  { s with
    chatMessages := Records.rewrite ChatMessage.id tempId
      (fun m => { m with pendingStatus := some status }) s.chatMessages }

def removePendingMessage (s : ChatState) (tempId : ℤ) : ChatState :=
  { s with chatMessages := Records.remove ChatMessage.id tempId s.chatMessages }

end ChatState

/-! ## Sending -/

/-- A character of a name behind `@`. -/
def isWordChar (c : Char) : Bool :=
  ('a' ≤ c && c ≤ 'z') || ('A' ≤ c && c ≤ 'Z') || ('0' ≤ c && c ≤ '9') || c = '_'

/-- `content.match(/^@(\w+)\s/)`: the name, and what is behind the match. -/
def mentionMatch (content : String) : Option (String × String) :=
  match content.toList with
  | '@' :: rest =>
    match rest.takeWhile isWordChar, rest.dropWhile isWordChar with
    | [], _ => none
    | _, [] => none
    | name, c :: clean =>
      if isWhiteSpace c then some (String.ofList name, String.ofList clean) else none
  | _ => none

/-- Whom a message is for: who is mentioned, or the agent of the conversation. -/
def recipientOf (activeConversation content : String) : Option String :=
  match mentionMatch content with
  | some (name, _) => some name
  | none =>
    if "agent_".toList <+: activeConversation.toList then
      some (String.ofList (activeConversation.toList.drop 6))
    else none

/-- A request that a client waits for: the temporary id of its message, and whether it
is sent again. -/
structure SendRequest where
  tempId : ℤ
  retry : Bool

/-- **A client**: the store, the last temporary id, and the requests that are out. -/
structure ChatClient where
  store : ChatState
  pendingId : ℤ
  requests : Table SendRequest

def ChatClient.initial : ChatClient := ⟨⟨[], []⟩, -1, .empty⟩

/-- How a request ends: a response that is `ok`, with the message of the server, one that
is not, or none. -/
inductive SendResponse where
  | ok (message : Option ServerMessage)
  | notOk
  | failed

/-- What happens to a client: a message is sent, sent again or removed after it has
failed, a response comes, or a message that the server sends to all, or the messages
of a conversation. -/
inductive ChatAction where
  | send (activeConversation : Option String) (content : String) (now : ℕ)
  | retry (id : ℤ)
  | dismiss (id : ℤ)
  | respond (i : ℕ) (response : SendResponse)
  | receive (message : ServerMessage) (now : ℕ)
  | load (messages : MessageList)

namespace ChatClient

/-- `handleSend`, up to the request. -/
def handleSend (c : ChatClient) (activeConversation content : String) (now : ℕ) :
    ChatClient where
  store := c.store.addChatMessage
    { id := c.pendingId - 1
      conversationId := activeConversation
      fromAgent := "human"
      toAgent := recipientOf activeConversation content
      content := ((mentionMatch content).map Prod.snd).getD content
      messageType := "text"
      metadata := none
      readAt := none
      createdAt := now
      pendingStatus := some .sending }
  pendingId := c.pendingId - 1
  requests := c.requests.insert ⟨c.pendingId - 1, false⟩

/-- Whether a message is shown as failed: it can be sent again, or removed. -/
def HasFailed (c : ChatClient) (id : ℤ) : Prop :=
  ∃ m ∈ c.store.chatMessages, m.id = id ∧ m.pendingStatus = some .failed

instance (c : ChatClient) (id : ℤ) : Decidable (c.HasFailed id) :=
  inferInstanceAs (Decidable (∃ m ∈ c.store.chatMessages, _ ∧ _))

/-- `handleSend` and `handleRetry`, from the response on. -/
def handleResponse (store : ChatState) (request : SendRequest) : SendResponse → ChatState
  | .ok none => store
  | .ok (some message) =>
    if request.retry then
      (store.removePendingMessage request.tempId).addChatMessage message.toChatMessage
    else store.replacePendingMessage request.tempId message.toChatMessage
  | .notOk => store.updatePendingMessage request.tempId .failed
  | .failed => store.updatePendingMessage request.tempId .failed

/-- `dispatch` of a `chat.message`. -/
def dispatchMessage (store : ChatState) (message : ServerMessage) (now : ℕ) : ChatState :=
  store.addChatMessage
    { message.toChatMessage with
      messageType := orElse message.messageType "text"
      createdAt := if message.createdAt = 0 then now else message.createdAt }

def act (c : ChatClient) : ChatAction → ChatClient
  | .send none _ _ => c
  | .send (some conversation) content now =>
    if conversation = "" then c else c.handleSend conversation content now
  | .retry id =>
    if c.HasFailed id then
      { c with
        store := c.store.updatePendingMessage id .sending
        requests := c.requests.insert ⟨id, true⟩ }
    else c
  | .dismiss id =>
    if c.HasFailed id then { c with store := c.store.removePendingMessage id } else c
  | .respond i response =>
    match c.requests.row i with
    | none => c
    | some request =>
      { c with
        store := handleResponse c.store request response
        requests := c.requests.deleteWhere fun j _ => j = i }
  | .receive message now => { c with store := dispatchMessage c.store message now }
  | .load messages =>
    { c with
      store := c.store.setChatMessages (messages.messages.map ServerMessage.toChatMessage) }

end ChatClient

/-- **The chat store of a client.** -/
def chatStore : Machine ChatClient ChatAction Empty where
  step c a := (c.act a, [])

/-! ## One message of an id -/

/-- How many messages of the store have an id. -/
def ChatState.count (s : ChatState) (id : ℤ) : ℕ :=
  Records.occurrences ChatMessage.id id s.chatMessages

/-- **No two messages have the same id of the server.** -/
def UniqueIds (c : ChatClient) : Prop := ∀ id, 0 < id → c.store.count id ≤ 1

/-- **A response brings what is not there**: where the message that a send has shown is
still in the store, no message has the id which the response brings. -/
def BringsNew (c : ChatClient) : ChatAction → Prop
  | .respond i (.ok (some message)) => ∀ request ∈ c.requests.row i,
      request.retry = false → 0 < c.store.count request.tempId → c.store.count message.id = 0
  | _ => True

/-- What is always so: the temporary ids are apart, and none is below the last one. -/
structure TempIds (c : ChatClient) : Prop where
  pendingId_neg : c.pendingId < 0
  once : ∀ id, id ≤ 0 → c.store.count id ≤ 1
  bound : ∀ id, id ≤ 0 → 0 < c.store.count id → c.pendingId ≤ id
  sends : ∀ i request, c.requests.row i = some request → request.retry = false →
    request.tempId < 0

section Store

variable {s : ChatState}

theorem count_lastMessages_le (messages : List ChatMessage) (id : ℤ) :
    Records.occurrences ChatMessage.id id (lastMessages messages)
      ≤ Records.occurrences ChatMessage.id id messages := by
  unfold lastMessages
  exact Records.occurrences_le (List.drop_sublist _ _) id

theorem count_addChatMessage_le (message : ChatMessage) (id : ℤ) :
    (s.addChatMessage message).count id
      ≤ s.count id + if message.id = id then 1 else 0 := by
  unfold ChatState.addChatMessage
  split
  · exact Nat.le_add_right _ _
  · have hlast := count_lastMessages_le (s.chatMessages ++ [message]) id
    rw [Records.occurrences_append, Records.occurrences_cons, Records.occurrences_nil,
      Nat.add_zero] at hlast
    exact hlast

/-- **Adding a message of the server** adds no second one of its id. -/
theorem count_addChatMessage_pos (message : ChatMessage) {id : ℤ} (hid : 0 < id)
    (h : s.count id ≤ 1) : (s.addChatMessage message).count id ≤ 1 := by
  by_cases hmessage : message.id = id
  · by_cases hthere : s.chatMessages.any (·.id = message.id)
    · rw [ChatState.addChatMessage, if_pos ⟨hmessage ▸ hid, hthere⟩]
      exact h
    · have hzero : s.count id = 0 := by
        refine Nat.eq_zero_of_not_pos fun hpos => hthere ?_
        obtain ⟨m, hm, hkey⟩ := Records.occurrences_pos_iff.mp hpos
        exact List.any_eq_true.mpr ⟨m, hm, decide_eq_true (hkey.trans hmessage.symm)⟩
      refine (count_addChatMessage_le message id).trans ?_
      rw [hzero, if_pos hmessage]
  · refine (count_addChatMessage_le message id).trans ?_
    rw [if_neg hmessage]
    exact h

theorem count_replacePendingMessage (tempId id : ℤ) (message : ChatMessage) :
    (s.replacePendingMessage tempId message).count id
      = (if message.id = id then s.count tempId else 0)
        + (if id = tempId then 0 else s.count id) :=
  Records.occurrences_replace _ _ _ _

theorem count_updatePendingMessage (tempId id : ℤ) (status : PendingStatus) :
    (s.updatePendingMessage tempId status).count id = s.count id :=
  @Records.occurrences_rewrite _ _ _ ChatMessage.id
    (fun m => { m with pendingStatus := some status }) (fun _ => rfl) id tempId s.chatMessages

theorem count_removePendingMessage_le (tempId id : ℤ) :
    (s.removePendingMessage tempId).count id ≤ s.count id :=
  Records.occurrences_le List.filter_sublist id

theorem count_setChatMessages_le (messages : MessageList) (id : ℤ) :
    (s.setChatMessages (messages.messages.map ServerMessage.toChatMessage)).count id ≤ 1 := by
  have hlast := count_lastMessages_le (messages.messages.map ServerMessage.toChatMessage) id
  refine hlast.trans (Records.nodup_iff_occurrences.mp ?_ id)
  rw [List.map_map]
  exact messages.nodup

theorem count_setChatMessages_neg (messages : MessageList) {id : ℤ} (hid : id ≤ 0) :
    (s.setChatMessages (messages.messages.map ServerMessage.toChatMessage)).count id = 0 := by
  have hlast := count_lastMessages_le (messages.messages.map ServerMessage.toChatMessage) id
  refine Nat.eq_zero_of_not_pos fun hpos => ?_
  obtain ⟨m, hm, hkey⟩ := Records.occurrences_pos_iff.mp (hpos.trans_le hlast)
  obtain ⟨message, -, rfl⟩ := List.mem_map.mp hm
  exact absurd message.id_pos (not_lt.mpr (hkey.trans_le hid))

end Store

section Client

variable {c : ChatClient}

theorem TempIds.store (h : TempIds c) {store : ChatState}
    (hle : ∀ id, id ≤ 0 → store.count id ≤ c.store.count id) :
    TempIds { c with store := store } where
  pendingId_neg := h.pendingId_neg
  once id hid := (hle id hid).trans (h.once id hid)
  bound id hid hpos := h.bound id hid (hpos.trans_le (hle id hid))
  sends := h.sends

theorem TempIds.requests (h : TempIds c) {requests : Table SendRequest}
    (hrow : ∀ i request, requests.row i = some request → request.retry = false →
      ∃ j, c.requests.row j = some request) : TempIds { c with requests := requests } where
  pendingId_neg := h.pendingId_neg
  once := h.once
  bound := h.bound
  sends i request hi hretry := by
    obtain ⟨j, hj⟩ := hrow i request hi hretry
    exact h.sends j request hj hretry

theorem TempIds.add (h : TempIds c) {store : ChatState}
    (hle : ∀ id, id ≤ 0 → store.count id ≤ c.store.count id) {message : ChatMessage}
    (hpos : 0 < message.id) : TempIds { c with store := store.addChatMessage message } := by
  refine h.store fun id hid => (count_addChatMessage_le message id).trans ?_
  rw [if_neg (by omega)]
  exact hle id hid

theorem TempIds.handleSend (h : TempIds c) (conversation content : String) (now : ℕ) :
    TempIds (c.handleSend conversation content now) := by
  have hneg := h.pendingId_neg
  have hfree : c.store.count (c.pendingId - 1) = 0 := by
    refine Nat.eq_zero_of_not_pos fun hpos => ?_
    have hbound := h.bound (c.pendingId - 1) (by omega) hpos
    omega
  have hcount : ∀ id, (c.handleSend conversation content now).store.count id
      ≤ c.store.count id + if c.pendingId - 1 = id then 1 else 0 := fun id =>
    count_addChatMessage_le _ id
  refine ⟨?_, fun id hid => ?_, fun id hid hpos => ?_, fun i request hi hretry => ?_⟩
  · show c.pendingId - 1 < 0
    omega
  · refine (hcount id).trans ?_
    by_cases hnew : c.pendingId - 1 = id
    · subst hnew
      rw [hfree, if_pos rfl]
    · rw [if_neg hnew]
      exact h.once id hid
  · show c.pendingId - 1 ≤ id
    by_cases hnew : c.pendingId - 1 = id
    · exact hnew.le
    · have hold := hpos.trans_le (hcount id)
      rw [if_neg hnew] at hold
      have hbound := h.bound id hid hold
      omega
  · rcases (c.requests.row_insert_eq_some _).mp hi with ⟨-, rfl⟩ | hold
    · show c.pendingId - 1 < 0
      omega
    · exact h.sends i request hold hretry

theorem TempIds.handleResponse (h : TempIds c) (request : SendRequest)
    (response : SendResponse) :
    TempIds { c with store := ChatClient.handleResponse c.store request response } := by
  unfold ChatClient.handleResponse
  split
  · exact h
  · next message =>
    split
    · exact h.add (fun id _ => count_removePendingMessage_le _ id) message.id_pos
    · refine h.store fun id hid => ?_
      have hpos : (0 : ℤ) < message.id := message.id_pos
      rw [count_replacePendingMessage, if_neg (by omega), Nat.zero_add]
      split
      · exact Nat.zero_le _
      · exact le_rfl
  · exact h.store fun id _ => (count_updatePendingMessage _ id _).le
  · exact h.store fun id _ => (count_updatePendingMessage _ id _).le

theorem TempIds.act (h : TempIds c) (a : ChatAction) : TempIds (c.act a) := by
  cases a with
  | send activeConversation content now =>
    cases activeConversation with
    | none => exact h
    | some conversation =>
      rw [ChatClient.act]
      split
      · exact h
      · exact h.handleSend conversation content now
  | retry id =>
    rw [ChatClient.act]
    split
    · refine TempIds.requests (h.store fun id' _ => (count_updatePendingMessage _ id' _).le)
        fun i request hi hretry => ?_
      rcases (c.requests.row_insert_eq_some _).mp hi with ⟨-, rfl⟩ | hold
      · exact absurd hretry Bool.true_eq_false.mp
      · exact ⟨i, hold⟩
    · exact h
  | dismiss id =>
    rw [ChatClient.act]
    split
    · exact h.store fun id' _ => count_removePendingMessage_le _ id'
    · exact h
  | respond i response =>
    rw [ChatClient.act]
    split
    · exact h
    · next request hi =>
      refine TempIds.requests (h.handleResponse request response) fun j request' hj _ => ?_
      exact ⟨j, ((c.requests.row_deleteWhere_eq_some _).mp hj).1⟩
  | receive message now => exact h.add (fun _ _ => le_rfl) message.id_pos
  | load messages =>
    refine h.store fun id hid => ?_
    rw [count_setChatMessages_neg messages hid]
    exact Nat.zero_le _

/-- **When a response keeps the ids apart.** -/
theorem uniqueIds_handleResponse_iff (h : TempIds c) (hunique : UniqueIds c) {i : ℕ}
    {request : SendRequest} (hi : c.requests.row i = some request) (response : SendResponse) :
    (∀ id, 0 < id → (ChatClient.handleResponse c.store request response).count id ≤ 1)
      ↔ BringsNew c (.respond i response) := by
  cases response with
  | notOk =>
    refine iff_of_true (fun id hid => ?_) trivial
    exact (count_updatePendingMessage _ id _).trans_le (hunique id hid)
  | failed =>
    refine iff_of_true (fun id hid => ?_) trivial
    exact (count_updatePendingMessage _ id _).trans_le (hunique id hid)
  | ok message =>
    cases message with
    | none => exact iff_of_true hunique trivial
    | some message =>
      have hpos : 0 < message.id := message.id_pos
      rw [ChatClient.handleResponse]
      cases hretry : request.retry with
      | true =>
        refine iff_of_true (fun id hid => ?_) fun request' hi' hretry' => ?_
        · rw [if_pos rfl]
          exact count_addChatMessage_pos _ hid
            ((count_removePendingMessage_le _ id).trans (hunique id hid))
        · obtain rfl := Option.some.inj (hi.symm.trans hi')
          exact absurd (hretry.symm.trans hretry') Bool.true_eq_false.mp
      | false =>
        have hneg : request.tempId < 0 := h.sends i request hi hretry
        have htemp := h.once request.tempId hneg.le
        rw [if_neg Bool.false_ne_true]
        have hcount : ∀ id, 0 < id →
            (c.store.replacePendingMessage request.tempId message.toChatMessage).count id
              = (if message.id = id then c.store.count request.tempId else 0)
                + c.store.count id := by
          intro id hid
          rw [count_replacePendingMessage, if_neg (show id ≠ request.tempId by omega)]
        constructor
        · intro hnext request' hi' _ hthere
          obtain rfl := Option.some.inj (hi.symm.trans hi')
          have hone := hnext message.id hpos
          rw [hcount _ hpos, if_pos rfl] at hone
          omega
        · intro hbrings id hid
          have hnew := hbrings request hi hretry
          have hone := hunique id hid
          rw [hcount id hid]
          by_cases hmessage : message.id = id
          · subst hmessage
            rw [if_pos rfl]
            omega
          · rw [if_neg hmessage, Nat.zero_add]
            exact hone

/-- **When a step keeps the ids apart.** -/
theorem uniqueIds_act_iff (h : TempIds c) (hunique : UniqueIds c) (a : ChatAction) :
    UniqueIds (c.act a) ↔ BringsNew c a := by
  cases a with
  | send activeConversation content now =>
    refine iff_of_true (fun id hid => ?_) trivial
    cases activeConversation with
    | none => exact hunique id hid
    | some conversation =>
      rw [ChatClient.act]
      split
      · exact hunique id hid
      · exact count_addChatMessage_pos _ hid (hunique id hid)
  | retry id =>
    refine iff_of_true (fun id' hid => ?_) trivial
    rw [ChatClient.act]
    split
    · exact (count_updatePendingMessage _ id' _).trans_le (hunique id' hid)
    · exact hunique id' hid
  | dismiss id =>
    refine iff_of_true (fun id' hid => ?_) trivial
    rw [ChatClient.act]
    split
    · exact (count_removePendingMessage_le _ id').trans (hunique id' hid)
    · exact hunique id' hid
  | respond i response =>
    rw [ChatClient.act]
    split
    · next hi =>
      refine iff_of_true hunique ?_
      cases response with
      | ok message =>
        cases message with
        | none => trivial
        | some message =>
          intro request hrequest
          exact nomatch hi.symm.trans hrequest
      | notOk => trivial
      | failed => trivial
    · next request hi => exact uniqueIds_handleResponse_iff h hunique hi response
  | receive message now =>
    refine iff_of_true (fun id hid => ?_) trivial
    exact count_addChatMessage_pos _ hid (hunique id hid)
  | load messages =>
    exact iff_of_true (fun id _ => count_setChatMessages_le messages id) trivial

end Client

/-- **When the chat has no duplicates**: in whatever order sends, their responses, the
messages of the server, retries and loads come, the store never holds two messages with
the same id of the server exactly if every response which finds the message of its send
brings an id that is not in the store. -/
theorem chatStore_unique_iff (actions : List ChatAction) :
    chatStore.Always UniqueIds .initial actions
      ↔ chatStore.EachStep BringsNew .initial actions := by
  have hinitial : TempIds ChatClient.initial :=
    { pendingId_neg := by decide
      once := fun _ _ => Nat.zero_le 1
      bound := fun _ _ hpos => absurd hpos (Nat.lt_irrefl 0)
      sends := fun _ _ hi => nomatch hi }
  exact chatStore.always_iff_eachStep hinitial (fun _ a h => h.act a) (fun _ _ => Nat.zero_le 1)
    (fun _ a h hunique => uniqueIds_act_iff h hunique a) actions

/-- The message that the server stores of a send. -/
def sampleMessage : ServerMessage where
  id := 7
  conversationId := "agent_ada"
  fromAgent := "human"
  toAgent := some "ada"
  content := "hello"
  messageType := "text"
  metadata := none
  readAt := none
  createdAt := 10
  pendingStatus := none
  id_pos := by decide
  notPending := rfl

/-- **The message comes before the response**, and is there twice. -/
theorem not_unique_sampleEcho :
    ¬ chatStore.Always UniqueIds .initial
      [.send (some "agent_ada") "hello" 10, .receive sampleMessage 10,
        .respond 1 (.ok (some sampleMessage))] := by
  intro h
  have htwo : (chatStore.state .initial
      [.send (some "agent_ada") "hello" 10, .receive sampleMessage 10,
        .respond 1 (.ok (some sampleMessage))]).store.count 7 = 2 := by
    decide +kernel
  exact absurd (h _ List.prefix_rfl 7 (by decide)) (by rw [htwo]; decide)

end MissionControl
