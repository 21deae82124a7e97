import MissionControl.ChatDelivery

/-!
# What the coordinator replies

A message in a conversation with the coordinator is followed, in the conversation, by what has
become of it: that the coordinator is offline, that the message could not be delivered, or that it
was accepted and how the run has ended. The replies are written by requests that wait between them
for a command of the gateway, while other messages come and other requests go on.

`coordinator_replies` says what a request has replied by the time it is answered. The first command
that has ended for it says whether the gateway has taken the message and which run it is
(`forwardOutcome`), the second how the run has ended (`runReply`); what the answer reports, and the
texts, types and metadata of the replies, are those that these two make (`RepliesOf`), in order, to
the sender and in the conversation of the message that opened the request. The invariant is about
one request: as long as it waits, its call in the table says how many commands have ended for it
and what it has replied (`ChatProgress`), and what is done for another request leaves both alone
(`ChatWork.Leaves`).
-/

namespace MissionControl

/-! ## What is promised -/

/-- What a request has replied: the rows and their metadata. -/
def repliesTo (request : ℕ) (es : List ChatServerEvent) : List (ChatRow × Option Json) :=
  es.filterMap fun
    | .message r true _ row metadata => if r = request then some (row, metadata) else none
    | _ => none

/-- The outcomes of the commands that have ended for a request. -/
def outcomesOf (request : ℕ) (as : List ChatServerAction) : List GatewayOutcome :=
  as.filterMap fun
    | .command r outcome _ => if r = request then some outcome else none
    | _ => none

/-- **What the coordinator says**: the text, the type and the metadata of a reply. -/
structure CoordinatorReply where
  content : String
  messageType : String
  metadata : Json

def offlineReply : CoordinatorReply where
  content := "I received your message, but my live coordinator session is offline right now. "
    ++ "Start/restore the coordinator session and retry."
  messageType := "status"
  metadata := .obj [("status", .str "offline"), ("reason", .str "no_active_session")]

def failedReply : CoordinatorReply where
  content := "I received your message, but delivery to the live coordinator runtime failed. "
    ++ "Please restart the coordinator/gateway session and retry."
  messageType := "status"
  metadata := .obj [("status", .str "delivery_failed"), ("reason", .str "gateway_send_failed")]

/-- The gateway has taken the message, as a run or without naming one. -/
def acceptedReply (runId : Option String) : CoordinatorReply where
  content := "Received. I am coordinating downstream agents now."
  messageType := "status"
  metadata := replyMetadata "accepted" ((runId.map Json.str).getD .null)

/-- **How the run has ended**, by the command that has waited for it: as the payload that it printed
says, or, where it failed or its payload cannot be read, that this is not known. -/
def runReply (site : ChatSite) : GatewayOutcome → CompletionReply
  | .resolved stdout =>
    (completionReply site (parseGatewayJson site stdout)).getD (unknownReply site "" "")
  | .rejected stdout stderr => unknownReply site (stdout.getD "") (stderr.getD "")

def endedReply (site : ChatSite) (runId : String) (outcome : GatewayOutcome) :
    CoordinatorReply where
  content := (runReply site outcome).content
  messageType := (runReply site outcome).messageType
  metadata := replyMetadata (runReply site outcome).status (.str runId)

/-- **A reply of the coordinator** to a sender, in a conversation: the row that `createChatReply`
stores, and the metadata it is broadcast with. -/
def IsReply (site : ChatSite) (conversation sender : String) (said : CoordinatorReply)
    (reply : ChatRow × Option Json) : Prop :=
  ∃ now, reply = (ChatWork.replyRow site now conversation sender said.content said.messageType
    said.metadata, some said.metadata)

/-- **The replies that go with what is reported of a message**, and the commands they are due to:
the first has handed the message to the gateway, the second has waited for the run. -/
inductive RepliesOf (site : ChatSite) :
    List GatewayOutcome → ForwardInfo → List CoordinatorReply → Prop
  | offline (outcomes : List GatewayOutcome) :
      RepliesOf site outcomes ⟨false, some "no_active_session", none, none⟩ [offlineReply]
  | failed {sessionKey : Option Json} {agentId : Option String} {sent : GatewayOutcome}
      (h : forwardOutcome site sessionKey agentId sent
        = ⟨false, some "gateway_send_failed", none, none⟩) (rest : List GatewayOutcome) :
      RepliesOf site (sent :: rest) ⟨false, some "gateway_send_failed", none, none⟩ [failedReply]
  | accepted {sessionKey session : Option Json} {agentId : Option String} {sent : GatewayOutcome}
      (h : forwardOutcome site sessionKey agentId sent = ⟨true, none, session, none⟩)
      (rest : List GatewayOutcome) :
      RepliesOf site (sent :: rest) ⟨true, none, session, none⟩ [acceptedReply none]
  | ended {sessionKey session : Option Json} {agentId : Option String} {sent : GatewayOutcome}
      {runId : String} (h : forwardOutcome site sessionKey agentId sent
        = ⟨true, none, session, some runId⟩) (waited : GatewayOutcome)
      (rest : List GatewayOutcome) :
      RepliesOf site (sent :: waited :: rest) ⟨true, none, session, some runId⟩
        [acceptedReply (some runId), endedReply site runId waited]

/-- **The replies of a request that has been answered.** -/
def CoordinatorReplies (site : ChatSite) (m : ChatMessageFields) (outcomes : List GatewayOutcome)
    (forward : Option ForwardInfo) (replies : List (ChatRow × Option Json)) : Prop :=
  match forward, coordinatorConversation m.conversationId with
  | some f, some conversation =>
    ∃ said, RepliesOf site outcomes f said
      ∧ List.Forall₂ (IsReply site conversation m.sender) said replies
  | _, _ => replies = []

/-- **How far a request has come**, by the commands that have ended for it and by what it has
replied and answered. -/
def ChatProgress (site : ChatSite) (m : ChatMessageFields) (outcomes : List GatewayOutcome)
    (replies : List (ChatRow × Option Json)) (answers : List ChatResponse) :
    Option ChatCall → Prop
  | some (.running _) => False
  | some (.sending _ conversation sender _ _) =>
    conversation = m.conversationId ∧ sender = m.sender
      ∧ outcomes = [] ∧ replies = [] ∧ answers = []
  | some (.waiting _ conversation sender forward runId) =>
    coordinatorConversation m.conversationId = some conversation ∧ sender = m.sender
      ∧ (∃ sent sessionKey agentId session, outcomes = [sent]
        ∧ forward = ⟨true, none, session, some runId⟩
        ∧ forwardOutcome site sessionKey agentId sent = ⟨true, none, session, some runId⟩)
      ∧ List.Forall₂ (IsReply site conversation m.sender) [acceptedReply (some runId)] replies
      ∧ answers = []
  | none => ∀ id row metadata forward, .created id row metadata forward ∈ answers →
      CoordinatorReplies site m outcomes forward replies

section Requests

variable {site : ChatSite} {es es' : List ChatServerEvent} {w w' w'' : ChatWork}
  {request r id now : ℕ} {m : ChatMessageFields} {outcomes : List GatewayOutcome}
  {replies : List (ChatRow × Option Json)}

theorem repliesTo_append (es es' : List ChatServerEvent) :
    repliesTo r (es ++ es') = repliesTo r es ++ repliesTo r es' := List.filterMap_append

theorem CoordinatorReplies.append {forward : Option ForwardInfo}
    (h : CoordinatorReplies site m outcomes forward replies) (later : List GatewayOutcome) :
    CoordinatorReplies site m (outcomes ++ later) forward replies := by
  unfold CoordinatorReplies at h ⊢
  split at h
  · obtain ⟨said, hsaid, hreplies⟩ := h
    refine ⟨said, ?_, hreplies⟩
    cases hsaid with
    | offline => exact .offline _
    | failed h rest => exact .failed h (rest ++ later)
    | accepted h rest => exact .accepted h (rest ++ later)
    | ended h waited rest => exact .ended h waited (rest ++ later)
  · exact h

/-! ## What a handler leaves alone -/

/-- **A handler says nothing of a request** and leaves it as it is. -/
structure ChatWork.Leaves (r : ℕ) (w w' : ChatWork) : Prop where
  events : ∃ new, w'.events = w.events ++ new ∧ repliesTo r new = [] ∧ answersTo r new = []
  row : w'.server.requests.row r = w.server.requests.row r
  next : w.server.requests.next ≤ w'.server.requests.next

theorem ChatWork.Leaves.refl (w : ChatWork) : w.Leaves r w :=
  ⟨⟨[], (List.append_nil _).symm, rfl, rfl⟩, rfl, Nat.le_refl _⟩

theorem ChatWork.Leaves.trans (h : w.Leaves r w') (h' : w'.Leaves r w'') : w.Leaves r w'' := by
  obtain ⟨new, hnew, hreplies, hanswers⟩ := h.events
  obtain ⟨new', hnew', hreplies', hanswers'⟩ := h'.events
  refine ⟨⟨new ++ new', ?_, ?_, ?_⟩, h'.row.trans h.row, h.next.trans h'.next⟩
  · rw [hnew', hnew, List.append_assoc]
  · rw [repliesTo_append, hreplies, hreplies', List.append_nil]
  · rw [answersTo_append, hanswers, hanswers', List.append_nil]

/-- **What a handler does for another request** leaves this one alone. -/
theorem ChatWork.Acts.leaves (h : w.Acts request w') (hr : r ≠ request) : w.Leaves r w' := by
  induction h with
  | refl => exact .refl w
  | store h row ih => exact ih.trans ⟨⟨[], (List.append_nil _).symm, rfl, rfl⟩, rfl, Nat.le_refl _⟩
  | send h isReply id row metadata ih =>
    refine ih.trans ⟨⟨_, rfl, ?_, rfl⟩, rfl, Nat.le_refl _⟩
    unfold repliesTo
    cases isReply <;> simp [hr.symm]
  | suspend h call args ih =>
    exact ih.trans ⟨⟨_, rfl, rfl, rfl⟩, Table.row_update_of_ne _ _ hr, Nat.le_refl _⟩
  | answer h response ih =>
    refine ih.trans ⟨⟨_, rfl, rfl, ?_⟩,
      Table.row_deleteWhere_of_false _ fun _ => decide_eq_false hr, Nat.le_refl _⟩
    unfold answersTo
    simp [hr.symm]

theorem ChatWork.leaves_sendMessage {s : ChatServer} (hr : r ≠ s.requests.next) (post : ChatPost)
    (row : ChatRow) : ChatWork.Leaves r ⟨s, []⟩ (sendMessage site s post m row) := by
  obtain ⟨activities, notifications, events, hplain, hacts⟩ := acts_sendMessage site s post m row
  refine .trans ⟨⟨events, rfl, ?_, ?_⟩, Table.row_insert_of_ne _ _ hr, Nat.le_succ _⟩
    (hacts.leaves hr)
  · refine List.filterMap_eq_nil_iff.mpr fun e he => ?_
    obtain ⟨id, ⟨activity, rfl⟩ | ⟨notification, rfl⟩⟩ := hplain e he <;> rfl
  · refine List.filterMap_eq_nil_iff.mpr fun e he => ?_
    obtain ⟨id, ⟨activity, rfl⟩ | ⟨notification, rfl⟩⟩ := hplain e he <;> rfl

theorem ChatWork.leaves_patchMessage {s : ChatServer} (auth : RoleAnswer) (idText : String)
    (body : Option Json) :
    ChatWork.Leaves r ⟨s, []⟩ ⟨(patchMessage site s auth idText body now).1,
      [.answered none (patchMessage site s auth idText body now).2]⟩ := by
  have hrequests : (patchMessage site s auth idText body now).1.requests = s.requests := by
    obtain heq | ⟨n, row, readAt, -, heq⟩ := patchMessage_cases site s auth idText body now <;>
      rw [heq]
  exact ⟨⟨_, rfl, rfl, rfl⟩, by rw [hrequests], by rw [hrequests]⟩

/-! ## A request on its way -/

/-- **A request has not been answered yet**, and this is what it has replied. -/
structure ChatWork.Open (es : List ChatServerEvent) (r : ℕ)
    (replies : List (ChatRow × Option Json)) (w : ChatWork) : Prop where
  known : ∃ call, w.server.requests.row r = some call
  replies : repliesTo r (es ++ w.events) = replies
  answers : answersTo r (es ++ w.events) = []

/-- **Where a request stands.** -/
structure ChatWork.Stands (site : ChatSite) (es : List ChatServerEvent) (r : ℕ)
    (m : ChatMessageFields) (outcomes : List GatewayOutcome) (w : ChatWork) : Prop where
  known : r < w.server.requests.next
  progress : ChatProgress site m outcomes (repliesTo r (es ++ w.events))
    (answersTo r (es ++ w.events)) (w.server.requests.row r)

theorem ChatWork.Stands.leaves (h : w.Stands site es r m outcomes) (hleaves : w.Leaves r w') :
    w'.Stands site es r m outcomes := by
  obtain ⟨new, hnew, hreplies, hanswers⟩ := hleaves.events
  refine ⟨Nat.lt_of_lt_of_le h.known hleaves.next, ?_⟩
  rw [hleaves.row, hnew, ← List.append_assoc, repliesTo_append, answersTo_append, hreplies,
    hanswers, List.append_nil, List.append_nil]
  exact h.progress

/-- **A reply.** -/
theorem ChatWork.Open.reply (h : w.Open es r replies) {conversation sender : String}
    (said : CoordinatorReply) {w' : ChatWork × Bool}
    (hw' : w.createChatReply site r now conversation sender said.content said.messageType
      said.metadata = w')
    (hnumbers : said.metadata.numbers = []) (hread : said.metadata.readBack = said.metadata) :
    w'.2 = true ∧ ∃ reply, IsReply site conversation sender said reply
      ∧ w'.1.Open es r (replies ++ [reply]) := by
  rw [createChatReply_eq hnumbers, hread] at hw'
  rw [← hw']
  refine ⟨rfl, _, ⟨now, rfl⟩, h.known, ?_, ?_⟩
  · show repliesTo r (es ++ (w.events ++ [_])) = _
    rw [← List.append_assoc, repliesTo_append, h.replies]
    refine congrArg _ ?_
    unfold repliesTo
    simp
  · show answersTo r (es ++ (w.events ++ [_])) = _
    rw [← List.append_assoc, answersTo_append, h.answers]
    rfl

/-- **A request that waits.** -/
theorem ChatWork.Open.suspend (h : w.Open es r replies) {call : ChatCall}
    (hcall : ChatProgress site m outcomes replies [] (some call)) (args : List String) :
    (w.suspend r call args).Stands site es r m outcomes := by
  obtain ⟨last, hlast⟩ := h.known
  refine ⟨w.server.requests.row_lt hlast, ?_⟩
  show ChatProgress site m outcomes (repliesTo r (es ++ (w.events ++ [_])))
    (answersTo r (es ++ (w.events ++ [_]))) ((w.server.requests.update r fun _ => call).row r)
  rw [← List.append_assoc, repliesTo_append, answersTo_append, h.replies, h.answers,
    Table.row_update_self, hlast]
  rwa [show repliesTo r [ChatServerEvent.command r args] = [] from rfl, List.append_nil]

/-- **A request that is answered.** -/
theorem ChatWork.Open.answer (h : w.Open es r replies) {response : ChatResponse}
    (hresponse : ∀ id row metadata forward, response = .created id row metadata forward →
      CoordinatorReplies site m outcomes forward replies) :
    (w.answer r response).Stands site es r m outcomes := by
  obtain ⟨last, hlast⟩ := h.known
  refine ⟨w.server.requests.row_lt hlast, ?_⟩
  have hrow : (w.server.requests.deleteWhere fun r' _ => r' = r).row r = none := by
    refine Option.eq_none_iff_forall_ne_some.mpr fun call hcall => ?_
    exact absurd rfl (of_decide_eq_false ((Table.row_deleteWhere_eq_some _ _).mp hcall).2)
  show ChatProgress site m outcomes (repliesTo r (es ++ (w.events ++ [_])))
    (answersTo r (es ++ (w.events ++ [_])))
    ((w.server.requests.deleteWhere fun r' _ => r' = r).row r)
  rw [hrow, ← List.append_assoc, repliesTo_append, answersTo_append, h.replies, h.answers,
    show repliesTo r [ChatServerEvent.answered (some r) response] = [] from rfl, List.append_nil,
    List.nil_append]
  intro id row metadata forward hmem
  refine hresponse id row metadata forward ?_
  simpa [answersTo, eq_comm] using hmem

theorem ChatWork.Open.fail (h : w.Open es r replies) (status : ℕ) (message : String) :
    (w.answer r (.error status message)).Stands site es r m outcomes := by
  refine h.answer fun id row metadata forward heq => ?_
  cases heq

/-- **A request that comes to its end.** -/
theorem ChatWork.Open.finish (h : w.Open es r replies) {forward : Option ForwardInfo}
    (hforward : CoordinatorReplies site m outcomes forward replies) :
    (w.finish site r id forward).Stands site es r m outcomes := by
  unfold ChatWork.finish ChatWork.broadcastMessage
  cases hrow : w.server.messages.row id with
  | none => exact h.fail _ _
  | some row =>
    dsimp only
    cases hmetadata : parseColumn site.rt row.metadata with
    | none => exact h.fail _ _
    | some metadata =>
      have hsent : (w.emit (.message r false id row metadata)).Open es r replies := by
        refine ⟨h.known, ?_, ?_⟩
        · show repliesTo r (es ++ (w.events ++ [_])) = _
          rw [← List.append_assoc, repliesTo_append, h.replies]
          exact List.append_nil _
        · show answersTo r (es ++ (w.events ++ [_])) = _
          rw [← List.append_assoc, answersTo_append, h.answers]
          rfl
      refine hsent.answer fun id' row' metadata' forward' heq => ?_
      obtain ⟨-, -, -, rfl⟩ := ChatResponse.created.inj heq
      exact hforward

/-! ## The handlers -/

variable (site) in
theorem forwardOutcome_cases (sessionKey : Option Json) (openclawAgentId : Option String)
    (outcome : GatewayOutcome) :
    (∃ session runId, forwardOutcome site sessionKey openclawAgentId outcome
        = ⟨true, none, session, runId⟩)
      ∨ forwardOutcome site sessionKey openclawAgentId outcome
        = ⟨false, some "gateway_send_failed", none, none⟩ := by
  unfold forwardOutcome
  split
  · exact .inl ⟨_, _, rfl⟩
  · dsimp only
    split
    · exact .inl ⟨_, _, rfl⟩
    · exact .inr rfl

theorem coordinatorReplies_nil (h : coordinatorConversation m.conversationId = none)
    (forward : Option ForwardInfo) : CoordinatorReplies site m outcomes forward [] := by
  unfold CoordinatorReplies
  rw [h]
  cases forward <;> rfl

theorem coordinatorReplies_of_repliesOf {conversation : String} {f : ForwardInfo}
    {said : List CoordinatorReply}
    (h : coordinatorConversation m.conversationId = some conversation)
    (hf : RepliesOf site outcomes f said)
    (hreplies : List.Forall₂ (IsReply site conversation m.sender) said replies) :
    CoordinatorReplies site m outcomes (some f) replies := by
  unfold CoordinatorReplies
  rw [h]
  exact ⟨said, hf, hreplies⟩

/-- **The gateway has taken the message**, or has not. -/
theorem ChatWork.Open.handleSent (h : w.Open es r []) (sessionKey : Option Json)
    (openclawAgentId : Option String) (outcome : GatewayOutcome) :
    (handleSent site w r now id m.conversationId m.sender
      (forwardOutcome site sessionKey openclawAgentId outcome)).Stands site es r m [outcome] := by
  have hone : ∀ {c : String} {said : CoordinatorReply} {reply : ChatRow × Option Json},
      IsReply site c m.sender said reply →
      List.Forall₂ (IsReply site c m.sender) [said] [reply] :=
    fun hreply => .cons hreply .nil
  unfold MissionControl.handleSent
  cases hc : coordinatorConversation m.conversationId with
  | none => exact h.finish (coordinatorReplies_nil hc _)
  | some c =>
    obtain ⟨session, runId, hforward⟩ | hforward :=
      forwardOutcome_cases site sessionKey openclawAgentId outcome
    · rw [hforward]
      dsimp only
      rw [if_pos rfl]
      generalize hw' : ChatWork.createChatReply site w r now c m.sender _ _ _ = w'
      obtain ⟨-, reply, hreply, hopen⟩ := h.reply (acceptedReply runId) hw'
        (numbers_replyMetadata _ _) (readBack_replyMetadata _ _)
      cases runId with
      | none => exact hopen.finish (coordinatorReplies_of_repliesOf hc (.accepted hforward [])
          (hone hreply))
      | some runId =>
        refine hopen.suspend ?_ _
        exact ⟨hc, rfl, ⟨outcome, sessionKey, openclawAgentId, session, rfl, rfl, hforward⟩,
          hone hreply, rfl⟩
    · rw [hforward]
      dsimp only
      rw [if_neg Bool.false_ne_true]
      generalize hw' : ChatWork.createChatReply site w r now c m.sender _ _ _ = w'
      obtain ⟨-, reply, hreply, hopen⟩ := h.reply failedReply hw' rfl rfl
      exact hopen.finish (coordinatorReplies_of_repliesOf hc (.failed hforward []) (hone hreply))

/-- **The run has ended**, or it is not known how. -/
theorem ChatWork.Open.handleWait (h : w.Open es r replies) {conversation runId : String}
    {sessionKey session : Option Json} {agentId : Option String} {sent : GatewayOutcome}
    (hc : coordinatorConversation m.conversationId = some conversation)
    (hsent : forwardOutcome site sessionKey agentId sent = ⟨true, none, session, some runId⟩)
    (haccepted : List.Forall₂ (IsReply site conversation m.sender)
      [acceptedReply (some runId)] replies) (outcome : GatewayOutcome) :
    (handleWait site w r now id conversation m.sender ⟨true, none, session, some runId⟩ runId
      outcome).Stands site es r m [sent, outcome] := by
  have hreply : ∃ w', w.createChatReply site r now conversation m.sender
      (runReply site outcome).content (runReply site outcome).messageType
      (replyMetadata (runReply site outcome).status (.str runId)) = (w', true)
      ∧ (w'.finish site r id (some ⟨true, none, session, some runId⟩)).Stands site es r m
        [sent, outcome] := by
    generalize hw' : w.createChatReply site r now conversation m.sender _ _ _ = w'
    obtain ⟨hok, reply, hreply, hopen⟩ := h.reply (endedReply site runId outcome) hw'
      (numbers_replyMetadata _ (some runId)) (readBack_replyMetadata _ (some runId))
    refine ⟨w'.1, Prod.ext rfl hok, hopen.finish (coordinatorReplies_of_repliesOf hc
      (.ended hsent outcome []) ?_)⟩
    exact List.rel_append haccepted (.cons hreply .nil)
  obtain ⟨w', hw', hstands⟩ := hreply
  unfold MissionControl.handleWait
  dsimp only
  cases outcome with
  | resolved stdout =>
    unfold runReply at hw'
    dsimp only at hw' ⊢
    cases hcompletion : completionReply site (parseGatewayJson site stdout) with
    | none =>
      rw [hcompletion, Option.getD_none] at hw'
      dsimp only [Option.getD_none]
      rw [hw']
      exact hstands
    | some c =>
      rw [hcompletion, Option.getD_some] at hw'
      dsimp only
      rw [hw']
      exact hstands
  | rejected stdout stderr =>
    unfold runReply at hw'
    dsimp only at hw' ⊢
    rw [hw']
    exact hstands

variable (site) in
/-- **A message that is accepted** opens a request. -/
theorem ChatWork.Open.sendMessage {s : ChatServer} (hreplies : repliesTo s.requests.next es = [])
    (hanswers : answersTo s.requests.next es = []) (post : ChatPost) (row : ChatRow) :
    (sendMessage site s post m row).Stands site es s.requests.next m [] := by
  have hopen : ∀ (events : List ChatServerEvent) (activities : Table Activity)
      (notifications : Table Notification), repliesTo s.requests.next events = [] →
      answersTo s.requests.next events = [] →
      ChatWork.Open es s.requests.next [] ⟨⟨s.messages.insert row, activities, notifications,
        s.requests.insert (.running s.messages.next)⟩, events⟩ := by
    intro events _ _ hnone hunanswered
    refine ⟨⟨_, Table.row_insert_next _ _⟩, ?_, ?_⟩
    · rw [repliesTo_append, hreplies, hnone, List.append_nil]
    · rw [answersTo_append, hanswers, hunanswered, List.append_nil]
  unfold MissionControl.sendMessage
  dsimp only
  split
  · exact (hopen _ _ _ rfl rfl).fail _ _
  split
  · exact (hopen _ _ _ rfl rfl).finish rfl
  split
  · unfold forwardMessage
    dsimp only
    split
    · cases hc : coordinatorConversation m.conversationId with
      | none => exact (hopen _ _ _ rfl rfl).finish (coordinatorReplies_nil hc _)
      | some c =>
        dsimp only
        generalize hw' : ChatWork.createChatReply site _ s.requests.next (post.now / 1000) c
          m.sender _ _ _ = w'
        obtain ⟨-, reply, hreply, hsaid⟩ := (hopen _ _ _ rfl rfl).reply offlineReply hw' rfl rfl
        exact hsaid.finish (coordinatorReplies_of_repliesOf hc (.offline []) (.cons hreply .nil))
    · refine (hopen _ _ _ rfl rfl).suspend ?_ _
      exact ⟨rfl, rfl, rfl, rfl, rfl⟩
  · exact (hopen _ _ _ rfl rfl).finish rfl

end Requests

/-! ## The run -/

section Runs

variable {site : ChatSite} {as : List ChatServerAction} {es : List ChatServerEvent} {r : ℕ}

/-- **A request that a message of the run has opened**, and where it stands. -/
def OpenedBy (site : ChatSite) (as : List ChatServerAction) (es : List ChatServerEvent) (r : ℕ)
    (s : ChatServer) : Prop :=
  ∃ (p : List ChatServerAction) (post : ChatPost) (q : List ChatServerAction) (body : Json)
      (m : ChatMessageFields), as = p ++ ChatServerAction.post post :: q
    ∧ r = ((chatServer site).state .initial p).requests.next
    ∧ post.body = some body ∧ readChatMessage body post.now = .ok m
    ∧ ChatWork.Stands site es r m (outcomesOf r q) ⟨s, []⟩

/-- **A request that has not come yet.** -/
structure ChatServer.Unopened (s : ChatServer) (es : List ChatServerEvent) (r : ℕ) : Prop where
  row : s.requests.row r = none
  replies : repliesTo r es = []
  answers : answersTo r es = []

/-- **A message that comes** leaves the requests before it alone. -/
theorem leaves_postMessage {s : ChatServer} {post : ChatPost}
    (h : r ≠ s.requests.next
      ∨ ∃ response, postMessage site s post = ⟨s, [.answered none response]⟩) :
    ChatWork.Leaves r ⟨s, []⟩ (postMessage site s post) := by
  have hrefused : ∀ response, ChatWork.Leaves r ⟨s, []⟩ ⟨s, [.answered none response]⟩ :=
    fun response => ⟨⟨_, rfl, rfl, rfl⟩, rfl, Nat.le_refl _⟩
  obtain ⟨response, heq⟩ | ⟨body, m, row, -, -, heq⟩ := postMessage_cases site s post
  · rw [heq]
    exact hrefused response
  · obtain hr | ⟨response, heq⟩ := h
    · rw [heq]
      exact ChatWork.leaves_sendMessage hr post row
    · rw [heq]
      exact hrefused response

/-- **A command that has ended** leaves the other requests alone. -/
theorem leaves_commandEnded {s : ChatServer} {request : ℕ}
    (h : r = request → s.requests.row r = none) (outcome : GatewayOutcome) (now : ℕ) :
    ChatWork.Leaves r ⟨s, []⟩ (commandEnded site s request outcome now) := by
  by_cases hr : r = request
  · unfold commandEnded
    rw [← hr, h hr]
    exact .refl _
  · exact (acts_commandEnded site s request outcome now).leaves hr

theorem ChatWork.Stands.commandEnded {m : ChatMessageFields} {outcomes : List GatewayOutcome}
    {s : ChatServer} (h : ChatWork.Stands site es r m outcomes ⟨s, []⟩) (outcome : GatewayOutcome)
    (now : ℕ) : (commandEnded site s r outcome now).Stands site es r m (outcomes ++ [outcome]) := by
  have hprogress := h.progress
  dsimp only at hprogress
  rw [List.append_nil] at hprogress
  unfold MissionControl.commandEnded
  cases hrow : s.requests.row r with
  | none =>
    -- the request has been answered, and the command is one that it did not wait for
    rw [hrow] at hprogress
    refine ⟨h.known, ?_⟩
    dsimp only
    rw [hrow, List.append_nil]
    exact fun id row metadata forward hmem =>
      (hprogress id row metadata forward hmem).append [outcome]
  | some call =>
    rw [hrow] at hprogress
    cases call with
    | running id => exact False.elim hprogress
    | sending id conversation sender sessionKey openclawAgentId =>
      obtain ⟨rfl, rfl, rfl, hreplies, hanswers⟩ := hprogress
      exact ChatWork.Open.handleSent ⟨⟨_, hrow⟩, by rw [List.append_nil, hreplies],
        by rw [List.append_nil, hanswers]⟩ _ _ _
    | waiting id conversation sender forward runId =>
      obtain ⟨hc, rfl, ⟨sent, sessionKey, agentId, session, rfl, rfl, hsent⟩, haccepted,
        hanswers⟩ := hprogress
      exact ChatWork.Open.handleWait ⟨⟨_, hrow⟩, by rw [List.append_nil],
        by rw [List.append_nil, hanswers]⟩ hc hsent haccepted outcome

theorem ChatWork.Stands.rebase {m : ChatMessageFields} {outcomes : List GatewayOutcome}
    {w : ChatWork} (h : w.Stands site es r m outcomes) :
    ChatWork.Stands site (es ++ w.events) r m outcomes ⟨w.server, []⟩ :=
  ⟨h.known, by
    dsimp only
    rw [List.append_nil]
    exact h.progress⟩

/-- **A step keeps a request that is open**, and says of it what comes next. -/
theorem OpenedBy.step {s : ChatServer} (h : OpenedBy site as es r s) (a : ChatServerAction) :
    OpenedBy site (as ++ [a]) (es ++ (chatServer site).emits s a) r
      ((chatServer site).next s a) := by
  obtain ⟨p, post, q, body, m, rfl, hr, hbody, hm, hstands⟩ := h
  have hwork : (chatWork site s a).Stands site es r m (outcomesOf r (q ++ [a])) := by
    rw [show outcomesOf r (q ++ [a]) = outcomesOf r q ++ outcomesOf r [a] from
      List.filterMap_append]
    cases a with
    | command request outcome now =>
      by_cases heq : request = r
      · rw [heq, show outcomesOf r [.command r outcome now] = [outcome] from by simp [outcomesOf]]
        exact hstands.commandEnded outcome (now / 1000)
      · rw [show outcomesOf r [.command request outcome now] = [] from by simp [outcomesOf, heq],
          List.append_nil]
        exact hstands.leaves (leaves_commandEnded (fun h => absurd h.symm heq) _ _)
    | post post' =>
      rw [show outcomesOf r [.post post'] = [] from rfl, List.append_nil]
      exact hstands.leaves (leaves_postMessage (.inl (Nat.ne_of_lt hstands.known)))
    | patch auth idText body' now =>
      rw [show outcomesOf r [.patch auth idText body' now] = [] from rfl, List.append_nil]
      exact hstands.leaves (ChatWork.leaves_patchMessage _ _ _)
  refine ⟨p, post, q ++ [a], body, m, ?_, hr, hbody, hm, hwork.rebase⟩
  rw [List.append_assoc, List.cons_append]

/-- **Every request of a run** has been opened by a message of it, or has not come yet. -/
theorem openedBy_or_unopened (site : ChatSite) (as : List ChatServerAction) (r : ℕ) :
    OpenedBy site as ((chatServer site).trace .initial as) r ((chatServer site).state .initial as)
      ∨ ((chatServer site).state .initial as).Unopened ((chatServer site).trace .initial as) r := by
  induction as using List.reverseRecOn with
  | nil => exact .inr ⟨rfl, rfl, rfl⟩
  | append_singleton as a ih =>
    rw [Machine.state_concat, Machine.trace_concat]
    generalize hs : (chatServer site).state .initial as = s at ih ⊢
    generalize (chatServer site).trace .initial as = es at ih ⊢
    obtain hopened | hunopened := ih
    · exact .inl (hopened.step a)
    have hleft : ChatWork.Leaves r ⟨s, []⟩ (chatWork site s a) →
        ChatServer.Unopened ((chatServer site).next s a) (es ++ (chatServer site).emits s a) r := by
      rintro ⟨⟨new, hnew, hreplies, hanswers⟩, hrow, -⟩
      have hemits : (chatServer site).emits s a = new := hnew
      refine ⟨hrow.trans hunopened.row, ?_, ?_⟩
      · rw [hemits, repliesTo_append, hunopened.replies, hreplies, List.append_nil]
      · rw [hemits, answersTo_append, hunopened.answers, hanswers, List.append_nil]
    cases a with
    | post post =>
      obtain ⟨response, heq⟩ | ⟨body, m, row, hbody, hm, heq⟩ := postMessage_cases site s post
      · exact .inr (hleft (leaves_postMessage (.inr ⟨response, heq⟩)))
      · by_cases hr : r = s.requests.next
        · subst hr
          refine .inl ⟨as, post, [], body, m, rfl, hs ▸ rfl, hbody, hm, ?_⟩
          have hopen := ChatWork.Open.sendMessage site (m := m) hunopened.replies
            hunopened.answers post row
          rw [← heq] at hopen
          exact hopen.rebase
        · exact .inr (hleft (leaves_postMessage (.inl hr)))
    | command request outcome now =>
      exact .inr (hleft (leaves_commandEnded (fun _ => hunopened.row) _ _))
    | patch auth idText body now =>
      exact .inr (hleft (ChatWork.leaves_patchMessage auth idText body))

/-- **What the coordinator has replied when a request is answered**: the request was opened by a
message of the run, and if the answer reports of forwarding it and its conversation is one with the
coordinator, the report and the replies are those that the commands of the request make, the first
ended of which has handed the message to the gateway and the second has waited for the run. The
replies are in that order, in that conversation and to the sender; otherwise there are none. -/
theorem coordinator_replies (site : ChatSite) (as : List ChatServerAction) (r id : ℕ)
    (row : ChatRow) (metadata : Option Json) (forward : Option ForwardInfo)
    (h : .answered (some r) (.created id row metadata forward)
      ∈ (chatServer site).trace .initial as) :
    ∃ (p : List ChatServerAction) (post : ChatPost) (q : List ChatServerAction) (body : Json)
        (m : ChatMessageFields), as = p ++ ChatServerAction.post post :: q
      ∧ r = ((chatServer site).state .initial p).requests.next
      ∧ post.body = some body ∧ readChatMessage body post.now = .ok m
      ∧ CoordinatorReplies site m (outcomesOf r q) forward
          (repliesTo r ((chatServer site).trace .initial as)) := by
  have hanswer : .created id row metadata forward
      ∈ answersTo r ((chatServer site).trace .initial as) :=
    List.mem_filterMap.mpr ⟨_, h, if_pos rfl⟩
  obtain ⟨p, post, q, body, m, has, hr, hbody, hm, hstands⟩ | hunopened :=
    openedBy_or_unopened site as r
  · refine ⟨p, post, q, body, m, has, hr, hbody, hm, ?_⟩
    have hprogress := hstands.progress
    dsimp only at hprogress
    rw [List.append_nil] at hprogress
    generalize hcall : ((chatServer site).state .initial as).requests.row r = call at hprogress
    cases call with
    | none => exact hprogress id row metadata forward hanswer
    | some call =>
      -- a request that is under way has not been answered
      have hnone : answersTo r ((chatServer site).trace .initial as) = [] := by
        cases call with
        | running id => exact False.elim hprogress
        | sending => exact hprogress.2.2.2.2
        | waiting => exact hprogress.2.2.2.2
      rw [hnone] at hanswer
      exact absurd hanswer List.not_mem_nil
  · rw [hunopened.answers] at hanswer
    exact absurd hanswer List.not_mem_nil

/-- A message to the coordinator, without metadata. -/
def sampleCoordinatorPost : ChatPost :=
  { sampleChatPost with
    body := some (.obj [("from", .str "ann"), ("to", .str "Coordinator"), ("content", .str "hi"),
      ("conversation_id", .str "coord:ann"), ("forward", .bool true)]) }

/-- Its row. -/
def sampleCoordinatorRow : ChatRow :=
  ⟨"coord:ann", "ann", some "Coordinator", "hi", some "text", none, none, 5⟩

/-- A site for concrete runs. -/
def sampleChatSite : ChatSite := ⟨sampleRuntime, sampleSqlite, fun _ => none⟩

/-- The gateway has taken the message, as a run. -/
def sampleAccepted : Json := .obj [("runId", .str "r1")]

/-- The run has ended, with a text. -/
def sampleEnded : Json := .obj [("status", .str "ok"), ("result", .str " done ")]

/-- A command that prints a value. -/
def sampleOutcome (printed : Json) : GatewayOutcome := .resolved (jsonText sampleRuntime printed)

/-- The gateway takes the message, and the run ends. -/
def sampleForwardedRun : List ChatServerAction :=
  [.post sampleCoordinatorPost, .command 1 (sampleOutcome sampleAccepted) 6000,
    .command 1 (sampleOutcome sampleEnded) 7000]

/-- What is reported of the message. -/
def sampleForward : ForwardInfo := ⟨true, none, some (.str "coordinator"), some "r1"⟩

/-- What a command has printed is read, if nothing but the object is printed. -/
theorem parseGatewayJson_jsonText {printed : Json} (hnumbers : printed.numbers = [])
    (hread : printed.readBack = printed)
    (htext : objectText (trim (jsonText sampleRuntime printed)).toList
      = some (jsonText sampleRuntime printed).toList) :
    parseGatewayJson sampleChatSite (jsonText sampleRuntime printed) = some printed := by
  have hparse := @Json.parse_stringify sampleRuntime printed (by
    rw [hnumbers]
    exact fun q hq => absurd hq List.not_mem_nil)
  rw [hread] at hparse
  unfold parseGatewayJson
  rw [htext, Option.bind_some]
  exact (congrArg _ String.toList_ofList).trans hparse

theorem forwardOutcome_sampleAccepted :
    forwardOutcome sampleChatSite none (some "coordinator") (sampleOutcome sampleAccepted)
      = sampleForward := by
  unfold forwardOutcome sampleOutcome
  dsimp only
  rw [parseGatewayJson_jsonText rfl rfl (by decide +kernel)]
  rfl

theorem completionReply_sampleEnded :
    completionReply sampleChatSite
        (parseGatewayJson sampleChatSite (jsonText sampleRuntime sampleEnded))
      = some ⟨"done", "text", "ok"⟩ := by
  rw [parseGatewayJson_jsonText rfl rfl (by decide +kernel)]
  rfl

/-- The server after the message, and after the gateway has taken it. -/
def sampleSent : ChatServer :=
  (chatServer sampleChatSite).next .initial (.post sampleCoordinatorPost)

theorem requests_sampleSent : sampleSent.requests.row 1
    = some (.sending 1 (.str "coord:ann") "ann" none (some "coordinator")) := rfl

theorem messages_sampleSent : sampleSent.messages.row 1 = some sampleCoordinatorRow := rfl

theorem emits_command (site : ChatSite) (s : ChatServer) (request : ℕ) (outcome : GatewayOutcome)
    (now : ℕ) : (chatServer site).emits s (.command request outcome now)
      = (commandEnded site s request outcome (now / 1000)).events := rfl

theorem next_command (site : ChatSite) (s : ChatServer) (request : ℕ) (outcome : GatewayOutcome)
    (now : ℕ) : (chatServer site).next s (.command request outcome now)
      = (commandEnded site s request outcome (now / 1000)).server := rfl

theorem commandEnded_sampleSent :
    (commandEnded sampleChatSite sampleSent 1
        (sampleOutcome sampleAccepted) 6).server.requests.row 1
        = some (.waiting 1 "coord:ann" "ann" sampleForward "r1")
      ∧ (commandEnded sampleChatSite sampleSent 1
          (sampleOutcome sampleAccepted) 6).server.messages.row 1 = some sampleCoordinatorRow := by
  unfold commandEnded
  rw [requests_sampleSent]
  dsimp only
  rw [forwardOutcome_sampleAccepted]
  unfold handleSent sampleForward
  rw [show coordinatorConversation (.str "coord:ann") = some "coord:ann" from rfl]
  dsimp only
  rw [if_pos rfl, createChatReply_eq (numbers_replyMetadata _ (some "r1"))]
  refine ⟨?_, Table.row_insert_of_some _ _ messages_sampleSent⟩
  exact (Table.row_update_self _ _ _).trans (congrArg _ requests_sampleSent)

/-- A request that has waited for its run is answered with what was reported of it. -/
theorem answered_handleWait {s : ChatServer} {row : ChatRow}
    (hrow : s.messages.row 1 = some row) (hmetadata : row.metadata = none) :
    ChatServerEvent.answered (some 1) (.created 1 row none (some sampleForward))
      ∈ (handleWait sampleChatSite ⟨s, []⟩ 1 7 1 "coord:ann" "ann" sampleForward "r1"
          (sampleOutcome sampleEnded)).events := by
  unfold handleWait sampleOutcome
  dsimp only
  rw [completionReply_sampleEnded]
  dsimp only
  rw [createChatReply_eq rfl]
  dsimp only
  rw [finish_eq (Table.row_insert_of_some _ _ hrow) (by rw [hmetadata]; rfl)]
  exact List.mem_append_right _ (List.mem_singleton_self _)

theorem answered_sampleForwardedRun :
    ChatServerEvent.answered (some 1) (.created 1 sampleCoordinatorRow none (some sampleForward))
      ∈ (chatServer sampleChatSite).trace .initial sampleForwardedRun := by
  obtain ⟨hrequests, hmessages⟩ := commandEnded_sampleSent
  unfold sampleForwardedRun
  rw [Machine.trace_cons, Machine.trace_cons, Machine.trace_cons, emits_command, next_command,
    show (chatServer sampleChatSite).next .initial (.post sampleCoordinatorPost) = sampleSent from
      rfl, emits_command]
  refine List.mem_append_right _ (List.mem_append_right _ (List.mem_append_left _ ?_))
  generalize (commandEnded sampleChatSite sampleSent 1 (sampleOutcome sampleAccepted) 6).server = s
    at hrequests hmessages ⊢
  unfold commandEnded
  rw [hrequests]
  exact answered_handleWait hmessages rfl

/-- The run of the message ends with a text, and the coordinator replies with it. -/
theorem coordinator_replies_sample :
    endedReply sampleChatSite "r1" (sampleOutcome sampleEnded)
        = ⟨"done", "text", .obj [("status", .str "ok"), ("runId", .str "r1")]⟩
      ∧ ∃ (p : List ChatServerAction) (post : ChatPost) (q : List ChatServerAction) (body : Json)
          (m : ChatMessageFields), sampleForwardedRun = p ++ ChatServerAction.post post :: q
        ∧ 1 = ((chatServer sampleChatSite).state .initial p).requests.next
        ∧ post.body = some body ∧ readChatMessage body post.now = .ok m
        ∧ CoordinatorReplies sampleChatSite m (outcomesOf 1 q) (some sampleForward)
            (repliesTo 1 ((chatServer sampleChatSite).trace .initial sampleForwardedRun)) := by
  refine ⟨?_, coordinator_replies sampleChatSite sampleForwardedRun 1 1 sampleCoordinatorRow none _
    answered_sampleForwardedRun⟩
  have hreply : runReply sampleChatSite (sampleOutcome sampleEnded) = ⟨"done", "text", "ok"⟩ := by
    unfold runReply sampleOutcome
    dsimp only
    rw [completionReply_sampleEnded, Option.getD_some]
  unfold endedReply
  rw [hreply]
  rfl

end Runs

end MissionControl
