import MissionControl.ChatServer

/-!
# What the chat delivers

A message is stored when its request comes, and broadcast when the request ends, which may be long
after; replies are stored and broadcast at once. `chatServer_accounts` says that nothing is lost and
nothing is sent twice, however the requests are interleaved: a message that is stored has been
broadcast once, or its request is still under way; and a request that has ended has been answered
once.

The request that is under way has the id of its message with it, so the invariant
(`ChatWork.Sound`) says which ids are held, and that no two requests hold one. Every
handler is a chain of a few moves – a reply, a wait, the end – and there is one lemma for
each of them. It is said of requests that can be read (`ChatPost.Readable`): a type without
a text makes the request throw between its row and its broadcast.
-/

namespace MissionControl

/-! ## What is promised -/

def sentIds (es : List ChatServerEvent) : List ℕ :=
  es.filterMap fun
    | .message _ _ id _ _ => some id
    | _ => none

def answersTo (request : ℕ) (es : List ChatServerEvent) : List ChatResponse :=
  es.filterMap fun
    | .answered (some r) response => if r = request then some response else none
    | _ => none

/-- A request is under way, and this is its message. -/
def ChatServer.Holds (s : ChatServer) (r id : ℕ) : Prop :=
  ∃ call, s.requests.row r = some call ∧ call.messageId = id

/-- The request of a message is under way. -/
def ChatServer.Pending (s : ChatServer) (id : ℕ) : Prop := ∃ r, s.Holds r id

def ChatServer.Ended (s : ChatServer) (r : ℕ) : Prop :=
  0 < r ∧ r < s.requests.next ∧ ∀ id, ¬ s.Holds r id

/-- **Every message is accounted for**: it has been broadcast once, or its request is under way;
every request has been answered once, or is under way. -/
structure ChatServer.Accounts (s : ChatServer) (es : List ChatServerEvent) : Prop where
  once : (sentIds es).Nodup
  each : ∀ id, (∃ row, s.messages.row id = some row) ↔ id ∈ sentIds es ∨ s.Pending id
  apart : ∀ id, s.Pending id → id ∉ sentIds es
  ended : ∀ r, s.Ended r → (answersTo r es).length = 1
  unanswered : ∀ r, ¬ s.Ended r → answersTo r es = []

/-- A broadcast shows the row as it is stored, with its metadata parsed. -/
def ChatServerEvent.Shows (site : ChatSite) (s : ChatServer) : ChatServerEvent → Prop
  | message _ _ id row metadata =>
    s.messages.row id = some row ∧ parseColumn site.rt row.metadata = some metadata
  | _ => True

/-- **The request can be read**: its type has a text, and the numbers of its metadata are read
back. -/
def ChatPost.Readable (site : ChatSite) (post : ChatPost) : Prop :=
  ∀ body m, post.body = some body → readChatMessage body post.now = .ok m →
    (∃ messageType, m.messageType.toStr site.rt = .ok messageType)
      ∧ ∀ j, m.metadata = some j → Json.NumbersRead site.rt j.numbers

/-! ## The invariant -/

/-- **The invariant**, of what a handler has done so far: every message is accounted for, no two
requests have one message, and all metadata can be parsed. -/
structure ChatWork.Sound (site : ChatSite) (es : List ChatServerEvent) (w : ChatWork) : Prop where
  accounts : w.server.Accounts (es ++ w.events)
  apart : ∀ r r' id, w.server.Holds r id → w.server.Holds r' id → r = r'
  positive : 0 < w.server.requests.next ∧ ∀ r id, w.server.Holds r id → 0 < r
  parsed : ∀ id row, w.server.messages.row id = some row →
    ∃ metadata, parseColumn site.rt row.metadata = some metadata
  shows : ∀ e ∈ w.events, e.Shows site w.server

section Work

variable {site : ChatSite} {es : List ChatServerEvent} {w : ChatWork} {request id : ℕ}

theorem sentIds_append (es es' : List ChatServerEvent) :
    sentIds (es ++ es') = sentIds es ++ sentIds es' := List.filterMap_append

theorem answersTo_append (es es' : List ChatServerEvent) :
    answersTo request (es ++ es') = answersTo request es ++ answersTo request es' :=
  List.filterMap_append

/-- What is neither a message nor an answer. -/
def ChatServerEvent.Plain : ChatServerEvent → Prop
  | message _ _ _ _ _ => False
  | answered (some _) _ => False
  | _ => True

theorem ChatServerEvent.Plain.sentIds {e : ChatServerEvent} (he : e.Plain) :
    MissionControl.sentIds [e] = [] := by
  cases e with
  | message => cases he
  | _ => rfl

theorem ChatServerEvent.Plain.answersTo {e : ChatServerEvent} (he : e.Plain) :
    MissionControl.answersTo request [e] = [] := by
  cases e with
  | answered r response =>
    cases r with
    | none => rfl
    | some r => cases he
  | _ => rfl

theorem ChatServerEvent.Shows.of_row {e : ChatServerEvent} {s s' : ChatServer}
    (h : e.Shows site s)
    (hrow : ∀ id row, s.messages.row id = some row → s'.messages.row id = some row) :
    e.Shows site s' := by
  cases e with
  | message r isReply id row metadata => exact ⟨hrow id row h.1, h.2⟩
  | _ => trivial

/-- **What is neither a message nor an answer** changes no account, while the requests that are
under way hold the messages they did. -/
theorem ChatWork.Sound.emit (h : w.Sound site es) {e : ChatServerEvent} (he : e.Plain)
    {s : ChatServer} (hmessages : s.messages = w.server.messages)
    (hnext : s.requests.next = w.server.requests.next)
    (hholds : ∀ r id, s.Holds r id ↔ w.server.Holds r id) :
    ChatWork.Sound site es ⟨s, w.events ++ [e]⟩ := by
  have hsent : sentIds (es ++ (w.events ++ [e])) = sentIds (es ++ w.events) := by
    rw [← List.append_assoc, sentIds_append, he.sentIds, List.append_nil]
  have hanswers : ∀ r, answersTo r (es ++ (w.events ++ [e])) = answersTo r (es ++ w.events) := by
    intro r
    rw [← List.append_assoc, answersTo_append, he.answersTo, List.append_nil]
  have hpending : ∀ id, s.Pending id ↔ w.server.Pending id := fun id =>
    exists_congr fun r => hholds r id
  have hended : ∀ r, s.Ended r ↔ w.server.Ended r := by
    intro r
    unfold ChatServer.Ended
    rw [hnext]
    exact and_congr_right' (and_congr_right' (forall_congr' fun id => not_congr (hholds r id)))
  refine ⟨⟨?_, fun id => ?_, fun id hid => ?_, fun r hr => ?_, fun r hr => ?_⟩,
    fun r r' id hr hr' => h.apart r r' id ((hholds r id).mp hr) ((hholds r' id).mp hr'),
    ⟨hnext ▸ h.positive.1, fun r id hr => h.positive.2 r id ((hholds r id).mp hr)⟩,
    fun id row hrow => ?_, fun e' he' => ?_⟩
  · dsimp only
    rw [hsent]
    exact h.accounts.once
  · dsimp only
    rw [hsent, hmessages, hpending]
    exact h.accounts.each id
  · dsimp only
    rw [hsent]
    exact h.accounts.apart id ((hpending id).mp hid)
  · exact (congrArg List.length (hanswers r)).trans (h.accounts.ended r ((hended r).mp hr))
  · exact (hanswers r).trans (h.accounts.unanswered r fun hr' => hr ((hended r).mpr hr'))
  · dsimp only at hrow
    rw [hmessages] at hrow
    exact h.parsed id row hrow
  · obtain hold | hnew := List.mem_append.mp he'
    · exact (h.shows e' hold).of_row fun id row hrow => by
        dsimp only
        rw [hmessages]
        exact hrow
    · obtain rfl := List.mem_singleton.mp hnew
      cases e' with
      | message => cases he
      | _ => trivial

theorem ChatWork.Sound.next_notMem (h : w.Sound site es) :
    w.server.messages.next ∉ sentIds (es ++ w.events) := by
  intro hmem
  obtain ⟨row, hrow⟩ := (h.accounts.each _).mpr (.inl hmem)
  exact absurd (w.server.messages.row_next ▸ hrow) nofun

theorem ChatWork.Sound.not_pending_next (h : w.Sound site es) :
    ¬ w.server.Pending w.server.messages.next := by
  intro hpending
  obtain ⟨row, hrow⟩ := (h.accounts.each _).mpr (.inr hpending)
  exact absurd (w.server.messages.row_next ▸ hrow) nofun

/-- **A reply** is stored and broadcast. -/
theorem ChatWork.Sound.reply (h : w.Sound site es) {row : ChatRow} {metadata : Option Json}
    (hparsed : parseColumn site.rt row.metadata = some metadata) :
    ChatWork.Sound site es
      ((w.store row).emit (.message request true w.server.messages.next row metadata)) := by
  have hsent : sentIds (es ++ (w.events
      ++ [.message request true w.server.messages.next row metadata]))
      = sentIds (es ++ w.events) ++ [w.server.messages.next] := by
    rw [← List.append_assoc, sentIds_append]
    rfl
  have hanswers : ∀ r, answersTo r (es ++ (w.events
      ++ [.message request true w.server.messages.next row metadata]))
      = answersTo r (es ++ w.events) := by
    intro r
    rw [← List.append_assoc, answersTo_append]
    exact List.append_nil _
  refine ⟨⟨?_, fun id => ?_, fun id hid => ?_, fun r hr => ?_, fun r hr => ?_⟩, h.apart,
    h.positive, fun id row' hrow' => ?_, fun e he => ?_⟩
  · show (sentIds (es ++ (w.events ++ _))).Nodup
    rw [hsent]
    exact List.nodup_append.mpr ⟨h.accounts.once, List.nodup_singleton _, fun i hi j hj heq =>
      h.next_notMem (List.mem_singleton.mp hj ▸ heq ▸ hi)⟩
  · show _ ↔ id ∈ sentIds (es ++ (w.events ++ _)) ∨ w.server.Pending id
    rw [hsent, List.mem_append, List.mem_singleton, or_right_comm, ← h.accounts.each]
    constructor
    · rintro ⟨row', hrow'⟩
      obtain ⟨hid, -⟩ | hold := (Table.row_insert_eq_some _ _).mp hrow'
      · exact .inr hid
      · exact .inl ⟨row', hold⟩
    · rintro (⟨row', hrow'⟩ | rfl)
      · exact ⟨row', Table.row_insert_of_some _ _ hrow'⟩
      · exact ⟨row, Table.row_insert_next _ _⟩
  · show id ∉ sentIds (es ++ (w.events ++ _))
    rw [hsent, List.mem_append, List.mem_singleton]
    rintro (hmem | rfl)
    · exact h.accounts.apart id hid hmem
    · exact h.not_pending_next hid
  · exact (congrArg List.length (hanswers r)).trans (h.accounts.ended r hr)
  · exact (hanswers r).trans (h.accounts.unanswered r hr)
  · obtain ⟨-, rfl⟩ | hold := (Table.row_insert_eq_some _ _).mp hrow'
    · exact ⟨metadata, hparsed⟩
    · exact h.parsed id row' hold
  · obtain hold | hnew := List.mem_append.mp he
    · exact (h.shows e hold).of_row fun _ _ => Table.row_insert_of_some _ _
    · obtain rfl := List.mem_singleton.mp hnew
      exact ⟨Table.row_insert_next _ _, hparsed⟩

theorem holds_suspend {call : ChatCall} (hcall : w.server.Holds request call.messageId)
    (args : List String) (r i : ℕ) :
    (w.suspend request call args).server.Holds r i ↔ w.server.Holds r i := by
  obtain ⟨last, hlast, hid⟩ := hcall
  show (∃ c, (w.server.requests.update request fun _ => call).row r = some c ∧ _) ↔ _
  rw [Table.row_update]
  unfold ChatServer.Holds
  by_cases hr : r = request
  · rw [if_pos hr, hr, hlast]
    simp [hid]
  · rw [if_neg hr]

/-- **A request that waits on**, for the same message. -/
theorem ChatWork.Sound.suspend (h : w.Sound site es) {call : ChatCall}
    (hcall : w.server.Holds request call.messageId) (args : List String) :
    ChatWork.Sound site es (w.suspend request call args) :=
  h.emit (e := .command request args) trivial rfl rfl (holds_suspend hcall args)

theorem holds_answer (response : ChatResponse) (r i : ℕ) :
    (w.answer request response).server.Holds r i ↔ w.server.Holds r i ∧ r ≠ request := by
  unfold ChatServer.Holds
  constructor
  · rintro ⟨call, hcall, hi⟩
    obtain ⟨hcall, hr⟩ := (Table.row_deleteWhere_eq_some _ _).mp hcall
    exact ⟨⟨call, hcall, hi⟩, of_decide_eq_false hr⟩
  · rintro ⟨⟨call, hcall, hi⟩, hr⟩
    exact ⟨call, (Table.row_deleteWhere_eq_some _ _).mpr ⟨hcall, decide_eq_false hr⟩, hi⟩

/-- **The end of a request**: its message is broadcast, and it is answered. -/
theorem ChatWork.Sound.finish (h : w.Sound site es) (hid : w.server.Holds request id)
    (forward : Option ForwardInfo) :
    (w.finish site request id forward).Sound site es := by
  obtain ⟨row, hrow⟩ := (h.accounts.each id).mpr (.inr ⟨request, hid⟩)
  obtain ⟨metadata, hparsed⟩ := h.parsed id row hrow
  have hlt : request < w.server.requests.next := by
    obtain ⟨call, hcall, -⟩ := hid
    exact w.server.requests.row_lt hcall
  rw [finish_eq hrow hparsed]
  generalize hw : (w.emit (.message request false id row metadata)).answer request
    (.created id row metadata forward) = w'
  have hholds : ∀ r i, w'.server.Holds r i ↔ w.server.Holds r i ∧ r ≠ request := by
    rw [← hw]
    exact holds_answer _
  have hevents : w'.events = w.events ++ [.message request false id row metadata,
      .answered (some request) (.created id row metadata forward)] := by
    rw [← hw]
    exact List.append_assoc _ _ _
  have hserver : w'.server.messages = w.server.messages
      ∧ w'.server.requests.next = w.server.requests.next := by
    rw [← hw]
    exact ⟨rfl, rfl⟩
  clear hw
  have hsent : sentIds (es ++ w'.events) = sentIds (es ++ w.events) ++ [id] := by
    rw [hevents, ← List.append_assoc, sentIds_append]
    rfl
  have hanswers : ∀ r, answersTo r (es ++ w'.events) = answersTo r (es ++ w.events)
      ++ if request = r then [.created id row metadata forward] else [] := by
    intro r
    rw [hevents, ← List.append_assoc, answersTo_append]
    refine congrArg _ ?_
    unfold answersTo
    split <;> simp [*]
  have hnot : id ∉ sentIds (es ++ w.events) := h.accounts.apart id ⟨request, hid⟩
  -- only the request held its message
  have hpending : ∀ i, w'.server.Pending i ↔ w.server.Pending i ∧ i ≠ id := by
    intro i
    constructor
    · rintro ⟨r, hr⟩
      obtain ⟨hr, hne⟩ := (hholds r i).mp hr
      refine ⟨⟨r, hr⟩, ?_⟩
      rintro rfl
      exact hne (h.apart r request i hr hid)
    · rintro ⟨⟨r, hr⟩, hne⟩
      refine ⟨r, (hholds r i).mpr ⟨hr, ?_⟩⟩
      rintro rfl
      obtain ⟨call, hcall, rfl⟩ := hr
      obtain ⟨call', hcall', rfl⟩ := hid
      exact hne (congrArg ChatCall.messageId (Option.some.inj (hcall.symm.trans hcall')))
  have hended : ∀ r, w'.server.Ended r ↔ w.server.Ended r ∨ r = request := by
    intro r
    unfold ChatServer.Ended
    rw [hserver.2]
    constructor
    · rintro ⟨hpos, hnext, hnone⟩
      by_cases hr : r = request
      · exact .inr hr
      · exact .inl ⟨hpos, hnext, fun i hi => hnone i ((hholds r i).mpr ⟨hi, hr⟩)⟩
    · rintro (⟨hpos, hnext, hnone⟩ | rfl)
      · exact ⟨hpos, hnext, fun i hi => hnone i ((hholds r i).mp hi).1⟩
      · exact ⟨h.positive.2 _ _ hid, hlt, fun i hi => ((hholds r i).mp hi).2 rfl⟩
  have hnotEnded : ¬ w.server.Ended request := fun hr => hr.2.2 id hid
  refine ⟨⟨?_, fun i => ?_, fun i hi => ?_, fun r hr => ?_, fun r hr => ?_⟩,
    fun r r' i hr hr' => h.apart r r' i ((hholds r i).mp hr).1 ((hholds r' i).mp hr').1,
    ⟨hserver.2 ▸ h.positive.1, fun r i hr => h.positive.2 r i ((hholds r i).mp hr).1⟩,
    fun i row' hrow' => h.parsed i row' (hserver.1 ▸ hrow'), fun e he => ?_⟩
  · rw [hsent]
    exact List.nodup_append.mpr ⟨h.accounts.once, List.nodup_singleton _, fun i hi j hj heq =>
      hnot (List.mem_singleton.mp hj ▸ heq ▸ hi)⟩
  · rw [hserver.1, h.accounts.each, hsent, List.mem_append, List.mem_singleton, hpending]
    by_cases hi : i = id
    · simp [hi, show w.server.Pending id from ⟨request, hid⟩]
    · simp [hi]
  · rw [hsent, List.mem_append, List.mem_singleton]
    obtain ⟨hi, hne⟩ := (hpending i).mp hi
    exact fun hmem => hmem.elim (h.accounts.apart i hi) hne
  · rw [hanswers]
    obtain hr | rfl := (hended r).mp hr
    · rw [if_neg fun heq : request = r => hnotEnded (heq ▸ hr), List.append_nil]
      exact h.accounts.ended r hr
    · rw [if_pos rfl, h.accounts.unanswered r hnotEnded]
      rfl
  · rw [hanswers, if_neg fun heq : request = r => hr ((hended r).mpr (.inr heq.symm)),
      List.append_nil]
    exact h.accounts.unanswered r fun hr' => hr ((hended r).mpr (.inl hr'))
  · rw [hevents] at he
    obtain hold | hnew := List.mem_append.mp he
    · exact (h.shows e hold).of_row fun i row' hi => hserver.1 ▸ hi
    · simp only [List.mem_cons, List.not_mem_nil, or_false] at hnew
      obtain rfl | rfl := hnew
      · exact ⟨hserver.1 ▸ hrow, hparsed⟩
      · trivial

/-- **A reply of a request**, which leaves the request under way. -/
theorem ChatWork.Sound.of_createChatReply (h : w.Sound site es) {now : ℕ}
    {conversationId toAgent content messageType : String} {metadata : Json} {w' : ChatWork × Bool}
    (hw' : w.createChatReply site request now conversationId toAgent content messageType metadata
      = w') (hnumbers : metadata.numbers = []) :
    w'.2 = true ∧ w'.1.Sound site es ∧ ∀ r i, w'.1.server.Holds r i ↔ w.server.Holds r i := by
  rw [createChatReply_eq hnumbers] at hw'
  rw [← hw']
  refine ⟨rfl, h.reply (parseColumn_jsonText ?_), fun _ _ => Iff.rfl⟩
  rw [hnumbers]
  exact fun q hq => absurd hq List.not_mem_nil

/-- **A request that has waited for the gateway.** -/
theorem ChatWork.Sound.handleSent (h : w.Sound site es) (hid : w.server.Holds request id)
    (now : ℕ) (conversation : Json) (sender : String)
    (forward : ForwardInfo) :
    (handleSent site w request now id conversation sender forward).Sound site es := by
  unfold MissionControl.handleSent
  split
  · exact h.finish hid _
  · next c _ =>
    split
    · generalize hw' : ChatWork.createChatReply site w request now c sender _ _ _ = w'
      obtain ⟨-, hsound, hholds⟩ := h.of_createChatReply hw' (numbers_replyMetadata _ _)
      dsimp only
      split
      · exact hsound.suspend ((hholds _ _).mpr hid) _
      · exact hsound.finish ((hholds _ _).mpr hid) _
    · generalize hw' : ChatWork.createChatReply site w request now c sender _ _ _ = w'
      obtain ⟨-, hsound, hholds⟩ := h.of_createChatReply hw' rfl
      exact hsound.finish ((hholds _ _).mpr hid) _

/-- **A request that has waited for its run.** -/
theorem ChatWork.Sound.handleWait (h : w.Sound site es) (hid : w.server.Holds request id)
    (now : ℕ) (conversation sender : String) (forward : ForwardInfo)
    (runId : String) (outcome : GatewayOutcome) :
    (handleWait site w request now id conversation sender forward runId outcome).Sound site es := by
  have hreply : ∀ (r : CompletionReply), ∃ w', w.createChatReply site request now conversation
      sender r.content r.messageType (replyMetadata r.status (.str runId)) = (w', true)
      ∧ (w'.finish site request id (some forward)).Sound site es := by
    intro r
    generalize hw' : w.createChatReply site request now conversation sender r.content
      r.messageType (replyMetadata r.status (.str runId)) = w'
    obtain ⟨hok, hsound, hholds⟩ := h.of_createChatReply hw' (numbers_replyMetadata _ (some runId))
    exact ⟨w'.1, Prod.ext rfl hok, hsound.finish ((hholds _ _).mpr hid) _⟩
  unfold MissionControl.handleWait
  dsimp only
  split
  · split
    · obtain ⟨w', hw', hsound⟩ := hreply (unknownReply site ((none : Option String).getD "")
        ((none : Option String).getD ""))
      rw [hw']
      exact hsound
    · next r _ =>
      obtain ⟨w', hw', hsound⟩ := hreply r
      rw [hw']
      exact hsound
  · next stdout stderr =>
    obtain ⟨w', hw', hsound⟩ := hreply (unknownReply site (stdout.getD "") (stderr.getD ""))
    rw [hw']
    exact hsound

/-- **A message is stored**, and its request is under way. -/
theorem ChatWork.Sound.start {s : ChatServer} (h : ChatWork.Sound site es ⟨s, []⟩) {row : ChatRow}
    (hparsed : ∃ metadata, parseColumn site.rt row.metadata = some metadata) :
    ChatWork.Sound site es ⟨{ s with
        messages := s.messages.insert row
        requests := s.requests.insert (.running s.messages.next) }, []⟩ := by
  have hholds : ∀ r i, ChatServer.Holds { s with
      messages := s.messages.insert row
      requests := s.requests.insert (.running s.messages.next) } r i
      ↔ s.Holds r i ∨ r = s.requests.next ∧ i = s.messages.next := by
    intro r i
    constructor
    · rintro ⟨call, hcall, hi⟩
      obtain ⟨hr, rfl⟩ | hold := (Table.row_insert_eq_some _ _).mp hcall
      · exact .inr ⟨hr, hi.symm⟩
      · exact .inl ⟨call, hold, hi⟩
    · rintro (⟨call, hcall, hi⟩ | ⟨rfl, rfl⟩)
      · exact ⟨call, Table.row_insert_of_some _ _ hcall, hi⟩
      · exact ⟨_, Table.row_insert_next _ _, rfl⟩
  -- neither the id of the row nor that of the request was given before
  have hnext := h.not_pending_next
  have hnone : ∀ i, ¬ s.Holds s.requests.next i := by
    rintro i ⟨call, hcall, -⟩
    exact absurd (s.requests.row_next ▸ hcall) nofun
  generalize hs' : ({ s with
    messages := s.messages.insert row
    requests := s.requests.insert (.running s.messages.next) } : ChatServer) = s' at hholds ⊢
  have hmessages : s'.messages = s.messages.insert row := hs' ▸ rfl
  have hrequests : s'.requests.next = s.requests.next + 1 := hs' ▸ rfl
  have hpending : ∀ i, s'.Pending i ↔ s.Pending i ∨ i = s.messages.next := by
    intro i
    constructor
    · rintro ⟨r, hr⟩
      exact ((hholds r i).mp hr).imp (fun hold => ⟨r, hold⟩) And.right
    · rintro (⟨r, hr⟩ | hi)
      · exact ⟨r, (hholds r i).mpr (.inl hr)⟩
      · exact ⟨_, (hholds _ i).mpr (.inr ⟨rfl, hi⟩)⟩
  have hended : ∀ r, s'.Ended r ↔ s.Ended r := by
    intro r
    unfold ChatServer.Ended
    rw [hrequests]
    constructor
    · rintro ⟨hpos, hlt, hno⟩
      refine ⟨hpos, Nat.lt_of_le_of_ne (Nat.le_of_lt_succ hlt) ?_,
        fun i hi => hno i ((hholds r i).mpr (.inl hi))⟩
      rintro rfl
      exact hno _ ((hholds _ _).mpr (.inr ⟨rfl, rfl⟩))
    · rintro ⟨hpos, hlt, hno⟩
      refine ⟨hpos, Nat.lt_succ_of_lt hlt, fun i hi => ?_⟩
      obtain hold | ⟨rfl, -⟩ := (hholds r i).mp hi
      · exact hno i hold
      · exact absurd hlt (Nat.lt_irrefl _)
  refine ⟨⟨h.accounts.once, fun i => ?_, fun i hi => ?_,
    fun r hr => h.accounts.ended r ((hended r).mp hr),
    fun r hr => h.accounts.unanswered r fun hr' => hr ((hended r).mpr hr')⟩,
    fun r r' i hr hr' => ?_, ⟨hrequests ▸ Nat.succ_pos _, fun r i hr => ?_⟩,
    fun i row' hrow' => ?_, fun e he => absurd he List.not_mem_nil⟩
  · rw [hpending, ← or_assoc]
    refine Iff.trans ?_ (or_congr_left (h.accounts.each i))
    rw [hmessages]
    constructor
    · rintro ⟨row', hrow'⟩
      obtain ⟨hi, -⟩ | hold := (Table.row_insert_eq_some _ _).mp hrow'
      · exact .inr hi
      · exact .inl ⟨row', hold⟩
    · rintro (⟨row', hrow'⟩ | rfl)
      · exact ⟨row', Table.row_insert_of_some _ _ hrow'⟩
      · exact ⟨row, Table.row_insert_next _ _⟩
  · obtain hold | rfl := (hpending i).mp hi
    · exact h.accounts.apart i hold
    · exact h.next_notMem
  -- no two requests hold one message: the new one holds a message that nobody held
  · obtain hold | ⟨rfl, rfl⟩ := (hholds r i).mp hr
    · obtain hold' | ⟨rfl, rfl⟩ := (hholds r' i).mp hr'
      · exact h.apart r r' i hold hold'
      · exact absurd ⟨r, hold⟩ hnext
    · obtain hold' | ⟨rfl, -⟩ := (hholds r' _).mp hr'
      · exact absurd ⟨r', hold'⟩ hnext
      · rfl
  · obtain hold | ⟨rfl, -⟩ := (hholds r i).mp hr
    · exact h.positive.2 r i hold
    · exact h.positive.1
  · dsimp only at hrow'
    rw [hmessages] at hrow'
    obtain ⟨-, rfl⟩ | hold := (Table.row_insert_eq_some _ _).mp hrow'
    · exact hparsed
    · exact h.parsed i row' hold

/-- **The metadata of a row** is the text that was bound last. -/
theorem metadata_messageOfValues {now : ℕ} (before : List (Option Json)) {metadata : Option Json}
    {values : List SqlValue} {row : ChatRow}
    (hvalues : SqlValue.bindAll 6
      (before ++ [metadata.map fun j => .str (jsonText site.rt j)]) = .ok values)
    (hrow : messageOfValues site.sq now values = some row) :
    row.metadata = metadata.map (jsonText site.rt) := by
  have hlast : [metadata.map fun j => .str (jsonText site.rt j)].map SqlValue.bindParameter
      = [SqlValue.ofText (metadata.map (jsonText site.rt))].map fun v => .ok [v] := by
    cases metadata <;> rfl
  obtain ⟨first, rfl, hlength⟩ := bindAll_append hlast hvalues
  obtain ⟨a, b, c, d, e, rfl⟩ : ∃ a b c d e, first = [a, b, c, d, e] := by
    match first, hlength with
    | [a, b, c, d, e], _ => exact ⟨a, b, c, d, e, rfl⟩
  unfold messageOfValues at hrow
  simp only [List.cons_append, List.nil_append] at hrow
  split at hrow
  · obtain rfl := Option.some.inj hrow
    cases metadata <;> rfl
  · cases hrow

/-- The metadata of a row can be parsed, if the request can be read. -/
theorem parsed_of_readable {metadata : Option Json}
    (h : ∀ j, metadata = some j → Json.NumbersRead site.rt j.numbers) :
    ∃ parsed, parseColumn site.rt (metadata.map (jsonText site.rt)) = some parsed := by
  cases metadata with
  | none => exact ⟨none, rfl⟩
  | some j => exact ⟨_, parseColumn_jsonText (h j rfl)⟩

/-- **What a message that is accepted writes and shows.** -/
theorem ChatWork.Sound.sendMessage {s : ChatServer} (h : ChatWork.Sound site es ⟨s, []⟩)
    {row : ChatRow} (hparsed : ∃ metadata, parseColumn site.rt row.metadata = some metadata)
    (post : ChatPost) {m : ChatMessageFields} {messageType : String}
    (hm : m.messageType.toStr site.rt = .ok messageType) :
    (sendMessage site s post m row).Sound site es := by
  have hstart := h.start hparsed
  have hid : ∀ w : ChatWork, w.server.requests = s.requests.insert (.running s.messages.next) →
      w.server.Holds s.requests.next s.messages.next := by
    intro w hw
    refine ⟨.running s.messages.next, ?_, rfl⟩
    rw [hw]
    exact Table.row_insert_next _ _
  unfold MissionControl.sendMessage
  dsimp only
  rw [hm]
  dsimp only
  have hactivity : ∀ activity, ChatWork.Sound site es ⟨{ s with
      messages := s.messages.insert row
      activities := s.activities.insert activity
      requests := s.requests.insert (.running s.messages.next) },
      [] ++ [.activity s.activities.next activity]⟩ := fun activity =>
    hstart.emit (e := .activity s.activities.next activity) trivial rfl rfl fun _ _ => Iff.rfl
  split
  · exact (hactivity _).finish (hid _ rfl) _
  · next recipient _ =>
    have hnotification : ∀ activity notification, ChatWork.Sound site es ⟨{ s with
        messages := s.messages.insert row
        activities := s.activities.insert activity
        notifications := s.notifications.insert notification
        requests := s.requests.insert (.running s.messages.next) },
        [] ++ [.activity s.activities.next activity]
          ++ [.notification s.notifications.next notification]⟩ := fun activity notification =>
      (hactivity activity).emit (e := .notification s.notifications.next notification) trivial rfl
        rfl fun _ _ => Iff.rfl
    split
    · unfold forwardMessage
      dsimp only
      split
      · split
        · next c _ =>
          generalize hw' : ChatWork.createChatReply site _ s.requests.next (post.now / 1000) c
            m.sender _ _ _ = w'
          obtain ⟨-, hsound, hholds⟩ := (hnotification _ _).of_createChatReply hw' rfl
          exact hsound.finish ((hholds _ _).mpr (hid _ rfl)) _
        · exact (hnotification _ _).finish (hid _ rfl) _
      · exact (hnotification _ _).suspend (hid _ rfl) _
    · exact (hnotification _ _).finish (hid _ rfl) _

/-- **A message that is read** keeps its metadata. -/
theorem ChatWork.Sound.patchMessage {s : ChatServer} (h : ChatWork.Sound site es ⟨s, []⟩)
    (auth : RoleAnswer) (idText : String) (body : Option Json) (now : ℕ) :
    ChatWork.Sound site es ⟨(patchMessage site s auth idText body now).1, []⟩ := by
  obtain heq | ⟨n, row, readAt, hrow, heq⟩ := patchMessage_cases site s auth idText body now
  · rw [heq]
    exact h
  rw [heq]
  have hsame : ∀ i, (∃ r, (s.messages.update n fun _ => { row with readAt }).row i = some r)
      ↔ ∃ r, s.messages.row i = some r := by
    intro i
    rw [Table.row_update]
    split
    · next hi =>
      rw [hi, hrow]
      simp
    · rfl
  refine ⟨⟨h.accounts.once, fun i => (hsame i).trans (h.accounts.each i), h.accounts.apart,
    h.accounts.ended, h.accounts.unanswered⟩, h.apart, h.positive, fun i r hr => ?_,
    fun e he => absurd he List.not_mem_nil⟩
  dsimp only at hr
  rw [Table.row_update] at hr
  split at hr
  · rw [hrow] at hr
    obtain rfl := Option.some.inj hr
    exact h.parsed n row hrow
  · exact h.parsed i r hr

theorem ChatWork.Sound.rebase (h : w.Sound site es) :
    ChatWork.Sound site (es ++ w.events) ⟨w.server, []⟩ :=
  ⟨by
    dsimp only
    rw [List.append_nil]
    exact h.accounts, h.apart, h.positive, h.parsed, fun e he => absurd he List.not_mem_nil⟩

/-- **A message that is refused** changes nothing. -/
theorem ChatWork.Sound.refuse {s : ChatServer} (h : ChatWork.Sound site es ⟨s, []⟩)
    (response : ChatResponse) : ChatWork.Sound site es ⟨s, [.answered none response]⟩ :=
  h.emit (e := .answered none response) trivial rfl rfl fun _ _ => Iff.rfl

/-- **A message that comes.** -/
theorem ChatWork.Sound.postMessage {s : ChatServer} (h : ChatWork.Sound site es ⟨s, []⟩)
    {post : ChatPost} (hpost : post.Readable site) :
    (postMessage site s post).Sound site es := by
  unfold MissionControl.postMessage
  dsimp only
  split
  · exact h.refuse _
  split
  · exact h.refuse _
  next body hbody =>
  split
  · exact h.refuse _
  next m hm =>
  obtain ⟨⟨messageType, htype⟩, hnumbers⟩ := hpost body m hbody hm
  split
  · exact h.refuse _
  split
  · exact h.refuse _
  next values hvalues =>
  split
  · exact h.refuse _
  next row hrow =>
  have hmetadata := metadata_messageOfValues [some m.conversationId, some (.str m.sender),
    m.recipient.map .str, some (.str m.content), some m.messageType] hvalues hrow
  refine h.sendMessage ?_ post htype
  rw [hmetadata]
  exact parsed_of_readable hnumbers

/-- **A command that has ended.** -/
theorem ChatWork.Sound.commandEnded {s : ChatServer} (h : ChatWork.Sound site es ⟨s, []⟩)
    (request : ℕ) (outcome : GatewayOutcome) (now : ℕ) :
    (commandEnded site s request outcome now).Sound site es := by
  unfold MissionControl.commandEnded
  split
  · next hrow => exact h.handleSent ⟨_, hrow, rfl⟩ _ _ _ _
  · next hrow => exact h.handleWait ⟨_, hrow, rfl⟩ _ _ _ _ _ _
  · exact h

/-- **Every step accounts for its messages.** -/
theorem ChatWork.Sound.step {s : ChatServer} (h : ChatWork.Sound site es ⟨s, []⟩)
    {a : ChatServerAction} (ha : ∀ post, a = .post post → post.Readable site) :
    (chatWork site s a).Sound site es := by
  cases a with
  | post post => exact h.postMessage (ha post rfl)
  | command request outcome now => exact h.commandEnded request outcome _
  | patch auth idText body now =>
    exact (h.patchMessage auth idText body (now / 1000)).emit (e := .answered none _) trivial rfl
      rfl fun _ _ => Iff.rfl

end Work

theorem ChatWork.Sound.initial (site : ChatSite) :
    ChatWork.Sound site [] ⟨.initial, []⟩ := by
  have hnone : ∀ r id, ¬ ChatServer.initial.Holds r id := by
    rintro r id ⟨call, hcall, -⟩
    cases hcall
  have hrow : ∀ id row, ChatServer.initial.messages.row id ≠ some row := nofun
  refine ⟨⟨List.nodup_nil, fun id => ?_, fun id => ?_, fun r hr => ?_, fun r _ => rfl⟩,
    fun r r' id hr => absurd hr (hnone r id), ⟨Nat.zero_lt_one, fun r id hr =>
      absurd hr (hnone r id)⟩, fun id row hr => absurd hr (hrow id row),
    fun e he => absurd he List.not_mem_nil⟩
  · constructor
    · rintro ⟨row, hr⟩
      exact absurd hr (hrow id row)
    · rintro (hid | ⟨r, hr⟩)
      · exact absurd hid List.not_mem_nil
      · exact absurd hr (hnone r id)
  · rintro ⟨r, hr⟩
    exact absurd hr (hnone r id)
  · exact absurd hr.2.1 (Nat.not_lt.mpr hr.1)

section Runs

variable {site : ChatSite}

/-- **The invariant of a run.** -/
theorem chatServer_sound (as : List ChatServerAction)
    (h : ∀ post, ChatServerAction.post post ∈ as → post.Readable site) :
    ChatWork.Sound site ((chatServer site).trace .initial as)
      ⟨(chatServer site).state .initial as, []⟩ := by
  induction as using List.reverseRecOn with
  | nil => exact ChatWork.Sound.initial site
  | append_singleton as a ih =>
    rw [Machine.state_concat, Machine.trace_concat]
    have hbefore := ih fun post hpost => h post (List.mem_append_left _ hpost)
    exact (hbefore.step fun post hpost =>
      h post (List.mem_append_right _ (List.mem_singleton.mpr hpost.symm))).rebase

/-- **No message is lost and none is sent twice**, however the requests are interleaved: in every
state that is reached a message that is stored has been broadcast once, or its request is under way;
a request has been answered once, or is under way; and what a step broadcasts is the row as it is
stored, with its metadata. -/
theorem chatServer_accounts (site : ChatSite) (as : List ChatServerAction)
    (h : ∀ post, ChatServerAction.post post ∈ as → post.Readable site) :
    ((chatServer site).state .initial as).Accounts ((chatServer site).trace .initial as)
      ∧ ∀ p a, p ++ [a] <+: as →
          ∀ e ∈ (chatServer site).emits ((chatServer site).state .initial p) a,
            e.Shows site ((chatServer site).state .initial (p ++ [a])) := by
  refine ⟨?_, fun p a hp e he => ?_⟩
  · have hsound := (chatServer_sound as h).accounts
    rwa [List.append_nil] at hsound
  · have hmem : ∀ b ∈ p ++ [a], b ∈ as := fun b hb => hp.subset hb
    have hbefore := chatServer_sound p fun post hpost =>
      h post (hmem _ (List.mem_append_left _ hpost))
    have hstep := hbefore.step (a := a) fun post hpost =>
      h post (hmem _ (List.mem_append_right _ (List.mem_singleton.mpr hpost.symm)))
    rw [Machine.state_concat]
    exact hstep.shows e he

/-- A message to the coordinator, that is forwarded. -/
def sampleChatPost : ChatPost where
  auth := .user ⟨0, "api", "API Access", "admin", none, none, none, none⟩
  body := some (.obj [("from", .str "ann"), ("to", .str "Coordinator"), ("content", .str "hi"),
    ("conversation_id", .str "coord:ann"), ("metadata", .obj [("tag", .str "a")]),
    ("forward", .bool true)])
  now := 5000
  agent := none
  sessions := []

/-- The message is sent, is taken and is answered. -/
def sampleChatRun : List ChatServerAction :=
  [.post sampleChatPost, .command 1 (.resolved "\x7b\"runId\":\"r1\"\x7d") 6000,
    .command 1 (.resolved "\x7b\"status\":\"ok\",\"text\":\"done\"\x7d") 7000]

/-- What is read of it. -/
def sampleChatFields : ChatMessageFields :=
  ⟨"ann", some "Coordinator", "hi", .str "text", .str "coord:ann",
    some (.obj [("tag", .str "a")]), true⟩

theorem readable_sampleChatRun (site : ChatSite) (post : ChatPost)
    (hpost : ChatServerAction.post post ∈ sampleChatRun) : post.Readable site := by
  obtain rfl : post = sampleChatPost := by
    simpa [sampleChatRun] using hpost
  intro body m hbody hm
  obtain rfl := Option.some.inj hbody
  have hread : (Except.ok m : Except Exception ChatMessageFields) = .ok sampleChatFields :=
    hm.symm.trans rfl
  obtain rfl := Except.ok.inj hread
  refine ⟨⟨"text", rfl⟩, fun j hj => ?_⟩
  obtain rfl := Option.some.inj hj
  exact fun q hq => absurd hq List.not_mem_nil

theorem chatServer_accounts_sample :
    ((chatServer ⟨sampleRuntime, sampleSqlite, fun _ => none⟩).state .initial
      sampleChatRun).Accounts
      ((chatServer ⟨sampleRuntime, sampleSqlite, fun _ => none⟩).trace .initial sampleChatRun) :=
  (chatServer_accounts _ sampleChatRun (readable_sampleChatRun _)).1

end Runs

end MissionControl
