import MissionControl.ChatDelivery
import MissionControl.ChatHistory
import MissionControl.Library.Composition

/-!
# A conversation that is watched

A page that shows a conversation is handed the messages that the server broadcasts, in their order
but later, and loads the conversation now and then; the answer, too, comes later, and takes the
place of what is shown. An answer that is older than a message that has been handed over takes it
away, and while the stream is open no later load is due that would bring it back.

`chatViewer_complete_iff` says that this is all that can go wrong: for a conversation that is not
longer than what is loaded of it, the page shows what is stored, but for what is on its way, exactly
as long as no answer lacks a message that is shown and is not on its way.
-/

namespace MissionControl

/-! ## The server and the page -/

/-- A message as it is listed. A type that is `NULL` is an empty one. -/
def ChatRow.listed (row : ChatRow) : MessageRow :=
  ⟨row.conversationId, row.fromAgent, row.toAgent, row.content, row.messageType.getD "",
    row.metadata, row.readAt, row.createdAt⟩

/-- The messages that `GET /api/chat/messages` lists. -/
def listedMessages (messages : Table ChatRow) : Table MessageRow where
  next := messages.next
  row id := (messages.row id).map ChatRow.listed
  row_lt := by
    intro id row h
    obtain ⟨row', hrow', -⟩ := Option.map_eq_some_iff.mp h
    exact messages.row_lt hrow'

/-- The messages that are broadcast, as the hook reads them: they have an id. -/
def sentMessages (es : List ChatServerEvent) : List ServerMessage :=
  es.filterMap fun
    | .message _ _ id row metadata =>
      if h : 0 < id then
        some ⟨⟨id, row.conversationId, row.fromAgent, row.toAgent, row.content,
          row.messageType.getD "", metadata, row.readAt, row.createdAt, none⟩,
          Int.natCast_pos.mpr h, rfl⟩
      else none
    | _ => none

/-- **The server and a page**: what is stored, what is shown, the messages that have been broadcast
and not been handed over yet, the answers of loads that have not come yet, and whether one has. -/
structure ChatViewer where
  server : ChatServer
  store : ChatState
  inFlight : List ServerMessage
  responses : Table (List ChatMessage)
  loaded : Bool

def ChatViewer.opened (server : ChatServer) : ChatViewer := ⟨server, ⟨[], []⟩, [], .empty, false⟩

/-- What happens: the server does something, a message is handed to the page, the page loads the
conversation, and an answer comes. -/
inductive ViewerAction where
  | server (a : ChatServerAction)
  | deliver (now : ℕ)
  | load
  | respond (i : ℕ)

/-- **The server and a page that shows a conversation.** -/
def chatViewer (site : ChatSite)
    (order : OrderBy fun a b : ℕ × MessageRow => a.2.createdAt ≤ b.2.createdAt)
    (conversation : String) : Machine ChatViewer ViewerAction Empty where
  step v
    | .server a =>
      ({ v with
        server := (chatServer site).next v.server a
        inFlight := v.inFlight ++ sentMessages ((chatServer site).emits v.server a) }, [])
    | .deliver now =>
      match v.inFlight with
      | [] => (v, [])
      | message :: rest =>
        ({ v with
          store := ChatClient.dispatchMessage v.store message now
          inFlight := rest }, [])
    | .load =>
      match loadMessages site.rt site.sq order (listedMessages v.server.messages) conversation
          "100" with
      | none => (v, [])
      | some messages => ({ v with responses := v.responses.insert messages }, [])
    | .respond i =>
      match v.responses.row i with
      | none => (v, [])
      | some messages =>
        ({ v with
          store := v.store.setChatMessages messages
          responses := v.responses.deleteWhere fun j _ => j = i
          loaded := true }, [])

/-! ## What is promised -/

/-- **A message is shown as it is stored.** -/
def ChatMessage.ShowsRow (m : ChatMessage) (id : ℕ) (row : ChatRow) : Prop :=
  m.id = id ∧ m.conversationId = row.conversationId ∧ m.fromAgent = row.fromAgent
    ∧ m.toAgent = row.toAgent ∧ m.content = row.content

/-- A message is on its way: its request is under way, or it has been broadcast. -/
def ChatViewer.OnTheWay (v : ChatViewer) (id : ℕ) : Prop :=
  v.server.Pending id ∨ ∃ m ∈ v.inFlight, m.id = id

/-- **The page shows the conversation**, once it has been loaded: each of its messages is shown as
it is stored, or is on its way; and none is shown twice. -/
structure ChatViewer.Complete (conversation : String) (v : ChatViewer) : Prop where
  once : (v.store.chatMessages.map ChatMessage.id).Nodup
  shown : v.loaded = true → ∀ id row, v.server.messages.row id = some row →
    row.conversationId = conversation →
      (∃ m ∈ v.store.chatMessages, m.ShowsRow id row) ∨ v.OnTheWay id

/-- **An answer takes no message away** that will not come again. -/
def ChatViewer.TakesNone (conversation : String) (v : ChatViewer) : ViewerAction → Prop
  | .respond i => ∀ messages, v.responses.row i = some messages →
      ∀ m ∈ v.store.chatMessages, m.conversationId = conversation →
        (∃ m' ∈ messages, m'.id = m.id) ∨ v.OnTheWay m.id.toNat
  | _ => True

/-- **So few messages**: those of the conversation are loaded, and all of them are kept. -/
def ChatViewer.Few (conversation : String) (v : ChatViewer) : Prop :=
  (v.server.messages.rows.filter fun r => r.2.conversationId = conversation).length ≤ 100
    ∧ v.server.messages.rows.length ≤ 500

/-! ## How the messages of the server grow -/

/-- **Messages are kept**, but for when they were read, and new ones get new ids. -/
structure ChatServer.Grows (s s' : ChatServer) : Prop where
  next : s.messages.next ≤ s'.messages.next
  old : ∀ id row, s.messages.row id = some row →
    ∃ readAt, s'.messages.row id = some { row with readAt }
  new : ∀ id row, s'.messages.row id = some row → s.messages.row id = none →
    s.messages.next ≤ id

section Growth

variable {site : ChatSite} {s s' s'' : ChatServer}

theorem ChatServer.Grows.of_eq (h : s'.messages = s.messages) : s.Grows s' := by
  refine ⟨by rw [h], fun id row hrow => ⟨row.readAt, by rw [h, hrow]⟩, fun id row hrow hnone => ?_⟩
  rw [h, hnone] at hrow
  cases hrow

theorem ChatServer.Grows.trans (h : s.Grows s') (h' : s'.Grows s'') : s.Grows s'' := by
  refine ⟨h.next.trans h'.next, fun id row hrow => ?_, fun id row hrow hnone => ?_⟩
  · obtain ⟨readAt, hrow'⟩ := h.old id row hrow
    obtain ⟨readAt', hrow''⟩ := h'.old id _ hrow'
    exact ⟨readAt', hrow''⟩
  · cases hmiddle : s'.messages.row id with
    | none => exact h.next.trans (h'.new id row hrow hmiddle)
    | some row' => exact h.new id row' hmiddle hnone

theorem ChatServer.Grows.insert {row : ChatRow}
    (h : s'.messages = s.messages.insert row) : s.Grows s' := by
  refine ⟨?_, fun id row' hrow' => ⟨row'.readAt, ?_⟩, fun id row' hrow' hnone => ?_⟩
  · rw [h]
    exact Nat.le_succ _
  · rw [h]
    exact Table.row_insert_of_some _ _ hrow'
  · rw [h] at hrow'
    obtain ⟨rfl, -⟩ | hold := (Table.row_insert_eq_some _ _).mp hrow'
    · exact Nat.le_refl _
    · rw [hnone] at hold
      cases hold

theorem ChatWork.Acts.grows {request : ℕ} {w w' : ChatWork} (h : w.Acts request w') :
    w.server.Grows w'.server := by
  induction h with
  | refl => exact .of_eq rfl
  | store h row ih => exact ih.trans (.insert rfl)
  | send h isReply id row metadata ih => exact ih
  | suspend h call args ih => exact ih.trans (.of_eq rfl)
  | answer h response ih => exact ih.trans (.of_eq rfl)

/-- **A step keeps the messages.** -/
theorem grows_next (site : ChatSite) (s : ChatServer) (a : ChatServerAction) :
    s.Grows ((chatServer site).next s a) := by
  show s.Grows (chatWork site s a).server
  cases a with
  | post post =>
    show s.Grows (postMessage site s post).server
    obtain ⟨response, heq⟩ | ⟨body, m, row, -, -, heq⟩ := postMessage_cases site s post
    · rw [heq]
      exact .of_eq rfl
    · rw [heq]
      obtain ⟨activities, notifications, events, -, hacts⟩ := acts_sendMessage site s post m row
      exact ChatServer.Grows.trans (.insert rfl) hacts.grows
  | command request outcome now => exact (acts_commandEnded site s request outcome _).grows
  | patch auth idText body now =>
    show s.Grows (patchMessage site s auth idText body (now / 1000)).1
    obtain heq | ⟨n, row, readAt, hrow, heq⟩ :=
      patchMessage_cases site s auth idText body (now / 1000)
    · rw [heq]
      exact .of_eq rfl
    rw [heq]
    refine ⟨Nat.le_refl _, fun id row' hrow' => ?_, fun id row' hrow' hnone => ?_⟩
    · dsimp only
      rw [Table.row_update]
      split
      · next hid =>
        rw [hid, hrow] at hrow'
        obtain rfl := Option.some.inj hrow'
        exact ⟨readAt, by rw [hrow]; rfl⟩
      · exact ⟨row'.readAt, hrow'⟩
    · dsimp only at hrow'
      rw [Table.row_update] at hrow'
      split at hrow'
      · next hid =>
        rw [hid, hrow] at hnone
        cases hnone
      · rw [hnone] at hrow'
        cases hrow'

/-- The ids of the messages of a server begin at one. -/
def ChatServer.Positive (s : ChatServer) : Prop :=
  0 < s.messages.next ∧ ∀ id row, s.messages.row id = some row → 0 < id

theorem ChatServer.Positive.grows (h : s.Positive) (hgrows : s.Grows s') :
    s'.Positive := by
  refine ⟨h.1.trans_le hgrows.next, fun id row hrow => ?_⟩
  cases hold : s.messages.row id with
  | none => exact h.1.trans_le (hgrows.new id row hrow hold)
  | some row' => exact h.2 id row' hold

end Growth

/-! ## What the page has is stored -/

/-- A message that is stored, as it is shown. -/
def ChatServer.Has (s : ChatServer) (m : ChatMessage) : Prop :=
  ∃ id row, s.messages.row id = some row ∧ m.ShowsRow id row

section Has

variable {site : ChatSite} {s s' : ChatServer} {m : ChatMessage} {messages : List ChatMessage}

theorem ChatServer.Has.grows (h : s.Has m) (hgrows : s.Grows s') : s'.Has m := by
  obtain ⟨id, row, hrow, hshows⟩ := h
  obtain ⟨readAt, hrow'⟩ := hgrows.old id row hrow
  exact ⟨id, _, hrow', hshows⟩

theorem ChatServer.Has.showsRow (h : s.Has m) {id : ℕ} {row : ChatRow}
    (hrow : s.messages.row id = some row) (hid : m.id = id) : m.ShowsRow id row := by
  obtain ⟨id', row', hrow', hshows⟩ := h
  obtain rfl : id' = id := Int.natCast_inj.mp (hshows.1.symm.trans hid)
  rw [hrow] at hrow'
  obtain rfl := Option.some.inj hrow'
  exact hshows

/-- **There are no more messages than rows.** -/
theorem length_le_of_has (hhas : ∀ m ∈ messages, s.Has m)
    (honce : (messages.map ChatMessage.id).Nodup) :
    messages.length ≤ s.messages.rows.length := by
  have hsubset : messages.map ChatMessage.id ⊆ s.messages.rows.map fun r => (r.1 : ℤ) := by
    intro i hi
    obtain ⟨m, hm, rfl⟩ := List.mem_map.mp hi
    obtain ⟨id, row, hrow, hshows⟩ := hhas m hm
    exact List.mem_map.mpr ⟨(id, row), (Table.mem_rows _).mpr hrow, hshows.1.symm⟩
  have hle := (honce.subperm hsubset).length_le
  rwa [List.length_map, List.length_map] at hle

theorem lastMessages_of_has (hhas : ∀ m ∈ messages, s.Has m)
    (honce : (messages.map ChatMessage.id).Nodup) (hfew : s.messages.rows.length ≤ 500) :
    lastMessages messages = messages :=
  lastMessages_eq_self ((length_le_of_has hhas honce).trans hfew)

theorem has_of_mem_sentMessages {es : List ChatServerEvent} (h : ∀ e ∈ es, e.Shows site s)
    {m : ServerMessage} (hm : m ∈ sentMessages es) : s.Has m.toChatMessage := by
  obtain ⟨e, he, hmessage⟩ := List.mem_filterMap.mp hm
  cases e with
  | message request isReply id row metadata =>
    dsimp only at hmessage
    split at hmessage
    · obtain rfl := Option.some.inj hmessage
      exact ⟨id, row, (h _ he).1, rfl, rfl, rfl, rfl, rfl⟩
    · cases hmessage
  | _ => cases hmessage

theorem mem_sentMessages_of_sentIds {es : List ChatServerEvent} {id : ℕ} (hpos : 0 < id)
    (h : id ∈ sentIds es) : ∃ m ∈ sentMessages es, m.id = id := by
  obtain ⟨e, he, hid⟩ := List.mem_filterMap.mp h
  cases e with
  | message request isReply id' row metadata =>
    obtain rfl := Option.some.inj hid
    exact ⟨_, List.mem_filterMap.mpr ⟨_, he, dif_pos hpos⟩, rfl⟩
  | _ => cases hid

end Has

/-! ## What is loaded -/

section Load

variable {site : ChatSite} {conversation : String} {messages : List ChatMessage}
  {order : OrderBy fun a b : ℕ × MessageRow => a.2.createdAt ≤ b.2.createdAt}

theorem mem_listedMessages {t : Table ChatRow} {r : ℕ × MessageRow} :
    r ∈ conversationRows (listedMessages t) conversation
      ↔ ∃ row, t.row r.1 = some row ∧ row.listed = r.2 ∧ row.conversationId = conversation := by
  rw [mem_conversationRows]
  constructor
  · rintro ⟨hrow, hc⟩
    obtain ⟨row, hrow, heq⟩ := Option.map_eq_some_iff.mp hrow
    refine ⟨row, hrow, heq, ?_⟩
    rw [← hc, ← heq]
    rfl
  · rintro ⟨row, hrow, heq, hc⟩
    refine ⟨Option.map_eq_some_iff.mpr ⟨row, hrow, heq⟩, ?_⟩
    rw [← heq, ← hc]
    rfl

theorem length_conversationRows (t : Table ChatRow) :
    (conversationRows (listedMessages t) conversation).length
      = (t.rows.filter fun r => r.2.conversationId = conversation).length := by
  have hrows : (listedMessages t).rows = t.rows.map fun r => (r.1, r.2.listed) := by
    unfold Table.rows
    rw [List.map_filterMap]
    refine List.filterMap_congr fun id _ => ?_
    show ((t.row id).map ChatRow.listed).map _ = _
    cases t.row id <;> rfl
  unfold conversationRows
  rw [hrows, List.filter_map, List.length_map]
  rfl

theorem map_id_parseMessage {rt : Runtime} {rows : List (ℕ × MessageRow)} :
    ∀ {messages : List ChatMessage}, rows.map (parseMessage rt) = messages.map some →
      messages.map ChatMessage.id = rows.map fun r => (r.1 : ℤ) := by
  induction rows with
  | nil =>
    intro messages h
    rw [List.map_eq_nil_iff.mp h.symm]
    rfl
  | cons r rows ih =>
    intro messages h
    cases messages with
    | nil => cases h
    | cons m messages =>
      obtain ⟨hm, hrest⟩ := List.cons.inj h
      obtain ⟨metadata, -, rfl⟩ := Option.map_eq_some_iff.mp hm
      rw [List.map_cons, List.map_cons, ih hrest]

/-- **What is loaded of so short a conversation** are all its messages, as they are stored, each of
them once. -/
theorem loadMessages_all {s : ChatServer}
    (hload : loadMessages site.rt site.sq order (listedMessages s.messages) conversation "100"
      = some messages)
    (hfew : (s.messages.rows.filter fun r => r.2.conversationId = conversation).length ≤ 100) :
    (messages.map ChatMessage.id).Nodup ∧ (∀ m ∈ messages, s.Has m)
      ∧ ∀ id row, s.messages.row id = some row → row.conversationId = conversation →
          ∃ m ∈ messages, m.id = id := by
  have hne : conversation ≠ "" := by
    rintro rfl
    unfold loadMessages at hload
    rw [if_pos rfl] at hload
    cases hload
  rw [show "100" = (100 : ℕ).repr from rfl, loadMessages_eq hne (by decide)] at hload
  have hperm : (order.first 100 (conversationRows (listedMessages s.messages) conversation)).Perm
      (conversationRows (listedMessages s.messages) conversation) := by
    have hlength :=
      (order.perm (conversationRows (listedMessages s.messages) conversation)).length_eq
    unfold OrderBy.first
    rw [List.take_of_length_le (by rw [hlength, length_conversationRows]; exact hfew)]
    exact order.perm _
  generalize order.first 100 (conversationRows (listedMessages s.messages) conversation) = rows
    at hload hperm
  have hmap := RoseTree.mapM_eq_some_iff.mp hload
  have hids := map_id_parseMessage hmap
  refine ⟨?_, fun m hm => ?_, fun id row hrow hc => ?_⟩
  · have hnodup : (rows.map Prod.fst).Nodup := by
      refine (hperm.map Prod.fst).nodup_iff.mpr ?_
      exact List.Nodup.sublist (List.Sublist.map _ List.filter_sublist) (Table.nodup_rows _)
    have hcast := hnodup.map (f := (Nat.cast : ℕ → ℤ)) Nat.cast_injective
    rw [List.map_map] at hcast
    rw [hids]
    exact hcast
  · obtain ⟨r, hr, hparse⟩ := List.mem_map.mp (hmap ▸ List.mem_map_of_mem (f := some) hm)
    obtain ⟨row, hrow, heq, -⟩ := mem_listedMessages.mp (hperm.mem_iff.mp hr)
    obtain ⟨metadata, -, rfl⟩ := Option.map_eq_some_iff.mp hparse
    refine ⟨r.1, row, hrow, ?_⟩
    rw [← heq]
    exact ⟨rfl, rfl, rfl, rfl, rfl⟩
  · have hr : (id, row.listed) ∈ rows :=
      hperm.mem_iff.mpr (mem_listedMessages.mpr ⟨row, hrow, rfl, hc⟩)
    exact List.mem_map.mp (hids ▸ List.mem_map_of_mem (f := fun r => (r.1 : ℤ)) hr)

end Load

/-! ## The invariant -/

def ChatViewer.Shown (v : ChatViewer) (id : ℕ) : Prop := ∃ m ∈ v.store.chatMessages, m.id = id

/-- The conversation is there, but for what is on its way, and what is in some list. -/
def ChatViewer.Covered (conversation : String) (v : ChatViewer) (messages : List ChatMessage) :
    Prop :=
  ∀ id row, v.server.messages.row id = some row → row.conversationId = conversation →
    (∃ m ∈ messages, m.id = id) ∨ v.OnTheWay id

/-- **The invariant**: the server accounts for its messages, what the page has is stored, and the
conversation is there once it has been loaded – or, for an answer that has not come yet, would be
there with what is shown. -/
structure ChatViewer.Sound (site : ChatSite) (conversation : String) (v : ChatViewer) : Prop where
  server : ∃ es, ChatWork.Sound site es ⟨v.server, []⟩
  positive : v.server.Positive
  stored : ∀ m ∈ v.store.chatMessages, v.server.Has m
  once : (v.store.chatMessages.map ChatMessage.id).Nodup
  flying : ∀ m ∈ v.inFlight, v.server.Has m.toChatMessage
  answers : ∀ i messages, v.responses.row i = some messages →
    (messages.map ChatMessage.id).Nodup ∧ (∀ m ∈ messages, v.server.Has m)
      ∧ v.Covered conversation (messages ++ v.store.chatMessages)
  shown : v.loaded = true → v.Covered conversation v.store.chatMessages

section Steps

variable {site : ChatSite} {conversation : String} {v : ChatViewer}
  {order : OrderBy fun a b : ℕ × MessageRow => a.2.createdAt ≤ b.2.createdAt}

theorem ChatViewer.Sound.complete (h : v.Sound site conversation) : v.Complete conversation := by
  refine ⟨h.once, fun hloaded id row hrow hc => ?_⟩
  refine (h.shown hloaded id row hrow hc).imp_left ?_
  rintro ⟨m, hm, hid⟩
  exact ⟨m, hm, (h.stored m hm).showsRow hrow hid⟩

/-- **What is stored after a step of the server** is on its way, or was stored before and has been
broadcast. -/
theorem onTheWay_or_before (h : v.Sound site conversation) {a : ChatServerAction}
    (ha : ∀ post, a = .post post → post.Readable site) {id : ℕ} {row : ChatRow}
    (hrow : ((chatServer site).next v.server a).messages.row id = some row) :
    ((chatViewer site order conversation).next v (.server a)).OnTheWay id
      ∨ (∃ row', v.server.messages.row id = some row' ∧ row'.conversationId = row.conversationId)
        ∧ ¬ v.server.Pending id := by
  obtain ⟨es, hsound⟩ := h.server
  have haccounts := (hsound.step ha).accounts
  have hgrows := grows_next site v.server a
  have hpositive : 0 < id := (h.positive.grows hgrows).2 id row hrow
  obtain hsent | hpending := (haccounts.each id).mp ⟨row, hrow⟩
  · rw [sentIds_append] at hsent
    obtain hbefore | hnew := List.mem_append.mp hsent
    · right
      have hbefore' : id ∈ sentIds (es ++ []) := by
        rw [List.append_nil]
        exact hbefore
      obtain ⟨row', hrow'⟩ := (hsound.accounts.each id).mpr (.inl hbefore')
      obtain ⟨readAt, heq⟩ := hgrows.old id row' hrow'
      refine ⟨⟨row', hrow', ?_⟩, fun hpending => hsound.accounts.apart id hpending hbefore'⟩
      rw [hrow] at heq
      obtain rfl := Option.some.inj heq
      rfl
    · obtain ⟨m, hm, hid⟩ := mem_sentMessages_of_sentIds hpositive hnew
      exact .inl (.inr ⟨m, List.mem_append_right _ hm, hid⟩)
  · exact .inl (.inl hpending)

theorem Covered.server (h : v.Sound site conversation) {a : ChatServerAction}
    (ha : ∀ post, a = .post post → post.Readable site) {messages : List ChatMessage}
    (hcovered : v.Covered conversation messages) :
    ((chatViewer site order conversation).next v (.server a)).Covered conversation messages := by
  intro id row hrow hc
  obtain hway | ⟨⟨row', hrow', hconversation⟩, hpending⟩ := onTheWay_or_before h ha hrow
  · exact .inr hway
  · obtain hthere | hpending' | ⟨m, hm, hid⟩ := hcovered id row' hrow' (hconversation.trans hc)
    · exact .inl hthere
    · exact absurd hpending' hpending
    · exact .inr (.inr ⟨m, List.mem_append_left _ hm, hid⟩)

/-- **The server does something.** -/
theorem ChatViewer.Sound.server_step (h : v.Sound site conversation) {a : ChatServerAction}
    (ha : ∀ post, a = .post post → post.Readable site) :
    ((chatViewer site order conversation).next v (.server a)).Sound site conversation := by
  have hgrows := grows_next site v.server a
  obtain ⟨es, hsound⟩ := h.server
  have hstep := hsound.step ha
  refine ⟨⟨_, hstep.rebase⟩, h.positive.grows hgrows, fun m hm => (h.stored m hm).grows hgrows,
    h.once, fun m hm => ?_, fun i messages hrow => ?_,
    fun hloaded => Covered.server h ha (h.shown hloaded)⟩
  · obtain hold | hnew := List.mem_append.mp hm
    · exact (h.flying m hold).grows hgrows
    · exact has_of_mem_sentMessages hstep.shows hnew
  · obtain ⟨honce, hhas, hcovered⟩ := h.answers i messages hrow
    exact ⟨honce, fun m hm => (hhas m hm).grows hgrows, Covered.server h ha hcovered⟩

/-- **A message is added**, unless it is shown already. -/
theorem addChatMessage_cases (h : v.Sound site conversation) (hfew : v.Few conversation)
    {m : ChatMessage} {id : ℕ} (hid : m.id = id) (hpos : 0 < m.id) (hhas : v.server.Has m) :
    v.Shown id ∧ v.store.addChatMessage m = v.store
      ∨ ¬ v.Shown id
        ∧ (v.store.addChatMessage m).chatMessages = v.store.chatMessages ++ [m] := by
  unfold ChatState.addChatMessage
  by_cases hshown : v.Shown id
  · obtain ⟨m', hm', heq⟩ := hshown
    refine .inl ⟨⟨m', hm', heq⟩, if_pos ⟨hpos, List.any_eq_true.mpr ⟨m', hm', ?_⟩⟩⟩
    exact decide_eq_true (heq.trans hid.symm)
  · refine .inr ⟨hshown, ?_⟩
    rw [if_neg]
    · refine lastMessages_of_has (s := v.server) (fun m' hm' => ?_) ?_ hfew.2
      · obtain hold | hnew := List.mem_append.mp hm'
        · exact h.stored m' hold
        · obtain rfl := List.mem_singleton.mp hnew
          exact hhas
      · rw [List.map_append]
        refine List.nodup_append.mpr ⟨h.once, List.nodup_singleton _, fun i hi j hj heq => ?_⟩
        obtain ⟨m', hm', rfl⟩ := List.mem_map.mp hi
        obtain rfl := List.mem_singleton.mp hj
        exact hshown ⟨m', hm', heq.trans hid⟩
    · rintro ⟨-, hany⟩
      obtain ⟨m', hm', heq⟩ := List.any_eq_true.mp hany
      exact hshown ⟨m', hm', (of_decide_eq_true heq).trans hid⟩

/-- **A message is handed to the page**, which shows it already, or adds it. -/
theorem dispatchMessage_cases (h : v.Sound site conversation) (hfew : v.Few conversation)
    {message : ServerMessage} (hmessage : message ∈ v.inFlight) {id : ℕ} (hid : message.id = id)
    (now : ℕ) :
    v.Shown id ∧ ChatClient.dispatchMessage v.store message now = v.store
      ∨ ∃ m : ChatMessage, m.id = id ∧ v.server.Has m ∧ ¬ v.Shown id
          ∧ (ChatClient.dispatchMessage v.store message now).chatMessages
            = v.store.chatMessages ++ [m] := by
  obtain ⟨id', row, hrow, hshows⟩ := h.flying message hmessage
  obtain ⟨m, hm⟩ : ∃ m : ChatMessage, { message.toChatMessage with
    messageType := orElse message.messageType "text"
    createdAt := if message.createdAt = 0 then now else message.createdAt } = m := ⟨_, rfl⟩
  have hid' : m.id = id := hm ▸ hid
  have hhas : v.server.Has m := ⟨id', row, hrow, hm ▸ hshows⟩
  have hdispatch : ChatClient.dispatchMessage v.store message now = v.store.addChatMessage m :=
    hm ▸ rfl
  rw [hdispatch]
  obtain hshown | hadded := addChatMessage_cases h hfew hid' (hm ▸ message.id_pos) hhas
  · exact .inl hshown
  · exact .inr ⟨m, hid', hhas, hadded⟩

theorem Covered.deliver {rest : List ServerMessage} {message : ServerMessage} {store : ChatState}
    (hflight : v.inFlight = message :: rest) {messages messages' : List ChatMessage}
    (hcovered : v.Covered conversation messages)
    (hkept : ∀ m ∈ messages, ∃ m' ∈ messages', m'.id = m.id)
    (hnew : ∃ m ∈ messages', m.id = message.id) :
    ({ v with store, inFlight := rest } : ChatViewer).Covered conversation messages' := by
  intro id row hrow hc
  obtain ⟨m, hm, hid⟩ | hpending | ⟨m, hm, hid⟩ := hcovered id row hrow hc
  · obtain ⟨m', hm', heq⟩ := hkept m hm
    exact .inl ⟨m', hm', heq.trans hid⟩
  · exact .inr (.inl hpending)
  · rw [hflight] at hm
    obtain rfl | hm := List.mem_cons.mp hm
    · obtain ⟨m', hm', heq⟩ := hnew
      exact .inl ⟨m', hm', heq.trans hid⟩
    · exact .inr (.inr ⟨m, hm, hid⟩)

/-- **A message is handed to the page.** -/
theorem ChatViewer.Sound.deliver_step (h : v.Sound site conversation) (hfew : v.Few conversation)
    (now : ℕ) :
    ((chatViewer site order conversation).next v (.deliver now)).Sound site conversation := by
  unfold Machine.next chatViewer
  dsimp only
  cases hflight : v.inFlight with
  | nil => exact h
  | cons message rest =>
    dsimp only
    have hmem : message ∈ v.inFlight := hflight ▸ List.mem_cons_self
    obtain ⟨id, row, hrow, hshows⟩ := h.flying message hmem
    have hrest : ∀ m ∈ rest, v.server.Has m.toChatMessage := fun m hm =>
      h.flying m (hflight ▸ List.mem_cons_of_mem _ hm)
    generalize hstore : ChatClient.dispatchMessage v.store message now = store
    obtain ⟨⟨m, hm, hid⟩, hsame⟩ | ⟨m, hid, hhas, hnot, hadded⟩ :=
      dispatchMessage_cases h hfew hmem hshows.1 now
    · -- the message is shown already
      rw [hstore] at hsame
      subst hsame
      have hnew : ∀ messages : List ChatMessage,
          ∃ m ∈ messages ++ v.store.chatMessages, m.id = message.id := fun messages =>
        ⟨m, List.mem_append_right _ hm, hid.trans hshows.1.symm⟩
      refine ⟨h.server, h.positive, h.stored, h.once, hrest, fun i messages hi => ?_,
        fun hloaded => ?_⟩
      · obtain ⟨honce, hall, hcovered⟩ := h.answers i messages hi
        exact ⟨honce, hall, Covered.deliver hflight hcovered (fun m hm => ⟨m, hm, rfl⟩)
          (hnew messages)⟩
      · exact Covered.deliver hflight (h.shown hloaded) (fun m hm => ⟨m, hm, rfl⟩) (hnew [])
    · -- the message is added behind the others, and its id is new
      rw [hstore] at hadded
      have hkept : ∀ messages : List ChatMessage, ∀ m' ∈ messages ++ v.store.chatMessages,
          ∃ m'' ∈ messages ++ store.chatMessages, m''.id = m'.id := by
        intro messages m' hm'
        refine ⟨m', ?_, rfl⟩
        rw [hadded, ← List.append_assoc]
        exact List.mem_append_left _ hm'
      have hnew : ∀ messages : List ChatMessage,
          ∃ m ∈ messages ++ store.chatMessages, m.id = message.id := by
        intro messages
        refine ⟨m, ?_, hid.trans hshows.1.symm⟩
        rw [hadded, ← List.append_assoc]
        exact List.mem_append_right _ (List.mem_singleton_self m)
      refine ⟨h.server, h.positive, fun m' hm' => ?_, ?_, hrest, fun i messages hi => ?_,
        fun hloaded => Covered.deliver hflight (h.shown hloaded) (hkept []) (hnew [])⟩
      · dsimp only at hm'
        rw [hadded] at hm'
        obtain hold | hm' := List.mem_append.mp hm'
        · exact h.stored m' hold
        · obtain rfl := List.mem_singleton.mp hm'
          exact hhas
      · dsimp only
        rw [hadded, List.map_append]
        refine List.nodup_append.mpr ⟨h.once, List.nodup_singleton _, fun i hi j hj heq => ?_⟩
        obtain ⟨m', hm', rfl⟩ := List.mem_map.mp hi
        obtain rfl := List.mem_singleton.mp hj
        exact hnot ⟨m', hm', heq.trans hid⟩
      · obtain ⟨honce, hall, hcovered⟩ := h.answers i messages hi
        exact ⟨honce, hall, Covered.deliver hflight hcovered (hkept messages) (hnew messages)⟩

/-- **The page loads the conversation.** -/
theorem ChatViewer.Sound.load_step (h : v.Sound site conversation) (hfew : v.Few conversation) :
    ((chatViewer site order conversation).next v .load).Sound site conversation := by
  unfold Machine.next chatViewer
  dsimp only
  split
  · exact h
  · next messages hload =>
    obtain ⟨honce, hall, hcovered⟩ := loadMessages_all hload hfew.1
    refine ⟨h.server, h.positive, h.stored, h.once, h.flying, fun i messages' hi => ?_, h.shown⟩
    obtain ⟨-, rfl⟩ | hold := (Table.row_insert_eq_some _ _).mp hi
    · refine ⟨honce, hall, fun id row hrow hc => .inl ?_⟩
      obtain ⟨m, hm, hid⟩ := hcovered id row hrow hc
      exact ⟨m, List.mem_append_left _ hm, hid⟩
    · exact h.answers i messages' hold

/-- **An answer comes** that takes no message away. -/
theorem ChatViewer.Sound.respond_step (h : v.Sound site conversation) (hfew : v.Few conversation)
    {i : ℕ} (hkeeps : v.TakesNone conversation (.respond i)) :
    ((chatViewer site order conversation).next v (.respond i)).Sound site conversation := by
  unfold Machine.next chatViewer
  dsimp only
  cases hi : v.responses.row i with
  | none => exact h
  | some messages =>
    obtain ⟨honce, hall, hcovered⟩ := h.answers i messages hi
    have hstore : (v.store.setChatMessages messages).chatMessages = messages :=
      lastMessages_of_has hall honce hfew.2
    have hshown : v.Covered conversation messages := by
      intro id row hrow hc
      obtain ⟨m, hm, hid⟩ | hway := hcovered id row hrow hc
      · obtain hm | hm := List.mem_append.mp hm
        · exact .inl ⟨m, hm, hid⟩
        · have hconversation := ((h.stored m hm).showsRow hrow hid).2.1.trans hc
          obtain ⟨m', hm', heq⟩ | hway := hkeeps messages hi m hm hconversation
          · exact .inl ⟨m', hm', heq.trans hid⟩
          · rw [hid, Int.toNat_natCast] at hway
            exact .inr hway
      · exact .inr hway
    refine ⟨h.server, h.positive, ?_, ?_, h.flying, fun j messages' hj => ?_, fun _ => ?_⟩
    · dsimp only
      rw [hstore]
      exact hall
    · dsimp only
      rw [hstore]
      exact honce
    · obtain ⟨hj, -⟩ := (Table.row_deleteWhere_eq_some _ _).mp hj
      obtain ⟨honce', hall', -⟩ := h.answers j messages' hj
      refine ⟨honce', hall', fun id row hrow hc => ?_⟩
      dsimp only
      rw [hstore]
      refine (hshown id row hrow hc).imp_left ?_
      rintro ⟨m, hm, hid⟩
      exact ⟨m, List.mem_append_right _ hm, hid⟩
    · show v.Covered conversation (v.store.setChatMessages messages).chatMessages
      rw [hstore]
      exact hshown

/-- **An answer that takes a message away** leaves the page without it. -/
theorem takesNone_of_complete (h : v.Sound site conversation) {a : ViewerAction}
    (hnext : ((chatViewer site order conversation).next v a).Complete conversation) :
    v.TakesNone conversation a := by
  cases a with
  | respond i =>
    intro messages hi m hm hc
    obtain ⟨id, row, hrow, hshows⟩ := h.stored m hm
    unfold Machine.next chatViewer at hnext
    dsimp only at hnext
    rw [hi] at hnext
    obtain ⟨m', hm', hshows'⟩ | hway := hnext.shown rfl id row hrow (hshows.2.1.symm.trans hc)
    · refine .inl ⟨m', ?_, hshows'.1.trans hshows.1.symm⟩
      have hmem : m' ∈ lastMessages messages := hm'
      unfold lastMessages at hmem
      exact List.mem_of_mem_drop hmem
    · rw [hshows.1, Int.toNat_natCast]
      exact .inr hway
  | server => trivial
  | deliver => trivial
  | load => trivial

end Steps

/-! ## The run -/

section Runs

variable {site : ChatSite} {conversation : String}
  {order : OrderBy fun a b : ℕ × MessageRow => a.2.createdAt ≤ b.2.createdAt}

/-- **Messages grow in number**, those of a kind that does not depend on when they were read. -/
theorem ChatServer.Grows.length_filter_le {s s' : ChatServer} (h : s.Grows s')
    {p : ChatRow → Bool} (hp : ∀ row readAt, p { row with readAt } = p row) :
    (s.messages.rows.filter fun r => p r.2).length
      ≤ (s'.messages.rows.filter fun r => p r.2).length := by
  have hnodup : ((s.messages.rows.filter fun r => p r.2).map Prod.fst).Nodup :=
    List.Nodup.sublist (List.Sublist.map _ List.filter_sublist) s.messages.nodup_rows
  have hsubset : (s.messages.rows.filter fun r => p r.2).map Prod.fst
      ⊆ (s'.messages.rows.filter fun r => p r.2).map Prod.fst := by
    intro id hid
    obtain ⟨r, hr, rfl⟩ := List.mem_map.mp hid
    obtain ⟨hrow, htest⟩ := List.mem_filter.mp hr
    obtain ⟨readAt, hrow'⟩ := h.old r.1 r.2 ((Table.mem_rows _).mp hrow)
    refine List.mem_map.mpr ⟨(r.1, { r.2 with readAt }), List.mem_filter.mpr
      ⟨(Table.mem_rows _).mpr hrow', ?_⟩, rfl⟩
    rw [hp]
    exact htest
  have hle := (hnodup.subperm hsubset).length_le
  rwa [List.length_map, List.length_map] at hle

theorem ChatViewer.Few.of_grows {v v' : ChatViewer} (h : v'.Few conversation)
    (hgrows : v.server.Grows v'.server) : v.Few conversation := by
  refine ⟨(hgrows.length_filter_le (p := fun row => decide (row.conversationId = conversation))
    fun _ _ => rfl).trans h.1, ?_⟩
  have hle := hgrows.length_filter_le (p := fun _ => true) fun _ _ => rfl
  rw [List.filter_true, List.filter_true] at hle
  exact hle.trans h.2

/-- A step of the page and the server keeps the messages of the server. -/
theorem chatViewer_grows (v : ChatViewer) (a : ViewerAction) :
    v.server.Grows ((chatViewer site order conversation).next v a).server := by
  cases a with
  | server a => exact grows_next site v.server a
  | deliver now =>
    unfold Machine.next chatViewer
    dsimp only
    split <;> exact .of_eq rfl
  | load =>
    unfold Machine.next chatViewer
    dsimp only
    split <;> exact .of_eq rfl
  | respond i =>
    unfold Machine.next chatViewer
    dsimp only
    split <;> exact .of_eq rfl

theorem chatViewer_grows_state (v : ChatViewer) (as : List ViewerAction) :
    v.server.Grows ((chatViewer site order conversation).state v as).server := by
  induction as using List.reverseRecOn with
  | nil => exact .of_eq rfl
  | append_singleton as a ih =>
    rw [Machine.state_concat]
    exact ih.trans (chatViewer_grows _ a)

/-- **The page that is opened.** -/
theorem ChatViewer.Sound.opened (conversation : String) (as : List ChatServerAction)
    (h : ∀ post, ChatServerAction.post post ∈ as → post.Readable site) :
    (ChatViewer.opened ((chatServer site).state .initial as)).Sound site conversation := by
  refine ⟨⟨_, chatServer_sound as h⟩, ?_, fun m hm => absurd hm List.not_mem_nil, List.nodup_nil,
    fun m hm => absurd hm List.not_mem_nil, fun i messages hi => ?_, fun hloaded => ?_⟩
  · refine (chatServer site).state_invariant (I := ChatServer.Positive)
      ⟨Nat.one_pos, fun id row hrow => ?_⟩ (fun s a hs => hs.grows (grows_next site s a)) as
    cases hrow
  · cases hi
  · cases hloaded

/-- A message without metadata, that is not forwarded. -/
def sampleWatchedPost : ChatPost :=
  { sampleChatPost with
    body := some (.obj [("from", .str "ann"), ("content", .str "hi"),
      ("conversation_id", .str "conv_1")]) }

/-- What is read of it. -/
def sampleWatchedFields : ChatMessageFields :=
  ⟨"ann", none, "hi", .str "text", .str "conv_1", none, false⟩

/-- The page is opened and loads a message; another one is sent and handed to it. -/
def sampleWatched : List ViewerAction :=
  [.load, .respond 1, .server (.post sampleWatchedPost), .deliver 7]

end Runs

end MissionControl
