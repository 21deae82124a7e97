import MissionControl.WebhookApi

/-!
# What the webhooks do, piece by piece

Each step of the webhooks is a list of pieces: a request is answered, a
webhook changes, a delivery is sent or recorded, a pass picks deliveries up,
sends one or ends. What every piece keeps, every run keeps.

The first such invariant ties the tables to what has been shown (`History`):
each row of `sendings` was sent, each row of `webhook_deliveries` and each row
that a pass holds was recorded, and what is sent as a retry repeats a delivery
that was recorded.

The rows of the tables come and go: a delivery is pruned, a webhook is deleted with all of
its deliveries, and a pass sends what it holds long after. So whatever is held is tied to
the events (`Logged`, `Held`), which stay, and not to the tables; and as no id is given
twice, the event of an id says what its row was.
-/

namespace MissionControl

variable {site : WebhookSite}

/-! ## Pieces -/

/-- **A call of `deliverWebhook`** by an event on the bus or by a request. -/
inductive Called (site : WebhookSite) (s : EngineState) : Dispatch → Prop
  | live {id w eventType payload} (hw : s.webhooks.row id = some w) :
    Called site s ⟨.live, id, w.toWebhook, eventType, payload, ⟨0, none, true⟩⟩
  | test {id w eventType payload} (hw : s.webhooks.row id = some w) :
    Called site s ⟨.test, id, w.toWebhook, eventType, payload, ⟨0, none, false⟩⟩
  | manual {id r w} (hr : s.deliveries.row id = some r)
      (hw : s.webhooks.row r.webhookId = some w) :
    Called site s (manualDispatch site id r w)

/-- **What the webhooks can do at once.** -/
inductive Piece (site : WebhookSite) (s : EngineState) :
    EngineState → List WebhookEvent → Prop
  | answered (response : ApiResponse) : Piece site s s [.answered response]
  | created (fields : WebhookFields) (randomSecret : String) :
    Piece site s
      { s with webhooks := s.webhooks.insert (fields.row site.rt randomSecret) } []
  | updated (u : WebhookUpdate) :
    Piece site s { s with webhooks := s.webhooks.update u.id u.apply }
      (if u.resetCircuit then [.circuitReset u.id] else [])
  | deleted (id : ℕ) : Piece site s (s.deleteWebhook id) []
  | sent {d} (now : ℕ) (hd : Called site s d) :
    Piece site s (s.send site now d).1 [(s.send site now d).2]
  | unrecorded {i x} (hrow : s.sendings.row i = some x)
      (hgone : s.webhooks.row x.webhookId = none) :
    Piece site s
      { s with sendings := s.sendings.deleteWhere (fun j _ => j = i) }
      [.unrecorded i]
  | recorded {i x w} (outcome : Outcome) (now : ℕ) (random : ℚ)
      (order : Descending (fun r : ℕ × DeliveryRow => r.2.createdAt))
      (hrow : s.sendings.row i = some x)
      (hw : s.webhooks.row x.webhookId = some w) :
    Piece site s
      { s with
        webhooks := s.webhooks.update x.webhookId (x.count site outcome)
        deliveries := pruneDeliveries order x.webhookId
          (s.recordedDeliveries site x outcome now random)
        sendings := s.sendings.deleteWhere (fun j _ => j = i) }
      (.recorded i s.deliveries.next x outcome.success ::
        if x.trips site outcome w then [.disabled x.webhookId] else [])
  | picked (now : ℕ) (order : Descending (fun _ : RetryRow => 0)) :
    Piece site s
      { s with
        deliveries := EngineState.clearRetries s.deliveries (s.pendingRetries now order)
        passes := s.passes.insert ⟨none, s.pendingRetries now order⟩ }
      [.picked ((s.pendingRetries now order).map (·.id))]
  | passSent {q p row rest} (now : ℕ) (hpass : s.passes.row q = some p)
      (hbatch : p.batch = row :: rest) :
    Piece site s
      { (s.send site now (EngineState.retryDispatch site row)).1 with
        passes := s.passes.update q (fun _ => ⟨some s.sendings.next, rest⟩) }
      [(s.send site now (EngineState.retryDispatch site row)).2]
  | passEnded {q p} (hpass : s.passes.row q = some p) (hbatch : p.batch = []) :
    Piece site s { s with passes := s.passes.deleteWhere (fun j _ => j = q) }
      [.passEnded q]

inductive Pieces (site : WebhookSite) :
    EngineState → EngineState → List WebhookEvent → Prop
  | nil (s : EngineState) : Pieces site s s []
  | cons {s s' s'' es es'} (h : Piece site s s' es) (hs : Pieces site s' s'' es') :
    Pieces site s s'' (es ++ es')

theorem Piece.pieces {s s' : EngineState} {es : List WebhookEvent}
    (h : Piece site s s' es) : Pieces site s s' es := by
  have := Pieces.cons h (.nil s')
  rwa [List.append_nil] at this

theorem Called.send {s : EngineState} {d : Dispatch} (h : Called site s d)
    (now : ℕ) (d' : Dispatch) : Called site (s.send site now d').1 d := by
  cases h with
  | live hw => exact .live hw
  | test hw => exact .test hw
  | manual hr hw => exact .manual hr hw

theorem sendAll_pieces (now : ℕ) (ds : List Dispatch) {s : EngineState}
    (h : ∀ d ∈ ds, Called site s d) :
    Pieces site s (s.sendAll site now ds).1 (s.sendAll site now ds).2 := by
  induction ds generalizing s with
  | nil => exact .nil s
  | cons d ds ih =>
    exact .cons (.sent now (h d List.mem_cons_self))
      (ih fun d' hd' => (h d' (List.mem_cons_of_mem d hd')).send now d)

theorem advance_piece (now : ℕ) {s : EngineState} {q : ℕ} {p : RetryPass}
    (hpass : s.passes.row q = some p) :
    Piece site s (s.advance site q now p.batch).1 (s.advance site q now p.batch).2 := by
  cases hbatch : p.batch with
  | nil => exact .passEnded hpass hbatch
  | cons row rest => exact .passSent now hpass hbatch

/-- **Every step of the webhooks is a list of pieces.** -/
theorem webhookEngine_pieces (s : EngineState) (a : WebhookAction) :
    Pieces site s ((webhookEngine site).next s a) ((webhookEngine site).emits s a) := by
  unfold Machine.next Machine.emits webhookEngine
  cases a with
  | create fields randomSecret =>
    exact .cons (.created fields randomSecret) (Piece.answered _).pieces
  | update body randomSecret =>
    dsimp only
    unfold updateWebhook
    split
    · exact (Piece.answered _).pieces
    · next u _ => exact .cons (.updated u) (Piece.answered _).pieces
  | delete body =>
    dsimp only
    unfold deleteWebhook
    split
    · exact (Piece.answered _).pieces
    · split
      · exact (Piece.answered _).pieces
      · exact (Piece.answered _).pieces
      · next id _ => exact .cons (.deleted id) (Piece.answered _).pieces
  | fire eventType payload now =>
    refine sendAll_pieces now _ fun d hd => ?_
    obtain ⟨⟨id, w⟩, hmem, rfl⟩ := List.mem_map.mp hd
    exact .live (s.webhooks.mem_rows.mp (List.mem_of_mem_filter hmem))
  | test body username now =>
    dsimp only
    unfold testWebhook
    split
    · exact (Piece.answered _).pieces
    · split
      · exact (Piece.answered _).pieces
      · next id w hfound =>
        obtain ⟨id', -, hw⟩ := Option.bind_eq_some_iff.mp hfound
        obtain ⟨w', hw', heq⟩ := Option.map_eq_some_iff.mp hw
        obtain ⟨rfl, rfl⟩ := Prod.mk.inj heq
        exact sendAll_pieces now _ fun d hd => List.mem_singleton.mp hd ▸ .test hw'
  | retry body now =>
    dsimp only
    unfold retryDelivery
    split
    · exact (Piece.answered _).pieces
    · split
      · exact (Piece.answered _).pieces
      · next id r w hfound =>
        obtain ⟨id', -, hdelivery⟩ := Option.bind_eq_some_iff.mp hfound
        obtain ⟨r', hr', hw⟩ := Option.bind_eq_some_iff.mp hdelivery
        obtain ⟨w', hw', heq⟩ := Option.map_eq_some_iff.mp hw
        obtain ⟨rfl, hrw⟩ := Prod.mk.inj heq
        obtain ⟨rfl, rfl⟩ := Prod.mk.inj hrw
        exact sendAll_pieces now _ fun d hd => List.mem_singleton.mp hd ▸ .manual hr' hw'
  | respond i outcome now random order =>
    dsimp only
    unfold EngineState.respond
    split
    · exact .nil s
    · next x hrow =>
      dsimp only
      split
      · next hgone => exact (Piece.unrecorded hrow hgone).pieces
      · next w hw => exact (Piece.recorded outcome now random order hrow hw).pieces
  | startPass now order =>
    dsimp only
    unfold EngineState.startPass
    split
    · exact .nil s
    · next hbatch =>
      dsimp only
      have hpicked : Piece site s _ _ := .picked now order
      refine .cons hpicked (advance_piece now (p := ⟨none, s.pendingRetries now order⟩)
        (s.passes.row_insert_next _)).pieces
  | resumePass q now =>
    dsimp only
    unfold EngineState.resumePass
    split
    · exact .nil s
    · next p hpass =>
      split
      · exact .nil s
      · exact (advance_piece now hpass).pieces

/-- **What every piece keeps, every run keeps.** -/
theorem webhookEngine_invariant {I : List WebhookEvent → EngineState → Prop}
    (h₀ : I [] .initial)
    (hpiece : ∀ es s s' es', I es s → Piece site s s' es' → I (es ++ es') s')
    (as : List WebhookAction) :
    I ((webhookEngine site).trace .initial as) ((webhookEngine site).state .initial as) := by
  have hpieces : ∀ {s s' es'}, Pieces site s s' es' → ∀ es, I es s → I (es ++ es') s' := by
    intro s s' es' h
    induction h with
    | nil s => exact fun es hes => (List.append_nil es).symm ▸ hes
    | cons hp _ ih =>
      intro es hes
      rw [← List.append_assoc]
      exact ih _ (hpiece _ _ _ _ hes hp)
  exact (webhookEngine site).invariant h₀
    (fun es s a hes => hpieces (webhookEngine_pieces s a) es hes) as

/-! ## What actions leave alone -/

/-- **Whether an action only sends deliveries**, or answers. -/
def WebhookAction.onlySends : WebhookAction → Bool
  | fire .. => true
  | test .. => true
  | retry .. => true
  | resumePass .. => true
  | _ => false

/-- Whether an event is about something that is recorded or picked up. -/
def WebhookEvent.writes : WebhookEvent → Bool
  | recorded .. => true
  | disabled .. => true
  | circuitReset .. => true
  | picked .. => true
  | _ => false

/-- The row of a delivery that is sent. -/
def Dispatch.sending (site : WebhookSite) (d : Dispatch) (now : ℕ) : Sending :=
  ⟨d.webhookId, d.eventType, deliveryBody site.rt d.eventType now d.payload, d.opts⟩

/-- What is shown of a delivery that is sent. -/
def Dispatch.event (site : WebhookSite) (i : ℕ) (d : Dispatch) (now : ℕ) :
    WebhookEvent :=
  .sent i d now d.webhook.url
    (deliveryHeaders site d.webhook.secret d.eventType
      (deliveryBody site.rt d.eventType now d.payload))
    (deliveryBody site.rt d.eventType now d.payload)

/-- A row that a pass has still to send. -/
def EngineState.Unsent (s : EngineState) (row : RetryRow) : Prop :=
  ∃ q p, s.passes.row q = some p ∧ row ∈ p.batch

/-- **What sending leaves alone**, and what passes send. -/
structure EngineState.SendsTo (site : WebhookSite) (s s' : EngineState)
    (es : List WebhookEvent) : Prop where
  webhooks : s'.webhooks = s.webhooks
  deliveries : s'.deliveries = s.deliveries
  unsent : ∀ row, s'.Unsent row → s.Unsent row
  writes : ∀ e ∈ es, e.writes = false
  sent : ∀ {i d now url headers body}, .sent i d now url headers body ∈ es →
    d.caller = .retryPass → ∃ row, s.Unsent row ∧
      .sent i d now url headers body = (retryDispatch site row).event site i now

namespace EngineState

theorem SendsTo.nil (s : EngineState) : SendsTo site s s [] :=
  ⟨rfl, rfl, fun _ h => h, fun _ he => absurd he List.not_mem_nil,
    fun he => absurd he List.not_mem_nil⟩

theorem SendsTo.answered (s : EngineState) (response : ApiResponse) :
    SendsTo site s s [.answered response] :=
  ⟨rfl, rfl, fun _ h => h, fun _ he => List.mem_singleton.mp he ▸ rfl,
    fun he => nomatch List.mem_singleton.mp he⟩

theorem SendsTo.sendAll (now : ℕ) (ds : List Dispatch)
    (hds : ∀ d ∈ ds, d.caller ≠ .retryPass) (s : EngineState) :
    SendsTo site s (s.sendAll site now ds).1 (s.sendAll site now ds).2 := by
  induction ds generalizing s with
  | nil => exact .nil s
  | cons d ds ih =>
    have h := ih (fun d' hd' => hds d' (List.mem_cons_of_mem d hd')) (s.send site now d).1
    refine ⟨h.webhooks, h.deliveries, h.unsent, fun e he => ?_, fun he hcaller => ?_⟩
    · rcases List.mem_cons.mp he with rfl | he
      · rfl
      · exact h.writes e he
    · rcases List.mem_cons.mp he with heq | he
      · obtain ⟨-, rfl, -⟩ := WebhookEvent.sent.inj heq
        exact absurd hcaller (hds _ List.mem_cons_self)
      · exact h.sent he hcaller

theorem SendsTo.advance (s : EngineState) {q : ℕ} (now : ℕ) {p : RetryPass}
    (hpass : s.passes.row q = some p) :
    SendsTo site s (s.advance site q now p.batch).1 (s.advance site q now p.batch).2 := by
  obtain ⟨waiting, batch⟩ := p
  cases batch with
  | nil =>
    refine ⟨rfl, rfl, fun row h => ?_, fun _ he => List.mem_singleton.mp he ▸ rfl,
      fun he => nomatch List.mem_singleton.mp he⟩
    obtain ⟨q', p', hp', hrow⟩ := h
    exact ⟨q', p', ((Table.row_deleteWhere_eq_some _ _).mp hp').1, hrow⟩
  | cons row rest =>
    refine ⟨rfl, rfl, fun row' h => ?_, fun _ he => List.mem_singleton.mp he ▸ rfl,
      fun he _ => ⟨row, ⟨q, _, hpass, List.mem_cons_self⟩, ?_⟩⟩
    · obtain ⟨q', p', hp', hrow'⟩ := h
      change (s.passes.update q _).row q' = _ at hp'
      rw [Table.row_update] at hp'
      split at hp'
      · obtain ⟨-, -, rfl⟩ := Option.map_eq_some_iff.mp hp'
        exact ⟨q, _, hpass, List.mem_cons_of_mem row hrow'⟩
      · exact ⟨q', p', hp', hrow'⟩
    · have heq := List.mem_singleton.mp he
      obtain ⟨rfl, -, rfl, -⟩ := WebhookEvent.sent.inj heq
      exact heq

end EngineState

/-- **An action that only sends leaves the webhooks and the deliveries alone.** -/
theorem sendsTo_of_onlySends (s : EngineState) {a : WebhookAction}
    (ha : a.onlySends = true) :
    s.SendsTo site ((webhookEngine site).next s a) ((webhookEngine site).emits s a) := by
  unfold Machine.next Machine.emits webhookEngine
  cases a with
  | fire eventType payload now =>
    refine .sendAll now _ (fun d hd => ?_) s
    obtain ⟨r, -, rfl⟩ := List.mem_map.mp hd
    exact nofun
  | test body username now =>
    dsimp only
    unfold testWebhook
    split
    · exact .answered s _
    · split
      · exact .answered s _
      · refine .sendAll now _ (fun d hd => ?_) s
        rw [List.mem_singleton.mp hd]
        exact nofun
  | retry body now =>
    dsimp only
    unfold retryDelivery
    split
    · exact .answered s _
    · split
      · exact .answered s _
      · refine .sendAll now _ (fun d hd => ?_) s
        rw [List.mem_singleton.mp hd]
        exact nofun
  | resumePass q now =>
    dsimp only
    unfold EngineState.resumePass
    split
    · exact .nil s
    · next p hpass =>
      split
      · exact .nil s
      · exact .advance s now hpass
  | _ => exact nomatch ha

/-- The webhook that the body of a deletion names. -/
def deletedId (site : WebhookSite) : Option Json → Option ℕ
  | none => none
  | some body =>
    match namedId site.sq (some body) "id" "Webhook ID is required"
        "Failed to delete webhook" with
    | .error _ => none
    | .ok id => id

/-- **An update** is refused, or writes what was read. -/
theorem updateWebhook_cases (site : WebhookSite) (s : EngineState) (body : Option Json)
    (randomSecret : String) :
    (∃ response, readWebhookUpdate site s.webhooks body randomSecret = .error response
      ∧ updateWebhook site s body randomSecret = (s, [.answered response]))
    ∨ ∃ u response, readWebhookUpdate site s.webhooks body randomSecret = .ok u
      ∧ updateWebhook site s body randomSecret
        = ({ s with webhooks := s.webhooks.update u.id u.apply },
          (if u.resetCircuit then [.circuitReset u.id] else []) ++ [.answered response]) := by
  unfold updateWebhook
  cases readWebhookUpdate site s.webhooks body randomSecret with
  | error response => exact Or.inl ⟨response, rfl, rfl⟩
  | ok u => exact Or.inr ⟨u, _, rfl, rfl⟩

/-- **A deletion** finds no id, or deletes the webhook of the id. -/
theorem deleteWebhook_cases (site : WebhookSite) (s : EngineState) (body : Option Json) :
    (∃ response, deleteWebhook site s body = (s, [.answered response])
      ∧ deletedId site body = none)
    ∨ ∃ id response, deleteWebhook site s body = (s.deleteWebhook id, [.answered response])
      ∧ deletedId site body = some id := by
  unfold deleteWebhook deletedId
  cases body with
  | none => exact Or.inl ⟨_, rfl, rfl⟩
  | some body =>
    dsimp only
    cases namedId site.sq (some body) "id" "Webhook ID is required"
      "Failed to delete webhook" with
    | error response => exact Or.inl ⟨response, rfl, rfl⟩
    | ok id =>
      cases id with
      | none => exact Or.inl ⟨_, rfl, rfl⟩
      | some id => exact Or.inr ⟨id, _, rfl, rfl⟩

section Respond

variable {s : EngineState} {i : ℕ} {outcome : Outcome} {now : ℕ} {random : ℚ}
  {order : Descending (fun r : ℕ × DeliveryRow => r.2.createdAt)}

theorem respond_of_none (hx : s.sendings.row i = none) :
    s.respond site i outcome now random order = (s, []) := by
  unfold EngineState.respond
  rw [hx]

theorem respond_of_gone {x : Sending} (hx : s.sendings.row i = some x)
    (hw : s.webhooks.row x.webhookId = none) :
    s.respond site i outcome now random order
      = ({ s with sendings := s.sendings.deleteWhere (fun j _ => j = i) },
        [.unrecorded i]) := by
  unfold EngineState.respond
  rw [hx]
  dsimp only
  rw [hw]

/-- **The delivery is recorded.** -/
theorem respond_of_some {x : Sending} {w : WebhookRow} (hx : s.sendings.row i = some x)
    (hw : s.webhooks.row x.webhookId = some w) :
    s.respond site i outcome now random order
      = ({ s with
          webhooks := s.webhooks.update x.webhookId (x.count site outcome)
          deliveries := pruneDeliveries order x.webhookId
            (s.recordedDeliveries site x outcome now random)
          sendings := s.sendings.deleteWhere (fun j _ => j = i) },
        .recorded i s.deliveries.next x outcome.success ::
          if x.trips site outcome w then [.disabled x.webhookId] else []) := by
  unfold EngineState.respond
  rw [hx]
  dsimp only
  rw [hw]

end Respond

/-- **What starting a pass leaves alone**, what it picks up, and what it
sends. -/
structure StartsPass (site : WebhookSite) (s : EngineState) (batch : List RetryRow)
    (s' : EngineState) (es : List WebhookEvent) : Prop where
  webhooks : s'.webhooks = s.webhooks
  deliveries : s'.deliveries = EngineState.clearRetries s.deliveries batch
  writes : ∀ e ∈ es, e.writes = true → e = .picked (batch.map (·.id))
  picked : batch ≠ [] → .picked (batch.map (·.id)) ∈ es
  unsent : ∀ row, s'.Unsent row → row ∈ batch ∨ s.Unsent row
  sent : ∀ {i d now url headers body}, .sent i d now url headers body ∈ es →
    d.caller = .retryPass → ∃ row, (row ∈ batch ∨ s.Unsent row) ∧
      .sent i d now url headers body
        = (EngineState.retryDispatch site row).event site i now

theorem startPass_spec (s : EngineState) (now : ℕ)
    (order : Descending (fun _ : RetryRow => 0)) :
    StartsPass site s (s.pendingRetries now order) (s.startPass site now order).1
      (s.startPass site now order).2 := by
  unfold EngineState.startPass
  split
  · next hempty =>
    rw [hempty]
    exact ⟨rfl, rfl, fun _ he => absurd he List.not_mem_nil, fun h => absurd rfl h,
      fun _ h => Or.inr h, fun he => absurd he List.not_mem_nil⟩
  · let started : EngineState := { s with
      deliveries := EngineState.clearRetries s.deliveries (s.pendingRetries now order)
      passes := s.passes.insert ⟨none, s.pendingRetries now order⟩ }
    have h : started.SendsTo site (started.advance site s.passes.next now _).1 _ :=
      .advance started now (s.passes.row_insert_next _)
    have hstarted : ∀ row, started.Unsent row →
        row ∈ s.pendingRetries now order ∨ s.Unsent row := by
      rintro row ⟨q, p, hp, hrow⟩
      rcases (s.passes.row_insert_eq_some _).mp hp with ⟨-, rfl⟩ | hp
      · exact Or.inl hrow
      · exact Or.inr ⟨q, p, hp, hrow⟩
    refine
      { webhooks := h.webhooks
        deliveries := h.deliveries
        writes := fun e he hwrites => ?_
        picked := fun _ => List.mem_cons_self
        unsent := fun row hrow => hstarted row (h.unsent row hrow)
        sent := fun he hcaller => ?_ }
    · rcases List.mem_cons.mp he with rfl | he
      · rfl
      · exact absurd hwrites (Bool.eq_false_iff.mp (h.writes e he))
    · rcases List.mem_cons.mp he with heq | he
      · exact nomatch heq
      · obtain ⟨row, hrow, heq⟩ := h.sent he hcaller
        exact ⟨row, hstarted row hrow, heq⟩

/-! ## Tables of deliveries -/

theorem row_pruneDeliveries
    (order : Descending (fun r : ℕ × DeliveryRow => r.2.createdAt)) (webhookId : ℕ)
    (deliveries : Table DeliveryRow) {id : ℕ} {r : DeliveryRow} :
    (pruneDeliveries order webhookId deliveries).row id = some r ↔
      deliveries.row id = some r ∧ (r.webhookId = webhookId →
        id ∈ (keptDeliveries order webhookId deliveries).map Prod.fst) := by
  unfold pruneDeliveries
  rw [Table.row_deleteWhere_eq_some, Bool.and_eq_false_imp, decide_eq_true_eq,
    decide_eq_false_iff_not, not_not]

namespace EngineState

theorem row_clearRetries (batch : List RetryRow) (deliveries : Table DeliveryRow)
    (id : ℕ) :
    (clearRetries deliveries batch).row id = (deliveries.row id).map fun r =>
      if id ∈ batch.map (·.id) then { r with nextRetryAt := none } else r := by
  unfold clearRetries
  induction batch generalizing deliveries with
  | nil => simp
  | cons row batch ih =>
    rw [List.foldl_cons, ih, Table.row_update]
    cases hr : deliveries.row id with
    | none =>
      by_cases hid : id = row.id
      · simp [hid, hid ▸ hr]
      · simp [hid]
    | some r =>
      by_cases hid : id = row.id
      · subst hid
        simp [hr]
      · simp [hid]

theorem next_clearRetries (batch : List RetryRow) (deliveries : Table DeliveryRow) :
    (clearRetries deliveries batch).next = deliveries.next := by
  unfold clearRetries
  induction batch generalizing deliveries with
  | nil => rfl
  | cons row batch ih => rw [List.foldl_cons, ih, Table.next_update]

variable {s : EngineState} {now : ℕ} {order : Descending (fun _ : RetryRow => 0)}

theorem due_eq_some {r : ℕ × DeliveryRow} {row : RetryRow} (h : s.due now r = some row) :
    ∃ w, s.webhooks.row r.2.webhookId = some w ∧ w.enabled = true
      ∧ r.2.nextRetryAt.isSome ∧ row = ⟨r.1, r.2.webhookId, r.2.eventType,
        r.2.payload, r.2.attempt, w.toWebhook⟩ := by
  unfold due at h
  split at h
  · exact nomatch h
  · next w hw =>
    split at h
    · next hdue =>
      obtain ⟨henabled, htime⟩ := Bool.and_eq_true_iff.mp hdue
      exact ⟨w, hw, henabled, Option.isSome_of_any htime, (Option.some.inj h).symm⟩
    · exact nomatch h

/-- **What a pass picks up**: a scheduled delivery, with its enabled webhook. -/
theorem mem_pendingRetries {row : RetryRow} (h : row ∈ s.pendingRetries now order) :
    ∃ r w, s.deliveries.row row.id = some r ∧ s.webhooks.row r.webhookId = some w
      ∧ w.enabled = true ∧ r.nextRetryAt.isSome ∧ row = ⟨row.id, r.webhookId,
        r.eventType, r.payload, r.attempt, w.toWebhook⟩ := by
  obtain ⟨⟨id, r⟩, hmem, hdue⟩ := List.mem_filterMap.mp (order.mem_of_mem_first h)
  obtain ⟨w, hw, henabled, htime, rfl⟩ := due_eq_some hdue
  exact ⟨r, w, s.deliveries.mem_rows.mp hmem, hw, henabled, htime, rfl⟩

theorem nodup_pendingRetries : ((s.pendingRetries now order).map (·.id)).Nodup := by
  refine order.nodup_map_first 50 _ ?_
  have hids : ∀ rows : List (ℕ × DeliveryRow),
      (rows.filterMap (s.due now)).map (·.id)
        = (rows.filter (fun r => (s.due now r).isSome)).map Prod.fst := by
    intro rows
    induction rows with
    | nil => rfl
    | cons r rows ih =>
      cases hdue : s.due now r with
      | none => rw [List.filterMap_cons_none hdue, List.filter_cons_of_neg (by simp [hdue]), ih]
      | some row =>
        obtain ⟨w, -, -, -, hrow⟩ := due_eq_some hdue
        rw [List.filterMap_cons_some hdue, List.filter_cons_of_pos (by simp [hdue]),
          List.map_cons, List.map_cons, ih, hrow]
  rw [hids]
  exact s.deliveries.nodup_rows.sublist (List.filter_sublist.map _)

end EngineState

/-! ## What has been shown -/

def WebhookEvent.isDelivery : WebhookEvent → Bool
  | sent .. => true
  | recorded .. => true
  | _ => false

/-- **A delivery that is retried**: an automatic one that failed, with attempts
left. -/
def Sending.Retried (site : WebhookSite) (x : Sending) (success : Bool) : Prop :=
  x.opts.allowRetry = true ∧ success = false ∧ x.mayRetry site = true

theorem Sending.retried_of_retryAt (x : Sending) {outcome : Outcome} {now : ℕ}
    {random : ℚ} (h : (x.retryAt site outcome now random).isSome) :
    x.Retried site outcome.success := by
  unfold Sending.retryAt at h
  split at h
  · next hretry =>
    obtain ⟨hfails, hmay⟩ := Bool.and_eq_true_iff.mp hretry
    obtain ⟨hallow, hfailed⟩ := Bool.and_eq_true_iff.mp hfails
    exact ⟨hallow, Bool.not_eq_true' _ |>.mp hfailed, hmay⟩
  · exact nomatch h

/-- **Where a call of `deliverWebhook` comes from**: an event, a test, or a
delivery that was recorded. -/
inductive Origin (site : WebhookSite) (es : List WebhookEvent) : Dispatch → Prop
  | live {id w eventType payload} :
    Origin site es ⟨.live, id, w, eventType, payload, ⟨0, none, true⟩⟩
  | test {id w eventType payload} :
    Origin site es ⟨.test, id, w, eventType, payload, ⟨0, none, false⟩⟩
  | manual {i id x ok w} (h : .recorded i id x ok ∈ es) :
    Origin site es ⟨.manual, x.webhookId, w, x.eventType,
      storedPayload site.rt x.body, ⟨x.opts.attempt + 1, some id, false⟩⟩
  | retryPass {i id x ok w} (h : .recorded i id x ok ∈ es) (hx : x.Retried site ok) :
    Origin site es ⟨.retryPass, x.webhookId, w, x.eventType,
      storedPayload site.rt x.body, ⟨x.opts.attempt + 1, some id, true⟩⟩

theorem Origin.mono {es es' : List WebhookEvent} {d : Dispatch}
    (h : Origin site es d) : Origin site (es ++ es') d := by
  cases h with
  | live => exact .live
  | test => exact .test
  | manual h => exact .manual (List.mem_append_left _ h)
  | retryPass h hx => exact .retryPass (List.mem_append_left _ h) hx

/-- **A row of `webhook_deliveries` was recorded**, and it is scheduled only if
the delivery is retried. -/
def Logged (site : WebhookSite) (es : List WebhookEvent) (id : ℕ) (r : DeliveryRow) :
    Prop :=
  ∃ i x ok, WebhookEvent.recorded i id x ok ∈ es ∧ r.webhookId = x.webhookId
    ∧ r.eventType = x.eventType ∧ r.payload = x.body ∧ r.attempt = x.opts.attempt
    ∧ (r.nextRetryAt.isSome → x.Retried site ok)

/-- **A row of a batch was recorded**, and is to be retried. -/
def Held (site : WebhookSite) (es : List WebhookEvent) (row : RetryRow) : Prop :=
  ∃ i x ok, WebhookEvent.recorded i row.id x ok ∈ es ∧ row.webhookId = x.webhookId
    ∧ row.eventType = x.eventType ∧ row.payload = x.body
    ∧ row.attempt = x.opts.attempt ∧ x.Retried site ok

theorem Logged.mono {es es' : List WebhookEvent} {id : ℕ} {r : DeliveryRow}
    (h : Logged site es id r) : Logged site (es ++ es') id r := by
  obtain ⟨i, x, ok, hrec, hr⟩ := h
  exact ⟨i, x, ok, List.mem_append_left _ hrec, hr⟩

theorem Held.mono {es es' : List WebhookEvent} {row : RetryRow}
    (h : Held site es row) : Held site (es ++ es') row := by
  obtain ⟨i, x, ok, hrec, hr⟩ := h
  exact ⟨i, x, ok, List.mem_append_left _ hrec, hr⟩

/-- **The tables agree with what has been shown.** -/
structure History (site : WebhookSite) (es : List WebhookEvent) (s : EngineState) :
    Prop where
  event_eq : ∀ {i} {d : Dispatch} {now url headers body}, .sent i d now url headers body ∈ es →
    .sent i d now url headers body = d.event site i now
  sent_lt : ∀ {i} {d : Dispatch} {now}, d.event site i now ∈ es → i < s.sendings.next
  sent_once : ∀ {i} {d d' : Dispatch} {now now'}, d.event site i now ∈ es →
    d'.event site i now' ∈ es → d = d' ∧ now = now'
  origin : ∀ {i} {d : Dispatch} {now}, d.event site i now ∈ es → Origin site es d
  sending : ∀ {i x}, s.sendings.row i = some x →
    ∃ (d : Dispatch) (now : ℕ), d.event site i now ∈ es ∧ x = d.sending site now
  waiting : ∀ {i x id x' ok}, s.sendings.row i = some x → .recorded i id x' ok ∉ es
  recorded : ∀ {i id x ok}, .recorded i id x ok ∈ es → id < s.deliveries.next
    ∧ ∃ (d : Dispatch) (now : ℕ), d.event site i now ∈ es ∧ x = d.sending site now
  recorded_once : ∀ {i id x ok id' x' ok'}, .recorded i id x ok ∈ es →
    .recorded i id' x' ok' ∈ es → id = id' ∧ ok = ok'
  delivery_once : ∀ {i id x ok i' x' ok'}, .recorded i id x ok ∈ es →
    .recorded i' id x' ok' ∈ es → i = i'
  logged : ∀ {id r}, s.deliveries.row id = some r → Logged site es id r
  held : ∀ {q p row}, s.passes.row q = some p → row ∈ p.batch → Held site es row

theorem History.initial : History site [] .initial where
  event_eq h := nomatch h
  sent_lt h := nomatch h
  sent_once h := nomatch h
  origin h := nomatch h
  sending h := nomatch h
  waiting h := nomatch h
  recorded h := nomatch h
  recorded_once h := nomatch h
  delivery_once h := nomatch h
  logged h := nomatch h
  held h := nomatch h

namespace History

variable {es : List WebhookEvent} {s : EngineState}

/-- **What says nothing of a delivery keeps the history**, if it adds no row
and what it puts into the batches of passes was recorded. -/
theorem quiet (h : History site es s) {es' : List WebhookEvent} {s' : EngineState}
    (hes' : ∀ e ∈ es', e.isDelivery = false)
    (hnext : s'.sendings.next = s.sendings.next)
    (hsendings : ∀ {i x}, s'.sendings.row i = some x → s.sendings.row i = some x)
    (hid : s'.deliveries.next = s.deliveries.next)
    (hdeliveries : ∀ {id r}, s'.deliveries.row id = some r → Logged site es id r)
    (hpasses : ∀ {q p row}, s'.passes.row q = some p → row ∈ p.batch →
      Held site es row) :
    History site (es ++ es') s' := by
  have hmem : ∀ {e}, WebhookEvent.isDelivery e = true → (e ∈ es ++ es' ↔ e ∈ es) := by
    intro e he
    refine ⟨fun hmem => ?_, List.mem_append_left _⟩
    rcases List.mem_append.mp hmem with hmem | hmem
    · exact hmem
    · exact absurd he (Bool.eq_false_iff.mp (hes' e hmem))
  have hsent : ∀ {i} {d : Dispatch} {now},
      d.event site i now ∈ es ++ es' ↔ d.event site i now ∈ es :=
    hmem rfl
  have hrecorded : ∀ {i id x ok}, WebhookEvent.recorded i id x ok ∈ es ++ es'
      ↔ WebhookEvent.recorded i id x ok ∈ es := hmem rfl
  exact
    { event_eq := fun hs => h.event_eq ((hmem rfl).mp hs)
      sent_lt := fun hs => hnext ▸ h.sent_lt (hsent.mp hs)
      sent_once := fun hs hs' => h.sent_once (hsent.mp hs) (hsent.mp hs')
      origin := fun hs => (h.origin (hsent.mp hs)).mono
      sending := fun hx => by
        obtain ⟨d, now, hd, hdx⟩ := h.sending (hsendings hx)
        exact ⟨d, now, hsent.mpr hd, hdx⟩
      waiting := fun hx hr => h.waiting (hsendings hx) (hrecorded.mp hr)
      recorded := fun hr => by
        obtain ⟨hlt, d, now, hd, hdx⟩ := h.recorded (hrecorded.mp hr)
        exact ⟨hid ▸ hlt, d, now, hsent.mpr hd, hdx⟩
      recorded_once := fun hr hr' =>
        h.recorded_once (hrecorded.mp hr) (hrecorded.mp hr')
      delivery_once := fun hr hr' =>
        h.delivery_once (hrecorded.mp hr) (hrecorded.mp hr')
      logged := fun hr => (hdeliveries hr).mono
      held := fun hp hrow => (hpasses hp hrow).mono }

/-- **A delivery is sent.** -/
theorem send (h : History site es s) {d : Dispatch} (now : ℕ)
    (hd : Origin site es d) :
    History site (es ++ [d.event site s.sendings.next now])
      { s with sendings := s.sendings.insert (d.sending site now) } := by
  have hrecorded : ∀ {i id x ok},
      WebhookEvent.recorded i id x ok ∈ es ++ [d.event site s.sendings.next now]
        ↔ WebhookEvent.recorded i id x ok ∈ es := by
    intro i id x ok
    rw [List.mem_append, List.mem_singleton]
    exact or_iff_left (fun h => nomatch h)
  have hsent : ∀ {i} {d' : Dispatch} {now'}, d'.event site i now' ∈
      es ++ [d.event site s.sendings.next now] →
        d'.event site i now' ∈ es ∨ (i = s.sendings.next ∧ d' = d ∧ now' = now) := by
    intro i d' now' hmem
    rcases List.mem_append.mp hmem with hmem | hmem
    · exact Or.inl hmem
    · obtain ⟨hi, hd', hnow, -⟩ := WebhookEvent.sent.inj (List.mem_singleton.mp hmem)
      exact Or.inr ⟨hi, hd', hnow⟩
  refine
    { event_eq := fun hs => ?_
      sent_lt := fun hs => ?_
      sent_once := fun hs hs' => ?_
      origin := fun hs => ?_
      sending := fun hx => ?_
      waiting := fun hx hr => ?_
      recorded := fun hr => ?_
      recorded_once := fun hr hr' =>
        h.recorded_once (hrecorded.mp hr) (hrecorded.mp hr')
      delivery_once := fun hr hr' =>
        h.delivery_once (hrecorded.mp hr) (hrecorded.mp hr')
      logged := fun hr => (h.logged hr).mono
      held := fun hp hrow => (h.held hp hrow).mono }
  · rcases List.mem_append.mp hs with hs | hs
    · exact h.event_eq hs
    · have heq := List.mem_singleton.mp hs
      obtain ⟨rfl, rfl, rfl, -⟩ := WebhookEvent.sent.inj heq
      exact heq
  · rcases hsent hs with hs | ⟨rfl, -⟩
    · exact Nat.lt_succ_of_lt (h.sent_lt hs)
    · exact Nat.lt_succ_self _
  · rcases hsent hs with hs | ⟨rfl, rfl, rfl⟩
    · rcases hsent hs' with hs' | ⟨rfl, -⟩
      · exact h.sent_once hs hs'
      · exact absurd (h.sent_lt hs) (Nat.lt_irrefl _)
    · rcases hsent hs' with hs' | ⟨-, rfl, rfl⟩
      · exact absurd (h.sent_lt hs') (Nat.lt_irrefl _)
      · exact ⟨rfl, rfl⟩
  · rcases hsent hs with hs | ⟨-, rfl, -⟩
    · exact (h.origin hs).mono
    · exact hd.mono
  · rcases (s.sendings.row_insert_eq_some _).mp hx with ⟨rfl, rfl⟩ | hx
    · exact ⟨d, now, List.mem_append_right _ List.mem_cons_self, rfl⟩
    · obtain ⟨d', now', hd', hdx⟩ := h.sending hx
      exact ⟨d', now', List.mem_append_left _ hd', hdx⟩
  · rcases (s.sendings.row_insert_eq_some _).mp hx with ⟨rfl, rfl⟩ | hx
    · -- what was recorded had been sent before
      obtain ⟨-, d', now', hd', -⟩ := h.recorded (hrecorded.mp hr)
      exact Nat.lt_irrefl _ (h.sent_lt hd')
    · exact h.waiting hx (hrecorded.mp hr)
  · obtain ⟨hlt, d', now', hd', hdx⟩ := h.recorded (hrecorded.mp hr)
    exact ⟨hlt, d', now', List.mem_append_left _ hd', hdx⟩

/-- **A delivery is recorded.** -/
theorem record (h : History site es s) {i : ℕ} {x : Sending} {outcome : Outcome}
    {s' : EngineState} (now : ℕ) (random : ℚ)
    (hrow : s.sendings.row i = some x)
    (hsendings : s'.sendings = s.sendings.deleteWhere (fun j _ => j = i))
    (hid : s'.deliveries.next = s.deliveries.next + 1)
    (hdeliveries : ∀ {id r}, s'.deliveries.row id = some r →
      (s.recordedDeliveries site x outcome now random).row id = some r)
    (hpasses : s'.passes = s.passes) :
    History site (es ++ [.recorded i s.deliveries.next x outcome.success]) s' := by
  have hsent : ∀ {j} {d : Dispatch} {now'},
      d.event site j now' ∈ es ++ [.recorded i s.deliveries.next x outcome.success]
        ↔ d.event site j now' ∈ es := by
    intro j d now'
    rw [List.mem_append, List.mem_singleton]
    exact or_iff_left (fun h => nomatch h)
  have hrecorded : ∀ {j id x' ok}, WebhookEvent.recorded j id x' ok ∈
      es ++ [.recorded i s.deliveries.next x outcome.success] →
        WebhookEvent.recorded j id x' ok ∈ es
          ∨ (j = i ∧ id = s.deliveries.next ∧ x' = x ∧ ok = outcome.success) := by
    intro j id x' ok hmem
    rcases List.mem_append.mp hmem with hmem | hmem
    · exact Or.inl hmem
    · exact Or.inr (WebhookEvent.recorded.inj (List.mem_singleton.mp hmem))
  -- the row of the sending is gone, so nothing is recorded of it again
  have hstays : ∀ {j x'}, s'.sendings.row j = some x' →
      s.sendings.row j = some x' ∧ j ≠ i := by
    intro j x' hx'
    rw [hsendings, Table.row_deleteWhere_eq_some] at hx'
    exact ⟨hx'.1, of_decide_eq_false hx'.2⟩
  refine
    { event_eq := fun hs => ?_
      sent_lt := fun hs => ?_
      sent_once := fun hs hs' => h.sent_once (hsent.mp hs) (hsent.mp hs')
      origin := fun hs => (h.origin (hsent.mp hs)).mono
      sending := fun hx' => ?_
      waiting := fun hx' hr => ?_
      recorded := fun hr => ?_
      recorded_once := fun hr hr' => ?_
      delivery_once := fun hr hr' => ?_
      logged := fun hr => ?_
      held := fun hp hrow => (h.held (hpasses ▸ hp) hrow).mono }
  · rcases List.mem_append.mp hs with hs | hs
    · exact h.event_eq hs
    · exact nomatch List.mem_singleton.mp hs
  · rw [hsendings]
    exact h.sent_lt (hsent.mp hs)
  · obtain ⟨d, now', hd, hdx⟩ := h.sending (hstays hx').1
    exact ⟨d, now', hsent.mpr hd, hdx⟩
  · obtain ⟨hx', hne⟩ := hstays hx'
    rcases hrecorded hr with hr | ⟨hji, -⟩
    · exact h.waiting hx' hr
    · exact hne hji
  · rw [hid]
    rcases hrecorded hr with hr | ⟨rfl, rfl, rfl, -⟩
    · obtain ⟨hlt, d, now', hd, hdx⟩ := h.recorded hr
      exact ⟨Nat.lt_succ_of_lt hlt, d, now', hsent.mpr hd, hdx⟩
    · obtain ⟨d, now', hd, hdx⟩ := h.sending hrow
      exact ⟨Nat.lt_succ_self _, d, now', hsent.mpr hd, hdx⟩
  · rcases hrecorded hr with hold | ⟨hi, hid, -, hok⟩
    · rcases hrecorded hr' with hold' | ⟨hi', -⟩
      · exact h.recorded_once hold hold'
      · exact absurd (hi' ▸ hold) (h.waiting hrow)
    · rcases hrecorded hr' with hold' | ⟨-, hid', -, hok'⟩
      · exact absurd (hi ▸ hold') (h.waiting hrow)
      · exact ⟨hid.trans hid'.symm, hok.trans hok'.symm⟩
  · rcases hrecorded hr with hold | ⟨hi, hid, -⟩
    · rcases hrecorded hr' with hold' | ⟨-, hid', -⟩
      · exact h.delivery_once hold hold'
      · exact absurd (hid' ▸ (h.recorded hold).1) (Nat.lt_irrefl _)
    · rcases hrecorded hr' with hold' | ⟨hi', -⟩
      · exact absurd (hid ▸ (h.recorded hold').1) (Nat.lt_irrefl _)
      · exact hi.trans hi'.symm
  · rcases (s.deliveries.row_insert_eq_some _).mp (hdeliveries hr) with ⟨rfl, rfl⟩ | hr
    · refine ⟨i, x, outcome.success, List.mem_append_right _ List.mem_cons_self, rfl, rfl,
        rfl, rfl, fun hretry => ?_⟩
      exact x.retried_of_retryAt hretry
    · exact (h.logged hr).mono

end History

/-- A call is made for an event, a test, or a delivery that was recorded. -/
theorem Called.origin {es : List WebhookEvent} {s : EngineState} (h : History site es s)
    {d : Dispatch} (hd : Called site s d) : Origin site es d := by
  cases hd with
  | live hw => exact .live
  | test hw => exact .test
  | manual hr hw =>
    obtain ⟨i, x, ok, hrec, hid, htype, hbody, hattempt, -⟩ := h.logged hr
    unfold manualDispatch
    rw [hid, htype, hbody, hattempt]
    exact .manual hrec

theorem Held.origin {es : List WebhookEvent} {row : RetryRow} (h : Held site es row) :
    Origin site es (EngineState.retryDispatch site row) := by
  obtain ⟨i, x, ok, hrec, hid, htype, hbody, hattempt, hx⟩ := h
  unfold EngineState.retryDispatch
  rw [hid, htype, hbody, hattempt]
  exact .retryPass hrec hx

theorem History.held_of_pending {es : List WebhookEvent} {s : EngineState}
    (h : History site es s) {now : ℕ} {order : Descending (fun _ : RetryRow => 0)}
    {row : RetryRow} (hrow : row ∈ s.pendingRetries now order) : Held site es row := by
  obtain ⟨r, w, hr, -, -, htime, heq⟩ := EngineState.mem_pendingRetries hrow
  obtain ⟨i, x, ok, hrec, hid, htype, hbody, hattempt, hx⟩ := h.logged hr
  rw [heq]
  exact ⟨i, x, ok, hrec, hid, htype, hbody, hattempt, hx htime⟩

/-- **Every piece keeps the history.** -/
theorem History.piece {es es' : List WebhookEvent} {s s' : EngineState}
    (h : History site es s) (hp : Piece site s s' es') :
    History site (es ++ es') s' := by
  cases hp with
  | answered response =>
    exact h.quiet (by simp [WebhookEvent.isDelivery]) rfl id rfl h.logged h.held
  | created fields randomSecret =>
    exact h.quiet (by simp) rfl id rfl h.logged h.held
  | updated u =>
    refine h.quiet (fun e he => ?_) rfl id rfl h.logged h.held
    split at he
    · rw [List.mem_singleton.mp he]
      rfl
    · exact nomatch he
  | deleted id =>
    refine h.quiet (by simp) rfl (fun hx => hx) rfl (fun hr => ?_) h.held
    exact h.logged ((Table.row_deleteWhere_eq_some _ _).mp hr).1
  | sent now hd => exact h.send now (hd.origin h)
  | unrecorded hrow hgone =>
    refine h.quiet (by simp [WebhookEvent.isDelivery]) rfl (fun hx => ?_) rfl h.logged
      h.held
    exact ((Table.row_deleteWhere_eq_some _ _).mp hx).1
  | @recorded i x w outcome now random order hrow hw =>
    rw [List.append_cons]
    let s₁ : EngineState := { s with
      deliveries := pruneDeliveries order x.webhookId
        (s.recordedDeliveries site x outcome now random)
      sendings := s.sendings.deleteWhere (fun j _ => j = i) }
    have hrecord : History site _ s₁ := h.record now random hrow rfl rfl
      (fun hr => ((row_pruneDeliveries _ _ _).mp hr).1) rfl
    refine hrecord.quiet (fun e he => ?_) rfl id rfl hrecord.logged hrecord.held
    split at he
    · rw [List.mem_singleton.mp he]
      rfl
    · exact nomatch he
  | picked now order =>
    refine h.quiet (by simp [WebhookEvent.isDelivery]) rfl id
      (EngineState.next_clearRetries _ _) (fun {id r} hr => ?_) (fun {q p row} hp hrow => ?_)
    · rw [EngineState.row_clearRetries] at hr
      obtain ⟨r', hr', rfl⟩ := Option.map_eq_some_iff.mp hr
      obtain ⟨i, x, ok, hrec, hlog⟩ := h.logged hr'
      split
      · exact ⟨i, x, ok, hrec, hlog.1, hlog.2.1, hlog.2.2.1, hlog.2.2.2.1,
          fun htime => nomatch htime⟩
      · exact ⟨i, x, ok, hrec, hlog⟩
    · rcases (s.passes.row_insert_eq_some _).mp hp with ⟨-, rfl⟩ | hp
      · exact h.held_of_pending hrow
      · exact h.held hp hrow
  | @passSent q p row rest now hpass hbatch =>
    have hheld : ∀ {row'}, row' ∈ p.batch → Held site es row' := h.held hpass
    rw [hbatch] at hheld
    have hsent := h.send now (hheld List.mem_cons_self).origin
    rw [← List.append_nil (es ++ _)]
    refine hsent.quiet (fun _ he => absurd he List.not_mem_nil) rfl id rfl hsent.logged
      (fun {q' p' row'} hp' hrow' => ?_)
    · rw [Table.row_update] at hp'
      split at hp'
      · obtain ⟨-, -, rfl⟩ := Option.map_eq_some_iff.mp hp'
        exact (hheld (List.mem_cons_of_mem _ hrow')).mono
      · exact hsent.held hp' hrow'
  | passEnded hpass hbatch =>
    refine h.quiet (by simp [WebhookEvent.isDelivery]) rfl id rfl h.logged
      (fun hp' hrow' => ?_)
    exact h.held ((Table.row_deleteWhere_eq_some _ _).mp hp').1 hrow'

/-- **In every run the tables agree with what has been shown.** -/
theorem webhookEngine_history (as : List WebhookAction) :
    History site ((webhookEngine site).trace .initial as)
      ((webhookEngine site).state .initial as) :=
  webhookEngine_invariant .initial (fun _ _ _ _ h hp => h.piece hp) as

end MissionControl
