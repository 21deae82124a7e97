import MissionControl.RetryChains

/-!
# Scheduled retries

A scheduled retry is a row of `webhook_deliveries` with a time. A retry pass
takes the time away when it picks the row up, and deleting a webhook deletes
its rows. But the same table is the log of deliveries, of which each delivery
that is recorded keeps the last two hundred of its webhook: a retry that is
still scheduled is deleted once two hundred deliveries have been recorded after
it, which takes no longer than a busy webhook needs.
-/

namespace MissionControl

variable {site : WebhookSite}

def Scheduled (deliveries : Table DeliveryRow) (id : ℕ) : Prop :=
  ∃ r, deliveries.row id = some r ∧ r.nextRetryAt.isSome

/-- **A step loses no retry**: what is scheduled stays so, unless it is picked
up or its webhook is deleted, and the retry of what is recorded is scheduled. -/
structure LosesNoRetry (site : WebhookSite) (s : EngineState) (a : WebhookAction) :
    Prop where
  kept : ∀ id r, s.deliveries.row id = some r → r.nextRetryAt.isSome →
    Scheduled ((webhookEngine site).next s a).deliveries id
    ∨ id ∈ pickups ((webhookEngine site).emits s a)
    ∨ ∃ body, a = .delete body
        ∧ ((webhookEngine site).next s a).webhooks.row r.webhookId = none
  added : ∀ i id x ok, .recorded i id x ok ∈ (webhookEngine site).emits s a →
    x.Retried site ok → Scheduled ((webhookEngine site).next s a).deliveries id

/-- How many deliveries of a webhook the database lists before one, the newest
first. -/
def newerDeliveries (order : Descending (fun r : ℕ × DeliveryRow => r.2.createdAt))
    (webhookId : ℕ) (deliveries : Table DeliveryRow) (id : ℕ) : ℕ :=
  ((order.sort (deliveries.rows.filter (fun r => r.2.webhookId = webhookId))).map
    Prod.fst).idxOf id

/-- **A step prunes no scheduled retry**: where a delivery is recorded, each
scheduled retry of its webhook has fewer than two hundred newer deliveries
before it. -/
def PrunesNoRetry (site : WebhookSite) (s : EngineState) : WebhookAction → Prop
  | .respond i outcome now random order =>
    ∀ x w, s.sendings.row i = some x → s.webhooks.row x.webhookId = some w →
      ∀ id r, (s.recordedDeliveries site x outcome now random).row id = some r →
        r.webhookId = x.webhookId → r.nextRetryAt.isSome →
        newerDeliveries order x.webhookId
          (s.recordedDeliveries site x outcome now random) id < 200
  | _ => True

/-! ## The exact condition -/

theorem mem_keptDeliveries
    {order : Descending (fun r : ℕ × DeliveryRow => r.2.createdAt)} {webhookId id : ℕ}
    {deliveries : Table DeliveryRow} {r : DeliveryRow} (hr : deliveries.row id = some r)
    (hid : r.webhookId = webhookId) :
    id ∈ (keptDeliveries order webhookId deliveries).map Prod.fst
      ↔ newerDeliveries order webhookId deliveries id < 200 := by
  unfold keptDeliveries newerDeliveries Descending.first
  rw [List.map_take]
  refine List.mem_take_iff_idxOf_lt (List.mem_map.mpr ⟨(id, r), ?_, rfl⟩)
  refine (order.perm _).mem_iff.mpr (List.mem_filter.mpr ⟨?_, decide_eq_true hid⟩)
  exact deliveries.mem_rows.mpr hr

theorem LosesNoRetry.of_eq {s : EngineState} {a : WebhookAction}
    (hdeliveries : ((webhookEngine site).next s a).deliveries = s.deliveries)
    (hrecorded : ∀ i id x ok, .recorded i id x ok ∉ (webhookEngine site).emits s a) :
    LosesNoRetry site s a where
  kept _ r hr htime := Or.inl ⟨r, hdeliveries ▸ hr, htime⟩
  added i id x ok hrec _ := absurd hrec (hrecorded i id x ok)

theorem LosesNoRetry.of_sendsTo {s : EngineState} {a : WebhookAction}
    (h : s.SendsTo site ((webhookEngine site).next s a) ((webhookEngine site).emits s a)) :
    LosesNoRetry site s a :=
  .of_eq h.deliveries fun _ _ _ _ hrec => nomatch h.writes _ hrec

/-- **Recording a delivery loses no retry exactly if it prunes none.** -/
theorem losesNoRetry_respond_iff (s : EngineState) (i : ℕ) (outcome : Outcome) (now : ℕ)
    (random : ℚ) (order : Descending (fun r : ℕ × DeliveryRow => r.2.createdAt)) :
    LosesNoRetry site s (.respond i outcome now random order)
      ↔ PrunesNoRetry site s (.respond i outcome now random order) := by
  have hstep : (webhookEngine site).step s (.respond i outcome now random order)
    = s.respond site i outcome now random order := rfl
  cases hx : s.sendings.row i with
  | none =>
    rw [respond_of_none hx] at hstep
    refine ⟨fun _ x w hx' => absurd (hx.symm.trans hx') nofun, fun _ => .of_eq ?_ ?_⟩
    · rw [Machine.next, hstep]
    · rw [Machine.emits, hstep]
      exact fun _ _ _ _ => List.not_mem_nil
  | some x =>
  cases hw : s.webhooks.row x.webhookId with
  | none =>
    rw [respond_of_gone hx hw] at hstep
    refine ⟨fun _ x' w hx' hw' => ?_, fun _ => .of_eq ?_ ?_⟩
    · obtain rfl := Option.some.inj (hx.symm.trans hx')
      exact nomatch hw.symm.trans hw'
    · rw [Machine.next, hstep]
    · rw [Machine.emits, hstep]
      exact fun _ _ _ _ hrec => nomatch List.mem_singleton.mp hrec
  | some w =>
  rw [respond_of_some hx hw] at hstep
  let deliveries := s.recordedDeliveries site x outcome now random
  have hdeliveries :
      ((webhookEngine site).next s (.respond i outcome now random order)).deliveries
        = pruneDeliveries order x.webhookId deliveries := by
    rw [Machine.next, hstep]
  have hemits : (webhookEngine site).emits s (.respond i outcome now random order)
      = .recorded i s.deliveries.next x outcome.success ::
        if x.trips site outcome w then [.disabled x.webhookId] else [] := by
    rw [Machine.emits, hstep]
  -- a scheduled row is still there just if pruning keeps it
  have hscheduled : ∀ {id r}, deliveries.row id = some r → r.nextRetryAt.isSome →
      (Scheduled (pruneDeliveries order x.webhookId deliveries) id ↔
        (r.webhookId = x.webhookId →
          newerDeliveries order x.webhookId deliveries id < 200)) := by
    intro id r hr htime
    constructor
    · rintro ⟨r', hr', -⟩ hid
      obtain ⟨hold, hkept⟩ := (row_pruneDeliveries _ _ _).mp hr'
      obtain rfl := Option.some.inj (hr.symm.trans hold)
      exact (mem_keptDeliveries hr hid).mp (hkept hid)
    · intro hnewer
      exact ⟨r, (row_pruneDeliveries _ _ _).mpr
        ⟨hr, fun hid => (mem_keptDeliveries hr hid).mpr (hnewer hid)⟩, htime⟩
  constructor
  · intro h x' w' hx' _ id r hr hid htime
    obtain rfl := Option.some.inj (hx.symm.trans hx')
    refine (hscheduled hr htime).mp ?_ hid
    rw [← hdeliveries]
    rcases (s.deliveries.row_insert_eq_some _).mp hr with ⟨rfl, rfl⟩ | hold
    · -- the delivery that is recorded
      refine h.added i _ x outcome.success ?_ (x.retried_of_retryAt htime)
      rw [hemits]
      exact List.mem_cons_self
    · rcases h.kept id r hold htime with hkept | hpicked | ⟨body, hdelete, -⟩
      · exact hkept
      · rw [hemits] at hpicked
        split at hpicked <;> exact absurd hpicked List.not_mem_nil
      · exact nomatch hdelete
  · intro h
    refine ⟨fun id r hr htime => Or.inl ?_, fun j id x' ok hrec hretried => ?_⟩
    · rw [hdeliveries]
      have hrow : deliveries.row id = some r := s.deliveries.row_insert_of_some _ hr
      exact (hscheduled hrow htime).mpr fun hid => h x w hx hw id r hrow hid htime
    · rw [hemits] at hrec
      rcases List.mem_cons.mp hrec with hrec | hrec
      · obtain ⟨rfl, rfl, rfl, rfl⟩ := WebhookEvent.recorded.inj hrec
        rw [hdeliveries]
        have hrow : deliveries.row s.deliveries.next = some _ :=
          s.deliveries.row_insert_next _
        refine (hscheduled hrow ?_).mpr fun hid => h x' w hx hw _ _ hrow hid ?_
        all_goals
          show (x'.retryAt site outcome now random).isSome
          unfold Sending.retryAt Sending.fails
          rw [hretried.1, hretried.2.1, hretried.2.2]
          rfl
      · split at hrec
        · exact nomatch List.mem_singleton.mp hrec
        · exact absurd hrec List.not_mem_nil

/-- **A step loses no retry exactly if it prunes none.** -/
theorem losesNoRetry_iff (s : EngineState) (a : WebhookAction) :
    LosesNoRetry site s a ↔ PrunesNoRetry site s a := by
  cases a with
  | respond i outcome now random order =>
    exact losesNoRetry_respond_iff s i outcome now random order
  | create fields randomSecret =>
    refine ⟨fun _ => trivial, fun _ => .of_eq rfl fun _ _ _ _ hrec => ?_⟩
    exact nomatch List.mem_singleton.mp hrec
  | update body randomSecret =>
    refine ⟨fun _ => trivial, fun _ => ?_⟩
    rcases updateWebhook_cases site s body randomSecret with
      ⟨response, -, heq⟩ | ⟨u, response, -, heq⟩
    · refine .of_eq (congrArg (·.1.deliveries) heq) fun i id x ok hrec => ?_
      change _ ∈ (updateWebhook site s body randomSecret).2 at hrec
      rw [heq] at hrec
      exact nomatch List.mem_singleton.mp hrec
    · refine .of_eq (congrArg (·.1.deliveries) heq) fun i id x ok hrec => ?_
      change _ ∈ (updateWebhook site s body randomSecret).2 at hrec
      rw [heq] at hrec
      split at hrec <;> simp at hrec
  | delete body =>
    refine ⟨fun _ => trivial, fun _ => ?_⟩
    rcases deleteWebhook_cases site s body with
      ⟨response, heq, -⟩ | ⟨webhookId, response, heq, -⟩
    · refine .of_eq (congrArg (·.1.deliveries) heq) fun i id x ok hrec => ?_
      change _ ∈ (deleteWebhook site s body).2 at hrec
      rw [heq] at hrec
      exact nomatch List.mem_singleton.mp hrec
    · refine ⟨fun id r hr htime => ?_, fun i id x ok hrec => ?_⟩
      · have hnext : (webhookEngine site).next s (.delete body) = s.deleteWebhook webhookId :=
          congrArg Prod.fst heq
        rw [hnext]
        by_cases hid : r.webhookId = webhookId
        · refine Or.inr (Or.inr ⟨body, rfl, ?_⟩)
          rw [Option.eq_none_iff_forall_ne_some]
          intro w hw
          have := ((Table.row_deleteWhere_eq_some _ _).mp hw).2
          simp [hid] at this
        · exact Or.inl ⟨r, (Table.row_deleteWhere_eq_some _ _).mpr
            ⟨hr, decide_eq_false hid⟩, htime⟩
      · change _ ∈ (deleteWebhook site s body).2 at hrec
        rw [heq] at hrec
        exact nomatch List.mem_singleton.mp hrec
  | startPass now order =>
    have hpass : StartsPass site s _ _ _ := startPass_spec s now order
    refine ⟨fun _ => trivial, fun _ => ⟨fun id r hr htime => ?_, fun i id x ok hrec => ?_⟩⟩
    · by_cases hid : id ∈ (s.pendingRetries now order).map (·.id)
      · have hsome : s.pendingRetries now order ≠ [] := by
          intro hnil
          rw [hnil] at hid
          exact absurd hid List.not_mem_nil
        exact Or.inr (Or.inl (List.mem_flatMap.mpr ⟨_, hpass.picked hsome, hid⟩))
      · refine Or.inl ⟨r, ?_, htime⟩
        show (s.startPass site now order).1.deliveries.row id = some r
        rw [hpass.deliveries, EngineState.row_clearRetries, hr, Option.map_some, if_neg hid]
    · exact nomatch hpass.writes _ hrec rfl
  | fire => exact ⟨fun _ => trivial, fun _ => .of_sendsTo (sendsTo_of_onlySends s rfl)⟩
  | test => exact ⟨fun _ => trivial, fun _ => .of_sendsTo (sendsTo_of_onlySends s rfl)⟩
  | retry => exact ⟨fun _ => trivial, fun _ => .of_sendsTo (sendsTo_of_onlySends s rfl)⟩
  | resumePass => exact ⟨fun _ => trivial, fun _ => .of_sendsTo (sendsTo_of_onlySends s rfl)⟩

/-! ## Runs -/

/-- **No scheduled retry is lost in a run**: no step loses one, and what was
picked up is sent again, or is in the batch of a pass that has still to send
it. -/
structure NoRetryLost (site : WebhookSite) (as : List WebhookAction) : Prop where
  steps : (webhookEngine site).EachStep (LosesNoRetry site) .initial as
  attempted : ∀ id ∈ pickups ((webhookEngine site).trace .initial as),
    (∃ i d, Sent ((webhookEngine site).trace .initial as) i d
      ∧ d.opts.parentDeliveryId = some id ∧ d.opts.allowRetry = true)
    ∨ ((webhookEngine site).state .initial as).InBatch id

theorem Picks.attempted {es : List WebhookEvent} {s : EngineState}
    (h : History site es s) (hpicks : Picks es s) {id : ℕ} (hid : id ∈ pickups es) :
    (∃ i d, Sent es i d ∧ d.opts.parentDeliveryId = some id ∧ d.opts.allowRetry = true)
    ∨ s.InBatch id := by
  refine ((hpicks.picked_iff id).mp hid).imp_left fun hretried => ?_
  obtain ⟨⟨i, id'⟩, hmem, rfl⟩ := List.mem_map.mp hretried
  obtain ⟨d, hd, hcaller, hparent⟩ := mem_retries.mp hmem
  refine ⟨i, d, hd, hparent, ?_⟩
  cases h.sent_origin hd with
  | retryPass hr hx => rfl
  | _ => exact nomatch hcaller

/-- **No scheduled retry is lost exactly if none is pruned**: in every run, if
wherever a delivery is recorded each scheduled retry of its webhook, the new one
included, has fewer than two hundred newer deliveries. -/
theorem webhookEngine_noRetryLost_iff (site : WebhookSite) (as : List WebhookAction) :
    NoRetryLost site as
      ↔ (webhookEngine site).EachStep (PrunesNoRetry site) .initial as := by
  constructor
  · intro h p a hp
    exact (losesNoRetry_iff _ a).mp (h.steps p a hp)
  · intro h
    refine ⟨fun p a hp => (losesNoRetry_iff _ a).mpr (h p a hp), fun id hid => ?_⟩
    exact (webhookEngine_picks as).attempted (webhookEngine_history as) hid

/-! ## A busy webhook -/

/-- A test of the first webhook, and its response. -/
def sampleTest (k : ℕ) : List WebhookAction :=
  [.test (some (.obj [("id", .ofNat 1)])) "admin" 1,
    .respond (k + 2) (.response 200 none) 1 0 (.insertion _)]

/-- A delivery that fails, and two hundred tests a second later. -/
def sampleBusy (n : ℕ) : List WebhookAction :=
  [.create ⟨"hook", "http://hook", none, none⟩ "secret", .fire "activity" (.obj []) 0,
    .respond 1 (.error "refused") 0 0 (.insertion _)]
  ++ (List.range n).flatMap sampleTest

/-- A retry is scheduled, and so many newer deliveries are recorded. -/
structure Crowded (n : ℕ) (s : EngineState) : Prop where
  webhook : (s.webhooks.row 1).isSome
  sending : s.sendings.next = n + 2
  retry : ∃ r, s.deliveries.row 1 = some r ∧ r.nextRetryAt.isSome ∧ r.createdAt = 0
  webhookId : ∀ r ∈ s.deliveries.rows, r.2.webhookId = 1
  length : s.deliveries.rows.length = n + 1
  newer : s.deliveries.rows.countP (fun r => 0 < r.2.createdAt) = n

theorem pruneDeliveries_eq_self
    {order : Descending (fun r : ℕ × DeliveryRow => r.2.createdAt)} {webhookId : ℕ}
    {deliveries : Table DeliveryRow} (h : deliveries.rows.length ≤ 200) :
    pruneDeliveries order webhookId deliveries = deliveries := by
  refine Table.ext rfl (funext fun id => Option.ext fun r => ?_)
  refine (row_pruneDeliveries _ _ _).trans (and_iff_left_of_imp fun hr hid => ?_)
  refine List.mem_map.mpr ⟨(id, r), order.mem_first_of_length_le ?_ ?_, rfl⟩
  · exact (List.length_filter_le ..).trans h
  · exact List.mem_filter.mpr ⟨deliveries.mem_rows.mpr hr, decide_eq_true hid⟩

/-- A test that is sent. -/
def sampleSending (w : WebhookRow) : Sending :=
  ⟨1, "test.ping", deliveryBody sampleRuntime "test.ping" 1
    (.obj [("message", .str "This is a test webhook from JAIS Command Ops"),
      ("webhook_id", .ofNat 1), ("webhook_name", .str w.name),
      ("triggered_by", .str "admin")]), ⟨0, none, false⟩⟩

theorem next_test {s : EngineState} {w : WebhookRow} (hw : s.webhooks.row 1 = some w) :
    (webhookEngine sampleWebhookSite).next s
        (.test (some (.obj [("id", .ofNat 1)])) "admin" 1)
      = { s with sendings := s.sendings.insert (sampleSending w) } := by
  have hid : namedId sampleSqlite (some (.obj [("id", .ofNat 1)])) "id"
      "Webhook ID is required" "Failed to test webhook" = .ok (some 1) := rfl
  show (testWebhook sampleWebhookSite s _ "admin" 1).1 = _
  unfold testWebhook
  rw [show sampleWebhookSite.sq = sampleSqlite from rfl, hid]
  dsimp only [Option.bind_some]
  rw [hw]
  rfl

theorem rows_recordedDeliveries {s : EngineState} {w : WebhookRow} (h : Table Sending) :
    (EngineState.recordedDeliveries sampleWebhookSite { s with sendings := h }
        (sampleSending w) (.response 200 none) 1 0).rows
      = s.deliveries.rows ++
        [(s.deliveries.next, (sampleSending w).row (.response 200 none) 1)] := by
  unfold EngineState.recordedDeliveries
  rw [Table.rows_insert]
  rfl

theorem step_respond {n : ℕ} {s : EngineState} {w : WebhookRow} (h : Crowded n s)
    (hw : s.webhooks.row 1 = some w) :
    (webhookEngine sampleWebhookSite).step
        { s with sendings := s.sendings.insert (sampleSending w) }
        (.respond (n + 2) (.response 200 none) 1 0 (.insertion _))
      = ({ s with
          webhooks := s.webhooks.update 1
            ((sampleSending w).count sampleWebhookSite (.response 200 none))
          deliveries := pruneDeliveries (.insertion _) 1
            (EngineState.recordedDeliveries sampleWebhookSite
              { s with sendings := s.sendings.insert (sampleSending w) }
              (sampleSending w) (.response 200 none) 1 0)
          sendings := (s.sendings.insert (sampleSending w)).deleteWhere
            (fun j _ => j = n + 2) },
        [.recorded (n + 2) s.deliveries.next (sampleSending w) true]) := by
  have hrow : (s.sendings.insert (sampleSending w)).row (n + 2) = some (sampleSending w) :=
    h.sending ▸ s.sendings.row_insert_next _
  exact respond_of_some (s := { s with sendings := s.sendings.insert (sampleSending w) })
    (x := sampleSending w) hrow hw

/-- **Another test crowds a retry further**, and deletes nothing yet. -/
theorem Crowded.test {n : ℕ} {s : EngineState} (h : Crowded n s) (hn : n < 199) :
    Crowded (n + 1) ((webhookEngine sampleWebhookSite).state s (sampleTest n)) := by
  obtain ⟨w, hw⟩ := Option.isSome_iff_exists.mp h.webhook
  have hrows := rows_recordedDeliveries (s := s) (w := w)
    (s.sendings.insert (sampleSending w))
  unfold sampleTest
  rw [Machine.state_cons, next_test hw, Machine.state_cons, Machine.state_nil,
    Machine.next, step_respond h hw]
  rw [pruneDeliveries_eq_self (by rw [hrows, List.length_append, h.length]; simp; omega)]
  refine ⟨?_, ?_, ?_, ?_, ?_, ?_⟩
  · show ((s.webhooks.update 1 _).row 1).isSome
    rw [Table.row_update_self, Option.isSome_map, h.webhook]
  · show s.sendings.next + 1 = n + 1 + 2
    rw [h.sending]
  · obtain ⟨r, hr, htime⟩ := h.retry
    exact ⟨r, s.deliveries.row_insert_of_some _ hr, htime⟩
  · intro r hr
    rcases List.mem_append.mp (hrows ▸ hr) with hr | hr
    · exact h.webhookId r hr
    · rw [List.mem_singleton.mp hr]
      rfl
  · show (EngineState.recordedDeliveries _ _ _ _ _ _).rows.length = _
    rw [hrows, List.length_append, h.length]
    rfl
  · show (EngineState.recordedDeliveries _ _ _ _ _ _).rows.countP _ = _
    rw [hrows, List.countP_append, h.newer]
    rfl

/-- **The two hundredth test deletes the retry.** -/
theorem Crowded.loses {n : ℕ} {s : EngineState} (h : Crowded n s) (hn : 199 ≤ n) :
    ¬ LosesNoRetry sampleWebhookSite
      ((webhookEngine sampleWebhookSite).next s
        (.test (some (.obj [("id", .ofNat 1)])) "admin" 1))
      (.respond (n + 2) (.response 200 none) 1 0 (.insertion _)) := by
  obtain ⟨w, hw⟩ := Option.isSome_iff_exists.mp h.webhook
  obtain ⟨r, hr, htime, hcreated⟩ := h.retry
  have hrows := rows_recordedDeliveries (s := s) (w := w)
    (s.sendings.insert (sampleSending w))
  intro hlost
  rw [next_test hw] at hlost
  have hkept := hlost.kept 1 r hr htime
  rw [Machine.next, Machine.emits, step_respond h hw] at hkept
  rcases hkept with ⟨r', hr', -⟩ | hpicked | ⟨body, hdelete, -⟩
  · obtain ⟨hold, hmem⟩ := (row_pruneDeliveries _ _ _).mp hr'
    have hrow : _ = some r := s.deliveries.row_insert_of_some
      ((sampleSending w).row (.response 200 none) 1) hr
    obtain rfl : r' = r := Option.some.inj (hold.symm.trans hrow)
    have hid := h.webhookId _ (s.deliveries.mem_rows.mpr hr)
    obtain ⟨⟨id, r''⟩, hkept, rfl⟩ := List.mem_map.mp (hmem hid)
    have hr'' := Table.mem_rows _ |>.mp (List.mem_of_mem_filter
      (Descending.mem_of_mem_first _ hkept))
    obtain rfl := Option.some.inj (hold.symm.trans hr'')
    refine Descending.notMem_first _ ?_ hkept
    have hall : ∀ x ∈ s.deliveries.rows ++
        [(s.deliveries.next, (sampleSending w).row (.response 200 none) 1)],
        decide (x.2.webhookId = 1) = true := by
      intro x hx
      rcases List.mem_append.mp hx with hx | hx
      · exact decide_eq_true (h.webhookId x hx)
      · rw [List.mem_singleton.mp hx]
        rfl
    rw [hrows, List.filter_eq_self.mpr hall, List.countP_append, hcreated, h.newer]
    exact Nat.succ_le_succ hn
  · exact absurd hpicked List.not_mem_nil
  · exact nomatch hdelete

theorem sampleBusy_succ (n : ℕ) : sampleBusy (n + 1) = sampleBusy n ++ sampleTest n := by
  unfold sampleBusy
  rw [List.range_succ, List.flatMap_append, List.flatMap_singleton, List.append_assoc]

theorem crowded_zero :
    Crowded 0 ((webhookEngine sampleWebhookSite).state .initial (sampleBusy 0)) := by
  have hretry : (((webhookEngine sampleWebhookSite).state .initial
      (sampleBusy 0)).deliveries.row 1).any
        (fun r => r.nextRetryAt.isSome && r.createdAt = 0) = true := by decide +kernel
  refine ⟨by decide +kernel, by decide +kernel, ?_, by decide +kernel, by decide +kernel,
    by decide +kernel⟩
  cases hr : ((webhookEngine sampleWebhookSite).state .initial
      (sampleBusy 0)).deliveries.row 1 with
  | none => exact nomatch hr ▸ hretry
  | some r =>
    rw [hr] at hretry
    obtain ⟨htime, hcreated⟩ := Bool.and_eq_true_iff.mp hretry
    exact ⟨r, rfl, htime, of_decide_eq_true hcreated⟩

theorem crowded (n : ℕ) (hn : n < 200) :
    Crowded n ((webhookEngine sampleWebhookSite).state .initial (sampleBusy n)) := by
  induction n with
  | zero => exact crowded_zero
  | succ n ih =>
    rw [sampleBusy_succ, Machine.state_append]
    exact (ih (by omega)).test (by omega)

/-- A scheduled retry is lost to two hundred tests. -/
theorem noRetryLost_sampleBusy : ¬ NoRetryLost sampleWebhookSite (sampleBusy 200) := by
  intro hlost
  have hprefix : (sampleBusy 199 ++ [.test (some (.obj [("id", .ofNat 1)])) "admin" 1])
      ++ [.respond 201 (.response 200 none) 1 0 (.insertion _)] <+: sampleBusy 200 := by
    rw [sampleBusy_succ 199, List.append_assoc]
    exact List.prefix_refl _
  have hstep := hlost.steps _ _ hprefix
  rw [Machine.state_concat] at hstep
  exact (crowded 199 (by decide)).loses le_rfl hstep

end MissionControl
