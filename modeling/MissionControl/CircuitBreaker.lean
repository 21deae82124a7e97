import MissionControl.WebhookHistory

/-!
# The circuit breaker

A webhook counts its automatic deliveries that failed since the last one that
succeeded, whatever events they are for. The circuit is shown as open when the
count has reached the maximum; but the webhook is disabled only by the last
attempt at one delivery. So enough events whose first deliveries fail open the
circuit of a webhook that is still enabled, and so does an administrator who
enables a webhook without resetting its count.

The other way round the circuit breaker is right: the count is what has
happened since the last success or reset (`failuresSince`), so that a webhook
is only disabled after enough failures.
-/

namespace MissionControl

variable {site : WebhookSite}

/-! ## Open circuits -/

/-- `circuit_open`, as webhooks are listed. -/
def circuitOpen (site : WebhookSite) (w : WebhookRow) : Bool :=
  site.maxRetries ≤ (w.consecutiveFailures : ℤ)

/-- **A webhook whose circuit is open is disabled.** -/
def CircuitConsistent (site : WebhookSite) (webhooks : Table WebhookRow) : Prop :=
  ∀ id w, webhooks.row id = some w → circuitOpen site w = true → w.enabled = false

/-- **What keeps it so.** A webhook with an open circuit is not enabled but
with its count reset, and no failure brings the count of an enabled webhook to
the maximum, unless it is the failure of a last attempt. A count of zero must
be below the maximum. -/
def KeepsCircuit (site : WebhookSite) (s : EngineState) : WebhookAction → Prop
  | .create _ _ => 0 < site.maxRetries
  | .update body randomSecret =>
    ∀ u w, readWebhookUpdate site s.webhooks body randomSecret = .ok u →
      s.webhooks.row u.id = some w →
      if u.resetCircuit then 0 < site.maxRetries
      else u.enabled = some true → (w.consecutiveFailures : ℤ) < site.maxRetries
  | .respond i outcome _ _ _ =>
    ∀ x w, s.sendings.row i = some x → s.webhooks.row x.webhookId = some w →
      w.enabled = true → x.opts.allowRetry = true →
      if outcome.success then 0 < site.maxRetries
      else x.mayRetry site = true → (w.consecutiveFailures + 1 : ℤ) < site.maxRetries
  | _ => True

theorem circuitOpen_iff {w : WebhookRow} :
    circuitOpen site w = true ↔ ¬ (w.consecutiveFailures : ℤ) < site.maxRetries := by
  unfold circuitOpen
  rw [decide_eq_true_eq, not_lt]

theorem circuitConsistent_insert {t : Table WebhookRow} (h : CircuitConsistent site t)
    (w : WebhookRow) :
    CircuitConsistent site (t.insert w)
      ↔ (circuitOpen site w = true → w.enabled = false) := by
  constructor
  · exact fun h' => h' _ w (t.row_insert_next w)
  · intro hw id w' hrow
    rcases (t.row_insert_eq_some w).mp hrow with ⟨-, rfl⟩ | hrow
    · exact hw
    · exact h id w' hrow

theorem circuitConsistent_update {t : Table WebhookRow} (h : CircuitConsistent site t)
    (id : ℕ) (f : WebhookRow → WebhookRow) :
    CircuitConsistent site (t.update id f)
      ↔ ∀ w, t.row id = some w → circuitOpen site (f w) = true → (f w).enabled = false := by
  constructor
  · intro h' w hw
    exact h' id (f w) (by rw [Table.row_update_self, hw]; rfl)
  · intro hw id' w' hrow
    rw [Table.row_update] at hrow
    split at hrow
    · obtain ⟨w, hid, rfl⟩ := Option.map_eq_some_iff.mp hrow
      exact hw w hid
    · exact h id' w' hrow

/-- **An update keeps a webhook consistent exactly under its condition.** -/
theorem WebhookUpdate.consistent_iff (u : WebhookUpdate) {w : WebhookRow}
    (h : circuitOpen site w = true → w.enabled = false) :
    (circuitOpen site (u.apply w) = true → (u.apply w).enabled = false)
      ↔ if u.resetCircuit then 0 < site.maxRetries
        else u.enabled = some true → (w.consecutiveFailures : ℤ) < site.maxRetries := by
  rw [circuitOpen_iff] at h ⊢
  unfold WebhookUpdate.apply
  cases u.resetCircuit with
  | true => simp
  | false =>
    cases henabled : u.enabled with
    | none => simpa using h
    | some b =>
      cases b with
      | true => simp
      | false => simp

/-- **A delivery that is recorded keeps a webhook consistent exactly under its
condition.** -/
theorem Sending.consistent_iff (x : Sending) (outcome : Outcome) {w : WebhookRow}
    (h : circuitOpen site w = true → w.enabled = false) :
    (circuitOpen site (x.count site outcome w) = true →
        (x.count site outcome w).enabled = false)
      ↔ (w.enabled = true → x.opts.allowRetry = true →
          if outcome.success then 0 < site.maxRetries
          else x.mayRetry site = true →
            (w.consecutiveFailures + 1 : ℤ) < site.maxRetries) := by
  rw [circuitOpen_iff] at h ⊢
  unfold Sending.count Sending.trips Sending.fails
  cases henabled : w.enabled with
  | false => simp
  | true =>
    rw [henabled] at h
    cases x.opts.allowRetry with
    | false => simpa using h
    | true =>
      cases outcome.success with
      | true => simp
      | false =>
        cases x.mayRetry site with
        | true => simp
        | false => simp

/-- **A step keeps open circuits disabled exactly under its condition.** -/
theorem circuitConsistent_next_iff (s : EngineState) (a : WebhookAction)
    (h : CircuitConsistent site s.webhooks) :
    CircuitConsistent site ((webhookEngine site).next s a).webhooks
      ↔ KeepsCircuit site s a := by
  cases a with
  | create fields randomSecret =>
    refine (circuitConsistent_insert h _).trans ?_
    rw [circuitOpen_iff]
    show (¬ ((0 : ℕ) : ℤ) < site.maxRetries → true = false) ↔ _
    simp [KeepsCircuit]
  | update body randomSecret =>
    unfold KeepsCircuit Machine.next webhookEngine
    dsimp only
    rcases updateWebhook_cases site s body randomSecret with
      ⟨response, hread, heq⟩ | ⟨u, response, hread, heq⟩
    · rw [heq]
      exact ⟨fun _ u w hu => absurd (hread.symm.trans hu) nofun, fun _ => h⟩
    · rw [heq]
      refine (circuitConsistent_update h u.id u.apply).trans ⟨fun hw u' w hu' hrow => ?_, ?_⟩
      · obtain rfl := Except.ok.inj (hread.symm.trans hu')
        exact (u.consistent_iff (h u.id w hrow)).mp (hw w hrow)
      · exact fun hw w hrow => (u.consistent_iff (h u.id w hrow)).mpr (hw u w hread hrow)
  | delete body =>
    unfold KeepsCircuit Machine.next webhookEngine
    dsimp only
    refine iff_of_true ?_ trivial
    rcases deleteWebhook_cases site s body with
      ⟨response, heq, -⟩ | ⟨id, response, heq, -⟩
    · rw [heq]
      exact h
    · rw [heq]
      exact fun id' w hrow => h id' w ((Table.row_deleteWhere_eq_some _ _).mp hrow).1
  | respond i outcome now random order =>
    unfold KeepsCircuit Machine.next webhookEngine
    dsimp only
    cases hx : s.sendings.row i with
    | none =>
      rw [respond_of_none hx]
      exact ⟨fun _ x w hx' => (nomatch hx'), fun _ => h⟩
    | some x =>
      cases hw : s.webhooks.row x.webhookId with
      | none =>
        rw [respond_of_gone hx hw]
        refine ⟨fun _ x' w hx' hw' => ?_, fun _ => h⟩
        obtain rfl := Option.some.inj hx'
        exact nomatch hw.symm.trans hw'
      | some w =>
        rw [respond_of_some hx hw]
        refine (circuitConsistent_update h x.webhookId (x.count site outcome)).trans
          ⟨fun hcount x' w' hx' hw' => ?_, fun hcond w' hw' => ?_⟩
        · obtain rfl := Option.some.inj hx'
          exact (x.consistent_iff outcome (h _ w' hw')).mp (hcount w' hw')
        · exact (x.consistent_iff outcome (h _ w' hw')).mpr (hcond x w' rfl hw')
  | startPass now order =>
    refine iff_of_true ?_ trivial
    show CircuitConsistent site (s.startPass site now order).1.webhooks
    rw [(startPass_spec s now order).webhooks]
    exact h
  | _ =>
    refine iff_of_true ?_ trivial
    rw [(sendsTo_of_onlySends s rfl).webhooks]
    exact h

/-- **A webhook with an open circuit is disabled exactly if each step keeps it
so**: all along every run, if a webhook with an open circuit is only enabled by
resetting the circuit, and a failure that is retried leaves the count of an
enabled webhook below the maximum. -/
theorem webhookEngine_circuitConsistent_iff (site : WebhookSite)
    (as : List WebhookAction) :
    (webhookEngine site).Always (fun s => CircuitConsistent site s.webhooks) .initial as
      ↔ (webhookEngine site).EachStep (KeepsCircuit site) .initial as :=
  (webhookEngine site).always_iff_eachStep (J := fun _ => True) trivial
    (fun _ _ _ => trivial) (fun _ _ h => nomatch h)
    (fun s a _ h => circuitConsistent_next_iff s a h) as

/-- Five events whose first deliveries fail. -/
def sampleFailures : List WebhookAction :=
  .create ⟨"hook", "http://hook", none, none⟩ "secret" ::
    (List.range 5).flatMap fun k =>
      [.fire "activity" (.obj []) k,
        .respond (k + 1) (.error "refused") k 0 (.insertion _)]

/-- The circuit of an enabled webhook is open. -/
theorem circuitConsistent_sampleFailures :
    ¬ (webhookEngine sampleWebhookSite).Always
      (fun s => CircuitConsistent sampleWebhookSite s.webhooks) .initial sampleFailures := by
  intro h
  have hopen : (((webhookEngine sampleWebhookSite).state .initial
      sampleFailures).webhooks.row 1).any
        (fun w => circuitOpen sampleWebhookSite w && w.enabled) = true := by decide +kernel
  cases hrow : ((webhookEngine sampleWebhookSite).state .initial
      sampleFailures).webhooks.row 1 with
  | none => exact nomatch hrow ▸ hopen
  | some w =>
    rw [hrow] at hopen
    obtain ⟨hw, henabled⟩ := Bool.and_eq_true_iff.mp hopen
    have := h sampleFailures (List.prefix_refl _) 1 w hrow hw
    exact nomatch this.symm.trans henabled

/-! ## Failures -/

/-- An automatic delivery of a webhook has succeeded, or its circuit was
reset. -/
def WebhookEvent.clears (id : ℕ) : WebhookEvent → Bool
  | recorded _ _ x success => x.webhookId = id && x.opts.allowRetry && success
  | circuitReset webhookId => webhookId = id
  | _ => false

/-- An automatic delivery of a webhook has failed. -/
def WebhookEvent.failsFor (id : ℕ) : WebhookEvent → Bool
  | recorded _ _ x success => x.webhookId = id && x.opts.allowRetry && !success
  | _ => false

/-- Whether an event is about the count of a webhook. -/
def WebhookEvent.counts : WebhookEvent → Bool
  | recorded .. => true
  | circuitReset .. => true
  | disabled .. => true
  | _ => false

/-- The failures of a webhook after an event. -/
def failuresAfter (id : ℕ) (n : ℕ) (e : WebhookEvent) : ℕ :=
  if e.clears id then 0 else if e.failsFor id then n + 1 else n

/-- **The failures of a webhook since its last success or reset.** -/
def failuresSince (id : ℕ) (es : List WebhookEvent) : ℕ := es.foldl (failuresAfter id) 0

theorem failuresSince_append (id : ℕ) (es es' : List WebhookEvent) :
    failuresSince id (es ++ es') = es'.foldl (failuresAfter id) (failuresSince id es) :=
  List.foldl_append

/-- **They are at the end of what has happened**, with no success or reset
between or behind them. -/
theorem exists_failures (id : ℕ) (es : List WebhookEvent) :
    ∃ before after, es = before ++ after ∧ (∀ e ∈ after, e.clears id = false)
      ∧ failuresSince id es = after.countP (·.failsFor id) := by
  induction es using List.reverseRecOn with
  | nil => exact ⟨[], [], rfl, fun _ h => absurd h List.not_mem_nil, rfl⟩
  | append_singleton es e ih =>
    obtain ⟨before, after, rfl, hclears, hcount⟩ := ih
    rw [failuresSince_append, List.foldl_cons, List.foldl_nil, hcount]
    unfold failuresAfter
    by_cases he : e.clears id = true
    · exact ⟨before ++ after ++ [e], [], (List.append_nil _).symm,
        fun _ h => absurd h List.not_mem_nil, if_pos he⟩
    · refine ⟨before, after ++ [e], List.append_assoc .., fun e' he' => ?_, ?_⟩
      · rcases List.mem_append.mp he' with he' | he'
        · exact hclears e' he'
        · exact List.mem_singleton.mp he' ▸ Bool.eq_false_iff.mpr he
      · rw [if_neg he, List.countP_append, List.countP_singleton]
        split <;> rfl

/-- **Each time the circuit breaker disables a webhook**, enough automatic
deliveries of it have failed since its last success and its last reset. -/
def Justified (site : WebhookSite) (es : List WebhookEvent) : Prop :=
  ∀ p id, p ++ [.disabled id] <+: es →
    ∃ before after, p = before ++ after ∧ (∀ e ∈ after, e.clears id = false)
      ∧ site.maxRetries ≤ after.countP (·.failsFor id)

theorem Justified.concat {es : List WebhookEvent} (h : Justified site es)
    {e : WebhookEvent}
    (he : ∀ id, e = .disabled id → site.maxRetries ≤ failuresSince id es) :
    Justified site (es ++ [e]) := by
  intro p id hp
  rcases List.prefix_concat_iff.mp hp with heq | hp
  · obtain ⟨rfl, hlast⟩ := List.append_inj' heq rfl
    obtain ⟨before, after, hsplit, hclears, hcount⟩ := exists_failures id p
    exact ⟨before, after, hsplit, hclears,
      hcount ▸ he id (List.singleton_inj.mp hlast).symm⟩
  · exact h p id hp

/-- **The count of a webhook is what has happened.** -/
structure Counted (site : WebhookSite) (es : List WebhookEvent) (s : EngineState) :
    Prop where
  count : ∀ {id w}, s.webhooks.row id = some w → w.consecutiveFailures = failuresSince id es
  fresh : ∀ {id}, s.webhooks.next ≤ id → failuresSince id es = 0
  justified : Justified site es

namespace Counted

variable {es es' : List WebhookEvent} {s s' : EngineState}

theorem initial : Counted site [] .initial where
  count h := nomatch h
  fresh _ := rfl
  justified p id h := by simp at h

theorem of_webhooks (h : Counted site es s) (hnext : s'.webhooks.next = s.webhooks.next)
    (hrow : ∀ {id w'}, s'.webhooks.row id = some w' →
      ∃ w, s.webhooks.row id = some w ∧ w'.consecutiveFailures = w.consecutiveFailures) :
    Counted site es s' where
  count hw' := by
    obtain ⟨w, hw, heq⟩ := hrow hw'
    exact heq.trans (h.count hw)
  fresh hid := h.fresh (hnext ▸ hid)
  justified := h.justified

theorem concat (h : Counted site es s) (hwebhooks : s'.webhooks = s.webhooks)
    {e : WebhookEvent} (he : e.counts = false) : Counted site (es ++ [e]) s' := by
  have hsame : ∀ id, failuresSince id (es ++ [e]) = failuresSince id es := by
    intro id
    rw [failuresSince_append]
    cases e <;> first | rfl | exact nomatch he
  exact
    { count := fun hw => (h.count (hwebhooks ▸ hw)).trans (hsame _).symm
      fresh := fun hid => (hsame _).trans (h.fresh (hwebhooks ▸ hid))
      justified := h.justified.concat fun id hid => nomatch hid ▸ he }

/-- **Every piece keeps the count.** -/
theorem piece (h : Counted site es s) (hp : Piece site s s' es') :
    Counted site (es ++ es') s' := by
  cases hp with
  | answered response => exact h.concat (by rfl) (by rfl)
  | created fields randomSecret =>
    rw [List.append_nil]
    refine ⟨fun {id w} hw => ?_, fun hid => h.fresh (Nat.le_of_succ_le hid), h.justified⟩
    rcases (s.webhooks.row_insert_eq_some _).mp hw with ⟨rfl, rfl⟩ | hw
    · exact (h.fresh le_rfl).symm
    · exact h.count hw
  | updated u =>
    cases hreset : u.resetCircuit with
    | false =>
      rw [if_neg (by simp), List.append_nil]
      refine h.of_webhooks rfl fun {id w'} hw' => ?_
      rw [Table.row_update] at hw'
      split at hw'
      · next hid =>
        obtain ⟨w, hw, rfl⟩ := Option.map_eq_some_iff.mp hw'
        exact ⟨w, hid ▸ hw, by simp [WebhookUpdate.apply, hreset]⟩
      · exact ⟨w', hw', rfl⟩
    | true =>
      rw [if_pos rfl]
      -- a reset clears the column and the count of this webhook, and of no other
      have hreset' : ∀ id, failuresSince id (es ++ [.circuitReset u.id])
          = if u.id = id then 0 else failuresSince id es := by
        intro id
        rw [failuresSince_append]
        simp [failuresAfter, WebhookEvent.clears, WebhookEvent.failsFor]
      refine ⟨fun {id w'} hw' => ?_, fun {id} hid => ?_, h.justified.concat nofun⟩
      · rw [hreset']
        rw [Table.row_update] at hw'
        split at hw'
        · next hid =>
          obtain ⟨w, -, rfl⟩ := Option.map_eq_some_iff.mp hw'
          rw [if_pos hid.symm]
          simp [WebhookUpdate.apply, hreset]
        · next hid =>
          rw [if_neg (Ne.symm hid)]
          exact h.count hw'
      · rw [hreset']
        split
        · rfl
        · exact h.fresh hid
  | deleted id =>
    rw [List.append_nil]
    exact h.of_webhooks rfl fun hw =>
      ⟨_, ((Table.row_deleteWhere_eq_some _ _).mp hw).1, rfl⟩
  | sent now hd => exact h.concat (by rfl) (by rfl)
  | unrecorded hrow hgone => exact h.concat (by rfl) (by rfl)
  | picked now order => exact h.concat (by rfl) (by rfl)
  | passSent now hpass hbatch => exact h.concat (by rfl) (by rfl)
  | passEnded hpass hbatch => exact h.concat (by rfl) (by rfl)
  | @recorded i x w outcome now random order hrow hw =>
    -- an attempt that may be retried counts for its webhook, any other for none
    have hafter : ∀ id, failuresSince id
        (es ++ [.recorded i s.deliveries.next x outcome.success])
          = if x.webhookId = id ∧ x.opts.allowRetry = true then
              if outcome.success then 0 else failuresSince id es + 1
            else failuresSince id es := by
      intro id
      rw [failuresSince_append, List.foldl_cons, List.foldl_nil]
      unfold failuresAfter WebhookEvent.clears WebhookEvent.failsFor
      by_cases hid : x.webhookId = id
      · cases hallow : x.opts.allowRetry <;> cases outcome.success <;> simp [hid, hallow]
      · simp [hid]
    have hrecorded : Counted site (es ++ [.recorded i s.deliveries.next x outcome.success])
        { s with
          webhooks := s.webhooks.update x.webhookId (x.count site outcome)
          deliveries := pruneDeliveries order x.webhookId
            (s.recordedDeliveries site x outcome now random)
          sendings := s.sendings.deleteWhere (fun j _ => j = i) } := by
      refine ⟨fun {id w'} hw' => ?_, fun {id} hid => ?_, h.justified.concat nofun⟩
      · rw [hafter]
        rw [Table.row_update] at hw'
        split at hw'
        · next hid =>
          obtain ⟨w₀, hw₀, rfl⟩ := Option.map_eq_some_iff.mp hw'
          have hcount := h.count hw₀
          subst hid
          unfold Sending.count
          rw [← hcount]
          cases x.opts.allowRetry <;> simp
        · next hid =>
          rw [if_neg fun hc => hid hc.1.symm]
          exact h.count hw'
      · have hlt := s.webhooks.row_lt hw
        have hne : ¬ (x.webhookId = id ∧ x.opts.allowRetry = true) :=
          fun hc => Nat.not_le.mpr hlt (hc.1 ▸ hid)
        rw [hafter, if_neg hne]
        exact h.fresh hid
    rw [List.append_cons]
    split
    · next htrips =>
      -- the webhook is disabled: the count has reached the maximum by this failure
      refine ⟨fun hw' => ?_, fun hid => ?_, hrecorded.justified.concat fun id hid => ?_⟩
      · rw [failuresSince_append]
        exact hrecorded.count hw'
      · rw [failuresSince_append]
        exact hrecorded.fresh hid
      · obtain rfl := WebhookEvent.disabled.inj hid
        unfold Sending.trips at htrips
        obtain ⟨hlast, hmax⟩ := Bool.and_eq_true_iff.mp htrips
        obtain ⟨hfails, -⟩ := Bool.and_eq_true_iff.mp hlast
        obtain ⟨hallow, hfailed⟩ := Bool.and_eq_true_iff.mp hfails
        rw [hafter, if_pos ⟨rfl, hallow⟩, if_neg (by simpa using hfailed), ← h.count hw]
        exact of_decide_eq_true hmax
    · rw [List.append_nil]
      exact hrecorded

end Counted

/-- **The circuit breaker trips after enough failures only.** Whenever it
disables a webhook in a run, what has happened before ends with at least the
maximum of automatic deliveries of the webhook that failed, among which none
has succeeded and the circuit was not reset. -/
theorem webhookEngine_disabled (site : WebhookSite) (as : List WebhookAction)
    (p : List WebhookEvent) (id : ℕ) :
    p ++ [.disabled id] <+: (webhookEngine site).trace .initial as →
    ∃ before after, p = before ++ after ∧ (∀ e ∈ after, e.clears id = false)
      ∧ site.maxRetries ≤ after.countP (·.failsFor id) := by
  have h : Counted site _ _ :=
    webhookEngine_invariant .initial (fun _ _ _ _ h hp => h.piece hp) as
  exact h.justified p id

/-- A site where one failure is enough. -/
def sampleOnce : WebhookSite :=
  { sampleWebhookSite with web.env := fun key =>
      if key = "MC_WEBHOOK_MAX_RETRIES" then some "1" else none }

/-- A webhook that is disabled by its first failure. -/
def sampleTrip : List WebhookAction :=
  [.create ⟨"hook", "http://hook", none, none⟩ "secret", .fire "activity" (.obj []) 0,
    .respond 1 (.error "refused") 0 0 (.insertion _)]

/-- The first failure disables the webhook, and is there. -/
theorem webhookEngine_disabled_sample :
    ∃ p, p ++ [.disabled 1] <+: (webhookEngine sampleOnce).trace .initial sampleTrip
      ∧ ∃ before after, p = before ++ after ∧ (∀ e ∈ after, e.clears 1 = false)
        ∧ sampleOnce.maxRetries ≤ after.countP (·.failsFor 1) := by
  have htrip : ((webhookEngine sampleOnce).trace .initial sampleTrip).take 3
      ++ [.disabled 1] <+: (webhookEngine sampleOnce).trace .initial sampleTrip :=
    ⟨[], rfl⟩
  exact ⟨_, htrip, webhookEngine_disabled sampleOnce sampleTrip _ 1 htrip⟩

end MissionControl
