import MissionControl.RetryChains

/-!
# The webhooks that retry passes hold

A retry pass reads its batch once, with the webhooks of the rows, and then
sends the rows one after the other. What it sends is of the webhook as it was
read. So a row is sent to a webhook that has been deleted or disabled, or to
another URL or with another secret, if that has changed while the row waited
for the ones before it; and nothing else goes wrong.
-/

namespace MissionControl

variable {site : WebhookSite}

/-- **What a step sends as a retry is sent to the webhook as it is**: one that
exists and is enabled, at its URL and with its secret. -/
def SendsCurrent (site : WebhookSite) (s : EngineState) (a : WebhookAction) : Prop :=
  ∀ i d now url headers body,
    .sent i d now url headers body ∈ (webhookEngine site).emits s a →
    d.caller = .retryPass →
    ∃ w, s.webhooks.row d.webhookId = some w ∧ w.enabled = true ∧ url = w.url
      ∧ headers = deliveryHeaders site w.secret d.eventType body

/-- A pass has still to send a row of a webhook. -/
def EngineState.Holds (s : EngineState) (webhookId : ℕ) : Prop :=
  ∃ row, s.Unsent row ∧ row.webhookId = webhookId

/-- **A step leaves the webhooks alone that passes hold**: it does not delete or
disable them, by an update or by the circuit breaker, and does not give them
another URL or secret. -/
def LeavesHeld (site : WebhookSite) (s : EngineState) : WebhookAction → Prop
  | .update body randomSecret =>
    ∀ u w, readWebhookUpdate site s.webhooks body randomSecret = .ok u →
      s.webhooks.row u.id = some w → s.Holds u.id →
      (u.resetCircuit = true ∨ u.enabled ≠ some false)
      ∧ (∀ url, u.url = some url → url = w.url)
      ∧ (∀ secret, u.secret = some secret → w.secret = some secret)
  | .delete body => ∀ id, deletedId site body = some id → ¬ s.Holds id
  | .respond i outcome _ _ _ =>
    ∀ x w, s.sendings.row i = some x → s.webhooks.row x.webhookId = some w →
      s.Holds x.webhookId → x.trips site outcome w = false
  | _ => True

/-- A row of a batch has the webhook as it is. -/
def RetryRow.Fresh (webhooks : Table WebhookRow) (row : RetryRow) : Prop :=
  ∃ w, webhooks.row row.webhookId = some w ∧ w.enabled = true
    ∧ w.url = row.webhook.url ∧ w.secret = row.webhook.secret

/-- **The passes hold the webhooks as they are.** -/
def EngineState.Fresh (s : EngineState) : Prop :=
  ∀ row, s.Unsent row → row.Fresh s.webhooks

theorem fresh_of_pending {s : EngineState} {now : ℕ}
    {order : Descending (fun _ : RetryRow => 0)} {row : RetryRow}
    (h : row ∈ s.pendingRetries now order) : row.Fresh s.webhooks := by
  obtain ⟨r, w, -, hw, henabled, -, heq⟩ := EngineState.mem_pendingRetries h
  rw [heq]
  exact ⟨w, hw, henabled, rfl, rfl⟩

theorem EngineState.Fresh.sendsTo {s s' : EngineState} {es : List WebhookEvent}
    (h : s.Fresh) (hs : s.SendsTo site s' es) : s'.Fresh :=
  fun row hunsent => hs.webhooks ▸ h row (hs.unsent row hunsent)

/-- **Passes hold the webhooks as they are exactly if the updated one stays as
it was where it is held.** -/
theorem fresh_update_iff {s s' : EngineState} (h : s.Fresh) {id : ℕ}
    {f : WebhookRow → WebhookRow} (hwebhooks : s'.webhooks = s.webhooks.update id f)
    (hpasses : s'.passes = s.passes) :
    s'.Fresh ↔ ∀ w, s.webhooks.row id = some w → s.Holds id →
      (f w).enabled = true ∧ (f w).url = w.url ∧ (f w).secret = w.secret := by
  have hunsent : ∀ row, s'.Unsent row ↔ s.Unsent row := by
    intro row
    unfold EngineState.Unsent
    rw [hpasses]
  have hrow : ∀ id', s'.webhooks.row id'
      = if id' = id then (s.webhooks.row id).map f else s.webhooks.row id' := by
    intro id'
    rw [hwebhooks, Table.row_update]
  constructor
  · rintro h' w hw ⟨row, hunsent', rfl⟩
    obtain ⟨w₀, hw₀, -, hurl, hsecret⟩ := h row hunsent'
    obtain rfl := Option.some.inj (hw.symm.trans hw₀)
    obtain ⟨w', hw', henabled, hurl', hsecret'⟩ := h' row ((hunsent row).mpr hunsent')
    rw [hrow, if_pos rfl, hw] at hw'
    obtain rfl := Option.some.inj hw'
    exact ⟨henabled, hurl'.trans hurl.symm, hsecret'.trans hsecret.symm⟩
  · intro hf row hunsent'
    have hunsent' := (hunsent row).mp hunsent'
    obtain ⟨w, hw, henabled, hurl, hsecret⟩ := h row hunsent'
    unfold RetryRow.Fresh
    rw [hrow]
    by_cases hid : row.webhookId = id
    · subst hid
      obtain ⟨henabled', hurl', hsecret'⟩ := hf w hw ⟨row, hunsent', rfl⟩
      rw [if_pos rfl, hw]
      exact ⟨f w, rfl, henabled', hurl'.trans hurl, hsecret'.trans hsecret⟩
    · rw [if_neg hid]
      exact ⟨w, hw, henabled, hurl, hsecret⟩

theorem WebhookUpdate.leaves_iff (u : WebhookUpdate) {w : WebhookRow}
    (henabled : w.enabled = true) :
    ((u.apply w).enabled = true ∧ (u.apply w).url = w.url ∧ (u.apply w).secret = w.secret)
      ↔ (u.resetCircuit = true ∨ u.enabled ≠ some false)
        ∧ (∀ url, u.url = some url → url = w.url)
        ∧ (∀ secret, u.secret = some secret → w.secret = some secret) := by
  unfold WebhookUpdate.apply
  refine and_congr ?_ (and_congr ?_ ?_)
  · dsimp only
    cases u.resetCircuit with
    | true => simp
    | false =>
      rw [if_neg (by simp), henabled]
      cases u.enabled with
      | none => simp
      | some b => cases b <;> simp
  · cases u.url <;> simp
  · cases u.secret <;> simp [eq_comm]

/-- **A step keeps what passes hold up to date exactly if it leaves it alone.** -/
theorem fresh_next_iff (s : EngineState) (a : WebhookAction) (h : s.Fresh) :
    ((webhookEngine site).next s a).Fresh ↔ LeavesHeld site s a := by
  have hheld : ∀ {id w}, s.webhooks.row id = some w → s.Holds id → w.enabled = true := by
    rintro id w hw ⟨row, hunsent, rfl⟩
    obtain ⟨w', hw', henabled, -⟩ := h row hunsent
    exact Option.some.inj (hw.symm.trans hw') ▸ henabled
  cases a with
  | create fields randomSecret =>
    refine iff_of_true (fun row hunsent => ?_) trivial
    obtain ⟨w, hw, hrest⟩ := h row hunsent
    exact ⟨w, s.webhooks.row_insert_of_some _ hw, hrest⟩
  -- an update, a deletion and an outcome may change a webhook that a pass holds
  | update body randomSecret =>
    unfold LeavesHeld Machine.next webhookEngine
    dsimp only
    rcases updateWebhook_cases site s body randomSecret with
      ⟨response, hread, heq⟩ | ⟨u, response, hread, heq⟩
    · rw [heq]
      exact ⟨fun _ u w hu => absurd (hread.symm.trans hu) nofun, fun _ => h⟩
    · rw [heq]
      refine (fresh_update_iff h (by rfl) (by rfl)).trans
        (Iff.intro (fun hu u' w hu' hw hholds => ?_) ?_)
      · obtain rfl := Except.ok.inj (hread.symm.trans hu')
        exact (u.leaves_iff (hheld hw hholds)).mp (hu w hw hholds)
      · exact fun hu w hw hholds =>
          (u.leaves_iff (hheld hw hholds)).mpr (hu u w hread hw hholds)
  | delete body =>
    unfold LeavesHeld Machine.next webhookEngine
    dsimp only
    rcases deleteWebhook_cases site s body with
      ⟨response, heq, hid⟩ | ⟨id, response, heq, hid⟩
    · rw [heq]
      exact ⟨fun _ id hid' => absurd (hid.symm.trans hid') nofun, fun _ => h⟩
    · rw [heq]
      constructor
      · rintro h' id' hid' ⟨row, hunsent, rfl⟩
        obtain rfl := Option.some.inj (hid.symm.trans hid')
        obtain ⟨w, hw, -⟩ := h' row hunsent
        exact of_decide_eq_false ((Table.row_deleteWhere_eq_some _ _).mp hw).2 rfl
      · intro hnot row hunsent
        obtain ⟨w, hw, hrest⟩ := h row hunsent
        refine ⟨w, (Table.row_deleteWhere_eq_some _ _).mpr ⟨hw, ?_⟩, hrest⟩
        exact decide_eq_false fun heq => hnot id hid ⟨row, hunsent, heq⟩
  | respond i outcome now random order =>
    unfold LeavesHeld Machine.next webhookEngine
    dsimp only
    cases hx : s.sendings.row i with
    | none =>
      rw [respond_of_none hx]
      exact ⟨fun _ x w hx' => (nomatch hx'), fun _ => h⟩
    | some x =>
      cases hw : s.webhooks.row x.webhookId with
      | none =>
        rw [respond_of_gone hx hw]
        refine ⟨fun _ x' w hx' hw' => ?_, fun _ => h⟩
        obtain rfl := Option.some.inj hx'
        exact nomatch hw.symm.trans hw'
      | some w =>
        rw [respond_of_some hx hw]
        refine (fresh_update_iff h (by rfl) (by rfl)).trans
          (Iff.intro (fun hcount x' w' hx' hw' hholds => ?_) fun hcond w' hw' hholds => ?_)
        · obtain rfl := Option.some.inj hx'
          have henabled := (hcount w' hw' hholds).1
          unfold Sending.count at henabled
          rw [Bool.and_eq_true_iff] at henabled
          exact (Bool.not_eq_true' _).mp henabled.2
        · refine ⟨?_, rfl, rfl⟩
          unfold Sending.count
          dsimp only
          rw [hheld hw' hholds, hcond x w' rfl hw' hholds]
          rfl
  | startPass now order =>
    have hpass : StartsPass site s _ _ _ := startPass_spec s now order
    refine iff_of_true (fun row hunsent => ?_) trivial
    show row.Fresh (s.startPass site now order).1.webhooks
    rw [hpass.webhooks]
    -- what the pass has just read is as it is stored
    rcases hpass.unsent row hunsent with hrow | hunsent
    · exact fresh_of_pending hrow
    · exact h row hunsent
  | _ => exact iff_of_true (h.sendsTo (sendsTo_of_onlySends s (by rfl))) trivial

theorem RetryRow.Fresh.sent {webhooks : Table WebhookRow} {row : RetryRow}
    (h : row.Fresh webhooks) {i : ℕ} {d : Dispatch} {now : ℕ} {url : String}
    {headers : List (String × String)} {body : String}
    (heq : .sent i d now url headers body
      = (EngineState.retryDispatch site row).event site i now) :
    ∃ w, webhooks.row d.webhookId = some w ∧ w.enabled = true ∧ url = w.url
      ∧ headers = deliveryHeaders site w.secret d.eventType body := by
  obtain ⟨w, hw, henabled, hurl, hsecret⟩ := h
  obtain ⟨-, rfl, -, rfl, rfl, rfl⟩ := WebhookEvent.sent.inj heq
  exact ⟨w, hw, henabled, hurl.symm, hsecret ▸ rfl⟩

theorem sendsCurrent_of_sendsTo {s : EngineState} {a : WebhookAction} (h : s.Fresh)
    (hs : s.SendsTo site ((webhookEngine site).next s a) ((webhookEngine site).emits s a)) :
    SendsCurrent site s a := by
  intro i d now url headers body hsent hcaller
  obtain ⟨row, hunsent, heq⟩ := hs.sent hsent hcaller
  exact (h row hunsent).sent heq

/-- **What is held up to date is sent up to date.** -/
theorem sendsCurrent_of_fresh (s : EngineState) (a : WebhookAction) (h : s.Fresh) :
    SendsCurrent site s a := by
  cases a with
  | create fields randomSecret =>
    exact fun _ _ _ _ _ _ hsent _ => nomatch List.mem_singleton.mp hsent
  | update body' randomSecret =>
    intro i d now url headers body hsent hcaller
    change _ ∈ (updateWebhook site s body' randomSecret).2 at hsent
    rcases updateWebhook_cases site s body' randomSecret with
      ⟨response, -, heq⟩ | ⟨u, response, -, heq⟩
    · rw [heq] at hsent
      exact nomatch List.mem_singleton.mp hsent
    · rw [heq] at hsent
      split at hsent <;> simp at hsent
  | delete body' =>
    intro i d now url headers body hsent hcaller
    change _ ∈ (deleteWebhook site s body').2 at hsent
    rcases deleteWebhook_cases site s body' with
      ⟨response, heq, -⟩ | ⟨id, response, heq, -⟩
    all_goals
      rw [heq] at hsent
      exact nomatch List.mem_singleton.mp hsent
  | respond i' outcome now' random order =>
    intro i d now url headers body hsent hcaller
    change _ ∈ (s.respond site i' outcome now' random order).2 at hsent
    cases hx : s.sendings.row i' with
    | none =>
      rw [respond_of_none hx] at hsent
      exact absurd hsent List.not_mem_nil
    | some x =>
      cases hw : s.webhooks.row x.webhookId with
      | none =>
        rw [respond_of_gone hx hw] at hsent
        exact nomatch List.mem_singleton.mp hsent
      | some w =>
        rw [respond_of_some hx hw] at hsent
        split at hsent <;> simp at hsent
  | startPass now' order =>
    intro i d now url headers body hsent hcaller
    have hpass : StartsPass site s _ _ _ := startPass_spec s now' order
    obtain ⟨row, hmem, heq⟩ := hpass.sent hsent hcaller
    rcases hmem with hmem | hmem
    · exact (fresh_of_pending hmem).sent heq
    · exact (h row hmem).sent heq
  | _ => exact sendsCurrent_of_sendsTo h (sendsTo_of_onlySends s (by rfl))

/-- **Passes hold the webhooks as they are all along a run exactly if each step
leaves what they hold alone.** -/
theorem always_fresh_iff (as : List WebhookAction) :
    (webhookEngine site).Always EngineState.Fresh .initial as
      ↔ (webhookEngine site).EachStep (LeavesHeld site) .initial as :=
  (webhookEngine site).always_iff_eachStep (J := fun _ => True) trivial
    (fun _ _ _ => trivial) (fun _ ⟨_, _, h, _⟩ => nomatch h)
    (fun s a _ h => fresh_next_iff s a h) as

/-- **Retries are sent to the webhooks as they are**, in every run whose steps
leave the webhooks alone that passes hold. -/
theorem webhookEngine_sendsCurrent (site : WebhookSite) (as : List WebhookAction)
    (h : (webhookEngine site).EachStep (LeavesHeld site) .initial as) :
    (webhookEngine site).EachStep (SendsCurrent site) .initial as := by
  intro p a hp
  have hfresh := (always_fresh_iff as).mpr h p ((List.prefix_append p [a]).trans hp)
  exact sendsCurrent_of_fresh _ a hfresh

/-- A pass has two deliveries of a webhook to send again. While it sends the first one another
webhook is given a new address, and then deleted. -/
def sampleUntouched : List WebhookAction :=
  [.create ⟨"hook", "http://hook", none, none⟩ "secret",
    .create ⟨"other", "http://other", some ["other"], none⟩ "hidden",
    .fire "activity" (.obj []) 0, .fire "activity" (.obj []) 0,
    .respond 1 (.error "refused") 0 0 (.insertion _),
    .respond 2 (.error "refused") 0 0 (.insertion _), .startPass 40 (.insertion _),
    .update (some (.obj [("id", .ofNat 2), ("url", .str "http://new")])) "random",
    .delete (some (.obj [("id", .ofNat 2)])),
    .respond 3 (.response 200 none) 41 0 (.insertion _), .resumePass 1 42]

theorem not_holds_of_all {s : EngineState} {webhookId : ℕ}
    (h : (s.passes.rows.all fun p => p.2.batch.all fun row => row.webhookId ≠ webhookId) = true) :
    ¬ s.Holds webhookId := by
  rintro ⟨row, ⟨q, p, hp, hrow⟩, hid⟩
  have hbatch := List.all_eq_true.mp h (q, p) (Table.mem_rows _ |>.mpr hp)
  exact of_decide_eq_true (List.all_eq_true.mp hbatch row hrow) hid

theorem not_holds_of_isEmpty {s : EngineState} (h : s.passes.rows.isEmpty = true)
    (webhookId : ℕ) : ¬ s.Holds webhookId :=
  not_holds_of_all (by rw [List.isEmpty_iff.mp h]; rfl)

theorem id_of_sampleUpdate {webhooks : Table WebhookRow} {u : WebhookUpdate}
    (h : readWebhookUpdate sampleWebhookSite webhooks
      (some (.obj [("id", .ofNat 2), ("url", .str "http://new")])) "random" = .ok u) :
    u.id = 2 := by
  unfold readWebhookUpdate at h
  rw [show namedId sampleWebhookSite.sq (some (.obj [("id", .ofNat 2), ("url", .str "http://new")]))
    "id" "Webhook ID is required" "Failed to update webhook" = .ok (some 2) from rfl] at h
  dsimp only [bind, Except.bind] at h
  split at h
  · cases h
  split at h
  · cases h
  split at h
  · cases h
  · exact (congrArg WebhookUpdate.id (Except.ok.inj h)).symm

/-- A pass whose webhook nobody touches sends both deliveries to the webhook as it is. -/
theorem webhookEngine_sendsCurrent_sample :
    (webhookEngine sampleWebhookSite).EachStep (SendsCurrent sampleWebhookSite) .initial
      sampleUntouched := by
  refine webhookEngine_sendsCurrent sampleWebhookSite sampleUntouched ?_
  refine .cons _ trivial (.cons _ trivial (.cons _ trivial (.cons _ trivial (.cons _ ?_
    (.cons _ ?_ (.cons _ trivial (.cons _ ?_ (.cons _ ?_ (.cons _ ?_ (.cons _ trivial
      (Machine.eachStep_nil _ _ _)))))))))))
  · -- no pass has started
    exact fun x w _ _ hholds => absurd hholds (not_holds_of_isEmpty (by decide +kernel) _)
  · exact fun x w _ _ hholds => absurd hholds (not_holds_of_isEmpty (by decide +kernel) _)
  · intro u w hu _ hholds
    rw [id_of_sampleUpdate hu] at hholds
    exact absurd hholds (not_holds_of_all (by decide +kernel))
  · intro id hid
    rw [← show 2 = id from Option.some.inj hid]
    exact not_holds_of_all (by decide +kernel)
  · -- the delivery succeeds, and does not trip the breaker
    intro x w _ _ _
    unfold Sending.trips Sending.fails
    simp [Outcome.success, Outcome.statusCode]

/-- Two deliveries that fail, and a pass that has sent the first of them again
when the webhook is deleted. -/
def sampleDeleted : List WebhookAction :=
  [.create ⟨"hook", "http://hook", none, none⟩ "secret", .fire "activity" (.obj []) 0,
    .fire "activity" (.obj []) 0, .respond 1 (.error "refused") 0 0 (.insertion _),
    .respond 2 (.error "refused") 0 0 (.insertion _), .startPass 40 (.insertion _),
    .delete (some (.obj [("id", .ofNat 1)])),
    .respond 3 (.response 200 none) 41 0 (.insertion _)]

/-- The second of them is sent to the deleted webhook. -/
theorem sendsCurrent_sampleDeleted :
    ¬ (webhookEngine sampleWebhookSite).EachStep (SendsCurrent sampleWebhookSite) .initial
      (sampleDeleted ++ [.resumePass 1 42]) := by
  intro h
  have hretry : (4, 2) ∈ retries ((webhookEngine sampleWebhookSite).emits
      ((webhookEngine sampleWebhookSite).state .initial sampleDeleted) (.resumePass 1 42)) := by
    decide +kernel
  obtain ⟨d, ⟨now, url, headers, body, hmem⟩, hcaller, -⟩ := mem_retries.mp hretry
  obtain ⟨w, hw, -⟩ := h sampleDeleted _ (List.prefix_refl _) 4 d now url headers body hmem
    hcaller
  have hnone : ((webhookEngine sampleWebhookSite).state .initial
      sampleDeleted).webhooks.rows.length = 0 := by decide +kernel
  rw [List.length_eq_zero_iff] at hnone
  exact absurd (Table.mem_rows _ |>.mpr hw) (hnone ▸ List.not_mem_nil)

end MissionControl
