import MissionControl.Library.Chain
import MissionControl.WebhookHistory

/-!
# The attempts at a delivery

A retry pass reads the deliveries that are due and clears their times at once;
only then does it wait. So no delivery is picked up twice, however many passes
overlap: what was picked up has no time any more, and is either in the batch of
one pass or has been sent again (`Picks`).

Since a delivery is retried at most once, the attempts that stem from an event
are a chain: each is linked to the one before it, which failed, and has the
next attempt number.

An attempt names the delivery that it repeats, so two attempts after one would be two retries
of one delivery, which `Picks` excludes (`linked_unique`). A chain is no longer than the
maximum as the attempt numbers grow along it and stay below.
-/

namespace MissionControl

open Relation

variable {site : WebhookSite}

/-! ## Picking up -/

/-- The deliveries that an event says were picked up. -/
def WebhookEvent.pickups : WebhookEvent → List ℕ
  | picked deliveryIds => deliveryIds
  | _ => []

/-- The delivery that an event says is retried by a pass, with the new one. -/
def WebhookEvent.retries : WebhookEvent → List (ℕ × ℕ)
  | sent i d .. =>
    if d.caller = .retryPass then d.opts.parentDeliveryId.toList.map (i, ·) else []
  | _ => []

/-- **The deliveries that passes have picked up.** -/
def pickups (es : List WebhookEvent) : List ℕ := es.flatMap WebhookEvent.pickups

/-- **The deliveries that passes have retried**, each with the new delivery
before it. -/
def retries (es : List WebhookEvent) : List (ℕ × ℕ) := es.flatMap WebhookEvent.retries

@[simp] theorem pickups_append (es es' : List WebhookEvent) :
    pickups (es ++ es') = pickups es ++ pickups es' := List.flatMap_append

@[simp] theorem retries_append (es es' : List WebhookEvent) :
    retries (es ++ es') = retries es ++ retries es' := List.flatMap_append

theorem Called.retries_eq_nil {s : EngineState} {d : Dispatch} (h : Called site s d)
    (i now : ℕ) : retries [d.event site i now] = [] := by
  cases h <;> rfl

theorem retries_retryDispatch (i now : ℕ) (row : RetryRow) :
    retries [(EngineState.retryDispatch site row).event site i now] = [(i, row.id)] := rfl

/-- A delivery is in a batch, and has still to be sent again. -/
def EngineState.InBatch (s : EngineState) (id : ℕ) : Prop :=
  ∃ q p row, s.passes.row q = some p ∧ row ∈ p.batch ∧ row.id = id

/-- **A delivery that was picked up waits in one batch or was retried once**,
and has no time any more. -/
structure Picks (es : List WebhookEvent) (s : EngineState) : Prop where
  nodup : (pickups es).Nodup
  lt : ∀ id ∈ pickups es, id < s.deliveries.next
  cleared : ∀ id ∈ pickups es, ∀ r, s.deliveries.row id = some r → r.nextRetryAt = none
  picked_iff : ∀ id, id ∈ pickups es ↔ id ∈ (retries es).map Prod.snd ∨ s.InBatch id
  retries_nodup : ((retries es).map Prod.snd).Nodup
  notMem_retries : ∀ id, s.InBatch id → id ∉ (retries es).map Prod.snd
  batch_nodup : ∀ {q p}, s.passes.row q = some p → (p.batch.map (·.id)).Nodup
  batch_disjoint : ∀ {q p q' p' row row'}, s.passes.row q = some p →
    s.passes.row q' = some p' → row ∈ p.batch → row' ∈ p'.batch →
    row.id = row'.id → q = q'

theorem Picks.initial : Picks [] .initial where
  nodup := List.nodup_nil
  lt id h := nomatch h
  cleared id h := nomatch h
  picked_iff id := by
    refine ⟨fun h => (List.not_mem_nil h).elim, ?_⟩
    rintro (h | ⟨q, p, row, h, -⟩)
    · exact h
    · exact nomatch h
  retries_nodup := List.nodup_nil
  notMem_retries id h := fun h => nomatch h
  batch_nodup h := nomatch h
  batch_disjoint h := nomatch h

namespace Picks

variable {es es' : List WebhookEvent} {s s' : EngineState}

/-- **What picks nothing up and retries nothing**: the batches stay, but for
empty ones, and the rows that were picked up keep no time. -/
theorem quiet (h : Picks es s) (hpickups : pickups es' = []) (hretries : retries es' = [])
    (hnext : s.deliveries.next ≤ s'.deliveries.next)
    (hrow : ∀ {id r}, s'.deliveries.row id = some r →
      s.deliveries.row id = some r ∨ s.deliveries.next ≤ id)
    (hpass : ∀ {q p}, s'.passes.row q = some p → s.passes.row q = some p)
    (hbatch : ∀ id, s.InBatch id → s'.InBatch id) : Picks (es ++ es') s' := by
  have hback : ∀ id, s'.InBatch id → s.InBatch id :=
    fun id ⟨q, p, row, hp, hrest⟩ => ⟨q, p, row, hpass hp, hrest⟩
  have hpickups' : pickups (es ++ es') = pickups es := by
    rw [pickups_append, hpickups, List.append_nil]
  have hretries' : retries (es ++ es') = retries es := by
    rw [retries_append, hretries, List.append_nil]
  refine
    { nodup := hpickups' ▸ h.nodup
      lt := fun id hid => (h.lt id (hpickups' ▸ hid)).trans_le hnext
      cleared := fun id hid r hr => ?_
      picked_iff := fun id => ?_
      retries_nodup := hretries' ▸ h.retries_nodup
      notMem_retries := fun id hid => hretries' ▸ h.notMem_retries id (hback id hid)
      batch_nodup := fun hp => h.batch_nodup (hpass hp)
      batch_disjoint := fun hp hp' => h.batch_disjoint (hpass hp) (hpass hp') }
  · have hid := hpickups' ▸ hid
    rcases hrow hr with hr | hle
    · exact h.cleared id hid r hr
    · exact absurd (h.lt id hid) (Nat.not_lt.mpr hle)
  · rw [hpickups', hretries', h.picked_iff]
    exact or_congr_right ⟨hbatch id, hback id⟩

/-- **A pass picks deliveries up.** None of them was picked up before, for
they have a time. -/
theorem pick (h : Picks es s) (now : ℕ) (order : Descending (fun _ : RetryRow => 0)) :
    Picks (es ++ [.picked ((s.pendingRetries now order).map (·.id))])
      { s with
        deliveries := EngineState.clearRetries s.deliveries (s.pendingRetries now order)
        passes := s.passes.insert ⟨none, s.pendingRetries now order⟩ } := by
  let batch := s.pendingRetries now order
  -- what was picked up before has no time any more, and is not due
  have hfresh : ∀ id ∈ batch.map (·.id), id ∉ pickups es := by
    intro id hid hpicked
    obtain ⟨row, hrow, rfl⟩ := List.mem_map.mp hid
    obtain ⟨r, w, hr, -, -, htime, -⟩ := EngineState.mem_pendingRetries hrow
    rw [h.cleared _ hpicked r hr] at htime
    exact nomatch htime
  have hbatch : ∀ id, EngineState.InBatch { s with
        deliveries := EngineState.clearRetries s.deliveries batch
        passes := s.passes.insert ⟨none, batch⟩ } id
      ↔ id ∈ batch.map (·.id) ∨ s.InBatch id := by
    intro id
    constructor
    · rintro ⟨q, p, row, hp, hrow, rfl⟩
      rcases (s.passes.row_insert_eq_some _).mp hp with ⟨-, rfl⟩ | hp
      · exact Or.inl (List.mem_map_of_mem hrow)
      · exact Or.inr ⟨q, p, row, hp, hrow, rfl⟩
    · rintro (hid | ⟨q, p, row, hp, hrow, rfl⟩)
      · obtain ⟨row, hrow, rfl⟩ := List.mem_map.mp hid
        exact ⟨_, _, row, s.passes.row_insert_next _, hrow, rfl⟩
      · exact ⟨q, p, row, s.passes.row_insert_of_some _ hp, hrow, rfl⟩
  have hpickups : pickups [.picked (batch.map (·.id))] = batch.map (·.id) :=
    List.flatMap_singleton ..
  refine
    { nodup := ?_
      lt := fun id hid => ?_
      cleared := fun id hid r hr => ?_
      picked_iff := fun id => ?_
      retries_nodup := ?_
      notMem_retries := fun id hid => ?_
      batch_nodup := fun hp => ?_
      batch_disjoint := fun {q p q' p' row row'} hp hp' hrow hrow' heq => ?_ }
  · rw [pickups_append, hpickups]
    exact h.nodup.append EngineState.nodup_pendingRetries
      fun id hid hid' => hfresh id hid' hid
  · rw [EngineState.next_clearRetries]
    rw [pickups_append, hpickups, List.mem_append] at hid
    rcases hid with hid | hid
    · exact h.lt id hid
    · obtain ⟨row, hrow, rfl⟩ := List.mem_map.mp hid
      obtain ⟨r, w, hr, -⟩ := EngineState.mem_pendingRetries hrow
      exact s.deliveries.row_lt hr
  · rw [EngineState.row_clearRetries] at hr
    obtain ⟨r', hr', rfl⟩ := Option.map_eq_some_iff.mp hr
    split
    · rfl
    · next hnot =>
      rw [pickups_append, hpickups, List.mem_append] at hid
      exact h.cleared id (hid.resolve_right hnot) r' hr'
  · rw [pickups_append, hpickups, List.mem_append, hbatch, retries_append, h.picked_iff]
    show _ ↔ id ∈ List.map Prod.snd (retries es ++ []) ∨ _
    rw [List.append_nil]
    tauto
  · rw [retries_append]
    show (List.map Prod.snd (retries es ++ [])).Nodup
    rw [List.append_nil]
    exact h.retries_nodup
  · rw [retries_append]
    show id ∉ List.map Prod.snd (retries es ++ [])
    rw [List.append_nil]
    rcases (hbatch id).mp hid with hid | hid
    · exact fun hmem => hfresh id hid ((h.picked_iff id).mpr (Or.inl hmem))
    · exact h.notMem_retries id hid
  · rcases (s.passes.row_insert_eq_some _).mp hp with ⟨-, rfl⟩ | hp
    · exact EngineState.nodup_pendingRetries
    · exact h.batch_nodup hp
  · have hin : ∀ {q p row}, s.passes.row q = some p → row ∈ p.batch →
        row.id ∈ pickups es :=
      fun hp hrow => (h.picked_iff _).mpr (Or.inr ⟨_, _, _, hp, hrow, rfl⟩)
    rcases (s.passes.row_insert_eq_some _).mp hp with ⟨rfl, rfl⟩ | hp
    · rcases (s.passes.row_insert_eq_some _).mp hp' with ⟨rfl, rfl⟩ | hp'
      · rfl
      · exact absurd (hin hp' hrow') (heq ▸ hfresh _ (List.mem_map_of_mem hrow))
    · rcases (s.passes.row_insert_eq_some _).mp hp' with ⟨rfl, rfl⟩ | hp'
      · exact absurd (hin hp hrow) (heq ▸ hfresh _ (List.mem_map_of_mem hrow'))
      · exact h.batch_disjoint hp hp' hrow hrow' heq

/-- **A pass sends its next row.** The row leaves the batch. -/
theorem retry (h : Picks es s) {q : ℕ} {p : RetryPass} {row : RetryRow}
    {rest : List RetryRow} (now : ℕ) (hpass : s.passes.row q = some p)
    (hbatch : p.batch = row :: rest) (sendings : Table Sending) :
    Picks (es ++ [(EngineState.retryDispatch site row).event site s.sendings.next now])
      { s with
        sendings
        passes := s.passes.update q (fun _ => ⟨some s.sendings.next, rest⟩) } := by
  have hfirst : s.InBatch row.id := ⟨q, p, row, hpass, hbatch ▸ List.mem_cons_self, rfl⟩
  have hnodup := h.batch_nodup hpass
  rw [hbatch, List.map_cons, List.nodup_cons] at hnodup
  -- a row of the next state is one of this state, and not the row that is sent
  have hold : ∀ {q' p'}, (s.passes.update q (fun _ => ⟨some s.sendings.next, rest⟩)).row q'
      = some p' → ∃ p'', s.passes.row q' = some p'' ∧ p'.batch.Sublist p''.batch
        ∧ ∀ row' ∈ p'.batch, row'.id ≠ row.id := by
    intro q' p' hp'
    rw [Table.row_update] at hp'
    split at hp'
    · next hq =>
      obtain ⟨p'', -, rfl⟩ := Option.map_eq_some_iff.mp hp'
      refine ⟨p, hq ▸ hpass, hbatch ▸ List.sublist_cons_self row rest, ?_⟩
      exact fun row' hrow' heq => hnodup.1 (heq ▸ List.mem_map_of_mem hrow')
    · next hq =>
      refine ⟨p', hp', List.Sublist.refl _, fun row' hrow' heq => hq ?_⟩
      exact h.batch_disjoint hp' hpass hrow' (hbatch ▸ List.mem_cons_self) heq
  have hin : ∀ id, EngineState.InBatch { s with
        sendings
        passes := s.passes.update q (fun _ => ⟨some s.sendings.next, rest⟩) } id
      ↔ s.InBatch id ∧ id ≠ row.id := by
    intro id
    constructor
    · rintro ⟨q', p', row', hp', hrow', rfl⟩
      obtain ⟨p'', hp'', hsub, hne⟩ := hold hp'
      exact ⟨⟨q', p'', row', hp'', hsub.subset hrow', rfl⟩, hne row' hrow'⟩
    · rintro ⟨⟨q', p', row', hp', hrow', rfl⟩, hne⟩
      by_cases hq : q' = q
      · subst hq
        obtain rfl := Option.some.inj (hpass.symm.trans hp')
        rw [hbatch, List.mem_cons] at hrow'
        refine ⟨q', ⟨some s.sendings.next, rest⟩, row', ?_,
          hrow'.resolve_left fun heq => hne (heq ▸ rfl), rfl⟩
        show (s.passes.update q' _).row q' = _
        rw [Table.row_update_self, hpass]
        rfl
      · exact ⟨q', p', row', (s.passes.row_update_of_ne _ hq).trans hp', hrow', rfl⟩
  have hpickups : ∀ i, pickups (es ++ [(EngineState.retryDispatch site row).event site i now])
      = pickups es := by
    intro i
    rw [pickups_append]
    exact List.append_nil _
  refine
    { nodup := hpickups _ ▸ h.nodup
      lt := fun id hid => h.lt id (hpickups _ ▸ hid)
      cleared := fun id hid => h.cleared id (hpickups _ ▸ hid)
      picked_iff := fun id => ?_
      retries_nodup := ?_
      notMem_retries := fun id hid => ?_
      batch_nodup := fun hp' => ?_
      batch_disjoint := fun hp' hp'' hrow' hrow'' heq => ?_ }
  · rw [hpickups, h.picked_iff, hin, retries_append, retries_retryDispatch, List.map_append,
      List.mem_append, List.map_singleton, List.mem_singleton]
    constructor
    · rintro (hid | hid)
      · exact Or.inl (Or.inl hid)
      · by_cases heq : id = row.id
        · exact Or.inl (Or.inr heq)
        · exact Or.inr ⟨hid, heq⟩
    · rintro ((hid | rfl) | ⟨hid, -⟩)
      · exact Or.inl hid
      · exact Or.inr hfirst
      · exact Or.inr hid
  · rw [retries_append, retries_retryDispatch, List.map_append, List.map_singleton]
    refine List.Nodup.append h.retries_nodup (List.nodup_singleton _) ?_
    exact List.disjoint_singleton.mpr (h.notMem_retries _ hfirst)
  · rw [retries_append, retries_retryDispatch, List.map_append, List.mem_append,
      List.map_singleton, List.mem_singleton]
    obtain ⟨hid, hne⟩ := (hin id).mp hid
    exact not_or.mpr ⟨h.notMem_retries id hid, hne⟩
  · obtain ⟨p'', hp'', hsub, -⟩ := hold hp'
    exact (h.batch_nodup hp'').sublist (hsub.map _)
  · obtain ⟨p₁, hp₁, hsub₁, -⟩ := hold hp'
    obtain ⟨p₂, hp₂, hsub₂, -⟩ := hold hp''
    exact h.batch_disjoint hp₁ hp₂ (hsub₁.subset hrow') (hsub₂.subset hrow'') heq

/-- **Every piece keeps it.** -/
theorem piece (h : Picks es s) (hp : Piece site s s' es') : Picks (es ++ es') s' := by
  cases hp with
  | answered response => exact h.quiet rfl rfl le_rfl Or.inl id fun _ => id
  | created fields randomSecret => exact h.quiet rfl rfl le_rfl Or.inl id fun _ => id
  | updated u =>
    refine h.quiet ?_ ?_ le_rfl Or.inl id fun _ => id
    all_goals split <;> rfl
  | deleted webhookId =>
    refine h.quiet rfl rfl le_rfl (fun hr => Or.inl ?_) id fun _ => id
    exact ((Table.row_deleteWhere_eq_some _ _).mp hr).1
  | sent now hd => exact h.quiet rfl (hd.retries_eq_nil _ now) le_rfl Or.inl id fun _ => id
  | unrecorded hrow hgone => exact h.quiet rfl rfl le_rfl Or.inl id fun _ => id
  | recorded outcome now random order hrow hw =>
    refine h.quiet ?_ ?_ (Nat.le_succ _) (fun hr => ?_) id fun _ => id
    · split <;> rfl
    · split <;> rfl
    · have hr := ((row_pruneDeliveries _ _ _).mp hr).1
      rcases (s.deliveries.row_insert_eq_some _).mp hr with ⟨rfl, -⟩ | hr
      · exact Or.inr le_rfl
      · exact Or.inl hr
  | picked now order => exact h.pick now order
  | passSent now hpass hbatch => exact h.retry now hpass hbatch _
  | @passEnded q p hpass hbatch =>
    refine h.quiet rfl rfl le_rfl Or.inl
      (fun hp => ((Table.row_deleteWhere_eq_some _ _).mp hp).1) ?_
    rintro id ⟨q', p', row, hp', hrow, rfl⟩
    refine ⟨q', p', row, (Table.row_deleteWhere_eq_some _ _).mpr ⟨hp', ?_⟩, hrow, rfl⟩
    refine decide_eq_false fun heq => ?_
    obtain rfl := Option.some.inj ((heq ▸ hp').symm.trans hpass)
    rw [hbatch] at hrow
    exact nomatch hrow

end Picks

/-- **In every run, what was picked up waits in one batch or was retried
once.** -/
theorem webhookEngine_picks (as : List WebhookAction) :
    Picks ((webhookEngine site).trace .initial as)
      ((webhookEngine site).state .initial as) :=
  webhookEngine_invariant .initial (fun _ _ _ _ h hp => h.piece hp) as

/-! ## Links -/

def Sent (es : List WebhookEvent) (i : ℕ) (d : Dispatch) : Prop :=
  ∃ now url headers body, WebhookEvent.sent i d now url headers body ∈ es

/-- **An automatic delivery is linked to another one**: its
`parent_delivery_id` is the row which that one was recorded as. -/
def RetriedBy (es : List WebhookEvent) (i j : ℕ) : Prop :=
  ∃ id x ok d, WebhookEvent.recorded i id x ok ∈ es ∧ Sent es j d
    ∧ d.opts.allowRetry = true ∧ d.opts.parentDeliveryId = some id

theorem mem_retries {es : List WebhookEvent} {i id : ℕ} :
    (i, id) ∈ retries es ↔ ∃ d, Sent es i d ∧ d.caller = .retryPass
      ∧ d.opts.parentDeliveryId = some id := by
  unfold retries
  rw [List.mem_flatMap]
  constructor
  · rintro ⟨e, he, hpair⟩
    cases e with
    | sent j d now url headers body =>
      unfold WebhookEvent.retries at hpair
      dsimp only at hpair
      split at hpair
      · next hcaller =>
        obtain ⟨id', hparent, heq⟩ := List.mem_map.mp hpair
        obtain ⟨rfl, rfl⟩ := Prod.mk.inj heq
        exact ⟨d, ⟨now, url, headers, body, he⟩, hcaller, Option.mem_toList.mp hparent⟩
      · exact absurd hpair List.not_mem_nil
    | _ => exact absurd hpair List.not_mem_nil
  · rintro ⟨d, ⟨now, url, headers, body, hmem⟩, hcaller, hparent⟩
    refine ⟨_, hmem, ?_⟩
    simp [WebhookEvent.retries, hcaller, hparent]

/-- The attempt number that a delivery was sent with. -/
def attemptNumber (es : List WebhookEvent) (i : ℕ) : ℕ :=
  (es.findSome? fun
    | .sent j d .. => if j = i then some d.opts.attempt else none
    | _ => none).getD 0

namespace History

variable {es : List WebhookEvent} {s : EngineState} {i j : ℕ} {d d' : Dispatch}

theorem exists_event (h : History site es s) (hd : Sent es i d) :
    ∃ now, d.event site i now ∈ es := by
  obtain ⟨now, url, headers, body, hmem⟩ := hd
  exact ⟨now, h.event_eq hmem ▸ hmem⟩

theorem sent_unique (h : History site es s) (hd : Sent es i d) (hd' : Sent es i d') :
    d = d' := by
  obtain ⟨now, hnow⟩ := h.exists_event hd
  obtain ⟨now', hnow'⟩ := h.exists_event hd'
  exact (h.sent_once hnow hnow').1

theorem sent_origin (h : History site es s) (hd : Sent es i d) : Origin site es d := by
  obtain ⟨now, hnow⟩ := h.exists_event hd
  exact h.origin hnow

theorem sent_of_recorded (h : History site es s) {id : ℕ} {x : Sending} {ok : Bool}
    (hr : .recorded i id x ok ∈ es) :
    ∃ d, Sent es i d ∧ d.webhookId = x.webhookId ∧ d.eventType = x.eventType
      ∧ d.opts = x.opts := by
  obtain ⟨-, d, now, hd, rfl⟩ := h.recorded hr
  exact ⟨d, ⟨now, _, _, _, hd⟩, rfl, rfl, rfl⟩

theorem attemptNumber_eq (h : History site es s) (hd : Sent es i d) :
    attemptNumber es i = d.opts.attempt := by
  unfold attemptNumber
  cases hfind : es.findSome? _ with
  | none =>
    obtain ⟨now, url, headers, body, hmem⟩ := hd
    have := List.findSome?_eq_none_iff.mp hfind _ hmem
    simp at this
  | some n =>
    obtain ⟨e, hmem, he⟩ := List.exists_of_findSome?_eq_some hfind
    cases e with
    | sent j d' now url headers body =>
      dsimp only at he
      split at he
      · next hji =>
        subst hji
        rw [h.sent_unique hd ⟨now, url, headers, body, hmem⟩]
        exact (Option.some.inj he).symm
      · exact nomatch he
    | _ => exact nomatch he

/-- **What a link says**: the earlier delivery was automatic and failed, with
attempts left, and the later one repeats it with the next attempt number. -/
theorem linked (h : History site es s) (hlink : RetriedBy es i j) :
    ∃ id x d d', WebhookEvent.recorded i id x false ∈ es ∧ x.Retried site false
      ∧ Sent es i d ∧ Sent es j d' ∧ d.opts = x.opts ∧ d'.webhookId = d.webhookId
      ∧ d'.eventType = d.eventType ∧ d'.caller = .retryPass
      ∧ d'.opts = ⟨d.opts.attempt + 1, some id, true⟩ := by
  obtain ⟨id, x, ok, d', hrec, hd', hallow, hparent⟩ := hlink
  cases h.sent_origin hd' with
  | live => exact nomatch hparent
  | test => exact nomatch hallow
  | manual hr => exact nomatch hallow
  | @retryPass i' id' x' ok' w hr hx' =>
    obtain rfl := Option.some.inj hparent
    obtain rfl := h.delivery_once hr hrec
    obtain ⟨d, hd, hid, htype, hopts⟩ := h.sent_of_recorded hr
    obtain rfl := hx'.2.1
    exact ⟨_, x', d, _, hr, hx', hd, hd', hopts, hid.symm, htype.symm, rfl,
      hopts ▸ rfl⟩

/-- **An automatic delivery has an attempt number below the maximum.** -/
theorem attempt_lt (h : History site es s) (hmax : 1 ≤ site.maxRetries)
    (hd : Sent es i d) (hallow : d.opts.allowRetry = true) :
    (d.opts.attempt : ℤ) < site.maxRetries := by
  cases h.sent_origin hd with
  | live => exact hmax
  | test => exact nomatch hallow
  | manual hr => exact nomatch hallow
  | retryPass hr hx =>
    have hmay := of_decide_eq_true hx.2.2
    show ((_ + 1 : ℕ) : ℤ) < _
    omega

/-- **Every automatic delivery stems from the first delivery of an event.** -/
theorem exists_live (h : History site es s) (n : ℕ) :
    ∀ {j d}, Sent es j d → d.opts.allowRetry = true → d.opts.attempt = n →
      ∃ i d₀, Sent es i d₀ ∧ d₀.caller = .live ∧ ReflTransGen (RetriedBy es) i j := by
  induction n with
  | zero =>
    intro j d hd hallow hn
    cases h.sent_origin hd with
    | live => exact ⟨j, _, hd, rfl, .refl⟩
    | test => exact nomatch hallow
    | manual hr => exact nomatch hallow
    | retryPass hr hx => exact nomatch hn
  | succ n ih =>
    intro j d hd hallow hn
    cases h.sent_origin hd with
    | live => exact nomatch hn
    | test => exact nomatch hallow
    | manual hr => exact nomatch hallow
    | @retryPass i id x ok w hr hx =>
      obtain ⟨d', hd', -, -, hopts⟩ := h.sent_of_recorded hr
      obtain ⟨i₀, d₀, hd₀, hlive, hstems⟩ := ih hd' (hopts ▸ hx.1)
        (hopts ▸ Nat.succ.inj hn)
      exact ⟨i₀, d₀, hd₀, hlive, hstems.tail ⟨id, x, ok, _, hr, hd, rfl, rfl⟩⟩

/-- What stems from an automatic delivery is of the same webhook and event type. -/
theorem stems (h : History site es s) (hd : Sent es i d)
    (hallow : d.opts.allowRetry = true) (hstems : ReflTransGen (RetriedBy es) i j) :
    ∃ d', Sent es j d' ∧ d'.opts.allowRetry = true ∧ d'.webhookId = d.webhookId
      ∧ d'.eventType = d.eventType := by
  induction hstems with
  | refl => exact ⟨d, hd, hallow, rfl, rfl⟩
  | tail _ hlink ih =>
    obtain ⟨d₁, hd₁, -, hid₁, htype₁⟩ := ih
    obtain ⟨id, x, d₁', d', -, -, hd₁', hd', -, hid, htype, -, hopts⟩ := h.linked hlink
    obtain rfl := h.sent_unique hd₁ hd₁'
    exact ⟨d', hd', hopts ▸ rfl, hid.trans hid₁, htype.trans htype₁⟩

end History

/-- **A delivery is followed by one automatic delivery at most.** -/
theorem linked_unique {es : List WebhookEvent} {s : EngineState}
    (h : History site es s) (hpicks : Picks es s) (i j j' : ℕ)
    (hj : RetriedBy es i j) (hj' : RetriedBy es i j') : j = j' := by
  have hretry : ∀ {j}, RetriedBy es i j →
      ∃ id x ok, WebhookEvent.recorded i id x ok ∈ es ∧ (j, id) ∈ retries es := by
    intro j hlink
    obtain ⟨id, x, d, d', hrec, -, -, hd', -, -, -, hcaller, hopts⟩ := h.linked hlink
    exact ⟨id, x, false, hrec, mem_retries.mpr ⟨d', hd', hcaller, hopts ▸ rfl⟩⟩
  obtain ⟨id, x, ok, hrec, hmem⟩ := hretry hj
  obtain ⟨id', x', ok', hrec', hmem'⟩ := hretry hj'
  obtain rfl := (h.recorded_once hrec hrec').1
  exact congrArg Prod.fst (List.inj_on_of_nodup_map hpicks.retries_nodup hmem hmem' rfl)

/-- **The attempts that stem from the first delivery of an event are a chain**:
no longer than the maximum, and with the attempt numbers from zero on. -/
theorem exists_chain {es : List WebhookEvent} {s : EngineState}
    (h : History site es s) (hpicks : Picks es s) (hmax : 1 ≤ site.maxRetries)
    {i : ℕ} {d : Dispatch} (hd : Sent es i d) (hlive : d.caller = .live) :
    ∃ chain : List ℕ, Chain.From (RetriedBy es) i chain
      ∧ (chain.length : ℤ) ≤ site.maxRetries
      ∧ ∀ k j, chain[k]? = some j → ∃ d', Sent es j d' ∧ d'.opts.attempt = k
        ∧ d'.opts.allowRetry = true ∧ d'.webhookId = d.webhookId
        ∧ d'.eventType = d.eventType := by
  have hfirst : d.opts = ⟨0, none, true⟩ := by
    cases h.sent_origin hd with
    | live => rfl
    | test => exact nomatch hlive
    | manual hr => exact nomatch hlive
    | retryPass hr hx => exact nomatch hlive
  have hallow : d.opts.allowRetry = true := hfirst ▸ rfl
  have hzero : attemptNumber es i = 0 := by rw [h.attemptNumber_eq hd, hfirst]
  have hrank : ∀ i j, RetriedBy es i j → attemptNumber es j = attemptNumber es i + 1 := by
    intro i j hlink
    obtain ⟨id, x, d, d', -, -, hd, hd', -, -, -, -, hopts⟩ := h.linked hlink
    rw [h.attemptNumber_eq hd, h.attemptNumber_eq hd', hopts]
  have hbound : ∀ j, ReflTransGen (RetriedBy es) i j →
      attemptNumber es j < site.maxRetries.toNat := by
    intro j hstems
    obtain ⟨d', hd', hallow', -⟩ := h.stems hd hallow hstems
    have := h.attempt_lt hmax hd' hallow'
    rw [h.attemptNumber_eq hd']
    omega
  obtain ⟨chain, hchain, hlength⟩ := Chain.exists_from (linked_unique h hpicks) hrank
    site.maxRetries.toNat (m := site.maxRetries.toNat) (r := i) (by omega) hbound
  refine ⟨chain, hchain, by omega, fun k j hkj => ?_⟩
  obtain ⟨d', hd', hallow', hid, htype⟩ := h.stems hd hallow
    ((hchain.mem_iff j).mp (List.mem_of_getElem? hkj))
  have := hchain.rank_getElem hrank k hkj
  exact ⟨d', hd', by rw [← h.attemptNumber_eq hd', this, hzero, Nat.zero_add], hallow',
    hid, htype⟩

/-! ## Events -/

theorem sent_sendAll (now : ℕ) (ds : List Dispatch) {s : EngineState} {i : ℕ}
    {d : Dispatch} (h : Sent (s.sendAll site now ds).2 i d) :
    ∃ k, ds[k]? = some d ∧ i = s.sendings.next + k := by
  induction ds generalizing s with
  | nil =>
    obtain ⟨_, _, _, _, h⟩ := h
    exact nomatch h
  | cons d₀ ds ih =>
    obtain ⟨now', url, headers, body, h⟩ := h
    rcases List.mem_cons.mp h with h | h
    · obtain ⟨rfl, rfl, -⟩ := WebhookEvent.sent.inj h
      exact ⟨0, rfl, rfl⟩
    · obtain ⟨k, hk, rfl⟩ := ih ⟨now', url, headers, body, h⟩
      exact ⟨k + 1, hk, (Nat.add_right_comm _ 1 k).trans (Nat.add_assoc ..)⟩

/-- **An event is sent to a webhook once.** -/
theorem fire_unique (s : EngineState) (eventType : String) (payload : Json) (now : ℕ)
    {i i' : ℕ} {d d' : Dispatch} (h : Sent (s.fire site eventType payload now).2 i d)
    (h' : Sent (s.fire site eventType payload now).2 i' d')
    (heq : d.webhookId = d'.webhookId) : i = i' := by
  obtain ⟨k, hk, rfl⟩ := sent_sendAll now _ h
  obtain ⟨k', hk', rfl⟩ := sent_sendAll now _ h'
  rw [List.getElem?_map, Option.map_eq_some_iff] at hk hk'
  obtain ⟨r, hr, rfl⟩ := hk
  obtain ⟨r', hr', rfl⟩ := hk'
  refine congrArg (s.sendings.next + ·) ?_
  have hnodup : ((s.webhooks.rows.filter fun r =>
      r.2.enabled && r.2.subscribed site.rt eventType).map Prod.fst).Nodup :=
    s.webhooks.nodup_rows.sublist (List.filter_sublist.map _)
  refine (List.getElem?_inj ?_ hnodup).mp ?_
  · rw [List.length_map]
    exact (List.getElem?_eq_some_iff.mp hr).1
  · rw [List.getElem?_map, List.getElem?_map, hr, hr']
    exact congrArg some heq

/-- **Retries are chains.** In every run no delivery is picked up twice. An
event is sent to a webhook once, and the automatic deliveries that stem from it
are a single chain of linked deliveries, no longer than the maximum, whose
attempt numbers count from zero; every automatic delivery is in such a chain.
Only a delivery that failed has a successor. What was recorded for a manual
retry or a test is never scheduled. -/
theorem webhookEngine_retryChains (site : WebhookSite) (hmax : 1 ≤ site.maxRetries)
    (as : List WebhookAction) :
    (pickups ((webhookEngine site).trace .initial as)).Nodup
    ∧ (∀ p eventType payload now, p ++ [.fire eventType payload now] <+: as →
        ∀ i i' d d',
          Sent ((webhookEngine site).emits ((webhookEngine site).state .initial p)
            (.fire eventType payload now)) i d →
          Sent ((webhookEngine site).emits ((webhookEngine site).state .initial p)
            (.fire eventType payload now)) i' d' →
          d.webhookId = d'.webhookId → i = i')
    ∧ (∀ i d, Sent ((webhookEngine site).trace .initial as) i d → d.caller = .live →
        ∃ chain : List ℕ,
          Chain.From (RetriedBy ((webhookEngine site).trace .initial as)) i chain
          ∧ (chain.length : ℤ) ≤ site.maxRetries
          ∧ ∀ k j, chain[k]? = some j →
              ∃ d', Sent ((webhookEngine site).trace .initial as) j d'
                ∧ d'.opts.attempt = k ∧ d'.opts.allowRetry = true
                ∧ d'.webhookId = d.webhookId ∧ d'.eventType = d.eventType)
    ∧ (∀ j d, Sent ((webhookEngine site).trace .initial as) j d →
        d.opts.allowRetry = true →
        ∃ i d₀, Sent ((webhookEngine site).trace .initial as) i d₀ ∧ d₀.caller = .live
          ∧ ReflTransGen (RetriedBy ((webhookEngine site).trace .initial as)) i j)
    ∧ (∀ i j, RetriedBy ((webhookEngine site).trace .initial as) i j →
        ∀ id x ok, .recorded i id x ok ∈ (webhookEngine site).trace .initial as →
          ok = false)
    ∧ (∀ id r, ((webhookEngine site).state .initial as).deliveries.row id = some r →
        ∀ i x ok d, .recorded i id x ok ∈ (webhookEngine site).trace .initial as →
          Sent ((webhookEngine site).trace .initial as) i d →
          d.caller = .manual ∨ d.caller = .test → r.nextRetryAt = none) := by
  have h : History site _ _ := webhookEngine_history as
  have hpicks : Picks _ ((webhookEngine site).state .initial as) := webhookEngine_picks as
  refine ⟨hpicks.nodup, fun p eventType payload now _ i i' d d' hd hd' heq => ?_,
    fun i d hd hlive => exists_chain h hpicks hmax hd hlive,
    fun j d hd hallow => h.exists_live _ hd hallow rfl, ?_, ?_⟩
  · exact fire_unique _ eventType payload now hd hd' heq
  · intro i j hlink id x ok hrec
    obtain ⟨id', x', d, d', hrec', -⟩ := h.linked hlink
    exact (h.recorded_once hrec hrec').2
  · intro id r hr i x ok d hrec hd hcaller
    rw [← Option.not_isSome_iff_eq_none]
    intro htime
    -- only what is retried has a time, and that is an automatic delivery
    obtain ⟨i', x', ok', hrec', -, -, -, -, hretried⟩ := h.logged hr
    obtain rfl := h.delivery_once hrec hrec'
    obtain ⟨d', hd', -, -, hopts⟩ := h.sent_of_recorded hrec'
    obtain rfl := h.sent_unique hd hd'
    have hallow : d.opts.allowRetry = true := hopts ▸ (hretried htime).1
    cases h.sent_origin hd with
    | live => rcases hcaller with hc | hc <;> exact nomatch hc
    | test => exact nomatch hallow
    | manual hr => exact nomatch hallow
    | retryPass hr hx => rcases hcaller with hc | hc <;> exact nomatch hc

/-- A delivery that failed is picked up and sent again. -/
theorem webhookEngine_retryChains_sample :
    1 ≤ sampleWebhookSite.maxRetries
    ∧ pickups ((webhookEngine sampleWebhookSite).trace .initial sampleRetry) = [1]
    ∧ (pickups ((webhookEngine sampleWebhookSite).trace .initial sampleRetry)).Nodup :=
  ⟨by decide, by decide +kernel,
    (webhookEngine_retryChains sampleWebhookSite (by decide) sampleRetry).1⟩

end MissionControl
