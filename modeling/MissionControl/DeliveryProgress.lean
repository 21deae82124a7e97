import MissionControl.Library.Ranking
import MissionControl.Notifications

/-!
# Whether the delivery gets on

A call of `POST /api/notifications/deliver` reads the oldest undelivered notifications, up
to a limit, and then passes over those whose agents have no session. It does not mark
them, so the next call reads them again: as many of them as the limit keep all newer
notifications from ever being delivered (`not_progresses_sampleStuck`).

The calls get on, however the database orders notifications of one time, exactly where
for each notification that could be delivered fewer than the limit could not and are not
newer (`delivery_progresses_iff`).

The one direction is a measure: while nothing is crowded out each call delivers one at least,
so what is left gets less (`SuccessfulCall.deliverableCount_lt`). For the other one the order
of notifications of one time is the worst that the database may choose, those without a
session first, and then no call reads the one that is crowded out.
-/

namespace MissionControl

/-! ## The commands of a call -/

theorem nextCommand_cases (site : NotificationSite) (batch : List Undelivered)
    (report : DeliveryReport) :
    (∃ report', nextCommand site false batch report = (report', none)
        ∧ ∀ n ∈ batch, n.session = none)
      ∨ ∃ report' passed n sessionKey rest,
        nextCommand site false batch report = (report', some (n, sessionKey, rest))
        ∧ batch = passed ++ n :: rest ∧ (∀ n ∈ passed, n.session = none)
        ∧ n.session = some sessionKey := by
  induction batch generalizing report with
  | nil => exact .inl ⟨report, rfl, fun n hn => absurd hn List.not_mem_nil⟩
  | cons first batch ih =>
    rw [nextCommand]
    cases hsession : first.session with
    | none =>
      rcases ih (report.fail first "Agent has no session key configured") with
        ⟨report', heq, hnone⟩ | ⟨report', passed, n, sessionKey, rest, heq, rfl, hpassed, hn⟩
      · exact .inl ⟨report', heq, List.forall_mem_cons.mpr ⟨hsession, hnone⟩⟩
      · exact .inr ⟨report', first :: passed, n, sessionKey, rest, heq, rfl,
          List.forall_mem_cons.mpr ⟨hsession, hpassed⟩, hn⟩
    | some sessionKey =>
      exact .inr ⟨report, [], first, sessionKey, batch, rfl, rfl,
        fun n hn => absurd hn List.not_mem_nil, hsession⟩

/-- Of the notifications of a batch, the first with a session and those behind it. -/
theorem exists_session_append {passed rest : List Undelivered} {n : Undelivered}
    (hpassed : ∀ n ∈ passed, n.session = none) (hn : n.session ≠ none) (id : ℕ) :
    (∃ m ∈ passed ++ n :: rest, m.session ≠ none ∧ m.id = id)
      ↔ id = n.id ∨ ∃ m ∈ rest, m.session ≠ none ∧ m.id = id := by
  constructor
  · rintro ⟨m, hm, hsession, rfl⟩
    rcases List.mem_append.mp hm with hm | hm
    · exact absurd (hpassed m hm) hsession
    · rcases List.mem_cons.mp hm with rfl | hm
      · exact .inl rfl
      · exact .inr ⟨m, hm, hsession, rfl⟩
  · rintro (rfl | ⟨m, hm, hsession, rfl⟩)
    · exact ⟨n, List.mem_append_right _ List.mem_cons_self, hn, rfl⟩
    · exact ⟨m, List.mem_append_right _ (List.mem_cons_of_mem _ hm), hsession, rfl⟩

/-- **Exactly the notifications of some ids have been marked.** -/
structure MarkedExactly (marked : ℕ → Prop) (before after : Table NotificationRow) : Prop where
  mark : ∀ id r, marked id → before.row id = some r →
    ∃ now, after.row id = some { r with deliveredAt := some now }
  keep : ∀ id, ¬ marked id → after.row id = before.row id
  none_of_none : ∀ id, before.row id = none → after.row id = none

namespace MarkedExactly

theorem refl {marked : ℕ → Prop} (h : ∀ id, ¬ marked id) (t : Table NotificationRow) :
    MarkedExactly marked t t :=
  ⟨fun id _ hid => absurd hid (h id), fun _ _ => rfl, fun _ hnone => hnone⟩

theorem congr {marked marked' : ℕ → Prop} {before after : Table NotificationRow}
    (h : MarkedExactly marked before after) (hiff : ∀ id, marked' id ↔ marked id) :
    MarkedExactly marked' before after :=
  ⟨fun id r hid => h.mark id r ((hiff id).mp hid), fun id hid => h.keep id fun hm =>
    hid ((hiff id).mpr hm), h.none_of_none⟩

theorem cons {marked : ℕ → Prop} {before after : Table NotificationRow} {id : ℕ} (now : ℕ)
    (h : MarkedExactly marked (before.update id fun n => { n with deliveredAt := some now })
      after) : MarkedExactly (fun id' => id' = id ∨ marked id') before after where
  mark id' r hid hr := by
    by_cases hmarked : marked id'
    · by_cases heq : id' = id
      · subst heq
        obtain ⟨time, htime⟩ := h.mark id' { r with deliveredAt := some now } hmarked
          (by rw [Table.row_update_self, hr]; rfl)
        exact ⟨time, htime⟩
      · exact h.mark id' r hmarked (by rw [Table.row_update_of_ne _ _ heq, hr])
    · have heq := hid.resolve_right hmarked
      subst heq
      exact ⟨now, by rw [h.keep id' hmarked, Table.row_update_self, hr]; rfl⟩
  keep id' hid := by
    rw [not_or] at hid
    rw [h.keep id' hid.2, Table.row_update_of_ne _ _ hid.1]
  none_of_none id' hnone := by
    refine h.none_of_none id' ?_
    rw [Table.row_update]
    split
    · next heq =>
      rw [← heq, hnone]
      rfl
    · exact hnone

end MarkedExactly

/-- The ends of the commands that a request waits for. -/
def finishes (i : ℕ) (ends : List (CommandOutcome × ℕ)) : List DeliveryAction :=
  ends.map fun e => .finish i e.1 e.2

section Commands

variable {site : NotificationSite} {s : DeliveryState} {i : ℕ}

theorem state_finishes_of_none (hi : s.deliveries.row i = none)
    (ends : List (CommandOutcome × ℕ)) :
    (notificationDelivery site).state s (finishes i ends) = s := by
  induction ends with
  | nil => rfl
  | cons e ends ih =>
    unfold finishes
    rw [List.map_cons, Machine.state_cons]
    have hnext : (notificationDelivery site).next s (.finish i e.1 e.2) = s := by
      unfold Machine.next notificationDelivery
      dsimp only
      rw [hi]
    rw [hnext]
    exact ih

/-- **The end of a command that has succeeded**: its notification is marked, and the
request waits for the next one, or has answered. -/
theorem next_finish (site : NotificationSite) {d : NotificationDelivery}
    (hi : s.deliveries.row i = some d)
    {outcome : CommandOutcome} (hok : outcome.error? = none) (now : ℕ) :
    ((notificationDelivery site).next s (.finish i outcome now)).notifications
        = s.notifications.update d.current.id (fun n => { n with deliveredAt := some now })
      ∧ ((((notificationDelivery site).next s (.finish i outcome now)).deliveries.row i = none
          ∧ ∀ n ∈ d.rest, n.session = none)
        ∨ ∃ passed n sessionKey rest report, d.rest = passed ++ n :: rest
          ∧ (∀ n ∈ passed, n.session = none) ∧ n.session = some sessionKey
          ∧ ((notificationDelivery site).next s (.finish i outcome now)).deliveries.row i
            = some ⟨d.total, n, sessionKey, rest, report⟩) := by
  unfold Machine.next notificationDelivery
  dsimp only
  rw [hi]
  dsimp only
  unfold endCommand
  rw [hok]
  dsimp only
  unfold resumeDelivery
  rcases nextCommand_cases site d.rest (d.report.succeed (.delivered d.current.id
      d.current.notification.recipient d.sessionKey now
      (String.ofList (sliceUnits 200 outcome.stdout.toList)))) with
    ⟨report', heq, hnone⟩ | ⟨report', passed, n, sessionKey, rest, heq, hrest, hpassed, hn⟩
  · rw [heq]
    refine ⟨rfl, .inl ⟨?_, hnone⟩⟩
    cases hrow : ((s.markDelivered d.current.id now).deliveries.deleteWhere
        fun j _ => decide (j = i)).row i with
    | none => rfl
    | some d' =>
      have hne := ((Table.row_deleteWhere_eq_some _ _).mp hrow).2
      exact absurd rfl (of_decide_eq_false hne)
  · rw [heq]
    refine ⟨rfl, .inr ⟨passed, n, sessionKey, rest, report', hrest, hpassed, hn, ?_⟩⟩
    show (s.deliveries.update i _).row i = _
    rw [Table.row_update_self, hi]
    rfl

/-- **A request whose commands all succeed** marks what it holds and has a session. -/
theorem markedExactly_finishes {d : NotificationDelivery} (hi : s.deliveries.row i = some d)
    {ends : List (CommandOutcome × ℕ)} (hok : ∀ e ∈ ends, e.1.error? = none)
    (hover : ((notificationDelivery site).state s (finishes i ends)).deliveries.row i = none) :
    MarkedExactly (fun id => id = d.current.id ∨ ∃ n ∈ d.rest, n.session ≠ none ∧ n.id = id)
      s.notifications ((notificationDelivery site).state s (finishes i ends)).notifications := by
  induction ends generalizing s d with
  | nil => exact absurd (hover.symm.trans hi) (Option.some_ne_none d).symm
  | cons e ends ih =>
    have hsplit : (notificationDelivery site).state s (finishes i (e :: ends))
        = (notificationDelivery site).state
          ((notificationDelivery site).next s (.finish i e.1 e.2)) (finishes i ends) := by
      unfold finishes
      rw [List.map_cons, Machine.state_cons]
    obtain ⟨hnotifications, hrest⟩ := next_finish site hi (hok e List.mem_cons_self) e.2
    rw [hsplit] at hover ⊢
    refine MarkedExactly.cons e.2 ?_
    rw [← hnotifications]
    rcases hrest with ⟨hnone, hpassed⟩ | ⟨passed, n, key, rest, report, hrest, hpassed, hn, hsome⟩
    · rw [state_finishes_of_none hnone]
      refine .refl (fun id hid => ?_) _
      obtain ⟨n, hn, hsession, -⟩ := hid
      exact hsession (hpassed n hn)
    · refine (ih hsome (fun e he => hok e (List.mem_cons_of_mem _ he)) hover).congr fun id => ?_
      rw [hrest]
      exact exists_session_append hpassed (by rw [hn]; exact Option.some_ne_none _) id

/-- **A request answers** once as many commands have ended as it had notifications left. -/
theorem row_finishes_eq_none {d : NotificationDelivery} (hi : s.deliveries.row i = some d)
    {ends : List (CommandOutcome × ℕ)} (hok : ∀ e ∈ ends, e.1.error? = none)
    (hlong : d.rest.length < ends.length) :
    ((notificationDelivery site).state s (finishes i ends)).deliveries.row i = none := by
  induction ends generalizing s d with
  | nil => exact absurd hlong (Nat.not_lt_zero _)
  | cons e ends ih =>
    have hsplit : (notificationDelivery site).state s (finishes i (e :: ends))
        = (notificationDelivery site).state
          ((notificationDelivery site).next s (.finish i e.1 e.2)) (finishes i ends) := by
      unfold finishes
      rw [List.map_cons, Machine.state_cons]
    rw [hsplit]
    rcases (next_finish site hi (hok e List.mem_cons_self) e.2).2 with
      ⟨hnone, -⟩ | ⟨passed, n, key, rest, report, hrest, -, -, hsome⟩
    · rw [state_finishes_of_none hnone]
      exact hnone
    · refine ih hsome (fun e he => hok e (List.mem_cons_of_mem _ he)) ?_
      rw [hrest, List.length_append, List.length_cons] at hlong
      rw [List.length_cons] at hlong
      show rest.length < ends.length
      omega

end Commands

/-! ## A call -/

/-- The body of a call with a limit. -/
def limitBody (limit : ℕ) : Json := .obj [("limit", .num (.finite limit))]

/-- **A call in which every command succeeds**, from its request to its answer. -/
def SuccessfulCall (site : NotificationSite) (sessions : SessionKeys) (limit : ℕ)
    (s s' : DeliveryState) : Prop :=
  ∃ ends : List (CommandOutcome × ℕ), (∀ e ∈ ends, e.1.error? = none)
    ∧ s' = (notificationDelivery site).state s
      (.post (limitBody limit) sessions :: finishes s.deliveries.next ends)
    ∧ s'.deliveries.row s.deliveries.next = none

/-- The undelivered notifications, as a call orders them. -/
def undeliveredRows (site : NotificationSite) (notifications : Table NotificationRow) :
    List (ℕ × NotificationRow) :=
  site.byCreatedAt (notifications.rows.filter fun r => r.2.deliveredAt.isNone)

/-- The notification is undelivered, and its agent has a session. -/
def Deliverable (sessions : SessionKeys) (n : NotificationRow) : Bool :=
  n.deliveredAt.isNone && ((sessions n.recipient).filter (· ≠ "")).isSome

theorem sqlLimit_natCast (sq : Sqlite) (limit : ℕ) :
    sqlLimit sq (.number (.finite limit))
      = if limit < 2 ^ 63 then .ok (some limit) else .error .typeError := by
  have hinteger : (JsNumber.finite (limit : ℚ)).integer = some (limit : ℤ) := by
    unfold JsNumber.integer
    dsimp only
    rw [if_pos (Rat.den_natCast limit), Rat.num_natCast]
  unfold sqlLimit SqlValue.asInteger
  dsimp only
  rw [hinteger]
  dsimp only
  rw [Int.natAbs_natCast]
  refine if_congr Iff.rfl ?_ rfl
  rw [if_neg (Int.not_lt.mpr (Int.natCast_nonneg limit)), Int.toNat_natCast]

/-- The notifications that a call reads, with the sessions of their agents. -/
def callBatch (site : NotificationSite) (sessions : SessionKeys) (limit : ℕ)
    (notifications : Table NotificationRow) : List Undelivered :=
  ((undeliveredRows site notifications).take limit).map fun r =>
    ⟨r.1, r.2, sessions r.2.recipient⟩

/-- **What a call reads**, if the database takes its limit. -/
theorem undelivered_limitBody (site : NotificationSite) (notifications : Table NotificationRow)
    (sessions : SessionKeys) (limit : ℕ) :
    undelivered site notifications sessions ⟨none, .num (.finite limit), false⟩
      = if limit < 2 ^ 63 then
          .ok (callBatch site sessions limit notifications)
        else .error .typeError := by
  have hrows : (notifications.rows.filter fun r => decide (r.2.deliveredAt.isNone
        ∧ (Json.truthy none = true → (SqlValue.number (.finite limit)).asText site.sq
          = .text r.2.recipient)))
      = notifications.rows.filter fun r => r.2.deliveredAt.isNone := by
    refine List.filter_congr fun r _ => ?_
    cases r.2.deliveredAt <;> simp [Json.truthy]
  unfold undelivered
  have hbind : SqlValue.bindAll 1 [some (.num (.finite (limit : ℚ)))]
      = .ok [.number (.finite limit)] := rfl
  show (SqlValue.bindAll 1 [some (.num (.finite (limit : ℚ)))] >>= _) = _
  rw [hbind]
  show (sqlLimit site.sq (.number (.finite limit)) >>= _) = _
  rw [sqlLimit_natCast]
  split
  · show Except.ok _ = Except.ok _
    rw [callBatch, undeliveredRows, ← hrows]
    rfl
  · rfl

section Call

variable {site : NotificationSite} {sessions : SessionKeys} {limit : ℕ} {s s' : DeliveryState}

theorem next_post_of_le (hlimit : ¬ limit < 2 ^ 63) :
    (notificationDelivery site).next s (.post (limitBody limit) sessions) = s := by
  unfold Machine.next notificationDelivery
  dsimp only
  unfold deliverNotifications
  rw [show readDeliverRequest (limitBody limit)
    = .ok ⟨none, .num (.finite limit), false⟩ from rfl]
  dsimp only
  rw [undelivered_limitBody, if_neg hlimit]

/-- **A call answers at once, or runs the first command.** -/
theorem next_post_cases (site : NotificationSite) (sessions : SessionKeys) (s : DeliveryState)
    (hlimit : limit < 2 ^ 63) :
    ((notificationDelivery site).next s (.post (limitBody limit) sessions) = s
        ∧ ∀ n ∈ callBatch site sessions limit s.notifications, n.session = none)
      ∨ ∃ passed n sessionKey rest d,
        callBatch site sessions limit s.notifications = passed ++ n :: rest
        ∧ (∀ n ∈ passed, n.session = none) ∧ n.session = some sessionKey
        ∧ d.current = n ∧ d.rest = rest
        ∧ (notificationDelivery site).next s (.post (limitBody limit) sessions)
          = { s with deliveries := s.deliveries.insert d } := by
  unfold Machine.next notificationDelivery
  dsimp only
  unfold deliverNotifications
  rw [show readDeliverRequest (limitBody limit)
    = .ok ⟨none, .num (.finite limit), false⟩ from rfl]
  dsimp only
  rw [undelivered_limitBody, if_pos hlimit]
  generalize callBatch site sessions limit s.notifications = batch
  cases batch with
  | nil => exact .inl ⟨rfl, fun n hn => absurd hn List.not_mem_nil⟩
  | cons first batch =>
    dsimp only
    rcases nextCommand_cases site (first :: batch) ⟨[], []⟩ with
      ⟨report, heq, hnone⟩ | ⟨report, passed, n, sessionKey, rest, heq, hbatch, hpassed, hn⟩
    · rw [heq]
      exact .inl ⟨rfl, hnone⟩
    · rw [heq]
      exact .inr ⟨passed, n, sessionKey, rest, _, hbatch, hpassed, hn, rfl, rfl, rfl⟩

/-- **A call can go through**: every command may succeed. -/
theorem exists_successfulCall (site : NotificationSite) (sessions : SessionKeys) (limit : ℕ)
    (s : DeliveryState) : ∃ s', SuccessfulCall site sessions limit s s' := by
  have hidle : (notificationDelivery site).next s (.post (limitBody limit) sessions) = s →
      SuccessfulCall site sessions limit s s := by
    intro hsame
    refine ⟨[], fun e he => absurd he List.not_mem_nil, ?_, s.deliveries.row_next⟩
    exact hsame.symm
  by_cases hlimit : limit < 2 ^ 63
  · rcases next_post_cases site sessions s hlimit with
      ⟨hsame, -⟩ | ⟨passed, n, sessionKey, rest, d, -, -, -, -, -, hnext⟩
    · exact ⟨s, hidle hsame⟩
    · have hrow : ((notificationDelivery site).next s
          (.post (limitBody limit) sessions)).deliveries.row s.deliveries.next = some d := by
        rw [hnext]
        exact s.deliveries.row_insert_next d
      have hok : ∀ e ∈ List.replicate (d.rest.length + 1) (CommandOutcome.resolved "" "", 0),
          e.1.error? = none := by
        intro e he
        rw [List.eq_of_mem_replicate he]
        decide +kernel
      refine ⟨_, List.replicate (d.rest.length + 1) (.resolved "" "", 0), hok, rfl, ?_⟩
      rw [Machine.state_cons]
      refine row_finishes_eq_none hrow hok ?_
      rw [List.length_replicate]
      exact Nat.lt_succ_self _
  · exact ⟨s, hidle (next_post_of_le hlimit)⟩

theorem mem_undeliveredRows {notifications : Table NotificationRow} {r : ℕ × NotificationRow} :
    r ∈ undeliveredRows site notifications
      ↔ notifications.row r.1 = some r.2 ∧ r.2.deliveredAt.isNone = true := by
  unfold undeliveredRows
  rw [(site.byCreatedAt_perm _).mem_iff, List.mem_filter]
  exact and_congr_left fun _ => notifications.mem_rows

theorem deliverable_iff_mem_callBatch (site : NotificationSite) (sessions : SessionKeys)
    (limit : ℕ) (notifications : Table NotificationRow) (id : ℕ) :
    (∃ r, Deliverable sessions r = true
        ∧ (id, r) ∈ (undeliveredRows site notifications).take limit)
      ↔ ∃ n ∈ callBatch site sessions limit notifications, n.session ≠ none ∧ n.id = id := by
  unfold callBatch
  constructor
  · rintro ⟨r, hr, hmem⟩
    exact ⟨_, List.mem_map.mpr ⟨(id, r), hmem, rfl⟩,
      Option.isSome_iff_ne_none.mp (Bool.and_eq_true_iff.mp hr).2, rfl⟩
  · rintro ⟨n, hn, hsession, rfl⟩
    obtain ⟨r, hr, rfl⟩ := List.mem_map.mp hn
    refine ⟨r.2, Bool.and_eq_true_iff.mpr ⟨?_, Option.isSome_iff_ne_none.mpr hsession⟩, hr⟩
    exact (mem_undeliveredRows.mp (List.mem_of_mem_take hr)).2

/-- **What a call delivers**: those of the notifications it reads whose agents have a
session. -/
theorem SuccessfulCall.markedExactly (h : SuccessfulCall site sessions limit s s') :
    MarkedExactly (fun id => limit < 2 ^ 63 ∧ ∃ r, Deliverable sessions r = true
        ∧ (id, r) ∈ (undeliveredRows site s.notifications).take limit)
      s.notifications s'.notifications := by
  obtain ⟨ends, hok, rfl, hover⟩ := h
  rw [Machine.state_cons] at hover ⊢
  by_cases hlimit : limit < 2 ^ 63
  · have hiff := deliverable_iff_mem_callBatch site sessions limit s.notifications
    rcases next_post_cases site sessions s hlimit with
      ⟨hsame, hnone⟩ | ⟨passed, n, sessionKey, rest, d, hbatch, hpassed, hn, hcurrent, hrest, hnext⟩
    · rw [hsame, state_finishes_of_none s.deliveries.row_next]
      refine .refl (fun id hid => ?_) _
      obtain ⟨n, hn, hsession, -⟩ := (hiff id).mp hid.2
      exact hsession (hnone n hn)
    · rw [hnext] at hover ⊢
      have hmarked := markedExactly_finishes (s.deliveries.row_insert_next d) hok hover
      refine hmarked.congr fun id => ?_
      rw [and_iff_right hlimit, hiff, hbatch, hcurrent, hrest]
      exact exists_session_append hpassed (by rw [hn]; exact Option.some_ne_none _) id
  · rw [next_post_of_le hlimit, state_finishes_of_none s.deliveries.row_next]
    exact .refl (fun id hid => hlimit hid.1) _

end Call

/-! ## Progress -/

inductive Calls (site : NotificationSite) (sessions : SessionKeys) (limit : ℕ) :
    ℕ → DeliveryState → DeliveryState → Prop where
  | none (s : DeliveryState) : Calls site sessions limit 0 s s
  | call {k : ℕ} {s s₁ s' : DeliveryState} (first : SuccessfulCall site sessions limit s s₁)
    (rest : Calls site sessions limit k s₁ s') : Calls site sessions limit (k + 1) s s'

def IsDelivered (s : DeliveryState) (id : ℕ) : Prop :=
  ∃ r, s.notifications.row id = some r ∧ r.deliveredAt.isNone = false

/-- **The calls get on**: if there is a notification that can be delivered, a call delivers
one; and some calls deliver all. -/
structure Progresses (site : NotificationSite) (sessions : SessionKeys) (limit : ℕ)
    (s : DeliveryState) : Prop where
  delivers : (∃ id r, s.notifications.row id = some r ∧ Deliverable sessions r = true) →
    ∀ s', SuccessfulCall site sessions limit s s' →
      ∃ id r, s.notifications.row id = some r ∧ Deliverable sessions r = true
        ∧ IsDelivered s' id
  deliversAll : ∃ k, (∃ s', Calls site sessions limit k s s')
    ∧ ∀ s', Calls site sessions limit k s s' → ∀ id r, s.notifications.row id = some r →
      Deliverable sessions r = true → IsDelivered s' id

/-- The undelivered notifications without a session that are not newer than another one. -/
def crowd (sessions : SessionKeys) (notifications : Table NotificationRow)
    (n : NotificationRow) : ℕ :=
  notifications.rows.countP fun r =>
    r.2.deliveredAt.isNone && !Deliverable sessions r.2 && decide (r.2.createdAt ≤ n.createdAt)

/-- **No notification that can be delivered is crowded out**: fewer than the limit without a
session are not newer. -/
def NoneCrowdedOut (sessions : SessionKeys) (limit : ℕ)
    (notifications : Table NotificationRow) : Prop :=
  ∀ id r, notifications.row id = some r → Deliverable sessions r = true →
    limit < 2 ^ 63 ∧ crowd sessions notifications r < limit

section Progress

variable {site : NotificationSite} {sessions : SessionKeys} {limit : ℕ} {s s' : DeliveryState}

/-- **A call keeps a notification, or delivers it**, if it can be delivered. -/
theorem SuccessfulCall.row_cases (h : SuccessfulCall site sessions limit s s') {id : ℕ}
    {r : NotificationRow} (hr : s.notifications.row id = some r) :
    s'.notifications.row id = some r
      ∨ Deliverable sessions r = true
        ∧ ∃ now, s'.notifications.row id = some { r with deliveredAt := some now } := by
  by_cases hid : limit < 2 ^ 63 ∧ ∃ r, Deliverable sessions r = true
      ∧ (id, r) ∈ (undeliveredRows site s.notifications).take limit
  · refine .inr ⟨?_, h.markedExactly.mark id r hid hr⟩
    obtain ⟨-, r', hr', hmem⟩ := hid
    have hrow := (mem_undeliveredRows.mp (List.mem_of_mem_take hmem)).1
    rw [Option.some.inj (hr.symm.trans hrow)]
    exact hr'
  · exact .inl ((h.markedExactly.keep id hid).trans hr)

theorem SuccessfulCall.row_of_undelivered (h : SuccessfulCall site sessions limit s s')
    {id : ℕ} {r : NotificationRow} (hr : s'.notifications.row id = some r)
    (hundelivered : r.deliveredAt.isNone = true) : s.notifications.row id = some r := by
  cases hrow : s.notifications.row id with
  | none =>
    rw [h.markedExactly.none_of_none id hrow] at hr
    cases hr
  | some r' =>
    rcases h.row_cases hrow with hsame | ⟨-, now, hmarked⟩
    · exact hsame.symm.trans hr
    · rw [hr] at hmarked
      rw [Option.some.inj hmarked] at hundelivered
      cases hundelivered

theorem isDelivered_marked {id now : ℕ} {r : NotificationRow}
    (hr : s.notifications.row id = some { r with deliveredAt := some now }) :
    IsDelivered s id := ⟨_, hr, rfl⟩

theorem SuccessfulCall.isDelivered (h : SuccessfulCall site sessions limit s s') {id : ℕ}
    (hid : IsDelivered s id) : IsDelivered s' id := by
  obtain ⟨r, hr, hdelivered⟩ := hid
  rcases h.row_cases hr with hsame | ⟨-, now, hmarked⟩
  · exact ⟨r, hsame, hdelivered⟩
  · exact isDelivered_marked hmarked

theorem Calls.isDelivered {k : ℕ} (h : Calls site sessions limit k s s') {id : ℕ}
    (hid : IsDelivered s id) : IsDelivered s' id := by
  induction h with
  | none => exact hid
  | call first _ ih => exact ih (first.isDelivered hid)

theorem exists_calls (site : NotificationSite) (sessions : SessionKeys) (limit k : ℕ)
    (s : DeliveryState) : ∃ s', Calls site sessions limit k s s' := by
  induction k generalizing s with
  | zero => exact ⟨s, .none s⟩
  | succ k ih =>
    obtain ⟨s₁, hfirst⟩ := exists_successfulCall site sessions limit s
    obtain ⟨s', hrest⟩ := ih s₁
    exact ⟨s', .call hfirst hrest⟩

theorem isFirst_undeliveredRows (site : NotificationSite) (limit : ℕ)
    (notifications : Table NotificationRow) :
    IsFirst (fun a b : ℕ × NotificationRow => a.2.createdAt ≤ b.2.createdAt) limit
      (notifications.rows.filter fun r => r.2.deliveredAt.isNone)
      ((undeliveredRows site notifications).take limit) :=
  .take (site.byCreatedAt_perm _) (site.byCreatedAt_sorted _)

theorem mem_filter_undelivered {notifications : Table NotificationRow} {id : ℕ}
    {r : NotificationRow} (hr : notifications.row id = some r)
    (hdeliverable : Deliverable sessions r = true) :
    (id, r) ∈ notifications.rows.filter fun r => r.2.deliveredAt.isNone :=
  List.mem_filter.mpr ⟨notifications.mem_rows.mpr hr, (Bool.and_eq_true_iff.mp hdeliverable).1⟩

/-- **A call delivers**, if nothing that can be delivered is crowded out. -/
theorem SuccessfulCall.delivers (h : SuccessfulCall site sessions limit s s')
    (hnone : NoneCrowdedOut sessions limit s.notifications) {id : ℕ} {r : NotificationRow}
    (hr : s.notifications.row id = some r) (hdeliverable : Deliverable sessions r = true) :
    ∃ id r, s.notifications.row id = some r ∧ Deliverable sessions r = true
      ∧ IsDelivered s' id := by
  obtain ⟨hlimit, hcrowd⟩ := hnone id r hr hdeliverable
  obtain ⟨⟨id', r'⟩, hmem, hr'⟩ := (isFirst_undeliveredRows site limit s.notifications).exists_mem
    (p := fun r => Deliverable sessions r.2) (mem_filter_undelivered hr hdeliverable)
    hdeliverable (by
      rw [List.countP_filter]
      refine (List.countP_mono_left fun y _ hy => ?_).trans_lt hcrowd
      obtain ⟨hy, hundelivered⟩ := Bool.and_eq_true_iff.mp hy
      rw [hundelivered, Bool.true_and]
      exact hy)
  have hrow := (mem_undeliveredRows.mp (List.mem_of_mem_take hmem)).1
  obtain ⟨now, hmarked⟩ := h.markedExactly.mark id' r' ⟨hlimit, r', hr', hmem⟩ hrow
  exact ⟨id', r', hrow, hr', isDelivered_marked hmarked⟩

theorem SuccessfulCall.noneCrowdedOut (h : SuccessfulCall site sessions limit s s')
    (hnone : NoneCrowdedOut sessions limit s.notifications) :
    NoneCrowdedOut sessions limit s'.notifications := by
  intro id r hr hdeliverable
  have hrow := h.row_of_undelivered hr (Bool.and_eq_true_iff.mp hdeliverable).1
  obtain ⟨hlimit, hcrowd⟩ := hnone id r hrow hdeliverable
  refine ⟨hlimit, (Table.countP_rows_le fun id' r' hr' hp => ⟨r', ?_, hp⟩).trans_lt hcrowd⟩
  obtain ⟨hp, -⟩ := Bool.and_eq_true_iff.mp hp
  exact h.row_of_undelivered hr' (Bool.and_eq_true_iff.mp hp).1

def deliverableCount (sessions : SessionKeys) (notifications : Table NotificationRow) : ℕ :=
  notifications.rows.countP fun r => Deliverable sessions r.2

/-- **A call leaves fewer to deliver.** -/
theorem SuccessfulCall.deliverableCount_lt (h : SuccessfulCall site sessions limit s s')
    (hnone : NoneCrowdedOut sessions limit s.notifications) {id : ℕ} {r : NotificationRow}
    (hr : s.notifications.row id = some r) (hdeliverable : Deliverable sessions r = true) :
    deliverableCount sessions s'.notifications < deliverableCount sessions s.notifications := by
  obtain ⟨id', r', hr', hdeliverable', r'', hr'', hdelivered⟩ :=
    h.delivers hnone hr hdeliverable
  refine Table.countP_rows_lt (fun id r hr hp => ⟨r, ?_, hp⟩) hr' hdeliverable' fun x hx => ?_
  · exact h.row_of_undelivered hr (Bool.and_eq_true_iff.mp hp).1
  · unfold Deliverable
    rw [Option.some.inj (hx.symm.trans hr''), hdelivered]
    rfl

/-- **As many calls as there is to deliver deliver all.** -/
theorem Calls.deliversAll {k : ℕ} (h : Calls site sessions limit k s s')
    (hnone : NoneCrowdedOut sessions limit s.notifications)
    (hcount : deliverableCount sessions s.notifications ≤ k) {id : ℕ} {r : NotificationRow}
    (hr : s.notifications.row id = some r) (hdeliverable : Deliverable sessions r = true) :
    IsDelivered s' id := by
  induction h generalizing r with
  | none s =>
    have hpos : 0 < deliverableCount sessions s.notifications :=
      List.countP_pos_iff.mpr ⟨(id, r), s.notifications.mem_rows.mpr hr, hdeliverable⟩
    omega
  | call first rest ih =>
    have hless := first.deliverableCount_lt hnone hr hdeliverable
    rcases first.row_cases hr with hsame | ⟨-, now, hmarked⟩
    · exact ih (first.noneCrowdedOut hnone) (by omega) hsame hdeliverable
    · exact rest.isDelivered (isDelivered_marked hmarked)

end Progress

/-! ## No progress -/

/-- The order of a database that takes notifications without a session first. -/
def stuckKey (sessions : SessionKeys) (r : ℕ × NotificationRow) : ℕ :=
  2 * r.2.createdAt + (Deliverable sessions r.2).toNat

/-- A database that takes, of notifications of one time, those without a session first. -/
def stuckSite (sessions : SessionKeys) : NotificationSite where
  sq := sampleSqlite
  localeString t := toString t
  byCreatedAt rows := rows.insertionSort fun a b => stuckKey sessions a ≤ stuckKey sessions b
  byCreatedAt_perm := List.perm_insertionSort _
  byCreatedAt_sorted rows := by
    refine (pairwise_insertionSort_key _ rows).imp fun {a b} hab => ?_
    have hle := Bool.toNat_le (Deliverable sessions b.2)
    unfold stuckKey at hab
    omega

section Stuck

variable {sessions : SessionKeys} {limit : ℕ} {s s' : DeliveryState} {id : ℕ}
  {r : NotificationRow}

/-- **What is crowded out is not read.** -/
theorem notMem_take_undeliveredRows (hdeliverable : Deliverable sessions r = true)
    (hcrowd : limit ≤ crowd sessions s.notifications r) :
    (id, r) ∉ (undeliveredRows (stuckSite sessions) s.notifications).take limit := by
  intro hmem
  have hfirst : IsFirst (fun a b => stuckKey sessions a ≤ stuckKey sessions b) limit
      (s.notifications.rows.filter fun r => r.2.deliveredAt.isNone)
      ((undeliveredRows (stuckSite sessions) s.notifications).take limit) :=
    .take (List.perm_insertionSort _ _) (pairwise_insertionSort_key _ _)
  have hlt := hfirst.countP_lt (s.notifications.nodup_rows.of_map _ |>.filter _) hmem
    (Nat.le_refl _)
  rw [List.countP_filter] at hlt
  refine absurd (hcrowd.trans (List.countP_mono_left fun y _ hy => ?_)) (Nat.not_le.mpr hlt)
  obtain ⟨hy, hle⟩ := Bool.and_eq_true_iff.mp hy
  obtain ⟨hundelivered, hnot⟩ := Bool.and_eq_true_iff.mp hy
  have hother : Deliverable sessions y.2 = false := by simpa using hnot
  have hle := of_decide_eq_true hle
  unfold stuckKey
  rw [hundelivered, hother, hdeliverable, Bool.and_true, Bool.not_eq_true',
    decide_eq_false_iff_not]
  simp only [Bool.toNat_true, Bool.toNat_false]
  omega

/-- **What is crowded out is never delivered.** -/
theorem Calls.crowdedOut {k : ℕ} (h : Calls (stuckSite sessions) sessions limit k s s')
    (hr : s.notifications.row id = some r) (hdeliverable : Deliverable sessions r = true)
    (hcrowd : limit < 2 ^ 63 → limit ≤ crowd sessions s.notifications r) :
    s'.notifications.row id = some r := by
  induction h with
  | none => exact hr
  | call first rest ih =>
    refine ih ?_ fun hlimit => (hcrowd hlimit).trans ?_
    · rw [first.markedExactly.keep id, hr]
      rintro ⟨hlimit, r', hr', hmem⟩
      obtain rfl := Option.some.inj
        (hr.symm.trans (mem_undeliveredRows.mp (List.mem_of_mem_take hmem)).1)
      exact notMem_take_undeliveredRows hdeliverable (hcrowd hlimit) hmem
    · refine Table.countP_rows_le fun id' r' hr' hp => ⟨r', ?_, hp⟩
      refine (first.row_cases hr').resolve_right fun hdelivered => ?_
      have hnot := (Bool.and_eq_true_iff.mp (Bool.and_eq_true_iff.mp hp).1).2
      rw [hdelivered.1] at hnot
      cases hnot

end Stuck

/-- **Calls get on, whatever the order of notifications of one time**, exactly where no
notification that can be delivered is crowded out. -/
theorem delivery_progresses_iff (sessions : SessionKeys) (limit : ℕ) (s : DeliveryState) :
    (∀ site, Progresses site sessions limit s)
      ↔ NoneCrowdedOut sessions limit s.notifications := by
  constructor
  · intro h id r hr hdeliverable
    by_contra hnot
    have hcrowd : limit < 2 ^ 63 → limit ≤ crowd sessions s.notifications r := fun hlimit =>
      Nat.not_lt.mp fun hfew => hnot ⟨hlimit, hfew⟩
    obtain ⟨k, ⟨s', hcalls⟩, hall⟩ := (h (stuckSite sessions)).deliversAll
    obtain ⟨r', hr', hdelivered⟩ := hall s' hcalls id r hr hdeliverable
    rw [hcalls.crowdedOut hr hdeliverable hcrowd] at hr'
    rw [← Option.some.inj hr', (Bool.and_eq_true_iff.mp hdeliverable).1] at hdelivered
    cases hdelivered
  · intro h site
    refine ⟨fun hex s' hcall => ?_, deliverableCount sessions s.notifications,
      exists_calls site sessions limit _ s, fun s' hcalls id r hr hdeliverable =>
        hcalls.deliversAll h (Nat.le_refl _) hr hdeliverable⟩
    obtain ⟨id, r, hr, hdeliverable⟩ := hex
    exact hcall.delivers h hr hdeliverable

/-- A notification of an agent without a session, and a newer one of ada. -/
def sampleStuck : DeliveryState :=
  (notificationDelivery sampleNotificationSite).state .initial
    [.notify ⟨"bob", "mention", "Mentioned", "See task 1", none, none, 10, none⟩,
      .notify ⟨"ada", "assignment", "Assigned", "Task 2", none, none, 20, none⟩]

/-- Only ada has a session. -/
def sampleSessions : SessionKeys := fun name => if name = "ada" then some "ada-session" else none

/-- **A call reads only what it cannot deliver.** -/
theorem not_progresses_sampleStuck :
    ¬ ∀ (site : NotificationSite) (sessions : SessionKeys) (limit : ℕ) (s : DeliveryState),
      1 ≤ limit → Progresses site sessions limit s := by
  intro h
  have hnone : ((notificationDelivery sampleNotificationSite).next sampleStuck
        (.post (limitBody 1) sampleSessions)).notifications.rows.all
          (fun r => r.2.deliveredAt.isNone)
      ∧ (((notificationDelivery sampleNotificationSite).next sampleStuck
        (.post (limitBody 1) sampleSessions)).deliveries.row sampleStuck.deliveries.next).isNone
      ∧ (sampleStuck.notifications.row 2).any (Deliverable sampleSessions) := by
    decide +kernel
  obtain ⟨hrows, hover, hany⟩ := hnone
  obtain ⟨r, hr, hdeliverable⟩ := (Option.any_eq_true _ _).mp hany
  obtain ⟨id, -, -, -, r', hr', hdelivered⟩ :=
    (h sampleNotificationSite sampleSessions 1 sampleStuck (Nat.le_refl 1)).delivers
      ⟨2, r, hr, hdeliverable⟩ _ ⟨[], fun e he => absurd he List.not_mem_nil, rfl,
        Option.isNone_iff_eq_none.mp hover⟩
  have hundelivered := List.all_eq_true.mp hrows (id, r') (Table.mem_rows _ |>.mpr hr')
  rw [hdelivered] at hundelivered
  cases hundelivered

end MissionControl
