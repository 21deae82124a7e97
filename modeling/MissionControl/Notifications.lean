import MissionControl.Sql
import MissionControl.Library.Machine
import MissionControl.Library.Table

/-!
# The delivery of notifications

`POST /api/notifications/deliver` reads the undelivered notifications once, and then
runs the gateway command of each, one after the other. It waits for every command,
and marks the notification only when the command has succeeded.

So a second request that begins meanwhile reads the notifications again which the
first one holds and has not come to yet, and delivers them a second time
(`not_deliveredOnce_sampleOverlap`). A run in which every command is started for a
notification that is still undelivered, and that no other request delivers at that
time, delivers each notification at most once (`deliveredOnce_of_startsAlone`).

The condition speaks of the moment at which a command starts. The invariant (`DeliveredOnce`)
carries it to the end of the command: what a request waits for has not been delivered yet, and
no two requests wait for the same.
-/

namespace MissionControl

/-! ## Notifications -/

/-- A row of `notifications`. -/
structure NotificationRow where
  recipient : String
  type : String
  title : String
  message : String
  sourceType : Option String
  sourceId : Option ℕ
  createdAt : ℕ
  deliveredAt : Option ℕ

/-- **What is around the delivery**: the database, and the locale of the server. -/
structure NotificationSite where
  sq : Sqlite
  /-- `new Date(seconds * 1000).toLocaleString()`. -/
  localeString : ℕ → String
  /-- `ORDER BY n.created_at ASC`. Rows of one time stand in any order. -/
  byCreatedAt : List (ℕ × NotificationRow) → List (ℕ × NotificationRow)
  byCreatedAt_perm : ∀ rows, (byCreatedAt rows).Perm rows
  byCreatedAt_sorted : ∀ rows,
    (byCreatedAt rows).Pairwise fun a b => a.2.createdAt ≤ b.2.createdAt

def formatNotificationMessage (site : NotificationSite) (n : NotificationRow) : String :=
  "🔔 **" ++ n.title ++ "**\n\n" ++ n.message ++ "\n\n"
    ++ (if n.type = "mention" then "📝 You were mentioned in a comment\n"
      else if n.type = "assignment" then "📋 You have been assigned a new task\n"
      else if n.type = "due_date" then "⏰ Task deadline approaching\n"
      else "")
    ++ (match n.sourceType, n.sourceId with
      | some sourceType, some sourceId =>
        if sourceType ≠ "" ∧ sourceId ≠ 0 then
          "🔗 Related " ++ sourceType ++ " ID: " ++ toString sourceId ++ "\n"
        else ""
      | _, _ => "")
    ++ "⏰ " ++ site.localeString n.createdAt

/-! ## The batch of a request -/

structure DeliverRequest where
  agentFilter : Option Json
  limit : Json
  dryRun : Bool

def readDeliverRequest (body : Json) : Except Exception DeliverRequest := do
  let agentFilter ← Json.get (some body) "agent_filter"
  let limit ← Json.get (some body) "limit"
  let dryRun ← Json.get (some body) "dry_run"
  .ok ⟨agentFilter, limit.getD (.num (.finite 50)), Json.truthy dryRun⟩

/-- `LIMIT ?`: an integer, and no limit where it is negative. -/
def sqlLimit (sq : Sqlite) (v : SqlValue) : Except Exception (Option ℕ) :=
  match v.asInteger sq with
  | .number n =>
    match n.integer with
    | some z =>
      if z.natAbs < 2 ^ 63 then .ok (if z < 0 then none else some z.toNat)
      else .error .typeError
    | none => .error .typeError
  | _ => .error .typeError

/-- A notification of a batch, as it was read, with the session key of the agent
whose name is the recipient. -/
structure Undelivered where
  id : ℕ
  notification : NotificationRow
  sessionKey : Option String

/-- The agents, as the batch is joined with them: the session key of a name. -/
abbrev SessionKeys := String → Option String

/-- **The undelivered notifications**, as a request reads them. -/
def undelivered (site : NotificationSite) (notifications : Table NotificationRow)
    (sessions : SessionKeys) (request : DeliverRequest) :
    Except Exception (List Undelivered) := do
  let filtered := Json.truthy request.agentFilter
  let params := (if filtered then [request.agentFilter] else []) ++ [some request.limit]
  let values ← SqlValue.bindAll params.length params
  let limit ← sqlLimit site.sq (values.getLast?.getD .null)
  let rows := notifications.rows.filter fun (_, n) =>
    n.deliveredAt.isNone
      ∧ (filtered = true → (values.head?.getD .null).asText site.sq = .text n.recipient)
  let ordered := site.byCreatedAt rows
  .ok ((limit.elim ordered fun n => ordered.take n).map fun (id, n) =>
    ⟨id, n, sessions n.recipient⟩)

/-! ## Delivering -/

/-- How a notification of the batch went, as the response lists it. -/
inductive DeliveryResult where
  | delivered (id : ℕ) (recipient sessionKey : String) (deliveredAt : ℕ) (stdout : String)
  | dryRun (id : ℕ) (recipient sessionKey message : String)

structure DeliveryError where
  notificationId : ℕ
  recipient : String
  error : String

structure DeliveryReport where
  results : List DeliveryResult
  errors : List DeliveryError

namespace DeliveryReport

def succeed (report : DeliveryReport) (result : DeliveryResult) : DeliveryReport :=
  { report with results := report.results ++ [result] }

def fail (report : DeliveryReport) (n : Undelivered) (error : String) : DeliveryReport :=
  { report with errors := report.errors ++ [⟨n.id, n.notification.recipient, error⟩] }

end DeliveryReport

/-- The session key of a notification, if its agent has one. -/
def Undelivered.session (n : Undelivered) : Option String := n.sessionKey.filter (· ≠ "")

/-- The arguments of `openclaw` that deliver a notification. -/
def sessionsSend (site : NotificationSite) (n : NotificationRow) (sessionKey : String) :
    List String :=
  ["gateway", "sessions_send", "--session", sessionKey, "--message",
    formatNotificationMessage site n]

/-- **The next notification whose command is run**, with its session and those behind
it: what has no session, and everything in a dry run, needs no command. -/
def nextCommand (site : NotificationSite) (dryRun : Bool) :
    List Undelivered → DeliveryReport →
      DeliveryReport × Option (Undelivered × String × List Undelivered)
  | [], report => (report, none)
  | n :: rest, report =>
    match n.session with
    | none => nextCommand site dryRun rest (report.fail n "Agent has no session key configured")
    | some sessionKey =>
      if dryRun then
        nextCommand site dryRun rest (report.succeed (.dryRun n.id n.notification.recipient
          sessionKey (formatNotificationMessage site n.notification)))
      else (report, some (n, sessionKey, rest))

inductive CommandOutcome where
  | resolved (stdout stderr : String)
  | rejected (message : String)

/-- The error of a command, if it has failed: also one that says `error` and
succeeds. -/
def CommandOutcome.error? : CommandOutcome → Option String
  | resolved _ stderr =>
    if includes stderr "error" then some ("OpenClaw error: " ++ stderr) else none
  | rejected message => some message

def CommandOutcome.stdout : CommandOutcome → String
  | resolved stdout _ => stdout
  | rejected _ => ""

/-- **A request that waits for a command.** -/
structure NotificationDelivery where
  total : ℕ
  current : Undelivered
  sessionKey : String
  rest : List Undelivered
  report : DeliveryReport

inductive DeliverResponse where
  | empty
  | processed (total : ℕ) (dryRun : Bool) (report : DeliveryReport)
  | failed (error : String)

inductive DeliveryEvent where
  /-- A request runs the command of a notification. -/
  | command (i id : ℕ) (args : List String)
  | succeeded (i id : ℕ)
  | failed (i id : ℕ) (error : String)
  | responded (response : DeliverResponse)

/-- **The notifications and the requests that deliver them.** -/
structure DeliveryState where
  notifications : Table NotificationRow
  deliveries : Table NotificationDelivery

namespace DeliveryState

def initial : DeliveryState := ⟨.empty, .empty⟩

/-- `UPDATE notifications SET delivered_at = ? WHERE id = ?`. -/
def markDelivered (s : DeliveryState) (id now : ℕ) : DeliveryState :=
  { s with
    notifications := s.notifications.update id fun n => { n with deliveredAt := some now } }

end DeliveryState

/-- What happens: a request, the end of a command that a request waits for, a new
notification, the notifications of a recipient marked as delivered, and notifications
deleted. -/
inductive DeliveryAction where
  | post (body : Json) (sessions : SessionKeys)
  | finish (i : ℕ) (outcome : CommandOutcome) (now : ℕ)
  | notify (notification : NotificationRow)
  | mark (agent : String) (now : ℕ)
  | remove (test : ℕ → NotificationRow → Bool)

/-- **`POST /api/notifications/deliver`**, up to the first command it waits for. -/
def deliverNotifications (site : NotificationSite) (s : DeliveryState) (body : Json)
    (sessions : SessionKeys) : DeliveryState × List DeliveryEvent :=
  match readDeliverRequest body with
  | .error _ => (s, [.responded (.failed "Failed to deliver notifications")])
  | .ok request =>
    match undelivered site s.notifications sessions request with
    | .error _ => (s, [.responded (.failed "Failed to deliver notifications")])
    | .ok [] => (s, [.responded .empty])
    | .ok batch =>
      match nextCommand site request.dryRun batch ⟨[], []⟩ with
      | (report, none) =>
        (s, [.responded (.processed batch.length request.dryRun report)])
      | (report, some (n, sessionKey, rest)) =>
        ({ s with
            deliveries := s.deliveries.insert ⟨batch.length, n, sessionKey, rest, report⟩ },
          [.command s.deliveries.next n.id (sessionsSend site n.notification sessionKey)])

def endCommand (s : DeliveryState) (i : ℕ) (d : NotificationDelivery)
    (outcome : CommandOutcome) (now : ℕ) :
    DeliveryState × DeliveryReport × DeliveryEvent :=
  match outcome.error? with
  | some error =>
    (s, d.report.fail d.current ("Command failed: " ++ error), .failed i d.current.id error)
  | none =>
    (s.markDelivered d.current.id now,
      d.report.succeed (.delivered d.current.id d.current.notification.recipient d.sessionKey
        now (String.ofList (sliceUnits 200 outcome.stdout.toList))),
      .succeeded i d.current.id)

/-- A request that has waited goes on to the next command. -/
def resumeDelivery (site : NotificationSite) (s : DeliveryState) (i : ℕ)
    (d : NotificationDelivery) (report : DeliveryReport) :
    DeliveryState × List DeliveryEvent :=
  match nextCommand site false d.rest report with
  | (report, none) =>
    ({ s with deliveries := s.deliveries.deleteWhere fun j _ => j = i },
      [.responded (.processed d.total false report)])
  | (report, some (n, sessionKey, rest)) =>
    ({ s with
        deliveries := s.deliveries.update i fun _ => ⟨d.total, n, sessionKey, rest, report⟩ },
      [.command i n.id (sessionsSend site n.notification sessionKey)])

/-- **The delivery of notifications**, its requests interleaving wherever they wait. -/
def notificationDelivery (site : NotificationSite) :
    Machine DeliveryState DeliveryAction DeliveryEvent where
  step s
    | .post body sessions => deliverNotifications site s body sessions
    | .finish i outcome now =>
      match s.deliveries.row i with
      | none => (s, [])
      | some d =>
        let ended := endCommand s i d outcome now
        let resumed := resumeDelivery site ended.1 i d ended.2.1
        (resumed.1, ended.2.2 :: resumed.2)
    | .notify n =>
      ({ s with notifications := s.notifications.insert { n with deliveredAt := none } }, [])
    | .mark agent now =>
      ({ s with
          notifications := s.notifications.updateAll fun _ n =>
            if n.recipient = agent ∧ n.deliveredAt.isNone then
              { n with deliveredAt := some now }
            else n }, [])
    | .remove test => ({ s with notifications := s.notifications.deleteWhere test }, [])

/-! ## Delivering once -/

/-- Whether the command of a notification has succeeded. -/
def DeliveryEvent.succeeds (id : ℕ) : DeliveryEvent → Bool
  | succeeded _ id' => id' = id
  | _ => false

/-- How often the command of a notification has succeeded. -/
def successes (id : ℕ) (es : List DeliveryEvent) : ℕ := es.countP (·.succeeds id)

/-- **The notification whose command a step runs**: the first with a session of what is
read, or of what is left. -/
def DeliveryAction.starts (site : NotificationSite) (s : DeliveryState) :
    DeliveryAction → Option Undelivered
  | post body sessions =>
    match readDeliverRequest body with
    | .error _ => none
    | .ok request =>
      if request.dryRun then none
      else
        match undelivered site s.notifications sessions request with
        | .error _ => none
        | .ok batch => batch.find? (·.session.isSome)
  | finish i _ _ => (s.deliveries.row i).bind fun d => d.rest.find? (·.session.isSome)
  | _ => none

/-- **Commands are run one at a time**: the step runs no command for a notification that
is gone, delivered, or being delivered by a request. -/
def StartsAlone (site : NotificationSite) (s : DeliveryState) (a : DeliveryAction) : Prop :=
  ∀ n ∈ a.starts site s,
    (s.notifications.row n.id).any (·.deliveredAt.isNone) = true
      ∧ s.deliveries.any (·.current.id = n.id) = false

instance (site : NotificationSite) (s : DeliveryState) (a : DeliveryAction) :
    Decidable (StartsAlone site s a) :=
  inferInstanceAs (Decidable (∀ n ∈ a.starts site s, _ ∧ _))

/-- The invariant of the runs whose commands are run one at a time. -/
structure DeliveredOnce (es : List DeliveryEvent) (s : DeliveryState) : Prop where
  once : ∀ id, successes id es ≤ 1
  known : ∀ id, 0 < successes id es → id < s.notifications.next
  /-- What was delivered is marked, as long as it is there. -/
  marked : ∀ id r, 0 < successes id es → s.notifications.row id = some r →
    r.deliveredAt.isNone = false
  /-- What is being delivered has not been delivered. -/
  waits : ∀ i d, s.deliveries.row i = some d →
    successes d.current.id es = 0 ∧ d.current.id < s.notifications.next
  apart : ∀ i j d e, s.deliveries.row i = some d → s.deliveries.row j = some e →
    d.current.id = e.current.id → i = j

section Once

variable {site : NotificationSite} {es : List DeliveryEvent} {s : DeliveryState}

theorem successes_append (id : ℕ) (es es' : List DeliveryEvent) :
    successes id (es ++ es') = successes id es + successes id es' := List.countP_append

theorem nextCommand_eq_some {dryRun : Bool} {batch rest : List Undelivered}
    {report report' : DeliveryReport} {n : Undelivered} {sessionKey : String}
    (h : nextCommand site dryRun batch report = (report', some (n, sessionKey, rest))) :
    dryRun = false ∧ batch.find? (·.session.isSome) = some n := by
  induction batch generalizing report with
  | nil => exact nomatch h
  | cons first batch ih =>
    rw [nextCommand] at h
    cases hs : first.session with
    | none =>
      rw [hs] at h
      obtain ⟨hdry, hfind⟩ := ih h
      refine ⟨hdry, ?_⟩
      rw [List.find?_cons_of_neg (by rw [hs]; decide)]
      exact hfind
    | some key =>
      rw [hs] at h
      dsimp only at h
      split at h
      · next hdry => exact absurd (ih h).1 (by rw [hdry]; decide)
      · next hdry =>
        obtain ⟨rfl, -⟩ := Prod.mk.inj (Option.some.inj (Prod.mk.inj h).2)
        exact ⟨Bool.eq_false_iff.mpr hdry, List.find?_cons_of_pos (by rw [hs]; rfl)⟩

theorem endCommand_frame (i now : ℕ) (d : NotificationDelivery)
    (outcome : CommandOutcome) :
    (endCommand s i d outcome now).1.deliveries = s.deliveries
      ∧ ∀ id, id ≠ d.current.id →
        (endCommand s i d outcome now).1.notifications.row id = s.notifications.row id := by
  unfold endCommand
  split
  · exact ⟨rfl, fun _ _ => rfl⟩
  · exact ⟨rfl, fun id hid => s.notifications.row_update_of_ne _ hid⟩

namespace DeliveredOnce

theorem initial : DeliveredOnce [] .initial where
  once _ := Nat.zero_le 1
  known _ h := absurd h (Nat.lt_irrefl 0)
  marked _ _ h := absurd h (Nat.lt_irrefl 0)
  waits _ _ h := nomatch h
  apart _ _ _ _ h := nomatch h

theorem quiet (h : DeliveredOnce es s) {es' : List DeliveryEvent}
    (hquiet : ∀ id, successes id es' = 0) : DeliveredOnce (es ++ es') s := by
  have hsame : ∀ id, successes id (es ++ es') = successes id es := by
    intro id
    rw [successes_append, hquiet]
    rfl
  refine ⟨fun id => ?_, fun id => ?_, fun id r => ?_, fun i d hi => ?_, h.apart⟩
  · rw [hsame]
    exact h.once id
  · rw [hsame]
    exact h.known id
  · rw [hsame]
    exact h.marked id r
  · rw [hsame]
    exact h.waits i d hi

theorem notifications (h : DeliveredOnce es s) {notifications : Table NotificationRow}
    (hnext : s.notifications.next ≤ notifications.next)
    (hrow : ∀ id r', id < s.notifications.next → notifications.row id = some r' →
      ∃ r, s.notifications.row id = some r
        ∧ (r.deliveredAt.isNone = false → r'.deliveredAt.isNone = false)) :
    DeliveredOnce es { s with notifications := notifications } where
  once := h.once
  known id hid := (h.known id hid).trans_le hnext
  marked id r' hid hr' := by
    obtain ⟨r, hr, hmark⟩ := hrow id r' (h.known id hid) hr'
    exact hmark (h.marked id r hid hr)
  waits i d hi := ⟨(h.waits i d hi).1, (h.waits i d hi).2.trans_le hnext⟩
  apart := h.apart

theorem dismiss (h : DeliveredOnce es s) {deliveries : Table NotificationDelivery}
    (hrow : ∀ j e, deliveries.row j = some e → s.deliveries.row j = some e) :
    DeliveredOnce es { s with deliveries := deliveries } where
  once := h.once
  known := h.known
  marked := h.marked
  waits i d hi := h.waits i d (hrow i d hi)
  apart i j d e hi hj := h.apart i j d e (hrow i d hi) (hrow j e hj)

/-- **A command is run** for a notification that is undelivered, and that no request
delivers. -/
theorem start (h : DeliveredOnce es s) {n : Undelivered}
    (hrow : (s.notifications.row n.id).any (·.deliveredAt.isNone) = true)
    (halone : ∀ j e, s.deliveries.row j = some e → e.current.id ≠ n.id)
    (i : ℕ) {deliveries : Table NotificationDelivery}
    (hnew : ∀ j e, deliveries.row j = some e →
      j = i ∧ e.current = n ∨ s.deliveries.row j = some e) :
    DeliveredOnce es { s with deliveries := deliveries } := by
  obtain ⟨r, hr, hundelivered⟩ := (Option.any_eq_true _ _).mp hrow
  have hnone : successes n.id es = 0 := by
    rcases Nat.eq_zero_or_pos (successes n.id es) with hzero | hpos
    · exact hzero
    · exact absurd ((h.marked n.id r hpos hr).symm.trans hundelivered) Bool.false_ne_true
  refine ⟨h.once, h.known, h.marked, fun j e hj => ?_, fun j k d e hj hk hid => ?_⟩
  · rcases hnew j e hj with ⟨-, hcurrent⟩ | hold
    · rw [hcurrent]
      exact ⟨hnone, s.notifications.row_lt hr⟩
    · exact h.waits j e hold
  · rcases hnew j d hj with ⟨rfl, hd⟩ | hold
    · rcases hnew k e hk with ⟨rfl, -⟩ | holde
      · rfl
      · rw [hd] at hid
        exact absurd hid.symm (halone k e holde)
    · rcases hnew k e hk with ⟨rfl, he⟩ | holde
      · rw [he] at hid
        exact absurd hid (halone j d hold)
      · exact h.apart j k d e hold holde hid

/-- **A command succeeds**, and its request waits for it no longer. -/
theorem success (h : DeliveredOnce es s) {i now : ℕ} {d : NotificationDelivery}
    (hi : s.deliveries.row i = some d) :
    DeliveredOnce (es ++ [.succeeded i d.current.id])
      { s.markDelivered d.current.id now with
        deliveries := s.deliveries.deleteWhere fun j _ => j = i } := by
  obtain ⟨hzero, hlt⟩ := h.waits i d hi
  have hself : successes d.current.id (es ++ [.succeeded i d.current.id]) = 1 := by
    rw [successes_append, hzero]
    simp [successes, DeliveryEvent.succeeds]
  have hother : ∀ id, id ≠ d.current.id →
      successes id (es ++ [.succeeded i d.current.id]) = successes id es := by
    intro id hid
    rw [successes_append]
    simp [successes, DeliveryEvent.succeeds, hid.symm]
  have hold : ∀ j e, (s.deliveries.deleteWhere fun j _ => j = i).row j = some e →
      s.deliveries.row j = some e ∧ e.current.id ≠ d.current.id := by
    intro j e hj
    obtain ⟨hj, hne⟩ := (s.deliveries.row_deleteWhere_eq_some _).mp hj
    exact ⟨hj, fun hid => of_decide_eq_false hne (h.apart j i e d hj hi hid)⟩
  refine ⟨fun id => ?_, fun id hpos => ?_, fun id r hpos hr => ?_, fun j e hj => ?_,
    fun j k e e' hj hk hid => h.apart j k e e' (hold j e hj).1 (hold k e' hk).1 hid⟩
  · by_cases hid : id = d.current.id
    · rw [hid, hself]
    · rw [hother id hid]
      exact h.once id
  · by_cases hid : id = d.current.id
    · rw [hid]
      exact hlt
    · rw [hother id hid] at hpos
      exact h.known id hpos
  · by_cases hid : id = d.current.id
    · subst hid
      obtain ⟨r', -, rfl⟩ := Option.map_eq_some_iff.mp
        ((s.notifications.row_update_self _ _).symm.trans hr)
      rfl
    · rw [hother id hid] at hpos
      exact h.marked id r hpos ((s.notifications.row_update_of_ne _ hid).symm.trans hr)
  · obtain ⟨hj, hne⟩ := hold j e hj
    rw [hother _ hne]
    exact h.waits j e hj

theorem ended (h : DeliveredOnce es s) {i now : ℕ} {d : NotificationDelivery}
    (hi : s.deliveries.row i = some d) (outcome : CommandOutcome) :
    DeliveredOnce (es ++ [(endCommand s i d outcome now).2.2])
      { (endCommand s i d outcome now).1 with
        deliveries := s.deliveries.deleteWhere fun j _ => j = i } := by
  unfold endCommand
  split
  · refine (h.dismiss fun j e hj => ?_).quiet fun id => rfl
    exact ((s.deliveries.row_deleteWhere_eq_some _).mp hj).1
  · exact h.success hi

/-- **A request goes on** to a command that is run alone. -/
theorem resume {i : ℕ} {d : NotificationDelivery} {report : DeliveryReport}
    (h : DeliveredOnce es { s with
      deliveries := s.deliveries.deleteWhere fun j _ => j = i })
    (halone : ∀ n, d.rest.find? (·.session.isSome) = some n →
      (s.notifications.row n.id).any (·.deliveredAt.isNone) = true
        ∧ ∀ j e, s.deliveries.row j = some e → e.current.id ≠ n.id) :
    DeliveredOnce (es ++ (resumeDelivery site s i d report).2)
      (resumeDelivery site s i d report).1 := by
  unfold resumeDelivery
  split
  · exact h.quiet fun id => rfl
  · next hnext =>
    obtain ⟨hrow, hothers⟩ := halone _ (nextCommand_eq_some hnext).2
    refine DeliveredOnce.quiet (h.start hrow (fun j e hj => ?_) i fun j e hj => ?_)
      fun id => rfl
    · exact hothers j e ((s.deliveries.row_deleteWhere_eq_some _).mp hj).1
    · rw [Table.row_update] at hj
      split at hj
      · next hji =>
        obtain ⟨-, -, rfl⟩ := Option.map_eq_some_iff.mp hj
        exact .inl ⟨hji, rfl⟩
      · next hji =>
        exact .inr ((s.deliveries.row_deleteWhere_eq_some _).mpr ⟨hj, decide_eq_false hji⟩)

/-- **A request begins** with a command that is run alone. -/
theorem post (h : DeliveredOnce es s) {body : Json} {sessions : SessionKeys}
    (halone : StartsAlone site s (.post body sessions)) :
    DeliveredOnce (es ++ (deliverNotifications site s body sessions).2)
      (deliverNotifications site s body sessions).1 := by
  unfold deliverNotifications
  split
  · exact h.quiet fun id => rfl
  · next request hread =>
    split
    · exact h.quiet fun id => rfl
    · exact h.quiet fun id => rfl
    · next batch _ hbatch =>
      split
      · exact h.quiet fun id => rfl
      · next report n sessionKey rest hnext =>
        obtain ⟨hdry, hfind⟩ := nextCommand_eq_some hnext
        have hstarts : DeliveryAction.starts site s (.post body sessions) = some n := by
          rw [DeliveryAction.starts, hread]
          dsimp only
          rw [hdry, hbatch]
          exact hfind
        obtain ⟨hrow, hothers⟩ := halone _ hstarts
        refine DeliveredOnce.quiet (h.start hrow (fun j e hj => ?_) s.deliveries.next
          fun j e hj => ?_) fun id => rfl
        · exact of_decide_eq_false ((s.deliveries.any_eq_false_iff _).mp hothers j e hj)
        · rcases (s.deliveries.row_insert_eq_some _).mp hj with ⟨hji, rfl⟩ | hold
          · exact .inl ⟨hji, rfl⟩
          · exact .inr hold

theorem next (h : DeliveredOnce es s) {a : DeliveryAction} (halone : StartsAlone site s a) :
    DeliveredOnce (es ++ (notificationDelivery site).emits s a)
      ((notificationDelivery site).next s a) := by
  cases a with
  | post body sessions => exact h.post halone
  | finish i outcome now =>
    cases hi : s.deliveries.row i with
    | none =>
      have hstep : (notificationDelivery site).step s (.finish i outcome now) = (s, []) := by
        show (match s.deliveries.row i with | none => _ | some d => _) = _
        rw [hi]
      rw [Machine.emits, Machine.next, hstep]
      exact h.quiet fun id => rfl
    | some d =>
      have hstep : (notificationDelivery site).step s (.finish i outcome now)
          = ((resumeDelivery site (endCommand s i d outcome now).1 i d
                (endCommand s i d outcome now).2.1).1,
              (endCommand s i d outcome now).2.2 ::
                (resumeDelivery site (endCommand s i d outcome now).1 i d
                  (endCommand s i d outcome now).2.1).2) := by
        show (match s.deliveries.row i with | none => _ | some d => _) = _
        rw [hi]
      obtain ⟨hdeliveries, hrows⟩ := @endCommand_frame s i now d outcome
      rw [Machine.emits, Machine.next, hstep, List.append_cons]
      refine DeliveredOnce.resume ?_ fun n hn => ?_
      · rw [hdeliveries]
        exact h.ended hi outcome
      · obtain ⟨hrow, hothers⟩ := halone n (by
          show (s.deliveries.row i).bind _ = _
          rw [hi]
          exact hn)
        have hne : ∀ j e, s.deliveries.row j = some e → e.current.id ≠ n.id := fun j e hj =>
          of_decide_eq_false ((s.deliveries.any_eq_false_iff _).mp hothers j e hj)
        rw [hrows n.id (hne i d hi).symm, hdeliveries]
        exact ⟨hrow, hne⟩
  | notify n =>
    show DeliveredOnce (es ++ []) _
    rw [List.append_nil]
    refine h.notifications (Nat.le_succ _) fun id r' hid hr' => ?_
    rw [s.notifications.row_insert_of_ne _ (Nat.ne_of_lt hid)] at hr'
    exact ⟨r', hr', fun hmarked => hmarked⟩
  | mark agent now =>
    show DeliveredOnce (es ++ []) _
    rw [List.append_nil]
    refine h.notifications le_rfl fun id r' hid hr' => ?_
    obtain ⟨r, hr, rfl⟩ := Option.map_eq_some_iff.mp hr'
    refine ⟨r, hr, fun hmarked => ?_⟩
    dsimp only
    split
    · rfl
    · exact hmarked
  | remove test =>
    show DeliveredOnce (es ++ []) _
    rw [List.append_nil]
    refine h.notifications le_rfl fun id r' hid hr' => ?_
    exact ⟨r', ((s.notifications.row_deleteWhere_eq_some _).mp hr').1, fun hmarked => hmarked⟩

end DeliveredOnce

end Once

/-- **Delivered at most once**: if every command is run for a notification that is still
undelivered, and that no other request delivers meanwhile, then along the whole run the
command of each notification succeeds at most once. -/
theorem deliveredOnce_of_startsAlone (site : NotificationSite) (actions : List DeliveryAction)
    (h : (notificationDelivery site).EachStep (StartsAlone site) .initial actions) :
    ∀ p, p <+: actions → ∀ id,
      successes id ((notificationDelivery site).trace .initial p) ≤ 1 := by
  have hinv : ∀ p, p <+: actions →
      DeliveredOnce ((notificationDelivery site).trace .initial p)
        ((notificationDelivery site).state .initial p) := by
    intro p hp
    induction p using List.reverseRecOn with
    | nil => exact .initial
    | append_singleton p a ih =>
      rw [Machine.trace_concat, Machine.state_concat]
      exact (ih ((List.prefix_append p [a]).trans hp)).next (h p a hp)
  exact fun p hp => (hinv p hp).once

/-- A site that orders the notifications by insertion. -/
def sampleNotificationSite : NotificationSite where
  sq := sampleSqlite
  localeString t := toString t
  byCreatedAt rows := rows.insertionSort fun a b => a.2.createdAt ≤ b.2.createdAt
  byCreatedAt_perm := List.perm_insertionSort _
  byCreatedAt_sorted rows := by
    have htotal : Std.Total (fun a b : ℕ × NotificationRow => a.2.createdAt ≤ b.2.createdAt) :=
      ⟨fun a b => Nat.le_total a.2.createdAt b.2.createdAt⟩
    have htrans : IsTrans (ℕ × NotificationRow) (fun a b => a.2.createdAt ≤ b.2.createdAt) :=
      ⟨fun _ _ _ hab hbc => Nat.le_trans hab hbc⟩
    exact List.pairwise_insertionSort _ rows

/-- Two notifications of one agent. -/
def sampleNotifications : List DeliveryAction :=
  [.notify ⟨"ada", "mention", "Mentioned", "See task 1", none, none, 10, none⟩,
    .notify ⟨"ada", "assignment", "Assigned", "Task 2", some "task", some 2, 20, none⟩]

/-- A request to deliver all, while the agent has a session. -/
def deliverAll : DeliveryAction := .post (.obj []) fun _ => some "ada-session"

/-- One request after the other. -/
def sampleDeliveries : List DeliveryAction :=
  sampleNotifications ++ [deliverAll, .finish 1 (.resolved "" "") 30,
    .finish 1 (.rejected "timeout") 31, deliverAll, .finish 2 (.resolved "ok" "") 40]

/-- A second request after the first has ended delivers what had failed. -/
theorem deliveredOnce_sampleDeliveries :
    (notificationDelivery sampleNotificationSite).EachStep
        (StartsAlone sampleNotificationSite) .initial sampleDeliveries
      ∧ successes 2 ((notificationDelivery sampleNotificationSite).trace .initial
        sampleDeliveries) ≤ 1 := by
  have halone : (notificationDelivery sampleNotificationSite).EachStep
      (StartsAlone sampleNotificationSite) .initial sampleDeliveries := by
    refine .cons _ ?_ (.cons _ ?_ (.cons _ ?_ (.cons _ ?_ (.cons _ ?_ (.cons _ ?_ (.cons _ ?_
      (Machine.eachStep_nil _ _ _)))))))
    all_goals decide +kernel
  exact ⟨halone, deliveredOnce_of_startsAlone _ _ halone _ List.prefix_rfl 2⟩

/-- A second request while the first one waits. -/
def overlappingDeliveries : List DeliveryAction :=
  sampleNotifications ++ [deliverAll, deliverAll, .finish 1 (.resolved "" "") 30,
    .finish 2 (.resolved "" "") 30, .finish 1 (.resolved "" "") 31,
    .finish 2 (.resolved "" "") 31]

/-- **A second request that begins meanwhile delivers again**: both hold the second
notification, and the command of each succeeds. -/
theorem not_deliveredOnce_sampleOverlap :
    ¬ ∀ p, p <+: overlappingDeliveries → ∀ id,
      successes id ((notificationDelivery sampleNotificationSite).trace .initial p) ≤ 1 := by
  intro h
  have htwice : successes 2 ((notificationDelivery sampleNotificationSite).trace .initial
      overlappingDeliveries) = 2 := by
    decide +kernel
  exact absurd (h _ List.prefix_rfl 2) (by rw [htwice]; decide)

end MissionControl
