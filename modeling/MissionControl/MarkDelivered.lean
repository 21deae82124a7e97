import MissionControl.Library.Machine
import MissionControl.Library.Ranking
import MissionControl.Tasks

/-!
# Marking notifications as delivered

`POST /api/notifications` marks the undelivered notifications of an agent as delivered,
and answers with what it has marked. It reads that back from the table, by the second in
which the notifications were delivered. So it also answers with those that were delivered
earlier within the same second (`not_returnsMarked_sampleSecond`).

Where no notification of the agent was delivered in the second of a call, the call returns
what was undelivered; over a run of such calls each notification is returned once
(`markDelivered_returns_iff`).
-/

namespace MissionControl

/-! ## The request -/

/-- `notificationActionSchema`: the name of the agent. -/
def notificationActionSchema : Reader String :=
  .object fun fields =>
    ((Checked.ap (.ok fun _ agent => agent)
      ((Reader.enum [("mark-delivered", ())]).field "action" fields)).ap
      ((Reader.string.minLength 1 (some "Agent name is required")).field "agent" fields))

/-- How the database orders the notifications of an answer. -/
abbrev MarkOrder := Descending fun r : ℕ × Notification => r.2.createdAt

/-- The answer of `POST /api/notifications`. -/
inductive MarkResponse where
  | refused (response : ApiResponse)
  | marked (delivered : ℕ) (notifications : List (ℕ × Notification))

/-- `WHERE recipient = ? AND delivered_at IS NULL`. -/
def undeliveredTo (agent : String) (n : Notification) : Bool :=
  decide (n.recipient = agent) && n.deliveredAt.isNone

/-- `WHERE recipient = ? AND delivered_at = ?`. -/
def deliveredTo (agent : String) (now : ℕ) (n : Notification) : Bool :=
  decide (n.recipient = agent) && decide (n.deliveredAt = some now)

/-- `SET delivered_at = ?`, of an undelivered notification of the agent. -/
def markDelivered (agent : String) (now : ℕ) (n : Notification) : Notification :=
  if undeliveredTo agent n then { n with deliveredAt := some now } else n

/-- **`POST /api/notifications`.** -/
def postNotifications (order : MarkOrder) (s : Table Notification) (body : Option Json)
    (now : ℕ) : Table Notification × MarkResponse :=
  match validateBody notificationActionSchema body with
  | .error response => (s, .refused response)
  | .ok agent =>
    let s' := s.updateAll fun _ => markDelivered agent now
    (s', .marked (s.rows.countP fun r => undeliveredTo agent r.2)
      (order.sort (s'.rows.filter fun r => deliveredTo agent now r.2)))

/-- What happens to the notifications: a new one, and a call at some second. -/
inductive MarkAction where
  | notify (n : Notification)
  | post (body : Option Json) (now : ℕ)

/-- **The notifications and the calls that mark them.** A new notification is neither read
nor delivered. -/
def notificationMarks (order : MarkOrder) :
    Machine (Table Notification) MarkAction MarkResponse where
  step s
    | .notify n => (s.insert { n with readAt := none, deliveredAt := none }, [])
    | .post body now =>
      let answered := postNotifications order s body now
      (answered.1, [answered.2])

/-! ## What a call returns -/

/-- **The call returns what it marks**: just the notifications that were undelivered, and
their number. -/
def ReturnsMarked (order : MarkOrder) (s : Table Notification) : MarkAction → Prop
  | .notify _ => True
  | .post body now =>
    ∀ agent delivered notifications, validateBody notificationActionSchema body = .ok agent →
      (postNotifications order s body now).2 = .marked delivered notifications →
        notifications.Perm ((s.rows.filter fun r => undeliveredTo agent r.2).map
            fun r => (r.1, { r.2 with deliveredAt := some now }))
          ∧ delivered = notifications.length

/-- **No notification of the agent was delivered in the second of the call.** -/
def NoneDeliveredAt (s : Table Notification) : MarkAction → Prop
  | .notify _ => True
  | .post body now =>
    ∀ agent, validateBody notificationActionSchema body = .ok agent →
      ∀ id n, s.row id = some n → deliveredTo agent now n = false

section Call

variable {order : MarkOrder} {s : Table Notification} {agent : String} {now : ℕ}

theorem markDelivered_of_undelivered {n : Notification} (h : undeliveredTo agent n = true) :
    markDelivered agent now n = { n with deliveredAt := some now } := if_pos h

theorem deliveredTo_markDelivered (n : Notification) :
    deliveredTo agent now (markDelivered agent now n)
      = (undeliveredTo agent n || deliveredTo agent now n) := by
  cases h : undeliveredTo agent n with
  | false =>
    rw [markDelivered, h, Bool.false_or]
    rfl
  | true =>
    rw [markDelivered_of_undelivered h, Bool.true_or]
    unfold deliveredTo
    rw [(Bool.and_eq_true_iff.mp h).1, decide_eq_true rfl]
    rfl

/-- What an accepted call reads back: what it has marked, and what was delivered within the
same second. -/
theorem filter_deliveredTo :
    ((s.updateAll fun _ => markDelivered agent now).rows.filter
        fun r => deliveredTo agent now r.2)
      = (s.rows.filter fun r => undeliveredTo agent r.2 || deliveredTo agent now r.2).map
        fun r => (r.1, markDelivered agent now r.2) := by
  rw [Table.rows_updateAll, List.filter_map]
  refine congrArg _ (List.filter_congr fun r _ => ?_)
  exact deliveredTo_markDelivered r.2

theorem countP_or_deliveredTo (agent : String) (now : ℕ) (rows : List (ℕ × Notification)) :
    rows.countP (fun r => undeliveredTo agent r.2 || deliveredTo agent now r.2)
      = rows.countP (fun r => undeliveredTo agent r.2)
        + rows.countP fun r => deliveredTo agent now r.2 := by
  induction rows with
  | nil => rfl
  | cons r rows ih =>
    rw [List.countP_cons, List.countP_cons, List.countP_cons, ih]
    unfold undeliveredTo deliveredTo
    cases hdelivered : r.2.deliveredAt <;> cases hagent : decide (r.2.recipient = agent)
    all_goals simp
    all_goals omega

theorem postNotifications_ok {body : Option Json}
    (h : validateBody notificationActionSchema body = .ok agent) :
    postNotifications order s body now
      = (s.updateAll fun _ => markDelivered agent now,
        .marked (s.rows.countP fun r => undeliveredTo agent r.2)
          (order.sort ((s.rows.filter fun r =>
            undeliveredTo agent r.2 || deliveredTo agent now r.2).map
              fun r => (r.1, markDelivered agent now r.2)))) := by
  unfold postNotifications
  rw [h]
  dsimp only
  rw [filter_deliveredTo]

theorem map_markDelivered_filter
    (hnone : ∀ id n, s.row id = some n → deliveredTo agent now n = false) :
    ((s.rows.filter fun r => undeliveredTo agent r.2 || deliveredTo agent now r.2).map
        fun r => (r.1, markDelivered agent now r.2))
      = (s.rows.filter fun r => undeliveredTo agent r.2).map
        fun r => (r.1, { r.2 with deliveredAt := some now }) := by
  rw [List.filter_congr (q := fun r => undeliveredTo agent r.2) fun r hr => ?_]
  · refine List.map_congr_left fun r hr => ?_
    rw [markDelivered_of_undelivered (List.mem_filter.mp hr).2]
  · rw [hnone r.1 r.2 (s.mem_rows.mp hr), Bool.or_false]

/-- **A call returns what it marks** exactly where nothing was delivered to the agent within
the same second. -/
theorem returnsMarked_iff (order : MarkOrder) (s : Table Notification) (a : MarkAction) :
    ReturnsMarked order s a ↔ NoneDeliveredAt s a := by
  cases a with
  | notify n => exact Iff.rfl
  | post body now =>
    constructor
    · intro h agent hbody id n hn
      obtain ⟨hperm, -⟩ := h agent _ _ hbody (by rw [postNotifications_ok hbody])
      have hlength := ((order.perm _).symm.trans hperm).length_eq
      rw [List.length_map, List.length_map, ← List.countP_eq_length_filter,
        ← List.countP_eq_length_filter, countP_or_deliveredTo] at hlength
      have hzero : (s.rows.countP fun r => deliveredTo agent now r.2) = 0 := by omega
      exact Bool.eq_false_iff.mpr (List.countP_eq_zero.mp hzero (id, n) (s.mem_rows.mpr hn))
    · intro h agent delivered notifications hbody hanswer
      rw [postNotifications_ok hbody, map_markDelivered_filter (h agent hbody)] at hanswer
      obtain ⟨rfl, rfl⟩ := MarkResponse.marked.inj hanswer
      refine ⟨order.perm _, ?_⟩
      rw [(order.perm _).length_eq, List.length_map, List.countP_eq_length_filter]

end Call

/-! ## Returned once -/

/-- How often a notification is in an answer. -/
def MarkResponse.returns (id : ℕ) : MarkResponse → ℕ
  | refused _ => 0
  | marked _ notifications => (notifications.map Prod.fst).count id

def returned (id : ℕ) (es : List MarkResponse) : ℕ := (es.map (·.returns id)).sum

def isDelivered (s : Table Notification) (id : ℕ) : Bool :=
  (s.row id).any (·.deliveredAt.isSome)

/-- **What a step delivers is what it returns**, where nothing was delivered to the agent
within the same second. -/
theorem returned_emits {order : MarkOrder} {s : Table Notification} {a : MarkAction}
    (h : NoneDeliveredAt s a) (id : ℕ) :
    returned id ((notificationMarks order).emits s a) + (isDelivered s id).toNat
      = (isDelivered ((notificationMarks order).next s a) id).toNat := by
  cases a with
  | notify n =>
    show 0 + _ = (isDelivered (s.insert _) id).toNat
    rw [Nat.zero_add]
    refine congrArg Bool.toNat ?_
    unfold isDelivered
    by_cases hid : id = s.next
    · rw [hid, s.row_next, s.row_insert_next]
      rfl
    · rw [s.row_insert_of_ne _ hid]
  | post body now =>
    cases hbody : validateBody notificationActionSchema body with
    | error response =>
      unfold Machine.emits Machine.next notificationMarks postNotifications
      dsimp only
      rw [hbody]
      exact Nat.zero_add _
    | ok agent =>
      unfold Machine.emits Machine.next notificationMarks
      dsimp only
      rw [postNotifications_ok hbody, map_markDelivered_filter (h agent hbody)]
      show (MarkResponse.returns id (.marked _ _) + 0) + _ = (isDelivered (s.updateAll _) id).toNat
      unfold MarkResponse.returns isDelivered
      dsimp only
      rw [Nat.add_zero, ((order.perm _).map Prod.fst).count_eq, List.map_map, Table.row_updateAll]
      show ((s.rows.filter fun r => undeliveredTo agent r.2).map Prod.fst).count id + _ = _
      rw [s.count_filter_rows (undeliveredTo agent) id]
      cases hrow : s.row id with
      | none => rfl
      | some n =>
        rw [Option.map_some, Option.any_some, Option.any_some, Option.any_some]
        cases hundelivered : undeliveredTo agent n with
        | true =>
          rw [markDelivered_of_undelivered hundelivered,
            Option.isNone_iff_eq_none.mp (Bool.and_eq_true_iff.mp hundelivered).2]
          rfl
        | false =>
          rw [markDelivered, hundelivered]
          exact Nat.zero_add _

/-- **Calls return what they mark** all along a run, and each notification once that is
delivered in it, exactly where no call is within the second of another delivery to its
agent. -/
theorem markDelivered_returns_iff (order : MarkOrder) (s₀ : Table Notification)
    (actions : List MarkAction) :
    ((notificationMarks order).EachStep (ReturnsMarked order) s₀ actions
        ∧ ∀ p, p <+: actions → ∀ id,
          returned id ((notificationMarks order).trace s₀ p) + (isDelivered s₀ id).toNat
            = (isDelivered ((notificationMarks order).state s₀ p) id).toNat)
      ↔ (notificationMarks order).EachStep NoneDeliveredAt s₀ actions := by
  constructor
  · rintro ⟨h, -⟩ p a hp
    exact (returnsMarked_iff order _ a).mp (h p a hp)
  · intro h
    refine ⟨fun p a hp => (returnsMarked_iff order _ a).mpr (h p a hp), fun p hp id => ?_⟩
    induction p using List.reverseRecOn with
    | nil => exact Nat.zero_add _
    | append_singleton p a ih =>
      have hpre := ih ((List.prefix_append p [a]).trans hp)
      rw [Machine.state_concat, ← returned_emits (h p a hp) id, ← hpre, Machine.trace_concat]
      unfold returned
      rw [List.map_append, List.sum_append]
      omega

/-! ## Two calls within a second -/

/-- A call for ada. -/
def sampleMark (now : ℕ) : MarkAction :=
  .post (some (.obj [("action", .str "mark-delivered"), ("agent", .str "ada")])) now

/-- A notification of ada. -/
def sampleNotify (title : String) : MarkAction :=
  .notify ⟨"ada", "mention", title, "See task 1", none, none, none, none, 100⟩

/-- Two calls, each after a new notification. -/
def sampleSecond : List MarkAction :=
  [sampleNotify "First", sampleMark 100, sampleNotify "Second", sampleMark 100]

/-- **The second call returns the first notification again.** -/
theorem not_returnsMarked_sampleSecond :
    ¬ ∀ (order : MarkOrder) (s₀ : Table Notification) (actions : List MarkAction),
      (notificationMarks order).EachStep (ReturnsMarked order) s₀ actions
        ∧ ∀ p, p <+: actions → ∀ id,
          returned id ((notificationMarks order).trace s₀ p) + (isDelivered s₀ id).toNat
            = (isDelivered ((notificationMarks order).state s₀ p) id).toNat := by
  intro h
  have hreturned := (h (.insertion _) .empty sampleSecond).2 sampleSecond List.prefix_rfl 1
  exact absurd hreturned (by decide +kernel)

end MissionControl
