import MissionControl.BulkUpdate

/-!
# First deliveries of webhooks

The webhook listener hears every event on the bus, maps its type to a webhook
event type – partly by what the event holds – and sends it to every enabled
webhook that is subscribed to that type.

Creating, updating and deleting a task is announced twice: by the activity
log, as `activity.created`, and by the route, as `task.created`,
`task.updated` or `task.deleted`. The map sends both to one webhook type. So
a subscribed webhook gets that type twice, unless the update changed nothing
that the activity log names.
-/

namespace MissionControl

/-! ## The listener -/

structure ServerEvent where
  type : String
  data : Json

/-- `EVENT_MAP`. -/
def EVENT_MAP : List (String × String) :=
  [("activity.created", "activity"), ("notification.created", "notification"),
    ("agent.status_changed", "agent.status_change"),
    ("audit.security", "security"), ("task.created", "activity.task_created"),
    ("task.updated", "activity.task_updated"),
    ("task.deleted", "activity.task_deleted")]

/-- A property of the event's data, if it is a text that is not empty. -/
def ServerEvent.text (event : ServerEvent) (key : String) : Option String :=
  match Json.get? (some event.data) key with
  | some (.str s) => if s = "" then none else some s
  | _ => none

/-- The type of a mapped event, made specific by what the event holds. -/
def webhookEventType (mapping : String) (event : ServerEvent) : String :=
  if mapping = "activity" then
    (event.text "type").elim mapping ("activity." ++ ·)
  else if mapping = "notification" then
    (event.text "type").elim mapping ("notification." ++ ·)
  else if mapping = "security" then
    (event.text "action").elim mapping ("security." ++ ·)
  else mapping

/-- The webhook event types that an event on the bus is fired as. -/
def webhookEventTypes (event : ServerEvent) : List String :=
  match EVENT_MAP.lookup event.type with
  | none => []
  | some mapping =>
    webhookEventType mapping event ::
      (if event.type = "agent.status_changed" ∧ event.text "status" = some "error"
        then ["agent.error"] else [])

/-- A row of `webhooks`. -/
structure Webhook where
  name : String
  url : String
  secret : Option String
  events : String
  enabled : Bool

/-- Whether a webhook is subscribed to an event type, by name or by `*`. The
column `events` is parsed as JSON; where that fails it is not. -/
def Webhook.subscribed (rt : Runtime) (webhook : Webhook) (eventType : String) :
    Bool :=
  match Json.parse rt webhook.events.toList with
  | some (.arr events) =>
    events.any fun
      | .str s => s = "*" || s = eventType
      | _ => false
  | some (.str s) =>
    includes s "*" || includes s eventType
  | _ => false

structure Delivery where
  webhookId : ℕ
  eventType : String
  payload : Json

/-- `fireWebhooksAsync`. -/
def fireWebhooks (rt : Runtime) (webhooks : Table Webhook) (eventType : String)
    (payload : Json) : List Delivery :=
  (webhooks.rows.filter fun r => r.2.enabled && r.2.subscribed rt eventType).map
    fun r => ⟨r.1, eventType, payload⟩

/-- What the listener makes of the events that are broadcast. -/
def firstDeliveries (rt : Runtime) (webhooks : Table Webhook)
    (events : List ServerEvent) : List Delivery :=
  events.flatMap fun event =>
    (webhookEventTypes event).flatMap fun eventType =>
      fireWebhooks rt webhooks eventType event.data

/-- How many of the deliveries go to a webhook with an event type. -/
def deliveryCount (deliveries : List Delivery) (webhookId : ℕ)
    (eventType : String) : ℕ :=
  deliveries.countP fun d => d.webhookId = webhookId && d.eventType = eventType

/-! ## What the bus carries -/

def Activity.json (id : ℕ) (activity : Activity) : Json :=
  .obj [("id", .ofNat id), ("type", .str activity.type),
    ("entity_type", .str activity.entityType),
    ("entity_id", .ofNat activity.entityId), ("actor", .str activity.actor),
    ("description", .str activity.description),
    ("data", activity.data.getD .null), ("created_at", .ofNat activity.createdAt)]

def Notification.json (id : ℕ) (notification : Notification) : Json :=
  .obj [("id", .ofNat id), ("recipient", .str notification.recipient),
    ("type", .str notification.type), ("title", .str notification.title),
    ("message", .str notification.message),
    ("source_type", .ofText notification.sourceType),
    ("source_id", (notification.sourceId.map .ofNat).getD .null),
    ("created_at", .ofNat notification.createdAt)]

/-- An event of the task requests, as the bus carries it. -/
def BusEvent.serverEvent : BusEvent → ServerEvent
  | activityCreated id activity => ⟨"activity.created", activity.json id⟩
  | notificationCreated id notification =>
    ⟨"notification.created", notification.json id⟩
  | taskCreated task => ⟨"task.created", task.json⟩
  | taskUpdated task => ⟨"task.updated", task.json⟩
  | taskDeleted id title =>
    ⟨"task.deleted", .obj [("id", .ofNat id), ("title", .str title)]⟩
  | taskStatusChanged id status updatedAt =>
    ⟨"task.status_changed", .obj [("id", .ofNat id), ("status", .str status.text),
      ("updated_at", .ofNat updatedAt)]⟩
  | githubSynced repo imported skipped errors timestamp =>
    ⟨"github.synced", .obj [("repo", .str repo), ("imported", .ofNat imported),
      ("skipped", .ofNat skipped), ("errors", .ofNat errors),
      ("timestamp", .ofNat timestamp)]⟩

/-- The webhook event types of an event of the task requests. -/
def BusEvent.webhookTypes (e : BusEvent) : List String :=
  webhookEventTypes e.serverEvent

theorem webhookTypes_activityCreated (id : ℕ) (activity : Activity)
    (h : activity.type ≠ "") :
    (BusEvent.activityCreated id activity).webhookTypes
      = ["activity." ++ activity.type] := by
  have htext : (BusEvent.activityCreated id activity).serverEvent.text "type"
      = some activity.type := if_neg h
  show webhookEventType "activity" _ :: [] = _
  rw [webhookEventType, if_pos rfl, htext]
  rfl

theorem webhookTypes_notificationCreated (id : ℕ) (notification : Notification)
    (h : notification.type ≠ "") :
    (BusEvent.notificationCreated id notification).webhookTypes
      = ["notification." ++ notification.type] := by
  have htext : (BusEvent.notificationCreated id notification).serverEvent.text "type"
      = some notification.type := if_neg h
  show webhookEventType "notification" _ :: [] = _
  rw [webhookEventType, if_neg (by decide), if_pos rfl, htext]
  rfl

@[simp] theorem webhookTypes_taskCreated (task : ParsedTask) :
    (BusEvent.taskCreated task).webhookTypes = ["activity.task_created"] := rfl

@[simp] theorem webhookTypes_taskUpdated (task : ParsedTask) :
    (BusEvent.taskUpdated task).webhookTypes = ["activity.task_updated"] := rfl

@[simp] theorem webhookTypes_taskDeleted (id : ℕ) (title : String) :
    (BusEvent.taskDeleted id title).webhookTypes = ["activity.task_deleted"] := rfl

/-! ## Counting -/

/-- Whether a webhook is there, enabled and subscribed to an event type. -/
def Hears (rt : Runtime) (webhooks : Table Webhook) (id : ℕ) (eventType : String) :
    Prop :=
  ∃ webhook, webhooks.row id = some webhook ∧ webhook.enabled = true
    ∧ webhook.subscribed rt eventType = true

theorem countP_of_nodup_keys {α : Type} {rows : List (ℕ × α)} {p : α → Bool}
    (hrows : (rows.map Prod.fst).Nodup) {id : ℕ} {a : α} (hmem : (id, a) ∈ rows)
    (ha : p a = true) :
    rows.countP (fun r => r.1 = id && p r.2) = 1 := by
  induction rows with
  | nil => cases hmem
  | cons r rows ih =>
    obtain ⟨hr, hrest⟩ := List.nodup_cons.mp hrows
    rcases List.mem_cons.mp hmem with rfl | hmem
    · rw [List.countP_cons_of_pos (by simp [ha]), List.countP_eq_zero.mpr]
      intro r' hr'
      simp only [Bool.and_eq_true, decide_eq_true_eq, not_and]
      rintro rfl
      exact absurd (List.mem_map_of_mem hr') hr
    · rw [List.countP_cons_of_neg, ih hrest hmem]
      simp only [Bool.and_eq_true, decide_eq_true_eq, not_and]
      rintro rfl
      exact absurd (List.mem_map_of_mem hmem) hr

variable {rt : Runtime} {webhooks : Table Webhook}

/-- **One firing reaches a webhook that hears it once.** -/
theorem deliveryCount_fireWebhooks {id : ℕ} {eventType : String}
    (h : Hears rt webhooks id eventType) (fired : String) (payload : Json) :
    deliveryCount (fireWebhooks rt webhooks fired payload) id eventType
      = [fired].count eventType := by
  obtain ⟨webhook, hrow, henabled, hsubscribed⟩ := h
  unfold deliveryCount fireWebhooks
  rw [List.countP_map, List.countP_filter]
  by_cases heq : fired = eventType
  · subst heq
    rw [List.count_singleton_self]
    have hmem : (id, webhook) ∈ webhooks.rows := webhooks.mem_rows.mpr hrow
    rw [← countP_of_nodup_keys webhooks.nodup_rows hmem
      (p := fun w => w.enabled && w.subscribed rt fired)
      (by rw [henabled, hsubscribed]; rfl)]
    exact List.countP_congr fun r _ => by simp
  · rw [List.count_eq_zero.mpr (by simpa using Ne.symm heq), List.countP_eq_zero]
    intro r _
    simp [heq]

theorem deliveryCount_flatMap {id : ℕ} {eventType : String}
    (h : Hears rt webhooks id eventType) (types : List String) (payload : Json) :
    deliveryCount (types.flatMap (fireWebhooks rt webhooks · payload)) id eventType
      = types.count eventType := by
  induction types with
  | nil => rfl
  | cons fired types ih =>
    have hhead := deliveryCount_fireWebhooks h fired payload
    unfold deliveryCount at ih hhead ⊢
    rw [List.flatMap_cons, List.countP_append, ih, hhead, ← List.count_append,
      List.singleton_append]

/-- **Each event type fired on the bus reaches a webhook that hears it once.** -/
theorem deliveryCount_firstDeliveries {id : ℕ} {eventType : String}
    (h : Hears rt webhooks id eventType) (events : List BusEvent) :
    deliveryCount (firstDeliveries rt webhooks (events.map BusEvent.serverEvent))
        id eventType
      = (events.flatMap BusEvent.webhookTypes).count eventType := by
  induction events with
  | nil => rfl
  | cons e events ih =>
    have hhead := deliveryCount_flatMap h e.webhookTypes e.serverEvent.data
    unfold deliveryCount firstDeliveries at ih
    unfold deliveryCount at hhead
    unfold deliveryCount firstDeliveries
    rw [List.map_cons, List.flatMap_cons, List.countP_append, ih,
      List.flatMap_cons, List.count_append, ← hhead]
    rfl

/-! ## The operations -/

/-- **An operation on one task.** A bulk update performs its moves one after
another, and each of them is an operation on the database it finds. -/
inductive TaskOperation where
  | create (body : Option Json)
  | update (idText : String) (body : Option Json)
  | delete (idText : String)
  | move (move : StatusMove)

namespace TaskOperation

variable (ctx : RequestContext) (db : TaskDb)

def run (rt : Runtime) : TaskOperation → Work × ApiResponse
  | create body => postTasks rt ctx body db
  | update idText body => putTask rt ctx idText body db
  | delete idText => deleteTask ctx idText db
  | move m => bulkUpdate ctx [m] db

def activityType : TaskOperation → String
  | create _ => "activity.task_created"
  | update _ _ => "activity.task_updated"
  | delete _ => "activity.task_deleted"
  | move _ => "activity.task_updated"

/-- The operation is a move, or an update that names no other status, assignee,
title or priority than the task has. -/
def Quiet : TaskOperation → Prop
  | create _ => False
  | update idText body =>
    ∀ j data n id task, body = some j → updateTaskSchema.read j = .ok data →
      parseInt idText = some n → db.findTask n = some (id, task) →
      data.changes task = []
  | delete _ => False
  | move _ => True

end TaskOperation

/-! ## What an operation fires -/

/-- The webhook event types of what has been broadcast. -/
def Work.types (w : Work) : List String := w.events.flatMap BusEvent.webhookTypes

/-- A list that is there under a condition. -/
def onlyIf (c : Bool) (xs : List String) : List String := if c then xs else []

namespace Work

variable (w : Work) (ctx : RequestContext)

theorem types_broadcast (e : BusEvent) :
    (w.broadcast e).types = w.types ++ e.webhookTypes := by
  unfold types
  rw [events_broadcast, List.flatMap_append, List.flatMap_singleton]

theorem types_logActivity (activity : Activity) (h : activity.type ≠ "") :
    (w.logActivity activity).types = w.types ++ ["activity." ++ activity.type] := by
  rw [← webhookTypes_activityCreated _ activity h]
  exact types_broadcast _ _

theorem types_createNotification (recipient type title message : String) (id : ℕ)
    (h : type ≠ "") :
    (w.createNotification ctx recipient type title message id).types
      = w.types ++ ["notification." ++ type] := by
  refine (types_broadcast _ _).trans ?_
  rw [webhookTypes_notificationCreated _ _ h]
  rfl

theorem types_ensureTaskSubscription (id : ℕ) (agentName : String) :
    (w.ensureTaskSubscription id agentName).types = w.types := by
  unfold types
  rw [events_ensureTaskSubscription]

theorem types_doIf (c : Bool) {f : Work → Work} (fired : List String)
    (h : ∀ w, (f w).types = w.types ++ fired) :
    (w.doIf c f).types = w.types ++ onlyIf c fired := by
  unfold doIf onlyIf
  split
  · exact h w
  · rw [List.append_nil]

end Work

theorem types_createTaskWork (rt : Runtime) (ctx : RequestContext) (title : String)
    (body : TaskFields) (db : TaskDb) :
    (createTaskWork rt ctx title body db).types
      = "activity.task_created" ::
        onlyIf (body.assignedTo.getD "" ≠ "") ["notification.assignment"] := by
  unfold createTaskWork
  rw [Work.types_doIf _ _ ["notification.assignment"]]
  · rw [Work.types_ensureTaskSubscription, Work.types_logActivity _ _
      (show "task_created" ≠ "" by decide)]
    rfl
  · intro w
    rw [Work.types_createNotification _ _ _ _ _ _ _ (by decide),
      Work.types_ensureTaskSubscription]
    rfl

/-- **What `PUT` fires before its last event.** -/
theorem types_announceUpdate (ctx : RequestContext) (id : ℕ) (task : TaskRow)
    (body : TaskFields) (w : Work) :
    (announceUpdate ctx id task body w).types
      = w.types
        ++ onlyIf (body.movesStatus task && task.assignedTo.getD "" ≠ "")
          ["notification.status_change"]
        ++ onlyIf (body.reassigns task && body.assignedTo.getD "" ≠ "")
          ["notification.assignment"]
        ++ onlyIf (body.changes task ≠ []) ["activity.task_updated"] := by
  unfold announceUpdate
  rw [Work.types_doIf _ _ ["activity.task_updated"],
    Work.types_doIf _ _ ["notification.assignment"],
    Work.types_doIf _ _ ["notification.status_change"]]
  · intro w
    exact Work.types_createNotification _ _ _ _ _ _ _ (by decide)
  · intro w
    rw [Work.types_createNotification _ _ _ _ _ _ _ (by decide),
      Work.types_ensureTaskSubscription]
    rfl
  · intro w
    exact Work.types_logActivity _ _ (show "task_updated" ≠ "" by decide)

theorem onlyIf_sublist (c : Bool) (xs : List String) : (onlyIf c xs).Sublist xs := by
  unfold onlyIf
  split
  · exact List.Sublist.refl _
  · exact List.nil_sublist _

theorem notifications_sublist (c d : Bool) :
    (onlyIf c ["notification.status_change"]
      ++ onlyIf d ["notification.assignment"]).Sublist
      ["notification.status_change", "notification.assignment"] :=
  (onlyIf_sublist c _).append (onlyIf_sublist d _)

theorem Work.types_move (ctx : RequestContext) (w : Work) (move : StatusMove) :
    ∃ c, (w.move ctx move).types = w.types ++ onlyIf c ["activity.task_updated"] := by
  unfold Work.move
  dsimp only
  cases w.db.tasks.row move.id with
  | none => exact ⟨false, (List.append_nil _).symm⟩
  | some t =>
    refine ⟨decide (t.status ≠ move.status), ?_⟩
    dsimp only
    rw [Work.types_doIf _ _ ["activity.task_updated"]]
    · rfl
    · intro w
      exact Work.types_logActivity _ _ (show "task_updated" ≠ "" by decide)

theorem Work.types_respond (rt : Runtime) (w : Work) {id status : ℕ}
    {event : ParsedTask → BusEvent} {failure : String} {fired : List String}
    (hfired : ∀ task, (event task).webhookTypes = fired)
    (hdone : (w.respond rt id event status failure).2.status < 400) :
    (w.respond rt id event status failure).1.types = w.types ++ fired := by
  rcases Work.respond_cases rt w id event status failure with
    hno | ⟨task, -, hyes⟩
  · rw [hno] at hdone
    exact absurd hdone (show ¬ 500 < 400 by decide)
  · rw [hyes, Work.types_broadcast, hfired]

/-- What an operation that is performed fires: some types once, and the type
of the operation so often. -/
def Fires (types : List String) (activityType : String) (times : ℕ) : Prop :=
  ∃ others : List String, types.Perm (others ++ List.replicate times activityType)
    ∧ others.Nodup ∧ activityType ∉ others

theorem Fires.count_le_one_iff {types : List String} {activityType : String}
    {times : ℕ} (h : Fires types activityType times) (eventType : String) :
    types.count eventType ≤ 1 ↔ eventType ≠ activityType ∨ times ≤ 1 := by
  obtain ⟨others, hperm, hnodup, hnot⟩ := h
  rw [hperm.count_eq, List.count_append, List.count_replicate]
  by_cases heq : eventType = activityType
  · subst heq
    rw [List.count_eq_zero.mpr hnot]
    simp
  · have hle := List.nodup_iff_count_le_one.mp hnodup eventType
    simpa [heq, Ne.symm heq] using hle

namespace TaskOperation

variable (rt : Runtime) (ctx : RequestContext) (db : TaskDb)

theorem fires_create {body : Option Json}
    (hdone : ((create body).run ctx db rt).2.status < 400) :
    Fires ((create body).run ctx db rt).1.types "activity.task_created" 2 := by
  simp only [run, postTasks] at hdone ⊢
  rcases withBody_cases createTaskSchema body db (createTask rt ctx · db) with
    ⟨response, heq, hstatus⟩ | ⟨j, data, -, -, heq⟩
  · rw [heq] at hdone
    exact absurd hdone (Nat.not_lt.mpr hstatus)
  · rw [heq] at hdone ⊢
    rcases createTask_cases rt ctx data db with
      ⟨response, heq, hstatus⟩ | ⟨title, -, -, heq⟩
    · rw [heq] at hdone
      exact absurd hdone (Nat.not_lt.mpr hstatus)
    · rw [heq] at hdone ⊢
      rw [Work.types_respond rt _ webhookTypes_taskCreated hdone,
        types_createTaskWork]
      refine ⟨onlyIf (data.assignedTo.getD "" ≠ "") ["notification.assignment"],
        ?_, (onlyIf_sublist _ _).nodup (List.nodup_singleton _), fun hmem => ?_⟩
      · exact (List.perm_append_singleton _ _).symm.trans (by simp [List.replicate])
      · exact absurd ((onlyIf_sublist _ _).subset hmem) (by decide)

/-- **An update is fired twice if it changes something that the activity log
names**, and else once. -/
theorem fires_update {idText : String} {body : Option Json}
    (hdone : ((update idText body).run ctx db rt).2.status < 400) :
    ∃ j data n id task, body = some j ∧ updateTaskSchema.read j = .ok data
      ∧ parseInt idText = some n ∧ db.findTask n = some (id, task)
      ∧ Fires ((update idText body).run ctx db rt).1.types "activity.task_updated"
        (if data.changes task ≠ [] then 2 else 1) := by
  simp only [run, putTask] at hdone ⊢
  rcases withBody_cases updateTaskSchema body db (updateTask rt ctx idText · db) with
    ⟨response, heq, hstatus⟩ | ⟨j, data, hbody, hread, heq⟩
  · rw [heq] at hdone
    exact absurd hdone (Nat.not_lt.mpr hstatus)
  · rw [heq] at hdone ⊢
    rcases updateTask_cases rt ctx idText data db with
      ⟨response, heq, hstatus⟩ | ⟨n, id, task, hn, hfind, -, heq⟩
    · rw [heq] at hdone
      exact absurd hdone (Nat.not_lt.mpr hstatus)
    · rw [heq] at hdone ⊢
      refine ⟨j, data, n, id, task, hbody, hread, hn, hfind, ?_⟩
      rw [Work.types_respond rt _ webhookTypes_taskUpdated hdone,
        types_announceUpdate]
      have hsub := notifications_sublist
        (data.movesStatus task && task.assignedTo.getD "" ≠ "")
        (data.reassigns task && data.assignedTo.getD "" ≠ "")
      refine ⟨_, .of_eq ?_, hsub.nodup (by decide), fun hmem => ?_⟩
      · rw [List.append_assoc]
        refine congrArg₂ (· ++ ·) rfl ?_
        by_cases hchanges : data.changes task = []
        · simp [hchanges, onlyIf]
        · simp [hchanges, onlyIf, List.replicate]
      · exact absurd (hsub.subset hmem) (by decide)

theorem fires_delete {idText : String}
    (hdone : ((delete idText).run ctx db rt).2.status < 400) :
    Fires ((delete idText).run ctx db rt).1.types "activity.task_deleted" 2 := by
  simp only [run, deleteTask] at hdone ⊢
  cases hn : parseInt idText with
  | none =>
    simp only [hn] at hdone
    exact absurd hdone (by decide)
  | some n =>
    simp only [hn] at hdone ⊢
    cases hfind : db.findTask n with
    | none =>
      simp only [hfind] at hdone
      exact absurd hdone (show ¬ 404 < 400 by decide)
    | some found =>
      dsimp only
      rw [Work.types_broadcast,
        Work.types_logActivity _ _ (show "task_deleted" ≠ "" by decide),
        webhookTypes_taskDeleted]
      exact ⟨[], .of_eq rfl, List.nodup_nil, List.not_mem_nil⟩

theorem fires_move (m : StatusMove) :
    ∃ times, times ≤ 1
      ∧ Fires ((move m).run ctx db rt).1.types "activity.task_updated" times := by
  simp only [run, bulkUpdate, Work.moveAll]
  by_cases hrefused : m.refused ctx db = true
  · rw [if_pos hrefused]
    exact ⟨0, Nat.zero_le 1, [], .of_eq rfl, List.nodup_nil, List.not_mem_nil⟩
  · rw [if_neg hrefused]
    obtain ⟨c, hc⟩ := Work.types_move ctx ⟨db, []⟩ m
    have htypes : Work.types ⟨((⟨db, []⟩ : Work).move ctx m).db,
        ((⟨db, []⟩ : Work).move ctx m).events
          ++ [m].map (fun m => .taskStatusChanged m.id m.status ctx.now)⟩
        = onlyIf c ["activity.task_updated"] :=
      (Work.types_broadcast _ _).trans ((List.append_nil _).trans hc)
    refine ⟨if c then 1 else 0, by split <;> omega, [], .of_eq ?_, List.nodup_nil,
      List.not_mem_nil⟩
    refine htypes.trans ?_
    unfold onlyIf
    split <;> rfl

/-- **An operation fires its own type once if it is quiet, and else twice.** -/
theorem exists_fires (op : TaskOperation)
    (hdone : (op.run ctx db rt).2.status < 400) :
    ∃ times, Fires (op.run ctx db rt).1.types op.activityType times
      ∧ (times ≤ 1 ↔ op.Quiet db) := by
  cases op with
  | create body => exact ⟨2, fires_create rt ctx db hdone, by simp [Quiet]⟩
  | delete idText => exact ⟨2, fires_delete rt ctx db hdone, by simp [Quiet]⟩
  | move m =>
    obtain ⟨times, hle, hfires⟩ := fires_move rt ctx db m
    exact ⟨times, hfires, iff_of_true hle trivial⟩
  | update idText body =>
    obtain ⟨j, data, n, id, task, rfl, hread, hn, hfind, hfires⟩ :=
      fires_update rt ctx db hdone
    refine ⟨_, hfires, ?_⟩
    by_cases hchanges : data.changes task = []
    · refine iff_of_true (by simp [hchanges]) ?_
      intro j' data' n' id' task' hj hread' hn' hfind'
      cases hj
      cases hread.symm.trans hread'
      cases hn.symm.trans hn'
      cases hfind.symm.trans hfind'
      exact hchanges
    · refine iff_of_false (by simp [hchanges]) fun hquiet => ?_
      exact hchanges (hquiet j data n id task rfl hread hn hfind)

end TaskOperation

/-- **A webhook that hears an event type gets it at most once from an operation
that is performed exactly when it is not the type of the operation, or the
operation is quiet.** -/
theorem deliveryCount_le_one_iff (rt : Runtime) (ctx : RequestContext) (db : TaskDb)
    (op : TaskOperation) (hdone : (op.run ctx db rt).2.status < 400)
    {webhooks : Table Webhook} {id : ℕ} {eventType : String}
    (hhears : Hears rt webhooks id eventType) :
    deliveryCount (firstDeliveries rt webhooks
        ((op.run ctx db rt).1.events.map BusEvent.serverEvent)) id eventType ≤ 1
      ↔ eventType ≠ op.activityType ∨ op.Quiet db := by
  obtain ⟨times, hfires, htimes⟩ := op.exists_fires rt ctx db hdone
  rw [deliveryCount_firstDeliveries hhears, ← htimes]
  exact hfires.count_le_one_iff eventType

/-- A webhook for all events. -/
def sampleWebhooks : Table Webhook :=
  Table.empty.insert ⟨"all", "http://localhost", none, "[\"*\"]", true⟩

theorem hears_sampleWebhooks (eventType : String) :
    Hears sampleRuntime sampleWebhooks 1 eventType := by
  refine ⟨_, rfl, rfl, ?_⟩
  have hparse : Json.parse sampleRuntime "[\"*\"]".toList = some (.arr [.str "*"]) := by
    rfl
  unfold Webhook.subscribed
  rw [hparse]
  rfl

/-- A deletion of the sample task. -/
theorem deliveryCount_le_one_iff_sample :
    deliveryCount (firstDeliveries sampleRuntime sampleWebhooks
        ((TaskOperation.run sampleContext (sampleTasks [sampleTask]) sampleRuntime
          (.delete "1")).1.events.map BusEvent.serverEvent)) 1 "activity.task_updated"
        ≤ 1
      ↔ "activity.task_updated" ≠ "activity.task_deleted"
        ∨ TaskOperation.Quiet (sampleTasks [sampleTask]) (.delete "1") :=
  deliveryCount_le_one_iff sampleRuntime sampleContext (sampleTasks [sampleTask])
    (.delete "1") (by decide) (hears_sampleWebhooks _)

/-- **The creation of a task is delivered twice.** -/
theorem not_deliveryCount_le_one :
    ¬ ∀ (rt : Runtime) (ctx : RequestContext) (db : TaskDb) (op : TaskOperation),
      (op.run ctx db rt).2.status < 400 →
      ∀ (webhooks : Table Webhook) (id : ℕ) (eventType : String),
        Hears rt webhooks id eventType →
        deliveryCount (firstDeliveries rt webhooks
          ((op.run ctx db rt).1.events.map BusEvent.serverEvent)) id eventType ≤ 1 := by
  intro h
  have hle := h sampleRuntime sampleContext .empty
    (.create (some (.obj [("title", .str "Fix login")]))) (by decide) sampleWebhooks 1
    "activity.task_created" (hears_sampleWebhooks _)
  rw [deliveryCount_firstDeliveries (hears_sampleWebhooks _)] at hle
  have hcount : ((TaskOperation.run sampleContext .empty sampleRuntime
      (.create (some (.obj [("title", .str "Fix login")])))).1.events.flatMap
      BusEvent.webhookTypes).count "activity.task_created" = 2 := by decide
  omega

end MissionControl
