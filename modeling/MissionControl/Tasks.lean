import MissionControl.JsonText
import MissionControl.Sql
import MissionControl.Validation
import MissionControl.Library.Table

/-!
# The tasks API

The requests that create, move, update and delete tasks. A request works on
the database and broadcasts events on the bus as it goes; both are carried by
a `Work`, and the helpers of the database – the activity log, notifications,
subscriptions – are functions on it. The columns `tags` and `metadata` are
JSON texts.

A request is served in one piece: it waits only for its body, before it reads
the database.

What a request logs, subscribes and notifies hangs on conditions, and touches no task and no
review: `doIf_frame` says so of all of it at once. So the cases of a request
(`createTask_cases`, `updateTask_cases`) are two, that it is refused or that it does its work.
-/

namespace MissionControl

/-! ## Rows -/

/-- **A row of `tasks`.** -/
structure TaskRow where
  title : String
  description : Option String
  status : TaskStatus
  priority : TaskPriority
  assignedTo : Option String
  createdBy : String
  createdAt : ℕ
  updatedAt : ℕ
  dueDate : Option JsNumber
  estimatedHours : Option JsNumber
  actualHours : Option JsNumber
  tags : Option String
  metadata : Option String
  deriving DecidableEq

/-- The columns of `tasks`, other than the id. -/
inductive TaskColumn where
  | title | description | status | priority | assignedTo | createdBy
  | createdAt | updatedAt | dueDate | estimatedHours | actualHours | tags
  | metadata
  deriving DecidableEq

def TaskColumn.name : TaskColumn → String
  | title => "title"
  | description => "description"
  | status => "status"
  | priority => "priority"
  | assignedTo => "assigned_to"
  | createdBy => "created_by"
  | createdAt => "created_at"
  | updatedAt => "updated_at"
  | dueDate => "due_date"
  | estimatedHours => "estimated_hours"
  | actualHours => "actual_hours"
  | tags => "tags"
  | metadata => "metadata"

/-- The columns, in the order of the table. -/
def TaskColumn.all : List TaskColumn :=
  [.title, .description, .status, .priority, .assignedTo, .createdBy,
    .createdAt, .updatedAt, .dueDate, .estimatedHours, .actualHours, .tags,
    .metadata]

def TaskRow.column (t : TaskRow) : TaskColumn → SqlValue
  | .title => .text t.title
  | .description => .ofText t.description
  | .status => .text t.status.text
  | .priority => .text t.priority.text
  | .assignedTo => .ofText t.assignedTo
  | .createdBy => .text t.createdBy
  | .createdAt => .ofTime t.createdAt
  | .updatedAt => .ofTime t.updatedAt
  | .dueDate => .ofNumber t.dueDate
  | .estimatedHours => .ofNumber t.estimatedHours
  | .actualHours => .ofNumber t.actualHours
  | .tags => .ofText t.tags
  | .metadata => .ofText t.metadata

/-- A row of `quality_reviews`. -/
structure QualityReview where
  taskId : ℕ
  reviewer : String
  status : ReviewStatus
  notes : String
  createdAt : ℕ
  deriving DecidableEq

/-- A row of `activities`. The column `data` holds the value as JSON text. -/
structure Activity where
  type : String
  entityType : String
  entityId : ℕ
  actor : String
  description : String
  data : Option Json
  createdAt : ℕ

/-- A row of `notifications`. -/
structure Notification where
  recipient : String
  type : String
  title : String
  message : String
  sourceType : Option String
  sourceId : Option ℕ
  readAt : Option ℕ
  deliveredAt : Option ℕ
  createdAt : ℕ

/-- A row of `task_subscriptions`. -/
structure TaskSubscription where
  taskId : ℕ
  agentName : String
  deriving DecidableEq

/-- A row of `github_syncs`. -/
structure GithubSync where
  repo : String
  lastSyncedAt : ℕ
  issueCount : ℕ
  status : String
  error : Option String

/-- **The tables the task requests write.** -/
structure TaskDb where
  tasks : Table TaskRow
  reviews : Table QualityReview
  activities : Table Activity
  notifications : Table Notification
  subscriptions : Table TaskSubscription
  githubSyncs : Table GithubSync

def TaskDb.empty : TaskDb := ⟨.empty, .empty, .empty, .empty, .empty, .empty⟩

/-- `SELECT * FROM tasks WHERE id = ?`, with a number. -/
def TaskDb.findTask (db : TaskDb) (n : ℤ) : Option (ℕ × TaskRow) :=
  if 0 ≤ n then (db.tasks.row n.toNat).map (fun t => (n.toNat, t)) else none

theorem TaskDb.findTask_eq_some {db : TaskDb} {n : ℤ} {id : ℕ} {t : TaskRow} :
    db.findTask n = some (id, t) ↔ n = id ∧ db.tasks.row id = some t := by
  unfold findTask
  split
  · next hn =>
    rw [Option.map_eq_some_iff]
    constructor
    · rintro ⟨t', ht', heq⟩
      obtain ⟨rfl, rfl⟩ := Prod.mk.inj heq
      exact ⟨(Int.toNat_of_nonneg hn).symm, ht'⟩
    · rintro ⟨rfl, ht⟩
      exact ⟨t, ht, rfl⟩
  · next hn =>
    constructor
    · intro h
      cases h
    · rintro ⟨rfl, -⟩
      exact absurd (Int.natCast_nonneg id) hn

/-! ## Events and answers -/

/-- An object some of whose properties may be `undefined`. -/
def Json.object (fields : List (String × Option Json)) : Json :=
  .obj (fields.filterMap (fun f => f.2.map (fun j => (f.1, j))))

def Json.ofNat (n : ℕ) : Json := .num (.finite n)

/-- A text, or `null`. -/
def Json.ofText (s : Option String) : Json := (SqlValue.ofText s).json

/-- A task as responses and events have it: the row, with `tags` and
`metadata` parsed. -/
structure ParsedTask where
  id : ℕ
  row : TaskRow
  tags : Json
  metadata : Json

def ParsedTask.json (t : ParsedTask) : Json :=
  .obj (("id", .ofNat t.id) :: TaskColumn.all.map (fun c =>
    (c.name, match c with
      | .tags => t.tags
      | .metadata => t.metadata
      | c => (t.row.column c).json)))

/-- **An event on the bus.** -/
inductive BusEvent where
  | activityCreated (id : ℕ) (activity : Activity)
  | notificationCreated (id : ℕ) (notification : Notification)
  | taskCreated (task : ParsedTask)
  | taskUpdated (task : ParsedTask)
  | taskDeleted (id : ℕ) (title : String)
  | taskStatusChanged (id : ℕ) (status : TaskStatus) (updatedAt : ℕ)
  | githubSynced (repo : String) (imported skipped errors timestamp : ℕ)

/-- The event is about the task of this id. -/
def BusEvent.About (id : ℕ) : BusEvent → Prop
  | activityCreated _ activity =>
    activity.entityType = "task" ∧ activity.entityId = id
  | notificationCreated _ notification =>
    notification.sourceType = some "task" ∧ notification.sourceId = some id
  | taskCreated task => task.id = id
  | taskUpdated task => task.id = id
  | taskDeleted id' _ => id' = id
  | taskStatusChanged id' _ _ => id' = id
  | githubSynced _ _ _ _ _ => False

/-- **The answer of a request.** -/
inductive ApiResponse where
  | invalid (issues : List Issue)
  | json (status : ℕ) (body : Json)

def ApiResponse.error (status : ℕ) (message : String) : ApiResponse :=
  .json status (.obj [("error", .str message)])

def ApiResponse.status : ApiResponse → ℕ
  | invalid _ => 400
  | json status _ => status

@[simp] theorem ApiResponse.status_error (status : ℕ) (message : String) :
    (ApiResponse.error status message).status = status := rfl

/-- `validateBody`. There is no body where it is not JSON. -/
def validateBody {α : Type} (schema : Reader α) (body : Option Json) :
    Except ApiResponse α :=
  match body with
  | none => .error (.error 400 "Invalid request body")
  | some j =>
    match schema.read j with
    | .ok a => .ok a
    | .error issues => .error (.invalid issues)

/-! ## What a request works on -/

/-- **The database, and what has been broadcast.** -/
structure Work where
  db : TaskDb
  events : List BusEvent

/-- Who asks and when, and how the database orders tied rows. -/
structure RequestContext where
  actor : String
  now : ℕ
  isoNow : String
  tie : TieBreak (ℕ × QualityReview)

namespace Work

/-- `eventBus.broadcast`. -/
def broadcast (w : Work) (e : BusEvent) : Work :=
  { w with events := w.events ++ [e] }

/-- `db_helpers.logActivity`. -/
def logActivity (w : Work) (activity : Activity) : Work :=
  Work.broadcast
    { w with db := { w.db with activities := w.db.activities.insert activity } }
    (.activityCreated w.db.activities.next activity)

/-- `db_helpers.createNotification`, for a task. -/
def createNotification (w : Work) (ctx : RequestContext)
    (recipient type title message : String) (id : ℕ) : Work :=
  let notification : Notification :=
    ⟨recipient, type, title, message, some "task", some id, none, none, ctx.now⟩
  Work.broadcast
    { w with db :=
      { w.db with notifications := w.db.notifications.insert notification } }
    (.notificationCreated w.db.notifications.next notification)

/-- `db_helpers.ensureTaskSubscription`. -/
def ensureTaskSubscription (w : Work) (id : ℕ) (agentName : String) : Work :=
  if agentName = ""
      ∨ w.db.subscriptions.any (fun s => s = ⟨id, agentName⟩) then w
  else
    { w with db := { w.db with
      subscriptions := w.db.subscriptions.insert ⟨id, agentName⟩ } }

/-- A part of the work that is done under a condition. -/
def doIf (w : Work) (c : Bool) (f : Work → Work) : Work := if c then f w else w

/-- Rewriting a row of `tasks`. -/
def updateTask (w : Work) (id : ℕ) (f : TaskRow → TaskRow) : Work :=
  { w with db := { w.db with tasks := w.db.tasks.update id f } }

variable (w : Work) (ctx : RequestContext)

@[simp] theorem db_broadcast (e : BusEvent) : (w.broadcast e).db = w.db := rfl

@[simp] theorem events_broadcast (e : BusEvent) :
    (w.broadcast e).events = w.events ++ [e] := rfl

@[simp] theorem tasks_logActivity (activity : Activity) :
    (w.logActivity activity).db.tasks = w.db.tasks := rfl

@[simp] theorem reviews_logActivity (activity : Activity) :
    (w.logActivity activity).db.reviews = w.db.reviews := rfl

@[simp] theorem events_logActivity (activity : Activity) :
    (w.logActivity activity).events
      = w.events ++ [.activityCreated w.db.activities.next activity] := rfl

@[simp] theorem tasks_createNotification (recipient type title message : String)
    (id : ℕ) :
    (w.createNotification ctx recipient type title message id).db.tasks
      = w.db.tasks := rfl

@[simp] theorem reviews_createNotification (recipient type title message : String)
    (id : ℕ) :
    (w.createNotification ctx recipient type title message id).db.reviews
      = w.db.reviews := rfl

@[simp] theorem tasks_ensureTaskSubscription (id : ℕ) (agentName : String) :
    (w.ensureTaskSubscription id agentName).db.tasks = w.db.tasks := by
  unfold ensureTaskSubscription
  split <;> rfl

@[simp] theorem reviews_ensureTaskSubscription (id : ℕ) (agentName : String) :
    (w.ensureTaskSubscription id agentName).db.reviews = w.db.reviews := by
  unfold ensureTaskSubscription
  split <;> rfl

@[simp] theorem events_ensureTaskSubscription (id : ℕ) (agentName : String) :
    (w.ensureTaskSubscription id agentName).events = w.events := by
  unfold ensureTaskSubscription
  split <;> rfl

@[simp] theorem reviews_updateTask (id : ℕ) (f : TaskRow → TaskRow) :
    (w.updateTask id f).db.reviews = w.db.reviews := rfl

@[simp] theorem events_updateTask (id : ℕ) (f : TaskRow → TaskRow) :
    (w.updateTask id f).events = w.events := rfl

/-- What a part of the work leaves alone it leaves alone under a condition. -/
theorem doIf_frame {β : Type} (g : Work → β) (c : Bool) {f : Work → Work}
    (h : ∀ w, g (f w) = g w) : g (w.doIf c f) = g w := by
  unfold doIf
  split
  · exact h w
  · rfl

end Work

def hasAegisApproval (tie : TieBreak (ℕ × QualityReview)) (db : TaskDb)
    (id : ℕ) : Bool :=
  let rows := db.reviews.rows.filter
    (fun r => r.2.taskId = id && r.2.reviewer = "aegis")
  match tie.latest (fun r => r.2.createdAt) rows with
  | some r => r.2.status = .approved
  | none => false

theorem hasAegisApproval_congr {tie : TieBreak (ℕ × QualityReview)}
    {db db' : TaskDb} (h : db.reviews = db'.reviews) (id : ℕ) :
    hasAegisApproval tie db id = hasAegisApproval tie db' id := by
  unfold hasAegisApproval
  rw [h]

/-- The row of a task, with its JSON columns parsed; none where one cannot
be. -/
def readTask (rt : Runtime) (db : TaskDb) (id : ℕ) : Option ParsedTask :=
  match db.tasks.row id with
  | none => none
  | some t =>
    match Json.parse rt (orElse (t.tags.getD "") "[]").toList,
        Json.parse rt (orElse (t.metadata.getD "") "\x7b\x7d").toList with
    | some tags, some metadata => some ⟨id, t, tags, metadata⟩
    | _, _ => none

/-- The text of a value that a column takes. -/
def jsonText (rt : Runtime) (j : Json) : String := String.ofList (j.stringify rt)

def taskResponse (status : ℕ) (task : ParsedTask) : ApiResponse :=
  .json status (.obj [("task", task.json)])

/-- The end of a request that has written a task: it is read back, announced,
and is the answer. -/
def Work.respond (rt : Runtime) (w : Work) (id : ℕ) (event : ParsedTask → BusEvent)
    (status : ℕ) (failure : String) : Work × ApiResponse :=
  match readTask rt w.db id with
  | none => (w, .error 500 failure)
  | some task => (w.broadcast (event task), taskResponse status task)

@[simp] theorem Work.db_respond (rt : Runtime) (w : Work) (id : ℕ)
    (event : ParsedTask → BusEvent) (status : ℕ) (failure : String) :
    (w.respond rt id event status failure).1.db = w.db := by
  unfold respond
  split <;> rfl

/-- Where the task cannot be read back there is an error, and no event. -/
theorem Work.respond_cases (rt : Runtime) (w : Work) (id : ℕ)
    (event : ParsedTask → BusEvent) (status : ℕ) (failure : String) :
    w.respond rt id event status failure = (w, .error 500 failure)
      ∨ ∃ task, readTask rt w.db id = some task
        ∧ w.respond rt id event status failure
          = (w.broadcast (event task), taskResponse status task) := by
  unfold respond
  cases h : readTask rt w.db id with
  | none => exact .inl rfl
  | some task => exact .inr ⟨task, rfl, rfl⟩

/-! ## `POST /api/tasks` -/

/-- The row that a body is stored as. -/
def createdRow (rt : Runtime) (ctx : RequestContext) (title : String)
    (body : TaskFields) : TaskRow where
  title := title
  description := body.description
  status := body.status.getD .inbox
  priority := body.priority.getD .medium
  assignedTo := body.assignedTo
  createdBy := body.createdBy.getD ctx.actor
  createdAt := ctx.now
  updatedAt := ctx.now
  dueDate := body.dueDate
  estimatedHours := body.estimatedHours
  actualHours := none
  tags := some (jsonText rt (.arr ((body.tags.getD []).map .str)))
  metadata := some (jsonText rt (.obj (body.metadata.getD [])))

/-- What `POST` writes and announces, but for its last event. -/
def createTaskWork (rt : Runtime) (ctx : RequestContext) (title : String)
    (body : TaskFields) (db : TaskDb) : Work :=
  let row := createdRow rt ctx title body
  let id := db.tasks.next
  let assignee := row.assignedTo.getD ""
  let w : Work := ⟨{ db with tasks := db.tasks.insert row }, []⟩
  let w := w.logActivity ⟨"task_created", "task", id, row.createdBy,
    "Created task: " ++ title, some (.object [("title", some (.str title)),
      ("status", some (.str row.status.text)),
      ("priority", some (.str row.priority.text)),
      ("assigned_to", row.assignedTo.map .str)]), ctx.now⟩
  let w := w.ensureTaskSubscription id row.createdBy
  w.doIf (assignee ≠ "") fun w =>
    (w.ensureTaskSubscription id assignee).createNotification ctx assignee
      "assignment" "Task Assigned"
      ("You have been assigned to task: " ++ title) id

@[simp] theorem tasks_createTaskWork (rt : Runtime) (ctx : RequestContext)
    (title : String) (body : TaskFields) (db : TaskDb) :
    (createTaskWork rt ctx title body db).db.tasks
      = db.tasks.insert (createdRow rt ctx title body) := by
  unfold createTaskWork
  rw [Work.doIf_frame _ (fun w => w.db.tasks) _ (fun w => by simp)]
  simp

@[simp] theorem reviews_createTaskWork (rt : Runtime) (ctx : RequestContext)
    (title : String) (body : TaskFields) (db : TaskDb) :
    (createTaskWork rt ctx title body db).db.reviews = db.reviews := by
  unfold createTaskWork
  rw [Work.doIf_frame _ (fun w => w.db.reviews) _ (fun w => by simp)]
  simp

/-- **`POST /api/tasks`**, with its parsed body. A title the schema has let
through is there; the column takes no other. -/
def createTask (rt : Runtime) (ctx : RequestContext) (body : TaskFields)
    (db : TaskDb) : Work × ApiResponse :=
  match body.title with
  | none => (⟨db, []⟩, .error 500 "Failed to create task")
  | some title =>
    if db.tasks.any (fun t => t.title = title) then
      (⟨db, []⟩, .error 409 "Task with this title already exists")
    else
      (createTaskWork rt ctx title body db).respond rt db.tasks.next .taskCreated
        201 "Failed to create task"

theorem createTask_cases (rt : Runtime) (ctx : RequestContext) (body : TaskFields)
    (db : TaskDb) :
    (∃ response, createTask rt ctx body db = (⟨db, []⟩, response)
        ∧ 400 ≤ response.status)
      ∨ ∃ title, body.title = some title
        ∧ db.tasks.any (fun t => t.title = title) = false
        ∧ createTask rt ctx body db
          = (createTaskWork rt ctx title body db).respond rt db.tasks.next
            .taskCreated 201 "Failed to create task" := by
  unfold createTask
  cases body.title with
  | none => exact .inl ⟨_, rfl, by decide⟩
  | some title =>
    dsimp only
    split
    · exact .inl ⟨_, rfl, by decide⟩
    · next hfree => exact .inr ⟨title, rfl, by simpa using hfree, rfl⟩

/-! ## `PUT /api/tasks` -/

/-- Whether the gate refuses an element of a bulk update. -/
def StatusMove.refused (ctx : RequestContext) (db : TaskDb) (move : StatusMove) :
    Bool :=
  move.status = .done && !hasAegisApproval ctx.tie db move.id

/-- What the activity log is told about a move. -/
def moveActivity (ctx : RequestContext) (move : StatusMove) (oldTask : TaskRow) :
    Activity where
  type := "task_updated"
  entityType := "task"
  entityId := move.id
  actor := ctx.actor
  description :=
    "Task moved from " ++ oldTask.status.text ++ " to " ++ move.status.text
  data := some (.obj [("oldStatus", .str oldTask.status.text),
    ("newStatus", .str move.status.text)])
  createdAt := ctx.now

/-- One element of a bulk update: the status is written, and logged where it
is another one. -/
def Work.move (w : Work) (ctx : RequestContext) (move : StatusMove) : Work :=
  let updated := w.updateTask move.id
    (fun t => { t with status := move.status, updatedAt := ctx.now })
  match w.db.tasks.row move.id with
  | none => updated
  | some oldTask =>
    updated.doIf (oldTask.status ≠ move.status)
      (·.logActivity (moveActivity ctx move oldTask))

/-- The transaction: the elements in order, up to the first one that the gate
refuses, which is what is thrown. -/
def Work.moveAll (ctx : RequestContext) : List StatusMove → Work → Work × Option StatusMove
  | [], w => (w, none)
  | move :: moves, w =>
    if move.refused ctx w.db then (w, some move)
    else moveAll ctx moves (w.move ctx move)

/-- **`PUT /api/tasks`**, with its parsed body. Where an element is refused
the tables are rolled back – but what has been broadcast stays broadcast. -/
def bulkUpdate (ctx : RequestContext) (moves : List StatusMove) (db : TaskDb) :
    Work × ApiResponse :=
  match Work.moveAll ctx moves ⟨db, []⟩ with
  | (w, some move) =>
    (⟨db, w.events⟩,
      .error 403 ("Aegis approval required for task " ++ toString move.id))
  | (w, none) =>
    (⟨w.db, w.events ++
        moves.map (fun m => .taskStatusChanged m.id m.status ctx.now)⟩,
      .json 200 (.obj [("success", .bool true), ("updated", .ofNat moves.length)]))

/-! ## `PUT /api/tasks/[id]` -/

/-- An assignment of an `UPDATE`: its text, and what it does to a row. -/
abbrev Assignment := String × (TaskRow → TaskRow)

/-- The assignment of a column whose value is not `undefined`. -/
def assignment {α : Type} (text : String) (value : Option α)
    (set : α → TaskRow → TaskRow) : List Assignment :=
  match value with
  | some a => [(text, set a)]
  | none => []

/-- **`fieldsToUpdate`**, but for `updated_at`. -/
def fieldsToUpdate (rt : Runtime) (body : TaskFields) : List Assignment :=
  assignment "title = ?" body.title (fun v t => { t with title := v })
  ++ assignment "description = ?" (body.description.map some)
    (fun v t => { t with description := v })
  ++ assignment "status = ?" body.status (fun v t => { t with status := v })
  ++ assignment "priority = ?" body.priority (fun v t => { t with priority := v })
  ++ assignment "assigned_to = ?" (body.assignedTo.map some)
    (fun v t => { t with assignedTo := v })
  ++ assignment "due_date = ?" (body.dueDate.map some)
    (fun v t => { t with dueDate := v })
  ++ assignment "estimated_hours = ?" (body.estimatedHours.map some)
    (fun v t => { t with estimatedHours := v })
  ++ assignment "actual_hours = ?" (body.actualHours.map some)
    (fun v t => { t with actualHours := v })
  ++ assignment "tags = ?"
    (body.tags.map fun v => some (jsonText rt (.arr (v.map .str))))
    (fun v t => { t with tags := v })
  ++ assignment "metadata = ?"
    (body.metadata.map fun v => some (jsonText rt (.obj v)))
    (fun v t => { t with metadata := v })

/-- All assignments of the `UPDATE`. -/
def updateAssignments (rt : Runtime) (ctx : RequestContext) (body : TaskFields) :
    List Assignment :=
  fieldsToUpdate rt body
    ++ assignment "updated_at = ?" (some ctx.now)
      (fun v t => { t with updatedAt := v })

def assignAll (fields : List Assignment) (t : TaskRow) : TaskRow :=
  fields.foldl (fun t f => f.2 t) t

/-- The status of the body is another one. -/
def TaskFields.movesStatus (body : TaskFields) (task : TaskRow) : Bool :=
  body.status.any (fun s => s ≠ task.status)

/-- The assignee of the body is another one. -/
def TaskFields.reassigns (body : TaskFields) (task : TaskRow) : Bool :=
  body.assignedTo.any (fun a => some a ≠ task.assignedTo)

/-- The title of the body is another one. -/
def TaskFields.renames (body : TaskFields) (task : TaskRow) : Bool :=
  body.title.any (fun s => s ≠ "" && s ≠ task.title)

/-- The priority of the body is another one. -/
def TaskFields.reprioritizes (body : TaskFields) (task : TaskRow) : Bool :=
  body.priority.any (fun p => p ≠ task.priority)

/-- The texts of the changes that the activity log names. -/
def TaskFields.changes (body : TaskFields) (task : TaskRow) : List String :=
  let assignee := orElse (body.assignedTo.getD "") "unassigned"
  (if body.movesStatus task then
    ["status: " ++ task.status.text ++ " → "
      ++ (body.status.getD task.status).text] else [])
  ++ (if body.reassigns task then
    ["assigned: " ++ orElse (task.assignedTo.getD "") "unassigned" ++ " → "
      ++ assignee] else [])
  ++ (if body.renames task then ["title updated"] else [])
  ++ (if body.reprioritizes task then
    ["priority: " ++ task.priority.text ++ " → "
      ++ (body.priority.getD task.priority).text] else [])

/-- What the activity log is told about an update. -/
def updateActivity (ctx : RequestContext) (id : ℕ) (task : TaskRow)
    (body : TaskFields) : Activity where
  type := "task_updated"
  entityType := "task"
  entityId := id
  actor := ctx.actor
  description := "Task updated: " ++ ", ".intercalate (body.changes task)
  data := some (.obj [
    ("changes", .arr ((body.changes task).map .str)),
    ("oldValues", .obj [("title", .str task.title),
      ("status", .str task.status.text),
      ("priority", .str task.priority.text),
      ("assigned_to", .ofText task.assignedTo)]),
    ("newValues", .object [("title", body.title.map .str),
      ("status", body.status.map (fun s => .str s.text)),
      ("priority", body.priority.map (fun p => .str p.text)),
      ("assigned_to", body.assignedTo.map .str)])])
  createdAt := ctx.now

/-- What follows the `UPDATE`: the notifications, and the activity log. -/
def announceUpdate (ctx : RequestContext) (id : ℕ) (task : TaskRow)
    (body : TaskFields) (w : Work) : Work :=
  let owner := task.assignedTo.getD ""
  let assignee := body.assignedTo.getD ""
  let w := w.doIf (body.movesStatus task && owner ≠ "") fun w =>
    w.createNotification ctx owner "status_change" "Task Status Updated"
      ("Task \"" ++ task.title ++ "\" status changed to "
        ++ (body.status.getD task.status).text) id
  let w := w.doIf (body.reassigns task && assignee ≠ "") fun w =>
    (w.ensureTaskSubscription id assignee).createNotification ctx assignee
      "assignment" "Task Assigned"
      ("You have been assigned to task: " ++ task.title) id
  w.doIf (body.changes task ≠ []) fun w =>
    w.logActivity (updateActivity ctx id task body)

@[simp] theorem tasks_announceUpdate (ctx : RequestContext) (id : ℕ)
    (task : TaskRow) (body : TaskFields) (w : Work) :
    (announceUpdate ctx id task body w).db.tasks = w.db.tasks := by
  unfold announceUpdate
  rw [Work.doIf_frame _ (fun w => w.db.tasks) _ (fun w => by simp),
    Work.doIf_frame _ (fun w => w.db.tasks) _ (fun w => by simp),
    Work.doIf_frame _ (fun w => w.db.tasks) _ (fun w => by simp)]

@[simp] theorem reviews_announceUpdate (ctx : RequestContext) (id : ℕ)
    (task : TaskRow) (body : TaskFields) (w : Work) :
    (announceUpdate ctx id task body w).db.reviews = w.db.reviews := by
  unfold announceUpdate
  rw [Work.doIf_frame _ (fun w => w.db.reviews) _ (fun w => by simp),
    Work.doIf_frame _ (fun w => w.db.reviews) _ (fun w => by simp),
    Work.doIf_frame _ (fun w => w.db.reviews) _ (fun w => by simp)]

/-- **`PUT /api/tasks/[id]`**, with its parsed body. -/
def updateTask (rt : Runtime) (ctx : RequestContext) (idText : String)
    (body : TaskFields) (db : TaskDb) : Work × ApiResponse :=
  match parseInt idText with
  | none => (⟨db, []⟩, .error 400 "Invalid task ID")
  | some n =>
    match db.findTask n with
    | none => (⟨db, []⟩, .error 404 "Task not found")
    | some (id, task) =>
      if body.status = some .done ∧ hasAegisApproval ctx.tie db id = false then
        (⟨db, []⟩,
          .error 403 "Aegis approval is required to move task to done.")
      else
        let fields := updateAssignments rt ctx body
        if fields.length = 1 then (⟨db, []⟩, .error 400 "No fields to update")
        else
          (announceUpdate ctx id task body
            (Work.updateTask ⟨db, []⟩ id (assignAll fields))).respond rt id
              .taskUpdated 200 "Failed to update task"

/-- **An update is refused before it does anything, or writes the row of its
task** – which to be done needs the approval. -/
theorem updateTask_cases (rt : Runtime) (ctx : RequestContext) (idText : String)
    (body : TaskFields) (db : TaskDb) :
    (∃ response, updateTask rt ctx idText body db = (⟨db, []⟩, response)
        ∧ 400 ≤ response.status)
      ∨ ∃ n id task, parseInt idText = some n ∧ db.findTask n = some (id, task)
        ∧ (body.status = some .done → hasAegisApproval ctx.tie db id = true)
        ∧ updateTask rt ctx idText body db
          = (announceUpdate ctx id task body (Work.updateTask ⟨db, []⟩ id
              (assignAll (updateAssignments rt ctx body)))).respond rt id
                .taskUpdated 200 "Failed to update task" := by
  unfold updateTask
  cases parseInt idText with
  | none => exact .inl ⟨_, rfl, by decide⟩
  | some n =>
    dsimp only
    cases hfind : db.findTask n with
    | none => exact .inl ⟨_, rfl, by decide⟩
    | some found =>
      dsimp only
      split
      · exact .inl ⟨_, rfl, by decide⟩
      · next hgate =>
        split
        · exact .inl ⟨_, rfl, by decide⟩
        · refine .inr ⟨n, found.1, found.2, rfl, hfind, fun hdone => ?_, rfl⟩
          by_contra hno
          exact hgate ⟨hdone, by simpa using hno⟩

/-! ## `DELETE /api/tasks/[id]` -/

/-- Deleting a task, and with it the rows that refer to it. -/
def TaskDb.deleteTask (db : TaskDb) (id : ℕ) : TaskDb :=
  { db with
    tasks := db.tasks.deleteWhere (fun i _ => i = id)
    reviews := db.reviews.deleteWhere (fun _ r => r.taskId = id)
    subscriptions := db.subscriptions.deleteWhere (fun _ s => s.taskId = id) }

/-- **`DELETE /api/tasks/[id]`.** -/
def deleteTask (ctx : RequestContext) (idText : String) (db : TaskDb) :
    Work × ApiResponse :=
  match parseInt idText with
  | none => (⟨db, []⟩, .error 400 "Invalid task ID")
  | some n =>
    match db.findTask n with
    | none => (⟨db, []⟩, .error 404 "Task not found")
    | some (id, task) =>
      let w : Work := ⟨db.deleteTask id, []⟩
      let w := w.logActivity ⟨"task_deleted", "task", id, ctx.actor,
        "Deleted task: " ++ task.title,
        some (.obj [("title", .str task.title),
          ("status", .str task.status.text),
          ("assigned_to", .ofText task.assignedTo)]), ctx.now⟩
      (w.broadcast (.taskDeleted id task.title),
        .json 200 (.obj [("success", .bool true)]))

/-! ## The routes -/

def withBody {α : Type} (schema : Reader α) (body : Option Json) (db : TaskDb)
    (handler : α → Work × ApiResponse) : Work × ApiResponse :=
  match validateBody schema body with
  | .ok data => handler data
  | .error response => (⟨db, []⟩, response)

theorem withBody_cases {α : Type} (schema : Reader α) (body : Option Json)
    (db : TaskDb) (handler : α → Work × ApiResponse) :
    (∃ response, withBody schema body db handler = (⟨db, []⟩, response)
        ∧ 400 ≤ response.status)
      ∨ ∃ j data, body = some j ∧ schema.read j = .ok data
        ∧ withBody schema body db handler = handler data := by
  unfold withBody validateBody
  cases body with
  | none => exact .inl ⟨_, rfl, by decide⟩
  | some j =>
    cases hread : schema.read j with
    | error issues =>
      exact .inl ⟨.invalid issues, by simp only [hread], Nat.le_refl 400⟩
    | ok data => exact .inr ⟨j, data, rfl, hread, by simp only [hread]⟩

/-- `POST /api/tasks`. -/
def postTasks (rt : Runtime) (ctx : RequestContext) (body : Option Json)
    (db : TaskDb) : Work × ApiResponse :=
  withBody createTaskSchema body db (createTask rt ctx · db)

/-- `PUT /api/tasks`. -/
def putTasks (ctx : RequestContext) (body : Option Json) (db : TaskDb) :
    Work × ApiResponse :=
  withBody bulkUpdateTaskStatusSchema body db (bulkUpdate ctx · db)

/-- `PUT /api/tasks/[id]`. -/
def putTask (rt : Runtime) (ctx : RequestContext) (idText : String)
    (body : Option Json) (db : TaskDb) : Work × ApiResponse :=
  withBody updateTaskSchema body db (updateTask rt ctx idText · db)

/-! ## A database for concrete runs -/

/-- A request of an administrator. -/
def sampleContext : RequestContext :=
  ⟨"admin", 1700000000, "2023-11-14T22:13:20.000Z", .first⟩

/-- A task in progress. -/
def sampleTask : TaskRow where
  title := "Fix login"
  description := none
  status := .in_progress
  priority := .high
  assignedTo := none
  createdBy := "admin"
  createdAt := 1600000000
  updatedAt := 1600000000
  dueDate := none
  estimatedHours := none
  actualHours := none
  tags := some "[\"auth\"]"
  metadata := some "\x7b\x7d"

/-- A database of tasks. -/
def sampleTasks (tasks : List TaskRow) : TaskDb :=
  { TaskDb.empty with tasks := tasks.foldl Table.insert .empty }

end MissionControl
