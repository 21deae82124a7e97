import MissionControl.Zod

/-!
# The bodies of the task and review requests

The schemas of `POST` and `PUT` of tasks, of the bulk update and of quality
reviews. `updateTaskSchema` is `createTaskSchema` with every property made
optional: the two are one shape, parsed the same way.
-/

namespace MissionControl

inductive TaskStatus where
  | inbox | assigned | in_progress | review | quality_review | done
  deriving DecidableEq

/-- The text of a status, as requests and the column `status` have it. -/
def TaskStatus.text : TaskStatus → String
  | inbox => "inbox"
  | assigned => "assigned"
  | in_progress => "in_progress"
  | review => "review"
  | quality_review => "quality_review"
  | done => "done"

inductive TaskPriority where
  | critical | high | medium | low
  deriving DecidableEq

def TaskPriority.text : TaskPriority → String
  | critical => "critical"
  | high => "high"
  | medium => "medium"
  | low => "low"

inductive ReviewStatus where
  | approved | rejected
  deriving DecidableEq

def ReviewStatus.text : ReviewStatus → String
  | approved => "approved"
  | rejected => "rejected"

/-- The texts of an enumeration, each with what it stands for. -/
def options {α : Type} (text : α → String) (values : List α) :
    List (String × α) := values.map (fun a => (text a, a))

/-- `z.enum` of the statuses of a task. -/
def taskStatusReader : Reader TaskStatus :=
  .enum (options TaskStatus.text
    [.inbox, .assigned, .in_progress, .review, .quality_review, .done])

/-- `z.enum` of the priorities of a task. -/
def taskPriorityReader : Reader TaskPriority :=
  .enum (options TaskPriority.text [.critical, .high, .medium, .low])

/-! ## Tasks -/

/-- **A parsed body** of `POST /api/tasks` or `PUT /api/tasks/[id]`; `none` is
`undefined`. -/
structure TaskFields where
  title : Option String
  description : Option String
  status : Option TaskStatus
  priority : Option TaskPriority
  assignedTo : Option String
  createdBy : Option String
  dueDate : Option JsNumber
  estimatedHours : Option JsNumber
  actualHours : Option JsNumber
  tags : Option (List String)
  metadata : Option (List (String × Json))

/-- **The shape of a task schema**: the schema of each property. -/
structure TaskShape where
  title : Schema String
  description : Schema String
  status : Schema TaskStatus
  priority : Schema TaskPriority
  assignedTo : Schema String
  createdBy : Schema String
  dueDate : Schema JsNumber
  estimatedHours : Schema JsNumber
  actualHours : Schema JsNumber
  tags : Schema (List String)
  metadata : Schema (List (String × Json))

namespace TaskShape

/-- `z.object(shape)`, on the properties of a body. -/
def parse (shape : TaskShape) (fields : List (String × Json)) :
    Checked TaskFields :=
  (((((((((((Checked.ap (.ok TaskFields.mk)
    (shape.title.field "title" fields)).ap
    (shape.description.field "description" fields)).ap
    (shape.status.field "status" fields)).ap
    (shape.priority.field "priority" fields)).ap
    (shape.assignedTo.field "assigned_to" fields)).ap
    (shape.createdBy.field "created_by" fields)).ap
    (shape.dueDate.field "due_date" fields)).ap
    (shape.estimatedHours.field "estimated_hours" fields)).ap
    (shape.actualHours.field "actual_hours" fields)).ap
    (shape.tags.field "tags" fields)).ap
    (shape.metadata.field "metadata" fields))

/-- The schema of the objects of a shape. -/
def reader (shape : TaskShape) : Reader TaskFields := .object shape.parse

/-- `.partial()`. -/
def partialShape (shape : TaskShape) : TaskShape where
  title := .optional shape.title
  description := .optional shape.description
  status := .optional shape.status
  priority := .optional shape.priority
  assignedTo := .optional shape.assignedTo
  createdBy := .optional shape.createdBy
  dueDate := .optional shape.dueDate
  estimatedHours := .optional shape.estimatedHours
  actualHours := .optional shape.actualHours
  tags := .optional shape.tags
  metadata := .optional shape.metadata

/-- **A body is parsed property by property.** -/
theorem parse_eq_ok {shape : TaskShape} {fields : List (String × Json)}
    {data : TaskFields} :
    shape.parse fields = .ok data ↔
      shape.title.parse (fields.lookup "title") = .ok data.title
      ∧ shape.description.parse (fields.lookup "description") = .ok data.description
      ∧ shape.status.parse (fields.lookup "status") = .ok data.status
      ∧ shape.priority.parse (fields.lookup "priority") = .ok data.priority
      ∧ shape.assignedTo.parse (fields.lookup "assigned_to") = .ok data.assignedTo
      ∧ shape.createdBy.parse (fields.lookup "created_by") = .ok data.createdBy
      ∧ shape.dueDate.parse (fields.lookup "due_date") = .ok data.dueDate
      ∧ shape.estimatedHours.parse (fields.lookup "estimated_hours")
          = .ok data.estimatedHours
      ∧ shape.actualHours.parse (fields.lookup "actual_hours")
          = .ok data.actualHours
      ∧ shape.tags.parse (fields.lookup "tags") = .ok data.tags
      ∧ shape.metadata.parse (fields.lookup "metadata") = .ok data.metadata := by
  unfold parse Schema.field
  simp only [Checked.ap_eq_ok, Checked.under_eq_ok]
  constructor
  · rintro ⟨_, metadata, ⟨_, tags, ⟨_, actual, ⟨_, estimated, ⟨_, due,
      ⟨_, creator, ⟨_, assignee, ⟨_, priority, ⟨_, status, ⟨_, description,
      ⟨_, title, hmk, htitle, rfl⟩, hdescription, rfl⟩, hstatus, rfl⟩,
      hpriority, rfl⟩, hassignee, rfl⟩, hcreator, rfl⟩, hdue, rfl⟩,
      hestimated, rfl⟩, hactual, rfl⟩, htags, rfl⟩, hmetadata, rfl⟩
    cases hmk
    exact ⟨htitle, hdescription, hstatus, hpriority, hassignee, hcreator, hdue,
      hestimated, hactual, htags, hmetadata⟩
  · rintro ⟨htitle, hdescription, hstatus, hpriority, hassignee, hcreator, hdue,
      hestimated, hactual, htags, hmetadata⟩
    exact ⟨_, _, ⟨_, _, ⟨_, _, ⟨_, _, ⟨_, _, ⟨_, _, ⟨_, _, ⟨_, _, ⟨_, _, ⟨_, _,
      ⟨_, _, rfl, htitle, rfl⟩, hdescription, rfl⟩, hstatus, rfl⟩, hpriority,
      rfl⟩, hassignee, rfl⟩, hcreator, rfl⟩, hdue, rfl⟩, hestimated, rfl⟩,
      hactual, rfl⟩, htags, rfl⟩, hmetadata, rfl⟩

end TaskShape

/-- The shape of `createTaskSchema`. -/
def createTaskShape : TaskShape where
  title := .required ((Reader.string.minLength 1 (some "Title is required")).maxLength 500)
  description := .optional (.required (Reader.string.maxLength 5000))
  status := .default .inbox (.required taskStatusReader)
  priority := .default .medium (.required taskPriorityReader)
  assignedTo := .optional (.required (Reader.string.maxLength 100))
  createdBy := .optional (.required (Reader.string.maxLength 100))
  dueDate := .optional (.required .number)
  estimatedHours := .optional (.required (Reader.number.atLeast 0))
  actualHours := .optional (.required (Reader.number.atLeast 0))
  tags := .default [] (.required (.array .string))
  metadata := .default [] (.required .record)

def createTaskSchema : Reader TaskFields := createTaskShape.reader

def updateTaskSchema : Reader TaskFields := createTaskShape.partialShape.reader

/-! ## Bulk updates and reviews -/

structure StatusMove where
  id : ℕ
  status : TaskStatus
  deriving DecidableEq

/-- `bulkUpdateTaskStatusSchema`, to its list of updates. -/
def bulkUpdateTaskStatusSchema : Reader (List StatusMove) :=
  .object fun fields =>
    ((((Reader.array (.object fun task =>
        (Checked.ap (.ok StatusMove.mk) (Reader.positiveInt.field "id" task)).ap
          (taskStatusReader.field "status" task))).check
      (fun moves => 1 ≤ moves.length) (.tooSmall 1)
        (some "At least one task is required")).check
      (fun moves => moves.length ≤ 100) (.tooBig 100) none).field "tasks" fields)

/-- A parsed body of `POST /api/quality-review`. -/
structure ReviewFields where
  taskId : JsNumber
  reviewer : String
  status : ReviewStatus
  notes : String

def qualityReviewSchema : Reader ReviewFields :=
  .object fun fields =>
    (((Checked.ap (.ok ReviewFields.mk) (Reader.number.field "taskId" fields)).ap
      (Reader.string.fieldOr "aegis" "reviewer" fields)).ap
      ((Reader.enum (options ReviewStatus.text [.approved, .rejected])).field
        "status" fields)).ap
      ((Reader.string.minLength 1
        (some "Notes are required for quality reviews")).field "notes" fields)

end MissionControl
