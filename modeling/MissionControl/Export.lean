import MissionControl.Alerts
import MissionControl.Dates
import MissionControl.Library.Csv
import MissionControl.Library.Query
import MissionControl.ListQueries
import MissionControl.Migrations

/-!
# The export of data

`GET /api/export` answers with the rows of a table as comma-separated values, or as JSON. The
times that it is asked for are conditions, which are written once for all four queries. One
of these is a join, and there the name of a column has its table put in front of it.

What it writes is read back whatever is in the rows (`csvBody_readsBack`).
-/

namespace MissionControl

/-! ## The data -/

/-- **A row with the time at which it was made**, in seconds. A number tells it exactly. -/
structure TimedRow where
  columns : DbRow
  createdAt : ℤ
  created : columns "created_at" = .number (.finite createdAt)
  exact : createdAt.natAbs < 2 ^ 53

/-- **The tables that are exported**, and `workflow_pipelines`, whose ids are its primary
key. -/
structure ExportDb where
  auditLog : List TimedRow
  tasks : List TimedRow
  activities : List TimedRow
  pipelineRuns : List TimedRow
  workflowPipelines : List TimedRow
  nodup : (workflowPipelines.map fun r => r.columns "id").Nodup

inductive ExportType where
  | audit | tasks | activities | pipelines
  deriving DecidableEq

namespace ExportType

def ofText (s : String) : Option ExportType :=
  if s = "audit" then some audit
  else if s = "tasks" then some tasks
  else if s = "activities" then some activities
  else if s = "pipelines" then some pipelines
  else none

def headers : ExportType → List String
  | audit => ["id", "action", "actor", "actor_id", "target_type", "target_id", "detail",
      "ip_address", "user_agent", "created_at"]
  | tasks => ["id", "title", "description", "status", "priority", "assigned_to", "created_by",
      "created_at", "updated_at", "due_date", "estimated_hours", "actual_hours", "tags"]
  | activities => ["id", "type", "entity_type", "entity_id", "actor", "description", "data",
      "created_at"]
  | pipelines => ["id", "pipeline_id", "pipeline_name", "status", "current_step",
      "steps_snapshot", "started_at", "completed_at", "triggered_by", "created_at"]

def filename : ExportType → String
  | audit => "audit-log"
  | tasks => "tasks"
  | activities => "activities"
  | pipelines => "pipeline-runs"

def sources : ExportType → List Query.Source
  | audit => [⟨"audit_log", ["id", "action", "actor", "actor_id", "target_type", "target_id",
      "detail", "ip_address", "user_agent", "created_at"]⟩]
  | tasks => [⟨"tasks", ["id", "title", "description", "status", "priority", "assigned_to",
      "created_by", "created_at", "updated_at", "due_date", "estimated_hours", "actual_hours",
      "tags", "metadata"]⟩]
  | activities => [⟨"activities", ["id", "type", "entity_type", "entity_id", "actor",
      "description", "data", "created_at"]⟩]
  | pipelines =>
    [⟨"pr", ["id", "pipeline_id", "status", "current_step", "steps_snapshot", "started_at",
        "completed_at", "triggered_by", "created_at"]⟩,
      ⟨"wp", ["id", "name", "description", "steps", "created_by", "created_at", "updated_at",
        "use_count", "last_used_at"]⟩]

end ExportType

/-- A row of a `FROM` clause, with what it is joined with. -/
abbrev FromRow := TimedRow × Option TimedRow

/-- What a row has in a column of one of the tables. -/
def FromRow.value (row : FromRow) (table : ℕ) (column : String) : SqlValue :=
  if table = 0 then row.1.columns column
  else (row.2.map fun r => r.columns column).getD .null

/-- The rows of the `FROM` clause. -/
def ExportDb.fromRows (db : ExportDb) : ExportType → List FromRow
  | .audit => db.auditLog.map fun r => (r, none)
  | .tasks => db.tasks.map fun r => (r, none)
  | .activities => db.activities.map fun r => (r, none)
  | .pipelines =>
    Query.leftJoin (fun pr wp => decide (pr.columns "pipeline_id" ≠ .null)
      && decide (pr.columns "pipeline_id" = wp.columns "id")) db.pipelineRuns db.workflowPipelines

def FromRow.selected (row : FromRow) : ExportType → DbRow
  | .pipelines => Function.update row.1.columns "pipeline_name" (row.value 1 "name")
  | _ => row.1.columns

/-! ## The query -/

structure ExportRequest where
  username : String
  userId : ℕ
  type : Option String
  format : Option String
  since : Option String
  untilTime : Option String
  limit : Option String
  forwardedFor : Option String
  realIp : Option String

/-- `if (param)`, on a parameter that may be absent. -/
def isGiven (param : Option String) : Bool := decide (param.getD "" ≠ "")

def ExportRequest.conditions (q : ExportRequest) : List String :=
  (if isGiven q.since then ["created_at >= ?"] else [])
    ++ if isGiven q.untilTime then ["created_at <= ?"] else []

def ExportRequest.params (q : ExportRequest) : List JsNumber :=
  (if isGiven q.since then [parseNumber (q.since.getD "")] else [])
    ++ if isGiven q.untilTime then [parseNumber (q.untilTime.getD "")] else []

/-- `conditions.length > 0 ? WHERE … : ''`. -/
def whereText (conditions : List String) : String :=
  if 0 < conditions.length then "WHERE " ++ " AND ".intercalate conditions else ""

/-- `text.replace(pattern, by)`: only what is found first. -/
def replaceFirst (pattern replacement : List Char) : List Char → List Char
  | [] => []
  | c :: text =>
    if pattern.isPrefixOf (c :: text) then replacement ++ (c :: text).drop pattern.length
    else c :: replaceFirst pattern replacement text

def ExportType.clause (text : String) : ExportType → String
  | pipelines =>
    if text ≠ "" then
      String.ofList (replaceFirst "created_at".toList "pr.created_at".toList text.toList)
    else ""
  | _ => text

/-- `Math.min(parseInt(limit || '10000'), 50000)`. -/
def exportLimit (limit : Option String) : JsNumber :=
  (parseNumber (orElse (limit.getD "") "10000")).capped 50000

/-- `a <= b`, on the values of columns. -/
def SqlValue.isAtMost : SqlValue → SqlValue → Bool
  | null, _ | _, null => false
  | number m, number n => n.atLeast m
  | number _, text _ => true
  | text s, text t => decide (s ≤ t)
  | text _, number _ => false

def queryException : Query.Failure → Exception
  | .syntaxError => .error "syntax error"
  | .noSuchColumn name => .error ("no such column: " ++ name)
  | .ambiguous name => .error ("ambiguous column name: " ++ name)
  | .parameters => .typeError

/-- Rows come before others that were made no later. -/
def NewestFirst (a b : FromRow) : Prop := b.1.createdAt ≤ a.1.createdAt

/-- **The query of a type.** -/
def exportQuery (sq : Sqlite) (order : OrderBy NewestFirst) (db : ExportDb) (q : ExportRequest)
    (type : ExportType) : Except Exception (List FromRow) :=
  match Query.select SqlValue.isAtMost type.sources (type.clause (whereText q.conditions))
      (q.params.map boundNumber) FromRow.value (db.fromRows type) with
  | .error failure => .error (queryException failure)
  | .ok rows => do
    let limit ← sqlLimit sq (boundNumber (exportLimit q.limit))
    .ok (limit.elim (order.sort rows) fun n => (order.sort rows).take n)

/-! ## The answer -/

/-- `String(val)`, and nothing for what is nothing. -/
def csvText (rt : Runtime) (v : SqlValue) : String := if v = .null then "" else v.toText rt

/-- `str.replace(/"/g, '""')`. -/
def doubleQuotes (str : String) : String :=
  String.ofList (str.toList.flatMap fun c => if c = '"' then ['"', '"'] else [c])

def csvField (str : String) : String :=
  if includes str "," || includes str "\n" || includes str "\"" then
    "\"" ++ doubleQuotes str ++ "\""
  else str

/-- **`csvRows.join('\n')`.** -/
def csvBody (rt : Runtime) (headers : List String) (rows : List DbRow) : String :=
  "\n".intercalate (",".intercalate headers :: rows.map fun row =>
    ",".intercalate (headers.map fun h => csvField (csvText rt (row h))))

/-- The entry of an export in the log of audits. -/
structure ExportAudit where
  action : String
  actor : String
  actorId : ℕ
  type : ExportType
  format : String
  rowCount : ℕ
  ipAddress : String

inductive ExportResponse where
  | error (status : ℕ) (message : String)
  | csv (body filename : String)
  | json (type : ExportType) (exportedAt : String) (count : ℕ) (data : List DbRow)
    (filename : String)

/-- The answer with some rows, and what is logged of it. -/
def exportAnswer (rt : Runtime) (now : ℕ) (q : ExportRequest) (type : ExportType)
    (rows : List DbRow) : ExportAudit × ExportResponse :=
  let format := orElse (q.format.getD "") "csv"
  let ipAddress := orElse (q.forwardedFor.getD "") (orElse (q.realIp.getD "") "unknown")
  let filename := type.filename ++ "-" ++ dateText now
  (⟨"data_export", q.username, q.userId, type, format, rows.length, ipAddress⟩,
    if format = "csv" then .csv (csvBody rt type.headers rows) (filename ++ ".csv")
    else .json type (isoText now) rows.length rows (filename ++ ".json"))

/-- **`GET /api/export`.** -/
def getExport (rt : Runtime) (sq : Sqlite) (order : OrderBy NewestFirst) (now : ℕ)
    (db : ExportDb) (q : ExportRequest) :
    Except Exception (Option ExportAudit × ExportResponse) :=
  match ExportType.ofText (q.type.getD "") with
  | none => .ok (none, .error 400 "type required: audit, tasks, activities, pipelines")
  | some type => do
    let rows ← exportQuery sq order db q type
    let answer := exportAnswer rt now q type (rows.map fun row => row.selected type)
    .ok (some answer.1, answer.2)

/-! ## What is read back -/

theorem includes_of_singleton {str part : String} {c : Char} (hpart : part.toList = [c]) :
    includes str part = true ↔ c ∈ str.toList := by
  unfold includes
  rw [hpart, List.any_eq_true]
  constructor
  · rintro ⟨rest, hrest, hprefix⟩
    have hmem : c ∈ rest := (List.isPrefixOf_iff_prefix.mp hprefix).subset List.mem_cons_self
    exact ((List.mem_tails _ _).mp hrest).subset hmem
  · intro hmem
    obtain ⟨before, behind, heq⟩ := List.append_of_mem hmem
    refine ⟨c :: behind, (List.mem_tails _ _).mpr (heq ▸ List.suffix_append before _), ?_⟩
    exact List.isPrefixOf_iff_prefix.mpr ⟨behind, rfl⟩

/-- **A field is written** so that it is read back. -/
theorem written_csvField (str : String) : Csv.Written (csvField str).toList str.toList := by
  unfold csvField
  split
  · refine .inr ?_
    unfold doubleQuotes Csv.quote
    rw [String.toList_append, String.toList_append,
      String.toList_ofList (l := str.toList.flatMap _)]
    rfl
  · next hnone =>
    simp only [Bool.or_eq_true, not_or] at hnone
    obtain ⟨⟨hcomma, hline⟩, hquote⟩ := hnone
    rw [includes_of_singleton rfl] at hcomma hline hquote
    refine .inl ⟨fun c hc => ⟨?_, ?_, ?_⟩, rfl⟩
    · rintro rfl
      exact hcomma hc
    · rintro rfl
      exact hline hc
    · rintro rfl
      exact hquote hc

theorem ExportType.written_headers (type : ExportType) :
    List.Forall₂ Csv.Written (type.headers.map String.toList)
      (type.headers.map String.toList) := by
  have hplain : ∀ h ∈ type.headers, Csv.Plain h.toList := by
    cases type <;> decide +kernel
  rw [List.forall₂_same]
  intro text htext
  obtain ⟨h, hh, rfl⟩ := List.mem_map.mp htext
  exact .inl ⟨hplain h hh, rfl⟩

/-- A record has some text in it, since there is more than one column. -/
theorem ExportType.record_ne_nil (type : ExportType) (text : String → List Char) :
    Csv.record (type.headers.map text) ≠ [] := by
  have hmore : ∃ h h' rest, type.headers = h :: h' :: rest := by
    cases type <;> exact ⟨_, _, _, rfl⟩
  obtain ⟨h, h', rest, heq⟩ := hmore
  rw [heq, List.map_cons, List.map_cons, Csv.record_cons]
  simp

theorem toList_csvBody (rt : Runtime) (headers : List String) (rows : List DbRow) :
    (csvBody rt headers rows).toList
      = Csv.file (headers.map String.toList :: rows.map fun row =>
        headers.map fun h => (csvField (csvText rt (row h))).toList) := by
  have hlines : (rows.map fun row =>
      ",".intercalate (headers.map fun h => csvField (csvText rt (row h)))).map String.toList
        = (rows.map fun row =>
          headers.map fun h => (csvField (csvText rt (row h))).toList).map Csv.record := by
    rw [List.map_map, List.map_map]
    refine List.map_congr_left fun row _ => ?_
    rw [Function.comp_apply, toList_intercalate, List.map_map]
    rfl
  unfold csvBody Csv.file
  rw [toList_intercalate, List.map_cons, List.map_cons, toList_intercalate, hlines]
  rfl

/-- **What is exported is read back**: the names of the columns, and of each row the texts of
its values. -/
theorem csvBody_readsBack (rt : Runtime) (type : ExportType) (rows : List DbRow) :
    Csv.records (csvBody rt type.headers rows).toList
      = some (type.headers.map String.toList :: rows.map fun row =>
        type.headers.map fun h => (csvText rt (row h)).toList) := by
  rw [toList_csvBody]
  refine Csv.read_file (.cons type.written_headers ?_) ?_
  · rw [List.forall₂_map_left_iff, List.forall₂_map_right_iff, List.forall₂_same]
    intro row _
    rw [List.forall₂_map_left_iff, List.forall₂_map_right_iff, List.forall₂_same]
    exact fun h _ => written_csvField _
  · intro row hrow
    rcases List.mem_cons.mp hrow with rfl | hrow
    · exact type.record_ne_nil _
    · obtain ⟨r, -, rfl⟩ := List.mem_map.mp hrow
      exact type.record_ne_nil _

end MissionControl
