import MissionControl.Tasks

/-!
# What a partial update leaves alone

`PUT /api/tasks/[id]` writes the columns whose parsed property is not
`undefined`. Four properties of the schema have a default, which making them
optional does not take away: where the body does not name them, the parsed
object does, and the column is set to the default.

So an update keeps every column the body does not name exactly when the four
columns, where it does not name them, hold their defaults already.
-/

namespace MissionControl

variable (rt : Runtime) (ctx : RequestContext)

/-! ## The row an update leaves -/

def updatedRow (body : TaskFields) (t : TaskRow) : TaskRow where
  title := body.title.getD t.title
  description := (body.description.map some).getD t.description
  status := body.status.getD t.status
  priority := body.priority.getD t.priority
  assignedTo := (body.assignedTo.map some).getD t.assignedTo
  createdBy := t.createdBy
  createdAt := t.createdAt
  updatedAt := ctx.now
  dueDate := (body.dueDate.map some).getD t.dueDate
  estimatedHours := (body.estimatedHours.map some).getD t.estimatedHours
  actualHours := (body.actualHours.map some).getD t.actualHours
  tags := (body.tags.map fun v => some (jsonText rt (.arr (v.map .str)))).getD t.tags
  metadata := (body.metadata.map fun v => some (jsonText rt (.obj v))).getD t.metadata

theorem assignAll_append (xs ys : List Assignment) (t : TaskRow) :
    assignAll (xs ++ ys) t = assignAll ys (assignAll xs t) :=
  List.foldl_append

/-- A column that an assignment writes: `put` writes a value into it, `old` is
the value it has. -/
theorem assignAll_assignment {α : Type} (text : String) (value : Option α)
    (put : α → TaskRow → TaskRow) {old : α} {t : TaskRow}
    (hold : put old t = t) :
    assignAll (assignment text value put) t = put (value.getD old) t := by
  cases value with
  | none => exact hold.symm
  | some a => rfl

/-- **The `UPDATE` writes the properties that are not `undefined`.** -/
theorem assignAll_updateAssignments (body : TaskFields) (t : TaskRow) :
    assignAll (updateAssignments rt ctx body) t = updatedRow rt ctx body t := by
  unfold updateAssignments fieldsToUpdate
  simp only [assignAll_append]
  rw [assignAll_assignment _ _ (fun v t => { t with title := v }) rfl,
    assignAll_assignment _ _ (fun v t => { t with description := v }) rfl,
    assignAll_assignment _ _ (fun v t => { t with status := v }) rfl,
    assignAll_assignment _ _ (fun v t => { t with priority := v }) rfl,
    assignAll_assignment _ _ (fun v t => { t with assignedTo := v }) rfl,
    assignAll_assignment _ _ (fun v t => { t with dueDate := v }) rfl,
    assignAll_assignment _ _ (fun v t => { t with estimatedHours := v }) rfl,
    assignAll_assignment _ _ (fun v t => { t with actualHours := v }) rfl,
    assignAll_assignment _ _ (fun v t => { t with tags := v }) rfl,
    assignAll_assignment _ _ (fun v t => { t with metadata := v }) rfl,
    assignAll_assignment _ _ (fun v t => { t with updatedAt := v }) rfl]
  rfl

/-! ## Success -/

/-- **An update that succeeds**: the body passes the schema, the task is there,
and its row is the updated one. -/
theorem putTask_ok {idText : String} {body : Json} {db : TaskDb}
    (hok : (putTask rt ctx idText (some body) db).2.status = 200) :
    ∃ n id task data, parseInt idText = some n
      ∧ db.findTask n = some (id, task)
      ∧ updateTaskSchema.read body = .ok data
      ∧ (putTask rt ctx idText (some body) db).1.db.tasks
          = db.tasks.update id (updatedRow rt ctx data) := by
  unfold putTask at hok ⊢
  rcases withBody_cases updateTaskSchema (some body) db
    (updateTask rt ctx idText · db) with
    ⟨response, heq, hstatus⟩ | ⟨j, data, hj, hread, heq⟩
  · rw [heq] at hok
    exact absurd (hok ▸ hstatus : 400 ≤ 200) (by decide)
  · cases hj
    rw [heq] at hok ⊢
    rcases updateTask_cases rt ctx idText data db with
      ⟨response, heq, hstatus⟩ | ⟨n, id, task, hn, hfind, -, heq⟩
    · rw [heq] at hok
      exact absurd (hok ▸ hstatus : 400 ≤ 200) (by decide)
    · refine ⟨n, id, task, data, hn, hfind, hread, ?_⟩
      rw [heq, Work.db_respond, tasks_announceUpdate]
      show db.tasks.update id _ = _
      rw [funext (assignAll_updateAssignments rt ctx data)]

/-! ## The columns a body does not name -/

/-- The columns that the schema has a default for, with what the default is
stored as. -/
def columnDefaults : List (TaskColumn × SqlValue) :=
  [(.status, .text "inbox"), (.priority, .text "medium"), (.tags, .text "[]"),
    (.metadata, .text "\x7b\x7d")]

/-- The columns a body does not name hold what they held, but for the time of
the update. -/
def KeepsAbsent (body : Json) (old new : TaskRow) : Prop :=
  ∀ c : TaskColumn, c ≠ .updatedAt → Json.get? (some body) c.name = none →
    new.column c = old.column c

/-- The columns with a default, where a body does not name them, hold it. -/
def DefaultsStored (body : Json) (t : TaskRow) : Prop :=
  ∀ c d, (c, d) ∈ columnDefaults → Json.get? (some body) c.name = none →
    t.column c = d

/-- **A column with a default is set to it where the body does not name it.** -/
theorem column_updatedRow_default {body : Json} {data : TaskFields}
    (hread : updateTaskSchema.read body = .ok data) (t : TaskRow)
    {c : TaskColumn} {d : SqlValue} (hd : (c, d) ∈ columnDefaults)
    (habsent : Json.get? (some body) c.name = none) :
    (updatedRow rt ctx data t).column c = d := by
  obtain ⟨fields, rfl, hparse⟩ := Reader.object_read_eq_ok.mp hread
  obtain ⟨-, -, hstatus, hpriority, -, -, -, -, -, htags, hmetadata⟩ :=
    TaskShape.parse_eq_ok.mp hparse
  have hlookup : fields.lookup c.name = none := habsent
  simp only [columnDefaults, List.mem_cons, Prod.mk.injEq, List.not_mem_nil,
    or_false] at hd
  rcases hd with ⟨rfl, rfl⟩ | ⟨rfl, rfl⟩ | ⟨rfl, rfl⟩ | ⟨rfl, rfl⟩
  · have hdata :=
      Schema.eq_of_absent hlookup hstatus (Schema.parse_optional_default _ _)
    rw [TaskRow.column, updatedRow, hdata]
    rfl
  · have hdata :=
      Schema.eq_of_absent hlookup hpriority (Schema.parse_optional_default _ _)
    rw [TaskRow.column, updatedRow, hdata]
    rfl
  · have hdata :=
      Schema.eq_of_absent hlookup htags (Schema.parse_optional_default _ _)
    rw [TaskRow.column, updatedRow, hdata]
    rfl
  · have hdata :=
      Schema.eq_of_absent hlookup hmetadata (Schema.parse_optional_default _ _)
    rw [TaskRow.column, updatedRow, hdata]
    rfl

/-- **Any other column is kept** where the body does not name it. -/
theorem column_updatedRow_kept {body : Json} {data : TaskFields}
    (hread : updateTaskSchema.read body = .ok data) (t : TaskRow)
    {c : TaskColumn} (hd : c ∉ columnDefaults.map Prod.fst)
    (hc : c ≠ .updatedAt) (habsent : Json.get? (some body) c.name = none) :
    (updatedRow rt ctx data t).column c = t.column c := by
  obtain ⟨fields, rfl, hparse⟩ := Reader.object_read_eq_ok.mp hread
  obtain ⟨htitle, hdescription, -, -, hassignee, -, hdue, hestimated, hactual, -,
    -⟩ := TaskShape.parse_eq_ok.mp hparse
  have hlookup : fields.lookup c.name = none := habsent
  cases c with
  | status | priority | tags | metadata => exact absurd (by decide) hd
  | updatedAt => exact absurd rfl hc
  | createdBy | createdAt => rfl
  | title =>
    have hdata :=
      Schema.eq_of_absent hlookup htitle (Schema.parse_optional_required _)
    rw [TaskRow.column, updatedRow, hdata]
    rfl
  | description =>
    have hdata :=
      Schema.eq_of_absent hlookup hdescription (Schema.parse_optional_optional _)
    rw [TaskRow.column, updatedRow, hdata]
    rfl
  | assignedTo =>
    have hdata :=
      Schema.eq_of_absent hlookup hassignee (Schema.parse_optional_optional _)
    rw [TaskRow.column, updatedRow, hdata]
    rfl
  | dueDate =>
    have hdata :=
      Schema.eq_of_absent hlookup hdue (Schema.parse_optional_optional _)
    rw [TaskRow.column, updatedRow, hdata]
    rfl
  | estimatedHours =>
    have hdata :=
      Schema.eq_of_absent hlookup hestimated (Schema.parse_optional_optional _)
    rw [TaskRow.column, updatedRow, hdata]
    rfl
  | actualHours =>
    have hdata :=
      Schema.eq_of_absent hlookup hactual (Schema.parse_optional_optional _)
    rw [TaskRow.column, updatedRow, hdata]
    rfl

/-- **An update keeps what the body does not name exactly when the defaults
are stored already.** -/
theorem keepsAbsent_updatedRow_iff {body : Json} {data : TaskFields}
    (hread : updateTaskSchema.read body = .ok data) (t : TaskRow) :
    KeepsAbsent body t (updatedRow rt ctx data t) ↔ DefaultsStored body t := by
  constructor
  · intro h c d hd habsent
    have hc : c ≠ .updatedAt := by
      rintro rfl
      have hmem : TaskColumn.updatedAt ∈ columnDefaults.map Prod.fst :=
        List.mem_map_of_mem hd
      exact absurd hmem (by decide)
    rw [← h c hc habsent]
    exact column_updatedRow_default rt ctx hread t hd habsent
  · intro h c hc habsent
    by_cases hd : c ∈ columnDefaults.map Prod.fst
    · obtain ⟨⟨c', d⟩, hmem, rfl⟩ := List.mem_map.mp hd
      rw [column_updatedRow_default rt ctx hread t hmem habsent,
        h c' d hmem habsent]
    · exact column_updatedRow_kept rt ctx hread t hd hc habsent

/-- **A successful update keeps every column the body does not name exactly
when the status, the priority, the tags and the metadata, as far as the body
does not name them, were at their defaults.** -/
theorem putTask_keepsAbsent_iff {idText : String} {body : Json} {db : TaskDb}
    {id : ℕ} {task : TaskRow} (hid : parseInt idText = some (id : ℤ))
    (hrow : db.tasks.row id = some task)
    (hok : (putTask rt ctx idText (some body) db).2.status = 200) :
    (∃ task', (putTask rt ctx idText (some body) db).1.db.tasks.row id
        = some task' ∧ KeepsAbsent body task task')
      ↔ DefaultsStored body task := by
  obtain ⟨n, id', task', data, hn, hfind, hread, htasks⟩ := putTask_ok rt ctx hok
  obtain ⟨rfl, hrow'⟩ := TaskDb.findTask_eq_some.mp hfind
  obtain rfl : id = id' := by exact_mod_cast Option.some.inj (hid.symm.trans hn)
  rw [htasks, Table.row_update_self, hrow, Option.map_some,
    ← keepsAbsent_updatedRow_iff rt ctx hread task]
  simp only [Option.some.injEq, exists_eq_left']

/-- A new title for a task without priority, tags and metadata of its own, in
the inbox. -/
theorem putTask_keepsAbsent_iff_sample :
    (∃ task', (putTask sampleRuntime sampleContext "1"
        (some (.obj [("title", .str "Fix the login")]))
        (sampleTasks [{ sampleTask with
          status := .inbox, priority := .medium, tags := some "[]" }])).1.db.tasks.row 1
        = some task'
      ∧ KeepsAbsent (.obj [("title", .str "Fix the login")])
        { sampleTask with
          status := .inbox, priority := .medium, tags := some "[]" } task')
      ↔ DefaultsStored (.obj [("title", .str "Fix the login")])
        { sampleTask with
          status := .inbox, priority := .medium, tags := some "[]" } :=
  putTask_keepsAbsent_iff sampleRuntime sampleContext (by decide) rfl (by decide)

/-- **A new title moves a task back to the inbox**: what an update does not
name is not always kept. -/
theorem not_putTask_keepsAbsent :
    ¬ ∀ (rt : Runtime) (ctx : RequestContext) (idText : String) (body : Json)
      (db : TaskDb) (id : ℕ) (task : TaskRow), parseInt idText = some (id : ℤ) →
      db.tasks.row id = some task →
      (putTask rt ctx idText (some body) db).2.status = 200 →
      ∃ task', (putTask rt ctx idText (some body) db).1.db.tasks.row id
          = some task' ∧ KeepsAbsent body task task' := by
  intro h
  obtain ⟨task', hrow, hkeeps⟩ := h sampleRuntime sampleContext "1"
    (.obj [("title", .str "Fix the login")]) (sampleTasks [sampleTask]) 1
    sampleTask (by decide) rfl (by decide)
  have hstatus : task'.status = .inbox := by
    have hmap := congrArg (Option.map TaskRow.status) hrow
    exact (Option.some.inj (hmap.symm.trans (by decide)))
  have hkept := hkeeps .status (by decide) (by decide)
  rw [TaskRow.column, TaskRow.column, hstatus] at hkept
  exact absurd hkept (by decide)

end MissionControl
