import MissionControl.QualityGate
import MissionControl.JsonRoundTrip
import MissionControl.AgentApi
import MissionControl.Library.Follows
import MissionControl.Library.Records

/-!
# The tasks and agents of the client

The client fetches the tasks and the agents once and follows the events of the server
from there on: `dispatch` of `useClientEvents` gives each event to a reducer of the store.

Events **carry** a store from one property to another if it has the second wherever it
had the first, before they were dispatched. The events of every request about tasks
carry a store that has the tasks of the database as it was to one that has those of the
database as it is.
-/

namespace MissionControl

/-! ## The store -/

/-- The payload of an event about an agent, and the agents of the store. There is no id in
that of a config sync. -/
structure AgentPayload where
  id : Option ℕ
  deriving DecidableEq

/-- **The store**: the slices of the tasks and the agents. -/
structure ClientStore where
  tasks : List ParsedTask
  agents : List AgentPayload

/-- **An event as the client gets it**: of the requests about tasks, or of those about agents. -/
inductive ClientEvent where
  | task (e : BusEvent)
  | agent (e : AgentEvent)

namespace ClientStore

def addTask (store : ClientStore) (task : ParsedTask) : ClientStore :=
  { store with tasks := task :: store.tasks }

def updateTask (store : ClientStore) (taskId : ℕ) (updates : ParsedTask → ParsedTask) :
    ClientStore :=
  { store with tasks := Records.rewrite ParsedTask.id taskId updates store.tasks }

def deleteTask (store : ClientStore) (taskId : ℕ) : ClientStore :=
  { store with tasks := Records.remove ParsedTask.id taskId store.tasks }

def addAgent (store : ClientStore) (agent : AgentPayload) : ClientStore :=
  { store with agents := agent :: store.agents }

def updateAgent (store : ClientStore) (agentId : ℕ) (updates : AgentPayload) : ClientStore :=
  { store with
    agents := Records.rewrite AgentPayload.id (some agentId)
      (fun agent => ⟨updates.id.or agent.id⟩) store.agents }

/-- **`dispatch`.** An id of a row is never `0`, so the ids that events have count as true.
There is a reducer `deleteAgent`, but no case for `agent.deleted`. -/
def dispatch (store : ClientStore) : ClientEvent → ClientStore
  | .task (.taskCreated task) => store.addTask task
  | .task (.taskUpdated task) => store.updateTask task.id fun _ => task
  | .task (.taskStatusChanged id status updatedAt) =>
    store.updateTask id fun task => { task with row := { task.row with status, updatedAt } }
  | .task (.taskDeleted id _) => store.deleteTask id
  | .agent (.created id) => store.addAgent ⟨some id⟩
  | .agent (.synced _ _ _) => store.addAgent ⟨none⟩
  | .agent (.updated id) => store.updateAgent id ⟨some id⟩
  | .agent (.statusChanged id) => store.updateAgent id ⟨some id⟩
  | _ => store

/-- Events that are delivered once each, in order. -/
def deliver (store : ClientStore) (es : List ClientEvent) : ClientStore := es.foldl dispatch store

theorem deliver_append (store : ClientStore) (es es' : List ClientEvent) :
    store.deliver (es ++ es') = (store.deliver es).deliver es' := List.foldl_append

/-- **The store has the tasks of a table**, each once. -/
def HasTasks (store : ClientStore) (tasks : Table TaskRow) : Prop :=
  Records.Mirrors ParsedTask.id store.tasks fun id => (tasks.row id).isSome

/-- **The store has the agents of a table**, each once. -/
def HasAgents (store : ClientStore) (agents : Table AgentRow) : Prop :=
  Records.Mirrors AgentPayload.id store.agents fun id => (id.bind agents.row).isSome

end ClientStore

/-! ## What events do -/

/-- **Events carry a store** from one property to another. -/
def Carries (P : ClientStore → Prop) (es : List ClientEvent) (Q : ClientStore → Prop) : Prop :=
  ∀ store, P store → Q (store.deliver es)

section Carries

variable {P Q R : ClientStore → Prop} {es es' : List ClientEvent}

theorem Carries.append (h : Carries P es Q) (h' : Carries Q es' R) : Carries P (es ++ es') R := by
  intro store hP
  rw [ClientStore.deliver_append]
  exact h' _ (h store hP)

theorem Carries.mono (h : Carries P es Q) (hQR : ∀ store, Q store → R store) :
    Carries P es R := fun store hP => hQR _ (h store hP)

theorem Carries.of_each (h : ∀ e ∈ es, ∀ store, P store → P (store.dispatch e)) :
    Carries P es P := by
  induction es with
  | nil => exact fun store hP => hP
  | cons e es ih =>
    obtain ⟨he, hes⟩ := List.forall_mem_cons.mp h
    exact fun store hP => ih hes _ (he store hP)

end Carries

/-! ## Events about tasks -/

/-- The event neither adds a task to the store nor removes one. -/
def BusEvent.Quiet : BusEvent → Prop
  | taskCreated _ => False
  | taskDeleted _ _ => False
  | _ => True

section Tasks

variable {tasks tasks' : Table TaskRow}

theorem ClientStore.HasTasks.congr {store : ClientStore} (h : store.HasTasks tasks)
    (hsome : ∀ id, (tasks'.row id).isSome = (tasks.row id).isSome) : store.HasTasks tasks' :=
  Records.Mirrors.congr h fun id => by rw [hsome]

theorem agents_dispatch_task (store : ClientStore) (e : BusEvent) :
    (store.dispatch (.task e)).agents = store.agents := by
  cases e <;> rfl

theorem hasTasks_dispatch_quiet {e : BusEvent} (he : e.Quiet) {store : ClientStore}
    (h : store.HasTasks tasks) : (store.dispatch (.task e)).HasTasks tasks := by
  cases e with
  | taskCreated task => exact he.elim
  | taskDeleted id title => exact he.elim
  | taskUpdated task =>
    exact Records.Mirrors.of_map_eq h (Records.map_rewrite (fun _ _ => rfl) _)
  | taskStatusChanged id status updatedAt =>
    have hkey : ∀ task : ParsedTask, task.id = id →
        { task with row := { task.row with status, updatedAt } : ParsedTask }.id = id :=
      fun _ hid => hid
    exact Records.Mirrors.of_map_eq h (Records.map_rewrite hkey _)
  | activityCreated id activity => exact h
  | notificationCreated id notification => exact h
  | githubSynced repo imported skipped errors timestamp => exact h

/-- **Quiet events change no task of the store.** -/
theorem carries_quiet {es : List BusEvent} (hes : ∀ e ∈ es, e.Quiet) :
    Carries (·.HasTasks tasks) (es.map .task) (·.HasTasks tasks) := by
  refine Carries.of_each fun e he store h => ?_
  obtain ⟨e, hmem, rfl⟩ := List.mem_map.mp he
  exact hasTasks_dispatch_quiet (hes e hmem) h

theorem carries_quiet_one {e : BusEvent} (he : e.Quiet) :
    Carries (·.HasTasks tasks) [.task e] (·.HasTasks tasks) :=
  fun _ h => hasTasks_dispatch_quiet he h

/-- **A new row is announced**: it gets into the store. -/
theorem carries_taskCreated {task : ParsedTask} (hid : task.id = tasks.next) (row : TaskRow) :
    Carries (·.HasTasks tasks) [.task (.taskCreated task)] (·.HasTasks (tasks.insert row)) := by
  intro store h
  have hnew : ¬ (tasks.row task.id).isSome := by
    rw [hid, tasks.row_next]
    exact Bool.false_ne_true
  refine (Records.Mirrors.cons h hnew).congr fun id => ?_
  rw [hid]
  by_cases heq : id = tasks.next
  · subst heq
    rw [tasks.row_insert_next]
    simp
  · rw [tasks.row_insert_of_ne row heq]
    simp [heq]

/-- **A row that is gone is announced**: it gets out of the store. -/
theorem carries_taskDeleted (id : ℕ) (title : String) :
    Carries (·.HasTasks tasks) [.task (.taskDeleted id title)]
      (·.HasTasks (tasks.deleteWhere fun i _ => i = id)) := by
  intro store h
  refine (Records.Mirrors.remove h id).congr fun i => ?_
  rw [Option.isSome_iff_exists, Option.isSome_iff_exists]
  simp only [Table.row_deleteWhere_eq_some, decide_eq_false_iff_not]
  constructor
  · rintro ⟨hne, row, hrow⟩
    exact ⟨row, hrow, hne⟩
  · rintro ⟨row, hrow, hne⟩
    exact ⟨hne, row, hrow⟩

end Tasks

/-! ## What is not announced as a task -/

def Work.Quiet (w : Work) : Prop := ∀ e ∈ w.events, e.Quiet

section Quiet

variable {w : Work} (ctx : RequestContext)

theorem quiet_nil (db : TaskDb) : (⟨db, []⟩ : Work).Quiet := fun _ he => nomatch he

theorem Work.Quiet.broadcast (h : w.Quiet) {e : BusEvent} (he : e.Quiet) :
    (w.broadcast e).Quiet := by
  intro e' he'
  obtain he' | he' := List.mem_append.mp he'
  · exact h e' he'
  · rwa [List.mem_singleton.mp he']

theorem Work.Quiet.logActivity (h : w.Quiet) (activity : Activity) :
    (w.logActivity activity).Quiet :=
  Work.Quiet.broadcast (w := { w with db := _ }) h trivial

theorem Work.Quiet.createNotification (h : w.Quiet)
    (recipient type title message : String) (id : ℕ) :
    (w.createNotification ctx recipient type title message id).Quiet :=
  Work.Quiet.broadcast (w := { w with db := _ }) h trivial

theorem Work.Quiet.ensureTaskSubscription (h : w.Quiet) (id : ℕ) (agentName : String) :
    (w.ensureTaskSubscription id agentName).Quiet := by
  intro e he
  rw [Work.events_ensureTaskSubscription] at he
  exact h e he

theorem Work.Quiet.doIf (h : w.Quiet) (c : Bool) {f : Work → Work}
    (hf : ∀ w, w.Quiet → (f w).Quiet) : (w.doIf c f).Quiet := by
  unfold Work.doIf
  split
  · exact hf w h
  · exact h

theorem quiet_createTaskWork (rt : Runtime) (title : String) (body : TaskFields) (db : TaskDb) :
    (createTaskWork rt ctx title body db).Quiet := by
  refine Work.Quiet.doIf ?_ _ fun w hw =>
    (hw.ensureTaskSubscription _ _).createNotification ctx _ _ _ _ _
  exact ((quiet_nil _).logActivity _).ensureTaskSubscription _ _

theorem quiet_announceUpdate (h : w.Quiet) (id : ℕ) (task : TaskRow) (body : TaskFields) :
    (announceUpdate ctx id task body w).Quiet := by
  refine Work.Quiet.doIf (Work.Quiet.doIf (h.doIf _ fun w hw => ?_) _ fun w hw => ?_) _
    fun w hw => hw.logActivity _
  · exact hw.createNotification ctx _ _ _ _ _
  · exact (hw.ensureTaskSubscription _ _).createNotification ctx _ _ _ _ _

theorem Work.Quiet.move (h : w.Quiet) (move : StatusMove) : (w.move ctx move).Quiet := by
  unfold Work.move
  dsimp only
  have hupdated : ∀ f, (w.updateTask move.id f).Quiet := fun _ => h
  split
  · exact hupdated _
  · exact (hupdated _).doIf _ fun w hw => hw.logActivity _

theorem Work.Quiet.foldl_move (h : w.Quiet) (moves : List StatusMove) :
    (moves.foldl (·.move ctx ·) w).Quiet := by
  induction moves generalizing w with
  | nil => exact h
  | cons move moves ih => exact ih (h.move ctx move)

theorem Work.isSome_foldl_move (w : Work) (moves : List StatusMove) (id : ℕ) :
    ((moves.foldl (·.move ctx ·) w).db.tasks.row id).isSome = (w.db.tasks.row id).isSome := by
  induction moves generalizing w with
  | nil => rfl
  | cons move moves ih =>
    rw [List.foldl_cons, ih, Work.tasks_move, Table.isSome_row_update]

end Quiet

/-! ## The requests about tasks -/

/-- **The work announces what it has done to the tasks.** -/
def Announced (db : TaskDb) (w : Work) : Prop :=
  Carries (·.HasTasks db.tasks) (w.events.map .task) (·.HasTasks w.db.tasks)

section Requests

variable {rt : Runtime} {ctx : RequestContext} {db : TaskDb} {w : Work}

theorem Announced.of_quiet (h : w.Quiet)
    (hsome : ∀ id, (w.db.tasks.row id).isSome = (db.tasks.row id).isSome) : Announced db w :=
  (carries_quiet h).mono fun _ hstore => hstore.congr hsome

theorem Announced.refl (db : TaskDb) : Announced db ⟨db, []⟩ :=
  .of_quiet (quiet_nil db) fun _ => rfl

theorem Announced.append (h : Announced db w) {w' : Work} {es : List BusEvent}
    (hevents : w'.events = w.events ++ es)
    (hes : Carries (·.HasTasks w.db.tasks) (es.map .task) (·.HasTasks w'.db.tasks)) :
    Announced db w' := by
  unfold Announced
  rw [hevents, List.map_append]
  exact Carries.append h hes

/-- **A task is created**: its row is inserted, and it is announced behind what is quiet. -/
theorem announced_taskCreated (h : w.Quiet) {row : TaskRow}
    (htasks : w.db.tasks = db.tasks.insert row) {task : ParsedTask}
    (hid : task.id = db.tasks.next) : Announced db (w.broadcast (.taskCreated task)) := by
  show Carries _ ((w.events ++ [BusEvent.taskCreated task]).map .task) (·.HasTasks w.db.tasks)
  rw [List.map_append, htasks]
  exact (carries_quiet h).append (carries_taskCreated hid row)

theorem isSome_readTask {id : ℕ} {row : TaskRow} (hrow : db.tasks.row id = some row)
    {tags metadata : Json} (htags : row.tags = some (jsonText rt tags))
    (hmetadata : row.metadata = some (jsonText rt metadata))
    (htagsRead : Json.NumbersRead rt tags.numbers)
    (hmetadataRead : Json.NumbersRead rt metadata.numbers) :
    (readTask rt db id).isSome := by
  have hparse : ∀ {j : Json} (fallback : String), Json.NumbersRead rt j.numbers →
      Json.parse rt (orElse (jsonText rt j) fallback).toList = some j.readBack := by
    intro j fallback hj
    have hne : jsonText rt j ≠ "" := fun hempty => by
      have hlength := Json.length_stringify_pos hj
      rw [String.ofList_eq_empty_iff.mp hempty] at hlength
      exact absurd hlength (Nat.lt_irrefl 0)
    rw [orElse, if_neg hne, jsonText, String.toList_ofList]
    exact Json.parse_stringify hj
  unfold readTask
  rw [hrow]
  dsimp only
  rw [htags, hmetadata, Option.getD_some, Option.getD_some, hparse _ htagsRead,
    hparse _ hmetadataRead]
  rfl

theorem id_of_readTask {id : ℕ} {task : ParsedTask} (h : readTask rt db id = some task) :
    task.id = id := by
  unfold readTask at h
  split at h
  · cases h
  · split at h
    · cases h
      rfl
    · cases h

theorem numbersRead_texts (rt : Runtime) (texts : List String) :
    Json.NumbersRead rt (Json.arr (texts.map .str)).numbers := by
  have hnone : Json.numbers.numbersOfElements (texts.map .str) = [] := by
    induction texts with
    | nil => rfl
    | cons text texts ih => exact ih
  show Json.NumbersRead rt (Json.numbers.numbersOfElements (texts.map .str))
  rw [hnone]
  exact fun q hq => nomatch hq

theorem postTasks_announced {body : Option Json}
    (hnumbers : ∀ j data, body = some j → createTaskSchema.read j = .ok data →
      Json.NumbersRead rt (Json.obj (data.metadata.getD [])).numbers) :
    Announced db (postTasks rt ctx body db).1 := by
  unfold postTasks
  obtain ⟨response, heq, -⟩ | ⟨j, data, hj, hread, heq⟩ :=
    withBody_cases createTaskSchema body db (createTask rt ctx · db)
  · rw [heq]
    exact .refl db
  · rw [heq]
    obtain ⟨response, heq, -⟩ | ⟨title, -, -, heq⟩ := createTask_cases rt ctx data db
    · rw [heq]
      exact .refl db
    · have htasks := tasks_createTaskWork rt ctx title data db
      have hsome : (readTask rt (createTaskWork rt ctx title data db).db db.tasks.next).isSome :=
        isSome_readTask (by rw [htasks, Table.row_insert_next]) rfl rfl (numbersRead_texts rt _)
          (hnumbers j data hj hread)
      obtain ⟨task, htask⟩ := Option.isSome_iff_exists.mp hsome
      rw [heq]
      unfold Work.respond
      rw [htask]
      exact announced_taskCreated (quiet_createTaskWork ctx rt title data db) htasks
        (id_of_readTask htask)

theorem putTasks_announced (body : Option Json) : Announced db (putTasks ctx body db).1 := by
  unfold putTasks
  obtain ⟨response, heq, -⟩ | ⟨j, moves, -, -, heq⟩ :=
    withBody_cases bulkUpdateTaskStatusSchema body db (bulkUpdate ctx · db)
  · rw [heq]
    exact .refl db
  · rw [heq]
    obtain hall | ⟨pre, bad, post, rfl, hpre, hbad⟩ := exists_first_refused ctx db moves
    · unfold bulkUpdate
      rw [Work.moveAll_of_forall ctx ⟨db, []⟩ hall]
      refine .of_quiet (fun e he => ?_) fun id => ?_
      · obtain he | he := List.mem_append.mp he
        · exact (quiet_nil db).foldl_move ctx moves e he
        · obtain ⟨move, -, rfl⟩ := List.mem_map.mp he
          exact trivial
      · exact Work.isSome_foldl_move ctx ⟨db, []⟩ moves id
    · rw [bulkUpdate_of_refused ctx hpre hbad]
      exact .of_quiet ((quiet_nil db).foldl_move ctx pre) fun _ => rfl

theorem putTask_announced (idText : String) (body : Option Json) :
    Announced db (putTask rt ctx idText body db).1 := by
  unfold putTask
  obtain ⟨response, heq, -⟩ | ⟨j, data, -, -, heq⟩ :=
    withBody_cases updateTaskSchema body db (updateTask rt ctx idText · db)
  · rw [heq]
    exact .refl db
  · rw [heq]
    obtain ⟨response, heq, -⟩ | ⟨n, id, task, -, -, -, heq⟩ :=
      updateTask_cases rt ctx idText data db
    · rw [heq]
      exact .refl db
    · have hquiet := quiet_announceUpdate ctx
        (w := Work.updateTask ⟨db, []⟩ id (assignAll (updateAssignments rt ctx data)))
        (quiet_nil db) id task data
      have hsome : ∀ i, ((announceUpdate ctx id task data (Work.updateTask ⟨db, []⟩ id
          (assignAll (updateAssignments rt ctx data)))).db.tasks.row i).isSome
            = (db.tasks.row i).isSome := fun i => by
        rw [tasks_announceUpdate]
        exact db.tasks.isSome_row_update _ _ i
      rw [heq]
      obtain heq | ⟨parsed, -, heq⟩ := Work.respond_cases rt (announceUpdate ctx id task data
        (Work.updateTask ⟨db, []⟩ id (assignAll (updateAssignments rt ctx data)))) id
        .taskUpdated 200 "Failed to update task"
      · rw [heq]
        exact .of_quiet hquiet hsome
      · rw [heq]
        exact .of_quiet (hquiet.broadcast trivial) hsome

theorem deleteTask_announced (idText : String) :
    Announced db (deleteTask ctx idText db).1 := by
  unfold deleteTask
  split
  · exact .refl db
  · split
    · exact .refl db
    · next id task _ =>
      refine Announced.append (w := ⟨db, [.activityCreated _ _]⟩) (.of_quiet ?_ fun _ => rfl)
        rfl (carries_taskDeleted id task.title)
      exact List.forall_mem_singleton.mpr trivial

theorem postReview_announced (body : Option Json) : Announced db (postReview ctx body db).1 := by
  unfold postReview
  obtain ⟨response, heq, -⟩ | ⟨j, fields, -, -, heq⟩ :=
    withBody_cases qualityReviewSchema body db (createReview ctx · db)
  · rw [heq]
    exact .refl db
  · rw [heq]
    unfold createReview
    split
    · exact .refl db
    · exact .of_quiet ((quiet_nil _).logActivity _) fun _ => rfl

/-- **The import of an issue announces what it does.** -/
theorem Announced.issue {p : SyncProgress} (h : Announced db p.work) (repo : String)
    (assignAgent : Option String) {issue : GitHubIssue}
    (hnumber : Json.NumbersRead rt [(issue.number : ℚ)]) :
    Announced db (p.issue rt ctx repo assignAgent issue).work := by
  unfold SyncProgress.issue
  split
  · exact h
  · exact h
  · dsimp only
    have hread : ∀ {db : TaskDb} {id : ℕ},
        db.tasks.row id = some (importedRow rt ctx repo assignAgent issue) →
        (readTask rt db id).isSome := fun hrow =>
      isSome_readTask hrow rfl rfl (numbersRead_texts rt _) hnumber
    split
    · next hnone =>
      exact absurd hnone (Option.isSome_iff_ne_none.mp (hread (Table.row_insert_next _ _)))
    · next task htask =>
      refine h.append (List.append_assoc p.work.events _ _) ((carries_quiet_one ?_).append
        (carries_taskCreated (id_of_readTask htask) _))
      exact trivial

theorem handleSync_announced (repo : String) (assignAgent : Option String)
    {issues : List GitHubIssue}
    (hnumbers : ∀ issue ∈ issues, Json.NumbersRead rt [(issue.number : ℚ)]) :
    Announced db (handleSync rt ctx repo assignAgent issues db).1 := by
  have himport : Announced db (importIssues rt ctx repo assignAgent issues db).work := by
    induction issues using List.reverseRecOn with
    | nil => exact .refl db
    | append_singleton issues issue ih =>
      obtain ⟨hissues, hissue⟩ := List.forall_mem_append.mp hnumbers
      unfold importIssues
      rw [List.foldl_append]
      exact (ih hissues).issue repo assignAgent (hissue issue (List.mem_singleton_self issue))
  refine himport.append rfl (carries_quiet_one ?_)
  exact trivial

/-- **The numbers of a request are read back**, as far as they get into the metadata of a
task: the runtime writes them as texts that it reads. -/
def TaskRequest.NumbersRead (rt : Runtime) : TaskRequest → Prop
  | create body => ∀ j data, body = some j → createTaskSchema.read j = .ok data →
      Json.NumbersRead rt (Json.obj (data.metadata.getD [])).numbers
  | sync _ _ issues => ∀ issue ∈ issues, Json.NumbersRead rt [(issue.number : ℚ)]
  | bulk _ | update _ _ | delete _ | review _ => True

/-- **Every request announces what it does to the tasks.** -/
theorem serve_announced {request : TaskRequest} (h : request.NumbersRead rt) :
    Announced db (request.serve rt ctx db).1 := by
  cases request with
  | create body => exact postTasks_announced h
  | bulk body => exact putTasks_announced body
  | update idText body => exact putTask_announced idText body
  | delete idText => exact deleteTask_announced idText
  | review body => exact postReview_announced body
  | sync repo assignAgent issues => exact handleSync_announced repo assignAgent h

end Requests

end MissionControl
