import MissionControl.ListQueries
import MissionControl.ReviewBoard

/-!
# The task board

The board shows the tasks it has fetched, and moves a task as soon as it is dropped on a
column; the server is told meanwhile. For a move to done the board first asks for the reviews
of the task. If something goes wrong it puts the task back to where it was dragged from.

Where the board does one thing about a task at a time, each task that it shows and that is not
being moved has the status that the server has, exactly as long as no one else moves a task
that is shown, no answer of a move that was made is lost, and what is fetched has not changed
on its way (`taskBoard_agrees_iff`).
-/

namespace MissionControl

/-! ## The board and the server -/

structure BoardTask where
  task : ParsedTask
  aegisApproved : Bool

def BoardTask.id (t : BoardTask) : ℕ := t.task.id

def BoardTask.status (t : BoardTask) : TaskStatus := t.task.row.status

/-- `{ ...task, status }`. -/
def BoardTask.withStatus (t : BoardTask) (status : TaskStatus) : BoardTask :=
  { t with task := { t.task with row := { t.task.row with status } } }

/-- `{ ...task, status, updated_at }`. -/
def BoardTask.moved (t : BoardTask) (status : TaskStatus) (now : ℕ) : BoardTask :=
  { t with task := { t.task with row := { t.task.row with status, updatedAt := now } } }

/-- How far a drop is: the reviews are asked for, or the answer is on its way; the move is
asked for, or the answer is on its way. -/
inductive DropStage where
  | checking
  | checked (answer : Except String Unit)
  | moving
  | moved (answer : Except String Unit)

structure BoardDrop where
  draggedTask : BoardTask
  newStatus : TaskStatus
  stage : DropStage

/-- What has come of a fetch, on its way to the board. -/
inductive BoardFetch where
  | failed
  | listed (tasks : List ParsedTask)
  | ready (tasks : List BoardTask)

/-- **A board and the server**: the database, what the board has, and the drops and fetches
that are under way. -/
structure TaskBoard where
  db : TaskDb
  tasks : List BoardTask
  draggedTask : Option BoardTask
  error : Option String
  drops : Table BoardDrop
  fetches : Table BoardFetch

def TaskBoard.opened (db : TaskDb) : TaskBoard := ⟨db, [], none, none, .empty, .empty⟩

/-- What is around a board: the runtime, and how the database orders rows. -/
structure BoardSite where
  rt : Runtime
  sq : Sqlite
  tasks : Descending fun r : ℕ × TaskRow => r.2.createdAt
  reviews : ReviewOrders

/-- **What happens.** -/
inductive BoardAction where
  | request (ctx : RequestContext) (request : TaskRequest)
  /-- A task that is shown is dragged, and dropped on a column. -/
  | drag (i : ℕ)
  | drop (newStatus : TaskStatus) (now : ℕ)
  /-- A request of a drop is served; the answer comes, or one of them is lost. -/
  | serve (i : ℕ) (ctx : RequestContext)
  | settle (i now : ℕ)
  | lose (i : ℕ) (message : String)
  /-- The tasks are listed, the reviews of them too; the answers come, or are lost. -/
  | load
  | review (i : ℕ) (ok : Bool)
  | respond (i : ℕ)
  | abort (i : ℕ) (message : String)

/-- The body of the `PUT` of a drop. -/
def moveBody (id : ℕ) (status : TaskStatus) : Json :=
  .obj [("tasks", .arr [.obj [("id", .ofNat id), ("status", .str status.text)]])]

/-- `data.error || 'Failed to update task status'`. -/
def ApiResponse.errorText : ApiResponse → String
  | .invalid _ => "Validation failed"
  | .json _ body =>
    match Json.get? (some body) "error" with
    | some (.str text) => orElse text "Failed to update task status"
    | _ => "Failed to update task status"

namespace TaskBoard

variable (v : TaskBoard)

/-- A task is shown at another place, before the server knows. -/
def moveTo (id : ℕ) (status : TaskStatus) (now : ℕ) : TaskBoard :=
  { v with tasks := v.tasks.map fun t => if t.id = id then t.moved status now else t }

/-- A drop goes wrong: the task is put back. -/
def revert (i : ℕ) (draggedTask : BoardTask) (message : String) : TaskBoard :=
  { v with
    tasks := v.tasks.map fun t =>
      if t.id = draggedTask.id then t.withStatus draggedTask.status else t
    error := some message
    drops := v.drops.deleteWhere fun j _ => j = i
    draggedTask := none }

def setStage (i : ℕ) (stage : DropStage) : TaskBoard :=
  { v with drops := v.drops.update i fun d => { d with stage } }

/-- **`handleDrop`**, up to its first wait. -/
def handleDrop (newStatus : TaskStatus) (now : ℕ) : TaskBoard :=
  match v.draggedTask with
  | none => v
  | some t =>
    if t.status = newStatus then { v with draggedTask := none }
    else if newStatus = .done then { v with drops := v.drops.insert ⟨t, newStatus, .checking⟩ }
    else { v.moveTo t.id newStatus now with drops := v.drops.insert ⟨t, newStatus, .moving⟩ }

/-- What the board makes of the answer to a move. -/
def moveAnswer (response : ApiResponse) : Except String Unit :=
  if response.status = 200 then .ok () else .error response.errorText

def serveDrop (site : BoardSite) (ctx : RequestContext) (i : ℕ) (d : BoardDrop) : TaskBoard :=
  match d.stage with
  | .checking => v.setStage i (.checked (verifyDone site.reviews v.db d.draggedTask.id))
  | .moving =>
    let answer := putTasks ctx (some (moveBody d.draggedTask.id d.newStatus)) v.db
    { v.setStage i (.moved (moveAnswer answer.2)) with db := answer.1.db }
  | _ => v

/-- **`handleDrop`** goes on with an answer. -/
def settleDrop (i now : ℕ) (d : BoardDrop) : TaskBoard :=
  match d.stage with
  | .checked (.ok ()) => (v.moveTo d.draggedTask.id d.newStatus now).setStage i .moving
  | .moved (.ok ()) =>
    { v with drops := v.drops.deleteWhere (fun j _ => j = i), draggedTask := none }
  | .checked (.error message) | .moved (.error message) => v.revert i d.draggedTask message
  | _ => v

/-- `fetchData` is answered with the list of the tasks. -/
def listTasks (site : BoardSite) : TaskBoard :=
  match getTasks site.rt site.sq site.tasks v.db ⟨none, none, none, none, none⟩ with
  | .error _ _ => { v with error := none, fetches := v.fetches.insert .failed }
  | .page tasks _ _ _ => { v with error := none, fetches := v.fetches.insert (.listed tasks) }

/-- The tasks of a fetch with their badges. -/
def badgeTasks (site : BoardSite) (ok : Bool) (tasks : List ParsedTask) : List BoardTask :=
  tasks.map fun t =>
    ⟨t, ok && MissionControl.aegisApproved site.reviews v.db (tasks.map ParsedTask.id) t.id⟩

end TaskBoard

/-- **The task board**, with its server. -/
def taskBoard (site : BoardSite) : Machine TaskBoard BoardAction Empty where
  step v
    | .request ctx request => ({ v with db := (request.serve site.rt ctx v.db).1.db }, [])
    | .drag i => ({ v with draggedTask := (v.tasks[i]?).or v.draggedTask }, [])
    | .drop newStatus now => (v.handleDrop newStatus now, [])
    | .serve i ctx => ((v.drops.row i).elim v (v.serveDrop site ctx i), [])
    | .settle i now => ((v.drops.row i).elim v (v.settleDrop i now), [])
    | .lose i message =>
      ((v.drops.row i).elim v fun d => v.revert i d.draggedTask message, [])
    | .load => (v.listTasks site, [])
    | .review i ok =>
      match v.fetches.row i with
      | some (.listed tasks) =>
        ({ v with fetches := v.fetches.update i fun _ => .ready (v.badgeTasks site ok tasks) }, [])
      | _ => (v, [])
    | .respond i =>
      match v.fetches.row i with
      | some .failed =>
        ({ v with
          error := some "Failed to fetch data"
          fetches := v.fetches.deleteWhere fun j _ => j = i }, [])
      | some (.ready tasks) =>
        ({ v with tasks, fetches := v.fetches.deleteWhere fun j _ => j = i }, [])
      | _ => (v, [])
    | .abort i message =>
      ({ v with error := some message, fetches := v.fetches.deleteWhere fun j _ => j = i }, [])

/-! ## What is promised -/

namespace TaskBoard

variable (v : TaskBoard)

/-- The status that the server has of a task. -/
def serverStatus (id : ℕ) : Option TaskStatus := (v.db.tasks.row id).map TaskRow.status

/-- No drop of a task is under way. -/
def Idle (id : ℕ) : Prop := ∀ i d, v.drops.row i = some d → d.draggedTask.id ≠ id

/-- **The board agrees with the server**: each task that is shown and not being moved has the
status that the server has. -/
def Agrees : Prop := ∀ t ∈ v.tasks, v.Idle t.id → v.serverStatus t.id = some t.status

/-- The server before and after a request that is not the board's. -/
def Unchanged (site : BoardSite) (ctx : RequestContext) (request : TaskRequest) (id : ℕ) : Prop :=
  ((request.serve site.rt ctx v.db).1.db.tasks.row id).map TaskRow.status = v.serverStatus id

/-- **One thing at a time** about a task: it is not dragged or dropped while a drop of it is
under way, others do not move it while it is dragged or moved, and no tasks come while a drop
is under way. -/
def OneAtATime (site : BoardSite) : BoardAction → Prop
  | .request ctx request => ∀ id,
      ¬ v.Idle id ∨ (∃ t, v.draggedTask = some t ∧ t.id = id) → v.Unchanged site ctx request id
  | .drag i => ∀ t, v.tasks[i]? = some t → v.Idle t.id
  | .drop _ _ => ∀ t, v.draggedTask = some t → v.Idle t.id
  | .respond _ => ∀ i, v.drops.row i = none
  | _ => True

/-- **What keeps the agreement**: others leave the tasks that are shown where they are, the
answer of a move that was made is not lost, and what comes of a fetch is as the server has
it. -/
def KeepsAgreement (site : BoardSite) : BoardAction → Prop
  | .request ctx request => ∀ t ∈ v.tasks, v.Idle t.id → v.Unchanged site ctx request t.id
  | .lose i _ => ∀ d, v.drops.row i = some d → d.stage = .moved (.ok ()) →
      ∀ t ∈ v.tasks, t.id ≠ d.draggedTask.id
  | .respond i => ∀ tasks, v.fetches.row i = some (.ready tasks) →
      ∀ t ∈ tasks, v.serverStatus t.id = some t.status
  | _ => True

end TaskBoard

/-! ## What holds of a drop -/

/-- The status that the server has of a task that is moved. -/
def BoardDrop.served (d : BoardDrop) : TaskStatus :=
  match d.stage with
  | .moved (.ok ()) => d.newStatus
  | _ => d.draggedTask.status

/-- The status that the board shows of a task that is moved. -/
def BoardDrop.shown (d : BoardDrop) : TaskStatus :=
  match d.stage with
  | .checking | .checked _ => d.draggedTask.status
  | .moving | .moved _ => d.newStatus

namespace TaskBoard

/-- **The board follows the server**: it agrees with it, and of each task that is moved, which
is moved by one drop, both have what the stage of the drop tells. -/
structure Follows (v : TaskBoard) : Prop where
  agrees : v.Agrees
  served : ∀ i d, v.drops.row i = some d → v.serverStatus d.draggedTask.id = some d.served
  shown : ∀ i d, v.drops.row i = some d →
    ∀ t ∈ v.tasks, t.id = d.draggedTask.id → t.status = d.shown
  one : ∀ i j d d', v.drops.row i = some d → v.drops.row j = some d' →
    d.draggedTask.id = d'.draggedTask.id → i = j
  differs : ∀ i d, v.drops.row i = some d → d.draggedTask.status ≠ d.newStatus
  dragged : ∀ t, v.draggedTask = some t → v.Idle t.id → v.serverStatus t.id = some t.status

section Steps

variable {v v' : TaskBoard} {i : ℕ} {d : BoardDrop} {site : BoardSite}

theorem mem_map_ite {tasks : List BoardTask} {id : ℕ} {status : TaskStatus}
    {f : BoardTask → BoardTask} (hid : ∀ t, (f t).id = t.id) (hstatus : ∀ t, (f t).status = status)
    {t' : BoardTask} (h : t' ∈ tasks.map fun t => if t.id = id then f t else t) :
    (t' ∈ tasks ∧ t'.id ≠ id) ∨ (t'.id = id ∧ t'.status = status) := by
  obtain ⟨t, ht, rfl⟩ := List.mem_map.mp h
  split
  · next heq => exact .inr ⟨(hid t).trans heq, hstatus t⟩
  · next hne => exact .inl ⟨ht, hne⟩

/-- **A drop is put in its place**: what it tells of its task is so, no other one moves the
task, and nothing else has changed. -/
theorem Follows.put (h : v.Follows) (hself : v'.drops.row i = some d)
    (hrows : ∀ j ≠ i, v'.drops.row j = v.drops.row j)
    (hold : ∀ e, v.drops.row i = some e → e.draggedTask.id = d.draggedTask.id)
    (hother : ∀ j e, j ≠ i → v.drops.row j = some e → e.draggedTask.id ≠ d.draggedTask.id)
    (hdragged : v'.draggedTask = v.draggedTask) (hdiffers : d.draggedTask.status ≠ d.newStatus)
    (hserver : ∀ id ≠ d.draggedTask.id, v'.serverStatus id = v.serverStatus id)
    (hserved : v'.serverStatus d.draggedTask.id = some d.served)
    (htasks : ∀ t ∈ v'.tasks, (t ∈ v.tasks ∧ t.id ≠ d.draggedTask.id)
      ∨ (t.id = d.draggedTask.id ∧ t.status = d.shown)) : v'.Follows := by
  have hrow : ∀ {j : ℕ} {e : BoardDrop}, v'.drops.row j = some e →
      (j = i ∧ e = d) ∨ (j ≠ i ∧ v.drops.row j = some e) := fun {j e} he => by
    by_cases hj : j = i
    · rw [hj, hself] at he
      exact .inl ⟨hj, (Option.some.inj he).symm⟩
    · exact .inr ⟨hj, hrows j hj ▸ he⟩
  have hidle : ∀ {id : ℕ}, v'.Idle id → v.Idle id ∧ id ≠ d.draggedTask.id := fun {id} hid => by
    refine ⟨fun j e he heq => ?_, fun heq => hid i d hself heq.symm⟩
    by_cases hj : j = i
    · exact hid i d hself ((hold e (hj ▸ he)).symm.trans heq)
    · exact hid j e ((hrows j hj).trans he) heq
  refine ⟨fun t ht hid => ?_, fun j e he => ?_, fun j e he t ht hid => ?_,
    fun j k e e' he he' hid => ?_, fun j e he => ?_, fun t ht hid => ?_⟩
  · obtain ⟨hid, hne⟩ := hidle hid
    rcases htasks t ht with ⟨ht, -⟩ | ⟨heq, -⟩
    · rw [hserver _ hne, h.agrees t ht hid]
    · exact absurd heq hne
  · rcases hrow he with ⟨-, rfl⟩ | ⟨hj, he⟩
    · exact hserved
    · rw [hserver _ (hother j e hj he), h.served j e he]
  · rcases hrow he with ⟨-, rfl⟩ | ⟨hj, he⟩
    · rcases htasks t ht with ⟨-, hne⟩ | ⟨-, hshown⟩
      · exact absurd hid hne
      · exact hshown
    · rcases htasks t ht with ⟨ht, -⟩ | ⟨heq, -⟩
      · exact h.shown j e he t ht hid
      · exact absurd (hid.symm.trans heq) (hother j e hj he)
  · rcases hrow he with ⟨rfl, rfl⟩ | ⟨hj, he⟩ <;> rcases hrow he' with ⟨rfl, rfl⟩ | ⟨hk, he'⟩
    · rfl
    · exact absurd hid.symm (hother k e' hk he')
    · exact absurd hid (hother j e hj he)
    · exact h.one j k e e' he he' hid
  · rcases hrow he with ⟨-, rfl⟩ | ⟨hj, he⟩
    · exact hdiffers
    · exact h.differs j e he
  · obtain ⟨hid, hne⟩ := hidle hid
    rw [hserver _ hne]
    exact h.dragged t (hdragged ▸ ht) hid

/-- **A drop begins**, of a task that no other one moves. -/
theorem Follows.begin (h : v.Follows) (hidle : v.Idle d.draggedTask.id)
    (hdb : v'.db = v.db) (hdragged : v'.draggedTask = v.draggedTask)
    (hdrops : v'.drops = v.drops.insert d)
    (hserved : v.serverStatus d.draggedTask.id = some d.served)
    (hdiffers : d.draggedTask.status ≠ d.newStatus)
    (htasks : ∀ t ∈ v'.tasks, (t ∈ v.tasks ∧ t.id ≠ d.draggedTask.id)
      ∨ (t.id = d.draggedTask.id ∧ t.status = d.shown)) : v'.Follows := by
  have hserver : ∀ id, v'.serverStatus id = v.serverStatus id := fun id => by
    unfold serverStatus
    rw [hdb]
  refine h.put (i := v.drops.next) (hdrops ▸ v.drops.row_insert_next d)
    (fun j hj => hdrops ▸ v.drops.row_insert_of_ne d hj) (fun e he => ?_)
    (fun j e _ he => hidle j e he) hdragged hdiffers (fun id _ => hserver id)
    ((hserver _).trans hserved) htasks
  rw [v.drops.row_next] at he
  cases he

/-- **A drop goes on.** -/
theorem Follows.goOn (h : v.Follows) (hd : v.drops.row i = some d) {stage : DropStage}
    (hdragged : v'.draggedTask = v.draggedTask)
    (hdrops : v'.drops = v.drops.update i fun d => { d with stage })
    (hserver : ∀ id ≠ d.draggedTask.id, v'.serverStatus id = v.serverStatus id)
    (hserved : v'.serverStatus d.draggedTask.id = some ({ d with stage } : BoardDrop).served)
    (htasks : ∀ t ∈ v'.tasks, (t ∈ v.tasks ∧ t.id ≠ d.draggedTask.id)
      ∨ (t.id = d.draggedTask.id ∧ t.status = ({ d with stage } : BoardDrop).shown)) :
    v'.Follows := by
  refine h.put (i := i) (d := { d with stage }) ?_ (fun j hj => ?_) (fun e he => ?_)
    (fun j e hj he hid => hj (h.one _ _ _ _ he hd hid)) hdragged (h.differs i d hd) hserver
    hserved htasks
  · rw [hdrops, Table.row_update, if_pos rfl, hd]
    rfl
  · rw [hdrops, Table.row_update, if_neg hj]
  · rw [hd] at he
    rw [← Option.some.inj he]

/-- **A drop ends** where the task is shown as the server has it. -/
theorem Follows.finish (h : v.Follows) (hd : v.drops.row i = some d) (hdb : v'.db = v.db)
    (hdragged : v'.draggedTask = none)
    (hdrops : v'.drops = v.drops.deleteWhere fun j _ => j = i)
    (htasks : ∀ t ∈ v'.tasks, (t ∈ v.tasks ∧ t.id ≠ d.draggedTask.id)
      ∨ (t.id = d.draggedTask.id ∧ v.serverStatus t.id = some t.status)) : v'.Follows := by
  have hserver : ∀ id, v'.serverStatus id = v.serverStatus id := fun id => by
    unfold serverStatus
    rw [hdb]
  have hrow : ∀ {j : ℕ} {e : BoardDrop}, v'.drops.row j = some e →
      j ≠ i ∧ v.drops.row j = some e := fun h => by
    rw [hdrops] at h
    obtain ⟨he, hj⟩ := (v.drops.row_deleteWhere_eq_some _).mp h
    exact ⟨of_decide_eq_false hj, he⟩
  have hidle' : ∀ {id : ℕ}, v'.Idle id → id ≠ d.draggedTask.id → v.Idle id :=
    fun {id} h hne j e he hid => by
    by_cases hj : j = i
    · rw [hj, hd] at he
      obtain rfl := Option.some.inj he
      exact hne hid.symm
    · refine h j e ?_ hid
      rw [hdrops]
      exact (v.drops.row_deleteWhere_eq_some _).mpr ⟨he, decide_eq_false hj⟩
  have hother : ∀ {j : ℕ} {e : BoardDrop}, j ≠ i → v.drops.row j = some e →
      e.draggedTask.id ≠ d.draggedTask.id := fun hj he hid => hj (h.one _ _ _ _ he hd hid)
  refine ⟨fun t ht hid => ?_, fun j e he => ?_, fun j e he t ht hid => ?_,
    fun j k e e' he he' hid => ?_, fun j e he => ?_, fun t ht _ => ?_⟩
  · rw [hserver]
    rcases htasks t ht with ⟨ht, hne⟩ | ⟨-, heq⟩
    · exact h.agrees t ht (hidle' hid hne)
    · exact heq
  · rw [hserver]
    exact h.served j e (hrow he).2
  · obtain ⟨hj, he⟩ := hrow he
    rcases htasks t ht with ⟨ht, -⟩ | ⟨heq, -⟩
    · exact h.shown j e he t ht hid
    · exact absurd (hid.symm.trans heq) (hother hj he)
  · exact h.one j k e e' (hrow he).2 (hrow he').2 hid
  · exact h.differs j e (hrow he).2
  · rw [hdragged] at ht
    cases ht

/-- A drop at whose stage the server has not moved the task goes wrong. -/
theorem Follows.revert (h : v.Follows) (hd : v.drops.row i = some d) {message : String}
    (hstage : d.stage = .moved (.ok ()) → ∀ t ∈ v.tasks, t.id ≠ d.draggedTask.id) :
    (v.revert i d.draggedTask message).Follows := by
  refine h.finish hd rfl rfl rfl fun t ht => ?_
  by_cases hmoved : d.stage = .moved (.ok ())
  · -- no task of the id is shown
    obtain ⟨t', ht', rfl⟩ := List.mem_map.mp ht
    have hne := hstage hmoved t' ht'
    rw [if_neg hne]
    exact .inl ⟨ht', hne⟩
  · have hmem := mem_map_ite (f := fun t => t.withStatus d.draggedTask.status) (fun _ => rfl)
      (fun _ => rfl) ht
    refine hmem.imp_right fun ⟨hid, hstatus⟩ => ?_
    have hserved : d.served = d.draggedTask.status := by
      unfold BoardDrop.served
      split
      · next heq => exact absurd heq hmoved
      · rfl
    refine ⟨hid, ?_⟩
    rw [hid, h.served i d hd, hserved, hstatus]
    rfl

end Steps

/-! ## What the server makes of a move -/

theorem read_statusText (status : TaskStatus) :
    taskStatusReader.read (.str status.text) = .ok status := by
  cases status <;> decide

theorem eq_of_read_ofNat {id n : ℕ} (h : Reader.positiveInt.read (.ofNat id) = .ok n) :
    n = id := by
  have hint : (JsNumber.finite (id : ℚ)).integer = some (id : ℤ) :=
    JsNumber.integer_eq_some.mpr (by simp)
  unfold Reader.positiveInt at h
  dsimp only [Reader.number, Reader.ofType, Json.ofNat] at h
  rw [hint] at h
  dsimp only at h
  split at h
  · cases h
  · split at h
    · cases h
    · exact (Except.ok.inj h).symm

theorem eq_of_read_moveBody {id : ℕ} {status : TaskStatus} {moves : List StatusMove}
    (h : bulkUpdateTaskStatusSchema.read (moveBody id status) = .ok moves) :
    moves = [⟨id, status⟩] := by
  unfold bulkUpdateTaskStatusSchema moveBody at h
  cases hread : Reader.positiveInt.read (.ofNat id) with
  | error issues =>
    simp [Reader.object, Reader.field, Reader.array, Reader.check, Reader.readElements,
      List.lookup_cons, hread, read_statusText, Checked.under, Checked.ap] at h
  | ok n =>
    obtain rfl := eq_of_read_ofNat hread
    simp [Reader.object, Reader.field, Reader.array, Reader.check, Reader.readElements,
      List.lookup_cons, hread, read_statusText, Checked.under, Checked.ap] at h
    exact h.symm

/-- **A move succeeds and is made, or nothing is changed.** -/
theorem putTasks_moveBody (ctx : RequestContext) (id : ℕ) (status : TaskStatus) (db : TaskDb) :
    ((putTasks ctx (some (moveBody id status)) db).2.status = 200
        ∧ ∀ id', ((putTasks ctx (some (moveBody id status)) db).1.db.tasks.row id').map
            TaskRow.status
          = if id' = id then (db.tasks.row id').map fun _ => status
            else (db.tasks.row id').map TaskRow.status)
      ∨ ((putTasks ctx (some (moveBody id status)) db).2.status ≠ 200
        ∧ (putTasks ctx (some (moveBody id status)) db).1.db = db) := by
  unfold putTasks
  rcases withBody_cases bulkUpdateTaskStatusSchema (some (moveBody id status)) db
    (bulkUpdate ctx · db) with ⟨response, heq, hstatus⟩ | ⟨j, moves, hj, hread, heq⟩
  · rw [heq]
    exact .inr ⟨fun h => absurd (h ▸ hstatus) (by decide), rfl⟩
  · obtain rfl := Option.some.inj hj
    obtain rfl := eq_of_read_moveBody hread
    rw [heq]
    rcases exists_first_refused ctx db [⟨id, status⟩] with
      hall | ⟨pre, bad, post, hsplit, hpre, hbad⟩
    · refine .inl ⟨bulkUpdate_of_forall ctx hall, fun id' => ?_⟩
      unfold bulkUpdate
      rw [Work.moveAll_of_forall ctx ⟨db, []⟩ hall]
      show (((⟨db, []⟩ : Work).move ctx ⟨id, status⟩).db.tasks.row id').map TaskRow.status = _
      rw [Work.tasks_move, Table.row_update]
      split
      · next heq =>
        rw [Option.map_map, heq]
        rfl
      · rfl
    · rw [hsplit, bulkUpdate_of_refused ctx hpre hbad]
      exact .inr ⟨by simp, rfl⟩

/-! ## Runs -/

section Runs

variable {v : TaskBoard} {site : BoardSite}

theorem follows_opened (db : TaskDb) : (opened db).Follows where
  agrees _ ht := absurd ht List.not_mem_nil
  served _ _ h := nomatch h
  shown _ _ h := nomatch h
  one _ _ _ _ h := nomatch h
  differs _ _ h := nomatch h
  dragged _ h := nomatch h

theorem Follows.handleDrop (h : v.Follows) {newStatus : TaskStatus} {now : ℕ}
    (hidle : ∀ t, v.draggedTask = some t → v.Idle t.id) :
    (v.handleDrop newStatus now).Follows := by
  unfold TaskBoard.handleDrop
  split
  · exact h
  · next t ht =>
    have hserver := h.dragged t ht (hidle t ht)
    split
    · exact ⟨h.agrees, h.served, h.shown, h.one, h.differs, fun _ ht => nomatch ht⟩
    · next hdiffers =>
      split
      · -- the reviews are asked for, and the task stays where it is
        refine h.begin (hidle t ht) rfl rfl rfl hserver hdiffers fun t' ht' => ?_
        by_cases hid : t'.id = t.id
        · refine .inr ⟨hid, ?_⟩
          have hshown := h.agrees t' ht' (hid ▸ hidle t ht)
          rw [hid, hserver] at hshown
          exact (Option.some.inj hshown).symm
        · exact .inl ⟨ht', hid⟩
      · exact h.begin (hidle t ht) rfl rfl rfl hserver hdiffers fun t' ht' =>
          mem_map_ite (f := fun t => t.moved newStatus now) (fun _ => rfl) (fun _ => rfl) ht'

theorem Follows.serveDrop (h : v.Follows) {i : ℕ} {d : BoardDrop} (hd : v.drops.row i = some d)
    (ctx : RequestContext) : (v.serveDrop site ctx i d).Follows := by
  obtain ⟨draggedTask, newStatus, stage⟩ := d
  have htasks : ∀ t ∈ v.tasks, (t ∈ v.tasks ∧ t.id ≠ draggedTask.id)
      ∨ (t.id = draggedTask.id
        ∧ t.status = (BoardDrop.mk draggedTask newStatus stage).shown) := fun t ht => by
    by_cases hid : t.id = draggedTask.id
    · exact .inr ⟨hid, h.shown i _ hd t ht hid⟩
    · exact .inl ⟨ht, hid⟩
  have hserved := h.served i _ hd
  unfold TaskBoard.serveDrop
  cases stage with
  | checking => exact h.goOn hd rfl rfl (fun _ _ => rfl) hserved htasks
  | moving =>
    dsimp only
    rcases putTasks_moveBody ctx draggedTask.id newStatus v.db with ⟨hok, hrows⟩ | ⟨hfail, hdb⟩
    · have hanswer : moveAnswer (putTasks ctx
          (some (moveBody draggedTask.id newStatus)) v.db).2 = .ok () := if_pos hok
      rw [hanswer]
      refine h.goOn hd rfl rfl (fun id hid => ?_) ?_ htasks
      · exact (hrows id).trans (if_neg hid)
      · refine ((hrows _).trans (if_pos rfl)).trans ?_
        obtain ⟨row, hrow, -⟩ := Option.map_eq_some_iff.mp hserved
        rw [hrow]
        rfl
    · have hanswer : moveAnswer (putTasks ctx
          (some (moveBody draggedTask.id newStatus)) v.db).2 = .error _ := if_neg hfail
      rw [hanswer, hdb]
      exact h.goOn hd rfl rfl (fun _ _ => rfl) hserved htasks
  | _ => exact h

theorem Follows.settleDrop (h : v.Follows) {i now : ℕ} {d : BoardDrop}
    (hd : v.drops.row i = some d) : (v.settleDrop i now d).Follows := by
  obtain ⟨draggedTask, newStatus, stage⟩ := d
  have hserved := h.served i _ hd
  unfold TaskBoard.settleDrop
  match stage with
  | .checking | .moving => exact h
  | .checked (.error message) | .moved (.error message) =>
    exact h.revert hd fun heq => nomatch heq
  | .checked (.ok ()) =>
    exact h.goOn hd rfl rfl (fun _ _ => rfl) hserved fun t ht =>
      mem_map_ite (f := fun t => t.moved newStatus now) (fun _ => rfl) (fun _ => rfl) ht
  | .moved (.ok ()) =>
    refine h.finish hd rfl rfl rfl fun t ht => ?_
    by_cases hid : t.id = draggedTask.id
    · refine .inr ⟨hid, ?_⟩
      rw [hid, hserved]
      exact congrArg some (h.shown i _ hd t ht hid).symm
    · exact .inl ⟨ht, hid⟩

theorem Follows.of_eq {v' : TaskBoard} (h : v.Follows) (hdb : v'.db = v.db)
    (htasks : v'.tasks = v.tasks) (hdragged : v'.draggedTask = v.draggedTask)
    (hdrops : v'.drops = v.drops) : v'.Follows := by
  obtain ⟨db, tasks, draggedTask, error, drops, fetches⟩ := v
  obtain ⟨db', tasks', draggedTask', error', drops', fetches'⟩ := v'
  obtain rfl : db' = db := hdb
  obtain rfl : tasks' = tasks := htasks
  obtain rfl : draggedTask' = draggedTask := hdragged
  obtain rfl : drops' = drops := hdrops
  exact ⟨h.agrees, h.served, h.shown, h.one, h.differs, h.dragged⟩

/-- **A step that keeps the agreement** keeps the board following the server. -/
theorem Follows.next {a : BoardAction} (ha : v.OneAtATime site a) (h : v.Follows)
    (hkeeps : v.KeepsAgreement site a) : ((taskBoard site).next v a).Follows := by
  cases a with
  | request ctx request =>
    have hchanged : ∀ id, ¬ v.Idle id → ((taskBoard site).next v
        (.request ctx request)).serverStatus id = v.serverStatus id := fun id hid =>
      ha id (.inl hid)
    refine ⟨fun t ht hid => (hkeeps t ht hid).trans (h.agrees t ht hid), fun i d hd => ?_,
      h.shown, h.one, h.differs, fun t ht hid => ?_⟩
    · exact (hchanged _ fun hidle => hidle i d hd rfl).trans (h.served i d hd)
    · exact (ha t.id (.inr ⟨t, ht, rfl⟩)).trans (h.dragged t ht hid)
  | drag i =>
    refine ⟨h.agrees, h.served, h.shown, h.one, h.differs, fun t ht hid => ?_⟩
    have ht : (v.tasks[i]?).or v.draggedTask = some t := ht
    cases hi : v.tasks[i]? with
    | none =>
      rw [hi] at ht
      exact h.dragged t ht hid
    | some t' =>
      rw [hi] at ht
      obtain rfl : t' = t := Option.some.inj ht
      exact h.agrees t' (List.mem_of_getElem? hi) hid
  | drop newStatus now => exact h.handleDrop ha
  | serve i ctx =>
    show ((v.drops.row i).elim v (v.serveDrop site ctx i)).Follows
    cases hd : v.drops.row i with
    | none => exact h
    | some d => exact h.serveDrop hd ctx
  | settle i now =>
    show ((v.drops.row i).elim v (v.settleDrop i now)).Follows
    cases hd : v.drops.row i with
    | none => exact h
    | some d => exact h.settleDrop hd
  | lose i message =>
    show ((v.drops.row i).elim v fun d => v.revert i d.draggedTask message).Follows
    cases hd : v.drops.row i with
    | none => exact h
    | some d => exact h.revert hd (hkeeps d hd)
  | load =>
    show (v.listTasks site).Follows
    unfold listTasks
    split <;> exact h.of_eq rfl rfl rfl rfl
  | review i ok =>
    unfold Machine.next taskBoard
    dsimp only
    split <;> exact h.of_eq rfl rfl rfl rfl
  | respond i =>
    unfold Machine.next taskBoard
    dsimp only
    split
    · exact h.of_eq rfl rfl rfl rfl
    · next tasks hready =>
      have hnone : ∀ i d, v.drops.row i ≠ some d := fun i d hd => by
        rw [ha i] at hd
        cases hd
      exact ⟨fun t ht _ => hkeeps tasks hready t ht, fun i d hd => absurd hd (hnone i d),
        fun i d hd => absurd hd (hnone i d), h.one, h.differs, h.dragged⟩
    · exact h
  | abort i message => exact h.of_eq rfl rfl rfl rfl

/-- **A step that does not keep the agreement** breaks it at once. -/
theorem keepsAgreement_of_agrees {a : BoardAction} (ha : v.OneAtATime site a) (h : v.Follows)
    (hnext : ((taskBoard site).next v a).Agrees) : v.KeepsAgreement site a := by
  cases a with
  | request ctx request =>
    intro t ht hid
    exact (hnext t ht hid).trans (h.agrees t ht hid).symm
  | lose i message =>
    intro d hd hstage t ht hid
    -- the task is put back, and nothing moves it any more
    have hstep : (taskBoard site).next v (.lose i message) = v.revert i d.draggedTask message := by
      show (v.drops.row i).elim v (fun d => v.revert i d.draggedTask message) = _
      rw [hd]
      rfl
    rw [hstep] at hnext
    have hmem : t.withStatus d.draggedTask.status ∈ (v.revert i d.draggedTask message).tasks :=
      List.mem_map.mpr ⟨t, ht, if_pos hid⟩
    have hback := hnext _ hmem fun j e he heq => by
      obtain ⟨he, hj⟩ := (v.drops.row_deleteWhere_eq_some _).mp he
      exact of_decide_eq_false hj (h.one j i e d he hd (heq.trans hid))
    have hserved := h.served i d hd
    have hstatus : d.served = d.newStatus := by
      unfold BoardDrop.served
      rw [hstage]
    rw [hstatus] at hserved
    refine h.differs i d hd (Option.some.inj (Eq.trans ?_ hserved))
    rw [← hid]
    exact hback.symm
  | respond i =>
    intro tasks hready t ht
    have hstep : (taskBoard site).next v (.respond i)
        = { v with tasks, fetches := v.fetches.deleteWhere fun j _ => j = i } := by
      unfold Machine.next taskBoard
      dsimp only
      rw [hready]
    rw [hstep] at hnext
    refine hnext t ht fun j d hd => ?_
    rw [ha j] at hd
    cases hd
  | _ => trivial

end Runs

end TaskBoard

/-- **Exactly when the board agrees with the server** all along a run in which it does one thing
at a time about each task: as long as no one else moves a task that is shown, no answer of a
move that was made is lost, and what comes of a fetch is as the server has it. -/
theorem taskBoard_agrees_iff (site : BoardSite) (db : TaskDb) {as : List BoardAction}
    (h : (taskBoard site).EachStep (fun v a => v.OneAtATime site a) (.opened db) as) :
    (taskBoard site).Always TaskBoard.Agrees (.opened db) as
      ↔ (taskBoard site).EachStep (fun v a => v.KeepsAgreement site a) (.opened db) as :=
  (taskBoard site).always_iff_eachStep_within h (TaskBoard.follows_opened db)
    (fun _ hv => hv.agrees) (fun _ _ ha hv hkeeps => hv.next ha hkeeps)
    fun _ _ ha hv hnext => TaskBoard.keepsAgreement_of_agrees ha hv hnext

/-! ## A task is dropped on another column -/

/-- A board for concrete runs. -/
def sampleBoardSite : BoardSite :=
  ⟨sampleRuntime, sampleSqlite, .insertion _, sampleOrders⟩

/-- The tasks are fetched, and the first one is dropped on review. -/
def sampleDrop : List BoardAction :=
  [.load, .review 1 true, .respond 1, .drag 0, .drop .review 1700000060, .serve 1 sampleContext,
    .settle 1 1700000061]

theorem drops_next_load (site : BoardSite) (v : TaskBoard) :
    ((taskBoard site).next v .load).drops = v.drops := by
  show (v.listTasks site).drops = v.drops
  unfold TaskBoard.listTasks
  split <;> rfl

theorem drops_next_review (site : BoardSite) (v : TaskBoard) (i : ℕ) (ok : Bool) :
    ((taskBoard site).next v (.review i ok)).drops = v.drops := by
  unfold Machine.next taskBoard
  dsimp only
  split <;> rfl

theorem drops_next_respond (site : BoardSite) (v : TaskBoard) (i : ℕ) :
    ((taskBoard site).next v (.respond i)).drops = v.drops := by
  unfold Machine.next taskBoard
  dsimp only
  split <;> rfl

theorem drops_next_drag (site : BoardSite) (v : TaskBoard) (i : ℕ) :
    ((taskBoard site).next v (.drag i)).drops = v.drops := rfl

theorem oneAtATime_sampleDrop :
    (taskBoard sampleBoardSite).EachStep (fun v a => v.OneAtATime sampleBoardSite a)
      (.opened (sampleTasks [sampleTask])) sampleDrop := by
  have hidle : ∀ {v : TaskBoard} {id : ℕ}, v.drops = .empty → v.Idle id := by
    intro v id hv i d hd
    rw [hv] at hd
    cases hd
  refine .cons _ trivial (.cons _ trivial (.cons _ (fun i => ?_) (.cons _ (fun t _ => hidle ?_)
    (.cons _ (fun t _ => hidle ?_) (.cons _ trivial (.cons _ trivial
      (Machine.eachStep_nil _ _ _)))))))
  · rw [drops_next_review, drops_next_load]
    rfl
  · rw [drops_next_respond, drops_next_review, drops_next_load]
    rfl
  · rw [drops_next_drag, drops_next_respond, drops_next_review, drops_next_load]
    rfl

theorem taskBoard_agrees_iff_sample :
    (taskBoard sampleBoardSite).Always TaskBoard.Agrees (.opened (sampleTasks [sampleTask]))
        sampleDrop
      ↔ (taskBoard sampleBoardSite).EachStep (fun v a => v.KeepsAgreement sampleBoardSite a)
        (.opened (sampleTasks [sampleTask])) sampleDrop :=
  taskBoard_agrees_iff sampleBoardSite (sampleTasks [sampleTask]) oneAtATime_sampleDrop

/-- The task that was dropped is in its column, on the board and on the server. -/
example :
    let v := (taskBoard sampleBoardSite).state (.opened (sampleTasks [sampleTask])) sampleDrop
    v.tasks.map BoardTask.status = [.review] ∧ v.serverStatus 1 = some .review := by
  decide +kernel

end MissionControl
