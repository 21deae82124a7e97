import MissionControl.Library.Machine
import MissionControl.BulkUpdate
import MissionControl.TaskUpdate
import MissionControl.GithubSync

/-!
# The quality gate

A task may go to done when the reviewer `aegis` has approved it. The bulk
update and the update of a task ask for the approval; the creation of a task
and the import of issues write the status as it is given. And the approval is
read from the review with the greatest time, which need not be the one that
was submitted last.

The gate holds over a run if no task is created as done, no closed issue is
imported, and wherever a task is to go to done whose last review is a
rejection, no approval has the greatest time.
-/

namespace MissionControl

/-! ## Reviews -/

def createReview (ctx : RequestContext) (fields : ReviewFields) (db : TaskDb) :
    Work × ApiResponse :=
  match fields.taskId.integer.bind db.findTask with
  | none => (⟨db, []⟩, .error 404 "Task not found")
  | some (id, task) =>
    let review : QualityReview :=
      ⟨id, fields.reviewer, fields.status, fields.notes, ctx.now⟩
    let w : Work := ⟨{ db with reviews := db.reviews.insert review }, []⟩
    (w.logActivity ⟨"quality_review", "task", id, fields.reviewer,
        "Quality review " ++ fields.status.text ++ " for task: " ++ task.title,
        some (.obj [("status", .str fields.status.text),
          ("notes", .str fields.notes)]), ctx.now⟩,
      .json 200 (.obj [("success", .bool true), ("id", .ofNat db.reviews.next)]))

/-- `POST /api/quality-review`. -/
def postReview (ctx : RequestContext) (body : Option Json) (db : TaskDb) :
    Work × ApiResponse :=
  withBody qualityReviewSchema body db (createReview ctx · db)

/-- The reviews of a task by `aegis`, in the order they were submitted. -/
def aegisReviews (db : TaskDb) (id : ℕ) : List (ℕ × QualityReview) :=
  db.reviews.rows.filter (fun r => r.2.taskId = id && r.2.reviewer = "aegis")

/-- The review of a task by `aegis` that was submitted last. -/
def lastAegisReview (db : TaskDb) (id : ℕ) : Option (ℕ × QualityReview) :=
  (aegisReviews db id).getLast?

/-- The task is approved: the last review of it by `aegis` says so. -/
def Approved (id : ℕ) (db : TaskDb) : Prop :=
  ∃ r, lastAegisReview db id = some r ∧ r.2.status = .approved

def IsDone (id : ℕ) (db : TaskDb) : Prop :=
  ∃ t, db.tasks.row id = some t ∧ t.status = .done

/-- If the last review of the task rejects it, no approval has the greatest
time. -/
def NoLateApproval (id : ℕ) (db : TaskDb) : Prop :=
  ∀ last, lastAegisReview db id = some last → last.2.status = .rejected →
    ∀ r ∈ aegisReviews db id, r.2.status = .approved →
      ∃ r' ∈ aegisReviews db id, r.2.createdAt < r'.2.createdAt

theorem exists_of_hasAegisApproval {tie : TieBreak (ℕ × QualityReview)}
    {db : TaskDb} {id : ℕ} (h : hasAegisApproval tie db id = true) :
    ∃ r ∈ aegisReviews db id, r.2.status = .approved
      ∧ ∀ r' ∈ aegisReviews db id, r'.2.createdAt ≤ r.2.createdAt := by
  unfold hasAegisApproval at h
  dsimp only at h
  split at h
  · next r hr =>
    obtain ⟨hmem, hmax⟩ := tie.latest_eq_some _ hr
    exact ⟨r, hmem, by simpa using h, hmax⟩
  · cases h

theorem hasAegisApproval_of_latest {tie : TieBreak (ℕ × QualityReview)}
    {db : TaskDb} {id : ℕ} {r : ℕ × QualityReview}
    (h : tie.latest (fun r => r.2.createdAt) (aegisReviews db id) = some r)
    (happroved : r.2.status = .approved) : hasAegisApproval tie db id = true := by
  unfold aegisReviews at h
  unfold hasAegisApproval
  dsimp only
  rw [h]
  exact decide_eq_true happroved

/-- **Where no approval is late, the gate finds one only if the last review is
one.** -/
theorem approved_of_hasAegisApproval {tie : TieBreak (ℕ × QualityReview)}
    {db : TaskDb} {id : ℕ} (hlate : NoLateApproval id db)
    (h : hasAegisApproval tie db id = true) : Approved id db := by
  obtain ⟨r, hmem, happroved, hmax⟩ := exists_of_hasAegisApproval h
  have hne : aegisReviews db id ≠ [] := List.ne_nil_of_mem hmem
  have hlast : lastAegisReview db id = some ((aegisReviews db id).getLast hne) :=
    List.getLast?_eq_getLast_of_ne_nil hne
  refine ⟨_, hlast, ?_⟩
  cases hstatus : ((aegisReviews db id).getLast hne).2.status with
  | approved => rfl
  | rejected =>
    obtain ⟨r', hmem', hlt⟩ := hlate _ hlast hstatus r hmem happroved
    exact absurd (hmax r' hmem') (Nat.not_le.mpr hlt)

/-! ## Runs -/

/-- **A request that writes tasks or reviews.** -/
inductive TaskRequest where
  | create (body : Option Json)
  | bulk (body : Option Json)
  | update (idText : String) (body : Option Json)
  | delete (idText : String)
  | review (body : Option Json)
  | sync (repo : String) (assignAgent : Option String) (issues : List GitHubIssue)

def TaskRequest.serve (rt : Runtime) (ctx : RequestContext) (db : TaskDb) :
    TaskRequest → Work × ApiResponse
  | create body => postTasks rt ctx body db
  | bulk body => putTasks ctx body db
  | update idText body => putTask rt ctx idText body db
  | delete idText => deleteTask ctx idText db
  | review body => postReview ctx body db
  | sync repo assignAgent issues => handleSync rt ctx repo assignAgent issues db

/-- **The tasks API as a machine**: the requests come one after another, and
broadcast events. -/
def taskMachine (rt : Runtime) : Machine TaskDb (RequestContext × TaskRequest) BusEvent where
  step db a := ((a.2.serve rt a.1 db).1.db, (a.2.serve rt a.1 db).1.events)

/-! ## What a request keeps -/

section Keeps

variable {P : TaskDb → Prop} {rt : Runtime} {ctx : RequestContext} {db : TaskDb}

theorem postTasks_keeps (h : P db)
    (hcreate : ∀ title data, P (createTaskWork rt ctx title data db).db) (body : Option Json) :
    P (postTasks rt ctx body db).1.db := by
  unfold postTasks
  rcases withBody_cases createTaskSchema body db (createTask rt ctx · db) with
    ⟨response, heq, -⟩ | ⟨j, data, -, -, heq⟩
  · rw [heq]
    exact h
  · rw [heq]
    rcases createTask_cases rt ctx data db with ⟨response, heq, -⟩ | ⟨title, -, -, heq⟩
    · rw [heq]
      exact h
    · rw [heq, Work.db_respond]
      exact hcreate title data

theorem putTasks_keeps (h : P db)
    (hmove : ∀ (w : Work) (m : StatusMove), P w.db → P (w.move ctx m).db)
    (body : Option Json) : P (putTasks ctx body db).1.db := by
  have hmoves : ∀ (moves : List StatusMove) (w : Work), P w.db →
      P (moves.foldl (·.move ctx ·) w).db := by
    intro moves
    induction moves with
    | nil => exact fun _ hw => hw
    | cons m moves ih => exact fun w hw => ih _ (hmove w m hw)
  unfold putTasks
  rcases withBody_cases bulkUpdateTaskStatusSchema body db (bulkUpdate ctx · db) with
    ⟨response, heq, -⟩ | ⟨j, moves, -, -, heq⟩
  · rw [heq]
    exact h
  · rw [heq]
    rcases exists_first_refused ctx db moves with hall | ⟨pre, bad, post, rfl, hpre, hbad⟩
    · unfold bulkUpdate
      rw [Work.moveAll_of_forall ctx ⟨db, []⟩ hall]
      exact hmoves moves ⟨db, []⟩ h
    · rw [bulkUpdate_of_refused ctx hpre hbad]
      exact h

theorem putTask_keeps (h : P db)
    (hupdate : ∀ id task data, P (announceUpdate ctx id task data
      (Work.updateTask ⟨db, []⟩ id (assignAll (updateAssignments rt ctx data)))).db)
    (idText : String) (body : Option Json) : P (putTask rt ctx idText body db).1.db := by
  unfold putTask
  rcases withBody_cases updateTaskSchema body db (updateTask rt ctx idText · db) with
    ⟨response, heq, -⟩ | ⟨j, data, -, -, heq⟩
  · rw [heq]
    exact h
  · rw [heq]
    rcases updateTask_cases rt ctx idText data db with
      ⟨response, heq, -⟩ | ⟨n, id, task, -, -, -, heq⟩
    · rw [heq]
      exact h
    · rw [heq, Work.db_respond]
      exact hupdate id task data

theorem deleteTask_keeps (h : P db)
    (hdelete : ∀ id activities, P { db.deleteTask id with activities }) (idText : String) :
    P (deleteTask ctx idText db).1.db := by
  unfold deleteTask
  cases parseInt idText with
  | none => exact h
  | some n =>
    dsimp only
    cases db.findTask n with
    | none => exact h
    | some found => exact hdelete found.1 _

theorem postReview_keeps (h : P db)
    (hreview : ∀ review activities,
      P { db with reviews := db.reviews.insert review, activities })
    (body : Option Json) : P (postReview ctx body db).1.db := by
  unfold postReview
  rcases withBody_cases qualityReviewSchema body db (createReview ctx · db) with
    ⟨response, heq, -⟩ | ⟨j, fields, -, -, heq⟩
  · rw [heq]
    exact h
  · rw [heq]
    unfold createReview
    split
    · exact h
    · exact hreview _ _

theorem handleSync_keeps {repo : String} {assignAgent : Option String} (h : P db)
    (hissue : ∀ (p : SyncProgress) (issue : GitHubIssue), P p.work.db →
      P (p.issue rt ctx repo assignAgent issue).work.db)
    (hsync : ∀ (db : TaskDb) githubSyncs, P db → P { db with githubSyncs })
    (issues : List GitHubIssue) : P (handleSync rt ctx repo assignAgent issues db).1.db := by
  refine hsync (importIssues rt ctx repo assignAgent issues db).work.db _ ?_
  induction issues using List.reverseRecOn with
  | nil => exact h
  | append_singleton issues issue ih =>
    unfold importIssues at ih ⊢
    rw [List.foldl_append, List.foldl_cons, List.foldl_nil]
    exact hissue _ issue ih

end Keeps

/-! ## Keeping to the gate -/

/-- Some closed issue is not there when its turn comes. -/
def ImportsClosed (rt : Runtime) (ctx : RequestContext) (repo : String)
    (assignAgent : Option String) (issues : List GitHubIssue) (db : TaskDb) : Prop :=
  ∃ pre issue post, issues = pre ++ issue :: post ∧ issue.state = .closed
    ∧ findImported rt repo issue.number
      (importIssues rt ctx repo assignAgent pre db).work.db.tasks.rows = .absent

/-- **The request keeps to the gate**: it creates no task as done, imports no
closed issue, and asks for done only where no approval is late. -/
def Guarded (rt : Runtime) (db : TaskDb) (a : RequestContext × TaskRequest) : Prop :=
  match a.2 with
  | .create body =>
    ∀ j data title, body = some j → createTaskSchema.read j = .ok data →
      data.title = some title → db.tasks.any (fun t => t.title = title) = false →
      data.status ≠ some .done
  | .bulk body =>
    ∀ j moves, body = some j → bulkUpdateTaskStatusSchema.read j = .ok moves →
      ∀ m ∈ moves, m.status = .done → ¬ IsDone m.id db → NoLateApproval m.id db
  | .update idText body =>
    ∀ j data (id : ℕ), body = some j → updateTaskSchema.read j = .ok data →
      parseInt idText = some (id : ℤ) → data.status = some .done →
      ¬ IsDone id db → NoLateApproval id db
  | .sync repo assignAgent issues =>
    ¬ ImportsClosed rt a.1 repo assignAgent issues db
  | .delete _ => True
  | .review _ => True

/-! ## One step -/

section Step

variable {rt : Runtime} {ctx : RequestContext} {db : TaskDb} {id : ℕ}

theorem isDone_of_insert {row : TaskRow} {db' : TaskDb}
    (htasks : db'.tasks = db.tasks.insert row) (hrow : row.status ≠ .done)
    (h : IsDone id db') : IsDone id db := by
  obtain ⟨t, ht, hdone⟩ := h
  rw [htasks, Table.row_insert_eq_some] at ht
  rcases ht with ⟨-, rfl⟩ | ht
  · exact absurd hdone hrow
  · exact ⟨t, ht, hdone⟩

theorem isDone_create {body : Option Json} (hguard : Guarded rt db (ctx, .create body))
    (h : IsDone id (postTasks rt ctx body db).1.db) : IsDone id db := by
  unfold postTasks at h
  rcases withBody_cases createTaskSchema body db (createTask rt ctx · db) with
    ⟨response, heq, -⟩ | ⟨j, data, hbody, hread, heq⟩
  · rwa [heq] at h
  · rw [heq] at h
    rcases createTask_cases rt ctx data db with
      ⟨response, heq, -⟩ | ⟨title, htitle, hfree, heq⟩
    · rwa [heq] at h
    · rw [heq, Work.db_respond] at h
      refine isDone_of_insert (tasks_createTaskWork rt ctx title data db) ?_ h
      have hstatus := hguard j data title hbody hread htitle hfree
      show data.status.getD .inbox ≠ .done
      cases hdata : data.status with
      | none => decide
      | some status =>
        rintro rfl
        exact hstatus hdata

/-- A bulk update that keeps to the gate makes a task done only if it is
approved. -/
theorem approved_bulk {body : Option Json} (hguard : Guarded rt db (ctx, .bulk body))
    (hnot : ¬ IsDone id db) (h : IsDone id (putTasks ctx body db).1.db) :
    Approved id db := by
  unfold putTasks at h
  rcases withBody_cases bulkUpdateTaskStatusSchema body db (bulkUpdate ctx · db) with
    ⟨response, heq, -⟩ | ⟨j, moves, hbody, hread, heq⟩
  · rw [heq] at h
    exact absurd h hnot
  · rw [heq] at h
    rcases exists_first_refused ctx db moves with
      hall | ⟨pre, bad, post, rfl, hpre, hbad⟩
    · unfold bulkUpdate at h
      rw [Work.moveAll_of_forall ctx ⟨db, []⟩ hall] at h
      obtain ⟨t', ht', hdone⟩ := h
      rcases Work.status_of_row_foldl_move ctx ⟨db, []⟩ moves ht' with
        ⟨t, ht, hstatus⟩ | ⟨m, hm, rfl, hstatus⟩
      · exact absurd ⟨t, ht, hstatus.trans hdone⟩ hnot
      · have hto : m.status = .done := hstatus.trans hdone
        have hgate : hasAegisApproval ctx.tie db m.id = true := by
          have hrefused := hall m hm
          unfold StatusMove.refused at hrefused
          simpa [hto] using hrefused
        exact approved_of_hasAegisApproval
          (hguard j moves hbody hread m hm hto hnot) hgate
    · rw [bulkUpdate_of_refused ctx hpre hbad] at h
      exact absurd h hnot

/-- An update that keeps to the gate makes a task done only if it is
approved. -/
theorem approved_update {idText : String} {body : Option Json}
    (hguard : Guarded rt db (ctx, .update idText body)) (hnot : ¬ IsDone id db)
    (h : IsDone id (putTask rt ctx idText body db).1.db) : Approved id db := by
  unfold putTask at h
  rcases withBody_cases updateTaskSchema body db (updateTask rt ctx idText · db) with
    ⟨response, heq, -⟩ | ⟨j, data, hbody, hread, heq⟩
  · rw [heq] at h
    exact absurd h hnot
  · rw [heq] at h
    rcases updateTask_cases rt ctx idText data db with
      ⟨response, heq, -⟩ | ⟨n, id', task, hn, hfind, hgate, heq⟩
    · rw [heq] at h
      exact absurd h hnot
    · obtain ⟨rfl, hrow⟩ := TaskDb.findTask_eq_some.mp hfind
      rw [heq, Work.db_respond] at h
      obtain ⟨t', ht', hdone⟩ := h
      rw [tasks_announceUpdate] at ht'
      change (db.tasks.update id' _).row id = some t' at ht'
      rw [Table.row_update] at ht'
      by_cases hid : id = id'
      · subst hid
        rw [if_pos rfl, hrow, Option.map_some, Option.some.injEq,
          assignAll_updateAssignments] at ht'
        have hstatus : data.status.getD task.status = .done := by
          rw [← hdone, ← ht']
          rfl
        cases hdata : data.status with
        | none =>
          rw [hdata] at hstatus
          exact absurd ⟨task, hrow, hstatus⟩ hnot
        | some status =>
          rw [hdata] at hstatus
          obtain rfl : status = .done := hstatus
          exact approved_of_hasAegisApproval
            (hguard j data id hbody hread hn hdata hnot) (hgate hdata)
      · rw [if_neg hid] at ht'
        exact absurd ⟨t', ht', hdone⟩ hnot

theorem isDone_delete {idText : String}
    (h : IsDone id (deleteTask ctx idText db).1.db) : IsDone id db := by
  refine deleteTask_keeps (P := fun db' => IsDone id db' → IsDone id db) (fun h => h)
    (fun _ _ => ?_) idText h
  rintro ⟨t, ht, hdone⟩
  exact ⟨t, ((Table.row_deleteWhere_eq_some _ _).mp ht).1, hdone⟩

theorem isDone_review {body : Option Json}
    (h : IsDone id (postReview ctx body db).1.db) : IsDone id db :=
  postReview_keeps (P := fun db' => IsDone id db' → IsDone id db) (fun h => h)
    (fun _ _ h => h) body h

/-- The import of issues makes no task done if it imports no closed one. -/
theorem isDone_importIssues {repo : String} {assignAgent : Option String}
    {issues : List GitHubIssue}
    (hguard : ¬ ImportsClosed rt ctx repo assignAgent issues db)
    (h : IsDone id (importIssues rt ctx repo assignAgent issues db).work.db) :
    IsDone id db := by
  induction issues using List.reverseRecOn with
  | nil => exact h
  | append_singleton issues issue ih =>
    have hpre : ¬ ImportsClosed rt ctx repo assignAgent issues db := by
      rintro ⟨pre, closed, post, rfl, hclosed, habsent⟩
      exact hguard ⟨pre, closed, post ++ [issue], by simp, hclosed, habsent⟩
    refine ih hpre ?_
    have hlast : importIssues rt ctx repo assignAgent (issues ++ [issue]) db
        = (importIssues rt ctx repo assignAgent issues db).issue rt ctx repo
          assignAgent issue := by
      unfold importIssues
      rw [List.foldl_append, List.foldl_cons, List.foldl_nil]
    rw [hlast] at h
    rcases (SyncProgress.issue_cases rt ctx repo assignAgent _ issue).2 with
      hsame | ⟨habsent, hinsert⟩
    · obtain ⟨t, ht, hdone⟩ := h
      exact ⟨t, hsame ▸ ht, hdone⟩
    · refine isDone_of_insert hinsert ?_ h
      intro hrow
      refine hguard ⟨issues, issue, [], rfl, ?_, habsent⟩
      by_contra hopen
      have hinbox : (importedRow rt ctx repo assignAgent issue).status = .inbox :=
        if_neg hopen
      rw [hinbox] at hrow
      cases hrow

/-- **A request that keeps to the gate makes a task done only if it is
approved.** -/
theorem approved_of_guarded {a : RequestContext × TaskRequest}
    (hguard : Guarded rt db a) (hnot : ¬ IsDone id db)
    (h : IsDone id ((taskMachine rt).next db a)) : Approved id db := by
  obtain ⟨ctx, request⟩ := a
  cases request with
  | create body => exact absurd (isDone_create hguard h) hnot
  | bulk body => exact approved_bulk hguard hnot h
  | update idText body => exact approved_update hguard hnot h
  | delete idText => exact absurd (isDone_delete h) hnot
  | review body => exact absurd (isDone_review h) hnot
  | sync repo assignAgent issues => exact absurd (isDone_importIssues hguard h) hnot

end Step

/-! ## Whole runs -/

/-- **In every run whose requests keep to the gate, a task that is done went to
done when the last review of it by `aegis` was an approval.** -/
theorem run_enteredWith_approved (rt : Runtime)
    {requests : List (RequestContext × TaskRequest)}
    (hguard : (taskMachine rt).EachStep (Guarded rt) .empty requests) (id : ℕ)
    (hdone : IsDone id ((taskMachine rt).state .empty requests)) :
    (taskMachine rt).EnteredWith (IsDone id) (Approved id) .empty requests := by
  refine hguard.enteredWith _ ?_ (fun db a hg hnot hnext => ?_) hdone
  · rintro ⟨t, ht, -⟩
    cases ht
  · exact approved_of_guarded hg hnot hnext

/-- A task is created, approved and moved to done. -/
def sampleRequests : List (RequestContext × TaskRequest) :=
  [(sampleContext, .create (some (.obj [("title", .str "Fix login")]))),
    (sampleContext, .review (some (.obj [("taskId", .num (.finite 1)),
      ("status", .str "approved"), ("notes", .str "ok")]))),
    (sampleContext, .bulk (some (.obj [("tasks", .arr [.obj
      [("id", .num (.finite 1)), ("status", .str "done")]])])))]

theorem guarded_sampleRequests :
    (taskMachine sampleRuntime).EachStep (Guarded sampleRuntime) .empty
      sampleRequests := by
  refine .cons _ ?_ (.cons _ trivial (.cons _ ?_ (Machine.eachStep_nil _ _ _)))
  · intro j data title hj hread _ _ hdone
    cases hj
    have hstatus : (createTaskSchema.read (.obj [("title", .str "Fix login")])).toOption.bind
        TaskFields.status = some .inbox := by decide
    rw [hread] at hstatus
    cases hdone.symm.trans hstatus
  · intro j moves hj hread m hm _ _ last hlast hrejected
    cases hj
    have hmoves : bulkUpdateTaskStatusSchema.read (.obj [("tasks", .arr [.obj
        [("id", .num (.finite 1)), ("status", .str "done")]])])
        = .ok [⟨1, .done⟩] := by decide
    cases hread.symm.trans hmoves
    obtain rfl := List.mem_singleton.mp hm
    have happroved : (lastAegisReview ((taskMachine sampleRuntime).state .empty
        (sampleRequests.take 2)) 1).map (·.2.status) = some .approved := by decide
    have hmap := congrArg (Option.map (·.2.status)) hlast
    rw [Option.map_some, hrejected] at hmap
    cases happroved.symm.trans hmap

/-- The sample task went to done when it was approved. -/
theorem run_enteredWith_approved_sample :
    (taskMachine sampleRuntime).EnteredWith (IsDone 1) (Approved 1) .empty
      sampleRequests := by
  refine run_enteredWith_approved sampleRuntime guarded_sampleRequests 1 ?_
  have hstatus : (((taskMachine sampleRuntime).state .empty sampleRequests).tasks.row
      1).map TaskRow.status = some .done := by decide
  obtain ⟨t, ht, hdone⟩ := Option.map_eq_some_iff.mp hstatus
  exact ⟨t, ht, hdone⟩

/-- **A task is created as done**: no review ever approved it. -/
theorem not_run_enteredWith_approved :
    ¬ ∀ (rt : Runtime) (requests : List (RequestContext × TaskRequest)) (id : ℕ),
      IsDone id ((taskMachine rt).state .empty requests) →
      (taskMachine rt).EnteredWith (IsDone id) (Approved id) .empty requests := by
  intro h
  have hdone : IsDone 1 ((taskMachine sampleRuntime).state .empty [(sampleContext,
      .create (some (.obj [("title", .str "Fix login"), ("status", .str "done")])))]) := by
    have hstatus : (((taskMachine sampleRuntime).state .empty [(sampleContext,
        .create (some (.obj [("title", .str "Fix login"),
          ("status", .str "done")])))]).tasks.row 1).map TaskRow.status
        = some .done := by decide
    obtain ⟨t, ht, hdone⟩ := Option.map_eq_some_iff.mp hstatus
    exact ⟨t, ht, hdone⟩
  obtain ⟨p, a, hpre, -, ⟨r, hr, -⟩, -⟩ := h sampleRuntime _ 1 hdone
  -- the only step is the first one, before which there is no review
  have hp : p = [] := by
    have hlen := hpre.length_le
    rw [List.length_append, List.length_singleton, List.length_singleton] at hlen
    exact List.length_eq_zero_iff.mp (by omega)
  subst hp
  have hnone : lastAegisReview .empty 1 = none := by decide
  cases hnone.symm.trans hr

end MissionControl
