import Mathlib.Data.Nat.Digits.Defs
import MissionControl.CronJobs
import MissionControl.Library.SharedFile

/-!
# Writes of the cron file

The requests that change the jobs of OpenClaw – adding, toggling and removing one – read
`cron/jobs.json`, change their part and write the whole file back. Between the two accesses
of one come those of the others, and an access takes time (`SharedFile`): what is read while
another request writes is anything, and so is what overlapping writes leave, or one that fails.
`loadCronFile` answers `null` where the file cannot be read or is no JSON, and a request that
adds a job then writes a file with this job alone.

So a job that was added and acknowledged is listed from then on as it was added, and is what an
action by its name acts on, with exceptions, which are all there are (`cronFile_sound`): a
request was to remove it or to replace it; a request that adds a job could not read the file, or
read it while it was written; or a write failed, or overlapped another one. No name comes to
have a second job, as long as no access disturbs another one. The proof is about one write,
which leaves a name with as many jobs as it had or with one (`length_cronJobsNamed_write`,
`cronJobsNamed_write`), and the rules of `SharedFile` carry it through the runs.
-/

namespace MissionControl

/-! ## Adding a job -/

structure CronSite where
  rt : Runtime
  env : String → Option String

/-- What a request finds at the file: whether it can be read, and the times that the clock
shows. -/
structure CronContext where
  loads : Bool
  idAt : ℕ
  createdAt : ℕ
  updatedAt : ℕ

def digit36 (d : ℕ) : Char := Char.ofNat (if d < 10 then 48 + d else 87 + d)

/-- `n.toString(36)`. -/
def toString36 (n : ℕ) : String :=
  if n = 0 then "0" else String.ofList ((Nat.digits 36 n).reverse.map digit36)

/-- The body of an `add`, as its fields are typed. -/
structure AddCronBody where
  schedule : Option String
  command : Option String
  jobName : Option String
  name : Option String

/-- `schedule`, `command` and `jobName || body.name`, if there are such. -/
def AddCronBody.texts (body : AddCronBody) : Option (String × String × String) :=
  match body.schedule.filter (· ≠ ""), body.command.filter (· ≠ ""),
    ((body.jobName.filter (· ≠ "")).or body.name).filter (· ≠ "") with
  | some schedule, some command, some name => some (schedule, command, name)
  | _, _, _ => none

def newCronJob (site : CronSite) (context : CronContext) (schedule command name : String) :
    OpenClawCronJob where
  id := "mc-" ++ toString36 context.idAt
  agentId := orElse ((site.env "MC_CRON_AGENT_ID").getD "")
    (orElse ((site.env "MC_COORDINATOR_AGENT").getD "") "system")
  name := name
  enabled := true
  createdAtMs := some (context.createdAt : ℚ)
  updatedAtMs := some (context.updatedAt : ℚ)
  schedule := ⟨"cron", schedule, none⟩
  sessionTarget := none
  wakeMode := none
  payload := ⟨"agentTurn", some command, none, none, none⟩
  delivery := some ⟨"none", none, none⟩
  state := some ⟨none, none, none, none, none⟩

/-- **`POST /api/cron`** with the action `add`; `saved` is whether the file can be written. -/
def addCron (site : CronSite) (context : CronContext) (saved : Bool)
    (file : Option OpenClawCronFile) (body : AddCronBody) :
    ApiResponse × Option OpenClawCronFile :=
  match body.texts with
  | none => (.error 400 "Schedule, command, and name required", file)
  | some (schedule, command, name) =>
    let cronFile := file.getD ⟨1, some []⟩
    match cronFile.jobs with
    | none => (.error 500 "Internal server error", file)
    | some jobs =>
      if saved then
        (.json 200 (.obj [("success", .bool true)]),
          some { cronFile with
            jobs := some (jobs.filter (fun j => j.name ≠ name)
              ++ [newCronJob site context schedule command name]) })
      else (.error 500 "Failed to save cron file", file)

/-! ## The requests -/

inductive CronRequest where
  | act (a : CronAction) (body : Json)
  | add (body : AddCronBody)

/-- What a request answers, and the file it leaves. -/
def CronRequest.run (site : CronSite) (context : CronContext) (saved : Bool)
    (file : Option OpenClawCronFile) : CronRequest → ApiResponse × Option OpenClawCronFile
  | act a body => postCron a context.updatedAt saved file body
  | add body => addCron site context saved file body

/-- A write of the file: the request, and what it has found. -/
structure CronWrite where
  request : CronRequest
  context : CronContext

/-- **What a request does with the file it has read.** It comes to write if it would succeed
with a write that does; where the write fails, it answers 500. -/
def cronRequests (site : CronSite) : CronRequest → CronContext → Option OpenClawCronFile →
    SharedCell.Move CronRequest CronWrite (Option OpenClawCronFile)
  | request, context, file =>
    let answer := request.run site context true (if context.loads then file else none)
    if answer.1.status = 200 then .write ⟨request, context⟩ answer.2 else .stop

/-- The states of the file and of the requests for it. -/
abbrev CronFileState := SharedFile.State CronRequest CronWrite (Option OpenClawCronFile)

/-- A request begins, or has the access to the file that it waits for. -/
abbrev CronFileAction := SharedFile.Action CronRequest CronContext (Option OpenClawCronFile)

abbrev CronFileEvent := SharedFile.Event CronWrite (Option OpenClawCronFile)

/-- **The cron file**, its requests interleaving wherever they wait for it. -/
def cronFile (site : CronSite) : Machine CronFileState CronFileAction CronFileEvent :=
  SharedFile.machine (cronRequests site)

/-! ## What is promised -/

def cronJobsNamed (name : String) (file : Option OpenClawCronFile) : List OpenClawCronJob :=
  (cronJobsOf file).filter fun j => j.name = name

def CronWrite.added (site : CronSite) (w : CronWrite) : Option OpenClawCronJob :=
  match w.request with
  | .act _ _ => none
  | .add body => body.texts.map fun (schedule, command, name) =>
    newCronJob site w.context schedule command name

/-- **A write that may put an end to a job**: it was to remove what is named like it, or to
replace the jobs of its name, or it could not read the file. -/
def CronWrite.Ends (job : OpenClawCronJob) (w : CronWrite) : Prop :=
  match w.request with
  | .act .toggle _ => False
  | .act .remove body => ∃ id, cronJobId body = some id ∧ job.answersTo id = true
  | .add body => w.context.loads = false
    ∨ ∃ schedule command, body.texts = some (schedule, command, job.name)

/-- A job as it was added, but for whether it is enabled. -/
def OpenClawCronJob.AsAdded (job j : OpenClawCronJob) : Prop :=
  ∃ enabled updatedAtMs, j = { job with enabled, updatedAtMs }

/-- **A job is kept**: it is the only one of its name, it is listed as it was added, and if no
job has its name as the id, the actions by its name act on it. -/
structure CronJobKept (rt : Runtime) (job : OpenClawCronJob) (file : Option OpenClawCronFile) :
    Prop where
  listed : ∃ j, job.AsAdded j ∧ cronJobsNamed job.name file = [j]
    ∧ mapOpenClawJob rt j ∈ listCronJobs rt file
  acts : (∀ j ∈ cronJobsOf file, j.id ≠ job.name) → CronActsOn rt file job.name

/-- **What holds of the cron file after any run** of requests, wherever no write is under
way. -/
structure CronFileSound (site : CronSite) (file : Option OpenClawCronFile)
    (as : List CronFileAction) : Prop where
  /-- No name comes to have a second job, unless the file was left in pieces, or read so. -/
  names : ∀ now, ((cronFile site).state (.idle file) as).Holds now →
    (∀ name, (cronJobsNamed name now).length ≤ max 1 (cronJobsNamed name file).length)
      ∨ SharedFile.Torn ((cronFile site).trace (.idle file) as)
      ∨ ∃ i, .took i false ∈ (cronFile site).trace (.idle file) as
  /-- A job that was added is kept, unless it is ended or the file is lost. -/
  kept : ∀ before i w written whole since job,
    (cronFile site).trace (.idle file) as = before ++ .put i w written whole :: since →
    w.added site = some job → ∀ now, ((cronFile site).state (.idle file) as).Holds now →
      (CronJobKept site.rt job now
          ∨ ∃ j later v whole, .put j later v whole ∈ since ∧ later.Ends job)
        ∨ SharedFile.Overwritten since
        ∨ SharedFile.Torn (.put i w written whole :: since)
  /-- Where no access fails or overlaps a write, nothing is lost. -/
  undisturbed : (cronFile site).Throughout SharedFile.Undisturbed (.idle file) as →
    ¬ SharedFile.Torn ((cronFile site).trace (.idle file) as)
      ∧ ∀ i, .took i false ∉ (cronFile site).trace (.idle file) as

/-! ## What a write leaves -/

section Writes

variable {site : CronSite} {file written : Option OpenClawCronFile} {context : CronContext}

/-- The jobs after an action on the one between others. -/
def CronAction.editAt (a : CronAction) (now : ℕ) (before : List OpenClawCronJob)
    (j : OpenClawCronJob) (after : List OpenClawCronJob) : List OpenClawCronJob :=
  match a with
  | toggle => before ++ j.toggled now :: after
  | remove => before ++ after

theorem edit_append_cons (a : CronAction) (now : ℕ) (before : List OpenClawCronJob)
    (j : OpenClawCronJob) (after : List OpenClawCronJob) :
    a.edit now before.length (before ++ j :: after) = a.editAt now before j after := by
  cases a with
  | toggle => exact edit_toggle now
  | remove => exact edit_remove now

theorem cronJobsOf_postCron {a : CronAction} {now : ℕ} {saved : Bool} {body : Json}
    (h : (postCron a now saved file body).1.status = 200) :
    ∃ id before j after, cronJobId body = some id ∧ j.answersTo id = true
      ∧ cronJobsOf file = before ++ j :: after
      ∧ cronJobsOf (postCron a now saved file body).2 = a.editAt now before j after := by
  unfold postCron at h ⊢
  split at h
  · cases h
  next id hid =>
  split at h
  · cases h
  next f =>
  split at h
  · cases h
  next jobs hjobs =>
  split at h
  · cases h
  next i hfound =>
  split at h
  · next hsaved =>
    obtain ⟨hlt, hanswers, -⟩ := List.findIdx?_eq_some_iff_getElem.mp hfound
    have hsplit : jobs = jobs.take i ++ jobs[i] :: jobs.drop (i + 1) := by
      rw [List.getElem_cons_drop, List.take_append_drop]
    have hlen : (jobs.take i).length = i := List.length_take_of_le hlt.le
    refine ⟨id, jobs.take i, jobs[i], jobs.drop (i + 1), (Option.filter_eq_some_iff.mp hid).1,
      hanswers, ?_, ?_⟩
    · unfold cronJobsOf
      rw [Option.bind_some, hjobs]
      exact hsplit
    · rw [if_pos hsaved]
      show a.edit now i jobs = _
      rw [← edit_append_cons, hlen, ← hsplit]
  · cases h

theorem cronJobsOf_addCron {saved : Bool} {body : AddCronBody}
    (h : (addCron site context saved file body).1.status = 200) :
    ∃ schedule command name, body.texts = some (schedule, command, name)
      ∧ cronJobsOf (addCron site context saved file body).2
        = (cronJobsOf file).filter (fun j => j.name ≠ name)
          ++ [newCronJob site context schedule command name] := by
  unfold addCron at h ⊢
  split at h
  · cases h
  next schedule command name htexts =>
  rw [htexts]
  refine ⟨schedule, command, name, rfl, ?_⟩
  dsimp only at h ⊢
  split at h
  · cases h
  next jobs hjobs =>
  split at h
  · next hsaves =>
    have hof : cronJobsOf file = jobs := by
      cases file with
      | none => exact Option.some.inj hjobs
      | some f =>
        unfold cronJobsOf
        rw [Option.bind_some, show f.jobs = some jobs from hjobs]
        rfl
    simp only [if_pos hsaves]
    rw [hof]
    rfl
  · cases h

/-- **What is written**: the file with a job toggled, with a job removed, or with a new job in
the place of those of its name. -/
theorem cronRequests_cases {request : CronRequest} {o : CronWrite}
    (h : cronRequests site request context file = .write o written) :
    o = ⟨request, context⟩
      ∧ ((∃ a body id before j after, request = .act a body ∧ cronJobId body = some id
          ∧ j.answersTo id = true ∧ cronJobsOf file = before ++ j :: after
          ∧ cronJobsOf written = a.editAt context.updatedAt before j after)
        ∨ ∃ body schedule command name, request = .add body
          ∧ body.texts = some (schedule, command, name)
          ∧ cronJobsOf written
            = (if context.loads then cronJobsOf file else []).filter (fun j => j.name ≠ name)
              ++ [newCronJob site context schedule command name]) := by
  unfold cronRequests at h
  dsimp only at h
  by_cases hstatus :
      (request.run site context true (if context.loads then file else none)).1.status = 200
  · rw [if_pos hstatus] at h
    obtain ⟨ho, rfl⟩ := SharedCell.Move.write.inj h
    refine ⟨ho.symm, ?_⟩
    cases request with
    | act a body =>
      obtain ⟨id, before, j, after, hid, hanswers, hof, hwritten⟩ := cronJobsOf_postCron hstatus
      cases hloads : context.loads with
      | false =>
        rw [hloads] at hof
        exact absurd hof (by simp [cronJobsOf])
      | true =>
        rw [hloads] at hof hwritten
        exact .inl ⟨a, body, id, before, j, after, rfl, hid, hanswers, hof, hwritten⟩
    | add body =>
      obtain ⟨schedule, command, name, htexts, hwritten⟩ := cronJobsOf_addCron hstatus
      refine .inr ⟨body, schedule, command, name, rfl, htexts, hwritten.trans ?_⟩
      cases context.loads <;> rfl
  · rw [if_neg hstatus] at h
    cases h

/-- A job in the place of those of its name is the only one. -/
theorem filter_replaced (jobs : List OpenClawCronJob) (job : OpenClawCronJob) :
    (jobs.filter (fun j => j.name ≠ job.name) ++ [job]).filter (fun j => j.name = job.name)
      = [job] := by
  rw [List.filter_append, List.filter_filter, List.filter_eq_nil_iff.mpr (by simp),
    List.nil_append]
  exact List.filter_cons_of_pos (decide_eq_true rfl)

/-- **No write brings a second job of a name.** -/
theorem length_cronJobsNamed_write {request : CronRequest} {o : CronWrite} {n : ℕ}
    (h : cronRequests site request context file = .write o written) {name : String}
    (hn : (cronJobsNamed name file).length ≤ max 1 n) :
    (cronJobsNamed name written).length ≤ max 1 n := by
  unfold cronJobsNamed at hn ⊢
  obtain ⟨-, ⟨a, body, id, before, j, after, -, -, -, hof, hwritten⟩
    | ⟨body, schedule, command, name', -, -, hwritten⟩⟩ := cronRequests_cases h
  · rw [hof] at hn
    rw [hwritten]
    refine Nat.le_trans ?_ hn
    cases a with
    | toggle =>
      -- a toggled job keeps its name
      have hname : (j.toggled context.updatedAt).name = j.name := rfl
      unfold CronAction.editAt
      dsimp only
      rw [List.filter_append, List.filter_append, List.filter_cons, List.filter_cons, hname]
      split <;> simp
    | remove =>
      have hsub : (before ++ after).Sublist (before ++ j :: after) :=
        List.Sublist.append_left (List.sublist_cons_self j after) before
      exact (hsub.filter _).length_le
  · rw [hwritten]
    by_cases hname : name' = name
    · subst hname
      have hone := filter_replaced (if context.loads then cronJobsOf file else [])
        (newCronJob site context schedule command name')
      exact (congrArg List.length hone).le.trans (Nat.le_max_left 1 n)
    · have hnew : [newCronJob site context schedule command name'].filter
          (fun j => j.name = name) = [] :=
        List.filter_cons_of_neg fun h => hname (of_decide_eq_true h)
      rw [List.filter_append, hnew, List.append_nil]
      refine Nat.le_trans ((List.filter_sublist.filter _).length_le) ?_
      cases context.loads with
      | false => exact Nat.zero_le _
      | true => exact hn

/-- **A write that does not end a job** leaves it the only one of its name. -/
theorem cronJobsNamed_write {request : CronRequest} {o : CronWrite} {job : OpenClawCronJob}
    (h : cronRequests site request context file = .write o written) (hends : ¬ o.Ends job)
    (hjob : ∃ j, job.AsAdded j ∧ cronJobsNamed job.name file = [j]) :
    ∃ j, job.AsAdded j ∧ cronJobsNamed job.name written = [j] := by
  unfold cronJobsNamed at hjob ⊢
  obtain ⟨j₀, hadded, hsole⟩ := hjob
  obtain ⟨rfl, ⟨a, body, id, before, j, after, rfl, hid, hanswers, hof, hwritten⟩
    | ⟨body, schedule, command, name, rfl, htexts, hwritten⟩⟩ := cronRequests_cases h
  · rw [hof, List.filter_append, List.filter_cons] at hsole
    rw [hwritten]
    by_cases hname : j.name = job.name
    · -- the job itself: it is toggled
      rw [if_pos (decide_eq_true hname)] at hsole
      obtain ⟨hbefore, rfl, hafter⟩ : before.filter (fun j => j.name = job.name) = []
          ∧ j = j₀ ∧ after.filter (fun j => j.name = job.name) = [] := by
        cases hb : before.filter (fun j => j.name = job.name) with
        | nil => simpa [hb] using hsole
        | cons x xs => simp [hb] at hsole
      obtain ⟨enabled, updatedAtMs, rfl⟩ := hadded
      cases a with
      | toggle =>
        refine ⟨_, ⟨!enabled, some (context.updatedAt : ℚ), rfl⟩, ?_⟩
        unfold CronAction.editAt
        dsimp only
        rw [List.filter_append, hbefore,
          List.filter_cons_of_pos (by simp [OpenClawCronJob.toggled]), hafter]
        rfl
      | remove => exact absurd ⟨id, hid, hanswers⟩ hends
    · rw [if_neg (by simpa using hname)] at hsole
      refine ⟨j₀, hadded, ?_⟩
      cases a with
      | toggle =>
        unfold CronAction.editAt
        dsimp only
        have hsame : (j.toggled context.updatedAt).name ≠ job.name := hname
        rw [List.filter_append, List.filter_cons_of_neg (by simpa using hsame), hsole]
      | remove =>
        unfold CronAction.editAt
        dsimp only
        rw [List.filter_append, hsole]
  · -- a job of another name is added to those of the file
    have hloads : context.loads = true := by
      by_contra hnot
      exact hends (.inl (Bool.eq_false_iff.mpr hnot))
    have hname : name ≠ job.name := by
      rintro rfl
      exact hends (.inr ⟨schedule, command, htexts⟩)
    refine ⟨j₀, hadded, ?_⟩
    have hnew : [newCronJob site context schedule command name].filter
        (fun j => j.name = job.name) = [] :=
      List.filter_cons_of_neg fun h => hname (of_decide_eq_true h)
    rw [hwritten, if_pos hloads, List.filter_append, List.filter_filter, hnew, List.append_nil,
      ← hsole]
    refine List.filter_congr fun j _ => ?_
    by_cases hj : j.name = job.name
    · simp [hj, hname.symm]
    · simp [hj]

end Writes

/-! ## Runs -/

/-- Two additions that are about to write at the same time, the second with what it read
before: the job of the first is lost. -/
example :
    let add (name : String) : CronFileAction :=
      .start (some (.add ⟨some "0 9 * * *", some "Write the report", some name, none⟩))
    let resume (i : ℕ) (torn : Option OpenClawCronFile) : CronFileAction :=
      .resume i ⟨⟨true, 1, 1, 1⟩, false, torn⟩
    let weekly := (addCron ⟨sampleRuntime, fun _ => none⟩ ⟨true, 1, 1, 1⟩ true none
      ⟨some "0 9 * * *", some "Write the report", some "weekly", none⟩).2
    (cronJobsOf ((cronFile ⟨sampleRuntime, fun _ => none⟩).state (.idle none)
        [add "daily", add "weekly", resume 1 none, resume 2 none, resume 1 none,
          resume 2 weekly]).value).map OpenClawCronJob.name = ["weekly"] := by
  decide +kernel

end MissionControl
