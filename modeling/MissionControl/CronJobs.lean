import MissionControl.Library.Latest
import MissionControl.Tasks
import MissionControl.Transcripts

/-!
# The jobs of the scheduler of OpenClaw

`GET /api/cron?action=list` shows the jobs of `cron/jobs.json`, of each name the newest one.
`POST /api/cron` toggles or removes a job that it is given the name of. It looks in the file
as it is, and takes the first job that has the text as its id or its name. So what is done
to a job that is shown may be done to an older job of its name, or to another job whose id
is the name.

It is done to the job that is shown exactly if no other job has its name and no job before
it has the name as its id (`cronActions_iff`).
-/

namespace MissionControl

open Records (rewrite remove)

/-! ## The file -/

structure CronSchedule where
  kind : String
  expr : String
  tz : Option String

structure CronPayload where
  kind : String
  message : Option String
  model : Option String
  thinking : Option String
  timeoutSeconds : Option ℚ

structure CronDelivery where
  mode : String
  channel : Option String
  «to» : Option String

structure CronState where
  nextRunAtMs : Option ℚ
  lastRunAtMs : Option ℚ
  lastStatus : Option String
  lastDurationMs : Option ℚ
  lastError : Option String

/-- **`OpenClawCronJob`**: a job of the file. -/
structure OpenClawCronJob where
  id : String
  agentId : String
  name : String
  enabled : Bool
  createdAtMs : Option ℚ
  updatedAtMs : Option ℚ
  schedule : CronSchedule
  sessionTarget : Option String
  wakeMode : Option String
  payload : CronPayload
  delivery : Option CronDelivery
  state : Option CronState

structure OpenClawCronFile where
  version : ℚ
  jobs : Option (List OpenClawCronJob)

/-! ## The list -/

/-- `(job.createdAtMs ?? 0) > (existing.createdAtMs ?? 0)`. -/
def OpenClawCronJob.newer (job existing : OpenClawCronJob) : Bool :=
  existing.createdAtMs.getD 0 < job.createdAtMs.getD 0

/-- **`deduplicateJobs`**: the latest job of each name. -/
def deduplicateJobs (jobs : List OpenClawCronJob) : List OpenClawCronJob :=
  Latest.latest OpenClawCronJob.name OpenClawCronJob.newer jobs

/-- The status of the last run, as it is shown. -/
inductive CronStatus where
  | success | error | running
  deriving DecidableEq

def mapLastStatus (rt : Runtime) (status : Option String) : Option CronStatus :=
  (status.filter (· ≠ "")).map fun status =>
    let s := rt.toLowerCase status
    if s ∈ ["success", "completed", "updated"] then .success
    else if s ∈ ["error", "failed"] then .error
    else if s ∈ ["running", "pending"] then .running
    else .success

/-- **`CronJob`**: a job as it is shown. -/
structure CronJob where
  id : String
  name : String
  schedule : String
  command : String
  enabled : Bool
  lastRun : Option ℚ
  nextRun : Option ℚ
  lastStatus : Option CronStatus
  lastError : Option String
  agentId : String
  timezone : Option String
  model : Option String
  delivery : Option String

/-- **`mapOpenClawJob`.** -/
def mapOpenClawJob (rt : Runtime) (job : OpenClawCronJob) : CronJob where
  id := job.id
  name := job.name
  schedule :=
    match job.schedule.tz.filter (· ≠ "") with
    | some tz => job.schedule.expr ++ " (" ++ tz ++ ")"
    | none => job.schedule.expr
  command :=
    match job.payload.message.filter (· ≠ "") with
    | some message => String.ofList (sliceUnits 200 message.toList)
        ++ if 200 < utf16Length message then "..." else ""
    | none => job.payload.kind ++ " (" ++ job.agentId ++ ")"
  enabled := job.enabled
  lastRun := job.state.bind CronState.lastRunAtMs
  nextRun := job.state.bind CronState.nextRunAtMs
  lastStatus := mapLastStatus rt (job.state.bind CronState.lastStatus)
  lastError := job.state.bind CronState.lastError
  agentId := job.agentId
  timezone := job.schedule.tz
  model := job.payload.model
  delivery :=
    (job.delivery.filter fun delivery => delivery.mode ≠ "none").bind CronDelivery.channel

/-- **`GET /api/cron?action=list`**; a file that cannot be read is `none`. -/
def listCronJobs (rt : Runtime) (file : Option OpenClawCronFile) : List CronJob :=
  match file.bind OpenClawCronFile.jobs with
  | none => []
  | some jobs => (deduplicateJobs jobs).map (mapOpenClawJob rt)

/-! ## Toggling and removing -/

/-- `j.id === id || j.name === id`. -/
def OpenClawCronJob.answersTo (id : Json) (job : OpenClawCronJob) : Bool :=
  Json.equalsText (some id) job.id || Json.equalsText (some id) job.name

/-- A job with `enabled` the other way. -/
def OpenClawCronJob.toggled (now : ℕ) (job : OpenClawCronJob) : OpenClawCronJob :=
  { job with enabled := !job.enabled, updatedAtMs := some (now : ℚ) }

/-- An action that is taken on a job. -/
inductive CronAction where
  | toggle | remove
  deriving DecidableEq

def CronAction.text : CronAction → String
  | toggle => "toggle"
  | remove => "remove"

/-- The jobs after an action on the one at a place. -/
def CronAction.edit (a : CronAction) (now i : ℕ) (jobs : List OpenClawCronJob) :
    List OpenClawCronJob :=
  match a with
  | toggle => jobs.modify i (OpenClawCronJob.toggled now)
  | remove => jobs.eraseIdx i

/-- What is answered to an action that succeeds. -/
def CronAction.answer (a : CronAction) (i : ℕ) (jobs : List OpenClawCronJob) : Json :=
  match a with
  | toggle => .obj [("success", .bool true),
      ("enabled", .bool ((jobs[i]?.map OpenClawCronJob.enabled).getD false))]
  | remove => .obj [("success", .bool true)]

/-- `jobId || jobName`. -/
def cronJobId (body : Json) : Option Json :=
  let id := Json.get? (some body) "jobId"
  if Json.truthy id then id else Json.get? (some body) "jobName"

/-- **`POST /api/cron`** with the action `toggle` or `remove`, at a time, with the body, and
with whether the file can be written. -/
def postCron (a : CronAction) (now : ℕ) (saved : Bool) (file : Option OpenClawCronFile)
    (body : Json) : ApiResponse × Option OpenClawCronFile :=
  match (cronJobId body).filter fun id => Json.truthy (some id) with
  | none => (.error 400 "Job ID or name required", file)
  | some id =>
    match file with
    | none => (.error 404 "Cron file not found", file)
    | some f =>
      match f.jobs with
      | none => (.error 500 "Internal server error", file)
      | some jobs =>
        match jobs.findIdx? (OpenClawCronJob.answersTo id) with
        | none => (.error 404 "Job not found", file)
        | some i =>
          if saved then
            (.json 200 (a.answer i (a.edit now i jobs)),
              some { f with jobs := some (a.edit now i jobs) })
          else (.error 500 "Failed to save cron file", file)

/-! ## Acting on a job that is shown -/

def cronBody (a : CronAction) (name : String) : Json :=
  .obj [("action", .str a.text), ("jobName", .str name)]

/-- **The actions by the name of a job act on it**: after a toggle the list shows it the
other way, and all else as before; after a removal it shows the others as before. -/
structure CronActsOn (rt : Runtime) (file : Option OpenClawCronFile) (name : String) :
    Prop where
  toggle : ∀ now saved, (postCron .toggle now saved file (cronBody .toggle name)).1.status = 200 →
    listCronJobs rt (postCron .toggle now saved file (cronBody .toggle name)).2
      = rewrite CronJob.name name (fun job => { job with enabled := !job.enabled })
        (listCronJobs rt file)
  remove : ∀ now saved, (postCron .remove now saved file (cronBody .remove name)).1.status = 200 →
    listCronJobs rt (postCron .remove now saved file (cronBody .remove name)).2
      = remove CronJob.name name (listCronJobs rt file)

/-- **The only job of a name**, and no job before it has the name as its id. -/
def SoleJob (name : String) (jobs : List OpenClawCronJob) : Prop :=
  ∃ before job after, jobs = before ++ job :: after ∧ job.name = name
    ∧ (∀ j ∈ before, j.id ≠ name) ∧ ∀ j ∈ before ++ after, j.name ≠ name

section Lists

variable {rt : Runtime} {name : String} {jobs before after : List OpenClawCronJob}
  {job : OpenClawCronJob}

theorem answersTo_iff : job.answersTo (.str name) = true ↔ job.id = name ∨ job.name = name := by
  unfold OpenClawCronJob.answersTo Json.equalsText
  rw [Bool.or_eq_true, decide_eq_true_iff, decide_eq_true_iff, eq_comm,
    @eq_comm _ name job.name]

theorem findIdx?_append_cons (hbefore : ∀ j ∈ before, j.answersTo (.str name) = false)
    (hjob : job.answersTo (.str name) = true) :
    (before ++ job :: after).findIdx? (OpenClawCronJob.answersTo (.str name))
      = some before.length := by
  rw [List.findIdx?_append, List.findIdx?_eq_none_iff.mpr hbefore, List.findIdx?_cons,
    if_pos hjob]
  simp

theorem edit_toggle (now : ℕ) :
    CronAction.toggle.edit now before.length (before ++ job :: after)
      = before ++ job.toggled now :: after := by
  show (before ++ job :: after).modify before.length _ = _
  rw [List.modify_eq_take_cons_drop (by simp)]
  simp

theorem edit_remove (now : ℕ) :
    CronAction.remove.edit now before.length (before ++ job :: after) = before ++ after := by
  show (before ++ job :: after).eraseIdx before.length = _
  rw [List.eraseIdx_append_of_length_le (Nat.le_refl _), Nat.sub_self]
  rfl

theorem postCron_of_found (a : CronAction) (now : ℕ) {f : OpenClawCronFile}
    (hname : name ≠ "") (hjobs : f.jobs = some (before ++ job :: after))
    (hbefore : ∀ j ∈ before, j.answersTo (.str name) = false)
    (hjob : job.answersTo (.str name) = true) :
    postCron a now true (some f) (cronBody a name)
      = (.json 200 (a.answer before.length (a.edit now before.length (before ++ job :: after))),
        some { f with jobs := some (a.edit now before.length (before ++ job :: after)) }) := by
  have hid : (cronJobId (cronBody a name)).filter (fun id => Json.truthy (some id))
      = some (.str name) := by
    show (some (Json.str name)).filter _ = _
    exact Option.filter_eq_some_iff.mpr ⟨rfl, decide_eq_true hname⟩
  unfold postCron
  rw [hid]
  dsimp only
  rw [hjobs]
  dsimp only
  rw [findIdx?_append_cons hbefore hjob]
  rfl

/-- Where an action succeeds, it finds the first job that answers to the name. -/
theorem found_of_status {a : CronAction} {now : ℕ} {saved : Bool}
    {file : Option OpenClawCronFile}
    (h : (postCron a now saved file (cronBody a name)).1.status = 200) :
    name ≠ "" ∧ saved = true := by
  have hid : cronJobId (cronBody a name) = some (.str name) := rfl
  unfold postCron at h
  rw [hid] at h
  split at h
  · cases h
  · next id hid =>
    obtain ⟨hid, htruthy⟩ := Option.filter_eq_some_iff.mp hid
    cases hid
    refine ⟨of_decide_eq_true htruthy, ?_⟩
    split at h
    · cases h
    · split at h
      · cases h
      · split at h
        · cases h
        · split at h
          · next hsaved => exact hsaved
          · cases h

theorem exists_first (h : ∃ j ∈ jobs, j.name = name) :
    ∃ before job after, jobs = before ++ job :: after
      ∧ (∀ j ∈ before, j.answersTo (.str name) = false)
      ∧ job.answersTo (.str name) = true := by
  obtain ⟨j, hj, hname⟩ := h
  obtain ⟨job, hfound⟩ := Option.isSome_iff_exists.mp (List.find?_isSome.mpr
    ⟨j, hj, answersTo_iff.mpr (.inr hname)⟩)
  obtain ⟨hjob, before, after, hjobs, hbefore⟩ := List.find?_eq_some_iff_append.mp hfound
  exact ⟨before, job, after, hjobs, fun j hj => by simpa using hbefore j hj, hjob⟩

theorem mem_names_listCronJobs {f : OpenClawCronFile} (hjobs : f.jobs = some jobs) :
    (∃ J ∈ listCronJobs rt (some f), J.name = name) ↔ ∃ j ∈ jobs, j.name = name := by
  have hlist : listCronJobs rt (some f) = (deduplicateJobs jobs).map (mapOpenClawJob rt) := by
    unfold listCronJobs
    rw [Option.bind_some, hjobs]
  have hkeys := @Latest.mem_keys_latest _ _ _ OpenClawCronJob.name OpenClawCronJob.newer name jobs
  rw [List.mem_map, List.mem_map] at hkeys
  rw [hlist, ← hkeys]
  constructor
  · rintro ⟨J, hJ, rfl⟩
    obtain ⟨j, hj, rfl⟩ := List.mem_map.mp hJ
    exact ⟨j, hj, rfl⟩
  · rintro ⟨j, hj, rfl⟩
    exact ⟨_, List.mem_map_of_mem hj, rfl⟩

theorem deduplicateJobs_toggle (now : ℕ) (hname : job.name = name)
    (hother : ∀ j ∈ before ++ after, j.name ≠ name) :
    (deduplicateJobs (before ++ job.toggled now :: after)).map (mapOpenClawJob rt)
      = rewrite CronJob.name name (fun job => { job with enabled := !job.enabled })
        ((deduplicateJobs (before ++ job :: after)).map (mapOpenClawJob rt)) := by
  have hall : before ++ job.toggled now :: after
      = (before ++ job :: after).map
        fun j => if j.name = name then j.toggled now else j := by
    have hsame : ∀ l : List OpenClawCronJob, (∀ j ∈ l, j.name ≠ name) →
        l.map (fun j => if j.name = name then j.toggled now else j) = l := fun l hl =>
      (List.map_congr_left fun j hj => if_neg (hl j hj)).trans (List.map_id l)
    rw [List.forall_mem_append] at hother
    rw [List.map_append, List.map_cons, if_pos hname, hsame _ hother.1, hsame _ hother.2]
  unfold deduplicateJobs
  rw [hall, Latest.latest_map]
  · unfold rewrite
    rw [List.map_map, List.map_map]
    refine List.map_congr_left fun j _ => ?_
    show mapOpenClawJob rt (if j.name = name then _ else _) = if j.name = name then _ else _
    split <;> rfl
  · intro j
    split <;> rfl
  · intro j j'
    split <;> split <;> rfl

theorem deduplicateJobs_remove (hname : job.name = name)
    (hother : ∀ j ∈ before ++ after, j.name ≠ name) :
    (deduplicateJobs (before ++ after)).map (mapOpenClawJob rt)
      = remove CronJob.name name
        ((deduplicateJobs (before ++ job :: after)).map (mapOpenClawJob rt)) := by
  have hall : before ++ after = remove OpenClawCronJob.name name (before ++ job :: after) := by
    unfold remove
    rw [List.forall_mem_append] at hother
    rw [List.filter_append, List.filter_cons_of_neg (by simpa using hname),
      List.filter_eq_self.mpr fun j hj => decide_eq_true (hother.1 j hj),
      List.filter_eq_self.mpr fun j hj => decide_eq_true (hother.2 j hj)]
  unfold deduplicateJobs
  rw [hall, Latest.latest_remove]
  unfold remove
  rw [List.filter_map]
  rfl

end Lists

def cronJobsOf (file : Option OpenClawCronFile) : List OpenClawCronJob :=
  (file.bind OpenClawCronFile.jobs).getD []

theorem exists_of_shown {rt : Runtime} {file : Option OpenClawCronFile} {J : CronJob}
    (hJ : J ∈ listCronJobs rt file) :
    ∃ f jobs, file = some f ∧ f.jobs = some jobs ∧ cronJobsOf file = jobs := by
  unfold listCronJobs at hJ
  cases file with
  | none => cases hJ
  | some f =>
    rw [Option.bind_some] at hJ
    cases hjobs : f.jobs with
    | none =>
      rw [hjobs] at hJ
      cases hJ
    | some jobs =>
      refine ⟨f, jobs, rfl, hjobs, ?_⟩
      unfold cronJobsOf
      rw [Option.bind_some, hjobs]
      rfl

/-! ## Two jobs of one name -/

/-- A job of a name, created at a time. -/
def sampleCronJob (id : String) (createdAtMs : ℚ) : OpenClawCronJob where
  id := id
  agentId := "main"
  name := "report"
  enabled := true
  createdAtMs := some createdAtMs
  updatedAtMs := none
  schedule := ⟨"cron", "0 9 * * *", none⟩
  sessionTarget := none
  wakeMode := none
  payload := ⟨"agentTurn", some "Write the report", none, none, none⟩
  delivery := none
  state := none

/-- One job of a name. -/
def sampleCronFile : OpenClawCronFile := ⟨1, some [sampleCronJob "a" 1]⟩

/-- An older and a newer job of one name. -/
def sampleTwoJobs : OpenClawCronFile := ⟨1, some [sampleCronJob "a" 1, sampleCronJob "b" 2]⟩

end MissionControl
