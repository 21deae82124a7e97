import MissionControl.Requests

/-!
# Executing a job

`executeProvisionJob` in the pieces its waits cut it into. The first piece
checks the job, writes the artifacts of a bootstrap, puts the job and the
tenant into their running states and begins the first step. Each further
piece (`resume`) runs when a step settles: it records the result and begins
the next step, or writes the final state. Between the pieces other requests
are served, on the tables as the pieces before have left them.
-/

namespace MissionControl

/-! ## Artifacts -/

/-- `parseJobRequest`: a text in the column is parsed once more. -/
def parseJobRequest (rt : Runtime) : Json → Json
  | .arr elements => .arr elements
  | .obj fields => .obj fields
  | .null => .obj []
  | .bool b => if b then .bool b else .obj []
  | .num n => if Json.truthy (some (.num n)) then .num n else .obj []
  | .str s => if s = "" then .obj [] else (rt.parseJson s).getD (.obj [])

/-- `x ?? fallback`. -/
def nullish (x : Option Json) (fallback : Json) : Json :=
  match x with
  | none => fallback
  | some .null => fallback
  | some x => x

/-- The text of `openclaw-gateway.env`. -/
def gatewayEnv (slug linuxUser openclawHome : String) (gatewayPort : ℤ) :
    String :=
  "\n".intercalate
    ["TENANT_SLUG=" ++ slug, "TENANT_USER=" ++ linuxUser,
      "OPENCLAW_HOME=" ++ openclawHome, "OPENCLAW_STATE_DIR=" ++ openclawHome,
      "OPENCLAW_CONFIG_PATH=" ++ openclawHome ++ "/openclaw.json",
      "OPENCLAW_GATEWAY_PORT=" ++ toString gatewayPort, ""]

/-- **`ensureProvisionArtifacts`**: the path and the text of the file it
writes. The row it reads has no `gateway_port` of its own, so the port is
the one of the request. -/
def ensureProvisionArtifacts (rt : Runtime) (p : Process) (job : ProvisionJob)
    (tenant : Tenant) : Except Exception (String × String) := do
  let requestJson := parseJobRequest rt job.requestJson
  let slug ← (Json.or (Json.get? (some requestJson) "slug")
    (.str tenant.slug)).toStr rt
  let slug := trim slug
  let linuxUser := trim tenant.linuxUser
  let openclawHome := trim tenant.openclawHome
  let gatewayPort ← Json.toNumber rt (some (nullish
    (Json.get? (some requestJson) "gateway_port") (.num (.finite 0))))
  if slug = "" then
    .error (.error "Missing tenant slug for artifact generation")
  else if linuxUser = "" then
    .error (.error "Missing linux_user for artifact generation")
  else if openclawHome = "" then
    .error (.error "Missing openclaw_home for artifact generation")
  else match gatewayPort.integer with
    | none => invalidPort
    | some port =>
      if port < 1024 ∨ 65535 < port then invalidPort
      else
        .ok (pathJoin [getProvisionArtifactDir p slug, "openclaw-gateway.env"],
          gatewayEnv slug linuxUser openclawHome port)
where
  invalidPort : Except Exception (String × String) :=
    .error (.error "Missing/invalid gateway_port for gateway unit provisioning")

/-! ## Events -/

/-- What a run of the control plane shows. -/
inductive Event where
  /-- A tenant was created, with its bootstrap job. -/
  | tenantCreated (tenantId jobId : ℕ)
  | decommissionQueued (tenantId jobId : ℕ)
  | jobPosted (jobId : ℕ)
  /-- The status of a job was changed by an actor. -/
  | transitioned (jobId : ℕ) (action : ProvisionJobAction) (actor : String)
  | wroteArtifact (jobId : ℕ) (path content : String)
  | started (e jobId : ℕ) (actor : String)
  /-- An execution handed a step to `runProvisionStep`. -/
  | dispatched (e jobId : ℕ) (step : Json) (transport : Transport)
  | returned (e jobId : ℕ) (outcome : Except Exception StepResult)
  | completed (e jobId : ℕ)
  | failed (e jobId : ℕ) (error : Exception)

/-! ## Starting -/

/-- The execution of a job that is read as it stands. -/
def ProvisionJob.execution (job : ProvisionJob) (tenant : Tenant) (jobId : ℕ)
    (actor : String) : Execution :=
  { jobId, actor
    tenantId := job.tenantId
    jobType := job.jobType
    dryRun := job.dryRun
    previousTenantStatus := tenant.status
    plan := job.planJson
    rest := job.planJson
    stepResults := []
    awaiting := none }

/-- `requestedDryRun`: what the stored request says about a dry run. -/
def ProvisionJob.requestedDryRun (rt : Runtime) (job : ProvisionJob) :
    Except Exception Bool := do
  let dryRun ← Json.get (some (parseJobRequest rt job.requestJson)) "dry_run"
  .ok (Json.notFalse dryRun)

/-- The artifacts of a job that is started: only a bootstrap has some.
`fsError` is the error of the file system, if it has one. -/
def startArtifacts (rt : Runtime) (p : Process) (job : ProvisionJob)
    (tenant : Tenant) (jobId : ℕ) (fsError : Option Exception) :
    Except Exception (List Event) :=
  if job.jobType = .bootstrap then do
    let (path, content) ← ensureProvisionArtifacts rt p job tenant
    match fsError with
    | some err => .error err
    | none => .ok [.wroteArtifact jobId path content]
  else .ok []

/-- **The checks of `executeProvisionJob`** and the artifacts, up to the
first write to the tables. -/
def startExecution (rt : Runtime) (p : Process) (s : State) (jobId : ℕ)
    (actor : String) (fsError : Option Exception) :
    Except Exception (Execution × List Event) :=
  match getProvisionJob s jobId with
  | none => .error (.error "Job not found")
  | some (job, tenant) =>
    if job.status ≠ .approved then
      .error (.error ("Job must be approved before execution. Current status: "
        ++ job.status.text))
    else if job.planJson = [] then .error (.error "Job plan is empty")
    else do
      let approvedBy := job.approvedBy.getD ""
      let requestedDryRun ← job.requestedDryRun rt
      if requestedDryRun ≠ job.dryRun then
        .error (.error "Job dry_run metadata mismatch detected")
      else if approvedBy = "" then
        .error (.error "Missing approver. Approve the job before run.")
      else if job.dryRun = false ∧ approvedBy = job.requestedBy then
        .error (.error ("Two-person rule violation: live jobs require an "
          ++ "approver different from the requester."))
      else if job.dryRun = false ∧ approvedBy = actor then
        .error (.error ("Two-person rule violation: approver cannot be the "
          ++ "execution runner for live jobs."))
      else do
        let artifacts ← startArtifacts rt p job tenant jobId fsError
        .ok (job.execution tenant jobId actor, artifacts)

/-! ## The loop -/

/-- One turn of the loop up to its wait: the event about the step, the check
that live runs are switched on, and the hand-over. -/
def beginStep (rt : Runtime) (p : Process) (ex : Execution) (step : Json) :
    Except Exception Transport := do
  let key ← Json.get (some step) "key"
  let _title ← Json.toStrUndefined rt (← Json.get (some step) "title")
  if !rt.bindable key then .error .typeError
  else if !ex.dryRun && !allowExec rt p then
    .error (.error ("Execution disabled. Set MC_SUPER_PROVISION_EXEC=true to "
      ++ "allow non-dry-run provisioning."))
  else .ok (runProvisionStep rt p step ex.dryRun)

/-- **The loop from where an execution stands** to its next wait or to its
end. -/
def State.advance (rt : Runtime) (p : Process) (s : State) (e : ℕ)
    (ex : Execution) : State × List Event :=
  match ex.rest with
  | [] => (s.complete e ex, [.completed e ex.jobId])
  | step :: _ =>
    match beginStep rt p ex step with
    | .error err => (s.fail e ex err, [.failed e ex.jobId err])
    | .ok transport =>
      (s.setExecution e { ex with awaiting := some transport },
        [.dispatched e ex.jobId step transport])

/-- **`executeProvisionJob`** up to its first wait, as the execution `e`. -/
def executeProvisionJob (rt : Runtime) (p : Process) (s : State) (e jobId : ℕ)
    (actor : String) (fsError : Option Exception) :
    Except Exception (State × List Event) := do
  let (ex, artifacts) ← startExecution rt p s jobId actor fsError
  let (s', events) := (s.start e ex).advance rt p e ex
  .ok (s', artifacts ++ .started e jobId actor :: events)

/-- **An execution goes on** when the step it waits for settles. An event it
does not wait for changes nothing. -/
def State.resume (rt : Runtime) (p : Process) (d : Daemon) (s : State) (e : ℕ)
    (event : StepEvent) : State × List Event :=
  match s.executions e with
  | none => (s, [])
  | some ex =>
    match ex.awaiting.bind (fun transport => settle rt d transport event) with
    | none => (s, [])
    | some (.error err) =>
      (s.fail e ex err,
        [.returned e ex.jobId (.error err), .failed e ex.jobId err])
    | some (.ok result) =>
      let (s', events) := s.advance rt p e (ex.record result)
      (s', .returned e ex.jobId (.ok result) :: events)

end MissionControl
