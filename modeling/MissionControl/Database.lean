import MissionControl.Transport
import MissionControl.Plan
import MissionControl.Library.Table

/-!
# The state of the control plane

The two tables provisioning works on, `tenants` and `provision_jobs`, and
the executions that are under way in the web server. An execution is what a
call of `executeProvisionJob` keeps in its local variables while it waits
for a step: the values it read from the job and the tenant when it started,
the steps that are left, and the results so far.

Executions carry an id chosen by whoever starts them, so that two runs that
differ in one execution name the others alike.
-/

namespace MissionControl

inductive TenantStatus where
  | pending | provisioning | decommissioning | active | suspended | error
  deriving DecidableEq

inductive ProvisionJobStatus where
  | queued | approved | running | completed | failed | rejected | cancelled
  deriving DecidableEq

def ProvisionJobStatus.text : ProvisionJobStatus → String
  | queued => "queued"
  | approved => "approved"
  | running => "running"
  | completed => "completed"
  | failed => "failed"
  | rejected => "rejected"
  | cancelled => "cancelled"

inductive ProvisionJobAction where
  | approve | reject | cancel
  deriving DecidableEq

/-- The values of `job_type`. -/
inductive JobType where
  | bootstrap | update | decommission
  deriving DecidableEq

def JobType.ofText (s : String) : Option JobType :=
  if s = "bootstrap" then some bootstrap
  else if s = "update" then some update
  else if s = "decommission" then some decommission
  else none

/-- A row of `tenants`. -/
structure Tenant where
  slug : String
  displayName : String
  linuxUser : String
  planTier : String
  status : TenantStatus
  openclawHome : String
  workspaceRoot : String
  gatewayPort : ℤ
  dashboardPort : Option ℤ
  config : Json
  createdBy : String
  ownerGateway : String

def Tenant.plan (t : Tenant) : PlanTenant :=
  ⟨t.slug, t.linuxUser, t.openclawHome, t.workspaceRoot⟩

/-- An entry of `steps` in `result_json`. -/
structure StepRecord where
  key : Option Json
  ok : Bool
  skipped : Bool

/-- `result_json`. A failure does not count its steps. -/
structure JobResult where
  dryRun : Bool
  stepsExecuted : Option ℕ
  steps : List StepRecord

/-- A row of `provision_jobs`. The JSON columns hold what is read back from
them; `error_text` is the exception whose message it is. -/
structure ProvisionJob where
  tenantId : ℕ
  jobType : JobType
  status : ProvisionJobStatus
  dryRun : Bool
  requestedBy : String
  approvedBy : Option String
  requestJson : Json
  planJson : List Json
  resultJson : Option JobResult
  errorText : Option Exception

/-- The row an `INSERT` of a job stores. -/
def ProvisionJob.queued (tenantId : ℕ) (jobType : JobType) (dryRun : Bool)
    (requestedBy : String) (requestJson : Json) (planJson : List Json) :
    ProvisionJob :=
  { tenantId, jobType, status := .queued, dryRun, requestedBy
    approvedBy := none, requestJson, planJson
    resultJson := none, errorText := none }

/-- **A call of `executeProvisionJob`** after it has started. -/
structure Execution where
  jobId : ℕ
  actor : String
  tenantId : ℕ
  jobType : JobType
  dryRun : Bool
  previousTenantStatus : TenantStatus
  plan : List Json
  rest : List Json
  stepResults : List StepRecord
  /-- The transport of the step it waits for; `none` when the call is over. -/
  awaiting : Option Transport

def Execution.startedTenantStatus (ex : Execution) : TenantStatus :=
  if ex.dryRun then ex.previousTenantStatus
  else if ex.jobType = .decommission then .decommissioning else .provisioning

def Execution.completedTenantStatus (ex : Execution) : TenantStatus :=
  if ex.dryRun then ex.previousTenantStatus
  else if ex.jobType = .decommission then .suspended else .active

/-- The row of the job when all steps have returned. -/
def Execution.completedJob (ex : Execution) (job : ProvisionJob) :
    ProvisionJob :=
  { job with
    status := .completed
    resultJson := some ⟨ex.dryRun, some ex.stepResults.length, ex.stepResults⟩
    errorText := none }

/-- The row of the job when the execution has thrown. -/
def Execution.failedJob (ex : Execution) (err : Exception)
    (job : ProvisionJob) : ProvisionJob :=
  { job with
    status := .failed
    resultJson := some ⟨ex.dryRun, none, ex.stepResults⟩
    errorText := some err }

/-- The step that is waited for has returned. -/
def Execution.record (ex : Execution) (result : StepResult) : Execution :=
  { ex with
    rest := ex.rest.tail
    stepResults := ex.stepResults ++
      [{ key := ex.rest.head?.bind (fun step => Json.get? (some step) "key")
         ok := result.code = some 0
         skipped := result.skipped }]
    awaiting := none }

/-- **The state**: the two tables and the executions. -/
structure State where
  tenants : Table Tenant
  jobs : Table ProvisionJob
  executions : ℕ → Option Execution

def State.initial : State := ⟨.empty, .empty, fun _ => none⟩

/-! ## The writes -/

namespace State

def setTenantStatus (s : State) (tenantId : ℕ) (status : TenantStatus) : State :=
  { s with tenants := s.tenants.update tenantId (fun t => { t with status }) }

def setExecution (s : State) (e : ℕ) (ex : Execution) : State :=
  { s with executions := Function.update s.executions e (some ex) }

/-- The writes at the start of an execution. -/
def start (s : State) (e : ℕ) (ex : Execution) : State :=
  ({ s with
    jobs := s.jobs.update ex.jobId (fun job => { job with
      status := .running }) }.setTenantStatus ex.tenantId
    ex.startedTenantStatus).setExecution e ex

/-- The writes of an execution whose steps have all returned. -/
def complete (s : State) (e : ℕ) (ex : Execution) : State :=
  ({ s with jobs := s.jobs.update ex.jobId ex.completedJob }.setTenantStatus
    ex.tenantId ex.completedTenantStatus).setExecution e
    { ex with awaiting := none }

def fail (s : State) (e : ℕ) (ex : Execution) (err : Exception) : State :=
  ({ s with jobs := s.jobs.update ex.jobId (ex.failedJob err) }.setTenantStatus
    ex.tenantId .error).setExecution e { ex with awaiting := none }

variable (s : State) (e : ℕ) (ex : Execution)

@[simp] theorem setExecution_executions : (s.setExecution e ex).executions
    = Function.update s.executions e (some ex) := rfl

@[simp] theorem start_jobs : (s.start e ex).jobs
    = s.jobs.update ex.jobId (fun job => { job with status := .running }) := rfl

@[simp] theorem start_tenants : (s.start e ex).tenants
    = (s.setTenantStatus ex.tenantId ex.startedTenantStatus).tenants := rfl

@[simp] theorem start_executions : (s.start e ex).executions
    = Function.update s.executions e (some ex) := rfl

@[simp] theorem complete_jobs : (s.complete e ex).jobs
    = s.jobs.update ex.jobId ex.completedJob := rfl

variable (err : Exception)

@[simp] theorem fail_jobs : (s.fail e ex err).jobs
    = s.jobs.update ex.jobId (ex.failedJob err) := rfl

@[simp] theorem fail_executions : (s.fail e ex err).executions
    = Function.update s.executions e (some { ex with awaiting := none }) := rfl

end State

end MissionControl
