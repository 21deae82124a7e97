import MissionControl.Database

/-!
# Creating jobs and changing their status

The requests that write the tables at once: `createTenantAndBootstrapJob`,
`createTenantDecommissionJob`, the `POST` handler of the provision jobs
(`queueProvisionJob`) and `transitionProvisionJobStatus`. Each answers the
next state or the exception it throws; a body is a JSON value of any shape.
-/

namespace MissionControl

/-! ## Reading a bootstrap request -/

/-- The expression of `isValidSlug`. -/
def slugRe : String := "^[a-z0-9][a-z0-9-]\x7b1,30\x7d[a-z0-9]$"

def isValidSlug (slug : String) : Bool := regExpTest slugRe slug

/-- The expression `createTenantAndBootstrapJob` tests the user name with. -/
def linuxUserRe : String := "^[a-z_][a-z0-9_-]\x7b1,30\x7d$"

def normalizeSlug (rt : Runtime) (input : Option Json) :
    Except Exception String := do
  let slug ← (Json.or input (.str "")).asString
  .ok (rt.toLowerCase (trim slug))

def ensurePort (rt : Runtime) (value : Option Json) :
    Except Exception (Option ℤ) :=
  match value with
  | none => .ok none
  | some .null => .ok none
  | some (.str "") => .ok none
  | value => do
    let n ← Json.toNumber rt value
    match n.integer with
    | none => .error (.error "Port must be an integer between 1024 and 65535")
    | some n =>
      if n < 1024 ∨ 65535 < n then
        .error (.error "Port must be an integer between 1024 and 65535")
      else .ok (some n)

def normalizeOwnerGateway (rt : Runtime) (p : Process) (value : Option Json) :
    Except Exception String := do
  let raw ← (Json.or value (.str "")).toStr rt
  let raw := trim raw
  let fallback := orElse (trim (p.get "MC_DEFAULT_OWNER_GATEWAY"
    (p.get "MC_DEFAULT_GATEWAY_NAME" "primary"))) "primary"
  if raw = "" then .ok fallback
  else if 120 < utf16Length raw then .error (.error "owner_gateway is too long")
  else .ok raw

/-- A bootstrap request that has passed its checks. -/
structure BootstrapRequest where
  slug : String
  displayName : String
  linuxUser : String
  gatewayPort : ℤ
  dashboardPort : Option ℤ
  planTier : String
  config : Json
  dryRun : Bool
  ownerGateway : String

/-- The checks of `createTenantAndBootstrapJob`, in order. -/
def readBootstrapRequest (rt : Runtime) (p : Process) (request : Json) :
    Except Exception BootstrapRequest := do
  if templateOpenclawJsonPath p = "" then
    .error (.error ("Missing OpenClaw template config. Set "
      ++ "MC_SUPER_TEMPLATE_OPENCLAW_JSON to an openclaw.json to seed new "
      ++ "tenants."))
  else
  let slug ← normalizeSlug rt (← Json.get (some request) "slug")
  if !isValidSlug slug then
    .error (.error ("Invalid slug. Use lowercase letters, numbers, and dashes "
      ++ "(3-32 chars)."))
  else
  let displayName ←
    (Json.or (← Json.get (some request) "display_name") (.str "")).asString
  let displayName := trim displayName
  if displayName = "" then .error (.error "display_name is required")
  else
  let linuxUser ← (Json.or (← Json.get (some request) "linux_user")
    (.str ("oc-" ++ slug))).asString
  let linuxUser := rt.toLowerCase (trim linuxUser)
  if !regExpTest linuxUserRe linuxUser then
    .error (.error "Invalid linux_user format")
  else
  let gatewayPort ← ensurePort rt (← Json.get (some request) "gateway_port")
  let dashboardPort ← ensurePort rt (← Json.get (some request) "dashboard_port")
  let planTier ← (Json.or (← Json.get (some request) "plan_tier")
    (.str "standard")).asString
  let planTier := rt.toLowerCase (trim planTier)
  let config := Json.or (← Json.get (some request) "config") (.obj [])
  let dryRun := Json.notFalse (← Json.get (some request) "dry_run")
  let ownerGateway ←
    normalizeOwnerGateway rt p (← Json.get (some request) "owner_gateway")
  match gatewayPort with
  | none => .error (.error "gateway_port is required for tenant bootstrap")
  | some gatewayPort =>
    .ok ⟨slug, displayName, linuxUser, gatewayPort, dashboardPort, planTier,
      config.stored, dryRun, ownerGateway⟩

/-- A number or `null`, as it is stored. -/
def portJson : Option ℤ → Json
  | none => .null
  | some n => .num (.finite n)

/-- `requestPayload` of a tenant creation. -/
def BootstrapRequest.payload (r : BootstrapRequest) : Json :=
  .obj [("slug", .str r.slug), ("display_name", .str r.displayName),
    ("linux_user", .str r.linuxUser), ("gateway_port", portJson r.gatewayPort),
    ("dashboard_port", portJson r.dashboardPort), ("plan_tier", .str r.planTier),
    ("dry_run", .bool r.dryRun), ("config", r.config),
    ("owner_gateway", .str r.ownerGateway)]

def BootstrapRequest.tenant (p : Process) (r : BootstrapRequest)
    (actor : String) : Tenant :=
  { slug := r.slug
    displayName := r.displayName
    linuxUser := r.linuxUser
    planTier := r.planTier
    status := .pending
    openclawHome := joinPosix [getTenantHomeRoot p, r.linuxUser, ".openclaw"]
    workspaceRoot :=
      joinPosix [getTenantHomeRoot p, r.linuxUser, getTenantWorkspaceDirname p]
    gatewayPort := r.gatewayPort
    dashboardPort := r.dashboardPort
    config := r.config
    createdBy := actor
    ownerGateway := r.ownerGateway }

/-- The paths a tenant creation passes to the planner. -/
def bootstrapOptions (p : Process) : BootstrapOptions :=
  ⟨templateOpenclawJsonPath p, gatewaySystemdTemplatePath p⟩

def Tenant.bootstrapPlan (p : Process) (t : Tenant) : List ProvisionStep :=
  buildBootstrapPlan p t.plan (bootstrapOptions p)

def BootstrapRequest.job (p : Process) (r : BootstrapRequest) (tenantId : ℕ)
    (actor : String) : ProvisionJob :=
  .queued tenantId .bootstrap r.dryRun actor r.payload
    (((r.tenant p actor).bootstrapPlan p).map ProvisionStep.toJson)

/-! ## Creating jobs -/

/-- **`createTenantAndBootstrapJob`**: the state, and the ids of the tenant
and of its job. The `UNIQUE` columns refuse a second tenant of the same slug
or user name. -/
def createTenantAndBootstrapJob (rt : Runtime) (p : Process) (s : State)
    (request : Json) (actor : String) : Except Exception (State × ℕ × ℕ) := do
  let r ← readBootstrapRequest rt p request
  if s.tenants.any (fun t => t.slug = r.slug) then
    .error (.error "UNIQUE constraint failed: tenants.slug")
  else if s.tenants.any (fun t => t.linuxUser = r.linuxUser) then
    .error (.error "UNIQUE constraint failed: tenants.linux_user")
  else
    .ok ({ s with
        tenants := s.tenants.insert (r.tenant p actor)
        jobs := s.jobs.insert (r.job p s.tenants.next actor) },
      s.tenants.next, s.jobs.next)

structure DecommissionRequest where
  dryRun : Bool
  options : DecommissionOptions
  reason : String

/-- The reading part of `createTenantDecommissionJob`. -/
def readDecommissionRequest (rt : Runtime) (request : Json) :
    Except Exception DecommissionRequest := do
  let dryRun := Json.notFalse (Json.get? (some request) "dry_run")
  let removeLinuxUser :=
    Json.truthy (Json.get? (some request) "remove_linux_user")
  let removeStateDirs :=
    Json.truthy (Json.get? (some request) "remove_state_dirs")
  let reason ←
    (Json.or (Json.get? (some request) "reason") (.str "")).toStr rt
  .ok ⟨dryRun, ⟨removeLinuxUser, removeStateDirs⟩, trim reason⟩

/-- `requestPayload` of a decommission. -/
def DecommissionRequest.payload (r : DecommissionRequest) (tenantId : ℕ)
    (t : Tenant) : Json :=
  .obj [("tenant_id", .num (.finite tenantId)), ("slug", .str t.slug),
    ("linux_user", .str t.linuxUser), ("dry_run", .bool r.dryRun),
    ("remove_linux_user", .bool r.options.removeLinuxUser),
    ("remove_state_dirs", .bool r.options.removeStateDirs),
    ("reason", if r.reason = "" then .null else .str r.reason)]

def DecommissionRequest.job (r : DecommissionRequest) (tenantId : ℕ)
    (t : Tenant) (actor : String) : ProvisionJob :=
  .queued tenantId .decommission r.dryRun actor (r.payload tenantId t)
    ((buildDecommissionPlan t.plan r.options).map ProvisionStep.toJson)

/-- **`createTenantDecommissionJob`**: the state, and the id of the job. -/
def createTenantDecommissionJob (rt : Runtime) (s : State) (tenantId : ℕ)
    (request : Json) (actor : String) : Except Exception (State × ℕ) :=
  if tenantId = 0 then .error (.error "Invalid tenant id")
  else match s.tenants.row tenantId with
    | none => .error (.error "Tenant not found")
    | some t => do
      let r ← readDecommissionRequest rt request
      .ok ({ s with jobs := s.jobs.insert (r.job tenantId t actor) },
        s.jobs.next)

/-- A body of the `POST` handler that has been read. -/
structure QueueRequest where
  tenantId : ℕ
  dryRun : Bool
  jobType : JobType
  requestJson : Json
  planJson : List Json

/-- The elements of `plan_json`, if it is an array. -/
def planElements : Option Json → List Json
  | some (.arr elements) => elements
  | _ => []

/-- The checks of the `POST` handler that read the body. -/
def readQueueRequest (rt : Runtime) (body : Json) :
    Except Exception QueueRequest := do
  let tenantId ← Json.toNumber rt (← Json.get (some body) "tenant_id")
  let dryRun := Json.notFalse (← Json.get (some body) "dry_run")
  let jobType ← (Json.or (← Json.get (some body) "job_type")
    (.str "bootstrap")).toStr rt
  let planJson ← Json.get (some body) "plan_json"
  let requestJson := Json.or (← Json.get (some body) "request_json") (.obj [])
  match tenantId.integer with
  | none => .error (.error "tenant_id is required")
  | some id =>
    if id ≤ 0 then .error (.error "tenant_id is required")
    else match JobType.ofText jobType with
      | none => .error (.error "Invalid job_type")
      | some jobType =>
        .ok ⟨id.toNat, dryRun, jobType, requestJson.stored,
          (planElements planJson).map Json.stored⟩

/-- The job the `POST` handler stores. -/
def QueueRequest.job (r : QueueRequest) (actor : String) : ProvisionJob :=
  .queued r.tenantId r.jobType r.dryRun actor r.requestJson r.planJson

/-- **The `POST` handler of the provision jobs**: the state, and the id of
the job. -/
def queueProvisionJob (rt : Runtime) (s : State) (body : Json)
    (actor : String) : Except Exception (State × ℕ) := do
  let r ← readQueueRequest rt body
  match s.tenants.row r.tenantId with
  | none => .error (.error "Tenant not found")
  | some _ =>
    .ok ({ s with jobs := s.jobs.insert (r.job actor) }, s.jobs.next)

/-! ## Changing the status of a job -/

def ProvisionJobAction.sources : ProvisionJobAction → List ProvisionJobStatus
  | approve => [.queued, .rejected, .failed]
  | reject => [.queued, .approved, .failed]
  | cancel => [.queued, .approved, .failed, .rejected]

/-- The name of an action in its error message. -/
def ProvisionJobAction.text : ProvisionJobAction → String
  | approve => "approve"
  | reject => "reject"
  | cancel => "cancel"

/-- The `UPDATE` of an action. -/
def ProvisionJobAction.write (action : ProvisionJobAction) (actor : String)
    (job : ProvisionJob) : ProvisionJob :=
  match action with
  | approve =>
    { job with status := .approved, approvedBy := some actor, errorText := none }
  | reject => { job with status := .rejected }
  | cancel => { job with status := .cancelled }

/-- `getProvisionJob`: the row of a job with the row of its tenant, which is
joined. -/
def getProvisionJob (s : State) (jobId : ℕ) : Option (ProvisionJob × Tenant) :=
  (s.jobs.row jobId).bind
    (fun job => (s.tenants.row job.tenantId).map (fun t => (job, t)))

/-- **`transitionProvisionJobStatus`**. -/
def transitionProvisionJobStatus (s : State) (jobId : ℕ) (actor : String)
    (action : ProvisionJobAction) : Except Exception State :=
  match getProvisionJob s jobId with
  | none => .error (.error "Job not found")
  | some (job, _) =>
    if job.status ∈ [.running, .completed, .cancelled] then
      .error (.error ("Job status " ++ job.status.text ++ " is immutable"))
    else if job.status ∉ action.sources then
      .error (.error ("Cannot " ++ action.text ++ " job from status "
        ++ job.status.text))
    else .ok { s with jobs := s.jobs.update jobId (action.write actor) }

end MissionControl
