import MissionControl.Environment

/-!
# The plans of the web server

A plan is a list of steps, each a command with a key, a title and a time
limit. `buildBootstrapPlan` sets a tenant up and `buildDecommissionPlan`
takes it down; both are pure, and what they return is stored as JSON with
the job (`ProvisionStep.toJson`) and read back much later by the executor.
-/

namespace MissionControl

structure ProvisionStep where
  key : String
  title : String
  command : List String
  requiresRoot : Bool
  timeoutMs : ℕ
  deriving DecidableEq

def ProvisionStep.toJson (step : ProvisionStep) : Json :=
  .obj [("key", .str step.key), ("title", .str step.title),
    ("command", .arr (step.command.map .str)),
    ("requires_root", .bool step.requiresRoot),
    ("timeout_ms", .num (.finite step.timeoutMs))]

structure PlanTenant where
  slug : String
  linuxUser : String
  openclawHome : String
  workspaceRoot : String

/-- `opts` of `buildBootstrapPlan`. -/
structure BootstrapOptions where
  templateOpenclawJsonPath : String
  gatewaySystemdTemplatePath : String

/-- `options` of `buildDecommissionPlan`. -/
structure DecommissionOptions where
  removeLinuxUser : Bool
  removeStateDirs : Bool

/-- **`buildBootstrapPlan`**. -/
def buildBootstrapPlan (p : Process) (tenant : PlanTenant)
    (opts : BootstrapOptions) : List ProvisionStep :=
  let user := tenant.linuxUser
  let artifactDir := getProvisionArtifactDir p tenant.slug
  let homeDir := joinPosix [getTenantHomeRoot p, user]
  [{ key := "create-linux-user"
     title := "Create linux user " ++ user
     command := ["/usr/sbin/useradd", "-m", "-s", "/bin/bash", user]
     requiresRoot := true
     timeoutMs := 10000 },
   { key := "create-openclaw-state"
     title := "Create OpenClaw state directory " ++ tenant.openclawHome
     command := ["/usr/bin/install", "-d", "-m", "0750", "-o", user, "-g", user,
       tenant.openclawHome]
     requiresRoot := true
     timeoutMs := 10000 },
   { key := "create-workspace-root"
     title := "Create workspace root " ++ tenant.workspaceRoot
     command := ["/usr/bin/install", "-d", "-m", "0750", "-o", user, "-g", user,
       tenant.workspaceRoot]
     requiresRoot := true
     timeoutMs := 10000 },
   { key := "seed-openclaw-template"
     title := "Seed base OpenClaw config scaffold"
     command := ["/usr/bin/cp", "-n", opts.templateOpenclawJsonPath,
       tenant.openclawHome ++ "/openclaw.json"]
     requiresRoot := true
     timeoutMs := 12000 },
   { key := "set-owner-home"
     title := "Ensure ownership of " ++ homeDir
     command := ["/usr/bin/chown", "-R", user ++ ":" ++ user, homeDir]
     requiresRoot := true
     timeoutMs := 20000 },
   { key := "ensure-openclaw-tenants-dir"
     title := "Ensure /etc/openclaw-tenants exists"
     command := ["/usr/bin/install", "-d", "-m", "0750", "-o", "root", "-g",
       "root", "/etc/openclaw-tenants"]
     requiresRoot := true
     timeoutMs := 5000 },
   { key := "install-gateway-systemd-template"
     title := "Install openclaw-gateway@.service template"
     command := ["/usr/bin/cp", "-n", opts.gatewaySystemdTemplatePath,
       "/etc/systemd/system/openclaw-gateway@.service"]
     requiresRoot := true
     timeoutMs := 5000 },
   { key := "install-tenant-gateway-env"
     title := "Install tenant gateway env file"
     command := ["/usr/bin/cp", "-f", artifactDir ++ "/openclaw-gateway.env",
       "/etc/openclaw-tenants/" ++ user ++ ".env"]
     requiresRoot := true
     timeoutMs := 5000 },
   { key := "systemd-daemon-reload"
     title := "Reload systemd units"
     command := ["/usr/bin/systemctl", "daemon-reload"]
     requiresRoot := true
     timeoutMs := 10000 },
   { key := "enable-start-gateway"
     title := "Enable/start openclaw-gateway@" ++ user ++ ".service"
     command := ["/usr/bin/systemctl", "enable", "--now",
       "openclaw-gateway@" ++ user ++ ".service"]
     requiresRoot := true
     timeoutMs := 5000 }]

/-- **`buildDecommissionPlan`**. The account takes its home with it, so the
directories in it get steps of their own only where the account stays. -/
def buildDecommissionPlan (tenant : PlanTenant) (options : DecommissionOptions) :
    List ProvisionStep :=
  let user := tenant.linuxUser
  [{ key := "disable-stop-gateway"
     title := "Disable/stop openclaw-gateway@" ++ user ++ ".service"
     command := ["/usr/bin/systemctl", "disable", "--now",
       "openclaw-gateway@" ++ user ++ ".service"]
     requiresRoot := true
     timeoutMs := 10000 },
   { key := "remove-tenant-gateway-env"
     title := "Remove /etc/openclaw-tenants/" ++ user ++ ".env"
     command := ["/usr/bin/rm", "-f", "/etc/openclaw-tenants/" ++ user ++ ".env"]
     requiresRoot := true
     timeoutMs := 5000 }]
  ++ (if options.removeStateDirs && !options.removeLinuxUser then
    [{ key := "remove-openclaw-state-dir"
       title := "Remove " ++ tenant.openclawHome
       command := ["/usr/bin/rm", "-rf", tenant.openclawHome]
       requiresRoot := true
       timeoutMs := 10000 },
     { key := "remove-workspace-dir"
       title := "Remove " ++ tenant.workspaceRoot
       command := ["/usr/bin/rm", "-rf", tenant.workspaceRoot]
       requiresRoot := true
       timeoutMs := 10000 }]
    else [])
  ++ (if options.removeLinuxUser then
    [{ key := "remove-linux-user"
       title := "Remove linux user " ++ user
       command := ["/usr/sbin/userdel", "-r", user]
       requiresRoot := true
       timeoutMs := 15000 }]
    else [])

end MissionControl
