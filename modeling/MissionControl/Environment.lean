import MissionControl.Js

/-!
# The environment of the two processes

Mission Control runs as two processes that never share memory: the web
server, which plans and executes provisioning jobs, and the provisioner
daemon, which runs as root. Each reads its configuration from its own
environment, with its own code. The functions below are the ones of the web
server (`super-admin.ts`, `config.ts`) under their names there; the
constants of the daemon are the fields of `Daemon`, filled in by
`Daemon.ofProcess`.
-/

namespace MissionControl

/-- A process: its environment variables, and the directory it falls back
to – `process.cwd()` in the web server, `path.resolve(__dirname, '..')` in
the daemon. -/
structure Process where
  /-- `process.env`. -/
  env : String → Option String
  base : String

/-- `process.env.KEY || fallback`. -/
def Process.get (p : Process) (key fallback : String) : String :=
  orElse ((p.env key).getD "") fallback

/-- `String(process.env.MC_TENANT_HOME_ROOT || '/home').trim() || '/home'`. -/
def getTenantHomeRoot (p : Process) : String :=
  orElse (trim (p.get "MC_TENANT_HOME_ROOT" "/home")) "/home"

/-- `String(process.env.MC_TENANT_WORKSPACE_DIRNAME || 'workspace').trim()`,
or `workspace` if nothing is left. -/
def getTenantWorkspaceDirname (p : Process) : String :=
  orElse (trim (p.get "MC_TENANT_WORKSPACE_DIRNAME" "workspace")) "workspace"

/-- `joinPosix`, and `pathJoinPosix` in the daemon: the parts without the
slashes at their ends, joined. -/
def joinPosix (parts : List String) : String :=
  String.ofList (Posix.join (parts.map (fun p => Posix.stripSlashes p.toList)))

/-! ## The web server -/

/-- `config.dataDir`. -/
def dataDir (p : Process) : String :=
  p.get "MISSION_CONTROL_DATA_DIR" (pathJoin [p.base, ".data"])

/-- The path of the `openclaw.json` that seeds new tenants, before it is
trimmed; empty if none is configured. -/
def templateOpenclawJson (p : Process) : String :=
  p.get "MC_SUPER_TEMPLATE_OPENCLAW_JSON"
    (let home := p.get "OPENCLAW_HOME" ""
      if home = "" then "" else pathJoin [home, "openclaw.json"])

/-- `templateOpenclawJsonPath` of a tenant creation. -/
def templateOpenclawJsonPath (p : Process) : String :=
  trim (templateOpenclawJson p)

/-- `repoRoot` of a tenant creation. -/
def repoRoot (p : Process) : String :=
  orElse (trim (p.get "MISSION_CONTROL_REPO_ROOT" p.base)) p.base

/-- `gatewaySystemdTemplatePath` of a tenant creation. -/
def gatewaySystemdTemplatePath (p : Process) : String :=
  pathJoin [repoRoot p, "ops", "templates", "openclaw-gateway@.service"]

/-- `getProvisionArtifactDir`, the directory of a tenant's artifacts. -/
def getProvisionArtifactDir (p : Process) (slug : String) : String :=
  pathJoin [dataDir p, "provisioner", slug]

/-- `provisionMode`: which transport runs the steps that need root. -/
def provisionMode (rt : Runtime) (p : Process) : String :=
  rt.toLowerCase (p.get "MC_SUPER_PROVISION_MODE" "daemon")

/-- `allowExec`: whether live jobs may run at all. -/
def allowExec (rt : Runtime) (p : Process) : Bool :=
  rt.toLowerCase (p.get "MC_SUPER_PROVISION_EXEC" "") = "true"

/-- The token the web server presents to the daemon. -/
def provisionerToken (p : Process) : String := p.get "MC_PROVISIONER_TOKEN" ""

/-! ## The provisioner daemon -/

/-- **The constants of the daemon.** -/
structure Daemon where
  /-- `TOKEN`. -/
  token : String
  /-- `REPO_ROOT`. -/
  repoRoot : String
  /-- `DATA_DIR`. -/
  dataDir : String
  /-- `TENANT_HOME_ROOT`. -/
  tenantHomeRoot : String
  /-- `TENANT_WORKSPACE_DIRNAME`. -/
  tenantWorkspaceDirname : String
  /-- `TEMPLATE_OPENCLAW_JSON`. -/
  templateOpenclawJson : String

def Daemon.gatewaySystemdTemplate (d : Daemon) : String :=
  pathJoin [d.repoRoot, "ops", "templates", "openclaw-gateway@.service"]

/-- The daemon that starts in a given environment. -/
def Daemon.ofProcess (p : Process) : Daemon :=
  let root := p.get "MISSION_CONTROL_REPO_ROOT" p.base
  { token := p.get "MC_PROVISIONER_TOKEN" ""
    repoRoot := root
    dataDir := p.get "MISSION_CONTROL_DATA_DIR" (pathJoin [root, ".data"])
    tenantHomeRoot := getTenantHomeRoot p
    tenantWorkspaceDirname := getTenantWorkspaceDirname p
    templateOpenclawJson := MissionControl.templateOpenclawJson p }

/-- An environment for concrete runs: the defaults, with a token, a template
and live provisioning switched on. -/
def sampleProcess : Process where
  env key := List.lookup key
    [("MC_PROVISIONER_TOKEN", "token"),
      ("MC_SUPER_TEMPLATE_OPENCLAW_JSON", "/opt/openclaw/openclaw.json"),
      ("MC_SUPER_PROVISION_EXEC", "true")]
  base := "/opt/mission-control"

/-- The daemon of that environment. -/
def sampleDaemon : Daemon := Daemon.ofProcess sampleProcess

end MissionControl
