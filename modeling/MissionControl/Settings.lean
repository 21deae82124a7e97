import MissionControl.Scheduler
import MissionControl.Sql
import MissionControl.Zod

/-!
# The settings

The settings are texts under keys. `PUT /api/settings` stores whatever value it is given
as a text, `GET` shows the stored text of a setting, or its default, and the scheduler
reads the number that a text begins with: a text that begins with none, or with zero, is
as good as no setting, and one that begins with a negative number is taken as it is. No key is
checked for what it means: what the cleanup keeps is a matter of the environment
(`RetentionConfig`), whatever is stored under the keys that seem to say so.
-/

namespace MissionControl

/-! ## Definitions -/

/-- `config.retention`, in days. -/
structure RetentionConfig where
  activities : JsNumber
  auditLog : JsNumber
  logs : JsNumber
  notifications : JsNumber
  pipelineRuns : JsNumber
  tokenUsage : JsNumber

/-- **What is around the settings**: the runtime, the database, and the part of the
configuration that the defaults are taken from. -/
structure SettingsSite where
  rt : Runtime
  sq : Sqlite
  retention : RetentionConfig
  gatewayHost : String
  gatewayPort : JsNumber

structure SettingDefinition where
  category : String
  description : String
  default : String

def settingDefinitions (site : SettingsSite) : List (String × SettingDefinition) :=
  let text := site.rt.numberToString
  [("retention.activities_days",
      ⟨"retention", "Days to keep activity records", text site.retention.activities⟩),
    ("retention.audit_log_days",
      ⟨"retention", "Days to keep audit log entries", text site.retention.auditLog⟩),
    ("retention.logs_days",
      ⟨"retention", "Days to keep log files", text site.retention.logs⟩),
    ("retention.notifications_days",
      ⟨"retention", "Days to keep notifications", text site.retention.notifications⟩),
    ("retention.pipeline_runs_days",
      ⟨"retention", "Days to keep pipeline run history", text site.retention.pipelineRuns⟩),
    ("retention.token_usage_days",
      ⟨"retention", "Days to keep token usage data", text site.retention.tokenUsage⟩),
    ("gateway.host", ⟨"gateway", "Gateway hostname", site.gatewayHost⟩),
    ("gateway.port", ⟨"gateway", "Gateway port number", text site.gatewayPort⟩),
    ("general.site_name",
      ⟨"general", "JAIS Command Ops display name", "JAIS Command Ops"⟩),
    ("general.auto_cleanup", ⟨"general", "Enable automatic data cleanup", "false"⟩),
    ("general.auto_backup", ⟨"general", "Enable automatic daily backups", "false"⟩),
    ("general.backup_retention_count",
      ⟨"general", "Number of backup files to keep", "10"⟩)]

/-! ## Reading -/

/-- `GET /api/settings`: the value that is shown for a key. A stored setting that is not
defined is shown too, unless its key is a property that every object inherits. -/
def shownSetting (site : SettingsSite) (settings : Settings) (key : String) :
    Option String :=
  match (settingDefinitions site).lookup key with
  | some definition => some ((settings key).getD definition.default)
  | none => if key ∈ objectPrototype then none else settings key

def getSettingNumber (settings : Settings) (key : String) (defaultValue : ℤ) : ℤ :=
  match (settings key).bind parseInt with
  | some n => if n = 0 then defaultValue else n
  | none => defaultValue

/-! ## Writing -/

def Settings.set (settings : Settings) (key value : String) : Settings :=
  Function.update settings key (some value)

/-- `updateSettingsSchema`, to its record of settings. -/
def updateSettingsSchema : Reader (List (String × Json)) :=
  .object (Reader.record.field "settings")

/-- The transaction of `PUT /api/settings`: every value is stored as a text, or none is. -/
def storeSettings (rt : Runtime) (settings : Settings) :
    List (String × Json) → Except Exception Settings
  | [] => .ok settings
  | (key, value) :: rest => do
    let strValue ← value.toStr rt
    storeSettings rt (settings.set key strValue) rest

inductive SettingsResponse where
  | updated (keys : List String)
  | reset (key : Json) (default : Option String)
  | issues (issues : List Issue)
  | error (status : ℕ) (text : String)
  /-- An error that is not caught: the framework answers with status 500. -/
  | thrown (e : Exception)

/-- **`PUT /api/settings`.** -/
def putSettings (site : SettingsSite) (settings : Settings) (body : Json) :
    SettingsResponse × Settings :=
  match updateSettingsSchema.read body with
  | .error issues => (.issues issues, settings)
  | .ok fields =>
    match storeSettings site.rt settings fields with
    | .ok settings' => (.updated (fields.map Prod.fst), settings')
    | .error e => (.thrown e, settings)

/-- The key that `WHERE key = ?` compares with. -/
def settingKey (sq : Sqlite) (key : Option Json) : Except Exception (Option String) := do
  match ← SqlValue.bindAll 1 [key] with
  | [v] => .ok (match v.asText sq with
    | .text s => some s
    | _ => none)
  | _ => .ok none

/-- **`DELETE /api/settings`.** -/
def deleteSetting (site : SettingsSite) (settings : Settings) (body : Json) :
    SettingsResponse × Settings :=
  match Json.get (some body) "key" with
  | .error e => (.thrown e, settings)
  | .ok key =>
    if Json.truthy key then
      match settingKey site.sq key with
      | .error e => (.thrown e, settings)
      | .ok found =>
        match found.bind fun k => (settings k).map fun _ => k with
        | none => (.error 404 "Setting not found or already at default", settings)
        | some k =>
          (.reset (key.getD .null)
              (((settingDefinitions site).lookup k).map SettingDefinition.default),
            Function.update settings k none)
    else (.error 400 "key parameter required", settings)

end MissionControl
