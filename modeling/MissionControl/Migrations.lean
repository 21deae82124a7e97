import MissionControl.Sql
import MissionControl.Library.Transaction

/-!
# The migrations of the database

`runMigrations` applies the migrations that `schema_migrations` does not name, in the
order of the list. Each one runs in a transaction, which also names it; so the database
holds what a migration does exactly if it names the migration, whenever a call is cut
off (`migrations_crash_safe`).

Two facts carry this. No migration of the list writes into `schema_migrations`
(`spares_migrations`), so the record says nothing but what `runMigrations` itself has
written; and a transaction keeps its copy apart until it is committed, so there is no
state in which a migration has taken effect and is not named. The invariant (`Recorded`)
is of the durable database alone. Where a call stands is a case of `CallAt`, and a call
that is cut off just leaves that case: the next one reads the record again.
-/

namespace MissionControl

/-! ## The database -/

abbrev DbRow := String → SqlValue

/-- A table, with the names of its columns. -/
structure DbTable where
  columns : List String
  rows : List DbRow

/-- **A database**: its tables and the names of its indexes. -/
structure SchemaDb where
  tables : String → Option DbTable
  indexes : List String

namespace SchemaDb

def empty : SchemaDb := ⟨fun _ => none, []⟩

/-- `PRAGMA table_info`: whether a table has a column. -/
def hasColumn (db : SchemaDb) (table column : String) : Bool :=
  (db.tables table).any fun t => column ∈ t.columns

def setTable (db : SchemaDb) (table : String) (t : DbTable) : SchemaDb :=
  { db with tables := Function.update db.tables table (some t) }

/-- `SELECT id FROM schema_migrations`. -/
def migrationIds (db : SchemaDb) : List SqlValue :=
  ((db.tables "schema_migrations").map fun t => t.rows.map (· "id")).getD []

end SchemaDb

/-- A statement of a migration. Tables and indexes are created `IF NOT EXISTS`. -/
inductive Statement where
  | createTable (table : String) (columns : List String)
  | createIndex (unique : Bool) (index table : String) (columns : List String)
  /-- `ALTER TABLE … ADD COLUMN`, with the value for the rows that are there. -/
  | addColumn (table column : String) (value : SqlValue)
  /-- `UPDATE`, with the columns that it names. -/
  | update (table : String) (columns : List String) (set : SchemaDb → DbRow → DbRow)
  /-- `INSERT OR IGNORE INTO schema_migrations (id)`. -/
  | record (id : String)

/-- What is thrown where a statement names what is not there. -/
def missing (t : Option DbTable) (table : String) (columns : List String) :
    Except Exception DbTable :=
  match t with
  | none => .error (.error ("no such table: " ++ table))
  | some t =>
    match columns.find? (· ∉ t.columns) with
    | some column => .error (.error ("no such column: " ++ column))
    | none => .ok t

/-- **What a statement does.** -/
def Statement.run (statement : Statement) (now : ℕ) (db : SchemaDb) :
    Except Exception SchemaDb :=
  match statement with
  | createTable table columns =>
    match db.tables table with
    | some _ => .ok db
    | none => .ok (db.setTable table ⟨columns, []⟩)
  | createIndex unique index table columns =>
    if index ∈ db.indexes then .ok db
    else do
      let t ← missing (db.tables table) table columns
      if unique ∧ ¬ (t.rows.map fun row => columns.map row).Nodup then
        .error (.error ("UNIQUE constraint failed: " ++ table))
      else .ok { db with indexes := db.indexes ++ [index] }
  | addColumn table column value => do
    let t ← missing (db.tables table) table []
    if column ∈ t.columns then .error (.error ("duplicate column name: " ++ column))
    else
      .ok (db.setTable table
        ⟨t.columns ++ [column], t.rows.map fun row => Function.update row column value⟩)
  | update table columns set => do
    let t ← missing (db.tables table) table columns
    .ok (db.setTable table { t with rows := t.rows.map (set db) })
  | record id => do
    let t ← missing (db.tables "schema_migrations") "schema_migrations" ["id"]
    if t.rows.any fun row => row "id" = .text id then .ok db
    else
      .ok (db.setTable "schema_migrations"
        { t with
          rows := t.rows ++ [Function.update (Function.update (fun _ => .null) "applied_at"
            (.ofTime now)) "id" (.text id)] })

/-! ## The migrations -/

abbrev MigrationScript := Script Statement SchemaDb String

/-- **What is around the migrations**: the environment, and how the database orders the
gateways. -/
structure MigrationSite where
  env : String → Option String
  /-- `SELECT … FROM gateways ORDER BY is_primary DESC, id ASC LIMIT 1`. -/
  firstGateway : List DbRow → Option DbRow

structure Migration where
  id : String
  up : MigrationSite → MigrationScript → MigrationScript

def Migration.ofStatements (id : String) (statements : List Statement) : Migration :=
  ⟨id, fun _ => Script.execAll statements⟩

def createIndex (index table : String) (columns : List String) : Statement :=
  .createIndex false index table columns

/-- The statements of `schema.sql`. -/
def schemaStatements : List Statement :=
  [.createTable "tasks" ["id", "title", "description", "status", "priority", "assigned_to",
      "created_by", "created_at", "updated_at", "due_date", "estimated_hours",
      "actual_hours", "tags", "metadata"],
    .createTable "agents" ["id", "name", "role", "session_key", "soul_content", "status",
      "last_seen", "last_activity", "created_at", "updated_at", "config"],
    .createTable "comments" ["id", "task_id", "author", "content", "created_at",
      "parent_id", "mentions"],
    .createTable "activities" ["id", "type", "entity_type", "entity_id", "actor",
      "description", "data", "created_at"],
    .createTable "notifications" ["id", "recipient", "type", "title", "message",
      "source_type", "source_id", "read_at", "delivered_at", "created_at"],
    .createTable "task_subscriptions" ["id", "task_id", "agent_name", "created_at"],
    .createTable "standup_reports" ["date", "report", "created_at"],
    .createTable "quality_reviews" ["id", "task_id", "reviewer", "status", "notes",
      "created_at"],
    createIndex "idx_tasks_status" "tasks" ["status"],
    createIndex "idx_tasks_assigned_to" "tasks" ["assigned_to"],
    createIndex "idx_tasks_created_at" "tasks" ["created_at"],
    createIndex "idx_comments_task_id" "comments" ["task_id"],
    createIndex "idx_comments_created_at" "comments" ["created_at"],
    createIndex "idx_activities_created_at" "activities" ["created_at"],
    createIndex "idx_activities_type" "activities" ["type"],
    createIndex "idx_notifications_recipient" "notifications" ["recipient"],
    createIndex "idx_notifications_created_at" "notifications" ["created_at"],
    createIndex "idx_agents_session_key" "agents" ["session_key"],
    createIndex "idx_agents_status" "agents" ["status"],
    createIndex "idx_task_subscriptions_task_id" "task_subscriptions" ["task_id"],
    createIndex "idx_task_subscriptions_agent_name" "task_subscriptions" ["agent_name"],
    createIndex "idx_standup_reports_created_at" "standup_reports" ["created_at"],
    createIndex "idx_quality_reviews_task_id" "quality_reviews" ["task_id"],
    createIndex "idx_quality_reviews_reviewer" "quality_reviews" ["reviewer"]]

/-- The default name of `013_tenant_owner_gateway`. -/
def defaultGatewayName (site : MigrationSite) : String :=
  orElse
    (trim (orElse ((site.env "MC_DEFAULT_OWNER_GATEWAY").getD "")
      (orElse ((site.env "MC_DEFAULT_GATEWAY_NAME").getD "") "primary")))
    "primary"

/-- `owner_gateway IS NULL OR trim(owner_gateway) = ''`. -/
def isBlank : SqlValue → Bool
  | .null => true
  | .text s => s.toList.all (· = ' ')
  | .number _ => false

/-- `COALESCE(v, fallback)`. -/
def coalesce (v fallback : SqlValue) : SqlValue := if v = .null then fallback else v

/-- The owner of a tenant that has none. -/
def setOwnerGateway (site : MigrationSite) (hasGateways : Bool) (db : SchemaDb) (row : DbRow) :
    DbRow :=
  if isBlank (row "owner_gateway") then
    Function.update row "owner_gateway"
      (if hasGateways then
        coalesce (((db.tables "gateways").bind fun t => (site.firstGateway t.rows).map
          (· "name")).getD .null) (.text (defaultGatewayName site))
      else .text (defaultGatewayName site))
  else row

/-- `013_tenant_owner_gateway`. -/
def tenantOwnerGateway (site : MigrationSite) (rest : MigrationScript) : MigrationScript :=
  .query fun db =>
    if (db.tables "tenants").isNone then rest
    else
      .query fun db =>
        Script.execAll
          (if db.hasColumn "tenants" "owner_gateway" then []
          else [.addColumn "tenants" "owner_gateway" .null])
          (.query fun db =>
            Script.execAll
              [.update "tenants" ["owner_gateway"]
                (setOwnerGateway site (db.tables "gateways").isSome),
                createIndex "idx_tenants_owner_gateway" "tenants" ["owner_gateway"]]
              rest)

/-- The columns that a table does not have are added. -/
def addMissing (db : SchemaDb) (table : String) (columns : List (String × SqlValue)) :
    List Statement :=
  (columns.filter fun (column, _) => !db.hasColumn table column).map
    fun (column, value) => .addColumn table column value

/-- `014_auth_google_approvals`. -/
def authGoogleApprovals (_ : MigrationSite) (rest : MigrationScript) : MigrationScript :=
  .query fun db =>
    Script.execAll (addMissing db "users"
      [("provider", .text "local"), ("provider_user_id", .null), ("email", .null),
        ("avatar_url", .null), ("is_approved", .number (.finite 1)), ("approved_by", .null),
        ("approved_at", .null)])
      (Script.execAll
        [.update "users" ["provider", "is_approved"] (fun _ row =>
            Function.update (Function.update row "provider"
                (if row "provider" = .text "" then .text "local"
                else coalesce (row "provider") (.text "local")))
              "is_approved" (coalesce (row "is_approved") (.number (.finite 1)))),
          .createTable "access_requests" ["id", "provider", "email", "provider_user_id",
            "display_name", "avatar_url", "status", "requested_at", "last_attempt_at",
            "attempt_count", "reviewed_by", "reviewed_at", "review_note",
            "approved_user_id"],
          .createIndex true "idx_access_requests_email_provider" "access_requests"
            ["email", "provider"],
          createIndex "idx_access_requests_status" "access_requests" ["status"],
          createIndex "idx_users_provider" "users" ["provider"],
          createIndex "idx_users_email" "users" ["email"]]
        rest)

/-- `019_webhook_retry`. -/
def webhookRetry (_ : MigrationSite) (rest : MigrationScript) : MigrationScript :=
  .query fun db =>
    Script.execAll (addMissing db "webhook_deliveries"
      [("attempt", .number (.finite 0)), ("next_retry_at", .null),
        ("is_retry", .number (.finite 0)), ("parent_delivery_id", .null)])
      (.query fun db =>
        Script.execAll (addMissing db "webhooks"
          [("consecutive_failures", .number (.finite 0))])
          (Script.execAll
            [createIndex "idx_webhook_deliveries_retry" "webhook_deliveries"
              ["next_retry_at"]]
            rest))

/-- **The migrations.** -/
def migrations : List Migration :=
  [⟨"001_init", fun _ => Script.transaction none (Script.execAll schemaStatements)⟩,
    .ofStatements "002_quality_reviews"
      [.createTable "quality_reviews" ["id", "task_id", "reviewer", "status", "notes",
          "created_at"],
        createIndex "idx_quality_reviews_task_id" "quality_reviews" ["task_id"],
        createIndex "idx_quality_reviews_reviewer" "quality_reviews" ["reviewer"]],
    .ofStatements "003_quality_review_status_backfill"
      [.update "tasks" ["status"] fun _ row =>
        if row "status" = .text "review" then
          Function.update row "status" (.text "quality_review")
        else row],
    .ofStatements "004_messages"
      [.createTable "messages" ["id", "conversation_id", "from_agent", "to_agent", "content",
          "message_type", "metadata", "read_at", "created_at"],
        createIndex "idx_messages_conversation" "messages" ["conversation_id", "created_at"],
        createIndex "idx_messages_agents" "messages" ["from_agent", "to_agent"]],
    .ofStatements "005_users"
      [.createTable "users" ["id", "username", "display_name", "password_hash", "role",
          "created_at", "updated_at", "last_login_at"],
        .createTable "user_sessions" ["id", "token", "user_id", "expires_at", "created_at",
          "ip_address", "user_agent"],
        createIndex "idx_users_username" "users" ["username"],
        createIndex "idx_user_sessions_token" "user_sessions" ["token"],
        createIndex "idx_user_sessions_user_id" "user_sessions" ["user_id"],
        createIndex "idx_user_sessions_expires_at" "user_sessions" ["expires_at"]],
    .ofStatements "006_workflow_templates"
      [.createTable "workflow_templates" ["id", "name", "description", "model", "task_prompt",
          "timeout_seconds", "agent_role", "tags", "created_by", "created_at", "updated_at",
          "last_used_at", "use_count"],
        createIndex "idx_workflow_templates_name" "workflow_templates" ["name"],
        createIndex "idx_workflow_templates_created_by" "workflow_templates"
          ["created_by"]],
    .ofStatements "007_audit_log"
      [.createTable "audit_log" ["id", "action", "actor", "actor_id", "target_type",
          "target_id", "detail", "ip_address", "user_agent", "created_at"],
        createIndex "idx_audit_log_action" "audit_log" ["action"],
        createIndex "idx_audit_log_actor" "audit_log" ["actor"],
        createIndex "idx_audit_log_created_at" "audit_log" ["created_at"]],
    .ofStatements "008_webhooks"
      [.createTable "webhooks" ["id", "name", "url", "secret", "events", "enabled",
          "last_fired_at", "last_status", "created_by", "created_at", "updated_at"],
        .createTable "webhook_deliveries" ["id", "webhook_id", "event_type", "payload",
          "status_code", "response_body", "error", "duration_ms", "created_at"],
        createIndex "idx_webhook_deliveries_webhook_id" "webhook_deliveries" ["webhook_id"],
        createIndex "idx_webhook_deliveries_created_at" "webhook_deliveries" ["created_at"],
        createIndex "idx_webhooks_enabled" "webhooks" ["enabled"]],
    .ofStatements "009_pipelines"
      [.createTable "workflow_pipelines" ["id", "name", "description", "steps", "created_by",
          "created_at", "updated_at", "use_count", "last_used_at"],
        .createTable "pipeline_runs" ["id", "pipeline_id", "status", "current_step",
          "steps_snapshot", "started_at", "completed_at", "triggered_by", "created_at"],
        createIndex "idx_pipeline_runs_pipeline_id" "pipeline_runs" ["pipeline_id"],
        createIndex "idx_pipeline_runs_status" "pipeline_runs" ["status"],
        createIndex "idx_workflow_pipelines_name" "workflow_pipelines" ["name"]],
    .ofStatements "010_settings"
      [.createTable "settings" ["key", "value", "description", "category", "updated_by",
          "updated_at"],
        createIndex "idx_settings_category" "settings" ["category"]],
    .ofStatements "011_alert_rules"
      [.createTable "alert_rules" ["id", "name", "description", "enabled", "entity_type",
          "condition_field", "condition_operator", "condition_value", "action_type",
          "action_config", "cooldown_minutes", "last_triggered_at", "trigger_count",
          "created_by", "created_at", "updated_at"],
        createIndex "idx_alert_rules_enabled" "alert_rules" ["enabled"],
        createIndex "idx_alert_rules_entity_type" "alert_rules" ["entity_type"]],
    .ofStatements "012_super_admin_tenants"
      [.createTable "tenants" ["id", "slug", "display_name", "linux_user", "plan_tier",
          "status", "openclaw_home", "workspace_root", "gateway_port", "dashboard_port",
          "config", "created_by", "created_at", "updated_at"],
        .createTable "provision_jobs" ["id", "tenant_id", "job_type", "status", "dry_run",
          "requested_by", "approved_by", "runner_host", "idempotency_key", "request_json",
          "plan_json", "result_json", "error_text", "started_at", "completed_at",
          "created_at", "updated_at"],
        .createTable "provision_events" ["id", "job_id", "level", "step_key", "message",
          "data", "created_at"],
        createIndex "idx_tenants_slug" "tenants" ["slug"],
        createIndex "idx_tenants_status" "tenants" ["status"],
        createIndex "idx_provision_jobs_tenant_id" "provision_jobs" ["tenant_id"],
        createIndex "idx_provision_jobs_status" "provision_jobs" ["status"],
        createIndex "idx_provision_jobs_created_at" "provision_jobs" ["created_at"],
        createIndex "idx_provision_events_job_id" "provision_events" ["job_id"],
        createIndex "idx_provision_events_created_at" "provision_events" ["created_at"]],
    ⟨"013_tenant_owner_gateway", tenantOwnerGateway⟩,
    ⟨"014_auth_google_approvals", authGoogleApprovals⟩,
    .ofStatements "015_missing_indexes"
      [createIndex "idx_notifications_read_at" "notifications" ["read_at"],
        createIndex "idx_notifications_recipient_read" "notifications"
          ["recipient", "read_at"],
        createIndex "idx_activities_actor" "activities" ["actor"],
        createIndex "idx_activities_entity" "activities" ["entity_type", "entity_id"],
        createIndex "idx_messages_read_at" "messages" ["read_at"]],
    .ofStatements "016_direct_connections"
      [.createTable "direct_connections" ["id", "agent_id", "tool_name", "tool_version",
          "connection_id", "status", "last_heartbeat", "metadata", "created_at",
          "updated_at"],
        createIndex "idx_direct_connections_agent_id" "direct_connections" ["agent_id"],
        createIndex "idx_direct_connections_connection_id" "direct_connections"
          ["connection_id"],
        createIndex "idx_direct_connections_status" "direct_connections" ["status"]],
    .ofStatements "017_github_sync"
      [.createTable "github_syncs" ["id", "repo", "last_synced_at", "issue_count",
          "sync_direction", "status", "error", "created_at"],
        createIndex "idx_github_syncs_repo" "github_syncs" ["repo"],
        createIndex "idx_github_syncs_created_at" "github_syncs" ["created_at"]],
    .ofStatements "018_token_usage"
      [.createTable "token_usage" ["id", "model", "session_id", "input_tokens",
          "output_tokens", "created_at"],
        createIndex "idx_token_usage_session_id" "token_usage" ["session_id"],
        createIndex "idx_token_usage_created_at" "token_usage" ["created_at"],
        createIndex "idx_token_usage_model" "token_usage" ["model"]],
    ⟨"019_webhook_retry", webhookRetry⟩,
    .ofStatements "020_claude_sessions"
      [.createTable "claude_sessions" ["id", "session_id", "project_slug", "project_path",
          "model", "git_branch", "user_messages", "assistant_messages", "tool_uses",
          "input_tokens", "output_tokens", "estimated_cost", "first_message_at",
          "last_message_at", "last_user_prompt", "is_active", "scanned_at", "created_at",
          "updated_at"],
        createIndex "idx_claude_sessions_active" "claude_sessions" ["is_active"],
        createIndex "idx_claude_sessions_project" "claude_sessions" ["project_slug"]]]

/-! ## Running them -/

/-- The loop of `runMigrations`. -/
def migrateAll (site : MigrationSite) (applied : List SqlValue) :
    List Migration → MigrationScript
  | [] => .done
  | m :: ms =>
    if .text m.id ∈ applied then migrateAll site applied ms
    else
      Script.transaction (some m.id) (fun rest => m.up site (.exec (.record m.id) rest))
        (migrateAll site applied ms)

/-- **`runMigrations`**, of a list of migrations. -/
def runMigrations (site : MigrationSite) (ms : List Migration) : MigrationScript :=
  .exec (.createTable "schema_migrations" ["id", "applied_at"])
    (.query fun db => migrateAll site db.migrationIds ms)

/-- Calls of `runMigrations`, each of which may be cut off. -/
def migrationCalls (site : MigrationSite) (ms : List Migration) :
    Machine (Session Statement SchemaDb String) Session.Action (Session.Event String) :=
  Session.calls Statement.run (runMigrations site ms)

/-! ## The record of the migrations -/

/-- A statement leaves `schema_migrations` alone. -/
def Statement.spares : Statement → Bool
  | createTable table _ => table ≠ "schema_migrations"
  | createIndex _ _ _ _ => true
  | addColumn table _ _ => table ≠ "schema_migrations"
  | update table _ _ => table ≠ "schema_migrations"
  | record _ => false

def SchemaDb.record (db : SchemaDb) : Option DbTable := db.tables "schema_migrations"

theorem record_setTable {db : SchemaDb} {table : String} (h : table ≠ "schema_migrations")
    (t : DbTable) : (db.setTable table t).record = db.record := Function.update_of_ne h.symm _ _

/-- **A statement that spares the record** leaves it alone. -/
theorem record_run {statement : Statement} {now : ℕ} {db db' : SchemaDb}
    (hspares : statement.spares = true) (h : statement.run now db = .ok db') :
    db'.record = db.record := by
  cases statement with
  | createTable table columns =>
    rw [Statement.run] at h
    split at h
    · obtain rfl := Except.ok.inj h
      rfl
    · obtain rfl := Except.ok.inj h
      exact record_setTable (of_decide_eq_true hspares) _
  | createIndex unique index table columns =>
    rw [Statement.run] at h
    split at h
    · obtain rfl := Except.ok.inj h
      rfl
    · obtain ⟨t, -, hdb⟩ := bind_eq_ok.mp h
      split at hdb
      · exact nomatch hdb
      · obtain rfl := Except.ok.inj hdb
        rfl
  | addColumn table column value =>
    obtain ⟨t, -, hdb⟩ := bind_eq_ok.mp h
    split at hdb
    · exact nomatch hdb
    · obtain rfl := Except.ok.inj hdb
      exact record_setTable (of_decide_eq_true hspares) _
  | update table columns set =>
    obtain ⟨t, -, hdb⟩ := bind_eq_ok.mp h
    obtain rfl := Except.ok.inj hdb
    exact record_setTable (of_decide_eq_true hspares) _
  | record id => exact absurd hspares Bool.false_ne_true

theorem migrationIds_congr {db db' : SchemaDb} (h : db'.record = db.record) :
    db'.migrationIds = db.migrationIds := by
  unfold SchemaDb.migrationIds
  rw [show db'.tables "schema_migrations" = db.tables "schema_migrations" from h]

/-- **A new id is recorded** behind the others. -/
theorem migrationIds_record {id : String} {now : ℕ} {db db' : SchemaDb}
    (hnew : SqlValue.text id ∉ db.migrationIds)
    (h : (Statement.record id).run now db = .ok db') :
    db'.migrationIds = db.migrationIds ++ [.text id] ∧ db'.record.isSome := by
  obtain ⟨t, hmissing, hdb⟩ := bind_eq_ok.mp h
  have htable : db.tables "schema_migrations" = some t := by
    unfold missing at hmissing
    split at hmissing
    · exact nomatch hmissing
    · next t' ht =>
      split at hmissing
      · exact nomatch hmissing
      · rw [ht, Except.ok.inj hmissing]
  have hids : db.migrationIds = t.rows.map (· "id") := by
    unfold SchemaDb.migrationIds
    rw [htable]
    rfl
  split at hdb
  · next hany =>
    obtain ⟨row, hrow, hid⟩ := List.any_eq_true.mp hany
    refine absurd ?_ hnew
    rw [hids]
    exact List.mem_map.mpr ⟨row, hrow, of_decide_eq_true hid⟩
  · obtain rfl := Except.ok.inj hdb
    have hself : ∀ t' : DbTable, (db.setTable "schema_migrations" t').tables
        "schema_migrations" = some t' := fun t' =>
      @Function.update_self String (fun _ => Option DbTable) _ "schema_migrations" (some t')
        db.tables
    refine ⟨?_, ?_⟩
    · rw [hids, SchemaDb.migrationIds, hself, Option.map_some, Option.getD_some, List.map_append,
        List.map_singleton, Function.update_self]
    · rw [SchemaDb.record, hself]
      rfl

/-- **A migration spares the record**: on the way to what comes behind it. -/
def Migration.Spares (m : Migration) : Prop :=
  ∀ site rest, Script.LeadsTo (fun statement => Statement.spares statement = true) rest 0
    (m.up site rest)

theorem spares_ofStatements {id : String} {statements : List Statement}
    (h : ∀ statement ∈ statements, statement.spares = true) :
    (Migration.ofStatements id statements).Spares := fun _ _ => .execAll h .here

theorem spares_addMissing {db : SchemaDb} {table : String}
    (h : table ≠ "schema_migrations") (columns : List (String × SqlValue)) :
    ∀ statement ∈ addMissing db table columns, statement.spares = true := by
  intro statement hmem
  obtain ⟨column, -, rfl⟩ := List.mem_map.mp hmem
  exact decide_eq_true h

theorem spares_tenantOwnerGateway (site : MigrationSite) (rest : MigrationScript) :
    Script.LeadsTo (fun statement => Statement.spares statement = true) rest 0
      (tenantOwnerGateway site rest) := by
  refine .query fun db => ?_
  split
  · exact .here
  · refine .query fun db => .execAll (fun statement hmem => ?_) (.query fun db => ?_)
    · split at hmem
      · exact absurd hmem List.not_mem_nil
      · rw [List.mem_singleton.mp hmem]
        rfl
    · refine .execAll (fun statement hmem => ?_) .here
      rcases List.mem_cons.mp hmem with rfl | hmem
      · rfl
      · rw [List.mem_singleton.mp hmem]
        rfl

theorem spares_authGoogleApprovals (site : MigrationSite) (rest : MigrationScript) :
    Script.LeadsTo (fun statement => Statement.spares statement = true) rest 0
      (authGoogleApprovals site rest) :=
  .query fun _ => .execAll (spares_addMissing (by decide) _)
    (.execAll (by decide) .here)

theorem spares_webhookRetry (site : MigrationSite) (rest : MigrationScript) :
    Script.LeadsTo (fun statement => Statement.spares statement = true) rest 0
      (webhookRetry site rest) :=
  .query fun _ => .execAll (spares_addMissing (by decide) _)
    (.query fun _ => .execAll (spares_addMissing (by decide) _) (.execAll (by decide) .here))

/-- **Every migration spares the record.** -/
theorem spares_migrations : ∀ m ∈ migrations, m.Spares := by
  unfold migrations
  simp only [List.forall_mem_cons, List.not_mem_nil, false_imp_iff, implies_true, and_true]
  refine ⟨fun _ _ => .before (.execAll (by decide) (.after .here)), ?_, ?_, ?_, ?_, ?_, ?_, ?_,
    ?_, ?_, ?_, ?_, spares_tenantOwnerGateway, spares_authGoogleApprovals, ?_, ?_, ?_, ?_,
    spares_webhookRetry, ?_⟩
  all_goals exact spares_ofStatements (by decide)

theorem nodup_migrations : (migrations.map Migration.id).Nodup := by decide

/-! ## Calls that are cut off -/

section Calls

variable {site : MigrationSite} {ms : List Migration} {first : List String}
  {es : List (Session.Event String)} {db : SchemaDb}

/-- **What the database says of the migrations**: it names those that were there at first
and those that have been committed since, which are the first of the list; and all of
them, once a call has completed. -/
structure Recorded (ms : List Migration) (first : List String)
    (es : List (Session.Event String)) (db : SchemaDb) : Prop where
  isPrefix : first ++ Session.committed es <+: ms.map Migration.id
  recorded : db.migrationIds = (first ++ Session.committed es).map .text
  completed : Session.HasCompleted es →
    first ++ Session.committed es = ms.map Migration.id ∧ db.record.isSome

/-- **Where a call is**: before it creates the table, before it reads it, in the loop, in
the transaction of a migration, or at its end. The migrations of `before` are done. -/
inductive CallAt (site : MigrationSite) (ms : List Migration) (done : List String)
    (db : SchemaDb) : Connection Statement SchemaDb String → Prop where
  | start : CallAt site ms done db ⟨none, runMigrations site ms⟩
  | read (htable : db.record.isSome) :
      CallAt site ms done db ⟨none, .query fun db => migrateAll site db.migrationIds ms⟩
  | loop (htable : db.record.isSome) {applied : List SqlValue} {before todo : List Migration}
      (hms : ms = before ++ todo) (hdone : before.map Migration.id = done)
      (hnew : ∀ m ∈ todo, .text m.id ∉ applied) :
      CallAt site ms done db ⟨none, migrateAll site applied todo⟩
  | up (htable : db.record.isSome) {applied : List SqlValue} {before todo : List Migration}
      {m : Migration} (hms : ms = before ++ m :: todo)
      (hdone : before.map Migration.id = done) (hnew : ∀ m ∈ todo, .text m.id ∉ applied)
      {copy : SchemaDb} (hcopy : copy.record = db.record) {savepoints : List SchemaDb}
      {rest : MigrationScript}
      (hrest : Script.LeadsTo (fun statement => Statement.spares statement = true)
        (.exec (.record m.id) (.after (some m.id) (migrateAll site applied todo)))
        savepoints.length rest) :
      CallAt site ms done db ⟨some (copy, savepoints), rest⟩
  | recorded {applied : List SqlValue} {before todo : List Migration} {m : Migration}
      (hms : ms = before ++ m :: todo) (hdone : before.map Migration.id = done)
      (hnew : ∀ m ∈ todo, .text m.id ∉ applied) {copy : SchemaDb}
      (hcopy : copy.migrationIds = (done ++ [m.id]).map .text) (htable : copy.record.isSome) :
      CallAt site ms done db
        ⟨some (copy, []), .after (some m.id) (migrateAll site applied todo)⟩

theorem migrateAll_append {applied : List SqlValue} {before todo : List Migration}
    (h : ∀ m ∈ before, .text m.id ∈ applied) :
    migrateAll site applied (before ++ todo) = migrateAll site applied todo := by
  induction before with
  | nil => rfl
  | cons m before ih =>
    rw [List.cons_append, migrateAll, if_pos (h m List.mem_cons_self)]
    exact ih fun m' hm' => h m' (List.mem_cons_of_mem _ hm')

theorem Recorded.append (h : Recorded ms first es db) {es' : List (Session.Event String)}
    (hsilent : Session.committed es' = []) (hcompleted : Session.HasCompleted es' →
      first ++ Session.committed es = ms.map Migration.id ∧ db.record.isSome) :
    Recorded ms first (es ++ es') db := by
  have hcommitted : Session.committed (es ++ es') = Session.committed es := by
    rw [Session.committed_append, hsilent, List.append_nil]
  refine ⟨?_, ?_, fun hdone => ?_⟩
  · rw [hcommitted]
    exact h.isPrefix
  · rw [hcommitted]
    exact h.recorded
  · rw [hcommitted]
    rcases List.mem_append.mp hdone with hold | hnew
    · exact h.completed hold
    · exact hcompleted hnew

theorem quiet_advance {s : Session Statement SchemaDb String}
    (h : Recorded ms first es s.durable)
    (hc : ∀ c, s.call = some c → CallAt site ms (first ++ Session.committed es) s.durable c) :
    Recorded ms first (es ++ []) s.durable
      ∧ ∀ c, s.call = some c →
        CallAt site ms (first ++ Session.committed (es ++ [])) s.durable c := by
  rw [List.append_nil]
  exact ⟨h, hc⟩

theorem interrupted_advance (h : Recorded ms first es db) :
    Recorded ms first (es ++ [.interrupted]) db
      ∧ ∀ c, (⟨db, none⟩ : Session Statement SchemaDb String).call = some c →
        CallAt site ms (first ++ Session.committed (es ++ [.interrupted])) db c := by
  refine ⟨h.append rfl fun hdone => ?_, fun c (hc : none = some c) => nomatch hc⟩
  exact nomatch List.mem_singleton.mp hdone

theorem exists_todo (h : Recorded ms first es db) :
    ∃ before todo, ms = before ++ todo
      ∧ before.map Migration.id = first ++ Session.committed es := by
  obtain ⟨ids, hids⟩ := h.isPrefix
  obtain ⟨before, todo, hms, hbefore, -⟩ := List.map_eq_append_iff.mp hids.symm
  exact ⟨before, todo, hms, hbefore⟩

theorem not_recorded (hnodup : (ms.map Migration.id).Nodup) (h : Recorded ms first es db)
    {before todo : List Migration} (hms : ms = before ++ todo)
    (hdone : before.map Migration.id = first ++ Session.committed es) {m : Migration}
    (hm : m ∈ todo) : .text m.id ∉ db.migrationIds := by
  rw [h.recorded, ← hdone]
  intro hmem
  obtain ⟨id, hid, htext⟩ := List.mem_map.mp hmem
  obtain rfl := SqlValue.text.inj htext
  rw [hms, List.map_append] at hnodup
  exact (List.nodup_append.mp hnodup).2.2 m.id hid m.id (List.mem_map_of_mem hm) rfl

theorem recorded_createTable (h : Recorded ms first es db)
    (hnone : db.tables "schema_migrations" = none) (columns : List String) :
    Recorded ms first es (db.setTable "schema_migrations" ⟨columns, []⟩)
      ∧ (db.setTable "schema_migrations" ⟨columns, []⟩).record.isSome := by
  have hself : (db.setTable "schema_migrations" ⟨columns, []⟩).tables "schema_migrations"
      = some ⟨columns, []⟩ :=
    @Function.update_self String (fun _ => Option DbTable) _ "schema_migrations" _ db.tables
  have hempty : db.migrationIds = [] := by
    rw [SchemaDb.migrationIds, hnone]
    rfl
  refine ⟨⟨h.isPrefix, ?_, fun hdone => ?_⟩, ?_⟩
  · rw [← h.recorded, hempty, SchemaDb.migrationIds, hself]
    rfl
  · have hsome := (h.completed hdone).2
    rw [SchemaDb.record, hnone] at hsome
    exact absurd hsome Bool.false_ne_true
  · rw [SchemaDb.record, hself]
    rfl

theorem not_hasCompleted (h : Recorded ms first es db) {before todo : List Migration}
    {m : Migration} (hms : ms = before ++ m :: todo)
    (hdone : before.map Migration.id = first ++ Session.committed es) :
    ¬ Session.HasCompleted es := by
  intro hcompleted
  have hall := (h.completed hcompleted).1
  rw [← hdone, hms, List.map_append] at hall
  have hlength := congrArg List.length hall
  simp at hlength

/-- **A migration is committed**, with its id. -/
theorem recorded_commit (h : Recorded ms first es db) {before todo : List Migration}
    {m : Migration} (hms : ms = before ++ m :: todo)
    (hdone : before.map Migration.id = first ++ Session.committed es) {copy : SchemaDb}
    (hcopy : copy.migrationIds = (first ++ Session.committed es ++ [m.id]).map .text) :
    Recorded ms first (es ++ [.committed m.id]) copy := by
  have hcommitted : first ++ Session.committed (es ++ [.committed m.id])
      = first ++ Session.committed es ++ [m.id] := by
    rw [Session.committed_append, ← List.append_assoc]
    rfl
  refine ⟨?_, ?_, fun hcompleted => ?_⟩
  · rw [hcommitted, ← hdone, hms, List.map_append, List.map_cons]
    exact ⟨todo.map Migration.id, by rw [List.append_assoc, List.singleton_append]⟩
  · rw [hcommitted, hcopy]
  · rcases List.mem_append.mp hcompleted with hold | hnew
    · exact absurd hold (not_hasCompleted h hms hdone)
    · exact nomatch List.mem_singleton.mp hnew

/-- **What the next step of a call keeps.** -/
theorem recorded_advance (hnodup : (ms.map Migration.id).Nodup)
    (hspares : ∀ m ∈ ms, m.Spares) (h : Recorded ms first es db)
    {c : Connection Statement SchemaDb String}
    (hc : CallAt site ms (first ++ Session.committed es) db c) (now : ℕ) :
    Recorded ms first (es ++ (Session.advance Statement.run db c now).2)
        (Session.advance Statement.run db c now).1.durable
      ∧ ∀ c', (Session.advance Statement.run db c now).1.call = some c' →
        CallAt site ms (first ++ Session.committed
            (es ++ (Session.advance Statement.run db c now).2))
          (Session.advance Statement.run db c now).1.durable c' := by
  cases hc with
  | start =>
    rw [runMigrations, Session.advance]
    dsimp only
    cases htable : db.tables "schema_migrations" with
    | some t =>
      rw [Statement.run, htable]
      refine quiet_advance h fun c hc => ?_
      obtain rfl := Option.some.inj hc
      exact .read (by rw [SchemaDb.record, htable]; rfl)
    | none =>
      rw [Statement.run, htable]
      obtain ⟨hrecorded, hsome⟩ := recorded_createTable h htable ["id", "applied_at"]
      refine quiet_advance hrecorded fun c hc => ?_
      obtain rfl := Option.some.inj hc
      exact .read hsome
  | read htable =>
    refine quiet_advance h fun c hc => ?_
    obtain rfl := Option.some.inj hc
    obtain ⟨before, todo, hms, hdone⟩ := exists_todo h
    have happlied : ∀ m ∈ before, .text m.id ∈ db.migrationIds := by
      intro m hm
      rw [h.recorded, ← hdone]
      exact List.mem_map_of_mem (List.mem_map_of_mem hm)
    show CallAt site ms _ db ⟨none, migrateAll site db.migrationIds ms⟩
    rw [hms, migrateAll_append happlied, ← hms]
    exact .loop htable hms hdone fun m hm => not_recorded hnodup h hms hdone hm
  | @loop htable applied before todo hms hdone hnew =>
    cases todo with
    | nil =>
      refine ⟨h.append rfl fun _ => ⟨?_, htable⟩, fun c (hc : none = some c) => nomatch hc⟩
      rw [← hdone, hms, List.append_nil]
    | cons m todo =>
      rw [migrateAll, if_neg (hnew m List.mem_cons_self)]
      refine quiet_advance h fun c hc => ?_
      obtain rfl := Option.some.inj hc
      exact .up htable hms hdone (fun m' hm' => hnew m' (List.mem_cons_of_mem _ hm')) rfl
        (hspares m (hms ▸ List.mem_append_right _ List.mem_cons_self) site _)
  | @up htable applied before todo m hms hdone hnew copy hcopy savepoints rest hrest =>
    have hgo : ∀ {copy' : SchemaDb} {savepoints' : List SchemaDb} {rest' : MigrationScript},
        copy'.record = db.record →
        Script.LeadsTo (fun statement => Statement.spares statement = true)
          (.exec (.record m.id) (.after (some m.id) (migrateAll site applied todo)))
          savepoints'.length rest' →
        ∀ c', some ⟨some (copy', savepoints'), rest'⟩ = some c' →
          CallAt site ms (first ++ Session.committed es) db c' := by
      intro copy' savepoints' rest' hcopy' hrest' c' hc'
      obtain rfl := Option.some.inj hc'
      exact .up htable hms hdone hnew hcopy' hrest'
    -- what a migration still has to do leads to the record of its id, and spares it till then
    generalize hdepth : savepoints.length = depth at hrest
    cases hrest with
    | here =>
      obtain rfl := List.length_eq_zero_iff.mp hdepth
      have hnot : SqlValue.text m.id ∉ copy.migrationIds := by
        rw [migrationIds_congr hcopy]
        exact not_recorded hnodup h hms hdone List.mem_cons_self
      rw [Session.advance]
      dsimp only
      cases hrun : (Statement.record m.id).run now copy with
      | error e => exact interrupted_advance h
      | ok copy' =>
        obtain ⟨hids, hsome⟩ := migrationIds_record hnot hrun
        refine quiet_advance h fun c hc => ?_
        obtain rfl := Option.some.inj hc
        refine .recorded hms hdone hnew ?_ hsome
        rw [hids, migrationIds_congr hcopy, h.recorded]
        show _ ++ [m.id].map SqlValue.text = _
        rw [← List.map_append]
    | @exec _ statement s hK hs =>
      rw [Session.advance]
      dsimp only
      cases hrun : statement.run now copy with
      | error e => exact interrupted_advance h
      | ok copy' =>
        exact quiet_advance h (hgo ((record_run hK hrun).trans hcopy) (hdepth ▸ hs))
    | query hs => exact quiet_advance h (hgo hcopy (hdepth ▸ hs copy))
    | before hs => exact quiet_advance h (hgo hcopy (by rw [List.length_cons, hdepth]; exact hs))
    | after hs =>
      cases savepoints with
      | nil => exact nomatch hdepth
      | cons savepoint savepoints =>
        have hlength : savepoints.length = _ := Nat.succ.inj hdepth
        exact quiet_advance h (hgo hcopy (hlength ▸ hs))
  | @recorded applied before todo m hms hdone hnew copy hcopy htable =>
    refine ⟨recorded_commit h hms hdone hcopy, fun c hc => ?_⟩
    obtain rfl := Option.some.inj hc
    refine .loop htable (hms.trans (List.append_cons before m todo)) ?_ hnew
    rw [List.map_append, hdone, List.map_singleton, List.append_assoc]
    exact congrArg _ (Session.committed_append es [.committed m.id]).symm

theorem durable_advance (h : Recorded ms first es db) (hcompleted : Session.HasCompleted es)
    {c : Connection Statement SchemaDb String}
    (hc : CallAt site ms (first ++ Session.committed es) db c) (now : ℕ) :
    (Session.advance Statement.run db c now).1.durable = db := by
  cases hc with
  | start =>
    obtain ⟨t, htable⟩ := Option.isSome_iff_exists.mp (h.completed hcompleted).2
    rw [runMigrations, Session.advance]
    dsimp only
    rw [Statement.run, show db.tables "schema_migrations" = some t from htable]
  | read htable => rfl
  | @loop htable applied before todo hms hdone hnew =>
    cases todo with
    | nil => rfl
    | cons m todo => exact absurd hcompleted (not_hasCompleted h hms hdone)
  | up htable hms hdone hnew hcopy hrest =>
    exact absurd hcompleted (not_hasCompleted h hms hdone)
  | recorded hms hdone hnew hcopy htable =>
    exact absurd hcompleted (not_hasCompleted h hms hdone)

end Calls

/-- **The invariants of the calls.** -/
theorem migrationCalls_recorded {site : MigrationSite} {ms : List Migration}
    (hnodup : (ms.map Migration.id).Nodup) (hspares : ∀ m ∈ ms, m.Spares)
    {first : List String} {db : SchemaDb} (hdb : db.migrationIds = first.map .text)
    (hfirst : first <+: ms.map Migration.id) (actions : List Session.Action) :
    Recorded ms first ((migrationCalls site ms).trace ⟨db, none⟩ actions)
        ((migrationCalls site ms).state ⟨db, none⟩ actions).durable
      ∧ ∀ c, ((migrationCalls site ms).state ⟨db, none⟩ actions).call = some c →
        CallAt site ms
          (first ++ Session.committed ((migrationCalls site ms).trace ⟨db, none⟩ actions))
          ((migrationCalls site ms).state ⟨db, none⟩ actions).durable c := by
  refine Session.calls_invariant Statement.run
    (C := fun es db c => CallAt site ms (first ++ Session.committed es) db c)
    ⟨?_, ?_, fun hdone => absurd hdone List.not_mem_nil⟩ (fun _ _ _ => .start)
    (fun es db h => (@interrupted_advance site ms first es db h).1)
    (fun es db c now h hc => recorded_advance hnodup hspares h hc now) actions
  · rw [Session.committed_nil, List.append_nil]
    exact hfirst
  · rw [Session.committed_nil, List.append_nil]
    exact hdb

/-- Once a call has completed, every later step leaves the database as it is. -/
theorem durable_of_completed {site : MigrationSite} {ms : List Migration}
    (hnodup : (ms.map Migration.id).Nodup) (hspares : ∀ m ∈ ms, m.Spares)
    {first : List String} {db : SchemaDb} (hdb : db.migrationIds = first.map .text)
    (hfirst : first <+: ms.map Migration.id) {p q : List Session.Action} (hpq : p <+: q)
    (hcompleted :
      Session.HasCompleted ((migrationCalls site ms).trace ⟨db, none⟩ p)) :
    ((migrationCalls site ms).state ⟨db, none⟩ q).durable
      = ((migrationCalls site ms).state ⟨db, none⟩ p).durable := by
  obtain ⟨t, rfl⟩ := hpq
  induction t using List.reverseRecOn with
  | nil => rw [List.append_nil]
  | append_singleton t a ih =>
    rw [← List.append_assoc, Machine.state_concat, ← ih]
    obtain ⟨hrecorded, hcall⟩ := @migrationCalls_recorded site ms hnodup hspares first db hdb
      hfirst (p ++ t)
    have hdone : Session.HasCompleted
        ((migrationCalls site ms).trace ⟨db, none⟩ (p ++ t)) := by
      rw [Machine.trace_append]
      exact List.mem_append_left _ hcompleted
    generalize (migrationCalls site ms).state ⟨db, none⟩ (p ++ t) = s at hrecorded hcall
    obtain ⟨db', call⟩ := s
    cases call with
    | none => cases a <;> rfl
    | some c =>
      cases a with
      | start => rfl
      | step now => exact durable_advance hrecorded hdone (hcall c rfl) now
      | throw => rfl
      | crash => rfl

/-- An empty environment. -/
def sampleMigrationSite : MigrationSite := ⟨fun _ => none, List.head?⟩

/-- A call that is cut off in the second migration, and one that is not. -/
def sampleMigrationCalls : List Session.Action :=
  .start :: List.replicate 35 (.step 1) ++ .crash :: .start :: List.replicate 220 (.step 2)

/-- The second call applies what the first one has not. -/
example : Session.committed ((migrationCalls sampleMigrationSite (migrations.take 3)).trace
    ⟨.empty, none⟩ sampleMigrationCalls) = (migrations.take 3).map Migration.id := by
  decide +kernel

end MissionControl
