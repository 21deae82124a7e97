import MissionControl.Tasks

/-!
# The import of GitHub issues

`POST /api/github` with the action `sync` fetches the issues of a repository
and stores those that are not there yet as tasks. What happens after the
fetch is one piece. The repository and the number of an issue are kept in the
JSON column `metadata`, and an issue is there if some row has both.
-/

namespace MissionControl

inductive IssueState where
  | opened | closed
  deriving DecidableEq

def IssueState.text : IssueState → String
  | opened => "open"
  | closed => "closed"

structure GitHubIssue where
  number : ℕ
  title : String
  body : Option String
  state : IssueState
  labels : List String
  htmlUrl : String

def mapPriority (rt : Runtime) : List String → TaskPriority
  | [] => .medium
  | label :: labels =>
    let lower := rt.toLowerCase label
    if lower = "priority:critical" ∨ lower = "critical" then .critical
    else if lower = "priority:high" ∨ lower = "high" then .high
    else if lower = "priority:low" ∨ lower = "low" then .low
    else if lower = "priority:medium" then .medium
    else mapPriority rt labels

/-- `json_extract(text, '$.key')`; none where the text is not JSON. -/
def jsonExtract (rt : Runtime) (text : Option String) (key : String) :
    Option SqlValue :=
  match text with
  | none => some .null
  | some text =>
    match Json.parse rt text.toList with
    | none => none
    | some j => some <|
      match Json.get? (some j) key with
      | none => .null
      | some .null => .null
      | some (.bool b) => .number (.finite (if b then 1 else 0))
      | some (.num n) => .number n
      | some (.str s) => .text s
      | some j => .text (jsonText rt j)

/-- What the search for an issue among the rows comes to. -/
inductive ImportSearch where
  | found (id : ℕ)
  | absent
  | malformed

/-- The search for the task of an issue. It ends at the first row that is it,
and at one whose column is not JSON. -/
def findImported (rt : Runtime) (repo : String) (number : ℕ) :
    List (ℕ × TaskRow) → ImportSearch
  | [] => .absent
  | (id, t) :: rows =>
    match jsonExtract rt t.metadata "github_repo",
        jsonExtract rt t.metadata "github_issue_number" with
    | some repo', some number' =>
      if repo' = .text repo ∧ number' = .number (.finite number) then .found id
      else findImported rt repo number rows
    | _, _ => .malformed

/-- The row that an issue is stored as. -/
def importedRow (rt : Runtime) (ctx : RequestContext) (repo : String)
    (assignAgent : Option String) (issue : GitHubIssue) : TaskRow where
  title := issue.title
  description := some (issue.body.getD "")
  status := if issue.state = .closed then .done else .inbox
  priority := mapPriority rt issue.labels
  assignedTo := if assignAgent.getD "" = "" then none else assignAgent
  createdBy := ctx.actor
  createdAt := ctx.now
  updatedAt := ctx.now
  dueDate := none
  estimatedHours := none
  actualHours := none
  tags := some (jsonText rt (.arr (issue.labels.map .str)))
  metadata := some (jsonText rt (.obj [("github_repo", .str repo),
    ("github_issue_number", .ofNat issue.number),
    ("github_issue_url", .str issue.htmlUrl),
    ("github_synced_at", .str ctx.isoNow),
    ("github_state", .str issue.state.text)]))

structure SyncProgress where
  work : Work
  imported : ℕ
  skipped : ℕ
  errors : ℕ
  createdTasks : List ParsedTask

def SyncProgress.issue (rt : Runtime) (ctx : RequestContext) (repo : String)
    (assignAgent : Option String) (p : SyncProgress) (issue : GitHubIssue) :
    SyncProgress :=
  match findImported rt repo issue.number p.work.db.tasks.rows with
  | .malformed => { p with errors := p.errors + 1 }
  | .found _ => { p with skipped := p.skipped + 1 }
  | .absent =>
    let id := p.work.db.tasks.next
    let row := importedRow rt ctx repo assignAgent issue
    let w : Work := { p.work with
      db := { p.work.db with tasks := p.work.db.tasks.insert row } }
    let w := w.logActivity ⟨"task_created", "task", id, ctx.actor,
      "Imported from GitHub: " ++ repo ++ "#" ++ toString issue.number,
      some (.obj [("github_issue", .ofNat issue.number),
        ("github_repo", .str repo)]), ctx.now⟩
    match readTask rt w.db id with
    | none => { p with work := w, errors := p.errors + 1 }
    | some task =>
      { p with
        work := w.broadcast (.taskCreated task)
        imported := p.imported + 1
        createdTasks := p.createdTasks ++ [task] }

def importIssues (rt : Runtime) (ctx : RequestContext) (repo : String)
    (assignAgent : Option String) (issues : List GitHubIssue) (db : TaskDb) :
    SyncProgress :=
  issues.foldl (·.issue rt ctx repo assignAgent ·) ⟨⟨db, []⟩, 0, 0, 0, []⟩

/-- **`handleSync`**, once the issues are fetched. -/
def handleSync (rt : Runtime) (ctx : RequestContext) (repo : String)
    (assignAgent : Option String) (issues : List GitHubIssue) (db : TaskDb) :
    Work × ApiResponse :=
  let p := importIssues rt ctx repo assignAgent issues db
  let sync : GithubSync := ⟨repo, ctx.now, p.imported,
    if 0 < p.errors then "partial" else "success",
    if 0 < p.errors then some (toString p.errors ++ " issues failed to import")
    else none⟩
  let w : Work := { p.work with
    db := { p.work.db with githubSyncs := p.work.db.githubSyncs.insert sync } }
  (w.broadcast (.githubSynced repo p.imported p.skipped p.errors ctx.now),
    .json 200 (.obj [("imported", .ofNat p.imported), ("skipped", .ofNat p.skipped),
      ("errors", .ofNat p.errors), ("tasks", .arr (p.createdTasks.map (·.json)))]))

/-- **What the import of an issue does to the tasks**: nothing, or it stores
the row of an issue that was not there. -/
theorem SyncProgress.issue_cases (rt : Runtime) (ctx : RequestContext)
    (repo : String) (assignAgent : Option String) (p : SyncProgress)
    (issue : GitHubIssue) :
    (p.issue rt ctx repo assignAgent issue).work.db.reviews = p.work.db.reviews
      ∧ ((p.issue rt ctx repo assignAgent issue).work.db.tasks = p.work.db.tasks
        ∨ findImported rt repo issue.number p.work.db.tasks.rows = .absent
          ∧ (p.issue rt ctx repo assignAgent issue).work.db.tasks
            = p.work.db.tasks.insert (importedRow rt ctx repo assignAgent issue)) := by
  unfold SyncProgress.issue
  cases hfind : findImported rt repo issue.number p.work.db.tasks.rows with
  | malformed => exact ⟨rfl, .inl rfl⟩
  | found id => exact ⟨rfl, .inl rfl⟩
  | absent =>
    dsimp only
    split
    · exact ⟨rfl, .inr ⟨rfl, rfl⟩⟩
    · exact ⟨rfl, .inr ⟨rfl, rfl⟩⟩

end MissionControl
