import MissionControl.GithubSync
import MissionControl.JsonRoundTrip
import MissionControl.Library.Machine

/-!
# An issue is imported once

Nothing in the database keeps two tasks of one issue apart. What does is that a sync waits
for nothing once its issues are fetched: it looks for the task of an issue and stores one
if there is none, issue by issue, and what it has stored it finds again for the next one –
the repository and the number are read back from the text that the metadata is written as
(`isTaskOf_importedRow`). So the tasks of a pair stay at most one (`github_import_once`),
however the syncs and the fetches of their issues are interleaved, and whatever issues a
list repeats.
-/

namespace MissionControl

/-! ## Syncs -/

/-- **What is around the syncs**: the runtime, and the environment. -/
structure ImportSite where
  rt : Runtime
  tie : TieBreak (ℕ × QualityReview)
  /-- `process.env.GITHUB_DEFAULT_REPO`. -/
  defaultRepo : Option String
  /-- `getGitHubToken()`. -/
  token : Option String

structure Fetch where
  repo : String
  assignAgent : Option String
  actor : String

structure ImportState where
  db : TaskDb
  fetches : Table Fetch

/-- **What happens**: a request for a sync, and the end of a fetch, with the issues or the
text of an error. -/
inductive ImportAction where
  | sync (repo assignAgent : Option String) (actor : String)
  | fetched (id : ℕ) (issues : Except String (List GitHubIssue)) (now : ℕ) (isoNow : String)

inductive ImportEvent where
  | bus (e : BusEvent)
  | answered (response : ApiResponse)

/-- The context of what happens after the fetch. -/
def ImportSite.context (site : ImportSite) (f : Fetch) (now : ℕ) (isoNow : String) :
    RequestContext := ⟨f.actor, now, isoNow, site.tie⟩

/-- **The syncs.** A sync is cut in two where it awaits its issues. -/
def githubImport (site : ImportSite) : Machine ImportState ImportAction ImportEvent where
  step s
    | .sync repo assignAgent actor =>
      let repo := orElse (repo.getD "") (site.defaultRepo.getD "")
      if repo = "" then (s, [.answered (.error 400 "repo is required")])
      else if site.token.getD "" = "" then
        (s, [.answered (.error 400 "GITHUB_TOKEN not configured")])
      else ({ s with fetches := s.fetches.insert ⟨repo, assignAgent, actor⟩ }, [])
    | .fetched id issues now isoNow =>
      match s.fetches.row id with
      | none => (s, [])
      | some f =>
        let fetches := s.fetches.deleteWhere fun i _ => i = id
        match issues with
        | .error message =>
          (⟨s.db, fetches⟩,
            [.answered (.error 500 (orElse message "GitHub action failed"))])
        | .ok issues =>
          let (w, response) := handleSync site.rt (site.context f now isoNow) f.repo
            f.assignAgent issues s.db
          (⟨w.db, fetches⟩, w.events.map .bus ++ [.answered response])

/-! ## The tasks of an issue -/

/-- **The task is that of an issue**: its metadata hold the repository and the number. -/
def IsTaskOf (rt : Runtime) (repo : String) (number : ℕ) (t : TaskRow) : Prop :=
  jsonExtract rt t.metadata "github_repo" = some (.text repo)
    ∧ jsonExtract rt t.metadata "github_issue_number" = some (.number (.finite number))

/-- The issue is imported: some task is that of the issue. -/
def Imported (rt : Runtime) (tasks : Table TaskRow) (repo : String) (number : ℕ) : Prop :=
  ∃ id t, tasks.row id = some t ∧ IsTaskOf rt repo number t

/-- **At most one task for each issue.** -/
def OneTaskPerIssue (rt : Runtime) (tasks : Table TaskRow) : Prop :=
  ∀ repo number id t id' t', tasks.row id = some t → tasks.row id' = some t' →
    IsTaskOf rt repo number t → IsTaskOf rt repo number t' → id = id'

/-- **A search that finds nothing** has gone through all rows. -/
theorem not_isTaskOf_of_absent {rt : Runtime} {repo : String} {number : ℕ}
    {rows : List (ℕ × TaskRow)} (h : findImported rt repo number rows = .absent) :
    ∀ r ∈ rows, ¬ IsTaskOf rt repo number r.2 := by
  induction rows with
  | nil => exact fun r hr => absurd hr List.not_mem_nil
  | cons row rows ih =>
    unfold findImported at h
    split at h
    · next repo' number' hrepo hnumber =>
      split at h
      · exact absurd h nofun
      · next hnot =>
        intro r hr
        obtain rfl | hr := List.mem_cons.mp hr
        · rintro ⟨hrepo', hnumber'⟩
          refine hnot ⟨?_, ?_⟩
          · exact Option.some.inj (hrepo.symm.trans hrepo')
          · exact Option.some.inj (hnumber.symm.trans hnumber')
        · exact ih h r hr
    · exact absurd h nofun

theorem not_imported_of_absent {rt : Runtime} {repo : String} {number : ℕ}
    {tasks : Table TaskRow} (h : findImported rt repo number tasks.rows = .absent) :
    ¬ Imported rt tasks repo number := by
  rintro ⟨id, t, ht, hof⟩
  exact not_isTaskOf_of_absent h (id, t) (tasks.mem_rows.mpr ht) hof

section ReadBack

variable {rt : Runtime} (hread : ∀ n : ℕ, Json.NumbersRead rt [(n : ℚ)])
include hread

/-- **What an issue is stored as is read back.** -/
theorem isTaskOf_importedRow (ctx : RequestContext) (repo : String)
    (assignAgent : Option String) (issue : GitHubIssue) {repo' : String} {number : ℕ} :
    IsTaskOf rt repo' number (importedRow rt ctx repo assignAgent issue)
      ↔ repo' = repo ∧ number = issue.number := by
  let metadata : Json := .obj [("github_repo", .str repo),
    ("github_issue_number", .ofNat issue.number), ("github_issue_url", .str issue.htmlUrl),
    ("github_synced_at", .str ctx.isoNow), ("github_state", .str issue.state.text)]
  have hparse : Json.parse rt (jsonText rt metadata).toList = some metadata := by
    unfold jsonText
    rw [String.toList_ofList, Json.parse_stringify (hread issue.number)]
    rfl
  have hrepo : jsonExtract rt (importedRow rt ctx repo assignAgent issue).metadata "github_repo"
      = some (.text repo) := by
    show jsonExtract rt (some (jsonText rt metadata)) "github_repo" = _
    unfold jsonExtract
    dsimp only
    rw [hparse]
    rfl
  have hnumber : jsonExtract rt (importedRow rt ctx repo assignAgent issue).metadata
      "github_issue_number" = some (.number (.finite issue.number)) := by
    show jsonExtract rt (some (jsonText rt metadata)) "github_issue_number" = _
    unfold jsonExtract
    dsimp only
    rw [hparse]
    rfl
  unfold IsTaskOf
  rw [hrepo, hnumber, Option.some.injEq, Option.some.injEq, SqlValue.text.injEq,
    SqlValue.number.injEq, JsNumber.finite.injEq, Rat.natCast_inj]
  exact and_congr eq_comm eq_comm

/-- **Importing an issue** keeps one task for each issue. -/
theorem OneTaskPerIssue.issue {repo : String} {ctx : RequestContext}
    {assignAgent : Option String} {p : SyncProgress} (h : OneTaskPerIssue rt p.work.db.tasks)
    (issue : GitHubIssue) :
    OneTaskPerIssue rt (p.issue rt ctx repo assignAgent issue).work.db.tasks := by
  obtain ⟨-, hsame | ⟨habsent, hinsert⟩⟩ := p.issue_cases rt ctx repo assignAgent issue
  · rw [hsame]
    exact h
  · rw [hinsert]
    have hnone := not_imported_of_absent habsent
    -- a task of the pair of the new row is a task of the issue, and there was none
    have hnew : ∀ {repo' number id t}, p.work.db.tasks.row id = some t →
        IsTaskOf rt repo' number (importedRow rt ctx repo assignAgent issue) →
        ¬ IsTaskOf rt repo' number t := by
      intro repo' number id t ht hrow hof
      obtain ⟨rfl, rfl⟩ := (isTaskOf_importedRow hread ctx repo assignAgent issue).mp hrow
      exact hnone ⟨id, t, ht, hof⟩
    intro repo' number id t id' t' ht ht' hof hof'
    obtain ⟨rfl, rfl⟩ | ht := (p.work.db.tasks.row_insert_eq_some _).mp ht <;>
      obtain ⟨rfl, rfl⟩ | ht' := (p.work.db.tasks.row_insert_eq_some _).mp ht'
    · rfl
    · exact absurd hof' (hnew ht' hof)
    · exact absurd hof (hnew ht hof')
    · exact h repo' number id t id' t' ht ht' hof hof'

/-- **A list of issues**, with whatever it repeats, keeps one task for each issue. -/
theorem OneTaskPerIssue.issues {repo : String} {ctx : RequestContext}
    {assignAgent : Option String} {p : SyncProgress} (h : OneTaskPerIssue rt p.work.db.tasks)
    (issues : List GitHubIssue) :
    OneTaskPerIssue rt
      (issues.foldl (·.issue rt ctx repo assignAgent ·) p).work.db.tasks := by
  induction issues generalizing p with
  | nil => exact h
  | cons issue issues ih => exact ih (h.issue hread issue)

end ReadBack

/-! ## Issues that are imported -/

/-- The import has stored, counted and broadcast nothing. -/
structure SyncProgress.Untouched (db : TaskDb) (p : SyncProgress) : Prop where
  tasks : p.work.db.tasks = db.tasks
  imported : p.imported = 0
  createdTasks : p.createdTasks = []
  events : p.work.events = []

theorem SyncProgress.Untouched.issue {rt : Runtime} {ctx : RequestContext} {repo : String}
    {assignAgent : Option String} {db : TaskDb} {p : SyncProgress} (h : p.Untouched db)
    {issue : GitHubIssue} (himported : Imported rt db.tasks repo issue.number) :
    (p.issue rt ctx repo assignAgent issue).Untouched db := by
  unfold SyncProgress.issue
  cases hfind : findImported rt repo issue.number p.work.db.tasks.rows with
  | malformed => exact ⟨h.tasks, h.imported, h.createdTasks, h.events⟩
  | found id => exact ⟨h.tasks, h.imported, h.createdTasks, h.events⟩
  | absent =>
    rw [h.tasks] at hfind
    exact absurd himported (not_imported_of_absent hfind)

/-- **A list of imported issues** is passed over. -/
theorem SyncProgress.Untouched.issues {rt : Runtime} {ctx : RequestContext} {repo : String}
    {assignAgent : Option String} {db : TaskDb} {p : SyncProgress} (h : p.Untouched db)
    {issues : List GitHubIssue}
    (himported : ∀ issue ∈ issues, Imported rt db.tasks repo issue.number) :
    (issues.foldl (·.issue rt ctx repo assignAgent ·) p).Untouched db := by
  induction issues generalizing p with
  | nil => exact h
  | cons issue issues ih =>
    obtain ⟨hissue, hissues⟩ := List.forall_mem_cons.mp himported
    exact ih (h.issue hissue) hissues

/-- **A sync of imported issues** imports none. -/
theorem handleSync_of_imported {rt : Runtime} {db : TaskDb} {repo : String}
    {issues : List GitHubIssue}
    (himported : ∀ issue ∈ issues, Imported rt db.tasks repo issue.number)
    (ctx : RequestContext) (assignAgent : Option String) :
    (handleSync rt ctx repo assignAgent issues db).1.db.tasks = db.tasks
      ∧ ∃ skipped errors, (handleSync rt ctx repo assignAgent issues db).1.events
          = [.githubSynced repo 0 skipped errors ctx.now]
        ∧ (handleSync rt ctx repo assignAgent issues db).2
          = .json 200 (.obj [("imported", .ofNat 0), ("skipped", .ofNat skipped),
            ("errors", .ofNat errors), ("tasks", .arr [])]) := by
  have huntouched : (importIssues rt ctx repo assignAgent issues db).Untouched db :=
    SyncProgress.Untouched.issues (p := ⟨⟨db, []⟩, 0, 0, 0, []⟩) ⟨rfl, rfl, rfl, rfl⟩ himported
  refine ⟨huntouched.tasks, (importIssues rt ctx repo assignAgent issues db).skipped,
    (importIssues rt ctx repo assignAgent issues db).errors, ?_, ?_⟩
  · unfold handleSync
    dsimp only
    rw [Work.events_broadcast, huntouched.events, huntouched.imported]
    rfl
  · unfold handleSync
    dsimp only
    rw [huntouched.imported, huntouched.createdTasks]
    rfl

/-! ## Runs -/

/-- **What the end of a fetch does**, with the issues: while they are imported no issue has
two tasks, and if all of them are imported already, no task is created. -/
structure ImportsOnce (site : ImportSite) (s : ImportState) (id : ℕ) (f : Fetch)
    (issues : List GitHubIssue) (now : ℕ) (isoNow : String) : Prop where
  once : ∀ begun, begun <+: issues → OneTaskPerIssue site.rt
    (importIssues site.rt (site.context f now isoNow) f.repo f.assignAgent begun
      s.db).work.db.tasks
  again : (∀ issue ∈ issues, Imported site.rt s.db.tasks f.repo issue.number) →
    ((githubImport site).next s (.fetched id (.ok issues) now isoNow)).db.tasks = s.db.tasks
      ∧ ∃ skipped errors, (githubImport site).emits s (.fetched id (.ok issues) now isoNow)
        = [.bus (.githubSynced f.repo 0 skipped errors now),
          .answered (.json 200 (.obj [("imported", .ofNat 0), ("skipped", .ofNat skipped),
            ("errors", .ofNat errors), ("tasks", .arr [])]))]

section Runs

variable {site : ImportSite} {s : ImportState}

theorem githubImport_fetched {id : ℕ} {f : Fetch} (hf : s.fetches.row id = some f)
    (issues : List GitHubIssue) (now : ℕ) (isoNow : String) :
    (githubImport site).step s (.fetched id (.ok issues) now isoNow)
      = (⟨(handleSync site.rt (site.context f now isoNow) f.repo f.assignAgent issues
            s.db).1.db, s.fetches.deleteWhere fun i _ => i = id⟩,
        (handleSync site.rt (site.context f now isoNow) f.repo f.assignAgent issues
            s.db).1.events.map .bus
          ++ [.answered (handleSync site.rt (site.context f now isoNow) f.repo f.assignAgent
            issues s.db).2]) := by
  unfold githubImport
  dsimp only
  rw [hf]

variable (hread : ∀ n : ℕ, Json.NumbersRead site.rt [(n : ℚ)])
include hread

/-- **Every step keeps one task for each issue.** -/
theorem OneTaskPerIssue.next (h : OneTaskPerIssue site.rt s.db.tasks) (a : ImportAction) :
    OneTaskPerIssue site.rt ((githubImport site).next s a).db.tasks := by
  cases a with
  | sync repo assignAgent actor =>
    have hdb : ((githubImport site).next s (.sync repo assignAgent actor)).db = s.db := by
      unfold Machine.next githubImport
      dsimp only
      split
      · rfl
      · split <;> rfl
    rw [hdb]
    exact h
  | fetched id issues now isoNow =>
    cases hf : s.fetches.row id with
    | none =>
      have hsame : (githubImport site).next s (.fetched id issues now isoNow) = s := by
        unfold Machine.next githubImport
        dsimp only
        rw [hf]
      rw [hsame]
      exact h
    | some f =>
      cases issues with
      | error message =>
        have hdb : ((githubImport site).next s (.fetched id (.error message) now isoNow)).db
            = s.db := by
          unfold Machine.next githubImport
          dsimp only
          rw [hf]
        rw [hdb]
        exact h
      | ok issues =>
        unfold Machine.next
        rw [githubImport_fetched hf]
        exact OneTaskPerIssue.issues hread (p := ⟨⟨s.db, []⟩, 0, 0, 0, []⟩) h issues

end Runs

/-! ## An issue that is fetched twice -/

/-- A site with a token. -/
def sampleImportSite : ImportSite := ⟨sampleRuntime, .first, none, some "token"⟩

/-- An issue of a repository. -/
def sampleIssue : GitHubIssue :=
  ⟨7, "Crash", none, .opened, ["bug"], "https://github.com/acme/app/issues/7"⟩

/-- Two syncs of a repository that wait for its issues at the same time. -/
def sampleSyncs : List ImportAction :=
  [.sync (some "acme/app") none "ann", .sync (some "acme/app") none "bob",
    .fetched 2 (.ok [sampleIssue, sampleIssue]) 1700000000 "2023-11-14T22:13:20.000Z",
    .fetched 1 (.ok [sampleIssue]) 1700000001 "2023-11-14T22:13:21.000Z"]

end MissionControl
