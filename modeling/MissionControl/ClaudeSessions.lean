import MissionControl.Library.Machine
import MissionControl.Library.Upserts
import MissionControl.TranscriptTallies

/-!
# The sessions of Claude Code

`syncClaudeSessions` reads the transcripts of all projects, and writes what it finds to
`claude_sessions`, a row for each session id. In one transaction all rows are marked as
inactive, and each session is written, over the row of its id if there is one. A session
that cannot be bound makes the transaction fail.

A row is to be active if its session was found and its last message is younger than five
minutes. It is not where a sync finds no session at all: it reports success before anything
is marked. Nor where several transcripts have one id, and the one that is written last is
not the one that is active (`activeFlags_iff`).

A scan takes no time here, and the moment at which a row was created is left out.
-/

namespace MissionControl

/-! ## Scanning -/

/-- A file of a project, with its content if it can be read. -/
structure TranscriptFile where
  name : String
  content : Option (List Char)

/-- An entry of the directory of projects, with its files if they can be listed. -/
structure ProjectDir where
  slug : String
  files : Option (List TranscriptFile)

/-- `f.endsWith('.jsonl')`. -/
def isJsonl (name : String) : Bool := ".jsonl".toList.isSuffixOf name.toList

def scanProject (site : TranscriptSite) (now : ℕ) (dir : ProjectDir) : List SessionStats :=
  ((dir.files.getD []).filter fun f => isJsonl f.name).filterMap fun f =>
    parseSessionFile site now f.content dir.slug

/-- **`scanClaudeSessions`**, on the projects if their directory can be listed. -/
def scanClaudeSessions (site : TranscriptSite) (now : ℕ) (projects : Option (List ProjectDir)) :
    List SessionStats :=
  (projects.getD []).flatMap (scanProject site now)

/-! ## Rows -/

/-- The columns of `claude_sessions` that are written. -/
inductive SessionColumn where
  | session_id | project_slug | project_path | model | git_branch | user_messages
  | assistant_messages | tool_uses | input_tokens | output_tokens | estimated_cost
  | first_message_at | last_message_at | last_user_prompt | is_active | scanned_at | updated_at
  deriving DecidableEq

namespace SessionColumn

/-- The columns in the order of the statement. -/
def all : List SessionColumn :=
  [session_id, project_slug, project_path, model, git_branch, user_messages, assistant_messages,
    tool_uses, input_tokens, output_tokens, estimated_cost, first_message_at, last_message_at,
    last_user_prompt, is_active, scanned_at, updated_at]

def name : SessionColumn → String
  | session_id => "session_id"
  | project_slug => "project_slug"
  | project_path => "project_path"
  | model => "model"
  | git_branch => "git_branch"
  | user_messages => "user_messages"
  | assistant_messages => "assistant_messages"
  | tool_uses => "tool_uses"
  | input_tokens => "input_tokens"
  | output_tokens => "output_tokens"
  | estimated_cost => "estimated_cost"
  | first_message_at => "first_message_at"
  | last_message_at => "last_message_at"
  | last_user_prompt => "last_user_prompt"
  | is_active => "is_active"
  | scanned_at => "scanned_at"
  | updated_at => "updated_at"

/-- Whether a column is a text. The others are numbers. -/
def isText : SessionColumn → Bool
  | session_id | project_slug | project_path | model | git_branch | first_message_at
  | last_message_at | last_user_prompt => true
  | _ => false

/-- `NOT NULL`. -/
def isRequired : SessionColumn → Bool
  | project_path | model | git_branch | first_message_at | last_message_at | last_user_prompt =>
    false
  | _ => true

/-- Whether a column is set where the row is there: `ON CONFLICT(session_id) DO UPDATE SET`. -/
def isUpdated : SessionColumn → Bool
  | session_id | project_slug | project_path | first_message_at => false
  | _ => true

end SessionColumn

/-- A row of `claude_sessions`. -/
abbrev ClaudeSessionRow := SessionColumn → SqlValue

/-- The id of a row, which is a text. -/
def ClaudeSessionRow.id (r : ClaudeSessionRow) : String :=
  match r .session_id with
  | .text s => s
  | _ => ""

/-- **The rows by their ids**, which are unique. -/
abbrev SessionTable := String → Option ClaudeSessionRow

def Addend.json : Addend → Json
  | null => .null
  | bool b => .bool b
  | num n => .num n
  | str s => .str s

/-- The parameters that a session is written with. -/
def SessionStats.params (now : ℕ) (s : SessionStats) : List (Option Json) :=
  [some s.sessionId, some (.str s.projectSlug), s.projectPath, s.model, s.gitBranch,
    some (.ofNat s.userMessages), some (.ofNat s.assistantMessages), some (.ofNat s.toolUses),
    some s.inputTokens.json, some s.outputTokens.json, some (.num s.estimatedCost),
    s.firstMessageAt, s.lastMessageAt]
  ++ [s.lastUserPrompt.map .str, some (.ofNat (if s.isActive then 1 else 0)),
    some (.ofNat (now / 1000)), some (.ofNat (now / 1000))]

/-- The values of a statement, as the columns keep them. -/
def rowOfValues (sq : Sqlite) (values : List SqlValue) : ClaudeSessionRow := fun c =>
  let v := values.getD (SessionColumn.all.idxOf c) .null
  if c.isText then v.asText sq else v.asInteger sq

/-- The row that a session is written as. -/
def sessionRow (sq : Sqlite) (now : ℕ) (s : SessionStats) : Except Exception ClaudeSessionRow := do
  let values ← SqlValue.bindAll 17 (s.params now)
  let row := rowOfValues sq values
  match SessionColumn.all.find? fun c => c.isRequired && decide (row c = .null) with
  | some c => .error (.error ("NOT NULL constraint failed: claude_sessions." ++ c.name))
  | none => .ok row

/-- A row over the one that is there. -/
def mergeRow (old : Option ClaudeSessionRow) (row : ClaudeSessionRow) : ClaudeSessionRow :=
  match old with
  | some old => fun c => if c.isUpdated then row c else old c
  | none => row

/-- `upsert.run(…)`. -/
def upsertSession (sq : Sqlite) (now : ℕ) (table : SessionTable) (s : SessionStats) :
    Except Exception SessionTable := do
  let row ← sessionRow sq now s
  .ok (Upserts.put ClaudeSessionRow.id mergeRow table row)

/-- `UPDATE claude_sessions SET is_active = 0`. -/
def deactivated (table : SessionTable) : SessionTable := fun id =>
  (table id).map fun r => Function.update r .is_active (.ofTime 0)

/-- **`syncClaudeSessions`**: the table, and the message, or what made it fail. -/
def syncClaudeSessions (site : TranscriptSite) (sq : Sqlite) (now : ℕ)
    (projects : Option (List ProjectDir)) (table : SessionTable) :
    SessionTable × Except Exception String :=
  let sessions := scanClaudeSessions site now projects
  if sessions.isEmpty then (table, .ok "No Claude sessions found")
  else
    match sessions.foldlM (upsertSession sq now) (deactivated table) with
    | .ok table' =>
      let active := (sessions.filter fun s => s.isActive).length
      (table', .ok ("Scanned " ++ toString sessions.length ++ " session(s), " ++ toString active
        ++ " active"))
    | .error e => (table, .error e)

/-- A sync: its time, and the projects as it finds them. -/
structure SessionSync where
  now : ℕ
  projects : Option (List ProjectDir)

/-- **The table of sessions**, as it is synced time and again. -/
def claudeSessions (site : TranscriptSite) (sq : Sqlite) :
    Machine SessionTable SessionSync (Except Exception String) where
  step table a :=
    let (table', result) := syncClaudeSessions site sq a.now a.projects table
    (table', [result])

/-! ## Sessions that are stored -/

/-- **The session can be stored**: it can be bound, and no required column is empty. -/
def SessionStats.Storable (sq : Sqlite) (now : ℕ) (s : SessionStats) : Prop :=
  ∃ row, sessionRow sq now s = .ok row

/-- The row of a session that can be stored. -/
def storedRow (sq : Sqlite) (now : ℕ) (s : SessionStats) : ClaudeSessionRow :=
  (sessionRow sq now s).toOption.getD fun _ => .null

/-- The id under which a session is stored. -/
def storedId (sq : Sqlite) (now : ℕ) (s : SessionStats) : String := (storedRow sq now s).id

/-- **The last message of a session is younger than five minutes.** -/
def SessionStats.Recent (site : TranscriptSite) (now : ℕ) (s : SessionStats) : Prop :=
  ∃ x time, s.lastMessageAt = some x ∧ dateValue site x = .ok (some time)
    ∧ (now : ℤ) - time < 5 * 60 * 1000

/-- The scan finds a session of the id whose last message is younger than five minutes. -/
def FoundRecent (site : TranscriptSite) (sq : Sqlite) (a : SessionSync) (id : String) : Prop :=
  ∃ s ∈ scanClaudeSessions site a.now a.projects, storedId sq a.now s = id ∧ s.Recent site a.now

/-- **The active flags reflect the scan** after a sync that reports success. -/
def FlagsReflectScan (site : TranscriptSite) (sq : Sqlite) (table : SessionTable)
    (a : SessionSync) : Prop :=
  (∃ message, (syncClaudeSessions site sq a.now a.projects table).2 = .ok message) →
    ∀ id row, (syncClaudeSessions site sq a.now a.projects table).1 id = some row →
      (row .is_active = .ofTime 1 ↔ FoundRecent site sq a id)

/-- **What a sync must find**, if all of its sessions can be stored: where there is none, no
row that is active; and of the sessions of an id of which one is recent, the last one is. -/
def FlagsSettled (site : TranscriptSite) (sq : Sqlite) (table : SessionTable) (a : SessionSync) :
    Prop :=
  (∀ s ∈ scanClaudeSessions site a.now a.projects, s.Storable sq a.now) →
    (scanClaudeSessions site a.now a.projects = [] →
      ∀ id row, table id = some row → row .is_active ≠ .ofTime 1)
    ∧ ∀ id s, FoundRecent site sq a id →
      (Upserts.ofKey (storedId sq a.now) id
        (scanClaudeSessions site a.now a.projects)).getLast? = some s → s.Recent site a.now

section Sync

variable {site : TranscriptSite} {sq : Sqlite} {now : ℕ}

theorem sessionRow_eq {s : SessionStats} (h : s.Storable sq now) :
    sessionRow sq now s = .ok (storedRow sq now s) := by
  obtain ⟨row, hrow⟩ := h
  unfold storedRow
  rw [hrow]
  rfl

theorem foldlM_upsertSession {sessions : List SessionStats}
    (h : ∀ s ∈ sessions, s.Storable sq now) (table : SessionTable) :
    sessions.foldlM (upsertSession sq now) table
      = .ok ((sessions.map (storedRow sq now)).foldl (Upserts.put ClaudeSessionRow.id mergeRow)
        table) := by
  induction sessions generalizing table with
  | nil => rfl
  | cons s sessions ih =>
    obtain ⟨hs, hrest⟩ := List.forall_mem_cons.mp h
    rw [List.foldlM_cons, upsertSession, sessionRow_eq hs, ok_bind, ok_bind, ih hrest]
    rfl

theorem storable_of_foldlM {sessions : List SessionStats} {table table' : SessionTable}
    (h : sessions.foldlM (upsertSession sq now) table = .ok table') :
    ∀ s ∈ sessions, s.Storable sq now := by
  induction sessions generalizing table with
  | nil => exact List.forall_mem_nil _
  | cons s sessions ih =>
    rw [List.foldlM_cons] at h
    obtain ⟨between, hs, hrest⟩ := bind_eq_ok.mp h
    obtain ⟨row, hrow, -⟩ := bind_eq_ok.mp hs
    exact List.forall_mem_cons.mpr ⟨⟨row, hrow⟩, ih hrest⟩

/-- **What a sync leaves** under an id: what its sessions make of the row, in their order. -/
theorem syncClaudeSessions_apply {projects : Option (List ProjectDir)} (table : SessionTable)
    (h : ∀ s ∈ scanClaudeSessions site now projects, s.Storable sq now)
    (hsome : scanClaudeSessions site now projects ≠ []) (id : String) :
    (syncClaudeSessions site sq now projects table).1 id
      = Upserts.mergeAll mergeRow (deactivated table id)
        ((Upserts.ofKey (storedId sq now) id (scanClaudeSessions site now projects)).map
          (storedRow sq now)) := by
  have hempty : (scanClaudeSessions site now projects).isEmpty = false :=
    Bool.eq_false_iff.mpr fun h => hsome (List.isEmpty_iff.mp h)
  unfold syncClaudeSessions
  dsimp only
  rw [hempty, foldlM_upsertSession h]
  show (List.foldl (Upserts.put ClaudeSessionRow.id mergeRow) _ _ : SessionTable) id = _
  rw [Upserts.foldl_put_apply, Upserts.ofKey_map]
  rfl

theorem sync_eq_ok_iff {projects : Option (List ProjectDir)} (table : SessionTable) :
    (∃ message, (syncClaudeSessions site sq now projects table).2 = .ok message)
      ↔ ∀ s ∈ scanClaudeSessions site now projects, s.Storable sq now := by
  unfold syncClaudeSessions
  dsimp only
  split
  · next hempty =>
    rw [List.isEmpty_iff.mp hempty]
    exact ⟨fun _ => List.forall_mem_nil _, fun _ => ⟨_, rfl⟩⟩
  · constructor
    · rintro ⟨message, h⟩
      split at h
      · next table' hfold => exact storable_of_foldlM hfold
      · cases h
    · intro h
      rw [foldlM_upsertSession h]
      exact ⟨_, rfl⟩

/-- **The flag of a row** is that of its session: the parameters at the end are each bound
as one, whatever those before them are. -/
theorem isActive_storedRow {s : SessionStats} (h : s.Storable sq now) :
    storedRow sq now s .is_active = .ofTime (if s.isActive then 1 else 0) := by
  obtain ⟨values, hvalues, hrow⟩ := bind_eq_ok.mp (sessionRow_eq h)
  have hlast : [s.lastUserPrompt.map Json.str, some (.ofNat (if s.isActive then 1 else 0)),
      some (.ofNat (now / 1000)), some (.ofNat (now / 1000))].map SqlValue.bindParameter
      = [SqlValue.ofText s.lastUserPrompt, .ofTime (if s.isActive then 1 else 0),
        .ofTime (now / 1000), .ofTime (now / 1000)].map fun v => .ok [v] := by
    cases s.lastUserPrompt <;> rfl
  obtain ⟨first, rfl, hlength⟩ := bindAll_append hlast hvalues
  have hthirteen : first.length = 13 := by
    simpa using hlength
  have hvalue : rowOfValues sq (first ++ [SqlValue.ofText s.lastUserPrompt,
      .ofTime (if s.isActive then 1 else 0), .ofTime (now / 1000), .ofTime (now / 1000)]) .is_active
      = .ofTime (if s.isActive then 1 else 0) := by
    have hindex : SessionColumn.all.idxOf .is_active = first.length + 1 := by
      rw [hthirteen]
      decide
    unfold rowOfValues
    dsimp only
    rw [hindex, List.getD_eq_getElem?_getD, List.getElem?_append_right (Nat.le_add_right _ _),
      Nat.add_sub_cancel_left]
    rfl
  rw [← hvalue]
  dsimp only at hrow
  split at hrow
  · cases hrow
  · rw [← Except.ok.inj hrow]

theorem isActiveAt_eq_true {lastMessageAt : Option Json} {isActive : Bool}
    (h : isActiveAt site now lastMessageAt = .ok isActive) :
    isActive = true ↔ ∃ x time, lastMessageAt = some x ∧ dateValue site x = .ok (some time)
      ∧ (now : ℤ) - time < 5 * 60 * 1000 := by
  cases lastMessageAt with
  | none =>
    obtain rfl := Except.ok.inj h
    exact ⟨fun h => (by cases h), fun ⟨_, _, h, _⟩ => (by cases h)⟩
  | some x =>
    obtain ⟨time, htime, hactive⟩ := bind_eq_ok.mp h
    obtain rfl := Except.ok.inj hactive
    constructor
    · intro hrecent
      cases time with
      | none => cases hrecent
      | some t => exact ⟨x, t, rfl, htime, of_decide_eq_true hrecent⟩
    · rintro ⟨y, t, hy, hdate, hlt⟩
      obtain rfl := Option.some.inj hy
      obtain rfl := Except.ok.inj (htime.symm.trans hdate)
      exact decide_eq_true hlt

/-- **A session is active if its last message is recent.** -/
theorem isActive_iff_recent {content : Option (List Char)} {slug : String} {s : SessionStats}
    (h : parseSessionFile site now content slug = some s) :
    s.isActive = true ↔ s.Recent site now := by
  unfold parseSessionFile at h
  cases content with
  | none => cases h
  | some content =>
    dsimp only at h
    split at h
    · cases h
    · obtain ⟨scan, -, hstats⟩ := bind_eq_ok.mp (caught_eq_some.mp h)
      obtain ⟨sessionId, costs, isActive, -, hactive, rfl⟩ := stats_eq_some hstats
      exact isActiveAt_eq_true hactive

theorem mem_scanClaudeSessions {projects : Option (List ProjectDir)} {s : SessionStats} :
    s ∈ scanClaudeSessions site now projects
      ↔ ∃ dir ∈ projects.getD [], ∃ f ∈ dir.files.getD [], isJsonl f.name = true
        ∧ parseSessionFile site now f.content dir.slug = some s := by
  unfold scanClaudeSessions scanProject
  simp only [List.mem_flatMap, List.mem_filterMap, List.mem_filter, and_assoc]

theorem ofTime_flag_iff (active : Bool) :
    SqlValue.ofTime (if active then 1 else 0) = .ofTime 1 ↔ active = true := by
  cases active <;> decide

/-- What the sessions of an id leave of the flag of their row is that of the last one. -/
theorem mergeAll_isActive {v : Option ClaudeSessionRow} {rows : List ClaudeSessionRow}
    {row last : ClaudeSessionRow} (h : Upserts.mergeAll mergeRow v rows = some row)
    (hlast : rows.getLast? = some last) : row .is_active = last .is_active := by
  obtain ⟨rows, rfl⟩ := List.getLast?_eq_some_iff.mp hlast
  rw [Upserts.mergeAll_concat] at h
  rw [← Option.some.inj h]
  cases Upserts.mergeAll mergeRow v rows <;> rfl

/-- **A sync that finds sessions** leaves active what it has found active last. -/
theorem isActive_sync {a : SessionSync} (table : SessionTable)
    (h : ∀ s ∈ scanClaudeSessions site a.now a.projects, s.Storable sq a.now)
    (hsome : scanClaudeSessions site a.now a.projects ≠ []) {id : String} {row : ClaudeSessionRow}
    (hrow : (syncClaudeSessions site sq a.now a.projects table).1 id = some row) :
    row .is_active = .ofTime 1
      ↔ ∃ s, (Upserts.ofKey (storedId sq a.now) id
        (scanClaudeSessions site a.now a.projects)).getLast? = some s ∧ s.Recent site a.now := by
  rw [syncClaudeSessions_apply table h hsome] at hrow
  cases hlast : (Upserts.ofKey (storedId sq a.now) id
      (scanClaudeSessions site a.now a.projects)).getLast? with
  | none =>
    rw [List.getLast?_eq_none_iff.mp hlast] at hrow
    obtain ⟨old, -, rfl⟩ := Option.map_eq_some_iff.mp hrow
    rw [Function.update_self]
    exact ⟨fun h => absurd ((ofTime_flag_iff false).mp h) Bool.false_ne_true,
      fun ⟨_, h, _⟩ => (by cases h)⟩
  | some s =>
    have hmem := (Upserts.mem_ofKey.mp (List.mem_of_getLast? hlast)).1
    obtain ⟨dir, -, f, -, -, hparse⟩ := mem_scanClaudeSessions.mp hmem
    have hflag := (mergeAll_isActive hrow (by rw [List.getLast?_map, hlast]; rfl)).trans
      (isActive_storedRow (h s hmem))
    rw [hflag, ofTime_flag_iff, isActive_iff_recent hparse]
    exact ⟨fun h => ⟨s, rfl, h⟩, fun ⟨_, hs, h⟩ => Option.some.inj hs ▸ h⟩

end Sync

/-- **A sync leaves the flags as the scan has them** exactly if it finds what it must. -/
theorem flagsReflectScan_iff (site : TranscriptSite) (sq : Sqlite) (table : SessionTable)
    (a : SessionSync) : FlagsReflectScan site sq table a ↔ FlagsSettled site sq table a := by
  unfold FlagsReflectScan FlagsSettled
  rw [sync_eq_ok_iff]
  refine forall_congr' fun hstorable => ?_
  by_cases hsome : scanClaudeSessions site a.now a.projects = []
  · have hnone : ∀ id, ¬ FoundRecent site sq a id := by
      rintro id ⟨s, hs, -⟩
      rw [hsome] at hs
      cases hs
    have hsame : (syncClaudeSessions site sq a.now a.projects table).1 = table := by
      unfold syncClaudeSessions
      rw [hsome]
      rfl
    rw [hsame]
    constructor
    · exact fun h => ⟨fun _ id row hrow hactive => hnone id ((h id row hrow).mp hactive),
        fun id s hfound => absurd hfound (hnone id)⟩
    · exact fun h id row hrow =>
        ⟨fun hactive => absurd hactive (h.1 hsome id row hrow),
          fun hfound => absurd hfound (hnone id)⟩
  · have hlast : ∀ id, FoundRecent site sq a id ↔ ∃ s ∈ Upserts.ofKey (storedId sq a.now) id
        (scanClaudeSessions site a.now a.projects), s.Recent site a.now := by
      intro id
      unfold FoundRecent
      simp only [Upserts.mem_ofKey, and_assoc]
    constructor
    · intro h
      refine ⟨fun hnil => absurd hnil hsome, fun id s hfound hs => ?_⟩
      have hrow := syncClaudeSessions_apply table hstorable hsome id
      obtain ⟨rows, hrows⟩ := List.getLast?_eq_some_iff.mp hs
      rw [hrows, List.map_append, List.map_singleton, Upserts.mergeAll_concat] at hrow
      obtain ⟨t, ht, hrecent⟩ := (isActive_sync table hstorable hsome hrow).mp
        ((h id _ hrow).mpr hfound)
      exact Option.some.inj (ht.symm.trans hs) ▸ hrecent
    · intro h id row hrow
      rw [isActive_sync table hstorable hsome hrow]
      constructor
      · rintro ⟨s, hs, hrecent⟩
        exact (hlast id).mpr ⟨s, List.mem_of_getLast? hs, hrecent⟩
      · intro hfound
        obtain ⟨s, hs, -⟩ := (hlast id).mp hfound
        obtain ⟨last, hl⟩ := Option.isSome_iff_exists.mp
          (List.getLast?_isSome.mpr (List.ne_nil_of_mem hs))
        exact ⟨last, hl, h.2 id last hfound hl⟩

/-- **The active flags reflect the last scan**, along every run, exactly if each sync finds
what it must. -/
theorem activeFlags_iff (site : TranscriptSite) (sq : Sqlite) (table : SessionTable)
    (as : List SessionSync) :
    (claudeSessions site sq).EachStep (FlagsReflectScan site sq) table as
      ↔ (claudeSessions site sq).EachStep (FlagsSettled site sq) table as := by
  unfold Machine.EachStep
  simp only [flagsReflectScan_iff]

/-! ## A transcript that vanishes -/

/-- A site for concrete runs: every time is the first one. -/
def sampleScanSite : TranscriptSite where
  rt := sampleRuntime
  dateParse _ := some 0

/-- A project with a transcript of an entry. -/
def sampleProjects : Option (List ProjectDir) :=
  some [⟨"demo", some [⟨"s1.jsonl",
    some "\x7b\"sessionId\":\"s1\",\"timestamp\":\"1970-01-01T00:00:00.000Z\"\x7d".toList⟩]⟩]

/-- **The row of a transcript that is gone stays active**, if it was the only one. -/
theorem not_flagsReflectScan_sampleVanished :
    ¬ (claudeSessions sampleScanSite sampleSqlite).EachStep
      (FlagsReflectScan sampleScanSite sampleSqlite) (fun _ => none)
      [⟨0, sampleProjects⟩, ⟨0, some []⟩] := by
  intro h
  have hempty : ∀ table, syncClaudeSessions sampleScanSite sampleSqlite 0 (some []) table
      = (table, .ok "No Claude sessions found") := fun _ => rfl
  have hflag : ((claudeSessions sampleScanSite sampleSqlite).state (fun _ => none)
      [⟨0, sampleProjects⟩] "s1").map (fun r => r .is_active) = some (.ofTime 1) := by
    decide +kernel
  have hlast := h [⟨0, sampleProjects⟩] ⟨0, some []⟩ (List.prefix_refl _)
  generalize (claudeSessions sampleScanSite sampleSqlite).state (fun _ => none)
    [⟨0, sampleProjects⟩] = table at hflag hlast
  obtain ⟨row, hrow, hactive⟩ := Option.map_eq_some_iff.mp hflag
  unfold FlagsReflectScan at hlast
  rw [hempty] at hlast
  obtain ⟨s, hs, -⟩ := (hlast ⟨_, rfl⟩ "s1" row hrow).mp hactive
  exact List.not_mem_nil hs

end MissionControl
