import MissionControl.Backups
import MissionControl.Library.Fallible
import MissionControl.ListQueries
import MissionControl.LogLines

/-!
# The log files as they are shown

`GET /api/logs` reads the ends of all log files, sorts their entries by time, and filters
them. One entry that a filter cannot test takes the whole answer down.

All lines give valid entries, and every request is answered, with the entries by time, exactly
if each line that is taken as an object has values that fit an entry and, where it is among
the last lines of its file, no session that cannot be searched (`logs_tolerated_iff`).
-/

namespace MissionControl

/-! ## Files -/

/-- What stands in the directory of the log files; what cannot be read is `none`. -/
inductive LogDirEntry where
  | file (name : String) (content : Option String)
  | directory (name : String) (entries : Option (List (String × Option String)))
  | other (name : String)

structure LogFile where
  source : String
  content : Option String
  deriving DecidableEq

/-- `name.endsWith('.log')`. -/
def isLogName (name : String) : Bool := ".log".toList.isSuffixOf name.toList

/-- `name.replace('.log', '')`. -/
def logName (name : String) : String := String.ofList (replaceFirst ".log".toList [] name.toList)

/-- **`discoverLogFiles`**, of the directory, if it can be read. -/
def discoverLogFiles (dir : Option (List LogDirEntry)) : List LogFile :=
  (dir.getD []).flatMap fun entry =>
    match entry with
    | .file name content => if isLogName name then [⟨logName name, content⟩] else []
    | .directory name entries =>
      ((entries.getD []).filter fun f => isLogName f.1).map fun f =>
        ⟨name ++ "/" ++ logName f.1, f.2⟩
    | .other _ => []

/-- `content.split('\n')`. -/
def logLines (content : String) : List String :=
  (content.toList.splitOn '\n').map String.ofList

/-- **`readLogFile`**: the entries of the last lines. -/
def readLogFile (site : LogSite) (draws : ℕ → LogDraw) (maxLines : ℕ) (file : LogFile) :
    List LogFileEntry :=
  match file.content with
  | none => []
  | some content =>
    (sliceFrom (-(maxLines : ℤ)) (logLines content)).zipIdx.filterMap fun (line, i) =>
      parseLogLine site (draws i) line file.source

/-! ## Entries -/

/-- The time of an entry, as a number. A time that has no number has no text either, and is
in no entry. -/
def LogFileEntry.time (rt : Runtime) (e : LogFileEntry) : JsNumber :=
  match Json.toNumber rt (some e.timestamp) with
  | .ok n => n
  | .error _ => .nan

/-- `logs.sort((a, b) => b.timestamp - a.timestamp)`: the sort is stable. -/
def sortLogs (rt : Runtime) (logs : List LogFileEntry) : List LogFileEntry :=
  logs.mergeSort fun a b => !(a.time rt).lessThan (b.time rt)

/-- `log.session?.includes(session)`. -/
def hasSession (session : String) (e : LogFileEntry) : Except Exception Bool :=
  match e.session with
  | none | some .null => .ok false
  | some (.str s) => .ok (includes s session)
  | some (.arr elements) => .ok (elements.any fun x => Json.equalsText (some x) session)
  | some _ => .error .typeError

/-- `log.message.toLowerCase().includes(s) || log.source.toLowerCase().includes(s)`. -/
def hasText (rt : Runtime) (search : String) (e : LogFileEntry) : Except Exception Bool := do
  let message ← e.message.asString
  if includes (rt.toLowerCase message) search then .ok true
  else do
    let source ← e.source.asString
    .ok (includes (rt.toLowerCase source) search)

/-- `logs.slice(0, limit)`. -/
def sliceLogs (limit : Option ℤ) (logs : List LogFileEntry) : List LogFileEntry :=
  match limit with
  | none => []
  | some n => if 0 ≤ n then logs.take n.toNat else logs.take (logs.length - n.natAbs)

/-! ## Requests -/

structure LogRequest where
  action : Option String
  limit : Option String
  level : Option String
  session : Option String
  search : Option String
  source : Option String
  since : Option String

/-- `Math.min(parseInt(searchParams.get('limit') || '100'), 200)`. -/
def LogRequest.max (q : LogRequest) : Option ℤ :=
  (parseInt (orElse (q.limit.getD "") "100")).map (min · 200)

/-- A parameter that is there and not empty. -/
def given (param : Option String) : Option String := param.filter (· ≠ "")

inductive LogResponse where
  | logs (entries : List LogFileEntry)
  | sources (names : List String)
  | error (status : ℕ) (message : String)

/-- The entries of the files, of the source that is asked for. Each file has its draws. -/
def readLogs (site : LogSite) (draws : ℕ → ℕ → LogDraw) (maxLines : ℕ) (source : Option String)
    (files : List LogFile) : List LogFileEntry :=
  files.zipIdx.flatMap fun (file, i) =>
    if (given source).any (· ≠ file.source) then []
    else readLogFile site (draws i) maxLines file

/-- A filter for a parameter, if it is given. -/
def filterGiven (param : Option String)
    (test : String → LogFileEntry → Except Exception Bool) (logs : List LogFileEntry) :
    Except Exception (List LogFileEntry) :=
  match given param with
  | some text => Fallible.filter (test text) logs
  | none => .ok logs

/-- The filters of a request, one after the other. -/
def LogRequest.filters (q : LogRequest) (rt : Runtime) (logs : List LogFileEntry) :
    Except Exception (List LogFileEntry) := do
  let logs ← filterGiven q.level (fun level e => .ok (Json.equalsText (some e.level) level)) logs
  let logs ← filterGiven q.session hasSession logs
  filterGiven q.search (fun search => hasText rt (rt.toLowerCase search)) logs

/-- **`GET /api/logs`**, of the directory of the log files. -/
def getLogs (site : LogSite) (draws : ℕ → ℕ → LogDraw) (dir : Option (List LogDirEntry))
    (q : LogRequest) : LogResponse :=
  let files := discoverLogFiles dir
  let action := orElse (q.action.getD "") "recent"
  if action = "recent" then
    let logs := sortLogs site.rt (readLogs site draws 200 q.source files)
    match q.filters site.rt logs with
    | .error _ => .error 500 "Internal server error"
    | .ok logs => .logs (sliceLogs q.max logs)
  else if action = "sources" then .sources (files.map LogFile.source)
  else if action = "tail" then
    let since := parseNumber (orElse (q.since.getD "") "0")
    let logs := (readLogs site draws 50 q.source files).filter fun e =>
      since.lessThan (e.time site.rt)
    .logs (sliceLogs q.max (sortLogs site.rt logs))
  else .error 400 "Invalid action"

/-! ## Answers -/

/-- The entries are sorted by time, the newest first. -/
def ByTime (rt : Runtime) (logs : List LogFileEntry) : Prop :=
  logs.Pairwise fun a b => (a.time rt).atLeast (b.time rt) = true

/-- **A request is answered**: with entries that are sorted, with the sources, or with a
refusal of an action that there is not. -/
def LogResponse.Answers (rt : Runtime) : LogResponse → Prop
  | logs entries => ByTime rt entries
  | sources _ => True
  | error status _ => status ≠ 500

/-- **The log files are tolerated**: every line of them gives an entry that is valid, if any,
and every request is answered. -/
structure LogsTolerated (site : LogSite) (dir : Option (List LogDirEntry)) : Prop where
  lines : ∀ file ∈ discoverLogFiles dir, ∀ content, file.content = some content →
    ∀ line ∈ logLines content, ∀ draw e,
      parseLogLine site draw line file.source = some e → e.Valid
  answers : ∀ draws q, (getLogs site draws dir q).Answers site.rt

/-- A session that can be searched: a text or an array, if there is one. -/
def Searchable : Option Json → Prop
  | none | some .null | some (.str _) | some (.arr _) => True
  | some (.bool _) | some (.num _) | some (.obj _) => False

/-- **The objects in the log files fit**: their values are those of an entry, and the sessions
in the last lines can be searched. -/
structure LogsFit (site : LogSite) (dir : Option (List LogDirEntry)) : Prop where
  entries : ∀ file ∈ discoverLogFiles dir, ∀ content, file.content = some content →
    ∀ line ∈ logLines content, ∀ parsed, TakenAsJson site.rt line parsed → FitsEntry parsed
  sessions : ∀ file ∈ discoverLogFiles dir, ∀ content, file.content = some content →
    ∀ line ∈ sliceFrom (-200) (logLines content), ∀ parsed,
      TakenAsJson site.rt line parsed → Searchable (Json.get? (some parsed) "session")

section Answers

variable {site : LogSite} {dir : Option (List LogDirEntry)} {rt : Runtime}
  {logs : List LogFileEntry} {e : LogFileEntry}

/-! ### Sorting -/

/-- The time of a valid entry, as a rational number. -/
def LogFileEntry.rank (e : LogFileEntry) : ℚ :=
  match e.timestamp with
  | .num (.finite q) => q
  | _ => 0

theorem time_of_valid (h : e.Valid) : e.time rt = .finite e.rank := by
  obtain ⟨q, hq⟩ := h.timestamp
  unfold LogFileEntry.time LogFileEntry.rank
  rw [hq]
  rfl

theorem mem_sortLogs : e ∈ sortLogs rt logs ↔ e ∈ logs := List.mem_mergeSort

/-- **Valid entries are sorted by time.** -/
theorem byTime_sortLogs (h : ∀ e ∈ logs, e.Valid) : ByTime rt (sortLogs rt logs) := by
  have hle : ∀ a ∈ logs, ∀ b ∈ logs,
      (!(a.time rt).lessThan (b.time rt)) = decide (b.rank ≤ a.rank) := by
    intro a ha b hb
    rw [time_of_valid (h a ha), time_of_valid (h b hb)]
    show (!(decide (a.rank ≤ b.rank) && !decide (b.rank ≤ a.rank))) = decide (b.rank ≤ a.rank)
    rcases le_total a.rank b.rank with hab | hba
    · rw [decide_eq_true hab, Bool.true_and, Bool.not_not]
    · rw [decide_eq_true hba, Bool.not_true, Bool.and_false, Bool.not_false]
  have hsame : sortLogs rt logs = logs.mergeSort fun a b => decide (b.rank ≤ a.rank) := by
    have hmap := List.map_mergeSort (f := id)
      (r := fun a b : LogFileEntry => !(a.time rt).lessThan (b.time rt))
      (s := fun a b : LogFileEntry => decide (b.rank ≤ a.rank)) hle
    rwa [List.map_id, List.map_id] at hmap
  have hranks : (sortLogs rt logs).Pairwise fun a b => decide (b.rank ≤ a.rank) = true := by
    rw [hsame]
    refine List.pairwise_mergeSort (fun a b c hab hbc => ?_) (fun a b => ?_) logs
    · exact decide_eq_true ((of_decide_eq_true hbc).trans (of_decide_eq_true hab))
    · rw [Bool.or_eq_true, decide_eq_true_iff, decide_eq_true_iff]
      exact le_total b.rank a.rank
  refine hranks.imp_of_mem fun {a b} ha hb hab => ?_
  rw [time_of_valid (h a (mem_sortLogs.mp ha)), time_of_valid (h b (mem_sortLogs.mp hb))]
  exact hab

theorem byTime_sliceLogs (limit : Option ℤ) (h : ByTime rt logs) :
    ByTime rt (sliceLogs limit logs) := by
  unfold sliceLogs
  split
  · exact List.Pairwise.nil
  · split
    · exact List.Pairwise.sublist (List.take_sublist _ _) h
    · exact List.Pairwise.sublist (List.take_sublist _ _) h

/-! ### Entries that are read -/

theorem exists_of_mem_readLogs {draws : ℕ → ℕ → LogDraw} {maxLines : ℕ}
    {source : Option String} {files : List LogFile}
    (h : e ∈ readLogs site draws maxLines source files) :
    ∃ file ∈ files, ∃ content, file.content = some content
      ∧ ∃ line ∈ sliceFrom (-(maxLines : ℤ)) (logLines content), ∃ draw,
        parseLogLine site draw line file.source = some e := by
  obtain ⟨⟨file, i⟩, hfile, h⟩ := List.mem_flatMap.mp h
  dsimp only at h
  split at h
  · cases h
  · unfold readLogFile at h
    split at h
    · cases h
    · next content hcontent =>
      obtain ⟨⟨line, j⟩, hline, h⟩ := List.mem_filterMap.mp h
      exact ⟨file, (List.mem_zipIdx' hfile).2 ▸ List.getElem_mem _, content, hcontent, line,
        (List.mem_zipIdx' hline).2 ▸ List.getElem_mem _, _, h⟩

theorem mem_readLogs {draw : LogDraw} {maxLines : ℕ} {files : List LogFile} {file : LogFile}
    {content line : String} (hfile : file ∈ files) (hcontent : file.content = some content)
    (hline : line ∈ sliceFrom (-(maxLines : ℤ)) (logLines content))
    (h : parseLogLine site draw line file.source = some e) :
    e ∈ readLogs site (fun _ _ => draw) maxLines none files := by
  obtain ⟨i, hi, rfl⟩ := List.mem_iff_getElem.mp hfile
  obtain ⟨j, hj, rfl⟩ := List.mem_iff_getElem.mp hline
  refine List.mem_flatMap.mpr ⟨(files[i], i), List.mk_mem_zipIdx_iff_getElem?.mpr
    (List.getElem?_eq_getElem hi), ?_⟩
  show e ∈ readLogFile site (fun _ => draw) maxLines files[i]
  unfold readLogFile
  rw [hcontent]
  exact List.mem_filterMap.mpr ⟨_, List.mk_mem_zipIdx_iff_getElem?.mpr
    (List.getElem?_eq_getElem hj), h⟩

theorem mem_of_mem_sliceFrom {α : Type} {n : ℤ} {xs : List α} {x : α} (h : x ∈ sliceFrom n xs) :
    x ∈ xs := by
  unfold sliceFrom at h
  split at h
  · exact List.mem_of_mem_drop h
  · exact List.mem_of_mem_drop h

theorem session_parseTextLine {draw : LogDraw} {line source : String} :
    (parseTextLine site draw line source).session = none := by
  unfold parseTextLine
  split
  · rfl
  · split <;> rfl

/-- The session of an entry is that of the object its line is taken as. -/
theorem session_parseLogLine {draw : LogDraw} {line source : String}
    (h : parseLogLine site draw line source = some e) :
    e.session = none ∨ ∃ parsed, TakenAsJson site.rt line parsed
      ∧ e.session = Json.get? (some parsed) "session" := by
  unfold parseLogLine at h
  split at h
  · cases h
  · split at h
    · next hstarts =>
      split at h
      · next e' hentry =>
        obtain ⟨parsed, hparses, hentry⟩ := Option.map_eq_some_iff.mp hentry
        cases h
        obtain ⟨text, htext, hentry⟩ := bind_eq_ok.mp hentry
        refine .inr ⟨parsed, ⟨hstarts, hparses, (toStr_or_num site.rt _ _ _).mp ⟨text, htext⟩⟩, ?_⟩
        cases hentry
        rfl
      · cases h
        exact .inl rfl
    · cases h
      exact .inl session_parseTextLine

/-! ### Filters -/

theorem hasSession_isOk {session : String} :
    (∃ b, hasSession session e = .ok b) ↔ Searchable e.session := by
  unfold hasSession Searchable
  cases e.session with
  | none => exact iff_of_true ⟨_, rfl⟩ trivial
  | some x =>
    cases x with
    | null | str _ | arr _ => exact iff_of_true ⟨_, rfl⟩ trivial
    | bool _ | num _ | obj _ => exact iff_of_false (fun h => by obtain ⟨b, hb⟩ := h; cases hb) id

theorem hasText_isOk {search : String} (h : e.Valid) : ∃ b, hasText rt search e = .ok b := by
  obtain ⟨message, hmessage⟩ := h.message
  obtain ⟨source, hsource⟩ := h.source
  unfold hasText
  rw [hmessage, hsource]
  show ∃ b, (if includes (rt.toLowerCase message) search then Except.ok true
    else .ok (includes (rt.toLowerCase source) search)) = .ok b
  split
  · exact ⟨_, rfl⟩
  · exact ⟨_, rfl⟩

theorem filterGiven_isOk (param : Option String)
    (test : String → LogFileEntry → Except Exception Bool)
    (h : ∀ text, ∀ e ∈ logs, ∃ b, test text e = .ok b) :
    ∃ passed, filterGiven param test logs = .ok passed ∧ passed.Sublist logs := by
  unfold filterGiven
  cases given param with
  | none => exact ⟨logs, rfl, List.Sublist.refl logs⟩
  | some text => exact ⟨_, Fallible.filter_eq_ok.mpr ⟨h text, rfl⟩, List.filter_sublist⟩

variable (rt) in
/-- **The filters let entries through** that are valid and whose sessions can be searched. -/
theorem filters_isOk (q : LogRequest) (hvalid : ∀ e ∈ logs, e.Valid)
    (hsession : ∀ e ∈ logs, Searchable e.session) :
    ∃ passed, q.filters rt logs = .ok passed ∧ passed.Sublist logs := by
  obtain ⟨first, hfirst, hsub⟩ := filterGiven_isOk q.level
    (fun level e => .ok (Json.equalsText (some e.level) level)) fun _ e (_ : e ∈ logs) => ⟨_, rfl⟩
  obtain ⟨second, hsecond, hsub'⟩ := filterGiven_isOk q.session hasSession
    fun _ e he => hasSession_isOk.mpr (hsession e (hsub.subset he))
  obtain ⟨third, hthird, hsub''⟩ := filterGiven_isOk q.search
    (fun search => hasText rt (rt.toLowerCase search))
    fun _ e he => hasText_isOk (hvalid e (hsub.subset (hsub'.subset he)))
  exact ⟨third, bind_eq_ok.mpr ⟨first, hfirst, bind_eq_ok.mpr ⟨second, hsecond, hthird⟩⟩,
    hsub''.trans (hsub'.trans hsub)⟩

/-- A request for the entries of a session. -/
def sessionRequest : LogRequest := ⟨none, none, none, some "x", none, none, none⟩

theorem searchable_of_answers {draws : ℕ → ℕ → LogDraw}
    (h : (getLogs site draws dir sessionRequest).Answers site.rt) :
    ∀ e ∈ readLogs site draws 200 none (discoverLogFiles dir), Searchable e.session := by
  intro e he
  have hmem := (mem_sortLogs : e ∈ sortLogs site.rt _ ↔ _).mpr he
  generalize hlogs : sortLogs site.rt (readLogs site draws 200 none (discoverLogFiles dir)) = logs
    at hmem
  have hfilters : sessionRequest.filters site.rt logs
      = Fallible.filter (hasSession "x") logs >>= fun logs => .ok logs := rfl
  have hanswer : getLogs site draws dir sessionRequest
      = match sessionRequest.filters site.rt logs with
        | .error _ => .error 500 "Internal server error"
        | .ok logs => .logs (sliceLogs sessionRequest.max logs) := by
    rw [← hlogs]
    rfl
  rw [hanswer, hfilters] at h
  cases hpassed : Fallible.filter (hasSession "x") logs with
  | error e' =>
    rw [hpassed] at h
    exact absurd rfl h
  | ok passed =>
    exact hasSession_isOk.mp ((Fallible.filter_eq_ok.mp hpassed).1 e hmem)

/-- **Exactly when the log files are tolerated**: the objects in them fit. -/
theorem logs_tolerated_iff (site : LogSite) (dir : Option (List LogDirEntry)) :
    LogsTolerated site dir ↔ LogsFit site dir := by
  constructor
  · intro h
    refine ⟨fun file hfile content hcontent line hline => ?_,
      fun file hfile content hcontent line hline parsed hparsed => ?_⟩
    · exact valid_parseLogLine_iff.mp fun e he =>
        h.lines file hfile content hcontent line hline ⟨0, 0, ""⟩ e he
    · obtain ⟨e, hentry, he⟩ := parseLogLine_of_taken ⟨0, 0, ""⟩ file.source hparsed
      have hsearch := searchable_of_answers (h.answers _ _) e
        (mem_readLogs hfile hcontent hline he)
      obtain ⟨text, -, hentry⟩ := bind_eq_ok.mp hentry
      cases hentry
      exact hsearch
  · intro h
    have hlines : ∀ file ∈ discoverLogFiles dir, ∀ content, file.content = some content →
        ∀ line ∈ logLines content, ∀ draw e,
          parseLogLine site draw line file.source = some e → e.Valid :=
      fun file hfile content hcontent line hline draw e he =>
        valid_parseLogLine_iff.mpr (h.entries file hfile content hcontent line hline) e he
    have hvalid : ∀ {draws maxLines source}, ∀ e ∈ readLogs site draws maxLines source
        (discoverLogFiles dir), e.Valid := by
      intro draws maxLines source e he
      obtain ⟨file, hfile, content, hcontent, line, hline, draw, he⟩ := exists_of_mem_readLogs he
      exact hlines file hfile content hcontent line (mem_of_mem_sliceFrom hline) draw e he
    have hsession : ∀ {draws source}, ∀ e ∈ readLogs site draws 200 source
        (discoverLogFiles dir), Searchable e.session := by
      intro draws source e he
      obtain ⟨file, hfile, content, hcontent, line, hline, draw, he⟩ := exists_of_mem_readLogs he
      rcases session_parseLogLine he with hnone | ⟨parsed, hparsed, hsame⟩
      · rw [hnone]
        trivial
      · rw [hsame]
        exact h.sessions file hfile content hcontent line hline parsed hparsed
    refine ⟨hlines, fun draws q => ?_⟩
    unfold getLogs
    dsimp only
    split
    · obtain ⟨passed, hpassed, hsub⟩ := filters_isOk site.rt q
        (fun e he => hvalid e (mem_sortLogs.mp he)) (fun e he => hsession e (mem_sortLogs.mp he))
      rw [hpassed]
      exact byTime_sliceLogs _ ((byTime_sortLogs fun e he => hvalid e he).sublist hsub)
    · split
      · trivial
      · split
        · exact byTime_sliceLogs _ (byTime_sortLogs fun e he =>
            hvalid e (List.mem_filter.mp he).1)
        · exact fun h => by cases h

end Answers

/-- The log files of concrete runs: dates are not read. -/
def sampleLogSite : LogSite := ⟨sampleRuntime, fun _ => none⟩

/-- A line of JSON whose message is a number. -/
def sampleLogLine : String := "\x7b\"message\": 5\x7d"

/-- A log file of the one line. -/
def sampleLogDir : Option (List LogDirEntry) := some [.file "gateway.log" (some sampleLogLine)]

/-- **The message of an entry is a number.** -/
theorem not_logsTolerated_sampleLogDir : ¬ LogsTolerated sampleLogSite sampleLogDir := by
  intro h
  have hfile : (⟨"gateway", some sampleLogLine⟩ : LogFile) ∈ discoverLogFiles sampleLogDir := by
    decide +kernel
  have hline : sampleLogLine ∈ logLines sampleLogLine := by
    decide +kernel
  have hnumber : (parseLogLine sampleLogSite ⟨0, 0, ""⟩ sampleLogLine "gateway").any
      (fun e => Json.equalsNumber (some e.message) 5) = true := by
    decide +kernel
  obtain ⟨e, he, hmessage⟩ := (Option.any_eq_true _ _).mp hnumber
  obtain ⟨text, htext⟩ := (h.lines _ hfile _ rfl _ hline _ e he).message
  rw [htext] at hmessage
  cases hmessage

end MissionControl
