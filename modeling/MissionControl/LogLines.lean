import MissionControl.Export
import MissionControl.GatewayConfig
import MissionControl.JsonText
import MissionControl.LogBuffer

/-!
# Lines of log files

`parseLogLine` reads a line of a log file in four formats, one after the other: an object of
JSON, a line with bars, a line of the journal, and any other text. Whatever has the format of
text gives an entry with a time, a level, a source and a message (`valid_textEntry`).

An object of JSON gives an entry with the values of its properties, whatever they are. The
entry is valid exactly if each of the four properties counts as false, and is replaced, or is
what it should be (`valid_parseLogLine_iff`).
-/

namespace MissionControl

/-! ## Entries -/

/-- What is around the log files: the runtime, and how it reads dates. -/
structure LogSite where
  rt : Runtime
  /-- `Date.parse`; `none` is `NaN`. -/
  dateParse : String → Option ℤ

/-- **What is drawn for a line**: the times that `Date.now()` gives, the first for the id, and
the end of the id. -/
structure LogDraw where
  idNow : ℕ
  now : ℕ
  suffix : String

def LogLevel.text : LogLevel → String
  | info => "info"
  | warn => "warn"
  | error => "error"
  | debug => "debug"

/-- **`LogEntry`** of the log files, with what it may have at run time. -/
structure LogFileEntry where
  id : String
  timestamp : Json
  level : Json
  source : Json
  session : Option Json
  message : Json
  data : Option Json

/-- **An entry is valid**: its time is a finite number, its level one of the four, and its
source and its message are texts. -/
structure LogFileEntry.Valid (e : LogFileEntry) : Prop where
  timestamp : ∃ q, e.timestamp = .num (.finite q)
  level : ∃ l : LogLevel, e.level = .str l.text
  source : ∃ s, e.source = .str s
  message : ∃ s, e.message = .str s

/-! ## The formats -/

/-- `\d{n}` at the front of a text: what is left. -/
def skipDigits (n : ℕ) (s : List Char) : Option (List Char) :=
  if (s.take n).length = n ∧ (s.take n).all Char.isDigit then some (s.drop n) else none

/-- A character at the front of a text. -/
def skipIf (p : Char → Bool) : List Char → Option (List Char)
  | [] => none
  | c :: s => if p c then some s else none

/-- `\d{4}-\d{2}-\d{2}` at the front of a text. -/
def skipDate (s : List Char) : Option (List Char) := do
  let s ← skipDigits 4 s
  let s ← skipIf (· = '-') s
  let s ← skipDigits 2 s
  let s ← skipIf (· = '-') s
  skipDigits 2 s

/-- `\d{4}-\d{2}-\d{2}T[\d:]+` at the front of a text. -/
def isStamp (s : List Char) : Bool :=
  ((skipDate s).bind fun s => (skipIf (· = 'T') s).bind
    (skipIf fun c => c.isDigit || c = ':')).isSome

/-- `.` -/
def isDot (c : Char) : Bool := c.toNat ∉ [0xA, 0xD, 0x2028, 0x2029]

/-- **`/^(\d{4}-\d{2}-\d{2}T[\d:]+[^\|]*)\|([^\|]+)\|(.+)$/`**: what is before the first
bar, up to the second one, and behind it. -/
def pipeMatch (line : List Char) : Option (List Char × List Char × List Char) :=
  match line.dropWhile (· ≠ '|') with
  | [] => none
  | _ :: rest =>
    match rest.dropWhile (· ≠ '|') with
    | [] => none
    | _ :: message =>
      let stamp := line.takeWhile (· ≠ '|')
      let level := rest.takeWhile (· ≠ '|')
      if isStamp stamp ∧ level ≠ [] ∧ message ≠ [] ∧ message.all isDot then
        some (stamp, level, message)
      else none

/-- `\s+(.+)$`: where only white space is left, the last character of it is the message. -/
def journalMessage (s : List Char) : Option (List Char) :=
  match s.dropWhile isWhiteSpace with
  | [] => (s.getLast?.filter fun c => 2 ≤ s.length && isDot c).map fun c => [c]
  | message => if message.length < s.length ∧ message.all isDot then some message else none

/-- **`/^(\d{4}-\d{2}-\d{2}T[\d:]+[^\s]*)\s+\S+\s+\S+:\s+(.+)$/`**: the first word, and what
is behind the third one, which ends in a colon. -/
def journalMatch (line : List Char) : Option (List Char × List Char) :=
  let afterWord (s : List Char) := s.dropWhile fun c => !isWhiteSpace c
  let stamp := line.takeWhile fun c => !isWhiteSpace c
  let host := (afterWord line).dropWhile isWhiteSpace
  let process := (afterWord host).dropWhile isWhiteSpace
  let name := process.takeWhile fun c => !isWhiteSpace c
  if isStamp stamp ∧ host ≠ [] ∧ 2 ≤ name.length ∧ name.getLast? = some ':' then
    (journalMessage (afterWord process)).map fun message => (stamp, message)
  else none

/-- `(?:\.\d{3})?` -/
def skipMillis (s : List Char) : List Char :=
  ((skipIf (· = '.') s).bind (skipDigits 3)).getD s

/-- `(?:Z|[+-]\d{2}:?\d{2})?` -/
def skipZone (s : List Char) : List Char :=
  let offset := do
    let s ← skipIf (fun c => c = '+' || c = '-') s
    let s ← skipDigits 2 s
    skipDigits 2 ((skipIf (· = ':') s).getD s)
  ((skipIf (· = 'Z') s).or offset).getD s

/-- **`isoMatch`**: a date and a time at the front of a line. -/
def isoMatch (line : List Char) : Option (List Char) := do
  let s ← skipDate line
  let s ← skipIf (fun c => isWhiteSpace c || c = 'T') s
  let s ← skipDigits 2 s
  let s ← skipIf (· = ':') s
  let s ← skipDigits 2 s
  let s ← skipIf (· = ':') s
  let s ← skipDigits 2 s
  some (line.take (line.length - (skipZone (skipMillis s)).length))

/-- `(ERROR|WARN|INFO|DEBUG)` in either case, with what follows it. -/
def levelAt (s : List Char) : Option (LogLevel × List Char) :=
  [LogLevel.error, .warn, .info, .debug].findSome? fun l =>
    if l.text.toList.isPrefixOf (s.map Char.toLower) then
      some (l, s.drop l.text.toList.length)
    else none

/-- **`levelMatch`**: `/\[(ERROR|WARN|INFO|DEBUG)\]/i`, or `/(ERROR|WARN|INFO|DEBUG):/i`. -/
def levelMatch (line : List Char) : Option LogLevel :=
  let bracketed (s : List Char) : Option LogLevel := do
    let s ← skipIf (· = '[') s
    let (l, s) ← levelAt s
    let _ ← skipIf (· = ']') s
    some l
  let labelled (s : List Char) : Option LogLevel := do
    let (l, s) ← levelAt s
    let _ ← skipIf (· = ':') s
    some l
  (line.tails.findSome? bracketed).or (line.tails.findSome? labelled)

/-! ## Reading a line -/

def textEntry (site : LogSite) (draw : LogDraw) (source : String) (idTime : JsNumber)
    (timestamp : ℤ) (level : LogLevel) (message : String) : LogFileEntry where
  id := source ++ "-" ++ site.rt.numberToString idTime ++ "-" ++ draw.suffix
  timestamp := .num (.finite timestamp)
  level := .str level.text
  source := .str source
  session := none
  message := .str message
  data := none

/-- The time value of a date, as a number. -/
def numberOf : Option ℤ → JsNumber
  | some t => .finite t
  | none => .nan

def pipeLevel (site : LogSite) (text : List Char) : LogLevel :=
  let levelRaw := site.rt.toLowerCase (trim (String.ofList text))
  if levelRaw = "error" ∨ levelRaw = "err" then .error
  else if levelRaw = "warn" ∨ levelRaw = "warning" then .warn
  else if levelRaw = "debug" then .debug
  else .info

/-- The level of a line of the journal. -/
def journalLevel (message : String) : LogLevel :=
  if includes message "error" ∨ includes message "Error" ∨ includes message "ERR" then .error
  else if includes message "warn" ∨ includes message "WARN" then .warn
  else if includes message "debug" ∨ includes message "DEBUG" then .debug
  else .info

def lineLevel (site : LogSite) (line : String) : LogLevel :=
  match levelMatch line.toList with
  | some level => level
  | none =>
    if includes (site.rt.toLowerCase line) "error" then .error
    else if includes (site.rt.toLowerCase line) "warn" then .warn
    else .info

/-- A line that is no object of JSON. -/
def parseTextLine (site : LogSite) (draw : LogDraw) (line source : String) : LogFileEntry :=
  match pipeMatch line.toList with
  | some (stamp, level, message) =>
    let ts := site.dateParse (String.ofList stamp)
    textEntry site draw source (numberOf ts) (ts.getD draw.now) (pipeLevel site level)
      (trim (String.ofList message))
  | none =>
    match journalMatch line.toList with
    | some (stamp, message) =>
      let ts := site.dateParse (String.ofList stamp)
      textEntry site draw source (numberOf ts) (ts.getD draw.now)
        (journalLevel (String.ofList message)) (String.ofList message)
    | none =>
      let timestamp := (((isoMatch line.toList).map String.ofList).bind site.dateParse).getD
        draw.now
      textEntry site draw source (.finite timestamp) timestamp (lineLevel site line)
        (trim line)

/-- An object of JSON: its values, or those in their place if they count as false. -/
def jsonEntry (site : LogSite) (draw : LogDraw) (line source : String) (parsed : Json) :
    Except Exception LogFileEntry := do
  let get (key : String) := Json.get? (some parsed) key
  let shown ← (Json.or (get "timestamp") (.num (.finite draw.idNow))).toStr site.rt
  .ok
    { id := source ++ "-" ++ shown ++ "-" ++ draw.suffix
      timestamp := Json.or (get "timestamp") (.num (.finite draw.now))
      level := Json.or (get "level") (.str "info")
      source := Json.or (get "source") (.str source)
      session := get "session"
      message := Json.or (get "message") (.str line)
      data := get "data" }

/-- **`parseLogLine`.** -/
def parseLogLine (site : LogSite) (draw : LogDraw) (line source : String) : Option LogFileEntry :=
  if trim line = "" then none
  else if startsWith line "\x7b" then
    match (Json.parse site.rt line.toList).map (jsonEntry site draw line source) with
    | some (.ok e) => some e
    | _ => some (textEntry site draw source (.finite draw.idNow) draw.now .info (trim line))
  else some (parseTextLine site draw line source)

/-! ## Entries that are valid -/

/-- A value that counts as true has a property. -/
def TrueOnly (p : Json → Prop) (x : Option Json) : Prop :=
  Json.truthy x = true → ∃ j, x = some j ∧ p j

/-- **The values of an object fit an entry**: each that counts as true is what it should
be. -/
structure FitsEntry (parsed : Json) : Prop where
  timestamp : TrueOnly (fun j => ∃ q, j = .num (.finite q)) (Json.get? (some parsed) "timestamp")
  level : TrueOnly (fun j => ∃ l : LogLevel, j = .str l.text) (Json.get? (some parsed) "level")
  source : TrueOnly (fun j => ∃ s, j = .str s) (Json.get? (some parsed) "source")
  message : TrueOnly (fun j => ∃ s, j = .str s) (Json.get? (some parsed) "message")

/-- **A line is taken as an object of JSON**: it starts as one and can be parsed, and its
time has a text, which the id is made of. -/
structure TakenAsJson (rt : Runtime) (line : String) (parsed : Json) : Prop where
  starts : startsWith line "\x7b" = true
  parses : Json.parse rt line.toList = some parsed
  shows : ∃ text, (Json.or (Json.get? (some parsed) "timestamp") (.num (.finite 0))).toStr rt
    = .ok text

section Valid

variable {site : LogSite} {draw : LogDraw} {line source : String}

theorem or_iff {p : Json → Prop} {x : Option Json} {fallback : Json} (h : p fallback) :
    p (Json.or x fallback) ↔ TrueOnly p x := by
  unfold TrueOnly Json.or
  cases x with
  | none => exact iff_of_true h fun htrue => by cases htrue
  | some j =>
    dsimp only
    split
    · next htrue => exact ⟨fun hj _ => ⟨j, rfl, hj⟩, fun hj => by
        obtain ⟨j', hj', hp⟩ := hj htrue
        cases hj'
        exact hp⟩
    · next hfalse => exact iff_of_true h fun htrue => absurd htrue hfalse

theorem toStr_or_num (rt : Runtime) (x : Option Json) (n n' : JsNumber) :
    (∃ text, (Json.or x (.num n)).toStr rt = .ok text)
      ↔ ∃ text, (Json.or x (.num n')).toStr rt = .ok text := by
  unfold Json.or
  cases x with
  | none => exact iff_of_true ⟨_, rfl⟩ ⟨_, rfl⟩
  | some j =>
    dsimp only
    split
    · exact Iff.rfl
    · exact iff_of_true ⟨_, rfl⟩ ⟨_, rfl⟩

theorem valid_textEntry (idTime : JsNumber) (timestamp : ℤ) (level : LogLevel)
    (message : String) :
    (textEntry site draw source idTime timestamp level message).Valid :=
  ⟨⟨timestamp, rfl⟩, ⟨level, rfl⟩, ⟨source, rfl⟩, ⟨message, rfl⟩⟩

/-- **A line of text gives a valid entry.** -/
theorem valid_parseTextLine : (parseTextLine site draw line source).Valid := by
  unfold parseTextLine
  split
  · exact valid_textEntry _ _ _ _
  · split
    · exact valid_textEntry _ _ _ _
    · exact valid_textEntry _ _ _ _

theorem valid_jsonEntry_iff {parsed : Json} {e : LogFileEntry}
    (h : jsonEntry site draw line source parsed = .ok e) : e.Valid ↔ FitsEntry parsed := by
  obtain ⟨shown, -, h⟩ := bind_eq_ok.mp h
  cases h
  have htime := or_iff (x := Json.get? (some parsed) "timestamp")
    (p := fun j => ∃ q, j = .num (.finite q)) ⟨(draw.now : ℚ), rfl⟩
  have hlevel := or_iff (x := Json.get? (some parsed) "level")
    (p := fun j => ∃ l : LogLevel, j = .str l.text) ⟨.info, rfl⟩
  have hsource := or_iff (x := Json.get? (some parsed) "source")
    (p := fun j => ∃ s, j = .str s) ⟨source, rfl⟩
  have hmessage := or_iff (x := Json.get? (some parsed) "message")
    (p := fun j => ∃ s, j = .str s) ⟨line, rfl⟩
  exact ⟨fun h => ⟨htime.mp h.timestamp, hlevel.mp h.level, hsource.mp h.source,
      hmessage.mp h.message⟩,
    fun h => ⟨htime.mpr h.timestamp, hlevel.mpr h.level, hsource.mpr h.source,
      hmessage.mpr h.message⟩⟩

theorem trim_ne_of_startsWith (h : startsWith line "\x7b" = true) : trim line ≠ "" := by
  obtain ⟨rest, hline⟩ := List.isPrefixOf_iff_prefix.mp h
  have hfirst : isWhiteSpace '\x7b' = false := by decide
  intro hblank
  have hnil := congrArg String.toList hblank
  unfold trim at hnil
  rw [String.toList_ofList] at hnil
  have hall := List.rdropWhile_eq_nil_iff.mp hnil
  rw [← hline] at hall
  have hmem := hall '\x7b' (by
    show '\x7b' ∈ List.dropWhile isWhiteSpace ('\x7b' :: rest)
    rw [List.dropWhile_cons_of_neg (by rw [hfirst]; exact Bool.false_ne_true)]
    exact List.mem_cons_self)
  rw [hfirst] at hmem
  cases hmem

variable (draw source) in
theorem parseLogLine_of_taken {parsed : Json} (h : TakenAsJson site.rt line parsed) :
    ∃ e, jsonEntry site draw line source parsed = .ok e
      ∧ parseLogLine site draw line source = some e := by
  obtain ⟨text, htext⟩ := (toStr_or_num site.rt _ (.finite draw.idNow) _).mpr h.shows
  have hentry : ∃ e, jsonEntry site draw line source parsed = .ok e :=
    ⟨_, bind_eq_ok.mpr ⟨text, htext, rfl⟩⟩
  obtain ⟨e, he⟩ := hentry
  refine ⟨e, he, ?_⟩
  unfold parseLogLine
  rw [if_neg (trim_ne_of_startsWith h.starts), if_pos h.starts, h.parses, Option.map_some, he]

/-- **Exactly when a line gives no invalid entry**: if it is taken as an object, the values of
the object fit. -/
theorem valid_parseLogLine_iff :
    (∀ e, parseLogLine site draw line source = some e → e.Valid)
      ↔ ∀ parsed, TakenAsJson site.rt line parsed → FitsEntry parsed := by
  constructor
  · intro h parsed hparsed
    obtain ⟨e, he, hline⟩ := parseLogLine_of_taken draw source hparsed
    exact (valid_jsonEntry_iff he).mp (h e hline)
  · intro h e he
    unfold parseLogLine at he
    split at he
    · cases he
    · split at he
      · next hstarts =>
        split at he
        · next e' hentry =>
          obtain ⟨parsed, hparses, hentry⟩ := Option.map_eq_some_iff.mp hentry
          cases he
          refine (valid_jsonEntry_iff hentry).mpr (h parsed ⟨hstarts, hparses, ?_⟩)
          obtain ⟨text, htext, -⟩ := bind_eq_ok.mp hentry
          exact (toStr_or_num site.rt _ _ _).mp ⟨text, htext⟩
        · cases he
          exact valid_textEntry _ _ _ _
      · cases he
        exact valid_parseTextLine

end Valid

end MissionControl
