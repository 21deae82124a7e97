import MissionControl.JsonText
import MissionControl.TokenStats

/-!
# Session transcripts

A transcript is a file with an entry on each line, as JSON. `parseSessionFile` goes through
the lines once. It keeps what the first entries say of the session – its id, branch, path
and beginning –, what the last ones say – the model, the end, the last prompt –, and counts
messages, tool uses and tokens.

A line that is no JSON is skipped, and an entry that cannot be read drops the whole file.
What an entry adds is said in one place (`entryTally`), and what the loop has kept is what
its entries add up to (`foldlM_readLine_eq_ok`).
-/

namespace MissionControl

/-- **What is around the transcripts**: the runtime, and how it reads dates. -/
structure TranscriptSite where
  rt : Runtime
  /-- `Date.parse`; `none` is `NaN`. -/
  dateParse : String → Option ℤ

/-! ## The language -/

/-- **An addend of `+`**, objects being texts by then. -/
inductive Addend where
  | null
  | bool (b : Bool)
  | num (n : JsNumber)
  | str (s : String)
  deriving DecidableEq

namespace Addend

def text (rt : Runtime) : Addend → String
  | null => "null"
  | bool b => if b then "true" else "false"
  | num n => rt.numberToString n
  | str s => s

def number (rt : Runtime) : Addend → JsNumber
  | null => .finite 0
  | bool b => .finite (if b then 1 else 0)
  | num n => n
  | str s => rt.stringToNumber s

/-- `a + b`: the texts of both if one is a text. -/
def plus (site : TranscriptSite) : Addend → Addend → Addend
  | str s, b => str (s ++ b.text site.rt)
  | a, str s => str (a.text site.rt ++ s)
  | a, b => num ((a.number site.rt).add (b.number site.rt))

end Addend

def Json.toAddend (rt : Runtime) : Json → Except Exception Addend
  | .null => .ok .null
  | .bool b => .ok (.bool b)
  | .num n => .ok (.num n)
  | .str s => .ok (.str s)
  | x => do
    let text ← x.toStr rt
    .ok (.str text)

/-- The time value of a number: the whole milliseconds, if a date can be as far away. -/
def timeClip : JsNumber → Option ℤ
  | .finite q =>
    if -8640000000000000 ≤ q ∧ q ≤ 8640000000000000 then
      some (if 0 ≤ q then q.floor else q.ceil)
    else none
  | _ => none

/-- `new Date(x).getTime()`; `none` is `NaN`. -/
def dateValue (site : TranscriptSite) : Json → Except Exception (Option ℤ)
  | .null => .ok (some 0)
  | .bool b => .ok (some (if b then 1 else 0))
  | .num n => .ok (timeClip n)
  | x => do
    let text ← x.toStr site.rt
    .ok (site.dateParse text)

/-! ## Reading entries -/

/-- What the loop over the lines has kept. -/
@[ext] structure TranscriptScan where
  sessionId : Option Json := none
  model : Option Json := none
  gitBranch : Option Json := none
  projectPath : Option Json := none
  userMessages : ℕ := 0
  assistantMessages : ℕ := 0
  toolUses : ℕ := 0
  inputTokens : Addend := .num (.finite 0)
  outputTokens : Addend := .num (.finite 0)
  firstMessageAt : Option Json := none
  lastMessageAt : Option Json := none
  lastUserPrompt : Option String := none

/-- `if (!x && entry[key]) x = entry[key]`. -/
def keepFirst (x : Option Json) (entry : Json) (key : String) : Except Exception (Option Json) :=
  match x with
  | some x => .ok (some x)
  | none => do
    let value ← Json.get (some entry) key
    .ok (if Json.truthy value then value else none)

/-- `usage[key] || 0`, as an addend. -/
def usageCount (rt : Runtime) (usage : Option Json) (key : String) : Except Exception Addend := do
  let count ← Json.get usage key
  (Json.or count (.num (.finite 0))).toAddend rt

/-- The tokens of a usage: those of the input, with what is read from and written to the
cache, and those of the output. -/
def usageTokens (site : TranscriptSite) (usage : Option Json) :
    Except Exception (Addend × Addend) := do
  let input ← usageCount site.rt usage "input_tokens"
  let cacheRead ← usageCount site.rt usage "cache_read_input_tokens"
  let cacheCreation ← usageCount site.rt usage "cache_creation_input_tokens"
  let output ← usageCount site.rt usage "output_tokens"
  .ok ((input.plus site cacheRead).plus site cacheCreation, output)

def countToolUses : List Json → Except Exception ℕ
  | [] => .ok 0
  | block :: blocks => do
    let type ← Json.get (some block) "type"
    let toolUses ← countToolUses blocks
    .ok ((if Json.equalsText type "tool_use" then 1 else 0) + toolUses)

namespace TranscriptScan

def readUser (s : TranscriptScan) (message : Option Json) : Except Exception TranscriptScan := do
  let content ← Json.get message "content"
  let s := { s with userMessages := s.userMessages + 1 }
  .ok (match content with
    | some (.str text) =>
      if text ≠ "" then
        { s with lastUserPrompt := some (String.ofList (sliceUnits 500 text.toList)) }
      else s
    | _ => s)

/-- The tokens of a usage, if there is one. -/
def addUsage (site : TranscriptSite) (s : TranscriptScan) (usage : Option Json) :
    Except Exception TranscriptScan :=
  if Json.truthy usage then do
    let tokens ← usageTokens site usage
    .ok { s with
      inputTokens := s.inputTokens.plus site tokens.1
      outputTokens := s.outputTokens.plus site tokens.2 }
  else .ok s

/-- The tool uses of a content that is a list of blocks. -/
def addToolUses (s : TranscriptScan) (content : Option Json) : Except Exception TranscriptScan :=
  match content with
  | some (.arr blocks) => do
    let toolUses ← countToolUses blocks
    .ok { s with toolUses := s.toolUses + toolUses }
  | _ => .ok s

def readAssistant (site : TranscriptSite) (s : TranscriptScan) (message : Option Json) :
    Except Exception TranscriptScan := do
  let model ← Json.get message "model"
  let usage ← Json.get message "usage"
  let s ← addUsage site { s with
    assistantMessages := s.assistantMessages + 1
    model := if Json.truthy model then model else s.model } usage
  let content ← Json.get message "content"
  s.addToolUses content

/-- What is kept of a message if the entry is of a type and has one. -/
def ofType (s : TranscriptScan) (type : String) (entryType message : Option Json)
    (read : Option Json → Except Exception TranscriptScan) : Except Exception TranscriptScan :=
  if Json.equalsText entryType type && Json.truthy message then read message else .ok s

def readTimestamp (s : TranscriptScan) (timestamp : Option Json) : TranscriptScan :=
  if Json.truthy timestamp then
    { s with firstMessageAt := s.firstMessageAt.or timestamp, lastMessageAt := timestamp }
  else s

/-- **An entry**: what it says of the session, and its message unless it is that of a
sidechain. -/
def readEntry (site : TranscriptSite) (s : TranscriptScan) (entry : Json) :
    Except Exception TranscriptScan := do
  let sessionId ← keepFirst s.sessionId entry "sessionId"
  let gitBranch ← keepFirst s.gitBranch entry "gitBranch"
  let projectPath ← keepFirst s.projectPath entry "cwd"
  let timestamp ← Json.get (some entry) "timestamp"
  let s := { s with sessionId, gitBranch, projectPath }.readTimestamp timestamp
  let isSidechain ← Json.get (some entry) "isSidechain"
  if Json.truthy isSidechain then .ok s
  else do
    let type ← Json.get (some entry) "type"
    let message ← Json.get (some entry) "message"
    let s ← s.ofType "user" type message s.readUser
    s.ofType "assistant" type message (s.readAssistant site)

/-- A line: one that is no JSON is skipped. -/
def readLine (site : TranscriptSite) (s : TranscriptScan) (line : List Char) :
    Except Exception TranscriptScan :=
  match Json.parse site.rt line with
  | some entry => s.readEntry site entry
  | none => .ok s

end TranscriptScan

/-! ## Statistics -/

structure SessionStats where
  sessionId : Json
  projectSlug : String
  projectPath : Option Json
  model : Option Json
  gitBranch : Option Json
  userMessages : ℕ
  assistantMessages : ℕ
  toolUses : ℕ
  inputTokens : Addend
  outputTokens : Addend
  estimatedCost : JsNumber
  firstMessageAt : Option Json
  lastMessageAt : Option Json
  lastUserPrompt : Option String
  isActive : Bool

/-- `MODEL_PRICING`: the cost of a million tokens of input, and of output. -/
def sessionPricing : List (String × JsNumber × JsNumber) :=
  [("claude-opus-4-6", .finite 15, .finite 75), ("claude-sonnet-4-6", .finite 3, .finite 15),
    ("claude-haiku-4-5", .rounded (4 / 5), .finite 4)]

/-- The cost of a token of input, and of output, of a model. What the table inherits is not
`undefined`, and has no costs. -/
def tokenCosts (site : TranscriptSite) (model : Option Json) :
    Except Exception (JsNumber × JsNumber) := do
  let perToken := fun costs : JsNumber × JsNumber =>
    (costs.1.div (.finite 1000000), costs.2.div (.finite 1000000))
  match model with
  | none => .ok (perToken (.finite 3, .finite 15))
  | some model =>
    let key ← model.toStr site.rt
    match sessionPricing.lookup key with
    | some costs => .ok (perToken costs)
    | none => .ok (if key ∈ objectPrototype then (.nan, .nan) else perToken (.finite 3, .finite 15))

/-- `estimatedCost`, to four digits. -/
def estimatedCost (site : TranscriptSite) (s : TranscriptScan) (costs : JsNumber × JsNumber) :
    JsNumber :=
  let cost := ((s.inputTokens.number site.rt).mul costs.1).add
    ((s.outputTokens.number site.rt).mul costs.2)
  (mathRound (cost.mul (.finite 10000))).div (.finite 10000)

/-- `Date.now() - time < ACTIVE_THRESHOLD_MS`. -/
def isRecent (now : ℕ) : Option ℤ → Bool
  | some time => (now : ℤ) - time < 5 * 60 * 1000
  | none => false

/-- `isActive`. -/
def isActiveAt (site : TranscriptSite) (now : ℕ) (lastMessageAt : Option Json) :
    Except Exception Bool :=
  match lastMessageAt with
  | some timestamp => do
    let time ← dateValue site timestamp
    .ok (isRecent now time)
  | none => .ok false

/-- The statistics of what was kept of a session. -/
def TranscriptScan.statsOf (site : TranscriptSite) (projectSlug : String) (s : TranscriptScan)
    (sessionId : Json) (costs : JsNumber × JsNumber) (isActive : Bool) : SessionStats where
  sessionId := sessionId
  projectSlug := projectSlug
  projectPath := s.projectPath
  model := s.model
  gitBranch := s.gitBranch
  userMessages := s.userMessages
  assistantMessages := s.assistantMessages
  toolUses := s.toolUses
  inputTokens := s.inputTokens
  outputTokens := s.outputTokens
  estimatedCost := estimatedCost site s costs
  firstMessageAt := s.firstMessageAt
  lastMessageAt := s.lastMessageAt
  lastUserPrompt := s.lastUserPrompt
  isActive := isActive

/-- The statistics of what was kept, if that has a session. -/
def TranscriptScan.stats (site : TranscriptSite) (now : ℕ) (projectSlug : String)
    (s : TranscriptScan) : Except Exception (Option SessionStats) :=
  match s.sessionId with
  | none => .ok none
  | some sessionId => do
    let costs ← tokenCosts site s.model
    let isActive ← isActiveAt site now s.lastMessageAt
    .ok (some (s.statsOf site projectSlug sessionId costs isActive))

/-- The lines of a file, but for empty ones. -/
def transcriptLines (content : List Char) : List (List Char) :=
  (content.splitOn '\n').filter fun line => line ≠ []

/-- The statistics of a file, and none where an error is caught. -/
def caught : Except Exception (Option SessionStats) → Option SessionStats
  | .ok stats => stats
  | .error _ => none

/-- **`parseSessionFile`**, of a file with a content if it can be read. -/
def parseSessionFile (site : TranscriptSite) (now : ℕ) (content : Option (List Char))
    (projectSlug : String) : Option SessionStats :=
  match content with
  | none => none
  | some content =>
    let lines := transcriptLines content
    if lines = [] then none
    else
      caught (lines.foldlM (TranscriptScan.readLine site) {} >>=
        TranscriptScan.stats site now projectSlug)

end MissionControl
