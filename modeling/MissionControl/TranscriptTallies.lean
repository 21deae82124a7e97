import MissionControl.Library.Accumulators
import MissionControl.Library.Lines
import MissionControl.Transcripts

/-!
# What transcripts add up to

What an entry says of a session is its tally, and the tallies of entries that follow one
another add up: of some fields the first value counts, of others the last one, and counts
are summed. The tokens are kept one by one, as their sum rounds.

The loop of `parseSessionFile` adds the tallies of its entries to what it has kept, as long
as all of them can be read (`foldlM_readLine_eq_ok`), and the statistics of a file are those
of the tally of its lines (`parseSessionFile_eq_some`).
-/

namespace MissionControl

/-! ## Tallies -/

/-- **What entries say of a session.** -/
@[ext] structure Tally where
  sessionId : Option Json
  model : Option Json
  gitBranch : Option Json
  projectPath : Option Json
  userMessages : ℕ
  assistantMessages : ℕ
  toolUses : ℕ
  /-- The tokens of each usage: of its input and of its output. -/
  tokens : List (Addend × Addend)
  firstMessageAt : Option Json
  lastMessageAt : Option Json
  lastUserPrompt : Option String

namespace Tally

instance : Zero Tally := ⟨⟨none, none, none, none, 0, 0, 0, [], none, none, none⟩⟩

instance : Add Tally where
  add s t :=
    { sessionId := s.sessionId.or t.sessionId
      model := t.model.or s.model
      gitBranch := s.gitBranch.or t.gitBranch
      projectPath := s.projectPath.or t.projectPath
      userMessages := s.userMessages + t.userMessages
      assistantMessages := s.assistantMessages + t.assistantMessages
      toolUses := s.toolUses + t.toolUses
      tokens := s.tokens ++ t.tokens
      firstMessageAt := s.firstMessageAt.or t.firstMessageAt
      lastMessageAt := t.lastMessageAt.or s.lastMessageAt
      lastUserPrompt := t.lastUserPrompt.or s.lastUserPrompt }

/-- **Tallies add up** in the order of their entries. -/
instance : AddMonoid Tally where
  zero_add t :=
    Tally.ext rfl Option.or_none rfl rfl (Nat.zero_add _) (Nat.zero_add _) (Nat.zero_add _)
      rfl rfl Option.or_none Option.or_none
  add_zero t :=
    Tally.ext Option.or_none rfl Option.or_none Option.or_none rfl rfl rfl (List.append_nil _)
      Option.or_none rfl rfl
  add_assoc s t u :=
    Tally.ext Option.or_assoc Option.or_assoc.symm Option.or_assoc Option.or_assoc
      (Nat.add_assoc _ _ _) (Nat.add_assoc _ _ _) (Nat.add_assoc _ _ _)
      (List.append_assoc _ _ _) Option.or_assoc Option.or_assoc.symm Option.or_assoc.symm
  nsmul := nsmulRec

end Tally

/-- **The parts of which the first value counts.** -/
theorem first_sessionId : Accumulators.First Tally.sessionId := ⟨rfl, fun _ _ => rfl⟩

theorem first_gitBranch : Accumulators.First Tally.gitBranch := ⟨rfl, fun _ _ => rfl⟩

theorem first_projectPath : Accumulators.First Tally.projectPath := ⟨rfl, fun _ _ => rfl⟩

theorem first_firstMessageAt : Accumulators.First Tally.firstMessageAt := ⟨rfl, fun _ _ => rfl⟩

/-- **The parts of which the last value counts.** -/
theorem last_model : Accumulators.Last Tally.model := ⟨rfl, fun _ _ => rfl⟩

theorem last_lastMessageAt : Accumulators.Last Tally.lastMessageAt := ⟨rfl, fun _ _ => rfl⟩

theorem last_lastUserPrompt : Accumulators.Last Tally.lastUserPrompt := ⟨rfl, fun _ _ => rfl⟩

/-- A property of an entry that counts as true. -/
def fieldOf (key : String) (entry : Json) : Option Json :=
  (Json.get? (some entry) key).filter fun x => Json.truthy (some x)

/-- The message of an entry of a type, unless it is that of a sidechain. -/
def messageOf (type : String) (entry : Json) : Option Json :=
  if Json.truthy (Json.get? (some entry) "isSidechain") then none
  else if Json.equalsText (Json.get? (some entry) "type") type then fieldOf "message" entry
  else none

def promptOf (message : Json) : Option String :=
  match Json.get? (some message) "content" with
  | some (.str text) =>
    if text ≠ "" then some (String.ofList (sliceUnits 500 text.toList)) else none
  | _ => none

def blocksOf (message : Json) : List Json :=
  match Json.get? (some message) "content" with
  | some (.arr blocks) => blocks
  | _ => []

/-- The tokens of a message, if it says them. -/
def tokensOf (site : TranscriptSite) (message : Json) : Option (Addend × Addend) :=
  (fieldOf "usage" message).bind fun usage => (usageTokens site (some usage)).toOption

def isToolUse (block : Json) : Bool := Json.equalsText (Json.get? (some block) "type") "tool_use"

/-- **What an entry says.** -/
def entryTally (site : TranscriptSite) (entry : Json) : Tally :=
  let user := messageOf "user" entry
  let assistant := messageOf "assistant" entry
  { sessionId := fieldOf "sessionId" entry
    model := assistant.bind (fieldOf "model")
    gitBranch := fieldOf "gitBranch" entry
    projectPath := fieldOf "cwd" entry
    userMessages := user.toList.length
    assistantMessages := assistant.toList.length
    toolUses := (assistant.toList.flatMap blocksOf).countP isToolUse
    tokens := (assistant.bind (tokensOf site)).toList
    firstMessageAt := fieldOf "timestamp" entry
    lastMessageAt := fieldOf "timestamp" entry
    lastUserPrompt := user.bind promptOf }

def entriesOf (site : TranscriptSite) (lines : List (List Char)) : List Json :=
  lines.filterMap (Json.parse site.rt)

/-- **What lines say.** -/
def tally (site : TranscriptSite) (lines : List (List Char)) : Tally :=
  ((entriesOf site lines).map (entryTally site)).sum

/-- **The first value** that the entries of lines have. -/
def firstIn {β : Type} (site : TranscriptSite) (value : Json → Option β)
    (lines : List (List Char)) : Option β :=
  (entriesOf site lines).findSome? value

/-- **The last value** that the entries of lines have. -/
def lastIn {β : Type} (site : TranscriptSite) (value : Json → Option β)
    (lines : List (List Char)) : Option β :=
  ((entriesOf site lines).filterMap value).getLast?

/-- What has been kept when a tally is added. -/
def TranscriptScan.after (site : TranscriptSite) (s : TranscriptScan) (t : Tally) :
    TranscriptScan where
  sessionId := s.sessionId.or t.sessionId
  model := t.model.or s.model
  gitBranch := s.gitBranch.or t.gitBranch
  projectPath := s.projectPath.or t.projectPath
  userMessages := s.userMessages + t.userMessages
  assistantMessages := s.assistantMessages + t.assistantMessages
  toolUses := s.toolUses + t.toolUses
  inputTokens := t.tokens.foldl (fun sum tokens => sum.plus site tokens.1) s.inputTokens
  outputTokens := t.tokens.foldl (fun sum tokens => sum.plus site tokens.2) s.outputTokens
  firstMessageAt := s.firstMessageAt.or t.firstMessageAt
  lastMessageAt := t.lastMessageAt.or s.lastMessageAt
  lastUserPrompt := t.lastUserPrompt.or s.lastUserPrompt

/-! ## Entries that can be read -/

def tokenKeys : List String :=
  ["input_tokens", "cache_read_input_tokens", "cache_creation_input_tokens", "output_tokens"]

/-- **The value has a text**: it does not hide how objects are converted. -/
def Json.HasText (rt : Runtime) (x : Json) : Prop := ∃ text, x.toStr rt = .ok text

/-- **An entry can be read**: it is not `null`, and neither is a block of its message, and
the counts of its tokens have texts. -/
structure Json.Readable (rt : Runtime) (entry : Json) : Prop where
  ne_null : entry ≠ .null
  tokens : ∀ message, messageOf "assistant" entry = some message →
    ∀ usage, fieldOf "usage" message = some usage →
      ∀ key ∈ tokenKeys, ∀ x, Json.get? (some usage) key = some x → x.HasText rt
  blocks : ∀ message, messageOf "assistant" entry = some message → .null ∉ blocksOf message

/-! ## One entry -/

section Entry

variable {site : TranscriptSite} {s : TranscriptScan}

theorem get_eq {x : Json} (hx : x ≠ .null) (key : String) :
    Json.get (some x) key = .ok (Json.get? (some x) key) := by
  cases x with
  | null => exact absurd rfl hx
  | bool b | num n | str t | arr xs | obj fields => rfl

theorem fieldOf_eq_some {key : String} {entry x : Json} :
    fieldOf key entry = some x
      ↔ Json.get? (some entry) key = some x ∧ Json.truthy (some x) = true :=
  Option.filter_eq_some_iff

theorem fieldOf_eq_ite (key : String) (entry : Json) :
    fieldOf key entry
      = if Json.truthy (Json.get? (some entry) key) then Json.get? (some entry) key else none := by
  unfold fieldOf
  cases Json.get? (some entry) key with
  | none => rfl
  | some x => exact Option.filter_some

theorem ne_null_of_fieldOf {key : String} {entry x : Json} (h : fieldOf key entry = some x) :
    x ≠ .null := by
  rintro rfl
  cases (fieldOf_eq_some.mp h).2

theorem ne_null_of_messageOf {type : String} {entry message : Json}
    (h : messageOf type entry = some message) : message ≠ .null := by
  unfold messageOf at h
  split at h
  · cases h
  · exact ne_null_of_fieldOf (Option.ite_none_right_eq_some.mp h).2

theorem keepFirst_eq {entry : Json} (hentry : entry ≠ .null) (x : Option Json) (key : String) :
    keepFirst x entry key = .ok (x.or (fieldOf key entry)) := by
  cases x with
  | some x => rfl
  | none =>
    unfold keepFirst
    dsimp only
    rw [get_eq hentry, ok_bind, Option.none_or, fieldOf_eq_ite]

theorem hasText_of_falsy {rt : Runtime} {x : Json} (h : ¬ Json.truthy (some x)) : x.HasText rt := by
  cases x with
  | null => exact ⟨_, rfl⟩
  | bool b => exact ⟨_, rfl⟩
  | num n => exact ⟨_, rfl⟩
  | str t => exact ⟨_, rfl⟩
  | arr xs => exact absurd rfl h
  | obj fields => exact absurd rfl h

theorem toAddend_ok_iff {rt : Runtime} {x : Json} :
    (∃ addend, x.toAddend rt = .ok addend) ↔ x.HasText rt := by
  have hprimitive : ∀ addend text, x.toAddend rt = .ok addend → x.toStr rt = .ok text →
      ((∃ addend, x.toAddend rt = .ok addend) ↔ x.HasText rt) :=
    fun addend text haddend htext => ⟨fun _ => ⟨text, htext⟩, fun _ => ⟨addend, haddend⟩⟩
  have hobject : x.toAddend rt = (do
      let text ← x.toStr rt
      .ok (.str text)) →
      ((∃ addend, x.toAddend rt = .ok addend) ↔ x.HasText rt) := by
    intro h
    rw [h]
    refine ⟨fun ⟨addend, haddend⟩ => ?_, fun ⟨text, htext⟩ => ⟨.str text, ?_⟩⟩
    · obtain ⟨text, htext, -⟩ := bind_eq_ok.mp haddend
      exact ⟨text, htext⟩
    · exact bind_eq_ok.mpr ⟨text, htext, rfl⟩
  cases x with
  | null => exact hprimitive _ _ rfl rfl
  | bool b => exact hprimitive _ _ rfl rfl
  | num n => exact hprimitive _ _ rfl rfl
  | str t => exact hprimitive _ _ rfl rfl
  | arr xs => exact hobject rfl
  | obj fields => exact hobject rfl

theorem usageCount_ok_iff {rt : Runtime} {usage : Json} (husage : usage ≠ .null) {key : String} :
    (∃ addend, usageCount rt (some usage) key = .ok addend)
      ↔ ∀ x, Json.get? (some usage) key = some x → x.HasText rt := by
  unfold usageCount
  rw [get_eq husage, ok_bind]
  cases Json.get? (some usage) key with
  | none => exact ⟨fun _ x hx => (by cases hx), fun _ => ⟨_, rfl⟩⟩
  | some x =>
    have hor : Json.or (some x) (.num (.finite 0))
        = if Json.truthy (some x) then x else .num (.finite 0) := rfl
    rw [hor]
    by_cases hx : Json.truthy (some x)
    · rw [if_pos hx, toAddend_ok_iff]
      exact ⟨fun h y hy => Option.some.inj hy ▸ h, fun h => h x rfl⟩
    · rw [if_neg hx]
      exact ⟨fun _ y hy => Option.some.inj hy ▸ hasText_of_falsy hx, fun _ => ⟨_, rfl⟩⟩

theorem usageTokens_ok_iff (site : TranscriptSite) {usage : Json} (husage : usage ≠ .null) :
    (∃ tokens, usageTokens site (some usage) = .ok tokens)
      ↔ ∀ key ∈ tokenKeys, ∀ x, Json.get? (some usage) key = some x → x.HasText site.rt := by
  have hkeys : (∀ key ∈ tokenKeys, ∃ addend, usageCount site.rt (some usage) key = .ok addend)
      ↔ ∀ key ∈ tokenKeys, ∀ x, Json.get? (some usage) key = some x → x.HasText site.rt :=
    forall₂_congr fun key _ => usageCount_ok_iff husage
  rw [← hkeys]
  unfold usageTokens
  constructor
  · rintro ⟨tokens, h⟩
    obtain ⟨input, hinput, h⟩ := bind_eq_ok.mp h
    obtain ⟨cacheRead, hcacheRead, h⟩ := bind_eq_ok.mp h
    obtain ⟨cacheCreation, hcacheCreation, h⟩ := bind_eq_ok.mp h
    obtain ⟨output, houtput, -⟩ := bind_eq_ok.mp h
    simp only [tokenKeys, List.forall_mem_cons]
    exact ⟨⟨_, hinput⟩, ⟨_, hcacheRead⟩, ⟨_, hcacheCreation⟩, ⟨_, houtput⟩, List.forall_mem_nil _⟩
  · intro h
    simp only [tokenKeys, List.forall_mem_cons] at h
    obtain ⟨⟨input, hinput⟩, ⟨cacheRead, hcacheRead⟩, ⟨cacheCreation, hcacheCreation⟩,
      ⟨output, houtput⟩, -⟩ := h
    rw [hinput, hcacheRead, hcacheCreation, houtput]
    exact ⟨_, rfl⟩

theorem countToolUses_eq_ok {blocks : List Json} {n : ℕ} :
    countToolUses blocks = .ok n ↔ .null ∉ blocks ∧ n = blocks.countP isToolUse := by
  induction blocks generalizing n with
  | nil => exact ⟨fun h => ⟨List.not_mem_nil, (Except.ok.inj h).symm⟩, fun h => h.2 ▸ rfl⟩
  | cons block blocks ih =>
    unfold countToolUses
    by_cases hblock : block = .null
    · subst hblock
      exact ⟨fun h => (by cases h), fun h => absurd List.mem_cons_self h.1⟩
    · rw [get_eq hblock, ok_bind, bind_eq_ok, List.countP_cons]
      have hmem : .null ∉ block :: blocks ↔ .null ∉ blocks :=
        not_congr (List.mem_cons.trans (or_iff_right (Ne.symm hblock)))
      rw [hmem]
      constructor
      · rintro ⟨m, hm, h⟩
        obtain ⟨hblocks, rfl⟩ := ih.mp hm
        exact ⟨hblocks, (Except.ok.inj h).symm.trans (Nat.add_comm _ _)⟩
      · rintro ⟨hblocks, rfl⟩
        exact ⟨_, ih.mpr ⟨hblocks, rfl⟩, congrArg Except.ok (Nat.add_comm _ _)⟩

theorem readUser_eq {message : Json} (hmessage : message ≠ .null) :
    s.readUser (some message) = .ok { s with
      userMessages := s.userMessages + 1
      lastUserPrompt := (promptOf message).or s.lastUserPrompt } := by
  unfold TranscriptScan.readUser promptOf
  rw [get_eq hmessage, ok_bind]
  refine congrArg Except.ok ?_
  cases Json.get? (some message) "content" with
  | none => rfl
  | some x =>
    cases x with
    | str text =>
      dsimp only
      by_cases htext : text ≠ ""
      · rw [if_pos htext, if_pos htext, Option.some_or]
      · rw [if_neg htext, if_neg htext, Option.none_or]
    | null => rfl
    | bool b => rfl
    | num n => rfl
    | arr xs => rfl
    | obj fields => rfl

theorem ite_truthy_eq_or (key : String) (entry : Json) (x : Option Json) :
    (if Json.truthy (Json.get? (some entry) key) then Json.get? (some entry) key else x)
      = (fieldOf key entry).or x := by
  rw [fieldOf_eq_ite]
  cases Json.get? (some entry) key with
  | none => rfl
  | some y => by_cases hy : Json.truthy (some y) <;> simp only [hy] <;> rfl

theorem addUsage_eq_ok {message : Json} {r : TranscriptScan} :
    s.addUsage site (Json.get? (some message) "usage") = .ok r
      ↔ (∀ usage, fieldOf "usage" message = some usage → ∀ key ∈ tokenKeys, ∀ x,
          Json.get? (some usage) key = some x → x.HasText site.rt)
        ∧ r = { s with
          inputTokens := (tokensOf site message).toList.foldl
            (fun sum tokens => sum.plus site tokens.1) s.inputTokens
          outputTokens := (tokensOf site message).toList.foldl
            (fun sum tokens => sum.plus site tokens.2) s.outputTokens } := by
  unfold TranscriptScan.addUsage tokensOf
  cases husage : fieldOf "usage" message with
  | none =>
    have hfalsy : ¬ Json.truthy (Json.get? (some message) "usage") := by
      intro h
      rw [fieldOf_eq_ite, if_pos h] at husage
      rw [husage] at h
      cases h
    rw [if_neg hfalsy]
    exact ⟨fun h => ⟨fun _ h => (by cases h), (Except.ok.inj h).symm⟩, fun h => h.2 ▸ rfl⟩
  | some usage =>
    obtain ⟨hget, htruthy⟩ := fieldOf_eq_some.mp husage
    rw [hget, if_pos htruthy, bind_eq_ok]
    have hreads := usageTokens_ok_iff site (ne_null_of_fieldOf husage)
    constructor
    · rintro ⟨tokens, htokens, h⟩
      refine ⟨fun u hu => ?_, ?_⟩
      · obtain rfl := Option.some.inj hu
        exact hreads.mp ⟨tokens, htokens⟩
      · rw [Option.bind_some, htokens]
        exact (Except.ok.inj h).symm
    · rintro ⟨htexts, rfl⟩
      obtain ⟨tokens, htokens⟩ := hreads.mpr (htexts usage rfl)
      rw [Option.bind_some, htokens]
      exact ⟨tokens, rfl, rfl⟩

theorem addToolUses_eq_ok {message : Json} {r : TranscriptScan} :
    s.addToolUses (Json.get? (some message) "content") = .ok r
      ↔ .null ∉ blocksOf message
        ∧ r = { s with toolUses := s.toolUses + (blocksOf message).countP isToolUse } := by
  have hnone : Except.ok s = Except.ok (ε := Exception) r
      ↔ Json.null ∉ [] ∧ r = { s with toolUses := s.toolUses + [].countP isToolUse } :=
    ⟨fun h => ⟨List.not_mem_nil, (Except.ok.inj h).symm⟩, fun h => h.2 ▸ rfl⟩
  unfold TranscriptScan.addToolUses blocksOf
  cases Json.get? (some message) "content" with
  | none => exact hnone
  | some x =>
    cases x with
    | arr blocks =>
      dsimp only
      rw [bind_eq_ok]
      constructor
      · rintro ⟨n, hn, h⟩
        obtain ⟨hblocks, rfl⟩ := countToolUses_eq_ok.mp hn
        exact ⟨hblocks, (Except.ok.inj h).symm⟩
      · rintro ⟨hblocks, rfl⟩
        exact ⟨_, countToolUses_eq_ok.mpr ⟨hblocks, rfl⟩, rfl⟩
    | null => exact hnone
    | bool b => exact hnone
    | num n => exact hnone
    | str t => exact hnone
    | obj fields => exact hnone

/-- **A message of an assistant** is read if its counts have texts and its blocks are not
`null`. -/
theorem readAssistant_eq_ok {message : Json} (hmessage : message ≠ .null) {r : TranscriptScan} :
    s.readAssistant site (some message) = .ok r
      ↔ ((∀ usage, fieldOf "usage" message = some usage → ∀ key ∈ tokenKeys, ∀ x,
          Json.get? (some usage) key = some x → x.HasText site.rt) ∧ .null ∉ blocksOf message)
        ∧ r = { s with
          assistantMessages := s.assistantMessages + 1
          model := (fieldOf "model" message).or s.model
          inputTokens := (tokensOf site message).toList.foldl
            (fun sum tokens => sum.plus site tokens.1) s.inputTokens
          outputTokens := (tokensOf site message).toList.foldl
            (fun sum tokens => sum.plus site tokens.2) s.outputTokens
          toolUses := s.toolUses + (blocksOf message).countP isToolUse } := by
  unfold TranscriptScan.readAssistant
  rw [get_eq hmessage, ok_bind, get_eq hmessage, ok_bind, get_eq hmessage, bind_eq_ok]
  simp only [ok_bind, addUsage_eq_ok, addToolUses_eq_ok, ite_truthy_eq_or]
  constructor
  · rintro ⟨between, ⟨htexts, rfl⟩, hblocks, rfl⟩
    exact ⟨⟨htexts, hblocks⟩, rfl⟩
  · rintro ⟨⟨htexts, hblocks⟩, rfl⟩
    exact ⟨_, ⟨htexts, rfl⟩, hblocks, rfl⟩

theorem ofType_eq {type : String} {entry : Json}
    (read : Option Json → Except Exception TranscriptScan)
    (hmain : ¬ Json.truthy (Json.get? (some entry) "isSidechain")) :
    s.ofType type (Json.get? (some entry) "type") (Json.get? (some entry) "message") read
      = (messageOf type entry).elim (.ok s) fun message => read (some message) := by
  unfold TranscriptScan.ofType messageOf
  rw [if_neg hmain, fieldOf_eq_ite]
  by_cases htype : Json.equalsText (Json.get? (some entry) "type") type
  · rw [if_pos htype, htype, Bool.true_and]
    split
    · next h =>
      cases hget : Json.get? (some entry) "message" with
      | none =>
        rw [hget] at h
        cases h
      | some message => rfl
    · rfl
  · rw [if_neg htype, Bool.eq_false_of_not_eq_true htype, Bool.false_and]
    rfl

theorem readTimestamp_eq (s : TranscriptScan) (entry : Json) :
    s.readTimestamp (Json.get? (some entry) "timestamp") = { s with
      firstMessageAt := s.firstMessageAt.or (fieldOf "timestamp" entry)
      lastMessageAt := (fieldOf "timestamp" entry).or s.lastMessageAt } := by
  unfold TranscriptScan.readTimestamp
  rw [fieldOf_eq_ite]
  split
  · next h =>
    cases hget : Json.get? (some entry) "timestamp" with
    | none =>
      rw [hget] at h
      cases h
    | some x => rw [Option.some_or]
  · rw [Option.or_none, Option.none_or]

theorem elim_readUser (s : TranscriptScan) (entry : Json) :
    (messageOf "user" entry).elim (.ok s) (fun message => s.readUser (some message))
      = .ok { s with
        userMessages := s.userMessages + (messageOf "user" entry).toList.length
        lastUserPrompt := ((messageOf "user" entry).bind promptOf).or s.lastUserPrompt } := by
  cases hmessage : messageOf "user" entry with
  | none => rfl
  | some message => exact readUser_eq (ne_null_of_messageOf hmessage)

theorem elim_readAssistant_eq_ok {entry : Json} (hnull : entry ≠ .null) {r : TranscriptScan} :
    (messageOf "assistant" entry).elim (.ok s)
        (fun message => s.readAssistant site (some message)) = .ok r
      ↔ entry.Readable site.rt ∧ r = { s with
        assistantMessages := s.assistantMessages + (messageOf "assistant" entry).toList.length
        model := ((messageOf "assistant" entry).bind (fieldOf "model")).or s.model
        inputTokens := ((messageOf "assistant" entry).bind (tokensOf site)).toList.foldl
          (fun sum tokens => sum.plus site tokens.1) s.inputTokens
        outputTokens := ((messageOf "assistant" entry).bind (tokensOf site)).toList.foldl
          (fun sum tokens => sum.plus site tokens.2) s.outputTokens
        toolUses := s.toolUses
          + ((messageOf "assistant" entry).toList.flatMap blocksOf).countP isToolUse } := by
  have hreadable : entry.Readable site.rt
      ↔ ∀ message, messageOf "assistant" entry = some message →
        (∀ usage, fieldOf "usage" message = some usage → ∀ key ∈ tokenKeys, ∀ x,
          Json.get? (some usage) key = some x → x.HasText site.rt) ∧ .null ∉ blocksOf message :=
    ⟨fun h message hmessage => ⟨h.tokens message hmessage, h.blocks message hmessage⟩,
      fun h => ⟨hnull, fun message hmessage => (h message hmessage).1,
        fun message hmessage => (h message hmessage).2⟩⟩
  rw [hreadable]
  cases hmessage : messageOf "assistant" entry with
  | none => exact ⟨fun h => ⟨fun _ h => (by cases h), (Except.ok.inj h).symm⟩, fun h => h.2 ▸ rfl⟩
  | some message =>
    rw [Option.elim_some, readAssistant_eq_ok (ne_null_of_messageOf hmessage), Option.bind_some,
      Option.bind_some, Option.toList_some, List.flatMap_singleton]
    exact and_congr_left fun _ =>
      ⟨fun h m hm => Option.some.inj hm ▸ h, fun h => h message rfl⟩

/-- **What reading an entry adds** is its tally. -/
theorem readEntry_eq_ok {entry : Json} {r : TranscriptScan} :
    s.readEntry site entry = .ok r
      ↔ entry.Readable site.rt ∧ r = s.after site (entryTally site entry) := by
  by_cases hnull : entry = .null
  · subst hnull
    refine ⟨fun h => ?_, fun h => absurd rfl h.1.ne_null⟩
    obtain ⟨_, _, h⟩ := bind_eq_ok.mp h
    obtain ⟨_, _, h⟩ := bind_eq_ok.mp h
    obtain ⟨_, _, h⟩ := bind_eq_ok.mp h
    obtain ⟨_, htimestamp, _⟩ := bind_eq_ok.mp h
    cases htimestamp
  · unfold TranscriptScan.readEntry
    simp only [keepFirst_eq hnull, get_eq hnull, ok_bind, readTimestamp_eq]
    by_cases hside : Json.truthy (Json.get? (some entry) "isSidechain")
    · have hnone : ∀ type, messageOf type entry = none := fun type => if_pos hside
      have hreadable : entry.Readable site.rt := by
        refine ⟨hnull, fun m hm => ?_, fun m hm => ?_⟩
        · rw [hnone] at hm
          cases hm
        · rw [hnone] at hm
          cases hm
      rw [if_pos hside, and_iff_right hreadable]
      simp only [entryTally, hnone]
      exact ⟨fun h => (Except.ok.inj h).symm, fun h => h ▸ rfl⟩
    · rw [if_neg hside]
      simp only [ofType_eq _ hside, elim_readUser, ok_bind, elim_readAssistant_eq_ok hnull]
      rfl

end Entry

/-! ## All of them -/

section Run

variable {site : TranscriptSite}

theorem tally_append (A B : List (List Char)) :
    tally site (A ++ B) = tally site A + tally site B := by
  unfold tally entriesOf
  rw [List.filterMap_append, List.map_append, List.sum_append]

theorem tally_cons (line : List Char) (lines : List (List Char)) :
    tally site (line :: lines)
      = ((Json.parse site.rt line).elim 0 (entryTally site)) + tally site lines := by
  unfold tally entriesOf
  cases hparse : Json.parse site.rt line with
  | none => rw [List.filterMap_cons_none hparse, Option.elim_none, zero_add]
  | some entry =>
    rw [List.filterMap_cons_some hparse, List.map_cons, List.sum_cons, Option.elim_some]

/-- A part of the tally of lines is the first value that their entries have. -/
theorem first_tally {β : Type} {part : Tally → Option β} (h : Accumulators.First part)
    (lines : List (List Char)) :
    part (tally site lines) = firstIn site (fun entry => part (entryTally site entry)) lines := by
  unfold tally firstIn
  rw [h.sum, List.findSome?_map]
  rfl

/-- A part of the tally of lines is the last value that their entries have. -/
theorem last_tally {β : Type} {part : Tally → Option β} (h : Accumulators.Last part)
    (lines : List (List Char)) :
    part (tally site lines) = lastIn site (fun entry => part (entryTally site entry)) lines := by
  unfold tally lastIn
  rw [h.sum, List.filterMap_map]
  rfl

theorem after_zero (s : TranscriptScan) : s.after site 0 = s :=
  TranscriptScan.ext Option.or_none rfl Option.or_none Option.or_none rfl rfl rfl rfl rfl
    Option.or_none rfl rfl

theorem after_add (s : TranscriptScan) (t u : Tally) :
    s.after site (t + u) = (s.after site t).after site u :=
  TranscriptScan.ext Option.or_assoc.symm Option.or_assoc Option.or_assoc.symm
    Option.or_assoc.symm (Nat.add_assoc _ _ _).symm (Nat.add_assoc _ _ _).symm
    (Nat.add_assoc _ _ _).symm List.foldl_append List.foldl_append Option.or_assoc.symm
    Option.or_assoc Option.or_assoc

/-- **The loop adds the tally of its lines**, as long as their entries can be read. -/
theorem foldlM_readLine_eq_ok {lines : List (List Char)} {s r : TranscriptScan} :
    lines.foldlM (TranscriptScan.readLine site) s = .ok r
      ↔ (∀ entry ∈ entriesOf site lines, entry.Readable site.rt)
        ∧ r = s.after site (tally site lines) := by
  induction lines generalizing s with
  | nil =>
    have hzero : tally site [] = 0 := rfl
    rw [hzero, after_zero]
    exact ⟨fun h => ⟨List.forall_mem_nil _, (Except.ok.inj h).symm⟩, fun h => h.2 ▸ rfl⟩
  | cons line lines ih =>
    rw [List.foldlM_cons, tally_cons, after_add]
    unfold TranscriptScan.readLine entriesOf
    cases hparse : Json.parse site.rt line with
    | none =>
      rw [List.filterMap_cons_none hparse, Option.elim_none, after_zero]
      exact ih
    | some entry =>
      rw [List.filterMap_cons_some hparse, List.forall_mem_cons, Option.elim_some]
      dsimp only
      rw [bind_eq_ok]
      constructor
      · rintro ⟨between, hentry, hrest⟩
        obtain ⟨hreadable, rfl⟩ := readEntry_eq_ok.mp hentry
        obtain ⟨hall, rfl⟩ := ih.mp hrest
        exact ⟨⟨hreadable, hall⟩, rfl⟩
      · rintro ⟨⟨hreadable, hall⟩, rfl⟩
        exact ⟨_, readEntry_eq_ok.mpr ⟨hreadable, rfl⟩, ih.mpr ⟨hall, rfl⟩⟩

/-- **A transcript** of lines. -/
def transcript (lines : List (List Char)) : List Char := ['\n'].intercalate lines

theorem transcriptLines_transcript {lines : List (List Char)} (h : ∀ line ∈ lines, '\n' ∉ line) :
    transcriptLines (transcript lines) = lines.filter fun line => line ≠ [] := by
  unfold transcriptLines transcript
  by_cases hlines : lines = []
  · subst hlines
    rfl
  · rw [List.splitOn_intercalate '\n' h hlines]

theorem entriesOf_filter (site : TranscriptSite) (lines : List (List Char)) :
    entriesOf site (lines.filter fun line => line ≠ []) = entriesOf site lines := by
  unfold entriesOf
  rw [List.filterMap_filter]
  refine List.filterMap_congr fun line _ => ?_
  by_cases hline : line = []
  · subst hline
    rfl
  · rw [if_pos (decide_eq_true hline)]

theorem caught_eq_some {x : Except Exception (Option SessionStats)} {stats : SessionStats} :
    caught x = some stats ↔ x = .ok (some stats) := by
  cases x with
  | ok y => exact ⟨fun h => congrArg Except.ok h, fun h => Except.ok.inj h⟩
  | error e => exact ⟨fun h => (by cases h), fun h => (by cases h)⟩

theorem stats_eq_some {s : TranscriptScan} {now : ℕ} {slug : String} {stats : SessionStats}
    (h : s.stats site now slug = .ok (some stats)) :
    ∃ sessionId costs isActive, s.sessionId = some sessionId
      ∧ isActiveAt site now s.lastMessageAt = .ok isActive
      ∧ stats = s.statsOf site slug sessionId costs isActive := by
  unfold TranscriptScan.stats at h
  cases hid : s.sessionId with
  | none =>
    rw [hid] at h
    cases h
  | some sessionId =>
    rw [hid] at h
    obtain ⟨costs, -, h⟩ := bind_eq_ok.mp h
    obtain ⟨isActive, hactive, h⟩ := bind_eq_ok.mp h
    exact ⟨sessionId, costs, isActive, rfl, hactive, (Option.some.inj (Except.ok.inj h)).symm⟩

/-- **The statistics of a file** are those of the tally of its lines. -/
theorem parseSessionFile_eq_some {now : ℕ} {slug : String} {lines : List (List Char)}
    (h : ∀ line ∈ lines, '\n' ∉ line) {stats : SessionStats} :
    parseSessionFile site now (some (transcript lines)) slug = some stats
      ↔ (∀ entry ∈ entriesOf site lines, entry.Readable site.rt)
        ∧ (TranscriptScan.after site {} (tally site lines)).stats site now slug
          = .ok (some stats) := by
  have hentries := entriesOf_filter site lines
  have htally : tally site (lines.filter fun line => line ≠ []) = tally site lines := by
    unfold tally
    rw [hentries]
  unfold parseSessionFile
  dsimp only
  rw [transcriptLines_transcript h]
  split
  · next hnil =>
    have hzero : tally site lines = 0 := by
      rw [← htally, hnil]
      rfl
    rw [hzero, after_zero]
    exact ⟨fun h => (by cases h), fun h => (by cases h.2)⟩
  · rw [caught_eq_some, bind_eq_ok]
    constructor
    · rintro ⟨scan, hscan, hstats⟩
      obtain ⟨hreadable, rfl⟩ := foldlM_readLine_eq_ok.mp hscan
      rw [hentries] at hreadable
      rw [htally] at hstats
      exact ⟨hreadable, hstats⟩
    · rintro ⟨hreadable, hstats⟩
      rw [← hentries] at hreadable
      rw [← htally] at hstats
      exact ⟨_, foldlM_readLine_eq_ok.mpr ⟨hreadable, rfl⟩, hstats⟩

end Run

end MissionControl
