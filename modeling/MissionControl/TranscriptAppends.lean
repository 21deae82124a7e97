import Mathlib.Algebra.Order.BigOperators.Group.List
import Mathlib.Algebra.Order.Group.Nat
import Mathlib.Algebra.Ring.Int.Defs
import MissionControl.Library.Double
import MissionControl.TranscriptNoise

/-!
# Transcripts that are appended to

A session appends entries to its transcript. What `parseSessionFile` says of the longer file
comes from what the two parts say: of the id, the branch, the path and the beginning the
first value counts, of the model, the end and the prompt the last one, and messages and tool
uses are summed.

The tokens are summed as well, but with the arithmetic of numbers, one entry after the
other. The sums are exact as long as the counts are whole and come to no more than 2^53, and
they never decrease (`statistics_compose`). Beyond 2^53 an addition rounds, and the total of
a file need not be what its parts come to (`not_statisticsCompose_sampleRounding`).
-/

namespace MissionControl

/-! ## Entries of the declared type -/

/-- A property that is a text if it is there. -/
def Json.OfText (x : Option Json) : Prop := ∀ y, x = some y → ∃ text, y = .str text

/-- A count of tokens: a number that is not negative. -/
def Json.IsCount (x : Json) : Prop := ∃ n : JsNumber, x = .num n ∧ n.atLeast (.finite 0) = true

/-- `{ input_tokens?: number, … }`, where no count is negative. -/
structure Json.IsUsage (usage : Json) : Prop where
  object : ∃ fields, usage = .obj fields
  counts : ∀ key ∈ tokenKeys, ∀ x, Json.get? (some usage) key = some x → x.IsCount

/-- `{ type: string; text?: string; id?: string }`. -/
structure Json.IsBlock (block : Json) : Prop where
  object : ∃ fields, block = .obj fields
  type : ∃ text, Json.get? (some block) "type" = some (.str text)
  text : Json.OfText (Json.get? (some block) "text")
  id : Json.OfText (Json.get? (some block) "id")

/-- `{ role?: string; content?: …; model?: string; usage?: … }`. -/
structure Json.IsMessage (message : Json) : Prop where
  object : ∃ fields, message = .obj fields
  role : Json.OfText (Json.get? (some message) "role")
  content : ∀ x, Json.get? (some message) "content" = some x →
    (∃ text, x = .str text) ∨ ∃ blocks, x = .arr blocks ∧ ∀ block ∈ blocks, block.IsBlock
  model : Json.OfText (Json.get? (some message) "model")
  usage : ∀ x, Json.get? (some message) "usage" = some x → x.IsUsage

/-- **`JSONLEntry`**: each field has its type if it is there. -/
structure Json.IsEntry (entry : Json) : Prop where
  object : ∃ fields, entry = .obj fields
  type : Json.OfText (Json.get? (some entry) "type")
  sessionId : Json.OfText (Json.get? (some entry) "sessionId")
  timestamp : Json.OfText (Json.get? (some entry) "timestamp")
  isSidechain : ∀ x, Json.get? (some entry) "isSidechain" = some x → ∃ b, x = .bool b
  gitBranch : Json.OfText (Json.get? (some entry) "gitBranch")
  cwd : Json.OfText (Json.get? (some entry) "cwd")
  message : ∀ x, Json.get? (some entry) "message" = some x → x.IsMessage

/-- **Lines of entries**, each on a line of its own. -/
structure EntryLines (site : TranscriptSite) (lines : List (List Char)) : Prop where
  line : ∀ line ∈ lines, '\n' ∉ line
  entry : ∀ entry ∈ entriesOf site lines, entry.IsEntry

/-! ## What is to compose -/

/-- The sum of two numbers that are not negative, as it is. -/
def JsNumber.sum : JsNumber → JsNumber → JsNumber
  | .finite p, .finite q => .finite (p + q)
  | .nan, _ => .nan
  | _, .nan => .nan
  | .infinity negative, _ => .infinity negative
  | _, .infinity negative => .infinity negative

def TotalAdds (a b ab : Addend) : Prop := ∃ m n, a = .num m ∧ b = .num n ∧ ab = .num (m.sum n)

def TotalGrows (a ab : Addend) : Prop := ∃ m n, a = .num m ∧ ab = .num n ∧ n.atLeast m = true

/-- **The statistics of lines come from those of their parts**, but for the tokens: `a` and
`ab` are the statistics of the lines `A`, and of `A` and `B`, and `b` is what has been kept
of the lines `B`. -/
structure Composes (site : TranscriptSite) (A B : List (List Char)) (a ab : SessionStats)
    (b : TranscriptScan) : Prop where
  sessionId : firstIn site (fieldOf "sessionId") A = some ab.sessionId
  gitBranch : ab.gitBranch
    = (firstIn site (fieldOf "gitBranch") A).or (firstIn site (fieldOf "gitBranch") B)
  projectPath : ab.projectPath
    = (firstIn site (fieldOf "cwd") A).or (firstIn site (fieldOf "cwd") B)
  firstMessageAt : ab.firstMessageAt
    = (firstIn site (fieldOf "timestamp") A).or (firstIn site (fieldOf "timestamp") B)
  model : ab.model
    = (lastIn site (fun e => (messageOf "assistant" e).bind (fieldOf "model")) B).or
      (lastIn site (fun e => (messageOf "assistant" e).bind (fieldOf "model")) A)
  lastMessageAt : ab.lastMessageAt
    = (lastIn site (fieldOf "timestamp") B).or (lastIn site (fieldOf "timestamp") A)
  lastUserPrompt : ab.lastUserPrompt
    = (lastIn site (fun e => (messageOf "user" e).bind promptOf) B).or
      (lastIn site (fun e => (messageOf "user" e).bind promptOf) A)
  userMessages : ab.userMessages = a.userMessages + b.userMessages
  assistantMessages : ab.assistantMessages = a.assistantMessages + b.assistantMessages
  toolUses : ab.toolUses = a.toolUses + b.toolUses

/-- **No counter decreases.** -/
structure Grows (a ab : SessionStats) : Prop where
  userMessages : a.userMessages ≤ ab.userMessages
  assistantMessages : a.assistantMessages ≤ ab.assistantMessages
  toolUses : a.toolUses ≤ ab.toolUses
  inputTokens : TotalGrows a.inputTokens ab.inputTokens
  outputTokens : TotalGrows a.outputTokens ab.outputTokens

def TotalsAdd (a ab : SessionStats) (b : TranscriptScan) : Prop :=
  TotalAdds a.inputTokens b.inputTokens ab.inputTokens
    ∧ TotalAdds a.outputTokens b.outputTokens ab.outputTokens

/-- **What parsing gives**: the statistics of the lines `A`, and of `A` and `B`, and what is
kept of the lines `B`, which the statistics of `B` are made of, if it has some. -/
structure Parsed (site : TranscriptSite) (now : ℕ) (slug : String) (A B : List (List Char))
    (a ab : SessionStats) (b : TranscriptScan) : Prop where
  first : parseSessionFile site now (some (transcript A)) slug = some a
  whole : parseSessionFile site now (some (transcript (A ++ B))) slug = some ab
  rest : B.foldlM (TranscriptScan.readLine site) {} = .ok b
  second : parseSessionFile site now (some (transcript B)) slug = caught (b.stats site now slug)

/-- **Statistics that compose**: those of `A` and `B` come from those of the parts, and no
counter decreases. -/
def StatisticsCompose (site : TranscriptSite) (now : ℕ) (slug : String)
    (A B : List (List Char)) : Prop :=
  ∃ a ab b, Parsed site now slug A B a ab b ∧ Composes site A B a ab b ∧ Grows a ab
    ∧ TotalsAdd a ab b

def usagesOf (site : TranscriptSite) (lines : List (List Char)) : List Json :=
  (entriesOf site lines).filterMap fun entry =>
    (messageOf "assistant" entry).bind (fieldOf "usage")

/-- A count of tokens, where it is a whole number. -/
def wholeCount (key : String) (usage : Json) : ℕ :=
  match Json.get? (some usage) key with
  | some (.num n) => (n.integer.getD 0).toNat
  | _ => 0

/-- The tokens of the input of a usage. -/
def wholeInput (usage : Json) : ℕ :=
  wholeCount "input_tokens" usage + wholeCount "cache_read_input_tokens" usage
    + wholeCount "cache_creation_input_tokens" usage

/-- **The counts are whole numbers**, and those of the input and those of the output come to
no more than 2^53. -/
structure WholeCounts (site : TranscriptSite) (lines : List (List Char)) : Prop where
  whole : ∀ usage ∈ usagesOf site lines, ∀ key ∈ tokenKeys, ∀ x,
    Json.get? (some usage) key = some x → ∃ n : ℕ, x = .num (.finite n)
  input : ((usagesOf site lines).map wholeInput).sum ≤ 2 ^ 53
  output : ((usagesOf site lines).map (wholeCount "output_tokens")).sum ≤ 2 ^ 53

/-! ## Sums of numbers -/

/-- **What a total can be**: a double, or infinite, and not negative. -/
def JsNumber.IsTotal : JsNumber → Prop
  | .finite d => 0 ≤ d ∧ Double.IsDouble d
  | .infinity negative => negative = false
  | .nan => False

theorem JsNumber.IsTotal.nonneg {n : JsNumber} (h : n.IsTotal) : n.atLeast (.finite 0) = true := by
  cases n with
  | nan => exact h.elim
  | infinity negative =>
    obtain rfl : negative = false := h
    rfl
  | finite d => exact decide_eq_true h.1

theorem JsNumber.isTotal_rounded {q : ℚ} (hq : 0 ≤ q) : (JsNumber.rounded q).IsTotal := by
  unfold JsNumber.rounded
  cases hround : Double.round q with
  | none => exact decide_eq_false (not_lt.mpr hq)
  | some r =>
    exact ⟨Double.isDouble_zero.le_of_round (le_refl 0) hq hround,
      Double.isDouble_of_round hq hround⟩

/-- **A sum of numbers that are not negative** can be a total. -/
theorem JsNumber.isTotal_add {x y : JsNumber} (hx : x.atLeast (.finite 0) = true)
    (hy : y.atLeast (.finite 0) = true) : (x.add y).IsTotal := by
  cases x with
  | nan => cases hx
  | infinity negative =>
    cases negative with
    | true => cases hx
    | false =>
      cases y with
      | nan => cases hy
      | infinity negative =>
        cases negative with
        | true => cases hy
        | false => rfl
      | finite q => rfl
  | finite p =>
    cases y with
    | nan => cases hy
    | infinity negative =>
      cases negative with
      | true => cases hy
      | false => rfl
    | finite q => exact isTotal_rounded (add_nonneg (of_decide_eq_true hx) (of_decide_eq_true hy))

/-- **Adding to a total** does not make it less, though the sum is rounded. -/
theorem JsNumber.IsTotal.add_atLeast {n z : JsNumber} (h : n.IsTotal)
    (hz : z.atLeast (.finite 0) = true) : (n.add z).atLeast n = true := by
  cases n with
  | nan => exact h.elim
  | infinity negative =>
    obtain rfl : negative = false := h
    cases z with
    | nan => cases hz
    | infinity negative =>
      cases negative with
      | true => cases hz
      | false => rfl
    | finite q => rfl
  | finite d =>
    cases z with
    | nan => cases hz
    | infinity negative =>
      cases negative with
      | true => cases hz
      | false => rfl
    | finite q =>
      have hle : d ≤ d + q := le_add_of_nonneg_right (of_decide_eq_true hz)
      show (JsNumber.rounded (d + q)).atLeast (.finite d) = true
      unfold JsNumber.rounded
      cases hround : Double.round (d + q) with
      | none =>
        have hsign : decide (d + q < 0) = false := decide_eq_false (not_lt.mpr (h.1.trans hle))
        dsimp only
        rw [hsign]
        rfl
      | some r => exact decide_eq_true (h.2.le_of_round h.1 hle hround)

theorem JsNumber.add_natCast {m n : ℕ} (h : m + n ≤ 2 ^ 53) :
    (JsNumber.finite m).add (.finite n) = .finite ((m + n : ℕ) : ℚ) := by
  show JsNumber.rounded (m + n) = _
  unfold JsNumber.rounded
  rw [← Nat.cast_add, Double.round_natCast h]

section Appends

variable {site : TranscriptSite}

/-! ## Entries that are read -/

theorem messageOf_eq_some {type : String} {entry message : Json}
    (h : messageOf type entry = some message) :
    Json.get? (some entry) "message" = some message := by
  unfold messageOf at h
  split at h
  · cases h
  · exact (fieldOf_eq_some.mp (Option.ite_none_right_eq_some.mp h).2).1

/-- **An entry of the declared type can be read.** -/
theorem Json.IsEntry.readable {entry : Json} (h : entry.IsEntry) : entry.Readable site.rt := by
  refine ⟨?_, fun message hmessage usage husage key hkey x hx => ?_, fun message hmessage => ?_⟩
  · obtain ⟨fields, rfl⟩ := h.object
    exact fun h => (by cases h)
  · have hm := h.message message (messageOf_eq_some hmessage)
    obtain ⟨n, rfl, -⟩ := (hm.usage usage (fieldOf_eq_some.mp husage).1).counts key hkey x hx
    exact ⟨_, rfl⟩
  · have hm := h.message message (messageOf_eq_some hmessage)
    unfold blocksOf
    cases hcontent : Json.get? (some message) "content" with
    | none => exact List.not_mem_nil
    | some x =>
      obtain ⟨text, rfl⟩ | ⟨blocks, rfl, hblocks⟩ := hm.content x hcontent
      · exact List.not_mem_nil
      · intro hnull
        obtain ⟨fields, hfields⟩ := (hblocks .null hnull).object
        cases hfields

theorem mem_lastIn {β : Type} {value : Json → Option β} {lines : List (List Char)} {x : β}
    (h : x ∈ lastIn site value lines) : ∃ entry ∈ entriesOf site lines, value entry = some x := by
  obtain ⟨entry, hentry, hx⟩ := List.mem_filterMap.mp (List.mem_of_getLast? h)
  exact ⟨entry, hentry, hx⟩

/-- **Lines of entries have statistics** if one of them has a session id. -/
theorem EntryLines.hasStatistics {lines : List (List Char)} (h : EntryLines site lines)
    (hid : (firstIn site (fieldOf "sessionId") lines).isSome) : HasStatistics site lines := by
  constructor
  · obtain ⟨x, hx⟩ := Option.isSome_iff_exists.mp hid
    obtain ⟨entry, hentry, hid⟩ := List.exists_of_findSome?_eq_some hx
    exact ⟨entry, hentry, x, hid⟩
  · exact fun entry hentry => (h.entry entry hentry).readable
  · intro x hx
    obtain ⟨entry, hentry, hx⟩ := mem_lastIn hx
    obtain ⟨message, hmessage, hmodel⟩ := Option.bind_eq_some_iff.mp hx
    obtain ⟨text, rfl⟩ := ((h.entry entry hentry).message message
      (messageOf_eq_some hmessage)).model x (fieldOf_eq_some.mp hmodel).1
    exact ⟨text, rfl⟩
  · intro x hx
    obtain ⟨entry, hentry, hx⟩ := mem_lastIn hx
    obtain ⟨text, rfl⟩ := (h.entry entry hentry).timestamp x (fieldOf_eq_some.mp hx).1
    exact ⟨text, rfl⟩

theorem entriesOf_append (A B : List (List Char)) :
    entriesOf site (A ++ B) = entriesOf site A ++ entriesOf site B := List.filterMap_append

theorem EntryLines.of_append {A B : List (List Char)} (h : EntryLines site (A ++ B)) :
    EntryLines site A ∧ EntryLines site B := by
  have hentry := h.entry
  rw [entriesOf_append, List.forall_mem_append] at hentry
  have hline := List.forall_mem_append.mp h.line
  exact ⟨⟨hline.1, hentry.1⟩, ⟨hline.2, hentry.2⟩⟩

/-! ## Tokens -/

theorem usagesOf_append (A B : List (List Char)) :
    usagesOf site (A ++ B) = usagesOf site A ++ usagesOf site B := by
  unfold usagesOf
  rw [entriesOf_append, List.filterMap_append]

theorem tokens_tally (lines : List (List Char)) :
    (tally site lines).tokens
      = (usagesOf site lines).filterMap fun usage => (usageTokens site (some usage)).toOption := by
  unfold tally usagesOf
  induction entriesOf site lines with
  | nil => rfl
  | cons entry entries ih =>
    rw [List.map_cons, List.sum_cons]
    show ((messageOf "assistant" entry).bind (tokensOf site)).toList ++ _ = _
    have htokens : (messageOf "assistant" entry).bind (tokensOf site)
        = ((messageOf "assistant" entry).bind (fieldOf "usage")).bind
          fun usage => (usageTokens site (some usage)).toOption := by
      rw [Option.bind_assoc]
      rfl
    rw [htokens, ih]
    have hcons : ∀ (x : Option Json) (usages : List Json),
        (x.bind fun usage => (usageTokens site (some usage)).toOption).toList
            ++ usages.filterMap (fun usage => (usageTokens site (some usage)).toOption)
          = (x.toList ++ usages).filterMap
            fun usage => (usageTokens site (some usage)).toOption := by
      intro x usages
      rw [List.filterMap_append]
      cases x with
      | none => rfl
      | some usage =>
        rw [Option.bind_some, Option.toList_some, List.filterMap_cons, List.filterMap_nil]
        cases (usageTokens site (some usage)).toOption <;> rfl
    rw [hcons, List.filterMap_cons]
    cases (messageOf "assistant" entry).bind (fieldOf "usage") <;> rfl

theorem isUsage_of_mem {lines : List (List Char)} (h : EntryLines site lines) {usage : Json}
    (husage : usage ∈ usagesOf site lines) : usage.IsUsage := by
  obtain ⟨entry, hentry, hu⟩ := List.mem_filterMap.mp husage
  obtain ⟨message, hmessage, hu⟩ := Option.bind_eq_some_iff.mp hu
  exact ((h.entry entry hentry).message message (messageOf_eq_some hmessage)).usage usage
    (fieldOf_eq_some.mp hu).1

theorem Json.IsUsage.ne_null {usage : Json} (h : usage.IsUsage) : usage ≠ .null := by
  obtain ⟨fields, rfl⟩ := h.object
  exact fun h => (by cases h)

/-- A count is added as it is: where it counts as false, it is zero. -/
theorem or_count {n : JsNumber} (hn : n.atLeast (.finite 0) = true) :
    Json.or (some (.num n)) (.num (.finite 0)) = .num n := by
  show (if Json.truthy (some (.num n)) then Json.num n else .num (.finite 0)) = .num n
  by_cases htruthy : Json.truthy (some (.num n))
  · rw [if_pos htruthy]
  · rw [if_neg htruthy]
    cases n with
    | nan => cases hn
    | infinity negative => exact absurd rfl htruthy
    | finite q =>
      have hzero : q = 0 := by
        by_contra hq
        refine htruthy (Bool.and_eq_true_iff.mpr ⟨rfl, decide_eq_true ?_⟩)
        exact fun h => hq (JsNumber.finite.inj h)
      rw [hzero]

theorem usageCount_eq (site : TranscriptSite) {usage : Json} (h : usage.IsUsage) (key : String)
    (hkey : key ∈ tokenKeys) :
    ∃ n : JsNumber, usageCount site.rt (some usage) key = .ok (.num n)
      ∧ n.atLeast (.finite 0) = true := by
  unfold usageCount
  rw [get_eq h.ne_null, ok_bind]
  cases hget : Json.get? (some usage) key with
  | none => exact ⟨.finite 0, rfl, rfl⟩
  | some x =>
    obtain ⟨n, rfl, hn⟩ := h.counts key hkey x hget
    rw [or_count hn]
    exact ⟨n, rfl, hn⟩

theorem usageTokens_eq {usage : Json} (h : usage.IsUsage) :
    ∃ m n : JsNumber, usageTokens site (some usage) = .ok (.num m, .num n)
      ∧ m.atLeast (.finite 0) = true ∧ n.atLeast (.finite 0) = true := by
  obtain ⟨input, hinput, hi⟩ := usageCount_eq site h "input_tokens" (by decide)
  obtain ⟨cacheRead, hcacheRead, hr⟩ :=
    usageCount_eq site h "cache_read_input_tokens" (by decide)
  obtain ⟨cacheCreation, hcacheCreation, hc⟩ :=
    usageCount_eq site h "cache_creation_input_tokens" (by decide)
  obtain ⟨output, houtput, ho⟩ :=
    usageCount_eq site h "output_tokens" (by decide)
  refine ⟨(input.add cacheRead).add cacheCreation, output, ?_,
    (JsNumber.isTotal_add (JsNumber.isTotal_add hi hr).nonneg hc).nonneg, ho⟩
  unfold usageTokens
  rw [hinput, hcacheRead, hcacheCreation, houtput]
  rfl

/-! ## Totals that grow -/

/-- **A total does not decrease** as numbers are added that are not negative. -/
theorem foldl_plus_grows (site : TranscriptSite) {part : Addend × Addend → Addend}
    {tokens : List (Addend × Addend)}
    (h : ∀ t ∈ tokens, ∃ n : JsNumber, part t = .num n ∧ n.atLeast (.finite 0) = true)
    {s : JsNumber} (hs : s.IsTotal) :
    ∃ n, tokens.foldl (fun (sum : Addend) t => sum.plus site (part t)) (.num s) = Addend.num n
      ∧ n.IsTotal ∧ n.atLeast s = true := by
  induction tokens generalizing s with
  | nil =>
    refine ⟨s, rfl, hs, ?_⟩
    have hnonneg := hs.nonneg
    cases s with
    | nan => cases hnonneg
    | infinity negative => cases negative <;> rfl
    | finite q => exact decide_eq_true (Rat.le_refl)
  | cons t tokens ih =>
    obtain ⟨⟨z, hz, hnonneg⟩, hrest⟩ := List.forall_mem_cons.mp h
    obtain ⟨n, hn, htotal, hle⟩ := ih hrest (JsNumber.isTotal_add hs.nonneg hnonneg)
    refine ⟨n, ?_, htotal, JsNumber.atLeast_trans (hs.add_atLeast hnonneg) hle⟩
    rw [List.foldl_cons, hz]
    exact hn

theorem num_of_mem_tokens {lines : List (List Char)}
    (h : EntryLines site lines) {t : Addend × Addend} (ht : t ∈ (tally site lines).tokens) :
    (∃ m : JsNumber, t.1 = .num m ∧ m.atLeast (.finite 0) = true)
      ∧ ∃ n : JsNumber, t.2 = .num n ∧ n.atLeast (.finite 0) = true := by
  rw [tokens_tally] at ht
  obtain ⟨usage, husage, heq⟩ := List.mem_filterMap.mp ht
  obtain ⟨m, n, htokens, hm, hn⟩ := usageTokens_eq (isUsage_of_mem h husage)
  rw [htokens] at heq
  obtain rfl := Option.some.inj heq
  exact ⟨⟨m, rfl, hm⟩, ⟨n, rfl, hn⟩⟩

theorem totalGrows_after {part : Addend × Addend → Addend}
    {A B : List (List Char)}
    (h : ∀ t ∈ (tally site (A ++ B)).tokens,
      ∃ n : JsNumber, part t = .num n ∧ n.atLeast (.finite 0) = true) :
    TotalGrows
      ((tally site A).tokens.foldl (fun (sum : Addend) t => sum.plus site (part t))
        (.num (.finite 0)))
      ((tally site (A ++ B)).tokens.foldl (fun (sum : Addend) t => sum.plus site (part t))
        (.num (.finite 0))) := by
  have hparts : (tally site (A ++ B)).tokens = (tally site A).tokens ++ (tally site B).tokens := by
    rw [tally_append]
    rfl
  rw [hparts] at h ⊢
  obtain ⟨hA, hB⟩ := List.forall_mem_append.mp h
  obtain ⟨m, hm, htotal, -⟩ := foldl_plus_grows site hA (s := .finite 0)
    ⟨le_refl 0, Double.isDouble_zero⟩
  obtain ⟨n, hn, -, hle⟩ := foldl_plus_grows site hB htotal
  rw [List.foldl_append, hm]
  exact ⟨m, n, rfl, hn, hle⟩

/-! ## Totals that are exact -/

theorem usageCount_whole {usage : Json} (hnull : usage ≠ .null) {key : String}
    (h : ∀ x, Json.get? (some usage) key = some x → ∃ n : ℕ, x = .num (.finite n)) :
    usageCount site.rt (some usage) key = .ok (.num (.finite (wholeCount key usage))) := by
  unfold usageCount wholeCount
  rw [get_eq hnull, ok_bind]
  cases hget : Json.get? (some usage) key with
  | none => rfl
  | some x =>
    obtain ⟨n, rfl⟩ := h x hget
    have hnonneg : (JsNumber.finite (n : ℚ)).atLeast (.finite 0) = true :=
      decide_eq_true Rat.natCast_nonneg
    have hinteger : (JsNumber.finite (n : ℚ)).integer = some (n : ℤ) :=
      JsNumber.integer_eq_some.mpr rfl
    dsimp only
    rw [or_count hnonneg, hinteger]
    rfl

/-- **The tokens of a usage are exact**, if its counts are whole and come to no more than
2^53. -/
theorem usageTokens_whole {usage : Json} (hnull : usage ≠ .null)
    (h : ∀ key ∈ tokenKeys, ∀ x, Json.get? (some usage) key = some x →
      ∃ n : ℕ, x = .num (.finite n)) (hinput : wholeInput usage ≤ 2 ^ 53) :
    usageTokens site (some usage)
      = .ok (.num (.finite (wholeInput usage)),
        .num (.finite (wholeCount "output_tokens" usage))) := by
  unfold wholeInput at hinput ⊢
  unfold usageTokens
  rw [usageCount_whole hnull (h _ (by decide)), usageCount_whole hnull (h _ (by decide)),
    usageCount_whole hnull (h _ (by decide)), usageCount_whole hnull (h _ (by decide))]
  simp only [ok_bind, Addend.plus, Addend.number]
  rw [JsNumber.add_natCast (by omega), JsNumber.add_natCast hinput]

theorem foldl_plus_whole {part : Addend × Addend → Addend}
    {tokens : Json → Addend × Addend} (count : Json → ℕ) {usages : List Json}
    (h : ∀ usage ∈ usages, part (tokens usage) = .num (.finite (count usage))) {s : ℕ}
    (hsum : s + (usages.map count).sum ≤ 2 ^ 53) :
    (usages.map tokens).foldl (fun (sum : Addend) t => sum.plus site (part t)) (.num (.finite s))
      = .num (.finite ((s + (usages.map count).sum : ℕ) : ℚ)) := by
  induction usages generalizing s with
  | nil => rfl
  | cons usage usages ih =>
    obtain ⟨husage, hrest⟩ := List.forall_mem_cons.mp h
    rw [List.map_cons, List.sum_cons] at hsum
    have hplus : (Addend.num (.finite s)).plus site (.num (.finite (count usage)))
        = .num (.finite ((s + count usage : ℕ) : ℚ)) :=
      congrArg Addend.num (JsNumber.add_natCast (by omega))
    rw [List.map_cons, List.foldl_cons, husage, hplus, ih hrest (by omega), List.map_cons,
      List.sum_cons, Nat.add_assoc]

/-- **The totals of lines are exact**, if their counts are whole and come to no more than
2^53. -/
theorem after_tokens_whole {lines : List (List Char)}
    (hlines : EntryLines site lines) (h : WholeCounts site lines) :
    (TranscriptScan.after site {} (tally site lines)).inputTokens
        = .num (.finite (((usagesOf site lines).map wholeInput).sum : ℕ))
      ∧ (TranscriptScan.after site {} (tally site lines)).outputTokens
        = .num (.finite (((usagesOf site lines).map (wholeCount "output_tokens")).sum : ℕ)) := by
  have htokens : (tally site lines).tokens = (usagesOf site lines).map fun usage =>
      (.num (.finite (wholeInput usage)), .num (.finite (wholeCount "output_tokens" usage))) := by
    rw [tokens_tally, ← List.filterMap_eq_map]
    refine List.filterMap_congr fun usage husage => ?_
    have hle : wholeInput usage ≤ ((usagesOf site lines).map wholeInput).sum :=
      List.single_le_sum (fun _ _ => Nat.zero_le _) _ (List.mem_map_of_mem husage)
    rw [usageTokens_whole (isUsage_of_mem hlines husage).ne_null (h.whole usage husage)
      (hle.trans h.input)]
    rfl
  have hzero : (.num (.finite 0) : Addend) = .num (.finite ((0 : ℕ) : ℚ)) := rfl
  unfold TranscriptScan.after
  dsimp only
  rw [htokens, hzero, foldl_plus_whole wholeInput (fun _ _ => rfl)
    (by rw [Nat.zero_add]; exact h.input), foldl_plus_whole (wholeCount "output_tokens")
    (fun _ _ => rfl) (by rw [Nat.zero_add]; exact h.output), Nat.zero_add, Nat.zero_add]
  exact ⟨rfl, rfl⟩

theorem WholeCounts.of_append {A B : List (List Char)} (h : WholeCounts site (A ++ B)) :
    WholeCounts site A ∧ WholeCounts site B := by
  have hwhole := h.whole
  have hinput := h.input
  have houtput := h.output
  rw [usagesOf_append, List.forall_mem_append] at hwhole
  rw [usagesOf_append, List.map_append, List.sum_append] at hinput houtput
  exact ⟨⟨hwhole.1, by omega, by omega⟩, ⟨hwhole.2, by omega, by omega⟩⟩

/-! ## Both parts -/

/-- Lines of entries are read to their tally, which their statistics are made of. -/
theorem EntryLines.parsed {lines : List (List Char)} (h : EntryLines site lines) (now : ℕ)
    (slug : String) :
    lines.foldlM (TranscriptScan.readLine site) {}
        = .ok (TranscriptScan.after site {} (tally site lines))
      ∧ parseSessionFile site now (some (transcript lines)) slug
        = caught ((TranscriptScan.after site {} (tally site lines)).stats site now slug) := by
  have hreadable : ∀ entry ∈ entriesOf site lines, entry.Readable site.rt :=
    fun entry hentry => (h.entry entry hentry).readable
  refine ⟨foldlM_readLine_eq_ok.mpr ⟨hreadable, rfl⟩, Option.ext fun stats => ?_⟩
  rw [parseSessionFile_eq_some h.line, caught_eq_some]
  exact and_iff_right hreadable

theorem EntryLines.stats {lines : List (List Char)} (h : EntryLines site lines)
    (hid : (firstIn site (fieldOf "sessionId") lines).isSome) (now : ℕ) (slug : String) :
    ∃ sessionId costs isActive, firstIn site (fieldOf "sessionId") lines = some sessionId
      ∧ parseSessionFile site now (some (transcript lines)) slug
        = some ((TranscriptScan.after site {} (tally site lines)).statsOf site slug sessionId costs
          isActive) := by
  obtain ⟨stats, hstats⟩ := (parseSessionFile_isSome_iff now slug h.line).mpr
    (h.hasStatistics hid)
  have hparse := ((parseSessionFile_eq_some h.line).mp hstats).2
  obtain ⟨sessionId, costs, isActive, hfirst, -, rfl⟩ := stats_eq_some hparse
  exact ⟨sessionId, costs, isActive, (first_tally first_sessionId lines).symm.trans hfirst, hstats⟩

/-- A part of the tally is the first value of the two parts of the lines. -/
theorem first_append {β : Type} {part : Tally → Option β} (h : Accumulators.First part)
    {value : Json → Option β} (hvalue : ∀ entry, part (entryTally site entry) = value entry)
    (A B : List (List Char)) :
    part (tally site (A ++ B)) = (firstIn site value A).or (firstIn site value B) := by
  rw [tally_append, h.add, first_tally h, first_tally h]
  simp only [hvalue]

/-- A part of the tally is the last value of the two parts of the lines. -/
theorem last_append {β : Type} {part : Tally → Option β} (h : Accumulators.Last part)
    {value : Json → Option β} (hvalue : ∀ entry, part (entryTally site entry) = value entry)
    (A B : List (List Char)) :
    (part (tally site (A ++ B))).or none = (lastIn site value B).or (lastIn site value A) := by
  rw [Option.or_none, tally_append, h.add, last_tally h, last_tally h]
  simp only [hvalue]

theorem composes_statsOf {A B : List (List Char)} {sessionId : Json}
    (h : firstIn site (fieldOf "sessionId") A = some sessionId) (slug : String)
    (costs costs' : JsNumber × JsNumber) (isActive isActive' : Bool) :
    Composes site A B
      ((TranscriptScan.after site {} (tally site A)).statsOf site slug sessionId costs isActive)
      ((TranscriptScan.after site {} (tally site (A ++ B))).statsOf site slug sessionId costs'
        isActive')
      (TranscriptScan.after site {} (tally site B)) where
  sessionId := h
  gitBranch := first_append first_gitBranch (fun _ => rfl) A B
  projectPath := first_append first_projectPath (fun _ => rfl) A B
  firstMessageAt := first_append first_firstMessageAt (fun _ => rfl) A B
  model := last_append last_model (fun _ => rfl) A B
  lastMessageAt := last_append last_lastMessageAt (fun _ => rfl) A B
  lastUserPrompt := last_append last_lastUserPrompt (fun _ => rfl) A B
  userMessages := by
    show 0 + (tally site (A ++ B)).userMessages
      = (0 + (tally site A).userMessages) + (0 + (tally site B).userMessages)
    rw [tally_append, Nat.zero_add, Nat.zero_add, Nat.zero_add]
    rfl
  assistantMessages := by
    show 0 + (tally site (A ++ B)).assistantMessages
      = (0 + (tally site A).assistantMessages) + (0 + (tally site B).assistantMessages)
    rw [tally_append, Nat.zero_add, Nat.zero_add, Nat.zero_add]
    rfl
  toolUses := by
    show 0 + (tally site (A ++ B)).toolUses
      = (0 + (tally site A).toolUses) + (0 + (tally site B).toolUses)
    rw [tally_append, Nat.zero_add, Nat.zero_add, Nat.zero_add]
    rfl

end Appends

/-- **The statistics of a transcript compose**, the totals of the tokens as long as the
counts are whole and come to no more than 2^53. -/
theorem statistics_compose (site : TranscriptSite) (now : ℕ) (slug : String)
    {A B : List (List Char)} (hlines : EntryLines site (A ++ B))
    (hid : (firstIn site (fieldOf "sessionId") A).isSome) :
    ∃ a ab b, Parsed site now slug A B a ab b ∧ Composes site A B a ab b ∧ Grows a ab
      ∧ (WholeCounts site (A ++ B) → TotalsAdd a ab b) := by
  obtain ⟨hA, hB⟩ := hlines.of_append
  obtain ⟨sessionId, costs, isActive, hfirst, hparseA⟩ := hA.stats hid now slug
  have hfirstAB : firstIn site (fieldOf "sessionId") (A ++ B) = some sessionId := by
    unfold firstIn at hfirst ⊢
    rw [entriesOf_append, List.findSome?_append, hfirst, Option.some_or]
  obtain ⟨sessionId', costs', isActive', hfirst', hparseAB⟩ := hlines.stats
    (Option.isSome_iff_exists.mpr ⟨sessionId, hfirstAB⟩) now slug
  obtain rfl := Option.some.inj (hfirstAB.symm.trans hfirst')
  have hcomposes := composes_statsOf (B := B) hfirst slug costs costs' isActive isActive'
  have htokens := fun t (ht : t ∈ (tally site (A ++ B)).tokens) =>
    num_of_mem_tokens hlines ht
  refine ⟨_, _, _, ⟨hparseA, hparseAB, (hB.parsed now slug).1, (hB.parsed now slug).2⟩,
    hcomposes, ?_, fun hwhole => ?_⟩
  · constructor
    · rw [hcomposes.userMessages]
      exact Nat.le_add_right _ _
    · rw [hcomposes.assistantMessages]
      exact Nat.le_add_right _ _
    · rw [hcomposes.toolUses]
      exact Nat.le_add_right _ _
    · exact totalGrows_after fun t ht => (htokens t ht).1
    · exact totalGrows_after fun t ht => (htokens t ht).2
  · obtain ⟨hwholeA, hwholeB⟩ := hwhole.of_append
    have hexact := after_tokens_whole hlines hwhole
    rw [usagesOf_append, List.map_append, List.map_append, List.sum_append, List.sum_append]
      at hexact
    have hcast : ∀ m n : ℕ, (.num (.finite ((m + n : ℕ) : ℚ)) : Addend)
        = .num ((JsNumber.finite m).sum (.finite n)) := fun m n =>
      congrArg (fun q => Addend.num (.finite q)) (Rat.natCast_add m n)
    have hA' := after_tokens_whole hA hwholeA
    have hB' := after_tokens_whole hB hwholeB
    exact ⟨⟨_, _, hA'.1, hB'.1, hexact.1.trans (hcast _ _)⟩,
      ⟨_, _, hA'.2, hB'.2, hexact.2.trans (hcast _ _)⟩⟩

/-! ## Entries with tokens -/

/-- A usage of tokens of the input. -/
def sampleUsage (input : ℕ) : Json := .obj [("input_tokens", .num (.finite input))]

/-- An entry of an assistant, with its usage. -/
def sampleUsageEntry (input : ℕ) : Json :=
  .obj [("sessionId", .str "s1"), ("type", .str "assistant"),
    ("message", .obj [("usage", sampleUsage input)])]

theorem readBack_sampleUsageEntry (n : ℕ) : (sampleUsageEntry n).readBack = sampleUsageEntry n := by
  simp [sampleUsageEntry, sampleUsage, Json.readBack, Json.readBack.readBackFields,
    Json.fromEntries, Json.assign]

/-- Its line. -/
def sampleUsageLine (input : ℕ) : List Char :=
  Json.stringify sampleRuntime (sampleUsageEntry input)

theorem isEntry_sampleUsageEntry (input : ℕ) : (sampleUsageEntry input).IsEntry := by
  have hnone : Json.OfText none := fun y hy => (by cases hy)
  have htext : ∀ text, Json.OfText (some (.str text)) := fun text y hy =>
    ⟨text, (Option.some.inj hy).symm⟩
  refine ⟨⟨_, rfl⟩, htext "assistant", htext "s1", hnone, fun x hx => (by cases hx), hnone, hnone,
    fun message hmessage => ?_⟩
  obtain rfl := Option.some.inj hmessage
  refine ⟨⟨_, rfl⟩, hnone, fun x hx => (by cases hx), hnone, fun usage husage => ?_⟩
  obtain rfl := Option.some.inj husage
  refine ⟨⟨_, rfl⟩, fun key hkey x hx => ?_⟩
  have hlookup : [("input_tokens", Json.num (.finite input))].lookup key = some x := hx
  rw [List.lookup_cons] at hlookup
  split at hlookup
  · obtain rfl := Option.some.inj hlookup
    exact ⟨_, rfl, decide_eq_true Rat.natCast_nonneg⟩
  · cases hlookup

/-- The numbers of an entry are read back. -/
def ReadsBack (input : ℕ) : Prop :=
  Json.NumbersRead sampleRuntime (sampleUsageEntry input).numbers

theorem parse_sampleUsageLine {n : ℕ} (h : ReadsBack n) :
    Json.parse sampleRuntime (sampleUsageLine n) = some (sampleUsageEntry n) := by
  have hread := @Json.parse_stringify sampleRuntime (sampleUsageEntry n) h
  rw [readBack_sampleUsageEntry] at hread
  exact hread

theorem newline_notMem_sampleUsageLine {n : ℕ} (h : ReadsBack n) : '\n' ∉ sampleUsageLine n :=
  @Json.newline_notMem_stringify sampleRuntime (sampleUsageEntry n) h

theorem entriesOf_samples {inputs : List ℕ} (h : ∀ n ∈ inputs, ReadsBack n) :
    entriesOf sampleTranscriptSite (inputs.map sampleUsageLine) = inputs.map sampleUsageEntry := by
  unfold entriesOf
  have hrt : sampleTranscriptSite.rt = sampleRuntime := rfl
  rw [List.filterMap_map, hrt, ← List.filterMap_eq_map]
  refine List.filterMap_congr fun n hn => ?_
  rw [Function.comp_apply, Function.comp_apply]
  exact parse_sampleUsageLine (h n hn)

theorem entryLines_samples {inputs : List ℕ} (h : ∀ n ∈ inputs, ReadsBack n) :
    EntryLines sampleTranscriptSite (inputs.map sampleUsageLine) := by
  refine ⟨fun line hline => ?_, fun entry hentry => ?_⟩
  · obtain ⟨n, hn, rfl⟩ := List.mem_map.mp hline
    exact newline_notMem_sampleUsageLine (h n hn)
  · rw [entriesOf_samples h] at hentry
    obtain ⟨n, -, rfl⟩ := List.mem_map.mp hentry
    exact isEntry_sampleUsageEntry n

theorem readsBack_large : ReadsBack 9007199254740992 := by
  intro q hq
  obtain rfl := List.mem_singleton.mp hq
  exact ⟨by decide +kernel, List.all_eq_true.mp (by decide +kernel), by decide +kernel⟩

theorem readsBack_one : ReadsBack 1 := by
  intro q hq
  obtain rfl := List.mem_singleton.mp hq
  exact ⟨by decide +kernel, List.all_eq_true.mp (by decide +kernel), by decide +kernel⟩

theorem readsBack_ones : ∀ n ∈ [1, 1], ReadsBack n :=
  List.forall_mem_cons.mpr ⟨readsBack_one, List.forall_mem_singleton.mpr readsBack_one⟩

theorem usagesOf_samples {inputs : List ℕ} (h : ∀ n ∈ inputs, ReadsBack n) :
    usagesOf sampleTranscriptSite (inputs.map sampleUsageLine) = inputs.map sampleUsage := by
  unfold usagesOf
  rw [entriesOf_samples h, List.filterMap_map, ← List.filterMap_eq_map]
  refine List.filterMap_congr fun n _ => ?_
  rw [Function.comp_apply, Function.comp_apply]
  rfl

theorem firstIn_samples {n : ℕ} (h : ReadsBack n) :
    firstIn sampleTranscriptSite (fieldOf "sessionId") [sampleUsageLine n] = some (.str "s1") := by
  have hentries := @entriesOf_samples [n] (List.forall_mem_singleton.mpr h)
  rw [List.map_singleton, List.map_singleton] at hentries
  unfold firstIn
  rw [hentries]
  rfl

/-- A transcript of two entries. -/
theorem statistics_compose_sample :
    StatisticsCompose sampleTranscriptSite 0 "demo" ([1].map sampleUsageLine)
      ([1].map sampleUsageLine) := by
  have husages := usagesOf_samples readsBack_ones
  obtain ⟨a, ab, b, hparsed, hcomposes, hgrows, htotals⟩ :=
    statistics_compose sampleTranscriptSite 0 "demo"
      (A := [1].map sampleUsageLine) (B := [1].map sampleUsageLine)
      (entryLines_samples readsBack_ones)
      (Option.isSome_iff_exists.mpr ⟨_, firstIn_samples readsBack_one⟩)
  refine ⟨a, ab, b, hparsed, hcomposes, hgrows, htotals ⟨fun usage husage key _ x hx => ?_, ?_, ?_⟩⟩
  · have hmem : usage ∈ [1, 1].map sampleUsage := husages ▸ husage
    obtain ⟨n, -, rfl⟩ := List.mem_map.mp hmem
    have hlookup : [("input_tokens", Json.num (.finite n))].lookup key = some x := hx
    rw [List.lookup_cons] at hlookup
    split at hlookup
    · exact ⟨n, (Option.some.inj hlookup).symm⟩
    · cases hlookup
  · show ((usagesOf sampleTranscriptSite ([1, 1].map sampleUsageLine)).map wholeInput).sum ≤ 2 ^ 53
    rw [husages]
    decide +kernel
  · show ((usagesOf sampleTranscriptSite ([1, 1].map sampleUsageLine)).map
      (wholeCount "output_tokens")).sum ≤ 2 ^ 53
    rw [husages]
    decide +kernel

theorem inputTokens_samples {inputs : List ℕ} (h : ∀ n ∈ inputs, ReadsBack n) :
    (TranscriptScan.after sampleTranscriptSite {}
        (tally sampleTranscriptSite (inputs.map sampleUsageLine))).inputTokens
      = ((inputs.map sampleUsage).filterMap
          fun usage => (usageTokens sampleTranscriptSite (some usage)).toOption).foldl
        (fun (sum : Addend) t => sum.plus sampleTranscriptSite t.1) (.num (.finite 0)) := by
  unfold TranscriptScan.after
  dsimp only
  rw [tokens_tally, usagesOf_samples h]

/-- **Beyond 2^53 the totals do not add up**: an entry at a time, 1 is lost twice. -/
theorem not_statisticsCompose_sampleRounding :
    ¬ ∀ A B : List (List Char), EntryLines sampleTranscriptSite (A ++ B) →
      (firstIn sampleTranscriptSite (fieldOf "sessionId") A).isSome →
        StatisticsCompose sampleTranscriptSite 0 "demo" A B := by
  intro h
  have hlarge : ∀ n ∈ [9007199254740992], ReadsBack n :=
    List.forall_mem_singleton.mpr readsBack_large
  have hall : ∀ n ∈ [9007199254740992, 1, 1], ReadsBack n :=
    List.forall_mem_cons.mpr ⟨readsBack_large, readsBack_ones⟩
  have hlines := entryLines_samples hall
  obtain ⟨a, ab, b, hparsed, -, -, ⟨m, n, hm, hn, hmn⟩, -⟩ :=
    h ([9007199254740992].map sampleUsageLine) ([1, 1].map sampleUsageLine) hlines
      (Option.isSome_iff_exists.mpr ⟨_, firstIn_samples readsBack_large⟩)
  have hof : ∀ {lines : List (List Char)} {stats : SessionStats},
      (∀ line ∈ lines, '\n' ∉ line) →
      parseSessionFile sampleTranscriptSite 0 (some (transcript lines)) "demo" = some stats →
      stats.inputTokens = (TranscriptScan.after sampleTranscriptSite {}
        (tally sampleTranscriptSite lines)).inputTokens := by
    intro lines stats hline hparse
    obtain ⟨_, _, _, -, -, rfl⟩ := stats_eq_some ((parseSessionFile_eq_some hline).mp hparse).2
    rfl
  have ha := (hof (entryLines_samples hlarge).line hparsed.first).trans
    (inputTokens_samples hlarge)
  have hab := (hof hlines.line hparsed.whole).trans (inputTokens_samples hall)
  obtain ⟨-, rfl⟩ := foldlM_readLine_eq_ok.mp hparsed.rest
  rw [inputTokens_samples readsBack_ones] at hn
  have hm' : m = .finite 9007199254740992 :=
    Addend.num.inj ((hm.symm.trans ha).trans (by decide +kernel))
  have hn' : n = .finite 2 := Addend.num.inj (hn.symm.trans (by decide +kernel))
  subst hm' hn'
  exact absurd (hmn.symm.trans hab) (by decide +kernel)

end MissionControl
