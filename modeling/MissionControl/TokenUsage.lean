import MissionControl.Tasks
import MissionControl.Library.Double
import MissionControl.Library.SharedFile

/-!
# The file of token records

The token records are a file: a JSON array, the newest record first. `POST /api/tokens`
reads the array, puts its record in front, keeps the first 10000, and writes the array
back; the cleanup of the scheduler and `POST /api/cleanup` read it, leave out what is
older than the retention, and write it back. Each of them waits for the file as it reads
and as it writes, and nothing keeps the others away meanwhile.

By design an acknowledged record goes in two cases: when 10000 records were stored since, and
when a cleanup found it too old. It is lost in others, and these come from the accesses alone
(`tokenRecords_kept` says that there are no more). Two requests that are about to write at the
same time are enough: the later write does not have the record of the earlier one. `writeFile`
cuts the file off before it fills it, and what a request reads meanwhile is no JSON;
`loadTokenData` catches the error, as it does when it cannot read the file at all, and takes the
records of the session stores instead, so the request writes a file from which everything else
is gone. And a write that fails may leave what is no JSON either.

The accesses are those of `SharedFile`: each is an interval, what is read during a write is
anything, and so is what overlapping or failing writes leave. The record is looked for in the
states in which no write is under way. What carries the proof is where the record stands in the
array, behind no more records than were stored since (`TokenUsageRecord.Behind`): the newest
record goes in front, and the cut is at 10000.
-/

namespace MissionControl

/-- **What the token file holds**: nothing, a text that is no JSON, or a value. -/
inductive TokenFile where
  | missing
  | unreadable
  | json (content : Json)

/-- **What is around the token records**: the runtime, and how many days the records are
retained. -/
structure TokenSite where
  rt : Runtime
  /-- `config.retention.tokenUsage`. -/
  tokenUsage : JsNumber

/-! ## Numbers -/

namespace JsNumber

/-- The number that a result is rounded to. -/
def rounded (q : ℚ) : JsNumber :=
  match Double.round q with
  | some r => finite r
  | none => infinity (decide (q < 0))

/-- `x + y`. -/
def add : JsNumber → JsNumber → JsNumber
  | nan, _ => nan
  | _, nan => nan
  | finite p, finite q => rounded (p + q)
  | infinity negative, infinity negative' => if negative = negative' then infinity negative else nan
  | infinity negative, finite _ => infinity negative
  | finite _, infinity negative => infinity negative

/-- `x * y`. -/
def mul : JsNumber → JsNumber → JsNumber
  | nan, _ => nan
  | _, nan => nan
  | finite p, finite q => rounded (p * q)
  | infinity negative, infinity negative' => infinity (negative ^^ negative')
  | infinity negative, finite q => if q = 0 then nan else infinity (negative ^^ decide (q < 0))
  | finite p, infinity negative => if p = 0 then nan else infinity (decide (p < 0) ^^ negative)

/-- `x / y`. -/
def div : JsNumber → JsNumber → JsNumber
  | nan, _ => nan
  | _, nan => nan
  | finite p, finite q =>
    if q = 0 then
      if p = 0 then nan else infinity (decide (p < 0))
    else rounded (p / q)
  | infinity _, infinity _ => nan
  | infinity negative, finite q => infinity (negative ^^ decide (q < 0))
  | finite _, infinity _ => finite 0

end JsNumber

/-! ## Records -/

/-- A record of the usage of a model. -/
structure TokenUsageRecord where
  id : String
  model : Json
  sessionId : Json
  timestamp : ℕ
  inputTokens : JsNumber
  outputTokens : JsNumber
  totalTokens : JsNumber
  cost : JsNumber
  operation : Json
  duration : Option Json

def TokenUsageRecord.json (r : TokenUsageRecord) : Json :=
  .object [("id", some (.str r.id)), ("model", some r.model),
    ("sessionId", some r.sessionId), ("timestamp", some (.ofNat r.timestamp)),
    ("inputTokens", some (.num r.inputTokens)), ("outputTokens", some (.num r.outputTokens)),
    ("totalTokens", some (.num r.totalTokens)), ("cost", some (.num r.cost)),
    ("operation", some r.operation), ("duration", r.duration)]

/-- `MODEL_PRICING`: the cost of 1000 tokens. -/
def modelPricing : List (String × ℚ) :=
  [("anthropic/claude-3-5-haiku-latest", 1 / 4), ("claude-3-5-haiku", 1 / 4),
    ("anthropic/claude-sonnet-4-20250514", 3), ("claude-sonnet-4", 3),
    ("anthropic/claude-opus-4-5", 15), ("claude-opus-4-5", 15),
    ("groq/llama-3.1-8b-instant", 1 / 20), ("groq/llama-3.3-70b-versatile", 59 / 100),
    ("moonshot/kimi-k2.5", 1), ("minimax/minimax-m2.1", 3 / 10),
    ("ollama/deepseek-r1:14b", 0), ("ollama/qwen2.5-coder:7b", 0),
    ("ollama/qwen2.5-coder:14b", 0)]

/-- `model.split('/').pop()`. -/
def lastSegment (model : String) : String :=
  String.ofList (model.toList.reverse.takeWhile (· ≠ '/')).reverse

/-- `x.includes`, on the values that have it. -/
def Json.includesText : Json → Except Exception (String → Bool)
  | .str s => .ok (includes s)
  | .arr elements => .ok fun part => elements.any fun x => equalsText (some x) part
  | _ => .error .typeError

/-- `getModelCost`. A cost that is no number makes everything it is multiplied by none. -/
def getModelCost (rt : Runtime) (model : Json) : Except Exception JsNumber := do
  let key ← model.toStr rt
  match modelPricing.lookup key with
  | some cost => .ok (.finite cost)
  | none =>
    if key ∈ objectPrototype then .ok .nan
    else
      let has ← model.includesText
      let found := modelPricing.find? fun (name, _) => has (lastSegment name)
      .ok (.finite ((found.map Prod.snd).getD 1))

/-- The record of a request, if its fields are there. -/
def newTokenRecord (site : TokenSite) (body : Json) (idTime : ℕ) (random : String)
    (now : ℕ) : Except Exception (Option TokenUsageRecord) := do
  let model ← Json.get (some body) "model"
  let sessionId ← Json.get (some body) "sessionId"
  let inputTokens ← Json.get (some body) "inputTokens"
  let outputTokens ← Json.get (some body) "outputTokens"
  let operation ← Json.get (some body) "operation"
  let duration ← Json.get (some body) "duration"
  match model, sessionId, inputTokens, outputTokens with
  | some model, some sessionId, some (.num inputTokens), some (.num outputTokens) =>
    if Json.truthy (some model) && Json.truthy (some sessionId) then
      let totalTokens := inputTokens.add outputTokens
      let costPer1k ← getModelCost site.rt model
      .ok (some {
        id := toString idTime ++ "-" ++ random
        model, sessionId
        timestamp := now
        inputTokens, outputTokens, totalTokens
        cost := (totalTokens.div (.finite 1000)).mul costPer1k
        operation := operation.getD (.str "chat_completion")
        duration })
    else .ok none
  | _, _, _, _ => .ok none

/-- **`POST /api/tokens`**, up to the file: the record, or what is answered at once. -/
def postTokens (site : TokenSite) (body : Option Json) (idTime : ℕ) (random : String)
    (now : ℕ) : Except ApiResponse TokenUsageRecord :=
  match body.map fun body => newTokenRecord site body idTime random now with
  | some (.ok (some r)) => .ok r
  | some (.ok none) => .error (.error 400 "Missing required fields")
  | some (.error _) | none => .error (.error 500 "Internal server error")

/-! ## Reading and writing the file -/

/-- The records of a file, where it holds some. -/
def TokenFile.records : TokenFile → List Json
  | json (.arr records) => records
  | _ => []

/-- `loadTokenData`: the records of the file, and those derived from the session stores
where the file has none. -/
def loadTokenData (file : TokenFile) (derived : List Json) : List Json :=
  if file.records = [] then derived else file.records

/-- `saveTokenData`, as the file is read back. -/
def saveTokenData (data : List Json) : TokenFile := .json (Json.arr data).stored

/-- The data with one more record: the first 10000. -/
def unshiftRecord (r : TokenUsageRecord) (data : List Json) : List Json :=
  if 10000 < data.length + 1 then (r.json :: data).take 10000 else r.json :: data

/-- `a >= b` on numbers. -/
def JsNumber.atLeast : JsNumber → JsNumber → Bool
  | nan, _ | _, nan => false
  | infinity false, _ | _, infinity true => true
  | _, infinity false | infinity true, _ => false
  | finite a, finite b => b ≤ a

theorem JsNumber.atLeast_finite (p q : ℚ) :
    (finite q).atLeast (finite p) = true ↔ p ≤ q := decide_eq_true_iff

theorem JsNumber.atLeast_trans {a b c : JsNumber} (h : b.atLeast a = true)
    (h' : c.atLeast b = true) : c.atLeast a = true := by
  obtain _ | (_ | _) | p := a <;> obtain _ | (_ | _) | q := b <;>
    obtain _ | (_ | _) | r := c <;> first
    | rfl
    | exact absurd h Bool.false_ne_true
    | exact absurd h' Bool.false_ne_true
    | skip
  rw [atLeast_finite] at *
  exact Rat.le_trans h h'

/-- `n > 0` on a number. -/
def JsNumber.positive : JsNumber → Bool
  | nan => false
  | infinity negative => !negative
  | finite q => 0 < q

/-- `Date.now() - days * 86400000`. -/
def cutoffMs (days : JsNumber) (now : ℕ) : JsNumber :=
  match days with
  | .nan => .nan
  | .infinity negative => .infinity (!negative)
  | .finite q => .finite (now - q * 86400000)

/-- `data.filter(r => r.timestamp >= cutoffMs)`. -/
def keptRecords (rt : Runtime) (cutoff : JsNumber) : List Json → Except Exception (List Json)
  | [] => .ok []
  | r :: data => do
    let timestamp ← Json.get (some r) "timestamp"
    let n ← Json.toNumber rt timestamp
    let kept ← keptRecords rt cutoff data
    .ok (if n.atLeast cutoff then r :: kept else kept)

/-- The data of a file as the cleanups take it: they have no other. -/
def TokenFile.filtered (rt : Runtime) (cutoff : JsNumber) :
    TokenFile → Except Exception (List Json × ℕ)
  | json (.arr data) => do
    let kept ← keptRecords rt cutoff data
    .ok (kept, data.length - kept.length)
  | _ => .error .typeError

/-! ## The requests -/

/-- A request that waits for the file: a record for which it is looked up whether there
is a file, and one for which the file is read, or a cleanup. -/
inductive TokenRequest where
  | access (r : TokenUsageRecord)
  | read (r : TokenUsageRecord)
  | cleanup (dryRun : Bool)

/-- What a file is written for: a record, which is acknowledged then – with whether the file
could be read –, or a cleanup at a time. -/
inductive TokenWrite where
  | record (r : TokenUsageRecord) (read : Bool)
  | cleaned (now : ℕ)

/-- What a request finds beside the file: whether it can be read, the time, and what
`deriveFromSessions` makes of the session stores. -/
structure TokenContext where
  reads : Bool
  now : ℕ
  derived : List Json

/-- A file that cannot be read is as good as none. -/
def TokenContext.sees (context : TokenContext) (file : TokenFile) : TokenFile :=
  if context.reads then file else .missing

/-- **What a request does with the file it has read.** -/
def tokenRequests (site : TokenSite) :
    TokenRequest → TokenContext → TokenFile → SharedCell.Move TokenRequest TokenWrite TokenFile
  | .access r, context, file =>
    match context.sees file with
    | .missing =>
      .write (.record r context.reads) (saveTokenData (unshiftRecord r context.derived))
    | _ => .read (.read r)
  | .read r, context, file =>
    .write (.record r context.reads)
      (saveTokenData (unshiftRecord r (loadTokenData (context.sees file) context.derived)))
  | .cleanup dryRun, context, file =>
    if site.tokenUsage.positive then
      match (context.sees file).filtered site.rt (cutoffMs site.tokenUsage context.now) with
      | .ok (kept, removed) =>
        if !dryRun && 0 < removed then .write (.cleaned context.now) (saveTokenData kept)
        else .stop
      | .error _ => .stop
    else .stop

/-- What happens: a request to store a record, a cleanup of the scheduler, a request for
one, and an access of the file that one of them waits for. -/
inductive TokenAction where
  | post (body : Option Json) (idTime : ℕ) (random : String) (now : ℕ)
  | runCleanup
  | postCleanup (body : Option Json)
  | resume (i : ℕ) (access : SharedFile.Access TokenContext TokenFile)

/-- `body.dry_run === true`, where a body that is no JSON is an empty one. -/
def dryRunOf (body : Option Json) : Except Exception Bool := do
  let dryRun ← Json.get (some (body.getD (.obj []))) "dry_run"
  .ok (match dryRun with
    | some (.bool true) => true
    | _ => false)

/-- The request that an action begins, or goes on with. -/
def TokenAction.access (site : TokenSite) :
    TokenAction → SharedFile.Action TokenRequest TokenContext TokenFile
  | post body idTime random now =>
    .start ((postTokens site body idTime random now).toOption.map .access)
  | runCleanup => .start (some (.cleanup false))
  | postCleanup body => .start ((dryRunOf body).toOption.map .cleanup)
  | resume i access => .resume i access

/-- The states of the file and of the requests for it. -/
abbrev TokenState := SharedFile.State TokenRequest TokenWrite TokenFile

abbrev TokenEvent := SharedFile.Event TokenWrite TokenFile

/-- **The token file**, its requests interleaving wherever they wait for it. -/
def tokenFile (site : TokenSite) : Machine TokenState TokenAction TokenEvent :=
  (SharedFile.machine (tokenRequests site)).comap (TokenAction.access site)

/-! ## Records that survive -/

def storesRecord : TokenEvent → Bool
  | .put _ (.record _ _) _ _ => true
  | _ => false

def storedRecords (es : List TokenEvent) : ℕ := es.countP storesRecord

def TokenUsageRecord.In (r : TokenUsageRecord) (file : TokenFile) : Prop :=
  r.json.stored ∈ file.records

/-- **The record is older than the retention** at a time. -/
def TokenUsageRecord.Older (r : TokenUsageRecord) (site : TokenSite) (now : ℕ) : Prop :=
  match site.tokenUsage with
  | .finite days => (r.timestamp : ℚ) < now - days * 86400000
  | _ => False

/-- A cleanup has written the file at a time at which the record was older than the
retention. -/
def TokenUsageRecord.Outlived (r : TokenUsageRecord) (site : TokenSite)
    (es : List TokenEvent) : Prop :=
  ∃ i now file whole, .put i (.cleaned now) file whole ∈ es ∧ r.Older site now

/-- A request has stored a record that could not read the file. -/
def Unread (es : List TokenEvent) : Prop :=
  ∃ i r file whole, .put i (.record r false) file whole ∈ es

/-- **Acknowledged records survive**, but for more than 10000 newer ones and the
retention. -/
def AcknowledgedKept (site : TokenSite) (es : List TokenEvent) (s : TokenState) : Prop :=
  ∀ before i r read w whole since, es = before ++ .put i (.record r read) w whole :: since →
    ∀ file, s.Holds file →
      r.In file ∨ 10000 < storedRecords since ∨ r.Outlived site since

/-- **What becomes of an acknowledged record**, wherever no write is under way: it is in the
file, or 10000 records were stored since, or it was older than the retention at a cleanup, or
a request has written the file since that had not read it whole, or not at all, or the file
was left in pieces, by this write or since: a write failed, or overlapped another one. -/
def TokenRecordsKept (site : TokenSite) (es : List TokenEvent) (s : TokenState) : Prop :=
  ∀ before i r read w whole since, es = before ++ .put i (.record r read) w whole :: since →
    ∀ file, s.Holds file →
      r.In file ∨ 10000 ≤ storedRecords since ∨ r.Outlived site since
        ∨ SharedFile.Overwritten since ∨ Unread since
        ∨ SharedFile.Torn (.put i (.record r read) w whole :: since)

section Kept

variable {site : TokenSite} {r : TokenUsageRecord}

theorem records_saveTokenData (data : List Json) :
    (saveTokenData data).records = data.map Json.stored := by
  unfold saveTokenData
  rw [Json.stored_arr]
  rfl

theorem unshiftRecord_eq_take (data : List Json) :
    unshiftRecord r data = (r.json :: data).take 10000 := by
  unfold unshiftRecord
  split
  · rfl
  · next h => rw [List.take_of_length_le (by rw [List.length_cons]; omega)]

/-- **What a record is written with**: the records of the file as it was read, if it has
some. -/
theorem eq_of_write_record {q : TokenRequest} {context : TokenContext} {u w : TokenFile}
    {read : Bool} (h : tokenRequests site q context u = .write (.record r read) w) :
    ∃ data, w = saveTokenData (unshiftRecord r data)
      ∧ (read = true → u.records ≠ [] → data = u.records) := by
  unfold tokenRequests TokenContext.sees at h
  cases q with
  | access r' =>
    dsimp only at h
    split at h
    · next hmissing =>
      cases h
      refine ⟨context.derived, rfl, fun hread hne => absurd ?_ hne⟩
      rw [if_pos hread] at hmissing
      rw [hmissing]
      rfl
    · cases h
  | read r' =>
    cases h
    refine ⟨_, rfl, fun hread hne => ?_⟩
    rw [if_pos hread]
    exact if_neg hne
  | cleanup dryRun =>
    dsimp only at h
    split at h
    · split at h
      · split at h <;> cases h
      · cases h
    · cases h

/-- **What a cleanup writes**: the records of the file that are within the retention. -/
theorem eq_of_write_cleaned {q : TokenRequest} {context : TokenContext} {u w : TokenFile}
    {now : ℕ} (h : tokenRequests site q context u = .write (.cleaned now) w) :
    site.tokenUsage.positive = true ∧ ∃ kept, w = saveTokenData kept
      ∧ keptRecords site.rt (cutoffMs site.tokenUsage now) u.records = .ok kept := by
  unfold tokenRequests TokenContext.sees at h
  cases q with
  | access r' =>
    dsimp only at h
    split at h <;> cases h
  | read r' => cases h
  | cleanup dryRun =>
    dsimp only at h
    split at h
    · next hpositive =>
      refine ⟨hpositive, ?_⟩
      split at h
      · next kept removed hfiltered =>
        split at h
        · cases h
          cases hreads : context.reads with
          | false =>
            rw [hreads] at hfiltered
            exact nomatch hfiltered
          | true =>
            rw [hreads, if_pos rfl] at hfiltered
            match u with
            | .json (.arr data) =>
              obtain ⟨kept', hkept, heq⟩ := bind_eq_ok.mp hfiltered
              cases heq
              exact ⟨_, rfl, hkept⟩
            | .missing | .unreadable | .json .null | .json (.bool _) | .json (.num _)
            | .json (.str _) | .json (.obj _) => exact nomatch hfiltered
        · cases h
      · cases h
    · cases h

theorem get_timestamp_stored (r : TokenUsageRecord) :
    Json.get (some r.json.stored) "timestamp" = .ok (some (.ofNat r.timestamp)) := rfl

/-- **The filter keeps a record** that is recent enough, and nothing new before it. -/
theorem keptRecords_append {rt : Runtime} {cutoff n : JsNumber} {x : Json}
    {timestamp : Option Json} (hx : Json.get (some x) "timestamp" = .ok timestamp)
    (hn : Json.toNumber rt timestamp = .ok n) (hrecent : n.atLeast cutoff = true)
    {before after kept : List Json}
    (h : keptRecords rt cutoff (before ++ x :: after) = .ok kept) :
    ∃ before' after', kept = before' ++ x :: after' ∧ before'.length ≤ before.length := by
  induction before generalizing kept with
  | nil =>
    obtain ⟨timestamp', htimestamp, h⟩ := bind_eq_ok.mp h
    obtain rfl : timestamp = timestamp' := Except.ok.inj (hx.symm.trans htimestamp)
    obtain ⟨n', hn', h⟩ := bind_eq_ok.mp h
    obtain rfl : n = n' := Except.ok.inj (hn.symm.trans hn')
    obtain ⟨rest, -, h⟩ := bind_eq_ok.mp h
    rw [if_pos hrecent] at h
    exact ⟨[], rest, (Except.ok.inj h).symm, le_refl 0⟩
  | cons y before ih =>
    obtain ⟨_, -, h⟩ := bind_eq_ok.mp h
    obtain ⟨_, -, h⟩ := bind_eq_ok.mp h
    obtain ⟨rest, hrest, h⟩ := bind_eq_ok.mp h
    obtain ⟨before', after', rfl, hle⟩ := ih hrest
    split at h
    · cases h
      exact ⟨y :: before', after', rfl, Nat.succ_le_succ hle⟩
    · cases h
      exact ⟨before', after', rfl, hle.trans (Nat.le_succ _)⟩

theorem older_of_not_atLeast {now : ℕ} (hpositive : site.tokenUsage.positive = true)
    (h : JsNumber.atLeast (.finite r.timestamp) (cutoffMs site.tokenUsage now) ≠ true) :
    r.Older site now := by
  unfold TokenUsageRecord.Older
  match hdays : site.tokenUsage with
  | .nan | .infinity true =>
    rw [hdays] at hpositive
    exact nomatch hpositive
  | .infinity false =>
    rw [hdays] at h
    exact absurd rfl h
  | .finite days =>
    rw [hdays] at h
    show (r.timestamp : ℚ) < now - days * 86400000
    exact Rat.not_le.mp fun hle => h (decide_eq_true hle)

/-- **The record is in the file behind no more records than were stored since.** -/
def TokenUsageRecord.Behind (r : TokenUsageRecord) (n : ℕ) (file : TokenFile) : Prop :=
  ∃ before after, file.records = before ++ r.json.stored :: after ∧ before.length ≤ n

theorem TokenUsageRecord.Behind.mono {m n : ℕ} {file : TokenFile} (h : r.Behind m file)
    (hmn : m ≤ n) : r.Behind n file := by
  obtain ⟨before, after, hrecords, hle⟩ := h
  exact ⟨before, after, hrecords, hle.trans hmn⟩

theorem TokenUsageRecord.Behind.mem {n : ℕ} {file : TokenFile} (h : r.Behind n file) :
    r.In file := by
  obtain ⟨before, after, hrecords, -⟩ := h
  unfold TokenUsageRecord.In
  rw [hrecords]
  exact List.mem_append_right before List.mem_cons_self

theorem behind_unshiftRecord (data : List Json) :
    r.Behind 0 (saveTokenData (unshiftRecord r data)) := by
  refine ⟨[], (data.take 9999).map Json.stored, ?_, le_refl 0⟩
  rw [records_saveTokenData, unshiftRecord_eq_take]
  rfl

/-- **A newer record** moves it back by one, or out. -/
theorem TokenUsageRecord.Behind.unshift {n : ℕ} {file : TokenFile} (h : r.Behind n file)
    (newer : TokenUsageRecord) :
    r.Behind (n + 1) (saveTokenData (unshiftRecord newer file.records)) ∨ 10000 ≤ n + 1 := by
  obtain ⟨before, after, hrecords, hle⟩ := h
  by_cases hroom : before.length + 1 < 10000
  · refine .inl ⟨newer.json.stored :: before.map Json.stored,
      (after.take (10000 - (before.length + 2))).map Json.stored, ?_, ?_⟩
    · have htake : (newer.json :: (before ++ r.json.stored :: after)).take 10000
          = newer.json :: before ++ r.json.stored
            :: after.take (10000 - (before.length + 2)) := by
        rw [← List.cons_append, List.take_append, List.take_of_length_le (Nat.le_of_lt hroom),
          List.length_cons, List.take_cons (by omega)]
        rfl
      rw [records_saveTokenData, unshiftRecord_eq_take, hrecords, htake, List.map_append,
        List.map_cons, List.map_cons, Json.stored_stored]
    · rw [List.length_cons, List.length_map]
      omega
  · exact .inr (by omega)

/-- **A cleanup** leaves it, or it is older than the retention. -/
theorem TokenUsageRecord.Behind.cleanup {n now : ℕ} {file : TokenFile} (h : r.Behind n file)
    (hpositive : site.tokenUsage.positive = true) {kept : List Json}
    (hkept : keptRecords site.rt (cutoffMs site.tokenUsage now) file.records = .ok kept) :
    r.Behind n (saveTokenData kept) ∨ r.Older site now := by
  obtain ⟨before, after, hrecords, hle⟩ := h
  rw [hrecords] at hkept
  by_cases hrecent : JsNumber.atLeast (.finite r.timestamp) (cutoffMs site.tokenUsage now)
      = true
  · obtain ⟨before', after', rfl, hle'⟩ :=
      keptRecords_append (get_timestamp_stored r) rfl hrecent hkept
    refine .inl ⟨before'.map Json.stored, after'.map Json.stored, ?_, ?_⟩
    · rw [records_saveTokenData, List.map_append, List.map_cons, Json.stored_stored]
    · rw [List.length_map]
      exact hle'.trans hle
  · exact .inr (older_of_not_atLeast hpositive hrecent)

/-- What is kept of a record: its place in the file, unless it was superseded or the file
could not be read. -/
def TokenUsageRecord.Kept (r : TokenUsageRecord) (site : TokenSite) (es : List TokenEvent)
    (file : TokenFile) : Prop :=
  r.Behind (storedRecords es) file ∨ 10000 ≤ storedRecords es ∨ r.Outlived site es ∨ Unread es

theorem TokenUsageRecord.Outlived.mono {es es' : List TokenEvent} (h : r.Outlived site es)
    (hsub : es.Sublist es') : r.Outlived site es' := by
  obtain ⟨i, now, file, whole, hmem, holder⟩ := h
  exact ⟨i, now, file, whole, hsub.subset hmem, holder⟩

theorem Unread.mono {es es' : List TokenEvent} (h : Unread es) (hsub : es.Sublist es') :
    Unread es' := by
  obtain ⟨i, r, file, whole, hmem⟩ := h
  exact ⟨i, r, file, whole, hsub.subset hmem⟩

theorem TokenUsageRecord.Kept.mono {es es' : List TokenEvent} {file : TokenFile}
    (hsub : es.Sublist es') (h : r.Kept site es file) : r.Kept site es' file := by
  have hle : storedRecords es ≤ storedRecords es' := hsub.countP_le
  rcases h with h | h | h | h
  · exact .inl (h.mono hle)
  · exact .inr (.inl (h.trans hle))
  · exact .inr (.inr (.inl (h.mono hsub)))
  · exact .inr (.inr (.inr (h.mono hsub)))

/-- **Every request keeps what it has read**, as it is kept. -/
theorem TokenUsageRecord.Kept.write {es : List TokenEvent} {u w : TokenFile} (j : ℕ)
    {q : TokenRequest} {context : TokenContext} {o : TokenWrite} (h : r.Kept site es u)
    (hwrite : tokenRequests site q context u = .write o w) :
    r.Kept site (es ++ [.put j o w true]) w := by
  have hsub : es.Sublist (es ++ [.put j o w true]) := List.sublist_append_left es _
  have hlast : .put j o w true ∈ es ++ [.put j o w true] :=
    List.mem_append_right es List.mem_cons_self
  rcases h with h | h
  · cases o with
    | record newer read =>
      cases read with
      | false => exact .inr (.inr (.inr ⟨j, newer, w, true, hlast⟩))
      | true =>
        have hcount : storedRecords (es ++ [.put j (.record newer true) w true])
            = storedRecords es + 1 := List.countP_append
        obtain ⟨data, rfl, hdata⟩ := eq_of_write_record hwrite
        obtain rfl : data = u.records := by
          obtain ⟨before, after, hrecords, -⟩ := h
          exact hdata rfl (by rw [hrecords]; simp)
        unfold TokenUsageRecord.Kept
        rw [hcount]
        exact (h.unshift newer).imp_right .inl
    | cleaned now =>
      obtain ⟨hpositive, kept, rfl, hkept⟩ := eq_of_write_cleaned hwrite
      rcases h.cleanup hpositive hkept with h | h
      · exact .inl (h.mono hsub.countP_le)
      · exact .inr (.inr (.inl ⟨j, now, _, true, hlast, h⟩))
  · exact .mono hsub (.inr h)

end Kept

/-- **What becomes of the acknowledged records** in any run. The record's own write puts it in
front if it is whole, and every request that reads the file whole after that and writes it
keeps the record where it is, moves it back by one, or finds it too old; what is left are the
ways in which the accesses of a file disturb each other. -/
theorem tokenRecords_kept (site : TokenSite) (file : TokenFile) (actions : List TokenAction) :
    TokenRecordsKept site ((tokenFile site).trace (.idle file) actions)
      ((tokenFile site).state (.idle file) actions) := by
  rintro before i r read w whole since htrace _ ⟨-, rfl⟩
  cases whole with
  | false => exact .inr (.inr (.inr (.inr (.inr (.inl ⟨i, _, w, List.mem_cons_self⟩)))))
  | true =>
    unfold tokenFile at htrace ⊢
    rw [Machine.trace_comap] at htrace
    rw [Machine.state_comap]
    have hput : .put i (.record r read) w true ∈ (SharedFile.machine (tokenRequests site)).trace
        (.idle file) (actions.map (TokenAction.access site)) := by
      rw [htrace]
      exact List.mem_append_right before List.mem_cons_self
    obtain ⟨q, context, u, hmade⟩ := SharedFile.made_of_put file _ hput
    obtain ⟨data, rfl, -⟩ := eq_of_write_record hmade
    have hkept := SharedFile.kept (G := r.Kept site) file _ htrace
      (.inl (behind_unshiftRecord data)) (fun _ _ _ => .mono)
      (fun _ j _ _ _ _ _ h => h.write j)
    rcases hkept with (hbehind | hlimit | houtlived | hunread) | hover | htorn
    · exact .inl hbehind.mem
    · exact .inr (.inl hlimit)
    · exact .inr (.inr (.inl houtlived))
    · exact .inr (.inr (.inr (.inr (.inl hunread))))
    · exact .inr (.inr (.inr (.inl hover)))
    · exact .inr (.inr (.inr (.inr (.inr (htorn.mono (List.subset_cons_self _ _))))))

/-! ## Two requests, and 10001 of them -/

/-- A site whose records are retained for 90 days. -/
def sampleTokenSite : TokenSite where
  rt := sampleRuntime
  tokenUsage := .finite 90

/-- A request without tokens, at a time. -/
def sampleTokenPost (now : ℕ) : TokenAction :=
  .post (some (.obj [("model", .str "claude-opus-4-5"), ("sessionId", .str "main:chat"),
    ("inputTokens", .ofNat 0), ("outputTokens", .ofNat 0)])) now "4fzyo82mv" now

/-- Its record. -/
def sampleTokenRecord (now : ℕ) : TokenUsageRecord where
  id := toString now ++ "-" ++ "4fzyo82mv"
  model := .str "claude-opus-4-5"
  sessionId := .str "main:chat"
  timestamp := now
  inputTokens := .finite 0
  outputTokens := .finite 0
  totalTokens := .finite 0
  cost := .finite 0
  operation := .str "chat_completion"
  duration := none

theorem postTokens_sampleTokenPost (now : ℕ) :
    postTokens sampleTokenSite (some (.obj [("model", .str "claude-opus-4-5"),
      ("sessionId", .str "main:chat"), ("inputTokens", .ofNat 0), ("outputTokens", .ofNat 0)]))
      now "4fzyo82mv" now = .ok (sampleTokenRecord now) := by
  have htotal : (JsNumber.finite 0).add (.finite 0) = .finite 0 := by decide +kernel
  have hcost : ((JsNumber.finite 0).div (.finite 1000)).mul (.finite 15) = .finite 0 := by
    decide +kernel
  have hrecord : sampleTokenRecord now = { sampleTokenRecord now with
      totalTokens := (JsNumber.finite 0).add (.finite 0)
      cost := (((JsNumber.finite 0).add (.finite 0)).div (.finite 1000)).mul (.finite 15) } := by
    rw [htotal, hcost]
    rfl
  rw [hrecord]
  with_unfolding_all rfl

theorem step_sampleTokenPost (s : TokenState) (now : ℕ) :
    (tokenFile sampleTokenSite).step s (sampleTokenPost now)
      = ({ s with programs :=
          s.programs.insert (.reading (.access (sampleTokenRecord now)) s.quiet) }, []) := by
  have haccess : (sampleTokenPost now).access sampleTokenSite
      = .start (some (.access (sampleTokenRecord now))) := by
    unfold sampleTokenPost TokenAction.access
    dsimp only
    rw [postTokens_sampleTokenPost]
    rfl
  unfold tokenFile Machine.comap
  dsimp only
  rw [haccess]
  rfl

theorem sampleTokenRecord_injective {m n : ℕ}
    (h : (sampleTokenRecord m).json.stored = (sampleTokenRecord n).json.stored) : m = n := by
  have htimestamp := get_timestamp_stored (sampleTokenRecord m)
  rw [h, get_timestamp_stored] at htimestamp
  injection htimestamp with h
  injection h with h
  injection h with h
  injection h with h
  exact (Rat.natCast_inj.mp h).symm

/-- An access of the file by a request, which finds what is no JSON where a write is under
way. -/
def sampleTokenResume (i : ℕ) : TokenAction := .resume i ⟨⟨true, 0, []⟩, false, .unreadable⟩

theorem step_sampleTokenResume (s : TokenState) (i : ℕ) :
    (tokenFile sampleTokenSite).step s (sampleTokenResume i)
      = (SharedFile.machine (tokenRequests sampleTokenSite)).step s
        (.resume i ⟨⟨true, 0, []⟩, false, .unreadable⟩) := rfl

/-- The end of a write that overlaps another one, and is the later of the two. -/
def sampleTokenLast (i : ℕ) (now : ℕ) : TokenAction :=
  .resume i ⟨⟨true, 0, []⟩, false, saveTokenData (unshiftRecord (sampleTokenRecord now) [])⟩

theorem step_sampleTokenLast (s : TokenState) (i now : ℕ) :
    (tokenFile sampleTokenSite).step s (sampleTokenLast i now)
      = (SharedFile.machine (tokenRequests sampleTokenSite)).step s (.resume i ⟨⟨true, 0, []⟩,
        false, saveTokenData (unshiftRecord (sampleTokenRecord now) [])⟩) := rfl

/-- **Two requests are about to write at the same time**, each with its own record; the second
one finds the file as it was before, and writes last. -/
def sampleTokenRace : List TokenAction :=
  [sampleTokenPost 0, sampleTokenPost 1] ++ [1, 2, 1].map sampleTokenResume
    ++ [.resume 2 ⟨⟨true, 0, []⟩, false, .json (.arr [])⟩, sampleTokenResume 1, sampleTokenLast 2 1]

/-- The accesses of one request after the other, each with its record. -/
def sampleTokenPosts (n : ℕ) : List TokenAction :=
  (List.range n).flatMap fun now => sampleTokenPost now :: [now + 1, now + 1, now + 1].map
    sampleTokenResume

/-- **A third request reads the file while the second one writes it**, after the first. -/
def sampleTokenTorn : List TokenAction :=
  sampleTokenPost 0 :: [1, 1, 1].map sampleTokenResume
    ++ (sampleTokenPost 1 :: [2, 2].map sampleTokenResume)
    ++ (sampleTokenPost 2 :: [3, 2, 3, 3].map sampleTokenResume)

/-- **A request that runs alone** stores its record in front of those of the file. -/
theorem tokenFile_alone {s : TokenState} (now i : ℕ) (hi : s.programs.next = i)
    (hquiet : s.quiet = true) {xs : List Json} (hvalue : s.value = .json (.arr xs)) :
    let actions := sampleTokenPost now :: [i, i, i].map sampleTokenResume
    let w := saveTokenData (unshiftRecord (sampleTokenRecord now) (loadTokenData s.value []))
    ((tokenFile sampleTokenSite).state s actions).value = w
      ∧ ((tokenFile sampleTokenSite).state s actions).programs.next = i + 1
      ∧ ((tokenFile sampleTokenSite).state s actions).quiet = true
      ∧ (tokenFile sampleTokenSite).trace s actions
        = [.took i true, .put i (.record (sampleTokenRecord now) true) w true] := by
  obtain ⟨file, programs⟩ := s
  obtain rfl : file = .json (.arr xs) := hvalue
  obtain rfl : programs.next = i := hi
  let started : TokenState := ⟨.json (.arr xs),
    programs.insert (.reading (.access (sampleTokenRecord now)) true)⟩
  let reads : TokenState := ⟨.json (.arr xs), started.programs.update programs.next
    fun _ => .reading (.read (sampleTokenRecord now)) true⟩
  have hstarted : started.quiet = true := SharedFile.quiet_insert hquiet
  have hreads : reads.quiet = true := SharedFile.quiet_update hstarted
  have hfinished := fun v u o => @SharedFile.quiet_finish _ _ _ _ hreads v u programs.next o true
  dsimp only [started, reads] at hstarted hreads hfinished
  simp [Machine.state, Machine.trace, Machine.run, Machine.next, Machine.emits,
    step_sampleTokenPost, step_sampleTokenResume, SharedFile.machine, tokenRequests,
    TokenContext.sees, hquiet, hstarted, hreads, hfinished]

/-- **Two requests that overlap**: both are acknowledged, and the file holds the record of
the second alone. -/
theorem tokenFile_sampleRace :
    ((tokenFile sampleTokenSite).state (.idle (.json (.arr []))) sampleTokenRace).Holds
        (saveTokenData (unshiftRecord (sampleTokenRecord 1) []))
      ∧ (tokenFile sampleTokenSite).trace (.idle (.json (.arr []))) sampleTokenRace
        = [.took 1 true, .took 2 false] ++ .put 1 (.record (sampleTokenRecord 0) true)
            (saveTokenData (unshiftRecord (sampleTokenRecord 0) [])) false
          :: [.put 2 (.record (sampleTokenRecord 1) true)
            (saveTokenData (unshiftRecord (sampleTokenRecord 1) [])) false] := by
  unfold sampleTokenRace Machine.state Machine.trace Machine.run
  simp only [List.map_cons, List.map_nil, List.cons_append, List.nil_append,
    List.foldl_cons, List.foldl_nil, Machine.next, Machine.emits, step_sampleTokenPost,
    step_sampleTokenResume, step_sampleTokenLast]
  exact ⟨⟨rfl, rfl⟩, rfl⟩

/-- **A request that reads while another one writes**: the file holds its record alone, though
the record of the first request was written long before. -/
theorem tokenFile_sampleTorn :
    ((tokenFile sampleTokenSite).state (.idle (.json (.arr []))) sampleTokenTorn).Holds
        (saveTokenData (unshiftRecord (sampleTokenRecord 2) []))
      ∧ ∃ first second third, (tokenFile sampleTokenSite).trace (.idle (.json (.arr [])))
            sampleTokenTorn
          = [.took 1 true] ++ .put 1 (.record (sampleTokenRecord 0) true) first true
            :: [.took 2 true, .put 2 (.record (sampleTokenRecord 1) true) second true,
              .took 3 false, .put 3 (.record (sampleTokenRecord 2) true) third true] := by
  unfold sampleTokenTorn Machine.state Machine.trace Machine.run
  simp only [List.map_cons, List.map_nil, List.cons_append, List.nil_append,
    List.foldl_cons, List.foldl_nil, Machine.next, Machine.emits, step_sampleTokenPost,
    step_sampleTokenResume]
  exact ⟨⟨rfl, rfl⟩, _, _, _, rfl⟩

/-- Whether a longer list was cut before is not seen after the next cut. -/
theorem take_cons_take {α : Type} (x : α) (xs : List α) (k : ℕ) :
    (x :: xs.take k).take k = (x :: xs).take k := by
  cases k with
  | zero => rfl
  | succ k => rw [List.take_succ_cons, List.take_succ_cons, List.take_take, Nat.min_eq_left
      (Nat.le_succ k)]

/-- **What n requests after each other leave**: the newest records, 10000 at most. -/
structure StoredInTurn (n : ℕ) (es : List TokenEvent) (s : TokenState) : Prop where
  value : s.value = .json (.arr (((List.range n).reverse.take 10000).map fun now =>
    (sampleTokenRecord now).json.stored))
  quiet : s.quiet = true
  next : s.programs.next = n + 1
  clean : ∀ i now w whole, .put i (.cleaned now) w whole ∉ es
  first : 0 < n → ∃ since w, es = [.took 1 true]
      ++ .put 1 (.record (sampleTokenRecord 0) true) w true :: since
    ∧ storedRecords since + 1 = n

theorem storedInTurn (n : ℕ) :
    StoredInTurn n ((tokenFile sampleTokenSite).trace (.idle (.json (.arr [])))
        (sampleTokenPosts n))
      ((tokenFile sampleTokenSite).state (.idle (.json (.arr []))) (sampleTokenPosts n)) := by
  induction n with
  | zero =>
    exact ⟨rfl, rfl, rfl, by simp [sampleTokenPosts], fun h => absurd h (Nat.lt_irrefl 0)⟩
  | succ n ih =>
    have hposts : sampleTokenPosts (n + 1)
        = sampleTokenPosts n ++ (sampleTokenPost n :: [n + 1, n + 1, n + 1].map
          sampleTokenResume) := by
      unfold sampleTokenPosts
      rw [List.range_succ, List.flatMap_append, List.flatMap_singleton]
    obtain ⟨hstored, hprograms, hquiet, htrace⟩ :=
      tokenFile_alone n (n + 1) ih.next ih.quiet ih.value
    rw [hposts, Machine.state_append, Machine.trace_append, htrace]
    refine ⟨?_, hquiet, hprograms, ?_, fun _ => ?_⟩
    · have hload : ∀ xs, loadTokenData (.json (.arr xs)) [] = xs := by
        intro xs
        unfold loadTokenData
        split
        · next h => exact h.symm
        · rfl
      rw [hstored, ih.value, hload, unshiftRecord_eq_take, saveTokenData, Json.stored_arr,
        List.map_take, List.map_cons, List.map_map]
      simp only [Function.comp_def, Json.stored_stored]
      rw [List.map_take, take_cons_take, List.range_succ, List.reverse_append, List.map_take]
      rfl
    · intro i now w whole hmem
      rcases List.mem_append.mp hmem with hmem | hmem
      · exact ih.clean i now w whole hmem
      · simp at hmem
    · cases n with
      | zero => exact ⟨[], _, rfl, rfl⟩
      | succ n =>
        obtain ⟨since, w, hes, hcount⟩ := ih.first (Nat.succ_pos n)
        rw [hes, List.append_assoc, List.cons_append]
        refine ⟨_, w, rfl, ?_⟩
        rw [← hcount]
        exact congrArg (· + 1) List.countP_append

theorem StoredInTurn.newest {n now : ℕ} {es : List TokenEvent} {s : TokenState}
    (h : StoredInTurn n es s) (hin : (sampleTokenRecord now).In s.value) :
    now ∈ (List.range n).reverse.take 10000 := by
  unfold TokenUsageRecord.In at hin
  rw [h.value] at hin
  obtain ⟨now', hnow, heq⟩ := List.mem_map.mp hin
  rwa [sampleTokenRecord_injective heq] at hnow

theorem zero_notMem_newest (n : ℕ) : 0 ∉ (List.range (n + 1)).reverse.take n := by
  rw [List.take_reverse, List.mem_reverse, List.length_range, Nat.add_sub_cancel_left,
    List.range_eq_range', List.drop_range', List.mem_range'_1]
  omega

/-- Every record that is acknowledged is kept in a run that begins with an empty file. -/
def KeptInRun (actions : List TokenAction) : Prop :=
  AcknowledgedKept sampleTokenSite
    ((tokenFile sampleTokenSite).trace (.idle (.json (.arr []))) actions)
    ((tokenFile sampleTokenSite).state (.idle (.json (.arr []))) actions)

/-- **Lost records, and one that is cut off behind exactly 10000 newer ones**: of two requests
that overlap, the first loses its record; a request that reads during a write drops what was
stored before; and of 10001 requests, one after the other, the first record goes. -/
theorem not_acknowledgedKept_samples :
    ¬ KeptInRun sampleTokenRace ∧ ¬ KeptInRun sampleTokenTorn
      ∧ ¬ KeptInRun (sampleTokenPosts 10001) := by
  refine ⟨fun h => ?_, fun h => ?_, fun h => ?_⟩
  · obtain ⟨hholds, htrace⟩ := tokenFile_sampleRace
    rcases h _ 1 _ _ _ _ _ htrace _ hholds with hin | hlimit | ⟨i, now, file, whole, hmem, -⟩
    · exact absurd (sampleTokenRecord_injective (List.mem_singleton.mp hin)) (by decide)
    · exact absurd hlimit (by decide)
    · simp at hmem
  · obtain ⟨hholds, first, second, third, htrace⟩ := tokenFile_sampleTorn
    rcases h _ 1 _ _ _ _ _ htrace _ hholds with hin | hlimit | ⟨i, now, file, whole, hmem, -⟩
    · exact absurd (sampleTokenRecord_injective (List.mem_singleton.mp hin)) (by decide)
    · exact absurd (hlimit.trans_le List.countP_le_length) (by simp)
    · simp at hmem
  · have hturn := storedInTurn 10001
    obtain ⟨since, w, htrace, hcount⟩ := hturn.first (Nat.succ_pos _)
    rcases h [.took 1 true] 1 (sampleTokenRecord 0) true w true since htrace _
        ⟨hturn.quiet, rfl⟩ with hin | hlimit | ⟨i, now, file, whole, hmem, -⟩
    · exact zero_notMem_newest 10000 (hturn.newest hin)
    · omega
    · exact hturn.clean i now file whole
        (htrace ▸ List.mem_append_right _ (List.mem_cons_of_mem _ hmem))

end MissionControl
