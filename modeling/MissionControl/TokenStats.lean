import Mathlib.Algebra.Order.BigOperators.Group.List
import Mathlib.Algebra.Order.Group.Nat
import Mathlib.Algebra.Ring.Int.Defs
import MissionControl.Library.Groups
import MissionControl.TokenUsage

/-!
# Statistics of the token records

`GET /api/tokens?action=stats` groups the records by model, by session and by agent, and
answers with the statistics of each group. A group is a property of a plain object, under
the name that the record has. What such an object inherits is taken for a group, and is
none: a record of the model `constructor` makes the request fail, and every one after it
(`not_statsPartition_sampleConstructor`).

Where no name is inherited, the groups partition the records, and so do their counts. The sums
are sums of doubles, and each addition rounds (`JsNumber.add`), so those of the groups agree with
that of the summary as long as the tokens are whole numbers that a double holds one by one, which
come to no more than 2^53; fractions agree by accident only (`statsPartition_names`).
-/

namespace MissionControl

/-! ## The statistics -/

structure TokenStats where
  totalTokens : JsNumber
  totalCost : JsNumber
  requestCount : ℕ
  avgTokensPerRequest : JsNumber
  avgCostPerRequest : JsNumber

def mathRound : JsNumber → JsNumber
  | .finite q => .finite (q + 1 / 2).floor
  | n => n

/-- What a number of a record adds: one that is not finite is `null` in the file, and adds
nothing. -/
def JsNumber.added : JsNumber → JsNumber
  | .finite q => .finite q
  | _ => .finite 0

/-- `records.reduce((sum, r) => sum + …, 0)`. -/
def sumOf (f : TokenUsageRecord → JsNumber) (records : List TokenUsageRecord) : JsNumber :=
  records.foldl (fun sum r => sum.add (f r).added) (.finite 0)

/-- **`calculateStats`.** -/
def calculateStats (records : List TokenUsageRecord) : TokenStats :=
  if records = [] then ⟨.finite 0, .finite 0, 0, .finite 0, .finite 0⟩
  else
    let totalTokens := sumOf TokenUsageRecord.totalTokens records
    let totalCost := sumOf TokenUsageRecord.cost records
    let requestCount := records.length
    { totalTokens, totalCost, requestCount
      avgTokensPerRequest := mathRound (totalTokens.div (.finite requestCount))
      avgCostPerRequest := totalCost.div (.finite requestCount) }

/-- The milliseconds that a timeframe goes back, if it is one of those with a cutoff. -/
def timeframeMs : String → Option ℕ
  | "hour" => some (60 * 60 * 1000)
  | "day" => some (24 * 60 * 60 * 1000)
  | "week" => some (7 * 24 * 60 * 60 * 1000)
  | "month" => some (30 * 24 * 60 * 60 * 1000)
  | _ => none

def filterByTimeframe (now : ℕ) (timeframe : String) (records : List TokenUsageRecord) :
    List TokenUsageRecord :=
  match timeframeMs timeframe with
  | some ms => records.filter fun r => decide ((now : ℤ) - ms ≤ r.timestamp)
  | none => records

/-- `acc[key].push(record)`, behind `if (!acc[key]) acc[key] = []`. What is inherited counts
as true and has no `push`. -/
def pushRecord (groups : List (String × List TokenUsageRecord)) (key : String)
    (r : TokenUsageRecord) : Except Exception (List (String × List TokenUsageRecord)) :=
  if (groups.lookup key).isNone ∧ key ∈ objectPrototype then .error .typeError
  else .ok (Groups.push key r groups)

/-- The groups of the records, in the order in which they are made. -/
def groupRecords (key : TokenUsageRecord → Except Exception String)
    (records : List TokenUsageRecord) : Except Exception (List (String × List TokenUsageRecord)) :=
  records.foldlM (fun groups r => do
    let k ← key r
    pushRecord groups k r) []

def groupStats (key : TokenUsageRecord → Except Exception String)
    (records : List TokenUsageRecord) : Except Exception (List (String × TokenStats)) := do
  let groups ← groupRecords key records
  .ok (groups.map fun g => (g.1, calculateStats g.2))

/-- The name of a model, as a property. -/
def modelKey (rt : Runtime) (r : TokenUsageRecord) : Except Exception String := r.model.toStr rt

/-- The name of a session, as a property. -/
def sessionKey (rt : Runtime) (r : TokenUsageRecord) : Except Exception String :=
  r.sessionId.toStr rt

/-- `sessionId.split(':')[0] || 'unknown'`. -/
def agentName (sessionId : String) : String :=
  orElse (String.ofList (sessionId.toList.takeWhile (· ≠ ':'))) "unknown"

def agentKey (r : TokenUsageRecord) : Except Exception String := do
  let sessionId ← r.sessionId.asString
  .ok (agentName sessionId)

structure TokenReport where
  summary : TokenStats
  models : List (String × TokenStats)
  sessions : List (String × TokenStats)
  agents : List (String × TokenStats)
  timeframe : String
  recordCount : ℕ

def tokenReport (site : TokenSite) (timeframe : String) (filtered : List TokenUsageRecord) :
    Except Exception TokenReport := do
  let models ← groupStats (modelKey site.rt) filtered
  let sessions ← groupStats (sessionKey site.rt) filtered
  let agents ← groupStats agentKey filtered
  .ok ⟨calculateStats filtered, models, sessions, agents, timeframe, filtered.length⟩

/-- **`GET /api/tokens?action=stats`** on the records that are loaded. -/
def getTokenStats (site : TokenSite) (now : ℕ) (timeframe : String)
    (records : List TokenUsageRecord) : Except ApiResponse TokenReport :=
  match tokenReport site timeframe (filterByTimeframe now timeframe records) with
  | .ok report => .ok report
  | .error _ => .error (.error 500 "Internal server error")

/-! ## What the statistics are to say -/

/-- The text of a value, if it is one. -/
def Json.text : Json → String
  | .str s => s
  | _ => ""

/-- **The model and the session of a record are texts**, and not empty. -/
def TokenUsageRecord.HasTexts (r : TokenUsageRecord) : Prop :=
  ∃ model sessionId, r.model = .str model ∧ r.sessionId = .str sessionId
    ∧ model ≠ "" ∧ sessionId ≠ ""

/-- **The groups partition the records**: each has those of its key, and all of them have
each record once. So their counts and tokens sum up to those of the summary. -/
structure Partitions (key : TokenUsageRecord → String)
    (records : List TokenUsageRecord) (summary : TokenStats) (stats : List (String × TokenStats)) :
    Prop where
  groups : ∃ groups : List (String × List TokenUsageRecord),
    stats = groups.map (fun g => (g.1, calculateStats g.2)) ∧ (groups.map Prod.fst).Nodup
      ∧ (∀ g ∈ groups, g.2 = records.filter fun r => decide (key r = g.1))
      ∧ (groups.flatMap Prod.snd).Perm records
  counts : (stats.map fun s => s.2.requestCount).sum = summary.requestCount
  tokens : stats.foldl (fun sum s => sum.add s.2.totalTokens) (.finite 0)
    = summary.totalTokens

/-- **The statistics succeed, and each of the groupings partitions the records.** -/
def StatsPartition (site : TokenSite) (now : ℕ) (timeframe : String)
    (records : List TokenUsageRecord) : Prop :=
  ∃ report, getTokenStats site now timeframe records = .ok report
    ∧ Partitions (fun r => r.model.text) (filterByTimeframe now timeframe records)
      report.summary report.models
    ∧ Partitions (fun r => r.sessionId.text) (filterByTimeframe now timeframe records)
      report.summary report.sessions
    ∧ Partitions (fun r => agentName r.sessionId.text)
      (filterByTimeframe now timeframe records) report.summary report.agents

/-- **No name of a record is inherited** by a plain object. -/
def OwnNames (r : TokenUsageRecord) : Prop :=
  r.model.text ∉ objectPrototype ∧ r.sessionId.text ∉ objectPrototype
    ∧ agentName r.sessionId.text ∉ objectPrototype

/-- The tokens of a record, where they are a whole number. -/
def TokenUsageRecord.tokens (r : TokenUsageRecord) : ℤ := r.totalTokens.integer.getD 0

/-- **The tokens are whole numbers**, which come to no more than 2^53. -/
def WholeTokens (records : List TokenUsageRecord) : Prop :=
  (∀ r ∈ records, r.totalTokens.integer.isSome)
    ∧ (records.map fun r => r.tokens.natAbs).sum ≤ 2 ^ 53

/-! ## Groups of records -/

section Groups

variable {key : TokenUsageRecord → Except Exception String} {name : TokenUsageRecord → String}
  {records : List TokenUsageRecord}

theorem groupRecords_concat (records : List TokenUsageRecord) (r : TokenUsageRecord) :
    groupRecords key (records ++ [r]) = (do
      let groups ← groupRecords key records
      let k ← key r
      pushRecord groups k r) := by
  unfold groupRecords
  rw [List.foldlM_append]
  refine bind_congr fun groups => ?_
  rw [List.foldlM_cons]
  exact bind_pure _

theorem pushRecord_groups (hown : ∀ r ∈ records, name r ∉ objectPrototype)
    (r : TokenUsageRecord) :
    pushRecord (Groups.groups name records) (name r) r
      = if name r ∈ objectPrototype then .error .typeError
        else .ok (Groups.groups name (records ++ [r])) := by
  unfold pushRecord
  rw [Groups.groups_concat]
  by_cases hr : name r ∈ objectPrototype
  · have hnone : (Groups.groups name records).lookup (name r) = none := by
      refine List.lookup_eq_none_iff.mpr fun g hg => bne_iff_ne.mpr fun heq => ?_
      obtain ⟨x, hx, hkey⟩ := Groups.mem_keys_groups.mp (List.mem_map_of_mem (f := Prod.fst) hg)
      exact hown x hx (hkey.trans heq.symm ▸ hr)
    rw [hnone, if_pos ⟨rfl, hr⟩, if_pos hr]
  · rw [if_neg fun h => hr h.2, if_neg hr]

/-- **The groups are those of the names**, if none is inherited. -/
theorem groupRecords_of_own (hkey : ∀ r ∈ records, key r = .ok (name r))
    (hown : ∀ r ∈ records, name r ∉ objectPrototype) :
    groupRecords key records = .ok (Groups.groups name records) := by
  induction records using List.reverseRecOn with
  | nil => rfl
  | append_singleton records r ih =>
    have hbefore := fun x hx => hown x (List.mem_append_left [r] hx)
    rw [groupRecords_concat, ih (fun x hx => hkey x (List.mem_append_left _ hx)) hbefore,
      hkey r (by simp), ok_bind, ok_bind, pushRecord_groups hbefore, if_neg (hown r (by simp))]

/-- **Records that were grouped** have no inherited name. -/
theorem own_of_groupRecords (hkey : ∀ r ∈ records, key r = .ok (name r))
    {groups : List (String × List TokenUsageRecord)}
    (h : groupRecords key records = .ok groups) : ∀ r ∈ records, name r ∉ objectPrototype := by
  induction records using List.reverseRecOn generalizing groups with
  | nil => exact List.forall_mem_nil _
  | append_singleton records r ih =>
    have hkey' := fun x hx => hkey x (List.mem_append_left [r] hx)
    rw [groupRecords_concat] at h
    obtain ⟨before, hbefore, h⟩ := bind_eq_ok.mp h
    have hown := ih hkey' hbefore
    rw [hkey r (by simp), ok_bind] at h
    obtain rfl := Except.ok.inj ((groupRecords_of_own hkey' hown).symm.trans hbefore)
    rw [pushRecord_groups hown] at h
    intro x hx
    rcases List.mem_append.mp hx with hx | hx
    · exact hown x hx
    · obtain rfl := List.mem_singleton.mp hx
      intro hinherited
      rw [if_pos hinherited] at h
      cases h

end Groups

/-! ## Sums -/

section Sums

variable {records : List TokenUsageRecord}

theorem JsNumber.add_intCast {a b : ℤ} (h : (a + b).natAbs ≤ 2 ^ 53) :
    (JsNumber.finite a).add (.finite b) = .finite ((a + b : ℤ) : ℚ) := by
  show JsNumber.rounded (a + b) = _
  unfold JsNumber.rounded
  rw [← Int.cast_add, Double.round_intCast h]

/-- **Whole numbers add up exactly.** -/
theorem foldl_add_eq {zs : List ℤ} {s : ℤ}
    (h : s.natAbs + (zs.map Int.natAbs).sum ≤ 2 ^ 53) :
    zs.foldl (fun sum (z : ℤ) => JsNumber.add sum (.finite z)) (.finite s)
      = .finite ((s + zs.sum : ℤ) : ℚ) := by
  induction zs generalizing s with
  | nil => rw [List.sum_nil, add_zero, List.foldl_nil]
  | cons z zs ih =>
    rw [List.map_cons, List.sum_cons] at h
    have hsum := Int.natAbs_add_le s z
    rw [List.foldl_cons, JsNumber.add_intCast (by omega), ih (by omega), List.sum_cons,
      add_assoc]

theorem sumOf_eq_foldl (hwhole : ∀ r ∈ records, r.totalTokens.integer.isSome) (n : JsNumber) :
    records.foldl (fun sum r => sum.add r.totalTokens.added) n
      = (records.map TokenUsageRecord.tokens).foldl
        (fun sum (z : ℤ) => JsNumber.add sum (.finite z)) n := by
  induction records generalizing n with
  | nil => rfl
  | cons r records ih =>
    obtain ⟨hr, hrest⟩ := List.forall_mem_cons.mp hwhole
    obtain ⟨z, hz⟩ := Option.isSome_iff_exists.mp hr
    have htokens : r.totalTokens.added = .finite (r.tokens : ℚ) := by
      unfold TokenUsageRecord.tokens
      rw [hz, JsNumber.integer_eq_some.mp hz]
      rfl
    rw [List.foldl_cons, List.map_cons, List.foldl_cons, ih hrest, htokens]

/-- **The tokens of records** that are whole numbers. -/
theorem sumOf_tokens (h : WholeTokens records) :
    sumOf TokenUsageRecord.totalTokens records
      = .finite (((records.map TokenUsageRecord.tokens).sum : ℤ) : ℚ) := by
  have hzero : (.finite 0 : JsNumber) = .finite ((0 : ℤ) : ℚ) := rfl
  unfold sumOf
  rw [sumOf_eq_foldl h.1, hzero, foldl_add_eq, zero_add]
  rw [Int.natAbs_zero, Nat.zero_add, List.map_map]
  exact h.2

theorem totalTokens_calculateStats (records : List TokenUsageRecord) :
    (calculateStats records).totalTokens
      = sumOf TokenUsageRecord.totalTokens records := by
  unfold calculateStats
  split
  · next h =>
    rw [h]
    rfl
  · rfl

theorem requestCount_calculateStats (records : List TokenUsageRecord) :
    (calculateStats records).requestCount = records.length := by
  unfold calculateStats
  split
  · next h =>
    rw [h]
    rfl
  · rfl

end Sums

/-! ## The partition -/

section Partition

variable {site : TokenSite} {records : List TokenUsageRecord}

theorem natAbs_sum_le (zs : List ℤ) : zs.sum.natAbs ≤ (zs.map Int.natAbs).sum := by
  induction zs with
  | nil => exact Nat.le_refl 0
  | cons z zs ih =>
    rw [List.sum_cons, List.map_cons, List.sum_cons]
    exact (Int.natAbs_add_le z zs.sum).trans (Nat.add_le_add_left ih _)

/-- **The groups of a name partition the records**, and their counts and tokens. -/
theorem partitions_groups (hwhole : WholeTokens records)
    (name : TokenUsageRecord → String) :
    Partitions name records (calculateStats records)
      ((Groups.groups name records).map fun g => (g.1, calculateStats g.2)) where
  groups := ⟨_, rfl, Groups.nodup_keys name records, fun _ => Groups.mem_groups,
    Groups.perm_groups name records⟩
  counts := by
    rw [List.map_map, requestCount_calculateStats]
    refine Eq.trans ?_ (Groups.sum_length_groups name records)
    exact congrArg List.sum (List.map_congr_left fun g _ => requestCount_calculateStats g.2)
  tokens := by
    have hgroup : ∀ g ∈ Groups.groups name records, WholeTokens g.2 := by
      intro g hg
      rw [Groups.mem_groups hg]
      refine ⟨fun r hr => hwhole.1 r (List.mem_filter.mp hr).1, le_trans ?_ hwhole.2⟩
      exact (List.filter_sublist.map _).sum_le_sum fun _ _ => Nat.zero_le _
    have hstats : ∀ (gs : List (String × List TokenUsageRecord)) (n : JsNumber),
        (∀ g ∈ gs, WholeTokens g.2) →
        (gs.map fun g => (g.1, calculateStats g.2)).foldl
            (fun sum s => sum.add s.2.totalTokens) n
          = (gs.map fun g => (g.2.map TokenUsageRecord.tokens).sum).foldl
            (fun sum (z : ℤ) => JsNumber.add sum (.finite z)) n := by
      intro gs
      induction gs with
      | nil => exact fun _ _ => rfl
      | cons g gs ih =>
        intro n h
        obtain ⟨hg, hgs⟩ := List.forall_mem_cons.mp h
        rw [List.map_cons, List.map_cons, List.foldl_cons, List.foldl_cons, ih _ hgs,
          totalTokens_calculateStats, sumOf_tokens hg]
    have hsum := Groups.sum_groups name TokenUsageRecord.tokens records
    have habs := Groups.sum_groups name (fun r => r.tokens.natAbs) records
    have hzero : (.finite 0 : JsNumber) = .finite ((0 : ℤ) : ℚ) := rfl
    rw [hstats _ _ hgroup, totalTokens_calculateStats, sumOf_tokens hwhole, hzero,
      foldl_add_eq, hsum, zero_add]
    rw [Int.natAbs_zero, Nat.zero_add, List.map_map]
    refine le_trans ?_ (habs.le.trans hwhole.2)
    refine List.sum_le_sum fun g _ => ?_
    have hle := natAbs_sum_le (g.2.map TokenUsageRecord.tokens)
    rwa [List.map_map] at hle

theorem groupStats_eq_ok {key : TokenUsageRecord → Except Exception String}
    {name : TokenUsageRecord → String} (hkey : ∀ r ∈ records, key r = .ok (name r))
    {stats : List (String × TokenStats)} :
    groupStats key records = .ok stats
      ↔ (∀ r ∈ records, name r ∉ objectPrototype)
        ∧ stats = (Groups.groups name records).map fun g => (g.1, calculateStats g.2) := by
  unfold groupStats
  constructor
  · intro h
    obtain ⟨groups, hgroups, h⟩ := bind_eq_ok.mp h
    have hown := own_of_groupRecords hkey hgroups
    obtain rfl := Except.ok.inj ((groupRecords_of_own hkey hown).symm.trans hgroups)
    exact ⟨hown, (Except.ok.inj h).symm⟩
  · rintro ⟨hown, rfl⟩
    rw [groupRecords_of_own hkey hown, ok_bind]

theorem modelKey_of_str {rt : Runtime} {r : TokenUsageRecord} {model : String}
    (h : r.model = .str model) : modelKey rt r = .ok r.model.text := by
  unfold modelKey
  rw [h]
  rfl

theorem sessionKey_of_str {rt : Runtime} {r : TokenUsageRecord} {sessionId : String}
    (h : r.sessionId = .str sessionId) : sessionKey rt r = .ok r.sessionId.text := by
  unfold sessionKey
  rw [h]
  rfl

/-- **What the statistics are**, if they succeed: those of the groups by the names. -/
theorem tokenReport_eq_ok (htexts : ∀ r ∈ records, r.HasTexts) {timeframe : String}
    {report : TokenReport} :
    tokenReport site timeframe records = .ok report
      ↔ (∀ r ∈ records, OwnNames r) ∧ report =
        ⟨calculateStats records,
          (Groups.groups (fun r => r.model.text) records).map
            fun g => (g.1, calculateStats g.2),
          (Groups.groups (fun r => r.sessionId.text) records).map
            fun g => (g.1, calculateStats g.2),
          (Groups.groups (fun r => agentName r.sessionId.text) records).map
            fun g => (g.1, calculateStats g.2),
          timeframe, records.length⟩ := by
  have hmodel : ∀ r ∈ records, modelKey site.rt r = .ok r.model.text := by
    intro r hr
    obtain ⟨model, sessionId, hmodel, -⟩ := htexts r hr
    exact modelKey_of_str hmodel
  have hsession : ∀ r ∈ records, sessionKey site.rt r = .ok r.sessionId.text := by
    intro r hr
    obtain ⟨model, sessionId, -, hsession, -⟩ := htexts r hr
    exact sessionKey_of_str hsession
  have hagent : ∀ r ∈ records, agentKey r = .ok (agentName r.sessionId.text) := by
    intro r hr
    obtain ⟨model, sessionId, -, hsession, -⟩ := htexts r hr
    unfold agentKey
    rw [hsession]
    rfl
  unfold tokenReport
  constructor
  · intro h
    obtain ⟨models, hmodels, h⟩ := bind_eq_ok.mp h
    obtain ⟨sessions, hsessions, h⟩ := bind_eq_ok.mp h
    obtain ⟨agents, hagents, h⟩ := bind_eq_ok.mp h
    obtain ⟨hown, rfl⟩ := (groupStats_eq_ok hmodel).mp hmodels
    obtain ⟨hown', rfl⟩ := (groupStats_eq_ok hsession).mp hsessions
    obtain ⟨hown'', rfl⟩ := (groupStats_eq_ok hagent).mp hagents
    exact ⟨fun r hr => ⟨hown r hr, hown' r hr, hown'' r hr⟩, (Except.ok.inj h).symm⟩
  · rintro ⟨hown, rfl⟩
    rw [(groupStats_eq_ok hmodel).mpr ⟨fun r hr => (hown r hr).1, rfl⟩, ok_bind,
      (groupStats_eq_ok hsession).mpr ⟨fun r hr => (hown r hr).2.1, rfl⟩, ok_bind,
      (groupStats_eq_ok hagent).mpr ⟨fun r hr => (hown r hr).2.2, rfl⟩, ok_bind]

theorem mem_of_mem_filterByTimeframe {now : ℕ} {timeframe : String} {r : TokenUsageRecord}
    (h : r ∈ filterByTimeframe now timeframe records) : r ∈ records := by
  unfold filterByTimeframe at h
  split at h
  · exact (List.mem_filter.mp h).1
  · exact h

theorem getTokenStats_eq_ok {now : ℕ} {timeframe : String} {report : TokenReport} :
    getTokenStats site now timeframe records = .ok report
      ↔ tokenReport site timeframe (filterByTimeframe now timeframe records) = .ok report := by
  unfold getTokenStats
  cases tokenReport site timeframe (filterByTimeframe now timeframe records) with
  | ok r => rw [Except.ok.injEq, Except.ok.injEq]
  | error e => exact ⟨fun h => (by cases h), fun h => (by cases h)⟩

end Partition

/-- **The statistics partition the records only if no name is inherited**, and then they do
where the tokens are whole numbers. -/
theorem statsPartition_names {site : TokenSite} (now : ℕ) (timeframe : String)
    {records : List TokenUsageRecord}
    (htexts : ∀ r ∈ records, r.HasTexts) :
    (StatsPartition site now timeframe records →
        ∀ r ∈ filterByTimeframe now timeframe records, OwnNames r)
      ∧ ((∀ r ∈ filterByTimeframe now timeframe records, OwnNames r) →
        WholeTokens (filterByTimeframe now timeframe records) →
          StatsPartition site now timeframe records) := by
  have htexts' : ∀ r ∈ filterByTimeframe now timeframe records, r.HasTexts :=
    fun r hr => htexts r (mem_of_mem_filterByTimeframe hr)
  constructor
  · rintro ⟨report, hreport, -⟩
    exact ((tokenReport_eq_ok htexts').mp (getTokenStats_eq_ok.mp hreport)).1
  · intro hown hwhole
    exact ⟨_, getTokenStats_eq_ok.mpr ((tokenReport_eq_ok htexts').mpr ⟨hown, rfl⟩),
      partitions_groups hwhole _, partitions_groups hwhole _,
      partitions_groups hwhole _⟩

/-! ## A model that is called as what every object has -/

/-- The record of a model. -/
def sampleRecordOf (model : String) (inputTokens outputTokens : ℕ) (cost : JsNumber) :
    TokenUsageRecord where
  id := "0-4fzyo82mv"
  model := .str model
  sessionId := .str "main:chat"
  timestamp := 0
  inputTokens := .finite inputTokens
  outputTokens := .finite outputTokens
  totalTokens := .finite (inputTokens + outputTokens)
  cost := cost
  operation := .str "chat_completion"
  duration := none

/-- A request without tokens stores such a record, at the price of its model. -/
theorem postTokens_sampleRecordOf {model : String} {price cost : JsNumber} (hmodel : model ≠ "")
    (hprice : getModelCost sampleRuntime (.str model) = .ok price)
    (hcost : (JsNumber.finite 0).mul price = cost) :
    postTokens sampleTokenSite (some (.obj [("model", .str model),
      ("sessionId", .str "main:chat"), ("inputTokens", .ofNat 0), ("outputTokens", .ofNat 0)]))
      0 "4fzyo82mv" 0 = .ok (sampleRecordOf model 0 0 cost) := by
  have htotal : (JsNumber.finite 0).add (.finite 0) = .finite 0 := by decide +kernel
  have hdiv : (JsNumber.finite 0).div (.finite 1000) = .finite 0 := by decide +kernel
  have htruthy : Json.truthy (some (.str model)) = true := by simpa [Json.truthy] using hmodel
  have hrecord : newTokenRecord sampleTokenSite (.obj [("model", .str model),
      ("sessionId", .str "main:chat"), ("inputTokens", .ofNat 0), ("outputTokens", .ofNat 0)])
      0 "4fzyo82mv" 0 = .ok (some (sampleRecordOf model 0 0 cost)) := by
    have hnumbers : newTokenRecord sampleTokenSite (.obj [("model", .str model),
        ("sessionId", .str "main:chat"), ("inputTokens", .ofNat 0), ("outputTokens", .ofNat 0)])
        0 "4fzyo82mv" 0
      = if Json.truthy (some (.str model)) && Json.truthy (some (.str "main:chat")) then
          getModelCost sampleRuntime (.str model) >>= fun price => .ok (some
            { sampleRecordOf model 0 0 cost with
              totalTokens := (JsNumber.finite 0).add (.finite 0)
              cost := (((JsNumber.finite 0).add (.finite 0)).div (.finite 1000)).mul price })
        else .ok none := rfl
    have hzero : (sampleRecordOf model 0 0 cost).totalTokens = .finite 0 := by
      show JsNumber.finite ((0 : ℕ) + (0 : ℕ) : ℚ) = _
      rw [Nat.cast_zero, add_zero]
    rw [hnumbers, htruthy, hprice, htotal, hdiv, ok_bind, hcost, ← hzero]
    rfl
  unfold postTokens
  rw [Option.map_some, hrecord]

/-- The statistics of two records. -/
theorem statsPartition_sample :
    StatsPartition sampleTokenSite 0 "all" [sampleRecordOf "claude-opus-4-5" 700 300 (.finite 15),
      sampleRecordOf "claude-sonnet-4" 70 30 (.finite 0)] :=
  (statsPartition_names 0 "all" (by
    intro r hr
    rcases List.mem_cons.mp hr with rfl | hr
    · exact ⟨_, _, rfl, rfl, by decide, by decide⟩
    · obtain rfl := List.mem_singleton.mp hr
      exact ⟨_, _, rfl, rfl, by decide, by decide⟩)).2 (by
    intro r hr
    rcases List.mem_cons.mp hr with rfl | hr
    · exact ⟨by decide +kernel, by decide +kernel, by decide +kernel⟩
    · obtain rfl := List.mem_singleton.mp hr
      exact ⟨by decide +kernel, by decide +kernel, by decide +kernel⟩) (by
    constructor <;> decide +kernel)

/-- **A record that is accepted makes the statistics fail.** -/
theorem not_statsPartition_sampleConstructor :
    ¬ ∀ (site : TokenSite) (now : ℕ) (timeframe : String)
      (records : List TokenUsageRecord),
      (∀ r ∈ records, (∃ body idTime random now, postTokens site body idTime random now = .ok r)
        ∧ r.HasTexts) →
        StatsPartition site now timeframe records := by
  intro h
  obtain ⟨report, hreport, -⟩ := h sampleTokenSite 0 "all"
    [sampleRecordOf "constructor" 0 0 .nan] fun r hr => by
      obtain rfl := List.mem_singleton.mp hr
      exact ⟨⟨_, 0, _, 0, postTokens_sampleRecordOf (by decide) rfl rfl⟩,
        _, _, rfl, rfl, by decide, by decide⟩
  have hfails : getTokenStats sampleTokenSite 0 "all" [sampleRecordOf "constructor" 0 0 .nan]
      = .error (.error 500 "Internal server error") := by rfl
  rw [hfails] at hreport
  cases hreport

end MissionControl
