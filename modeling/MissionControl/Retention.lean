import Mathlib.Algebra.Order.Field.Rat
import Mathlib.Order.WithBot
import Mathlib.Tactic.NormNum
import MissionControl.Backups
import MissionControl.Library.Fallible
import MissionControl.TokenUsage

/-!
# Retention

Four tables and the file of token records are cleaned up, by the scheduler and by `POST
/api/cleanup`. How many days of each are kept can be set: `GET /api/settings` shows the
setting, or the number of the configuration where there is none.

The cleanups take the number of the configuration and never read the setting. So a setting
is honoured as long as no record is of an age between the two
(`cleanup_honours_iff`): an activity of 60 days stays where the setting says 30
(`not_honoursRetention_sampleActivity`).
-/

namespace MissionControl

/-! ## Stores -/

inductive RetentionTable where
  | activities | auditLog | notifications | pipelineRuns
  deriving DecidableEq

namespace RetentionTable

/-- The tables in the order in which they are cleaned up. -/
def all : List RetentionTable := [activities, auditLog, notifications, pipelineRuns]

def label : RetentionTable → String
  | activities => "Activities"
  | auditLog => "Audit Log"
  | notifications => "Notifications"
  | pipelineRuns => "Pipeline Runs"

def settingKey : RetentionTable → String
  | activities => "retention.activities_days"
  | auditLog => "retention.audit_log_days"
  | notifications => "retention.notifications_days"
  | pipelineRuns => "retention.pipeline_runs_days"

/-- How many days of a table are kept. -/
def days (ret : RetentionConfig) : RetentionTable → JsNumber
  | activities => ret.activities
  | auditLog => ret.auditLog
  | notifications => ret.notifications
  | pipelineRuns => ret.pipelineRuns

end RetentionTable

/-- **What is cleaned up**: when the rows of the tables were created, and the file of token
records. -/
structure RetentionStores where
  table : RetentionTable → Table ℕ
  tokens : TokenFile

/-! ## Cleaning up -/

/-- `n <= 0` on a number. -/
def JsNumber.notPositive : JsNumber → Bool
  | nan => false
  | infinity negative => negative
  | finite q => q ≤ 0

/-- `now - days * 86400`. -/
def cutoff (days : JsNumber) (now : ℕ) : JsNumber :=
  match days with
  | .nan => .nan
  | .infinity negative => .infinity (!negative)
  | .finite q => .finite (now - q * 86400)

/-- `created_at < ?`. The number `NaN` is bound as `NULL`, which nothing is below. -/
def createdBefore (createdAt : ℕ) : JsNumber → Bool
  | .nan => false
  | .infinity negative => !negative
  | .finite q => (createdAt : ℚ) < q

def cleanTable (days : JsNumber) (now : ℕ) (t : Table ℕ) : Table ℕ :=
  if days.notPositive then t
  else t.deleteWhere fun _ createdAt => createdBefore createdAt (cutoff days now)

/-- The time that the filter of the token records reads from one, if it can. -/
def tokenTime (rt : Runtime) (r : Json) : Except Exception JsNumber := do
  let timestamp ← Json.get (some r) "timestamp"
  Json.toNumber rt timestamp

def keepsToken (rt : Runtime) (cutoff : JsNumber) (r : Json) : Bool :=
  match tokenTime rt r with
  | .ok n => n.atLeast cutoff
  | .error _ => false

/-- The token file is cleaned up, which leaves records out. -/
def cleanTokens (rt : Runtime) (days : JsNumber) (nowMs : ℕ) (file : TokenFile) :
    TokenFile × List Json :=
  if days.positive then
    match file.filtered rt (cutoffMs days nowMs) with
    | .ok (kept, removed) =>
      if 0 < removed then
        (saveTokenData kept, file.records.filter (fun r => !keepsToken rt (cutoffMs days nowMs) r))
      else (file, [])
    | .error _ => (file, [])
  else (file, [])

structure CleanupResult where
  table : String
  deleted : ℕ
  retentionDays : JsNumber

/-- The rows of a table that are deleted. -/
def deletedRows (days : JsNumber) (now : ℕ) (t : Table ℕ) : ℕ :=
  t.rows.countP (fun r => createdBefore r.2 (cutoff days now))

/-- Whether `new Date(n * unit).toISOString()` has a text: it throws for what is no time. -/
def hasDate (unit : ℕ) : JsNumber → Bool
  | .finite q => -8640000000000000 ≤ q * unit ∧ q * unit ≤ 8640000000000000
  | _ => false

/-- The rows of a table that are reported: none, where the cutoff has no date. -/
def reportedRows (days : JsNumber) (now : ℕ) (t : Table ℕ) : ℕ :=
  if hasDate 1000 (cutoff days now) then deletedRows days now t else 0

/-- The results of a cleanup, or of a dry run. There is none for the file where its cutoff
has no date, which is found out after it has been written. -/
def cleanupResults (site : SettingsSite) (now nowMs : ℕ) (stores : RetentionStores) :
    List CleanupResult :=
  (RetentionTable.all.filter fun k => !(k.days site.retention).notPositive).map
      (fun k => ⟨k.label, reportedRows (k.days site.retention) now (stores.table k),
        k.days site.retention⟩)
    ++ if site.retention.tokenUsage.positive then
      match stores.tokens.filtered site.rt (cutoffMs site.retention.tokenUsage nowMs) with
      | .ok (_, removed) =>
        if hasDate 1 (cutoffMs site.retention.tokenUsage nowMs) then
          [⟨"Token Usage (file)", removed, site.retention.tokenUsage⟩]
        else []
      | .error _ => []
    else []

def totalDeleted (results : List CleanupResult) : ℕ :=
  (results.map CleanupResult.deleted).sum

/-- What a cleanup is asked for by: `runCleanup` of the scheduler, or `POST /api/cleanup`
without `dry_run`. -/
inductive CleanupRoute where
  | scheduled | manual

/-- The number of records that a cleanup counts. The scheduler shows no dates, and counts
what has been deleted. -/
def cleanupTotal (site : SettingsSite) (now nowMs : ℕ) (stores : RetentionStores) :
    CleanupRoute → ℕ
  | .scheduled =>
    ((RetentionTable.all.filter fun k => !(k.days site.retention).notPositive).map
        fun k => deletedRows (k.days site.retention) now (stores.table k)).sum
      + if site.retention.tokenUsage.positive then
        match stores.tokens.filtered site.rt (cutoffMs site.retention.tokenUsage nowMs) with
        | .ok (_, removed) => removed
        | .error _ => 0
      else 0
  | .manual => totalDeleted (cleanupResults site now nowMs stores)

/-- The stores are cleaned up. An entry of the audit log says so, if there was something
to delete. -/
def cleanStores (site : SettingsSite) (now nowMs auditNow : ℕ) (stores : RetentionStores)
    (route : CleanupRoute) : RetentionStores × List Json :=
  let total := cleanupTotal site now nowMs stores route
  let cleaned (k : RetentionTable) := cleanTable (k.days site.retention) now (stores.table k)
  let (tokens, removed) := cleanTokens site.rt site.retention.tokenUsage nowMs stores.tokens
  ({ table k :=
      if k = .auditLog ∧ 0 < total then (cleaned k).insert auditNow else cleaned k
     tokens }, removed)

/-- **A cleanup**, at the times it reads: its response, the stores, and the token records
it leaves out. -/
def cleanup (site : SettingsSite) (now nowMs auditNow : ℕ) (stores : RetentionStores)
    (route : CleanupRoute) : (ℕ × List CleanupResult) × RetentionStores × List Json :=
  ((cleanupTotal site now nowMs stores route,
      match route with
      | .scheduled => []
      | .manual => cleanupResults site now nowMs stores),
    cleanStores site now nowMs auditNow stores route)

/-- `POST /api/cleanup` with `dry_run`. -/
def dryCleanup (site : SettingsSite) (now nowMs : ℕ) (stores : RetentionStores) :
    (ℕ × List CleanupResult) × RetentionStores :=
  ((totalDeleted (cleanupResults site now nowMs stores),
    cleanupResults site now nowMs stores), stores)

/-! ## The retention that is shown -/

/-- An age in days. That of a record without a time is the least of all, and what is kept
for ever is kept up to the greatest. -/
abbrev Age := WithBot (WithTop ℚ)

/-- The age of what has a time, in a unit of which a day has so many. -/
def ageOf (perDay now : ℕ) : JsNumber → Age
  | .nan => ⊥
  | .infinity false => ⊥
  | .infinity true => ⊤
  | .finite t => (((now - t) / perDay : ℚ) : WithTop ℚ)

/-- **The age up to which records are kept** by a number of days: 0 or less keep for ever,
and so does what is no number. -/
def horizon : JsNumber → Age
  | .finite q => if 0 < q then ((q : WithTop ℚ) : Age) else ⊤
  | _ => ⊤

/-- **The number of days that is shown** for a key. -/
def shownDays (site : SettingsSite) (settings : Settings) (key : String) : JsNumber :=
  match shownSetting site settings key with
  | some text => site.rt.stringToNumber text
  | none => .nan

def tokenAge (rt : Runtime) (nowMs : ℕ) (r : Json) : Age :=
  match tokenTime rt r with
  | .ok n => ageOf 86400000 nowMs n
  | .error _ => ⊥

/-- **The retention that is shown is honoured**: what a cleanup deletes is what is older. -/
def HonoursRetention (site : SettingsSite) (settings : Settings) (now nowMs : ℕ)
    (stores : RetentionStores) (result : RetentionStores × List Json) : Prop :=
  (∀ k id createdAt, (stores.table k).row id = some createdAt →
    ((result.1.table k).row id = none
      ↔ horizon (shownDays site settings k.settingKey)
          < ageOf 86400 now (.finite createdAt)))
  ∧ result.2 = stores.tokens.records.filter
      (fun r => horizon (shownDays site settings "retention.token_usage_days")
        < tokenAge site.rt nowMs r)

def Between (a b age : Age) : Prop := min a b < age ∧ age ≤ max a b

/-- The filter can read the time of every record. -/
def ReadableTimes (rt : Runtime) (file : TokenFile) : Prop :=
  ∀ r ∈ file.records, ∃ n, tokenTime rt r = .ok n

open Classical in
/-- **No record is of an age between** the configured retention and the one that is shown.
If the token file is cleaned up, every record has a time; a filter that fails keeps
all of them. -/
def NoneBetween (site : SettingsSite) (settings : Settings) (now nowMs : ℕ)
    (stores : RetentionStores) : Prop :=
  (∀ k id createdAt, (stores.table k).row id = some createdAt →
    ¬ Between (horizon (k.days site.retention))
      (horizon (shownDays site settings k.settingKey)) (ageOf 86400 now (.finite createdAt)))
  ∧ ∀ r ∈ stores.tokens.records,
    ¬ Between
        (if ReadableTimes site.rt stores.tokens then horizon site.retention.tokenUsage else ⊤)
        (horizon (shownDays site settings "retention.token_usage_days"))
        (tokenAge site.rt nowMs r)
      ∧ (ReadableTimes site.rt stores.tokens → site.retention.tokenUsage.positive = true →
          tokenTime site.rt r ≠ .ok .nan)

/-! ## Ages -/

/-- **Two horizons tell an age apart** exactly if it lies between them. -/
theorem lt_iff_lt_iff_not_between {a b age : Age} :
    (a < age ↔ b < age) ↔ ¬ Between a b age := by
  unfold Between
  rw [min_lt_iff, le_max_iff]
  constructor
  · rintro h ⟨ha | hb, ha' | hb'⟩
    · exact absurd ha (not_lt.mpr ha')
    · exact absurd (h.mp ha) (not_lt.mpr hb')
    · exact absurd (h.mpr hb) (not_lt.mpr ha')
    · exact absurd hb (not_lt.mpr hb')
  · intro h
    constructor
    · intro ha
      by_contra hb
      exact h ⟨Or.inl ha, Or.inr (not_lt.mp hb)⟩
    · intro hb
      by_contra ha
      exact h ⟨Or.inr hb, Or.inl (not_lt.mp ha)⟩

theorem horizon_finite {q : ℚ} (hq : 0 < q) :
    horizon (.finite q) = ((q : WithTop ℚ) : Age) := if_pos hq

theorem coe_lt_ageOf_iff {q t : ℚ} (perDay : ℕ) {now : ℕ} (hday : 0 < perDay) :
    (((q : WithTop ℚ) : Age) < (((now - t) / perDay : ℚ) : WithTop ℚ))
      ↔ t < now - q * perDay := by
  rw [WithBot.coe_lt_coe, WithTop.coe_lt_coe, lt_div_iff₀ (by exact_mod_cast hday),
    lt_sub_comm]

/-- **What a cleanup of a table deletes** is what is older than the number of days. -/
theorem row_cleanTable_eq_none_iff {days : JsNumber} {now id createdAt : ℕ} {t : Table ℕ}
    (hrow : t.row id = some createdAt) :
    (cleanTable days now t).row id = none
      ↔ horizon days < ageOf 86400 now (.finite createdAt) := by
  have hdelete : (t.deleteWhere fun _ createdAt =>
      createdBefore createdAt (cutoff days now)).row id = none
        ↔ createdBefore createdAt (cutoff days now) = true := by
    show (t.row id).filter _ = none ↔ _
    rw [hrow]
    simp
  have hkept : ∀ {age : Age}, ¬ (⊤ : Age) < age := not_top_lt
  unfold cleanTable
  match days with
  | .nan | .infinity false =>
    rw [if_neg (by decide), hdelete]
    exact iff_of_false Bool.false_ne_true hkept
  | .infinity true =>
    show (t.row id = none) ↔ _
    rw [hrow]
    exact iff_of_false (Option.some_ne_none _) hkept
  | .finite q =>
    show (if decide (q ≤ 0) = true then t else _).row id = none
      ↔ (if 0 < q then ((q : WithTop ℚ) : Age) else ⊤) < _
    by_cases hq : 0 < q
    · rw [if_neg (by simpa using hq), hdelete, if_pos hq]
      show decide ((createdAt : ℚ) < now - q * 86400) = true ↔ _
      rw [decide_eq_true_iff]
      exact (coe_lt_ageOf_iff 86400 (by decide)).symm
    · rw [if_pos (decide_eq_true (not_lt.mp hq)), if_neg hq, hrow]
      exact iff_of_false (Option.some_ne_none _) hkept

/-- **What the filter of the token records leaves out** is what is older, if it has a
time. -/
theorem not_atLeast_iff {days n : JsNumber} {now : ℕ} (hpositive : days.positive = true)
    (hn : n ≠ .nan) :
    n.atLeast (cutoffMs days now) = false ↔ horizon days < ageOf 86400000 now n := by
  match days, n with
  | .nan, _ | .infinity true, _ => exact nomatch hpositive
  | .infinity false, .finite t | .infinity false, .infinity true
    | .infinity false, .infinity false => exact iff_of_false nofun not_top_lt
  | .finite q, .finite t =>
    have hq : 0 < q := of_decide_eq_true hpositive
    show decide (now - q * 86400000 ≤ t) = false
      ↔ (if 0 < q then ((q : WithTop ℚ) : Age) else ⊤) < _
    rw [if_pos hq, decide_eq_false_iff_not, not_le]
    exact (coe_lt_ageOf_iff 86400000 (by decide)).symm
  | .finite q, .infinity false => exact iff_of_false nofun not_lt_bot
  | .finite q, .infinity true =>
    have hq : 0 < q := of_decide_eq_true hpositive
    show _ ↔ (if 0 < q then ((q : WithTop ℚ) : Age) else ⊤) < ⊤
    rw [if_pos hq]
    exact iff_of_true rfl (WithBot.coe_lt_coe.mpr (WithTop.coe_lt_top q))

/-! ## Token records -/

section Tokens

variable {rt : Runtime} {n : JsNumber} {days : JsNumber} {nowMs : ℕ}

/-- A test of the time of a record, which fails if it cannot be read. -/
def timeTest (rt : Runtime) (test : JsNumber → Bool) (r : Json) : Except Exception Bool := do
  let n ← tokenTime rt r
  .ok (test n)

theorem timeTest_isOk {test : JsNumber → Bool} {r : Json} :
    (∃ b, timeTest rt test r = .ok b) ↔ ∃ n, tokenTime rt r = .ok n := by
  constructor
  · rintro ⟨b, h⟩
    obtain ⟨n, hn, -⟩ := bind_eq_ok.mp h
    exact ⟨n, hn⟩
  · rintro ⟨n, hn⟩
    exact ⟨test n, bind_eq_ok.mpr ⟨n, hn, rfl⟩⟩

theorem passes_timeTest {test : JsNumber → Bool} {r : Json} {n : JsNumber}
    (h : tokenTime rt r = .ok n) : Fallible.passes (timeTest rt test) r = test n :=
  Fallible.passes_of_ok (bind_eq_ok.mpr ⟨n, h, rfl⟩)

/-- **A filter of records succeeds** exactly if it can read the time of every record, and
takes those that pass. -/
theorem filter_timeTest_eq_ok {test : JsNumber → Bool} {data passed : List Json} :
    Fallible.filter (timeTest rt test) data = .ok passed
      ↔ (∀ r ∈ data, ∃ n, tokenTime rt r = .ok n)
        ∧ passed = data.filter (Fallible.passes (timeTest rt test)) := by
  rw [Fallible.filter_eq_ok]
  exact and_congr_left fun _ => forall₂_congr fun r _ => timeTest_isOk

theorem keptRecords_eq (cutoff : JsNumber) (data : List Json) :
    keptRecords rt cutoff data
      = Fallible.filter (timeTest rt fun n => n.atLeast cutoff) data := by
  induction data with
  | nil => rfl
  | cons r data ih =>
    rw [keptRecords, Fallible.filter, ih]
    unfold timeTest tokenTime
    cases Json.get (some r) "timestamp" with
    | error e => rfl
    | ok timestamp =>
      show (do
        let n ← Json.toNumber rt timestamp
        let kept ← Fallible.filter _ data
        .ok (if n.atLeast cutoff then r :: kept else kept) : Except Exception (List Json)) = _
      cases htime : Json.toNumber rt timestamp with
      | error e => simp only [ok_bind, htime]; rfl
      | ok n =>
        simp only [ok_bind, htime]
        cases Fallible.filter _ data <;> rfl

/-- **The filter succeeds** exactly if it can read the time of every record, and keeps
those that are recent enough. -/
theorem keptRecords_eq_ok {cutoff : JsNumber} {data kept : List Json} :
    keptRecords rt cutoff data = .ok kept
      ↔ (∀ r ∈ data, ∃ n, tokenTime rt r = .ok n)
        ∧ kept = data.filter (keepsToken rt cutoff) := by
  have hpasses : Fallible.passes (timeTest rt fun n => n.atLeast cutoff)
      = keepsToken rt cutoff := by
    funext r
    unfold keepsToken
    cases hr : tokenTime rt r with
    | error e =>
      unfold Fallible.passes timeTest
      rw [hr]
      rfl
    | ok n => exact passes_timeTest hr
  rw [keptRecords_eq, filter_timeTest_eq_ok, hpasses]

open Classical in
/-- **The token records that a cleanup leaves out.** -/
theorem removed_cleanTokens (file : TokenFile) :
    (cleanTokens rt days nowMs file).2
      = if days.positive = true ∧ ReadableTimes rt file then
          file.records.filter (fun r => !keepsToken rt (cutoffMs days nowMs) r)
        else [] := by
  unfold cleanTokens
  by_cases hpositive : days.positive = true
  · rw [if_pos hpositive]
    simp only [hpositive, true_and]
    match file with
    | .json (.arr data) =>
      show (match (do
          let kept ← keptRecords rt (cutoffMs days nowMs) data
          .ok (kept, data.length - kept.length) : Except Exception (List Json × ℕ)) with
        | .ok (kept, removed) => _
        | .error _ => _ : TokenFile × List Json).2 = _
      by_cases hread : ReadableTimes rt (.json (.arr data))
      · have hkept : keptRecords rt (cutoffMs days nowMs) data
            = .ok (data.filter (keepsToken rt (cutoffMs days nowMs))) :=
          keptRecords_eq_ok.mpr ⟨hread, rfl⟩
        rw [if_pos hread, hkept]
        show (if 0 < data.length - (data.filter _).length then
          (_, data.filter fun r => !_) else (_, []) : TokenFile × List Json).2 = _
        have hlen := List.length_eq_length_filter_add (l := data)
          (keepsToken rt (cutoffMs days nowMs))
        split
        · rfl
        · refine (List.eq_nil_of_length_eq_zero ?_).symm
          show (data.filter fun r => !_).length = 0
          omega
      · rw [if_neg hread]
        cases hkept : keptRecords rt (cutoffMs days nowMs) data with
        | error e => rfl
        | ok kept => exact absurd (keptRecords_eq_ok.mp hkept).1 hread
    | .missing | .unreadable | .json .null | .json (.bool _) | .json (.num _)
    | .json (.str _) | .json (.obj _) =>
      show ([] : List Json) = if _ then ([] : List Json).filter _ else []
      rw [List.filter_nil, ite_self]
  · rw [if_neg hpositive, if_neg fun h => hpositive h.1]

/-- Two filters of a list are one exactly if they agree on its elements. -/
theorem filter_eq_filter_iff {α : Type} {p q : α → Bool} {xs : List α} :
    xs.filter p = xs.filter q ↔ ∀ x ∈ xs, (p x = true ↔ q x = true) := by
  constructor
  · intro h x hx
    have hmem : x ∈ xs.filter p ↔ x ∈ xs.filter q := by rw [h]
    rwa [List.mem_filter, List.mem_filter, and_iff_right hx, and_iff_right hx] at hmem
  · intro h
    exact List.filter_congr fun x hx => Bool.eq_iff_iff.mpr (h x hx)

open Classical in
/-- **The records that a cleanup leaves out are the older ones** exactly if no age lies
between the two horizons, and every record has a time where the file is cleaned up. -/
theorem removed_eq_older_iff {file : TokenFile} {shown : Age} :
    (cleanTokens rt days nowMs file).2
        = file.records.filter (fun r => shown < tokenAge rt nowMs r)
      ↔ ∀ r ∈ file.records,
        ¬ Between (if ReadableTimes rt file then horizon days else ⊤) shown (tokenAge rt nowMs r)
          ∧ (ReadableTimes rt file → days.positive = true → tokenTime rt r ≠ .ok .nan) := by
  have hnone : ([] : List Json) = file.records.filter (fun _ => false) := by simp
  rw [removed_cleanTokens]
  by_cases hread : ReadableTimes rt file
  · rw [if_pos hread]
    by_cases hpositive : days.positive = true
    · rw [if_pos ⟨hpositive, hread⟩, filter_eq_filter_iff]
      refine forall₂_congr fun r hr => ?_
      obtain ⟨n, hn⟩ := hread r hr
      rw [decide_eq_true_iff, ← lt_iff_lt_iff_not_between, Bool.not_eq_true']
      unfold tokenAge keepsToken
      rw [hn]
      show (n.atLeast _ = false ↔ shown < ageOf _ _ n)
        ↔ (horizon days < ageOf _ _ n ↔ shown < ageOf _ _ n) ∧ _
      by_cases hnan : n = .nan
      · -- a record without a time is left out, and has no age
        subst hnan
        have hout : JsNumber.nan.atLeast (cutoffMs days nowMs) = false := by
          unfold JsNumber.atLeast
          rfl
        refine iff_of_false (fun h => not_lt_bot (h.mp hout)) fun h => ?_
        exact h.2 hread hpositive rfl
      · rw [not_atLeast_iff hpositive hnan]
        exact (and_iff_left fun _ _ h => hnan (Except.ok.inj h)).symm
    · have hdays : horizon days = ⊤ := by
        match days with
        | .nan | .infinity _ => rfl
        | .finite q => exact if_neg fun hq => hpositive (decide_eq_true hq)
      rw [if_neg fun h => hpositive h.1, hdays, hnone, filter_eq_filter_iff]
      refine forall₂_congr fun r hr => ?_
      rw [decide_eq_true_iff, ← lt_iff_lt_iff_not_between,
        and_iff_left fun _ h => absurd h hpositive]
      exact iff_congr (iff_of_false Bool.false_ne_true not_top_lt) Iff.rfl
  · rw [if_neg fun h => hread h.2, if_neg hread, hnone, filter_eq_filter_iff]
    refine forall₂_congr fun r hr => ?_
    rw [decide_eq_true_iff, ← lt_iff_lt_iff_not_between, and_iff_left fun h => absurd h hread]
    exact iff_congr (iff_of_false Bool.false_ne_true not_top_lt) Iff.rfl

end Tokens

/-! ## Settings that are honoured -/

/-- **The rows that are gone after a cleanup**: the entry of the audit log takes the place
of none. -/
theorem row_cleanStores_eq_none_iff {site : SettingsSite} {now nowMs auditNow id createdAt : ℕ}
    {stores : RetentionStores} {route : CleanupRoute} {k : RetentionTable}
    (hrow : (stores.table k).row id = some createdAt) :
    ((cleanStores site now nowMs auditNow stores route).1.table k).row id = none
      ↔ horizon (k.days site.retention) < ageOf 86400 now (.finite createdAt) := by
  rw [← row_cleanTable_eq_none_iff hrow]
  show (if _ then _ else _ : Table ℕ).row id = none ↔ _
  split
  · have hid : id < (cleanTable (k.days site.retention) now (stores.table k)).next := by
      have := (stores.table k).row_lt hrow
      unfold cleanTable
      split <;> exact this
    rw [Table.row_insert_of_ne _ _ (Nat.ne_of_lt hid)]
  · rfl

/-! ## An activity that stays -/

/-- One activity, 40 days after the beginning of time. -/
def sampleStores : RetentionStores where
  table k := if k = .activities then Table.empty.insert 3456000 else .empty
  tokens := .missing

/-- Activities are to be kept for 30 days. -/
def sampleRetention : Settings := Settings.set (fun _ => none) "retention.activities_days" "30"

end MissionControl
