import Mathlib.Tactic.Linarith
import MissionControl.Alerts
import MissionControl.Retention

/-!
# What a cleanup says before it runs

`GET /api/cleanup` shows how many records of each store are stale, a dry run of `POST
/api/cleanup` reports how many would be deleted, and a real one deletes them. For the four
tables the three numbers are one, whatever the configuration says: a cutoff that is no date
is one that no row is before.

The file of token records has three paths of its own. The preview counts what is before the
cutoff, also where the retention is disabled; the run leaves out what is not at or after it,
which is also a record without a time; and a cutoff that is no date is noticed after the
file has been written. So the numbers agree exactly if no record is in one of these cases
(`cleanup_agrees_iff`).
-/

namespace MissionControl

/-- **An instant**, as `Date.now()` gives it. -/
structure Instant where
  ms : ℕ
  isTime : ms ≤ 8640000000000000

/-- `Math.floor(Date.now() / 1000)`. -/
def Instant.seconds (now : Instant) : ℕ := now.ms / 1000

/-! ## The preview -/

structure PreviewEntry where
  table : String
  retentionDays : JsNumber
  staleCount : ℕ
  note : Option String

def tablePreview (site : SettingsSite) (now : Instant) (stores : RetentionStores)
    (k : RetentionTable) : PreviewEntry :=
  let days := k.days site.retention
  if days.notPositive then
    ⟨k.label, .finite 0, 0, some "Retention disabled (keep forever)"⟩
  else if hasDate 1000 (cutoff days now.seconds) then
    ⟨k.label, days, deletedRows days now.seconds (stores.table k), none⟩
  else ⟨k.label, days, 0, some "Table not found"⟩

/-- `data.filter(r => r.timestamp < cutoffMs)`, on the data of the file. -/
def TokenFile.stale (rt : Runtime) (cutoff : JsNumber) :
    TokenFile → Except Exception (List Json)
  | json (.arr data) => Fallible.filter (timeTest rt fun n => n.lessThan cutoff) data
  | _ => .error .typeError

def tokenPreview (site : SettingsSite) (now : Instant) (file : TokenFile) : PreviewEntry :=
  let days := site.retention.tokenUsage
  let cutoff := cutoffMs days now.ms
  match file.stale site.rt cutoff with
  | .ok stale =>
    if hasDate 1 cutoff then ⟨"Token Usage (file)", days, stale.length, none⟩
    else ⟨"Token Usage (file)", days, 0, some "No token data file"⟩
  | .error _ => ⟨"Token Usage (file)", days, 0, some "No token data file"⟩

/-- **`GET /api/cleanup`**: its preview. -/
def cleanupPreview (site : SettingsSite) (now : Instant) (stores : RetentionStores) :
    List PreviewEntry :=
  RetentionTable.all.map (tablePreview site now stores) ++ [tokenPreview site now stores.tokens]

/-! ## The three numbers -/

inductive CleanupStore where
  | table (k : RetentionTable)
  | tokens

namespace CleanupStore

def label : CleanupStore → String
  | table k => k.label
  | tokens => "Token Usage (file)"

def days (ret : RetentionConfig) : CleanupStore → JsNumber
  | table k => k.days ret
  | tokens => ret.tokenUsage

end CleanupStore

/-- The stale records of a store, as the preview shows them. -/
def staleCount (preview : List PreviewEntry) (store : CleanupStore) : ℕ :=
  ((preview.find? fun e => e.table = store.label).map PreviewEntry.staleCount).getD 0

/-- The deleted records of a store, as a cleanup reports them: none where it says nothing of
the store. -/
def reportedCount (results : List CleanupResult) (store : CleanupStore) : ℕ :=
  ((results.find? fun e => e.table = store.label).map CleanupResult.deleted).getD 0

/-- The records of a store that are gone. -/
def removedCount (before after : RetentionStores) : CleanupStore → ℕ
  | .table k => (before.table k).rows.countP fun r => ((after.table k).row r.1).isNone
  | .tokens => before.tokens.records.length - after.tokens.records.length

/-- **Preview, dry run and real run agree**, at one instant. -/
structure CleanupAgrees (site : SettingsSite) (now : Instant) (stores : RetentionStores) :
    Prop where
  /-- What is shown as stale is what a dry run reports. -/
  shown : ∀ store, staleCount (cleanupPreview site now stores) store
    = reportedCount (dryCleanup site now.seconds now.ms stores).1.2 store
  /-- What a dry run reports is what a real one removes. -/
  removed : ∀ store, reportedCount (dryCleanup site now.seconds now.ms stores).1.2 store
    = removedCount stores
      (cleanup site now.seconds now.ms now.seconds stores .manual).2.1 store
  /-- Where the retention is disabled there is nothing. -/
  disabled : ∀ store : CleanupStore, (store.days site.retention).notPositive = true →
    staleCount (cleanupPreview site now stores) store = 0
  unchanged : (dryCleanup site now.seconds now.ms stores).2 = stores

/-- **No token record is counted differently**: if the times of all records can be read,
each has one where a cleanup looks at them, and one before the cutoff is met by a cutoff with
a date exactly if the retention is not disabled. -/
def TokensCounted (site : SettingsSite) (now : Instant) (file : TokenFile) : Prop :=
  ReadableTimes site.rt file → ∀ r ∈ file.records, ∀ n, tokenTime site.rt r = .ok n →
    (site.retention.tokenUsage.positive = true → n ≠ .nan)
      ∧ (n.lessThan (cutoffMs site.retention.tokenUsage now.ms) = true →
        hasDate 1 (cutoffMs site.retention.tokenUsage now.ms)
          = site.retention.tokenUsage.positive)

/-! ## The tables -/

section Tables

variable {site : SettingsSite} {now : Instant} {stores : RetentionStores} {days : JsNumber}

/-- **Before a cutoff without a date there is no row.** -/
theorem reportedRows_eq (h : days.notPositive = false) (t : Table ℕ) :
    reportedRows days now.seconds t = deletedRows days now.seconds t := by
  unfold reportedRows
  split
  · rfl
  · next hdate =>
    refine (List.countP_eq_zero.mpr fun r _ => ?_).symm
    cases days with
    | nan => exact Bool.false_ne_true
    | infinity negative =>
      cases negative with
      | false => exact Bool.false_ne_true
      | true => cases h
    | finite q =>
      have hq : 0 < q := not_le.mp (of_decide_eq_false h)
      have hms : (now.seconds : ℚ) * 1000 ≤ 8640000000000000 := by
        exact_mod_cast (Nat.div_mul_le_self now.ms 1000).trans now.isTime
      have hrow : (0 : ℚ) ≤ r.2 := Nat.cast_nonneg r.2
      have hnot : ¬ (-8640000000000000 ≤ ((now.seconds : ℚ) - q * 86400) * (1000 : ℕ)
          ∧ ((now.seconds : ℚ) - q * 86400) * (1000 : ℕ) ≤ 8640000000000000) :=
        fun h => hdate (decide_eq_true h)
      show ¬ decide ((r.2 : ℚ) < now.seconds - q * 86400) = true
      rw [decide_eq_true_iff, not_lt]
      push_cast at hnot
      by_contra hbefore
      exact hnot ⟨by linarith, by linarith⟩

theorem find?_label (test : RetentionTable → Bool) (k : RetentionTable) :
    RetentionTable.all.find? (fun k' => test k' && decide (k'.label = k.label))
      = if test k then some k else none := by
  have hlabel : ∀ k', decide (RetentionTable.label k' = k.label) = decide (k' = k) := by
    intro k'
    cases k <;> cases k' <;> decide
  simp only [hlabel]
  unfold RetentionTable.all
  cases k <;> cases htest : test _ <;> simp [htest]

theorem label_ne_tokens (k : RetentionTable) : k.label ≠ "Token Usage (file)" := by
  cases k <;> decide

theorem tablePreview_table (k : RetentionTable) :
    (tablePreview site now stores k).table = k.label := by
  unfold tablePreview
  dsimp only
  split
  · rfl
  · split <;> rfl

theorem staleCount_table (k : RetentionTable) :
    staleCount (cleanupPreview site now stores) (.table k)
      = if (k.days site.retention).notPositive then 0
        else reportedRows (k.days site.retention) now.seconds (stores.table k) := by
  have hfind : (cleanupPreview site now stores).find? (fun e => e.table = k.label)
      = some (tablePreview site now stores k) := by
    unfold cleanupPreview
    rw [List.find?_append, List.find?_map]
    have htest : (fun e : PreviewEntry => decide (e.table = k.label)) ∘ tablePreview site now stores
        = fun k' => true && decide (k'.label = k.label) := by
      funext k'
      rw [Function.comp_apply, tablePreview_table, Bool.true_and]
    rw [htest, find?_label]
    rfl
  unfold staleCount CleanupStore.label
  rw [hfind, Option.map_some, Option.getD_some]
  unfold tablePreview reportedRows
  dsimp only
  split
  · rfl
  · split <;> rfl

theorem table_fileResults {e : CleanupResult} {file : TokenFile} {ms : ℕ}
    (he : e ∈ if days.positive then
      match file.filtered site.rt (cutoffMs days ms) with
      | .ok (_, removed) =>
        if hasDate 1 (cutoffMs days ms) then [⟨"Token Usage (file)", removed, days⟩] else []
      | .error _ => []
    else []) : e.table = "Token Usage (file)" := by
  split at he
  · split at he
    · split at he
      · rw [List.mem_singleton.mp he]
      · cases he
    · cases he
  · cases he

theorem reportedCount_table (k : RetentionTable) :
    reportedCount (cleanupResults site now.seconds now.ms stores) (.table k)
      = if (k.days site.retention).notPositive then 0
        else reportedRows (k.days site.retention) now.seconds (stores.table k) := by
  have htables : ∀ g : RetentionTable → CleanupResult, (∀ k', (g k').table = k'.label) →
      ((RetentionTable.all.filter fun k => !(k.days site.retention).notPositive).map g).find?
          (fun e => e.table = k.label)
        = if (k.days site.retention).notPositive then none else some (g k) := by
    intro g hg
    have htest : (fun k' => decide ((!(k'.days site.retention).notPositive) = true
          ∧ ((fun e : CleanupResult => decide (e.table = k.label)) ∘ g) k' = true))
        = fun k' => !(k'.days site.retention).notPositive && decide (k'.label = k.label) := by
      funext k'
      rw [Bool.decide_and, Bool.decide_eq_true, Bool.decide_eq_true, Function.comp_apply, hg]
    rw [List.find?_map, List.find?_filter, htest, find?_label]
    cases (k.days site.retention).notPositive <;> rfl
  unfold reportedCount cleanupResults CleanupStore.label
  rw [List.find?_append, htables _ fun _ => rfl]
  cases (k.days site.retention).notPositive with
  | false => rfl
  | true =>
    rw [if_pos rfl, if_pos rfl, Option.none_or, List.find?_eq_none.mpr]
    · rfl
    · intro e he
      rw [decide_eq_true_iff, table_fileResults he]
      exact (label_ne_tokens k).symm

theorem removedCount_table (auditNow : ℕ) (k : RetentionTable) :
    removedCount stores
        (cleanStores site now.seconds now.ms auditNow stores .manual).1 (.table k)
      = if (k.days site.retention).notPositive then 0
        else deletedRows (k.days site.retention) now.seconds (stores.table k) := by
  have hgone : ∀ r ∈ (stores.table k).rows,
      (((cleanStores site now.seconds now.ms auditNow stores .manual).1.table k).row r.1).isNone
        = (!(k.days site.retention).notPositive
          && createdBefore r.2 (cutoff (k.days site.retention) now.seconds)) := by
    intro r hr
    have hrow := (stores.table k).mem_rows.mp hr
    rw [Bool.eq_iff_iff, Option.isNone_iff_eq_none, row_cleanStores_eq_none_iff hrow,
      ← row_cleanTable_eq_none_iff hrow]
    unfold cleanTable
    cases (k.days site.retention).notPositive with
    | true =>
      rw [if_pos rfl, hrow]
      exact iff_of_false (Option.some_ne_none _) Bool.false_ne_true
    | false =>
      rw [if_neg Bool.false_ne_true]
      show ((stores.table k).row r.1).filter _ = none ↔ _
      rw [hrow]
      simp
  show (stores.table k).rows.countP _ = _
  rw [List.countP_congr fun r hr => by rw [hgone r hr]]
  cases (k.days site.retention).notPositive with
  | true => exact List.countP_eq_zero.mpr fun r _ => Bool.false_ne_true
  | false => rfl

end Tables

/-! ## The token file -/

section Tokens

variable {site : SettingsSite} {now : Instant} {stores : RetentionStores}

theorem tokenPreview_table (file : TokenFile) :
    (tokenPreview site now file).table = "Token Usage (file)" := by
  unfold tokenPreview
  dsimp only
  split
  · split <;> rfl
  · rfl

theorem staleCount_tokens : staleCount (cleanupPreview site now stores) .tokens
    = (tokenPreview site now stores.tokens).staleCount := by
  have htables : (RetentionTable.all.map (tablePreview site now stores)).find?
      (fun e => e.table = "Token Usage (file)") = none := by
    refine List.find?_eq_none.mpr fun e he => ?_
    obtain ⟨k, -, rfl⟩ := List.mem_map.mp he
    rw [decide_eq_true_iff, tablePreview_table]
    exact label_ne_tokens k
  unfold staleCount cleanupPreview CleanupStore.label
  rw [List.find?_append, htables, Option.none_or, List.find?_cons_of_pos]
  · rfl
  · exact decide_eq_true (tokenPreview_table _)

theorem reportedCount_tokens :
    reportedCount (cleanupResults site now.seconds now.ms stores) .tokens
      = if site.retention.tokenUsage.positive then
        match stores.tokens.filtered site.rt (cutoffMs site.retention.tokenUsage now.ms) with
        | .ok (_, removed) =>
          if hasDate 1 (cutoffMs site.retention.tokenUsage now.ms) then removed else 0
        | .error _ => 0
      else 0 := by
  have hlabel : CleanupStore.tokens.label = "Token Usage (file)" := rfl
  unfold reportedCount cleanupResults
  rw [hlabel, List.find?_append, List.find?_eq_none.mpr, Option.none_or]
  · cases site.retention.tokenUsage.positive with
    | false => rfl
    | true =>
      rw [if_pos rfl, if_pos rfl]
      cases stores.tokens.filtered site.rt (cutoffMs site.retention.tokenUsage now.ms) with
      | error e => rfl
      | ok result =>
        dsimp only
        split <;> rfl
  · intro e he
    obtain ⟨k, -, rfl⟩ := List.mem_map.mp he
    rw [decide_eq_true_iff]
    exact label_ne_tokens k

/-- A file whose records cannot all be read has no part in a cleanup. -/
theorem error_of_not_readable {rt : Runtime} {file : TokenFile}
    (h : ¬ ∃ data, file = .json (.arr data) ∧ ReadableTimes rt file) (cutoff : JsNumber) :
    (∃ e, file.filtered rt cutoff = .error e) ∧ ∃ e, file.stale rt cutoff = .error e := by
  have herror : ∀ {x : Except Exception (List Json)}, (∀ passed, x ≠ .ok passed) →
      ∃ e, x = .error e := by
    intro x hx
    cases x with
    | ok passed => exact absurd rfl (hx passed)
    | error e => exact ⟨e, rfl⟩
  cases file with
  | missing | unreadable => exact ⟨⟨_, rfl⟩, ⟨_, rfl⟩⟩
  | json content =>
    cases content with
    | null | bool _ | num _ | str _ | obj _ => exact ⟨⟨_, rfl⟩, ⟨_, rfl⟩⟩
    | arr data =>
      have hread : ¬ ∀ r ∈ data, ∃ n, tokenTime rt r = .ok n := fun hread => h ⟨data, rfl, hread⟩
      have hkept : ∃ e, keptRecords rt cutoff data = .error e :=
        herror fun kept hkept => hread (keptRecords_eq_ok.mp hkept).1
      obtain ⟨e, hkept⟩ := hkept
      refine ⟨⟨e, ?_⟩, herror fun stale hstale => hread (filter_timeTest_eq_ok.mp hstale).1⟩
      show (do
        let kept ← keptRecords rt cutoff data
        .ok (kept, data.length - kept.length) : Except Exception (List Json × ℕ)) = _
      rw [hkept]
      rfl

theorem filtered_of_readable {rt : Runtime} {data : List Json}
    (h : ReadableTimes rt (.json (.arr data))) (cutoff : JsNumber) :
    TokenFile.filtered rt cutoff (.json (.arr data))
        = .ok (data.filter (keepsToken rt cutoff), data.countP fun r => !keepsToken rt cutoff r)
      ∧ TokenFile.stale rt cutoff (.json (.arr data))
        = .ok (data.filter (Fallible.passes (timeTest rt fun n => n.lessThan cutoff))) := by
  refine ⟨?_, filter_timeTest_eq_ok.mpr ⟨h, rfl⟩⟩
  have hkept : keptRecords rt cutoff data = .ok (data.filter (keepsToken rt cutoff)) :=
    keptRecords_eq_ok.mpr ⟨h, rfl⟩
  show (do
    let kept ← keptRecords rt cutoff data
    .ok (kept, data.length - kept.length) : Except Exception (List Json × ℕ)) = _
  rw [hkept]
  have hlength := List.length_eq_length_filter_add (l := data) (keepsToken rt cutoff)
  have hrest : data.length - (data.filter (keepsToken rt cutoff)).length
      = data.countP fun r => !keepsToken rt cutoff r := by
    rw [List.countP_eq_length_filter]
    omega
  show Except.ok (_, data.length - (data.filter (keepsToken rt cutoff)).length) = _
  rw [hrest]

theorem removedCount_tokens (auditNow : ℕ) :
    removedCount stores
        (cleanStores site now.seconds now.ms auditNow stores .manual).1 .tokens
      = if site.retention.tokenUsage.positive then
        match stores.tokens.filtered site.rt (cutoffMs site.retention.tokenUsage now.ms) with
        | .ok (_, removed) => removed
        | .error _ => 0
      else 0 := by
  show stores.tokens.records.length - (cleanTokens site.rt site.retention.tokenUsage now.ms
    stores.tokens).1.records.length = _
  unfold cleanTokens
  by_cases hpositive : site.retention.tokenUsage.positive = true
  · rw [if_pos hpositive, if_pos hpositive]
    by_cases hread : ∃ data, stores.tokens = .json (.arr data)
        ∧ ReadableTimes site.rt stores.tokens
    · obtain ⟨data, hdata, hread⟩ := hread
      rw [hdata] at hread ⊢
      rw [(filtered_of_readable hread _).1]
      dsimp only
      split
      · have hlength : ∀ kept, (saveTokenData kept).records.length = kept.length := by
          intro kept
          show (Json.stored.storedElements kept).length = kept.length
          induction kept with
          | nil => rfl
          | cons x kept ih => exact congrArg (· + 1) ih
        rw [hlength]
        have hall := List.length_eq_length_filter_add (l := data)
          (keepsToken site.rt (cutoffMs site.retention.tokenUsage now.ms))
        rw [List.countP_eq_length_filter]
        show data.length - _ = _
        omega
      · next hnone =>
        rw [Nat.eq_zero_of_not_pos hnone, Nat.sub_self]
    · obtain ⟨⟨e, herror⟩, -⟩ := error_of_not_readable hread
        (cutoffMs site.retention.tokenUsage now.ms)
      rw [herror]
      exact Nat.sub_self _
  · rw [if_neg hpositive, if_neg hpositive]
    exact Nat.sub_self _

theorem lessThan_eq_not_atLeast {n cutoff : JsNumber} (hn : n ≠ .nan) (hcutoff : cutoff ≠ .nan) :
    n.lessThan cutoff = !n.atLeast cutoff := by
  unfold JsNumber.lessThan JsNumber.atLeast
  cases n with
  | nan => exact absurd rfl hn
  | infinity negative =>
    cases cutoff with
    | nan => exact absurd rfl hcutoff
    | infinity negative' => cases negative <;> cases negative' <;> rfl
    | finite b => cases negative <;> rfl
  | finite a =>
    cases cutoff with
    | nan => exact absurd rfl hcutoff
    | infinity negative => cases negative <;> rfl
    | finite b =>
      show (decide (a ≤ b) && !decide (b ≤ a)) = !decide (b ≤ a)
      by_cases hle : b ≤ a
      · rw [decide_eq_true hle, Bool.not_true, Bool.and_false]
      · rw [decide_eq_false hle, decide_eq_true (not_le.mp hle).le]
        rfl

theorem keepsToken_of_stale {rt : Runtime} {cutoff : JsNumber} {r : Json}
    (h : Fallible.passes (timeTest rt fun n => n.lessThan cutoff) r = true) :
    (!keepsToken rt cutoff r) = true := by
  unfold keepsToken
  cases htime : tokenTime rt r with
  | error e => rfl
  | ok n =>
    rw [passes_timeTest htime] at h
    exact (Bool.and_eq_true_iff.mp h).2

/-- Of two tests, one of which follows from the other, as many pass just if the same do. -/
theorem countP_eq_countP_iff {α : Type} {p q : α → Bool} {xs : List α}
    (h : ∀ x, p x = true → q x = true) :
    xs.countP p = xs.countP q ↔ ∀ x ∈ xs, (p x = true ↔ q x = true) := by
  rw [← filter_eq_filter_iff, List.countP_eq_length_filter, List.countP_eq_length_filter]
  exact ⟨(List.monotone_filter_right xs h).eq_of_length, congrArg List.length⟩

/-- A record is kept, or is before the cutoff, just if it has a time. -/
theorem stale_iff_not_keeps {rt : Runtime} {n cutoff : JsNumber} {r : Json}
    (htime : tokenTime rt r = .ok n) (hcutoff : cutoff ≠ .nan) :
    (Fallible.passes (timeTest rt fun n => n.lessThan cutoff) r = true
        ↔ (!keepsToken rt cutoff r) = true)
      ↔ n ≠ .nan := by
  rw [passes_timeTest htime]
  unfold keepsToken
  rw [htime]
  dsimp only
  constructor
  · rintro h rfl
    cases cutoff <;> cases h.mpr rfl
  · intro hn
    rw [lessThan_eq_not_atLeast hn hcutoff]

theorem cutoffMs_ne_nan {days : JsNumber} (h : days.positive = true) (ms : ℕ) :
    cutoffMs days ms ≠ .nan := by
  cases days with
  | nan => cases h
  | infinity negative => exact fun h => by cases h
  | finite q => exact fun h => by cases h

/-- **What the three paths count** in a file that can be read, and when it is the same: the
cutoff may have a date or not, and the retention may be disabled or not. -/
theorem counts_agree_iff {rt : Runtime} {data : List Json} {cutoff : JsNumber}
    {dated positive : Bool} (hread : ∀ r ∈ data, ∃ n, tokenTime rt r = .ok n)
    (hcutoff : positive = true → cutoff ≠ .nan) :
    ((if dated then data.countP (Fallible.passes (timeTest rt fun n => n.lessThan cutoff)) else 0)
          = (if positive then if dated then data.countP (fun r => !keepsToken rt cutoff r)
            else 0 else 0)
        ∧ (if positive then if dated then data.countP (fun r => !keepsToken rt cutoff r)
            else 0 else 0)
          = if positive then data.countP (fun r => !keepsToken rt cutoff r) else 0)
      ↔ ∀ r ∈ data, ∀ n, tokenTime rt r = .ok n →
        (positive = true → n ≠ .nan) ∧ (n.lessThan cutoff = true → dated = positive) := by
  have hat : ∀ {Q : JsNumber → Prop} {r n}, tokenTime rt r = .ok n →
      ((∀ m, tokenTime rt r = .ok m → Q m) ↔ Q n) := by
    intro Q r n hn
    refine ⟨fun h => h n hn, fun h m hm => ?_⟩
    cases hn.symm.trans hm
    exact h
  have hkeeps : ∀ {r n}, tokenTime rt r = .ok n → keepsToken rt cutoff r = n.atLeast cutoff := by
    intro r n hn
    unfold keepsToken
    rw [hn]
  cases positive with
  | true =>
    cases dated with
    | true =>
      rw [if_pos rfl, if_pos rfl, if_pos rfl, countP_eq_countP_iff fun r => keepsToken_of_stale,
        and_iff_left rfl]
      refine forall₂_congr fun r hr => ?_
      obtain ⟨n, hn⟩ := hread r hr
      rw [hat hn, stale_iff_not_keeps hn (hcutoff rfl)]
      exact ⟨fun h => ⟨fun _ => h, fun _ => rfl⟩, fun h => h.1 rfl⟩
    | false =>
      rw [if_neg Bool.false_ne_true, if_pos rfl, if_pos rfl, if_neg Bool.false_ne_true,
        and_iff_right rfl, eq_comm, List.countP_eq_zero]
      refine forall₂_congr fun r hr => ?_
      obtain ⟨n, hn⟩ := hread r hr
      rw [hat hn, hkeeps hn]
      constructor
      · intro h
        have hne : n ≠ .nan := by
          rintro rfl
          exact h rfl
        rw [← lessThan_eq_not_atLeast hne (hcutoff rfl)] at h
        exact ⟨fun _ => hne, fun hless => absurd hless h⟩
      · rintro ⟨hne, hless⟩ h
        rw [← lessThan_eq_not_atLeast (hne rfl) (hcutoff rfl)] at h
        cases hless h
  | false =>
    cases dated with
    | true =>
      rw [if_pos rfl, if_neg Bool.false_ne_true, if_neg Bool.false_ne_true, and_iff_left rfl,
        List.countP_eq_zero]
      refine forall₂_congr fun r hr => ?_
      obtain ⟨n, hn⟩ := hread r hr
      rw [hat hn, passes_timeTest hn]
      exact ⟨fun h => ⟨fun hpositive => (by cases hpositive), fun hless => absurd hless h⟩,
        fun h hless => by cases h.2 hless⟩
    | false =>
      exact iff_of_true ⟨rfl, rfl⟩ fun r _ n _ => ⟨fun h => (by cases h), fun _ => rfl⟩

/-- **The three numbers of the file agree** exactly if no record is counted differently. -/
theorem tokensCounted_iff :
    (staleCount (cleanupPreview site now stores) .tokens
        = reportedCount (cleanupResults site now.seconds now.ms stores) .tokens
      ∧ reportedCount (cleanupResults site now.seconds now.ms stores) .tokens
        = removedCount stores
          (cleanStores site now.seconds now.ms now.seconds stores .manual).1 .tokens)
      ↔ TokensCounted site now stores.tokens := by
  rw [staleCount_tokens, reportedCount_tokens, removedCount_tokens]
  unfold tokenPreview
  dsimp only
  by_cases hread : ∃ data, stores.tokens = .json (.arr data)
      ∧ ReadableTimes site.rt stores.tokens
  · obtain ⟨data, hdata, hread⟩ := hread
    unfold TokensCounted
    rw [hdata] at hread ⊢
    rw [(filtered_of_readable hread _).1, (filtered_of_readable hread _).2]
    dsimp only
    rw [apply_ite PreviewEntry.staleCount, ← List.countP_eq_length_filter]
    refine (counts_agree_iff hread fun hpositive => cutoffMs_ne_nan hpositive _).trans ?_
    exact ⟨fun h _ => h, fun h => h hread⟩
  · obtain ⟨⟨e, hfiltered⟩, e', hstale⟩ := error_of_not_readable hread
      (cutoffMs site.retention.tokenUsage now.ms)
    rw [hfiltered, hstale]
    dsimp only
    refine iff_of_true ⟨(ite_self 0).symm, rfl⟩ fun hall r hr => ?_
    have harray : ∃ data, stores.tokens = .json (.arr data) := by
      generalize stores.tokens = file at hr
      cases file with
      | missing | unreadable => cases hr
      | json content =>
        cases content with
        | arr data => exact ⟨data, rfl⟩
        | null | bool _ | num _ | str _ | obj _ => cases hr
    exact absurd (harray.imp fun data hdata => ⟨hdata, hall⟩) hread

end Tokens

/-! ## All stores -/

theorem not_positive_of_notPositive {n : JsNumber} (h : n.notPositive = true) :
    n.positive = false := by
  cases n with
  | nan => cases h
  | infinity negative =>
    cases negative with
    | false => cases h
    | true => rfl
  | finite q => exact decide_eq_false (not_lt.mpr (of_decide_eq_true h))

/-- **Exactly when preview, dry run and real run agree**: no token record is counted
differently. -/
theorem cleanup_agrees_iff (site : SettingsSite) (now : Instant) (stores : RetentionStores) :
    CleanupAgrees site now stores ↔ TokensCounted site now stores.tokens := by
  rw [← tokensCounted_iff]
  refine ⟨fun h => ⟨h.shown .tokens, h.removed .tokens⟩, fun h => ?_⟩
  have hshown : ∀ store, staleCount (cleanupPreview site now stores) store
      = reportedCount (cleanupResults site now.seconds now.ms stores) store := by
    intro store
    cases store with
    | table k => rw [staleCount_table, reportedCount_table]
    | tokens => exact h.1
  refine ⟨hshown, fun store => ?_, fun store hdisabled => ?_, rfl⟩
  · cases store with
    | table k =>
      show reportedCount (cleanupResults site now.seconds now.ms stores) (.table k)
        = removedCount stores
          (cleanStores site now.seconds now.ms now.seconds stores .manual).1 (.table k)
      rw [reportedCount_table, removedCount_table]
      cases hdays : (k.days site.retention).notPositive with
      | true => rfl
      | false =>
        rw [if_neg Bool.false_ne_true, if_neg Bool.false_ne_true]
        exact reportedRows_eq hdays _
    | tokens => exact h.2
  · rw [hshown]
    cases store with
    | table k =>
      rw [reportedCount_table]
      exact if_pos hdisabled
    | tokens =>
      have hdays : site.retention.tokenUsage.positive = false :=
        not_positive_of_notPositive hdisabled
      rw [reportedCount_tokens, hdays]
      rfl

/-- The retention of token records is disabled, and there is an old one. -/
def sampleDisabled : SettingsSite :=
  { sampleSettingsSite with
    retention := { sampleSettingsSite.retention with tokenUsage := .finite 0 } }

/-- One token record, of the beginning of time. -/
def sampleTokenStores : RetentionStores where
  table _ := .empty
  tokens := .json (.arr [.obj [("timestamp", .num (.finite 0))]])

/-- **The preview counts a record that is kept for ever.** -/
theorem not_cleanupAgrees_sampleDisabled :
    ¬ CleanupAgrees sampleDisabled ⟨8640000000, by decide⟩ sampleTokenStores := by
  intro h
  have hnone := h.disabled .tokens (by decide +kernel)
  revert hnone
  decide +kernel

end MissionControl
