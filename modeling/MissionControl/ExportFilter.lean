import Mathlib.Algebra.Order.Ring.Cast
import MissionControl.Export

/-!
# The times of an export

An export may be asked for what was made since a time, and until a time. The conditions of
both name the column `created_at`. In the query of the pipelines, whose tables both have one,
the name has its table put in front of it where it comes first, and only there. So an export
of pipelines with both times fails (`not_exportsWindow_samplePipelines`).

Every other one answers with the rows of that time, the newest first and as many as the limit
says, if that is read as a number that is not negative (`exportsWindow_iff`).
-/

namespace MissionControl

/-! ## What an export is to answer -/

/-- The rows of a type: for pipelines the runs, each with its pipeline. -/
def ExportDb.rowsOf (db : ExportDb) : ExportType → List FromRow
  | .audit => db.auditLog.map fun r => (r, none)
  | .tasks => db.tasks.map fun r => (r, none)
  | .activities => db.activities.map fun r => (r, none)
  | .pipelines => db.pipelineRuns.map fun pr =>
    (pr, db.workflowPipelines.find? fun wp => decide (pr.columns "pipeline_id" ≠ .null)
      && decide (pr.columns "pipeline_id" = wp.columns "id"))

/-- **A time that is absent, or an integer.** -/
def IsTime (param : Option String) : Prop :=
  isGiven param = true → (parseInt (param.getD "")).isSome

instance (param : Option String) : Decidable (IsTime param) :=
  inferInstanceAs (Decidable (isGiven param = true → (parseInt (param.getD "")).isSome = true))

def timeOf (param : Option String) : Option ℤ :=
  if isGiven param then parseInt (param.getD "") else none

/-- Whether a row was made within the times of a request. -/
def ExportRequest.within (q : ExportRequest) (row : FromRow) : Bool :=
  (timeOf q.since).all (fun t => decide (t ≤ row.1.createdAt))
    && (timeOf q.untilTime).all fun t => decide (row.1.createdAt ≤ t)

/-- **The export answers with the newest rows of its times**, as many as its limit says. -/
def ExportsWindow (rt : Runtime) (sq : Sqlite) (order : OrderBy NewestFirst) (now : ℕ)
    (db : ExportDb) (q : ExportRequest) (type : ExportType) : Prop :=
  ∃ rows limit, (exportLimit q.limit).integer = some limit
    ∧ IsFirst NewestFirst limit.toNat ((db.rowsOf type).filter q.within) rows
    ∧ getExport rt sq order now db q
      = .ok (some (exportAnswer rt now q type (rows.map fun row => row.selected type)).1,
        (exportAnswer rt now q type (rows.map fun row => row.selected type)).2)

/-! ## Numbers that are read -/

section Numbers

variable {c z : ℤ}

theorem ofInteger_of_small (hz : z.natAbs < 2 ^ 53) : JsNumber.ofInteger z = .finite z := by
  unfold JsNumber.ofInteger
  rw [Double.nearest_of_lt hz]
  refine congrArg JsNumber.finite ?_
  split
  · have habs : (z.natAbs : ℤ) = -z := by omega
    rw [← Int.cast_natCast, habs, Int.cast_neg, neg_neg]
  · have habs : (z.natAbs : ℤ) = z := by omega
    rw [← Int.cast_natCast, habs]

/-- An integer that is too large to be exact is read as one that is too large, or as none. -/
theorem ofInteger_of_large (hz : 2 ^ 53 ≤ z.natAbs) :
    JsNumber.ofInteger z = .infinity (decide (z < 0))
      ∨ ∃ w : ℤ, 2 ^ 53 ≤ w.natAbs ∧ (w < 0 ↔ z < 0) ∧ JsNumber.ofInteger z = .finite w := by
  unfold JsNumber.ofInteger
  cases hnearest : Double.nearest z.natAbs with
  | none => exact .inl rfl
  | some n =>
    have hn := Double.le_of_nearest hz hnearest
    refine .inr ⟨if z < 0 then -n else n, ?_, ?_, congrArg JsNumber.finite ?_⟩
    · split <;> omega
    · split <;> omega
    · split
      · rw [Int.cast_neg, Int.cast_natCast]
      · rw [Int.cast_natCast]

/-- **An integer that is read** compares with an exact number as it should. -/
theorem atLeast_ofInteger (hc : c.natAbs < 2 ^ 53) :
    (JsNumber.finite c).atLeast (.ofInteger z) = decide (z ≤ c)
      ∧ (JsNumber.ofInteger z).atLeast (.finite c) = decide (c ≤ z) := by
  rcases Nat.lt_or_ge z.natAbs (2 ^ 53) with hz | hz
  · rw [ofInteger_of_small hz]
    exact ⟨decide_eq_decide.mpr Int.cast_le, decide_eq_decide.mpr Int.cast_le⟩
  · rcases ofInteger_of_large hz with hread | ⟨w, hw, hsign, hread⟩
    · rw [hread]
      rcases Int.lt_or_le z 0 with hneg | hpos
      · rw [decide_eq_true hneg, decide_eq_true (by omega : z ≤ c),
          decide_eq_false (by omega : ¬ c ≤ z)]
        exact ⟨rfl, rfl⟩
      · rw [decide_eq_false (by omega : ¬ z < 0), decide_eq_false (by omega : ¬ z ≤ c),
          decide_eq_true (by omega : c ≤ z)]
        exact ⟨rfl, rfl⟩
    · rw [hread]
      exact ⟨decide_eq_decide.mpr (Int.cast_le.trans (by omega)),
        decide_eq_decide.mpr (Int.cast_le.trans (by omega))⟩

end Numbers

/-! ## The query -/

theorem ExportDb.fromRows_eq (db : ExportDb) (type : ExportType) :
    db.fromRows type = db.rowsOf type := by
  cases type with
  | pipelines =>
    refine Query.leftJoin_of_nodup db.nodup ?_
    intro pr wp _ wp' _ h h'
    exact (of_decide_eq_true (Bool.and_eq_true_iff.mp h).2).symm.trans
      (of_decide_eq_true (Bool.and_eq_true_iff.mp h').2)
  | audit | tasks | activities => rfl

/-- `created_at`, as the query of a type names it. -/
def ExportType.createdAt : ExportType → Query.Column
  | pipelines => ⟨some "pr", "created_at"⟩
  | _ => ⟨none, "created_at"⟩

def ExportType.timeConditions (type : ExportType) (since untilTime : Bool) :
    List (ℕ × Query.Condition) :=
  (if since then [(0, ⟨type.createdAt, .atLeast⟩)] else [])
    ++ if untilTime then [(0, ⟨type.createdAt, .atMost⟩)] else []

/-- **What the clause of a query is read as.** -/
theorem ExportType.prepare_clause (type : ExportType) (since untilTime : Bool)
    (h : ¬ (type = .pipelines ∧ since = true ∧ untilTime = true)) :
    Query.prepare type.sources (type.clause (whereText
        ((if since then ["created_at >= ?"] else [])
          ++ if untilTime then ["created_at <= ?"] else [])))
      = .ok (type.timeConditions since untilTime) := by
  cases since <;> cases untilTime <;> cases type
  all_goals first
    | exact absurd ⟨rfl, rfl, rfl⟩ h
    | decide +kernel

/-- **The second name in the clause of the pipelines** may be of either table. -/
theorem prepare_clause_both :
    Query.prepare ExportType.pipelines.sources
        (ExportType.pipelines.clause (whereText ["created_at >= ?", "created_at <= ?"]))
      = .error (.ambiguous "created_at") :=
  Query.prepare_ambiguous [⟨⟨some "pr", "created_at"⟩, .atLeast⟩] [] .atMost
    [(0, ⟨⟨some "pr", "created_at"⟩, .atLeast⟩)] (by decide +kernel) (by decide +kernel)
    (by decide +kernel) (by decide +kernel)

theorem test_createdAt {text : String} {z : ℤ} (h : parseInt text = some z) (row : FromRow) :
    Query.Comparison.atLeast.test SqlValue.isAtMost (row.value 0 "created_at")
        (boundNumber (parseNumber text)) = decide (z ≤ row.1.createdAt)
      ∧ Query.Comparison.atMost.test SqlValue.isAtMost (row.value 0 "created_at")
        (boundNumber (parseNumber text)) = decide (row.1.createdAt ≤ z) := by
  have hvalue : row.value 0 "created_at" = .number (.finite row.1.createdAt) := row.1.created
  have hbound : boundNumber (parseNumber text) = .number (.ofInteger z) := by
    unfold parseNumber JsNumber.ofInteger
    rw [h, Option.elim_some]
    cases Double.nearest z.natAbs <;> rfl
  rw [hvalue, hbound]
  exact atLeast_ofInteger row.1.exact

/-- **The conditions are those of the times.** -/
theorem satisfies_timeConditions {q : ExportRequest} (hsince : IsTime q.since)
    (huntil : IsTime q.untilTime) (type : ExportType) :
    Query.satisfies SqlValue.isAtMost FromRow.value
        (type.timeConditions (isGiven q.since) (isGiven q.untilTime))
        (q.params.map boundNumber)
      = q.within := by
  funext row
  have hname : type.createdAt.name = "created_at" := by cases type <;> rfl
  have hread : ∀ {param : Option String}, IsTime param → isGiven param = true →
      ∃ z, parseInt (param.getD "") = some z := fun h hgiven =>
    Option.isSome_iff_exists.mp (h hgiven)
  unfold Query.satisfies ExportType.timeConditions ExportRequest.params ExportRequest.within timeOf
  cases hgiven : isGiven q.since with
  | false =>
    cases hgiven' : isGiven q.untilTime with
    | false => rfl
    | true =>
      obtain ⟨z, hz⟩ := hread huntil hgiven'
      have htest := (test_createdAt hz row).2
      rw [← hname] at htest
      simp [htest, hz]
  | true =>
    obtain ⟨y, hy⟩ := hread hsince hgiven
    have htest := (test_createdAt hy row).1
    rw [← hname] at htest
    cases hgiven' : isGiven q.untilTime with
    | false => simp [htest, hy]
    | true =>
      obtain ⟨z, hz⟩ := hread huntil hgiven'
      have htest' := (test_createdAt hz row).2
      rw [← hname] at htest'
      simp [htest, htest', hy, hz]

section Query

variable {rt : Runtime} {sq : Sqlite} {order : OrderBy NewestFirst} {now : ℕ} {db : ExportDb}
  {q : ExportRequest} {type : ExportType}

/-- **An export of pipelines has both times.** -/
def ExportRequest.BothTimes (q : ExportRequest) (type : ExportType) : Prop :=
  type = .pipelines ∧ isGiven q.since = true ∧ isGiven q.untilTime = true

theorem exportQuery_of_both (h : q.BothTimes type) :
    exportQuery sq order db q type
      = .error (.error "ambiguous column name: created_at") := by
  obtain ⟨rfl, hsince, huntil⟩ := h
  have hclause : whereText q.conditions
      = whereText ["created_at >= ?", "created_at <= ?"] := by
    unfold ExportRequest.conditions
    rw [hsince, huntil]
    rfl
  unfold exportQuery
  rw [hclause, Query.select_of_error prepare_clause_both]
  rfl

/-- **What a query selects**: the rows of its times, up to its limit. -/
theorem exportQuery_of_not_both (hsince : IsTime q.since) (huntil : IsTime q.untilTime)
    (h : ¬ q.BothTimes type) :
    exportQuery sq order db q type = (do
      let limit ← sqlLimit sq (boundNumber (exportLimit q.limit))
      .ok (limit.elim (order.sort ((db.rowsOf type).filter q.within)) fun n =>
        order.first n ((db.rowsOf type).filter q.within))) := by
  have hlength : (type.timeConditions (isGiven q.since) (isGiven q.untilTime)).length
      = (q.params.map boundNumber).length := by
    unfold ExportType.timeConditions ExportRequest.params
    cases isGiven q.since <;> cases isGiven q.untilTime <;> rfl
  have hprepare := type.prepare_clause (isGiven q.since) (isGiven q.untilTime) h
  unfold exportQuery
  unfold ExportRequest.conditions
  rw [Query.select_of_prepare hprepare hlength, satisfies_timeConditions hsince huntil,
    db.fromRows_eq]
  rfl

/-- **The query succeeds** exactly if its clause is right and its limit is read as an integer;
a negative one is no limit. -/
theorem exportQuery_eq_ok (hsince : IsTime q.since) (huntil : IsTime q.untilTime)
    {rows : List FromRow} :
    exportQuery sq order db q type = .ok rows
      ↔ ¬ q.BothTimes type ∧ ∃ limit, (exportLimit q.limit).Takes limit
        ∧ rows = if limit < 0 then order.sort ((db.rowsOf type).filter q.within)
          else order.first limit.toNat ((db.rowsOf type).filter q.within) := by
  by_cases hboth : q.BothTimes type
  · rw [exportQuery_of_both hboth]
    exact ⟨fun h => (by cases h), fun h => absurd hboth h.1⟩
  · rw [exportQuery_of_not_both hsince huntil hboth]
    constructor
    · intro h
      obtain ⟨n, hn, hrows⟩ := bind_eq_ok.mp h
      obtain ⟨limit, htakes⟩ : ∃ limit, (exportLimit q.limit).Takes limit := by
        by_contra hno
        rw [sqlLimit_of_not_takes sq (not_exists.mp hno)] at hn
        cases hn
      rw [sqlLimit_of_takes sq htakes] at hn
      obtain rfl := Except.ok.inj hn
      refine ⟨hboth, limit, htakes, (Except.ok.inj hrows).symm.trans ?_⟩
      split <;> rfl
    · rintro ⟨-, limit, htakes, rfl⟩
      rw [sqlLimit_of_takes sq htakes, ok_bind]
      split <;> rfl

theorem getExport_of_type (htype : ExportType.ofText (q.type.getD "") = some type) :
    getExport rt sq order now db q = (do
      let rows ← exportQuery sq order db q type
      let answer := exportAnswer rt now q type (rows.map fun row => row.selected type)
      .ok (some answer.1, answer.2)) := by
  unfold getExport
  rw [htype]

/-- **An export answers as it should** exactly if it is not one of pipelines with both times,
and its limit is read as an integer, which is negative only where there are no rows. -/
theorem exportsWindow_iff (rt : Runtime) (sq : Sqlite) (order : OrderBy NewestFirst) (now : ℕ)
    (db : ExportDb) (htype : ExportType.ofText (q.type.getD "") = some type)
    (hsince : IsTime q.since) (huntil : IsTime q.untilTime) :
    ExportsWindow rt sq order now db q type
      ↔ ¬ q.BothTimes type ∧ ∃ limit, (exportLimit q.limit).Takes limit
        ∧ (limit < 0 → ∀ row ∈ db.rowsOf type, q.within row = false) := by
  unfold ExportsWindow
  rw [getExport_of_type htype]
  constructor
  · rintro ⟨rows, limit, hlimit, hfirst, hanswer⟩
    obtain ⟨selected, hselected, hanswer⟩ := bind_eq_ok.mp hanswer
    obtain ⟨hboth, limit', htakes, rfl⟩ := (exportQuery_eq_ok hsince huntil).mp hselected
    obtain rfl := Option.some.inj (htakes.1.symm.trans hlimit)
    refine ⟨hboth, limit', htakes, fun hneg row hrow => ?_⟩
    rw [if_pos hneg] at hanswer
    -- the log of audits tells how many rows there were
    have hcount : (order.sort ((db.rowsOf type).filter q.within)).length = rows.length := by
      have hcounts := congrArg (fun a => a.1.map ExportAudit.rowCount) (Except.ok.inj hanswer)
      simpa only [Option.map_some, exportAnswer, List.length_map, Option.some.injEq] using hcounts
    rw [hfirst.length, Int.toNat_of_nonpos hneg.le, Nat.zero_min, (order.perm _).length_eq,
      List.length_eq_zero_iff, List.filter_eq_nil_iff] at hcount
    exact Bool.eq_false_iff.mpr (hcount row hrow)
  · rintro ⟨hboth, limit, htakes, hneg⟩
    have hfirst := order.isFirst_first limit.toNat ((db.rowsOf type).filter q.within)
    have hquery : exportQuery sq order db q type
        = .ok (order.first limit.toNat ((db.rowsOf type).filter q.within)) := by
      refine (exportQuery_eq_ok hsince huntil).mpr ⟨hboth, limit, htakes, ?_⟩
      split
      · next hlimit =>
        -- no rows, with a limit or without
        have hnil : (db.rowsOf type).filter q.within = [] := by
          rw [List.filter_eq_nil_iff]
          exact fun row hrow => Bool.eq_false_iff.mp (hneg hlimit row hrow)
        have hsort : order.sort [] = [] := (order.perm []).eq_nil
        unfold OrderBy.first
        rw [hnil, hsort, List.take_nil]
      · rfl
    refine ⟨_, limit, htakes.1, hfirst, ?_⟩
    rw [hquery, ok_bind]

end Query

/-! ## Pipelines of a time -/

instance : DecidableRel NewestFirst := fun a b =>
  inferInstanceAs (Decidable (b.1.createdAt ≤ a.1.createdAt))

/-- Rows of one time as they were inserted. -/
def sampleExportOrder : OrderBy NewestFirst :=
  have : Std.Total NewestFirst := ⟨fun a b => Int.le_total b.1.createdAt a.1.createdAt⟩
  have : IsTrans FromRow NewestFirst := ⟨fun _ _ _ hab hbc => Int.le_trans hbc hab⟩
  .insertion NewestFirst

/-- A row with nothing but its time. -/
def sampleTimedRow (createdAt : ℤ) (exact : createdAt.natAbs < 2 ^ 53) : TimedRow where
  columns column := if column = "created_at" then .number (.finite createdAt) else .null
  createdAt := createdAt
  created := rfl
  exact := exact

/-- Three tasks. -/
def sampleExportDb : ExportDb where
  auditLog := []
  tasks := [sampleTimedRow 100 (by decide), sampleTimedRow 200 (by decide),
    sampleTimedRow 300 (by decide)]
  activities := []
  pipelineRuns := []
  workflowPipelines := []
  nodup := List.nodup_nil

/-- An export of what was made from a time until another one. -/
def sampleExportRequest (type : String) : ExportRequest where
  username := "admin"
  userId := 1
  type := some type
  format := none
  since := some "150"
  untilTime := some "300"
  limit := none
  forwardedFor := none
  realIp := none

/-- The tasks of a time. -/
theorem exportsWindow_sampleTasks :
    ExportsWindow sampleRuntime sampleSqlite sampleExportOrder 0 sampleExportDb
      (sampleExportRequest "tasks") .tasks :=
  (exportsWindow_iff sampleRuntime sampleSqlite sampleExportOrder 0 sampleExportDb
    (by decide) (by decide +kernel) (by decide +kernel)).mpr
    ⟨fun h => (by cases h.1), 10000, ⟨by decide +kernel, by decide⟩, by decide⟩

/-- **An export of pipelines from a time until another one fails.** -/
theorem not_exportsWindow_samplePipelines :
    ¬ ∀ (rt : Runtime) (sq : Sqlite) (order : OrderBy NewestFirst) (now : ℕ) (db : ExportDb)
      (q : ExportRequest) (type : ExportType),
      ExportType.ofText (q.type.getD "") = some type → IsTime q.since → IsTime q.untilTime →
        ExportsWindow rt sq order now db q type := by
  intro h
  have htype : ExportType.ofText ((sampleExportRequest "pipelines").type.getD "")
      = some .pipelines := by decide
  obtain ⟨rows, limit, -, -, hanswer⟩ := h sampleRuntime sampleSqlite sampleExportOrder 0
    sampleExportDb (sampleExportRequest "pipelines") .pipelines htype (by decide +kernel)
    (by decide +kernel)
  rw [getExport_of_type htype, exportQuery_of_both ⟨rfl, by decide, by decide⟩] at hanswer
  cases hanswer

end MissionControl
