import Mathlib.Data.List.Chain
import MissionControl.Library.Machine
import MissionControl.Library.Table
import MissionControl.TokenUsage

/-!
# Alert rules

`evaluateRules` reads the enabled rules once and goes through them. A rule in its cooldown
is passed over; the others are evaluated against the monitored tables, where an error
counts as a condition that is not met. A rule that is triggered is given the time of the
pass and one more trigger, and a notification, which may fail.

A rule is passed over by the time that the row had as the pass began. As no rule occurs
twice in a pass, that is the time of its last trigger: two triggers in a row lie a cooldown
apart, and each is counted (`alerts_cooldown`).
-/

namespace MissionControl

/-! ## Rules and data -/

/-- A row of `alert_rules`. -/
@[ext] structure AlertRule where
  name : String
  description : Option String
  enabled : SqlValue
  entityType : String
  conditionField : String
  conditionOperator : String
  conditionValue : String
  actionConfig : String
  cooldownMinutes : SqlValue
  lastTriggeredAt : Option ℕ
  triggerCount : ℕ

/-- A row of a monitored table, by its columns. -/
abbrev MonitoredRow := String → SqlValue

/-- **The data of the monitored tables**; a table that is `none` cannot be read. -/
structure MonitoredData where
  agents : Option (List MonitoredRow)
  tasks : Option (List MonitoredRow)
  activities : Option (List MonitoredRow)

/-- What is around the rules: the runtime and the database. -/
structure AlertSite where
  rt : Runtime
  sq : Sqlite

/-! ## Conditions -/

/-- `a < b` on numbers. -/
def JsNumber.lessThan (a b : JsNumber) : Bool := b.atLeast a && !a.atLeast b

/-- `Number(x)` on the value of a column. -/
def SqlValue.toNumber (rt : Runtime) : SqlValue → JsNumber
  | null => .finite 0
  | text s => rt.stringToNumber s
  | number n => n

/-- `String(x)` on the value of a column. -/
def SqlValue.toText (rt : Runtime) : SqlValue → String
  | null => "null"
  | text s => s
  | number n => rt.numberToString n

def safeColumns : List (String × List String) :=
  [("agents", ["status", "role", "name", "last_seen", "last_activity"]),
    ("tasks", ["status", "priority", "assigned_to", "title"]),
    ("activities", ["type", "actor", "entity_type"])]

def safeColumn (table column : String) : String :=
  if column ∈ (safeColumns.lookup table).getD [] then column else "id"

/-- Whether a column is of type `INTEGER`; the others are of type `TEXT`. -/
def isIntegerColumn (column : String) : Bool := column = "id" || column = "last_seen"

/-- `WHERE column = ?`, of a text. -/
def columnIs (sq : Sqlite) (column value : String) (row : MonitoredRow) : Bool :=
  if isIntegerColumn column then row column = (SqlValue.text value).asInteger sq
  else row column = .text value

/-- `WHERE column < ?`, of a number; nothing is below `NaN`, which is bound as `NULL`. -/
def columnBelow (sq : Sqlite) (column : String) (threshold : Option ℤ) (row : MonitoredRow) :
    Bool :=
  match threshold, row column with
  | none, _ | _, .null => false
  | some threshold, .number n => n.lessThan (.finite threshold)
  | some threshold, .text s =>
    !isIntegerColumn column && decide (s < sq.numberToText (.finite threshold))

/-- `WHERE status != 'offline'`. -/
def notOffline (row : MonitoredRow) : Bool :=
  row "status" ≠ .null && row "status" ≠ .text "offline"

/-- `count > parseInt(value)`. -/
def countAbove (count : ℕ) (value : String) : Bool :=
  match parseInt value with
  | some n => n < count
  | none => false

/-- `count < parseInt(value)`. -/
def countBelow (count : ℕ) (value : String) : Bool :=
  match parseInt value with
  | some n => (count : ℤ) < n
  | none => false

def compareValue (rt : Runtime) (actual : SqlValue) (operator expected : String) : Bool :=
  if actual = .null then false
  else if operator = "equals" then actual.toText rt = expected
  else if operator = "not_equals" then actual.toText rt ≠ expected
  else if operator = "greater_than" then
    (rt.stringToNumber expected).lessThan (actual.toNumber rt)
  else if operator = "less_than" then (actual.toNumber rt).lessThan (rt.stringToNumber expected)
  else if operator = "contains" then
    includes (rt.toLowerCase (actual.toText rt)) (rt.toLowerCase expected)
  else false

section Evaluate

variable (site : AlertSite) (data : MonitoredData) (r : AlertRule) (now : ℕ)

def evaluateAgentRule : Option Bool := do
  let agents ← data.agents
  let column := safeColumn "agents" r.conditionField
  if r.conditionOperator = "count_above" ∨ r.conditionOperator = "count_below" then
    let count := agents.countP (columnIs site.sq column r.conditionValue)
    return if r.conditionOperator = "count_above" then countAbove count r.conditionValue
      else countBelow count r.conditionValue
  if r.conditionOperator = "age_minutes_above" then
    let threshold := (parseInt r.conditionValue).map fun n => (now : ℤ) - n * 60
    return agents.any fun row => notOffline row && columnBelow site.sq column threshold row
  return (agents.filter notOffline).any fun row =>
    compareValue site.rt (row column) r.conditionOperator r.conditionValue

def evaluateTaskRule : Option Bool := do
  let tasks ← data.tasks
  let column := safeColumn "tasks" r.conditionField
  if r.conditionOperator = "count_above" then
    return countAbove (tasks.countP (columnIs site.sq column r.conditionValue)) r.conditionValue
  if r.conditionOperator = "count_below" then
    return countBelow tasks.length r.conditionValue
  return tasks.any fun row =>
    compareValue site.rt (row column) r.conditionOperator r.conditionValue

def evaluateSessionRule : Option Bool :=
  if r.conditionOperator = "count_above" then do
    let agents ← data.agents
    return countAbove (agents.countP fun row => row "status" = .text "busy") r.conditionValue
  else some false

def evaluateActivityRule : Option Bool :=
  if r.conditionOperator = "count_above" then do
    let activities ← data.activities
    let column := safeColumn "activities" r.conditionField
    let recent (row : MonitoredRow) : Bool :=
      (JsNumber.finite ((now : ℤ) - 3600 : ℤ)).lessThan ((row "created_at").toNumber site.rt)
    return countAbove
      (activities.countP fun row => recent row && columnIs site.sq column r.conditionValue row)
      r.conditionValue
  else some false

/-- **`evaluateRule`**: a rule whose evaluation fails is not triggered. -/
def evaluateRule : Bool :=
  Option.getD (if r.entityType = "agent" then evaluateAgentRule site data r now
    else if r.entityType = "task" then evaluateTaskRule site data r
    else if r.entityType = "session" then evaluateSessionRule data r
    else if r.entityType = "activity" then evaluateActivityRule site data r now
    else some false) false

end Evaluate

/-! ## A pass -/

/-- `rule.cooldown_minutes * 60`. -/
def AlertRule.cooldown (rt : Runtime) (r : AlertRule) : JsNumber :=
  match r.cooldownMinutes.toNumber rt with
  | .finite q => .finite (q * 60)
  | n => n

/-- **The rule is in its cooldown.** A last time of zero counts as none. -/
def AlertRule.inCooldown (rt : Runtime) (r : AlertRule) (now : ℕ) : Bool :=
  match r.lastTriggeredAt with
  | none | some 0 => false
  | some last => (JsNumber.finite ((now : ℤ) - last : ℤ)).lessThan (r.cooldown rt)

/-- `SET last_triggered_at = ?, trigger_count = trigger_count + 1`. -/
def AlertRule.trigger (r : AlertRule) (now : ℕ) : AlertRule :=
  { r with lastTriggeredAt := some now, triggerCount := r.triggerCount + 1 }

def AlertRule.triggers (site : AlertSite) (data : MonitoredData) (now : ℕ) (r : AlertRule) :
    Bool := !r.inCooldown site.rt now && evaluateRule site data r now

structure AlertResult where
  ruleId : ℕ
  ruleName : String
  triggered : Bool
  reason : String

def AlertRule.result (site : AlertSite) (data : MonitoredData) (now id : ℕ) (r : AlertRule) :
    AlertResult :=
  if r.inCooldown site.rt now then ⟨id, r.name, false, "In cooldown"⟩
  else if evaluateRule site data r now then ⟨id, r.name, true, "Condition met"⟩
  else ⟨id, r.name, false, "Condition not met"⟩

/-- What a pass does: a rule is triggered, and a notification is created for it. -/
inductive AlertEvent where
  | triggered (id now : ℕ)
  | notified (recipient : SqlValue) (title message : String) (id : ℕ)

/-- The notification of a rule, unless it fails. -/
def AlertRule.notification (site : AlertSite) (id : ℕ) (r : AlertRule) :
    Except Exception AlertEvent := do
  let some config := site.rt.parseJson (orElse r.actionConfig "\x7b\x7d") | .error .typeError
  let recipient ← Json.get (some config) "recipient"
  let title := "Alert: " ++ r.name
  let message := orElse (r.description.getD "") ("Rule \"" ++ r.name ++ "\" triggered")
  match ← SqlValue.bindAll 4 [some (Json.or recipient (.str "system")), some (.str title),
      some (.str message), some (.num (.finite id))] with
  | .null :: _ => .error (.error "NOT NULL constraint failed: notifications.recipient")
  | v :: _ => .ok (.notified (v.asText site.sq) title message id)
  | [] => .error .typeError

/-- The rules are gone through, as they were read. -/
def evaluatePass (site : AlertSite) (data : MonitoredData) (now : ℕ) :
    List (ℕ × AlertRule) → Table AlertRule → Table AlertRule × List AlertEvent
  | [], rules => (rules, [])
  | (id, r) :: rest, rules =>
    if r.triggers site data now then
      let (rules', es) := evaluatePass site data now rest
        (rules.update id fun row => row.trigger now)
      (rules', .triggered id now :: ((r.notification site id).toOption.toList ++ es))
    else evaluatePass site data now rest rules

/-- `WHERE enabled = 1`. -/
def enabledRules (rules : Table AlertRule) : List (ℕ × AlertRule) :=
  rules.rows.filter fun r => r.2.enabled = .number (.finite 1)

/-- **`evaluateRules`.** -/
def evaluateRules (site : AlertSite) (rules : Table AlertRule) (data : MonitoredData) (now : ℕ) :
    List AlertResult × Table AlertRule × List AlertEvent :=
  ((enabledRules rules).map fun r => r.2.result site data now r.1,
    evaluatePass site data now (enabledRules rules) rules)

/-- **The rules, and the clock**, in seconds since 1970. -/
structure AlertState where
  rules : Table AlertRule
  clock : ℕ
  clock_pos : 0 < clock

/-- A request to evaluate the rules, some time after the one before. -/
structure AlertRequest where
  elapsed : ℕ
  data : MonitoredData

/-- **The requests to evaluate the rules.** -/
def alerts (site : AlertSite) : Machine AlertState AlertRequest AlertEvent where
  step s a :=
    let (_, rules, es) := evaluateRules site s.rules a.data (s.clock + a.elapsed)
    (⟨rules, s.clock + a.elapsed, Nat.add_pos_left s.clock_pos _⟩, es)

def triggerTimes (id : ℕ) : List AlertEvent → List ℕ
  | [] => []
  | .triggered id' now :: es => if id' = id then now :: triggerTimes id es else triggerTimes id es
  | .notified _ _ _ _ :: es => triggerTimes id es

/-- **Two triggers in a row lie a cooldown apart.** -/
def AlertRule.Apart (rt : Runtime) (r : AlertRule) (first second : ℕ) : Prop :=
  first ≤ second
    ∧ (JsNumber.finite ((second : ℤ) - first : ℤ)).lessThan (r.cooldown rt) = false

/-! ## What a pass does to a rule -/

theorem triggerTimes_append (id : ℕ) (es es' : List AlertEvent) :
    triggerTimes id (es ++ es') = triggerTimes id es ++ triggerTimes id es' := by
  induction es with
  | nil => rfl
  | cons e es ih =>
    cases e with
    | triggered id' now =>
      show (if id' = id then _ else _) = (if id' = id then _ else _) ++ _
      split
      · exact congrArg (now :: ·) ih
      · exact ih
    | notified recipient title message id' => exact ih

section Pass

variable {site : AlertSite} {data : MonitoredData} {now id : ℕ} {r : AlertRule}

theorem triggerTimes_notification (id id' : ℕ) (r : AlertRule) :
    triggerTimes id (r.notification site id').toOption.toList = [] := by
  cases h : r.notification site id' with
  | error e => rfl
  | ok e =>
    obtain ⟨config, -, h⟩ : ∃ config, site.rt.parseJson (orElse r.actionConfig "\x7b\x7d")
        = some config ∧ _ := by
      unfold AlertRule.notification at h
      split at h
      · next config hconfig => exact ⟨config, hconfig, h⟩
      · exact nomatch h
    obtain ⟨recipient, -, h⟩ := bind_eq_ok.mp h
    obtain ⟨values, -, h⟩ := bind_eq_ok.mp h
    split at h
    · exact nomatch h
    · cases h
      rfl
    · exact nomatch h

variable (site data now)

/-- **A rule that a pass does not go through** is left alone. -/
theorem evaluatePass_of_notMem {rows : List (ℕ × AlertRule)} (h : id ∉ rows.map Prod.fst)
    (rules : Table AlertRule) :
    (evaluatePass site data now rows rules).1.row id = rules.row id
      ∧ triggerTimes id (evaluatePass site data now rows rules).2 = [] := by
  induction rows generalizing rules with
  | nil => exact ⟨rfl, rfl⟩
  | cons x rows ih =>
    obtain ⟨id', r'⟩ := x
    rw [List.map_cons, List.mem_cons, not_or] at h
    unfold evaluatePass
    split
    · obtain ⟨hrow, htimes⟩ := ih h.2 (rules.update id' fun row => row.trigger now)
      refine ⟨hrow.trans (Table.row_update_of_ne _ _ h.1), ?_⟩
      show (if id' = id then _ else triggerTimes id (_ ++ _)) = []
      rw [if_neg (Ne.symm h.1), triggerTimes_append, triggerTimes_notification, htimes]
      rfl
    · exact ih h.2 rules

/-- **A rule that a pass goes through** is triggered, or left alone. -/
theorem evaluatePass_of_mem {rows : List (ℕ × AlertRule)} (hrows : (rows.map Prod.fst).Nodup)
    (h : (id, r) ∈ rows) (rules : Table AlertRule) :
    (evaluatePass site data now rows rules).1.row id
        = (rules.row id).map (fun row => if r.triggers site data now then row.trigger now else row)
      ∧ triggerTimes id (evaluatePass site data now rows rules).2
        = if r.triggers site data now then [now] else [] := by
  induction rows generalizing rules with
  | nil => exact absurd h List.not_mem_nil
  | cons x rows ih =>
    obtain ⟨id', r'⟩ := x
    rw [List.map_cons, List.nodup_cons] at hrows
    unfold evaluatePass
    obtain heq | hmem := List.mem_cons.mp h
    · -- the others are other rules
      obtain ⟨rfl, rfl⟩ := Prod.mk.inj heq
      split
      · obtain ⟨hrow, htimes⟩ := evaluatePass_of_notMem site data now
          hrows.1 (rules.update id fun row => row.trigger now)
        refine ⟨hrow.trans (Table.row_update_self _ _ _), ?_⟩
        show (if id = id then now :: triggerTimes id (_ ++ _) else _) = [now]
        rw [if_pos rfl, triggerTimes_append, triggerTimes_notification, htimes]
        rfl
      · obtain ⟨hrow, htimes⟩ := evaluatePass_of_notMem site data now
          hrows.1 rules
        exact ⟨hrow.trans Option.map_id'.symm, htimes⟩
    · have hne : id ≠ id' := fun hid =>
        hrows.1 (List.mem_map.mpr ⟨(id, r), hmem, hid⟩)
      split
      · obtain ⟨hrow, htimes⟩ := ih hrows.2 hmem (rules.update id' fun row => row.trigger now)
        rw [Table.row_update_of_ne _ _ hne] at hrow
        refine ⟨hrow, ?_⟩
        show (if id' = id then _ else triggerTimes id (_ ++ _)) = _
        rw [if_neg (Ne.symm hne), triggerTimes_append, triggerTimes_notification, htimes]
        rfl
      · exact ih hrows.2 hmem rules

end Pass

def AlertRule.Fires (site : AlertSite) (s : AlertState) (a : AlertRequest) (r : AlertRule) :
    Prop :=
  r.enabled = .number (.finite 1) ∧ r.triggers site a.data (s.clock + a.elapsed) = true

instance (site : AlertSite) (s : AlertState) (a : AlertRequest) (r : AlertRule) :
    Decidable (r.Fires site s a) := inferInstanceAs (Decidable (_ ∧ _))

/-- **What a request does to a rule.** -/
theorem alerts_rule (site : AlertSite) {s : AlertState} {id : ℕ} {r : AlertRule}
    (hr : s.rules.row id = some r) (a : AlertRequest) :
    ((alerts site).next s a).rules.row id
        = some (if r.Fires site s a then r.trigger (s.clock + a.elapsed) else r)
      ∧ triggerTimes id ((alerts site).emits s a)
        = if r.Fires site s a then [s.clock + a.elapsed] else [] := by
  have hrows : ((enabledRules s.rules).map Prod.fst).Nodup :=
    s.rules.nodup_rows.sublist (List.filter_sublist.map _)
  show (evaluatePass site a.data _ (enabledRules s.rules) s.rules).1.row id = _
    ∧ triggerTimes id (evaluatePass site a.data _ (enabledRules s.rules) s.rules).2 = _
  by_cases henabled : r.enabled = .number (.finite 1)
  · have hmem : (id, r) ∈ enabledRules s.rules :=
      List.mem_filter.mpr ⟨s.rules.mem_rows.mpr hr, decide_eq_true henabled⟩
    obtain ⟨hrow, htimes⟩ := evaluatePass_of_mem site a.data (s.clock + a.elapsed)
      hrows hmem s.rules
    rw [hrow, htimes, hr]
    have hfires : r.Fires site s a
        ↔ r.triggers site a.data (s.clock + a.elapsed) = true := and_iff_right henabled
    simp only [hfires, Option.map_some, and_self]
  · have hnot : id ∉ (enabledRules s.rules).map Prod.fst := by
      intro h
      obtain ⟨⟨id', r'⟩, hmem, rfl⟩ := List.mem_map.mp h
      obtain ⟨hrow, hone⟩ := List.mem_filter.mp hmem
      obtain rfl := Option.some.inj (hr.symm.trans (s.rules.mem_rows.mp hrow))
      exact henabled (of_decide_eq_true hone)
    obtain ⟨hrow, htimes⟩ := evaluatePass_of_notMem site a.data (s.clock + a.elapsed)
      hnot s.rules
    rw [hrow, htimes, hr, if_neg fun h => henabled h.1, if_neg fun h => henabled h.1]
    exact ⟨rfl, rfl⟩

/-! ## Runs -/

/-- **What a run has made of a rule**: its triggers are counted, lie apart, and the row has
the time of the last one. -/
structure AlertRule.Since (rt : Runtime) (id : ℕ) (r : AlertRule) (es : List AlertEvent)
    (s : AlertState) : Prop where
  apart : (triggerTimes id es).IsChain (r.Apart rt)
  row : ∃ last, s.rules.row id = some { r with
      lastTriggeredAt := last
      triggerCount := r.triggerCount + (triggerTimes id es).length }
    ∧ ∀ t ∈ (triggerTimes id es).getLast?, last = some t ∧ 0 < t ∧ t ≤ s.clock

/-- **A rule that fires is out of its cooldown.** -/
theorem AlertRule.apart_of_fires {site : AlertSite} {s : AlertState} {a : AlertRequest}
    {r : AlertRule} {t : ℕ} (hfires : r.Fires site s a) (hlast : r.lastTriggeredAt = some t)
    (hpos : 0 < t) (hle : t ≤ s.clock) : r.Apart site.rt t (s.clock + a.elapsed) := by
  refine ⟨hle.trans (Nat.le_add_right _ _), ?_⟩
  have hcool := (Bool.and_eq_true _ _).mp hfires.2 |>.1
  rw [Bool.not_eq_true'] at hcool
  unfold inCooldown at hcool
  rw [hlast] at hcool
  obtain ⟨n, rfl⟩ := Nat.exists_eq_succ_of_ne_zero hpos.ne'
  exact hcool

theorem AlertRule.since_next {site : AlertSite} {id : ℕ} {r : AlertRule}
    {es : List AlertEvent} {s : AlertState} (h : r.Since site.rt id es s) (a : AlertRequest) :
    r.Since site.rt id (es ++ (alerts site).emits s a) ((alerts site).next s a) := by
  obtain ⟨last, hrow, hlast⟩ := h.row
  obtain ⟨hnext, htimes⟩ := alerts_rule site hrow a
  have hclock : ((alerts site).next s a).clock = s.clock + a.elapsed := rfl
  refine ⟨?_, ?_⟩
  · rw [triggerTimes_append, htimes]
    split
    · next hfires =>
      refine h.apart.append (List.isChain_singleton _) ?_
      intro t ht t' ht'
      obtain rfl : s.clock + a.elapsed = t' := by simpa using ht'
      obtain ⟨rfl, hpos, hle⟩ := hlast t ht
      have happart := AlertRule.apart_of_fires hfires rfl hpos hle
      exact happart
    · rw [List.append_nil]
      exact h.apart
  · rw [triggerTimes_append, htimes, hclock]
    split at hnext
    · next hfires =>
      rw [if_pos hfires]
      refine ⟨some (s.clock + a.elapsed), hnext.trans ?_, ?_⟩
      · rw [List.length_append]
        rfl
      · intro t ht
        rw [List.getLast?_concat] at ht
        obtain rfl : s.clock + a.elapsed = t := by simpa using ht
        exact ⟨rfl, Nat.add_pos_left s.clock_pos _, le_refl _⟩
    · next hfires =>
      rw [if_neg hfires, List.append_nil]
      refine ⟨last, hnext, fun t ht => ?_⟩
      obtain ⟨heq, hpos, hle⟩ := hlast t ht
      exact ⟨heq, hpos, hle.trans (Nat.le_add_right _ _)⟩

/-- A rule that is triggered by a busy agent, once an hour. -/
def sampleRule : AlertRule where
  name := "busy"
  description := none
  enabled := .number (.finite 1)
  entityType := "session"
  conditionField := "status"
  conditionOperator := "count_above"
  conditionValue := "0"
  actionConfig := ""
  cooldownMinutes := .number (.finite 60)
  lastTriggeredAt := none
  triggerCount := 0

/-- The rule, one second after the beginning of time. -/
def sampleAlerts : AlertState := ⟨Table.empty.insert sampleRule, 1, Nat.one_pos⟩

/-- The rules are evaluated every half hour, while an agent is busy. -/
def sampleEvaluations : List AlertRequest :=
  [0, 1800, 1800, 1800].map fun elapsed =>
    ⟨elapsed, some [fun _ => .text "busy"], some [], some []⟩

example : triggerTimes 1 ((alerts ⟨sampleRuntime, sampleSqlite⟩).trace sampleAlerts
    sampleEvaluations) = [1, 3601] := by
  decide +kernel

end MissionControl
