import MissionControl.AgentApi
import MissionControl.Alerts

/-!
# The notifications of alert rules

`POST` and `PUT /api/alerts` write the rules that an evaluation goes through. What it sends
a notification to stands in `action_config`, which a `PUT` stores whatever it is, and a
`POST` as long as it is an object. It is read only once the rule has been triggered – when
the trigger is counted and the cooldown has begun – and what goes wrong then is dropped.

A rule that is triggered is notified of exactly if its configuration is a JSON value other
than `null` and names nobody, or somebody by a text or a number
(`alertApi_notifies_iff`).
-/

namespace MissionControl

/-! ## Writing rules -/

/-- The columns of `alert_rules` that a request can set. -/
inductive AlertColumn where
  | name | description | enabled | entity_type | condition_field | condition_operator
  | condition_value | action_type | action_config | cooldown_minutes
  deriving DecidableEq

namespace AlertColumn

def key : AlertColumn → String
  | name => "name"
  | description => "description"
  | enabled => "enabled"
  | entity_type => "entity_type"
  | condition_field => "condition_field"
  | condition_operator => "condition_operator"
  | condition_value => "condition_value"
  | action_type => "action_type"
  | action_config => "action_config"
  | cooldown_minutes => "cooldown_minutes"

/-- `allowed`. -/
def all : List AlertColumn :=
  [name, description, enabled, entity_type, condition_field, condition_operator,
    condition_value, action_type, action_config, cooldown_minutes]

end AlertColumn

/-- A column that is set to a text. Nothing reads `action_type`. -/
def AlertRule.setText (r : AlertRule) (s : String) : AlertColumn → AlertRule
  | .name => { r with name := s }
  | .description => { r with description := some s }
  | .entity_type => { r with entityType := s }
  | .condition_field => { r with conditionField := s }
  | .condition_operator => { r with conditionOperator := s }
  | .condition_value => { r with conditionValue := s }
  | .action_config => { r with actionConfig := s }
  | .action_type | .enabled | .cooldown_minutes => r

/-- **A column that is set to a value**, unless it has to have one and is given none. -/
def AlertRule.set (sq : Sqlite) (r : AlertRule) (c : AlertColumn) (v : SqlValue) :
    Except Exception AlertRule :=
  match c, v with
  | .description, .null => .ok { r with description := none }
  | c, .null => .error (.error ("NOT NULL constraint failed: alert_rules." ++ c.key))
  | .enabled, v => .ok { r with enabled := v.asInteger sq }
  | .cooldown_minutes, v => .ok { r with cooldownMinutes := v.asInteger sq }
  | c, .text s => .ok (r.setText s c)
  | c, .number n => .ok (r.setText (sq.numberToText n) c)

/-- The columns that a statement sets, one after the other. -/
def AlertRule.assign (sq : Sqlite) (r : AlertRule) (assignments : List (AlertColumn × SqlValue)) :
    Except Exception AlertRule :=
  assignments.foldlM (fun r (c, v) => r.set sq c v) r

/-- **A parsed body** of a `POST` that creates a rule. -/
structure AlertFields where
  name : String
  description : Option String
  entityType : String
  conditionField : String
  conditionOperator : String
  conditionValue : String
  actionType : Option String
  actionConfig : Option (List (String × Json))
  cooldownMinutes : Option JsNumber

def createAlertSchema : Reader AlertFields :=
  .object fun fields =>
    ((((((((Checked.ap (.ok AlertFields.mk)
      (((Reader.string.minLength 1 (some "Name is required")).maxLength 200).field
        "name" fields)).ap
      ((Reader.string.maxLength 1000).fieldOptional "description" fields)).ap
      ((Reader.enum (["agent", "task", "session", "activity"].map fun s => (s, s))).field
        "entity_type" fields)).ap
      (((Reader.string.minLength 1 none).maxLength 100).field "condition_field" fields)).ap
      ((Reader.enum (["equals", "not_equals", "greater_than", "less_than", "contains",
          "count_above", "count_below", "age_minutes_above"].map fun s => (s, s))).field
        "condition_operator" fields)).ap
      (((Reader.string.minLength 1 none).maxLength 500).field "condition_value" fields)).ap
      ((Reader.string.maxLength 100).fieldOptional "action_type" fields)).ap
      (Reader.record.fieldOptional "action_config" fields)).ap
      (((Reader.number.atLeast 1).check (fun | .finite q => q ≤ 10080 | _ => false)
        (.tooBig 10080) none).fieldOptional "cooldown_minutes" fields)

/-- The row of a rule that is created. A description that is empty is none, and a cooldown
is at least a minute. -/
def AlertFields.rule (rt : Runtime) (f : AlertFields) : AlertRule where
  name := f.name
  description := f.description.filter (· ≠ "")
  enabled := .number (.finite 1)
  entityType := f.entityType
  conditionField := f.conditionField
  conditionOperator := f.conditionOperator
  conditionValue := f.conditionValue
  actionConfig := jsonText rt (.obj (f.actionConfig.getD []))
  cooldownMinutes := .number (f.cooldownMinutes.getD (.finite 60))
  lastTriggeredAt := none
  triggerCount := 0

inductive AlertReply where
  | rule (status : ℕ) (rule : Option AlertRule)
  | evaluated (results : List AlertResult)
  | deleted (deleted : Bool)
  | error (status : ℕ) (text : String)
  | invalid (issues : List Issue)
  /-- An error that is not caught: the framework answers with status 500. -/
  | thrown (e : Exception)

section Requests

variable (site : AlertSite) (rules : Table AlertRule)

/-- **`POST`**: the rules are evaluated, or one is created. A body that is no JSON is none. -/
def postAlerts (body : Option Json) (data : MonitoredData) (now : ℕ) :
    Table AlertRule × List AlertEvent × AlertReply :=
  match body with
  | none => (rules, [], .error 400 "Invalid request body")
  | some rawBody =>
    match Json.get (some rawBody) "action" with
    | .error e => (rules, [], .thrown e)
    | .ok action =>
      if Json.equalsText action "evaluate" then
        let (results, rules', events) := evaluateRules site rules data now
        (rules', events, .evaluated results)
      else
        match createAlertSchema.read rawBody with
        | .error issues => (rules, [], .invalid issues)
        | .ok fields =>
          let rules' := rules.insert (fields.rule site.rt)
          (rules', [], .rule 201 (rules'.row rules.next))

/-- The columns that a `PUT` sets. -/
def alertColumns (body : Json) : List AlertColumn :=
  AlertColumn.all.filter fun c => (Json.get? (some body) c.key).isSome

/-- What is bound for a column: the configuration as a text. -/
def alertValue (body : Json) (c : AlertColumn) : Option Json :=
  if c = .action_config then
    (Json.get? (some body) c.key).map fun config => .str (jsonText site.rt config)
  else Json.get? (some body) c.key

/-- `UPDATE alert_rules SET … WHERE id = ?`. -/
def updateAlert (body : Json) (id : Option Json) : Except Exception (Table AlertRule) := do
  let columns := alertColumns body
  let values ← SqlValue.bindAll (columns.length + 1)
    (columns.map (alertValue site body) ++ [id])
  match (values.getLast?.getD .null).rowId site.sq with
  | none => return rules
  | some i =>
    match rules.row i with
    | none => return rules
    | some r =>
      let r' ← r.assign site.sq (columns.zip values)
      return rules.update i fun _ => r'

/-- **`PUT`.** A body that is no JSON throws. -/
def putAlerts (body : Option Json) : Table AlertRule × AlertReply :=
  match body with
  | none => (rules, .thrown (.error "SyntaxError"))
  | some body =>
    match Json.get (some body) "id" with
    | .error e => (rules, .thrown e)
    | .ok id =>
      if !Json.truthy id then (rules, .error 400 "id is required")
      else
        match sqlId site.sq id with
        | .error e => (rules, .thrown e)
        | .ok existing =>
          match existing.bind rules.row with
          | none => (rules, .error 404 "Rule not found")
          | some _ =>
            if alertColumns body = [] then (rules, .error 400 "No valid fields to update")
            else
              match updateAlert site rules body id with
              | .error e => (rules, .thrown e)
              | .ok rules' => (rules', .rule 200 (existing.bind rules'.row))

/-- **`DELETE`.** -/
def deleteAlerts (body : Option Json) : Table AlertRule × AlertReply :=
  match body with
  | none => (rules, .thrown (.error "SyntaxError"))
  | some body =>
    match Json.get (some body) "id" with
    | .error e => (rules, .thrown e)
    | .ok id =>
      if !Json.truthy id then (rules, .error 400 "id is required")
      else
        match sqlId site.sq id with
        | .error e => (rules, .thrown e)
        | .ok existing =>
          (rules.deleteWhere fun i _ => some i = existing,
            .deleted (existing.bind rules.row).isSome)

end Requests

/-- A request, by its method and its body. -/
inductive AlertMethod where
  | post (body : Option Json)
  | put (body : Option Json)
  | delete (body : Option Json)

/-- A request some time after the one before, and the data at that time. -/
structure AlertCall where
  elapsed : ℕ
  data : MonitoredData
  method : AlertMethod

/-- What a request does to the rules, with the notifications and the reply. -/
def AlertMethod.run (site : AlertSite) (rules : Table AlertRule) (data : MonitoredData) (now : ℕ) :
    AlertMethod → Table AlertRule × List AlertEvent × AlertReply
  | post body => postAlerts site rules body data now
  | put body =>
    let (rules', reply) := putAlerts site rules body
    (rules', [], reply)
  | delete body =>
    let (rules', reply) := deleteAlerts site rules body
    (rules', [], reply)

/-- **The requests on `/api/alerts`**, with what the evaluations do. -/
def alertApi (site : AlertSite) : Machine AlertState AlertCall AlertEvent where
  step s a :=
    let (rules, events, _) := a.method.run site s.rules a.data (s.clock + a.elapsed)
    (⟨rules, s.clock + a.elapsed, Nat.add_pos_left s.clock_pos _⟩, events)

/-! ## Whom a rule is to notify -/

def AlertEvent.rule : AlertEvent → ℕ
  | triggered id _ => id
  | notified _ _ _ id => id

def eventsOf (id : ℕ) (es : List AlertEvent) : List AlertEvent :=
  es.filter fun e => e.rule = id

/-- Whom the notifications of a rule go to. -/
def recipientsOf (id : ℕ) (es : List AlertEvent) : List SqlValue :=
  (eventsOf id es).filterMap fun e =>
    match e with
    | .triggered _ _ => none
    | .notified recipient _ _ _ => some recipient

/-- A text or a number, as the column `recipient` has it. -/
def addressText (sq : Sqlite) : Json → Option String
  | .str s => some s
  | .num .nan => none
  | .num n => some (sq.numberToText n)
  | _ => none

/-- A recipient that can be written to: a text or a number, also as the only one of a list. -/
def addressOf (sq : Sqlite) : Json → Option String
  | .arr [x] => addressText sq x
  | x => addressText sq x

/-- **The recipient that a rule is configured with**: the text `system` if there is none. -/
def AlertRule.address (site : AlertSite) (r : AlertRule) : Option String := do
  let config ← site.rt.parseJson (orElse r.actionConfig "\x7b\x7d")
  match Json.get? (some config) "recipient" with
  | some recipient =>
    if Json.truthy (some recipient) then addressOf site.sq recipient else some "system"
  | none => some "system"

/-- **The configuration can be used**: it is a JSON value other than `null`, and its
recipient can be written to. -/
def AlertRule.Addressable (site : AlertSite) (r : AlertRule) : Prop :=
  site.rt.parseJson (orElse r.actionConfig "\x7b\x7d") ≠ some .null
    ∧ (r.address site).isSome = true

def AlertCall.Evaluates (a : AlertCall) : Prop :=
  ∃ body, a.method = .post (some body) ∧ ∃ action, Json.get (some body) "action" = .ok action
    ∧ Json.equalsText action "evaluate" = true

def AlertCall.Triggers (site : AlertSite) (s : AlertState) (a : AlertCall) (r : AlertRule) :
    Prop :=
  a.Evaluates ∧ r.enabled = .number (.finite 1)
    ∧ r.triggers site a.data (s.clock + a.elapsed) = true

/-- **Every rule that a request triggers is notified of once**, to the recipient that it is
configured with. -/
def Notifies (site : AlertSite) (s : AlertState) (a : AlertCall) : Prop :=
  ∀ id r, s.rules.row id = some r → a.Triggers site s r →
    ∃ recipient, r.address site = some recipient
      ∧ recipientsOf id ((alertApi site).emits s a) = [.text recipient]

/-- **The configuration of every rule that a request triggers can be used.** -/
def TriggersAddressable (site : AlertSite) (s : AlertState) (a : AlertCall) : Prop :=
  ∀ id r, s.rules.row id = some r → a.Triggers site s r → r.Addressable site

/-! ## The notification of a rule -/

/-- A value is bound as one other than `NULL` if it is a text or a number. -/
theorem bindValue_address {sq : Sqlite} {x : Json} {t : String} :
    (∃ v, SqlValue.bindValue (some x) = .ok v ∧ v ≠ .null ∧ v.asText sq = .text t)
      ↔ addressText sq x = some t := by
  have hkept : ∀ {v : SqlValue} {s : String}, SqlValue.bindValue (some x) = .ok v → v ≠ .null →
      v.asText sq = .text s → addressText sq x = some s →
      ((∃ v, SqlValue.bindValue (some x) = .ok v ∧ v ≠ .null ∧ v.asText sq = .text t)
        ↔ addressText sq x = some t) := by
    intro v s hv hne hs haddress
    rw [haddress, Option.some.injEq]
    constructor
    · rintro ⟨w, hw, -, ht⟩
      obtain rfl := Except.ok.inj (hv.symm.trans hw)
      exact SqlValue.text.inj (hs.symm.trans ht)
    · rintro rfl
      exact ⟨v, hv, hne, hs⟩
  cases x with
  | null =>
    refine iff_of_false ?_ (by simp [addressText])
    rintro ⟨v, hv, hne, -⟩
    exact hne (Except.ok.inj hv).symm
  | bool b | arr elements | obj fields =>
    refine iff_of_false ?_ (by simp [addressText])
    rintro ⟨v, hv, -⟩
    cases hv
  | str s => exact hkept (v := .text s) (s := s) rfl (by simp) rfl rfl
  | num n =>
    cases n with
    | nan =>
      refine iff_of_false ?_ (by simp [addressText])
      rintro ⟨v, hv, hne, -⟩
      exact hne (Except.ok.inj hv).symm
    | infinity negative =>
      exact hkept (v := .number (.infinity negative))
        (s := sq.numberToText (.infinity negative)) rfl (by simp) rfl rfl
    | finite q =>
      exact hkept (v := .number (.finite q)) (s := sq.numberToText (.finite q)) rfl (by simp)
        rfl rfl

/-- **A recipient is bound** as one value other than `NULL` if it can be written to. -/
theorem bindParameter_address (sq : Sqlite) {j : Json} {t : String} :
    (∃ v, SqlValue.bindParameter (some j) = .ok [v] ∧ v ≠ .null ∧ v.asText sq = .text t)
      ↔ addressOf sq j = some t := by
  have halone : SqlValue.bindParameter (some j)
      = (SqlValue.bindValue (some j)).map (fun v => [v]) → addressOf sq j = addressText sq j →
      ((∃ v, SqlValue.bindParameter (some j) = .ok [v] ∧ v ≠ .null ∧ v.asText sq = .text t)
        ↔ addressOf sq j = some t) := by
    intro hbind haddress
    rw [hbind, haddress, ← bindValue_address]
    refine exists_congr fun v => and_congr_left fun _ => ?_
    cases SqlValue.bindValue (some j) with
    | error e => exact iff_of_false (by simp [Except.map]) (by simp)
    | ok w => simp [Except.map]
  cases j with
  | null | bool b | num n | str s => exact halone rfl rfl
  | obj fields =>
    refine iff_of_false ?_ (by simp [addressOf, addressText])
    rintro ⟨v, hv, -⟩
    cases hv
  | arr elements =>
    cases elements with
    | nil =>
      refine iff_of_false ?_ (by simp [addressOf, addressText])
      rintro ⟨v, hv, -⟩
      cases hv
    | cons x xs =>
      cases xs with
      | nil =>
        rw [show addressOf sq (.arr [x]) = addressText sq x from rfl, ← bindValue_address]
        refine exists_congr fun v => and_congr_left fun _ => ?_
        show [x].mapM (fun x => SqlValue.bindValue (some x)) = _ ↔ _
        rw [List.mapM_cons]
        cases SqlValue.bindValue (some x) with
        | error e => exact iff_of_false (by simp [bind, Except.bind]) (by simp)
        | ok w => simp [bind, Except.bind, pure, Except.pure]
      | cons y rest =>
        -- a list of more than one brings too many values
        refine iff_of_false ?_ (by simp [addressOf, addressText])
        rintro ⟨v, hv, -⟩
        have hv : (x :: y :: rest).mapM (fun x => SqlValue.bindValue (some x)) = .ok [v] := hv
        rw [List.mapM_cons] at hv
        obtain ⟨a, -, hv⟩ := bind_eq_ok.mp hv
        obtain ⟨as, has, hv⟩ := bind_eq_ok.mp hv
        obtain ⟨-, rfl⟩ := List.cons.inj (Except.ok.inj hv)
        rw [List.mapM_cons] at has
        obtain ⟨b, -, has⟩ := bind_eq_ok.mp has
        obtain ⟨bs, -, has⟩ := bind_eq_ok.mp has
        cases has

theorem get_of_ne_null {config : Json} (h : config ≠ .null) (key : String) :
    Json.get (some config) key = .ok (Json.get? (some config) key) := by
  cases config with
  | null => exact absurd rfl h
  | bool b | num n | str s | arr elements | obj fields => rfl

theorem address_of_config {site : AlertSite} {r : AlertRule} {config : Json}
    (h : site.rt.parseJson (orElse r.actionConfig "\x7b\x7d") = some config) :
    r.address site
      = addressOf site.sq (Json.or (Json.get? (some config) "recipient") (.str "system")) := by
  unfold AlertRule.address
  rw [h, Option.bind_eq_bind, Option.bind_some]
  cases Json.get? (some config) "recipient" with
  | none => rfl
  | some recipient =>
    unfold Json.or
    dsimp only
    split <;> rfl

/-- **The notification of a rule**: there is one exactly if its configuration can be used. -/
theorem notification_eq_ok {site : AlertSite} {id : ℕ} {r : AlertRule} {e : AlertEvent} :
    r.notification site id = .ok e
      ↔ r.Addressable site ∧ ∃ t, r.address site = some t
        ∧ e = .notified (.text t) ("Alert: " ++ r.name)
          (orElse (r.description.getD "") ("Rule \"" ++ r.name ++ "\" triggered")) id := by
  unfold AlertRule.notification AlertRule.Addressable
  cases hparse : site.rt.parseJson (orElse r.actionConfig "\x7b\x7d") with
  | none =>
    have hnone : r.address site = none := by
      unfold AlertRule.address
      rw [hparse]
      rfl
    rw [hnone]
    exact iff_of_false (fun h => by cases h) fun h => absurd h.1.2 Bool.false_ne_true
  | some config =>
    by_cases hnull : config = .null
    · subst hnull
      exact iff_of_false (fun h => by cases h) fun h => h.1.1 rfl
    · show (Json.get (some config) "recipient" >>= _) = _ ↔ _
      rw [get_of_ne_null hnull, ok_bind, address_of_config hparse]
      generalize Json.or (Json.get? (some config) "recipient") (.str "system") = recipient
      generalize "Alert: " ++ r.name = title
      generalize orElse (r.description.getD "") ("Rule \"" ++ r.name ++ "\" triggered") = message
      have hbind : ∀ values, SqlValue.bindAll 4 [some recipient, some (.str title),
            some (.str message), some (.num (.finite id))] = .ok values
          ↔ ∃ v, SqlValue.bindParameter (some recipient) = .ok [v]
            ∧ values = [v, .text title, .text message, .number (.finite id)] := fun values =>
        bindAll_between [] [some (.str title), some (.str message), some (.num (.finite id))] []
          [.text title, .text message, .number (.finite id)] rfl rfl
      constructor
      · intro h
        obtain ⟨values, hvalues, h⟩ := bind_eq_ok.mp h
        obtain ⟨v, hv, rfl⟩ := (hbind values).mp hvalues
        cases v with
        | null => cases h
        | text s =>
          have haddress := (bindParameter_address site.sq).mp ⟨.text s, hv, by simp, rfl⟩
          exact ⟨⟨fun heq => hnull (Option.some.inj heq), haddress ▸ rfl⟩, s, haddress,
            (Except.ok.inj h).symm⟩
        | number n =>
          have haddress := (bindParameter_address site.sq).mp ⟨.number n, hv, by simp, rfl⟩
          exact ⟨⟨fun heq => hnull (Option.some.inj heq), haddress ▸ rfl⟩,
            site.sq.numberToText n, haddress, (Except.ok.inj h).symm⟩
      · rintro ⟨-, t, haddress, rfl⟩
        obtain ⟨v, hv, hne, ht⟩ := (bindParameter_address site.sq).mpr haddress
        have hvalues := (hbind _).mpr ⟨v, hv, rfl⟩
        show (SqlValue.bindAll 4 _ >>= _) = _
        rw [hvalues, ok_bind]
        cases v with
        | null => exact absurd rfl hne
        | text s => rw [← ht]
        | number n => rw [← ht]

/-! ## A pass -/

theorem eventsOf_append (id : ℕ) (es es' : List AlertEvent) :
    eventsOf id (es ++ es') = eventsOf id es ++ eventsOf id es' := List.filter_append es es'

theorem rule_of_notification {site : AlertSite} {id : ℕ} {r : AlertRule} {e : AlertEvent}
    (he : e ∈ (r.notification site id).toOption.toList) : e.rule = id := by
  cases h : r.notification site id with
  | error err =>
    rw [h] at he
    cases he
  | ok e' =>
    rw [h] at he
    obtain rfl := List.mem_singleton.mp he
    obtain ⟨-, t, -, rfl⟩ := notification_eq_ok.mp h
    rfl

section Pass

variable (site : AlertSite) (data : MonitoredData) (now : ℕ) {id : ℕ} {r : AlertRule}

theorem eventsOf_evaluatePass_cons (id' : ℕ) (r' : AlertRule) (rows : List (ℕ × AlertRule))
    (rules : Table AlertRule) :
    ∃ rules', eventsOf id (evaluatePass site data now ((id', r') :: rows) rules).2
      = (if id' = id ∧ r'.triggers site data now = true then
          .triggered id now :: (r'.notification site id').toOption.toList else [])
        ++ eventsOf id (evaluatePass site data now rows rules').2 := by
  rw [evaluatePass]
  by_cases htriggers : r'.triggers site data now = true
  · refine ⟨rules.update id' fun row => row.trigger now, ?_⟩
    rw [if_pos htriggers]
    show eventsOf id ((.triggered id' now :: (r'.notification site id').toOption.toList) ++ _) = _
    rw [eventsOf_append]
    refine congrArg (fun es : List AlertEvent => es ++ _) ?_
    have hall : ∀ e ∈ AlertEvent.triggered id' now :: (r'.notification site id').toOption.toList,
        e.rule = id' := by
      intro e he
      rcases List.mem_cons.mp he with rfl | he
      · rfl
      · exact rule_of_notification he
    by_cases hid : id' = id
    · subst hid
      rw [if_pos ⟨rfl, htriggers⟩]
      exact List.filter_eq_self.mpr fun e he => decide_eq_true (hall e he)
    · rw [if_neg fun h => hid h.1]
      refine List.filter_eq_nil_iff.mpr fun e he => ?_
      rw [hall e he]
      simpa using hid
  · refine ⟨rules, ?_⟩
    rw [if_neg htriggers, if_neg fun h => htriggers h.2, List.nil_append]

/-- **A rule that a pass does not go through** is not triggered. -/
theorem eventsOf_evaluatePass_of_notMem {rows : List (ℕ × AlertRule)}
    (h : id ∉ rows.map Prod.fst) (rules : Table AlertRule) :
    eventsOf id (evaluatePass site data now rows rules).2 = [] := by
  induction rows generalizing rules with
  | nil => rfl
  | cons x rows ih =>
    obtain ⟨id', r'⟩ := x
    rw [List.map_cons, List.mem_cons, not_or] at h
    obtain ⟨rules', heq⟩ := eventsOf_evaluatePass_cons site data now id' r' rows rules
    rw [heq, ih h.2, if_neg fun hid => h.1 hid.1.symm]
    rfl

/-- **A rule that a pass goes through** is triggered and notified of, or nothing happens. -/
theorem eventsOf_evaluatePass_of_mem {rows : List (ℕ × AlertRule)}
    (hrows : (rows.map Prod.fst).Nodup) (h : (id, r) ∈ rows) (rules : Table AlertRule) :
    eventsOf id (evaluatePass site data now rows rules).2
      = if r.triggers site data now = true then
          .triggered id now :: (r.notification site id).toOption.toList
        else [] := by
  induction rows generalizing rules with
  | nil => exact absurd h List.not_mem_nil
  | cons x rows ih =>
    obtain ⟨id', r'⟩ := x
    rw [List.map_cons, List.nodup_cons] at hrows
    obtain ⟨rules', heq⟩ := eventsOf_evaluatePass_cons site data now id' r' rows rules
    rw [heq]
    obtain hfirst | hmem := List.mem_cons.mp h
    · -- the others are other rules
      obtain ⟨rfl, rfl⟩ := Prod.mk.inj hfirst
      rw [eventsOf_evaluatePass_of_notMem site data now hrows.1, List.append_nil]
      simp only [true_and]
    · have hne : id' ≠ id := fun hid =>
        hrows.1 (List.mem_map.mpr ⟨(id, r), hmem, hid.symm⟩)
      rw [if_neg fun hid => hne hid.1, List.nil_append]
      exact ih hrows.2 hmem rules'

end Pass

/-! ## Requests -/

section Calls

variable {site : AlertSite} {s : AlertState} {a : AlertCall} {id : ℕ} {r : AlertRule}

theorem emits_of_evaluates (h : a.Evaluates) :
    (alertApi site).emits s a
      = (evaluatePass site a.data (s.clock + a.elapsed) (enabledRules s.rules) s.rules).2 := by
  obtain ⟨body, hmethod, action, haction, hevaluate⟩ := h
  show (a.method.run site s.rules a.data (s.clock + a.elapsed)).2.1 = _
  rw [hmethod]
  show (postAlerts site s.rules (some body) a.data (s.clock + a.elapsed)).2.1 = _
  unfold postAlerts
  dsimp only
  rw [haction]
  dsimp only
  rw [if_pos hevaluate]
  rfl

/-- **What a request does to a rule that it triggers.** -/
theorem recipientsOf_emits (hr : s.rules.row id = some r) (h : a.Triggers site s r) :
    recipientsOf id ((alertApi site).emits s a)
      = (r.notification site id).toOption.toList.filterMap fun e =>
          match e with
          | .triggered _ _ => none
          | .notified recipient _ _ _ => some recipient := by
  obtain ⟨hevaluates, henabled, htriggers⟩ := h
  have hrows : ((enabledRules s.rules).map Prod.fst).Nodup :=
    s.rules.nodup_rows.sublist (List.filter_sublist.map _)
  have hmem : (id, r) ∈ enabledRules s.rules :=
    List.mem_filter.mpr ⟨s.rules.mem_rows.mpr hr, decide_eq_true henabled⟩
  unfold recipientsOf
  rw [emits_of_evaluates hevaluates, eventsOf_evaluatePass_of_mem site a.data _ hrows hmem,
    if_pos htriggers]
  rfl

/-- **A rule that is triggered is notified of once** exactly if its configuration can be
used. -/
theorem notified_iff_addressable (hr : s.rules.row id = some r) (h : a.Triggers site s r) :
    (∃ recipient, r.address site = some recipient
        ∧ recipientsOf id ((alertApi site).emits s a) = [.text recipient])
      ↔ r.Addressable site := by
  rw [recipientsOf_emits hr h]
  constructor
  · rintro ⟨recipient, -, hone⟩
    cases hnotification : r.notification site id with
    | error e =>
      rw [hnotification] at hone
      cases hone
    | ok e => exact (notification_eq_ok.mp hnotification).1
  · intro haddressable
    obtain ⟨t, ht⟩ := Option.isSome_iff_exists.mp haddressable.2
    rw [notification_eq_ok.mpr ⟨haddressable, t, ht, rfl⟩]
    exact ⟨t, ht, rfl⟩

end Calls

/-- **Every trigger notifies, all along a run**, exactly if the configuration of every rule
that is triggered can be used. -/
theorem alertApi_notifies_iff (site : AlertSite) (s : AlertState) (as : List AlertCall) :
    (alertApi site).EachStep (Notifies site) s as
      ↔ (alertApi site).EachStep (TriggersAddressable site) s as := by
  refine forall_congr' fun p => forall_congr' fun a => imp_congr_right fun _ => ?_
  refine forall_congr' fun id => forall_congr' fun r => ?_
  exact forall_congr' fun hr => forall_congr' fun h => notified_iff_addressable hr h

/-- A site that reads JSON. -/
def sampleAlertSite : AlertSite where
  rt := { sampleRuntime with parseJson := fun s => Json.parse sampleRuntime s.toList }
  sq := sampleSqlite

/-- An agent is busy. -/
def sampleBusyData : MonitoredData := ⟨some [fun _ => .text "busy"], some [], some []⟩

/-- A rule is created that a busy agent triggers, and its configuration is set to `null`. -/
def sampleNullConfig : List AlertCall :=
  [⟨0, sampleBusyData, .post (some (.obj [("name", .str "busy"), ("entity_type", .str "session"),
      ("condition_field", .str "status"), ("condition_operator", .str "count_above"),
      ("condition_value", .str "0")]))⟩,
    ⟨0, sampleBusyData,
      .put (some (.obj [("id", .num (.finite 1)), ("action_config", .null)]))⟩]

/-- The rules are evaluated. -/
def sampleEvaluateCall : AlertCall :=
  ⟨0, sampleBusyData, .post (some (.obj [("action", .str "evaluate")]))⟩

/-- **The rule is triggered, and nobody is notified.** -/
theorem not_notifies_sampleNullConfig :
    ¬ (alertApi sampleAlertSite).EachStep (Notifies sampleAlertSite)
      ⟨.empty, 1, Nat.one_pos⟩ (sampleNullConfig ++ [sampleEvaluateCall]) := by
  intro h
  have hlast := h sampleNullConfig sampleEvaluateCall (List.prefix_refl _)
  have htriggered : (((alertApi sampleAlertSite).state ⟨.empty, 1, Nat.one_pos⟩
      sampleNullConfig).rules.row 1).any (fun r => r.enabled = .number (.finite 1)
        && r.triggers sampleAlertSite sampleBusyData 1) = true := by decide +kernel
  obtain ⟨r, hr, hfires⟩ := (Option.any_eq_true _ _).mp htriggered
  obtain ⟨henabled, htriggers⟩ := (Bool.and_eq_true _ _).mp hfires
  obtain ⟨recipient, -, hone⟩ := hlast 1 r hr
    ⟨⟨_, rfl, _, rfl, by decide⟩, of_decide_eq_true henabled, htriggers⟩
  have hnone : recipientsOf 1 ((alertApi sampleAlertSite).emits
      ((alertApi sampleAlertSite).state ⟨.empty, 1, Nat.one_pos⟩ sampleNullConfig)
        sampleEvaluateCall) = [] := by decide +kernel
  rw [hnone] at hone
  cases hone

end MissionControl
