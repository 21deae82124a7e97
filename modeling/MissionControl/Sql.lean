import MissionControl.Js

/-!
# Values of SQL columns

What the database driver makes of JavaScript values: how the parameters of a
statement are bound, and what a column keeps of a bound value. An array among
the parameters stands for its elements, so that a request whose body holds one
can move the other parameters; and a column compares and stores numbers and
texts by its type affinity, so that the id `"1"` names the row `1`.
-/

namespace MissionControl

inductive SqlValue where
  | null
  | text (s : String)
  | number (n : JsNumber)
  deriving DecidableEq

namespace SqlValue

def ofText : Option String → SqlValue
  | some s => text s
  | none => null

def ofNumber : Option JsNumber → SqlValue
  | some n => number n
  | none => null

def ofTime (n : ℕ) : SqlValue := number (.finite n)

/-- The value as it is read from a row. -/
def json : SqlValue → Json
  | null => .null
  | text s => .str s
  | number n => .num n

end SqlValue

/-! ## Binding -/

/-- **The parts of SQLite left open**: how texts and numbers are converted
into each other. -/
structure Sqlite where
  /-- The number that a text is a literal of, if it is one. -/
  textToNumber : String → Option JsNumber
  numberToText : JsNumber → String

namespace SqlValue

/-- A value that is bound as one parameter. -/
def bindValue : Option Json → Except Exception SqlValue
  | none => .ok null
  | some .null => .ok null
  | some (.num .nan) => .ok null
  | some (.num n) => .ok (number n)
  | some (.str s) => .ok (text s)
  | some _ => .error .typeError

/-- A parameter: an array is bound element by element, an object brings
named parameters, of which no statement has any. -/
def bindParameter : Option Json → Except Exception (List SqlValue)
  | some (.arr elements) => elements.mapM (fun x => bindValue (some x))
  | some (.obj _) => .ok []
  | x => (bindValue x).map (fun v => [v])

def isNamed : Option Json → Bool
  | some (.obj _) => true
  | _ => false

/-- **The parameters of a statement** with `n` question marks. Two objects
among them are refused, and any other number of values. -/
def bindAll (n : ℕ) (params : List (Option Json)) :
    Except Exception (List SqlValue) := do
  let values ← params.mapM bindParameter
  if params.countP isNamed ≤ 1 ∧ values.flatten.length = n then
    .ok values.flatten
  else .error .typeError

/-- A value as a column of affinity `TEXT` keeps it. -/
def asText (sq : Sqlite) : SqlValue → SqlValue
  | number n => text (sq.numberToText n)
  | v => v

/-- A value as a column of affinity `INTEGER` keeps it. -/
def asInteger (sq : Sqlite) : SqlValue → SqlValue
  | text s => ((sq.textToNumber s).map number).getD (text s)
  | v => v

/-- The row that `WHERE id = ?` finds. -/
def rowId (sq : Sqlite) (v : SqlValue) : Option ℕ :=
  match v.asInteger sq with
  | number n => n.integer.bind (fun z => if 0 ≤ z then some z.toNat else none)
  | _ => none

end SqlValue

/-! ## Parameters that are bound one by one -/

theorem mapM_bindParameter {params : List (Option Json)} {vs : List SqlValue}
    (h : params.map SqlValue.bindParameter = vs.map fun v => .ok [v]) :
    params.mapM SqlValue.bindParameter = .ok (vs.map fun v => [v]) := by
  induction params generalizing vs with
  | nil =>
    rw [List.map_eq_nil_iff.mp h.symm]
    rfl
  | cons x params ih =>
    cases vs with
    | nil => cases h
    | cons v vs =>
      obtain ⟨hx, hparams⟩ := List.cons.inj h
      rw [List.mapM_cons, hx, ok_bind, ih hparams]
      rfl

theorem flatten_singletons (vs : List SqlValue) : (vs.map fun v => [v]).flatten = vs := by
  induction vs with
  | nil => rfl
  | cons v vs ih => rw [List.map_cons, List.flatten_cons, ih, List.singleton_append]

/-- **Values that are bound one by one behind others** are the last ones. -/
theorem bindAll_append {n : ℕ} {before after : List (Option Json)} {values vs : List SqlValue}
    (hafter : after.map SqlValue.bindParameter = vs.map fun v => .ok [v])
    (h : SqlValue.bindAll n (before ++ after) = .ok values) :
    ∃ first, values = first ++ vs ∧ first.length + vs.length = n := by
  unfold SqlValue.bindAll at h
  rw [List.mapM_append, mapM_bindParameter hafter] at h
  obtain ⟨bound, hbound, h⟩ := bind_eq_ok.mp h
  obtain ⟨first, -, hall⟩ := bind_eq_ok.mp hbound
  obtain rfl := Except.ok.inj hall
  split at h
  · next hcond =>
    obtain rfl := Except.ok.inj h
    have hflatten : (first ++ vs.map fun v => [v]).flatten = first.flatten ++ vs := by
      rw [List.flatten_append, flatten_singletons]
    have hlength := hcond.2
    rw [hflatten, List.length_append] at hlength
    exact ⟨first.flatten, hflatten, hlength⟩
  · cases h

theorem countP_isNamed {params : List (Option Json)} {vs : List SqlValue}
    (h : params.map SqlValue.bindParameter = vs.map fun v => .ok [v]) :
    params.countP SqlValue.isNamed = 0 := by
  rw [List.countP_eq_zero]
  intro x hx hnamed
  have hmem := List.mem_map_of_mem (f := SqlValue.bindParameter) hx
  rw [h] at hmem
  obtain ⟨v, -, hv⟩ := List.mem_map.mp hmem
  match x with
  | some (.obj fields) => cases hv
  | none | some .null | some (.bool _) | some (.num _) | some (.str _) | some (.arr _) =>
    cases hnamed

/-- **A value among others that are each bound as one** has to be bound as one too. -/
theorem bindAll_between (before after : List (Option Json)) (vs ws : List SqlValue)
    (hbefore : before.map SqlValue.bindParameter = vs.map fun v => .ok [v])
    (hafter : after.map SqlValue.bindParameter = ws.map fun v => .ok [v]) {x : Option Json}
    {values : List SqlValue} :
    SqlValue.bindAll (before.length + 1 + after.length) (before ++ x :: after) = .ok values
      ↔ ∃ v, SqlValue.bindParameter x = .ok [v] ∧ values = vs ++ v :: ws := by
  have hlength : before.length = vs.length ∧ after.length = ws.length := by
    constructor
    · simpa using congrArg List.length hbefore
    · simpa using congrArg List.length hafter
  have hnamed : (before ++ x :: after).countP SqlValue.isNamed ≤ 1 := by
    rw [List.countP_append, List.countP_cons, countP_isNamed hbefore, countP_isNamed hafter]
    split <;> omega
  unfold SqlValue.bindAll
  rw [List.mapM_append, mapM_bindParameter hbefore, ok_bind, List.mapM_cons]
  cases hx : SqlValue.bindParameter x with
  | error e => exact ⟨fun h => (by cases h), fun ⟨v, hv, _⟩ => (by cases hv)⟩
  | ok us =>
    rw [ok_bind, mapM_bindParameter hafter, ok_bind]
    show (if _ ∧ (vs.map (fun v => [v]) ++ us :: ws.map fun v => [v]).flatten.length = _ then
      Except.ok (vs.map (fun v => [v]) ++ us :: ws.map fun v => [v]).flatten
        else .error Exception.typeError) = _ ↔ _
    rw [List.flatten_append, List.flatten_cons, flatten_singletons, flatten_singletons,
      List.length_append, List.length_append, hlength.1, hlength.2]
    by_cases hone : us.length = 1
    · obtain ⟨v, rfl⟩ := List.length_eq_one_iff.mp hone
      rw [if_pos ⟨hnamed, by rw [hone]; omega⟩]
      constructor
      · intro h
        exact ⟨v, rfl, (Except.ok.inj h).symm⟩
      · rintro ⟨w, hw, rfl⟩
        rw [Except.ok.inj hw]
        rfl
    · rw [if_neg fun h => hone (by omega)]
      refine ⟨fun h => (by cases h), ?_⟩
      rintro ⟨v, hv, -⟩
      rw [Except.ok.inj hv] at hone
      exact absurd rfl hone

theorem bindAll_one {x : Option Json} {values : List SqlValue} :
    SqlValue.bindAll 1 [x] = .ok values
      ↔ ∃ v, SqlValue.bindParameter x = .ok [v] ∧ values = [v] :=
  bindAll_between [] [] [] [] rfl rfl

/-- **`.get(id)`** on `WHERE id = ?`: the id of the row that is found, as long
as the row is there. -/
def sqlId (sq : Sqlite) (id : Option Json) : Except Exception (Option ℕ) := do
  match ← SqlValue.bindAll 1 [id] with
  | [v] => .ok (v.rowId sq)
  | _ => .ok none

/-- `lower(s)` of SQLite: ASCII letters only. -/
def sqlLower (s : String) : String := String.ofList (s.toList.map Char.toLower)

/-- SQLite for concrete runs: decimal digits are the only literals. -/
def sampleSqlite : Sqlite where
  textToNumber s :=
    if s.toList.all Char.isDigit ∧ s ≠ "" then
      (readDigits 10 s.toList).map (fun n => .finite n)
    else none
  numberToText
    | .finite q => toString q.num ++ ".0"
    | _ => "Inf"

end MissionControl
