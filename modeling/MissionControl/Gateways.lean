import MissionControl.Sql
import MissionControl.Library.Machine
import MissionControl.Library.Table

/-!
# The primary gateway

`POST` and `PUT /api/gateways` make a gateway the primary one in two statements, which
are in no transaction: one takes the mark from all gateways, the next one inserts or
updates the gateway. Where the second statement fails – for a name that is taken, or a
value that cannot be bound – no gateway is primary any more
(`not_gateways_kept_sampleName`). And `PUT` stores whatever value it is given as
`is_primary`: it can take the mark from the primary gateway, or give none.

`gateways_kept_iff` says exactly which requests keep one primary gateway, and fail
without a trace.

The second statement is decided in a table that has no mark any more (`markedGateways`), so
the condition speaks of that table. It can end in three ways – it is refused, meets no row,
or writes one – and each has a lemma which says when the mark is kept then.
-/

namespace MissionControl

/-! ## Gateways -/

/-- The columns of `gateways` that a request can set. -/
inductive GatewayColumn where
  | name | host | port | token | is_primary | status | last_seen | latency
  | sessions_count | agents_count
  deriving DecidableEq

namespace GatewayColumn

def key : GatewayColumn → String
  | name => "name"
  | host => "host"
  | port => "port"
  | token => "token"
  | is_primary => "is_primary"
  | status => "status"
  | last_seen => "last_seen"
  | latency => "latency"
  | sessions_count => "sessions_count"
  | agents_count => "agents_count"

/-- `allowed`. -/
def all : List GatewayColumn :=
  [name, host, port, token, is_primary, status, last_seen, latency, sessions_count,
    agents_count]

/-- Whether a column is of type `TEXT`; the others are of type `INTEGER`. -/
def isText : GatewayColumn → Bool
  | name | host | token | status => true
  | _ => false

def nullable : GatewayColumn → Bool
  | last_seen | latency => true
  | _ => false

def keep (sq : Sqlite) (c : GatewayColumn) (v : SqlValue) : SqlValue :=
  if c.isText then v.asText sq else v.asInteger sq

/-- The value of a column that is not set. -/
def default : GatewayColumn → SqlValue
  | name => .null
  | host => .text "127.0.0.1"
  | port => .number (.finite 18789)
  | token => .text ""
  | is_primary => .number (.finite 0)
  | status => .text "unknown"
  | last_seen | latency => .null
  | sessions_count | agents_count => .number (.finite 0)

end GatewayColumn

/-- A row of `gateways`. -/
@[ext] structure GatewayRow where
  column : GatewayColumn → SqlValue
  createdAt : ℕ
  updatedAt : ℕ

/-- **The gateway is primary**: `is_primary` is a value that counts as true. -/
def GatewayRow.isPrimary (r : GatewayRow) : Bool := Json.truthy (some (r.column .is_primary).json)

/-- `redactToken`: the token is only said to be set. -/
def GatewayRow.redactToken (r : GatewayRow) : GatewayRow × Bool :=
  let set := Json.truthy (some (r.column .token).json)
  ({ r with
      column := Function.update r.column .token (.text (if set then "--------" else "")) },
    set)

def GatewayRow.assign (sq : Sqlite) (r : GatewayRow)
    (assignments : List (GatewayColumn × SqlValue)) : GatewayRow :=
  { r with
    column := assignments.foldl
      (fun column (c, v) => Function.update column c (c.keep sq v)) r.column }

theorem GatewayRow.assign_concat_self (sq : Sqlite) (r : GatewayRow)
    (assignments : List (GatewayColumn × SqlValue)) (c : GatewayColumn) (v : SqlValue) :
    (r.assign sq (assignments ++ [(c, v)])).column c = c.keep sq v := by
  rw [assign, List.foldl_append]
  show Function.update (r.assign sq assignments).column c (c.keep sq v) c = _
  rw [Function.update_self]

abbrev Gateways := Table GatewayRow

/-- **What is around the requests**: the database, and the gateway of the environment. -/
structure GatewaySite where
  sq : Sqlite
  name : String
  host : String
  /-- `parseInt` of the port. -/
  port : JsNumber
  token : String

/-! ## Statements -/

/-- The constraints on a row, which is stored under the id if there is one. -/
def checkGateway (gateways : Gateways) (id : Option ℕ) (r : GatewayRow) :
    Except Exception Unit :=
  match GatewayColumn.all.find? fun c => !c.nullable && decide (r.column c = .null) with
  | some c => .error (.error ("NOT NULL constraint failed: gateways." ++ c.key))
  | none =>
    if gateways.rows.any fun (id', r') =>
        decide (some id' ≠ id) && decide (r'.column .name = r.column .name) then
      .error (.error "UNIQUE constraint failed: gateways.name")
    else .ok ()

/-- `is_primary = 0`. -/
def GatewayRow.demoted (r : GatewayRow) : GatewayRow :=
  { r with column := Function.update r.column .is_primary (.number (.finite 0)) }

@[simp] theorem GatewayRow.demoted_is_primary (r : GatewayRow) :
    r.demoted.column .is_primary = .number (.finite 0) :=
  Function.update_self GatewayColumn.is_primary _ r.column

theorem GatewayRow.demoted_eq_self {r : GatewayRow}
    (h : r.column .is_primary = .number (.finite 0)) : r.demoted = r := by
  rw [demoted, ← h, Function.update_eq_self]

/-- `UPDATE gateways SET is_primary = 0`. -/
def demoteAll (gateways : Gateways) : Gateways :=
  gateways.updateAll fun _ => GatewayRow.demoted

/-- The row that an `INSERT` makes of its parameters. -/
def newGateway (site : GatewaySite) (params : List (Option Json)) (now : ℕ) :
    Except Exception GatewayRow := do
  let values ← SqlValue.bindAll 5 params
  .ok (GatewayRow.assign site.sq ⟨GatewayColumn.default, now, now⟩
    (([.name, .host, .port, .token, .is_primary] : List GatewayColumn).zip values))

/-- `INSERT INTO gateways (name, host, port, token, is_primary)`. -/
def insertGateway (site : GatewaySite) (gateways : Gateways) (params : List (Option Json))
    (now : ℕ) : Except Exception Gateways := do
  let r ← newGateway site params now
  checkGateway gateways none r
  .ok (gateways.insert r)

/-- What an `UPDATE … WHERE id = ?` sets, and the row it names. -/
def gatewayAssignments (site : GatewaySite) (body : Json) (sets : List GatewayColumn)
    (id : Option Json) : Except Exception (List (GatewayColumn × SqlValue) × Option ℕ) := do
  let values ← SqlValue.bindAll (sets.length + 1)
    (sets.map (fun c => Json.get? (some body) c.key) ++ [id])
  .ok (sets.zip values, (values.getLast?.getD .null).rowId site.sq)

/-- The row that `WHERE id = ?` finds. -/
def targetRow (gateways : Gateways) (target : Option ℕ) : Option (ℕ × GatewayRow) :=
  target.bind fun i => (gateways.row i).map fun r => (i, r)

/-- `UPDATE gateways SET … WHERE id = ?`. -/
def updateGateway (site : GatewaySite) (gateways : Gateways) (body : Json)
    (sets : List GatewayColumn) (id : Option Json) (now : ℕ) : Except Exception Gateways :=
  match gatewayAssignments site body sets id with
  | .error e => .error e
  | .ok (assignments, target) =>
    match targetRow gateways target with
    | none => .ok gateways
    | some (i, r) =>
      let r' := { r.assign site.sq assignments with updatedAt := now }
      match checkGateway gateways (some i) r' with
      | .error e => .error e
      | .ok _ => .ok (gateways.update i fun _ => r')

/-! ## Requests -/

inductive GatewayResponse where
  | gateways (rows : List (GatewayRow × Bool))
  | gateway (status : ℕ) (row : GatewayRow × Bool)
  | deleted (deleted : Bool)
  | error (status : ℕ) (text : String)
  /-- An error that is caught: its message is the text, with status 500. -/
  | caught (e : Exception)
  /-- An error that is not caught: the framework answers with status 500. -/
  | thrown (e : Exception)

/-- **The request has failed.** -/
def GatewayResponse.failed : GatewayResponse → Bool
  | gateways _ | gateway _ _ | deleted _ => false
  | error _ _ | caught _ | thrown _ => true

def gatewayResponse (status : ℕ) : Option GatewayRow → GatewayResponse
  | some r => .gateway status r.redactToken
  | none => .thrown .typeError

/-- `GET`: where there is no gateway, the one of the environment is added. -/
def getGateways (site : GatewaySite) (gateways : Gateways) (now : ℕ) :
    Gateways × GatewayResponse :=
  if gateways.rows.length = 0 then
    match insertGateway site gateways [some (.str site.name), some (.str site.host),
        some (.num site.port), some (.str site.token), some (.num (.finite 1))] now with
    | .error e => (gateways, .thrown e)
    | .ok seeded => (seeded, .gateways (seeded.rows.map fun (_, r) => r.redactToken))
  else (gateways, .gateways (gateways.rows.map fun (_, r) => r.redactToken))

/-- The parameters of the `INSERT` of a `POST`. -/
def postParams (body : Json) : List (Option Json) :=
  [Json.get? (some body) "name", Json.get? (some body) "host", Json.get? (some body) "port",
    some (Json.or (Json.get? (some body) "token") (.str "")),
    some (.num (.finite (if Json.truthy (Json.get? (some body) "is_primary") then 1 else 0)))]

/-- The gateways, without the mark if a request makes a gateway the primary one. -/
def markedGateways (gateways : Gateways) (body : Json) : Gateways :=
  if Json.truthy (Json.get? (some body) "is_primary") then demoteAll gateways else gateways

/-- Whether a `POST` has all that it needs. -/
def postComplete (body : Json) : Bool :=
  Json.truthy (Json.get? (some body) "name") && Json.truthy (Json.get? (some body) "host")
    && Json.truthy (Json.get? (some body) "port")

/-- `POST`. -/
def postGateway (site : GatewaySite) (gateways : Gateways) (body : Json) (now : ℕ) :
    Gateways × GatewayResponse :=
  match Json.get (some body) "name" with
  | .error e => (gateways, .thrown e)
  | .ok _ =>
    if !postComplete body then (gateways, .error 400 "name, host, and port are required")
    else
      match insertGateway site (markedGateways gateways body) (postParams body) now with
      | .error (.error message) =>
        (markedGateways gateways body,
          if "UNIQUE".toList <:+: message.toList then
            .error 409 "A gateway with that name already exists"
          else .caught (.error message))
      | .error e => (markedGateways gateways body, .caught e)
      | .ok inserted => (inserted, gatewayResponse 201 (inserted.row gateways.next))

/-- The columns that a `PUT` sets. -/
def putColumns (body : Json) : List GatewayColumn :=
  GatewayColumn.all.filter fun c => (Json.get? (some body) c.key).isSome

/-- `PUT`. -/
def putGateway (site : GatewaySite) (gateways : Gateways) (body : Json) (now : ℕ) :
    Gateways × GatewayResponse :=
  match Json.get (some body) "id" with
  | .error e => (gateways, .thrown e)
  | .ok id =>
    if !Json.truthy id then (gateways, .error 400 "id is required")
    else
      match sqlId site.sq id with
      | .error e => (gateways, .thrown e)
      | .ok existing =>
        match existing.bind gateways.row with
        | none => (gateways, .error 404 "Gateway not found")
        | some _ =>
          if putColumns body = [] then
            (markedGateways gateways body, .error 400 "No valid fields to update")
          else
            match updateGateway site (markedGateways gateways body) body (putColumns body)
                id now with
            | .error e => (markedGateways gateways body, .thrown e)
            | .ok updated => (updated, gatewayResponse 200 (existing.bind updated.row))

/-- `DELETE`. -/
def deleteGateway (site : GatewaySite) (gateways : Gateways) (body : Json) :
    Gateways × GatewayResponse :=
  match Json.get (some body) "id" with
  | .error e => (gateways, .thrown e)
  | .ok id =>
    if !Json.truthy id then (gateways, .error 400 "id is required")
    else
      match sqlId site.sq id with
      | .error e => (gateways, .thrown e)
      | .ok existing =>
        match existing.bind gateways.row with
        | none => (gateways, .deleted false)
        | some gw =>
          if gw.isPrimary then (gateways, .error 400 "Cannot delete the primary gateway")
          else (gateways.deleteWhere fun id _ => some id = existing, .deleted true)

/-- A request, with the body it brings and the time of the database. -/
inductive GatewayAction where
  | get (now : ℕ)
  | post (body : Json) (now : ℕ)
  | put (body : Json) (now : ℕ)
  | delete (body : Json)

/-- **The requests on `/api/gateways`.** -/
def gatewayApi (site : GatewaySite) : Machine Gateways GatewayAction GatewayResponse where
  step s a :=
    let handled := match a with
      | .get now => getGateways site s now
      | .post body now => postGateway site s body now
      | .put body now => putGateway site s body now
      | .delete body => deleteGateway site s body
    (handled.1, [handled.2])

/-! ## One primary gateway -/

def Primary (gateways : Gateways) (i : ℕ) : Prop :=
  ∃ r, gateways.row i = some r ∧ r.isPrimary = true

/-- **No two gateways are primary.** -/
def AtMostOnePrimary (gateways : Gateways) : Prop :=
  ∀ i j, Primary gateways i → Primary gateways j → i = j

def Unmarked (gateways : Gateways) : Prop :=
  ∀ i r, gateways.row i = some r → r.column .is_primary = .number (.finite 0)

/-- A request makes a gateway the primary one. -/
def Marks (body : Json) : Prop := Json.truthy (Json.get? (some body) "is_primary") = true

/-- What a request has to keep, from the gateways before it to those after it. -/
structure GatewaysKept (before after : Gateways) (response : GatewayResponse) : Prop where
  single : AtMostOnePrimary after
  stays : (∃ i, Primary before i) → ∃ i, Primary after i
  atomic : response.failed = true → after = before

/-- **The `UPDATE` of a `PUT` keeps the primary gateway.** Where it is refused, no mark was
there to be taken. Where it makes a gateway the primary one, it stores a value that counts
as true, or there was no primary gateway; and elsewhere it gives the mark only if no other
gateway has it, and does not take it. -/
def UpdateKeeps (site : GatewaySite) (gateways : Gateways) (body : Json) (id : Option Json)
    (now : ℕ) : Prop :=
  match gatewayAssignments site body (putColumns body) id with
  | .error _ => Marks body → Unmarked gateways
  | .ok (assignments, target) =>
    match targetRow (markedGateways gateways body) target with
    | none => Marks body → ∀ i, ¬ Primary gateways i
    | some (i, r) =>
      let r' := { r.assign site.sq assignments with updatedAt := now }
      match checkGateway (markedGateways gateways body) (some i) r' with
      | .error _ => Marks body → Unmarked gateways
      | .ok _ =>
        (Marks body → (∃ j, Primary gateways j) → r'.isPrimary = true)
          ∧ (¬ Marks body → (r'.isPrimary = true → ∀ j, Primary gateways j → j = i)
            ∧ (Primary gateways i → r'.isPrimary = true))

/-- **A request keeps the primary gateway.** The `INSERT` of a `POST` that makes its gateway
the primary one is accepted, or no mark was there to be taken. -/
def KeepsPrimary (site : GatewaySite) (gateways : Gateways) : GatewayAction → Prop
  | .get _ => True
  | .post body now => Marks body → postComplete body = true →
      (∃ r, newGateway site (postParams body) now = .ok r
        ∧ checkGateway (markedGateways gateways body) none r = .ok ()) ∨ Unmarked gateways
  | .put body now => ∀ id i r, Json.get (some body) "id" = .ok id → Json.truthy id = true →
      sqlId site.sq id = .ok (some i) → gateways.row i = some r → putColumns body ≠ [] →
      UpdateKeeps site gateways body id now
  | .delete _ => True

section Rows

variable {site : GatewaySite} {gateways after : Gateways} {body : Json}
  {response : GatewayResponse}

theorem not_primary_demoteAll (i : ℕ) : ¬ Primary (demoteAll gateways) i := by
  rintro ⟨r, hr, hprimary⟩
  obtain ⟨r', -, rfl⟩ := Option.map_eq_some_iff.mp hr
  rw [GatewayRow.isPrimary, GatewayRow.demoted_is_primary] at hprimary
  exact absurd hprimary (by decide)

theorem demoteAll_eq_self_iff : demoteAll gateways = gateways ↔ Unmarked gateways := by
  constructor
  · intro h i r hr
    rw [← h] at hr
    obtain ⟨r', -, rfl⟩ := Option.map_eq_some_iff.mp hr
    exact r'.demoted_is_primary
  · intro h
    refine Table.ext rfl (funext fun i => ?_)
    cases hr : gateways.row i with
    | none =>
      show (gateways.row i).map _ = none
      rw [hr]
      rfl
    | some r =>
      show (gateways.row i).map _ = some r
      rw [hr]
      exact congrArg some (GatewayRow.demoted_eq_self (h i r hr))

theorem markedGateways_of_marks (h : Marks body) :
    markedGateways gateways body = demoteAll gateways := if_pos h

theorem markedGateways_of_not (h : ¬ Marks body) : markedGateways gateways body = gateways :=
  if_neg h

theorem gatewaysKept_self (h : AtMostOnePrimary gateways) :
    GatewaysKept gateways gateways response := ⟨h, id, fun _ => rfl⟩

/-- **A request that fails** once the marks are taken. -/
theorem gatewaysKept_refused_iff (h : AtMostOnePrimary gateways)
    (hfailed : response.failed = true) :
    GatewaysKept gateways (markedGateways gateways body) response
      ↔ (Marks body → Unmarked gateways) := by
  by_cases hmarks : Marks body
  · rw [markedGateways_of_marks hmarks]
    constructor
    · intro hkept _
      exact demoteAll_eq_self_iff.mp (hkept.atomic hfailed)
    · intro hunmarked
      rw [demoteAll_eq_self_iff.mpr (hunmarked hmarks)]
      exact gatewaysKept_self h
  · rw [markedGateways_of_not hmarks]
    exact iff_of_true (gatewaysKept_self h) fun h => absurd h hmarks

/-- **A request that updates no row** once the marks are taken. -/
theorem gatewaysKept_marked_iff (h : AtMostOnePrimary gateways)
    (hok : response.failed = false) :
    GatewaysKept gateways (markedGateways gateways body) response
      ↔ (Marks body → ∀ i, ¬ Primary gateways i) := by
  by_cases hmarks : Marks body
  · rw [markedGateways_of_marks hmarks]
    constructor
    · intro hkept _ i hi
      obtain ⟨j, hj⟩ := hkept.stays ⟨i, hi⟩
      exact not_primary_demoteAll j hj
    · intro hnone
      refine ⟨fun i _ hi => absurd hi (not_primary_demoteAll i), ?_, ?_⟩
      · rintro ⟨i, hi⟩
        exact absurd hi (hnone hmarks i)
      · intro hfailed
        exact absurd (hfailed.symm.trans hok) Bool.true_eq_false.mp
  · rw [markedGateways_of_not hmarks]
    exact iff_of_true (gatewaysKept_self h) fun h => absurd h hmarks

theorem primary_update_iff {i : ℕ} {r : GatewayRow} (hr : gateways.row i = some r)
    (r' : GatewayRow) (j : ℕ) :
    Primary (gateways.update i fun _ => r') j
      ↔ (j = i ∧ r'.isPrimary = true) ∨ (j ≠ i ∧ Primary gateways j) := by
  unfold Primary
  rw [Table.row_update]
  by_cases hji : j = i
  · rw [if_pos hji, hr]
    simp [hji]
  · rw [if_neg hji]
    simp [hji]

theorem primary_insert_iff (r : GatewayRow) (j : ℕ) :
    Primary (gateways.insert r) j
      ↔ (j = gateways.next ∧ r.isPrimary = true) ∨ Primary gateways j := by
  unfold Primary
  constructor
  · rintro ⟨r', hr', hprimary⟩
    rcases (gateways.row_insert_eq_some r).mp hr' with ⟨hj, rfl⟩ | hold
    · exact .inl ⟨hj, hprimary⟩
    · exact .inr ⟨r', hold, hprimary⟩
  · rintro (⟨rfl, hprimary⟩ | ⟨r', hr', hprimary⟩)
    · exact ⟨r, gateways.row_insert_next r, hprimary⟩
    · exact ⟨r', gateways.row_insert_of_some r hr', hprimary⟩

/-- **A row is rewritten** once the marks are taken. -/
theorem gatewaysKept_update_iff (h : AtMostOnePrimary gateways)
    (hok : response.failed = false) {i : ℕ} {r : GatewayRow}
    (hr : (markedGateways gateways body).row i = some r) (r' : GatewayRow) :
    GatewaysKept gateways ((markedGateways gateways body).update i fun _ => r') response
      ↔ (Marks body → (∃ j, Primary gateways j) → r'.isPrimary = true)
        ∧ (¬ Marks body → (r'.isPrimary = true → ∀ j, Primary gateways j → j = i)
          ∧ (Primary gateways i → r'.isPrimary = true)) := by
  have hatomic : ∀ t : Gateways, response.failed = true → t = gateways := fun _ hfailed =>
    absurd (hfailed.symm.trans hok) Bool.true_eq_false.mp
  by_cases hmarks : Marks body
  · rw [markedGateways_of_marks hmarks] at hr ⊢
    have hprimary : ∀ j, Primary ((demoteAll gateways).update i fun _ => r') j
        ↔ j = i ∧ r'.isPrimary = true := by
      intro j
      rw [primary_update_iff hr]
      simp [not_primary_demoteAll]
    constructor
    · intro hkept
      refine ⟨fun _ hsome => ?_, fun hnot => absurd hmarks hnot⟩
      obtain ⟨j, hj⟩ := hkept.stays hsome
      exact ((hprimary j).mp hj).2
    · rintro ⟨hstores, -⟩
      refine ⟨fun j k hj hk => ?_, fun hsome => ?_, hatomic _⟩
      · exact ((hprimary j).mp hj).1.trans ((hprimary k).mp hk).1.symm
      · exact ⟨i, (hprimary i).mpr ⟨rfl, hstores hmarks hsome⟩⟩
  · rw [markedGateways_of_not hmarks] at hr ⊢
    have hprimary := primary_update_iff hr r'
    constructor
    · intro hkept
      refine ⟨fun hm => absurd hm hmarks, fun _ => ⟨fun hset j hj => ?_, fun hi => ?_⟩⟩
      · by_contra hji
        exact hji (hkept.single j i ((hprimary j).mpr (.inr ⟨hji, hj⟩))
          ((hprimary i).mpr (.inl ⟨rfl, hset⟩)))
      · -- the primary gateway of after is the row itself, as the others are not primary
        obtain ⟨j, hj⟩ := hkept.stays ⟨i, hi⟩
        rcases (hprimary j).mp hj with ⟨-, hset⟩ | ⟨hji, hold⟩
        · exact hset
        · exact absurd (h j i hold hi) hji
    · rintro ⟨-, hkeeps⟩
      obtain ⟨hgives, htakes⟩ := hkeeps hmarks
      refine ⟨fun j k hj hk => ?_, fun ⟨j, hj⟩ => ?_, hatomic _⟩
      · rcases (hprimary j).mp hj with ⟨rfl, hset⟩ | ⟨hji, hold⟩
        · rcases (hprimary k).mp hk with ⟨rfl, -⟩ | ⟨hki, hold'⟩
          · rfl
          · exact absurd (hgives hset k hold') hki
        · rcases (hprimary k).mp hk with ⟨rfl, hset⟩ | ⟨-, hold'⟩
          · exact absurd (hgives hset j hold) hji
          · exact h j k hold hold'
      · by_cases hji : j = i
        · exact ⟨i, (hprimary i).mpr (.inl ⟨rfl, htakes (hji ▸ hj)⟩)⟩
        · exact ⟨j, (hprimary j).mpr (.inr ⟨hji, hj⟩)⟩

/-- **A row is inserted** once the marks are taken, with the mark if they are. -/
theorem gatewaysKept_insert (h : AtMostOnePrimary gateways) (hok : response.failed = false)
    {r : GatewayRow} (hr : r.isPrimary = true ↔ Marks body) :
    GatewaysKept gateways ((markedGateways gateways body).insert r) response := by
  refine ⟨fun j k hj hk => ?_, fun ⟨j, hj⟩ => ?_, fun hfailed =>
    absurd (hfailed.symm.trans hok) Bool.true_eq_false.mp⟩
  · rw [primary_insert_iff] at hj hk
    by_cases hmarks : Marks body
    · rw [markedGateways_of_marks hmarks] at hj hk
      rcases hj with ⟨hj, -⟩ | hj
      · rcases hk with ⟨hk, -⟩ | hk
        · exact hj.trans hk.symm
        · exact absurd hk (not_primary_demoteAll k)
      · exact absurd hj (not_primary_demoteAll j)
    · rw [markedGateways_of_not hmarks] at hj hk
      have hnot : ¬ r.isPrimary = true := fun hset => hmarks (hr.mp hset)
      exact h j k (hj.resolve_left fun hnew => hnot hnew.2)
        (hk.resolve_left fun hnew => hnot hnew.2)
  · by_cases hmarks : Marks body
    · exact ⟨_, (primary_insert_iff r _).mpr (.inl ⟨rfl, hr.mpr hmarks⟩)⟩
    · refine ⟨j, (primary_insert_iff r j).mpr (.inr ?_)⟩
      rw [markedGateways_of_not hmarks]
      exact hj

end Rows

/-! ## The requests -/

section Requests

variable {site : GatewaySite} {gateways : Gateways} {body : Json} {now : ℕ}

/-- **The mark of an inserted row** is the last parameter. -/
theorem newGateway_is_primary {params : List (Option Json)} {q : ℚ} {r : GatewayRow}
    (h : newGateway site (params ++ [some (.num (.finite q))]) now = .ok r) :
    r.column .is_primary = .number (.finite q) := by
  unfold newGateway at h
  obtain ⟨values, hbind, hr⟩ := bind_eq_ok.mp h
  unfold SqlValue.bindAll at hbind
  obtain ⟨bound, hbound, hvalues⟩ := bind_eq_ok.mp hbind
  rw [List.mapM_append] at hbound
  obtain ⟨front, -, hlast⟩ := bind_eq_ok.mp hbound
  obtain ⟨last, hlast, happend⟩ := bind_eq_ok.mp hlast
  obtain rfl : [[SqlValue.number (.finite q)]] = last := Except.ok.inj hlast
  obtain rfl := Except.ok.inj happend
  split at hvalues
  · next hlength =>
    obtain rfl := Except.ok.inj hvalues
    rw [List.flatten_append, List.flatten_cons, List.flatten_nil, List.append_nil] at hr
    rw [List.flatten_append, List.flatten_cons, List.flatten_nil, List.append_nil,
      List.length_append, List.length_singleton] at hlength
    have hfour : ([.name, .host, .port, .token] : List GatewayColumn).length
        = front.flatten.length := by
      show 4 = _
      omega
    obtain rfl := Except.ok.inj hr
    rw [show ([.name, .host, .port, .token, .is_primary] : List GatewayColumn)
        = [.name, .host, .port, .token] ++ [.is_primary] from rfl, List.zip_append hfour]
    exact GatewayRow.assign_concat_self _ _ _ .is_primary (.number (.finite q))
  · exact nomatch hvalues

/-- **The gateway of the environment** is the primary one. -/
theorem getGateways_kept (h : AtMostOnePrimary gateways) :
    GatewaysKept gateways (getGateways site gateways now).1
      (getGateways site gateways now).2 := by
  unfold getGateways
  split
  · next hempty =>
    have hnone : ∀ i, ¬ Primary gateways i := by
      rintro i ⟨r, hr, -⟩
      have hmem := gateways.mem_rows.mpr hr
      rw [List.length_eq_zero_iff.mp hempty] at hmem
      exact absurd hmem List.not_mem_nil
    split
    · exact gatewaysKept_self h
    · next seeded hseeded =>
      obtain ⟨r, hr, hinsert⟩ := bind_eq_ok.mp hseeded
      obtain ⟨-, -, hok⟩ := bind_eq_ok.mp hinsert
      obtain rfl := Except.ok.inj hok
      refine ⟨fun i j hi hj => ?_, fun ⟨i, hi⟩ => absurd hi (hnone i), fun hf => nomatch hf⟩
      rw [primary_insert_iff] at hi hj
      exact (hi.resolve_right (hnone i)).1.trans (hj.resolve_right (hnone j)).1.symm
  · exact gatewaysKept_self h

theorem not_marks_of_get_error {key : String} {e : Exception}
    (h : Json.get (some body) key = .error e) : ¬ Marks body := by
  intro hmarks
  unfold Marks at hmarks
  cases body with
  | null => exact absurd hmarks Bool.false_ne_true
  | bool b => exact nomatch h
  | num n => exact nomatch h
  | str s => exact nomatch h
  | arr elements => exact nomatch h
  | obj fields => exact nomatch h

theorem insertGateway_eq_ok {params : List (Option Json)} {inserted : Gateways} :
    insertGateway site gateways params now = .ok inserted
      ↔ ∃ r, newGateway site params now = .ok r ∧ checkGateway gateways none r = .ok ()
        ∧ gateways.insert r = inserted := by
  unfold insertGateway
  rw [bind_eq_ok]
  refine exists_congr fun r => and_congr_right fun _ => ?_
  rw [bind_eq_ok]
  constructor
  · rintro ⟨_, hcheck, hinsert⟩
    exact ⟨hcheck, Except.ok.inj hinsert⟩
  · rintro ⟨hcheck, rfl⟩
    exact ⟨(), hcheck, rfl⟩

theorem keepsPrimary_post_refused (hcomplete : postComplete body = true)
    (h : ∀ inserted, insertGateway site (markedGateways gateways body) (postParams body) now
      ≠ .ok inserted) :
    KeepsPrimary site gateways (.post body now) ↔ (Marks body → Unmarked gateways) := by
  constructor
  · intro hkeeps hmarks
    rcases hkeeps hmarks hcomplete with ⟨r, hr, hcheck⟩ | hunmarked
    · exact absurd (insertGateway_eq_ok.mpr ⟨r, hr, hcheck, rfl⟩) (h _)
    · exact hunmarked
  · intro hunmarked hmarks _
    exact .inr (hunmarked hmarks)

theorem isPrimary_newGateway {r : GatewayRow}
    (h : newGateway site (postParams body) now = .ok r) : r.isPrimary = true ↔ Marks body := by
  have hcolumn := @newGateway_is_primary site now (postParams body).dropLast _ r h
  unfold GatewayRow.isPrimary Marks
  rw [hcolumn]
  cases Json.truthy (Json.get? (some body) "is_primary") with
  | true => exact iff_of_true (by decide +kernel) rfl
  | false => exact iff_of_false (by decide +kernel) Bool.false_ne_true

/-- **When a `POST` keeps the primary gateway.** -/
theorem postGateway_kept_iff (h : AtMostOnePrimary gateways) :
    GatewaysKept gateways (postGateway site gateways body now).1
        (postGateway site gateways body now).2
      ↔ KeepsPrimary site gateways (.post body now) := by
  unfold postGateway
  split
  · next hget =>
    exact iff_of_true (gatewaysKept_self h) fun hmarks =>
      absurd hmarks (not_marks_of_get_error hget)
  · cases hcomplete : postComplete body with
    | false =>
      exact iff_of_true (gatewaysKept_self h) fun _ hc =>
        absurd (hcomplete.symm.trans hc) Bool.false_ne_true
    | true =>
      rw [if_neg (by decide)]
      split
      · next hinsert =>
        rw [keepsPrimary_post_refused hcomplete fun t ht => nomatch hinsert.symm.trans ht]
        refine gatewaysKept_refused_iff h ?_
        split
        · rfl
        · rfl
      · next hinsert =>
        rw [keepsPrimary_post_refused hcomplete fun t ht => nomatch hinsert.symm.trans ht]
        exact gatewaysKept_refused_iff h rfl
      · next inserted hinsert =>
        obtain ⟨r, hr, hcheck, rfl⟩ := insertGateway_eq_ok.mp hinsert
        refine iff_of_true (gatewaysKept_insert h ?_ (isPrimary_newGateway hr))
          fun _ _ => .inl ⟨r, hr, hcheck⟩
        have hnext : (markedGateways gateways body).next = gateways.next := by
          unfold markedGateways
          split
          · rfl
          · rfl
        rw [← hnext, Table.row_insert_next]
        rfl

/-- **An `UPDATE` that is refused.** -/
theorem updateKeeps_refused {id : Option Json} {e : Exception}
    (h : updateGateway site (markedGateways gateways body) body (putColumns body) id now
      = .error e) :
    UpdateKeeps site gateways body id now ↔ (Marks body → Unmarked gateways) := by
  unfold updateGateway at h
  unfold UpdateKeeps
  cases hassign : gatewayAssignments site body (putColumns body) id with
  | error e => exact Iff.rfl
  | ok assigned =>
    obtain ⟨assignments, target⟩ := assigned
    rw [hassign] at h
    dsimp only at h ⊢
    cases htarget : targetRow (markedGateways gateways body) target with
    | none => exact nomatch htarget ▸ h
    | some found =>
      obtain ⟨i, r⟩ := found
      rw [htarget] at h
      dsimp only at h ⊢
      cases hcheck : checkGateway (markedGateways gateways body) (some i)
          { r.assign site.sq assignments with updatedAt := now } with
      | error e => exact Iff.rfl
      | ok u => exact nomatch hcheck ▸ h

/-- **An `UPDATE` that is accepted.** -/
theorem gatewaysKept_updateGateway_iff (hsingle : AtMostOnePrimary gateways)
    {id : Option Json} {updated : Gateways} {response : GatewayResponse}
    (hok : response.failed = false)
    (h : updateGateway site (markedGateways gateways body) body (putColumns body) id now
      = .ok updated) :
    GatewaysKept gateways updated response ↔ UpdateKeeps site gateways body id now := by
  unfold updateGateway at h
  unfold UpdateKeeps
  cases hassign : gatewayAssignments site body (putColumns body) id with
  | error e => exact nomatch hassign ▸ h
  | ok assigned =>
    obtain ⟨assignments, target⟩ := assigned
    rw [hassign] at h
    dsimp only at h ⊢
    cases htarget : targetRow (markedGateways gateways body) target with
    | none =>
      rw [htarget] at h
      obtain rfl := Except.ok.inj h
      exact gatewaysKept_marked_iff hsingle hok
    | some found =>
      obtain ⟨i, r⟩ := found
      rw [htarget] at h
      dsimp only at h ⊢
      cases hcheck : checkGateway (markedGateways gateways body) (some i)
          { r.assign site.sq assignments with updatedAt := now } with
      | error e => exact nomatch hcheck ▸ h
      | ok u =>
        rw [hcheck] at h
        obtain rfl := Except.ok.inj h
        obtain ⟨i', -, hrow⟩ := Option.bind_eq_some_iff.mp htarget
        obtain ⟨r', hr, hpair⟩ := Option.map_eq_some_iff.mp hrow
        obtain ⟨rfl, rfl⟩ := Prod.mk.inj hpair
        exact gatewaysKept_update_iff hsingle hok hr _

theorem isSome_markedGateways (i : ℕ) :
    ((markedGateways gateways body).row i).isSome = (gateways.row i).isSome := by
  unfold markedGateways
  split
  · exact Option.isSome_map
  · rfl

theorem isSome_updateGateway {id : Option Json} {sets : List GatewayColumn}
    {updated : Gateways} (h : updateGateway site gateways body sets id now = .ok updated)
    (i : ℕ) : (updated.row i).isSome = (gateways.row i).isSome := by
  unfold updateGateway at h
  split at h
  · exact nomatch h
  · split at h
    · obtain rfl := Except.ok.inj h
      rfl
    · dsimp only at h
      split at h
      · exact nomatch h
      · obtain rfl := Except.ok.inj h
        rw [Table.row_update]
        split
        · next hi => rw [Option.isSome_map, hi]
        · rfl

theorem putColumns_ne_nil (h : Marks body) : putColumns body ≠ [] := by
  refine List.ne_nil_of_mem (List.mem_filter.mpr ⟨?_, ?_⟩ : GatewayColumn.is_primary ∈ _)
  · decide
  · unfold Marks at h
    show (Json.get? (some body) "is_primary").isSome = true
    cases hget : Json.get? (some body) "is_primary" with
    | none =>
      rw [hget] at h
      exact absurd h Bool.false_ne_true
    | some x => rfl

/-- **When a `PUT` keeps the primary gateway.** -/
theorem putGateway_kept_iff (h : AtMostOnePrimary gateways) :
    GatewaysKept gateways (putGateway site gateways body now).1
        (putGateway site gateways body now).2
      ↔ KeepsPrimary site gateways (.put body now) := by
  unfold putGateway
  cases hget : Json.get (some body) "id" with
  | error e =>
    exact iff_of_true (gatewaysKept_self h) fun id i r hid => nomatch hget.symm.trans hid
  | ok id =>
    dsimp only
    cases htruthy : Json.truthy id with
    | false =>
      refine iff_of_true (gatewaysKept_self h) fun id' i r hid ht => ?_
      obtain rfl := Except.ok.inj (hget.symm.trans hid)
      exact absurd (htruthy.symm.trans ht) Bool.false_ne_true
    | true =>
      rw [if_neg (by decide)]
      cases hsql : sqlId site.sq id with
      | error e =>
        refine iff_of_true (gatewaysKept_self h) fun id' i r hid _ hi => ?_
        obtain rfl := Except.ok.inj (hget.symm.trans hid)
        exact nomatch hsql.symm.trans hi
      | ok existing =>
        dsimp only
        cases hrow : existing.bind gateways.row with
        | none =>
          refine iff_of_true (gatewaysKept_self h) fun id' i r hid _ hi hr => ?_
          obtain rfl := Except.ok.inj (hget.symm.trans hid)
          obtain rfl := Except.ok.inj (hsql.symm.trans hi)
          exact nomatch hrow.symm.trans hr
        | some r =>
          obtain ⟨i, rfl, hr⟩ := Option.bind_eq_some_iff.mp hrow
          have hkeeps : KeepsPrimary site gateways (.put body now)
              ↔ (putColumns body ≠ [] → UpdateKeeps site gateways body id now) := by
            constructor
            · intro hall
              exact hall id i r hget htruthy hsql hr
            · intro hupdate id' i' r' hid _ _ _ hcolumns
              obtain rfl := Except.ok.inj (hget.symm.trans hid)
              exact hupdate hcolumns
          rw [hkeeps]
          dsimp only
          by_cases hcolumns : putColumns body = []
          · have hmarks : ¬ Marks body := fun hmarks => putColumns_ne_nil hmarks hcolumns
            rw [if_pos hcolumns, markedGateways_of_not hmarks]
            exact iff_of_true (gatewaysKept_self h) fun hnil => absurd hcolumns hnil
          · rw [if_neg hcolumns]
            refine Iff.trans ?_ (forall_prop_of_true hcolumns).symm
            split
            · next hupdate =>
              rw [updateKeeps_refused hupdate]
              exact gatewaysKept_refused_iff h rfl
            · next updated hupdate =>
              refine gatewaysKept_updateGateway_iff h ?_ hupdate
              have hsome := (isSome_updateGateway hupdate i).trans (isSome_markedGateways i)
              rw [hr] at hsome
              obtain ⟨r', hr'⟩ := Option.isSome_iff_exists.mp hsome
              rw [Option.bind_some, hr']
              rfl

/-- **A `DELETE`** leaves the primary gateway alone. -/
theorem deleteGateway_kept (h : AtMostOnePrimary gateways) :
    GatewaysKept gateways (deleteGateway site gateways body).1
      (deleteGateway site gateways body).2 := by
  unfold deleteGateway
  split
  · exact gatewaysKept_self h
  · split
    · exact gatewaysKept_self h
    · split
      · exact gatewaysKept_self h
      · next existing _ =>
        split
        · exact gatewaysKept_self h
        · next gw hgw =>
          split
          · exact gatewaysKept_self h
          · next hnot =>
            have hold : ∀ i, Primary (gateways.deleteWhere fun id _ => some id = existing) i →
                Primary gateways i := by
              rintro i ⟨r, hr, hprimary⟩
              exact ⟨r, ((gateways.row_deleteWhere_eq_some _).mp hr).1, hprimary⟩
            refine ⟨fun i j hi hj => h i j (hold i hi) (hold j hj), ?_, fun hf => nomatch hf⟩
            rintro ⟨i, r, hr, hprimary⟩
            refine ⟨i, r, (gateways.row_deleteWhere_eq_some _).mpr ⟨hr, ?_⟩, hprimary⟩
            refine decide_eq_false fun hi => hnot ?_
            rw [← hi, Option.bind_some, hr] at hgw
            obtain rfl := Option.some.inj hgw
            exact hprimary

/-- **When a request keeps the primary gateway.** -/
theorem gatewayApi_kept_iff (h : AtMostOnePrimary gateways) (a : GatewayAction) :
    (∀ response ∈ (gatewayApi site).emits gateways a,
        GatewaysKept gateways ((gatewayApi site).next gateways a) response)
      ↔ KeepsPrimary site gateways a := by
  have hall : ∀ handled : Gateways × GatewayResponse,
      (∀ response ∈ [handled.2], GatewaysKept gateways handled.1 response)
        ↔ GatewaysKept gateways handled.1 handled.2 := fun _ => List.forall_mem_singleton
  cases a with
  | get now => exact (hall _).trans (iff_of_true (getGateways_kept h) trivial)
  | post body now => exact (hall _).trans (postGateway_kept_iff h)
  | put body now => exact (hall _).trans (putGateway_kept_iff h)
  | delete body => exact (hall _).trans (iff_of_true (deleteGateway_kept h) trivial)

end Requests

/-- **What a run promises**: no two gateways are ever primary, exactly one is from when
one is, and a request that fails leaves the gateways as they were. -/
structure OnePrimary (site : GatewaySite) (actions : List GatewayAction) : Prop where
  single : (gatewayApi site).Always AtMostOnePrimary .empty actions
  stays : ∀ p q, p <+: q → q <+: actions →
    (∃ i, Primary ((gatewayApi site).state .empty p) i) →
    ∃! i, Primary ((gatewayApi site).state .empty q) i
  atomic : (gatewayApi site).EachStep (fun s a => ∀ response ∈ (gatewayApi site).emits s a,
    response.failed = true → (gatewayApi site).next s a = s) .empty actions

/-- **When one gateway stays primary, and failures leave no trace**: of any requests, with
any bodies, exactly if each request keeps the primary gateway. -/
theorem gateways_kept_iff (site : GatewaySite) (actions : List GatewayAction) :
    OnePrimary site actions
      ↔ (gatewayApi site).EachStep (KeepsPrimary site) .empty actions := by
  have hempty : AtMostOnePrimary .empty := fun i _ ⟨_, hr, _⟩ => nomatch hr
  constructor
  · rintro ⟨hsingle, hstays, hatomic⟩ p a hp
    have hbefore : p <+: actions := (List.prefix_append p [a]).trans hp
    refine (gatewayApi_kept_iff (hsingle p hbefore) a).mp fun response hresponse => ?_
    refine ⟨?_, fun hsome => ?_, hatomic p a hp response hresponse⟩
    · have hafter := hsingle _ hp
      rwa [Machine.state_concat] at hafter
    · have hone := hstays p _ (List.prefix_append p [a]) hp hsome
      rw [Machine.state_concat] at hone
      exact hone.exists
  · intro h
    have hsingle : (gatewayApi site).Always AtMostOnePrimary .empty actions := by
      intro p hp
      induction p using List.reverseRecOn with
      | nil => exact hempty
      | append_singleton p a ih =>
        rw [Machine.state_concat]
        have hkept := (gatewayApi_kept_iff (ih ((List.prefix_append p [a]).trans hp)) a).mpr
          (h p a hp)
        exact (hkept _ List.mem_cons_self).single
    have hkept : (gatewayApi site).EachStep (fun s a => ∀ response ∈
        (gatewayApi site).emits s a,
        GatewaysKept s ((gatewayApi site).next s a) response) .empty actions := fun p a hp =>
      (gatewayApi_kept_iff (hsingle p ((List.prefix_append p [a]).trans hp)) a).mpr (h p a hp)
    refine ⟨hsingle, fun p q hpq hq hsome => ?_, fun p a hp response hresponse =>
      (hkept p a hp response hresponse).atomic⟩
    have hexists : (gatewayApi site).EachStep (fun s a => (∃ i, Primary s i) →
        ∃ i, Primary ((gatewayApi site).next s a) i) .empty actions := fun p a hp =>
      (hkept p a hp _ List.mem_cons_self).stays
    obtain ⟨i, hi⟩ := hexists.holds_from _ hpq hq hsome
    exact ⟨i, hi, fun j hj => hsingle q hq j i hj hi⟩

/-- The environment of a concrete run. -/
def sampleGatewaySite : GatewaySite := ⟨sampleSqlite, "primary", "127.0.0.1", .nan, ""⟩

/-- A request for a primary gateway of a name. -/
def sampleGateway (name : String) : GatewayAction :=
  .post (.obj [("name", .str name), ("host", .str "h"), ("port", .num (.finite 1)),
    ("is_primary", .bool true)]) 10

theorem exists_primary_iff (gateways : Gateways) :
    (∃ i, Primary gateways i) ↔ (gateways.rows.any fun (_, r) => r.isPrimary) = true := by
  rw [List.any_eq_true]
  constructor
  · rintro ⟨i, r, hr, hprimary⟩
    exact ⟨(i, r), gateways.mem_rows.mpr hr, hprimary⟩
  · rintro ⟨⟨i, r⟩, hmem, hprimary⟩
    exact ⟨i, r, gateways.mem_rows.mp hmem, hprimary⟩

/-- **A second gateway of the same name** is refused, and no gateway is primary any
more. -/
theorem not_gateways_kept_sampleName :
    ¬ OnePrimary sampleGatewaySite [sampleGateway "a", sampleGateway "a"] := by
  intro h
  have hbefore : ∃ i, Primary ((gatewayApi sampleGatewaySite).state .empty
      [sampleGateway "a"]) i :=
    (exists_primary_iff _).mpr (by decide +kernel)
  have hafter := (h.stays [sampleGateway "a"] _ ⟨[sampleGateway "a"], rfl⟩ List.prefix_rfl
    hbefore).exists
  have hnone : ((gatewayApi sampleGatewaySite).state .empty
      [sampleGateway "a", sampleGateway "a"]).rows.any (fun (_, r) => r.isPrimary) = false := by
    decide +kernel
  exact absurd (((exists_primary_iff _).mp hafter).symm.trans hnone) Bool.true_eq_false.mp

end MissionControl
