import Mathlib.Data.List.Basic
import Mathlib.Data.Nat.Init
import Mathlib.Tactic.Common

/-!
# Queries with conditions

The rows of a query are those of a table, or of a join of two (`leftJoin`). A `WHERE` clause
is a text. Here it compares columns with parameters, and all of its
comparisons have to hold. Its columns are looked for in the tables of the `FROM` clause: one
that is said to be of a table in that table, and any other one in all of them; and it has to
be in just one. So a clause that is right for a table may be wrong for a join of it with
another one (`prepare_ambiguous`).

What is selected are the rows that satisfy the comparisons (`select_of_prepare`).
-/

namespace Query

/-! ## The text -/

/-- `>=` or `<=`. -/
inductive Comparison where
  | atLeast
  | atMost
  deriving DecidableEq

/-- A column, with the table that it is said to be of. -/
structure Column where
  table : Option String
  name : String
  deriving DecidableEq

/-- A comparison of a column with a parameter. -/
structure Condition where
  column : Column
  comparison : Comparison
  deriving DecidableEq

def readColumn (word : String) : Option Column :=
  match (word.toList.splitOn '.').map String.ofList with
  | [name] => some ⟨none, name⟩
  | [table, name] => some ⟨some table, name⟩
  | _ => none

def readCondition : List String → Option Condition
  | [column, ">=", "?"] => (readColumn column).map (⟨·, .atLeast⟩)
  | [column, "<=", "?"] => (readColumn column).map (⟨·, .atMost⟩)
  | _ => none

/-- **The conditions of a clause**; there need not be a clause. -/
def readWhere (text : String) : Option (List Condition) :=
  match ((text.toList.splitOn ' ').map String.ofList).filter (· ≠ "") with
  | [] => some []
  | "WHERE" :: words => (words.splitOn "AND").mapM readCondition
  | _ => none

example : readWhere "WHERE pr.created_at >= ? AND name <= ?"
    = some [⟨⟨some "pr", "created_at"⟩, .atLeast⟩, ⟨⟨none, "name"⟩, .atMost⟩] := by decide +kernel

/-! ## The tables -/

/-- A table of the `FROM` clause: what it is called, and its columns. -/
structure Source where
  name : String
  columns : List String

inductive Failure where
  | syntaxError
  | noSuchColumn (name : String)
  | ambiguous (name : String)
  | parameters
  deriving DecidableEq

/-- The tables, by their places, that a column may be of. -/
def candidates (sources : List Source) (c : Column) : List ℕ :=
  (List.range sources.length).filter fun i =>
    sources[i]?.any fun s => decide (c.name ∈ s.columns) && c.table.all (· == s.name)

/-- **The table that a column is of.** -/
def resolve (sources : List Source) (c : Column) : Except Failure ℕ :=
  match candidates sources c with
  | [] => .error (.noSuchColumn c.name)
  | [i] => .ok i
  | _ => .error (.ambiguous c.name)

/-- The conditions of a clause, with the tables that their columns are of. -/
def prepare (sources : List Source) (text : String) : Except Failure (List (ℕ × Condition)) :=
  match readWhere text with
  | none => .error .syntaxError
  | some conditions => conditions.mapM fun c => do
    let i ← resolve sources c.column
    .ok (i, c)

/-- **A column that two tables have** is not told by its name alone. -/
theorem prepare_ambiguous {s t : Source} {text name : String} (before after : List Condition)
    (comparison : Comparison) (found : List (ℕ × Condition))
    (hread : readWhere text = some (before ++ ⟨⟨none, name⟩, comparison⟩ :: after))
    (hbefore : (before.mapM fun c => do
      let i ← resolve [s, t] c.column
      .ok (i, c)) = .ok found) (hs : name ∈ s.columns) (ht : name ∈ t.columns) :
    prepare [s, t] text = .error (.ambiguous name) := by
  have hcandidates : candidates [s, t] ⟨none, name⟩ = [0, 1] := by
    unfold candidates
    rw [List.length_cons, List.length_singleton]
    show [0, 1].filter _ = _
    rw [List.filter_eq_self]
    intro i hi
    rcases List.mem_cons.mp hi with rfl | hi
    · simpa using hs
    · obtain rfl := List.mem_singleton.mp hi
      simpa using ht
  have hresolve : resolve [s, t] ⟨none, name⟩ = .error (.ambiguous name) := by
    unfold resolve
    rw [hcandidates]
  unfold prepare
  rw [hread]
  dsimp only
  rw [List.mapM_append, hbefore, List.mapM_cons]
  dsimp only
  rw [hresolve]
  rfl

/-! ## Joins -/

/-- `xs LEFT JOIN ys`: a row with nothing to join it with is joined with nothing. -/
def leftJoin {α β : Type*} (on : α → β → Bool) (xs : List α) (ys : List β) :
    List (α × Option β) :=
  xs.flatMap fun x =>
    match ys.filter (on x) with
    | [] => [(x, none)]
    | found => found.map fun y => (x, some y)

/-- **A join on a key** has each row once. -/
theorem leftJoin_of_nodup {α β κ : Type*} {on : α → β → Bool} {xs : List α} {ys : List β}
    {key : β → κ} (hnodup : (ys.map key).Nodup)
    (hon : ∀ x, ∀ y ∈ ys, ∀ y' ∈ ys, on x y = true → on x y' = true → key y = key y') :
    leftJoin on xs ys = xs.map fun x => (x, ys.find? (on x)) := by
  unfold leftJoin
  rw [List.map_eq_flatMap]
  refine List.flatMap_congr fun x _ => ?_
  cases hfound : ys.filter (on x) with
  | nil =>
    have hnone : ys.find? (on x) = none := by
      rw [List.find?_eq_none]
      intro y hy htrue
      exact absurd (hfound ▸ List.mem_filter.mpr ⟨hy, htrue⟩) List.not_mem_nil
    rw [hnone]
  | cons y found =>
    have hhead : ys.find? (on x) = some y := by
      rw [← List.head?_filter, hfound]
      rfl
    have hnodup' : ((y :: found).map key).Nodup :=
      hfound ▸ hnodup.sublist (List.filter_sublist.map key)
    have hmem : ∀ z ∈ y :: found, z ∈ ys ∧ on x z = true := fun z hz =>
      List.mem_filter.mp (hfound ▸ hz)
    cases found with
    | nil => rw [hhead]; rfl
    | cons z found =>
      obtain ⟨hy, hony⟩ := hmem y List.mem_cons_self
      obtain ⟨hz, honz⟩ := hmem z (List.mem_cons_of_mem _ List.mem_cons_self)
      have hkey := hon x y hy z hz hony honz
      rw [List.map_cons, List.map_cons, hkey] at hnodup'
      exact absurd List.mem_cons_self (List.nodup_cons.mp hnodup').1

/-! ## The rows -/

section Select

variable {α ρ : Type*} (le : α → α → Bool)

/-- Whether a value satisfies a comparison with a parameter. -/
def Comparison.test : Comparison → α → α → Bool
  | atLeast, value, param => le param value
  | atMost, value, param => le value param

/-- Whether a row satisfies conditions, with their parameters. -/
def satisfies (value : ρ → ℕ → String → α) (conditions : List (ℕ × Condition)) (params : List α)
    (row : ρ) : Bool :=
  (conditions.zip params).all fun x =>
    x.1.2.comparison.test le (value row x.1.1 x.1.2.column.name) x.2

/-- **The rows that a clause selects**, where `value` is what a row has in a column of a
table. -/
def select (sources : List Source) (text : String) (params : List α)
    (value : ρ → ℕ → String → α) (rows : List ρ) : Except Failure (List ρ) :=
  match prepare sources text with
  | .error failure => .error failure
  | .ok conditions =>
    if conditions.length = params.length then
      .ok (rows.filter (satisfies le value conditions params))
    else .error .parameters

variable {le} {sources : List Source} {text : String} {params : List α}
  {value : ρ → ℕ → String → α} {rows : List ρ} {conditions : List (ℕ × Condition)}

/-- **What is selected** by a clause that can be prepared. -/
theorem select_of_prepare (h : prepare sources text = .ok conditions)
    (hlength : conditions.length = params.length) :
    select le sources text params value rows
      = .ok (rows.filter (satisfies le value conditions params)) := by
  unfold select
  rw [h]
  exact if_pos hlength

theorem select_of_error {failure : Failure} (h : prepare sources text = .error failure) :
    select le sources text params value rows = .error failure := by
  unfold select
  rw [h]

end Select

end Query
