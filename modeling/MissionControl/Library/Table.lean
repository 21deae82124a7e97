import Mathlib.Logic.Function.Basic
import Mathlib.Data.Nat.Init
import Mathlib.Data.List.MinMax
import Mathlib.Data.List.Nodup
import Mathlib.Data.List.Sort

/-!
# Tables with automatic ids

A database table whose primary key is an automatic integer: rows are
inserted under the next free id, read, updated and deleted by id. An id is
never given out twice, also where its row has been deleted. The row map is
total, and the field `row_lt` keeps it empty from the next free id on –
which is what makes an inserted id a fresh one.

Each statement of SQL has its lemmas by what it leaves in the row of an id, and the lists that
queries answer are related to the rows by membership. Where the database is free to choose
among rows that tie, the choice is an argument, and results hold for every one.
-/

/-- **A table with automatic ids.** -/
@[ext] structure Table (α : Type*) where
  next : ℕ
  row : ℕ → Option α
  /-- Every stored row lies below the next id. -/
  row_lt : ∀ {id : ℕ} {r : α}, row id = some r → id < next

namespace Table

variable {α : Type*}

/-- The empty table. Automatic ids start at 1. -/
def empty : Table α := ⟨1, fun _ => none, fun h => nomatch h⟩

/-- `INSERT`: the row is stored under the next id. -/
def insert (t : Table α) (r : α) : Table α where
  next := t.next + 1
  row := Function.update t.row t.next (some r)
  row_lt := by
    intro id r' h
    by_cases hid : id = t.next
    · omega
    · rw [Function.update_of_ne hid] at h
      exact Nat.lt_succ_of_lt (t.row_lt h)

/-- `UPDATE … WHERE id = ?`: the row of the id is rewritten, where there is
one. -/
def update (t : Table α) (id : ℕ) (f : α → α) : Table α where
  next := t.next
  row := Function.update t.row id ((t.row id).map f)
  row_lt := by
    intro id' r' h
    by_cases hid : id' = id
    · subst hid
      rw [Function.update_self, Option.map_eq_some_iff] at h
      obtain ⟨r, hr, -⟩ := h
      exact t.row_lt hr
    · rw [Function.update_of_ne hid] at h
      exact t.row_lt h

/-- `DELETE … WHERE`: the rows that satisfy a test are gone. -/
def deleteWhere (t : Table α) (p : ℕ → α → Bool) : Table α where
  next := t.next
  row id := (t.row id).filter (fun r => !p id r)
  row_lt := by
    intro id r h
    exact t.row_lt (Option.filter_eq_some_iff.mp h).1

/-- `UPDATE …`: every row is rewritten. -/
def updateAll (t : Table α) (f : ℕ → α → α) : Table α where
  next := t.next
  row id := (t.row id).map (f id)
  row_lt := by
    intro id r h
    obtain ⟨r', hr', -⟩ := Option.map_eq_some_iff.mp h
    exact t.row_lt hr'

/-- The rows with their ids, in the order of the ids. -/
def rows (t : Table α) : List (ℕ × α) :=
  (List.range t.next).filterMap (fun id => (t.row id).map (fun r => (id, r)))

/-- Whether some row satisfies a test – what a `UNIQUE` constraint asks of
the rows already stored. -/
def any (t : Table α) (p : α → Bool) : Bool :=
  (List.range t.next).any (fun id => (t.row id).any p)

@[simp] theorem row_empty (id : ℕ) : (empty : Table α).row id = none := rfl

@[simp] theorem row_next (t : Table α) : t.row t.next = none := by
  cases h : t.row t.next with
  | none => rfl
  | some r => exact absurd (t.row_lt h) (Nat.lt_irrefl _)

@[simp] theorem next_insert (t : Table α) (r : α) :
    (t.insert r).next = t.next + 1 := rfl

@[simp] theorem row_insert_next (t : Table α) (r : α) :
    (t.insert r).row t.next = some r :=
  Function.update_self _ _ _

theorem row_insert_of_ne (t : Table α) (r : α) {id : ℕ} (h : id ≠ t.next) :
    (t.insert r).row id = t.row id :=
  Function.update_of_ne h _ _

theorem row_insert_of_some (t : Table α) (r : α) {id : ℕ} {r' : α}
    (h : t.row id = some r') : (t.insert r).row id = some r' := by
  rw [row_insert_of_ne t r (Nat.ne_of_lt (t.row_lt h)), h]

/-- A row of the extended table is the new one or an old one. -/
theorem row_insert_eq_some (t : Table α) (r : α) {id : ℕ} {r' : α} :
    (t.insert r).row id = some r'
      ↔ (id = t.next ∧ r' = r) ∨ t.row id = some r' := by
  by_cases hid : id = t.next
  · subst hid
    rw [row_insert_next, row_next]
    simp [eq_comm]
  · rw [row_insert_of_ne t r hid]
    simp [hid]

@[simp] theorem next_update (t : Table α) (id : ℕ) (f : α → α) :
    (t.update id f).next = t.next := rfl

@[simp] theorem row_update_self (t : Table α) (id : ℕ) (f : α → α) :
    (t.update id f).row id = (t.row id).map f :=
  Function.update_self _ _ _

theorem row_update_of_ne (t : Table α) (f : α → α) {id id' : ℕ}
    (h : id' ≠ id) : (t.update id f).row id' = t.row id' :=
  Function.update_of_ne h _ _

theorem row_update (t : Table α) (id id' : ℕ) (f : α → α) :
    (t.update id f).row id'
      = if id' = id then (t.row id).map f else t.row id' := by
  by_cases h : id' = id
  · subst h
    rw [row_update_self, if_pos rfl]
  · rw [row_update_of_ne t f h, if_neg h]

theorem update_eq_self (t : Table α) {id : ℕ} {f : α → α}
    (h : ∀ r, t.row id = some r → f r = r) : t.update id f = t := by
  refine Table.ext rfl (funext fun id' => ?_)
  rw [row_update]
  split
  · next hid =>
    subst hid
    cases hr : t.row id' with
    | none => rfl
    | some r => rw [Option.map_some, h r hr]
  · rfl

@[simp] theorem next_updateAll (t : Table α) (f : ℕ → α → α) :
    (t.updateAll f).next = t.next := rfl

@[simp] theorem row_updateAll (t : Table α) (f : ℕ → α → α) (id : ℕ) :
    (t.updateAll f).row id = (t.row id).map (f id) := rfl

@[simp] theorem next_deleteWhere (t : Table α) (p : ℕ → α → Bool) :
    (t.deleteWhere p).next = t.next := rfl

theorem row_deleteWhere_eq_some (t : Table α) (p : ℕ → α → Bool) {id : ℕ}
    {r : α} :
    (t.deleteWhere p).row id = some r ↔ t.row id = some r ∧ p id r = false := by
  show (t.row id).filter (fun r => !p id r) = some r ↔ _
  rw [Option.filter_eq_some_iff]
  simp

theorem row_deleteWhere_of_false (t : Table α) {p : ℕ → α → Bool} {id : ℕ}
    (h : ∀ r, p id r = false) : (t.deleteWhere p).row id = t.row id := by
  refine Option.ext fun r => ?_
  rw [row_deleteWhere_eq_some, and_iff_left (h r)]

@[simp] theorem mem_rows (t : Table α) {id : ℕ} {r : α} :
    (id, r) ∈ t.rows ↔ t.row id = some r := by
  unfold rows
  rw [List.mem_filterMap]
  constructor
  · rintro ⟨id', -, h⟩
    obtain ⟨r', hr', heq⟩ := Option.map_eq_some_iff.mp h
    obtain ⟨rfl, rfl⟩ := Prod.mk.inj heq
    exact hr'
  · intro h
    exact ⟨id, List.mem_range.mpr (t.row_lt h), by rw [h]; rfl⟩

theorem nodup_rows (t : Table α) : (t.rows.map Prod.fst).Nodup := by
  unfold rows
  rw [List.map_filterMap]
  refine List.Nodup.filterMap ?_ List.nodup_range
  intro id id' x hx hx'
  rw [Option.mem_def, Option.map_map, Option.map_eq_some_iff] at hx hx'
  obtain ⟨r, -, hid⟩ := hx
  obtain ⟨r', -, hid'⟩ := hx'
  exact hid.trans hid'.symm

theorem length_rows_le (t : Table α) : t.rows.length ≤ t.next :=
  (List.length_filterMap_le _ _).trans_eq List.length_range

theorem rows_updateAll (t : Table α) (f : ℕ → α → α) :
    (t.updateAll f).rows = t.rows.map fun r => (r.1, f r.1 r.2) := by
  unfold rows
  rw [List.map_filterMap]
  refine List.filterMap_congr fun id _ => ?_
  rw [row_updateAll, Option.map_map, Option.map_map]
  rfl

theorem rows_insert (t : Table α) (r : α) : (t.insert r).rows = t.rows ++ [(t.next, r)] := by
  unfold rows
  rw [next_insert, List.range_succ, List.filterMap_append]
  refine congrArg₂ _ (List.filterMap_congr fun id hid => ?_) ?_
  · rw [row_insert_of_ne t r (Nat.ne_of_lt (List.mem_range.mp hid))]
  · rw [List.filterMap_cons_some (b := (t.next, r)) (by rw [row_insert_next]; rfl)]
    rfl

theorem rows_deleteWhere (t : Table α) (p : ℕ → α → Bool) :
    (t.deleteWhere p).rows = t.rows.filter fun r => !p r.1 r.2 := by
  unfold rows
  rw [next_deleteWhere, List.filter_filterMap]
  refine List.filterMap_congr fun id _ => ?_
  show ((t.row id).filter fun r => !p id r).map (fun r => (id, r)) = _
  cases t.row id with
  | none => rfl
  | some r =>
    rw [Option.map_some, Option.filter_some, Option.filter_some]
    cases p id r <;> rfl

theorem sorted_rows (t : Table α) : t.rows.Pairwise (fun a b => a.1 < b.1) := by
  unfold rows
  rw [List.pairwise_filterMap]
  refine List.pairwise_lt_range.imp ?_
  intro id id' hlt a ha b hb
  obtain ⟨r, -, rfl⟩ := Option.map_eq_some_iff.mp ha
  obtain ⟨r', -, rfl⟩ := Option.map_eq_some_iff.mp hb
  exact hlt

/-- `SELECT … WHERE … ORDER BY id LIMIT 1`: the first row that satisfies a
test. -/
def first (t : Table α) (p : α → Bool) : Option (ℕ × α) :=
  t.rows.find? (fun r => p r.2)

/-- **The first row that satisfies a test** has the least id of them. -/
theorem first_eq_some (t : Table α) {p : α → Bool} {id : ℕ} {r : α} :
    t.first p = some (id, r)
      ↔ t.row id = some r ∧ p r = true
        ∧ ∀ id' r', t.row id' = some r' → p r' = true → id ≤ id' := by
  unfold first
  rw [List.find?_eq_some_iff_append]
  have hsorted := t.sorted_rows
  constructor
  · rintro ⟨hp, before, after, heq, hbefore⟩
    refine ⟨t.mem_rows.mp (by rw [heq]; simp), hp, ?_⟩
    intro id' r' hr' hp'
    have hmem : (id', r') ∈ before ++ (id, r) :: after := heq ▸ t.mem_rows.mpr hr'
    rw [heq] at hsorted
    rcases List.mem_append.mp hmem with hin | hin
    · have hnot := hbefore _ hin
      rw [hp'] at hnot
      exact absurd hnot (by decide)
    · rcases List.mem_cons.mp hin with hhead | htail
      · rw [(Prod.mk.inj hhead).1]
      · have hbehind := (List.pairwise_append.mp hsorted).2.1
        exact (List.rel_of_pairwise_cons hbehind htail).le
  · rintro ⟨hr, hp, hleast⟩
    obtain ⟨before, after, heq⟩ := List.append_of_mem (t.mem_rows.mpr hr)
    refine ⟨hp, before, after, heq, ?_⟩
    rintro ⟨id', r'⟩ hin
    rw [heq] at hsorted
    have hlt : id' < id :=
      (List.pairwise_append.mp hsorted).2.2 _ hin _ List.mem_cons_self
    have hr' : t.row id' = some r' :=
      t.mem_rows.mp (by rw [heq]; exact List.mem_append_left _ hin)
    cases hp' : p r' with
    | false => rfl
    | true => exact absurd (hleast id' r' hr' hp') (Nat.not_le.mpr hlt)

theorem first_eq_none (t : Table α) {p : α → Bool} :
    t.first p = none ↔ ∀ id r, t.row id = some r → p r = false := by
  unfold first
  rw [List.find?_eq_none]
  constructor
  · intro h id r hr
    simpa using h _ (t.mem_rows.mpr hr)
  · rintro h ⟨id, r⟩ hmem
    simpa using h id r (t.mem_rows.mp hmem)

theorem any_eq_false_iff (t : Table α) (p : α → Bool) :
    t.any p = false ↔ ∀ id r, t.row id = some r → p r = false := by
  unfold any
  rw [List.any_eq_false]
  constructor
  · intro h id r hr
    have hid := h id (List.mem_range.mpr (t.row_lt hr))
    rw [hr] at hid
    simpa using hid
  · intro h id _
    cases hr : t.row id with
    | none => simp
    | some r => simpa using h id r hr

end Table

/-! ## Rows in an order -/

/-- **A choice among tied rows**: what a database does with rows that its
`ORDER BY` leaves in no order. It takes one of the rows, if there is one. -/
structure TieBreak (α : Type*) where
  pick : List α → Option α
  pick_mem : ∀ {xs : List α} {x : α}, pick xs = some x → x ∈ xs
  isSome_pick : ∀ {xs : List α}, xs ≠ [] → (pick xs).isSome

namespace TieBreak

variable {α : Type*} (tie : TieBreak α) (key : α → ℕ)

def first : TieBreak α := ⟨List.head?, List.mem_of_head?, List.isSome_head?.mpr⟩

/-- `ORDER BY key DESC LIMIT 1`. -/
def latest (rows : List α) : Option α :=
  tie.pick (rows.filter (fun r => rows.all (fun r' => key r' ≤ key r)))

theorem latest_eq_some {rows : List α} {r : α}
    (h : tie.latest key rows = some r) :
    r ∈ rows ∧ ∀ r' ∈ rows, key r' ≤ key r := by
  obtain ⟨hr, hall⟩ := List.mem_filter.mp (tie.pick_mem h)
  exact ⟨hr, fun r' hr' => by simpa using List.all_eq_true.mp hall r' hr'⟩

theorem exists_greatest {rows : List α} (h : rows ≠ []) :
    ∃ r ∈ rows, ∀ r' ∈ rows, key r' ≤ key r := by
  cases hr : rows.argmax key with
  | none => exact absurd (List.argmax_eq_none.mp hr) h
  | some r => exact ⟨r, List.argmax_mem hr, fun r' hr' => List.le_of_mem_argmax hr' hr⟩

theorem exists_latest {rows : List α} (h : rows ≠ []) :
    ∃ r, tie.latest key rows = some r := by
  obtain ⟨r, hr, hmax⟩ := exists_greatest key h
  refine Option.isSome_iff_exists.mp (tie.isSome_pick (List.ne_nil_of_mem
    (List.mem_filter.mpr ⟨hr, List.all_eq_true.mpr fun r' hr' => ?_⟩)))
  exact decide_eq_true (hmax r' hr')

/-- The choice of one row, wherever it is among the tied ones. -/
def preferring [DecidableEq α] (r : α) : TieBreak α where
  pick xs := if r ∈ xs then some r else xs.head?
  pick_mem h := by
    split at h
    · next hr => exact Option.some.inj h ▸ hr
    · exact List.mem_of_head? h
  isSome_pick h := by
    split
    · rfl
    · exact List.isSome_head?.mpr h

/-- **Every row of the greatest key is taken under some choice.** -/
theorem latest_preferring [DecidableEq α] {rows : List α} {r : α} (hr : r ∈ rows)
    (hmax : ∀ r' ∈ rows, key r' ≤ key r) : (preferring r).latest key rows = some r := by
  refine if_pos (List.mem_filter.mpr ⟨hr, List.all_eq_true.mpr fun r' hr' => ?_⟩)
  exact decide_eq_true (hmax r' hr')

end TieBreak

/-- **An order of rows by a relation**: what a database answers to an `ORDER BY`
of several columns. Rows that may stand either way do so. -/
structure OrderBy {α : Type*} (r : α → α → Prop) where
  sort : List α → List α
  perm : ∀ xs, (sort xs).Perm xs
  sorted : ∀ xs, (sort xs).Pairwise r

/-- The order that keeps rows as they were inserted where the relation lets
them stand either way. -/
def OrderBy.insertion {α : Type*} (r : α → α → Prop) [DecidableRel r] [Std.Total r]
    [IsTrans α r] : OrderBy r where
  sort := List.insertionSort r
  perm := List.perm_insertionSort r
  sorted := List.pairwise_insertionSort r

/-- **An order of rows**: what a database answers to `ORDER BY key DESC`. Rows
of one key stand in any order. -/
structure Descending {α : Type*} (key : α → ℕ) where
  sort : List α → List α
  perm : ∀ xs, (sort xs).Perm xs
  sorted : ∀ xs, (sort xs).Pairwise (fun a b => key b ≤ key a)

namespace Descending

variable {α : Type*} {key : α → ℕ}

/-- The order that keeps rows of one key as they were inserted. -/
def insertion (key : α → ℕ) : Descending key where
  sort := List.insertionSort (fun a b => key b ≤ key a)
  perm := List.perm_insertionSort _
  sorted xs := by
    have htotal : Std.Total (fun a b : α => key b ≤ key a) :=
      ⟨fun a b => Nat.le_total (key b) (key a)⟩
    have htrans : IsTrans α (fun a b : α => key b ≤ key a) :=
      ⟨fun _ _ _ hab hbc => Nat.le_trans hbc hab⟩
    exact List.pairwise_insertionSort _ xs

variable (order : Descending key)

/-- `ORDER BY key DESC LIMIT n`. -/
def first (n : ℕ) (xs : List α) : List α := (order.sort xs).take n

theorem mem_of_mem_first {n : ℕ} {xs : List α} {x : α} (h : x ∈ order.first n xs) :
    x ∈ xs := (order.perm xs).mem_iff.mp (List.mem_of_mem_take h)

/-- **The first row in the order that satisfies a test** has the greatest key of
them. -/
theorem le_of_find?_sort {p : α → Bool} {xs : List α} {x y : α}
    (h : (order.sort xs).find? p = some x) (hy : y ∈ xs) (hp : p y = true) :
    key y ≤ key x := by
  obtain ⟨-, before, after, heq, hbefore⟩ := List.find?_eq_some_iff_append.mp h
  have hsorted := order.sorted xs
  have hmem := (order.perm xs).mem_iff.mpr hy
  rw [heq] at hsorted hmem
  rcases List.mem_append.mp hmem with hin | hin
  · have hnot := hbefore y hin
    rw [hp] at hnot
    exact absurd hnot (by decide)
  · rcases List.mem_cons.mp hin with rfl | hbehind
    · exact Nat.le_refl _
    · exact List.rel_of_pairwise_cons (List.pairwise_append.mp hsorted).2.1 hbehind

/-- What no two rows have in common, no two rows that are taken have. -/
theorem nodup_map_first {β : Type*} (n : ℕ) (f : α → β) {xs : List α}
    (h : (xs.map f).Nodup) : ((order.first n xs).map f).Nodup :=
  (((order.perm xs).map f).nodup_iff.mpr h).sublist ((List.take_sublist n _).map f)

theorem mem_first_of_length_le {n : ℕ} {xs : List α} (h : xs.length ≤ n) {x : α}
    (hx : x ∈ xs) : x ∈ order.first n xs := by
  unfold first
  rw [List.take_of_length_le ((order.perm xs).length_eq.trans_le h)]
  exact (order.perm xs).mem_iff.mpr hx

/-- **A row that enough rows precede is not taken.** -/
theorem notMem_first {n : ℕ} {xs : List α} {x : α}
    (h : n ≤ xs.countP (fun y => key x < key y)) : x ∉ order.first n xs := by
  intro hmem
  rw [← (order.perm xs).countP_eq] at h
  unfold first at hmem
  have hsorted := order.sorted xs
  generalize order.sort xs = ys at h hmem hsorted
  obtain ⟨i, hi, hx⟩ := List.getElem_of_mem hmem
  rw [List.length_take] at hi
  rw [List.getElem_take] at hx
  have hsplit : ys.countP (fun y => key x < key y)
      = (ys.take i).countP (fun y => key x < key y)
        + (ys.drop i).countP (fun y => key x < key y) := by
    rw [← List.countP_append, List.take_append_drop]
  have hbefore : (ys.take i).countP (fun y => key x < key y) ≤ i :=
    List.countP_le_length.trans (List.length_take_le i ys)
  -- no row behind it has a greater key
  have hbehind : (ys.drop i).countP (fun y => key x < key y) = 0 := by
    rw [List.countP_eq_zero]
    intro y hy
    obtain ⟨j, hj, rfl⟩ := List.getElem_of_mem hy
    rw [List.length_drop] at hj
    rw [List.getElem_drop]
    rcases Nat.eq_zero_or_pos j with rfl | hpos
    · simp [hx]
    · have := List.pairwise_iff_getElem.mp hsorted i (i + j) (by omega) (by omega)
        (by omega)
      rw [hx] at this
      simpa using this
  omega

/-- **Which rows are taken**, where no two have one key: those that few enough
precede. -/
theorem mem_first_iff {n : ℕ} {xs : List α} {x : α} (hx : x ∈ xs)
    (hkeys : (xs.map key).Nodup) :
    x ∈ order.first n xs ↔ xs.countP (fun y => key x < key y) < n := by
  refine ⟨fun h => Nat.not_le.mp fun hle => order.notMem_first hle h, fun h => ?_⟩
  by_contra hnot
  have hperm := order.perm xs
  have hstrict : (order.sort xs).Pairwise (fun a b => key b < key a) := by
    have hne := List.pairwise_map.mp ((hperm.map key).nodup_iff.mpr hkeys)
    exact ((order.sorted xs).and hne).imp fun h => Nat.lt_of_le_of_ne h.1 (Ne.symm h.2)
  have hmem := hperm.mem_iff.mpr hx
  rw [← hperm.countP_eq] at h
  unfold first at hnot
  generalize order.sort xs = ys at h hnot hstrict hmem
  rw [← List.take_append_drop n ys] at hstrict hmem h
  have hbehind : x ∈ ys.drop n := (List.mem_append.mp hmem).resolve_left hnot
  -- every row that is taken precedes it
  have hall : (ys.take n).countP (fun y => key x < key y) = (ys.take n).length := by
    rw [List.countP_eq_length]
    intro y hy
    exact decide_eq_true ((List.pairwise_append.mp hstrict).2.2 y hy x hbehind)
  have hlong := List.length_pos_of_mem hbehind
  rw [List.length_drop] at hlong
  rw [List.countP_append, hall, List.length_take] at h
  omega

end Descending
