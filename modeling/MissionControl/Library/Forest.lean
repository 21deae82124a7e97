import Mathlib.Data.List.MinMax
import Mathlib.Data.List.Nodup
import Mathlib.Data.List.Perm.Basic
import Mathlib.Logic.Relation

/-!
# Forests

Rows that name their parents make a forest, if every parent is a row and comes
before its children. `RoseTree.grow` unfolds a tree from a relation to children, and
fails where it is not done after so many levels. The result is `RoseTree.perm_nodes`:
a forest that is grown from the rows without a parent has each row at one place.

It is proved level by level. The rows at the top are taken off, the rows whose parents are
gone then are the top of what is left (`filter_atTop_belowTop`), and rows below the top are
fewer; so nothing is said of paths or of descendants.
-/

/-- **A tree**: a value, and the trees below it. -/
inductive RoseTree (α : Type*) where
  | node (value : α) (children : List (RoseTree α))

namespace RoseTree

variable {α : Type*}

mutual

/-- The values of a tree, each with the value it is directly below. -/
def placed (above : Option α) : RoseTree α → List (Option α × α)
  | node a ts => (above, a) :: placedIn (some a) ts

/-- The values of a forest, each with the value it is directly below. -/
def placedIn (above : Option α) : List (RoseTree α) → List (Option α × α)
  | [] => []
  | t :: ts => placed above t ++ placedIn above ts

end

def nodes (ts : List (RoseTree α)) : List α := (placedIn none ts).map Prod.snd

mutual

/-- What the values of a tree are does not depend on what the tree is below. -/
theorem map_snd_placed (above above' : Option α) :
    ∀ t : RoseTree α, (placed above t).map Prod.snd = (placed above' t).map Prod.snd
  | node _ _ => rfl

theorem map_snd_placedIn (above above' : Option α) :
    ∀ ts : List (RoseTree α), (placedIn above ts).map Prod.snd = (placedIn above' ts).map Prod.snd
  | [] => rfl
  | t :: ts => by
    rw [placedIn, placedIn, List.map_append, List.map_append, map_snd_placed above above' t,
      map_snd_placedIn above above' ts]

end

theorem nodes_cons (a : α) (children ts : List (RoseTree α)) :
    nodes (node a children :: ts) = a :: nodes children ++ nodes ts := by
  show a :: ((placedIn (some a) children ++ placedIn none ts).map Prod.snd) = _
  rw [List.map_append, map_snd_placedIn (some a) none]
  rfl

theorem nodes_append (ts us : List (RoseTree α)) : nodes (ts ++ us) = nodes ts ++ nodes us := by
  induction ts with
  | nil => rfl
  | cons t ts ih =>
    cases t with
    | node a children => rw [List.cons_append, nodes_cons, nodes_cons, ih, List.append_assoc]

/-! ## Growing -/

section Grow

variable (children : α → List α)

/-- **The tree that grows from a value**, with that many levels at most. -/
def grow : ℕ → α → Option (RoseTree α)
  | 0, _ => none
  | n + 1, a => ((children a).mapM (grow n)).map (node a)

theorem grow_eq_some {n : ℕ} {a : α} {t : RoseTree α} :
    grow children (n + 1) a = some t
      ↔ ∃ ts, (children a).mapM (grow children n) = some ts ∧ t = node a ts := by
  rw [grow, Option.map_eq_some_iff]
  exact exists_congr fun ts => and_congr_right fun _ => eq_comm

theorem exists_mapM {β : Type*} {f : α → Option β} {xs : List α}
    (h : ∀ x ∈ xs, ∃ y, f x = some y) : ∃ ys, xs.mapM f = some ys := by
  induction xs with
  | nil => exact ⟨[], rfl⟩
  | cons x xs ih =>
    obtain ⟨y, hy⟩ := h x List.mem_cons_self
    obtain ⟨ys, hys⟩ := ih fun x' hx' => h x' (List.mem_cons_of_mem _ hx')
    refine ⟨y :: ys, ?_⟩
    rw [List.mapM_cons, hy, hys]
    rfl

theorem mapM_cons_eq_some {β : Type*} {f : α → Option β} {x : α} {xs : List α}
    {zs : List β} :
    (x :: xs).mapM f = some zs ↔ ∃ y ys, f x = some y ∧ xs.mapM f = some ys ∧ zs = y :: ys := by
  rw [List.mapM_cons]
  cases f x with
  | none => simp
  | some y =>
    cases xs.mapM f with
    | none => simp
    | some ys => simp [eq_comm]

theorem mapM_eq_some_iff {β : Type*} {f : α → Option β} {xs : List α} {ys : List β} :
    xs.mapM f = some ys ↔ xs.map f = ys.map some := by
  induction xs generalizing ys with
  | nil =>
    rw [List.mapM_nil, List.map_nil, eq_comm (a := []), List.map_eq_nil_iff]
    exact ⟨fun h => (Option.some.inj h).symm, fun h => by rw [h]; rfl⟩
  | cons x xs ih =>
    rw [mapM_cons_eq_some, List.map_cons]
    constructor
    · rintro ⟨y, ys, hy, hys, rfl⟩
      rw [List.map_cons, hy, ih.mp hys]
    · intro h
      cases ys with
      | nil => cases h
      | cons y ys =>
        obtain ⟨hy, hys⟩ := List.cons.inj h
        exact ⟨y, ys, hy, ih.mpr hys, rfl⟩

/-- **A tree grows in as many levels as there can be**: the measure of the children is
smaller. -/
theorem exists_grow {μ : α → ℕ} {P : α → Prop}
    (hchildren : ∀ a, P a → ∀ c ∈ children a, P c ∧ μ c < μ a) {n : ℕ} {a : α} (ha : P a)
    (hn : μ a < n) : ∃ t, grow children n a = some t := by
  induction n generalizing a with
  | zero => exact absurd hn (Nat.not_lt_zero _)
  | succ n ih =>
    have hgrow : ∀ c ∈ children a, ∃ t, grow children n c = some t := by
      intro c hc
      obtain ⟨hPc, hμ⟩ := hchildren a ha c hc
      exact ih hPc (Nat.lt_of_lt_of_le hμ (Nat.lt_succ_iff.mp hn))
    obtain ⟨ts, hts⟩ := exists_mapM hgrow
    exact ⟨node a ts, (grow_eq_some children).mpr ⟨ts, hts, rfl⟩⟩

theorem exists_mem_placed {f : α → Option (RoseTree α)} {above : Option α} {xs : List α}
    {ts : List (RoseTree α)} (h : xs.mapM f = some ts) {x : Option α × α}
    (hx : x ∈ placedIn above ts) : ∃ y ∈ xs, ∃ t, f y = some t ∧ x ∈ placed above t := by
  induction xs generalizing ts with
  | nil =>
    obtain rfl : ts = [] := (Option.some.inj h).symm
    exact absurd hx List.not_mem_nil
  | cons y xs ih =>
    obtain ⟨t, us, ht, hus, rfl⟩ := mapM_cons_eq_some.mp h
    rcases List.mem_append.mp hx with hx | hx
    · exact ⟨y, List.mem_cons_self, t, ht, hx⟩
    · obtain ⟨y', hy', hrest⟩ := ih hus hx
      exact ⟨y', List.mem_cons_of_mem _ hy', hrest⟩

/-- **What is placed below a value is a child of it.** -/
theorem placed_grow {n : ℕ} {a : α} {t : RoseTree α} (h : grow children n a = some t)
    {above : Option α} {x : Option α × α} (hx : x ∈ placed above t) :
    x = (above, a) ∨ ∃ b, x.1 = some b ∧ x.2 ∈ children b := by
  induction n generalizing a t above with
  | zero => cases h
  | succ n ih =>
    obtain ⟨ts, hts, rfl⟩ := (grow_eq_some children).mp h
    rcases List.mem_cons.mp hx with rfl | hx
    · exact .inl rfl
    · obtain ⟨c, hc, t, ht, hx⟩ := exists_mem_placed hts hx
      rcases ih ht hx with rfl | hbelow
      · exact .inr ⟨a, rfl, hc⟩
      · exact .inr hbelow

theorem placedIn_grow {n : ℕ} {roots : List α} {ts : List (RoseTree α)}
    (h : roots.mapM (grow children n) = some ts) {x : Option α × α}
    (hx : x ∈ placedIn none ts) :
    x.1 = none ∧ x.2 ∈ roots ∨ ∃ b, x.1 = some b ∧ x.2 ∈ children b := by
  obtain ⟨r, hr, t, ht, hx⟩ := exists_mem_placed h hx
  rcases placed_grow children ht hx with rfl | hbelow
  · exact .inl ⟨rfl, hr⟩
  · exact .inr hbelow

/-- **The first level of a forest** is taken off: below it are the trees of the children. -/
theorem nodes_grow_succ {n : ℕ} {roots : List α} {ts : List (RoseTree α)}
    (h : roots.mapM (grow children (n + 1)) = some ts) :
    ∃ us, (roots.flatMap children).mapM (grow children n) = some us
      ∧ (nodes ts).Perm (roots ++ nodes us) := by
  induction roots generalizing ts with
  | nil =>
    obtain rfl : ts = [] := (Option.some.inj h).symm
    exact ⟨[], rfl, List.Perm.refl _⟩
  | cons a roots ih =>
    obtain ⟨t, ts, ht, hts, rfl⟩ := mapM_cons_eq_some.mp h
    obtain ⟨below, hbelow, rfl⟩ := (grow_eq_some children).mp ht
    obtain ⟨us, hus, hperm⟩ := ih hts
    refine ⟨below ++ us, ?_, ?_⟩
    · rw [List.flatMap_cons, List.mapM_append, hbelow, hus]
      rfl
    · rw [nodes_cons, nodes_append]
      refine List.Perm.cons a ?_
      calc nodes below ++ nodes ts
        _ |>.Perm (nodes below ++ (roots ++ nodes us)) := hperm.append_left _
        _ |>.Perm ((nodes below ++ roots) ++ nodes us) := .of_eq (List.append_assoc _ _ _).symm
        _ |>.Perm ((roots ++ nodes below) ++ nodes us) :=
          List.perm_append_comm.append_right _
        _ |>.Perm (roots ++ (nodes below ++ nodes us)) := .of_eq (List.append_assoc _ _ _)

end Grow

/-! ## Rows that name their parents -/

section Parents

variable (id : α → ℕ) (parent : α → Option ℕ)

theorem perm_flatMap_filter (xs : List α) {ys : List α} (hys : (ys.map id).Nodup) :
    (ys.flatMap fun y => xs.filter fun x => parent x = some (id y)).Perm
      (xs.filter fun x => ys.any fun y => parent x = some (id y)) := by
  induction ys with
  | nil =>
    rw [List.flatMap_nil]
    exact .of_eq (List.filter_eq_nil_iff.mpr fun x _ => Bool.false_ne_true).symm
  | cons y ys ih =>
    rw [List.map_cons, List.nodup_cons] at hys
    rw [List.flatMap_cons]
    refine ((ih hys.2).append_left _).trans ?_
    -- no row has two parents
    have hsplit := List.filter_append_perm (fun x => parent x = some (id y))
      (xs.filter fun x => (y :: ys).any fun y => parent x = some (id y))
    refine List.Perm.trans (.of_eq ?_) hsplit
    rw [List.filter_filter, List.filter_filter]
    refine congrArg₂ _ (List.filter_congr fun x _ => ?_) (List.filter_congr fun x _ => ?_)
    · by_cases hx : parent x = some (id y)
      · simp [hx]
      · simp [hx]
    · by_cases hx : parent x = some (id y)
      · have hnone : ys.any (fun y' => parent x = some (id y')) = false := by
          refine List.any_eq_false.mpr fun y' hy' => ?_
          rw [hx, decide_eq_true_eq, Option.some.injEq]
          exact fun heq => hys.1 (heq ▸ List.mem_map_of_mem hy')
        rw [List.any_cons, hnone, hx]
        simp
      · simp [hx]

/-- A row is at the top of some rows, if its parent is not among them. -/
def atTop (rows : List α) (x : α) : Bool := !rows.any fun y => parent x = some (id y)

/-- The rows that are not at the top. -/
def belowTop (rows : List α) : List α := rows.filter fun x => !atTop id parent rows x

variable {id parent}

theorem atTop_eq_false {rows : List α} {x : α} :
    atTop id parent rows x = false ↔ ∃ y ∈ rows, parent x = some (id y) := by
  unfold atTop
  rw [Bool.not_eq_false', List.any_eq_true]
  simp only [decide_eq_true_eq]

theorem mem_belowTop {rows : List α} {x : α} :
    x ∈ belowTop id parent rows ↔ x ∈ rows ∧ ∃ y ∈ rows, parent x = some (id y) := by
  unfold belowTop
  rw [List.mem_filter, Bool.not_eq_true', atTop_eq_false]

/-- Of some rows the first one is at the top, as parents come before their children. -/
theorem eq_nil_of_filter_atTop {rows : List α}
    (hparent : ∀ x ∈ rows, ∀ p, parent x = some p → p < id x)
    (h : rows.filter (atTop id parent rows) = []) : rows = [] := by
  cases hleast : rows.argmin id with
  | none => exact List.argmin_eq_none.mp hleast
  | some x =>
    have hx := List.argmin_mem hleast
    have hnot := List.filter_eq_nil_iff.mp h x hx
    obtain ⟨y, hy, hparentx⟩ := atTop_eq_false.mp (Bool.eq_false_of_not_eq_true hnot)
    exact absurd (List.le_of_mem_argmin hy hleast) (Nat.not_le.mpr (hparent x hx _ hparentx))

/-- **The second level**: at the top of the rows below are the children of the rows at
the top. -/
theorem filter_atTop_belowTop {rows : List α} (hids : (rows.map id).Nodup) :
    (belowTop id parent rows).filter (atTop id parent (belowTop id parent rows))
      = rows.filter fun x =>
        (rows.filter (atTop id parent rows)).any fun y => parent x = some (id y) := by
  show (rows.filter _).filter _ = _
  rw [List.filter_filter]
  refine List.filter_congr fun x hx => ?_
  rw [Bool.eq_iff_iff, Bool.and_eq_true, List.any_eq_true]
  simp only [decide_eq_true_eq]
  constructor
  · rintro ⟨htop, hbelow⟩
    obtain ⟨y, hy, hpar⟩ := atTop_eq_false.mp ((Bool.not_eq_true' _).mp hbelow)
    refine ⟨y, List.mem_filter.mpr ⟨hy, ?_⟩, hpar⟩
    -- the parent is not below, or the row were not at the top of those that are
    by_contra hno
    have hybelow : y ∈ belowTop id parent rows :=
      mem_belowTop.mpr ⟨hy, atTop_eq_false.mp (Bool.eq_false_of_not_eq_true hno)⟩
    rw [atTop_eq_false.mpr ⟨y, hybelow, hpar⟩] at htop
    cases htop
  · rintro ⟨y, hy, hpar⟩
    obtain ⟨hyrows, hytop⟩ := List.mem_filter.mp hy
    refine ⟨?_, (Bool.not_eq_true' _).mpr (atTop_eq_false.mpr ⟨y, hyrows, hpar⟩)⟩
    by_contra hno
    obtain ⟨y', hy', hpar'⟩ := atTop_eq_false.mp (Bool.eq_false_of_not_eq_true hno)
    obtain ⟨hyrows', hparent'⟩ := mem_belowTop.mp hy'
    obtain rfl : y = y' := List.inj_on_of_nodup_map hids hyrows hyrows'
      (Option.some.inj (hpar.symm.trans hpar'))
    rw [atTop_eq_false.mpr hparent'] at hytop
    cases hytop

variable (id parent) in
/-- **A forest has each row at one place**: it is grown from the rows at the top, where
parents come before their children and have them as their children. -/
theorem perm_nodes {children : α → List α} {n : ℕ} {rows : List α}
    (hids : (rows.map id).Nodup) (hparent : ∀ x ∈ rows, ∀ p, parent x = some p → p < id x)
    (hchildren : ∀ a ∈ rows, (children a).Perm (rows.filter fun x => parent x = some (id a)))
    {roots : List α} (hroots : roots.Perm (rows.filter (atTop id parent rows)))
    {ts : List (RoseTree α)} (h : roots.mapM (grow children n) = some ts) :
    (nodes ts).Perm rows := by
  induction n generalizing rows roots ts with
  | zero =>
    cases roots with
    | cons r roots =>
      obtain ⟨t, us, ht, -, -⟩ := mapM_cons_eq_some.mp h
      cases ht
    | nil =>
      obtain rfl : ts = [] := (Option.some.inj h).symm
      rw [eq_nil_of_filter_atTop hparent hroots.symm.eq_nil]
      exact List.Perm.refl _
  | succ n ih =>
    obtain ⟨us, hus, hperm⟩ := nodes_grow_succ children h
    have hsub : (belowTop id parent rows).Sublist rows := List.filter_sublist
    -- the rows at the roots, and the rows below them
    refine hperm.trans (((hroots.append_right _).trans (List.Perm.append_left _ ?_)).trans
      (List.filter_append_perm (atTop id parent rows) rows))
    refine ih (hids.sublist (hsub.map id))
      (fun x hx => hparent x (hsub.subset hx)) (fun a ha => ?_) ?_ hus
    · -- the children of a row below are below
      refine (hchildren a (hsub.subset ha)).trans (.of_eq ?_)
      unfold belowTop
      rw [List.filter_filter]
      refine List.filter_congr fun x hx => ?_
      by_cases hpar : parent x = some (id a)
      · rw [atTop_eq_false.mpr ⟨a, hsub.subset ha, hpar⟩, Bool.not_false, Bool.and_true]
      · rw [decide_eq_false hpar, Bool.false_and]
    · -- the next level: the children of the rows at the roots
      rw [filter_atTop_belowTop hids]
      have htops : ((rows.filter (atTop id parent rows)).map id).Nodup :=
        hids.sublist (List.filter_sublist.map id)
      calc roots.flatMap children
        _ |>.Perm (roots.flatMap fun a => rows.filter fun x => parent x = some (id a)) :=
          List.Perm.flatMap_left roots fun a ha =>
            hchildren a (List.mem_of_mem_filter (hroots.mem_iff.mp ha))
        _ |>.Perm ((rows.filter (atTop id parent rows)).flatMap fun a =>
            rows.filter fun x => parent x = some (id a)) := hroots.flatMap_right _
        _ |>.Perm (rows.filter fun x => (rows.filter (atTop id parent rows)).any fun y =>
            parent x = some (id y)) := perm_flatMap_filter id parent rows htops

end Parents

end RoseTree
