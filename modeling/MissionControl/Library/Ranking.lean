import Mathlib.Data.List.Perm.Subperm
import MissionControl.Library.Table

/-!
# The first rows of an order

What a query with `ORDER BY` and `LIMIT n` should answer with: the `n` first of its rows
in the order (`IsFirst`). It does, however it orders the rows that may stand either way
(`OrderBy.isFirst_first`, `Descending.isFirst_first`).

A query may let rows through that it should not. If the answer is to be right for every
order of rows of one key, each of those rows has to be preceded by enough of the others:
`Descending.favoring` is the order in which they come as early as they can.
-/

/-- **The first rows**: `ys` are `n` rows of `xs`, or all where there are fewer, in their
order, and each of them precedes the rows that are left out. -/
structure IsFirst {α : Type*} (r : α → α → Prop) (n : ℕ) (xs ys : List α) : Prop where
  subperm : ys.Subperm xs
  length : ys.length = min n xs.length
  sorted : ys.Pairwise r
  precedes : ∀ y ∈ ys, ∀ x ∈ xs, x ∉ ys → r y x

namespace IsFirst

variable {α : Type*} {r : α → α → Prop} {n : ℕ} {xs ys : List α}

theorem take (hperm : ys.Perm xs) (hsorted : ys.Pairwise r) : IsFirst r n xs (ys.take n) := by
  refine ⟨(List.take_sublist n ys).subperm.trans hperm.subperm, ?_,
    hsorted.sublist (List.take_sublist n ys), fun y hy x hx hnot => ?_⟩
  · rw [List.length_take, hperm.length_eq]
  · have hmem := hperm.mem_iff.mpr hx
    rw [← List.take_append_drop n ys] at hsorted hmem
    exact (List.pairwise_append.mp hsorted).2.2 y hy x ((List.mem_append.mp hmem).resolve_left hnot)

theorem mem (h : IsFirst r n xs ys) {y : α} (hy : y ∈ ys) : y ∈ xs := h.subperm.subset hy

theorem mono {r' : α → α → Prop} (h : IsFirst r n xs ys)
    (himp : ∀ a ∈ xs, ∀ b ∈ xs, r a b → r' a b) : IsFirst r' n xs ys where
  subperm := h.subperm
  length := h.length
  sorted := h.sorted.imp_of_mem fun ha hb hab => himp _ (h.mem ha) _ (h.mem hb) hab
  precedes y hy x hx hnot := himp y (h.mem hy) x hx (h.precedes y hy x hx hnot)

theorem head_precedes {y : α} (h : IsFirst r n xs (y :: ys)) (hrefl : r y y) {x : α}
    (hx : x ∈ xs) : r y x := by
  by_cases hmem : x ∈ y :: ys
  · rcases List.mem_cons.mp hmem with rfl | hbehind
    · exact hrefl
    · exact List.rel_of_pairwise_cons h.sorted hbehind
  · exact h.precedes y List.mem_cons_self x hx hmem

/-- **A row that few enough of the others may precede comes first**, or another one that
satisfies the test. -/
theorem exists_mem (h : IsFirst r n xs ys) {p : α → Bool} [DecidableRel r] {x : α}
    (hx : x ∈ xs) (hp : p x = true)
    (hfew : xs.countP (fun y => !p y && decide (r y x)) < n) : ∃ y ∈ ys, p y = true := by
  by_contra hnone
  have hothers : ∀ y ∈ ys, p y = false := fun y hy =>
    Bool.eq_false_iff.mpr fun hpy => hnone ⟨y, hy, hpy⟩
  have hnot : x ∉ ys := fun hin => Bool.false_ne_true ((hothers x hin).symm.trans hp)
  have hall : ys.countP (fun y => !p y && decide (r y x)) = ys.length := by
    rw [List.countP_eq_length]
    intro y hy
    rw [hothers y hy, decide_eq_true (h.precedes y hy x hx hnot)]
    rfl
  have hle := h.subperm.countP_le fun y => !p y && decide (r y x)
  have hlength := h.length
  rw [hall] at hle
  rcases Nat.le_total n xs.length with hn | hn
  · rw [Nat.min_eq_left hn] at hlength
    omega
  · rw [Nat.min_eq_right hn] at hlength
    exact hnot ((h.subperm.perm_of_length_le hlength.ge).mem_iff.mpr hx)

/-- **A row that is taken has fewer than `n` strictly in front of it.** -/
theorem countP_lt (h : IsFirst r n xs ys) (hnodup : xs.Nodup) [DecidableRel r] {x : α}
    (hx : x ∈ ys) (hrefl : r x x) : xs.countP (fun y => !decide (r x y)) < n := by
  have hnodups : (x :: xs.filter fun y => !decide (r x y)).Nodup := by
    refine List.nodup_cons.mpr ⟨fun hin => ?_, hnodup.filter _⟩
    have hnot := (List.mem_filter.mp hin).2
    rw [decide_eq_true hrefl] at hnot
    cases hnot
  -- what is strictly in front of a row that is taken is taken
  have hsubset : (x :: xs.filter fun y => !decide (r x y)) ⊆ ys := by
    refine List.cons_subset.mpr ⟨hx, fun y hy => ?_⟩
    obtain ⟨hy, hstrict⟩ := List.mem_filter.mp hy
    by_contra hnot
    rw [decide_eq_true (h.precedes x hx y hy hnot)] at hstrict
    cases hstrict
  have hle := (List.subperm_of_subset hnodups hsubset).length_le
  rw [List.length_cons, ← List.countP_eq_length_filter, h.length] at hle
  exact hle.trans (Nat.min_le_left _ _)

/-- **Rows that are the first from both ends** are all there are. -/
theorem length_le_of_swap {zs : List α} (h : IsFirst r n xs ys)
    (hswap : IsFirst (fun a b => r b a) n xs zs) (hsubset : zs ⊆ ys) (hn : 0 < n)
    (hnodup : xs.Nodup) (hanti : ∀ a ∈ xs, ∀ b ∈ xs, r a b → r b a → a = b) :
    xs.length ≤ n := by
  by_contra hmore
  have hlength := h.length
  have hlengthSwap := hswap.length
  rw [Nat.min_eq_left (Nat.le_of_not_le hmore)] at hlength hlengthSwap
  -- a row that is left out comes before and behind every one that is taken
  obtain ⟨x, hx, hnot⟩ : ∃ x ∈ xs, x ∉ ys := by
    by_contra hall
    have hle := (List.subperm_of_subset hnodup fun x hx => by
      by_contra hnot
      exact hall ⟨x, hx, hnot⟩ : xs.Subperm ys).length_le
    exact hmore (hlength ▸ hle)
  obtain ⟨z, hz⟩ := List.exists_mem_of_length_pos (hlengthSwap ▸ hn)
  have hzx := h.precedes z (hsubset hz) x hx hnot
  have hxz := hswap.precedes z hz x hx fun hin => hnot (hsubset hin)
  exact hnot (hanti z (hswap.mem hz) x hx hzx hxz ▸ hsubset hz)

end IsFirst

/-- `ORDER BY … LIMIT n`. -/
def OrderBy.first {α : Type*} {r : α → α → Prop} (order : OrderBy r) (n : ℕ) (xs : List α) :
    List α := (order.sort xs).take n

theorem OrderBy.isFirst_first {α : Type*} {r : α → α → Prop} (order : OrderBy r) (n : ℕ)
    (xs : List α) : IsFirst r n xs (order.first n xs) :=
  .take (order.perm xs) (order.sorted xs)

namespace Descending

variable {α : Type*} {key : α → ℕ} (order : Descending key)

/-- **What is taken first are the latest.** -/
theorem isFirst_first (n : ℕ) (xs : List α) :
    IsFirst (fun a b => key b ≤ key a) n xs (order.first n xs) :=
  .take (order.perm xs) (order.sorted xs)

/-- The order in which the rows of one key that satisfy a test come first. -/
def favoring (key : α → ℕ) (p : α → Bool) : Descending key where
  sort := (insertion fun a => 2 * key a + (p a).toNat).sort
  perm := (insertion _).perm
  sorted xs := by
    refine ((insertion fun a => 2 * key a + (p a).toNat).sorted xs).imp ?_
    intro a b h
    have hle := Bool.toNat_le (p a)
    omega

/-- **A row that few enough of the others precede comes first**, or another one that
satisfies the test, in the order that favours these. -/
theorem exists_mem_first_favoring {n : ℕ} {xs : List α} {p : α → Bool} {x : α} (hx : x ∈ xs)
    (hp : p x = true) (hfew : xs.countP (fun y => !p y && decide (key x < key y)) < n) :
    ∃ y ∈ (favoring key p).first n xs, p y = true := by
  have hfirst : IsFirst (fun a b => 2 * key b + (p b).toNat ≤ 2 * key a + (p a).toNat) n xs
      ((favoring key p).first n xs) :=
    (insertion fun a => 2 * key a + (p a).toNat).isFirst_first n xs
  refine hfirst.exists_mem hx hp ((List.countP_mono_left fun y _ hy => ?_).trans_lt hfew)
  obtain ⟨hothers, hle⟩ := Bool.and_eq_true_iff.mp hy
  have hother : p y = false := by simpa using hothers
  have hle := of_decide_eq_true hle
  rw [hp, hother] at hle
  rw [hother, Bool.not_false, Bool.true_and, decide_eq_true_eq]
  simp only [Bool.toNat_true, Bool.toNat_false] at hle
  omega

/-- **Rows that should not be let through do no harm** where enough of the others precede
each of them. -/
theorem isFirst_first_filter {n : ℕ} {xs : List α} {p : α → Bool}
    (hbad : ∀ x ∈ xs, p x = false → n ≤ xs.countP fun y => p y && decide (key x < key y)) :
    IsFirst (fun a b => key b ≤ key a) n (xs.filter p) (order.first n xs) := by
  have hfirst := order.isFirst_first n xs
  have hgood : ∀ y ∈ order.first n xs, p y = true := by
    intro y hy
    cases hp : p y with
    | true => rfl
    | false =>
      refine absurd hy (order.notMem_first ((hbad y (hfirst.mem hy) hp).trans ?_))
      exact List.countP_mono_left fun z _ hz => (Bool.and_eq_true_iff.mp hz).2
  refine ⟨?_, ?_, hfirst.sorted, fun y hy x hx hnot =>
    hfirst.precedes y hy x (List.mem_filter.mp hx).1 hnot⟩
  · have hsublist := (List.take_sublist n (order.sort xs)).filter p
    change ((order.first n xs).filter p).Sublist _ at hsublist
    rw [List.filter_eq_self.mpr hgood] at hsublist
    exact hsublist.subperm.trans ((order.perm xs).filter p).subperm
  · rw [hfirst.length]
    by_cases hall : ∀ x ∈ xs, p x = true
    · rw [List.filter_eq_self.mpr hall]
    · push Not at hall
      obtain ⟨x, hx, hnot⟩ := hall
      -- there are enough of the others
      have hmany : n ≤ (xs.filter p).length := by
        rw [← List.countP_eq_length_filter]
        refine (hbad x hx (Bool.eq_false_iff.mpr hnot)).trans ?_
        exact List.countP_mono_left fun z _ hz => (Bool.and_eq_true_iff.mp hz).1
      rw [Nat.min_eq_left hmany, Nat.min_eq_left (hmany.trans (List.length_filter_le _ _))]

/-- **Whatever the order of rows of one key, the answer is right** exactly where enough of
the others precede each row that should not be let through. -/
theorem forall_isFirst_filter_iff {n : ℕ} {xs : List α} {p : α → Bool} :
    (∀ order : Descending key,
        IsFirst (fun a b => key b ≤ key a) n (xs.filter p) (order.first n xs))
      ↔ ∀ x ∈ xs, p x = false →
        n ≤ xs.countP fun y => p y && decide (key x < key y) := by
  refine ⟨fun h x hx hp => ?_, fun h order => order.isFirst_first_filter h⟩
  by_contra hfew
  rw [Nat.not_le] at hfew
  obtain ⟨y, hy, hbad⟩ := exists_mem_first_favoring (p := fun x => !p x) hx
    (by rw [hp]; rfl) (by simpa using hfew)
  have hgood := (List.mem_filter.mp ((h (favoring key fun x => !p x)).mem hy)).2
  rw [hgood] at hbad
  exact Bool.false_ne_true hbad

end Descending

theorem pairwise_insertionSort_key {α : Type*} (key : α → ℕ) (xs : List α) :
    (xs.insertionSort fun a b => key a ≤ key b).Pairwise fun a b => key a ≤ key b := by
  have htotal : Std.Total fun a b : α => key a ≤ key b := ⟨fun a b => Nat.le_total _ _⟩
  have htrans : IsTrans α fun a b => key a ≤ key b := ⟨fun _ _ _ => Nat.le_trans⟩
  exact List.pairwise_insertionSort _ xs

/-! ## Rows told by their ids -/

/-- Two lists with the same images are one, if no two of their elements have the same
image. -/
theorem List.eq_of_map_eq {α β : Type*} {f : α → β} {xs ys : List α}
    (hinj : ∀ a ∈ xs, ∀ b ∈ ys, f a = f b → a = b) (h : xs.map f = ys.map f) : xs = ys := by
  induction xs generalizing ys with
  | nil => exact (List.map_eq_nil_iff.mp h.symm).symm
  | cons a xs ih =>
    cases ys with
    | nil => cases h
    | cons b ys =>
      obtain ⟨hhead, htail⟩ := List.cons.inj h
      rw [hinj a List.mem_cons_self b List.mem_cons_self hhead,
        ih (fun a ha b hb => hinj a (List.mem_cons_of_mem _ ha) b (List.mem_cons_of_mem _ hb))
          htail]

theorem Table.eq_of_fst_eq {α : Type*} {t : Table α} {a b : ℕ × α} (ha : a ∈ t.rows)
    (hb : b ∈ t.rows) (h : a.1 = b.1) : a = b := by
  refine Prod.ext h (Option.some.inj ?_)
  rw [← t.mem_rows.mp ha, h]
  exact t.mem_rows.mp hb

section Count

variable {α β : Type*} {t : Table α} {t' : Table β} {p : ℕ × α → Bool} {q : ℕ × β → Bool}

theorem Table.map_fst_subset (h : ∀ id r, t.row id = some r → p (id, r) = true →
      ∃ r', t'.row id = some r' ∧ q (id, r') = true) :
    (t.rows.filter p).map Prod.fst ⊆ (t'.rows.filter q).map Prod.fst := by
  intro id hid
  obtain ⟨⟨id, r⟩, hr, rfl⟩ := List.mem_map.mp hid
  obtain ⟨hrow, hp⟩ := List.mem_filter.mp hr
  obtain ⟨r', hr', hq⟩ := h id r (t.mem_rows.mp hrow) hp
  exact List.mem_map.mpr ⟨(id, r'), List.mem_filter.mpr ⟨t'.mem_rows.mpr hr', hq⟩, rfl⟩

theorem Table.countP_rows_le (h : ∀ id r, t.row id = some r → p (id, r) = true →
      ∃ r', t'.row id = some r' ∧ q (id, r') = true) :
    t.rows.countP p ≤ t'.rows.countP q := by
  have hle := (List.subperm_of_subset
    (t.nodup_rows.sublist (List.filter_sublist.map _)) (Table.map_fst_subset h)).length_le
  rw [List.length_map, List.length_map] at hle
  rw [List.countP_eq_length_filter, List.countP_eq_length_filter]
  exact hle

theorem Table.countP_rows_lt (h : ∀ id r, t.row id = some r → p (id, r) = true →
      ∃ r', t'.row id = some r' ∧ q (id, r') = true) {id : ℕ} {r' : β}
    (hrow : t'.row id = some r') (hq : q (id, r') = true)
    (hnone : ∀ r, t.row id = some r → p (id, r) = false) :
    t.rows.countP p < t'.rows.countP q := by
  have hnot : id ∉ (t.rows.filter p).map Prod.fst := by
    intro hin
    obtain ⟨⟨id, r⟩, hr, rfl⟩ := List.mem_map.mp hin
    obtain ⟨hr, hp⟩ := List.mem_filter.mp hr
    exact Bool.false_ne_true ((hnone r (t.mem_rows.mp hr)).symm.trans hp)
  have hin : id ∈ (t'.rows.filter q).map Prod.fst :=
    List.mem_map.mpr ⟨(id, r'), List.mem_filter.mpr ⟨t'.mem_rows.mpr hrow, hq⟩, rfl⟩
  have hle := (List.subperm_of_subset (List.nodup_cons.mpr
    ⟨hnot, t.nodup_rows.sublist (List.filter_sublist.map _)⟩)
    (List.cons_subset.mpr ⟨hin, Table.map_fst_subset h⟩)).length_le
  rw [List.length_cons, List.length_map, List.length_map] at hle
  rw [List.countP_eq_length_filter, List.countP_eq_length_filter]
  exact hle

end Count

theorem Table.count_filter_rows {α : Type*} (t : Table α) (p : α → Bool) (id : ℕ) :
    ((t.rows.filter fun r => p r.2).map Prod.fst).count id = ((t.row id).any p).toNat := by
  have hnodup : ((t.rows.filter fun r => p r.2).map Prod.fst).Nodup :=
    t.nodup_rows.sublist (List.filter_sublist.map _)
  have hmem : id ∈ (t.rows.filter fun r => p r.2).map Prod.fst ↔ (t.row id).any p = true := by
    rw [Option.any_eq_true, List.mem_map]
    constructor
    · rintro ⟨⟨id, r⟩, hr, rfl⟩
      exact ⟨r, t.mem_rows.mp (List.mem_filter.mp hr).1, (List.mem_filter.mp hr).2⟩
    · rintro ⟨r, hr, hp⟩
      exact ⟨(id, r), List.mem_filter.mpr ⟨t.mem_rows.mpr hr, hp⟩, rfl⟩
  cases hany : (t.row id).any p with
  | false =>
    rw [hany] at hmem
    exact List.count_eq_zero_of_not_mem fun hin => Bool.false_ne_true (hmem.mp hin)
  | true => exact List.count_eq_one_of_mem hnodup (hmem.mpr hany)
