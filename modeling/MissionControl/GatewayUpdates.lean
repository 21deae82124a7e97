import Mathlib.Data.List.Pairwise
import MissionControl.GatewayConfig
import MissionControl.NestedPaths

/-!
# Updates of the configuration that are applied exactly

`PUT /api/gateway-config` assigns values to paths one after the other. None of the paths
goes on from another one here, so that each update has its own place. They are applied
exactly (`AppliedExactly`) if every value stands at its path, what is on the way stays an
object or an array, or is a new object, and what stands elsewhere is as it was.

A request may succeed without that. A name on the way that is inherited leads out of the
configuration, to an object that all others share; a name that is no index is not written
for an array; an index far beyond the end of an array makes other elements; a `__proto__`
becomes the prototype. The updates are applied exactly, and nothing else is assigned to, if
and only if they fit the configuration (`appliedExactly_iff`).
-/

namespace MissionControl

/-- **The updates are applied exactly** to a configuration. -/
structure AppliedExactly (old : Json) (updates : List (String × Json)) (new : Json) :
    Prop where
  set : ∀ u ∈ updates, new.valueAt (splitDots u.1) = some u.2
  /-- What is on the way stays what it is, or is a new object. -/
  way : ∀ u ∈ updates, ∀ path, path <+: splitDots u.1 → path ≠ splitDots u.1 →
    ∃ y, new.valueAt path = some y ∧ (∀ w, old.valueAt path = some w → SameKind w y)
      ∧ (old.valueAt path = none → SameKind (.obj []) y)
  rest : ∀ path, (∀ u ∈ updates, Unrelated path (splitDots u.1)) →
    new.valueAt path = old.valueAt path

/-- **No update leaves the tree**: nothing but the configuration is assigned to. -/
def StaysInTree (rt : Runtime) (around : String → Surroundings) (old : Json)
    (updates : List (String × Json)) : Prop :=
  ∀ first u rest reached, updates = first ++ u :: rest →
    applyUpdates rt around first old = .ok reached →
      escapes (around u.1) (splitDots u.1) reached = false

/-- **The updates fit the configuration.** -/
structure Fits (around : String → Surroundings) (old : Json) (updates : List (String × Json)) :
    Prop where
  /-- What is on the way is an object, or an array where the next name is an index. -/
  ways : ∀ u ∈ updates, ∀ path key rest, splitDots u.1 = path ++ key :: rest →
    ∀ x, old.valueAt path = some x → x.takes key = true
  /-- An element beyond the end of an array has others up to it. -/
  filled : ∀ u ∈ updates, ∀ path, IntoGap old path (splitDots u.1) →
    ∃ u' ∈ updates, path <+: splitDots u'.1
  /-- A name that is missing on the way is not inherited, unless an update before has made
  it; and neither is a `__proto__` at the end. -/
  own : ∀ first u rest, updates = first ++ u :: rest →
    ∀ path, path <+: splitDots u.1 → (path = splitDots u.1 → path.getLast? = some "__proto__") →
      old.valueAt path = none → (∀ u' ∈ first, ¬ path <+: splitDots u'.1) →
        (around u.1).inherits path = false
  /-- No number that is given, or is left, is out of range. -/
  given : ∀ u ∈ updates, u.2.stored = u.2
  left : ∀ path, (∀ u ∈ updates, Unrelated path (splitDots u.1)) →
    ∀ x, old.valueAt path = some x → x.stored = x

/-! ## One update after the other -/

/-- The last name of an update is an inherited `__proto__`. -/
def LosesLast (around : String → Surroundings) (old : Json) (u : String × Json) : Prop :=
  (splitDots u.1).getLast? = some "__proto__" ∧ old.valueAt (splitDots u.1) = none
    ∧ (around u.1).inherits (splitDots u.1) = true

/-- **What updates that stay in the tree have made** of a configuration. -/
structure Applied (around : String → Surroundings) (old : Json) (done : List (String × Json))
    (reached : Json) : Prop where
  set : ∀ u ∈ done, ¬ LosesLast around old u → reached.valueAt (splitDots u.1) = some u.2
  lost : ∀ u ∈ done, LosesLast around old u → reached.valueAt (splitDots u.1) = none
  way : ∀ u ∈ done, ∀ path, path <+: splitDots u.1 → path ≠ splitDots u.1 →
    ∃ y, reached.valueAt path = some y ∧ (∀ w, old.valueAt path = some w → SameKind w y)
      ∧ (old.valueAt path = none → SameKind (.obj []) y)
  rest : ∀ path, (∀ u ∈ done, Unrelated path (splitDots u.1)) →
    reached.valueAt path = old.valueAt path
      ∨ (old.valueAt path = none ∧ reached.valueAt path = some .hole
        ∧ ∃ u ∈ done, IntoGap old path (splitDots u.1))

section Steps

variable {rt : Runtime} {around : String → Surroundings} {old reached next : Json}
  {done updates : List (String × Json)} {u : String × Json} {path : List String}

theorem splitDots_ne_nil (path : String) : splitDots path ≠ [] := fun h =>
  List.splitOn_ne_nil '.' path.toList (List.map_eq_nil_iff.mp h)

theorem Unrelated.symm {path keys : List String} (h : Unrelated path keys) :
    Unrelated keys path :=
  ⟨h.2, h.1⟩

theorem exists_of_proper_prefix {path keys : List String} (h : path <+: keys) (hne : path ≠ keys) :
    ∃ key rest, keys = path ++ key :: rest := by
  obtain ⟨after, rfl⟩ := h
  cases after with
  | nil => exact absurd (List.append_nil path).symm hne
  | cons key rest => exact ⟨key, rest, rfl⟩

theorem SameKind.ne_hole {x y : Json} (h : SameKind x y) : y ≠ .hole := by
  rintro rfl
  match x with
  | .obj _ | .arr _ => exact h
  | .null | .bool _ | .num _ | .str _ => exact h

theorem SameKind.eq_arr {elements : List Json} {y : Json} (h : SameKind (.arr elements) y) :
    ∃ elements', y = .arr elements' := by
  match y with
  | .arr elements' => exact ⟨elements', rfl⟩

theorem SameKind.eq_arr_of_right {elements : List Json} {x : Json}
    (h : SameKind x (.arr elements)) : ∃ elements', x = .arr elements' := by
  match x with
  | .arr elements' => exact ⟨elements', rfl⟩

theorem IntoGap.getLast?_ne {x : Json} {path keys : List String} (h : IntoGap x path keys) :
    path.getLast? ≠ some "__proto__" := by
  obtain ⟨before, key, after, key', i, j, elements, -, rfl, -, -, hj, -⟩ := h
  rw [List.getLast?_concat]
  rintro ⟨⟩
  have hnone : arrayIndex "__proto__" = none := by decide
  rw [hnone] at hj
  cases hj

/-- **What stands on the way of an update**: what was there, what an update before has left
of it, or a hole. -/
theorem Applied.onWay (h : Applied around old done reached)
    (hu : ∀ v ∈ done, Unrelated (splitDots v.1) (splitDots u.1)) (hpath : path <+: splitDots u.1) :
    reached.valueAt path = old.valueAt path
      ∨ (∃ v ∈ done, path <+: splitDots v.1 ∧ path ≠ splitDots v.1)
      ∨ (old.valueAt path = none ∧ reached.valueAt path = some .hole
        ∧ ∃ v ∈ done, IntoGap old path (splitDots v.1)) := by
  by_cases hdone : ∃ v ∈ done, path <+: splitDots v.1
  · obtain ⟨v, hv, hprefix⟩ := hdone
    refine .inr (.inl ⟨v, hv, hprefix, ?_⟩)
    rintro rfl
    exact (hu v hv).1 hpath
  · push Not at hdone
    rcases h.rest path fun v hv => ⟨hdone v hv, fun hback => (hu v hv).1 (hback.trans hpath)⟩ with
      hsame | hgap
    · exact .inl hsame
    · exact .inr (.inr hgap)

/-- **The way of the next update** leads through what was reached. -/
theorem Applied.leads (h : Applied around old done reached)
    (hu : ∀ v ∈ done, Unrelated (splitDots v.1) (splitDots u.1))
    (hways : ∀ path key rest, splitDots u.1 = path ++ key :: rest →
      ∀ x, old.valueAt path = some x → x.takes key = true) :
    Leads (splitDots u.1) reached := by
  refine leads_of_forall fun path key rest hkeys y hy => ?_
  have hpath : path <+: splitDots u.1 := ⟨key :: rest, hkeys.symm⟩
  rcases h.onWay hu hpath with hsame | ⟨v, hv, hprefix, hne⟩ | ⟨-, hhole, v, hv, hgap⟩
  · exact .inl (hways path key rest hkeys y (hsame ▸ hy))
  · left
    obtain ⟨z, hz, hkept, hnew⟩ := h.way v hv path hprefix hne
    obtain rfl : y = z := Option.some.inj (hy.symm.trans hz)
    cases hold : old.valueAt path with
    | none => exact (hnew hold).takes_eq key
    | some w => exact ((hkept w hold).takes_eq key).trans (hways path key rest hkeys w hold)
  · right
    obtain ⟨before, k, after, k', i, j, elements, hv', rfl, hbefore, -⟩ := hgap
    obtain ⟨z, hz, hkept, -⟩ := h.way v hv before ⟨k :: after, hv'.symm⟩ (by
      rw [hv']
      exact fun heq => List.cons_ne_nil k after (List.append_right_eq_self.mp heq.symm))
    obtain ⟨elements', rfl⟩ := (hkept _ hbefore).eq_arr
    exact ⟨Option.some.inj (hy.symm.trans hhole), before, k', elements', rfl, hz⟩

/-- A name on the way is missing where it was, and no update before has gone by it. -/
theorem Applied.missing_iff (hwhole : ∀ path, old.valueAt path ≠ some .hole)
    (h : Applied around old done reached)
    (hu : ∀ v ∈ done, Unrelated (splitDots v.1) (splitDots u.1)) (hpath : path <+: splitDots u.1) :
    (∀ w, reached.valueAt path = some w → w = .hole)
      ↔ old.valueAt path = none ∧ ∀ v ∈ done, ¬ path <+: splitDots v.1 := by
  have hthere : ∀ v ∈ done, path <+: splitDots v.1 →
      ∃ y, reached.valueAt path = some y ∧ y ≠ .hole := by
    intro v hv hprefix
    have hne : path ≠ splitDots v.1 := by
      rintro rfl
      exact (hu v hv).1 hpath
    obtain ⟨y, hy, hkept, hnew⟩ := h.way v hv path hprefix hne
    refine ⟨y, hy, ?_⟩
    cases hold : old.valueAt path with
    | none => exact (hnew hold).ne_hole
    | some w => exact (hkept w hold).ne_hole
  constructor
  · intro hmissing
    refine ⟨?_, fun v hv hprefix => ?_⟩
    · rcases h.onWay hu hpath with hsame | ⟨v, hv, hprefix, -⟩ | ⟨hnone, -⟩
      · cases hold : old.valueAt path with
        | none => rfl
        | some w => exact absurd (hmissing w (hsame.trans hold) ▸ hold) (hwhole path)
      · obtain ⟨y, hy, hne⟩ := hthere v hv hprefix
        exact absurd (hmissing y hy) hne
      · exact hnone
    · obtain ⟨y, hy, hne⟩ := hthere v hv hprefix
      exact absurd (hmissing y hy) hne
  · rintro ⟨hnone, hnot⟩ w hw
    rcases h.onWay hu hpath with hsame | ⟨v, hv, hprefix, -⟩ | ⟨-, hhole, -⟩
    · rw [hsame, hnone] at hw
      cases hw
    · exact absurd hprefix (hnot v hv)
    · exact Option.some.inj (hw.symm.trans hhole)

theorem Applied.intoGap (h : Applied around old done reached)
    (hu : ∀ v ∈ done, Unrelated (splitDots v.1) (splitDots u.1))
    (hpath : old.valueAt path = none) (hgap : IntoGap reached path (splitDots u.1)) :
    IntoGap old path (splitDots u.1) := by
  obtain ⟨before, key, after, key', i, j, elements, hkeys, rfl, hbefore, hi, hj, hlength, hlt⟩ :=
    hgap
  have harr : ∃ elements', old.valueAt before = some (.arr elements') := by
    rcases h.onWay hu ⟨key :: after, hkeys.symm⟩ with hsame | ⟨v, hv, hprefix, hne⟩ | ⟨-, hhole, -⟩
    · exact ⟨elements, hsame ▸ hbefore⟩
    · obtain ⟨y, hy, hkept, hnew⟩ := h.way v hv before hprefix hne
      obtain rfl := Option.some.inj (hbefore.symm.trans hy)
      cases hold : old.valueAt before with
      | none => exact (hnew hold).elim
      | some w =>
        obtain ⟨elements', rfl⟩ := (hkept w hold).eq_arr_of_right
        exact ⟨elements', rfl⟩
    · rw [hbefore] at hhole
      cases hhole
  obtain ⟨elements', harr⟩ := harr
  refine ⟨before, key, after, key', i, j, elements', hkeys, rfl, harr, hi, hj, ?_, hlt⟩
  rw [valueAt_concat, harr, Option.bind_some, child_of_index hj] at hpath
  exact List.getElem?_eq_none_iff.mp hpath

/-- **A step**: an update that stays in the tree. -/
theorem Applied.concat (hwhole : ∀ path, old.valueAt path ≠ some .hole)
    (h : Applied around old done reached)
    (hu : ∀ v ∈ done, Unrelated (splitDots v.1) (splitDots u.1))
    (hways : ∀ path key rest, splitDots u.1 = path ++ key :: rest →
      ∀ x, old.valueAt path = some x → x.takes key = true)
    (hinside : escapes (around u.1) (splitDots u.1) reached = false)
    (hnext : setNestedValue rt (around u.1) reached u.1 u.2 = .ok next) :
    Applied around old (done ++ [u]) next := by
  have hleads := h.leads hu hways
  have hkeys := splitDots_ne_nil u.1
  -- whether the assignment is lost can be told from the file as it was at first
  have hprototype : setsPrototype (around u.1) (splitDots u.1) reached = true
      ↔ LosesLast around old u := by
    rw [setsPrototype_iff hkeys]
    refine and_congr_right fun hlast => and_congr_left fun _ => ?_
    rcases h.rest _ fun v hv => (hu v hv).symm with hsame | ⟨-, -, v, -, hgap⟩
    · rw [hsame]
    · exact absurd hlast hgap.getLast?_ne
  obtain ⟨value, hvalue, hset, hlost⟩ : ∃ value, next = reached.setAt value (splitDots u.1)
      ∧ (¬ LosesLast around old u → value = some u.2)
      ∧ (LosesLast around old u → value = none ∧ reached.valueAt (splitDots u.1) = none) := by
    refine ⟨_, (Except.ok.inj ((setNested_eq hkeys hleads hinside).symm.trans hnext)).symm,
      fun hnot => if_neg (hprototype.not.mpr hnot),
      fun hlost => ⟨if_pos (hprototype.mpr hlost), ?_⟩⟩
    exact ((setsPrototype_iff hkeys).mp (hprototype.mpr hlost)).2.1
  subst hvalue
  refine ⟨fun v hv hnot => ?_, fun v hv hlosing => ?_, fun v hv path hpath hne => ?_,
    fun path hpath => ?_⟩
  -- the paths of the updates: those before are unrelated to this one
  · rcases List.mem_append.mp hv with hv | hv
    · have hthere := h.set v hv hnot
      rcases valueAt_setAt_of_unrelated value hleads (hu v hv) with hsame | ⟨hnone, -⟩
      · rw [hsame, hthere]
      · rw [hthere] at hnone
        cases hnone
    · obtain rfl := List.mem_singleton.mp hv
      rw [hset hnot]
      exact valueAt_setAt_self hkeys hleads
  · rcases List.mem_append.mp hv with hv | hv
    · rcases valueAt_setAt_of_unrelated value hleads (hu v hv) with hsame | ⟨-, -, hgap⟩
      · rw [hsame, h.lost v hv hlosing]
      · exact absurd hlosing.1 hgap.getLast?_ne
    · obtain rfl := List.mem_singleton.mp hv
      obtain ⟨rfl, hnone⟩ := hlost hlosing
      exact valueAt_setAt_none hkeys hleads hnone
  -- what stands on the way to an update: it is an object, of the kind it was
  · rcases List.mem_append.mp hv with hv | hv
    · obtain ⟨y, hy, hkept, hnew⟩ := h.way v hv path hpath hne
      by_cases hway : path <+: splitDots u.1
      · have hself : path ≠ splitDots u.1 := by
          rintro rfl
          exact (hu v hv).2 hpath
        obtain ⟨key, rest, hsplit⟩ := exists_of_proper_prefix hway hself
        rw [hsplit] at hleads ⊢
        obtain ⟨z, hz, hchanged, -⟩ := valueAt_setAt_way value hleads
        have hyz : y ≠ .hole → SameKind y z := hchanged y hy
        exact ⟨z, hz, fun w hw => (hkept w hw).trans (hyz (hkept w hw).ne_hole),
          fun hnone => (hnew hnone).trans (hyz (hnew hnone).ne_hole)⟩
      · have hunrelated : Unrelated path (splitDots u.1) :=
          ⟨hway, fun hback => (hu v hv).2 (hback.trans hpath)⟩
        rcases valueAt_setAt_of_unrelated value hleads hunrelated with
          hsame | ⟨hnone, -⟩
        · exact ⟨y, hsame.trans hy, hkept, hnew⟩
        · rw [hy] at hnone
          cases hnone
    · obtain rfl := List.mem_singleton.mp hv
      obtain ⟨key, rest, hsplit⟩ := exists_of_proper_prefix hpath hne
      have hthere := h.onWay hu hpath
      rw [hsplit] at hleads ⊢
      obtain ⟨z, hz, hchanged, hmade⟩ := valueAt_setAt_way value hleads
      refine ⟨z, hz, fun w hw => ?_, fun hnone => ?_⟩
      · have hw' : w ≠ .hole := fun heq => hwhole path (heq ▸ hw)
        rcases hthere with hsame | ⟨v', hv', hprefix, hne'⟩ | ⟨hnone, -⟩
        · exact hchanged w (hsame.trans hw) hw'
        · obtain ⟨y, hy, hkept, -⟩ := h.way v' hv' path hprefix hne'
          exact (hkept w hw).trans (hchanged y hy (hkept w hw).ne_hole)
        · rw [hw] at hnone
          cases hnone
      · rcases hthere with hsame | ⟨v', hv', hprefix, hne'⟩ | ⟨-, hhole, -⟩
        · refine hmade fun w hw => ?_
          rw [hsame, hnone] at hw
          cases hw
        · obtain ⟨y, hy, -, hnew⟩ := h.way v' hv' path hprefix hne'
          exact (hnew hnone).trans (hchanged y hy (hnew hnone).ne_hole)
        · exact hmade fun w hw => Option.some.inj (hw.symm.trans hhole)
  -- any other path: it is left alone, but for the gaps of an array that grows
  · have hdone : ∀ v ∈ done, Unrelated path (splitDots v.1) :=
      fun v hv => hpath v (List.mem_append_left _ hv)
    have hlast : Unrelated path (splitDots u.1) := hpath u (by simp)
    have hbefore := h.rest path hdone
    rcases valueAt_setAt_of_unrelated value hleads hlast with
      hsame | ⟨hnone, hhole, hgap⟩
    · rw [hsame]
      refine hbefore.imp id fun ⟨hnone, hhole, v, hv, hgap⟩ => ?_
      exact ⟨hnone, hhole, v, List.mem_append_left _ hv, hgap⟩
    · have hold : old.valueAt path = none := by
        rcases hbefore with hsame | ⟨hold, -⟩
        · rw [← hsame, hnone]
        · exact hold
      exact .inr ⟨hold, hhole, u, by simp, h.intoGap hu hold hgap⟩

/-! ## All updates -/

theorem staysInTree_concat :
    StaysInTree rt around old (updates ++ [u])
      ↔ StaysInTree rt around old updates
        ∧ ∀ reached, applyUpdates rt around updates old = .ok reached →
          escapes (around u.1) (splitDots u.1) reached = false := by
  constructor
  · intro h
    refine ⟨fun first v rest reached hsplit => ?_, fun reached => ?_⟩
    · exact h first v (rest ++ [u]) reached (by rw [hsplit, List.append_assoc, List.cons_append])
    · exact h updates u [] reached rfl
  · rintro ⟨hbefore, hlast⟩ first v rest reached hsplit
    rcases List.eq_nil_or_concat rest with rfl | ⟨rest, w, rfl⟩
    · obtain ⟨rfl, hv⟩ := List.append_inj' hsplit rfl
      obtain rfl := List.singleton_inj.mp hv
      exact hlast reached
    · rw [List.concat_eq_append, ← List.cons_append, ← List.append_assoc] at hsplit
      obtain ⟨rfl, -⟩ := List.append_inj' hsplit rfl
      exact hbefore first v rest reached rfl

theorem pairwise_concat (h : (updates ++ [u]).Pairwise fun v w =>
      Unrelated (splitDots v.1) (splitDots w.1)) :
    (updates.Pairwise fun v w => Unrelated (splitDots v.1) (splitDots w.1))
      ∧ ∀ v ∈ updates, Unrelated (splitDots v.1) (splitDots u.1) := by
  obtain ⟨hbefore, -, hlast⟩ := List.pairwise_append.mp h
  exact ⟨hbefore, fun v hv => hlast v hv u List.mem_cons_self⟩

theorem Applied.nil : Applied around old [] old where
  set _ hu := by cases hu
  lost _ hu := by cases hu
  way _ hu := by cases hu
  rest _ _ := .inl rfl

/-- **A run of updates that stay in the tree.** -/
theorem applied_of_staysInTree (hwhole : ∀ path, old.valueAt path ≠ some .hole)
    (hapart : updates.Pairwise fun v w => Unrelated (splitDots v.1) (splitDots w.1))
    (hways : ∀ u ∈ updates, ∀ path key rest, splitDots u.1 = path ++ key :: rest →
      ∀ x, old.valueAt path = some x → x.takes key = true)
    (hinside : StaysInTree rt around old updates)
    (h : applyUpdates rt around updates old = .ok reached) :
    Applied around old updates reached := by
  induction updates using List.reverseRecOn generalizing reached with
  | nil =>
    obtain rfl := Except.ok.inj h
    exact .nil
  | append_singleton updates u ih =>
    obtain ⟨before, hbefore, hlast⟩ := applyUpdates_append.mp h
    obtain ⟨next, hnext, hlast⟩ := bind_eq_ok.mp hlast
    obtain rfl := Except.ok.inj hlast
    obtain ⟨hapart, hu⟩ := pairwise_concat hapart
    obtain ⟨hinside, hstays⟩ := staysInTree_concat.mp hinside
    have happlied := ih hapart (fun v hv => hways v (List.mem_append_left _ hv)) hinside hbefore
    exact happlied.concat hwhole hu (hways u (by simp)) (hstays before hbefore) hnext

/-- **Updates of which no missing name is inherited stay in the tree.** -/
theorem staysInTree_of_own (hwhole : ∀ path, old.valueAt path ≠ some .hole)
    (hapart : updates.Pairwise fun v w => Unrelated (splitDots v.1) (splitDots w.1))
    (hways : ∀ u ∈ updates, ∀ path key rest, splitDots u.1 = path ++ key :: rest →
      ∀ x, old.valueAt path = some x → x.takes key = true)
    (hown : ∀ first u rest, updates = first ++ u :: rest → ∀ path, path <+: splitDots u.1 →
      path ≠ splitDots u.1 → old.valueAt path = none →
        (∀ u' ∈ first, ¬ path <+: splitDots u'.1) → (around u.1).inherits path = false) :
    StaysInTree rt around old updates := by
  induction updates using List.reverseRecOn with
  | nil =>
    rintro first u rest reached hsplit
    cases first <;> cases hsplit
  | append_singleton updates u ih =>
    obtain ⟨hapart, hu⟩ := pairwise_concat hapart
    have hways' := fun v hv => hways v (List.mem_append_left [u] hv)
    have hinside := ih hapart hways' fun first v rest hsplit =>
      hown first v (rest ++ [u]) (by rw [hsplit, List.append_assoc, List.cons_append])
    refine staysInTree_concat.mpr ⟨hinside, fun reached hreached => ?_⟩
    have happlied := applied_of_staysInTree hwhole hapart hways' hinside hreached
    refine (escapes_eq_false_iff (happlied.leads hu (hways u (by simp)))).mpr
      fun path hpath _ hne hmissing => ?_
    obtain ⟨hnone, hnot⟩ := (happlied.missing_iff hwhole hu hpath).mp hmissing
    exact hown updates u [] rfl path hpath hne hnone hnot

end Steps

/-! ## What is written -/

section Written

variable {rt : Runtime} {around : String → Surroundings} {old d : Json}
  {updates : List (String × Json)}

theorem sameKind_stored {x y : Json} : SameKind x y.stored ↔ SameKind x y := by
  match x, y with
  | .obj _, .obj _ | .arr _, .arr _ | .obj _, .arr _ | .arr _, .obj _ => rfl
  | .obj _, .null | .obj _, .bool _ | .obj _, .str _ | .arr _, .null | .arr _, .bool _
  | .arr _, .str _ => rfl
  | .obj _, .num n | .arr _, .num n => cases n <;> rfl
  | .null, _ | .bool _, _ | .num _, _ | .str _, _ => exact iff_of_false id id

theorem takes_of_child {x z : Json} {key : String} (h : x.child key = some z) :
    x.takes key = true := by
  match x with
  | .obj _ => rfl
  | .arr elements =>
    obtain ⟨i, hi, -⟩ := Option.bind_eq_some_iff.mp h
    exact Option.isSome_iff_exists.mpr ⟨i, hi⟩
  | .null | .bool _ | .num _ | .str _ => cases h

/-- Two updates of which one path goes on from the other are the same. -/
theorem eq_of_prefix
    (hapart : updates.Pairwise fun v w => Unrelated (splitDots v.1) (splitDots w.1))
    {u v : String × Json} (hu : u ∈ updates) (hv : v ∈ updates)
    (h : splitDots u.1 <+: splitDots v.1) : u = v := by
  have hsymm : Std.Symm fun v w : String × Json => Unrelated (splitDots v.1) (splitDots w.1) :=
    ⟨fun _ _ h => h.symm⟩
  by_contra hne
  exact (hapart.forall hu hv hne).1 h

/-- **Updates that fit are applied exactly**, and stay in the tree. -/
theorem appliedExactly_of_fits (hwhole : ∀ path, old.valueAt path ≠ some .hole)
    (hapart : updates.Pairwise fun v w => Unrelated (splitDots v.1) (splitDots w.1))
    (h : applyUpdates rt around updates old = .ok d) (hfits : Fits around old updates) :
    AppliedExactly old updates d.stored ∧ StaysInTree rt around old updates := by
  have hinside : StaysInTree rt around old updates :=
    staysInTree_of_own hwhole hapart hfits.ways
      fun first u rest hsplit path hpath hne => hfits.own first u rest hsplit path hpath
        fun heq => absurd heq hne
  have happlied := applied_of_staysInTree hwhole hapart hfits.ways hinside h
  refine ⟨⟨fun u hu => ?_, fun u hu path hpath hne => ?_, fun path hpath => ?_⟩, hinside⟩
  · have hnot : ¬ LosesLast around old u := by
      rintro ⟨hlast, hnone, hinherited⟩
      obtain ⟨first, rest, rfl⟩ := List.append_of_mem hu
      have hfirst : ∀ v ∈ first, ¬ splitDots u.1 <+: splitDots v.1 := fun v hv =>
        ((List.pairwise_append.mp hapart).2.2 v hv u List.mem_cons_self).2
      rw [hfits.own first u rest rfl _ (List.prefix_refl _) (fun _ => hlast) hnone hfirst]
        at hinherited
      cases hinherited
    rw [valueAt_stored, happlied.set u hu hnot, Option.map_some, hfits.given u hu]
  · obtain ⟨y, hy, hkept, hnew⟩ := happlied.way u hu path hpath hne
    refine ⟨y.stored, ?_, fun w hw => sameKind_stored.mpr (hkept w hw),
      fun hnone => sameKind_stored.mpr (hnew hnone)⟩
    rw [valueAt_stored, hy, Option.map_some]
  · rw [valueAt_stored]
    rcases happlied.rest path hpath with hsame | ⟨-, -, u, hu, hgap⟩
    · rw [hsame]
      cases hold : old.valueAt path with
      | none => rfl
      | some x => rw [Option.map_some, hfits.left path hpath x hold]
    · obtain ⟨u', hu', hprefix⟩ := hfits.filled u hu path hgap
      exact absurd hprefix (hpath u' hu').1

/-- **Updates that are applied exactly and stay in the tree fit.** -/
theorem fits_of_appliedExactly (hwhole : ∀ path, old.valueAt path ≠ some .hole)
    (hapart : updates.Pairwise fun v w => Unrelated (splitDots v.1) (splitDots w.1))
    (h : applyUpdates rt around updates old = .ok d)
    (hexact : AppliedExactly old updates d.stored) (hinside : StaysInTree rt around old updates) :
    Fits around old updates := by
  -- what stands in front of a name takes it
  have hnext : ∀ u ∈ updates, ∀ path key rest, splitDots u.1 = path ++ key :: rest →
      ∃ y z, d.stored.valueAt path = some y ∧ y.child key = some z
        ∧ ∀ w, old.valueAt path = some w → SameKind w y := by
    intro u hu path key rest hsplit
    have hne : path ≠ splitDots u.1 := by
      rw [hsplit]
      exact fun heq => List.cons_ne_nil key rest (List.append_right_eq_self.mp heq.symm)
    obtain ⟨y, hy, hkept, -⟩ := hexact.way u hu path ⟨key :: rest, hsplit.symm⟩ hne
    have hthere : ∃ z, d.stored.valueAt (path ++ [key]) = some z := by
      by_cases hself : path ++ [key] = splitDots u.1
      · exact ⟨u.2, hself ▸ hexact.set u hu⟩
      · obtain ⟨z, hz, -⟩ := hexact.way u hu (path ++ [key]) ⟨rest, by simp [hsplit]⟩ hself
        exact ⟨z, hz⟩
    obtain ⟨z, hz⟩ := hthere
    rw [valueAt_concat, hy, Option.bind_some] at hz
    exact ⟨y, z, hy, hz, hkept⟩
  have hways : ∀ u ∈ updates, ∀ path key rest, splitDots u.1 = path ++ key :: rest →
      ∀ x, old.valueAt path = some x → x.takes key = true := by
    intro u hu path key rest hsplit x hx
    obtain ⟨y, z, -, hz, hkept⟩ := hnext u hu path key rest hsplit
    rw [← (hkept x hx).takes_eq key]
    exact takes_of_child hz
  have happlied := applied_of_staysInTree hwhole hapart hways hinside h
  refine ⟨hways, fun u hu path hgap => ?_,
    fun first u rest hsplit path hpath hlast hnone hfirst => ?_, fun u hu => ?_,
    fun path hpath x hx => ?_⟩
  · obtain ⟨before, key, after, key', i, j, elements, hsplit, rfl, hbefore, hi, hj, hlength, hlt⟩ :=
      hgap
    by_contra hnot
    push Not at hnot
    have hunrelated : ∀ v ∈ updates, Unrelated (before ++ [key']) (splitDots v.1) := by
      refine fun v hv => ⟨hnot v hv, fun hback => ?_⟩
      rcases List.prefix_concat_iff.mp hback with heq | hback
      · exact hnot v hv (heq ▸ List.prefix_refl _)
      · obtain rfl := eq_of_prefix hapart hv hu (hback.trans ⟨key :: after, hsplit.symm⟩)
        rw [hsplit] at hback
        have hlonger := hback.length_le
        rw [List.length_append, List.length_cons] at hlonger
        omega
    have hsame := hexact.rest _ hunrelated
    obtain ⟨y, z, hy, hz, hkept⟩ := hnext u hu before key after hsplit
    obtain ⟨elements', rfl⟩ := (hkept _ hbefore).eq_arr
    rw [child_of_index hi] at hz
    have hlt' := (List.getElem?_eq_some_iff.mp hz).1
    rw [valueAt_concat, valueAt_concat, hy, hbefore, Option.bind_some, Option.bind_some,
      child_of_index hj, child_of_index hj, List.getElem?_eq_none hlength,
      List.getElem?_eq_none_iff] at hsame
    omega
  · obtain ⟨reached, hreached, -⟩ := applyUpdates_append.mp (hsplit ▸ h)
    subst hsplit
    have hu : u ∈ first ++ u :: rest := by simp
    by_cases hself : path = splitDots u.1
    · -- what is lost is not there in the end
      refine Bool.eq_false_iff.mpr fun hinherited => ?_
      subst hself
      have hlost := happlied.lost u hu ⟨hlast rfl, hnone, hinherited⟩
      have hset := hexact.set u hu
      rw [valueAt_stored, hlost] at hset
      cases hset
    · have hbefore : ∀ v ∈ first, Unrelated (splitDots v.1) (splitDots u.1) := fun v hv =>
        (List.pairwise_append.mp hapart).2.2 v hv u List.mem_cons_self
      have hfirst' : StaysInTree rt around old first := fun before v after reached hsplit =>
        hinside before v (after ++ u :: rest) reached (by simp [hsplit])
      have happlied' := applied_of_staysInTree hwhole (List.pairwise_append.mp hapart).1
        (fun v hv => hways v (List.mem_append_left _ hv)) hfirst' hreached
      refine (escapes_eq_false_iff (happlied'.leads hbefore (hways u hu))).mp
        (hinside first u rest reached rfl hreached) path hpath ?_ hself ?_
      · rintro rfl
        cases hnone
      · exact (happlied'.missing_iff hwhole hbefore hpath).mpr ⟨hnone, hfirst⟩
  · have hset := hexact.set u hu
    rw [valueAt_stored] at hset
    obtain ⟨x, -, hx⟩ := Option.map_eq_some_iff.mp hset
    rw [← hx, Json.stored_stored]
  · have hrest := hexact.rest path hpath
    rw [valueAt_stored, hx] at hrest
    obtain ⟨y, -, hy⟩ := Option.map_eq_some_iff.mp hrest
    rw [← hy, Json.stored_stored]

end Written

/-- **The updates of a request that succeeds are applied exactly, and nothing but the
configuration is assigned to**, if and only if they fit the configuration. -/
theorem appliedExactly_iff (site : GatewayConfigSite) (around : String → Surroundings)
    {body : Option Json} {updates : List (String × Json)} {content w : Json}
    (haccept : acceptGatewayConfig site body = .ok updates)
    (hapart : updates.Pairwise fun v w => Unrelated (splitDots v.1) (splitDots w.1))
    (hwhole : ∀ path, content.valueAt path ≠ some .hole)
    (hwritten : (putGatewayConfig site around body (some content)).2 = some w) :
    (AppliedExactly content updates w ∧ StaysInTree site.rt around content updates)
      ↔ Fits around content updates := by
  obtain ⟨d, hd, rfl⟩ : ∃ d, applyUpdates site.rt around updates content = .ok d
      ∧ w = d.stored := by
    unfold putGatewayConfig at hwritten
    rw [haccept] at hwritten
    dsimp only at hwritten
    split at hwritten
    · next d hd => exact ⟨d, hd, (Option.some.inj hwritten).symm⟩
    · cases hwritten
  exact ⟨fun ⟨hexact, hinside⟩ => fits_of_appliedExactly hwhole hapart hd hexact hinside,
    appliedExactly_of_fits hwhole hapart hd⟩

/-! ## A path that leaves the configuration -/

/-- What is stored as it is has no number out of range in it, and no hole. -/
theorem stored_of_valueAt {x y : Json} {path : List String} (hx : x.stored = x)
    (hy : x.valueAt path = some y) : y.stored = y := by
  have h := valueAt_stored path x
  rw [hx, hy, Option.map_some] at h
  exact (Option.some.inj h).symm

theorem ne_hole_of_stored {x : Json} (hx : x.stored = x) (path : List String) :
    x.valueAt path ≠ some .hole := by
  intro h
  cases stored_of_valueAt hx h

theorem fits_samplePort :
    Fits (fun _ => sampleSurroundings) sampleConfig [("gateway.port", .ofNat 18790)] := by
  have hsplit : splitDots "gateway.port" = ["gateway", "port"] := by decide +kernel
  have hprefixes : ∀ path, path <+: ["gateway", "port"] →
      path = [] ∨ path = ["gateway"] ∨ path = ["gateway", "port"] := by
    intro path hpath
    simpa using (List.mem_inits path _).mpr hpath
  have hobject : ∀ path key rest, splitDots "gateway.port" = path ++ key :: rest →
      ∃ fields, sampleConfig.valueAt path = some (.obj fields) := by
    intro path key rest h
    rw [hsplit] at h
    rcases hprefixes path ⟨key :: rest, h.symm⟩ with rfl | rfl | rfl
    · exact ⟨_, rfl⟩
    · exact ⟨_, rfl⟩
    · simp at h
  refine ⟨fun u hu path key rest h x hx => ?_, fun u hu path hgap => ?_,
    fun first u rest h path hpath _ hnone _ => ?_, fun u hu => ?_,
    fun path _ x hx => stored_of_valueAt (x := sampleConfig) rfl hx⟩
  · obtain rfl := List.mem_singleton.mp hu
    obtain ⟨fields, hfields⟩ := hobject path key rest h
    obtain rfl := Option.some.inj (hx.symm.trans hfields)
    rfl
  · obtain rfl := List.mem_singleton.mp hu
    obtain ⟨before, key, after, key', i, j, elements, h, -, hbefore, -⟩ := hgap
    obtain ⟨fields, hfields⟩ := hobject before key after h
    rw [hfields] at hbefore
    cases hbefore
  · have hu : u ∈ [("gateway.port", Json.ofNat 18790)] := h ▸ by simp
    obtain rfl := List.mem_singleton.mp hu
    rw [hsplit] at hpath
    rcases hprefixes path hpath with rfl | rfl | rfl
    all_goals cases hnone
  · obtain rfl := List.mem_singleton.mp hu
    rfl

/-- The port is set, and nothing else. -/
theorem appliedExactly_samplePort :
    AppliedExactly sampleConfig [("gateway.port", .ofNat 18790)]
        (.obj [("gateway", .obj [("port", .ofNat 18790),
          ("auth", .obj [("mode", .str "password"), ("password", .str "hunter2")])])])
      ∧ StaysInTree sampleRuntime (fun _ => sampleSurroundings) sampleConfig
        [("gateway.port", .ofNat 18790)] :=
  (appliedExactly_iff sampleGatewayConfigSite (fun _ => sampleSurroundings)
    (accept_sampleUpdate (by decide) (by decide +kernel)) (List.pairwise_singleton _ _)
    (ne_hole_of_stored rfl) (by
      have hsplit : splitDots "gateway.port" = ["gateway", "port"] := by decide +kernel
      unfold putGatewayConfig
      rw [accept_sampleUpdate (by decide) (by decide +kernel)]
      simp only [applyUpdates, setNestedValue, hsplit, sampleConfig, setNested]
      rfl)).mpr fits_samplePort

/-- **An update that succeeds and sets nothing**: its path leaves the configuration. -/
theorem not_appliedExactly_samplePrototype :
    ¬ ∀ (site : GatewayConfigSite) (around : String → Surroundings) (body : Option Json)
      (updates : List (String × Json)) (content w : Json),
      acceptGatewayConfig site body = .ok updates →
      (updates.Pairwise fun v w => Unrelated (splitDots v.1) (splitDots w.1)) →
      (∀ path, content.valueAt path ≠ some .hole) →
      (putGatewayConfig site around body (some content)).2 = some w →
        AppliedExactly content updates w ∧ StaysInTree site.rt around content updates := by
  have hsplit : splitDots "__proto__.admin" = ["__proto__", "admin"] := by decide +kernel
  intro h
  have hset := (h sampleGatewayConfigSite (fun _ => sampleSurroundings)
    (sampleUpdate "__proto__.admin" (.bool true)) [("__proto__.admin", .bool true)] sampleConfig
    sampleConfig (accept_sampleUpdate (by decide) (by decide +kernel))
    (List.pairwise_singleton _ _) (ne_hole_of_stored rfl) (by
      unfold putGatewayConfig
      rw [accept_sampleUpdate (by decide) (by decide +kernel)]
      simp only [applyUpdates, setNestedValue, hsplit, sampleConfig, setNested]
      rfl)).1.set _ List.mem_cons_self
  rw [hsplit] at hset
  cases hset

end MissionControl
