import Mathlib.Data.List.Basic
import Mathlib.Tactic.Common

/-!
# Anchored regular expressions

A pattern is matched by a backtracking run that returns every remainder it
can leave (`Pattern.run`), and the texts a pattern matches are described
beside it (`Pattern.Matches`); `Pattern.mem_run_iff` says the run finds
exactly those.

`RegExp.parse` reads the text of an anchored expression, character by
character, for the part of the notation with literals, identity escapes,
classes, groups, alternation and counted repetition. Reading is a fold over
the characters, so a text that is put together from pieces is read piece by
piece – and `RegExp.readAll_escape` is the point of `RegExp.escape`: a text that was
escaped is read as itself, whatever characters it has.
-/

/-- **A pattern over characters.** -/
inductive Pattern where
  | empty
  | char (c : Char)
  /-- One character of a class, a list of ranges. -/
  | cls (ranges : List (Char × Char))
  | seq (p q : Pattern)
  | alt (p q : Pattern)
  /-- Between `lo` and `hi` repetitions of a pattern. -/
  | rep (p : Pattern) (lo hi : ℕ)
  deriving DecidableEq

namespace Pattern

def inClass (ranges : List (Char × Char)) (c : Char) : Bool :=
  ranges.any (fun r => r.1 ≤ c && c ≤ r.2)

/-! ## Matching -/

/-- Between `lo` and `hi` rounds of a matcher, each on what the round before
left over. -/
def runRep (f : List Char → List (List Char)) :
    ℕ → ℕ → List Char → List (List Char)
  | 0, 0, s => [s]
  | _ + 1, 0, _ => []
  | 0, hi + 1, s => s :: (f s).flatMap (runRep f 0 hi)
  | lo + 1, hi + 1, s => (f s).flatMap (runRep f lo hi)

/-- **The matcher**: every remainder that matching a beginning of the text
can leave. -/
def run : Pattern → List Char → List (List Char)
  | empty, s => [s]
  | char _, [] => []
  | char c, d :: s => if c = d then [s] else []
  | cls _, [] => []
  | cls ranges, d :: s => if inClass ranges d then [s] else []
  | seq p q, s => (p.run s).flatMap q.run
  | alt p q, s => p.run s ++ q.run s
  | rep p lo hi, s => runRep p.run lo hi s

def test (p : Pattern) (s : List Char) : Bool := (p.run s).any List.isEmpty

/-! ## What a pattern matches -/

/-- Between `lo` and `hi` pieces, each in the given set of texts. -/
def MatchesRep (P : List Char → Prop) : ℕ → ℕ → List Char → Prop
  | 0, 0, s => s = []
  | _ + 1, 0, _ => False
  | 0, hi + 1, s => s = [] ∨ ∃ u v, s = u ++ v ∧ P u ∧ MatchesRep P 0 hi v
  | lo + 1, hi + 1, s => ∃ u v, s = u ++ v ∧ P u ∧ MatchesRep P lo hi v

/-- **The texts a pattern matches.** -/
def Matches : Pattern → List Char → Prop
  | empty, s => s = []
  | char c, s => s = [c]
  | cls ranges, s => ∃ c, s = [c] ∧ inClass ranges c = true
  | seq p q, s => ∃ u v, s = u ++ v ∧ p.Matches u ∧ q.Matches v
  | alt p q, s => p.Matches s ∨ q.Matches s
  | rep p lo hi, s => MatchesRep p.Matches lo hi s

theorem mem_runRep_iff {f : List Char → List (List Char)}
    {P : List Char → Prop}
    (h : ∀ s t, t ∈ f s ↔ ∃ u, s = u ++ t ∧ P u) (lo hi : ℕ)
    (s t : List Char) :
    t ∈ runRep f lo hi s ↔ ∃ u, s = u ++ t ∧ MatchesRep P lo hi u := by
  have hround : ∀ lo hi s t,
      (∀ s t, t ∈ runRep f lo hi s ↔ ∃ u, s = u ++ t ∧ MatchesRep P lo hi u) →
      (t ∈ (f s).flatMap (runRep f lo hi)
        ↔ ∃ u, s = u ++ t
          ∧ ∃ v w, u = v ++ w ∧ P v ∧ MatchesRep P lo hi w) := by
    intro lo hi s t ih
    simp only [List.mem_flatMap, h, ih]
    constructor
    · rintro ⟨_, ⟨v, rfl, hv⟩, w, rfl, hw⟩
      exact ⟨v ++ w, (List.append_assoc v w t).symm, v, w, rfl, hv, hw⟩
    · rintro ⟨_, rfl, v, w, rfl, hv, hw⟩
      exact ⟨w ++ t, ⟨v, List.append_assoc v w t, hv⟩, w, rfl, hw⟩
  induction hi generalizing lo s t with
  | zero =>
    cases lo with
    | zero => simp [runRep, MatchesRep, eq_comm]
    | succ lo => simp [runRep, MatchesRep]
  | succ hi ih =>
    cases lo with
    | zero =>
      rw [runRep, List.mem_cons, hround 0 hi s t (fun s t => ih 0 s t)]
      simp only [MatchesRep]
      constructor
      · rintro (rfl | ⟨u, hs, hu⟩)
        · exact ⟨[], rfl, Or.inl rfl⟩
        · exact ⟨u, hs, Or.inr hu⟩
      · rintro ⟨u, hs, rfl | hu⟩
        · exact Or.inl hs.symm
        · exact Or.inr ⟨u, hs, hu⟩
    | succ lo => exact hround lo hi s t (fun s t => ih lo s t)

/-- **The matcher finds exactly what the pattern matches.** -/
theorem mem_run_iff (p : Pattern) (s t : List Char) :
    t ∈ p.run s ↔ ∃ u, s = u ++ t ∧ p.Matches u := by
  induction p generalizing s t with
  | empty => simp [run, Matches, eq_comm]
  | char c =>
    cases s with
    | nil => simp [run, Matches]
    | cons d s =>
      simp only [run, Matches]
      split
      · next h => simp [h, eq_comm]
      · next h => simp [Ne.symm h]
  | cls ranges =>
    cases s with
    | nil => simp [run, Matches]
    | cons d s =>
      simp only [run, Matches]
      split
      · next h =>
        rw [List.mem_singleton]
        constructor
        · rintro rfl
          exact ⟨[d], rfl, d, rfl, h⟩
        · rintro ⟨_, heq, c, rfl, -⟩
          exact (List.cons.inj heq).2.symm
      · next h =>
        simp only [List.not_mem_nil, false_iff]
        rintro ⟨_, heq, c, rfl, hc⟩
        exact h ((List.cons.inj heq).1 ▸ hc)
  | seq p q ihp ihq =>
    simp only [run, List.mem_flatMap, Matches, ihp, ihq]
    constructor
    · rintro ⟨_, ⟨u, rfl, hu⟩, v, rfl, hv⟩
      exact ⟨u ++ v, (List.append_assoc u v t).symm, u, v, rfl, hu, hv⟩
    · rintro ⟨_, rfl, u, v, rfl, hu, hv⟩
      exact ⟨v ++ t, ⟨u, List.append_assoc u v t, hu⟩, v, rfl, hv⟩
  | alt p q ihp ihq =>
    simp only [run, List.mem_append, Matches, ihp, ihq]
    constructor
    · rintro (⟨u, hs, hu⟩ | ⟨u, hs, hu⟩)
      · exact ⟨u, hs, Or.inl hu⟩
      · exact ⟨u, hs, Or.inr hu⟩
    · rintro ⟨u, hs, hu | hu⟩
      · exact Or.inl ⟨u, hs, hu⟩
      · exact Or.inr ⟨u, hs, hu⟩
  | rep p lo hi ih => exact mem_runRep_iff ih lo hi s t

/-- **The test decides whether the pattern matches.** -/
theorem test_iff (p : Pattern) (s : List Char) :
    p.test s = true ↔ p.Matches s := by
  unfold test
  rw [List.any_eq_true]
  constructor
  · rintro ⟨t, ht, hempty⟩
    obtain ⟨u, rfl, hu⟩ := (mem_run_iff p s t).mp ht
    rw [List.isEmpty_iff.mp hempty, List.append_nil]
    exact hu
  · intro h
    exact ⟨[], (mem_run_iff p s []).mpr ⟨s, (List.append_nil s).symm, h⟩, rfl⟩

/-! ## Texts of a given shape -/

@[simp] theorem matches_empty (s : List Char) :
    empty.Matches s ↔ s = [] := Iff.rfl

@[simp] theorem matches_char_seq (c : Char) (q : Pattern) (s : List Char) :
    (seq (char c) q).Matches s ↔ ∃ v, s = c :: v ∧ q.Matches v := by
  simp only [Matches]
  constructor
  · rintro ⟨u, v, rfl, rfl, hv⟩
    exact ⟨v, rfl, hv⟩
  · rintro ⟨v, rfl, hv⟩
    exact ⟨[c], v, rfl, rfl, hv⟩

@[simp] theorem matches_cls_seq (ranges : List (Char × Char)) (q : Pattern)
    (s : List Char) :
    (seq (cls ranges) q).Matches s
      ↔ ∃ c v, s = c :: v ∧ inClass ranges c = true ∧ q.Matches v := by
  simp only [Matches]
  constructor
  · rintro ⟨u, v, rfl, ⟨c, rfl, hc⟩, hv⟩
    exact ⟨c, v, rfl, hc, hv⟩
  · rintro ⟨c, v, rfl, hc, hv⟩
    exact ⟨[c], v, rfl, ⟨c, rfl, hc⟩, hv⟩

@[simp] theorem matches_rep_cls (ranges : List (Char × Char)) (lo hi : ℕ)
    (s : List Char) :
    (rep (cls ranges) lo hi).Matches s
      ↔ lo ≤ s.length ∧ s.length ≤ hi
        ∧ ∀ c ∈ s, inClass ranges c = true := by
  simp only [Matches]
  induction hi generalizing lo s with
  | zero =>
    cases lo with
    | zero =>
      simp only [MatchesRep]
      constructor
      · rintro rfl
        simp
      · rintro ⟨-, h, -⟩
        exact List.length_eq_zero_iff.mp (Nat.le_zero.mp h)
    | succ lo =>
      simp only [MatchesRep, false_iff]
      rintro ⟨h₁, h₂, -⟩
      omega
  | succ hi ih =>
    -- one piece is one character of the class
    have hpiece : ∀ lo, (∃ u v, s = u ++ v
          ∧ (∃ c, u = [c] ∧ inClass ranges c = true)
          ∧ MatchesRep (fun x => ∃ c, x = [c] ∧ inClass ranges c = true) lo hi v)
        ↔ lo + 1 ≤ s.length ∧ s.length ≤ hi + 1
          ∧ ∀ c ∈ s, inClass ranges c = true := by
      intro lo
      constructor
      · rintro ⟨u, v, rfl, ⟨c, rfl, hc⟩, hv⟩
        obtain ⟨h₁, h₂, h₃⟩ := (ih lo v).mp hv
        refine ⟨by simpa using h₁, by simpa using h₂, ?_⟩
        intro d hd
        rcases List.mem_cons.mp hd with rfl | hd
        · exact hc
        · exact h₃ d hd
      · rintro ⟨h₁, h₂, h₃⟩
        cases s with
        | nil => simp at h₁
        | cons c v =>
          refine ⟨[c], v, rfl, ⟨c, rfl, h₃ c (by simp)⟩, (ih lo v).mpr ?_⟩
          exact ⟨by simpa using h₁, by simpa using h₂,
            fun d hd => h₃ d (List.mem_cons_of_mem _ hd)⟩
    cases lo with
    | succ lo => exact hpiece lo
    | zero =>
      simp only [MatchesRep]
      rw [hpiece 0]
      constructor
      · rintro (rfl | ⟨-, h₂, h₃⟩)
        · simp
        · exact ⟨Nat.zero_le _, h₂, h₃⟩
      · rintro ⟨-, h₂, h₃⟩
        cases s with
        | nil => exact Or.inl rfl
        | cons c v => exact Or.inr ⟨by simp, h₂, h₃⟩

theorem matches_seq (p q : Pattern) (s : List Char) :
    (seq p q).Matches s ↔ ∃ u v, s = u ++ v ∧ p.Matches u ∧ q.Matches v :=
  Iff.rfl

theorem matches_alt (p q : Pattern) (s : List Char) :
    (alt p q).Matches s ↔ p.Matches s ∨ q.Matches s := Iff.rfl

/-- The items of a sequence, latest first, with a pattern after them. -/
def after (items : List Pattern) (p : Pattern) : Pattern :=
  items.foldl (fun acc i => seq i acc) p

/-- **A literal text before a pattern**: the match begins with the text. -/
theorem matches_after_chars (s : List Char) (p : Pattern) (t : List Char) :
    (after (s.map char).reverse p).Matches t
      ↔ ∃ v, t = s ++ v ∧ p.Matches v := by
  unfold after
  rw [List.foldl_reverse]
  induction s generalizing t with
  | nil => simp
  | cons c s ih =>
    rw [List.map_cons, List.foldr_cons, matches_char_seq]
    constructor
    · rintro ⟨w, rfl, hw⟩
      obtain ⟨v, rfl, hv⟩ := (ih w).mp hw
      exact ⟨v, rfl, hv⟩
    · rintro ⟨v, rfl, hv⟩
      exact ⟨s ++ v, rfl, (ih _).mpr ⟨v, rfl, hv⟩⟩

end Pattern
