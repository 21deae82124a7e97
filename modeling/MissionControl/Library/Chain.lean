import Mathlib.Data.List.Chain
import Mathlib.Logic.Relation

/-!
# Chains of a functional relation

A relation under which every element has at most one successor, with a rank
that each successor raises by one. What can be reached from an element is
then a single chain, in the order of the ranks, provided the ranks are
bounded.
-/

open Relation

namespace Chain

variable {α : Type*} {R : α → α → Prop}

/-- **What is reached from an element, as a list**: each member is followed by
its successor, and nothing else is reached. -/
structure From (R : α → α → Prop) (r : α) (chain : List α) : Prop where
  isChain : chain.IsChain R
  head : chain.head? = some r
  mem_iff : ∀ a, a ∈ chain ↔ ReflTransGen R r a

theorem From.singleton {r : α} (h : ∀ a, ¬ R r a) : From R r [r] where
  isChain := List.isChain_singleton r
  head := rfl
  mem_iff a := by
    rw [List.mem_singleton]
    constructor
    · rintro rfl
      exact ReflTransGen.refl
    · intro ha
      rcases ReflTransGen.cases_head ha with rfl | ⟨b, hb, -⟩
      · rfl
      · exact absurd hb (h b)

theorem From.cons (hfun : ∀ a b c, R a b → R a c → b = c) {r b : α}
    (hb : R r b) {chain : List α} (h : From R b chain) :
    From R r (r :: chain) where
  isChain := by
    refine List.IsChain.cons h.isChain fun y hy => ?_
    rw [h.head] at hy
    exact Option.some.inj hy ▸ hb
  head := rfl
  mem_iff a := by
    rw [List.mem_cons, h.mem_iff]
    constructor
    · rintro (rfl | ha)
      · exact ReflTransGen.refl
      · exact ReflTransGen.head hb ha
    · intro ha
      rcases ReflTransGen.cases_head ha with rfl | ⟨c, hc, hca⟩
      · exact Or.inl rfl
      · exact Or.inr (hfun r b c hb hc ▸ hca)

/-- **What is reached is a single chain**, with no more members than there are
ranks left. -/
theorem exists_from {rank : α → ℕ} (hfun : ∀ a b c, R a b → R a c → b = c)
    (hrank : ∀ a b, R a b → rank b = rank a + 1) (n : ℕ) :
    ∀ {m : ℕ} {r : α}, n ≤ rank r + m + 1 →
      (∀ a, ReflTransGen R r a → rank a < n) →
      ∃ chain, From R r chain ∧ rank r + chain.length ≤ n := by
  intro m
  induction m with
  | zero =>
    intro r hm hbound
    have hr := hbound r ReflTransGen.refl
    refine ⟨[r], .singleton fun a ha => ?_, hr⟩
    have := hbound a (ReflTransGen.single ha)
    rw [hrank r a ha] at this
    omega
  | succ m ih =>
    intro r hm hbound
    by_cases hsucc : ∃ b, R r b
    · obtain ⟨b, hb⟩ := hsucc
      have hrb := hrank r b hb
      obtain ⟨chain, hchain, hlength⟩ := ih (r := b) (by omega)
        fun a ha => hbound a (ReflTransGen.head hb ha)
      exact ⟨r :: chain, hchain.cons hfun hb, by rw [List.length_cons]; omega⟩
    · have hr := hbound r ReflTransGen.refl
      exact ⟨[r], .singleton (not_exists.mp hsucc), hr⟩

/-- **The members of a chain stand at their ranks.** -/
theorem From.rank_getElem {rank : α → ℕ}
    (hrank : ∀ a b, R a b → rank b = rank a + 1) {r : α} {chain : List α}
    (h : From R r chain) (i : ℕ) :
    ∀ {a : α}, chain[i]? = some a → rank a = rank r + i := by
  induction i with
  | zero =>
    intro a ha
    rw [← List.head?_eq_getElem?, h.head] at ha
    exact congrArg rank (Option.some.inj ha).symm
  | succ i ih =>
    intro b hb
    obtain ⟨hlt, rfl⟩ := List.getElem?_eq_some_iff.mp hb
    have hprev := ih (List.getElem?_eq_getElem (Nat.lt_of_succ_lt hlt))
    rw [hrank _ _ (List.isChain_iff_getElem.mp h.isChain i hlt), hprev]
    rfl

end Chain
