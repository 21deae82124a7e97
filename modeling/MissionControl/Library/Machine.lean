import Mathlib.Data.List.Basic
import Mathlib.Data.List.Induction
import Mathlib.Data.List.Infix

/-!
# Machines with outputs

A **machine** answers an action with a next state and the outputs the step
emits. It is total: an action that a state refuses leaves the state alone
and emits nothing, so that every list of actions is a run. What a run has
emitted is its trace, which the rules below carry beside the state – a
property of the past is an invariant of the trace and the state together.

Seven rules are proved. `Machine.invariant` is induction over a run.
`Machine.always_iff_eachStep` turns "the property holds all along the run"
into a condition on each step, for a property that a step keeps exactly when
the condition holds; `Machine.always_iff_eachStep_of_stronger` does so for a
property that rests on a stronger one, and `Machine.always_and_eachStep_iff` for a
property of the states together with one of the steps.
`Machine.throughout_iff` compares two conditions on the steps of a run.
`Machine.EachStep.enteredWith` finds the step at which what holds now began to
hold. `Machine.kept_agrees_iff` compares a run with
the run that leaves some of its actions out: an observation agrees all along
the two exactly when each step meets the condition under which a coupling of
the two states survives.
-/

/-- **A machine with outputs**: the next state and the outputs of a step. -/
structure Machine (σ α ε : Type*) where
  step : σ → α → σ × List ε

namespace Machine

variable {σ α ε : Type*} (m : Machine σ α ε)

def next (s : σ) (a : α) : σ := (m.step s a).1

def emits (s : σ) (a : α) : List ε := (m.step s a).2

/-- **A run**: the actions in order, with the outputs gathered. -/
def run (s : σ) (as : List α) : σ × List ε :=
  as.foldl (fun r a => (m.next r.1 a, r.2 ++ m.emits r.1 a)) (s, [])

def state (s : σ) (as : List α) : σ := (m.run s as).1

def trace (s : σ) (as : List α) : List ε := (m.run s as).2

@[simp] theorem state_nil (s : σ) : m.state s [] = s := rfl

@[simp] theorem trace_nil (s : σ) : m.trace s [] = [] := rfl

@[simp] theorem state_concat (s : σ) (as : List α) (a : α) :
    m.state s (as ++ [a]) = m.next (m.state s as) a := by
  simp only [state, run, List.foldl_append, List.foldl_cons, List.foldl_nil]

@[simp] theorem trace_concat (s : σ) (as : List α) (a : α) :
    m.trace s (as ++ [a]) = m.trace s as ++ m.emits (m.state s as) a := by
  simp only [trace, state, run, List.foldl_append, List.foldl_cons,
    List.foldl_nil]

theorem state_append (s : σ) (as bs : List α) :
    m.state s (as ++ bs) = m.state (m.state s as) bs := by
  induction bs using List.reverseRecOn with
  | nil => rw [List.append_nil, state_nil]
  | append_singleton bs b ih =>
    rw [← List.append_assoc, state_concat, ih, state_concat]

theorem state_cons (s : σ) (a : α) (as : List α) :
    m.state s (a :: as) = m.state (m.next s a) as :=
  m.state_append s [a] as

theorem trace_append (s : σ) (as bs : List α) :
    m.trace s (as ++ bs) = m.trace s as ++ m.trace (m.state s as) bs := by
  induction bs using List.reverseRecOn with
  | nil => rw [List.append_nil, trace_nil, List.append_nil]
  | append_singleton bs b ih =>
    rw [← List.append_assoc, trace_concat, ih, trace_concat, state_append,
      List.append_assoc]

theorem trace_cons (s : σ) (a : α) (as : List α) :
    m.trace s (a :: as) = m.emits s a ++ m.trace (m.next s a) as :=
  m.trace_append s [a] as

/-! ## Other names for the actions -/

def comap {β : Type*} (f : β → α) : Machine σ β ε := ⟨fun s b => m.step s (f b)⟩

theorem run_comap {β : Type*} (f : β → α) (s : σ) (bs : List β) :
    (m.comap f).run s bs = m.run s (bs.map f) := by
  unfold run
  rw [List.foldl_map]
  rfl

theorem state_comap {β : Type*} (f : β → α) (s : σ) (bs : List β) :
    (m.comap f).state s bs = m.state s (bs.map f) := congrArg Prod.fst (m.run_comap f s bs)

theorem trace_comap {β : Type*} (f : β → α) (s : σ) (bs : List β) :
    (m.comap f).trace s bs = m.trace s (bs.map f) := congrArg Prod.snd (m.run_comap f s bs)

/-! ## Invariants -/

/-- **Induction over a run**: what holds of the empty trace and is kept by
every step holds of the trace and the state of every run. -/
theorem invariant {I : List ε → σ → Prop} {s₀ : σ} (h₀ : I [] s₀)
    (hstep : ∀ es s a, I es s → I (es ++ m.emits s a) (m.next s a))
    (as : List α) : I (m.trace s₀ as) (m.state s₀ as) := by
  induction as using List.reverseRecOn with
  | nil => exact h₀
  | append_singleton as a ih =>
    rw [state_concat, trace_concat]
    exact hstep _ _ a ih

theorem state_invariant {I : σ → Prop} {s₀ : σ} (h₀ : I s₀)
    (hstep : ∀ s a, I s → I (m.next s a)) (as : List α) :
    I (m.state s₀ as) :=
  m.invariant (I := fun _ s => I s) h₀ (fun _ s a h => hstep s a h) as

/-! ## Properties that hold all along a run -/

/-- The property holds in every state the run goes through. -/
def Always (P : σ → Prop) (s₀ : σ) (as : List α) : Prop :=
  ∀ p, p <+: as → P (m.state s₀ p)

/-- Every step of the run meets the condition, read in the state before
the step. -/
def EachStep (C : σ → α → Prop) (s₀ : σ) (as : List α) : Prop :=
  ∀ p a, p ++ [a] <+: as → C (m.state s₀ p) a

theorem eachStep_nil (C : σ → α → Prop) (s : σ) : m.EachStep C s [] := by
  intro p a hp
  simp at hp

theorem EachStep.of_concat {C : σ → α → Prop} {s₀ : σ} {as : List α} {a : α}
    (h : m.EachStep C s₀ (as ++ [a])) :
    m.EachStep C s₀ as ∧ C (m.state s₀ as) a :=
  ⟨fun p b hp => h p b (hp.trans (List.prefix_append as [a])),
    h as a (List.prefix_refl _)⟩

/-- **A property that each step keeps exactly under a condition holds all
along a run exactly when every step meets the condition**, where this is so of the
actions of the run. The invariant `J` is what the run provides for free. -/
theorem always_iff_eachStep_of_mem {J P : σ → Prop} {C : σ → α → Prop} {s₀ : σ}
    {as : List α} (hJ₀ : J s₀) (hJ : ∀ s a, J s → J (m.next s a)) (hP₀ : P s₀)
    (hC : ∀ s, ∀ a ∈ as, J s → P s → (P (m.next s a) ↔ C s a)) :
    m.Always P s₀ as ↔ m.EachStep C s₀ as := by
  have hmem : ∀ {p : List α} {a : α}, p ++ [a] <+: as → a ∈ as := fun hp =>
    hp.subset (List.mem_append_right _ (List.mem_singleton_self _))
  constructor
  · intro h p a hp
    have hpre : p <+: as := (List.prefix_append p [a]).trans hp
    have hnext : P (m.next (m.state s₀ p) a) := by
      have := h (p ++ [a]) hp
      rwa [state_concat] at this
    exact (hC _ a (hmem hp) (m.state_invariant hJ₀ hJ p) (h p hpre)).mp hnext
  · intro h p hp
    induction p using List.reverseRecOn with
    | nil => exact hP₀
    | append_singleton p a ih =>
      have hP : P (m.state s₀ p) := ih ((List.prefix_append p [a]).trans hp)
      rw [state_concat]
      exact (hC _ a (hmem hp) (m.state_invariant hJ₀ hJ p) hP).mpr (h p a hp)

/-- **A property that each step keeps exactly under a condition**, whatever the
action. -/
theorem always_iff_eachStep {J P : σ → Prop} {C : σ → α → Prop} {s₀ : σ}
    (hJ₀ : J s₀) (hJ : ∀ s a, J s → J (m.next s a)) (hP₀ : P s₀)
    (hC : ∀ s a, J s → P s → (P (m.next s a) ↔ C s a)) (as : List α) :
    m.Always P s₀ as ↔ m.EachStep C s₀ as :=
  m.always_iff_eachStep_of_mem hJ₀ hJ hP₀ fun s a _ => hC s a

/-- **A property that holds by way of a stronger one**, in a run whose steps are all of some kind: a
step that meets the condition keeps the stronger one, and a step that does not breaks the property
at once. -/
theorem always_iff_eachStep_within {I P : σ → Prop} {C D : σ → α → Prop} {s₀ : σ} {as : List α}
    (hD : m.EachStep D s₀ as) (hI₀ : I s₀) (hP : ∀ s, I s → P s)
    (hI : ∀ s a, D s a → I s → C s a → I (m.next s a))
    (hC : ∀ s a, D s a → I s → P (m.next s a) → C s a) :
    m.Always P s₀ as ↔ m.EachStep C s₀ as := by
  have hkept : ∀ {p : List α}, p <+: as → m.EachStep C s₀ p → I (m.state s₀ p) := by
    intro p hpre hp
    induction p using List.reverseRecOn with
    | nil => exact hI₀
    | append_singleton p a ih =>
      obtain ⟨hbefore, ha⟩ := hp.of_concat
      rw [state_concat]
      exact hI _ a (hD p a hpre) (ih ((List.prefix_append p [a]).trans hpre) hbefore) ha
  constructor
  · intro h
    induction as using List.reverseRecOn with
    | nil => exact m.eachStep_nil C s₀
    | append_singleton as a ih =>
      have hpre := ih hD.of_concat.1 (fun hp => hkept (hp.trans (List.prefix_append as [a])))
        fun p hp => h p (hp.trans (List.prefix_append as [a]))
      have hlast : P (m.next (m.state s₀ as) a) := by
        have := h (as ++ [a]) (List.prefix_refl _)
        rwa [state_concat] at this
      intro p b hp
      rcases List.prefix_concat_iff.mp hp with heq | hlt
      · obtain ⟨rfl, hb⟩ := List.append_inj' heq rfl
        obtain rfl : b = a := by simpa using hb
        exact hC _ b hD.of_concat.2 (hkept (List.prefix_append p [b]) hpre) hlast
      · exact hpre p b hlt
  · intro h p hp
    exact hP _ (hkept hp fun q a hq => h q a (hq.trans hp))

/-- **A property that holds by way of a stronger one**: a step that meets the condition
keeps the stronger one, and a step that does not breaks the property at once. -/
theorem always_iff_eachStep_of_stronger {I P : σ → Prop} {C : σ → α → Prop} {s₀ : σ}
    (hI₀ : I s₀) (hP : ∀ s, I s → P s)
    (hI : ∀ s a, I s → C s a → I (m.next s a))
    (hC : ∀ s a, I s → P (m.next s a) → C s a) (as : List α) :
    m.Always P s₀ as ↔ m.EachStep C s₀ as :=
  m.always_iff_eachStep_within (D := fun _ _ => True) (fun _ _ _ => trivial) hI₀ hP
    (fun s a _ => hI s a) fun s a _ => hC s a

/-- **A property of the states and one of the steps hold along a run exactly
when every step meets the condition**, if the condition is what keeps the first
and has the second. -/
theorem always_and_eachStep_iff {J P : σ → Prop} {Q C : σ → α → Prop} {s₀ : σ}
    (hJ₀ : J s₀) (hJ : ∀ s a, J s → J (m.next s a)) (hP₀ : P s₀)
    (hC : ∀ s a, J s → P s → (P (m.next s a) ∧ Q s a ↔ C s a)) (as : List α) :
    m.Always P s₀ as ∧ m.EachStep Q s₀ as ↔ m.EachStep C s₀ as := by
  constructor
  · rintro ⟨hP, hQ⟩ p a hp
    have hnext : P (m.next (m.state s₀ p) a) := by
      have := hP (p ++ [a]) hp
      rwa [state_concat] at this
    exact (hC _ a (m.state_invariant hJ₀ hJ p)
      (hP p ((List.prefix_append p [a]).trans hp))).mp ⟨hnext, hQ p a hp⟩
  · intro h
    have hP : m.Always P s₀ as := by
      intro p hp
      induction p using List.reverseRecOn with
      | nil => exact hP₀
      | append_singleton p a ih =>
        rw [state_concat]
        exact ((hC _ a (m.state_invariant hJ₀ hJ p)
          (ih ((List.prefix_append p [a]).trans hp))).mpr (h p a hp)).1
    exact ⟨hP, fun p a hp => ((hC _ a (m.state_invariant hJ₀ hJ p)
      (hP p ((List.prefix_append p [a]).trans hp))).mpr (h p a hp)).2⟩

theorem EachStep.cons {C : σ → α → Prop} {s : σ} {a : α} {as : List α}
    (ha : C s a) (has : m.EachStep C (m.next s a) as) :
    m.EachStep C s (a :: as) := by
  intro p b hp
  cases p with
  | nil =>
    obtain ⟨rfl, -⟩ := List.cons_prefix_cons.mp hp
    exact ha
  | cons c p =>
    obtain ⟨rfl, hrest⟩ := List.cons_prefix_cons.mp hp
    rw [state_cons]
    exact has p b hrest

/-- **What every step of a run keeps** holds from where it holds on. -/
theorem EachStep.holds_from {D : σ → Prop} {s₀ : σ} {as : List α}
    (h : m.EachStep (fun s a => D s → D (m.next s a)) s₀ as) {p q : List α}
    (hpq : p <+: q) (hq : q <+: as) (hD : D (m.state s₀ p)) : D (m.state s₀ q) := by
  obtain ⟨t, rfl⟩ := hpq
  induction t using List.reverseRecOn with
  | nil =>
    rw [List.append_nil]
    exact hD
  | append_singleton t a ih =>
    rw [← List.append_assoc] at hq ⊢
    rw [state_concat]
    exact h _ a hq (ih ((List.prefix_append _ [a]).trans hq))

/-- Every step of the run meets the condition, read in what the run has shown
and the state it is in before the step. -/
def Throughout (C : List ε → σ → α → Prop) (s₀ : σ) (as : List α) : Prop :=
  ∀ p a, p ++ [a] <+: as → C (m.trace s₀ p) (m.state s₀ p) a

theorem Throughout.of_prefix {C : List ε → σ → α → Prop} {s₀ : σ}
    {as bs : List α} (h : m.Throughout C s₀ as) (hbs : bs <+: as) :
    m.Throughout C s₀ bs := fun p a hp => h p a (hp.trans hbs)

theorem throughout_nil (C : List ε → σ → α → Prop) (s₀ : σ) : m.Throughout C s₀ [] := by
  intro p a hp
  simp at hp

theorem throughout_concat {C : List ε → σ → α → Prop} {s₀ : σ} {as : List α} {a : α} :
    m.Throughout C s₀ (as ++ [a])
      ↔ m.Throughout C s₀ as ∧ C (m.trace s₀ as) (m.state s₀ as) a := by
  refine ⟨fun h => ⟨h.of_prefix m (List.prefix_append as [a]),
    h as a (List.prefix_refl _)⟩, fun ⟨h, ha⟩ p b hp => ?_⟩
  rcases List.prefix_concat_iff.mp hp with heq | hlt
  · obtain ⟨rfl, hb⟩ := List.append_inj' heq rfl
    obtain rfl : b = a := by simpa using hb
    exact ha
  · exact h p b hlt

theorem throughout_map {β : Type*} {f : β → α} {C : List ε → σ → α → Prop} {s₀ : σ}
    {bs : List β} (h : (m.comap f).Throughout (fun es s b => C es s (f b)) s₀ bs) :
    m.Throughout C s₀ (bs.map f) := by
  induction bs using List.reverseRecOn with
  | nil => exact m.throughout_nil C s₀
  | append_singleton bs b ih =>
    obtain ⟨hbs, hb⟩ := (m.comap f).throughout_concat.mp h
    rw [trace_comap, state_comap] at hb
    rw [List.map_append]
    exact m.throughout_concat.mpr ⟨ih hbs, hb⟩

/-- **An invariant of the runs whose steps meet a condition.** -/
theorem Throughout.invariant {I : List ε → σ → Prop}
    {C : List ε → σ → α → Prop} {s₀ : σ} (h₀ : I [] s₀)
    (hstep : ∀ es s a, I es s → C es s a → I (es ++ m.emits s a) (m.next s a))
    {as : List α} (h : m.Throughout C s₀ as) :
    I (m.trace s₀ as) (m.state s₀ as) := by
  induction as using List.reverseRecOn with
  | nil => exact h₀
  | append_singleton as a ih =>
    rw [state_concat, trace_concat]
    exact hstep _ _ a (ih (h.of_prefix m (List.prefix_append as [a])))
      (h as a (List.prefix_refl _))

/-- **Two conditions on the steps of a run are one**, if they agree wherever
an invariant holds that the steps keep which meet the second. -/
theorem throughout_iff {I : List ε → σ → Prop} {C D : List ε → σ → α → Prop}
    {s₀ : σ} (h₀ : I [] s₀)
    (hstep : ∀ es s a, I es s → D es s a → I (es ++ m.emits s a) (m.next s a))
    (hCD : ∀ es s a, I es s → (C es s a ↔ D es s a)) (as : List α) :
    m.Throughout C s₀ as ↔ m.Throughout D s₀ as := by
  induction as using List.reverseRecOn with
  | nil => exact ⟨fun _ => m.throughout_nil D s₀, fun _ => m.throughout_nil C s₀⟩
  | append_singleton as a ih =>
    rw [throughout_concat, throughout_concat, ih]
    refine and_congr_right fun h => ?_
    exact hCD _ _ a (h.invariant m h₀ hstep)

/-! ## When a property began to hold -/

/-- **The property was entered at a step where the condition held**, and has
held since. -/
def EnteredWith (D A : σ → Prop) (s₀ : σ) (as : List α) : Prop :=
  ∃ p a, p ++ [a] <+: as ∧ ¬ D (m.state s₀ p) ∧ A (m.state s₀ p)
    ∧ ∀ q, p ++ [a] <+: q → q <+: as → D (m.state s₀ q)

/-- **What holds now was entered at some step**: if each step of the run that
enters the property finds the condition, then where the property holds it was
entered with it. -/
theorem EachStep.enteredWith {D A : σ → Prop} {C : σ → α → Prop} {s₀ : σ}
    (h₀ : ¬ D s₀)
    (hstep : ∀ s a, C s a → ¬ D s → D (m.next s a) → A s)
    {as : List α} (hC : m.EachStep C s₀ as) (hD : D (m.state s₀ as)) :
    m.EnteredWith D A s₀ as := by
  induction as using List.reverseRecOn with
  | nil => exact absurd hD h₀
  | append_singleton as a ih =>
    obtain ⟨hpre, ha⟩ := hC.of_concat
    by_cases hbefore : D (m.state s₀ as)
    · -- it held before the last step: it was entered earlier
      obtain ⟨p, b, hpb, hnot, hA, hsince⟩ := ih hpre hbefore
      refine ⟨p, b, hpb.trans (List.prefix_append as [a]), hnot, hA, ?_⟩
      intro q hq hqas
      rcases List.prefix_concat_iff.mp hqas with rfl | hlt
      · exact hD
      · exact hsince q hq hlt
    · refine ⟨as, a, List.prefix_refl _, hbefore, ?_, ?_⟩
      · rw [state_concat] at hD
        exact hstep _ a ha hbefore hD
      · intro q hq hqas
        have hlen := hqas.length_le
        rw [hq.eq_of_length_le hlen] at hD
        exact hD

/-! ## Leaving actions out of a run -/

/-- **The actions of a run that a filter keeps**, the filter reading the
state the action is played in. -/
def kept (keep : σ → α → Bool) : σ → List α → List α
  | _, [] => []
  | s, a :: as => (if keep s a then [a] else []) ++ kept keep (m.next s a) as

theorem kept_concat (keep : σ → α → Bool) (s : σ) (as : List α) (a : α) :
    m.kept keep s (as ++ [a])
      = m.kept keep s as ++ (if keep (m.state s as) a then [a] else []) := by
  induction as generalizing s with
  | nil =>
    rw [List.nil_append, kept, kept, kept, List.append_nil]
    rfl
  | cons b as ih =>
    rw [List.cons_append, kept, ih, kept, state_cons, List.append_assoc]

theorem state_kept_concat (keep : σ → α → Bool) (s : σ) (as : List α)
    (a : α) :
    m.state s (m.kept keep s (as ++ [a]))
      = if keep (m.state s as) a then m.next (m.state s (m.kept keep s as)) a
        else m.state s (m.kept keep s as) := by
  rw [kept_concat]
  split
  · rw [state_concat]
  · rw [List.append_nil]

/-- **A coupling along the two runs**: it survives every step that meets
the condition. -/
theorem kept_coupled {keep : σ → α → Bool} {R : σ → σ → Prop}
    {C : σ → α → Prop} {s₀ : σ} (h₀ : R s₀ s₀)
    (hR : ∀ s t a, R s t → C s a →
      R (m.next s a) (if keep s a then m.next t a else t))
    {as : List α} (hC : m.EachStep C s₀ as) :
    R (m.state s₀ as) (m.state s₀ (m.kept keep s₀ as)) := by
  induction as using List.reverseRecOn with
  | nil => exact h₀
  | append_singleton as a ih =>
    obtain ⟨hpre, ha⟩ := hC.of_concat
    rw [state_concat, state_kept_concat]
    exact hR _ _ a (ih hpre) ha

/-- **Leaving actions out changes no observation exactly when every step
meets the condition**: the coupling `R` implies that the observation `Q`
agrees, survives a step that meets the condition, and a step that does not
breaks the observation at once. The assumption `A` is what is known of the
steps of the run. -/
theorem kept_agrees_iff {keep : σ → α → Bool} {R Q : σ → σ → Prop}
    {A C : σ → α → Prop} {s₀ : σ} (h₀ : R s₀ s₀) (hQ : ∀ s t, R s t → Q s t)
    (hR : ∀ s t a, R s t → A s a → C s a →
      R (m.next s a) (if keep s a then m.next t a else t))
    (hbreak : ∀ s t a, R s t → A s a → ¬ C s a →
      ¬ Q (m.next s a) (if keep s a then m.next t a else t))
    {as : List α} (hA : m.EachStep A s₀ as) :
    (∀ p, p <+: as → Q (m.state s₀ p) (m.state s₀ (m.kept keep s₀ p)))
      ↔ m.EachStep C s₀ as := by
  have hcoupled : ∀ p, m.EachStep A s₀ p → m.EachStep C s₀ p →
      R (m.state s₀ p) (m.state s₀ (m.kept keep s₀ p)) := by
    intro p hAp hCp
    refine m.kept_coupled h₀ (C := fun s a => A s a ∧ C s a) ?_
      (fun q a hq => ⟨hAp q a hq, hCp q a hq⟩)
    exact fun s t a hst hac => hR s t a hst hac.1 hac.2
  constructor
  · intro h
    induction as using List.reverseRecOn with
    | nil => exact m.eachStep_nil C s₀
    | append_singleton as a ih =>
      obtain ⟨hAas, hAa⟩ := hA.of_concat
      have hpre : m.EachStep C s₀ as :=
        ih hAas (fun p hp => h p (hp.trans (List.prefix_append as [a])))
      intro p b hp
      rcases List.prefix_concat_iff.mp hp with heq | hlt
      · obtain ⟨rfl, hba⟩ := List.append_inj' heq rfl
        obtain rfl : b = a := by simpa using hba
        by_contra hb
        have hQa := h (p ++ [b]) (List.prefix_refl _)
        rw [state_concat, state_kept_concat] at hQa
        exact hbreak _ _ b (hcoupled p hAas hpre) hAa hb hQa
      · exact hpre p b hlt
  · intro h p hp
    exact hQ _ _ (hcoupled p (fun q a hq => hA q a (hq.trans hp))
      (fun q a hq => h q a (hq.trans hp)))

end Machine
