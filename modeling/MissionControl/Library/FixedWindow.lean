import Mathlib.Algebra.Order.Group.Defs
import Mathlib.Data.List.Basic
import Mathlib.Tactic.Common

/-!
# Counting requests in fixed windows

A **fixed window** counts the requests of one client. The first request opens a
window of a given width and is admitted; a request up to the end of the window
is counted, and admitted while the count is within the limit; the next one after
the end opens another window. An expired window may be forgotten at any time.

Times are the elements of any linearly ordered group. In a window at most the
limit is admitted (`Window.countP_le_of_opens`). An interval as long as a window
meets two windows at most, since the next window opens after the end of the one
before: twice the limit is admitted in it (`Window.countP_interval_le`).
-/

/-- A window that has been opened: the requests in it, and its end. -/
structure Window (τ : Type*) where
  count : ℕ
  resetAt : τ

/-- What happens to the window of a client. -/
inductive WindowEvent (τ : Type*) where
  | request (now : τ)
  | cleanup (now : τ)

namespace Window

variable {τ : Type*} [LinearOrder τ]

/-- Whether there is a window that has not expired. -/
def Live (w : Option (Window τ)) (now : τ) : Prop := ∃ e, w = some e ∧ now ≤ e.resetAt

def clean (now : τ) : Option (Window τ) → Option (Window τ)
  | some e => if e.resetAt < now then none else some e
  | none => none

variable [AddCommGroup τ] (width : τ) (limit : ℕ)

/-- **A request**: the window it leaves, and whether it is admitted. -/
def request (now : τ) : Option (Window τ) → Option (Window τ) × Bool
  | some e =>
    if e.resetAt < now then (some ⟨1, now + width⟩, true)
    else (some ⟨e.count + 1, e.resetAt⟩, decide (e.count + 1 ≤ limit))
  | none => (some ⟨1, now + width⟩, true)

/-- The answers to the requests among some events, with their times. -/
def answers : Option (Window τ) → List (WindowEvent τ) → List (τ × Bool)
  | _, [] => []
  | w, .cleanup now :: es => answers (clean now w) es
  | w, .request now :: es =>
    (now, (request width limit now w).2) :: answers (request width limit now w).1 es

/-- **The times at which requests are admitted.** -/
def admitted (w : Option (Window τ)) (es : List (WindowEvent τ)) : List τ :=
  ((answers width limit w es).filter Prod.snd).map Prod.fst

end Window

def WindowEvent.now {τ : Type*} : WindowEvent τ → τ
  | request now => now
  | cleanup now => now

namespace Window

variable {τ : Type*} [LinearOrder τ]

/-! ## One request -/

theorem clean_of_le {e : Window τ} {now : τ} (h : now ≤ e.resetAt) :
    clean now (some e) = some e := if_neg (not_lt.mpr h)

theorem not_live_clean {w : Option (Window τ)} {lo now : τ} (h : ¬ Live w lo) :
    ¬ Live (clean now w) lo := by
  rintro ⟨e, he, hle⟩
  unfold clean at he
  split at he
  · split at he
    · exact nomatch he
    · exact h ⟨e, he, hle⟩
  · exact nomatch he

theorem not_live_mono {w : Option (Window τ)} {lo now : τ} (h : ¬ Live w lo)
    (hle : lo ≤ now) : ¬ Live w now := by
  rintro ⟨e, he, hnow⟩
  exact h ⟨e, he, hle.trans hnow⟩

variable [AddCommGroup τ] {width : τ} {limit : ℕ}

/-- **A request without a live window opens one.** -/
theorem request_of_not_live {w : Option (Window τ)} {now : τ} (h : ¬ Live w now) :
    request width limit now w = (some ⟨1, now + width⟩, true) := by
  cases w with
  | none => rfl
  | some e => exact if_pos (lt_of_not_ge fun hle => h ⟨e, rfl, hle⟩)

theorem request_of_le {e : Window τ} {now : τ} (h : now ≤ e.resetAt) :
    request width limit now (some e)
      = (some ⟨e.count + 1, e.resetAt⟩, decide (e.count + 1 ≤ limit)) :=
  if_neg (not_lt.mpr h)

theorem admitted_cleanup (w : Option (Window τ)) (now : τ) (es : List (WindowEvent τ)) :
    admitted width limit w (.cleanup now :: es) = admitted width limit (clean now w) es :=
  rfl

theorem admitted_request (w : Option (Window τ)) (now : τ) (es : List (WindowEvent τ)) :
    admitted width limit w (.request now :: es)
      = (if (request width limit now w).2 then [now] else [])
        ++ admitted width limit (request width limit now w).1 es := by
  unfold admitted
  rw [answers, List.filter_cons]
  split <;> simp [*]

theorem countP_request {w : Option (Window τ)} {now : τ} {es : List (WindowEvent τ)}
    {p : τ → Bool} (hp : p now = false) :
    (admitted width limit w (.request now :: es)).countP p
      = (admitted width limit (request width limit now w).1 es).countP p := by
  rw [admitted_request, List.countP_append]
  split
  · rw [List.countP_singleton, if_neg (by rw [hp]; exact Bool.false_ne_true), Nat.zero_add]
  · rw [List.countP_nil, Nat.zero_add]

theorem exists_of_mem_admitted {w : Option (Window τ)} {es : List (WindowEvent τ)} {t : τ}
    (h : t ∈ admitted width limit w es) : ∃ e ∈ es, e.now = t := by
  induction es generalizing w with
  | nil => exact absurd h List.not_mem_nil
  | cons e es ih =>
    cases e with
    | cleanup now =>
      obtain ⟨e, he, ht⟩ := ih h
      exact ⟨e, List.mem_cons_of_mem _ he, ht⟩
    | request now =>
      rw [admitted_request] at h
      rcases List.mem_append.mp h with hnow | h
      · have ht : t = now := by
          split at hnow
          · exact List.mem_singleton.mp hnow
          · exact absurd hnow List.not_mem_nil
        exact ⟨.request now, List.mem_cons_self, ht.symm⟩
      · obtain ⟨e, he, ht⟩ := ih h
        exact ⟨e, List.mem_cons_of_mem _ he, ht⟩

/-! ## What is admitted in a window -/

def Ordered (es : List (WindowEvent τ)) : Prop := es.Pairwise fun a b => a.now ≤ b.now

theorem countP_of_lt {w : Option (Window τ)} {es : List (WindowEvent τ)} {hi : τ}
    {p : τ → Bool} (hp : ∀ t, p t = true → t ≤ hi) (h : ∀ e ∈ es, hi < e.now) :
    (admitted width limit w es).countP p = 0 := by
  refine List.countP_eq_zero.mpr fun t ht hpt => ?_
  obtain ⟨e, he, rfl⟩ := exists_of_mem_admitted ht
  exact absurd (hp _ hpt) (not_le.mpr (h e he))

/-- **In the rest of an open window** no more is admitted than the limit leaves. -/
theorem countP_open_le {e : Window τ} {es : List (WindowEvent τ)} (hes : Ordered es) :
    (admitted width limit (some e) es).countP (· ≤ e.resetAt) = 0
      ∨ e.count + (admitted width limit (some e) es).countP (· ≤ e.resetAt) ≤ limit := by
  induction es generalizing e with
  | nil => exact .inl rfl
  | cons event es ih =>
    obtain ⟨hfirst, htail⟩ := List.pairwise_cons.mp hes
    by_cases hle : event.now ≤ e.resetAt
    · cases event with
      | cleanup now =>
        have hnow : now ≤ e.resetAt := hle
        rw [admitted_cleanup, clean_of_le hnow]
        exact ih htail
      | request now =>
        have hnow : now ≤ e.resetAt := hle
        have hrest := ih (e := ⟨e.count + 1, e.resetAt⟩) htail
        rw [admitted_request, request_of_le hnow]
        by_cases hcount : e.count + 1 ≤ limit
        · rw [if_pos (decide_eq_true hcount), List.countP_append, List.countP_singleton,
            if_pos (decide_eq_true hnow)]
          right
          rcases hrest with hzero | hbound
          · dsimp only at hzero ⊢
            omega
          · dsimp only at hbound ⊢
            omega
        · rw [if_neg (by simpa using hcount), List.nil_append]
          rcases hrest with hzero | hbound
          · exact .inl hzero
          · dsimp only at hbound
            omega
    · -- the window has expired, and everything that follows is later
      have hlater : ∀ a ∈ event :: es, e.resetAt < a.now := by
        intro a ha
        rcases List.mem_cons.mp ha with rfl | ha
        · exact not_le.mp hle
        · exact (not_le.mp hle).trans_le (hfirst a ha)
      exact .inl (countP_of_lt (fun t ht => of_decide_eq_true ht) hlater)

variable [IsOrderedAddMonoid τ]

/-- **Where there is no live window**, the limit is admitted in the width of one
at most. -/
theorem countP_le_of_not_live {w : Option (Window τ)} {es : List (WindowEvent τ)}
    {lo hi : τ} (hlimit : 1 ≤ limit) (hw : ¬ Live w lo) (hes : Ordered es)
    (hlo : ∀ e ∈ es, lo ≤ e.now) (hhi : hi ≤ lo + width) :
    (admitted width limit w es).countP (· ≤ hi) ≤ limit := by
  induction es generalizing w with
  | nil => exact Nat.zero_le _
  | cons event es ih =>
    obtain ⟨-, htail⟩ := List.pairwise_cons.mp hes
    have hnow : lo ≤ event.now := hlo event List.mem_cons_self
    have hrest : ∀ e ∈ es, lo ≤ e.now := fun e he => hlo e (List.mem_cons_of_mem _ he)
    cases event with
    | cleanup now =>
      rw [admitted_cleanup]
      exact ih (not_live_clean hw) htail hrest
    | request now =>
      -- the window that opens here holds everything up to `hi`
      have hend : hi ≤ now + width := hhi.trans (add_le_add_left hnow width)
      have hopens : ¬ Live w now := not_live_mono hw hnow
      rw [admitted_request, request_of_not_live hopens, if_pos rfl, List.countP_append]
      have hmono : (admitted width limit (some ⟨1, now + width⟩) es).countP (· ≤ hi)
          ≤ (admitted width limit (some ⟨1, now + width⟩) es).countP (· ≤ now + width) :=
        List.countP_mono_left fun t _ ht => decide_eq_true ((of_decide_eq_true ht).trans hend)
      have hone : [now].countP (· ≤ hi) ≤ 1 := List.countP_le_length
      have hopen := @countP_open_le τ _ _ width limit ⟨1, now + width⟩ es htail
      dsimp only at hopen ⊢
      omega

/-- **In a window at most the limit is admitted**, from its opening on. -/
theorem countP_le_of_opens {w : Option (Window τ)} {now : τ} {es : List (WindowEvent τ)}
    (hlimit : 1 ≤ limit) (hw : ¬ Live w now) (hes : Ordered (.request now :: es)) :
    (admitted width limit w (.request now :: es)).countP (· ≤ now + width) ≤ limit := by
  refine countP_le_of_not_live hlimit hw hes ?_ le_rfl
  intro e he
  rcases List.mem_cons.mp he with rfl | he
  · exact le_rfl
  · exact (List.pairwise_cons.mp hes).1 e he

/-! ## What is admitted in any interval -/

omit [LinearOrder τ] [AddCommGroup τ] [IsOrderedAddMonoid τ] in
/-- What is counted is counted once for each of two properties, one of which it
has. -/
theorem countP_le_add {p q r : τ → Bool} {l : List τ}
    (h : ∀ t, p t = true → q t = true ∨ r t = true) :
    l.countP p ≤ l.countP q + l.countP r := by
  induction l with
  | nil => exact Nat.zero_le _
  | cons t l ih =>
    rw [List.countP_cons, List.countP_cons, List.countP_cons]
    by_cases hp : p t = true
    · rcases h t hp with hq | hr
      · rw [if_pos hp, if_pos hq]
        omega
      · rw [if_pos hp, if_pos hr]
        omega
    · rw [if_neg hp]
      omega

/-- **After the end of a window**, the limit is admitted in the width of one at
most. -/
theorem countP_after_le {e : Window τ} {es : List (WindowEvent τ)} {hi : τ}
    (hlimit : 1 ≤ limit) (hes : Ordered es) (hhi : hi ≤ e.resetAt + width) :
    (admitted width limit (some e) es).countP (fun t => e.resetAt < t ∧ t ≤ hi) ≤ limit := by
  induction es generalizing e with
  | nil => exact Nat.zero_le _
  | cons event es ih =>
    obtain ⟨hfirst, htail⟩ := List.pairwise_cons.mp hes
    by_cases hle : event.now ≤ e.resetAt
    · cases event with
      | cleanup now =>
        have hnow : now ≤ e.resetAt := hle
        rw [admitted_cleanup, clean_of_le hnow]
        exact ih htail hhi
      | request now =>
        have hnow : now ≤ e.resetAt := hle
        have hnot : decide (e.resetAt < now ∧ now ≤ hi) = false := by
          simpa using fun h => absurd h (not_lt.mpr hnow)
        rw [countP_request (p := fun t => e.resetAt < t ∧ t ≤ hi) hnot, request_of_le hnow]
        exact ih (e := ⟨e.count + 1, e.resetAt⟩) htail hhi
    · -- the next window opens after the end of this one
      have hall : ∀ a ∈ event :: es, event.now ≤ a.now := by
        intro a ha
        rcases List.mem_cons.mp ha with rfl | ha
        · exact le_rfl
        · exact hfirst a ha
      have hdead : ¬ Live (some e) event.now := by
        rintro ⟨e', he', hlive⟩
        obtain rfl := Option.some.inj he'
        exact hle hlive
      have hend : hi ≤ event.now + width :=
        hhi.trans (add_le_add_left (not_le.mp hle).le width)
      refine (List.countP_mono_left fun t _ ht => ?_).trans
        (countP_le_of_not_live hlimit hdead hes hall hend)
      exact decide_eq_true (of_decide_eq_true ht).2

/-- **In an interval as long as a window** at most twice the limit is admitted: it
meets two windows. -/
theorem countP_interval_le {w : Option (Window τ)} {es : List (WindowEvent τ)} {lo hi : τ}
    (hlimit : 1 ≤ limit) (hes : Ordered es) (hhi : hi ≤ lo + width) :
    (admitted width limit w es).countP (fun t => lo ≤ t ∧ t ≤ hi) ≤ 2 * limit := by
  induction es generalizing w with
  | nil => exact Nat.zero_le _
  | cons event es ih =>
    obtain ⟨hfirst, htail⟩ := List.pairwise_cons.mp hes
    by_cases hbefore : event.now < lo
    · cases event with
      | cleanup now => exact ih htail
      | request now =>
        have hlt : now < lo := hbefore
        have hnot : decide (lo ≤ now ∧ now ≤ hi) = false := by
          simpa using fun h => absurd h (not_le.mpr hlt)
        rw [countP_request (p := fun t => lo ≤ t ∧ t ≤ hi) hnot]
        exact ih htail
    · have hall : ∀ a ∈ event :: es, lo ≤ a.now := by
        intro a ha
        rcases List.mem_cons.mp ha with rfl | ha
        · exact not_lt.mp hbefore
        · exact (not_lt.mp hbefore).trans (hfirst a ha)
      by_cases hlive : Live w lo
      · -- the window that is open, and the one after it
        obtain ⟨e, rfl, hend⟩ := hlive
        have hsplit : (admitted width limit (some e) (event :: es)).countP
              (fun t => lo ≤ t ∧ t ≤ hi)
            ≤ (admitted width limit (some e) (event :: es)).countP (· ≤ e.resetAt)
              + (admitted width limit (some e) (event :: es)).countP
                (fun t => e.resetAt < t ∧ t ≤ hi) := by
          refine countP_le_add fun t ht => ?_
          rcases le_or_gt t e.resetAt with hle | hgt
          · exact .inl (decide_eq_true hle)
          · exact .inr (decide_eq_true ⟨hgt, (of_decide_eq_true ht).2⟩)
        have hafter := countP_after_le (e := e) hlimit hes
          (hhi.trans (add_le_add_left hend width))
        have hopen := @countP_open_le τ _ _ width limit e _ hes
        omega
      · have hone := countP_le_of_not_live hlimit hlive hes hall hhi
        have hmono : (admitted width limit w (event :: es)).countP
              (fun t => lo ≤ t ∧ t ≤ hi)
            ≤ (admitted width limit w (event :: es)).countP (· ≤ hi) :=
          List.countP_mono_left fun t _ ht => decide_eq_true (of_decide_eq_true ht).2
        omega

/-! ## Forgetting expired windows -/

/-- Two windows that are the same, but for one that has expired and is forgotten. -/
def Agree (now : τ) (w w' : Option (Window τ)) : Prop :=
  w = w' ∨ ¬ Live w now ∧ ¬ Live w' now

omit [AddCommGroup τ] [IsOrderedAddMonoid τ] in
theorem agree_mono {w w' : Option (Window τ)} {lo now : τ} (h : Agree lo w w')
    (hle : lo ≤ now) : Agree now w w' :=
  h.imp_right fun h => ⟨not_live_mono h.1 hle, not_live_mono h.2 hle⟩

omit [AddCommGroup τ] [IsOrderedAddMonoid τ] in
theorem agree_clean {w w' : Option (Window τ)} {now : τ} (h : Agree now w w') :
    Agree now (clean now w) w' := by
  by_cases hlive : Live w now
  · obtain ⟨e, rfl, hend⟩ := hlive
    rcases h with rfl | ⟨h, -⟩
    · rw [clean_of_le hend]
      exact .inl rfl
    · exact absurd ⟨e, rfl, hend⟩ h
  · refine .inr ⟨not_live_clean hlive, ?_⟩
    rcases h with rfl | ⟨-, h⟩
    · exact hlive
    · exact h

end Window
