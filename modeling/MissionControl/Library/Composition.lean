import MissionControl.Library.Machine

/-!
# Machines in line, and in batches

A machine can feed another one: what the first emits are the actions of the second
(`Machine.pipe`). And actions can arrive in batches, each of which is a run
(`Machine.batched`): how they were batched is forgotten then. The run of either is a run of
the machines it is made of, so that what is known of those carries over.
-/

namespace Machine

variable {σ τ α β ε : Type*}

/-! ## What a run has emitted before -/

theorem trace_prefix (m : Machine σ α ε) (s : σ) {as bs : List α} (h : as <+: bs) :
    m.trace s as <+: m.trace s bs := by
  obtain ⟨cs, rfl⟩ := h
  rw [trace_append]
  exact List.prefix_append _ _

theorem trace_eq_nil_of_prefix (m : Machine σ α ε) (s : σ) {as bs : List α} (h : as <+: bs)
    (hbs : m.trace s bs = []) : m.trace s as = [] :=
  List.prefix_nil.mp (hbs ▸ m.trace_prefix s h)

/-! ## In line -/

/-- **Two machines in line**: what the first one emits are the actions of the second. -/
def pipe (m : Machine σ α β) (n : Machine τ β ε) : Machine (σ × τ) α ε where
  step s a := ((m.next s.1 a, n.state s.2 (m.emits s.1 a)), n.trace s.2 (m.emits s.1 a))

variable (m : Machine σ α β) (n : Machine τ β ε)

theorem state_pipe (s : σ × τ) (as : List α) :
    (m.pipe n).state s as = (m.state s.1 as, n.state s.2 (m.trace s.1 as)) := by
  induction as using List.reverseRecOn with
  | nil => rfl
  | append_singleton as a ih =>
    rw [state_concat, state_concat, trace_concat, state_append, ih]
    rfl

/-- **The second machine runs on what the first one has emitted.** -/
theorem trace_pipe (s : σ × τ) (as : List α) :
    (m.pipe n).trace s as = n.trace s.2 (m.trace s.1 as) := by
  induction as using List.reverseRecOn with
  | nil => rfl
  | append_singleton as a ih =>
    rw [trace_concat, trace_concat, trace_append, ih, state_pipe]
    rfl

/-! ## In batches -/

/-- **A machine whose actions arrive in batches.** -/
def batched (m : Machine σ α ε) : Machine σ (List α) ε := ⟨m.run⟩

/-- **How the actions are batched makes no difference.** -/
theorem trace_batched (m : Machine σ α ε) (s : σ) (batches : List (List α)) :
    m.batched.trace s batches = m.trace s batches.flatten := by
  induction batches generalizing s with
  | nil => rfl
  | cons batch batches ih =>
    rw [trace_cons, List.flatten_cons, trace_append, ih]
    rfl

end Machine
