import MissionControl.JsonText
import MissionControl.Transport
import MissionControl.Library.Machine
import MissionControl.Library.Utf8

/-!
# The client side of the provisioner socket

`callProvisioner` sets up a timer and four handlers and returns a promise.
The handlers share the text received so far, the timer and the promise; they
run in whatever order the socket calls them. A call is a `Machine` over the
events of its socket, and its outputs are what it does to the socket.

The result is `callProvisioner_answerable_iff`: a promise that nothing can
settle any more – neither the timer nor, with the socket closed, a further
event – is left behind exactly when the socket is closed before anything was
received. The `close` handler then clears the timer and settles nothing.
-/

namespace MissionControl

/-- The object of a request, as it is sent. `JSON.stringify` leaves
`undefined` out. -/
def ProvisionerPayload.toJson (payload : ProvisionerPayload) : Json :=
  .obj ([("token", .str payload.token), ("command", payload.command),
      ("args", .arr payload.args), ("timeoutMs", payload.timeoutMs),
      ("dryRun", .bool payload.dryRun)]
    ++ (payload.stepKey.map (fun key => ("stepKey", key))).toList)

/-- The octets of the line an object is sent as. -/
def jsonLine (rt : Runtime) (j : Json) : List ℕ :=
  Utf8.encode (j.stringify rt ++ ['\n'])

/-! ## A call -/

inductive SocketEvent where
  | connect
  | data (chunk : List ℕ)
  | error (message : String)
  | close
  | timeout

inductive SocketAction where
  | write (octets : List ℕ)
  | finish
  | destroy

/-- **A call of `callProvisioner`**, between two events. -/
structure ProvisionerCall where
  raw : List Char
  armed : Bool
  outcome : Option (Except Exception Json)

def ProvisionerCall.start : ProvisionerCall := ⟨[], true, none⟩

/-- `resolve` and `reject`: a promise is settled once. -/
def ProvisionerCall.settle (c : ProvisionerCall)
    (outcome : Except Exception Json) : ProvisionerCall :=
  { c with outcome := c.outcome.or (some outcome) }

/-- `clearTimeout(timeout)`. -/
def ProvisionerCall.clearTimeout (c : ProvisionerCall) : ProvisionerCall :=
  { c with armed := false }

variable (rt : Runtime) (syntaxError : List Char → String)

/-- The outcome of a line: the value it says, or the error of `JSON.parse`. -/
def readResponse (line : List Char) : Except Exception Json :=
  match Json.parse rt line with
  | some parsed => .ok parsed
  | none => .error (.error
      ("Invalid provisioner response: " ++ syntaxError line))

/-- **The handlers of `callProvisioner`** for one request. A timer that is
not set does not go off. -/
def ProvisionerCall.handle (payload : ProvisionerPayload) (c : ProvisionerCall) :
    SocketEvent → ProvisionerCall × List SocketAction
  | .connect => (c, [.write (jsonLine rt payload.toJson)])
  | .data chunk =>
    let c := { c with raw := c.raw ++ Utf8.decode chunk }
    if '\n' ∈ c.raw then
      (c.clearTimeout.settle
        (readResponse rt syntaxError (c.raw.takeWhile (· ≠ '\n'))), [.finish])
    else (c, [])
  | .error message =>
    (c.clearTimeout.settle
      (.error (.error ("Provisioner socket error: " ++ message))), [])
  | .close => (if c.raw = [] then c.clearTimeout else c, [])
  | .timeout =>
    if c.armed then
      (c.clearTimeout.settle (.error (.error "Provisioner socket timeout")),
        [.destroy])
    else (c, [])

/-- **`callProvisioner`**, as a machine over the events of its socket. -/
def callProvisioner (payload : ProvisionerPayload) :
    Machine ProvisionerCall SocketEvent SocketAction :=
  ⟨ProvisionerCall.handle rt syntaxError payload⟩

/-! ## No call hangs -/

def ProvisionerCall.Settled (c : ProvisionerCall) : Prop := c.outcome ≠ none

/-- Something is left that settles the promise at last. -/
def ProvisionerCall.Answerable (c : ProvisionerCall) : Prop :=
  c.Settled ∨ c.armed = true

/-- An event that leaves something behind: it settles the promise, or it
brings text. -/
def SocketEvent.Answers : SocketEvent → Prop
  | .connect => False
  | .data chunk => chunk ≠ []
  | .error _ => True
  | .close => False
  | .timeout => True

section Settling

variable (c : ProvisionerCall) (outcome : Except Exception Json)

theorem ProvisionerCall.settled_settle : (c.settle outcome).Settled := by
  unfold settle Settled
  cases c.outcome <;> simp

theorem ProvisionerCall.settle_outcome {o : Except Exception Json}
    (h : c.outcome = some o) : (c.settle outcome).outcome = some o := by
  unfold settle
  rw [h]
  rfl

end Settling

variable {rt syntaxError} {payload : ProvisionerPayload} (c : ProvisionerCall)

theorem ProvisionerCall.next_data_pending {chunk : List ℕ}
    (h : '\n' ∉ c.raw ++ Utf8.decode chunk) :
    (callProvisioner rt syntaxError payload).next c (.data chunk)
      = { c with raw := c.raw ++ Utf8.decode chunk } :=
  congrArg Prod.fst (if_neg h)

theorem ProvisionerCall.next_data_line {chunk : List ℕ}
    (h : '\n' ∈ c.raw ++ Utf8.decode chunk) :
    (callProvisioner rt syntaxError payload).next c (.data chunk)
      = ProvisionerCall.settle
          { c with raw := c.raw ++ Utf8.decode chunk, armed := false }
          (readResponse rt syntaxError
            ((c.raw ++ Utf8.decode chunk).takeWhile (· ≠ '\n'))) :=
  congrArg Prod.fst (if_pos h)

theorem ProvisionerCall.next_close :
    (callProvisioner rt syntaxError payload).next c .close
      = if c.raw = [] then c.clearTimeout else c := rfl

theorem ProvisionerCall.next_timeout :
    (callProvisioner rt syntaxError payload).next c .timeout
      = if c.armed then
          c.clearTimeout.settle (.error (.error "Provisioner socket timeout"))
        else c := by
  show (ProvisionerCall.handle rt syntaxError payload c .timeout).1 = _
  unfold handle
  dsimp only
  split
  · rfl
  · rfl

theorem ProvisionerCall.outcome_next {o : Except Exception Json} {c : ProvisionerCall}
    (h : c.outcome = some o) (e : SocketEvent) :
    ((callProvisioner rt syntaxError payload).next c e).outcome = some o := by
  cases e with
  | connect => exact h
  | data chunk =>
    by_cases hline : '\n' ∈ c.raw ++ Utf8.decode chunk
    · rw [next_data_line _ hline]
      exact settle_outcome _ _ h
    · rw [next_data_pending _ hline]
      exact h
  | error message => exact settle_outcome _ _ h
  | close =>
    rw [next_close]
    split <;> exact h
  | timeout =>
    rw [next_timeout]
    split
    · exact settle_outcome _ _ h
    · exact h

theorem ProvisionerCall.outcome_kept {o : Except Exception Json} {c : ProvisionerCall}
    (h : c.outcome = some o) (events : List SocketEvent) :
    ((callProvisioner rt syntaxError payload).state c events).outcome = some o :=
  (callProvisioner rt syntaxError payload).state_invariant
    (I := fun c => c.outcome = some o) h (fun _ e h => outcome_next h e) events

/-- **Before anything answers**, nothing was received and nothing settled. -/
theorem ProvisionerCall.unanswered {as : List SocketEvent}
    (h : ∀ e ∈ as, ¬ e.Answers) :
    ((callProvisioner rt syntaxError payload).state .start as).raw = []
      ∧ ((callProvisioner rt syntaxError payload).state .start as).outcome
        = none := by
  induction as using List.reverseRecOn with
  | nil => exact ⟨rfl, rfl⟩
  | append_singleton as e ih =>
    obtain ⟨hraw, houtcome⟩ := ih (fun e he => h e (List.mem_append_left _ he))
    have he := h e (List.mem_append_right _ List.mem_cons_self)
    rw [Machine.state_concat]
    cases e with
    | connect => exact ⟨hraw, houtcome⟩
    | data chunk =>
      obtain rfl : chunk = [] := by_contra he
      rw [next_data_pending _ (by rw [hraw]; exact List.not_mem_nil)]
      exact ⟨by rw [hraw]; rfl, houtcome⟩
    | error message => exact absurd trivial he
    | close =>
      rw [next_close, if_pos hraw]
      exact ⟨hraw, houtcome⟩
    | timeout => exact absurd trivial he

/-- What a step makes of a call that something has answered: text stays, and
a promise stays settled. -/
theorem ProvisionerCall.answered_next {e : SocketEvent}
    (h : c.raw ≠ [] ∨ c.Settled) :
    ((callProvisioner rt syntaxError payload).next c e).raw ≠ []
      ∨ ((callProvisioner rt syntaxError payload).next c e).Settled := by
  cases e with
  | connect => exact h
  | data chunk =>
    by_cases hline : '\n' ∈ c.raw ++ Utf8.decode chunk
    · rw [next_data_line _ hline]
      exact Or.inr (settled_settle _ _)
    · rw [next_data_pending _ hline]
      exact h.imp (fun h => List.append_ne_nil_of_left_ne_nil h _) id
  | error message => exact Or.inr (settled_settle _ _)
  | close =>
    rw [next_close]
    split
    · exact h
    · exact h
  | timeout =>
    rw [next_timeout]
    split
    · exact Or.inr (settled_settle _ _)
    · exact h

/-- **A step that does not close the socket unanswered** leaves something
that settles the promise at last. -/
theorem ProvisionerCall.answerable_next {e : SocketEvent} (h : c.Answerable)
    (hclose : e = .close → c.raw ≠ [] ∨ c.Settled) :
    ((callProvisioner rt syntaxError payload).next c e).Answerable := by
  cases e with
  | connect => exact h
  | data chunk =>
    by_cases hline : '\n' ∈ c.raw ++ Utf8.decode chunk
    · rw [next_data_line _ hline]
      exact Or.inl (settled_settle _ _)
    · rw [next_data_pending _ hline]
      exact h
  | error message => exact Or.inl (settled_settle _ _)
  | close =>
    rw [next_close]
    split
    · next hraw =>
      rcases hclose rfl with hne | hsettled
      · exact absurd hraw hne
      · exact Or.inl hsettled
    · exact h
  | timeout =>
    rw [next_timeout]
    split
    · exact Or.inl (settled_settle _ _)
    · exact h

/-- **An event that answers** leaves text or a settled promise behind, as
long as there is something to settle the promise. -/
theorem ProvisionerCall.answered_of_answers {e : SocketEvent}
    (h : c.Answerable) (he : e.Answers) :
    ((callProvisioner rt syntaxError payload).next c e).raw ≠ []
      ∨ ((callProvisioner rt syntaxError payload).next c e).Settled := by
  cases e with
  | connect => exact absurd he id
  | data chunk =>
    by_cases hline : '\n' ∈ c.raw ++ Utf8.decode chunk
    · rw [next_data_line _ hline]
      exact Or.inr (settled_settle _ _)
    · rw [next_data_pending _ hline]
      exact Or.inl (List.append_ne_nil_of_right_ne_nil _ (Utf8.decode_ne_nil he))
  | error message => exact Or.inr (settled_settle _ _)
  | close => exact absurd he id
  | timeout =>
    rw [next_timeout]
    split
    · exact Or.inr (settled_settle _ _)
    · next harmed => exact Or.inr (h.resolve_right harmed)

/-- **No call is left pending for ever exactly when its socket is not closed
unanswered**: all along its events the promise is settled or the timer is
set, exactly if an error, the timeout or a chunk of at least one octet has
come before every `close`. -/
theorem callProvisioner_answerable_iff (rt : Runtime)
    (syntaxError : List Char → String) (payload : ProvisionerPayload)
    (events : List SocketEvent) :
    (callProvisioner rt syntaxError payload).Always
        ProvisionerCall.Answerable .start events
      ↔ ∀ before, before ++ [.close] <+: events → ∃ e ∈ before, e.Answers := by
  constructor
  · intro h before hbefore
    by_contra hnone
    push Not at hnone
    obtain ⟨hraw, houtcome⟩ := ProvisionerCall.unanswered hnone
    have hclosed := h _ hbefore
    rw [Machine.state_concat, ProvisionerCall.next_close, if_pos hraw] at hclosed
    rcases hclosed with hsettled | harmed
    · exact hsettled houtcome
    · exact Bool.false_ne_true harmed
  · intro h p hp
    -- what has answered is still there at every later event
    suffices hboth :
        ((callProvisioner rt syntaxError payload).state .start p).Answerable
          ∧ ((∃ e ∈ p, e.Answers) →
            ((callProvisioner rt syntaxError payload).state .start p).raw ≠ []
            ∨ ((callProvisioner rt syntaxError payload).state .start p).Settled)
      from hboth.1
    induction p using List.reverseRecOn with
    | nil => exact ⟨Or.inr rfl, fun ⟨e, he, _⟩ => absurd he List.not_mem_nil⟩
    | append_singleton p e ih =>
      obtain ⟨hanswerable, hanswered⟩ := ih ((List.prefix_append p [e]).trans hp)
      rw [Machine.state_concat]
      refine ⟨ProvisionerCall.answerable_next _ hanswerable ?_, ?_⟩
      · rintro rfl
        exact hanswered (h p hp)
      · rintro ⟨e', he', hanswers⟩
        rcases List.mem_append.mp he' with he' | he'
        · exact ProvisionerCall.answered_next _ (hanswered ⟨e', he', hanswers⟩)
        · obtain rfl := List.mem_singleton.mp he'
          exact ProvisionerCall.answered_of_answers _ hanswerable hanswers

/-- A payload for concrete runs. -/
def samplePayload : ProvisionerPayload where
  token := "secret"
  command := .str "/usr/bin/true"
  args := []
  timeoutMs := .num (.finite 15000)
  dryRun := false
  stepKey := none

/-- **A call that hangs**: the daemon closes the connection without an
answer. The promise is open, and the timer is cleared. -/
theorem callProvisioner_hangs :
    ¬ ∀ (rt : Runtime) (syntaxError : List Char → String)
        (payload : ProvisionerPayload) (events : List SocketEvent),
      (callProvisioner rt syntaxError payload).Always
        ProvisionerCall.Answerable .start events := by
  intro h
  have hclosed := h sampleRuntime (fun _ => "") samplePayload [.connect, .close] _
    (List.prefix_refl _)
  rcases hclosed with hsettled | harmed
  · exact hsettled rfl
  · exact absurd harmed (by decide)

end MissionControl
