import Mathlib.Algebra.Order.Ring.Rat
import Mathlib.Data.List.TakeWhile
import MissionControl.Library.Machine
import MissionControl.Library.Table

/-!
# Polling

`useSmartPoll` calls a function of its component in an interval, unless the tab is hidden or the
connection makes it unnecessary. Its effects run again whenever one of their dependencies is
another one; the interval, the visibility listener and the manual trigger keep the `shouldPoll` of
the render they were made in, and share the refs.

What the hook knows of the tab it is told by `visibilitychange`, to which it listens while the
component is mounted. It does not read `document.visibilityState` before, so it takes a tab that is
hidden as the component is mounted for visible until the tab changes (`knownVisible`). The listener
is taken off and put on again whenever the main effect runs again, and no change is missed
(`isVisible_eq`).

`smartPoll_kept` says that the dependencies are complete: in every run the interval is alive exactly
while the last render should poll, there is one at a time and one listener, and apart from the one
call that bootstraps the data the function of the last render is called only where the last render
should poll. The invariant is about closures. What is alive keeps an old render, and that one asks
what the last render asks, since the effects have run again if a dependency is another one
(`PollState.Live`).
-/

namespace MissionControl

/-! ## The hook -/

structure SmartPollOptions where
  pauseWhenConnected : Bool := false
  pauseWhenDisconnected : Bool := false
  pauseWhenSseConnected : Bool := false
  backoff : Bool := false
  maxBackoffMultiplier : ℚ := 3
  enabled : Bool := true
  deriving DecidableEq

/-- **What a render is called with**, and the connection it reads from the store. The callback is
known by which function it is. -/
structure PollRender where
  callback : ℕ
  intervalMs : ℚ
  options : SmartPollOptions
  isConnected : Bool
  sseConnected : Bool
  deriving DecidableEq

namespace PollRender

variable (r : PollRender)

/-- **`shouldPoll`**, of the ref that says whether the tab is visible. -/
def shouldPoll (isVisible : Bool) : Bool :=
  if !r.options.enabled then false
  else if !isVisible then false
  else if r.options.pauseWhenConnected && r.isConnected then false
  else if r.options.pauseWhenDisconnected && !r.isConnected then false
  else if r.options.pauseWhenSseConnected && r.sseConnected then false
  else true

def effectiveInterval (backoffMultiplier : ℚ) : ℚ :=
  if r.options.backoff then r.intervalMs * backoffMultiplier else r.intervalMs

/-! The dependencies of the callbacks and of the effects. A callback is another function when one of
its dependencies is another value. -/

/-- The dependencies of `shouldPoll`. -/
structure ShouldPollDeps where
  enabled : Bool
  pauseWhenConnected : Bool
  pauseWhenDisconnected : Bool
  pauseWhenSseConnected : Bool
  isConnected : Bool
  sseConnected : Bool
  deriving DecidableEq

/-- The dependencies of `fire`. -/
structure FireDeps where
  shouldPoll : ShouldPollDeps
  backoff : Bool
  maxBackoffMultiplier : ℚ
  deriving DecidableEq

/-- The dependencies of `startInterval`. -/
structure StartIntervalDeps where
  intervalMs : ℚ
  shouldPoll : ShouldPollDeps
  backoff : Bool
  deriving DecidableEq

structure MainDeps where
  fire : FireDeps
  startInterval : StartIntervalDeps
  enabled : Bool
  deriving DecidableEq

/-- The dependencies of the effect that restarts the interval. -/
structure ConnectionDeps where
  isConnected : Bool
  sseConnected : Bool
  startInterval : StartIntervalDeps
  deriving DecidableEq

def shouldPollDeps : ShouldPollDeps :=
  ⟨r.options.enabled, r.options.pauseWhenConnected, r.options.pauseWhenDisconnected,
    r.options.pauseWhenSseConnected, r.isConnected, r.sseConnected⟩

def fireDeps : FireDeps :=
  ⟨r.shouldPollDeps, r.options.backoff, r.options.maxBackoffMultiplier⟩

def startIntervalDeps : StartIntervalDeps := ⟨r.intervalMs, r.shouldPollDeps, r.options.backoff⟩

def mainDeps : MainDeps := ⟨r.fireDeps, r.startIntervalDeps, r.options.enabled⟩

def connectionDeps : ConnectionDeps := ⟨r.isConnected, r.sseConnected, r.startIntervalDeps⟩

end PollRender

/-- An interval, with the render whose `shouldPoll` it asks. -/
structure PollInterval where
  render : PollRender
  period : ℚ

/-- A visibility listener, with the render it was made in. -/
structure PollListener where
  id : ℕ
  render : PollRender

inductive PollPhase where
  | waiting
  | mounted (render : PollRender)
  | unmounted (render : PollRender)

def PollPhase.render? : PollPhase → Option PollRender
  | waiting => none
  | mounted r => some r
  | unmounted r => some r

/-- **The refs of the hook**, the intervals that are alive, the listeners of `visibilitychange`, the
one that the cleanup of the main effect removes, and the promises of `fire` that have a handler. -/
structure PollState where
  phase : PollPhase
  callbackRef : ℕ
  intervalRef : Option ℕ
  backoffMultiplier : ℚ
  isVisible : Bool
  initialFired : Bool
  intervals : Table PollInterval
  listeners : List PollListener
  nextListener : ℕ
  mainListener : ℕ
  promises : Table PollRender

def PollState.initial : PollState :=
  ⟨.waiting, 0, none, 1, true, false, .empty, [], 0, 0, .empty⟩

inductive PollCause where
  | initial | interval | visible | trigger
  deriving DecidableEq

structure PollCall where
  callback : ℕ
  cause : PollCause
  deriving DecidableEq

/-- **What happens**: React commits a render or unmounts the component, an interval is due, the
visibility of the tab changes, the component calls the trigger of its last render, or a promise
that `fire` has got rejects. -/
inductive PollAction where
  | commit (render : PollRender)
  | unmount
  | tick (interval : ℕ)
  | visibilityChange (visible : Bool)
  | trigger
  | reject (promise : ℕ)

namespace PollState

variable (s : PollState) (r : PollRender)

/-- `clearInterval`, of the interval in the ref. -/
def clearInterval : PollState :=
  { s with intervals := match s.intervalRef with
    | some i => s.intervals.deleteWhere fun j _ => j = i
    | none => s.intervals }

/-- **`fire`.** -/
def fire (cause : PollCause) : PollState × List PollCall :=
  if r.shouldPoll s.isVisible then
    ({ s with promises := s.promises.insert r }, [⟨s.callbackRef, cause⟩])
  else (s, [])

/-- **`startInterval`.** -/
def startInterval : PollState :=
  let s := s.clearInterval
  if r.shouldPoll s.isVisible then
    { s with
      intervalRef := some s.intervals.next
      intervals := s.intervals.insert ⟨r, r.effectiveInterval s.backoffMultiplier⟩ }
  else s

/-- **The main effect.** -/
def mainEffect : PollState × List PollCall :=
  let bootstraps := !s.initialFired && r.options.enabled
  let s := { s with initialFired := if bootstraps then true else s.initialFired }
  let s := s.startInterval r
  ({ s with
      listeners := s.listeners ++ [⟨s.nextListener, r⟩]
      nextListener := s.nextListener + 1
      mainListener := s.nextListener },
    if bootstraps then [⟨s.callbackRef, .initial⟩] else [])

def cleanup : PollState :=
  { s.clearInterval with
    intervalRef := none
    listeners := s.listeners.filter fun l => l.id ≠ s.mainListener }

/-- **`handleVisibilityChange`.** -/
def handleVisibilityChange (visible : Bool) : PollState × List PollCall :=
  let s := { s with isVisible := visible }
  if visible then
    let (s, calls) := { s with backoffMultiplier := 1 }.fire r .visible
    (s.startInterval r, calls)
  else ({ s.clearInterval with intervalRef := none }, [])

/-- **A commit**: the cleanups and the effects whose dependencies have changed since the last
render, in their order. -/
def commit : PollState × List PollCall :=
  match s.phase with
  | .unmounted _ => (s, [])
  | .waiting =>
    let (s, calls) := { s with phase := .mounted r, callbackRef := r.callback }.mainEffect r
    (s.startInterval r, calls)
  | .mounted last =>
    let s := { s with phase := .mounted r }
    let s := if r.mainDeps ≠ last.mainDeps then s.cleanup else s
    let s := { s with callbackRef := r.callback }
    let (s, calls) := if r.mainDeps ≠ last.mainDeps then s.mainEffect r else (s, [])
    (if r.connectionDeps ≠ last.connectionDeps then s.startInterval r else s, calls)

end PollState

/-- **The hook**, as a machine. -/
def smartPoll : Machine PollState PollAction PollCall where
  step s
    | .commit r => s.commit r
    | .unmount =>
      match s.phase with
      | .mounted r => ({ s.cleanup with phase := .unmounted r }, [])
      | _ => (s, [])
    | .tick i =>
      match s.intervals.row i with
      | some interval =>
        (s, if interval.render.shouldPoll s.isVisible then [⟨s.callbackRef, .interval⟩] else [])
      | none => (s, [])
    | .visibilityChange visible =>
      s.listeners.foldl (fun (s, calls) l =>
        let (s, calls') := s.handleVisibilityChange l.render visible
        (s, calls ++ calls')) (s, [])
    | .trigger =>
      match s.phase.render? with
      | some r => s.fire r .trigger
      | none => (s, [])
    | .reject p =>
      match s.promises.row p with
      | some r =>
        ({ s with
            promises := s.promises.deleteWhere fun i _ => i = p
            backoffMultiplier :=
              if r.options.backoff then
                min (s.backoffMultiplier + 1 / 2) r.options.maxBackoffMultiplier
              else s.backoffMultiplier }, [])
      | none => (s, [])

/-! ## What is promised -/

def PollAction.isCommit : PollAction → Bool
  | commit _ => true
  | _ => false

def PollAction.isUnmount : PollAction → Bool
  | unmount => true
  | _ => false

/-- What happens while the component is mounted: from its first commit on. -/
def whileMounted (as : List PollAction) : List PollAction :=
  (as.dropWhile fun a => !a.isCommit).takeWhile fun a => !a.isUnmount

/-- The visibility of a tab after it has changed. -/
def PollAction.tabVisible (visible : Bool) : PollAction → Bool
  | visibilityChange visible => visible
  | _ => visible

/-- **What the hook knows of the visibility**: what the tab came to while the component was mounted,
taken for visible before. -/
def knownVisible (as : List PollAction) : Bool :=
  (whileMounted as).foldl PollAction.tabVisible true

def PollState.Alive (s : PollState) (i : ℕ) : Prop := ∃ interval, s.intervals.row i = some interval

/-- **The last render is followed**: one interval, alive exactly while it should poll, one listener
while it is mounted, and one call to bootstrap it once it is enabled. -/
structure PollState.Kept (s : PollState) (visible : Bool) (calls : List PollCall) : Prop where
  one : ∀ i j, s.Alive i → s.Alive j → i = j
  polls : (∃ i, s.Alive i) ↔ ∃ r, s.phase = .mounted r ∧ r.shouldPoll visible = true
  listens : ∀ r, s.phase = .mounted r → ∃ l, s.listeners = [l]
  silent : (∀ r, s.phase ≠ .mounted r) → s.listeners = []
  atMostOnce : (calls.filter fun call => call.cause = .initial).length ≤ 1
  bootstrapped : ∀ r, s.phase = .mounted r → r.options.enabled = true →
    (calls.filter fun call => call.cause = .initial).length = 1

/-- **A call is due**: it is a call of the function of the last render, which bootstraps it or finds
that it should poll. -/
def PollCall.Due (s : PollState) (visible : Bool) (call : PollCall) : Prop :=
  ∃ r, s.phase.render? = some r ∧ call.callback = r.callback ∧ match call.cause with
    | .initial => s.phase = .mounted r ∧ r.options.enabled = true
    | .trigger => r.shouldPoll visible = true
    | .interval | .visible => s.phase = .mounted r ∧ r.shouldPoll visible = true

/-! ## The invariant -/

/-- **What the refs and the closures say** of a render that is mounted: the interval that is alive
is the one in the ref, and what it and the listener ask is what the render asks. -/
structure PollState.Live (s : PollState) (r : PollRender) : Prop where
  interval : ∀ i interval, s.intervals.row i = some interval →
    s.intervalRef = some i ∧ interval.render.startIntervalDeps = r.startIntervalDeps
  alive : (∃ i, s.Alive i) ↔ r.shouldPoll s.isVisible = true
  listener : ∃ l, s.listeners = [⟨s.mainListener, l⟩] ∧ l.mainDeps = r.mainDeps
  callback : s.callbackRef = r.callback
  bootstrapped : r.options.enabled = true → s.initialFired = true

/-- Nothing is left where no render is mounted. -/
structure PollState.Quiet (s : PollState) : Prop where
  interval : ∀ i, ¬ s.Alive i
  listener : s.listeners = []

def PollState.Sound (s : PollState) : Prop :=
  match s.phase with
  | .waiting => s.Quiet
  | .mounted r => s.Live r
  | .unmounted r => s.Quiet ∧ s.callbackRef = r.callback

section Steps

variable {s : PollState} {r r' : PollRender}

theorem shouldPoll_congr (h : r.shouldPollDeps = r'.shouldPollDeps) (v : Bool) :
    r.shouldPoll v = r'.shouldPoll v := by
  unfold PollRender.shouldPollDeps at h
  injection h with henabled hconnected hdisconnected hsse his hsseis
  unfold PollRender.shouldPoll
  rw [henabled, hconnected, hdisconnected, hsse, his, hsseis]

theorem shouldPoll_hidden (r : PollRender) : r.shouldPoll false = false := by
  unfold PollRender.shouldPoll
  cases r.options.enabled <;> rfl

/-- No interval is alive behind `clearInterval`, if only the one in the ref was. -/
theorem not_alive_clearInterval (href : ∀ i, s.Alive i → s.intervalRef = some i) (i : ℕ) :
    ¬ s.clearInterval.Alive i := by
  rintro ⟨interval, hrow⟩
  unfold PollState.clearInterval at hrow
  dsimp only at hrow
  cases hs : s.intervalRef with
  | none =>
    rw [hs] at hrow
    exact absurd (hs.symm.trans (href i ⟨interval, hrow⟩)) nofun
  | some j =>
    rw [hs] at hrow
    obtain ⟨hrow, hij⟩ := (s.intervals.row_deleteWhere_eq_some _).mp hrow
    have hij' : i ≠ j := of_decide_eq_false hij
    exact hij' (Option.some.inj ((href i ⟨interval, hrow⟩).symm.trans hs))

/-- **`startInterval`** leaves one interval, of the render it is of, if that should poll. -/
theorem startInterval_spec (href : ∀ i, s.Alive i → s.intervalRef = some i) (r : PollRender) :
    ∃ ref intervals, s.startInterval r = { s with intervalRef := ref, intervals := intervals }
      ∧ (∀ i interval, intervals.row i = some interval →
        ref = some i ∧ interval = ⟨r, r.effectiveInterval s.backoffMultiplier⟩)
      ∧ ((∃ i interval, intervals.row i = some interval) ↔ r.shouldPoll s.isVisible = true) := by
  have hnone := not_alive_clearInterval href
  unfold PollState.startInterval
  dsimp only
  cases hpoll : r.shouldPoll s.isVisible with
  | true =>
    rw [if_pos (show r.shouldPoll s.clearInterval.isVisible = true from hpoll)]
    refine ⟨_, _, rfl, fun i interval hrow => ?_, fun _ => rfl, fun _ => ⟨_, _,
      Table.row_insert_next _ _⟩⟩
    obtain ⟨rfl, rfl⟩ | hold := (Table.row_insert_eq_some _ _).mp hrow
    · exact ⟨rfl, rfl⟩
    · exact absurd ⟨interval, hold⟩ (hnone i)
  | false =>
    rw [if_neg (show ¬ r.shouldPoll s.clearInterval.isVisible = true from by
      show ¬ r.shouldPoll s.isVisible = true
      rw [hpoll]
      exact Bool.false_ne_true)]
    refine ⟨s.intervalRef, s.clearInterval.intervals, rfl, fun i interval hrow => ?_, ?_⟩
    · exact absurd ⟨interval, hrow⟩ (hnone i)
    · exact ⟨fun ⟨i, interval, hrow⟩ => absurd ⟨interval, hrow⟩ (hnone i), nofun⟩

/-- **`startInterval`**, of a render with the dependencies of the last one. -/
theorem PollState.Live.of_startInterval {l : PollRender}
    (hl : l.startIntervalDeps = r.startIntervalDeps)
    (href : ∀ i, s.Alive i → s.intervalRef = some i)
    (hlistener : ∃ l, s.listeners = [⟨s.mainListener, l⟩] ∧ l.mainDeps = r.mainDeps)
    (hcallback : s.callbackRef = r.callback)
    (hbootstrapped : r.options.enabled = true → s.initialFired = true) :
    (s.startInterval l).Live r := by
  obtain ⟨ref, intervals, heq, hrow, hpoll⟩ := startInterval_spec href l
  have hdeps : l.shouldPollDeps = r.shouldPollDeps := congrArg (·.shouldPoll) hl
  rw [heq]
  refine ⟨fun i interval hi => ?_, ?_, hlistener, hcallback, hbootstrapped⟩
  · obtain ⟨hi', rfl⟩ := hrow i interval hi
    exact ⟨hi', hl⟩
  · rw [← shouldPoll_congr hdeps]
    exact hpoll

theorem startInterval_eq (s : PollState) (r : PollRender) : s.startInterval r
    = { s with
        intervalRef := if r.shouldPoll s.isVisible then some s.clearInterval.intervals.next
          else s.intervalRef
        intervals := if r.shouldPoll s.isVisible then
            s.clearInterval.intervals.insert ⟨r, r.effectiveInterval s.backoffMultiplier⟩
          else s.clearInterval.intervals } := by
  unfold PollState.startInterval
  dsimp only
  rw [show s.clearInterval.isVisible = s.isVisible from rfl]
  cases r.shouldPoll s.isVisible <;> rfl

theorem mainEffect_eq (s : PollState) (r : PollRender) : (s.mainEffect r).1
    = ({ s with
        initialFired := if !s.initialFired && r.options.enabled then true else s.initialFired
        listeners := s.listeners ++ [⟨s.nextListener, r⟩]
        nextListener := s.nextListener + 1
        mainListener := s.nextListener } : PollState).startInterval r := by
  unfold PollState.mainEffect
  dsimp only
  rw [startInterval_eq, startInterval_eq]
  rfl

theorem startInterval_fields (s : PollState) (r : PollRender) :
    (s.startInterval r).phase = s.phase ∧ (s.startInterval r).initialFired = s.initialFired
      ∧ (s.startInterval r).isVisible = s.isVisible
      ∧ (s.startInterval r).callbackRef = s.callbackRef := by
  rw [startInterval_eq]
  exact ⟨rfl, rfl, rfl, rfl⟩

/-- **The main effect**, where nothing is left of another one. -/
theorem PollState.Quiet.mainEffect (h : s.Quiet) (hcallback : s.callbackRef = r.callback) :
    (s.mainEffect r).1.Live r := by
  rw [mainEffect_eq]
  refine PollState.Live.of_startInterval rfl (fun i hi => absurd hi (h.interval i)) ⟨r, ?_, rfl⟩
    hcallback fun henabled => ?_
  · dsimp only
    rw [h.listener, List.nil_append]
  · dsimp only
    rw [henabled]
    cases s.initialFired <;> rfl

/-- **The cleanup** leaves nothing. -/
theorem PollState.Live.cleanup (h : s.Live r) : s.cleanup.Quiet := by
  obtain ⟨l, hlisteners, -⟩ := h.listener
  refine ⟨not_alive_clearInterval fun i ⟨interval, hi⟩ => (h.interval i interval hi).1, ?_⟩
  unfold PollState.cleanup
  dsimp only
  rw [hlisteners]
  simp

def initialCalls (calls : List PollCall) : List PollCall :=
  calls.filter fun call => call.cause = .initial

/-- **What a step comes to**, from where the bootstrapping call has been made or not. -/
structure PollSteps (fired : Bool) (s' : PollState) (calls : List PollCall) : Prop where
  sound : s'.Sound
  due : ∀ call ∈ calls, call.Due s' s'.isVisible
  once : fired.toNat + (initialCalls calls).length = s'.initialFired.toNat

theorem PollSteps.of_silent {fired : Bool} (h : s.Sound) (hfired : fired = s.initialFired) :
    PollSteps fired s [] := ⟨h, nofun, by rw [hfired]; rfl⟩

theorem calls_mainEffect (s : PollState) (r : PollRender) : (s.mainEffect r).2
    = if !s.initialFired && r.options.enabled then [⟨s.callbackRef, .initial⟩] else [] := by
  unfold PollState.mainEffect
  dsimp only
  rw [(startInterval_fields _ r).2.2.2]

/-- **A render that is mounted, and its main effect.** -/
theorem PollState.Quiet.steps_mainEffect (h : s.Quiet) (hphase : s.phase = .mounted r)
    (hcallback : s.callbackRef = r.callback) {s' : PollState}
    (hs' : s' = (s.mainEffect r).1 ∨ s' = (s.mainEffect r).1.startInterval r) :
    PollSteps s.initialFired s' (s.mainEffect r).2 := by
  have hlive := h.mainEffect hcallback
  have hphase' : (s.mainEffect r).1.phase = .mounted r := by
    rw [mainEffect_eq, (startInterval_fields _ r).1, hphase]
  have hfired : (s.mainEffect r).1.initialFired
      = if !s.initialFired && r.options.enabled then true else s.initialFired := by
    rw [mainEffect_eq, (startInterval_fields _ r).2.1]
  have hagain : s'.Live r ∧ s'.phase = .mounted r
      ∧ s'.initialFired = (s.mainEffect r).1.initialFired := by
    obtain rfl | rfl := hs'
    · exact ⟨hlive, hphase', rfl⟩
    · exact ⟨.of_startInterval rfl (fun i ⟨interval, hi⟩ => (hlive.interval i interval hi).1)
        hlive.listener hlive.callback hlive.bootstrapped,
        (startInterval_fields _ r).1.trans hphase', (startInterval_fields _ r).2.1⟩
  obtain ⟨hlive', hmounted, hfired'⟩ := hagain
  rw [calls_mainEffect]
  refine ⟨?_, fun call hcall => ?_, ?_⟩
  · unfold PollState.Sound
    rw [hmounted]
    exact hlive'
  · split at hcall
    · next hboot =>
      obtain rfl := List.mem_singleton.mp hcall
      refine ⟨r, by rw [hmounted]; rfl, hcallback, hmounted, ?_⟩
      rw [Bool.and_eq_true] at hboot
      exact hboot.2
    · exact absurd hcall List.not_mem_nil
  · rw [hfired', hfired]
    cases s.initialFired <;> cases r.options.enabled <;> rfl

/-- A render with the dependencies of the last one changes nothing but the callback. -/
theorem PollState.Live.recommit {last : PollRender} (h : s.Live last)
    (hdeps : r.mainDeps = last.mainDeps) :
    PollSteps s.initialFired { s with phase := .mounted r, callbackRef := r.callback } [] := by
  have hstart : r.startIntervalDeps = last.startIntervalDeps := congrArg (·.startInterval) hdeps
  obtain ⟨l, hlisteners, hl⟩ := h.listener
  refine .of_silent ?_ rfl
  refine ⟨fun i interval hi => ?_, ?_, ⟨l, hlisteners, hl.trans hdeps.symm⟩, rfl,
    fun henabled => ?_⟩
  · obtain ⟨href, hinterval⟩ := h.interval i interval hi
    exact ⟨href, hinterval.trans hstart.symm⟩
  · rw [shouldPoll_congr (congrArg (·.shouldPoll) hstart)]
    exact h.alive
  · exact h.bootstrapped ((congrArg (·.enabled) hdeps).symm.trans henabled)

/-- **A commit.** -/
theorem PollState.Sound.commit (h : s.Sound) (r : PollRender) :
    PollSteps s.initialFired (s.commit r).1 (s.commit r).2 := by
  unfold PollState.Sound at h
  unfold PollState.commit
  cases hphase : s.phase with
  | waiting =>
    rw [hphase] at h
    have hquiet : ({ s with phase := .mounted r, callbackRef := r.callback } : PollState).Quiet :=
      ⟨h.interval, h.listener⟩
    exact hquiet.steps_mainEffect rfl rfl (.inr rfl)
  | unmounted last =>
    refine .of_silent ?_ rfl
    unfold PollState.Sound
    rw [hphase] at h ⊢
    exact h
  | mounted last =>
    rw [hphase] at h
    dsimp only
    by_cases hdeps : r.mainDeps = last.mainDeps
    · have hconnection : r.connectionDeps = last.connectionDeps := by
        have hfire : r.shouldPollDeps = last.shouldPollDeps := congrArg (·.fire.shouldPoll) hdeps
        unfold PollRender.connectionDeps
        rw [show r.isConnected = last.isConnected from congrArg (·.isConnected) hfire,
          show r.sseConnected = last.sseConnected from congrArg (·.sseConnected) hfire,
          show r.startIntervalDeps = last.startIntervalDeps from congrArg (·.startInterval) hdeps]
      rw [if_neg (not_not.mpr hdeps), if_neg (not_not.mpr hdeps),
        if_neg (not_not.mpr hconnection)]
      exact h.recommit hdeps
    · rw [if_pos hdeps, if_pos hdeps]
      have hclean : ({ ({ s with phase := .mounted r } : PollState).cleanup with
          callbackRef := r.callback } : PollState).Quiet :=
        ⟨h.cleanup.interval, h.cleanup.listener⟩
      refine hclean.steps_mainEffect rfl rfl ?_
      split
      · exact .inr rfl
      · exact .inl rfl

theorem fire_eq (s : PollState) (r : PollRender) (cause : PollCause) : s.fire r cause
    = ({ s with promises := if r.shouldPoll s.isVisible then s.promises.insert r else s.promises },
      if r.shouldPoll s.isVisible then [⟨s.callbackRef, cause⟩] else []) := by
  unfold PollState.fire
  split <;> rfl

/-- **A change of the visibility**, by the listener there is. -/
theorem PollState.Live.visibilityChange (h : s.Live r) (hphase : s.phase = .mounted r)
    {l : PollRender} (hl : l.mainDeps = r.mainDeps)
    (hlistener : s.listeners = [⟨s.mainListener, l⟩]) (visible : Bool) :
    PollSteps s.initialFired (s.handleVisibilityChange l visible).1
      (s.handleVisibilityChange l visible).2 := by
  have href : ∀ i, s.Alive i → s.intervalRef = some i :=
    fun i ⟨interval, hi⟩ => (h.interval i interval hi).1
  have hstart : l.startIntervalDeps = r.startIntervalDeps := congrArg (·.startInterval) hl
  have hpoll : ∀ v, l.shouldPoll v = r.shouldPoll v :=
    shouldPoll_congr (congrArg (·.shouldPoll) hstart)
  unfold PollState.handleVisibilityChange
  dsimp only
  cases visible with
  | false =>
    rw [if_neg Bool.false_ne_true]
    refine .of_silent ?_ rfl
    unfold PollState.Sound
    dsimp only
    rw [show s.phase = .mounted r from hphase]
    have hnone := not_alive_clearInterval href
    refine ⟨fun i interval hi => absurd ⟨interval, hi⟩ (hnone i), ?_, ⟨l, hlistener, hl⟩,
      h.callback, h.bootstrapped⟩
    refine ⟨fun ⟨i, hi⟩ => absurd hi (hnone i), fun hr => ?_⟩
    exact absurd ((shouldPoll_hidden r).symm.trans hr) Bool.false_ne_true
  | true =>
    rw [if_pos rfl, fire_eq]
    dsimp only
    generalize hs' : PollState.startInterval _ l = s'
    have hphase' : s'.phase = .mounted r := by
      rw [← hs', (startInterval_fields _ l).1]
      exact hphase
    have hvisible : s'.isVisible = true := by
      rw [← hs', (startInterval_fields _ l).2.2.1]
    have hfired : s'.initialFired = s.initialFired := by
      rw [← hs', (startInterval_fields _ l).2.1]
    refine ⟨?_, fun call hcall => ?_, ?_⟩
    · unfold PollState.Sound
      rw [hphase', ← hs']
      exact .of_startInterval hstart href ⟨l, hlistener, hl⟩ h.callback h.bootstrapped
    · split at hcall
      · next hfire =>
        obtain rfl := List.mem_singleton.mp hcall
        refine ⟨r, by rw [hphase']; rfl, h.callback, hphase', ?_⟩
        rw [hvisible, ← hpoll]
        exact hfire
      · exact absurd hcall List.not_mem_nil
    · rw [hfired]
      split <;> rfl

theorem PollState.Live.unmount (h : s.Live r) :
    PollSteps s.initialFired { s.cleanup with phase := .unmounted r } [] :=
  .of_silent ⟨⟨h.cleanup.interval, h.cleanup.listener⟩, h.callback⟩ rfl

theorem PollState.Sound.congr {s' : PollState} (h : s.Sound)
    (hs' : ∃ multiplier promises,
      s' = { s with backoffMultiplier := multiplier, promises := promises }) : s'.Sound := by
  obtain ⟨multiplier, promises, rfl⟩ := hs'
  unfold PollState.Sound at h ⊢
  dsimp only
  split at h
  · exact ⟨h.interval, h.listener⟩
  · exact ⟨h.interval, h.alive, h.listener, h.callback, h.bootstrapped⟩
  · exact ⟨⟨h.1.interval, h.1.listener⟩, h.2⟩

/-- **The trigger.** -/
theorem PollState.Sound.trigger (h : s.Sound) (hr : s.phase.render? = some r) :
    PollSteps s.initialFired (s.fire r .trigger).1 (s.fire r .trigger).2 := by
  have hcallback : s.callbackRef = r.callback := by
    unfold PollState.Sound at h
    cases hphase : s.phase with
    | waiting =>
      rw [hphase] at hr
      cases hr
    | mounted last =>
      rw [hphase] at h hr
      obtain rfl := Option.some.inj hr
      exact h.callback
    | unmounted last =>
      rw [hphase] at h hr
      obtain rfl := Option.some.inj hr
      exact h.2
  rw [fire_eq]
  refine ⟨h.congr ⟨_, _, rfl⟩, fun call hcall => ?_, ?_⟩
  · dsimp only at hcall
    split at hcall
    · next hfire =>
      obtain rfl := List.mem_singleton.mp hcall
      exact ⟨r, hr, hcallback, hfire⟩
    · exact absurd hcall List.not_mem_nil
  · dsimp only
    split <;> rfl

theorem PollState.Sound.tick (h : s.Sound) {i : ℕ} {interval : PollInterval}
    (hi : s.intervals.row i = some interval) : PollSteps s.initialFired s
      (if interval.render.shouldPoll s.isVisible then [⟨s.callbackRef, .interval⟩] else []) := by
  refine ⟨h, fun call hcall => ?_, ?_⟩
  · split at hcall
    · next hpoll =>
      obtain rfl := List.mem_singleton.mp hcall
      unfold PollState.Sound at h
      cases hphase : s.phase with
      | waiting =>
        rw [hphase] at h
        exact absurd ⟨interval, hi⟩ (h.interval i)
      | mounted r =>
        rw [hphase] at h
        refine ⟨r, by rw [hphase]; rfl, h.callback, hphase, ?_⟩
        rw [← shouldPoll_congr (congrArg (·.shouldPoll) (h.interval i interval hi).2)]
        exact hpoll
      | unmounted r =>
        rw [hphase] at h
        exact absurd ⟨interval, hi⟩ (h.1.interval i)
    · exact absurd hcall List.not_mem_nil
  · split <;> rfl

/-- **Every step follows the last render.** -/
theorem PollState.Sound.step (h : s.Sound) (a : PollAction) :
    PollSteps s.initialFired (smartPoll.next s a) (smartPoll.emits s a) := by
  have hsilent : PollSteps s.initialFired s [] := .of_silent h rfl
  unfold Machine.next Machine.emits smartPoll
  cases a with
  | commit r => exact h.commit r
  | unmount =>
    dsimp only
    split
    · next r hphase =>
      unfold PollState.Sound at h
      rw [hphase] at h
      exact h.unmount
    · exact hsilent
  | tick i =>
    dsimp only
    split
    · next interval hi => exact h.tick hi
    · exact hsilent
  | visibilityChange visible =>
    dsimp only
    have hs := h
    unfold PollState.Sound at hs
    cases hphase : s.phase with
    | waiting =>
      rw [hphase] at hs
      rw [hs.listener]
      exact hsilent
    | mounted r =>
      rw [hphase] at hs
      obtain ⟨l, hlistener, hl⟩ := hs.listener
      have hstep := hs.visibilityChange hphase hl hlistener visible
      rw [hlistener]
      exact hstep
    | unmounted r =>
      rw [hphase] at hs
      rw [hs.1.listener]
      exact hsilent
  | trigger =>
    dsimp only
    split
    · next r hr => exact h.trigger hr
    · exact hsilent
  | reject p =>
    dsimp only
    split
    · exact .of_silent (h.congr ⟨_, _, rfl⟩) rfl
    · exact hsilent

theorem PollState.Sound.kept (h : s.Sound) {calls : List PollCall}
    (hcalls : (initialCalls calls).length = s.initialFired.toNat) :
    s.Kept s.isVisible calls := by
  have hlive : ∀ r, s.phase = .mounted r → s.Live r := by
    intro r hphase
    unfold PollState.Sound at h
    rw [hphase] at h
    exact h
  have hquiet : (∀ r, s.phase ≠ .mounted r) → s.Quiet := by
    intro hphase
    unfold PollState.Sound at h
    split at h
    · exact h
    · next r hr => exact absurd hr (hphase r)
    · exact h.1
  by_cases hmounted : ∃ r, s.phase = .mounted r
  · obtain ⟨r, hphase⟩ := hmounted
    have hs := hlive r hphase
    refine ⟨?_, ?_, ?_, fun hno => absurd hphase (hno r), ?_, ?_⟩
    · rintro i j ⟨interval, hi⟩ ⟨interval', hj⟩
      exact Option.some.inj
        ((hs.interval i interval hi).1.symm.trans (hs.interval j interval' hj).1)
    · rw [hs.alive]
      refine ⟨fun hpoll => ⟨r, hphase, hpoll⟩, fun ⟨r', hphase', hpoll⟩ => ?_⟩
      obtain rfl := PollPhase.mounted.inj (hphase.symm.trans hphase')
      exact hpoll
    · obtain ⟨l, hlistener, -⟩ := hs.listener
      exact fun _ _ => ⟨_, hlistener⟩
    · exact hcalls.trans_le (Bool.toNat_le _)
    · intro r' hphase' henabled
      refine hcalls.trans ?_
      rw [(hlive r' hphase').bootstrapped henabled]
      rfl
  · have hno := not_exists.mp hmounted
    have hs := hquiet hno
    refine ⟨fun i _ hi => absurd hi (hs.interval i), ?_, fun r hphase => absurd hphase (hno r),
      fun _ => hs.listener, hcalls.trans_le (Bool.toNat_le _),
      fun r hphase => absurd hphase (hno r)⟩
    exact ⟨fun ⟨i, hi⟩ => absurd hi (hs.interval i), fun ⟨r, hphase, _⟩ => absurd hphase (hno r)⟩

/-! ## What the hook is told -/

theorem commit_fields (s : PollState) (r : PollRender) :
    (s.commit r).1.isVisible = s.isVisible ∧ (s.commit r).1.phase = match s.phase with
      | .unmounted last => .unmounted last
      | _ => .mounted r := by
  have heffect : ∀ s' : PollState, (s'.mainEffect r).1.isVisible = s'.isVisible
      ∧ (s'.mainEffect r).1.phase = s'.phase := by
    intro s'
    rw [mainEffect_eq]
    exact ⟨(startInterval_fields _ r).2.2.1, (startInterval_fields _ r).1⟩
  have hstart : ∀ s' : PollState, (s'.startInterval r).isVisible = s'.isVisible
      ∧ (s'.startInterval r).phase = s'.phase :=
    fun s' => ⟨(startInterval_fields s' r).2.2.1, (startInterval_fields s' r).1⟩
  unfold PollState.commit
  cases hphase : s.phase with
  | waiting =>
    dsimp only
    rw [(hstart _).1, (hstart _).2, (heffect _).1, (heffect _).2]
    exact ⟨rfl, rfl⟩
  | unmounted last => exact ⟨rfl, hphase⟩
  | mounted last =>
    dsimp only
    split <;> split <;>
      first
      | (rw [(hstart _).1, (hstart _).2, (heffect _).1, (heffect _).2]; exact ⟨rfl, rfl⟩)
      | (rw [(hstart _).1, (hstart _).2]; exact ⟨rfl, rfl⟩)
      | (rw [(heffect _).1, (heffect _).2]; exact ⟨rfl, rfl⟩)
      | exact ⟨rfl, rfl⟩

def PollPhase.next : PollPhase → PollAction → PollPhase
  | waiting, .commit r => mounted r
  | mounted _, .commit r => mounted r
  | mounted r, .unmount => unmounted r
  | phase, _ => phase

/-- What the ref of the visibility holds after an action. -/
def PollPhase.told : PollPhase → PollAction → Bool → Bool
  | mounted _, a, visible => a.tabVisible visible
  | _, _, visible => visible

/-- **What a step does to the phase and the visibility.** A change of the visibility reaches the ref
while the component is mounted, since there is a listener then. -/
theorem next_fields (h : s.Sound) (a : PollAction) :
    (smartPoll.next s a).isVisible = s.phase.told a s.isVisible
      ∧ (smartPoll.next s a).phase = s.phase.next a := by
  unfold PollState.Sound at h
  cases a with
  | commit r =>
    obtain ⟨hvisible, hphase⟩ := commit_fields s r
    refine ⟨hvisible.trans ?_, hphase.trans ?_⟩ <;> cases s.phase <;> rfl
  | unmount =>
    unfold Machine.next smartPoll
    dsimp only
    cases hs : s.phase with
    | mounted r => exact ⟨rfl, rfl⟩
    | waiting | unmounted r => exact ⟨rfl, hs⟩
  | tick i =>
    have hsame : smartPoll.next s (.tick i) = s := by
      unfold Machine.next smartPoll
      dsimp only
      split <;> rfl
    rw [hsame]
    cases s.phase <;> exact ⟨rfl, rfl⟩
  | visibilityChange visible =>
    unfold Machine.next smartPoll
    dsimp only
    cases hs : s.phase with
    | mounted r =>
      rw [hs] at h
      obtain ⟨l, hlistener, -⟩ := h.listener
      rw [hlistener, List.foldl_cons, List.foldl_nil]
      unfold PollState.handleVisibilityChange
      cases visible with
      | false => exact ⟨rfl, hs⟩
      | true =>
        dsimp only
        rw [if_pos rfl, fire_eq]
        exact ⟨(startInterval_fields _ l).2.2.1, (startInterval_fields _ l).1.trans hs⟩
    | waiting =>
      rw [hs] at h
      rw [h.listener]
      exact ⟨rfl, hs⟩
    | unmounted r =>
      rw [hs] at h
      rw [h.1.listener]
      exact ⟨rfl, hs⟩
  | trigger =>
    unfold Machine.next smartPoll
    dsimp only
    cases hs : s.phase with
    | waiting => exact ⟨rfl, hs⟩
    | mounted r | unmounted r =>
      dsimp only [PollPhase.render?]
      rw [fire_eq]
      exact ⟨rfl, hs⟩
  | reject i =>
    have hsame : (smartPoll.next s (.reject i)).isVisible = s.isVisible
        ∧ (smartPoll.next s (.reject i)).phase = s.phase := by
      unfold Machine.next smartPoll
      dsimp only
      split <;> exact ⟨rfl, rfl⟩
    rw [hsame.1, hsame.2]
    cases s.phase <;> exact ⟨rfl, rfl⟩

end Steps

/-- The invariant holds in every run, and the render is bootstrapped as the ref says. -/
theorem sound_state (as : List PollAction) :
    (smartPoll.state .initial as).Sound
      ∧ (initialCalls (smartPoll.trace .initial as)).length
        = (smartPoll.state .initial as).initialFired.toNat := by
  have hinitial : PollState.initial.Sound := ⟨fun i ⟨_, hi⟩ => (nomatch hi), rfl⟩
  exact smartPoll.invariant
    (I := fun calls s => s.Sound ∧ (initialCalls calls).length = s.initialFired.toNat)
    ⟨hinitial, rfl⟩
    (fun calls s a ⟨hs, hcalls⟩ => by
      refine ⟨(hs.step a).sound, ?_⟩
      unfold initialCalls at hcalls ⊢
      rw [List.filter_append, List.length_append, hcalls]
      exact (hs.step a).once) as

/-- **What the phase says of the actions**: there was no commit yet; or there was one, and no
unmount since; or there was one since. -/
def PollPhase.Reached (as : List PollAction) : PollPhase → Prop
  | waiting => as.dropWhile (fun a => !a.isCommit) = []
  | mounted _ => as.dropWhile (fun a => !a.isCommit) ≠ []
    ∧ ∀ a ∈ as.dropWhile (fun a => !a.isCommit), a.isUnmount = false
  | unmounted _ => ∃ a ∈ as.dropWhile (fun a => !a.isCommit), a.isUnmount = true

theorem dropWhile_concat (as : List PollAction) (a : PollAction) :
    (as ++ [a]).dropWhile (fun a => !a.isCommit)
      = if as.dropWhile (fun a => !a.isCommit) = [] then if a.isCommit then [a] else []
        else as.dropWhile (fun a => !a.isCommit) ++ [a] := by
  rw [List.dropWhile_append]
  simp only [List.isEmpty_iff]
  split
  · cases hcommit : a.isCommit <;> simp [hcommit]
  · rfl

theorem whileMounted_concat {as : List PollAction} {phase : PollPhase} (h : phase.Reached as)
    (a : PollAction) : whileMounted (as ++ [a]) = match phase with
      | .waiting => if a.isCommit then [a] else []
      | .mounted _ => if a.isUnmount then whileMounted as else whileMounted as ++ [a]
      | .unmounted _ => whileMounted as := by
  unfold whileMounted
  rw [dropWhile_concat]
  cases phase with
  | waiting =>
    have hnone : as.dropWhile (fun a => !a.isCommit) = [] := h
    rw [if_pos hnone]
    cases a <;> rfl
  | mounted r =>
    obtain ⟨hsome, hnever⟩ := h
    have hall : ∀ b ∈ as.dropWhile (fun a => !a.isCommit), (!b.isUnmount) = true :=
      fun b hb => by rw [hnever b hb, Bool.not_false]
    rw [if_neg hsome, List.takeWhile_append_of_pos hall, List.takeWhile_eq_self_iff.mpr hall]
    cases hunmount : a.isUnmount <;> simp [hunmount]
  | unmounted r =>
    obtain ⟨b, hb, hunmount⟩ := h
    have hlt : ((as.dropWhile fun a => !a.isCommit).takeWhile fun a => !a.isUnmount).length
        ≠ (as.dropWhile fun a => !a.isCommit).length := by
      intro heq
      have hself := (List.takeWhile_prefix (fun a : PollAction => !a.isUnmount)).eq_of_length heq
      have hall := List.takeWhile_eq_self_iff.mp hself b hb
      rw [hunmount] at hall
      exact nomatch hall
    rw [if_neg (List.ne_nil_of_mem hb), List.takeWhile_append, if_neg hlt]

theorem PollPhase.Reached.concat {as : List PollAction} {phase : PollPhase}
    (h : phase.Reached as) (a : PollAction) : (phase.next a).Reached (as ++ [a]) := by
  have hconcat := dropWhile_concat as a
  cases phase with
  | waiting =>
    have hnone : as.dropWhile (fun a => !a.isCommit) = [] := h
    rw [if_pos hnone] at hconcat
    cases a with
    | commit r =>
      refine ⟨by rw [hconcat]; exact List.cons_ne_nil _ _, fun b hb => ?_⟩
      rw [hconcat] at hb
      rw [List.mem_singleton.mp hb]
      rfl
    | unmount | tick i | visibilityChange v | trigger | reject i => exact hconcat
  | mounted r =>
    obtain ⟨hsome, hnever⟩ := h
    rw [if_neg hsome] at hconcat
    have hmounted : ∀ r', a.isUnmount = false → (PollPhase.mounted r').Reached (as ++ [a]) := by
      refine fun r' ha => ⟨by rw [hconcat]; simp, fun b hb => ?_⟩
      rw [hconcat] at hb
      rcases List.mem_append.mp hb with hb | hb
      · exact hnever b hb
      · rw [List.mem_singleton.mp hb]
        exact ha
    cases a with
    | unmount => exact ⟨.unmount, by rw [hconcat]; simp, rfl⟩
    | commit r' => exact hmounted r' rfl
    | tick i | visibilityChange v | trigger | reject i => exact hmounted r rfl
  | unmounted r =>
    obtain ⟨b, hb, hunmount⟩ := h
    rw [if_neg (List.ne_nil_of_mem hb)] at hconcat
    have hsame : (PollPhase.unmounted r).Reached (as ++ [a]) :=
      ⟨b, by rw [hconcat]; exact List.mem_append_left _ hb, hunmount⟩
    cases a <;> exact hsame

theorem PollPhase.Reached.knownVisible_concat {as : List PollAction} {phase : PollPhase}
    (h : phase.Reached as) (a : PollAction) :
    knownVisible (as ++ [a]) = phase.told a (knownVisible as) := by
  unfold knownVisible
  rw [whileMounted_concat h]
  cases phase with
  | waiting =>
    have hnone : whileMounted as = [] := by
      unfold whileMounted
      rw [show as.dropWhile (fun a => !a.isCommit) = [] from h]
      rfl
    rw [hnone]
    cases a <;> rfl
  | mounted r =>
    dsimp only [PollPhase.told]
    cases a with
    | unmount => rfl
    | commit r' | tick i | visibilityChange v | trigger | reject i =>
      exact List.foldl_concat ..
  | unmounted r => rfl

/-- **The ref of the visibility is what the hook was told**: no change is missed while the component
is mounted, and none before or after reaches it. -/
theorem isVisible_eq (as : List PollAction) :
    (smartPoll.state .initial as).isVisible = knownVisible as := by
  have hall : (smartPoll.state .initial as).phase.Reached as
      ∧ (smartPoll.state .initial as).isVisible = knownVisible as := by
    induction as using List.reverseRecOn with
    | nil => exact ⟨rfl, rfl⟩
    | append_singleton as a ih =>
      obtain ⟨hreached, hvisible⟩ := ih
      obtain ⟨hvisible', hphase⟩ := next_fields (sound_state as).1 a
      rw [Machine.state_concat, hphase, hvisible', hvisible, hreached.knownVisible_concat]
      exact ⟨hreached.concat a, rfl⟩
  exact hall.2

/-- **The hook follows its last render in every run**: the interval is alive exactly while that
render should poll, there is one interval and one listener at a time, each call is one of the
function of that render and is due, and the render is bootstrapped once. -/
theorem smartPoll_kept (as : List PollAction) :
    (smartPoll.state .initial as).Kept (knownVisible as) (smartPoll.trace .initial as)
    ∧ ∀ a, ∀ call ∈ smartPoll.emits (smartPoll.state .initial as) a,
      call.Due (smartPoll.state .initial (as ++ [a])) (knownVisible (as ++ [a])) := by
  obtain ⟨hsound, honce⟩ := sound_state as
  rw [← isVisible_eq]
  refine ⟨hsound.kept honce, fun a call hcall => ?_⟩
  rw [← isVisible_eq, Machine.state_concat]
  exact (hsound.step a).due call hcall

/-- The tab is hidden and shown again while the connection is lost. -/
example : smartPoll.trace .initial
    [.commit ⟨1, 30000, { pauseWhenDisconnected := true }, true, false⟩, .tick 1,
      .tick 2, .visibilityChange false, .tick 2, .visibilityChange true, .tick 2, .tick 3,
      .commit ⟨2, 30000, { pauseWhenDisconnected := true }, false, false⟩, .tick 3, .tick 4]
    = [⟨1, .initial⟩, ⟨1, .interval⟩, ⟨1, .visible⟩, ⟨1, .interval⟩] := by
  decide +kernel

end MissionControl
