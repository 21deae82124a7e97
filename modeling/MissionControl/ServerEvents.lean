import MissionControl.Library.Machine
import MissionControl.Library.Table

/-!
# The stream of server events

`useServerEvents` listens to one event source at a time. An error closes it, and a timer
connects again three seconds later; unmounting closes the source in the ref and clears the
timer in the other one. The handlers of the sources and the callback of the timer share both
refs and the flag that says whether the effect is still mounted.

`serverEvents_kept` says that this is enough, in whatever order the events, the timers and
the unmounting come: the source that is not closed is the one in its ref, a timer is pending
only while there is none, and what is unmounted stays silent.
-/

namespace MissionControl

/-! ## The state -/

/-- `EventSource.readyState`. -/
inductive SourceState where
  | connecting | «open» | closed
  deriving DecidableEq

/-- Where the effect stands: it has not run, `mounted` is set, or it was cleaned up. -/
inductive EffectPhase where
  | waiting | mounted | unmounted
  deriving DecidableEq

/-- **The refs of the hook**, with the sources and the timers there are. -/
structure StreamState where
  phase : EffectPhase
  sources : Table SourceState
  timers : Table Unit
  eventSource : Option ℕ
  reconnectTimeout : Option ℕ

def StreamState.initial : StreamState where
  phase := .waiting
  sources := .empty
  timers := .empty
  eventSource := none
  reconnectTimeout := none

/-- **What happens**: the effect, the events of every source, the timers and the cleanup. A
message that is malformed is `none`. -/
inductive StreamAction (ε : Type*) where
  | mount
  | opened (source : ℕ)
  | message (source : ℕ) (payload : Option ε)
  | errored (source : ℕ)
  | fire (timer : ℕ)
  | unmount

/-- **What the hook does**: it creates a source, sets `sseConnected`, or hands an event to
the store. -/
inductive StreamOutput (ε : Type*) where
  | created (source : ℕ)
  | connection (sseConnected : Bool)
  | dispatched (event : ε)
  deriving DecidableEq

namespace StreamState

variable {ε : Type*} (s : StreamState)

/-- `es.close()`. -/
def close (i : ℕ) : StreamState :=
  { s with sources := s.sources.update i fun _ => .closed }

def clearTimer (t : ℕ) : StreamState :=
  { s with timers := s.timers.deleteWhere fun i _ => i = t }

/-- **`connect`.** -/
def connect : StreamState × List (StreamOutput ε) :=
  if s.phase ≠ .mounted then (s, [])
  else
    let s := match s.eventSource with
      | some i => s.close i
      | none => s
    ({ s with
        sources := s.sources.insert .connecting
        eventSource := some s.sources.next }, [.created s.sources.next])

/-- `es.onopen`. -/
def openHandler : List (StreamOutput ε) :=
  if s.phase = .mounted then [.connection true] else []

/-- `es.onmessage`. -/
def messageHandler (payload : Option ε) : List (StreamOutput ε) :=
  if s.phase = .mounted then payload.toList.map .dispatched else []

/-- `es.onerror`. -/
def errorHandler (i : ℕ) : StreamState × List (StreamOutput ε) :=
  if s.phase = .mounted then
    ({ s.close i with
        eventSource := none
        reconnectTimeout := some s.timers.next
        timers := s.timers.insert () }, [.connection false])
  else (s, [])

def cleanup : StreamState × List (StreamOutput ε) :=
  let s := { s with phase := .unmounted }
  let s := match s.reconnectTimeout with
    | some t => s.clearTimer t
    | none => s
  let s := match s.eventSource with
    | some i => { s.close i with eventSource := none }
    | none => s
  (s, [.connection false])

end StreamState

/-- **The hook.** A source that is closed delivers nothing; the effect runs once, and is
cleaned up once. -/
def serverEvents (ε : Type*) : Machine StreamState (StreamAction ε) (StreamOutput ε) where
  step s
    | .mount =>
      if s.phase = .waiting then { s with phase := .mounted }.connect else (s, [])
    | .opened i =>
      if s.sources.row i = some .connecting then
        ({ s with sources := s.sources.update i fun _ => .open }, s.openHandler)
      else (s, [])
    | .message i payload =>
      (s, if s.sources.row i = some .open then s.messageHandler payload else [])
    | .errored i =>
      if s.sources.row i = some .connecting ∨ s.sources.row i = some .open then
        s.errorHandler i
      else (s, [])
    | .fire t => if (s.timers.row t).isSome then (s.clearTimer t).connect else (s, [])
    | .unmount => if s.phase = .mounted then s.cleanup else (s, [])

def StreamState.Listens (s : StreamState) (i : ℕ) : Prop :=
  ∃ state, s.sources.row i = some state ∧ state ≠ .closed

def StreamState.Pending (s : StreamState) (t : ℕ) : Prop := s.timers.row t = some ()

/-- **The life of the stream**: one source at a time, one timer and only where there is no
source, and nothing at all once the effect is cleaned up. -/
structure StreamState.Kept (ε : Type*) (s : StreamState) : Prop where
  oneSource : ∀ i j, s.Listens i → s.Listens j → i = j
  oneTimer : ∀ t t', s.Pending t → s.Pending t' → t = t'
  waits : ∀ t i, s.Pending t → ¬ s.Listens i
  /-- No source is open, and whatever happens creates none and tells the store nothing. -/
  silent : s.phase = .unmounted →
    (∀ i, ¬ s.Listens i) ∧ ∀ as, (serverEvents ε).trace s as = []

/-! ## The invariant -/

/-- **What the refs say**: the source that listens is the one in the ref, the timer that is
pending is the one in the other, and the first is empty while there is one. Both stay empty
where the effect is not mounted. -/
structure StreamState.Sound (s : StreamState) : Prop where
  source : ∀ i, s.Listens i → s.eventSource = some i
  timer : ∀ t, s.Pending t → s.reconnectTimeout = some t ∧ s.eventSource = none
  idle : s.phase ≠ .mounted → s.eventSource = none ∧ ∀ t, ¬ s.Pending t

section Steps

variable {ε : Type*} {s : StreamState}

theorem StreamState.listens_close {i j : ℕ} :
    (s.close i).Listens j ↔ s.Listens j ∧ j ≠ i := by
  unfold Listens close
  dsimp only
  rw [Table.row_update]
  by_cases hji : j = i
  · rw [if_pos hji]
    constructor
    · rintro ⟨state, hrow, hopen⟩
      obtain ⟨-, -, rfl⟩ := Option.map_eq_some_iff.mp hrow
      exact absurd rfl hopen
    · exact fun h => absurd hji h.2
  · rw [if_neg hji, and_iff_left hji]

theorem StreamState.pending_clearTimer {t t' : ℕ} :
    (s.clearTimer t).Pending t' ↔ s.Pending t' ∧ t' ≠ t := by
  unfold Pending clearTimer
  dsimp only
  rw [Table.row_deleteWhere_eq_some]
  simp

theorem StreamState.listens_insert {i : ℕ}
    (h : StreamState.Listens { s with sources := s.sources.insert .connecting } i) :
    i = s.sources.next ∨ s.Listens i := by
  obtain ⟨state, hrow, hopen⟩ := h
  obtain ⟨hnew, -⟩ | hold := (s.sources.row_insert_eq_some _).mp hrow
  · exact Or.inl hnew
  · exact Or.inr ⟨state, hold, hopen⟩

/-- **Connecting**, where no timer is pending. -/
theorem StreamState.Sound.connect (h : s.Sound) (hnone : ∀ t, ¬ s.Pending t) :
    (s.connect (ε := ε)).1.Sound := by
  unfold StreamState.connect
  split
  · exact h
  · next hmounted =>
    have hmounted : s.phase = .mounted := not_not.mp hmounted
    -- the source in the ref is closed, and no other one listened
    obtain ⟨s', hs', hphase, htimers, hclosed⟩ : ∃ s' : StreamState,
        (match s.eventSource with | some i => s.close i | none => s) = s'
          ∧ s'.phase = .mounted ∧ s'.timers = s.timers ∧ ∀ i, ¬ s'.Listens i := by
      cases href : s.eventSource with
      | none =>
        refine ⟨s, rfl, hmounted, rfl, fun i hi => ?_⟩
        exact absurd (h.source i hi) (by rw [href]; nofun)
      | some j =>
        refine ⟨s.close j, rfl, hmounted, rfl, fun i hi => ?_⟩
        obtain ⟨hi, hne⟩ := listens_close.mp hi
        exact hne (Option.some.inj ((h.source i hi).symm.trans href))
    dsimp only
    rw [hs']
    refine ⟨fun i hi => ?_, fun t ht => ?_, fun hphase' => absurd hphase hphase'⟩
    · obtain rfl | hold := listens_insert hi
      · rfl
      · exact absurd hold (hclosed i)
    · unfold Pending at ht
      rw [htimers] at ht
      exact absurd ht (hnone t)

/-- **An error** of the source in the ref leaves a timer in its place. -/
theorem StreamState.Sound.error (h : s.Sound) {i : ℕ} (hi : s.Listens i) :
    (s.errorHandler (ε := ε) i).1.Sound := by
  unfold errorHandler
  split
  · next hmounted =>
    have hnone : ∀ t, ¬ s.Pending t := fun t ht =>
      absurd ((h.timer t ht).2.symm.trans (h.source i hi)) nofun
    refine ⟨fun j hj => ?_, fun t ht => ?_, fun hphase => absurd hmounted hphase⟩
    · obtain ⟨hj, hne⟩ := listens_close.mp hj
      exact absurd (Option.some.inj ((h.source j hj).symm.trans (h.source i hi))) hne
    · obtain ⟨rfl, -⟩ | hold := (s.timers.row_insert_eq_some _).mp ht
      · exact ⟨rfl, rfl⟩
      · exact absurd hold (hnone t)
  · exact h

/-- **The cleanup** leaves no source and no timer. -/
theorem StreamState.Sound.cleanup (h : s.Sound) : (s.cleanup (ε := ε)).1.Sound := by
  obtain ⟨s', hs', href, hsources, hnone⟩ : ∃ s' : StreamState,
      (match s.reconnectTimeout with
        | some t => { s with phase := .unmounted }.clearTimer t
        | none => { s with phase := .unmounted }) = s'
        ∧ s'.eventSource = s.eventSource ∧ s'.sources = s.sources ∧ ∀ t, ¬ s'.Pending t := by
    cases htimer : s.reconnectTimeout with
    | none =>
      refine ⟨_, rfl, rfl, rfl, fun t ht => ?_⟩
      exact absurd (h.timer t ht).1 (by rw [htimer]; nofun)
    | some t' =>
      refine ⟨_, rfl, rfl, rfl, fun t ht => ?_⟩
      obtain ⟨ht, hne⟩ := pending_clearTimer.mp ht
      exact hne (Option.some.inj ((h.timer t ht).1.symm.trans htimer))
  have hlistens : ∀ {i : ℕ}, s'.Listens i → s.eventSource = some i := by
    intro i hi
    unfold Listens at hi
    rw [hsources] at hi
    exact h.source i hi
  unfold StreamState.cleanup
  dsimp only
  rw [hs']
  cases hs : s'.eventSource with
  | none =>
    refine ⟨fun i hi => ?_, fun t ht => absurd ht (hnone t), fun _ => ⟨hs, hnone⟩⟩
    exact absurd ((href.symm.trans hs).symm.trans (hlistens hi)) nofun
  | some j =>
    refine ⟨fun i hi => ?_, fun t ht => absurd ht (hnone t), fun _ => ⟨rfl, hnone⟩⟩
    obtain ⟨hi, hne⟩ := listens_close.mp hi
    exact absurd (Option.some.inj ((hlistens hi).symm.trans (href.symm.trans hs))) hne

theorem StreamState.Sound.next (h : s.Sound) (a : StreamAction ε) :
    ((serverEvents ε).next s a).Sound := by
  unfold Machine.next serverEvents
  cases a with
  | mount =>
    dsimp only
    split
    · next hwaiting =>
      obtain ⟨href, hnone⟩ := h.idle (by rw [hwaiting]; nofun)
      refine StreamState.Sound.connect ⟨h.source, h.timer, fun hphase => ?_⟩ hnone
      exact absurd rfl hphase
    · exact h
  | opened i =>
    dsimp only
    split
    · next hrow =>
      refine ⟨fun j hj => h.source j ?_, h.timer, h.idle⟩
      -- the source that opens was connecting
      obtain ⟨state, hj, hopen⟩ := hj
      rw [Table.row_update] at hj
      by_cases hji : j = i
      · rw [hji]
        exact ⟨.connecting, hrow, nofun⟩
      · rw [if_neg hji] at hj
        exact ⟨state, hj, hopen⟩
    · exact h
  | message i payload => exact h
  | errored i =>
    dsimp only
    split
    · next hrow =>
      refine h.error ?_
      exact hrow.elim (fun hrow => ⟨_, hrow, nofun⟩) (fun hrow => ⟨_, hrow, nofun⟩)
    · exact h
  | fire t =>
    dsimp only
    split
    · next hsome =>
      have ht : s.Pending t := Option.isSome_iff_exists.mp hsome |>.choose_spec
      have hcleared : (s.clearTimer t).Sound :=
        ⟨h.source, fun t' ht' => h.timer t' (StreamState.pending_clearTimer.mp ht').1,
          fun hphase => absurd ht ((h.idle hphase).2 t)⟩
      refine hcleared.connect fun t' ht' => ?_
      obtain ⟨ht', hne⟩ := StreamState.pending_clearTimer.mp ht'
      exact hne (Option.some.inj ((h.timer t' ht').1.symm.trans (h.timer t ht).1))
    · exact h
  | unmount =>
    dsimp only
    split
    · exact h.cleanup
    · exact h

/-! ## After the cleanup -/

theorem StreamState.connect_of_not_mounted (h : s.phase ≠ .mounted) :
    s.connect (ε := ε) = (s, []) := if_pos h

/-- **A step after the cleanup** emits nothing, and mounts nothing. -/
theorem step_unmounted (h : s.phase = .unmounted) (a : StreamAction ε) :
    (serverEvents ε).emits s a = [] ∧ ((serverEvents ε).next s a).phase = .unmounted := by
  have hphase : s.phase ≠ .mounted := by rw [h]; nofun
  unfold Machine.emits Machine.next serverEvents
  cases a with
  | mount =>
    dsimp only
    rw [if_neg (by rw [h]; nofun)]
    exact ⟨rfl, h⟩
  | opened i =>
    dsimp only
    split
    · exact ⟨if_neg hphase, h⟩
    · exact ⟨rfl, h⟩
  | message i payload =>
    dsimp only
    unfold StreamState.messageHandler
    rw [if_neg hphase, ite_self]
    exact ⟨rfl, h⟩
  | errored i =>
    dsimp only
    unfold StreamState.errorHandler
    rw [if_neg hphase, ite_self]
    exact ⟨rfl, h⟩
  | fire t =>
    dsimp only
    rw [(s.clearTimer t).connect_of_not_mounted hphase]
    split <;> exact ⟨rfl, h⟩
  | unmount =>
    dsimp only
    rw [if_neg hphase]
    exact ⟨rfl, h⟩

/-- **What is unmounted stays silent.** -/
theorem trace_unmounted (h : s.phase = .unmounted) (as : List (StreamAction ε)) :
    (serverEvents ε).trace s as = [] := by
  induction as generalizing s with
  | nil => rfl
  | cons a as ih =>
    obtain ⟨hnone, hnext⟩ := step_unmounted h a
    rw [Machine.trace_cons, hnone, ih hnext]
    rfl

theorem StreamState.Sound.kept (h : s.Sound) : s.Kept ε where
  oneSource i j hi hj := Option.some.inj ((h.source i hi).symm.trans (h.source j hj))
  oneTimer t t' ht ht' :=
    Option.some.inj ((h.timer t ht).1.symm.trans (h.timer t' ht').1)
  waits t i ht hi := absurd ((h.timer t ht).2.symm.trans (h.source i hi)) nofun
  silent hphase := by
    refine ⟨fun i hi => ?_, trace_unmounted hphase⟩
    have hnone := (h.idle (by rw [hphase]; nofun)).1
    exact absurd (hnone.symm.trans (h.source i hi)) nofun

end Steps

/-- **The stream lives as it should in every run**: one source at a time, one timer and only
where there is no source, and after the cleanup no source, no new one, and nothing for the
store. -/
theorem serverEvents_kept (ε : Type*) (as : List (StreamAction ε)) :
    ((serverEvents ε).state .initial as).Kept ε := by
  refine StreamState.Sound.kept ((serverEvents ε).state_invariant ?_ (fun s a h => h.next a) as)
  refine ⟨fun i hi => ?_, nofun, fun _ => ⟨rfl, nofun⟩⟩
  obtain ⟨state, hrow, -⟩ := hi
  exact absurd hrow nofun

/-- An error, the timer, and the events of the source that takes the place of the first. -/
example : (serverEvents ℕ).trace .initial
    [.mount, .opened 1, .message 1 (some 7), .errored 1, .message 1 (some 8), .fire 1,
      .opened 2, .message 2 (some 9), .unmount, .message 2 (some 10)]
      = [.created 1, .connection true, .dispatched 7, .connection false, .created 2,
        .connection true, .dispatched 9, .connection false] := by
  decide +kernel

end MissionControl
