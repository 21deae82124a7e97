import MissionControl.Transport
import Mathlib.Algebra.Order.Floor.Ring
import Mathlib.Data.Rat.Floor
import Mathlib.Tactic.Linarith

/-!
# The time that a command may take

Both sides of the provisioner socket set a timer for the same command. The daemon kills the
child of an attempt after `max(1000, t)` milliseconds, the client gives up after
`max(2000, t + 2000)`. The client's budget is for one attempt: a `useradd` that finds the
password file locked is tried up to six times, with a pause before each further attempt, and
may end well after the client has recorded a failure (`not_waits_sampleUseradd`).

`waits_iff` says for which requests the client waits as long as the daemon may work. The two
sides part at two more places: a `timeoutMs` of zero is ten seconds to the daemon and nothing
to the client, and a delay that a timer cannot hold is over at once.
-/

namespace MissionControl

/-! ## The timers -/

/-- `setTimeout`: a delay that is too long, or under a millisecond, becomes one millisecond,
and fractions are cut off. -/
def timerDelay (ms : ℚ) : ℚ := if 1 ≤ ms ∧ ms ≤ 2147483647 then ⌊ms⌋ else 1

/-- The timer of `run`: `Math.max(1000, Number(timeoutMs || 10000))`. -/
def runDelay (t : ℚ) : ℚ := timerDelay (max 1000 (if t = 0 then 10000 else t))

/-- The timer of `callProvisioner`: `Math.max(2000, payload.timeoutMs + 2000)`. -/
def clientDelay (t : ℚ) : ℚ := timerDelay (max 2000 (t + 2000))

/-! ## The run of the daemon -/

/-- What becomes of the child of an attempt, and after how many milliseconds. -/
structure TimedChild where
  duration : ℚ
  event : ChildEvent

/-- The child as `run` sees it: its timer may have killed it. -/
def TimedChild.outcome (child : TimedChild) (delay : ℚ) : Bool × ChildEvent :=
  (decide (delay ≤ child.duration), child.event)

/-- The loop of `runWithRetry`, with the time that it takes. -/
def timedRetryLoop (cmd : String) (delay : ℚ) (children : ℕ → TimedChild) :
    (attempt attempts : ℕ) → RunResult × ℚ
  | attempt, 0 =>
    let (timedOut, event) := (children attempt).outcome delay
    (runOnce timedOut event, (children attempt).duration)
  | attempt, attempts + 1 =>
    let (timedOut, event) := (children attempt).outcome delay
    let result := runOnce timedOut event
    if result.ok then (result, (children attempt).duration)
    else if cmd = "useradd" ∧ passwdLocked result.stderr then
      let (last, time) := timedRetryLoop cmd delay children (attempt + 1) attempts
      (last, (children attempt).duration + 800 + time)
    else (result, (children attempt).duration)

/-- **A run of the daemon** for a command with a `timeoutMs`: no attempt outlasts the timer
that kills it. -/
structure DaemonRun (t : ℚ) where
  children : ℕ → TimedChild
  nonneg : ∀ attempt, 0 ≤ (children attempt).duration
  le_delay : ∀ attempt, (children attempt).duration ≤ runDelay t

/-- What becomes of the children of a run. -/
def DaemonRun.events {t : ℚ} (run : DaemonRun t) (attempt : ℕ) : Bool × ChildEvent :=
  (run.children attempt).outcome (runDelay t)

/-- `runWithRetry`: its result, and when it is there. -/
def DaemonRun.timed {t : ℚ} (run : DaemonRun t) (command : String) : RunResult × ℚ :=
  timedRetryLoop (basename command) (runDelay t) run.children 0
    (if basename command = "useradd" then 5 else 0)

/-- **To watch the clock changes no result.** -/
theorem timedRetryLoop_result (cmd : String) (delay : ℚ) (children : ℕ → TimedChild)
    (attempt attempts : ℕ) :
    (timedRetryLoop cmd delay children attempt attempts).1
      = retryLoop cmd (fun i => (children i).outcome delay) attempt attempts := by
  induction attempts generalizing attempt with
  | zero => rfl
  | succ attempts ih =>
    unfold timedRetryLoop retryLoop
    dsimp only
    split
    · rfl
    · split
      · exact ih (attempt + 1)
      · rfl

theorem DaemonRun.timed_result {t : ℚ} (run : DaemonRun t) (command : String) :
    (run.timed command).1 = runWithRetry command run.events :=
  timedRetryLoop_result _ _ _ _ _

/-! ## The request -/

/-- **A live request that the daemon accepts**, with its `timeoutMs`. -/
structure LiveRequest (rt : Runtime) (d : Daemon) where
  payload : ProvisionerPayload
  t : ℚ
  timeoutMs : payload.timeoutMs = .num (.finite t)
  request : ProvisionerRequest
  reads : readRequest rt payload = .ok request
  accepted : spawned d request = some (request.command, request.args)

section Waits

variable {rt : Runtime} {d : Daemon} (r : LiveRequest rt d)

/-- What the client is told: the response, if it is written before the timer fires. -/
def LiveRequest.stepEvent (run : DaemonRun r.t) : StepEvent :=
  if (run.timed r.request.command).2 < clientDelay r.t then .answered run.events
  else .unanswered "Provisioner socket timeout"

/-- **The client waits for the daemon**: every run of it has written its response before the
timer fires, and no step fails whose command the daemon completes. -/
structure LiveRequest.Waits : Prop where
  before : ∀ run : DaemonRun r.t, (run.timed r.request.command).2 < clientDelay r.t
  recorded : ∀ run : DaemonRun r.t, (handleRequest d r.request run.events).ok = true →
    ∃ result, settle rt d (.provisioner r.payload) (r.stepEvent run) = some (.ok result)

end Waits

/-! ## The two budgets -/

theorem one_le_timerDelay (ms : ℚ) : 1 ≤ timerDelay ms := by
  unfold timerDelay
  split
  · next h =>
    have hfloor : (1 : ℤ) ≤ ⌊ms⌋ := Int.le_floor.mpr (by exact_mod_cast h.1)
    exact_mod_cast hfloor
  · exact le_refl 1

theorem timerDelay_mono {a b : ℚ} (hab : a ≤ b) (hb : b ≤ 2147483647) :
    timerDelay a ≤ timerDelay b := by
  unfold timerDelay
  by_cases ha : 1 ≤ a
  · rw [if_pos ⟨ha, hab.trans hb⟩, if_pos ⟨ha.trans hab, hb⟩]
    exact_mod_cast Int.floor_le_floor hab
  · rw [if_neg fun h => ha h.1]
    exact one_le_timerDelay b

theorem timerDelay_add {a : ℚ} (n : ℕ) (ha : 1 ≤ a) (hle : a + n ≤ 2147483647) :
    timerDelay (a + n) = timerDelay a + n := by
  have hn : (0 : ℚ) ≤ n := Nat.cast_nonneg n
  unfold timerDelay
  rw [if_pos ⟨by linarith, hle⟩, if_pos ⟨ha, by linarith⟩, Int.floor_add_natCast]
  push_cast
  rfl

/-- **The client never waits more than two seconds longer** than one attempt may take. -/
theorem clientDelay_le (t : ℚ) : clientDelay t ≤ runDelay t + 2000 := by
  have hrun : 1 ≤ runDelay t := one_le_timerDelay _
  unfold clientDelay
  by_cases hle : max 2000 (t + 2000) ≤ 2147483647
  · have ht : t + 2000 ≤ 2147483647 := (le_max_right _ _).trans hle
    have hbudget : max 1000 (if t = 0 then 10000 else t) + (2000 : ℕ) ≤ 2147483647 := by
      rw [← le_sub_iff_add_le]
      refine max_le (by norm_num) ?_
      split
      · norm_num
      · push_cast
        linarith
    have hread : t ≤ max 1000 (if t = 0 then 10000 else t) := by
      refine le_trans ?_ (le_max_right _ _)
      split
      · next hzero =>
        rw [hzero]
        norm_num
      · exact le_refl t
    have hshort : max 2000 (t + 2000) ≤ max 1000 (if t = 0 then 10000 else t) + (2000 : ℕ) := by
      have hmin := le_max_left (1000 : ℚ) (if t = 0 then 10000 else t)
      push_cast
      exact max_le (by linarith) (by linarith)
    calc timerDelay (max 2000 (t + 2000))
        ≤ timerDelay (max 1000 (if t = 0 then 10000 else t) + (2000 : ℕ)) :=
          timerDelay_mono hshort hbudget
      _ = runDelay t + 2000 := by
          rw [timerDelay_add 2000 ((by norm_num : (1 : ℚ) ≤ 1000).trans (le_max_left _ _)) hbudget]
          rfl
  · unfold timerDelay
    rw [if_neg fun h => hle h.2]
    linarith

/-- **The client waits a second longer than one attempt may take**, where neither side reads
the `timeoutMs` as something else. -/
theorem runDelay_add_le {t : ℚ} (hzero : t ≠ 0) (hle : t + 2000 ≤ 2147483647) :
    runDelay t + 1000 ≤ clientDelay t := by
  have hbudget : max 1000 t + (1000 : ℕ) ≤ 2147483647 := by
    rw [← le_sub_iff_add_le]
    refine max_le (by norm_num) ?_
    push_cast
    linarith
  have hshort : max 1000 t + (1000 : ℕ) ≤ max 2000 (t + 2000) := by
    rw [← le_sub_iff_add_le]
    refine max_le ?_ ?_
    · rw [le_sub_iff_add_le]
      exact le_max_of_le_left (by norm_num)
    · rw [le_sub_iff_add_le]
      exact le_max_of_le_right (by push_cast; linarith)
  have hlong : max 2000 (t + 2000) ≤ 2147483647 := max_le (by norm_num) hle
  unfold runDelay clientDelay
  rw [if_neg hzero]
  calc timerDelay (max 1000 t) + 1000
      = timerDelay (max 1000 t + (1000 : ℕ)) := by
        rw [timerDelay_add 1000 ((by norm_num : (1 : ℚ) ≤ 1000).trans (le_max_left _ _)) hbudget]
        rfl
    _ ≤ timerDelay (max 2000 (t + 2000)) := timerDelay_mono hshort hlong

/-! ## Runs -/

/-- **A run in which every child does the same**, and is not killed before it is done. -/
def DaemonRun.steady (t : ℚ) (event : ChildEvent) (duration : ℚ) (hnonneg : 0 ≤ duration)
    (hle : duration ≤ runDelay t) : DaemonRun t where
  children _ := ⟨duration, event⟩
  nonneg _ := hnonneg
  le_delay _ := hle

/-- **A run in which five children find the password file locked**, and the sixth is done:
each of them takes half of the time it has. -/
def DaemonRun.locked (t : ℚ) : DaemonRun t where
  children attempt := ⟨runDelay t / 2,
    if attempt < 5 then .close (some 1) "" "useradd: cannot lock /etc/passwd; try again later."
    else .close (some 0) "" ""⟩
  nonneg _ := by
    have hrun : 1 ≤ runDelay t := one_le_timerDelay _
    linarith
  le_delay _ := by
    have hrun : 1 ≤ runDelay t := one_le_timerDelay _
    dsimp only
    linarith

theorem DaemonRun.time_of_once {t : ℚ} (run : DaemonRun t) {command : String}
    (h : basename command ≠ "useradd") :
    (run.timed command).2 = (run.children 0).duration := by
  unfold timed
  rw [if_neg h]
  rfl

def TimedChild.FindsLock (child : TimedChild) (delay : ℚ) : Prop :=
  (runOnce (child.outcome delay).1 (child.outcome delay).2).ok = false
    ∧ passwdLocked (runOnce (child.outcome delay).1 (child.outcome delay).2).stderr = true

/-- **The time of a `useradd` that keeps finding a lock**, until its last attempt. -/
theorem time_of_finds_lock {delay duration : ℚ} {children : ℕ → TimedChild}
    (hduration : ∀ i, (children i).duration = duration) {attempt attempts : ℕ}
    (hlock : ∀ i < attempts, (children (attempt + i)).FindsLock delay) :
    (timedRetryLoop "useradd" delay children attempt attempts).2
      = attempts * (duration + 800) + duration := by
  induction attempts generalizing attempt with
  | zero =>
    unfold timedRetryLoop
    rw [hduration]
    push_cast
    ring
  | succ attempts ih =>
    obtain ⟨hfails, hlocked⟩ := hlock 0 (Nat.zero_lt_succ attempts)
    rw [Nat.add_zero] at hfails hlocked
    have hrest := @ih (attempt + 1) fun i hi => by
      have hnext := hlock (i + 1) (Nat.succ_lt_succ hi)
      rwa [← Nat.add_assoc, Nat.add_right_comm] at hnext
    unfold timedRetryLoop
    dsimp only
    rw [if_neg (by rw [hfails]; nofun), if_pos ⟨rfl, hlocked⟩]
    dsimp only
    rw [hrest, hduration]
    push_cast
    ring

/-- **Five locks and six attempts**: three times what an attempt may take, and the pauses. -/
theorem DaemonRun.time_locked {t : ℚ} {command : String} (h : basename command = "useradd") :
    ((DaemonRun.locked t).timed command).2 = 3 * runDelay t + 4000 := by
  have hrun : 1 ≤ runDelay t := one_le_timerDelay _
  have hhalf : ¬ runDelay t ≤ runDelay t / 2 := by linarith
  have hlocked : passwdLocked "useradd: cannot lock /etc/passwd; try again later." = true := by
    decide +kernel
  have hlock : ∀ i < 5, ((DaemonRun.locked t).children (0 + i)).FindsLock (runDelay t) := by
    intro i hi
    unfold TimedChild.FindsLock TimedChild.outcome locked
    dsimp only
    rw [Nat.zero_add, if_pos hi, decide_eq_false hhalf]
    exact ⟨rfl, hlocked⟩
  have hduration : ∀ i, ((DaemonRun.locked t).children i).duration = runDelay t / 2 :=
    fun _ => rfl
  unfold timed
  rw [if_pos h, h, time_of_finds_lock hduration hlock]
  push_cast
  ring

/-! ## Which requests the client waits for -/

section Waits

variable {rt : Runtime} {d : Daemon} (r : LiveRequest rt d)

/-- **A step is told what the daemon has done**, where the response comes in time. -/
theorem LiveRequest.waits_of_before
    (h : ∀ run : DaemonRun r.t, (run.timed r.request.command).2 < clientDelay r.t) :
    r.Waits where
  before := h
  recorded run hok := by
    obtain ⟨result, hresult⟩ := runProvisionerCommand_of_ok hok
    refine ⟨result, ?_⟩
    unfold stepEvent
    rw [if_pos (h run)]
    simp only [settle, r.reads, hresult]

theorem LiveRequest.not_waits_of_useradd (h : basename r.request.command = "useradd") :
    ¬ r.Waits := by
  intro hwaits
  have hbefore := hwaits.before (DaemonRun.locked r.t)
  rw [DaemonRun.time_locked h] at hbefore
  have hclient := clientDelay_le r.t
  have hrun : 1 ≤ runDelay r.t := one_le_timerDelay _
  linarith

/-- **The client waits as long as the daemon may work** exactly for a command that is tried
once, with a `timeoutMs` that is not zero and that leaves the timer of the client in its
range. -/
theorem waits_iff :
    r.Waits ↔ basename r.request.command ≠ "useradd" ∧ r.t ≠ 0 ∧ r.t + 2000 ≤ 2147483647 := by
  constructor
  · intro h
    have hcommand : basename r.request.command ≠ "useradd" :=
      fun heq => r.not_waits_of_useradd heq h
    -- a child that is done after `duration` milliseconds
    have htime : ∀ duration : ℚ, 0 ≤ duration → duration ≤ runDelay r.t →
        duration < clientDelay r.t := by
      intro duration hnonneg hle
      have hbefore := h.before (.steady r.t (.close (some 0) "" "") duration hnonneg hle)
      rwa [DaemonRun.time_of_once _ hcommand] at hbefore
    refine ⟨hcommand, fun hzero => ?_, ?_⟩
    · have hrun : runDelay r.t = 10000 := by
        rw [hzero]
        decide +kernel
      have hclient : clientDelay r.t = 2000 := by
        rw [hzero]
        decide +kernel
      have hlate := htime 2000 (by norm_num) (by rw [hrun]; norm_num)
      rw [hclient] at hlate
      exact lt_irrefl _ hlate
    · by_contra hlong
      have hclient : clientDelay r.t = 1 := by
        unfold clientDelay timerDelay
        exact if_neg fun hin => hlong ((le_max_right _ _).trans hin.2)
      have hlate := htime 1 zero_le_one (one_le_timerDelay _)
      rw [hclient] at hlate
      exact lt_irrefl _ hlate
  · rintro ⟨hcommand, hzero, hlong⟩
    refine r.waits_of_before fun run => ?_
    rw [run.time_of_once hcommand]
    have hchild := run.le_delay 0
    have hbudget := runDelay_add_le hzero hlong
    linarith

end Waits

/-! ## The first step of a bootstrap -/

/-- The request that creates a user, as the plan of a tenant has it. -/
def sampleUseradd : LiveRequest sampleRuntime sampleDaemon where
  payload :=
    { token := "token"
      command := .str "/usr/sbin/useradd"
      args := [.str "-m", .str "-s", .str "/bin/bash", .str "alice"]
      timeoutMs := .num (.finite 10000)
      dryRun := false
      stepKey := some (.str "create-linux-user") }
  t := 10000
  timeoutMs := rfl
  request := ⟨"token", "/usr/sbin/useradd", ["-m", "-s", "/bin/bash", "alice"], false⟩
  reads := rfl
  accepted := by decide +kernel

/-- **A user that is created after all**: five attempts find the password file locked, the
sixth is done after 34 seconds, and the client has given up after twelve. -/
theorem not_waits_sampleUseradd :
    ¬ ∀ (rt : Runtime) (d : Daemon) (r : LiveRequest rt d), r.Waits :=
  fun h => sampleUseradd.not_waits_of_useradd (by decide +kernel) (h _ _ _)

end MissionControl
