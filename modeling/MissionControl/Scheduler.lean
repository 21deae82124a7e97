import MissionControl.Js
import MissionControl.Library.Machine
import MissionControl.Library.Table

/-!
# The scheduler

`tick` is called every minute and goes through the scheduled tasks in order. It
reads the clock once, and waits for each task that it starts; so the next ticks
begin before it has ended, and overtake it with later times.

A tick starts a task only if the task is not running and its next run is due at the
time of the tick. The next run is set where a run ends, an interval after the time
of the tick that started it. So an old tick that goes on finds the tasks of the
later ones running, or not due at its own time: the runs of a task do not overlap,
and the times of their starts lie an interval apart (`scheduler_exclusive`).
-/

namespace MissionControl

/-! ## Tasks -/

inductive TaskId where
  | auto_backup | auto_cleanup | agent_heartbeat | webhook_retry | claude_session_scan
  deriving DecidableEq

/-- The keys of `tasks`, in the order in which they were set. -/
def TaskId.all : List TaskId :=
  [auto_backup, auto_cleanup, agent_heartbeat, webhook_retry, claude_session_scan]

/-- What a task returns, with the time of the tick that started it. -/
structure LastResult where
  ok : Bool
  message : String
  timestamp : ℕ

structure ScheduledTask where
  name : String
  intervalMs : ℕ
  lastRun : Option ℕ
  nextRun : ℕ
  enabled : Bool
  running : Bool
  lastResult : Option LastResult

def DAILY_MS : ℕ := 24 * 60 * 60 * 1000

def FIVE_MINUTES_MS : ℕ := 5 * 60 * 1000

def TICK_MS : ℕ := 60 * 1000

/-- The settings, as the database has them: nothing where it cannot be read. -/
abbrev Settings := String → Option String

def isSettingEnabled (settings : Settings) (key : String) (defaultValue : Bool) : Bool :=
  match settings key with
  | some value => value = "true"
  | none => defaultValue

def TaskId.settingKey : TaskId → String
  | auto_backup => "general.auto_backup"
  | auto_cleanup => "general.auto_cleanup"
  | webhook_retry => "webhooks.retry_enabled"
  | claude_session_scan => "general.claude_session_scan"
  | agent_heartbeat => "general.agent_heartbeat"

/-- Whether a task is enabled where there is no setting. -/
def TaskId.defaultEnabled (id : TaskId) : Bool :=
  id = agent_heartbeat ∨ id = webhook_retry ∨ id = claude_session_scan

/-- `getNextDailyMs`: the time up to the next occurrence of an hour. -/
def getNextDailyMs (now hour : ℕ) : ℕ :=
  let next := hour * (60 * 60 * 1000)
  let today := now % DAILY_MS
  if next ≤ today then next + DAILY_MS - today else next - today

def ScheduledTask.register (name : String) (intervalMs nextRun : ℕ) : ScheduledTask :=
  ⟨name, intervalMs, none, nextRun, true, false, none⟩

/-! ## Ticks -/

/-- **A tick that waits** for a task: its time, the task, and those behind it. -/
structure Tick where
  now : ℕ
  current : TaskId
  rest : List TaskId

/-- **The scheduler**: the tasks, the ticks that wait, and the clock. -/
structure SchedulerState where
  task : TaskId → ScheduledTask
  ticks : Table Tick
  clock : ℕ

/-- `initScheduler`. The clock is read again for the two daily tasks. -/
def initScheduler (now backupNow cleanupNow : ℕ) : SchedulerState where
  task
    | .auto_backup => .register "Auto Backup" DAILY_MS (now + getNextDailyMs backupNow 3)
    | .auto_cleanup => .register "Auto Cleanup" DAILY_MS (now + getNextDailyMs cleanupNow 4)
    | .agent_heartbeat =>
      .register "Agent Heartbeat Check" FIVE_MINUTES_MS (now + FIVE_MINUTES_MS)
    | .webhook_retry => .register "Webhook Retry" TICK_MS (now + TICK_MS)
    | .claude_session_scan => .register "Claude Session Scan" TICK_MS (now + 5000)
  ticks := .empty
  clock := now

/-- What the scheduler does: a run of a task begins, or ends, with the time of its
tick. -/
inductive SchedulerEvent where
  | started (id : TaskId) (now : ℕ)
  | finished (id : TaskId) (now : ℕ)
  deriving DecidableEq

/-- What happens to the scheduler: a tick some time later, or the end of the task that
a tick waits for. Each goes on with the settings of that moment. -/
inductive SchedulerAction where
  | tick (elapsed : ℕ) (settings : Settings)
  | finish (i : ℕ) (ok : Bool) (message : String) (settings : Settings)

namespace SchedulerState

def starts (s : SchedulerState) (now : ℕ) (settings : Settings) (id : TaskId) : Bool :=
  ¬ (s.task id).running ∧ ¬ now < (s.task id).nextRun
    ∧ isSettingEnabled settings id.settingKey id.defaultEnabled

/-- The next task that a tick starts, and those behind it. -/
def nextStart (s : SchedulerState) (now : ℕ) (settings : Settings) :
    List TaskId → Option (TaskId × List TaskId)
  | [] => none
  | id :: rest =>
    if s.starts now settings id then some (id, rest) else s.nextStart now settings rest

def setRunning (s : SchedulerState) (id : TaskId) : SchedulerState :=
  { s with task := Function.update s.task id { s.task id with running := true } }

/-- A run ends: the `finally` of `tick`. -/
def endRun (s : SchedulerState) (id : TaskId) (now : ℕ) (result : LastResult) :
    SchedulerState :=
  { s with
    task := Function.update s.task id
      { s.task id with
        lastResult := some result
        running := false
        lastRun := some now
        nextRun := now + (s.task id).intervalMs } }

/-- A tick goes through the tasks up to the next one it waits for. -/
def tick (s : SchedulerState) (now : ℕ) (settings : Settings) :
    SchedulerState × List SchedulerEvent :=
  match s.nextStart now settings TaskId.all with
  | none => (s, [])
  | some (id, rest) =>
    ({ s.setRunning id with ticks := s.ticks.insert ⟨now, id, rest⟩ }, [.started id now])

def resume (s : SchedulerState) (i : ℕ) (now : ℕ) (rest : List TaskId)
    (settings : Settings) : SchedulerState × List SchedulerEvent :=
  match s.nextStart now settings rest with
  | none => ({ s with ticks := s.ticks.deleteWhere fun j _ => j = i }, [])
  | some (id, rest) =>
    ({ s.setRunning id with ticks := s.ticks.update i fun _ => ⟨now, id, rest⟩ },
      [.started id now])

end SchedulerState

/-- **The scheduler**, after `initScheduler`. -/
def scheduler : Machine SchedulerState SchedulerAction SchedulerEvent where
  step s
    | .tick elapsed settings =>
      { s with clock := s.clock + elapsed }.tick (s.clock + elapsed) settings
    | .finish i ok message settings =>
      match s.ticks.row i with
      | none => (s, [])
      | some t =>
        let resumed := (s.endRun t.current t.now ⟨ok, message, t.now⟩).resume i t.now t.rest
          settings
        (resumed.1, .finished t.current t.now :: resumed.2)

/-! ## Runs in progress -/

def TaskId.intervalMs : TaskId → ℕ
  | auto_backup => DAILY_MS
  | auto_cleanup => DAILY_MS
  | agent_heartbeat => FIVE_MINUTES_MS
  | webhook_retry => TICK_MS
  | claude_session_scan => TICK_MS

/-- The times of the ticks that have started a task. -/
def startTimes (id : TaskId) (es : List SchedulerEvent) : List ℕ :=
  es.filterMap fun
    | .started id' now => if id' = id then some now else none
    | .finished _ _ => none

/-- A tick waits for a run of the task. -/
def SchedulerState.InProgress (s : SchedulerState) (id : TaskId) : Prop :=
  ∃ i t, s.ticks.row i = some t ∧ t.current = id

/-- **The invariant of the scheduler.** -/
structure SchedulerInv (es : List SchedulerEvent) (s : SchedulerState) : Prop where
  interval : ∀ id, (s.task id).intervalMs = id.intervalMs
  /-- A task is marked where a tick waits for it. -/
  running : ∀ id, (s.task id).running = true ↔ s.InProgress id
  unique : ∀ i j t u, s.ticks.row i = some t → s.ticks.row j = some u →
    t.current = u.current → i = j
  /-- A tick goes through the tasks in order. -/
  order : ∀ i t, s.ticks.row i = some t → (t.current :: t.rest) <:+ TaskId.all
  due : ∀ i t, s.ticks.row i = some t → (s.task t.current).nextRun ≤ t.now
  /-- The next run is an interval after the last one. -/
  lastRun : ∀ id last, (s.task id).lastRun = some last →
    last + id.intervalMs ≤ (s.task id).nextRun
  /-- The next run is an interval after all that have ended. -/
  idle : ∀ id, ¬ s.InProgress id → ∀ t ∈ startTimes id es,
    t + id.intervalMs ≤ (s.task id).nextRun
  /-- A run began an interval after the ones before it. -/
  begun : ∀ i t, s.ticks.row i = some t → ∀ before ∈ startTimes t.current es,
    before = t.now ∨ before + t.current.intervalMs ≤ t.now
  /-- The runs of a task began an interval apart. -/
  apart : ∀ id, (startTimes id es).Pairwise fun t t' => t + id.intervalMs ≤ t'

section Steps

variable {es : List SchedulerEvent} {s s' : SchedulerState}

theorem startTimes_started (id : TaskId) (now : ℕ) :
    startTimes id (es ++ [.started id now]) = startTimes id es ++ [now] := by
  simp [startTimes, List.filterMap_append]

theorem startTimes_started_of_ne {id other : TaskId} (now : ℕ) (h : id ≠ other) :
    startTimes other (es ++ [.started id now]) = startTimes other es := by
  simp [startTimes, List.filterMap_append, h]

theorem startTimes_finished (id other : TaskId) (now : ℕ) :
    startTimes other (es ++ [.finished id now]) = startTimes other es := by
  simp [startTimes, List.filterMap_append]

theorem SchedulerState.nextStart_eq_some {now : ℕ} {settings : Settings}
    {ids rest : List TaskId} {id : TaskId}
    (h : s.nextStart now settings ids = some (id, rest)) :
    s.starts now settings id = true ∧ (id :: rest) <:+ ids := by
  induction ids with
  | nil => exact nomatch h
  | cons first ids ih =>
    rw [nextStart] at h
    split at h
    · next hstarts =>
      obtain ⟨rfl, rfl⟩ := Prod.mk.inj (Option.some.inj h)
      exact ⟨hstarts, List.suffix_rfl⟩
    · obtain ⟨hstarts, hsuffix⟩ := ih h
      exact ⟨hstarts, hsuffix.trans (List.suffix_cons _ _)⟩

/-- **What a tick starts is idle and due.** -/
theorem SchedulerState.starts_iff {now : ℕ} {settings : Settings} {id : TaskId}
    (h : s.starts now settings id = true) :
    (s.task id).running ≠ true ∧ (s.task id).nextRun ≤ now := by
  obtain ⟨hrunning, hdue, -⟩ := of_decide_eq_true h
  exact ⟨hrunning, Nat.not_lt.mp hdue⟩

/-- **A run begins**: a tick that was not waiting waits for a task now. -/
theorem SchedulerInv.start (hinv : SchedulerInv es s) {i : ℕ} {t : Tick}
    {settings : Settings} (hfree : s.ticks.row i = none)
    (hstarts : s.starts t.now settings t.current = true)
    (horder : (t.current :: t.rest) <:+ TaskId.all)
    (htask : s'.task = (s.setRunning t.current).task) (hself : s'.ticks.row i = some t)
    (hother : ∀ j, j ≠ i → s'.ticks.row j = s.ticks.row j) :
    SchedulerInv (es ++ [.started t.current t.now]) s' := by
  obtain ⟨hnot, hdue⟩ := SchedulerState.starts_iff hstarts
  have hidle : ¬ s.InProgress t.current := fun h => hnot ((hinv.running _).mpr h)
  -- a tick of the next state is the new one, or an old one that waits for another task
  have hticks : ∀ j u, s'.ticks.row j = some u →
      (j = i ∧ u = t) ∨ (s.ticks.row j = some u ∧ u.current ≠ t.current) := by
    intro j u hu
    by_cases hj : j = i
    · subst hj
      rw [hself] at hu
      exact .inl ⟨rfl, (Option.some.inj hu).symm⟩
    · rw [hother j hj] at hu
      exact .inr ⟨hu, fun hcurrent => hidle ⟨j, u, hu, hcurrent⟩⟩
  have hprogress : ∀ id, s'.InProgress id ↔ id = t.current ∨ s.InProgress id := by
    intro id
    constructor
    · rintro ⟨j, u, hu, hcurrent⟩
      rcases hticks j u hu with ⟨-, rfl⟩ | ⟨hold, -⟩
      · exact .inl hcurrent.symm
      · exact .inr ⟨j, u, hold, hcurrent⟩
    · rintro (rfl | ⟨j, u, hu, hcurrent⟩)
      · exact ⟨i, t, hself, rfl⟩
      · refine ⟨j, u, ?_, hcurrent⟩
        rw [hother j fun hj => ?_]
        · exact hu
        · rw [hj, hfree] at hu
          exact nomatch hu
  have hself' : s'.task t.current = { s.task t.current with running := true } := by
    rw [htask]
    exact Function.update_self _ _ _
  have hother' : ∀ id, id ≠ t.current → s'.task id = s.task id := by
    intro id hid
    rw [htask]
    exact Function.update_of_ne hid _ _
  have hfields : ∀ id, (s'.task id).nextRun = (s.task id).nextRun
      ∧ (s'.task id).intervalMs = (s.task id).intervalMs
      ∧ (s'.task id).lastRun = (s.task id).lastRun := by
    intro id
    by_cases hid : id = t.current
    · subst hid
      rw [hself']
      exact ⟨rfl, rfl, rfl⟩
    · rw [hother' id hid]
      exact ⟨rfl, rfl, rfl⟩
  have hbegun : ∀ before ∈ startTimes t.current es,
      before + t.current.intervalMs ≤ t.now := fun before hmem =>
    (hinv.idle _ hidle before hmem).trans hdue
  refine ⟨?_, ?_, ?_, ?_, ?_, ?_, ?_, ?_, ?_⟩
  · intro id
    rw [(hfields id).2.1]
    exact hinv.interval id
  · intro id
    rw [hprogress]
    by_cases hid : id = t.current
    · subst hid
      rw [hself']
      exact iff_of_true rfl (.inl rfl)
    · rw [hother' id hid, hinv.running, or_iff_right hid]
  · intro j k u v hu hv huv
    rcases hticks j u hu with ⟨rfl, rfl⟩ | ⟨hu, hne⟩
    · rcases hticks k v hv with ⟨rfl, -⟩ | ⟨-, hne⟩
      · rfl
      · exact absurd huv.symm hne
    · rcases hticks k v hv with ⟨rfl, rfl⟩ | ⟨hv, -⟩
      · exact absurd huv hne
      · exact hinv.unique j k u v hu hv huv
  · intro j u hu
    rcases hticks j u hu with ⟨-, rfl⟩ | ⟨hu, -⟩
    · exact horder
    · exact hinv.order j u hu
  · intro j u hu
    rw [(hfields _).1]
    rcases hticks j u hu with ⟨-, rfl⟩ | ⟨hu, -⟩
    · exact hdue
    · exact hinv.due j u hu
  · intro id last hlast
    rw [(hfields id).2.2] at hlast
    rw [(hfields id).1]
    exact hinv.lastRun id last hlast
  · intro id hid before hmem
    rw [hprogress, not_or] at hid
    rw [startTimes_started_of_ne _ (Ne.symm hid.1)] at hmem
    rw [(hfields id).1]
    exact hinv.idle id hid.2 before hmem
  · intro j u hu before hmem
    rcases hticks j u hu with ⟨-, rfl⟩ | ⟨hu, hne⟩
    · rw [startTimes_started] at hmem
      rcases List.mem_append.mp hmem with hmem | hmem
      · exact .inr (hbegun before hmem)
      · exact .inl (List.mem_singleton.mp hmem)
    · rw [startTimes_started_of_ne _ (Ne.symm hne)] at hmem
      exact hinv.begun j u hu before hmem
  · intro id
    by_cases hid : t.current = id
    · subst hid
      rw [startTimes_started, List.pairwise_append]
      refine ⟨hinv.apart _, List.pairwise_singleton _ _, ?_⟩
      intro before hmem after hafter
      rw [List.mem_singleton.mp hafter]
      exact hbegun before hmem
    · rw [startTimes_started_of_ne _ hid]
      exact hinv.apart id

/-- The tick is gone, and its run has ended. -/
def SchedulerState.dropTick (s : SchedulerState) (i : ℕ) (t : Tick) (result : LastResult) :
    SchedulerState :=
  { s.endRun t.current t.now result with ticks := s.ticks.deleteWhere fun j _ => j = i }

theorem SchedulerState.row_dropTick {i j : ℕ} {t u : Tick} {result : LastResult} :
    (s.dropTick i t result).ticks.row j = some u ↔ s.ticks.row j = some u ∧ j ≠ i := by
  show (s.ticks.deleteWhere fun j _ => j = i).row j = some u ↔ _
  rw [Table.row_deleteWhere_eq_some]
  simp

theorem SchedulerInv.inProgress_dropTick (hinv : SchedulerInv es s) {i : ℕ} {t : Tick}
    (ht : s.ticks.row i = some t) (result : LastResult) (id : TaskId) :
    (s.dropTick i t result).InProgress id ↔ s.InProgress id ∧ id ≠ t.current := by
  constructor
  · rintro ⟨j, u, hu, hcurrent⟩
    obtain ⟨hu, hj⟩ := SchedulerState.row_dropTick.mp hu
    refine ⟨⟨j, u, hu, hcurrent⟩, fun hid => hj ?_⟩
    exact hinv.unique j i u t hu ht (hcurrent.trans hid)
  · rintro ⟨⟨j, u, hu, hcurrent⟩, hid⟩
    refine ⟨j, u, SchedulerState.row_dropTick.mpr ⟨hu, ?_⟩, hcurrent⟩
    rintro rfl
    obtain rfl := Option.some.inj (hu.symm.trans ht)
    exact hid hcurrent.symm

/-- **A run ends**: the tick that waited for it waits no longer. -/
theorem SchedulerInv.finish (hinv : SchedulerInv es s) {i : ℕ} {t : Tick}
    (ht : s.ticks.row i = some t) (result : LastResult) :
    SchedulerInv (es ++ [.finished t.current t.now]) (s.dropTick i t result) := by
  have hself : (s.dropTick i t result).task t.current
      = { s.task t.current with
          lastResult := some result
          running := false
          lastRun := some t.now
          nextRun := t.now + (s.task t.current).intervalMs } := Function.update_self _ _ _
  have hother : ∀ id, id ≠ t.current → (s.dropTick i t result).task id = s.task id :=
    fun id hid => Function.update_of_ne hid _ _
  have hprogress := hinv.inProgress_dropTick ht result
  have hcurrent : ∀ j u, (s.dropTick i t result).ticks.row j = some u →
      u.current ≠ t.current := fun j u hu =>
    ((hprogress u.current).mp ⟨j, u, hu, rfl⟩).2
  -- only the task of the tick has changed, and the other ticks are at other tasks
  refine ⟨?_, ?_, ?_, ?_, ?_, ?_, ?_, ?_, ?_⟩
  · intro id
    by_cases hid : id = t.current
    · subst hid
      rw [hself]
      exact hinv.interval _
    · rw [hother id hid]
      exact hinv.interval id
  · intro id
    rw [hprogress]
    by_cases hid : id = t.current
    · subst hid
      rw [hself]
      exact iff_of_false Bool.false_ne_true fun h => h.2 rfl
    · rw [hother id hid, hinv.running, and_iff_left hid]
  · intro j k u v hu hv huv
    exact hinv.unique j k u v (SchedulerState.row_dropTick.mp hu).1
      (SchedulerState.row_dropTick.mp hv).1 huv
  · intro j u hu
    exact hinv.order j u (SchedulerState.row_dropTick.mp hu).1
  · intro j u hu
    rw [hother _ (hcurrent j u hu)]
    exact hinv.due j u (SchedulerState.row_dropTick.mp hu).1
  · intro id last hlast
    by_cases hid : id = t.current
    · subst hid
      rw [hself] at hlast ⊢
      obtain rfl := Option.some.inj hlast
      dsimp only
      rw [hinv.interval]
    · rw [hother id hid] at hlast ⊢
      exact hinv.lastRun id last hlast
  · intro id hid before hmem
    rw [startTimes_finished] at hmem
    by_cases hcur : id = t.current
    · subst hcur
      rw [hself]
      dsimp only
      rw [hinv.interval]
      rcases hinv.begun i t ht before hmem with rfl | hle
      · exact le_rfl
      · omega
    · rw [hother id hcur]
      refine hinv.idle id (fun hin => hid ?_) before hmem
      exact (hprogress id).mpr ⟨hin, hcur⟩
  · intro j u hu before hmem
    rw [startTimes_finished] at hmem
    exact hinv.begun j u (SchedulerState.row_dropTick.mp hu).1 before hmem
  · intro id
    rw [startTimes_finished]
    exact hinv.apart id

/-- **What ends and what begins when a tick goes on**: it is gone, or waits for the
next task that it starts. -/
theorem SchedulerInv.resume (hinv : SchedulerInv es s) {i : ℕ} {t : Tick}
    (ht : s.ticks.row i = some t) (result : LastResult) (settings : Settings) :
    SchedulerInv
      (es ++ .finished t.current t.now
        :: ((s.endRun t.current t.now result).resume i t.now t.rest settings).2)
      ((s.endRun t.current t.now result).resume i t.now t.rest settings).1 := by
  have hfinish := hinv.finish ht result
  unfold SchedulerState.resume
  split
  · exact hfinish
  · next id rest hnext =>
    obtain ⟨hstarts, hsuffix⟩ := SchedulerState.nextStart_eq_some hnext
    have horder : (id :: rest) <:+ TaskId.all :=
      hsuffix.trans ((List.suffix_cons _ _).trans (hinv.order i t ht))
    have hfree : (s.dropTick i t result).ticks.row i = none := by
      show (s.ticks.row i).filter (fun _ => !decide (i = i)) = none
      simp
    rw [← List.singleton_append, ← List.append_assoc]
    refine hfinish.start (t := ⟨t.now, id, rest⟩) hfree hstarts horder rfl ?_ ?_
    · show (s.ticks.update i fun _ => ⟨t.now, id, rest⟩).row i = _
      rw [Table.row_update_self, ht]
      rfl
    · intro j hj
      show (s.ticks.update i fun _ => ⟨t.now, id, rest⟩).row j
        = (s.ticks.deleteWhere fun j _ => j = i).row j
      rw [Table.row_update_of_ne _ _ hj,
        Table.row_deleteWhere_of_false _ fun _ => decide_eq_false hj]

theorem scheduler_finish_none {i : ℕ} {ok : Bool} {message : String} {settings : Settings}
    (h : s.ticks.row i = none) :
    scheduler.step s (.finish i ok message settings) = (s, []) := by
  unfold scheduler
  dsimp only
  rw [h]

theorem scheduler_finish {i : ℕ} {ok : Bool} {message : String} {settings : Settings}
    {t : Tick} (h : s.ticks.row i = some t) :
    scheduler.step s (.finish i ok message settings)
      = (((s.endRun t.current t.now ⟨ok, message, t.now⟩).resume i t.now t.rest settings).1,
        .finished t.current t.now
          :: ((s.endRun t.current t.now ⟨ok, message, t.now⟩).resume i t.now t.rest
            settings).2) := by
  unfold scheduler
  dsimp only
  rw [h]

/-- **Every step keeps the invariant.** -/
theorem SchedulerInv.next (hinv : SchedulerInv es s) (a : SchedulerAction) :
    SchedulerInv (es ++ scheduler.emits s a) (scheduler.next s a) := by
  cases a with
  | tick elapsed settings =>
    show SchedulerInv
      (es ++ ({ s with clock := s.clock + elapsed }.tick (s.clock + elapsed) settings).2)
      ({ s with clock := s.clock + elapsed }.tick (s.clock + elapsed) settings).1
    have hclock : SchedulerInv es { s with clock := s.clock + elapsed } := by
      obtain ⟨h₁, h₂, h₃, h₄, h₅, h₆, h₇, h₈, h₉⟩ := hinv
      exact ⟨h₁, h₂, h₃, h₄, h₅, h₆, h₇, h₈, h₉⟩
    unfold SchedulerState.tick
    split
    · rw [List.append_nil]
      exact hclock
    · next id rest hnext =>
      obtain ⟨hstarts, hsuffix⟩ := SchedulerState.nextStart_eq_some hnext
      refine hclock.start (t := ⟨s.clock + elapsed, id, rest⟩) (Table.row_next _) hstarts
        hsuffix rfl (Table.row_insert_next _ _) fun j hj => Table.row_insert_of_ne _ _ hj
  | finish i ok message settings =>
    cases ht : s.ticks.row i with
    | none =>
      rw [Machine.emits, Machine.next, scheduler_finish_none ht, List.append_nil]
      exact hinv
    | some t =>
      rw [Machine.emits, Machine.next, scheduler_finish ht]
      exact hinv.resume ht ⟨ok, message, t.now⟩ settings

theorem schedulerInv_init (now backupNow cleanupNow : ℕ) :
    SchedulerInv [] (initScheduler now backupNow cleanupNow) where
  interval := fun id => by cases id <;> rfl
  running := fun id => by
    refine iff_of_false ?_ ?_
    · cases id <;> exact Bool.false_ne_true
    · rintro ⟨i, t, ht, -⟩
      exact nomatch ht
  unique := fun i j t u ht => nomatch ht
  order := fun i t ht => nomatch ht
  due := fun i t ht => nomatch ht
  lastRun := fun id last h => by cases id <;> exact nomatch h
  idle := fun id _ t ht => absurd ht List.not_mem_nil
  begun := fun i t ht => nomatch ht
  apart := fun id => List.Pairwise.nil

/-! ## What a step does to the runs -/

theorem SchedulerInv.not_inProgress_of_starts (hinv : SchedulerInv es s) {now : ℕ}
    {settings : Settings} {id : TaskId} (h : s.starts now settings id = true) :
    ¬ s.InProgress id := fun hin =>
  (SchedulerState.starts_iff h).1 ((hinv.running id).mpr hin)

/-- **A task is only started while no run of it is in progress.** -/
theorem SchedulerInv.not_inProgress (hinv : SchedulerInv es s) {a : SchedulerAction}
    {id : TaskId} {now : ℕ} (h : .started id now ∈ scheduler.emits s a) :
    ¬ s.InProgress id := by
  cases a with
  | tick elapsed settings =>
    have hmem : SchedulerEvent.started id now
      ∈ ({ s with clock := s.clock + elapsed }.tick (s.clock + elapsed) settings).2 := h
    unfold SchedulerState.tick at hmem
    split at hmem
    · exact absurd hmem List.not_mem_nil
    · next id' rest hnext =>
      obtain ⟨rfl, -⟩ : id = id' ∧ now = s.clock + elapsed := by simpa using hmem
      obtain ⟨hstarts, -⟩ := SchedulerState.nextStart_eq_some hnext
      exact hinv.not_inProgress_of_starts hstarts
  | finish i ok message settings =>
    cases ht : s.ticks.row i with
    | none =>
      rw [Machine.emits, scheduler_finish_none ht] at h
      exact absurd h List.not_mem_nil
    | some t =>
      rw [Machine.emits, scheduler_finish ht] at h
      have hmem : SchedulerEvent.started id now
        ∈ ((s.endRun t.current t.now ⟨ok, message, t.now⟩).resume i t.now t.rest settings).2 := by
        simpa using h
      unfold SchedulerState.resume at hmem
      split at hmem
      · exact absurd hmem List.not_mem_nil
      · next id' rest hnext =>
        obtain ⟨rfl, -⟩ : id = id' ∧ now = t.now := by simpa using hmem
        obtain ⟨hstarts, hsuffix⟩ := SchedulerState.nextStart_eq_some hnext
        have hfinish := hinv.finish ht ⟨ok, message, t.now⟩
        have hidle : ¬ (s.dropTick i t ⟨ok, message, t.now⟩).InProgress id :=
          hfinish.not_inProgress_of_starts hstarts
        have hnodup := (hinv.order i t ht).sublist.nodup (by decide)
        have hne : id ≠ t.current := by
          rintro rfl
          exact (List.nodup_cons.mp hnodup).1 (hsuffix.subset List.mem_cons_self)
        exact fun hin => hidle ((hinv.inProgress_dropTick ht _ id).mpr ⟨hin, hne⟩)

/-- **The last run of a task never decreases.** -/
theorem SchedulerInv.lastRun_le (hinv : SchedulerInv es s) (a : SchedulerAction)
    {id : TaskId} {last : ℕ} (h : (s.task id).lastRun = some last) :
    ∃ last', ((scheduler.next s a).task id).lastRun = some last' ∧ last ≤ last' := by
  have hrunning : ∀ (u : SchedulerState) (id' : TaskId),
      ((u.setRunning id').task id).lastRun = (u.task id).lastRun := by
    intro u id'
    by_cases hid : id = id'
    · subst hid
      show (Function.update u.task id _ id).lastRun = _
      rw [Function.update_self]
    · show (Function.update u.task id' _ id).lastRun = _
      rw [Function.update_of_ne hid]
  cases a with
  | tick elapsed settings =>
    refine ⟨last, ?_, le_rfl⟩
    show (({ s with clock := s.clock + elapsed }.tick (s.clock + elapsed)
      settings).1.task id).lastRun = some last
    unfold SchedulerState.tick
    split
    · exact h
    · rw [← h]
      exact hrunning _ _
  | finish i ok message settings =>
    cases ht : s.ticks.row i with
    | none =>
      rw [Machine.next, scheduler_finish_none ht]
      exact ⟨last, h, le_rfl⟩
    | some t =>
      rw [Machine.next, scheduler_finish ht]
      have hresume : (((s.endRun t.current t.now ⟨ok, message, t.now⟩).resume i t.now t.rest
            settings).1.task id).lastRun
          = ((s.endRun t.current t.now ⟨ok, message, t.now⟩).task id).lastRun := by
        unfold SchedulerState.resume
        split
        · rfl
        · exact hrunning _ _
      dsimp only
      rw [hresume]
      by_cases hid : id = t.current
      · subst hid
        have hdue := hinv.due i t ht
        have hlast := hinv.lastRun _ last h
        refine ⟨t.now, ?_, by omega⟩
        show (Function.update s.task t.current _ t.current).lastRun = _
        rw [Function.update_self]
      · refine ⟨last, ?_, le_rfl⟩
        show (Function.update s.task t.current _ id).lastRun = _
        rw [Function.update_of_ne hid]
        exact h

end Steps

/-- **Ticks never overlap a task with itself**: however the ticks interleave, a task
is only started while no run of it is in progress, the ticks that start it are its
interval apart, and its last run never decreases. -/
theorem scheduler_exclusive (now backupNow cleanupNow : ℕ) (actions : List SchedulerAction) :
    (∀ p a id t, p ++ [a] <+: actions →
        .started id t
          ∈ scheduler.emits (scheduler.state (initScheduler now backupNow cleanupNow) p) a →
        ¬ (scheduler.state (initScheduler now backupNow cleanupNow) p).InProgress id)
      ∧ (∀ id, (startTimes id (scheduler.trace (initScheduler now backupNow cleanupNow)
          actions)).Pairwise fun t t' => t + id.intervalMs ≤ t')
      ∧ ∀ p a id last, p ++ [a] <+: actions →
        ((scheduler.state (initScheduler now backupNow cleanupNow) p).task id).lastRun
          = some last →
        ∃ last', ((scheduler.state (initScheduler now backupNow cleanupNow)
            (p ++ [a])).task id).lastRun = some last' ∧ last ≤ last' := by
  have hinv : ∀ p, SchedulerInv
      (scheduler.trace (initScheduler now backupNow cleanupNow) p)
      (scheduler.state (initScheduler now backupNow cleanupNow) p) := fun p =>
    scheduler.invariant (schedulerInv_init now backupNow cleanupNow)
      (fun es s a h => h.next a) p
  refine ⟨?_, fun id => (hinv actions).apart id, ?_⟩
  · intro p a id t _ hstart
    exact (hinv p).not_inProgress hstart
  · intro p a id last _ hlast
    rw [Machine.state_concat]
    exact (hinv p).lastRun_le a hlast

end MissionControl
