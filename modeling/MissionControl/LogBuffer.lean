import MissionControl.Js
import MissionControl.Library.Machine
import MissionControl.Library.Recency

/-!
# The log of the client

The store keeps the last thousand log entries, newest first. An entry that comes with the
id of one that is there takes its place, so that what is shown twice does not move; any other
comes in front.

An id counts as inserted when it comes while it is not there (`LogEvent.inserted`). The ids
that are kept are the latest thousand of those inserted since the log was last cleared, also
where an id was dropped at the end and has come in anew.
-/

namespace MissionControl

/-! ## The store -/

inductive LogLevel where
  | info | warn | error | debug
  deriving DecidableEq

structure LogEntry where
  id : String
  timestamp : JsNumber
  level : LogLevel
  source : String
  session : Option String
  message : String
  data : Option Json

/-- **The slice of the log.** -/
structure LogState where
  logs : List LogEntry

def LogState.initial : LogState := ⟨[]⟩

inductive LogAction where
  | addLog (log : LogEntry)
  | clearLogs

/-- **`addLog`.** -/
def LogState.addLog (s : LogState) (log : LogEntry) : LogState :=
  match s.logs.findIdx? fun existingLog => existingLog.id = log.id with
  | some existingLogIndex => ⟨s.logs.set existingLogIndex log⟩
  | none => ⟨(log :: s.logs).take 1000⟩

def LogState.clearLogs : LogState := ⟨[]⟩

def LogState.ids (s : LogState) : List String := s.logs.map LogEntry.id

inductive LogEvent where
  | inserted (id : String)
  | cleared

/-- **The reducers of the log**, with the ids that they insert. -/
def logStore : Machine LogState LogAction LogEvent where
  step s
    | .addLog log => (s.addLog log, if log.id ∈ s.ids then [] else [.inserted log.id])
    | .clearLogs => (.clearLogs, [.cleared])

/-- The ids inserted since the last clear, newest first. -/
def insertedIds (es : List LogEvent) : List String :=
  es.foldl (fun ids e =>
    match e with
    | .inserted id => id :: ids
    | .cleared => []) []

/-- **The log has what came last**: a thousand ids at most, none of them twice, which are
the latest that came in. -/
structure LogState.Recent (es : List LogEvent) (s : LogState) : Prop where
  nodup : s.ids.Nodup
  length_le : s.logs.length ≤ 1000
  ids_eq : s.ids = (insertedIds es).take 1000

/-- **An entry whose id is there takes the place of the old one**, and no entry moves. -/
def LogState.ReplacesInPlace (s : LogState) : Prop :=
  ∀ log : LogEntry, log.id ∈ s.ids → ∀ i : ℕ,
    (s.addLog log).logs[i]? = if s.logs[i]?.map LogEntry.id = some log.id then some log
      else s.logs[i]?

/-! ## Calls -/

theorem logs_addLog (s : LogState) (log : LogEntry) :
    (s.addLog log).logs = Recency.put LogEntry.id 1000 log s.logs := by
  unfold LogState.addLog Recency.put
  cases s.logs.findIdx? fun existingLog => existingLog.id = log.id with
  | none => rfl
  | some i => rfl

theorem ids_addLog (s : LogState) (log : LogEntry) :
    (s.addLog log).ids = Recency.admitKey 1000 s.ids log.id := by
  unfold LogState.ids
  rw [logs_addLog, Recency.map_put]

theorem insertedIds_concat_inserted (es : List LogEvent) (id : String) :
    insertedIds (es ++ [.inserted id]) = id :: insertedIds es := by
  unfold insertedIds
  rw [List.foldl_append, List.foldl_cons, List.foldl_nil]

theorem insertedIds_concat_cleared (es : List LogEvent) :
    insertedIds (es ++ [.cleared]) = [] := by
  unfold insertedIds
  rw [List.foldl_append, List.foldl_cons, List.foldl_nil]

/-- **What a call keeps.** -/
theorem LogState.Recent.next {es : List LogEvent} {s : LogState} (h : s.Recent es)
    (a : LogAction) : (logStore.next s a).Recent (es ++ logStore.emits s a) := by
  cases a with
  | addLog log =>
    show (s.addLog log).Recent (es ++ if log.id ∈ s.ids then [] else [.inserted log.id])
    have hlength : s.ids.length ≤ 1000 := (List.length_map _).trans_le h.length_le
    refine ⟨?_, ?_, ?_⟩
    · rw [ids_addLog]
      exact Recency.nodup_admitKey h.nodup
    · have hle := Recency.length_admitKey_le (k := log.id) hlength
      rw [← ids_addLog] at hle
      exact (List.length_map _).symm.trans_le hle
    · rw [ids_addLog, h.ids_eq, Recency.admitKey_take]
      split
      · rw [List.append_nil]
      · rw [insertedIds_concat_inserted]
  | clearLogs =>
    show LogState.clearLogs.Recent (es ++ [.cleared])
    refine ⟨List.nodup_nil, Nat.zero_le _, ?_⟩
    rw [insertedIds_concat_cleared]
    rfl

/-- **The log has what came last, and what comes again takes its old place.** -/
theorem logStore_recent (as : List LogAction) :
    (logStore.state .initial as).Recent (logStore.trace .initial as)
      ∧ (logStore.state .initial as).ReplacesInPlace := by
  have hinitial : LogState.initial.Recent [] := by
    refine ⟨List.nodup_nil, Nat.zero_le _, rfl⟩
  have hrecent : (logStore.state .initial as).Recent (logStore.trace .initial as) :=
    logStore.invariant (I := fun es s => s.Recent es) hinitial (fun _ _ a h => h.next a) as
  refine ⟨hrecent, ?_⟩
  intro log hlog i
  rw [logs_addLog]
  exact Recency.getElem?_put_of_mem hrecent.nodup hlog i

end MissionControl
