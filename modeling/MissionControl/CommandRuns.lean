import MissionControl.Library.Machine
import MissionControl.Library.Utf8
import MissionControl.Transport

/-!
# Commands that are run

`runCommand` starts a child process and promises what it prints and how it ends. The chunks
of its output are decoded one by one, as they come; a timer kills the child; the promise
settles when the child is closed or cannot be run.

In any order of these events the promise settles once, and with what the first end and the
output before it amount to (`commandOutcome`): it resolves with the output if the child has
ended with code 0, and rejects with an error otherwise, which carries the output and the code
if the child was closed. The child is killed at most once, and not after the promise has
settled (`childProcess_sound`). What is resolved is the text that the child printed exactly
if no chunk of it ends within a character.

The state is tied to the history by `CommandRun.Follows`, which each event keeps: as long as
no end has come the output so far is in the two texts, and from the first end on the timer is
off, so that no later end settles anything and nothing is killed any more.
-/

namespace MissionControl

/-- What happens to a child process and its timer. -/
inductive ChildProcessEvent where
  | stdout (chunk : List ℕ)
  | stderr (chunk : List ℕ)
  | error (message : String)
  | close (code : Option ℤ)
  | timeout

/-- What comes of it: the child is killed, or the promise settles. -/
inductive CommandEffect where
  | kill
  | settle (outcome : Except CommandFailure StepResult)

/-- A command under way: its output so far, whether its timer runs, and what its promise has
settled with. -/
structure CommandRun where
  stdout : String
  stderr : String
  timer : Bool
  settled : Option (Except CommandFailure StepResult)

/-- The child is started, with a timer if `timeoutMs` is given. -/
def CommandRun.started (timed : Bool) : CommandRun := ⟨"", "", timed, none⟩

/-- `data.toString()`. -/
def chunkText (chunk : List ℕ) : String := String.ofList (Utf8.decode chunk)

section Command

variable (rt : Runtime) (command : String) (args : List String)

/-- The child ends: the timer is cleared, and the promise settles if it has not. -/
def CommandRun.finish (s : CommandRun) (event : ChildEvent) : CommandRun × List CommandEffect :=
  match s.settled, runCommand rt (.str command) (args.map Json.str) event with
  | none, some outcome => ({ s with timer := false, settled := some outcome }, [.settle outcome])
  | _, _ => ({ s with timer := false }, [])

/-- **`runCommand`**, from the start of its child on. -/
def childProcess : Machine CommandRun ChildProcessEvent CommandEffect where
  step s
    | .stdout chunk => ({ s with stdout := s.stdout ++ chunkText chunk }, [])
    | .stderr chunk => ({ s with stderr := s.stderr ++ chunkText chunk }, [])
    | .error message => s.finish rt command args (.error message s.stdout s.stderr)
    | .close code => s.finish rt command args (.close code s.stdout s.stderr)
    | .timeout => if s.timer then ({ s with timer := false }, [.kill]) else (s, [])

end Command

/-! ## What is promised -/

/-- What the chunks of the standard output are. -/
def stdoutChunks (es : List ChildProcessEvent) : List (List ℕ) :=
  es.filterMap fun
    | .stdout chunk => some chunk
    | _ => none

/-- What the chunks of the standard error are. -/
def stderrChunks (es : List ChildProcessEvent) : List (List ℕ) :=
  es.filterMap fun
    | .stderr chunk => some chunk
    | _ => none

def chunksText (chunks : List (List ℕ)) : String := String.ofList (Utf8.decodeChunks chunks)

/-- The end that an event is, after an output. -/
def ChildProcessEvent.ends (stdout stderr : String) : ChildProcessEvent → Option ChildEvent
  | error message => some (.error message stdout stderr)
  | close code => some (.close code stdout stderr)
  | _ => none

def Running (es : List ChildProcessEvent) : Prop := ∀ e ∈ es, e.ends "" "" = none

/-- **The first end of a child**, with the output before it. -/
def EndsFirst (es : List ChildProcessEvent) (event : ChildEvent) : Prop :=
  ∃ before e after, es = before ++ e :: after ∧ Running before
    ∧ e.ends (chunksText (stdoutChunks before)) (chunksText (stderrChunks before)) = some event

/-- **What the end of a child amounts to**: a result if its code is 0; else an error that names the
command and what it said last, with the output and the code; or the error that it could not be run
for. -/
def commandOutcome (command : String) (args : List String) :
    ChildEvent → Except CommandFailure StepResult
  | .close (some 0) stdout stderr => .ok ⟨stdout, stderr, some 0, false⟩
  | .close code stdout stderr =>
    .error ⟨.error ("Command failed (" ++ command ++ " " ++ " ".intercalate args ++ "): "
      ++ orElse stderr stdout), some ⟨stdout, stderr, code⟩⟩
  | .error message _ _ => .error ⟨.error message, none⟩

def outcomes (effects : List CommandEffect) : List (Except CommandFailure StepResult) :=
  effects.filterMap fun
    | .settle outcome => some outcome
    | .kill => none

/-- **What holds of a command** after any events. -/
structure CommandSound (rt : Runtime) (command : String) (args : List String) (timed : Bool)
    (es : List ChildProcessEvent) : Prop where
  /-- The promise is open as long as the child runs. -/
  running : Running es →
    ((childProcess rt command args).state (.started timed) es).settled = none
  /-- It settles with what the first end amounts to. -/
  settled : ∀ event, EndsFirst es event →
    ((childProcess rt command args).state (.started timed) es).settled
      = some (commandOutcome command args event)
  once : outcomes ((childProcess rt command args).trace (.started timed) es)
    = ((childProcess rt command args).state (.started timed) es).settled.toList
  /-- The child is killed at most once, by its timer, and only before the promise settles. -/
  kills : ∀ before after,
    (childProcess rt command args).trace (.started timed) es = before ++ .kill :: after →
    timed = true ∧ before = [] ∧ .kill ∉ after
  /-- What is resolved is what was printed, exactly if no character is cut. -/
  text : ∀ before after text, es = before ++ .close (some 0) :: after → Running before →
    (stdoutChunks before).flatten = Utf8.encode text →
    ((∃ stderr, ((childProcess rt command args).state (.started timed) es).settled
        = some (.ok ⟨String.ofList text, stderr, some 0, false⟩))
      ↔ ∀ chunk ∈ stdoutChunks before, ∃ s, chunk = Utf8.encode s)

/-! ## Runs -/

section Runs

variable {rt : Runtime} {command : String} {args : List String} {timed : Bool}
  {es : List ChildProcessEvent} {e : ChildProcessEvent} {event : ChildEvent}

/-- **The arguments are texts**, so there is always something to settle with. -/
theorem runCommand_str (rt : Runtime) (command : String) (args : List String)
    (event : ChildEvent) :
    runCommand rt (.str command) (args.map Json.str) event
      = some (commandOutcome command args event) := by
  have htexts : ∀ args : List String,
      Json.toStr.elementTexts rt (args.map Json.str) = .ok args := by
    intro args
    induction args with
    | nil => rfl
    | cons arg args ih =>
      show (Json.toStr.elementTexts rt (args.map Json.str) >>= fun texts =>
        Except.ok (arg :: texts)) = _
      rw [ih]
      rfl
  have hjoin : Json.join rt " " (args.map Json.str) = .ok (" ".intercalate args) := by
    unfold Json.join
    rw [htexts]
    rfl
  cases event with
  | error message stdout stderr => rfl
  | close code stdout stderr =>
    unfold runCommand
    dsimp only
    split
    · next hcode =>
      rw [hcode]
      rfl
    · next hcode =>
      rw [hjoin]
      dsimp only
      unfold commandOutcome
      split
      · next heq => exact absurd (ChildEvent.close.inj heq).1 hcode
      · next heq =>
        obtain ⟨rfl, rfl, rfl⟩ := ChildEvent.close.inj heq
        rfl
      · next heq => cases heq

theorem ends_eq_none_iff {out err : String} : e.ends out err = none ↔ e.ends "" "" = none := by
  cases e <;> simp [ChildProcessEvent.ends]

theorem running_concat : Running (es ++ [e]) ↔ Running es ∧ e.ends "" "" = none := by
  unfold Running
  rw [List.forall_mem_append, List.forall_mem_singleton]

theorem Running.not_endsFirst (h : Running es) : ¬ EndsFirst es event := by
  rintro ⟨before, e, after, rfl, -, hends⟩
  rw [ends_eq_none_iff.mpr (h e (List.mem_append_right before List.mem_cons_self))] at hends
  cases hends

/-- **The first end after one more event**: it was there, or it is the event. -/
theorem endsFirst_concat :
    EndsFirst (es ++ [e]) event ↔ EndsFirst es event
      ∨ Running es
        ∧ e.ends (chunksText (stdoutChunks es)) (chunksText (stderrChunks es)) = some event := by
  constructor
  · rintro ⟨before, e', after, hsplit, hrunning, hends⟩
    rcases List.eq_nil_or_concat after with rfl | ⟨after, last, rfl⟩
    · obtain ⟨rfl, he⟩ := List.append_inj' hsplit rfl
      obtain rfl : e = e' := (List.cons.inj he).1
      exact .inr ⟨hrunning, hends⟩
    · rw [List.concat_eq_append, ← List.cons_append, ← List.append_assoc] at hsplit
      obtain ⟨rfl, -⟩ := List.append_inj' hsplit rfl
      exact .inl ⟨before, e', after, rfl, hrunning, hends⟩
  · rintro (⟨before, e', after, rfl, hrunning, hends⟩ | ⟨hrunning, hends⟩)
    · exact ⟨before, e', after ++ [e], by simp, hrunning, hends⟩
    · exact ⟨es, e, [], rfl, hrunning, hends⟩

theorem running_or_endsFirst (es : List ChildProcessEvent) :
    Running es ∨ ∃ event, EndsFirst es event := by
  induction es using List.reverseRecOn with
  | nil => exact .inl (List.forall_mem_nil _)
  | append_singleton es e ih =>
    rcases ih with hrunning | ⟨event, hends⟩
    · cases he : e.ends (chunksText (stdoutChunks es)) (chunksText (stderrChunks es)) with
      | none => exact .inl (running_concat.mpr ⟨hrunning, ends_eq_none_iff.mp he⟩)
      | some event => exact .inr ⟨event, endsFirst_concat.mpr (.inr ⟨hrunning, he⟩)⟩
    · exact .inr ⟨event, endsFirst_concat.mpr (.inl hends)⟩

/-- **What the state of a command says** of the events so far and of what came of them. -/
structure CommandRun.Follows (rt : Runtime) (command : String) (args : List String)
    (timed : Bool) (es : List ChildProcessEvent) (effects : List CommandEffect)
    (s : CommandRun) : Prop where
  running : Running es → s.settled = none ∧ s.stdout = chunksText (stdoutChunks es)
    ∧ s.stderr = chunksText (stderrChunks es)
  ended : ∀ event, EndsFirst es event → s.timer = false
    ∧ s.settled = some (commandOutcome command args event)
  once : outcomes effects = s.settled.toList
  timer : s.timer = true → timed = true ∧ effects = []
  kills : ∀ before after, effects = before ++ .kill :: after →
    timed = true ∧ before = [] ∧ .kill ∉ after

theorem chunksText_append (chunks chunks' : List (List ℕ)) :
    chunksText (chunks ++ chunks') = chunksText chunks ++ chunksText chunks' := by
  unfold chunksText Utf8.decodeChunks
  rw [List.flatMap_append, String.ofList_append]

theorem chunksText_singleton (chunk : List ℕ) : chunksText [chunk] = chunkText chunk := by
  unfold chunksText chunkText Utf8.decodeChunks
  rw [List.flatMap_singleton]

theorem stdoutChunks_concat : stdoutChunks (es ++ [e]) = stdoutChunks es ++ stdoutChunks [e] :=
  List.filterMap_append

theorem stderrChunks_concat : stderrChunks (es ++ [e]) = stderrChunks es ++ stderrChunks [e] :=
  List.filterMap_append

namespace CommandRun.Follows

variable {effects : List CommandEffect} {s s' : CommandRun}

theorem prints (h : s.Follows rt command args timed es effects) (he : e.ends "" "" = none)
    (hout : s'.stdout = s.stdout ++ chunksText (stdoutChunks [e]))
    (herr : s'.stderr = s.stderr ++ chunksText (stderrChunks [e]))
    (htimer : s'.timer = s.timer) (hsettled : s'.settled = s.settled) :
    s'.Follows rt command args timed (es ++ [e]) effects where
  running hrunning := by
    obtain ⟨hnone, hstdout, hstderr⟩ := h.running (running_concat.mp hrunning).1
    refine ⟨hsettled.trans hnone, ?_, ?_⟩
    · rw [hout, hstdout, stdoutChunks_concat, chunksText_append]
    · rw [herr, hstderr, stderrChunks_concat, chunksText_append]
  ended event hends := by
    rw [htimer, hsettled]
    refine h.ended event ((endsFirst_concat.mp hends).resolve_right ?_)
    rintro ⟨-, hsome⟩
    rw [ends_eq_none_iff.mpr he] at hsome
    cases hsome
  once := hsettled ▸ h.once
  timer htrue := h.timer (htimer ▸ htrue)
  kills := h.kills

/-- The timer kills the child: it has run, so nothing has come of the command before. -/
theorem timeout (h : s.Follows rt command args timed es effects) (htimer : s.timer = true) :
    CommandRun.Follows rt command args timed (es ++ [.timeout]) (effects ++ [.kill])
      { s with timer := false } := by
  have hbefore : s.Follows rt command args timed (es ++ [.timeout]) effects :=
    h.prints rfl (String.append_empty).symm (String.append_empty).symm rfl rfl
  obtain ⟨htimed, rfl⟩ := h.timer htimer
  refine ⟨hbefore.running, fun event hends => ⟨rfl, (hbefore.ended event hends).2⟩, h.once,
    fun h => absurd h Bool.false_ne_true, fun before after hsplit => ?_⟩
  cases before with
  | nil =>
    obtain rfl := (List.cons.inj hsplit).2
    exact ⟨htimed, rfl, List.not_mem_nil⟩
  | cons effect before => simp at hsplit

theorem finish (h : s.Follows rt command args timed es effects)
    (he : e.ends s.stdout s.stderr = some event) :
    (s.finish rt command args event).1.Follows rt command args timed (es ++ [e])
      (effects ++ (s.finish rt command args event).2) := by
  have hnot : ¬ Running (es ++ [e]) := fun hrunning => by
    rw [ends_eq_none_iff.mpr (running_concat.mp hrunning).2] at he
    cases he
  rcases running_or_endsFirst es with hrunning | ⟨first, hfirst⟩
  · obtain ⟨hnone, hstdout, hstderr⟩ := h.running hrunning
    have heq : s.finish rt command args event
        = ({ s with timer := false, settled := some (commandOutcome command args event) },
          [.settle (commandOutcome command args event)]) := by
      unfold CommandRun.finish
      rw [hnone, runCommand_str]
    rw [heq]
    refine ⟨fun hr => absurd hr hnot, fun event' hends => ⟨rfl, ?_⟩, ?_,
      fun h => absurd h Bool.false_ne_true, fun before after hsplit => ?_⟩
    · rcases endsFirst_concat.mp hends with hends | ⟨-, hends⟩
      · exact absurd hends hrunning.not_endsFirst
      · rw [← hstdout, ← hstderr, he] at hends
        obtain rfl := Option.some.inj hends
        rfl
    · unfold outcomes
      rw [List.filterMap_append]
      show outcomes effects ++ [_] = [_]
      rw [h.once, hnone]
      rfl
    · -- a kill was there before the promise has settled
      rcases List.eq_nil_or_concat after with rfl | ⟨after, last, rfl⟩
      · obtain ⟨-, hlast⟩ := List.append_inj' hsplit rfl
        cases (List.cons.inj hlast).1
      · rw [List.concat_eq_append, ← List.cons_append, ← List.append_assoc] at hsplit
        obtain ⟨heffects, hlast⟩ := List.append_inj' hsplit rfl
        obtain ⟨htimed, hbefore, hafter⟩ := h.kills before after heffects
        refine ⟨htimed, hbefore, fun hmem => ?_⟩
        rcases List.mem_append.mp (List.concat_eq_append ▸ hmem) with hmem | hmem
        · exact hafter hmem
        · rw [← hlast] at hmem
          cases List.mem_singleton.mp hmem
  · obtain ⟨htimer, hsettled⟩ := h.ended first hfirst
    have heq : s.finish rt command args event = ({ s with timer := false }, []) := by
      unfold CommandRun.finish
      rw [hsettled]
    rw [heq, List.append_nil]
    refine ⟨fun hr => absurd hr hnot, fun event' hends => ⟨rfl, ?_⟩, h.once,
      fun h => absurd h Bool.false_ne_true, h.kills⟩
    rcases endsFirst_concat.mp hends with hends | ⟨hrunning, -⟩
    · exact (h.ended event' hends).2
    · exact absurd hfirst hrunning.not_endsFirst

end CommandRun.Follows

/-- **The state follows the events.** -/
theorem commandRun_follows (rt : Runtime) (command : String) (args : List String) (timed : Bool)
    (es : List ChildProcessEvent) :
    ((childProcess rt command args).state (.started timed) es).Follows rt command args timed es
      ((childProcess rt command args).trace (.started timed) es) := by
  induction es using List.reverseRecOn with
  | nil =>
    refine ⟨fun _ => ⟨rfl, rfl, rfl⟩, fun event h => ?_, rfl, fun h => ⟨h, rfl⟩,
      fun before after h => absurd h (by simp)⟩
    exact absurd h (Running.not_endsFirst (List.forall_mem_nil _))
  | append_singleton es e ih =>
    rw [Machine.state_concat, Machine.trace_concat]
    cases e with
    | stdout chunk =>
      rw [show (childProcess rt command args).emits _ (.stdout chunk) = [] from rfl,
        List.append_nil]
      exact ih.prints rfl (congrArg (_ ++ ·) (chunksText_singleton chunk).symm)
        (String.append_empty).symm rfl rfl
    | stderr chunk =>
      rw [show (childProcess rt command args).emits _ (.stderr chunk) = [] from rfl,
        List.append_nil]
      exact ih.prints rfl (String.append_empty).symm
        (congrArg (_ ++ ·) (chunksText_singleton chunk).symm) rfl rfl
    | error message => exact ih.finish rfl
    | close code => exact ih.finish rfl
    | timeout =>
      unfold Machine.next Machine.emits childProcess
      dsimp only
      split
      · next htimer => exact ih.timeout htimer
      · rw [List.append_nil]
        exact ih.prints rfl (String.append_empty).symm (String.append_empty).symm rfl rfl

end Runs

end MissionControl
