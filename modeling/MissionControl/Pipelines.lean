import MissionControl.Js
import MissionControl.Library.Machine
import MissionControl.Library.Table

/-!
# Pipeline runs

A run of a pipeline is a row of `pipeline_runs`: its status, the step it is
at, and a snapshot of all its steps as JSON. The requests `start`, `advance`
and `cancel` read the row and write it back.

Starting a step means running `openclaw agent`, which takes up to fifteen
seconds. A request that starts one holds the snapshot in a local variable
meanwhile, and other requests are served: it is cut in two there. What is
left of it is a `SpawnWait`, and the second piece (`resumeSpawn`) writes the
snapshot it holds, as it is, over whatever the row has become.

The tables `workflow_pipelines` and `workflow_templates` are an input of each
request (`Workflows`), so that they may change from one to the next.
-/

namespace MissionControl

/-! ## Rows -/

/-- What a failure of a step does to its run. -/
inductive OnFailure where
  | stop | continues
  deriving DecidableEq

/-- `PipelineStep`, as the column `steps` of a pipeline has it. -/
structure PipelineStep where
  templateId : ℕ
  onFailure : Option OnFailure

/-- A row of `workflow_pipelines`. -/
structure Pipeline where
  name : String
  steps : List PipelineStep

/-- A row of `workflow_templates`. -/
structure WorkflowTemplate where
  name : String
  taskPrompt : String
  timeoutSeconds : JsNumber

/-- The tables of workflows, as a request finds them. -/
structure Workflows where
  pipeline : ℕ → Option Pipeline
  template : ℕ → Option WorkflowTemplate

inductive StepStatus where
  | pending | running | completed | failed | skipped
  deriving DecidableEq

inductive RunStatus where
  | pending | running | completed | failed | cancelled
  deriving DecidableEq

def RunStatus.text : RunStatus → String
  | pending => "pending"
  | running => "running"
  | completed => "completed"
  | failed => "failed"
  | cancelled => "cancelled"

def RunStatus.Terminal (status : RunStatus) : Prop :=
  status ∈ [.completed, .failed, .cancelled]

instance : DecidablePred RunStatus.Terminal := fun status =>
  inferInstanceAs (Decidable (status ∈ [.completed, .failed, .cancelled]))

structure RunStepState where
  stepIndex : ℕ
  templateId : ℕ
  templateName : String
  onFailure : Option OnFailure
  status : StepStatus
  spawnId : Option String
  startedAt : Option ℕ
  completedAt : Option ℕ
  error : Option String

/-- A row of `pipeline_runs`. -/
structure PipelineRun where
  pipelineId : ℕ
  status : RunStatus
  currentStep : ℕ
  stepsSnapshot : List RunStepState
  startedAt : Option ℕ
  completedAt : Option ℕ
  triggeredBy : String

/-! ## State, requests and what they show -/

/-- Which request waits for a step to be spawned. -/
inductive SpawnCaller where
  | start | advance
  deriving DecidableEq

/-- **A request that waits for `spawnStep`**, with the snapshot it holds. -/
structure SpawnWait where
  caller : SpawnCaller
  runId : ℕ
  stepIdx : ℕ
  steps : List RunStepState

structure PipelineState where
  runs : Table PipelineRun
  waits : ℕ → Option SpawnWait

def PipelineState.initial : PipelineState := ⟨.empty, fun _ => none⟩

/-- What `spawnStep` returns. -/
abbrev SpawnResult := Except String String

inductive PipelineEvent where
  | rejected (code : ℕ) (message : String)
  | started (runId : ℕ) (steps : List PipelineStep)
  /-- The agent command of a step is started. -/
  | spawning (runId step : ℕ) (args : List String)
  /-- An advance has the result of a step. -/
  | marked (runId step : ℕ) (success : Bool)
  | startResponse (runId : ℕ) (steps : List RunStepState)
    (spawn : Option SpawnResult)
  /-- The answer of an advance that had the result of a step. -/
  | advanceResponse (runId step : ℕ) (status : RunStatus)
    (steps : List RunStepState) (spawn : Option SpawnResult)
  | cancelResponse (runId : ℕ) (steps : List RunStepState)

/-- What happens: a request, under the name of its call, or the end of the
agent command a call waits for. -/
inductive PipelineAction where
  | start (call : ℕ) (w : Workflows) (pipelineId : ℕ) (triggeredBy : String)
    (now : ℕ)
  | advance (call : ℕ) (w : Workflows) (runId : ℕ) (success : Bool)
    (errorMsg : Option String) (now : ℕ)
  | cancel (runId : ℕ) (now : ℕ)
  | spawned (call : ℕ) (result : SpawnResult) (now : ℕ)

namespace PipelineState

def reject (s : PipelineState) (code : ℕ) (message : String) :
    PipelineState × List PipelineEvent := (s, [.rejected code message])

def await (s : PipelineState) (call : ℕ) (wait : SpawnWait) : PipelineState :=
  { s with waits := Function.update s.waits call (some wait) }

def settle (s : PipelineState) (call : ℕ) : PipelineState :=
  { s with waits := Function.update s.waits call none }

/-- `UPDATE pipeline_runs SET … WHERE id = ?`. -/
def write (s : PipelineState) (runId : ℕ) (f : PipelineRun → PipelineRun) :
    PipelineState := { s with runs := s.runs.update runId f }

end PipelineState

/-! ## Spawning a step -/

/-- The arguments of `openclaw` for a step. -/
def agentArgs (rt : Runtime) (pipelineName : String) (template : WorkflowTemplate)
    (stepIdx : ℕ) : List String :=
  ["agent", "--message", "[Pipeline: " ++ pipelineName ++ " | Step "
      ++ toString (stepIdx + 1) ++ "] " ++ template.taskPrompt,
    "--timeout", rt.numberToString template.timeoutSeconds, "--json"]

/-- What a step has of its agent command in the end. -/
def RunStepState.spawned (runId stepIdx : ℕ) (result : SpawnResult) (now : ℕ)
    (step : RunStepState) : RunStepState :=
  match result with
  | .ok _ => { step with spawnId := some ("pipeline-" ++ toString runId
      ++ "-step-" ++ toString stepIdx ++ "-" ++ toString now) }
  | .error message => { step with error := some message }

/-- The snapshot behind `spawnStep`: it is written whether the command
succeeds or not. -/
def SpawnWait.spawnedSteps (wait : SpawnWait) (result : SpawnResult) (now : ℕ) :
    List RunStepState :=
  wait.steps.modify wait.stepIdx (.spawned wait.runId wait.stepIdx result now)

def PipelineRun.keep (steps : List RunStepState) (run : PipelineRun) :
    PipelineRun := { run with stepsSnapshot := steps }

def PipelineRun.goTo (currentStep : ℕ) (steps : List RunStepState)
    (run : PipelineRun) : PipelineRun :=
  { run with currentStep, stepsSnapshot := steps }

/-- **The second piece of a start or an advance**: `spawnStep` writes the
snapshot, and an advance writes it once more, with the step the run is at. -/
def resumeSpawn (s : PipelineState) (call : ℕ) (result : SpawnResult) (now : ℕ) :
    PipelineState × List PipelineEvent :=
  match s.waits call with
  | none => (s, [])
  | some wait =>
    let steps := wait.spawnedSteps result now
    let s := (s.settle call).write wait.runId (.keep steps)
    match wait.caller with
    | .start => (s, [.startResponse wait.runId steps (some result)])
    | .advance =>
      (s.write wait.runId (.goTo wait.stepIdx steps),
        [.advanceResponse wait.runId (wait.stepIdx - 1) .running steps (some result)])

/-! ## The requests -/

def startSnapshot (w : Workflows) (steps : List PipelineStep) (now : ℕ) :
    List RunStepState :=
  steps.mapIdx fun i step =>
    { stepIndex := i
      templateId := step.templateId
      templateName := orElse (((w.template step.templateId).map (·.name)).getD "") "Unknown"
      onFailure := step.onFailure
      status := if i = 0 then .running else .pending
      spawnId := none
      startedAt := if i = 0 then some now else none
      completedAt := none
      error := none }

def PipelineRun.started (pipelineId : ℕ) (snapshot : List RunStepState)
    (triggeredBy : String) (now : ℕ) : PipelineRun where
  pipelineId
  status := .running
  currentStep := 0
  stepsSnapshot := snapshot
  startedAt := some now
  completedAt := none
  triggeredBy

/-- **`startPipeline`**, up to where it waits. -/
def startPipeline (rt : Runtime) (s : PipelineState) (call : ℕ) (w : Workflows)
    (pipelineId : ℕ) (triggeredBy : String) (now : ℕ) :
    PipelineState × List PipelineEvent :=
  match w.pipeline pipelineId with
  | none => s.reject 404 "Pipeline not found"
  | some pipeline =>
    match pipeline.steps with
    | [] => s.reject 400 "Pipeline has no steps"
    | first :: _ =>
      let snapshot := startSnapshot w pipeline.steps now
      let runId := s.runs.next
      let s := { s with
        runs := s.runs.insert (.started pipelineId snapshot triggeredBy now) }
      match w.template first.templateId with
      | none => (s, [.started runId pipeline.steps,
          .startResponse runId snapshot none])
      | some template =>
        (s.await call ⟨.start, runId, 0, snapshot⟩,
          [.started runId pipeline.steps,
            .spawning runId 0 (agentArgs rt pipeline.name template 0)])

/-- The step an advance has the result of. -/
def RunStepState.marked (success : Bool) (errorMsg : Option String) (now : ℕ)
    (step : RunStepState) : RunStepState :=
  { step with
    status := if success then .completed else .failed
    completedAt := some now
    error := (errorMsg.filter (· ≠ "")).or step.error }

def RunStepState.skip (step : RunStepState) : RunStepState :=
  { step with status := .skipped }

def RunStepState.begin (now : ℕ) (step : RunStepState) : RunStepState :=
  { step with status := .running, startedAt := some now }

def PipelineRun.finish (status : RunStatus) (currentStep : ℕ)
    (steps : List RunStepState) (now : ℕ) (run : PipelineRun) : PipelineRun :=
  { run with status, currentStep, stepsSnapshot := steps, completedAt := some now }

section Snapshots

variable (run : PipelineRun) (success : Bool) (errorMsg : Option String) (now : ℕ)

/-- The snapshot with the result of the current step. -/
def PipelineRun.markedSteps : List RunStepState :=
  run.stepsSnapshot.modify run.currentStep (.marked success errorMsg now)

/-- The snapshot of a run that stops at its current step: the steps behind it
are skipped. -/
def PipelineRun.stoppedSteps : List RunStepState :=
  (run.markedSteps success errorMsg now).mapIdx
    (fun i step => if run.currentStep + 1 ≤ i then step.skip else step)

/-- The snapshot of a run that goes on with its next step. -/
def PipelineRun.nextSteps : List RunStepState :=
  (run.markedSteps success errorMsg now).modify (run.currentStep + 1) (.begin now)

end Snapshots

/-- An advance of a run that is running, up to where it waits. A step that is
missing is a type error. -/
def advanceRunning (rt : Runtime) (s : PipelineState) (call : ℕ) (w : Workflows)
    (runId : ℕ) (run : PipelineRun) (success : Bool) (errorMsg : Option String)
    (now : ℕ) : PipelineState × List PipelineEvent :=
  let currentIdx := run.currentStep
  let nextIdx := currentIdx + 1
  match run.stepsSnapshot[currentIdx]? with
  | none => s.reject 500 "Failed to process pipeline run"
  | some current =>
    let mark := PipelineEvent.marked runId currentIdx success
    if success = false ∧ current.onFailure.getD .stop = .stop then
      let steps := run.stoppedSteps success errorMsg now
      (s.write runId (.finish .failed currentIdx steps now),
        [mark, .advanceResponse runId currentIdx .failed steps none])
    else match run.stepsSnapshot[nextIdx]? with
      | none =>
        let steps := run.markedSteps success errorMsg now
        (s.write runId (.finish .completed currentIdx steps now),
          [mark, .advanceResponse runId currentIdx .completed steps none])
      | some next =>
        let steps := run.nextSteps success errorMsg now
        match w.template next.templateId with
        | none =>
          (s.write runId (.goTo nextIdx steps),
            [mark, .advanceResponse runId currentIdx .running steps none])
        | some template =>
          let name := ((w.pipeline run.pipelineId).map (·.name)).getD "?"
          (s.await call ⟨.advance, runId, nextIdx, steps⟩,
            [mark, .spawning runId nextIdx (agentArgs rt name template nextIdx)])

/-- **`advanceRun`**, up to where it waits. -/
def advanceRun (rt : Runtime) (s : PipelineState) (call : ℕ) (w : Workflows)
    (runId : ℕ) (success : Bool) (errorMsg : Option String) (now : ℕ) :
    PipelineState × List PipelineEvent :=
  if runId = 0 then s.reject 400 "run_id required"
  else match s.runs.row runId with
    | none => s.reject 404 "Run not found"
    | some run =>
      if run.status ≠ .running then
        s.reject 400 ("Run is " ++ run.status.text ++ ", not running")
      else advanceRunning rt s call w runId run success errorMsg now

/-- The step of a run that is cancelled. -/
def RunStepState.cancel (now : ℕ) (step : RunStepState) : RunStepState :=
  if step.status = .pending ∨ step.status = .running then
    { step with status := .skipped, completedAt := some now }
  else step

def PipelineRun.cancel (steps : List RunStepState) (now : ℕ)
    (run : PipelineRun) : PipelineRun :=
  { run with status := .cancelled, stepsSnapshot := steps, completedAt := some now }

/-- **`cancelRun`.** -/
def cancelRun (s : PipelineState) (runId : ℕ) (now : ℕ) :
    PipelineState × List PipelineEvent :=
  if runId = 0 then s.reject 400 "run_id required"
  else match s.runs.row runId with
    | none => s.reject 404 "Run not found"
    | some run =>
      if run.status ≠ .running ∧ run.status ≠ .pending then
        s.reject 400 ("Run is " ++ run.status.text ++ ", cannot cancel")
      else
        let steps := run.stepsSnapshot.map (.cancel now)
        (s.write runId (.cancel steps now), [.cancelResponse runId steps])

/-- **The pipeline runs**, as a machine. The name of a call is not used
again while the call waits. -/
def pipelineRuns (rt : Runtime) :
    Machine PipelineState PipelineAction PipelineEvent where
  step s
    | .start call w pipelineId triggeredBy now =>
      if (s.waits call).isSome then (s, [])
      else startPipeline rt s call w pipelineId triggeredBy now
    | .advance call w runId success errorMsg now =>
      if (s.waits call).isSome then (s, [])
      else advanceRun rt s call w runId success errorMsg now
    | .cancel runId now => cancelRun s runId now
    | .spawned call result now => resumeSpawn s call result now

end MissionControl
