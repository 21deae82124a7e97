import MissionControl.Daemon

/-!
# How a step is run

`runProvisionStep` hands a step of a stored plan to one of three transports:
the provisioner daemon, a child process (through `sudo` for a step that
needs root), or, for a dry run, nothing at all. It is asynchronous: the
hand-over is one thing (`runProvisionStep`), the outcome that its promise
settles with another (`settle`), and other requests are served in between.

What the outside does – the child process, the daemon's child, the socket –
is the `StepEvent` the promise settles on. The daemon is the one of this
repository: its answer is `handleRequest` on the request it reads.
-/

namespace MissionControl

/-- A request of `runProvisionerCommand`, as it goes over the socket. -/
structure ProvisionerPayload where
  token : String
  command : Json
  args : List Json
  timeoutMs : Json
  dryRun : Bool
  stepKey : Option Json

/-- What a call of `runProvisionStep` does before it waits. -/
inductive Transport where
  /-- `runProvisionerCommand`. -/
  | provisioner (payload : ProvisionerPayload)
  /-- `runCommand`. -/
  | command (program : Json) (args : List Json) (timeoutMs : Json)
  | skipped
  | rejected (e : Exception)

structure StepResult where
  stdout : String
  stderr : String
  code : Option ℤ
  skipped : Bool

/-- The result of a step that is skipped. -/
def StepResult.dryRun : StepResult := ⟨"", "", some 0, true⟩

/-- The transport of a step; the first part of `runProvisionStep`. -/
def provisionTransport (rt : Runtime) (p : Process) (step : Json)
    (dryRun : Bool) : Except Exception Transport := do
  let parts ← Json.iterate (← Json.get (some step) "command")
  match parts with
  | [] => invalidCommand
  | command :: args =>
    if !Json.truthy (some command) then invalidCommand
    else
      let requiresRoot := Json.truthy (← Json.get (some step) "requires_root")
      let timeoutMs :=
        Json.or (← Json.get (some step) "timeout_ms") (.num (.finite 15000))
      if requiresRoot && provisionMode rt p = "daemon" then
        if provisionerToken p = "" then
          .error (.error "MC_PROVISIONER_TOKEN is not configured")
        else
          let stepKey ← Json.get (some step) "key"
          .ok (.provisioner
            ⟨provisionerToken p, command, args, timeoutMs, dryRun, stepKey⟩)
      else if dryRun then .ok .skipped
      else if requiresRoot then
        .ok (.command (.str "sudo") (.str "-n" :: command :: args) timeoutMs)
      else .ok (.command command args timeoutMs)
where
  invalidCommand : Except Exception Transport := do
    let key ← Json.toStrUndefined rt (← Json.get (some step) "key")
    .error (.error ("Invalid command for step " ++ key))

/-- **`runProvisionStep`**, up to its first wait. -/
def runProvisionStep (rt : Runtime) (p : Process) (step : Json)
    (dryRun : Bool) : Transport :=
  match provisionTransport rt p step dryRun with
  | .ok transport => transport
  | .error e => .rejected e

/-! ## Outcomes -/

/-- What a child has printed and its exit code. -/
structure CommandOutput where
  stdout : String
  stderr : String
  code : Option ℤ

/-- **What the promise of `runCommand` rejects with**: an error, which carries the output and the
exit code of the child if the child was closed, and nothing if it could not be run. -/
structure CommandFailure where
  error : Exception
  output : Option CommandOutput

/-- `runCommand`: what its promise settles with. It resolves on exit code 0
only. Where the text of the failure cannot be put together it stays open. -/
def runCommand (rt : Runtime) (program : Json) (args : List Json)
    (event : ChildEvent) : Option (Except CommandFailure StepResult) :=
  match program with
  | .str program =>
    match event with
    | .close code stdout stderr =>
      if code = some 0 then some (.ok ⟨stdout, stderr, code, false⟩)
      else match Json.join rt " " args with
        | .ok text => some (.error ⟨.error ("Command failed (" ++ program ++ " "
            ++ text ++ "): " ++ orElse stderr stdout), some ⟨stdout, stderr, code⟩⟩)
        | .error _ => none
    | .error message _ _ => some (.error ⟨.error message, none⟩)
  | _ => some (.error ⟨.typeError, none⟩)

/-- The request the daemon reads from a line. -/
def readRequest (rt : Runtime) (payload : ProvisionerPayload) :
    Except Exception ProvisionerRequest := do
  let command ← (Json.or (some payload.command) (.str "")).toStr rt
  let args ← payload.args.mapM (Json.toStr rt)
  .ok ⟨payload.token, command, args, payload.dryRun⟩

/-- `runProvisionerCommand`: what it makes of a response. It rejects any
response that does not report success. -/
def runProvisionerCommand (response : ProvisionerResponse) :
    Except Exception StepResult :=
  if !response.ok then
    let detail := " | ".intercalate
      ([response.error, response.stderr, response.stdout].filterMap
        (fun s => s.filter (· ≠ "")))
    .error (.error (orElse detail "Provisioner command failed"))
  else
    .ok ⟨response.stdout.getD "", response.stderr.getD "",
      some (response.code.getD 1), response.skipped⟩

/-- What the outside does to a step that waits. -/
inductive StepEvent where
  /-- The child of `runCommand` ends. -/
  | child (event : ChildEvent)
  /-- The daemon answers; the events are those of its own children. -/
  | answered (events : ℕ → Bool × ChildEvent)
  /-- The socket fails, times out or carries no JSON. -/
  | unanswered (message : String)
  | immediate

/-- **The outcome a step settles with**; `none` if the event is not one the
transport waits for. Of a command that fails no more than the error is read. -/
def settle (rt : Runtime) (d : Daemon) :
    Transport → StepEvent → Option (Except Exception StepResult)
  | .provisioner payload, .answered events =>
    match readRequest rt payload with
    | .ok req => some (runProvisionerCommand (handleRequest d req events))
    | .error _ => none
  | .provisioner _, .unanswered message => some (.error (.error message))
  | .command program args _, .child event =>
    (runCommand rt program args event).map (Except.mapError CommandFailure.error)
  | .skipped, .immediate => some (.ok .dryRun)
  | .rejected e, .immediate => some (.error e)
  | _, _ => none

/-- The program and arguments the daemon starts for a step. -/
def Transport.daemonStarts (rt : Runtime) (d : Daemon) :
    Transport → Option (String × List String)
  | .provisioner payload =>
    match readRequest rt payload with
    | .ok req => spawned d req
    | .error _ => none
  | _ => none

/-! ## What an outcome says -/

/-- Whether a transport belongs to a dry run: it was skipped, or sent to the
daemon as one. -/
def Transport.isDryRun : Transport → Bool
  | .provisioner payload => payload.dryRun
  | .command _ _ _ => false
  | .skipped => true
  | .rejected _ => false

theorem runCommand_ok {rt : Runtime} {program : Json} {args : List Json}
    {event : ChildEvent} {result : StepResult}
    (h : runCommand rt program args event = some (.ok result)) :
    result.code = some 0 ∧ result.skipped = false := by
  unfold runCommand at h
  split at h
  · split at h
    · split at h
      · next hcode =>
        obtain rfl : _ = result := by simpa using h
        exact ⟨hcode, rfl⟩
      · split at h
        · simp at h
        · simp at h
    · simp at h
  · simp at h

theorem runProvisionerCommand_ok {response : ProvisionerResponse}
    {result : StepResult} (h : runProvisionerCommand response = .ok result) :
    response.ok = true ∧ result.code = some (response.code.getD 1)
      ∧ result.skipped = response.skipped := by
  unfold runProvisionerCommand at h
  cases hok : response.ok with
  | false =>
    rw [hok] at h
    simp at h
  | true =>
    rw [hok] at h
    simp only [Bool.not_true, Bool.false_eq_true, if_false,
      Except.ok.injEq] at h
    subst h
    exact ⟨rfl, rfl, rfl⟩

theorem runProvisionerCommand_of_ok {response : ProvisionerResponse}
    (h : response.ok = true) : ∃ result, runProvisionerCommand response = .ok result := by
  unfold runProvisionerCommand
  rw [h]
  exact ⟨_, rfl⟩

/-- **A step that resolves has exit code 0**, over every transport, and is
marked as skipped exactly for a dry run. -/
theorem settle_ok {rt : Runtime} {d : Daemon} {transport : Transport}
    {event : StepEvent} {result : StepResult}
    (h : settle rt d transport event = some (.ok result)) :
    result.code = some 0 ∧ result.skipped = transport.isDryRun := by
  unfold settle at h
  split at h
  · next payload events =>
    split at h
    · next req hread =>
      obtain ⟨hok, hcode, hskipped⟩ :=
        runProvisionerCommand_ok (Option.some.inj h)
      obtain ⟨-, hcode', hskipped'⟩ := handleRequest_ok hok
      have hdry : req.dryRun = payload.dryRun := by
        unfold readRequest at hread
        obtain ⟨command, -, hread⟩ := bind_eq_ok.mp hread
        obtain ⟨args, -, hread⟩ := bind_eq_ok.mp hread
        obtain rfl := Except.ok.inj hread
        rfl
      refine ⟨by rw [hcode, hcode', Option.getD_some], ?_⟩
      rw [hskipped, hskipped', hdry]
      rfl
    · simp at h
  · simp at h
  · obtain ⟨outcome, houtcome, hmap⟩ := Option.map_eq_some_iff.mp h
    cases outcome with
    | error failure => cases hmap
    | ok result' =>
      obtain rfl : result' = result := Except.ok.inj hmap
      exact runCommand_ok houtcome
  · obtain rfl := Except.ok.inj (Option.some.inj h)
    exact ⟨rfl, rfl⟩
  · simp at h
  · simp at h

end MissionControl
