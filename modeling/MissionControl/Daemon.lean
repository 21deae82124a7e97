import MissionControl.Environment

/-!
# The provisioner daemon

The daemon runs as root and executes what a client sends it over a socket,
after `validateCommand` has looked at the command and its arguments. The
function is one branch per command, each here under a name of its own
(`validateUseradd` … `validateSystemctl`); `none` is the `null` of the
source, "no objection".

`handleRequest` is the request handler: the token, the coercion of the
fields, the validation, the dry run, and the run itself with its retries
(`runWithRetry`). What child processes do is an input.
-/

namespace MissionControl

/-! ## Expressions of the daemon -/

/-- `/^[a-z_][a-z0-9_-]{1,30}$/`. -/
def userRe : String := "^[a-z_][a-z0-9_-]\x7b1,30\x7d$"

def isSafeUser (user : String) : Bool := regExpTest userRe user

/-- The env file of a tenant, in the branches of `cp` and `rm -f`. -/
def tenantEnvRe : String :=
  "^\\/etc\\/openclaw-tenants\\/[a-z_][a-z0-9_-]\x7b1,30\x7d\\.env$"

/-- The service unit of a tenant, in both branches of `systemctl`. -/
def serviceRe : String :=
  "^openclaw-gateway@[a-z_][a-z0-9_-]\x7b1,30\x7d\\.service$"

def escapeRegExp (s : String) : String := String.ofList (RegExp.escape s.toList)

def Daemon.homeRootRe (d : Daemon) : String :=
  escapeRegExp (joinPosix [d.tenantHomeRoot])

/-- The seeded `openclaw.json` of a tenant. -/
def Daemon.openclawJsonRe (d : Daemon) : String :=
  "^" ++ d.homeRootRe
    ++ "\\/([a-z_][a-z0-9_-]\x7b1,30\x7d)\\/\\.openclaw\\/openclaw\\.json$"

/-- `provisionerEnvRe`: an env artifact of the web server. -/
def Daemon.provisionerEnvRe (d : Daemon) : String :=
  "^" ++ escapeRegExp (pathJoin [d.dataDir, "provisioner"])
    ++ "\\/([a-z0-9-]\x7b3,32\x7d)\\/openclaw-gateway\\.env$"

/-- The directories of a tenant that `rm -rf` may remove. -/
def Daemon.removableRe (d : Daemon) : String :=
  "^" ++ d.homeRootRe
    ++ "\\/([a-z_][a-z0-9_-]\x7b1,30\x7d)\\/(\\.openclaw|"
    ++ escapeRegExp d.tenantWorkspaceDirname ++ ")$"

/-! ## `validateCommand`, branch by branch -/

/-- The branch of `useradd`. -/
def validateUseradd (args : List String) : Option String :=
  match args with
  | [a, b, shell, user] =>
    if a ≠ "-m" ∨ b ≠ "-s" ∨ shell ≠ "/bin/bash" then
      some "useradd args not allowed"
    else if !isSafeUser user then some "Invalid username"
    else none
  | _ => some "useradd argument mismatch"

/-- The branch of `install`. -/
def validateInstall (d : Daemon) (args : List String) : Option String :=
  match args with
  | [dFlag, mFlag, mode, oFlag, userA, gFlag, userB, target] =>
    if dFlag ≠ "-d" ∨ mFlag ≠ "-m" ∨ oFlag ≠ "-o" ∨ gFlag ≠ "-g" then
      some "install args not allowed"
    else if mode ∉ ["0750", "0700"] then some "install mode not allowed"
    else
      let isRootOwned := userA = "root" ∧ userB = "root"
      let isTenantOwned := isSafeUser userA ∧ isSafeUser userB ∧ userA = userB
      if ¬ isRootOwned ∧ ¬ isTenantOwned then
        some "install ownership not allowed"
      else
        let openclawPath := joinPosix [d.tenantHomeRoot, userA, ".openclaw"]
        let workspacePath :=
          joinPosix [d.tenantHomeRoot, userA, d.tenantWorkspaceDirname]
        if isRootOwned ∧ target = "/etc/openclaw-tenants" then none
        else if target ∉ [openclawPath, workspacePath] then
          some "install path not allowed"
        else none
  | _ => some "install argument mismatch"

/-- The branch of `cp`. -/
def validateCp (d : Daemon) (args : List String) : Option String :=
  match args with
  | [flag, source, target] =>
    if flag ∉ ["-n", "-f"] then some "cp flag not allowed"
    else if d.templateOpenclawJson ≠ "" ∧ source = d.templateOpenclawJson then
      if flag ≠ "-n" then some "openclaw config copy must use -n"
      else if !regExpTest d.openclawJsonRe target then
        some "cp target not allowed"
      else none
    else if source = d.gatewaySystemdTemplate then
      if flag ≠ "-n" then some "template copy must use -n"
      else if target ≠ "/etc/systemd/system/openclaw-gateway@.service" then
        some "gateway template target not allowed"
      else none
    else if regExpTest d.provisionerEnvRe source then
      if flag ≠ "-f" then some "tenant env copy must use -f"
      else if !regExpTest tenantEnvRe target then
        some "tenant env target not allowed"
      else none
    else some "cp source not allowed"
  | _ => some "cp argument mismatch"

/-- The branch of `chown`. The owner is split at its colons and only the
first two pieces are looked at. -/
def validateChown (d : Daemon) (args : List String) : Option String :=
  match args with
  | [rFlag, owner, target] =>
    if rFlag ≠ "-R" then some "chown must use -R"
    else match owner.toList.splitOn ':' with
      | a :: b :: _ =>
        let userA := String.ofList a
        let userB := String.ofList b
        if !isSafeUser userA ∨ userA ≠ userB then
          some "chown owner not allowed"
        else if target ≠ joinPosix [d.tenantHomeRoot, userA] then
          some "chown target not allowed"
        else none
      | _ => some "chown owner not allowed"
  | _ => some "chown argument mismatch"

/-- The branch of `rm`. -/
def validateRm (d : Daemon) (args : List String) : Option String :=
  match args with
  | [flag, target] =>
    if flag = "-f" then
      if !regExpTest tenantEnvRe target then some "rm -f target not allowed"
      else none
    else if flag = "-rf" then
      if !regExpTest d.removableRe target then some "rm -rf target not allowed"
      else none
    else some "rm flag not allowed"
  | _ => some "rm argument mismatch"

/-- The branch of `userdel`. -/
def validateUserdel (args : List String) : Option String :=
  match args with
  | [flag, user] =>
    if flag ≠ "-r" then some "userdel must use -r"
    else if !isSafeUser user then some "Invalid username"
    else none
  | _ => some "userdel argument mismatch"

/-- The branch of `true`. -/
def validateTrue (args : List String) : Option String :=
  match args with
  | [] => none
  | _ => some "true takes no args"

/-- The branch of `systemctl`. -/
def validateSystemctl (args : List String) : Option String :=
  match args with
  | ["daemon-reload"] => none
  | ["enable", "--now", unit] =>
    if regExpTest serviceRe unit then none
    else some "systemctl service name not allowed"
  | ["disable", "--now", unit] =>
    if regExpTest serviceRe unit then none
    else some "systemctl service name not allowed"
  | _ => some "systemctl args not allowed"

/-- `command.split('/').pop()`: what is left of a command after its last
slash. -/
def basename (command : String) : String :=
  String.ofList ((command.toList.splitOn '/').getLastD [])

/-- **`validateCommand`**: `none` if the daemon has no objection. -/
def validateCommand (d : Daemon) (command : String) (args : List String) :
    Option String :=
  let cmd := basename command
  if command = "" then some "Invalid command payload"
  else if cmd = "useradd" then validateUseradd args
  else if cmd = "install" then validateInstall d args
  else if cmd = "cp" then validateCp d args
  else if cmd = "chown" then validateChown d args
  else if cmd = "rm" then validateRm d args
  else if cmd = "userdel" then validateUserdel args
  else if cmd = "true" then validateTrue args
  else if cmd = "systemctl" then validateSystemctl args
  else some ("Command not allowlisted: " ++ command)

/-! ## Running a command -/

inductive ChildEvent where
  /-- `close`: the exit code (`none` after a signal) and what it wrote. -/
  | close (code : Option ℤ) (stdout stderr : String)
  /-- `error`: the process could not be run. -/
  | error (message : String) (stdout stderr : String)

/-- The result of one `run` of the daemon. -/
structure RunResult where
  ok : Bool
  code : Option ℤ
  stdout : String
  stderr : String

/-- `run`: the result of one attempt. `timedOut` says that the timer killed
the child. -/
def runOnce (timedOut : Bool) : ChildEvent → RunResult
  | .close code stdout stderr =>
    { ok := !timedOut && code = some 0
      code := if timedOut then some 124 else code
      stdout
      stderr := if timedOut then stderr ++ "\nTimed out" else stderr }
  | .error message stdout stderr =>
    { ok := false, code := some 1, stdout, stderr := stderr ++ "\n" ++ message }

/-- `/cannot lock \/etc\/passwd/i.test(stderr)`. -/
def passwdLocked (stderr : String) : Bool :=
  decide ("cannot lock /etc/passwd".toList <:+: stderr.toList.map Char.toLower)

/-- The loop of `runWithRetry`: at most `attempts + 1` attempts, another one
only while a `useradd` finds the password file locked. -/
def retryLoop (cmd : String) (events : ℕ → Bool × ChildEvent) :
    (attempt attempts : ℕ) → RunResult
  | attempt, 0 => runOnce (events attempt).1 (events attempt).2
  | attempt, attempts + 1 =>
    let result := runOnce (events attempt).1 (events attempt).2
    if result.ok then result
    else if cmd = "useradd" ∧ passwdLocked result.stderr then
      retryLoop cmd events (attempt + 1) attempts
    else result

/-- `runWithRetry`: six attempts for `useradd`, one for any other command.
`events` is what becomes of the child of each attempt. -/
def runWithRetry (command : String) (events : ℕ → Bool × ChildEvent) :
    RunResult :=
  let cmd := basename command
  retryLoop cmd events 0 (if cmd = "useradd" then 5 else 0)

/-! ## The request handler -/

/-- A request as the daemon reads it from its line. -/
structure ProvisionerRequest where
  token : String
  command : String
  args : List String
  dryRun : Bool

structure ProvisionerResponse where
  ok : Bool
  code : Option ℤ
  stdout : Option String
  stderr : Option String
  skipped : Bool
  error : Option String

/-- **The request handler**: the response to a request. -/
def handleRequest (d : Daemon) (req : ProvisionerRequest)
    (events : ℕ → Bool × ChildEvent) : ProvisionerResponse :=
  if req.token ≠ d.token then
    ⟨false, none, none, none, false, some "Unauthorized"⟩
  else match validateCommand d req.command req.args with
    | some err => ⟨false, none, none, none, false, some err⟩
    | none =>
      if req.dryRun then ⟨true, some 0, some "", some "", true, none⟩
      else
        let result := runWithRetry req.command events
        if !result.ok then
          ⟨false, result.code, some result.stdout, some result.stderr, false,
            some ("Command failed: " ++ req.command)⟩
        else
          ⟨true, result.code, some result.stdout, some result.stderr, false,
            none⟩

/-- The program and arguments the daemon spawns for a request, if any. -/
def spawned (d : Daemon) (req : ProvisionerRequest) :
    Option (String × List String) :=
  if req.token = d.token ∧ validateCommand d req.command req.args = none
      ∧ req.dryRun = false then some (req.command, req.args)
  else none

/-! ## What a result says -/

theorem runOnce_ok {timedOut : Bool} {e : ChildEvent}
    (h : (runOnce timedOut e).ok = true) :
    (runOnce timedOut e).code = some 0 := by
  cases e with
  | close code stdout stderr =>
    simp only [runOnce, Bool.and_eq_true, Bool.not_eq_true',
      decide_eq_true_eq] at h
    simp only [runOnce, h.1, Bool.false_eq_true, if_false, h.2]
  | error message stdout stderr => simp [runOnce] at h

theorem retryLoop_ok {cmd : String} {events : ℕ → Bool × ChildEvent}
    {attempts attempt : ℕ} (h : (retryLoop cmd events attempt attempts).ok = true) :
    (retryLoop cmd events attempt attempts).code = some 0 := by
  induction attempts generalizing attempt with
  | zero => exact runOnce_ok h
  | succ attempts ih =>
    unfold retryLoop at h ⊢
    by_cases hok : (runOnce (events attempt).1 (events attempt).2).ok = true
    · rw [if_pos hok]
      exact runOnce_ok hok
    · rw [if_neg hok] at h ⊢
      split at h
      · next hlock =>
        rw [if_pos hlock]
        exact ih h
      · exact absurd h hok

/-- **A response that reports success carries exit code 0**, and is marked
as skipped exactly for a dry run. -/
theorem handleRequest_ok {d : Daemon} {req : ProvisionerRequest}
    {events : ℕ → Bool × ChildEvent}
    (h : (handleRequest d req events).ok = true) :
    validateCommand d req.command req.args = none
      ∧ (handleRequest d req events).code = some 0
      ∧ (handleRequest d req events).skipped = req.dryRun := by
  unfold handleRequest at h ⊢
  by_cases htoken : req.token ≠ d.token
  · simp [htoken] at h
  · rw [if_neg htoken] at h ⊢
    cases hv : validateCommand d req.command req.args with
    | some err => simp [hv] at h
    | none =>
      simp only [hv] at h ⊢
      by_cases hdry : req.dryRun = true
      · simp [hdry]
      · rw [if_neg hdry] at h ⊢
        by_cases hok : (runWithRetry req.command events).ok = true
        · simp only [hok, Bool.not_true, Bool.false_eq_true, if_false] at h ⊢
          refine ⟨trivial, retryLoop_ok hok, ?_⟩
          simpa using hdry
        · simp [hok] at h

end MissionControl
