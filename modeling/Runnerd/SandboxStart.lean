import Runnerd.Effects

/-!
`E2BService.StartRunner` of `internal/sandboxrunner/runner.go`, over the calls
of the sandbox SDK. Each call takes some time and answers what it likes. A call
made after its context's deadline has no remote effect, and `Kill` before it
succeeds. The three error branches kill the sandbox with the context of its
creation, so a start leaves nothing behind exactly as long as its failing call
returns in time.
-/

namespace Runnerd

open GoText Interaction

section Sdk

inductive SdkOp where
  | createAndWait (templateID : String) (timeout : Duration) (requestID : String)
  | filesWrite (sandboxID path : String)
  /-- Made with the context of the command, not with that of the creation. -/
  | commandsStart (sandboxID command : String)
  | waitPID (sandboxID : String)
  | kill (sandboxID : String)

@[reducible] def SdkOp.Resp : SdkOp → Type
  | .createAndWait _ _ _ => Except GoError String
  | .filesWrite _ _ | .commandsStart _ _ | .kill _ => Option GoError
  | .waitPID _ => Except GoError Nat

/-- How long a call takes, and what it answers. -/
structure SdkChoice where
  elapsed : Nat := 0
  failed : Option GoError := none
  sandboxID : String := ""
  pid : Nat := 0

structure SdkState where
  now : Time
  alive : List String
  deriving DecidableEq

def SdkState.pass (state : SdkState) (choice : SdkChoice) : SdkState :=
  { state with now := state.now + choice.elapsed }

def contextExpired : GoError :=
  { message := "context deadline exceeded", deadlineExceeded := true }

/-- The SDK under a create context with this deadline. -/
def sdkRespond (deadline : Time) (choice : SdkChoice) (state : SdkState) :
    (op : SdkOp) → Option (op.Resp × SdkState)
  | .createAndWait _ _ _ =>
      if state.now < deadline then
        match choice.failed with
        | some err => some (.error err, state.pass choice)
        | none =>
            some (.ok choice.sandboxID,
              { state.pass choice with alive := choice.sandboxID :: state.alive })
      else some (.error contextExpired, state.pass choice)
  | .filesWrite _ _ | .commandsStart _ _ => some (choice.failed, state.pass choice)
  | .waitPID _ =>
      match choice.failed with
      | some err => some (.error err, state.pass choice)
      | none => some (.ok choice.pid, state.pass choice)
  | .kill sandboxID =>
      if state.now < deadline then
        some (none, { state.pass choice with alive := state.alive.erase sandboxID })
      else some (some contextExpired, state.pass choice)

end Sdk

section Start

abbrev SdkAction := Prog SdkOp SdkOp.Resp

def askSdk (op : SdkOp) : SdkAction op.Resp := Prog.request op

def runnerScript : String := "/tmp/start-github-runner.sh"

def startSandboxRunner (input : StartInput) : SdkAction (Except GoError StartResult) := do
  match ← askSdk (.createAndWait input.templateID input.timeout input.requestID) with
  | .error err => return .error err
  | .ok sandboxID =>
      match ← askSdk (.filesWrite sandboxID runnerScript) with
      | some err =>
          let _ ← askSdk (.kill sandboxID)
          return .error (err.wrap "write runner script: ")
      | none =>
          match ← askSdk
              (.commandsStart sandboxID ("chmod +x " ++ runnerScript ++ " && " ++ runnerScript)) with
          | some err =>
              let _ ← askSdk (.kill sandboxID)
              return .error (err.wrap "start runner command: ")
          | none =>
              match ← askSdk (.waitPID sandboxID) with
              | .error err =>
                  let _ ← askSdk (.kill sandboxID)
                  return .error (err.wrap "wait runner pid: ")
              | .ok pid => return .ok { sandboxID := sandboxID, pid := pid }

/-- The first failing call returns before the deadline. -/
def failsInTime (deadline : Time) : Time → List SdkChoice → Bool
  | _, [] => true
  | now, choice :: rest =>
      if choice.failed.isSome then decide (now + choice.elapsed < deadline)
      else failsInTime deadline (now + choice.elapsed) rest

def sampleInput : StartInput where
  requestID := "1"
  runnerName := "e2b-1"
  repositoryURL := "https://github.com/owner/repo"
  registrationToken := "token"
  labels := ["linux"]
  runnerGroup := ""
  templateID := "template"
  requireDocker := false
  timeout := 3600 * second

/-- The end of a failed start: the sandbox is gone exactly if the context of
its creation is still live. -/
theorem killed_iff {deadline : Time} {choices : List SdkChoice} {state last : SdkState}
    {sandboxID : String} {others : List String} {answer result : Except GoError StartResult}
    (alive : state.alive = sandboxID :: others)
    (ran : perform (sdkRespond deadline) (askSdk (.kill sandboxID) >>= fun _ => return answer)
      choices state = some (result, last)) :
    last.alive = others ↔ state.now < deadline := by
  obtain ⟨choice, rest, resp, middle, rfl, answered, ended⟩ := perform_call ran
  obtain ⟨_, rfl⟩ := perform_return ended
  simp only [sdkRespond] at answered
  split at answered
  · rename_i live
    cases answered
    simp [alive, live]
  · rename_i expired
    cases answered
    simp [SdkState.pass, alive, expired]

/-- A start that fails after the creation of its sandbox leaves nothing behind
exactly if the failing call returned before the create context expired. -/
theorem failed_start_kills_iff {deadline : Time} {input : StartInput} {created : SdkChoice}
    {calls : List SdkChoice} {first last : SdkState} {err : GoError}
    (live : first.now < deadline) (succeeded : created.failed = none)
    (ran : perform (sdkRespond deadline) (startSandboxRunner input) (created :: calls) first =
      some (.error err, last)) :
    last.alive = first.alive ↔ failsInTime deadline (first.now + created.elapsed) calls = true := by
  obtain ⟨_, _, resp, middle, same, answered, ran⟩ := perform_call ran
  cases same
  simp only [sdkRespond, live, succeeded, if_true] at answered
  cases answered
  -- the script is written
  obtain ⟨written, _, resp, middle, rfl, answered, ran⟩ := perform_call ran
  simp only [sdkRespond] at answered
  cases answered
  cases wrote : written.failed with
  | some err =>
      rw [wrote] at ran
      rw [killed_iff rfl ran]
      simp [failsInTime, wrote, SdkState.pass]
  | none =>
      rw [wrote] at ran
      -- the command is started
      obtain ⟨started, _, resp, middle, rfl, answered, ran⟩ := perform_call ran
      simp only [sdkRespond] at answered
      cases answered
      cases start : started.failed with
      | some err =>
          rw [start] at ran
          rw [killed_iff rfl ran]
          simp [failsInTime, wrote, start, SdkState.pass]
      | none =>
          rw [start] at ran
          -- its process is awaited
          obtain ⟨waited, _, resp, middle, rfl, answered, ran⟩ := perform_call ran
          cases wait : waited.failed with
          | some err =>
              simp only [sdkRespond, wait] at answered
              cases answered
              rw [killed_iff rfl ran]
              simp [failsInTime, wrote, start, wait, SdkState.pass]
          | none =>
              simp only [sdkRespond, wait] at answered
              cases answered
              obtain ⟨impossible, _⟩ := perform_return ran
              cases impossible

/-- The script cannot be written, well before the deadline. -/
theorem failed_start_kills_script :
    ∃ last err, perform (sdkRespond 60) (startSandboxRunner sampleInput)
        [{ elapsed := 20, sandboxID := "sbx" }, { elapsed := 5, failed := some contextExpired }, {}]
        ⟨0, []⟩ = some (.error err, last) ∧ last.alive = [] := by
  have ran : perform (sdkRespond 60) (startSandboxRunner sampleInput)
      [{ elapsed := 20, sandboxID := "sbx" }, { elapsed := 5, failed := some contextExpired }, {}]
      ⟨0, []⟩ = some (.error (contextExpired.wrap "write runner script: "), ⟨25, []⟩) := rfl
  exact ⟨_, _, ran, (failed_start_kills_iff (by decide) rfl ran).mpr (by decide)⟩

/-- The process id does not arrive before the deadline. -/
theorem failed_start_leaves_sandbox :
    ¬∀ (deadline : Time) (input : StartInput) (created : SdkChoice) (calls : List SdkChoice)
        (first last : SdkState) (err : GoError),
      first.now < deadline → created.failed = none →
      perform (sdkRespond deadline) (startSandboxRunner input) (created :: calls) first =
        some (.error err, last) → last.alive = first.alive := by
  intro always
  have ran : perform (sdkRespond 60) (startSandboxRunner sampleInput)
      [{ elapsed := 20, sandboxID := "sbx" }, { elapsed := 5 }, { elapsed := 5 },
        { elapsed := 30, failed := some contextExpired }, {}]
      ⟨0, []⟩ = some (.error (contextExpired.wrap "wait runner pid: "), ⟨60, ["sbx"]⟩) := rfl
  have killed := always _ _ _ _ _ _ _ (by decide) rfl ran
  cases killed

end Start

end Runnerd
