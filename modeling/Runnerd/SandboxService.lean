import Runnerd.Interaction
import Runnerd.RunnerState

/-!
`internal/sandboxrunner/runner.go`: how `E2BService` uses the sandbox SDK. The
SDK answers what it likes. What it does is only this: a call made with an
expired context has no remote effect, and `Kill` with a live one succeeds.
-/

namespace Runnerd

open GoText Interaction

structure StartResult where
  sandboxID : String := ""
  pid : Nat := 0
  deriving DecidableEq, Repr

section Recover

structure RecoverInput where
  requestID : String
  sandboxID : String
  pid : Nat
  timeout : Duration

structure ProcessInfo where
  pid : Nat
  tag : Option String
  deriving DecidableEq, Repr

/-- What the SDK answers to `List`, `Connect`, `Commands().List` and
`Commands().Connect`. The `Bool` beside a connect error is `isSandboxNotFound`. -/
structure RecoverAnswers where
  sandboxes : Except GoError (List String) := .ok []
  connect : Option (GoError × Bool) := none
  processes : Except GoError (List ProcessInfo) := .ok []
  attach : Option GoError := none

def errSandboxNotFound : GoError := { message := "sandbox not found", sandboxNotFound := true }
def errRunnerNotFound : GoError := { message := "runner process not found", runnerNotFound := true }

def findRunnerSandbox (answers : RecoverAnswers) (requestID : String) : Except GoError String :=
  let requestID := trimSpace requestID
  if requestID = "" then .error errSandboxNotFound
  else
    match answers.sandboxes with
    | .error err =>
        .error (err.wrap ("find runner sandbox for request " ++ requestID ++ ": "))
    | .ok [] =>
        .error { errSandboxNotFound with
          message := errSandboxNotFound.message ++ " for request " ++ requestID }
    | .ok [sandboxID] => .ok sandboxID
    | .ok (_ :: _ :: _) =>
        .error { message := "multiple sandboxes found for request " ++ requestID }

def isRunnerProcess (process : ProcessInfo) : Bool := process.tag == some "github-runner"

def recoveredRunnerPID (processes : List ProcessInfo) (expectedPID : Nat) : Option Nat :=
  let tagged := processes.filter isRunnerProcess
  if expectedPID != 0 then
    (tagged.find? fun process => process.pid == expectedPID).map ProcessInfo.pid
  else
    match tagged with
    | [process] => some process.pid
    | _ => none

/-- `RecoverRunner` returns a result beside its error when the sandbox was
found without its runner. -/
def recoverRunnerProcess (answers : RecoverAnswers) (input : RecoverInput) :
    StartResult × Option GoError :=
  let found :=
    if trimSpace input.sandboxID = "" then findRunnerSandbox answers input.requestID
    else .ok (trimSpace input.sandboxID)
  match found with
  | .error err => ({}, some err)
  | .ok sandboxID =>
      match answers.connect with
      | some (err, notFound) =>
          if notFound then
            ({}, some { errSandboxNotFound with
              message := errSandboxNotFound.message ++ ": " ++ sandboxID })
          else ({}, some (err.wrap ("connect sandbox " ++ sandboxID ++ ": ")))
      | none =>
          match answers.processes with
          | .error err => ({}, some (err.wrap ("list sandbox " ++ sandboxID ++ " processes: ")))
          | .ok processes =>
              match recoveredRunnerPID processes input.pid with
              | none =>
                  ({ sandboxID := sandboxID }, some { errRunnerNotFound with
                    message := errRunnerNotFound.message ++ " in sandbox " ++ sandboxID })
              | some pid =>
                  match answers.attach with
                  | some err =>
                      ({}, some (err.wrap ("connect runner process " ++ toString pid ++
                        " in sandbox " ++ sandboxID ++ ": ")))
                  | none => ({ sandboxID := sandboxID, pid := pid }, none)

/-- A recovered runner is in the sandbox that was asked for. -/
theorem recovered_sandbox (answers : RecoverAnswers) (input : RecoverInput)
    (named : trimSpace input.sandboxID ≠ "") (result : StartResult)
    (recovered : recoverRunnerProcess answers input = (result, none)) :
    result.sandboxID = trimSpace input.sandboxID := by
  unfold recoverRunnerProcess at recovered
  simp only [named, if_false] at recovered
  split at recovered
  · split at recovered <;> simp at recovered
  · split at recovered
    · simp at recovered
    · split at recovered
      · simp at recovered
      · split at recovered
        · simp at recovered
        · exact (Prod.mk.inj recovered).1 ▸ rfl

end Recover

end Runnerd
