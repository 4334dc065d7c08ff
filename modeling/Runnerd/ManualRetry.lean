import Runnerd.Ownership

/-!
`RetryRequest` looks only at the status of a row and blanks its sandbox. What
it blanks was stopped as long as no one gives a sandbox up: a stop that ends in
`stop_failed`, a forced stop that fails and an exit whose cleanup fails all
leave a failed row with a sandbox that may still run.
-/

namespace Runnerd

open GoText Interaction Interleaving Versioned

section Abstract

/-- A row that may be retried names no sandbox that still runs. -/
structure Custody.Retriable (ended : String → Prop) (c : Custody) : Prop where
  queued : c.status = .queued → c.sandbox = ""
  failed : c.status = .failed → ended c.sandbox

/-- The writes that may fail a request over its sandbox. -/
def Custody.GivesNothingUp (ended : String → Prop) (before after : Custody) : Writer → Prop
  | .stopFailed | .forceStopFailed => ended before.sandbox
  | .exited => after.status = .failed → ended before.sandbox
  | _ => True

theorem custody_retriable {released ended : String → Prop} (none : ended "")
    (implies : ∀ sandbox, released sandbox → ended sandbox) {writer : Writer} {c d : Custody}
    (step : Custody.Step released writer c d)
    (sound : Custody.GivesNothingUp ended c d writer) (retriable : c.Retriable ended) :
    d.Retriable ended := by
  cases step with
  | kept passive => exact retriable
  | dropped drops _ waits => exact ⟨fun _ => rfl, fun _ => none⟩
  | interrupted creating => exact ⟨fun _ => rfl, nofun⟩
  | requeued finished => exact ⟨fun _ => rfl, nofun⟩
  | abandoned abandons stopping =>
      have stopped : ended c.sandbox := by rcases abandons with rfl | rfl <;> exact sound
      exact ⟨nofun, fun _ => stopped⟩
  | ended ends stopping free finished settled =>
      have stopped := implies _ free
      rcases finished with rfl | rfl | rfl <;> exact ⟨nofun, fun _ => stopped⟩
  | exitFailed occupied settled => exact ⟨nofun, sound⟩
  | admitted unstopped => exact ⟨nofun, nofun⟩
  | placed creating sandbox => exact ⟨nofun, nofun⟩
  | stayed occupied => exact ⟨nofun, nofun⟩
  | reattached occupied sandbox => exact ⟨nofun, nofun⟩
  | unplaced unplaced => exact ⟨nofun, nofun⟩
  | marked uncompleted => exact ⟨nofun, nofun⟩
  | forced unfinished settled => exact ⟨nofun, nofun⟩
  | rescheduled stopping => exact ⟨nofun, nofun⟩
  | exitRescheduled occupied settled => exact ⟨nofun, nofun⟩
  | exitCompleted occupied free => exact ⟨nofun, nofun⟩
  | reconciled failed settled => exact ⟨nofun, nofun⟩

end Abstract

section Guard

/-- A write that fails a request finds its sandbox ended. -/
def failsAfterStop (trace : List RunnerEvent) (st : RunnerState) (row : RunnerRequestRecord) :
    Writer → Bool
  | .stopFailed | .forceStopFailed => endedIn trace row.sandboxID
  | .exited => st.status != .failed || endedIn trace row.sandboxID
  | _ => true

/-- No stop, forced stop or exit gives up a sandbox, and no failed lookup reads
like a gone sandbox. -/
def retryGuard (world : RunnerWorld) : Answered → Bool
  | ⟨.writeState writer st, .ok ()⟩ =>
      world.state.table.rows.all fun row =>
        !versionMatches st row || failsAfterStop world.trace st row writer
  | call => !lookupTakenForGone call

end Guard

section Worlds
variable {server : Server} {world after : RunnerWorld} {tid : Nat} {choice : Choice}
  {thread : RunnerThread} {op : Op} {resp : op.Resp} {state : ServerState} {move : RunnerMove}

theorem Turn.keepsRetriable (turn : Turn server world tid choice thread op resp state)
    (clean : ∀ event ∈ world.trace, lookupTakenForGone event.call = false)
    (guard : retryGuard world ⟨op, resp⟩ = true) {row next : RunnerRequestRecord}
    (member : row ∈ world.state.table.rows)
    (retriable : (rowCore row).custody.Retriable fun sandbox => endedIn world.trace sandbox = true)
    (change : Change server thread.past choice.now ⟨op, resp⟩ row next) :
    (rowCore next).custody.Retriable fun sandbox => endedIn world.trace sandbox = true := by
  cases change with
  | @written writer st base row matched knows edit same =>
      obtain ⟨-, step⟩ := edit_custody edit
      have stops : failsAfterStop world.trace st row writer = true := by
        simp only [retryGuard, List.all_eq_true] at guard
        simpa [matched] using guard row member
      have before : (rowCore row).custody = custody base := congrArg Core.custody same
      have sandbox : row.sandboxID = (custody base).sandbox := congrArg Custody.sandbox before
      rw [before] at retriable
      refine custody_retriable (by rfl) (fun _ released => turn.ended clean released) step ?_
        retriable
      rw [Custody.GivesNothingUp.eq_def, ← sandbox]
      cases writer with
      | stopFailed => exact stops
      | forceStopFailed => exact stops
      | exited =>
          intro failed
          have failed : st.status = .failed := failed
          simpa [failsAfterStop, failed] using stops
      | _ => exact True.intro
  | claimed free => exact retriable
  | released matched => exact retriable
  | retried allowed named => exact ⟨fun _ => rfl, nofun⟩

theorem retryGuard_clean
    (reaches : (machine server).Reaches
      (fun world move => guarded server retryGuard world move = true) (opened .empty) world) :
    ∀ event ∈ world.trace, lookupTakenForGone event.call = false := by
  refine Machine.trace_reachable (fun call => lookupTakenForGone call = false) ?_ ?_ reaches
  · intro event member
    cases member
  intro world move call guard answered
  simp only [guarded, answered, Option.all_some] at guard
  unfold retryGuard at guard
  split at guard
  · rfl
  · simpa using guard

theorem retriable_reachable
    (reaches : (machine server).Reaches
      (fun world move => guarded server retryGuard world move = true) (opened .empty) world) :
    ∀ row ∈ world.state.table.rows,
      (rowCore row).custody.Retriable fun sandbox => endedIn world.trace sandbox = true := by
  refine rows_invariant (fun trace row =>
    (rowCore row).custody.Retriable fun sandbox => endedIn trace sandbox = true)
    ?_ ?_ ?_ ?_ reaches
  · intro event trace row retriable
    exact ⟨retriable.queued, fun failed => endedIn_grows _ _ _ (retriable.failed failed)⟩
  · intro row member
    cases member
  · intro world tid choice thread op resp state row _ turn _ added
    cases added with
    | created =>
        rcases turn.permits with ⟨rfl, rfl, _⟩ | ⟨rfl, rfl⟩
        · exact ⟨fun _ => rfl, nofun⟩
        · exact ⟨nofun, fun _ => rfl⟩
  · intro world tid choice thread op resp state row next before turn guard member kept change
    rw [guarded, turn.answered] at guard
    exact turn.keepsRetriable (retryGuard_clean before) guard member kept change

/-- A row that `RetryRequest` accepts is queued or failed. -/
theorem retryAllowed_status {row : RunnerRequestRecord} (allowed : retryAllowed row = true) :
    row.status = .queued ∨ row.status = .failed := by
  unfold retryAllowed at allowed
  split at allowed
  · rename_i failed
    exact .inr failed
  · rename_i queued
    exact .inl queued
  · cases allowed

/-- Along the guarded runs a successful retry forgets no sandbox. -/
theorem retry_forgets_no_sandbox
    (reaches : (machine server).Reaches
      (fun world move => guarded server retryGuard world move = true) (opened .empty) world)
    {id : String} {at_ : Time} {result : RunnerState}
    (retried : (machine server).answered world move = some ⟨.retryRequest id at_, .ok result⟩)
    (stepped : (machine server).step world move = some after) : ¬ForgetsSandbox world after := by
  rintro ⟨row, here, next, there, same, named, changed, unconfirmed⟩
  obtain ⟨tid, choice, thread, op, resp, rest, state, rfl, acts, rfl⟩ | ⟨task, rfl, _, rfl⟩ |
    ⟨rfl, rfl⟩ := (machine server).step_cases stepped
  · have turn := turn_of_acts (coherent_reachable reaches) acts
    have call := Option.some.inj (turn.answered.symm.trans retried)
    rcases turn.next here there same with rfl | change
    · exact changed rfl
    · rw [call] at change
      cases change with
      | retried allowed _ =>
          have retriable := retriable_reachable reaches row here
          rcases retryAllowed_status allowed with queued | failed
          · exact named (retriable.queued queued)
          · have ended : endedIn world.trace row.sandboxID = true := retriable.failed failed
            simp [endedIn, named, unconfirmed] at ended
  · cases retried
  · cases retried

end Worlds

section Samples

def stopError : GoError := { message := "sandbox refused to stop" }
def cleanupError : GoError := { message := "github remove runner: status 403" }

/-- The runner is deleted by goroutine 4 and retried by goroutine 5. -/
def untilRetry (answers : List Choice) : List RunnerMove :=
  untilRunning ++ .start (.deleteRunner "1") :: turns 4 answers ++
    .start (.retryRunner "1") :: turns 5 (plain 1)

def retries : Option Answered → Bool
  | some ⟨.retryRequest _ _, .ok _⟩ => true
  | _ => false

theorem retries_ok {call : Option Answered} (retried : retries call = true) :
    ∃ id at_ result, call = some ⟨.retryRequest id at_, .ok result⟩ := by
  unfold retries at retried
  split at retried
  · exact ⟨_, _, _, rfl⟩
  · cases retried

/-- The stop succeeds and only the registration is left: the retry blanks a
stopped sandbox. -/
theorem retry_forgets_no_sandbox_stopped :
    ∃ world after move id at_ result, (machine sampleServer).Reaches
        (fun world move => guarded sampleServer retryGuard world move = true)
        (opened .empty) world ∧
      (machine sampleServer).answered world move =
        some ⟨.retryRequest id at_, .ok result⟩ ∧
      (machine sampleServer).step world move = some after ∧
      sandboxesOf world = ["sbx"] ∧ sandboxesOf after = [""] ∧ ¬ForgetsSandbox world after := by
  have ran : ((machine sampleServer).runChecked (guarded sampleServer retryGuard)
      (untilRetry (plain 6 ++ { removed := some cleanupError } :: plain 3)) (opened .empty)).any
      (fun world => decide (sandboxesOf world = ["sbx"]) &&
        retries ((machine sampleServer).answered world (.run 5 {})) &&
        ((machine sampleServer).step world (.run 5 {})).any fun after =>
          decide (sandboxesOf after = [""])) = true := by decide +kernel
  obtain ⟨world, reaches, found⟩ := Machine.reaches_any ran
  simp only [Bool.and_eq_true, decide_eq_true_eq, Option.any_eq_true] at found
  obtain ⟨⟨named, retried⟩, after, stepped, cleared⟩ := found
  obtain ⟨id, at_, result, answered⟩ := retries_ok retried
  exact ⟨world, after, _, id, at_, result, reaches, answered, stepped, named, cleared,
    retry_forgets_no_sandbox reaches answered stepped⟩

/-- The stop is refused and the request fails with `stop_failed`: the retry
blanks a sandbox that still runs. -/
theorem retry_forgets_running_sandbox :
    ¬∀ (server : Server) (world after : RunnerWorld) (move : RunnerMove) (id : String) (at_ : Time)
      (result : RunnerState), (machine server).Reaches (fun _ _ => True) (opened .empty) world →
      (machine server).answered world move = some ⟨.retryRequest id at_, .ok result⟩ →
      (machine server).step world move = some after → ¬ForgetsSandbox world after := by
  intro never
  have ran : ((machine sampleServer).runChecked (fun _ _ => true)
      (untilRetry (plain 5 ++ { stopped := some stopError } :: plain 3)) (opened .empty)).any
      (fun world =>
        retries ((machine sampleServer).answered world (.run 5 {})) &&
        ((machine sampleServer).step world (.run 5 {})).any fun after =>
          decide (ForgetsSandbox world after)) = true := by decide +kernel
  obtain ⟨world, reaches, found⟩ := Machine.reaches_any ran
  simp only [Bool.and_eq_true, decide_eq_true_eq, Option.any_eq_true] at found
  obtain ⟨retried, after, stepped, forgotten⟩ := found
  obtain ⟨id, at_, result, answered⟩ := retries_ok retried
  exact never sampleServer world after _ id at_ result
    (reaches.weaken fun _ _ _ => trivial) answered stepped forgotten

end Samples

end Runnerd
