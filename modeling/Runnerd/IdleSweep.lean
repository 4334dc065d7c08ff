import Runnerd.Footprints
import Runnerd.Ownership

/-!
The idle branch of the sweeper. It decides on the list it read at its start,
asks GitHub twice, and then stops the runner without naming a job, which turns
the ownership check of `stopRunner` off. What the stop reads under the mutex is
what it marks: a job that was recorded by then is stopped with its runner.
-/

namespace Runnerd

open GoText Interaction Interleaving

section Sweeps
variable {server : Server} {past : List Answered}

/-- A sweep marks a row that it has read twice, outside and inside the mutex. -/
def sweepContract (past : List Answered) : Op → Prop
  | .writeState .stopStopping st => ∃ id base old earlier, past =
      ⟨.readState id, .ok base⟩ :: ⟨.lockRunner id, ()⟩ :: ⟨.readState id, .ok old⟩ :: earlier ∧
        base.status ≠ .completed ∧ SameRequest base st
  | _ => True

theorem sweep_quiet {kinds : List Kind} (quiet : kinds.contains (.write .stopStopping) = false)
    (past : List Answered) (op : Op) (member : kinds.contains op.kind = true) :
    sweepContract past op := by
  unfold sweepContract
  split
  · rw [Op.kind, quiet] at member
    cases member
  · trivial

theorem within_sweeps {α : Type} {kinds : List Kind} {program : Action α}
    (within : Within kinds program) (quiet : kinds.contains (.write .stopStopping) = false)
    {post : α → List Answered → Prop} (done : ∀ value later, past <:+ later → post value later) :
    Keeps sweepContract program post past :=
  keeps_calls within (sweep_quiet quiet) fun value later extends_ _ => done value later extends_

theorem stopLocked_sweeps (id : String) (old : RunnerState)
    {post : Except GoError (RunnerState × Bool) → List Answered → Prop}
    (done : ∀ value later, past <:+ later → post value later) :
    Keeps sweepContract (stopLocked server id {}) post
      (⟨.lockRunner id, ()⟩ :: ⟨.readState id, .ok old⟩ :: past) := by
  refine keeps_call True.intro fun answer => ?_
  cases answer with
  | error err => exact keeps_return (done _ _ ⟨[_, _, _], rfl⟩)
  | ok base =>
      dsimp only
      split
      · exact keeps_return (done _ _ ⟨[_, _, _], rfl⟩)
      · split
        · split
          · refine keeps_call True.intro fun answer => ?_
            cases answer with
            | error err => exact keeps_return (done _ _ ⟨[_, _, _, _], rfl⟩)
            | ok _ => exact keeps_return (done _ _ ⟨[_, _, _, _], rfl⟩)
          · exact keeps_return (done _ _ ⟨[_, _, _], rfl⟩)
        · rename_i uncompleted
          have marks : sweepContract (⟨.readState id, .ok base⟩ :: ⟨.lockRunner id, ()⟩ ::
              ⟨.readState id, .ok old⟩ :: past)
              (.writeState .stopStopping (stopStoppingState base {})) :=
            ⟨id, base, old, past, rfl, uncompleted, (stopStoppingState_custody base {}).1⟩
          refine keeps_call marks fun answer => ?_
          cases answer with
          | error err => exact keeps_return (done _ _ ⟨[_, _, _, _], rfl⟩)
          | ok _ =>
              refine within_sweeps (stopMarked_within server id _ {}) rfl ?_
              intro value later extends_
              exact done value later (List.IsSuffix.trans ⟨[_, _, _, _], rfl⟩ extends_)

theorem stopIfExists_sweeps (id : String) {post : Unit → List Answered → Prop}
    (done : ∀ value later, past <:+ later → post value later) :
    Keeps sweepContract (stopIfExists server id {}) post past := by
  refine keeps_call True.intro fun answer => ?_
  cases answer with
  | error err => exact keeps_return (done _ _ (List.suffix_cons _ _))
  | ok old =>
      apply keeps_seq
      refine keeps_call True.intro fun _ => keeps_seq ?_
      refine stopLocked_sweeps id old fun value later extends_ => ?_
      refine keeps_call True.intro fun _ => keeps_return (keeps_return (done _ _ ?_))
      exact extends_.trans (List.suffix_cons _ _)

theorem sweepTimeout_sweeps (now : Time) (st : RunnerState)
    {post : Unit → List Answered → Prop}
    (done : ∀ value later, past <:+ later → post value later) :
    Keeps sweepContract (sweepTimeout server now st) post past := by
  unfold sweepTimeout
  split
  · split
    · exact within_sweeps (retryOrFail_within server _ _ _) rfl done
    · exact keeps_return (done _ _ List.suffix_rfl)
  · split
    · exact within_sweeps (failAndStopRunnerVersion_within server _ _ _ _ _) rfl done
    · exact keeps_return (done _ _ List.suffix_rfl)
  · split
    · exact stopIfExists_sweeps st.id done
    · exact keeps_return (done _ _ List.suffix_rfl)
  · exact keeps_return (done _ _ List.suffix_rfl)

theorem sweepIdle_sweeps (st : RunnerState) {post : Unit → List Answered → Prop}
    (done : ∀ value later, past <:+ later → post value later) :
    Keeps sweepContract (sweepIdle server st) post past := by
  apply keeps_seq
  refine within_sweeps (originalWorkflowJobQueued_within st) rfl ?_
  rintro (err | _ | _) later asked
  · exact keeps_return (done _ _ asked)
  · apply keeps_seq
    refine within_sweeps (githubRunnerBusy_within st) rfl ?_
    rintro (err | _ | _) last further
    · exact keeps_return (done _ _ (asked.trans further))
    · exact stopIfExists_sweeps st.id fun value final more =>
        done value final ((asked.trans further).trans more)
    · exact within_sweeps (markRunnerJobStarted_within st.id) rfl fun value final more =>
        done value final ((asked.trans further).trans more)
  · exact keeps_return (done _ _ asked)

theorem sweepOnce_sweeps : Keeps sweepContract (sweepOnce server) (fun _ _ => True) past := by
  refine keeps_call True.intro fun answer => ?_
  cases answer with
  | error err => exact keeps_return True.intro
  | ok states =>
      refine keeps_call True.intro fun now => keeps_seq ?_
      refine keeps_each states (fun st _ before _ after done => sweepTimeout_sweeps now st done) ?_
      intro _ later _
      exact keeps_each _ (fun st _ before _ after done => sweepIdle_sweeps st done) fun _ _ _ =>
        True.intro

/-- The contract of a sweep; the other goroutines owe nothing here. -/
def sweepDuty : Task → List Answered → Op → Prop
  | .sweepOnce => sweepContract
  | _ => fun _ _ => True

theorem task_sweeps (server : Server) (task : Task) :
    Keeps (sweepDuty task) (taskBody server task) (fun _ _ => True) [] := by
  cases task with
  | sweepOnce => exact sweepOnce_sweeps
  | _ => exact keeps_permitted (fun _ _ => True.intro) _ _

end Sweeps

section Worlds
variable {server : Server} {world : RunnerWorld}

/-- The sweep listed the request as running. -/
def listsRunning (id : String) : Answered → Bool
  | ⟨.listActiveStates, .ok states⟩ =>
      states.any fun st => st.id == id && st.status == .running
  | _ => false

/-- No job is on the runner, as far as the row says. -/
def jobless (st : RunnerState) : Bool :=
  st.assignedJobID == 0 && st.assignedJobName != runnerJobStartedMarker

/-- The record that the idle branch writes: a sweep marks a request that it
listed as running. The sweep's other stops are of requests it listed as
stopping. -/
def idleStop (task : Task) (past : List Answered) : Answered → Option RunnerState
  | ⟨.writeState .stopStopping st, .ok ()⟩ =>
      match task with
      | .sweepOnce => if past.any (listsRunning st.id) then some st else none
      | _ => none
  | _ => none

/-- When the idle branch's stop reads the row under the mutex, no job has been
recorded on it since the sweep's list, or it is completed. -/
def idleGuard (task : Task) (past : List Answered) (call : Answered) : Bool :=
  match task, call, past with
  | .sweepOnce, ⟨.readState _, .ok base⟩,
      ⟨.lockRunner _, _⟩ :: ⟨.readState _, .ok _⟩ :: earlier =>
      !earlier.any (listsRunning base.id) || base.status == .completed || jobless base
  | _, _, _ => true

theorem idleStop_write {task : Task} {past : List Answered} {call : Answered} {st : RunnerState}
    (stops : idleStop task past call = some st) :
    call = ⟨.writeState .stopStopping st, .ok ()⟩ ∧ task = .sweepOnce ∧
      past.any (listsRunning st.id) = true := by
  unfold idleStop at stops
  split at stops
  · split at stops
    · split at stops
      · rename_i listed
        cases stops
        exact ⟨rfl, rfl, listed⟩
      · cases stops
    · cases stops
  · cases stops

/-- Along the guarded runs the idle branch marks only rows without a job. -/
theorem idle_sweep_spares_jobs {table : RequestTable}
    (reaches : (machine server).Reaches (fun world move => watched server
      (fun _ thread => idleGuard thread.task thread.past) world move = true) (opened table) world)
    {tid : Nat} {choice : Choice} {thread : RunnerThread} {call : Answered} {st : RunnerState}
    (live : world.threads[tid]? = some thread)
    (answered : (machine server).answered world (.run tid choice) = some call)
    (stops : idleStop thread.task thread.past call = some st) {row : RunnerRequestRecord}
    (here : row ∈ world.state.table.rows) (matched : versionMatches st row = true) :
    row.assignedJobID = 0 ∧ row.assignedJobName ≠ runnerJobStartedMarker := by
  obtain ⟨rfl, sweeps, listed⟩ := idleStop_write stops
  obtain ⟨_, _, found, rest, state, move, acts⟩ := Machine.answered_acts answered
  cases move
  obtain rfl : found = thread := Option.some.inj (acts.live.symm.trans live)
  have obeys : Machine.Obeys sweepDuty world := by
    refine Machine.obeys_reachable (task_sweeps server) ⟨?_, ?_⟩ reaches
    · intro tid thread live
      cases live
    · intro tid thread live
      cases live
  have duty := obeys.permits acts
  rw [sweeps] at duty
  obtain ⟨id, base, old, earlier, past, uncompleted, request⟩ := duty
  have met := (met_past rfl reaches).actor acts ⟨.readState id, .ok base⟩
    (⟨.lockRunner id, ()⟩ :: ⟨.readState id, .ok old⟩ :: earlier) ⟨[], past.symm⟩
  have before : earlier.any (listsRunning base.id) = true := by
    rw [past, request.id] at listed
    simpa [listsRunning] using listed
  have unassigned : jobless base = true := by
    simpa [idleGuard, sweeps, before, uncompleted] using met
  have turn := turn_of_acts (coherent_reachable reaches) acts
  have standing := turn.reread (turn.stands reaches) ⟨id, by rw [past]; exact List.mem_cons_self⟩
    request here matched
  have same : jobless row.toRunnerState = jobless base := by
    simpa only [settledPart, jobless] using congrArg jobless standing
  rw [← same] at unassigned
  simpa [jobless] using unassigned

/-- The sweeper, goroutine 4, has listed the idle runner of request 1, asked
GitHub about it and read it under the mutex. -/
def untilIdle (between : List RunnerMove) : List RunnerMove :=
  untilRunning ++ .start .sweepOnce :: turns 4 [{}, { now := 601 * second }] ++ between ++
    turns 4 ({ job := .ok { sampleJob 1 with status := "in_progress" } } ::
      { runners := .ok [] } :: plain 3)

theorem idle_sweep_spares_jobs_idle :
    ∃ world thread call st row, (machine sampleServer).Reaches (fun world move =>
        watched sampleServer (fun _ thread => idleGuard thread.task thread.past) world move = true)
        (opened .empty) world ∧
      world.threads[4]? = some thread ∧
      (machine sampleServer).answered world (.run 4 {}) = some call ∧
      idleStop thread.task thread.past call = some st ∧ row ∈ world.state.table.rows ∧
      versionMatches st row = true ∧ row.assignedJobID = 0 ∧
      row.assignedJobName ≠ runnerJobStartedMarker := by
  have ran : ((machine sampleServer).runChecked (watched sampleServer
      (fun _ thread => idleGuard thread.task thread.past)) (untilIdle []) (opened .empty)).any
      (fun world => (world.threads[4]?).any fun thread =>
        ((machine sampleServer).answered world (.run 4 {})).any fun call =>
        (idleStop thread.task thread.past call).any fun st =>
        world.state.table.rows.any fun row => versionMatches st row) = true := by
    decide +kernel
  obtain ⟨world, reaches, found⟩ := Machine.reaches_any ran
  simp only [Option.any_eq_true, List.any_eq_true] at found
  obtain ⟨thread, live, call, answered, st, stops, row, here, matched⟩ := found
  exact ⟨world, thread, call, st, row, reaches, live, answered, stops, here, matched,
    idle_sweep_spares_jobs reaches live answered stops here matched⟩

/-- Between the sweep's list and its stop the runner accepts job 1. -/
def untilAccepted : List RunnerMove :=
  untilIdle (jobEvent .inProgress (sampleJob 1) :: turns 5 (plain 4))

/-- The idle branch then stops a runner that has a job. -/
theorem idle_sweep_stops_job :
    ¬∀ (server : Server) (world : RunnerWorld) (tid : Nat) (choice : Choice)
        (thread : RunnerThread) (call : Answered) (st : RunnerState) (row : RunnerRequestRecord),
      (machine server).Reaches (fun _ _ => True) (opened .empty) world →
      world.threads[tid]? = some thread →
      (machine server).answered world (.run tid choice) = some call →
      idleStop thread.task thread.past call = some st → row ∈ world.state.table.rows →
      versionMatches st row = true →
      row.assignedJobID = 0 ∧ row.assignedJobName ≠ runnerJobStartedMarker := by
  intro always
  have ran : ((machine sampleServer).runChecked (fun _ _ => true) untilAccepted
      (opened .empty)).any (fun world => (world.threads[4]?).any fun thread =>
        ((machine sampleServer).answered world (.run 4 {})).any fun call =>
        (idleStop thread.task thread.past call).any fun st =>
        world.state.table.rows.any fun row =>
          versionMatches st row && decide (row.assignedJobID = 1)) = true := by
    decide +kernel
  obtain ⟨world, reaches, found⟩ := Machine.reaches_any ran
  simp only [Option.any_eq_true, List.any_eq_true, Bool.and_eq_true, decide_eq_true_eq] at found
  obtain ⟨thread, live, call, answered, st, stops, row, here, matched, assigned⟩ := found
  have spared := always sampleServer world 4 {} thread call st row
    (reaches.weaken fun _ _ _ => True.intro) live answered stops here matched
  simp [assigned] at spared

end Worlds

end Runnerd
