import Runnerd.Ownership

/-!
What can happen to a completed request. The writers that may hold a stale copy
of it are stopped by the version, by a look at the status, or both. One is not:
`failStart` falls back on the copy it was given when it cannot read the row,
and that copy may be the completed row. Apart from it, a completed request
changes its status only when the reconciler gives its original job back to the
queue.
-/

namespace Runnerd

open GoText Interaction Interleaving Versioned

section Edits
variable {server : Server} {past : List Answered}

/-- What a write can do to a completed request. -/
theorem edit_completed {writer : Writer} {base st : RunnerState}
    (edit : Edit server past writer base st) (completed : base.status = .completed) :
    st.status = .completed ∨ (∃ service, SnapshotLost past base service) ∨
      (writer = .mismatchRequeued ∧ st.status = .queued ∧ Mismatched past base) := by
  obtain ⟨_, step⟩ := edit_custody edit
  have before : (custody base).status = .completed := completed
  have active (busy : occupied (custody base).status = true) : False := by
    rw [before] at busy
    cases busy
  generalize held : custody st = after at step
  have kept : st.status = after.status := congrArg Custody.status held
  cases step with
  | kept passive => exact .inl (kept.trans before)
  | admitted unstopped => exact absurd before unstopped.1
  | placed creating => exact absurd (before.symm.trans creating) nofun
  | stayed busy => exact (active busy).elim
  | reattached busy => exact (active busy).elim
  | dropped drops _ waits =>
      rcases drops with rfl | rfl
      · cases edit with
        | failStart unstopped known err now => exact absurd completed unstopped.1
        | failSnapshot refused err now => exact .inr (.inl ⟨_, refused⟩)
      · cases edit with
        | retryOrFail unfinished seen known err now => exact absurd completed unfinished.1
  | unplaced unplaced => exact absurd before unplaced.1
  | interrupted creating => exact absurd (before.symm.trans creating) nofun
  | marked uncompleted => exact absurd before uncompleted
  | forced unfinished => exact absurd before unfinished.1
  | rescheduled stopping => exact absurd (before.symm.trans stopping) nofun
  | abandoned _ stopping => exact absurd (before.symm.trans stopping) nofun
  | ended _ stopping => exact absurd (before.symm.trans stopping) nofun
  | requeued finished =>
      cases edit with
      | mismatchRequeued ended =>
          rcases ended with found | ends
          · exact .inr (.inr ⟨rfl, rfl, found⟩)
          · exact absurd (completed.symm.trans ends.stopping) nofun
  | exitRescheduled busy => exact (active busy).elim
  | exitCompleted busy => exact (active busy).elim
  | exitFailed busy => exact (active busy).elim
  | reconciled failed => exact absurd (before.symm.trans failed) nofun

end Edits

section Worlds
variable {server : Server}

/-- When a snapshot could not be written and the row cannot be read either, the
row as it was read for the snapshot was not completed. -/
def snapshotGuard (_ : Task) (past : List Answered) (call : Answered) : Bool :=
  match call, past with
  | ⟨.readState _, .error _⟩,
      ⟨.lockRunner _, _⟩ :: ⟨.writeState .startSnapshot st, .error _⟩ :: _ =>
      st.status != .completed
  | _, _ => true

/-- The reconciler gives the request of a completed row back to the queue. -/
structure RequeuedByReconciler (server : Server) (world : RunnerWorld) (move : RunnerMove)
    (row next : RunnerRequestRecord) : Prop where
  queued : next.status = .queued
  mismatched : row.workflowJobID ≠ 0 ∧ row.assignedJobID ≠ 0 ∧
    row.workflowJobID ≠ row.assignedJobID
  writes : ∃ st, (machine server).answered world move =
    some ⟨.writeState .mismatchRequeued st, .ok ()⟩
  pass : ∃ tid choice thread, move = .run tid choice ∧ world.threads[tid]? = some thread ∧
    (∃ limit states, (⟨.listMismatchedCompletedStates limit, .ok states⟩ : Answered) ∈ thread.past) ∧
    ∃ repository answer,
      (⟨.getWorkflowJob repository row.workflowJobID, answer⟩ : Answered) ∈ thread.past ∧
        reportsQueued answer = true

variable {world : RunnerWorld} {tid : Nat} {choice : Choice}
  {thread : RunnerThread} {op : Op} {resp : op.Resp} {state : ServerState}

theorem snapshot_uncompleted {past : List Answered} {base : RunnerState} {service : SandboxService}
    {task : Task} (met : ∀ call earlier, call :: earlier <:+ past →
      snapshotGuard task earlier call = true) (refused : SnapshotLost past base service) :
    base.status ≠ .completed := by
  obtain ⟨now, id, readErr, writeErr, earlier, rfl⟩ := refused
  have passed := met ⟨.readState id, .error readErr⟩ _ (List.suffix_cons _ _)
  simpa [snapshotGuard, snapshotState] using passed

/-- The reconciler's requeue finds the row as it read it. -/
theorem Turn.requeued (turn : Turn server world tid choice thread op resp state)
    (stands : ReadsStand world.state thread.past) {st base : RunnerState}
    {row : RunnerRequestRecord} (here : row ∈ world.state.table.rows)
    (matched : versionMatches st row = true) (request : SameRequest base st)
    (wrote : (⟨op, resp⟩ : Answered) = ⟨.writeState .mismatchRequeued st, .ok ()⟩)
    (found : Mismatched thread.past base) {next : RunnerRequestRecord}
    (queued : next.status = .queued) :
    RequeuedByReconciler server world (.run tid choice) row next := by
  have standing := turn.reread stands found.reads request here matched
  have original : row.workflowJobID = base.workflowJobID := by
    simpa only [settledPart] using congrArg (fun st => st.workflowJobID) standing
  have assigned : row.assignedJobID = base.assignedJobID := by
    simpa only [settledPart] using congrArg RunnerState.assignedJobID standing
  have mismatched := found.mismatched
  simp only [mismatchedCompleted, Bool.and_eq_true, bne_iff_ne] at mismatched
  refine ⟨queued, ?_, ⟨st, wrote ▸ turn.answered⟩, tid, choice, thread, rfl, turn.live,
    found.listed, ?_⟩
  · rw [original, assigned]
    exact ⟨mismatched.1.1.2, mismatched.1.2, mismatched.2⟩
  · rw [original]
    exact found.reported

/-- Along the guarded runs a completed request changes its status only when the
reconciler requeues it. -/
theorem completed_terminal {table : RequestTable} {after : RunnerWorld} {move : RunnerMove}
    (reaches : (machine server).Reaches (fun world move => watched server
      (fun _ thread => snapshotGuard thread.task thread.past) world move = true)
      (opened table) world)
    (stepped : (machine server).step world move = some after) {row next : RunnerRequestRecord}
    (here : row ∈ world.state.table.rows) (there : next ∈ after.state.table.rows)
    (same : next.id = row.id) (completed : row.status = .completed)
    (changed : next.status ≠ .completed) : RequeuedByReconciler server world move row next := by
  obtain ⟨tid, choice, thread, op, resp, rest, state, rfl, acts, rfl⟩ | ⟨task, rfl, _, rfl⟩ |
    ⟨rfl, rfl⟩ := (machine server).step_cases stepped
  · have turn := turn_of_acts (coherent_reachable reaches) acts
    rcases turn.next here there same with rfl | change
    · exact absurd completed changed
    · cases change with
      | @written writer st base row matched knows edit core =>
          have status : base.status = .completed :=
            (congrArg Core.status core).symm.trans completed
          obtain ⟨request, _⟩ := edit_custody edit
          rcases edit_completed edit status with kept | ⟨service, refused⟩ | ⟨rfl, queued, found⟩
          · exact absurd kept changed
          · exact absurd status (snapshot_uncompleted ((met_past rfl reaches).actor acts) refused)
          · exact turn.requeued (turn.stands reaches) here matched request rfl found
              queued
      | claimed free => simp [claimable, completed] at free
      | released matched => exact absurd completed changed
      | retried allowed named => simp [retryAllowed, completed] at allowed
  · cases world.state.table.same_row there here same
    exact absurd completed changed
  · cases world.state.table.same_row there here same
    exact absurd completed changed

end Worlds

section Samples

def sampleService : SandboxService :=
  { apiURL := "https://sandbox", encryptedAPIKey := "key", source := "default" }

def mismatchedTable : RequestTable where
  rows := [{
    id := "1"
    status := .completed
    repositoryFullName := "owner/repo"
    runnerName := "e2b-1"
    workflowJobID := 1
    assignedJobID := 2
    version := 4 }]
  primaryKey := by decide
  jobIndex := by decide
  sanitized := by decide

/-- GitHub reports job 1 queued; the reconciler is about to requeue it. -/
def untilReconciled : List RunnerMove :=
  .start (.reconcileOnce 0) :: turns 0 (plain 5 ++ { job := .ok (sampleJob 1) } :: plain 2)

theorem completed_terminal_requeued :
    ∃ world after move row next, (machine sampleServer).Reaches (fun world move =>
        watched sampleServer (fun _ thread => snapshotGuard thread.task thread.past) world move =
          true) (opened mismatchedTable) world ∧
      (machine sampleServer).step world move = some after ∧ row ∈ world.state.table.rows ∧
      next ∈ after.state.table.rows ∧ row.status = .completed ∧
      RequeuedByReconciler sampleServer world move row next := by
  have ran : ((machine sampleServer).runChecked (watched sampleServer
      (fun _ thread => snapshotGuard thread.task thread.past)) untilReconciled
      (opened mismatchedTable)).any (fun world =>
        ((machine sampleServer).step world (.run 0 {})).any fun after =>
        world.state.table.rows.any fun row => after.state.table.rows.any fun next =>
          decide (next.id = row.id ∧ row.status = .completed ∧ next.status ≠ .completed)) = true := by
    decide +kernel
  obtain ⟨world, reaches, found⟩ := Machine.reaches_any ran
  simp only [Option.any_eq_true, List.any_eq_true, decide_eq_true_eq] at found
  obtain ⟨after, stepped, row, here, next, there, same, completed, changed⟩ := found
  exact ⟨world, after, _, row, next, reaches, stepped, here, there, completed,
    completed_terminal reaches stepped here there same completed changed⟩

/-- Between the service's resolution and the snapshot the request completes,
and the attempt, goroutine 2, reads it so. Its snapshot cannot be written and
the row cannot be read again. -/
def untilSnapshotLost : List RunnerMove :=
  jobEvent .queued (sampleJob 1) :: turns 0 (plain 5) ++
    .start (.processQueuedRequests 1) :: turns 1 (plain 4) ++
    turns 2 (plain 10 ++ { job := .ok (sampleJob 1) } :: [{ service := .ok sampleService }]) ++
    jobEvent .completed (sampleJob 1) :: turns 3 (plain 7) ++
    turns 2 (plain 1 ++ { storeError := some { message := "connection reset" } } :: plain 1 ++
      { storeError := some { message := "connection reset" } } :: plain 1)

/-- `failStart` then requeues the completed request. -/
theorem completed_requeued_by_failStart :
    ¬∀ (server : Server) (world after : RunnerWorld) (move : RunnerMove)
        (row next : RunnerRequestRecord),
      (machine server).Reaches (fun _ _ => True) (opened .empty) world →
      (machine server).step world move = some after → row ∈ world.state.table.rows →
      next ∈ after.state.table.rows → next.id = row.id → row.status = .completed →
      next.status ≠ .completed → RequeuedByReconciler server world move row next := by
  intro always
  have ran : ((machine scopedServer).runChecked (fun _ _ => true) untilSnapshotLost
      (opened .empty)).any (fun world =>
        ((machine scopedServer).step world (.run 2 {})).any fun after =>
        world.state.table.rows.any fun row => after.state.table.rows.any fun next =>
          decide (next.id = row.id ∧ row.status = .completed ∧ next.status = .queued ∧
            row.workflowJobID = row.assignedJobID)) = true := by
    decide +kernel
  obtain ⟨world, reaches, found⟩ := Machine.reaches_any ran
  simp only [Option.any_eq_true, List.any_eq_true, decide_eq_true_eq] at found
  obtain ⟨after, stepped, row, here, next, there, same, completed, queued, agree⟩ := found
  have requeued := always scopedServer world after _ row next
    (reaches.weaken fun _ _ _ => True.intro) stepped here there same completed (by simp [queued])
  exact requeued.mismatched.2.2 agree

end Samples

end Runnerd
