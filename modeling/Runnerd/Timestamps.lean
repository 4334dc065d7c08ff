import Runnerd.Ownership

/-!
What the timeouts see. The sweeper measures an attempt from the column of its
row's status and skips a row whose column is empty. `applyStateTimestamps` sets
the column of the status it writes; what is left to show is that every way back
to the queue clears the columns of the attempt that ended.
-/

namespace Runnerd

open GoText Interaction Interleaving Versioned

section Columns

/-- No attempt is measured. -/
def unmeasured (st : RunnerState) : Bool :=
  st.creatingAt.isNone && st.runningAt.isNone && st.stoppingAt.isNone

/-- The columns that the timeouts of the row's status look at. -/
def timestamped (st : RunnerState) : Bool :=
  match st.status with
  | .queued => unmeasured st
  | .creating => st.creatingAt.isSome
  | .running => st.creatingAt.isSome && st.runningAt.isSome
  | .stopping => st.stoppingAt.isSome
  | .completed => st.completedAt.isSome
  | .failed => st.failedAt.isSome

/-- A write sets the columns of the status it writes. -/
theorem stateUpdates_timestamped (st : RunnerState) (now : Time) (row : RunnerRequestRecord)
    (clears : st.status = .queued → unmeasured st = true) :
    timestamped (stateUpdates st now row).toRunnerState = true := by
  cases status : st.status with
  | queued =>
      have cleared := clears status
      simpa [timestamped, stateUpdates, applyStateTimestamps, status, unmeasured] using cleared
  | creating => simp [timestamped, stateUpdates, applyStateTimestamps, status]
  | running => simp [timestamped, stateUpdates, applyStateTimestamps, status]
  | stopping => simp [timestamped, stateUpdates, applyStateTimestamps, status]
  | completed => simp [timestamped, stateUpdates, applyStateTimestamps, status]
  | failed => simp [timestamped, stateUpdates, applyStateTimestamps, status]

theorem applyFailure_unmeasured (cfg : Config) (now : Time) (st : RunnerState) (stage : String)
    (err : GoError) (queued : (applyFailure cfg now st stage err true).status = .queued) :
    unmeasured (applyFailure cfg now st stage err true) = true := by
  unfold applyFailure at queued ⊢
  dsimp only at queued ⊢
  split
  · rfl
  · rename_i notDeferred
    rw [if_neg notDeferred] at queued
    split
    · rfl
    · rename_i exhausted
      rw [if_neg exhausted] at queued
      cases queued

end Columns

section Edits
variable {server : Server} {past : List Answered}

/-- The writers that can leave a request queued. -/
def Writer.queues : Writer → Bool
  | .failStart | .retryOrFail | .requeueInterrupted | .mismatchRequeued => true
  | writer => writer.passive

theorem step_queues {released : String → Prop} {writer : Writer} {before after : Custody}
    (step : Custody.Step released writer before after) (queued : after.status = .queued) :
    writer.queues = true := by
  cases step with
  | kept passive =>
      unfold Writer.queues
      split
      · rfl
      · rfl
      · rfl
      · rfl
      · exact passive
  | dropped drops =>
      rcases drops with rfl | rfl
      · rfl
      · rfl
  | interrupted creating => rfl
  | requeued finished => rfl
  | ended _ _ _ finished =>
      subst queued
      rcases finished with finished | finished | finished
      · cases finished
      · cases finished
      · cases finished
  | _ => cases queued

/-- A write that queues a request clears its columns, or finds it queued as it
was read. -/
theorem edit_unmeasured {writer : Writer} {base st : RunnerState}
    (edit : Edit server past writer base st) (queued : st.status = .queued) :
    unmeasured st = true ∨
      (Reads past base ∧ base.status = .queued ∧ unmeasured st = unmeasured base) := by
  have queues := step_queues (edit_custody edit).2 queued
  cases edit with
  | startSnapshot reads service => exact .inr ⟨reads, queued, rfl⟩
  | markInProgress reads unstopped job => exact .inr ⟨reads, queued, rfl⟩
  | markJobStarted reads unstopped => exact .inr ⟨reads, queued, rfl⟩
  | recoverQueued reads waits => exact .inr ⟨reads, queued, rfl⟩
  | deferQueued reads waits owned nextAttempt => exact .inr ⟨reads, queued, rfl⟩
  | failStart unstopped known err now => exact .inl (applyFailure_unmeasured _ _ _ _ _ queued)
  | failSnapshot refused err now => exact .inl (applyFailure_unmeasured _ _ _ _ _ queued)
  | retryOrFail unfinished seen known err now =>
      exact .inl (applyFailure_unmeasured _ _ _ _ _ queued)
  | requeueInterrupted creating => exact .inl rfl
  | mismatchRequeued ended => exact .inl rfl
  | stopAssignment completed job => exact absurd (completed.symm.trans queued) nofun
  | mismatchInspected ended =>
      rcases ended with completed | ends
      · exact absurd (completed.symm.trans queued) nofun
      · exact absurd (ends.stopping.symm.trans queued) nofun
  | _ => cases queues

end Edits

section Worlds
variable {server : Server} {condition : RunnerWorld → RunnerMove → Prop}

/-- A write over a row whose columns are right leaves them right. -/
theorem Turn.keepsColumns {world : RunnerWorld} {tid : Nat} {choice : Choice}
    {thread : RunnerThread} {op : Op} {resp : op.Resp} {state : ServerState}
    (turn : Turn server world tid choice thread op resp state)
    (stands : ReadsStand world.state thread.past) {row next : RunnerRequestRecord}
    (here : row ∈ world.state.table.rows) (known : timestamped row.toRunnerState = true)
    (change : Change server thread.past choice.now ⟨op, resp⟩ row next) :
    timestamped next.toRunnerState = true := by
  cases change with
  | @written writer st base row matched knows edit same =>
      apply stateUpdates_timestamped
      intro queued
      rcases edit_unmeasured edit queued with cleared | ⟨reads, waits, kept⟩
      · exact cleared
      · have standing := turn.reread stands reads (edit_custody edit).1 here matched
        have columns : unmeasured row.toRunnerState = unmeasured base := by
          simpa only [settledPart, unmeasured] using congrArg unmeasured standing
        have status : row.status = .queued := (congrArg Core.status same).trans waits
        rw [kept, ← columns]
        simpa only [timestamped, status] using known
  | claimed free => exact known
  | released matched => exact known
  | retried allowed named => rfl

/-- In every reachable world each row shows its status's timeouts the columns
they measure from, and a queued row shows them none. -/
theorem timestamps_reachable {table : RequestTable}
    (first : ∀ row ∈ table.rows, timestamped row.toRunnerState = true) {world : RunnerWorld}
    (reaches : (machine server).Reaches condition (opened table) world) :
    ∀ row ∈ world.state.table.rows, timestamped row.toRunnerState = true := by
  refine rows_invariant (fun _ row => timestamped row.toRunnerState = true) ?_ first ?_ ?_ reaches
  · intro event trace row known
    exact known
  · intro world tid choice thread op resp state row _ turn _ added
    cases added with
    | created =>
        rcases turn.permits with ⟨rfl, _⟩ | ⟨rfl, _⟩
        · rfl
        · rfl
  · intro world tid choice thread op resp state row next before turn _ here known change
    exact turn.keepsColumns (turn.stands before) here known change

/-- A request that ran and went back to the queue shows no column of the run. -/
theorem timestamps_reachable_requeued :
    ∃ world, (machine sampleServer).Reaches (fun _ _ => True) (opened .empty) world ∧
      statusesOf world = [.queued] ∧
      ∀ row ∈ world.state.table.rows, timestamped row.toRunnerState = true := by
  have ran : ((machine sampleServer).runChecked (fun _ _ => true)
      (untilRequeue ++ turns 4 (plain 1)) (opened .empty)).any (fun world =>
        decide (statusesOf world = [.queued])) = true := by
    decide +kernel
  obtain ⟨world, reaches, queued⟩ := Machine.reaches_any ran
  have fresh : ∀ row ∈ RequestTable.empty.rows, timestamped row.toRunnerState = true := by
    intro row member
    cases member
  exact ⟨world, reaches.weaken fun _ _ _ => True.intro, by simpa using queued,
    timestamps_reachable fresh reaches⟩

end Worlds

end Runnerd
