import Runnerd.Ownership

/-!
How often the server retries by itself. One counter serves failed starts,
failed stops and failed cleanups. Three functions raise it, each under its own
guard, and nothing lowers it. Every budgeted retry that is written is one step
of the counter, so over the whole life of a request there are at most
`RetryMaxAttempts` of them.
-/

namespace Runnerd

open GoText Interaction Interleaving Versioned

section Retries

def Writer.cleanupRetry : Writer → Bool
  | .exitedCleanupRetry | .stopCleanupRetry | .forceCleanupRetry => true
  | _ => false

/-- The write schedules another attempt at what failed. -/
def automaticRetry (writer : Writer) (st : RunnerState) : Bool :=
  match writer with
  | .failStart | .retryOrFail => st.status == .queued
  | .stopRetry => true
  | writer => writer.cleanupRetry

/-- The retries that wait for capacity or for a busy runner are not budgeted. -/
def budgetedRetry (writer : Writer) (st : RunnerState) : Bool :=
  automaticRetry writer st && !isQueueDeferFailure st.lastErrorCode &&
    !(writer.cleanupRetry && isGitHubRunnerBusyCleanup { message := st.lastErrorMessage })

def budgetedRetries : List RunnerEvent → String → Nat := tally budgetedRetry

end Retries

section Counter
variable {cfg : Config}

/-- From one value of the counter to the next, at a write that is budgeted or
not. -/
structure Counts (cfg : Config) (budgeted : Bool) (before after : Nat) : Prop where
  counted : before + budgeted.toNat ≤ after
  bounded : before ≤ cfg.retryMaxAttempts → after ≤ cfg.retryMaxAttempts

theorem counts_same {budgeted : Bool} (free : budgeted = false) (count : Nat) :
    Counts cfg budgeted count count := by
  subst free
  exact ⟨Nat.le_refl _, id⟩

theorem counts_next {count : Nat} (budgeted : Bool) (room : count < cfg.retryMaxAttempts) :
    Counts cfg budgeted count (count + 1) := by
  constructor
  · cases budgeted <;> simp
  · intro _
    omega

/-- The counter of an unbudgeted retry stops at the limit. -/
theorem counts_capped {budgeted : Bool} (free : budgeted = false) (count : Nat) :
    Counts cfg budgeted count
      (if count < cfg.retryMaxAttempts then count + 1 else count) := by
  split
  · rename_i room
    exact counts_next budgeted room
  · exact counts_same free count

theorem applyFailure_counts (now : Time) (st : RunnerState) (stage : String) (err : GoError)
    {writer : Writer} (fails : writer = .failStart ∨ writer = .retryOrFail) :
    Counts cfg (budgetedRetry writer (applyFailure cfg now st stage err true)) st.retryCount
      (applyFailure cfg now st stage err true).retryCount := by
  unfold applyFailure
  dsimp only
  split
  · rename_i deferred
    simp only [Bool.and_eq_true] at deferred
    apply counts_capped
    simp [budgetedRetry, deferred.2]
  · split
    · rename_i retried
      simp only [Bool.and_eq_true, decide_eq_true_eq] at retried
      exact counts_next _ retried.2
    · apply counts_same
      rcases fails with rfl | rfl
      · rfl
      · rfl

theorem scheduleStopRetry_counts {now : Time} {st next : RunnerState} {err : GoError}
    (scheduled : scheduleStopRetry cfg now st err = some next) (writer : Writer) :
    Counts cfg (budgetedRetry writer next) st.retryCount next.retryCount := by
  unfold scheduleStopRetry at scheduled
  dsimp only at scheduled
  split at scheduled
  · cases scheduled
  · rename_i room
    simp only [Bool.or_eq_true, decide_eq_true_eq, not_or] at room
    cases scheduled
    exact counts_next _ (by omega)

theorem scheduleCleanupRetry_counts {now : Time} {st next : RunnerState} {err : GoError}
    (scheduled : scheduleCleanupRetry cfg now st err = some next) {writer : Writer}
    (cleans : writer.cleanupRetry = true) :
    Counts cfg (budgetedRetry writer next) st.retryCount next.retryCount := by
  unfold scheduleCleanupRetry at scheduled
  dsimp only at scheduled
  split at scheduled
  · cases scheduled
  · split at scheduled
    · rename_i busy
      cases scheduled
      apply counts_capped
      have same : isGitHubRunnerBusyCleanup { message := err.message } = true := busy
      simp [budgetedRetry, cleans, cleanupRetryState, same]
    · split at scheduled
      · cases scheduled
      · rename_i room
        cases scheduled
        exact counts_next _ (by omega)

end Counter

section Edits
variable {server : Server} {past : List Answered}

theorem exits_retryCount {base st : RunnerState} {err cleanup : Option GoError}
    (exits : Exits past base st err cleanup) : st.retryCount = base.retryCount := by
  obtain ⟨_, result, now, -, rfl⟩ := exits.result
  unfold exitCleanedState exitedState
  cases err <;> cases cleanup <;> dsimp only <;> repeat' split
  all_goals rfl

theorem exitUnregisteredState_retryCount (st : RunnerState) (err : Option GoError)
    (cleanupErr : GoError) :
    (exitUnregisteredState st err cleanupErr).retryCount = st.retryCount := by
  cases err with
  | none => rfl
  | some err => rfl

/-- Every write of the server takes the counter on. -/
theorem edit_counts {writer : Writer} {base st : RunnerState}
    (edit : Edit server past writer base st) :
    Counts server.cfg (budgetedRetry writer st) base.retryCount st.retryCount := by
  cases edit with
  | failStart unstopped known err now => exact applyFailure_counts now base _ err (.inl rfl)
  | @failSnapshot base service refused err now =>
      exact applyFailure_counts now (snapshotState base service) _ err (.inl rfl)
  | retryOrFail unfinished seen known err now => exact applyFailure_counts now base _ err (.inr rfl)
  | stopRetry stopping scheduled => exact scheduleStopRetry_counts scheduled _
  | stopCleanupRetry ends scheduled => exact scheduleCleanupRetry_counts scheduled rfl
  | forceCleanupRetry ends scheduled => exact scheduleCleanupRetry_counts scheduled rfl
  | exitedCleanupRetry exits scheduled =>
      rw [← exits_retryCount exits]
      exact scheduleCleanupRetry_counts scheduled rfl
  | exited exits =>
      rw [← exits_retryCount exits]
      exact counts_same rfl _
  | exitedUnregistered exits cleanupErr registered =>
      rw [exitUnregisteredState_retryCount, ← exits_retryCount exits]
      exact counts_same rfl _
  | stopStopping locked uncompleted job =>
      have kept : (stopStoppingState base job).retryCount = base.retryCount := by
        unfold stopStoppingState recordAssignedJob
        split <;> rfl
      rw [kept]
      exact counts_same rfl _
  | completeWithoutSandbox unplaced job now =>
      have kept : (completeWithoutSandboxState base job now).retryCount = base.retryCount := by
        unfold completeWithoutSandboxState recordAssignedJob
        split <;> rfl
      rw [kept]
      exact counts_same rfl _
  | stopFinished ends now =>
      have kept : (stopFinishedState base now).retryCount = base.retryCount := by
        unfold stopFinishedState
        dsimp only
        split <;> rfl
      rw [kept]
      exact counts_same rfl _
  | _ => exact counts_same rfl _

end Edits

section Worlds
variable {server : Server} {condition : RunnerWorld → RunnerMove → Prop} {world : RunnerWorld}
  {table : RequestTable}

/-- What a row's counter says about its history. -/
structure Spent (cfg : Config) (trace : List RunnerEvent) (row : RunnerRequestRecord) : Prop where
  counted : budgetedRetries trace row.id ≤ row.retryCount
  bounded : row.retryCount ≤ cfg.retryMaxAttempts

theorem Change.retryCount {past : List Answered} {now : Time} {call : Answered}
    {row next : RunnerRequestRecord} (change : Change server past now call row next) :
    Counts server.cfg (wrote budgetedRetry row.id call) row.retryCount next.retryCount := by
  cases change with
  | written matched knows edit same =>
      simp only [versionMatches, Bool.and_eq_true, beq_iff_eq] at matched
      have count : row.retryCount = _ := congrArg Core.retryCount same
      rw [wrote_own matched.1.symm, count]
      exact edit_counts edit
  | claimed free => exact counts_same rfl _
  | released matched => exact counts_same rfl _
  | retried allowed named => exact counts_same rfl _

theorem spent_reachable (fresh : ∀ row ∈ table.rows, row.retryCount = 0)
    (reaches : (machine server).Reaches condition (opened table) world) :
    ∀ row ∈ world.state.table.rows, Spent server.cfg world.trace row := by
  apply history_invariant (Spent server.cfg) _ _ _ _ reaches
  · intro row member
    constructor
    · exact Nat.zero_le _
    · rw [fresh row member]
      exact Nat.zero_le _
  · intro world tid choice thread op resp state row before turn _ news absent
    cases news with
    | created =>
        constructor
        · rw [budgetedRetries, tally_cons, tally_absent before absent]
          exact Nat.le_refl _
        · exact Nat.zero_le _
  · intro world tid choice thread op resp state row _ turn _ here still spent
    constructor
    · rw [budgetedRetries, turn.sameTally here still]
      exact spent.counted
    · exact spent.bounded
  · intro world tid choice thread op resp state row next _ turn _ here spent change
    have counts := change.retryCount
    constructor
    · rw [budgetedRetries, tally_cons, change.sameID]
      have before : tally budgetedRetry world.trace row.id ≤ row.retryCount := spent.counted
      have after := counts.counted
      cases counted : wrote budgetedRetry row.id ⟨op, resp⟩ with
      | false =>
          simp only [counted, Bool.toNat_false] at after
          simp only [Bool.false_eq_true, if_false]
          omega
      | true =>
          simp only [counted, Bool.toNat_true] at after
          simp only [if_true]
          omega
    · exact counts.bounded spent.bounded

/-- No step lowers a counter. -/
theorem retryCount_step {after : RunnerWorld} {move : RunnerMove}
    (reaches : (machine server).Reaches condition (opened table) world)
    (stepped : (machine server).step world move = some after) {row : RunnerRequestRecord}
    (here : row ∈ world.state.table.rows) :
    ∃ next ∈ after.state.table.rows, next.id = row.id ∧ row.retryCount ≤ next.retryCount := by
  obtain ⟨tid, choice, thread, op, resp, rest, state, rfl, acts, rfl⟩ | ⟨task, rfl, _, rfl⟩ |
    ⟨rfl, rfl⟩ := (machine server).step_cases stepped
  · have turn := turn_of_acts (coherent_reachable reaches) acts
    obtain ⟨next, there, same, _⟩ := table_advances acts.answer row here
    refine ⟨next, there, same, ?_⟩
    rcases turn.next here there same with rfl | change
    · exact Nat.le_refl _
    · have counted := change.retryCount.counted
      omega
  · exact ⟨row, here, rfl, Nat.le_refl _⟩
  · exact ⟨row, here, rfl, Nat.le_refl _⟩

theorem retryCount_run {later : RunnerWorld}
    (reaches : (machine server).Reaches condition (opened table) world)
    (run : (machine server).Reaches condition world later) {row : RunnerRequestRecord}
    (here : row ∈ world.state.table.rows) :
    ∃ next ∈ later.state.table.rows, next.id = row.id ∧ row.retryCount ≤ next.retryCount := by
  induction run with
  | refl => exact ⟨row, here, rfl, Nat.le_refl _⟩
  | step move before _ stepped ih =>
      obtain ⟨middle, present, same, grown⟩ := ih
      obtain ⟨next, there, key, more⟩ := retryCount_step (reaches.trans before) stepped present
      exact ⟨next, there, key.trans same, grown.trans more⟩

/-- From requests that were never retried, every counter stays within
`RetryMaxAttempts`, no run lowers it, and the budgeted retries of a request's
whole life are at most as many. -/
theorem retry_budget (fresh : ∀ row ∈ table.rows, row.retryCount = 0)
    (reaches : (machine server).Reaches (fun _ _ => True) (opened table) world)
    {row : RunnerRequestRecord} (here : row ∈ world.state.table.rows) :
    row.retryCount ≤ server.cfg.retryMaxAttempts ∧
      budgetedRetries world.trace row.id ≤ server.cfg.retryMaxAttempts ∧
      ∀ later, (machine server).Reaches (fun _ _ => True) world later →
        ∃ next ∈ later.state.table.rows, next.id = row.id ∧ row.retryCount ≤ next.retryCount := by
  have spent := spent_reachable fresh reaches row here
  refine ⟨spent.bounded, spent.counted.trans spent.bounded, ?_⟩
  intro later run
  exact retryCount_run reaches run here

/-- One start fails and is retried. -/
theorem retry_budget_restarted :
    ∃ world row, (machine sampleServer).Reaches (fun _ _ => True) (opened .empty) world ∧
      row ∈ world.state.table.rows ∧ budgetedRetries world.trace row.id = 1 ∧
      row.retryCount ≤ 3 ∧ budgetedRetries world.trace row.id ≤ 3 := by
  have ran : ((machine sampleServer).runChecked (fun _ _ => true)
      (untilStart ++ turns 2 ({ started := .error { message := "status 503" } } :: plain 6))
      (opened .empty)).any (fun world => world.state.table.rows.any fun row =>
        decide (budgetedRetries world.trace row.id = 1)) = true := by decide +kernel
  obtain ⟨world, reaches, found⟩ := Machine.reaches_any ran
  simp only [List.any_eq_true, decide_eq_true_eq] at found
  obtain ⟨row, here, retried⟩ := found
  have fresh : ∀ row ∈ RequestTable.empty.rows, row.retryCount = 0 := by
    intro row member
    cases member
  obtain ⟨bounded, budget, _⟩ :=
    retry_budget fresh (reaches.weaken fun _ _ _ => True.intro) here
  exact ⟨world, row, reaches.weaken fun _ _ _ => True.intro, here, retried, bounded, budget⟩

end Worlds

end Runnerd
