import Runnerd.CompletionDeliveries
import Runnerd.Verdicts

/-!
Each delivery moves the row as its news moves the count, so a whole sequence of
deliveries does. The completion is therefore recorded once in some orders only:
a clean exit that comes after the `in_progress` event swallows it, and a row
that failed before is counted again by every duplicate.
-/

namespace Runnerd

open GoText Interaction

section Stops
variable {server : Server} {tid : Nat} {fair : Choice → Prop} {base row : RunnerRequestRecord}
  {locks : List Nat} {completions : Nat} {tally : Tally} {st : RunnerState} {job : WorkflowJob}
  {name : String}

theorem stopFinished_id (now : Time) : (stopFinishedState st now).id = st.id := by
  unfold stopFinishedState
  split <;> rfl

theorem stopFinished_version (now : Time) : (stopFinishedState st now).version = st.version := by
  unfold stopFinishedState
  split <;> rfl

theorem serves_stopCleanup (smooth : ∀ choice, fair choice → choice.Smooth)
    (standing : Standing row locks completions tally) (named : row.id ≠ "")
    (same : st.id = row.id) (current : st.version = row.version)
    (matching : workflowJobMismatch st job = false) :
    Serves (tallied server tid) fair (stopCleanup server st job) tally fun answer last =>
      ∃ now later, Standing (stateUpdates (stopFinishedState st now) later row) locks completions
        last ∧ answer = .ok (stopFinishedState st now, true) := by
  unfold stopCleanup
  refine serves_seq (serves_mono ?_ (serves_cleanupGitHub smooth st))
  rintro _ _ ⟨rfl, rfl⟩
  dsimp only
  unfold stopVerdict
  rw [if_neg (by simp [matching])]
  refine serves_now fun now => ?_
  dsimp only
  refine serves_write smooth standing named ((stopFinished_id now).trans same)
    ((stopFinished_version now).trans current) fun later after stands => ?_
  exact serves_return ⟨now, later, stands, rfl⟩

theorem serves_stopMarked (smooth : ∀ choice, fair choice → choice.Smooth)
    (standing : Standing row locks completions tally) {id : String} (own : row.id = id)
    (named : row.id ≠ "")
    (same : st.id = row.id) (current : st.version = row.version)
    (matching : workflowJobMismatch st job = false) :
    Serves (tallied server tid) fair (stopMarked server id st job) tally fun answer last =>
      ∃ now later, Standing (stateUpdates (stopFinishedState st now) later row) locks completions
        last ∧ answer = .ok (stopFinishedState st now, true) := by
  have cleaned : Serves (tallied server tid) fair (stopCleanup server st job) tally _ :=
    serves_stopCleanup smooth standing named same current matching
  unfold stopMarked
  split
  · exact cleaned
  · refine serves_seq (serves_mono ?_ (serves_stopSandbox smooth standing own st.processPID))
    rintro answer _ ⟨rfl, gone⟩
    cases answer with
    | none => exact cleaned
    | some err =>
        simp only [Option.all_some] at gone
        simp only [gone, if_true]
        exact cleaned

/-- The own job's runner makes its completion safe to apply. -/
theorem own_unconflicted (owns : OwnsJob base) (own : JobEvent.Own base name (.completed job))
    (same : SameJob base st) : workflowJobStopConflictsWithAssignment st job = false := by
  obtain ⟨_, _, ran⟩ := own
  unfold workflowJobStopConflictsWithAssignment
  split
  · rfl
  · rw [if_pos]
    simp [ran, same.runner, owns.nonblank]

theorem own_matches (own : JobEvent.Own base name (.completed job))
    (same : SameJob base st) : workflowJobMismatch st job = false := by
  obtain ⟨identified, _, _⟩ := own
  simp [workflowJobMismatch, identified, same.job]

/-- A row that a completion stops, against what the news does to the count. -/
theorem stopped_counts (nonzero : job.id ≠ 0) (own : job.id = st.workflowJobID)
    (open_ : st.status ≠ .completed) (now : Time) (completions : Nat) :
    jobCount job.name (stopFinishedState (stopStoppingState st job).advanced now)
        (completions + 1) = (jobCount job.name st completions).step .finished := by
  have phase : (jobCount job.name st completions).phase ≠ .completed := by
    cases status : st.status <;> simp_all [jobCount]
  have marked : jobCount job.name (stopStoppingState st job).advanced (completions + 1) =
      { jobCount job.name st completions with
        phase := .underway, noted := true, recorded := completions + 1 } :=
    calc
      _ = { jobCount job.name (recordAssignedJob st job) (completions + 1) with
            phase := .underway } := rfl
      _ = _ := by
        rw [jobCount_recorded nonzero own]
        rfl
  rw [jobCount_stopFinished, marked, JobCount.step_ends phase]
  rfl

/-- The answer says whether the stop counts, and the row moves as the count. -/
theorem serves_stopRunner (owns : OwnsJob base) (smooth : ∀ choice, fair choice → choice.Smooth)
    (own : JobEvent.Own base name (.completed job)) (standing : Standing row locks completions tally)
    (continues : GoesOn base name row.toRunnerState) (free : lockStripe base.id ∉ locks) :
    Serves (tallied server tid) fair (stopRunner server base.id job) tally fun answer last =>
      ∃ next same, Standing next locks same last ∧ (same = completions ∧
        GoesOn base name next.toRunnerState ∧ ∃ st counted, answer = .ok (st, counted) ∧
          jobCount name next.toRunnerState (completions + counted.toNat) =
            (jobCount name row.toRunnerState completions).step .finished) := by
  refine serves_withRunnerLock standing free fun locked stands => ?_
  obtain ⟨identified, titled, ran⟩ := id own
  have ownID : job.id = row.workflowJobID := identified.trans continues.job.symm
  have nonzero : job.id ≠ 0 := identified ▸ owns.jobbed
  have named : row.id ≠ "" := continues.id ▸ owns.named
  have noting := shouldRecord_noted nonzero ownID completions
  rw [titled] at noting
  unfold stopLocked
  refine serves_read smooth stands continues.id ?_
  dsimp only
  rw [if_neg (by simp [own_unconflicted owns own continues.toSameJob])]
  by_cases ended : row.status = .completed
  · -- completed before: at most the name of the job is still to be noted
    rw [if_pos ended]
    have phase : (jobCount name row.toRunnerState completions).phase = .completed := by
      simp [jobCount, ended]
    cases noted : (jobCount name row.toRunnerState completions).noted with
    | true =>
        rw [noted] at noting
        rw [if_neg (by simp [noting])]
        refine serves_return ⟨row, completions, stands, rfl, continues, _, _, rfl, ?_⟩
        simp [JobCount.step, phase, noted]
    | false =>
        rw [noted] at noting
        rw [if_pos (by simp [noting])]
        refine serves_write smooth stands named (by rfl) (by rfl) fun now after written => ?_
        refine serves_return ⟨_, completions, written, rfl, ?_, _, _, rfl, ?_⟩
        · refine goesOn_written owns now continues.toSameJob ⟨⟨continues.id, continues.job,
            continues.runner, continues.repository⟩, continues.queued, continues.stopping, ?_⟩
          intro _ nameless
          rw [← titled]
          exact nameless
        · rw [jobCount_written _ _ (by rfl), ← titled, jobCount_assigned ownID, titled,
            JobCount.step_unnoted phase noted]
          rfl
  · rw [if_neg ended]
    have started : (stopStoppingState row.toRunnerState job).id = row.id ∧
        (stopStoppingState row.toRunnerState job).version = row.version := by
      unfold stopStoppingState recordAssignedJob
      split <;> exact ⟨rfl, rfl⟩
    refine serves_write smooth stands named started.1 started.2 fun now after written => ?_
    have stopping : SameJob base (stopStoppingState row.toRunnerState job) := by
      have recorded : SameJob base (recordAssignedJob row.toRunnerState job) :=
        sameJob_recorded continues.toSameJob
      exact ⟨recorded.id, recorded.job, recorded.runner, recorded.repository⟩
    have stopped : SameJob base (stopStoppingState row.toRunnerState job).advanced :=
      ⟨stopping.id, stopping.job, stopping.runner, stopping.repository⟩
    refine serves_mono ?_ (serves_stopMarked smooth written continues.id named started.1 rfl
      (own_matches own stopped))
    rintro answer last ⟨finished, later, stands, rfl⟩
    have counts := stopped_counts nonzero ownID ended finished completions
    rw [titled] at counts
    have noted : (jobCount name (stopFinishedState (stopStoppingState row.toRunnerState job).advanced
        finished) (completions + 1)).noted = true := by
      rw [counts]
      exact JobCount.step_notes _
    have before := sameJob_written owns now continues.toSameJob stopping
    have kept := sameJob_stopFinished finished stopped
    have settled : (stopFinishedState (stopStoppingState row.toRunnerState job).advanced
        finished).status ≠ .queued ∧ _ := stopFinished_settled finished
    refine ⟨_, _, stands, rfl, ?_, _, _, rfl, ?_⟩
    · exact goesOn_written owns later before
        ⟨kept, settled.1, settled.2, fun _ nameless => noted_nameless noted nameless⟩
    · rw [jobCount_written _ _ (kept.job.trans before.job.symm)]
      exact counts

end Stops

section Events
variable {server : Server} {tid : Nat} {fair : Choice → Prop} {base : RunnerRequestRecord}
  {locks : List Nat} {count : JobCount} {tally : Tally} {st : RunnerState} {job : WorkflowJob}
  {name : String}

/-- The row and the tally stand as the count says. -/
def StandsAs (base : RunnerRequestRecord) (name : String) (locks : List Nat) (count : JobCount)
    (tally : Tally) : Prop :=
  ∃ row, Standing row locks count.recorded tally ∧ GoesOn base name row.toRunnerState ∧
    jobCount name row.toRunnerState count.recorded = count

theorem counted_row {row : RunnerRequestRecord} {completions : Nat}
    (standing : Standing row locks completions tally)
    (continues : GoesOn base name row.toRunnerState)
    (counts : jobCount name row.toRunnerState completions = count) :
    StandsAs base name locks count tally := by
  subst counts
  exact ⟨row, standing, continues, rfl⟩

theorem stopID_own (owns : OwnsJob base) (ran : job.runnerName = base.runnerName) :
    completedWorkflowJobStopID job = return base.id := by
  rw [completedWorkflowJobStopID, ran, if_pos owns.prefixed, owns.stripped]

theorem serves_completed (owns : OwnsJob base) (smooth : ∀ choice, fair choice → choice.Smooth)
    (own : JobEvent.Own base name (.completed job)) (counted : StandsAs base name locks count tally)
    (free : lockStripe base.id ∉ locks) :
    Serves (tallied server tid) fair (workflowJobCompleted server job) tally fun _ last =>
      StandsAs base name locks (count.step .finished) last := by
  obtain ⟨row, standing, continues, same⟩ := counted
  unfold workflowJobCompleted
  rw [stopID_own owns own.2.2]
  refine serves_seq (serves_return ?_)
  rw [if_neg owns.named]
  refine serves_seq (serves_mono ?_ (serves_stopRunner owns smooth own standing continues free))
  rintro answer last ⟨next, _, stands, rfl, goesOn, st, records, rfl, counts⟩
  rw [same] at counts
  cases records with
  | false => exact serves_return (counted_row stands goesOn counts)
  | true =>
      apply serves_last
      intro choice _
      refine ⟨(), ⟨last.state, last.completions + 1⟩, rfl, counted_row ?_ goesOn counts⟩
      exact ⟨stands.present, stands.held, congrArg (· + 1) stands.counted⟩

theorem serves_inProgress (owns : OwnsJob base) (smooth : ∀ choice, fair choice → choice.Smooth)
    (own : JobEvent.Own base name (.inProgress job)) (counted : StandsAs base name locks count tally)
    (free : lockStripe base.id ∉ locks) :
    Serves (tallied server tid) fair (workflowJobInProgress job) tally fun _ last =>
      StandsAs base name locks (count.step .started) last := by
  obtain ⟨row, standing, continues, same⟩ := counted
  obtain ⟨identified, titled, ran⟩ := own
  have ownID : job.id = row.workflowJobID := identified.trans continues.job.symm
  have nonzero : job.id ≠ 0 := identified ▸ owns.jobbed
  have noting := shouldRecord_noted nonzero ownID count.recorded
  rw [titled, same] at noting
  unfold workflowJobInProgress
  rw [stopID_own owns ran]
  refine serves_seq (serves_return ?_)
  rw [if_neg owns.named]
  apply serves_seq
  have marked : Serves (tallied server tid) fair (markWorkflowJobInProgress base.id job) tally
      fun _ last => ∃ next recorded, Standing next locks recorded last ∧
        (recorded = count.recorded ∧ GoesOn base name next.toRunnerState ∧
          jobCount name next.toRunnerState count.recorded = count.step .started) := by
    refine serves_withRunnerLock standing free fun locked stands => ?_
    refine serves_read smooth stands continues.id ?_
    dsimp only
    by_cases ended : row.status = .completed
    · rw [if_pos (.inl ended)]
      refine serves_return ⟨row, _, stands, rfl, continues, ?_⟩
      have phase : count.phase = .completed := by
        rw [← same]
        simp [jobCount, ended]
      simp [JobCount.step, phase, same]
    · rw [if_neg (by simp [ended, continues.stopping])]
      have phase : count.phase ≠ .completed := by
        rw [← same]
        cases status : row.status <;> simp_all [jobCount]
      cases noted : count.noted with
      | true =>
          rw [noted] at noting
          rw [if_neg (by simp [noting])]
          refine serves_return ⟨row, _, stands, rfl, continues, ?_⟩
          rw [JobCount.step, if_neg phase, same, ← noted]
      | false =>
          rw [noted] at noting
          rw [if_pos (by simp [noting])]
          refine serves_write smooth stands (continues.id ▸ owns.named) (by rfl) (by rfl)
            fun now after written => ?_
          refine serves_return ⟨_, _, written, rfl, ?_, ?_⟩
          · refine goesOn_written owns now continues.toSameJob ⟨⟨continues.id, continues.job,
              continues.runner, continues.repository⟩, continues.queued, continues.stopping, ?_⟩
            intro _ nameless
            rw [← titled]
            exact nameless
          · rw [jobCount_written _ _ (by rfl), ← titled, jobCount_assigned ownID, titled, same,
              JobCount.step, if_neg phase]
  refine serves_mono ?_ marked
  rintro _ last ⟨next, _, stands, rfl, goesOn, counts⟩
  exact serves_return (counted_row stands goesOn counts)

end Events

section Exits
variable {server : Server} {tid : Nat} {fair : Choice → Prop} {base row : RunnerRequestRecord}
  {locks : List Nat} {count : JobCount} {completions : Nat} {tally : Tally} {st : RunnerState}
  {name : String} {result : ExitResult} {err : Option GoError}
  {runners : Except GoError (List GitHubRunner)}

/-- The row as a runner's exit leaves it when its cleanup succeeds. -/
def exitedRow (st : RunnerState) (result : ExitResult) (err : Option GoError) (now : Time) :
    RunnerState :=
  exitCleanedState (exitedState st result err) err none now

theorem exitedRow_clean (clean : shouldCheckGitHubBusyAfterRunnerExit result err = false)
    (active : st.status = .creating ∨ st.status = .running) (now : Time) :
    exitedRow st result err now = { st with status := .completed, completedAt := some now } := by
  cases err with
  | some err => cases clean
  | none =>
      have zero : result.exitCode = 0 := by
        simpa [shouldCheckGitHubBusyAfterRunnerExit] using clean
      have unfailed : st.status ≠ .failed := by
        rcases active with creating | running
        · simp [creating]
        · simp [running]
      simp [exitedRow, exitedState, exitCleanedState, zero, unfailed]

theorem exitedRow_failing (failing : shouldCheckGitHubBusyAfterRunnerExit result err = true)
    (now : Time) :
    ∃ error reason, exitedRow st result err now =
      { st with
        status := .failed, failureStage := "runner_exit", failureReason := reason,
        error := error } := by
  cases err with
  | some err => exact ⟨_, _, rfl⟩
  | none =>
      have nonzero : result.exitCode ≠ 0 := by
        simpa [shouldCheckGitHubBusyAfterRunnerExit] using failing
      refine ⟨runnerExitMessage result, toString result.exitCode, ?_⟩
      rw [exitedRow, exitedState]
      simp only [if_neg nonzero]
      rfl

theorem serves_exitLocked (owns : OwnsJob base) (smooth : ∀ choice, fair choice → choice.Smooth)
    (standing : Standing row locks completions tally)
    (continues : GoesOn base name row.toRunnerState)
    (active : row.status = .creating ∨ row.status = .running) :
    Serves (tallied server tid) fair (exitLocked server base.id row.toRunnerState result err) tally
      fun _ last => ∃ next, Standing next locks completions last ∧
        GoesOn base name next.toRunnerState ∧ jobCount name next.toRunnerState completions =
          (jobCount name row.toRunnerState completions).step
            (if shouldCheckGitHubBusyAfterRunnerExit result err then .exitedFailing
              else .exitedCleanly) := by
  have phase : (jobCount name row.toRunnerState completions).phase = .underway :=
    phase_active active completions
  unfold exitLocked
  refine serves_seq (serves_mono ?_ (serves_cleanupSandbox smooth standing continues.id _))
  rintro _ _ ⟨rfl, rfl⟩
  unfold exitCleaned
  refine serves_now fun now => ?_
  refine serves_seq (serves_mono ?_ (serves_cleanupGitHub smooth _))
  rintro _ _ ⟨rfl, rfl⟩
  change Serves _ _ (writeStateOrLog .exited (exitedRow row.toRunnerState result err now)) _ _
  unfold writeStateOrLog
  cases failing : shouldCheckGitHubBusyAfterRunnerExit result err with
  | false =>
      rw [exitedRow_clean failing active]
      refine serves_write smooth standing (continues.id ▸ owns.named) (by rfl) (by rfl)
        fun later after written => serves_return ⟨_, written, ?_, ?_⟩
      · exact goesOn_written owns later continues.toSameJob ⟨⟨continues.id, continues.job,
          continues.runner, continues.repository⟩, by simp, by simp, continues.nameless⟩
      · rw [jobCount_written _ _ (by rfl)]
        simp only [JobCount.step, phase]
        rfl
  | true =>
      obtain ⟨error, reason, same⟩ := exitedRow_failing failing now
      rw [same]
      refine serves_write smooth standing (continues.id ▸ owns.named) (by rfl) (by rfl)
        fun later after written => serves_return ⟨_, written, ?_, ?_⟩
      · exact goesOn_written owns later continues.toSameJob ⟨⟨continues.id, continues.job,
          continues.runner, continues.repository⟩, by simp, by simp, continues.nameless⟩
      · rw [jobCount_written _ _ (by rfl)]
        simp only [JobCount.step, phase]
        rfl

theorem keepRunning_named (message : String) : (keepRunningState st message).assignedJobName ≠ "" := by
  simp only [keepRunningState]
  split
  · decide
  · assumption

/-- The note that a runner goes on overwrites the name of a nameless job. -/
theorem jobCount_keepRunning (underway : (jobCount name st completions).phase = .underway)
    (nameless : st.assignedJobID = st.workflowJobID → st.assignedJobName = "" → name = "")
    (message : String) :
    jobCount name (keepRunningState st message) completions =
      (jobCount name st completions).step (.kept (name == "")) := by
  have noted : (jobCount name (keepRunningState st message) completions).noted =
      ((jobCount name st completions).noted && !(name == "")) := by
    by_cases empty : st.assignedJobName = ""
    · by_cases untitled : name = ""
      · simp [jobCount, keepRunningState, empty, untitled, runnerJobStartedMarker]
      · have elsewhere : st.assignedJobID ≠ st.workflowJobID := fun own =>
          untitled (nameless own empty)
        have unowned : (st.assignedJobID == st.workflowJobID) = false := beq_false_of_ne elsewhere
        simp [jobCount, keepRunningState, unowned]
    · by_cases untitled : name = ""
      · simp [jobCount, keepRunningState, empty, untitled]
      · simp [jobCount, keepRunningState, empty, untitled]
  rw [JobCount.step, if_pos underway, ← noted, underway]
  rfl

theorem serves_githubRunnerBusy (asked : ∀ choice, fair choice → choice.runners = runners)
    (named : trimSpace st.runnerName ≠ "") :
    Serves (tallied server tid) fair (githubRunnerBusy st) tally fun answer last =>
      last = tally ∧ (answer = .ok true ↔ reportsBusy st runners = true) := by
  unfold githubRunnerBusy
  by_cases homeless : trimSpace st.repositoryFullName = ""
  · rw [if_pos (.inr homeless)]
    exact serves_return ⟨rfl, by simp [reportsBusy, homeless]⟩
  · rw [if_neg (by simp [named, homeless])]
    apply serves_call
    intro choice isFair
    refine ⟨choice.runners, tally, by simp [tallied, respond, recordings], ?_⟩
    rw [asked choice isFair]
    cases runners with
    | error failure => exact serves_return ⟨rfl, by simp [reportsBusy]⟩
    | ok listed => exact serves_return ⟨rfl, by simp [reportsBusy, homeless]⟩

/-- Either the runner is kept and the row notes it, or nothing happens. -/
theorem serves_keepRunning (owns : OwnsJob base) (smooth : ∀ choice, fair choice → choice.Smooth)
    (asked : ∀ choice, fair choice → choice.runners = runners)
    (standing : Standing row locks completions tally)
    (continues : GoesOn base name row.toRunnerState)
    (active : row.status = .creating ∨ row.status = .running)
    (free : lockStripe base.id ∉ locks) :
    Serves (tallied server tid) fair
      (keepRunnerRunningWhenGitHubBusy base.id row.toRunnerState result err) tally
      fun kept last => ∃ next, Standing next locks completions last ∧
        GoesOn base name next.toRunnerState ∧ kept = reportsBusy row.toRunnerState runners ∧
          (kept = false → next = row) ∧
          (kept = true → jobCount name next.toRunnerState completions =
            (jobCount name row.toRunnerState completions).step (.kept (name == ""))) := by
  have phase : (jobCount name row.toRunnerState completions).phase = .underway :=
    phase_active active completions
  have named : trimSpace row.runnerName ≠ "" := by
    rw [continues.runner]
    exact owns.nonblank
  unfold keepRunnerRunningWhenGitHubBusy
  refine serves_seq (serves_mono ?_ (serves_githubRunnerBusy asked named))
  rintro answer _ ⟨rfl, busy⟩
  rcases answer with failure | answer
  · have idle : reportsBusy row.toRunnerState runners = false := by simpa using busy
    exact serves_return ⟨row, standing, continues, idle.symm, fun _ => rfl, by simp⟩
  cases answer with
  | false =>
      have idle : reportsBusy row.toRunnerState runners = false := by simpa using busy
      exact serves_return ⟨row, standing, continues, idle.symm, fun _ => rfl, by simp⟩
  | true =>
      have kept : reportsBusy row.toRunnerState runners = true := busy.mp rfl
      refine serves_mono ?_ (?_ : Serves _ _ _ _ fun value last => ∃ next recorded,
        Standing next locks recorded last ∧ (value = true ∧ recorded = completions ∧
          GoesOn base name next.toRunnerState ∧ jobCount name next.toRunnerState completions =
            (jobCount name row.toRunnerState completions).step (.kept (name == ""))))
      · rintro _ last ⟨next, _, stands, rfl, rfl, goesOn, counts⟩
        exact ⟨next, stands, goesOn, kept.symm, by simp, fun _ => counts⟩
      refine serves_withRunnerLock standing free fun locked stands => ?_
      refine serves_read smooth stands continues.id ?_
      dsimp only
      rw [if_neg (by rcases active with creating | running <;> simp [*]), if_neg (by simp)]
      refine serves_write smooth stands (continues.id ▸ owns.named) (by rfl) (by rfl)
        fun now after written => serves_return ⟨_, _, written, rfl, rfl, ?_, ?_⟩
      · refine goesOn_written owns now continues.toSameJob ⟨⟨continues.id, continues.job,
          continues.runner, continues.repository⟩, by simp [keepRunningState],
          by simp [keepRunningState], fun _ nameless => ?_⟩
        exact absurd nameless (keepRunning_named _)
      · rw [jobCount_written _ _ (by rfl)]
        exact jobCount_keepRunning phase continues.nameless _

theorem reportsBusy_same (same : SameJob base st) :
    reportsBusy st runners = reportsBusy base.toRunnerState runners := by
  simp [reportsBusy, same.runner, same.repository]

theorem serves_exited (owns : OwnsJob base) (smooth : ∀ choice, fair choice → choice.Smooth)
    (asked : ∀ choice, fair choice → choice.runners = runners)
    (counted : StandsAs base name locks count tally) (free : lockStripe base.id ∉ locks) :
    Serves (tallied server tid) fair (runnerExited server base.id result err) tally fun _ last =>
      StandsAs base name locks (count.step ((JobEvent.exited result err runners).news base name))
        last := by
  obtain ⟨row, standing, continues, same⟩ := counted
  have busy : reportsBusy row.toRunnerState runners = reportsBusy base.toRunnerState runners :=
    reportsBusy_same continues.toSameJob
  unfold runnerExited
  refine serves_lock standing free fun locked stands => ?_
  refine serves_read smooth stands continues.id ?_
  dsimp only
  by_cases idle : row.status ≠ .creating ∧ row.status ≠ .running
  · -- the row has ended, so the exit is old news
    have phase : count.phase ≠ .underway := by
      rw [← same]
      exact phase_idle continues idle count.recorded
    have unmoved : count.step ((JobEvent.exited result err runners).news base name) = count := by
      simp only [JobEvent.news]
      split
      · exact if_neg phase
      · split
        · exact if_neg phase
        · exact if_neg phase
    rw [if_pos idle, unmoved]
    apply serves_last
    intro choice _
    obtain ⟨last, answered, released⟩ := unlocked stands choice
    exact ⟨(), last, answered, row, released, continues, same⟩
  have active : row.status = .creating ∨ row.status = .running := by
    by_cases creating : row.status = .creating
    · exact .inl creating
    · exact .inr (by_contra fun other => idle ⟨creating, other⟩)
  -- what the last section under the lock does
  have ends : ∀ (middle : Tally), Standing row (lockStripe base.id :: locks) count.recorded middle →
      Serves (tallied server tid) fair (do
        exitLocked server base.id row.toRunnerState result err
        unlockRunner base.id) middle fun _ last => StandsAs base name locks
          (count.step (if shouldCheckGitHubBusyAfterRunnerExit result err then .exitedFailing
            else .exitedCleanly)) last := by
    intro middle held
    refine serves_seq (serves_mono ?_ (serves_exitLocked owns smooth held continues active))
    rintro _ after ⟨next, stood, goesOn, counts⟩
    apply serves_last
    intro choice _
    obtain ⟨last, answered, released⟩ := unlocked stood choice
    rw [same] at counts
    exact ⟨(), last, answered, counted_row released goesOn counts⟩
  rw [if_neg idle]
  cases failing : shouldCheckGitHubBusyAfterRunnerExit result err with
  | false =>
      have settled := ends locked stands
      rw [failing] at settled
      simpa [JobEvent.news, failing] using settled
  | true =>
      -- GitHub is asked without the lock, so the row is read once more after it
      rw [if_pos rfl]
      refine serves_unlock stands fun free' released => ?_
      refine serves_seq (serves_mono ?_ (serves_keepRunning owns smooth asked released continues
        active free))
      rintro kept after ⟨next, stood, goesOn, told, left, counts⟩
      cases kept with
      | true =>
          rw [same] at counts
          refine serves_return (counted_row stood goesOn ?_)
          simpa [JobEvent.news, failing, ← busy, ← told] using counts rfl
      | false =>
          obtain rfl := left rfl
          rw [if_neg (by simp)]
          refine serves_lock stood free fun relocked held => ?_
          refine serves_read smooth held continues.id ?_
          dsimp only
          rw [if_neg idle]
          have settled := ends relocked held
          rw [failing] at settled
          simpa [JobEvent.news, failing, ← busy, ← told] using settled

end Exits

section Runs
variable {server : Server} {base : RunnerRequestRecord} {name : String} {locks : List Nat}

theorem answeredBy_smooth {event : JobEvent} {choice : Choice} (answers : event.AnsweredBy choice) :
    choice.Smooth := by
  cases event with
  | exited result err runners => exact answers.1
  | inProgress job => exact answers
  | completed job => exact answers

/-- One delivery moves the row as its news moves the count. -/
theorem deliver_counted (owns : OwnsJob base) {delivery : Delivery}
    (own : delivery.event.Own base name)
    (answered : ∀ index, delivery.event.AnsweredBy (delivery.choices index)) {count : JobCount}
    {tally : Tally} (counted : StandsAs base name locks count tally)
    (free : lockStripe base.id ∉ locks) :
    ∃ last, deliver server base.id tally delivery = some last ∧
      StandsAs base name locks (count.step (delivery.event.news base name)) last := by
  have served : Serves (tallied server delivery.tid) delivery.event.AnsweredBy
      (delivery.event.program server base.id) tally fun _ last =>
        StandsAs base name locks (count.step (delivery.event.news base name)) last := by
    have smooth : ∀ choice, delivery.event.AnsweredBy choice → choice.Smooth :=
      fun _ answers => answeredBy_smooth answers
    cases event : delivery.event with
    | exited result err runners =>
        rw [event] at smooth
        exact serves_exited owns smooth (fun _ answers => answers.2) counted free
    | inProgress job =>
        rw [event] at smooth own
        exact serves_inProgress owns smooth own counted free
    | completed job =>
        rw [event] at smooth own
        exact serves_completed owns smooth own counted free
  obtain ⟨_, last, ran, holds⟩ := served delivery.choices answered
  exact ⟨last, by rw [deliver, ran]; rfl, holds⟩

theorem deliverAll_counted (owns : OwnsJob base) (free : lockStripe base.id ∉ locks)
    (deliveries : List Delivery)
    (own : ∀ delivery ∈ deliveries, delivery.event.Own base name)
    (answered : ∀ delivery ∈ deliveries, ∀ index,
      delivery.event.AnsweredBy (delivery.choices index))
    {count : JobCount} {tally : Tally} (counted : StandsAs base name locks count tally) :
    ∃ last, deliverAll server base.id tally deliveries = some last ∧
      StandsAs base name locks
        (count.run (deliveries.map fun delivery => delivery.event.news base name)) last := by
  induction deliveries generalizing count tally with
  | nil => exact ⟨tally, rfl, counted⟩
  | cons delivery rest ih =>
      obtain ⟨middle, served, holds⟩ := deliver_counted owns (own _ List.mem_cons_self)
        (answered _ List.mem_cons_self) counted free
      obtain ⟨last, ran, done⟩ := ih (fun other member => own other (List.mem_cons_of_mem _ member))
        (fun other member => answered other (List.mem_cons_of_mem _ member)) holds
      refine ⟨last, ?_, done⟩
      rw [deliverAll, List.foldlM_cons, served]
      exact ran

/-- Deliveries about the own job of a row that is creating or running, at least
one of its completion, with every stop and cleanup succeeding. -/
structure Delivers (base : RunnerRequestRecord) (name : String) (tally : Tally)
    (deliveries : List Delivery) : Prop where
  owns : OwnsJob base
  present : base ∈ tally.state.table.rows
  active : base.status = .creating ∨ base.status = .running
  unassigned : base.assignedJobID ≠ base.workflowJobID
  free : lockStripe base.id ∉ tally.state.runnerLocks
  own : ∀ delivery ∈ deliveries, delivery.event.Own base name
  answered : ∀ delivery ∈ deliveries, ∀ index, delivery.event.AnsweredBy (delivery.choices index)
  delivered : ∃ delivery ∈ deliveries, ∃ job, delivery.event = .completed job

/-- The completion is recorded once exactly in the orders that count once. -/
theorem completion_recorded_once_iff {tally : Tally} {deliveries : List Delivery}
    (delivers : Delivers base name tally deliveries) :
    ∃ last, deliverAll server base.id tally deliveries = some last ∧
      (last.completions = tally.completions + 1 ↔
        CountsOnce (base.failureStage != "" && base.failureStage != "cleanup") false
          (deliveries.map fun delivery => delivery.event.news base name)) := by
  have apart : (base.assignedJobID == base.workflowJobID) = false :=
    beq_false_of_ne delivers.unassigned
  have underway : (jobCount name base.toRunnerState tally.completions).phase = .underway :=
    phase_active delivers.active tally.completions
  have counted : StandsAs base name tally.state.runnerLocks
      (jobCount name base.toRunnerState tally.completions) tally := by
    refine counted_row ⟨delivers.present, rfl, rfl⟩ ⟨⟨rfl, rfl, rfl, rfl⟩, ?_, ?_, ?_⟩ rfl
    · rcases delivers.active with creating | running <;> simp [*]
    · rcases delivers.active with creating | running <;> simp [*]
    · exact fun own => absurd own delivers.unassigned
  obtain ⟨last, ran, row, stands, _, _⟩ := deliverAll_counted delivers.owns delivers.free deliveries
    delivers.own delivers.answered counted
  refine ⟨last, ran, ?_⟩
  have finished : .finished ∈ deliveries.map fun delivery => delivery.event.news base name := by
    obtain ⟨delivery, member, job, event⟩ := delivers.delivered
    exact List.mem_map.mpr ⟨delivery, member, by rw [event]; rfl⟩
  rw [stands.counted]
  refine (JobCount.run_underway _ _ underway finished).trans ?_
  simp [jobCount, apart]

end Runs

section Samples

def sampleDelivery (event : JobEvent) : Delivery where
  event := event
  tid := 0
  choices := fun _ => {}

def buildJob : WorkflowJob := { sampleJob 1 with name := "build", status := "completed" }

def cleanExit : JobEvent := .exited {} none (.ok [])

def ranBuild : RunnerRequestRecord where
  id := "1"
  status := .running
  sandboxID := "sbx"
  repositoryFullName := "owner/repo"
  runnerName := "e2b-1"
  workflowJobID := 1
  version := 1

theorem sample_delivers {events : List JobEvent} (own : ∀ event ∈ events, event.Own ranBuild "build")
    (plain : ∀ event ∈ events, event.AnsweredBy {})
    (delivered : .completed buildJob ∈ events) :
    Delivers ranBuild "build" ⟨{ table := runningTable }, 0⟩ (events.map sampleDelivery) where
  owns := ⟨by decide, by decide, by decide, by decide⟩
  present := by decide
  active := .inr rfl
  unassigned := by decide
  free := by decide
  own := by simpa [sampleDelivery] using own
  answered := by simpa [sampleDelivery] using plain
  delivered := ⟨sampleDelivery (.completed buildJob), List.mem_map_of_mem delivered, buildJob, rfl⟩

theorem sample_smooth : ({} : Choice).Smooth := ⟨rfl, ⟨_, rfl⟩, rfl, rfl⟩

/-- A completion that comes before the exit is recorded once, however often it
is delivered. -/
theorem completion_recorded_once_duplicate :
    ∃ last, deliverAll sampleServer "1" ⟨{ table := runningTable }, 0⟩
        ([.inProgress buildJob, .completed buildJob, cleanExit, .completed buildJob].map
          sampleDelivery) = some last ∧ last.completions = 1 := by
  have delivers : Delivers ranBuild "build" ⟨{ table := runningTable }, 0⟩
      ([.inProgress buildJob, .completed buildJob, cleanExit, .completed buildJob].map
        sampleDelivery) :=
    sample_delivers (by simp [JobEvent.Own, cleanExit, buildJob, ranBuild, sampleJob])
      (by simp [JobEvent.AnsweredBy, cleanExit, sample_smooth]) (by simp)
  obtain ⟨last, ran, once⟩ := completion_recorded_once_iff delivers
  exact ⟨last, ran, once.mpr (by decide)⟩

/-- A clean exit between the `in_progress` event and the completion leaves
nothing to record. -/
theorem clean_exit_swallows_completion :
    ¬∀ (server : Server) (base : RunnerRequestRecord) (name : String) (tally : Tally)
        (deliveries : List Delivery), Delivers base name tally deliveries →
      ∃ last, deliverAll server base.id tally deliveries = some last ∧
        last.completions = tally.completions + 1 := by
  intro always
  have delivers : Delivers ranBuild "build" ⟨{ table := runningTable }, 0⟩
      ([.inProgress buildJob, cleanExit, .completed buildJob].map sampleDelivery) :=
    sample_delivers (by simp [JobEvent.Own, cleanExit, buildJob, ranBuild, sampleJob])
      (by simp [JobEvent.AnsweredBy, cleanExit, sample_smooth]) (by simp)
  obtain ⟨last, ran, once⟩ := always sampleServer _ _ _ _ delivers
  have unrecorded : (deliverAll sampleServer "1" ⟨{ table := runningTable }, 0⟩
      ([.inProgress buildJob, cleanExit, .completed buildJob].map sampleDelivery)).map
        Tally.completions = some 0 := by decide +kernel
  change deliverAll sampleServer "1" _ _ = some last at ran
  rw [ran] at unrecorded
  cases unrecorded.symm.trans (congrArg some once)

end Samples

end Runnerd
