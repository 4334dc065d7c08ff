import Runnerd.CompletionCount
import Runnerd.LostUpdate
import Runnerd.Numerals
import Runnerd.Serving
import Runnerd.Webhooks

/-!
The exit of a runner and the webhooks of its own job, one after the other, with
a count of the calls to `RecordWorkflowCompleted`. The store answers, sandboxes
stop and GitHub removes runners; whether GitHub reports the runner as busy after
its process failed is left open.
-/

namespace Runnerd

open GoText Interaction

section Deliveries

/-- An exit comes with what GitHub lists if it is asked. -/
inductive JobEvent where
  | exited (result : ExitResult) (err : Option GoError)
      (runners : Except GoError (List GitHubRunner))
  | inProgress (job : WorkflowJob)
  | completed (job : WorkflowJob)

/-- Nothing that a stop or a cleanup needs fails. -/
structure Choice.Smooth (choice : Choice) : Prop where
  stores : choice.storeError = none
  resolves : ∃ service, choice.service = .ok service
  stops : choice.stopped.all isSandboxGone = true
  removes : choice.removed = none

def JobEvent.AnsweredBy : JobEvent → Choice → Prop
  | .exited _ _ runners, choice => choice.Smooth ∧ choice.runners = runners
  | .inProgress _, choice | .completed _, choice => choice.Smooth

structure Delivery where
  event : JobEvent
  tid : Nat
  choices : Nat → Choice

/-- The process, and how often the completion was recorded. -/
structure Tally where
  state : ServerState
  completions : Nat

def recordings : Op → Nat
  | .recordWorkflowCompleted _ _ => 1
  | _ => 0

variable (server : Server)

def tallied (tid : Nat) (choice : Choice) (tally : Tally) (op : Op) : Option (op.Resp × Tally) :=
  (respond server tid choice tally.state op).map fun answer =>
    (answer.1, ⟨answer.2, tally.completions + recordings op⟩)

def JobEvent.program (id : String) : JobEvent → Action Unit
  | .exited result err _ => runnerExited server id result err
  | .inProgress job => handleWorkflowJob server { action := .inProgress, workflowJob := job }
  | .completed job => handleWorkflowJob server { action := .completed, workflowJob := job }

/-- One delivery served to its end; `none` if a lock it needs is never free. -/
def deliver (id : String) (tally : Tally) (delivery : Delivery) : Option Tally :=
  (serve (tallied server delivery.tid) (delivery.event.program server id) delivery.choices
    tally).map Prod.snd

def deliverAll (id : String) (tally : Tally) (deliveries : List Delivery) : Option Tally :=
  deliveries.foldlM (deliver server id) tally

end Deliveries

section Ownership

/-- A row of a workflow job, as `enqueueWorkflowJob` has it stored. -/
structure OwnsJob (row : RunnerRequestRecord) : Prop where
  jobbed : row.workflowJobID ≠ 0
  named : row.id ≠ ""
  runner : row.runnerName = "e2b-" ++ row.id
  stored : sanitizeRunnerName row.runnerName = row.runnerName

/-- The event is about the row's own job, which ran on the row's own runner. -/
def JobEvent.Own (row : RunnerRequestRecord) (name : String) : JobEvent → Prop
  | .exited _ _ _ => True
  | .inProgress job | .completed job =>
      job.id = row.workflowJobID ∧ job.name = name ∧ job.runnerName = row.runnerName

theorem enqueued_ownsJob {now : Time} {repository : String} {installationID : Int}
    {job : WorkflowJob} {links : GitHubContext} {profile : RunnerProfile} (identified : job.id ≠ 0) :
    OwnsJob (admittedRecord now
      { workflowJobRequest repository installationID job with
        profileName := profile.name
        runnerGroup := profile.runnerGroup
        labels := profile.labels } links .queued "" "" "") := by
  have named : (if "e2b-" ++ toString job.id = "" then "e2b-" ++ toString job.id
      else "e2b-" ++ toString job.id) = "e2b-" ++ toString job.id := ite_self _
  refine ⟨identified, ?_, ?_, ?_⟩
  · simp only [admittedRecord, workflowJobRequest, sanitizeID_int]
    exact toString_nonempty job.id
  · simp only [admittedRecord, workflowJobRequest, sanitizeID_int, sanitizeRunnerName_int, named]
  · simp only [admittedRecord, workflowJobRequest, sanitizeID_int, sanitizeRunnerName_int, named]

theorem OwnsJob.prefixed {row : RunnerRequestRecord} (owns : OwnsJob row) :
    hasPrefix row.runnerName "e2b-" = true := by
  rw [owns.runner, hasPrefix, String.toList_append, List.isPrefixOf_iff_prefix]
  exact List.prefix_append _ _

theorem OwnsJob.stripped {row : RunnerRequestRecord} (owns : OwnsJob row) :
    trimPrefix row.runnerName "e2b-" = row.id := by
  rw [trimPrefix, if_pos owns.prefixed, owns.runner, String.toList_append, List.drop_left,
    String.ofList_toList]

theorem OwnsJob.nonblank {row : RunnerRequestRecord} (owns : OwnsJob row) :
    trimSpace row.runnerName ≠ "" := by
  intro blank
  have nothing : trimRunes row.runnerName.toList = [] := by
    simpa [trimSpace] using congrArg String.toList blank
  have stored := owns.stored
  -- the stored name has no blanks to trim
  rw [sanitizeRunnerName, nothing] at stored
  have runes := congrArg String.toList (stored.trans owns.runner)
  simp [replaceRune] at runes

end Ownership

section Calls
variable {server : Server} {tid : Nat} {fair : Choice → Prop} {α β : Type}

/-- The row and the locks that a delivery finds, and the count so far. -/
structure Standing (row : RunnerRequestRecord) (locks : List Nat) (completions : Nat)
    (tally : Tally) : Prop where
  present : row ∈ tally.state.table.rows
  held : tally.state.runnerLocks = locks
  counted : tally.completions = completions

variable {row : RunnerRequestRecord} {locks : List Nat} {completions : Nat} {tally : Tally}

theorem serves_now {next : Time → Action β} {post : β → Tally → Prop}
    (rest : ∀ now, Serves (tallied server tid) fair (next now) tally post) :
    Serves (tallied server tid) fair (currentTime >>= next) tally post :=
  serves_call fun choice _ => ⟨choice.now, tally, rfl, rest choice.now⟩

theorem serves_read (smooth : ∀ choice, fair choice → choice.Smooth)
    (standing : Standing row locks completions tally) {id : String} (same : row.id = id)
    {next : Except GoError RunnerState → Action β} {post : β → Tally → Prop}
    (rest : Serves (tallied server tid) fair (next (.ok row.toRunnerState)) tally post) :
    Serves (tallied server tid) fair (fetchState id >>= next) tally post := by
  subst same
  apply serves_call
  intro choice isFair
  refine ⟨.ok row.toRunnerState, tally, ?_, rest⟩
  have read : readState tally.state.table row.id = .ok row.toRunnerState := by
    simp only [readState, readRecord, tally.state.table.sanitized row standing.present,
      RequestTable.find_row standing.present]
    rfl
  simp [tallied, respond, loaded, stored, (smooth choice isFair).stores, read, recordings]

theorem serves_request (smooth : ∀ choice, fair choice → choice.Smooth)
    (standing : Standing row locks completions tally) {id : String} (same : row.id = id)
    {next : Except GoError RunnerRequest → Action β} {post : β → Tally → Prop}
    (rest : Serves (tallied server tid) fair (next (.ok (recordToRequest row))) tally post) :
    Serves (tallied server tid) fair (fetchRequest id >>= next) tally post := by
  subst same
  apply serves_call
  intro choice isFair
  refine ⟨.ok (recordToRequest row), tally, ?_, rest⟩
  have read : readRequest tally.state.table row.id = .ok (recordToRequest row) := by
    simp only [readRequest, readRecord, tally.state.table.sanitized row standing.present,
      RequestTable.find_row standing.present]
    rfl
  simp [tallied, respond, loaded, stored, (smooth choice isFair).stores, read, recordings]

/-- A write over the version in the store succeeds. -/
theorem serves_write (smooth : ∀ choice, fair choice → choice.Smooth)
    (standing : Standing row locks completions tally) {writer : Writer} {st : RunnerState}
    (named : row.id ≠ "") (same : st.id = row.id) (current : st.version = row.version)
    {next : Except GoError Unit → Action β} {post : β → Tally → Prop}
    (rest : ∀ now after, Standing (stateUpdates st now row) locks completions after →
      Serves (tallied server tid) fair (next (.ok ())) after post) :
    Serves (tallied server tid) fair (putState writer st >>= next) tally post := by
  apply serves_call
  intro choice isFair
  have clean : sanitizeID st.id = row.id := by
    rw [same, tally.state.table.sanitized row standing.present]
  have matched : versionMatches st row = true := by simp [versionMatches, clean, current]
  have hit : tally.state.table.rows.any (versionMatches st) = true :=
    List.any_eq_true.mpr ⟨row, standing.present, matched⟩
  let table := tally.state.table.update (versionMatches st)
    ⟨stateUpdates st choice.now, fun _ => rfl, fun _ => rfl⟩
  have written : writeState choice.now tally.state.table st = (.ok (), table) := by
    rw [writeState, if_neg (by rw [clean]; exact named), if_pos hit]
  refine ⟨.ok (), ⟨{ tally.state with table := table }, tally.completions⟩, ?_,
    rest choice.now _ ⟨?_, standing.held, standing.counted⟩⟩
  · simp [tallied, respond, stored, (smooth choice isFair).stores, written, recordings]
  · exact List.mem_map.mpr ⟨row, standing.present, if_pos matched⟩

theorem serves_lock (standing : Standing row locks completions tally) {id : String}
    (free : lockStripe id ∉ locks) {next : Unit → Action β} {post : β → Tally → Prop}
    (rest : ∀ after, Standing row (lockStripe id :: locks) completions after →
      Serves (tallied server tid) fair (next ()) after post) :
    Serves (tallied server tid) fair (lockRunner id >>= next) tally post := by
  apply serves_call
  intro choice _
  refine ⟨(), ⟨{ tally.state with runnerLocks := lockStripe id :: tally.state.runnerLocks },
    tally.completions⟩, ?_, rest _ ⟨standing.present, ?_, standing.counted⟩⟩
  · have untaken : lockStripe id ∉ tally.state.runnerLocks := standing.held ▸ free
    simp [tallied, respond, untaken, recordings]
  · rw [standing.held]

theorem unlocked {id : String} (standing : Standing row (lockStripe id :: locks) completions tally)
    (choice : Choice) :
    ∃ after, tallied server tid choice tally (.unlockRunner id) = some ((), after) ∧
      Standing row locks completions after := by
  refine ⟨⟨{ tally.state with runnerLocks := tally.state.runnerLocks.erase (lockStripe id) },
    tally.completions⟩, ?_, standing.present, ?_, standing.counted⟩
  · simp [tallied, respond, recordings]
  · rw [standing.held]
    exact List.erase_cons_head ..

theorem serves_unlock {id : String}
    (standing : Standing row (lockStripe id :: locks) completions tally)
    {next : Unit → Action β} {post : β → Tally → Prop}
    (rest : ∀ after, Standing row locks completions after →
      Serves (tallied server tid) fair (next ()) after post) :
    Serves (tallied server tid) fair (unlockRunner id >>= next) tally post := by
  apply serves_call
  intro choice _
  obtain ⟨after, answered, stands⟩ := unlocked standing choice
  exact ⟨(), after, answered, rest after stands⟩

/-- A locked body gives the lock back. -/
theorem serves_withRunnerLock (standing : Standing row locks completions tally) {id : String}
    (free : lockStripe id ∉ locks) {body : Action α}
    {post : α → RunnerRequestRecord → Nat → Prop}
    (inside : ∀ after, Standing row (lockStripe id :: locks) completions after →
      Serves (tallied server tid) fair body after fun value last => ∃ row completions,
        Standing row (lockStripe id :: locks) completions last ∧ post value row completions) :
    Serves (tallied server tid) fair (withRunnerLock id body) tally fun value last =>
      ∃ row completions, Standing row locks completions last ∧ post value row completions := by
  unfold withRunnerLock
  refine serves_lock standing free fun middle locked => serves_seq ?_
  refine serves_mono ?_ (inside middle locked)
  rintro value last ⟨row, completions, stands, holds⟩
  exact serves_unlock stands fun after released =>
    serves_return ⟨row, completions, released, holds⟩

end Calls

section Cleanups
variable {server : Server} {tid : Nat} {fair : Choice → Prop} {row : RunnerRequestRecord}
  {locks : List Nat} {completions : Nat} {tally : Tally}

theorem serves_stopSandbox (smooth : ∀ choice, fair choice → choice.Smooth)
    (standing : Standing row locks completions tally) {id sandboxID : String} (same : row.id = id)
    (pid : Nat) :
    Serves (tallied server tid) fair (stopSandboxWithTimeout id sandboxID pid) tally
      fun answer after => after = tally ∧ answer.all isSandboxGone = true := by
  unfold stopSandboxWithTimeout
  refine serves_request smooth standing same ?_
  dsimp only
  apply serves_call
  intro choice isFair
  obtain ⟨service, resolved⟩ := (smooth choice isFair).resolves
  have chosen : ∃ service, resolveService server (recordToRequest row) choice.service =
      .ok service := by
    rw [resolved]
    unfold resolveService
    split
    · exact ⟨_, rfl⟩
    · split
      · exact ⟨_, rfl⟩
      · exact ⟨_, rfl⟩
  obtain ⟨service, chosen⟩ := chosen
  refine ⟨.ok service, tally, by simp [tallied, respond, chosen, recordings], ?_⟩
  dsimp only
  apply serves_last
  intro choice isFair
  exact ⟨choice.stopped, tally, by simp [tallied, respond, recordings], rfl,
    (smooth choice isFair).stops⟩

theorem serves_cleanupSandbox (smooth : ∀ choice, fair choice → choice.Smooth)
    (standing : Standing row locks completions tally) {id : String} (same : row.id = id)
    (st : RunnerState) :
    Serves (tallied server tid) fair (cleanupSandboxAfterExit id st) tally
      fun answer after => after = tally ∧ answer = none := by
  unfold cleanupSandboxAfterExit
  split
  · exact serves_return ⟨rfl, rfl⟩
  · refine serves_seq (serves_mono ?_ (serves_stopSandbox smooth standing same st.processPID))
    rintro answer _ ⟨rfl, gone⟩
    cases answer with
    | none => exact serves_return ⟨rfl, rfl⟩
    | some err =>
        simp only [Option.all_some] at gone
        simp only [gone, if_true]
        exact serves_return ⟨rfl, rfl⟩

theorem serves_cleanupGitHub (smooth : ∀ choice, fair choice → choice.Smooth) (st : RunnerState) :
    Serves (tallied server tid) fair (cleanupGitHubRunner st) tally
      fun answer after => after = tally ∧ answer = none := by
  unfold cleanupGitHubRunner
  split
  · exact serves_return ⟨rfl, rfl⟩
  · split
    · exact serves_return ⟨rfl, rfl⟩
    · apply serves_last
      intro choice isFair
      exact ⟨choice.removed, tally, by simp [tallied, respond, recordings], rfl,
        (smooth choice isFair).removes⟩

end Cleanups

section Counting

/-- The row as the count sees it. -/
def jobCount (name : String) (st : RunnerState) (completions : Nat) : JobCount where
  phase :=
    match st.status with
    | .completed => .completed
    | .failed => .failed
    | _ => .underway
  stale := st.failureStage != "" && st.failureStage != "cleanup"
  noted := st.assignedJobID == st.workflowJobID && st.assignedJobName == name
  recorded := completions

/-- GitHub lists the row's runner as busy. -/
def reportsBusy (st : RunnerState) (runners : Except GoError (List GitHubRunner)) : Bool :=
  trimSpace st.repositoryFullName != "" &&
    match runners with
    | .error _ => false
    | .ok runners => ((runners.find? fun runner => runner.name == trimSpace st.runnerName).map
        GitHubRunner.busy).getD false

def JobEvent.news (row : RunnerRequestRecord) (name : String) : JobEvent → JobNews
  | .exited result err runners =>
      if shouldCheckGitHubBusyAfterRunnerExit result err = false then .exitedCleanly
      else if reportsBusy row.toRunnerState runners then .kept (name == "")
      else .exitedFailing
  | .inProgress _ => .started
  | .completed _ => .finished

/-- What no delivery about its job changes in a row. -/
structure SameJob (base : RunnerRequestRecord) (st : RunnerState) : Prop where
  id : st.id = base.id
  job : st.workflowJobID = base.workflowJobID
  runner : st.runnerName = base.runnerName
  repository : st.repositoryFullName = base.repositoryFullName

/-- The row between two deliveries. An assignment without a name is one of a job
without a name. -/
structure GoesOn (base : RunnerRequestRecord) (name : String) (st : RunnerState) : Prop
    extends SameJob base st where
  queued : st.status ≠ .queued
  stopping : st.status ≠ .stopping
  nameless : st.assignedJobID = st.workflowJobID → st.assignedJobName = "" → name = ""

variable {base row : RunnerRequestRecord} {name : String} {st : RunnerState} {job : WorkflowJob}

theorem jobCount_written (now : Time) (completions : Nat)
    (same : st.workflowJobID = row.workflowJobID) :
    jobCount name (stateUpdates st now row).toRunnerState completions =
      jobCount name st completions := by
  simp [jobCount, stateUpdates, same]

theorem sameJob_written (owns : OwnsJob base) (now : Time)
    (before : SameJob base row.toRunnerState) (same : SameJob base st) :
    SameJob base (stateUpdates st now row).toRunnerState := by
  refine ⟨before.id, before.job, ?_, same.repository⟩
  simp only [stateUpdates, same.runner, owns.stored]

theorem goesOn_written (owns : OwnsJob base) (now : Time)
    (before : SameJob base row.toRunnerState) (continues : GoesOn base name st) :
    GoesOn base name (stateUpdates st now row).toRunnerState := by
  refine ⟨sameJob_written owns now before continues.toSameJob, continues.queued,
    continues.stopping, ?_⟩
  intro assigned nameless
  refine continues.nameless ?_ nameless
  rw [continues.job, ← before.job]
  exact assigned

/-- A job on record has its own name there. -/
theorem noted_nameless {completions : Nat} (noted : (jobCount name st completions).noted = true)
    (nameless : st.assignedJobName = "") : name = "" := by
  simp only [jobCount, Bool.and_eq_true, beq_iff_eq] at noted
  rw [← noted.2, nameless]

theorem shouldRecord_noted (identified : job.id ≠ 0) (own : job.id = st.workflowJobID)
    (completions : Nat) :
    shouldRecordAssignedJob st job = !(jobCount job.name st completions).noted := by
  have known : st.workflowJobID ≠ 0 := own ▸ identified
  simp [shouldRecordAssignedJob, jobCount, known, own, bne]

theorem jobCount_assigned (own : job.id = st.workflowJobID) (completions : Nat) :
    jobCount job.name (assignJob st job) completions =
      { jobCount job.name st completions with noted := true } := by
  simp [jobCount, assignJob, own]

/-- A job once assigned is on record. -/
theorem jobCount_recorded (identified : job.id ≠ 0) (own : job.id = st.workflowJobID)
    (completions : Nat) :
    jobCount job.name (recordAssignedJob st job) completions =
      { jobCount job.name st completions with noted := true } := by
  unfold recordAssignedJob
  split
  · exact jobCount_assigned own completions
  · rename_i unneeded
    rw [shouldRecord_noted identified own completions] at unneeded
    simp only [Bool.not_eq_true, Bool.not_eq_false'] at unneeded
    rw [← unneeded]

theorem jobCount_stopFinished (now : Time) (completions : Nat) :
    jobCount name (stopFinishedState st now) completions =
      { jobCount name st completions with
        phase := if (jobCount name st completions).stale then .failed else .completed } := by
  by_cases stale : st.failureStage ≠ "" ∧ st.failureStage ≠ "cleanup"
  · simp [jobCount, stopFinishedState, stale]
  · rw [stopFinishedState, if_neg stale]
    simp only [jobCount]
    by_cases none : st.failureStage = ""
    · simp [none]
    · have cleanup : st.failureStage = "cleanup" := by
        by_contra other
        exact stale ⟨none, other⟩
      simp [cleanup]

theorem sameJob_recorded (same : SameJob base st) : SameJob base (recordAssignedJob st job) := by
  unfold recordAssignedJob
  split
  · exact ⟨same.id, same.job, same.runner, same.repository⟩
  · exact same

theorem sameJob_stopFinished (now : Time) (same : SameJob base st) :
    SameJob base (stopFinishedState st now) := by
  unfold stopFinishedState
  split
  · exact ⟨same.id, same.job, same.runner, same.repository⟩
  · exact ⟨same.id, same.job, same.runner, same.repository⟩

theorem phase_active (active : st.status = .creating ∨ st.status = .running) (completions : Nat) :
    (jobCount name st completions).phase = .underway := by
  rcases active with creating | running
  · simp [jobCount, creating]
  · simp [jobCount, running]

theorem phase_idle (continues : GoesOn base name st)
    (idle : st.status ≠ .creating ∧ st.status ≠ .running) (completions : Nat) :
    (jobCount name st completions).phase ≠ .underway := by
  cases status : st.status with
  | completed => simp [jobCount, status]
  | failed => simp [jobCount, status]
  | queued => exact absurd status continues.queued
  | stopping => exact absurd status continues.stopping
  | creating => exact absurd status idle.1
  | running => exact absurd status idle.2

theorem stopFinished_settled (now : Time) :
    (stopFinishedState st now).status ≠ .queued ∧ (stopFinishedState st now).status ≠ .stopping := by
  unfold stopFinishedState
  split <;> simp

end Counting

end Runnerd
