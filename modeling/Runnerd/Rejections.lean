import Runnerd.Changes
import Runnerd.FailureOrigins
import Runnerd.Ownership
import Runnerd.RoleConduct

/-!
Admission rejections. A rejected request is stored as failed at the stage
`admission`, without a sandbox, and nothing claims it. A later stop marks it and
finishes it as failed again, except in two cases: GitHub refuses for good to
remove a runner of its name, which puts `cleanup` in the place of `admission`,
or the stop is for another job, which requeues or completes the request.
-/

namespace Runnerd

open GoText Interaction Interleaving Versioned

section Shown

/-- The requests that an answer shows. -/
def shown : Answered → List RunnerState
  | ⟨.readState _, .ok st⟩ => [st]
  | ⟨.listActiveStates, .ok states⟩ => states
  | ⟨.claimNextRunnable _ _ _, .ok (some (_, st))⟩ => [st]
  | ⟨.createRequest _ _ _ _ _ _, .ok (true, st)⟩ => [st]
  | _ => []

variable {server : Server} {tid : Nat} {choice : Choice} {state after : ServerState}

theorem claimNextRunnable_shows {table next : RequestTable} {workerID : String} {at_ : Time}
    {leaseTTL : Duration} {req : RunnerRequest} {st : RunnerState}
    (ran : claimNextRunnable table workerID at_ leaseTTL = (.ok (some (req, st)), next)) :
    st.status = .queued ∧ ∃ row ∈ next.rows, row.toRunnerState = st := by
  unfold claimNextRunnable at ran
  dsimp only at ran
  split at ran
  · cases ran
  · split at ran
    · cases ran
    · rename_i row first
      cases ran
      obtain ⟨present, free⟩ := List.mem_filter.mp (firstQueued_mem first)
      simp only [claimable, Bool.and_eq_true, beq_iff_eq] at free
      refine ⟨free.1.1, _, ?_, rfl⟩
      simp only [RequestTable.update, List.mem_map]
      exact ⟨row, present, by simp⟩

theorem createRequest_shows {now : Time} {table next : RequestTable} {req : RunnerRequest}
    {links : GitHubContext} {status : Status} {stage reason message : String} {st : RunnerState}
    (ran : createRequest now table req links status stage reason message = (.ok (true, st), next)) :
    next.rows = table.rows ++ [admittedRecord now req links status stage reason message] ∧
      st = (admittedRecord now req links status stage reason message).toRunnerState := by
  unfold createRequest at ran
  split at ran
  · cases ran
  · dsimp only at ran
    split at ran
    · rename_i inserted
      cases ran
      exact ⟨RequestTable.insert_rows inserted, rfl⟩
    · split at ran
      · cases ran
      · cases ran

/-- What an answer shows is a row of the table that it leaves. -/
theorem answered_shows {op : Op} {resp : op.Resp}
    (answer : respond server tid choice state op = some (resp, after)) {st : RunnerState}
    (member : st ∈ shown ⟨op, resp⟩) :
    ∃ row ∈ after.table.rows, row.id = st.id ∧ row.status = st.status := by
  cases op with
  | readState id =>
      rcases resp with err | base
      · cases member
      · obtain ⟨rfl, row, here, rfl, _⟩ := readState_answered answer
        cases List.mem_singleton.mp member
        exact ⟨row, here, rfl, rfl⟩
  | listActiveStates =>
      rcases resp with err | states
      · cases member
      · simp only [respond] at answer
        obtain ⟨rfl, ⟨err, failed⟩ | read⟩ := loaded_cases answer
        · cases failed
        · cases read
          obtain ⟨row, here, _, rfl⟩ := listActiveStates_row member
          exact ⟨row, here, rfl, rfl⟩
  | claimNextRunnable workerID at_ leaseTTL =>
      rcases resp with err | _ | ⟨req, claimed⟩
      · cases member
      · cases member
      · cases List.mem_singleton.mp member
        simp only [respond] at answer
        rcases stored_cases answer with ⟨err, failed, _⟩ | ⟨table, ran, rfl⟩
        · cases failed
        · obtain ⟨_, row, here, rfl⟩ := claimNextRunnable_shows ran
          exact ⟨row, here, rfl, rfl⟩
  | createRequest req links status stage reason message =>
      rcases resp with err | ⟨_ | _, created⟩
      · cases member
      · cases member
      · cases List.mem_singleton.mp member
        simp only [respond] at answer
        rcases stored_cases answer with ⟨err, failed, _⟩ | ⟨table, ran, rfl⟩
        · cases failed
        · obtain ⟨rows, rfl⟩ := createRequest_shows ran
          refine ⟨_, ?_, rfl, rfl⟩
          rw [rows]
          exact List.mem_append_right _ (List.mem_singleton_self _)
  | _ => cases member

/-- What was ever shown is still stored. -/
theorem shown_row {condition : RunnerWorld → RunnerMove → Prop} {table : RequestTable}
    {world : RunnerWorld} (reaches : (machine server).Reaches condition (opened table) world)
    {event : RunnerEvent} (recorded : event ∈ world.trace) {st : RunnerState}
    (member : st ∈ shown event.call) : ∃ row ∈ world.state.table.rows, row.id = st.id := by
  induction reaches with
  | refl => cases recorded
  | step move before _ stepped ih =>
      obtain ⟨tid, choice, thread, op, resp, rest, state, rfl, acts, rfl⟩ | ⟨task, rfl, _, rfl⟩ |
        ⟨rfl, rfl⟩ := (machine server).step_cases stepped
      · rcases List.mem_cons.mp recorded with rfl | older
        · obtain ⟨row, here, same, _⟩ := answered_shows acts.answer member
          exact ⟨row, here, same⟩
        · obtain ⟨row, here, same⟩ := ih older
          obtain ⟨next, there, key, _⟩ := table_advances acts.answer row here
          exact ⟨next, there, key.trans same⟩
      · exact ih recorded
      · exact ih recorded

end Shown

section Rejected

structure Rejected (st : RunnerState) : Prop where
  stage : st.failureStage = "admission"
  finished : st.status = .failed ∨ st.status = .stopping
  sandbox : st.sandboxID = ""

theorem Rejected.same_core {first second : RunnerState} (rejected : Rejected first)
    (same : core first = core second) : Rejected second := by
  have stage : first.failureStage = second.failureStage := congrArg Core.failureStage same
  have status : first.status = second.status := congrArg Core.status same
  have sandbox : first.sandboxID = second.sandboxID := congrArg Core.sandboxID same
  exact ⟨stage ▸ rejected.stage, status ▸ rejected.finished, sandbox ▸ rejected.sandbox⟩

theorem Rejected.unlike {st : RunnerState} (rejected : Rejected st) {status : Status}
    (same : st.status = status) : status = .failed ∨ status = .stopping :=
  same ▸ rejected.finished

theorem Rejected.unoccupied {st : RunnerState} (rejected : Rejected st) :
    occupied st.status = false := by
  rcases rejected.finished with failed | stopping
  · rw [failed]
    rfl
  · rw [stopping]
    rfl

/-- The writers that could replace or drop a rejection. -/
def Writer.overturns : Writer → Bool
  | .startCreating | .completeWithoutSandbox | .failStart | .retryOrFail | .forceStopping
  | .forceStopFailed | .forceCleanupRetry | .forceFailed | .stopRetry | .stopFailed
  | .stopCleanupFailed | .mismatchRequeued | .stopMismatched => true
  | _ => false

variable {server : Server} {past : List Answered}

theorem stopFinishedState_rejected {st : RunnerState} (rejected : Rejected st) (now : Time) :
    Rejected (stopFinishedState st now) := by
  unfold stopFinishedState
  dsimp only
  rw [if_pos]
  · exact ⟨rejected.stage, .inl rfl, rejected.sandbox⟩
  · rw [rejected.stage]
    decide

theorem cleanupRetry_rejected {st next : RunnerState} (rejected : Rejected st) {now : Time}
    {err : GoError} (scheduled : scheduleCleanupRetry server.cfg now st err = some next) :
    Rejected next := by
  obtain ⟨code, count, rfl⟩ := scheduled_stopping scheduled
  have kept : (if st.failureStage == "" then "cleanup" else st.failureStage) = "admission" := by
    rw [rejected.stage]
    rfl
  exact ⟨kept, .inr rfl, rejected.sandbox⟩

/-- The other writers leave a rejection as it is. -/
theorem edit_rejected {writer : Writer} {base st : RunnerState}
    (edit : Edit server past writer base st) (calm : writer.overturns = false)
    (rejected : Rejected base) : Rejected st := by
  have idle (active : occupied base.status = true) : Rejected st := by
    rw [rejected.unoccupied] at active
    cases active
  have only {status : Status} (same : base.status = status)
      (other : ¬(status = .failed ∨ status = .stopping)) : Rejected st :=
    absurd (rejected.unlike same) other
  cases edit with
  | startSnapshot reads service => exact ⟨rejected.stage, rejected.finished, rejected.sandbox⟩
  | startRunning creating started => exact only creating (by decide)
  | markInProgress reads unstopped job => exact ⟨rejected.stage, rejected.finished, rejected.sandbox⟩
  | markJobStarted reads unstopped => exact ⟨rejected.stage, rejected.finished, rejected.sandbox⟩
  | exited exits => exact idle exits.occupied
  | exitedUnregistered exits cleanupErr _ => exact idle exits.occupied
  | exitedCleanupRetry exits scheduled => exact idle exits.occupied
  | keepRunning busy occupied message => exact idle occupied
  | recoverQueued reads queued => exact only queued (by decide)
  | recoverReconnected recovers => exact idle recovers.occupied
  | requeueInterrupted creating => exact only creating (by decide)
  | stopAssignment completed job => exact only completed (by decide)
  | stopStopping locked uncompleted job =>
      have kept : (stopStoppingState base job).failureStage = base.failureStage := by
        unfold stopStoppingState recordAssignedJob
        split <;> rfl
      have sandbox : (stopStoppingState base job).sandboxID = base.sandboxID :=
        congrArg Custody.sandbox (stopStoppingState_custody base job).2
      exact ⟨kept.trans rejected.stage, .inr rfl, sandbox.trans rejected.sandbox⟩
  | stopCleanupRetry ends scheduled => exact cleanupRetry_rejected rejected scheduled
  | mismatchInspected ended => exact ⟨rejected.stage, rejected.finished, rejected.sandbox⟩
  | stopFinished ends now => exact stopFinishedState_rejected rejected now
  | deferQueued reads queued owned nextAttempt => exact only queued (by decide)
  | completeReconciled failed now =>
      have settled : settledStage base.failureStage = true := by
        simp only [recoverableFailure, Bool.and_eq_true] at failed
        exact failed.2
      rw [rejected.stage] at settled
      cases settled
  | _ => cases calm

end Rejected

section Rules

/-- `CreateRejectedRequest` has stored the row. -/
def rejectsRow (id : String) : Answered → Bool
  | ⟨.createRequest _ _ .failed _ _ _, .ok (true, st)⟩ => st.id == id
  | _ => false

def retriesRow (id : String) : Answered → Bool
  | ⟨.retryRequest asked _, .ok _⟩ => sanitizeID asked == id
  | _ => false

/-- A completed job that stops a rejected request is the request's own, and
what GitHub answers to the removal of its runner leaves a retry. -/
def rejectionGuard (server : Server) (task : Task) (past : List Answered) (call : Answered) : Bool :=
  match call, past with
  | ⟨.writeState .stopStopping st, .ok ()⟩, _ =>
      match task with
      | .workflowJob event =>
          st.failureStage != "admission" || !workflowJobMismatch st event.workflowJob
      | _ => true
  | ⟨.removeRunnerByName _ _ _, some err⟩, ⟨.writeState .stopStopping st, .ok ()⟩ :: _ =>
      st.failureStage != "admission" || (scheduleCleanupRetry server.cfg 0 st.advanced err).isSome
  | _, _ => true

/-- When a retry is left does not depend on the time. -/
theorem scheduleCleanupRetry_isSome (cfg : Config) (now then_ : Time) (st : RunnerState)
    (err : GoError) :
    (scheduleCleanupRetry cfg now st err).isSome = (scheduleCleanupRetry cfg then_ st err).isSome := by
  unfold scheduleCleanupRetry
  dsimp only
  split
  · rfl
  · split
    · rfl
    · split
      · rfl
      · rfl

end Rules

section Origins
variable {server : Server} {condition : RunnerWorld → RunnerMove → Prop} {table : RequestTable}
  {world : RunnerWorld}

theorem origin_obeys (reaches : (machine server).Reaches condition (opened table) world) :
    Machine.Obeys (fun task => originContract server task.stopsFor) world := by
  refine Machine.obeys_reachable (task_origin server) ⟨?_, ?_⟩ reaches
  · intro tid thread live
    cases live
  · intro tid thread live
    cases live

/-- A claim shows a queued request. -/
def showsQueued : Answered → Prop
  | ⟨.claimNextRunnable _ _ _, .ok (some (_, st))⟩ => st.status = .queued
  | _ => True

theorem shows_queued_reachable
    (reaches : (machine server).Reaches condition (opened table) world) :
    ∀ event ∈ world.trace, showsQueued event.call := by
  refine Machine.trace_reachable showsQueued ?_ ?_ reaches
  · intro event member
    cases member
  · rintro world move ⟨op, resp⟩ _ answered
    obtain ⟨tid, choice, thread, rest, state, rfl, acts⟩ := Machine.answered_acts answered
    have answer : respond server tid choice world.state op = some (resp, state) := acts.answer
    unfold showsQueued
    split
    · rename_i same
      cases same
      simp only [respond] at answer
      rcases stored_cases answer with ⟨err, failed, _⟩ | ⟨table, ran, rfl⟩
      · cases failed
      · exact (claimNextRunnable_shows ran).1
    · trivial

/-- An attempt was claimed as a queued request. -/
theorem attempt_claimed (reaches : (machine server).Reaches condition (opened table) world)
    {tid : Nat} {thread : RunnerThread} (live : world.threads[tid]? = some thread)
    {claimed : RunnerState} (attempt : thread.task = .startRunner claimed) :
    ∃ event ∈ world.trace, claimed ∈ shown event.call ∧ claimed.status = .queued := by
  revert claimed
  refine Machine.tasks_reachable (fun trace task => ∀ {claimed}, task = .startRunner claimed →
    ∃ event ∈ trace, claimed ∈ shown event.call ∧ claimed.status = .queued) rfl ?_ ?_ ?_ reaches live
  · intro event trace task known claimed same
    obtain ⟨older, member, found⟩ := known same
    exact ⟨older, List.mem_cons_of_mem _ member, found⟩
  · intro trace task entered claimed same
    rw [same] at entered
    cases entered
  · intro world tid choice thread op resp rest state before acts task member claimed same
    subst same
    have duty := (origin_obeys before).permits acts
    cases op with
    | goStartRunner launched =>
        cases List.mem_singleton.mp member
        obtain ⟨workerID, at_, leaseTTL, req, called⟩ := duty
        have recorded := (origin_obeys before).recorded tid thread acts.live _ called
        exact ⟨_, recorded, List.mem_singleton_self _, shows_queued_reachable before _ recorded⟩
    | startRunner service input =>
        rcases resp with err | result
        · cases member
        · cases List.mem_singleton.mp member
    | recoverRunner service input =>
        rcases resp with ⟨result, _ | err⟩
        · cases List.mem_singleton.mp member
        · cases member
    | _ => cases member

end Origins

section Worlds
variable {server : Server} {table : RequestTable} {world : RunnerWorld} {tid : Nat}
  {choice : Choice} {thread : RunnerThread} {op : Op} {resp : op.Resp} {state : ServerState}

/-- No goroutine was ever shown the request but failed or stopping. -/
def ShownOver (trace : List RunnerEvent) (id : String) : Prop :=
  ∀ event ∈ trace, ∀ st ∈ shown event.call, st.id = id → st.status = .failed ∨ st.status = .stopping

abbrev Spared (server : Server) (world : RunnerWorld) (move : RunnerMove) : Prop :=
  watched server (fun _ thread => rejectionGuard server thread.task thread.past) world move = true

theorem seenActive_shown {past : List Answered} {id : String} (seen : SeenActive past id) :
    ∃ call ∈ past, ∃ old ∈ shown call, old.id = id ∧ occupied old.status = true := by
  obtain ⟨old, same, active, ⟨asked, reads⟩ | ⟨states, listed, member⟩⟩ := seen
  · exact ⟨_, reads, old, List.mem_singleton_self _, same, active⟩
  · exact ⟨_, listed, old, member, same, active⟩

/-- The goroutine has not seen the row active. -/
theorem Turn.unseen {condition : RunnerWorld → RunnerMove → Prop}
    (turn : Turn server world tid choice thread op resp state)
    (reaches : (machine server).Reaches condition (opened table) world)
    {row : RunnerRequestRecord} (finished : ShownOver world.trace row.id) {id : String}
    {base : RunnerState} (seen : SeenActive thread.past id)
    (reads : (⟨.readState id, .ok base⟩ : Answered) ∈ thread.past)
    (same : row.id = sanitizeID base.id) : False := by
  have named := turn.honest_read turn.live reads
  obtain ⟨call, member, old, shows, rfl, active⟩ := seenActive_shown seen
  obtain ⟨event, recorded, rfl⟩ := turn.recorded member
  obtain ⟨stored, present, key⟩ := shown_row reaches recorded shows
  have clean : sanitizeID old.id = old.id := key ▸ world.state.table.sanitized stored present
  have key : old.id = row.id := by rw [same, named, sanitizeID_idem, clean]
  rcases finished event recorded old shows key with failed | stopping
  · rw [failed] at active
    cases active
  · rw [stopping] at active
    cases active

/-- No attempt was started for the row. -/
theorem unclaimed {condition : RunnerWorld → RunnerMove → Prop} {rest : Action Unit}
    {writer : Writer} {st : RunnerState} {answer : Except GoError Unit}
    (reaches : (machine server).Reaches condition (opened table) world)
    (acts : (machine server).Acts world tid choice thread (.writeState writer st) answer rest state)
    (starts : writer.starts = true) {row : RunnerRequestRecord}
    (finished : ShownOver world.trace row.id) (same : row.id = sanitizeID st.id) : False := by
  have ruled : Machine.Ruled _ none (Task.fits fun _ => True) world :=
    roles_reachable server (fun _ _ _ _ _ => True.intro) reaches
  obtain ⟨_, kind, id, names, key⟩ := ruled.permits acts
  rw [starts] at kind
  cases task : thread.task with
  | startRunner claimed =>
      have fit := ruled.fit tid thread acts.live
      rw [task] at names fit
      have names : id = sanitizeID claimed.id := names
      have fit : sanitizeID claimed.id = claimed.id := fit
      obtain ⟨event, recorded, shows, queued⟩ := attempt_claimed reaches acts.live task
      have key : claimed.id = row.id := by rw [same, key, names, sanitizeID_idem, fit]
      rcases finished event recorded claimed shows key with failed | stopping
      · rw [failed] at queued
        cases queued
      · rw [stopping] at queued
        cases queued
  | _ =>
      rw [task] at kind
      cases kind

/-- GitHub has not refused the cleanup of a rejected row for good. -/
theorem Turn.unrefused {rest : Action Unit} {st : RunnerState} {answer : Except GoError Unit}
    (turn : Turn server world tid choice thread (.writeState .stopCleanupFailed st) answer state)
    (acts : (machine server).Acts world tid choice thread (.writeState .stopCleanupFailed st) answer
      rest state)
    (reaches : (machine server).Reaches (Spared server) (opened table) world)
    {row : RunnerRequestRecord} (here : row ∈ world.state.table.rows)
    (matched : versionMatches st row = true) (rejected : Rejected row.toRunnerState) : False := by
  obtain ⟨marked, now, repository, group, name, err, earlier, past, wrote, request, unscheduled, next⟩ :=
    (origin_obeys reaches).permits acts
  have marks := rejected.same_core (turn.current (.inr ⟨marked, wrote, rfl⟩) request here matched)
  obtain ⟨before, rfl⟩ := next marks.sandbox
  have guard := (met_past rfl reaches).actor acts ⟨.removeRunnerByName repository group name, some err⟩
    (⟨.writeState .stopStopping marked, .ok ()⟩ :: before) (by rw [past]; exact List.suffix_cons _ _)
  have stage : marked.failureStage = "admission" := marks.stage
  simp only [rejectionGuard, stage, bne_self_eq_false, Bool.false_or] at guard
  rw [scheduleCleanupRetry_isSome server.cfg 0 now, unscheduled] at guard
  cases guard

/-- No stop for another job has marked a rejected row. -/
theorem Turn.ownJob {rest : Action Unit} {writer : Writer} {st : RunnerState}
    {answer : Except GoError Unit}
    (turn : Turn server world tid choice thread (.writeState writer st) answer state)
    (acts : (machine server).Acts world tid choice thread (.writeState writer st) answer rest state)
    (reaches : (machine server).Reaches (Spared server) (opened table) world)
    (origin : OtherJob thread.task.stopsFor thread.past st) {row : RunnerRequestRecord}
    (here : row ∈ world.state.table.rows) (matched : versionMatches st row = true)
    (rejected : Rejected row.toRunnerState) (finished : ShownOver world.trace row.id) : False := by
  obtain ⟨base, knows, request, completed | ⟨marked, job, marks, mismatch, sameID, stage⟩⟩ := origin
  · have known := rejected.same_core (turn.current knows request here matched)
    exact absurd (known.unlike completed) (by decide)
  · have known := rejected.same_core (turn.current knows request here matched)
    have stage : marked.failureStage = "admission" := stage.symm.trans known.stage
    rcases marks.asked mismatch with stops | ⟨id, read, seen, reads, named⟩
    · cases task : thread.task with
      | workflowJob event =>
          rw [task] at stops
          cases (stops : job = event.workflowJob)
          obtain ⟨older, earlier, past⟩ := List.append_of_mem marks.wrote
          have guard := (met_past rfl reaches).actor acts ⟨.writeState .stopStopping marked, .ok ()⟩
            earlier (by rw [past]; exact List.suffix_append _ _)
          simp only [rejectionGuard, task, stage, mismatch] at guard
          cases guard
      | _ =>
          rw [task] at stops
          cases stops
    · simp only [versionMatches, Bool.and_eq_true, beq_iff_eq] at matched
      refine turn.unseen reaches finished seen reads ?_
      rw [matched.1, request.id, ← sameID, named]

/-- A write over a rejected row leaves it rejected. -/
theorem Turn.upholds {rest : Action Unit} {writer : Writer} {base st : RunnerState}
    {answer : Except GoError Unit}
    (turn : Turn server world tid choice thread (.writeState writer st) answer state)
    (acts : (machine server).Acts world tid choice thread (.writeState writer st) answer rest state)
    (reaches : (machine server).Reaches (Spared server) (opened table) world)
    (edit : Edit server thread.past writer base st) {row : RunnerRequestRecord}
    (here : row ∈ world.state.table.rows) (matched : versionMatches st row = true)
    (same : rowCore row = core base) (rejected : Rejected row.toRunnerState)
    (finished : ShownOver world.trace row.id) : Rejected st := by
  by_cases calm : writer.overturns = false
  · exact edit_rejected edit calm (rejected.same_core same)
  exfalso
  have keys := matched
  simp only [versionMatches, Bool.and_eq_true, beq_iff_eq] at keys
  have duty := (origin_obeys reaches).permits acts
  have vacant : base.sandboxID = "" := (rejected.same_core same).sandbox
  have forced (origin : ∃ base, Knows thread.past base ∧ SameRequest base st ∧
      base.failureStage ≠ "admission") : False := by
    obtain ⟨known, knows, request, other⟩ := origin
    exact other (rejected.same_core (turn.current knows request here matched)).stage
  have key : row.id = sanitizeID base.id := by rw [keys.1, (edit_custody edit).1.id]
  cases edit with
  | startCreating admission expires => exact unclaimed reaches acts rfl finished keys.1
  | completeWithoutSandbox unplaced job now => exact unclaimed reaches acts rfl finished keys.1
  | failStart unstopped known err now => exact unclaimed reaches acts rfl finished keys.1
  | failSnapshot refused err now => exact unclaimed reaches acts rfl finished keys.1
  | retryOrFail unfinished seen known err now =>
      obtain ⟨id, active, reads⟩ := seen
      exact turn.unseen reaches finished active reads key
  | forceStopping unfinished seen stage reason message =>
      obtain ⟨id, active, reads⟩ := seen
      exact turn.unseen reaches finished active reads key
  | stopRetry stopping scheduled =>
      exact duty ((scheduleStopRetry_sandbox scheduled).trans vacant)
  | stopFailed stopping message => exact duty vacant
  | forceStopFailed stopping message => exact duty vacant
  | forceCleanupRetry ends scheduled => exact forced duty
  | forceFailed ends stage reason message now => exact forced duty
  | forceUnregistered ends stage reason message cleanupErr now => exact forced duty
  | stopCleanupFailed ends message => exact turn.unrefused acts reaches here matched rejected
  | mismatchRequeued ended => exact turn.ownJob acts reaches duty here matched rejected finished
  | stopMismatched ends now => exact turn.ownJob acts reaches duty here matched rejected finished
  | _ => exact calm rfl

/-- A row that was rejected and not retried since. -/
def rejectedIn (trace : List RunnerEvent) (id : String) : Bool :=
  (trace.any fun event => rejectsRow id event.call) &&
    !trace.any fun event => retriesRow id event.call

theorem rejectedIn_cons {event : RunnerEvent} {trace : List RunnerEvent} {id : String}
    (rejected : rejectedIn (event :: trace) id = true) :
    retriesRow id event.call = false ∧
      (rejectsRow id event.call = true ∨ rejectedIn trace id = true) := by
  simp only [rejectedIn, List.any_cons, Bool.and_eq_true, Bool.or_eq_true, Bool.not_eq_true',
    Bool.or_eq_false_iff] at rejected ⊢
  exact ⟨rejected.2.1, rejected.1.imp_right fun older => ⟨older, rejected.2.2⟩⟩

theorem rejectsRow_shown {id : String} {call : Answered} (rejects : rejectsRow id call = true) :
    ∃ st ∈ shown call, st.id = id := by
  unfold rejectsRow at rejects
  split at rejects
  · exact ⟨_, List.mem_singleton_self _, beq_iff_eq.mp rejects⟩
  · cases rejects

theorem rejectedIn_row {condition : RunnerWorld → RunnerMove → Prop}
    (reaches : (machine server).Reaches condition (opened table) world) {id : String}
    (rejected : rejectedIn world.trace id = true) : ∃ row ∈ world.state.table.rows, row.id = id := by
  simp only [rejectedIn, Bool.and_eq_true, List.any_eq_true] at rejected
  obtain ⟨⟨event, recorded, rejects⟩, _⟩ := rejected
  obtain ⟨st, member, rfl⟩ := rejectsRow_shown rejects
  exact shown_row reaches recorded member

/-- A request is created once. -/
theorem Turn.created_fresh (turn : Turn server world tid choice thread op resp state)
    {id : String} (rejects : rejectsRow id ⟨op, resp⟩ = true) {row : RunnerRequestRecord}
    (here : row ∈ world.state.table.rows) : row.id ≠ id := by
  intro same
  unfold rejectsRow at rejects
  split at rejects
  · rename_i call
    cases call
    have answer := turn.answer
    simp only [respond] at answer
    rcases stored_cases answer with ⟨err, failed, _⟩ | ⟨table, ran, rfl⟩
    · cases failed
    · obtain ⟨rows, rfl⟩ := createRequest_shows ran
      have distinct := table.primaryKey
      rw [rows, List.map_append, List.nodup_append] at distinct
      refine distinct.2.2 _ (List.mem_map_of_mem here) _ (List.mem_singleton_self _) ?_
      exact same.trans (beq_iff_eq.mp rejects).symm
  · cases rejects

/-- What the new answer shows of a rejected row is over as well. -/
theorem Turn.showsOver (turn : Turn server world tid choice thread op resp state)
    {row : RunnerRequestRecord} (there : row ∈ state.table.rows)
    (rejected : Rejected row.toRunnerState) (finished : ShownOver world.trace row.id) :
    ShownOver (eventOf tid thread op resp :: world.trace) row.id := by
  intro event recorded st member same
  rcases List.mem_cons.mp recorded with rfl | older
  · obtain ⟨found, present, key, status⟩ := answered_shows turn.answer member
    obtain rfl : found = row := state.table.same_row present there (key.trans same)
    rw [← status]
    exact rejected.finished
  · exact finished event older st member same

/-- A rejection stands, and no goroutine has been shown anything else. -/
def RejectionStands (trace : List RunnerEvent) (row : RunnerRequestRecord) : Prop :=
  rejectedIn trace row.id = true → Rejected row.toRunnerState ∧ ShownOver trace row.id

theorem Turn.rejects (turn : Turn server world tid choice thread op resp state)
    (reaches : (machine server).Reaches (Spared server) (opened table) world)
    {row : RunnerRequestRecord} (added : Added choice.now ⟨op, resp⟩ row)
    (fresh : ∀ old ∈ world.state.table.rows, old.id ≠ row.id) :
    RejectionStands (eventOf tid thread op resp :: world.trace) row := by
  have unknown : ShownOver world.trace row.id := by
    intro event recorded st member same
    obtain ⟨old, present, key⟩ := shown_row reaches recorded member
    exact absurd (key.trans same) (fresh old present)
  intro rejected
  obtain ⟨_, rejects | older⟩ := rejectedIn_cons rejected
  · cases added with
    | @created req links status stage reason message st =>
        have answer := turn.answer
        simp only [respond] at answer
        rcases stored_cases answer with ⟨err, failed, _⟩ | ⟨next, ran, rfl⟩
        · cases failed
        · obtain ⟨rows, rfl⟩ := createRequest_shows ran
          rcases turn.permits with ⟨rfl, _⟩ | ⟨rfl, rfl⟩
          · cases rejects
          · have stands : Rejected (admittedRecord choice.now req links .failed "admission" reason
                message).toRunnerState := ⟨rfl, .inl rfl, rfl⟩
            refine ⟨stands, turn.showsOver ?_ stands unknown⟩
            rw [rows]
            exact List.mem_append_right _ (List.mem_singleton_self _)
  · obtain ⟨old, present, same⟩ := rejectedIn_row reaches older
    exact absurd same (fresh old present)

theorem Turn.keepsRejection (turn : Turn server world tid choice thread op resp state)
    (reaches : (machine server).Reaches (Spared server) (opened table) world)
    {row next : RunnerRequestRecord} (here : row ∈ world.state.table.rows)
    (known : RejectionStands world.trace row)
    (change : Change server thread.past choice.now ⟨op, resp⟩ row next) :
    RejectionStands (eventOf tid thread op resp :: world.trace) next := by
  intro rejected
  obtain ⟨unretried, rejects | older⟩ := rejectedIn_cons rejected
  · cases change with
    | _ => cases rejects
  · have before : rejectedIn world.trace row.id = true := change.sameID ▸ older
    obtain ⟨stands, finished⟩ := known before
    have silent (quiet : shown ⟨op, resp⟩ = []) :
        ShownOver (eventOf tid thread op resp :: world.trace) next.id := by
      rw [change.sameID]
      intro event recorded st member same
      rcases List.mem_cons.mp recorded with rfl | older
      · rw [quiet] at member
        cases member
      · exact finished event older st member same
    cases change with
    | written matched knows edit same =>
        obtain ⟨_, _, found, rest, after, move, acts⟩ := Machine.answered_acts turn.answered
        cases move
        obtain rfl : found = thread := Option.some.inj (acts.live.symm.trans turn.live)
        have upheld := (turn_of_acts turn.coherent acts).upholds acts reaches edit here matched same
          stands finished
        exact ⟨⟨upheld.stage, upheld.finished, upheld.sandbox⟩, silent rfl⟩
    | claimed free =>
        simp only [claimable, Bool.and_eq_true, beq_iff_eq] at free
        exact absurd (stands.unlike free.1.1) (by decide)
    | released matched => exact ⟨⟨stands.stage, stands.finished, stands.sandbox⟩, silent rfl⟩
    | retried allowed named =>
        simp [retriesRow, retryUpdates, named] at unretried

theorem rejections_stand
    (reaches : (machine server).Reaches (Spared server) (opened table) world) :
    ∀ row ∈ world.state.table.rows, RejectionStands world.trace row := by
  refine history_invariant RejectionStands ?_ ?_ ?_ ?_ reaches
  · intro row _ rejected
    cases rejected
  · intro world tid choice thread op resp state row before turn _ added fresh
    exact turn.rejects before added fresh
  · intro world tid choice thread op resp state row before turn _ here still known rejected
    obtain ⟨_, rejects | older⟩ := rejectedIn_cons rejected
    · exact absurd rfl (turn.created_fresh rejects here)
    · obtain ⟨stands, finished⟩ := known older
      exact ⟨stands, turn.showsOver still stands finished⟩
  · intro world tid choice thread op resp state row next before turn _ here known change
    exact turn.keepsRejection before here known change

/-- Along the guarded runs a rejected row that is not retried stays failed or
stopping, at the stage of its admission. -/
theorem rejection_final
    (reaches : (machine server).Reaches (Spared server) (opened table) world)
    {row : RunnerRequestRecord} (here : row ∈ world.state.table.rows)
    (rejected : rejectedIn world.trace row.id = true) :
    row.failureStage = "admission" ∧ row.status ≠ .queued ∧ row.status ≠ .creating ∧
      row.status ≠ .running ∧ row.status ≠ .completed := by
  obtain ⟨stands, _⟩ := rejections_stand reaches row here rejected
  refine ⟨stands.stage, ?_, ?_, ?_, ?_⟩
  · intro queued
    exact absurd (stands.unlike queued) (by decide)
  · intro creating
    exact absurd (stands.unlike creating) (by decide)
  · intro running
    exact absurd (stands.unlike running) (by decide)
  · intro completed
    exact absurd (stands.unlike completed) (by decide)

end Worlds

section Samples

/-- A server that no repository may use. -/
def closedServer : Server := { sampleServer with repositoryAllowed := fun _ => false }

/-- Job 1 is rejected by goroutine 0 and completes on a runner of another kind;
goroutine 1 stops the request, and GitHub answers what is given to the removal
of its runner. -/
def untilRemoval (removed : Option GoError) : List RunnerMove :=
  jobEvent .queued (sampleJob 1) :: turns 0 (plain 1) ++
    jobEvent .completed { sampleJob 1 with runnerName := "hosted" } ::
    turns 1 (plain 4 ++ { removed := removed } :: plain 3)

/-- The runner is gone already: the stop ends where it began. -/
theorem rejection_final_stopped :
    ∃ world row, (machine closedServer).Reaches (Spared closedServer) (opened .empty) world ∧
      row ∈ world.state.table.rows ∧ rejectedIn world.trace row.id = true ∧
      tally (fun writer _ => writer == .stopFinished) world.trace row.id = 1 ∧
      row.failureStage = "admission" ∧ row.status ≠ .queued ∧ row.status ≠ .creating ∧
        row.status ≠ .running ∧ row.status ≠ .completed := by
  have ran : ((machine closedServer).runChecked (watched closedServer
      (fun _ thread => rejectionGuard closedServer thread.task thread.past)) (untilRemoval none)
      (opened .empty)).any (fun world => world.state.table.rows.any fun row =>
        rejectedIn world.trace row.id &&
          tally (fun writer _ => writer == .stopFinished) world.trace row.id == 1) = true := by
    decide +kernel
  obtain ⟨world, reaches, found⟩ := Machine.reaches_any ran
  simp only [List.any_eq_true, Bool.and_eq_true, beq_iff_eq] at found
  obtain ⟨row, here, rejected, stopped⟩ := found
  exact ⟨world, row, reaches, here, rejected, stopped, rejection_final reaches here rejected⟩

/-- GitHub refuses the removal for good, and the reconciler, goroutine 2, finds
job 1 completed. -/
def untilOverturned : List RunnerMove :=
  untilRemoval (some { message := "github remove runner: status 403" }) ++
    .start (.reconcileOnce 0) :: turns 2 (plain 6 ++
      { job := .ok { sampleJob 1 with status := "completed" } } :: plain 4)

/-- The rejected request ends as completed. -/
theorem rejection_overturned :
    ¬∀ (server : Server) (world : RunnerWorld) (row : RunnerRequestRecord),
      (machine server).Reaches (fun _ _ => True) (opened .empty) world →
      row ∈ world.state.table.rows → rejectedIn world.trace row.id = true →
      row.failureStage = "admission" ∧ row.status ≠ .queued ∧ row.status ≠ .creating ∧
        row.status ≠ .running ∧ row.status ≠ .completed := by
  intro always
  have ran : ((machine closedServer).runChecked (fun _ _ => true) untilOverturned
      (opened .empty)).any (fun world => world.state.table.rows.any fun row =>
        rejectedIn world.trace row.id && row.status == .completed) = true := by
    decide +kernel
  obtain ⟨world, reaches, found⟩ := Machine.reaches_any ran
  simp only [List.any_eq_true, Bool.and_eq_true, beq_iff_eq] at found
  obtain ⟨row, here, rejected, completed⟩ := found
  have final := always closedServer world row (reaches.weaken fun _ _ _ => True.intro) here rejected
  exact final.2.2.2.2 completed

end Samples

end Runnerd
