import Runnerd.Ownership

/-!
Which job a runner works on. A `workflow_job` delivery names the runner that
took the job; a matching name is authoritative. `stopRunner` turns away a
completed job that conflicts with the recorded assignment, but
`markWorkflowJobInProgress` records whatever job it is told. A row's owner is
therefore safe from deliveries of other runners exactly as far as the rows
these read under the lock leave them nothing to record.
-/

namespace Runnerd

open GoText Interaction Interleaving Versioned

section Deliveries

/-- The deliveries that assign a job or stop a runner. -/
def Task.delivery : Task → Option WorkflowJobEvent
  | .workflowJob event =>
      if event.action = .inProgress ∨ event.action = .completed then some event else none
  | _ => none

/-- An `in_progress` delivery that names the row's own runner has assigned its
job to the running row. -/
def ownsRow (id : String) (event : RunnerEvent) : Bool :=
  match event.task, event.call with
  | .workflowJob delivery, ⟨.writeState .markInProgress st, .ok ()⟩ =>
      delivery.action == .inProgress && delivery.workflowJob.runnerName == st.runnerName &&
        st.status == .running && sanitizeID st.id == id
  | _, _ => false

def owned (trace : List RunnerEvent) (id : String) : Bool := trace.any (ownsRow id)

/-- The delivery names another runner. -/
def foreign (event : WorkflowJobEvent) (st : RunnerState) : Bool :=
  event.workflowJob.runnerName != "" && event.workflowJob.runnerName != st.runnerName

/-- The delivery finds nothing to record or to stop. -/
def leavesAlone (event : WorkflowJobEvent) (st : RunnerState) : Bool :=
  match event.action with
  | .inProgress => event.workflowJob.id == 0 || event.workflowJob.id == st.assignedJobID
  | .completed => workflowJobStopConflictsWithAssignment st event.workflowJob
  | _ => true

def locksRow : Answered → Bool
  | ⟨.lockRunner _, _⟩ => true
  | _ => false

/-- What was read under the lock of a row. -/
def lockedReads : List Answered → List RunnerState
  | [] => []
  | ⟨.readState _, .ok base⟩ :: past =>
      if past.any locksRow then base :: lockedReads past else lockedReads past
  | _ :: past => lockedReads past

/-- A delivery of another runner finds nothing to do at an owned running row. -/
def deliveryGuard (world : RunnerWorld) (thread : RunnerThread) : Answered → Bool
  | ⟨.readState _, .ok base⟩ =>
      thread.task.delivery.all fun event =>
        !thread.past.any locksRow || !foreign event base || base.status != .running ||
          !owned world.trace base.id || leavesAlone event base
  | _ => true

end Deliveries

section Conduct

/-- The writes of `stopRunner` once the row is stopping or completed. -/
def Writer.afterStop : Writer → Bool
  | .stopAssignment | .stopRetry | .stopFailed | .stopCleanupRetry | .stopCleanupFailed
  | .mismatchInspected | .mismatchRequeued | .stopMismatched | .stopFinished => true
  | _ => false

/-- What a delivery may write. -/
def deliveryContract (event : WorkflowJobEvent) (past : List Answered) : Op → Prop
  | .writeState .markInProgress st => event.action = .inProgress ∧ event.workflowJob.id ≠ 0 ∧
      ∃ base ∈ lockedReads past, st = assignJob base event.workflowJob
  | .writeState .stopStopping st => event.action = .completed ∧ ∃ base ∈ lockedReads past,
      workflowJobStopConflictsWithAssignment base event.workflowJob = false ∧
        st = stopStoppingState base event.workflowJob
  | .writeState writer _ => writer.afterStop = true
  | _ => True

variable {server : Server} {event : WorkflowJobEvent} {past : List Answered}

theorem writes_after {writer : Writer} (after : writer.afterStop = true) (st : RunnerState) :
    deliveryContract event past (.writeState writer st) := by
  cases writer with
  | markInProgress => cases after
  | stopStopping => cases after
  | _ => exact after

section Stopping
variable {post : Except GoError (RunnerState × Bool) → List Answered → Prop}

theorem requeueMismatchedWorkflowJob_delivers
    {post : Except GoError (Bool × RunnerState) → List Answered → Prop} (st : RunnerState)
    (queued : Bool) (done : Onward past post) :
    Keeps (deliveryContract event) (requeueMismatchedWorkflowJob st queued) post past := by
  unfold requeueMismatchedWorkflowJob
  split
  · refine keeps_call (writes_after rfl _) fun written => ?_
    cases written with
    | error err => exact keeps_return (done _ _ ⟨[_], rfl⟩)
    | ok _ => exact keeps_return (done _ _ ⟨[_], rfl⟩)
  · refine keeps_call (writes_after rfl _) fun written => ?_
    cases written with
    | error err => exact keeps_return (done _ _ ⟨[_], rfl⟩)
    | ok _ => exact keeps_return (done _ _ ⟨[_], rfl⟩)

theorem stopVerdict_delivers (st : RunnerState) (job : WorkflowJob) (done : Onward past post) :
    Keeps (deliveryContract event) (stopVerdict st job) post past := by
  unfold stopVerdict
  split
  · refine keeps_seq (originalWorkflowJobQueued_keeps st (fun _ _ _ => True.intro)
      fun queued later extends_ _ => keeps_seq ?_)
    apply requeueMismatchedWorkflowJob_delivers
    intro answer last further
    have so_far := extends_.trans further
    match answer with
    | .error err => exact keeps_return (done _ _ so_far)
    | .ok (true, next) => exact keeps_return (done _ _ so_far)
    | .ok (false, next) =>
        refine keeps_call True.intro fun now => keeps_call (writes_after rfl _) fun written => ?_
        cases written with
        | error err => exact keeps_return (done _ _ (so_far.trans ⟨[_, _], rfl⟩))
        | ok _ => exact keeps_return (done _ _ (so_far.trans ⟨[_, _], rfl⟩))
  · refine keeps_call True.intro fun now => keeps_call (writes_after rfl _) fun written => ?_
    cases written with
    | error err => exact keeps_return (done _ _ ⟨[_, _], rfl⟩)
    | ok _ => exact keeps_return (done _ _ ⟨[_, _], rfl⟩)

theorem stopCleanup_delivers (st : RunnerState) (job : WorkflowJob) (done : Onward past post) :
    Keeps (deliveryContract event) (stopCleanup server st job) post past := by
  refine keeps_seq (cleanupGitHubRunner_keeps st (fun _ _ _ _ => True.intro)
    fun cleanup later extends_ _ => ?_)
  cases cleanup with
  | none => exact stopVerdict_delivers st job (done.extend extends_)
  | some cleanupErr =>
      refine keeps_call True.intro fun now => ?_
      split
      · refine keeps_call (writes_after rfl _) fun written => ?_
        cases written with
        | error err => exact keeps_return (done _ _ (extends_.trans ⟨[_, _], rfl⟩))
        | ok _ => exact keeps_return (done _ _ (extends_.trans ⟨[_, _], rfl⟩))
      · refine keeps_call (writes_after rfl _) fun written => ?_
        cases written with
        | error err => exact keeps_return (done _ _ (extends_.trans ⟨[_, _], rfl⟩))
        | ok _ => exact keeps_return (done _ _ (extends_.trans ⟨[_, _], rfl⟩))

theorem stopSandboxWithTimeout_delivers {post : Option GoError → List Answered → Prop}
    (id sandboxID : String) (pid : Nat) (done : Onward past post) :
    Keeps (deliveryContract event) (stopSandboxWithTimeout id sandboxID pid) post past := by
  refine keeps_call True.intro fun req => ?_
  cases req with
  | error err => exact keeps_return (done _ _ ⟨[_], rfl⟩)
  | ok req =>
      refine keeps_call True.intro fun service => ?_
      cases service with
      | error err => exact keeps_return (done _ _ ⟨[_, _], rfl⟩)
      | ok service => exact keeps_last True.intro fun answer => done _ _ ⟨[_, _, _], rfl⟩

theorem stopMarked_delivers (id : String) (st : RunnerState) (job : WorkflowJob)
    (done : Onward past post) :
    Keeps (deliveryContract event) (stopMarked server id st job) post past := by
  unfold stopMarked
  split
  · exact stopCleanup_delivers st job done
  · refine keeps_seq (stopSandboxWithTimeout_delivers id _ _ fun answer later extends_ => ?_)
    cases answer with
    | none => exact stopCleanup_delivers st job (done.extend extends_)
    | some stopErr =>
        dsimp only
        split
        · exact stopCleanup_delivers st job (done.extend extends_)
        · refine keeps_call True.intro fun now => ?_
          split
          · refine keeps_call (writes_after rfl _) fun written => ?_
            cases written with
            | error err => exact keeps_return (done _ _ (extends_.trans ⟨[_, _], rfl⟩))
            | ok _ => exact keeps_return (done _ _ (extends_.trans ⟨[_, _], rfl⟩))
          · refine keeps_call (writes_after rfl _) fun written => ?_
            cases written with
            | error err => exact keeps_return (done _ _ (extends_.trans ⟨[_, _], rfl⟩))
            | ok _ => exact keeps_return (done _ _ (extends_.trans ⟨[_, _], rfl⟩))

theorem stopRunner_delivers (completed : event.action = .completed) (id : String)
    (done : Onward past post) :
    Keeps (deliveryContract event) (stopRunner server id event.workflowJob) post past := by
  have unlocked (answer : Except GoError (RunnerState × Bool)) (later : List Answered)
      (extends_ : past <:+ later) :
      Keeps (deliveryContract event) (do unlockRunner id; return answer) post later :=
    keeps_call True.intro fun _ => keeps_return (done _ _ (extends_.trans ⟨[_], rfl⟩))
  refine keeps_call True.intro fun _ => keeps_seq (keeps_call True.intro fun answer => ?_)
  cases answer with
  | error err => exact keeps_return (unlocked _ _ ⟨[_, _], rfl⟩)
  | ok st =>
      dsimp only
      split
      · exact keeps_return (unlocked _ _ ⟨[_, _], rfl⟩)
      · rename_i agrees
        split
        · split
          · refine keeps_call (writes_after rfl _) fun written => ?_
            cases written with
            | error err => exact keeps_return (unlocked _ _ ⟨[_, _, _], rfl⟩)
            | ok _ => exact keeps_return (unlocked _ _ ⟨[_, _, _], rfl⟩)
          · exact keeps_return (unlocked _ _ ⟨[_, _], rfl⟩)
        · apply keeps_call
          · exact ⟨completed, st, List.mem_cons_self, by simpa using agrees, rfl⟩
          · intro written
            cases written with
            | error err => exact keeps_return (unlocked _ _ ⟨[_, _, _], rfl⟩)
            | ok _ =>
                apply stopMarked_delivers
                intro answer later extends_
                exact unlocked _ _ (List.IsSuffix.trans ⟨[_, _, _], rfl⟩ extends_)

end Stopping

theorem markWorkflowJobInProgress_delivers {post : Except GoError RunnerState → List Answered → Prop}
    (inProgress : event.action = .inProgress) (id : String) (done : Onward past post) :
    Keeps (deliveryContract event) (markWorkflowJobInProgress id event.workflowJob) post past := by
  have unlocked (answer : Except GoError RunnerState) (later : List Answered)
      (extends_ : past <:+ later) :
      Keeps (deliveryContract event) (do unlockRunner id; return answer) post later :=
    keeps_call True.intro fun _ => keeps_return (done _ _ (extends_.trans ⟨[_], rfl⟩))
  refine keeps_call True.intro fun _ => keeps_seq (keeps_call True.intro fun answer => ?_)
  cases answer with
  | error err => exact keeps_return (unlocked _ _ ⟨[_, _], rfl⟩)
  | ok st =>
      dsimp only
      split
      · exact keeps_return (unlocked _ _ ⟨[_, _], rfl⟩)
      · split
        · rename_i records
          have named : event.workflowJob.id ≠ 0 := by
            intro zero
            simp [shouldRecordAssignedJob, zero] at records
          apply keeps_call
          · exact ⟨inProgress, named, st, List.mem_cons_self, rfl⟩
          · intro written
            cases written with
            | error err => exact keeps_return (unlocked _ _ ⟨[_, _, _], rfl⟩)
            | ok _ => exact keeps_return (unlocked _ _ ⟨[_, _, _], rfl⟩)
        · exact keeps_return (unlocked _ _ ⟨[_, _], rfl⟩)

theorem completedWorkflowJobStopID_delivers {post : String → List Answered → Prop}
    (job : WorkflowJob) (done : Onward past post) :
    Keeps (deliveryContract event) (completedWorkflowJobStopID job) post past := by
  unfold completedWorkflowJobStopID
  split
  · exact keeps_return (done _ _ List.suffix_rfl)
  · split
    · exact keeps_return (done _ _ List.suffix_rfl)
    · refine keeps_call True.intro fun answer => ?_
      cases answer with
      | error err => exact keeps_return (done _ _ ⟨[_], rfl⟩)
      | ok st => exact keeps_return (done _ _ ⟨[_], rfl⟩)

/-- Every delivery keeps its contract. -/
theorem delivery_conduct (server : Server) (task : Task) :
    Keeps (fun past op => ∀ event, task.delivery = some event → deliveryContract event past op)
      (taskBody server task) (fun _ _ => True) [] := by
  cases delivers : task.delivery with
  | none => exact keeps_permitted (fun _ _ _ same => nomatch same) _ _
  | some event =>
      have keeps : Keeps (deliveryContract event) (taskBody server task) (fun _ _ => True) [] := by
        cases task with
        | workflowJob received =>
            simp only [Task.delivery] at delivers
            split at delivers
            · cases delivers
              rename_i kind
              unfold taskBody handleWorkflowJob
              rcases kind with action | action
              · simp only [action]
                refine keeps_seq (completedWorkflowJobStopID_delivers _ fun id later _ => ?_)
                split
                · exact keeps_return True.intro
                · exact keeps_seq (markWorkflowJobInProgress_delivers action id
                    fun _ _ _ => keeps_return True.intro)
              · simp only [action]
                refine keeps_seq (completedWorkflowJobStopID_delivers _ fun id later _ => ?_)
                split
                · exact keeps_return True.intro
                · refine keeps_seq (stopRunner_delivers action id fun answer _ _ => ?_)
                  match answer with
                  | .error err => exact keeps_return True.intro
                  | .ok (st, false) => exact keeps_return True.intro
                  | .ok (st, true) => exact keeps_last True.intro fun _ => True.intro
            · cases delivers
        | _ => cases delivers
      simpa using keeps

end Conduct

section Worlds
variable {server : Server} {world : RunnerWorld} {tid : Nat} {choice : Choice}
  {thread : RunnerThread} {op : Op} {resp : op.Resp} {state : ServerState}
  {event : WorkflowJobEvent}

/-- At the version it has read, the delivery leaves the row alone or the row has
no owner. -/
def Deferential (state : ServerState) (trace : List RunnerEvent) (event : WorkflowJobEvent)
    (base : RunnerState) : Prop :=
  foreign event base = true → base.status = .running → leavesAlone event base = true ∨
    ∀ row ∈ state.table.rows, row.id = base.id → row.version = base.version →
      owned trace row.id = false

def DeliveryFact (state : ServerState) (trace : List RunnerEvent) (task : Task)
    (past : List Answered) : Prop :=
  ∀ event, task.delivery = some event → ∀ base ∈ lockedReads past,
    Deferential state trace event base

theorem lockedReads_read {past : List Answered} {base : RunnerState}
    (member : base ∈ lockedReads past) : Reads past base := by
  induction past with
  | nil => cases member
  | cons call past ih =>
      unfold lockedReads at member
      split at member
      · cases member
      · rename_i same
        cases same
        split at member
        · rcases List.mem_cons.mp member with rfl | older
          · exact reads_last _ base
          · exact (ih older).extend ⟨[_], rfl⟩
        · exact (ih member).extend ⟨[_], rfl⟩
      · rename_i same
        cases same
        exact (ih member).extend ⟨[_], rfl⟩

/-- A locked read is the latest call or an earlier one. -/
theorem lockedReads_cons {call : Answered} {past : List Answered} {base : RunnerState}
    (member : base ∈ lockedReads (call :: past)) :
    (past.any locksRow = true ∧ ∃ id, call = ⟨.readState id, .ok base⟩) ∨
      base ∈ lockedReads past := by
  unfold lockedReads at member
  split at member
  · rename_i impossible
    cases impossible
  · rename_i same
    cases same
    split at member
    · rename_i locked
      rcases List.mem_cons.mp member with rfl | older
      · exact .inl ⟨locked, _, rfl⟩
      · exact .inr older
    · exact .inr member
  · rename_i same
    cases same
    exact .inr member

theorem ownsRow_wrote {id : String} {event : RunnerEvent} (owns : ownsRow id event = true) :
    ∃ st, event.call = ⟨.writeState .markInProgress st, .ok ()⟩ ∧ sanitizeID st.id = id := by
  unfold ownsRow at owns
  split at owns
  · rename_i st _ wrote
    simp only [Bool.and_eq_true, beq_iff_eq] at owns
    exact ⟨st, wrote, owns.2⟩
  · cases owns

theorem owned_kept {trace : List RunnerEvent} {event : RunnerEvent} {id : String}
    (other : ownsRow id event = false) : owned (event :: trace) id = owned trace id := by
  simp [owned, other]

/-- No call gives an owner to a row at a version that was read without one. -/
theorem Turn.keepsDeference (turn : Turn server world tid choice thread op resp state)
    {base : RunnerState} {id : String} (named : base.id = sanitizeID id)
    (remembered : Remembered world.state.table.rows base)
    (known : Deferential world.state world.trace event base) :
    Deferential state (eventOf tid thread op resp :: world.trace) event base := by
  intro other running
  refine (known other running).imp_right ?_
  intro unowned next there sameID sameVersion
  obtain ⟨row, here, rowID, rowVersion, rfl | ⟨lease, worker, released, _⟩⟩ :=
    turn.same_version named remembered there sameID sameVersion
  · rw [owned_kept]
    · exact unowned next here rowID rowVersion
    · by_contra owns
      obtain ⟨st, wrote, key⟩ := ownsRow_wrote (by simpa using owns)
      exact turn.unwritten here there wrote key
  · rw [owned_kept, sameID, ← rowID]
    · exact unowned row here rowID rowVersion
    · by_contra owns
      obtain ⟨st, wrote, _⟩ := ownsRow_wrote (by simpa using owns)
      cases released.symm.trans wrote

theorem delivery_own (turn : Turn server world tid choice thread op resp state)
    (guard : deliveryGuard world thread ⟨op, resp⟩ = true)
    (known : DeliveryFact world.state world.trace thread.task thread.past) :
    DeliveryFact state (eventOf tid thread op resp :: world.trace) thread.task
      (⟨op, resp⟩ :: thread.past) := by
  intro event delivers base member
  rcases lockedReads_cons member with ⟨locked, id, last⟩ | older
  · cases last
    intro other running
    have passed : owned world.trace base.id = false ∨ leavesAlone event base = true := by
      simpa [deliveryGuard, delivers, locked, other, running] using guard
    refine passed.symm.imp_right ?_
    intro unowned row _ sameID _
    rw [owned_kept, sameID]
    · exact unowned
    · by_contra owns
      obtain ⟨st, wrote, _⟩ := ownsRow_wrote (by simpa using owns)
      cases wrote
  · obtain ⟨id, read⟩ := lockedReads_read older
    exact turn.keepsDeference (turn.honest_read turn.live read)
      (turn.remembers base (.inl ⟨id, read⟩)) (known event delivers base older)

theorem delivery_fact_reachable {table : RequestTable}
    (reaches : (machine server).Reaches
      (fun world move => watched server deliveryGuard world move = true) (opened table) world) :
    Machine.Informed (fun state trace _ task past => DeliveryFact state trace task past) world := by
  induction reaches with
  | refl =>
      intro tid thread live
      cases live
  | step move before meets stepped ih =>
      have coherent := coherent_reachable before
      refine Machine.informed_step ih stepped ?_ ?_ ?_
      · intro state trace tid task event _ base member
        cases member
      · intro tid choice thread op resp rest state acts moved known
        subst moved
        have turn := turn_of_acts coherent acts
        exact delivery_own turn (turn.watched_call meets) known
      · intro tid choice thread op resp rest state other found acts moved _ live pending known
          event delivers base member
        have turn := turn_of_acts coherent acts
        obtain ⟨id, read⟩ := lockedReads_read member
        exact turn.keepsDeference (turn.honest_read live read)
          (coherent.remembers other found live pending base (.inl ⟨id, read⟩))
          (known event delivers base member)

theorem delivery_obeys {condition : RunnerWorld → RunnerMove → Prop} {table : RequestTable}
    (reaches : (machine server).Reaches condition (opened table) world) :
    Machine.Obeys (fun (task : Task) past op => ∀ event, task.delivery = some event →
      deliveryContract event past op) world := by
  refine Machine.obeys_reachable (delivery_conduct server) ?_ reaches
  constructor
  · intro tid thread live
    cases live
  · intro tid thread live
    cases live

/-- Once a stop is under way its writes find no running row. -/
theorem edit_afterStop {past : List Answered} {writer : Writer} {base st : RunnerState}
    (edit : Edit server past writer base st) (after : writer.afterStop = true) :
    base.status ≠ .running := by
  intro running
  have ended (ended : base.status = .completed ∨ Ends past base) : False := by
    rcases ended with completed | ends
    · exact absurd (running.symm.trans completed) nofun
    · exact absurd (running.symm.trans ends.stopping) nofun
  cases edit with
  | stopAssignment completed job => exact ended (.inl completed)
  | stopRetry stopping scheduled => exact absurd (running.symm.trans stopping) nofun
  | stopFailed stopping message => exact absurd (running.symm.trans stopping) nofun
  | stopCleanupRetry ends scheduled => exact ended (.inr ends)
  | stopCleanupFailed ends message => exact ended (.inr ends)
  | mismatchInspected either => exact ended either
  | mismatchRequeued either => exact ended (either.imp_left Mismatched.completed)
  | stopMismatched ends now => exact ended (.inr ends)
  | stopFinished ends now => exact ended (.inr ends)
  | _ => cases after

/-- What a delivery of another runner writes over an owned running row. -/
theorem Turn.delivers (turn : Turn server world tid choice thread op resp state)
    (delivers : thread.task.delivery = some event)
    (known : DeliveryFact world.state world.trace thread.task thread.past)
    (stands : ReadsStand world.state thread.past) {writer : Writer} {base st : RunnerState}
    (permitted : deliveryContract event thread.past (.writeState writer st))
    (edit : Edit server thread.past writer base st) {row : RunnerRequestRecord}
    (here : row ∈ world.state.table.rows) (matched : versionMatches st row = true)
    (same : rowCore row = core base) (running : row.status = .running)
    (owner : owned world.trace row.id = true) (other : foreign event row.toRunnerState = true) :
    st.assignedJobID = row.assignedJobID ∧ st.status = .running := by
  simp only [versionMatches, Bool.and_eq_true, beq_iff_eq] at matched
  -- the row is what the delivery read under the lock
  have seen {read : RunnerState} (member : read ∈ lockedReads thread.past) (id : st.id = read.id)
      (version : st.version = read.version) :
      leavesAlone event read = true ∧ read.status = .running ∧
        read.assignedJobID = row.assignedJobID := by
    obtain ⟨asked, reads⟩ := lockedReads_read member
    have named := turn.honest_read turn.live reads
    have key : row.id = read.id := by
      rw [matched.1, id, named, sanitizeID_idem]
    have standing := stands asked read reads row here key (matched.2.trans version)
    have status : row.status = read.status := by
      simpa only [settledPart] using congrArg RunnerState.status standing
    have name : row.runnerName = read.runnerName := by
      simpa only [settledPart] using congrArg RunnerState.runnerName standing
    have foreignRead : foreign event read = true := by
      unfold foreign at other ⊢
      rw [← name]
      exact other
    rcases known event delivers read member foreignRead (status.symm.trans running) with alone | free
    · exact ⟨alone, status.symm.trans running, (congrArg RunnerState.assignedJobID standing).symm⟩
    · rw [free row here key (matched.2.trans version)] at owner
      cases owner
  by_cases after : writer.afterStop = true
  · have status : row.status = base.status := congrArg Core.status same
    exact absurd (status.symm.trans running) (edit_afterStop edit after)
  · cases writer with
    | markInProgress =>
        obtain ⟨inProgress, named, read, member, rfl⟩ := permitted
        obtain ⟨alone, status, assigned⟩ := seen member rfl rfl
        have same : event.workflowJob.id = read.assignedJobID := by
          simpa [leavesAlone, inProgress, named] using alone
        exact ⟨same.trans assigned, status⟩
    | stopStopping =>
        obtain ⟨completed, read, member, agrees, rfl⟩ := permitted
        have id : (stopStoppingState read event.workflowJob).id = read.id := by
          unfold stopStoppingState recordAssignedJob
          split <;> rfl
        have version : (stopStoppingState read event.workflowJob).version = read.version := by
          unfold stopStoppingState recordAssignedJob
          split <;> rfl
        obtain ⟨alone, _⟩ := seen member id version
        simp [leavesAlone, completed, agrees] at alone
    | _ => exact absurd permitted after

/-- Along the guarded runs no delivery that names another runner takes an owned
running row's job from it or ends it. -/
theorem delivery_respects_owner {table : RequestTable} {after : RunnerWorld}
    (reaches : (machine server).Reaches
      (fun world move => watched server deliveryGuard world move = true) (opened table) world)
    (live : world.threads[tid]? = some thread) (delivers : thread.task.delivery = some event)
    (stepped : (machine server).step world (.run tid choice) = some after)
    {row next : RunnerRequestRecord} (here : row ∈ world.state.table.rows)
    (there : next ∈ after.state.table.rows) (same : next.id = row.id)
    (running : row.status = .running) (owner : owned world.trace row.id = true)
    (other : foreign event row.toRunnerState = true) :
    next.assignedJobID = row.assignedJobID ∧ next.status = .running := by
  obtain ⟨_, _, actor, op, resp, rest, state, moved, acts, rfl⟩ | ⟨task, moved, _⟩ | ⟨moved, _⟩ :=
    (machine server).step_cases stepped
  · cases moved
    cases live.symm.trans acts.live
    have turn := turn_of_acts (coherent_reachable reaches) acts
    rcases turn.next here there same with rfl | change
    · exact ⟨rfl, running⟩
    · cases change with
      | written matched knows edit core =>
          exact turn.delivers delivers ((delivery_fact_reachable reaches).actor acts)
            ((reads_stand reaches).actor acts)
            ((delivery_obeys reaches).permits acts event delivers) edit here matched core running
            owner other
      | claimed free => simp [claimable, running] at free
      | released matched => exact ⟨rfl, running⟩
      | retried allowed named => simp [retryAllowed, running] at allowed
  · cases moved
  · cases moved

end Worlds

section Samples

def hostedJob (id : Int) (name : String) : WorkflowJob :=
  { id := id, name := name, status := "in_progress", labels := ["linux"], runnerName := "hosted" }

/-- The runner reports the job it has taken, by goroutine 4; then a delivery
about job 1 names a hosted runner, by goroutine 5, which is about to write. -/
def untilHosted (taken : Int) : List RunnerMove :=
  untilRunning ++ jobEvent .inProgress (sampleJob taken) :: turns 4 (plain 4) ++
    jobEvent .inProgress (hostedJob 1 "build") :: turns 5 (plain 3)

/-- The hosted runner's delivery renames the job it agrees on. -/
theorem delivery_respects_owner_renamed :
    ∃ world after thread event row next, (machine sampleServer).Reaches
        (fun world move => watched sampleServer deliveryGuard world move = true)
        (opened .empty) world ∧
      (machine sampleServer).step world (.run 5 {}) = some after ∧
      world.threads[5]? = some thread ∧ thread.task.delivery = some event ∧
      row ∈ world.state.table.rows ∧ next ∈ after.state.table.rows ∧
      owned world.trace row.id = true ∧ foreign event row.toRunnerState = true ∧
      row.assignedJobName ≠ next.assignedJobName ∧
      next.assignedJobID = row.assignedJobID ∧ next.status = .running := by
  have ran : ((machine sampleServer).runChecked (watched sampleServer deliveryGuard)
      (untilHosted 1) (opened .empty)).any (fun world => (world.threads[5]?).any fun thread =>
        thread.task.delivery.any fun event =>
        ((machine sampleServer).step world (.run 5 {})).any fun after =>
        world.state.table.rows.any fun row => after.state.table.rows.any fun next =>
          decide (next.id = row.id ∧ row.status = .running ∧ owned world.trace row.id = true ∧
            foreign event row.toRunnerState = true ∧
            row.assignedJobName ≠ next.assignedJobName)) = true := by decide +kernel
  obtain ⟨world, reaches, found⟩ := Machine.reaches_any ran
  simp only [Option.any_eq_true, List.any_eq_true, decide_eq_true_eq] at found
  obtain ⟨thread, live, event, delivers, after, stepped, row, here, next, there, same, running,
    owner, other, renamed⟩ := found
  exact ⟨world, after, thread, event, row, next, reaches, stepped, live, delivers, here, there,
    owner, other, renamed,
    delivery_respects_owner reaches live delivers stepped here there same running owner other⟩

/-- The runner has taken job 2; the hosted runner's delivery takes it away. -/
theorem delivery_overwrites_owner :
    ¬∀ (server : Server) (world after : RunnerWorld) (tid : Nat) (choice : Choice)
        (thread : RunnerThread) (event : WorkflowJobEvent) (row next : RunnerRequestRecord),
      (machine server).Reaches (fun _ _ => True) (opened .empty) world →
      (machine server).step world (.run tid choice) = some after →
      world.threads[tid]? = some thread → thread.task.delivery = some event →
      row ∈ world.state.table.rows → next ∈ after.state.table.rows → next.id = row.id →
      row.status = .running → owned world.trace row.id = true →
      foreign event row.toRunnerState = true →
      next.assignedJobID = row.assignedJobID ∧ next.status = .running := by
  intro always
  have ran : ((machine sampleServer).runChecked (fun _ _ => true) (untilHosted 2)
      (opened .empty)).any (fun world => (world.threads[5]?).any fun thread =>
        thread.task.delivery.any fun event =>
        ((machine sampleServer).step world (.run 5 {})).any fun after =>
        world.state.table.rows.any fun row => after.state.table.rows.any fun next =>
          decide (next.id = row.id ∧ row.status = .running ∧ owned world.trace row.id = true ∧
            foreign event row.toRunnerState = true ∧ row.assignedJobID = 2 ∧
            next.assignedJobID = 1)) = true := by decide +kernel
  obtain ⟨world, reaches, found⟩ := Machine.reaches_any ran
  simp only [Option.any_eq_true, List.any_eq_true, decide_eq_true_eq] at found
  obtain ⟨thread, live, event, delivers, after, stepped, row, here, next, there, same, running,
    owner, other, before, assigned⟩ := found
  obtain ⟨kept, _⟩ := always sampleServer world after 5 {} thread event row next
    (reaches.weaken fun _ _ _ => True.intro) stepped live delivers here there same running owner
    other
  rw [before, assigned] at kept
  exact absurd kept (by decide)

end Samples

end Runnerd
