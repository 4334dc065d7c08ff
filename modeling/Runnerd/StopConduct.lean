import Runnerd.Transitions

/-!
The functions that stop a runner keep the contract. Each lemma says what a
caller may rely on when the function returns; `later` is everything the
goroutine has been answered by then.
-/

namespace Runnerd

open GoText Interaction Interleaving

variable {server : Server} {past : List Answered}

/-- The caller relies on nothing but that time has passed. -/
def Onward {α : Type} (past : List Answered) (post : α → List Answered → Prop) : Prop :=
  ∀ value later, past <:+ later → post value later

theorem Onward.extend {α : Type} {later : List Answered} {post : α → List Answered → Prop}
    (done : Onward past post) (extends_ : past <:+ later) : Onward later post :=
  fun value last further => done value last (extends_.trans further)

theorem reads_last (id : String) (base : RunnerState) :
    Reads (⟨.readState id, .ok base⟩ :: past) base := ⟨id, List.mem_cons_self⟩

theorem knows_read (id : String) (base : RunnerState) :
    Knows (⟨.readState id, .ok base⟩ :: past) base := .inl (reads_last id base)

theorem wrote_last (writer : Writer) (st : RunnerState) :
    Wrote (⟨.writeState writer st, .ok ()⟩ :: past) st := ⟨writer, List.mem_cons_self⟩

theorem knows_write (writer : Writer) (st : RunnerState) :
    Knows (⟨.writeState writer st, .ok ()⟩ :: past) st.advanced :=
  .inr ⟨st, wrote_last writer st, rfl⟩

section Locks
variable {α : Type} {post : α → List Answered → Prop}

theorem withRunnerLock_keeps {id : String} {body : Action α}
    (inside : Keeps (contract server) body
      (fun value later => post value (⟨.unlockRunner id, ()⟩ :: later))
      (⟨.lockRunner id, ()⟩ :: past)) :
    Keeps (contract server) (withRunnerLock id body) post past := by
  refine keeps_call trivial fun _ => keeps_seq ?_
  exact keeps_mono (fun value later holds => keeps_call trivial fun _ => keeps_return holds) inside

/-- The read that opens nearly every critical section. -/
theorem lockedRead_keeps {id : String} {next : Except GoError RunnerState → Action α}
    (failed : ∀ err, Keeps (contract server) (next (.error err))
      (fun value later => post value (⟨.unlockRunner id, ()⟩ :: later))
      (⟨.readState id, .error err⟩ :: ⟨.lockRunner id, ()⟩ :: past))
    (found : ∀ st, Keeps (contract server) (next (.ok st))
      (fun value later => post value (⟨.unlockRunner id, ()⟩ :: later))
      (⟨.readState id, .ok st⟩ :: ⟨.lockRunner id, ()⟩ :: past)) :
    Keeps (contract server) (withRunnerLock id (fetchState id >>= next)) post past := by
  refine withRunnerLock_keeps (keeps_call trivial fun answer => ?_)
  cases answer with
  | error err => exact failed err
  | ok st => exact found st

end Locks

section Calls

theorem writeStateOrLog_keeps {post : Unit → List Answered → Prop} {writer : Writer}
    {st : RunnerState} (permitted : contract server past (.writeState writer st))
    (done : Onward past post) :
    Keeps (contract server) (writeStateOrLog writer st) post past :=
  keeps_call permitted fun _ => keeps_return (done () _ (List.suffix_cons _ _))

theorem dropLease_keeps {post : Unit → List Answered → Prop} (id workerID : String)
    (done : Onward past post) :
    Keeps (contract server) (dropLease id workerID) post past :=
  keeps_call trivial fun _ => keeps_return (done () _ (List.suffix_cons _ _))

theorem stopSandboxWithTimeout_keeps {post : Option GoError → List Answered → Prop}
    (id sandboxID : String) (pid : Nat)
    (done : ∀ answer later, past <:+ later →
      ((∀ err, answer = some err → isSandboxGone err = true) → Released later sandboxID) →
      (answer.isSome = true → ∃ call ∈ later, stopRefused call = true) → post answer later) :
    Keeps (contract server) (stopSandboxWithTimeout id sandboxID pid) post past := by
  refine keeps_call trivial fun req => ?_
  cases req with
  | error err =>
      refine keeps_return (done _ _ ⟨[_], rfl⟩ (fun gone => ?_)
        fun _ => ⟨_, List.mem_cons_self, rfl⟩)
      exact .inr (.inr ⟨_, List.mem_cons_self, gone _ rfl⟩)
  | ok req =>
      refine keeps_call trivial fun service => ?_
      cases service with
      | error err =>
          refine keeps_return (done _ _ ⟨[_, _], rfl⟩ (fun gone => ?_)
            fun _ => ⟨_, List.mem_cons_self, rfl⟩)
          exact .inr (.inr ⟨_, List.mem_cons_self, gone _ rfl⟩)
      | ok service =>
          refine keeps_last ⟨_, _, _, rfl⟩ fun answer => ?_
          refine done _ _ ⟨[_, _, _], rfl⟩ (fun gone => .inr (.inl ⟨_, List.mem_cons_self, ?_⟩)) ?_
          · cases answer with
            | none => simp [stopConfirmed]
            | some err => simp [stopConfirmed, gone err rfl]
          · intro failed
            obtain ⟨err, rfl⟩ := Option.isSome_iff_exists.mp failed
            exact ⟨_, List.mem_cons_self, rfl⟩

theorem cleanupGitHubRunner_keeps {rule : List Answered → Op → Prop}
    {post : Option GoError → List Answered → Prop} (st : RunnerState)
    (quiet : ∀ past repository group name, rule past (.removeRunnerByName repository group name))
    (done : ∀ answer later, past <:+ later →
      (∀ err, answer = some err → ∃ repository group name,
        (⟨.removeRunnerByName repository group name, some err⟩ : Answered) ∈ later) →
      post answer later) :
    Keeps rule (cleanupGitHubRunner st) post past := by
  unfold cleanupGitHubRunner
  split
  · exact keeps_return (done none past List.suffix_rfl nofun)
  · split
    · exact keeps_return (done none past List.suffix_rfl nofun)
    · refine keeps_last (quiet _ _ _ _) fun answer => done answer _ (List.suffix_cons _ _) ?_
      rintro err rfl
      exact ⟨_, _, _, List.mem_cons_self⟩

theorem originalWorkflowJobQueued_keeps {rule : List Answered → Op → Prop}
    {post : Except GoError Bool → List Answered → Prop} (st : RunnerState)
    (quiet : ∀ past repository jobID, rule past (.getWorkflowJob repository jobID))
    (done : ∀ answer later, past <:+ later →
      (answer ≠ .ok false → ∃ repository reply,
        (⟨.getWorkflowJob repository st.workflowJobID, reply⟩ : Answered) ∈ later ∧
          reportsQueued reply = true) → post answer later) :
    Keeps rule (originalWorkflowJobQueued st) post past := by
  unfold originalWorkflowJobQueued
  split
  · exact keeps_return (done _ past List.suffix_rfl fun asked => absurd rfl asked)
  · refine keeps_call (quiet _ _ _) fun answer => ?_
    cases answer with
    | error err =>
        exact keeps_return (done _ _ (List.suffix_cons _ _) fun _ => ⟨_, _, List.mem_cons_self, rfl⟩)
    | ok job =>
        refine keeps_return (done _ _ (List.suffix_cons _ _) fun asked =>
          ⟨_, _, List.mem_cons_self, ?_⟩)
        by_contra waits
        exact asked (congrArg Except.ok (by simpa [reportsQueued] using waits))

end Calls

section Stopping

theorem Ends.extend {base : RunnerState} {later : List Answered} (ends : Ends past base)
    (extends_ : past <:+ later) : Ends later base :=
  ⟨ends.stopping, ends.released.extend extends_⟩

theorem requeueMismatchedWorkflowJob_keeps
    {post : Except GoError (Bool × RunnerState) → List Answered → Prop}
    (st : RunnerState) (queued : Bool) (knows : Knows past st)
    (ended : st.status = .completed ∨ Ends past st)
    (requeues : queued = true → Mismatched past st ∨ Ends past st)
    (done : ∀ answer later, past <:+ later →
      (∀ next, answer = .ok (true, next) → next.status = .queued) →
      (∀ next, answer = .ok (false, next) → Knows later next ∧ next.status = st.status ∧
        next.sandboxID = st.sandboxID) → post answer later) :
    Keeps (contract server) (requeueMismatchedWorkflowJob st queued) post past := by
  unfold requeueMismatchedWorkflowJob
  split
  · refine keeps_call (.inr ⟨st, knows, .mismatchInspected ended⟩) fun written => ?_
    cases written with
    | error err => exact keeps_return (done _ _ ⟨[_], rfl⟩ (by simp) (by simp))
    | ok _ =>
        refine keeps_return (done _ _ ⟨[_], rfl⟩ (by simp) fun next same => ?_)
        cases same
        exact ⟨knows_write _ _, rfl, rfl⟩
  · rename_i waits
    refine keeps_call (.inr ⟨st, knows, .mismatchRequeued (requeues (by simpa using waits))⟩)
      fun written => ?_
    cases written with
    | error err => exact keeps_return (done _ _ ⟨[_], rfl⟩ (by simp) (by simp))
    | ok _ =>
        refine keeps_return (done _ _ ⟨[_], rfl⟩ (fun next same => ?_) (by simp))
        cases same
        rfl

/-- The request a finished stop returns is neither creating nor running. -/
def StopReturns (post : Except GoError (RunnerState × Bool) → List Answered → Prop)
    (past : List Answered) : Prop :=
  ∀ answer later, past <:+ later →
    (∀ st recorded, answer = .ok (st, recorded) → occupied st.status = false) → post answer later

theorem StopReturns.extend {post : Except GoError (RunnerState × Bool) → List Answered → Prop}
    {later : List Answered} (done : StopReturns post past) (extends_ : past <:+ later) :
    StopReturns post later :=
  fun answer last further => done answer last (extends_.trans further)

variable {post : Except GoError (RunnerState × Bool) → List Answered → Prop}

theorem StopReturns.failed {later : List Answered} (done : StopReturns post past)
    (extends_ : past <:+ later) (err : GoError) : post (.error err) later :=
  done _ _ extends_ (by simp)

theorem StopReturns.returned {later : List Answered} (done : StopReturns post past)
    (extends_ : past <:+ later) (st : RunnerState) (recorded : Bool)
    (vacant : occupied st.status = false) : post (.ok (st, recorded)) later := by
  refine done _ _ extends_ fun next flag same => ?_
  cases same
  exact vacant

theorem stopFinishedState_vacant (st : RunnerState) (now : Time) :
    occupied (stopFinishedState st now).status = false := by
  unfold stopFinishedState
  dsimp only
  split <;> rfl

theorem scheduled_stopping {cfg : Config} {now : Time} {st next : RunnerState} {err : GoError}
    (scheduled : scheduleCleanupRetry cfg now st err = some next) :
    ∃ code count, next = cleanupRetryState cfg now st code err count := by
  unfold scheduleCleanupRetry at scheduled
  dsimp only at scheduled
  split at scheduled
  · cases scheduled
  · split at scheduled
    · exact ⟨_, _, (Option.some.inj scheduled).symm⟩
    · split at scheduled
      · cases scheduled
      · exact ⟨_, _, (Option.some.inj scheduled).symm⟩

theorem stopVerdict_keeps (st : RunnerState) (job : WorkflowJob) (knows : Knows past st)
    (ends : Ends past st) (done : StopReturns post past) :
    Keeps (contract server) (stopVerdict st job) post past := by
  unfold stopVerdict
  split
  · refine keeps_seq (originalWorkflowJobQueued_keeps st (fun _ _ _ => trivial)
      fun queued later extends_ _ => keeps_seq ?_)
    refine requeueMismatchedWorkflowJob_keeps st _ (knows.extend extends_)
      (.inr (ends.extend extends_)) (fun _ => .inr (ends.extend extends_))
      fun answer last further requeued inspected => ?_
    have so_far := extends_.trans further
    match answer with
    | .error err => exact keeps_return (done.failed so_far err)
    | .ok (true, next) => exact keeps_return (done.returned so_far _ _ (by rw [requeued next rfl]; rfl))
    | .ok (false, next) =>
        obtain ⟨known, status, sandbox⟩ := inspected next rfl
        have ended : Ends last next :=
          ⟨status.trans ends.stopping, sandbox ▸ ends.released.extend so_far⟩
        refine keeps_call trivial fun now => ?_
        refine keeps_call (.inr ⟨next, known.extend ⟨[_], rfl⟩,
          .stopMismatched (ended.extend ⟨[_], rfl⟩) now⟩) fun written => ?_
        cases written with
        | error err => exact keeps_return (done.failed (so_far.trans ⟨[_, _], rfl⟩) err)
        | ok _ => exact keeps_return (done.returned (so_far.trans ⟨[_, _], rfl⟩) _ _ rfl)
  · refine keeps_call trivial fun now => ?_
    refine keeps_call (.inr ⟨st, knows.extend ⟨[_], rfl⟩,
      .stopFinished (ends.extend ⟨[_], rfl⟩) now⟩) fun written => ?_
    cases written with
    | error err => exact keeps_return (done.failed ⟨[_, _], rfl⟩ err)
    | ok _ => exact keeps_return (done.returned ⟨[_, _], rfl⟩ _ _ (stopFinishedState_vacant st now))

theorem stopCleanup_keeps (st : RunnerState) (job : WorkflowJob) (knows : Knows past st)
    (ends : Ends past st) (done : StopReturns post past) :
    Keeps (contract server) (stopCleanup server st job) post past := by
  refine keeps_seq (cleanupGitHubRunner_keeps st (fun _ _ _ _ => trivial)
    fun cleanup later extends_ _ => ?_)
  cases cleanup with
  | none =>
      exact stopVerdict_keeps st job (knows.extend extends_) (ends.extend extends_)
        (done.extend extends_)
  | some cleanupErr =>
      refine keeps_call trivial fun now => ?_
      have so_far : past <:+ ⟨.now, now⟩ :: later := extends_.trans ⟨[_], rfl⟩
      split
      · rename_i next scheduled
        refine keeps_call (.inr ⟨st, knows.extend so_far,
          .stopCleanupRetry (ends.extend so_far) scheduled⟩) fun written => ?_
        cases written with
        | error err => exact keeps_return (done.failed (so_far.trans ⟨[_], rfl⟩) _)
        | ok _ =>
            obtain ⟨code, count, rfl⟩ := scheduled_stopping scheduled
            exact keeps_return (done.returned (so_far.trans ⟨[_], rfl⟩) _ _ rfl)
      · refine keeps_call (.inr ⟨st, knows.extend so_far,
          .stopCleanupFailed (ends.extend so_far) _⟩) fun written => ?_
        cases written with
        | error err => exact keeps_return (done.failed (so_far.trans ⟨[_], rfl⟩) _)
        | ok _ => exact keeps_return (done.failed (so_far.trans ⟨[_], rfl⟩) _)

theorem scheduledStop_stopping {cfg : Config} {now : Time} {st next : RunnerState} {err : GoError}
    (scheduled : scheduleStopRetry cfg now st err = some next) : next.status = .stopping := by
  unfold scheduleStopRetry at scheduled
  dsimp only at scheduled
  split at scheduled
  · cases scheduled
  · cases scheduled
    rfl

theorem stopMarked_keeps (id : String) (st : RunnerState) (job : WorkflowJob)
    (knows : Knows past st) (stopping : st.status = .stopping) (done : StopReturns post past) :
    Keeps (contract server) (stopMarked server id st job) post past := by
  unfold stopMarked
  split
  · rename_i empty
    exact stopCleanup_keeps st job knows ⟨stopping, .inl empty⟩ done
  · refine keeps_seq (stopSandboxWithTimeout_keeps id _ _
      fun answer later extends_ released _ => ?_)
    cases answer with
    | none =>
        exact stopCleanup_keeps st job (knows.extend extends_) ⟨stopping, released (by simp)⟩
          (done.extend extends_)
    | some stopErr =>
        dsimp only
        split
        · rename_i gone
          have ended : Released later st.sandboxID := released fun err same => by
            cases same
            exact gone
          exact stopCleanup_keeps st job (knows.extend extends_) ⟨stopping, ended⟩
            (done.extend extends_)
        · refine keeps_call trivial fun now => ?_
          have so_far : past <:+ ⟨.now, now⟩ :: later := extends_.trans ⟨[_], rfl⟩
          split
          · rename_i next scheduled
            refine keeps_call (.inr ⟨st, knows.extend so_far, .stopRetry stopping scheduled⟩)
              fun written => ?_
            cases written with
            | error err => exact keeps_return (done.failed (so_far.trans ⟨[_], rfl⟩) _)
            | ok _ =>
                exact keeps_return (done.returned (so_far.trans ⟨[_], rfl⟩) _ _
                  (by simp [RunnerState.advanced, scheduledStop_stopping scheduled, occupied]))
          · refine keeps_call (.inr ⟨st, knows.extend so_far, .stopFailed stopping _⟩)
              fun written => ?_
            cases written with
            | error err => exact keeps_return (done.failed (so_far.trans ⟨[_], rfl⟩) _)
            | ok _ => exact keeps_return (done.failed (so_far.trans ⟨[_], rfl⟩) _)

/-- What `stopRunner` returns is vacant, or the row as it read it. -/
theorem stopRunner_keeps (id : String) (job : WorkflowJob)
    (done : ∀ answer later, past <:+ later →
      (∀ st recorded, answer = .ok (st, recorded) → occupied st.status = true →
        Reads later st) → post answer later) :
    Keeps (contract server) (stopRunner server id job) post past := by
  refine lockedRead_keeps (fun err => ?_) fun st => ?_
  · exact keeps_return (done _ _ ⟨[_, _, _], rfl⟩ (by simp))
  · dsimp only
    split
    · refine keeps_return (done _ _ ⟨[_, _, _], rfl⟩ fun next recorded same _ => ?_)
      cases same
      exact (reads_last id st).extend ⟨[_], rfl⟩
    · split
      · rename_i completed
        split
        · refine keeps_call (.inr ⟨st, knows_read id st, .stopAssignment completed job⟩)
            fun written => ?_
          cases written with
          | error err => exact keeps_return (done _ _ ⟨[_, _, _, _], rfl⟩ (by simp))
          | ok _ =>
              refine keeps_return (done _ _ ⟨[_, _, _, _], rfl⟩ fun next recorded same busy => ?_)
              cases same
              simp [assignJob, completed, occupied] at busy
        · refine keeps_return (done _ _ ⟨[_, _, _], rfl⟩ fun next recorded same busy => ?_)
          cases same
          simp [completed, occupied] at busy
      · rename_i uncompleted
        refine keeps_call (.inr ⟨st, knows_read id st, .stopStopping ⟨id, _, rfl⟩ uncompleted job⟩)
          fun written => ?_
        cases written with
        | error err => exact keeps_return (done _ _ ⟨[_, _, _, _], rfl⟩ (by simp))
        | ok _ =>
            refine stopMarked_keeps id _ job (knows_write _ _) rfl ?_
            intro answer later extends_ vacant
            refine done _ _ (List.IsSuffix.trans ⟨[_, _, _], rfl⟩
              (extends_.trans ⟨[_], rfl⟩)) fun next recorded same busy => ?_
            rw [vacant next recorded same] at busy
            cases busy

theorem stopIfExists_keeps {post : Unit → List Answered → Prop} (id : String) (job : WorkflowJob)
    (done : Onward past post) :
    Keeps (contract server) (stopIfExists server id job) post past := by
  refine keeps_call trivial fun answer => ?_
  cases answer with
  | error err => exact keeps_return (done _ _ ⟨[_], rfl⟩)
  | ok st =>
      refine keeps_seq (stopRunner_keeps id job fun answer later extends_ _ => ?_)
      exact keeps_return (done _ _ (List.IsSuffix.trans ⟨[_], rfl⟩ extends_))

end Stopping

section Forced
variable {post : Unit → List Answered → Prop}

theorem forceCleanup_keeps (st : RunnerState) (stage reason message : String)
    (knows : Knows past st) (ends : Ends past st) (done : Onward past post) :
    Keeps (contract server) (forceCleanup server st stage reason message) post past := by
  refine keeps_seq (cleanupGitHubRunner_keeps st (fun _ _ _ _ => trivial)
    fun cleanup later extends_ _ => ?_)
  cases cleanup with
  | none =>
      refine keeps_call trivial fun now => ?_
      have so_far : past <:+ ⟨.now, now⟩ :: later := extends_.trans ⟨[_], rfl⟩
      exact writeStateOrLog_keeps (.inr ⟨st, knows.extend so_far,
        .forceFailed (ends.extend so_far) stage reason message now⟩) (done.extend so_far)
  | some cleanupErr =>
      refine keeps_call trivial fun now => ?_
      have so_far : past <:+ ⟨.now, now⟩ :: later := extends_.trans ⟨[_], rfl⟩
      split
      · rename_i next scheduled
        exact writeStateOrLog_keeps (.inr ⟨st, knows.extend so_far,
          .forceCleanupRetry (ends.extend so_far) scheduled⟩) (done.extend so_far)
      · refine keeps_call trivial fun again => ?_
        have so_far : past <:+ ⟨.now, again⟩ :: ⟨.now, now⟩ :: later := so_far.trans ⟨[_], rfl⟩
        exact writeStateOrLog_keeps (.inr ⟨st, knows.extend so_far,
          .forceUnregistered (ends.extend so_far) stage reason message cleanupErr again⟩)
          (done.extend so_far)

theorem forceMarked_keeps (id : String) (st : RunnerState) (stage reason message : String)
    (knows : Knows past st) (stopping : st.status = .stopping) (done : Onward past post) :
    Keeps (contract server) (forceMarked server id st stage reason message) post past := by
  unfold forceMarked
  split
  · rename_i empty
    exact forceCleanup_keeps st stage reason message knows ⟨stopping, .inl empty⟩ done
  · refine keeps_seq (stopSandboxWithTimeout_keeps id _ _
      fun answer later extends_ released _ => ?_)
    cases answer with
    | none =>
        exact forceCleanup_keeps st stage reason message (knows.extend extends_)
          ⟨stopping, released (by simp)⟩ (done.extend extends_)
    | some err =>
        dsimp only
        split
        · rename_i gone
          have ended : Released later st.sandboxID := released fun err same => by
            cases same
            exact gone
          exact forceCleanup_keeps st stage reason message (knows.extend extends_)
            ⟨stopping, ended⟩ (done.extend extends_)
        · exact writeStateOrLog_keeps (.inr ⟨st, knows.extend extends_,
            .forceStopFailed stopping _⟩) (done.extend extends_)

theorem failAndStopRunnerVersion_keeps (id : String) (expectedVersion : Nat)
    (stage reason message : String) (seen : SeenActive past id) (done : Onward past post) :
    Keeps (contract server)
      (failAndStopRunnerVersion server id expectedVersion stage reason message) post past := by
  refine lockedRead_keeps (fun err => keeps_return (done _ _ ⟨[_, _, _], rfl⟩)) fun st => ?_
  dsimp only
  split
  · exact keeps_return (done _ _ ⟨[_, _, _], rfl⟩)
  · split
    · exact keeps_return (done _ _ ⟨[_, _, _], rfl⟩)
    · rename_i unfinished
      refine keeps_call (.inr ⟨st, knows_read id st,
        .forceStopping (not_or.mp unfinished)
          ⟨id, seen.extend ⟨[_, _], rfl⟩, List.mem_cons_self⟩ stage reason message⟩)
        fun written => ?_
      cases written with
      | error err => exact keeps_return (done _ _ ⟨[_, _, _, _], rfl⟩)
      | ok _ =>
          refine forceMarked_keeps id _ stage reason message (knows_write _ _) rfl ?_
          exact fun value later extends_ => done _ _ (List.IsSuffix.trans ⟨[_, _, _], rfl⟩
            (extends_.trans ⟨[_], rfl⟩))


theorem retryOrFail_keeps (id stage : String) (err : GoError) (known : stage ∈ attemptStages)
    (seen : SeenActive past id) (done : Onward past post) :
    Keeps (contract server) (retryOrFail server id stage err) post past := by
  refine lockedRead_keeps (fun err => keeps_return (done _ _ ⟨[_, _, _], rfl⟩)) fun st => ?_
  dsimp only
  split
  · exact keeps_return (done _ _ ⟨[_, _, _], rfl⟩)
  · rename_i unfinished
    refine keeps_call trivial fun now => writeStateOrLog_keeps ?_ ?_
    · exact .inr ⟨st, (knows_read id st).extend ⟨[_], rfl⟩,
        .retryOrFail (not_or.mp unfinished)
          ⟨id, seen.extend ⟨[_, _, _], rfl⟩, List.mem_cons_of_mem _ List.mem_cons_self⟩
          known err now⟩
    · exact fun value later extends_ => done _ _ (List.IsSuffix.trans ⟨[_, _, _], rfl⟩
        (extends_.trans ⟨[_], rfl⟩))

end Forced

end Runnerd
