import Runnerd.StopConduct

/-!
The functions that start, watch and recover a runner keep the contract.
-/

namespace Runnerd

open GoText Interaction Interleaving

variable {server : Server} {past : List Answered}

section Assignment

theorem markWorkflowJobInProgress_keeps {post : Except GoError RunnerState → List Answered → Prop}
    (id : String) (job : WorkflowJob) (done : Onward past post) :
    Keeps (contract server) (markWorkflowJobInProgress id job) post past := by
  refine lockedRead_keeps (fun err => keeps_return (done _ _ ⟨[_, _, _], rfl⟩)) fun st => ?_
  dsimp only
  split
  · exact keeps_return (done _ _ ⟨[_, _, _], rfl⟩)
  · rename_i unstopped
    split
    · refine keeps_call (.inr ⟨st, knows_read id st, .markInProgress (reads_last id st)
        (not_or.mp unstopped) job⟩)
        fun written => ?_
      cases written with
      | error err => exact keeps_return (done _ _ ⟨[_, _, _, _], rfl⟩)
      | ok _ => exact keeps_return (done _ _ ⟨[_, _, _, _], rfl⟩)
    · exact keeps_return (done _ _ ⟨[_, _, _], rfl⟩)

theorem markRunnerJobStarted_keeps {post : Unit → List Answered → Prop} (id : String)
    (done : Onward past post) :
    Keeps (contract server) (markRunnerJobStarted id) post past := by
  refine lockedRead_keeps (fun err => keeps_return (done _ _ ⟨[_, _, _], rfl⟩)) fun st => ?_
  dsimp only
  split
  · exact keeps_return (done _ _ ⟨[_, _, _], rfl⟩)
  · rename_i unmarked
    simp only [not_or] at unmarked
    refine writeStateOrLog_keeps
      (.inr ⟨st, knows_read id st, .markJobStarted (reads_last id st) unmarked.2.2⟩) ?_
    exact fun value later extends_ => done _ _ (List.IsSuffix.trans ⟨[_, _], rfl⟩
      (extends_.trans ⟨[_], rfl⟩))

theorem deferQueuedRequest_keeps {post : Unit → List Answered → Prop} (id : String)
    (nextAttempt : Time) (done : Onward past post) :
    Keeps (contract server) (deferQueuedRequest id server.workerID nextAttempt) post past := by
  refine lockedRead_keeps (fun err => ?_) fun st => ?_
  · exact dropLease_keeps _ _ fun value later extends_ => done _ _
      (List.IsSuffix.trans ⟨[_, _], rfl⟩ (extends_.trans ⟨[_], rfl⟩))
  · dsimp only
    split
    · exact dropLease_keeps _ _ fun value later extends_ => done _ _
        (List.IsSuffix.trans ⟨[_, _], rfl⟩ (extends_.trans ⟨[_], rfl⟩))
    · rename_i ours
      simp only [not_or, not_not] at ours
      refine keeps_call (.inr ⟨st, knows_read id st, 
        .deferQueued (reads_last id st) ours.1 ours.2 nextAttempt⟩)
        fun written => ?_
      cases written with
      | error err =>
          exact dropLease_keeps _ _ fun value later extends_ => done _ _
            (List.IsSuffix.trans ⟨[_, _, _], rfl⟩ (extends_.trans ⟨[_], rfl⟩))
      | ok _ => exact keeps_return (done _ _ ⟨[_, _, _, _], rfl⟩)

end Assignment

section Starting

/-- The state `failStart` falls back on when it cannot read the row. Only the
read row and its snapshot can still be written. -/
inductive Fallback (past : List Answered) : RunnerState → String → Prop where
  | stale {st : RunnerState} {stage : String} (stale : Stale past st) : Fallback past st stage
  | read {st : RunnerState} {stage : String} (knows : Knows past st)
      (unstopped : st.status ≠ .completed ∧ st.status ≠ .stopping) : Fallback past st stage
  | snapshot {base : RunnerState} (knows : Knows past base) {service : SandboxService}
      (refused : ∃ err earlier, past =
        ⟨.writeState .startSnapshot (snapshotState base service), .error err⟩ :: earlier) :
      Fallback past (snapshotState base service) "sandbox_config"

theorem applyFailure_id (cfg : Config) (now : Time) (st : RunnerState) (stage : String)
    (err : GoError) (allowRetry : Bool) :
    (applyFailure cfg now st stage err allowRetry).id = st.id ∧
      (applyFailure cfg now st stage err allowRetry).version = st.version := by
  unfold applyFailure
  dsimp only
  split
  · exact ⟨rfl, rfl⟩
  · split <;> exact ⟨rfl, rfl⟩

variable {post : Unit → List Answered → Prop}

theorem failStart_keeps (id : String) (st : RunnerState) (stage : String) (err : GoError)
    (known : stage ∈ attemptStages) (fallback : Fallback past st stage) (done : Onward past post) :
    Keeps (contract server) (failStart server id st stage err) post past := by
  refine lockedRead_keeps (fun readErr => keeps_call trivial fun now => ?_) fun current => ?_
  · refine writeStateOrLog_keeps ?_ fun value later extends_ => done _ _
      (List.IsSuffix.trans ⟨[_, _, _], rfl⟩ (extends_.trans ⟨[_], rfl⟩))
    cases fallback with
    | stale stale =>
        obtain ⟨written, wrote, sameID, sameVersion⟩ := stale
        obtain ⟨keepsID, keepsVersion⟩ := applyFailure_id server.cfg now st stage err true
        exact .inl ⟨written, wrote.extend ⟨[_, _, _], rfl⟩, sameID.trans keepsID.symm,
          sameVersion.trans keepsVersion.symm⟩
    | read knows unstopped =>
        exact .inr ⟨st, knows.extend ⟨[_, _, _], rfl⟩, .failStart unstopped known err now⟩
    | snapshot knows refused =>
        obtain ⟨writeErr, earlier, rfl⟩ := refused
        exact .inr ⟨_, knows.extend ⟨[_, _, _], rfl⟩,
          .failSnapshot ⟨now, id, readErr, writeErr, earlier, rfl⟩ err now⟩
  · dsimp only
    split
    · exact dropLease_keeps _ _ fun value later extends_ => done _ _
        (List.IsSuffix.trans ⟨[_, _], rfl⟩ (extends_.trans ⟨[_], rfl⟩))
    · rename_i unstopped
      refine keeps_call trivial fun now => writeStateOrLog_keeps ?_ fun value later extends_ =>
        done _ _ (List.IsSuffix.trans ⟨[_, _, _], rfl⟩ (extends_.trans ⟨[_], rfl⟩))
      exact .inr ⟨current, (knows_read id current).extend ⟨[_], rfl⟩,
        .failStart (not_or.mp unstopped) known err now⟩

theorem completeWithoutSandbox_keeps (id : String) (job : WorkflowJob) (done : Onward past post) :
    Keeps (contract server) (completeWithoutSandbox id job) post past := by
  refine lockedRead_keeps (fun err => keeps_return (done _ _ ⟨[_, _, _], rfl⟩)) fun st => ?_
  dsimp only
  split
  · exact keeps_return (done _ _ ⟨[_, _, _], rfl⟩)
  · rename_i unplaced
    simp only [not_or] at unplaced
    refine keeps_call trivial fun now => ?_
    refine keeps_call (.inr ⟨st, (knows_read id st).extend ⟨[_], rfl⟩,
      .completeWithoutSandbox unplaced job now⟩) fun written => ?_
    cases written with
    | error err => exact keeps_return (done _ _ ⟨[_, _, _, _, _], rfl⟩)
    | ok _ => exact keeps_last trivial fun _ => done _ _ ⟨[_, _, _, _, _, _], rfl⟩

theorem ensureWorkflowJobStillQueued_keeps {post : Except GoError Bool → List Answered → Prop}
    (req : RunnerRequest) (done : Onward past post) :
    Keeps (contract server) (ensureWorkflowJobStillQueued req) post past := by
  unfold ensureWorkflowJobStillQueued
  split
  · exact keeps_return (done _ _ List.suffix_rfl)
  · refine keeps_call trivial fun answer => ?_
    cases answer with
    | error err => exact keeps_return (done _ _ ⟨[_], rfl⟩)
    | ok job =>
        dsimp only
        split
        · exact keeps_return (done _ _ ⟨[_], rfl⟩)
        · refine keeps_seq (completeWithoutSandbox_keeps _ job fun value later extends_ => ?_)
          exact keeps_return (done _ _ (List.IsSuffix.trans ⟨[_], rfl⟩ extends_))

theorem resolveTemplate_keeps {post : Except GoError String → List Answered → Prop}
    (service : SandboxService) (profile : RunnerProfile) (done : Onward past post) :
    Keeps (contract server) (resolveTemplate service profile) post past := by
  unfold resolveTemplate
  split
  · exact keeps_return (done _ _ List.suffix_rfl)
  · split
    · exact keeps_return (done _ _ List.suffix_rfl)
    · refine keeps_call trivial fun answer => ?_
      cases answer with
      | error err => exact keeps_return (done _ _ ⟨[_], rfl⟩)
      | ok templates => exact keeps_return (done _ _ ⟨[_], rfl⟩)

theorem startDeferred_keeps (id : String) (holds : holdsAdmission past = true)
    (done : Onward past post) :
    Keeps (contract server) (startDeferred id server.workerID) post past :=
  keeps_call holds fun _ => keeps_call trivial fun _ => keeps_call trivial fun _ =>
    deferQueuedRequest_keeps id _ (done.extend ⟨[_, _, _], rfl⟩)

theorem cleanupStartedSandbox_keeps (id : String) (result : StartResult)
    (done : Onward past post) :
    Keeps (contract server) (cleanupStartedSandbox id result) post past := by
  unfold cleanupStartedSandbox
  split
  · exact keeps_return (done _ _ List.suffix_rfl)
  · exact keeps_seq (stopSandboxWithTimeout_keeps id _ _
      fun answer later extends_ _ _ => keeps_return (done _ _ extends_))

theorem startRecorded_keeps (id : String) (result : StartResult)
    (started : ∃ service input, (⟨.startRunner service input, .ok result⟩ : Answered) ∈ past)
    (done : Onward past post) :
    Keeps (contract server) (startRecorded id result) post past := by
  have cleanup (later : List Answered) (extends_ : past <:+ later) :
      Keeps (contract server) (do unlockRunner id; cleanupStartedSandbox id result)
        post later :=
    keeps_call trivial fun _ => cleanupStartedSandbox_keeps id result
      (done.extend (extends_.trans ⟨[_], rfl⟩))
  refine keeps_call trivial fun _ => keeps_call trivial fun answer => ?_
  cases answer with
  | error err => exact cleanup _ ⟨[_, _], rfl⟩
  | ok current =>
      dsimp only
      split
      · exact cleanup _ ⟨[_, _], rfl⟩
      · rename_i creating
        obtain ⟨service, input, member⟩ := started
        refine keeps_call (.inr ⟨current, knows_read id current, .startRunning (not_not.mp creating)
          ⟨service, input, by simp [member]⟩⟩) fun written => ?_
        cases written with
        | error err => exact cleanup _ ⟨[_, _, _], rfl⟩
        | ok _ =>
            exact keeps_call trivial fun _ => keeps_last trivial fun _ =>
              done _ _ ⟨[_, _, _, _, _], rfl⟩

theorem startSandbox_keeps (id : String) (req : RunnerRequest) (st : RunnerState)
    (profile : RunnerProfile) (service : SandboxService) (stale : Stale past st)
    (done : Onward past post) :
    Keeps (contract server) (startSandbox server id req st profile service) post past := by
  have failed (stage : String) (err : GoError) (known : stage ∈ attemptStages)
      (later : List Answered) (extends_ : past <:+ later) :
      Keeps (contract server) (failStart server id st stage err) post later :=
    failStart_keeps id st stage err known (.stale (stale.extend extends_)) (done.extend extends_)
  refine keeps_seq (resolveTemplate_keeps service profile fun template later extends_ => ?_)
  cases template with
  | error err => exact failed _ err (by decide) later extends_
  | ok templateID =>
      refine keeps_call trivial fun token => ?_
      cases token with
      | error err => exact failed _ err (by decide) _ (extends_.trans ⟨[_], rfl⟩)
      | ok token =>
          refine keeps_call trivial fun url => ?_
          cases url with
          | error err => exact failed _ err (by decide) _ (extends_.trans ⟨[_, _], rfl⟩)
          | ok url =>
              refine keeps_call trivial fun answer => ?_
              cases answer with
              | error err => exact failed _ err (by decide) _ (extends_.trans ⟨[_, _, _], rfl⟩)
              | ok result =>
                  exact startRecorded_keeps id result ⟨_, _, List.mem_cons_self⟩
                    (done.extend (extends_.trans ⟨[_, _, _], rfl⟩))

theorem startCreated_keeps (id : String) (req : RunnerRequest) (st : RunnerState)
    (profile : RunnerProfile) (stale : Stale past st) (done : Onward past post) :
    Keeps (contract server) (startCreated server id server.workerID req st profile)
      post past := by
  have failed (stage : String) (err : GoError) (known : stage ∈ attemptStages)
      (later : List Answered) (extends_ : past <:+ later) :
      Keeps (contract server) (failStart server id st stage err) post later :=
    failStart_keeps id st stage err known (.stale (stale.extend extends_)) (done.extend extends_)
  refine keeps_seq (ensureWorkflowJobStillQueued_keeps req fun queued later extends_ => ?_)
  match queued with
  | .error err => exact failed _ err (by decide) later extends_
  | .ok false => exact dropLease_keeps _ _ (done.extend extends_)
  | .ok true =>
      refine keeps_call trivial fun answer => ?_
      cases answer with
      | error err => exact failed _ err (by decide) _ (extends_.trans ⟨[_], rfl⟩)
      | ok service =>
          dsimp only
          split
          · refine keeps_call trivial fun answer => ?_
            cases answer with
            | error err => exact failed _ _ (by decide) _ (extends_.trans ⟨[_, _], rfl⟩)
            | ok current =>
                refine keeps_call (.inr ⟨current, knows_read id current,
                  .startSnapshot (reads_last id current) service⟩)
                  fun written => ?_
                cases written with
                | error err =>
                    refine failStart_keeps id _ _ _ (by decide)
                      (.snapshot ((knows_read id current).extend ⟨[_], rfl⟩) ⟨err, _, rfl⟩) ?_
                    exact done.extend (extends_.trans ⟨[_, _, _], rfl⟩)
                | ok _ =>
                    exact startSandbox_keeps id req st profile service
                      (stale.extend (extends_.trans ⟨[_, _, _], rfl⟩))
                      (done.extend (extends_.trans ⟨[_, _, _], rfl⟩))
          · exact startSandbox_keeps id req st profile service
              (stale.extend (extends_.trans ⟨[_], rfl⟩)) (done.extend (extends_.trans ⟨[_], rfl⟩))

theorem startAdmitted_keeps (id : String) (req : RunnerRequest) (st : RunnerState)
    (profile : RunnerProfile) (holds : holdsAdmission past = true) (reads : Reads past st)
    (admission : ∀ now, Admission server (⟨.now, now⟩ :: past) st) (done : Onward past post) :
    Keeps (contract server) (startAdmitted server id server.workerID req st profile)
      post past := by
  refine keeps_call trivial fun now => ?_
  refine keeps_call (.inr ⟨st, .inl (reads.extend ⟨[_], rfl⟩), .startCreating (admission now) _⟩)
    fun written => ?_
  cases written with
  | error err =>
      exact keeps_call holds fun _ => keeps_call trivial fun _ =>
        dropLease_keeps _ _ (done.extend ⟨[_, _, _, _], rfl⟩)
  | ok _ =>
      refine keeps_call holds fun _ => keeps_call trivial fun _ => ?_
      refine startCreated_keeps id req _ profile ?_ (done.extend ⟨[_, _, _, _], rfl⟩)
      exact ⟨_, (wrote_last _ _).extend ⟨[_, _], rfl⟩, rfl, rfl⟩

/-- An attempt begins with `startRunner`, so its whole memory is known at the
creating write. -/
theorem startRunner_keeps (id : String) (done : Onward [] post) :
    Keeps (contract server) (startRunner server id server.workerID) post [] := by
  refine keeps_call trivial fun _ => keeps_call trivial fun request => ?_
  cases request with
  | error err => exact keeps_last trivial fun _ => done _ _ ⟨_, List.append_nil _⟩
  | ok req =>
      refine keeps_call trivial fun answer => ?_
      cases answer with
      | error err => exact keeps_last trivial fun _ => done _ _ ⟨_, List.append_nil _⟩
      | ok st =>
          dsimp only
          split
          · exact keeps_call trivial fun _ =>
              dropLease_keeps _ _ (done.extend ⟨_, List.append_nil _⟩)
          · rename_i unstopped
            refine keeps_call trivial fun answer => ?_
            cases answer with
            | error err =>
                refine keeps_call trivial fun _ => failStart_keeps id st _ _ (by decide) ?_
                  (done.extend ⟨_, List.append_nil _⟩)
                exact .read ((knows_read id st).extend ⟨[_, _], rfl⟩) (not_or.mp unstopped)
            | ok profile =>
                refine keeps_call trivial fun _ => keeps_call trivial fun answer => ?_
                cases answer with
                | error err =>
                    exact keeps_call rfl fun _ => keeps_call trivial fun _ =>
                      dropLease_keeps _ _ (done.extend ⟨_, List.append_nil _⟩)
                | ok count =>
                    dsimp only
                    split
                    · exact startDeferred_keeps id rfl (done.extend ⟨_, List.append_nil _⟩)
                    · rename_i room
                      have reads : Reads (⟨.inFlightCount, .ok count⟩ ::
                          admissionPrelude id req st profile) st := ⟨id, by simp [admissionPrelude]⟩
                      split
                      · rename_i unnamed
                        exact startAdmitted_keeps id req st profile rfl reads
                          (fun now => .uncapped (not_or.mp unstopped) (not_le.mp room)
                            (.inl unnamed)) (done.extend ⟨_, List.append_nil _⟩)
                      · refine keeps_seq ?_
                        unfold profileAtCapacityFor
                        split
                        · rename_i unlimited
                          refine keeps_return ?_
                          exact startAdmitted_keeps id req st profile rfl reads
                            (fun now => .uncapped (not_or.mp unstopped) (not_le.mp room)
                              (.inr unlimited)) (done.extend ⟨_, List.append_nil _⟩)
                        · refine keeps_call trivial fun answer => ?_
                          cases answer with
                          | error err =>
                              exact keeps_return (keeps_call rfl fun _ => keeps_call trivial fun _ =>
                                dropLease_keeps _ _ (done.extend ⟨_, List.append_nil _⟩))
                          | ok profileCount =>
                              refine keeps_return ?_
                              by_cases full : profile.maxConcurrency ≤ profileCount
                              · rw [decide_eq_true full]
                                exact startDeferred_keeps id rfl
                                  (done.extend ⟨_, List.append_nil _⟩)
                              · rw [decide_eq_false full]
                                exact startAdmitted_keeps id req st profile rfl
                                  (reads.extend ⟨[_], rfl⟩)
                                  (fun now => .capped (not_or.mp unstopped) (not_le.mp room)
                                    (not_le.mp full)) (done.extend ⟨_, List.append_nil _⟩)

end Starting

section Exits
variable {post : Unit → List Answered → Prop}

theorem githubRunnerBusy_keeps {rule : List Answered → Op → Prop}
    {post : Except GoError Bool → List Answered → Prop} (st : RunnerState)
    (quiet : ∀ past repository group, rule past (.listRunners repository group))
    (done : ∀ answer later, past <:+ later → (answer = .ok true → ∃ repository group runners,
      later = ⟨.listRunners repository group, .ok runners⟩ :: past) → post answer later) :
    Keeps rule (githubRunnerBusy st) post past := by
  unfold githubRunnerBusy
  dsimp only
  split
  · exact keeps_return (done _ _ List.suffix_rfl nofun)
  · refine keeps_call (quiet _ _ _) fun answer => ?_
    cases answer with
    | error err => exact keeps_return (done _ _ ⟨[_], rfl⟩ nofun)
    | ok runners => exact keeps_return (done _ _ ⟨[_], rfl⟩ fun _ => ⟨_, _, runners, rfl⟩)

theorem occupied_of_not {status : Status}
    (neither : ¬(status ≠ .creating ∧ status ≠ .running)) : occupied status = true := by
  cases status <;> simp_all [occupied]

theorem keepRunnerRunningWhenGitHubBusy_keeps {post : Bool → List Answered → Prop} (id : String)
    (st : RunnerState) (result : ExitResult) (err : Option GoError) (done : Onward past post) :
    Keeps (contract server) (keepRunnerRunningWhenGitHubBusy id st result err) post past := by
  refine keeps_seq (githubRunnerBusy_keeps st (fun _ _ _ => trivial)
    fun busy later extends_ listed => ?_)
  match busy with
  | .error err => exact keeps_return (done _ _ extends_)
  | .ok false => exact keeps_return (done _ _ extends_)
  | .ok true =>
      obtain ⟨repository, group, runners, rfl⟩ := listed rfl
      have returned (value : Bool) (last : List Answered)
          (further : ⟨.listRunners repository group, .ok runners⟩ :: past <:+ last) :
          post value last := done value last (extends_.trans further)
      refine lockedRead_keeps (fun err => keeps_return (returned _ _ ⟨[_, _, _], rfl⟩))
        fun latest => ?_
      dsimp only
      split
      · exact keeps_return (returned _ _ ⟨[_, _, _], rfl⟩)
      · rename_i active
        split
        · exact keeps_return (returned _ _ ⟨[_, _, _], rfl⟩)
        · refine keeps_call (.inr ⟨latest, knows_read id latest,
            .keepRunning ⟨_, _, runners, id, past, rfl⟩ (occupied_of_not active) _⟩)
            fun written => ?_
          cases written with
          | error err => exact keeps_return (returned _ _ ⟨[_, _, _, _], rfl⟩)
          | ok _ => exact keeps_return (returned _ _ ⟨[_, _, _, _], rfl⟩)

theorem exitedState_sandbox (st : RunnerState) (result : ExitResult) (err : Option GoError) :
    (exitedState st result err).sandboxID = st.sandboxID := by
  unfold exitedState
  split
  · rfl
  · split <;> rfl

theorem exitCleaned_keeps (base : RunnerState) (result : ExitResult)
    (err cleanup : Option GoError) (reads : Reads past base)
    (active : occupied base.status = true)
    (cleaned : cleanup = none → Released past base.sandboxID)
    (refused : cleanup.isSome = true → ∃ call ∈ past, stopRefused call = true)
    {sandboxID : String} (awaited : (⟨.awaitProcess sandboxID, (result, err)⟩ : Answered) ∈ past)
    (done : Onward past post) :
    Keeps (contract server) (exitCleaned server (exitedState base result err) err cleanup)
      post past := by
  refine keeps_call trivial fun now => keeps_seq (cleanupGitHubRunner_keeps _
    (fun _ _ _ _ => trivial) fun unregistered later extends_ registered => ?_)
  have so_far : past <:+ later := List.IsSuffix.trans ⟨[_], rfl⟩ extends_
  have exits (last : List Answered) (further : later <:+ last) :
      Exits last base (exitCleanedState (exitedState base result err) err cleanup now)
        err cleanup :=
    ⟨reads.extend (so_far.trans further), active,
      fun none => (cleaned none).extend (so_far.trans further),
      fun failed => (refused failed).imp fun _ =>
        And.imp_left fun member => (so_far.trans further).subset member,
      sandboxID, result, now, (so_far.trans further).subset awaited, rfl⟩
  cases unregistered with
  | none =>
      exact writeStateOrLog_keeps (.inr ⟨base, .inl (reads.extend so_far),
        .exited (exits later List.suffix_rfl)⟩) (done.extend so_far)
  | some cleanupErr =>
      refine keeps_call trivial fun now => ?_
      have exits := exits (⟨.now, now⟩ :: later) ⟨[_], rfl⟩
      obtain ⟨repository, group, name, removed⟩ := registered cleanupErr rfl
      have so_far : past <:+ ⟨.now, now⟩ :: later := so_far.trans ⟨[_], rfl⟩
      split
      · rename_i next scheduled
        exact writeStateOrLog_keeps (.inr ⟨base, .inl exits.reads,
          .exitedCleanupRetry exits scheduled⟩) (done.extend so_far)
      · exact writeStateOrLog_keeps (.inr ⟨base, .inl exits.reads,
          .exitedUnregistered exits cleanupErr
            ⟨repository, group, name, List.mem_cons_of_mem _ removed⟩⟩) (done.extend so_far)

theorem exitLocked_keeps (id : String) (base : RunnerState) (result : ExitResult)
    (err : Option GoError) (reads : Reads past base) (active : occupied base.status = true)
    {sandboxID : String} (awaited : (⟨.awaitProcess sandboxID, (result, err)⟩ : Answered) ∈ past)
    (done : Onward past post) :
    Keeps (contract server) (exitLocked server id base result err) post past := by
  have sandbox := exitedState_sandbox base result err
  have finish (cleanup : Option GoError) (later : List Answered) (extends_ : past <:+ later)
      (cleaned : cleanup = none → Released later base.sandboxID)
      (refused : cleanup.isSome = true → ∃ call ∈ later, stopRefused call = true) :
      Keeps (contract server) (exitCleaned server (exitedState base result err) err cleanup)
        post later :=
    exitCleaned_keeps base result err cleanup (reads.extend extends_) active cleaned refused
      (extends_.subset awaited) (done.extend extends_)
  unfold exitLocked
  refine keeps_seq ?_
  unfold cleanupSandboxAfterExit
  split
  · rename_i empty
    exact keeps_return (finish none past List.suffix_rfl
      (fun _ => .inl (sandbox.symm.trans empty)) nofun)
  · refine keeps_seq (stopSandboxWithTimeout_keeps id _ _
      fun answer later extends_ released refused => ?_)
    rw [sandbox] at released
    cases answer with
    | none => exact keeps_return (finish none later extends_ (fun _ => released (by simp)) nofun)
    | some err =>
        dsimp only
        split
        · rename_i gone
          refine keeps_return (finish none later extends_ (fun _ => released fun other same => ?_)
            nofun)
          cases same
          exact gone
        · exact keeps_return (finish (some err) later extends_ (by simp) fun _ => refused rfl)

theorem runnerExited_keeps (id : String) (result : ExitResult) (err : Option GoError)
    {sandboxID : String} (awaited : (⟨.awaitProcess sandboxID, (result, err)⟩ : Answered) ∈ past)
    (done : Onward past post) :
    Keeps (contract server) (runnerExited server id result err) post past := by
  have unlocked (later : List Answered) (extends_ : past <:+ later) :
      Keeps (contract server) (unlockRunner id) post later :=
    keeps_last trivial fun _ => done _ _ (extends_.trans ⟨[_], rfl⟩)
  have exit (st : RunnerState) (later : List Answered) (extends_ : past <:+ later)
      (reads : Reads later st) (active : occupied st.status = true) :
      Keeps (contract server) (do exitLocked server id st result err; unlockRunner id)
        post later :=
    keeps_seq (exitLocked_keeps id st result err reads active (extends_.subset awaited)
      fun _ last further => unlocked last (extends_.trans further))
  refine keeps_call trivial fun _ => keeps_call trivial fun answer => ?_
  cases answer with
  | error err => exact unlocked _ ⟨[_, _], rfl⟩
  | ok st =>
      dsimp only
      split
      · exact unlocked _ ⟨[_, _], rfl⟩
      · rename_i active
        split
        · refine keeps_call trivial fun _ => keeps_seq
            (keepRunnerRunningWhenGitHubBusy_keeps id st result err fun kept later extends_ => ?_)
          have so_far : past <:+ later := List.IsSuffix.trans ⟨[_, _, _], rfl⟩ extends_
          split
          · exact keeps_return (done _ _ so_far)
          · refine keeps_call trivial fun _ => keeps_call trivial fun answer => ?_
            cases answer with
            | error err => exact unlocked _ (so_far.trans ⟨[_, _], rfl⟩)
            | ok st =>
                dsimp only
                split
                · exact unlocked _ (so_far.trans ⟨[_, _], rfl⟩)
                · rename_i active
                  exact exit st _ (so_far.trans ⟨[_, _], rfl⟩) (reads_last id st)
                    (occupied_of_not active)
        · exact exit st _ ⟨[_, _], rfl⟩ (reads_last id st) (occupied_of_not active)

end Exits

section Recovery
variable {post : Option GoError → List Answered → Prop}

theorem workflowJobForRecovery_keeps
    {post : Except GoError (Option WorkflowJob) → List Answered → Prop}
    (st : RunnerState) (done : Onward past post) :
    Keeps (contract server) (workflowJobForRecovery st) post past := by
  unfold workflowJobForRecovery
  split
  · exact keeps_return (done _ _ List.suffix_rfl)
  · refine keeps_call trivial fun answer => ?_
    cases answer with
    | error err => exact keeps_return (done _ _ ⟨[_], rfl⟩)
    | ok job => exact keeps_return (done _ _ ⟨[_], rfl⟩)

theorem requeueInterruptedCreation_keeps (id : String) (stateVersion : Nat)
    (done : Onward past post) :
    Keeps (contract server) (requeueInterruptedCreation id stateVersion) post past := by
  refine lockedRead_keeps (fun err => keeps_return (done _ _ ⟨[_, _, _], rfl⟩)) fun st => ?_
  dsimp only
  split
  · exact keeps_return (done _ _ ⟨[_, _, _], rfl⟩)
  · rename_i current
    simp only [not_or, not_not] at current
    refine keeps_call (.inr ⟨st, knows_read id st, .requeueInterrupted current.2⟩)
      fun written => ?_
    cases written with
    | error err => exact keeps_return (done _ _ ⟨[_, _, _, _], rfl⟩)
    | ok _ => exact keeps_return (done _ _ ⟨[_, _, _, _], rfl⟩)

theorem reconnect_keeps (st : RunnerState) (result : StartResult) (reads : Reads past st)
    (recovered : ∃ service pid timeout,
      (⟨.recoverRunner service ⟨st.id, st.sandboxID, pid, timeout⟩, (result, none)⟩ :
        Answered) ∈ past) (done : Onward past post) :
    Keeps (contract server) (reconnect st.id st.version result) post past := by
  refine keeps_call trivial fun _ => keeps_seq (keeps_call trivial fun answer => ?_)
  have finish (accepted : Bool) (err : Option GoError) (later : List Answered)
      (extends_ : past <:+ later) :
      Keeps (contract server) (do
        unlockRunner st.id
        ask (.offerExitWatch accepted)
        return err) post later :=
    keeps_call trivial fun _ => keeps_call trivial fun _ =>
      keeps_return (done _ _ (extends_.trans ⟨[_, _], rfl⟩))
  cases answer with
  | error err => exact keeps_return (finish _ _ _ ⟨[_, _], rfl⟩)
  | ok latest =>
      dsimp only
      split
      · exact keeps_return (finish _ _ _ ⟨[_, _], rfl⟩)
      · rename_i current
        simp only [not_or, not_not] at current
        obtain ⟨service, pid, timeout, member⟩ := recovered
        have recovers : Recovers (⟨.readState st.id, .ok latest⟩ :: ⟨.lockRunner st.id, ()⟩ :: past)
            latest result :=
          ⟨occupied_of_not current.2, st, service, pid, timeout, reads.extend ⟨[_, _], rfl⟩,
            current.1, List.mem_cons_self, by simp [member]⟩
        refine keeps_call (.inr ⟨latest, knows_read _ latest, .recoverReconnected recovers⟩)
          fun written => ?_
        cases written with
        | error err => exact keeps_return (finish _ _ _ ⟨[_, _, _], rfl⟩)
        | ok _ => exact keeps_return (finish _ _ _ ⟨[_, _, _], rfl⟩)

theorem recoverFailed_keeps (st : RunnerState) (stateVersion : Nat) (job : Option WorkflowJob)
    (result : StartResult) (err : GoError) (seen : SeenActive past st.id) (done : Onward past post) :
    Keeps (contract server) (recoverFailed server st stateVersion job result err)
      post past := by
  refine keeps_call trivial fun _ => ?_
  have failed (stage reason message : String) :
      Keeps (contract server) (do
        failAndStopRunnerVersion server st.id stateVersion stage reason message
        return none) post (⟨.offerExitWatch false, ()⟩ :: past) :=
    keeps_seq (failAndStopRunnerVersion_keeps st.id stateVersion stage reason message
      (seen.extend ⟨[_], rfl⟩) fun _ later extends_ =>
        keeps_return (done _ _ (List.IsSuffix.trans ⟨[_], rfl⟩ extends_)))
  have requeued (later : List Answered) (extends_ : past <:+ later) :
      Keeps (contract server) (requeueInterruptedCreation st.id stateVersion) post later :=
    requeueInterruptedCreation_keeps st.id stateVersion (done.extend extends_)
  dsimp only
  split
  · exact failed _ _ _
  · split
    · exact requeued _ ⟨[_], rfl⟩
    · split
      · exact failed _ _ _
      · split
        · refine keeps_seq (stopSandboxWithTimeout_keeps st.id _ _
            fun answer later extends_ _ _ => ?_)
          have so_far : past <:+ later := List.IsSuffix.trans ⟨[_], rfl⟩ extends_
          cases answer with
          | none => exact requeued later so_far
          | some stopErr =>
              dsimp only
              split
              · exact requeued later so_far
              · exact keeps_return (done _ _ so_far)
        · exact keeps_return (done _ _ ⟨[_], rfl⟩)

theorem recoverSandbox_keeps (st : RunnerState) (job : Option WorkflowJob)
    (reads : Reads past st) (active : occupied st.status = true) (done : Onward past post) :
    Keeps (contract server) (recoverSandbox server st st.version job) post past := by
  have seen : SeenActive past st.id := ⟨st, rfl, active, .inl reads⟩
  refine keeps_call trivial fun now => ?_
  dsimp only
  split
  · exact keeps_seq (failAndStopRunnerVersion_keeps _ _ _ _ _
      (seen.extend ⟨[_], rfl⟩) fun _ later extends_ =>
        keeps_return (done _ _ (List.IsSuffix.trans ⟨[_], rfl⟩ extends_)))
  · refine keeps_call trivial fun request => ?_
    cases request with
    | error err => exact keeps_return (done _ _ ⟨[_, _], rfl⟩)
    | ok req =>
        refine keeps_call trivial fun answer => ?_
        cases answer with
        | error err => exact keeps_return (done _ _ ⟨[_, _, _], rfl⟩)
        | ok service =>
            refine keeps_call trivial fun answer => ?_
            match answer with
            | (result, some err) =>
                exact recoverFailed_keeps st st.version job result err
                  (seen.extend ⟨[_, _, _, _], rfl⟩) (done.extend ⟨[_, _, _, _], rfl⟩)
            | (result, none) =>
                exact reconnect_keeps st result (reads.extend ⟨[_, _, _, _], rfl⟩)
                  ⟨service, _, _, List.mem_cons_self⟩ (done.extend ⟨[_, _, _, _], rfl⟩)

theorem recoverActiveRunner_keeps (st : RunnerState) (reads : Reads past st)
    (active : occupied st.status = true) (done : Onward past post) :
    Keeps (contract server) (recoverActiveRunner server st) post past := by
  refine keeps_seq (workflowJobForRecovery_keeps st fun job later extends_ => ?_)
  have recovered (job : Option WorkflowJob) :
      Keeps (contract server) (recoverSandbox server st st.version job) post later :=
    recoverSandbox_keeps st job (reads.extend extends_) active (done.extend extends_)
  match job with
  | .error _ => exact recovered none
  | .ok none => exact recovered none
  | .ok (some job) =>
      dsimp only
      split
      · refine keeps_seq (stopRunner_keeps st.id job fun answer last further returns => ?_)
        have so_far := extends_.trans further
        match answer with
        | .error err => exact keeps_return (done _ _ so_far)
        | .ok (latest, recorded) =>
            dsimp only
            split
            · exact keeps_return (done _ _ so_far)
            · rename_i still
              exact recoverSandbox_keeps latest (some job)
                (returns latest recorded rfl (occupied_of_not still)) (occupied_of_not still)
                (done.extend so_far)
      · exact recovered (some job)

theorem recoverRunner_keeps (id : String) (done : Onward past post) :
    Keeps (contract server) (recoverRunner server id) post past := by
  have unlocked (err : Option GoError) (later : List Answered) (extends_ : past <:+ later) :
      Keeps (contract server) (do unlockRunner id; return err) post later :=
    keeps_call trivial fun _ => keeps_return (done _ _ (extends_.trans ⟨[_], rfl⟩))
  refine keeps_call trivial fun _ => keeps_call trivial fun answer => ?_
  cases answer with
  | error err => exact unlocked _ _ ⟨[_, _], rfl⟩
  | ok st =>
      dsimp only
      split
      · exact unlocked _ _ ⟨[_, _], rfl⟩
      · exact unlocked _ _ ⟨[_, _], rfl⟩
      · rename_i queued
        refine keeps_call (.inr ⟨st, knows_read id st, .recoverQueued (reads_last id st) queued⟩)
          fun written => ?_
        cases written with
        | error err => exact unlocked _ _ ⟨[_, _, _], rfl⟩
        | ok _ => exact unlocked _ _ ⟨[_, _, _], rfl⟩
      · refine keeps_call trivial fun _ => keeps_seq
          (stopRunner_keeps id {} fun answer later extends_ _ => ?_)
        have so_far : past <:+ later := List.IsSuffix.trans ⟨[_, _, _], rfl⟩ extends_
        cases answer with
        | error err => exact keeps_return (done _ _ so_far)
        | ok _ => exact keeps_return (done _ _ so_far)
      · rename_i creating
        exact keeps_call trivial fun _ => recoverActiveRunner_keeps st
          ((reads_last id st).extend ⟨[_], rfl⟩) (by rw [creating]; rfl)
          (done.extend ⟨[_, _, _], rfl⟩)
      · rename_i running
        exact keeps_call trivial fun _ => recoverActiveRunner_keeps st
          ((reads_last id st).extend ⟨[_], rfl⟩) (by rw [running]; rfl)
          (done.extend ⟨[_, _, _], rfl⟩)

end Recovery

end Runnerd
