import Runnerd.StartConduct

/-!
Every goroutine of the server keeps the contract, from its first call to its
last and whatever it is answered.
-/

namespace Runnerd

open GoText Interaction Interleaving

variable {server : Server} {past : List Answered}

section Loops
variable {post : Unit → List Answered → Prop}

theorem processQueuedRequests_keeps (rounds : Nat) (done : Onward past post) :
    Keeps (contract server) (processQueuedRequests server rounds) post past := by
  induction rounds generalizing past with
  | zero => exact keeps_return (done _ _ List.suffix_rfl)
  | succ rounds ih =>
      refine keeps_call trivial fun acquired => ?_
      cases acquired with
      | false => exact keeps_return (done _ _ ⟨[_], rfl⟩)
      | true =>
          refine keeps_call trivial fun now => keeps_call trivial fun claim => ?_
          match claim with
          | .error err => exact keeps_last trivial fun _ => done _ _ ⟨[_, _, _, _], rfl⟩
          | .ok none => exact keeps_last trivial fun _ => done _ _ ⟨[_, _, _, _], rfl⟩
          | .ok (some (_, claimed)) =>
              exact keeps_call trivial fun _ => ih (done.extend ⟨[_, _, _, _], rfl⟩)

theorem completeIfWorkflowJobCompleted_keeps {post : Option GoError → List Answered → Prop}
    (id : String) (done : Onward past post) :
    Keeps (contract server) (completeIfWorkflowJobCompleted id) post past := by
  refine keeps_seq (withRunnerLock_keeps (keeps_last trivial fun answer => ?_))
  cases answer with
  | error err => exact keeps_return (done _ _ ⟨[_, _, _], rfl⟩)
  | ok st =>
      dsimp only
      split
      · exact keeps_return (done _ _ ⟨[_, _, _], rfl⟩)
      · split
        · exact keeps_return (done _ _ ⟨[_, _, _], rfl⟩)
        · refine keeps_call trivial fun job => ?_
          cases job with
          | error err => exact keeps_return (done _ _ ⟨[_, _, _, _], rfl⟩)
          | ok job =>
              dsimp only
              split
              · exact keeps_return (done _ _ ⟨[_, _, _, _], rfl⟩)
              · refine lockedRead_keeps
                  (fun err => keeps_return (done _ _ ⟨[_, _, _, _, _, _, _], rfl⟩)) fun latest => ?_
                dsimp only
                split
                · exact keeps_return (done _ _ ⟨[_, _, _, _, _, _, _], rfl⟩)
                · split
                  · exact keeps_return (done _ _ ⟨[_, _, _, _, _, _, _], rfl⟩)
                  · rename_i recoverable
                    refine keeps_call trivial fun now => ?_
                    refine keeps_call (.inr ⟨latest, (knows_read id latest).extend ⟨[_], rfl⟩,
                      .completeReconciled (Bool.not_eq_false _ ▸ recoverable) now⟩)
                      fun written => ?_
                    cases written with
                    | error err => exact keeps_return (done _ _ ⟨[_, _, _, _, _, _, _, _, _], rfl⟩)
                    | ok _ => exact keeps_return (done _ _ ⟨[_, _, _, _, _, _, _, _, _], rfl⟩)

theorem reconcileMismatched_keeps (st : RunnerState) (listed : ∃ limit states,
      (⟨.listMismatchedCompletedStates limit, .ok states⟩ : Answered) ∈ past)
    (done : Onward past post) :
    Keeps (contract server) (reconcileMismatched st) post past := by
  refine keeps_seq (withRunnerLock_keeps (keeps_last trivial fun answer => ?_))
  cases answer with
  | error err => exact keeps_return (done _ _ ⟨[_, _, _], rfl⟩)
  | ok current =>
      dsimp only
      split
      · exact keeps_return (done _ _ ⟨[_, _, _], rfl⟩)
      · rename_i different
        refine keeps_seq (originalWorkflowJobQueued_keeps current (fun _ _ _ => trivial)
          fun queued later extends_ reported => ?_)
        have so_far : past <:+ later := List.IsSuffix.trans ⟨[_, _, _], rfl⟩ extends_
        refine lockedRead_keeps
          (fun err => keeps_return (done _ _ (so_far.trans ⟨[_, _, _], rfl⟩))) fun latest => ?_
        dsimp only
        split
        · exact keeps_return (done _ _ (so_far.trans ⟨[_, _, _], rfl⟩))
        · rename_i unchanged
          simp only [not_or, not_not] at unchanged
          refine keeps_seq (requeueMismatchedWorkflowJob_keeps latest _ (knows_read _ latest)
            (.inl unchanged.1) (fun waits => .inl ?_) fun answer last further _ _ => ?_)
          · obtain ⟨limit, states, member⟩ := listed
            have asked : queued ≠ .ok false := by
              rintro rfl
              cases waits
            obtain ⟨repository, reply, answered, queued⟩ := reported asked
            have mismatched : mismatchedCompleted latest = true := by
              simp only [mismatchedCompleted, Bool.not_eq_false, Bool.and_eq_true] at different
              simp [mismatchedCompleted, unchanged, different]
            refine ⟨reads_last _ _, mismatched, ⟨limit, states, ?_⟩, repository, reply, ?_, queued⟩
            · exact (so_far.trans ⟨[_, _], rfl⟩).subset member
            · rw [unchanged.2.1]
              exact List.mem_cons_of_mem _ (List.mem_cons_of_mem _ answered)
          exact keeps_return (done _ _ (so_far.trans (List.IsSuffix.trans ⟨[_, _], rfl⟩
            (further.trans ⟨[_], rfl⟩))))

theorem sweepTimeout_keeps (now : Time) {states : List RunnerState} {st : RunnerState}
    (listed : (⟨.listActiveStates, .ok states⟩ : Answered) ∈ past) (member : st ∈ states)
    (done : Onward past post) :
    Keeps (contract server) (sweepTimeout server now st) post past := by
  have seen (active : occupied st.status = true) : SeenActive past st.id :=
    ⟨st, rfl, active, .inr ⟨states, listed, member⟩⟩
  unfold sweepTimeout
  split
  · rename_i status
    split
    · exact retryOrFail_keeps _ _ _ (by decide) (seen (by rw [status]; rfl)) done
    · exact keeps_return (done _ _ List.suffix_rfl)
  · rename_i status
    split
    · exact failAndStopRunnerVersion_keeps _ _ _ _ _ (seen (by rw [status]; rfl)) done
    · exact keeps_return (done _ _ List.suffix_rfl)
  · split
    · exact stopIfExists_keeps _ _ done
    · exact keeps_return (done _ _ List.suffix_rfl)
  · exact keeps_return (done _ _ List.suffix_rfl)

theorem sweepIdle_keeps (st : RunnerState) (done : Onward past post) :
    Keeps (contract server) (sweepIdle server st) post past := by
  refine keeps_seq (originalWorkflowJobQueued_keeps st (fun _ _ _ => trivial)
    fun queued later extends_ _ => ?_)
  match queued with
  | .error err => exact keeps_return (done _ _ extends_)
  | .ok true => exact keeps_return (done _ _ extends_)
  | .ok false =>
      refine keeps_seq (githubRunnerBusy_keeps st (fun _ _ _ => trivial)
        fun busy last further _ => ?_)
      have so_far := extends_.trans further
      match busy with
      | .error err => exact keeps_return (done _ _ so_far)
      | .ok true => exact markRunnerJobStarted_keeps _ (done.extend so_far)
      | .ok false => exact stopIfExists_keeps _ _ (done.extend so_far)

theorem sweepOnce_keeps (done : Onward past post) :
    Keeps (contract server) (sweepOnce server) post past := by
  refine keeps_call trivial fun answer => ?_
  cases answer with
  | error err => exact keeps_return (done _ _ ⟨[_], rfl⟩)
  | ok states =>
      refine keeps_call trivial fun now => keeps_seq ?_
      refine keeps_each states (fun st member before reached after =>
        sweepTimeout_keeps now (reached.subset (by simp)) member)
        fun _ later extends_ => ?_
      refine keeps_each _ (fun st _ before _ after => sweepIdle_keeps st)
        fun _ last further => done _ _ ?_
      exact List.IsSuffix.trans ⟨[_, _], rfl⟩ (extends_.trans further)

theorem reconcileStopping_keeps (st : RunnerState) (done : Onward past post) :
    Keeps (contract server) (reconcileStopping server st) post past := by
  refine keeps_call trivial fun now => ?_
  split
  · refine keeps_call trivial fun now => ?_
    split
    · exact stopIfExists_keeps _ _ (done.extend ⟨[_, _], rfl⟩)
    · exact keeps_return (done _ _ ⟨[_, _], rfl⟩)
  · exact keeps_return (done _ _ ⟨[_], rfl⟩)

theorem reconcileOnce_keeps (rounds : Nat) (done : Onward past post) :
    Keeps (contract server) (reconcileOnce server rounds) post past := by
  refine keeps_seq (processQueuedRequests_keeps rounds fun _ later extends_ => ?_)
  refine keeps_call trivial fun answer => ?_
  cases answer with
  | error err => exact keeps_return (done _ _ (extends_.trans ⟨[_], rfl⟩))
  | ok states =>
      refine keeps_seq (keeps_each _ (fun st _ before _ after => reconcileStopping_keeps st)
        fun _ stopped further => keeps_seq ?_)
      refine keeps_call trivial fun answer => ?_
      have completed (last : List Answered) (beyond : stopped <:+ last) :
          Keeps (contract server) reconcileCompletedWorkflowJobs post last := by
        have so_far : past <:+ last :=
          extends_.trans (List.IsSuffix.trans ⟨[_], rfl⟩ (further.trans beyond))
        refine keeps_call trivial fun answer => ?_
        cases answer with
        | error err => exact keeps_return (done _ _ (so_far.trans ⟨[_], rfl⟩))
        | ok states =>
            refine keeps_each states (fun st _ before _ after onward => keeps_seq
              (completeIfWorkflowJobCompleted_keeps st.id fun _ _ reached =>
                keeps_return (onward _ _ reached))) fun _ end_ reached => done _ _ ?_
            exact so_far.trans (List.IsSuffix.trans ⟨[_], rfl⟩ reached)
      cases answer with
      | error err => exact keeps_return (completed _ ⟨[_], rfl⟩)
      | ok states =>
          exact keeps_each states (fun st _ before reached after =>
            reconcileMismatched_keeps st ⟨_, _, reached.subset List.mem_cons_self⟩)
            fun _ last reached => completed last (List.IsSuffix.trans ⟨[_], rfl⟩ reached)

end Loops

section Webhooks

theorem enqueueRunnerRequest_keeps
    {post : Except GoError (RunnerState × Bool) → List Answered → Prop}
    (req : RunnerRequest) (links : GitHubContext) (done : Onward past post) :
    Keeps (contract server) (enqueueRunnerRequest req links) post past := by
  refine keeps_call trivial fun _ => keeps_call trivial fun answer => ?_
  cases answer with
  | ok st => exact keeps_call rfl fun _ => keeps_return (done _ _ ⟨[_, _, _], rfl⟩)
  | error err =>
      refine keeps_call (.inl ⟨rfl, rfl, rfl, rfl⟩) fun created => keeps_call rfl fun _ => ?_
      cases created with
      | error err => exact keeps_return (done _ _ ⟨[_, _, _, _], rfl⟩)
      | ok created => exact keeps_return (done _ _ ⟨[_, _, _, _], rfl⟩)

theorem rejectAdmission_keeps {post : Except GoError RunnerState → List Answered → Prop}
    (req : RunnerRequest) (links : GitHubContext) (reason : String) (done : Onward past post) :
    Keeps (contract server) (rejectAdmission req links reason) post past := by
  refine keeps_call (.inr ⟨rfl, rfl⟩) fun created => ?_
  cases created with
  | error err => exact keeps_return (done _ _ ⟨[_], rfl⟩)
  | ok created => exact keeps_return (done _ _ ⟨[_], rfl⟩)

theorem enqueueWorkflowJob_keeps
    {post : Except GoError (RunnerState × Bool) → List Answered → Prop}
    (repository : String) (installationID : Int) (job : WorkflowJob) (links : GitHubContext)
    (done : Onward past post) :
    Keeps (contract server) (enqueueWorkflowJob server repository installationID job links)
      post past := by
  unfold enqueueWorkflowJob
  dsimp only
  split
  · exact keeps_seq (rejectAdmission_keeps _ _ _ fun _ later extends_ =>
      keeps_return (done _ _ extends_))
  · refine keeps_call trivial fun matched => ?_
    match matched with
    | .error err => exact keeps_return (done _ _ ⟨[_], rfl⟩)
    | .ok none =>
        exact keeps_seq (rejectAdmission_keeps _ _ _ fun _ later extends_ =>
          keeps_return (done _ _ (List.IsSuffix.trans ⟨[_], rfl⟩ extends_)))
    | .ok (some profile) => exact enqueueRunnerRequest_keeps _ _ (done.extend ⟨[_], rfl⟩)

theorem completedWorkflowJobStopID_keeps {post : String → List Answered → Prop}
    (job : WorkflowJob) (done : Onward past post) :
    Keeps (contract server) (completedWorkflowJobStopID job) post past := by
  unfold completedWorkflowJobStopID
  split
  · exact keeps_return (done _ _ List.suffix_rfl)
  · split
    · exact keeps_return (done _ _ List.suffix_rfl)
    · refine keeps_call trivial fun answer => ?_
      cases answer with
      | error err => exact keeps_return (done _ _ ⟨[_], rfl⟩)
      | ok st => exact keeps_return (done _ _ ⟨[_], rfl⟩)

variable {post : Unit → List Answered → Prop}

theorem handleWorkflowRunWebhook_keeps (event : WorkflowRunEvent) (done : Onward past post) :
    Keeps (contract server) (handleWorkflowRunWebhook server event) post past := by
  unfold handleWorkflowRunWebhook
  split
  · exact keeps_return (done _ _ List.suffix_rfl)
  · refine keeps_call trivial fun answer => ?_
    cases answer with
    | error err => exact keeps_return (done _ _ ⟨[_], rfl⟩)
    | ok jobs =>
        refine keeps_each jobs (fun job _ before _ after onward => ?_)
          fun _ later extends_ => done _ _ (List.IsSuffix.trans ⟨[_], rfl⟩ extends_)
        split
        · exact keeps_return (onward _ _ List.suffix_rfl)
        · exact keeps_seq (enqueueWorkflowJob_keeps _ _ _ _ fun _ _ reached =>
            keeps_return (onward _ _ reached))

theorem handleCreateRunner_keeps (input : ManualCreateRequest) (newID : String)
    (done : Onward past post) :
    Keeps (contract server) (handleCreateRunner server input newID) post past := by
  unfold handleCreateRunner
  dsimp only
  split
  · exact keeps_return (done _ _ List.suffix_rfl)
  · split
    · exact keeps_return (done _ _ List.suffix_rfl)
    · split
      · split
        · exact keeps_return (done _ _ List.suffix_rfl)
        · refine keeps_call trivial fun matched => ?_
          match matched with
          | .error err => exact keeps_return (done _ _ ⟨[_], rfl⟩)
          | .ok none => exact keeps_return (done _ _ ⟨[_], rfl⟩)
          | .ok (some profile) =>
              exact keeps_seq (enqueueRunnerRequest_keeps _ _ fun _ later extends_ =>
                keeps_return (done _ _ (List.IsSuffix.trans ⟨[_], rfl⟩ extends_)))
      · refine keeps_call trivial fun answer => ?_
        cases answer with
        | error err => exact keeps_return (done _ _ ⟨[_], rfl⟩)
        | ok profile =>
            dsimp only
            split
            · exact keeps_return (done _ _ ⟨[_], rfl⟩)
            · exact keeps_seq (enqueueRunnerRequest_keeps _ _ fun _ later extends_ =>
                keeps_return (done _ _ (List.IsSuffix.trans ⟨[_], rfl⟩ extends_)))

theorem handleWorkflowJob_keeps (event : WorkflowJobEvent)
    (done : Onward past post) :
    Keeps (contract server) (handleWorkflowJob server event) post past := by
  unfold handleWorkflowJob
  split
  · exact keeps_seq (enqueueWorkflowJob_keeps _ _ _ _ fun _ _ extends_ =>
      keeps_return (done _ _ extends_))
  · refine keeps_seq (completedWorkflowJobStopID_keeps _ fun id later extends_ => ?_)
    split
    · exact keeps_return (done _ _ extends_)
    · exact keeps_seq (markWorkflowJobInProgress_keeps id _ fun _ _ further =>
        keeps_return (done _ _ (extends_.trans further)))
  · refine keeps_seq (completedWorkflowJobStopID_keeps _ fun id later extends_ => ?_)
    split
    · exact keeps_return (done _ _ extends_)
    · refine keeps_seq (stopRunner_keeps id _ fun answer last further _ => ?_)
      have so_far := extends_.trans further
      match answer with
      | .ok (st, true) => exact keeps_last trivial fun _ => done _ _ (so_far.trans ⟨[_], rfl⟩)
      | .ok (st, false) => exact keeps_return (done _ _ so_far)
      | .error err => exact keeps_return (done _ _ so_far)
  · exact keeps_return (done _ _ List.suffix_rfl)

end Webhooks

/-- Whatever a goroutine of the server is, it keeps the contract. -/
theorem task_keeps (server : Server) (task : Task) :
    Keeps (contract server) (taskBody server task) (fun _ _ => True) [] := by
  have done {α : Type} (past : List Answered) :
      Onward past (fun (_ : α) (_ : List Answered) => True) := fun _ _ _ => trivial
  cases task with
  | workflowJob event => exact handleWorkflowJob_keeps event (done _)
  | workflowRun event => exact handleWorkflowRunWebhook_keeps event (done _)
  | createRunner input newID => exact handleCreateRunner_keeps input newID (done _)
  | retryRunner id =>
      exact keeps_call trivial fun _ => keeps_call trivial fun _ => keeps_return trivial
  | deleteRunner id =>
      exact keeps_seq (stopRunner_keeps id {} fun _ _ _ _ => keeps_return trivial)
  | runnerStdout id text =>
      unfold taskBody appendRunnerStdout
      dsimp only
      split
      · exact markRunnerJobStarted_keeps id (done _)
      · exact keeps_return trivial
  | processQueuedRequests rounds => exact processQueuedRequests_keeps rounds (done _)
  | sweepOnce => exact sweepOnce_keeps (done _)
  | reconcileOnce rounds => exact reconcileOnce_keeps rounds (done _)
  | recover id => exact keeps_seq (recoverRunner_keeps id fun _ _ _ => keeps_return trivial)
  | startRunner claimed =>
      exact keeps_seq (startRunner_keeps claimed.id fun _ _ _ =>
        keeps_last trivial fun _ => trivial)
  | exitWatch id sandboxID owner =>
      refine keeps_call trivial fun answer => keeps_seq ?_
      exact runnerExited_keeps id answer.1 answer.2 List.mem_cons_self fun _ _ _ =>
        keeps_last trivial fun _ => trivial
  | recoveredExitWatch id sandboxID owner =>
      refine keeps_call trivial fun answer => keeps_call trivial fun accepted => ?_
      cases accepted with
      | true =>
          exact runnerExited_keeps id answer.1 answer.2
            (List.mem_cons_of_mem _ List.mem_cons_self) (done _)
      | false => exact keeps_return trivial

end Runnerd
