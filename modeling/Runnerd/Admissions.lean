import Runnerd.FailureOrigins
import Runnerd.Ownership
import Runnerd.ProfileMatching

/-!
The two ways a workflow job is admitted: a `workflow_job` delivery with the
action `queued`, and a `workflow_run` delivery, which asks GitHub for the run's
jobs. Each has its own copy of the admission logic. GitHub delivers a webhook
any number of times and in any order, so the deliveries about one job race with
each other, and with operators who change the profile catalog.
-/

namespace Runnerd

open GoText Interaction Interleaving Versioned

section Copies
variable (server : Server)

/-- What is left of the handler after the reply. -/
def createAndStart (req : RunnerRequest) (links : GitHubContext) : Action Unit := do
  let _ ← enqueueRunnerRequest req links

/-- The `queued` branch of `handleGitHubWebhook`, which does not call
`enqueueWorkflowJob`. -/
def workflowJobQueued (event : WorkflowJobEvent) : Action Unit := do
  let id := toString event.workflowJob.id
  let req : RunnerRequest :=
    { id := id
      source := "github_webhook"
      jobID := event.workflowJob.id
      pullRequestNumber := workflowJobPullRequestNumber event.workflowJob.pullRequests
      githubInstallationID := event.installationID
      repositoryFullName := event.repository
      requestedLabels := event.workflowJob.labels
      labels := event.workflowJob.labels
      runnerName := "e2b-" ++ id }
  if server.repositoryAllowed event.repository = false then
    let _ ← rejectAdmission req event.links "repository_not_allowed"
  else
    match ← ask (.matchProfile event.repository event.workflowJob.labels) with
    | .error _ => return ()
    | .ok none =>
        let _ ← rejectAdmission req event.links "profile_labels_not_matched"
    | .ok (some profile) =>
        createAndStart
          { req with
            profileName := profile.name
            runnerGroup := profile.runnerGroup
            labels := profile.labels }
          event.links

/-- The bodies of the goroutines, with the job webhook's own copy in its place. -/
def deliveryBody : Task → Action Unit
  | .workflowJob event =>
      match event.action with
      | .queued => workflowJobQueued server event
      | .inProgress => workflowJobInProgress event.workflowJob
      | .completed => workflowJobCompleted server event.workflowJob
      | .other => return ()
  | task => taskBody server task

/-- The two copies make the same calls. -/
theorem workflowJobQueued_enqueues (event : WorkflowJobEvent) :
    workflowJobQueued server event = (do
      let _ ← enqueueWorkflowJob server event.repository event.installationID event.workflowJob
        event.links) := by
  unfold workflowJobQueued enqueueWorkflowJob workflowJobRequest
  dsimp only
  by_cases refused : server.repositoryAllowed event.repository = false
  · simp only [refused, if_true]
    rw [Prog.bind_assoc]
    rfl
  · rw [if_neg refused, if_neg refused, Prog.bind_assoc]
    congr 1
    funext answer
    rcases answer with err | _ | profile
    · rfl
    · dsimp only
      rw [Prog.bind_assoc]
      rfl
    · rfl

theorem deliveryBody_eq (task : Task) : deliveryBody server task = taskBody server task := by
  cases task with
  | workflowJob event =>
      simp only [deliveryBody, taskBody, handleWorkflowJob]
      cases event.action with
      | queued => exact workflowJobQueued_enqueues server event
      | inProgress => rfl
      | completed => rfl
      | other => rfl
  | _ => rfl

def WorkflowJob.waits (job : WorkflowJob) : Bool := job.id != 0 && job.status == "queued"

/-- `enqueueWorkflowJob` for every job of the run that waits, when GitHub lists
them. -/
def enqueueWaiting (event : WorkflowRunEvent) : Except GoError (List WorkflowJob) → Action Unit
  | .error _ => return ()
  | .ok jobs =>
      Prog.each (fun job => do
        let _ ← enqueueWorkflowJob server event.repository event.installationID job event.links)
        (jobs.filter WorkflowJob.waits)

theorem workflowRun_enqueues (event : WorkflowRunEvent) (reconciles : event.reconciles = true) :
    deliveryBody server (.workflowRun event) = (do
      enqueueWaiting server event (← ask (.listWorkflowRunJobs event.repository event.runID))) := by
  simp only [deliveryBody, taskBody, handleWorkflowRunWebhook, reconciles, Bool.true_eq_false,
    if_false]
  congr 1
  funext answer
  cases answer with
  | error err => rfl
  | ok jobs =>
      rw [enqueueWaiting, ← Prog.each_filter]
      refine congrArg (Prog.each · jobs) (funext fun job => ?_)
      by_cases skipped : job.id = 0 ∨ job.status ≠ "queued"
      · have passed : job.waits = false := by
          simp only [WorkflowJob.waits, Bool.and_eq_false_iff, bne_eq_false_iff_eq,
            beq_eq_false_iff_ne]
          exact skipped
        simp only [if_pos skipped, passed, Bool.false_eq_true, if_false]
      · have waits : job.waits = true := by
          simp only [not_or, not_not] at skipped
          simp [WorkflowJob.waits, skipped.1, skipped.2]
        simp only [if_neg skipped, waits, if_true]

end Copies

section Machine

abbrev CatalogMachine := Machine Op Op.Resp Task ServerState (Choice × Catalog)
abbrev CatalogMove := Move Task (Choice × Catalog)

/-- The goroutines of `machine`, where each call meets the profile catalog as it
stands at that instant. -/
def catalogMachine (server : Server) : CatalogMachine where
  body := deliveryBody server
  respond tid choice := respond { server with catalog := choice.2 } tid choice.1
  spawned := spawned
  entry := taskEntry
  crash := crash

/-- A delivery about workflow jobs that wait for a runner. -/
def Task.admits : Task → Bool
  | .workflowJob event => event.action == .queued
  | .workflowRun _ => true
  | _ => false

end Machine

section Decisions

inductive AdmissionDecision where
  | rejected (reason : String)
  | queued (profileName runnerGroup : String) (labels : List String)
  deriving DecidableEq, Repr

def matchDecision : Option RunnerProfile → AdmissionDecision
  | none => .rejected "profile_labels_not_matched"
  | some profile => .queued profile.name profile.runnerGroup profile.labels

/-- What admission is for: one answer for each repository and set of labels. -/
def admissionDecision (allowed : Bool) (catalog : Catalog) (labels : List String) :
    AdmissionDecision :=
  if allowed = false then .rejected "repository_not_allowed"
  else matchDecision (selectMatchingProfile catalog.profiles labels)

/-- A job is queued for the spec that outranks the others that suit its labels. -/
theorem admissionDecision_queued {catalog : Catalog}
    (distinct : (catalog.profiles.map RunnerProfile.name).Nodup)
    {labels offered : List String} {name group : String} :
    admissionDecision true catalog labels = .queued name group offered ↔
      ∃ profile ∈ catalog.profiles, Suits toLower labels profile ∧
        (∀ other ∈ catalog.profiles, Suits toLower labels other → other ≠ profile →
          Outranks profile other) ∧
        profile.name = name ∧ profile.runnerGroup = group ∧ profile.labels = offered := by
  have chosen := selectMatchingProfile_some distinct labels
  rw [admissionDecision, if_neg (by decide)]
  cases found : selectMatchingProfile catalog.profiles labels with
  | none =>
      simp only [matchDecision, reduceCtorEq, false_iff]
      rintro ⟨profile, member, suits, outranks, -⟩
      have taken := (chosen profile).mpr ⟨member, suits, outranks⟩
      cases found.symm.trans taken
  | some profile =>
      obtain ⟨member, suits, outranks⟩ := (chosen profile).mp found
      simp only [matchDecision, AdmissionDecision.queued.injEq]
      constructor
      · rintro ⟨rfl, rfl, rfl⟩
        exact ⟨profile, member, suits, outranks, rfl, rfl, rfl⟩
      · rintro ⟨other, present, fits, above, rfl, rfl, rfl⟩
        cases found.symm.trans ((chosen other).mpr ⟨present, fits, above⟩)
        exact ⟨rfl, rfl, rfl⟩

/-- What a row says about its admission. -/
structure Admitted where
  id : String
  source : String
  workflowJobID : Int
  repositoryFullName : String
  runnerName : String
  requestedLabels : List String
  status : Status
  failureStage : String := ""
  failureReason : String := ""
  error : String := ""
  profileName : String := ""
  runnerGroup : String := ""
  labels : List String
  deriving DecidableEq, Repr

def admitted (row : RunnerRequestRecord) : Admitted where
  id := row.id
  source := row.source
  workflowJobID := row.workflowJobID
  repositoryFullName := row.repositoryFullName
  runnerName := row.runnerName
  requestedLabels := row.requestedLabels
  status := row.status
  failureStage := row.failureStage
  failureReason := row.failureReason
  error := row.error
  profileName := row.profileName
  runnerGroup := row.runnerGroup
  labels := row.labels

/-- What a decision about a job leaves in the store. -/
def AdmissionDecision.admits (repository : String) (job : WorkflowJob) :
    AdmissionDecision → Admitted
  | .rejected reason =>
      { id := toString job.id
        source := "github_webhook"
        workflowJobID := job.id
        repositoryFullName := repository
        runnerName := "e2b-" ++ toString job.id
        requestedLabels := job.labels
        status := .failed
        failureStage := "admission"
        failureReason := reason
        error := "runner admission rejected"
        labels := job.labels }
  | .queued profileName runnerGroup labels =>
      { id := toString job.id
        source := "github_webhook"
        workflowJobID := job.id
        repositoryFullName := repository
        runnerName := "e2b-" ++ toString job.id
        requestedLabels := if job.labels.isEmpty then labels else job.labels
        status := .queued
        profileName := profileName
        runnerGroup := runnerGroup
        labels := labels }

/-- The call that stores a decision. -/
def AdmissionDecision.creates (repository : String) (installationID : Int) (job : WorkflowJob)
    (links : GitHubContext) : AdmissionDecision → Op
  | .rejected reason =>
      .createRequest (workflowJobRequest repository installationID job) links .failed "admission"
        reason "runner admission rejected"
  | .queued profileName runnerGroup labels =>
      .createRequest
        { workflowJobRequest repository installationID job with
          profileName := profileName
          runnerGroup := runnerGroup
          labels := labels }
        links .queued "" "" ""

/-- The row that such a call adds carries the decision. -/
theorem creates_admits {now : Time} {repository : String} {installationID : Int}
    {job : WorkflowJob} {links : GitHubContext} {decision : AdmissionDecision}
    {resp : (decision.creates repository installationID job links).Resp}
    {row : RunnerRequestRecord}
    (added : Added now ⟨decision.creates repository installationID job links, resp⟩ row) :
    admitted row = decision.admits repository job := by
  have named : (if "e2b-" ++ toString job.id = "" then "e2b-" ++ toString job.id
      else "e2b-" ++ toString job.id) = "e2b-" ++ toString job.id := ite_self _
  cases decision with
  | rejected reason =>
      cases added
      simp only [admitted, AdmissionDecision.admits, admittedRecord, workflowJobRequest,
        sanitizeID_int, sanitizeRunnerName_int, named]
      congr 1
      exact ite_self _
  | queued profileName runnerGroup labels =>
      cases added
      simp only [admitted, AdmissionDecision.admits, admittedRecord, workflowJobRequest,
        sanitizeID_int, sanitizeRunnerName_int, named]
      congr

end Decisions

section Contract

def Op.alters : Op → Bool
  | .writeState _ _ | .claimNextRunnable _ _ _ | .releaseLease _ _ | .retryRequest _ _
  | .createRequest _ _ _ _ _ _ => true
  | _ => false

def Op.founds : Op → Bool
  | .createRequest _ _ _ _ _ _ => true
  | _ => false

def listedJobs : Answered → List WorkflowJob
  | ⟨.listWorkflowRunJobs _ _, .ok jobs⟩ => jobs
  | _ => []

/-- A job that a delivery asks to admit, given what the delivery was answered. -/
inductive Delivered (past : List Answered) : Task → String → Int → WorkflowJob → Prop where
  | workflowJob {event : WorkflowJobEvent} (queued : event.action = .queued) :
      Delivered past (.workflowJob event) event.repository event.installationID event.workflowJob
  | workflowRun {event : WorkflowRunEvent} {call : Answered} {job : WorkflowJob}
      (answered : call ∈ past) (listed : job ∈ listedJobs call) (named : job.id ≠ 0)
      (waiting : job.status = "queued") :
      Delivered past (.workflowRun event) event.repository event.installationID job

/-- The allow list refused, or the catalog answered. -/
inductive Decided (server : Server) (past : List Answered) (repository : String)
    (labels : List String) : AdmissionDecision → Prop where
  | refused (excluded : server.repositoryAllowed repository = false) :
      Decided server past repository labels (.rejected "repository_not_allowed")
  | matched {found : Option RunnerProfile} (allowed : server.repositoryAllowed repository = true)
      (answered : (⟨.matchProfile repository labels, .ok found⟩ : Answered) ∈ past) :
      Decided server past repository labels (matchDecision found)

/-- `input.ID`, or the random id in its place. -/
def manualID (input : ManualCreateRequest) (newID : String) : String :=
  if input.id = "" then newID else input.id

inductive Founds (server : Server) (past : List Answered) : Task → Op → Prop where
  | delivered {task : Task} {repository : String} {installationID : Int} {job : WorkflowJob}
      {links : GitHubContext} {decision : AdmissionDecision}
      (about : Delivered past task repository installationID job)
      (decided : Decided server past repository job.labels decision) :
      Founds server past task (decision.creates repository installationID job links)
  | manual {input : ManualCreateRequest} {newID : String} {req : RunnerRequest}
      {links : GitHubContext} {status : Status} {stage reason message : String}
      (id : req.id = manualID input newID) (noJob : req.jobID = 0) :
      Founds server past (.createRunner input newID)
        (.createRequest req links status stage reason message)

/-- Who may add a row, and that a delivery does nothing else to the rows. -/
def admissionContract (server : Server) (task : Task) (past : List Answered) (op : Op) : Prop :=
  op.founds = true ∨ (task.admits = true ∧ op.alters = true) → Founds server past task op

variable {server : Server} {task : Task} {past : List Answered}

theorem permits_quiet {op : Op} (quiet : op.alters = false) :
    admissionContract server task past op := by
  rintro (founds | ⟨_, alters⟩)
  · cases op <;> simp_all [Op.founds, Op.alters]
  · rw [quiet] at alters
    cases alters

theorem permits_outside {op : Op} (outside : task.admits = false) (found : op.founds = false) :
    admissionContract server task past op := by
  rintro (founds | ⟨admits, _⟩)
  · rw [found] at founds
    cases founds
  · rw [outside] at admits
    cases admits

theorem Delivered.extend {later : List Answered} {repository : String} {installationID : Int}
    {job : WorkflowJob} (about : Delivered past task repository installationID job)
    (extends_ : past <:+ later) : Delivered later task repository installationID job := by
  cases about with
  | workflowJob queued => exact .workflowJob queued
  | workflowRun answered listed named waiting =>
      exact .workflowRun (extends_.subset answered) listed named waiting

end Contract

section Deliveries
variable {server : Server} {task : Task} {past : List Answered}

theorem enqueueRunnerRequest_admits {req : RunnerRequest} {links : GitHubContext}
    {post : Except GoError (RunnerState × Bool) → List Answered → Prop}
    (founds : ∀ later, past <:+ later →
      Founds server later task (.createRequest req links .queued "" "" ""))
    (done : Onward past post) :
    Keeps (admissionContract server task) (enqueueRunnerRequest req links) post past := by
  refine keeps_call (permits_quiet rfl) fun _ => keeps_call (permits_quiet rfl) fun answer => ?_
  cases answer with
  | ok st =>
      refine keeps_call (permits_quiet rfl) fun _ => ?_
      exact keeps_return (done _ _ ⟨[_, _, _], rfl⟩)
  | error err =>
      refine keeps_call (fun _ => founds _ ⟨[_, _], rfl⟩) fun answer => ?_
      refine keeps_call (permits_quiet rfl) fun _ => ?_
      cases answer with
      | error err => exact keeps_return (done _ _ ⟨[_, _, _, _], rfl⟩)
      | ok created => exact keeps_return (done _ _ ⟨[_, _, _, _], rfl⟩)

theorem rejectAdmission_admits {req : RunnerRequest} {links : GitHubContext} {reason : String}
    {post : Except GoError RunnerState → List Answered → Prop}
    (founds : Founds server past task (.createRequest req links .failed "admission"
      (trimSpace reason) "runner admission rejected"))
    (done : Onward past post) :
    Keeps (admissionContract server task) (rejectAdmission req links reason) post past := by
  refine keeps_call (fun _ => founds) fun answer => ?_
  cases answer with
  | error err => exact keeps_return (done _ _ ⟨[_], rfl⟩)
  | ok created => exact keeps_return (done _ _ ⟨[_], rfl⟩)

theorem enqueueWorkflowJob_admits {repository : String} {installationID : Int} {job : WorkflowJob}
    {links : GitHubContext} {post : Except GoError (RunnerState × Bool) → List Answered → Prop}
    (about : Delivered past task repository installationID job) (done : Onward past post) :
    Keeps (admissionContract server task)
      (enqueueWorkflowJob server repository installationID job links) post past := by
  unfold enqueueWorkflowJob
  dsimp only
  by_cases refused : server.repositoryAllowed repository = false
  · rw [if_pos refused]
    apply keeps_seq
    have plain : trimSpace "repository_not_allowed" = "repository_not_allowed" := by decide +kernel
    apply rejectAdmission_admits
    · rw [plain]
      exact .delivered about (.refused refused)
    · exact fun answer later extends_ => keeps_return (done _ _ extends_)
  · rw [if_neg refused]
    have allowed := Bool.not_eq_false _ |>.mp refused
    refine keeps_call (permits_quiet rfl) fun answer => ?_
    have known := about.extend (List.suffix_cons ⟨.matchProfile repository job.labels, answer⟩ past)
    rcases answer with err | _ | profile
    · exact keeps_return (done _ _ ⟨[_], rfl⟩)
    · apply keeps_seq
      have plain : trimSpace "profile_labels_not_matched" = "profile_labels_not_matched" := by
        decide +kernel
      apply rejectAdmission_admits
      · rw [plain]
        exact .delivered known (.matched allowed List.mem_cons_self)
      · intro answer later extends_
        exact keeps_return (done _ _ (List.IsSuffix.trans ⟨[_], rfl⟩ extends_))
    · refine enqueueRunnerRequest_admits ?_ (done.extend ⟨[_], rfl⟩)
      intro later extends_
      change Founds server later task
        ((matchDecision (some profile)).creates repository installationID job links)
      exact .delivered (known.extend extends_)
        (.matched allowed (extends_.subset List.mem_cons_self))

theorem handleWorkflowRunWebhook_admits (event : WorkflowRunEvent) :
    Keeps (admissionContract server (.workflowRun event)) (handleWorkflowRunWebhook server event)
      (fun _ _ => True) [] := by
  unfold handleWorkflowRunWebhook
  by_cases ignored : event.reconciles = false
  · rw [if_pos ignored]
    exact keeps_return True.intro
  · rw [if_neg ignored]
    refine keeps_call (permits_quiet rfl) fun answer => ?_
    cases answer with
    | error err => exact keeps_return True.intro
    | ok jobs =>
        refine keeps_each jobs ?_ fun _ _ _ => True.intro
        intro job member before reached after onward
        by_cases skipped : job.id = 0 ∨ job.status ≠ "queued"
        · rw [if_pos skipped]
          exact keeps_return (onward _ _ List.suffix_rfl)
        · rw [if_neg skipped]
          simp only [not_or, not_not] at skipped
          apply keeps_seq
          refine enqueueWorkflowJob_admits ?_ fun answer later extends_ =>
            keeps_return (onward _ _ extends_)
          exact .workflowRun (reached.subset List.mem_cons_self) member skipped.1 skipped.2

/-- How a delivery ends with a job: its decision went to the store, unless the
store had the job already or could not be asked for the profiles. -/
inductive SettledJob (server : Server) (repository : String) (installationID : Int)
    (job : WorkflowJob) (later : List Answered) : Prop where
  | created {links : GitHubContext} {decision : AdmissionDecision}
      {resp : (decision.creates repository installationID job links).Resp}
      (decided : Decided server later repository job.labels decision)
      (sent : (⟨decision.creates repository installationID job links, resp⟩ : Answered) ∈ later)
  | present {profile : RunnerProfile} {st : RunnerState}
      (decided : Decided server later repository job.labels (matchDecision (some profile)))
      (read : (⟨.readState (toString job.id), .ok st⟩ : Answered) ∈ later)
  | unmatched {err : GoError} (allowed : server.repositoryAllowed repository = true)
      (failed : (⟨.matchProfile repository job.labels, .error err⟩ : Answered) ∈ later)

theorem Decided.extend {later : List Answered} {repository : String} {labels : List String}
    {decision : AdmissionDecision} (decided : Decided server past repository labels decision)
    (extends_ : past <:+ later) : Decided server later repository labels decision := by
  cases decided with
  | refused excluded => exact .refused excluded
  | matched allowed answered => exact .matched allowed (extends_.subset answered)

theorem SettledJob.extend {later : List Answered} {repository : String} {installationID : Int}
    {job : WorkflowJob} (settled : SettledJob server repository installationID job past)
    (extends_ : past <:+ later) : SettledJob server repository installationID job later := by
  cases settled with
  | created decided sent => exact .created (decided.extend extends_) (extends_.subset sent)
  | present decided read => exact .present (decided.extend extends_) (extends_.subset read)
  | unmatched allowed failed => exact .unmatched allowed (extends_.subset failed)

theorem rejectAdmission_settles {repository : String} {installationID : Int} {job : WorkflowJob}
    {links : GitHubContext} {reason : String} (trimmed : trimSpace reason = reason)
    (decided : Decided server past repository job.labels (.rejected reason)) :
    Keeps (fun _ _ => True)
      (rejectAdmission (workflowJobRequest repository installationID job) links reason)
      (fun _ later => past <:+ later ∧ SettledJob server repository installationID job later) past := by
  unfold rejectAdmission
  rw [trimmed]
  refine keeps_call True.intro fun answer => ?_
  have settled : SettledJob server repository installationID job
      (⟨.createRequest (workflowJobRequest repository installationID job) links .failed "admission"
        reason "runner admission rejected", answer⟩ :: past) :=
    .created (decided.extend (List.suffix_cons _ _)) List.mem_cons_self
  cases answer with
  | error err => exact keeps_return ⟨List.suffix_cons _ _, settled⟩
  | ok created => exact keeps_return ⟨List.suffix_cons _ _, settled⟩

theorem enqueueRunnerRequest_settles {repository : String} {installationID : Int}
    {job : WorkflowJob} {links : GitHubContext} {profile : RunnerProfile}
    (decided : Decided server past repository job.labels (matchDecision (some profile))) :
    Keeps (fun _ _ => True)
      (enqueueRunnerRequest
        { workflowJobRequest repository installationID job with
          profileName := profile.name
          runnerGroup := profile.runnerGroup
          labels := profile.labels } links)
      (fun _ later => past <:+ later ∧ SettledJob server repository installationID job later) past := by
  refine keeps_call True.intro fun _ => keeps_call True.intro fun answer => ?_
  cases answer with
  | ok st =>
      refine keeps_call True.intro fun _ => keeps_return ⟨⟨[_, _, _], rfl⟩, ?_⟩
      exact .present (decided.extend ⟨[_, _, _], rfl⟩)
        (List.mem_cons_of_mem _ List.mem_cons_self)
  | error err =>
      refine keeps_call True.intro fun answer => keeps_call True.intro fun _ => ?_
      have settled : SettledJob server repository installationID job (⟨.unlockAdmission, ()⟩ ::
          ⟨(matchDecision (some profile)).creates repository installationID job links, answer⟩ ::
          ⟨.readState (toString job.id), .error err⟩ :: ⟨.lockAdmission, ()⟩ :: past) :=
        .created (decided.extend ⟨[_, _, _, _], rfl⟩)
          (List.mem_cons_of_mem _ List.mem_cons_self)
      cases answer with
      | error err => exact keeps_return ⟨⟨[_, _, _, _], rfl⟩, settled⟩
      | ok created => exact keeps_return ⟨⟨[_, _, _, _], rfl⟩, settled⟩

/-- Whatever it is answered, `enqueueWorkflowJob` settles its job. -/
theorem enqueueWorkflowJob_settles (repository : String) (installationID : Int) (job : WorkflowJob)
    (links : GitHubContext) :
    Keeps (fun _ _ => True) (enqueueWorkflowJob server repository installationID job links)
      (fun _ later => past <:+ later ∧ SettledJob server repository installationID job later) past := by
  unfold enqueueWorkflowJob
  dsimp only
  by_cases refused : server.repositoryAllowed repository = false
  · rw [if_pos refused]
    exact keeps_seq (keeps_mono (fun _ _ settled => keeps_return settled)
      (rejectAdmission_settles (by decide +kernel) (.refused refused)))
  · rw [if_neg refused]
    have allowed := Bool.not_eq_false _ |>.mp refused
    refine keeps_call True.intro fun answer => ?_
    have further {later : List Answered} (ended :
        ⟨.matchProfile repository job.labels, answer⟩ :: past <:+ later ∧
          SettledJob server repository installationID job later) :
        past <:+ later ∧ SettledJob server repository installationID job later :=
      ⟨(List.suffix_cons _ _).trans ended.1, ended.2⟩
    rcases answer with err | _ | profile
    · exact keeps_return ⟨List.suffix_cons _ _, .unmatched allowed List.mem_cons_self⟩
    · refine keeps_seq (keeps_mono (fun _ _ settled => keeps_return (further settled))
        (rejectAdmission_settles (by decide +kernel) ?_))
      exact .matched allowed List.mem_cons_self
    · refine keeps_mono (fun _ _ settled => further settled)
        (enqueueRunnerRequest_settles ?_)
      exact .matched allowed List.mem_cons_self

theorem workflowJob_settles (event : WorkflowJobEvent) (queued : event.action = .queued) :
    Keeps (fun _ _ => True) (deliveryBody server (.workflowJob event))
      (fun _ later =>
        SettledJob server event.repository event.installationID event.workflowJob later) [] := by
  simp only [deliveryBody, queued]
  rw [workflowJobQueued_enqueues]
  exact keeps_seq (keeps_mono (fun _ _ settled => keeps_return settled.2)
    (enqueueWorkflowJob_settles _ _ _ _))

/-- Whatever the loop is answered on its way, no listed job is left out. -/
theorem enqueueWaiting_settles (event : WorkflowRunEvent) (jobs : List WorkflowJob) :
    Keeps (fun _ _ => True) (enqueueWaiting server event (.ok jobs))
      (fun _ later => ∀ job ∈ jobs, job.waits = true →
        SettledJob server event.repository event.installationID job later) [] := by
  have loop : Keeps (fun _ _ => True) (enqueueWaiting server event (.ok jobs))
      (fun _ later => [] <:+ later ∧ ∀ job ∈ jobs.filter WorkflowJob.waits,
        SettledJob server event.repository event.installationID job later) [] :=
    keeps_each_all (fun _ _ _ extends_ settled => settled.extend extends_) _ fun job _ before _ =>
      keeps_seq (keeps_mono (fun _ _ settled => keeps_return settled)
        (enqueueWorkflowJob_settles _ _ job _))
  refine keeps_mono ?_ loop
  rintro _ later ⟨_, settled⟩ job listed waits
  exact settled job (List.mem_filter.mpr ⟨listed, waits⟩)

end Deliveries

section Others
variable (server : Server)

abbrev Foundless {α : Type} (program : Action α) : Prop :=
  Calls (fun op => op.founds = false) program

/-- Neither an admission nor an attachment to a running sandbox. -/
def Op.ordinary : Op → Bool
  | .createRequest _ _ _ _ _ _ | .recoverRunner _ _ => false
  | _ => true

abbrev Ordinary {α : Type} (program : Action α) : Prop :=
  Calls (fun op => op.ordinary = true) program

theorem within_foundless {α : Type} {kinds : List Kind} {program : Action α}
    (within : Within kinds program) (none : kinds.contains .queue = false) : Foundless program := by
  refine calls_widen within fun op member => ?_
  cases founds : op.founds with
  | false => rfl
  | true =>
      have kind : op.kind = .queue := by cases op <;> simp_all [Op.founds, Op.kind]
      rw [kind, none] at member
      cases member

theorem within_ordinary {α : Type} {kinds : List Kind} {program : Action α}
    (within : Within kinds program)
    (none : (kinds.contains .queue || kinds.contains .recover) = false) : Ordinary program := by
  simp only [Bool.or_eq_false_iff] at none
  refine calls_widen within fun op member => ?_
  cases op with
  | createRequest req links status stage reason message => exact none.1.symm.trans member
  | recoverRunner service input => exact none.2.symm.trans member
  | _ => rfl

theorem ordinary_foundless {α : Type} {program : Action α} (calls : Ordinary program) :
    Foundless program := by
  refine calls_widen calls fun op ordinary => ?_
  cases op with
  | createRequest req links status stage reason message => cases ordinary
  | _ => rfl

theorem stopRunner_ordinary (id : String) (job : WorkflowJob) :
    Ordinary (stopRunner server id job) := by
  refine calls_call rfl fun _ => calls_seq ?_ fun _ => calls_call rfl fun _ => calls_return
  refine calls_call rfl fun answer => ?_
  cases answer with
  | error err => exact calls_return
  | ok st =>
      dsimp only
      split
      · exact calls_return
      · split
        · split
          · refine calls_call rfl fun answer => ?_
            cases answer with
            | error err => exact calls_return
            | ok _ => exact calls_return
          · exact calls_return
        · refine calls_call rfl fun answer => ?_
          cases answer with
          | error err => exact calls_return
          | ok _ => exact within_ordinary (stopMarked_within server id _ job) rfl

theorem stopIfExists_ordinary (id : String) (job : WorkflowJob) :
    Ordinary (stopIfExists server id job) := by
  refine calls_call rfl fun answer => ?_
  cases answer with
  | error err => exact calls_return
  | ok st => exact calls_seq (stopRunner_ordinary server id job) fun _ => calls_return

theorem processQueuedRequests_ordinary (rounds : Nat) :
    Ordinary (processQueuedRequests server rounds) := by
  induction rounds with
  | zero => exact calls_return
  | succ rounds ih =>
      refine calls_call rfl fun free => ?_
      cases free with
      | false => exact calls_return
      | true =>
          refine calls_call rfl fun now => calls_call rfl fun answer => ?_
          rcases answer with err | _ | ⟨req, claimed⟩
          · exact calls_last rfl
          · exact calls_last rfl
          · exact calls_call rfl fun _ => ih

theorem sweepTimeout_ordinary (now : Time) (st : RunnerState) :
    Ordinary (sweepTimeout server now st) := by
  unfold sweepTimeout
  split
  · split
    · exact within_ordinary (retryOrFail_within server _ _ _) rfl
    · exact calls_return
  · split
    · exact within_ordinary (failAndStopRunnerVersion_within server _ _ _ _ _) rfl
    · exact calls_return
  · split
    · exact stopIfExists_ordinary server _ _
    · exact calls_return
  · exact calls_return

theorem sweepOnce_ordinary : Ordinary (sweepOnce server) := by
  refine calls_call rfl fun answer => ?_
  cases answer with
  | error err => exact calls_return
  | ok states =>
      refine calls_call rfl fun now => calls_seq ?_ fun _ => ?_
      · exact calls_each states fun st _ => sweepTimeout_ordinary server now st
      · refine calls_each _ fun st _ => ?_
        refine calls_seq (within_ordinary (originalWorkflowJobQueued_within st) rfl) ?_
        rintro (err | _ | _)
        · exact calls_return
        · refine calls_seq (within_ordinary (githubRunnerBusy_within st) rfl) ?_
          rintro (err | _ | _)
          · exact calls_return
          · exact stopIfExists_ordinary server _ _
          · exact within_ordinary (markRunnerJobStarted_within _) rfl
        · exact calls_return

theorem reconcileMismatched_ordinary (st : RunnerState) : Ordinary (reconcileMismatched st) := by
  refine calls_seq ?_ fun answer => ?_
  · exact calls_call rfl fun _ => calls_seq (calls_last rfl) fun _ =>
      calls_call rfl fun _ => calls_return
  · cases answer with
    | error err => exact calls_return
    | ok current =>
        dsimp only
        split
        · exact calls_return
        · refine calls_seq (within_ordinary (originalWorkflowJobQueued_within _) rfl) fun queued => ?_
          refine calls_call rfl fun _ => calls_seq ?_ fun _ => calls_call rfl fun _ => calls_return
          refine calls_call rfl fun answer => ?_
          cases answer with
          | error err => exact calls_return
          | ok latest =>
              dsimp only
              split
              · exact calls_return
              · refine calls_seq ?_ fun _ => calls_return
                exact within_ordinary (requeueMismatchedWorkflowJob_within latest _) rfl

theorem reconcileOnce_ordinary (rounds : Nat) : Ordinary (reconcileOnce server rounds) := by
  refine calls_seq (processQueuedRequests_ordinary server rounds) fun _ => ?_
  refine calls_call rfl fun answer => ?_
  cases answer with
  | error err => exact calls_return
  | ok states =>
      refine calls_seq ?_ fun _ => calls_seq ?_ fun _ => ?_
      · refine calls_each _ fun st _ => calls_call rfl fun now => ?_
        split
        · refine calls_call rfl fun now => ?_
          split
          · exact stopIfExists_ordinary server _ _
          · exact calls_return
        · exact calls_return
      · refine calls_call rfl fun answer => ?_
        cases answer with
        | error err => exact calls_return
        | ok states => exact calls_each _ fun st _ => reconcileMismatched_ordinary st
      · refine calls_call rfl fun answer => ?_
        cases answer with
        | error err => exact calls_return
        | ok states =>
            refine calls_each _ fun st _ => calls_seq ?_ fun _ => calls_return
            exact within_ordinary (completeIfWorkflowJobCompleted_within _) rfl

theorem recoverFailed_foundless (st : RunnerState) (stateVersion : Nat) (job : Option WorkflowJob)
    (result : StartResult) (err : GoError) :
    Foundless (recoverFailed server st stateVersion job result err) := by
  have requeues : Foundless (requeueInterruptedCreation st.id stateVersion) :=
    within_foundless (requeueInterruptedCreation_within _ _) rfl
  have fails (stage reason message : String) :
      Foundless (failAndStopRunnerVersion server st.id stateVersion stage reason message) :=
    within_foundless (failAndStopRunnerVersion_within server _ _ _ _ _) rfl
  refine calls_call rfl fun _ => ?_
  dsimp only
  split
  · exact calls_seq (fails _ _ _) fun _ => calls_return
  · split
    · exact requeues
    · split
      · exact calls_seq (fails _ _ _) fun _ => calls_return
      · split
        · refine calls_seq (within_foundless (stopSandboxWithTimeout_within _ _ _) rfl) fun answer => ?_
          cases answer with
          | none => exact requeues
          | some stopErr =>
              dsimp only
              split
              · exact requeues
              · exact calls_return
        · exact calls_return

theorem recoverSandbox_foundless (st : RunnerState) (stateVersion : Nat)
    (job : Option WorkflowJob) : Foundless (recoverSandbox server st stateVersion job) := by
  refine calls_call rfl fun now => ?_
  dsimp only
  split
  · refine calls_seq ?_ fun _ => calls_return
    exact within_foundless (failAndStopRunnerVersion_within server _ _ _ _ _) rfl
  · refine calls_call rfl fun answer => ?_
    cases answer with
    | error err => exact calls_return
    | ok req =>
        refine calls_call rfl fun answer => ?_
        cases answer with
        | error err => exact calls_return
        | ok service =>
            refine calls_call rfl fun answer => ?_
            rcases answer with ⟨result, _ | err⟩
            · exact within_foundless (reconnect_within _ _ _) rfl
            · exact recoverFailed_foundless server st stateVersion job result err

theorem recoverActiveRunner_foundless (st : RunnerState) :
    Foundless (recoverActiveRunner server st) := by
  have recovers (st : RunnerState) (job : Option WorkflowJob) :
      Foundless (recoverSandbox server st st.version job) :=
    recoverSandbox_foundless server st st.version job
  refine calls_seq ?_ fun job => ?_
  · unfold workflowJobForRecovery
    split
    · exact calls_return
    · refine calls_call rfl fun answer => ?_
      cases answer with
      | error err => exact calls_return
      | ok job => exact calls_return
  · split
    · exact recovers st none
    · exact recovers st none
    · split
      · refine calls_seq (ordinary_foundless (stopRunner_ordinary server _ _)) fun answer => ?_
        split
        · exact calls_return
        · split
          · exact calls_return
          · exact recovers _ _
      · exact recovers st _

theorem recoverRunner_foundless (id : String) : Foundless (recoverRunner server id) := by
  refine calls_call rfl fun _ => calls_call rfl fun answer => ?_
  cases answer with
  | error err => exact calls_call rfl fun _ => calls_return
  | ok st =>
      dsimp only
      split
      · exact calls_call rfl fun _ => calls_return
      · exact calls_call rfl fun _ => calls_return
      · refine calls_call rfl fun answer => ?_
        cases answer with
        | error err => exact calls_call rfl fun _ => calls_return
        | ok _ => exact calls_call rfl fun _ => calls_return
      · refine calls_call rfl fun _ => calls_seq
          (ordinary_foundless (stopRunner_ordinary server id _)) fun answer => ?_
        cases answer with
        | error err => exact calls_return
        | ok _ => exact calls_return
      · exact calls_call rfl fun _ => recoverActiveRunner_foundless server st
      · exact calls_call rfl fun _ => recoverActiveRunner_foundless server st

end Others

section Tasks
variable (server : Server)

theorem handleCreateRunner_admits (input : ManualCreateRequest) (newID : String) :
    Keeps (admissionContract server (.createRunner input newID))
      (handleCreateRunner server input newID) (fun _ _ => True) [] := by
  have enqueues (repository profileName runnerGroup : String) (labels requestedLabels : List String)
      (past : List Answered) : Keeps (admissionContract server (.createRunner input newID))
        (do let _ ← enqueueRunnerRequest (manualRequest (manualID input newID) repository profileName
              runnerGroup labels requestedLabels) {}) (fun _ _ => True) past := by
    apply keeps_seq
    exact enqueueRunnerRequest_admits (fun _ _ => .manual rfl rfl) fun _ _ _ => keeps_return True.intro
  unfold handleCreateRunner
  dsimp only
  split
  · exact keeps_return True.intro
  · split
    · exact keeps_return True.intro
    · split
      · split
        · exact keeps_return True.intro
        · refine keeps_call (permits_quiet rfl) fun answer => ?_
          rcases answer with err | _ | profile
          · exact keeps_return True.intro
          · exact keeps_return True.intro
          · exact enqueues _ _ _ _ _ _
      · refine keeps_call (permits_quiet rfl) fun answer => ?_
        cases answer with
        | error err => exact keeps_return True.intro
        | ok profile =>
            dsimp only
            split
            · exact keeps_return True.intro
            · exact enqueues _ _ _ _ _ _

/-- Every goroutine keeps the contract. -/
theorem task_admits (task : Task) :
    Keeps (admissionContract server task) (deliveryBody server task) (fun _ _ => True) [] := by
  have foundless {program : Action Unit} (outside : task.admits = false)
      (calls : Foundless program) :
      Keeps (admissionContract server task) program (fun _ _ => True) [] :=
    keeps_calls calls (fun _ _ found => permits_outside outside found) fun _ _ _ _ => True.intro
  rw [deliveryBody_eq]
  cases task with
  | workflowJob event =>
      simp only [taskBody, handleWorkflowJob]
      cases action : event.action with
      | queued =>
          apply keeps_seq
          exact enqueueWorkflowJob_admits (.workflowJob action) fun _ _ _ => keeps_return True.intro
      | inProgress =>
          refine foundless (by simp [Task.admits, action]) ?_
          exact within_foundless (workflowJobInProgress_within _) rfl
      | completed =>
          refine foundless (by simp [Task.admits, action]) ?_
          refine calls_seq (within_foundless (completedWorkflowJobStopID_within _) rfl) fun stopID => ?_
          split
          · exact calls_return
          · refine calls_seq (ordinary_foundless (stopRunner_ordinary server _ _)) fun answer => ?_
            split
            · exact calls_last rfl
            · exact calls_return
      | other => exact keeps_return True.intro
  | workflowRun event => exact handleWorkflowRunWebhook_admits event
  | createRunner input newID => exact handleCreateRunner_admits server input newID
  | retryRunner id =>
      exact foundless rfl (calls_call rfl fun now => calls_call rfl fun _ => calls_return)
  | deleteRunner id =>
      exact foundless rfl (calls_seq (ordinary_foundless (stopRunner_ordinary server id {}))
        fun _ => calls_return)
  | runnerStdout id text => exact foundless rfl (within_foundless (appendRunnerStdout_within _ _) rfl)
  | processQueuedRequests rounds =>
      exact foundless rfl (ordinary_foundless (processQueuedRequests_ordinary server rounds))
  | sweepOnce => exact foundless rfl (ordinary_foundless (sweepOnce_ordinary server))
  | reconcileOnce rounds =>
      exact foundless rfl (ordinary_foundless (reconcileOnce_ordinary server rounds))
  | recover id =>
      exact foundless rfl (calls_seq (recoverRunner_foundless server id) fun _ => calls_return)
  | startRunner claimed =>
      refine foundless rfl (calls_seq ?_ fun _ => calls_last rfl)
      exact within_foundless (startRunner_within server _ _) rfl
  | exitWatch id sandboxID owner =>
      refine foundless rfl (calls_call rfl fun answer => calls_seq ?_ fun _ => calls_last rfl)
      exact within_foundless (runnerExited_within server id _ _) rfl
  | recoveredExitWatch id sandboxID owner =>
      refine foundless rfl (calls_call rfl fun answer => calls_call rfl fun accepted => ?_)
      cases accepted with
      | true => exact within_foundless (runnerExited_within server id _ _) rfl
      | false => exact calls_return

end Tasks

section Rows

theorem RowStep.sameJob {now : Time} {call : Answered} {row next : RunnerRequestRecord}
    (step : RowStep now call row next) : next.workflowJobID = row.workflowJobID := by
  cases step <;> rfl

theorem RowStep.alters {now : Time} {call : Answered} {row next : RunnerRequestRecord}
    (step : RowStep now call row next) : call.op.alters = true ∧ call.op.founds = false := by
  cases step <;> exact ⟨rfl, rfl⟩

variable {server : Server} {tid : Nat} {choice : Choice} {state after : ServerState} {op : Op}
  {resp : op.Resp}

/-- A call that neither edits rows nor adds one. -/
theorem rows_kept (answered : respond server tid choice state op = some (resp, after))
    (quiet : op.alters = false) : after.table.rows = state.table.rows := by
  rcases rows_answered answered with ⟨edit, same, steps⟩ | ⟨row, added, _⟩
  · rw [same]
    refine (List.map_congr_left fun row member => ?_).trans (List.map_id _)
    rcases steps row member with kept | step
    · exact kept
    · rw [step.alters.1] at quiet
      cases quiet
  · cases added
    cases quiet

/-- A call that adds a row edits none. -/
theorem rows_founded (answered : respond server tid choice state op = some (resp, after))
    (founds : op.founds = true) : after.table.rows = state.table.rows ∨
      ∃ row, Added choice.now ⟨op, resp⟩ row ∧ after.table.rows = state.table.rows ++ [row] := by
  rcases rows_answered answered with ⟨edit, same, steps⟩ | added
  · left
    rw [same]
    refine (List.map_congr_left fun row member => ?_).trans (List.map_id _)
    rcases steps row member with kept | step
    · exact kept
    · rw [step.alters.2] at founds
      cases founds
  · exact .inr added

/-- A new row has an id and a job of its own. -/
theorem appended_fresh {table : RequestTable} {before : List RunnerRequestRecord}
    {row : RunnerRequestRecord} (rows : table.rows = before ++ [row]) :
    ∀ old ∈ before, old.id ≠ row.id ∧
      (row.workflowJobID ≠ 0 → old.workflowJobID ≠ row.workflowJobID) := by
  intro old member
  constructor
  · have distinct := table.primaryKey
    rw [rows, List.map_append, List.nodup_append] at distinct
    exact distinct.2.2 old.id (List.mem_map_of_mem member) row.id (by simp)
  · intro named same
    have distinct := table.jobIndex
    rw [rows, List.filterMap_append, List.nodup_append] at distinct
    have key (other : RunnerRequestRecord) (job : other.workflowJobID = row.workflowJobID) :
        jobKey other = some row.workflowJobID := by simp [jobKey, job, named]
    refine distinct.2.2 row.workflowJobID ?_ row.workflowJobID ?_ rfl
    · exact List.mem_filterMap.mpr ⟨old, member, key old same⟩
    · exact List.mem_filterMap.mpr ⟨row, List.mem_singleton_self row, key row rfl⟩

end Rows

section Runs
variable {server : Server} {catalogs : Catalog → Prop}

/-- The id is no decimal number of a job. -/
def NoJob (id : String) : Prop := ∀ n : Int, n ≠ 0 → id ≠ toString n

/-- Rows are filed under the ids of their jobs, and no other row is. -/
def Filed (rows : List RunnerRequestRecord) : Prop :=
  ∀ row ∈ rows, ∀ n : Int, n ≠ 0 → (row.id = toString n ↔ row.workflowJobID = n)

/-- The catalogs that the calls meet are among `catalogs`, and no manual request
uses a job id. -/
structure Admissible (catalogs : Catalog → Prop) (move : CatalogMove) : Prop where
  catalog : ∀ tid choice, move = .run tid choice → catalogs choice.2
  manual : ∀ input newID, move = .start (.createRunner input newID) →
    NoJob (sanitizeID (manualID input newID))

/-- What a delivery's answers say of the catalogs. -/
def Matched (catalogs : Catalog → Prop) : Answered → Prop
  | ⟨.matchProfile _ labels, .ok found⟩ =>
      ∃ catalog, catalogs catalog ∧ found = selectMatchingProfile catalog.profiles labels
  | _ => True

theorem answered_matches {server : Server} {tid : Nat} {choice : Choice} {state after : ServerState}
    {op : Op} {resp : op.Resp} (current : catalogs server.catalog)
    (answered : respond server tid choice state op = some (resp, after)) :
    Matched catalogs ⟨op, resp⟩ := by
  cases op with
  | matchProfile repository labels =>
      cases resp with
      | error err => exact True.intro
      | ok found =>
          simp only [respond] at answered
          obtain ⟨_, ⟨err, failed⟩ | read⟩ := loaded_cases answered
          · cases failed
          · exact ⟨server.catalog, current, Except.ok.inj read⟩
  | _ => exact True.intro

/-- What holds in every reachable world. -/
structure Sound (server : Server) (catalogs : Catalog → Prop) (world : RunnerWorld) : Prop where
  filed : Filed world.state.table.rows
  manual : ∀ (tid : Nat) thread input newID, world.threads[tid]? = some thread →
    thread.task = .createRunner input newID → NoJob (sanitizeID (manualID input newID))
  obeys : Machine.Obeys (admissionContract server) world
  matched : ∀ event ∈ world.trace, Matched catalogs event.call

theorem filed_edited {now : Time} {call : Answered} {before after : List RunnerRequestRecord}
    (filed : Filed before) (edited : Edited now call before after) : Filed after := by
  obtain ⟨edit, rfl, steps⟩ := edited
  intro row member n named
  obtain ⟨old, here, rfl⟩ := List.mem_map.mp member
  rcases steps old here with kept | step
  · rw [kept]
    exact filed old here n named
  · rw [step.sameID, step.sameJob]
    exact filed old here n named

/-- Whoever adds a row files it under its job. -/
theorem founds_filed {now : Time} {task : Task} {past : List Answered} {op : Op} {resp : op.Resp}
    {row : RunnerRequestRecord} (founds : Founds server past task op)
    (manual : ∀ input newID, task = .createRunner input newID →
      NoJob (sanitizeID (manualID input newID)))
    (added : Added now ⟨op, resp⟩ row) (n : Int) (named : n ≠ 0) :
    row.id = toString n ↔ row.workflowJobID = n := by
  cases founds with
  | delivered about decided =>
      rename_i repository installationID job links decision
      have carries := creates_admits added
      have id : row.id = toString job.id := by
        have same := congrArg Admitted.id carries
        cases decision <;> exact same
      have jobID : row.workflowJobID = job.id := by
        have same := congrArg Admitted.workflowJobID carries
        cases decision <;> exact same
      rw [id, jobID]
      constructor
      · exact toString_inj job.id n
      · intro same
        rw [same]
  | manual id noJob =>
      rename_i input newID req links status stage reason message
      have unnamed := manual input newID rfl n named
      cases added
      constructor
      · intro same
        exact absurd ((congrArg sanitizeID id).symm.trans same) unnamed
      · intro same
        exact absurd (same.symm.trans noJob) named

theorem sound_step {world after : RunnerWorld} {move : CatalogMove}
    (sound : Sound server catalogs world)
    (admissible : Admissible catalogs move)
    (stepped : (catalogMachine server).step world move = some after) :
    Sound server catalogs after := by
  have obeys := Machine.obeys_step (task_admits server) sound.obeys stepped
  obtain ⟨tid, choice, thread, op, resp, rest, state, rfl, acts, rfl⟩ | ⟨task, rfl, _, rfl⟩ |
    ⟨rfl, rfl⟩ := (catalogMachine server).step_cases stepped
  · have current := admissible.catalog tid choice rfl
    refine ⟨?_, ?_, obeys, ?_⟩
    · rcases rows_answered acts.answer with edited | ⟨row, added, rows⟩
      · exact filed_edited sound.filed edited
      · have founds : op.founds = true := by
          cases added
          rfl
        have permitted := sound.obeys.permits acts (.inl founds)
        intro other member n named
        change other ∈ state.table.rows at member
        rw [rows] at member
        rcases List.mem_append.mp member with older | new
        · exact sound.filed other older n named
        · cases List.mem_singleton.mp new
          exact founds_filed permitted
            (fun input newID same => sound.manual tid thread input newID acts.live same) added n named
    · intro other found input newID live same
      rcases Machine.acted_thread live with ⟨rfl, rfl⟩ | ⟨_, live⟩ | ⟨task, member, rfl⟩
      · exact sound.manual _ thread input newID acts.live same
      · exact sound.manual other found input newID live same
      · exfalso
        change task = _ at same
        subst same
        change _ ∈ spawned tid op resp at member
        unfold spawned at member
        split at member <;> simp at member
    · intro event member
      rcases List.mem_cons.mp member with rfl | older
      · exact answered_matches current acts.answer
      · exact sound.matched event older
  · refine ⟨sound.filed, ?_, obeys, sound.matched⟩
    intro other found input newID live same
    rcases Machine.started_thread live with live | rfl
    · exact sound.manual other found input newID live same
    · change task = _ at same
      subst same
      exact admissible.manual input newID rfl
  · refine ⟨sound.filed, ?_, obeys, sound.matched⟩
    intro other found input newID live same
    obtain ⟨thread, before, rfl⟩ := Machine.halted_thread live
    exact sound.manual other thread input newID before same

theorem sound_reachable {table : RequestTable} (filed : Filed table.rows) {world : RunnerWorld}
    (reaches : (catalogMachine server).Reaches (fun _ move => Admissible catalogs move)
      (opened table) world) : Sound server catalogs world := by
  induction reaches with
  | refl =>
      refine ⟨filed, fun _ _ _ _ live => ?_, ⟨fun _ _ live => ?_, fun _ _ live => ?_⟩, ?_⟩
      · cases live
      · cases live
      · cases live
      · exact fun _ member => absurd member List.not_mem_nil
  | step move _ admissible stepped ih => exact sound_step ih admissible stepped

end Runs

section Idempotence
variable {server : Server} {catalogs : Catalog → Prop} {world after : RunnerWorld}

/-- The row stands for the job. -/
def AboutJob (n : Int) (row : RunnerRequestRecord) : Prop :=
  row.id = toString n ∨ row.workflowJobID = n

/-- What one call of a delivery does to the rows: nothing, or it files a job
that has no row yet, with the decision of a catalog that the delivery met. -/
inductive AdmitsRow (server : Server) (catalogs : Catalog → Prop) (task : Task) (past : List Answered)
    (before : List RunnerRequestRecord) : List RunnerRequestRecord → Prop where
  | unchanged : AdmitsRow server catalogs task past before before
  | filed {repository : String} {installationID : Int} {job : WorkflowJob} {catalog : Catalog}
      {row : RunnerRequestRecord} (about : Delivered past task repository installationID job)
      (met : catalogs catalog)
      (fresh : ∀ old ∈ before, old.id ≠ row.id ∧
        (row.workflowJobID ≠ 0 → old.workflowJobID ≠ row.workflowJobID))
      (decision : admitted row = (admissionDecision (server.repositoryAllowed repository) catalog
        job.labels).admits repository job) :
      AdmitsRow server catalogs task past before (before ++ [row])

/-- The move is not a call of a goroutine other than a delivery. -/
def DeliveryMove (world : RunnerWorld) (move : CatalogMove) : Prop :=
  ∀ tid choice thread, move = .run tid choice → world.threads[tid]? = some thread →
    thread.task.admits = true

theorem decided_by_catalog {past : List Answered} {repository : String} {labels : List String}
    {decision : AdmissionDecision} {catalog : Catalog}
    (decided : Decided server past repository labels decision) (current : catalogs catalog)
    (matched : ∀ call ∈ past, Matched catalogs call) :
    ∃ catalog, catalogs catalog ∧
      decision = admissionDecision (server.repositoryAllowed repository) catalog labels := by
  cases decided with
  | refused excluded => exact ⟨catalog, current, by simp [admissionDecision, excluded]⟩
  | matched allowed answered =>
      obtain ⟨catalog, met, found⟩ := matched _ answered
      exact ⟨catalog, met, by simp [admissionDecision, allowed, found]⟩

theorem founds_delivered {task : Task} {past : List Answered} {op : Op}
    (founds : Founds server past task op) (admits : task.admits = true) :
    ∃ repository installationID job links decision,
      Delivered past task repository installationID job ∧
      Decided server past repository job.labels decision ∧
      op = decision.creates repository installationID job links := by
  cases founds with
  | delivered about decided => exact ⟨_, _, _, _, _, about, decided, rfl⟩
  | manual id noJob => cases admits

theorem delivery_admits (sound : Sound server catalogs world) {tid : Nat} {choice : Choice × Catalog}
    {thread : RunnerThread} {op : Op} {resp : op.Resp} {rest : Action Unit} {state : ServerState}
    (current : catalogs choice.2)
    (acts : (catalogMachine server).Acts world tid choice thread op resp rest state)
    (admits : thread.task.admits = true) :
    AdmitsRow server catalogs thread.task thread.past world.state.table.rows state.table.rows := by
  cases alters : op.alters with
  | false =>
      rw [rows_kept acts.answer alters]
      exact .unchanged
  | true =>
      have founds := sound.obeys.permits acts (.inr ⟨admits, alters⟩)
      obtain ⟨repository, installationID, job, links, decision, about, decided, rfl⟩ :=
        founds_delivered founds admits
      have creates : (decision.creates repository installationID job links).founds = true := by
        cases decision <;> rfl
      rcases rows_founded acts.answer creates with same | ⟨row, added, rows⟩
      · rw [same]
        exact .unchanged
      · obtain ⟨catalog, met, same⟩ := decided_by_catalog decided current fun call member =>
          sound.matched _ (sound.obeys.recorded tid thread acts.live call member)
        rw [rows]
        exact .filed about met (appended_fresh rows) (same ▸ creates_admits added)

theorem admits_prefix {task : Task} {past : List Answered}
    {before later : List RunnerRequestRecord}
    (admits : AdmitsRow server catalogs task past before later) : before <+: later := by
  cases admits with
  | unchanged => exact List.prefix_rfl
  | filed about met fresh decision => exact List.prefix_append _ _

/-- Deliveries alone change no row that is there. -/
theorem deliveries_extend (sound : Sound server catalogs world)
    (reaches : (catalogMachine server).Reaches
      (fun world move => Admissible catalogs move ∧ DeliveryMove world move) world after) :
    Sound server catalogs after ∧ world.state.table.rows <+: after.state.table.rows := by
  induction reaches with
  | refl => exact ⟨sound, List.prefix_rfl⟩
  | step move _ meets stepped ih =>
      obtain ⟨sound, extends_⟩ := ih
      obtain ⟨admissible, delivery⟩ := meets
      refine ⟨sound_step sound admissible stepped, extends_.trans ?_⟩
      obtain ⟨tid, choice, thread, op, resp, rest, state, rfl, acts, rfl⟩ | ⟨task, rfl, _, rfl⟩ |
        ⟨rfl, rfl⟩ := (catalogMachine server).step_cases stepped
      · exact admits_prefix (delivery_admits sound (admissible.catalog tid choice rfl) acts
          (delivery tid choice thread rfl acts.live))
      · exact List.prefix_rfl
      · exact List.prefix_rfl

theorem about_unique {table : RequestTable} (filed : Filed table.rows) {n : Int} (named : n ≠ 0)
    {first second : RunnerRequestRecord} (here : first ∈ table.rows) (there : second ∈ table.rows)
    (left : AboutJob n first) (right : AboutJob n second) : first = second := by
  have id (row : RunnerRequestRecord) (member : row ∈ table.rows) (about : AboutJob n row) :
      row.id = toString n := by
    rcases about with same | job
    · exact same
    · exact (filed row member n named).mpr job
  exact table.same_row here there ((id first here left).trans (id second there right).symm)

/-- A request that was stored, or found stored, is in the table. -/
theorem createRequest_stored {now : Time} {table next : RequestTable} {req : RunnerRequest}
    {links : GitHubContext} {status : Status} {stage reason message : String} {created : Bool}
    {st : RunnerState}
    (ran : createRequest now table req links status stage reason message =
      (.ok (created, st), next)) :
    ∃ row ∈ next.rows, row.id = sanitizeID req.id ∧ row.toRunnerState = st := by
  unfold createRequest at ran
  split at ran
  · cases ran
  · dsimp only at ran
    split at ran
    · rename_i inserted
      simp only [Prod.mk.injEq, Except.ok.injEq] at ran
      obtain ⟨⟨_, rfl⟩, rfl⟩ := ran
      refine ⟨admittedRecord now req links status stage reason message, ?_, rfl, rfl⟩
      rw [RequestTable.insert_rows inserted]
      exact List.mem_append_right _ (List.mem_singleton_self _)
    · split at ran
      · rename_i found
        cases ran
        obtain ⟨member, same⟩ := RequestTable.find_some found
        exact ⟨_, member, same, rfl⟩
      · cases ran

theorem answered_stored {server : Server} {tid : Nat} {choice : Choice}
    {state after : ServerState} {req : RunnerRequest} {links : GitHubContext} {status : Status}
    {stage reason message : String} {created : Bool} {st : RunnerState}
    (answered : respond server tid choice state
      (.createRequest req links status stage reason message) = some (.ok (created, st), after)) :
    ∃ row ∈ after.table.rows, row.id = sanitizeID req.id ∧ row.toRunnerState = st := by
  simp only [respond] at answered
  rcases stored_cases answered with ⟨err, failed, _⟩ | ⟨table, ran, rfl⟩
  · cases failed
  · exact createRequest_stored ran

/-- Admission is idempotent, and its two copies agree: each delivery is made of calls
of `enqueueWorkflowJob`, one for each of its jobs, which all come to an end there. -/
structure Idempotent (server : Server) (catalogs : Catalog → Prop) (world : RunnerWorld) :
    Prop where
  one : ∀ n : Int, n ≠ 0 → ∀ first ∈ world.state.table.rows, ∀ second ∈ world.state.table.rows,
    AboutJob n first → AboutJob n second → first = second
  step : ∀ tid choice thread after, catalogs choice.2 → world.threads[tid]? = some thread →
    thread.task.admits = true → (catalogMachine server).step world (.run tid choice) = some after →
    AdmitsRow server catalogs thread.task thread.past world.state.table.rows after.state.table.rows
  stored : ∀ tid choice after req links status stage reason message created st,
    (catalogMachine server).step world (.run tid choice) = some after →
    (catalogMachine server).answered world (.run tid choice) =
      some ⟨.createRequest req links status stage reason message, .ok (created, st)⟩ →
    ∃ row ∈ after.state.table.rows, row.id = sanitizeID req.id ∧ row.toRunnerState = st
  redelivered : ∀ later, (catalogMachine server).Reaches
      (fun world move => Admissible catalogs move ∧ DeliveryMove world move) world later →
    world.state.table.rows <+: later.state.table.rows ∧
      ∀ n : Int, n ≠ 0 → (∃ row ∈ world.state.table.rows, AboutJob n row) →
        ∀ row ∈ later.state.table.rows, AboutJob n row → row ∈ world.state.table.rows
  copies : ∀ event : WorkflowJobEvent, event.action = .queued →
    deliveryBody server (.workflowJob event) = (do
      let _ ← enqueueWorkflowJob server event.repository event.installationID event.workflowJob
        event.links)
  runCopies : ∀ event : WorkflowRunEvent, event.reconciles = true →
    deliveryBody server (.workflowRun event) = (do
      enqueueWaiting server event (← ask (.listWorkflowRunJobs event.repository event.runID)))
  settles : ∀ event : WorkflowJobEvent, event.action = .queued →
    Keeps (fun _ _ => True) (deliveryBody server (.workflowJob event))
      (fun _ later =>
        SettledJob server event.repository event.installationID event.workflowJob later) []
  runSettles : ∀ (event : WorkflowRunEvent) (jobs : List WorkflowJob),
    Keeps (fun _ _ => True) (enqueueWaiting server event (.ok jobs))
      (fun _ later => ∀ job ∈ jobs, job.waits = true →
        SettledJob server event.repository event.installationID job later) []

theorem admission_idempotent (server : Server) (catalogs : Catalog → Prop) {table : RequestTable}
    (filed : Filed table.rows) {world : RunnerWorld}
    (reaches : (catalogMachine server).Reaches (fun _ move => Admissible catalogs move)
      (opened table) world) : Idempotent server catalogs world := by
  have sound := sound_reachable filed reaches
  constructor
  · intro n named first here second there left right
    exact about_unique sound.filed named here there left right
  · intro tid choice thread after current live admits stepped
    obtain ⟨actor, chosen, found, op, resp, rest, state, moved, acts, rfl⟩ | ⟨_, moved, _⟩ |
      ⟨moved, _⟩ := (catalogMachine server).step_cases stepped
    · cases moved
      cases live.symm.trans acts.live
      exact delivery_admits sound current acts admits
    · cases moved
    · cases moved
  · intro tid choice after req links status stage reason message created st stepped answered
    obtain ⟨actor, chosen, thread, op, resp, rest, state, moved, acts, rfl⟩ | ⟨_, moved, _⟩ |
      ⟨moved, _⟩ := (catalogMachine server).step_cases stepped
    · cases moved
      have same := acts.answered_eq.symm.trans answered
      cases same
      have answer : respond { server with catalog := choice.2 } tid choice.1 world.state
          (.createRequest req links status stage reason message) =
          some (.ok (created, st), state) := acts.answer
      exact answered_stored answer
    · cases moved
    · cases moved
  · intro later continues
    obtain ⟨soundLater, extends_⟩ := deliveries_extend sound continues
    refine ⟨extends_, ?_⟩
    rintro n named ⟨old, present, stands⟩ row member about
    have kept := extends_.subset present
    rw [about_unique soundLater.filed named member kept about stands]
    exact present
  · intro event queued
    simp only [deliveryBody, queued]
    exact workflowJobQueued_enqueues server event
  · exact workflowRun_enqueues server
  · exact workflowJob_settles
  · exact enqueueWaiting_settles

end Idempotence

section Samples

def catalogTurns (tid count : Nat) : List CatalogMove :=
  List.replicate count (.run tid ({}, sampleServer.catalog))

def sampleQueuedEvent : WorkflowJobEvent where
  action := .queued
  workflowJob := sampleJob 1
  repository := "owner/repo"

def sampleRunEvent : WorkflowRunEvent where
  reconciles := true
  runID := 9
  repository := "owner/repo"

/-- Both webhooks of job 1 arrive, and the run's delivery is twice as fast at
the start. -/
def racingDeliveries : List CatalogMove :=
  [.start (.workflowJob sampleQueuedEvent), .start (.workflowRun sampleRunEvent),
    .run 1 ({ jobs := .ok [sampleJob 1] }, sampleServer.catalog)] ++
    catalogTurns 1 2 ++ catalogTurns 0 1 ++ catalogTurns 1 3 ++ catalogTurns 0 3

def startsDelivery : CatalogMove → Bool
  | .start (.createRunner _ _) => false
  | _ => true

/-- Both deliveries have ended and left one row. -/
theorem admission_idempotent_racing :
    ∃ world, (catalogMachine sampleServer).Reaches
        (fun _ move => Admissible (fun _ => True) move) (opened .empty) world ∧
      (world.state.table.rows.map fun row => (row.id, row.workflowJobID)) = [("1", 1)] ∧
      (world.threads.map fun thread => thread.rest.ended) = [true, true] ∧
      Idempotent sampleServer (fun _ => True) world := by
  have ran : ((catalogMachine sampleServer).runChecked (fun _ move => startsDelivery move)
      racingDeliveries (opened .empty)).any (fun world =>
        decide ((world.state.table.rows.map fun row => (row.id, row.workflowJobID)) = [("1", 1)] ∧
          (world.threads.map fun thread => thread.rest.ended) = [true, true])) = true := by
    decide +kernel
  obtain ⟨world, reaches, found⟩ := Machine.reaches_any ran
  have admissible : (catalogMachine sampleServer).Reaches
      (fun _ move => Admissible (fun _ => True) move) (opened .empty) world := by
    refine reaches.weaken fun _ move passed => ⟨fun _ _ _ => True.intro, ?_⟩
    intro input newID manual
    rw [manual] at passed
    exact absurd passed Bool.false_ne_true
  simp only [decide_eq_true_eq] at found
  obtain ⟨rows, ended⟩ := found
  exact ⟨world, admissible, rows, ended,
    admission_idempotent sampleServer (fun _ => True) (fun _ member => absurd member List.not_mem_nil)
      admissible⟩

end Samples

end Runnerd
