import Mathlib.Data.List.Sort
import Runnerd.RunnerState
import Runnerd.Versioned

/-!
The `runner_requests` table of `internal/state/runner_requests.go`, one
transaction at a time. Each operation takes the instant its `time.Now()` reads
and returns what its caller sees and the table it leaves.
-/

namespace Runnerd

open GoText

/-- The unique index on `workflow_job_id`, which is NULL for a manual request. -/
def jobKey (record : RunnerRequestRecord) : Option Int :=
  if record.workflowJobID = 0 then none else some record.workflowJobID

/-- The rows together with what the primary key and the unique index enforce,
and with the ids in the form `createRequest` gives them. -/
structure RequestTable where
  rows : List RunnerRequestRecord
  primaryKey : (rows.map fun record => record.id).Nodup
  jobIndex : (rows.filterMap jobKey).Nodup
  sanitized : ∀ record ∈ rows, sanitizeID record.id = record.id

namespace RequestTable

def empty : RequestTable := ⟨[], List.nodup_nil, List.nodup_nil, by simp⟩

def find (table : RequestTable) (id : String) : Option RunnerRequestRecord :=
  table.rows.find? fun record => record.id == id

/-- An edit that leaves the key columns alone. -/
structure Edit where
  apply : RunnerRequestRecord → RunnerRequestRecord
  keepsID : ∀ record, (apply record).id = record.id
  keepsJob : ∀ record, (apply record).workflowJobID = record.workflowJobID

/-- `UPDATE runner_requests SET ... WHERE matching`. -/
def update (table : RequestTable) (matching : RunnerRequestRecord → Bool) (edit : Edit) :
    RequestTable where
  rows := table.rows.map fun record => if matching record then edit.apply record else record
  primaryKey := by
    have same : (fun record : RunnerRequestRecord => record.id) ∘
        (fun record => if matching record then edit.apply record else record) =
        fun record => record.id := by
      funext record
      simp only [Function.comp_apply]
      split
      · exact edit.keepsID record
      · rfl
    rw [List.map_map, same]
    exact table.primaryKey
  jobIndex := by
    have same : jobKey ∘ (fun record => if matching record then edit.apply record else record) =
        jobKey := by
      funext record
      simp only [Function.comp_apply]
      split
      · simp [jobKey, edit.keepsJob record]
      · rfl
    rw [List.filterMap_map, same]
    exact table.jobIndex
  sanitized := by
    intro record member
    obtain ⟨before, present, rfl⟩ := List.mem_map.mp member
    split
    · rw [edit.keepsID]; exact table.sanitized before present
    · exact table.sanitized before present

def conflicts (table : RequestTable) (record : RunnerRequestRecord) : Bool :=
  table.rows.any fun other =>
    other.id == record.id || ((jobKey record).isSome && jobKey other == jobKey record)

/-- `INSERT ... ON CONFLICT DO NOTHING` of a row with a sanitised id. -/
def insert (table : RequestTable) (record : RunnerRequestRecord)
    (clean : sanitizeID record.id = record.id) : Option RequestTable :=
  if free : table.conflicts record = false then
    some
      { rows := table.rows ++ [record]
        primaryKey := by
          simp only [conflicts, List.any_eq_false, Bool.or_eq_true, beq_iff_eq, not_or] at free
          rw [List.map_append, List.nodup_append]
          refine ⟨table.primaryKey, by simp, ?_⟩
          rintro id member other only rfl
          obtain ⟨row, present, same⟩ := List.mem_map.mp member
          exact (free row present).1 (same.trans (by simpa using only))
        jobIndex := by
          simp only [conflicts, List.any_eq_false, Bool.or_eq_true, beq_iff_eq, not_or,
            Bool.and_eq_true, not_and] at free
          rw [List.filterMap_append, List.nodup_append]
          refine ⟨table.jobIndex, by cases own : jobKey record <;> simp [own], ?_⟩
          rintro job member other only rfl
          obtain ⟨row, present, key⟩ := List.mem_filterMap.mp member
          have own : jobKey record = some job := by
            cases own : jobKey record <;> simp_all
          exact (free row present).2 (by simp [own]) (key.trans own.symm)
        sanitized := by
          intro row member
          rcases List.mem_append.mp member with old | new
          · exact table.sanitized row old
          · obtain rfl := List.mem_singleton.mp new
            exact clean }
  else none

end RequestTable

section Writes

def applyStateTimestamps (st : RunnerState) (now : Time) : RunnerState :=
  match st.status with
  | .creating => { st with creatingAt := st.creatingAt.or (some now) }
  | .running =>
      { st with
        creatingAt := st.creatingAt.or (some now)
        runningAt := st.runningAt.or (some now) }
  | .stopping => { st with stoppingAt := st.stoppingAt.or (some now) }
  | .completed =>
      { st with
        stoppingAt := st.stoppingAt.or (some now)
        completedAt := st.completedAt.or (some now) }
  | .failed => { st with failedAt := st.failedAt.or (some now) }
  | .queued => st

/-- The `updates` map of `WriteState`, applied to the row it matches. -/
def stateUpdates (st : RunnerState) (now : Time) (record : RunnerRequestRecord) :
    RunnerRequestRecord :=
  let timed := applyStateTimestamps st now
  { record with
    status := st.status
    repositoryFullName := st.repositoryFullName
    profileName := st.profileName
    runnerGroup := st.runnerGroup
    runnerName := sanitizeRunnerName st.runnerName
    sandboxID := st.sandboxID
    sandboxAPIURL := trimSpace st.sandboxAPIURL
    sandboxAPIKeyEncrypted := trimSpace st.sandboxAPIKeyEncrypted
    sandboxConfigSource := trimSpace st.sandboxConfigSource
    processPID := st.processPID
    assignedJobID := st.assignedJobID
    assignedJobName := st.assignedJobName
    error := st.error
    failureStage := st.failureStage
    failureReason := st.failureReason
    lastErrorCode := st.lastErrorCode
    lastErrorMessage := st.lastErrorMessage
    lastErrorRetryable := st.lastErrorRetryable
    retryCount := st.retryCount
    updatedAt := now
    version := st.version + 1
    lastAttemptAt := st.lastAttemptAt
    nextRetryAt := st.nextRetryAt
    creatingAt := timed.creatingAt
    runningAt := timed.runningAt
    stoppingAt := timed.stoppingAt
    completedAt := timed.completedAt
    failedAt := timed.failedAt
    leaseOwner := st.leaseOwner
    leaseExpiresAt := st.leaseExpiresAt }

def versionMatches (st : RunnerState) (record : RunnerRequestRecord) : Bool :=
  record.id == sanitizeID st.id && record.version == st.version

def writeState (now : Time) (table : RequestTable) (st : RunnerState) :
    Except GoError Unit × RequestTable :=
  if sanitizeID st.id = "" then (.error { message := "request id is empty" }, table)
  else if table.rows.any (versionMatches st) then
    (.ok (), table.update (versionMatches st) ⟨stateUpdates st now, fun _ => rfl, fun _ => rfl⟩)
  else (.error errConflict, table)

def leaseMatches (id workerID : String) (record : RunnerRequestRecord) : Bool :=
  record.id == sanitizeID id && record.leaseOwner == trimSpace workerID

-- The map names only the lease columns; GORM adds `updated_at` to every map
-- update of a model that has it.
def clearLease (now : Time) (record : RunnerRequestRecord) : RunnerRequestRecord :=
  { record with leaseOwner := "", leaseExpiresAt := none, updatedAt := now }

def releaseLease (now : Time) (table : RequestTable) (id workerID : String) :
    Except GoError Unit × RequestTable :=
  (.ok (), table.update (leaseMatches id workerID) ⟨clearLease now, fun _ => rfl, fun _ => rfl⟩)

/-- The columns `RetryRequest` writes over a row it accepts. -/
def retryUpdates (now : Time) (record : RunnerRequestRecord) : RunnerRequestRecord :=
  { record with
    status := .queued
    error := ""
    failureStage := ""
    failureReason := ""
    lastErrorCode := ""
    lastErrorMessage := ""
    lastErrorRetryable := false
    sandboxID := ""
    processPID := 0
    assignedJobID := 0
    assignedJobName := ""
    nextRetryAt := none
    leaseOwner := ""
    leaseExpiresAt := none
    creatingAt := none
    runningAt := none
    stoppingAt := none
    completedAt := none
    failedAt := none
    sandboxAPIURL := ""
    sandboxAPIKeyEncrypted := ""
    sandboxConfigSource := ""
    updatedAt := now
    version := record.version + 1 }

def retryAllowed (record : RunnerRequestRecord) : Bool :=
  match record.status with
  | .failed => true
  | .queued => record.nextRetryAt.isSome && record.lastErrorRetryable
  | _ => false

def retryRequest (now : Time) (table : RequestTable) (id : String) :
    Except GoError RunnerState × RequestTable :=
  match table.find (sanitizeID id) with
  | none => (.error errRecordNotFound, table)
  | some record =>
      if retryAllowed record then
        (.ok (recordToState (retryUpdates now record)),
          table.update (fun row => row.id == record.id && row.version == record.version)
            ⟨retryUpdates now, fun _ => rfl, fun _ => rfl⟩)
      else (.error errRetryNotAllowed, table)

end Writes

section Claims

def claimable (now : Time) (record : RunnerRequestRecord) : Bool :=
  record.status == .queued && record.nextRetryAt.all (· ≤ now) &&
    record.leaseExpiresAt.all (· ≤ now)

/-- `ORDER BY queued_at ASC`, then by the primary key that `First` adds. -/
def queuedBefore (left right : RunnerRequestRecord) : Bool :=
  left.createdAt < right.createdAt || (left.createdAt == right.createdAt && left.id < right.id)

def firstQueued : List RunnerRequestRecord → Option RunnerRequestRecord
  | [] => none
  | record :: rest =>
      match firstQueued rest with
      | none => some record
      | some best => if queuedBefore best record then some best else some record

def claimUpdates (workerID : String) (now : Time) (leaseTTL : Duration)
    (record : RunnerRequestRecord) : RunnerRequestRecord :=
  { record with
    leaseOwner := workerID
    leaseExpiresAt := some (now + leaseTTL)
    lastAttemptAt := some now
    updatedAt := now
    version := record.version + 1 }

-- The candidate's own predicates hold again at the UPDATE: both statements are
-- one transaction here.
def claimNextRunnable (table : RequestTable) (workerID : String) (now : Time)
    (leaseTTL : Duration) :
    Except GoError (Option (RunnerRequest × RunnerState)) × RequestTable :=
  let workerID := trimSpace workerID
  if workerID = "" then (.error { message := "worker id is required" }, table)
  else
    match firstQueued (table.rows.filter (claimable now)) with
    | none => (.ok none, table)
    | some candidate =>
        let claimed := claimUpdates workerID now leaseTTL candidate
        (.ok (some (recordToRequest claimed, recordToState claimed)),
          table.update (fun row => row.id == candidate.id)
            ⟨claimUpdates workerID now leaseTTL, fun _ => rfl, fun _ => rfl⟩)

end Claims

section Admission

/-- What `createRequest` stores. `links` is the context taken from the webhook
payload. -/
def admittedRecord (now : Time) (req : RunnerRequest) (links : GitHubContext) (status : Status)
    (failureStage failureReason errorMessage : String) : RunnerRequestRecord where
  id := sanitizeID req.id
  source := req.source
  githubInstallationID := req.githubInstallationID
  workflowJobID := req.jobID
  workflowRunID := links.workflowRunID
  workflowName := links.workflowName
  workflowRunAttempt := links.workflowRunAttempt
  headBranch := links.headBranch
  headSHA := links.headSHA
  githubJobURL := links.githubJobURL
  pullRequestNumber :=
    if 0 < req.pullRequestNumber ∧ links.pullRequestNumber = 0 then req.pullRequestNumber
    else links.pullRequestNumber
  repositoryFullName := req.repositoryFullName
  requestedLabels := if req.requestedLabels.isEmpty then req.labels else req.requestedLabels
  labels := req.labels
  profileName := req.profileName
  runnerGroup := req.runnerGroup
  runnerName :=
    let name := sanitizeRunnerName req.runnerName
    if name = "" then "e2b-" ++ sanitizeID req.id else name
  sandboxAPIURL := trimSpace req.sandboxAPIURL
  sandboxAPIKeyEncrypted := trimSpace req.sandboxAPIKeyEncrypted
  sandboxConfigSource := trimSpace req.sandboxConfigSource
  status := status
  failureStage := failureStage
  failureReason := failureReason
  error := errorMessage
  createdAt := req.createdAt.getD now
  failedAt := if status = .failed then some now else none
  updatedAt := now
  version := 0

def createRequest (now : Time) (table : RequestTable) (req : RunnerRequest)
    (links : GitHubContext) (status : Status)
    (failureStage failureReason errorMessage : String) :
    Except GoError (Bool × RunnerState) × RequestTable :=
  if sanitizeID req.id = "" then (.error { message := "request id is empty" }, table)
  else
    let record := admittedRecord now req links status failureStage failureReason errorMessage
    match table.insert record (sanitizeID_idem req.id) with
    | some next => (.ok (true, recordToState record), next)
    | none =>
        match table.find (sanitizeID req.id) with
        | some existing => (.ok (false, recordToState existing), table)
        | none => (.error errConflict, table)

end Admission

section Reads

def readRecord (table : RequestTable) (id : String) : Except GoError RunnerRequestRecord :=
  match table.find (sanitizeID id) with
  | some record => .ok record
  | none => .error errRecordNotFound

def readState (table : RequestTable) (id : String) : Except GoError RunnerState :=
  (readRecord table id).map recordToState

def readRequest (table : RequestTable) (id : String) : Except GoError RunnerRequest :=
  (readRecord table id).map recordToRequest

/-- The statuses `InFlightCount` counts. -/
def inFlight (record : RunnerRequestRecord) : Bool :=
  record.status == .creating || record.status == .running || record.status == .stopping

def inFlightCount (table : RequestTable) : Nat := table.rows.countP inFlight

def inFlightCountForProfile (table : RequestTable) (name : String) : Nat :=
  table.rows.countP fun record => record.profileName == trimSpace name && inFlight record

-- List reads leave the credential columns out.
def listed (record : RunnerRequestRecord) : RunnerState :=
  { recordToState record with sandboxAPIURL := "", sandboxAPIKeyEncrypted := "" }

def isActiveStatus : Status → Bool
  | .queued | .creating | .running | .stopping => true
  | .completed | .failed => false

def listActiveStates (table : RequestTable) : List RunnerState :=
  (table.rows.filter fun record => isActiveStatus record.status).insertionSort
    (fun left right => right.createdAt ≤ left.createdAt) |>.map listed

def recentlyUpdated (limit : Nat) (records : List RunnerRequestRecord) : List RunnerState :=
  ((records.insertionSort fun left right => right.updatedAt ≤ left.updatedAt).take limit).map listed

def listMismatchedCompletedStates (table : RequestTable) (limit : Nat) : List RunnerState :=
  recentlyUpdated limit (table.rows.filter fun record =>
    record.status == .completed && record.workflowJobID != 0 && record.assignedJobID != 0 &&
      record.assignedJobID != record.workflowJobID)

def listFailedWorkflowJobStates (table : RequestTable) (limit : Nat) : List RunnerState :=
  recentlyUpdated limit (table.rows.filter fun record =>
    record.status == .failed && record.workflowJobID != 0 &&
      (record.failureStage == "recovery" || record.failureStage == "cleanup"))

def getProfile (catalog : Catalog) (name : String) : Except GoError RunnerProfile :=
  match catalog.profiles.find? fun profile => profile.name == trimSpace name with
  | some profile => .ok profile
  | none => .error errNotFound

end Reads

section Matching

/-- `labelutil.Match`: every job label is among the available ones. -/
def labelsMatch (jobLabels available : List String) : Bool :=
  jobLabels.all fun label =>
    (available.map fun other => toLower (trimSpace other)).contains (toLower (trimSpace label))

def profilePreferred (left right : RunnerProfile) : Bool :=
  if left.priority ≠ right.priority then right.priority < left.priority
  else if left.labels.length ≠ right.labels.length then right.labels.length < left.labels.length
  else left.name ≤ right.name

def selectMatchingProfile (profiles : List RunnerProfile) (labels : List String) :
    Option RunnerProfile :=
  ((profiles.filter fun profile =>
    profile.enabled && labelsMatch profile.requiredLabels labels &&
      labelsMatch labels profile.labels).insertionSort
        fun left right => profilePreferred left right).head?

def validateRequestedProfile (profile : RunnerProfile) (requestedLabels : List String) :
    Option GoError :=
  if profile.enabled = false then
    some { message := "profile " ++ profile.name.quote ++ " is disabled" }
  else if requestedLabels ≠ [] ∧ labelsMatch requestedLabels profile.labels = false then
    some { message := "requested labels do not satisfy profile " ++ profile.name.quote }
  else none

end Matching

end Runnerd
