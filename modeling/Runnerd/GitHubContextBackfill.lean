import Runnerd.RunnerState

/-!
Rows from before the GitHub columns. A row keeps its webhook payload, and a column
it lacks is read out of the payload, until the schema backfill writes the columns
once and for all. The decoders of the payload are parameters.
-/

namespace Runnerd.Backfill

open GoText

section Payload

/-- The `workflow_job` of a payload. -/
structure PayloadJob where
  runID : Int := 0
  workflowName : String := ""
  runAttempt : Int := 0
  headBranch : String := ""
  headSHA : String := ""
  htmlURL : String := ""
  pullRequests : List Int := []
  workflowRunID : Int := 0
  deriving DecidableEq, Repr

/-- The `workflow_run` of a payload. -/
structure PayloadRun where
  id : Int := 0
  name : String := ""
  runAttempt : Int := 0
  headBranch : String := ""
  headSHA : String := ""
  pullRequests : List Int := []
  deriving DecidableEq, Repr

structure Payload where
  workflowJob : PayloadJob := {}
  workflowRun : PayloadRun := {}
  pullRequestNumber : Int := 0
  deriving DecidableEq, Repr

structure GitHubPayloadLinks where
  workflowRunID : Int := 0
  workflowName : String := ""
  workflowRunAttempt : Int := 0
  headBranch : String := ""
  headSHA : String := ""
  jobURL : String := ""
  pullRequestNumber : Int := 0
  deriving DecidableEq, Repr

def githubJobURL (repositoryFullName : String) (runID jobID : Int) : String :=
  if repositoryFullName = "" ∨ runID ≤ 0 ∨ jobID ≤ 0 then ""
  else
    "https://github.com/" ++ repositoryFullName ++ "/actions/runs/" ++ toString runID ++ "/job/" ++
      toString jobID

/-- The first value with more than blanks in it, trimmed. -/
def firstNonEmpty (values : List String) : String :=
  ((values.map trimSpace).find? fun value => value != "").getD ""

def firstPullRequestNumber (pulls : List Int) : Int := pulls.headD 0

/-- The fields that the loop over a query looks at: it stops at an empty rest. -/
def queryFields (rawQuery : List Char) : List (List Char) :=
  let fields := rawQuery.splitOn '&'
  if fields.getLast? = some [] then fields.dropLast else fields

def hasRawQueryParameter (rawURL name : String) : Bool :=
  -- a question mark behind the fragment's sign starts no query
  let unfragmented := rawURL.toList.takeWhile fun rune => !isRune '#' rune
  if '?' ∉ unfragmented then false
  else
    let rawQuery := (unfragmented.dropWhile fun rune => !isRune '?' rune).tail
    (queryFields rawQuery).any fun field =>
      (field.takeWhile fun rune => !isRune '=' rune) == name.toList

def appendPullRequestQuery (rawURL : String) (prNumber : Int) : String :=
  if rawURL = "" ∨ prNumber ≤ 0 then rawURL
  else if hasRawQueryParameter rawURL "pr" then rawURL
  else rawURL ++ (if contains rawURL "?" then "&" else "?") ++ "pr=" ++ toString prNumber

/-- The first of the values that is not zero. -/
def orElse {Value : Type} [DecidableEq Value] (zero : Value) (value fallback : Value) : Value :=
  if value = zero then fallback else value

/-- `githubLinksFromPayloadBytes` of a decoded payload. -/
def linksOfPayload (payload : Payload) (repositoryFullName : String) (jobID : Int) :
    GitHubPayloadLinks :=
  let job := payload.workflowJob
  let run := payload.workflowRun
  let runID := orElse 0 (orElse 0 job.runID job.workflowRunID) run.id
  let prNumber := orElse 0 (orElse 0 (firstPullRequestNumber job.pullRequests)
    (firstPullRequestNumber run.pullRequests)) payload.pullRequestNumber
  let jobURL := orElse "" job.htmlURL (githubJobURL repositoryFullName runID jobID)
  { workflowRunID := runID
    workflowName := firstNonEmpty [job.workflowName, run.name]
    workflowRunAttempt := orElse 0 job.runAttempt run.runAttempt
    headBranch := firstNonEmpty [job.headBranch, run.headBranch]
    headSHA := firstNonEmpty [job.headSHA, run.headSHA]
    jobURL := appendPullRequestQuery jobURL prNumber
    pullRequestNumber := prNumber }

end Payload

section Rows
variable (unmarshal : String → Payload)

/-- The decoder's error is dropped, and what it has decoded by then is used. -/
def githubLinksFromPayloadBytes (payloadJSON repositoryFullName : String) (jobID : Int) :
    GitHubPayloadLinks :=
  linksOfPayload (if payloadJSON = "" then {} else unmarshal payloadJSON) repositoryFullName jobID

/-- A row of `runner_requests` with the columns that only the backfill uses. -/
structure StoredRequest extends RunnerRequestRecord where
  githubPayloadJSON : String := ""
  githubContextBackfilled : Bool := false
  deriving DecidableEq, Repr

def effectiveRunnerRequestJobID (record : StoredRequest) : Int :=
  orElse 0 record.assignedJobID record.workflowJobID

def githubLinksFromPayload (record : StoredRequest) : GitHubPayloadLinks :=
  githubLinksFromPayloadBytes unmarshal record.githubPayloadJSON record.repositoryFullName
    (effectiveRunnerRequestJobID record)

def mergeGitHubPayloadLinks (links fallback : GitHubPayloadLinks) : GitHubPayloadLinks where
  workflowRunID := orElse 0 links.workflowRunID fallback.workflowRunID
  workflowName := orElse "" links.workflowName fallback.workflowName
  workflowRunAttempt := orElse 0 links.workflowRunAttempt fallback.workflowRunAttempt
  headBranch := orElse "" links.headBranch fallback.headBranch
  headSHA := orElse "" links.headSHA fallback.headSHA
  jobURL := orElse "" links.jobURL fallback.jobURL
  pullRequestNumber := orElse 0 links.pullRequestNumber fallback.pullRequestNumber

/-- The columns of a row. -/
def columns (record : StoredRequest) : GitHubPayloadLinks where
  workflowRunID := record.workflowRunID
  workflowName := record.workflowName
  workflowRunAttempt := record.workflowRunAttempt
  headBranch := record.headBranch
  headSHA := record.headSHA
  jobURL := record.githubJobURL
  pullRequestNumber := record.pullRequestNumber

def githubLinksFromRecord (record : StoredRequest) : GitHubPayloadLinks :=
  let links :=
    if record.githubContextBackfilled = false then
      mergeGitHubPayloadLinks (columns record) (githubLinksFromPayload unmarshal record)
    else columns record
  let jobURL := orElse "" links.jobURL
    (githubJobURL record.repositoryFullName links.workflowRunID (effectiveRunnerRequestJobID record))
  { links with jobURL := appendPullRequestQuery jobURL links.pullRequestNumber }

/-- What is shown of a row. -/
def recordToState (record : StoredRequest) : RunnerState :=
  let links := githubLinksFromRecord unmarshal record
  { record.toRunnerState with
    workflowRunID := links.workflowRunID
    workflowName := links.workflowName
    workflowRunAttempt := links.workflowRunAttempt
    headBranch := links.headBranch
    headSHA := links.headSHA
    githubJobURL := links.jobURL
    pullRequestNumber := links.pullRequestNumber }

end Rows

section Updates
variable (unmarshal : String → Payload) (unmarshalInstallation : String → Option Int)

/-- The `updates` map of a backfill: the columns it names. -/
structure ContextUpdates where
  githubContextBackfilled : Option Bool := none
  githubInstallationID : Option Int := none
  workflowRunID : Option Int := none
  workflowName : Option String := none
  workflowRunAttempt : Option Int := none
  headBranch : Option String := none
  headSHA : Option String := none
  githubJobURL : Option String := none
  pullRequestNumber : Option Int := none
  deriving DecidableEq, Repr

/-- `UpdateColumns`, which leaves `updated_at` alone. -/
def ContextUpdates.apply (updates : ContextUpdates) (record : StoredRequest) : StoredRequest :=
  { record with
    githubContextBackfilled :=
      updates.githubContextBackfilled.getD record.githubContextBackfilled
    githubInstallationID := updates.githubInstallationID.getD record.githubInstallationID
    workflowRunID := updates.workflowRunID.getD record.workflowRunID
    workflowName := updates.workflowName.getD record.workflowName
    workflowRunAttempt := updates.workflowRunAttempt.getD record.workflowRunAttempt
    headBranch := updates.headBranch.getD record.headBranch
    headSHA := updates.headSHA.getD record.headSHA
    githubJobURL := updates.githubJobURL.getD record.githubJobURL
    pullRequestNumber := updates.pullRequestNumber.getD record.pullRequestNumber }

/-- A malformed payload decodes to none here, since the error is looked at. -/
def githubInstallationIDFromPayload (payloadJSON : String) : Int :=
  if payloadJSON = "" then 0 else (unmarshalInstallation payloadJSON).getD 0

/-- The update of a column that is zero, if the payload has more. -/
def fill {Value : Type} [DecidableEq Value] (zero column fallback : Value) : Option Value :=
  if column = zero ∧ fallback ≠ zero then some fallback else none

def runnerRequestGitHubContextBackfill (record : StoredRequest) : ContextUpdates :=
  let links := githubLinksFromPayload unmarshal record
  let installationID :=
    githubInstallationIDFromPayload unmarshalInstallation record.githubPayloadJSON
  { githubContextBackfilled := if record.githubContextBackfilled = false then some true else none
    githubInstallationID :=
      if record.githubInstallationID = 0 ∧ 0 < installationID then some installationID else none
    workflowRunID := fill 0 record.workflowRunID links.workflowRunID
    workflowName := fill "" record.workflowName links.workflowName
    workflowRunAttempt := fill 0 record.workflowRunAttempt links.workflowRunAttempt
    headBranch := fill "" record.headBranch links.headBranch
    headSHA := fill "" record.headSHA links.headSHA
    githubJobURL := fill "" record.githubJobURL links.jobURL
    pullRequestNumber := fill 0 record.pullRequestNumber links.pullRequestNumber }

/-- A row after its backfill. -/
def backfilled (record : StoredRequest) : StoredRequest :=
  (runnerRequestGitHubContextBackfill unmarshal unmarshalInstallation record).apply record

/-- The rows that `backfillRunnerRequestGitHubContext` reads. -/
def selected (record : StoredRequest) : Bool :=
  record.githubPayloadJSON != "" &&
    (!record.githubContextBackfilled ||
      (record.githubInstallationID == 0 &&
        contains record.githubPayloadJSON "\"installation\""))

def backfillRunnerRequestGitHubContext (rows : List StoredRequest) : List StoredRequest :=
  rows.map fun record =>
    if selected record then backfilled unmarshal unmarshalInstallation record else record

end Updates

section Columns
variable {Value : Type} [DecidableEq Value]

/-- The column that a backfill writes is the value that reading merges. -/
theorem fill_merges (zero column fallback : Value) :
    (fill zero column fallback).getD column = orElse zero column fallback := by
  unfold fill orElse
  by_cases empty : column = zero
  · by_cases none : fallback = zero
    · simp [empty, none]
    · simp [empty, none]
  · simp [empty]

/-- A filled column is not filled again. -/
theorem fill_again (zero column fallback : Value) :
    fill zero (orElse zero column fallback) fallback = none := by
  unfold fill orElse
  by_cases empty : column = zero
  · simp [empty]
  · simp [empty]

end Columns

section Preservation
variable {unmarshal : String → Payload} {unmarshalInstallation : String → Option Int}
  {record : StoredRequest}

/-- The payload of a row and the job it is about stay. -/
theorem backfilled_payload : githubLinksFromPayload unmarshal
    (backfilled unmarshal unmarshalInstallation record) = githubLinksFromPayload unmarshal record :=
  rfl

theorem backfilled_columns : columns (backfilled unmarshal unmarshalInstallation record) =
    mergeGitHubPayloadLinks (columns record) (githubLinksFromPayload unmarshal record) := by
  simp only [columns, backfilled, ContextUpdates.apply, runnerRequestGitHubContextBackfill,
    mergeGitHubPayloadLinks, fill_merges]

theorem backfilled_marked :
    (backfilled unmarshal unmarshalInstallation record).githubContextBackfilled = true := by
  simp only [backfilled, ContextUpdates.apply, runnerRequestGitHubContextBackfill]
  cases record.githubContextBackfilled <;> rfl

/-- The links are read as before, out of the columns alone. -/
theorem backfilled_links (fresh : record.githubContextBackfilled = false) :
    githubLinksFromRecord unmarshal (backfilled unmarshal unmarshalInstallation record) =
      githubLinksFromRecord unmarshal record := by
  unfold githubLinksFromRecord
  rw [if_neg (by rw [backfilled_marked]; decide), if_pos fresh, backfilled_columns]
  rfl

theorem backfilled_installation :
    (backfilled unmarshal unmarshalInstallation record).githubInstallationID =
      if record.githubInstallationID = 0 ∧ 0 < githubInstallationIDFromPayload
          unmarshalInstallation record.githubPayloadJSON then
        githubInstallationIDFromPayload unmarshalInstallation record.githubPayloadJSON
      else record.githubInstallationID := by
  simp only [backfilled, ContextUpdates.apply, runnerRequestGitHubContextBackfill]
  split <;> rfl

/-- A second backfill of a row has nothing to do. -/
theorem backfilled_again : runnerRequestGitHubContextBackfill unmarshal unmarshalInstallation
    (backfilled unmarshal unmarshalInstallation record) = {} := by
  have written : columns (backfilled unmarshal unmarshalInstallation record) =
      mergeGitHubPayloadLinks (columns record) (githubLinksFromPayload unmarshal record) :=
    backfilled_columns
  simp only [columns, mergeGitHubPayloadLinks, GitHubPayloadLinks.mk.injEq] at written
  obtain ⟨run, name, attempt, branch, sha, url, pull⟩ := written
  have payload : (backfilled unmarshal unmarshalInstallation record).githubPayloadJSON =
      record.githubPayloadJSON := rfl
  have installed : ¬ ((backfilled unmarshal unmarshalInstallation record).githubInstallationID = 0 ∧
      0 < githubInstallationIDFromPayload unmarshalInstallation record.githubPayloadJSON) := by
    rintro ⟨missing, known⟩
    rw [backfilled_installation] at missing
    by_cases empty : record.githubInstallationID = 0
    · rw [if_pos ⟨empty, known⟩] at missing
      omega
    · rw [if_neg fun both => empty both.1] at missing
      exact empty missing
  unfold runnerRequestGitHubContextBackfill
  dsimp only
  rw [backfilled_payload, payload, if_neg installed, backfilled_marked, run, name, attempt, branch,
    sha, url, pull]
  simp only [fill_again]
  rfl

/-- A row that is not backfilled yet is shown the same before and after its
backfill, but for an installation it did not have, and a second backfill changes
nothing. -/
theorem backfill_preserves (unmarshal : String → Payload)
    (unmarshalInstallation : String → Option Int) (record : StoredRequest)
    (fresh : record.githubContextBackfilled = false) :
    recordToState unmarshal (backfilled unmarshal unmarshalInstallation record) =
        { recordToState unmarshal record with
          githubInstallationID :=
            (backfilled unmarshal unmarshalInstallation record).githubInstallationID } ∧
      (record.githubInstallationID ≠ 0 →
        recordToState unmarshal (backfilled unmarshal unmarshalInstallation record) =
          recordToState unmarshal record) ∧
      runnerRequestGitHubContextBackfill unmarshal unmarshalInstallation
        (backfilled unmarshal unmarshalInstallation record) = {} := by
  have shown : recordToState unmarshal (backfilled unmarshal unmarshalInstallation record) =
      { recordToState unmarshal record with
        githubInstallationID :=
          (backfilled unmarshal unmarshalInstallation record).githubInstallationID } := by
    unfold recordToState
    rw [backfilled_links fresh]
    rfl
  refine ⟨shown, fun present => ?_, backfilled_again⟩
  rw [shown, backfilled_installation, if_neg fun both => present both.1]
  rfl

/-- A payload of a job on a pull request, as it is decoded. -/
def samplePayload : Payload where
  workflowJob := { runID := 7, workflowName := "ci", headBranch := "main", pullRequests := [3] }

def sampleStored : StoredRequest where
  id := "41"
  status := .completed
  workflowJobID := 41
  repositoryFullName := "owner/repo"
  headSHA := "abc"
  githubPayloadJSON := "\x7b\"workflow_job\":\x7b\"run_id\":7,\"workflow_name\":\"ci\"," ++
    "\"head_branch\":\"main\",\"pull_requests\":[\x7b\"number\":3\x7d]\x7d," ++
    "\"installation\":\x7b\"id\":9\x7d\x7d"

theorem backfill_preserves_sample :
    recordToState (fun _ => samplePayload) (backfilled (fun _ => samplePayload) (fun _ => some 9)
        sampleStored) =
      { recordToState (fun _ => samplePayload) sampleStored with githubInstallationID := 9 } ∧
      (recordToState (fun _ => samplePayload) sampleStored).githubJobURL =
        "https://github.com/owner/repo/actions/runs/7/job/41?pr=3" := by
  have shown := (backfill_preserves (fun _ => samplePayload) (fun _ => some 9) sampleStored rfl).1
  have installed : (backfilled (fun _ => samplePayload) (fun _ => some 9)
      sampleStored).githubInstallationID = 9 := by decide +kernel
  rw [installed] at shown
  exact ⟨shown, by decide +kernel⟩

end Preservation

section Migration
variable {unmarshal : String → Payload} {unmarshalInstallation : String → Option Int}

/-- A row without updates is left as it is. -/
theorem apply_nothing (record : StoredRequest) : ({} : ContextUpdates).apply record = record := rfl

/-- Running the migration twice is running it once. -/
theorem migration_again (rows : List StoredRequest) :
    backfillRunnerRequestGitHubContext unmarshal unmarshalInstallation
        (backfillRunnerRequestGitHubContext unmarshal unmarshalInstallation rows) =
      backfillRunnerRequestGitHubContext unmarshal unmarshalInstallation rows := by
  unfold backfillRunnerRequestGitHubContext
  rw [List.map_map]
  refine List.map_congr_left fun record _ => ?_
  rw [Function.comp_apply]
  by_cases chosen : selected record = true
  · rw [if_pos chosen]
    split
    · rw [backfilled, backfilled_again, apply_nothing]
    · rfl
  · rw [if_neg chosen, if_neg chosen]

end Migration

end Runnerd.Backfill
