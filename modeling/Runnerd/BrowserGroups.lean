import Runnerd.Doubles
import Runnerd.JobGroups
import Runnerd.KeyedTable

/-!
The job groups that the browser makes for itself, from
`ui/src/components/user-dashboard.tsx`, and the list of runners that it makes them of:
what `JSON.parse` reads from the list that the server sends.

An empty field is omitted, and read as `undefined`. A whole number is read as the
nearest number of 53 bits. Times are compared as texts, by their characters. How two
texts are ordered by `localeCompare` depends on the browser.
-/

namespace Runnerd

open GoText

section Times

/-- The day of a number of days after 1970-01-01: its year, month and day of the month. -/
def civilDay (days : Int) : Int × Int × Int :=
  -- an era is 400 years that begin in March
  let shifted := days + 719468
  let era := shifted / 146097
  let day := shifted % 146097
  let year := (day - day / 1460 + day / 36524 - day / 146096) / 365
  let dayOfYear := day - (365 * year + year / 4 - year / 100)
  let month := (5 * dayOfYear + 2) / 153
  let dayOfMonth := dayOfYear - (153 * month + 2) / 5 + 1
  let monthOfYear := if month < 10 then month + 3 else month - 9
  (year + era * 400 + (if monthOfYear ≤ 2 then 1 else 0), monthOfYear, dayOfMonth)

def padded (width : Nat) (number : Int) : String :=
  let digits := Nat.toDigits 10 number.toNat
  String.ofList (List.replicate (width - digits.length) '0' ++ digits)

/-- The nanoseconds after the point, without trailing zeros. -/
def fraction (nanoseconds : Int) : String :=
  if nanoseconds = 0 then ""
  else "." ++ String.ofList ((padded 9 nanoseconds).toList.reverse.dropWhile (· == '0')).reverse

def zoneText (offset : Int) : String :=
  if offset = 0 then "Z"
  else (if offset < 0 then "-" else "+") ++ padded 2 (offset.natAbs / 3600) ++ ":" ++
    padded 2 (offset.natAbs / 60 % 60)

/-- `time.Time.MarshalJSON`, for an instant in nanoseconds since 1970 and the offset in
seconds that the location of the time has then. A year has four digits. -/
def rfc3339 (offset : Int) (instant : Time) : String :=
  let shifted := instant + offset * second
  let seconds := shifted / second
  let (year, month, day) := civilDay (seconds / 86400)
  let clock := seconds % 86400
  padded 4 year ++ "-" ++ padded 2 month ++ "-" ++ padded 2 day ++ "T" ++ padded 2 (clock / 3600) ++
    ":" ++ padded 2 (clock / 60 % 60) ++ ":" ++ padded 2 (clock % 60) ++ fraction (shifted % second) ++
    zoneText offset

example : rfc3339 0 1709164799500000000 = "2024-02-28T23:59:59.5Z" := by decide +kernel

end Times

section Runners

/-- A runner as the browser has it. `none` is `undefined`. -/
structure BrowserRunner where
  id : String
  repositoryFullName : Option String
  runnerSpecName : Option String
  runnerName : String
  workflowRunID : Option Int
  workflowName : Option String
  headBranch : Option String
  headSHA : Option String
  pullRequestNumber : Option Int
  failureStage : Option String
  failureReason : Option String
  updatedAt : String
  deriving DecidableEq, Repr

/-- `omitempty`. -/
def omitText (text : String) : Option String := if text = "" then none else some text

def omitNumber (number : Int) : Option Int := if number = 0 then none else some (asDouble number)

/-- What arrives of a runner. The location of its times is the server's. -/
def browserRunner (zone : Time → Int) (st : RunnerState) : BrowserRunner where
  id := st.id
  repositoryFullName := omitText st.repositoryFullName
  runnerSpecName := omitText st.profileName
  runnerName := st.runnerName
  workflowRunID := omitNumber st.workflowRunID
  workflowName := omitText st.workflowName
  headBranch := omitText st.headBranch
  headSHA := omitText st.headSHA
  pullRequestNumber := omitNumber st.pullRequestNumber
  failureStage := omitText st.failureStage
  failureReason := omitText st.failureReason
  updatedAt := rfc3339 (zone st.updatedAt) st.updatedAt

/-- Whether a text counts as true. -/
def truthy (text : Option String) : Bool := text.getD "" != ""

def truthyNumber (number : Option Int) : Bool := number.getD 0 != 0

/-- `first || second`. -/
def orText (first second : Option String) : Option String := if truthy first then first else second

def orNumber (first second : Option Int) : Option Int :=
  if truthyNumber first then first else second

end Runners

section Groups

inductive BuildGroupKind where
  | pullRequest
  | branch
  | workflowRun
  | manual
  deriving DecidableEq, Repr

structure BuildGroup where
  key : String
  kind : BuildGroupKind
  repository : String
  title : String
  subtitle : String
  updatedAt : String
  jobs : List BrowserRunner
  workflowRunIDs : List Int
  headSHA : Option String := none
  headBranch : Option String := none
  pullRequestNumber : Option Int := none

/-- What the browser brings along: the texts of the interface, with at most one
argument, and its order of texts. -/
structure Browser where
  t : String → Option String → String
  localeCompare : String → String → Int

variable (browser : Browser)

def browserShortSHA (value : Option String) : String := shortSHA (value.getD "")

def buildGroupSeed (runner : BrowserRunner) (repository : String) (pullRequestNumber : Option Int) :
    BuildGroup :=
  let workflowRunIDs :=
    if truthyNumber runner.workflowRunID then runner.workflowRunID.toList else []
  if truthyNumber pullRequestNumber then
    let number := numberText (pullRequestNumber.getD 0)
    { key := "pr:" ++ repository ++ ":" ++ number
      kind := .pullRequest
      repository
      title := "PR #" ++ number
      subtitle := (orText runner.headBranch (orText (some (browserShortSHA runner.headSHA))
        (orText runner.workflowName (some (browser.t "user.pullRequestChecks" none))))).getD ""
      updatedAt := runner.updatedAt
      jobs := [runner]
      workflowRunIDs
      headSHA := runner.headSHA
      headBranch := runner.headBranch
      pullRequestNumber }
  else if truthy runner.headSHA then
    let branch := (orText runner.headBranch (some "detached")).getD ""
    let sha := browserShortSHA runner.headSHA
    { key := "branch:" ++ repository ++ ":" ++ branch ++ ":" ++ runner.headSHA.getD ""
      kind := .branch
      repository
      title := (orText runner.headBranch (some (browser.t "user.commitTitle" (some sha)))).getD ""
      subtitle := (orText (some sha)
        (orText runner.workflowName (some (browser.t "user.branchChecks" none)))).getD ""
      updatedAt := runner.updatedAt
      jobs := [runner]
      workflowRunIDs
      headSHA := runner.headSHA
      headBranch := runner.headBranch }
  else if truthyNumber runner.workflowRunID then
    let number := numberText (runner.workflowRunID.getD 0)
    { key := "run:" ++ repository ++ ":" ++ number
      kind := .workflowRun
      repository
      title := (orText runner.workflowName (some (browser.t "user.workflowRun" none))).getD ""
      subtitle := browser.t "user.runTitle" (some number)
      updatedAt := runner.updatedAt
      jobs := [runner]
      workflowRunIDs }
  else
    { key := "manual:" ++ repository ++ ":" ++ runner.id
      kind := .manual
      repository
      title := browser.t "user.manualRunner" none
      subtitle := (orText runner.runnerSpecName
        (orText (some runner.runnerName) (some runner.id))).getD ""
      updatedAt := runner.updatedAt
      jobs := [runner]
      workflowRunIDs }

def isUserVisibleBrowserJob (job : BrowserRunner) : Bool :=
  !(job.failureStage == some "admission" && job.failureReason == some "profile_labels_not_matched")

/-- `[...jobs].sort`, which is stable. -/
def orderJobs (jobs : List BrowserRunner) : List BrowserRunner :=
  jobs.mergeSort fun first second =>
    let runOrder := second.workflowRunID.getD 0 - first.workflowRunID.getD 0
    if runOrder ≠ 0 then decide (runOrder ≤ 0)
    else decide (browser.localeCompare second.updatedAt first.updatedAt ≤ 0)

def BuildGroup.joinRun (current : BuildGroup) (workflowRunID : Option Int) : BuildGroup :=
  match workflowRunID with
  | none => current
  | some run =>
      if run ≠ 0 ∧ run ∉ current.workflowRunIDs then
        { current with
          workflowRunIDs := (current.workflowRunIDs ++ [run]).mergeSort fun first second =>
            decide (second - first ≤ 0) }
      else current

/-- What the loop body does to a group that is there already. -/
def BuildGroup.join (current : BuildGroup) (runner : BrowserRunner) (group : BuildGroup) :
    BuildGroup :=
  let current := { current with jobs := current.jobs ++ [runner] }
  let current :=
    if runner.updatedAt > current.updatedAt then
      { current with
        updatedAt := runner.updatedAt
        subtitle := group.subtitle
        headSHA := orText runner.headSHA current.headSHA
        headBranch := orText runner.headBranch current.headBranch }
    else current
  let current :=
    if truthy runner.headSHA && !truthy current.headSHA then
      { current with headSHA := runner.headSHA }
    else current
  let current :=
    if truthy runner.headBranch && !truthy current.headBranch then
      { current with headBranch := runner.headBranch }
    else current
  current.joinRun runner.workflowRunID

@[simp] theorem BuildGroup.joinRun_key (current : BuildGroup) (run : Option Int) :
    (current.joinRun run).key = current.key := by
  cases run with
  | none => rfl
  | some run => simp only [BuildGroup.joinRun, apply_ite BuildGroup.key, ite_self]

@[simp] theorem BuildGroup.join_key (current group : BuildGroup) (runner : BrowserRunner) :
    (current.join runner group).key = current.key := by
  unfold BuildGroup.join
  simp only [BuildGroup.joinRun_key, apply_ite BuildGroup.key, ite_self]

def browserPRs (runners : List BrowserRunner) : AList fun _ : String => Int :=
  runners.foldl (fun numbers runner =>
    match runner.pullRequestNumber with
    | none => numbers
    | some number =>
        if truthy runner.repositoryFullName && truthy runner.headSHA && number != 0 then
          numbers.insert (runner.repositoryFullName.getD "" ++ ":" ++ runner.headSHA.getD "") number
        else numbers) ∅

def browserSeed (numbers : AList fun _ : String => Int) (runner : BrowserRunner) : BuildGroup :=
  let repository := (orText runner.repositoryFullName (some "unknown/repository")).getD ""
  let inferredPR := orNumber runner.pullRequestNumber
    (if truthy runner.headSHA then numbers.lookup (repository ++ ":" ++ runner.headSHA.getD "")
    else none)
  buildGroupSeed browser runner repository inferredPR

/-- `groups.set`, or a change of the group that is there. -/
def browserGroup (numbers : AList fun _ : String => Int) (groups : KeyedTable BuildGroup.key)
    (runner : BrowserRunner) : KeyedTable BuildGroup.key :=
  let group := browserSeed browser numbers runner
  match groups.find group.key with
  | some _ => groups.update (fun current => decide (current.key = group.key))
      ⟨fun current => current.join runner group, fun current => current.join_key group runner⟩
  | none => (groups.insert group).getD groups

def groupRunnersByBuildContext (runners : List BrowserRunner) : List BuildGroup :=
  let visibleRunners := runners.filter isUserVisibleBrowserJob
  let groups := visibleRunners.foldl (browserGroup browser (browserPRs runners)) .empty
  (groups.rows.map fun group => { group with jobs := orderJobs browser group.jobs }).mergeSort
    fun first second => decide (browser.localeCompare second.updatedAt first.updatedAt ≤ 0)

def currentBuildJobs (group : BuildGroup) : List BrowserRunner :=
  let sameHead := group.jobs.filter fun job => job.headSHA == group.headSHA
  let latestRunID := group.workflowRunIDs.head?
  let latestRun := group.jobs.filter fun job => job.workflowRunID == latestRunID
  if truthy group.headSHA ∧ sameHead ≠ [] then sameHead
  else if truthyNumber latestRunID ∧ latestRun ≠ [] then latestRun
  else group.jobs

def previousBuildJobs (group : BuildGroup) (currentJobs : List BrowserRunner) :
    List BrowserRunner :=
  group.jobs.filter fun job => !(currentJobs.map fun current => current.id).contains job.id

end Groups

end Runnerd
