import Runnerd.Listing

/-!
The job group of one runner, from `internal/server/server_terminal.go`. The
runner is read by its id, its group is built from the first page of the user's
rows. `runnerJobGroups_jobs` says that the groups hold the visible rows of the
page and nothing else, so whether a group is found is a question about the page.

`enrichUserRunnerJobGroup` adds a pull request title to a group that was found
and is left out.
-/

namespace Runnerd

open GoText SortedPages

structure UserRunnerJobGroup where
  key : String
  group : String
  repository : String
  title : String
  subtitle : String
  updatedAt : Time
  jobs : List RunnerState
  currentJobs : List RunnerState := []
  previousJobs : List RunnerState := []
  workflowRunIDs : List Int
  headSHA : String := ""
  headBranch : String := ""
  pullRequestNumber : Int := 0

section Grouping

def firstNonEmpty (values : List String) : String :=
  (values.find? fun value => trimSpace value != "").getD ""

/-- A SHA is ASCII, so seven bytes are seven runes. -/
def shortSHA (value : String) : String :=
  if value.toList.length > 7 then String.ofList (value.toList.take 7) else value

def runnerJobGroupSeed (st : RunnerState) (repository : String) (pullRequestNumber : Int) :
    UserRunnerJobGroup :=
  let workflowRunIDs := if st.workflowRunID ≠ 0 then [st.workflowRunID] else []
  if pullRequestNumber ≠ 0 then
    { key := "pr:" ++ repository ++ ":" ++ toString pullRequestNumber
      group := "pull_request"
      repository
      title := "PR #" ++ toString pullRequestNumber
      subtitle := firstNonEmpty
        [st.headBranch, shortSHA st.headSHA, st.workflowName, "Pull request checks"]
      updatedAt := st.updatedAt
      jobs := [st]
      workflowRunIDs
      headSHA := st.headSHA
      headBranch := st.headBranch
      pullRequestNumber }
  else if st.headSHA ≠ "" then
    { key := "branch:" ++ repository ++ ":" ++ firstNonEmpty [st.headBranch, "detached"] ++ ":" ++
        st.headSHA
      group := "branch"
      repository
      title := firstNonEmpty [st.headBranch, "Commit " ++ shortSHA st.headSHA]
      subtitle := firstNonEmpty [shortSHA st.headSHA, st.workflowName, "Branch checks"]
      updatedAt := st.updatedAt
      jobs := [st]
      workflowRunIDs
      headSHA := st.headSHA
      headBranch := st.headBranch }
  else if st.workflowRunID ≠ 0 then
    { key := "run:" ++ repository ++ ":" ++ toString st.workflowRunID
      group := "workflow_run"
      repository
      title := firstNonEmpty [st.workflowName, "Workflow run"]
      subtitle := "Run " ++ toString st.workflowRunID
      updatedAt := st.updatedAt
      jobs := [st]
      workflowRunIDs }
  else
    { key := "manual:" ++ repository ++ ":" ++ st.id
      group := "manual"
      repository
      title := "Manual runner"
      subtitle := firstNonEmpty [st.profileName, st.runnerName, st.id]
      updatedAt := st.updatedAt
      jobs := [st]
      workflowRunIDs }

def isUserVisibleRunnerJob (st : RunnerState) : Bool :=
  !(st.failureStage == "admission" && st.failureReason == "profile_labels_not_matched")

/-- `sort.SliceStable`, the latest workflow run first. -/
def orderRunnerJobs (jobs : List RunnerState) : List RunnerState :=
  jobs.mergeSort fun first second =>
    if first.workflowRunID ≠ second.workflowRunID then
      decide (second.workflowRunID < first.workflowRunID)
    else decide (second.updatedAt ≤ first.updatedAt)

def currentRunnerGroupJobs (group : UserRunnerJobGroup) : List RunnerState :=
  let sameHead := group.jobs.filter fun job => job.headSHA == group.headSHA
  let latestRun := group.jobs.filter fun job => some job.workflowRunID == group.workflowRunIDs.head?
  if group.headSHA ≠ "" ∧ sameHead ≠ [] then sameHead
  else if group.workflowRunIDs ≠ [] ∧ latestRun ≠ [] then latestRun
  else group.jobs

def previousRunnerGroupJobs (jobs currentJobs : List RunnerState) : List RunnerState :=
  jobs.filter fun job => !(currentJobs.map fun current => current.id).contains job.id

/-- What the loop body does to a group that is there already. -/
def UserRunnerJobGroup.join (current : UserRunnerJobGroup) (st : RunnerState)
    (seed : UserRunnerJobGroup) : UserRunnerJobGroup :=
  let current := { current with jobs := current.jobs ++ [st] }
  let current :=
    if st.updatedAt > current.updatedAt then
      { current with
        updatedAt := st.updatedAt
        subtitle := seed.subtitle
        headSHA := if st.headSHA ≠ "" then st.headSHA else current.headSHA
        headBranch := if st.headBranch ≠ "" then st.headBranch else current.headBranch }
    else current
  let current :=
    if st.headSHA ≠ "" ∧ current.headSHA = "" then { current with headSHA := st.headSHA }
    else current
  let current :=
    if st.headBranch ≠ "" ∧ current.headBranch = "" then
      { current with headBranch := st.headBranch }
    else current
  if st.workflowRunID ≠ 0 ∧ st.workflowRunID ∉ current.workflowRunIDs then
    { current with workflowRunIDs := current.workflowRunIDs ++ [st.workflowRunID] }
  else current

abbrev GroupsByKey := AList fun _ : String => UserRunnerJobGroup

def prByRepositoryAndSHA (states : List RunnerState) : AList fun _ : String => Int :=
  states.foldl (fun numbers st =>
    if st.repositoryFullName ≠ "" ∧ st.headSHA ≠ "" ∧ st.pullRequestNumber ≠ 0 then
      numbers.insert (st.repositoryFullName ++ ":" ++ st.headSHA) st.pullRequestNumber
    else numbers) ∅

def jobSeed (numbers : AList fun _ : String => Int) (st : RunnerState) : UserRunnerJobGroup :=
  let repository :=
    if st.repositoryFullName = "" then "unknown/repository" else st.repositoryFullName
  let pullRequestNumber :=
    if st.pullRequestNumber = 0 ∧ st.headSHA ≠ "" then
      (numbers.lookup (repository ++ ":" ++ st.headSHA)).getD 0
    else st.pullRequestNumber
  runnerJobGroupSeed st repository pullRequestNumber

def groupJob (numbers : AList fun _ : String => Int) (groupsByKey : GroupsByKey)
    (st : RunnerState) : GroupsByKey :=
  if !isUserVisibleRunnerJob st then groupsByKey
  else
    let seed := jobSeed numbers st
    match groupsByKey.lookup seed.key with
    | none => groupsByKey.insert seed.key seed
    | some current => groupsByKey.insert seed.key (current.join st seed)

def finishGroup (group : UserRunnerJobGroup) : UserRunnerJobGroup :=
  let group :=
    { group with
      workflowRunIDs := group.workflowRunIDs.mergeSort fun first second => decide (second ≤ first)
      jobs := orderRunnerJobs group.jobs }
  let group := { group with currentJobs := currentRunnerGroupJobs group }
  { group with previousJobs := previousRunnerGroupJobs group.jobs group.currentJobs }

/-- The map is ranged over in any order, which also orders the groups that were
updated at the same instant. -/
def runnerJobGroups (order : RangeOrder (Sigma fun _ : String => UserRunnerJobGroup))
    (states : List RunnerState) : List UserRunnerJobGroup :=
  let groupsByKey := states.foldl (groupJob (prByRepositoryAndSHA states)) ∅
  ((order.visit groupsByKey.entries).map fun entry => finishGroup entry.2).mergeSort
    fun first second => decide (second.updatedAt ≤ first.updatedAt)

def runnerJobGroupForRunner (order : RangeOrder (Sigma fun _ : String => UserRunnerJobGroup))
    (current : RunnerState) (states : List RunnerState) : Option UserRunnerJobGroup :=
  (runnerJobGroups order states).find? fun group => group.jobs.any fun job => job.id == current.id

end Grouping

section Handler

/-- `writeError` and `writeErrorCode`. -/
structure HttpError where
  status : Nat
  code : String := ""
  message : String
  deriving DecidableEq, Repr

def writeUserRepositoryAuthorizationError (err : ApiError) : HttpError :=
  if err.tokenRequired then
    ⟨403, "REAUTH_REQUIRED", "sign in with GitHub again to load repository access"⟩
  else if err.rateLimited then
    ⟨503, "GITHUB_RATE_LIMITED", "GitHub repository access is temporarily rate limited"⟩
  else if err.statusCode = some 401 then
    ⟨403, "REAUTH_REQUIRED", "sign in with GitHub again to refresh repository access"⟩
  else if err.statusCode = some 403 then
    ⟨403, "GITHUB_REPOSITORY_ACCESS_FORBIDDEN", "GitHub denied repository access"⟩
  else if err.statusCode = some 404 then
    ⟨404, "", "github installation is not accessible"⟩
  else ⟨502, "", "load github repository access"⟩

/-- One request of a user: the account of its session, if there is one, and what
`userAuthorizedRepositoryAccess` answers for an account, from its cache or from
`loadUserRepositoryAccess`. -/
structure UserRequest where
  session : Option Int
  userAuthorizedRepositoryAccess :
    Int → Except ApiError (List GitHubInstallationRepositoryAccess)

def requireUserSession (request : UserRequest) : Except HttpError Int :=
  match request.session with
  | none => .error ⟨401, "", "missing or invalid github oauth session"⟩
  | some account => .ok account

def repositoryAccess (request : UserRequest) (account : Int) :
    Except HttpError (List GitHubInstallationRepositoryAccess) :=
  match request.userAuthorizedRepositoryAccess account with
  | .error err => .error (writeUserRepositoryAuthorizationError err)
  | .ok access => .ok access

def userRunnerState (table : RequestTable) (request : UserRequest) (id : String) :
    Except HttpError RunnerState :=
  match requireUserSession request with
  | .error err => .error err
  | .ok account =>
      match readState table id with
      | .error _ => .error ⟨404, "", "runner not found"⟩
      | .ok st =>
          match repositoryAccess request account with
          | .error err => .error err
          | .ok access =>
              if hasRepositoryAccess access st.githubInstallationID st.repositoryFullName then
                .ok st
              else .error ⟨404, "", "runner not found"⟩

/-- How Go happens to range over the two maps of one request. -/
structure RangeOrders where
  records : RangeOrder (Sigma fun _ : String => RunnerRequestRecord)
  groups : RangeOrder (Sigma fun _ : String => UserRunnerJobGroup)

def userRunnerStatesForRequest (orders : RangeOrders) (table : CountedTable)
    (request : UserRequest) : Except HttpError (List RunnerState) :=
  match requireUserSession request with
  | .error err => .error err
  | .ok account =>
      match repositoryAccess request account with
      | .error err => .error err
      | .ok access =>
          .ok (listStatesForGitHubInstallationRepositories orders.records table access 500 0).1

def handleUserGetRunnerJobGroup (orders : RangeOrders) (table : CountedTable)
    (request : UserRequest) (id : String) : Except HttpError UserRunnerJobGroup :=
  match userRunnerState table.toRequestTable request id with
  | .error err => .error err
  | .ok st =>
      match userRunnerStatesForRequest orders table request with
      | .error err => .error err
      | .ok states =>
          match runnerJobGroupForRunner orders.groups st states with
          | some group => .ok group
          | none => .error ⟨404, "", "job group not found"⟩

end Handler

section Members

@[simp] theorem runnerJobGroupSeed_jobs (st : RunnerState) (repository : String)
    (pullRequestNumber : Int) :
    (runnerJobGroupSeed st repository pullRequestNumber).jobs = [st] := by
  unfold runnerJobGroupSeed
  simp only [apply_ite UserRunnerJobGroup.jobs, ite_self]

@[simp] theorem jobSeed_jobs (numbers : AList fun _ : String => Int) (st : RunnerState) :
    (jobSeed numbers st).jobs = [st] :=
  runnerJobGroupSeed_jobs st _ _

@[simp] theorem join_jobs (current seed : UserRunnerJobGroup) (st : RunnerState) :
    (current.join st seed).jobs = current.jobs ++ [st] := by
  unfold UserRunnerJobGroup.join
  simp only [apply_ite UserRunnerJobGroup.jobs, ite_self]

@[simp] theorem finishGroup_jobs (group : UserRunnerJobGroup) (st : RunnerState) :
    st ∈ (finishGroup group).jobs ↔ st ∈ group.jobs := by
  simp [finishGroup, orderRunnerJobs]

/-- The groups hold these jobs. -/
def Grouped (groupsByKey : GroupsByKey) (jobs : RunnerState → Prop) : Prop :=
  ∀ st, (∃ key group, groupsByKey.lookup key = some group ∧ st ∈ group.jobs) ↔ jobs st

theorem groupJob_grouped (numbers : AList fun _ : String => Int) (groupsByKey : GroupsByKey)
    (jobs : RunnerState → Prop) (st : RunnerState) (grouped : Grouped groupsByKey jobs) :
    Grouped (groupJob numbers groupsByKey st)
      fun other => jobs other ∨ other = st ∧ isUserVisibleRunnerJob st = true := by
  intro other
  unfold groupJob
  by_cases visible : isUserVisibleRunnerJob st = true
  · -- the group under the seed's key keeps its jobs and takes this one
    have replaced (group : UserRunnerJobGroup)
        (holds : ∀ other, other ∈ group.jobs ↔ other = st ∨ ∃ before,
          groupsByKey.lookup (jobSeed numbers st).key = some before ∧ other ∈ before.jobs) :
        (∃ key found, (groupsByKey.insert (jobSeed numbers st).key group).lookup key = some found ∧
          other ∈ found.jobs) ↔ jobs other ∨ other = st := by
      rw [← grouped other]
      constructor
      · rintro ⟨key, found, here, member⟩
        by_cases own : key = (jobSeed numbers st).key
        · rw [own, AList.lookup_insert, Option.some.injEq] at here
          rw [← here, holds] at member
          rcases member with same | ⟨before, there, member⟩
          · exact .inr same
          · exact .inl ⟨_, before, there, member⟩
        · rw [AList.lookup_insert_ne own] at here
          exact .inl ⟨key, found, here, member⟩
      · rintro (⟨key, found, here, member⟩ | rfl)
        · by_cases own : key = (jobSeed numbers st).key
          · subst own
            exact ⟨_, group, AList.lookup_insert _, (holds other).mpr (.inr ⟨found, here, member⟩)⟩
          · exact ⟨key, found, (AList.lookup_insert_ne own).trans here, member⟩
        · exact ⟨_, group, AList.lookup_insert _, (holds other).mpr (.inl rfl)⟩
    simp only [visible, Bool.not_true, Bool.false_eq_true, if_false, and_true]
    cases here : groupsByKey.lookup (jobSeed numbers st).key with
    | none => exact replaced _ fun other => by simp [here]
    | some current => exact replaced _ fun other => by simp [here, or_comm]
  · simpa [visible] using grouped other

theorem groupJobs_grouped (numbers : AList fun _ : String => Int) (states : List RunnerState) :
    Grouped (states.foldl (groupJob numbers) ∅)
      fun st => st ∈ states ∧ isUserVisibleRunnerJob st = true := by
  suffices grown : ∀ (groupsByKey : GroupsByKey) (jobs : RunnerState → Prop),
      Grouped groupsByKey jobs → Grouped (states.foldl (groupJob numbers) groupsByKey)
        fun st => jobs st ∨ st ∈ states ∧ isUserVisibleRunnerJob st = true by
    intro st
    simpa using grown ∅ (fun _ => False) (fun _ => by simp) st
  induction states with
  | nil => simp
  | cons first rest ih =>
      intro groupsByKey jobs grouped st
      refine (ih _ _ (groupJob_grouped numbers groupsByKey jobs first grouped) st).trans ?_
      grind

/-- The groups hold the visible rows they are built from. -/
theorem runnerJobGroups_jobs (order : RangeOrder (Sigma fun _ : String => UserRunnerJobGroup))
    (states : List RunnerState) (st : RunnerState) :
    (∃ group ∈ runnerJobGroups order states, st ∈ group.jobs) ↔
      st ∈ states ∧ isUserVisibleRunnerJob st = true := by
  refine Iff.trans ?_ (groupJobs_grouped (prByRepositoryAndSHA states) states st)
  unfold runnerJobGroups
  simp only [List.mem_mergeSort, List.mem_map, (order.complete _).mem_iff]
  constructor
  · rintro ⟨_, ⟨entry, member, rfl⟩, inside⟩
    rw [finishGroup_jobs] at inside
    exact ⟨entry.1, entry.2, AList.mem_lookup_iff.mpr member, inside⟩
  · rintro ⟨key, group, here, inside⟩
    exact ⟨_, ⟨⟨key, group⟩, AList.mem_lookup_iff.mp here, rfl⟩, (finishGroup_jobs group st).mpr inside⟩

end Members

section Finding

theorem listedBefore_asymmetric (first second : RunnerRequestRecord)
    (before : listedBefore first second = true) : listedBefore second first = false := by
  rw [← Bool.not_eq_true, listedBefore_iff]
  rw [listedBefore_iff] at before
  grind

/-- How many of the rows the user may see come before this one. -/
def rowsBefore (table : RequestTable) (access : List GitHubInstallationRepositoryAccess)
    (record : RunnerRequestRecord) : Nat :=
  table.rows.countP fun other => granted access other && listedBefore other record

theorem first_page_iff (table : RequestTable) (access : List GitHubInstallationRepositoryAccess)
    (record : RunnerRequestRecord) (stored : record ∈ table.rows) :
    record ∈ (grantedRows table access).take 500 ↔
      granted access record = true ∧ rowsBefore table access record < 500 := by
  have perm : (grantedRows table access).Perm (table.rows.filter (granted access)) :=
    List.mergeSort_perm _ _
  have sorted := (grantedRows_sorted table access).imp fun {first second} before =>
    (listedBefore_iff first second).mpr before
  rw [mem_take_iff listedBefore listedBefore_asymmetric 500 _ sorted, perm.countP_eq,
    List.countP_filter, perm.mem_iff, List.mem_filter, and_iff_right stored, rowsBefore]
  simp only [Bool.and_comm]

/-- The rows of the first page, read in the order of the listing. -/
theorem listed_states (orders : RangeOrders) (table : CountedTable)
    (access : List GitHubInstallationRepositoryAccess) (ascii : AsciiAccess access) :
    (listStatesForGitHubInstallationRepositories orders.records table access 500 0).1 =
      ((grantedRows table.toRequestTable access).take 500).map listedState := by
  rw [listing_eq_page orders.records table access 500 0 ascii]
  rfl

theorem group_found_iff (orders : RangeOrders) (table : CountedTable)
    (access : List GitHubInstallationRepositoryAccess) (ascii : AsciiAccess access)
    (record : RunnerRequestRecord) (stored : record ∈ table.rows)
    (visible : isUserVisibleRunnerJob (recordToState record) = true) :
    (∃ group, runnerJobGroupForRunner orders.groups (recordToState record)
        (listStatesForGitHubInstallationRepositories orders.records table access 500 0).1 =
          some group ∧ listedState record ∈ group.jobs) ↔
      granted access record = true ∧ rowsBefore table.toRequestTable access record < 500 := by
  rw [← first_page_iff table.toRequestTable access record stored,
    listed_states orders table access ascii]
  generalize window : (grantedRows table.toRequestTable access).take 500 = rows
  have within (other : RunnerRequestRecord) (member : other ∈ rows) : other ∈ table.rows := by
    rw [← window] at member
    have present := List.mem_of_mem_take member
    rw [grantedRows, List.mem_mergeSort, List.mem_filter] at present
    exact present.1
  have jobs (st : RunnerState) := runnerJobGroups_jobs orders.groups (rows.map listedState) st
  constructor
  · rintro ⟨group, found, inside⟩
    have member := ((jobs _).mp ⟨group, List.mem_of_find?_eq_some found, inside⟩).1
    obtain ⟨other, listed, same⟩ := List.mem_map.mp member
    rwa [← listedState_inj table.toRequestTable other record (within other listed) stored same]
  · intro member
    obtain ⟨group, grouped, inside⟩ :=
      (jobs (listedState record)).mpr ⟨List.mem_map_of_mem member, visible⟩
    have some : (runnerJobGroupForRunner orders.groups (recordToState record)
        (rows.map listedState)).isSome = true := by
      rw [runnerJobGroupForRunner, List.find?_isSome]
      exact ⟨group, grouped, List.any_eq_true.mpr ⟨_, inside, beq_self_eq_true _⟩⟩
    obtain ⟨chosen, found⟩ := Option.isSome_iff_exists.mp some
    refine ⟨chosen, found, ?_⟩
    -- the group that was found has a job of this id, and the id has one row
    have chosenID : chosen.jobs.any (fun job => job.id == (recordToState record).id) = true := by
      rw [runnerJobGroupForRunner] at found
      exact List.find?_some (p := fun group : UserRunnerJobGroup => group.jobs.any fun job =>
        job.id == (recordToState record).id) found
    obtain ⟨job, holds, own⟩ := List.any_eq_true.mp chosenID
    have listed := ((jobs job).mp ⟨chosen, List.mem_of_find?_eq_some found, holds⟩).1
    obtain ⟨other, here, rfl⟩ := List.mem_map.mp listed
    have same : other = record :=
      List.inj_on_of_nodup_map table.primaryKey (within other here) stored (beq_iff_eq.mp own)
    rwa [same] at holds

theorem repositoryAccess_ok {request : UserRequest} {account : Int}
    {access : List GitHubInstallationRepositoryAccess} :
    repositoryAccess request account = .ok access ↔
      request.userAuthorizedRepositoryAccess account = .ok access := by
  unfold repositoryAccess
  cases request.userAuthorizedRepositoryAccess account with
  | error err => simp
  | ok access => simp

theorem userRunnerState_ok (table : RequestTable) (request : UserRequest) (id : String)
    (st : RunnerState) :
    userRunnerState table request id = .ok st ↔
      ∃ account access, requireUserSession request = .ok account ∧ readState table id = .ok st ∧
        repositoryAccess request account = .ok access ∧
        hasRepositoryAccess access st.githubInstallationID st.repositoryFullName = true := by
  unfold userRunnerState
  constructor
  · intro authorised
    cases session : requireUserSession request with
    | error err => simp [session] at authorised
    | ok account =>
        cases reads : readState table id with
        | error err => simp [session, reads] at authorised
        | ok found =>
            cases loaded : repositoryAccess request account with
            | error err => simp [session, reads, loaded] at authorised
            | ok access =>
                simp only [session, reads, loaded] at authorised
                by_cases allowed : hasRepositoryAccess access found.githubInstallationID
                    found.repositoryFullName = true
                · rw [if_pos allowed] at authorised
                  cases authorised
                  exact ⟨account, access, rfl, rfl, loaded, allowed⟩
                · rw [if_neg allowed] at authorised
                  cases authorised
  · rintro ⟨account, access, session, reads, loaded, allowed⟩
    simp only [session, reads, loaded, allowed, if_true]

/-- Once the runner was authorised, the handler finds the group that the first
page has for it. -/
theorem handleUserGetRunnerJobGroup_ok (orders : RangeOrders) (table : CountedTable)
    (request : UserRequest) (id : String) (st : RunnerState) (account : Int)
    (access : List GitHubInstallationRepositoryAccess)
    (authorised : userRunnerState table.toRequestTable request id = .ok st)
    (session : requireUserSession request = .ok account)
    (loaded : repositoryAccess request account = .ok access) (group : UserRunnerJobGroup) :
    handleUserGetRunnerJobGroup orders table request id = .ok group ↔
      runnerJobGroupForRunner orders.groups st
        (listStatesForGitHubInstallationRepositories orders.records table access 500 0).1 =
          some group := by
  simp only [handleUserGetRunnerJobGroup, userRunnerStatesForRequest, authorised, session, loaded]
  cases runnerJobGroupForRunner orders.groups st
      (listStatesForGitHubInstallationRepositories orders.records table access 500 0).1 with
  | none => simp
  | some found => simp

/-- A visible runner's group is found exactly when the listing can return the
runner and fewer than a page of rows come before it. -/
theorem job_group_found_iff (orders : RangeOrders) (table : CountedTable) (request : UserRequest)
    (account : Int) (access : List GitHubInstallationRepositoryAccess)
    (session : request.session = some account)
    (loaded : request.userAuthorizedRepositoryAccess account = .ok access)
    (ascii : AsciiAccess access) (id : String) (record : RunnerRequestRecord)
    (stored : record ∈ table.rows)
    (authorised : userRunnerState table.toRequestTable request id = .ok (recordToState record))
    (visible : isUserVisibleRunnerJob (recordToState record) = true) :
    (∃ group, handleUserGetRunnerJobGroup orders table request id = .ok group ∧
      listedState record ∈ group.jobs) ↔
      granted access record = true ∧ rowsBefore table.toRequestTable access record < 500 := by
  rw [← group_found_iff orders table access ascii record stored visible]
  have signedIn : requireUserSession request = .ok account := by
    simp [requireUserSession, session]
  have reached : repositoryAccess request account = .ok access := by
    simp [repositoryAccess, loaded]
  exact exists_congr fun group => and_congr_left fun _ =>
    handleUserGetRunnerJobGroup_ok orders table request id _ account access authorised signedIn
      reached group

def rangeInOrder : RangeOrders := ⟨visitInOrder, visitInOrder⟩

def octoUser : UserRequest where
  session := some 1
  userAuthorizedRepositoryAccess _ := .ok [⟨7, ["octo/repo"]⟩]

theorem job_group_found_alone :
    (∃ group, handleUserGetRunnerJobGroup rangeInOrder (oneRow pushedRow (by decide)) octoUser "42" =
        .ok group ∧ listedState pushedRow ∈ group.jobs) ↔
      granted [⟨7, ["octo/repo"]⟩] pushedRow = true ∧
        rowsBefore (oneRow pushedRow (by decide)).toRequestTable [⟨7, ["octo/repo"]⟩] pushedRow <
          500 :=
  job_group_found_iff rangeInOrder (oneRow pushedRow (by decide)) octoUser 1 [⟨7, ["octo/repo"]⟩]
    rfl rfl (by simp [AsciiAccess]; decide) "42" pushedRow (List.mem_singleton.mpr rfl) (by decide)
    (by decide)

/-- The row that `n` rows of the same repository were admitted before. -/
def crowdRow (n : Nat) : RunnerRequestRecord :=
  { id := String.ofList (List.replicate (n + 1) 'a')
    status := .completed
    githubInstallationID := 7
    repositoryFullName := "octo/repo"
    createdAt := n }

theorem crowdRow_clean (n : Nat) : sanitizeID (crowdRow n).id = (crowdRow n).id := by
  apply sanitizeID_plain
  intro rune member
  rw [crowdRow, String.toList_ofList] at member
  rw [List.eq_of_mem_replicate member]
  decide

def crowd (n : Nat) (fits : n + 1 < 2 ^ 63) : CountedTable where
  rows := (List.range (n + 1)).map crowdRow
  primaryKey := by
    rw [List.map_map]
    apply List.Nodup.map _ List.nodup_range
    intro first second same
    have lengths := congrArg (fun id => id.toList.length) same
    simpa [crowdRow] using lengths
  jobIndex := by
    have manual : jobKey ∘ crowdRow = fun _ => none := rfl
    rw [List.filterMap_map, manual]
    simp
  sanitized := by
    intro record member
    obtain ⟨n, _, rfl⟩ := List.mem_map.mp member
    exact crowdRow_clean n
  counted := by simpa using fits

theorem crowdRow_granted (n : Nat) : granted [⟨7, ["octo/repo"]⟩] (crowdRow n) = true := by
  have named : sqlLower (trimSpace "octo/repo") = sqlLower "octo/repo" := by decide
  simp [granted, crowdRow, inAccess, GitHubInstallationRepositoryAccess.names, named]

theorem countP_later (n : Nat) : (List.range (n + 1)).countP (fun m => decide (0 < m)) = n := by
  induction n with
  | zero => rfl
  | succ n ih =>
      rw [List.range_succ, List.countP_append, ih]
      simp

variable (n : Nat) (fits : n + 1 < 2 ^ 63)

theorem crowd_oldest : (crowd n fits).find "a" = some (crowdRow 0) := by
  have rows : (crowd n fits).rows = (List.range (n + 1)).map crowdRow := rfl
  rw [RequestTable.find, rows, List.range_succ_eq_map, List.map_cons, List.find?_cons_of_pos]
  decide

theorem crowd_before :
    rowsBefore (crowd n fits).toRequestTable [⟨7, ["octo/repo"]⟩] (crowdRow 0) = n := by
  have each : ((fun other => granted [⟨7, ["octo/repo"]⟩] other && listedBefore other (crowdRow 0)) ∘
      crowdRow) = fun m => decide (0 < m) := by
    funext m
    rw [Function.comp_apply, crowdRow_granted, Bool.true_and, Bool.eq_iff_iff, listedBefore_iff,
      decide_eq_true_iff]
    constructor
    · rintro (later | ⟨same, before⟩)
      · simpa [crowdRow] using later
      · have first : m = 0 := by simpa [crowdRow] using same
        subst first
        exact absurd before (lt_irrefl _)
    · intro later
      exact .inl (by simpa [crowdRow] using later)
  rw [rowsBefore, crowd, List.countP_map, each]
  exact countP_later n

theorem crowd_shown : userRunnerState (crowd n fits).toRequestTable octoUser "a" =
    .ok (recordToState (crowdRow 0)) := by
  have reads : readState (crowd n fits).toRequestTable "a" = .ok (recordToState (crowdRow 0)) := by
    have clean : sanitizeID "a" = "a" := by decide
    rw [readState, readRecord, clean, crowd_oldest]
    rfl
  have allowed : hasRepositoryAccess [⟨7, ["octo/repo"]⟩]
      (recordToState (crowdRow 0)).githubInstallationID
      (recordToState (crowdRow 0)).repositoryFullName = true := by decide
  simp only [userRunnerState, requireUserSession, octoUser, reads, repositoryAccess, allowed, if_true]

/-- With a full page of later rows the oldest one has no group. -/
theorem crowd_groupless (full : 500 ≤ n) (group : UserRunnerJobGroup)
    (handled : handleUserGetRunnerJobGroup rangeInOrder (crowd n fits) octoUser "a" = .ok group) :
    listedState (crowdRow 0) ∉ group.jobs := by
  intro inside
  have found := (handleUserGetRunnerJobGroup_ok rangeInOrder (crowd n fits) octoUser "a" _ 1 _
    (crowd_shown n fits) rfl rfl group).mp handled
  have stored : crowdRow 0 ∈ (crowd n fits).rows :=
    List.mem_map_of_mem (List.mem_range.mpr (by omega))
  have few := (group_found_iff rangeInOrder (crowd n fits) [⟨7, ["octo/repo"]⟩]
    (by simp [AsciiAccess]; decide) (crowdRow 0) stored (by decide)).mp ⟨group, found, inside⟩
  rw [crowd_before] at few
  omega

/-- The oldest of 501 rows is shown, but has no group. -/
theorem oldest_row_groupless :
    userRunnerState (crowd 500 (by decide)).toRequestTable octoUser "a" =
        .ok (recordToState (crowdRow 0)) ∧
      isUserVisibleRunnerJob (recordToState (crowdRow 0)) = true ∧
      ¬ ∃ group, handleUserGetRunnerJobGroup rangeInOrder (crowd 500 (by decide)) octoUser "a" =
          .ok group ∧ listedState (crowdRow 0) ∈ group.jobs := by
  refine ⟨crowd_shown 500 (by decide), by decide, ?_⟩
  rintro ⟨group, handled, inside⟩
  exact crowd_groupless 500 (by decide) (Nat.le_refl _) group handled inside

end Finding

end Runnerd
