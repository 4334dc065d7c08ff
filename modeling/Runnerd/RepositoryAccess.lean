import Mathlib.Data.Finset.Sort
import Mathlib.Data.Finmap
import Mathlib.Data.String.Basic
import Runnerd.RequestStore
import Runnerd.SortedPages

/-!
Which rows a user may see. `internal/server/server_user_authorization.go` asks
GitHub for the repositories of each linked installation, and
`internal/state/runner_requests.go` lists the rows of these repositories in
batches that keep each query below the databases' parameter limit.

A query orders ids byte by byte, as Go compares them. `LOWER` is modelled on
ASCII, where all supported databases agree.
-/

namespace Runnerd

open GoText SortedPages

structure GitHubInstallationRepositoryAccess where
  installationID : Int
  repositories : List String
  deriving DecidableEq, Repr

def keepNew (clean key : String → String) (out : List String) (value : String) : List String :=
  if clean value = "" ∨ key (clean value) ∈ out.map key then out else out ++ [clean value]

/-- The loops that drop blank values and keep the first one of each key. -/
def keepFirst (clean key : String → String) (values : List String) : List String :=
  values.foldl (keepNew clean key) []

def uniqueLowerTrimmed (values : List String) : List String :=
  keepFirst (fun value => toLower (trimSpace value)) id values

section Loading

/-- An error of the access list, with what `github.ErrorStatus` and
`github.IsRateLimitError` find in it, and whether it is
`errGitHubUserAccessTokenRequired`. -/
structure ApiError where
  message : String
  statusCode : Option Int := none
  rateLimited : Bool := false
  tokenRequired : Bool := false
  deriving DecidableEq, Repr

/-- The user no longer reaches the installation. -/
def ApiError.inaccessible (err : ApiError) : Bool :=
  err.statusCode == some 404 || (err.statusCode == some 403 && !err.rateLimited)

def listUserInstallationRepositories (fetch : String → Int → Except ApiError (List String))
    (token : String) (installationID : Int) : Except ApiError (List String) :=
  let token := trimSpace token
  if token = "" then .error { message := "github oauth token is required" }
  else if installationID ≤ 0 then .error { message := "installation id is required" }
  else fetch token installationID

/-- What `loadUserRepositoryAccess` reads: the installations linked to the
account, its stored token and the key it decrypts with, and GitHub, when a
client is configured. -/
structure AccessSources where
  installations : Except GoError (List Int)
  secret : Except GoError String
  decryptSecret : String → Except GoError String
  client : Option (String → Int → Except ApiError (List String))

def errGitHubUserAccessTokenRequired : ApiError where
  message := "github user access token is required"
  tokenRequired := true

def githubUserAccessToken (sources : AccessSources) : Except ApiError String :=
  match sources.secret with
  | .error err =>
      if err = errNotFound then .error errGitHubUserAccessTokenRequired
      else .error { message := err.message }
  | .ok encrypted =>
      match sources.decryptSecret encrypted with
      | .error _ => .error errGitHubUserAccessTokenRequired
      | .ok token =>
          if trimSpace token = "" then .error errGitHubUserAccessTokenRequired
          else .ok (trimSpace token)

def loadInstallations (fetch : Int → Except ApiError (List String)) :
    List Int → Except ApiError (List GitHubInstallationRepositoryAccess)
  | [] => .ok []
  | installationID :: rest =>
      match fetch installationID with
      | .error err => if err.inaccessible then loadInstallations fetch rest else .error err
      | .ok items =>
          let repositories := keepFirst trimSpace toLower items
          (loadInstallations fetch rest).map fun access =>
            if repositories = [] then access else ⟨installationID, repositories⟩ :: access

def loadUserRepositoryAccess (sources : AccessSources) :
    Except ApiError (List GitHubInstallationRepositoryAccess) :=
  match sources.installations with
  | .error err => .error { message := err.message }
  | .ok [] => .ok []
  | .ok installations =>
      match sources.client with
      | none => .error { message := "github client is not configured" }
      | some client =>
          match githubUserAccessToken sources with
          | .error err => .error err
          | .ok token =>
              loadInstallations (listUserInstallationRepositories client token) installations

def hasRepositoryAccess (access : List GitHubInstallationRepositoryAccess) (installationID : Int)
    (repository : String) : Bool :=
  let repository := trimSpace repository
  access.any fun item =>
    item.installationID == installationID &&
      item.repositories.any fun candidate => equalFold (trimSpace candidate) repository

end Loading

section Batches

/-- SQL `LOWER`. -/
def sqlLower (text : String) : String :=
  String.ofList (text.toList.map Char.toLower)

/-- `map[int64]map[string]struct{}`. -/
abbrev RepositorySets := Finmap fun _ : Int => Finset String

def RepositorySets.repositories (sets : RepositorySets) (installationID : Int) : Finset String :=
  (sets.lookup installationID).getD ∅

def addAccess (sets : RepositorySets) (item : GitHubInstallationRepositoryAccess) :
    RepositorySets :=
  if item.installationID ≤ 0 then sets
  else
    sets.insert item.installationID
      (sets.repositories item.installationID ∪ (uniqueLowerTrimmed item.repositories).toFinset)

def normalizeGitHubInstallationRepositoryAccess
    (access : List GitHubInstallationRepositoryAccess) :
    List GitHubInstallationRepositoryAccess :=
  let sets := access.foldl addAccess ∅
  ((sets.keys.filter fun id => 0 < (sets.repositories id).card).sort).map fun id =>
    ⟨id, (sets.repositories id).sort⟩

structure QueryBatch where
  installationID : Int
  repositories : List String

/-- `github_installation_id = ? AND LOWER(repository_full_name) IN ?`. -/
def QueryBatch.predicate (batch : QueryBatch) (record : RunnerRequestRecord) : Bool :=
  record.githubInstallationID == batch.installationID &&
    batch.repositories.contains (sqlLower record.repositoryFullName)

/-- The loop that cuts off `min(len(repositories), size)` names at a time. -/
def repositoryChunks (size : Nat) : List String → List (List String)
  | [] => []
  | first :: rest =>
      (first :: rest.take (size - 1)) :: repositoryChunks size (rest.drop (size - 1))
  termination_by repositories => repositories.length

def githubInstallationRepositoryAccessQueryBatches
    (access : List GitHubInstallationRepositoryAccess) (maxParameters : Int) : List QueryBatch :=
  let maxParameters := if maxParameters < 2 then 2 else maxParameters
  (normalizeGitHubInstallationRepositoryAccess access).flatMap fun item =>
    (repositoryChunks (maxParameters - 1).toNat item.repositories).map fun chunk =>
      ⟨item.installationID, chunk⟩

def maxRunnerRequestRepositoryAccessQueryParameters : Int := 900

end Batches

section Listing

/-- The order in which a `range` visits a map is left open. -/
structure RangeOrder (α : Type) where
  visit : List α → List α
  complete : ∀ entries, (visit entries).Perm entries

/-- `COUNT` fits the `int64` it is scanned into. -/
structure CountedTable extends RequestTable where
  counted : rows.length < 2 ^ 63

/-- Two's complement wrap of an `int64` sum or difference. -/
def int64 (value : Int) : Int := value.bmod (2 ^ 64)

def maxInt : Int := 2 ^ 63 - 1

/-- The row as `runnerRequestListSelectColumns` projects it. -/
def listedColumns (record : RunnerRequestRecord) : RunnerRequestRecord :=
  { record with sandboxAPIURL := "", sandboxAPIKeyEncrypted := "", source := "", labels := [] }

/-- The `less` of `sort.Slice`, and `ORDER BY queued_at DESC, id ASC`. -/
def listedBefore (first second : RunnerRequestRecord) : Bool :=
  if first.createdAt = second.createdAt then decide (first.id < second.id)
  else decide (second.createdAt < first.createdAt)

def selectListed (table : RequestTable) (batch : QueryBatch) (limit : Int) :
    List RunnerRequestRecord :=
  (((table.rows.filter batch.predicate).mergeSort
    fun first second => !listedBefore second first).take limit.toNat).map listedColumns

/-- `queryLimit`: the end of the page, or the total where that comes first. -/
def queryLimit (total offset limit : Int) : Int :=
  let queryLimit64 := if limit ≤ int64 (total - offset) then int64 (offset + limit) else total
  if queryLimit64 > maxInt then maxInt else queryLimit64

/-- `records[start:end]`. -/
def slicePage (records : List RunnerRequestRecord) (offset limit : Int) :
    List RunnerRequestRecord :=
  let start := if offset > records.length then (records.length : Int) else offset
  let stop := if start + limit > records.length then (records.length : Int) else start + limit
  (records.take stop.toNat).drop start.toNat

def collectByID (records : AList fun _ : String => RunnerRequestRecord)
    (batch : List RunnerRequestRecord) : AList fun _ : String => RunnerRequestRecord :=
  batch.foldl (fun records record => records.insert record.id record) records

def listStatesForGitHubInstallationRepositories
    (order : RangeOrder (Sigma fun _ : String => RunnerRequestRecord)) (table : CountedTable)
    (access : List GitHubInstallationRepositoryAccess) (limit offset : Int) :
    List RunnerState × Int :=
  let batches := githubInstallationRepositoryAccessQueryBatches access
    maxRunnerRequestRepositoryAccessQueryParameters
  if batches.isEmpty then ([], 0)
  else
    let limit := if limit ≤ 0 ∨ limit > 500 then 500 else limit
    let offset := if offset < 0 then 0 else offset
    let total := batches.foldl
      (fun total batch => int64 (total + table.rows.countP batch.predicate)) 0
    if offset ≥ total then ([], total)
    else
      let queryLimit := queryLimit total offset limit
      let recordsByID := batches.foldl
        (fun records batch => collectByID records (selectListed table.toRequestTable batch queryLimit)) ∅
      let records := ((order.visit recordsByID.entries).map Sigma.snd).mergeSort
        fun first second => !listedBefore second first
      ((slicePage records offset limit).map recordToState, total)

end Listing

end Runnerd
