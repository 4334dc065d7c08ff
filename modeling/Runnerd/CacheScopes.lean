import Runnerd.RunnerState
import Runnerd.SessionPolicy

/-!
The cache a runner may use. `server_runner_lifecycle.go` decides from GitHub's
metadata which scopes a workflow job reads and which one it writes,
`cache_sts.go` turns the decision into the session policy of a temporary
credential, and `cache_service.go` reads the bucket and prefix a user stored.

The truncated SHA-256 of a branch is a parameter. Every string in a message
that the source quotes with `%q` has nothing to escape.
-/

namespace Runnerd

open GoText SessionPolicy

section Metadata

structure Repository where
  fullName : String := ""
  defaultBranch : String := ""
  deriving DecidableEq, Repr

structure PullRequestRef where
  ref : String := ""
  repository : Repository := {}
  deriving DecidableEq, Repr

structure PullRequest where
  number : Int := 0
  head : PullRequestRef := {}
  base : PullRequestRef := {}
  deriving DecidableEq, Repr

structure WorkflowRun where
  event : String := ""
  headBranch : String := ""
  headRepository : Repository := {}
  repository : Repository := {}
  pullRequests : List PullRequest := []
  deriving DecidableEq, Repr

/-- What GitHub answers, the workflow run possibly from the cache. -/
structure GitHubMetadata where
  getRepository : String → Except GoError Repository
  workflowRunForCache : String → Int → Except GoError WorkflowRun
  getPullRequest : String → Int → Except GoError PullRequest

end Metadata

section Scopes

/-- The first half of a branch's SHA-256 in lower case hexadecimal. -/
structure BranchDigest where
  hex : String → String
  digits : ∀ branch, ∀ rune ∈ (hex branch).toList, rune ∈ "0123456789abcdef".toList

/-- The name that `scopeForBranch` hashes. -/
def hashedBranch (branch : String) : String :=
  let branch := trimSpace branch
  let branch := trimPrefix branch "refs/heads/"
  if branch = "" then "default" else branch

def scopeForBranch (digest : BranchDigest) (branch : String) : String :=
  "scopes/branch-" ++ digest.hex (hashedBranch branch)

def scopeForPR (prNumber : Int) : String :=
  if prNumber ≤ 0 then "scopes/pr-unknown" else "scopes/pr-" ++ toString prNumber

structure CacheScopeDecision where
  writeScope : String := ""
  readScopes : List String := []
  pullRequest : Int := 0
  decision : String
  deriving DecidableEq, Repr

def cacheWriteTrustedEvent (event : String) : Bool :=
  ["push", "workflow_dispatch", "repository_dispatch", "delete", "registry_package", "page_build",
    "schedule"].contains event

def trimScope (scope : String) : String := trim '/' (trimSpace scope)

def addCacheScope (result : List String) (scope : String) : List String :=
  if trimScope scope = "" ∨ trimScope scope ∈ result then result else result ++ [trimScope scope]

def uniqueCacheScopes (scopes : List String) : List String :=
  scopes.foldl addCacheScope []

variable (digest : BranchDigest)

def readOnly (defaultScope reason : String) : CacheScopeDecision :=
  { readScopes := [defaultScope], decision := reason }

def noCache (reason : String) : CacheScopeDecision := { decision := reason }

/-- The scope of the repository's default branch, or the decision that ends the
job's use of the cache. -/
def resolveRepositoryDefaultScope (gh : Option GitHubMetadata) (repository reason : String) :
    Except CacheScopeDecision String :=
  match gh with
  | none => .error (noCache reason)
  | some gh =>
      match gh.getRepository repository with
      | .error _ => .error (noCache reason)
      | .ok repositoryMetadata =>
          if equalFold (trimSpace repositoryMetadata.fullName) repository = false ∨
              trimSpace repositoryMetadata.defaultBranch = "" then
            .error (noCache "no_cache_untrusted_repository_metadata")
          else .ok (scopeForBranch digest repositoryMetadata.defaultBranch)

def pullRequestScopes (gh : GitHubMetadata) (repository : String) (run : WorkflowRun)
    (defaultScope : String) : CacheScopeDecision :=
  match run.pullRequests with
  | [] => readOnly defaultScope "read_only_missing_pull_request_metadata"
  | first :: _ =>
      if first.number ≤ 0 then readOnly defaultScope "read_only_missing_pull_request_metadata"
      else
        match gh.getPullRequest repository first.number with
        | .error _ => readOnly defaultScope "read_only_pull_request_lookup_failed"
        | .ok pull =>
            let baseRepo := trimSpace pull.base.repository.fullName
            let baseBranch := trimSpace pull.base.ref
            let headRepo := trimSpace pull.head.repository.fullName
            if pull.number ≠ first.number ∨ baseRepo = "" ∨ baseBranch = "" ∨ headRepo = "" ∨
                equalFold baseRepo repository = false then
              readOnly defaultScope "read_only_untrusted_pull_request_metadata"
            else
              let prScope := scopeForPR pull.number
              { writeScope := prScope
                readScopes :=
                  uniqueCacheScopes [prScope, scopeForBranch digest baseBranch, defaultScope]
                pullRequest := pull.number
                decision :=
                  if equalFold headRepo baseRepo then "internal_pull_request"
                  else "fork_pull_request" }

def branchScopes (repository event : String) (run : WorkflowRun) (defaultScope : String) :
    CacheScopeDecision :=
  let headRepo := trimSpace run.headRepository.fullName
  let baseRepo := trimSpace run.repository.fullName
  let branch := trimSpace run.headBranch
  if headRepo = "" ∨ baseRepo = "" ∨ equalFold baseRepo repository = false ∨
      equalFold headRepo baseRepo = false then
    readOnly defaultScope "read_only_untrusted_repository_metadata"
  else if branch = "" then readOnly defaultScope "read_only_missing_branch"
  else if cacheWriteTrustedEvent event = false then
    readOnly defaultScope "read_only_untrusted_event"
  else
    let ownScope := scopeForBranch digest branch
    { writeScope := ownScope
      readScopes := uniqueCacheScopes [ownScope, defaultScope]
      decision := "branch" }

/-- The decision for a run whose default scope is known. -/
def runScopes (gh : GitHubMetadata) (repository : String) (run : WorkflowRun)
    (defaultScope : String) : CacheScopeDecision :=
  let event := toLower (trimSpace run.event)
  if event = "pull_request" then pullRequestScopes digest gh repository run defaultScope
  else if event = "pull_request_target" ∨ event = "workflow_run" ∨ event = "issue_comment" then
    readOnly defaultScope ("read_only_" ++ event)
  else branchScopes digest repository event run defaultScope

/-- `if !ok { return decision }`. -/
def withDefaultScope (resolved : Except CacheScopeDecision String)
    (next : String → CacheScopeDecision) : CacheScopeDecision :=
  match resolved with
  | .error decision => decision
  | .ok defaultScope => next defaultScope

/-- `none` where the code would call a method of a GitHub client that is not
configured. -/
def cacheScopesForWorkflow (gh : Option GitHubMetadata) (repository : String)
    (workflowRunID : Int) : Option CacheScopeDecision :=
  let resolved := resolveRepositoryDefaultScope digest gh repository
    "no_cache_repository_lookup_failed"
  if workflowRunID ≤ 0 then
    some (withDefaultScope resolved fun defaultScope =>
      readOnly defaultScope "read_only_missing_workflow_run")
  else
    match gh with
    | none => none
    | some client =>
        match client.workflowRunForCache repository workflowRunID with
        | .error _ =>
            some (withDefaultScope resolved fun defaultScope =>
              readOnly defaultScope "read_only_workflow_run_lookup_failed")
        | .ok run =>
            if trimSpace run.repository.defaultBranch ≠ "" then
              some (runScopes digest client repository run
                (scopeForBranch digest (trimSpace run.repository.defaultBranch)))
            else
              some (withDefaultScope resolved fun defaultScope =>
                runScopes digest client repository run defaultScope)

end Scopes

section Policies

def validateCacheBucket (bucket : String) : Except GoError Unit :=
  let bucket := trimSpace bucket
  if bucket = "" ∨ bucket = "." ∨ bucket = ".." ∨ containsAny bucket "/\\*?" = true then
    .error { message := "cache S3 bucket contains an invalid resource component" }
  else .ok ()

def validateComponents : List String → Except GoError Unit
  | [] => .ok ()
  | component :: rest =>
      if component = "" ∨ component = "." ∨ component = ".." then
        .error { message := "cache prefix contains an invalid path component" }
      else if containsAny component "*?" = true then
        .error { message := "cache prefix contains a resource wildcard" }
      else validateComponents rest

def validateCachePrefix (cachePrefix : String) : Except GoError Unit :=
  if cachePrefix = "" then
    .error { message := "cache prefix is required for STS prefix isolation" }
  else validateComponents (split '/' cachePrefix)

/-- What `generateCacheSTSWithClient` makes of the prefix it is given. -/
def normalizeCachePrefix (cachePrefix : String) : String :=
  trimSuffix (trimPrefix (trimSpace cachePrefix) "/") "/"

def objectResource (bucket key : String) : String :=
  "qrn:kodo:::bucket/" ++ bucket ++ "/" ++ key

def bucketActions : List String := ["kodo/list", "kodo/listMultipartUploads"]

def readActions : List String := ["kodo/stat", "kodo/get"]

def writeActions : List String :=
  ["kodo/upload", "kodo/mkfile", "kodo/listParts", "kodo/abortMultipartUpload", "kodo/delete"]

/-- `readResources` and `listPrefixValues`. -/
structure ReadGrants where
  resources : List String := []
  prefixes : List String := []
  deriving DecidableEq, Repr

/-- The loop over the read scopes. -/
def collectReadScopes (bucket cachePrefix : String) :
    ReadGrants → List String → Except GoError ReadGrants
  | grants, [] => .ok grants
  | grants, scope :: rest =>
      let scope := trimScope scope
      if scope = "" then collectReadScopes bucket cachePrefix grants rest
      else
        match validateCachePrefix scope with
        | .error err => .error (err.wrap ("invalid read scope \"" ++ scope ++ "\": "))
        | .ok () =>
            let resource := objectResource bucket (cachePrefix ++ "/" ++ scope ++ "/*")
            if resource ∈ grants.resources then collectReadScopes bucket cachePrefix grants rest
            else
              collectReadScopes bucket cachePrefix
                { resources := grants.resources ++ [resource]
                  prefixes := grants.prefixes ++ [cachePrefix ++ "/" ++ scope ++ "/*"] } rest

def readStatements (bucket : String) (grants : ReadGrants) : Policy :=
  [{ actions := bucketActions
     resources := ["qrn:kodo:::bucket/" ++ bucket]
     stringLike := [("kodo:prefix", grants.prefixes)] },
   { actions := readActions
     resources := grants.resources }]

def writeStatements (bucket cachePrefix ownScope : String) : Except GoError Policy :=
  let ownScope := trimScope ownScope
  if ownScope = "" then .ok []
  else
    match validateCachePrefix ownScope with
    | .error err => .error (err.wrap ("invalid own scope \"" ++ ownScope ++ "\": "))
    | .ok () =>
        .ok [{ actions := writeActions
               resources := [objectResource bucket (cachePrefix ++ "/" ++ ownScope ++ "/*")] }]

/-- The policy that `generateCacheSTSWithClient` sends. -/
def cacheSTSPolicy (bucket cachePrefix ownScope : String) (readScopes : List String) :
    Except GoError Policy :=
  let bucket := trimSpace bucket
  match validateCacheBucket bucket with
  | .error err => .error err
  | .ok () =>
      let cachePrefix := normalizeCachePrefix cachePrefix
      match validateCachePrefix cachePrefix with
      | .error err => .error err
      | .ok () =>
          match collectReadScopes bucket cachePrefix {} readScopes with
          | .error err => .error err
          | .ok grants =>
              if grants.resources = [] then
                .error { message := "at least one cache read scope is required" }
              else
                match writeStatements bucket cachePrefix ownScope with
                | .error err => .error err
                | .ok statements => .ok (readStatements bucket grants ++ statements)

structure CacheSTSCredentials where
  accessKeyID : String
  secretAccessKey : String
  sessionToken : String
  deriving DecidableEq, Repr

structure CacheSTSCredentialConfig where
  bucket : String
  accessKeyID : String
  secretAccessKey : String

/-- The body of the request to the STS API. -/
structure STSRequest where
  name : String
  durationSeconds : Int
  policy : Policy

/-- A client that signs a request to an endpoint and reads its answer. -/
abbrev CacheSTSClient :=
  CacheSTSCredentialConfig → String → STSRequest → Except GoError CacheSTSCredentials

def generateCacheSTSWithClient (client : CacheSTSClient) (config : CacheSTSCredentialConfig)
    (cachePrefix ownScope : String) (readScopes : List String) (endpoint : String)
    (durationSeconds : Int) : Except GoError CacheSTSCredentials :=
  match cacheSTSPolicy config.bucket cachePrefix ownScope readScopes with
  | .error err => .error err
  | .ok policy =>
      if durationSeconds ≤ 0 then .error { message := "STS duration must be positive" }
      else
        let endpoint := trimRight '/' (trimSpace endpoint)
        if endpoint = "" then .error { message := "cache STS endpoint is required" }
        else
          let endpoint :=
            if hasPrefix endpoint "http://" = false ∧ hasPrefix endpoint "https://" = false then
              "https://" ++ endpoint
            else endpoint
          client config (endpoint ++ "/sts/federation/token")
            { name := "runnerd-cache", durationSeconds, policy }

def generateCacheSTS (client : Option CacheSTSClient) (config : CacheSTSCredentialConfig)
    (cachePrefix ownScope : String) (readScopes : List String) (endpoint : String)
    (durationSeconds : Int) : Except GoError CacheSTSCredentials :=
  match client with
  | none => .error { message := "cache STS HTTP client is required" }
  | some client =>
      generateCacheSTSWithClient client config cachePrefix ownScope readScopes endpoint
        durationSeconds

end Policies

end Runnerd
