import Mathlib.Data.Set.Function
import Runnerd.CacheScopes

/-!
What the session policy of a cache credential allows. `cacheSTSPolicy_built`
gives the shape of every policy that is sent, `built_permits` what such a policy
permits, and `decided_scopes` which scopes a decision can name.
-/

namespace Runnerd

open GoText SessionPolicy

section Texts

/-- No blank and no slash. -/
def Segment (text : String) : Prop :=
  ∀ rune ∈ text.toList, isSpace rune = false ∧ rune ≠ '/'

theorem segment_append (first second : String) (left : Segment first) (right : Segment second) :
    Segment (first ++ second) := by
  intro rune member
  rw [String.toList_append, List.mem_append] at member
  rcases member with member | member
  · exact left rune member
  · exact right rune member

/-- A check of each rune of a literal, in the form that is evaluated. -/
theorem segment_of_all (text : String)
    (all : text.toList.all (fun rune => !isSpace rune && rune != '/') = true) : Segment text := by
  intro rune member
  simpa using List.all_eq_true.mp all rune member

theorem segment_toString (n : Int) : Segment (toString n) :=
  fun rune member => ⟨(int_runes n rune member).1, (int_runes n rune member).2.1⟩

theorem trimScope_self (segment : String) (clean : Segment segment) (present : segment ≠ "") :
    trimScope ("scopes/" ++ segment) = "scopes/" ++ segment := by
  have runes : ("scopes/" ++ segment).toList = "scopes/".toList ++ segment.toList :=
    String.toList_append
  have some : segment.toList ≠ [] := fun none => present (String.toList_eq_nil_iff.mp none)
  have first (rune : Char) (member : rune ∈ ("scopes/" ++ segment).toList.head?) : rune = 's' := by
    rw [runes, List.head?_append] at member
    simpa [eq_comm] using member
  have last (rune : Char) (member : rune ∈ ("scopes/" ++ segment).toList.getLast?) :
      isSpace rune = false ∧ rune ≠ '/' := by
    rw [runes, List.getLast?_append_of_ne_nil _ some] at member
    exact clean rune (List.mem_of_getLast? member)
  have blanks : trimSpace ("scopes/" ++ segment) = "scopes/" ++ segment := by
    rw [trimSpace, trimRunes, dropEnds_self, String.ofList_toList]
    · intro rune member
      rw [first rune member]
      rfl
    · exact fun rune member => (last rune member).1
  rw [trimScope, blanks, trim, dropEnds_self, String.ofList_toList]
  · intro rune member
    rw [first rune member]
    rfl
  · intro rune member
    simpa [isRune] using (last rune member).2

end Texts

section Validation

theorem mem_splitOn (separator rune : Char) (runes : List Char) (member : rune ∈ runes)
    (other : rune ≠ separator) : ∃ part ∈ runes.splitOn separator, rune ∈ part := by
  induction runes with
  | nil => simp at member
  | cons head rest ih =>
      rw [List.splitOn, List.splitOnP_cons_eq_if_modifyHead]
      by_cases cut : (head == separator) = true
      · rw [if_pos cut]
        rcases List.mem_cons.mp member with rfl | later
        · exact absurd (beq_iff_eq.mp cut) other
        · obtain ⟨part, found, inside⟩ := ih later
          exact ⟨part, List.mem_cons_of_mem _ found, inside⟩
      · rw [if_neg cut]
        cases parts : rest.splitOnP (fun rune => rune == separator) with
        | nil => exact absurd parts (List.splitOnP_ne_nil _ _)
        | cons first more =>
            rw [List.modifyHead_cons]
            rcases List.mem_cons.mp member with rfl | later
            · exact ⟨rune :: first, List.mem_cons_self, List.mem_cons_self⟩
            · obtain ⟨part, found, inside⟩ := ih later
              rw [List.splitOn, parts] at found
              rcases List.mem_cons.mp found with rfl | found
              · exact ⟨head :: part, List.mem_cons_self, List.mem_cons_of_mem head inside⟩
              · exact ⟨part, List.mem_cons_of_mem _ found, inside⟩

theorem validateComponents_ok (components : List String)
    (valid : validateComponents components = .ok ()) :
    ∀ component ∈ components, component ≠ "" ∧ Plain component.toList := by
  induction components with
  | nil => simp
  | cons component rest ih =>
      rw [validateComponents] at valid
      split at valid
      · cases valid
      · rename_i named
        split at valid
        · cases valid
        · rename_i plain
          intro other member
          rcases List.mem_cons.mp member with rfl | member
          · refine ⟨fun empty => named (.inl empty), fun rune present => ?_⟩
            rw [Bool.not_eq_true, containsAny, List.any_eq_false] at plain
            have absent := plain rune present
            simpa using absent
          · exact ih valid other member

theorem plain_of_valid (cachePrefix : String) (valid : validateCachePrefix cachePrefix = .ok ()) :
    Plain cachePrefix.toList := by
  unfold validateCachePrefix at valid
  split at valid
  · cases valid
  · intro rune member
    by_cases slash : rune = '/'
    · subst slash
      decide
    · obtain ⟨part, found, inside⟩ := mem_splitOn '/' rune _ member slash
      have component := validateComponents_ok _ valid (String.ofList part)
        (List.mem_map_of_mem found)
      exact component.2 rune (by rwa [String.toList_ofList])

theorem plain_of_validBucket (bucket : String) (valid : validateCacheBucket bucket = .ok ()) :
    Plain (trimSpace bucket).toList := by
  unfold validateCacheBucket at valid
  simp only at valid
  split at valid
  · cases valid
  · rename_i named
    simp only [not_or, Bool.not_eq_true] at named
    intro rune present
    have absent := named.2.2.2
    rw [containsAny, List.any_eq_false] at absent
    have other := absent rune present
    simp at other
    exact ⟨other.2.2.1, other.2.2.2⟩

end Validation

section Policies

theorem mem_addCacheScope (kept : List String) (scope name : String) :
    name ∈ addCacheScope kept scope ↔ name ∈ kept ∨ trimScope scope = name ∧ name ≠ "" := by
  unfold addCacheScope
  by_cases blank : trimScope scope = ""
  · rw [if_pos (.inl blank)]
    grind
  · by_cases seen : trimScope scope ∈ kept
    · rw [if_pos (.inr seen)]
      grind
    · rw [if_neg (not_or.mpr ⟨blank, seen⟩), List.mem_append, List.mem_singleton]
      grind

theorem mem_uniqueCacheScopes (scopes : List String) (name : String) :
    name ∈ uniqueCacheScopes scopes ↔ name ≠ "" ∧ ∃ scope ∈ scopes, trimScope scope = name := by
  suffices grown : ∀ kept : List String, name ∈ scopes.foldl addCacheScope kept ↔
      name ∈ kept ∨ name ≠ "" ∧ ∃ scope ∈ scopes, trimScope scope = name by
    simpa [uniqueCacheScopes] using grown []
  induction scopes with
  | nil => simp
  | cons scope rest ih =>
      intro kept
      rw [List.foldl_cons, ih, mem_addCacheScope, List.exists_mem_cons_iff]
      grind

/-- The pattern of everything under a scope. -/
def scopePattern (cachePrefix scope : String) : String := cachePrefix ++ "/" ++ scope ++ "/*"

def grantsFor (bucket cachePrefix : String) (kept : List String) : ReadGrants where
  resources := kept.map fun scope => objectResource bucket (scopePattern cachePrefix scope)
  prefixes := kept.map fun scope => scopePattern cachePrefix scope

theorem objectResource_inj (bucket first second : String) :
    objectResource bucket first = objectResource bucket second ↔ first = second :=
  String.append_right_inj _

theorem scopePattern_inj (cachePrefix first second : String) :
    scopePattern cachePrefix first = scopePattern cachePrefix second ↔ first = second :=
  (String.append_left_inj _).trans (String.append_right_inj _)

theorem mem_grantsFor (bucket cachePrefix scope : String) (kept : List String) :
    objectResource bucket (scopePattern cachePrefix scope) ∈
      (grantsFor bucket cachePrefix kept).resources ↔ scope ∈ kept := by
  simp [grantsFor, objectResource_inj, scopePattern_inj]

/-- The loop keeps the scopes that `uniqueCacheScopes` keeps. -/
theorem collectReadScopes_ok (bucket cachePrefix : String) (scopes kept : List String)
    (grants : ReadGrants) (collected : collectReadScopes bucket cachePrefix
      (grantsFor bucket cachePrefix kept) scopes = .ok grants) :
    grants = grantsFor bucket cachePrefix (scopes.foldl addCacheScope kept) ∧
      ∀ scope ∈ scopes, trimScope scope ≠ "" → validateCachePrefix (trimScope scope) = .ok () := by
  induction scopes generalizing kept with
  | nil =>
      cases collected
      simp
  | cons scope rest ih =>
      rw [collectReadScopes] at collected
      simp only at collected
      by_cases blank : trimScope scope = ""
      · rw [if_pos blank] at collected
        have skipped : addCacheScope kept scope = kept := if_pos (.inl blank)
        rw [List.foldl_cons, skipped]
        have tail := ih kept collected
        exact ⟨tail.1, by simpa [blank] using tail.2⟩
      · rw [if_neg blank] at collected
        cases valid : validateCachePrefix (trimScope scope) with
        | error err =>
            rw [valid] at collected
            cases collected
        | ok done =>
            rw [valid] at collected
            simp only at collected
            have repeated := mem_grantsFor bucket cachePrefix (trimScope scope) kept
            rw [scopePattern] at repeated
            by_cases seen : trimScope scope ∈ kept
            · rw [if_pos (repeated.mpr seen)] at collected
              have skipped : addCacheScope kept scope = kept := if_pos (.inr seen)
              rw [List.foldl_cons, skipped]
              have tail := ih kept collected
              exact ⟨tail.1, by simpa [valid] using tail.2⟩
            · rw [if_neg fun member => seen (repeated.mp member)] at collected
              have added : addCacheScope kept scope = kept ++ [trimScope scope] :=
                if_neg (not_or.mpr ⟨blank, seen⟩)
              rw [List.foldl_cons, added]
              have tail := ih (kept ++ [trimScope scope]) (by
                rw [grantsFor, List.map_append, List.map_append]
                exact collected)
              exact ⟨tail.1, by simpa [valid] using tail.2⟩

/-- A policy that was sent, from the parts that were validated. -/
structure Built (bucket cachePrefix ownScope : String) (readScopes : List String)
    (policy : Policy) : Prop where
  bucketValid : validateCacheBucket (trimSpace bucket) = .ok ()
  prefixValid : validateCachePrefix (normalizeCachePrefix cachePrefix) = .ok ()
  readValid : ∀ scope ∈ uniqueCacheScopes readScopes, validateCachePrefix scope = .ok ()
  readable : uniqueCacheScopes readScopes ≠ []
  ownValid : trimScope ownScope ≠ "" → validateCachePrefix (trimScope ownScope) = .ok ()
  shape : policy =
    readStatements (trimSpace bucket)
      (grantsFor (trimSpace bucket) (normalizeCachePrefix cachePrefix)
        (uniqueCacheScopes readScopes)) ++
    if trimScope ownScope = "" then [] else
      [{ actions := writeActions
         resources := [objectResource (trimSpace bucket)
           (scopePattern (normalizeCachePrefix cachePrefix) (trimScope ownScope))] }]

theorem cacheSTSPolicy_built (bucket cachePrefix ownScope : String) (readScopes : List String)
    (policy : Policy) (sent : cacheSTSPolicy bucket cachePrefix ownScope readScopes = .ok policy) :
    Built bucket cachePrefix ownScope readScopes policy := by
  unfold cacheSTSPolicy at sent
  simp only at sent
  cases bucketValid : validateCacheBucket (trimSpace bucket) with
  | error err => simp [bucketValid] at sent
  | ok done =>
  cases prefixValid : validateCachePrefix (normalizeCachePrefix cachePrefix) with
  | error err => simp [bucketValid, prefixValid] at sent
  | ok done =>
  cases collected : collectReadScopes (trimSpace bucket) (normalizeCachePrefix cachePrefix) {}
      readScopes with
  | error err => simp [bucketValid, prefixValid, collected] at sent
  | ok grants =>
  obtain ⟨rfl, valid⟩ := collectReadScopes_ok _ _ readScopes [] grants collected
  change collectReadScopes _ _ _ _ = .ok (grantsFor _ _ (uniqueCacheScopes readScopes)) at collected
  simp only [bucketValid, prefixValid, collected] at sent
  by_cases none : uniqueCacheScopes readScopes = []
  · simp [none, grantsFor] at sent
  · rw [if_neg (by simpa [grantsFor] using none)] at sent
    refine ⟨bucketValid, prefixValid, ?_, none, ?_, ?_⟩
    · intro scope member
      obtain ⟨present, raw, listed, rfl⟩ := (mem_uniqueCacheScopes readScopes scope).mp member
      exact valid raw listed present
    · intro present
      cases ownValid : validateCachePrefix (trimScope ownScope) with
      | error err => simp [writeStatements, present, ownValid] at sent
      | ok done => rfl
    · by_cases blank : trimScope ownScope = ""
      · simp only [writeStatements, blank, if_true, Except.ok.injEq] at sent ⊢
        exact sent.symm
      · cases ownValid : validateCachePrefix (trimScope ownScope) with
        | error err => simp [writeStatements, blank, ownValid] at sent
        | ok done =>
            simp only [writeStatements, blank, ownValid, if_false, Except.ok.injEq] at sent ⊢
            exact sent.symm

/-- The object key lies under the scope. -/
def Under (cachePrefix scope key : String) : Prop :=
  ∃ rest, key = cachePrefix ++ "/" ++ scope ++ "/" ++ rest

theorem like_scopePattern (lead cachePrefix scope text : String) (plainLead : Plain lead.toList)
    (plainPrefix : Plain cachePrefix.toList) (plainScope : Plain scope.toList) :
    like (lead ++ scopePattern cachePrefix scope) text = true ↔
      ∃ key, Under cachePrefix scope key ∧ text = lead ++ key := by
  have split : (lead ++ scopePattern cachePrefix scope).toList =
      (lead ++ (cachePrefix ++ "/" ++ scope ++ "/")).toList ++ ['*'] := by
    simp [scopePattern, String.toList_append]
  have slash : Plain "/".toList := by
    rintro rune member
    have same : rune = '/' := by simpa using member
    subst same
    decide
  have plain : Plain (lead ++ (cachePrefix ++ "/" ++ scope ++ "/")).toList := by
    simp only [String.toList_append, plain_append]
    exact ⟨plainLead, ⟨⟨plainPrefix, slash⟩, plainScope⟩, slash⟩
  rw [like, split, covers_iff _ _ plain]
  constructor
  · rintro ⟨rest, whole⟩
    refine ⟨_, ⟨String.ofList rest, rfl⟩, ?_⟩
    rw [← String.toList_inj, ← whole]
    simp [String.toList_append]
  · rintro ⟨key, ⟨rest, rfl⟩, rfl⟩
    exact ⟨rest.toList, by simp [String.toList_append]⟩

theorem like_resource (bucket cachePrefix scope resource : String)
    (bucketValid : validateCacheBucket (trimSpace bucket) = .ok ())
    (prefixValid : validateCachePrefix cachePrefix = .ok ())
    (scopeValid : validateCachePrefix scope = .ok ())
    (allowed : like (objectResource (trimSpace bucket) (scopePattern cachePrefix scope)) resource =
      true) :
    ∃ key, Under cachePrefix scope key ∧ resource = objectResource (trimSpace bucket) key := by
  have plainBucket : Plain (trimSpace bucket).toList := by
    have plain := plain_of_validBucket (trimSpace bucket) bucketValid
    rwa [trimSpace_idem] at plain
  have lead : Plain ("qrn:kodo:::bucket/" ++ trimSpace bucket ++ "/").toList := by
    simp only [String.toList_append, plain_append]
    refine ⟨⟨?_, plainBucket⟩, ?_⟩
    · simp [Plain]
    · simp [Plain]
  exact (like_scopePattern _ cachePrefix scope resource lead (plain_of_valid _ prefixValid)
    (plain_of_valid _ scopeValid)).mp allowed

theorem like_listed (cachePrefix scope value : String)
    (prefixValid : validateCachePrefix cachePrefix = .ok ())
    (scopeValid : validateCachePrefix scope = .ok ())
    (allowed : like (scopePattern cachePrefix scope) value = true) :
    Under cachePrefix scope value := by
  have plain := like_scopePattern "" cachePrefix scope value (by simp [Plain])
    (plain_of_valid _ prefixValid) (plain_of_valid _ scopeValid)
  rw [String.empty_append] at plain
  obtain ⟨key, under, rfl⟩ := plain.mp allowed
  rwa [String.empty_append]

/-- A bucket name that was validated matches itself only. -/
theorem like_bucket (bucket resource : String)
    (bucketValid : validateCacheBucket (trimSpace bucket) = .ok ())
    (allowed : like ("qrn:kodo:::bucket/" ++ trimSpace bucket) resource = true) :
    resource = "qrn:kodo:::bucket/" ++ trimSpace bucket := by
  have plainBucket : Plain (trimSpace bucket).toList := by
    have plain := plain_of_validBucket (trimSpace bucket) bucketValid
    rwa [trimSpace_idem] at plain
  have plain : Plain ("qrn:kodo:::bucket/" ++ trimSpace bucket).toList := by
    simp only [String.toList_append, plain_append]
    exact ⟨by simp [Plain], plainBucket⟩
  exact String.toList_inj.mp ((wildMatch_self _ _ plain).mp allowed)

/-- Everything a policy that was sent permits. -/
theorem built_permits {bucket cachePrefix ownScope : String} {readScopes : List String}
    {policy : Policy} (built : Built bucket cachePrefix ownScope readScopes policy)
    (request : Request) (allowed : permits policy request = true) :
    (request.action ∈ writeActions ∧ trimScope ownScope ≠ "" ∧
      ∃ key, Under (normalizeCachePrefix cachePrefix) (trimScope ownScope) key ∧
        request.resource = objectResource (trimSpace bucket) key) ∨
    (request.action ∈ readActions ∧ ∃ scope ∈ uniqueCacheScopes readScopes,
      ∃ key, Under (normalizeCachePrefix cachePrefix) scope key ∧
        request.resource = objectResource (trimSpace bucket) key) ∨
    (request.action ∈ bucketActions ∧
      request.resource = "qrn:kodo:::bucket/" ++ trimSpace bucket ∧
      ∃ scope ∈ uniqueCacheScopes readScopes, ∃ key,
        request.context "kodo:prefix" = some key ∧
          Under (normalizeCachePrefix cachePrefix) scope key) := by
  rw [built.shape, readStatements] at allowed
  simp only [List.cons_append, List.nil_append, permits_cons, Bool.or_eq_true,
    Statement.permits_iff] at allowed
  rcases allowed with ⟨listing, ⟨pattern, listed, matched⟩, condition⟩ |
      ⟨reading, ⟨pattern, listed, matched⟩, _⟩ | writing
  · refine .inr (.inr ⟨listing, ?_, ?_⟩)
    · rw [List.mem_singleton.mp listed] at matched
      exact like_bucket bucket _ built.bucketValid matched
    · obtain ⟨value, known, pattern, granted, matched⟩ :=
        condition _ (List.mem_singleton.mpr rfl)
      obtain ⟨scope, member, rfl⟩ := List.mem_map.mp granted
      exact ⟨scope, member, value, known,
        like_listed _ scope value built.prefixValid (built.readValid scope member) matched⟩
  · obtain ⟨scope, member, rfl⟩ := List.mem_map.mp listed
    exact .inr (.inl ⟨reading, scope, member, like_resource bucket _ scope _ built.bucketValid
      built.prefixValid (built.readValid scope member) matched⟩)
  · by_cases blank : trimScope ownScope = ""
    · simp [blank] at writing
    · rw [if_neg blank, permits_cons, permits_nil, Bool.or_false, Statement.permits_iff] at writing
      obtain ⟨action, ⟨pattern, listed, matched⟩, _⟩ := writing
      rw [List.mem_singleton.mp listed] at matched
      exact .inl ⟨action, blank, like_resource bucket _ _ _ built.bucketValid built.prefixValid
        (built.ownValid blank) matched⟩

end Policies

section Decisions

/-- Whose cache a scope holds. -/
inductive CacheScope where
  | pullRequest (number : Int)
  | branch (name : String)
  deriving DecidableEq, Repr

variable (digest : BranchDigest)

def CacheScope.path : CacheScope → String
  | .pullRequest number => scopeForPR number
  | .branch name => scopeForBranch digest name

def runEvent (run : WorkflowRun) : String := toLower (trimSpace run.event)

/-- The run is of a pull request into this repository. -/
structure PullRequestInto (gh : GitHubMetadata) (repository : String) (run : WorkflowRun)
    (pull : PullRequest) : Prop where
  event : runEvent run = "pull_request"
  found : ∃ first ∈ run.pullRequests.head?,
    gh.getPullRequest repository first.number = .ok pull ∧ pull.number = first.number
  positive : 0 < pull.number
  base : equalFold (trimSpace pull.base.repository.fullName) repository = true

/-- The run is of a trusted event on a branch of this repository. -/
structure TrustedBranch (repository : String) (run : WorkflowRun) : Prop where
  event : cacheWriteTrustedEvent (runEvent run) = true
  head : equalFold (trimSpace run.headRepository.fullName) repository = true
  base : equalFold (trimSpace run.repository.fullName) repository = true
  named : trimSpace run.headBranch ≠ ""

/-- The scopes a job of this run may write. -/
inductive MayWrite (gh : GitHubMetadata) (repository : String) (run : WorkflowRun) :
    CacheScope → Prop
  | pullRequest {pull : PullRequest} (into : PullRequestInto gh repository run pull) :
      MayWrite gh repository run (.pullRequest pull.number)
  | branch (trusted : TrustedBranch repository run) :
      MayWrite gh repository run (.branch (trimSpace run.headBranch))

/-- The scopes a job may read, if GitHub returned this run for it at all. -/
inductive MayRead (gh : GitHubMetadata) (repository defaultBranch : String)
    (run : WorkflowRun → Prop) : CacheScope → Prop
  | own {found : WorkflowRun} {scope : CacheScope} (known : run found)
      (writes : MayWrite gh repository found scope) :
      MayRead gh repository defaultBranch run scope
  | base {found : WorkflowRun} {pull : PullRequest} (known : run found)
      (into : PullRequestInto gh repository found pull) :
      MayRead gh repository defaultBranch run (.branch (trimSpace pull.base.ref))
  | default : MayRead gh repository defaultBranch run (.branch defaultBranch)

/-- The run that GitHub returned for a workflow run id. -/
def RunFor (gh : GitHubMetadata) (repository : String) (workflowRunID : Int) (run : WorkflowRun) :
    Prop :=
  0 < workflowRunID ∧ gh.workflowRunForCache repository workflowRunID = .ok run

/-- Every default branch GitHub names for the repository is the repository's. -/
structure TruthfulDefault (gh : GitHubMetadata) (repository defaultBranch : String) : Prop where
  metadata : ∀ metadata, gh.getRepository repository = .ok metadata →
    equalFold (trimSpace metadata.fullName) repository = true →
    trimSpace metadata.defaultBranch ≠ "" → trimSpace metadata.defaultBranch = defaultBranch
  run : ∀ workflowRunID run, gh.workflowRunForCache repository workflowRunID = .ok run →
    trimSpace run.repository.defaultBranch ≠ "" →
    trimSpace run.repository.defaultBranch = defaultBranch

theorem hex_segment (branch : String) : Segment ("branch-" ++ digest.hex branch) := by
  apply segment_append
  · exact segment_of_all _ (by decide)
  · have digits : Segment "0123456789abcdef" := segment_of_all _ (by decide)
    exact fun rune member => digits rune (digest.digits branch rune member)

/-- A scope's path is one segment under `scopes`. -/
theorem path_segment (scope : CacheScope) :
    ∃ segment, scope.path digest = "scopes/" ++ segment ∧ Segment segment ∧ segment ≠ "" := by
  cases scope with
  | pullRequest number =>
      by_cases positive : 0 < number
      · refine ⟨"pr-" ++ toString number, ?_, ?_, ?_⟩
        · rw [CacheScope.path, scopeForPR, if_neg (by omega), ← String.append_assoc]
          rfl
        · exact segment_append _ _ (segment_of_all _ (by decide)) (segment_toString number)
        · simp
      · refine ⟨"pr-unknown", ?_, segment_of_all _ (by decide), by decide⟩
        rw [CacheScope.path, scopeForPR, if_pos (by omega)]
        rfl
  | branch name =>
      refine ⟨"branch-" ++ digest.hex (hashedBranch name), ?_, hex_segment digest _, by simp⟩
      rw [CacheScope.path, scopeForBranch, ← String.append_assoc]
      rfl

theorem trimScope_path (scope : CacheScope) :
    trimScope (scope.path digest) = scope.path digest ∧ scope.path digest ≠ "" := by
  obtain ⟨segment, path, clean, present⟩ := path_segment digest scope
  rw [path]
  exact ⟨trimScope_self segment clean present, by simp⟩

theorem hashedBranch_trimSpace (branch : String) :
    hashedBranch (trimSpace branch) = hashedBranch branch := by
  rw [hashedBranch, trimSpace_idem, hashedBranch]

theorem scopeForBranch_trimSpace (branch : String) :
    scopeForBranch digest (trimSpace branch) = scopeForBranch digest branch := by
  rw [scopeForBranch, hashedBranch_trimSpace, scopeForBranch]

/-- What every decision keeps to. -/
structure Scoped (writes reads : CacheScope → Prop) (decision : CacheScopeDecision) : Prop where
  writeScope : decision.writeScope = "" ∨
    ∃ scope, writes scope ∧ decision.writeScope = scope.path digest
  readScopes : ∀ text ∈ decision.readScopes, ∃ scope, reads scope ∧ text = scope.path digest

variable {digest} {gh : GitHubMetadata} {repository defaultBranch : String}
  {known : WorkflowRun → Prop} {run : WorkflowRun} {writes reads : CacheScope → Prop}

theorem Scoped.mono {decision : CacheScopeDecision} {writes' reads' : CacheScope → Prop}
    (kept : Scoped digest writes reads decision) (more : ∀ scope, writes scope → writes' scope)
    (further : ∀ scope, reads scope → reads' scope) : Scoped digest writes' reads' decision where
  writeScope := kept.writeScope.imp_right fun ⟨scope, own, same⟩ => ⟨scope, more scope own, same⟩
  readScopes text member :=
    have ⟨scope, own, same⟩ := kept.readScopes text member
    ⟨scope, further scope own, same⟩

theorem scoped_noCache (reason : String) : Scoped digest writes reads (noCache reason) where
  writeScope := .inl rfl
  readScopes := by simp [noCache]

theorem scoped_readOnly (scope : CacheScope) (reason : String) (readable : reads scope) :
    Scoped digest writes reads (readOnly (scope.path digest) reason) where
  writeScope := .inl rfl
  readScopes _ member := ⟨scope, readable, List.mem_singleton.mp member⟩

theorem unique_scoped (texts : List String)
    (each : ∀ text ∈ texts, ∃ scope, reads scope ∧ text = CacheScope.path digest scope)
    (text : String) (member : text ∈ uniqueCacheScopes texts) :
    ∃ scope, reads scope ∧ text = CacheScope.path digest scope := by
  obtain ⟨_, raw, listed, rfl⟩ := (mem_uniqueCacheScopes texts text).mp member
  obtain ⟨scope, own, rfl⟩ := each raw listed
  exact ⟨scope, own, (trimScope_path digest scope).1⟩

theorem resolved_default (truthful : TruthfulDefault gh repository defaultBranch) (reason : String) :
    (∃ why, resolveRepositoryDefaultScope digest (some gh) repository reason = .error (noCache why)) ∨
      resolveRepositoryDefaultScope digest (some gh) repository reason =
        .ok ((CacheScope.branch defaultBranch).path digest) := by
  unfold resolveRepositoryDefaultScope
  cases answer : gh.getRepository repository with
  | error err =>
      simp only [answer]
      exact .inl ⟨reason, rfl⟩
  | ok metadata =>
      simp only [answer]
      by_cases untrusted : equalFold (trimSpace metadata.fullName) repository = false ∨
          trimSpace metadata.defaultBranch = ""
      · rw [if_pos untrusted]
        exact .inl ⟨_, rfl⟩
      · rw [if_neg untrusted]
        rw [not_or, Bool.not_eq_false] at untrusted
        have same := truthful.metadata metadata answer untrusted.1 untrusted.2
        rw [CacheScope.path, ← same, scopeForBranch_trimSpace]
        exact .inr rfl

theorem equalFold_trans (first second third : String) (left : equalFold first second = true)
    (right : equalFold second third = true) : equalFold first third = true := by
  rw [equalFold, beq_iff_eq] at *
  exact left.trans right

/-- The scopes of one run, its own and those it may only read. -/
def RunReads (gh : GitHubMetadata) (repository defaultBranch : String) (run : WorkflowRun) :
    CacheScope → Prop :=
  MayRead gh repository defaultBranch fun found => found = run

theorem pullRequestScopes_scoped (event : runEvent run = "pull_request") :
    Scoped digest (MayWrite gh repository run) (RunReads gh repository defaultBranch run)
      (pullRequestScopes digest gh repository run ((CacheScope.branch defaultBranch).path digest)) := by
  have unreadable (reason : String) : Scoped digest (MayWrite gh repository run)
      (RunReads gh repository defaultBranch run)
      (readOnly ((CacheScope.branch defaultBranch).path digest) reason) :=
    scoped_readOnly _ reason MayRead.default
  unfold pullRequestScopes
  cases pulls : run.pullRequests with
  | nil => exact unreadable _
  | cons first rest =>
  simp only
  by_cases unnumbered : first.number ≤ 0
  · rw [if_pos unnumbered]
    exact unreadable _
  rw [if_neg unnumbered]
  cases answer : gh.getPullRequest repository first.number with
  | error err => exact unreadable _
  | ok pull =>
  simp only
  split
  · exact unreadable _
  rename_i trusted
  simp only [not_or, not_not, Bool.not_eq_false] at trusted
  have into : PullRequestInto gh repository run pull :=
    ⟨event, ⟨first, by simp [pulls], answer, trusted.1⟩, by omega, trusted.2.2.2.2⟩
  constructor
  · exact .inr ⟨_, .pullRequest into, rfl⟩
  · intro text member
    simp only at member
    refine unique_scoped _ (fun text listed => ?_) text member
    simp only [List.mem_cons, List.not_mem_nil, or_false] at listed
    rcases listed with rfl | rfl | rfl
    · exact ⟨_, .own rfl (.pullRequest into), rfl⟩
    · exact ⟨_, .base rfl into, rfl⟩
    · exact ⟨_, .default, rfl⟩

theorem branchScopes_scoped :
    Scoped digest (MayWrite gh repository run) (RunReads gh repository defaultBranch run)
      (branchScopes digest repository (runEvent run) run
        ((CacheScope.branch defaultBranch).path digest)) := by
  have unreadable (reason : String) : Scoped digest (MayWrite gh repository run)
      (RunReads gh repository defaultBranch run)
      (readOnly ((CacheScope.branch defaultBranch).path digest) reason) :=
    scoped_readOnly _ reason MayRead.default
  unfold branchScopes
  simp only
  split
  · exact unreadable _
  rename_i own
  by_cases unnamed : trimSpace run.headBranch = ""
  · rw [if_pos unnamed]
    exact unreadable _
  rw [if_neg unnamed]
  by_cases untrusted : cacheWriteTrustedEvent (runEvent run) = false
  · rw [if_pos untrusted]
    exact unreadable _
  rw [if_neg untrusted]
  simp only [not_or, Bool.not_eq_false] at own untrusted
  have trusted : TrustedBranch repository run :=
    ⟨untrusted, equalFold_trans _ _ _ own.2.2.2 own.2.2.1, own.2.2.1, unnamed⟩
  constructor
  · exact .inr ⟨_, .branch trusted, rfl⟩
  · intro text member
    simp only at member
    refine unique_scoped _ (fun text listed => ?_) text member
    simp only [List.mem_cons, List.not_mem_nil, or_false] at listed
    rcases listed with rfl | rfl
    · exact ⟨_, .own rfl (.branch trusted), rfl⟩
    · exact ⟨_, .default, rfl⟩

theorem runScopes_scoped :
    Scoped digest (MayWrite gh repository run) (RunReads gh repository defaultBranch run)
      (runScopes digest gh repository run ((CacheScope.branch defaultBranch).path digest)) := by
  unfold runScopes
  simp only
  by_cases pulls : runEvent run = "pull_request"
  · rw [← runEvent, if_pos pulls]
    exact pullRequestScopes_scoped pulls
  · rw [← runEvent, if_neg pulls]
    split
    · exact scoped_readOnly _ _ MayRead.default
    · exact branchScopes_scoped

/-- The scopes a decision names are scopes the job may write and read. -/
theorem decided_scopes (truthful : TruthfulDefault gh repository defaultBranch)
    (workflowRunID : Int) (decision : CacheScopeDecision)
    (decided : cacheScopesForWorkflow digest (some gh) repository workflowRunID = some decision) :
    Scoped digest
      (fun scope => ∃ run, RunFor gh repository workflowRunID run ∧
        MayWrite gh repository run scope)
      (MayRead gh repository defaultBranch (RunFor gh repository workflowRunID)) decision := by
  let writes : CacheScope → Prop := fun scope =>
    ∃ run, RunFor gh repository workflowRunID run ∧ MayWrite gh repository run scope
  let reads := MayRead gh repository defaultBranch (RunFor gh repository workflowRunID)
  -- a decision that needs the repository's default branch ends without a cache
  -- or goes on with its scope
  have resolved (next : String → CacheScopeDecision)
      (each : Scoped digest writes reads (next ((CacheScope.branch defaultBranch).path digest))) :
      Scoped digest writes reads
        (withDefaultScope (resolveRepositoryDefaultScope digest (some gh) repository
          "no_cache_repository_lookup_failed") next) := by
    rcases @resolved_default digest gh repository defaultBranch truthful
        "no_cache_repository_lookup_failed" with ⟨why, failed⟩ | found
    · rw [failed]
      exact scoped_noCache why
    · rw [found]
      exact each
  unfold cacheScopesForWorkflow at decided
  simp only at decided
  by_cases missing : workflowRunID ≤ 0
  · rw [if_pos missing] at decided
    rw [← Option.some.inj decided]
    exact resolved _ (scoped_readOnly _ _ MayRead.default)
  rw [if_neg missing] at decided
  cases answer : gh.workflowRunForCache repository workflowRunID with
  | error err =>
      simp only [answer] at decided
      rw [← Option.some.inj decided]
      exact resolved _ (scoped_readOnly _ _ MayRead.default)
  | ok run =>
      have known : RunFor gh repository workflowRunID run := ⟨by omega, answer⟩
      have own : Scoped digest writes reads
          (runScopes digest gh repository run ((CacheScope.branch defaultBranch).path digest)) := by
        have scopes := @runScopes_scoped digest gh repository defaultBranch run
        refine scopes.mono (fun scope own => ⟨run, known, own⟩) fun scope readable => ?_
        cases readable with
        | own same own => exact .own (same ▸ known) own
        | base same into => exact .base (same ▸ known) into
        | default => exact .default
      simp only [answer] at decided
      by_cases named : trimSpace run.repository.defaultBranch ≠ ""
      · rw [if_pos named, truthful.run _ run answer named] at decided
        rw [← Option.some.inj decided]
        exact own
      · rw [if_neg named] at decided
        rw [← Option.some.inj decided]
        exact resolved _ own

end Decisions

section Isolation

/-- Branch names that the truncated hash tells apart. -/
structure BranchNames (digest : BranchDigest) (branches : Set String) : Prop where
  trimmed : ∀ name ∈ branches, trimSpace name = name
  named : ∀ name ∈ branches, name ≠ ""
  plain : ∀ name ∈ branches, hasPrefix name "refs/" = false
  distinct : Set.InjOn digest.hex branches

/-- A pull request or one of the branches. -/
def Scoping (branches : Set String) : CacheScope → Prop
  | .pullRequest number => 0 < number
  | .branch name => name ∈ branches

theorem hashedBranch_named {digest : BranchDigest} {branches : Set String}
    (names : BranchNames digest branches) (name : String) (member : name ∈ branches) :
    hashedBranch name = name := by
  have unprefixed : hasPrefix name "refs/heads/" = false := by
    rw [← Bool.not_eq_true]
    intro lead
    have shorter : hasPrefix name "refs/" = true := by
      rw [hasPrefix, List.isPrefixOf_iff_prefix] at lead ⊢
      exact (show "refs/".toList <+: "refs/heads/".toList by decide).trans lead
    rw [names.plain name member] at shorter
    cases shorter
  rw [hashedBranch, names.trimmed name member, trimPrefix, unprefixed]
  exact if_neg (names.named name member)

theorem path_inj {digest : BranchDigest} {branches : Set String}
    (names : BranchNames digest branches) (first second : CacheScope)
    (left : Scoping branches first) (right : Scoping branches second)
    (same : first.path digest = second.path digest) : first = second := by
  have letters := congrArg (fun path => path.toList[7]?) same
  cases first with
  | pullRequest n =>
      rw [CacheScope.path, scopeForPR, if_neg (Int.not_le.mpr left)] at same letters
      cases second with
      | pullRequest m =>
          rw [CacheScope.path, scopeForPR, if_neg (Int.not_le.mpr right)] at same
          rw [toString_inj n m ((String.append_right_inj _).mp same)]
      | branch name => simp [CacheScope.path, scopeForBranch, String.toList_append] at letters
  | branch name =>
      cases second with
      | pullRequest m =>
          rw [CacheScope.path, CacheScope.path, scopeForPR, if_neg (Int.not_le.mpr right)] at letters
          simp [scopeForBranch, String.toList_append] at letters
      | branch other =>
          have hashes := (String.append_right_inj _).mp same
          rw [hashedBranch_named names name left, hashedBranch_named names other right] at hashes
          rw [names.distinct left right hashes]

/-- A key lies under one scope. -/
theorem under_unique (digest : BranchDigest) (cachePrefix key : String) (first second : CacheScope)
    (left : Under cachePrefix (first.path digest) key)
    (right : Under cachePrefix (second.path digest) key) :
    first.path digest = second.path digest := by
  obtain ⟨segment, path, clean, _⟩ := path_segment digest first
  obtain ⟨segment', path', clean', _⟩ := path_segment digest second
  obtain ⟨rest, whole⟩ := left
  obtain ⟨rest', whole'⟩ := right
  rw [path] at whole
  rw [path'] at whole'
  have runes := congrArg String.toList (whole.symm.trans whole')
  simp only [String.toList_append, List.append_assoc, List.append_cancel_left_eq] at runes
  have cut (text : String) (segmented : Segment text) (rest : List Char) :
      (text.toList ++ ("/".toList ++ rest)).takeWhile (fun rune => rune != '/') = text.toList := by
    rw [List.takeWhile_append_of_pos fun rune member => by simpa using (segmented rune member).2]
    simp
  have segments := congrArg (List.takeWhile fun rune => rune != '/') runes
  rw [cut segment clean, cut segment' clean', String.toList_inj] at segments
  rw [path, path', segments]

/-- A request that stays within the scopes of a job: writes are to the job's own
scope and to no other, reads and listings are of a scope it may read. -/
inductive Isolated (digest : BranchDigest) (gh : GitHubMetadata)
    (repository defaultBranch base bucket : String) (workflowRunID : Int) (branches : Set String)
    (request : Request) : Prop
  | write {run : WorkflowRun} {scope : CacheScope} {key : String}
      (action : request.action ∈ writeActions)
      (known : RunFor gh repository workflowRunID run) (writes : MayWrite gh repository run scope)
      (resource : request.resource = objectResource (trimSpace bucket) key)
      (under : Under base (scope.path digest) key)
      (only : ∀ other, Scoping branches other → Under base (other.path digest) key → other = scope)
  | read {scope : CacheScope} {key : String} (action : request.action ∈ readActions)
      (reads : MayRead gh repository defaultBranch (RunFor gh repository workflowRunID) scope)
      (resource : request.resource = objectResource (trimSpace bucket) key)
      (under : Under base (scope.path digest) key)
  | list {scope : CacheScope} {value : String} (action : request.action ∈ bucketActions)
      (reads : MayRead gh repository defaultBranch (RunFor gh repository workflowRunID) scope)
      (resource : request.resource = "qrn:kodo:::bucket/" ++ trimSpace bucket)
      (listed : request.context "kodo:prefix" = some value)
      (under : Under base (scope.path digest) value)

/-- What the policy of a job's cache credential permits. The keys start with the
configured prefix and the repository, without the blanks around the two and the
slash that `generateCacheSTS` drops at each end. -/
theorem cache_isolated (digest : BranchDigest) (gh : GitHubMetadata)
    (repository defaultBranch cachePrefix bucket : String) (workflowRunID : Int)
    (truthful : TruthfulDefault gh repository defaultBranch)
    (branches : Set String) (names : BranchNames digest branches)
    (heads : ∀ run, RunFor gh repository workflowRunID run → trimSpace run.headBranch ≠ "" →
      trimSpace run.headBranch ∈ branches)
    (decision : CacheScopeDecision)
    (decided : cacheScopesForWorkflow digest (some gh) repository workflowRunID = some decision)
    (policy : Policy)
    (sent : cacheSTSPolicy bucket (cachePrefix ++ "/" ++ repository) decision.writeScope
      decision.readScopes = .ok policy)
    (request : Request) (allowed : permits policy request = true) :
    Isolated digest gh repository defaultBranch
      (normalizeCachePrefix (cachePrefix ++ "/" ++ repository)) bucket workflowRunID branches
      request := by
  have kept := decided_scopes truthful workflowRunID decision decided
  have readable (text : String) (member : text ∈ uniqueCacheScopes decision.readScopes) :=
    unique_scoped decision.readScopes kept.readScopes text member
  rcases built_permits (cacheSTSPolicy_built _ _ _ _ policy sent) request allowed with
    ⟨action, present, key, under, resource⟩ | ⟨action, text, member, key, under, resource⟩ |
    ⟨action, resource, text, member, key, value, under⟩
  · rcases kept.writeScope with none | ⟨scope, ⟨run, known, writes⟩, own⟩
    · rw [none] at present
      exact absurd rfl present
    rw [own, (trimScope_path digest scope).1] at under
    refine .write action known writes resource under fun other listed beneath => ?_
    have own : Scoping branches scope := by
      cases writes with
      | pullRequest into => exact into.positive
      | branch trusted => exact heads run known trusted.named
    exact path_inj names other scope listed own (under_unique digest _ key other scope beneath under)
  · obtain ⟨scope, reads, rfl⟩ := readable text member
    exact .read action reads resource under
  · obtain ⟨scope, reads, rfl⟩ := readable text member
    exact .list action reads resource value under

def mainDigest : BranchDigest where
  hex branch := if branch = "main" then "0d6e4079e36703ebd37c00722f5891d2" else ""
  digits branch := by
    split
    · intro rune member
      have digits : "0d6e4079e36703ebd37c00722f5891d2".toList.all
          (fun rune => "0123456789abcdef".toList.contains rune) = true := by decide +kernel
      exact List.contains_iff_mem.mp (List.all_eq_true.mp digits rune member)
    · simp

/-- A push to the default branch of the repository. -/
def mainRun : WorkflowRun where
  event := "push"
  headBranch := "main"
  headRepository := { fullName := "octo/repo" }
  repository := { fullName := "octo/repo", defaultBranch := "main" }

def mainGitHub : GitHubMetadata where
  getRepository _ := .ok mainRun.repository
  workflowRunForCache _ _ := .ok mainRun
  getPullRequest _ _ := .error { message := "github pull request: status 404: Not Found" }

def mainScope : String := "scopes/branch-0d6e4079e36703ebd37c00722f5891d2"

def mainDecision : CacheScopeDecision where
  writeScope := mainScope
  readScopes := [mainScope]
  decision := "branch"

theorem mainDecided :
    cacheScopesForWorkflow mainDigest (some mainGitHub) "octo/repo" 9 = some mainDecision := by
  decide +kernel

/-- The policy of the push, for a prefix and its repository. -/
def mainPolicy (cachePrefix : String) : Policy :=
  readStatements "ci-cache" (grantsFor "ci-cache" cachePrefix [mainScope]) ++
    [{ actions := writeActions
       resources := [objectResource "ci-cache" (scopePattern cachePrefix mainScope)] }]

theorem mainSent : cacheSTSPolicy "ci-cache" ("cache" ++ "/" ++ "octo/repo")
    mainDecision.writeScope mainDecision.readScopes = .ok (mainPolicy "cache/octo/repo") := by
  decide +kernel

/-- The blank at the start of the prefix is not in the policy. -/
theorem blankSent : cacheSTSPolicy "ci-cache" (" a" ++ "/" ++ "octo/repo")
    mainDecision.writeScope mainDecision.readScopes = .ok (mainPolicy "a/octo/repo") := by
  decide +kernel

theorem mainTruthful : TruthfulDefault mainGitHub "octo/repo" "main" where
  metadata metadata answer _ _ := by
    cases answer
    decide
  run _ run answer _ := by
    cases answer
    decide

theorem mainNames : BranchNames mainDigest {"main"} where
  trimmed name member := by
    rw [Set.mem_singleton_iff.mp member]
    decide
  named name member := by
    rw [Set.mem_singleton_iff.mp member]
    decide
  plain name member := by
    rw [Set.mem_singleton_iff.mp member]
    decide
  distinct := Set.injOn_singleton _ _

def upload (key : String) : Request where
  action := "kodo/upload"
  resource := objectResource "ci-cache" key
  context _ := none

theorem cache_isolated_push :
    Isolated mainDigest mainGitHub "octo/repo" "main"
      (normalizeCachePrefix ("cache" ++ "/" ++ "octo/repo")) "ci-cache" 9 {"main"}
      (upload "cache/octo/repo/scopes/branch-0d6e4079e36703ebd37c00722f5891d2/deps") :=
  cache_isolated mainDigest mainGitHub "octo/repo" "main" "cache" "ci-cache" 9 mainTruthful {"main"}
    mainNames (fun run known _ => by cases known.2; decide) mainDecision mainDecided
    (mainPolicy "cache/octo/repo") mainSent _ (by decide +kernel)

/-- A prefix that was stored with a leading blank: the policy lets the push
write outside of it. -/
theorem blank_prefix_leaves :
    cacheSTSPolicy "ci-cache" (" a" ++ "/" ++ "octo/repo") mainDecision.writeScope
        mainDecision.readScopes = .ok (mainPolicy "a/octo/repo") ∧
      permits (mainPolicy "a/octo/repo")
        (upload "a/octo/repo/scopes/branch-0d6e4079e36703ebd37c00722f5891d2/deps") = true ∧
      ¬ ∃ run scope key, RunFor mainGitHub "octo/repo" 9 run ∧
        MayWrite mainGitHub "octo/repo" run scope ∧
        Under (" a" ++ "/" ++ "octo/repo") (scope.path mainDigest) key ∧
        objectResource "ci-cache" "a/octo/repo/scopes/branch-0d6e4079e36703ebd37c00722f5891d2/deps" =
          objectResource "ci-cache" key := by
  refine ⟨blankSent, by decide +kernel, ?_⟩
  rintro ⟨run, scope, key, _, _, ⟨rest, rfl⟩, same⟩
  have first := congrArg (fun key => key.toList.head?) ((objectResource_inj _ _ _).mp same)
  simp [String.toList_append] at first

end Isolation

end Runnerd
