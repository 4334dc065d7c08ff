import Runnerd.CacheIsolation

/-!
The cache settings a runner is given, beside the credential they are used with.
The stored prefix is trimmed when it is saved and when it is opened, the
settings and the policy then make their prefixes of it separately.
`prefixes_match_iff` says when the two agree.
-/

namespace Runnerd

open GoText SessionPolicy

section Settings

/-- `accountCacheServicePreferenceValue`. -/
structure CachePreference where
  bucket : String := ""
  cachePrefix : String := ""
  deriving DecidableEq, Repr

/-- What `handleUserSaveCacheConfig` makes of the bucket and prefix it is sent.
An error is a response of status 400. -/
def cachePreferenceFor (bucket cachePrefix : String) : Except GoError CachePreference :=
  let value : CachePreference := ⟨trimSpace bucket, trimScope cachePrefix⟩
  match if value.cachePrefix = "" then .ok () else validateCachePrefix value.cachePrefix with
  | .error err => .error err
  | .ok () =>
      match validateCacheBucket value.bucket with
      | .error err => .error err
      | .ok () => .ok value

structure CacheS3Config where
  region : String
  bucket : String
  cachePrefix : String
  endpoint : String
  accessKeyID : String
  secretAccessKey : String

structure CacheS3 where
  bucket : String
  cachePrefix : String
  region : String
  endpoint : String
  accessKeyID : String
  secretKey : String
  deriving DecidableEq, Repr

def newCacheS3 (config : CacheS3Config) : Except GoError CacheS3 :=
  let region := trimSpace config.region
  let bucket := trimSpace config.bucket
  if region = "" ∨ bucket = "" ∨ trimSpace config.accessKeyID = "" ∨
      trimSpace config.secretAccessKey = "" then
    .error { message := "cache S3 region, bucket, access key, and secret key are required" }
  else
    let cachePrefix := trimScope config.cachePrefix
    .ok
      { bucket
        cachePrefix := if cachePrefix = "" then "gh-actions-cache" else cachePrefix
        region
        endpoint := config.endpoint
        accessKeyID := config.accessKeyID
        secretKey := config.secretAccessKey }

/-- `cacheScopePrefixesJSON`, before it is encoded. -/
def cacheScopePrefixes (cacheBasePrefix : String) (scopes : List String) : List String :=
  (uniqueCacheScopes scopes).map fun scope => trimRight '/' cacheBasePrefix ++ "/" ++ scope

/-- The cache fields of the runner's input. -/
structure CacheInput where
  region : String
  bucket : String
  endpoint : String
  readPrefixes : List String
  writePrefix : String := ""
  accessKeyID : String
  secretKey : String
  sessionToken : String
  deriving DecidableEq, Repr

def cacheSTSHeadroom : Duration := 300 * second

def cacheSTSDurationSeconds (sandboxTimeout : Duration) : Int :=
  let sandboxTimeout := if sandboxTimeout ≤ 0 then 3600 * second else sandboxTimeout
  (sandboxTimeout + cacheSTSHeadroom) / second

/-- The part of `startRunner` that injects the cache settings, once the storage
and the scopes are known. Without a credential nothing is injected. -/
def cacheInput (client : Option CacheSTSClient) (endpoint : String) (sandboxTimeout : Duration)
    (storage : CacheS3) (repository : String) (scopeDecision : CacheScopeDecision) :
    Option CacheInput :=
  let cacheBasePrefix := storage.cachePrefix ++ "/" ++ repository
  match generateCacheSTS client ⟨storage.bucket, storage.accessKeyID, storage.secretKey⟩
      cacheBasePrefix scopeDecision.writeScope scopeDecision.readScopes endpoint
      (cacheSTSDurationSeconds sandboxTimeout) with
  | .error _ => none
  | .ok stsCreds =>
      some
        { region := storage.region
          bucket := storage.bucket
          endpoint := storage.endpoint
          readPrefixes := cacheScopePrefixes cacheBasePrefix scopeDecision.readScopes
          writePrefix :=
            if scopeDecision.writeScope ≠ "" then
              cacheBasePrefix ++ "/" ++ scopeDecision.writeScope
            else ""
          accessKeyID := stsCreds.accessKeyID
          secretKey := stsCreds.secretAccessKey
          sessionToken := stsCreds.sessionToken }

end Settings

section Trims

def startsBlank (text : String) : Bool := text.toList.head?.any isSpace

def endsBlank (text : String) : Bool := text.toList.getLast?.any isSpace

def endsSlash (text : String) : Bool := text.toList.getLast? == some '/'

theorem trimPrefix_slash (text : String) : (trimPrefix text "/").toList =
    if text.toList.head? = some '/' then text.toList.tail else text.toList := by
  unfold trimPrefix hasPrefix
  cases runes : text.toList with
  | nil => simp [runes]
  | cons head rest =>
      by_cases slash : head = '/'
      · simp [slash]
      · simp [slash, Ne.symm slash, runes]

theorem trimSuffix_slash (text : String) : (trimSuffix text "/").toList =
    if text.toList.getLast? = some '/' then text.toList.dropLast else text.toList := by
  unfold trimSuffix hasSuffix
  rcases List.eq_nil_or_concat text.toList with empty | ⟨front, last, split⟩
  · simp [empty]
  · rw [List.concat_eq_append] at split
    by_cases slash : last = '/'
    · simp [split, slash]
    · simp [split, slash, Ne.symm slash]

/-- `normalizeCachePrefix` on runes. -/
def normalizeRunes (runes : List Char) : List Char :=
  let trimmed := trimRunes runes
  let unled := if trimmed.head? = some '/' then trimmed.tail else trimmed
  if unled.getLast? = some '/' then unled.dropLast else unled

theorem normalizeCachePrefix_runes (text : String) :
    (normalizeCachePrefix text).toList = normalizeRunes text.toList := by
  rw [normalizeCachePrefix, trimSuffix_slash, trimPrefix_slash, trimSpace, String.toList_ofList]
  rfl

/-- A prefix that was validated does not end with a slash. -/
theorem valid_last (cachePrefix : String) (valid : validateCachePrefix cachePrefix = .ok ()) :
    cachePrefix.toList ≠ [] ∧ cachePrefix.toList.getLast? ≠ some '/' := by
  unfold validateCachePrefix at valid
  split at valid
  · cases valid
  rename_i present
  refine ⟨fun empty => present (String.toList_eq_nil_iff.mp empty), fun slash => ?_⟩
  obtain ⟨front, split⟩ := List.getLast?_eq_some_iff.mp slash
  have parts : cachePrefix.toList.splitOn '/' = front.splitOn '/' ++ [[]] := by
    rw [split, List.splitOn, List.splitOnP_append_cons _ _ (by simp)]
    rfl
  have component := validateComponents_ok _ valid "" (List.mem_map.mpr ⟨[], by simp [parts], rfl⟩)
  exact component.1 rfl

theorem rdropWhile_kept (blank : Char → Bool) (runes : List Char)
    (back : ∀ rune ∈ runes.getLast?, blank rune = false) : runes.rdropWhile blank = runes := by
  rw [List.rdropWhile_eq_self_iff]
  intro nonempty
  simp [back _ (List.getLast?_eq_some_getLast nonempty)]

theorem suffix_last {tail runes : List Char} (suffix : tail <:+ runes) (some : tail ≠ []) :
    tail.getLast? = runes.getLast? := by
  obtain ⟨front, rfl⟩ := suffix
  rw [List.getLast?_append_of_ne_nil front some]

theorem normalizeRunes_length (runes : List Char) :
    (normalizeRunes runes).length ≤ (trimRunes runes).length := by
  unfold normalizeRunes
  simp only
  split
  · split
    · simp
      omega
    · simp
  · split
    · simp
    · simp

/-- A leading blank is lost by the policy's prefix, and kept by the injected one. -/
theorem normalizeRunes_led (runes : List Char) (blank : Char) (rest : List Char)
    (led : runes = blank :: rest) (isBlank : isSpace blank = true)
    (valid : normalizeRunes runes ≠ [] ∧ (normalizeRunes runes).getLast? ≠ some '/') :
    normalizeRunes runes ≠ runes.rdropWhile (isRune '/') := by
  have shorter : (runes.dropWhile isSpace).length < runes.length := by
    rw [led, List.dropWhile_cons_of_pos isBlank]
    exact Nat.lt_succ_of_le (List.dropWhile_suffix isSpace).length_le
  intro same
  have lengths := congrArg List.length same
  by_cases slash : runes.getLast? = some '/'
  · -- the policy's prefix loses the slash as well, which is the only one
    have trimmed : trimRunes runes = runes.dropWhile isSpace := by
      apply rdropWhile_kept
      intro rune member
      by_cases none : runes.dropWhile isSpace = []
      · simp [none] at member
      · rw [suffix_last (List.dropWhile_suffix isSpace) none, slash] at member
        cases member
        rfl
    let unled := if (trimRunes runes).head? = some '/' then (trimRunes runes).tail else trimRunes runes
    have suffix : unled <:+ runes.dropWhile isSpace := by
      simp only [unled, trimmed]
      split
      · exact List.tail_suffix _
      · exact List.suffix_rfl
    have some : unled ≠ [] := by
      intro none
      apply valid.1
      change (if unled.getLast? = _ then unled.dropLast else unled) = []
      simp [none]
    have last : unled.getLast? = Option.some '/' :=
      (suffix_last (suffix.trans (List.dropWhile_suffix isSpace)) some).trans slash
    have cut : normalizeRunes runes = unled.dropLast := if_pos last
    obtain ⟨front, whole⟩ := List.getLast?_eq_some_iff.mp slash
    obtain ⟨kept, split⟩ := List.getLast?_eq_some_iff.mp last
    rw [cut, split, List.dropLast_concat] at valid lengths
    have inner : kept <:+ front := by
      have suffix' := suffix.trans (List.dropWhile_suffix isSpace)
      rw [split, whole] at suffix'
      obtain ⟨lead, joined⟩ := suffix'
      exact ⟨lead, List.append_inj_left' (by rw [List.append_assoc]; exact joined) rfl⟩
    have frontKept : front.rdropWhile (isRune '/') = front := by
      apply rdropWhile_kept
      intro rune member
      rw [← suffix_last inner valid.1] at member
      rw [isRune, beq_eq_false_iff_ne]
      rintro rfl
      exact valid.2 member
    rw [whole, List.rdropWhile_concat_pos _ _ _ (by rfl), frontKept] at lengths
    have bound := suffix.length_le
    have total := congrArg List.length whole
    rw [split, List.length_append] at bound
    rw [List.length_append] at total
    simp only [List.length_singleton] at bound total
    omega
  · -- nothing is dropped at the end, while the blank at the start goes
    have kept : runes.rdropWhile (isRune '/') = runes := by
      apply rdropWhile_kept
      intro rune member
      rw [isRune, beq_eq_false_iff_ne]
      rintro rfl
      exact slash member
    rw [kept] at lengths
    have bound := (normalizeRunes_length runes).trans
      (List.rdropWhile_prefix isSpace _).length_le
    omega

/-- The two agree when nothing blank is trimmed. -/
theorem normalizeRunes_eq_iff (runes : List Char) (head : Char) (rest : List Char)
    (led : runes = head :: rest) (first : head ≠ '/')
    (valid : normalizeRunes runes ≠ [] ∧ (normalizeRunes runes).getLast? ≠ some '/') :
    normalizeRunes runes = runes.rdropWhile (isRune '/') ↔
      isSpace head = false ∧ ∀ rune ∈ runes.getLast?, isSpace rune = false := by
  by_cases blank : isSpace head = true
  · simp [blank, normalizeRunes_led runes head rest led blank valid]
  rw [Bool.not_eq_true] at blank
  have whole : runes.dropWhile isSpace = runes := by
    rw [led, List.dropWhile_cons_of_neg (by simp [blank])]
  obtain ⟨front, last, split⟩ : ∃ front last, runes = front ++ [last] := by
    rcases List.eq_nil_or_concat runes with empty | ⟨front, last, split⟩
    · rw [led] at empty
      cases empty
    · exact ⟨front, last, split.trans List.concat_eq_append⟩
  have final : runes.getLast? = some last := by simp [split]
  have slashKept (other : last ≠ '/') : runes.rdropWhile (isRune '/') = runes := by
    rw [split, List.rdropWhile_concat_neg]
    simpa [isRune] using other
  rw [final]
  by_cases trailing : isSpace last = true
  · have other : last ≠ '/' := by
      rintro rfl
      exact absurd trailing (by decide)
    have shorter : (trimRunes runes).length < runes.length := by
      rw [trimRunes, whole, split, List.rdropWhile_concat_pos _ _ _ trailing, List.length_append]
      exact Nat.lt_succ_of_le (List.rdropWhile_prefix isSpace front).length_le
    have different : normalizeRunes runes ≠ runes := by
      intro same
      have bound := normalizeRunes_length runes
      rw [same] at bound
      omega
    simp [slashKept other, different, trailing]
  · rw [Bool.not_eq_true] at trailing
    have trimmed : trimRunes runes = runes := by
      rw [trimRunes, whole, rdropWhile_kept]
      intro rune member
      rw [final] at member
      cases member
      exact trailing
    have unled : normalizeRunes runes = if last = '/' then front else runes := by
      have headKept : (if runes.head? = some '/' then runes.tail else runes) = runes :=
        if_neg (by simp [led, first])
      simp only [normalizeRunes, trimmed, headKept, final]
      by_cases slash : last = '/'
      · simp [slash, split]
      · simp [slash]
    have agree : normalizeRunes runes = runes.rdropWhile (isRune '/') := by
      by_cases slash : last = '/'
      · rw [unled, if_pos slash] at valid ⊢
        rw [split, List.rdropWhile_concat_pos _ _ _ (by simp [isRune, slash]), rdropWhile_kept]
        intro rune member
        rw [isRune, beq_eq_false_iff_ne]
        rintro rfl
        exact valid.2 member
      · rw [unled, if_neg slash, slashKept slash]
    simp [agree, blank, trailing]

theorem trimRight_runes (text : String) :
    (trimRight '/' text).toList = text.toList.rdropWhile (isRune '/') := by
  rw [trimRight, String.toList_ofList]

/-- What an opened storage keeps of the configured bucket and prefix. -/
theorem newCacheS3_opened (config : CacheS3Config) (storage : CacheS3)
    (opened : newCacheS3 config = .ok storage) :
    storage.bucket = trimSpace config.bucket ∧
      storage.cachePrefix =
        if trimScope config.cachePrefix = "" then "gh-actions-cache"
        else trimScope config.cachePrefix := by
  unfold newCacheS3 at opened
  simp only at opened
  split at opened
  · cases opened
  · rw [← Except.ok.inj opened]
    constructor
    · rfl
    · simp only

theorem dropWhile_head (blank : Char → Bool) (runes : List Char) (rune : Char)
    (member : rune ∈ (runes.dropWhile blank).head?) : blank rune = false := by
  have kept := List.head?_dropWhile_not blank runes
  rw [Option.mem_def.mp member] at kept
  exact kept

/-- What is left of a text does not start with a slash. -/
theorem trimScope_head (text : String) : (trimScope text).toList.head? ≠ some '/' := by
  intro slash
  rw [trimScope, trim, String.toList_ofList] at slash
  obtain ⟨tail, joined⟩ := List.rdropWhile_prefix (isRune '/')
    (l := (trimSpace text).toList.dropWhile (isRune '/'))
  have front := dropWhile_head (isRune '/') (trimSpace text).toList '/'
  rw [← joined, List.head?_append, slash] at front
  exact absurd (front rfl) (by decide)

/-- An opened storage has a prefix that starts with something. -/
theorem newCacheS3_prefix (config : CacheS3Config) (storage : CacheS3)
    (opened : newCacheS3 config = .ok storage) :
    trimSpace storage.bucket = storage.bucket ∧
      ∃ head rest, storage.cachePrefix.toList = head :: rest ∧ head ≠ '/' := by
  obtain ⟨bucket, kept⟩ := newCacheS3_opened config storage opened
  rw [bucket, kept, trimSpace_idem]
  by_cases none : trimScope config.cachePrefix = ""
  · rw [if_pos none]
    exact ⟨rfl, 'g', "h-actions-cache".toList, rfl, by decide⟩
  · rw [if_neg none]
    have other := trimScope_head config.cachePrefix
    cases runes : (trimScope config.cachePrefix).toList with
    | nil => exact absurd (String.toList_eq_nil_iff.mp runes) none
    | cons head rest =>
        rw [runes, List.head?_cons, ne_eq, Option.some.injEq] at other
        exact ⟨rfl, head, rest, rfl, other⟩

theorem startsBlank_stored (config : CacheS3Config) (storage : CacheS3)
    (opened : newCacheS3 config = .ok storage) :
    startsBlank storage.cachePrefix = startsBlank (trimScope config.cachePrefix) := by
  rw [(newCacheS3_opened config storage opened).2]
  by_cases none : trimScope config.cachePrefix = ""
  · rw [if_pos none, none]
    decide
  · rw [if_neg none]

end Trims

section Agreement

/-- Every decision names scopes by their paths, whatever GitHub says. -/
theorem decided_named (digest : BranchDigest) (gh : Option GitHubMetadata) (repository : String)
    (workflowRunID : Int) (decision : CacheScopeDecision)
    (decided : cacheScopesForWorkflow digest gh repository workflowRunID = some decision) :
    Scoped digest (fun _ => True) (fun _ => True) decision := by
  have default (branch reason : String) : Scoped digest (fun _ => True) (fun _ => True)
      (readOnly (scopeForBranch digest branch) reason) :=
    scoped_readOnly (.branch branch) reason trivial
  have run (client : GitHubMetadata) (run : WorkflowRun) (branch : String) :
      Scoped digest (fun _ => True) (fun _ => True)
        (runScopes digest client repository run (scopeForBranch digest branch)) :=
    (@runScopes_scoped digest client repository branch run).mono (fun _ _ => trivial)
      fun _ _ => trivial
  have resolved (next : String → CacheScopeDecision)
      (each : ∀ branch, Scoped digest (fun _ => True) (fun _ => True)
        (next (scopeForBranch digest branch))) :
      Scoped digest (fun _ => True) (fun _ => True)
        (withDefaultScope (resolveRepositoryDefaultScope digest gh repository
          "no_cache_repository_lookup_failed") next) := by
    unfold resolveRepositoryDefaultScope
    cases gh with
    | none => exact scoped_noCache _
    | some client =>
        cases answer : client.getRepository repository with
        | error err =>
            simp only [answer]
            exact scoped_noCache _
        | ok metadata =>
            simp only [answer]
            split
            · exact scoped_noCache _
            · exact each metadata.defaultBranch
  unfold cacheScopesForWorkflow at decided
  simp only at decided
  by_cases missing : workflowRunID ≤ 0
  · rw [if_pos missing] at decided
    rw [← Option.some.inj decided]
    exact resolved _ fun branch => default branch _
  rw [if_neg missing] at decided
  cases gh with
  | none => cases decided
  | some client =>
  cases answer : client.workflowRunForCache repository workflowRunID with
  | error err =>
      simp only [answer] at decided
      rw [← Option.some.inj decided]
      exact resolved _ fun branch => default branch _
  | ok found =>
      simp only [answer] at decided
      by_cases named : trimSpace found.repository.defaultBranch ≠ ""
      · rw [if_pos named] at decided
        rw [← Option.some.inj decided]
        exact run client found _
      · rw [if_neg named] at decided
        rw [← Option.some.inj decided]
        exact resolved _ fun branch => run client found branch

/-- The resource of everything under a prefix. -/
def objectsUnder (bucket cachePrefix : String) : String := objectResource bucket (cachePrefix ++ "/*")

/-- The injected prefixes are those whose objects the policy grants. -/
structure PrefixesMatch (input : CacheInput) (policy : Policy) : Prop where
  read : ∀ action ∈ readActions,
    resourcesFor policy action = input.readPrefixes.map (objectsUnder input.bucket)
  write : ∀ action ∈ writeActions,
    resourcesFor policy action =
      (if input.writePrefix = "" then [] else [input.writePrefix]).map (objectsUnder input.bucket)

theorem objectsUnder_injective (bucket : String) : Function.Injective (objectsUnder bucket) := by
  intro first second same
  exact (String.append_left_inj _).mp ((objectResource_inj _ _ _).mp same)

/-- The resources under which the actions of a policy that was sent are allowed. -/
theorem built_resources {bucket cachePrefix ownScope : String} {readScopes : List String}
    {policy : Policy} (built : Built bucket cachePrefix ownScope readScopes policy) :
    (∀ action ∈ readActions, resourcesFor policy action =
      ((uniqueCacheScopes readScopes).map fun scope =>
        normalizeCachePrefix cachePrefix ++ "/" ++ scope).map (objectsUnder (trimSpace bucket))) ∧
    ∀ action ∈ writeActions, resourcesFor policy action =
      (if trimScope ownScope = "" then []
        else [normalizeCachePrefix cachePrefix ++ "/" ++ trimScope ownScope]).map
        (objectsUnder (trimSpace bucket)) := by
  have granted : (grantsFor (trimSpace bucket) (normalizeCachePrefix cachePrefix)
      (uniqueCacheScopes readScopes)).resources = ((uniqueCacheScopes readScopes).map fun scope =>
        normalizeCachePrefix cachePrefix ++ "/" ++ scope).map (objectsUnder (trimSpace bucket)) := by
    rw [grantsFor, List.map_map]
    rfl
  have reading : ∀ action ∈ readActions, action ∉ bucketActions ∧ action ∉ writeActions := by decide
  have writing : ∀ action ∈ writeActions, action ∉ bucketActions ∧ action ∉ readActions := by decide
  rw [built.shape]
  constructor
  · intro action member
    obtain ⟨listing, write⟩ := reading action member
    rw [← granted]
    by_cases blank : trimScope ownScope = ""
    · simp [resourcesFor, readStatements, listing, member, blank]
    · simp [resourcesFor, readStatements, listing, member, write, blank]
  · intro action member
    obtain ⟨listing, read⟩ := writing action member
    by_cases blank : trimScope ownScope = ""
    · simp [resourcesFor, readStatements, listing, read, blank]
    · simp [resourcesFor, readStatements, listing, read, member, blank, objectsUnder, scopePattern]

/-- What is injected, beside the credential, when a policy was sent. -/
theorem cacheInput_injected {client : Option CacheSTSClient} {endpoint : String}
    {sandboxTimeout : Duration} {storage : CacheS3} {repository : String}
    {scopeDecision : CacheScopeDecision} {input : CacheInput}
    (injected : cacheInput client endpoint sandboxTimeout storage repository scopeDecision =
      some input) :
    input.bucket = storage.bucket ∧
      input.readPrefixes =
        cacheScopePrefixes (storage.cachePrefix ++ "/" ++ repository) scopeDecision.readScopes ∧
      input.writePrefix =
        if scopeDecision.writeScope ≠ "" then
          storage.cachePrefix ++ "/" ++ repository ++ "/" ++ scopeDecision.writeScope
        else "" := by
  unfold cacheInput at injected
  simp only at injected
  split at injected
  · cases injected
  · rw [← Option.some.inj injected]
    exact ⟨rfl, rfl, rfl⟩

theorem base_runes (cachePrefix repository : String) :
    (cachePrefix ++ "/" ++ repository).toList =
      cachePrefix.toList ++ '/' :: repository.toList := by
  rw [String.toList_append, String.toList_append, List.append_assoc]
  rfl

theorem base_last (cachePrefix repository : String) :
    (cachePrefix ++ "/" ++ repository).toList.getLast? =
      some (repository.toList.getLast?.getD '/') := by
  rw [base_runes, List.getLast?_append_of_ne_nil _ (List.cons_ne_nil _ _), List.getLast?_cons]

/-- The policy's prefix and that of the injected read prefixes. -/
theorem read_base_iff (cachePrefix repository : String) (head : Char) (rest : List Char)
    (led : cachePrefix.toList = head :: rest) (first : head ≠ '/')
    (valid : validateCachePrefix (normalizeCachePrefix (cachePrefix ++ "/" ++ repository)) = .ok ()) :
    normalizeCachePrefix (cachePrefix ++ "/" ++ repository) =
        trimRight '/' (cachePrefix ++ "/" ++ repository) ↔
      startsBlank cachePrefix = false ∧ endsBlank repository = false := by
  have runes := base_runes cachePrefix repository
  rw [led, List.cons_append] at runes
  have last := valid_last _ valid
  rw [normalizeCachePrefix_runes] at last
  rw [← String.toList_inj, normalizeCachePrefix_runes, trimRight_runes,
    normalizeRunes_eq_iff _ head _ runes first last, base_last]
  have front : startsBlank cachePrefix = isSpace head := by simp [startsBlank, led]
  rw [front]
  cases back : repository.toList.getLast? with
  | none => simp [endsBlank, back, show isSpace '/' = false by decide]
  | some rune => simp [endsBlank, back]

/-- The injected write prefix is not trimmed on the right. -/
theorem write_base_iff (cachePrefix repository : String) :
    trimRight '/' (cachePrefix ++ "/" ++ repository) = cachePrefix ++ "/" ++ repository ↔
      repository ≠ "" ∧ endsSlash repository = false := by
  have last := base_last cachePrefix repository
  rw [← String.toList_inj, trimRight_runes]
  by_cases empty : repository = ""
  · have slash : (cachePrefix ++ "/" ++ repository).toList = cachePrefix.toList ++ ['/'] := by
      rw [base_runes, empty]
      rfl
    rw [slash, List.rdropWhile_concat_pos _ _ _ (by rfl)]
    simp only [empty, ne_eq, not_true_eq_false, false_and, iff_false]
    intro same
    have lengths := congrArg List.length same
    have bound := (List.rdropWhile_prefix (isRune '/') (l := cachePrefix.toList)).length_le
    simp only [List.length_append, List.length_singleton] at lengths
    omega
  · cases back : repository.toList.getLast? with
    | none =>
        rw [List.getLast?_eq_none_iff] at back
        exact absurd (String.toList_eq_nil_iff.mp back) empty
    | some rune =>
        rw [back, Option.getD_some] at last
        rw [List.rdropWhile_eq_self_iff]
        constructor
        · intro kept
          refine ⟨empty, ?_⟩
          have some : (cachePrefix ++ "/" ++ repository).toList ≠ [] := by simp
          have other := kept some
          rw [List.getLast?_eq_some_getLast some] at last
          rw [Option.some.inj last] at other
          simpa [endsSlash, back, isRune] using other
        · rintro ⟨_, other⟩ some
          rw [List.getLast?_eq_some_getLast some] at last
          rw [Option.some.inj last]
          simpa [endsSlash, back, isRune] using other

theorem map_prefixes_inj (scopes : List String) (first second : String) (some : scopes ≠ []) :
    (scopes.map fun scope => first ++ "/" ++ scope) =
      (scopes.map fun scope => second ++ "/" ++ scope) ↔ first = second := by
  constructor
  · intro same
    cases scopes with
    | nil => exact absurd rfl some
    | cons scope rest =>
        have own := (List.cons.inj same).1
        exact (String.append_left_inj _).mp ((String.append_left_inj _).mp own)
  · rintro rfl
    rfl

/-- The injected prefixes are those of the policy exactly when nothing is left
to trim from the prefix and the repository. -/
theorem prefixes_match_iff (digest : BranchDigest) (gh : Option GitHubMetadata)
    (repository : String) (workflowRunID : Int) (decision : CacheScopeDecision)
    (decided : cacheScopesForWorkflow digest gh repository workflowRunID = some decision)
    (config : CacheS3Config) (storage : CacheS3) (opened : newCacheS3 config = .ok storage)
    (client : Option CacheSTSClient) (endpoint : String) (sandboxTimeout : Duration)
    (input : CacheInput)
    (injected : cacheInput client endpoint sandboxTimeout storage repository decision = some input)
    (policy : Policy)
    (sent : cacheSTSPolicy storage.bucket (storage.cachePrefix ++ "/" ++ repository)
      decision.writeScope decision.readScopes = .ok policy) :
    PrefixesMatch input policy ↔
      startsBlank (trimScope config.cachePrefix) = false ∧ endsBlank repository = false ∧
        (decision.writeScope = "" ∨ repository ≠ "" ∧ endsSlash repository = false) := by
  have built := cacheSTSPolicy_built _ _ _ _ policy sent
  obtain ⟨bucket, reads, writes⟩ := cacheInput_injected injected
  obtain ⟨trimmed, head, rest, led, first⟩ := newCacheS3_prefix config storage opened
  obtain ⟨readable, writable⟩ := built_resources built
  rw [trimmed, ← bucket] at readable writable
  have readBase := read_base_iff storage.cachePrefix repository head rest led first built.prefixValid
  have writeBase := write_base_iff storage.cachePrefix repository
  rw [startsBlank_stored config storage opened] at readBase
  have reading : (∀ action ∈ readActions,
      resourcesFor policy action = input.readPrefixes.map (objectsUnder input.bucket)) ↔
      normalizeCachePrefix (storage.cachePrefix ++ "/" ++ repository) =
        trimRight '/' (storage.cachePrefix ++ "/" ++ repository) := by
    rw [reads, cacheScopePrefixes]
    constructor
    · intro each
      -- every action has the same resources, so one of them decides
      have same := (readable "kodo/get" (by decide)).symm.trans (each "kodo/get" (by decide))
      rw [List.map_injective_iff.mpr (objectsUnder_injective _) |>.eq_iff] at same
      exact (map_prefixes_inj _ _ _ built.readable).mp same
    · intro same action member
      rw [readable action member, same]
  have writing (same : normalizeCachePrefix (storage.cachePrefix ++ "/" ++ repository) =
        trimRight '/' (storage.cachePrefix ++ "/" ++ repository)) :
      (∀ action ∈ writeActions, resourcesFor policy action =
        (if input.writePrefix = "" then [] else [input.writePrefix]).map
          (objectsUnder input.bucket)) ↔
      decision.writeScope = "" ∨ repository ≠ "" ∧ endsSlash repository = false := by
    rw [← writeBase, ← same, writes]
    rcases (decided_named digest gh repository workflowRunID decision decided).writeScope with
      none | ⟨scope, _, path⟩
    · simp only [none, ne_eq, not_true_eq_false, if_false, if_true, true_or, iff_true]
      intro action member
      rw [writable action member, none]
      rfl
    · obtain ⟨kept, present⟩ := trimScope_path digest scope
      rw [← path] at kept present
      have some : storage.cachePrefix ++ "/" ++ repository ++ "/" ++ decision.writeScope ≠ "" := by
        simp
      rw [if_pos present, if_neg some]
      simp only [present, false_or]
      constructor
      · intro each
        have own := (writable "kodo/upload" (by decide)).symm.trans (each "kodo/upload" (by decide))
        rw [kept, if_neg present, List.map_injective_iff.mpr (objectsUnder_injective _) |>.eq_iff]
          at own
        have whole := (List.cons.inj own).1
        exact (String.append_left_inj _).mp ((String.append_left_inj _).mp whole)
      · intro base action member
        rw [writable action member, kept, if_neg present, base]
  constructor
  · rintro ⟨read, write⟩
    have base := reading.mp read
    exact ⟨(readBase.mp base).1, (readBase.mp base).2, (writing base).mp write⟩
  · rintro ⟨front, back, writes⟩
    have base := readBase.mpr ⟨front, back⟩
    exact ⟨reading.mpr base, (writing base).mpr writes⟩

/-- A client that grants every request. -/
def grantingClient : CacheSTSClient := fun _ _ _ =>
  .ok { accessKeyID := "ASIA1", secretAccessKey := "secret", sessionToken := "token" }

def storedConfig (value : CachePreference) : CacheS3Config where
  region := "cn-east-1"
  bucket := value.bucket
  cachePrefix := value.cachePrefix
  endpoint := "https://s3.example.com"
  accessKeyID := "AK1"
  secretAccessKey := "SK1"

def openedStorage (cachePrefix : String) : CacheS3 where
  bucket := "ci-cache"
  cachePrefix := cachePrefix
  region := "cn-east-1"
  endpoint := "https://s3.example.com"
  accessKeyID := "AK1"
  secretKey := "SK1"

/-- The input of the push to the default branch. -/
def mainInput (cachePrefix : String) : CacheInput where
  region := "cn-east-1"
  bucket := "ci-cache"
  endpoint := "https://s3.example.com"
  readPrefixes := [cachePrefix ++ "/octo/repo/" ++ mainScope]
  writePrefix := cachePrefix ++ "/octo/repo/" ++ mainScope
  accessKeyID := "ASIA1"
  secretKey := "secret"
  sessionToken := "token"

/-- The settings injected for the push, once its policy was sent. -/
theorem mainInjected (cachePrefix : String) (policy : Policy)
    (sent : cacheSTSPolicy "ci-cache" (cachePrefix ++ "/" ++ "octo/repo") mainDecision.writeScope
      mainDecision.readScopes = .ok policy) :
    cacheInput (some grantingClient) "sts.example.com" 0 (openedStorage cachePrefix) "octo/repo"
      mainDecision = some (mainInput cachePrefix) := by
  have granted : generateCacheSTS (some grantingClient) ⟨"ci-cache", "AK1", "SK1"⟩
      (cachePrefix ++ "/" ++ "octo/repo") mainDecision.writeScope mainDecision.readScopes
      "sts.example.com" (cacheSTSDurationSeconds 0) =
      .ok { accessKeyID := "ASIA1", secretAccessKey := "secret", sessionToken := "token" } := by
    have endpoint : trimRight '/' (trimSpace "sts.example.com") ≠ "" := by decide
    have positive : ¬ cacheSTSDurationSeconds 0 ≤ 0 := by decide
    simp only [generateCacheSTS, generateCacheSTSWithClient, sent, if_neg positive, if_neg endpoint]
    rfl
  have kept : trimRight '/' (cachePrefix ++ "/" ++ "octo/repo") =
      cachePrefix ++ "/" ++ "octo/repo" :=
    (write_base_iff cachePrefix "octo/repo").mpr (by decide)
  have scopes : uniqueCacheScopes mainDecision.readScopes = [mainScope] := by decide +kernel
  have joined (scope : String) : cachePrefix ++ "/" ++ "octo/repo" ++ "/" ++ scope =
      cachePrefix ++ "/octo/repo/" ++ scope := by
    rw [← String.toList_inj]
    simp [String.toList_append]
  have writes : mainDecision.writeScope ≠ "" := by decide
  simp only [cacheInput, openedStorage, granted, cacheScopePrefixes, scopes, kept, List.map_cons,
    List.map_nil, joined, if_pos writes]
  rfl

theorem prefixes_match_stored :
    cachePreferenceFor " ci-cache" " /cache/ " = .ok ⟨"ci-cache", "cache"⟩ ∧
      PrefixesMatch (mainInput "cache") (mainPolicy "cache/octo/repo") :=
  ⟨by decide +kernel,
    (prefixes_match_iff mainDigest (some mainGitHub) "octo/repo" 9 mainDecision mainDecided
      (storedConfig ⟨"ci-cache", "cache"⟩) (openedStorage "cache") (by decide +kernel)
      (some grantingClient) "sts.example.com" 0 (mainInput "cache") (mainInjected "cache" _ mainSent)
      (mainPolicy "cache/octo/repo") mainSent).mpr (by decide)⟩

/-- The user sends a prefix of blanks between slashes. -/
theorem prefixes_mismatch_blank :
    cachePreferenceFor "ci-cache" "/ / a" = .ok ⟨"ci-cache", " / a"⟩ ∧
      newCacheS3 (storedConfig ⟨"ci-cache", " / a"⟩) = .ok (openedStorage " a") ∧
      cacheInput (some grantingClient) "sts.example.com" 0 (openedStorage " a") "octo/repo"
        mainDecision = some (mainInput " a") ∧
      cacheSTSPolicy "ci-cache" (" a" ++ "/" ++ "octo/repo") mainDecision.writeScope
        mainDecision.readScopes = .ok (mainPolicy "a/octo/repo") ∧
      ¬ PrefixesMatch (mainInput " a") (mainPolicy "a/octo/repo") := by
  have saved : cachePreferenceFor "ci-cache" "/ / a" = .ok ⟨"ci-cache", " / a"⟩ := by
    decide +kernel
  have opened : newCacheS3 (storedConfig ⟨"ci-cache", " / a"⟩) = .ok (openedStorage " a") := by
    decide +kernel
  have apart : ¬ PrefixesMatch (mainInput " a") (mainPolicy "a/octo/repo") := by
    intro agree
    have read := agree.read "kodo/get" (by decide)
    revert read
    decide
  exact ⟨saved, opened, mainInjected " a" _ blankSent, blankSent, apart⟩

end Agreement

end Runnerd
