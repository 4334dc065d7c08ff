import Runnerd.GoText

/-!
The records of `internal/state/store.go` and `internal/github/client.go` that
the runner lifecycle reads and writes. A Go `time.Time` that may be zero is an
`Option Time`; the store keeps it as a nullable column. Instants and durations
count nanoseconds.
-/

namespace Runnerd

open GoText

abbrev Time := Int
abbrev Duration := Int

def second : Duration := 1000000000

inductive Status where
  | queued
  | creating
  | running
  | stopping
  | completed
  | failed
  deriving DecidableEq, Repr

/-- A Go error as its callers see it: its text, and what `errors.Is` and
`errors.As` find in its chain. -/
structure GoError where
  message : String
  deadlineExceeded : Bool := false
  templateReason : Option String := none
  sandboxNotFound : Bool := false
  runnerNotFound : Bool := false
  deriving DecidableEq, Repr

/-- `fmt.Errorf` with a trailing `%w`. -/
def GoError.wrap (lead : String) (err : GoError) : GoError :=
  { err with message := lead ++ err.message }

def errConflict : GoError := { message := "state conflict" }
def errRecordNotFound : GoError := { message := "record not found" }
def errNotFound : GoError := { message := "state record not found" }
def errRetryNotAllowed : GoError := { message := "retry not allowed for current state" }

/-- The columns of a request that are written once, when it is admitted. -/
structure GitHubContext where
  githubInstallationID : Int := 0
  workflowJobID : Int := 0
  workflowRunID : Int := 0
  workflowName : String := ""
  workflowRunAttempt : Int := 0
  headBranch : String := ""
  headSHA : String := ""
  githubJobURL : String := ""
  pullRequestNumber : Int := 0
  deriving DecidableEq, Repr

structure RunnerState extends GitHubContext where
  id : String
  status : Status
  repositoryFullName : String := ""
  requestedLabels : List String := []
  profileName : String := ""
  runnerGroup : String := ""
  runnerName : String := ""
  sandboxID : String := ""
  sandboxAPIURL : String := ""
  sandboxAPIKeyEncrypted : String := ""
  sandboxConfigSource : String := ""
  processPID : Nat := 0
  assignedJobID : Int := 0
  assignedJobName : String := ""
  error : String := ""
  failureStage : String := ""
  failureReason : String := ""
  lastErrorCode : String := ""
  lastErrorMessage : String := ""
  lastErrorRetryable : Bool := false
  retryCount : Nat := 0
  updatedAt : Time := 0
  createdAt : Time := 0
  lastAttemptAt : Option Time := none
  nextRetryAt : Option Time := none
  creatingAt : Option Time := none
  runningAt : Option Time := none
  stoppingAt : Option Time := none
  completedAt : Option Time := none
  failedAt : Option Time := none
  leaseOwner : String := ""
  leaseExpiresAt : Option Time := none
  version : Nat := 0
  deriving DecidableEq, Repr

/-- `st.Version++`, after a write that stored the next version. -/
def RunnerState.advanced (st : RunnerState) : RunnerState := { st with version := st.version + 1 }

/-- A row of `runner_requests`. `recordToState` forgets the last two columns. -/
structure RunnerRequestRecord extends RunnerState where
  source : String := ""
  labels : List String := []
  deriving DecidableEq, Repr

structure RunnerRequest where
  id : String
  source : String := ""
  jobID : Int := 0
  pullRequestNumber : Int := 0
  githubInstallationID : Int := 0
  repositoryFullName : String := ""
  requestedLabels : List String := []
  labels : List String := []
  profileName : String := ""
  runnerGroup : String := ""
  runnerName : String := ""
  sandboxAPIURL : String := ""
  sandboxAPIKeyEncrypted : String := ""
  sandboxConfigSource : String := ""
  createdAt : Option Time := none
  deriving DecidableEq, Repr

def recordToState (record : RunnerRequestRecord) : RunnerState :=
  record.toRunnerState

def recordToRequest (record : RunnerRequestRecord) : RunnerRequest where
  id := record.id
  source := record.source
  jobID := record.workflowJobID
  pullRequestNumber := record.pullRequestNumber
  githubInstallationID := record.githubInstallationID
  repositoryFullName := record.repositoryFullName
  requestedLabels := record.requestedLabels
  labels := record.labels
  profileName := record.profileName
  runnerGroup := record.runnerGroup
  runnerName := record.runnerName
  sandboxAPIURL := record.sandboxAPIURL
  sandboxAPIKeyEncrypted := record.sandboxAPIKeyEncrypted
  sandboxConfigSource := record.sandboxConfigSource
  createdAt := some record.createdAt

structure RunnerProfile where
  name : String
  labels : List String := []
  requiredLabels : List String := []
  templateID : String := ""
  defaultTemplateName : String := ""
  runnerGroup : String := ""
  maxConcurrency : Int := 0
  minIdle : Int := 0
  priority : Int := 0
  enabled : Bool := true
  managedBy : String := ""
  catalogRevision : Int := 0
  deriving DecidableEq, Repr

/-- `saveProfile` stores a trimmed, non-empty name under a primary key. -/
structure Catalog where
  profiles : List RunnerProfile
  named : ∀ profile ∈ profiles, trimSpace profile.name = profile.name ∧ profile.name ≠ ""
  distinct : (profiles.map RunnerProfile.name).Nodup

structure WorkflowJob where
  id : Int := 0
  name : String := ""
  status : String := ""
  runnerName : String := ""
  workflowName : String := ""
  pullRequests : List Int := []
  labels : List String := []
  deriving DecidableEq, Repr

/-- The part of `config.Config` the lifecycle reads. -/
structure Config where
  maxConcurrentRunners : Nat
  retryMaxAttempts : Nat
  retryBaseDelay : Duration
  retryMaxDelay : Duration
  sandboxCreateTimeout : Duration
  sandboxStopTimeout : Duration
  sandboxTimeout : Duration
  runnerIdleTimeout : Duration
  workerLeaseTTL : Duration

def runnerJobStartedMarker : String := "__runner_job_started__"

section Sanitising

def sanitizeRunes (runes : List Char) : List Char :=
  replaceDots (replaceRune '\\' '-' (replaceRune '/' '-' (trimRunes runes)))

def sanitizeID (id : String) : String :=
  String.ofList (sanitizeRunes id.toList)

def sanitizeRunnerName (name : String) : String :=
  String.ofList (replaceRune '\\' '-' (replaceRune '/' '-' (trimRunes name.toList)))

/-- No blank at either end. -/
def Trimmed (runes : List Char) : Prop :=
  (∀ rune ∈ runes.head?, isSpace rune = false) ∧ ∀ rune ∈ runes.getLast?, isSpace rune = false

theorem trimRunes_trimmed (runes : List Char) : Trimmed (trimRunes runes) := by
  have front : ∀ rune ∈ (runes.dropWhile isSpace).head?, isSpace rune = false := by
    intro rune member
    have first := List.head?_dropWhile_not isSpace runes
    rw [Option.mem_def] at member
    simpa [member] using first
  unfold trimRunes
  constructor
  · intro rune member
    apply front
    obtain ⟨tail, split⟩ := List.rdropWhile_prefix isSpace (l := runes.dropWhile isSpace)
    rw [← split]
    cases kept : (runes.dropWhile isSpace).rdropWhile isSpace with
    | nil => simp [kept] at member
    | cons head rest => simpa [kept] using member
  · intro rune member
    by_cases empty : (runes.dropWhile isSpace).rdropWhile isSpace = []
    · simp [empty] at member
    · have last := List.rdropWhile_last_not isSpace (runes.dropWhile isSpace) empty
      rw [List.getLast?_eq_some_getLast empty] at member
      cases member
      simpa using last

theorem trimRunes_of_trimmed (runes : List Char) (trimmed : Trimmed runes) :
    trimRunes runes = runes := by
  have front : runes.dropWhile isSpace = runes := by
    cases runes with
    | nil => rfl
    | cons head rest => simp [trimmed.1 head (by simp)]
  rw [trimRunes, front, List.rdropWhile_eq_self_iff]
  intro nonempty
  simp [trimmed.2 _ (List.getLast?_eq_some_getLast nonempty)]

theorem trimSpace_idem (text : String) : trimSpace (trimSpace text) = trimSpace text := by
  simp [trimSpace, trimRunes_of_trimmed _ (trimRunes_trimmed _)]

theorem replaceRune_trimmed (old : Char) (runes : List Char) (trimmed : Trimmed runes) :
    Trimmed (replaceRune old '-' runes) := by
  constructor
  · intro rune member
    simp only [replaceRune, List.head?_map, Option.mem_def, Option.map_eq_some_iff] at member
    obtain ⟨first, head, rfl⟩ := member
    split
    · rfl
    · exact trimmed.1 first head
  · intro rune member
    simp only [replaceRune, List.getLast?_map, Option.mem_def, Option.map_eq_some_iff] at member
    obtain ⟨last, tail, rfl⟩ := member
    split
    · rfl
    · exact trimmed.2 last tail

theorem replaceRune_absent (old new : Char) (runes : List Char) (absent : old ∉ runes) :
    replaceRune old new runes = runes := by
  refine (List.map_congr_left fun rune member => ?_).trans (List.map_id runes)
  have other : rune ≠ old := fun same => absent (same ▸ member)
  exact if_neg other

theorem replaceRune_removes (old new rune : Char) (runes : List Char) (different : old ≠ new)
    (member : rune ∈ replaceRune old new runes) : rune ≠ old ∧ (rune = new ∨ rune ∈ runes) := by
  obtain ⟨before, present, rfl⟩ := List.mem_map.mp member
  split
  · exact ⟨different.symm, .inl rfl⟩
  · exact ⟨by assumption, .inr present⟩

theorem replaceDots_head (runes : List Char) :
    ∀ rune ∈ (replaceDots runes).head?, rune = '-' ∨ rune ∈ runes.head? := by
  intro rune member
  fun_cases replaceDots runes with
  | case1 rest => exact .inl (by simpa [replaceDots, eq_comm] using member)
  | case2 first rest => exact .inr (by simpa [replaceDots] using member)
  | case3 => simp [replaceDots] at member

theorem replaceDots_nil (runes : List Char) : replaceDots runes = [] ↔ runes = [] := by
  fun_cases replaceDots runes <;> simp

theorem replaceDots_last (runes : List Char) :
    ∀ rune ∈ (replaceDots runes).getLast?, rune = '-' ∨ rune ∈ runes.getLast? := by
  fun_induction replaceDots runes with
  | case1 rest ih =>
      intro rune member
      cases tail : replaceDots rest with
      | nil => exact .inl (by simpa [tail, eq_comm] using member)
      | cons next more =>
          rw [tail, List.getLast?_cons_cons, ← tail] at member
          refine (ih rune member).imp_right fun found => ?_
          cases rest with
          | nil => simp at found
          | cons head rest => simpa using found
  | case2 first rest _ ih =>
      intro rune member
      cases tail : replaceDots rest with
      | nil =>
          rw [replaceDots_nil] at tail
          subst tail
          exact .inr member
      | cons next more =>
          rw [tail, List.getLast?_cons_cons, ← tail] at member
          refine (ih rune member).imp_right fun found => ?_
          cases rest with
          | nil => simp at found
          | cons head rest => simpa using found
  | case3 => simp

theorem replaceDots_trimmed (runes : List Char) (trimmed : Trimmed runes) :
    Trimmed (replaceDots runes) := by
  constructor
  · intro rune member
    rcases replaceDots_head runes rune member with rfl | kept
    · rfl
    · exact trimmed.1 rune kept
  · intro rune member
    rcases replaceDots_last runes rune member with rfl | kept
    · rfl
    · exact trimmed.2 rune kept

theorem replaceDots_mem (runes : List Char) :
    ∀ rune ∈ replaceDots runes, rune = '-' ∨ rune ∈ runes := by
  fun_induction replaceDots runes with
  | case1 rest ih => grind
  | case2 first rest _ ih => grind
  | case3 => simp

theorem replaceDots_idem (runes : List Char) :
    replaceDots (replaceDots runes) = replaceDots runes := by
  fun_induction replaceDots runes with
  | case1 rest ih => simp [replaceDots, ih]
  | case2 first rest separate ih =>
      rw [replaceDots.eq_2, ih]
      intro more dot next
      subst dot
      -- a rune that follows a kept dot is neither a dot nor made one
      rcases replaceDots_head rest '.' (by simp [next]) with same | kept
      · exact absurd same (by decide)
      · cases rest with
        | nil => simp at kept
        | cons head rest =>
            simp only [List.head?_cons, Option.mem_def, Option.some.injEq] at kept
            exact separate rest rfl (by rw [kept])
  | case3 => rfl

theorem sanitizeRunes_trimmed (runes : List Char) : Trimmed (sanitizeRunes runes) :=
  replaceDots_trimmed _ (replaceRune_trimmed _ _ (replaceRune_trimmed _ _ (trimRunes_trimmed runes)))

theorem sanitizeRunes_mem (runes : List Char) (rune : Char) (member : rune ∈ sanitizeRunes runes) :
    rune ≠ '/' ∧ rune ≠ '\\' := by
  rcases replaceDots_mem _ rune member with rfl | inner
  · decide
  · obtain ⟨noBackslash, rfl | outer⟩ := replaceRune_removes _ _ rune _ (by decide) inner
    · decide
    · exact ⟨(replaceRune_removes _ _ rune _ (by decide) outer).1, noBackslash⟩

theorem sanitizeRunes_idem (runes : List Char) :
    sanitizeRunes (sanitizeRunes runes) = sanitizeRunes runes := by
  have clean := sanitizeRunes_mem runes
  rw [sanitizeRunes, trimRunes_of_trimmed _ (sanitizeRunes_trimmed runes),
    replaceRune_absent '/' _ _ fun found => (clean _ found).1 rfl,
    replaceRune_absent '\\' _ _ fun found => (clean _ found).2 rfl]
  exact replaceDots_idem _

@[simp] theorem sanitizeID_idem (id : String) : sanitizeID (sanitizeID id) = sanitizeID id := by
  simp [sanitizeID, sanitizeRunes_idem]

theorem replaceDots_absent (runes : List Char) (absent : '.' ∉ runes) : replaceDots runes = runes := by
  fun_induction replaceDots runes with
  | case1 rest ih => simp at absent
  | case2 first rest _ ih => simp_all
  | case3 => rfl

theorem trimmed_of_plain {runes : List Char} (plain : ∀ rune ∈ runes, isSpace rune = false) :
    Trimmed runes := by
  constructor
  · exact fun rune member => plain rune (List.mem_of_mem_head? member)
  · exact fun rune member => plain rune (List.mem_of_getLast? member)

/-- An id without blanks, slashes and dots is stored as it is. -/
theorem sanitizeID_plain {id : String}
    (plain : ∀ rune ∈ id.toList, isSpace rune = false ∧ rune ≠ '/' ∧ rune ≠ '\\' ∧ rune ≠ '.') :
    sanitizeID id = id := by
  have trimmed := trimmed_of_plain fun rune member => (plain rune member).1
  have absent (old : Char) (unused : ∀ rune ∈ id.toList, rune ≠ old) : old ∉ id.toList :=
    fun member => unused old member rfl
  unfold sanitizeID sanitizeRunes
  rw [trimRunes_of_trimmed _ trimmed, replaceRune_absent _ _ _ (absent _ fun r m => (plain r m).2.1),
    replaceRune_absent _ _ _ (absent _ fun r m => (plain r m).2.2.1),
    replaceDots_absent _ (absent _ fun r m => (plain r m).2.2.2), String.ofList_toList]

theorem sanitizeRunnerName_plain {name : String}
    (plain : ∀ rune ∈ name.toList, isSpace rune = false ∧ rune ≠ '/' ∧ rune ≠ '\\') :
    sanitizeRunnerName name = name := by
  have trimmed := trimmed_of_plain fun rune member => (plain rune member).1
  unfold sanitizeRunnerName
  rw [trimRunes_of_trimmed _ trimmed, replaceRune_absent _ _ _ fun found => (plain _ found).2.1 rfl,
    replaceRune_absent _ _ _ fun found => (plain _ found).2.2 rfl, String.ofList_toList]

theorem digit_code {rune : Char} (digit : rune.isDigit = true) :
    ∃ value : Fin 10, Char.ofNat (48 + value) = rune := by
  have code : 48 ≤ rune.toNat ∧ rune.toNat ≤ 57 := by
    simpa [Char.isDigit, UInt32.le_iff_toNat_le] using digit
  refine ⟨⟨rune.toNat - 48, by omega⟩, ?_⟩
  have offset : 48 + (rune.toNat - 48) = rune.toNat := by omega
  rw [offset]
  exact Char.ofNat_toNat rune

theorem digit_plain {rune : Char} (digit : rune.isDigit = true) :
    isSpace rune = false ∧ rune ≠ '/' ∧ rune ≠ '\\' ∧ rune ≠ '.' := by
  obtain ⟨value, rfl⟩ := digit_code digit
  revert value
  decide

theorem nat_digits (m : Nat) : ∀ rune ∈ m.repr.toList, rune.isDigit = true := by
  intro rune member
  rw [Nat.toList_repr] at member
  exact Nat.isDigit_of_mem_toDigits (by decide) (by decide) member

theorem int_signs (n : Int) : ∀ rune ∈ (toString n).toList, rune = '-' ∨ rune.isDigit = true := by
  intro rune member
  rw [Int.toString_eq_repr] at member
  cases n with
  | ofNat m => exact .inr (nat_digits m rune member)
  | negSucc m =>
      simp only [Int.repr, String.toList_append, List.mem_append] at member
      rcases member with sign | member
      · exact .inl (by simpa using sign)
      · exact .inr (nat_digits _ rune member)

theorem int_runes (n : Int) : ∀ rune ∈ (toString n).toList,
    isSpace rune = false ∧ rune ≠ '/' ∧ rune ≠ '\\' ∧ rune ≠ '.' := by
  intro rune member
  rcases int_signs n rune member with rfl | digit
  · decide
  · exact digit_plain digit

theorem sanitizeID_int (n : Int) : sanitizeID (toString n) = toString n :=
  sanitizeID_plain (int_runes n)

theorem sanitizeRunnerName_int (n : Int) :
    sanitizeRunnerName ("e2b-" ++ toString n) = "e2b-" ++ toString n := by
  apply sanitizeRunnerName_plain
  intro rune member
  rw [String.toList_append, List.mem_append] at member
  rcases member with fixed | number
  · have known : rune = 'e' ∨ rune = '2' ∨ rune = 'b' ∨ rune = '-' := by simpa using fixed
    rcases known with rfl | rfl | rfl | rfl <;> decide
  · have plain := int_runes n rune number
    exact ⟨plain.1, plain.2.1, plain.2.2.1⟩

theorem toString_inj (n m : Int) (same : toString n = toString m) : n = m := by
  have digits {a b : Nat} (same : a.repr = b.repr) : a = b := by
    have lists : Nat.toDigits 10 a = Nat.toDigits 10 b := by
      rw [← Nat.toList_repr, ← Nat.toList_repr, same]
    have numbers := congrArg (fun digits => Nat.ofDigitChars 10 digits 0) lists
    simpa only [Nat.ofDigitChars_ten_toDigits] using numbers
  -- a sign is not a digit
  have unsigned (a b : Nat) : a.repr ≠ "-" ++ b.repr := by
    intro same
    have sign : '-' ∈ a.repr.toList := by simp [same, String.toList_append]
    exact absurd (nat_digits a _ sign) (by decide)
  rw [Int.toString_eq_repr, Int.toString_eq_repr] at same
  cases n with
  | ofNat a =>
      cases m with
      | ofNat b => rw [digits same]
      | negSucc b => exact absurd same (unsigned a _)
  | negSucc a =>
      cases m with
      | ofNat b => exact absurd same.symm (unsigned b _)
      | negSucc b =>
          have next := digits ((String.append_right_inj _).mp same)
          rw [Nat.succ.inj next]

end Sanitising

end Runnerd
