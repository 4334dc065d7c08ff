import Mathlib.Data.List.Infix
import Runnerd.Decisions
import Runnerd.Numerals

/-!
How `classifyRetryableError` reads an error that quotes the answer of a remote service.
Its phrases are searched for in the whole message. None of them crosses from the part
before the body into the body, so each comes from one of the two.
-/

namespace Runnerd

open GoText

/-- What the clients of `internal/github` return for an answer they did not ask for. -/
def statusError (operation : String) (code : Nat) (body : String) : GoError :=
  { message := operation ++ ": status " ++ toString code ++ ": " ++ body }

/-- The part of the message that is not the body. -/
def statusLead (operation : String) (code : Nat) : String :=
  operation ++ ": status " ++ toString code ++ ": "

section Phrases

theorem contains_iff (text part : String) :
    contains text part = true ↔ part.toList <:+: text.toList := by
  simp only [contains, List.any_eq_true, List.mem_tails, List.isPrefixOf_iff_prefix]
  constructor
  · rintro ⟨rest, suffix_, prefix_⟩
    exact prefix_.isInfix.trans suffix_.isInfix
  · intro infix_
    obtain ⟨rest, prefix_, suffix_⟩ := List.infix_iff_prefix_suffix.mp infix_
    exact ⟨rest, suffix_, prefix_⟩

/-- Whether runes, the last one first, may end a digit, a colon and a space. -/
def endsLead : List Char → Bool
  | ' ' :: ':' :: digit :: _ => digit.isDigit
  | [' ', ':'] | [' '] => true
  | _ => false

/-- Whether a phrase may begin in the last runes of such a text and go on behind it. -/
def crosses (phrase : List Char) : Bool := phrase.inits.any fun head => endsLead head.reverse

theorem prefix_endsLead {runes before : List Char} {digit : Char} (digit_ : digit.isDigit = true)
    (some_ : runes ≠ []) (ends : runes <+: ' ' :: ':' :: digit :: before) :
    endsLead runes = true := by
  rcases List.prefix_cons_iff.mp ends with rfl | ⟨two, rfl, second⟩
  · exact absurd rfl some_
  rcases List.prefix_cons_iff.mp second with rfl | ⟨three, rfl, third⟩
  · rfl
  rcases List.prefix_cons_iff.mp third with rfl | ⟨rest, rfl, _⟩
  · rfl
  · exact digit_

theorem infix_across {phrase lead body : List Char} {digit : Char} (digit_ : digit.isDigit = true)
    (stays : crosses phrase = false) :
    phrase <:+: lead ++ [digit, ':', ' '] ++ body ↔
      phrase <:+: lead ++ [digit, ':', ' '] ∨ phrase <:+: body := by
  constructor
  · intro across
    rcases List.infix_append_iff_ne_nil.mp across with
      left | right | ⟨head, rest, some_, _, rfl, suffix_, _⟩
    · exact .inl left
    · exact .inr right
    · have ends : head.reverse <+: ' ' :: ':' :: digit :: lead.reverse := by
        simpa using List.reverse_prefix.mpr suffix_
      have member : head ∈ (head ++ rest).inits :=
        (List.mem_inits _ _).mpr (List.prefix_append _ _)
      simp only [crosses, List.any_eq_false] at stays
      exact absurd (prefix_endsLead digit_ (by simpa using some_) ends) (stays head member)
  · rintro (left | right)
    · exact left.trans (List.infix_append' [] _ _)
    · exact right.trans List.infix_append_right

theorem lowerRune_digit {digit : Char} (digit_ : digit.isDigit = true) :
    lowerRune digit = digit := by
  obtain ⟨value, rfl⟩ := digit_code digit_
  revert value
  decide

/-- The lowered lead ends with a digit, a colon and a space. -/
theorem lead_ends (operation : String) (code : Nat) : ∃ before digit, digit.isDigit = true ∧
    (toLower (statusLead operation code)).toList = before ++ [digit, ':', ' '] := by
  have digits := toDigits_digits code
  obtain ⟨before, digit, same⟩ : ∃ before digit, Nat.toDigits 10 code = before ++ [digit] :=
    ⟨_, _, (List.dropLast_append_getLast Nat.toDigits_ne_nil).symm⟩
  have digit_ : digit.isDigit = true := by
    rw [same] at digits
    simp at digits
    exact digits.2
  refine ⟨(operation ++ ": status ").toList.map lowerRune ++ before.map lowerRune, digit, digit_, ?_⟩
  have runes : (toString code).toList = before ++ [digit] := Nat.toList_repr.trans same
  simp only [toLower, statusLead, String.toList_ofList, String.toList_append, runes]
  simp [lowerRune_digit digit_]
  decide

/-- A phrase that does not cross is in the lead or in the body. -/
theorem contains_status {phrase : String} (stays : crosses phrase.toList = false)
    (operation : String) (code : Nat) (body : String) :
    contains (toLower (statusError operation code body).message) phrase =
      (contains (toLower (statusLead operation code)) phrase || contains (toLower body) phrase) := by
  obtain ⟨before, digit, digit_, ends⟩ := lead_ends operation code
  have message : (toLower (statusError operation code body).message).toList =
      (toLower (statusLead operation code)).toList ++ (toLower body).toList := by
    simp [toLower, statusError, statusLead]
  rw [Bool.eq_iff_iff, Bool.or_eq_true, contains_iff, contains_iff, contains_iff, message, ends]
  exact infix_across digit_ stays

end Phrases

section Rules

/-- The cases of the switch in `classifyRetryableError`, in their order. -/
inductive RetryRule where
  | busy
  | placement
  | secondaryLimit
  | rateLimit
  | retryableStatus
  | serverError
  | network
  | auth
  | unnamed
  deriving DecidableEq

namespace RetryRule

def phrases : RetryRule → List String
  | busy => ["github remove runner: status 422", "currently running a job", "cannot be deleted"]
  | placement => ["failed to place sandbox"]
  | secondaryLimit => ["secondary rate limit"]
  | rateLimit => ["status 429"]
  | retryableStatus => ["status 408", "status 409", "status 425"]
  | serverError => ["status 5"]
  | network => ["timeout", "timed out", "i/o timeout", "connection reset", "temporary", "eof"]
  | auth => ["status 401", "status 403"]
  | unnamed => []

def verdict (stage : String) : RetryRule → String × Bool
  | busy => ("github_runner_busy", true)
  | placement => ("sandbox_capacity", true)
  | secondaryLimit => ("github_secondary_rate_limit", true)
  | rateLimit => ("http_rate_limited", true)
  | retryableStatus => ("http_retryable_status", true)
  | serverError =>
      if contains stage "github" then ("github_server_error", true) else ("backend_server_error", true)
  | network => ("temporary_network_error", true)
  | auth => ("auth_error", false)
  | unnamed => (stage, false)

/-- The busy runner is told by all of its phrases, the other cases by one of theirs. -/
def named (found : String → Bool) (rule : RetryRule) : Bool :=
  if rule = busy then rule.phrases.all found else rule.phrases.any found

/-- The cases before the one for 401 and 403. -/
def beforeAuth : List RetryRule :=
  [busy, placement, secondaryLimit, rateLimit, retryableStatus, serverError, network]

/-- The first case that is named. -/
def first (found : String → Bool) : RetryRule :=
  ((beforeAuth ++ [auth]).find? (named found)).getD unnamed

end RetryRule

/-- A phrase stands in the lead or in the body. -/
def quotes (operation : String) (code : Nat) (body phrase : String) : Bool :=
  contains (toLower (statusLead operation code)) phrase || contains (toLower body) phrase

theorem phrase_stays (rule : RetryRule) :
    ∀ phrase ∈ rule.phrases, crosses phrase.toList = false := by
  cases rule <;> decide

theorem verdict_find (stage : String) (named : RetryRule → Bool) (rule : RetryRule)
    (rest : List RetryRule) :
    (((rule :: rest).find? named).getD .unnamed).verdict stage =
      if named rule then rule.verdict stage
      else ((rest.find? named).getD .unnamed).verdict stage := by
  cases here : named rule with
  | true => simp [here]
  | false => simp [here]

theorem classify_first (stage message : String) :
    classifyRetryableError stage { message := message } =
      (RetryRule.first (contains (toLower message))).verdict stage := by
  simp only [classifyRetryableError, isGitHubRunnerBusyCleanup]
  generalize contains (toLower message) = found
  simp only [RetryRule.first, RetryRule.beforeAuth, List.cons_append, List.nil_append, verdict_find]
  simp [RetryRule.named, RetryRule.phrases, RetryRule.verdict, and_assoc, or_assoc]

theorem named_status (operation : String) (code : Nat) (body : String) (rule : RetryRule) :
    rule.named (contains (toLower (statusError operation code body).message)) =
      rule.named (quotes operation code body) := by
  have each : ∀ phrase ∈ rule.phrases,
      contains (toLower (statusError operation code body).message) phrase =
        quotes operation code body phrase := fun phrase member =>
    contains_status (phrase_stays rule phrase member) operation code body
  unfold RetryRule.named
  split
  · rw [Bool.eq_iff_iff, List.all_eq_true, List.all_eq_true]
    exact forall₂_congr fun phrase member => by rw [each phrase member]
  · rw [Bool.eq_iff_iff, List.any_eq_true, List.any_eq_true]
    exact exists_congr fun phrase => and_congr_right fun member => by rw [each phrase member]

theorem classify_status (stage operation : String) (code : Nat) (body : String) :
    classifyRetryableError stage (statusError operation code body) =
      (RetryRule.first (quotes operation code body)).verdict stage := by
  have same := classify_first stage (statusError operation code body).message
  unfold RetryRule.first at same ⊢
  rw [funext (named_status operation code body)] at same
  exact same

theorem verdict_kept {stage : String} {rule : RetryRule} :
    (rule.verdict stage).2 = false ↔ rule = .auth ∨ rule = .unnamed := by
  cases rule with
  | serverError =>
      simp only [RetryRule.verdict]
      split <;> simp
  | _ => simp [RetryRule.verdict]

/-- Different cases give different verdicts, unless the stage has the name of the verdict
on 401 and 403. -/
theorem verdict_inj {stage : String} {one two : RetryRule} :
    one.verdict stage = two.verdict stage ↔ one = two ∨
      (stage = "auth_error" ∧ (one = .auth ∨ one = .unnamed) ∧ (two = .auth ∨ two = .unnamed)) := by
  by_cases here : contains stage "github" = true
  · cases one <;> cases two <;> simp [RetryRule.verdict, here]
    exact eq_comm
  · cases one <;> cases two <;> simp [RetryRule.verdict, here]
    exact eq_comm

theorem first_late {found : String → Bool} :
    RetryRule.first found = .auth ∨ RetryRule.first found = .unnamed ↔
      ∀ rule ∈ RetryRule.beforeAuth, rule.named found = false := by
  have early : .auth ∉ RetryRule.beforeAuth ∧ .unnamed ∉ RetryRule.beforeAuth := by decide
  unfold RetryRule.first
  rw [List.find?_append]
  cases here : RetryRule.beforeAuth.find? (RetryRule.named found) with
  | none =>
      have none_ := List.find?_eq_none.mp here
      refine iff_of_true ?_ fun rule member => by simpa using none_ rule member
      cases late : RetryRule.named found .auth with
      | true => simp [late]
      | false => simp [late]
  | some rule =>
      have member := List.mem_of_find?_eq_some here
      have named := List.find?_some here
      refine iff_of_false ?_ fun none_ => by simp [none_ rule member] at named
      rintro (same | same)
      · have auth : rule = .auth := same
        exact early.1 (auth ▸ member)
      · have unnamed : rule = .unnamed := same
        exact early.2 (unnamed ▸ member)

end Rules

/-- What the answer of a service says makes no difference, and a refused request is not
tried again. -/
structure BodyFree (stage operation : String) (code : Nat) (one two : String) : Prop where
  same : classifyRetryableError stage (statusError operation code one) =
    classifyRetryableError stage (statusError operation code two)
  denied : code = 401 ∨ code = 403 →
    (classifyRetryableError stage (statusError operation code one)).2 = false ∧
      (classifyRetryableError stage (statusError operation code two)).2 = false

/-- The first case that the lead or the body names is the same one for both bodies, and
none before that of 401 and 403 where the code is one of these. -/
structure SameCase (stage operation : String) (code : Nat) (one two : String) : Prop where
  first : RetryRule.first (quotes operation code one) = RetryRule.first (quotes operation code two) ∨
    (stage = "auth_error" ∧ ∀ body ∈ [one, two], ∀ rule ∈ RetryRule.beforeAuth,
      rule.named (quotes operation code body) = false)
  denied : code = 401 ∨ code = 403 → ∀ body ∈ [one, two], ∀ rule ∈ RetryRule.beforeAuth,
    rule.named (quotes operation code body) = false

theorem classification_body_free_iff (stage operation : String) (code : Nat) (one two : String) :
    BodyFree stage operation code one two ↔ SameCase stage operation code one two := by
  have late (body : String) :
      (classifyRetryableError stage (statusError operation code body)).2 = false ↔
        ∀ rule ∈ RetryRule.beforeAuth, rule.named (quotes operation code body) = false := by
    rw [classify_status, verdict_kept, first_late]
  have same : classifyRetryableError stage (statusError operation code one) =
      classifyRetryableError stage (statusError operation code two) ↔
      RetryRule.first (quotes operation code one) = RetryRule.first (quotes operation code two) ∨
        (stage = "auth_error" ∧ ∀ body ∈ [one, two], ∀ rule ∈ RetryRule.beforeAuth,
          rule.named (quotes operation code body) = false) := by
    rw [classify_status, classify_status, verdict_inj, first_late, first_late]
    simp
  constructor
  · rintro ⟨equal, denied⟩
    refine ⟨same.mp equal, fun refused => ?_⟩
    simpa [late] using denied refused
  · rintro ⟨first, denied⟩
    refine ⟨same.mpr first, fun refused => ?_⟩
    simpa [late] using denied refused

/-- The phrases that tell about a service's own limits stand nowhere in the body. -/
def CleanBody (body : String) : Prop :=
  ∀ phrase ∈ ["secondary rate limit", "failed to place sandbox", "currently running a job",
    "cannot be deleted"], contains (toLower body) phrase = false

/-- A refused request for a registration token is tried again, since the body speaks of a
timeout. -/
theorem refused_request_retried : ¬∀ (stage operation : String) (code : Nat) (one two : String),
    100 ≤ code → code < 1000 → CleanBody one → CleanBody two →
      BodyFree stage operation code one two := by
  intro all
  have free := all "github" "github registration token" 403 "Forbidden" "upstream timeout"
    (by decide) (by decide) (by unfold CleanBody; decide) (by unfold CleanBody; decide)
  have kept := (free.denied (.inr rfl)).2
  revert kept
  decide

end Runnerd
