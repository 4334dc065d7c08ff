import Mathlib.Data.List.Infix

/-!
Session policies: statements that allow actions on resources, as long as each
condition on the request's context is met. Resources and condition values are
patterns in which `*` stands for any text and `?` for any one rune.

`covers_iff` is the fact the rest rests on: a pattern that is plain text
followed by a star matches what starts with that text.
-/

namespace Runnerd.SessionPolicy

def wildMatch : List Char → List Char → Bool
  | [], text => text.isEmpty
  | '*' :: pattern, text => text.tails.any fun rest => wildMatch pattern rest
  | '?' :: _, [] => false
  | '?' :: pattern, _ :: text => wildMatch pattern text
  | _ :: _, [] => false
  | rune :: pattern, other :: text => rune == other && wildMatch pattern text

/-- `StringLike`, also used for resources. -/
def like (pattern text : String) : Bool := wildMatch pattern.toList text.toList

def Plain (runes : List Char) : Prop := ∀ rune ∈ runes, rune ≠ '*' ∧ rune ≠ '?'

@[simp] theorem plain_nil : Plain [] := by simp [Plain]

@[simp] theorem plain_append (first second : List Char) :
    Plain (first ++ second) ↔ Plain first ∧ Plain second :=
  List.forall_mem_append

theorem wildMatch_star (text : List Char) : wildMatch ['*'] text = true := by
  rw [wildMatch, List.any_eq_true]
  exact ⟨[], (List.mem_tails [] text).mpr List.nil_suffix, rfl⟩

theorem wildMatch_plain (runes pattern text : List Char) (plain : Plain runes) :
    wildMatch (runes ++ pattern) text = true ↔
      ∃ rest, text = runes ++ rest ∧ wildMatch pattern rest = true := by
  induction runes generalizing text with
  | nil => simp
  | cons rune runes ih =>
      have own := plain rune List.mem_cons_self
      have rest : Plain runes := fun other member => plain other (List.mem_cons_of_mem rune member)
      have tail (text : List Char) := ih text rest
      cases text with
      | nil => simp [wildMatch, own]
      | cons other text =>
          rw [List.cons_append, wildMatch]
          · rw [Bool.and_eq_true, beq_iff_eq, tail]
            simp only [List.cons_append, List.cons.injEq]
            grind
          · exact own.1
          · exact own.2

theorem covers_iff (runes text : List Char) (plain : Plain runes) :
    wildMatch (runes ++ ['*']) text = true ↔ runes <+: text := by
  rw [wildMatch_plain runes _ text plain]
  constructor
  · rintro ⟨rest, rfl, _⟩
    exact List.prefix_append runes rest
  · rintro ⟨rest, rfl⟩
    exact ⟨rest, rfl, wildMatch_star rest⟩

theorem wildMatch_self (runes text : List Char) (plain : Plain runes) :
    wildMatch runes text = true ↔ text = runes := by
  have exact := wildMatch_plain runes [] text plain
  rw [List.append_nil] at exact
  rw [exact]
  constructor
  · rintro ⟨rest, rfl, empty⟩
    have none : rest = [] := by simpa [wildMatch] using empty
    simp [none]
  · rintro rfl
    exact ⟨[], by simp, rfl⟩

/-- A statement of effect `Allow`. -/
structure Statement where
  actions : List String
  resources : List String
  /-- For each context key the patterns of its `StringLike` condition. -/
  stringLike : List (String × List String) := []
  deriving DecidableEq, Repr

abbrev Policy := List Statement

structure Request where
  action : String
  resource : String
  context : String → Option String

def Statement.permits (statement : Statement) (request : Request) : Bool :=
  statement.actions.contains request.action &&
    statement.resources.any (fun pattern => like pattern request.resource) &&
    statement.stringLike.all fun condition =>
      (request.context condition.1).any fun value => condition.2.any fun pattern => like pattern value

def permits (policy : Policy) (request : Request) : Bool :=
  policy.any fun statement => statement.permits request

/-- The resource patterns under which an action is allowed. -/
def resourcesFor (policy : Policy) (action : String) : List String :=
  policy.flatMap fun statement => if statement.actions.contains action then statement.resources else []

@[simp] theorem permits_nil (request : Request) : permits [] request = false := rfl

@[simp] theorem permits_cons (statement : Statement) (policy : Policy) (request : Request) :
    permits (statement :: policy) request = (statement.permits request || permits policy request) :=
  rfl

theorem Statement.permits_iff (statement : Statement) (request : Request) :
    statement.permits request = true ↔ request.action ∈ statement.actions ∧
      (∃ pattern ∈ statement.resources, like pattern request.resource = true) ∧
      ∀ condition ∈ statement.stringLike, ∃ value, request.context condition.1 = some value ∧
        ∃ pattern ∈ condition.2, like pattern value = true := by
  simp only [Statement.permits, Bool.and_eq_true, List.contains_iff_mem, List.any_eq_true,
    List.all_eq_true, Option.any_eq_true, and_assoc]

end Runnerd.SessionPolicy
