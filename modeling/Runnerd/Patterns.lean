import Mathlib.Data.List.Basic
import Mathlib.Data.List.TakeWhile

/-!
Anchored patterns such as `^a([^/]+)b$`: literal text and greedy groups of one or
more characters of a class. `capture` backtracks the way a regular expression
engine does. Where a text can be cut along the pieces in one way only, the engine
finds that way, whatever the order in which it tries.
-/

namespace Runnerd.Patterns

variable {α β : Type}

inductive Piece (α : Type) where
  | literal (text : List α)
  /-- `([..]+)`, one or more characters of a class. -/
  | group (admits : α → Bool)

section Engine

/-- The longest front of the class after which the rest goes on. -/
def longest (next : List α → Option β) (admits : α → Bool) : List α → Option (List α × β)
  | [] => none
  | c :: rest =>
      if admits c then
        match longest next admits rest with
        | some (front, found) => some (c :: front, found)
        | none => (next rest).map fun found => ([c], found)
      else none

variable [DecidableEq α]

/-- What the groups captured, when the whole text matches. -/
def capture : List (Piece α) → List α → Option (List (List α))
  | [], text => if text = [] then some [] else none
  | .literal lead :: pieces, text =>
      if lead.isPrefixOf text then capture pieces (text.drop lead.length) else none
  | .group admits :: pieces, text =>
      (longest (capture pieces) admits text).map fun found => found.1 :: found.2

end Engine

section Cuts

/-- The text is the pieces one after the other, the groups filled so. -/
inductive Cuts : List (Piece α) → List (List α) → List α → Prop where
  | done : Cuts [] [] []
  | literal (lead : List α) {pieces : List (Piece α)} {captures : List (List α)} {rest : List α}
      (tail : Cuts pieces captures rest) : Cuts (.literal lead :: pieces) captures (lead ++ rest)
  | group {admits : α → Bool} {front : List α} {pieces : List (Piece α)}
      {captures : List (List α)} {rest : List α} (filled : front ≠ [])
      (admitted : ∀ c ∈ front, admits c = true) (tail : Cuts pieces captures rest) :
      Cuts (.group admits :: pieces) (front :: captures) (front ++ rest)

theorem longest_sound {next : List α → Option β} {admits : α → Bool} {text front : List α}
    {found : β} (matched : longest next admits text = some (front, found)) :
    front ≠ [] ∧ (∀ c ∈ front, admits c = true) ∧
      ∃ rest, text = front ++ rest ∧ next rest = some found := by
  induction text generalizing front with
  | nil => simp [longest] at matched
  | cons c rest ih =>
    by_cases admitted : admits c = true
    · simp only [longest, admitted, if_true] at matched
      cases longer : longest next admits rest with
      | some pair =>
        obtain ⟨further, value⟩ := pair
        simp only [longer, Option.some.injEq, Prod.mk.injEq] at matched
        obtain ⟨rfl, rfl⟩ := matched
        have ⟨_, listed, tail, same, goes⟩ := ih longer
        refine ⟨by simp, ?_, tail, by rw [same, List.cons_append], goes⟩
        intro d member
        rcases List.mem_cons.mp member with rfl | member
        · exact admitted
        · exact listed d member
      | none =>
        simp only [longer, Option.map_eq_some_iff, Prod.mk.injEq] at matched
        obtain ⟨value, goes, rfl, rfl⟩ := matched
        exact ⟨by simp, by simpa using admitted, rest, rfl, goes⟩
    · simp [longest, admitted] at matched

/-- A front after which the rest goes on is enough for a match. -/
theorem longest_complete {next : List α → Option β} {admits : α → Bool} {front rest : List α}
    (filled : front ≠ []) (admitted : ∀ c ∈ front, admits c = true)
    (goes : (next rest).isSome) : (longest next admits (front ++ rest)).isSome := by
  induction front with
  | nil => exact absurd rfl filled
  | cons c front ih =>
    have head : admits c = true := admitted c List.mem_cons_self
    simp only [List.cons_append, longest, head, if_true]
    cases longer : longest next admits (front ++ rest) with
    | some pair => rfl
    | none =>
      -- nothing longer matches, so this front is its last character
      by_cases empty : front = []
      · subst empty
        simpa using goes
      · have whole := ih empty fun d member => admitted d (List.mem_cons_of_mem c member)
        simp [longer] at whole

variable [DecidableEq α]

theorem capture_sound {pieces : List (Piece α)} {text : List α} {captures : List (List α)}
    (matched : capture pieces text = some captures) : Cuts pieces captures text := by
  induction pieces generalizing text captures with
  | nil =>
    simp only [capture, Option.ite_none_right_eq_some, Option.some.injEq] at matched
    obtain ⟨rfl, rfl⟩ := matched
    exact .done
  | cons piece pieces ih =>
    cases piece with
    | literal lead =>
      simp only [capture, Option.ite_none_right_eq_some, List.isPrefixOf_iff_prefix] at matched
      obtain ⟨⟨rest, rfl⟩, matched⟩ := matched
      rw [List.drop_left] at matched
      exact .literal lead (ih matched)
    | group admits =>
      simp only [capture, Option.map_eq_some_iff] at matched
      obtain ⟨⟨front, found⟩, longer, rfl⟩ := matched
      obtain ⟨filled, admitted, rest, rfl, goes⟩ := longest_sound longer
      exact .group filled admitted (ih goes)

theorem capture_complete {pieces : List (Piece α)} {text : List α} {captures : List (List α)}
    (cuts : Cuts pieces captures text) : (capture pieces text).isSome := by
  induction cuts with
  | done => rfl
  | @literal lead pieces captures rest tail ih =>
    have leads : lead.isPrefixOf (lead ++ rest) = true :=
      List.isPrefixOf_iff_prefix.mpr ⟨rest, rfl⟩
    rw [capture, if_pos leads, List.drop_left]
    exact ih
  | group filled admitted tail ih =>
    rw [capture, Option.isSome_map]
    exact longest_complete filled admitted ih

/-- The engine finds the only way there is. -/
theorem capture_only {pieces : List (Piece α)} {text : List α} {captures : List (List α)}
    (cuts : Cuts pieces captures text)
    (only : ∀ other, Cuts pieces other text → other = captures) :
    capture pieces text = some captures := by
  obtain ⟨found, matched⟩ := Option.isSome_iff_exists.mp (capture_complete cuts)
  rw [matched, only found (capture_sound matched)]

theorem capture_none {pieces : List (Piece α)} {text : List α}
    (never : ∀ captures, ¬ Cuts pieces captures text) : capture pieces text = none := by
  cases matched : capture pieces text with
  | none => rfl
  | some captures => exact absurd (capture_sound matched) (never captures)

end Cuts

section Rules

variable [DecidableEq α]

@[simp] theorem capture_literal (lead : List α) (pieces : List (Piece α)) (text : List α) :
    capture (.literal lead :: pieces) (lead ++ text) = capture pieces text := by
  have leads : lead.isPrefixOf (lead ++ text) = true := List.isPrefixOf_iff_prefix.mpr ⟨text, rfl⟩
  rw [capture, if_pos leads, List.drop_left]

theorem capture_group (admits : α → Bool) (pieces : List (Piece α)) (text : List α) :
    capture (.group admits :: pieces) text =
      (longest (capture pieces) admits text).map fun found => found.1 :: found.2 := rfl

theorem capture_other {lead text : List α} (other : ¬ lead <+: text) (pieces : List (Piece α)) :
    capture (.literal lead :: pieces) text = none := by
  rw [capture, if_neg (by simpa using other)]

/-- A text that begins with another word. -/
theorem capture_apart {lead front : List α} (apart : ¬ lead <+: front ∧ ¬ front <+: lead)
    (pieces : List (Piece α)) (rest : List α) :
    capture (.literal lead :: pieces) (front ++ rest) = none := by
  apply capture_other
  intro leads
  rcases List.prefix_or_prefix_of_prefix leads (List.prefix_append front rest) with one | two
  · exact apart.1 one
  · exact apart.2 two

omit [DecidableEq α] in
theorem longest_none {next : List α → Option β} {admits : α → Bool} {text : List α}
    (stops : ∀ c, text.head? = some c → admits c = false) : longest next admits text = none := by
  cases text with
  | nil => rfl
  | cons c rest => simp [longest, stops c rfl]

/-- A group in front of a character that its class leaves out takes everything up to it. -/
theorem capture_before {admits : α → Bool} {front : List α} (filled : front ≠ [])
    (admitted : ∀ c ∈ front, admits c = true) {mark : α} (stops : admits mark = false)
    (lead : List α) (pieces : List (Piece α)) (text : List α) :
    capture (.group admits :: .literal (mark :: lead) :: pieces) (front ++ mark :: text) =
      (capture (.literal (mark :: lead) :: pieces) (mark :: text)).map (front :: ·) := by
  have whole : ∀ front : List α, front ≠ [] → (∀ c ∈ front, admits c = true) →
      longest (capture (.literal (mark :: lead) :: pieces)) admits (front ++ mark :: text) =
        (capture (.literal (mark :: lead) :: pieces) (mark :: text)).map (front, ·) := by
    intro front filled admitted
    induction front with
    | nil => exact absurd rfl filled
    | cons c front ih =>
      have head : admits c = true := admitted c List.mem_cons_self
      by_cases empty : front = []
      · subst empty
        have ends : longest (capture (.literal (mark :: lead) :: pieces)) admits (mark :: text) =
            none := longest_none (by simp [stops])
        rw [List.singleton_append, longest, if_pos head, ends]
      · have rest := ih empty fun d member => admitted d (List.mem_cons_of_mem c member)
        -- a shorter front leaves a character of the class in front of the mark
        have short : capture (.literal (mark :: lead) :: pieces) (front ++ mark :: text) = none := by
          apply capture_other
          obtain ⟨d, further, rfl⟩ := List.exists_cons_of_ne_nil empty
          intro leads
          rw [List.cons_append, List.cons_prefix_cons] at leads
          have listed := admitted d (by simp)
          rw [← leads.1, stops] at listed
          exact absurd listed (by simp)
        simp only [List.cons_append, longest, head, if_true, rest]
        cases capture (.literal (mark :: lead) :: pieces) (mark :: text) with
        | none => simp [short]
        | some found => rfl
  rw [capture_group, whole front filled admitted, Option.map_map]
  rfl

theorem front_unique {mark : α} {front front' rest rest' : List α} (absent : mark ∉ front)
    (absent' : mark ∉ front') (same : front ++ mark :: rest = front' ++ mark :: rest') :
    front = front' ∧ rest = rest' := by
  have cut : ∀ front rest : List α, mark ∉ front →
      (front ++ mark :: rest).takeWhile (· != mark) = front := by
    intro front rest absent
    rw [List.takeWhile_append_of_pos (by simpa using fun c member => ne_of_mem_of_not_mem member absent)]
    simp
  have fronts : front = front' := by rw [← cut front rest absent, same, cut front' rest' absent']
  subst fronts
  have rests := List.append_cancel_left same
  exact ⟨rfl, (List.cons.inj rests).2⟩

/-- The last group takes what is left. -/
theorem capture_end {admits : α → Bool} {text : List α} (filled : text ≠ [])
    (admitted : ∀ c ∈ text, admits c = true) : capture [.group admits] text = some [text] := by
  have cuts : Cuts [.group admits] [text] text := by
    simpa using Cuts.group filled admitted .done
  refine capture_only cuts ?_
  intro other found
  cases found with
  | group _ _ tail =>
    cases tail
    simp

/-- Two groups with a mark between them that the second leaves out: the cut is at
the last one. -/
theorem capture_last {first second : α → Bool} {front tail : List α} {mark : α}
    (filled : front ≠ []) (admitted : ∀ c ∈ front, first c = true) (kept : tail ≠ [])
    (listed : ∀ c ∈ tail, second c = true) (stops : second mark = false) :
    capture [.group first, .literal [mark], .group second] (front ++ mark :: tail) =
      some [front, tail] := by
  have absent : ∀ text : List α, (∀ c ∈ text, second c = true) → mark ∉ text := by
    intro text all member
    rw [all mark member] at stops
    exact absurd stops (by simp)
  have cuts : Cuts [.group first, .literal [mark], .group second] [front, tail]
      (front ++ mark :: tail) := by
    have back : Cuts [.group second] [tail] tail := by simpa using Cuts.group kept listed .done
    exact .group filled admitted (.literal [mark] back)
  refine capture_only cuts ?_
  intro other found
  generalize whole : front ++ mark :: tail = text at found
  cases found with
  | group _ _ rest =>
    cases rest with
    | literal _ rest =>
      cases rest with
      | group _ others ended =>
        cases ended
        rename_i given _ last _
        rw [List.append_nil, List.singleton_append] at whole
        -- read from the back, the mark comes first
        have back := congrArg List.reverse whole
        simp only [List.reverse_append, List.reverse_cons, List.append_assoc,
          List.singleton_append] at back
        have same := front_unique (by simpa using absent tail listed)
          (by simpa using absent last others) back
        rw [List.reverse_inj, List.reverse_inj] at same
        rw [same.1, same.2]

/-- How often the literals alone hold the mark. -/
def fixed (mark : α) : List (Piece α) → Nat
  | [] => 0
  | .literal lead :: pieces => lead.count mark + fixed mark pieces
  | .group _ :: pieces => fixed mark pieces

theorem cuts_count {pieces : List (Piece α)} {captures : List (List α)} {text : List α}
    (cuts : Cuts pieces captures text) (mark : α) : fixed mark pieces ≤ text.count mark := by
  induction cuts with
  | done => simp [fixed]
  | literal lead tail ih =>
    rw [fixed, List.count_append]
    omega
  | group filled admitted tail ih =>
    rw [fixed, List.count_append]
    omega

theorem capture_few {pieces : List (Piece α)} {text : List α} (mark : α)
    (few : text.count mark < fixed mark pieces) : capture pieces text = none := by
  apply capture_none
  intro captures cuts
  have enough := cuts_count cuts mark
  omega

end Rules

end Runnerd.Patterns
