import Mathlib.Data.List.Basic
import Mathlib.Data.List.Induction
import Mathlib.Order.Lattice
import Mathlib.Order.MinMax

/-!
A list split into groups by a key, one element after another, in any structure that
can look a group up. And what a group keeps from its elements when a newer one
replaces what an older one has left: the text of the last element that is newer than
all elements before it.
-/

namespace Runnerd

section Gathering

variable {State Element Group Key : Type}

/-- What the elements of one key make. -/
def gathered (start : Element → Group) (join : Group → Element → Group) :
    List Element → Option Group
  | [] => none
  | first :: rest => some (rest.foldl join (start first))

theorem gathered_append (start : Element → Group) (join : Group → Element → Group)
    (elements : List Element) (last : Element) :
    gathered start join (elements ++ [last]) =
      some (((gathered start join elements).map fun group => join group last).getD (start last)) := by
  cases elements with
  | nil => rfl
  | cons first rest => simp [gathered]

/-- A step that puts each element into the group of its key. -/
structure Gathers [DecidableEq Key] (look : State → Key → Option Group)
    (step : State → Element → State) (key : Element → Key) (start : Element → Group)
    (join : Group → Element → Group) : Prop where
  own : ∀ state element, look (step state element) (key element) =
    some (((look state (key element)).map fun group => join group element).getD (start element))
  other : ∀ state element k, key element ≠ k → look (step state element) k = look state k

theorem gathers_fold [DecidableEq Key] (look : State → Key → Option Group)
    {step : State → Element → State} {key : Element → Key} {start : Element → Group}
    {join : Group → Element → Group} (gathers : Gathers look step key start join) {state : State}
    (empty : ∀ k, look state k = none) (elements : List Element) (k : Key) :
    look (elements.foldl step state) k =
      gathered start join (elements.filter fun element => decide (key element = k)) := by
  induction elements using List.reverseRecOn with
  | nil => exact empty k
  | append_singleton elements last ih =>
      rw [List.foldl_append, List.filter_append]
      by_cases same : key last = k
      · subst same
        rw [List.filter_singleton, decide_eq_true rfl]
        exact (gathers.own _ last).trans (by rw [ih]; exact (gathered_append start join _ last).symm)
      · rw [List.filter_singleton, decide_eq_false same]
        exact (gathers.other _ last k same).trans (by rw [ih]; simp)

end Gathering

section Leading

variable {Element Clock : Type} [LinearOrder Clock]

/-- The newest clock so far, and the text that is kept. -/
structure Lead (Clock : Type) where
  latest : Clock
  kept : String

/-- A newer element brings its text, any element brings a text where there is none. -/
def Lead.join (lead : Lead Clock) (clock : Clock) (text : String) : Lead Clock :=
  let lead : Lead Clock :=
    if lead.latest < clock then ⟨clock, if text ≠ "" then text else lead.kept⟩ else lead
  if text ≠ "" ∧ lead.kept = "" then { lead with kept := text } else lead

theorem join_latest (lead : Lead Clock) (clock : Clock) (text : String) :
    (lead.join clock text).latest = max lead.latest clock := by
  unfold Lead.join
  by_cases newer : lead.latest < clock
  · simp [newer, max_eq_right newer.le, apply_ite Lead.latest]
  · simp [newer, max_eq_left (not_lt.mp newer), apply_ite Lead.latest]

theorem join_kept (lead : Lead Clock) (clock : Clock) (text : String) :
    (lead.join clock text).kept =
      if text ≠ "" ∧ (lead.latest < clock ∨ lead.kept = "") then text else lead.kept := by
  unfold Lead.join
  by_cases newer : lead.latest < clock <;> by_cases named : text = "" <;>
    by_cases blank : lead.kept = "" <;> simp [newer, named, blank]

/-- The elements with a text that are newer than all before them. -/
def leaders (clock : Element → Clock) (text : Element → String) :
    List Element → List Element → List Element
  | _, [] => []
  | seen, element :: rest =>
      (if text element ≠ "" ∧ ∀ old ∈ seen, clock old < clock element then [element] else []) ++
        leaders clock text (element :: seen) rest

/-- The text of the last of them; where there is none, of the first element with one. -/
def leadingText (clock : Element → Clock) (text : Element → String) (elements : List Element) :
    Option String :=
  ((leaders clock text [] elements).getLast?.or
    (elements.find? fun element => decide (text element ≠ ""))).map text

variable {clock : Element → Clock} {text : Element → String}

theorem leaders_append (seen elements : List Element) (last : Element) :
    leaders clock text seen (elements ++ [last]) = leaders clock text seen elements ++
      if text last ≠ "" ∧ (∀ old ∈ seen, clock old < clock last) ∧
        ∀ old ∈ elements, clock old < clock last then [last] else [] := by
  induction elements generalizing seen with
  | nil => simp [leaders]
  | cons first rest ih =>
      have same : (text last ≠ "" ∧ (∀ old ∈ first :: seen, clock old < clock last) ∧
          ∀ old ∈ rest, clock old < clock last) ↔ (text last ≠ "" ∧
          (∀ old ∈ seen, clock old < clock last) ∧ ∀ old ∈ first :: rest, clock old < clock last) := by
        simp only [List.forall_mem_cons]
        tauto
      rw [List.cons_append, leaders, leaders, ih, List.append_assoc, if_congr same rfl rfl]

theorem leaders_text (seen elements : List Element) :
    ∀ element ∈ leaders clock text seen elements, text element ≠ "" ∧ element ∈ elements := by
  induction elements generalizing seen with
  | nil => exact fun element member => by cases member
  | cons first rest ih =>
      intro element member
      rcases List.mem_append.mp member with here | later
      · split at here
        · rename_i leads
          cases List.mem_singleton.mp here
          exact ⟨leads.1, List.mem_cons_self⟩
        · cases here
      · exact ⟨(ih _ element later).1, List.mem_cons_of_mem _ (ih _ element later).2⟩

/-- The kept text is one of the texts. -/
theorem leadingText_some {elements : List Element} {found : String}
    (leading : leadingText clock text elements = some found) :
    found ≠ "" ∧ ∃ element ∈ elements, text element = found := by
  obtain ⟨element, chosen, rfl⟩ := Option.map_eq_some_iff.mp leading
  rcases Option.or_eq_some_iff.mp chosen with last | ⟨_, first⟩
  · obtain ⟨named, member⟩ := leaders_text [] elements element (List.mem_of_getLast? last)
    exact ⟨named, element, member, rfl⟩
  · have named := List.find?_some (p := fun element => decide (text element ≠ "")) first
    exact ⟨of_decide_eq_true named, element, List.mem_of_find?_eq_some first, rfl⟩

theorem leadingText_none {elements : List Element} :
    leadingText clock text elements = none ↔ ∀ element ∈ elements, text element = "" := by
  constructor
  · intro leading element member
    have absent := (Option.or_eq_none_iff.mp (Option.map_eq_none_iff.mp leading)).2
    have blank := List.find?_eq_none.mp absent element member
    simpa using blank
  · intro blank
    cases leading : leadingText clock text elements with
    | none => rfl
    | some found =>
        obtain ⟨named, element, member, rfl⟩ := leadingText_some leading
        exact absurd (blank element member) named

/-- A leading text is not empty, so it may be taken for one. -/
theorem leadingText_getD {Other : Type} [LinearOrder Other] {other : Element → Other}
    {elements : List Element} :
    (leadingText clock text elements).getD "" = (leadingText other text elements).getD "" ↔
      leadingText clock text elements = leadingText other text elements := by
  refine ⟨fun same => ?_, fun same => by rw [same]⟩
  cases one : leadingText clock text elements with
  | none =>
      exact (leadingText_none.mpr (leadingText_none.mp one)).symm
  | some found =>
      cases two : leadingText other text elements with
      | none =>
          have blank : leadingText clock text elements = none :=
            leadingText_none.mpr (leadingText_none.mp two)
          rw [one] at blank
          cases blank
      | some value =>
          rw [one, two] at same
          exact congrArg some same

theorem leaders_map {Source : Type} (f : Source → Element) (seen elements : List Source) :
    leaders clock text (seen.map f) (elements.map f) =
      (leaders (clock ∘ f) (text ∘ f) seen elements).map f := by
  induction elements generalizing seen with
  | nil => rfl
  | cons first rest ih =>
      have grown := ih (first :: seen)
      rw [List.map_cons] at grown
      rw [List.map_cons, leaders, leaders, grown, List.map_append]
      congr 1
      by_cases leads : (text ∘ f) first ≠ "" ∧ ∀ old ∈ seen, (clock ∘ f) old < (clock ∘ f) first
      · rw [if_pos (by simpa using leads), if_pos leads]
        rfl
      · rw [if_neg (by simpa using leads), if_neg leads]
        rfl

theorem leadingText_map {Source : Type} (f : Source → Element) (elements : List Source) :
    leadingText clock text (elements.map f) = leadingText (clock ∘ f) (text ∘ f) elements := by
  have mapped : leaders clock text [] (elements.map f) =
      (leaders (clock ∘ f) (text ∘ f) [] elements).map f := leaders_map f [] elements
  unfold leadingText
  rw [mapped, List.getLast?_map, List.find?_map, ← Option.map_or, Option.map_map]
  rfl

theorem leadingText_append (elements : List Element) (last : Element) :
    leadingText clock text (elements ++ [last]) =
      if text last ≠ "" ∧ ((∀ old ∈ elements, clock old < clock last) ∨
        leadingText clock text elements = none) then some (text last)
      else leadingText clock text elements := by
  by_cases named : text last = ""
  · rw [if_neg (by simp [named])]
    simp [leadingText, leaders_append, named]
  · by_cases newer : ∀ old ∈ elements, clock old < clock last
    · rw [if_pos ⟨named, .inl newer⟩, leadingText, leaders_append, if_pos ⟨named, by simp, newer⟩,
        List.getLast?_concat]
      rfl
    · have kept : leaders clock text [] (elements ++ [last]) = leaders clock text [] elements := by
        rw [leaders_append, if_neg fun leads => newer leads.2.2, List.append_nil]
      by_cases none : leadingText clock text elements = none
      · rw [if_pos ⟨named, .inr none⟩]
        obtain ⟨leads, first⟩ := Option.or_eq_none_iff.mp (Option.map_eq_none_iff.mp none)
        rw [leadingText, kept, leads, List.find?_append, first]
        simp [named]
      · rw [if_neg (by tauto), leadingText, kept, leadingText, List.find?_append]
        cases leads : (leaders clock text [] elements).getLast? with
        | some element => rfl
        | none =>
            cases first : elements.find? fun element => decide (text element ≠ "") with
            | some element => rfl
            | none =>
                refine absurd ?_ none
                rw [leadingText, leads, first]
                rfl

/-- Joining the elements one after another keeps the newest clock and the leading text. -/
theorem lead_fold (first : Element) (rest : List Element) :
    let lead := rest.foldl (fun (lead : Lead Clock) element => lead.join (clock element) (text element))
      ⟨clock first, text first⟩
    (∀ old ∈ first :: rest, clock old ≤ lead.latest) ∧
      (∃ old ∈ first :: rest, clock old = lead.latest) ∧
      lead.kept = (leadingText clock text (first :: rest)).getD "" := by
  induction rest using List.reverseRecOn with
  | nil =>
      refine ⟨by simp, by simp, ?_⟩
      by_cases named : text first = ""
      · simp [leadingText, leaders, named]
      · simp [leadingText, leaders, named]
  | append_singleton rest last ih =>
      obtain ⟨bound, ⟨newest, member, reached⟩, kept⟩ := ih
      rw [List.foldl_append]
      generalize rest.foldl (fun (lead : Lead Clock) element =>
        lead.join (clock element) (text element)) ⟨clock first, text first⟩ = lead at *
      have newer : (∀ old ∈ first :: rest, clock old < clock last) ↔ lead.latest < clock last :=
        ⟨fun all => reached ▸ all newest member, fun later old here => (bound old here).trans_lt later⟩
      have blank : leadingText clock text (first :: rest) = none ↔ lead.kept = "" := by
        rw [kept]
        cases leading : leadingText clock text (first :: rest) with
        | none => simp
        | some found => simp [(leadingText_some leading).1]
      have replaces : (text last ≠ "" ∧ ((∀ old ∈ first :: rest, clock old < clock last) ∨
          leadingText clock text (first :: rest) = none)) ↔
          (text last ≠ "" ∧ (lead.latest < clock last ∨ lead.kept = "")) := by rw [newer, blank]
      dsimp only [List.foldl_cons, List.foldl_nil]
      rw [join_latest, join_kept, ← List.cons_append, leadingText_append,
        if_congr replaces rfl rfl]
      refine ⟨?_, ?_, ?_⟩
      · intro old member
        rcases List.mem_append.mp member with older | here
        · exact le_max_of_le_left (bound old older)
        · rw [List.mem_singleton.mp here]
          exact le_max_right _ _
      · rcases le_total lead.latest (clock last) with later | earlier
        · exact ⟨last, by simp, (max_eq_right later).symm⟩
        · exact ⟨newest, List.mem_append_left _ member, reached.trans (max_eq_left earlier).symm⟩
      · split
        · rfl
        · exact kept

/-- What comes after the newest element with a text does not matter. -/
theorem leadingText_newest {newest : Element} (named : text newest ≠ "") (before after : List Element)
    (latest : ∀ other ∈ after, text other ≠ "" → clock other ≤ clock newest) :
    leadingText clock text (before ++ newest :: after) =
      leadingText clock text (before ++ [newest]) := by
  induction after using List.reverseRecOn with
  | nil => rfl
  | append_singleton after last ih =>
      have kept := ih fun other member => latest other (List.mem_append_left _ member)
      rw [← List.cons_append, ← List.append_assoc, leadingText_append, kept]
      by_cases blank : text last = ""
      · simp [blank]
      · have older := latest last (by simp) blank
        have some_ : leadingText clock text (before ++ newest :: after) ≠ none := fun none_ =>
          named (leadingText_none.mp none_ newest (by simp))
        refine if_neg ?_
        rintro ⟨_, newer | none_⟩
        · exact not_le.mpr (newer newest (by simp)) older
        · exact some_ (kept.trans none_)

end Leading

end Runnerd
