import Runnerd.SplitText

/-!
Slash-separated paths, cleaned lexically: empty elements and `.` go away, `..` takes the
element before it along, and a rooted path does not climb above its root.
-/

namespace Runnerd.Paths

open SplitText

abbrev Text := List UInt8

def slash : UInt8 := 47
def dot : UInt8 := 46

def parent : Text := [dot, dot]

section Cleaning

/-- One element of a path, behind those that are entered, last first. -/
def enter (rooted : Bool) (entered : List Text) (element : Text) : List Text :=
  if element = [] ∨ element = [dot] then entered
  else if element = parent then
    match entered with
    | [] => if rooted then [] else [parent]
    | last :: rest => if last = parent then parent :: entered else rest
  else element :: entered

def entered (rooted : Bool) (elements : List Text) : List Text :=
  (elements.foldl (enter rooted) []).reverse

def isRooted (path : Text) : Bool := path.head? == some slash

/-- `path.Clean`. -/
def clean (path : Text) : Text :=
  let elements := entered (isRooted path) (path.splitOn slash)
  if isRooted path then slash :: [slash].intercalate elements
  else if elements = [] then [dot]
  else [slash].intercalate elements

end Cleaning

section Rooted

/-- Elements that name something below the root. -/
def Below (element : Text) : Prop :=
  element ≠ [] ∧ element ≠ [dot] ∧ element ≠ parent ∧ slash ∉ element

theorem enter_below {entered : List Text} {element : Text}
    (below : ∀ name ∈ entered, Below name) (plain : slash ∉ element) :
    ∀ name ∈ enter true entered element, Below name := by
  unfold enter
  by_cases skipped : element = [] ∨ element = [dot]
  · simpa [skipped] using below
  · rw [not_or] at skipped
    by_cases climbs : element = parent
    · subst climbs
      cases entered with
      | nil => simp [parent]
      | cons last rest =>
          have named := (below last List.mem_cons_self).2.2.1
          simp only [skipped, or_self, if_false, if_true, named]
          exact fun name member => below name (List.mem_cons_of_mem last member)
    · simp only [skipped, climbs, or_self, if_false]
      intro name member
      rcases List.mem_cons.mp member with rfl | old
      · exact ⟨skipped.1, skipped.2, climbs, plain⟩
      · exact below name old

theorem foldl_below (elements : List Text) (plain : ∀ element ∈ elements, slash ∉ element)
    (start : List Text) (below : ∀ name ∈ start, Below name) :
    ∀ name ∈ elements.foldl (enter true) start, Below name := by
  induction elements generalizing start with
  | nil => exact below
  | cons element rest ih =>
      have here := enter_below below (plain element List.mem_cons_self)
      exact ih (fun later member => plain later (List.mem_cons_of_mem element member)) _ here

theorem entered_below (path : Text) :
    ∀ name ∈ entered true (path.splitOn slash), Below name := by
  intro name member
  have plain : ∀ element ∈ path.splitOn slash, slash ∉ element :=
    fun element listed => separator_absent listed
  exact foldl_below _ plain [] (by simp) name (List.mem_reverse.mp member)

/-- Elements below the root stay as they are. -/
theorem foldl_enter (rooted : Bool) (elements start : List Text)
    (below : ∀ name ∈ elements, Below name) :
    elements.foldl (enter rooted) start = elements.reverse ++ start := by
  induction elements generalizing start with
  | nil => rfl
  | cons element rest ih =>
      obtain ⟨filled, still, named, -⟩ := below element List.mem_cons_self
      have here : enter rooted start element = element :: start := by
        simp [enter, filled, still, named]
      rw [List.foldl_cons, here, ih _ fun later member => below later (List.mem_cons_of_mem _ member)]
      simp

theorem entered_self (rooted : Bool) {elements : List Text}
    (below : ∀ name ∈ elements, Below name) : entered rooted elements = elements := by
  rw [entered, foldl_enter rooted elements [] below, List.append_nil, List.reverse_reverse]

/-- A path from the root to what the elements name. -/
def rootedAt (elements : List Text) : Text := slash :: [slash].intercalate elements

theorem splitOn_rootedAt {elements : List Text} (below : ∀ name ∈ elements, Below name)
    (filled : elements ≠ []) : (rootedAt elements).splitOn slash = [] :: elements := by
  have plain : ∀ element ∈ elements, slash ∉ element := fun element member =>
    (below element member).2.2.2
  rw [rootedAt, List.splitOn_cons_eq_if_modifyHead, if_pos (beq_self_eq_true slash),
    List.splitOn_intercalate slash plain filled]

theorem clean_rootedAt {elements : List Text} (below : ∀ name ∈ elements, Below name) :
    clean (rootedAt elements) = rootedAt elements := by
  have rooted : isRooted (rootedAt elements) = true := by
    simp [isRooted, rootedAt]
  by_cases bare : elements = []
  · subst bare
    decide
  · have skip : entered true ([] :: elements) = entered true elements := rfl
    simp only [clean, rooted, if_true, splitOn_rootedAt below bare, skip, entered_self true below]
    rfl

/-- A last slash is lost. -/
theorem clean_trailing (elements : List Text) :
    clean (rootedAt elements ++ [slash]) = clean (rootedAt elements) := by
  have rooted : isRooted (rootedAt elements) = true := by
    simp [isRooted, rootedAt]
  have longer : isRooted (rootedAt elements ++ [slash]) = true := by
    simp [isRooted, rootedAt]
  have split : (rootedAt elements ++ [slash]).splitOn slash =
      (rootedAt elements).splitOn slash ++ [[]] := List.splitOn_append_cons_self _ _
  have same : entered true ((rootedAt elements).splitOn slash ++ [[]]) =
      entered true ((rootedAt elements).splitOn slash) := by
    simp [entered, enter]
  simp only [clean, rooted, longer, if_true, split, same]

theorem intercalate_filled {elements : List Text} (below : ∀ name ∈ elements, Below name)
    (filled : elements ≠ []) : [slash].intercalate elements ≠ [] := by
  obtain ⟨element, rest, rfl⟩ := List.exists_cons_of_ne_nil filled
  obtain ⟨named, -⟩ := below element List.mem_cons_self
  cases rest with
  | nil => simpa using named
  | cons => simp [List.intercalate_cons_cons]

theorem intercalate_last (elements : List Text) (below : ∀ name ∈ elements, Below name) :
    ([slash].intercalate elements).getLast? ≠ some slash := by
  induction elements with
  | nil => simp
  | cons element rest ih =>
      obtain ⟨filled, -, -, plain⟩ := below element List.mem_cons_self
      cases rest with
      | nil =>
          rw [List.intercalate_singleton]
          exact fun last => plain (List.mem_of_getLast? last)
      | cons next more =>
          have behind : ∀ name ∈ next :: more, Below name :=
            fun name member => below name (List.mem_cons_of_mem element member)
          have inner := intercalate_filled behind (List.cons_ne_nil next more)
          rw [List.intercalate_cons_cons, List.getLast?_append_of_ne_nil _ inner]
          exact ih behind

theorem rootedAt_last {elements : List Text} (below : ∀ name ∈ elements, Below name)
    (filled : elements ≠ []) : (rootedAt elements).getLast? ≠ some slash := by
  have inner := intercalate_filled below filled
  have last : (rootedAt elements).getLast? = ([slash].intercalate elements).getLast? := by
    rw [rootedAt, ← List.singleton_append, List.getLast?_append_of_ne_nil _ inner]
  rw [last]
  exact intercalate_last elements below

/-- What cleaning makes of a rooted path: a path below the root without detours. -/
theorem clean_rooted {path : Text} (rooted : isRooted path = true) :
    ∃ elements, (∀ name ∈ elements, Below name) ∧ clean path = rootedAt elements := by
  refine ⟨_, entered_below path, ?_⟩
  simp [clean, rooted, rootedAt]

theorem clean_clean {path : Text} (rooted : isRooted path = true) :
    clean (clean path) = clean path := by
  obtain ⟨elements, below, cleaned⟩ := clean_rooted rooted
  rw [cleaned, clean_rootedAt below]

/-- Behind the root of a clean path stands no second slash. -/
theorem rootedAt_second {elements : List Text} (below : ∀ name ∈ elements, Below name)
    {second : UInt8} {rest : Text} (shape : rootedAt elements = slash :: second :: rest) :
    second ≠ slash := by
  cases elements with
  | nil => simp [rootedAt] at shape
  | cons element later =>
      obtain ⟨filled, -, -, plain⟩ := below element List.mem_cons_self
      obtain ⟨first, others, rfl⟩ := List.exists_cons_of_ne_nil filled
      have head : first = second := by
        cases later with
        | nil =>
            simp only [rootedAt, List.intercalate_singleton, List.cons.injEq, true_and] at shape
            exact shape.1
        | cons next more =>
            simp only [rootedAt, List.intercalate_cons_cons, List.cons_append, List.cons.injEq,
              true_and] at shape
            exact shape.1
      rw [← head]
      exact fun same => plain (same ▸ List.mem_cons_self)

end Rooted

section Members

theorem enter_sublist (rooted : Bool) (entered : List Text) (element : Text) :
    ∀ name ∈ enter rooted entered element, name ∈ entered ∨ name = element := by
  intro name member
  unfold enter at member
  by_cases skipped : element = [] ∨ element = [dot]
  · rw [if_pos skipped] at member
    exact Or.inl member
  · rw [if_neg skipped] at member
    by_cases climbs : element = parent
    · rw [if_pos climbs] at member
      cases entered with
      | nil => cases rooted <;> simp_all
      | cons last rest =>
          by_cases stuck : last = parent
          · simp only [stuck, if_true, List.mem_cons] at member ⊢
            rcases member with here | here | there
            · exact Or.inr (here.trans climbs.symm)
            · exact Or.inl (Or.inl here)
            · exact Or.inl (Or.inr there)
          · simp only [stuck, if_false] at member
            exact Or.inl (List.mem_cons_of_mem last member)
    · rw [if_neg climbs] at member
      rcases List.mem_cons.mp member with here | there
      · exact Or.inr here
      · exact Or.inl there

theorem foldl_member (rooted : Bool) (elements start : List Text) :
    ∀ name ∈ elements.foldl (enter rooted) start, name ∈ start ∨ name ∈ elements := by
  induction elements generalizing start with
  | nil => exact fun name member => Or.inl member
  | cons element rest ih =>
      intro name member
      rcases ih _ name member with entered | later
      · rcases enter_sublist rooted start element name entered with old | rfl
        · exact Or.inl old
        · exact Or.inr List.mem_cons_self
      · exact Or.inr (List.mem_cons_of_mem element later)

theorem intercalate_member (elements : List Text) :
    ∀ c ∈ [slash].intercalate elements, c = slash ∨ ∃ element ∈ elements, c ∈ element := by
  induction elements with
  | nil => simp
  | cons element rest ih =>
      intro c member
      cases rest with
      | nil =>
          rw [List.intercalate_singleton] at member
          exact Or.inr ⟨element, List.mem_cons_self, member⟩
      | cons next more =>
          rw [List.intercalate_cons_cons, List.mem_append, List.mem_append] at member
          rcases member with (here | mark) | later
          · exact Or.inr ⟨element, List.mem_cons_self, here⟩
          · exact Or.inl (List.mem_singleton.mp mark)
          · rcases ih c later with mark | ⟨other, listed, inside⟩
            · exact Or.inl mark
            · exact Or.inr ⟨other, List.mem_cons_of_mem element listed, inside⟩

/-- Cleaning a rooted path brings in no byte but slashes. -/
theorem clean_member {path : Text} (rooted : isRooted path = true) :
    ∀ c ∈ clean path, c = slash ∨ c ∈ path := by
  intro c member
  simp only [clean, rooted, if_true, List.mem_cons] at member
  rcases member with mark | inside
  · exact Or.inl mark
  · rcases intercalate_member _ c inside with mark | ⟨element, listed, here⟩
    · exact Or.inl mark
    · rcases foldl_member true _ [] element (List.mem_reverse.mp listed) with none | piece
      · simp at none
      · exact Or.inr ((piece_sublist piece).subset here)

end Members

example : clean (slash :: 97 :: slash :: dot :: dot :: slash :: slash :: [98]) = [slash, 98] := by
  decide

end Runnerd.Paths
