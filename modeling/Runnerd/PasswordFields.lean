import Runnerd.Urls

/-!
The pattern of the redaction, `(?i)(password\s*=\s*)(?:'[^']*'|"[^"]*"|[^\s]+)`, and its
replacement over a whole text. Every part of it takes as much as it can and never has
to give a byte back, so a match is a function of the text.
-/

namespace Runnerd.PasswordFields

open Urls

section Pattern

def singleQuote : UInt8 := 39

def doubleQuote : UInt8 := 34

def isBlank (c : UInt8) : Bool := c == 9 || c == 10 || c == 12 || c == 13 || c == 32

/-- Without case the letter `s` is also U+017F, of the two bytes C5 BF. -/
def matchLetter (letter : UInt8) : Text → Option Text
  | [] => none
  | [c] => if toLower c = letter then some [] else none
  | c :: d :: rest =>
      if toLower c = letter then some (d :: rest)
      else if letter = code 's' ∧ c = 0xC5 ∧ d = 0xBF then some rest
      else none

def matchWord : Text → Text → Option Text
  | [], text => some text
  | letter :: letters, text => (matchLetter letter text).bind (matchWord letters)

def matchSign : Text → Option Text
  | [] => none
  | c :: rest => if c = code '=' then some (rest.dropWhile isBlank) else none

/-- What follows `password\s*=\s*`. -/
def matchHead (text : Text) : Option Text :=
  (matchWord (ascii "password") text).bind fun rest => matchSign (rest.dropWhile isBlank)

/-- What follows the value; a quote that nothing closes is part of a bare value. -/
def matchValue : Text → Option Text
  | [] => none
  | c :: rest =>
      if (c = singleQuote ∨ c = doubleQuote) ∧ c ∈ rest then some (cut c rest).2
      else if isBlank c then none
      else some (rest.dropWhile fun d => !isBlank d)

/-- The first group of a match at the start of the text, and the text after the match. -/
def passwordField (text : Text) : Option (Text × Text) :=
  (matchHead text).bind fun value =>
    (matchValue value).map fun left => (text.take (text.length - value.length), left)

/-- `ReplaceAllString`, with the number of bytes that a match has still to pass. -/
def replaceFrom : Nat → Text → Text
  | _, [] => []
  | skip + 1, _ :: rest => replaceFrom skip rest
  | 0, c :: rest =>
      match passwordField (c :: rest) with
      | some (head, left) =>
          head ++ ascii "xxxxx" ++ replaceFrom (rest.length - left.length) rest
      | none => c :: replaceFrom 0 rest

def replaceAllString (text : Text) : Text := replaceFrom 0 text

end Pattern

section Suffixes

theorem matchLetter_suffix {letter : UInt8} {text rest : Text}
    (found : matchLetter letter text = some rest) : ∃ c front, text = c :: front ++ rest := by
  match text with
  | [] => cases found
  | [c] =>
      simp only [matchLetter, Option.ite_none_right_eq_some, Option.some.injEq] at found
      exact ⟨c, [], by simp [found.2]⟩
  | c :: d :: more =>
      simp only [matchLetter] at found
      split at found
      · cases found
        exact ⟨c, [], rfl⟩
      · split at found
        · cases found
          exact ⟨c, [d], rfl⟩
        · cases found

theorem matchWord_suffix {letters text rest : Text} (found : matchWord letters text = some rest) :
    rest <:+ text := by
  induction letters generalizing text with
  | nil =>
      cases found
      exact List.suffix_rfl
  | cons letter letters ih =>
      obtain ⟨middle, first, others⟩ := Option.bind_eq_some_iff.mp found
      obtain ⟨c, front, rfl⟩ := matchLetter_suffix first
      exact (ih others).trans (List.suffix_append _ _)

theorem matchSign_suffix {text value : Text} (found : matchSign text = some value) :
    value.length < text.length ∧ value <:+ text := by
  cases text with
  | nil => cases found
  | cons c rest =>
      simp only [matchSign, Option.ite_none_right_eq_some, Option.some.injEq] at found
      obtain ⟨_, rfl⟩ := found
      have inner := List.dropWhile_suffix (l := rest) isBlank
      exact ⟨Nat.lt_succ_of_le inner.length_le, inner.trans (List.suffix_cons c rest)⟩

theorem matchHead_suffix {text value : Text} (found : matchHead text = some value) :
    value.length < text.length ∧ value <:+ text := by
  obtain ⟨rest, word, sign⟩ := Option.bind_eq_some_iff.mp found
  have outer := (List.dropWhile_suffix (l := rest) isBlank).trans (matchWord_suffix word)
  have ⟨shorter, inner⟩ := matchSign_suffix sign
  exact ⟨Nat.lt_of_lt_of_le shorter outer.length_le, inner.trans outer⟩

theorem cut_suffix (mark : UInt8) (text : Text) : (cut mark text).2 <:+ text :=
  (List.drop_suffix 1 _).trans (List.dropWhile_suffix _)

theorem matchValue_suffix {value left : Text} (found : matchValue value = some left) :
    left.length < value.length ∧ left <:+ value := by
  cases value with
  | nil => cases found
  | cons c rest =>
      have inner : left <:+ rest := by
        simp only [matchValue] at found
        split at found
        · cases found
          exact cut_suffix c rest
        · split at found
          · cases found
          · cases found
            exact List.dropWhile_suffix _
      exact ⟨Nat.lt_succ_of_le inner.length_le, inner.trans (List.suffix_cons c rest)⟩

/-- A match leaves a shorter rest of the text. -/
theorem passwordField_suffix {c : UInt8} {rest head left : Text}
    (found : passwordField (c :: rest) = some (head, left)) : left <:+ rest := by
  obtain ⟨value, named, read⟩ := Option.bind_eq_some_iff.mp found
  obtain ⟨after, valued, pair⟩ := Option.map_eq_some_iff.mp read
  cases pair
  have ⟨shorter, inner⟩ := matchHead_suffix named
  have ⟨less, deeper⟩ := matchValue_suffix valued
  rcases List.suffix_cons_iff.mp (deeper.trans inner) with whole | proper
  · have length := congrArg List.length whole
    rw [List.length_cons] at length shorter
    omega
  · exact proper

end Suffixes

section Replacing

theorem replaceFrom_drop (skip : Nat) (text : Text) :
    replaceFrom skip text = replaceAllString (text.drop skip) := by
  induction text generalizing skip with
  | nil => simp [replaceAllString, replaceFrom]
  | cons c rest ih =>
      cases skip with
      | zero => rfl
      | succ skip => exact ih skip

theorem drop_suffix_length {left rest : Text} (inner : left <:+ rest) :
    rest.drop (rest.length - left.length) = left := by
  obtain ⟨front, rfl⟩ := inner
  simp

theorem replaceAllString_field {text head left : Text}
    (found : passwordField text = some (head, left)) :
    replaceAllString text = head ++ ascii "xxxxx" ++ replaceAllString left := by
  cases text with
  | nil => cases found
  | cons c rest =>
      have inner := passwordField_suffix found
      simp only [replaceAllString, replaceFrom, found]
      rw [replaceFrom_drop, drop_suffix_length inner]
      rfl

theorem replaceAllString_cons {c : UInt8} {rest : Text} (none : passwordField (c :: rest) = none) :
    replaceAllString (c :: rest) = c :: replaceAllString rest := by
  simp only [replaceAllString, replaceFrom, none]

end Replacing

section Fronts

/-- Nothing, or a text that ends in a blank. -/
def Closed (text : Text) : Prop := ∀ c, text.getLast? = some c → isBlank c

/-- A text that a blank or a sign cannot take a byte of. -/
def Opens (rest : Text) : Prop :=
  ∃ c more, rest = c :: more ∧ isBlank c = false ∧ c ≠ code '='

theorem Closed.suffix {front text : Text} (closed : Closed text) (inner : front <:+ text) :
    Closed front := by
  obtain ⟨lead, rfl⟩ := inner
  intro c last
  exact closed c (by rw [List.getLast?_append, last, Option.some_or])

theorem Closed.tail {c : UInt8} {rest : Text} (closed : Closed (c :: rest)) : Closed rest :=
  closed.suffix (List.suffix_cons c rest)

theorem Closed.blank_mem {c : UInt8} {rest : Text} (closed : Closed (c :: rest))
    (dark : isBlank c = false) : ∃ d ∈ rest, isBlank d := by
  cases last : rest.getLast? with
  | none =>
      rw [List.getLast?_eq_none_iff.mp last] at closed
      rw [closed c rfl] at dark
      cases dark
  | some d =>
      exact ⟨d, List.mem_of_getLast? last, closed.tail d last⟩

theorem Opens.dropBlanks {rest : Text} (opening : Opens rest) (front : Text) :
    (front ++ rest).dropWhile isBlank = front.dropWhile isBlank ++ rest := by
  obtain ⟨c, more, rfl, dark, _⟩ := opening
  rw [List.dropWhile_append]
  by_cases passed : (front.dropWhile isBlank).isEmpty
  · rw [if_pos passed, List.isEmpty_iff.mp passed]
    simp [dark]
  · rw [if_neg passed]

theorem isBlank_lower {c : UInt8} (blank : isBlank c) {letter : UInt8}
    (known : letter ∈ ascii "password") : toLower c ≠ letter := by
  have blanks : ([9, 10, 12, 13, 32] : Text).all fun c => !(ascii "password").contains (toLower c) :=
    by decide
  have listed : c ∈ ([9, 10, 12, 13, 32] : Text) := by
    simpa [isBlank, or_assoc] using blank
  rintro rfl
  have absent := List.all_eq_true.mp blanks c listed
  simp [known] at absent

theorem matchLetter_front {letter : UInt8} (known : letter ∈ ascii "password") {front : Text}
    (closed : Closed front) (filled : front ≠ []) (rest : Text) :
    matchLetter letter (front ++ rest) = (matchLetter letter front).map (· ++ rest) ∧
      ∀ left, matchLetter letter front = some left → left ≠ [] ∧ Closed left := by
  match front with
  | [] => exact absurd rfl filled
  | [c] =>
      have blank : isBlank c := closed c rfl
      have other := isBlank_lower blank known
      have long : ¬ c = 0xC5 := by
        rintro rfl
        cases blank
      constructor
      · cases rest with
        | nil => simp [matchLetter, other]
        | cons d more => simp [matchLetter, other, long]
      · simp [matchLetter, other]
  | c :: d :: more =>
      simp only [List.cons_append, matchLetter]
      by_cases same : toLower c = letter
      · simp only [if_pos same, Option.map_some, List.cons_append, Option.some.injEq, true_and]
        rintro left rfl
        exact ⟨List.cons_ne_nil d more, closed.tail⟩
      · rw [if_neg same, if_neg same]
        by_cases long : letter = code 's' ∧ c = 0xC5 ∧ d = 0xBF
        · simp only [if_pos long, Option.map_some, Option.some.injEq, true_and]
          rintro left rfl
          refine ⟨?_, closed.tail.tail⟩
          rintro rfl
          have blank : isBlank d := closed d rfl
          rw [long.2.2] at blank
          cases blank
        · simp [if_neg long]

theorem matchWord_front {letters : Text} (known : ∀ c ∈ letters, c ∈ ascii "password")
    {front : Text} (closed : Closed front) (filled : front ≠ []) (rest : Text) :
    matchWord letters (front ++ rest) = (matchWord letters front).map (· ++ rest) ∧
      ∀ left, matchWord letters front = some left → left ≠ [] ∧ Closed left := by
  induction letters generalizing front with
  | nil => exact ⟨rfl, fun left same => by cases same; exact ⟨filled, closed⟩⟩
  | cons letter letters ih =>
      have ⟨here, others⟩ := List.forall_mem_cons.mp known
      have ⟨first, kept⟩ := matchLetter_front here closed filled rest
      simp only [matchWord, first]
      cases found : matchLetter letter front with
      | none => simp
      | some middle => exact ih others (kept middle found).2 (kept middle found).1

theorem matchSign_front {rest : Text} (opening : Opens rest) (front : Text) :
    matchSign (front ++ rest) = (matchSign front).map (· ++ rest) := by
  cases front with
  | nil =>
      obtain ⟨c, more, rfl, _, other⟩ := opening
      simp [matchSign, other]
  | cons c front =>
      simp only [List.cons_append, matchSign]
      by_cases sign : c = code '='
      · simp [sign, opening.dropBlanks]
      · simp [sign]

theorem matchHead_front {front rest : Text} (closed : Closed front) (filled : front ≠ [])
    (opening : Opens rest) :
    matchHead (front ++ rest) = (matchHead front).map (· ++ rest) := by
  have ⟨word, _⟩ := matchWord_front (fun _ known => known) closed filled rest
  simp only [matchHead, word]
  cases matchWord (ascii "password") front with
  | none => rfl
  | some left =>
      simp only [Option.map_some, Option.bind_some, opening.dropBlanks, matchSign_front opening]

theorem cut_mem {mark : UInt8} {front : Text} (member : mark ∈ front) (rest : Text) :
    (cut mark (front ++ rest)).2 = (cut mark front).2 ++ rest := by
  obtain ⟨before, after, rfl, absent⟩ := List.eq_append_cons_of_mem member
  rw [List.append_assoc, List.cons_append, cut_first absent, cut_first absent]

theorem cut_shorter {mark : UInt8} {text : Text} (member : mark ∈ text) :
    (cut mark text).2.length < text.length := by
  obtain ⟨before, after, rfl, absent⟩ := List.eq_append_cons_of_mem member
  simp only [cut_first absent, List.length_append, List.length_cons]
  omega

/-- The value that a field of `front` has in front of `rest`: none of it in `front`, all of it
in `front`, or a quote of `front` that `rest` closes. -/
theorem matchValue_front {value rest : Text} (closed : Closed value) (opening : Opens rest) :
    (∃ left, matchValue (value ++ rest) = some left ∧ left.length < rest.length) ∨
      (∃ left, matchValue (value ++ rest) = some (left ++ rest) ∧ matchValue value = some left) ∨
      (matchValue (value ++ rest) = none ∧ matchValue value = none) := by
  cases value with
  | nil =>
      obtain ⟨c, more, rfl, dark, _⟩ := opening
      left
      cases found : matchValue (c :: more) with
      | none =>
          simp only [matchValue, dark] at found
          split at found
          · cases found
          · cases found
      | some left => exact ⟨left, found, (matchValue_suffix found).1⟩
  | cons c value =>
      simp only [List.cons_append, matchValue]
      -- a quote of `front` is closed in it, or by `rest`, or not at all
      by_cases closes : (c = singleQuote ∨ c = doubleQuote) ∧ c ∈ value
      · right
        left
        have whole : (c = singleQuote ∨ c = doubleQuote) ∧ c ∈ value ++ rest :=
          ⟨closes.1, List.mem_append_left rest closes.2⟩
        exact ⟨(cut c value).2, by rw [if_pos whole, cut_mem closes.2], by rw [if_pos closes]⟩
      · rw [if_neg closes]
        by_cases runs : (c = singleQuote ∨ c = doubleQuote) ∧ c ∈ value ++ rest
        · left
          have absent : c ∉ value := fun member => closes ⟨runs.1, member⟩
          have later : c ∈ rest := (List.mem_append.mp runs.2).resolve_left absent
          refine ⟨(cut c rest).2, ?_, cut_shorter later⟩
          rw [if_pos runs, cut_append absent]
        · right
          rw [if_neg runs]
          by_cases blank : isBlank c
          · exact .inr ⟨if_pos blank, if_pos blank⟩
          · left
            -- the blank at its end stops the run before `rest`
            obtain ⟨d, member, gap⟩ := closed.blank_mem (by simpa using blank)
            refine ⟨value.dropWhile fun d => !isBlank d, ?_, if_neg blank⟩
            rw [if_neg blank, List.dropWhile_append, if_neg]
            intro passed
            have dark := List.dropWhile_eq_nil_iff.mp (List.isEmpty_iff.mp passed) d member
            rw [gap] at dark
            cases dark

/-- A password field that starts in `front`: it takes bytes of `rest`, or it is the same field
with and without `rest`. -/
theorem passwordField_front {front rest : Text} (closed : Closed front) (filled : front ≠ [])
    (opening : Opens rest) :
    (∃ head left, passwordField (front ++ rest) = some (head, left) ∧
        left.length < rest.length) ∨
      (∃ head left, passwordField (front ++ rest) = some (head, left ++ rest) ∧
        passwordField front = some (head, left)) ∨
      (passwordField (front ++ rest) = none ∧ passwordField front = none) := by
  simp only [passwordField, matchHead_front closed filled opening]
  cases named : matchHead front with
  | none => exact .inr (.inr ⟨rfl, rfl⟩)
  | some value =>
      have ⟨shorter, inner⟩ := matchHead_suffix named
      have kept : (front ++ rest).take ((front ++ rest).length - (value ++ rest).length) =
          front.take (front.length - value.length) := by
        rw [List.length_append, List.length_append, Nat.add_sub_add_right,
          List.take_append_of_le_length (Nat.sub_le _ _)]
      simp only [Option.map_some, Option.bind_some, kept]
      rcases matchValue_front (closed.suffix inner) opening with
        ⟨left, runs, less⟩ | ⟨left, inFront, alone⟩ | ⟨inFront, alone⟩
      · exact .inl ⟨_, left, by rw [runs]; rfl, less⟩
      · exact .inr (.inl ⟨_, left, by rw [inFront]; rfl, by rw [alone]; rfl⟩)
      · exact .inr (.inr ⟨by rw [inFront]; rfl, by rw [alone]; rfl⟩)

/-- Every password field that starts in `front` ends in it, with `rest` behind it. -/
def settledFrom (rest : Text) : Nat → Text → Bool
  | _, [] => true
  | skip + 1, _ :: front => settledFrom rest skip front
  | 0, c :: front =>
      match passwordField (c :: (front ++ rest)) with
      | some (_, left) =>
          decide (rest.length ≤ left.length) &&
            settledFrom rest (front.length + rest.length - left.length) front
      | none => settledFrom rest 0 front

def settled (front rest : Text) : Bool := settledFrom rest 0 front

theorem settledFrom_drop (rest : Text) (skip : Nat) (front : Text) :
    settledFrom rest skip front = settled (front.drop skip) rest := by
  induction front generalizing skip with
  | nil => simp [settled, settledFrom]
  | cons c front ih =>
      cases skip with
      | zero => rfl
      | succ skip => exact ih skip

theorem settled_field {c : UInt8} {front rest head left : Text} (inner : left <:+ front)
    (field : passwordField (c :: front ++ rest) = some (head, left ++ rest)) :
    settled (c :: front) rest = settled left rest := by
  rw [List.cons_append] at field
  have room : rest.length ≤ (left ++ rest).length := by simp
  have skips : front.length + rest.length - (left ++ rest).length = front.length - left.length := by
    rw [List.length_append, Nat.add_sub_add_right]
  rw [settled, settledFrom, field]
  simp only [decide_eq_true room, Bool.true_and, skips]
  rw [settledFrom_drop, drop_suffix_length inner]

/-- Where the fields of `front` end in it, the two texts are redacted apart. -/
theorem replaceAllString_append {front rest : Text} (closed : Closed front) (opening : Opens rest)
    (ends : settled front rest) :
    replaceAllString (front ++ rest) = replaceAllString front ++ replaceAllString rest := by
  -- on the length, because a match passes several bytes at once
  induction bound : front.length using Nat.strongRecOn generalizing front with
  | ind length ih =>
      cases front with
      | nil => rfl
      | cons c front =>
          rcases passwordField_front closed (List.cons_ne_nil c front) opening with
            ⟨head, left, field, less⟩ | ⟨head, left, field, alone⟩ | ⟨field, alone⟩
          · simp only [settled, settledFrom, ← List.cons_append, field, Bool.and_eq_true,
              decide_eq_true_eq] at ends
            omega
          · have inner := passwordField_suffix alone
            rw [settled_field inner field] at ends
            have shorter : left.length < length := by
              rw [← bound, List.length_cons]
              exact Nat.lt_succ_of_le inner.length_le
            rw [replaceAllString_field field, replaceAllString_field alone,
              ih left.length shorter (closed.tail.suffix inner) ends rfl]
            simp
          · simp only [settled, settledFrom, ← List.cons_append, field] at ends
            have shorter : front.length < length := by
              rw [← bound, List.length_cons]
              exact Nat.lt_succ_self _
            rw [replaceAllString_cons alone, List.cons_append,
              replaceAllString_cons (by simpa using field),
              ih front.length shorter closed.tail ends rfl]
            rfl

end Fronts

section Fields

theorem matchLetter_self {letter : UInt8} (lower : toLower letter = letter) (rest : Text) :
    matchLetter letter (letter :: rest) = some rest := by
  cases rest with
  | nil => simp [matchLetter, lower]
  | cons d rest => simp [matchLetter, lower]

theorem matchWord_self {letters : Text} (lower : ∀ c ∈ letters, toLower c = c) (rest : Text) :
    matchWord letters (letters ++ rest) = some rest := by
  induction letters with
  | nil => rfl
  | cons letter letters ih =>
      have ⟨here, others⟩ := List.forall_mem_cons.mp lower
      rw [List.cons_append, matchWord, matchLetter_self here, Option.bind_some, ih others]

/-- `password`, a sign, and the blanks that may stand on either side of it. -/
def fieldHead (gap space : Text) : Text := ascii "password" ++ (gap ++ code '=' :: space)

theorem dropWhile_blanks {blanks : Text} (all : ∀ c ∈ blanks, isBlank c) {c : UInt8}
    (dark : isBlank c = false) (rest : Text) :
    (blanks ++ c :: rest).dropWhile isBlank = c :: rest := by
  rw [List.dropWhile_append_of_pos all]
  simp [dark]

variable {gap space : Text}

theorem matchHead_fieldHead (gaps : ∀ c ∈ gap, isBlank c) (spaces : ∀ c ∈ space, isBlank c)
    {c : UInt8} (dark : isBlank c = false) (rest : Text) :
    matchHead (fieldHead gap space ++ c :: rest) = some (c :: rest) := by
  have lower : (ascii "password").all fun c => toLower c == c := by decide
  have letters : ∀ c ∈ ascii "password", toLower c = c := by simpa using lower
  have sign : isBlank (code '=') = false := by decide
  rw [fieldHead, List.append_assoc, List.append_assoc, List.cons_append, matchHead,
    matchWord_self letters, Option.bind_some, dropWhile_blanks gaps sign, matchSign, if_pos rfl,
    dropWhile_blanks spaces dark]

/-- A field is redacted to its head and the five letters, whatever its value. -/
theorem replaceAllString_fieldHead (gaps : ∀ c ∈ gap, isBlank c)
    (spaces : ∀ c ∈ space, isBlank c) {c : UInt8} (dark : isBlank c = false) {rest after : Text}
    (valued : matchValue (c :: rest) = some after) :
    replaceAllString (fieldHead gap space ++ c :: rest) =
      fieldHead gap space ++ ascii "xxxxx" ++ replaceAllString after := by
  apply replaceAllString_field
  rw [passwordField, matchHead_fieldHead gaps spaces dark, Option.bind_some, valued,
    Option.map_some, List.length_append, Nat.add_sub_cancel]
  simp

theorem fieldHead_opens (gap space rest : Text) : Opens (fieldHead gap space ++ rest) := by
  refine ⟨code 'p', ascii "assword" ++ (gap ++ code '=' :: space) ++ rest, ?_, by decide, by decide⟩
  rfl

theorem matchValue_bare {c : UInt8} {value : Text} (plain : c ≠ singleQuote ∧ c ≠ doubleQuote)
    (dark : ∀ d ∈ c :: value, isBlank d = false) {after : Text}
    (ends : ∀ d, after.head? = some d → isBlank d) :
    matchValue (c :: value ++ after) = some after := by
  have ⟨first, others⟩ := List.forall_mem_cons.mp dark
  have run : (value ++ after).dropWhile (fun d => !isBlank d) = after := by
    rw [List.dropWhile_append_of_pos (by simpa using others)]
    cases after with
    | nil => rfl
    | cons d after => simp [ends d rfl]
  simp [matchValue, plain, first, run]

theorem matchValue_quoted {quote : UInt8} (known : quote = singleQuote ∨ quote = doubleQuote)
    {value : Text} (absent : quote ∉ value) (after : Text) :
    matchValue (quote :: (value ++ quote :: after)) = some after := by
  have member : quote ∈ value ++ quote :: after := by simp
  rw [matchValue, if_pos ⟨known, member⟩, cut_first absent]

theorem passwordField_head {text head left : Text} (found : passwordField text = some (head, left))
    {c : UInt8} (member : c ∈ head) : c ∈ text := by
  obtain ⟨value, _, read⟩ := Option.bind_eq_some_iff.mp found
  obtain ⟨after, _, pair⟩ := Option.map_eq_some_iff.mp read
  cases pair
  exact List.mem_of_mem_take member

/-- The redaction writes no byte of its own but the mask. -/
theorem mem_replaceFrom {c : UInt8} {skip : Nat} {text : Text}
    (member : c ∈ replaceFrom skip text) : c ∈ text ∨ c = code 'x' := by
  have mask : ∀ c ∈ ascii "xxxxx", c = code 'x' := fun _ => List.eq_of_mem_replicate (n := 5)
  induction text generalizing skip with
  | nil => simp [replaceFrom] at member
  | cons d rest ih =>
      cases skip with
      | succ skip => exact (ih member).imp_left (List.mem_cons_of_mem d)
      | zero =>
          rw [replaceFrom] at member
          cases found : passwordField (d :: rest) with
          | none =>
              simp only [found, List.mem_cons] at member
              rcases member with rfl | later
              · exact .inl List.mem_cons_self
              · exact (ih later).imp_left (List.mem_cons_of_mem d)
          | some field =>
              simp only [found, List.mem_append] at member
              rcases member with (inHead | masked) | later
              · exact .inl (passwordField_head found inHead)
              · exact .inr (mask c masked)
              · exact (ih later).imp_left (List.mem_cons_of_mem d)

end Fields

end Runnerd.PasswordFields
