import Runnerd.PasswordFields

/-!
The database address in the log. `DatabaseDSN` tells a URL, a `user:password@` and a list
of `key=value` fields apart by looking at the text, password included. The forms here
write an address with a password in it, and say which passwords the code hides.
-/

namespace Runnerd.Redaction

open Urls PasswordFields

section Source

/-- `strings.Index` of a single byte. -/
def index (mark : UInt8) (text : Text) : Int := if mark ∈ text then text.idxOf mark else -1

/-- A colon, and later the first `@`, neither of them at the start. -/
def hasAccount (raw : Text) : Bool :=
  0 < index (code '@') raw && 0 < index (code ':') raw &&
    index (code ':') raw < index (code '@') raw

/-- `DatabaseDSN` once the text is known to be no URL with user information. -/
def redactPlain (raw : Text) : Text :=
  if hasAccount raw then ascii "xxxxx" ++ raw.drop (index (code '@') raw).toNat
  else replaceAllString raw

variable (parseHost : Text → Text → Option Text)

def isUserURL (raw : Text) : Bool :=
  (parse parseHost raw).any fun u => u.scheme != [] && u.user.isSome

def databaseDSN (raw : Text) : Text :=
  match parse parseHost raw with
  | some u =>
      if u.scheme ≠ [] ∧ u.user.isSome then (u.withUser { username := ascii "xxxxx" }).string
      else redactPlain raw
  | none => redactPlain raw

end Source

section Forms

inductive Quoting where
  | bare
  | single
  | double
  deriving DecidableEq

def Quoting.wrap : Quoting → Text → Text
  | .bare, value => value
  | .single, value => singleQuote :: (value ++ [singleQuote])
  | .double, value => doubleQuote :: (value ++ [doubleQuote])

/-- What a value can hold behind a backslash only. -/
def Quoting.special : Quoting → UInt8 → Bool
  | .bare, c => isBlank c || c == singleQuote
  | .single, c => c == singleQuote
  | .double, c => c == doubleQuote

def escaped (special : UInt8 → Bool) : Text → Bool
  | [] => true
  | [c] => c != code '\\' && !special c
  | c :: d :: rest =>
      if c = code '\\' then escaped special rest else !special c && escaped special (d :: rest)

/-- A value that opens with a quote is no bare one, and an empty value needs quotes. -/
def Quoting.Valid (quoting : Quoting) (value : Text) : Prop :=
  escaped quoting.special value ∧
    (quoting = .bare → ∃ c rest, value = c :: rest ∧ c ≠ singleQuote ∧ c ≠ doubleQuote)

/-- A database address with a hole for the password. -/
inductive Form where
  | url (scheme user rest : Text)
  | mysql (user network address database : Text)
  | fields (before gap space : Text) (quoting : Quoting) (after : Text)

def mysqlTail (network address database : Text) : Text :=
  network ++ code '(' :: (address ++ (ascii ")/" ++ database))

def Form.text : Form → Text → Text
  | .url scheme user rest, password =>
      scheme ++ code ':' :: (ascii "//" ++ accountText user password rest)
  | .mysql user network address database, password =>
      accountText user password (mysqlTail network address database)
  | .fields before gap space quoting after, password =>
      before ++ (fieldHead gap space ++ (quoting.wrap password ++ after))

/-- A list of fields in front of the password starts with a key and ends with a blank. -/
def Listed (before : Text) : Prop :=
  (before ≠ [] → code '=' ∈ before ∧ code ':' ∉ (cut (code '=') before).1) ∧ Closed before

def Form.WellFormed : Form → Text → Prop
  | .url scheme user _, password =>
      IsScheme scheme ∧ Encoded user ∧ code ':' ∉ user ∧ Encoded password
  | .mysql user _ _ _, _ => code ':' ∉ user
  | .fields before gap space quoting after, password =>
      Listed before ∧ (∀ c ∈ gap, isBlank c) ∧ (∀ c ∈ space, isBlank c) ∧
        (∀ c, after.head? = some c → isBlank c) ∧ quoting.Valid password

/-- The value ends where the pattern ends it. -/
def Quoting.Whole : Quoting → Text → Prop
  | .bare, value => ∀ c ∈ value, isBlank c = false
  | .single, value => singleQuote ∉ value
  | .double, value => doubleQuote ∉ value

variable (parseHost : Text → Text → Option Text)

/-- The passwords that the form hides. -/
def Form.Hides : Form → Text → Prop
  | .url _ _ _, _ => True
  | .mysql user network address database, password =>
      user ≠ [] ∧ code '@' ∉ user ∧ code '@' ∉ password ∧
        ¬ isUserURL parseHost (Form.text (.mysql user network address database) password)
  | .fields before gap space quoting after, password =>
      ¬ hasAccount (Form.text (.fields before gap space quoting after) password) ∧
        settled before (fieldHead gap space ++ (quoting.wrap password ++ after)) ∧
        quoting.Whole password

end Forms

section Branches

theorem index_past {mark : UInt8} {front : Text} (absent : mark ∉ front) (rest : Text) :
    index mark (front ++ mark :: rest) = front.length := by
  simp [index, List.idxOf_append_of_notMem absent]

theorem index_inside {mark : UInt8} {front : Text} (member : mark ∈ front) (rest : Text) :
    0 ≤ index mark (front ++ rest) ∧ index mark (front ++ rest) < front.length ∧
      (index mark (front ++ rest) = 0 ↔ front.head? = some mark) := by
  have place := List.idxOf_lt_length_of_mem member
  have whole : mark ∈ front ++ rest := List.mem_append_left rest member
  rw [index, if_pos whole, List.idxOf_append_of_mem member]
  refine ⟨by omega, by omega, ?_⟩
  cases front with
  | nil => cases member
  | cons c front =>
      by_cases same : c = mark
      · simp [same]
      · simp only [List.idxOf_cons_ne front same, List.head?_cons, Option.some.injEq, same,
          iff_false]
        omega

theorem index_beyond {mark : UInt8} {front : Text} (absent : mark ∉ front) {c : UInt8}
    (other : c ≠ mark) (rest : Text) :
    index mark (front ++ c :: rest) < 0 ∨ front.length < index mark (front ++ c :: rest) := by
  by_cases member : mark ∈ rest
  · right
    have whole : mark ∈ front ++ c :: rest := by simp [member]
    rw [index, if_pos whole, List.idxOf_append_of_notMem absent, List.idxOf_cons_ne _ other]
    omega
  · left
    have none : mark ∉ front ++ c :: rest := by simp [absent, member, Ne.symm other]
    rw [index, if_neg none]
    omega

/-- The text in front of the first `@` decides. -/
theorem hasAccount_iff {front : Text} (absent : code '@' ∉ front) (rest : Text) :
    hasAccount (front ++ code '@' :: rest) ↔
      code ':' ∈ front ∧ front.head? ≠ some (code ':') := by
  have marks : code '@' ≠ code ':' := by decide
  simp only [hasAccount, index_past absent, Bool.and_eq_true, decide_eq_true_eq]
  by_cases colon : code ':' ∈ front
  · have ⟨low, high, start⟩ := index_inside colon (code '@' :: rest)
    rw [Ne, ← start]
    constructor
    · intro both
      exact ⟨colon, by omega⟩
    · intro both
      omega
  · constructor
    · intro both
      rcases index_beyond colon marks rest with low | high
      · omega
      · omega
    · intro both
      exact absurd both.1 colon

theorem hasAccount_at {raw : Text} (account : hasAccount raw) : code '@' ∈ raw := by
  by_contra absent
  simp only [hasAccount, index, if_neg absent, Bool.and_eq_true, decide_eq_true_eq] at account
  omega

theorem redactPlain_account {front : Text} (absent : code '@' ∉ front) {rest : Text}
    (account : hasAccount (front ++ code '@' :: rest)) :
    redactPlain (front ++ code '@' :: rest) = ascii "xxxxx" ++ code '@' :: rest := by
  rw [redactPlain, if_pos account, index_past absent, Int.toNat_natCast, List.drop_left]

variable {parseHost : Text → Text → Option Text}

theorem databaseDSN_plain {raw : Text} (other : ¬ isUserURL parseHost raw) :
    databaseDSN parseHost raw = redactPlain raw := by
  simp only [databaseDSN]
  cases parsed : parse parseHost raw with
  | none => rfl
  | some u =>
      have kind : ¬ (u.scheme ≠ [] ∧ u.user.isSome) := by simpa [isUserURL, parsed] using other
      exact if_neg kind

/-- A redacted URL keeps its scheme in front. -/
theorem databaseDSN_url {raw : Text} (kind : isUserURL parseHost raw) : ∃ scheme rest,
    databaseDSN parseHost raw = scheme ++ code ':' :: rest ∧ ∀ c ∈ scheme, isSchemeByte c := by
  cases parsed : parse parseHost raw with
  | none => simp [isUserURL, parsed] at kind
  | some u =>
      have both : u.scheme ≠ [] ∧ u.user.isSome := by simpa [isUserURL, parsed] using kind
      have schemed : (u.withUser { username := ascii "xxxxx" }).scheme ≠ [] := both.1
      obtain ⟨rest, text⟩ := string_schemed schemed
      obtain ⟨_, _, _, _, bytes⟩ := parse_schemed parsed both.1
      refine ⟨u.scheme, rest, ?_, bytes⟩
      simp only [databaseDSN, parsed, if_pos both]
      exact text

/-- Two texts that agree, each cut at its first byte outside `inside`, are cut at the same byte. -/
theorem first_outside (inside : UInt8 → Bool) {front other rest more : Text} {c d : UInt8}
    (same : front ++ c :: rest = other ++ d :: more) (within : ∀ c ∈ front, inside c)
    (otherWithin : ∀ c ∈ other, inside c) (out : inside c = false) (otherOut : inside d = false) :
    front = other ∧ c = d := by
  have fronts := congrArg (List.takeWhile inside) same
  rw [List.takeWhile_append_of_pos within, List.takeWhile_append_of_pos otherWithin] at fronts
  have backs := congrArg (List.dropWhile inside) same
  rw [List.dropWhile_append_of_pos within, List.dropWhile_append_of_pos otherWithin] at backs
  simp only [List.takeWhile_cons, List.dropWhile_cons, out, otherOut, Bool.false_eq_true, if_false,
    List.append_nil, List.cons.injEq] at fronts backs
  exact ⟨fronts, backs.1⟩

end Branches

section Redacted

variable (parseHost : Text → Text → Option Text)

/-- Any password of a URL is hidden as the empty one is. -/
theorem databaseDSN_userURL {scheme user : Text} (valid : IsScheme scheme) (named : Encoded user)
    (unnamed : code ':' ∉ user) {password : Text} (secret : Encoded password) (rest : Text) :
    databaseDSN parseHost (Form.text (.url scheme user rest) password) =
      databaseDSN parseHost (Form.text (.url scheme user rest) []) := by
  have plain {password : Text} (secret : Encoded password) :
      redactPlain (Form.text (.url scheme user rest) password) =
        ascii "xxxxx" ++ code '@' :: rest := by
    have split : Form.text (.url scheme user rest) password =
        (scheme ++ code ':' :: (ascii "//" ++ (user ++ code ':' :: password))) ++
          code '@' :: rest := by
      simp [Form.text, accountText]
    have absent :
        code '@' ∉ scheme ++ code ':' :: (ascii "//" ++ (user ++ code ':' :: password)) := by
      have outside : isUserinfo (code '@') = false := by decide
      have free {text : Text} (encoded : Encoded text) : code '@' ∉ text := by
        intro member
        have listed := encoded.1 _ member
        rw [outside] at listed
        cases listed
      simp only [List.mem_append, List.mem_cons, not_or]
      exact ⟨valid.absent (by decide), by decide, by decide, free named, by decide, free secret⟩
    rw [split]
    refine redactPlain_account absent ((hasAccount_iff absent rest).mpr ⟨by simp, ?_⟩)
    obtain ⟨⟨c, head, letter⟩, _⟩ := valid
    cases scheme with
    | nil => cases head
    | cons d scheme =>
        cases head
        rintro same
        cases same
        cases letter
  have empty : Encoded [] := ⟨by simp, rfl⟩
  -- both texts parse to one record but for its user, which the redaction replaces
  obtain ⟨account, blind⟩ := parse_account parseHost valid named unnamed secret rest
  obtain ⟨other, own⟩ := parse_account parseHost valid named unnamed empty rest
  simp only [databaseDSN, plain secret, plain empty]
  simp only [Form.text, blind]
  cases parsed : parse parseHost
      (scheme ++ code ':' :: (ascii "//" ++ accountText user [] rest)) with
  | none => rfl
  | some u =>
      rw [parsed] at own
      have known : u.user.isSome := by
        rw [Option.some.inj own]
        rfl
      simp only [Option.map_some]
      by_cases schemed : u.scheme = []
      · have first : ¬ ((u.withUser account).scheme ≠ [] ∧ (u.withUser account).user.isSome) :=
          fun both => both.1 schemed
        rw [if_neg first, if_neg fun both => both.1 schemed]
      · have first : (u.withUser account).scheme ≠ [] ∧ (u.withUser account).user.isSome :=
          ⟨schemed, rfl⟩
        rw [if_pos first, if_pos ⟨schemed, known⟩]
        rfl

variable {parseHost : Text → Text → Option Text}

/-- A hidden password of the second form: the mask, and everything from the `@` on. -/
theorem databaseDSN_mysql {user network address database password : Text}
    (unnamed : code ':' ∉ user)
    (hides : Form.Hides parseHost (.mysql user network address database) password) :
    databaseDSN parseHost (Form.text (.mysql user network address database) password) =
      ascii "xxxxx" ++ code '@' :: mysqlTail network address database := by
  obtain ⟨filled, free, secret, other⟩ := hides
  have split : Form.text (.mysql user network address database) password =
      (user ++ code ':' :: password) ++ code '@' :: mysqlTail network address database := by
    simp [Form.text, accountText]
  have absent : code '@' ∉ user ++ code ':' :: password := by
    simp only [List.mem_append, List.mem_cons, not_or]
    exact ⟨free, by decide, secret⟩
  rw [databaseDSN_plain other, split]
  refine redactPlain_account absent ((hasAccount_iff absent _).mpr ⟨by simp, ?_⟩)
  cases user with
  | nil => exact absurd rfl filled
  | cons c user =>
      intro same
      cases same
      exact unnamed List.mem_cons_self

/-- The first key of a list rules out a scheme. -/
theorem fields_key {before gap : Text} (listed : Listed before) (gaps : ∀ c ∈ gap, isBlank c)
    (space : Text) (quoting : Quoting) (after password : Text) : ∃ key rest,
      Form.text (.fields before gap space quoting after) password = key ++ code '=' :: rest ∧
        code '=' ∉ key ∧ code ':' ∉ key := by
  by_cases first : before = []
  · subst first
    refine ⟨ascii "password" ++ gap, space ++ (quoting.wrap password ++ after), ?_, ?_, ?_⟩
    · simp [Form.text, fieldHead]
    · rw [List.mem_append, not_or]
      exact ⟨by decide, fun member => absurd (gaps _ member) (by decide)⟩
    · rw [List.mem_append, not_or]
      exact ⟨by decide, fun member => absurd (gaps _ member) (by decide)⟩
  · obtain ⟨sign, unnamed⟩ := listed.1 first
    obtain ⟨key, rest, rfl, absent⟩ := List.eq_append_cons_of_mem sign
    rw [cut_first absent] at unnamed
    exact ⟨key, rest ++ (fieldHead gap space ++ (quoting.wrap password ++ after)),
      by simp [Form.text], absent, unnamed⟩

theorem fields_not_url {before gap : Text} (listed : Listed before)
    (gaps : ∀ c ∈ gap, isBlank c) (space : Text) (quoting : Quoting) (after password : Text) :
    ¬ isUserURL parseHost (Form.text (.fields before gap space quoting after) password) := by
  intro kind
  obtain ⟨key, rest, split, unsigned, unnamed⟩ :=
    fields_key listed gaps space quoting after password
  cases parsed : parse parseHost (Form.text (.fields before gap space quoting after) password) with
  | none => simp [isUserURL, parsed] at kind
  | some u =>
      have both : u.scheme ≠ [] ∧ u.user.isSome := by simpa [isUserURL, parsed] using kind
      obtain ⟨scheme, path, front, bytes, _⟩ := parse_schemed parsed both.1
      rw [split] at front
      have inKey : ∀ c ∈ key, (c != code ':' && c != code '=') = true := by
        intro c member
        simp [ne_of_mem_of_not_mem member unnamed, ne_of_mem_of_not_mem member unsigned]
      have inScheme : ∀ c ∈ scheme, (c != code ':' && c != code '=') = true := by
        intro c member
        have marks : isSchemeByte (code ':') = false ∧ isSchemeByte (code '=') = false := by decide
        simp only [Bool.and_eq_true, bne_iff_ne]
        constructor
        · rintro rfl
          simp [bytes _ member] at marks
        · rintro rfl
          simp [bytes _ member] at marks
      have same := (first_outside (fun c => c != code ':' && c != code '=') front inKey
        inScheme (by decide) (by decide)).2
      exact absurd same (by decide)

/-- A value that is whole is the value the pattern reads. -/
theorem Quoting.read {quoting : Quoting} {password after : Text} (valid : quoting.Valid password)
    (whole : quoting.Whole password) (ends : ∀ c, after.head? = some c → isBlank c) :
    ∃ c rest, quoting.wrap password ++ after = c :: rest ∧ isBlank c = false ∧
      matchValue (c :: rest) = some after := by
  cases quoting with
  | bare =>
      obtain ⟨c, value, rfl, plain⟩ := valid.2 rfl
      exact ⟨c, value ++ after, rfl, whole c List.mem_cons_self, matchValue_bare plain whole ends⟩
  | single =>
      refine ⟨singleQuote, password ++ singleQuote :: after, ?_, by decide,
        matchValue_quoted (.inl rfl) whole after⟩
      simp [Quoting.wrap]
  | double =>
      refine ⟨doubleQuote, password ++ doubleQuote :: after, ?_, by decide,
        matchValue_quoted (.inr rfl) whole after⟩
      simp [Quoting.wrap]

/-- A hidden password of a field: the mask in its place, and the other fields redacted. -/
theorem databaseDSN_fields {before gap space after password : Text} {quoting : Quoting}
    (formed : Form.WellFormed (.fields before gap space quoting after) password)
    (hides : Form.Hides parseHost (.fields before gap space quoting after) password) :
    databaseDSN parseHost (Form.text (.fields before gap space quoting after) password) =
      replaceAllString before ++
        (fieldHead gap space ++ ascii "xxxxx" ++ replaceAllString after) := by
  obtain ⟨listed, gaps, spaces, ends, valid⟩ := formed
  obtain ⟨anonymous, settles, whole⟩ := hides
  obtain ⟨c, rest, text, dark, valued⟩ := Quoting.read valid whole ends
  rw [databaseDSN_plain (fields_not_url listed gaps space quoting after password), redactPlain,
    if_neg anonymous, Form.text]
  rw [text] at settles ⊢
  rw [replaceAllString_append listed.2 (fieldHead_opens gap space _) settles,
    replaceAllString_fieldHead gaps spaces dark valued]

end Redacted

section Converse

variable {parseHost : Text → Text → Option Text}

theorem mysql_equal_hides {user network address database first second : Text}
    (unnamed : code ':' ∉ user)
    (hides : Form.Hides parseHost (.mysql user network address database) first)
    (equal : databaseDSN parseHost (Form.text (.mysql user network address database) first) =
      databaseDSN parseHost (Form.text (.mysql user network address database) second)) :
    Form.Hides parseHost (.mysql user network address database) second := by
  rw [databaseDSN_mysql unnamed hides] at equal
  obtain ⟨filled, free, _, _⟩ := hides
  by_cases kind : isUserURL parseHost (Form.text (.mysql user network address database) second)
  · -- the redacted URL starts with a scheme, and the mask ends in an `@`
    obtain ⟨scheme, rest, text, bytes⟩ := databaseDSN_url kind
    rw [text] at equal
    have mask : ∀ c ∈ ascii "xxxxx", isSchemeByte c = true := List.all_eq_true.mp (by decide)
    have same := (first_outside isSchemeByte equal mask bytes (by decide) (by decide)).2
    exact absurd same (by decide)
  · refine ⟨filled, free, fun member => ?_, kind⟩
    -- the cut leaves what the password has behind its first `@`, so the text is longer
    obtain ⟨front, rest, rfl, absent⟩ := List.eq_append_cons_of_mem member
    have split : Form.text (.mysql user network address database) (front ++ code '@' :: rest) =
        (user ++ code ':' :: front) ++
          code '@' :: (rest ++ code '@' :: mysqlTail network address database) := by
      simp [Form.text, accountText]
    have clean : code '@' ∉ user ++ code ':' :: front := by
      simp only [List.mem_append, List.mem_cons, not_or]
      exact ⟨free, by decide, absent⟩
    have start : (user ++ code ':' :: front).head? ≠ some (code ':') := by
      cases user with
      | nil => exact absurd rfl filled
      | cons c user =>
          intro same
          cases same
          exact unnamed List.mem_cons_self
    rw [databaseDSN_plain kind, split,
      redactPlain_account clean ((hasAccount_iff clean _).mpr ⟨by simp, start⟩)] at equal
    have lengths := congrArg List.length equal
    simp only [List.length_append, List.length_cons] at lengths
    omega

variable {before gap space after first second : Text} {quoting : Quoting}

/-- The cut at the first `@` leaves no sign of a list in front of it. -/
theorem fields_equal_anonymous
    (formed : Form.WellFormed (.fields before gap space quoting after) first)
    (hides : Form.Hides parseHost (.fields before gap space quoting after) first)
    (equal : databaseDSN parseHost (Form.text (.fields before gap space quoting after) first) =
      databaseDSN parseHost (Form.text (.fields before gap space quoting after) second)) :
    ¬ hasAccount (Form.text (.fields before gap space quoting after) second) := by
  intro account
  have ⟨listed, gaps, _, _, _⟩ := formed
  rw [databaseDSN_fields formed hides,
    databaseDSN_plain (fields_not_url listed gaps space quoting after second)] at equal
  by_cases early : code '@' ∈ before
  · -- both texts are judged by what stands in front of that `@`
    obtain ⟨front, rest, rfl, absent⟩ := List.eq_append_cons_of_mem early
    have split (password : Text) :
        Form.text (.fields (front ++ code '@' :: rest) gap space quoting after) password =
          front ++ code '@' ::
            (rest ++ (fieldHead gap space ++ (quoting.wrap password ++ after))) := by
      simp [Form.text]
    have anonymous := hides.1
    rw [split, hasAccount_iff absent] at anonymous account
    exact anonymous account
  · -- the cut text has an `@` right after the mask, the redacted list a sign before any `@`
    obtain ⟨front, rest, split, absent⟩ := List.eq_append_cons_of_mem (hasAccount_at account)
    rw [split] at account equal
    rw [redactPlain_account absent account] at equal
    have clean : ∀ c ∈ replaceAllString before ++ (ascii "password" ++ gap),
        (c != code '@') = true := by
      intro c member
      simp only [bne_iff_ne]
      rintro rfl
      simp only [List.mem_append] at member
      rcases member with masked | letter | blank
      · rcases mem_replaceFrom masked with own | mask
        · exact early own
        · exact absurd mask (by decide)
      · exact absurd letter (by decide)
      · exact absurd (gaps _ blank) (by decide)
    have signed : replaceAllString before ++
        (fieldHead gap space ++ ascii "xxxxx" ++ replaceAllString after) =
          (replaceAllString before ++ (ascii "password" ++ gap)) ++
            code '=' :: (space ++ ascii "xxxxx" ++ replaceAllString after) := by
      simp [fieldHead]
    rw [signed] at equal
    have fronts := congrArg (List.takeWhile (· != code '@')) equal
    have mask : ∀ c ∈ ascii "xxxxx", (c != code '@') = true := List.all_eq_true.mp (by decide)
    rw [List.takeWhile_append_of_pos clean, List.takeWhile_append_of_pos mask] at fronts
    have sign : code '=' ∈ ascii "xxxxx" ++ (code '@' :: rest).takeWhile (· != code '@') := by
      rw [← fronts]
      exact List.mem_append_right _ (by simp [show code '=' ≠ code '@' by decide])
    simp only [List.takeWhile_cons, bne_self_eq_false, Bool.false_eq_true, if_false,
      List.append_nil] at sign
    exact absurd sign (by decide)

theorem replaceAllString_nil {text : Text} (none : replaceAllString text = []) : text = [] := by
  cases text with
  | nil => rfl
  | cons c rest =>
      rw [replaceAllString, replaceFrom] at none
      cases found : passwordField (c :: rest) with
      | none => simp [found] at none
      | some field =>
          have mask : ascii "xxxxx" ≠ [] := by decide
          simp [found, mask] at none

theorem escaped_first {c : UInt8} {value : Text}
    (valid : escaped (Quoting.special .bare) (c :: value)) : isBlank c = false := by
  by_cases slash : c = code '\\'
  · rw [slash]
    decide
  · cases value with
    | nil => simp_all [escaped, Quoting.special]
    | cons d value => simp_all [escaped, Quoting.special]

/-- Where nothing follows the field, the pattern reads the last byte of a whole value only. -/
theorem Quoting.whole_of_read (valid : quoting.Valid second) : ∃ c rest left,
    quoting.wrap second = c :: rest ∧ isBlank c = false ∧ matchValue (c :: rest) = some left ∧
      (left = [] → quoting.Whole second) := by
  cases quoting with
  | bare =>
      obtain ⟨c, value, rfl, plain⟩ := valid.2 rfl
      have dark := escaped_first valid.1
      refine ⟨c, value, value.dropWhile fun d => !isBlank d, rfl, dark, ?_, ?_⟩
      · simp [matchValue, plain, dark]
      · intro none
        have others := List.dropWhile_eq_nil_iff.mp none
        exact List.forall_mem_cons.mpr ⟨dark, fun d member => by simpa using others d member⟩
  | single =>
      refine ⟨singleQuote, second ++ [singleQuote], (cut singleQuote (second ++ [singleQuote])).2,
        rfl, by decide, ?_, ?_⟩
      · simp [matchValue]
      · intro none member
        rw [cut_mem member] at none
        simp at none
  | double =>
      refine ⟨doubleQuote, second ++ [doubleQuote], (cut doubleQuote (second ++ [doubleQuote])).2,
        rfl, by decide, ?_, ?_⟩
      · simp [matchValue]
      · intro none member
        rw [cut_mem member] at none
        simp at none

theorem fields_equal_whole (formed : Form.WellFormed (.fields before gap space quoting []) first)
    (valid : quoting.Valid second)
    (hides : Form.Hides parseHost (.fields before gap space quoting []) first)
    (settles : settled before (fieldHead gap space ++ (quoting.wrap second ++ [])))
    (equal : databaseDSN parseHost (Form.text (.fields before gap space quoting []) first) =
      databaseDSN parseHost (Form.text (.fields before gap space quoting []) second)) :
    quoting.Whole second := by
  have anonymous := fields_equal_anonymous formed hides equal
  have ⟨listed, gaps, spaces, _, _⟩ := formed
  obtain ⟨c, rest, left, text, dark, valued, whole⟩ := Quoting.whole_of_read valid
  rw [databaseDSN_fields formed hides,
    databaseDSN_plain (fields_not_url listed gaps space quoting [] second), redactPlain,
    if_neg anonymous, Form.text] at equal
  rw [text, List.append_nil] at settles equal
  rw [replaceAllString_append listed.2 (fieldHead_opens gap space _) settles,
    replaceAllString_fieldHead gaps spaces dark valued] at equal
  apply whole
  apply replaceAllString_nil
  have rest := (List.append_cancel_left (List.append_cancel_left equal)).symm
  exact rest

end Converse

section Hyperproperty

/-- Two well-formed passwords of one form that the form hides leave the same text. A URL hides
every password. In the second form a hidden password and another one are told apart exactly
where the other is not hidden; in a list, one is told apart if it brings in the cut at an `@`,
or, in the last field, if it is not whole. -/
theorem password_hidden (parseHost : Text → Text → Option Text) :
    (∀ (form : Form) (first second : Text), form.WellFormed first → form.WellFormed second →
      form.Hides parseHost first → form.Hides parseHost second →
      databaseDSN parseHost (form.text first) = databaseDSN parseHost (form.text second)) ∧
    (∀ user network address database first second : Text,
      Form.WellFormed (.mysql user network address database) first →
      Form.Hides parseHost (.mysql user network address database) first →
      (databaseDSN parseHost (Form.text (.mysql user network address database) first) =
          databaseDSN parseHost (Form.text (.mysql user network address database) second) ↔
        Form.Hides parseHost (.mysql user network address database) second)) ∧
    (∀ (before gap space : Text) (quoting : Quoting) (after first second : Text),
      Form.WellFormed (.fields before gap space quoting after) first →
      Form.WellFormed (.fields before gap space quoting after) second →
      Form.Hides parseHost (.fields before gap space quoting after) first →
      databaseDSN parseHost (Form.text (.fields before gap space quoting after) first) =
        databaseDSN parseHost (Form.text (.fields before gap space quoting after) second) →
      ¬ hasAccount (Form.text (.fields before gap space quoting after) second) ∧
        (after = [] → settled before (fieldHead gap space ++ (quoting.wrap second ++ after)) →
          quoting.Whole second)) := by
  refine ⟨fun form first second formed other hides otherHides => ?_, ?_, ?_⟩
  · cases form with
    | url scheme user rest =>
        obtain ⟨valid, named, unnamed, secret⟩ := formed
        rw [databaseDSN_userURL parseHost valid named unnamed secret rest,
          databaseDSN_userURL parseHost valid named unnamed other.2.2.2 rest]
    | mysql user network address database =>
        rw [databaseDSN_mysql formed hides, databaseDSN_mysql other otherHides]
    | fields before gap space quoting after =>
        rw [databaseDSN_fields formed hides, databaseDSN_fields other otherHides]
  · intro user network address database first second unnamed hides
    constructor
    · exact mysql_equal_hides unnamed hides
    · intro otherHides
      rw [databaseDSN_mysql unnamed hides, databaseDSN_mysql unnamed otherHides]
  · intro before gap space quoting after first second formed other hides equal
    refine ⟨fields_equal_anonymous formed hides equal, ?_⟩
    rintro rfl settles
    exact fields_equal_whole formed other.2.2.2.2 hides settles equal

/-- A reading of hosts that refuses none. -/
def plainHost (_scheme host : Text) : Option Text := unescape host

def sampleForm : Form :=
  .mysql (ascii "app") (ascii "tcp") (ascii "db:3306") (ascii "runnerd")

theorem password_hidden_sample :
    (databaseDSN plainHost (sampleForm.text (ascii "secret")) =
        databaseDSN plainHost (sampleForm.text (ascii "other"))) ∧
      (databaseDSN plainHost (sampleForm.text (ascii "secret")) =
          databaseDSN plainHost (sampleForm.text (ascii "other")) ↔
        sampleForm.Hides plainHost (ascii "other")) ∧
      ¬ hasAccount (Form.text (.fields [] [] [] .single []) (ascii "x y")) := by
  have formed : ∀ password, sampleForm.WellFormed password := fun _ => by
    simp only [sampleForm, Form.WellFormed]
    decide
  have hides : sampleForm.Hides plainHost (ascii "secret") := by
    simp only [sampleForm, Form.Hides]
    decide
  have otherHides : sampleForm.Hides plainHost (ascii "other") := by
    simp only [sampleForm, Form.Hides]
    decide
  have listed : Listed [] := ⟨fun filled => absurd rfl filled, fun _ last => by cases last⟩
  have quoted : Form.WellFormed (.fields [] [] [] .single []) (ascii "x y") :=
    ⟨listed, by simp, by simp, by simp, by decide, fun bare => by cases bare⟩
  have hidden : Form.Hides plainHost (.fields [] [] [] .single []) (ascii "x y") := by
    simp only [Form.Hides, Quoting.Whole]
    decide
  exact ⟨(password_hidden plainHost).1 sampleForm _ _ (formed _) (formed _) hides otherHides,
    (password_hidden plainHost).2.1 _ _ _ _ _ _ (formed _) hides,
    ((password_hidden plainHost).2.2 _ _ _ _ _ _ _ quoted quoted hidden rfl).1⟩

/-- `app:p@ss@tcp(db:3306)/runnerd` keeps the end of its password. -/
theorem password_with_at_sign :
    sampleForm.WellFormed (ascii "p@ss") ∧ sampleForm.WellFormed (ascii "secret") ∧
      databaseDSN plainHost (sampleForm.text (ascii "p@ss")) =
        ascii "xxxxx@ss@tcp(db:3306)/runnerd" ∧
      databaseDSN plainHost (sampleForm.text (ascii "secret")) =
        ascii "xxxxx@tcp(db:3306)/runnerd" ∧
      databaseDSN plainHost (sampleForm.text (ascii "p@ss")) ≠
        databaseDSN plainHost (sampleForm.text (ascii "secret")) := by
  simp only [sampleForm, Form.WellFormed]
  decide

end Hyperproperty

end Runnerd.Redaction
