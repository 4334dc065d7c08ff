import Mathlib.Data.List.Basic
import Mathlib.Data.List.TakeWhile

/-!
`url.Parse` and `URL.String` of Go's `net/url`, over the bytes of a string. The
reading of a host differs from one version of the package to the next and is a
parameter here.
-/

namespace Runnerd.Urls

abbrev Text := List UInt8

def code (rune : Char) : UInt8 := UInt8.ofNat rune.toNat

def ascii (text : String) : Text := text.toList.map code

section Bytes

def isLetter (c : UInt8) : Bool :=
  code 'a' ≤ c && c ≤ code 'z' || code 'A' ≤ c && c ≤ code 'Z'

def isDigit (c : UInt8) : Bool := code '0' ≤ c && c ≤ code '9'

def oneOf (set : String) (c : UInt8) : Bool := (ascii set).contains c

def isControl (c : UInt8) : Bool := c < code ' ' || c == 127

def toLower (c : UInt8) : UInt8 := if code 'A' ≤ c && c ≤ code 'Z' then c + 32 else c

def ishex (c : UInt8) : Bool :=
  isDigit c || code 'a' ≤ c && c ≤ code 'f' || code 'A' ≤ c && c ≤ code 'F'

def unhex (c : UInt8) : UInt8 :=
  if isDigit c then c - code '0'
  else if code 'a' ≤ c then c - code 'a' + 10
  else c - code 'A' + 10

def upperhex (digit : UInt8) : UInt8 :=
  if digit < 10 then code '0' + digit else code 'A' + (digit - 10)

end Bytes

section Escapes

inductive Encoding where
  | path
  | userPassword
  | host
  | fragment
  deriving DecidableEq

def shouldEscape (c : UInt8) (mode : Encoding) : Bool :=
  if isLetter c || isDigit c then false
  else if mode = .host && oneOf "!$&'()*+,;=:[]<>\"" c then false
  else if oneOf "-_.~" c then false
  else if oneOf "$&+,/:;=?@" c then
    match mode with
    | .path => c == code '?'
    | .userPassword => oneOf "@/?:" c
    | .fragment => false
    | .host => true
  else if mode = .fragment && oneOf "!()*" c then false
  else true

def escape (mode : Encoding) (text : Text) : Text :=
  text.flatMap fun c =>
    if shouldEscape c mode then [code '%', upperhex (c / 16), upperhex (c % 16)] else [c]

/-- The modes of a path, of user information and of a fragment read alike. -/
def unescape : Text → Option Text
  | [] => some []
  | [c] => if c = code '%' then none else some [c]
  | [c, d] => if c = code '%' then none else (unescape [d]).map (c :: ·)
  | c :: first :: second :: rest =>
      if c = code '%' then
        if ishex first && ishex second then
          (unescape rest).map ((unhex first * 16 + unhex second) :: ·)
        else none
      else (unescape (first :: second :: rest)).map (c :: ·)

def validEncoded (mode : Encoding) (text : Text) : Bool :=
  text.all fun c => oneOf "!$&'()*+,;=:@[]%" c || !shouldEscape c mode

end Escapes

section Records

structure Userinfo where
  username : Text
  password : Text := []
  passwordSet : Bool := false
  deriving DecidableEq

/-- `rootless` is the field `Opaque`. -/
structure URL where
  scheme : Text := []
  rootless : Text := []
  user : Option Userinfo := none
  host : Text := []
  path : Text := []
  rawPath : Text := []
  omitHost : Bool := false
  forceQuery : Bool := false
  rawQuery : Text := []
  fragment : Text := []
  rawFragment : Text := []
  deriving DecidableEq

def URL.setPath (url : URL) (text : Text) : Option URL :=
  (unescape text).map fun path =>
    { url with path := path, rawPath := if text = escape .path path then [] else text }

def URL.setFragment (url : URL) (text : Text) : Option URL :=
  (unescape text).map fun fragment =>
    { url with
      fragment := fragment
      rawFragment := if text = escape .fragment fragment then [] else text }

end Records

section Cuts

def cut (separator : UInt8) (text : Text) : Text × Text :=
  (text.takeWhile (· != separator), (text.dropWhile (· != separator)).drop 1)

/-- The two sides of the last separator. -/
def cutLast (separator : UInt8) : Text → Option (Text × Text)
  | [] => none
  | c :: rest =>
      match cutLast separator rest with
      | some (front, back) => some (c :: front, back)
      | none => if c = separator then some ([], rest) else none

end Cuts

section Parse

/-- The loop of `getScheme`; `rest` is what is left of `rawURL` at index `i`. -/
def schemeFrom (rawURL : Text) : Nat → Text → Option (Text × Text)
  | _, [] => some ([], rawURL)
  | i, c :: rest =>
      if isLetter c then schemeFrom rawURL (i + 1) rest
      else if isDigit c || oneOf "+-." c then
        if i = 0 then some ([], rawURL) else schemeFrom rawURL (i + 1) rest
      else if c = code ':' then
        if i = 0 then none else some (rawURL.take i, rest)
      else some ([], rawURL)

def getScheme (rawURL : Text) : Option (Text × Text) := schemeFrom rawURL 0 rawURL

/-- What stands before the query, whether the query is a bare `?`, and the query. -/
def takeQuery (rest : Text) : Text × Bool × Text :=
  if rest.getLast? = some (code '?') ∧ rest.count (code '?') = 1 then (rest.dropLast, true, [])
  else ((cut (code '?') rest).1, false, (cut (code '?') rest).2)

def validUserinfo (text : Text) : Bool :=
  text.all fun c => isLetter c || isDigit c || oneOf "-._:~!$&'()*+,;=%@" c

def parseUserinfo (userinfo : Text) : Option Userinfo :=
  if userinfo.contains (code ':') then
    (unescape (cut (code ':') userinfo).1).bind fun username =>
      (unescape (cut (code ':') userinfo).2).map fun password =>
        { username, password, passwordSet := true }
  else (unescape userinfo).map fun username => { username }

variable (parseHost : Text → Text → Option Text)

def parseAuthority (scheme authority : Text) : Option (Option Userinfo × Text) :=
  match cutLast (code '@') authority with
  | none => (parseHost scheme authority).map fun host => (none, host)
  | some (userinfo, hostport) =>
      -- the host is read first, and its error is the one that is reported
      (parseHost scheme hostport).bind fun host =>
        if validUserinfo userinfo then (parseUserinfo userinfo).map fun user => (some user, host)
        else none

/-- `parse` from the point where scheme and query are known. -/
def URL.parseRest (url : URL) (rest : Text) : Option URL :=
  -- a rootless path behind a scheme is not looked into, not even for user information
  if rest.head? ≠ some (code '/') ∧ url.scheme ≠ [] then some { url with rootless := rest }
  else if rest.head? ≠ some (code '/') ∧ (cut (code '/') rest).1.contains (code ':') then none
  else if (url.scheme ≠ [] ∨ ¬ ascii "///" <+: rest) ∧ ascii "//" <+: rest then
    let authority := (rest.drop 2).takeWhile (· != code '/')
    let path := (rest.drop 2).dropWhile (· != code '/')
    (parseAuthority parseHost url.scheme authority).bind fun found =>
      URL.setPath { url with user := found.1, host := found.2 } path
  else if url.scheme ≠ [] then URL.setPath { url with omitHost := true } rest
  else url.setPath rest

/-- The unexported `parse`, with `viaRequest` false. -/
def parseRaw (rawURL : Text) : Option URL :=
  if rawURL.any isControl then none
  else if rawURL = ascii "*" then some { path := ascii "*" }
  else
    (getScheme rawURL).bind fun found =>
      let query := takeQuery found.2
      URL.parseRest parseHost
        { scheme := found.1.map toLower, forceQuery := query.2.1, rawQuery := query.2.2 } query.1

def parse (rawURL : Text) : Option URL :=
  (parseRaw parseHost (cut (code '#') rawURL).1).bind fun url =>
    if (cut (code '#') rawURL).2 = [] then some url
    else url.setFragment (cut (code '#') rawURL).2

end Parse

section Print

def Userinfo.string (user : Userinfo) : Text :=
  if user.username ≠ [] ∨ user.passwordSet then
    escape .userPassword user.username ++
      if user.passwordSet then code ':' :: escape .userPassword user.password else []
  else []

def URL.escapedPath (url : URL) : Text :=
  if url.rawPath ≠ [] ∧ validEncoded .path url.rawPath ∧ unescape url.rawPath = some url.path then
    url.rawPath
  else if url.path = ascii "*" then ascii "*"
  else escape .path url.path

def URL.escapedFragment (url : URL) : Text :=
  if url.rawFragment ≠ [] ∧ validEncoded .fragment url.rawFragment ∧
      unescape url.rawFragment = some url.fragment then url.rawFragment
  else escape .fragment url.fragment

def URL.schemeText (url : URL) : Text :=
  if url.scheme ≠ [] then url.scheme ++ [code ':'] else []

def URL.hostText (url : URL) : Text :=
  if url.scheme ≠ [] ∨ url.host ≠ [] ∨ url.user.isSome then
    if url.omitHost ∧ url.host = [] ∧ url.user = none then []
    else
      (if url.host ≠ [] ∨ url.path ≠ [] ∨ url.user.isSome then ascii "//" else []) ++
        (match url.user with
          | some user => user.string ++ [code '@']
          | none => []) ++
        escape .host url.host
  else []

def URL.pathText (url : URL) : Text :=
  let path := url.escapedPath
  (if path ≠ [] ∧ path.head? ≠ some (code '/') ∧ url.host ≠ [] then [code '/'] else []) ++
    (if url.schemeText ++ url.hostText = [] ∧ (cut (code '/') path).1.contains (code ':') then
      ascii "./" else []) ++
    path

def URL.string (url : URL) : Text :=
  url.schemeText ++
    (if url.rootless ≠ [] then url.rootless else url.hostText ++ url.pathText) ++
    (if url.forceQuery ∨ url.rawQuery ≠ [] then code '?' :: url.rawQuery else []) ++
    (if url.fragment ≠ [] then code '#' :: url.escapedFragment else [])

end Print

section Cutting

theorem cut_append {separator : UInt8} {front : Text} (absent : separator ∉ front) (rest : Text) :
    cut separator (front ++ rest) = (front ++ (cut separator rest).1, (cut separator rest).2) := by
  have passes : ∀ c ∈ front, (c != separator) = true := by
    intro c member
    simpa using ne_of_mem_of_not_mem member absent
  simp only [cut, List.takeWhile_append_of_pos passes, List.dropWhile_append_of_pos passes]

theorem cut_cons (separator : UInt8) (rest : Text) :
    cut separator (separator :: rest) = ([], rest) := by
  simp [cut]

theorem cut_first {separator : UInt8} {front : Text} (absent : separator ∉ front) (rest : Text) :
    cut separator (front ++ separator :: rest) = (front, rest) := by
  simp [cut_append absent, cut_cons]

theorem takeQuery_append {front : Text} (absent : code '?' ∉ front) (rest : Text) :
    takeQuery (front ++ rest) = (front ++ (takeQuery rest).1, (takeQuery rest).2) := by
  have counted : (front ++ rest).count (code '?') = rest.count (code '?') := by
    rw [List.count_append, List.count_eq_zero_of_not_mem absent, Nat.zero_add]
  cases rest with
  | nil =>
      have last : ¬ ((front ++ []).getLast? = some (code '?') ∧
          (front ++ []).count (code '?') = 1) := by
        intro both
        simp [List.count_eq_zero_of_not_mem absent] at both
      rw [takeQuery, if_neg last, cut_append absent]
      simp [takeQuery]
  | cons c rest =>
      have last : (front ++ c :: rest).getLast? = (c :: rest).getLast? := by
        simp [List.getLast?_cons]
      unfold takeQuery
      rw [last, counted]
      split
      · simp
      · simp [cut_append absent]

theorem cutLast_append (separator : UInt8) (front rest : Text) :
    cutLast separator (front ++ rest) =
      match cutLast separator rest with
      | some (before, after) => some (front ++ before, after)
      | none => (cutLast separator front).map fun sides => (sides.1, sides.2 ++ rest) := by
  induction front with
  | nil => cases found : cutLast separator rest <;> simp [cutLast, found]
  | cons c front ih =>
      simp only [List.cons_append, cutLast, ih]
      cases cutLast separator rest with
      | some sides => simp
      | none =>
          cases cutLast separator front with
          | some sides => simp
          | none => by_cases ends : c = separator <;> simp [ends]

/-- Past a separator, only what follows it decides where the last one stands. -/
theorem cutLast_past (separator : UInt8) (rest : Text) : ∃ after host,
    ∀ front, cutLast separator (front ++ separator :: rest) = some (front ++ after, host) := by
  cases found : cutLast separator rest with
  | some sides =>
      refine ⟨separator :: sides.1, sides.2, fun front => ?_⟩
      rw [cutLast_append]
      simp [cutLast, found]
  | none =>
      refine ⟨[], rest, fun front => ?_⟩
      rw [cutLast_append]
      simp [cutLast, found]

end Cutting

section Reading

theorem unescape_cons {c : UInt8} (plain : c ≠ code '%') (rest : Text) :
    unescape (c :: rest) = (unescape rest).map (c :: ·) := by
  match rest with
  | [] => simp [unescape, plain]
  | [_] => simp [unescape, plain]
  | _ :: _ :: _ => simp [unescape, plain]

/-- A front whose escapes are whole is read on its own. -/
theorem unescape_append {front decoded : Text} (whole : unescape front = some decoded)
    (rest : Text) : unescape (front ++ rest) = (unescape rest).map (decoded ++ ·) := by
  -- an escape that `front` leaves open has failed, so none reaches into `rest`
  induction front using unescape.induct generalizing decoded with
  | case1 =>
      cases whole
      simp
  | case2 => simp [unescape] at whole
  | case3 c plain =>
      simp only [unescape, if_neg plain, Option.some.injEq] at whole
      subst whole
      rw [List.cons_append, unescape_cons plain]
      rfl
  | case4 => simp [unescape] at whole
  | case5 c d plain ih =>
      rw [unescape_cons plain] at whole
      obtain ⟨tail, read, rfl⟩ := Option.map_eq_some_iff.mp whole
      rw [List.cons_append, unescape_cons plain, ih read, Option.map_map]
      rfl
  | case6 first second front hex ih =>
      simp only [unescape, if_true, if_pos hex] at whole
      obtain ⟨tail, read, rfl⟩ := Option.map_eq_some_iff.mp whole
      simp only [List.cons_append, unescape, if_true, if_pos hex, ih read, Option.map_map]
      rfl
  | case7 first second front broken =>
      simp only [unescape, if_true, if_neg broken] at whole
      cases whole
  | case8 c first second front plain ih =>
      rw [unescape_cons plain] at whole
      obtain ⟨tail, read, rfl⟩ := Option.map_eq_some_iff.mp whole
      rw [List.cons_append, unescape_cons plain, ih read, Option.map_map]
      rfl

theorem schemeFrom_scheme (rawURL rest : Text) {scheme : Text}
    (valid : ∀ c ∈ scheme, isLetter c || isDigit c || oneOf "+-." c) (i : Nat)
    (starts : 0 < i ∨ ∃ c, scheme.head? = some c ∧ isLetter c) :
    schemeFrom rawURL i (scheme ++ code ':' :: rest) =
      some (rawURL.take (i + scheme.length), rest) := by
  -- a digit or a mark stops the loop at index 0 only
  induction scheme generalizing i with
  | nil =>
      have later : i ≠ 0 := by
        rcases starts with positive | ⟨c, none, _⟩
        · omega
        · cases none
      have stops : isLetter (code ':') = false ∧
          (isDigit (code ':') || oneOf "+-." (code ':')) = false := by decide
      simp [schemeFrom, stops, later]
  | cons c scheme ih =>
      have ⟨here, others⟩ := List.forall_mem_cons.mp valid
      have next := ih others (i + 1) (.inl (Nat.succ_pos i))
      rw [List.cons_append, schemeFrom, next, List.length_cons, Nat.add_assoc,
        Nat.add_comm 1]
      by_cases letter : isLetter c
      · rw [if_pos letter]
      · have later : i ≠ 0 := by
          rcases starts with positive | ⟨first, head, letters⟩
          · omega
          · cases head
            exact absurd letters letter
        rw [if_neg letter, if_pos (by simpa [letter] using here), if_neg later]

end Reading

section Accounts

def isUserinfo (c : UInt8) : Bool := isLetter c || isDigit c || oneOf "-._~!$&'()*+,;=:%" c

/-- A user name or a password as a URL spells it: no `@`, and every escape whole. -/
def Encoded (text : Text) : Prop := (∀ c ∈ text, isUserinfo c) ∧ (unescape text).isSome

theorem isLetter_range {c : UInt8} (letter : isLetter c) :
    97 ≤ c.toNat ∧ c.toNat ≤ 122 ∨ 65 ≤ c.toNat ∧ c.toNat ≤ 90 := by
  simpa [isLetter, code, UInt8.le_iff_toNat_le] using letter

theorem isDigit_range {c : UInt8} (digit : isDigit c) : 48 ≤ c.toNat ∧ c.toNat ≤ 57 := by
  simpa [isDigit, code, UInt8.le_iff_toNat_le] using digit

theorem isControl_false {c : UInt8} (above : 32 ≤ c.toNat) (below : c.toNat < 127) :
    isControl c = false := by
  simp only [isControl, code, Bool.or_eq_false_iff, beq_eq_false_iff_ne]
  constructor
  · simp [UInt8.lt_iff_toNat_lt]
    omega
  · rintro rfl
    simp at below

theorem isUserinfo_printable {c : UInt8} (listed : isUserinfo c) : isControl c = false := by
  simp only [isUserinfo, Bool.or_eq_true] at listed
  rcases listed with (letter | digit) | other
  · have range := isLetter_range letter
    exact isControl_false (by omega) (by omega)
  · have range := isDigit_range digit
    exact isControl_false (by omega) (by omega)
  · have marks : (ascii "-._~!$&'()*+,;=:%").all (fun c => !isControl c) := by decide
    simpa using List.all_eq_true.mp marks c (by simpa [oneOf] using other)

theorem isUserinfo_valid {c : UInt8} (listed : isUserinfo c) :
    (isLetter c || isDigit c || oneOf "-._:~!$&'()*+,;=%@" c) = true := by
  simp only [isUserinfo, Bool.or_eq_true] at listed ⊢
  rcases listed with plain | other
  · exact .inl plain
  · have marks : (ascii "-._~!$&'()*+,;=:%").all (oneOf "-._:~!$&'()*+,;=%@") := by decide
    exact .inr (List.all_eq_true.mp marks c (by simpa [oneOf] using other))

/-- The user information of a URL, and what follows it. -/
def accountText (user password rest : Text) : Text :=
  user ++ code ':' :: (password ++ code '@' :: rest)

theorem accountText_append (user password rest : Text) :
    accountText user password rest = accountText user password [] ++ rest := by
  simp [accountText]

theorem accountText_all {P : UInt8 → Prop} {user password : Text} (named : Encoded user)
    (secret : Encoded password) (listed : ∀ c, isUserinfo c → P c) (ends : P (code '@')) :
    ∀ c ∈ accountText user password [], P c := by
  intro c member
  simp only [accountText, List.mem_append, List.mem_cons, List.not_mem_nil, or_false] at member
  rcases member with inUser | rfl | inPassword | rfl
  · exact listed c (named.1 c inUser)
  · exact listed (code ':') (by decide)
  · exact listed c (secret.1 c inPassword)
  · exact ends

theorem accountText_absent {user password : Text} (named : Encoded user)
    (secret : Encoded password) {mark : UInt8} (other : isUserinfo mark = false)
    (inner : code '@' ≠ mark) : mark ∉ accountText user password [] := by
  intro member
  refine accountText_all (P := (· ≠ mark)) named secret ?_ inner mark member rfl
  rintro c listed rfl
  rw [other] at listed
  cases listed

variable {user password : Text}

theorem parseUserinfo_account (unnamed : code ':' ∉ user) (secret : Encoded password)
    (after : Text) : ∃ decoded, parseUserinfo (user ++ code ':' :: (password ++ after)) =
      (parseUserinfo (user ++ code ':' :: after)).map fun info =>
        { info with password := decoded ++ info.password } := by
  obtain ⟨decoded, whole⟩ := Option.isSome_iff_exists.mp secret.2
  refine ⟨decoded, ?_⟩
  have colons (rest : Text) : (user ++ code ':' :: rest).contains (code ':') = true := by simp
  simp only [parseUserinfo, colons, if_true, cut_first unnamed, unescape_append whole]
  cases unescape user with
  | none => rfl
  | some username => cases unescape after <;> rfl

variable (parseHost : Text → Text → Option Text)

theorem parseAuthority_account (unnamed : code ':' ∉ user) (secret : Encoded password)
    (scheme rest : Text) : ∃ account,
      parseAuthority parseHost scheme (accountText user password rest) =
        (parseAuthority parseHost scheme (accountText user [] rest)).map fun found =>
          (some account, found.2) := by
  -- the last `@` is the one behind the password, or stands in `rest`
  obtain ⟨after, host, sides⟩ := cutLast_past (code '@') rest
  have read (secret : Text) : cutLast (code '@') (accountText user secret rest) =
      some (user ++ code ':' :: (secret ++ after), host) := by
    have split : accountText user secret rest =
        (user ++ code ':' :: secret) ++ code '@' :: rest := by simp [accountText]
    rw [split, sides, List.append_assoc, List.cons_append]
  have valid : validUserinfo (user ++ code ':' :: (password ++ after)) =
      validUserinfo (user ++ code ':' :: after) := by
    have bytes := List.all_eq_true.mpr fun c member => isUserinfo_valid (secret.1 c member)
    simp only [validUserinfo, List.all_append, List.all_cons, bytes, Bool.true_and]
  obtain ⟨decoded, named⟩ := parseUserinfo_account unnamed secret after
  simp only [parseAuthority, read, valid, named, List.nil_append]
  cases parseHost scheme host with
  | none => exact ⟨{ username := [] }, rfl⟩
  | some found =>
      by_cases admitted : validUserinfo (user ++ code ':' :: after)
      · cases parseUserinfo (user ++ code ':' :: after) with
        | none => exact ⟨{ username := [] }, by simp [admitted]⟩
        | some info =>
            exact ⟨{ info with password := decoded ++ info.password }, by simp [admitted]⟩
      · exact ⟨{ username := [] }, by simp [admitted]⟩

def URL.withUser (url : URL) (account : Userinfo) : URL := { url with user := some account }

theorem setPath_withUser (url : URL) (account : Userinfo) (text : Text) :
    (url.withUser account).setPath text = (url.setPath text).map (·.withUser account) := by
  simp only [URL.setPath, Option.map_map]
  rfl

theorem setFragment_withUser (url : URL) (account : Userinfo) (text : Text) :
    (url.withUser account).setFragment text = (url.setFragment text).map (·.withUser account) := by
  simp only [URL.setFragment, Option.map_map]
  rfl

theorem parseRest_authority {url : URL} (schemed : url.scheme ≠ []) (authority : Text) :
    url.parseRest parseHost (ascii "//" ++ authority) =
      (parseAuthority parseHost url.scheme (authority.takeWhile (· != code '/'))).bind
        fun found => URL.setPath { url with user := found.1, host := found.2 }
          (authority.dropWhile (· != code '/')) := by
  have head : (ascii "//" ++ authority).head? = some (code '/') := rfl
  have lead : ascii "//" <+: ascii "//" ++ authority := List.prefix_append _ _
  have rest : (ascii "//" ++ authority).drop 2 = authority := rfl
  simp [URL.parseRest, head, lead, rest, schemed]

theorem parseRest_account (named : Encoded user) (unnamed : code ':' ∉ user)
    (secret : Encoded password) (url : URL) (schemed : url.scheme ≠ []) (rest : Text) :
    ∃ account, url.parseRest parseHost (ascii "//" ++ accountText user password rest) =
      (url.parseRest parseHost (ascii "//" ++ accountText user [] rest)).map
        (·.withUser account) := by
  have front {secret : Text} (encoded : Encoded secret) :
      ∀ c ∈ accountText user secret [], (c != code '/') = true := by
    intro c member
    have absent : code '/' ∉ accountText user secret [] :=
      accountText_absent named encoded (by decide) (by decide)
    simpa using ne_of_mem_of_not_mem member absent
  have taken {secret : Text} (encoded : Encoded secret) :
      (accountText user secret rest).takeWhile (· != code '/') =
        accountText user secret (rest.takeWhile (· != code '/')) ∧
      (accountText user secret rest).dropWhile (· != code '/') =
        rest.dropWhile (· != code '/') := by
    rw [accountText_append user secret rest, accountText_append user secret (rest.takeWhile _)]
    exact ⟨List.takeWhile_append_of_pos (front encoded),
      List.dropWhile_append_of_pos (front encoded)⟩
  have empty : Encoded [] := ⟨by simp, rfl⟩
  obtain ⟨account, found⟩ := parseAuthority_account parseHost unnamed secret
    url.scheme (rest.takeWhile (· != code '/'))
  refine ⟨account, ?_⟩
  rw [parseRest_authority parseHost schemed, parseRest_authority parseHost schemed,
    (taken secret).1, (taken secret).2, (taken empty).1, (taken empty).2, found]
  cases parseAuthority parseHost url.scheme
      (accountText user [] (rest.takeWhile (· != code '/'))) with
  | none => rfl
  | some other =>
      exact setPath_withUser { url with user := other.1, host := other.2 } account _

end Accounts

section Schemes

def isSchemeByte (c : UInt8) : Bool := isLetter c || isDigit c || oneOf "+-." c

/-- A letter, and then letters, digits and the three marks of a scheme. -/
def IsScheme (scheme : Text) : Prop :=
  (∃ c, scheme.head? = some c ∧ isLetter c) ∧ ∀ c ∈ scheme, isSchemeByte c

theorem isSchemeByte_printable {c : UInt8} (listed : isSchemeByte c) : isControl c = false := by
  simp only [isSchemeByte, Bool.or_eq_true] at listed
  rcases listed with (letter | digit) | other
  · have range := isLetter_range letter
    exact isControl_false (by omega) (by omega)
  · have range := isDigit_range digit
    exact isControl_false (by omega) (by omega)
  · have marks : (ascii "+-.").all (fun c => !isControl c) := by decide
    simpa using List.all_eq_true.mp marks c (by simpa [oneOf] using other)

theorem IsScheme.absent {scheme : Text} (valid : IsScheme scheme) {mark : UInt8}
    (other : isSchemeByte mark = false) : mark ∉ scheme := by
  intro member
  have listed := valid.2 mark member
  rw [other] at listed
  cases listed

theorem IsScheme.ne_nil {scheme : Text} (valid : IsScheme scheme) : scheme ≠ [] := by
  rintro rfl
  obtain ⟨⟨c, none, _⟩, _⟩ := valid
  cases none

theorem getScheme_scheme {scheme : Text} (valid : IsScheme scheme) (rest : Text) :
    getScheme (scheme ++ code ':' :: rest) = some (scheme, rest) := by
  rw [getScheme, schemeFrom_scheme _ rest valid.2 0 (.inr valid.1), Nat.zero_add]
  simp

/-- A scheme is the text up to the first colon, and has bytes of a scheme only. -/
theorem schemeFrom_found {seen rest scheme path : Text} (read : ∀ c ∈ seen, isSchemeByte c)
    (found : schemeFrom (seen ++ rest) seen.length rest = some (scheme, path))
    (schemed : scheme ≠ []) :
    seen ++ rest = scheme ++ code ':' :: path ∧ ∀ c ∈ scheme, isSchemeByte c := by
  induction rest generalizing seen with
  | nil =>
      simp only [schemeFrom, Option.some.injEq, Prod.mk.injEq] at found
      exact absurd found.1.symm schemed
  | cons c rest ih =>
      have later (listed : isSchemeByte c)
          (more : schemeFrom (seen ++ c :: rest) (seen.length + 1) rest = some (scheme, path)) :
          seen ++ c :: rest = scheme ++ code ':' :: path ∧ ∀ c ∈ scheme, isSchemeByte c := by
        have shifted : seen ++ c :: rest = (seen ++ [c]) ++ rest := by simp
        rw [shifted] at more ⊢
        apply ih
        · intro d member
          rcases List.mem_append.mp member with earlier | last
          · exact read d earlier
          · rw [List.mem_singleton.mp last]
            exact listed
        · simpa using more
      rw [schemeFrom] at found
      by_cases letter : isLetter c
      · rw [if_pos letter] at found
        exact later (by simp [isSchemeByte, letter]) found
      · rw [if_neg letter] at found
        by_cases mark : isDigit c || oneOf "+-." c
        · rw [if_pos mark] at found
          by_cases first : seen.length = 0
          · rw [if_pos first] at found
            cases found
            exact absurd rfl schemed
          · rw [if_neg first] at found
            exact later (by simpa [isSchemeByte, letter] using mark) found
        · rw [if_neg mark] at found
          by_cases colon : c = code ':'
          · subst colon
            by_cases first : seen.length = 0
            · simp [first] at found
            · simp only [if_true, if_neg first, List.take_left', Option.some.injEq,
                Prod.mk.injEq] at found
              obtain ⟨rfl, rfl⟩ := found
              exact ⟨rfl, read⟩
          · rw [if_neg colon] at found
            cases found
            exact absurd rfl schemed

theorem getScheme_found {rawURL scheme path : Text} (found : getScheme rawURL = some (scheme, path))
    (schemed : scheme ≠ []) :
    rawURL = scheme ++ code ':' :: path ∧ ∀ c ∈ scheme, isSchemeByte c :=
  have none : ∀ c ∈ ([] : Text), isSchemeByte c := List.forall_mem_nil _
  schemeFrom_found none found schemed

theorem toLower_schemeByte {c : UInt8} (listed : isSchemeByte c) : isSchemeByte (toLower c) := by
  by_cases upper : code 'A' ≤ c && c ≤ code 'Z'
  · have letter : isLetter (toLower c) := by
      simp only [toLower, if_pos upper]
      simp [code, UInt8.le_iff_toNat_le, isLetter] at upper ⊢
      omega
    simp [isSchemeByte, letter]
  · rw [toLower, if_neg upper]
    exact listed

variable {parseHost : Text → Text → Option Text}

theorem setPath_scheme {url read : URL} {text : Text} (set : url.setPath text = some read) :
    read.scheme = url.scheme := by
  obtain ⟨path, _, rfl⟩ := Option.map_eq_some_iff.mp set
  rfl

theorem parseRest_scheme {url read : URL} {rest : Text}
    (parsed : url.parseRest parseHost rest = some read) : read.scheme = url.scheme := by
  simp only [URL.parseRest] at parsed
  split at parsed
  · cases parsed
    rfl
  · split at parsed
    · cases parsed
    · split at parsed
      · obtain ⟨found, _, set⟩ := Option.bind_eq_some_iff.mp parsed
        have kept := setPath_scheme set
        exact kept
      · split at parsed
        · have kept := setPath_scheme parsed
          exact kept
        · exact setPath_scheme parsed

theorem parse_scheme {rawURL : Text} {url : URL} (parsed : parse parseHost rawURL = some url) :
    url.scheme = [] ∨ ∃ scheme path,
      getScheme (cut (code '#') rawURL).1 = some (scheme, path) ∧
        url.scheme = scheme.map toLower := by
  obtain ⟨read, raw, rest⟩ := Option.bind_eq_some_iff.mp parsed
  have same : url.scheme = read.scheme := by
    split at rest
    · cases rest
      rfl
    · obtain ⟨fragment, _, rfl⟩ := Option.map_eq_some_iff.mp rest
      rfl
  rw [same]
  simp only [parseRaw] at raw
  split at raw
  · cases raw
  · split at raw
    · cases raw
      exact .inl rfl
    · obtain ⟨found, scheme, body⟩ := Option.bind_eq_some_iff.mp raw
      exact .inr ⟨found.1, found.2, scheme, parseRest_scheme body⟩

/-- A scheme in front of the first colon, with bytes of a scheme only. -/
theorem parse_schemed {rawURL : Text} {url : URL} (parsed : parse parseHost rawURL = some url)
    (schemed : url.scheme ≠ []) : ∃ scheme rest,
      rawURL = scheme ++ code ':' :: rest ∧ (∀ c ∈ scheme, isSchemeByte c) ∧
        ∀ c ∈ url.scheme, isSchemeByte c := by
  rcases parse_scheme parsed with none | ⟨scheme, path, found, lowered⟩
  · exact absurd none schemed
  · have written : scheme ≠ [] := by
      rintro rfl
      exact schemed lowered
    have ⟨front, bytes⟩ := getScheme_found found written
    have whole : rawURL = (cut (code '#') rawURL).1 ++
        rawURL.dropWhile (· != code '#') := by simp [cut]
    refine ⟨scheme, path ++ rawURL.dropWhile (· != code '#'), ?_, bytes, ?_⟩
    · rw [front] at whole
      simpa using whole
    · rw [lowered]
      intro c member
      obtain ⟨d, inScheme, rfl⟩ := List.mem_map.mp member
      exact toLower_schemeByte (bytes d inScheme)

end Schemes

theorem string_schemed {url : URL} (schemed : url.scheme ≠ []) :
    ∃ rest, url.string = url.scheme ++ code ':' :: rest := by
  simp only [URL.string, URL.schemeText, if_pos schemed, List.append_assoc, List.cons_append,
    List.nil_append]
  exact ⟨_, rfl⟩

section Blindness

variable (parseHost : Text → Text → Option Text) {scheme user password : Text}

theorem parseRaw_account (valid : IsScheme scheme) (named : Encoded user)
    (unnamed : code ':' ∉ user) (secret : Encoded password) (rest : Text) : ∃ account,
      parseRaw parseHost (scheme ++ code ':' :: (ascii "//" ++ accountText user password rest)) =
        (parseRaw parseHost (scheme ++ code ':' :: (ascii "//" ++ accountText user [] rest))).map
          (·.withUser account) := by
  have empty : Encoded [] := ⟨by simp, rfl⟩
  have control {secret : Text} (encoded : Encoded secret) :
      (scheme ++ code ':' :: (ascii "//" ++ accountText user secret rest)).any isControl =
        rest.any isControl := by
    have schemeBytes : scheme.any isControl = false :=
      List.any_eq_false.mpr fun c member => by simp [isSchemeByte_printable (valid.2 c member)]
    have accountBytes : (accountText user secret []).any isControl = false :=
      List.any_eq_false.mpr fun c member => by
        simp [accountText_all named encoded (fun c => isUserinfo_printable) (by decide) c member]
    have marks : isControl (code ':') = false ∧ (ascii "//").any isControl = false := by decide
    rw [accountText_append, List.any_append, List.any_cons, List.any_append, List.any_append,
      schemeBytes, accountBytes, marks.1, marks.2]
    simp
  have starless (secret : Text) :
      scheme ++ code ':' :: (ascii "//" ++ accountText user secret rest) ≠ ascii "*" := by
    intro star
    have colon : code ':' ∈ ascii "*" := by
      rw [← star]
      simp
    exact absurd colon (by decide)
  have queried {secret : Text} (encoded : Encoded secret) :
      takeQuery (ascii "//" ++ accountText user secret rest) =
        (ascii "//" ++ accountText user secret (takeQuery rest).1, (takeQuery rest).2) := by
    have absent : code '?' ∉ ascii "//" ++ accountText user secret [] := by
      rw [List.mem_append, not_or]
      exact ⟨by decide, accountText_absent named encoded (by decide) (by decide)⟩
    rw [accountText_append, ← List.append_assoc, takeQuery_append absent,
      accountText_append user secret (takeQuery rest).1, List.append_assoc]
  have lowered : scheme.map toLower ≠ [] := by simpa using valid.ne_nil
  obtain ⟨account, body⟩ := parseRest_account parseHost named unnamed secret
    { scheme := scheme.map toLower, forceQuery := (takeQuery rest).2.1,
      rawQuery := (takeQuery rest).2.2 } lowered (takeQuery rest).1
  refine ⟨account, ?_⟩
  simp only [parseRaw, control secret, control empty, if_neg (starless password),
    if_neg (starless []), getScheme_scheme valid, Option.bind_some, queried secret,
    queried empty, body]
  split
  · rfl
  · rfl

/-- The password of a URL reaches the parsed record in the user field alone. -/
theorem parse_account (valid : IsScheme scheme) (named : Encoded user)
    (unnamed : code ':' ∉ user) (secret : Encoded password) (rest : Text) : ∃ account,
      parse parseHost (scheme ++ code ':' :: (ascii "//" ++ accountText user password rest)) =
        (parse parseHost (scheme ++ code ':' :: (ascii "//" ++ accountText user [] rest))).map
          (·.withUser account) := by
  have empty : Encoded [] := ⟨by simp, rfl⟩
  have cuts {secret : Text} (encoded : Encoded secret) :
      cut (code '#') (scheme ++ code ':' :: (ascii "//" ++ accountText user secret rest)) =
        (scheme ++ code ':' :: (ascii "//" ++ accountText user secret (cut (code '#') rest).1),
          (cut (code '#') rest).2) := by
    have absent : code '#' ∉ scheme ++ code ':' :: (ascii "//" ++ accountText user secret []) := by
      rw [List.mem_append, List.mem_cons, List.mem_append, not_or, not_or, not_or]
      exact ⟨valid.absent (by decide), by decide, by decide,
        accountText_absent named encoded (by decide) (by decide)⟩
    have front (rest : Text) :
        scheme ++ code ':' :: (ascii "//" ++ accountText user secret rest) =
          (scheme ++ code ':' :: (ascii "//" ++ accountText user secret [])) ++ rest := by
      rw [accountText_append]
      simp
    rw [front rest, cut_append absent, ← front]
  obtain ⟨account, raw⟩ := parseRaw_account parseHost valid named unnamed secret
    (cut (code '#') rest).1
  refine ⟨account, ?_⟩
  simp only [parse, cuts secret, cuts empty, raw]
  cases parseRaw parseHost (scheme ++ code ':' ::
      (ascii "//" ++ accountText user [] (cut (code '#') rest).1)) with
  | none => rfl
  | some url =>
      simp only [Option.map_some, Option.bind_some]
      split
      · rfl
      · exact setFragment_withUser url account _

end Blindness

end Runnerd.Urls
