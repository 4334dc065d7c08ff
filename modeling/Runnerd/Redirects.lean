import Mathlib.Data.List.DropRight
import Mathlib.Data.List.Infix
import Runnerd.Paths
import Runnerd.Urls

/-!
The way back from a login: `signInURL` of `ui/src/app-load-policy.ts` and
`ui/src/components/auth-pages.tsx`, the page that `handleGitHubOAuthLogin` keeps in a cookie,
and the redirect that ends `handleGitHubOAuthCallback`, as a browser follows it. Texts are
byte strings; the parser of hosts is a parameter, as in `Urls`.
-/

namespace Runnerd.Redirects

open Paths (clean rootedAt slash)
open Urls (Text code ascii cut isLetter isDigit oneOf)

section Trimming

/-- The encodings of the runes that `unicode.IsSpace` knows. -/
def spaces : List Text :=
  [[9], [10], [11], [12], [13], [32], [194, 133], [194, 160], [225, 154, 128]] ++
    ((List.range 11).map fun last => [226, 128, 128 + UInt8.ofNat last]) ++
    [[226, 128, 168], [226, 128, 169], [226, 128, 175], [226, 129, 159], [227, 128, 128]]

def dropFirst (spaces : List Text) : Nat → Text → Text
  | 0, text => text
  | fuel + 1, text =>
      match spaces.find? (·.isPrefixOf text) with
      | none => text
      | some space => dropFirst spaces fuel (text.drop space.length)

/-- `strings.TrimSpace` on the bytes of a string. -/
def trimSpace (text : Text) : Text :=
  let left := dropFirst spaces text.length text
  (dropFirst (spaces.map List.reverse) left.length left.reverse).reverse

end Trimming

section Cookies

def validCookieValueByte (c : UInt8) : Bool :=
  32 ≤ c && c < 127 && c != code '"' && c != code ';' && c != code '\\'

/-- What `http.SetCookie` writes behind the name. -/
def sanitizeCookieValue (value : Text) : Text :=
  let kept := value.filter validCookieValueByte
  if kept = [] then []
  else if code ' ' ∈ kept ∨ code ',' ∈ kept then code '"' :: (kept ++ [code '"'])
  else kept

def stripQuotes (raw : Text) : Text :=
  if 1 < raw.length ∧ raw.head? = some (code '"') ∧ raw.getLast? = some (code '"') then
    (raw.drop 1).dropLast
  else raw

/-- What `Request.Cookie` reads; a cookie with other bytes is none. -/
def parseCookieValue (raw : Text) : Option Text :=
  let value := stripQuotes raw
  if value.all validCookieValueByte then some value else none

end Cookies

section Returning
variable (parseHost : Text → Text → Option Text)

def sanitizeOAuthReturnTo (value : Text) : Text :=
  let value := trimSpace value
  if value = [] ∨ value.head? ≠ some (code '/') ∨ ascii "//" <+: value ∨ code '\\' ∈ value then []
  else
    match Urls.parse parseHost value with
    | none => []
    | some parsed => if parsed.scheme ≠ [] ∨ parsed.host ≠ [] then [] else value

/-- A path is cleaned, but keeps its last slash; what stands behind it is left alone. -/
def cleanTarget (url : Text) : Text :=
  let path := url.takeWhile (· != code '?')
  let query := url.dropWhile (· != code '?')
  let cleaned := clean path
  (if path.getLast? = some slash ∧ cleaned.getLast? ≠ some slash then cleaned ++ [slash]
    else cleaned) ++ query

/-- The directory of a path, with its slash. -/
def directory (path : Text) : Text := (path.reverse.dropWhile (· != slash)).reverse

def lowerHex (digit : UInt8) : UInt8 := if digit < 10 then code '0' + digit else code 'a' + (digit - 10)

def hexEscapeNonASCII (text : Text) : Text :=
  text.flatMap fun c => if c < 128 then [c] else [code '%', lowerHex (c / 16), lowerHex (c % 16)]

/-- The `Location` that `http.Redirect` sends from a page. -/
def redirect (oldPath url : Text) : Text :=
  let target :=
    match Urls.parse parseHost url with
    | none => url
    | some parsed =>
        if parsed.scheme = [] ∧ parsed.host = [] then
          cleanTarget (if url.head? = some slash then url else directory oldPath ++ url)
        else url
  hexEscapeNonASCII target

/-- What the callback redirects to, by the cookie of the login. -/
def callbackTarget (cookie : Option Text) : Text :=
  match cookie.bind parseCookieValue with
  | none => ascii "/"
  | some value =>
      let sanitized := sanitizeOAuthReturnTo parseHost value
      if sanitized = [] then ascii "/" else sanitized

def callbackLocation (cookie : Option Text) : Text :=
  redirect parseHost (ascii "/auth/github/callback") (callbackTarget parseHost cookie)

/-- The cookie that the login leaves behind; none when it clears it. -/
def loginCookie (returnTo : Text) : Option Text :=
  let sanitized := sanitizeOAuthReturnTo parseHost returnTo
  if sanitized = [] then none else some (sanitizeCookieValue sanitized)

end Returning

section Browser

def isC0OrSpace (c : UInt8) : Bool := c ≤ 32

def isTabOrNewline (c : UInt8) : Bool := c == 9 || c == 10 || c == 13

/-- What a browser reads of a URL: the ends are stripped, tabs and newlines go everywhere. -/
def browserText (location : Text) : Text :=
  ((location.dropWhile isC0OrSpace).rdropWhile isC0OrSpace).filter fun c => !isTabOrNewline c

/-- In a URL of the web a backslash is a slash. -/
def isSlash (c : UInt8) : Bool := c == code '/' || c == code '\\'

def hasScheme : Text → Bool
  | [] => false
  | c :: rest =>
      isLetter c && (rest.dropWhile fun d => isLetter d || isDigit d || oneOf "+-." d).head? ==
        some (code ':')

/-- A reference that names a scheme or a host of its own. -/
def leavesOrigin (location : Text) : Bool :=
  match browserText location with
  | a :: b :: _ => isSlash a && isSlash b || hasScheme (browserText location)
  | text => hasScheme text

end Browser

section Bytes

theorem dropFirst_subset (spaces : List Text) (fuel : Nat) (text : Text) :
    dropFirst spaces fuel text ⊆ text := by
  induction fuel generalizing text with
  | zero => exact List.Subset.refl text
  | succ fuel ih =>
      unfold dropFirst
      split
      · exact List.Subset.refl text
      · exact List.Subset.trans (ih _) (List.drop_subset _ text)

theorem trimSpace_subset (text : Text) : trimSpace text ⊆ text := by
  intro c member
  have right := dropFirst_subset _ _ _ (List.mem_reverse.mp member)
  exact dropFirst_subset _ _ _ (List.mem_reverse.mp right)

theorem validCookieValueByte_range {c : UInt8} (valid : validCookieValueByte c = true) :
    32 ≤ c.toNat ∧ c.toNat < 127 ∧ c ≠ code '\\' := by
  simp only [validCookieValueByte, Bool.and_eq_true, decide_eq_true_eq, bne_iff_ne, ne_eq,
    UInt8.le_iff_toNat_le, UInt8.lt_iff_toNat_lt] at valid
  exact ⟨valid.1.1.1.1, valid.1.1.1.2, valid.2⟩

theorem hexEscapeNonASCII_ascii {text : Text} (low : ∀ c ∈ text, c < 128) :
    hexEscapeNonASCII text = text := by
  induction text with
  | nil => rfl
  | cons c rest ih =>
      have here := low c List.mem_cons_self
      have later := ih fun d member => low d (List.mem_cons_of_mem c member)
      rw [hexEscapeNonASCII] at later ⊢
      rw [List.flatMap_cons, if_pos here, later]
      rfl

end Bytes

section Staying
variable (parseHost : Text → Text → Option Text)

/-- What gets past the sanitizer. -/
theorem sanitizeOAuthReturnTo_ok {value kept : Text}
    (sanitized : sanitizeOAuthReturnTo parseHost value = kept) (filled : kept ≠ []) :
    kept = trimSpace value ∧ kept.head? = some slash ∧
      ∃ parsed, Urls.parse parseHost kept = some parsed ∧ parsed.scheme = [] ∧
        parsed.host = [] := by
  unfold sanitizeOAuthReturnTo at sanitized
  dsimp only at sanitized
  by_cases refused : trimSpace value = [] ∨ (trimSpace value).head? ≠ some (code '/') ∨
      ascii "//" <+: trimSpace value ∨ code '\\' ∈ trimSpace value
  · rw [if_pos refused] at sanitized
    exact absurd sanitized.symm filled
  · rw [if_neg refused] at sanitized
    simp only [not_or, not_not] at refused
    cases read : Urls.parse parseHost (trimSpace value) with
    | none =>
        simp only [read] at sanitized
        exact absurd sanitized.symm filled
    | some parsed =>
        simp only [read] at sanitized
        by_cases away : parsed.scheme ≠ [] ∨ parsed.host ≠ []
        · rw [if_pos away] at sanitized
          exact absurd sanitized.symm filled
        · rw [if_neg away] at sanitized
          simp only [ne_eq, not_or, not_not] at away
          subst sanitized
          exact ⟨rfl, refused.2.1, parsed, read, away⟩

theorem path_rooted {url : Text} (rooted : url.head? = some slash) :
    Paths.isRooted (url.takeWhile (· != code '?')) = true := by
  cases url with
  | nil => simp at rooted
  | cons c rest =>
      simp only [List.head?_cons, Option.some.injEq] at rooted
      subst rooted
      rfl

theorem cleanTarget_subset {url : Text} (rooted : url.head? = some slash) :
    ∀ c ∈ cleanTarget url, c = slash ∨ c ∈ url := by
  intro c member
  rcases List.mem_append.mp member with front | query
  · have cleaned : c ∈ clean (url.takeWhile (· != code '?')) ∨ c = slash := by
      split at front
      · rcases List.mem_append.mp front with here | mark
        · exact Or.inl here
        · exact Or.inr (List.mem_singleton.mp mark)
      · exact Or.inl front
    rcases cleaned with here | mark
    · rcases Paths.clean_member (path_rooted rooted) c here with mark | inside
      · exact Or.inl mark
      · exact Or.inr (List.takeWhile_subset _ inside)
    · exact Or.inl mark
  · exact Or.inr (List.dropWhile_subset _ query)

/-- A cleaned target starts with one slash. -/
theorem cleanTarget_second {url : Text} (rooted : url.head? = some slash) :
    ∃ rest, cleanTarget url = slash :: rest ∧ rest.head? ≠ some slash := by
  obtain ⟨elements, below, cleaned⟩ := Paths.clean_rooted (path_rooted rooted)
  have query : (url.dropWhile (· != code '?')).head? ≠ some slash := by
    intro head
    have stopped := List.head?_dropWhile_not (· != code '?') url
    rw [head] at stopped
    exact absurd stopped (by decide)
  have second : ∀ c more, rootedAt elements = slash :: c :: more → c ≠ slash :=
    fun c more shape => Paths.rootedAt_second below shape
  unfold cleanTarget
  simp only [cleaned]
  cases tail : [slash].intercalate elements with
  | nil =>
      have bare : rootedAt elements = [slash] := by rw [rootedAt, tail]
      simp only [bare, List.getLast?_singleton, ne_eq, not_true_eq_false, and_false, if_false]
      exact ⟨_, rfl, query⟩
  | cons c more =>
      have shape : rootedAt elements = slash :: c :: more := by rw [rootedAt, tail]
      have other := second c more shape
      simp only [shape]
      split
      · exact ⟨_, rfl, by simpa using other⟩
      · exact ⟨_, rfl, by simpa using other⟩

theorem leavesOrigin_slash {rest : Text} (second : rest.head? ≠ some slash)
    (printable : ∀ c ∈ rest, 32 ≤ c.toNat ∧ c ≠ code '\\') :
    leavesOrigin (slash :: rest) = false := by
  have front : (slash :: rest).dropWhile isC0OrSpace = slash :: rest := rfl
  have back : ∃ kept, (slash :: rest).rdropWhile isC0OrSpace = slash :: kept ∧ kept <+: rest := by
    obtain ⟨cut, split⟩ := List.rdropWhile_prefix isC0OrSpace (slash :: rest)
    cases kept : (slash :: rest).rdropWhile isC0OrSpace with
    | nil =>
        have all := List.rdropWhile_eq_nil_iff.mp kept slash List.mem_cons_self
        exact absurd all (by decide)
    | cons c more =>
        rw [kept] at split
        simp only [List.cons_append, List.cons.injEq] at split
        exact ⟨more, by rw [split.1], cut, split.2⟩
  obtain ⟨kept, stripped, start⟩ := back
  have whole : (slash :: kept).filter (fun c => !isTabOrNewline c) = slash :: kept := by
    rw [List.filter_eq_self]
    intro c member
    rcases List.mem_cons.mp member with rfl | inside
    · rfl
    · have high := (printable c (start.subset inside)).1
      by_contra tabbed
      simp only [isTabOrNewline, Bool.not_eq_true', Bool.not_eq_false, Bool.or_eq_true, beq_iff_eq] at tabbed
      rcases tabbed with (rfl | rfl) | rfl <;> simp at high
  have read : browserText (slash :: rest) = slash :: kept := by
    rw [browserText, front, stripped, whole]
  have unschemed : hasScheme (slash :: kept) = false := rfl
  unfold leavesOrigin
  rw [read]
  cases kept with
  | nil => exact unschemed
  | cons c more =>
      have here : rest.head? = some c := by
        obtain ⟨after, split⟩ := start
        rw [← split]
        rfl
      have unslashed : c ≠ slash := fun same => second (same ▸ here)
      have member : c ∈ rest := List.mem_of_mem_head? here
      have straight := (printable c member).2
      have plain : isSlash c = false := by
        have first : c ≠ code '/' := unslashed
        simp [isSlash, first, straight]
      simp [plain, unschemed]

/-- A cleaned target of plain bytes is sent as it is, and followed on the site. -/
theorem redirect_rooted {oldPath url : Text} (rooted : url.head? = some slash)
    (plain : ∀ c ∈ url, validCookieValueByte c = true) (local_ : ∃ parsed,
      Urls.parse parseHost url = some parsed ∧ parsed.scheme = [] ∧ parsed.host = []) :
    redirect parseHost oldPath url = cleanTarget url ∧
      leavesOrigin (redirect parseHost oldPath url) = false := by
  obtain ⟨parsed, read, unschemed, hostless⟩ := local_
  have valid : ∀ c ∈ cleanTarget url, 32 ≤ c.toNat ∧ c.toNat < 127 ∧ c ≠ code '\\' := by
    intro c member
    rcases cleanTarget_subset rooted c member with rfl | inside
    · decide
    · exact validCookieValueByte_range (plain c inside)
  have low : ∀ c ∈ cleanTarget url, c < 128 := by
    intro c member
    have below := (valid c member).2.1
    rw [UInt8.lt_iff_toNat_lt]
    exact below.trans (by decide)
  have sent : redirect parseHost oldPath url = cleanTarget url := by
    simp only [redirect, read, unschemed, hostless, and_self, if_true, rooted]
    exact hexEscapeNonASCII_ascii low
  obtain ⟨rest, shape, second⟩ := cleanTarget_second rooted
  refine ⟨sent, ?_⟩
  rw [sent, shape]
  apply leavesOrigin_slash second
  intro c member
  have range := valid c (by rw [shape]; exact List.mem_cons_of_mem slash member)
  exact ⟨range.1, range.2.2⟩

theorem root_local : ∃ parsed, Urls.parse parseHost (ascii "/") = some parsed ∧
    parsed.scheme = [] ∧ parsed.host = [] := ⟨{ path := ascii "/" }, rfl, rfl, rfl⟩

/-- Whatever the cookie of the login holds, the callback's redirect stays on the site. -/
theorem callback_stays (cookie : Option Text) :
    leavesOrigin (callbackLocation parseHost cookie) = false := by
  have home : leavesOrigin (redirect parseHost (ascii "/auth/github/callback") (ascii "/")) =
      false := (redirect_rooted parseHost rfl (List.all_eq_true.mp (by decide))
      (root_local parseHost)).2
  unfold callbackLocation callbackTarget
  cases held : cookie.bind parseCookieValue with
  | none => exact home
  | some value =>
      dsimp only
      by_cases refused : sanitizeOAuthReturnTo parseHost value = []
      · rw [if_pos refused]
        exact home
      · rw [if_neg refused]
        obtain ⟨trimmed, rooted, parsed⟩ := sanitizeOAuthReturnTo_ok parseHost rfl refused
        have valid : ∀ c ∈ value, validCookieValueByte c = true := by
          obtain ⟨raw, -, read⟩ := Option.bind_eq_some_iff.mp held
          unfold parseCookieValue at read
          dsimp only at read
          split at read
          · rename_i all
            rw [Option.some.injEq] at read
            exact List.all_eq_true.mp (read ▸ all)
          · simp at read
        have plain : ∀ c ∈ sanitizeOAuthReturnTo parseHost value,
            validCookieValueByte c = true := by
          intro c member
          rw [trimmed] at member
          exact valid c (trimSpace_subset value member)
        exact (redirect_rooted parseHost rooted plain parsed).2

end Staying

section Links

def isUnreserved (c : UInt8) : Bool := isLetter c || isDigit c || oneOf "-_.!~*'()" c

def encodeURIComponent (text : Text) : Text :=
  text.flatMap fun c =>
    if isUnreserved c then [c] else [code '%', Urls.upperhex (c / 16), Urls.upperhex (c % 16)]

def signInURL (path search : Text) : Text :=
  let safePath := if path.head? = some slash ∧ ¬ ascii "//" <+: path then path else ascii "/jobs"
  let safeSearch := if search.head? = some (code '?') then search else []
  ascii "/auth/github/login?return_to=" ++ encodeURIComponent (safePath ++ safeSearch)

/-- The characters that a dot of a pattern passes over: two of one byte, and the separators
U+2028 and U+2029. -/
def lineEnds : List Text := [[10], [13], [226, 128, 168], [226, 128, 169]]

def hasLineEnd (text : Text) : Bool :=
  text.tails.any fun rest => lineEnds.any fun ending => ending.isPrefixOf rest

/-- The two groups of `^([^?]*)(.*)$`; none when the second would hold the end of a line. -/
def splitReturnTo (returnTo : Text) : Option (Text × Text) :=
  let search := returnTo.dropWhile (· != code '?')
  if hasLineEnd search then none else some (returnTo.takeWhile (· != code '?'), search)

def signInURLFromReturnTo (returnTo : Text) : Text :=
  let parsed := (splitReturnTo returnTo).getD ([], [])
  signInURL (if parsed.1 = [] then ascii "/jobs" else parsed.1) parsed.2

def queryUnescape (text : Text) : Option Text :=
  Urls.unescape (text.map fun c => if c = code '+' then code ' ' else c)

/-- `url.Values.Get` upon `url.ParseQuery`; what does not parse is left out. -/
def queryGet (key query : Text) : Text :=
  let pairs := (query.splitOn (code '&')).filterMap fun pair =>
    if pair = [] ∨ code ';' ∈ pair then none
    else
      (queryUnescape (cut (code '=') pair).1).bind fun name =>
        (queryUnescape (cut (code '=') pair).2).map fun value => (name, value)
  ((pairs.find? fun pair => pair.1 == key).map Prod.snd).getD []

theorem encodeURIComponent_cons (c : UInt8) (rest : Text) :
    encodeURIComponent (c :: rest) =
      (if isUnreserved c then [c] else [code '%', Urls.upperhex (c / 16), Urls.upperhex (c % 16)]) ++
        encodeURIComponent rest := rfl

/-- The bytes of an encoded component. -/
def isEncodedByte (c : UInt8) : Bool := isUnreserved c || c == code '%'

theorem upperhex_digit {digit : UInt8} (small : digit.toNat < 16) :
    Urls.ishex (Urls.upperhex digit) = true ∧ Urls.unhex (Urls.upperhex digit) = digit := by
  have all : (List.range 16).all (fun value =>
      Urls.ishex (Urls.upperhex (UInt8.ofNat value)) &&
        Urls.unhex (Urls.upperhex (UInt8.ofNat value)) == UInt8.ofNat value) = true := by decide
  have here := List.all_eq_true.mp all digit.toNat (List.mem_range.mpr small)
  simpa using here

/-- The two digits of a byte are read as this byte. -/
theorem upperhex_digits (c : UInt8) :
    (Urls.ishex (Urls.upperhex (c / 16)) = true ∧ Urls.ishex (Urls.upperhex (c % 16)) = true) ∧
      Urls.unhex (Urls.upperhex (c / 16)) * 16 + Urls.unhex (Urls.upperhex (c % 16)) = c := by
  have bound := c.toNat_lt
  have highSmall : (c / 16).toNat < 16 := by
    rw [UInt8.toNat_div]
    change c.toNat / 16 < 16
    omega
  have lowSmall : (c % 16).toNat < 16 := by
    rw [UInt8.toNat_mod]
    change c.toNat % 16 < 16
    omega
  obtain ⟨high, highValue⟩ := upperhex_digit highSmall
  obtain ⟨low, lowValue⟩ := upperhex_digit lowSmall
  refine ⟨⟨high, low⟩, ?_⟩
  rw [highValue, lowValue]
  apply UInt8.toNat_inj.mp
  rw [UInt8.toNat_add, UInt8.toNat_mul, UInt8.toNat_div, UInt8.toNat_mod]
  change (c.toNat / 16 * 16 % 256 + c.toNat % 16) % 256 = c.toNat
  omega

theorem ishex_encoded {c : UInt8} (hex : Urls.ishex c = true) : isEncodedByte c = true := by
  have letter : isLetter c = true ∨ isDigit c = true := by
    simp only [Urls.ishex, isLetter, isDigit, Bool.or_eq_true, Bool.and_eq_true, decide_eq_true_eq,
      UInt8.le_iff_toNat_le] at hex ⊢
    have bounds : (code 'F').toNat = 70 ∧ (code 'Z').toNat = 90 ∧ (code 'f').toNat = 102 ∧
      (code 'z').toNat = 122 := by decide
    omega
  rcases letter with here | here <;> simp [isEncodedByte, isUnreserved, here]

theorem encodeURIComponent_bytes (text : Text) :
    ∀ c ∈ encodeURIComponent text, isEncodedByte c = true := by
  induction text with
  | nil => simp [encodeURIComponent]
  | cons c rest ih =>
      intro d member
      rw [encodeURIComponent_cons, List.mem_append] at member
      rcases member with here | later
      · by_cases kept : isUnreserved c = true
        · rw [if_pos kept, List.mem_singleton] at here
          simp [here, isEncodedByte, kept]
        · obtain ⟨⟨high, low⟩, -⟩ := upperhex_digits c
          rw [if_neg kept] at here
          simp only [List.mem_cons, List.not_mem_nil, or_false] at here
          rcases here with rfl | rfl | rfl
          · decide
          · exact ishex_encoded high
          · exact ishex_encoded low
      · exact ih d later

theorem unescape_encodeURIComponent (text : Text) :
    Urls.unescape (encodeURIComponent text) = some text := by
  induction text with
  | nil => rfl
  | cons c rest ih =>
      rw [encodeURIComponent_cons]
      by_cases kept : isUnreserved c = true
      · have other : c ≠ code '%' := by
          rintro rfl
          exact absurd kept (by decide)
        rw [if_pos kept, List.singleton_append, Urls.unescape_cons other, ih]
        rfl
      · obtain ⟨⟨high, low⟩, whole⟩ := upperhex_digits c
        rw [if_neg kept]
        simp only [List.cons_append, List.nil_append, Urls.unescape, if_true, high, low,
          Bool.and_self, ih, Option.map_some, whole]

theorem encodeURIComponent_self {text : Text} (plain : ∀ c ∈ text, isUnreserved c = true) :
    encodeURIComponent text = text := by
  induction text with
  | nil => rfl
  | cons c rest ih =>
      have later := ih fun d member => plain d (List.mem_cons_of_mem c member)
      rw [encodeURIComponent_cons, if_pos (plain c List.mem_cons_self), later]
      rfl

theorem queryUnescape_encoded (text : Text) :
    queryUnescape (encodeURIComponent text) = some text := by
  have same : ∀ c ∈ encodeURIComponent text, (if c = code '+' then code ' ' else c) = id c := by
    intro c member
    apply if_neg
    rintro rfl
    exact absurd (encodeURIComponent_bytes text _ member) (by decide)
  rw [queryUnescape, List.map_congr_left same, List.map_id, unescape_encodeURIComponent]

/-- An encoded component is read as it was, and ends no parameter. -/
theorem queryGet_encoded (key text : Text) (bare : ∀ c ∈ key, isUnreserved c = true) :
    queryGet key (key ++ code '=' :: encodeURIComponent text) = text := by
  have absent : ∀ mark : UInt8, isEncodedByte mark = false → mark ≠ code '=' →
      mark ∉ key ++ code '=' :: encodeURIComponent text := by
    intro mark unlisted other member
    rcases List.mem_append.mp member with front | back
    · have kept := bare mark front
      simp [isEncodedByte, kept] at unlisted
    · rcases List.mem_cons.mp back with here | later
      · exact other here
      · exact absurd (encodeURIComponent_bytes text mark later) (by simp [unlisted])
  have whole : (key ++ code '=' :: encodeURIComponent text).splitOn (code '&') =
      [key ++ code '=' :: encodeURIComponent text] :=
    List.splitOn_eq_singleton (absent _ (by decide) (by decide))
  have unended : code ';' ∉ key ++ code '=' :: encodeURIComponent text :=
    absent _ (by decide) (by decide)
  have unequal : code '=' ∉ key := fun member => absurd (bare _ member) (by decide)
  have name : queryUnescape key = some key := by
    have read := queryUnescape_encoded key
    rwa [encodeURIComponent_self bare] at read
  have parts := Urls.cut_first unequal (encodeURIComponent text)
  simp [queryGet, whole, unended, parts, name, queryUnescape_encoded]

end Links

section Pages

/-- The bytes of a page's path and search that pass a cookie: the printable ones but these. -/
def isPageByte (c : UInt8) : Bool :=
  32 < c && c < 127 && c != code '"' && c != code ';' && c != code '\\' && c != code '#'

/-- A page of the site as the browser's location names it, without detours in its path. -/
structure Page where
  elements : List Text
  below : ∀ name ∈ elements, Paths.Below name
  path : Text
  shape : path = rootedAt elements ∨ elements ≠ [] ∧ path = rootedAt elements ++ [slash]
  search : Text
  searched : search = [] ∨ search.head? = some (code '?')
  bytes : ∀ c ∈ path ++ search, isPageByte c = true
  unasked : code '?' ∉ path
  escapes : (Urls.unescape path).isSome

def Page.text (page : Page) : Text := page.path ++ page.search

variable (parseHost : Text → Text → Option Text) (page : Page)

theorem isPageByte_range {c : UInt8} (listed : isPageByte c = true) :
    32 < c.toNat ∧ c.toNat < 127 ∧ c ≠ code '"' ∧ c ≠ code ';' ∧ c ≠ code '\\' ∧ c ≠ code '#' := by
  simp only [isPageByte, Bool.and_eq_true, decide_eq_true_eq, bne_iff_ne, ne_eq,
    UInt8.lt_iff_toNat_lt] at listed
  obtain ⟨⟨⟨⟨⟨low, high⟩, quote⟩, semicolon⟩, backslash⟩, mark⟩ := listed
  exact ⟨low, high, quote, semicolon, backslash, mark⟩

theorem isPageByte_valid {c : UInt8} (listed : isPageByte c = true) :
    validCookieValueByte c = true := by
  obtain ⟨low, high, quote, semicolon, backslash, -⟩ := isPageByte_range listed
  simp only [validCookieValueByte, Bool.and_eq_true, decide_eq_true_eq, bne_iff_ne, ne_eq,
    UInt8.le_iff_toNat_le, UInt8.lt_iff_toNat_lt]
  exact ⟨⟨⟨⟨low.le, high⟩, quote⟩, semicolon⟩, backslash⟩

theorem Page.path_head : ∃ rest, page.path = slash :: rest ∧ rest.head? ≠ some slash := by
  have second : ∀ c more, rootedAt page.elements = slash :: c :: more → c ≠ slash :=
    fun c more shape => Paths.rootedAt_second page.below shape
  cases tail : [slash].intercalate page.elements with
  | nil =>
      have bare : rootedAt page.elements = [slash] := by rw [rootedAt, tail]
      rcases page.shape with here | ⟨filled, -⟩
      · exact ⟨[], by rw [here, bare], by simp⟩
      · exact absurd tail (Paths.intercalate_filled page.below filled)
  | cons c more =>
      have whole : rootedAt page.elements = slash :: c :: more := by rw [rootedAt, tail]
      have other := second c more whole
      rcases page.shape with here | ⟨-, here⟩
      · exact ⟨c :: more, by rw [here, whole], by simpa using other⟩
      · exact ⟨c :: (more ++ [slash]), by rw [here, whole]; rfl, by simpa using other⟩

theorem Page.text_head : ∃ rest, page.text = slash :: rest ∧ rest.head? ≠ some slash := by
  obtain ⟨rest, shape, second⟩ := page.path_head
  refine ⟨rest ++ page.search, by rw [Page.text, shape]; rfl, ?_⟩
  cases rest with
  | nil =>
      rcases page.searched with none | asked
      · simp [none]
      · rw [List.nil_append, asked]
        decide
  | cons c more => simpa using second

theorem Page.filled : page.text ≠ [] := by
  obtain ⟨rest, shape, -⟩ := page.text_head
  rw [shape]
  exact List.cons_ne_nil _ _

theorem undoubled {rest : Text} (second : rest.head? ≠ some slash) :
    ¬ ascii "//" <+: slash :: rest := by
  rintro ⟨after, split⟩
  have same := (List.cons.inj split).2
  rw [← same] at second
  exact second rfl

theorem Page.cuts : page.text.takeWhile (· != code '?') = page.path ∧
    page.text.dropWhile (· != code '?') = page.search := by
  have passes : ∀ c ∈ page.path, (c != code '?') = true := by
    intro c member
    simpa using ne_of_mem_of_not_mem member page.unasked
  rw [Page.text, List.takeWhile_append_of_pos passes, List.dropWhile_append_of_pos passes]
  rcases page.searched with none | asked
  · simp [none]
  · obtain ⟨rest, split⟩ : ∃ rest, page.search = code '?' :: rest := by
      cases given : page.search with
      | nil => simp [given] at asked
      | cons c rest =>
          rw [given, List.head?_cons, Option.some.injEq] at asked
          exact ⟨rest, by rw [asked]⟩
    rw [split]
    exact ⟨by simp, by simp⟩

theorem find_space {list : List Text} {c : UInt8} {rest : Text}
    (ends : ∀ space ∈ list, ∃ first more, space = first :: more ∧ first ≠ c) :
    list.find? (·.isPrefixOf (c :: rest)) = none := by
  rw [List.find?_eq_none]
  intro space member starts
  obtain ⟨first, more, rfl, other⟩ := ends space member
  have front : first = c := (List.cons_prefix_cons.mp (List.isPrefixOf_iff_prefix.mp starts)).1
  exact other front

/-- Neither end of a blank is a byte of a page. -/
theorem space_ends {c : UInt8} (listed : isPageByte c = true) :
    ∀ list ∈ [spaces, spaces.map List.reverse],
      ∀ space ∈ list, ∃ first more, space = first :: more ∧ first ≠ c := by
  have all : [spaces, spaces.map List.reverse].all (fun list => list.all fun space =>
      match space with
      | [] => false
      | first :: _ => !isPageByte first) = true := by decide
  intro list known space member
  have here := List.all_eq_true.mp (List.all_eq_true.mp all list known) space member
  cases space with
  | nil => simp at here
  | cons first more =>
      refine ⟨first, more, rfl, ?_⟩
      rintro rfl
      simp [listed] at here

theorem dropFirst_stays {list : List Text} {c : UInt8} {rest : Text} (fuel : Nat)
    (ends : ∀ space ∈ list, ∃ first more, space = first :: more ∧ first ≠ c) :
    dropFirst list fuel (c :: rest) = c :: rest := by
  cases fuel with
  | zero => rfl
  | succ fuel => simp [dropFirst, find_space ends]

theorem trimSpace_bytes {text : Text} (bytes : ∀ c ∈ text, isPageByte c = true) :
    trimSpace text = text := by
  have kept : ∀ list ∈ [spaces, spaces.map List.reverse], ∀ part : Text, ∀ fuel, part ≠ [] →
      (∀ c ∈ part, isPageByte c = true) → dropFirst list fuel part = part := by
    intro list known part fuel filled all
    obtain ⟨c, rest, rfl⟩ := List.exists_cons_of_ne_nil filled
    exact dropFirst_stays fuel (space_ends (all c List.mem_cons_self) list known)
  by_cases empty : text = []
  · subst empty
    rfl
  · have left := kept spaces (by simp) text text.length empty bytes
    have right := kept (spaces.map List.reverse) (by simp) text.reverse text.length (by simpa)
      fun c member => bytes c (List.mem_reverse.mp member)
    simp only [trimSpace, left, right, List.reverse_reverse]

/-- Nothing of a search stands before its question mark. -/
theorem takeQuery_search {search : Text}
    (searched : search = [] ∨ search.head? = some (code '?')) :
    (Urls.takeQuery search).1 = [] := by
  rcases searched with rfl | asked
  · rfl
  · obtain ⟨rest, rfl⟩ : ∃ rest, search = code '?' :: rest := by
      cases search with
      | nil => simp at asked
      | cons c rest =>
          rw [List.head?_cons, Option.some.injEq] at asked
          exact ⟨rest, by rw [asked]⟩
    unfold Urls.takeQuery
    by_cases single : (code '?' :: rest).getLast? = some (code '?') ∧
        (code '?' :: rest).count (code '?') = 1
    · rw [if_pos single]
      cases rest with
      | nil => rfl
      | cons c more =>
          have last : code '?' ∈ c :: more := by
            have tail := single.1
            rw [List.getLast?_cons_cons] at tail
            exact List.mem_of_getLast? tail
          have twice := List.one_le_count_iff.mpr last
          have once := single.2
          rw [List.count_cons_self] at once
          omega
    · rw [if_neg single, Urls.cut_cons]

theorem Page.parse : ∃ parsed, Urls.parse parseHost page.text = some parsed ∧
    parsed.scheme = [] ∧ parsed.host = [] := by
  obtain ⟨rest, shape, -⟩ := page.text_head
  obtain ⟨more, head, second⟩ := page.path_head
  obtain ⟨path, escapes⟩ := Option.isSome_iff_exists.mp page.escapes
  have unmarked : code '#' ∉ page.text := fun member =>
    (isPageByte_range (page.bytes _ member)).2.2.2.2.2 rfl
  have printable : page.text.any Urls.isControl = false := by
    rw [List.any_eq_false]
    intro c member control
    obtain ⟨low, high, -⟩ := isPageByte_range (page.bytes c member)
    have plain := Urls.isControl_false low.le high
    simp [plain] at control
  have starred : page.text ≠ ascii "*" := by
    rw [shape]
    intro same
    exact absurd (List.cons.inj same).1 (by decide)
  have schemeless : Urls.getScheme page.text = some ([], page.text) := by
    rw [Urls.getScheme, shape]
    rfl
  have query : (Urls.takeQuery page.text).1 = page.path := by
    rw [Page.text, Urls.takeQuery_append page.unasked, takeQuery_search page.searched,
      List.append_nil]
  have unhosted : ¬ ascii "//" <+: page.path := by
    rw [head]
    exact undoubled second
  have whole : cut (code '#') page.text = (page.text, []) := by
    have cuts := Urls.cut_append unmarked []
    rw [List.append_nil] at cuts
    rw [cuts]
    simp [cut]
  rw [Urls.parse, whole]
  simp only [Urls.parseRaw, printable, Bool.false_eq_true, if_false, starred, schemeless,
    Option.bind_some, query, if_true]
  have rooted : page.path.head? = some (code '/') := by
    rw [head]
    rfl
  simp only [Urls.URL.parseRest, rooted, unhosted, Urls.URL.setPath, escapes, ne_eq,
    not_true_eq_false, false_and, and_false, if_false, List.map_nil, Option.map_some]
  exact ⟨_, rfl, rfl, rfl⟩

/-- The sanitizer takes a page as it is. -/
theorem Page.sanitized : sanitizeOAuthReturnTo parseHost page.text = page.text := by
  obtain ⟨parsed, read, unschemed, hostless⟩ := page.parse parseHost
  obtain ⟨rest, shape, second⟩ := page.text_head
  have straight : code '\\' ∉ page.text := fun member =>
    (isPageByte_range (page.bytes _ member)).2.2.2.2.1 rfl
  have unhosted : ¬ ascii "//" <+: page.text := by
    rw [shape]
    exact undoubled second
  have rooted : page.text.head? = some (code '/') := by
    rw [shape]
    rfl
  have filled := page.filled
  have trimmed : trimSpace page.text = page.text := trimSpace_bytes page.bytes
  unfold sanitizeOAuthReturnTo
  simp only [trimmed]
  rw [if_neg (by simp [filled, rooted, unhosted, straight])]
  simp [read, unschemed, hostless]

/-- A page goes through the cookie, in quotes when it has a comma. -/
theorem Page.cookie : parseCookieValue (sanitizeCookieValue page.text) = some page.text := by
  have valid : ∀ c ∈ page.text, validCookieValueByte c = true :=
    fun c member => isPageByte_valid (page.bytes c member)
  have all : page.text.all validCookieValueByte = true := List.all_eq_true.mpr valid
  have whole : page.text.filter validCookieValueByte = page.text := List.filter_eq_self.mpr valid
  obtain ⟨rest, shape, -⟩ := page.text_head
  unfold sanitizeCookieValue
  simp only [whole, page.filled, if_false]
  by_cases quoted : code ' ' ∈ page.text ∨ code ',' ∈ page.text
  · have stripped : stripQuotes (code '"' :: (page.text ++ [code '"'])) = page.text := by
      have long : 1 < (code '"' :: (page.text ++ [code '"'])).length := by simp
      have last : (code '"' :: (page.text ++ [code '"'])).getLast? = some (code '"') := by
        rw [← List.cons_append, List.getLast?_concat]
      rw [stripQuotes, if_pos ⟨long, rfl, last⟩, List.drop_one, List.tail_cons,
        List.dropLast_concat]
    rw [if_pos quoted, parseCookieValue, stripped, if_pos all]
  · have stripped : stripQuotes page.text = page.text := by
      apply if_neg
      rw [shape]
      rintro ⟨-, head, -⟩
      rw [List.head?_cons, Option.some.injEq] at head
      exact absurd head (by decide)
    rw [if_neg quoted, parseCookieValue, stripped, if_pos all]

theorem Page.cleaned : cleanTarget page.text = page.text := by
  have whole : clean page.path = rootedAt page.elements := by
    rcases page.shape with here | ⟨-, here⟩
    · rw [here, Paths.clean_rootedAt page.below]
    · rw [here, Paths.clean_trailing, Paths.clean_rootedAt page.below]
  unfold cleanTarget
  rw [page.cuts.1, page.cuts.2]
  simp only [whole]
  by_cases bare : page.elements = []
  · rcases page.shape with here | ⟨filled, -⟩
    · have same : rootedAt page.elements = [slash] := by rw [bare]; rfl
      rw [if_neg (by simp [same]), Page.text, here]
    · exact absurd bare filled
  · have last := Paths.rootedAt_last page.below bare
    rcases page.shape with here | ⟨-, here⟩
    · rw [if_neg (by rw [here]; exact fun both => last both.1), Page.text, here]
    · rw [if_pos ⟨by rw [here, List.getLast?_concat], last⟩, Page.text, here]

/-- Each end of a line begins with a byte that no page has. -/
theorem lineEndless {text : Text} (bytes : ∀ c ∈ text, isPageByte c = true) :
    hasLineEnd text = false := by
  have foreign : lineEnds.all (fun ending => ending.head?.any fun c => !isPageByte c) = true := by
    decide
  rw [hasLineEnd, List.any_eq_false]
  intro rest tail
  rw [Bool.not_eq_true, List.any_eq_false]
  intro ending among starts
  have front := List.all_eq_true.mp foreign ending among
  cases ending with
  | nil => cases front
  | cons c ending =>
      have here : c ∈ rest := (List.isPrefixOf_iff_prefix.mp starts).subset List.mem_cons_self
      have listed := bytes c (((List.mem_tails _ _).mp tail).subset here)
      simp [listed] at front

/-- Signing in from a page of the site leads back to this page. -/
theorem returns_to_page : callbackLocation parseHost (loginCookie parseHost
    (queryGet (ascii "return_to") (cut (code '?') (signInURLFromReturnTo page.text)).2)) =
      page.text := by
  obtain ⟨rest, shape, second⟩ := page.path_head
  have filled := page.filled
  have endless : hasLineEnd page.search = false :=
    lineEndless fun c member => page.bytes c (List.mem_append_right _ member)
  have unhosted : ¬ ascii "//" <+: page.path := by
    rw [shape]
    exact undoubled second
  have link : signInURLFromReturnTo page.text =
      ascii "/auth/github/login?return_to=" ++ encodeURIComponent page.text := by
    have split : splitReturnTo page.text = some (page.path, page.search) := by
      simp only [splitReturnTo, page.cuts.1, page.cuts.2, endless, Bool.false_eq_true, if_false]
    have named : page.path ≠ [] := by
      rw [shape]
      exact List.cons_ne_nil _ _
    have rooted : page.path.head? = some slash := by rw [shape]; rfl
    have search : (if page.search.head? = some (code '?') then page.search else []) =
        page.search := by
      rcases page.searched with none | asked
      · simp [none]
      · rw [if_pos asked]
    simp only [signInURLFromReturnTo, split, Option.getD_some, named, if_false, signInURL, rooted,
      unhosted, not_false_eq_true, and_self, if_true, search]
    rfl
  have query : (cut (code '?') (signInURLFromReturnTo page.text)).2 =
      ascii "return_to" ++ code '=' :: encodeURIComponent page.text := by
    have front : ascii "/auth/github/login?return_to=" =
        ascii "/auth/github/login" ++ code '?' :: (ascii "return_to" ++ [code '=']) := by decide
    rw [link, front, List.append_assoc, List.cons_append, Urls.cut_first (by decide)]
    simp
  have sent : loginCookie parseHost page.text = some (sanitizeCookieValue page.text) := by
    simp only [loginCookie, page.sanitized, filled, if_false]
  have target : callbackTarget parseHost (some (sanitizeCookieValue page.text)) = page.text := by
    simp only [callbackTarget, Option.bind_some, page.cookie, page.sanitized, filled, if_false]
  obtain ⟨behind, whole, -⟩ := page.text_head
  have rooted : page.text.head? = some slash := by
    rw [whole]
    rfl
  have valid : ∀ c ∈ page.text, validCookieValueByte c = true :=
    fun c member => isPageByte_valid (page.bytes c member)
  have location : redirect parseHost (ascii "/auth/github/callback") page.text = _ :=
    (redirect_rooted parseHost rooted valid (page.parse parseHost)).1
  have bare : ∀ c ∈ ascii "return_to", isUnreserved c = true := List.all_eq_true.mp (by decide)
  rw [query, queryGet_encoded _ _ bare, sent, callbackLocation, target, location, page.cleaned]

theorem logPage_below : ∀ name ∈ ["github", "runs", "octo", "hello", "7", "jobs"].map ascii,
    Paths.Below name := by
  simp only [Paths.Below]
  decide

/-- The log of a job. -/
def logPage : Page where
  elements := ["github", "runs", "octo", "hello", "7", "jobs"].map ascii
  below := logPage_below
  path := ascii "/github/runs/octo/hello/7/jobs"
  shape := .inl (by decide)
  search := ascii "?tab=log"
  searched := .inr (by decide)
  bytes := List.all_eq_true.mp (by decide)
  unasked := by decide
  escapes := by decide

theorem returns_to_page_log : callbackLocation (fun _ host => some host)
    (loginCookie (fun _ host => some host) (queryGet (ascii "return_to")
      (cut (code '?') (signInURLFromReturnTo logPage.text)).2)) =
        ascii "/github/runs/octo/hello/7/jobs?tab=log" :=
  returns_to_page _ logPage

end Pages

end Runnerd.Redirects
