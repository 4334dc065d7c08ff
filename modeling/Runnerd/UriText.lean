import Runnerd.LossyText
import Runnerd.Redirects
import Runnerd.SplitText

/-!
The texts of a browser: `encodeURIComponent`, `decodeURIComponent` and
`URLSearchParams`, over the characters of a string. What they write is ASCII, and
what they have written they read back.
-/

namespace Runnerd.UriText

open LossyText (encode decode)
open Redirects (isUnreserved isEncodedByte upperhex_digits ishex_encoded)
open Urls (Text code cut isLetter isDigit oneOf unhex upperhex ishex)

section Ascii

/-- ASCII bytes as the characters of a text. -/
def runes (bytes : Text) : List Char := bytes.map fun byte => Char.ofNat byte.toNat

theorem ascii_rune {byte : UInt8} (low : byte < 128) :
    String.utf8EncodeChar (Char.ofNat byte.toNat) = [byte] := by
  have all : (List.range 128).all (fun value =>
      String.utf8EncodeChar (Char.ofNat value) == [UInt8.ofNat value]) = true := by decide
  have bound : byte.toNat < 128 := UInt8.lt_iff_toNat_lt.mp low
  have here := List.all_eq_true.mp all byte.toNat (List.mem_range.mpr bound)
  simpa using here

theorem code_rune {byte : UInt8} (low : byte < 128) : code (Char.ofNat byte.toNat) = byte := by
  have all : (List.range 128).all (fun value =>
      code (Char.ofNat value) == UInt8.ofNat value) = true := by decide
  have bound : byte.toNat < 128 := UInt8.lt_iff_toNat_lt.mp low
  have here := List.all_eq_true.mp all byte.toNat (List.mem_range.mpr bound)
  simpa using here

theorem encode_runes {bytes : Text} (low : ∀ byte ∈ bytes, byte < 128) :
    encode (runes bytes) = bytes := by
  induction bytes with
  | nil => rfl
  | cons byte rest ih =>
    have later := ih fun other member => low other (List.mem_cons_of_mem byte member)
    rw [runes, List.map_cons, LossyText.encode_cons, ascii_rune (low byte List.mem_cons_self)]
    simpa [runes] using later

/-- A character of the text is a byte of it. -/
theorem mem_runes {bytes : Text} {c : Char} (member : c ∈ runes bytes) :
    ∃ byte ∈ bytes, c = Char.ofNat byte.toNat := by
  obtain ⟨byte, listed, rfl⟩ := List.mem_map.mp member
  exact ⟨byte, listed, rfl⟩

@[simp] theorem runes_append (front back : Text) : runes (front ++ back) = runes front ++ runes back :=
  List.map_append

end Ascii

section Components

def encodeURIComponent (text : List Char) : List Char :=
  runes (Redirects.encodeURIComponent (encode text))

/-- None stands for the `URIError`. A character that is not escaped stands for its
own bytes, so the escapes next to it must spell whole characters. -/
def decodeURIComponent (text : List Char) : Option (List Char) :=
  match Urls.unescape (encode text) with
  | none => none
  | some bytes => if encode (decode bytes) = bytes then some (decode bytes) else none

theorem encodedByte_low {byte : UInt8} (listed : isEncodedByte byte = true) : byte < 128 := by
  simp only [isEncodedByte, isUnreserved, isLetter, isDigit, oneOf, Bool.or_eq_true,
    Bool.and_eq_true, decide_eq_true_eq, beq_iff_eq, UInt8.le_iff_toNat_le,
    List.contains_iff_mem] at listed
  have bounds : (code 'Z').toNat = 90 ∧ (code 'z').toNat = 122 ∧ (code '9').toNat = 57 := by decide
  have marks : (Urls.ascii "-_.!~*'()").all (· < 128) = true := by decide
  rw [UInt8.lt_iff_toNat_lt]
  change byte.toNat < 128
  rcases listed with ((letter | digit) | mark) | rfl
  · omega
  · omega
  · have low := List.all_eq_true.mp marks byte mark
    simpa [UInt8.lt_iff_toNat_lt] using low
  · decide

theorem encodedBytes_low (bytes : Text) :
    ∀ byte ∈ Redirects.encodeURIComponent bytes, byte < 128 :=
  fun byte member => encodedByte_low (Redirects.encodeURIComponent_bytes bytes byte member)

theorem encode_encodeURIComponent (text : List Char) :
    encode (encodeURIComponent text) = Redirects.encodeURIComponent (encode text) :=
  encode_runes (encodedBytes_low (encode text))

theorem decode_encodeURIComponent (text : List Char) :
    decodeURIComponent (encodeURIComponent text) = some text := by
  rw [decodeURIComponent, encode_encodeURIComponent, Redirects.unescape_encodeURIComponent]
  simp [LossyText.decode_encode]

end Components

section Forms

def isFormByte (c : UInt8) : Bool := isLetter c || isDigit c || oneOf "*-._" c

/-- The application/x-www-form-urlencoded serializer, byte by byte. -/
def formBytes (bytes : Text) : Text :=
  bytes.flatMap fun c =>
    if c = code ' ' then [code '+']
    else if isFormByte c then [c] else [code '%', upperhex (c / 16), upperhex (c % 16)]

/-- What is no escape is left as it is. -/
def percentDecode : Text → Text
  | c :: first :: second :: rest =>
      if c = code '%' ∧ ishex first = true ∧ ishex second = true then
        (unhex first * 16 + unhex second) :: percentDecode rest
      else c :: percentDecode (first :: second :: rest)
  | short => short

def plusToSpace (bytes : Text) : Text := bytes.map fun c => if c = code '+' then code ' ' else c

abbrev SearchParams := List (List Char × List Char)

def formText (bytes : Text) : List Char := decode (percentDecode (plusToSpace bytes))

/-- `new URLSearchParams(..)`. -/
def parseSearch (search : List Char) : SearchParams :=
  let input := if search.head? = some '?' then search.tail else search
  ((encode input).splitOn (code '&')).filterMap fun sequence =>
    if sequence = [] then none
    else some (formText (cut (code '=') sequence).1, formText (cut (code '=') sequence).2)

/-- `params.get(name) || ""`. -/
def getParam (name : List Char) (params : SearchParams) : List Char :=
  ((params.find? fun param => param.1 == name).map Prod.snd).getD []

def setParam (name value : List Char) : SearchParams → SearchParams
  | [] => [(name, value)]
  | param :: rest =>
      if param.1 = name then (name, value) :: rest.filter (·.1 != name)
      else param :: setParam name value rest

def paramBytes (param : List Char × List Char) : Text :=
  formBytes (encode param.1) ++ code '=' :: formBytes (encode param.2)

/-- `params.toString()`. -/
def searchText (params : SearchParams) : List Char :=
  runes ([code '&'].intercalate (params.map paramBytes))

end Forms

section Reading

/-- The bytes that the serializer writes. -/
def isFormedByte (c : UInt8) : Bool := isFormByte c || c == code '%' || c == code '+'

theorem formBytes_cons (c : UInt8) (rest : Text) :
    formBytes (c :: rest) =
      (if c = code ' ' then [code '+']
        else if isFormByte c then [c] else [code '%', upperhex (c / 16), upperhex (c % 16)]) ++
      formBytes rest := rfl

theorem hex_formed {c : UInt8} (hex : ishex c = true) : isFormedByte c = true := by
  have letter : isLetter c = true ∨ isDigit c = true := by
    simp only [ishex, isLetter, isDigit, Bool.or_eq_true, Bool.and_eq_true, decide_eq_true_eq,
      UInt8.le_iff_toNat_le] at hex ⊢
    have bounds : (code 'F').toNat = 70 ∧ (code 'Z').toNat = 90 ∧ (code 'f').toNat = 102 ∧
      (code 'z').toNat = 122 := by decide
    omega
  rcases letter with here | here <;> simp [isFormedByte, isFormByte, here]

theorem formBytes_formed (bytes : Text) : ∀ c ∈ formBytes bytes, isFormedByte c = true := by
  induction bytes with
  | nil => simp [formBytes]
  | cons c rest ih =>
    intro d member
    rw [formBytes_cons, List.mem_append] at member
    rcases member with here | later
    · by_cases blank : c = code ' '
      · rw [if_pos blank, List.mem_singleton] at here
        subst here
        decide
      · rw [if_neg blank] at here
        by_cases kept : isFormByte c = true
        · rw [if_pos kept, List.mem_singleton] at here
          simp [here, isFormedByte, kept]
        · obtain ⟨⟨high, low⟩, -⟩ := upperhex_digits c
          rw [if_neg kept] at here
          simp only [List.mem_cons, List.not_mem_nil, or_false] at here
          rcases here with rfl | rfl | rfl
          · decide
          · exact hex_formed high
          · exact hex_formed low
    · exact ih d later

theorem formed_absent {mark : UInt8} (unlisted : isFormedByte mark = false) (bytes : Text) :
    mark ∉ formBytes bytes := by
  intro member
  rw [formBytes_formed bytes mark member] at unlisted
  exact absurd unlisted (by simp)

theorem formed_low {byte : UInt8} (listed : isFormedByte byte = true) : byte < 128 := by
  by_cases plus : byte = code '+'
  · subst plus
    decide
  by_cases star : byte = code '*'
  · subst star
    decide
  · apply encodedByte_low
    simp only [isFormedByte, isFormByte, isEncodedByte, isUnreserved, oneOf, Bool.or_eq_true,
      beq_iff_eq, List.contains_iff_mem] at listed ⊢
    have same : ∀ mark ∈ Urls.ascii "*-._", mark ∈ Urls.ascii "-_.!~*'()" := by
      have all : (Urls.ascii "*-._").all ((Urls.ascii "-_.!~*'()").contains ·) = true := by decide
      intro mark member
      simpa using List.all_eq_true.mp all mark member
    rcases listed with ((plain | mark) | percent) | other
    · exact .inl (.inl plain)
    · exact .inl (.inr (same byte mark))
    · exact .inr percent
    · exact absurd other plus

/-- A plus sign of the text is escaped, so each plus sign that is read is a blank. -/
theorem plusToSpace_formBytes (c : UInt8) (rest : Text) :
    plusToSpace (formBytes (c :: rest)) =
      (if c = code ' ' then [c]
        else if isFormByte c then [c] else [code '%', upperhex (c / 16), upperhex (c % 16)]) ++
      plusToSpace (formBytes rest) := by
  have unplus {d : UInt8} (other : d ≠ code '+') :
      (if d = code '+' then code ' ' else d) = d := if_neg other
  have hexes {d : UInt8} (hex : ishex d = true) : d ≠ code '+' := by
    rintro rfl
    exact absurd hex (by decide)
  rw [formBytes_cons]
  by_cases blank : c = code ' '
  · simp [plusToSpace, blank]
  · by_cases kept : isFormByte c = true
    · have other : c ≠ code '+' := by
        rintro rfl
        exact absurd kept (by decide)
      simp [plusToSpace, blank, kept, unplus other]
    · obtain ⟨⟨high, low⟩, -⟩ := upperhex_digits c
      have percent : code '%' ≠ code '+' := by decide
      simp [plusToSpace, blank, kept, unplus percent, unplus (hexes high), unplus (hexes low)]

theorem percentDecode_cons {c : UInt8} (plain : c ≠ code '%') (rest : Text) :
    percentDecode (c :: rest) = c :: percentDecode rest := by
  match rest with
  | [] => simp [percentDecode]
  | [_] => simp [percentDecode]
  | _ :: _ :: _ => rw [percentDecode, if_neg (by simp [plain])]

theorem kept_plain {c : UInt8} (kept : c = code ' ' ∨ isFormByte c = true) : c ≠ code '%' := by
  rintro rfl
  exact absurd kept (by decide)

theorem percentDecode_formBytes (bytes : Text) :
    percentDecode (plusToSpace (formBytes bytes)) = bytes := by
  induction bytes with
  | nil => rfl
  | cons c rest ih =>
    rw [plusToSpace_formBytes]
    by_cases blank : c = code ' '
    · rw [if_pos blank, List.singleton_append, percentDecode_cons (kept_plain (.inl blank)), ih]
    · by_cases kept : isFormByte c = true
      · rw [if_neg blank, if_pos kept, List.singleton_append,
          percentDecode_cons (kept_plain (.inr kept)), ih]
      · obtain ⟨⟨high, low⟩, whole⟩ := upperhex_digits c
        rw [if_neg blank, if_neg kept]
        simp [percentDecode, high, low, whole, ih]

/-- Go's `url.QueryUnescape` reads the form encoding too. -/
theorem queryUnescape_formBytes (bytes : Text) :
    Redirects.queryUnescape (formBytes bytes) = some bytes := by
  change Urls.unescape (plusToSpace (formBytes bytes)) = some bytes
  induction bytes with
  | nil => rfl
  | cons c rest ih =>
    rw [plusToSpace_formBytes]
    by_cases blank : c = code ' '
    · rw [if_pos blank, List.singleton_append, Urls.unescape_cons (kept_plain (.inl blank)), ih]
      rfl
    · by_cases kept : isFormByte c = true
      · rw [if_neg blank, if_pos kept, List.singleton_append,
          Urls.unescape_cons (kept_plain (.inr kept)), ih]
        rfl
      · obtain ⟨⟨high, low⟩, whole⟩ := upperhex_digits c
        rw [if_neg blank, if_neg kept]
        simp [Urls.unescape, high, low, whole, ih]

theorem formText_formBytes (text : List Char) : formText (formBytes (encode text)) = text := by
  rw [formText, percentDecode_formBytes, LossyText.decode_encode]

theorem paramBytes_absent {mark : UInt8} (unlisted : isFormedByte mark = false)
    (other : mark ≠ code '=') (param : List Char × List Char) : mark ∉ paramBytes param := by
  rw [paramBytes, List.mem_append, List.mem_cons]
  rintro (front | here | back)
  · exact formed_absent unlisted _ front
  · exact other here
  · exact formed_absent unlisted _ back

theorem searchBytes_absent {mark : UInt8} (unlisted : isFormedByte mark = false)
    (other : mark ≠ code '=') (unjoined : mark ≠ code '&') (params : SearchParams) :
    mark ∉ [code '&'].intercalate (params.map paramBytes) := by
  induction params with
  | nil => simp
  | cons param rest ih =>
    cases rest with
    | nil => simpa using paramBytes_absent unlisted other param
    | cons next rest =>
      rw [List.map_cons, List.map_cons, List.intercalate_cons_cons, List.append_assoc,
        List.mem_append, List.mem_append, List.mem_singleton, ← List.map_cons]
      rintro (front | here | back)
      · exact paramBytes_absent unlisted other param front
      · exact unjoined here
      · exact ih back

theorem searchBytes_low (params : SearchParams) :
    ∀ byte ∈ [code '&'].intercalate (params.map paramBytes), byte < 128 := by
  intro byte member
  by_cases formed : isFormedByte byte = true
  · exact formed_low formed
  · by_cases equals : byte = code '='
    · subst equals
      decide
    · by_cases joins : byte = code '&'
      · subst joins
        decide
      · exact absurd member (searchBytes_absent (by simpa using formed) equals joins params)

theorem encode_searchText (params : SearchParams) :
    encode (searchText params) = [code '&'].intercalate (params.map paramBytes) :=
  encode_runes (searchBytes_low params)

/-- No mark but those of the form stands in a search text. -/
theorem searchText_absent {mark : Char} (unlisted : isFormedByte (code mark) = false)
    (other : code mark ≠ code '=') (unjoined : code mark ≠ code '&') (params : SearchParams) :
    mark ∉ searchText params := by
  intro member
  obtain ⟨byte, listed, rfl⟩ := mem_runes member
  have same : code (Char.ofNat byte.toNat) = byte :=
    code_rune (searchBytes_low params byte listed)
  rw [same] at unlisted other unjoined
  exact searchBytes_absent unlisted other unjoined params listed

theorem params_read (params : SearchParams) :
    ((encode (searchText params)).splitOn (code '&')).filterMap (fun sequence =>
      if sequence = [] then none
      else some (formText (cut (code '=') sequence).1, formText (cut (code '=') sequence).2)) =
        params := by
  rw [encode_searchText]
  by_cases none_ : params = []
  · subst none_
    simp
  · have pieces : ([code '&'].intercalate (params.map paramBytes)).splitOn (code '&') =
        params.map paramBytes := by
      apply List.splitOn_intercalate
      · intro piece member
        obtain ⟨param, -, rfl⟩ := List.mem_map.mp member
        exact paramBytes_absent (by decide) (by decide) param
      · simpa using none_
    rw [pieces, List.filterMap_map]
    have each : ∀ param ∈ params, (fun sequence => if sequence = [] then none
        else some (formText (cut (code '=') sequence).1, formText (cut (code '=') sequence).2))
          (paramBytes param) = some param := by
      intro param _
      have filled : paramBytes param ≠ [] := by simp [paramBytes]
      have parts := Urls.cut_first (formed_absent (by decide : isFormedByte (code '=') = false)
        (encode param.1)) (formBytes (encode param.2))
      simp only [filled, if_false]
      rw [paramBytes, parts, formText_formBytes, formText_formBytes]
    exact (List.filterMap_congr each).trans List.filterMap_some

/-- What the parameters write is read as the same parameters. -/
theorem parseSearch_searchText (params : SearchParams) : parseSearch (searchText params) = params := by
  have unasked : '?' ∉ searchText params := searchText_absent (by decide) (by decide) (by decide) params
  have bare : (searchText params).head? ≠ some '?' := by
    intro head
    exact unasked (List.mem_of_mem_head? head)
  rw [parseSearch]
  simp only [bare, if_false]
  exact params_read params

theorem parseSearch_asked (params : SearchParams) :
    parseSearch ('?' :: searchText params) = params := by
  rw [parseSearch]
  simp only [List.head?_cons, if_true, List.tail_cons]
  exact params_read params

end Reading

end Runnerd.UriText
