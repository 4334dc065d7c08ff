import Mathlib.Algebra.Group.Nat.Defs
import Mathlib.Data.List.Basic
import Mathlib.Data.List.DropRight

/-!
The few functions of Go's `strings`, `strconv` and `unicode` packages that the
control plane uses on ids, runner names, workflow job fields and error texts.
Text is handled as its list of runes. The model leaves a string that is not
valid UTF-8 out: ids and names come from JSON bodies and URL paths.
-/

namespace Runnerd.GoText

/-- `unicode.IsSpace`. -/
def isSpace (rune : Char) : Bool :=
  rune == '\t' || rune == '\n' || rune == '\x0b' || rune == '\x0c' || rune == '\r' ||
    rune == ' ' || rune == '\u0085' || rune == '\u00a0' || rune == '\u1680' ||
    ('\u2000' ≤ rune && rune ≤ '\u200a') || rune == '\u2028' || rune == '\u2029' ||
    rune == '\u202f' || rune == '\u205f' || rune == '\u3000'

def trimRunes (runes : List Char) : List Char :=
  (runes.dropWhile isSpace).rdropWhile isSpace

/-- `strings.TrimSpace`. -/
def trimSpace (text : String) : String :=
  String.ofList (trimRunes text.toList)

/-- `strings.Contains`. -/
def contains (text part : String) : Bool :=
  text.toList.tails.any fun rest => part.toList.isPrefixOf rest

/-- `strings.HasPrefix`. -/
def hasPrefix (text head : String) : Bool :=
  head.toList.isPrefixOf text.toList

/-- `strings.TrimPrefix`. -/
def trimPrefix (text head : String) : String :=
  if hasPrefix text head then String.ofList (text.toList.drop head.toList.length) else text

/-- `strings.HasSuffix`. -/
def hasSuffix (text tail : String) : Bool :=
  tail.toList.isSuffixOf text.toList

/-- `strings.TrimSuffix`. -/
def trimSuffix (text tail : String) : String :=
  if hasSuffix text tail then
    String.ofList (text.toList.take (text.toList.length - tail.toList.length))
  else text

def isRune (cut rune : Char) : Bool := rune == cut

/-- `strings.Trim` with a cutset of one rune. -/
def trim (cut : Char) (text : String) : String :=
  String.ofList ((text.toList.dropWhile (isRune cut)).rdropWhile (isRune cut))

/-- `strings.TrimRight` with a cutset of one rune. -/
def trimRight (cut : Char) (text : String) : String :=
  String.ofList (text.toList.rdropWhile (isRune cut))

/-- `strings.Split` at one rune. -/
def split (separator : Char) (text : String) : List String :=
  (text.toList.splitOn separator).map String.ofList

/-- `strings.ContainsAny`. -/
def containsAny (text runes : String) : Bool :=
  text.toList.any fun rune => runes.toList.contains rune

def isAscii (text : String) : Bool :=
  text.toList.all fun rune => rune.toNat < 128

-- Besides the ASCII capitals only U+0130 and U+212A are lowered to an ASCII
-- letter. Every other rune keeps or takes a non-ASCII form, and the phrases
-- searched for in lowered text are ASCII.
def lowerRune (rune : Char) : Char :=
  if rune == '\u0130' then 'i' else if rune == '\u212a' then 'k' else rune.toLower

/-- `strings.ToLower`, exact on the ASCII part of the result. -/
def toLower (text : String) : String :=
  String.ofList (text.toList.map lowerRune)

-- Simple case folding puts U+017F with s and U+212A with k. No other rune
-- outside ASCII folds to an ASCII letter.
def foldRune (rune : Char) : Char :=
  if rune == '\u017f' then 's' else if rune == '\u212a' then 'k' else rune.toLower

/-- `strings.EqualFold` against an ASCII word. -/
def equalFold (text word : String) : Bool :=
  text.toList.map foldRune == word.toList.map foldRune

def replaceRune (old new : Char) (runes : List Char) : List Char :=
  runes.map fun rune => if rune = old then new else rune

/-- `strings.ReplaceAll(_, "..", "-")`: leftmost matches, none overlapping. -/
def replaceDots : List Char → List Char
  | '.' :: '.' :: rest => '-' :: replaceDots rest
  | rune :: rest => rune :: replaceDots rest
  | [] => []

theorem dropEnds_self (blank : Char → Bool) (runes : List Char)
    (front : ∀ rune ∈ runes.head?, blank rune = false)
    (back : ∀ rune ∈ runes.getLast?, blank rune = false) :
    (runes.dropWhile blank).rdropWhile blank = runes := by
  have kept : runes.dropWhile blank = runes := by
    cases runes with
    | nil => rfl
    | cons head rest => simp [front head (by simp)]
  rw [kept, List.rdropWhile_eq_self_iff]
  intro nonempty
  simp [back _ (List.getLast?_eq_some_getLast nonempty)]

theorem trimRunes_sublist (runes : List Char) : (trimRunes runes).Sublist runes :=
  (List.rdropWhile_prefix isSpace (runes.dropWhile isSpace)).sublist.trans
    (runes.dropWhile_suffix isSpace).sublist

end Runnerd.GoText
