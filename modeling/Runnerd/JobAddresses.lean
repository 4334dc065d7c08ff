import Runnerd.Numerals
import Runnerd.Patterns
import Runnerd.UriText

/-!
The addresses of job groups in the console, from `ui/src/App.tsx`: what is pushed
for a group's key, what the browser keeps of it, and the key that is read off the
address again when the page is opened, reloaded or gone back to.
-/

namespace Runnerd.JobAddresses

open LossyText (encode)
open Patterns
open Urls (Text code ascii)
open UriText

abbrev Chars := List Char

section Keys

def isLineTerminator (c : Char) : Bool :=
  c == '\n' || c == '\r' || c == '\u2028' || c == '\u2029'

/-- The class of `.`. -/
def dot (c : Char) : Bool := !isLineTerminator c

def other (mark c : Char) : Bool := c != mark

def word (text : String) : Piece Char := .literal text.toList

def pullKey : List (Piece Char) := [word "pr:", .group dot, .literal [':'], .group Char.isDigit]

def runKey : List (Piece Char) := [word "run:", .group dot, .literal [':'], .group Char.isDigit]

def branchKey : List (Piece Char) :=
  [word "branch:", .group (other ':'), .literal [':'], .group dot, .literal [':'],
    .group (other ':')]

def manualKey : List (Piece Char) :=
  [word "manual:", .group dot, .literal [':'], .group (other ':')]

def encodeRepositoryPath (repository : Chars) : Chars :=
  ['/'].intercalate ((repository.splitOn '/').map encodeURIComponent)

def withSearchParam (path key value : Chars) : Chars :=
  let pathname := (path.splitOn '?').headD []
  let search := (path.splitOn '?').tail.headD []
  let query := searchText (setParam key value (parseSearch search))
  if query = [] then pathname else pathname ++ '?' :: query

def userJobsPath (groupKey : Chars) : Chars :=
  if groupKey = [] then "/jobs".toList
  else
    match capture pullKey groupKey with
    | some [repository, number] =>
        "/github/pulls/".toList ++ encodeRepositoryPath repository ++ '/' :: number ++
          "/jobs".toList
    | _ =>
        match capture runKey groupKey with
        | some [repository, number] =>
            "/github/runs/".toList ++ encodeRepositoryPath repository ++ '/' :: number ++
              "/jobs".toList
        | _ =>
            match capture branchKey groupKey with
            | some [repository, branch, sha] =>
                withSearchParam ("/github/branches/".toList ++ encodeRepositoryPath repository ++
                  '/' :: encodeURIComponent sha ++ "/jobs".toList) "branch".toList branch
            | _ =>
                match capture manualKey groupKey with
                | some [repository, id] =>
                    "/jobs/manual/".toList ++ encodeRepositoryPath repository ++
                      '/' :: encodeURIComponent id
                | _ => "/jobs?group=".toList ++ encodeURIComponent groupKey

def userJobGroupAPIPath (groupKey : Chars) : Chars :=
  if groupKey = [] then []
  else
    match capture pullKey groupKey with
    | some [repository, number] =>
        "/user/github/pulls/".toList ++ encodeRepositoryPath repository ++ '/' :: number ++
          "/jobs".toList
    | _ =>
        match capture runKey groupKey with
        | some [repository, number] =>
            "/user/github/runs/".toList ++ encodeRepositoryPath repository ++ '/' :: number ++
              "/jobs".toList
        | _ =>
            match capture branchKey groupKey with
            | some [repository, branch, sha] =>
                withSearchParam ("/user/github/branches/".toList ++
                  encodeRepositoryPath repository ++ '/' :: encodeURIComponent sha ++
                  "/jobs".toList) "branch".toList branch
            | _ => []

end Keys

section Locations

def slashPiece : Piece Char := .literal ['/']

def segment : Piece Char := .group (other '/')

def pullPath : List (Piece Char) :=
  [word "/github/pulls/", segment, slashPiece, segment, slashPiece, .group Char.isDigit,
    word "/jobs"]

def legacyPullPath : List (Piece Char) :=
  [word "/jobs/pulls/", segment, slashPiece, segment, slashPiece, .group Char.isDigit]

def runPath : List (Piece Char) :=
  [word "/github/runs/", segment, slashPiece, segment, slashPiece, .group Char.isDigit,
    word "/jobs"]

def legacyRunPath : List (Piece Char) :=
  [word "/jobs/runs/", segment, slashPiece, segment, slashPiece, .group Char.isDigit]

def branchPath : List (Piece Char) :=
  [word "/github/branches/", segment, slashPiece, segment, slashPiece, .group dot, slashPiece,
    segment, word "/jobs"]

def branchQueryPath : List (Piece Char) :=
  [word "/github/branches/", segment, slashPiece, segment, slashPiece, segment, word "/jobs"]

def legacyBranchPath : List (Piece Char) :=
  [word "/jobs/branches/", segment, slashPiece, segment, slashPiece, .group dot, slashPiece,
    segment]

def manualPath : List (Piece Char) :=
  [word "/jobs/manual/", segment, slashPiece, segment, slashPiece, segment]

/-- `safeDecodePathSegment`, with the empty text for null: both are falsy. -/
def safeDecodePathSegment (value : Chars) : Chars := (decodeURIComponent value).getD []

def decodeRepositoryPath (ownerSegment repoSegment : Chars) : Chars :=
  let owner := safeDecodePathSegment ownerSegment
  let repo := safeDecodePathSegment repoSegment
  if owner = [] ∨ repo = [] then "unknown/repository".toList else owner ++ '/' :: repo

def numberedKey (kind : String) (owner repo number : Chars) : Chars :=
  kind.toList ++ decodeRepositoryPath owner repo ++ ':' :: number

def branchKeyOf (owner repo branch sha : Chars) : Chars :=
  if branch = [] ∨ sha = [] then []
  else "branch:".toList ++ decodeRepositoryPath owner repo ++ ':' :: branch ++ ':' :: sha

def userJobsGroupKeyFromPath (path search : Chars) : Chars :=
  match capture pullPath path with
  | some [owner, repo, number] => numberedKey "pr:" owner repo number
  | _ =>
  match capture legacyPullPath path with
  | some [owner, repo, number] => numberedKey "pr:" owner repo number
  | _ =>
  match capture runPath path with
  | some [owner, repo, number] => numberedKey "run:" owner repo number
  | _ =>
  match capture legacyRunPath path with
  | some [owner, repo, number] => numberedKey "run:" owner repo number
  | _ =>
  match capture branchPath path with
  | some [owner, repo, branch, sha] =>
      branchKeyOf owner repo (safeDecodePathSegment branch) (safeDecodePathSegment sha)
  | _ =>
  match capture branchQueryPath path with
  | some [owner, repo, sha] =>
      branchKeyOf owner repo (getParam "branch".toList (parseSearch search))
        (safeDecodePathSegment sha)
  | _ =>
  match capture legacyBranchPath path with
  | some [owner, repo, branch, sha] =>
      branchKeyOf owner repo (safeDecodePathSegment branch) (safeDecodePathSegment sha)
  | _ =>
  match capture manualPath path with
  | some [owner, repo, id] =>
      if safeDecodePathSegment id = [] then []
      else "manual:".toList ++ decodeRepositoryPath owner repo ++ ':' :: safeDecodePathSegment id
  | _ => []

def userJobsGroupKeyFromLocation (path search : Chars) : Chars :=
  let pathKey := userJobsGroupKeyFromPath path search
  if pathKey ≠ [] then pathKey
  else if path ≠ "/jobs".toList then []
  else getParam "group".toList (parseSearch search)

def userJobIDFromSearch (search : Chars) : Chars := getParam "job".toList (parseSearch search)

def withPreservedJobSearch (path search : Chars) : Chars :=
  let job := getParam "job".toList (parseSearch search)
  if job = [] then path else withSearchParam path "job".toList job

end Locations

section Browser

/-- A path and a search as `window.location` has them. -/
structure Location where
  path : Chars
  search : Chars
  deriving DecidableEq

def pathEscapes (c : UInt8) : Bool :=
  c < 32 || 126 < c || Urls.oneOf " \"#<>?^\x60\x7b\x7d" c

/-- The query of a URL of the web. -/
def queryEscapes (c : UInt8) : Bool := c < 32 || 126 < c || Urls.oneOf " \"#<>'" c

def percentEncode (escapes : UInt8 → Bool) (text : Text) : Text :=
  text.flatMap fun c =>
    if escapes c then [code '%', Urls.upperhex (c / 16), Urls.upperhex (c % 16)] else [c]

def dots : List Text := [".", "%2e", "%2E"].map ascii

def doubleDots : List Text := dots.flatMap fun first => dots.map fun second => first ++ second

/-- The path state of a URL parser: what is kept of the segments, the last of which
stays a segment when it is dots. -/
def walk : List Text → List Text → List Text
  | kept, [] => kept
  | kept, [last] =>
      if last ∈ doubleDots then kept.dropLast ++ [[]]
      else if last ∈ dots then kept ++ [[]]
      else kept ++ [percentEncode pathEscapes last]
  | kept, name :: rest =>
      if name ∈ doubleDots then walk kept.dropLast rest
      else if name ∈ dots then walk kept rest
      else walk (kept ++ [percentEncode pathEscapes name]) rest

def backslashes (text : Text) : Text := text.map fun c => if c = code '\\' then code '/' else c

/-- Where the browser is after an absolute path on the site has been pushed. -/
def visit (target : Chars) : Location :=
  let text := (Redirects.browserText (encode target)).takeWhile (· != code '#')
  let segments := (backslashes (text.takeWhile (· != code '?'))).splitOn (code '/')
  let query := (text.dropWhile (· != code '?')).tail
  { path := '/' :: runes ([code '/'].intercalate (walk [] segments.tail))
    search := if query = [] then [] else '?' :: runes (percentEncode queryEscapes query) }

/-- What opening a job of a group pushes; without a job, what selecting the group pushes. -/
def groupAddress (groupKey job : Chars) : Chars :=
  if job = [] then userJobsPath groupKey
  else withSearchParam (userJobsPath groupKey) "job".toList job

end Browser

section Groups

/-- A name that stands in a key and in an address as one part. -/
structure Part where
  text : Chars
  filled : text ≠ []
  undivided : '/' ∉ text ∧ ':' ∉ text
  lines : ∀ c ∈ text, isLineTerminator c = false
  named : text ≠ ['.'] ∧ text ≠ ['.', '.']

structure Branch where
  text : Chars
  filled : text ≠ []
  lines : ∀ c ∈ text, isLineTerminator c = false

/-- The keys that jobs are grouped under. -/
inductive GroupKey where
  | pull (owner repo : Part) (number : Nat)
  | run (owner repo : Part) (number : Nat)
  | branch (owner repo : Part) (head : Branch) (sha : Part)
  | manual (owner repo id : Part)

def digits (number : Nat) : Chars := Nat.toDigits 10 number

def GroupKey.text : GroupKey → Chars
  | .pull owner repo number =>
      "pr:".toList ++ (owner.text ++ '/' :: repo.text) ++ ':' :: digits number
  | .run owner repo number =>
      "run:".toList ++ (owner.text ++ '/' :: repo.text) ++ ':' :: digits number
  | .branch owner repo head sha =>
      "branch:".toList ++ (owner.text ++ '/' :: repo.text) ++ ':' :: head.text ++ ':' :: sha.text
  | .manual owner repo id => "manual:".toList ++ (owner.text ++ '/' :: repo.text) ++ ':' :: id.text

/-- A manual job has no group to ask the server for. -/
def GroupKey.asked : GroupKey → Bool
  | .manual _ _ _ => false
  | _ => true

end Groups

section Parameters

/-- A path with parameters behind it. -/
def address (path : Chars) (params : SearchParams) : Chars :=
  if params = [] then path else path ++ '?' :: searchText params

def searchOf (params : SearchParams) : Chars :=
  if params = [] then [] else '?' :: searchText params

theorem setParam_filled (name value : Chars) (params : SearchParams) :
    setParam name value params ≠ [] := by
  cases params with
  | nil => simp [setParam]
  | cons param rest =>
    by_cases same : param.1 = name <;> simp [setParam, same]

theorem getParam_setParam (name value : Chars) (params : SearchParams) :
    getParam name (setParam name value params) = value := by
  induction params with
  | nil => simp [setParam, getParam]
  | cons param rest ih =>
    by_cases same : param.1 = name
    · simp [setParam, same, getParam]
    · simpa [setParam, same, getParam] using ih

theorem getParam_other {name asked : Chars} (different : asked ≠ name) (value : Chars)
    (params : SearchParams) :
    getParam asked (setParam name value params) = getParam asked params := by
  have apart : (name == asked) = false := by simpa using fun same : name = asked => different same.symm
  induction params with
  | nil => simp [setParam, getParam, apart]
  | cons param rest ih =>
    by_cases same : param.1 = name
    · have others : ((rest.filter (·.1 != name)).find? fun param => param.1 == asked) =
          rest.find? fun param => param.1 == asked := by
        rw [List.find?_filter]
        congr 1
        funext param
        by_cases here : param.1 = asked
        · simp [here, different]
        · simp [here]
      simp [setParam, same, getParam, apart, others]
    · by_cases here : param.1 = asked
      · simp [setParam, getParam, here, different]
      · simpa [setParam, same, getParam, here] using ih

theorem searchText_filled {params : SearchParams} (some_ : params ≠ []) : searchText params ≠ [] := by
  intro empty
  have read := parseSearch_searchText params
  rw [empty] at read
  exact some_ (read.symm.trans rfl)

theorem asked_absent (params : SearchParams) : '?' ∉ searchText params :=
  searchText_absent (by decide) (by decide) (by decide) params

/-- A parameter that is set keeps the path and the other parameters. -/
theorem withSearchParam_address {path : Chars} (unasked : '?' ∉ path) (params : SearchParams)
    (name value : Chars) :
    withSearchParam (address path params) name value = address path (setParam name value params) := by
  have filled := setParam_filled name value params
  have written := searchText_filled filled
  by_cases bare : params = []
  · subst bare
    have whole : path.splitOn '?' = [path] := List.splitOn_eq_singleton unasked
    have nothing : parseSearch [] = [] := rfl
    simp [withSearchParam, address, whole, nothing, filled, written]
  · have parts : (path ++ '?' :: searchText params).splitOn '?' = [path, searchText params] := by
      rw [SplitText.splitOn_append_absent unasked, List.splitOn_cons_eq_if_modifyHead,
        if_pos (beq_self_eq_true '?'), List.splitOn_eq_singleton (asked_absent params)]
      simp
    simp [withSearchParam, address, bare, parts, parseSearch_searchText, filled, written]

theorem parseSearch_searchOf (params : SearchParams) : parseSearch (searchOf params) = params := by
  by_cases bare : params = []
  · subst bare
    rfl
  · rw [searchOf, if_neg bare, parseSearch_asked]

end Parameters

section Visiting

/-- A text that is a segment of its own when it is encoded. -/
def Visible (text : Chars) : Prop := text ≠ [] ∧ text ≠ ['.'] ∧ text ≠ ['.', '.']

def pathOf (texts : List Chars) : Chars := '/' :: ['/'].intercalate (texts.map encodeURIComponent)

def segmentBytes (text : Chars) : Text := Redirects.encodeURIComponent (encode text)

theorem segmentBytes_text (text : Chars) :
    Urls.unescape (segmentBytes text) = some (encode text) :=
  Redirects.unescape_encodeURIComponent (encode text)

theorem encode_injective {one two : Chars} (same : encode one = encode two) : one = two := by
  have read := congrArg LossyText.decode same
  rwa [LossyText.decode_encode, LossyText.decode_encode] at read

theorem segment_dots {text : Chars} (visible : Visible text) :
    segmentBytes text ∉ dots ∧ segmentBytes text ∉ doubleDots := by
  have single : ∀ name ∈ dots, Urls.unescape name = some (encode ['.']) := by decide
  have double : ∀ name ∈ doubleDots, Urls.unescape name = some (encode ['.', '.']) := by decide
  constructor
  · intro member
    have same := (segmentBytes_text text).symm.trans (single _ member)
    exact visible.2.1 (encode_injective (Option.some.inj same))
  · intro member
    have same := (segmentBytes_text text).symm.trans (double _ member)
    exact visible.2.2 (encode_injective (Option.some.inj same))

theorem segment_below {text : Chars} (visible : Visible text) : Paths.Below (segmentBytes text) := by
  have apart := segment_dots visible
  have filled : segmentBytes text ≠ [] := by
    intro empty
    have same : some (encode []) = some (encode text) := by
      rw [← segmentBytes_text text, empty]
      rfl
    exact visible.1 (encode_injective (Option.some.inj same)).symm
  refine ⟨filled, ?_, ?_, ?_⟩
  · intro dot
    exact apart.1 (by rw [dot]; decide)
  · intro dots
    exact apart.2 (by rw [dots]; decide)
  · intro member
    exact absurd (Redirects.encodeURIComponent_bytes _ _ member) (by decide)

theorem percentEncode_self {escapes : UInt8 → Bool} {text : Text}
    (plain : ∀ c ∈ text, escapes c = false) : percentEncode escapes text = text := by
  induction text with
  | nil => rfl
  | cons c rest ih =>
    have head := plain c List.mem_cons_self
    have later := ih fun d member => plain d (List.mem_cons_of_mem c member)
    rw [percentEncode] at later ⊢
    rw [List.flatMap_cons, later, head]
    rfl

/-- The bytes of a segment pass every parser of a URL. -/
theorem encodedByte_passes {c : UInt8} (listed : Redirects.isEncodedByte c = true) :
    32 < c ∧ c ≠ code '#' ∧ c ≠ code '?' ∧ c ≠ code '\\' ∧ pathEscapes c = false := by
  have all : (List.range 128).all (fun value =>
      !Redirects.isEncodedByte (UInt8.ofNat value) || (decide (32 < UInt8.ofNat value) &&
        UInt8.ofNat value != code '#' && UInt8.ofNat value != code '?' &&
        UInt8.ofNat value != code '\\' && !pathEscapes (UInt8.ofNat value))) = true := by
    decide +kernel
  have low := UInt8.lt_iff_toNat_lt.mp (encodedByte_low listed)
  have here := List.all_eq_true.mp all c.toNat (List.mem_range.mpr low)
  simpa [listed, and_assoc] using here

theorem walk_visible (kept : List Text) {texts : List Chars} (visible : ∀ text ∈ texts, Visible text) :
    walk kept (texts.map segmentBytes) = kept ++ texts.map segmentBytes := by
  have unchanged : ∀ text, percentEncode pathEscapes (segmentBytes text) = segmentBytes text := by
    intro text
    apply percentEncode_self
    intro c member
    exact (encodedByte_passes (Redirects.encodeURIComponent_bytes _ c member)).2.2.2.2
  induction texts generalizing kept with
  | nil => simp [walk]
  | cons text rest ih =>
    have apart := segment_dots (visible text List.mem_cons_self)
    have later := fun kept => ih kept fun other member => visible other (List.mem_cons_of_mem text member)
    cases rest with
    | nil => simp [walk, apart.1, apart.2, unchanged]
    | cons next rest =>
      rw [List.map_cons, List.map_cons, walk, if_neg apart.2, if_neg apart.1, unchanged,
        ← List.map_cons, later]
      · simp
      · simp

theorem encode_rune (c : Char) (low : c.toNat < 128) : encode [c] = [code c] := by
  have all : (List.range 128).all (fun value =>
      encode [Char.ofNat value] == [code (Char.ofNat value)]) = true := by decide +kernel
  have here := List.all_eq_true.mp all c.toNat (List.mem_range.mpr low)
  simpa using here

theorem encode_cons_ascii {c : Char} (low : c.toNat < 128) (text : Chars) :
    encode (c :: text) = code c :: encode text := by
  rw [← List.singleton_append, LossyText.encode_append, encode_rune c low]
  rfl

theorem encode_pathOf (texts : List Chars) :
    encode (pathOf texts) = Paths.rootedAt (texts.map segmentBytes) := by
  have joined : encode (['/'].intercalate (texts.map encodeURIComponent)) =
      [Paths.slash].intercalate (texts.map segmentBytes) := by
    induction texts with
    | nil => rfl
    | cons text rest ih =>
      cases rest with
      | nil => simp [encode_encodeURIComponent, segmentBytes]
      | cons next rest =>
        rw [List.map_cons, List.map_cons, List.intercalate_cons_cons, List.append_assoc,
          LossyText.encode_append, LossyText.encode_append, ← List.map_cons, ih,
          encode_encodeURIComponent]
        simp [List.intercalate_cons_cons, segmentBytes]
        rfl
  rw [pathOf, encode_cons_ascii (by decide), joined]
  rfl

def searchBytes (params : SearchParams) : Text := [code '&'].intercalate (params.map paramBytes)

theorem encode_address (texts : List Chars) (params : SearchParams) :
    encode (address (pathOf texts) params) = Paths.rootedAt (texts.map segmentBytes) ++
      if params = [] then [] else code '?' :: searchBytes params := by
  by_cases bare : params = []
  · simp [address, bare, encode_pathOf]
  · rw [address, if_neg bare, if_neg bare, LossyText.encode_append, encode_pathOf,
      encode_cons_ascii (by decide), encode_searchText]
    rfl

theorem searchBytes_passes {params : SearchParams} {c : UInt8} (member : c ∈ searchBytes params) :
    32 < c ∧ c ≠ code '#' ∧ queryEscapes c = false := by
  have all : (List.range 128).all (fun value =>
      !(isFormedByte (UInt8.ofNat value) || UInt8.ofNat value == code '=' ||
        UInt8.ofNat value == code '&') || (decide (32 < UInt8.ofNat value) &&
        UInt8.ofNat value != code '#' && !queryEscapes (UInt8.ofNat value))) = true := by
    decide +kernel
  have low := UInt8.lt_iff_toNat_lt.mp (searchBytes_low params c member)
  have here := List.all_eq_true.mp all c.toNat (List.mem_range.mpr low)
  have listed : isFormedByte c = true ∨ c = code '=' ∨ c = code '&' := by
    by_contra unlisted
    rw [not_or, not_or] at unlisted
    exact searchBytes_absent (by simpa using unlisted.1) unlisted.2.1 unlisted.2.2 params member
  rcases listed with formed | equals | joins
  · simpa [formed, and_assoc] using here
  · subst equals
    decide
  · subst joins
    decide

theorem rootedBytes_listed {texts : List Chars} {c : UInt8}
    (member : c ∈ Paths.rootedAt (texts.map segmentBytes)) :
    Redirects.isEncodedByte c = true ∨ c = Paths.slash := by
  rw [Paths.rootedAt, List.mem_cons] at member
  rcases member with slash | joined
  · exact .inr slash
  · rcases Paths.intercalate_member _ c joined with slash | ⟨name, named, here⟩
    · exact .inr slash
    · obtain ⟨text, -, rfl⟩ := List.mem_map.mp named
      exact .inl (Redirects.encodeURIComponent_bytes _ c here)

theorem rootedBytes_passes {texts : List Chars} {c : UInt8}
    (member : c ∈ Paths.rootedAt (texts.map segmentBytes)) :
    32 < c ∧ c ≠ code '#' ∧ c ≠ code '?' ∧ c ≠ code '\\' := by
  rcases rootedBytes_listed member with encoded | slash
  · have passes := encodedByte_passes encoded
    exact ⟨passes.1, passes.2.1, passes.2.2.1, passes.2.2.2.1⟩
  · subst slash
    decide

theorem browserText_self {text : Text} (high : ∀ c ∈ text, 32 < c) :
    Redirects.browserText text = text := by
  have printed : ∀ c ∈ text, Redirects.isC0OrSpace c = false := by
    intro c member
    simpa [Redirects.isC0OrSpace, UInt8.not_le] using high c member
  have front : text.dropWhile Redirects.isC0OrSpace = text := by
    apply List.dropWhile_eq_self_iff.mpr
    intro some_
    simp [printed _ (List.getElem_mem some_)]
  have back : text.rdropWhile Redirects.isC0OrSpace = text := by
    apply List.rdropWhile_eq_self_iff.mpr
    intro some_
    simp [printed _ (List.getLast_mem some_)]
  rw [Redirects.browserText, front, back]
  apply List.filter_eq_self.mpr
  intro c member
  have above := UInt8.lt_iff_toNat_lt.mp (high c member)
  have apart : ∀ mark : UInt8, mark ≤ 32 → c ≠ mark := by
    rintro mark low rfl
    exact absurd (high c member) (UInt8.not_lt.mpr low)
  simp [Redirects.isTabOrNewline, apart 9 (by decide), apart 10 (by decide), apart 13 (by decide)]

theorem runes_rooted (texts : List Chars) :
    '/' :: runes ([code '/'].intercalate (texts.map segmentBytes)) = pathOf texts := by
  apply encode_injective
  have low : ∀ c ∈ [code '/'].intercalate (texts.map segmentBytes), c < 128 := by
    intro c member
    rcases rootedBytes_listed (List.mem_cons_of_mem Paths.slash member) with encoded | slash
    · exact encodedByte_low encoded
    · subst slash
      decide
  rw [encode_pathOf, encode_cons_ascii (by decide), encode_runes low]
  rfl

/-- The browser keeps an address of visible segments as it is. -/
theorem visit_address {texts : List Chars} (visible : ∀ text ∈ texts, Visible text)
    (some_ : texts ≠ []) (params : SearchParams) :
    visit (address (pathOf texts) params) = ⟨pathOf texts, searchOf params⟩ := by
  generalize rest : (if params = [] then [] else code '?' :: searchBytes params) = query
  have queried : ∀ c ∈ query, 32 < c ∧ c ≠ code '#' := by
    intro c member
    by_cases bare : params = []
    · simp [← rest, bare] at member
    · rw [← rest, if_neg bare, List.mem_cons] at member
      rcases member with rfl | inside
      · decide
      · exact ⟨(searchBytes_passes inside).1, (searchBytes_passes inside).2.1⟩
  -- no byte of the path or of the query ends its part early
  have rooted (c : UInt8) (member : c ∈ Paths.rootedAt (texts.map segmentBytes)) :
      32 < c ∧ c ≠ code '#' ∧ c ≠ code '?' ∧ c ≠ code '\\' := rootedBytes_passes member
  have text : (Redirects.browserText (encode (address (pathOf texts) params))).takeWhile
      (· != code '#') = Paths.rootedAt (texts.map segmentBytes) ++ query := by
    rw [encode_address, rest, browserText_self, List.takeWhile_eq_self_iff.mpr]
    · intro c member
      rcases List.mem_append.mp member with front | back
      · simpa using (rooted c front).2.1
      · simpa using (queried c back).2
    · intro c member
      rcases List.mem_append.mp member with front | back
      · exact (rooted c front).1
      · exact (queried c back).1
  have unasked : ∀ c ∈ Paths.rootedAt (texts.map segmentBytes), (c != code '?') = true :=
    fun c member => by simpa using (rooted c member).2.2.1
  have ends : query.takeWhile (· != code '?') = [] ∧ query.dropWhile (· != code '?') = query := by
    by_cases bare : params = []
    · simp [← rest, bare]
    · simp [← rest, bare]
  have path : (Paths.rootedAt (texts.map segmentBytes) ++ query).takeWhile (· != code '?') =
      Paths.rootedAt (texts.map segmentBytes) := by
    rw [List.takeWhile_append_of_pos unasked, ends.1, List.append_nil]
  have behind : (Paths.rootedAt (texts.map segmentBytes) ++ query).dropWhile (· != code '?') =
      query := by
    rw [List.dropWhile_append_of_pos unasked, ends.2]
  have unslashed : backslashes (Paths.rootedAt (texts.map segmentBytes)) =
      Paths.rootedAt (texts.map segmentBytes) := by
    have same : ∀ c ∈ Paths.rootedAt (texts.map segmentBytes),
        (if c = code '\\' then code '/' else c) = id c :=
      fun c member => if_neg (rooted c member).2.2.2
    rw [backslashes, List.map_congr_left same, List.map_id]
  have below : ∀ name ∈ texts.map segmentBytes, Paths.Below name := by
    intro name member
    obtain ⟨text, listed, rfl⟩ := List.mem_map.mp member
    exact segment_below (visible text listed)
  have pieces : (Paths.rootedAt (texts.map segmentBytes)).splitOn (code '/') =
      [] :: texts.map segmentBytes := Paths.splitOn_rootedAt below (by simpa using some_)
  have search : (if query.tail = [] then [] else
      '?' :: runes (percentEncode queryEscapes query.tail)) = searchOf params := by
    by_cases bare : params = []
    · simp [← rest, bare, searchOf]
    · have filled : searchBytes params ≠ [] := by
        intro empty
        apply searchText_filled bare
        rw [searchText]
        exact congrArg runes empty
      have kept : percentEncode queryEscapes (searchBytes params) = searchBytes params :=
        percentEncode_self fun c member => (searchBytes_passes member).2.2
      simp only [← rest, bare, if_false, List.tail_cons, filled, kept, searchOf]
      rfl
  simp only [visit, text, path, behind, unslashed, pieces, List.tail_cons,
    walk_visible [] visible, List.nil_append, search, runes_rooted]

end Visiting

section Reading

theorem digits_digit (number : Nat) : ∀ c ∈ digits number, c.isDigit = true :=
  List.all_eq_true.mp (toDigits_digits number)

theorem digits_filled (number : Nat) : digits number ≠ [] := Nat.toDigits_ne_nil

theorem digit_unreserved {c : Char} (digit : c.isDigit = true) :
    c.toNat < 128 ∧ Redirects.isUnreserved (code c) = true ∧ Char.ofNat (code c).toNat = c := by
  have all : (List.range 128).all (fun value => !(Char.ofNat value).isDigit ||
      (Redirects.isUnreserved (code (Char.ofNat value)) &&
        Char.ofNat (code (Char.ofNat value)).toNat == Char.ofNat value)) = true := by
    decide +kernel
  have low : c.toNat < 128 := by
    simp only [Char.isDigit, Bool.and_eq_true, decide_eq_true_eq, UInt32.le_iff_toNat_le] at digit
    have bound := digit.2
    change c.toNat ≤ 57 at bound
    omega
  have here := List.all_eq_true.mp all c.toNat (List.mem_range.mpr low)
  simp only [Char.ofNat_toNat, digit, Bool.not_true, Bool.false_or, Bool.and_eq_true,
    beq_iff_eq] at here
  exact ⟨low, here.1, here.2⟩

theorem encode_digits (number : Nat) : encode (digits number) = (digits number).map code := by
  have digit := digits_digit number
  generalize digits number = text at digit
  induction text with
  | nil => rfl
  | cons c rest ih =>
    have low := (digit_unreserved (digit c List.mem_cons_self)).1
    rw [encode_cons_ascii low, ih fun d member => digit d (List.mem_cons_of_mem c member)]
    rfl

/-- Digits need no escape. -/
theorem digits_encoded (number : Nat) : encodeURIComponent (digits number) = digits number := by
  have digit := digits_digit number
  have bytes := encode_digits number
  generalize digits number = text at digit bytes
  have plain : ∀ byte ∈ text.map code, Redirects.isUnreserved byte = true := by
    intro byte member
    obtain ⟨c, listed, rfl⟩ := List.mem_map.mp member
    exact (digit_unreserved (digit c listed)).2.1
  have back : ∀ c ∈ text, (fun byte : UInt8 => Char.ofNat byte.toNat) (code c) = id c :=
    fun c member => (digit_unreserved (digit c member)).2.2
  rw [encodeURIComponent, bytes, Redirects.encodeURIComponent_self plain, runes, List.map_map]
  exact (List.map_congr_left back).trans (List.map_id text)

theorem encoded_filled {text : Chars} (filled : text ≠ []) : encodeURIComponent text ≠ [] := by
  intro empty
  have nothing : decodeURIComponent [] = some [] := by simp [decodeURIComponent, Urls.unescape]
  have read := decode_encodeURIComponent text
  rw [empty, nothing] at read
  exact filled (Option.some.inj read).symm

theorem encoded_segment (text : Chars) : ∀ c ∈ encodeURIComponent text, other '/' c = true := by
  intro c member
  obtain ⟨byte, listed, rfl⟩ := mem_runes member
  have encoded := Redirects.encodeURIComponent_bytes _ byte listed
  simp only [other, bne_iff_ne, ne_eq]
  intro slash
  have same : byte = code '/' := by
    rw [← code_rune (encodedByte_low encoded), slash]
  subst same
  exact absurd encoded (by decide)

theorem encoded_read (text : Chars) : safeDecodePathSegment (encodeURIComponent text) = text := by
  rw [safeDecodePathSegment, decode_encodeURIComponent]
  rfl

theorem repository_read {owner repo : Chars} (named : owner ≠ []) (filled : repo ≠ []) :
    decodeRepositoryPath (encodeURIComponent owner) (encodeURIComponent repo) =
      owner ++ '/' :: repo := by
  rw [decodeRepositoryPath]
  simp only [encoded_read, named, filled, or_self, if_false]

theorem repository_encoded {owner repo : Chars} (undivided : '/' ∉ owner) (whole : '/' ∉ repo) :
    encodeRepositoryPath (owner ++ '/' :: repo) =
      encodeURIComponent owner ++ '/' :: encodeURIComponent repo := by
  have parts : (owner ++ '/' :: repo).splitOn '/' = [owner, repo] := by
    rw [SplitText.splitOn_append_absent undivided, List.splitOn_cons_eq_if_modifyHead,
      if_pos (beq_self_eq_true '/'), List.splitOn_eq_singleton whole]
    simp
  rw [encodeRepositoryPath, parts]
  simp

/-- The two segments that every pattern of a group begins with. -/
theorem capture_repository (lead : String) {owner repo : Chars} (named : owner ≠ [])
    (filled : repo ≠ []) (pieces : List (Piece Char)) (rest : Chars) :
    capture (word lead :: segment :: slashPiece :: segment :: slashPiece :: pieces)
      (lead.toList ++ (encodeURIComponent owner ++ '/' :: (encodeURIComponent repo ++ '/' :: rest))) =
        (capture pieces rest).map fun found =>
          encodeURIComponent owner :: encodeURIComponent repo :: found := by
  have stops : other '/' '/' = false := by decide
  have slash (pieces : List (Piece Char)) (text : Chars) :
      capture (.literal ['/'] :: pieces) ('/' :: text) = capture pieces text :=
    capture_literal ['/'] pieces text
  rw [word, capture_literal, segment, slashPiece,
    capture_before (encoded_filled named) (encoded_segment owner) stops, slash,
    capture_before (encoded_filled filled) (encoded_segment repo) stops, slash, Option.map_map]
  rfl

theorem capture_jobs {admits : Char → Bool} (stops : admits '/' = false) {text : Chars}
    (filled : text ≠ []) (admitted : ∀ c ∈ text, admits c = true) :
    capture [.group admits, word "/jobs"] (text ++ "/jobs".toList) = some [text] := by
  have lead : "/jobs".toList = '/' :: "jobs".toList := rfl
  rw [word, lead, capture_before filled admitted stops]
  have whole := capture_literal ('/' :: "jobs".toList) [] []
  rw [List.append_nil] at whole
  rw [whole]
  rfl

end Reading

section Returning

/-- The segments of a group's address. -/
def GroupKey.segments : GroupKey → List Chars
  | .pull owner repo number =>
      ["github".toList, "pulls".toList, owner.text, repo.text, digits number, "jobs".toList]
  | .run owner repo number =>
      ["github".toList, "runs".toList, owner.text, repo.text, digits number, "jobs".toList]
  | .branch owner repo _ sha =>
      ["github".toList, "branches".toList, owner.text, repo.text, sha.text, "jobs".toList]
  | .manual owner repo id => ["jobs".toList, "manual".toList, owner.text, repo.text, id.text]

def GroupKey.params : GroupKey → SearchParams
  | .branch _ _ head _ => [("branch".toList, head.text)]
  | _ => []

theorem Part.visible (part : Part) : Visible part.text := ⟨part.filled, part.named⟩

theorem digits_visible (number : Nat) : Visible (digits number) := by
  have apart : ∀ text : Chars, (∃ c ∈ text, c.isDigit = false) → digits number ≠ text := by
    rintro text ⟨c, member, undigit⟩ rfl
    rw [digits_digit number c member] at undigit
    exact absurd undigit (by simp)
  exact ⟨digits_filled number, apart _ ⟨'.', by simp, by decide⟩, apart _ ⟨'.', by simp, by decide⟩⟩

instance (text : Chars) : Decidable (Visible text) := inferInstanceAs (Decidable (_ ∧ _))

theorem GroupKey.visible (key : GroupKey) : ∀ text ∈ key.segments, Visible text := by
  cases key with
  | pull owner repo number =>
    simp only [segments, List.forall_mem_cons, List.not_mem_nil, false_imp_iff, implies_true, and_true]
    exact ⟨by decide, by decide, owner.visible, repo.visible, digits_visible number, by decide⟩
  | run owner repo number =>
    simp only [segments, List.forall_mem_cons, List.not_mem_nil, false_imp_iff, implies_true, and_true]
    exact ⟨by decide, by decide, owner.visible, repo.visible, digits_visible number, by decide⟩
  | branch owner repo head sha =>
    simp only [segments, List.forall_mem_cons, List.not_mem_nil, false_imp_iff, implies_true, and_true]
    exact ⟨by decide, by decide, owner.visible, repo.visible, sha.visible, by decide⟩
  | manual owner repo id =>
    simp only [segments, List.forall_mem_cons, List.not_mem_nil, false_imp_iff, implies_true, and_true]
    exact ⟨by decide, by decide, owner.visible, repo.visible, id.visible⟩

theorem Part.admitted (part : Part) : ∀ c ∈ part.text, dot c = true ∧ other ':' c = true := by
  intro c member
  have apart : c ≠ ':' := by
    rintro rfl
    exact part.undivided.2 member
  exact ⟨by simp [dot, part.lines c member], by simpa [other] using apart⟩

theorem repository_admitted (owner repo : Part) :
    ∀ c ∈ owner.text ++ '/' :: repo.text, dot c = true ∧ other ':' c = true := by
  intro c member
  rcases List.mem_append.mp member with front | back
  · exact owner.admitted c front
  · rcases List.mem_cons.mp back with rfl | later
    · decide
    · exact repo.admitted c later

section Kinds

variable (owner repo : Part)

theorem pull_text (number : Nat) : (GroupKey.pull owner repo number).text =
    "pr:".toList ++ ((owner.text ++ '/' :: repo.text) ++ ':' :: digits number) :=
  List.append_assoc _ _ _

theorem run_text (number : Nat) : (GroupKey.run owner repo number).text =
    "run:".toList ++ ((owner.text ++ '/' :: repo.text) ++ ':' :: digits number) :=
  List.append_assoc _ _ _

theorem branch_text (head : Branch) (sha : Part) : (GroupKey.branch owner repo head sha).text =
    "branch:".toList ++ ((owner.text ++ '/' :: repo.text) ++
      ':' :: (head.text ++ ':' :: sha.text)) := by
  rw [← List.cons_append, ← List.append_assoc, ← List.append_assoc]
  rfl

theorem manual_text (id : Part) : (GroupKey.manual owner repo id).text =
    "manual:".toList ++ ((owner.text ++ '/' :: repo.text) ++ ':' :: id.text) :=
  List.append_assoc _ _ _

theorem capture_pullKey (number : Nat) : capture pullKey (GroupKey.pull owner repo number).text =
    some [owner.text ++ '/' :: repo.text, digits number] := by
  rw [pull_text, pullKey, word, capture_literal]
  exact capture_last (by simp) (fun c member => (repository_admitted owner repo c member).1)
    (digits_filled number) (digits_digit number) (by decide)

theorem capture_runKey (number : Nat) : capture runKey (GroupKey.run owner repo number).text =
    some [owner.text ++ '/' :: repo.text, digits number] := by
  rw [run_text, runKey, word, capture_literal]
  exact capture_last (by simp) (fun c member => (repository_admitted owner repo c member).1)
    (digits_filled number) (digits_digit number) (by decide)

/-- A branch may hold colons itself. -/
theorem capture_branchKey (head : Branch) (sha : Part) :
    capture branchKey (GroupKey.branch owner repo head sha).text =
      some [owner.text ++ '/' :: repo.text, head.text, sha.text] := by
  have colon (pieces : List (Piece Char)) (text : Chars) :
      capture (.literal [':'] :: pieces) (':' :: text) = capture pieces text :=
    capture_literal [':'] pieces text
  have last : capture [.group dot, .literal [':'], .group (other ':')]
      (head.text ++ ':' :: sha.text) = some [head.text, sha.text] :=
    capture_last head.filled (fun c member => by simp [dot, head.lines c member]) sha.filled
      (fun c member => (sha.admitted c member).2) (by decide)
  rw [branch_text, branchKey, word, capture_literal,
    capture_before (by simp) (fun c member => (repository_admitted owner repo c member).2) (by decide),
    colon, last]
  rfl

theorem capture_manualKey (id : Part) : capture manualKey (GroupKey.manual owner repo id).text =
    some [owner.text ++ '/' :: repo.text, id.text] := by
  rw [manual_text, manualKey, word, capture_literal]
  exact capture_last (by simp) (fun c member => (repository_admitted owner repo c member).1)
    id.filled (fun c member => (id.admitted c member).2) (by decide)

/-- A key of one kind is none of the kinds that are tried before. -/
theorem run_alone (number : Nat) : capture pullKey (GroupKey.run owner repo number).text = none := by
  rw [run_text]
  exact capture_apart (by decide) _ _

theorem branch_alone (head : Branch) (sha : Part) :
    capture pullKey (GroupKey.branch owner repo head sha).text = none ∧
      capture runKey (GroupKey.branch owner repo head sha).text = none := by
  rw [branch_text]
  exact ⟨capture_apart (by decide) _ _, capture_apart (by decide) _ _⟩

theorem manual_alone (id : Part) :
    capture pullKey (GroupKey.manual owner repo id).text = none ∧
      capture runKey (GroupKey.manual owner repo id).text = none ∧
      capture branchKey (GroupKey.manual owner repo id).text = none := by
  rw [manual_text]
  exact ⟨capture_apart (by decide) _ _, capture_apart (by decide) _ _, capture_apart (by decide) _ _⟩

theorem repository_shown : encodeRepositoryPath (owner.text ++ '/' :: repo.text) =
    encodeURIComponent owner.text ++ '/' :: encodeURIComponent repo.text :=
  repository_encoded owner.undivided.1 repo.undivided.1

end Kinds

theorem words_encoded : ∀ word ∈ ["github", "pulls", "runs", "branches", "jobs", "manual"],
    encodeURIComponent word.toList = word.toList := by
  decide +kernel

/-- The path of a pull request, a run or a commit. -/
theorem pathOf_jobs (kind : String) (listed : kind ∈ ["github", "pulls", "runs", "branches", "jobs",
    "manual"]) (owner repo last : Chars) :
    pathOf ["github".toList, kind.toList, owner, repo, last, "jobs".toList] =
      "/github/".toList ++ (kind.toList ++ '/' :: (encodeURIComponent owner ++
        '/' :: (encodeURIComponent repo ++ '/' :: (encodeURIComponent last ++ "/jobs".toList)))) := by
  have front : "/github/".toList = '/' :: ("github".toList ++ ['/']) := rfl
  have back : "/jobs".toList = '/' :: "jobs".toList := rfl
  rw [pathOf, front, back]
  simp only [List.map_cons, List.map_nil, List.intercalate_cons_cons, List.intercalate_singleton,
    words_encoded "github" (by simp), words_encoded "jobs" (by simp), words_encoded kind listed,
    List.append_assoc, List.cons_append, List.nil_append]

theorem pathOf_manual (owner repo id : Chars) :
    pathOf ["jobs".toList, "manual".toList, owner, repo, id] =
      "/jobs/manual/".toList ++ (encodeURIComponent owner ++ '/' :: (encodeURIComponent repo ++
        '/' :: encodeURIComponent id)) := by
  have front : "/jobs/manual/".toList = '/' :: ("jobs".toList ++ '/' :: ("manual".toList ++ ['/'])) :=
    rfl
  rw [pathOf, front]
  simp only [List.map_cons, List.map_nil, List.intercalate_cons_cons, List.intercalate_singleton,
    words_encoded "jobs" (by simp), words_encoded "manual" (by simp), List.append_assoc,
    List.cons_append, List.nil_append]

theorem pathOf_unasked (texts : List Chars) : '?' ∉ pathOf texts := by
  intro member
  have byte : code '?' ∈ encode (pathOf texts) := by
    rw [LossyText.encode, List.mem_flatMap]
    exact ⟨'?', member, by decide⟩
  rw [encode_pathOf] at byte
  exact (rootedBytes_passes byte).2.2.1 rfl

/-- What is pushed for a group is its path, with its branch as the parameter. -/
theorem userJobsPath_text (key : GroupKey) :
    userJobsPath key.text = address (pathOf key.segments) key.params := by
  cases key with
  | pull owner repo number =>
    have filled : (GroupKey.pull owner repo number).text ≠ [] := by simp [pull_text]
    rw [userJobsPath, if_neg filled, capture_pullKey]
    simp only [GroupKey.segments, GroupKey.params, address, if_true, repository_shown,
      pathOf_jobs "pulls" (by simp), digits_encoded]
    simp
  | run owner repo number =>
    have filled : (GroupKey.run owner repo number).text ≠ [] := by simp [run_text]
    rw [userJobsPath, if_neg filled, run_alone, capture_runKey]
    simp only [GroupKey.segments, GroupKey.params, address, if_true, repository_shown,
      pathOf_jobs "runs" (by simp), digits_encoded]
    simp
  | branch owner repo head sha =>
    have filled : (GroupKey.branch owner repo head sha).text ≠ [] := by simp [branch_text]
    have others := branch_alone owner repo head sha
    have unasked : '?' ∉ pathOf (GroupKey.branch owner repo head sha).segments :=
      pathOf_unasked _
    have path : "/github/branches/".toList ++ encodeRepositoryPath (owner.text ++ '/' :: repo.text) ++
        '/' :: encodeURIComponent sha.text ++ "/jobs".toList =
          address (pathOf (GroupKey.branch owner repo head sha).segments) [] := by
      simp only [GroupKey.segments, address, if_true, repository_shown,
        pathOf_jobs "branches" (by simp)]
      simp
    rw [userJobsPath, if_neg filled, others.1, others.2, capture_branchKey]
    simp only [path, withSearchParam_address unasked]
    rfl
  | manual owner repo id =>
    have filled : (GroupKey.manual owner repo id).text ≠ [] := by simp [manual_text]
    have others := manual_alone owner repo id
    rw [userJobsPath, if_neg filled, others.1, others.2.1, others.2.2, capture_manualKey]
    simp only [GroupKey.segments, GroupKey.params, address, if_true, repository_shown, pathOf_manual]
    simp

theorem numbered_read (kind : String) {owner repo : Part} (number : Nat) :
    numberedKey kind (encodeURIComponent owner.text) (encodeURIComponent repo.text) (digits number) =
      kind.toList ++ ((owner.text ++ '/' :: repo.text) ++ ':' :: digits number) := by
  rw [numberedKey, repository_read owner.filled repo.filled, List.append_assoc]

/-- The key is read off the path of its group. -/
theorem groupKey_read (key : GroupKey) {params : SearchParams}
    (kept : ∀ owner repo head sha, key = .branch owner repo head sha →
      getParam "branch".toList params = head.text) :
    userJobsGroupKeyFromPath (pathOf key.segments) (searchOf params) = key.text := by
  cases key with
  | pull owner repo number =>
    have path : pathOf (GroupKey.pull owner repo number).segments = "/github/pulls/".toList ++
        (encodeURIComponent owner.text ++ '/' :: (encodeURIComponent repo.text ++
          '/' :: (digits number ++ "/jobs".toList))) := by
      rw [GroupKey.segments, pathOf_jobs "pulls" (by simp), digits_encoded]
      rfl
    have found : capture pullPath (pathOf (GroupKey.pull owner repo number).segments) =
        some [encodeURIComponent owner.text, encodeURIComponent repo.text, digits number] := by
      rw [path, pullPath, capture_repository _ owner.filled repo.filled,
        capture_jobs (by decide) (digits_filled number) (digits_digit number)]
      rfl
    simp only [userJobsGroupKeyFromPath, found, numbered_read, pull_text]
  | run owner repo number =>
    have path : pathOf (GroupKey.run owner repo number).segments = "/github/runs/".toList ++
        (encodeURIComponent owner.text ++ '/' :: (encodeURIComponent repo.text ++
          '/' :: (digits number ++ "/jobs".toList))) := by
      rw [GroupKey.segments, pathOf_jobs "runs" (by simp), digits_encoded]
      rfl
    have unpulled : capture pullPath (pathOf (GroupKey.run owner repo number).segments) = none ∧
        capture legacyPullPath (pathOf (GroupKey.run owner repo number).segments) = none := by
      rw [path]
      exact ⟨capture_apart (by decide) _ _, capture_apart (by decide) _ _⟩
    have found : capture runPath (pathOf (GroupKey.run owner repo number).segments) =
        some [encodeURIComponent owner.text, encodeURIComponent repo.text, digits number] := by
      rw [path, runPath, capture_repository _ owner.filled repo.filled,
        capture_jobs (by decide) (digits_filled number) (digits_digit number)]
      rfl
    simp only [userJobsGroupKeyFromPath, unpulled.1, unpulled.2, found, numbered_read, run_text]
  | branch owner repo head sha =>
    have path : pathOf (GroupKey.branch owner repo head sha).segments =
        "/github/branches/".toList ++ (encodeURIComponent owner.text ++
          '/' :: (encodeURIComponent repo.text ++
            '/' :: (encodeURIComponent sha.text ++ "/jobs".toList))) := by
      rw [GroupKey.segments, pathOf_jobs "branches" (by simp)]
      rfl
    have others : capture pullPath (pathOf (GroupKey.branch owner repo head sha).segments) = none ∧
        capture legacyPullPath (pathOf (GroupKey.branch owner repo head sha).segments) = none ∧
        capture runPath (pathOf (GroupKey.branch owner repo head sha).segments) = none ∧
        capture legacyRunPath (pathOf (GroupKey.branch owner repo head sha).segments) = none := by
      rw [path]
      exact ⟨capture_apart (by decide) _ _, capture_apart (by decide) _ _,
        capture_apart (by decide) _ _, capture_apart (by decide) _ _⟩
    -- the commit alone is behind the repository, so the pattern with a branch has a slash too many
    have unbranched : capture branchPath (pathOf (GroupKey.branch owner repo head sha).segments) =
        none := by
      have one : (encodeURIComponent sha.text).count '/' = 0 := by
        apply List.count_eq_zero.mpr
        intro member
        exact absurd (encoded_segment sha.text '/' member) (by decide)
      rw [path, branchPath, capture_repository _ owner.filled repo.filled, capture_few '/']
      · rfl
      · rw [List.count_append, one]
        decide
    have found : capture branchQueryPath (pathOf (GroupKey.branch owner repo head sha).segments) =
        some [encodeURIComponent owner.text, encodeURIComponent repo.text,
          encodeURIComponent sha.text] := by
      rw [path, branchQueryPath, capture_repository _ owner.filled repo.filled, segment,
        capture_jobs (by decide) (encoded_filled sha.filled) (encoded_segment sha.text)]
      rfl
    simp only [userJobsGroupKeyFromPath, others, unbranched, found, parseSearch_searchOf,
      kept owner repo head sha rfl, encoded_read, branchKeyOf, head.filled, sha.filled, or_self,
      if_false, repository_read owner.filled repo.filled, branch_text]
    simp
  | manual owner repo id =>
    have path : pathOf (GroupKey.manual owner repo id).segments = "/jobs/manual/".toList ++
        (encodeURIComponent owner.text ++ '/' :: (encodeURIComponent repo.text ++
          '/' :: encodeURIComponent id.text)) := pathOf_manual _ _ _
    have others : capture pullPath (pathOf (GroupKey.manual owner repo id).segments) = none ∧
        capture legacyPullPath (pathOf (GroupKey.manual owner repo id).segments) = none ∧
        capture runPath (pathOf (GroupKey.manual owner repo id).segments) = none ∧
        capture legacyRunPath (pathOf (GroupKey.manual owner repo id).segments) = none ∧
        capture branchPath (pathOf (GroupKey.manual owner repo id).segments) = none ∧
        capture branchQueryPath (pathOf (GroupKey.manual owner repo id).segments) = none ∧
        capture legacyBranchPath (pathOf (GroupKey.manual owner repo id).segments) = none := by
      rw [path]
      exact ⟨capture_apart (by decide) _ _, capture_apart (by decide) _ _,
        capture_apart (by decide) _ _, capture_apart (by decide) _ _,
        capture_apart (by decide) _ _, capture_apart (by decide) _ _,
        capture_apart (by decide) _ _⟩
    have found : capture manualPath (pathOf (GroupKey.manual owner repo id).segments) =
        some [encodeURIComponent owner.text, encodeURIComponent repo.text,
          encodeURIComponent id.text] := by
      rw [path, manualPath, capture_repository _ owner.filled repo.filled, segment,
        capture_end (encoded_filled id.filled) (encoded_segment id.text)]
      rfl
    simp only [userJobsGroupKeyFromPath, others, found, encoded_read, id.filled, if_false,
      repository_read owner.filled repo.filled, manual_text]
    simp

theorem address_append (path : Chars) (params : SearchParams) :
    address path params = path ++ searchOf params := by
  by_cases bare : params = [] <;> simp [address, searchOf, bare]

/-- The parameters of a group's address with this job, or with none. -/
def GroupKey.paramsWith (key : GroupKey) (job : Chars) : SearchParams :=
  if job = [] then key.params else setParam "job".toList job key.params

theorem groupAddress_text (key : GroupKey) (job : Chars) :
    groupAddress key.text job = address (pathOf key.segments) (key.paramsWith job) := by
  rw [groupAddress, GroupKey.paramsWith, userJobsPath_text]
  by_cases alone : job = []
  · rw [if_pos alone, if_pos alone]
  · rw [if_neg alone, if_neg alone, withSearchParam_address (pathOf_unasked key.segments)]

theorem paramsWith_job (key : GroupKey) (job : Chars) :
    getParam "job".toList (key.paramsWith job) = job := by
  rw [GroupKey.paramsWith]
  by_cases alone : job = []
  · rw [if_pos alone, alone]
    cases key with
    | branch owner repo head sha =>
      have apart : ("branch".toList == "job".toList) = false := by decide
      simp only [GroupKey.params, getParam, List.find?_cons, apart, List.find?_nil]
      rfl
    | pull | run | manual => rfl
  · rw [if_neg alone, getParam_setParam]

theorem paramsWith_branch (key : GroupKey) (job : Chars) (owner repo : Part) (head : Branch)
    (sha : Part) (branched : key = .branch owner repo head sha) :
    getParam "branch".toList (key.paramsWith job) = head.text := by
  have own : getParam "branch".toList key.params = head.text := by
    rw [branched, GroupKey.params, getParam, List.find?_cons, beq_self_eq_true]
    rfl
  rw [GroupKey.paramsWith]
  by_cases alone : job = []
  · rw [if_pos alone, own]
  · rw [if_neg alone, getParam_other (by decide), own]

theorem segments_filled (key : GroupKey) : key.segments ≠ [] := by
  cases key <;> simp [GroupKey.segments]

theorem visit_groupAddress (key : GroupKey) (job : Chars) : visit (groupAddress key.text job) =
    ⟨pathOf key.segments, searchOf (key.paramsWith job)⟩ := by
  rw [groupAddress_text, visit_address key.visible (segments_filled key)]

theorem location_read (key : GroupKey) (job : Chars) :
    userJobsGroupKeyFromLocation (pathOf key.segments) (searchOf (key.paramsWith job)) =
      key.text := by
  have filled : key.text ≠ [] := by
    cases key <;> simp [pull_text, run_text, branch_text, manual_text]
  have read : userJobsGroupKeyFromPath (pathOf key.segments) (searchOf (key.paramsWith job)) =
      key.text := groupKey_read key (paramsWith_branch key job)
  simp only [userJobsGroupKeyFromLocation, read, ne_eq, filled, not_false_eq_true, if_true]

/-- The address of a group, with or without one of its jobs, leads back to the group
and the job, and is left as it is when the page is opened there. -/
theorem address_returns (key : GroupKey) (job : Chars) :
    let location := visit (groupAddress key.text job)
    userJobsGroupKeyFromLocation location.path location.search = key.text ∧
      userJobIDFromSearch location.search = job ∧
      withPreservedJobSearch (userJobsPath key.text) location.search =
        location.path ++ location.search := by
  rw [visit_groupAddress]
  refine ⟨location_read key job, ?_, ?_⟩
  · rw [userJobIDFromSearch, parseSearch_searchOf, paramsWith_job]
  · -- setting the job again writes the address that was pushed
    have again := groupAddress_text key job
    rw [groupAddress] at again
    rw [withPreservedJobSearch, parseSearch_searchOf, paramsWith_job, again, address_append]

end Returning

end Runnerd.JobAddresses
