import Mathlib.Data.List.AList
import Runnerd.JobGroups
import Runnerd.Numerals

/-!
Pages of a listing and the links between them, from
`internal/server/server_auth_helpers.go`, and the listing of a user's runners. A URL is
read by its query, as `url.Values`; `Encode` writes what `ParseQuery` reads.

Offsets and limits are `int`, totals are `int64`, and both have 64 bits.
-/

namespace Runnerd

open GoText

section Links

abbrev QueryValues := AList fun _ : String => List String

def QueryValues.get (query : QueryValues) (key : String) : String :=
  ((query.lookup key).getD []).headD ""

def QueryValues.set (query : QueryValues) (key value : String) : QueryValues :=
  query.insert key [value]

structure PageURL where
  path : String
  query : QueryValues

inductive LinkRel where
  | prev
  | next
  deriving DecidableEq

structure PageLink where
  rel : LinkRel
  url : PageURL

structure PaginationHeaders where
  totalCount : String
  limit : String
  offset : String
  links : List PageLink

def parsePagination (query : QueryValues) (defaultLimit maxLimit : Int) :
    Except String (Int × Int) :=
  let rawLimit := trimSpace (query.get "limit")
  let rawOffset := trimSpace (query.get "offset")
  match if rawLimit = "" then some defaultLimit
      else (parseInt64 rawLimit).filter fun parsed => decide (0 < parsed) with
  | none => .error "limit must be a positive integer"
  | some limit =>
      let limit := if maxLimit > 0 ∧ limit > maxLimit then maxLimit else limit
      match if rawOffset = "" then some 0
          else (parseInt64 rawOffset).filter fun parsed => decide (0 ≤ parsed) with
      | none => .error "offset must be a non-negative integer"
      | some offset => .ok (limit, offset)

def pageURL (url : PageURL) (limit offset : Int) : PageURL :=
  { url with query := (url.query.set "limit" (toString limit)).set "offset" (toString offset) }

def prevLinks (url : PageURL) (limit offset : Int) : List PageLink :=
  if offset > 0 then
    let prevOffset := int64 (offset - limit)
    let prevOffset := if prevOffset < 0 then 0 else prevOffset
    [⟨.prev, pageURL url limit prevOffset⟩]
  else []

def nextLinks (url : PageURL) (linkTotal limit offset maxWindow : Int) : List PageLink :=
  let nextOffset := int64 (offset + limit)
  if nextOffset < linkTotal then
    let nextLimit :=
      if maxWindow > 0 ∧ int64 (nextOffset + limit) > maxWindow then int64 (maxWindow - nextOffset)
      else limit
    if nextLimit > 0 then [⟨.next, pageURL url nextLimit nextOffset⟩] else []
  else []

def writePaginationHeadersWithinWindow (url : PageURL) (total limit offset maxWindow : Int) :
    PaginationHeaders :=
  let linkTotal := if maxWindow > 0 ∧ total > maxWindow then maxWindow else total
  { totalCount := toString total
    limit := toString limit
    offset := toString offset
    links := prevLinks url limit offset ++ nextLinks url linkTotal limit offset maxWindow }

def writePaginationHeaders (url : PageURL) (total limit offset : Int) : PaginationHeaders :=
  writePaginationHeadersWithinWindow url total limit offset 0

/-- The bounds that a listing gives to `parsePagination`. -/
structure PageLimits where
  defaultLimit : Int
  maxLimit : Int
  positive : 0 < defaultLimit
  fits : defaultLimit < 2 ^ 63

def runnerRequestLimits : PageLimits where
  defaultLimit := 100
  maxLimit := 500
  positive := by decide
  fits := by decide

def PageLimits.parse (limits : PageLimits) (url : PageURL) : Except String (Int × Int) :=
  parsePagination url.query limits.defaultLimit limits.maxLimit

end Links

section Parsing

@[simp] theorem get_set_same (query : QueryValues) (key value : String) :
    (query.set key value).get key = value := by
  simp [QueryValues.get, QueryValues.set]

@[simp] theorem get_set_other (query : QueryValues) {key other : String} (value : String)
    (different : key ≠ other) : (query.set other value).get key = query.get key := by
  rw [QueryValues.get, QueryValues.set, AList.lookup_insert_ne different, QueryValues.get]

variable {limits : PageLimits} {url : PageURL} {limit offset : Int}

theorem parsed_range (parsed : limits.parse url = .ok (limit, offset)) :
    (0 < limit ∧ limit < 2 ^ 63 ∧ (0 < limits.maxLimit → limit ≤ limits.maxLimit)) ∧
      0 ≤ offset ∧ offset < 2 ^ 63 := by
  unfold PageLimits.parse parsePagination at parsed
  dsimp only at parsed
  split at parsed
  · cases parsed
  · rename_i found read
    have positive : 0 < found ∧ found < 2 ^ 63 := by
      split at read
      · cases read
        exact ⟨limits.positive, limits.fits⟩
      · obtain ⟨number, above⟩ := Option.filter_eq_some_iff.mp read
        exact ⟨of_decide_eq_true above, (parseInt64_range number).2⟩
    split at parsed
    · cases parsed
    · rename_i start read'
      have natural : 0 ≤ start ∧ start < 2 ^ 63 := by
        split at read'
        · cases read'
          exact ⟨le_rfl, by decide⟩
        · obtain ⟨number, above⟩ := Option.filter_eq_some_iff.mp read'
          exact ⟨of_decide_eq_true above, (parseInt64_range number).2⟩
      simp only [Except.ok.injEq, Prod.mk.injEq] at parsed
      obtain ⟨rfl, rfl⟩ := parsed
      refine ⟨?_, natural⟩
      by_cases capped : limits.maxLimit > 0 ∧ found > limits.maxLimit
      · rw [if_pos capped]
        omega
      · rw [if_neg capped]
        omega

/-- The URL of a page is read as that page. -/
theorem pageURL_parsed (url : PageURL) (some_ : 0 < limit) (fits : limit < 2 ^ 63)
    (capped : 0 < limits.maxLimit → limit ≤ limits.maxLimit) (start : 0 ≤ offset)
    (fits' : offset < 2 ^ 63) : limits.parse (pageURL url limit offset) = .ok (limit, offset) := by
  have number (value : Int) (low : 0 ≤ value) (high : value < 2 ^ 63) :
      parseInt64 (toString value) = some value := parseInt64_toString (by omega) high
  have rawLimit : (pageURL url limit offset).query.get "limit" = toString limit :=
    (get_set_other _ _ (by decide)).trans (get_set_same _ _ _)
  have rawOffset : (pageURL url limit offset).query.get "offset" = toString offset :=
    get_set_same _ _ _
  have below : ¬(limits.maxLimit > 0 ∧ limit > limits.maxLimit) := by omega
  simp only [PageLimits.parse, parsePagination, rawLimit, rawOffset, trimSpace_toString,
    toString_nonempty, if_false, number limit (by omega) fits, number offset start fits',
    Option.filter_some, some_, start, decide_true, if_true, below]

end Parsing

section Emitted

variable {limits : PageLimits} {url : PageURL} {total limit offset maxWindow linkTotal : Int}

/-- A difference of two natural numbers does not wrap. -/
theorem int64_difference {first second : Int} (one : 0 ≤ first ∧ first < 2 ^ 63)
    (two : 0 ≤ second ∧ second < 2 ^ 63) : int64 (first - second) = first - second := by
  rw [int64]
  apply Int.bmod_eq_of_le_mul_two
  · omega
  · omega

/-- A sum of two natural numbers that does not fit wraps below zero. -/
theorem int64_sum_wraps {first second : Int} (one : 0 ≤ first ∧ first < 2 ^ 63)
    (two : 0 ≤ second ∧ second < 2 ^ 63) (large : 2 ^ 63 ≤ first + second) :
    int64 (first + second) = first + second - 2 ^ 64 := by
  rw [int64]
  have shifted := Int.sub_bmod_right (first + second) (2 ^ 64)
  rw [← shifted]
  apply Int.bmod_eq_of_le_mul_two
  · omega
  · omega

variable (url) in
/-- The link to the page before is read as that page. -/
theorem prevLinks_parsed (range : 0 < limit ∧ limit < 2 ^ 63 ∧
      (0 < limits.maxLimit → limit ≤ limits.maxLimit)) (start : 0 ≤ offset ∧ offset < 2 ^ 63) :
    ∀ link ∈ prevLinks url limit offset, link.rel = .prev ∧
      limits.parse link.url = .ok (limit, max 0 (offset - limit)) := by
  intro link member
  unfold prevLinks at member
  dsimp only at member
  rw [int64_difference start ⟨range.1.le, range.2.1⟩] at member
  by_cases later : offset > 0
  · rw [if_pos later, List.mem_singleton] at member
    subst member
    have back : (if offset - limit < 0 then 0 else offset - limit) = max 0 (offset - limit) := by
      omega
    refine ⟨rfl, ?_⟩
    dsimp only
    rw [back]
    exact pageURL_parsed url range.1 range.2.1 range.2.2 (by omega) (by omega)
  · rw [if_neg later] at member
    cases member

variable (url limit) in
theorem prevLinks_iff : (∃ link, link ∈ prevLinks url limit offset) ↔ 0 < offset := by
  unfold prevLinks
  by_cases later : offset > 0
  · simp [later]
  · simp [later]

/-- Without a window the link to the next page has the limit of this one. -/
theorem nextLinks_unbounded : nextLinks url linkTotal limit offset 0 =
    if int64 (offset + limit) < linkTotal ∧ 0 < limit then
      [⟨.next, pageURL url limit (int64 (offset + limit))⟩] else [] := by
  unfold nextLinks
  by_cases more : int64 (offset + limit) < linkTotal
  · simp [more]
  · simp [more]

/-- What the links of a page have to be. -/
structure LinksRight (limits : PageLimits) (total limit offset : Int) (links : List PageLink) :
    Prop where
  next : (∃ link ∈ links, link.rel = .next) ↔ offset + limit < total
  prev : (∃ link ∈ links, link.rel = .prev) ↔ 0 < offset
  accepted : ∀ link ∈ links, ∃ page, limits.parse link.url = .ok page

theorem links_right (parsed : limits.parse url = .ok (limit, offset))
    (small : offset + limit < 2 ^ 63) :
    LinksRight limits total limit offset (writePaginationHeaders url total limit offset).links := by
  obtain ⟨range, start⟩ := parsed_range parsed
  have fits : int64 (offset + limit) = offset + limit :=
    int64_fits _ (by omega) (by omega)
  have links : (writePaginationHeaders url total limit offset).links =
      prevLinks url limit offset ++ if offset + limit < total then
        [⟨.next, pageURL url limit (offset + limit)⟩] else [] := by
    simp only [writePaginationHeaders, writePaginationHeadersWithinWindow, nextLinks_unbounded, fits,
      lt_irrefl, false_and, if_false, range.1, and_true, gt_iff_lt]
  have before := prevLinks_parsed url range start
  rw [links]
  constructor
  · by_cases more : offset + limit < total
    · simp [more]
    · simp only [more, if_false, List.append_nil, iff_false]
      rintro ⟨link, member, rel⟩
      rw [(before link member).1] at rel
      cases rel
  · rw [← prevLinks_iff url limit]
    constructor
    · rintro ⟨link, member, rel⟩
      rcases List.mem_append.mp member with here | next
      · exact ⟨link, here⟩
      · split at next
        · cases List.mem_singleton.mp next
          cases rel
        · cases next
    · rintro ⟨link, member⟩
      exact ⟨link, List.mem_append_left _ member, (before link member).1⟩
  · intro link member
    rcases List.mem_append.mp member with here | next
    · exact ⟨_, (before link here).2⟩
    · split at next
      · rw [List.mem_singleton.mp next]
        exact ⟨_, pageURL_parsed url range.1 range.2.1 range.2.2 (by omega) small⟩
      · cases next

/-- A next page beyond the largest offset is linked to at a negative offset. -/
theorem links_wrong (parsed : limits.parse url = .ok (limit, offset)) (counted : 0 ≤ total)
    (fits : total < 2 ^ 63) (large : 2 ^ 63 ≤ offset + limit) :
    ¬LinksRight limits total limit offset (writePaginationHeaders url total limit offset).links := by
  obtain ⟨range, start⟩ := parsed_range parsed
  intro right
  have wraps := int64_sum_wraps start ⟨range.1.le, range.2.1⟩ large
  have more : int64 (offset + limit) < total ∧ 0 < limit := by omega
  have next := right.next.mp ⟨⟨.next, pageURL url limit (int64 (offset + limit))⟩, ?_, rfl⟩
  · omega
  · simp only [writePaginationHeaders, writePaginationHeadersWithinWindow, nextLinks_unbounded,
      lt_irrefl, false_and, if_false, gt_iff_lt]
    rw [if_pos more]
    exact List.mem_append_right _ (List.mem_singleton.mpr rfl)

end Emitted

theorem pagination_links_iff (limits : PageLimits) (url : PageURL) (total limit offset : Int)
    (parsed : limits.parse url = .ok (limit, offset)) (counted : 0 ≤ total) (fits : total < 2 ^ 63) :
    LinksRight limits total limit offset (writePaginationHeaders url total limit offset).links ↔
      offset + limit < 2 ^ 63 := by
  constructor
  · intro right
    by_contra large
    exact links_wrong parsed counted fits (not_lt.mp large) right
  · exact links_right parsed

/-- A request for the last offset that an `int` holds. -/
def lastOffset : PageURL :=
  ⟨"/runner_requests", QueryValues.set ∅ "offset" "9223372036854775807"⟩

theorem lastOffset_parsed :
    runnerRequestLimits.parse lastOffset = .ok (100, 9223372036854775807) := by decide +kernel

theorem pagination_links_last :
    LinksRight runnerRequestLimits 0 100 9223372036854775807
        (writePaginationHeaders lastOffset 0 100 9223372036854775807).links ↔
      (9223372036854775807 : Int) + 100 < 2 ^ 63 :=
  pagination_links_iff runnerRequestLimits lastOffset 0 100 9223372036854775807 lastOffset_parsed
    (by decide) (by decide)

/-- There are no rows, and the listing names a next page. -/
theorem pagination_link_wraps :
    runnerRequestLimits.parse lastOffset = .ok (100, 9223372036854775807) ∧
      ¬LinksRight runnerRequestLimits 0 100 9223372036854775807
        (writePaginationHeaders lastOffset 0 100 9223372036854775807).links :=
  ⟨lastOffset_parsed, links_wrong lastOffset_parsed (by decide) (by decide) (by decide)⟩

end Runnerd
