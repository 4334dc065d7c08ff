import Runnerd.Pagination

/-!
The listing of a user's runners, followed from its first page along the links to the
next one. The last page before the end of the history window is cut to end there.
-/

namespace Runnerd

section Handler

/-- What `ListStatesForGitHubInstallationRepositories` answers. -/
abbrev StateLister :=
  List GitHubInstallationRepositoryAccess → Int → Int → Except String (List RunnerState × Int)

def maxUserRunnerHistoryWindow : Nat := 500

def handleUserListRunners (limits : PageLimits) (window : Int) (listStates : StateLister)
    (request : UserRequest) (url : PageURL) :
    Except HttpError (PaginationHeaders × List RunnerState) :=
  match requireUserSession request with
  | .error err => .error err
  | .ok account =>
      match limits.parse url with
      | .error err => .error ⟨400, "", err⟩
      | .ok (limit, offset) =>
          if offset > int64 (window - limit) then
            .error ⟨400, "",
              "requested page exceeds the " ++ toString window ++ "-runner history window"⟩
          else
            match repositoryAccess request account with
            | .error err => .error err
            | .ok access =>
                match listStates access limit offset with
                | .error err => .error ⟨500, "", err⟩
                | .ok (states, total) =>
                    .ok (writePaginationHeadersWithinWindow url total limit offset window, states)

def PaginationHeaders.next (headers : PaginationHeaders) : Option PageURL :=
  (headers.links.find? fun link => decide (link.rel = .next)).map fun link => link.url

/-- Whoever follows the links to the next page is served these pages, and no link leads
on from the last one. -/
inductive Visits (serve : PageURL → Except HttpError (PaginationHeaders × List RunnerState)) :
    PageURL → List (List RunnerState) → Prop where
  | last {url headers page} (served : serve url = .ok (headers, page)) (ends : headers.next = none) :
      Visits serve url [page]
  | onward {url next headers page pages} (served : serve url = .ok (headers, page))
      (leads : headers.next = some next) (rest : Visits serve next pages) :
      Visits serve url (page :: pages)

/-- The links lead one way. -/
theorem Visits.unique {serve : PageURL → Except HttpError (PaginationHeaders × List RunnerState)}
    {url : PageURL} {one two : List (List RunnerState)} (first : Visits serve url one)
    (second : Visits serve url two) : one = two := by
  induction first generalizing two with
  | last served ends =>
      cases second with
      | last served' =>
          rw [served] at served'
          cases served'
          rfl
      | onward served' leads =>
          rw [served] at served'
          cases served'
          rw [ends] at leads
          cases leads
  | onward served leads _ ih =>
      cases second with
      | last served' ends =>
          rw [served] at served'
          cases served'
          rw [ends] at leads
          cases leads
      | onward served' leads' rest =>
          rw [served] at served'
          cases served'
          rw [leads] at leads'
          cases leads'
          rw [ih rest]

/-- The rows stay the same, and are paged in their order. -/
structure FixedResults (list : Int → Int → Except String (List RunnerState × Int))
    (maxLimit : Int) (rows : List RunnerState) : Prop where
  counted : (rows.length : Int) < 2 ^ 63
  pages : ∀ limit offset, 0 < limit → limit ≤ maxLimit → 0 ≤ offset →
    list limit offset = .ok ((rows.drop offset.toNat).take limit.toNat, rows.length)

/-- The store pages its rows so, while nobody writes to it. -/
theorem listing_fixed (order : RangeOrder (Sigma fun _ : String => RunnerRequestRecord))
    (table : CountedTable) (access : List GitHubInstallationRepositoryAccess)
    (ascii : AsciiAccess access) :
    FixedResults (fun limit offset =>
        .ok (listStatesForGitHubInstallationRepositories order table access limit offset))
      runnerRequestLimits.maxLimit ((grantedRows table.toRequestTable access).map listedState) where
  counted := by
    rw [List.length_map, grantedRows_length]
    exact_mod_cast List.countP_le_length.trans_lt table.counted
  pages limit offset positive capped _ := by
    have small : limit ≤ 500 := capped
    have length : pageLimit limit = limit.toNat := if_neg (by omega)
    rw [listing_eq_page order table access limit offset ascii, length, SortedPages.page,
      List.map_take, List.map_drop, List.length_map]

end Handler

section Following

variable {limits : PageLimits} {listStates : StateLister} {request : UserRequest}
variable {account : Int} {access : List GitHubInstallationRepositoryAccess} {rows : List RunnerState}
variable {url : PageURL} {window limit offset : Nat}

/-- The end of the last page, when all pages are as long as the first. -/
def lastPageEnd (visible limit : Nat) : Nat := limit * ((visible + limit - 1) / limit)

theorem page_before_last {visible : Nat} (positive : 0 < limit) (starts : limit ∣ offset)
    (inside : offset < visible) : offset + limit ≤ lastPageEnd visible limit := by
  obtain ⟨pages, rfl⟩ := starts
  have enough : pages + 1 ≤ (visible + limit - 1) / limit := by
    rw [Nat.le_div_iff_mul_le positive, Nat.add_mul, Nat.mul_comm pages]
    omega
  calc limit * pages + limit = limit * (pages + 1) := rfl
    _ ≤ lastPageEnd visible limit := Nat.mul_le_mul_left limit enough

/-- The link to the next page, where the end of that page fits an `int64`. -/
theorem nextLinks_fit {linkTotal : Nat} (positive : 0 < limit) (bound : window < 2 ^ 63)
    (inside : offset + limit ≤ window) (least : linkTotal ≤ window)
    (fits : offset + limit < linkTotal → offset + limit + limit < 2 ^ 63) :
    nextLinks url linkTotal limit offset window =
      if offset + limit < linkTotal then
        [⟨.next, pageURL url (min limit (window - (offset + limit)) : Nat) (offset + limit : Nat)⟩]
      else [] := by
  have sum : int64 (offset + limit) = (offset + limit : Nat) := by
    rw [int64_fits _ (by omega) (by omega)]
    omega
  unfold nextLinks
  dsimp only
  rw [sum]
  by_cases more : offset + limit < linkTotal
  · have ends : int64 ((offset + limit : Nat) + limit) = (offset + limit + limit : Nat) := by
      have small := fits more
      rw [int64_fits _ (by omega) (by omega)]
      omega
    have rest : int64 (window - (offset + limit : Nat)) = (window - (offset + limit) : Nat) := by
      rw [int64_difference ⟨by omega, by omega⟩ ⟨by omega, by omega⟩]
      omega
    have length : (if (window : Int) > 0 ∧ ((offset + limit + limit : Nat) : Int) > window then
        ((window - (offset + limit) : Nat) : Int) else limit) =
        (min limit (window - (offset + limit)) : Nat) := by omega
    rw [ends, rest, length, if_pos (by omega), if_pos (by omega), if_pos more]
  · rw [if_neg (by omega), if_neg more]

/-- Where the end of the next page does not fit, the sum wraps and the page is not cut. -/
theorem nextLinks_wrap {linkTotal : Nat} (positive : 0 < limit) (bound : window < 2 ^ 63)
    (inside : offset + limit ≤ window) (more : offset + limit < linkTotal) (short : limit < 2 ^ 63)
    (large : 2 ^ 63 ≤ offset + limit + limit) :
    nextLinks url linkTotal limit offset window =
      [⟨.next, pageURL url limit (offset + limit : Nat)⟩] := by
  have sum : int64 (offset + limit) = (offset + limit : Nat) := by
    rw [int64_fits _ (by omega) (by omega)]
    omega
  have ends : int64 ((offset + limit : Nat) + limit) = (offset + limit : Nat) + limit - 2 ^ 64 :=
    int64_sum_wraps ⟨by omega, by omega⟩ ⟨by omega, by omega⟩ (by omega)
  unfold nextLinks
  dsimp only
  have whole : (if (window : Int) > 0 ∧ (offset + limit : Nat) + (limit : Int) - 2 ^ 64 > window then
      int64 (window - (offset + limit : Nat)) else (limit : Int)) = limit := if_neg (by omega)
  rw [sum, ends, whole, if_pos (by omega), if_pos (by omega)]

theorem nextLinks_rel {linkTotal limit offset maxWindow : Int} :
    ∀ link ∈ nextLinks url linkTotal limit offset maxWindow, link.rel = .next := by
  intro link member
  unfold nextLinks at member
  dsimp only at member
  generalize (if maxWindow > 0 ∧ int64 (int64 (offset + limit) + limit) > maxWindow then
    int64 (maxWindow - int64 (offset + limit)) else limit) = nextLimit at member
  by_cases more : int64 (offset + limit) < linkTotal
  · by_cases some_ : nextLimit > 0
    · rw [if_pos more, if_pos some_, List.mem_singleton] at member
      rw [member]
    · rw [if_pos more, if_neg some_] at member
      cases member
  · rw [if_neg more] at member
    cases member

theorem next_of_links {prev next : List PageLink} (back : ∀ link ∈ prev, link.rel = .prev)
    (on : ∀ link ∈ next, link.rel = .next) :
    ((prev ++ next).find? fun link => decide (link.rel = .next)) = next.head? := by
  have none_ : (prev.find? fun link => decide (link.rel = .next)) = none := by
    refine List.find?_eq_none.mpr fun link member => ?_
    simp [back link member]
  rw [List.find?_append, none_, Option.none_or]
  cases next with
  | nil => rfl
  | cons first rest => simp [on first List.mem_cons_self]

/-- What one request of the chain is answered. -/
structure Serving (limits : PageLimits) (window : Nat) (listStates : StateLister)
    (request : UserRequest) (rows : List RunnerState) : Prop where
  signed : ∃ account access, request.session = some account ∧
    request.userAuthorizedRepositoryAccess account = .ok access ∧
    FixedResults (listStates access) limits.maxLimit rows
  capped : 0 < limits.maxLimit ∧ limits.maxLimit ≤ window
  bound : window < 2 ^ 63

theorem served (serving : Serving limits window listStates request rows)
    (parsed : limits.parse url = .ok ((limit : Int), (offset : Int)))
    (inside : offset + limit ≤ window) :
    ∃ headers, handleUserListRunners limits window listStates request url =
        .ok (headers, (rows.drop offset).take limit) ∧
      headers.next = (nextLinks url (min rows.length window : Nat) limit offset window).head?.map
        fun link => link.url := by
  obtain ⟨range, start⟩ := parsed_range parsed
  obtain ⟨account, access, session, grants, fixed⟩ := serving.signed
  have bound := serving.bound
  have room : int64 (window - limit) = window - limit :=
    int64_difference ⟨by omega, by omega⟩ ⟨by omega, by omega⟩
  have total : (if (window : Int) > 0 ∧ (rows.length : Int) > window then (window : Int)
      else rows.length) = (min rows.length window : Nat) := by
    have positive := serving.capped
    omega
  have pages := fixed.pages limit offset range.1 (range.2.2 serving.capped.1) start.1
  refine ⟨writePaginationHeadersWithinWindow url rows.length limit offset window, ?_, ?_⟩
  · simp only [handleUserListRunners, requireUserSession, session, parsed, room, repositoryAccess,
      grants, pages, Int.toNat_natCast]
    rw [if_neg (by omega)]
  · unfold PaginationHeaders.next writePaginationHeadersWithinWindow
    dsimp only
    rw [total, next_of_links (fun link member => (prevLinks_parsed url range start link member).1)]
    exact nextLinks_rel

/-- A page that ends after the window is rejected. -/
theorem rejected_beyond (bound : window < 2 ^ 63) (signed : request.session = some account)
    (parsed : limits.parse url = .ok ((limit : Int), (offset : Int)))
    (beyond : window < offset + limit) :
    ∃ err, handleUserListRunners limits window listStates request url = .error err := by
  obtain ⟨range, start⟩ := parsed_range parsed
  have room : int64 (window - limit) = window - limit :=
    int64_difference ⟨by omega, by omega⟩ ⟨by omega, by omega⟩
  simp only [handleUserListRunners, requireUserSession, signed, parsed, room]
  rw [if_pos (by omega)]
  exact ⟨_, rfl⟩

/-- From a page that ends within the window, the links lead on to the last item. -/
theorem visits_from (serving : Serving limits window listStates request rows) (left : Nat) :
    ∀ (url : PageURL) (limit offset : Nat), window - offset ≤ left →
      limits.parse url = .ok ((limit : Int), (offset : Int)) → offset + limit ≤ window →
      (offset + limit = window ∨
        limit ∣ offset ∧ lastPageEnd (min rows.length window) limit < 2 ^ 63) →
      ∃ pages, Visits (handleUserListRunners limits window listStates request) url pages ∧
        pages.flatten = (rows.drop offset).take (min rows.length window - offset) := by
  induction left with
  | zero =>
      intro url limit offset none_ parsed inside _
      have positive := (parsed_range parsed).1.1
      omega
  | succ left ih =>
      intro url limit offset size parsed inside even
      obtain ⟨range, start⟩ := parsed_range parsed
      have positive : 0 < limit := by omega
      have bound := serving.bound
      obtain ⟨headers, answer, next⟩ := served serving parsed inside
      have fits : offset + limit < min rows.length window → offset + limit + limit < 2 ^ 63 := by
        intro more
        rcases even with ends | ⟨starts, whole⟩
        · omega
        · have later := page_before_last positive (Nat.dvd_add starts (Nat.dvd_refl limit)) more
          omega
      rw [nextLinks_fit positive bound inside (Nat.min_le_right _ _) fits] at next
      by_cases more : offset + limit < min rows.length window
      · rw [if_pos more] at next
        have length : 0 < min limit (window - (offset + limit)) := by omega
        have read : limits.parse (pageURL url (min limit (window - (offset + limit)) : Nat)
            (offset + limit : Nat)) =
            .ok (((min limit (window - (offset + limit)) : Nat) : Int), ((offset + limit : Nat) : Int)) :=
          pageURL_parsed url (by omega) (by omega) (fun capped => by have := range.2.2 capped; omega)
            (by omega) (by omega)
        obtain ⟨pages, visits, flat⟩ := ih _ _ _ (by omega) read (by omega) (by
          by_cases cut : window - (offset + limit) ≤ limit
          · exact .inl (by omega)
          · rw [Nat.min_eq_left (by omega)]
            rcases even with ends | ⟨starts, whole⟩
            · omega
            · exact .inr ⟨Nat.dvd_add starts (Nat.dvd_refl limit), whole⟩)
        refine ⟨_ :: pages, .onward answer next visits, ?_⟩
        have split_ : min rows.length window - offset =
            limit + (min rows.length window - (offset + limit)) := by omega
        rw [List.flatten_cons, flat, split_, List.take_add, List.drop_drop]
      · rw [if_neg more] at next
        refine ⟨_, .last answer next, ?_⟩
        rw [List.flatten_cons, List.flatten_nil, List.append_nil, List.take_eq_take_iff,
          List.length_drop]
        omega

theorem last_page {visible : Nat} (positive : 0 < limit) (starts : limit ∣ offset)
    (ends : visible ≤ offset + limit) : lastPageEnd visible limit ≤ offset + limit := by
  obtain ⟨pages, rfl⟩ := starts
  have few : (visible + limit - 1) / limit ≤ pages + 1 := by
    rw [← Nat.lt_succ_iff, Nat.div_lt_iff_lt_mul positive, Nat.succ_mul, Nat.succ_mul,
      Nat.mul_comm pages]
    omega
  calc lastPageEnd visible limit ≤ limit * (pages + 1) := Nat.mul_le_mul_left limit few
    _ = limit * pages + limit := rfl

/-- Where the last page does not end within an `int64`, the link to it is not cut, and the
page is rejected. -/
theorem stuck_from (serving : Serving limits window listStates request rows) {url : PageURL}
    {pages : List (List RunnerState)}
    (visits : Visits (handleUserListRunners limits window listStates request) url pages)
    (beyond : 2 ^ 63 ≤ lastPageEnd (min rows.length window) limit) :
    ∀ offset : Nat, limits.parse url = .ok ((limit : Int), (offset : Int)) → limit ∣ offset →
      ¬offset + limit < min rows.length window := by
  have bound := serving.bound
  -- what the link of a page before the last one leads to
  have leads {url : PageURL} {offset : Nat} {headers : PaginationHeaders} {page : List RunnerState}
      (parsed : limits.parse url = .ok ((limit : Int), (offset : Int))) (starts : limit ∣ offset)
      (more : offset + limit < min rows.length window)
      (answer : handleUserListRunners limits window listStates request url = .ok (headers, page)) :
      headers.next = some (pageURL url limit (offset + limit : Nat)) ∧
        (offset + limit + limit < min rows.length window ∨ window < offset + limit + limit) := by
    obtain ⟨range, _⟩ := parsed_range parsed
    have positive : 0 < limit := by omega
    have inside : offset + limit ≤ window := by omega
    obtain ⟨headers', answer', next⟩ := served serving parsed inside
    rw [answer] at answer'
    cases answer'
    by_cases wraps : 2 ^ 63 ≤ offset + limit + limit
    · rw [nextLinks_wrap positive bound inside more (by omega) wraps] at next
      exact ⟨next, .inr (by omega)⟩
    · have further : offset + limit + limit < min rows.length window := by
        by_contra ends
        have short := last_page positive (Nat.dvd_add starts (Nat.dvd_refl limit)) (not_lt.mp ends)
        omega
      rw [nextLinks_fit positive bound inside (Nat.min_le_right _ _) (fun _ => by omega),
        if_pos more, Nat.min_eq_left (show limit ≤ window - (offset + limit) by omega)] at next
      exact ⟨next, .inl further⟩
  induction visits with
  | last answer ends =>
      intro offset parsed starts more
      rw [(leads parsed starts more answer).1] at ends
      cases ends
  | @onward url next headers page pages answer link rest ih =>
      intro offset parsed starts more
      obtain ⟨same, further⟩ := leads parsed starts more answer
      rw [link] at same
      cases same
      obtain ⟨range, _⟩ := parsed_range parsed
      have read : limits.parse (pageURL url limit (offset + limit : Nat)) =
          .ok ((limit : Int), ((offset + limit : Nat) : Int)) :=
        pageURL_parsed url range.1 range.2.1 range.2.2 (by omega) (by omega)
      rcases further with within_ | beyond_
      · exact ih (offset + limit) read (Nat.dvd_add starts (Nat.dvd_refl limit)) within_
      · obtain ⟨account, access, session, _, _⟩ := serving.signed
        obtain ⟨err, rejected⟩ := rejected_beyond bound session read beyond_
        cases rest with
        | last answer _ =>
            rw [rejected] at answer
            cases answer
        | onward answer _ _ =>
            rw [rejected] at answer
            cases answer

end Following

theorem next_pages_visit_all (limits : PageLimits) (window : Nat) (listStates : StateLister)
    (request : UserRequest) (rows : List RunnerState)
    (serving : Serving limits window listStates request rows) (url : PageURL) (limit : Nat)
    (parsed : limits.parse url = .ok ((limit : Int), 0))
    (fits : lastPageEnd (min rows.length window) limit < 2 ^ 63) :
    ∃ pages, Visits (handleUserListRunners limits window listStates request) url pages ∧
      pages.flatten = rows.take (min rows.length window) := by
  obtain ⟨range, _⟩ := parsed_range parsed
  have inside : 0 + limit ≤ window := by
    have capped := range.2.2 serving.capped.1
    have least := serving.capped.2
    omega
  obtain ⟨pages, visits, flat⟩ := visits_from serving window url limit 0 (by omega) parsed inside
    (.inr ⟨Nat.dvd_zero limit, fits⟩)
  exact ⟨pages, visits, by simpa using flat⟩

/-- A store that pages these rows, for any access. -/
def pagesOf (rows : List RunnerState) : StateLister := fun _ limit offset =>
  .ok ((rows.drop offset.toNat).take limit.toNat, rows.length)

def signedIn : UserRequest where
  session := some 7
  userAuthorizedRepositoryAccess _ := .ok []

theorem serving_pages (window : Nat) (rows : List RunnerState) (capped : 500 ≤ window)
    (bound : window < 2 ^ 63) (counted : rows.length < 2 ^ 63) :
    Serving runnerRequestLimits window (pagesOf rows) signedIn rows where
  signed := ⟨7, [], rfl, rfl, by exact_mod_cast counted, fun _ _ _ _ _ => rfl⟩
  capped := ⟨by decide, show (500 : Int) ≤ window by exact_mod_cast capped⟩
  bound := bound

def firstPage (limit : String) : PageURL := ⟨"/user/runner_requests", QueryValues.set ∅ "limit" limit⟩

def queuedRows : List RunnerState :=
  [{ id := "1", status := .queued }, { id := "2", status := .queued }, { id := "3", status := .queued }]

theorem next_pages_visit_three :
    ∃ pages, Visits (handleUserListRunners runnerRequestLimits maxUserRunnerHistoryWindow
        (pagesOf queuedRows) signedIn) (firstPage "2") pages ∧
      pages.flatten = queuedRows.take (min queuedRows.length maxUserRunnerHistoryWindow) :=
  next_pages_visit_all runnerRequestLimits maxUserRunnerHistoryWindow (pagesOf queuedRows) signedIn
    queuedRows (serving_pages maxUserRunnerHistoryWindow queuedRows (by decide) (by decide)
      (by decide)) (firstPage "2") 2 (by decide +kernel) (by decide)

/-- With the longest window there is, the pages of as many rows do not end. -/
theorem longest_window_stuck (rows : List RunnerState) (size : rows.length = 2 ^ 63 - 1) :
    Serving runnerRequestLimits (2 ^ 63 - 1) (pagesOf rows) signedIn rows ∧
      runnerRequestLimits.parse (firstPage "500") = .ok (500, 0) ∧
      ¬∃ pages, Visits (handleUserListRunners runnerRequestLimits (2 ^ 63 - 1 : Nat) (pagesOf rows)
        signedIn) (firstPage "500") pages := by
  have serving : Serving runnerRequestLimits (2 ^ 63 - 1) (pagesOf rows) signedIn rows :=
    serving_pages _ rows (by decide) (by decide) (by rw [size]; decide)
  have parsed : runnerRequestLimits.parse (firstPage "500") = .ok (500, 0) := by decide +kernel
  refine ⟨serving, parsed, ?_⟩
  rintro ⟨pages, visits⟩
  have beyond : 2 ^ 63 ≤ lastPageEnd (min rows.length (2 ^ 63 - 1)) 500 := by
    rw [size]
    decide
  have stuck := stuck_from serving visits beyond 0 parsed (Nat.dvd_zero 500)
  rw [size] at stuck
  exact stuck (by decide)

theorem next_pages_stuck :
    Serving runnerRequestLimits (2 ^ 63 - 1)
        (pagesOf (List.replicate (2 ^ 63 - 1) { id := "1", status := .queued })) signedIn
        (List.replicate (2 ^ 63 - 1) { id := "1", status := .queued }) ∧
      runnerRequestLimits.parse (firstPage "500") = .ok (500, 0) ∧
      ¬∃ pages, Visits (handleUserListRunners runnerRequestLimits (2 ^ 63 - 1 : Nat)
        (pagesOf (List.replicate (2 ^ 63 - 1) { id := "1", status := .queued })) signedIn)
        (firstPage "500") pages :=
  longest_window_stuck _ List.length_replicate

end Runnerd
