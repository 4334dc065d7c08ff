import Runnerd.JobAddresses
import Runnerd.JobPartition

/-!
The request that the console sends for a group, and what the server answers: the
routes of job groups of `internal/server/server.go`, their handlers in
`internal/server/server_terminal.go` and Go's reading of the request's target.
-/

namespace Runnerd.JobLinks

open JobAddresses
open LossyText (encode)
open Paths (rootedAt slash)
open Urls (Text URL code ascii)
open UriText

section Routing

/-- `http.ReadRequest` on the target of a request. -/
def requestURL (target : Text) : Option URL :=
  let query := Urls.takeQuery target
  URL.setPath { forceQuery := query.2.1, rawQuery := query.2.2 } query.1

/-- The `cleanPath` of `http.ServeMux`. -/
def cleanPath (path : Text) : Text :=
  if path = [] then [slash]
  else
    let rooted := if path.head? = some slash then path else slash :: path
    let cleaned := Paths.clean rooted
    if rooted.getLast? = some slash ∧ cleaned ≠ [slash] then cleaned ++ [slash] else cleaned

def pathUnescape (name : Text) : Text := (Urls.unescape name).getD name

inductive RoutePart where
  | word (text : String)
  /-- `{name}`, which takes no trailing slash. -/
  | value

/-- The values of a pattern of `http.ServeMux` on the segments of a path. -/
def routeValues : List RoutePart → List Text → Option (List Text)
  | [], [] => some []
  | .word text :: parts, name :: rest =>
      if pathUnescape name = ascii text then routeValues parts rest else none
  | .value :: parts, name :: rest =>
      if name = [] then none
      else (routeValues parts rest).map (pathUnescape name :: ·)
  | _, _ => none

def pullRoute : List RoutePart :=
  [.word "user", .word "github", .word "pulls", .value, .value, .value, .word "jobs"]

def runRoute : List RoutePart :=
  [.word "user", .word "github", .word "runs", .value, .value, .value, .word "jobs"]

def commitRoute : List RoutePart :=
  [.word "user", .word "github", .word "branches", .value, .value, .value, .word "jobs"]

def branchRoute : List RoutePart :=
  [.word "user", .word "github", .word "branches", .value, .value, .value, .value, .word "jobs"]

end Routing

section Handlers

variable (orders : RangeOrders) (table : CountedTable) (request : UserRequest)

def repositoryFromPath (owner repo : Text) : Text :=
  Redirects.trimSpace owner ++ slash :: Redirects.trimSpace repo

/-- `enrichUserRunnerJobGroup` adds a title afterwards and is left out. -/
def handleUserGetRunnerJobGroupByKey (key : Text) : Except HttpError UserRunnerJobGroup :=
  match userRunnerStatesForRequest orders table request with
  | .error err => .error err
  | .ok states =>
      match (runnerJobGroups orders.groups states).find? fun group =>
          encode group.key.toList == key with
      | some group => .ok group
      | none => .error ⟨404, "", "job group not found"⟩

/-- The two handlers of a number. -/
def handleNumbered (kind message : String) (owner repo number : Text) :
    Except HttpError UserRunnerJobGroup :=
  match parseInt64 (String.ofList (LossyText.decode number)) with
  | none => .error ⟨400, "", message⟩
  | some value =>
      if value ≤ 0 then .error ⟨400, "", message⟩
      else
        handleUserGetRunnerJobGroupByKey orders table request
          (ascii kind ++ repositoryFromPath owner repo ++ code ':' :: ascii (toString value))

def handleUserGetGitHubPullJobGroup (owner repo number : Text) :
    Except HttpError UserRunnerJobGroup :=
  handleNumbered orders table request "pr:" "invalid pull request number" owner repo number

def handleUserGetGitHubRunJobGroup (owner repo runID : Text) :
    Except HttpError UserRunnerJobGroup :=
  handleNumbered orders table request "run:" "invalid workflow run id" owner repo runID

/-- Without a branch in the path it is read from the query. -/
def handleUserGetGitHubBranchJobGroup (owner repo branch sha query : Text) :
    Except HttpError UserRunnerJobGroup :=
  let branch := Redirects.trimSpace branch
  let branch :=
    if branch = [] then Redirects.trimSpace (Redirects.queryGet (ascii "branch") query) else branch
  let sha := Redirects.trimSpace sha
  if branch = [] ∨ sha = [] then .error ⟨400, "", "branch and sha are required"⟩
  else
    handleUserGetRunnerJobGroupByKey orders table request
      (ascii "branch:" ++ repositoryFromPath owner repo ++ code ':' :: branch ++ code ':' :: sha)

inductive GroupReply where
  | malformed
  | redirected (path : Text)
  /-- No route of a job group. -/
  | elsewhere
  | answered (reply : Except HttpError UserRunnerJobGroup)

def serveURL (url : URL) : GroupReply :=
  let path := cleanPath url.escapedPath
  if path ≠ url.escapedPath then .redirected path
  else
    let segments := (path.splitOn slash).tail
    match routeValues pullRoute segments with
    | some [owner, repo, number] =>
        .answered (handleUserGetGitHubPullJobGroup orders table request owner repo number)
    | _ =>
    match routeValues runRoute segments with
    | some [owner, repo, runID] =>
        .answered (handleUserGetGitHubRunJobGroup orders table request owner repo runID)
    | _ =>
    match routeValues commitRoute segments with
    | some [owner, repo, sha] =>
        .answered (handleUserGetGitHubBranchJobGroup orders table request owner repo [] sha
          url.rawQuery)
    | _ =>
    match routeValues branchRoute segments with
    | some [owner, repo, branch, sha] =>
        .answered (handleUserGetGitHubBranchJobGroup orders table request owner repo branch sha
          url.rawQuery)
    | _ => .elsewhere

/-- What the server answers to the `fetch` of a path by a page of the console. -/
def serveFetch (path : Chars) : GroupReply :=
  let location := visit path
  match requestURL (encode (location.path ++ location.search)) with
  | none => .malformed
  | some url => serveURL orders table request url

end Handlers

section Arriving

theorem encodedByte_valid {c : UInt8} (listed : Redirects.isEncodedByte c = true ∨ c = slash) :
    (Urls.oneOf "!$&'()*+,;=:@[]%" c || !Urls.shouldEscape c .path) = true := by
  have all : (List.range 128).all (fun value =>
      !(Redirects.isEncodedByte (UInt8.ofNat value) || UInt8.ofNat value == slash) ||
        (Urls.oneOf "!$&'()*+,;=:@[]%" (UInt8.ofNat value) ||
          !Urls.shouldEscape (UInt8.ofNat value) .path)) = true := by
    decide +kernel
  have low : c < 128 := by
    rcases listed with encoded | rfl
    · exact encodedByte_low encoded
    · decide
  have here := List.all_eq_true.mp all c.toNat (List.mem_range.mpr (UInt8.lt_iff_toNat_lt.mp low))
  simp only [UInt8.ofNat_toNat, Bool.or_eq_true, Bool.not_eq_true', Bool.or_eq_false_iff,
    beq_eq_false_iff_ne, ne_eq] at here
  rcases here with unlisted | valid
  · rcases listed with encoded | slashed
    · simp [encoded] at unlisted
    · exact absurd slashed unlisted.2
  · simpa using valid

theorem unescape_joined (texts : List Chars) :
    Urls.unescape ([slash].intercalate (texts.map segmentBytes)) =
      some ([slash].intercalate (texts.map encode)) := by
  induction texts with
  | nil => rfl
  | cons text rest ih =>
    cases rest with
    | nil => simpa using segmentBytes_text text
    | cons next rest =>
      have plain : slash ≠ code '%' := by decide
      rw [List.map_cons, List.map_cons, List.intercalate_cons_cons, List.append_assoc,
        Urls.unescape_append (segmentBytes_text text), List.singleton_append,
        Urls.unescape_cons plain, ← List.map_cons, ih]
      simp [List.intercalate_cons_cons]

theorem unescape_rooted (texts : List Chars) :
    Urls.unescape (rootedAt (texts.map segmentBytes)) = some (rootedAt (texts.map encode)) := by
  have plain : slash ≠ code '%' := by decide
  rw [rootedAt, Urls.unescape_cons plain, unescape_joined]
  rfl

/-- The path that the routes see is the one that was sent. -/
theorem escapedPath_sent {url parsed : URL} (texts : List Chars)
    (read : url.setPath (rootedAt (texts.map segmentBytes)) = some parsed) :
    parsed.escapedPath = rootedAt (texts.map segmentBytes) := by
  rw [URL.setPath, unescape_rooted, Option.map_some, Option.some.injEq] at read
  have rooted : rootedAt (texts.map encode) ≠ ascii "*" := by
    intro same
    exact absurd (List.cons.inj same).1 (by decide)
  by_cases canonical : rootedAt (texts.map segmentBytes) =
      Urls.escape .path (rootedAt (texts.map encode))
  · rw [if_pos canonical] at read
    subst read
    simp only [URL.escapedPath, ne_eq, not_true_eq_false, false_and, if_false, rooted]
    exact canonical.symm
  · rw [if_neg canonical] at read
    have valid : Urls.validEncoded .path (rootedAt (texts.map segmentBytes)) = true := by
      rw [Urls.validEncoded, List.all_eq_true]
      exact fun c member => encodedByte_valid (rootedBytes_listed member)
    have filled : rootedAt (texts.map segmentBytes) ≠ [] := List.cons_ne_nil _ _
    subst read
    simp only [URL.escapedPath, ne_eq, filled, not_false_eq_true, valid, unescape_rooted, and_self,
      if_true]

theorem takeQuery_searchOf (params : SearchParams) :
    Urls.takeQuery (encode (searchOf params)) =
      ([], false, if params = [] then [] else searchBytes params) := by
  by_cases bare : params = []
  · subst bare
    rfl
  · have unasked : code '?' ∉ searchBytes params :=
      searchBytes_absent (by decide) (by decide) (by decide) params
    have bytes : encode (searchOf params) = code '?' :: searchBytes params := by
      rw [searchOf, if_neg bare, encode_cons_ascii (by decide), encode_searchText]
      rfl
    have filled : searchBytes params ≠ [] := by
      intro empty
      apply searchText_filled bare
      rw [searchText]
      exact congrArg runes empty
    have last : (code '?' :: searchBytes params).getLast? ≠ some (code '?') := by
      rw [List.getLast?_cons_of_ne_nil filled]
      exact fun same => unasked (List.mem_of_getLast? same)
    rw [bytes, Urls.takeQuery, if_neg fun both => last both.1, if_neg bare]
    simp [Urls.cut]

theorem setPath_query {url parsed : URL} {text : Text} (read : url.setPath text = some parsed) :
    parsed.rawQuery = url.rawQuery := by
  obtain ⟨path, -, rfl⟩ := Option.map_eq_some_iff.mp read
  rfl

/-- The values of a pattern on segments that are read already. -/
def routeTexts : List RoutePart → List Text → Option (List Text)
  | [], [] => some []
  | .word text :: parts, read :: rest => if read = ascii text then routeTexts parts rest else none
  | .value :: parts, read :: rest => (routeTexts parts rest).map (read :: ·)
  | _, _ => none

/-- A request for visible segments arrives as it was sent. -/
theorem requestURL_address {texts : List Chars} (visible : ∀ text ∈ texts, Visible text)
    (some_ : texts ≠ []) (params : SearchParams) : ∃ url,
    requestURL (encode ((visit (address (pathOf texts) params)).path ++
      (visit (address (pathOf texts) params)).search)) = some url ∧
    url.escapedPath = rootedAt (texts.map segmentBytes) ∧
    url.rawQuery = if params = [] then [] else searchBytes params := by
  have unasked : code '?' ∉ rootedAt (texts.map segmentBytes) :=
    fun member => (rootedBytes_passes member).2.2.1 rfl
  have query := Urls.takeQuery_append unasked (encode (searchOf params))
  rw [takeQuery_searchOf] at query
  rw [visit_address visible some_, LossyText.encode_append, encode_pathOf, requestURL, query]
  simp only [List.append_nil]
  obtain ⟨parsed, read⟩ : ∃ parsed, URL.setPath
      { forceQuery := false, rawQuery := if params = [] then [] else searchBytes params }
      (rootedAt (texts.map segmentBytes)) = some parsed := by
    rw [URL.setPath, unescape_rooted]
    exact ⟨_, rfl⟩
  exact ⟨parsed, read, escapedPath_sent texts read, setPath_query read⟩

theorem cleanPath_sent {texts : List Chars} (visible : ∀ text ∈ texts, Visible text)
    (some_ : texts ≠ []) :
    cleanPath (rootedAt (texts.map segmentBytes)) = rootedAt (texts.map segmentBytes) := by
  have below : ∀ name ∈ texts.map segmentBytes, Paths.Below name := by
    intro name member
    obtain ⟨text, listed, rfl⟩ := List.mem_map.mp member
    exact segment_below (visible text listed)
  have last := Paths.rootedAt_last below (by simpa using some_)
  have filled : rootedAt (texts.map segmentBytes) ≠ [] := List.cons_ne_nil _ _
  have rooted : (rootedAt (texts.map segmentBytes)).head? = some slash := rfl
  simp only [cleanPath, filled, if_false, rooted, if_true, Paths.clean_rootedAt below, last,
    false_and]

/-- The parts of a route on segments that were sent: words are met by themselves, values are
what was encoded. -/
theorem routeValues_sent {texts : List Chars} (visible : ∀ text ∈ texts, Visible text)
    (parts : List RoutePart) : routeValues parts (texts.map segmentBytes) =
      routeTexts parts (texts.map encode) := by
  induction texts generalizing parts with
  | nil => cases parts with
    | nil => rfl
    | cons part parts => cases part <;> rfl
  | cons text rest ih =>
    have later := fun parts => ih (fun other member => visible other (List.mem_cons_of_mem text member)) parts
    have read : pathUnescape (segmentBytes text) = encode text := by
      rw [pathUnescape, segmentBytes_text]
      rfl
    have filled := (segment_below (visible text List.mem_cons_self)).1
    cases parts with
    | nil => rfl
    | cons part parts =>
      cases part with
      | word word => simp only [List.map_cons, routeValues, routeTexts, read, later]
      | value => simp only [List.map_cons, routeValues, routeTexts, read, filled, if_false, later]

end Arriving

section Serving

theorem pathOf_user {texts : List Chars} (some_ : texts ≠ []) :
    pathOf ("user".toList :: texts) = "/user".toList ++ pathOf texts := by
  obtain ⟨first, rest, rfl⟩ := List.exists_cons_of_ne_nil some_
  have word : encodeURIComponent "user".toList = "user".toList := by decide +kernel
  have front : "/user".toList = '/' :: "user".toList := rfl
  rw [pathOf, pathOf, List.map_cons, List.map_cons, List.intercalate_cons_cons, word, front]
  simp

/-- The server is asked for the path of the page, behind `/user`. -/
theorem userJobGroupAPIPath_text {key : GroupKey} (asked : key.asked = true) :
    userJobGroupAPIPath key.text = address (pathOf ("user".toList :: key.segments)) key.params := by
  have page := userJobsPath_text key
  rw [pathOf_user (segments_filled key)]
  cases key with
  | pull owner repo number =>
    have filled : (GroupKey.pull owner repo number).text ≠ [] := by simp [pull_text]
    have front : "/user/github/pulls/".toList = "/user".toList ++ "/github/pulls/".toList := rfl
    rw [userJobsPath, if_neg filled, capture_pullKey] at page
    rw [userJobGroupAPIPath, if_neg filled, capture_pullKey]
    simp only [GroupKey.params, address, if_true] at page ⊢
    rw [← page, front]
    simp only [List.append_assoc]
  | run owner repo number =>
    have filled : (GroupKey.run owner repo number).text ≠ [] := by simp [run_text]
    have front : "/user/github/runs/".toList = "/user".toList ++ "/github/runs/".toList := rfl
    rw [userJobsPath, if_neg filled, run_alone, capture_runKey] at page
    rw [userJobGroupAPIPath, if_neg filled, run_alone, capture_runKey]
    simp only [GroupKey.params, address, if_true] at page ⊢
    rw [← page, front]
    simp only [List.append_assoc]
  | branch owner repo head sha =>
    have filled : (GroupKey.branch owner repo head sha).text ≠ [] := by simp [branch_text]
    have others := branch_alone owner repo head sha
    have front : "/user/github/branches/".toList = "/user".toList ++ "/github/branches/".toList := rfl
    have path : "/user/github/branches/".toList ++
        encodeRepositoryPath (owner.text ++ '/' :: repo.text) ++
        '/' :: encodeURIComponent sha.text ++ "/jobs".toList =
          address ("/user".toList ++ pathOf (GroupKey.branch owner repo head sha).segments) [] := by
      rw [GroupKey.segments, pathOf_jobs "branches" (by simp), front, repository_shown]
      simp only [address, if_true, List.append_assoc]
      simp
    have unasked : '?' ∉ "/user".toList ++ pathOf (GroupKey.branch owner repo head sha).segments := by
      rw [← pathOf_user (segments_filled _)]
      exact pathOf_unasked _
    rw [userJobGroupAPIPath, if_neg filled, others.1, others.2, capture_branchKey]
    simp only [path, withSearchParam_address unasked]
    rfl
  | manual owner repo id => simp [GroupKey.asked] at asked

def Trimmed (text : Chars) : Prop := Redirects.trimSpace (encode text) = encode text

/-- The server reads the parts of the key as they are. -/
def Served : GroupKey → Prop
  | .pull owner repo number | .run owner repo number =>
      Trimmed owner.text ∧ Trimmed repo.text ∧ 0 < number ∧ number < 2 ^ 63
  | .branch owner repo head sha =>
      Trimmed owner.text ∧ Trimmed repo.text ∧ Trimmed head.text ∧ Trimmed sha.text
  | .manual _ _ _ => True

theorem words_ascii : ∀ word ∈ ["user", "github", "pulls", "runs", "branches", "jobs", "branch",
    "pr:", "run:", "branch:"], encode word.toList = ascii word := by
  decide +kernel

theorem digits_toString (number : Nat) : (toString (number : Int)).toList = digits number := by
  rw [Int.toString_eq_repr]
  exact Nat.toList_repr

theorem number_read {number : Nat} (small : number < 2 ^ 63) :
    parseInt64 (String.ofList (LossyText.decode (encode (digits number)))) = some (number : Int) := by
  rw [LossyText.decode_encode, ← digits_toString, String.ofList_toList]
  exact parseInt64_toString (by omega) (by omega)

theorem repository_fetched {owner repo : Chars} (named : Trimmed owner) (solid : Trimmed repo) :
    repositoryFromPath (encode owner) (encode repo) = encode (owner ++ '/' :: repo) := by
  rw [repositoryFromPath, named, solid, LossyText.encode_append, encode_cons_ascii (by decide)]
  rfl

theorem queryGet_param (name value : Chars) :
    Redirects.queryGet (encode name) (searchBytes [(name, value)]) = encode value := by
  have whole : (paramBytes (name, value)).splitOn (code '&') = [paramBytes (name, value)] :=
    List.splitOn_eq_singleton (paramBytes_absent (by decide) (by decide) (name, value))
  have unended : code ';' ∉ paramBytes (name, value) :=
    paramBytes_absent (by decide) (by decide) (name, value)
  have filled : paramBytes (name, value) ≠ [] := by simp [paramBytes]
  have parts : Urls.cut (code '=') (paramBytes (name, value)) =
      (formBytes (encode name), formBytes (encode value)) :=
    Urls.cut_first (formed_absent (by decide) (encode name)) _
  have single : searchBytes [(name, value)] = paramBytes (name, value) := by
    simp [searchBytes]
  rw [Redirects.queryGet, single, whole]
  simp [filled, unended, parts, queryUnescape_formBytes]

variable (orders : RangeOrders) (table : CountedTable) (request : UserRequest)

theorem numbered_served (kind message : String) (spelled : encode kind.toList = ascii kind)
    {owner repo : Part} {number : Nat} (named : Trimmed owner.text) (solid : Trimmed repo.text)
    (some_ : 0 < number) (small : number < 2 ^ 63) :
    handleNumbered orders table request kind message (encode owner.text) (encode repo.text)
      (encode (digits number)) =
        handleUserGetRunnerJobGroupByKey orders table request (encode (kind.toList ++
          ((owner.text ++ '/' :: repo.text) ++ ':' :: digits number))) := by
  have positive : ¬ (number : Int) ≤ 0 := by omega
  have spelledNumber : ascii (toString (number : Int)) = encode (digits number) := by
    rw [ascii, digits_toString, encode_digits]
  have colon : encode (':' :: digits number) = code ':' :: encode (digits number) :=
    encode_cons_ascii (by decide) _
  simp only [handleNumbered, number_read small, positive, if_false, repository_fetched named solid,
    spelledNumber, LossyText.encode_append, spelled, colon, List.append_assoc]

/-- The request of a group's page looks for this group. -/
theorem serveFetch_key {key : GroupKey} (asked : key.asked = true) (served : Served key) :
    serveFetch orders table request (userJobGroupAPIPath key.text) =
      .answered (handleUserGetRunnerJobGroupByKey orders table request (encode key.text)) := by
  have visible : ∀ text ∈ "user".toList :: key.segments, Visible text := by
    intro text member
    rcases List.mem_cons.mp member with rfl | later
    · decide
    · exact key.visible text later
  have some_ : "user".toList :: key.segments ≠ [] := List.cons_ne_nil _ _
  obtain ⟨url, read, path, query⟩ := requestURL_address visible some_ key.params
  have below : ∀ name ∈ ("user".toList :: key.segments).map segmentBytes, Paths.Below name := by
    intro name member
    obtain ⟨text, listed, rfl⟩ := List.mem_map.mp member
    exact segment_below (visible text listed)
  have segments : (rootedAt (("user".toList :: key.segments).map segmentBytes)).splitOn slash =
      [] :: ("user".toList :: key.segments).map segmentBytes :=
    Paths.splitOn_rootedAt below (by simp)
  rw [serveFetch, userJobGroupAPIPath_text asked]
  simp only [read, serveURL, path, cleanPath_sent visible some_, ne_eq, not_true_eq_false, if_false,
    segments, List.tail_cons, routeValues_sent visible, query]
  -- the routes are of one shape, and differ in their third word
  have apart : ascii "runs" ≠ ascii "pulls" ∧ ascii "branches" ≠ ascii "pulls" ∧
      ascii "branches" ≠ ascii "runs" := by decide
  have user := words_ascii "user" (by simp)
  have github := words_ascii "github" (by simp)
  have jobs := words_ascii "jobs" (by simp)
  cases key with
  | pull owner repo number =>
    obtain ⟨named, solid, positive, small⟩ := served
    have pulls := words_ascii "pulls" (by simp)
    have spelled := words_ascii "pr:" (by simp)
    simp only [GroupKey.segments, List.map_cons, List.map_nil, pullRoute, routeTexts, user, github,
      jobs, pulls, if_true, Option.map_some, handleUserGetGitHubPullJobGroup, pull_text,
      numbered_served orders table request "pr:" _ spelled named solid positive small]
  | run owner repo number =>
    obtain ⟨named, solid, positive, small⟩ := served
    have runs := words_ascii "runs" (by simp)
    have spelled := words_ascii "run:" (by simp)
    simp only [GroupKey.segments, List.map_cons, List.map_nil, pullRoute, runRoute, routeTexts, user,
      github, jobs, runs, apart, if_true, if_false, Option.map_some, handleUserGetGitHubRunJobGroup,
      run_text, numbered_served orders table request "run:" _ spelled named solid positive small]
  | branch owner repo head sha =>
    obtain ⟨named, solid, headed, trimmed⟩ := served
    have branches := words_ascii "branches" (by simp)
    have spelled := words_ascii "branch:" (by simp)
    have asked := queryGet_param "branch".toList head.text
    rw [words_ascii "branch" (by simp)] at asked
    have whole : encode head.text ≠ [] ∧ encode sha.text ≠ [] :=
      ⟨fun empty => head.filled (encode_injective empty), fun empty => sha.filled (encode_injective empty)⟩
    have nothing : Redirects.trimSpace [] = [] := rfl
    have colon (text : Chars) : encode (':' :: text) = code ':' :: encode text :=
      encode_cons_ascii (by decide) text
    have slashed (text : Chars) : encode ('/' :: text) = slash :: encode text :=
      encode_cons_ascii (by decide) text
    have params : [("branch".toList, head.text)] ≠ [] := List.cons_ne_nil _ _
    have headed : Redirects.trimSpace (encode head.text) = encode head.text := headed
    have trimmed : Redirects.trimSpace (encode sha.text) = encode sha.text := trimmed
    simp only [GroupKey.segments, List.map_cons, List.map_nil, pullRoute, runRoute, commitRoute,
      routeTexts, user, github, jobs, branches, apart, if_true, if_false, Option.map_some,
      handleUserGetGitHubBranchJobGroup, nothing, params, GroupKey.params, asked, headed, trimmed,
      whole, or_self, repository_fetched named solid, branch_text, LossyText.encode_append, spelled,
      colon, slashed, List.append_assoc, List.cons_append]
  | manual owner repo id => simp [GroupKey.asked] at asked

end Serving

section Groups

/-- What GitHub names is free of separators, and its numbers are positive. -/
structure Linkable (st : RunnerState) : Prop where
  repository : ∃ owner repo : JobAddresses.Part, Trimmed owner.text ∧ Trimmed repo.text ∧
    st.repositoryFullName.toList = owner.text ++ '/' :: repo.text
  pull : 0 ≤ st.pullRequestNumber ∧ st.pullRequestNumber < 2 ^ 63
  run : 0 ≤ st.workflowRunID ∧ st.workflowRunID < 2 ^ 63
  branch : GoText.trimSpace st.headBranch = "" ∨
    ∃ head : Branch, Trimmed head.text ∧ st.headBranch.toList = head.text
  sha : st.headSHA = "" ∨
    ∃ sha : JobAddresses.Part, Trimmed sha.text ∧ st.headSHA.toList = sha.text
  id : ∃ id : JobAddresses.Part, st.id.toList = id.text

theorem toList_number {number : Int} (from_ : 0 ≤ number) :
    (toString number).toList = digits number.toNat := by
  obtain ⟨value, rfl⟩ := Int.eq_ofNat_of_zero_le from_
  exact digits_toString value

theorem detached_filled : "detached".toList ≠ [] := by
  decide

theorem detached_lines : ∀ c ∈ "detached".toList, isLineTerminator c = false := by
  have all : ("detached".toList.all fun c => !isLineTerminator c) = true := by decide
  intro c member
  simpa using List.all_eq_true.mp all c member

def detached : Branch := ⟨"detached".toList, detached_filled, detached_lines⟩

theorem branch_shown {st : RunnerState} (linkable : Linkable st) : ∃ head : Branch,
    Trimmed head.text ∧ (firstNonEmpty [st.headBranch, "detached"]).toList = head.text := by
  by_cases blank : GoText.trimSpace st.headBranch = ""
  · have kept : (GoText.trimSpace "detached" != "") = true := by decide
    refine ⟨detached, by unfold Trimmed; decide +kernel, ?_⟩
    simp only [firstNonEmpty, List.find?_cons, blank, bne_self_eq_false, kept]
    rfl
  · obtain ⟨head, trimmed, headText⟩ := linkable.branch.resolve_left blank
    refine ⟨head, trimmed, ?_⟩
    have kept : (GoText.trimSpace st.headBranch != "") = true := by simpa using blank
    simp only [firstNonEmpty, List.find?_cons, kept, Option.getD_some, headText]

/-- The key of a linkable job is a key of the four kinds. -/
theorem seed_key {st : RunnerState} (linkable : Linkable st) {number : Int}
    (small : 0 ≤ number ∧ number < 2 ^ 63) : ∃ key : GroupKey,
      (runnerJobGroupSeed st st.repositoryFullName number).key.toList = key.text ∧ Served key := by
  obtain ⟨owner, repo, named, solid, repository⟩ := linkable.repository
  unfold runnerJobGroupSeed
  by_cases pulled : number ≠ 0
  · refine ⟨.pull owner repo number.toNat, ?_, named, solid, by omega, by omega⟩
    simp only [pulled, ne_eq, not_false_eq_true, if_true, String.toList_append, repository,
      toList_number small.1, pull_text]
    simp
  · by_cases committed : st.headSHA ≠ ""
    · obtain ⟨sha, trimmed, shaText⟩ := linkable.sha.resolve_left committed
      have headed : ∃ head : Branch, Trimmed head.text ∧
          (firstNonEmpty [st.headBranch, "detached"]).toList = head.text :=
        branch_shown linkable
      obtain ⟨head, kept, headText⟩ := headed
      refine ⟨.branch owner repo head sha, ?_, named, solid, kept, trimmed⟩
      simp only [pulled, committed, ne_eq, not_false_eq_true, if_true, if_false,
        String.toList_append, repository, headText, shaText, branch_text]
      simp
    · by_cases started : st.workflowRunID ≠ 0
      · have positive := linkable.run
        refine ⟨.run owner repo st.workflowRunID.toNat, ?_, named, solid, by omega, by omega⟩
        simp only [pulled, committed, started, ne_eq, not_false_eq_true, if_true, if_false,
          String.toList_append, repository, toList_number positive.1, run_text]
        simp
      · obtain ⟨id, idText⟩ := linkable.id
        refine ⟨.manual owner repo id, ?_, trivial⟩
        simp only [pulled, committed, started, if_false, String.toList_append, repository, idText,
          manual_text]
        simp

variable {states : List RunnerState}

theorem jobSeed_key (linkable : ∀ st ∈ states, Linkable st) {st : RunnerState} (member : st ∈ states) :
    ∃ key : GroupKey,
      (jobSeed (prByRepositoryAndSHA states) st).key.toList = key.text ∧ Served key := by
  have own := linkable st member
  have repository : st.repositoryFullName ≠ "" := by
    obtain ⟨owner, repo, -, -, named⟩ := own.repository
    intro empty
    simp [empty] at named
  rw [jobSeed, if_neg repository]
  apply seed_key own
  by_cases inferred : st.pullRequestNumber = 0 ∧ st.headSHA ≠ ""
  · rw [if_pos inferred]
    cases found : (prByRepositoryAndSHA states).lookup (st.repositoryFullName ++ ":" ++ st.headSHA) with
    | none => simp
    | some number =>
      -- another job of the commit says its pull request
      obtain ⟨other, listed, places⟩ := placed_sound found
      rw [Option.getD_some, ← places.2.1]
      exact (linkable other listed).pull
  · rw [if_neg inferred]
    exact own.pull

theorem group_key (linkable : ∀ st ∈ states, Linkable st)
    {order : RangeOrder (Sigma fun _ : String => UserRunnerJobGroup)} {group : UserRunnerJobGroup}
    (member : group ∈ runnerJobGroups order states) :
    ∃ key : GroupKey, group.key.toList = key.text ∧ Served key := by
  obtain ⟨some_, -⟩ := serverGroups_hold member
  obtain ⟨st, job⟩ := List.exists_mem_of_ne_nil _ some_
  obtain ⟨⟨listed, -⟩, same⟩ := mem_jobsOf.mp job
  rw [← same]
  exact jobSeed_key linkable listed

theorem group_found {order : RangeOrder (Sigma fun _ : String => UserRunnerJobGroup)}
    {group : UserRunnerJobGroup} (member : group ∈ runnerJobGroups order states) :
    (runnerJobGroups order states).find? (fun other =>
      encode other.key.toList == encode group.key.toList) = some group := by
  have distinct := keys_distinct states order
  generalize runnerJobGroups order states = groups at member distinct
  induction groups with
  | nil => cases member
  | cons first rest ih =>
    rw [List.map_cons, List.nodup_cons] at distinct
    rcases List.mem_cons.mp member with rfl | later
    · simp
    · have apart : first.key ≠ group.key := fun same =>
        distinct.1 (same ▸ List.mem_map.mpr ⟨group, later, rfl⟩)
      have bytes : (encode first.key.toList == encode group.key.toList) = false := by
        rw [beq_eq_false_iff_ne]
        intro same
        exact apart (String.toList_inj.mp (encode_injective same))
      rw [List.find?_cons, bytes]
      exact ih later distinct.2

/-- Whatever job of it is opened, the page of a group that is opened again names the
group, and what it fetches is this group; a manual job has no group to fetch. -/
theorem group_reopened (orders : RangeOrders) (table : CountedTable) (request : UserRequest)
    (listed : userRunnerStatesForRequest orders table request = .ok states)
    (linkable : ∀ st ∈ states, Linkable st) {group : UserRunnerJobGroup}
    (member : group ∈ runnerJobGroups orders.groups states) (job : Chars) :
    let location := visit (groupAddress group.key.toList job)
    let key := userJobsGroupKeyFromLocation location.path location.search
    key = group.key.toList ∧
      ("manual:".toList <+: key ∧ userJobGroupAPIPath key = [] ∨
        serveFetch orders table request (userJobGroupAPIPath key) = .answered (.ok group)) := by
  obtain ⟨key, text, served⟩ := group_key linkable member
  rw [text, visit_groupAddress]
  simp only [location_read]
  refine ⟨trivial, ?_⟩
  by_cases asked : key.asked = true
  · right
    rw [serveFetch_key orders table request asked served, handleUserGetRunnerJobGroupByKey, listed,
      ← text]
    simp only [group_found member]
  · left
    cases key with
    | manual owner repo id =>
      have filled : (GroupKey.manual owner repo id).text ≠ [] := by simp [manual_text]
      have others := manual_alone owner repo id
      rw [userJobGroupAPIPath, if_neg filled, others.1, others.2.1, others.2.2, manual_text]
      exact ⟨List.prefix_append _ _, rfl⟩
    | pull | run | branch => simp [GroupKey.asked] at asked

/-- A push to a branch with a colon in its name. -/
def branchRow : RunnerRequestRecord :=
  { id := "42", status := .queued, githubInstallationID := 7, repositoryFullName := "octo/repo"
    headBranch := "feat/x:y", headSHA := "c0ffee" }

theorem branchRow_clean : sanitizeID branchRow.id = branchRow.id := by
  decide

theorem branchRow_granted : granted [⟨7, ["octo/repo"]⟩] branchRow = true := by
  have named : sqlLower (GoText.trimSpace "octo/repo") = sqlLower "octo/repo" := by decide
  simp [granted, branchRow, inAccess, GitHubInstallationRepositoryAccess.names, named]

def branchTable : CountedTable := oneRow branchRow branchRow_clean

theorem branchRow_listed :
    userRunnerStatesForRequest rangeInOrder branchTable octoUser = .ok [listedState branchRow] := by
  have ascii : AsciiAccess [⟨7, ["octo/repo"]⟩] := by simp [AsciiAccess]; decide
  have page := listed_states rangeInOrder branchTable [⟨7, ["octo/repo"]⟩] ascii
  have rows : grantedRows branchTable.toRequestTable [⟨7, ["octo/repo"]⟩] = [branchRow] := by
    simp [grantedRows, branchTable, oneRow, branchRow_granted]
  rw [rows] at page
  have loaded : repositoryAccess octoUser 1 = .ok [⟨7, ["octo/repo"]⟩] := rfl
  simp only [userRunnerStatesForRequest, requireUserSession, octoUser] at loaded ⊢
  simp only [loaded]
  exact congrArg Except.ok page

theorem part_of_plain {text : Chars} (filled : text ≠ [])
    (named : text ≠ ['.'] ∧ text ≠ ['.', '.'])
    (plain : (text.all fun c => c != '/' && c != ':' && !isLineTerminator c) = true) :
    ∃ part : JobAddresses.Part, part.text = text := by
  have apart : ∀ c ∈ text, (c ≠ '/' ∧ c ≠ ':') ∧ isLineTerminator c = false := by
    intro c member
    simpa using List.all_eq_true.mp plain c member
  exact ⟨⟨text, filled, ⟨fun slashed => (apart _ slashed).1.1 rfl, fun colon => (apart _ colon).1.2 rfl⟩,
    fun c member => (apart c member).2, named⟩, rfl⟩

theorem branchRow_linkable : Linkable (listedState branchRow) := by
  obtain ⟨owner, ownerText⟩ : ∃ part : JobAddresses.Part, part.text = "octo".toList :=
    part_of_plain (by decide) (by decide) (by decide)
  obtain ⟨repo, repoText⟩ : ∃ part : JobAddresses.Part, part.text = "repo".toList :=
    part_of_plain (by decide) (by decide) (by decide)
  obtain ⟨sha, shaText⟩ : ∃ part : JobAddresses.Part, part.text = "c0ffee".toList :=
    part_of_plain (by decide) (by decide) (by decide)
  obtain ⟨id, idText⟩ : ∃ part : JobAddresses.Part, part.text = "42".toList :=
    part_of_plain (by decide) (by decide) (by decide)
  have lines : ∀ c ∈ "feat/x:y".toList, isLineTerminator c = false := by
    have all : ("feat/x:y".toList.all fun c => !isLineTerminator c) = true := by decide
    intro c member
    simpa using List.all_eq_true.mp all c member
  constructor
  · refine ⟨owner, repo, ?_, ?_, ?_⟩
    · rw [Trimmed, ownerText]
      decide +kernel
    · rw [Trimmed, repoText]
      decide +kernel
    · rw [ownerText, repoText]
      rfl
  · exact ⟨by decide, by decide⟩
  · exact ⟨by decide, by decide⟩
  · have trimmed : Redirects.trimSpace (encode "feat/x:y".toList) = encode "feat/x:y".toList := by
      decide +kernel
    exact .inr ⟨⟨"feat/x:y".toList, by decide, lines⟩, trimmed, rfl⟩
  · refine .inr ⟨sha, ?_, shaText ▸ rfl⟩
    rw [Trimmed, shaText]
    decide +kernel
  · exact ⟨id, idText ▸ rfl⟩

theorem branch_group_reopened :
    ∃ group ∈ runnerJobGroups rangeInOrder.groups [listedState branchRow],
      listedState branchRow ∈ group.jobs ∧
      let location := visit (groupAddress group.key.toList "42".toList)
      let key := userJobsGroupKeyFromLocation location.path location.search
      key = group.key.toList ∧
        ("manual:".toList <+: key ∧ userJobGroupAPIPath key = [] ∨
          serveFetch rangeInOrder branchTable octoUser (userJobGroupAPIPath key) =
            .answered (.ok group)) := by
  have visible : isUserVisibleRunnerJob (listedState branchRow) = true := by decide
  obtain ⟨group, member, inside⟩ := (runnerJobGroups_jobs rangeInOrder.groups
    [listedState branchRow] (listedState branchRow)).mpr ⟨List.mem_singleton.mpr rfl, visible⟩
  have linkable : ∀ st ∈ [listedState branchRow], Linkable st := by
    intro st only
    rw [List.mem_singleton.mp only]
    exact branchRow_linkable
  exact ⟨group, member, inside, group_reopened rangeInOrder branchTable octoUser branchRow_listed
    linkable member "42".toList⟩

end Groups

end Runnerd.JobLinks
