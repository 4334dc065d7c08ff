import Runnerd.GoText
import Runnerd.SplitText

/-!
The `Link` header of a GitHub listing. `nextLink` cuts the header at commas and
each part at semicolons before it looks at the angle brackets, so a URI that holds
one of the two is cut as well.
-/

namespace Runnerd

open GoText SplitText

section Reading

/-- One round of the loop of `nextLink`. -/
def linkOfPart (part : String) : Option String :=
  match split ';' part with
  | [] => none
  | [_] => none
  | first :: parameters =>
      let link := trimSpace first
      if !hasPrefix link "<" || !hasSuffix link ">" then none
      else if parameters.any fun parameter => trimSpace parameter == "rel=\"next\"" then
        some (trimSuffix (trimPrefix link "<") ">")
      else none

def linkOfParts (parts : List String) : Option String := parts.findSome? linkOfPart

def nextLink (header : String) : String :=
  (linkOfParts (split ',' header)).getD ""

end Reading

section Rendering

/-- A relation, and a URI that fits between angle brackets. -/
structure LinkPair where
  uri : String
  relation : String
  unopened : '<' ∉ uri.toList
  unclosed : '>' ∉ uri.toList

def renderLink (pair : LinkPair) : String :=
  "<" ++ pair.uri ++ ">; rel=\"" ++ pair.relation ++ "\""

def renderLinks : List LinkPair → String
  | [] => ""
  | [pair] => renderLink pair
  | pair :: rest => renderLink pair ++ ", " ++ renderLinks rest

def LinkPair.isNext (pair : LinkPair) : Bool := pair.relation == "next"

/-- What the header says: the URI of the first pair whose relation is `next`. -/
def firstNext (pairs : List LinkPair) : String :=
  ((pairs.find? LinkPair.isNext).map LinkPair.uri).getD ""

end Rendering

section Parts

theorem mem_of_trimmed {runes : List Char} {rune : Char}
    (member : rune ∈ (trimSpace (String.ofList runes)).toList) : rune ∈ runes := by
  rw [trimSpace, String.toList_ofList, String.toList_ofList] at member
  exact (trimRunes_sublist runes).subset member

theorem trimPrefix_subset {text head : String} {rune : Char}
    (member : rune ∈ (trimPrefix text head).toList) : rune ∈ text.toList := by
  rw [trimPrefix] at member
  split at member
  · rw [String.toList_ofList] at member
    exact List.mem_of_mem_drop member
  · exact member

theorem trimSuffix_subset {text tail : String} {rune : Char}
    (member : rune ∈ (trimSuffix text tail).toList) : rune ∈ text.toList := by
  rw [trimSuffix] at member
  split at member
  · rw [String.toList_ofList] at member
    exact List.mem_of_mem_take member
  · exact member

/-- What a part needs to be read: both brackets in its first section, and the
parameter in a later one. -/
theorem linkOfPart_reads {part : List Char} {link : String}
    (reads : linkOfPart (String.ofList part) = some link) :
    ∃ first parameters, part.splitOn ';' = first :: parameters ∧ '<' ∈ first ∧ '>' ∈ first ∧
      ∃ parameter ∈ parameters, trimRunes parameter = "rel=\"next\"".toList := by
  rw [linkOfPart, split, String.toList_ofList] at reads
  cases sections : part.splitOn ';' with
  | nil => simp [sections] at reads
  | cons first parameters =>
      refine ⟨first, parameters, rfl, ?_⟩
      cases parameters with
      | nil => simp [sections] at reads
      | cons second rest =>
          rw [sections, List.map_cons, List.map_cons] at reads
          dsimp only at reads
          split at reads
          · cases reads
          · rename_i brackets
            rw [Bool.or_eq_true, Bool.not_eq_true', Bool.not_eq_true', not_or, Bool.not_eq_false,
              Bool.not_eq_false] at brackets
            split at reads
            · rename_i named
              rw [← List.map_cons, List.any_map, List.any_eq_true] at named
              obtain ⟨parameter, member, text⟩ := named
              have same := congrArg String.toList (eq_of_beq text)
              rw [trimSpace, String.toList_ofList, String.toList_ofList] at same
              have opened := List.isPrefixOf_iff_prefix.mp brackets.1
              have closed := List.isSuffixOf_iff_suffix.mp brackets.2
              exact ⟨mem_of_trimmed (opened.subset (by simp)),
                mem_of_trimmed (closed.subset (by simp)), parameter, member, same⟩
            · cases reads

/-- The link comes from one section of its part. -/
theorem linkOfPart_section {part : List Char} {link : String}
    (reads : linkOfPart (String.ofList part) = some link) :
    ∃ first ∈ part.splitOn ';', ∀ {rune}, rune ∈ link.toList → rune ∈ first := by
  rw [linkOfPart, split, String.toList_ofList] at reads
  cases sections : part.splitOn ';' with
  | nil => simp [sections] at reads
  | cons first parameters =>
      refine ⟨first, List.mem_cons_self, ?_⟩
      intro rune member
      cases parameters with
      | nil => simp [sections] at reads
      | cons second rest =>
          rw [sections, List.map_cons, List.map_cons] at reads
          simp only [ite_eq_iff, reduceCtorEq, and_false, false_or, or_false, Option.some.injEq]
            at reads
          rw [← reads.2.2] at member
          exact mem_of_trimmed (trimPrefix_subset (trimSuffix_subset member))

/-- Too few quotes for the parameter. -/
theorem linkOfPart_unquoted {part : List Char} (few : part.count '\"' ≤ 1) :
    linkOfPart (String.ofList part) = none := by
  by_contra reads
  obtain ⟨link, reads⟩ := Option.ne_none_iff_exists'.mp reads
  obtain ⟨first, parameters, sections, -, -, parameter, member, named⟩ := linkOfPart_reads reads
  have inPart : parameter.Sublist part :=
    piece_sublist (by rw [sections]; exact List.mem_cons_of_mem _ member)
  have quotes : ("rel=\"next\"".toList).count '\"' ≤ part.count '\"' := by
    rw [← named]
    exact ((trimRunes_sublist parameter).trans inPart).count_le '\"'
  have two : ("rel=\"next\"".toList).count '\"' = 2 := by decide
  omega

theorem linkOfPart_unclosed {part : List Char} (unclosed : '>' ∉ part) :
    linkOfPart (String.ofList part) = none := by
  by_contra reads
  obtain ⟨link, reads⟩ := Option.ne_none_iff_exists'.mp reads
  obtain ⟨first, parameters, sections, -, closed, -⟩ := linkOfPart_reads reads
  have inPart : first.Sublist part := piece_sublist (by rw [sections]; exact List.mem_cons_self)
  exact unclosed (inPart.subset closed)

/-- A bracket is missing in the first section. -/
theorem linkOfPart_unbracketed {first parameters : List Char} (unsplit : ';' ∉ first)
    (missing : '<' ∉ first ∨ '>' ∉ first) :
    linkOfPart (String.ofList (first ++ ';' :: parameters)) = none := by
  by_contra reads
  obtain ⟨link, reads⟩ := Option.ne_none_iff_exists'.mp reads
  obtain ⟨head, rest, sections, opened, closed, -⟩ := linkOfPart_reads reads
  rw [List.splitOn_append_cons_self_of_not_mem unsplit] at sections
  obtain ⟨rfl, -⟩ := List.cons.inj sections
  rcases missing with missing | missing
  · exact missing opened
  · exact missing closed

end Parts

section Pieces

/-- What the pieces of a text give, one after the other. -/
def linkIn (text : List Char) : Option String :=
  linkOfParts ((text.splitOn ',').map String.ofList)

theorem nextLink_linkIn (header : String) : nextLink header = (linkIn header.toList).getD "" := rfl

theorem linkIn_none {text : List Char}
    (mute : ∀ part ∈ text.splitOn ',', linkOfPart (String.ofList part) = none) :
    linkIn text = none := by
  rw [linkIn, linkOfParts, List.findSome?_eq_none_iff]
  intro part member
  obtain ⟨runes, piece, rfl⟩ := List.mem_map.mp member
  exact mute runes piece

theorem linkIn_comma (front rest : List Char) :
    linkIn (front ++ ',' :: rest) = (linkIn front).or (linkIn rest) := by
  simp only [linkIn, linkOfParts, List.splitOn_append_cons_self, List.map_append,
    List.findSome?_append]

theorem linkOfPart_blank (part : List Char) :
    linkOfPart (String.ofList (' ' :: part)) = linkOfPart (String.ofList part) := by
  obtain ⟨rest, sections⟩ := splitOn_first ';' part
  have other : ((' ' : Char) == ';') = false := by decide
  have blank (runes : List Char) :
      trimSpace (String.ofList (' ' :: runes)) = trimSpace (String.ofList runes) := by
    simp only [trimSpace, trimRunes, String.toList_ofList]
    rfl
  simp only [linkOfPart, split, String.toList_ofList, List.splitOn_cons_eq_if_modifyHead, other,
    sections, List.modifyHead_cons, List.map_cons, Bool.false_eq_true, if_false]
  cases rest with
  | nil => rfl
  | cons second rest => simp only [List.map_cons, blank]

theorem linkIn_blank (text : List Char) : linkIn (' ' :: text) = linkIn text := by
  obtain ⟨rest, pieces⟩ := splitOn_first ',' text
  have other : ((' ' : Char) == ',') = false := by decide
  simp only [linkIn, linkOfParts, List.splitOn_cons_eq_if_modifyHead, other, pieces,
    List.modifyHead_cons, List.map_cons, List.findSome?_cons, linkOfPart_blank,
    Bool.false_eq_true, if_false]

/-- Each pair is read on its own: the header adds only commas and blanks. -/
theorem linkIn_renderLinks (pairs : List LinkPair) :
    linkIn (renderLinks pairs).toList =
      pairs.findSome? fun pair => linkIn (renderLink pair).toList := by
  induction pairs with
  | nil => decide +kernel
  | cons pair rest ih =>
      cases rest with
      | nil => simp [renderLinks]
      | cons next rest =>
          have runes : (renderLinks (pair :: next :: rest)).toList =
              (renderLink pair).toList ++ ',' :: ' ' :: (renderLinks (next :: rest)).toList := by
            simp [renderLinks]
          rw [runes, linkIn_comma, linkIn_blank, ih]
          rw [List.findSome?_cons, List.findSome?_cons]
          cases linkIn (renderLink pair).toList <;> rfl

end Pieces

section Pairs

/-- The text of a pair after its URI. -/
def closing (relation : List Char) : List Char :=
  '>' :: ';' :: (" rel=\"".toList ++ (relation ++ ['\"']))

theorem renderLink_runes (pair : LinkPair) :
    (renderLink pair).toList = '<' :: (pair.uri.toList ++ closing pair.relation.toList) := by
  simp [renderLink, closing]

/-- From the second piece of a relation on there is at most the closing quote. -/
theorem relation_pieces {relation : List Char} (unquoted : '\"' ∉ relation)
    {part : List Char} (piece : part.Sublist (relation ++ ['\"'])) :
    linkOfPart (String.ofList part) = none := by
  apply linkOfPart_unquoted
  have quotes := piece.count_le '\"'
  rw [List.count_append, List.count_eq_zero.mpr unquoted] at quotes
  simpa using quotes

/-- A part whose front has no comma is read with what follows up to the next one. -/
theorem linkIn_front {front text cut : List Char} {others : List (List Char)} (uncut : ',' ∉ front)
    (pieces : text.splitOn ',' = cut :: others) :
    linkIn (front ++ text) =
      (linkOfPart (String.ofList (front ++ cut))).or (linkOfParts (others.map String.ofList)) := by
  rw [linkIn, splitOn_append_absent uncut, pieces, List.modifyHead_cons, List.map_cons, linkOfParts,
    List.findSome?_cons, ← linkOfParts]
  cases linkOfPart (String.ofList (front ++ cut)) <;> rfl

/-- What stands before the closing text is not read unless it is one whole section
that opens with a bracket. -/
theorem linkOfPart_closing_none {front : List Char}
    (missing : '<' ∉ front ∨ ';' ∈ front ∧ '>' ∉ front) (cut : List Char) :
    linkOfPart (String.ofList (front ++ ">; rel=\"".toList ++ cut)) = none := by
  by_cases divided : ';' ∈ front
  · obtain ⟨first, rest, rfl, whole⟩ := List.eq_append_cons_of_mem divided
    have text : first ++ ';' :: rest ++ ">; rel=\"".toList ++ cut =
        first ++ ';' :: (rest ++ ">; rel=\"".toList ++ cut) := by simp
    rw [text]
    apply linkOfPart_unbracketed whole
    refine missing.imp (fun unopened member => ?_) (fun unclosed member => ?_)
    · exact unopened (List.mem_append_left _ member)
    · exact unclosed.2 (List.mem_append_left _ member)
  · have unopened : '<' ∉ front := missing.resolve_right fun both => divided both.1
    have text : front ++ ">; rel=\"".toList ++ cut =
        (front ++ ['>']) ++ ';' :: (" rel=\"".toList ++ cut) := by simp
    rw [text]
    apply linkOfPart_unbracketed
    · simp [divided]
    · left
      simp [unopened]

/-- The URI between its brackets is a section without blanks at its ends. -/
theorem trimSpace_bracketed (uri : List Char) :
    trimSpace (String.ofList ('<' :: (uri ++ ['>']))) = String.ofList ('<' :: (uri ++ ['>'])) := by
  rw [trimSpace, String.toList_ofList, trimRunes, dropEnds_self]
  · intro rune member
    obtain rfl : '<' = rune := by simpa using member
    decide
  · intro rune member
    rw [← List.cons_append, List.getLast?_concat, Option.mem_some] at member
    rw [← member]
    decide

theorem unbracketed (uri : List Char) :
    trimSuffix (trimPrefix (String.ofList ('<' :: (uri ++ ['>']))) "<") ">" =
      String.ofList uri := by
  simp [trimSuffix, trimPrefix, hasSuffix, hasPrefix]

/-- The first parameter is the one looked for only if the relation is. -/
theorem parameter_next {relation parameter : List Char} (unquoted : '\"' ∉ relation)
    (start : parameter <+: relation ++ ['\"'])
    (named : trimRunes (" rel=\"".toList ++ parameter) = "rel=\"next\"".toList) :
    relation = "next".toList := by
  rcases List.prefix_concat_iff.mp start with rfl | inside
  · have trimmed : trimRunes (" rel=\"".toList ++ (relation ++ ['\"'])) =
        "rel=\"".toList ++ (relation ++ ['\"']) := by
      have blank : trimRunes (" rel=\"".toList ++ (relation ++ ['\"'])) =
          trimRunes ("rel=\"".toList ++ (relation ++ ['\"'])) := rfl
      rw [blank, trimRunes, dropEnds_self]
      · intro rune member
        obtain rfl : 'r' = rune := by simpa using member
        decide
      · intro rune member
        rw [← List.append_assoc, List.getLast?_concat, Option.mem_some] at member
        rw [← member]
        decide
    rw [trimmed] at named
    have same : "rel=\"".toList ++ (relation ++ ['\"']) =
        "rel=\"".toList ++ ("next".toList ++ ['\"']) := named
    exact List.append_cancel_right (List.append_cancel_left same)
  · have quotes : ("rel=\"next\"".toList).count '\"' ≤
        (" rel=\"".toList ++ parameter).count '\"' := by
      rw [← named]
      exact (trimRunes_sublist _).count_le '\"'
    have none : parameter.count '\"' = 0 :=
      List.count_eq_zero.mpr fun member => unquoted (inside.subset member)
    rw [List.count_append, none] at quotes
    exact absurd quotes (by decide)

theorem linkOfPart_bracketed {uri : List Char} (whole : ';' ∉ uri) (parameters : List Char) :
    linkOfPart (String.ofList ('<' :: (uri ++ '>' :: ';' :: parameters))) =
      if ∃ parameter ∈ parameters.splitOn ';', trimRunes parameter = "rel=\"next\"".toList then
        some (String.ofList uri)
      else none := by
  have first : ';' ∉ '<' :: (uri ++ ['>']) := by simp [whole]
  have text : '<' :: (uri ++ '>' :: ';' :: parameters) =
      ('<' :: (uri ++ ['>'])) ++ ';' :: parameters := by simp
  have brackets : (!hasPrefix (String.ofList ('<' :: (uri ++ ['>']))) "<" ||
      !hasSuffix (String.ofList ('<' :: (uri ++ ['>']))) ">") = false := by
    simp [hasPrefix, hasSuffix]
  have named (parameter : List Char) :
      (trimSpace (String.ofList parameter) == "rel=\"next\"") =
        decide (trimRunes parameter = "rel=\"next\"".toList) := by
    rw [trimSpace, String.toList_ofList, Bool.beq_eq_decide_eq]
    exact decide_eq_decide.mpr
      ⟨fun same => by rw [← same, String.toList_ofList], fun same => by rw [same, String.ofList_toList]⟩
  rw [text, linkOfPart, split, String.toList_ofList, List.splitOn_append_cons_self_of_not_mem first]
  cases sections : parameters.splitOn ';' with
  | nil => exact absurd sections (List.splitOn_ne_nil _ _)
  | cons second rest =>
      simp only [List.map_cons, trimSpace_bracketed, brackets, unbracketed, Bool.false_eq_true,
        if_false]
      rw [← List.map_cons, List.any_map]
      congr 1
      simp only [Function.comp_def, named, List.any_eq_true, decide_eq_true_eq]

/-- Of the parameters that a relation is cut into, one is `rel="next"` only if
the relation is. -/
theorem parameters_next {relation : List Char} (unquoted : '\"' ∉ relation) :
    (∃ parameter ∈ (" rel=\"".toList ++
        (relation ++ ['\"']).takeWhile (fun rune => rune != ',')).splitOn ';',
      trimRunes parameter = "rel=\"next\"".toList) ↔ relation = "next".toList := by
  constructor
  · rintro ⟨parameter, member, named⟩
    have cut := List.takeWhile_prefix (l := relation ++ ['\"']) (fun rune => rune != ',')
    generalize (relation ++ ['\"']).takeWhile (fun rune => rune != ',') = text at member cut
    obtain ⟨rest, pieces⟩ := splitOn_first ';' text
    rw [splitOn_append_absent (by decide), pieces, List.modifyHead_cons] at member
    rcases List.mem_cons.mp member with rfl | later
    · exact parameter_next unquoted ((List.takeWhile_prefix _).trans cut) named
    · -- a later parameter has the closing quote at most
      have inside : parameter.Sublist (relation ++ ['\"']) :=
        (piece_sublist (by rw [pieces]; exact List.mem_cons_of_mem _ later)).trans cut.sublist
      have quotes : ("rel=\"next\"".toList).count '\"' ≤ (relation ++ ['\"']).count '\"' := by
        rw [← named]
        exact ((trimRunes_sublist parameter).trans inside).count_le '\"'
      rw [List.count_append, List.count_eq_zero.mpr unquoted] at quotes
      exact absurd quotes (by decide)
  · rintro rfl
    decide

/-- What the loop reads in a pair. The pair's URI is read when it holds no separator and
the relation, up to its first comma, makes a parameter `rel="next"`; what the relation
holds behind a comma is read as links of its own. -/
def LinkPair.reading (pair : LinkPair) : Option String :=
  match (pair.relation.toList ++ ['\"']).splitOn ',' with
  | [] => none
  | cut :: others =>
      if (',' ∉ pair.uri.toList ∧ ';' ∉ pair.uri.toList) ∧
          ∃ parameter ∈ (" rel=\"".toList ++ cut).splitOn ';',
            trimRunes parameter = "rel=\"next\"".toList then some pair.uri
      else linkOfParts (others.map String.ofList)

theorem linkIn_renderLink (pair : LinkPair) : linkIn (renderLink pair).toList = pair.reading := by
  obtain ⟨others, pieces⟩ := splitOn_first ',' (pair.relation.toList ++ ['\"'])
  simp only [LinkPair.reading, pieces]
  generalize (pair.relation.toList ++ ['\"']).takeWhile (fun rune => rune != ',') = cut at pieces ⊢
  have closes (front : List Char) : front ++ closing pair.relation.toList =
      front ++ ">; rel=\"".toList ++ (pair.relation.toList ++ ['\"']) := by simp [closing]
  have uncutClosing {front : List Char} (uncut : ',' ∉ front) : ',' ∉ front ++ ">; rel=\"".toList := by
    simp [uncut]
  rw [renderLink_runes]
  by_cases comma : ',' ∈ pair.uri.toList
  · obtain ⟨front, back, uri, uncut⟩ := exists_last comma
    have unopened : '<' ∉ back := fun member => pair.unopened (by simp [uri, member])
    have unclosed : '>' ∉ '<' :: front := by
      have absent : '>' ∉ front := fun member => pair.unclosed (by simp [uri, member])
      simp [absent]
    have text : '<' :: (pair.uri.toList ++ closing pair.relation.toList) =
        ('<' :: front) ++ ',' :: (back ++ closing pair.relation.toList) := by simp [uri]
    have before : linkIn ('<' :: front) = none :=
      linkIn_none fun part member =>
        linkOfPart_unclosed fun closed => unclosed ((piece_sublist member).subset closed)
    rw [text, linkIn_comma, before, Option.none_or, closes, linkIn_front (uncutClosing uncut) pieces,
      linkOfPart_closing_none (.inl unopened), Option.none_or, if_neg fun read => read.1.1 comma]
  · have uncut : ',' ∉ '<' :: pair.uri.toList := by simp [comma]
    rw [← List.cons_append, closes, linkIn_front (uncutClosing uncut) pieces]
    by_cases semicolon : ';' ∈ pair.uri.toList
    · have divided : ';' ∈ '<' :: pair.uri.toList ∧ '>' ∉ '<' :: pair.uri.toList :=
        ⟨by simp [semicolon], by simp [pair.unclosed]⟩
      rw [linkOfPart_closing_none (.inr divided), Option.none_or,
        if_neg fun read => read.1.2 semicolon]
    · have text : '<' :: pair.uri.toList ++ ">; rel=\"".toList ++ cut =
          '<' :: (pair.uri.toList ++ '>' :: ';' :: (" rel=\"".toList ++ cut)) := by simp
      rw [text, linkOfPart_bracketed semicolon, String.ofList_toList]
      by_cases read : ∃ parameter ∈ (" rel=\"".toList ++ cut).splitOn ';',
          trimRunes parameter = "rel=\"next\"".toList
      · rw [if_pos read, if_pos ⟨⟨comma, semicolon⟩, read⟩, Option.some_or]
      · rw [if_neg read, if_neg fun both => read both.2, Option.none_or]

/-- Without a quote in the relation the loop reads the pairs whose relation is `next`. -/
theorem reading_unquoted (pair : LinkPair) (unquoted : '\"' ∉ pair.relation.toList) :
    pair.reading =
      if pair.isNext ∧ ',' ∉ pair.uri.toList ∧ ';' ∉ pair.uri.toList then some pair.uri
      else none := by
  obtain ⟨others, pieces⟩ := splitOn_first ',' (pair.relation.toList ++ ['\"'])
  have later : linkOfParts (others.map String.ofList) = none := by
    rw [linkOfParts, List.findSome?_eq_none_iff]
    intro part member
    obtain ⟨runes, piece, rfl⟩ := List.mem_map.mp member
    exact relation_pieces unquoted
      (piece_sublist (by rw [pieces]; exact List.mem_cons_of_mem _ piece))
  have next : pair.relation.toList = "next".toList ↔ pair.isNext := by
    rw [LinkPair.isNext, beq_iff_eq, String.toList_inj]
  simp only [LinkPair.reading, pieces, later, parameters_next unquoted, next]
  by_cases named : pair.isNext
  · simp only [named, true_and, and_true]
  · simp only [named, and_false, Bool.false_eq_true, false_and, if_false]

end Pairs

section Headers

/-- The first `next` pair, if there is one, has neither separator in its URI. -/
def FirstUncut (pairs : List LinkPair) : Prop :=
  ∀ pair, pairs.find? LinkPair.isNext = some pair → ',' ∉ pair.uri.toList ∧ ';' ∉ pair.uri.toList

/-- The pairs before the first `next` pair. -/
def earlierPairs (pairs : List LinkPair) : List LinkPair := pairs.takeWhile fun pair => !pair.isNext

/-- No relation before the first `next` pair ends its quotes early. -/
def EarlierQuoted (pairs : List LinkPair) : Prop :=
  ∀ pair ∈ earlierPairs pairs, '\"' ∉ pair.relation.toList

/-- If a relation with a quote in it has one of the earlier pairs read as a link, then the
first such link is the one that is wanted. -/
def EarlierHarmless (pairs : List LinkPair) : Prop :=
  ∀ link, (earlierPairs pairs).findSome? LinkPair.reading = some link → link = firstNext pairs

theorem isNext_unquoted {pair : LinkPair} (next : pair.isNext = true) :
    '\"' ∉ pair.relation.toList := by
  rw [LinkPair.isNext, beq_iff_eq] at next
  rw [next]
  decide

/-- Whatever the header is, what is returned was not cut. -/
theorem nextLink_uncut (header : String) :
    ',' ∉ (nextLink header).toList ∧ ';' ∉ (nextLink header).toList := by
  rw [nextLink_linkIn]
  cases found : linkIn header.toList with
  | none => exact ⟨by decide, by decide⟩
  | some link =>
      rw [linkIn, linkOfParts] at found
      obtain ⟨part, member, reads⟩ := List.exists_of_findSome?_eq_some found
      obtain ⟨runes, piece, rfl⟩ := List.mem_map.mp member
      obtain ⟨section_, cut, inside⟩ := linkOfPart_section reads
      constructor
      · intro comma
        exact separator_absent piece ((piece_sublist cut).subset (inside comma))
      · exact fun semicolon => separator_absent cut (inside semicolon)

theorem earlier_harmless {pairs : List LinkPair} (quoted : EarlierQuoted pairs) :
    (earlierPairs pairs).findSome? LinkPair.reading = none := by
  rw [List.findSome?_eq_none_iff]
  intro pair member
  have other : pair.isNext = false := by
    simpa using List.mem_takeWhile_imp member
  rw [reading_unquoted pair (quoted pair member), other]
  simp

/-- The loop stops at the first link it reads. -/
theorem nextLink_reading {pairs : List LinkPair} (uncut : FirstUncut pairs) :
    nextLink (renderLinks pairs) =
      ((earlierPairs pairs).findSome? LinkPair.reading).getD (firstNext pairs) := by
  rw [nextLink_linkIn, linkIn_renderLinks, firstNext, earlierPairs]
  simp only [linkIn_renderLink]
  induction pairs with
  | nil => rfl
  | cons pair rest ih =>
      cases next : pair.isNext with
      | true =>
          have found : (pair :: rest).find? LinkPair.isNext = some pair := by simp [next]
          have read : pair.reading = some pair.uri := by
            rw [reading_unquoted pair (isNext_unquoted next), if_pos ⟨next, uncut pair found⟩]
          simp [next, read]
      | false =>
          have skipped : (pair :: rest).find? LinkPair.isNext = rest.find? LinkPair.isNext := by
            simp [next]
          have before : (pair :: rest).takeWhile (fun pair => !pair.isNext) =
              pair :: rest.takeWhile fun pair => !pair.isNext := by simp [next]
          have tail := ih fun later found => uncut later (by rw [skipped, found])
          rw [skipped, before, List.findSome?_cons, List.findSome?_cons]
          cases pair.reading with
          | none => exact tail
          | some link => rfl

/-- The URI of the first `next` pair comes back exactly when neither separator of the
header stands in it and no earlier relation has another link read before it; relations
that keep to their quotes never do. -/
theorem nextLink_first (pairs : List LinkPair) :
    (nextLink (renderLinks pairs) = firstNext pairs ↔ FirstUncut pairs ∧ EarlierHarmless pairs) ∧
      (EarlierQuoted pairs → EarlierHarmless pairs) := by
  refine ⟨⟨fun same => ?_, ?_⟩, ?_⟩
  · have uncut : FirstUncut pairs := by
      intro pair found
      have uri : firstNext pairs = pair.uri := by
        rw [firstNext, found]
        rfl
      rw [← uri, ← same]
      exact nextLink_uncut _
    refine ⟨uncut, fun link read => ?_⟩
    rw [nextLink_reading uncut, read] at same
    exact same
  · rintro ⟨uncut, harmless⟩
    rw [nextLink_reading uncut]
    cases read : (earlierPairs pairs).findSome? LinkPair.reading with
    | none => rfl
    | some link => exact harmless link read
  · intro quoted link read
    rw [earlier_harmless quoted] at read
    cases read

example : (nextLink "<https://a>; rel=\"a\"b\", <https://c>; rel=\"next\"",
    nextLink "<https://a>; rel=\"next\";x\", <https://c>; rel=\"next\"") =
      ("https://c", "https://a") := by decide +kernel

/-- The next page of the runners of a repository, asked for by two labels. -/
def labelledPage : LinkPair where
  uri := "https://api.github.com/repos/octo/repo/actions/runners?labels=e2b,linux&page=2"
  relation := "next"
  unopened := by decide
  unclosed := by decide

theorem nextLink_misses_comma :
    nextLink (renderLinks [labelledPage]) = "" ∧
      firstNext [labelledPage] =
        "https://api.github.com/repos/octo/repo/actions/runners?labels=e2b,linux&page=2" := by
  decide +kernel

end Headers

end Runnerd
