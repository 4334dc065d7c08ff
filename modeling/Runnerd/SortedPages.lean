import Mathlib.Algebra.GroupWithZero.Nat
import Mathlib.Data.List.Nodup
import Mathlib.Data.List.Sort

/-!
Pages of a sorted listing that is read in parts. Each part is asked for its
first items, what comes back is merged and sorted again, and a page is cut from
the merge. `merged_page` says when that page is the page of the whole listing:
each part was asked for everything up to the end of the page, or for as many
items as the whole listing has.
-/

namespace Runnerd.SortedPages

variable {α : Type}

structure Order (α : Type) where
  le : α → α → Bool
  trans : ∀ first second third, le first second → le second third → le first third
  total : ∀ first second, le first second || le second first

/-- No two different items tie. -/
def Separates (order : Order α) (items : List α) : Prop :=
  ∀ first ∈ items, ∀ second ∈ items,
    order.le first second → order.le second first → first = second

def listing (order : Order α) (keep : α → Bool) (items : List α) : List α :=
  (items.filter keep).mergeSort order.le

def page (offset limit : Nat) (items : List α) : List α :=
  (items.drop offset).take limit

variable {order : Order α} {items : List α}

@[simp] theorem mem_listing (keep : α → Bool) (item : α) :
    item ∈ listing order keep items ↔ item ∈ items ∧ keep item = true := by
  simp [listing]

@[simp] theorem listing_length (keep : α → Bool) :
    (listing order keep items).length = items.countP keep := by
  simp [listing, List.countP_eq_length_filter]

theorem sorted_mergeSort (items : List α) :
    (items.mergeSort order.le).Pairwise (fun first second => order.le first second = true) :=
  List.pairwise_mergeSort order.trans order.total items

/-- A sorted list is known from its members. -/
theorem sorted_unique {first second : List α} (separates : Separates order items)
    (within : ∀ item ∈ first, item ∈ items) (same : first.Perm second)
    (sorted : first.Pairwise (fun a b => order.le a b = true))
    (sorted' : second.Pairwise (fun a b => order.le a b = true)) : first = second := by
  have one : ∀ a b, a ∈ first → b ∈ second → order.le a b = true → order.le b a = true → a = b :=
    fun a b left right below above =>
      separates a (within a left) b (within b (same.symm.subset right)) below above
  exact List.Perm.eq_of_pairwise one sorted sorted' same

/-- Filtering and sorting commute. -/
theorem listing_eq_filter (separates : Separates order items) (keep : α → Bool) :
    listing order keep items = (items.mergeSort order.le).filter keep := by
  have same : (listing order keep items).Perm ((items.mergeSort order.le).filter keep) :=
    (List.mergeSort_perm _ _).trans ((List.mergeSort_perm items order.le).filter keep).symm
  apply sorted_unique separates _ same (sorted_mergeSort _) ((sorted_mergeSort items).filter keep)
  intro item member
  exact ((mem_listing keep item).mp member).1

/-- What a filter keeps of the first items is among the first items it keeps. -/
theorem mem_take_filter (keep : α → Bool) (bound : Nat) (items : List α) (item : α)
    (early : item ∈ items.take bound) (kept : keep item = true) :
    item ∈ (items.filter keep).take bound := by
  induction items generalizing bound with
  | nil => simp at early
  | cons head rest ih =>
      cases bound with
      | zero => simp at early
      | succ bound =>
          rw [List.take_succ_cons, List.mem_cons] at early
          by_cases chosen : keep head = true
          · rw [List.filter_cons_of_pos chosen, List.take_succ_cons, List.mem_cons]
            exact early.imp_right fun later => ih bound later
          · rcases early with rfl | later
            · exact absurd kept chosen
            · rw [List.filter_cons_of_neg chosen]
              exact List.take_subset_take_left _ (Nat.le_succ bound) (ih bound later)

/-- A filter that keeps all of the first items does not change them. -/
theorem take_filter (keep : α → Bool) (bound : Nat) (items : List α)
    (kept : ∀ item ∈ items.take bound, keep item = true) :
    (items.filter keep).take bound = items.take bound := by
  induction items generalizing bound with
  | nil => rfl
  | cons head rest ih =>
      cases bound with
      | zero => simp
      | succ bound =>
          rw [List.take_succ_cons] at kept ⊢
          have chosen : keep head = true := kept head List.mem_cons_self
          rw [List.filter_cons_of_pos chosen, List.take_succ_cons,
            ih bound fun item member => kept item (List.mem_cons_of_mem head member)]

section Merging

variable {parts : List (α → Bool)} {bound : Nat} {merged : List α}

def anyPart (parts : List (α → Bool)) (item : α) : Bool :=
  parts.any fun part => part item

/-- The merge holds what each part returned, once and in order. -/
structure Merges (order : Order α) (items : List α) (parts : List (α → Bool)) (bound : Nat)
    (merged : List α) : Prop where
  members : ∀ item, item ∈ merged ↔
    ∃ part ∈ parts, item ∈ (listing order part items).take bound
  once : merged.Nodup
  sorted : merged.Pairwise (fun first second => order.le first second = true)

theorem Merges.within (merges : Merges order items parts bound merged) (item : α)
    (member : item ∈ merged) : item ∈ listing order (anyPart parts) items := by
  obtain ⟨part, listed, found⟩ := (merges.members item).mp member
  obtain ⟨present, kept⟩ := (mem_listing part item).mp (List.mem_of_mem_take found)
  rw [mem_listing]
  exact ⟨present, List.any_eq_true.mpr ⟨part, listed, kept⟩⟩

theorem Merges.early (merges : Merges order items parts bound merged)
    (separates : Separates order items) (item : α)
    (member : item ∈ (listing order (anyPart parts) items).take bound) : item ∈ merged := by
  have kept := ((mem_listing _ item).mp (List.mem_of_mem_take member)).2
  obtain ⟨part, listed, chosen⟩ := List.any_eq_true.mp kept
  refine (merges.members item).mpr ⟨part, listed, ?_⟩
  -- the part's listing is the part's share of the whole listing
  have share : (listing order (anyPart parts) items).filter part = listing order part items := by
    rw [listing_eq_filter separates, listing_eq_filter separates, List.filter_filter]
    apply List.filter_congr
    intro other _
    by_cases own : part other = true
    · simp only [own, Bool.true_and]
      exact List.any_eq_true.mpr ⟨part, listed, own⟩
    · simp [own]
  rw [← share]
  exact mem_take_filter part bound _ item member chosen

/-- The merge is the whole listing without the items no part returned. -/
theorem Merges.eq_filter [DecidableEq α] (merges : Merges order items parts bound merged)
    (separates : Separates order items) (distinct : items.Nodup) :
    merged = (listing order (anyPart parts) items).filter (fun item => decide (item ∈ merged)) := by
  have whole : (listing order (anyPart parts) items).Nodup :=
    (List.mergeSort_perm _ _).nodup_iff.mpr (distinct.filter _)
  apply sorted_unique separates
  · intro item member
    exact ((mem_listing _ item).mp (merges.within item member)).1
  · rw [List.perm_ext_iff_of_nodup merges.once (whole.filter _)]
    intro item
    rw [List.mem_filter, decide_eq_true_iff]
    exact ⟨fun member => ⟨merges.within item member, member⟩, And.right⟩
  · exact merges.sorted
  · exact (sorted_mergeSort _).filter _

theorem Merges.take [DecidableEq α] (merges : Merges order items parts bound merged)
    (separates : Separates order items) (distinct : items.Nodup) :
    merged.take bound = (listing order (anyPart parts) items).take bound := by
  rw [merges.eq_filter separates distinct]
  apply take_filter
  intro item member
  simpa using merges.early separates item member

theorem Merges.length_le [DecidableEq α] (merges : Merges order items parts bound merged)
    (separates : Separates order items) (distinct : items.Nodup) :
    merged.length ≤ (listing order (anyPart parts) items).length := by
  rw [merges.eq_filter separates distinct]
  exact List.length_filter_le _ _

theorem page_eq_drop_take (offset limit : Nat) (items : List α) :
    page offset limit items = (items.take (offset + limit)).drop offset := by
  rw [page, List.drop_take, Nat.add_sub_cancel_left]

theorem merged_page [DecidableEq α] (merges : Merges order items parts bound merged)
    (separates : Separates order items) (distinct : items.Nodup) (offset limit : Nat)
    (enough : offset + limit ≤ bound ∨ (listing order (anyPart parts) items).length ≤ bound) :
    page offset limit merged = page offset limit (listing order (anyPart parts) items) := by
  have agree := merges.take separates distinct
  rcases enough with deep | all
  · have prefixes := congrArg (List.take (offset + limit)) agree
    rw [List.take_take, List.take_take, Nat.min_eq_left deep] at prefixes
    rw [page_eq_drop_take, page_eq_drop_take, prefixes]
  · rw [List.take_of_length_le all,
      List.take_of_length_le ((merges.length_le separates distinct).trans all)] at agree
    rw [agree]

theorem countP_apart (first second : α → Bool) (items : List α)
    (apart : ∀ item, first item = true → second item = false) :
    items.countP first + items.countP second =
      items.countP (fun item => first item || second item) := by
  induction items with
  | nil => rfl
  | cons item rest ih =>
      by_cases left : first item = true
      · simp only [List.countP_cons, left, apart item left, Bool.true_or]
        simp
        omega
      · simp only [List.countP_cons, left, Bool.false_or]
        simp
        omega

/-- Parts that share no item have the sizes of their listings add up. -/
theorem total_eq_sum (items : List α) (apart : parts.Pairwise fun first second =>
    ∀ item, first item = true → second item = false) :
    (parts.map fun part => items.countP part).sum = items.countP (anyPart parts) := by
  induction parts with
  | nil => exact (List.countP_eq_zero.mpr fun item _ => Bool.false_ne_true).symm
  | cons part rest ih =>
      rw [List.pairwise_cons] at apart
      rw [List.map_cons, List.sum_cons, ih apart.2, countP_apart]
      · rfl
      · intro item own
        rw [anyPart, List.any_eq_false]
        intro other member
        simp [apart.1 other member item own]

end Merging

/-- An item is among the first ones when few enough come before it. -/
theorem mem_take_iff (lt : α → α → Bool) (asymmetric : ∀ first second, lt first second = true →
    lt second first = false) (bound : Nat) (items : List α)
    (sorted : items.Pairwise fun first second => lt first second = true) (item : α) :
    item ∈ items.take bound ↔ item ∈ items ∧ items.countP (fun other => lt other item) < bound := by
  have irreflexive (item : α) : lt item item = false := by
    by_cases before : lt item item = true
    · exact asymmetric item item before
    · simpa using before
  induction items generalizing bound with
  | nil => simp
  | cons head rest ih =>
      rw [List.pairwise_cons] at sorted
      cases bound with
      | zero => simp
      | succ bound =>
          have tail := ih bound sorted.2
          rw [List.take_succ_cons, List.mem_cons, List.mem_cons]
          refine (or_congr_right tail).trans ?_
          by_cases first : item = head
          · subst first
            have none : rest.countP (fun other => lt other item) = 0 := by
              rw [List.countP_eq_zero]
              intro other member
              simp [asymmetric item other (sorted.1 other member)]
            simp [irreflexive, none]
          · by_cases member : item ∈ rest
            · simp [first, member, sorted.1 item member]
            · simp [first, member]

/-- Every item is on some page. -/
theorem mem_some_page (limit : Nat) (some : 0 < limit) (items : List α) (item : α) :
    (∃ offset, item ∈ page offset limit items) ↔ item ∈ items := by
  constructor
  · rintro ⟨offset, found⟩
    exact List.mem_of_mem_drop (List.mem_of_mem_take found)
  · intro member
    obtain ⟨index, bound, rfl⟩ := List.mem_iff_getElem.mp member
    refine ⟨index, ?_⟩
    rw [page, List.drop_eq_getElem_cons bound]
    obtain ⟨rest, rfl⟩ := Nat.exists_eq_succ_of_ne_zero some.ne'
    rw [List.take_succ_cons]
    exact List.mem_cons_self

end Runnerd.SortedPages
