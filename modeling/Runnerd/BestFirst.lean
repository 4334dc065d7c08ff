import Mathlib.Data.List.Sort
import Mathlib.Data.List.Nodup

/-!
Taking the first item of a sorted list. A sort that need not be stable may
return any arrangement the comparison allows; when no two different items tie,
its first item is the best one all the same, and does not depend on the order
the items came in.
-/

namespace Runnerd.BestFirst

variable {α : Type}

/-- What a sort may ask of its comparison. -/
structure StrictWeak (less : α → α → Bool) : Prop where
  irrefl : ∀ item, less item item = false
  asymm : ∀ first second, less first second = true → less second first = false
  negTrans : ∀ first second third, less first second = false → less second third = false →
    less first third = false

/-- A sort that may put items that tie in any order. -/
structure SliceSort (α : Type) where
  sort : (α → α → Bool) → List α → List α
  perm : ∀ less items, (sort less items).Perm items
  ordered : ∀ less items, StrictWeak less →
    (sort less items).Pairwise fun first second => less second first = false

/-- No two different items tie. -/
def Separated (less : α → α → Bool) (items : List α) : Prop :=
  ∀ first ∈ items, ∀ second ∈ items, less first second = false → less second first = false →
    first = second

structure Best (less : α → α → Bool) (items : List α) (item : α) : Prop where
  member : item ∈ items
  least : ∀ other ∈ items, less other item = false

variable {less : α → α → Bool} {items : List α}

theorem best_unique (separated : Separated less items) {first second : α}
    (left : Best less items first) (right : Best less items second) : first = second :=
  separated first left.member second right.member (right.least first left.member)
    (left.least second right.member)

theorem first_none (sorter : SliceSort α) : (sorter.sort less items).head? = none ↔ items = [] := by
  rw [List.head?_eq_none_iff]
  constructor
  · intro empty
    have same := sorter.perm less items
    rw [empty] at same
    exact same.nil_eq.symm
  · intro empty
    have same := sorter.perm less items
    rw [empty] at same ⊢
    exact same.eq_nil

theorem first_best (sorter : SliceSort α) (weak : StrictWeak less) {item : α}
    (first : (sorter.sort less items).head? = some item) : Best less items item := by
  have same := sorter.perm less items
  have ordered := sorter.ordered less items weak
  cases sorted : sorter.sort less items with
  | nil => simp [sorted] at first
  | cons head rest =>
      rw [sorted] at first same ordered
      obtain rfl := Option.some.inj first
      refine ⟨same.subset List.mem_cons_self, ?_⟩
      intro other member
      rcases List.mem_cons.mp (same.symm.subset member) with rfl | later
      · exact weak.irrefl other
      · exact List.rel_of_pairwise_cons ordered later

/-- The first item is the best one. -/
theorem first_iff (sorter : SliceSort α) (weak : StrictWeak less)
    (separated : Separated less items) (item : α) :
    (sorter.sort less items).head? = some item ↔ Best less items item := by
  constructor
  · exact first_best sorter weak
  · intro best
    cases found : (sorter.sort less items).head? with
    | none =>
        have empty := (first_none sorter).mp found
        rw [empty] at best
        exact absurd best.member List.not_mem_nil
    | some other => rw [best_unique separated (first_best sorter weak found) best]

/-- Neither the sort nor the order of the items decides which one is first. -/
theorem first_congr (sorter other : SliceSort α) (weak : StrictWeak less)
    (separated : Separated less items) {permuted : List α} (same : permuted.Perm items) :
    (other.sort less permuted).head? = (sorter.sort less items).head? := by
  have still : Separated less permuted := fun first left second right =>
    separated first (same.subset left) second (same.subset right)
  have best (item : α) : Best less permuted item ↔ Best less items item := by
    constructor
    · exact fun best => ⟨same.subset best.member, fun next member =>
        best.least next (same.symm.subset member)⟩
    · exact fun best => ⟨same.symm.subset best.member, fun next member =>
        best.least next (same.subset member)⟩
  apply Option.ext
  intro item
  rw [first_iff other weak still, first_iff sorter weak separated]
  exact best item

section Insertion
variable (less)

theorem insertion_ordered (weak : StrictWeak less) (items : List α) :
    (items.insertionSort fun first second => less second first = false).Pairwise
      fun first second => less second first = false := by
  have total : Std.Total fun first second : α => less second first = false := by
    constructor
    intro first second
    cases after : less second first with
    | false => exact .inl rfl
    | true => exact .inr (weak.asymm _ _ after)
  have trans : IsTrans α fun first second : α => less second first = false :=
    ⟨fun first second third left right => weak.negTrans third second first right left⟩
  exact List.pairwise_insertionSort _ items

end Insertion

/-- One such sort. -/
def insertion : SliceSort α where
  sort less items := items.insertionSort fun first second => less second first = false
  perm _ items := List.perm_insertionSort _ items
  ordered less items weak := insertion_ordered less weak items

end Runnerd.BestFirst
