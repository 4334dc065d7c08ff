import Mathlib.Data.List.Nodup
import Mathlib.Data.List.Perm.Subperm
import Mathlib.Data.List.Range
import Mathlib.Logic.Function.Basic

/-!
Items that are handed out one after another to a fixed number of holders. An item is
passed on or not, its holder may send one report about it, and an item that is not
handed out has its report sent at once. Each item is in one place, so there are never
more reports than items, and one fewer while a report is outstanding.
-/

namespace Runnerd

/-- What a holder has in hand: an item, and whether it has passed it on. -/
structure Held where
  item : Nat
  passed : Bool
  deriving DecidableEq

structure ItemLedger (Holder : Type) where
  handed : Nat
  holds : Holder → Option Held
  reports : List Held
  passed : List Nat

namespace ItemLedger

variable {Holder : Type}

inductive Move [DecidableEq Holder] : ItemLedger Holder → ItemLedger Holder → Prop where
  | hand {ledger : ItemLedger Holder} (holder : Holder) (free : ledger.holds holder = none) :
      Move ledger { ledger with
        handed := ledger.handed + 1
        holds := Function.update ledger.holds holder (some ⟨ledger.handed, false⟩) }
  | skip {ledger : ItemLedger Holder} :
      Move ledger { ledger with
        handed := ledger.handed + 1
        reports := ledger.reports ++ [⟨ledger.handed, false⟩] }
  | pass {ledger : ItemLedger Holder} (holder : Holder) (item : Nat)
      (held : ledger.holds holder = some ⟨item, false⟩) :
      Move ledger { ledger with
        holds := Function.update ledger.holds holder (some ⟨item, true⟩)
        passed := ledger.passed ++ [item] }
  | release {ledger : ItemLedger Holder} (holder : Holder) (item : Nat)
      (held : ledger.holds holder = some ⟨item, true⟩) :
      Move ledger { ledger with holds := Function.update ledger.holds holder none }
  | report {ledger : ItemLedger Holder} (holder : Holder) (held : Held)
      (holds : ledger.holds holder = some held) :
      Move ledger { ledger with
        holds := Function.update ledger.holds holder none
        reports := ledger.reports ++ [held] }

/-- Each item that was handed out is in one place. -/
structure Balanced (ledger : ItemLedger Holder) : Prop where
  held : ∀ holder found, ledger.holds holder = some found → found.item < ledger.handed
  apart : ∀ one two found other, ledger.holds one = some found → ledger.holds two = some other →
    found.item = other.item → one = two
  reported : ∀ report ∈ ledger.reports, report.item < ledger.handed
  once : (ledger.reports.map Held.item).Nodup
  unreported : ∀ holder found, ledger.holds holder = some found →
    ∀ report ∈ ledger.reports, report.item ≠ found.item
  passes : ledger.passed.Nodup
  passed : ∀ item ∈ ledger.passed, item < ledger.handed
  marked : ∀ holder found, ledger.holds holder = some found →
    (found.item ∈ ledger.passed ↔ found.passed = true)
  told : ∀ report ∈ ledger.reports, report.item ∈ ledger.passed ↔ report.passed = true
  placed : ∀ item < ledger.handed, (∃ holder found, ledger.holds holder = some found ∧
    found.item = item) ∨ item ∈ ledger.passed ∨ ∃ report ∈ ledger.reports, report.item = item

variable {ledger after : ItemLedger Holder}

theorem balanced_start (holds : Holder → Option Held) (none_ : ∀ holder, holds holder = none) :
    Balanced ⟨0, holds, [], []⟩ := by
  constructor <;> simp [none_]

/-- As many reports as items at most. -/
theorem Balanced.reports_le (balanced : ledger.Balanced) : ledger.reports.length ≤ ledger.handed := by
  have within_ : ledger.reports.map Held.item ⊆ List.range ledger.handed := by
    intro item member
    obtain ⟨report, found, rfl⟩ := List.mem_map.mp member
    exact List.mem_range.mpr (balanced.reported report found)
  have size := (List.subperm_of_subset balanced.once within_).length_le
  rwa [List.length_map, List.length_range] at size

/-- One fewer while a holder has an item. -/
theorem Balanced.reports_lt (balanced : ledger.Balanced) {holder : Holder} {found : Held}
    (holds : ledger.holds holder = some found) : ledger.reports.length < ledger.handed := by
  have within_ : found.item :: ledger.reports.map Held.item ⊆ List.range ledger.handed := by
    intro item member
    rcases List.mem_cons.mp member with rfl | sent
    · exact List.mem_range.mpr (balanced.held holder found holds)
    · obtain ⟨report, there, rfl⟩ := List.mem_map.mp sent
      exact List.mem_range.mpr (balanced.reported report there)
  have apart : (found.item :: ledger.reports.map Held.item).Nodup := by
    refine List.nodup_cons.mpr ⟨fun sent => ?_, balanced.once⟩
    obtain ⟨report, there, same⟩ := List.mem_map.mp sent
    exact balanced.unreported holder found holds report there same
  have size := (List.subperm_of_subset apart within_).length_le
  rw [List.length_cons, List.length_map, List.length_range] at size
  exact size

section Moves

variable [DecidableEq Holder]

/-- What a holder has after one of them was given something else. -/
theorem update_some {holds : Holder → Option Held} {holder one : Holder} {next : Option Held}
    {found : Held} (here : Function.update holds holder next one = some found) :
    (one = holder ∧ next = some found) ∨ (one ≠ holder ∧ holds one = some found) := by
  by_cases same : one = holder
  · subst same
    rw [Function.update_self] at here
    exact .inl ⟨rfl, here⟩
  · rw [Function.update_of_ne same] at here
    exact .inr ⟨same, here⟩

theorem Balanced.hand (balanced : ledger.Balanced) (holder : Holder)
    (free : ledger.holds holder = none) : Balanced { ledger with
      handed := ledger.handed + 1
      holds := Function.update ledger.holds holder (some ⟨ledger.handed, false⟩) } := by
  have fresh (item : Nat) (below : item < ledger.handed) : item ≠ ledger.handed := below.ne
  constructor
  · intro one found here
    rcases update_some here with ⟨_, given⟩ | ⟨_, had⟩
    · cases given
      exact Nat.lt_succ_self _
    · exact Nat.lt_succ_of_lt (balanced.held one found had)
  · intro one two found other first second same
    rcases update_some first with ⟨rfl, given⟩ | ⟨_, had⟩ <;>
      rcases update_some second with ⟨rfl, given'⟩ | ⟨_, had'⟩
    · rfl
    · cases given
      exact absurd same.symm (fresh _ (balanced.held two other had'))
    · cases given'
      exact absurd same (fresh _ (balanced.held one found had))
    · exact balanced.apart one two found other had had' same
  · exact fun report sent => Nat.lt_succ_of_lt (balanced.reported report sent)
  · exact balanced.once
  · intro one found here report sent
    rcases update_some here with ⟨_, given⟩ | ⟨_, had⟩
    · cases given
      exact fresh _ (balanced.reported report sent)
    · exact balanced.unreported one found had report sent
  · exact balanced.passes
  · exact fun item member => Nat.lt_succ_of_lt (balanced.passed item member)
  · intro one found here
    rcases update_some here with ⟨_, given⟩ | ⟨_, had⟩
    · cases given
      exact iff_of_false (fun member => fresh _ (balanced.passed _ member) rfl) Bool.false_ne_true
    · exact balanced.marked one found had
  · exact balanced.told
  · intro item below
    rcases Nat.lt_succ_iff_lt_or_eq.mp below with older | rfl
    · rcases balanced.placed item older with ⟨one, found, had, same⟩ | settled
      · have other : one ≠ holder := by
          rintro rfl
          rw [free] at had
          cases had
        exact .inl ⟨one, found, (Function.update_of_ne other _ _).trans had, same⟩
      · exact .inr settled
    · exact .inl ⟨holder, ⟨ledger.handed, false⟩, Function.update_self _ _ _, rfl⟩

omit [DecidableEq Holder] in
theorem Balanced.skip (balanced : ledger.Balanced) : Balanced { ledger with
    handed := ledger.handed + 1
    reports := ledger.reports ++ [⟨ledger.handed, false⟩] } := by
  have fresh (item : Nat) (below : item < ledger.handed) : item ≠ ledger.handed := below.ne
  have sent {report : Held} (member : report ∈ ledger.reports ++ [⟨ledger.handed, false⟩]) :
      report ∈ ledger.reports ∨ report = ⟨ledger.handed, false⟩ := by simpa using member
  constructor
  · exact fun one found had => Nat.lt_succ_of_lt (balanced.held one found had)
  · exact balanced.apart
  · intro report member
    rcases sent member with older | rfl
    · exact Nat.lt_succ_of_lt (balanced.reported report older)
    · exact Nat.lt_succ_self _
  · rw [List.map_append, List.nodup_append]
    refine ⟨balanced.once, List.nodup_singleton _, fun item older other new => ?_⟩
    obtain ⟨report, there, rfl⟩ := List.mem_map.mp older
    rw [List.mem_singleton.mp new]
    exact fresh _ (balanced.reported report there)
  · intro one found had report member
    rcases sent member with older | rfl
    · exact balanced.unreported one found had report older
    · exact (fresh _ (balanced.held one found had)).symm
  · exact balanced.passes
  · exact fun item member => Nat.lt_succ_of_lt (balanced.passed item member)
  · exact balanced.marked
  · intro report member
    rcases sent member with older | rfl
    · exact balanced.told report older
    · exact iff_of_false (fun passed => fresh _ (balanced.passed _ passed) rfl) Bool.false_ne_true
  · intro item below
    rcases Nat.lt_succ_iff_lt_or_eq.mp below with older | rfl
    · rcases balanced.placed item older with had | passed | ⟨report, there, same⟩
      · exact .inl had
      · exact .inr (.inl passed)
      · exact .inr (.inr ⟨report, List.mem_append_left _ there, same⟩)
    · exact .inr (.inr ⟨⟨ledger.handed, false⟩, by simp, rfl⟩)

theorem Balanced.pass (balanced : ledger.Balanced) (holder : Holder) (item : Nat)
    (held : ledger.holds holder = some ⟨item, false⟩) : Balanced { ledger with
      holds := Function.update ledger.holds holder (some ⟨item, true⟩)
      passed := ledger.passed ++ [item] } := by
  have unpassed : item ∉ ledger.passed := fun member =>
    Bool.false_ne_true ((balanced.marked holder _ held).mp member)
  have own {one : Holder} {found : Held}
      (here : Function.update ledger.holds holder (some ⟨item, true⟩) one = some found) :
      (one = holder ∧ found = ⟨item, true⟩) ∨
        (ledger.holds one = some found ∧ found.item ≠ item) := by
    rcases update_some here with ⟨same, given⟩ | ⟨other, had⟩
    · exact .inl ⟨same, (Option.some.inj given).symm⟩
    · exact .inr ⟨had, fun same => other (balanced.apart one holder found _ had held same)⟩
  constructor
  · intro one found here
    rcases own here with ⟨_, rfl⟩ | ⟨had, _⟩
    · exact balanced.held holder ⟨item, false⟩ held
    · exact balanced.held one found had
  · intro one two found other first second same
    rcases own first with ⟨rfl, rfl⟩ | ⟨had, apart⟩ <;>
      rcases own second with ⟨rfl, rfl⟩ | ⟨had', apart'⟩
    · rfl
    · exact absurd same.symm apart'
    · exact absurd same apart
    · exact balanced.apart one two found other had had' same
  · exact balanced.reported
  · exact balanced.once
  · intro one found here report sent
    rcases own here with ⟨_, rfl⟩ | ⟨had, _⟩
    · exact balanced.unreported holder ⟨item, false⟩ held report sent
    · exact balanced.unreported one found had report sent
  · exact balanced.passes.append (List.nodup_singleton _) fun other member new =>
      unpassed (List.mem_singleton.mp new ▸ member)
  · intro other member
    rcases List.mem_append.mp member with older | new
    · exact balanced.passed other older
    · rw [List.mem_singleton.mp new]
      exact balanced.held holder _ held
  · intro one found here
    rcases own here with ⟨_, rfl⟩ | ⟨had, apart⟩
    · exact iff_of_true (by simp) rfl
    · rw [List.mem_append, List.mem_singleton, or_iff_left apart]
      exact balanced.marked one found had
  · intro report sent
    rw [List.mem_append, List.mem_singleton,
      or_iff_left (balanced.unreported holder _ held report sent)]
    exact balanced.told report sent
  · intro other below
    rcases balanced.placed other below with ⟨one, found, had, same⟩ | passed | sent
    · by_cases here : one = holder
      · subst here
        rw [held] at had
        cases had
        exact .inr (.inl (by simp [← same]))
      · exact .inl ⟨one, found, (Function.update_of_ne here _ _).trans had, same⟩
    · exact .inr (.inl (List.mem_append_left _ passed))
    · exact .inr (.inr sent)

/-- A holder that lets its item go, passed on or reported. -/
theorem update_none {holds : Holder → Option Held} {holder one : Holder} {found : Held}
    (here : Function.update holds holder none one = some found) :
    one ≠ holder ∧ holds one = some found := by
  rcases update_some here with ⟨_, given⟩ | kept
  · cases given
  · exact kept

theorem Balanced.release (balanced : ledger.Balanced) (holder : Holder) (item : Nat)
    (held : ledger.holds holder = some ⟨item, true⟩) :
    Balanced { ledger with holds := Function.update ledger.holds holder none } := by
  constructor
  · exact fun one found here => balanced.held one found (update_none here).2
  · exact fun one two found other first second => balanced.apart one two found other
      (update_none first).2 (update_none second).2
  · exact balanced.reported
  · exact balanced.once
  · exact fun one found here => balanced.unreported one found (update_none here).2
  · exact balanced.passes
  · exact balanced.passed
  · exact fun one found here => balanced.marked one found (update_none here).2
  · exact balanced.told
  · intro other below
    rcases balanced.placed other below with ⟨one, found, had, same⟩ | settled
    · by_cases here : one = holder
      · subst here
        rw [held] at had
        cases had
        exact .inr (.inl (same ▸ (balanced.marked one _ held).mpr rfl))
      · exact .inl ⟨one, found, (Function.update_of_ne here _ _).trans had, same⟩
    · exact .inr settled

theorem Balanced.report (balanced : ledger.Balanced) (holder : Holder) (held : Held)
    (holds : ledger.holds holder = some held) : Balanced { ledger with
      holds := Function.update ledger.holds holder none
      reports := ledger.reports ++ [held] } := by
  have sent {report : Held} (member : report ∈ ledger.reports ++ [held]) :
      report ∈ ledger.reports ∨ report = held := by simpa using member
  constructor
  · exact fun one found here => balanced.held one found (update_none here).2
  · exact fun one two found other first second => balanced.apart one two found other
      (update_none first).2 (update_none second).2
  · intro report member
    rcases sent member with older | rfl
    · exact balanced.reported report older
    · exact balanced.held holder _ holds
  · rw [List.map_append, List.nodup_append]
    refine ⟨balanced.once, List.nodup_singleton _, fun item older other new => ?_⟩
    obtain ⟨report, there, rfl⟩ := List.mem_map.mp older
    rw [List.mem_singleton.mp new]
    exact balanced.unreported holder held holds report there
  · intro one found here report member
    obtain ⟨other, had⟩ := update_none here
    rcases sent member with older | rfl
    · exact balanced.unreported one found had report older
    · exact fun same => other (balanced.apart one holder found _ had holds same.symm)
  · exact balanced.passes
  · exact balanced.passed
  · exact fun one found here => balanced.marked one found (update_none here).2
  · intro report member
    rcases sent member with older | rfl
    · exact balanced.told report older
    · exact balanced.marked holder _ holds
  · intro other below
    rcases balanced.placed other below with ⟨one, found, had, same⟩ | passed | ⟨report, there, same⟩
    · by_cases here : one = holder
      · subst here
        rw [holds] at had
        cases had
        exact .inr (.inr ⟨held, by simp, same⟩)
      · exact .inl ⟨one, found, (Function.update_of_ne here _ _).trans had, same⟩
    · exact .inr (.inl passed)
    · exact .inr (.inr ⟨report, List.mem_append_left _ there, same⟩)

theorem Balanced.move (balanced : ledger.Balanced) (moved : Move ledger after) :
    after.Balanced := by
  cases moved with
  | hand holder free => exact balanced.hand holder free
  | skip => exact balanced.skip
  | pass holder item held => exact balanced.pass holder item held
  | release holder item held => exact balanced.release holder item held
  | report holder held holds => exact balanced.report holder held holds

end Moves

/-- What a settled ledger says of an item: it was passed on, with one report at most, or it
was not, with one report that says so. -/
theorem Balanced.settled (balanced : ledger.Balanced) (free : ∀ holder, ledger.holds holder = none)
    {item : Nat} (below : item < ledger.handed) :
    (item ∈ ledger.passed ∧ ∀ report ∈ ledger.reports, report.item = item → report.passed = true) ∨
      (item ∉ ledger.passed ∧ ∃ report ∈ ledger.reports, report.item = item ∧
        report.passed = false) := by
  by_cases passed : item ∈ ledger.passed
  · refine .inl ⟨passed, fun report sent same => ?_⟩
    exact (balanced.told report sent).mp (same ▸ passed)
  · rcases balanced.placed item below with ⟨holder, found, had, _⟩ | member | ⟨report, sent, rfl⟩
    · rw [free holder] at had
      cases had
    · exact absurd member passed
    · refine .inr ⟨passed, report, sent, rfl, ?_⟩
      cases flag : report.passed with
      | false => rfl
      | true => exact absurd ((balanced.told report sent).mpr flag) passed

end ItemLedger

end Runnerd
