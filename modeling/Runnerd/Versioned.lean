import Mathlib.Data.List.Basic
import Mathlib.Data.List.Nodup

/-!
Tables whose rows carry a key and a version, changed by conditional writes.
`core` is the part of a row that the version guards. A reader that remembers
key, version and core of a row it saw can rely on them as long as the table
only advances.
-/

namespace Runnerd.Versioned

variable {Row Key Core : Type} (key : Row → Key) (version : Row → Nat) (core : Row → Core)

/-- No row disappears, versions never fall, and a row keeps its core for as
long as it keeps its version. -/
def Advances (before after : List Row) : Prop :=
  ∀ row ∈ before, ∃ next ∈ after, key next = key row ∧ version row ≤ version next ∧
    (version next = version row → core next = core row)

/-- The row under `k` has been seen with version `v` and core `c`. -/
def Seen (rows : List Row) (k : Key) (v : Nat) (c : Core) : Prop :=
  ∃ row ∈ rows, key row = k ∧ v ≤ version row ∧ (version row = v → core row = c)

variable {key version core}

theorem seen_advances {before after : List Row} {k : Key} {v : Nat} {c : Core}
    (seen : Seen key version core before k v c)
    (advances : Advances key version core before after) : Seen key version core after k v c := by
  obtain ⟨row, member, rfl, bound, same⟩ := seen
  obtain ⟨next, present, sameKey, grows, kept⟩ := advances row member
  refine ⟨next, present, sameKey, Nat.le_trans bound grows, fun unchanged => ?_⟩
  have still : version row = v := Nat.le_antisymm (unchanged ▸ grows) bound
  rw [kept (unchanged.trans still.symm), same still]

theorem seen_of_mem {rows : List Row} {row : Row} (member : row ∈ rows) :
    Seen key version core rows (key row) (version row) (core row) :=
  ⟨row, member, rfl, Nat.le_refl _, fun _ => rfl⟩

theorem unique_row {rows : List Row} (distinct : (rows.map key).Nodup) {first second : Row}
    (here : first ∈ rows) (there : second ∈ rows) (same : key first = key second) :
    first = second :=
  List.inj_on_of_nodup_map distinct here there same

/-- A conditional write that finds the version it expects finds the core it saw. -/
theorem seen_current {rows : List Row} (distinct : (rows.map key).Nodup) {row : Row} {v : Nat}
    {c : Core} (seen : Seen key version core rows (key row) v c) (member : row ∈ rows)
    (current : version row = v) : core row = c := by
  obtain ⟨found, present, sameKey, _, kept⟩ := seen
  cases unique_row distinct present member sameKey
  exact kept current

theorem advances_map {rows : List Row} (edit : Row → Row)
    (edits : ∀ row ∈ rows, key (edit row) = key row ∧ version row ≤ version (edit row) ∧
      (version (edit row) = version row → core (edit row) = core row)) :
    Advances key version core rows (rows.map edit) :=
  fun row member => ⟨edit row, List.mem_map_of_mem member, edits row member⟩

theorem advances_append (rows more : List Row) :
    Advances key version core rows (rows ++ more) :=
  fun row member => ⟨row, List.mem_append_left more member, rfl, Nat.le_refl _, fun _ => rfl⟩

section Counting
variable {rows : List Row} {counts : Row → Bool} {edit : Row → Row}

theorem countP_edit_le
    (falls : ∀ row ∈ rows, counts (edit row) = true → counts row = true) :
    (rows.map edit).countP counts ≤ rows.countP counts := by
  rw [List.countP_map]
  exact List.countP_mono_left falls

/-- An edit that only one key can make count adds one row at most. -/
theorem countP_edit_one (distinct : (rows.map key).Nodup) (k : Key)
    (falls : ∀ row ∈ rows, counts (edit row) = true → counts row = true ∨ key row = k) :
    (rows.map edit).countP counts ≤ rows.countP counts + 1 := by
  induction rows with
  | nil => exact Nat.zero_le _
  | cons row rest ih =>
      rw [List.map_cons, List.nodup_cons] at distinct
      rw [List.map_cons, List.countP_cons, List.countP_cons]
      have later : ∀ other ∈ rest, counts (edit other) = true → counts other = true ∨ key other = k :=
        fun other member => falls other (List.mem_cons_of_mem row member)
      by_cases here : key row = k
      · have tail : (rest.map edit).countP counts ≤ rest.countP counts := by
          apply countP_edit_le
          intro other member counted
          refine (later other member counted).resolve_right fun there => distinct.1 ?_
          rw [here, ← there]
          exact List.mem_map_of_mem member
        split <;> omega
      · have tail := ih distinct.2 later
        have head := falls row List.mem_cons_self
        by_cases counted : counts (edit row) = true
        · have before := (head counted).resolve_right here
          rw [if_pos counted, if_pos before]
          omega
        · rw [if_neg counted]
          omega

end Counting

end Runnerd.Versioned
