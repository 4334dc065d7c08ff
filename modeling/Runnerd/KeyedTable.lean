import Mathlib.Data.List.Nodup

/-!
A table with a primary key, and the statements that read and change it:
`SELECT ... WHERE key = ?`, `INSERT`, `UPDATE ... WHERE` with the number of rows
it matched, and `DELETE ... WHERE`. No statement can leave two rows with one key.
-/

namespace Runnerd

structure KeyedTable {Row Key : Type} (key : Row → Key) where
  rows : List Row
  distinct : (rows.map key).Nodup

namespace KeyedTable

variable {Row Key : Type} {key : Row → Key}

def empty : KeyedTable key := ⟨[], List.nodup_nil⟩

theorem ext_rows {first second : KeyedTable key} (same : first.rows = second.rows) :
    first = second := by
  cases first
  cases second
  cases same
  rfl

theorem same_row (table : KeyedTable key) {first second : Row} (here : first ∈ table.rows)
    (there : second ∈ table.rows) (same : key first = key second) : first = second :=
  List.inj_on_of_nodup_map table.distinct here there same

section Find
variable [DecidableEq Key]

def find (table : KeyedTable key) (k : Key) : Option Row :=
  table.rows.find? fun row => decide (key row = k)

theorem find_some {table : KeyedTable key} {k : Key} {row : Row} :
    table.find k = some row ↔ row ∈ table.rows ∧ key row = k := by
  constructor
  · intro found
    exact ⟨List.mem_of_find?_eq_some found, by simpa using List.find?_some found⟩
  · rintro ⟨member, rfl⟩
    cases found : table.find (key row) with
    | none =>
        have absent := List.find?_eq_none.mp found row member
        simp at absent
    | some other =>
        have same : key other = key row := by simpa using List.find?_some found
        rw [table.same_row (List.mem_of_find?_eq_some found) member same]

theorem find_none {table : KeyedTable key} {k : Key} :
    table.find k = none ↔ ∀ row ∈ table.rows, key row ≠ k := by
  rw [find, List.find?_eq_none]
  simp

/-- `INSERT`: `none` when the key is taken. -/
def insert (table : KeyedTable key) (row : Row) : Option (KeyedTable key) :=
  if free : table.find (key row) = none then
    some
      { rows := table.rows ++ [row]
        distinct := by
          rw [List.map_append, List.nodup_append]
          refine ⟨table.distinct, List.nodup_singleton _, ?_⟩
          intro k member other only same
          obtain ⟨old, present, rfl⟩ := List.mem_map.mp member
          cases List.mem_singleton.mp only
          exact find_none.mp free old present same }
  else none

theorem insert_some {table after : KeyedTable key} {row : Row}
    (inserted : table.insert row = some after) :
    table.find (key row) = none ∧ after.rows = table.rows ++ [row] := by
  unfold insert at inserted
  split at inserted
  · rename_i free
    cases inserted
    exact ⟨free, rfl⟩
  · cases inserted

theorem insert_free {table : KeyedTable key} {row : Row} (free : table.find (key row) = none) :
    ∃ after, table.insert row = some after ∧ after.rows = table.rows ++ [row] := by
  unfold insert
  rw [dif_pos free]
  exact ⟨_, rfl, rfl⟩

theorem find_insert {table after : KeyedTable key} {row : Row}
    (inserted : table.insert row = some after)
    (k : Key) : after.find k = if key row = k then some row else table.find k := by
  obtain ⟨free, rows⟩ := insert_some inserted
  rw [find, rows, List.find?_append]
  by_cases same : key row = k
  · subst same
    rw [find] at free
    simp [free]
  · rw [find]
    simp [same]

end Find

/-- An edit of the columns other than the key. -/
structure Edit (key : Row → Key) where
  apply : Row → Row
  keeps : ∀ row, key (apply row) = key row

/-- `UPDATE ... WHERE`. -/
def update (table : KeyedTable key) (matching : Row → Bool) (edit : Edit key) : KeyedTable key where
  rows := table.rows.map fun row => if matching row then edit.apply row else row
  distinct := by
    have same : key ∘ (fun row => if matching row then edit.apply row else row) = key := by
      funext row
      simp only [Function.comp_apply]
      split
      · exact edit.keeps row
      · rfl
    rw [List.map_map, same]
    exact table.distinct

/-- `RowsAffected`. -/
def affected (table : KeyedTable key) (matching : Row → Bool) : Nat := table.rows.countP matching

/-- `DELETE ... WHERE`. -/
def erase (table : KeyedTable key) (matching : Row → Bool) : KeyedTable key where
  rows := table.rows.filter fun row => !matching row
  distinct := table.distinct.sublist (List.filter_sublist.map key)

theorem mem_update {table : KeyedTable key} {matching : Row → Bool} {edit : Edit key} {row : Row} :
    row ∈ (table.update matching edit).rows ↔
      ∃ old ∈ table.rows, row = if matching old then edit.apply old else old := by
  simp only [update, List.mem_map, eq_comm]

theorem mem_erase {table : KeyedTable key} {matching : Row → Bool} {row : Row} :
    row ∈ (table.erase matching).rows ↔ row ∈ table.rows ∧ matching row = false := by
  simp [erase]

section Put
variable [DecidableEq Key]

/-- `m[key] = row`. -/
def put (table : KeyedTable key) (row : Row) : KeyedTable key where
  rows := (table.erase fun old => decide (key old = key row)).rows ++ [row]
  distinct := by
    rw [List.map_append, List.nodup_append]
    refine ⟨KeyedTable.distinct _, List.nodup_singleton _, ?_⟩
    intro k member other only same
    obtain ⟨old, present, rfl⟩ := List.mem_map.mp member
    cases List.mem_singleton.mp only
    have different := (mem_erase.mp present).2
    exact of_decide_eq_false different same

theorem mem_put {table : KeyedTable key} {row other : Row} :
    other ∈ (table.put row).rows ↔ (other ∈ table.rows ∧ key other ≠ key row) ∨ other = row := by
  simp [put, mem_erase]

theorem affected_key (table : KeyedTable key) (k : Key) :
    (table.affected fun old => decide (key old = k)) = if (table.find k).isSome then 1 else 0 := by
  have count : (table.affected fun old => decide (key old = k)) = (table.rows.map key).count k := by
    rw [affected, List.count, List.countP_map]
    exact List.countP_congr fun old _ => by simp
  rw [count]
  cases found : table.find k with
  | none =>
      rw [if_neg (by simp)]
      refine List.count_eq_zero.mpr fun member => ?_
      obtain ⟨old, present, same⟩ := List.mem_map.mp member
      exact find_none.mp found old present same
  | some old =>
      rw [if_pos (by simp)]
      obtain ⟨present, rfl⟩ := find_some.mp found
      exact List.count_eq_one_of_mem table.distinct (List.mem_map_of_mem present)

theorem erase_length (table : KeyedTable key) (k : Key) :
    (table.erase fun old => decide (key old = k)).rows.length +
      (if (table.find k).isSome then 1 else 0) = table.rows.length := by
  have both := table.rows.length_eq_countP_add_countP fun old => decide (key old = k)
  have kept : (table.erase fun old => decide (key old = k)).rows.length =
      table.rows.countP fun old => decide (¬decide (key old = k) = true) := by
    rw [List.countP_eq_length_filter]
    simp [erase]
  have one := table.affected_key k
  rw [affected] at one
  omega

theorem put_length (table : KeyedTable key) (row : Row) :
    (table.put row).rows.length + (if (table.find (key row)).isSome then 1 else 0) =
      table.rows.length + 1 := by
  have left := table.erase_length (key row)
  simp only [put, List.length_append, List.length_singleton]
  omega

theorem put_length_present {table : KeyedTable key} {row old : Row}
    (found : table.find (key row) = some old) :
    (table.put row).rows.length = table.rows.length := by
  have size := table.put_length row
  rw [found] at size
  simpa using size

end Put

/-- An update that matches no row changes nothing. -/
theorem update_none {table : KeyedTable key} {matching : Row → Bool} {edit : Edit key}
    (none : table.affected matching = 0) : table.update matching edit = table := by
  apply ext_rows
  have unmatched : ∀ row ∈ table.rows, matching row = false := by
    intro row member
    have absent := List.countP_eq_zero.mp none row member
    simpa using absent
  have same : ∀ row ∈ table.rows, (if matching row then edit.apply row else row) = row := by
    intro row member
    simp [unmatched row member]
  exact (List.map_congr_left same).trans (List.map_id _)

/-- A key keeps its row's place under an update. -/
theorem find_update [DecidableEq Key] (table : KeyedTable key) (matching : Row → Bool)
    (edit : Edit key) (k : Key) :
    (table.update matching edit).find k =
      (table.find k).map fun row => if matching row then edit.apply row else row := by
  cases found : table.find k with
  | none =>
      rw [Option.map_none, find_none]
      intro row member
      obtain ⟨old, present, rfl⟩ := mem_update.mp member
      have other := find_none.mp found old present
      split
      · rw [edit.keeps]
        exact other
      · exact other
  | some row =>
      obtain ⟨member, rfl⟩ := find_some.mp found
      rw [Option.map_some, find_some]
      refine ⟨mem_update.mpr ⟨row, member, rfl⟩, ?_⟩
      split
      · exact edit.keeps row
      · rfl

theorem find_put [DecidableEq Key] (table : KeyedTable key) (row : Row) (k : Key) :
    (table.put row).find k = if key row = k then some row else table.find k := by
  by_cases same : key row = k
  · rw [if_pos same]
    exact find_some.mpr ⟨mem_put.mpr (.inr rfl), same⟩
  · rw [if_neg same, find, put, List.find?_append]
    have later : [row].find? (fun other => decide (key other = k)) = none := by simp [same]
    rw [later, Option.or_none, erase, List.find?_filter]
    congr 1
    funext other
    by_cases here : key other = k
    · have apart : k ≠ key row := fun equal => same equal.symm
      simp [here, apart]
    · simp [here]

theorem find_erase [DecidableEq Key] (table : KeyedTable key) (erased k : Key) :
    (table.erase fun row => decide (key row = erased)).find k =
      if k = erased then none else table.find k := by
  rw [find, erase, List.find?_filter]
  by_cases same : k = erased
  · subst same
    rw [if_pos rfl, List.find?_eq_none]
    simp
  · rw [if_neg same]
    congr 1
    funext row
    by_cases here : key row = k
    · simp [here, same]
    · simp [here]

end KeyedTable

end Runnerd
