import Mathlib.Data.List.Basic
import Mathlib.Data.List.Count

/-!
A list cut at each occurrence of a separator: what the pieces of an appended list
are, and what a piece can hold.
-/

namespace Runnerd.SplitText

variable {α : Type} [DecidableEq α]

/-- A front without the separator goes to the first piece. -/
theorem splitOn_append_absent {separator : α} {front : List α} (absent : separator ∉ front)
    (rest : List α) :
    (front ++ rest).splitOn separator = (rest.splitOn separator).modifyHead (front ++ ·) := by
  induction front with
  | nil =>
      rw [List.nil_append]
      cases rest.splitOn separator <;> rfl
  | cons first front ih =>
      simp only [List.mem_cons, not_or] at absent
      have other : (first == separator) = false := by simpa using Ne.symm absent.1
      rw [List.cons_append, List.splitOn_cons_eq_if_modifyHead, other, ih absent.2]
      cases rest.splitOn separator <;> rfl

/-- The first piece ends where the first separator stands. -/
theorem splitOn_first (separator : α) (text : List α) :
    ∃ rest, text.splitOn separator = text.takeWhile (fun item => item != separator) :: rest := by
  induction text with
  | nil => exact ⟨[], rfl⟩
  | cons first text ih =>
      obtain ⟨rest, pieces⟩ := ih
      rw [List.splitOn_cons_eq_if_modifyHead]
      by_cases ends : first = separator
      · exact ⟨text.splitOn separator, by simp [ends]⟩
      · exact ⟨rest, by simp [ends, pieces]⟩

theorem piece_sublist {separator : α} {text piece : List α}
    (member : piece ∈ text.splitOn separator) : piece.Sublist text := by
  induction text generalizing piece with
  | nil =>
      rw [List.splitOn_nil, List.mem_singleton] at member
      rw [member]
  | cons first text ih =>
      rw [List.splitOn_cons_eq_if_modifyHead] at member
      split at member
      · rcases List.mem_cons.mp member with rfl | later
        · exact List.nil_sublist _
        · exact (ih later).cons first
      · obtain ⟨rest, pieces⟩ := splitOn_first separator text
        rw [pieces, List.modifyHead_cons] at member
        rcases List.mem_cons.mp member with rfl | later
        · exact (ih (by rw [pieces]; exact List.mem_cons_self)).cons_cons first
        · exact (ih (by rw [pieces]; exact List.mem_cons_of_mem _ later)).cons first

theorem separator_absent {separator : α} {text piece : List α}
    (member : piece ∈ text.splitOn separator) : separator ∉ piece := by
  induction text generalizing piece with
  | nil =>
      rw [List.splitOn_nil, List.mem_singleton] at member
      simp [member]
  | cons first text ih =>
      rw [List.splitOn_cons_eq_if_modifyHead] at member
      by_cases ends : first = separator
      · rw [if_pos (beq_iff_eq.mpr ends)] at member
        rcases List.mem_cons.mp member with rfl | later
        · exact List.not_mem_nil
        · exact ih later
      · rw [if_neg (mt beq_iff_eq.mp ends)] at member
        obtain ⟨rest, pieces⟩ := splitOn_first separator text
        rw [pieces, List.modifyHead_cons] at member
        rcases List.mem_cons.mp member with rfl | later
        · have absent := ih (by rw [pieces]; exact List.mem_cons_self)
          rw [List.mem_cons, not_or]
          exact ⟨Ne.symm ends, absent⟩
        · exact ih (by rw [pieces]; exact List.mem_cons_of_mem _ later)

omit [DecidableEq α] in
theorem exists_last {separator : α} {text : List α} (member : separator ∈ text) :
    ∃ front back, text = front ++ separator :: back ∧ separator ∉ back := by
  obtain ⟨back, front, reversed, absent⟩ :=
    List.eq_append_cons_of_mem (List.mem_reverse.mpr member)
  refine ⟨front.reverse, back.reverse, ?_, by simpa using absent⟩
  have turned := congrArg List.reverse reversed
  simpa using turned

end Runnerd.SplitText
