import Runnerd.Conduct
import Runnerd.RowSteps

/-!
What goroutines remember agrees with the table. A remembered row was there with
that version, and for as long as the version stands so does its core; a write
that succeeds therefore edits the very row its goroutine remembers, however
many other goroutines ran in between.
-/

namespace Runnerd

open GoText Interaction Interleaving Versioned

abbrev Remembered (rows : List RunnerRequestRecord) (base : RunnerState) : Prop :=
  Seen rowID rowVersion rowCore rows (sanitizeID base.id) base.version (core base)

/-- The same for another part of the row. -/
abbrev RememberedPart {Part : Type} (part : RunnerState → Part) (rows : List RunnerRequestRecord)
    (base : RunnerState) : Prop :=
  Seen rowID rowVersion (fun row => part row.toRunnerState) rows (sanitizeID base.id) base.version
    (part base)

/-- What holds of an answer by itself. -/
def Honest : Answered → Prop
  | ⟨.readState id, .ok base⟩ => base.id = sanitizeID id
  | ⟨.recoverRunner _ input, (result, none)⟩ =>
      trimSpace input.sandboxID ≠ "" → result.sandboxID = trimSpace input.sandboxID
  | _ => True

section Answers
variable {server : Server} {tid : Nat} {choice : Choice} {state after : ServerState}

theorem readState_row {table : RequestTable} {id : String} {base : RunnerState}
    (read : readState table id = .ok base) :
    ∃ row ∈ table.rows, row.toRunnerState = base ∧ row.id = sanitizeID id := by
  unfold readState readRecord at read
  split at read
  · rename_i row found
    obtain ⟨member, same⟩ := RequestTable.find_some found
    exact ⟨row, member, Except.ok.inj read, same⟩
  · cases read

theorem readState_answered {id : String} {base : RunnerState}
    (answered : respond server tid choice state (.readState id) = some (.ok base, after)) :
    after = state ∧ ∃ row ∈ state.table.rows, row.toRunnerState = base ∧
      row.id = sanitizeID id := by
  simp only [respond] at answered
  obtain ⟨same, ⟨err, failed⟩ | read⟩ := loaded_cases answered
  · cases failed
  · exact ⟨same, readState_row read.symm⟩

theorem readRequest_answered {id : String} {req : RunnerRequest}
    (answered : respond server tid choice state (.readRequest id) = some (.ok req, after)) :
    after = state ∧ ∃ row ∈ state.table.rows, recordToRequest row = req ∧
      row.id = sanitizeID id := by
  simp only [respond] at answered
  obtain ⟨same, ⟨err, failed⟩ | read⟩ := loaded_cases answered
  · cases failed
  · unfold readRequest readRecord at read
    split at read
    · rename_i row found
      obtain ⟨member, named⟩ := RequestTable.find_some found
      exact ⟨same, row, member, (Except.ok.inj read).symm, named⟩
    · cases read

theorem honest_answered {op : Op} {resp : op.Resp}
    (answered : respond server tid choice state op = some (resp, after)) : Honest ⟨op, resp⟩ := by
  cases op with
  | readState id =>
      cases resp with
      | error err => trivial
      | ok base =>
          obtain ⟨_, row, _, rfl, same⟩ := readState_answered answered
          exact same
  | recoverRunner service input =>
      simp only [respond, Option.some.injEq, Prod.mk.injEq] at answered
      obtain ⟨recovered, -⟩ := answered
      rcases resp with ⟨result, _ | err⟩
      · exact fun named => recovered_sandbox choice.recovered input named result recovered
      · trivial
  | _ => trivial

/-- A write that succeeds leaves the row as it wrote it. -/
theorem writeState_answered {writer : Writer} {st : RunnerState}
    (answered : respond server tid choice state (.writeState writer st) = some (.ok (), after)) :
    ∃ row ∈ state.table.rows, versionMatches st row = true ∧
      stateUpdates st choice.now row ∈ after.table.rows := by
  simp only [respond] at answered
  rcases stored_cases answered with ⟨err, failed, _⟩ | ⟨table, ran, rfl⟩
  · cases failed
  · unfold writeState at ran
    split at ran
    · cases ran
    · split at ran
      · rename_i present
        cases ran
        obtain ⟨row, member, matched⟩ := List.any_eq_true.mp present
        refine ⟨row, member, matched, List.mem_map.mpr ⟨row, member, ?_⟩⟩
        rw [if_pos matched]
      · cases ran

/-- A retry by hand that succeeds resets the row it names. -/
theorem retryRequest_answered {id : String} {at_ : Time} {st : RunnerState}
    (answered : respond server tid choice state (.retryRequest id at_) = some (.ok st, after)) :
    ∃ row ∈ state.table.rows, row.id = sanitizeID id ∧ retryUpdates at_ row ∈ after.table.rows := by
  simp only [respond] at answered
  rcases stored_cases answered with ⟨err, failed, _⟩ | ⟨table, ran, rfl⟩
  · cases failed
  · unfold retryRequest at ran
    split at ran
    · cases ran
    · rename_i record found
      split at ran
      · cases ran
        obtain ⟨member, named⟩ := RequestTable.find_some found
        refine ⟨record, member, named, List.mem_map.mpr ⟨record, member, ?_⟩⟩
        rw [if_pos (by simp)]
      · cases ran

/-- What a goroutine remembers of a part stays true of the rows, when a released
lease leaves the part alone and a write stores it as the goroutine has it. -/
theorem part_answered {Part : Type} (part : RunnerState → Part)
    (leased : ∀ now row, part (clearLease now row).toRunnerState = part row.toRunnerState)
    (written : ∀ st now row, part (stateUpdates st now row).toRunnerState = part st.advanced)
    {op : Op} {resp : op.Resp} {past : List Answered}
    (answered : respond server tid choice state op = some (resp, after))
    (remembers : ∀ base, Knows past base → RememberedPart part state.table.rows base) :
    ∀ base, Knows (⟨op, resp⟩ :: past) base → RememberedPart part after.table.rows base := by
  have kept (base : RunnerState) (knows : Knows past base) :
      RememberedPart part after.table.rows base :=
    seen_advances (remembers base knows) (table_keeps part leased answered)
  rintro base (⟨id, member⟩ | ⟨st, ⟨writer, member⟩, rfl⟩)
  · rcases List.mem_cons.mp member with last | older
    · cases last
      obtain ⟨same, row, present, rfl, clean⟩ := readState_answered answered
      rw [same]
      have seen : Seen rowID rowVersion (fun row => part row.toRunnerState) state.table.rows
          (rowID row) (rowVersion row) (part row.toRunnerState) := seen_of_mem present
      have idem : sanitizeID row.id = row.id := state.table.sanitized row present
      rw [RememberedPart, idem]
      exact seen
    · exact kept base (.inl ⟨id, older⟩)
  · rcases List.mem_cons.mp member with last | older
    · cases last
      obtain ⟨row, present, matched, stored⟩ := writeState_answered answered
      simp only [versionMatches, Bool.and_eq_true, beq_iff_eq] at matched
      have same : rowID (stateUpdates st choice.now row) = sanitizeID st.advanced.id := matched.1
      rw [RememberedPart, ← same, ← written st choice.now row]
      exact seen_of_mem stored
    · exact kept _ (.inr ⟨st, ⟨writer, older⟩, rfl⟩)

end Answers

section Worlds
variable {server : Server}

structure Coherent (server : Server) (world : RunnerWorld) : Prop where
  obeys : Machine.Obeys (fun _ => contract server) world
  remembers : Machine.Informed
    (fun state _ _ _ past => ∀ base, Knows past base → Remembered state.table.rows base) world
  honest : ∀ event ∈ world.trace, Honest event.call

/-- Every goroutine goes on remembering such a part. -/
theorem part_step {Part : Type} (part : RunnerState → Part)
    (leased : ∀ now row, part (clearLease now row).toRunnerState = part row.toRunnerState)
    (written : ∀ st now row, part (stateUpdates st now row).toRunnerState = part st.advanced)
    {world after : RunnerWorld} {move : RunnerMove}
    (remembers : Machine.Informed (fun state _ _ _ past =>
      ∀ base, Knows past base → RememberedPart part state.table.rows base) world)
    (stepped : (machine server).step world move = some after) :
    Machine.Informed (fun state _ _ _ past =>
      ∀ base, Knows past base → RememberedPart part state.table.rows base) after := by
  refine Machine.informed_step remembers stepped ?_ ?_ ?_
  · rintro state trace tid task base (⟨id, member⟩ | ⟨st, ⟨writer, member⟩, _⟩)
    · cases member
    · cases member
  · intro tid choice thread op resp rest state acts _ remembers
    exact part_answered part leased written acts.answer remembers
  · intro tid choice thread op resp rest state other found acts _ _ _ _ remembers base knows
    exact seen_advances (remembers base knows) (table_keeps part leased acts.answer)

theorem coherent_opened (table : RequestTable) : Coherent server (opened table) := by
  constructor
  · constructor
    · intro tid thread live
      cases live
    · intro tid thread live
      cases live
  · intro tid thread live
    cases live
  · intro event member
    cases member

theorem coherent_step {world after : RunnerWorld} {move : RunnerMove}
    (coherent : Coherent server world) (stepped : (machine server).step world move = some after) :
    Coherent server after := by
  refine ⟨Machine.obeys_step (task_keeps server) coherent.obeys stepped, ?_, ?_⟩
  · exact part_step core (fun _ _ => rfl) (fun _ _ _ => rfl) coherent.remembers stepped
  · obtain ⟨tid, choice, thread, op, resp, rest, state, rfl, acts, rfl⟩ | ⟨task, rfl, _, rfl⟩ |
      ⟨rfl, rfl⟩ := (machine server).step_cases stepped
    · intro event member
      rcases List.mem_cons.mp member with rfl | older
      · exact honest_answered acts.answer
      · exact coherent.honest event older
    · exact coherent.honest
    · exact coherent.honest

theorem coherent_reachable {condition : RunnerWorld → RunnerMove → Prop} {table : RequestTable}
    {world : RunnerWorld} (reaches : (machine server).Reaches condition (opened table) world) :
    Coherent server world := by
  induction reaches with
  | refl => exact coherent_opened table
  | step move _ _ stepped ih => exact coherent_step ih stepped

end Worlds

end Runnerd
