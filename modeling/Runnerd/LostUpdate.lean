import Runnerd.RowSteps

/-!
Optimistic locking on `runner_requests`. A caller reads a row, other
transactions commit, and the caller writes over the version it read. Every
transaction that changes a row raises its version, except `ReleaseLease`: it
clears the lease and leaves the version alone, so a write that succeeds may
still bury a release.
-/

namespace Runnerd

open GoText Interaction

inductive Transaction where
  | readState (id : String)
  | writeState (now : Time) (st : RunnerState)
  | claimNextRunnable (workerID : String) (now : Time) (leaseTTL : Duration)
  | releaseLease (now : Time) (id workerID : String)
  | retryRequest (now : Time) (id : String)

namespace Transaction

def commit (table : RequestTable) : Transaction → RequestTable
  | .readState _ => table
  | .writeState now st => (Runnerd.writeState now table st).2
  | .claimNextRunnable workerID now leaseTTL =>
      (Runnerd.claimNextRunnable table workerID now leaseTTL).2
  | .releaseLease now id workerID => (Runnerd.releaseLease now table id workerID).2
  | .retryRequest now id => (Runnerd.retryRequest now table id).2

def commitAll : List Transaction → RequestTable → RequestTable
  | [], table => table
  | transaction :: rest, table => commitAll rest (transaction.commit table)

/-- A `ReleaseLease` that finds the row under the worker it names, with a column
to clear or an older `updated_at`. -/
def clearsLease (row : RunnerRequestRecord) : Transaction → Bool
  | .releaseLease now id workerID =>
      leaseMatches id workerID row &&
        (row.leaseOwner != "" || row.leaseExpiresAt.isSome || row.updatedAt != now)
  | _ => false

/-- No transaction changes a column of the row. -/
def LeaveAlone (id : String) : List Transaction → RequestTable → Prop
  | [], _ => True
  | transaction :: rest, table =>
      (transaction.commit table).find id = table.find id ∧
        LeaveAlone id rest (transaction.commit table)

def keepLease (id : String) : List Transaction → RequestTable → Bool
  | [], _ => true
  | transaction :: rest, table =>
      (table.find id).all (fun row => !transaction.clearsLease row) &&
        keepLease id rest (transaction.commit table)

end Transaction

section Rows

theorem RequestTable.find_row {table : RequestTable} {row : RunnerRequestRecord}
    (member : row ∈ table.rows) : table.find row.id = some row := by
  cases found : table.find row.id with
  | none =>
      have absent := List.find?_eq_none.mp found row member
      simp at absent
  | some other =>
      obtain ⟨present, same⟩ := RequestTable.find_some found
      rw [table.same_row present member same]

/-- The row that a statement leaves where it found `row`. -/
theorem find_edited {now : Time} {call : Answered} {table after : RequestTable} {id : String}
    {row : RunnerRequestRecord} (edited : Edited now call table.rows after.rows)
    (found : table.find id = some row) :
    ∃ next, after.find id = some next ∧ (next = row ∨ RowStep now call row next) := by
  obtain ⟨member, same⟩ := RequestTable.find_some found
  obtain ⟨edit, rows, steps⟩ := edited
  have present : edit row ∈ after.rows := by
    rw [rows]
    exact List.mem_map_of_mem member
  have key : (edit row).id = id := by
    rcases steps row member with kept | step
    · rw [kept]
      exact same
    · exact step.sameID.trans same
  refine ⟨edit row, ?_, steps row member⟩
  rw [← key]
  exact RequestTable.find_row present

/-- A row keeps its version only when it is kept or its lease is released. -/
theorem rowStep_raises {now : Time} {op : Op} {resp : op.Resp} {row next : RunnerRequestRecord}
    (step : RowStep now ⟨op, resp⟩ row next) (lasting : ∀ id workerID, op ≠ .releaseLease id workerID) :
    row.version < next.version := by
  cases step with
  | written matched =>
      simp only [versionMatches, Bool.and_eq_true, beq_iff_eq] at matched
      simp only [stateUpdates]
      omega
  | claimed free => exact Nat.lt_succ_self _
  | released matched => exact absurd rfl (lasting _ _)
  | retried allowed named => exact Nat.lt_succ_self _

theorem clearLease_eq_iff (now : Time) (row : RunnerRequestRecord) :
    clearLease now row = row ↔
      row.leaseOwner = "" ∧ row.leaseExpiresAt = none ∧ row.updatedAt = now := by
  constructor
  · intro same
    rw [← same]
    exact ⟨rfl, rfl, rfl⟩
  · rintro ⟨owner, expires, updated⟩
    rcases row with ⟨⟨⟩⟩
    simp_all [clearLease]

end Rows

namespace Transaction
variable {table : RequestTable} {id : String} {row : RunnerRequestRecord}

/-- What a committed transaction leaves of a row: a transaction that clears no
lease keeps it or raises its version. -/
theorem commit_row (transaction : Transaction) (found : table.find id = some row) :
    ∃ next, (transaction.commit table).find id = some next ∧
      (next = row ∨ row.version < next.version ∨ transaction.clearsLease row = true) ∧
      (transaction.clearsLease row = true → next ≠ row) ∧ row.version ≤ next.version := by
  -- the other four statements share one argument
  have raised {now : Time} {op : Op} {resp : op.Resp} {after : RequestTable}
      (edited : Edited now ⟨op, resp⟩ table.rows after.rows)
      (lasting : ∀ id workerID, op ≠ .releaseLease id workerID) :
      ∃ next, after.find id = some next ∧ (next = row ∨ row.version < next.version) := by
    obtain ⟨next, stays, kept | step⟩ := find_edited edited found
    · exact ⟨next, stays, .inl kept⟩
    · exact ⟨next, stays, .inr (rowStep_raises step lasting)⟩
  have settle {after : RequestTable} (cleared : transaction.clearsLease row = false)
      (next : ∃ next, after.find id = some next ∧ (next = row ∨ row.version < next.version)) :
      ∃ next, after.find id = some next ∧
        (next = row ∨ row.version < next.version ∨ transaction.clearsLease row = true) ∧
        (transaction.clearsLease row = true → next ≠ row) ∧ row.version ≤ next.version := by
    obtain ⟨next, stays, kept | higher⟩ := next
    · exact ⟨next, stays, .inl kept, by simp [cleared], by rw [kept]⟩
    · exact ⟨next, stays, .inr (.inl higher), by simp [cleared], Nat.le_of_lt higher⟩
  cases transaction with
  | readState other => exact settle rfl ⟨row, found, .inl rfl⟩
  | writeState now st =>
      cases ran : Runnerd.writeState now table st with
      | mk answer after =>
          rw [commit, ran]
          exact settle rfl (raised (writeState_edited .exited ran) (by simp))
  | claimNextRunnable workerID now leaseTTL =>
      cases ran : Runnerd.claimNextRunnable table workerID now leaseTTL with
      | mk answer after =>
          rw [commit, ran]
          exact settle rfl (raised (claimNextRunnable_edited now ran) (by simp))
  | retryRequest now other =>
      cases ran : Runnerd.retryRequest now table other with
      | mk answer after =>
          rw [commit, ran]
          exact settle rfl (raised (retryRequest_edited now ran) (by simp))
  | releaseLease now other workerID =>
      by_cases matched : leaseMatches other workerID row = true
      · have cleared : (commit table (.releaseLease now other workerID)).find id =
            some (clearLease now row) := by
          obtain ⟨member, rfl⟩ := RequestTable.find_some found
          have present : clearLease now row ∈
              (commit table (.releaseLease now other workerID)).rows := by
            refine List.mem_map.mpr ⟨row, member, ?_⟩
            rw [if_pos matched]
          exact RequestTable.find_row present
        refine ⟨clearLease now row, cleared, ?_, ?_, Nat.le_refl _⟩
        · by_cases idle : clearLease now row = row
          · exact .inl idle
          · rw [clearLease_eq_iff] at idle
            refine .inr (.inr ?_)
            simp only [clearsLease, matched, Bool.true_and, Bool.or_eq_true, bne_iff_ne,
              Option.isSome_iff_ne_none]
            by_contra none
            simp only [not_or, not_not] at none
            exact idle ⟨none.1.1, none.1.2, none.2⟩
        · intro clears idle
          rw [clearLease_eq_iff] at idle
          simp [clearsLease, idle.1, idle.2.1, idle.2.2] at clears
      · have kept : (commit table (.releaseLease now other workerID)).find id = some row := by
          obtain ⟨member, rfl⟩ := RequestTable.find_some found
          refine RequestTable.find_row (List.mem_map.mpr ⟨row, member, ?_⟩)
          rw [if_neg matched]
        exact settle (by simp [clearsLease, matched]) ⟨row, kept, .inl rfl⟩

/-- Versions never fall. -/
theorem commitAll_row (history : List Transaction) (found : table.find id = some row) :
    ∃ last, (commitAll history table).find id = some last ∧ row.version ≤ last.version := by
  induction history generalizing table row with
  | nil => exact ⟨row, found, Nat.le_refl _⟩
  | cons transaction rest ih =>
      obtain ⟨next, stays, _, _, grows⟩ := transaction.commit_row found
      obtain ⟨last, ends, higher⟩ := ih stays
      exact ⟨last, ends, Nat.le_trans grows higher⟩

/-- A row that ends a history at the version it began with was left alone
exactly if no transaction cleared its lease. -/
theorem leaveAlone_iff (history : List Transaction) (found : table.find id = some row)
    {last : RunnerRequestRecord} (ends : (commitAll history table).find id = some last)
    (same : last.version = row.version) :
    LeaveAlone id history table ↔ keepLease id history table = true := by
  induction history generalizing table row with
  | nil => exact ⟨fun _ => rfl, fun _ => True.intro⟩
  | cons transaction rest ih =>
      obtain ⟨next, stays, outcome, cleared, grows⟩ := transaction.commit_row found
      obtain ⟨final, finds, higher⟩ := commitAll_row rest stays
      have final_eq : final = last := Option.some.inj (finds.symm.trans ends)
      subst final_eq
      have later := ih stays ends (by omega)
      have head : (transaction.commit table).find id = table.find id ↔
          transaction.clearsLease row = false := by
        rw [stays, found, Option.some.injEq]
        constructor
        · intro kept
          by_contra clears
          exact cleared (by simpa using clears) kept
        · intro keeps
          rcases outcome with kept | raised | clears
          · exact kept
          · omega
          · simp [keeps] at clears
      rw [LeaveAlone, keepLease, head, later, found]
      simp

end Transaction

section Writes
variable {table final : RequestTable} {id : String} {base st : RunnerState}
  {history : List Transaction} {now : Time}

open Transaction

/-- A write over the version that was read succeeds with nothing lost exactly if
no `ReleaseLease` came between them. -/
theorem no_lost_update_iff (read : readState table id = .ok base) (sameID : st.id = base.id)
    (sameVersion : st.version = base.version)
    (written : writeState now (commitAll history table) st = (.ok (), final)) :
    LeaveAlone base.id history table ↔ keepLease base.id history table = true := by
  unfold readState readRecord at read
  cases found : table.find (sanitizeID id) with
  | none => simp [found, Except.map] at read
  | some row =>
      rw [found] at read
      obtain rfl : row.toRunnerState = base := Except.ok.inj read
      obtain ⟨member, key⟩ := RequestTable.find_some found
      have clean : sanitizeID row.id = row.id := table.sanitized row member
      rw [← key] at found
      obtain ⟨last, ends, _⟩ := commitAll_row history found
      -- the write found the version that was read
      have current : last.version = row.version := by
        unfold writeState at written
        split at written
        · cases written
        · split at written
          · rename_i matched
            obtain ⟨other, present, keys⟩ := List.any_eq_true.mp matched
            simp only [versionMatches, Bool.and_eq_true, beq_iff_eq] at keys
            obtain ⟨here, named⟩ := RequestTable.find_some ends
            have same : other = last := by
              apply RequestTable.same_row _ present here
              rw [keys.1, sameID, named]
              exact clean
            rw [← same, keys.2, sameVersion]
          · cases written
      exact leaveAlone_iff history found ends current

/-- A queued request that worker `w` has leased. -/
def leasedTable : RequestTable where
  rows := [{ id := "1", status := .queued, leaseOwner := "w", leaseExpiresAt := some 9, version := 1 }]
  primaryKey := by decide
  jobIndex := by decide
  sanitized := by decide

def leasedState : RunnerState :=
  { id := "1", status := .queued, leaseOwner := "w", leaseExpiresAt := some 9, version := 1 }

/-- What the leaseholder writes over it. -/
def renewedState : RunnerState := { leasedState with status := .creating, leaseExpiresAt := some 20 }

/-- Another worker's release and a retry that is not allowed come in between. -/
theorem no_lost_update_other_worker :
    LeaveAlone "1" [.releaseLease 5 "1" "v", .retryRequest 5 "1"] leasedTable := by
  have read : readState leasedTable "1" = .ok leasedState := by decide
  have sameID : renewedState.id = leasedState.id := rfl
  have sameVersion : renewedState.version = leasedState.version := rfl
  have written : writeState 6
      (commitAll [.releaseLease 5 "1" "v", .retryRequest 5 "1"] leasedTable) renewedState =
        (.ok (), _) := rfl
  exact (no_lost_update_iff read sameID sameVersion written).mpr (by decide)

/-- A release between the read and the write is lost: the write puts the lease
back. -/
theorem lease_release_lost :
    ¬∀ (table final : RequestTable) (id : String) (base st : RunnerState)
      (history : List Transaction) (now : Time), readState table id = .ok base →
      st.id = base.id → st.version = base.version →
      writeState now (commitAll history table) st = (.ok (), final) →
      LeaveAlone base.id history table := by
  intro always
  have alone := always leasedTable _ "1" leasedState renewedState [.releaseLease 5 "1" "w"] 6
    (by decide) rfl rfl rfl
  have changed : ((Transaction.releaseLease 5 "1" "w").commit leasedTable).find "1" ≠
      leasedTable.find "1" := by decide
  exact changed alone.1

end Writes

end Runnerd
