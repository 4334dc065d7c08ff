import Runnerd.Transitions
import Runnerd.Versioned

/-!
What one answered call does to the rows. Each of the four statements that
update `runner_requests` changes the rows it matches and no other; the fifth
adds a row. `core` is the part of a row that only a new version can change.
-/

namespace Runnerd

open GoText Interaction Interleaving Versioned

section Core

structure Core where
  status : Status
  sandboxID : String
  failureStage : String
  failureReason : String
  error : String
  profileName : String
  retryCount : Nat
  deriving DecidableEq, Repr

def core (st : RunnerState) : Core :=
  ⟨st.status, st.sandboxID, st.failureStage, st.failureReason, st.error, st.profileName,
    st.retryCount⟩

def rowID (row : RunnerRequestRecord) : String := row.id
def rowVersion (row : RunnerRequestRecord) : Nat := row.version
def rowCore (row : RunnerRequestRecord) : Core := core row.toRunnerState

end Core

section Rows

/-- A call that changes a row, with the row before and after it. -/
inductive RowStep (now : Time) : Answered → RunnerRequestRecord → RunnerRequestRecord → Prop where
  | written {writer : Writer} {st : RunnerState} {row : RunnerRequestRecord}
      (matched : versionMatches st row = true) :
      RowStep now ⟨.writeState writer st, .ok ()⟩ row (stateUpdates st now row)
  | claimed {workerID : String} {at_ : Time} {leaseTTL : Duration} {row : RunnerRequestRecord}
      (free : claimable at_ row = true) :
      RowStep now
        ⟨.claimNextRunnable workerID at_ leaseTTL, .ok (some
          (recordToRequest (claimUpdates (trimSpace workerID) at_ leaseTTL row),
            recordToState (claimUpdates (trimSpace workerID) at_ leaseTTL row)))⟩
        row (claimUpdates (trimSpace workerID) at_ leaseTTL row)
  | released {id workerID : String} {row : RunnerRequestRecord}
      (matched : leaseMatches id workerID row = true) :
      RowStep now ⟨.releaseLease id workerID, .ok ()⟩ row (clearLease now row)
  | retried {id : String} {at_ : Time} {row : RunnerRequestRecord}
      (allowed : retryAllowed row = true) (named : row.id = sanitizeID id) :
      RowStep now ⟨.retryRequest id at_, .ok (recordToState (retryUpdates at_ row))⟩
        row (retryUpdates at_ row)

/-- The rows after a call, one for each row before it. -/
def Edited (now : Time) (call : Answered) (before after : List RunnerRequestRecord) : Prop :=
  ∃ edit : RunnerRequestRecord → RunnerRequestRecord, after = before.map edit ∧
    ∀ row ∈ before, edit row = row ∨ RowStep now call row (edit row)

/-- A call that adds a row. -/
inductive Added (now : Time) : Answered → RunnerRequestRecord → Prop where
  | created {req : RunnerRequest} {links : GitHubContext} {status : Status}
      {stage reason message : String} {st : RunnerState} :
      Added now ⟨.createRequest req links status stage reason message, .ok (true, st)⟩
        (admittedRecord now req links status stage reason message)

theorem edited_same (now : Time) (call : Answered) (rows : List RunnerRequestRecord) :
    Edited now call rows rows :=
  ⟨id, (List.map_id rows).symm, fun _ _ => .inl rfl⟩

theorem edited_update (now : Time) (call : Answered) (table : RequestTable)
    (matching : RunnerRequestRecord → Bool) (edit : RequestTable.Edit)
    (steps : ∀ row ∈ table.rows, matching row = true → RowStep now call row (edit.apply row)) :
    Edited now call table.rows (table.update matching edit).rows := by
  refine ⟨fun row => if matching row then edit.apply row else row, rfl, fun row member => ?_⟩
  by_cases hit : matching row = true
  · exact .inr (by simpa [hit] using steps row member hit)
  · exact .inl (by simp [hit])

theorem stored_cases {α : Type} {choice : Choice} {state after : ServerState}
    {operation : RequestTable → Except GoError α × RequestTable} {answer : Except GoError α}
    (answered : stored choice state operation = some (answer, after)) :
    (∃ err, answer = .error err ∧ after = state) ∨
      ∃ table, operation state.table = (answer, table) ∧
        after = { state with table := table } := by
  unfold stored at answered
  split at answered
  · cases answered
    exact .inl ⟨_, rfl, rfl⟩
  · cases ran : operation state.table with
    | mk result table =>
        rw [ran] at answered
        cases answered
        exact .inr ⟨table, rfl, rfl⟩

theorem loaded_cases {α : Type} {choice : Choice} {state after : ServerState}
    {query : RequestTable → Except GoError α} {answer : Except GoError α}
    (answered : loaded choice state query = some (answer, after)) :
    after = state ∧ ((∃ err, answer = .error err) ∨ answer = query state.table) := by
  rcases stored_cases answered with ⟨err, rfl, rfl⟩ | ⟨table, ran, rfl⟩
  · exact ⟨rfl, .inl ⟨err, rfl⟩⟩
  · obtain ⟨rfl, rfl⟩ := Prod.mk.inj ran
    exact ⟨rfl, .inr rfl⟩

theorem writeState_edited {now : Time} {table after : RequestTable} (writer : Writer)
    {st : RunnerState} {answer : Except GoError Unit}
    (ran : writeState now table st = (answer, after)) :
    Edited now ⟨.writeState writer st, answer⟩ table.rows after.rows := by
  unfold writeState at ran
  split at ran
  · cases ran
    exact edited_same _ _ _
  · split at ran
    · cases ran
      exact edited_update _ _ _ _ _ fun row _ matched => .written matched
    · cases ran
      exact edited_same _ _ _

theorem firstQueued_mem {rows : List RunnerRequestRecord} {row : RunnerRequestRecord}
    (first : firstQueued rows = some row) : row ∈ rows := by
  induction rows with
  | nil => cases first
  | cons head rest ih =>
      simp only [firstQueued] at first
      split at first
      · cases first
        exact List.mem_cons_self
      · rename_i best found
        split at first
        · cases first
          exact List.mem_cons_of_mem _ (ih found)
        · cases first
          exact List.mem_cons_self

theorem RequestTable.same_row (table : RequestTable) {first second : RunnerRequestRecord}
    (here : first ∈ table.rows) (there : second ∈ table.rows) (same : first.id = second.id) :
    first = second :=
  unique_row table.primaryKey here there same

theorem claimNextRunnable_edited (now : Time) {table after : RequestTable} {workerID : String}
    {at_ : Time} {leaseTTL : Duration}
    {answer : Except GoError (Option (RunnerRequest × RunnerState))}
    (ran : claimNextRunnable table workerID at_ leaseTTL = (answer, after)) :
    Edited now ⟨.claimNextRunnable workerID at_ leaseTTL, answer⟩ table.rows after.rows := by
  unfold claimNextRunnable at ran
  dsimp only at ran
  split at ran
  · cases ran
    exact edited_same _ _ _
  · split at ran
    · cases ran
      exact edited_same _ _ _
    · rename_i candidate first
      cases ran
      have member := firstQueued_mem first
      rw [List.mem_filter] at member
      refine edited_update _ _ _ _ _ fun row present same => ?_
      cases table.same_row present member.1 (by simpa using same)
      exact .claimed member.2

theorem RequestTable.find_some {table : RequestTable} {id : String} {row : RunnerRequestRecord}
    (found : table.find id = some row) : row ∈ table.rows ∧ row.id = id :=
  ⟨List.mem_of_find?_eq_some found, by simpa using List.find?_some found⟩

theorem retryRequest_edited (now : Time) {table after : RequestTable} {id : String} {at_ : Time}
    {answer : Except GoError RunnerState} (ran : retryRequest at_ table id = (answer, after)) :
    Edited now ⟨.retryRequest id at_, answer⟩ table.rows after.rows := by
  unfold retryRequest at ran
  split at ran
  · cases ran
    exact edited_same _ _ _
  · rename_i record found
    split at ran
    · rename_i allowed
      cases ran
      obtain ⟨member, named⟩ := RequestTable.find_some found
      refine edited_update _ _ _ _ _ fun row present same => ?_
      simp only [Bool.and_eq_true, beq_iff_eq] at same
      cases table.same_row present member same.1
      exact .retried allowed named
    · cases ran
      exact edited_same _ _ _

theorem RequestTable.insert_rows {table next : RequestTable} {record : RunnerRequestRecord}
    {clean : sanitizeID record.id = record.id} (inserted : table.insert record clean = some next) :
    next.rows = table.rows ++ [record] := by
  unfold RequestTable.insert at inserted
  split at inserted
  · cases inserted
    rfl
  · cases inserted

theorem createRequest_rows {now : Time} {table after : RequestTable} {req : RunnerRequest}
    {links : GitHubContext} {status : Status} {stage reason message : String}
    {answer : Except GoError (Bool × RunnerState)}
    (ran : createRequest now table req links status stage reason message = (answer, after)) :
    Edited now ⟨.createRequest req links status stage reason message, answer⟩ table.rows
        after.rows ∨
      ∃ row, Added now ⟨.createRequest req links status stage reason message, answer⟩ row ∧
        after.rows = table.rows ++ [row] := by
  unfold createRequest at ran
  split at ran
  · cases ran
    exact .inl (edited_same _ _ _)
  · dsimp only at ran
    split at ran
    · rename_i next inserted
      cases ran
      exact .inr ⟨_, .created, RequestTable.insert_rows inserted⟩
    · split at ran
      · cases ran
        exact .inl (edited_same _ _ _)
      · cases ran
        exact .inl (edited_same _ _ _)

/-- Everything a call can do to the table. -/
theorem rows_answered {server : Server} {tid : Nat} {choice : Choice} {state after : ServerState}
    {op : Op} {resp : op.Resp} (answered : respond server tid choice state op = some (resp, after)) :
    Edited choice.now ⟨op, resp⟩ state.table.rows after.table.rows ∨
      ∃ row, Added choice.now ⟨op, resp⟩ row ∧ after.table.rows = state.table.rows ++ [row] := by
  have unchanged (same : after.table = state.table) :
      Edited choice.now ⟨op, resp⟩ state.table.rows after.table.rows := by
    rw [same]
    exact edited_same _ _ _
  cases op with
  | writeState writer st =>
      simp only [respond] at answered
      rcases stored_cases answered with ⟨err, rfl, rfl⟩ | ⟨table, ran, rfl⟩
      · exact .inl (unchanged rfl)
      · exact .inl (writeState_edited writer ran)
  | claimNextRunnable workerID at_ leaseTTL =>
      simp only [respond] at answered
      rcases stored_cases answered with ⟨err, rfl, rfl⟩ | ⟨table, ran, rfl⟩
      · exact .inl (unchanged rfl)
      · exact .inl (claimNextRunnable_edited choice.now ran)
  | releaseLease id workerID =>
      simp only [respond] at answered
      rcases stored_cases answered with ⟨err, rfl, rfl⟩ | ⟨table, ran, rfl⟩
      · exact .inl (unchanged rfl)
      · cases ran
        exact .inl (edited_update _ _ _ _ _ fun row _ matched => .released matched)
  | retryRequest id at_ =>
      simp only [respond] at answered
      rcases stored_cases answered with ⟨err, rfl, rfl⟩ | ⟨table, ran, rfl⟩
      · exact .inl (unchanged rfl)
      · exact .inl (retryRequest_edited choice.now ran)
  | createRequest req links status stage reason message =>
      simp only [respond] at answered
      rcases stored_cases answered with ⟨err, rfl, rfl⟩ | ⟨table, ran, rfl⟩
      · exact .inl (unchanged rfl)
      · exact createRequest_rows ran
  -- the reads, the locks and the slots leave the rows alone
  | readState id =>
      simp only [respond] at answered
      exact .inl (unchanged (by rw [(loaded_cases answered).1]))
  | readRequest id =>
      simp only [respond] at answered
      exact .inl (unchanged (by rw [(loaded_cases answered).1]))
  | inFlightCount =>
      simp only [respond] at answered
      exact .inl (unchanged (by rw [(loaded_cases answered).1]))
  | inFlightCountForProfile name =>
      simp only [respond] at answered
      exact .inl (unchanged (by rw [(loaded_cases answered).1]))
  | getProfile name =>
      simp only [respond] at answered
      exact .inl (unchanged (by rw [(loaded_cases answered).1]))
  | matchProfile repository labels =>
      simp only [respond] at answered
      exact .inl (unchanged (by rw [(loaded_cases answered).1]))
  | listActiveStates =>
      simp only [respond] at answered
      exact .inl (unchanged (by rw [(loaded_cases answered).1]))
  | listMismatchedCompletedStates limit =>
      simp only [respond] at answered
      exact .inl (unchanged (by rw [(loaded_cases answered).1]))
  | listFailedWorkflowJobStates limit =>
      simp only [respond] at answered
      exact .inl (unchanged (by rw [(loaded_cases answered).1]))
  | lockRunner id =>
      simp only [respond] at answered
      split at answered
      · cases answered
      · cases answered
        exact .inl (unchanged rfl)
  | lockAdmission =>
      simp only [respond] at answered
      split at answered
      · cases answered
      · cases answered
        exact .inl (unchanged rfl)
  | acquireSlot =>
      simp only [respond] at answered
      split at answered
      · cases answered
        exact .inl (unchanged rfl)
      · cases answered
        exact .inl (unchanged rfl)
  | awaitExit =>
      simp only [respond] at answered
      split at answered
      · cases answered
        exact .inl (unchanged rfl)
      · cases answered
  | exitWatchAccepted owner =>
      simp only [respond, Option.map_eq_some_iff] at answered
      obtain ⟨accepted, -, same⟩ := answered
      cases same
      exact .inl (unchanged rfl)
  | _ =>
      cases answered
      exact .inl (unchanged rfl)

/-- A changed row keeps its id and never falls back to an old version. At the
same version it keeps every part that a released lease leaves alone. -/
theorem rowStep_keeps {Part : Type} (part : RunnerState → Part)
    (leased : ∀ now row, part (clearLease now row).toRunnerState = part row.toRunnerState)
    {now : Time} {call : Answered} {row next : RunnerRequestRecord}
    (step : RowStep now call row next) :
    rowID next = rowID row ∧ rowVersion row ≤ rowVersion next ∧
      (rowVersion next = rowVersion row → part next.toRunnerState = part row.toRunnerState) := by
  cases step with
  | written matched =>
      simp only [versionMatches, Bool.and_eq_true, beq_iff_eq] at matched
      refine ⟨rfl, ?_, ?_⟩ <;> simp only [rowVersion, stateUpdates] <;> omega
  | claimed free => exact ⟨rfl, Nat.le_succ _, fun same => absurd same (Nat.succ_ne_self _)⟩
  | released matched => exact ⟨rfl, Nat.le_refl _, fun _ => leased now row⟩
  | retried allowed named => exact ⟨rfl, Nat.le_succ _, fun same => absurd same (Nat.succ_ne_self _)⟩

theorem RowStep.sameID {now : Time} {call : Answered} {row next : RunnerRequestRecord}
    (step : RowStep now call row next) : next.id = row.id := by
  cases step <;> rfl

theorem table_keeps {Part : Type} (part : RunnerState → Part)
    (leased : ∀ now row, part (clearLease now row).toRunnerState = part row.toRunnerState)
    {server : Server} {tid : Nat} {choice : Choice} {state after : ServerState}
    {op : Op} {resp : op.Resp} (answered : respond server tid choice state op = some (resp, after)) :
    Advances rowID rowVersion (fun row => part row.toRunnerState) state.table.rows
      after.table.rows := by
  rcases rows_answered answered with ⟨edit, same, steps⟩ | ⟨row, _, same⟩
  · rw [same]
    refine advances_map edit fun row member => ?_
    rcases steps row member with kept | step
    · rw [kept]
      exact ⟨rfl, Nat.le_refl _, fun _ => rfl⟩
    · exact rowStep_keeps part leased step
  · rw [same]
    exact advances_append _ _

theorem table_advances {server : Server} {tid : Nat} {choice : Choice} {state after : ServerState}
    {op : Op} {resp : op.Resp} (answered : respond server tid choice state op = some (resp, after)) :
    Advances rowID rowVersion rowCore state.table.rows after.table.rows :=
  table_keeps core (fun _ _ => rfl) answered

end Rows

end Runnerd
