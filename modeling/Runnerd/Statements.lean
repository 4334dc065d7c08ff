import Runnerd.Leases
import Runnerd.LostUpdate

/-!
The store below its transactions. On PostgreSQL each statement of a transaction
sees what is committed when it runs, an `UPDATE` locks the row it matches until
the transaction ends, and a second `UPDATE` of that row waits and then looks at
the row again. `ClaimNextRunnable` selects a candidate and updates it under part
of the predicate it selected by, with a version computed from what it selected.
Run alone it is the transaction of `RequestStore`; what other transactions may
commit between its two statements is the subject here.
-/

namespace Runnerd.Statements

open GoText Interaction Interleaving

section Database

/-- The `UPDATE` statements on `runner_requests`. -/
inductive Update where
  | lease (candidate : RunnerRequestRecord) (workerID : String) (now : Time) (leaseTTL : Duration)
  | state (st : RunnerState) (now : Time)
  | release (id workerID : String) (now : Time)
  | retry (record : RunnerRequestRecord) (now : Time)

/-- Whether the claim's `UPDATE` would still take a row. -/
def leasable (now : Time) (row : RunnerRequestRecord) : Bool :=
  row.status == .queued && row.leaseExpiresAt.all (· ≤ now)

def Update.matching : Update → RunnerRequestRecord → Bool
  | .lease candidate _ now _, row => row.id == candidate.id && leasable now row
  | .state st _, row => versionMatches st row
  | .release id workerID _, row => leaseMatches id workerID row
  | .retry record _, row => row.id == record.id && row.version == record.version

/-- The row as the statement sets it. -/
def Update.apply : Update → RunnerRequestRecord → RunnerRequestRecord
  | .lease candidate workerID now leaseTTL, row =>
      { claimUpdates workerID now leaseTTL row with version := candidate.version + 1 }
  | .state st now, row => stateUpdates st now row
  | .release _ _ now, row => clearLease now row
  | .retry _ now, row => retryUpdates now row

theorem Update.apply_id (update : Update) (row : RunnerRequestRecord) :
    (update.apply row).id = row.id := by
  cases update <;> rfl

theorem Update.apply_job (update : Update) (row : RunnerRequestRecord) :
    (update.apply row).workflowJobID = row.workflowJobID := by
  cases update <;> rfl

def Update.edit (update : Update) : RequestTable.Edit :=
  ⟨update.apply, update.apply_id, update.apply_job⟩

def Update.run (update : Update) (table : RequestTable) : RequestTable :=
  table.update update.matching update.edit

/-- What is committed, and what each open transaction has updated and not yet
committed. -/
structure Database where
  table : RequestTable
  uncommitted : List (Nat × Update) := []

/-- A row that the statement matches is locked by another transaction. -/
def locked (db : Database) (tid : Nat) (update : Update) : Bool :=
  db.table.rows.any fun row => update.matching row &&
    db.uncommitted.any fun (owner, held) => owner != tid && held.matching row

inductive Statement where
  | selectNext (now : Time)
  | selectByID (id : String)
  | update (update : Update)
  | commit
  | rollback

@[reducible] def Statement.Resp : Statement → Type
  | .selectNext _ | .selectByID _ => Except GoError (Option RunnerRequestRecord)
  | .update _ => Except GoError Bool
  | .commit => Except GoError Unit
  | .rollback => Unit

def closed (db : Database) (tid : Nat) : List (Nat × Update) :=
  db.uncommitted.filter fun held => held.1 != tid

/-- The updates that the transaction commits. -/
def held (db : Database) (tid : Nat) : List Update :=
  (db.uncommitted.filter fun held => held.1 == tid).map Prod.snd

def committed (db : Database) (tid : Nat) : RequestTable :=
  (held db tid).foldr Update.run db.table

/-- A statement fails, waits for a lock, or runs. -/
def respond (tid : Nat) (fault : Option GoError) (db : Database) :
    (statement : Statement) → Option (statement.Resp × Database)
  | .selectNext now =>
      match fault with
      | some err => some (.error err, db)
      | none => some (.ok (firstQueued (db.table.rows.filter (claimable now))), db)
  | .selectByID id =>
      match fault with
      | some err => some (.error err, db)
      | none => some (.ok ((committed db tid).find id), db)
  | .update update =>
      match fault with
      | some err => some (.error err, db)
      | none =>
          if !db.table.rows.any update.matching then some (.ok false, db)
          else if locked db tid update then none
          else some (.ok true, { db with uncommitted := (tid, update) :: db.uncommitted })
  | .commit =>
      match fault with
      | some err => some (.error err, { db with uncommitted := closed db tid })
      | none => some (.ok (), { table := committed db tid, uncommitted := closed db tid })
  | .rollback => some ((), { db with uncommitted := closed db tid })

end Database

section Transactions

abbrev Action := Prog Statement Statement.Resp

def ask (statement : Statement) : Action statement.Resp := Prog.request statement

/-- `return err` inside `db.Transaction`. -/
def abort {α : Type} (answer : α) : Action α := do
  ask .rollback
  return answer

def commit {α : Type} (answer : Except GoError α) : Action (Except GoError α) := do
  match ← ask .commit with
  | .error err => return .error err
  | .ok () => return answer

def claimNextRunnable (workerID : String) (now : Time) (leaseTTL : Duration) :
    Action (Except GoError (Option (RunnerRequest × RunnerState))) := do
  let workerID := trimSpace workerID
  if workerID = "" then return .error { message := "worker id is required" }
  match ← ask (.selectNext now) with
  | .error err => abort (.error err)
  | .ok none => abort (.ok none)
  | .ok (some candidate) =>
      match ← ask (.update (.lease candidate workerID now leaseTTL)) with
      | .error err => abort (.error err)
      | .ok false => abort (.ok none)
      | .ok true =>
          match ← ask (.selectByID candidate.id) with
          | .error err => abort (.error err)
          | .ok none => abort (.ok none)
          | .ok (some claimed) => commit (.ok (some (recordToRequest claimed, recordToState claimed)))

/-- GORM runs a single `UPDATE` in a transaction of its own. -/
def updateAlone (update : Update) : Action (Except GoError Bool) := do
  match ← ask (.update update) with
  | .error err => abort (.error err)
  | .ok hit => commit (.ok hit)

def writeState (st : RunnerState) (now : Time) : Action (Except GoError Unit) := do
  if sanitizeID st.id = "" then return .error { message := "request id is empty" }
  match ← updateAlone (.state st now) with
  | .error err => return .error err
  | .ok false => return .error errConflict
  | .ok true => return .ok ()

def releaseLease (id workerID : String) (now : Time) : Action (Except GoError Unit) := do
  match ← updateAlone (.release id workerID now) with
  | .error err => return .error err
  | .ok _ => return .ok ()

def retryRequest (id : String) (now : Time) : Action (Except GoError RunnerState) := do
  match ← ask (.selectByID (sanitizeID id)) with
  | .error err => abort (.error err)
  | .ok none => abort (.error errRecordNotFound)
  | .ok (some record) =>
      if retryAllowed record then
        match ← ask (.update (.retry record now)) with
        | .error err => abort (.error err)
        | .ok _ =>
            match ← ask (.selectByID (sanitizeID id)) with
            | .error err => abort (.error err)
            | .ok none => abort (.error errRecordNotFound)
            | .ok (some saved) => commit (.ok (recordToState saved))
      else abort (.error errRetryNotAllowed)

inductive Caller where
  | claimNextRunnable (workerID : String) (now : Time) (leaseTTL : Duration)
  | writeState (st : RunnerState) (now : Time)
  | releaseLease (id workerID : String) (now : Time)
  | retryRequest (id : String) (now : Time)

def body : Caller → Action Unit
  | .claimNextRunnable workerID now leaseTTL => do
      let _ ← claimNextRunnable workerID now leaseTTL
  | .writeState st now => do
      let _ ← writeState st now
  | .releaseLease id workerID now => do
      let _ ← releaseLease id workerID now
  | .retryRequest id now => do
      let _ ← retryRequest id now

/-- Any number of callers, statement by statement. -/
def machine : Machine Statement Statement.Resp Caller Database (Option GoError) where
  body := body
  respond := respond
  spawned := fun _ _ _ => []
  entry := fun _ => true
  crash := fun db => { table := db.table }

abbrev Answered := Call Statement Statement.Resp
abbrev StoreWorld := World Statement Statement.Resp Caller Database
abbrev StoreMove := Move Caller (Option GoError)

def opened (table : RequestTable) : StoreWorld := ⟨{ table := table }, [], []⟩

end Transactions

section Alone

theorem RequestTable.same_rows {first second : RequestTable} (same : first.rows = second.rows) :
    first = second := by
  cases first
  cases second
  cases same
  rfl

/-- On the table it selected from, the claim's `UPDATE` leases the candidate. -/
theorem lease_run {table : RequestTable} {candidate : RunnerRequestRecord} {workerID : String}
    {now : Time} {leaseTTL : Duration} (here : candidate ∈ table.rows)
    (free : claimable now candidate = true) :
    (Update.lease candidate workerID now leaseTTL).run table =
      table.update (fun row => row.id == candidate.id)
        ⟨claimUpdates workerID now leaseTTL, fun _ => rfl, fun _ => rfl⟩ := by
  apply RequestTable.same_rows
  apply List.map_congr_left
  intro row present
  by_cases same : row.id = candidate.id
  · obtain rfl := table.same_row present here same
    simp only [claimable, Bool.and_eq_true, beq_iff_eq] at free
    simp [Update.matching, Update.edit, Update.apply, leasable, claimUpdates, free]
  · simp [Update.matching, same]

theorem lease_find {table : RequestTable} {candidate : RunnerRequestRecord} {workerID : String}
    {now : Time} {leaseTTL : Duration} (here : candidate ∈ table.rows) :
    (table.update (fun row => row.id == candidate.id)
        ⟨claimUpdates workerID now leaseTTL, fun _ => rfl, fun _ => rfl⟩).find candidate.id =
      some (claimUpdates workerID now leaseTTL candidate) := by
  have there : claimUpdates workerID now leaseTTL candidate ∈ (table.update
      (fun row => row.id == candidate.id)
      ⟨claimUpdates workerID now leaseTTL, fun _ => rfl, fun _ => rfl⟩).rows := by
    simp only [RequestTable.update, List.mem_map]
    exact ⟨candidate, here, by simp⟩
  exact RequestTable.find_row there

theorem perform_ask {α : Type} {tid : Nat} {statement : Statement}
    {next : statement.Resp → Action α} {fault : Option GoError} {rest : List (Option GoError)}
    {db after : Database} {resp : statement.Resp}
    (answer : respond tid fault db statement = some (resp, after)) :
    perform (respond tid) (ask statement >>= next) (fault :: rest) db =
      perform (respond tid) (next resp) rest after := by
  change perform (respond tid) (.call statement next) (fault :: rest) db = _
  rw [perform, answer]

/-- A claim that no other caller interrupts is the store's transaction. -/
theorem claimNextRunnable_alone (tid : Nat) (table : RequestTable) (workerID : String) (now : Time)
    (leaseTTL : Duration) :
    ∃ count, perform (respond tid) (claimNextRunnable workerID now leaseTTL)
        (List.replicate count none) { table := table } =
      some ((Runnerd.claimNextRunnable table workerID now leaseTTL).1,
        { table := (Runnerd.claimNextRunnable table workerID now leaseTTL).2 }) := by
  unfold claimNextRunnable Runnerd.claimNextRunnable
  dsimp only
  by_cases nameless : trimSpace workerID = ""
  · rw [if_pos nameless, if_pos nameless]
    exact ⟨0, rfl⟩
  rw [if_neg nameless, if_neg nameless]
  have selects : respond tid none { table := table } (.selectNext now) =
      some (.ok (firstQueued (table.rows.filter (claimable now))), { table := table }) := rfl
  cases first : firstQueued (table.rows.filter (claimable now)) with
  | none =>
      rw [first] at selects
      refine ⟨2, ?_⟩
      rw [List.replicate_succ, perform_ask selects]
      rfl
  | some candidate =>
      rw [first] at selects
      obtain ⟨here, free⟩ := List.mem_filter.mp (firstQueued_mem first)
      have hit : table.rows.any (Update.lease candidate (trimSpace workerID) now leaseTTL).matching =
          true := by
        rw [List.any_eq_true]
        refine ⟨candidate, here, ?_⟩
        simp only [claimable, Bool.and_eq_true, beq_iff_eq] at free
        simp [Update.matching, leasable, free]
      let update := Update.lease candidate (trimSpace workerID) now leaseTTL
      have updates : respond tid none { table := table } (.update update) =
          some (.ok true, { table := table, uncommitted := [(tid, update)] }) := by
        simp [respond, hit, locked, update]
      have sole : committed { table := table, uncommitted := [(tid, update)] } tid =
          update.run table := by
        simp [committed, held]
      have reads : respond tid none { table := table, uncommitted := [(tid, update)] }
          (.selectByID candidate.id) = some (.ok (some
            (claimUpdates (trimSpace workerID) now leaseTTL candidate)),
            { table := table, uncommitted := [(tid, update)] }) := by
        simp only [respond, sole, update, lease_run here free, lease_find here]
      have commits : respond tid none { table := table, uncommitted := [(tid, update)] } .commit =
          some (.ok (), { table := update.run table }) := by
        simp [respond, sole, closed]
      refine ⟨4, ?_⟩
      rw [List.replicate_succ, perform_ask selects, List.replicate_succ]
      dsimp only
      rw [perform_ask updates, List.replicate_succ]
      dsimp only
      rw [perform_ask reads, List.replicate_succ]
      dsimp only
      rw [commit, perform_ask commits, ← lease_run here free]
      rfl

end Alone

section Claims

/-- What a claim has selected and not yet tried to update. -/
def candidate? (thread : Thread Statement Statement.Resp Caller) :
    Option (Time × RunnerRequestRecord) :=
  match thread.past, thread.rest with
  | [⟨.selectNext now, .ok (some candidate)⟩], .call _ _ => some (now, candidate)
  | _, _ => none

/-- A row that a claim has selected is as it was, or out of the claim's reach. -/
def undisturbed (now : Time) (candidate row : RunnerRequestRecord) : Bool :=
  !leasable now row ||
    (row.version == candidate.version && row.nextRetryAt == candidate.nextRetryAt)

/-- Nothing is committed that disturbs what an open claim has selected. -/
def commitGuard (world : StoreWorld) (move : StoreMove) : Bool :=
  match move, machine.answered world move with
  | .run tid _, some ⟨.commit, .ok ()⟩ =>
      (committed world.state tid).rows.all fun row => world.threads.all fun thread =>
        (candidate? thread).all fun (now, candidate) =>
          row.id != candidate.id || undisturbed now candidate row
  | _, _ => true

/-- A claim updates what it has just selected. -/
def contract (past : List Answered) : Statement → Prop
  | .update (.lease candidate _ now _) => past = [⟨.selectNext now, .ok (some candidate)⟩]
  | _ => True

theorem abort_keeps {α : Type} (answer : α) (past : List Answered) :
    Keeps contract (abort answer) (fun _ _ => True) past := by
  unfold abort
  apply keeps_call True.intro
  intro _
  exact keeps_return True.intro

theorem commit_keeps {α : Type} (answer : Except GoError α) (past : List Answered) :
    Keeps contract (commit answer) (fun _ _ => True) past := by
  unfold commit
  apply keeps_call True.intro
  rintro (err | _)
  · exact keeps_return True.intro
  · exact keeps_return True.intro

theorem claimNextRunnable_keeps (workerID : String) (now : Time) (leaseTTL : Duration) :
    Keeps contract (claimNextRunnable workerID now leaseTTL) (fun _ _ => True) [] := by
  unfold claimNextRunnable
  dsimp only
  split
  · exact keeps_return True.intro
  apply keeps_call True.intro
  rintro (err | _ | candidate)
  · exact abort_keeps _ _
  · exact abort_keeps _ _
  apply keeps_call rfl
  rintro (err | _ | _)
  · exact abort_keeps _ _
  · exact abort_keeps _ _
  apply keeps_call True.intro
  rintro (err | _ | claimed)
  · exact abort_keeps _ _
  · exact abort_keeps _ _
  · exact commit_keeps _ _

theorem updateAlone_keeps {update : Update} {past : List Answered}
    (permitted : contract past (.update update)) :
    Keeps contract (updateAlone update) (fun _ _ => True) past := by
  unfold updateAlone
  apply keeps_call permitted
  rintro (err | hit)
  · exact abort_keeps _ _
  · exact commit_keeps _ _

theorem retryRequest_keeps (id : String) (now : Time) :
    Keeps contract (retryRequest id now) (fun _ _ => True) [] := by
  unfold retryRequest
  apply keeps_call True.intro
  rintro (err | _ | record)
  · exact abort_keeps _ _
  · exact abort_keeps _ _
  dsimp only
  split
  · apply keeps_call True.intro
    rintro (err | hit)
    · exact abort_keeps _ _
    apply keeps_call True.intro
    rintro (err | _ | saved)
    · exact abort_keeps _ _
    · exact abort_keeps _ _
    · exact commit_keeps _ _
  · exact abort_keeps _ _

/-- Every caller keeps the contract. -/
theorem body_keeps (caller : Caller) : Keeps contract (body caller) (fun _ _ => True) [] := by
  have discard {α : Type} (value : α) (past : List Answered) :
      Keeps contract (Pure.pure () : Action Unit) (fun _ _ => True) past := keeps_return True.intro
  cases caller with
  | claimNextRunnable workerID now leaseTTL =>
      apply keeps_seq
      exact keeps_mono (fun value later _ => discard value later)
        (claimNextRunnable_keeps workerID now leaseTTL)
  | writeState st now =>
      apply keeps_seq
      unfold writeState
      split
      · exact keeps_return (discard () [])
      apply keeps_seq
      refine keeps_mono (fun answer later _ => ?_) (updateAlone_keeps True.intro)
      rcases answer with err | _ | _
      · exact keeps_return (discard () later)
      · exact keeps_return (discard () later)
      · exact keeps_return (discard () later)
  | releaseLease id workerID now =>
      apply keeps_seq
      unfold releaseLease
      apply keeps_seq
      refine keeps_mono (fun answer later _ => ?_) (updateAlone_keeps True.intro)
      rcases answer with err | _
      · exact keeps_return (discard () later)
      · exact keeps_return (discard () later)
  | retryRequest id now =>
      apply keeps_seq
      exact keeps_mono (fun value later _ => discard value later) (retryRequest_keeps id now)

/-- The row that an open claim has selected is there, and undisturbed. -/
def CandidateFact (db : Database) (past : List Answered) : Prop :=
  ∀ now candidate, past = [⟨.selectNext now, .ok (some candidate)⟩] →
    claimable now candidate = true ∧
      ∃ row ∈ db.table.rows, row.id = candidate.id ∧ undisturbed now candidate row = true

theorem run_keeps_row (update : Update) {table : RequestTable} {row : RunnerRequestRecord}
    (here : row ∈ table.rows) : ∃ next ∈ (update.run table).rows, next.id = row.id := by
  refine ⟨_, List.mem_map_of_mem here, ?_⟩
  split
  · exact update.edit.keepsID row
  · rfl

theorem committed_keeps_row {db : Database} (tid : Nat) {row : RunnerRequestRecord}
    (here : row ∈ db.table.rows) : ∃ next ∈ (committed db tid).rows, next.id = row.id := by
  unfold committed
  induction held db tid with
  | nil => exact ⟨row, here, rfl⟩
  | cons update rest ih =>
      obtain ⟨middle, present, same⟩ := ih
      obtain ⟨next, there, kept⟩ := run_keeps_row update present
      exact ⟨next, there, kept.trans same⟩

theorem selectNext_answered {tid : Nat} {fault : Option GoError} {db after : Database} {now : Time}
    {candidate : RunnerRequestRecord}
    (answer : respond tid fault db (.selectNext now) = some (.ok (some candidate), after)) :
    after = db ∧ candidate ∈ db.table.rows ∧ claimable now candidate = true := by
  simp only [respond] at answer
  split at answer
  · cases answer
  · simp only [Option.some.injEq, Prod.mk.injEq, Except.ok.injEq] at answer
    obtain ⟨first, rfl⟩ := answer
    have member := firstQueued_mem first
    rw [List.mem_filter] at member
    exact ⟨rfl, member⟩

/-- Only a commit changes what the others see. -/
theorem table_answered {tid : Nat} {fault : Option GoError} {db after : Database}
    {statement : Statement} {resp : statement.Resp}
    (answer : respond tid fault db statement = some (resp, after)) :
    after.table = db.table ∨
      (⟨statement, resp⟩ : Answered) = ⟨.commit, .ok ()⟩ ∧ after.table = committed db tid := by
  cases statement with
  | selectNext now =>
      simp only [respond] at answer
      split at answer <;> cases answer <;> exact .inl rfl
  | selectByID id =>
      simp only [respond] at answer
      split at answer <;> cases answer <;> exact .inl rfl
  | update update =>
      simp only [respond] at answer
      split at answer
      · cases answer
        exact .inl rfl
      · split at answer
        · cases answer
          exact .inl rfl
        · split at answer
          · cases answer
          · cases answer
            exact .inl rfl
  | commit =>
      simp only [respond] at answer
      split at answer
      · cases answer
        exact .inl rfl
      · cases answer
        exact .inr ⟨rfl, rfl⟩
  | rollback =>
      cases answer
      exact .inl rfl

theorem candidates_reachable {table : RequestTable} {world : StoreWorld}
    (reaches : machine.Reaches (fun world move => commitGuard world move = true) (opened table)
      world) : Machine.Informed (fun db _ _ _ past => CandidateFact db past) world := by
  induction reaches with
  | refl =>
      intro tid thread live
      cases live
  | step move before guard stepped ih =>
      refine Machine.informed_step ih stepped ?_ ?_ ?_
      · intro db trace tid caller now candidate opened
        cases opened
      · intro tid fault thread statement resp rest db acts _ known now candidate selected
        obtain ⟨call, _⟩ := List.cons.inj selected
        cases call
        have answer : respond tid fault _ (.selectNext now) = some (.ok (some candidate), db) :=
          acts.answer
        obtain ⟨rfl, here, free⟩ := selectNext_answered answer
        exact ⟨free, candidate, here, rfl, by simp [undisturbed]⟩
      · intro tid fault thread statement resp rest db other found acts moved _ live pending known
          now candidate selected
        obtain ⟨free, row, here, same, still⟩ := known now candidate selected
        refine ⟨free, ?_⟩
        rcases table_answered acts.answer with kept | ⟨commits, table⟩
        · rw [kept]
          exact ⟨row, here, same, still⟩
        · obtain ⟨next, there, key⟩ := committed_keeps_row tid here
          rw [table]
          refine ⟨next, there, key.trans same, ?_⟩
          subst moved
          simp only [commitGuard, acts.answered_eq, commits, List.all_eq_true] at guard
          have clear := guard next there found (List.mem_of_getElem? live)
          obtain ⟨statement, answers, rest⟩ := pending
          simpa [candidate?, selected, rest, key.trans same] using clear

/-- Where nothing is committed that disturbs an open claim, a claim's `UPDATE`
takes only a row that its `SELECT` would take, and raises the row's version. -/
theorem claim_update_sound {table : RequestTable} {world : StoreWorld} {move : StoreMove}
    (reaches : machine.Reaches (fun world move => commitGuard world move = true) (opened table)
      world) {candidate : RunnerRequestRecord} {workerID : String} {now : Time}
    {leaseTTL : Duration} (updates : machine.answered world move =
      some ⟨.update (.lease candidate workerID now leaseTTL), .ok true⟩) :
    ∀ row ∈ world.state.table.rows,
      (Update.lease candidate workerID now leaseTTL).matching row = true →
      claimable now row = true ∧
        row.version < ((Update.lease candidate workerID now leaseTTL).edit.apply row).version := by
  intro row here matched
  obtain ⟨tid, fault, thread, rest, db, rfl, acts⟩ := Machine.answered_acts updates
  have obeys : Machine.Obeys (fun _ => contract) world := by
    refine Machine.obeys_reachable (fun caller => body_keeps caller) ⟨?_, ?_⟩ reaches
    · intro tid thread live
      cases live
    · intro tid thread live
      cases live
  have selected : thread.past = [⟨.selectNext now, .ok (some candidate)⟩] := obeys.permits acts
  obtain ⟨free, found, present, same, still⟩ :=
    (candidates_reachable reaches).actor acts now candidate selected
  simp only [Update.matching, leasable, Bool.and_eq_true, beq_iff_eq] at matched
  obtain rfl : found = row := world.state.table.same_row present here (same.trans matched.1.symm)
  simp only [undisturbed, leasable, matched.2.1, matched.2.2, beq_self_eq_true, Bool.and_self,
    Bool.not_true, Bool.false_or, Bool.and_eq_true, beq_iff_eq] at still
  constructor
  · simp only [claimable, Bool.and_eq_true, beq_iff_eq] at free ⊢
    exact ⟨⟨matched.2.1, still.2 ▸ free.1.2⟩, matched.2.2⟩
  · change found.version < candidate.version + 1
    omega

end Claims

section Samples

/-- A row whose last lease has ended. -/
def waitingTable : RequestTable where
  rows := [{ id := "1", status := .queued, leaseOwner := "old", leaseExpiresAt := some (-1) }]
  primaryKey := by decide
  jobIndex := by decide
  sanitized := by decide

/-- Goroutine 0 selects the row; its former owner releases the lease. -/
def untilReleased : List StoreMove :=
  .start (.claimNextRunnable "worker" 0 (60 * second)) :: .run 0 none ::
    .start (.releaseLease "1" "old" 0) :: List.replicate 2 (.run 1 none)

/-- The statement that a move runs, when it is a claim's `UPDATE` that takes
effect. -/
def takesEffect (world : StoreWorld) (move : StoreMove) :
    Option (RunnerRequestRecord × String × Time × Duration) :=
  match machine.answered world move with
  | some ⟨.update (.lease candidate workerID now leaseTTL), .ok true⟩ =>
      some (candidate, workerID, now, leaseTTL)
  | _ => none

theorem takesEffect_answered {world : StoreWorld} {move : StoreMove}
    {candidate : RunnerRequestRecord} {workerID : String} {now : Time} {leaseTTL : Duration}
    (takes : takesEffect world move = some (candidate, workerID, now, leaseTTL)) :
    machine.answered world move =
      some ⟨.update (.lease candidate workerID now leaseTTL), .ok true⟩ := by
  unfold takesEffect at takes
  split at takes
  · cases takes
    assumption
  · cases takes

theorem claim_update_sound_released :
    ∃ world move candidate row, machine.Reaches (fun world move => commitGuard world move = true)
        (opened waitingTable) world ∧
      takesEffect world move = some (candidate, "worker", 0, 60 * second) ∧
      row ∈ world.state.table.rows ∧ row.leaseOwner = "" ∧ claimable 0 row = true ∧
      row.version < ((Update.lease candidate "worker" 0 (60 * second)).edit.apply row).version := by
  have ran : (machine.runChecked commitGuard untilReleased (opened waitingTable)).any (fun world =>
      (takesEffect world (.run 0 none)).any fun (candidate, workerID, now, leaseTTL) =>
        world.state.table.rows.any fun row => decide (workerID = "worker" ∧ now = 0 ∧
          leaseTTL = 60 * second ∧ row.leaseOwner = "" ∧
          (Update.lease candidate workerID now leaseTTL).matching row = true)) = true := by
    decide +kernel
  obtain ⟨world, reaches, found⟩ := Machine.reaches_any ran
  simp only [Option.any_eq_true, List.any_eq_true, decide_eq_true_eq] at found
  obtain ⟨⟨candidate, workerID, now, leaseTTL⟩, takes, row, here, rfl, rfl, rfl, released, matched⟩ :=
    found
  obtain ⟨eligible, raises⟩ :=
    claim_update_sound reaches (takesEffect_answered takes) row here matched
  exact ⟨world, _, candidate, row, reaches, takes, here, released, eligible, raises⟩

/-- The row as a claim at time 0 leaves it. -/
def claimedState : RunnerState :=
  { id := "1", status := .queued, leaseOwner := "other", leaseExpiresAt := some (60 * second),
    lastAttemptAt := some 0, version := 1 }

/-- Goroutine 0 selects the row. Goroutine 1 claims it and finds no room, and
`deferQueuedRequest` puts it off. -/
def untilDeferred : List StoreMove :=
  .start (.claimNextRunnable "worker" 0 (60 * second)) :: .run 0 none ::
    .start (.claimNextRunnable "other" 0 (60 * second)) :: List.replicate 4 (.run 1 none) ++
    .start (.writeState (deferredState claimedState (30 * second)) second) ::
      List.replicate 2 (.run 2 none)

/-- The first claim then takes a row that is not due, and sets its version back. -/
theorem claim_update_takes_deferred :
    ¬∀ (table : RequestTable) (world : StoreWorld) (move : StoreMove)
        (candidate : RunnerRequestRecord) (workerID : String) (now : Time) (leaseTTL : Duration),
      machine.Reaches (fun _ _ => True) (opened table) world →
      machine.answered world move =
        some ⟨.update (.lease candidate workerID now leaseTTL), .ok true⟩ →
      ∀ row ∈ world.state.table.rows,
        (Update.lease candidate workerID now leaseTTL).matching row = true →
        claimable now row = true ∧
          row.version < ((Update.lease candidate workerID now leaseTTL).edit.apply row).version := by
  intro always
  have ran : (machine.runChecked (fun _ _ => true) untilDeferred (opened waitingTable)).any
      (fun world => (takesEffect world (.run 0 none)).any
        fun (candidate, workerID, now, leaseTTL) => world.state.table.rows.any fun row =>
          decide ((Update.lease candidate workerID now leaseTTL).matching row = true ∧
            claimable now row = false ∧
            ((Update.lease candidate workerID now leaseTTL).edit.apply row).version <
              row.version)) = true := by
    decide +kernel
  obtain ⟨world, reaches, found⟩ := Machine.reaches_any ran
  simp only [Option.any_eq_true, List.any_eq_true, decide_eq_true_eq] at found
  obtain ⟨⟨candidate, workerID, now, leaseTTL⟩, takes, row, here, matched, early, back⟩ := found
  have sound := always waitingTable world _ candidate workerID now leaseTTL
    (reaches.weaken fun _ _ _ => True.intro) (takesEffect_answered takes) row here matched
  rw [early] at sound
  cases sound.1

end Samples

end Runnerd.Statements
