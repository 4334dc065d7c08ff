import Runnerd.Statements

/-!
What a successful `RetryRequest` has done. Its `UPDATE` names the version that
its `SELECT` read, but the call judges itself by the absence of an error and
reports the row as it then is. An open transaction holds the rows it has
updated, so whatever an `UPDATE` matched is still there at the commit.
-/

namespace Runnerd.Statements

open GoText Interaction Interleaving

section Locks

/-- The row that an `UPDATE` names. -/
def Update.target : Update → String
  | .lease candidate _ _ _ => candidate.id
  | .state st _ => sanitizeID st.id
  | .release id _ _ => sanitizeID id
  | .retry record _ => record.id

theorem Update.matching_target {update : Update} {row : RunnerRequestRecord}
    (matched : update.matching row = true) : row.id = update.target := by
  cases update <;>
    simp only [matching, versionMatches, leaseMatches, Bool.and_eq_true, beq_iff_eq] at matched <;>
    exact matched.1

/-- The updates of a transaction since it began. -/
def openUpdates : List Answered → List Update
  | [] => []
  | ⟨.commit, _⟩ :: _ | ⟨.rollback, _⟩ :: _ => []
  | ⟨.update update, .ok true⟩ :: past => update :: openUpdates past
  | _ :: past => openUpdates past

/-- Everything a statement can do to the database. -/
theorem respond_cases {tid : Nat} {fault : Option GoError} {db after : Database}
    {statement : Statement} {resp : statement.Resp}
    (answer : respond tid fault db statement = some (resp, after)) :
    (after = db ∧ ∀ past, openUpdates (⟨statement, resp⟩ :: past) = openUpdates past) ∨
    (∃ update, (⟨statement, resp⟩ : Answered) = ⟨.update update, .ok true⟩ ∧
      db.table.rows.any update.matching = true ∧ locked db tid update = false ∧
      after = { db with uncommitted := (tid, update) :: db.uncommitted }) ∨
    ((∀ past, openUpdates (⟨statement, resp⟩ :: past) = []) ∧
      after.uncommitted = closed db tid ∧
      (after.table = db.table ∨
        (⟨statement, resp⟩ : Answered) = ⟨.commit, .ok ()⟩ ∧ after.table = committed db tid)) := by
  cases statement with
  | selectNext now =>
      simp only [respond] at answer
      split at answer <;> cases answer <;> exact .inl ⟨rfl, fun _ => rfl⟩
  | selectByID id =>
      simp only [respond] at answer
      split at answer <;> cases answer <;> exact .inl ⟨rfl, fun _ => rfl⟩
  | update update =>
      simp only [respond] at answer
      split at answer
      · cases answer
        exact .inl ⟨rfl, fun _ => rfl⟩
      · by_cases hit : db.table.rows.any update.matching = true
        · by_cases taken : locked db tid update = true
          · simp [hit, taken] at answer
          · simp only [hit, taken, Bool.not_true] at answer
            cases answer
            exact .inr (.inl ⟨update, rfl, hit, by simpa using taken, rfl⟩)
        · simp only [hit, Bool.not_false, if_true] at answer
          cases answer
          exact .inl ⟨rfl, fun _ => rfl⟩
  | commit =>
      simp only [respond] at answer
      split at answer
      · cases answer
        exact .inr (.inr ⟨fun _ => rfl, rfl, .inl rfl⟩)
      · cases answer
        exact .inr (.inr ⟨fun _ => rfl, rfl, .inr ⟨rfl, rfl⟩⟩)
  | rollback =>
      cases answer
      exact .inr (.inr ⟨fun _ => rfl, rfl, .inl rfl⟩)

theorem held_closed (db : Database) (tid other : Nat) :
    held { db with uncommitted := closed db tid } other =
      if other = tid then [] else held db other := by
  by_cases same : other = tid
  · subst same
    simp [held, closed, List.filter_filter]
  · rw [if_neg same]
    simp only [held, closed, List.filter_filter]
    congr 1
    apply List.filter_congr
    intro entry _
    by_cases owner : entry.1 = other
    · simp [owner, same]
    · simp [owner]

theorem held_added (db : Database) (tid other : Nat) (update : Update) :
    held { db with uncommitted := (tid, update) :: db.uncommitted } other =
      if other = tid then update :: held db tid else held db other := by
  by_cases same : other = tid
  · subst same
    simp [held]
  · simp [held, same, Ne.symm same]

theorem mem_held {db : Database} {tid : Nat} {update : Update} :
    update ∈ held db tid ↔ (tid, update) ∈ db.uncommitted := by
  simp [held]

/-- An update leaves the rows that it does not name alone. -/
theorem run_untouched {update : Update} {table : RequestTable} {row : RunnerRequestRecord}
    (here : row ∈ table.rows) (other : row.id ≠ update.target) : row ∈ (update.run table).rows := by
  refine List.mem_map.mpr ⟨row, here, ?_⟩
  by_cases matched : update.matching row = true
  · exact absurd (Update.matching_target matched) other
  · rw [if_neg matched]

theorem committed_untouched {db : Database} {tid : Nat} {row : RunnerRequestRecord}
    (here : row ∈ db.table.rows) (others : ∀ update ∈ held db tid, row.id ≠ update.target) :
    row ∈ (committed db tid).rows := by
  unfold committed
  generalize held db tid = updates at others
  induction updates with
  | nil => exact here
  | cons update rest ih =>
      have inner := ih fun next member => others next (List.mem_cons_of_mem update member)
      exact run_untouched inner (others update List.mem_cons_self)

/-- The open transactions: each goroutine has the updates it made, each update
still matches a row, and no two transactions have updated the same row. -/
structure Locked (world : StoreWorld) : Prop where
  begun : ∀ entry ∈ world.state.uncommitted, entry.1 < world.threads.length
  own : ∀ (tid : Nat) (thread : Thread Statement Statement.Resp Caller),
    world.threads[tid]? = some thread → thread.rest.ended = false →
      held world.state tid = openUpdates thread.past
  present : ∀ entry ∈ world.state.uncommitted, ∃ row ∈ world.state.table.rows,
    entry.2.matching row = true
  apart : ∀ first ∈ world.state.uncommitted, ∀ second ∈ world.state.uncommitted,
    first.2.target = second.2.target → first.1 = second.1

/-- An `UPDATE` that takes effect names no row of another transaction. -/
theorem Locked.fresh {world : StoreWorld} (locks : Locked world) {tid : Nat} {update : Update}
    (hit : world.state.table.rows.any update.matching = true)
    (free : locked world.state tid update = false) {entry : Nat × Update}
    (member : entry ∈ world.state.uncommitted) (same : entry.2.target = update.target) :
    entry.1 = tid := by
  obtain ⟨row, here, matched⟩ := List.any_eq_true.mp hit
  obtain ⟨other, there, taken⟩ := locks.present entry member
  have key : other.id = row.id :=
    (Update.matching_target taken).trans (same.trans (Update.matching_target matched).symm)
  obtain rfl := world.state.table.same_row there here key
  by_cases owner : entry.1 = tid
  · exact owner
  · simp only [locked, List.any_eq_false, Bool.and_eq_true, not_and] at free
    have clear := free other there matched
    simp only [List.any_eq_true, not_exists, not_and] at clear
    exact absurd (by simp [owner, taken]) (clear entry member)

/-- A statement keeps the open transactions apart. -/
theorem Locked.acted {world : StoreWorld} (locks : Locked world) {tid : Nat}
    {fault : Option GoError} {thread : Thread Statement Statement.Resp Caller}
    {statement : Statement} {resp : statement.Resp} {rest : Prog Statement Statement.Resp Unit}
    {db : Database} (acts : machine.Acts world tid fault thread statement resp rest db) :
    Locked (machine.acted world tid thread statement resp rest db) := by
  obtain ⟨answers, next, _⟩ := acts.next
  have mine : held world.state tid = openUpdates thread.past := by
    refine locks.own tid thread acts.live ?_
    rw [next]
    rfl
  obtain ⟨bound, _⟩ := List.getElem?_eq_some_iff.mp acts.live
  have more : world.threads.length ≤
      (machine.acted world tid thread statement resp rest db).threads.length := by
    simp [Machine.acted]
  -- what the other transactions hold decides what the other goroutines know
  have known (others : ∀ other, other ≠ tid → held db other = held world.state other)
      (own : held db tid = openUpdates (⟨statement, resp⟩ :: thread.past)) :
      ∀ (other : Nat) (found : Thread Statement Statement.Resp Caller),
        (machine.acted world tid thread statement resp rest db).threads[other]? = some found →
        found.rest.ended = false → held db other = openUpdates found.past := by
    intro other found live pending
    rcases Machine.acted_thread live with ⟨rfl, rfl⟩ | ⟨different, live⟩ | ⟨_, member, _⟩
    · exact own
    · rw [others other different]
      exact locks.own other found live pending
    · cases member
  rcases respond_cases acts.answer with ⟨rfl, same⟩ | ⟨update, call, hit, free, rfl⟩ |
    ⟨emptied, rest_, table⟩
  · -- no lock is taken or dropped
    constructor
    · intro entry member
      exact (locks.begun entry member).trans_le more
    · refine known (fun _ _ => rfl) ?_
      rw [same, mine]
    · exact locks.present
    · exact locks.apart
  · -- an update locks its row until the transaction ends
    cases call
    constructor
    · intro entry member
      rcases List.mem_cons.mp member with rfl | older
      · exact bound.trans_le more
      · exact (locks.begun entry older).trans_le more
    · refine known (fun other different => ?_) ?_
      · rw [held_added, if_neg different]
      · rw [held_added, if_pos rfl, mine]
        rfl
    · intro entry member
      rcases List.mem_cons.mp member with rfl | older
      · obtain ⟨row, here, matched⟩ := List.any_eq_true.mp hit
        exact ⟨row, here, matched⟩
      · exact locks.present entry older
    · intro first firstMember second secondMember same
      rcases List.mem_cons.mp firstMember with rfl | firstOlder
      · rcases List.mem_cons.mp secondMember with rfl | secondOlder
        · rfl
        · exact (locks.fresh hit free secondOlder same.symm).symm
      · rcases List.mem_cons.mp secondMember with rfl | secondOlder
        · exact locks.fresh hit free firstOlder same
        · exact locks.apart first firstOlder second secondOlder same
  · -- the transaction ends, and its updates are committed or dropped
    have kept {entry : Nat × Update} (member : entry ∈ db.uncommitted) :
        entry ∈ world.state.uncommitted ∧ entry.1 ≠ tid := by
      rw [rest_] at member
      simpa [closed] using member
    have holds (other : Nat) : held db other =
        if other = tid then [] else held world.state other := by
      rw [← held_closed]
      simp only [held, rest_]
    constructor
    · intro entry member
      exact (locks.begun entry (kept member).1).trans_le more
    · refine known (fun other different => ?_) ?_
      · rw [holds, if_neg different]
      · rw [holds, if_pos rfl, emptied]
    · intro entry member
      obtain ⟨older, different⟩ := kept member
      obtain ⟨row, here, matched⟩ := locks.present entry older
      refine ⟨row, ?_, matched⟩
      change row ∈ db.table.rows
      rcases table with same | ⟨_, commits⟩
      · exact same ▸ here
      · rw [commits]
        refine committed_untouched here fun update mine_ target => different ?_
        have key := Update.matching_target matched
        exact locks.apart entry older (tid, update) (mem_held.mp mine_) (key.symm.trans target)
    · intro first firstMember second secondMember same
      exact locks.apart first (kept firstMember).1 second (kept secondMember).1 same

theorem locked_step {world after : StoreWorld} {move : StoreMove} (locks : Locked world)
    (stepped : machine.step world move = some after) : Locked after := by
  obtain ⟨tid, fault, thread, statement, resp, rest, db, rfl, acts, rfl⟩ | ⟨task, rfl, _, rfl⟩ |
    ⟨rfl, rfl⟩ := machine.step_cases stepped
  · exact locks.acted acts
  · constructor
    · intro entry member
      exact (locks.begun entry member).trans_le (by simp)
    · intro other found live pending
      rw [List.getElem?_append] at live
      by_cases old : other < world.threads.length
      · rw [if_pos old] at live
        exact locks.own other found live pending
      · rw [if_neg old] at live
        obtain rfl : found = machine.launch task := by simpa using List.mem_of_getElem? live
        -- a goroutine that starts now has no transaction
        have none_held : held world.state other = [] := by
          rw [List.eq_nil_iff_forall_not_mem]
          intro update member
          exact old (locks.begun _ (mem_held.mp member))
        rw [none_held]
        rfl
    · exact locks.present
    · exact locks.apart
  · constructor
    · intro entry member
      cases member
    · intro other found live pending
      obtain ⟨thread, _, rfl⟩ := Machine.halted_thread live
      cases pending
    · intro entry member
      cases member
    · intro first member
      cases member

theorem locked_reachable {condition : StoreWorld → StoreMove → Prop} {table : RequestTable}
    {world : StoreWorld} (reaches : machine.Reaches condition (opened table) world) :
    Locked world := by
  induction reaches with
  | refl =>
      constructor
      · intro entry member
        cases member
      · intro tid thread live
        cases live
      · intro entry member
        cases member
      · intro first member
        cases member
  | step move _ _ stepped ih => exact locked_step ih stepped

end Locks

section Retries

/-- What `RetryRequest` promises of the row it read at a version. -/
structure Requeued (version : Nat) (row next : RunnerRequestRecord) : Prop where
  same : next.id = row.id
  read : row.version = version
  advanced : next.version = version + 1
  queued : next.status = .queued
  failure : next.error = "" ∧ next.failureStage = "" ∧ next.failureReason = "" ∧
    next.lastErrorCode = "" ∧ next.lastErrorMessage = "" ∧ next.lastErrorRetryable = false ∧
    next.failedAt = none
  sandbox : next.sandboxID = "" ∧ next.processPID = 0 ∧ next.sandboxAPIURL = "" ∧
    next.sandboxAPIKeyEncrypted = "" ∧ next.sandboxConfigSource = ""
  assignment : next.assignedJobID = 0 ∧ next.assignedJobName = ""
  lease : next.leaseOwner = "" ∧ next.leaseExpiresAt = none

theorem retryUpdates_requeued (now : Time) (row : RunnerRequestRecord) :
    Requeued row.version row (retryUpdates now row) := by
  constructor <;> simp [retryUpdates]

/-- The row that a retry updates has the version that the retry read. -/
def unraced (world : StoreWorld) (move : StoreMove) : Bool :=
  match machine.answered world move with
  | some ⟨.update (.retry record _), .ok _⟩ =>
      world.state.table.rows.any fun row => row.id == record.id && row.version == record.version
  | _ => true

/-- The statements of a retry that has come to its commit. -/
def RetryPast (id : String) (now : Time) (hit : Bool) (record saved : RunnerRequestRecord) :
    List Answered :=
  [⟨.selectByID (sanitizeID id), .ok (some saved)⟩, ⟨.update (.retry record now), .ok hit⟩,
    ⟨.selectByID (sanitizeID id), .ok (some record)⟩]

/-- A retry updates the row it has just read, and commits after reading it again. -/
def retryContract : Caller → List Answered → Statement → Prop
  | .retryRequest id now, past, .update update =>
      ∃ record, update = .retry record now ∧
        past = [⟨.selectByID (sanitizeID id), .ok (some record)⟩]
  | .retryRequest id now, past, .commit => ∃ hit record saved, past = RetryPast id now hit record saved
  | _, _, _ => True

/-- How a retry ends: a nil error comes from a commit, and an error from none. -/
def RetryEnds (id : String) (now : Time) (answer : Except GoError RunnerState)
    (past : List Answered) : Prop :=
  match answer with
  | .ok st => ∃ hit record saved, st = recordToState saved ∧
      past = ⟨.commit, .ok ()⟩ :: RetryPast id now hit record saved
  | .error _ => (⟨.commit, .ok ()⟩ : Answered) ∉ past

theorem abort_ends (id : String) (now : Time) (err : GoError) {past : List Answered}
    (open_ : (⟨.commit, .ok ()⟩ : Answered) ∉ past) :
    Keeps (retryContract (.retryRequest id now)) (abort (.error err)) (RetryEnds id now) past := by
  unfold abort
  refine keeps_call True.intro fun _ => keeps_return ?_
  simp [RetryEnds, open_]

theorem retryRequest_ends (id : String) (now : Time) :
    Keeps (retryContract (.retryRequest id now)) (retryRequest id now) (RetryEnds id now) [] := by
  unfold retryRequest
  apply keeps_call True.intro
  rintro (err | _ | record)
  · exact abort_ends _ _ _ (by simp)
  · exact abort_ends _ _ _ (by simp)
  dsimp only
  split
  · apply keeps_call ⟨record, rfl, rfl⟩
    rintro (err | hit)
    · exact abort_ends _ _ _ (by simp)
    apply keeps_call True.intro
    rintro (err | _ | saved)
    · exact abort_ends _ _ _ (by simp)
    · exact abort_ends _ _ _ (by simp)
    · unfold commit
      apply keeps_call ⟨hit, record, saved, rfl⟩
      rintro (err | _)
      · apply keeps_return
        simp [RetryEnds]
      · exact keeps_return ⟨hit, record, saved, rfl, rfl⟩
  · exact abort_ends _ _ _ (by simp)

theorem body_ends (caller : Caller) :
    Keeps (retryContract caller) (body caller) (fun _ _ => True) [] := by
  cases caller with
  | retryRequest id now =>
      apply keeps_seq
      refine keeps_mono (fun answer later _ => ?_) (retryRequest_ends id now)
      exact keeps_return True.intro
  | _ => exact keeps_permitted (fun _ _ => True.intro) _ _

/-- What is known of the answers to a retry's statements: a row is found under
the id asked for, and an unraced update takes effect. -/
def RetryAnswer : Answered → Prop
  | ⟨.selectByID id, .ok (some record)⟩ => record.id = id
  | ⟨.update (.retry _ _), .ok hit⟩ => hit = true
  | _ => True

theorem retry_answered {world : StoreWorld} {move : StoreMove} {call : Answered}
    (guard : unraced world move = true) (answered : machine.answered world move = some call) :
    RetryAnswer call := by
  obtain ⟨statement, resp⟩ := call
  obtain ⟨tid, fault, thread, rest, db, rfl, acts⟩ := Machine.answered_acts answered
  have answer : respond tid fault world.state statement = some (resp, db) := acts.answer
  cases statement with
  | selectByID id =>
      rcases resp with err | _ | record
      · exact True.intro
      · exact True.intro
      · simp only [respond] at answer
        split at answer
        · cases answer
        · simp only [Option.some.injEq, Prod.mk.injEq, Except.ok.injEq] at answer
          have named : record.id = id := by simpa using List.find?_some answer.1
          exact named
  | update update =>
      cases update with
      | retry record now =>
          cases resp with
          | error err => exact True.intro
          | ok hit =>
              simp only [unraced, answered] at guard
              simp only [respond] at answer
              split at answer
              · cases answer
              · have matches_ : world.state.table.rows.any (Update.retry record now).matching = true :=
                  guard
                simp only [matches_, Bool.not_true] at answer
                by_cases taken : locked world.state tid (.retry record now) = true
                · simp [taken] at answer
                · simp only [taken] at answer
                  cases answer
                  rfl
      | _ => exact True.intro
  | _ => exact True.intro

/-- The call's own update has taken the row it read, at the version it read, to
the next one. -/
def OwnEffect (id : String) (past : List Answered) (before after : RequestTable) : Prop :=
  ∃ record, past.getLast? = some ⟨.selectByID (sanitizeID id), .ok (some record)⟩ ∧
    ∃ row ∈ before.rows, row.id = sanitizeID id ∧
      ∃ next ∈ after.rows, Requeued record.version row next

theorem retry_commits {table : RequestTable} {world : StoreWorld}
    (reaches : machine.Reaches (fun world move => unraced world move = true) (opened table) world)
    {tid : Nat} {fault : Option GoError} {thread : Thread Statement Statement.Resp Caller}
    {rest : Prog Statement Statement.Resp Unit} {db : Database}
    (acts : machine.Acts world tid fault thread .commit (.ok ()) rest db) {id : String} {now : Time}
    (task : thread.task = .retryRequest id now) :
    OwnEffect id thread.past world.state.table db.table := by
  have obeys : Machine.Obeys retryContract world := by
    refine Machine.obeys_reachable body_ends ⟨?_, ?_⟩ reaches
    · intro tid thread live
      cases live
    · intro tid thread live
      cases live
  have answers : ∀ event ∈ world.trace, RetryAnswer event.call := by
    refine Machine.trace_reachable RetryAnswer ?_ ?_ reaches
    · intro event member
      cases member
    · intro world move call guard answered
      exact retry_answered guard answered
  have permitted := obeys.permits acts
  rw [task] at permitted
  obtain ⟨hit, record, saved, past⟩ := permitted
  have known (call : Answered) (member : call ∈ thread.past) : RetryAnswer call :=
    answers _ (obeys.recorded tid thread acts.live call member)
  have effective : hit = true :=
    known ⟨.update (.retry record now), .ok hit⟩ (by simp [past, RetryPast])
  have named : record.id = sanitizeID id :=
    known ⟨.selectByID (sanitizeID id), .ok (some record)⟩ (by simp [past, RetryPast])
  have locks := locked_reachable reaches
  have mine : held world.state tid = [.retry record now] := by
    obtain ⟨next, pending, _⟩ := acts.next
    rw [locks.own tid thread acts.live (by rw [pending]; rfl), past, effective]
    rfl
  obtain ⟨row, here, matched⟩ :=
    locks.present (tid, .retry record now) (mem_held.mp (by simp [mine]))
  have answer : respond tid fault world.state .commit = some (.ok (), db) := acts.answer
  have table : db.table = (Update.retry record now).run world.state.table := by
    simp only [respond] at answer
    split at answer
    · cases answer
    · cases answer
      simp [committed, mine]
  have same : row.id = record.id := Update.matching_target matched
  have version : row.version = record.version := by
    simp only [Update.matching, Bool.and_eq_true, beq_iff_eq] at matched
    exact matched.2
  refine ⟨record, by rw [past]; rfl, row, here, same.trans named, retryUpdates now row, ?_, ?_⟩
  · rw [table]
    exact List.mem_map.mpr ⟨row, here, if_pos matched⟩
  · rw [← version]
    exact retryUpdates_requeued now row

/-- Where each retry finds the version it read, a nil error is its own effect,
and no other statement of its changes the table. -/
theorem retry_reports_own_effect {table : RequestTable} {world after : StoreWorld}
    (reaches : machine.Reaches (fun world move => unraced world move = true) (opened table) world)
    {tid : Nat} {thread : Thread Statement Statement.Resp Caller}
    (live : world.threads[tid]? = some thread) {id : String} {now : Time}
    (task : thread.task = .retryRequest id now) {fault : Option GoError}
    (stepped : machine.step world (.run tid fault) = some after) :
    Keeps (retryContract thread.task) (retryRequest id now) (RetryEnds id now) [] ∧
      (machine.answered world (.run tid fault) = some ⟨.commit, .ok ()⟩ →
        OwnEffect id thread.past world.state.table after.state.table) ∧
      (machine.answered world (.run tid fault) ≠ some ⟨.commit, .ok ()⟩ →
        after.state.table = world.state.table) := by
  refine ⟨task ▸ retryRequest_ends id now, ?_⟩
  obtain ⟨_, _, actor, statement, resp, rest, db, same, acts, rfl⟩ | ⟨_, same, _⟩ | ⟨same, _⟩ :=
    machine.step_cases stepped
  · cases same
    obtain rfl : actor = thread := Option.some.inj (acts.live.symm.trans live)
    rw [acts.answered_eq]
    constructor
    · intro commits
      cases Option.some.inj commits
      exact retry_commits reaches acts task
    · intro other
      rcases table_answered acts.answer with kept | ⟨commits, _⟩
      · exact kept
      · exact absurd (congrArg some commits) other
  · cases same
  · cases same

end Retries

section Samples

def failedTable : RequestTable where
  rows := [{ id := "1", status := .failed, failureStage := "stop", sandboxID := "sbx" }]
  primaryKey := by decide
  jobIndex := by decide
  sanitized := by decide

def commits : Option Answered → Bool
  | some ⟨.commit, .ok ()⟩ => true
  | _ => false

theorem commits_iff {call : Option Answered} :
    commits call = true ↔ call = some ⟨.commit, .ok ()⟩ := by
  constructor
  · intro committed
    unfold commits at committed
    split at committed
    · rfl
    · cases committed
  · rintro rfl
    rfl

def retriesAt (now : Time) (thread : Thread Statement Statement.Resp Caller) : Bool :=
  match thread.task with
  | .retryRequest id at_ => id == "1" && at_ == now
  | _ => false

theorem retriesAt_task {now : Time} {thread : Thread Statement Statement.Resp Caller}
    (retried : retriesAt now thread = true) : thread.task = .retryRequest "1" now := by
  unfold retriesAt at retried
  split at retried
  · rename_i task
    simp only [Bool.and_eq_true, beq_iff_eq] at retried
    rw [task, retried.1, retried.2]
  · cases retried

/-- Two retries read the row, and the first one updates it. -/
def untilRequeued : List StoreMove :=
  [.start (.retryRequest "1" 0), .start (.retryRequest "1" second), .run 0 none, .run 1 none,
    .run 0 none, .run 0 none]

theorem retry_reports_own_effect_first :
    ∃ (world after : StoreWorld) (thread : Thread Statement Statement.Resp Caller),
      machine.Reaches (fun world move => unraced world move = true)
        (opened failedTable) world ∧
      machine.step world (.run 0 none) = some after ∧
      machine.answered world (.run 0 none) = some ⟨.commit, .ok ()⟩ ∧
      OwnEffect "1" thread.past world.state.table after.state.table := by
  have ran : (machine.runChecked unraced untilRequeued (opened failedTable)).any (fun world =>
      (world.threads[0]?).any (retriesAt 0) && commits (machine.answered world (.run 0 none)) &&
        (machine.step world (.run 0 none)).isSome) = true := by decide +kernel
  obtain ⟨world, reaches, found⟩ := Machine.reaches_any ran
  simp only [Bool.and_eq_true, Option.any_eq_true, Option.isSome_iff_exists, commits_iff] at found
  obtain ⟨⟨⟨thread, live, task⟩, committed⟩, after, stepped⟩ := found
  obtain ⟨_, effect, _⟩ := retry_reports_own_effect reaches live (retriesAt_task task) stepped
  exact ⟨world, after, thread, reaches, stepped, committed, effect committed⟩

/-- The second retry has read the row before the first one's commit, and updates
nothing. -/
def untilReread : List StoreMove := untilRequeued ++ [.run 0 none, .run 1 none, .run 1 none]

/-- It commits and reports success all the same. -/
theorem retry_reports_other_effect :
    ¬∀ (table : RequestTable) (world after : StoreWorld) (tid : Nat)
        (thread : Thread Statement Statement.Resp Caller) (id : String) (now : Time)
        (fault : Option GoError), machine.Reaches (fun _ _ => True) (opened table) world →
      world.threads[tid]? = some thread → thread.task = .retryRequest id now →
      machine.step world (.run tid fault) = some after →
      Keeps (retryContract thread.task) (retryRequest id now) (RetryEnds id now) [] ∧
        (machine.answered world (.run tid fault) = some ⟨.commit, .ok ()⟩ →
          OwnEffect id thread.past world.state.table after.state.table) ∧
        (machine.answered world (.run tid fault) ≠ some ⟨.commit, .ok ()⟩ →
          after.state.table = world.state.table) := by
  intro always
  have ran : (machine.runChecked (fun _ _ => true) untilReread (opened failedTable)).any
      (fun world => (world.threads[1]?).any (retriesAt second) &&
        commits (machine.answered world (.run 1 none)) &&
        (world.state.table.rows.all fun row => decide (row.version = 1)) &&
        (machine.step world (.run 1 none)).any fun after =>
          after.state.table.rows.all fun row => decide (row.version = 1)) = true := by
    decide +kernel
  obtain ⟨world, reaches, found⟩ := Machine.reaches_any ran
  simp only [Bool.and_eq_true, Option.any_eq_true, List.all_eq_true, decide_eq_true_eq,
    commits_iff] at found
  obtain ⟨⟨⟨⟨thread, live, task⟩, committed⟩, old⟩, after, stepped, new⟩ := found
  obtain ⟨_, effect, _⟩ := always failedTable world after 1 thread "1" second none
    (reaches.weaken fun _ _ _ => True.intro) live (retriesAt_task task) stepped
  obtain ⟨record, _, row, before, _, next, later, requeued⟩ := effect committed
  have advanced := requeued.advanced
  rw [← requeued.read, old row before, new next later] at advanced
  cases advanced

end Samples

end Runnerd.Statements
