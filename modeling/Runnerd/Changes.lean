import Runnerd.Custody

/-!
How the rows of a running server change. In a coherent world each call changes
a row in one of four ways, and a write changes it as an `Edit` of the row that
its goroutine remembers. `rows_invariant` is the induction rule for facts about
rows and the calls made so far.
-/

namespace Runnerd

open GoText Interaction Interleaving Versioned

abbrev RunnerThread := Thread Op Op.Resp Task
abbrev RunnerEvent := Event Op Op.Resp Task

/-- A row before and after one call of a goroutine that was answered `past`. -/
inductive Change (server : Server) (past : List Answered) (now : Time) :
    Answered → RunnerRequestRecord → RunnerRequestRecord → Prop where
  | written {writer : Writer} {st base : RunnerState} {row : RunnerRequestRecord}
      (matched : versionMatches st row = true) (knows : Knows past base)
      (edit : Edit server past writer base st) (same : rowCore row = core base) :
      Change server past now ⟨.writeState writer st, .ok ()⟩ row (stateUpdates st now row)
  | claimed {workerID : String} {at_ : Time} {leaseTTL : Duration} {row : RunnerRequestRecord}
      {answer : Except GoError (Option (RunnerRequest × RunnerState))}
      (free : claimable at_ row = true) :
      Change server past now ⟨.claimNextRunnable workerID at_ leaseTTL, answer⟩ row
        (claimUpdates (trimSpace workerID) at_ leaseTTL row)
  | released {id workerID : String} {row : RunnerRequestRecord}
      (matched : leaseMatches id workerID row = true) :
      Change server past now ⟨.releaseLease id workerID, .ok ()⟩ row (clearLease now row)
  | retried {id : String} {at_ : Time} {row : RunnerRequestRecord}
      (allowed : retryAllowed row = true) (named : row.id = sanitizeID id) :
      Change server past now ⟨.retryRequest id at_, .ok (recordToState (retryUpdates at_ row))⟩
        row (retryUpdates at_ row)

/-- One call of one goroutine in a coherent world. -/
structure Turn (server : Server) (world : RunnerWorld) (tid : Nat) (choice : Choice)
    (thread : RunnerThread) (op : Op) (resp : op.Resp) (state : ServerState) : Prop where
  coherent : Coherent server world
  live : world.threads[tid]? = some thread
  pending : ∃ op next, thread.rest = .call op next
  answer : respond server tid choice world.state op = some (resp, state)
  answered : (machine server).answered world (.run tid choice) = some ⟨op, resp⟩
  permits : contract server thread.past op
  remembers : ∀ base, Knows thread.past base → Remembered world.state.table.rows base

section Rewrites

/-- A call that writes the request or retries it by hand. -/
def rewrites (id : String) : Answered → Bool
  | ⟨.writeState _ st, .ok ()⟩ => sanitizeID st.id == id
  | ⟨.retryRequest other _, .ok _⟩ => sanitizeID other == id
  | _ => false

/-- Such a call finds the row and moves it to the next version. -/
theorem rewrites_answered {server : Server} {tid : Nat} {choice : Choice}
    {state after : ServerState} {op : Op} {resp : op.Resp} {id : String}
    (answered : respond server tid choice state op = some (resp, after))
    (rewrote : rewrites id ⟨op, resp⟩ = true) :
    ∃ row ∈ state.table.rows, ∃ next ∈ after.table.rows, row.id = id ∧ next.id = id ∧
      next.version = row.version + 1 := by
  cases op with
  | writeState writer st =>
      cases resp with
      | error err => cases rewrote
      | ok done =>
          obtain ⟨row, here, matched, stored⟩ := writeState_answered answered
          simp only [versionMatches, Bool.and_eq_true, beq_iff_eq] at matched
          have named : row.id = id := matched.1.trans (by simpa [rewrites] using rewrote)
          refine ⟨row, here, _, stored, named, named, ?_⟩
          simp only [stateUpdates, matched.2]
  | retryRequest other at_ =>
      cases resp with
      | error err => cases rewrote
      | ok st =>
          obtain ⟨row, here, named, stored⟩ := retryRequest_answered answered
          have named : row.id = id := named.trans (by simpa [rewrites] using rewrote)
          exact ⟨row, here, _, stored, named, named, rfl⟩
  | _ => cases rewrote

end Rewrites

section Turns
variable {server : Server} {world : RunnerWorld} {tid : Nat} {choice : Choice}
  {thread : RunnerThread} {op : Op} {resp : op.Resp} {rest : Action Unit} {state : ServerState}

theorem turn_of_acts (coherent : Coherent server world)
    (acts : (machine server).Acts world tid choice thread op resp rest state) :
    Turn server world tid choice thread op resp state := by
  obtain ⟨answers, next, _⟩ := acts.next
  exact ⟨coherent, acts.live, ⟨op, answers, next⟩, acts.answer, acts.answered_eq,
    coherent.obeys.permits acts, coherent.remembers.actor acts⟩

/-- What a goroutine was answered stands in the world's own memory. -/
theorem Turn.recorded (turn : Turn server world tid choice thread op resp state) {call : Answered}
    (member : call ∈ thread.past) : ∃ event ∈ world.trace, event.call = call :=
  ⟨_, turn.coherent.obeys.recorded tid thread turn.live call member, rfl⟩

/-- A goroutine reads the row it asks for. -/
theorem Turn.honest_read (turn : Turn server world tid choice thread op resp state) {other : Nat}
    {found : RunnerThread} (live : world.threads[other]? = some found) {id : String}
    {base : RunnerState} (reads : (⟨.readState id, .ok base⟩ : Answered) ∈ found.past) :
    base.id = sanitizeID id :=
  turn.coherent.honest _ (turn.coherent.obeys.recorded other found live _ reads)

/-- A write that finds its version finds the row its goroutine knows. -/
theorem Turn.current (turn : Turn server world tid choice thread op resp state)
    {base st : RunnerState} (knows : Knows thread.past base) (same : SameRequest base st)
    {row : RunnerRequestRecord} (here : row ∈ world.state.table.rows)
    (matched : versionMatches st row = true) : rowCore row = core base := by
  simp only [versionMatches, Bool.and_eq_true, beq_iff_eq] at matched
  have seen := turn.remembers base knows
  have key : sanitizeID base.id = rowID row := by
    rw [← same.id]
    exact matched.1.symm
  rw [Remembered, key] at seen
  exact seen_current world.state.table.primaryKey seen here (matched.2.trans same.version)

theorem Turn.change (turn : Turn server world tid choice thread op resp state)
    {row next : RunnerRequestRecord} (member : row ∈ world.state.table.rows)
    (step : RowStep choice.now ⟨op, resp⟩ row next) :
    Change server thread.past choice.now ⟨op, resp⟩ row next := by
  cases step with
  | @written writer st row matched =>
      have keys := matched
      simp only [versionMatches, Bool.and_eq_true, beq_iff_eq] at keys
      rcases turn.permits with ⟨written, wrote, sameID, sameVersion⟩ | ⟨base, knows, edit⟩
      · -- the goroutine has written over this version itself, so the row is past it
        obtain ⟨found, present, sameKey, bound, _⟩ :=
          turn.remembers written.advanced (.inr ⟨written, wrote, rfl⟩)
        have same : found = row := world.state.table.same_row present member <| by
          change rowID found = row.id
          rw [sameKey, keys.1]
          exact congrArg sanitizeID sameID
        subst same
        have passed : written.version + 1 ≤ found.version := bound
        omega
      · exact .written matched knows edit (turn.current knows (edit_custody edit).1 member matched)
  | claimed free => exact .claimed free
  | released matched => exact .released matched
  | retried allowed named => exact .retried allowed named

/-- Everything a call can do to the rows. -/
theorem Turn.rows (turn : Turn server world tid choice thread op resp state) :
    (∃ edit : RunnerRequestRecord → RunnerRequestRecord,
      state.table.rows = world.state.table.rows.map edit ∧
      ∀ row ∈ world.state.table.rows,
        edit row = row ∨ Change server thread.past choice.now ⟨op, resp⟩ row (edit row)) ∨
    ∃ row, Added choice.now ⟨op, resp⟩ row ∧
      state.table.rows = world.state.table.rows ++ [row] := by
  rcases rows_answered turn.answer with ⟨edit, same, steps⟩ | added
  · exact .inl ⟨edit, same, fun row member => (steps row member).imp_right (turn.change member)⟩
  · exact .inr added

theorem Change.sameID {past : List Answered} {now : Time} {call : Answered}
    {row next : RunnerRequestRecord} (change : Change server past now call row next) :
    next.id = row.id := by
  cases change <;> rfl

/-- What became of one row. -/
theorem Turn.next (turn : Turn server world tid choice thread op resp state)
    {row next : RunnerRequestRecord} (here : row ∈ world.state.table.rows)
    (there : next ∈ state.table.rows) (same : next.id = row.id) :
    next = row ∨ Change server thread.past choice.now ⟨op, resp⟩ row next := by
  rcases turn.rows with ⟨edit, rows, changes⟩ | ⟨added, _, rows⟩
  · obtain ⟨before, member, rfl⟩ := List.mem_map.mp (rows ▸ there)
    have keptID : (edit before).id = before.id := by
      rcases changes before member with kept | change
      · rw [kept]
      · exact change.sameID
    cases world.state.table.same_row member here (keptID.symm.trans same)
    exact changes row here
  · have distinct := state.table.primaryKey
    rw [rows, List.map_append, List.nodup_append] at distinct
    rw [rows] at there
    rcases List.mem_append.mp there with old | new
    · exact .inl (world.state.table.same_row old here same)
    · cases List.mem_singleton.mp new
      exact absurd same.symm (distinct.2.2 _ (List.mem_map_of_mem here) _ (by simp))

/-- A row that a call leaves as it was has not been written or retried by it. -/
theorem Turn.unrewritten (turn : Turn server world tid choice thread op resp state)
    {row : RunnerRequestRecord} (here : row ∈ world.state.table.rows)
    (still : row ∈ state.table.rows) : rewrites row.id ⟨op, resp⟩ = false := by
  by_contra rewrote
  obtain ⟨found, present, next, stored, same, sameNext, advanced⟩ :=
    rewrites_answered turn.answer (Bool.eq_true_of_not_eq_false rewrote)
  obtain rfl : found = row := world.state.table.same_row present here same
  obtain rfl : next = found := state.table.same_row stored still sameNext
  omega

theorem Turn.unwritten (turn : Turn server world tid choice thread op resp state)
    {row : RunnerRequestRecord} (here : row ∈ world.state.table.rows)
    (still : row ∈ state.table.rows) {writer : Writer} {st : RunnerState}
    (wrote : (⟨op, resp⟩ : Answered) = ⟨.writeState writer st, .ok ()⟩) :
    sanitizeID st.id ≠ row.id := by
  have unrewritten := turn.unrewritten here still
  rw [wrote] at unrewritten
  simpa [rewrites] using unrewritten

/-- A row at the version a goroutine remembers was there before the call, which
has at most released its lease. -/
theorem Turn.same_version (turn : Turn server world tid choice thread op resp state)
    {base : RunnerState} {id : String} (named : base.id = sanitizeID id)
    (remembered : Remembered world.state.table.rows base) {next : RunnerRequestRecord}
    (there : next ∈ state.table.rows) (sameID : next.id = base.id)
    (sameVersion : next.version = base.version) :
    ∃ row ∈ world.state.table.rows, row.id = base.id ∧ row.version = base.version ∧
      (next = row ∨ ∃ lease worker, (⟨op, resp⟩ : Answered) = ⟨.releaseLease lease worker, .ok ()⟩ ∧
        leaseMatches lease worker row = true ∧ next = clearLease choice.now row) := by
  obtain ⟨row, here, key, bound, _⟩ := remembered
  have rowID : row.id = base.id := by
    rw [named, sanitizeID_idem, ← named] at key
    exact key
  have bound : base.version ≤ row.version := bound
  rcases turn.next here there (sameID.trans rowID.symm) with rfl | change
  · exact ⟨next, here, sameID, sameVersion, .inl rfl⟩
  · cases change with
    | written matched knows edit same =>
        simp only [versionMatches, Bool.and_eq_true, beq_iff_eq] at matched
        simp only [stateUpdates] at sameVersion
        omega
    | claimed free =>
        simp only [claimUpdates] at sameVersion
        omega
    | released matched => exact ⟨row, here, rowID, sameVersion, .inr ⟨_, _, rfl, matched, rfl⟩⟩
    | retried allowed named =>
        simp only [retryUpdates] at sameVersion
        omega

end Turns

section Conditions

/-- A condition on the call that a move answers. -/
def guarded (server : Server) (guard : RunnerWorld → Answered → Bool) (world : RunnerWorld)
    (move : RunnerMove) : Bool :=
  ((machine server).answered world move).all (guard world)

/-- A condition on the call that a move answers and on the goroutine that made it. -/
def watched (server : Server) (guard : RunnerWorld → RunnerThread → Answered → Bool)
    (world : RunnerWorld) (move : RunnerMove) : Bool :=
  match move with
  | .run tid _ =>
      (world.threads[tid]?).all fun thread =>
        ((machine server).answered world move).all (guard world thread)
  | _ => true

theorem Turn.watched_call {server : Server} {world : RunnerWorld} {tid : Nat} {choice : Choice}
    {thread : RunnerThread} {op : Op} {resp : op.Resp} {state : ServerState}
    (turn : Turn server world tid choice thread op resp state)
    {guard : RunnerWorld → RunnerThread → Answered → Bool}
    (passed : watched server guard world (.run tid choice) = true) :
    guard world thread ⟨op, resp⟩ = true := by
  simpa [watched, turn.live, turn.answered] using passed

/-- A condition on the call that a move answers and on the calls before it. -/
def inOrder (server : Server) (guard : RunnerEvent → List RunnerEvent → Bool)
    (world : RunnerWorld) (move : RunnerMove) : Bool :=
  match move with
  | .run tid _ =>
      (world.threads[tid]?).all fun thread =>
        ((machine server).answered world move).all fun call =>
          guard ⟨tid, thread.task, call⟩ world.trace
  | _ => true

theorem Turn.in_order {server : Server} {world : RunnerWorld} {tid : Nat} {choice : Choice}
    {thread : RunnerThread} {op : Op} {resp : op.Resp} {state : ServerState}
    (turn : Turn server world tid choice thread op resp state)
    {guard : RunnerEvent → List RunnerEvent → Bool}
    (passed : inOrder server guard world (.run tid choice) = true) :
    guard ⟨tid, thread.task, ⟨op, resp⟩⟩ world.trace = true := by
  simpa [inOrder, turn.live, turn.answered] using passed

end Conditions

section Runs
variable {server : Server} {condition : RunnerWorld → RunnerMove → Prop}

abbrev eventOf (tid : Nat) (thread : RunnerThread) (op : Op) (resp : op.Resp) : RunnerEvent :=
  ⟨tid, thread.task, ⟨op, resp⟩⟩

/-- No row is ever removed. -/
theorem row_stays {first world : RunnerWorld}
    (reaches : (machine server).Reaches condition first world) {row : RunnerRequestRecord}
    (there : row ∈ first.state.table.rows) : ∃ next ∈ world.state.table.rows, next.id = row.id := by
  induction reaches with
  | refl => exact ⟨row, there, rfl⟩
  | step move before _ stepped ih =>
      obtain ⟨old, present, same⟩ := ih
      obtain ⟨tid, choice, thread, op, resp, rest, state, rfl, acts, rfl⟩ | ⟨task, rfl, _, rfl⟩ |
        ⟨rfl, rfl⟩ := (machine server).step_cases stepped
      · obtain ⟨next, there, key, _⟩ := table_advances acts.answer old present
        exact ⟨next, there, key.trans same⟩
      · exact ⟨old, present, same⟩
      · exact ⟨old, present, same⟩

/-- What was written or retried is still there. -/
theorem rewritten_row {table : RequestTable} {world : RunnerWorld} {id : String}
    (reaches : (machine server).Reaches condition (opened table) world) {event : RunnerEvent}
    (member : event ∈ world.trace) (rewrote : rewrites id event.call = true) :
    ∃ row ∈ world.state.table.rows, row.id = id := by
  induction reaches with
  | refl => cases member
  | step move before _ stepped ih =>
      obtain ⟨tid, choice, thread, op, resp, rest, state, rfl, acts, rfl⟩ | ⟨task, rfl, _, rfl⟩ |
        ⟨rfl, rfl⟩ := (machine server).step_cases stepped
      · rcases List.mem_cons.mp member with rfl | older
        · obtain ⟨_, _, next, stored, _, named, _⟩ := rewrites_answered acts.answer rewrote
          exact ⟨next, stored, named⟩
        · obtain ⟨row, present, same⟩ := ih older
          obtain ⟨next, there, key, _⟩ := table_advances acts.answer row present
          exact ⟨next, there, key.trans same⟩
      · exact ih member
      · exact ih member

theorem written_row {table : RequestTable} {world : RunnerWorld}
    (reaches : (machine server).Reaches condition (opened table) world) {event : RunnerEvent}
    (member : event ∈ world.trace) {writer : Writer} {st : RunnerState}
    (wrote : event.call = ⟨.writeState writer st, .ok ()⟩) :
    ∃ row ∈ world.state.table.rows, row.id = sanitizeID st.id :=
  rewritten_row reaches member (by simp [wrote, rewrites])

/-- A fact about each row and the calls so far holds in every reachable world
when it holds of the first rows and of added rows, and survives every call, for
the rows it leaves as they were and for those it changes. -/
theorem history_invariant {table : RequestTable}
    (fact : List RunnerEvent → RunnerRequestRecord → Prop)
    (first : ∀ row ∈ table.rows, fact [] row)
    (added : ∀ {world tid choice thread op resp state row},
      (machine server).Reaches condition (opened table) world →
      Turn server world tid choice thread op resp state → condition world (.run tid choice) →
      Added choice.now ⟨op, resp⟩ row → (∀ old ∈ world.state.table.rows, old.id ≠ row.id) →
      fact (eventOf tid thread op resp :: world.trace) row)
    (kept : ∀ {world tid choice thread op resp state row},
      (machine server).Reaches condition (opened table) world →
      Turn server world tid choice thread op resp state → condition world (.run tid choice) →
      row ∈ world.state.table.rows → row ∈ state.table.rows → fact world.trace row →
      fact (eventOf tid thread op resp :: world.trace) row)
    (changed : ∀ {world tid choice thread op resp state row next},
      (machine server).Reaches condition (opened table) world →
      Turn server world tid choice thread op resp state → condition world (.run tid choice) →
      row ∈ world.state.table.rows → fact world.trace row →
      Change server thread.past choice.now ⟨op, resp⟩ row next →
      fact (eventOf tid thread op resp :: world.trace) next)
    {world : RunnerWorld} (reaches : (machine server).Reaches condition (opened table) world) :
    ∀ row ∈ world.state.table.rows, fact world.trace row := by
  induction reaches with
  | refl => exact first
  | step move before meets stepped ih =>
      obtain ⟨tid, choice, thread, op, resp, rest, state, rfl, acts, rfl⟩ | ⟨task, rfl, _, rfl⟩ |
        ⟨rfl, rfl⟩ := (machine server).step_cases stepped
      · have turn := turn_of_acts (coherent_reachable before) acts
        intro row member
        change row ∈ state.table.rows at member
        rcases turn.rows with ⟨edit, rows, changes⟩ | ⟨fresh, news, rows⟩
        · obtain ⟨old, present, rfl⟩ := List.mem_map.mp (rows ▸ member)
          rcases changes old present with same | change
          · rw [same] at member ⊢
            exact kept before turn meets present member (ih old present)
          · exact changed before turn meets present (ih old present) change
        · rcases List.mem_append.mp (rows ▸ member) with old | new
          · exact kept before turn meets old member (ih row old)
          · cases List.mem_singleton.mp new
            refine added before turn meets news fun old present same => ?_
            have distinct := state.table.primaryKey
            rw [rows, List.map_append, List.nodup_append] at distinct
            exact distinct.2.2 _ (List.mem_map_of_mem present) _ (by simp) same
      · exact ih
      · exact ih

/-- The rule for facts that more calls cannot spoil. -/
theorem rows_invariant {table : RequestTable} (fact : List RunnerEvent → RunnerRequestRecord → Prop)
    (grows : ∀ event trace row, fact trace row → fact (event :: trace) row)
    (first : ∀ row ∈ table.rows, fact [] row)
    (added : ∀ {world tid choice thread op resp state row},
      (machine server).Reaches condition (opened table) world →
      Turn server world tid choice thread op resp state → condition world (.run tid choice) →
      Added choice.now ⟨op, resp⟩ row → fact world.trace row)
    (changed : ∀ {world tid choice thread op resp state row next},
      (machine server).Reaches condition (opened table) world →
      Turn server world tid choice thread op resp state → condition world (.run tid choice) →
      row ∈ world.state.table.rows → fact world.trace row →
      Change server thread.past choice.now ⟨op, resp⟩ row next → fact world.trace next)
    {world : RunnerWorld} (reaches : (machine server).Reaches condition (opened table) world) :
    ∀ row ∈ world.state.table.rows, fact world.trace row := by
  refine history_invariant fact first ?_ ?_ ?_ reaches
  · intro world tid choice thread op resp state row before turn meets news _
    exact grows _ _ _ (added before turn meets news)
  · intro world tid choice thread op resp state row _ _ _ _ _ known
    exact grows _ _ _ known
  · intro world tid choice thread op resp state row next before turn meets here known change
    exact grows _ _ _ (changed before turn meets here known change)

/-- Every call that a goroutine remembers met the condition when it was made. -/
theorem met_past {guard : Task → List Answered → Answered → Bool} {first world : RunnerWorld}
    (idle : first.threads = [])
    (reaches : (machine server).Reaches (fun world move => watched server
      (fun _ thread => guard thread.task thread.past) world move = true) first world) :
    Machine.Informed (fun _ _ _ task past => ∀ call earlier, call :: earlier <:+ past →
      guard task earlier call = true) world := by
  induction reaches with
  | refl =>
      intro tid thread live
      rw [idle] at live
      cases live
  | step move before meets stepped ih =>
      refine Machine.informed_step ih stepped ?_ ?_ ?_
      · intro state trace tid task call earlier suffix
        have short := suffix.length_le
        simp at short
      · intro tid choice thread op resp rest state acts moved known call earlier suffix
        subst moved
        rcases List.suffix_cons_iff.mp suffix with last | older
        · cases last
          simpa [watched, acts.live, acts.answered_eq] using meets
        · exact known call earlier older
      · intro tid choice thread op resp rest state other found _ _ _ _ _ known
        exact known

end Runs

section Histories

/-- A successful write of the request that counts. -/
def wrote (counts : Writer → RunnerState → Bool) (id : String) : Answered → Bool
  | ⟨.writeState writer st, .ok ()⟩ => counts writer st && sanitizeID st.id == id
  | _ => false

def tally (counts : Writer → RunnerState → Bool) (trace : List RunnerEvent) (id : String) : Nat :=
  trace.countP fun event => wrote counts id event.call

theorem tally_cons (counts : Writer → RunnerState → Bool) (event : RunnerEvent)
    (trace : List RunnerEvent) (id : String) :
    tally counts (event :: trace) id =
      tally counts trace id + if wrote counts id event.call = true then 1 else 0 := by
  simp only [tally, List.countP_cons]

theorem wrote_write {counts : Writer → RunnerState → Bool} {id : String} {call : Answered}
    (counted : wrote counts id call = true) :
    ∃ writer st, call = ⟨.writeState writer st, .ok ()⟩ ∧ counts writer st = true ∧
      sanitizeID st.id = id := by
  unfold wrote at counted
  split at counted
  · rename_i writer st
    simp only [Bool.and_eq_true, beq_iff_eq] at counted
    exact ⟨writer, st, rfl, counted⟩
  · cases counted

theorem wrote_own {counts : Writer → RunnerState → Bool} {id : String} {writer : Writer}
    {st : RunnerState} (same : sanitizeID st.id = id) :
    wrote counts id ⟨.writeState writer st, .ok ()⟩ = counts writer st := by
  simp [wrote, same]

variable {server : Server} {counts : Writer → RunnerState → Bool}

/-- A call that leaves a row as it was adds nothing to its history. -/
theorem Turn.sameTally {world : RunnerWorld} {tid : Nat} {choice : Choice}
    {thread : RunnerThread} {op : Op} {resp : op.Resp} {state : ServerState}
    (turn : Turn server world tid choice thread op resp state)
    {row : RunnerRequestRecord} (here : row ∈ world.state.table.rows)
    (still : row ∈ state.table.rows) :
    tally counts (eventOf tid thread op resp :: world.trace) row.id =
      tally counts world.trace row.id := by
  rw [tally_cons, if_neg]
  · rfl
  · intro counted
    obtain ⟨writer, st, call, _, same⟩ := wrote_write counted
    exact turn.unwritten here still call same

/-- A request that has no row has no history. -/
theorem tally_absent {condition : RunnerWorld → RunnerMove → Prop} {table : RequestTable}
    {world : RunnerWorld} {id : String}
    (reaches : (machine server).Reaches condition (opened table) world)
    (absent : ∀ row ∈ world.state.table.rows, row.id ≠ id) : tally counts world.trace id = 0 := by
  rw [tally, List.countP_eq_zero]
  intro event member counted
  obtain ⟨writer, st, call, _, same⟩ := wrote_write counted
  obtain ⟨row, present, key⟩ := written_row reaches member call
  exact absent row present (key.trans same)

end Histories

section Standing
variable {server : Server} {condition : RunnerWorld → RunnerMove → Prop}

/-- A row but for the columns that `ReleaseLease` clears. -/
def settledPart (st : RunnerState) : RunnerState :=
  { st with leaseOwner := "", leaseExpiresAt := none, updatedAt := 0 }

/-- What was read is the row, lease apart, for as long as its version stands. -/
def ReadsStand (state : ServerState) (past : List Answered) : Prop :=
  ∀ id base, (⟨.readState id, .ok base⟩ : Answered) ∈ past → ∀ row ∈ state.table.rows,
    row.id = base.id → row.version = base.version →
      settledPart row.toRunnerState = settledPart base

theorem Turn.keepsStanding {world : RunnerWorld} {tid : Nat} {choice : Choice}
    {thread : RunnerThread} {op : Op} {resp : op.Resp} {state : ServerState}
    (turn : Turn server world tid choice thread op resp state) {base : RunnerState} {id : String}
    (named : base.id = sanitizeID id) (remembered : Remembered world.state.table.rows base)
    (stands : ∀ row ∈ world.state.table.rows, row.id = base.id → row.version = base.version →
      settledPart row.toRunnerState = settledPart base) :
    ∀ row ∈ state.table.rows, row.id = base.id → row.version = base.version →
      settledPart row.toRunnerState = settledPart base := by
  intro next there sameID sameVersion
  obtain ⟨row, here, rowID, rowVersion, rfl | ⟨lease, worker, _, _, rfl⟩⟩ :=
    turn.same_version named remembered there sameID sameVersion
  · exact stands next here rowID rowVersion
  · exact stands row here rowID rowVersion

theorem reads_stand {table : RequestTable} {world : RunnerWorld}
    (reaches : (machine server).Reaches condition (opened table) world) :
    Machine.Informed (fun state _ _ _ past => ReadsStand state past) world := by
  induction reaches with
  | refl =>
      intro tid thread live
      cases live
  | step move before _ stepped ih =>
      have coherent := coherent_reachable before
      refine Machine.informed_step ih stepped ?_ ?_ ?_
      · intro state trace tid task id base member
        cases member
      · intro tid choice thread op resp rest state acts _ known id base member
        have turn := turn_of_acts coherent acts
        rcases List.mem_cons.mp member with last | older
        · cases last
          obtain ⟨same, found, here, rfl, _⟩ := readState_answered turn.answer
          intro row there sameID _
          rw [same] at there
          rw [RequestTable.same_row _ there here sameID]
        · exact turn.keepsStanding (turn.honest_read turn.live older)
            (turn.remembers base (.inl ⟨id, older⟩)) (known id base older)
      · intro tid choice thread op resp rest state other found acts _ _ live pending known id base
          member
        have turn := turn_of_acts coherent acts
        exact turn.keepsStanding (turn.honest_read live member)
          (coherent.remembers other found live pending base (.inl ⟨id, member⟩))
          (known id base member)

theorem Turn.stands {world : RunnerWorld} {tid : Nat} {choice : Choice} {thread : RunnerThread}
    {op : Op} {resp : op.Resp} {state : ServerState} {table : RequestTable}
    (turn : Turn server world tid choice thread op resp state)
    (reaches : (machine server).Reaches condition (opened table) world) :
    ReadsStand world.state thread.past :=
  reads_stand reaches tid thread turn.live turn.pending

/-- The row that a write replaces is the row its goroutine has read, lease
apart. -/
theorem Turn.reread {world : RunnerWorld} {tid : Nat} {choice : Choice} {thread : RunnerThread}
    {op : Op} {resp : op.Resp} {state : ServerState}
    (turn : Turn server world tid choice thread op resp state)
    (stands : ReadsStand world.state thread.past) {st base : RunnerState}
    (reads : Reads thread.past base) (request : SameRequest base st) {row : RunnerRequestRecord}
    (here : row ∈ world.state.table.rows) (matched : versionMatches st row = true) :
    settledPart row.toRunnerState = settledPart base := by
  obtain ⟨id, member⟩ := reads
  have named := turn.honest_read turn.live member
  simp only [versionMatches, Bool.and_eq_true, beq_iff_eq] at matched
  have key : row.id = base.id := by
    rw [matched.1, request.id, named, sanitizeID_idem]
  exact stands id base member row here key (matched.2.trans request.version)

end Standing

section Columns
variable {server : Server} {past : List Answered}

/-- The runner's name and the stored credentials, which next to no write touches. -/
def heldColumns (st : RunnerState) : String × String × String :=
  (st.runnerName, st.sandboxAPIURL, st.sandboxAPIKeyEncrypted)

theorem exits_columns {base st : RunnerState} {err cleanup : Option GoError}
    (exits : Exits past base st err cleanup) : heldColumns st = heldColumns base := by
  obtain ⟨sandboxID, result, now, _, rfl⟩ := exits.result
  have exited : heldColumns (exitedState base result err) = heldColumns base := by
    unfold exitedState
    split
    · rfl
    · split <;> rfl
  rw [← exited]
  unfold exitCleanedState
  split
  · rfl
  · rfl
  · rfl
  · split <;> rfl

theorem cleanupRetry_columns {st next : RunnerState} {now : Time} {err : GoError}
    (scheduled : scheduleCleanupRetry server.cfg now st err = some next) :
    heldColumns next = heldColumns st := by
  obtain ⟨code, count, rfl⟩ := scheduled_stopping scheduled
  rfl

theorem stopRetry_columns {st next : RunnerState} {now : Time} {err : GoError}
    (scheduled : scheduleStopRetry server.cfg now st err = some next) :
    heldColumns next = heldColumns st := by
  unfold scheduleStopRetry at scheduled
  dsimp only at scheduled
  split at scheduled
  · cases scheduled
  · cases scheduled
    rfl

theorem applyFailure_columns (cfg : Config) (now : Time) (st : RunnerState) (stage : String)
    (err : GoError) : heldColumns (applyFailure cfg now st stage err true) = heldColumns st := by
  unfold applyFailure
  dsimp only
  split
  · rfl
  · split <;> rfl

/-- Only the two writers of an attempt that store its snapshot touch these columns. -/
theorem edit_columns {writer : Writer} {base st : RunnerState}
    (edit : Edit server past writer base st)
    (quiet : writer ≠ .startSnapshot ∧ writer ≠ .failStart) :
    heldColumns st = heldColumns base := by
  cases edit with
  | startSnapshot reads service => exact absurd rfl quiet.1
  | failStart unstopped known err now => exact absurd rfl quiet.2
  | failSnapshot refused err now => exact absurd rfl quiet.2
  | completeWithoutSandbox unplaced job now =>
      unfold completeWithoutSandboxState recordAssignedJob
      split <;> rfl
  | exited exits => exact exits_columns exits
  | @exitedUnregistered base st err cleanup exits cleanupErr registered =>
      rw [← exits_columns exits]
      cases err with
      | some err => rfl
      | none => rfl
  | exitedCleanupRetry exits scheduled =>
      exact (cleanupRetry_columns scheduled).trans (exits_columns exits)
  | stopStopping locked uncompleted job =>
      unfold stopStoppingState recordAssignedJob
      split <;> rfl
  | stopRetry stopping scheduled => exact stopRetry_columns scheduled
  | stopCleanupRetry ends scheduled => exact cleanupRetry_columns scheduled
  | stopFinished ends now =>
      unfold stopFinishedState
      dsimp only
      split <;> rfl
  | forceCleanupRetry ends scheduled => exact cleanupRetry_columns scheduled
  | forceFailed ends stage reason message now => simp only [heldColumns, forceFailedState]
  | forceUnregistered ends stage reason message cleanupErr now =>
      simp only [heldColumns, forceFailedState, forceUnregisteredState]
  | retryOrFail unfinished seen known err now => exact applyFailure_columns _ _ _ _ _
  | _ => rfl

end Columns

end Runnerd
