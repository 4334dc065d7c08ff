import Runnerd.Ownership

/-!
What a lease is worth. `ClaimNextRunnable` takes the oldest row that is queued,
due and not leased, and leases it. Four operations write the lease columns of a
row; while none of them changes the lease, the next claim of the row waits for
its end.
-/

namespace Runnerd

open GoText Interaction Interleaving

section Queue

theorem firstQueued_none {rows : List RunnerRequestRecord} (none : firstQueued rows = none) :
    rows = [] := by
  cases rows with
  | nil => rfl
  | cons head rest =>
      simp only [firstQueued] at none
      split at none
      · cases none
      · split at none
        · cases none
        · cases none

/-- `firstQueued` gives the row that was queued first. -/
theorem firstQueued_oldest {rows : List RunnerRequestRecord} {row : RunnerRequestRecord}
    (first : firstQueued rows = some row) : ∀ other ∈ rows, row.createdAt ≤ other.createdAt := by
  induction rows generalizing row with
  | nil => cases first
  | cons head rest ih =>
      intro other member
      simp only [firstQueued] at first
      split at first
      · rename_i none
        cases first
        obtain rfl := firstQueued_none none
        cases List.mem_singleton.mp member
        exact le_rfl
      · rename_i best found
        split at first
        · rename_i before
          cases first
          rcases List.mem_cons.mp member with rfl | older
          · simp only [queuedBefore, Bool.or_eq_true, Bool.and_eq_true, decide_eq_true_eq,
              beq_iff_eq] at before
            rcases before with earlier | ⟨same, _⟩
            · exact le_of_lt earlier
            · exact le_of_eq same
          · exact ih found other older
        · rename_i before
          cases first
          rcases List.mem_cons.mp member with rfl | older
          · exact le_rfl
          · have least := ih found other older
            simp only [queuedBefore, Bool.or_eq_true, not_or, decide_eq_true_eq] at before
            exact le_trans (not_lt.mp before.1) least

/-- The row that a claim at this time must take. -/
structure NextInQueue (rows : List RunnerRequestRecord) (at_ : Time) (row : RunnerRequestRecord) :
    Prop where
  stored : row ∈ rows
  queued : row.status = .queued
  due : ∀ next, row.nextRetryAt = some next → next ≤ at_
  unleased : ∀ expires, row.leaseExpiresAt = some expires → expires ≤ at_
  oldest : ∀ other ∈ rows, claimable at_ other = true → row.createdAt ≤ other.createdAt

theorem claimNextRunnable_takes {table after : RequestTable} {workerID : String} {at_ : Time}
    {leaseTTL : Duration} {req : RunnerRequest} {st : RunnerState}
    (ran : claimNextRunnable table workerID at_ leaseTTL = (.ok (some (req, st)), after)) :
    ∃ row, NextInQueue table.rows at_ row ∧ row.id = st.id ∧
      claimUpdates (trimSpace workerID) at_ leaseTTL row ∈ after.rows := by
  unfold claimNextRunnable at ran
  dsimp only at ran
  split at ran
  · cases ran
  · split at ran
    · cases ran
    · rename_i row first
      cases ran
      have member := firstQueued_mem first
      rw [List.mem_filter] at member
      obtain ⟨stored, free⟩ := member
      simp only [claimable, Bool.and_eq_true, beq_iff_eq, Option.all_eq_true, decide_eq_true_eq] at free
      refine ⟨row, ⟨stored, free.1.1, free.1.2, free.2, ?_⟩, rfl, ?_⟩
      · intro other present eligible
        exact firstQueued_oldest first other (List.mem_filter.mpr ⟨present, eligible⟩)
      · simp only [RequestTable.update, List.mem_map]
        exact ⟨row, stored, by simp⟩

end Queue

section Leases

/-- An operation that clears the lease of the request or writes another one. -/
def rewritesLease (id : String) (world : RunnerWorld) : Answered → Bool
  | ⟨.writeState _ st, .ok ()⟩ =>
      world.state.table.rows.any fun row => row.id == id && versionMatches st row &&
        (st.leaseOwner != row.leaseOwner || st.leaseExpiresAt != row.leaseExpiresAt)
  | ⟨.claimNextRunnable _ _ _, .ok (some (_, st))⟩ => st.id == id
  | ⟨.releaseLease other workerID, .ok ()⟩ =>
      world.state.table.rows.any fun row => row.id == id && leaseMatches other workerID row
  | ⟨.retryRequest other _, .ok _⟩ => sanitizeID other == id
  | _ => false

/-- The lease of the request stays. -/
def keepsLease (id : String) (world : RunnerWorld) (call : Answered) : Bool :=
  !rewritesLease id world call

variable {server : Server} {world : RunnerWorld} {id : String}

theorem rowStep_keepsLease {now : Time} {call : Answered} {row next : RunnerRequestRecord}
    (step : RowStep now call row next) (here : row ∈ world.state.table.rows) (named : row.id = id)
    (keeps : keepsLease id world call = true) : next.leaseExpiresAt = row.leaseExpiresAt := by
  simp only [keepsLease, Bool.not_eq_true'] at keeps
  cases step with
  | written matched =>
      simp only [rewritesLease, List.any_eq_false] at keeps
      have same := keeps row here
      simp only [named, matched, beq_self_eq_true, Bool.true_and, Bool.or_eq_true, bne_iff_ne, not_or,
        not_not] at same
      exact same.2
  | claimed free => simp [rewritesLease, recordToState, claimUpdates, named] at keeps
  | released matched =>
      simp only [rewritesLease, List.any_eq_false] at keeps
      exact absurd (keeps row here) (by simp [named, matched])
  | retried allowed sanitized => simp [rewritesLease, ← sanitized, named] at keeps

theorem lease_kept {tid : Nat} {choice : Choice} {op : Op} {resp : op.Resp} {state : ServerState}
    (answer : respond server tid choice world.state op = some (resp, state))
    (keeps : keepsLease id world ⟨op, resp⟩ = true) {row : RunnerRequestRecord}
    (here : row ∈ world.state.table.rows) (named : row.id = id) :
    ∃ next ∈ state.table.rows, next.id = id ∧ next.leaseExpiresAt = row.leaseExpiresAt := by
  rcases rows_answered answer with ⟨edit, rows, steps⟩ | ⟨fresh, _, rows⟩
  · have there : edit row ∈ state.table.rows := by
      rw [rows]
      exact List.mem_map_of_mem here
    rcases steps row here with same | step
    · exact ⟨edit row, there, by rw [same, named], by rw [same]⟩
    · exact ⟨edit row, there, step.sameID.trans named,
        rowStep_keepsLease step here named keeps⟩
  · have there : row ∈ state.table.rows := by
      rw [rows]
      exact List.mem_append_left _ here
    exact ⟨row, there, named, rfl⟩

/-- A lease stands along every run that keeps it. -/
theorem lease_stands {first : RunnerWorld} {expires : Option Time}
    (leased : ∃ row ∈ first.state.table.rows, row.id = id ∧ row.leaseExpiresAt = expires)
    (reaches : (machine server).Reaches
      (fun world move => guarded server (keepsLease id) world move = true) first world) :
    ∃ row ∈ world.state.table.rows, row.id = id ∧ row.leaseExpiresAt = expires := by
  induction reaches with
  | refl => exact leased
  | step move _ keeps stepped ih =>
      obtain ⟨row, here, named, until_⟩ := ih
      obtain ⟨tid, choice, thread, op, resp, rest, state, rfl, acts, rfl⟩ | ⟨task, rfl, _, rfl⟩ |
        ⟨rfl, rfl⟩ := (machine server).step_cases stepped
      · rw [guarded, acts.answered_eq] at keeps
        obtain ⟨next, there, same, kept⟩ := lease_kept acts.answer keeps here named
        exact ⟨next, there, same, kept.trans until_⟩
      · exact ⟨row, here, named, until_⟩
      · exact ⟨row, here, named, until_⟩

end Leases

section Claims

/-- The request that a call claims, when, and for how long. -/
def claimOf : Answered → Option (String × Time × Duration)
  | ⟨.claimNextRunnable _ at_ leaseTTL, .ok (some (_, st))⟩ => some (st.id, at_, leaseTTL)
  | _ => none

/-- A move that claims the request. -/
structure ClaimedAt (server : Server) (world : RunnerWorld) (move : RunnerMove)
    (after : RunnerWorld) (id : String) (at_ : Time) (leaseTTL : Duration) : Prop where
  stepped : (machine server).step world move = some after
  answered : ((machine server).answered world move).bind claimOf = some (id, at_, leaseTTL)

variable {server : Server} {world after : RunnerWorld} {move : RunnerMove} {id : String}
  {at_ : Time} {leaseTTL : Duration}

theorem claimOf_call {op : Op} {resp : op.Resp}
    (claims : claimOf ⟨op, resp⟩ = some (id, at_, leaseTTL)) :
    ∃ workerID req st, (⟨op, resp⟩ : Answered) =
      ⟨.claimNextRunnable workerID at_ leaseTTL, .ok (some (req, st))⟩ ∧ st.id = id := by
  unfold claimOf at claims
  split at claims
  · rename_i workerID _ _ req st same
    cases claims
    exact ⟨workerID, req, st, same, rfl⟩
  · cases claims

theorem ClaimedAt.takes (claimed : ClaimedAt server world move after id at_ leaseTTL) :
    ∃ row, NextInQueue world.state.table.rows at_ row ∧ row.id = id ∧
      ∃ next ∈ after.state.table.rows, next.id = id ∧
        next.leaseExpiresAt = some (at_ + leaseTTL) := by
  have answered := claimed.answered
  obtain ⟨tid, choice, thread, op, resp, rest, state, rfl, acts, same⟩ | ⟨task, rfl, _, _⟩ |
    ⟨rfl, _⟩ := (machine server).step_cases claimed.stepped
  · subst same
    rw [acts.answered_eq, Option.bind_some] at answered
    obtain ⟨workerID, req, st, call, rfl⟩ := claimOf_call answered
    cases call
    have answer : respond server tid choice world.state
      (.claimNextRunnable workerID at_ leaseTTL) = some (.ok (some (req, st)), state) := acts.answer
    simp only [respond] at answer
    rcases stored_cases answer with ⟨err, failed, _⟩ | ⟨table, ran, rfl⟩
    · cases failed
    · obtain ⟨row, next, named, there⟩ := claimNextRunnable_takes ran
      exact ⟨row, next, named, _, there, named, rfl⟩
  · cases answered
  · cases answered

/-- A claim takes the oldest row that is queued, due and not leased, and no
other claim takes that row before the lease ends, in any run that keeps the
lease. -/
theorem claims_exclusive_fair (claimed : ClaimedAt server world move after id at_ leaseTTL) :
    (∃ row, NextInQueue world.state.table.rows at_ row ∧ row.id = id) ∧
      ∀ later again final at_again ttl, (machine server).Reaches
          (fun world move => guarded server (keepsLease id) world move = true) after later →
        ClaimedAt server later again final id at_again ttl → at_ + leaseTTL ≤ at_again := by
  obtain ⟨row, next, named, leased⟩ := claimed.takes
  refine ⟨⟨row, next, named⟩, ?_⟩
  intro later again final at_again ttl between reclaimed
  obtain ⟨held, here, same, until_⟩ := lease_stands leased between
  obtain ⟨found, free, found_named, _⟩ := reclaimed.takes
  obtain rfl : found = held :=
    later.state.table.same_row free.stored here (found_named.trans same.symm)
  exact free.unleased _ until_

/-- Job 1 is admitted; goroutine 1 is about to claim it. -/
def untilClaim : List RunnerMove :=
  jobEvent .queued (sampleJob 1) :: turns 0 (plain 5) ++
    .start (.processQueuedRequests 1) :: turns 1 (plain 2)

/-- Goroutine 2 is about to claim the request after the lease has ended. -/
def untilReclaim : List RunnerMove :=
  .start (.processQueuedRequests 1) :: turns 2 [{}, { now := 61 * second }]

theorem claims_exclusive_fair_expired :
    ∃ world after later final, ClaimedAt sampleServer world (.run 1 {}) after "1" 0 (60 * second) ∧
      (machine sampleServer).Reaches
        (fun world move => guarded sampleServer (keepsLease "1") world move = true) after later ∧
      ClaimedAt sampleServer later (.run 2 {}) final "1" (61 * second) (60 * second) ∧
      (∃ row, NextInQueue world.state.table.rows 0 row ∧ row.id = "1") ∧
      0 + 60 * second ≤ 61 * second := by
  have ran : ((machine sampleServer).runChecked (fun _ _ => true) untilClaim (opened .empty)).any
      (fun world => decide (((machine sampleServer).answered world (.run 1 {})).bind claimOf =
          some ("1", 0, 60 * second)) &&
        ((machine sampleServer).step world (.run 1 {})).any fun after =>
          ((machine sampleServer).runChecked (guarded sampleServer (keepsLease "1")) untilReclaim
            after).any fun later =>
          decide (((machine sampleServer).answered later (.run 2 {})).bind claimOf =
            some ("1", 61 * second, 60 * second)) &&
          ((machine sampleServer).step later (.run 2 {})).any fun _ => true) = true := by
    decide +kernel
  obtain ⟨world, _, found⟩ := Machine.reaches_any ran
  simp only [Bool.and_eq_true, decide_eq_true_eq, Option.any_eq_true] at found
  obtain ⟨claims, after, stepped, later, between, reclaims, final, restepped, _⟩ := found
  have claimed : ClaimedAt sampleServer world (.run 1 {}) after "1" 0 (60 * second) :=
    ⟨stepped, claims⟩
  have reaches := Machine.reaches_checked .refl between
  have reclaimed : ClaimedAt sampleServer later (.run 2 {}) final "1" (61 * second) (60 * second) :=
    ⟨restepped, reclaims⟩
  obtain ⟨fair, exclusive⟩ := claims_exclusive_fair claimed
  exact ⟨world, after, later, final, claimed, reaches, reclaimed, fair,
    exclusive later _ final _ _ reaches reclaimed⟩

end Claims

end Runnerd
