import Runnerd.Ownership

/-!
What a claim starts. `ClaimNextRunnable` leases a queued row and launches
`startRunner`, which reads the row again but turns away only completed and
stopping rows. Its creating write is the claim's own exactly as far as that
read finds the claim's lease and no one releases the lease before the write:
`ReleaseLease` leaves the version alone, so the write does not notice it.
-/

namespace Runnerd

open GoText Interaction Interleaving Versioned

def ownsLease (claimed st : RunnerState) : Bool :=
  st.leaseOwner == claimed.leaseOwner && st.leaseExpiresAt == claimed.leaseExpiresAt

/-- A creating write of `startRunner` finds its row queued and leased by the
claim that launched it. -/
def startsClaimed (server : Server) (world : RunnerWorld) (move : RunnerMove) : Bool :=
  match move with
  | .run tid _ =>
      match world.threads[tid]?, (machine server).answered world move with
      | some ⟨.startRunner claimed, _, _⟩, some ⟨.writeState .startCreating st, .ok ()⟩ =>
          world.state.table.rows.all fun row =>
            !versionMatches st row || (row.status == .queued && ownsLease claimed row.toRunnerState)
      | _, _ => true
  | _ => true

section Guard

/-- `startRunner` gives the row up or has written it. -/
def leavesStart : Answered → Bool
  | ⟨.unlockRunner _, _⟩ | ⟨.writeState _ _, _⟩ => true
  | _ => false

def hasRead (id : String) : Answered → Bool
  | ⟨.readState _, .ok base⟩ => base.id == id
  | _ => false

/-- An attempt between its read of the row and its creating write. -/
def starting (id : String) (thread : RunnerThread) : Bool :=
  match thread.task, thread.rest with
  | .startRunner _, .call _ _ => thread.past.any (hasRead id) && !thread.past.any leavesStart
  | _, _ => false

/-- A row that the attempt turns away, or the one its claim left. -/
def startable (claimed base : RunnerState) : Bool :=
  base.status == .completed || base.status == .stopping ||
    (base.status == .queued && ownsLease claimed base)

/-- An attempt reads its row as the claim left it, or completed or stopping, and
no lease is released under an attempt that has read its row. -/
def claimGuard (world : RunnerWorld) (thread : RunnerThread) : Answered → Bool
  | ⟨.readState _, .ok base⟩ =>
      match thread.task with
      | .startRunner claimed => thread.past.any leavesStart || startable claimed base
      | _ => true
  | ⟨.releaseLease id workerID, .ok ()⟩ =>
      world.state.table.rows.all fun row =>
        !leaseMatches id workerID row || !world.threads.any (starting row.id)
  | _ => true

end Guard

section Worlds
variable {server : Server} {world : RunnerWorld} {tid : Nat} {choice : Choice}
  {thread : RunnerThread} {op : Op} {resp : op.Resp} {state : ServerState}

/-- What an attempt has read stays the claim's for as long as its version stands. -/
def Leased (state : ServerState) (claimed base : RunnerState) : Prop :=
  base.status = .completed ∨ base.status = .stopping ∨
    (base.status = .queued ∧ ∀ row ∈ state.table.rows, row.id = base.id →
      row.version = base.version → ownsLease claimed row.toRunnerState = true)

def StartFact (state : ServerState) (task : Task) (past : List Answered) : Prop :=
  ∀ claimed, task = .startRunner claimed → past.any leavesStart = false →
    ∀ id base, (⟨.readState id, .ok base⟩ : Answered) ∈ past → Leased state claimed base

/-- No call but a release takes the lease from a row without a new version. -/
theorem Turn.keepsLease (turn : Turn server world tid choice thread op resp state)
    {claimed base : RunnerState} {id : String} (named : base.id = sanitizeID id)
    (remembered : Remembered world.state.table.rows base)
    (unreleased : ∀ row ∈ world.state.table.rows, row.id = base.id → ∀ lease worker,
      (⟨op, resp⟩ : Answered) = ⟨.releaseLease lease worker, .ok ()⟩ →
        leaseMatches lease worker row = false)
    (leased : Leased world.state claimed base) : Leased state claimed base := by
  refine leased.imp_right (Or.imp_right ?_)
  rintro ⟨queued, owned⟩
  refine ⟨queued, ?_⟩
  intro next there sameID sameVersion
  obtain ⟨row, here, rowID, rowVersion, rfl | ⟨lease, worker, released, matched, _⟩⟩ :=
    turn.same_version named remembered there sameID sameVersion
  · exact owned next here rowID rowVersion
  · rw [unreleased row here rowID lease worker released] at matched
    cases matched

/-- Under the guard no lease is released under a starting attempt. -/
theorem unreleased_starting
    (guard : claimGuard world thread ⟨op, resp⟩ = true) {other : Nat} {found : RunnerThread}
    (live : world.threads[other]? = some found) {base : RunnerState}
    (pending : starting base.id found = true) :
    ∀ row ∈ world.state.table.rows, row.id = base.id → ∀ lease worker,
      (⟨op, resp⟩ : Answered) = ⟨.releaseLease lease worker, .ok ()⟩ →
        leaseMatches lease worker row = false := by
  intro row here same lease worker released
  rw [released] at guard
  have started : world.threads.any (starting row.id) = true := by
    rw [List.any_eq_true, same]
    exact ⟨found, List.mem_of_getElem? live, pending⟩
  have free := List.all_eq_true.mp guard row here
  simpa [started] using free

theorem starting_of_read {claimed base : RunnerState} {id : String}
    (owner : thread.task = .startRunner claimed) (pending : ∃ op next, thread.rest = .call op next)
    (window : thread.past.any leavesStart = false)
    (reads : (⟨.readState id, .ok base⟩ : Answered) ∈ thread.past) :
    starting base.id thread = true := by
  obtain ⟨op, next, rest⟩ := pending
  have read : thread.past.any (hasRead base.id) = true :=
    List.any_eq_true.mpr ⟨_, reads, by simp [hasRead]⟩
  simp [starting, owner, rest, read, window]

/-- The attempt's own call. -/
theorem start_own (turn : Turn server world tid choice thread op resp state)
    (guard : claimGuard world thread ⟨op, resp⟩ = true)
    (pending : ∃ op next, thread.rest = .call op next)
    (known : StartFact world.state thread.task thread.past) :
    StartFact state thread.task (⟨op, resp⟩ :: thread.past) := by
  intro claimed owner window id base member
  rw [List.any_cons, Bool.or_eq_false_iff] at window
  rcases List.mem_cons.mp member with last | older
  · cases last
    obtain ⟨same, row, here, rfl, _⟩ := readState_answered turn.answer
    have fits : startable claimed row.toRunnerState = true := by
      simpa [claimGuard, owner, window.2] using guard
    simp only [startable, Bool.or_eq_true, Bool.and_eq_true, beq_iff_eq, or_assoc] at fits
    refine fits.imp_right (Or.imp_right ?_)
    rintro ⟨queued, owned⟩
    refine ⟨queued, ?_⟩
    intro other there sameID _
    rw [same] at there
    rw [world.state.table.same_row there here sameID]
    exact owned
  · exact turn.keepsLease (turn.honest_read turn.live older)
      (turn.remembers base (.inl ⟨id, older⟩))
      (unreleased_starting guard turn.live (starting_of_read owner pending window.2 older))
      (known claimed owner window.2 id base older)

theorem start_fact_reachable {table : RequestTable}
    (reaches : (machine server).Reaches
      (fun world move => watched server claimGuard world move = true) (opened table) world) :
    Machine.Informed (fun state _ _ task past => StartFact state task past) world := by
  induction reaches with
  | refl =>
      intro tid thread live
      cases live
  | step move before meets stepped ih =>
      have coherent := coherent_reachable before
      refine Machine.informed_step ih stepped ?_ ?_ ?_
      · intro state trace tid task claimed _ _ id base member
        cases member
      · intro tid choice thread op resp rest state acts moved known
        subst moved
        have turn := turn_of_acts coherent acts
        obtain ⟨answers, next, _⟩ := acts.next
        exact start_own turn (turn.watched_call meets) ⟨op, answers, next⟩ known
      · intro tid choice thread op resp rest state other found acts moved _ live pending known
          claimed owner window id base member
        subst moved
        have turn := turn_of_acts coherent acts
        exact turn.keepsLease (turn.honest_read live member)
          (coherent.remembers other found live pending base (.inl ⟨id, member⟩))
          (unreleased_starting (turn.watched_call meets) live
            (starting_of_read owner pending window member))
          (known claimed owner window id base member)

/-- The admission's past is the window between the read and the write. -/
theorem admission_window {past : List Answered} {base : RunnerState}
    (admission : Admission server past base) :
    (base.status ≠ .completed ∧ base.status ≠ .stopping) ∧ past.any leavesStart = false ∧
      ∃ id, (⟨.readState id, .ok base⟩ : Answered) ∈ past := by
  cases admission with
  | @uncapped id _ _ _ _ _ unstopped _ _ =>
      exact ⟨unstopped, rfl, id, by simp [admissionPrelude]⟩
  | @capped id _ _ _ _ _ _ unstopped _ _ =>
      exact ⟨unstopped, rfl, id, by simp [admissionPrelude]⟩

/-- A creating write edits a row its attempt has read as the claim left it. -/
theorem Turn.startsLeased {claimed base st : RunnerState}
    (turn : Turn server world tid choice thread op resp state)
    (owner : thread.task = .startRunner claimed)
    (known : StartFact world.state thread.task thread.past)
    (edit : Edit server thread.past .startCreating base st) {row : RunnerRequestRecord}
    (here : row ∈ world.state.table.rows) (matched : versionMatches st row = true)
    (same : rowCore row = core base) :
    row.status = .queued ∧ ownsLease claimed row.toRunnerState = true := by
  cases edit with
  | startCreating admission expires =>
      obtain ⟨unstopped, window, id, reads⟩ := admission_window admission
      have leased := known claimed owner window id base reads
      obtain ⟨queued, owned⟩ := (leased.resolve_left unstopped.1).resolve_left unstopped.2
      have named := turn.honest_read turn.live reads
      simp only [versionMatches, startCreatingState, Bool.and_eq_true, beq_iff_eq] at matched
      have key : row.id = base.id := by
        rw [matched.1, named, sanitizeID_idem]
      have status : row.status = base.status := congrArg Core.status same
      exact ⟨status.trans queued, owned row here key matched.2⟩

/-- Along the guarded runs `startRunner` starts only what its claim leased. -/
theorem claim_starts_queued {table : RequestTable} {move : RunnerMove}
    (reaches : (machine server).Reaches
      (fun world move => watched server claimGuard world move = true) (opened table) world) :
    startsClaimed server world move = true := by
  unfold startsClaimed
  split
  · split
    · rename_i tid choice _ _ claimed past rest st live answered
      obtain ⟨other, chosen, thread, _, state, same, acts⟩ := Machine.answered_acts answered
      cases same
      cases live.symm.trans acts.live
      have turn := turn_of_acts (coherent_reachable reaches) acts
      rw [List.all_eq_true]
      intro row here
      cases matched : versionMatches st row with
      | false => rfl
      | true =>
          have change := turn.change here (.written matched)
          cases change with
          | written matched knows edit same =>
              have known := (start_fact_reachable reaches).actor acts
              obtain ⟨queued, owned⟩ := turn.startsLeased rfl known edit here matched same
              simp [queued, owned]
    · rfl
  · rfl

end Worlds

section Samples

/-- Job 1 is admitted by goroutine 0 and claimed by goroutine 1. -/
def untilClaimed : List RunnerMove :=
  jobEvent .queued (sampleJob 1) :: turns 0 (plain 5) ++
    .start (.processQueuedRequests 1) :: turns 1 (plain 4)

/-- The attempt, goroutine 2, is about to write `creating` over its claim. -/
theorem claim_starts_queued_job :
    ∃ world after move, (machine sampleServer).Reaches
        (fun world move => watched sampleServer claimGuard world move = true)
        (opened .empty) world ∧
      (machine sampleServer).step world move = some after ∧ statusesOf world = [.queued] ∧
      statusesOf after = [.creating] ∧ startsClaimed sampleServer world move = true := by
  have ran : ((machine sampleServer).runChecked (watched sampleServer claimGuard)
      (untilClaimed ++ turns 2 (plain 7)) (opened .empty)).any (fun world =>
        decide (statusesOf world = [.queued]) &&
        ((machine sampleServer).step world (.run 2 {})).any fun after =>
          decide (statusesOf after = [.creating])) = true := by decide +kernel
  obtain ⟨world, reaches, found⟩ := Machine.reaches_any ran
  simp only [Bool.and_eq_true, decide_eq_true_eq, Option.any_eq_true] at found
  obtain ⟨queued, after, stepped, creating⟩ := found
  exact ⟨world, after, _, reaches, stepped, queued, creating, claim_starts_queued reaches⟩

/-- Between the claim and the attempt's read the request is deleted, and fails
because GitHub refuses to remove its runner. -/
def untilStaleStart : List RunnerMove :=
  untilClaimed ++ .start (.deleteRunner "1") ::
    turns 3 (plain 3 ++
      { removed := some { message := "github remove runner: status 403" } } :: plain 3) ++
    turns 2 (plain 7)

/-- The attempt then restarts the failed request. -/
theorem claim_restarts_failed :
    ¬∀ (server : Server) (world : RunnerWorld) (move : RunnerMove),
      (machine server).Reaches (fun _ _ => True) (opened .empty) world →
      startsClaimed server world move = true := by
  intro always
  have ran : ((machine sampleServer).runChecked (fun _ _ => true) untilStaleStart
      (opened .empty)).any (fun world => decide (statusesOf world = [.failed]) &&
        !startsClaimed sampleServer world (.run 2 {})) = true := by decide +kernel
  obtain ⟨world, reaches, found⟩ := Machine.reaches_any ran
  simp only [Bool.and_eq_true, Bool.not_eq_true'] at found
  have starts := always sampleServer world (.run 2 {}) (reaches.weaken fun _ _ _ => True.intro)
  rw [found.2] at starts
  cases starts

end Samples

end Runnerd
