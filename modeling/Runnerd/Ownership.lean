import Runnerd.Changes

/-!
A sandbox that a row names is not forgotten before it is stopped. The invariant
is about custody: a request that waits names no sandbox, and one that is
completed, or failed in a way the reconciler completes, names a sandbox that
was stopped. It holds along the runs whose writes find the row in the phase
they were meant for; outside them the server does forget sandboxes.
-/

namespace Runnerd

open GoText Interaction Interleaving Versioned

def confirmedIn (trace : List RunnerEvent) (sandboxID : String) : Bool :=
  trace.any fun event => stopConfirmed sandboxID event.call

def endedIn (trace : List RunnerEvent) (sandboxID : String) : Bool :=
  sandboxID == "" || confirmedIn trace sandboxID

/-- A step that clears or replaces the sandbox a row names although `StopRunner`
for it has returned neither success nor a gone error. -/
def ForgetsSandbox (world after : RunnerWorld) : Prop :=
  ∃ row ∈ world.state.table.rows, ∃ next ∈ after.state.table.rows, next.id = row.id ∧
    row.sandboxID ≠ "" ∧ next.sandboxID ≠ row.sandboxID ∧
    confirmedIn world.trace row.sandboxID = false

instance (world after : RunnerWorld) : Decidable (ForgetsSandbox world after) :=
  inferInstanceAs (Decidable (∃ row ∈ world.state.table.rows,
    ∃ next ∈ after.state.table.rows, next.id = row.id ∧ row.sandboxID ≠ "" ∧
      next.sandboxID ≠ row.sandboxID ∧ confirmedIn world.trace row.sandboxID = false))

section Abstract

structure Custody.Kept (ended : String → Prop) (c : Custody) : Prop where
  waiting : c.status = .queued ∨ c.status = .creating → c.sandbox = ""
  completed : c.status = .completed → ended c.sandbox
  failed : c.status = .failed → c.settled = true → ended c.sandbox
  unsettled : c.status = .queued ∨ c.status = .creating ∨ c.status = .running → c.settled = false

namespace Custody
variable {ended : String → Prop} {c : Custody}

theorem kept_waiting (waits : c.status = .queued ∨ c.status = .creating) (unnamed : c.sandbox = "")
    (unsettled : c.settled = false) : c.Kept ended := by
  refine ⟨fun _ => unnamed, ?_, ?_, fun _ => unsettled⟩ <;>
    rcases waits with same | same <;> simp [same]

theorem kept_running (running : c.status = .running) (unsettled : c.settled = false) :
    c.Kept ended := by
  refine ⟨?_, ?_, ?_, fun _ => unsettled⟩ <;> simp [running]

theorem kept_stopping (stopping : c.status = .stopping) : c.Kept ended := by
  constructor <;> simp [stopping]

theorem kept_completed (completed : c.status = .completed) (gone : ended c.sandbox) :
    c.Kept ended := by
  refine ⟨?_, fun _ => gone, ?_, ?_⟩ <;> simp [completed]

theorem kept_failed (failed : c.status = .failed) (gone : c.settled = true → ended c.sandbox) :
    c.Kept ended := by
  refine ⟨?_, ?_, fun _ => gone, ?_⟩ <;> simp [failed]

end Custody

/-- The phases in which a write does not lose a sandbox. -/
def Custody.Orderly (ended : String → Prop) (before after : Custody) : Writer → Prop
  | .startCreating => before.status = .queued
  | .failStart | .retryOrFail | .completeWithoutSandbox =>
      before.sandbox = "" ∨ before.status = .queued ∨ before.status = .creating
  | .recoverReconnected => before.sandbox = "" ∨ after.sandbox = before.sandbox
  | .exited => after.status = .failed → after.settled = true → ended before.sandbox
  | _ => True

/-- A step of the life cycle in its phase keeps the custody, and gives up only a
sandbox that has ended. -/
theorem custody_kept {released ended : String → Prop} (none : ended "")
    (implies : ∀ sandbox, released sandbox → ended sandbox) {writer : Writer} {c d : Custody}
    (step : Custody.Step released writer c d) (orderly : Custody.Orderly ended c d writer)
    (kept : c.Kept ended) : d.Kept ended ∧ (d.sandbox = c.sandbox ∨ ended c.sandbox) := by
  have empty (sandbox : String) (same : sandbox = "") : ended sandbox := same ▸ none
  cases step with
  | kept passive => exact ⟨kept, .inl rfl⟩
  | admitted unstopped =>
      have queued : c.status = .queued := orderly
      refine ⟨Custody.kept_waiting (.inr rfl) (kept.waiting (.inl queued)) ?_, .inl rfl⟩
      exact kept.unsettled (.inl queued)
  | placed creating sandbox =>
      refine ⟨Custody.kept_running rfl (kept.unsettled (.inr (.inl creating))), .inr ?_⟩
      exact empty _ (kept.waiting (.inr creating))
  | stayed occupied =>
      refine ⟨Custody.kept_running rfl (kept.unsettled ?_), .inl rfl⟩
      simpa [Runnerd.occupied] using Or.inr occupied
  | reattached occupied sandbox =>
      exact ⟨Custody.kept_running rfl rfl, Or.symm (Or.imp_left (empty _) orderly)⟩
  | dropped drops _ waits =>
      have phase : c.sandbox = "" ∨ c.status = .queued ∨ c.status = .creating := by
        rcases drops with rfl | rfl <;> exact orderly
      have unnamed : c.sandbox = "" := phase.elim id kept.waiting
      refine ⟨?_, .inr (empty _ unnamed)⟩
      rcases waits with rfl | rfl
      · exact Custody.kept_waiting (.inl rfl) rfl rfl
      · exact Custody.kept_failed rfl (fun _ => none)
  | unplaced unplaced =>
      have unnamed : c.sandbox = "" := Or.elim orderly id kept.waiting
      exact ⟨Custody.kept_completed rfl (empty _ unnamed), .inl rfl⟩
  | interrupted creating =>
      exact ⟨Custody.kept_waiting (.inl rfl) rfl rfl, .inr (empty _ (kept.waiting (.inr creating)))⟩
  | marked uncompleted => exact ⟨Custody.kept_stopping rfl, .inl rfl⟩
  | forced unfinished settled => exact ⟨Custody.kept_stopping rfl, .inl rfl⟩
  | rescheduled stopping => exact ⟨Custody.kept_stopping rfl, .inl rfl⟩
  | abandoned abandons stopping => exact ⟨Custody.kept_failed rfl (by simp), .inl rfl⟩
  | ended ends stopping free finished settled =>
      have gone := implies _ free
      rcases finished with rfl | rfl | rfl
      · exact ⟨Custody.kept_stopping rfl, .inl rfl⟩
      · exact ⟨Custody.kept_completed rfl gone, .inl rfl⟩
      · exact ⟨Custody.kept_failed rfl (fun _ => gone), .inl rfl⟩
  | requeued finished =>
      refine ⟨Custody.kept_waiting (.inl rfl) rfl rfl, .inr ?_⟩
      rcases finished with completed | ⟨-, free⟩
      · exact kept.completed completed
      · exact implies _ free
  | exitRescheduled occupied settled => exact ⟨Custody.kept_stopping rfl, .inl rfl⟩
  | exitCompleted occupied free => exact ⟨Custody.kept_completed rfl (implies _ free), .inl rfl⟩
  | exitFailed occupied settled => exact ⟨Custody.kept_failed rfl (orderly rfl), .inl rfl⟩
  | reconciled failed settled =>
      exact ⟨Custody.kept_completed rfl (kept.failed failed settled), .inl rfl⟩

end Abstract

section Guard

/-- What a write must find so that no sandbox is lost. -/
def writesInPhase (trace : List RunnerEvent) (st : RunnerState) (row : RunnerRequestRecord) :
    Writer → Bool
  | .startCreating => row.status == .queued
  | .failStart | .retryOrFail | .completeWithoutSandbox =>
      row.sandboxID == "" || row.status == .queued || row.status == .creating
  | .recoverReconnected => trimSpace row.sandboxID == row.sandboxID
  | .exited =>
      !(st.status == .failed && settledStage st.failureStage) || endedIn trace row.sandboxID
  | _ => true

/-- The automatic steps: every call but the admin's retry. -/
def automatic (_ : RunnerWorld) : Answered → Bool
  | ⟨.retryRequest _ _, _⟩ => false
  | _ => true

/-- No admin retry, no failed lookup that reads like a gone sandbox, and every
write in its phase. -/
def ownershipGuard (world : RunnerWorld) : Answered → Bool
  | ⟨.retryRequest _ _, _⟩ => false
  | ⟨.writeState writer st, .ok ()⟩ =>
      world.state.table.rows.all fun row =>
        !versionMatches st row || writesInPhase world.trace st row writer
  | call => !lookupTakenForGone call

end Guard

section Worlds
variable {server : Server} {world : RunnerWorld} {tid : Nat} {choice : Choice}
  {thread : RunnerThread} {op : Op} {resp : op.Resp} {state : ServerState}

theorem endedIn_grows (event : RunnerEvent) (trace : List RunnerEvent) (sandboxID : String)
    (ended : endedIn trace sandboxID = true) : endedIn (event :: trace) sandboxID = true := by
  simp only [endedIn, confirmedIn, List.any_cons, Bool.or_eq_true] at ended ⊢
  exact ended.imp_right .inr

/-- What a goroutine holds to be released has ended, unless some lookup was
taken for a gone sandbox. -/
theorem Turn.ended (turn : Turn server world tid choice thread op resp state)
    (clean : ∀ event ∈ world.trace, lookupTakenForGone event.call = false) {sandboxID : String}
    (released : Released thread.past sandboxID) : endedIn world.trace sandboxID = true := by
  simp only [endedIn, confirmedIn, Bool.or_eq_true, beq_iff_eq, List.any_eq_true]
  rcases released with empty | ⟨call, member, stopped⟩ | ⟨call, member, mistaken⟩
  · exact .inl empty
  · obtain ⟨event, recorded, rfl⟩ := turn.recorded member
    exact .inr ⟨event, recorded, stopped⟩
  · obtain ⟨event, recorded, rfl⟩ := turn.recorded member
    simp [clean event recorded] at mistaken

/-- A reconnected runner is in the sandbox the row names. -/
theorem Turn.reconnected (turn : Turn server world tid choice thread op resp state)
    {row : RunnerRequestRecord} (member : row ∈ world.state.table.rows) {base st : RunnerState}
    {result : StartResult} (recovers : Recovers thread.past base result)
    (matched : versionMatches st row = true) (same : SameRequest base st)
    (trimmed : trimSpace row.sandboxID = row.sandboxID) :
    row.sandboxID = "" ∨ result.sandboxID = row.sandboxID := by
  obtain ⟨first, service, pid, timeout, ⟨id, read⟩, version, reread, recovered⟩ := recovers.attached
  obtain ⟨readEvent, recorded, readCall⟩ := turn.recorded read
  obtain ⟨rereadEvent, rerecorded, rereadCall⟩ := turn.recorded reread
  obtain ⟨recoverEvent, known, recoverCall⟩ := turn.recorded recovered
  have firstID : first.id = sanitizeID id := by
    have honest := turn.coherent.honest readEvent recorded
    rw [readCall] at honest
    exact honest
  have baseID : base.id = sanitizeID first.id := by
    have honest := turn.coherent.honest rereadEvent rerecorded
    rw [rereadCall] at honest
    exact honest
  have attached : trimSpace first.sandboxID ≠ "" → result.sandboxID = trimSpace first.sandboxID := by
    have honest := turn.coherent.honest recoverEvent known
    rw [recoverCall] at honest
    exact honest
  simp only [versionMatches, Bool.and_eq_true, beq_iff_eq] at matched
  have key : sanitizeID first.id = rowID row := by
    rw [rowID, matched.1, same.id, baseID, sanitizeID_idem]
  have seen := turn.remembers first (.inl ⟨id, read⟩)
  rw [Remembered, key] at seen
  have current := seen_current world.state.table.primaryKey seen member
    (matched.2.trans (same.version.trans version))
  have sandbox : row.sandboxID = first.sandboxID := congrArg Core.sandboxID current
  rw [← sandbox, trimmed] at attached
  by_cases empty : row.sandboxID = ""
  · exact .inl empty
  · exact .inr (attached empty)

/-- Under the guard a change keeps the custody of its row, and gives up only a
sandbox that was stopped. -/
theorem Turn.keepsCustody (turn : Turn server world tid choice thread op resp state)
    (clean : ∀ event ∈ world.trace, lookupTakenForGone event.call = false)
    (guard : ownershipGuard world ⟨op, resp⟩ = true) {row next : RunnerRequestRecord}
    (member : row ∈ world.state.table.rows)
    (kept : (rowCore row).custody.Kept fun sandbox => endedIn world.trace sandbox = true)
    (change : Change server thread.past choice.now ⟨op, resp⟩ row next) :
    ((rowCore next).custody.Kept fun sandbox => endedIn world.trace sandbox = true) ∧
      (next.sandboxID = row.sandboxID ∨ endedIn world.trace row.sandboxID = true) := by
  cases change with
  | @written writer st base row matched knows edit same =>
      obtain ⟨request, step⟩ := edit_custody edit
      have phase : writesInPhase world.trace st row writer = true := by
        simp only [ownershipGuard, List.all_eq_true] at guard
        simpa [matched] using guard row member
      have before : (rowCore row).custody = custody base := congrArg Core.custody same
      rw [before] at kept
      have after : (rowCore (stateUpdates st choice.now row)).custody = custody st := rfl
      rw [after]
      have status : row.status = (custody base).status := congrArg Custody.status before
      have sandbox : row.sandboxID = (custody base).sandbox := congrArg Custody.sandbox before
      have given : (stateUpdates st choice.now row).sandboxID = (custody st).sandbox := rfl
      rw [sandbox, given]
      have waiting (found : row.sandboxID = "" ∨ row.status = .queued ∨ row.status = .creating) :
          (custody base).sandbox = "" ∨ (custody base).status = .queued ∨
            (custody base).status = .creating := by
        rwa [sandbox, status] at found
      refine custody_kept (by rfl) (fun _ released => turn.ended clean released) step ?_ kept
      cases writer with
      | startCreating =>
          have queued : row.status = .queued := by simpa [writesInPhase] using phase
          exact status.symm.trans queued
      | completeWithoutSandbox => exact waiting (by simpa [writesInPhase, or_assoc] using phase)
      | failStart => exact waiting (by simpa [writesInPhase, or_assoc] using phase)
      | retryOrFail => exact waiting (by simpa [writesInPhase, or_assoc] using phase)
      | exited =>
          intro failed settled
          rw [← sandbox]
          have ended : ¬(st.status = .failed ∧ settledStage st.failureStage = true) ∨
              endedIn world.trace row.sandboxID = true := by
            simpa [writesInPhase, Classical.or_iff_not_imp_left] using phase
          exact ended.resolve_left fun still => still ⟨failed, settled⟩
      | recoverReconnected =>
          cases edit with
          | recoverReconnected recovers =>
              have trimmed : trimSpace row.sandboxID = row.sandboxID := by
                simpa [writesInPhase] using phase
              have attached := turn.reconnected member recovers matched request trimmed
              rw [sandbox] at attached
              exact attached
      | _ => exact True.intro
  | claimed free => exact ⟨kept, .inl rfl⟩
  | released matched => exact ⟨kept, .inl rfl⟩
  | retried allowed named => cases guard

variable {after : RunnerWorld} {move : RunnerMove}

theorem guard_clean
    (reaches : (machine server).Reaches
      (fun world move => guarded server ownershipGuard world move = true) (opened .empty) world) :
    ∀ event ∈ world.trace, lookupTakenForGone event.call = false := by
  refine Machine.trace_reachable (fun call => lookupTakenForGone call = false) ?_ ?_ reaches
  · intro event member
    cases member
  intro world move call guard answered
  simp only [guarded, answered, Option.all_some] at guard
  unfold ownershipGuard at guard
  split at guard
  · cases guard
  · rfl
  · simpa using guard

/-- In every world that the guarded runs reach, every row is kept. -/
theorem custody_reachable
    (reaches : (machine server).Reaches
      (fun world move => guarded server ownershipGuard world move = true) (opened .empty) world) :
    ∀ row ∈ world.state.table.rows,
      (rowCore row).custody.Kept fun sandbox => endedIn world.trace sandbox = true := by
  refine rows_invariant (fun trace row =>
    (rowCore row).custody.Kept fun sandbox => endedIn trace sandbox = true) ?_ ?_ ?_ ?_ reaches
  · intro event trace row kept
    exact ⟨kept.waiting, fun completed => endedIn_grows _ _ _ (kept.completed completed),
      fun failed settled => endedIn_grows _ _ _ (kept.failed failed settled), kept.unsettled⟩
  · intro row member
    cases member
  · intro world tid choice thread op resp state row _ turn _ added
    cases added with
    | created =>
        rcases turn.permits with ⟨rfl, rfl, _⟩ | ⟨rfl, rfl⟩
        · exact ⟨fun _ => rfl, nofun, nofun, fun _ => rfl⟩
        · exact ⟨nofun, nofun, fun _ _ => rfl, nofun⟩
  · intro world tid choice thread op resp state row next before turn guard member kept change
    rw [guarded, turn.answered] at guard
    exact (turn.keepsCustody (guard_clean before) guard member kept change).1

/-- Along the guarded runs no step forgets a sandbox. -/
theorem sandbox_never_forgotten
    (reaches : (machine server).Reaches
      (fun world move => guarded server ownershipGuard world move = true) (opened .empty) world)
    (guard : guarded server ownershipGuard world move = true)
    (stepped : (machine server).step world move = some after) : ¬ForgetsSandbox world after := by
  rintro ⟨row, here, next, there, same, named, changed, unconfirmed⟩
  have given_up : next = row ∨ next.sandboxID = row.sandboxID ∨
      endedIn world.trace row.sandboxID = true := by
    obtain ⟨tid, choice, thread, op, resp, rest, state, rfl, acts, rfl⟩ | ⟨task, rfl, _, rfl⟩ |
      ⟨rfl, rfl⟩ := (machine server).step_cases stepped
    · have turn := turn_of_acts (coherent_reachable reaches) acts
      rw [guarded, turn.answered] at guard
      refine (turn.next here there same).imp_right fun change => ?_
      exact (turn.keepsCustody (guard_clean reaches) guard here
        (custody_reachable reaches row here) change).2
    · exact .inl (world.state.table.same_row there here same)
    · exact .inl (world.state.table.same_row there here same)
  rcases given_up with rfl | kept | ended
  · exact changed rfl
  · exact changed kept
  · simp [endedIn, named, unconfirmed] at ended

end Worlds

section Samples

def sampleConfig : Config where
  maxConcurrentRunners := 2
  retryMaxAttempts := 3
  retryBaseDelay := second
  retryMaxDelay := 60 * second
  sandboxCreateTimeout := 60 * second
  sandboxStopTimeout := 60 * second
  sandboxTimeout := 3600 * second
  runnerIdleTimeout := 600 * second
  workerLeaseTTL := 60 * second

def sampleServer : Server where
  cfg := sampleConfig
  catalog :=
    { profiles := [{ name := "linux", labels := ["linux"] }]
      named := by decide
      distinct := by decide }
  workerID := "worker"
  repositoryAllowed := fun _ => true
  injectedSandbox := some true

/-- The same server without an injected service. -/
def scopedServer : Server := { sampleServer with injectedSandbox := none }

def sandboxesOf (world : RunnerWorld) : List String :=
  world.state.table.rows.map fun row => row.sandboxID

def statusesOf (world : RunnerWorld) : List Status :=
  world.state.table.rows.map fun row => row.status

def turns (tid : Nat) (choices : List Choice) : List RunnerMove := choices.map (.run tid)

def plain (count : Nat) : List Choice := List.replicate count {}

def sampleJob (id : Int) : WorkflowJob :=
  { id := id, status := "queued", labels := ["linux"], runnerName := "e2b-1" }

def jobEvent (action : WorkflowJobAction) (job : WorkflowJob) : RunnerMove :=
  .start (.workflowJob { action := action, workflowJob := job, repository := "owner/repo" })

def startedAs (sandboxID : String) : Choice :=
  { started := .ok { sandboxID := sandboxID, pid := 7 } }

/-- Job 1 is admitted by goroutine 0 and claimed by goroutine 1; its attempt,
goroutine 2, has written `creating` and waits for `StartRunner`. -/
def untilStart : List RunnerMove :=
  jobEvent .queued (sampleJob 1) :: turns 0 (plain 5) ++
    .start (.processQueuedRequests 1) :: turns 1 (plain 4) ++
    turns 2 (plain 10 ++ { job := .ok (sampleJob 1) } :: plain 3)

/-- The attempt gets its sandbox, which goroutine 3 watches, and writes
`running`. -/
def untilRunning : List RunnerMove := untilStart ++ turns 2 (startedAs "sbx" :: plain 4)

/-- The runner completes job 2 and is stopped; goroutine 4 is about to requeue
job 1. -/
def untilRequeue : List RunnerMove :=
  untilRunning ++ jobEvent .completed (sampleJob 2) ::
    turns 4 (plain 7 ++ [{ job := .ok (sampleJob 1) }])

/-- The requeue clears the sandbox, which was stopped before. -/
theorem sandbox_never_forgotten_requeue :
    ∃ world after move, (machine sampleServer).Reaches
        (fun world move => guarded sampleServer ownershipGuard world move = true)
        (opened .empty) world ∧
      (machine sampleServer).step world move = some after ∧
      sandboxesOf world = ["sbx"] ∧ sandboxesOf after = [""] ∧ ¬ForgetsSandbox world after := by
  have ran : ((machine sampleServer).runChecked (guarded sampleServer ownershipGuard) untilRequeue
      (opened .empty)).any (fun world => guarded sampleServer ownershipGuard world (.run 4 {}) &&
        decide (sandboxesOf world = ["sbx"]) &&
        ((machine sampleServer).step world (.run 4 {})).any fun after =>
          decide (sandboxesOf after = [""])) = true := by decide +kernel
  obtain ⟨world, reaches, found⟩ := Machine.reaches_any ran
  simp only [Bool.and_eq_true, decide_eq_true_eq, Option.any_eq_true] at found
  obtain ⟨⟨guard, named⟩, after, stepped, cleared⟩ := found
  exact ⟨world, after, _, reaches, stepped, named, cleared,
    sandbox_never_forgotten reaches guard stepped⟩

/-- The sweeper, goroutine 3, lists the creating request at its timeout; then
the attempt gets its sandbox and writes `running`. -/
def untilSweep : List RunnerMove :=
  untilStart ++ .start .sweepOnce :: turns 3 [{}, { now := 61 * second }] ++
    turns 2 (startedAs "sbx" :: plain 4) ++ turns 3 (plain 3)

/-- `retryOrFail` then blanks the sandbox of the running request. -/
theorem sandbox_forgotten_by_sweeper :
    ¬∀ (server : Server) (world after : RunnerWorld) (move : RunnerMove),
      (machine server).Reaches (fun world move => guarded server automatic world move = true)
        (opened .empty) world → guarded server automatic world move = true →
      (machine server).step world move = some after → ¬ForgetsSandbox world after := by
  intro never
  have ran : ((machine sampleServer).runChecked (guarded sampleServer automatic) untilSweep
      (opened .empty)).any (fun world => guarded sampleServer automatic world (.run 3 {}) &&
        ((machine sampleServer).step world (.run 3 {})).any fun after =>
          decide (ForgetsSandbox world after)) = true := by decide +kernel
  obtain ⟨world, reaches, found⟩ := Machine.reaches_any ran
  simp only [Bool.and_eq_true, decide_eq_true_eq, Option.any_eq_true] at found
  obtain ⟨guard, after, stepped, forgotten⟩ := found
  exact never sampleServer world after _ reaches guard stepped forgotten

end Samples

end Runnerd
