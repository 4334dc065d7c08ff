import Runnerd.Ownership

/-!
Which sandbox an exit belongs to. `runnerExited` is keyed by the request alone:
the watcher of a superseded attempt reads the row of a later one, and would end
the later sandbox. `exitContract` says what a watcher does at all: it writes and
stops only over a row it has read as creating or running. So every effect of an
exit is attributed correctly as long as those reads are.
-/

namespace Runnerd

open GoText Interaction Interleaving Versioned

section Attribution

/-- The sandbox a watcher was started for, and the goroutine that started it. -/
def Task.exitOf : Task → Option (String × Nat)
  | .exitWatch _ sandboxID owner | .recoveredExitWatch _ sandboxID owner => some (sandboxID, owner)
  | _ => none

def createsRow (id : String) : Answered → Bool
  | ⟨.writeState .startCreating st, .ok ()⟩ => sanitizeID st.id == id
  | _ => false

/-- The goroutine whose creating write began the row's latest attempt. -/
def currentAttempt (trace : List RunnerEvent) (id : String) : Option Nat :=
  (trace.find? fun event => createsRow id event.call).map Event.tid

/-- The row names the sandbox, or none yet in the attempt that started it. -/
def belongsTo (trace : List RunnerEvent) (sandboxID : String) (owner : Nat) (st : RunnerState) :
    Bool :=
  st.sandboxID == sandboxID || (st.sandboxID == "" && currentAttempt trace st.id == some owner)

/-- A watcher changes the status of a row only if the exit belongs to it, and
stops no other sandbox than its own. -/
def exitAttributed (server : Server) (world : RunnerWorld) (move : RunnerMove) : Bool :=
  match move with
  | .run tid _ =>
      match (world.threads[tid]?).bind fun thread => thread.task.exitOf,
          (machine server).answered world move with
      | some (sandboxID, _), some ⟨.stopRunner _ stopped _, _⟩ => stopped == sandboxID
      | some (sandboxID, owner), some ⟨.writeState _ st, .ok ()⟩ =>
          world.state.table.rows.all fun row =>
            !versionMatches st row || row.status == st.status ||
              belongsTo world.trace sandboxID owner row.toRunnerState
      | _, _ => true
  | _ => true

/-- A watcher finds the row settled, or belonging to its exit. -/
def exitGuard (world : RunnerWorld) (thread : RunnerThread) : Answered → Bool
  | ⟨.readState _, .ok base⟩ =>
      thread.task.exitOf.all fun (sandboxID, owner) =>
        !occupied base.status || belongsTo world.trace sandboxID owner base
  | _ => true

end Attribution

section Conduct

def Writer.ofExit : Writer → Bool
  | .keepRunning | .exited | .exitedCleanupRetry => true
  | _ => false

/-- What an exit callback may do. -/
def exitContract (past : List Answered) : Op → Prop
  | .writeState writer _ => writer.ofExit = true
  | .stopRunner _ sandboxID _ => sandboxID ≠ "" ∧
      ∃ base, Reads past base ∧ occupied base.status = true ∧ base.sandboxID = sandboxID
  | _ => True

variable {server : Server} {past : List Answered} {post : Unit → List Answered → Prop}

theorem stopSandboxWithTimeout_conduct {post : Option GoError → List Answered → Prop}
    (id : String) {base : RunnerState} {sandboxID : String} (pid : Nat) (reads : Reads past base)
    (active : occupied base.status = true) (same : base.sandboxID = sandboxID)
    (named : sandboxID ≠ "") (done : Onward past post) :
    Keeps exitContract (stopSandboxWithTimeout id sandboxID pid) post past := by
  refine keeps_call trivial fun req => ?_
  cases req with
  | error err => exact keeps_return (done _ _ ⟨[_], rfl⟩)
  | ok req =>
      refine keeps_call trivial fun service => ?_
      cases service with
      | error err => exact keeps_return (done _ _ ⟨[_, _], rfl⟩)
      | ok service =>
          apply keeps_last
          · exact ⟨named, base, reads.extend ⟨[_, _], rfl⟩, active, same⟩
          · intro answer
            exact done _ _ ⟨[_, _, _], rfl⟩

theorem cleanupSandboxAfterExit_conduct {post : Option GoError → List Answered → Prop}
    (id : String) {base st : RunnerState} (reads : Reads past base)
    (active : occupied base.status = true) (same : base.sandboxID = st.sandboxID)
    (done : Onward past post) :
    Keeps exitContract (cleanupSandboxAfterExit id st) post past := by
  unfold cleanupSandboxAfterExit
  split
  · exact keeps_return (done _ _ List.suffix_rfl)
  · rename_i named
    refine keeps_seq (stopSandboxWithTimeout_conduct id _ reads active same named ?_)
    intro answer later extends_
    cases answer with
    | none => exact keeps_return (done _ _ extends_)
    | some err =>
        dsimp only
        split
        · exact keeps_return (done _ _ extends_)
        · exact keeps_return (done _ _ extends_)

theorem exitCleaned_conduct (st : RunnerState) (err cleanup : Option GoError)
    (done : Onward past post) : Keeps exitContract (exitCleaned server st err cleanup) post past := by
  have write (writer : Writer) (exits : writer.ofExit = true) (next : RunnerState)
      (later : List Answered) (extends_ : past <:+ later) :
      Keeps exitContract (writeStateOrLog writer next) post later :=
    keeps_call exits fun _ => keeps_return (done _ _ (extends_.trans ⟨[_], rfl⟩))
  refine keeps_call trivial fun now => keeps_seq
    (cleanupGitHubRunner_keeps _ (fun _ _ _ _ => trivial) ?_)
  intro unregistered later extends_ _
  have so_far : past <:+ later := List.IsSuffix.trans ⟨[_], rfl⟩ extends_
  cases unregistered with
  | none => exact write _ rfl _ _ so_far
  | some cleanupErr =>
      refine keeps_call trivial fun now => ?_
      split
      · exact write _ rfl _ _ (so_far.trans ⟨[_], rfl⟩)
      · exact write _ rfl _ _ (so_far.trans ⟨[_], rfl⟩)

theorem keepRunnerRunningWhenGitHubBusy_conduct {post : Bool → List Answered → Prop} (id : String)
    (st : RunnerState) (result : ExitResult) (err : Option GoError) (done : Onward past post) :
    Keeps exitContract (keepRunnerRunningWhenGitHubBusy id st result err) post past := by
  refine keeps_seq (githubRunnerBusy_keeps st (fun _ _ _ => trivial)
    fun busy later extends_ _ => ?_)
  match busy with
  | .error err => exact keeps_return (done _ _ extends_)
  | .ok false => exact keeps_return (done _ _ extends_)
  | .ok true =>
      have unlocked (value : Bool) (last : List Answered) (further : later <:+ last) :
          Keeps exitContract (do unlockRunner id; return value) post last :=
        keeps_call trivial fun _ =>
          keeps_return (done _ _ (extends_.trans (further.trans ⟨[_], rfl⟩)))
      refine keeps_call trivial fun _ => keeps_seq (keeps_call trivial fun answer => ?_)
      cases answer with
      | error err => exact keeps_return (unlocked _ _ ⟨[_, _], rfl⟩)
      | ok latest =>
          dsimp only
          split
          · exact keeps_return (unlocked _ _ ⟨[_, _], rfl⟩)
          · split
            · exact keeps_return (unlocked _ _ ⟨[_, _], rfl⟩)
            · refine keeps_call rfl fun written => ?_
              cases written with
              | error err => exact keeps_return (unlocked _ _ ⟨[_, _, _], rfl⟩)
              | ok _ => exact keeps_return (unlocked _ _ ⟨[_, _, _], rfl⟩)

theorem runnerExited_conduct (id : String) (result : ExitResult) (err : Option GoError)
    (done : Onward past post) :
    Keeps exitContract (runnerExited server id result err) post past := by
  have unlocked (later : List Answered) (extends_ : past <:+ later) :
      Keeps exitContract (unlockRunner id) post later :=
    keeps_last trivial fun _ => done _ _ (extends_.trans ⟨[_], rfl⟩)
  have exit (st : RunnerState) (later : List Answered) (extends_ : past <:+ later)
      (reads : Reads later st) (active : occupied st.status = true) :
      Keeps exitContract (do exitLocked server id st result err; unlockRunner id) post later := by
    refine keeps_seq (keeps_seq ?_)
    refine cleanupSandboxAfterExit_conduct id reads active (exitedState_sandbox st result err).symm ?_
    intro cleanup last further
    apply exitCleaned_conduct
    intro _ final rest
    exact unlocked final (extends_.trans (further.trans rest))
  refine keeps_call trivial fun _ => keeps_call trivial fun answer => ?_
  cases answer with
  | error err => exact unlocked _ ⟨[_, _], rfl⟩
  | ok st =>
      dsimp only
      split
      · exact unlocked _ ⟨[_, _], rfl⟩
      · rename_i active
        split
        · refine keeps_call trivial fun _ => keeps_seq
            (keepRunnerRunningWhenGitHubBusy_conduct id st result err fun kept later extends_ => ?_)
          have so_far : past <:+ later := List.IsSuffix.trans ⟨[_, _, _], rfl⟩ extends_
          split
          · exact keeps_return (done _ _ so_far)
          · refine keeps_call trivial fun _ => keeps_call trivial fun answer => ?_
            cases answer with
            | error err => exact unlocked _ (so_far.trans ⟨[_, _], rfl⟩)
            | ok st =>
                dsimp only
                split
                · exact unlocked _ (so_far.trans ⟨[_, _], rfl⟩)
                · rename_i active
                  exact exit st _ (so_far.trans ⟨[_, _], rfl⟩) (reads_last id st)
                    (occupied_of_not active)
        · exact exit st _ ⟨[_, _], rfl⟩ (reads_last id st) (occupied_of_not active)

/-- Every watcher keeps the exit contract. -/
theorem task_conduct (server : Server) (task : Task) :
    Keeps (fun past op => task.exitOf.isSome = true → exitContract past op)
      (taskBody server task) (fun _ _ => True) [] := by
  have done {α : Type} (past : List Answered) :
      Onward past (fun (_ : α) (_ : List Answered) => True) := fun _ _ _ => True.intro
  cases watches : task.exitOf with
  | none => exact keeps_permitted (by simp) _ _
  | some exit =>
      have keeps : Keeps exitContract (taskBody server task) (fun _ _ => True) [] := by
        cases task with
        | exitWatch id sandboxID owner =>
            refine keeps_call trivial fun answer => keeps_seq ?_
            exact runnerExited_conduct id answer.1 answer.2 fun _ _ _ =>
              keeps_last trivial fun _ => True.intro
        | recoveredExitWatch id sandboxID owner =>
            refine keeps_call trivial fun answer => keeps_call trivial fun accepted => ?_
            cases accepted with
            | true => exact runnerExited_conduct id answer.1 answer.2 (done _)
            | false => exact keeps_return True.intro
        | _ => cases watches
      simpa using keeps

end Conduct

section Worlds
variable {server : Server} {world : RunnerWorld} {tid : Nat} {choice : Choice}
  {thread : RunnerThread} {op : Op} {resp : op.Resp} {state : ServerState}

/-- What a watcher has read belongs to its exit for as long as its version
stands. -/
def Attributed (state : ServerState) (trace : List RunnerEvent) (sandboxID : String) (owner : Nat)
    (base : RunnerState) : Prop :=
  base.sandboxID = sandboxID ∨ (base.sandboxID = "" ∧ ∀ row ∈ state.table.rows,
    row.id = base.id → row.version = base.version → currentAttempt trace row.id = some owner)

def ExitFact (state : ServerState) (trace : List RunnerEvent) (task : Task)
    (past : List Answered) : Prop :=
  ∀ sandboxID owner, task.exitOf = some (sandboxID, owner) → ∀ id base,
    (⟨.readState id, .ok base⟩ : Answered) ∈ past → occupied base.status = true →
      Attributed state trace sandboxID owner base

theorem createsRow_wrote {id : String} (creates : createsRow id ⟨op, resp⟩ = true) :
    ∃ st, (⟨op, resp⟩ : Answered) = ⟨.writeState .startCreating st, .ok ()⟩ ∧
      sanitizeID st.id = id := by
  unfold createsRow at creates
  split at creates
  · rename_i call st same
    exact ⟨st, same, by simpa using creates⟩
  · cases creates

theorem currentAttempt_kept {trace : List RunnerEvent} {event : RunnerEvent} {id : String}
    (other : createsRow id event.call = false) :
    currentAttempt (event :: trace) id = currentAttempt trace id := by
  simp [currentAttempt, other]

/-- No call attributes what was read to another attempt. -/
theorem Turn.keepsAttribution (turn : Turn server world tid choice thread op resp state)
    {base : RunnerState} {id sandboxID : String} {owner : Nat} (named : base.id = sanitizeID id)
    (remembered : Remembered world.state.table.rows base)
    (known : Attributed world.state world.trace sandboxID owner base) :
    Attributed state (⟨tid, thread.task, ⟨op, resp⟩⟩ :: world.trace) sandboxID owner base := by
  refine known.imp_right (And.imp_right ?_)
  intro attempt next there sameID sameVersion
  obtain ⟨row, here, rowID, rowVersion, rfl | ⟨lease, worker, released, _⟩⟩ :=
    turn.same_version named remembered there sameID sameVersion
  · rw [currentAttempt_kept]
    · exact attempt next here rowID rowVersion
    · by_contra creates
      obtain ⟨st, wrote, key⟩ := createsRow_wrote (by simpa using creates)
      exact turn.unwritten here there wrote key
  · rw [released, currentAttempt_kept rfl, sameID, ← rowID]
    exact attempt row here rowID rowVersion

theorem exit_own (turn : Turn server world tid choice thread op resp state)
    (guard : exitGuard world thread ⟨op, resp⟩ = true)
    (known : ExitFact world.state world.trace thread.task thread.past) :
    ExitFact state (⟨tid, thread.task, ⟨op, resp⟩⟩ :: world.trace) thread.task
      (⟨op, resp⟩ :: thread.past) := by
  intro sandboxID owner watches id base member active
  rcases List.mem_cons.mp member with last | older
  · cases last
    have belongs : belongsTo world.trace sandboxID owner base = true := by
      simpa [exitGuard, watches, active] using guard
    simp only [belongsTo, Bool.or_eq_true, Bool.and_eq_true, beq_iff_eq] at belongs
    refine belongs.imp_right (And.imp_right ?_)
    intro attempt row _ sameID _
    rw [currentAttempt_kept rfl, sameID]
    exact attempt
  · exact turn.keepsAttribution (turn.honest_read turn.live older)
      (turn.remembers base (.inl ⟨id, older⟩)) (known sandboxID owner watches id base older active)

theorem exit_fact_reachable {table : RequestTable}
    (reaches : (machine server).Reaches
      (fun world move => watched server exitGuard world move = true) (opened table) world) :
    Machine.Informed (fun state trace _ task past => ExitFact state trace task past) world := by
  induction reaches with
  | refl =>
      intro tid thread live
      cases live
  | step move before meets stepped ih =>
      have coherent := coherent_reachable before
      refine Machine.informed_step ih stepped ?_ ?_ ?_
      · intro state trace tid task sandboxID owner _ id base member
        cases member
      · intro tid choice thread op resp rest state acts moved known
        subst moved
        have turn := turn_of_acts coherent acts
        exact exit_own turn (turn.watched_call meets) known
      · intro tid choice thread op resp rest state other found acts moved _ live pending known
          sandboxID owner watches id base member active
        have turn := turn_of_acts coherent acts
        exact turn.keepsAttribution (turn.honest_read live member)
          (coherent.remembers other found live pending base (.inl ⟨id, member⟩))
          (known sandboxID owner watches id base member active)

theorem exit_obeys {condition : RunnerWorld → RunnerMove → Prop} {table : RequestTable}
    (reaches : (machine server).Reaches condition (opened table) world) :
    Machine.Obeys (fun (task : Task) past op => task.exitOf.isSome = true → exitContract past op)
      world := by
  refine Machine.obeys_reachable (task_conduct server) ?_ reaches
  constructor
  · intro tid thread live
    cases live
  · intro tid thread live
    cases live

/-- What an exit callback writes, it writes over a row it has read as active. -/
theorem edit_exit {past : List Answered} {writer : Writer} {base st : RunnerState}
    (edit : Edit server past writer base st) (exits : writer.ofExit = true) :
    Reads past base ∧ occupied base.status = true := by
  cases edit with
  | exited exits => exact ⟨exits.reads, exits.occupied⟩
  | exitedUnregistered exits cleanupErr _ => exact ⟨exits.reads, exits.occupied⟩
  | exitedCleanupRetry exits scheduled => exact ⟨exits.reads, exits.occupied⟩
  | keepRunning busy occupied message =>
      obtain ⟨_, _, _, id, _, rfl⟩ := busy
      exact ⟨reads_last id base, occupied⟩
  | _ => cases exits

/-- A watcher stops only the sandbox it watches. -/
theorem stops_own {rest : Action Unit} {service : SandboxService} {stopped sandboxID : String}
    {pid owner : Nat} {answer : Option GoError}
    (acts : (machine server).Acts world tid choice thread (.stopRunner service stopped pid) answer
      rest state)
    (watches : thread.task.exitOf = some (sandboxID, owner))
    (known : ExitFact world.state world.trace thread.task thread.past)
    (obeys : Machine.Obeys
      (fun (task : Task) past op => task.exitOf.isSome = true → exitContract past op) world) :
    stopped = sandboxID := by
  obtain ⟨named, base, ⟨id, reads⟩, active, rfl⟩ := obeys.permits acts (by simp [watches])
  rcases known sandboxID owner watches id base reads active with same | ⟨empty, _⟩
  · exact same
  · exact absurd empty named

/-- A watcher writes over a row that belongs to its exit. -/
theorem Turn.writesOwn {base st : RunnerState} {sandboxID : String} {owner : Nat}
    (turn : Turn server world tid choice thread op resp state)
    (watches : thread.task.exitOf = some (sandboxID, owner))
    (known : ExitFact world.state world.trace thread.task thread.past) {writer : Writer}
    (exits : writer.ofExit = true) (edit : Edit server thread.past writer base st)
    {row : RunnerRequestRecord} (here : row ∈ world.state.table.rows)
    (matched : versionMatches st row = true) (same : rowCore row = core base) :
    belongsTo world.trace sandboxID owner row.toRunnerState = true := by
  obtain ⟨⟨id, reads⟩, active⟩ := edit_exit edit exits
  obtain ⟨request, _⟩ := edit_custody edit
  have sandbox : row.sandboxID = base.sandboxID := congrArg Core.sandboxID same
  have named := turn.honest_read turn.live reads
  simp only [versionMatches, Bool.and_eq_true, beq_iff_eq] at matched
  have key : row.id = base.id := by
    rw [matched.1, request.id, named, sanitizeID_idem]
  simp only [belongsTo, Bool.or_eq_true, Bool.and_eq_true, beq_iff_eq, sandbox]
  refine (known sandboxID owner watches id base reads active).imp_right (And.imp_right ?_)
  intro attempt
  exact attempt row here key (matched.2.trans request.version)

/-- Along the guarded runs every exit is attributed to its own sandbox. -/
theorem exits_attributed {table : RequestTable} {move : RunnerMove}
    (reaches : (machine server).Reaches
      (fun world move => watched server exitGuard world move = true) (opened table) world) :
    exitAttributed server world move = true := by
  have coherent := coherent_reachable reaches
  have facts := exit_fact_reachable reaches
  have obeys := exit_obeys reaches
  unfold exitAttributed
  split
  · split
    · rename_i watches answered
      obtain ⟨_, _, thread, _, state, same, acts⟩ := Machine.answered_acts answered
      cases same
      rw [acts.live, Option.bind_some] at watches
      simpa using stops_own acts watches (facts.actor acts) obeys
    · rename_i writer st watches answered
      obtain ⟨_, _, thread, _, state, same, acts⟩ := Machine.answered_acts answered
      cases same
      rw [acts.live, Option.bind_some] at watches
      have turn := turn_of_acts coherent acts
      have exits := obeys.permits acts (by simp [watches])
      rw [List.all_eq_true]
      intro row here
      by_cases matched : versionMatches st row = true
      · cases turn.change here (.written matched) with
        | written matched knows edit same =>
            simp [turn.writesOwn watches (facts.actor acts) exits edit here matched same]
      · simp [matched]
    · rfl
  · rfl

end Worlds

section Samples

/-- The runner exits with code 0; its watcher, goroutine 3, completes the
request. -/
theorem exits_attributed_completed :
    ∃ world after move, (machine sampleServer).Reaches
        (fun world move => watched sampleServer exitGuard world move = true)
        (opened .empty) world ∧
      (machine sampleServer).step world move = some after ∧
      statusesOf world = [.running] ∧ statusesOf after = [.completed] ∧
      exitAttributed sampleServer world move = true := by
  have ran : ((machine sampleServer).runChecked (watched sampleServer exitGuard)
      (untilRunning ++ turns 3 (plain 8)) (opened .empty)).any (fun world =>
        decide (statusesOf world = [.running]) &&
        ((machine sampleServer).step world (.run 3 {})).any fun after =>
          decide (statusesOf after = [.completed])) = true := by decide +kernel
  obtain ⟨world, reaches, found⟩ := Machine.reaches_any ran
  simp only [Bool.and_eq_true, decide_eq_true_eq, Option.any_eq_true] at found
  obtain ⟨running, after, stepped, completed⟩ := found
  exact ⟨world, after, _, reaches, stepped, running, completed, exits_attributed reaches⟩

/-- The sweeper, goroutine 3, requeues the creating request; goroutine 4 claims
it again and goroutine 5 starts it in `sbx2`. Then the first attempt gets
`sbx1`, whose watcher is goroutine 7. -/
def untilSuperseded : List RunnerMove :=
  untilStart ++ .start .sweepOnce :: turns 3 (plain 1 ++ { now := 61 * second } :: plain 5) ++
    .start (.processQueuedRequests 1) :: turns 4 (plain 1 ++ { now := 100 * second } :: plain 2) ++
    turns 5 (plain 10 ++ { job := .ok (sampleJob 1) } :: plain 3 ++ startedAs "sbx2" :: plain 4) ++
    turns 2 [startedAs "sbx1"]

/-- The exit of `sbx1` stops `sbx2`. -/
theorem exit_stops_other_sandbox :
    ¬∀ (server : Server) (world : RunnerWorld) (move : RunnerMove),
      (machine server).Reaches (fun _ _ => True) (opened .empty) world →
      exitAttributed server world move = true := by
  intro always
  have ran : ((machine sampleServer).runChecked (fun _ _ => true)
      (untilSuperseded ++ turns 7 (plain 5)) (opened .empty)).any (fun world =>
        decide (sandboxesOf world = ["sbx2"]) &&
        !exitAttributed sampleServer world (.run 7 {})) = true := by decide +kernel
  obtain ⟨world, reaches, found⟩ := Machine.reaches_any ran
  simp only [Bool.and_eq_true, Bool.not_eq_true'] at found
  have attributed := always sampleServer world (.run 7 {}) (reaches.weaken fun _ _ _ => True.intro)
  rw [found.2] at attributed
  cases attributed

end Samples

end Runnerd
