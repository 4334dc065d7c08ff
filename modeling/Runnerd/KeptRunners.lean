import Runnerd.ExitAttribution
import Runnerd.Footprints

/-!
Runners that outlive their process stream. When GitHub still reports the runner
busy, its exit callback writes the row `running` and leaves the sandbox alone.
The callback may come before the attempt that started the sandbox has recorded
it: then the row it writes names no sandbox, and the attempt, which finds the
row no longer creating, stops the sandbox that was to be kept. An attempt stops
a sandbox once at most, and never one that it has recorded.
-/

namespace Runnerd

open GoText Interaction Interleaving

section Attempts
variable {server : Server} {past : List Answered}

/-- The attempt has recorded its sandbox, or has ended it. -/
def settles : Answered → Bool
  | ⟨.writeState .startRunning _, .ok ()⟩ | ⟨.stopRunner _ _ _, _⟩ => true
  | _ => false

def attemptContract (past : List Answered) : Op → Prop
  | .stopRunner _ _ _ => past.any settles = false
  | _ => True

/-- The calls of these kinds neither record nor end a sandbox. -/
def unsettling (kinds : List Kind) : Bool :=
  !kinds.contains .stop && !kinds.contains (.write .startRunning)

theorem settles_kind {kinds : List Kind} (quiet : unsettling kinds = true) {call : Answered}
    (member : kinds.contains call.op.kind = true) : settles call = false := by
  simp only [unsettling, Bool.and_eq_true, Bool.not_eq_true'] at quiet
  unfold settles
  split
  · exact absurd member (by rw [Op.kind, quiet.2]; exact Bool.false_ne_true)
  · exact absurd member (by rw [Op.kind, quiet.1]; exact Bool.false_ne_true)
  · rfl

theorem attempt_quiet {kinds : List Kind} (quiet : unsettling kinds = true)
    (past : List Answered) (op : Op) (member : kinds.contains op.kind = true) :
    attemptContract past op := by
  simp only [unsettling, Bool.and_eq_true, Bool.not_eq_true'] at quiet
  unfold attemptContract
  split
  · exact absurd member (by rw [Op.kind, quiet.1]; exact Bool.false_ne_true)
  · trivial

theorem within_attempt {α : Type} {kinds : List Kind} {program : Action α}
    (within : Within kinds program) (quiet : unsettling kinds = true)
    (unsettled : past.any settles = false) {post : α → List Answered → Prop}
    (done : ∀ value later, later.any settles = false → post value later) :
    Keeps attemptContract program post past := by
  refine keeps_calls within (attempt_quiet quiet) fun value later _ made => done value later ?_
  rw [List.any_eq_false] at unsettled ⊢
  intro call member
  rcases made call member with older | allowed
  · exact unsettled call older
  · exact Bool.not_eq_true _ ▸ settles_kind quiet allowed

theorem cleanupStartedSandbox_attempt (id : String) (result : StartResult)
    (unsettled : past.any settles = false) :
    Keeps attemptContract (cleanupStartedSandbox id result) (fun _ _ => True) past := by
  unfold cleanupStartedSandbox
  split
  · exact keeps_return True.intro
  · apply keeps_seq
    refine keeps_call True.intro fun answer => ?_
    cases answer with
    | error err => exact keeps_return (keeps_return True.intro)
    | ok req =>
        refine keeps_call True.intro fun answer => ?_
        cases answer with
        | error err => exact keeps_return (keeps_return True.intro)
        | ok service => exact keeps_last unsettled fun _ => keeps_return True.intro

theorem startRecorded_attempt (id : String) (result : StartResult)
    (unsettled : past.any settles = false) :
    Keeps attemptContract (startRecorded id result) (fun _ _ => True) past := by
  refine keeps_call True.intro fun _ => keeps_call True.intro fun answer => ?_
  cases answer with
  | error err =>
      refine keeps_call True.intro fun _ => ?_
      exact cleanupStartedSandbox_attempt id result unsettled
  | ok current =>
      dsimp only
      split
      · refine keeps_call True.intro fun _ => ?_
        exact cleanupStartedSandbox_attempt id result unsettled
      · refine keeps_call True.intro fun answer => ?_
        cases answer with
        | error err =>
            refine keeps_call True.intro fun _ => ?_
            exact cleanupStartedSandbox_attempt id result unsettled
        | ok _ =>
            refine keeps_call True.intro fun _ => ?_
            exact keeps_last True.intro fun _ => True.intro

theorem startSandbox_attempt (id : String) (req : RunnerRequest) (st : RunnerState)
    (profile : RunnerProfile) (service : SandboxService) (unsettled : past.any settles = false) :
    Keeps attemptContract (startSandbox server id req st profile service) (fun _ _ => True) past := by
  have fails (stage : String) (err : GoError) (later : List Answered)
      (unsettled : later.any settles = false) :
      Keeps attemptContract (failStart server id st stage err) (fun _ _ => True) later :=
    within_attempt (failStart_within server id st stage err) rfl unsettled fun _ _ _ => True.intro
  apply keeps_seq
  refine within_attempt (resolveTemplate_within service profile) rfl unsettled ?_
  intro template later unsettled
  cases template with
  | error err => exact fails _ err later unsettled
  | ok templateID =>
      refine keeps_call True.intro fun answer => ?_
      cases answer with
      | error err => exact fails _ err _ unsettled
      | ok token =>
          refine keeps_call True.intro fun answer => ?_
          cases answer with
          | error err => exact fails _ err _ unsettled
          | ok repositoryURL =>
              refine keeps_call True.intro fun answer => ?_
              cases answer with
              | error err => exact fails _ err _ unsettled
              | ok result => exact startRecorded_attempt id result unsettled

theorem startCreated_attempt (id workerID : String) (req : RunnerRequest) (st : RunnerState)
    (profile : RunnerProfile) (unsettled : past.any settles = false) :
    Keeps attemptContract (startCreated server id workerID req st profile) (fun _ _ => True)
      past := by
  have fails (st : RunnerState) (err : GoError) (stage : String) (later : List Answered)
      (unsettled : later.any settles = false) :
      Keeps attemptContract (failStart server id st stage err) (fun _ _ => True) later :=
    within_attempt (failStart_within server id st stage err) rfl unsettled fun _ _ _ => True.intro
  apply keeps_seq
  refine within_attempt (ensureWorkflowJobStillQueued_within req) rfl unsettled ?_
  rintro (err | _ | _) later unsettled
  · exact fails st err _ later unsettled
  · exact keeps_call True.intro fun _ => keeps_return True.intro
  · refine keeps_call True.intro fun answer => ?_
    cases answer with
    | error err => exact fails st err _ _ unsettled
    | ok service =>
        dsimp only
        split
        · refine keeps_call True.intro fun answer => ?_
          cases answer with
          | error err => exact fails st _ _ _ unsettled
          | ok current =>
              refine keeps_call True.intro fun answer => ?_
              cases answer with
              | error err => exact fails _ _ _ _ unsettled
              | ok _ => exact startSandbox_attempt id req st profile service unsettled
        · exact startSandbox_attempt id req st profile service unsettled

theorem startAdmitted_attempt (id workerID : String) (req : RunnerRequest) (st : RunnerState)
    (profile : RunnerProfile) (unsettled : past.any settles = false) :
    Keeps attemptContract (startAdmitted server id workerID req st profile) (fun _ _ => True)
      past := by
  refine keeps_call True.intro fun now => keeps_call True.intro fun answer => ?_
  cases answer with
  | error err =>
      refine keeps_call True.intro fun _ => keeps_call True.intro fun _ => ?_
      exact keeps_call True.intro fun _ => keeps_return True.intro
  | ok _ =>
      refine keeps_call True.intro fun _ => keeps_call True.intro fun _ => ?_
      exact startCreated_attempt id workerID req _ profile unsettled

theorem startRunner_attempt (id workerID : String) :
    Keeps attemptContract (startRunner server id workerID) (fun _ _ => True) [] := by
  have drops (later : List Answered) :
      Keeps attemptContract (dropLease id workerID) (fun _ _ => True) later :=
    keeps_call True.intro fun _ => keeps_return True.intro
  refine keeps_call True.intro fun _ => keeps_call True.intro fun answer => ?_
  cases answer with
  | error err => exact keeps_last True.intro fun _ => True.intro
  | ok req =>
      refine keeps_call True.intro fun answer => ?_
      cases answer with
      | error err => exact keeps_last True.intro fun _ => True.intro
      | ok st =>
          dsimp only
          split
          · exact keeps_call True.intro fun _ => drops _
          · refine keeps_call True.intro fun answer => ?_
            cases answer with
            | error err =>
                refine keeps_call True.intro fun _ => ?_
                exact within_attempt (failStart_within server id st _ _) rfl rfl fun _ _ _ => True.intro
            | ok profile =>
                refine keeps_call True.intro fun _ => keeps_call True.intro fun answer => ?_
                cases answer with
                | error err =>
                    refine keeps_call True.intro fun _ => keeps_call True.intro fun _ => ?_
                    exact drops _
                | ok inFlight =>
                    dsimp only
                    split
                    · exact within_attempt (startDeferred_within id workerID) rfl rfl fun _ _ _ => True.intro
                    · split
                      · exact startAdmitted_attempt id workerID req st profile rfl
                      · apply keeps_seq
                        refine within_attempt (profileAtCapacityFor_within profile) rfl rfl ?_
                        rintro (err | _ | _) later unsettled
                        · refine keeps_call True.intro fun _ => keeps_call True.intro fun _ => ?_
                          exact drops _
                        · exact startAdmitted_attempt id workerID req st profile unsettled
                        · exact within_attempt (startDeferred_within id workerID) rfl unsettled
                            fun _ _ _ => True.intro

/-- The contract of an attempt; the other goroutines owe nothing here. -/
def attemptDuty : Task → List Answered → Op → Prop
  | .startRunner _ => attemptContract
  | _ => fun _ _ => True

theorem task_attempt (server : Server) (task : Task) :
    Keeps (attemptDuty task) (taskBody server task) (fun _ _ => True) [] := by
  cases task with
  | startRunner claimed =>
      apply keeps_seq
      refine keeps_mono ?_ (startRunner_attempt claimed.id server.workerID)
      intro _ later _
      exact keeps_last True.intro fun _ => True.intro
  | _ => exact keeps_permitted (fun _ _ => True.intro) _ _

end Attempts

section Keeping

/-- The assumption on the sandbox service: a started or recovered runner has a
sandbox with a name. -/
def namesSandbox : Answered → Bool
  | ⟨.startRunner _ _, .ok result⟩ => result.sandboxID != ""
  | ⟨.recoverRunner _ _, (result, none)⟩ => result.sandboxID != ""
  | _ => true

def startsAs (sandboxID : String) : Answered → Bool
  | ⟨.startRunner _ _, .ok result⟩ => result.sandboxID == sandboxID
  | _ => false

def endsSandbox (sandboxID : String) : Answered → Bool
  | ⟨.stopRunner _ stopped _, _⟩ => stopped == sandboxID
  | _ => false

/-- The sandbox whose exit is answered by keeping its runner. -/
def keptSandbox (task : Task) : Answered → Option String
  | ⟨.writeState .keepRunning _, .ok ()⟩ => task.exitOf.map Prod.fst
  | _ => none

def Task.attempts : Task → Bool
  | .startRunner _ => true
  | _ => false

/-- The attempt of the event ends a sandbox that it started and that was kept
in between. -/
def killsKept (kill : RunnerEvent) : List RunnerEvent → Bool
  | [] => false
  | keep :: earlier =>
      (kill.task.attempts && (keptSandbox keep.task keep.call).any fun sandboxID =>
        endsSandbox sandboxID kill.call && earlier.any fun event =>
          event.tid == kill.tid && startsAs sandboxID event.call) ||
      killsKept kill earlier

/-- The attempt has recorded or ended its sandbox, or is gone with its process. -/
def attemptSettled (thread : RunnerThread) : Bool := thread.past.any settles || thread.rest.ended

/-- The exit callback keeps the runner of a row that names a sandbox, after
every attempt that was given its own sandbox is settled. -/
def keepGuard (world : RunnerWorld) (thread : RunnerThread) : Answered → Bool
  | ⟨.writeState .keepRunning st, .ok ()⟩ =>
      (world.state.table.rows.all fun row => !versionMatches st row || row.sandboxID != "") &&
      (keptSandbox thread.task ⟨.writeState .keepRunning st, .ok ()⟩).all fun sandboxID =>
        world.threads.all fun attempt =>
          !attempt.past.any (startsAs sandboxID) || attemptSettled attempt
  | _ => true

end Keeping

section Named
variable {server : Server} {past : List Answered}

/-- The writers that a running row can come from. -/
theorem step_running {released : String → Prop} {writer : Writer} {before after : Custody}
    (step : Custody.Step released writer before after) (running : after.status = .running) :
    after = before ∨ writer = .startRunning ∨ writer = .recoverReconnected ∨
      (writer = .keepRunning ∧ after.sandbox = before.sandbox) := by
  cases step with
  | kept passive => exact .inl rfl
  | placed creating sandbox => exact .inr (.inl rfl)
  | reattached occupied sandbox => exact .inr (.inr (.inl rfl))
  | stayed occupied => exact .inr (.inr (.inr ⟨rfl, rfl⟩))
  | dropped drops before waits =>
      rcases waits with rfl | rfl
      · cases running
      · cases running
  | ended ends stopping free finished settled =>
      rcases finished with rfl | rfl | rfl
      · cases running
      · cases running
      · cases running
  | _ => cases running

theorem edit_started {base st : RunnerState} (edit : Edit server past .startRunning base st) :
    ∃ service input result, (⟨.startRunner service input, .ok result⟩ : Answered) ∈ past ∧
      st.sandboxID = result.sandboxID := by
  cases edit with
  | startRunning creating started =>
      obtain ⟨service, input, called⟩ := started
      exact ⟨service, input, _, called, rfl⟩

theorem edit_reconnected {base st : RunnerState}
    (edit : Edit server past .recoverReconnected base st) :
    ∃ service input result, (⟨.recoverRunner service input, (result, none)⟩ : Answered) ∈ past ∧
      st.sandboxID = result.sandboxID := by
  cases edit with
  | recoverReconnected recovers =>
      obtain ⟨_, service, pid, timeout, _, _, _, called⟩ := recovers.attached
      exact ⟨service, _, _, called, rfl⟩

end Named

section Worlds
variable {server : Server} {world : RunnerWorld}

/-- The assumption on the sandbox service, and the condition on the callbacks. -/
def keepCondition (server : Server) (world : RunnerWorld) (move : RunnerMove) : Bool :=
  guarded server (fun _ => namesSandbox) world move && watched server keepGuard world move

theorem names_reachable {table : RequestTable}
    (reaches : (machine server).Reaches
      (fun world move => keepCondition server world move = true) (opened table) world) :
    ∀ event ∈ world.trace, namesSandbox event.call = true := by
  refine Machine.trace_reachable (fun call => namesSandbox call = true) ?_ ?_ reaches
  · intro event member
    cases member
  · intro world move call meets answered
    simp only [keepCondition, Bool.and_eq_true, guarded, answered, Option.all_some] at meets
    exact meets.1

/-- A write that leaves a row running leaves it a sandbox. -/
theorem Turn.keepsNamed {tid : Nat} {choice : Choice} {thread : RunnerThread} {op : Op}
    {resp : op.Resp} {state : ServerState}
    (turn : Turn server world tid choice thread op resp state)
    (meets : keepCondition server world (.run tid choice) = true)
    (names : ∀ event ∈ world.trace, namesSandbox event.call = true)
    {row next : RunnerRequestRecord} (here : row ∈ world.state.table.rows)
    (known : row.status = .running → row.sandboxID ≠ "")
    (change : Change server thread.past choice.now ⟨op, resp⟩ row next)
    (running : next.status = .running) : next.sandboxID ≠ "" := by
  cases change with
  | @written writer st base row matched knows edit same =>
      have sandbox : row.sandboxID = base.sandboxID := congrArg Core.sandboxID same
      rcases step_running (edit_custody edit).2 running with kept | rfl | rfl | ⟨rfl, kept⟩
      · have status : row.status = .running :=
          (congrArg Core.status same).trans ((congrArg Custody.status kept).symm.trans running)
        have unmoved : st.sandboxID = base.sandboxID := congrArg Custody.sandbox kept
        change st.sandboxID ≠ ""
        rw [unmoved, ← sandbox]
        exact known status
      · obtain ⟨service, input, result, called, named⟩ := edit_started edit
        obtain ⟨event, member, same⟩ := turn.recorded called
        have answered := names event member
        rw [same] at answered
        change st.sandboxID ≠ ""
        rw [named]
        simpa [namesSandbox] using answered
      · obtain ⟨service, input, result, called, named⟩ := edit_reconnected edit
        obtain ⟨event, member, same⟩ := turn.recorded called
        have answered := names event member
        rw [same] at answered
        change st.sandboxID ≠ ""
        rw [named]
        simpa [namesSandbox] using answered
      · have guard := turn.watched_call (Bool.and_eq_true_iff.mp meets).2
        simp only [keepGuard, Bool.and_eq_true, List.all_eq_true] at guard
        have occupied := guard.1 row here
        simp only [matched, Bool.not_true, Bool.false_or, bne_iff_ne] at occupied
        change st.sandboxID ≠ ""
        have unmoved : st.sandboxID = base.sandboxID := kept
        rw [unmoved, ← sandbox]
        exact occupied
  | claimed free => exact known running
  | released matched => exact known running
  | retried allowed named => cases running

theorem running_rows_named {table : RequestTable}
    (first : ∀ row ∈ table.rows, row.status = .running → row.sandboxID ≠ "")
    (reaches : (machine server).Reaches
      (fun world move => keepCondition server world move = true) (opened table) world) :
    ∀ row ∈ world.state.table.rows, row.status = .running → row.sandboxID ≠ "" := by
  refine rows_invariant (fun _ row => row.status = .running → row.sandboxID ≠ "") ?_ first ?_ ?_
    reaches
  · intro event trace row known
    exact known
  · intro world tid choice thread op resp state row _ turn _ added running
    cases added with
    | created =>
        rcases turn.permits with ⟨rfl, _⟩ | ⟨rfl, _⟩
        · cases running
        · cases running
  · intro world tid choice thread op resp state row next before turn meets here known change
    exact turn.keepsNamed meets (names_reachable before) here known change

/-- Once a sandbox is kept, the attempts that were given it are settled. -/
def KeptSettled (world : RunnerWorld) : Prop :=
  ∀ keep earlier sandboxID, keep :: earlier <:+ world.trace →
    keptSandbox keep.task keep.call = some sandboxID →
    ∀ event ∈ earlier, startsAs sandboxID event.call = true →
    ∀ thread, world.threads[event.tid]? = some thread → attemptSettled thread = true

theorem settled_continues {old new : RunnerThread} (continues : Machine.Continues old new)
    (settled : attemptSettled old = true) : attemptSettled new = true := by
  simp only [attemptSettled, Bool.or_eq_true, List.any_eq_true] at settled ⊢
  refine settled.imp ?_ continues.ended
  rintro ⟨call, member, settles⟩
  exact ⟨call, continues.past.subset member, settles⟩

theorem settled_step {after : RunnerWorld} {move : RunnerMove}
    (stepped : (machine server).step world move = some after) {tid : Nat} {thread : RunnerThread}
    (live : world.threads[tid]? = some thread) (settled : attemptSettled thread = true)
    {new : RunnerThread} (present : after.threads[tid]? = some new) :
    attemptSettled new = true := by
  obtain ⟨found, there, continues⟩ := Machine.thread_continues stepped live
  obtain rfl : found = new := Option.some.inj (there.symm.trans present)
  exact settled_continues continues settled

theorem keptSandbox_write {task : Task} {call : Answered} {sandboxID : String}
    (kept : keptSandbox task call = some sandboxID) :
    ∃ st, call = ⟨.writeState .keepRunning st, .ok ()⟩ := by
  unfold keptSandbox at kept
  split at kept
  · exact ⟨_, rfl⟩
  · cases kept

theorem kept_settled_reachable {table : RequestTable}
    (reaches : (machine server).Reaches
      (fun world move => keepCondition server world move = true) (opened table) world) :
    KeptSettled world := by
  induction reaches with
  | refl =>
      intro keep earlier sandboxID suffix
      cases List.suffix_nil.mp suffix
  | @step world after move before meets stepped ih =>
      have older (keep : RunnerEvent) (earlier : List RunnerEvent) (sandboxID : String)
          (suffix : keep :: earlier <:+ world.trace)
          (kept : keptSandbox keep.task keep.call = some sandboxID) (event : RunnerEvent)
          (member : event ∈ earlier) (starts : startsAs sandboxID event.call = true)
          (new : RunnerThread) (present : after.threads[event.tid]? = some new) :
          attemptSettled new = true := by
        have recorded := suffix.subset (List.mem_cons_of_mem keep member)
        obtain ⟨thread, live, _⟩ := Machine.traced_reachable rfl before recorded
        have settled := ih keep earlier sandboxID suffix kept event member starts thread live
        exact settled_step stepped live settled present
      obtain ⟨tid, choice, thread, op, resp, rest, state, rfl, acts, rfl⟩ | ⟨task, rfl, _, rfl⟩ |
        ⟨rfl, rfl⟩ := (machine server).step_cases stepped
      · intro keep earlier sandboxID suffix kept event member starts new present
        rcases List.suffix_cons_iff.mp suffix with last | recorded
        · cases last
          -- the sandbox is kept by this call: the guard looks at every attempt
          obtain ⟨old, live, called⟩ := Machine.traced_reachable rfl before member
          obtain ⟨st, wrote⟩ := keptSandbox_write kept
          cases wrote
          have turn := turn_of_acts (coherent_reachable before) acts
          have guard := turn.watched_call (Bool.and_eq_true_iff.mp meets).2
          simp only [keepGuard, Bool.and_eq_true] at guard
          have settled := guard.2
          rw [kept, Option.all_some, List.all_eq_true] at settled
          have given : old.past.any (startsAs sandboxID) = true :=
            List.any_eq_true.mpr ⟨event.call, called, starts⟩
          have settled := settled old (List.mem_of_getElem? live)
          rw [given, Bool.not_true, Bool.false_or] at settled
          exact settled_step stepped live settled present
        · exact older keep earlier sandboxID recorded kept event member starts new present
      · exact older
      · exact older

theorem killsKept_kept {kill : RunnerEvent} {trace : List RunnerEvent}
    (kills : killsKept kill trace = true) :
    ∃ keep earlier sandboxID event, keep :: earlier <:+ trace ∧ kill.task.attempts = true ∧
      keptSandbox keep.task keep.call = some sandboxID ∧ endsSandbox sandboxID kill.call = true ∧
      event ∈ earlier ∧ event.tid = kill.tid ∧ startsAs sandboxID event.call = true := by
  induction trace with
  | nil => cases kills
  | cons keep earlier ih =>
      simp only [killsKept, Bool.or_eq_true, Bool.and_eq_true, Option.any_eq_true,
        List.any_eq_true, beq_iff_eq] at kills
      rcases kills with ⟨attempts, sandboxID, kept, ends, event, member, same, starts⟩ | kills
      · exact ⟨keep, earlier, sandboxID, event, List.suffix_rfl, attempts, kept, ends, member, same,
          starts⟩
      · obtain ⟨keep, before, sandboxID, event, suffix, found⟩ := ih kills
        exact ⟨keep, before, sandboxID, event, suffix.trans (List.suffix_cons _ _), found⟩

theorem endsSandbox_stop {sandboxID : String} {call : Answered}
    (ends : endsSandbox sandboxID call = true) :
    ∃ service pid answer, call = ⟨.stopRunner service sandboxID pid, answer⟩ := by
  unfold endsSandbox at ends
  split at ends
  · cases beq_iff_eq.mp ends
    exact ⟨_, _, _, rfl⟩
  · cases ends

theorem attempt_obeys {condition : RunnerWorld → RunnerMove → Prop} {table : RequestTable}
    (reaches : (machine server).Reaches condition (opened table) world) :
    Machine.Obeys attemptDuty world := by
  refine Machine.obeys_reachable (task_attempt server) ⟨?_, ?_⟩ reaches
  · intro tid thread live
    cases live
  · intro tid thread live
    cases live

/-- Along the guarded runs a running row names its sandbox, and a sandbox that
was kept is not ended by the attempt that started it. -/
theorem kept_runners_live {table : RequestTable}
    (first : ∀ row ∈ table.rows, row.status = .running → row.sandboxID ≠ "")
    (reaches : (machine server).Reaches
      (fun world move => keepCondition server world move = true) (opened table) world) :
    (∀ row ∈ world.state.table.rows, row.status = .running → row.sandboxID ≠ "") ∧
      ∀ (tid : Nat) (choice : Choice) (thread : RunnerThread) (call : Answered),
        world.threads[tid]? = some thread →
        (machine server).answered world (.run tid choice) = some call →
        killsKept ⟨tid, thread.task, call⟩ world.trace = false := by
  refine ⟨running_rows_named first reaches, ?_⟩
  rintro tid choice thread ⟨op, resp⟩ live answered
  by_contra kills
  obtain ⟨keep, earlier, sandboxID, event, suffix, attempts, kept, ends, member, same, starts⟩ :=
    killsKept_kept (Bool.not_eq_false _ ▸ kills)
  obtain ⟨_, _, found, rest, state, move, acts⟩ := Machine.answered_acts answered
  cases move
  obtain rfl : found = thread := Option.some.inj (acts.live.symm.trans live)
  have settled := kept_settled_reachable reaches keep earlier sandboxID suffix kept event member
    starts found (same ▸ live)
  have duty := (attempt_obeys reaches).permits acts
  obtain ⟨answers, next, _⟩ := acts.next
  -- an attempt that stops a sandbox has settled nothing yet
  obtain ⟨service, pid, answer, stops⟩ := endsSandbox_stop ends
  cases stops
  have unsettled : found.past.any settles = false := by
    cases task : found.task with
    | startRunner claimed =>
        rw [task] at duty
        exact duty
    | _ =>
        rw [task] at attempts
        cases attempts
  rw [attemptSettled, unsettled, next] at settled
  cases settled

end Worlds

section Samples

/-- The stream of the runner breaks while GitHub reports it busy: its watcher,
goroutine 3, keeps it. -/
def untilKept : List RunnerMove :=
  turns 3 ({ exited := ({ exitCode := 1 }, none) } :: plain 3 ++
    { runners := .ok [⟨"e2b-1", true⟩] } :: plain 4)

theorem kept_runners_live_recorded :
    ∃ world, (machine sampleServer).Reaches
        (fun world move => keepCondition sampleServer world move = true) (opened .empty) world ∧
      (∃ event ∈ world.trace, keptSandbox event.task event.call = some "sbx") ∧
      (∀ row ∈ world.state.table.rows, row.status = .running → row.sandboxID ≠ "") ∧
        ∀ (tid : Nat) (choice : Choice) (thread : RunnerThread) (call : Answered),
          world.threads[tid]? = some thread →
          (machine sampleServer).answered world (.run tid choice) = some call →
          killsKept ⟨tid, thread.task, call⟩ world.trace = false := by
  have ran : ((machine sampleServer).runChecked (keepCondition sampleServer)
      (untilRunning ++ untilKept) (opened .empty)).any (fun world =>
        world.trace.any fun event => keptSandbox event.task event.call == some "sbx") = true := by
    decide +kernel
  obtain ⟨world, reaches, found⟩ := Machine.reaches_any ran
  simp only [List.any_eq_true, beq_iff_eq] at found
  have fresh : ∀ row ∈ RequestTable.empty.rows, row.status = .running → row.sandboxID ≠ "" := by
    intro row member
    cases member
  exact ⟨world, reaches, found, kept_runners_live fresh reaches⟩

/-- The stream breaks before the attempt, goroutine 2, has recorded `sbx`. The
attempt then finds the row running and is about to stop `sbx`. -/
def untilKilled : List RunnerMove :=
  untilStart ++ turns 2 [startedAs "sbx"] ++ untilKept ++ turns 2 (plain 5)

/-- The row of the kept runner names no sandbox, and the attempt ends the
sandbox that was kept. -/
theorem kept_runner_killed :
    (¬∀ (server : Server) (world : RunnerWorld),
      (machine server).Reaches (fun world move =>
        guarded server (fun _ => namesSandbox) world move = true) (opened .empty) world →
      ∀ row ∈ world.state.table.rows, row.status = .running → row.sandboxID ≠ "") ∧
    ¬∀ (server : Server) (world : RunnerWorld) (tid : Nat) (choice : Choice)
        (thread : RunnerThread) (call : Answered),
      (machine server).Reaches (fun world move =>
        guarded server (fun _ => namesSandbox) world move = true) (opened .empty) world →
      world.threads[tid]? = some thread →
      (machine server).answered world (.run tid choice) = some call →
      killsKept ⟨tid, thread.task, call⟩ world.trace = false := by
  have ran : ((machine sampleServer).runChecked (guarded sampleServer (fun _ => namesSandbox))
      untilKilled (opened .empty)).any (fun world =>
        (world.state.table.rows.any fun row => row.status == .running && row.sandboxID == "") &&
        (world.threads[2]?).any fun thread =>
          ((machine sampleServer).answered world (.run 2 {})).any fun call =>
            killsKept ⟨2, thread.task, call⟩ world.trace) = true := by
    decide +kernel
  obtain ⟨world, reaches, found⟩ := Machine.reaches_any ran
  simp only [Bool.and_eq_true, List.any_eq_true, beq_iff_eq, Option.any_eq_true] at found
  obtain ⟨⟨row, here, running, unnamed⟩, thread, live, call, answered, kills⟩ := found
  constructor
  · intro always
    exact always sampleServer world reaches row here running unnamed
  · intro always
    have spared := always sampleServer world 2 {} thread call reaches live answered
    rw [kills] at spared
    cases spared

end Samples

end Runnerd
