import Runnerd.Custody
import Runnerd.Footprints
import Runnerd.Replay
import Runnerd.StartConduct

/-!
What a recovery owes. It decides on the row that it read before it looked at
the clock. From then on its calls take time in which other goroutines may change
the row, so each of its writes is made over a row of the same version, or over
its own mark. `RecoveryLog` is what of a recovery's past matters for that, and
for the gate of the exit watcher: the gate is offered once for each call of
`RecoverRunner`, with whether the row now names the reconnected runner.
-/

namespace Runnerd

open GoText Interaction Interleaving

section Logs

/-- `read` is the last row read, with the id it was asked for, and `basis` the
one at the last look at the clock. -/
structure RecoveryLog where
  read : Option (String × RunnerState) := none
  basis : Option (String × RunnerState) := none
  attached : Nat := 0
  offers : List Bool := []
  reconnected : Bool := false

def RecoveryLog.note (log : RecoveryLog) : Answered → RecoveryLog
  | ⟨.readState id, .ok st⟩ => { log with read := some (id, st) }
  | ⟨.now, _⟩ => { log with basis := log.read }
  | ⟨.recoverRunner _ _, _⟩ => { log with attached := log.attached + 1 }
  | ⟨.offerExitWatch accepted, _⟩ => { log with offers := accepted :: log.offers }
  | ⟨.writeState .recoverReconnected _, .ok _⟩ => { log with reconnected := true }
  | _ => log

def recoveryLog : List Answered → RecoveryLog
  | [] => {}
  | call :: past => (recoveryLog past).note call

end Logs

section Contract

/-- The writes that a recovery bases on its decision. -/
def Writer.decided : Writer → Bool
  | .recoverReconnected | .requeueInterrupted | .forceStopping => true
  | _ => false

/-- The writes over the mark of a forced stop. -/
def Writer.forced : Writer → Bool
  | .forceStopFailed | .forceCleanupRetry | .forceFailed => true
  | _ => false

/-- The record goes over the row of the decision, at its version; a version of
0 does not guard a forced stop. -/
structure Owns (log : RecoveryLog) (base st : RunnerState) : Prop where
  decided : ∃ id, log.basis = some (id, base)
  active : occupied base.status = true
  latest : ∃ latest, log.read = some (base.id, latest) ∧ st.id = latest.id ∧
    st.version = latest.version ∧ (base.version = 0 ∨ latest.version = base.version)

/-- The record goes over the mark that a forced stop has written itself. -/
def OverMark (past : List Answered) (st : RunnerState) : Prop :=
  ∃ marked : RunnerState, (⟨.writeState .forceStopping marked, .ok ()⟩ : Answered) ∈ past ∧
    st.id = marked.id ∧ st.version = marked.version + 1

def recoveryContract (past : List Answered) : Op → Prop
  | .writeState writer st =>
      (writer.decided = true → ∃ base, Owns (recoveryLog past) base st) ∧
        (writer.forced = true → OverMark past st) ∧
        (writer = .recoverReconnected →
          (recoveryLog past).attached = 1 ∧ (recoveryLog past).offers = [])
  | .recoverRunner _ _ =>
      (recoveryLog past).attached = 0 ∧ (recoveryLog past).offers = [] ∧
        (recoveryLog past).reconnected = false
  | .offerExitWatch accepted =>
      (recoveryLog past).attached = 1 ∧ (recoveryLog past).offers = [] ∧
        accepted = (recoveryLog past).reconnected
  | _ => True

/-- Once `RecoverRunner` was called, the gate has been offered. -/
def GateKept (past : List Answered) : Prop :=
  (∃ accepted, (⟨.offerExitWatch accepted, ()⟩ : Answered) ∈ past) ∨
    ∀ call ∈ past, call.op.kind ≠ .recover

/-- A call that the contract does not look at. -/
def Op.plain : Op → Bool
  | .writeState writer _ => !writer.decided && !writer.forced
  | .recoverRunner _ _ | .offerExitWatch _ => false
  | _ => true

/-- Nothing that the contract looks at has happened. -/
abbrev Uneventful (past : List Answered) : Prop := ∀ call ∈ past, call.op.plain = true

variable {past later : List Answered}

theorem Uneventful.cons {call : Answered} (before : Uneventful past)
    (plain : call.op.plain = true) : Uneventful (call :: past) :=
  List.forall_mem_cons.mpr ⟨plain, before⟩

theorem OverMark.extend {st : RunnerState} (above : OverMark past st)
    (extends_ : past <:+ later) : OverMark later st :=
  above.imp fun _ => And.imp_left fun member => extends_.subset member

theorem OverMark.same {st next : RunnerState} (above : OverMark past st) (id : next.id = st.id)
    (version : next.version = st.version) : OverMark past next := by
  obtain ⟨marked, member, named, above⟩ := above
  exact ⟨marked, member, id.trans named, version.trans above⟩

theorem GateKept.extend_offered
    (offered : ∃ accepted, (⟨.offerExitWatch accepted, ()⟩ : Answered) ∈ past)
    (extends_ : past <:+ later) : GateKept later :=
  .inl (offered.imp fun _ member => extends_.subset member)

theorem plain_permitted (past : List Answered) (op : Op) (plain : op.plain = true) :
    recoveryContract past op := by
  cases op with
  | writeState writer st =>
      simp only [Op.plain, Bool.and_eq_true, Bool.not_eq_true'] at plain
      refine ⟨by simp [plain.1], by simp [plain.2], ?_⟩
      rintro rfl
      cases plain.1
  | recoverRunner service input => cases plain
  | offerExitWatch accepted => cases plain
  | _ => trivial

theorem stopping_plain {op : Op} (among : stoppingKinds.contains op.kind = true) :
    op.plain = true := by
  cases op with
  | writeState writer st => cases writer <;> first | rfl | cases among
  | recoverRunner service input => cases among
  | offerExitWatch accepted => cases among
  | _ => rfl

theorem lookup_plain {op : Op} (among : [Kind.read, .resolve, .stop].contains op.kind = true) :
    op.plain = true := by
  cases op with
  | writeState writer st => cases writer <;> cases among
  | recoverRunner service input => cases among
  | offerExitWatch accepted => cases among
  | _ => rfl

/-- Plain calls leave the gate as it was at the start. -/
theorem plain_log (plain : Uneventful past) :
    (recoveryLog past).attached = 0 ∧ (recoveryLog past).offers = [] ∧
      (recoveryLog past).reconnected = false := by
  induction past with
  | nil => exact ⟨rfl, rfl, rfl⟩
  | cons call past ih =>
      have before := ih fun other member => plain other (List.mem_cons_of_mem _ member)
      have own := plain call List.mem_cons_self
      obtain ⟨op, resp⟩ := call
      cases op with
      | recoverRunner service input => cases own
      | offerExitWatch accepted => cases own
      | writeState writer st =>
          cases writer with
          | recoverReconnected => cases own
          | _ => exact before
      | readState id =>
          cases resp with
          | error err => exact before
          | ok st => exact before
      | _ => exact before

theorem plain_attached {op : Op} (plain : op.plain = true) : op.kind ≠ .recover := by
  intro attached
  cases op with
  | recoverRunner service input => cases plain
  | _ => cases attached

theorem plain_gate (plain : Uneventful past) : GateKept past :=
  .inr fun call member => plain_attached (plain call member)

end Contract

section Programs
variable {server : Server} {past : List Answered} {α : Type}

theorem withRunnerLock_guarded {post : α → List Answered → Prop} {id : String} {body : Action α}
    (inside : Keeps recoveryContract body
      (fun value later => post value (⟨.unlockRunner id, ()⟩ :: later))
      (⟨.lockRunner id, ()⟩ :: past)) :
    Keeps recoveryContract (withRunnerLock id body) post past := by
  refine keeps_call trivial fun _ => keeps_seq ?_
  exact keeps_mono (fun value later holds => keeps_call trivial fun _ => keeps_return holds) inside

theorem stopMarked_guarded {post : Except GoError (RunnerState × Bool) → List Answered → Prop}
    (id : String) (st : RunnerState) (job : WorkflowJob) (knows : Knows past st)
    (stopping : st.status = .stopping) (plain : Uneventful past)
    (done : ∀ answer later, Uneventful later →
      (∀ st recorded, answer = .ok (st, recorded) → occupied st.status = false) →
        post answer later) :
    Keeps recoveryContract (stopMarked server id st job) post past := by
  have vacant : Keeps (contract server) (stopMarked server id st job)
      (fun answer _ => ∀ st recorded, answer = .ok (st, recorded) → occupied st.status = false)
      past :=
    stopMarked_keeps id st job knows stopping fun _ _ _ vacant => vacant
  have quiet : Keeps recoveryContract (stopMarked server id st job)
      (fun _ later => Uneventful later) past := by
    refine keeps_calls (stopMarked_within server id st job)
      (fun _ op among => plain_permitted _ op (stopping_plain among)) fun _ later _ made => ?_
    intro call member
    rcases made call member with older | among
    · exact plain call older
    · exact stopping_plain among
  exact keeps_mono (fun answer later both => done answer later both.2 both.1)
    (keeps_both vacant quiet)

/-- What a stop does to the row is not decided by the recovery, and what it
leaves active it has only read. -/
theorem stopRunner_guarded {post : Except GoError (RunnerState × Bool) → List Answered → Prop}
    (id : String) (job : WorkflowJob) (plain : Uneventful past)
    (done : ∀ answer later, Uneventful later →
      (∀ st recorded, answer = .ok (st, recorded) → occupied st.status = true →
        (recoveryLog later).read = some (id, st)) → post answer later) :
    Keeps recoveryContract (stopRunner server id job) post past := by
  have locked : Uneventful (⟨.lockRunner id, ()⟩ :: past) := plain.cons rfl
  refine withRunnerLock_guarded (keeps_call trivial fun answer => ?_)
  cases answer with
  | error err => exact keeps_return (done _ _ ((locked.cons rfl).cons rfl) (by simp))
  | ok st =>
      have read : Uneventful (⟨.readState id, .ok st⟩ :: ⟨.lockRunner id, ()⟩ :: past) :=
        locked.cons rfl
      dsimp only
      split
      · refine keeps_return (done _ _ (read.cons rfl) ?_)
        rintro _ _ ⟨⟩ _
        rfl
      · split
        · rename_i completed
          have idle (next : RunnerState) (same : next.status = .completed) :
              occupied next.status = false := by
            rw [same]
            rfl
          split
          · refine keeps_call (plain_permitted _ _ rfl) fun written => ?_
            cases written with
            | error err => exact keeps_return (done _ _ ((read.cons rfl).cons rfl) (by simp))
            | ok _ =>
                refine keeps_return (done _ _ ((read.cons rfl).cons rfl) ?_)
                rintro _ _ ⟨⟩ active
                cases (idle _ completed).symm.trans active
          · refine keeps_return (done _ _ (read.cons rfl) ?_)
            rintro _ _ ⟨⟩ active
            cases (idle _ completed).symm.trans active
        · refine keeps_call (plain_permitted _ _ rfl) fun written => ?_
          cases written with
          | error err => exact keeps_return (done _ _ ((read.cons rfl).cons rfl) (by simp))
          | ok _ =>
              refine stopMarked_guarded id _ job (knows_write _ _) rfl (read.cons rfl) ?_
              intro answer later quiet vacant
              refine done _ _ (Uneventful.cons quiet rfl) fun next recorded same active => ?_
              cases (vacant next recorded same).symm.trans active

end Programs

section Forced
variable {server : Server} {past : List Answered} {post : Unit → List Answered → Prop}

theorem forced_permitted {writer : Writer} {st : RunnerState} (forced : writer.forced = true)
    (above : OverMark past st) : recoveryContract past (.writeState writer st) := by
  refine ⟨?_, fun _ => above, ?_⟩
  · intro decided
    cases writer <;> simp [Writer.forced, Writer.decided] at forced decided
  · rintro rfl
    cases forced

theorem writeForced_guarded {writer : Writer} {st : RunnerState} (forced : writer.forced = true)
    (above : OverMark past st) (done : Onward past post) :
    Keeps recoveryContract (writeStateOrLog writer st) post past :=
  keeps_call (forced_permitted forced above) fun _ =>
    keeps_return (done () _ (List.suffix_cons _ _))

theorem OverMark.request {st next : RunnerState} (above : OverMark past st)
    (same : SameRequest st next) : OverMark past next :=
  above.same same.id same.version

theorem forceCleanup_guarded (st : RunnerState) (stage reason message : String)
    (above : OverMark past st) (done : Onward past post) :
    Keeps recoveryContract (forceCleanup server st stage reason message) post past := by
  refine keeps_seq (cleanupGitHubRunner_keeps st (fun _ _ _ _ => trivial)
    fun cleanup later extends_ _ => ?_)
  have clock (now : Time) : past <:+ ⟨.now, now⟩ :: later := extends_.trans ⟨[_], rfl⟩
  cases cleanup with
  | none =>
      refine keeps_call trivial fun now => ?_
      refine writeForced_guarded rfl ?_ (done.extend (clock now))
      exact (above.extend (clock now)).request
        (forceFailedState_custody st stage reason message now).1
  | some cleanupErr =>
      refine keeps_call trivial fun now => ?_
      split
      · rename_i next scheduled
        obtain ⟨code, count, rfl⟩ := scheduled_stopping scheduled
        refine writeForced_guarded rfl ?_ (done.extend (clock now))
        exact (above.extend (clock now)).same rfl rfl
      · refine keeps_call trivial fun again => ?_
        have so_far : past <:+ ⟨.now, again⟩ :: ⟨.now, now⟩ :: later :=
          (clock now).trans ⟨[_], rfl⟩
        refine writeForced_guarded rfl ?_ (done.extend so_far)
        have unregistered : SameRequest st (forceUnregisteredState st message cleanupErr) :=
          (forceUnregisteredState_same st message cleanupErr).1
        exact (above.extend so_far).request
          (unregistered.trans (forceFailedState_custody _ _ _ _ _).1)

theorem forceMarked_guarded (id : String) (st : RunnerState) (stage reason message : String)
    (above : OverMark past st) (done : Onward past post) :
    Keeps recoveryContract (forceMarked server id st stage reason message) post past := by
  have cleanup (later : List Answered) (extends_ : past <:+ later) :
      Keeps recoveryContract (forceCleanup server st stage reason message) post later :=
    forceCleanup_guarded st stage reason message (above.extend extends_) (done.extend extends_)
  unfold forceMarked
  split
  · exact cleanup past List.suffix_rfl
  · refine keeps_seq (keeps_calls (stopSandboxWithTimeout_within id st.sandboxID st.processPID)
      (fun _ op among => plain_permitted _ op (lookup_plain among)) fun answer later extends_ _ => ?_)
    cases answer with
    | none => exact cleanup later extends_
    | some err =>
        dsimp only
        split
        · exact cleanup later extends_
        · exact writeForced_guarded rfl ((above.extend extends_).same rfl rfl)
            (done.extend extends_)

/-- A forced stop of the row that the recovery decided on. -/
theorem failAndStopRunnerVersion_guarded {asked : String} {base : RunnerState}
    (stage reason message : String) (decided : (recoveryLog past).basis = some (asked, base))
    (active : occupied base.status = true) (done : Onward past post) :
    Keeps recoveryContract
      (failAndStopRunnerVersion server base.id base.version stage reason message) post past := by
  refine withRunnerLock_guarded (keeps_call trivial fun answer => ?_)
  cases answer with
  | error err => exact keeps_return (done _ _ ⟨[_, _, _], rfl⟩)
  | ok st =>
      dsimp only
      split
      · exact keeps_return (done _ _ ⟨[_, _, _], rfl⟩)
      · rename_i current
        split
        · exact keeps_return (done _ _ ⟨[_, _, _], rfl⟩)
        · have same : base.version = 0 ∨ st.version = base.version := by
            by_cases unguarded : base.version = 0
            · exact .inl unguarded
            · exact .inr (by_contra fun other => current ⟨unguarded, other⟩)
          refine keeps_call ⟨fun _ => ⟨base, ⟨asked, decided⟩, active, st, rfl, rfl, rfl, same⟩,
            nofun, nofun⟩ fun written => ?_
          cases written with
          | error err => exact keeps_return (done _ _ ⟨[_, _, _, _], rfl⟩)
          | ok _ =>
              refine forceMarked_guarded _ _ stage reason message
                ⟨_, List.mem_cons_self, rfl, rfl⟩ ?_
              exact fun value later extends_ => done _ _ (List.IsSuffix.trans ⟨[_, _, _], rfl⟩
                (extends_.trans ⟨[_], rfl⟩))

end Forced

section Recoveries
variable {server : Server} {past : List Answered} {post : Option GoError → List Answered → Prop}
  {asked : String} {base : RunnerState}

theorem requeueInterruptedCreation_guarded
    (decided : (recoveryLog past).basis = some (asked, base)) (active : occupied base.status = true)
    (done : Onward past post) :
    Keeps recoveryContract (requeueInterruptedCreation base.id base.version) post past := by
  refine withRunnerLock_guarded (keeps_call trivial fun answer => ?_)
  cases answer with
  | error err => exact keeps_return (done _ _ ⟨[_, _, _], rfl⟩)
  | ok st =>
      dsimp only
      split
      · exact keeps_return (done _ _ ⟨[_, _, _], rfl⟩)
      · rename_i current
        simp only [not_or, not_not] at current
        refine keeps_call ⟨fun _ => ⟨base, ⟨asked, decided⟩, active, st, rfl, rfl, rfl,
          .inr current.1⟩, (fun forced => by cases forced), fun same => by cases same⟩
          fun written => ?_
        cases written with
        | error err => exact keeps_return (done _ _ ⟨[_, _, _, _], rfl⟩)
        | ok _ => exact keeps_return (done _ _ ⟨[_, _, _, _], rfl⟩)

/-- The gate is offered what the guarded write came to. -/
theorem reconnect_guarded (result : StartResult)
    (decided : (recoveryLog past).basis = some (asked, base)) (active : occupied base.status = true)
    (attached : (recoveryLog past).attached = 1) (unoffered : (recoveryLog past).offers = [])
    (unwritten : (recoveryLog past).reconnected = false)
    (done : ∀ value later, GateKept later → post value later) :
    Keeps recoveryContract (reconnect base.id base.version result) post past := by
  have finish (accepted : Bool) (err : Option GoError) (later : List Answered)
      (gate : (recoveryLog later).attached = 1 ∧ (recoveryLog later).offers = [] ∧
        accepted = (recoveryLog later).reconnected) :
      Keeps recoveryContract (do
        unlockRunner base.id
        ask (.offerExitWatch accepted)
        return err) post later :=
    keeps_call trivial fun _ => keeps_call gate fun _ =>
      keeps_return (done _ _ (.inl ⟨accepted, List.mem_cons_self⟩))
  refine keeps_call trivial fun _ => keeps_seq (keeps_call trivial fun answer => ?_)
  cases answer with
  | error err => exact keeps_return (finish _ _ _ ⟨attached, unoffered, unwritten.symm⟩)
  | ok latest =>
      dsimp only
      split
      · exact keeps_return (finish _ _ _ ⟨attached, unoffered, unwritten.symm⟩)
      · rename_i current
        simp only [not_or, not_not] at current
        refine keeps_call ⟨fun _ => ⟨base, ⟨asked, decided⟩, active, latest, rfl, rfl, rfl,
          .inr current.1⟩, (fun forced => by cases forced), fun _ => ⟨attached, unoffered⟩⟩
          fun written => ?_
        cases written with
        | error err => exact keeps_return (finish _ _ _ ⟨attached, unoffered, unwritten.symm⟩)
        | ok _ => exact keeps_return (finish _ _ _ ⟨attached, unoffered, rfl⟩)

theorem stopSandboxWithTimeout_guarded (id sandboxID : String) (pid : Nat)
    (done : ∀ answer later, past <:+ later →
      (recoveryLog later).basis = (recoveryLog past).basis → post answer later) :
    Keeps recoveryContract (stopSandboxWithTimeout id sandboxID pid) post past := by
  refine keeps_call trivial fun req => ?_
  cases req with
  | error err => exact keeps_return (done _ _ ⟨[_], rfl⟩ rfl)
  | ok req =>
      refine keeps_call trivial fun service => ?_
      cases service with
      | error err => exact keeps_return (done _ _ ⟨[_, _], rfl⟩ rfl)
      | ok service => exact keeps_last trivial fun answer => done _ _ ⟨[_, _, _], rfl⟩ rfl

theorem recoverFailed_guarded (job : Option WorkflowJob) (result : StartResult) (err : GoError)
    (decided : (recoveryLog past).basis = some (asked, base)) (active : occupied base.status = true)
    (attached : (recoveryLog past).attached = 1) (unoffered : (recoveryLog past).offers = [])
    (unwritten : (recoveryLog past).reconnected = false)
    (done : ∀ value later, GateKept later → post value later) :
    Keeps recoveryContract (recoverFailed server base base.version job result err) post past := by
  refine keeps_call ⟨attached, unoffered, unwritten.symm⟩ fun _ => ?_
  -- from here on the gate is offered, and nothing takes that back
  have onward : Onward (⟨.offerExitWatch false, ()⟩ :: past) post := fun value later extends_ =>
    done value later (GateKept.extend_offered ⟨false, List.mem_cons_self⟩ extends_)
  have failed (stage reason message : String) :
      Keeps recoveryContract (do
        failAndStopRunnerVersion server base.id base.version stage reason message
        return none) post (⟨.offerExitWatch false, ()⟩ :: past) :=
    keeps_seq (failAndStopRunnerVersion_guarded stage reason message decided active
      fun _ later extends_ => keeps_return (onward _ _ extends_))
  have requeued (later : List Answered)
      (extends_ : ⟨.offerExitWatch false, ()⟩ :: past <:+ later)
      (same : (recoveryLog later).basis = (recoveryLog past).basis) :
      Keeps recoveryContract (requeueInterruptedCreation base.id base.version) post later :=
    requeueInterruptedCreation_guarded (same.trans decided) active (onward.extend extends_)
  dsimp only
  split
  · exact failed _ _ _
  · split
    · exact requeued _ List.suffix_rfl rfl
    · split
      · exact failed _ _ _
      · split
        · refine keeps_seq (stopSandboxWithTimeout_guarded base.id _ _
            fun answer later extends_ same => ?_)
          cases answer with
          | none => exact requeued later extends_ same
          | some stopErr =>
              dsimp only
              split
              · exact requeued later extends_ same
              · exact keeps_return (onward _ _ extends_)
        · exact keeps_return (onward _ _ List.suffix_rfl)

/-- The recovery decides on the row it read last. -/
theorem recoverSandbox_guarded (job : Option WorkflowJob) (plain : Uneventful past)
    (read : (recoveryLog past).read = some (asked, base)) (active : occupied base.status = true)
    (done : ∀ value later, GateKept later → post value later) :
    Keeps recoveryContract (recoverSandbox server base base.version job) post past := by
  obtain ⟨unattached, unoffered, unwritten⟩ := plain_log plain
  refine keeps_call trivial fun now => ?_
  have clock : Uneventful (⟨.now, now⟩ :: past) := plain.cons rfl
  dsimp only
  split
  · -- the time is up, and no runner is attached
    have detached : ∀ stage reason message, Keeps (fun _ _ => True)
        (failAndStopRunnerVersion server base.id base.version stage reason message)
        (fun _ later => ∀ call ∈ later, call.op.kind ≠ .recover) (⟨.now, now⟩ :: past) := by
      intro stage reason message
      refine keeps_calls (failAndStopRunnerVersion_within server base.id base.version stage reason
        message) (fun _ _ _ => trivial) fun _ later _ made call member attached => ?_
      rcases made call member with older | among
      · exact plain_attached (clock call older) attached
      · rw [attached] at among
        cases among
    have kept (stage reason message : String) : Keeps recoveryContract
        (failAndStopRunnerVersion server base.id base.version stage reason message)
        (fun _ later => (∀ call ∈ later, call.op.kind ≠ .recover) ∧ True) (⟨.now, now⟩ :: past) :=
      keeps_both (detached stage reason message)
        (failAndStopRunnerVersion_guarded stage reason message read active fun _ _ _ => trivial)
    exact keeps_seq (keeps_mono (fun _ later both => keeps_return (done _ _ (.inr both.1)))
      (kept _ _ _))
  · refine keeps_call trivial fun request => ?_
    cases request with
    | error err => exact keeps_return (done _ _ (plain_gate (clock.cons rfl)))
    | ok req =>
        refine keeps_call trivial fun answer => ?_
        cases answer with
        | error err => exact keeps_return (done _ _ (plain_gate ((clock.cons rfl).cons rfl)))
        | ok service =>
            refine keeps_call ⟨unattached, unoffered, unwritten⟩ fun answer => ?_
            match answer with
            | (result, some err) =>
                exact recoverFailed_guarded job result err read active
                  (congrArg (· + 1) unattached) unoffered unwritten done
            | (result, none) =>
                exact reconnect_guarded result read active (congrArg (· + 1) unattached) unoffered
                  unwritten done

theorem workflowJobForRecovery_guarded
    {post : Except GoError (Option WorkflowJob) → List Answered → Prop} (st : RunnerState)
    (plain : Uneventful past)
    (done : ∀ job later, Uneventful later →
      (recoveryLog later).read = (recoveryLog past).read → post job later) :
    Keeps recoveryContract (workflowJobForRecovery st) post past := by
  unfold workflowJobForRecovery
  split
  · exact keeps_return (done _ _ plain rfl)
  · refine keeps_call trivial fun answer => ?_
    cases answer with
    | error err => exact keeps_return (done _ _ (plain.cons rfl) rfl)
    | ok job => exact keeps_return (done _ _ (plain.cons rfl) rfl)

/-- After a stop that was put off, the decision is based on the row as the stop
read it. -/
theorem recoverActiveRunner_guarded (plain : Uneventful past)
    (read : (recoveryLog past).read = some (asked, base)) (active : occupied base.status = true)
    (done : ∀ value later, GateKept later → post value later) :
    Keeps recoveryContract (recoverActiveRunner server base) post past := by
  refine keeps_seq (workflowJobForRecovery_guarded base plain fun job later quiet same => ?_)
  have recovered (job : Option WorkflowJob) :
      Keeps recoveryContract (recoverSandbox server base base.version job) post later :=
    recoverSandbox_guarded job quiet (same.trans read) active done
  match job with
  | .error _ => exact recovered none
  | .ok none => exact recovered none
  | .ok (some job) =>
      dsimp only
      split
      · refine keeps_seq (stopRunner_guarded base.id job quiet fun answer last still returns => ?_)
        match answer with
        | .error err => exact keeps_return (done _ _ (plain_gate still))
        | .ok (latest, recorded) =>
            dsimp only
            split
            · exact keeps_return (done _ _ (plain_gate still))
            · rename_i occupied_
              have active : occupied latest.status = true := occupied_of_not occupied_
              exact recoverSandbox_guarded (some job) still (returns latest recorded rfl active)
                active done
      · exact recovered (some job)

theorem recoverRunner_guarded (id : String)
    (done : ∀ value later, GateKept later → post value later) :
    Keeps recoveryContract (recoverRunner server id) post [] := by
  have locked : Uneventful [⟨.lockRunner id, ()⟩] := Uneventful.cons (List.forall_mem_nil _) rfl
  refine keeps_call trivial fun _ => keeps_call trivial fun answer => ?_
  cases answer with
  | error err =>
      refine keeps_call trivial fun _ => keeps_return (done _ _ (plain_gate ?_))
      exact (locked.cons rfl).cons rfl
  | ok st =>
      have read : Uneventful [⟨.readState id, .ok st⟩, ⟨.lockRunner id, ()⟩] := locked.cons rfl
      have ended (value : Option GoError) (before : List Answered) (quiet : Uneventful before) :
          Keeps recoveryContract (do unlockRunner id; return value) post before :=
        keeps_call trivial fun _ => keeps_return (done _ _ (plain_gate (quiet.cons rfl)))
      dsimp only
      split
      · exact ended _ _ read
      · exact ended _ _ read
      · refine keeps_call (plain_permitted _ _ rfl) fun written => ?_
        cases written with
        | error err => exact ended _ _ (read.cons rfl)
        | ok _ => exact ended _ _ (read.cons rfl)
      · refine keeps_call trivial fun _ => keeps_seq
          (stopRunner_guarded id {} (read.cons rfl) fun answer later quiet _ => ?_)
        cases answer with
        | error err => exact keeps_return (done _ _ (plain_gate quiet))
        | ok _ => exact keeps_return (done _ _ (plain_gate quiet))
      · rename_i creating
        exact keeps_call trivial fun _ => recoverActiveRunner_guarded (read.cons rfl) rfl
          (by rw [creating]; rfl) done
      · rename_i running
        exact keeps_call trivial fun _ => recoverActiveRunner_guarded (read.cons rfl) rfl
          (by rw [running]; rfl) done

end Recoveries

end Runnerd
