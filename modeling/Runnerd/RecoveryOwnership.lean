import Runnerd.Admissions
import Runnerd.RecoveryGuards

/-!
Recoveries among all the goroutines. Only a recovery attaches to a running
sandbox, so the watcher that an attachment starts waits for that recovery's
gate. Each write of a recovery finds the row as the decision or the recovery's
own mark left it, or finds nothing.
-/

namespace Runnerd

open GoText Interaction Interleaving

section Gates

/-- The gate is offered at most once, for one attachment, with what came of the
guarded write. -/
structure GateLog (log : RecoveryLog) : Prop where
  attached : log.attached ≤ 1
  offered : log.offers = [] ∨ (log.attached = 1 ∧ log.offers = [log.reconnected])

def Attached (past : List Answered) : Prop :=
  ∃ service input result, (⟨.recoverRunner service input, (result, none)⟩ : Answered) ∈ past

def Reconnected (past : List Answered) : Prop :=
  ∃ st, (⟨.writeState .recoverReconnected st, .ok ()⟩ : Answered) ∈ past

variable {past : List Answered}

theorem gate_noted {call : Answered} (before : GateLog (recoveryLog past))
    (permitted : recoveryContract past call.op) : GateLog (recoveryLog (call :: past)) := by
  obtain ⟨op, resp⟩ := call
  cases op with
  | readState id =>
      cases resp with
      | error err => exact before
      | ok st => exact ⟨before.attached, before.offered⟩
  | recoverRunner service input =>
      obtain ⟨unattached, unoffered, _⟩ := permitted
      constructor
      · change (recoveryLog past).attached + 1 ≤ 1
        omega
      · exact .inl unoffered
  | offerExitWatch accepted =>
      obtain ⟨attached, unoffered, same⟩ := permitted
      constructor
      · exact before.attached
      · right
        change (recoveryLog past).attached = 1 ∧
          accepted :: (recoveryLog past).offers = [(recoveryLog past).reconnected]
        rw [unoffered, same]
        exact ⟨attached, rfl⟩
  | writeState writer st =>
      cases writer with
      | recoverReconnected =>
          obtain ⟨_, unoffered⟩ := permitted.2.2 rfl
          cases resp with
          | error err => exact before
          | ok _ => exact ⟨before.attached, .inl unoffered⟩
      | _ => exact before
  | now => exact ⟨before.attached, before.offered⟩
  | _ => exact before

/-- What the contract permits, call by call, keeps the gate in order. -/
theorem gate_log (permitted : ∀ call earlier, call :: earlier <:+ past →
    recoveryContract earlier call.op) : GateLog (recoveryLog past) := by
  induction past with
  | nil =>
      constructor
      · exact Nat.zero_le 1
      · exact .inl rfl
  | cons call past ih =>
      refine gate_noted (ih fun other earlier suffix => ?_) (permitted call past List.suffix_rfl)
      exact permitted other earlier (suffix.trans (List.suffix_cons call past))

/-- A call that is not noted in a field leaves it as it was. -/
theorem offers_noted (accepted : Bool) : accepted ∈ (recoveryLog past).offers ↔
    (⟨.offerExitWatch accepted, ()⟩ : Answered) ∈ past := by
  induction past with
  | nil => simp [recoveryLog]
  | cons call past ih =>
      rw [List.mem_cons]
      obtain ⟨op, resp⟩ := call
      cases op with
      | offerExitWatch other =>
          change accepted ∈ other :: (recoveryLog past).offers ↔ _
          rw [List.mem_cons, ih]
          refine or_congr_left ⟨?_, ?_⟩
          · rintro rfl
            rfl
          · intro same
            cases same
            rfl
      | writeState writer st =>
          have noted : (recoveryLog (⟨.writeState writer st, resp⟩ :: past)).offers =
              (recoveryLog past).offers := by
            cases writer <;> cases resp <;> rfl
          rw [noted, ih]
          simp
      | readState id =>
          have noted : (recoveryLog (⟨.readState id, resp⟩ :: past)).offers =
              (recoveryLog past).offers := by
            cases resp <;> rfl
          rw [noted, ih]
          simp
      | _ => simp [recoveryLog, RecoveryLog.note, ih]

theorem reconnected_noted : (recoveryLog past).reconnected = true ↔ Reconnected past := by
  induction past with
  | nil => simp [recoveryLog, Reconnected]
  | cons call past ih =>
      have older (same : (recoveryLog (call :: past)).reconnected = (recoveryLog past).reconnected)
          (other : ∀ st, call ≠ ⟨.writeState .recoverReconnected st, .ok ()⟩) :
          (recoveryLog (call :: past)).reconnected = true ↔ Reconnected (call :: past) := by
        rw [same, ih, Reconnected, Reconnected]
        refine exists_congr fun st => ?_
        rw [List.mem_cons]
        exact (or_iff_right fun same => other st same.symm).symm
      obtain ⟨op, resp⟩ := call
      cases op with
      | writeState writer st =>
          cases resp with
          | error err => exact older (by cases writer <;> rfl) (by simp)
          | ok _ =>
              by_cases reconnects : writer = .recoverReconnected
              · subst reconnects
                exact iff_of_true rfl ⟨st, List.mem_cons_self⟩
              · refine older ?_ (by simp [reconnects])
                cases writer with
                | recoverReconnected => exact absurd rfl reconnects
                | _ => rfl
      | readState id => exact older (by cases resp <;> rfl) (by simp)
      | _ => exact older rfl (by simp)

theorem attached_noted (attached : Attached past) : 0 < (recoveryLog past).attached := by
  obtain ⟨service, input, result, member⟩ := attached
  induction past with
  | nil => cases member
  | cons call past ih =>
      have counts : (recoveryLog past).attached ≤ (recoveryLog (call :: past)).attached := by
        obtain ⟨op, resp⟩ := call
        cases op with
        | recoverRunner service input => exact Nat.le_succ _
        | readState id => cases resp <;> exact le_rfl
        | writeState writer st => cases writer <;> cases resp <;> exact le_rfl
        | _ => exact le_rfl
      rcases List.mem_cons.mp member with rfl | older
      · exact Nat.succ_pos _
      · exact (ih older).trans_le counts

theorem unattached_noted (detached : ∀ call ∈ past, call.op.kind ≠ .recover) :
    (recoveryLog past).attached = 0 := by
  induction past with
  | nil => rfl
  | cons call past ih =>
      have before := ih fun other member => detached other (List.mem_cons_of_mem _ member)
      obtain ⟨op, resp⟩ := call
      cases op with
      | recoverRunner service input => exact absurd rfl (detached _ List.mem_cons_self)
      | readState id => cases resp <;> exact before
      | writeState writer st => cases writer <;> cases resp <;> exact before
      | _ => exact before

/-- The row last read was read, and so was the one of the decision. -/
theorem rows_noted {id : String} {st : RunnerState}
    (noted : (recoveryLog past).read = some (id, st) ∨ (recoveryLog past).basis = some (id, st)) :
    (⟨.readState id, .ok st⟩ : Answered) ∈ past := by
  induction past with
  | nil => rcases noted with noted | noted <;> cases noted
  | cons call past ih =>
      have older (same : (recoveryLog (call :: past)).read = (recoveryLog past).read ∧
          (recoveryLog (call :: past)).basis = (recoveryLog past).basis) :
          (⟨.readState id, .ok st⟩ : Answered) ∈ call :: past := by
        rw [same.1, same.2] at noted
        exact List.mem_cons_of_mem _ (ih noted)
      obtain ⟨op, resp⟩ := call
      cases op with
      | readState asked =>
          cases resp with
          | error err => exact older ⟨rfl, rfl⟩
          | ok found =>
              rcases noted with noted | noted
              · cases noted
                exact List.mem_cons_self
              · exact List.mem_cons_of_mem _ (ih (.inr noted))
      | now =>
          have noted : (recoveryLog past).read = some (id, st) := noted.elim (fun h => h) fun h => h
          exact List.mem_cons_of_mem _ (ih (.inl noted))
      | writeState writer written =>
          refine older ⟨?_, ?_⟩
          · cases writer <;> cases resp <;> rfl
          · cases writer <;> cases resp <;> rfl
      | _ => exact older ⟨rfl, rfl⟩

end Gates

section Tasks
variable (server : Server)

abbrev Detached {α : Type} (program : Action α) : Prop :=
  Calls (fun op => op.kind ≠ .recover) program

theorem within_detached {α : Type} {kinds : List Kind} {program : Action α}
    (within : Within kinds program) (none : kinds.contains .recover = false) :
    Detached program := by
  refine calls_widen within fun op member attaches => ?_
  rw [attaches, none] at member
  cases member

theorem ordinary_detached {α : Type} {program : Action α} (calls : Ordinary program) :
    Detached program := by
  refine calls_widen calls fun op ordinary => ?_
  cases op with
  | recoverRunner service input => cases ordinary
  | _ => simp [Op.kind]

/-- Only a recovery attaches to a running sandbox. -/
theorem task_detached (task : Task) (other : ∀ id, task ≠ .recover id) :
    Detached (taskBody server task) := by
  have settled {program : Action Unit} (calls : Ordinary program) : Detached program :=
    ordinary_detached calls
  cases task with
  | recover id => exact absurd rfl (other id)
  | workflowJob event =>
      simp only [taskBody, handleWorkflowJob]
      cases event.action with
      | queued =>
          refine calls_seq ?_ fun _ => calls_return
          exact within_detached (enqueueWorkflowJob_within server _ _ _ _) rfl
      | inProgress => exact within_detached (workflowJobInProgress_within _) rfl
      | completed =>
          refine calls_seq (within_detached (completedWorkflowJobStopID_within _) rfl) fun stopID => ?_
          split
          · exact calls_return
          · refine calls_seq (ordinary_detached (stopRunner_ordinary server _ _)) fun answer => ?_
            split
            · exact calls_last (by simp [Op.kind])
            · exact calls_return
      | other => exact calls_return
  | workflowRun event => exact within_detached (handleWorkflowRunWebhook_within server event) rfl
  | createRunner input newID => exact within_detached (handleCreateRunner_within server input newID) rfl
  | retryRunner id => exact settled (calls_call rfl fun now => calls_call rfl fun _ => calls_return)
  | deleteRunner id =>
      exact settled (calls_seq (stopRunner_ordinary server id {}) fun _ => calls_return)
  | runnerStdout id text => exact within_detached (appendRunnerStdout_within _ _) rfl
  | processQueuedRequests rounds => exact settled (processQueuedRequests_ordinary server rounds)
  | sweepOnce => exact settled (sweepOnce_ordinary server)
  | reconcileOnce rounds => exact settled (reconcileOnce_ordinary server rounds)
  | startRunner claimed =>
      refine calls_seq ?_ fun _ => calls_last (by simp [Op.kind])
      exact within_detached (startRunner_within server _ _) rfl
  | exitWatch id sandboxID owner =>
      refine calls_call (by simp [Op.kind]) fun answer => calls_seq ?_ fun _ => calls_last (by simp [Op.kind])
      exact within_detached (runnerExited_within server id _ _) rfl
  | recoveredExitWatch id sandboxID owner =>
      refine calls_call (by simp [Op.kind]) fun answer => calls_call (by simp [Op.kind]) fun accepted => ?_
      cases accepted with
      | true => exact within_detached (runnerExited_within server id _ _) rfl
      | false => exact calls_return

def recoveryRule : Task → List Answered → Op → Prop
  | .recover _ => recoveryContract
  | _ => fun _ op => op.kind ≠ .recover

def gateOwed : Task → List Answered → Prop
  | .recover _ => GateKept
  | _ => fun _ => True

theorem task_recovers (task : Task) :
    Keeps (recoveryRule task) (taskBody server task) (fun _ later => gateOwed task later) [] := by
  have detached (other : ∀ id, task ≠ .recover id) :
      Keeps (fun _ op => op.kind ≠ .recover) (taskBody server task) (fun _ _ => True) [] :=
    keeps_calls (task_detached server task other) (fun _ _ apart => apart) fun _ _ _ _ => True.intro
  cases task with
  | recover id => exact keeps_seq (recoverRunner_guarded id fun _ _ kept => keeps_return kept)
  | _ => exact detached fun _ same => by cases same

end Tasks

section Runs
variable {server : Server} {condition : RunnerWorld → RunnerMove → Prop} {table : RequestTable}
  {world : RunnerWorld} {tid : Nat} {thread : RunnerThread}

theorem task_ruled (task : Task) :
    Keeps (recoveryRule task) (taskBody server task) (fun _ _ => True) [] :=
  keeps_mono (fun _ _ _ => True.intro) (task_recovers server task)

theorem rule_reachable (reaches : (machine server).Reaches condition (opened table) world)
    (live : world.threads[tid]? = some thread) {call : Answered} {earlier : List Answered}
    (suffix : call :: earlier <:+ thread.past) : recoveryRule thread.task earlier call.op := by
  have tasks (task : Task) :
      Keeps (recoveryRule task) ((machine server).body task) (fun _ _ => True) [] :=
    task_ruled task
  exact Machine.kept_past tasks rfl reaches live suffix

theorem rule_permits {choice : Choice} {op : Op} {resp : op.Resp} {rest : Action Unit}
    {state : ServerState} (reaches : (machine server).Reaches condition (opened table) world)
    (acts : (machine server).Acts world tid choice thread op resp rest state) :
    recoveryRule thread.task thread.past op := by
  have initial : Machine.Obeys recoveryRule (opened table) := by
    constructor <;> intro tid thread live <;> cases live
  exact (Machine.obeys_reachable task_ruled initial reaches).permits acts

/-- What a recovery remembers was permitted, call by call. -/
theorem recovery_permitted (reaches : (machine server).Reaches condition (opened table) world)
    (live : world.threads[tid]? = some thread) {id : String} (recovers : thread.task = .recover id) :
    ∀ call earlier, call :: earlier <:+ thread.past → recoveryContract earlier call.op := by
  intro call earlier suffix
  have permitted := rule_reachable reaches live suffix
  rw [recovers] at permitted
  exact permitted

/-- Who attaches is a recovery that has not offered its gate. -/
theorem attaches_recovery {service : SandboxService} {input : RecoverInput} {past : List Answered}
    {task : Task} (rule : recoveryRule task past (.recoverRunner service input)) :
    ∃ id, task = .recover id ∧ ∀ accepted, (⟨.offerExitWatch accepted, ()⟩ : Answered) ∉ past := by
  cases task with
  | recover id =>
      refine ⟨id, rfl, fun accepted offered => ?_⟩
      rw [← offers_noted, rule.2.1] at offered
      cases offered
  | _ => exact absurd rfl rule

end Runs

section Offers

/-- The recovery of this index offered its gate. -/
def OfferedBy (world : RunnerWorld) (owner : Nat) (accepted : Bool) : Prop :=
  ∃ keeper : RunnerThread, world.threads[owner]? = some keeper ∧
    (⟨.offerExitWatch accepted, ()⟩ : Answered) ∈ keeper.past

/-- The gates that are filled are those that recoveries have offered. Those of a
process that stopped are gone, with the watchers that waited for them. -/
structure Gated (world : RunnerWorld) : Prop where
  owned : ∀ (tid : Nat) (watcher : RunnerThread) (id sandboxID : String) (owner : Nat),
    world.threads[tid]? = some watcher → watcher.task = .recoveredExitWatch id sandboxID owner →
      ∃ (keeper : RunnerThread) (asked : String), world.threads[owner]? = some keeper ∧
        keeper.task = .recover asked ∧ Attached keeper.past
  kept : ∀ (tid : Nat) (watcher : RunnerThread) (id sandboxID : String) (owner : Nat),
    world.threads[tid]? = some watcher → watcher.task = .recoveredExitWatch id sandboxID owner →
      watcher.rest.ended = false → ∀ accepted, OfferedBy world owner accepted →
        (owner, accepted) ∈ world.state.offers
  filled : ∀ owner accepted, (owner, accepted) ∈ world.state.offers →
    OfferedBy world owner accepted
  heard : ∀ (tid : Nat) (watcher : RunnerThread) (owner : Nat) (accepted : Bool),
    world.threads[tid]? = some watcher →
      (⟨.exitWatchAccepted owner, accepted⟩ : Answered) ∈ watcher.past →
        OfferedBy world owner accepted

variable {server : Server} {condition : RunnerWorld → RunnerMove → Prop} {table : RequestTable}
  {world : RunnerWorld} {tid : Nat} {choice : Choice} {thread : RunnerThread} {op : Op}
  {resp : op.Resp} {rest : Action Unit} {state : ServerState}

/-- A call fills a gate only as an offer, and empties none. -/
theorem offers_answered (answer : respond server tid choice world.state op = some (resp, state)) :
    (state.offers = world.state.offers ∧ ∀ accepted, op ≠ .offerExitWatch accepted) ∨
      ∃ accepted, op = .offerExitWatch accepted ∧
        state.offers = (tid, accepted) :: world.state.offers := by
  have viaStore {α : Type} {answer : Except GoError α}
      {operation : RequestTable → Except GoError α × RequestTable}
      (answered : stored choice world.state operation = some (answer, state)) :
      state.offers = world.state.offers := by
    rcases stored_cases answered with ⟨err, _, rfl⟩ | ⟨table, _, rfl⟩ <;> rfl
  cases op with
  | offerExitWatch accepted =>
      cases answer
      exact .inr ⟨accepted, rfl, rfl⟩
  | lockRunner id =>
      simp only [respond] at answer
      split at answer
      · cases answer
      · cases answer
        exact .inl ⟨rfl, fun _ same => by cases same⟩
  | lockAdmission =>
      simp only [respond] at answer
      split at answer
      · cases answer
      · cases answer
        exact .inl ⟨rfl, fun _ same => by cases same⟩
  | acquireSlot =>
      simp only [respond] at answer
      split at answer <;> cases answer <;> exact .inl ⟨rfl, fun _ same => by cases same⟩
  | awaitExit =>
      simp only [respond] at answer
      split at answer
      · cases answer
        exact .inl ⟨rfl, fun _ same => by cases same⟩
      · cases answer
  | exitWatchAccepted owner =>
      simp only [respond, Option.map_eq_some_iff] at answer
      obtain ⟨accepted, -, same⟩ := answer
      cases same
      exact .inl ⟨rfl, fun _ same => by cases same⟩
  | readState _ | readRequest _ | writeState _ _ | claimNextRunnable _ _ _ | releaseLease _ _
  | retryRequest _ _ | createRequest _ _ _ _ _ _ | inFlightCount | inFlightCountForProfile _
  | getProfile _ | matchProfile _ _ | listActiveStates | listMismatchedCompletedStates _
  | listFailedWorkflowJobStates _ =>
      simp only [respond, loaded] at answer
      exact .inl ⟨viaStore answer, fun _ same => by cases same⟩
  | _ =>
      cases answer
      exact .inl ⟨rfl, fun _ same => by cases same⟩

/-- A gate gives what it was filled with. -/
theorem gate_answered {owner : Nat} {accepted : Bool}
    (acts : (machine server).Acts world tid choice thread (.exitWatchAccepted owner) accepted rest
      state) : (owner, accepted) ∈ world.state.offers := by
  have answer : respond server tid choice world.state (.exitWatchAccepted owner) =
      some (accepted, state) := acts.answer
  simp only [respond, Option.map_eq_some_iff, Prod.mk.injEq] at answer
  obtain ⟨found, looked, same, _⟩ := answer
  obtain ⟨before, later, split, _⟩ := List.lookup_eq_some_iff.mp looked
  rw [split, ← same]
  simp

theorem OfferedBy.after {after : RunnerWorld} {move : RunnerMove} {owner : Nat} {accepted : Bool}
    (offered : OfferedBy world owner accepted)
    (stepped : (machine server).step world move = some after) : OfferedBy after owner accepted := by
  obtain ⟨keeper, live, member⟩ := offered
  obtain ⟨next, later, continues⟩ := Machine.thread_continues stepped live
  exact ⟨next, later, continues.past.subset member⟩

/-- A call offers a gate that was not offered before only as its own. -/
theorem OfferedBy.before (acts : (machine server).Acts world tid choice thread op resp rest state)
    {owner : Nat} {accepted : Bool}
    (offered : OfferedBy ((machine server).acted world tid thread op resp rest state) owner accepted) :
    OfferedBy world owner accepted ∨ (owner = tid ∧ op = .offerExitWatch accepted) := by
  obtain ⟨keeper, live, member⟩ := offered
  rcases Machine.acted_thread live with ⟨rfl, rfl⟩ | ⟨_, live⟩ | ⟨task, _, rfl⟩
  · rcases List.mem_cons.mp member with last | older
    · cases last
      exact .inr ⟨rfl, rfl⟩
    · exact .inl ⟨thread, acts.live, older⟩
  · exact .inl ⟨keeper, live, member⟩
  · cases member

theorem spawned_watcher {id sandboxID : String} {owner : Nat}
    (spawn : Task.recoveredExitWatch id sandboxID owner ∈ spawned tid op resp) :
    owner = tid ∧ ∃ service input result,
      (⟨op, resp⟩ : Answered) = ⟨.recoverRunner service input, (result, none)⟩ := by
  cases op with
  | recoverRunner service input =>
      obtain ⟨result, _ | err⟩ := resp
      · simp only [spawned, List.mem_singleton] at spawn
        cases spawn
        exact ⟨rfl, service, input, result, rfl⟩
      · cases spawn
  | startRunner service input =>
      cases resp with
      | error err => cases spawn
      | ok result =>
          simp only [spawned, List.mem_singleton] at spawn
          cases spawn
  | goStartRunner claimed =>
      simp only [spawned, List.mem_singleton] at spawn
      cases spawn
  | _ => cases spawn

/-- What a call fills is what it offers. -/
theorem filled_after (acts : (machine server).Acts world tid choice thread op resp rest state)
    {owner : Nat} {accepted : Bool} : (owner, accepted) ∈ state.offers ↔
      (owner, accepted) ∈ world.state.offers ∨ (owner = tid ∧ op = .offerExitWatch accepted) := by
  rcases offers_answered acts.answer with ⟨same, other⟩ | ⟨offered, rfl, same⟩
  · rw [same]
    exact (or_iff_left fun own => other accepted own.2).symm
  · rw [same, List.mem_cons, Prod.mk.injEq, Op.offerExitWatch.injEq, or_comm]
    exact or_congr_right (and_congr_right fun _ => eq_comm)

theorem gated_step (reaches : (machine server).Reaches condition (opened table) world)
    (gated : Gated world) {move : RunnerMove} {after : RunnerWorld}
    (stepped : (machine server).step world move = some after) : Gated after := by
  have same_keeper {owner : Nat} {keeper : RunnerThread} {asked : String}
      (present : world.threads[owner]? = some keeper) (recovers : keeper.task = .recover asked)
      (attached : Attached keeper.past) : ∃ (keeper : RunnerThread) (asked : String),
        after.threads[owner]? = some keeper ∧ keeper.task = .recover asked ∧
          Attached keeper.past := by
    obtain ⟨next, later, continues⟩ := Machine.thread_continues stepped present
    obtain ⟨service, input, result, member⟩ := attached
    exact ⟨next, asked, later, continues.task.trans recovers,
      service, input, result, continues.past.subset member⟩
  obtain ⟨tid, choice, thread, op, resp, rest, state, rfl, acts, rfl⟩ | ⟨task, rfl, entered, rfl⟩ |
    ⟨rfl, rfl⟩ := (machine server).step_cases stepped
  · -- a call of a thread; what it spawns may be the watcher of an attached recovery
    constructor
    · intro other watcher id sandboxID owner live task
      rcases Machine.acted_thread live with ⟨rfl, rfl⟩ | ⟨_, live⟩ | ⟨started, spawn, rfl⟩
      · obtain ⟨keeper, asked, present, recovers, attached⟩ := gated.owned _ _ _ _ _ acts.live task
        exact same_keeper present recovers attached
      · obtain ⟨keeper, asked, present, recovers, attached⟩ := gated.owned _ _ _ _ _ live task
        exact same_keeper present recovers attached
      · cases task
        obtain ⟨rfl, service, input, result, called⟩ := spawned_watcher spawn
        cases called
        obtain ⟨asked, recovers, _⟩ := attaches_recovery (rule_permits reaches acts)
        exact ⟨_, asked, acts.remembered, recovers, service, input, result, List.mem_cons_self⟩
    · intro other watcher id sandboxID owner live task waits accepted offered
      refine (filled_after acts).mpr ((offered.before acts).imp_left fun earlier => ?_)
      rcases Machine.acted_thread live with ⟨rfl, rfl⟩ | ⟨_, live⟩ | ⟨started, spawn, rfl⟩
      · obtain ⟨answers, next, _⟩ := acts.next
        exact gated.kept _ _ _ _ _ acts.live task (by rw [next]; rfl) accepted earlier
      · exact gated.kept _ _ _ _ _ live task waits accepted earlier
      · -- a recovery that attaches has not offered its gate yet
        cases task
        obtain ⟨rfl, service, input, result, called⟩ := spawned_watcher spawn
        cases called
        obtain ⟨asked, recovers, unoffered⟩ := attaches_recovery (rule_permits reaches acts)
        obtain ⟨keeper, present, member⟩ := earlier
        cases acts.live.symm.trans present
        exact absurd member (unoffered accepted)
    · intro owner accepted filled
      rcases (filled_after acts).mp filled with older | ⟨rfl, rfl⟩
      · exact (gated.filled owner accepted older).after stepped
      · exact ⟨_, acts.remembered, List.mem_cons_self⟩
    · intro other watcher owner accepted live member
      rcases Machine.acted_thread live with ⟨rfl, rfl⟩ | ⟨_, live⟩ | ⟨started, spawn, rfl⟩
      · rcases List.mem_cons.mp member with last | older
        · cases last
          exact (gated.filled owner accepted (gate_answered acts)).after stepped
        · exact (gated.heard _ _ owner accepted acts.live older).after stepped
      · exact (gated.heard _ _ owner accepted live member).after stepped
      · cases member
  · -- a thread that enters is no watcher
    constructor
    · intro other watcher id sandboxID owner live task
      rcases Machine.started_thread live with live | rfl
      · obtain ⟨keeper, asked, present, recovers, attached⟩ := gated.owned _ _ _ _ _ live task
        exact same_keeper present recovers attached
      · cases task
        cases entered
    · intro other watcher id sandboxID owner live task waits accepted offered
      rcases Machine.started_thread live with live | rfl
      · obtain ⟨keeper, present, member⟩ := offered
        rcases Machine.started_thread present with present | rfl
        · exact gated.kept _ _ _ _ _ live task waits accepted ⟨keeper, present, member⟩
        · cases member
      · cases task
        cases entered
    · intro owner accepted filled
      exact (gated.filled owner accepted filled).after stepped
    · intro other watcher owner accepted live member
      rcases Machine.started_thread live with live | rfl
      · exact (gated.heard _ _ owner accepted live member).after stepped
      · cases member
  · -- a crash ends every thread and forgets the gates
    constructor
    · intro other watcher id sandboxID owner live task
      obtain ⟨old, present, rfl⟩ := Machine.halted_thread live
      obtain ⟨keeper, asked, present, recovers, attached⟩ := gated.owned _ _ _ _ _ present task
      exact same_keeper present recovers attached
    · intro other watcher id sandboxID owner live task waits
      obtain ⟨old, _, rfl⟩ := Machine.halted_thread live
      cases waits
    · intro owner accepted filled
      cases filled
    · intro other watcher owner accepted live member
      obtain ⟨old, present, rfl⟩ := Machine.halted_thread live
      exact (gated.heard _ _ owner accepted present member).after stepped

theorem gated_reachable (reaches : (machine server).Reaches condition (opened table) world) :
    Gated world := by
  induction reaches with
  | refl =>
      constructor
      · intro tid watcher id sandboxID owner live
        cases live
      · intro tid watcher id sandboxID owner live
        cases live
      · intro owner accepted filled
        cases filled
      · intro tid watcher owner accepted live
        cases live
  | step move before _ stepped ih => exact gated_step before ih stepped

end Offers

section Versions
variable {server : Server} {condition : RunnerWorld → RunnerMove → Prop} {world : RunnerWorld}

/-- A row gets its first version with its first write, and no row is added as
creating or running. -/
theorem occupied_versioned (reaches : (machine server).Reaches condition (opened .empty) world) :
    ∀ row ∈ world.state.table.rows, occupied row.status = true → row.version ≠ 0 := by
  refine rows_invariant (fun _ row => occupied row.status = true → row.version ≠ 0) ?_ ?_ ?_ ?_ reaches
  · intro event trace row known
    exact known
  · intro row member
    cases member
  · intro world tid choice thread op resp state row _ turn _ added active
    cases added with
    | created =>
        rcases turn.permits with ⟨rfl, rfl, _⟩ | ⟨rfl, rfl⟩
        · cases active
        · cases active
  · intro world tid choice thread op resp state row next _ _ _ _ known change active
    cases change with
    | written matched knows edit same => simp [stateUpdates]
    | claimed free => simp [claimUpdates]
    | released matched => exact known active
    | retried allowed named => simp [retryUpdates]

/-- A row that was read as creating or running had a version. -/
theorem reads_versioned (reaches : (machine server).Reaches condition (opened .empty) world) :
    ∀ event ∈ world.trace, ∀ id base, event.call = ⟨.readState id, .ok base⟩ →
      occupied base.status = true → base.version ≠ 0 := by
  induction reaches with
  | refl =>
      intro event member
      cases member
  | step move before _ stepped ih =>
      obtain ⟨tid, choice, thread, op, resp, rest, state, rfl, acts, rfl⟩ | ⟨task, rfl, _, rfl⟩ |
        ⟨rfl, rfl⟩ := (machine server).step_cases stepped
      · intro event member id base called active
        rcases List.mem_cons.mp member with rfl | older
        · cases called
          have turn := turn_of_acts (coherent_reachable before) acts
          obtain ⟨_, row, here, rfl, _⟩ := readState_answered turn.answer
          exact occupied_versioned before row here active
        · exact ih event older id base called active
      · exact ih
      · exact ih

end Versions

section Writes

/-- The row is at the version of the row that the recovery decided on. -/
def AtDecision (past : List Answered) (row : RunnerRequestRecord) : Prop :=
  ∃ asked base, (recoveryLog past).basis = some (asked, base) ∧ occupied base.status = true ∧
    row.id = base.id ∧ row.version = base.version

/-- The row is as the recovery left it when it marked it at its decision. -/
def AtOwnMark (past : List Answered) (row : RunnerRequestRecord) : Prop :=
  ∃ marked earlier asked base,
    (⟨.writeState .forceStopping marked, .ok ()⟩ : Answered) :: earlier <:+ past ∧
    (recoveryLog earlier).basis = some (asked, base) ∧ occupied base.status = true ∧
    row.id = base.id ∧ row.version = base.version + 1

variable {server : Server} {condition : RunnerWorld → RunnerMove → Prop} {world : RunnerWorld}
  {tid : Nat} {choice : Choice} {thread : RunnerThread} {rest : Action Unit} {state : ServerState}
  {writer : Writer} {st : RunnerState} {resp : (Op.writeState writer st).Resp}
  {row : RunnerRequestRecord}

/-- A write changes the row that it names at the version that it carries. -/
theorem write_changes (coherent : Coherent server world)
    (acts : (machine server).Acts world tid choice thread (.writeState writer st) resp rest state)
    (here : row ∈ world.state.table.rows) (changed : row ∉ state.table.rows) :
    row.id = sanitizeID st.id ∧ row.version = st.version := by
  have turn := turn_of_acts coherent acts
  rcases turn.rows with ⟨edit, rows, changes⟩ | ⟨added, _, rows⟩
  · rcases changes row here with same | change
    · refine absurd ?_ changed
      rw [rows, ← same]
      exact List.mem_map_of_mem here
    · generalize edit row = next at change
      cases change with
      | written matched knows edit same =>
          simpa only [versionMatches, Bool.and_eq_true, beq_iff_eq] using matched
  · refine absurd ?_ changed
    rw [rows]
    exact List.mem_append_left _ here

/-- What a recovery decided on has a sanitized id and a version. -/
theorem basis_versioned (reaches : (machine server).Reaches condition (opened .empty) world)
    (live : world.threads[tid]? = some thread) {earlier : List Answered}
    (before : earlier <:+ thread.past) {asked : String} {base : RunnerState}
    (decided : (recoveryLog earlier).basis = some (asked, base))
    (active : occupied base.status = true) :
    base.id = sanitizeID asked ∧ base.version ≠ 0 := by
  have coherent := coherent_reachable reaches
  have read := before.subset (rows_noted (.inr decided))
  have recorded := coherent.obeys.recorded tid thread live _ read
  constructor
  · have honest := coherent.honest _ recorded
    exact honest
  · exact reads_versioned reaches _ recorded asked base rfl active

/-- A record that the recovery owns goes over its row at the version of the
decision. -/
theorem owned_row (reaches : (machine server).Reaches condition (opened .empty) world)
    (live : world.threads[tid]? = some thread) {earlier : List Answered}
    (before : earlier <:+ thread.past) {base st : RunnerState}
    (owns : Owns (recoveryLog earlier) base st) :
    sanitizeID st.id = base.id ∧ st.version = base.version := by
  obtain ⟨asked, decided⟩ := owns.decided
  obtain ⟨latest, read, sameID, sameVersion, guarded⟩ := owns.latest
  obtain ⟨named, versioned⟩ := basis_versioned reaches live before decided owns.active
  have coherent := coherent_reachable reaches
  have reread : latest.id = sanitizeID base.id := by
    have honest := coherent.honest _ (coherent.obeys.recorded tid thread live _
      (before.subset (rows_noted (.inl read))))
    exact honest
  constructor
  · rw [sameID, reread, named, sanitizeID_idem, sanitizeID_idem]
  · exact sameVersion.trans (guarded.resolve_left versioned)

theorem decided_owned (reaches : (machine server).Reaches condition (opened .empty) world)
    (acts : (machine server).Acts world tid choice thread (.writeState writer st) resp rest state)
    {id : String} (recovers : thread.task = .recover id) (decided : writer.decided = true)
    (here : row ∈ world.state.table.rows) (changed : row ∉ state.table.rows) :
    AtDecision thread.past row := by
  have permitted := rule_permits reaches acts
  rw [recovers] at permitted
  obtain ⟨base, owns⟩ := permitted.1 decided
  obtain ⟨sameID, sameVersion⟩ := owned_row reaches acts.live List.suffix_rfl owns
  obtain ⟨key, version⟩ := write_changes (coherent_reachable reaches) acts here changed
  obtain ⟨asked, basis⟩ := owns.decided
  exact ⟨asked, base, basis, owns.active, key.trans sameID, version.trans sameVersion⟩

theorem forced_owned (reaches : (machine server).Reaches condition (opened .empty) world)
    (acts : (machine server).Acts world tid choice thread (.writeState writer st) resp rest state)
    {id : String} (recovers : thread.task = .recover id) (forced : writer.forced = true)
    (here : row ∈ world.state.table.rows) (changed : row ∉ state.table.rows) :
    AtOwnMark thread.past row := by
  have permitted := rule_permits reaches acts
  rw [recovers] at permitted
  obtain ⟨marked, member, sameID, sameVersion⟩ := permitted.2.1 forced
  obtain ⟨later, earlier, split⟩ := List.append_of_mem member
  have suffix : (⟨.writeState .forceStopping marked, .ok ()⟩ : Answered) :: earlier <:+ thread.past :=
    ⟨later, split.symm⟩
  have marks := recovery_permitted reaches acts.live recovers _ earlier suffix
  obtain ⟨base, owns⟩ := marks.1 rfl
  have before : earlier <:+ thread.past := (List.suffix_cons _ earlier).trans suffix
  obtain ⟨markedID, markedVersion⟩ := owned_row reaches acts.live before owns
  obtain ⟨key, version⟩ := write_changes (coherent_reachable reaches) acts here changed
  obtain ⟨asked, basis⟩ := owns.decided
  refine ⟨marked, earlier, asked, base, suffix, basis, owns.active, ?_, ?_⟩
  · rw [key, sameID, markedID]
  · rw [version, sameVersion, markedVersion]

end Writes

section Watchers

/-- What is left of a watcher of a recovered sandbox. Once the gate has answered,
it is in `runnerExited` when the guarded write was made, and done otherwise. -/
inductive Watches (server : Server) (id sandboxID : String) (owner : Nat) (reconnected : Prop) :
    List Answered → Action Unit → Prop where
  | waits : Watches server id sandboxID owner reconnected []
      (recoveredExitWatch server id sandboxID owner)
  | exited (ended : ExitResult × Option GoError) :
      Watches server id sandboxID owner reconnected [⟨.awaitProcess sandboxID, ended⟩]
        (do if ← ask (.exitWatchAccepted owner) then runnerExited server id ended.1 ended.2
            else return ())
  | runs (ended : ExitResult × Option GoError) {inner : List Answered} {rest : Action Unit}
      (committed : reconnected) (replays : Replays (runnerExited server id ended.1 ended.2) inner rest) :
      Watches server id sandboxID owner reconnected
        (inner ++ [⟨.exitWatchAccepted owner, true⟩, ⟨.awaitProcess sandboxID, ended⟩]) rest
  | leaves (ended : ExitResult × Option GoError) (lost : ¬reconnected) :
      Watches server id sandboxID owner reconnected
        [⟨.exitWatchAccepted owner, false⟩, ⟨.awaitProcess sandboxID, ended⟩] (return ())

theorem watches_replayed {server : Server} {id sandboxID : String} {owner : Nat}
    {reconnected : Prop} {past : List Answered} {rest : Action Unit}
    (replays : Replays (recoveredExitWatch server id sandboxID owner) past rest)
    (answered : ∀ accepted, (⟨.exitWatchAccepted owner, accepted⟩ : Answered) ∈ past →
      (accepted = true ↔ reconnected)) :
    Watches server id sandboxID owner reconnected past rest := by
  rcases replays_first replays with ⟨rfl, rfl⟩ | ⟨ended, inner, rfl, gated⟩
  · exact .waits
  · obtain ⟨result, err⟩ := ended
    rcases replays_first gated with ⟨rfl, rfl⟩ | ⟨accepted, last, rfl, after⟩
    · exact .exited (result, err)
    · have known := answered accepted (by simp)
      cases accepted with
      | true =>
          rw [List.append_assoc]
          exact .runs (result, err) (known.mp rfl) after
      | false =>
          obtain ⟨rfl, rfl⟩ := replays_return after
          exact .leaves (result, err) fun committed => by cases known.mpr committed

end Watchers

section Ownership

/-- What recoveries own in a process that began at `first`. A recovery that has
ended has offered its gate once for each time it attached, and the gate of a
watcher holds what its recovery offered. -/
structure RecoveryOwns (server : Server) (first world : RunnerWorld) : Prop where
  decided : ∀ {tid : Nat} {choice : Choice} {thread : RunnerThread} {writer : Writer}
    {st : RunnerState} {resp : (Op.writeState writer st).Resp} {rest : Action Unit}
    {state : ServerState} {id : String} {row : RunnerRequestRecord},
    (machine server).Acts world tid choice thread (.writeState writer st) resp rest state →
    thread.task = .recover id → writer.decided = true → row ∈ world.state.table.rows →
    row ∉ state.table.rows → AtDecision thread.past row
  forced : ∀ {tid : Nat} {choice : Choice} {thread : RunnerThread} {writer : Writer}
    {st : RunnerState} {resp : (Op.writeState writer st).Resp} {rest : Action Unit}
    {state : ServerState} {id : String} {row : RunnerRequestRecord},
    (machine server).Acts world tid choice thread (.writeState writer st) resp rest state →
    thread.task = .recover id → writer.forced = true → row ∈ world.state.table.rows →
    row ∉ state.table.rows → AtOwnMark thread.past row
  gates : ∀ {tid : Nat} {keeper : RunnerThread} {id : String},
    world.threads[tid]? = some keeper → keeper.task = .recover id →
    GateLog (recoveryLog keeper.past) ∧
      (first.threads.length ≤ tid → keeper.rest.ended = true →
        (recoveryLog keeper.past).offers.length = (recoveryLog keeper.past).attached)
  watchers : ∀ {tid : Nat} {watcher : RunnerThread} {id sandboxID : String} {owner : Nat},
    world.threads[tid]? = some watcher → watcher.task = .recoveredExitWatch id sandboxID owner →
    ∃ (keeper : RunnerThread) (asked : String), world.threads[owner]? = some keeper ∧
      keeper.task = .recover asked ∧ (recoveryLog keeper.past).attached = 1 ∧
      (first.threads.length ≤ tid →
        Watches server id sandboxID owner (Reconnected keeper.past) watcher.past watcher.rest) ∧
      (watcher.rest.ended = false →
        world.state.offers.lookup owner = (recoveryLog keeper.past).offers.head?)

variable {server : Server} {condition : RunnerWorld → RunnerMove → Prop} {world : RunnerWorld}

theorem kept_length {past : List Answered} (log : GateLog (recoveryLog past))
    (kept : GateKept past) : (recoveryLog past).offers.length = (recoveryLog past).attached := by
  rcases log.offered with none | ⟨attached, once⟩
  · rcases kept with ⟨accepted, offered⟩ | detached
    · rw [← offers_noted, none] at offered
      cases offered
    · rw [none, unattached_noted detached]
      rfl
  · rw [attached, once]
    rfl

/-- The gate of a watcher that still waits holds what its recovery offered. -/
theorem gate_lookup (gated : Gated world) {tid : Nat} {watcher : RunnerThread}
    {id sandboxID : String} {owner : Nat} (live : world.threads[tid]? = some watcher)
    (watches : watcher.task = .recoveredExitWatch id sandboxID owner)
    (waits : watcher.rest.ended = false) {keeper : RunnerThread}
    (present : world.threads[owner]? = some keeper) (log : GateLog (recoveryLog keeper.past)) :
    world.state.offers.lookup owner = (recoveryLog keeper.past).offers.head? := by
  have offered {accepted : Bool} (found : world.state.offers.lookup owner = some accepted) :
      accepted ∈ (recoveryLog keeper.past).offers := by
    obtain ⟨before, later, split, _⟩ := List.lookup_eq_some_iff.mp found
    obtain ⟨other, same, member⟩ := gated.filled owner accepted (by simp [split])
    cases present.symm.trans same
    exact offers_noted accepted |>.mpr member
  cases found : world.state.offers.lookup owner with
  | some accepted =>
      have member := offered found
      rcases log.offered with none | ⟨_, once⟩
      · rw [none] at member
        cases member
      · rw [once, List.mem_singleton] at member
        rw [once, member]
        rfl
  | none =>
      rcases log.offered with none | ⟨_, once⟩
      · rw [none]
        rfl
      · -- what the recovery offered is still there
        have member : (recoveryLog keeper.past).reconnected ∈ (recoveryLog keeper.past).offers := by
          rw [once]
          exact List.mem_singleton_self _
        have kept := gated.kept tid watcher id sandboxID owner live watches waits _
          ⟨keeper, present, (offers_noted _).mp member⟩
        have absent := List.lookup_eq_none_iff.mp found _ kept
        simp at absent

/-- Whatever other goroutines do to the row meanwhile. -/
theorem recovery_owns {first : RunnerWorld}
    (before : (machine server).Reaches (fun _ _ => True) (opened .empty) first)
    (process : (machine server).Reaches (fun _ move => move ≠ .crash) first world) :
    RecoveryOwns server first world := by
  have reaches : (machine server).Reaches (fun _ _ => True) (opened .empty) world :=
    before.trans (process.weaken fun _ _ _ => True.intro)
  have gated := gated_reachable reaches
  have logged {tid : Nat} {keeper : RunnerThread} {id : String}
      (live : world.threads[tid]? = some keeper) (recovers : keeper.task = .recover id) :
      GateLog (recoveryLog keeper.past) :=
    gate_log (recovery_permitted reaches live recovers)
  constructor
  · intro tid choice thread writer st resp rest state id row acts recovers decided here changed
    exact decided_owned reaches acts recovers decided here changed
  · intro tid choice thread writer st resp rest state id row acts recovers forced here changed
    exact forced_owned reaches acts recovers forced here changed
  · intro tid keeper id live recovers
    refine ⟨logged live recovers, fun fresh ended => kept_length (logged live recovers) ?_⟩
    have owes := keeps_replayed (task_recovers server keeper.task)
      (Machine.replays_since process fresh live)
    cases left : keeper.rest with
    | call op next =>
        rw [left] at ended
        cases ended
    | pure value =>
        rw [left, recovers] at owes
        cases owes with
        | done holds => exact holds
  · intro tid watcher id sandboxID owner live watches
    obtain ⟨keeper, asked, present, recovers, attached⟩ := gated.owned _ _ _ _ _ live watches
    have log := logged present recovers
    refine ⟨keeper, asked, present, recovers, ?_, fun fresh => ?_, fun waits => ?_⟩
    · exact Nat.le_antisymm log.attached (attached_noted attached)
    · have replays := Machine.replays_since process fresh live
      rw [watches] at replays
      refine watches_replayed replays fun accepted heard => ?_
      obtain ⟨other, same, member⟩ := gated.heard tid watcher owner accepted live heard
      cases present.symm.trans same
      have offered := (offers_noted accepted).mpr member
      rcases log.offered with none | ⟨_, once⟩
      · rw [none] at offered
        cases offered
      · rw [once, List.mem_singleton] at offered
        rw [offered, reconnected_noted]
    · exact gate_lookup gated live watches waits present log

/-- The process stops while job 1 runs, and the next one recovers it: goroutine 4
reconnects, and goroutine 5 watches. -/
def untilReconnected : List RunnerMove :=
  .start (.recover "1") :: turns 4 (plain 7 ++
    { recovered := { processes := .ok [{ pid := 7, tag := some "github-runner" }] } } :: plain 5) ++
    turns 5 (plain 2)

/-- The process does not stop. -/
def staysUp : RunnerMove → Bool
  | .crash => false
  | _ => true

theorem recovery_owns_reconnected : ∃ first world,
    (machine sampleServer).Reaches (fun _ _ => True) (opened .empty) first ∧
    (machine sampleServer).Reaches (fun _ move => move ≠ .crash) first world ∧
    statusesOf world = [.running] ∧ world.state.offers = [(4, true)] ∧
    RecoveryOwns sampleServer first world := by
  have ran : ((machine sampleServer).runChecked (fun _ _ => true) (untilRunning ++ [.crash])
      (opened .empty)).any (fun first => ((machine sampleServer).runChecked
        (fun _ move => staysUp move) untilReconnected first).any
          fun world => decide (statusesOf world = [.running]) &&
            decide (world.state.offers = [(4, true)])) = true := by decide +kernel
  obtain ⟨first, before, ran⟩ := Machine.reaches_any ran
  obtain ⟨world, process, found⟩ := Machine.reaches_any ran
  simp only [Bool.and_eq_true, decide_eq_true_eq] at found
  have before : (machine sampleServer).Reaches (fun _ _ => True) (opened .empty) first :=
    before.weaken fun _ _ _ => True.intro
  have process : (machine sampleServer).Reaches (fun _ move => move ≠ .crash) first world := by
    refine process.weaken fun _ move running stops => ?_
    rw [stops] at running
    cases running
  exact ⟨first, world, before, process, found.1, found.2, recovery_owns before process⟩

end Ownership

end Runnerd
