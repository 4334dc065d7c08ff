import Mathlib
import Runnerd.TerminalSafety

/-!
A terminal is closed at most once, and after its session has left the hub. Three
methods take sessions out of the hub, and one of them hands each session on to a
goroutine. Who has a session in hand can be told from the trace.
-/

namespace Runnerd

open Interaction Interleaving

section Closers

/-- How often the answer hands the session to the caller, out of the hub. -/
def takes (ref : Nat) : HubAnswered → Nat
  | ⟨.remove _, some found⟩ => if found = ref then 1 else 0
  | ⟨.closeIfIdle _, some found⟩ => if found = ref then 1 else 0
  | ⟨.drain, refs⟩ => refs.count ref
  | _ => 0

def handsOver (ref : Nat) : HubAnswered → Bool
  | ⟨.goClose found, _⟩ => decide (found = ref)
  | _ => false

def closesTerminal (ref : Nat) : HubAnswered → Bool
  | ⟨.terminalClose found, _⟩ => decide (found = ref)
  | _ => false

def taken (ref : Nat) (past : List HubAnswered) : Nat := (past.map (takes ref)).sum

def released (ref : Nat) (past : List HubAnswered) : Nat :=
  past.countP fun call => handsOver ref call || closesTerminal ref call

/-- The terminal of a session is closed by who took it out of the hub, or by the
goroutine that was started for it. -/
def hubContract (task : HubTask) (past : List HubAnswered) (op : HubOp) : Prop :=
  match task with
  | .closer ref => op = .terminalClose ref ∧ past = []
  | _ =>
      match op with
      | .terminalClose ref | .goClose ref => released ref past < taken ref past
      | _ => True

def HubOp.quiet : HubOp → Prop
  | .terminalClose _ | .goClose _ => False
  | _ => True

def HubTask.isCloser : HubTask → Bool
  | .closer _ => true
  | _ => false

variable {task : HubTask} {past : List HubAnswered}

theorem quiet_permitted (method : task.isCloser = false) {op : HubOp} (quiet : op.quiet) :
    hubContract task past op := by
  cases task with
  | closer ref => cases method
  | _ =>
      cases op with
      | terminalClose ref => exact quiet.elim
      | goClose ref => exact quiet.elim
      | _ => trivial

theorem close_permitted (method : task.isCloser = false) {ref : Nat}
    (owns : released ref past < taken ref past) : hubContract task past (.terminalClose ref) := by
  cases task with
  | closer ref => cases method
  | _ => exact owns

theorem handOver_permitted (method : task.isCloser = false) {ref : Nat}
    (owns : released ref past < taken ref past) : hubContract task past (.goClose ref) := by
  cases task with
  | closer ref => cases method
  | _ => exact owns

theorem quiet_keeps {α : Type} (method : task.isCloser = false) {program : HubAction α}
    (calls : Calls HubOp.quiet program) :
    Keeps (hubContract task) program (fun _ _ => True) past :=
  keeps_calls calls (fun _ _ quiet => quiet_permitted method quiet) fun _ _ _ _ => trivial

theorem closeSession_keeps (id : String) (method : task.isCloser = false) :
    Keeps (hubContract task) (closeSession id) (fun _ _ => True) [] := by
  refine keeps_call (quiet_permitted method trivial) fun found => ?_
  cases found with
  | none => exact keeps_return trivial
  | some ref =>
      refine keeps_call (quiet_permitted method trivial) fun _ => ?_
      refine keeps_last (close_permitted method ?_) fun _ => trivial
      simp [released, taken, takes, handsOver, closesTerminal]

theorem closeSessionIfIdle_keeps (id : String) (method : task.isCloser = false) :
    Keeps (hubContract task) (closeSessionIfIdle id) (fun _ _ => True) [] := by
  refine keeps_call (quiet_permitted method trivial) fun found => ?_
  cases found with
  | none => exact keeps_return trivial
  | some ref =>
      refine keeps_call (close_permitted method ?_) fun _ => keeps_return trivial
      simp [released, taken, takes, handsOver, closesTerminal]

/-- `Close` has taken each session as often as it is still in the list. -/
theorem closeDrained_keeps (method : task.isCloser = false) (refs : List Nat)
    (owns : ∀ ref, released ref past + refs.count ref ≤ taken ref past) :
    Keeps (hubContract task) (Prog.each closeDrained refs) (fun _ _ => True) past := by
  induction refs generalizing past with
  | nil => exact .done trivial
  | cons head rest ih =>
      change Keeps (hubContract task) (closeDrained head >>= fun _ => Prog.each closeDrained rest)
        _ past
      apply keeps_seq
      refine keeps_call (quiet_permitted method trivial) fun _ => ?_
      refine keeps_last (handOver_permitted method ?_) fun _ => ih fun ref => ?_
      · have first := owns head
        rw [List.count_cons_self] at first
        simp only [released, taken, List.countP_cons, List.map_cons, List.sum_cons, takes,
          handsOver, closesTerminal] at first ⊢
        simp only [Bool.or_false, Bool.false_eq_true, if_false]
        omega
      · have each := owns ref
        rw [List.count_cons] at each
        simp only [released, taken, List.countP_cons, List.map_cons, List.sum_cons, takes,
          handsOver, closesTerminal, Bool.or_false, decide_eq_true_eq, beq_iff_eq] at each ⊢
        simp only [Bool.false_eq_true, if_false]
        omega

theorem streamEvents_quiet (ch reads : Nat) : Calls HubOp.quiet (streamEvents ch reads) := by
  induction reads with
  | zero => exact calls_return
  | succ reads ih =>
      refine calls_call trivial fun data => ?_
      cases data with
      | none => exact calls_return
      | some _ => exact ih

theorem createTerminal_quiet (requestID sandboxID : String) :
    Calls HubOp.quiet (handleUserCreateRunnerTerminal requestID sandboxID) := by
  refine calls_call trivial fun started => ?_
  cases started with
  | error err => exact calls_return
  | ok term =>
      refine calls_call trivial fun _ => calls_call trivial fun made => ?_
      refine calls_call trivial fun _ => calls_call trivial fun pending => ?_
      refine calls_seq (calls_each pending fun data _ => calls_last trivial) fun _ => ?_
      exact calls_last trivial

theorem events_quiet (id : String) (reads : Nat) :
    Calls HubOp.quiet (handleUserRunnerTerminalEvents id reads) := by
  refine calls_call trivial fun found => ?_
  cases found with
  | none => exact calls_return
  | some ref =>
      refine calls_call trivial fun subscribed => ?_
      refine calls_seq (streamEvents_quiet _ reads) fun _ => calls_call trivial fun _ => ?_
      exact calls_last trivial

theorem hubTask_keeps (task : HubTask) :
    Keeps (hubContract task) task.body (fun _ _ => True) [] := by
  cases task with
  | create requestID sandboxID => exact quiet_keeps rfl (createTerminal_quiet requestID sandboxID)
  | events id reads => exact quiet_keeps rfl (events_quiet id reads)
  | output term data => exact quiet_keeps rfl (calls_call trivial fun _ => calls_return)
  | add requestID sandboxID => exact quiet_keeps rfl (calls_call trivial fun _ => calls_return)
  | get id => exact quiet_keeps rfl (calls_call trivial fun _ => calls_return)
  | subscribe ref => exact quiet_keeps rfl (calls_call trivial fun _ => calls_return)
  | cancel ref ch => exact quiet_keeps rfl (calls_last trivial)
  | receive ch => exact quiet_keeps rfl (calls_call trivial fun _ => calls_return)
  | append ref data => exact quiet_keeps rfl (calls_last trivial)
  | closeSession id =>
      exact keeps_seq (keeps_mono (fun _ _ _ => keeps_return trivial) (closeSession_keeps id rfl))
  | closeSessionIfIdle id => exact closeSessionIfIdle_keeps id rfl
  | close =>
      refine keeps_call (quiet_permitted rfl trivial) fun refs => closeDrained_keeps rfl refs ?_
      intro ref
      simp [released, taken, takes, handsOver, closesTerminal]
  | closer ref => exact keeps_call ⟨rfl, rfl⟩ fun _ => keeps_return trivial

/-- Where a session stands after it left the hub. -/
inductive Custodian where
  | hub
  | thread (tid : Nat)
  | goroutine
  | closed
  deriving DecidableEq

def custodian (ref : Nat) : List HubEvent → Custodian
  | [] => .hub
  | event :: trace =>
      if 0 < takes ref event.call then .thread event.tid
      else if handsOver ref event.call then .goroutine
      else if closesTerminal ref event.call then .closed
      else custodian ref trace

def takenEver (ref : Nat) (trace : List HubEvent) : Nat :=
  (trace.map fun event => takes ref event.call).sum

/-- A session can be in the hub once, from when it is made. -/
def room (ref : Nat) (state : TerminalState) : Nat := if ref < state.sessions.length then 1 else 0

theorem refs_leave (state : TerminalState) (id : String) (ref : Nat) :
    ((state.leave id).map Prod.snd).count ref + (if state.get id = some ref then 1 else 0) ≤
      state.refs.count ref := by
  unfold TerminalState.leave TerminalState.get TerminalState.refs
  induction state.hub with
  | nil => simp
  | cons entry rest ih =>
      obtain ⟨key, found⟩ := entry
      by_cases same : key = id
      · have smaller : ((rest.filter fun entry => entry.1 != id).map Prod.snd).count ref ≤
            (rest.map Prod.snd).count ref := ((List.filter_sublist).map Prod.snd).count_le ref
        simp only [same, bne_self_eq_false, Bool.false_eq_true, not_false_eq_true,
          List.filter_cons_of_neg, beq_self_eq_true, List.find?_cons_of_pos, Option.map_some,
          Option.some.injEq, List.map_cons, List.count_cons, beq_iff_eq]
        omega
      · simp only [bne_iff_ne, ne_eq, same, not_false_eq_true, List.filter_cons_of_pos,
          List.map_cons, beq_iff_eq, List.find?_cons_of_neg, List.count_cons] at ih ⊢
        omega

theorem leave_count (state : TerminalState) (id : String) (ref : Nat) :
    ((state.leave id).map Prod.snd).count ref ≤ state.refs.count ref :=
  le_trans (Nat.le_add_right _ _) (refs_leave state id ref)

theorem room_edit (state : TerminalState) (ref target : Nat)
    (f : TerminalSession → TerminalSession) (channels : Channels Bytes) :
    room ref (state.edit target f channels) = room ref state := by
  simp [room, TerminalState.edit]

theorem append_still (state : TerminalState) (ref : Nat) (data : Bytes) :
    (state.append ref data).hub = state.hub ∧
      (state.append ref data).sessions.length = state.sessions.length := by
  unfold TerminalState.append
  split
  · exact ⟨rfl, rfl⟩
  · split
    · exact ⟨rfl, rfl⟩
    · exact ⟨rfl, List.length_modify ..⟩

theorem cancel_still (state : TerminalState) (ref ch : Nat) :
    (state.cancel ref ch).hub = state.hub ∧
      (state.cancel ref ch).sessions.length = state.sessions.length := by
  unfold TerminalState.cancel
  split
  · exact ⟨rfl, rfl⟩
  · split
    · exact ⟨rfl, List.length_modify ..⟩
    · exact ⟨rfl, rfl⟩

theorem closeWatchers_still (state : TerminalState) (ref : Nat) :
    (state.closeWatchers ref).hub = state.hub ∧
      (state.closeWatchers ref).sessions.length = state.sessions.length := by
  unfold TerminalState.closeWatchers
  split
  · exact ⟨rfl, rfl⟩
  · split
    · exact ⟨rfl, rfl⟩
    · exact ⟨rfl, List.length_modify ..⟩

theorem subscribe_still {state after : TerminalState} {ref : Nat} {answer : Bytes × Nat}
    (subscribed : state.subscribe ref = some (answer, after)) :
    after.hub = state.hub ∧ after.sessions.length = state.sessions.length := by
  unfold TerminalState.subscribe at subscribed
  split at subscribed
  · cases subscribed
  · split at subscribed
    · cases subscribed
      exact ⟨rfl, rfl⟩
    · cases subscribed
      exact ⟨rfl, List.length_modify ..⟩

def HubOp.moves : HubOp → Bool
  | .add _ _ | .remove _ | .drain | .closeIfIdle _ => true
  | _ => false

/-- The other calls leave the hub and the number of sessions alone. -/
theorem respondHub_still {choice : HubChoice} {state after : TerminalState} {op : HubOp}
    {resp : op.Resp} (answered : respondHub choice state op = some (resp, after))
    (still : op.moves = false) :
    (after.hub = state.hub ∧ after.sessions.length = state.sessions.length) ∧
      ∀ ref, takes ref ⟨op, resp⟩ = 0 := by
  cases op with
  | add requestID sandboxID => cases still
  | remove id => cases still
  | drain => cases still
  | closeIfIdle id => cases still
  | closeWatchers ref =>
      cases answered
      exact ⟨(closeWatchers_still state ref), fun _ => rfl⟩
  | subscribe ref => exact ⟨(subscribe_still answered), fun _ => rfl⟩
  | cancel ref ch =>
      cases answered
      exact ⟨(cancel_still state ref ch), fun _ => rfl⟩
  | append ref data =>
      cases answered
      exact ⟨(append_still state ref data), fun _ => rfl⟩
  | receive ch =>
      obtain ⟨⟨data, channels⟩, _, same⟩ := Option.map_eq_some_iff.mp answered
      cases same
      exact ⟨⟨rfl, rfl⟩, fun _ => rfl⟩
  | output term data =>
      simp only [respondHub] at answered
      split at answered
      · cases answered
      · split at answered
        · cases answered
        · split at answered
          · cases answered
            exact ⟨(append_still state _ data), fun _ => rfl⟩
          · cases answered
            exact ⟨⟨rfl, rfl⟩, fun _ => rfl⟩
  | _ =>
      obtain ⟨hub, sessions, _⟩ := respondHub_idle answered rfl
      exact ⟨⟨hub, by rw [sessions]⟩, fun _ => rfl⟩

/-- What an answer takes out of the hub is no longer there, and only a new session
comes in. -/
theorem respondHub_room {choice : HubChoice} {state after : TerminalState} {op : HubOp}
    {resp : op.Resp} (answered : respondHub choice state op = some (resp, after)) (ref : Nat) :
    after.refs.count ref + takes ref ⟨op, resp⟩ + room ref state ≤
      state.refs.count ref + room ref after := by
  cases op with
  | add requestID sandboxID =>
      cases answered
      have fewer := leave_count state choice.newID ref
      simp only [TerminalState.refs, TerminalState.add, List.map_append, List.count_append,
        List.map_cons, List.map_nil, List.count_singleton, takes, room, List.length_append,
        List.length_singleton, beq_iff_eq] at fewer ⊢
      split <;> split <;> split <;> omega
  | remove id =>
      cases answered
      have fewer := refs_leave state id ref
      have same : room ref { state with hub := state.leave id } = room ref state := rfl
      rw [same]
      cases found : state.get id with
      | none =>
          simp only [found] at fewer
          simp only [TerminalState.refs, takes] at fewer ⊢
          omega
      | some other =>
          simp only [found, Option.some.injEq] at fewer
          simp only [TerminalState.refs, takes] at fewer ⊢
          omega
  | drain =>
      simp only [respondHub] at answered
      split at answered
      · rename_i permuted
        cases answered
        have order := (List.isPerm_iff.mp permuted).count_eq ref
        have same : room ref { state with hub := [] } = room ref state := rfl
        simp only [takes, same, order, TerminalState.refs, List.map_nil, List.count_nil]
        omega
      · cases answered
  | closeIfIdle id =>
      obtain ⟨answer, same⟩ | ⟨found, session, here, _, _, _, answer, same⟩ :=
        closeIfIdle_cases state id
      · have pair : state.closeIfIdle id = (resp, after) := Option.some.inj answered
        rw [pair] at answer same
        dsimp only at answer same
        subst answer same
        simp [takes]
      · have pair : state.closeIfIdle id = (resp, after) := Option.some.inj answered
        rw [pair] at answer same
        dsimp only at answer same
        subst answer same
        have fewer := refs_leave state id ref
        rw [here] at fewer
        have size := room_edit state ref found
          (fun session => { session with closed := true }) state.channels
        simp only [TerminalState.refs, takes, room, TerminalState.edit, Option.some.injEq]
          at fewer size ⊢
        omega
  | _ =>
      obtain ⟨⟨hub, sessions⟩, none⟩ := respondHub_still answered rfl
      rw [none]
      simp [TerminalState.refs, room, hub, sessions]

/-- What the trace tells about the closing of one session. -/
structure Closing (ref : Nat) (world : HubWorld) : Prop where
  counted : world.state.refs.count ref + takenEver ref world.trace ≤ room ref world.state
  inHub : custodian ref world.trace = .hub ↔ takenEver ref world.trace = 0
  modest : ∀ (tid : Nat) (thread : Thread HubOp HubOp.Resp HubTask),
    world.threads[tid]? = some thread → taken ref thread.past ≤ takenEver ref world.trace
  holder : ∀ (tid : Nat) (thread : Thread HubOp HubOp.Resp HubTask),
    world.threads[tid]? = some thread → released ref thread.past < taken ref thread.past →
    custodian ref world.trace = .thread tid
  closer : ∀ (tid : Nat) (thread : Thread HubOp HubOp.Resp HubTask),
    world.threads[tid]? = some thread → thread.task = .closer ref →
    custodian ref world.trace = .goroutine ∨ custodian ref world.trace = .closed
  waiting : ∀ (tid : Nat) (thread : Thread HubOp HubOp.Resp HubTask),
    world.threads[tid]? = some thread → thread.task = .closer ref → thread.past = [] →
    custodian ref world.trace = .goroutine
  single : ∀ (tid other : Nat) (thread found : Thread HubOp HubOp.Resp HubTask),
    world.threads[tid]? = some thread → world.threads[other]? = some found →
    thread.task = .closer ref → found.task = .closer ref → tid = other
  once : world.trace.countP (fun event => closesTerminal ref event.call) ≤ 1
  shut : 0 < world.trace.countP (fun event => closesTerminal ref event.call) →
    custodian ref world.trace = .closed

/-- The four things that a call can mean for one session. -/
inductive Meaning (ref : Nat) (call : HubAnswered) : Prop where
  | taken (once : 0 < takes ref call) (held : handsOver ref call = false)
      (kept : closesTerminal ref call = false)
  | handed (none : takes ref call = 0) (hands : handsOver ref call = true)
      (kept : closesTerminal ref call = false) (op : call.op = .goClose ref)
  | closed (none : takes ref call = 0) (held : handsOver ref call = false)
      (closes : closesTerminal ref call = true) (op : call.op = .terminalClose ref)
  | nothing (none : takes ref call = 0) (held : handsOver ref call = false)
      (kept : closesTerminal ref call = false)

theorem meaning (ref : Nat) (call : HubAnswered) : Meaning ref call := by
  by_cases once : 0 < takes ref call
  · obtain ⟨op, resp⟩ := call
    cases op with
    | goClose found => exact absurd once (by simp [takes])
    | terminalClose found => exact absurd once (by simp [takes])
    | _ => exact .taken once rfl rfl
  · have none : takes ref call = 0 := Nat.eq_zero_of_not_pos once
    obtain ⟨op, resp⟩ := call
    cases op with
    | goClose found =>
        by_cases same : found = ref
        · subst same
          exact .handed none (by simp [handsOver]) rfl rfl
        · exact .nothing none (by simp [handsOver, same]) rfl
    | terminalClose found =>
        by_cases same : found = ref
        · subst same
          exact .closed none rfl (by simp [closesTerminal]) rfl
        · exact .nothing none rfl (by simp [closesTerminal, same])
    | _ => exact .nothing none rfl rfl

theorem closer_spawned {ref : Nat} {op : HubOp} (spawned : HubTask.closer ref ∈ hubSpawned op) :
    op = .goClose ref := by
  cases op <;> simp [hubSpawned] at spawned
  rw [spawned]

variable {world : HubWorld} {ref tid : Nat} {choice : HubChoice}
variable {thread : Thread HubOp HubOp.Resp HubTask} {op : HubOp} {resp : op.Resp}
variable {rest : HubAction Unit} {state : TerminalState}

/-- A closer after a call is an old one, or the goroutine that the call started. -/
theorem closer_cases {other : Nat} {found : Thread HubOp HubOp.Resp HubTask}
    (live : (hubMachine.acted world tid thread op resp rest state).threads[other]? = some found)
    (acting : world.threads[tid]? = some thread) (task : found.task = .closer ref) :
    (∃ old, world.threads[other]? = some old ∧ old.task = .closer ref ∧
      (found.past = [] → old.past = [] ∧ other ≠ tid)) ∨
    (op = .goClose ref ∧ other = world.threads.length) := by
  rcases Machine.acted_thread live with ⟨rfl, rfl⟩ | ⟨different, old⟩ | ⟨fresh, member, rfl⟩
  · exact .inl ⟨thread, acting, task, fun empty => by cases empty⟩
  · exact .inl ⟨found, old, task, fun empty => ⟨empty, different⟩⟩
  · have same : fresh = .closer ref := task
    subst same
    have called := closer_spawned member
    subst called
    by_cases before : other < world.threads.length
    · have old : (hubMachine.acted world tid thread (.goClose ref) resp rest state).threads[other]? =
          (world.threads.set tid (thread.answered (.goClose ref) resp rest))[other]? :=
        List.getElem?_append_left (by simpa using before)
      rw [old] at live
      by_cases own : tid = other
      · subst own
        simp only [List.getElem?_set_self before, Option.some.injEq] at live
        refine .inl ⟨thread, acting, (congrArg Thread.task live).trans rfl, fun empty => ?_⟩
        rw [← live] at empty
        cases empty
      · rw [List.getElem?_set_ne own] at live
        exact .inl ⟨_, live, rfl, fun _ => ⟨rfl, Ne.symm own⟩⟩
    · refine .inr ⟨rfl, ?_⟩
      obtain ⟨bound, _⟩ := List.getElem?_eq_some_iff.mp live
      have size : (hubMachine.acted world tid thread (.goClose ref) resp rest state).threads.length =
          world.threads.length + 1 := by
        simp [Machine.acted, hubMachine, hubSpawned]
      omega

theorem closing_counted (closing : Closing ref world)
    (acts : hubMachine.Acts world tid choice thread op resp rest state) :
    state.refs.count ref + (takes ref ⟨op, resp⟩ + takenEver ref world.trace) ≤ room ref state := by
  have moved := respondHub_room acts.answer ref
  have counted := closing.counted
  omega

theorem room_small (ref : Nat) (state : TerminalState) : room ref state ≤ 1 := by
  unfold room
  split <;> omega

theorem takenEver_acted :
    takenEver ref (hubMachine.acted world tid thread op resp rest state).trace =
      takes ref ⟨op, resp⟩ + takenEver ref world.trace := by
  simp [Machine.acted, takenEver]

theorem closing_modest (closing : Closing ref world)
    (acts : hubMachine.Acts world tid choice thread op resp rest state) {other : Nat}
    {found : Thread HubOp HubOp.Resp HubTask}
    (live : (hubMachine.acted world tid thread op resp rest state).threads[other]? = some found) :
    taken ref found.past ≤
      takenEver ref (hubMachine.acted world tid thread op resp rest state).trace := by
  rw [takenEver_acted]
  rcases Machine.acted_thread live with ⟨rfl, rfl⟩ | ⟨_, old⟩ | ⟨fresh, _, rfl⟩
  · have before := closing.modest _ thread acts.live
    simp only [Thread.answered, taken, List.map_cons, List.sum_cons] at before ⊢
    omega
  · have before := closing.modest other found old
    omega
  · simp [Machine.launch, taken]

/-- Who still owns a session after a call owned it before, and did not release it
by this call, or took it. -/
theorem holder_cases {other : Nat} {found : Thread HubOp HubOp.Resp HubTask}
    (live : (hubMachine.acted world tid thread op resp rest state).threads[other]? = some found)
    (owns : released ref found.past < taken ref found.past) :
    (other = tid ∧ released ref thread.past +
      (if (handsOver ref ⟨op, resp⟩ || closesTerminal ref ⟨op, resp⟩) = true then 1 else 0) <
        takes ref ⟨op, resp⟩ + taken ref thread.past) ∨
    (other ≠ tid ∧ world.threads[other]? = some found) := by
  rcases Machine.acted_thread live with ⟨same, rfl⟩ | old | ⟨fresh, _, rfl⟩
  · refine .inl ⟨same, ?_⟩
    simp only [Thread.answered, released, taken, List.countP_cons, List.map_cons,
      List.sum_cons] at owns ⊢
    omega
  · exact .inr old
  · simp [Machine.launch, released, taken] at owns

/-- A terminal is closed, or handed over, by its owner. -/
theorem released_by (closing : Closing ref world) (obeys : Machine.Obeys hubContract world)
    (acts : hubMachine.Acts world tid choice thread op resp rest state)
    (releases : op = .goClose ref ∨ op = .terminalClose ref) :
    (custodian ref world.trace = .thread tid ∧ thread.task.isCloser = false) ∨
    (custodian ref world.trace = .goroutine ∧ thread.task = .closer ref ∧
      op = .terminalClose ref) := by
  have permitted := obeys.permits acts
  unfold hubContract at permitted
  split at permitted
  · rename_i target task
    obtain ⟨called, fresh⟩ := permitted
    rcases releases with handed | closed
    · rw [handed] at called
      cases called
    · rw [closed] at called
      cases called
      exact .inr ⟨closing.waiting tid thread acts.live task fresh, task, closed⟩
  · rename_i notCloser
    have method : thread.task.isCloser = false := by
      cases task : thread.task with
      | closer target => exact absurd task (notCloser target)
      | _ => rfl
    have owns : released ref thread.past < taken ref thread.past := by
      rcases releases with rfl | rfl <;> exact permitted
    exact .inl ⟨closing.holder tid thread acts.live owns, method⟩

theorem closes_acted :
    (hubMachine.acted world tid thread op resp rest state).trace.countP
        (fun event => closesTerminal ref event.call) =
      world.trace.countP (fun event => closesTerminal ref event.call) +
        if closesTerminal ref ⟨op, resp⟩ = true then 1 else 0 := by
  simp [Machine.acted, List.countP_cons]

theorem custodian_acted :
    custodian ref (hubMachine.acted world tid thread op resp rest state).trace =
      if 0 < takes ref ⟨op, resp⟩ then .thread tid
      else if handsOver ref ⟨op, resp⟩ = true then .goroutine
      else if closesTerminal ref ⟨op, resp⟩ = true then .closed
      else custodian ref world.trace := rfl

/-- A call that hands nothing over starts no closer. -/
theorem old_closer {other : Nat} {found : Thread HubOp HubOp.Resp HubTask}
    (kept : op ≠ .goClose ref) (acting : world.threads[tid]? = some thread)
    (live : (hubMachine.acted world tid thread op resp rest state).threads[other]? = some found)
    (task : found.task = .closer ref) :
    ∃ old, world.threads[other]? = some old ∧ old.task = .closer ref ∧
      (found.past = [] → old.past = [] ∧ other ≠ tid) := by
  rcases closer_cases live acting task with old | ⟨handed, _⟩
  · exact old
  · exact absurd handed kept

/-- A session that is taken was in the hub, so nobody has taken it before. -/
theorem closing_taken (closing : Closing ref world)
    (acts : hubMachine.Acts world tid choice thread op resp rest state)
    (once : 0 < takes ref ⟨op, resp⟩) (held : handsOver ref ⟨op, resp⟩ = false)
    (kept : closesTerminal ref ⟨op, resp⟩ = false) :
    Closing ref (hubMachine.acted world tid thread op resp rest state) := by
  have counted := closing_counted closing acts
  have small := room_small ref state
  have own := closing.modest tid thread acts.live
  have untaken : takenEver ref world.trace = 0 := by omega
  have before := closing.inHub.mpr untaken
  have now : custodian ref (hubMachine.acted world tid thread op resp rest state).trace =
      .thread tid := by rw [custodian_acted, if_pos once]
  have noCloser {other : Nat} {found : Thread HubOp HubOp.Resp HubTask}
      (live : (hubMachine.acted world tid thread op resp rest state).threads[other]? =
        some found) : found.task ≠ .closer ref := by
    intro task
    rcases closer_cases live acts.live task with ⟨old, there, older, _⟩ | ⟨rfl, _⟩
    · rcases closing.closer other old there older with left | left <;> simp [before] at left
    · simp [handsOver] at held
  constructor
  · rw [takenEver_acted]
    exact counted
  · rw [now, takenEver_acted]
    constructor
    · intro inHub
      cases inHub
    · intro none
      omega
  · exact fun other found live => closing_modest closing acts live
  · intro other found live owns
    rcases holder_cases live owns with ⟨rfl, _⟩ | ⟨_, old⟩
    · exact now
    · have some_ := closing.modest other found old
      omega
  · exact fun other found live task => absurd task (noCloser live)
  · exact fun other found live task => absurd task (noCloser live)
  · exact fun other _ found _ live _ task => absurd task (noCloser live)
  · rw [closes_acted, if_neg (by simp [kept])]
    exact closing.once
  · rw [closes_acted, if_neg (by simp [kept])]
    intro some_
    have shut := closing.shut some_
    simp [before] at shut

/-- A session is handed over by the goroutine that has it, to the only closer there is. -/
theorem closing_handed (obeys : Machine.Obeys hubContract world) (closing : Closing ref world)
    (acts : hubMachine.Acts world tid choice thread op resp rest state)
    (none : takes ref ⟨op, resp⟩ = 0) (hands : handsOver ref ⟨op, resp⟩ = true)
    (kept : closesTerminal ref ⟨op, resp⟩ = false) (called : op = .goClose ref) :
    Closing ref (hubMachine.acted world tid thread op resp rest state) := by
  have counted := closing_counted closing acts
  have small := room_small ref state
  have own := closing.modest tid thread acts.live
  have before : custodian ref world.trace = .thread tid := by
    rcases released_by closing obeys acts (.inl called) with ⟨owner, _⟩ | ⟨_, _, closed⟩
    · exact owner
    · exact absurd (called.symm.trans closed) (by simp)
  have now : custodian ref (hubMachine.acted world tid thread op resp rest state).trace =
      .goroutine := by rw [custodian_acted, none, if_neg (lt_irrefl 0), if_pos hands]
  have taken_ : takenEver ref world.trace ≠ 0 := by
    intro never
    have inHub := closing.inHub.mpr never
    simp [before] at inHub
  have noOld {other : Nat} {old : Thread HubOp HubOp.Resp HubTask}
      (there : world.threads[other]? = some old) : old.task ≠ .closer ref := by
    intro task
    rcases closing.closer other old there task with left | left <;> simp [before] at left
  constructor
  · rw [takenEver_acted]
    exact counted
  · rw [now, takenEver_acted]
    constructor
    · intro inHub
      cases inHub
    · intro never
      omega
  · exact fun other found live => closing_modest closing acts live
  · intro other found live owns
    rcases holder_cases live owns with ⟨rfl, room⟩ | ⟨different, old⟩
    · simp only [hands, Bool.true_or, if_true] at room
      omega
    · have owner := closing.holder other found old owns
      rw [before] at owner
      cases owner
      exact absurd rfl different
  · exact fun other found live task => .inl now
  · exact fun other found live task _ => now
  · intro first second one two live liveToo task taskToo
    rcases closer_cases live acts.live task with ⟨old, there, older, _⟩ | ⟨_, left⟩
    · exact absurd older (noOld there)
    · rcases closer_cases liveToo acts.live taskToo with ⟨old, there, older, _⟩ | ⟨_, right⟩
      · exact absurd older (noOld there)
      · exact left.trans right.symm
  · rw [closes_acted, if_neg (by simp [kept])]
    exact closing.once
  · rw [closes_acted, if_neg (by simp [kept])]
    intro some_
    have shut := closing.shut some_
    simp [before] at shut

/-- A terminal is closed by the goroutine that has its session, or by its only closer. -/
theorem closing_closed (obeys : Machine.Obeys hubContract world) (closing : Closing ref world)
    (acts : hubMachine.Acts world tid choice thread op resp rest state)
    (none : takes ref ⟨op, resp⟩ = 0) (held : handsOver ref ⟨op, resp⟩ = false)
    (closes : closesTerminal ref ⟨op, resp⟩ = true) (called : op = .terminalClose ref) :
    Closing ref (hubMachine.acted world tid thread op resp rest state) := by
  have counted := closing_counted closing acts
  have small := room_small ref state
  have own := closing.modest tid thread acts.live
  have owner := released_by closing obeys acts (.inr called)
  have other_ : op ≠ .goClose ref := by simp [called]
  have now : custodian ref (hubMachine.acted world tid thread op resp rest state).trace =
      .closed := by
    rw [custodian_acted, none, if_neg (lt_irrefl 0), if_neg (by simp [held]), if_pos closes]
  have fresh : world.trace.countP (fun event => closesTerminal ref event.call) = 0 := by
    by_contra some_
    have shut := closing.shut (Nat.pos_of_ne_zero some_)
    rcases owner with ⟨owner, _⟩ | ⟨owner, _⟩ <;> simp [owner] at shut
  have taken_ : takenEver ref world.trace ≠ 0 := by
    intro never
    have inHub := closing.inHub.mpr never
    rcases owner with ⟨owner, _⟩ | ⟨owner, _⟩ <;> simp [owner] at inHub
  constructor
  · rw [takenEver_acted]
    exact counted
  · rw [now, takenEver_acted]
    constructor
    · intro inHub
      cases inHub
    · intro never
      omega
  · exact fun other found live => closing_modest closing acts live
  · intro other found live owns
    rcases holder_cases live owns with ⟨rfl, room⟩ | ⟨different, old⟩
    · simp only [closes, Bool.or_true, if_true] at room
      omega
    · have mine := closing.holder other found old owns
      rcases owner with ⟨owner, _⟩ | ⟨owner, _⟩
      · rw [owner] at mine
        cases mine
        exact absurd rfl different
      · simp [owner] at mine
  · exact fun other found live task => .inr now
  · intro other found live task empty
    obtain ⟨old, there, older, waits⟩ := old_closer other_ acts.live live task
    obtain ⟨_, different⟩ := waits empty
    rcases owner with ⟨owner, _⟩ | ⟨_, self, _⟩
    · rcases closing.closer other old there older with left | left <;> simp [owner] at left
    · exact absurd (closing.single other tid old thread there acts.live older self) different
  · intro first second one two live liveToo task taskToo
    obtain ⟨left, there, older, _⟩ := old_closer other_ acts.live live task
    obtain ⟨right, thereToo, olderToo, _⟩ := old_closer other_ acts.live liveToo taskToo
    exact closing.single first second left right there thereToo older olderToo
  · rw [closes_acted, fresh, if_pos closes]
  · exact fun _ => now

/-- Any other call leaves the session with whoever has it. -/
theorem closing_kept (closing : Closing ref world)
    (acts : hubMachine.Acts world tid choice thread op resp rest state)
    (none : takes ref ⟨op, resp⟩ = 0) (held : handsOver ref ⟨op, resp⟩ = false)
    (kept : closesTerminal ref ⟨op, resp⟩ = false) :
    Closing ref (hubMachine.acted world tid thread op resp rest state) := by
  have other_ : op ≠ .goClose ref := by
    rintro rfl
    simp [handsOver] at held
  have now : custodian ref (hubMachine.acted world tid thread op resp rest state).trace =
      custodian ref world.trace := by
    rw [custodian_acted, none, if_neg (lt_irrefl 0), if_neg (by simp [held]),
      if_neg (by simp [kept])]
  constructor
  · rw [takenEver_acted]
    exact closing_counted closing acts
  · rw [now, takenEver_acted, none, Nat.zero_add]
    exact closing.inHub
  · exact fun other found live => closing_modest closing acts live
  · intro other found live owns
    rw [now]
    rcases holder_cases live owns with ⟨rfl, room⟩ | ⟨_, old⟩
    · simp only [held, kept, none, Bool.or_self, Bool.false_eq_true, if_false] at room
      exact closing.holder _ thread acts.live (by omega)
    · exact closing.holder other found old owns
  · intro other found live task
    obtain ⟨old, there, older, _⟩ := old_closer other_ acts.live live task
    rw [now]
    exact closing.closer other old there older
  · intro other found live task empty
    obtain ⟨old, there, older, waits⟩ := old_closer other_ acts.live live task
    rw [now]
    exact closing.waiting other old there older (waits empty).1
  · intro first second one two live liveToo task taskToo
    obtain ⟨left, there, older, _⟩ := old_closer other_ acts.live live task
    obtain ⟨right, thereToo, olderToo, _⟩ := old_closer other_ acts.live liveToo taskToo
    exact closing.single first second left right there thereToo older olderToo
  · rw [closes_acted, if_neg (by simp [kept])]
    exact closing.once
  · rw [closes_acted, if_neg (by simp [kept]), now]
    exact closing.shut

theorem closing_step (obeys : Machine.Obeys hubContract world) (closing : Closing ref world)
    (acts : hubMachine.Acts world tid choice thread op resp rest state) :
    Closing ref (hubMachine.acted world tid thread op resp rest state) := by
  cases meaning ref ⟨op, resp⟩ with
  | taken once held kept => exact closing_taken closing acts once held kept
  | handed none hands kept called => exact closing_handed obeys closing acts none hands kept called
  | closed none held closes called => exact closing_closed obeys closing acts none held closes called
  | nothing none held kept => exact closing_kept closing acts none held kept

variable {condition : HubWorld → HubMove → Prop}

theorem hub_obeys (reaches : hubMachine.Reaches condition noTerminals world) :
    Machine.Obeys hubContract world := by
  refine Machine.obeys_reachable hubTask_keeps ?_ reaches
  constructor
  · intro tid thread live
    cases live
  · intro tid thread live
    cases live

/-- No request starts a closer. -/
theorem closing_started (closing : Closing ref world) {task : HubTask}
    (entered : task.entry = true) :
    Closing ref { world with threads := world.threads ++ [hubMachine.launch task] } := by
  have notCloser : task ≠ .closer ref := by
    rintro rfl
    cases entered
  have started {tid : Nat} {found : Thread HubOp HubOp.Resp HubTask}
      (live : (world.threads ++ [hubMachine.launch task])[tid]? = some found) :
      world.threads[tid]? = some found ∨ (found.task ≠ .closer ref ∧ found.past = []) := by
    rcases Machine.started_thread live with old | rfl
    · exact .inl old
    · exact .inr ⟨notCloser, rfl⟩
  constructor
  · exact closing.counted
  · exact closing.inHub
  · intro tid found live
    rcases started live with old | ⟨_, empty⟩
    · exact closing.modest tid found old
    · rw [empty]
      exact Nat.zero_le _
  · intro tid found live owns
    rcases started live with old | ⟨_, empty⟩
    · exact closing.holder tid found old owns
    · rw [empty] at owns
      cases owns
  · intro tid found live task
    rcases started live with old | ⟨other, _⟩
    · exact closing.closer tid found old task
    · exact absurd task other
  · intro tid found live task empty
    rcases started live with old | ⟨other, _⟩
    · exact closing.waiting tid found old task empty
    · exact absurd task other
  · intro tid other one two live liveToo task taskToo
    rcases started live with old | ⟨different, _⟩
    · rcases started liveToo with oldToo | ⟨different, _⟩
      · exact closing.single tid other one two old oldToo task taskToo
      · exact absurd taskToo different
    · exact absurd task different
  · exact closing.once
  · exact closing.shut

/-- A crash empties the hub and stops every goroutine where it is. -/
theorem closing_crashed (closing : Closing ref world) :
    Closing ref { world with
      state := hubMachine.crash world.state
      threads := world.threads.map Thread.halted } := by
  have halted {tid : Nat} {found : Thread HubOp HubOp.Resp HubTask}
      (live : (world.threads.map Thread.halted)[tid]? = some found) :
      ∃ old, world.threads[tid]? = some old ∧ found.task = old.task ∧
        found.past = old.past := by
    obtain ⟨old, there, rfl⟩ := Machine.halted_thread live
    exact ⟨old, there, rfl, rfl⟩
  constructor
  · exact le_trans (Nat.add_le_add_right (Nat.zero_le _) _) closing.counted
  · exact closing.inHub
  · intro tid found live
    obtain ⟨old, there, _, past⟩ := halted live
    rw [past]
    exact closing.modest tid old there
  · intro tid found live owns
    obtain ⟨old, there, _, past⟩ := halted live
    rw [past] at owns
    exact closing.holder tid old there owns
  · intro tid found live task
    obtain ⟨old, there, same, _⟩ := halted live
    exact closing.closer tid old there (same.symm.trans task)
  · intro tid found live task empty
    obtain ⟨old, there, same, past⟩ := halted live
    exact closing.waiting tid old there (same.symm.trans task) (past.symm.trans empty)
  · intro tid other one two live liveToo task taskToo
    obtain ⟨first, there, same, _⟩ := halted live
    obtain ⟨second, thereToo, sameToo, _⟩ := halted liveToo
    exact closing.single tid other first second there thereToo (same.symm.trans task)
      (sameToo.symm.trans taskToo)
  · exact closing.once
  · exact closing.shut

theorem closing_reachable (ref : Nat) (reaches : hubMachine.Reaches condition noTerminals world) :
    Closing ref world := by
  induction reaches with
  | refl =>
      have none_live {tid : Nat} {thread : Thread HubOp HubOp.Resp HubTask} :
          noTerminals.threads[tid]? ≠ some thread := fun live => by cases live
      exact
        { counted := Nat.zero_le _
          inHub := ⟨fun _ => rfl, fun _ => rfl⟩
          modest := fun _ _ live => absurd live none_live
          holder := fun _ _ live => absurd live none_live
          closer := fun _ _ live => absurd live none_live
          waiting := fun _ _ live => absurd live none_live
          single := fun _ _ _ _ live => absurd live none_live
          once := Nat.zero_le _
          shut := fun some_ => by cases some_ }
  | @step world after move before _ stepped ih =>
      obtain ⟨tid, choice, thread, op, resp, rest, state, rfl, acts, rfl⟩ |
        ⟨task, rfl, entered, rfl⟩ | ⟨rfl, rfl⟩ := hubMachine.step_cases stepped
      · exact closing_step (hub_obeys before) ih acts
      · exact closing_started ih entered
      · exact closing_crashed ih

/-- Who closes a terminal took its session out of the hub before. -/
theorem close_after_leaving (reaches : hubMachine.Reaches condition noTerminals world)
    {answer : Except GoError Unit}
    (acts : hubMachine.Acts world tid choice thread (.terminalClose ref) answer rest state) :
    ref ∉ world.state.refs := by
  have closing := closing_reachable ref reaches
  have out : takenEver ref world.trace ≠ 0 := by
    intro never
    have inHub := closing.inHub.mpr never
    rcases released_by closing (hub_obeys reaches) acts (.inr rfl) with ⟨owner, _⟩ | ⟨owner, _⟩ <;>
      simp [owner] at inHub
  have counted := closing.counted
  have small := room_small ref world.state
  exact List.count_eq_zero.mp (by omega)

end Closers

section Safety

def sessionClosed (ref : Nat) (state : TerminalState) : Prop :=
  ∃ session, state.sessions[ref]? = some session ∧ session.closed = true

variable {state after : TerminalState} {ref : Nat}

theorem edit_closed {target : Nat} {f : TerminalSession → TerminalSession}
    {channels : Channels Bytes} (keeps : ∀ session, session.closed = true → (f session).closed = true)
    (closed : sessionClosed ref state) : sessionClosed ref (state.edit target f channels) := by
  obtain ⟨session, found, closed⟩ := closed
  by_cases same : target = ref
  · exact ⟨f session, by rw [edit_at, if_pos same, found]; rfl, keeps session closed⟩
  · exact ⟨session, by rw [edit_at, if_neg same, found], closed⟩

theorem subscribe_closed {answer : Bytes × Nat}
    (subscribed : state.subscribe ref = some (answer, after)) (closed : sessionClosed ref state) :
    ∃ channel, after.channels.all[answer.2]? = some channel ∧ channel.closed = true ∧
      channel.queue = [] := by
  obtain ⟨session, found, closed⟩ := closed
  simp only [TerminalState.subscribe, found, closed, if_true, Option.some.injEq,
    Prod.mk.injEq] at subscribed
  obtain ⟨rfl, rfl⟩ := subscribed
  have isOpen : ∀ ch ∈ [state.channels.all.length], (state.channels.make 32).Open ch := by
    simpa using Channels.make_open 32
  obtain ⟨_, _, shut⟩ := Channels.closeAll_open (List.nodup_singleton _) isOpen
  refine ⟨Channels.shut { capacity := 32 }, ?_, rfl, rfl⟩
  rw [Channels.close_single, shut, Channels.make_new]
  simp

theorem closed_bound (closed : sessionClosed ref state) : ref < state.sessions.length := by
  obtain ⟨session, found, _⟩ := closed
  exact (List.getElem?_eq_some_iff.mp found).1

theorem append_closed (target : Nat) (data : Bytes) (closed : sessionClosed ref state) :
    sessionClosed ref (state.append target data) := by
  unfold TerminalState.append
  split
  · exact closed
  · split
    · exact closed
    · exact edit_closed (fun _ => id) closed

/-- A closed session stays closed. -/
theorem respondHub_closed {choice : HubChoice} {op : HubOp} {resp : op.Resp}
    (answered : respondHub choice state op = some (resp, after))
    (closed : sessionClosed ref state) : sessionClosed ref after := by
  cases op with
  | add requestID sandboxID =>
      cases answered
      have bound := closed_bound closed
      obtain ⟨session, found, closed⟩ := closed
      exact ⟨session, (List.getElem?_append_left bound).trans found, closed⟩
  | remove id =>
      cases answered
      exact closed
  | drain =>
      simp only [respondHub] at answered
      split at answered
      · cases answered
        exact closed
      · cases answered
  | closeIfIdle id =>
      -- it closes a session, and opens none
      obtain ⟨_, same⟩ | ⟨target, session, _, _, _, _, _, same⟩ := closeIfIdle_cases state id
      · rw [Option.some.inj answered] at same
        cases same
        exact closed
      · rw [Option.some.inj answered] at same
        cases same
        have edited : sessionClosed ref (state.edit target
            (fun session => { session with closed := true }) state.channels) :=
          edit_closed (fun _ _ => rfl) closed
        exact edited
  | closeWatchers target =>
      cases answered
      unfold TerminalState.closeWatchers
      split
      · exact closed
      · split
        · exact closed
        · exact edit_closed (fun _ _ => rfl) closed
  | subscribe target =>
      simp only [respondHub, TerminalState.subscribe] at answered
      split at answered
      · cases answered
      · split at answered
        · cases answered
          exact closed
        · cases answered
          exact edit_closed (fun _ => id) closed
  | cancel target ch =>
      cases answered
      unfold TerminalState.cancel
      split
      · exact closed
      · split
        · exact edit_closed (fun _ => id) closed
        · exact closed
  | append target data =>
      cases answered
      exact append_closed target data closed
  | receive ch =>
      obtain ⟨⟨data, channels⟩, _, same⟩ := Option.map_eq_some_iff.mp answered
      cases same
      exact closed
  | output term data =>
      simp only [respondHub] at answered
      split at answered
      · cases answered
      · split at answered
        · cases answered
        · split at answered
          · cases answered
            exact append_closed _ data closed
          · cases answered
            exact closed
  | _ =>
      obtain ⟨_, sessions, _⟩ := respondHub_idle answered rfl
      rw [sessionClosed, sessions]
      exact closed

theorem closeWatchers_closed {session : TerminalSession}
    (found : state.sessions[ref]? = some session) : sessionClosed ref (state.closeWatchers ref) := by
  simp only [TerminalState.closeWatchers, found]
  by_cases closed : session.closed = true
  · rw [if_pos closed]
    exact ⟨session, found, closed⟩
  · rw [if_neg closed]
    exact ⟨_, by rw [edit_at, if_pos rfl, found]; rfl, rfl⟩

/-- What holds of every world that a terminal hub reaches. A channel that is closed
twice, or sent to after it was closed, would panic. -/
structure TerminalSafe (world : HubWorld) : Prop where
  noPanic : world.state.channels.panicked = false
  closedOnce : ∀ ref, world.trace.countP (fun event => closesTerminal ref event.call) ≤ 1
  leftBefore : ∀ tid choice thread ref answer rest state,
    hubMachine.Acts world tid choice thread (.terminalClose ref) answer rest state →
    ref ∉ world.state.refs
  onlyIdle : ∀ tid choice thread id ref rest state,
    hubMachine.Acts world tid choice thread (.closeIfIdle id) (some ref) rest state →
    sessionClosed ref state ∧
      ∃ session, world.state.sessions[ref]? = some session ∧ session.watchers = []
  closes : ∀ tid choice thread ref session answer rest state,
    hubMachine.Acts world tid choice thread (.closeWatchers ref) answer rest state →
    world.state.sessions[ref]? = some session → sessionClosed ref state
  staysClosed : ∀ move after ref, hubMachine.step world move = some after →
    sessionClosed ref world.state → sessionClosed ref after.state
  lateSubscriber : ∀ tid choice thread ref answer rest state,
    hubMachine.Acts world tid choice thread (.subscribe ref) answer rest state →
    sessionClosed ref world.state →
    ∃ channel, state.channels.all[answer.2]? = some channel ∧ channel.closed = true ∧
      channel.queue = []

theorem terminals_safe {world : HubWorld}
    (reaches : hubMachine.Reaches (fun _ _ => True) noTerminals world) : TerminalSafe world := by
  constructor
  · exact (watched_reachable reaches).calm
  · exact fun ref => (closing_reachable ref reaches).once
  · intro tid choice thread ref answer rest state acts
    exact close_after_leaving reaches acts
  · intro tid choice thread id ref rest state acts
    have answer : world.state.closeIfIdle id = (some ref, state) := Option.some.inj acts.answer
    obtain ⟨none, _⟩ | ⟨found, session, _, there, _, unwatched, same, left⟩ :=
      closeIfIdle_cases world.state id
    · rw [answer] at none
      cases none
    · rw [answer] at same left
      cases same
      cases left
      exact ⟨⟨{ session with closed := true }, by simp [TerminalState.edit, there], rfl⟩,
        session, there, unwatched⟩
  · intro tid choice thread ref session answer rest state acts found
    have same : some ((), world.state.closeWatchers ref) = some ((), state) := acts.answer
    cases same
    exact closeWatchers_closed found
  · intro move after ref stepped closed
    obtain ⟨tid, choice, thread, op, resp, rest, state, rfl, acts, rfl⟩ | ⟨task, rfl, _, rfl⟩ |
      ⟨rfl, rfl⟩ := hubMachine.step_cases stepped
    · exact respondHub_closed acts.answer closed
    · exact closed
    · exact closed
  · intro tid choice thread ref answer rest state acts closed
    exact subscribe_closed acts.answer closed

/-- A subscriber, an idle timer that finds it there, two requests that close the
session, and a subscriber that comes too late. -/
def closingMoves : List HubMove :=
  [.start (.add "request" "sandbox"), .run 0 { newID := "a" },
   .start (.subscribe 0), .run 1 {}, .start (.closeSessionIfIdle "a"), .run 2 {},
   .start (.closeSession "a"), .start (.closeSession "a"), .run 3 {}, .run 4 {},
   .start (.append 0 [104, 105]), .run 5 {}, .run 3 {}, .run 3 {}, .start (.cancel 0 0), .run 6 {},
   .start (.subscribe 0), .run 7 {}]

theorem terminals_safe_closing : ∃ world, TerminalSafe world ∧
    (world.state.channels.all.map fun channel => (channel.queue, channel.closed)) =
      [([[104, 105]], true), ([], true)] ∧ world.trace.length = 10 := by
  have ran : (hubMachine.runChecked (fun _ _ => true) closingMoves noTerminals).any (fun world =>
      decide ((world.state.channels.all.map fun channel => (channel.queue, channel.closed)) =
        [([[104, 105]], true), ([], true)] ∧ world.trace.length = 10)) = true := by decide +kernel
  obtain ⟨world, reaches, found⟩ := Machine.reaches_any ran
  exact ⟨world, terminals_safe (reaches.weaken fun _ _ _ => trivial), of_decide_eq_true found⟩

end Safety

end Runnerd
