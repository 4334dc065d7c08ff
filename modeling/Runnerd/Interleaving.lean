import Runnerd.Interaction

/-!
Any number of programs run against one shared state, one call at a time in any
order. A move picks a thread and what its surroundings answer, starts a new
thread from outside, or stops the whole process. Each thread remembers the
calls it was answered, and the world remembers all of them: these two memories
are what invariants speak about, no program reads them.

`obeys_reachable` turns the obligation that every task meets by itself into a
fact about each call of each run.
-/

namespace Runnerd.Interleaving

open Interaction

structure Machine (Op : Type) (Resp : Op → Type) (Task State Choice : Type) where
  body : Task → Prog Op Resp Unit
  /-- `none` while the call blocks. -/
  respond : Nat → Choice → State → (op : Op) → Option (Resp op × State)
  /-- The tasks that an answered call starts. -/
  spawned : Nat → (op : Op) → Resp op → List Task
  entry : Task → Bool
  /-- What is left of the state when the process stops. -/
  crash : State → State

structure Thread (Op : Type) (Resp : Op → Type) (Task : Type) where
  task : Task
  past : List (Call Op Resp)
  rest : Prog Op Resp Unit

structure Event (Op : Type) (Resp : Op → Type) (Task : Type) where
  tid : Nat
  task : Task
  call : Call Op Resp

structure World (Op : Type) (Resp : Op → Type) (Task State : Type) where
  state : State
  threads : List (Thread Op Resp Task)
  trace : List (Event Op Resp Task)

inductive Move (Task Choice : Type) where
  | run (tid : Nat) (choice : Choice)
  | start (task : Task)
  | crash

variable {Op : Type} {Resp : Op → Type} {Task State Choice : Type}

def Thread.answered (thread : Thread Op Resp Task) (op : Op) (resp : Resp op)
    (rest : Prog Op Resp Unit) : Thread Op Resp Task :=
  { thread with past := ⟨op, resp⟩ :: thread.past, rest := rest }

def Thread.halted (thread : Thread Op Resp Task) : Thread Op Resp Task :=
  { thread with rest := .pure () }

namespace Machine
variable (machine : Machine Op Resp Task State Choice)

def launch (task : Task) : Thread Op Resp Task := ⟨task, [], machine.body task⟩

def acted (world : World Op Resp Task State) (tid : Nat) (thread : Thread Op Resp Task)
    (op : Op) (resp : Resp op) (rest : Prog Op Resp Unit) (state : State) :
    World Op Resp Task State where
  state := state
  threads := world.threads.set tid (thread.answered op resp rest) ++
    (machine.spawned tid op resp).map machine.launch
  trace := ⟨tid, thread.task, ⟨op, resp⟩⟩ :: world.trace

def step (world : World Op Resp Task State) :
    Move Task Choice → Option (World Op Resp Task State)
  | .run tid choice =>
      match world.threads[tid]? with
      | none => none
      | some thread =>
          match thread.rest with
          | .pure _ => none
          | .call op next =>
              match machine.respond tid choice world.state op with
              | none => none
              | some (resp, state) =>
                  some (machine.acted world tid thread op resp (next resp) state)
  | .start task =>
      if machine.entry task then
        some { world with threads := world.threads ++ [machine.launch task] }
      else none
  | .crash =>
      some { world with
        state := machine.crash world.state
        threads := world.threads.map Thread.halted }

def run : List (Move Task Choice) → World Op Resp Task State → Option (World Op Resp Task State)
  | [], world => some world
  | move :: rest, world => (machine.step world move).bind (run rest)

/-- The call that a move answers. -/
def answered (world : World Op Resp Task State) : Move Task Choice → Option (Call Op Resp)
  | .run tid choice =>
      match world.threads[tid]? with
      | none => none
      | some thread =>
          match thread.rest with
          | .pure _ => none
          | .call op _ =>
              (machine.respond tid choice world.state op).map fun answer => ⟨op, answer.1⟩
  | _ => none

/-- `run` with a check before each move. -/
def runChecked (check : World Op Resp Task State → Move Task Choice → Bool) :
    List (Move Task Choice) → World Op Resp Task State → Option (World Op Resp Task State)
  | [], world => some world
  | move :: rest, world =>
      if check world move then (machine.step world move).bind (runChecked check rest) else none

/-- One answered call of one thread. -/
structure Acts (world : World Op Resp Task State) (tid : Nat) (choice : Choice)
    (thread : Thread Op Resp Task) (op : Op) (resp : Resp op) (rest : Prog Op Resp Unit)
    (state : State) : Prop where
  live : world.threads[tid]? = some thread
  next : ∃ answers, thread.rest = .call op answers ∧ answers resp = rest
  answer : machine.respond tid choice world.state op = some (resp, state)

/-- Everything a move can do. -/
theorem step_cases {world after : World Op Resp Task State} {move : Move Task Choice}
    (stepped : machine.step world move = some after) :
    (∃ tid choice thread op resp rest state, move = .run tid choice ∧
      machine.Acts world tid choice thread op resp rest state ∧
      after = machine.acted world tid thread op resp rest state) ∨
    (∃ task, move = .start task ∧ machine.entry task = true ∧
      after = { world with threads := world.threads ++ [machine.launch task] }) ∨
    (move = .crash ∧ after = { world with
      state := machine.crash world.state
      threads := world.threads.map Thread.halted }) := by
  cases move with
  | run tid choice =>
      simp only [step] at stepped
      cases live : world.threads[tid]? with
      | none => simp [live] at stepped
      | some thread =>
          rw [live] at stepped
          cases next : thread.rest with
          | pure value => simp [next] at stepped
          | call op answers =>
              simp only [next] at stepped
              cases answer : machine.respond tid choice world.state op with
              | none => simp [answer] at stepped
              | some pair =>
                  simp only [answer, Option.some.injEq] at stepped
                  exact .inl ⟨tid, choice, thread, op, pair.1, answers pair.1, pair.2, rfl,
                    ⟨live, ⟨answers, next, rfl⟩, answer⟩, stepped.symm⟩
  | start task =>
      simp only [step] at stepped
      split at stepped
      · exact .inr (.inl ⟨task, rfl, by assumption, (Option.some.inj stepped).symm⟩)
      · cases stepped
  | crash => exact .inr (.inr ⟨rfl, (Option.some.inj stepped).symm⟩)

/-- The worlds reached by moves that all meet a condition. -/
inductive Reaches (condition : World Op Resp Task State → Move Task Choice → Prop)
    (start : World Op Resp Task State) : World Op Resp Task State → Prop where
  | refl : Reaches condition start start
  | step {world after : World Op Resp Task State} (move : Move Task Choice)
      (before : Reaches condition start world) (meets : condition world move)
      (stepped : machine.step world move = some after) : Reaches condition start after

variable {machine}

theorem Reaches.trans {condition : World Op Resp Task State → Move Task Choice → Prop}
    {start middle world : World Op Resp Task State}
    (first : machine.Reaches condition start middle)
    (second : machine.Reaches condition middle world) : machine.Reaches condition start world := by
  induction second with
  | refl => exact first
  | step move _ meets stepped ih => exact .step move ih meets stepped

theorem Reaches.weaken {first second : World Op Resp Task State → Move Task Choice → Prop}
    {start world : World Op Resp Task State} (reaches : machine.Reaches first start world)
    (implies : ∀ world move, first world move → second world move) :
    machine.Reaches second start world := by
  induction reaches with
  | refl => exact .refl
  | step move _ meets stepped ih => exact .step move ih (implies _ _ meets) stepped

theorem reaches_checked {check : World Op Resp Task State → Move Task Choice → Bool}
    {start world after : World Op Resp Task State} {moves : List (Move Task Choice)}
    (before : machine.Reaches (fun world move => check world move = true) start world)
    (ran : machine.runChecked check moves world = some after) :
    machine.Reaches (fun world move => check world move = true) start after := by
  induction moves generalizing world with
  | nil =>
      cases ran
      exact before
  | cons move rest ih =>
      simp only [runChecked] at ran
      split at ran
      · rename_i passed
        obtain ⟨middle, stepped, ran⟩ := Option.bind_eq_some_iff.mp ran
        exact ih (.step move before passed stepped) ran
      · cases ran

/-- A run that passes its checks ends in a reachable world. -/
theorem reaches_any {check : World Op Resp Task State → Move Task Choice → Bool}
    {start : World Op Resp Task State} {moves : List (Move Task Choice)}
    {found : World Op Resp Task State → Bool}
    (ran : (machine.runChecked check moves start).any found = true) :
    ∃ world, machine.Reaches (fun world move => check world move = true) start world ∧
      found world = true := by
  obtain ⟨world, ran, holds⟩ := (Option.any_eq_true _ _).mp ran
  exact ⟨world, reaches_checked .refl ran, holds⟩

theorem Acts.answered_eq {world : World Op Resp Task State} {tid : Nat} {choice : Choice}
    {thread : Thread Op Resp Task} {op : Op} {resp : Resp op} {rest : Prog Op Resp Unit}
    {state : State} (acts : machine.Acts world tid choice thread op resp rest state) :
    machine.answered world (.run tid choice) = some ⟨op, resp⟩ := by
  obtain ⟨answers, next, _⟩ := acts.next
  simp [answered, acts.live, next, acts.answer]

theorem answered_acts {world : World Op Resp Task State} {move : Move Task Choice} {op : Op}
    {resp : Resp op} (answered : machine.answered world move = some ⟨op, resp⟩) :
    ∃ tid choice thread rest state, move = .run tid choice ∧
      machine.Acts world tid choice thread op resp rest state := by
  cases move with
  | start task => cases answered
  | crash => cases answered
  | run tid choice =>
      simp only [Machine.answered] at answered
      cases live : world.threads[tid]? with
      | none => simp [live] at answered
      | some thread =>
          rw [live] at answered
          cases next : thread.rest with
          | pure value => simp [next] at answered
          | call called answers =>
              simp only [next, Option.map_eq_some_iff] at answered
              obtain ⟨⟨result, state⟩, answer, same⟩ := answered
              cases same
              exact ⟨tid, choice, thread, answers result, state, rfl, live,
                ⟨answers, next, rfl⟩, answer⟩

/-- What each answer must meet, every recorded call has met. -/
theorem trace_reachable {condition : World Op Resp Task State → Move Task Choice → Prop}
    {start world : World Op Resp Task State} (fact : Call Op Resp → Prop)
    (first : ∀ event ∈ start.trace, fact event.call)
    (each : ∀ world move call, condition world move → machine.answered world move = some call →
      fact call)
    (reaches : machine.Reaches condition start world) : ∀ event ∈ world.trace, fact event.call := by
  induction reaches with
  | refl => exact first
  | step move _ meets stepped ih =>
      obtain ⟨tid, choice, thread, op, resp, rest, state, rfl, acts, rfl⟩ | ⟨task, rfl, _, rfl⟩ |
        ⟨rfl, rfl⟩ := machine.step_cases stepped
      · intro event member
        rcases List.mem_cons.mp member with rfl | older
        · exact each _ _ _ meets acts.answered_eq
        · exact ih event older
      · exact ih
      · exact ih

section Threads

theorem acted_thread {world : World Op Resp Task State} {tid : Nat} {thread : Thread Op Resp Task}
    {op : Op} {resp : Resp op} {rest : Prog Op Resp Unit} {state : State}
    {other : Nat} {found : Thread Op Resp Task}
    (live : (machine.acted world tid thread op resp rest state).threads[other]? = some found) :
    (other = tid ∧ found = thread.answered op resp rest) ∨
      (other ≠ tid ∧ world.threads[other]? = some found) ∨
      ∃ task ∈ machine.spawned tid op resp, found = machine.launch task := by
  simp only [acted] at live
  rw [List.getElem?_append] at live
  split at live
  · rw [List.getElem?_set] at live
    split at live
    · rename_i same
      split at live
      · exact .inl ⟨same.symm, (Option.some.inj live).symm⟩
      · cases live
    · rename_i different
      exact .inr (.inl ⟨fun same => different same.symm, live⟩)
  · obtain ⟨task, member, rfl⟩ := List.mem_map.mp (List.mem_of_getElem? live)
    exact .inr (.inr ⟨task, member, rfl⟩)

theorem started_thread {threads : List (Thread Op Resp Task)} {fresh found : Thread Op Resp Task}
    {other : Nat} (live : (threads ++ [fresh])[other]? = some found) :
    threads[other]? = some found ∨ found = fresh := by
  rw [List.getElem?_append] at live
  split at live
  · exact .inl live
  · exact .inr (by simpa using List.mem_of_getElem? live)

theorem halted_thread {threads : List (Thread Op Resp Task)} {found : Thread Op Resp Task}
    {other : Nat} (live : (threads.map Thread.halted)[other]? = some found) :
    ∃ thread, threads[other]? = some thread ∧ found = thread.halted := by
  rw [List.getElem?_map] at live
  obtain ⟨thread, present, rfl⟩ := Option.map_eq_some_iff.mp live
  exact ⟨thread, present, rfl⟩

/-- A later version of the same thread. A thread that has ended stays as it is. -/
structure Continues (old new : Thread Op Resp Task) : Prop where
  task : new.task = old.task
  past : old.past <:+ new.past
  ended : old.rest.ended = true → new.rest.ended = true

theorem continues_refl (thread : Thread Op Resp Task) : Continues thread thread :=
  ⟨rfl, List.suffix_rfl, id⟩

theorem thread_continues {world after : World Op Resp Task State} {move : Move Task Choice}
    (stepped : machine.step world move = some after) {other : Nat} {old : Thread Op Resp Task}
    (live : world.threads[other]? = some old) :
    ∃ new, after.threads[other]? = some new ∧ Continues old new := by
  obtain ⟨bound, _⟩ := List.getElem?_eq_some_iff.mp live
  obtain ⟨tid, choice, thread, op, resp, rest, state, rfl, acts, rfl⟩ | ⟨task, rfl, _, rfl⟩ |
    ⟨rfl, rfl⟩ := machine.step_cases stepped
  · have threads : (machine.acted world tid thread op resp rest state).threads[other]? =
        (world.threads.set tid (thread.answered op resp rest))[other]? :=
      List.getElem?_append_left (by simpa using bound)
    rw [threads]
    by_cases same : tid = other
    · subst same
      obtain rfl : thread = old := Option.some.inj (acts.live.symm.trans live)
      obtain ⟨answers, next, _⟩ := acts.next
      refine ⟨thread.answered op resp rest, by simp [bound], rfl, List.suffix_cons _ _, ?_⟩
      intro ended
      rw [next] at ended
      cases ended
    · exact ⟨old, by rw [List.getElem?_set_ne same, live], continues_refl old⟩
  · exact ⟨old, (List.getElem?_append_left bound).trans live, continues_refl old⟩
  · exact ⟨old.halted, by simp [live], rfl, List.suffix_rfl, fun _ => rfl⟩

/-- Every recorded call is in the memory of the thread that made it. -/
theorem traced_reachable {condition : World Op Resp Task State → Move Task Choice → Prop}
    {start world : World Op Resp Task State} (first : start.trace = [])
    (reaches : machine.Reaches condition start world) {event : Event Op Resp Task}
    (member : event ∈ world.trace) :
    ∃ thread, world.threads[event.tid]? = some thread ∧ event.call ∈ thread.past := by
  induction reaches with
  | refl =>
      rw [first] at member
      cases member
  | @step world after move _ _ stepped ih =>
      have older (recorded : event ∈ world.trace) :
          ∃ thread, after.threads[event.tid]? = some thread ∧ event.call ∈ thread.past := by
        obtain ⟨thread, live, called⟩ := ih recorded
        obtain ⟨new, present, continues⟩ := thread_continues stepped live
        exact ⟨new, present, continues.past.subset called⟩
      obtain ⟨tid, choice, thread, op, resp, rest, state, rfl, acts, rfl⟩ | ⟨task, rfl, _, rfl⟩ |
        ⟨rfl, rfl⟩ := machine.step_cases stepped
      · rcases List.mem_cons.mp member with rfl | recorded
        · obtain ⟨bound, _⟩ := List.getElem?_eq_some_iff.mp acts.live
          refine ⟨thread.answered op resp rest, ?_, List.mem_cons_self⟩
          refine (List.getElem?_append_left (by simpa using bound)).trans ?_
          simp [bound]
        · exact older recorded
      · exact older member
      · exact older member

/-- A fact about the tasks that more calls cannot spoil holds of every thread,
when it holds of the tasks that start from outside and of those that a call
starts. -/
theorem tasks_reachable {condition : World Op Resp Task State → Move Task Choice → Prop}
    {start world : World Op Resp Task State} (fact : List (Event Op Resp Task) → Task → Prop)
    (idle : start.threads = [])
    (grows : ∀ event trace task, fact trace task → fact (event :: trace) task)
    (enters : ∀ trace task, machine.entry task = true → fact trace task)
    (spawns : ∀ {world tid choice thread op resp rest state},
      machine.Reaches condition start world →
      machine.Acts world tid choice thread op resp rest state →
      ∀ task ∈ machine.spawned tid op resp, fact world.trace task)
    (reaches : machine.Reaches condition start world) {tid : Nat} {thread : Thread Op Resp Task}
    (live : world.threads[tid]? = some thread) : fact world.trace thread.task := by
  induction reaches generalizing tid thread with
  | refl =>
      rw [idle] at live
      cases live
  | step move before _ stepped ih =>
      obtain ⟨actor, choice, acting, op, resp, rest, state, rfl, acts, rfl⟩ | ⟨task, rfl, entered, rfl⟩ |
        ⟨rfl, rfl⟩ := machine.step_cases stepped
      · apply grows
        rcases acted_thread live with ⟨rfl, rfl⟩ | ⟨_, live⟩ | ⟨task, member, rfl⟩
        · have known := ih acts.live
          exact known
        · exact ih live
        · exact spawns before acts task member
      · rcases started_thread live with live | rfl
        · exact ih live
        · exact enters _ task entered
      · obtain ⟨old, present, rfl⟩ := halted_thread live
        have known := ih present
        exact known

/-- What holds of each call when it is answered, and outlasts further calls, holds of every
recorded call. -/
theorem events_reachable {condition : World Op Resp Task State → Move Task Choice → Prop}
    {start world : World Op Resp Task State}
    (fact : List (Event Op Resp Task) → Event Op Resp Task → Prop) (untouched : start.trace = [])
    (grows : ∀ later trace event, fact trace event → fact (later :: trace) event)
    (each : ∀ {world tid choice thread op resp rest state},
      machine.Reaches condition start world →
      machine.Acts world tid choice thread op resp rest state →
      fact world.trace ⟨tid, thread.task, ⟨op, resp⟩⟩)
    (reaches : machine.Reaches condition start world) :
    ∀ event ∈ world.trace, fact world.trace event := by
  induction reaches with
  | refl => simp [untouched]
  | step move before _ stepped ih =>
      obtain ⟨tid, choice, thread, op, resp, rest, state, rfl, acts, rfl⟩ | ⟨task, rfl, _, rfl⟩ |
        ⟨rfl, rfl⟩ := machine.step_cases stepped
      · intro event member
        apply grows
        rcases List.mem_cons.mp member with rfl | older
        · exact each before acts
        · exact ih event older
      · exact ih
      · exact ih

end Threads

section Obligations

/-- Each thread keeps its contract from here on, and the world has seen
everything the thread was answered. -/
structure Obeys (contract : Task → List (Call Op Resp) → Op → Prop)
    (world : World Op Resp Task State) : Prop where
  keeps : ∀ (tid : Nat) (thread : Thread Op Resp Task), world.threads[tid]? = some thread →
    Keeps (contract thread.task) thread.rest (fun _ _ => True) thread.past
  recorded : ∀ (tid : Nat) (thread : Thread Op Resp Task), world.threads[tid]? = some thread →
    ∀ call ∈ thread.past, (⟨tid, thread.task, call⟩ : Event Op Resp Task) ∈ world.trace

variable {contract : Task → List (Call Op Resp) → Op → Prop}

theorem Obeys.permits {world : World Op Resp Task State} (obeys : Obeys contract world)
    {tid : Nat} {choice : Choice} {thread : Thread Op Resp Task} {op : Op} {resp : Resp op}
    {rest : Prog Op Resp Unit} {state : State}
    (acts : machine.Acts world tid choice thread op resp rest state) :
    contract thread.task thread.past op := by
  obtain ⟨answers, next, _⟩ := acts.next
  have keeps := obeys.keeps tid thread acts.live
  rw [next] at keeps
  cases keeps with
  | call permitted _ => exact permitted

theorem obeys_step
    (tasks : ∀ task, Keeps (contract task) (machine.body task) (fun _ _ => True) [])
    {world after : World Op Resp Task State} {move : Move Task Choice}
    (obeys : Obeys contract world) (stepped : machine.step world move = some after) :
    Obeys contract after := by
  obtain ⟨tid, choice, thread, op, resp, rest, state, rfl, acts, rfl⟩ | ⟨task, rfl, _, rfl⟩ |
    ⟨rfl, rfl⟩ := machine.step_cases stepped
  · constructor
    · intro other found live
      rcases acted_thread live with ⟨rfl, rfl⟩ | ⟨_, live⟩ | ⟨task, _, rfl⟩
      · obtain ⟨answers, next, rfl⟩ := acts.next
        have keeps := obeys.keeps _ thread acts.live
        rw [next] at keeps
        cases keeps with
        | call _ rest => exact rest resp
      · exact obeys.keeps other found live
      · exact tasks task
    · intro other found live call member
      rcases acted_thread live with ⟨rfl, rfl⟩ | ⟨_, live⟩ | ⟨task, _, rfl⟩
      · rcases List.mem_cons.mp member with rfl | older
        · exact List.mem_cons_self
        · exact List.mem_cons_of_mem _ (obeys.recorded _ thread acts.live call older)
      · exact List.mem_cons_of_mem _ (obeys.recorded other found live call member)
      · cases member
  · constructor
    · intro other found live
      rcases started_thread live with live | rfl
      · exact obeys.keeps other found live
      · exact tasks task
    · intro other found live call member
      rcases started_thread live with live | rfl
      · exact obeys.recorded other found live call member
      · cases member
  · constructor
    · intro other found live
      obtain ⟨thread, _, rfl⟩ := halted_thread live
      exact .done trivial
    · intro other found live call member
      obtain ⟨thread, before, rfl⟩ := halted_thread live
      exact obeys.recorded other thread before call member

theorem obeys_reachable
    (tasks : ∀ task, Keeps (contract task) (machine.body task) (fun _ _ => True) [])
    {condition : World Op Resp Task State → Move Task Choice → Prop}
    {start world : World Op Resp Task State} (initial : Obeys contract start)
    (reaches : machine.Reaches condition start world) : Obeys contract world := by
  induction reaches with
  | refl => exact initial
  | step move _ _ stepped ih => exact obeys_step tasks ih stepped

/-- Each call that a thread remembers was permitted when it was made. -/
theorem kept_past
    (tasks : ∀ task, Keeps (contract task) (machine.body task) (fun _ _ => True) [])
    {condition : World Op Resp Task State → Move Task Choice → Prop}
    {start world : World Op Resp Task State} (idle : start.threads = [])
    (reaches : machine.Reaches condition start world) {tid : Nat} {thread : Thread Op Resp Task}
    (live : world.threads[tid]? = some thread) {call : Call Op Resp}
    {earlier : List (Call Op Resp)} (suffix : call :: earlier <:+ thread.past) :
    contract thread.task earlier call.op := by
  have none_live {tid : Nat} {thread : Thread Op Resp Task} :
      start.threads[tid]? ≠ some thread := by
    rw [idle]
    exact fun live => by cases live
  induction reaches generalizing tid thread with
  | refl => exact absurd live none_live
  | step move before _ stepped ih =>
      have initial : Obeys contract start :=
        ⟨fun _ _ live => absurd live none_live, fun _ _ live => absurd live none_live⟩
      have obeys := obeys_reachable tasks initial before
      obtain ⟨actor, choice, acting, op, resp, rest, state, rfl, acts, rfl⟩ | ⟨task, rfl, _, rfl⟩ |
        ⟨rfl, rfl⟩ := machine.step_cases stepped
      · rcases acted_thread live with ⟨rfl, rfl⟩ | ⟨_, live⟩ | ⟨task, _, rfl⟩
        · rcases List.suffix_cons_iff.mp suffix with last | older
          · cases last
            exact obeys.permits acts
          · have known := ih acts.live older
            exact known
        · exact ih live suffix
        · have short := suffix.length_le
          simp [launch] at short
      · rcases started_thread live with live | rfl
        · exact ih live suffix
        · have short := suffix.length_le
          simp [launch] at short
      · obtain ⟨old, present, rfl⟩ := halted_thread live
        have known := ih present suffix
        exact known

end Obligations

section Protocols
variable {Ghost : Type}

/-- Each thread follows the protocol of its task from here on and has followed
it so far. -/
structure Ruled (protocol : Task → Protocol Op Resp Ghost) (start : Ghost) (fits : Task → Prop)
    (world : World Op Resp Task State) : Prop where
  fit : ∀ (tid : Nat) (thread : Thread Op Resp Task), world.threads[tid]? = some thread →
    fits thread.task
  follows : ∀ (tid : Nat) (thread : Thread Op Resp Task), world.threads[tid]? = some thread →
    Follows (protocol thread.task) thread.rest (fun _ _ => True)
      ((protocol thread.task).ghost start thread.past)
  followed : ∀ (tid : Nat) (thread : Thread Op Resp Task), world.threads[tid]? = some thread →
    ∀ call earlier, call :: earlier <:+ thread.past →
      (protocol thread.task).permits ((protocol thread.task).ghost start earlier) call.op

variable {protocol : Task → Protocol Op Resp Ghost} {start : Ghost} {fits : Task → Prop}

theorem Ruled.permits {world : World Op Resp Task State} (ruled : Ruled protocol start fits world)
    {tid : Nat} {choice : Choice} {thread : Thread Op Resp Task} {op : Op} {resp : Resp op}
    {rest : Prog Op Resp Unit} {state : State}
    (acts : machine.Acts world tid choice thread op resp rest state) :
    (protocol thread.task).permits ((protocol thread.task).ghost start thread.past) op := by
  obtain ⟨answers, next, _⟩ := acts.next
  have follows := ruled.follows tid thread acts.live
  rw [next] at follows
  cases follows with
  | call permitted _ => exact permitted

/-- What the tasks, the answers and the calls that start new tasks owe to the
protocol. -/
structure Fair (machine : Machine Op Resp Task State Choice)
    (protocol : Task → Protocol Op Resp Ghost) (start : Ghost) (fits : Task → Prop) : Prop where
  tasks : ∀ task, fits task →
    Follows (protocol task) (machine.body task) (fun _ _ => True) start
  answers : ∀ {task tid choice state op resp after},
    machine.respond tid choice state op = some (resp, after) → (protocol task).trusts op resp
  spawns : ∀ {task ghost op tid resp}, fits task → (protocol task).permits ghost op →
    ∀ spawned ∈ machine.spawned tid op resp, fits spawned

theorem ruled_step (fair : Fair machine protocol start fits)
    {world after : World Op Resp Task State} {move : Move Task Choice}
    (ruled : Ruled protocol start fits world) (stepped : machine.step world move = some after)
    (enters : ∀ task, move = .start task → machine.entry task = true → fits task) :
    Ruled protocol start fits after := by
  obtain ⟨tid, choice, thread, op, resp, rest, state, rfl, acts, rfl⟩ | ⟨task, rfl, entered, rfl⟩ |
    ⟨rfl, rfl⟩ := machine.step_cases stepped
  · -- the thread that acts, the others, and what the call has spawned
    have permitted := ruled.permits acts
    have fresh : ∀ task ∈ machine.spawned tid op resp, fits task :=
      fair.spawns (ruled.fit tid thread acts.live) permitted
    constructor
    · intro other found live
      rcases acted_thread live with ⟨rfl, rfl⟩ | ⟨_, live⟩ | ⟨task, member, rfl⟩
      · exact ruled.fit _ thread acts.live
      · exact ruled.fit other found live
      · exact fresh task member
    · intro other found live
      rcases acted_thread live with ⟨rfl, rfl⟩ | ⟨_, live⟩ | ⟨task, member, rfl⟩
      · obtain ⟨answers, next, rfl⟩ := acts.next
        have follows := ruled.follows _ thread acts.live
        rw [next] at follows
        cases follows with
        | call _ rest => exact rest resp (fair.answers acts.answer)
      · exact ruled.follows other found live
      · exact fair.tasks task (fresh task member)
    · intro other found live call earlier suffix
      rcases acted_thread live with ⟨rfl, rfl⟩ | ⟨_, live⟩ | ⟨task, member, rfl⟩
      · rcases List.suffix_cons_iff.mp suffix with last | older
        · cases last
          exact permitted
        · exact ruled.followed _ thread acts.live call earlier older
      · exact ruled.followed other found live call earlier suffix
      · have short := suffix.length_le
        simp [launch] at short
  · constructor
    · intro other found live
      rcases started_thread live with live | rfl
      · exact ruled.fit other found live
      · exact enters task rfl entered
    · intro other found live
      rcases started_thread live with live | rfl
      · exact ruled.follows other found live
      · exact fair.tasks task (enters task rfl entered)
    · intro other found live call earlier suffix
      rcases started_thread live with live | rfl
      · exact ruled.followed other found live call earlier suffix
      · have short := suffix.length_le
        simp [launch] at short
  · constructor
    · intro other found live
      obtain ⟨thread, before, rfl⟩ := halted_thread live
      exact ruled.fit other thread before
    · intro other found live
      obtain ⟨thread, _, rfl⟩ := halted_thread live
      exact .done trivial
    · intro other found live call earlier suffix
      obtain ⟨thread, before, rfl⟩ := halted_thread live
      exact ruled.followed other thread before call earlier suffix

theorem ruled_reachable (fair : Fair machine protocol start fits)
    {condition : World Op Resp Task State → Move Task Choice → Prop}
    {first world : World Op Resp Task State} (initial : Ruled protocol start fits first)
    (enters : ∀ world task, condition world (.start task) → machine.entry task = true → fits task)
    (reaches : machine.Reaches condition first world) : Ruled protocol start fits world := by
  induction reaches with
  | refl => exact initial
  | step move _ meets stepped ih =>
      refine ruled_step fair ih stepped ?_
      rintro task rfl entered
      exact enters _ task meets entered

end Protocols

section Facts

def ThreadFact (Op : Type) (Resp : Op → Type) (Task State : Type) : Type :=
  State → List (Event Op Resp Task) → Nat → Task → List (Call Op Resp) → Prop

/-- What every thread that still has a call to make knows. -/
def Informed (fact : ThreadFact Op Resp Task State) (world : World Op Resp Task State) : Prop :=
  ∀ (tid : Nat) (thread : Thread Op Resp Task), world.threads[tid]? = some thread →
    (∃ op next, thread.rest = .call op next) →
    fact world.state world.trace tid thread.task thread.past

theorem Informed.actor {fact : ThreadFact Op Resp Task State} {world : World Op Resp Task State}
    (informed : Informed fact world) {tid : Nat} {choice : Choice} {thread : Thread Op Resp Task}
    {op : Op} {resp : Resp op} {rest : Prog Op Resp Unit} {state : State}
    (acts : machine.Acts world tid choice thread op resp rest state) :
    fact world.state world.trace tid thread.task thread.past := by
  obtain ⟨answers, next, _⟩ := acts.next
  exact informed tid thread acts.live ⟨op, answers, next⟩

/-- A fact that a call establishes for its own thread and leaves alone for the
others holds along every run. -/
theorem informed_step {fact : ThreadFact Op Resp Task State}
    {world after : World Op Resp Task State} {move : Move Task Choice}
    (informed : Informed fact world) (stepped : machine.step world move = some after)
    (fresh : ∀ state trace tid task, fact state trace tid task [])
    (own : ∀ {tid choice thread op resp rest state},
      machine.Acts world tid choice thread op resp rest state → move = .run tid choice →
      fact world.state world.trace tid thread.task thread.past →
      fact state (⟨tid, thread.task, ⟨op, resp⟩⟩ :: world.trace) tid thread.task
        (⟨op, resp⟩ :: thread.past))
    (others : ∀ {tid choice thread op resp rest state other found},
      machine.Acts world tid choice thread op resp rest state → move = .run tid choice →
      other ≠ tid → world.threads[other]? = some found →
      (∃ op next, found.rest = .call op next) →
      fact world.state world.trace other found.task found.past →
      fact state (⟨tid, thread.task, ⟨op, resp⟩⟩ :: world.trace) other found.task found.past) :
    Informed fact after := by
  obtain ⟨tid, choice, thread, op, resp, rest, state, rfl, acts, rfl⟩ | ⟨task, rfl, _, rfl⟩ |
    ⟨rfl, rfl⟩ := machine.step_cases stepped
  · intro other found live pending
    rcases acted_thread live with ⟨rfl, rfl⟩ | ⟨different, live⟩ | ⟨task, _, rfl⟩
    · exact own acts rfl (informed.actor acts)
    · exact others acts rfl different live pending (informed other found live pending)
    · exact fresh _ _ _ _
  · intro other found live pending
    rcases started_thread live with live | rfl
    · exact informed other found live pending
    · exact fresh _ _ _ _
  · intro other found live pending
    obtain ⟨thread, _, rfl⟩ := halted_thread live
    obtain ⟨op, next, stopped⟩ := pending
    cases stopped

end Facts

end Machine

end Runnerd.Interleaving
