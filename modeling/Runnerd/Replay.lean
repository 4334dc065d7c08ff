import Runnerd.Interleaving

/-!
What a thread has left to do is decided by its program and by the answers it
remembers, for as long as the process runs. So what a program establishes by its
end, whatever it is answered, holds of a thread that has ended.
-/

namespace Runnerd.Interaction

variable {Op : Type} {Resp : Op → Type} {α : Type}

/-- The rest of a program after these answers, newest first. -/
inductive Replays (program : Prog Op Resp α) : List (Call Op Resp) → Prog Op Resp α → Prop where
  | start : Replays program [] program
  | answer {past : List (Call Op Resp)} {op : Op} {next : Resp op → Prog Op Resp α}
      (before : Replays program past (.call op next)) (resp : Resp op) :
      Replays program (⟨op, resp⟩ :: past) (next resp)

/-- What is left of a program keeps what the program keeps. -/
theorem keeps_replayed {contract : List (Call Op Resp) → Op → Prop} {program rest : Prog Op Resp α}
    {post : α → List (Call Op Resp) → Prop} {past : List (Call Op Resp)}
    (keeps : Keeps contract program post []) (replays : Replays program past rest) :
    Keeps contract rest post past := by
  induction replays with
  | start => exact keeps
  | answer before resp ih =>
      cases ih with
      | call _ rest => exact rest resp

/-- What two contracts say of the same program, they say together. -/
theorem keeps_both {first second : List (Call Op Resp) → Op → Prop} {program : Prog Op Resp α}
    {left right : α → List (Call Op Resp) → Prop} {past : List (Call Op Resp)}
    (one : Keeps first program left past) (other : Keeps second program right past) :
    Keeps second program (fun value later => left value later ∧ right value later) past := by
  induction one with
  | done holds =>
      cases other with
      | done other => exact .done ⟨holds, other⟩
  | call _ _ ih =>
      cases other with
      | call permitted rest => exact .call permitted fun resp => ih resp (rest resp)

/-- A program keeps whatever its contract implies. -/
theorem keeps_weaken {first second : List (Call Op Resp) → Op → Prop} {program : Prog Op Resp α}
    {post : α → List (Call Op Resp) → Prop} {past : List (Call Op Resp)}
    (implies : ∀ past op, first past op → second past op) (keeps : Keeps first program post past) :
    Keeps second program post past := by
  induction keeps with
  | done holds => exact .done holds
  | call permitted _ ih => exact .call (implies _ _ permitted) ih

theorem replays_return {value : α} {rest : Prog Op Resp α} {past : List (Call Op Resp)}
    (replays : Replays (.pure value) past rest) : past = [] ∧ rest = .pure value := by
  induction replays with
  | start => exact ⟨rfl, rfl⟩
  | answer before resp ih => cases ih.2

/-- The answers after the first one replay what the first one leaves. -/
theorem replays_first {op : Op} {next : Resp op → Prog Op Resp α} {rest : Prog Op Resp α}
    {past : List (Call Op Resp)} (replays : Replays (.call op next) past rest) :
    (past = [] ∧ rest = .call op next) ∨
      ∃ resp inner, past = inner ++ [⟨op, resp⟩] ∧ Replays (next resp) inner rest := by
  induction replays with
  | start => exact .inl ⟨rfl, rfl⟩
  | @answer past called answers before resp ih =>
      rcases ih with ⟨rfl, same⟩ | ⟨first, inner, rfl, replays⟩
      · cases same
        exact .inr ⟨resp, [], rfl, .start⟩
      · exact .inr ⟨first, ⟨called, resp⟩ :: inner, rfl, .answer replays resp⟩

end Runnerd.Interaction

namespace Runnerd.Interleaving

open Interaction

variable {Op : Type} {Resp : Op → Type} {Task State Choice : Type}

namespace Machine
variable {machine : Machine Op Resp Task State Choice}

/-- A thread remembers the call that was answered last. -/
theorem Acts.remembered {world : World Op Resp Task State} {tid : Nat} {choice : Choice}
    {thread : Thread Op Resp Task} {op : Op} {resp : Resp op} {rest : Prog Op Resp Unit}
    {state : State} (acts : machine.Acts world tid choice thread op resp rest state) :
    (machine.acted world tid thread op resp rest state).threads[tid]? =
      some (thread.answered op resp rest) := by
  obtain ⟨bound, _⟩ := List.getElem?_eq_some_iff.mp acts.live
  refine (List.getElem?_append_left (by simpa using bound)).trans ?_
  simp [bound]

/-- While the process runs on, what a new thread has left is what its answers
leave. -/
theorem replays_since {start world : World Op Resp Task State}
    (process : machine.Reaches (fun _ move => move ≠ .crash) start world) {tid : Nat}
    (fresh : start.threads.length ≤ tid) {thread : Thread Op Resp Task}
    (live : world.threads[tid]? = some thread) :
    Replays (machine.body thread.task) thread.past thread.rest := by
  induction process generalizing tid thread with
  | refl =>
      rw [List.getElem?_eq_none fresh] at live
      cases live
  | step move _ running stepped ih =>
      obtain ⟨actor, choice, acting, op, resp, rest, state, rfl, acts, rfl⟩ | ⟨task, rfl, _, rfl⟩ |
        ⟨rfl, rfl⟩ := machine.step_cases stepped
      · rcases acted_thread live with ⟨rfl, rfl⟩ | ⟨_, live⟩ | ⟨task, _, rfl⟩
        · obtain ⟨answers, next, rfl⟩ := acts.next
          have replays := ih fresh acts.live
          rw [next] at replays
          exact .answer replays resp
        · exact ih fresh live
        · exact .start
      · rcases started_thread live with live | rfl
        · exact ih fresh live
        · exact .start
      · exact absurd rfl running

end Machine

end Runnerd.Interleaving
