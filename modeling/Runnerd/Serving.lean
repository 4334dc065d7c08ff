import Runnerd.Interaction

/-!
Programs run to their end against surroundings that never tire of answering.
`serve` takes its choices from an endless supply. `Serves` is the total reading:
whatever fair choices are made, no call blocks and the program comes to its end
in a state with the wanted property. The rules follow the program.
-/

namespace Runnerd.Interaction

section Serving
variable {Op : Type} {Resp : Op → Type} {State Choice α β : Type}
variable (respond : Choice → State → (op : Op) → Option (Resp op × State))

/-- The nth choice is for the nth call. `none` is a call that blocks. -/
def serve : Prog Op Resp α → (Nat → Choice) → State → Option (α × State)
  | .pure value, _, state => some (value, state)
  | .call op next, choices, state =>
      match respond (choices 0) state op with
      | none => none
      | some (resp, after) => serve (next resp) (fun index => choices (index + 1)) after

/-- One choice before an endless supply. -/
def supply (choice : Choice) (more : Nat → Choice) : Nat → Choice
  | 0 => choice
  | index + 1 => more index

variable (fair : Choice → Prop)

def Serves (program : Prog Op Resp α) (state : State) (post : α → State → Prop) : Prop :=
  ∀ choices : Nat → Choice, (∀ index, fair (choices index)) →
    ∃ value after, serve respond program choices state = some (value, after) ∧ post value after

variable {respond fair}

theorem serves_return {value : α} {state : State} {post : α → State → Prop}
    (holds : post value state) :
    Serves respond fair (Pure.pure value : Prog Op Resp α) state post := by
  intro choices _
  exact ⟨value, state, rfl, holds⟩

theorem serves_call {op : Op} {next : Resp op → Prog Op Resp β} {state : State}
    {post : β → State → Prop}
    (answers : ∀ choice, fair choice → ∃ resp after, respond choice state op = some (resp, after) ∧
      Serves respond fair (next resp) after post) :
    Serves respond fair (Prog.request op >>= next) state post := by
  intro choices allFair
  obtain ⟨resp, middle, answered, rest⟩ := answers (choices 0) (allFair 0)
  obtain ⟨value, after, served, holds⟩ :=
    rest (fun index => choices (index + 1)) fun index => allFair (index + 1)
  refine ⟨value, after, ?_, holds⟩
  change serve respond (.call op next) choices state = _
  rw [serve, answered]
  exact served

/-- A call that every fair choice answers alike, up to what it leaves. -/
theorem serves_last {op : Op} {state : State} {post : Resp op → State → Prop}
    (answers : ∀ choice, fair choice → ∃ resp after, respond choice state op = some (resp, after) ∧
      post resp after) :
    Serves respond fair (Prog.request op) state post := by
  intro choices allFair
  obtain ⟨resp, after, answered, holds⟩ := answers (choices 0) (allFair 0)
  refine ⟨resp, after, ?_, holds⟩
  simp only [Prog.request, serve, answered]

theorem serves_seq {program : Prog Op Resp α} {next : α → Prog Op Resp β} {state : State}
    {post : β → State → Prop}
    (first : Serves respond fair program state
      fun value middle => Serves respond fair (next value) middle post) :
    Serves respond fair (program >>= next) state post := by
  change Serves respond fair (program.bind next) state post
  induction program generalizing state with
  | pure value =>
      intro choices allFair
      obtain ⟨_, _, served, rest⟩ := first choices allFair
      cases served
      exact rest choices allFair
  | call op rest ih =>
      intro choices allFair
      -- the choices of the first call are fixed; those after it are any fair ones
      obtain ⟨_, _, served, _⟩ := first choices allFair
      rw [serve] at served
      cases answered : respond (choices 0) state op with
      | none => simp [answered] at served
      | some answer =>
          obtain ⟨resp, middle⟩ := answer
          have later : Serves respond fair (rest resp) middle fun value middle =>
              Serves respond fair (next value) middle post := by
            intro more moreFair
            obtain ⟨value, after, served, holds⟩ :=
              first (supply (choices 0) more) fun index => by
                cases index with
                | zero => exact allFair 0
                | succ index => exact moreFair index
            simp only [serve, supply, answered] at served
            exact ⟨value, after, served, holds⟩
          obtain ⟨value, after, served, holds⟩ := ih resp later
            (fun index => choices (index + 1)) fun index => allFair (index + 1)
          refine ⟨value, after, ?_, holds⟩
          rw [Prog.bind, serve, answered]
          exact served

theorem serves_mono {program : Prog Op Resp α} {state : State} {first second : α → State → Prop}
    (implies : ∀ value after, first value after → second value after)
    (ends : Serves respond fair program state first) : Serves respond fair program state second := by
  intro choices allFair
  obtain ⟨value, after, served, holds⟩ := ends choices allFair
  exact ⟨value, after, served, implies value after holds⟩

end Serving

end Runnerd.Interaction
