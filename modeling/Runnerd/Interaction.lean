import Mathlib.Data.List.Basic

/-!
Programs that act on their surroundings only through calls. A program is the
tree of what it does after each possible answer, so a goroutine is a value and
its rest after any number of answers is a value too.

`Keeps` is the obligation a program meets by itself: whatever the answers are,
each call it makes is permitted by what it has been answered so far. `Calls` is
the part of it that does not look at the answers. `Follows` has a ghost state in
place of the answers, and answers that may be trusted. `perform` is the sequential reading, where a state gives the
answers.
-/

namespace Runnerd.Interaction

inductive Prog (Op : Type) (Resp : Op → Type) (α : Type) where
  | pure (value : α)
  | call (op : Op) (next : Resp op → Prog Op Resp α)

structure Call (Op : Type) (Resp : Op → Type) where
  op : Op
  resp : Resp op

variable {Op : Type} {Resp : Op → Type} {α β : Type}

namespace Prog

def bind (program : Prog Op Resp α) (next : α → Prog Op Resp β) : Prog Op Resp β :=
  match program with
  | .pure value => next value
  | .call op rest => .call op fun resp => (rest resp).bind next

instance : Monad (Prog Op Resp) where
  pure := Prog.pure
  bind := Prog.bind

def request (op : Op) : Prog Op Resp (Resp op) := .call op .pure

/-- No call is left to make. -/
def ended : Prog Op Resp α → Bool
  | .pure _ => true
  | .call _ _ => false

/-- A `range` loop whose body only acts. -/
def each (body : α → Prog Op Resp Unit) : List α → Prog Op Resp Unit
  | [] => .pure ()
  | item :: rest => (body item).bind fun _ => each body rest

theorem bind_assoc {γ : Type} (program : Prog Op Resp α) (middle : α → Prog Op Resp β)
    (last : β → Prog Op Resp γ) :
    (program >>= middle) >>= last = program >>= fun value => middle value >>= last := by
  induction program with
  | pure value => rfl
  | call op rest ih => exact congrArg (Prog.call op) (funext fun resp => ih resp)

/-- A loop that passes over some items is a loop over the others. -/
theorem each_filter (keep : α → Bool) (body : α → Prog Op Resp Unit) (items : List α) :
    each (fun item => if keep item then body item else Pure.pure ()) items =
      each body (items.filter keep) := by
  induction items with
  | nil => rfl
  | cons item rest ih =>
      cases kept : keep item with
      | true =>
          rw [List.filter_cons_of_pos kept]
          simp only [each, kept, if_true, ih]
      | false =>
          rw [List.filter_cons_of_neg (by simp [kept])]
          simp only [each, kept, Bool.false_eq_true, if_false, ih]
          rfl

end Prog

section Contracts
variable (contract : List (Call Op Resp) → Op → Prop)

-- `past` lists the answered calls, newest first. An inductive predicate, so that
-- matching a goal against it never runs the program.
inductive Keeps : Prog Op Resp α → (α → List (Call Op Resp) → Prop) → List (Call Op Resp) → Prop
  | done {value : α} {post : α → List (Call Op Resp) → Prop} {past : List (Call Op Resp)}
      (holds : post value past) : Keeps (.pure value) post past
  | call {op : Op} {next : Resp op → Prog Op Resp α} {post : α → List (Call Op Resp) → Prop}
      {past : List (Call Op Resp)} (permitted : contract past op)
      (rest : ∀ resp, Keeps (next resp) post (⟨op, resp⟩ :: past)) :
      Keeps (.call op next) post past

variable {contract}

theorem keeps_return {value : α} {post : α → List (Call Op Resp) → Prop}
    {past : List (Call Op Resp)} (holds : post value past) :
    Keeps contract (Pure.pure value : Prog Op Resp α) post past := .done holds

theorem keeps_call {op : Op} {next : Resp op → Prog Op Resp β}
    {post : β → List (Call Op Resp) → Prop} {past : List (Call Op Resp)}
    (permitted : contract past op)
    (rest : ∀ resp, Keeps contract (next resp) post (⟨op, resp⟩ :: past)) :
    Keeps contract (Prog.request op >>= next) post past := .call permitted rest

theorem keeps_last {op : Op} {post : Resp op → List (Call Op Resp) → Prop}
    {past : List (Call Op Resp)} (permitted : contract past op)
    (rest : ∀ resp, post resp (⟨op, resp⟩ :: past)) :
    Keeps contract (Prog.request op) post past := .call permitted fun resp => .done (rest resp)

theorem keeps_seq {program : Prog Op Resp α} {next : α → Prog Op Resp β}
    {post : β → List (Call Op Resp) → Prop} {past : List (Call Op Resp)}
    (first : Keeps contract program (fun value later => Keeps contract (next value) post later) past) :
    Keeps contract (program >>= next) post past := by
  change Keeps contract (program.bind next) post past
  induction program generalizing past with
  | pure value =>
      cases first with
      | done holds => exact holds
  | call op rest ih =>
      cases first with
      | call permitted keeps => exact .call permitted fun resp => ih resp (keeps resp)

theorem keeps_mono {program : Prog Op Resp α} {first second : α → List (Call Op Resp) → Prop}
    {past : List (Call Op Resp)} (implies : ∀ value later, first value later → second value later)
    (keeps : Keeps contract program first past) : Keeps contract program second past := by
  induction program generalizing past with
  | pure value =>
      cases keeps with
      | done holds => exact .done (implies value past holds)
  | call op rest ih =>
      cases keeps with
      | call permitted keeps => exact .call permitted fun resp => ih resp (keeps resp)

/-- A contract that permits every call asks nothing of a program. -/
theorem keeps_permitted (permitted : ∀ past op, contract past op) (program : Prog Op Resp α)
    (past : List (Call Op Resp)) : Keeps contract program (fun _ _ => True) past := by
  induction program generalizing past with
  | pure value => exact .done True.intro
  | call op rest ih => exact .call (permitted past op) fun resp => ih resp _

/-- A loop keeps the contract when its body does, whatever came before. -/
theorem keeps_each {body : α → Prog Op Resp Unit} {post : Unit → List (Call Op Resp) → Prop}
    (items : List α) {past : List (Call Op Resp)}
    (each : ∀ item ∈ items, ∀ before, past <:+ before →
      ∀ after : Unit → List (Call Op Resp) → Prop,
      (∀ value later, before <:+ later → after value later) →
      Keeps contract (body item) after before)
    (done : ∀ value later, past <:+ later → post value later) :
    Keeps contract (Prog.each body items) post past := by
  induction items generalizing past with
  | nil => exact .done (done () past List.suffix_rfl)
  | cons item rest ih =>
      change Keeps contract (body item >>= fun _ => Prog.each body rest) post past
      refine keeps_seq (each item List.mem_cons_self past List.suffix_rfl _
        fun _ later extends_ => ?_)
      exact ih (fun next member before reached => each next (List.mem_cons_of_mem item member)
        before (extends_.trans reached)) fun value last further => done value last
          (extends_.trans further)

/-- What a loop's body achieves for one item, and later calls leave standing, the
loop achieves for all of them. -/
theorem keeps_each_all {body : α → Prog Op Resp Unit} {fact : α → List (Call Op Resp) → Prop}
    (stands : ∀ item past later, past <:+ later → fact item past → fact item later)
    (items : List α) {past : List (Call Op Resp)}
    (each : ∀ item ∈ items, ∀ before, past <:+ before →
      Keeps contract (body item) (fun _ later => before <:+ later ∧ fact item later) before) :
    Keeps contract (Prog.each body items)
      (fun _ later => past <:+ later ∧ ∀ item ∈ items, fact item later) past := by
  induction items generalizing past with
  | nil => exact .done ⟨List.suffix_rfl, nofun⟩
  | cons item rest ih =>
      change Keeps contract (body item >>= fun _ => Prog.each body rest) _ past
      refine keeps_seq (keeps_mono ?_ (each item List.mem_cons_self past List.suffix_rfl))
      rintro _ later ⟨extends_, done⟩
      refine keeps_mono ?_ (ih fun next member before reached =>
        each next (List.mem_cons_of_mem item member) before (extends_.trans reached))
      rintro _ last ⟨further, others⟩
      refine ⟨extends_.trans further, fun next member => ?_⟩
      rcases List.mem_cons.mp member with rfl | other
      · exact stands next later last further done
      · exact others next other

end Contracts

/-- Every call that a program can make is among the allowed ones. -/
inductive Calls (allowed : Op → Prop) : Prog Op Resp α → Prop
  | done {value : α} : Calls allowed (.pure value)
  | call {op : Op} {next : Resp op → Prog Op Resp α} (permitted : allowed op)
      (rest : ∀ resp, Calls allowed (next resp)) : Calls allowed (.call op next)

section Footprints
variable {allowed : Op → Prop}

theorem calls_return {value : α} : Calls allowed (Pure.pure value : Prog Op Resp α) := .done

theorem calls_call {op : Op} {next : Resp op → Prog Op Resp β} (permitted : allowed op)
    (rest : ∀ resp, Calls allowed (next resp)) : Calls allowed (Prog.request op >>= next) :=
  .call permitted rest

theorem calls_last {op : Op} (permitted : allowed op) :
    Calls allowed (Prog.request op : Prog Op Resp (Resp op)) := .call permitted fun _ => .done

theorem calls_seq {program : Prog Op Resp α} {next : α → Prog Op Resp β}
    (first : Calls allowed program) (rest : ∀ value, Calls allowed (next value)) :
    Calls allowed (program >>= next) := by
  change Calls allowed (program.bind next)
  induction first with
  | @done value => exact rest value
  | call permitted _ ih => exact .call permitted ih

theorem calls_each {body : α → Prog Op Resp Unit} (items : List α)
    (each : ∀ item ∈ items, Calls allowed (body item)) : Calls allowed (Prog.each body items) := by
  induction items with
  | nil => exact .done
  | cons item rest ih =>
      change Calls allowed (body item >>= fun _ => Prog.each body rest)
      refine calls_seq (each item List.mem_cons_self) fun _ => ih fun next member => ?_
      exact each next (List.mem_cons_of_mem item member)

theorem calls_widen {more : Op → Prop} {program : Prog Op Resp α} (calls : Calls allowed program)
    (wider : ∀ op, allowed op → more op) : Calls more program := by
  induction calls with
  | done => exact .done
  | call permitted _ ih => exact .call (wider _ permitted) ih

/-- A program keeps a contract that permits each of its calls at any time. -/
theorem keeps_calls {contract : List (Call Op Resp) → Op → Prop} {program : Prog Op Resp α}
    (calls : Calls allowed program) (permits : ∀ past op, allowed op → contract past op)
    {post : α → List (Call Op Resp) → Prop} {past : List (Call Op Resp)}
    (done : ∀ value later, past <:+ later →
      (∀ call ∈ later, call ∈ past ∨ allowed call.op) → post value later) :
    Keeps contract program post past := by
  induction calls generalizing past with
  | @done value => exact .done (done value past List.suffix_rfl fun _ member => .inl member)
  | call permitted _ ih =>
      refine .call (permits past _ permitted) fun resp => ih resp ?_
      intro value later extends_ made
      refine done value later ((List.suffix_cons _ _).trans extends_) ?_
      intro call member
      rcases made call member with older | allowed
      · rcases List.mem_cons.mp older with rfl | earlier
        · exact .inr permitted
        · exact .inl earlier
      · exact .inr allowed

end Footprints

/-- What the programs of one protocol have in common: which calls a ghost state
permits, how a call moves the ghost state, and what may be assumed of its answer. -/
structure Protocol (Op : Type) (Resp : Op → Type) (Ghost : Type) where
  permits : Ghost → Op → Prop
  moves : Ghost → Op → Ghost
  trusts : (op : Op) → Resp op → Prop

section Protocols
variable {Ghost : Type}

def Protocol.ghost (protocol : Protocol Op Resp Ghost) (start : Ghost) :
    List (Call Op Resp) → Ghost
  | [] => start
  | call :: past => protocol.moves (protocol.ghost start past) call.op

inductive Follows (protocol : Protocol Op Resp Ghost) :
    Prog Op Resp α → (α → Ghost → Prop) → Ghost → Prop
  | done {value : α} {post : α → Ghost → Prop} {ghost : Ghost} (holds : post value ghost) :
      Follows protocol (.pure value) post ghost
  | call {op : Op} {next : Resp op → Prog Op Resp α} {post : α → Ghost → Prop} {ghost : Ghost}
      (permitted : protocol.permits ghost op)
      (rest : ∀ resp, protocol.trusts op resp →
        Follows protocol (next resp) post (protocol.moves ghost op)) :
      Follows protocol (.call op next) post ghost

variable {protocol : Protocol Op Resp Ghost}

theorem follows_return {value : α} {post : α → Ghost → Prop} {ghost : Ghost}
    (holds : post value ghost) :
    Follows protocol (Pure.pure value : Prog Op Resp α) post ghost := .done holds

theorem follows_call {op : Op} {next : Resp op → Prog Op Resp β} {post : β → Ghost → Prop}
    {ghost : Ghost} (permitted : protocol.permits ghost op)
    (rest : ∀ resp, protocol.trusts op resp →
      Follows protocol (next resp) post (protocol.moves ghost op)) :
    Follows protocol (Prog.request op >>= next) post ghost := .call permitted rest

theorem follows_last {op : Op} {post : Resp op → Ghost → Prop} {ghost : Ghost}
    (permitted : protocol.permits ghost op)
    (rest : ∀ resp, protocol.trusts op resp → post resp (protocol.moves ghost op)) :
    Follows protocol (Prog.request op) post ghost :=
  .call permitted fun resp trusted => .done (rest resp trusted)

theorem follows_seq {program : Prog Op Resp α} {next : α → Prog Op Resp β}
    {post : β → Ghost → Prop} {ghost : Ghost}
    (first : Follows protocol program
      (fun value later => Follows protocol (next value) post later) ghost) :
    Follows protocol (program >>= next) post ghost := by
  change Follows protocol (program.bind next) post ghost
  induction program generalizing ghost with
  | pure value =>
      cases first with
      | done holds => exact holds
  | call op rest ih =>
      cases first with
      | call permitted follows =>
          exact .call permitted fun resp trusted => ih resp (follows resp trusted)

theorem follows_mono {program : Prog Op Resp α} {first second : α → Ghost → Prop} {ghost : Ghost}
    (implies : ∀ value later, first value later → second value later)
    (follows : Follows protocol program first ghost) : Follows protocol program second ghost := by
  induction program generalizing ghost with
  | pure value =>
      cases follows with
      | done holds => exact .done (implies value ghost holds)
  | call op rest ih =>
      cases follows with
      | call permitted follows =>
          exact .call permitted fun resp trusted => ih resp (follows resp trusted)

/-- A loop whose body comes back to the ghost state it started from. -/
theorem follows_each {body : α → Prog Op Resp Unit} {ghost : Ghost} (items : List α)
    (each : ∀ item ∈ items, Follows protocol (body item) (fun _ later => later = ghost) ghost) :
    Follows protocol (Prog.each body items) (fun _ later => later = ghost) ghost := by
  induction items with
  | nil => exact .done rfl
  | cons item rest ih =>
      change Follows protocol (body item >>= fun _ => Prog.each body rest) _ ghost
      apply follows_seq
      refine follows_mono ?_ (each item List.mem_cons_self)
      rintro _ _ rfl
      exact ih fun next member => each next (List.mem_cons_of_mem item member)

end Protocols

section Sequential
variable {State Choice : Type}
variable (respond : Choice → State → (op : Op) → Option (Resp op × State))

/-- Runs a program to its end, one choice of the surroundings for each call. -/
def perform : Prog Op Resp α → List Choice → State → Option (α × State)
  | .pure value, [], state => some (value, state)
  | .pure _, _ :: _, _ => none
  | .call _ _, [], _ => none
  | .call op next, choice :: rest, state =>
      match respond choice state op with
      | none => none
      | some (resp, after) => perform (next resp) rest after

variable {respond}

theorem perform_return {value result : α} {choices : List Choice} {state after : State}
    (ran : perform respond (Pure.pure value : Prog Op Resp α) choices state = some (result, after)) :
    value = result ∧ state = after := by
  cases choices with
  | nil =>
      cases ran
      exact ⟨rfl, rfl⟩
  | cons choice rest => cases ran

theorem perform_call {op : Op} {next : Resp op → Prog Op Resp α} {result : α}
    {choices : List Choice} {state after : State}
    (ran : perform respond (Prog.request op >>= next) choices state = some (result, after)) :
    ∃ choice rest resp middle, choices = choice :: rest ∧
      respond choice state op = some (resp, middle) ∧
      perform respond (next resp) rest middle = some (result, after) := by
  cases choices with
  | nil => cases ran
  | cons choice rest =>
      change perform respond (.call op next) (choice :: rest) state = _ at ran
      rw [perform] at ran
      cases answered : respond choice state op with
      | none =>
          rw [answered] at ran
          cases ran
      | some answer =>
          obtain ⟨resp, middle⟩ := answer
          rw [answered] at ran
          exact ⟨choice, rest, resp, middle, rfl, answered, ran⟩

end Sequential

end Runnerd.Interaction
