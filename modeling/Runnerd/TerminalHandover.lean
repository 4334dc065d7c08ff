import Runnerd.TerminalClosing
import Runnerd.TerminalCreation

/-!
No chunk that a terminal puts out is lost or sent twice on its way to the session:
the session has been given exactly the output of its own terminal, but for what the
creating request still holds while it keeps the callback waiting.
-/

namespace Runnerd

open Interaction Interleaving

section Ledger

def Settles (state : TerminalState) (trace : List HubEvent) (term : Nat) (creation : Creation) :
    Prop :=
  match creation.session with
  | none => creation.pending = printed term trace
  | some ref => ref < state.sessions.length ∧ delivered ref trace <+: printed term trace ∧
      (creation.flushing = false → printed term trace = delivered ref trace)

/-- Each terminal has its own session, and the session has what the terminal has put
out, but for what a request is still handing over. -/
structure Ledger (state : TerminalState) (trace : List HubEvent) : Prop where
  settles : ∀ (term : Nat) (creation : Creation), state.creations[term]? = some creation →
    Settles state trace term creation
  apart : ∀ (term other : Nat) (one two : Creation) (ref : Nat),
    state.creations[term]? = some one → state.creations[other]? = some two →
    one.session = some ref → two.session = some ref → term = other
  unborn : ∀ term, state.creations[term]? = none → printed term trace = []
  untold : ∀ ref, (∀ (term : Nat) (creation : Creation), state.creations[term]? = some creation →
    creation.session ≠ some ref) → delivered ref trace = []

variable {state after : TerminalState} {trace : List HubEvent} {event : HubEvent}
variable {term : Nat} {creation next : Creation}

theorem editCreation_at (state : TerminalState) (term : Nat) (f : Creation → Creation)
    (found : state.creations[term]? = some creation) (other : Nat) :
    (state.editCreation term f).creations[other]? =
      if term = other then some (f creation) else state.creations[other]? := by
  by_cases same : term = other
  · subst same
    simp [TerminalState.editCreation, found]
  · simp [TerminalState.editCreation, same]

theorem settles_frame {other : Nat} {old : Creation} (settles : Settles state trace other old)
    (longer : state.sessions.length ≤ after.sessions.length)
    (silent : prints other event.call = [])
    (apart : ∀ ref, old.session = some ref → appends ref event.call = []) :
    Settles after (event :: trace) other old := by
  unfold Settles at settles ⊢
  cases session : old.session with
  | none =>
      rw [session] at settles
      simpa [silent] using settles
  | some ref =>
      simp only [session, printed_cons, delivered_cons, silent, apart ref session,
        List.append_nil] at settles ⊢
      exact ⟨lt_of_lt_of_le settles.1 longer, settles.2⟩

/-- What a call does to one creation, and to no other one. -/
structure Touches (state after : TerminalState) (term : Nat) (creation next : Creation)
    (call : HubAnswered) : Prop where
  found : state.creations[term]? = some creation
  changed : ∀ other, after.creations[other]? =
    if term = other then some next else state.creations[other]?
  longer : state.sessions.length ≤ after.sessions.length
  silent : ∀ other, other ≠ term → prints other call = []
  apart : ∀ ref, next.session ≠ some ref → appends ref call = []
  keeps : ∀ ref, creation.session = some ref → next.session = some ref
  own : ∀ ref, next.session = some ref → creation.session = some ref ∨
    ∀ (other : Nat) (old : Creation), state.creations[other]? = some old → old.session ≠ some ref

theorem Touches.foreign (touches : Touches state after term creation next event.call)
    (ledger : Ledger state trace) {other : Nat} {old : Creation} {ref : Nat}
    (there : state.creations[other]? = some old) (different : other ≠ term)
    (session : old.session = some ref) : next.session ≠ some ref := by
  intro taken
  rcases touches.own ref taken with before | fresh
  · exact different (ledger.apart other term old creation ref there touches.found session before)
  · exact fresh other old there session

theorem Ledger.touched (ledger : Ledger state trace)
    (touches : Touches state after term creation next event.call)
    (settles : Settles after (event :: trace) term next) : Ledger after (event :: trace) := by
  have cases_ {other : Nat} {found : Creation} (there : after.creations[other]? = some found) :
      (other = term ∧ found = next) ∨ (other ≠ term ∧ state.creations[other]? = some found) := by
    rw [touches.changed] at there
    by_cases same : term = other
    · rw [if_pos same] at there
      exact .inl ⟨same.symm, (Option.some.inj there).symm⟩
    · rw [if_neg same] at there
      exact .inr ⟨Ne.symm same, there⟩
  constructor
  · intro other found there
    rcases cases_ there with ⟨rfl, rfl⟩ | ⟨different, old⟩
    · exact settles
    · refine settles_frame (ledger.settles other found old) touches.longer
        (touches.silent other different) fun ref session => ?_
      exact touches.apart ref (touches.foreign ledger old different session)
  · intro first second one two ref there thereToo left right
    rcases cases_ there with ⟨rfl, rfl⟩ | ⟨different, old⟩
    · rcases cases_ thereToo with ⟨rfl, _⟩ | ⟨differentToo, oldToo⟩
      · rfl
      · exact absurd left (touches.foreign ledger oldToo differentToo right)
    · rcases cases_ thereToo with ⟨rfl, rfl⟩ | ⟨_, oldToo⟩
      · exact absurd right (touches.foreign ledger old different left)
      · exact ledger.apart first second one two ref old oldToo left right
  · intro other missing
    rw [touches.changed] at missing
    by_cases same : term = other
    · rw [if_pos same] at missing
      cases missing
    · rw [if_neg same] at missing
      rw [printed_cons, ledger.unborn other missing, touches.silent other (Ne.symm same)]
      rfl
  · intro ref nobody
    have notNext : next.session ≠ some ref :=
      nobody term next ((touches.changed term).trans (if_pos rfl))
    have before := ledger.untold ref fun other old there session => by
      by_cases same : other = term
      · subst same
        obtain rfl : creation = old := Option.some.inj (touches.found.symm.trans there)
        exact notNext (touches.keeps ref session)
      · refine nobody other old ?_ session
        rw [touches.changed, if_neg (Ne.symm same), there]
    rw [delivered_cons, before, touches.apart ref notNext]
    rfl

/-- A call that is about no creation. -/
theorem Ledger.aside (ledger : Ledger state trace) (same : after.creations = state.creations)
    (longer : state.sessions.length ≤ after.sessions.length)
    (silent : ∀ other, prints other event.call = [])
    (apart : ∀ ref, appends ref event.call = []) : Ledger after (event :: trace) := by
  constructor
  · intro other found there
    rw [same] at there
    exact settles_frame (ledger.settles other found there) longer (silent other)
      fun ref _ => apart ref
  · rw [same]
    exact ledger.apart
  · intro other missing
    rw [same] at missing
    rw [printed_cons, ledger.unborn other missing, silent other]
    rfl
  · intro ref nobody
    rw [same] at nobody
    rw [delivered_cons, ledger.untold ref nobody, apart ref]
    rfl

theorem Ledger.begins (ledger : Ledger state trace)
    (silent : ∀ other, prints other event.call = [])
    (apart : ∀ ref, appends ref event.call = []) :
    Ledger { state with creations := state.creations ++ [{}] } (event :: trace) := by
  have cases_ {other : Nat} {found : Creation}
      (there : (state.creations ++ [({} : Creation)])[other]? = some found) :
      state.creations[other]? = some found ∨ (state.creations[other]? = none ∧ found = {}) := by
    rw [List.getElem?_append] at there
    split at there
    · exact .inl there
    · rename_i outside
      refine .inr ⟨List.getElem?_eq_none (Nat.le_of_not_lt outside), ?_⟩
      simpa using List.mem_of_getElem? there
  constructor
  · intro other found there
    rcases cases_ there with old | ⟨missing, rfl⟩
    · exact settles_frame (ledger.settles other found old) le_rfl (silent other)
        fun ref _ => apart ref
    · simp [Settles, ledger.unborn other missing, silent other]
  · intro first second one two ref there thereToo left right
    rcases cases_ there with old | ⟨_, rfl⟩
    · rcases cases_ thereToo with oldToo | ⟨_, rfl⟩
      · exact ledger.apart first second one two ref old oldToo left right
      · cases right
    · cases left
  · intro other missing
    rw [printed_cons, ledger.unborn other ?_, silent other]
    · rfl
    · rw [List.getElem?_eq_none_iff] at missing ⊢
      rw [List.length_append] at missing
      exact le_trans (Nat.le_add_right _ _) missing
  · intro ref nobody
    rw [delivered_cons, ledger.untold ref ?_, apart ref]
    · rfl
    · intro other old there
      obtain ⟨bound, _⟩ := List.getElem?_eq_some_iff.mp there
      exact nobody other old ((List.getElem?_append_left bound).trans there)

end Ledger

section Requests

def CreationPhase.term : CreationPhase → Option Nat
  | .started term | .locked term | .added term _ | .flushing term _ _ _ => some term
  | .fresh | .done => none

/-- The session that a request has made and shown to nobody yet. -/
def CreationPhase.ref : CreationPhase → Option Nat
  | .added _ ref => some ref
  | _ => none

def Holds (state : TerminalState) (term : Nat) (session : Option Nat) : Prop :=
  ∃ creation, state.creations[term]? = some creation ∧ creation.session = session ∧
    creation.flushing = true

/-- What a request may rely on. -/
def Stands (state : TerminalState) (trace : List HubEvent) : CreationPhase → Prop
  | .fresh | .done => True
  | .started term => ∃ creation, state.creations[term]? = some creation ∧ creation.session = none
  | .locked term => Holds state term none
  | .added term ref => Holds state term none ∧ ref < state.sessions.length ∧
      ∀ (other : Nat) (creation : Creation), state.creations[other]? = some creation →
        creation.session ≠ some ref
  | .flushing term ref sent waiting => Holds state term (some ref) ∧
      delivered ref trace = sent ∧ printed term trace = sent ++ waiting

variable {state after : TerminalState} {trace : List HubEvent} {event : HubEvent}
variable {term : Nat} {creation next : Creation} {phase : CreationPhase}

theorem stands_term (stands : Stands state trace phase) {term : Nat} (holds : phase.term = some term) :
    ∃ creation, state.creations[term]? = some creation := by
  cases phase with
  | fresh => cases holds
  | done => cases holds
  | started found =>
      cases holds
      obtain ⟨creation, there, _⟩ := stands
      exact ⟨creation, there⟩
  | locked found =>
      cases holds
      obtain ⟨creation, there, _⟩ := stands
      exact ⟨creation, there⟩
  | added found ref =>
      cases holds
      obtain ⟨⟨creation, there, _⟩, _⟩ := stands
      exact ⟨creation, there⟩
  | flushing found ref sent waiting =>
      cases holds
      obtain ⟨⟨creation, there, _⟩, _⟩ := stands
      exact ⟨creation, there⟩

/-- What a call of somebody else leaves to a request. -/
structure Spares (state after : TerminalState) (call : HubAnswered) (phase : CreationPhase) :
    Prop where
  longer : state.sessions.length ≤ after.sessions.length
  holds : ∀ (term : Nat) (creation : Creation), phase.term = some term →
    state.creations[term]? = some creation → ∃ next, after.creations[term]? = some next ∧
      next.session = creation.session ∧ (creation.flushing = true → next.flushing = true)
  foreign : ∀ ref, phase.ref = some ref →
    (∀ (other : Nat) (creation : Creation), state.creations[other]? = some creation →
      creation.session ≠ some ref) →
    ∀ (other : Nat) (creation : Creation), after.creations[other]? = some creation →
      creation.session ≠ some ref
  silent : ∀ term ref, phase.term = some term → Holds state term (some ref) →
    prints term call = [] ∧ appends ref call = []

theorem Spares.kept (spares : Spares state after event.call phase) {term : Nat}
    {session : Option Nat} (own : phase.term = some term) (holds : Holds state term session) :
    Holds after term session := by
  obtain ⟨creation, there, same, flushing⟩ := holds
  obtain ⟨next, now, session, still⟩ := spares.holds term creation own there
  exact ⟨next, now, session.trans same, still flushing⟩

theorem stands_spared (stands : Stands state trace phase)
    (spares : Spares state after event.call phase) : Stands after (event :: trace) phase := by
  cases phase with
  | fresh => trivial
  | done => trivial
  | started term =>
      obtain ⟨creation, there, session⟩ := stands
      obtain ⟨next, now, same, _⟩ := spares.holds term creation rfl there
      exact ⟨next, now, same.trans session⟩
  | locked term => exact spares.kept rfl stands
  | added term ref =>
      obtain ⟨holds, bound, nobody⟩ := stands
      exact ⟨spares.kept rfl holds, lt_of_lt_of_le bound spares.longer,
        spares.foreign ref rfl nobody⟩
  | flushing term ref sent waiting =>
      obtain ⟨holds, told, put⟩ := stands
      obtain ⟨quiet, apart⟩ := spares.silent term ref rfl holds
      refine ⟨spares.kept rfl holds, ?_, ?_⟩
      · rw [delivered_cons, apart, told, List.append_nil]
      · rw [printed_cons, quiet, put, List.append_nil]

variable (event) in
/-- A call about no creation spares every request. -/
theorem spares_aside (same : after.creations = state.creations)
    (longer : state.sessions.length ≤ after.sessions.length)
    (silent : ∀ other, prints other event.call = [])
    (apart : ∀ ref, appends ref event.call = []) : Spares state after event.call phase where
  longer := longer
  holds _ creation _ there := ⟨creation, same ▸ there, rfl, id⟩
  foreign _ _ nobody := same ▸ nobody
  silent term ref _ _ := ⟨silent term, apart ref⟩

variable (event) in
/-- A call about one creation spares the request that has another one. -/
theorem Touches.spares (touches : Touches state after term creation next event.call)
    (ledger : Ledger state trace) (different : phase.term ≠ some term)
    (apart : ∀ ref, phase.ref = some ref → next.session = some ref →
      creation.session = some ref) : Spares state after event.call phase where
  longer := touches.longer
  holds other old own there := by
    have unlike : term ≠ other := by
      rintro rfl
      exact different own
    exact ⟨old, by rw [touches.changed, if_neg unlike, there], rfl, id⟩
  foreign ref own nobody other found there session := by
    rw [touches.changed] at there
    by_cases same : term = other
    · rw [if_pos same] at there
      obtain rfl := Option.some.inj there
      exact nobody term creation touches.found (apart ref own session)
    · rw [if_neg same] at there
      exact nobody other found there session
  silent other ref own holds := by
    have unlike : other ≠ term := by
      rintro rfl
      exact different own
    obtain ⟨old, there, session, _⟩ := holds
    exact ⟨touches.silent other unlike,
      touches.apart ref (touches.foreign ledger there unlike session)⟩

variable (event) in
/-- The output of a terminal waits for the request that flushes. -/
theorem Touches.spares_output (touches : Touches state after term creation next event.call)
    (ledger : Ledger state trace) (session : next.session = creation.session)
    (idle : creation.flushing = false) : Spares state after event.call phase where
  longer := touches.longer
  holds other old own there := by
    by_cases same : term = other
    · subst same
      obtain rfl : creation = old := Option.some.inj (touches.found.symm.trans there)
      refine ⟨next, (touches.changed term).trans (if_pos rfl), session, fun flushing => ?_⟩
      rw [idle] at flushing
      cases flushing
    · exact ⟨old, by rw [touches.changed, if_neg same, there], rfl, id⟩
  foreign ref own nobody other found there taken := by
    rw [touches.changed] at there
    by_cases same : term = other
    · rw [if_pos same] at there
      obtain rfl := Option.some.inj there
      exact nobody term creation touches.found (session.symm.trans taken)
    · rw [if_neg same] at there
      exact nobody other found there taken
  silent other ref own holds := by
    obtain ⟨old, there, taken, flushing⟩ := holds
    by_cases same : other = term
    · subst same
      obtain rfl : creation = old := Option.some.inj (touches.found.symm.trans there)
      rw [idle] at flushing
      cases flushing
    · exact ⟨touches.silent other same,
        touches.apart ref (touches.foreign ledger there same taken)⟩

/-- The requests that create terminals, each with a terminal of its own. -/
structure Staffed (world : HubWorld) : Prop where
  stands : ∀ (tid : Nat) (thread : Thread HubOp HubOp.Resp HubTask),
    world.threads[tid]? = some thread → thread.task.creates = true →
    Stands world.state world.trace (creationPhase thread.past)
  lone : ∀ (tid other : Nat) (one two : Thread HubOp HubOp.Resp HubTask) (term : Nat),
    world.threads[tid]? = some one → world.threads[other]? = some two →
    one.task.creates = true → two.task.creates = true →
    (creationPhase one.past).term = some term → (creationPhase two.past).term = some term →
    tid = other
  unshared : ∀ (tid other : Nat) (one two : Thread HubOp HubOp.Resp HubTask) (ref : Nat),
    world.threads[tid]? = some one → world.threads[other]? = some two →
    one.task.creates = true → two.task.creates = true →
    (creationPhase one.past).ref = some ref → (creationPhase two.past).ref = some ref →
    tid = other

variable {world : HubWorld} {tid : Nat} {choice : HubChoice}
variable {thread : Thread HubOp HubOp.Resp HubTask} {op : HubOp} {resp : op.Resp}
variable {rest : HubAction Unit}

theorem acted_creating {other : Nat} {found : Thread HubOp HubOp.Resp HubTask}
    (live : (hubMachine.acted world tid thread op resp rest state).threads[other]? = some found)
    (creates : found.task.creates = true) :
    (other = tid ∧ found = thread.answered op resp rest) ∨
    (other ≠ tid ∧ world.threads[other]? = some found) := by
  rcases Machine.acted_thread live with own | old | ⟨task, member, rfl⟩
  · exact .inl own
  · exact .inr old
  · have spawned : task ∈ hubSpawned op := member
    have other : task.creates = false := by
      cases op <;> simp [hubSpawned] at spawned <;> subst spawned <;> rfl
    have same : task.creates = true := creates
    rw [other] at same
    cases same

/-- What a call of one thread has to do for the requests to stay as they should. -/
theorem Staffed.acted (staffed : Staffed world)
    (acts : hubMachine.Acts world tid choice thread op resp rest state)
    (own : thread.task.creates = true → Stands state (⟨tid, thread.task, ⟨op, resp⟩⟩ :: world.trace)
      ((creationPhase thread.past).next ⟨op, resp⟩))
    (others : ∀ other found, other ≠ tid → world.threads[other]? = some found →
      found.task.creates = true →
      Spares world.state state ⟨op, resp⟩ (creationPhase found.past))
    (term : thread.task.creates = true →
      ∀ term, ((creationPhase thread.past).next ⟨op, resp⟩).term = some term →
        (creationPhase thread.past).term = some term ∨ world.state.creations[term]? = none)
    (ref : thread.task.creates = true →
      ∀ ref, ((creationPhase thread.past).next ⟨op, resp⟩).ref = some ref →
        (creationPhase thread.past).ref = some ref ∨ world.state.sessions.length ≤ ref) :
    Staffed (hubMachine.acted world tid thread op resp rest state) := by
  have apart {other : Nat} {found : Thread HubOp HubOp.Resp HubTask}
      (live : world.threads[other]? = some found) (creates : found.task.creates = true)
      (actor : thread.task.creates = true) (different : other ≠ tid) {target : Nat}
      (mine : ((creationPhase thread.past).next ⟨op, resp⟩).term = some target) :
      (creationPhase found.past).term ≠ some target := by
    intro theirs
    rcases term actor target mine with before | fresh
    · exact different (staffed.lone other tid found thread target live acts.live creates actor
        theirs before)
    · obtain ⟨creation, there⟩ := stands_term (staffed.stands other found live creates) theirs
      rw [fresh] at there
      cases there
  have unshared {other : Nat} {found : Thread HubOp HubOp.Resp HubTask}
      (live : world.threads[other]? = some found) (creates : found.task.creates = true)
      (actor : thread.task.creates = true) (different : other ≠ tid) {target : Nat}
      (mine : ((creationPhase thread.past).next ⟨op, resp⟩).ref = some target) :
      (creationPhase found.past).ref ≠ some target := by
    intro theirs
    rcases ref actor target mine with before | fresh
    · exact different (staffed.unshared other tid found thread target live acts.live creates actor
        theirs before)
    · have stands := staffed.stands other found live creates
      cases phase : creationPhase found.past with
      | added term ref =>
          rw [phase] at stands theirs
          cases theirs
          exact absurd stands.2.1 (Nat.not_lt.mpr fresh)
      | fresh => simp [phase, CreationPhase.ref] at theirs
      | started term => simp [phase, CreationPhase.ref] at theirs
      | locked term => simp [phase, CreationPhase.ref] at theirs
      | flushing term ref sent waiting => simp [phase, CreationPhase.ref] at theirs
      | done => simp [phase, CreationPhase.ref] at theirs
  constructor
  · intro other found live creates
    rcases acted_creating live creates with ⟨rfl, rfl⟩ | ⟨different, old⟩
    · exact own creates
    · have stands := staffed.stands other found old creates
      exact stands_spared stands (others other found different old creates)
  · intro first second one two target live liveToo creates createsToo left right
    rcases acted_creating live creates with ⟨rfl, rfl⟩ | ⟨different, old⟩
    · rcases acted_creating liveToo createsToo with ⟨rfl, _⟩ | ⟨differentToo, oldToo⟩
      · rfl
      · exact absurd right (apart oldToo createsToo creates differentToo left)
    · rcases acted_creating liveToo createsToo with ⟨rfl, rfl⟩ | ⟨_, oldToo⟩
      · exact absurd left (apart old creates createsToo different right)
      · exact staffed.lone first second one two target old oldToo creates createsToo left right
  · intro first second one two target live liveToo creates createsToo left right
    rcases acted_creating live creates with ⟨rfl, rfl⟩ | ⟨different, old⟩
    · rcases acted_creating liveToo createsToo with ⟨rfl, _⟩ | ⟨differentToo, oldToo⟩
      · rfl
      · exact absurd right (unshared oldToo createsToo creates differentToo left)
    · rcases acted_creating liveToo createsToo with ⟨rfl, rfl⟩ | ⟨_, oldToo⟩
      · exact absurd left (unshared old creates createsToo different right)
      · exact staffed.unshared first second one two target old oldToo creates createsToo left right

theorem permits_cases {phase : CreationPhase} (permitted : phase.permits op) :
    (phase = .fresh ∧ op = .startTerminal) ∨
    (∃ term, phase = .started term ∧ op = .lockSession term) ∨
    (∃ term requestID sandboxID, phase = .locked term ∧ op = .add requestID sandboxID) ∨
    (∃ term ref id, phase = .added term ref ∧ op = .closeSessionWhenIdle id) ∨
    (∃ term ref, phase = .added term ref ∧ op = .adopt term ref) ∨
    (∃ term ref sent data waiting, phase = .flushing term ref sent (data :: waiting) ∧
      op = .append ref data) ∨
    (∃ term ref sent, phase = .flushing term ref sent [] ∧ op = .unlockSession term) := by
  unfold CreationPhase.permits at permitted
  split at permitted <;> simp_all

/-- The output of each terminal is where it belongs. -/
structure Handing (world : HubWorld) : Prop where
  ledger : Ledger world.state world.trace
  staffed : Staffed world
  handlers : ∀ (tid : Nat) (thread : Thread HubOp HubOp.Resp HubTask),
    world.threads[tid]? = some thread → thread.task.isAppend = false

theorem handlers_acted
    (handlers : ∀ (tid : Nat) (thread : Thread HubOp HubOp.Resp HubTask),
      world.threads[tid]? = some thread → thread.task.isAppend = false)
    (acting : world.threads[tid]? = some thread) (other : Nat)
    (found : Thread HubOp HubOp.Resp HubTask)
    (live : (hubMachine.acted world tid thread op resp rest state).threads[other]? = some found) :
    found.task.isAppend = false := by
  rcases Machine.acted_thread live with ⟨_, rfl⟩ | ⟨_, old⟩ | ⟨task, member, rfl⟩
  · exact handlers tid thread acting
  · exact handlers other found old
  · have spawned : task ∈ hubSpawned op := member
    change task.isAppend = false
    cases op <;> simp [hubSpawned] at spawned <;> subst spawned <;> rfl

/-- A call that is about no creation and leaves its own request where it was. -/
theorem Handing.aside (handing : Handing world)
    (acts : hubMachine.Acts world tid choice thread op resp rest state)
    (same : state.creations = world.state.creations)
    (longer : world.state.sessions.length ≤ state.sessions.length)
    (silent : ∀ other, prints other ⟨op, resp⟩ = [])
    (apart : ∀ ref, appends ref ⟨op, resp⟩ = [])
    (stays : thread.task.creates = true →
      (creationPhase thread.past).next ⟨op, resp⟩ = creationPhase thread.past) :
    Handing (hubMachine.acted world tid thread op resp rest state) where
  ledger := handing.ledger.aside same longer silent apart
  staffed := by
    refine handing.staffed.acted acts (fun creates => ?_) ?_ (fun creates target holds => ?_)
      fun creates target holds => ?_
    · rw [stays creates]
      exact stands_spared (handing.staffed.stands tid thread acts.live creates)
        (spares_aside _ same longer silent apart)
    · exact fun _ _ _ _ _ => spares_aside ⟨tid, thread.task, ⟨op, resp⟩⟩ same longer
        silent apart
    · rw [stays creates] at holds
      exact .inl holds
    · rw [stays creates] at holds
      exact .inl holds
  handlers := handlers_acted handing.handlers acts.live

/-- A call of a request about its own creation. -/
theorem Handing.touched (handing : Handing world)
    (acts : hubMachine.Acts world tid choice thread op resp rest state)
    (touches : Touches world.state state term creation next ⟨op, resp⟩)
    (settles : Settles state (⟨tid, thread.task, ⟨op, resp⟩⟩ :: world.trace) term next)
    (creates : thread.task.creates = true)
    (before : (creationPhase thread.past).term = some term)
    (now : ∀ found, ((creationPhase thread.past).next ⟨op, resp⟩).term = some found → found = term)
    (shown : ∀ ref, next.session = some ref → creation.session = some ref ∨
      (creationPhase thread.past).ref = some ref)
    (kept : ∀ ref, ((creationPhase thread.past).next ⟨op, resp⟩).ref = some ref →
      (creationPhase thread.past).ref = some ref ∨ world.state.sessions.length ≤ ref)
    (stands : Stands state (⟨tid, thread.task, ⟨op, resp⟩⟩ :: world.trace)
      ((creationPhase thread.past).next ⟨op, resp⟩)) :
    Handing (hubMachine.acted world tid thread op resp rest state) where
  ledger := handing.ledger.touched touches settles
  staffed := by
    refine handing.staffed.acted acts (fun _ => stands) ?_ (fun _ target holds => ?_)
      fun _ => kept
    · intro other found different live theirs
      have apart : (creationPhase found.past).term ≠ some term := fun same =>
        different (handing.staffed.lone other tid found thread term live acts.live theirs creates
          same before)
      refine touches.spares ⟨tid, thread.task, ⟨op, resp⟩⟩ handing.ledger apart ?_
      intro ref own session
      rcases shown ref session with had | mine
      · exact had
      · exact absurd (handing.staffed.unshared other tid found thread ref live acts.live theirs
          creates own mine) different
    · rw [now target holds]
      exact .inl before
  handlers := handlers_acted handing.handlers acts.live

theorem append_creations (state : TerminalState) (ref : Nat) (data : Bytes) :
    (state.append ref data).creations = state.creations := by
  unfold TerminalState.append
  split
  · rfl
  · split <;> rfl

/-- `editCreation` on the creation that a request has. -/
theorem edit_touches {f : Creation → Creation} {call : HubAnswered}
    (found : state.creations[term]? = some creation)
    (silent : ∀ other, prints other call = []) (apart : ∀ ref, appends ref call = [])
    (keeps : ∀ ref, creation.session = some ref → (f creation).session = some ref)
    (own : ∀ ref, (f creation).session = some ref → creation.session = some ref ∨
      ∀ (other : Nat) (old : Creation), state.creations[other]? = some old →
        old.session ≠ some ref) :
    Touches state (state.editCreation term f) term creation (f creation) call where
  found := found
  changed := editCreation_at state term f found
  longer := le_rfl
  silent other _ := silent other
  apart ref _ := apart ref
  keeps := keeps
  own := own

theorem handing_starts (handing : Handing world)
    {resp : HubOp.Resp .startTerminal}
    (acts : hubMachine.Acts world tid choice thread .startTerminal resp rest state)
    (phase : creationPhase thread.past = .fresh) :
    Handing (hubMachine.acted world tid thread .startTerminal resp rest state) := by
  have answer : respondHub choice world.state .startTerminal = some (resp, state) := acts.answer
  simp only [respondHub] at answer
  split at answer
  · cases answer
    exact handing.aside acts rfl le_rfl (fun _ => rfl) (fun _ => rfl) fun _ => by rw [phase]; rfl
  · cases answer
    have missing : world.state.creations[world.state.creations.length]? = none :=
      List.getElem?_eq_none le_rfl
    refine ⟨handing.ledger.begins (fun _ => rfl) (fun _ => rfl), ?_,
      handlers_acted handing.handlers acts.live⟩
    refine handing.staffed.acted acts (fun _ => ?_) ?_ (fun _ target holds => ?_)
      fun _ target holds => ?_
    · rw [phase]
      exact ⟨{}, by simp, rfl⟩
    · intro other found _ live _
      have kept {term : Nat} {creation : Creation}
          (there : world.state.creations[term]? = some creation) :
          (world.state.creations ++ [({} : Creation)])[term]? = some creation := by
        obtain ⟨bound, _⟩ := List.getElem?_eq_some_iff.mp there
        exact (List.getElem?_append_left bound).trans there
      refine ⟨le_rfl, fun term creation _ there => ⟨creation, kept there, rfl, id⟩, ?_,
        fun _ _ _ _ => ⟨rfl, rfl⟩⟩
      intro ref _ nobody term creation there session
      rw [List.getElem?_append] at there
      split at there
      · exact nobody term creation there session
      · have fresh : creation = {} := by simpa using List.mem_of_getElem? there
        subst fresh
        cases session
    · rw [phase] at holds
      cases holds
      exact .inr missing
    · rw [phase] at holds
      cases holds

theorem handing_locks (handing : Handing world)
    {resp : HubOp.Resp (.lockSession term)}
    (acts : hubMachine.Acts world tid choice thread (.lockSession term) resp rest state)
    (creates : thread.task.creates = true) (phase : creationPhase thread.past = .started term) :
    Handing (hubMachine.acted world tid thread (.lockSession term) resp rest state) := by
  have stands := handing.staffed.stands tid thread acts.live creates
  rw [phase] at stands
  obtain ⟨creation, found, session⟩ := stands
  have settles := handing.ledger.settles term creation found
  have answer : respondHub choice world.state (.lockSession term) = some (resp, state) :=
    acts.answer
  simp only [respondHub, found] at answer
  split at answer
  · cases answer
  · cases answer
    have touches : Touches world.state (world.state.editCreation term
        fun creation => { creation with flushing := true }) term creation
        { creation with flushing := true } ⟨.lockSession term, ()⟩ :=
      edit_touches found (fun _ => rfl) (fun _ => rfl) (fun _ => id) fun _ => .inl
    have now : (creationPhase thread.past).next ⟨.lockSession term, ()⟩ = .locked term := by
      rw [phase]
      rfl
    refine handing.touched acts touches ?_ creates (by rw [phase]; rfl) ?_ (fun _ => .inl) ?_ ?_
    · simp only [Settles, session] at settles ⊢
      simpa [prints] using settles
    · rw [now]
      exact fun other same => (Option.some.inj same).symm
    · rw [now]
      exact fun other same => by cases same
    · rw [now]
      exact ⟨_, (touches.changed term).trans (if_pos rfl), session, rfl⟩

theorem handing_adds (handing : Handing world) {requestID sandboxID : String}
    {resp : HubOp.Resp (.add requestID sandboxID)}
    (acts : hubMachine.Acts world tid choice thread (.add requestID sandboxID) resp rest state)
    (creates : thread.task.creates = true) (phase : creationPhase thread.past = .locked term) :
    Handing (hubMachine.acted world tid thread (.add requestID sandboxID) resp rest state) := by
  have stands := handing.staffed.stands tid thread acts.live creates
  rw [phase] at stands
  obtain ⟨creation, found, session, flushing⟩ := stands
  have settles := handing.ledger.settles term creation found
  have answer : respondHub choice world.state (.add requestID sandboxID) = some (resp, state) :=
    acts.answer
  cases answer
  have touches : Touches world.state (world.state.add choice.newID requestID sandboxID) term
      creation creation ⟨.add requestID sandboxID, (world.state.sessions.length, choice.newID)⟩ := by
    refine ⟨found, fun other => ?_, ?_, fun _ _ => rfl, fun _ _ => rfl, fun _ => id, fun _ => .inl⟩
    · by_cases same : term = other
      · rw [if_pos same, ← same]
        exact found
      · rw [if_neg same]
        rfl
    · simp [TerminalState.add]
  have now : (creationPhase thread.past).next
      ⟨.add requestID sandboxID, (world.state.sessions.length, choice.newID)⟩ =
      .added term world.state.sessions.length := by
    rw [phase]
    rfl
  refine handing.touched acts touches ?_ creates (by rw [phase]; rfl) ?_ (fun _ => .inl) ?_ ?_
  · simp only [Settles, session] at settles ⊢
    simpa [prints] using settles
  · rw [now]
    exact fun other same => (Option.some.inj same).symm
  · rw [now]
    exact fun other same => .inr (le_of_eq (Option.some.inj same))
  · rw [now]
    refine ⟨⟨creation, found, session, flushing⟩, by simp [TerminalState.add], ?_⟩
    intro other old there taken
    have bound := handing.ledger.settles other old there
    simp only [Settles, taken] at bound
    exact absurd bound.1 (lt_irrefl _)

theorem handing_adopts (handing : Handing world) {ref : Nat}
    {resp : HubOp.Resp (.adopt term ref)}
    (acts : hubMachine.Acts world tid choice thread (.adopt term ref) resp rest state)
    (creates : thread.task.creates = true) (phase : creationPhase thread.past = .added term ref) :
    Handing (hubMachine.acted world tid thread (.adopt term ref) resp rest state) := by
  have stands := handing.staffed.stands tid thread acts.live creates
  rw [phase] at stands
  obtain ⟨⟨creation, found, session, flushing⟩, bound, nobody⟩ := stands
  have settles := handing.ledger.settles term creation found
  simp only [Settles, session] at settles
  have untold := handing.ledger.untold ref nobody
  have answer : respondHub choice world.state (.adopt term ref) = some (resp, state) := acts.answer
  simp only [respondHub, found] at answer
  cases answer
  have touches : Touches world.state (world.state.editCreation term
      fun creation => { creation with session := some ref }) term creation
      { creation with session := some ref } ⟨.adopt term ref, creation.pending⟩ := by
    refine edit_touches found (fun _ => rfl) (fun _ => rfl) (fun other had => ?_) fun other now => ?_
    · rw [session] at had
      cases had
    · cases now
      exact .inr nobody
  have now : (creationPhase thread.past).next ⟨.adopt term ref, creation.pending⟩ =
      .flushing term ref [] creation.pending := by
    rw [phase]
    rfl
  refine handing.touched acts touches ?_ creates (by rw [phase]; rfl) ?_ (fun other shown => ?_) ?_ ?_
  · refine ⟨bound, ?_, fun idle => ?_⟩
    · simp [untold, appends]
    · exact absurd (flushing.symm.trans idle) (by decide)
  · rw [now]
    exact fun other same => (Option.some.inj same).symm
  · cases shown
    rw [phase]
    exact .inr rfl
  · rw [now]
    exact fun other same => by cases same
  · rw [now]
    refine ⟨⟨_, (touches.changed term).trans (if_pos rfl), rfl, flushing⟩, ?_, ?_⟩
    · simp [untold, appends]
    · simp [settles, prints]

theorem handing_sends (handing : Handing world) {ref : Nat} {sent waiting : List Bytes}
    {data : Bytes}
    {resp : HubOp.Resp (.append ref data)}
    (acts : hubMachine.Acts world tid choice thread (.append ref data) resp rest state)
    (creates : thread.task.creates = true)
    (phase : creationPhase thread.past = .flushing term ref sent (data :: waiting)) :
    Handing (hubMachine.acted world tid thread (.append ref data) resp rest state) := by
  have stands := handing.staffed.stands tid thread acts.live creates
  rw [phase] at stands
  obtain ⟨⟨creation, found, session, flushing⟩, told, put⟩ := stands
  have settles := handing.ledger.settles term creation found
  simp only [Settles, session] at settles
  have answer : respondHub choice world.state (.append ref data) = some (resp, state) := acts.answer
  cases answer
  have creations := append_creations world.state ref data
  have size := (append_still world.state ref data).2
  have touches : Touches world.state (world.state.append ref data) term creation creation
      ⟨.append ref data, ()⟩ := by
    refine ⟨found, fun other => ?_, size.ge, fun _ _ => rfl, fun other different => ?_,
      fun _ => id, fun _ => .inl⟩
    · rw [creations]
      by_cases same : term = other
      · rw [if_pos same, ← same]
        exact found
      · rw [if_neg same]
    · have unlike : ref ≠ other := fun same => different (same ▸ session)
      simp [appends, unlike]
  have now : (creationPhase thread.past).next ⟨.append ref data, ()⟩ =
      .flushing term ref (sent ++ [data]) waiting := by
    rw [phase]
    rfl
  refine handing.touched acts touches ?_ creates (by rw [phase]; rfl) ?_ (fun _ => .inl) ?_ ?_
  · simp only [Settles, session]
    refine ⟨size.symm ▸ settles.1, ?_, fun idle => ?_⟩
    · simp [told, put, appends, prints]
    · exact absurd (flushing.symm.trans idle) (by decide)
  · rw [now]
    exact fun other same => (Option.some.inj same).symm
  · rw [now]
    exact fun other same => by cases same
  · rw [now]
    refine ⟨⟨creation, creations.symm ▸ found, session, flushing⟩, ?_, ?_⟩
    · simp [told, appends]
    · simp [put, prints]

theorem handing_unlocks (handing : Handing world) {ref : Nat} {sent : List Bytes}
    {resp : HubOp.Resp (.unlockSession term)}
    (acts : hubMachine.Acts world tid choice thread (.unlockSession term) resp rest state)
    (creates : thread.task.creates = true)
    (phase : creationPhase thread.past = .flushing term ref sent []) :
    Handing (hubMachine.acted world tid thread (.unlockSession term) resp rest state) := by
  have stands := handing.staffed.stands tid thread acts.live creates
  rw [phase] at stands
  obtain ⟨⟨creation, found, session, flushing⟩, told, put⟩ := stands
  have settles := handing.ledger.settles term creation found
  simp only [Settles, session] at settles
  have answer : respondHub choice world.state (.unlockSession term) = some (resp, state) :=
    acts.answer
  cases answer
  have touches : Touches world.state (world.state.editCreation term
      fun creation => { creation with pending := [], flushing := false }) term creation
      { creation with pending := [], flushing := false } ⟨.unlockSession term, ()⟩ :=
    edit_touches found (fun _ => rfl) (fun _ => rfl) (fun _ => id) fun _ => .inl
  have now : (creationPhase thread.past).next ⟨.unlockSession term, ()⟩ = .done := by
    rw [phase]
    rfl
  refine handing.touched acts touches ?_ creates (by rw [phase]; rfl) ?_ (fun _ => .inl) ?_ ?_
  · simp only [Settles, session]
    refine ⟨settles.1, ?_, fun _ => ?_⟩
    · simp [told, put, appends, prints]
    · simp [told, put, appends, prints]
  · rw [now]
    exact fun other same => by cases same
  · rw [now]
    exact fun other same => by cases same
  · rw [now]
    trivial

theorem handing_creating (obeys : Machine.Obeys creationContract world) (handing : Handing world)
    (acts : hubMachine.Acts world tid choice thread op resp rest state)
    (creates : thread.task.creates = true) :
    Handing (hubMachine.acted world tid thread op resp rest state) := by
  have permitted : (creationPhase thread.past).permits op := by
    simpa [creationContract, creates] using obeys.permits acts
  rcases permits_cases permitted with ⟨phase, rfl⟩ | ⟨term, phase, rfl⟩ | ⟨term, _, _, phase, rfl⟩ |
    ⟨term, ref, id, phase, rfl⟩ | ⟨term, ref, phase, rfl⟩ | ⟨term, ref, sent, data, waiting, phase, rfl⟩ |
    ⟨term, ref, sent, phase, rfl⟩
  · exact handing_starts handing acts phase
  · exact handing_locks handing acts creates phase
  · exact handing_adds handing acts creates phase
  · have answer : respondHub choice world.state (.closeSessionWhenIdle id) = some (resp, state) :=
      acts.answer
    cases answer
    exact handing.aside acts rfl le_rfl (fun _ => rfl) (fun _ => rfl) fun _ => by rw [phase]; rfl
  · exact handing_adopts handing acts creates phase
  · exact handing_sends handing acts creates phase
  · exact handing_unlocks handing acts creates phase

theorem handing_prints (handing : Handing world) {data : Bytes} {resp : HubOp.Resp (.output term data)}
    (acts : hubMachine.Acts world tid choice thread (.output term data) resp rest state)
    (creates : thread.task.creates = false) :
    Handing (hubMachine.acted world tid thread (.output term data) resp rest state) := by
  have other_ (actor : thread.task.creates = true) : False := by
    rw [creates] at actor
    cases actor
  have staffed {creation next : Creation} (touches : Touches world.state state term creation next
      ⟨.output term data, resp⟩) (session : next.session = creation.session)
      (idle : creation.flushing = false) :
      Staffed (hubMachine.acted world tid thread (.output term data) resp rest state) := by
    refine handing.staffed.acted acts (fun actor => (other_ actor).elim) ?_
      (fun actor => (other_ actor).elim) fun actor => (other_ actor).elim
    exact fun _ _ _ _ _ => touches.spares_output ⟨tid, thread.task, ⟨_, resp⟩⟩
      handing.ledger session idle
  have answer : respondHub choice world.state (.output term data) = some (resp, state) := acts.answer
  cases found : world.state.creations[term]? with
  | none => simp [respondHub, found] at answer
  | some creation =>
      have settles := handing.ledger.settles term creation found
      simp only [respondHub, found] at answer
      split at answer
      · cases answer
      rename_i unlocked
      have idle : creation.flushing = false := by simpa using unlocked
      cases session : creation.session with
      | none =>
          simp only [session, Option.some.injEq, Prod.mk.injEq] at answer
          obtain ⟨rfl, rfl⟩ := answer
          simp only [Settles, session] at settles
          have touches : Touches world.state (world.state.editCreation term
              fun creation => { creation with pending := creation.pending ++ [data] }) term creation
              { creation with pending := creation.pending ++ [data] } ⟨.output term data, none⟩ := by
            refine ⟨found, editCreation_at _ _ _ found, le_rfl, fun other different => ?_,
              fun _ _ => rfl, fun _ => id, fun _ => .inl⟩
            simp [prints, Ne.symm different]
          refine ⟨handing.ledger.touched touches ?_, staffed touches rfl idle,
            handlers_acted handing.handlers acts.live⟩
          simp [Settles, session, settles, prints]
      | some ref =>
          simp only [session, Option.some.injEq, Prod.mk.injEq] at answer
          obtain ⟨rfl, rfl⟩ := answer
          simp only [Settles, session] at settles
          have creations := append_creations world.state ref data
          have size := (append_still world.state ref data).2
          have touches : Touches world.state (world.state.append ref data) term creation creation
              ⟨.output term data, some ref⟩ := by
            refine ⟨found, fun other => ?_, size.ge, fun other different => ?_,
              fun other different => ?_, fun _ => id, fun _ => .inl⟩
            · rw [creations]
              by_cases same : term = other
              · rw [if_pos same, ← same]
                exact found
              · rw [if_neg same]
            · simp [prints, Ne.symm different]
            · have unlike : ref ≠ other := fun same => different (same ▸ session)
              simp [appends, unlike]
          refine ⟨handing.ledger.touched touches ?_, staffed touches rfl idle,
            handlers_acted handing.handlers acts.live⟩
          simp only [Settles, session]
          refine ⟨size.symm ▸ settles.1, ?_, fun idle => ?_⟩
          · simp [settles.2.2 idle, appends, prints]
          · simp [settles.2.2 idle, appends, prints]

def HubOp.isOutput : HubOp → Bool
  | .output _ _ => true
  | _ => false

/-- The other calls from outside are about no creation. -/
theorem respondHub_outside (answered : respondHub choice state op = some (resp, after))
    (outside : op.outside) (other : op.isOutput = false) :
    after.creations = state.creations ∧ state.sessions.length ≤ after.sessions.length ∧
      (∀ term, prints term ⟨op, resp⟩ = []) ∧ ∀ ref, appends ref ⟨op, resp⟩ = [] := by
  cases op with
  | startTerminal => exact outside.elim
  | lockSession term => exact outside.elim
  | adopt term ref => exact outside.elim
  | unlockSession term => exact outside.elim
  | append ref data => exact outside.elim
  | output term data => cases other
  | add requestID sandboxID =>
      cases answered
      exact ⟨rfl, by simp [TerminalState.add], fun _ => rfl, fun _ => rfl⟩
  | get id =>
      cases answered
      exact ⟨rfl, le_rfl, fun _ => rfl, fun _ => rfl⟩
  | remove id =>
      cases answered
      exact ⟨rfl, le_rfl, fun _ => rfl, fun _ => rfl⟩
  | drain =>
      simp only [respondHub] at answered
      split at answered
      · cases answered
        exact ⟨rfl, le_rfl, fun _ => rfl, fun _ => rfl⟩
      · cases answered
  | closeIfIdle id =>
      have same := Option.some.inj answered
      refine ⟨?_, ?_, fun _ => rfl, fun _ => rfl⟩ <;>
        obtain ⟨_, left⟩ | ⟨ref, session, _, _, _, _, _, left⟩ := closeIfIdle_cases state id <;>
        rw [same] at left <;> cases left <;> simp [TerminalState.edit]
  | closeWatchers ref =>
      cases answered
      refine ⟨?_, (closeWatchers_still state ref).2.ge, fun _ => rfl, fun _ => rfl⟩
      unfold TerminalState.closeWatchers
      split
      · rfl
      · split <;> rfl
  | terminalClose ref =>
      cases answered
      exact ⟨rfl, le_rfl, fun _ => rfl, fun _ => rfl⟩
  | goClose ref =>
      cases answered
      exact ⟨rfl, le_rfl, fun _ => rfl, fun _ => rfl⟩
  | closeSessionWhenIdle id =>
      cases answered
      exact ⟨rfl, le_rfl, fun _ => rfl, fun _ => rfl⟩
  | subscribe ref =>
      refine ⟨?_, (subscribe_still answered).2.ge, fun _ => rfl, fun _ => rfl⟩
      simp only [respondHub, TerminalState.subscribe] at answered
      split at answered
      · cases answered
      · split at answered <;> cases answered <;> rfl
  | cancel ref ch =>
      cases answered
      refine ⟨?_, (cancel_still state ref ch).2.ge, fun _ => rfl, fun _ => rfl⟩
      unfold TerminalState.cancel
      split
      · rfl
      · split <;> rfl
  | receive ch =>
      obtain ⟨⟨data, channels⟩, _, same⟩ := Option.map_eq_some_iff.mp answered
      cases same
      exact ⟨rfl, le_rfl, fun _ => rfl, fun _ => rfl⟩

theorem handing_step (obeys : Machine.Obeys creationContract world) (handing : Handing world)
    (acts : hubMachine.Acts world tid choice thread op resp rest state) :
    Handing (hubMachine.acted world tid thread op resp rest state) := by
  by_cases creates : thread.task.creates = true
  · exact handing_creating obeys handing acts creates
  · have other : thread.task.creates = false := Bool.not_eq_true _ |>.mp creates
    have outside : op.outside := by
      simpa [creationContract, other, handing.handlers tid thread acts.live] using obeys.permits acts
    by_cases isOutput : op.isOutput = true
    · cases op with
      | output term data => exact handing_prints handing acts other
      | _ => cases isOutput
    · obtain ⟨same, longer, silent, apart⟩ := respondHub_outside acts.answer outside
        (Bool.not_eq_true _ |>.mp isOutput)
      exact handing.aside acts same longer silent apart fun actor => absurd actor creates

theorem handing_reachable (reaches : hubMachine.Reaches handlersOnly noTerminals world) :
    Handing world := by
  have none_live {tid : Nat} {thread : Thread HubOp HubOp.Resp HubTask} :
      noTerminals.threads[tid]? ≠ some thread := fun live => by cases live
  induction reaches with
  | refl =>
      constructor
      · constructor
        · intro term creation there
          cases there
        · intro term other one two ref there
          cases there
        · exact fun _ _ => rfl
        · exact fun _ _ => rfl
      · constructor
        · exact fun _ _ live => absurd live none_live
        · exact fun _ _ _ _ _ live => absurd live none_live
        · exact fun _ _ _ _ _ live => absurd live none_live
      · exact fun _ _ live => absurd live none_live
  | @step world after move before meets stepped ih =>
      obtain ⟨tid, choice, thread, op, resp, rest, state, rfl, acts, rfl⟩ | ⟨task, rfl, _, rfl⟩ |
        ⟨rfl, rfl⟩ := hubMachine.step_cases stepped
      · exact handing_step (creation_obeys before) ih acts
      · -- a request that has only begun has no terminal yet
        refine ⟨ih.ledger, ⟨?_, ?_, ?_⟩, ?_⟩
        · intro tid found live creates
          rcases Machine.started_thread live with old | rfl
          · exact ih.staffed.stands tid found old creates
          · trivial
        · intro tid other one two term live liveToo creates createsToo left right
          rcases Machine.started_thread live with old | rfl
          · rcases Machine.started_thread liveToo with oldToo | rfl
            · exact ih.staffed.lone tid other one two term old oldToo creates createsToo left right
            · cases right
          · cases left
        · intro tid other one two ref live liveToo creates createsToo left right
          rcases Machine.started_thread live with old | rfl
          · rcases Machine.started_thread liveToo with oldToo | rfl
            · exact ih.staffed.unshared tid other one two ref old oldToo creates createsToo left right
            · cases right
          · cases left
        · intro tid found live
          rcases Machine.started_thread live with old | rfl
          · exact ih.handlers tid found old
          · exact meets
      · have ledger : Ledger { world.state with hub := [] } world.trace :=
          ⟨ih.ledger.settles, ih.ledger.apart, ih.ledger.unborn, ih.ledger.untold⟩
        refine ⟨ledger, ⟨?_, ?_, ?_⟩, ?_⟩
        · intro tid found live creates
          obtain ⟨old, there, rfl⟩ := Machine.halted_thread live
          have stands := ih.staffed.stands tid old there creates
          change Stands { world.state with hub := [] } world.trace (creationPhase old.past)
          cases phase : creationPhase old.past <;> rw [phase] at stands <;> exact stands
        · intro tid other one two term live liveToo creates createsToo left right
          obtain ⟨old, there, rfl⟩ := Machine.halted_thread live
          obtain ⟨oldToo, thereToo, rfl⟩ := Machine.halted_thread liveToo
          exact ih.staffed.lone tid other old oldToo term there thereToo creates createsToo left right
        · intro tid other one two ref live liveToo creates createsToo left right
          obtain ⟨old, there, rfl⟩ := Machine.halted_thread live
          obtain ⟨oldToo, thereToo, rfl⟩ := Machine.halted_thread liveToo
          exact ih.staffed.unshared tid other old oldToo ref there thereToo creates createsToo left
            right
        · intro tid found live
          obtain ⟨old, there, rfl⟩ := Machine.halted_thread live
          exact ih.handlers tid old there

end Requests

end Runnerd
