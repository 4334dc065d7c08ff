import Runnerd.TerminalHub

/-!
No run of the terminal hub closes a channel twice or sends on a closed one: the
watchers of the sessions are open channels at any time, each in one place.
-/

namespace Runnerd

open Interaction Interleaving

section Watchers

/-- The watchers of the sessions are open channels, each in one place, and a
closed session has none. -/
structure Watched (state : TerminalState) : Prop where
  distinct : ∀ (ref : Nat) (session : TerminalSession), state.sessions[ref]? = some session →
    session.watchers.Nodup
  isOpen : ∀ (ref : Nat) (session : TerminalSession), state.sessions[ref]? = some session →
    ∀ ch ∈ session.watchers, state.channels.Open ch
  apart : ∀ (ref : Nat) (session : TerminalSession), state.sessions[ref]? = some session →
    ∀ (other : Nat) (found : TerminalSession), state.sessions[other]? = some found →
    ∀ ch ∈ session.watchers, ch ∈ found.watchers → ref = other
  done : ∀ (ref : Nat) (session : TerminalSession), state.sessions[ref]? = some session →
    session.closed = true → session.watchers = []
  calm : state.channels.panicked = false

variable {state : TerminalState} {ref : Nat} {session : TerminalSession}

theorem edit_at (state : TerminalState) (ref : Nat) (f : TerminalSession → TerminalSession)
    (channels : Channels Bytes) (other : Nat) :
    (state.edit ref f channels).sessions[other]? =
      if ref = other then state.sessions[other]?.map f else state.sessions[other]? := by
  by_cases same : ref = other <;> simp [TerminalState.edit, same]

/-- What a change of one session and of the channels has to meet. -/
theorem Watched.edit (watched : Watched state) (found : state.sessions[ref]? = some session)
    {f : TerminalSession → TerminalSession} {channels : Channels Bytes}
    (distinct : (f session).watchers.Nodup)
    (isOpen : ∀ ch ∈ (f session).watchers, channels.Open ch)
    (fresh : ∀ ch ∈ (f session).watchers, ch ∈ session.watchers ∨ state.channels.all.length ≤ ch)
    (kept : ∀ ch, ch ∉ session.watchers → state.channels.Open ch → channels.Open ch)
    (done : (f session).closed = true → (f session).watchers = [])
    (calm : channels.panicked = false) : Watched (state.edit ref f channels) := by
  -- a session after the edit is the edited one or an old one
  have cases_ {other : Nat} {after : TerminalSession}
      (there : (state.edit ref f channels).sessions[other]? = some after) :
      (other = ref ∧ after = f session) ∨ (other ≠ ref ∧ state.sessions[other]? = some after) := by
    rw [edit_at] at there
    by_cases same : ref = other
    · subst same
      rw [if_pos rfl, found] at there
      exact .inl ⟨rfl, (Option.some.inj there).symm⟩
    · rw [if_neg same] at there
      exact .inr ⟨Ne.symm same, there⟩
  have foreign {other : Nat} {old : TerminalSession} {ch : Nat}
      (there : state.sessions[other]? = some old) (different : other ≠ ref)
      (member : ch ∈ old.watchers) : ch ∉ (f session).watchers ∧ ch ∉ session.watchers := by
    have outside : ch ∉ session.watchers := fun own =>
      different (watched.apart other old there ref session found ch member own)
    refine ⟨fun own => ?_, outside⟩
    rcases fresh ch own with before | new
    · exact outside before
    · exact absurd (watched.isOpen other old there ch member).bound (not_lt.mpr new)
  constructor
  · intro other after there
    rcases cases_ there with ⟨_, rfl⟩ | ⟨_, old⟩
    · exact distinct
    · exact watched.distinct other after old
  · intro other after there ch member
    rcases cases_ there with ⟨_, rfl⟩ | ⟨different, old⟩
    · exact isOpen ch member
    · exact kept ch (foreign old different member).2 (watched.isOpen other after old ch member)
  · intro first one there second two thereToo ch left right
    rcases cases_ there with ⟨rfl, rfl⟩ | ⟨different, old⟩
    · rcases cases_ thereToo with ⟨rfl, _⟩ | ⟨differentToo, oldToo⟩
      · rfl
      · exact absurd left (foreign oldToo differentToo right).1
    · rcases cases_ thereToo with ⟨rfl, rfl⟩ | ⟨_, oldToo⟩
      · exact absurd right (foreign old different left).1
      · exact watched.apart first one old second two oldToo ch left right
  · intro other after there closed
    rcases cases_ there with ⟨_, rfl⟩ | ⟨_, old⟩
    · exact done closed
    · exact watched.done other after old closed
  · exact calm

theorem Watched.channels (watched : Watched state) {channels : Channels Bytes}
    (kept : ∀ ch, state.channels.Open ch → channels.Open ch) (calm : channels.panicked = false) :
    Watched { state with channels } where
  distinct := watched.distinct
  isOpen ref session found ch member := kept ch (watched.isOpen ref session found ch member)
  apart := watched.apart
  done := watched.done
  calm := calm

theorem Watched.add (watched : Watched state) (id requestID sandboxID : String) :
    Watched (state.add id requestID sandboxID) := by
  have cases_ {other : Nat} {after : TerminalSession}
      (there : (state.add id requestID sandboxID).sessions[other]? = some after) :
      state.sessions[other]? = some after ∨ (after.watchers = [] ∧ after.closed = false) := by
    simp only [TerminalState.add, List.getElem?_append] at there
    split at there
    · exact .inl there
    · have fresh := List.mem_of_getElem? there
      cases List.mem_singleton.mp fresh
      exact .inr ⟨rfl, rfl⟩
  constructor
  · intro other after there
    rcases cases_ there with old | ⟨none, _⟩
    · exact watched.distinct other after old
    · rw [none]
      exact List.nodup_nil
  · intro other after there ch member
    rcases cases_ there with old | ⟨none, _⟩
    · exact watched.isOpen other after old ch member
    · rw [none] at member
      cases member
  · intro first one there second two thereToo ch left right
    rcases cases_ there with old | ⟨none, _⟩
    · rcases cases_ thereToo with oldToo | ⟨none, _⟩
      · exact watched.apart first one old second two oldToo ch left right
      · rw [none] at right
        cases right
    · rw [none] at left
      cases left
  · intro other after there closed
    rcases cases_ there with old | ⟨none, _⟩
    · exact watched.done other after old closed
    · exact none
  · exact watched.calm

theorem Watched.append (watched : Watched state) (ref : Nat) (data : Bytes) :
    Watched (state.append ref data) := by
  unfold TerminalState.append
  cases found : state.sessions[ref]? with
  | none => exact watched
  | some session =>
      dsimp only
      by_cases nothing : data = []
      · rw [if_pos nothing]
        exact watched
      · rw [if_neg nothing]
        have distinct := watched.distinct ref session found
        have isOpen := watched.isOpen ref session found
        refine watched.edit found distinct ?_ (fun ch member => .inl member) ?_ ?_ ?_
        · exact fun ch member => (isOpen ch member).sendAll distinct isOpen
        · exact fun ch _ open_ => open_.sendAll distinct isOpen
        · exact watched.done ref session found
        · exact (Channels.sendAll_open _ distinct isOpen).1.trans watched.calm

theorem Watched.subscribe (watched : Watched state) {answer : Bytes × Nat} {after : TerminalState}
    (subscribed : state.subscribe ref = some (answer, after)) : Watched after := by
  unfold TerminalState.subscribe at subscribed
  cases found : state.sessions[ref]? with
  | none => simp [found] at subscribed
  | some session =>
      simp only [found] at subscribed
      have fresh : ∀ ch, state.channels.Open ch → ch ≠ state.channels.all.length :=
        fun ch open_ => Nat.ne_of_lt open_.bound
      by_cases closed : session.closed = true
      · rw [if_pos closed] at subscribed
        cases subscribed
        refine watched.channels ?_ ?_
        · exact fun ch open_ => (open_.make 32).close (Channels.make_open 32) (fresh ch open_)
        · rw [Channels.close_single]
          exact (Channels.closeAll_open (List.nodup_singleton _)
            (by simpa using Channels.make_open 32)).1.trans watched.calm
      · rw [if_neg closed] at subscribed
        cases subscribed
        have distinct := watched.distinct ref session found
        have isOpen := watched.isOpen ref session found
        refine watched.edit found ?_ ?_ ?_ ?_ ?_ watched.calm
        · rw [List.nodup_append]
          refine ⟨distinct, List.nodup_singleton _, fun ch member other only same => ?_⟩
          cases List.mem_singleton.mp only
          exact fresh ch (isOpen ch member) same
        · intro ch member
          rcases List.mem_append.mp member with old | new
          · exact (isOpen ch old).make 32
          · cases List.mem_singleton.mp new
            exact Channels.make_open 32
        · intro ch member
          rcases List.mem_append.mp member with old | new
          · exact .inl old
          · exact .inr (le_of_eq (List.mem_singleton.mp new).symm)
        · exact fun ch _ open_ => open_.make 32
        · exact fun over_ => absurd over_ closed

theorem Watched.cancel (watched : Watched state) (ref ch : Nat) :
    Watched (state.cancel ref ch) := by
  unfold TerminalState.cancel
  cases found : state.sessions[ref]? with
  | none => exact watched
  | some session =>
      dsimp only
      by_cases member : ch ∈ session.watchers
      · rw [if_pos member]
        have distinct := watched.distinct ref session found
        have isOpen := watched.isOpen ref session found
        refine watched.edit found (distinct.erase ch) ?_ ?_ ?_ ?_ ?_
        · intro other kept
          have present := (distinct.mem_erase_iff.mp kept)
          exact (isOpen other present.2).close (isOpen ch member) present.1
        · exact fun other kept => .inl (List.mem_of_mem_erase kept)
        · intro other outside open_
          refine open_.close (isOpen ch member) ?_
          rintro rfl
          exact outside member
        · intro closed
          have none := watched.done ref session found closed
          rw [none] at member
          cases member
        · rw [Channels.close_single]
          exact (Channels.closeAll_open (List.nodup_singleton ch)
            (by simpa using isOpen ch member)).1.trans watched.calm
      · rw [if_neg member]
        exact watched

theorem Watched.closeWatchers (watched : Watched state) (ref : Nat) :
    Watched (state.closeWatchers ref) := by
  unfold TerminalState.closeWatchers
  cases found : state.sessions[ref]? with
  | none => exact watched
  | some session =>
      dsimp only
      by_cases closed : session.closed = true
      · rw [if_pos closed]
        exact watched
      · rw [if_neg closed]
        have distinct := watched.distinct ref session found
        have isOpen := watched.isOpen ref session found
        refine watched.edit found List.nodup_nil ?_ ?_ ?_ (fun _ => rfl) ?_
        · intro ch member
          cases member
        · intro ch member
          cases member
        · exact fun ch outside open_ => open_.closeAll distinct isOpen outside
        · exact (Channels.closeAll_open distinct isOpen).1.trans watched.calm

/-- Everything that `closeIfIdle` does. -/
theorem closeIfIdle_cases (state : TerminalState) (id : String) :
    ((state.closeIfIdle id).1 = none ∧ (state.closeIfIdle id).2 = state) ∨
    ∃ ref session, state.get id = some ref ∧ state.sessions[ref]? = some session ∧
      session.closed = false ∧ session.watchers = [] ∧ (state.closeIfIdle id).1 = some ref ∧
      (state.closeIfIdle id).2 = { state.edit ref (fun session => { session with closed := true })
        state.channels with hub := state.leave id } := by
  unfold TerminalState.closeIfIdle
  cases found : state.get id with
  | none => exact .inl ⟨rfl, rfl⟩
  | some ref =>
      cases there : state.sessions[ref]? with
      | none => exact .inl (by simp [there])
      | some session =>
          by_cases busy : session.closed = true ∨ session.watchers ≠ []
          · exact .inl (by simp [there, busy])
          · refine .inr ⟨ref, session, rfl, there, ?_, ?_, ?_, ?_⟩
            · exact Bool.not_eq_true _ |>.mp fun closed => busy (.inl closed)
            · by_contra some_
              exact busy (.inr some_)
            · simp [there, busy]
            · simp [there, busy]

theorem Watched.closeIfIdle (watched : Watched state) (id : String) :
    Watched (state.closeIfIdle id).2 := by
  obtain ⟨_, same⟩ | ⟨ref, session, _, found, _, none, _, same⟩ := closeIfIdle_cases state id
  · rw [same]
    exact watched
  · rw [same]
    have edited : Watched (state.edit ref (fun session => { session with closed := true })
        state.channels) := by
      refine watched.edit found (watched.distinct ref session found)
        (watched.isOpen ref session found) (fun ch member => .inl member) (fun _ _ open_ => open_)
        (fun _ => none) watched.calm
    exact ⟨edited.distinct, edited.isOpen, edited.apart, edited.done, edited.calm⟩

/-- The calls that leave the hub, its sessions and the channels as they are. -/
def HubOp.idle : HubOp → Bool
  | .get _ | .terminalClose _ | .goClose _ | .closeSessionWhenIdle _ => true
  | .startTerminal | .lockSession _ | .adopt _ _ | .unlockSession _ => true
  | _ => false

theorem respondHub_idle {choice : HubChoice} {op : HubOp} {resp : op.Resp}
    {after : TerminalState} (answered : respondHub choice state op = some (resp, after))
    (idle : op.idle = true) : after.hub = state.hub ∧ after.sessions = state.sessions ∧
      after.channels = state.channels := by
  cases op with
  | get id =>
      cases answered
      exact ⟨rfl, rfl, rfl⟩
  | terminalClose ref =>
      cases answered
      exact ⟨rfl, rfl, rfl⟩
  | goClose ref =>
      cases answered
      exact ⟨rfl, rfl, rfl⟩
  | closeSessionWhenIdle id =>
      cases answered
      exact ⟨rfl, rfl, rfl⟩
  | startTerminal =>
      simp only [respondHub] at answered
      split at answered
      · cases answered
        exact ⟨rfl, rfl, rfl⟩
      · cases answered
        exact ⟨rfl, rfl, rfl⟩
  | lockSession term =>
      simp only [respondHub] at answered
      split at answered
      · cases answered
      · split at answered
        · cases answered
        · cases answered
          exact ⟨rfl, rfl, rfl⟩
  | adopt term ref =>
      simp only [respondHub] at answered
      split at answered
      · cases answered
      · cases answered
        exact ⟨rfl, rfl, rfl⟩
  | unlockSession term =>
      cases answered
      exact ⟨rfl, rfl, rfl⟩
  | _ => cases idle

theorem respondHub_watched {choice : HubChoice} {op : HubOp} {resp : op.Resp}
    {after : TerminalState} (answered : respondHub choice state op = some (resp, after))
    (watched : Watched state) : Watched after := by
  have same {next : TerminalState} (sessions : next.sessions = state.sessions)
      (channels : next.channels = state.channels) : Watched next := by
    obtain ⟨hub, all, pool, creations⟩ := next
    cases sessions
    cases channels
    exact ⟨watched.distinct, watched.isOpen, watched.apart, watched.done, watched.calm⟩
  cases op with
  | add requestID sandboxID =>
      cases answered
      exact watched.add _ _ _
  | remove id =>
      cases answered
      exact same rfl rfl
  | drain =>
      simp only [respondHub] at answered
      split at answered
      · cases answered
        exact same rfl rfl
      · cases answered
  | closeIfIdle id =>
      have closed := watched.closeIfIdle id
      rw [Option.some.inj answered] at closed
      exact closed
  | closeWatchers ref =>
      cases answered
      exact watched.closeWatchers ref
  | subscribe ref => exact watched.subscribe answered
  | cancel ref ch =>
      cases answered
      exact watched.cancel ref ch
  | append ref data =>
      cases answered
      exact watched.append ref data
  | receive ch =>
      obtain ⟨⟨data, channels⟩, received, same⟩ := Option.map_eq_some_iff.mp answered
      cases same
      obtain ⟨calm, _, kept⟩ := Channels.receive_keeps received
      exact watched.channels kept (calm.trans watched.calm)
  | output term data =>
      simp only [respondHub] at answered
      split at answered
      · cases answered
      · split at answered
        · cases answered
        · split at answered
          · cases answered
            exact watched.append _ _
          · cases answered
            exact same rfl rfl
  | _ =>
      obtain ⟨_, sessions, channels⟩ := respondHub_idle answered rfl
      exact same sessions channels

variable {condition : HubWorld → HubMove → Prop} {world : HubWorld}

theorem watched_reachable (reaches : hubMachine.Reaches condition noTerminals world) :
    Watched world.state := by
  induction reaches with
  | refl =>
      constructor
      · intro ref session found
        cases found
      · intro ref session found
        cases found
      · intro ref session found
        cases found
      · intro ref session found
        cases found
      · rfl
  | step move _ _ stepped ih =>
      obtain ⟨tid, choice, thread, op, resp, rest, state, rfl, acts, rfl⟩ | ⟨task, rfl, _, rfl⟩ |
        ⟨rfl, rfl⟩ := hubMachine.step_cases stepped
      · exact respondHub_watched acts.answer ih
      · exact ih
      · exact ⟨ih.distinct, ih.isOpen, ih.apart, ih.done, ih.calm⟩

end Watchers

end Runnerd
