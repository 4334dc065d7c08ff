import Runnerd.Channels
import Runnerd.Interleaving
import Runnerd.RunnerState

/-!
`terminalHub` and `terminalSession` of `internal/server/server_terminal.go`.
`h.mu` guards the map of sessions, and the `mu` of a session guards its buffer and
its watchers. What runs under one of them is one call here, and so is what
`closeSessionIfIdle` does while it holds both. A session is named by its place in
the list of all sessions, the pointer in the source.

The methods may be called by anyone, in any order and on any session. The request
that opens a terminal and the stream of its events are programs of such calls.
-/

namespace Runnerd

open Interaction Interleaving

abbrev Bytes := List UInt8

structure TerminalSession where
  id : String
  requestID : String
  sandboxID : String
  buffer : Bytes := []
  watchers : List Nat := []
  closed : Bool := false

/-- What the request that opens a terminal shares with the callback that it hands
to the sandbox. `flushing` says that the request holds `sessionMu`. -/
structure Creation where
  session : Option Nat := none
  pending : List Bytes := []
  flushing : Bool := false

structure TerminalState where
  sessions : List TerminalSession := []
  channels : Channels Bytes := {}
  hub : List (String × Nat) := []
  creations : List Creation := []

section Methods

def maxBuffer : Nat := 65536

def appendBuffer (buffer data : Bytes) : Bytes :=
  let joined := buffer ++ data
  if maxBuffer * 2 < joined.length then joined.drop (joined.length - maxBuffer) else joined

namespace TerminalState
variable (state : TerminalState)

def get (id : String) : Option Nat := (state.hub.find? fun entry => entry.1 == id).map Prod.snd

def leave (id : String) : List (String × Nat) := state.hub.filter fun entry => entry.1 != id

def refs : List Nat := state.hub.map Prod.snd

def add (id requestID sandboxID : String) : TerminalState :=
  { state with
    sessions := state.sessions ++ [{ id, requestID, sandboxID }]
    hub := state.leave id ++ [(id, state.sessions.length)] }

def edit (ref : Nat) (f : TerminalSession → TerminalSession) (channels : Channels Bytes) :
    TerminalState :=
  { state with sessions := state.sessions.modify ref f, channels }

-- The order in which `range` visits the watchers makes no difference.
def append (ref : Nat) (data : Bytes) : TerminalState :=
  match state.sessions[ref]? with
  | none => state
  | some session =>
      if data = [] then state
      else state.edit ref (fun session => { session with buffer := appendBuffer session.buffer data })
        (state.channels.sendAll data session.watchers)

def subscribe (ref : Nat) : Option ((Bytes × Nat) × TerminalState) :=
  let ch := state.channels.all.length
  match state.sessions[ref]? with
  | none => none
  | some session =>
      if session.closed then
        some ((session.buffer, ch), { state with channels := (state.channels.make 32).close ch })
      else
        some ((session.buffer, ch), state.edit ref
          (fun session => { session with watchers := session.watchers ++ [ch] })
          (state.channels.make 32))

def cancel (ref ch : Nat) : TerminalState :=
  match state.sessions[ref]? with
  | none => state
  | some session =>
      if ch ∈ session.watchers then
        state.edit ref (fun session => { session with watchers := session.watchers.erase ch })
          (state.channels.close ch)
      else state

def closeWatchers (ref : Nat) : TerminalState :=
  match state.sessions[ref]? with
  | none => state
  | some session =>
      if session.closed then state
      else state.edit ref (fun session => { session with closed := true, watchers := [] })
        (state.channels.closeAll session.watchers)

/-- The locked part of `closeSessionIfIdle`, with the session that it closed. -/
def closeIfIdle (id : String) : Option Nat × TerminalState :=
  match state.get id with
  | none => (none, state)
  | some ref =>
      match state.sessions[ref]? with
      | none => (none, state)
      | some session =>
          if session.closed = true ∨ session.watchers ≠ [] then (none, state)
          else (some ref, { state.edit ref (fun session => { session with closed := true })
            state.channels with hub := state.leave id })

def editCreation (term : Nat) (f : Creation → Creation) : TerminalState :=
  { state with creations := state.creations.modify term f }

end TerminalState

end Methods

section Calls

inductive HubOp where
  | add (requestID sandboxID : String)
  | get (id : String)
  /-- The locked part of `CloseSession`. -/
  | remove (id : String)
  /-- The locked part of `Close`. -/
  | drain
  | closeIfIdle (id : String)
  | closeWatchers (ref : Nat)
  | terminalClose (ref : Nat)
  /-- `go terminal.Close(ctx)`. -/
  | goClose (ref : Nat)
  | closeSessionWhenIdle (id : String)
  | subscribe (ref : Nat)
  | cancel (ref ch : Nat)
  | append (ref : Nat) (data : Bytes)
  | receive (ch : Nat)
  | startTerminal
  /-- The callback that gets the output of a terminal. -/
  | output (term : Nat) (data : Bytes)
  | lockSession (term : Nat)
  /-- Sets `session` and reads `pending`, under `sessionMu`. -/
  | adopt (term ref : Nat)
  | unlockSession (term : Nat)

@[reducible] def HubOp.Resp : HubOp → Type
  | .add _ _ => Nat × String
  | .get _ | .remove _ | .closeIfIdle _ => Option Nat
  | .drain => List Nat
  | .terminalClose _ => Except GoError Unit
  | .subscribe _ => Bytes × Nat
  | .receive _ => Option Bytes
  | .startTerminal => Except GoError Nat
  | .output _ _ => Option Nat
  | .adopt _ _ => List Bytes
  | .closeWatchers _ | .goClose _ | .closeSessionWhenIdle _ | .cancel _ _ | .append _ _ |
    .lockSession _ | .unlockSession _ => Unit

abbrev HubAction := Prog HubOp HubOp.Resp

abbrev HubAnswered := Call HubOp HubOp.Resp

def askHub (op : HubOp) : HubAction op.Resp := Prog.request op

def closeSession (id : String) : HubAction (Except GoError Unit) := do
  match ← askHub (.remove id) with
  | none => return .error errNotFound
  | some ref =>
      askHub (.closeWatchers ref)
      askHub (.terminalClose ref)

def closeSessionIfIdle (id : String) : HubAction Unit := do
  match ← askHub (.closeIfIdle id) with
  | none => return ()
  | some ref =>
      let _ ← askHub (.terminalClose ref)
      return ()

def closeDrained (ref : Nat) : HubAction Unit := do
  askHub (.closeWatchers ref)
  askHub (.goClose ref)

def closeHub : HubAction Unit := do
  let refs ← askHub .drain
  Prog.each closeDrained refs

def handleUserCreateRunnerTerminal (requestID sandboxID : String) : HubAction Unit := do
  match ← askHub .startTerminal with
  | .error _ => return ()
  | .ok term =>
      askHub (.lockSession term)
      let (ref, id) ← askHub (.add requestID sandboxID)
      askHub (.closeSessionWhenIdle id)
      let pending ← askHub (.adopt term ref)
      Prog.each (fun data => askHub (.append ref data)) pending
      askHub (.unlockSession term)

/-- The loop over the events, until the client has gone after `reads` of them. -/
def streamEvents (ch : Nat) : Nat → HubAction Unit
  | 0 => return ()
  | reads + 1 => do
      match ← askHub (.receive ch) with
      | none => return ()
      | some _ => streamEvents ch reads

def handleUserRunnerTerminalEvents (id : String) (reads : Nat) : HubAction Unit := do
  match ← askHub (.get id) with
  | none => return ()
  | some ref =>
      let (_, ch) ← askHub (.subscribe ref)
      streamEvents ch reads
      askHub (.cancel ref ch)
      askHub (.closeSessionWhenIdle id)

end Calls

section System

inductive HubTask where
  | create (requestID sandboxID : String)
  | events (id : String) (reads : Nat)
  | output (term : Nat) (data : Bytes)
  | add (requestID sandboxID : String)
  | get (id : String)
  | subscribe (ref : Nat)
  | cancel (ref ch : Nat)
  | receive (ch : Nat)
  | append (ref : Nat) (data : Bytes)
  | closeSession (id : String)
  | closeSessionIfIdle (id : String)
  | close
  /-- The goroutine of `Close` for one session. -/
  | closer (ref : Nat)

def ignore {α : Type} (program : HubAction α) : HubAction Unit := do
  let _ ← program
  return ()

def HubTask.body : HubTask → HubAction Unit
  | .create requestID sandboxID => handleUserCreateRunnerTerminal requestID sandboxID
  | .events id reads => handleUserRunnerTerminalEvents id reads
  | .output term data => ignore (askHub (.output term data))
  | .add requestID sandboxID => ignore (askHub (.add requestID sandboxID))
  | .get id => ignore (askHub (.get id))
  | .subscribe ref => ignore (askHub (.subscribe ref))
  | .cancel ref ch => askHub (.cancel ref ch)
  | .receive ch => ignore (askHub (.receive ch))
  | .append ref data => askHub (.append ref data)
  | .closeSession id => ignore (Runnerd.closeSession id)
  | .closeSessionIfIdle id => Runnerd.closeSessionIfIdle id
  | .close => closeHub
  | .closer ref => ignore (askHub (.terminalClose ref))

/-- What `newID`, `range` over the map and the sandbox service give a call. -/
structure HubChoice where
  newID : String := ""
  order : List Nat := []
  fault : Option GoError := none

def unlessFault {ε α : Type} (fault : Option ε) (value : α) : Except ε α :=
  match fault with
  | none => .ok value
  | some err => .error err

def respondHub (choice : HubChoice) (state : TerminalState) :
    (op : HubOp) → Option (op.Resp × TerminalState)
  | .add requestID sandboxID =>
      some ((state.sessions.length, choice.newID), state.add choice.newID requestID sandboxID)
  | .get id => some (state.get id, state)
  | .remove id => some (state.get id, { state with hub := state.leave id })
  | .drain =>
      if choice.order.isPerm state.refs then some (choice.order, { state with hub := [] }) else none
  | .closeIfIdle id => some (state.closeIfIdle id)
  | .closeWatchers ref => some ((), state.closeWatchers ref)
  | .terminalClose _ => some (unlessFault choice.fault (), state)
  | .goClose _ => some ((), state)
  | .closeSessionWhenIdle _ => some ((), state)
  | .subscribe ref => state.subscribe ref
  | .cancel ref ch => some ((), state.cancel ref ch)
  | .append ref data => some ((), state.append ref data)
  | .receive ch => (state.channels.receive ch).map fun (data, channels) =>
      (data, { state with channels })
  | .startTerminal =>
      match choice.fault with
      | some err => some (.error err, state)
      | none => some (.ok state.creations.length, { state with creations := state.creations ++ [{}] })
  | .output term data =>
      match state.creations[term]? with
      | none => none
      | some creation =>
          if creation.flushing then none
          else match creation.session with
            | some ref => some (some ref, state.append ref data)
            | none => some (none, state.editCreation term
                fun creation => { creation with pending := creation.pending ++ [data] })
  | .lockSession term =>
      match state.creations[term]? with
      | none => none
      | some creation =>
          if creation.flushing then none
          else some ((), state.editCreation term fun creation => { creation with flushing := true })
  | .adopt term ref =>
      match state.creations[term]? with
      | none => none
      | some creation => some (creation.pending, state.editCreation term
          fun creation => { creation with session := some ref })
  | .unlockSession term => some ((), state.editCreation term
      fun creation => { creation with pending := [], flushing := false })

def HubTask.entry : HubTask → Bool
  | .closer _ => false
  | _ => true

def hubSpawned : (op : HubOp) → List HubTask
  | .goClose ref => [.closer ref]
  | .closeSessionWhenIdle id => [.closeSessionIfIdle id]
  | _ => []

def hubMachine : Machine HubOp HubOp.Resp HubTask TerminalState HubChoice where
  body := HubTask.body
  respond _ := respondHub
  spawned _ op _ := hubSpawned op
  entry := HubTask.entry
  crash state := { state with hub := [] }

abbrev HubWorld := World HubOp HubOp.Resp HubTask TerminalState

abbrev HubMove := Move HubTask HubChoice

abbrev HubEvent := Event HubOp HubOp.Resp HubTask

def noTerminals : HubWorld := ⟨{}, [], []⟩

end System

end Runnerd
