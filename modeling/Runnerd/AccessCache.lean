import Runnerd.Interleaving
import Runnerd.KeyedTable
import Runnerd.RepositoryAccess

/-!
The access lists that the server keeps in memory for half a minute, of
`internal/server/server_user_authorization.go`. What runs under
`userRepositoryAccessMu` is one call here, and so is each call of the
`singleflight.Group`: the callers of one key share the flight that is in the air,
and a flight leaves the group when its result is there. An epoch is a counter that
no process counts to its end.
-/

namespace Runnerd

open GoText Interaction Interleaving

abbrev RepositoryAccess := List GitHubInstallationRepositoryAccess

def maxUserRepositoryAccessCacheItems : Nat := 512
def userRepositoryAccessRefreshAfter : Duration := 20 * second
def userRepositoryAccessCacheTTL : Duration := 30 * second
def userRepositoryAccessRefreshRetry : Duration := 5 * second

def errContextCanceled : ApiError where
  message := "context canceled"

def isRejectedGitHubUserAccess (err : ApiError) : Bool :=
  err.tokenRequired || err.statusCode == some 401

section Cache

/-- An entry of the map, with its key. -/
structure CachedUserRepositoryAccess where
  accountID : Int
  access : RepositoryAccess
  refreshAfter : Time
  expiresAt : Time
  refreshing : Bool := false

abbrev AccessTable := KeyedTable CachedUserRepositoryAccess.accountID

structure Flight where
  key : String
  result : Option (Except ApiError RepositoryAccess) := none

structure AccessState where
  cache : AccessTable := .empty
  epochs : Int → Nat := fun _ => 0
  flights : List Flight := []

def flightKey (accountID : Int) (epoch : Nat) : String :=
  "account:" ++ toString accountID ++ ":epoch:" ++ toString epoch

namespace AccessState
variable (state : AccessState)

def drop (accountID : Int) : AccessTable :=
  state.cache.erase fun entry => decide (entry.accountID = accountID)

def cachedForRequest (accountID : Int) (now : Time) :
    Option (RepositoryAccess × Bool) × AccessState :=
  match state.cache.find accountID with
  | none => (none, state)
  | some cached =>
      if now < cached.expiresAt then
        if cached.refreshAfter ≤ now ∧ cached.refreshing = false then
          (some (cached.access, true),
            { state with cache := state.cache.put { cached with refreshing := true } })
        else (some (cached.access, false), state)
      else (none, { state with cache := state.drop accountID })

/-- The map of before the write, with room in it. `victim` is what `range` gives
first. -/
def evictOneUserRepositoryAccess (accountID victim : Int) : Option AccessTable :=
  if (state.cache.find accountID).isNone ∧
      maxUserRepositoryAccessCacheItems ≤ state.cache.rows.length then
    if (state.cache.find victim).isSome then some (state.drop victim) else none
  else some state.cache

def cacheIfCurrent (accountID : Int) (epoch : Nat) (access : RepositoryAccess) (now : Time)
    (victim : Int) : Option (Bool × AccessState) :=
  if state.epochs accountID = epoch then
    (state.evictOneUserRepositoryAccess accountID victim).map fun cache =>
      let entry : CachedUserRepositoryAccess :=
        { accountID, access
          refreshAfter := now + userRepositoryAccessRefreshAfter
          expiresAt := now + userRepositoryAccessCacheTTL }
      (true, { state with cache := cache.put entry })
  else some (false, state)

def finishRefresh (accountID : Int) (epoch : Nat) (now : Time) : AccessState :=
  if state.epochs accountID = epoch then
    match state.cache.find accountID with
    | none => state
    | some cached =>
        let refreshAfter := min (now + userRepositoryAccessRefreshRetry) cached.expiresAt
        { state with cache := state.cache.put { cached with refreshing := false, refreshAfter } }
  else state

def invalidate (accountID : Int) : AccessState :=
  { state with
    cache := state.drop accountID
    epochs := Function.update state.epochs accountID (state.epochs accountID + 1) }

def invalidateIfCurrent (accountID : Int) (epoch : Nat) : AccessState :=
  if state.epochs accountID = epoch then state.invalidate accountID else state

/-- `DoChan`: the flight, and whether it starts now. -/
def doChan (key : String) : (Nat × Bool) × AccessState :=
  match state.flights.findIdx? fun flight => flight.key == key && flight.result.isNone with
  | some flight => ((flight, false), state)
  | none => ((state.flights.length, true), { state with flights := state.flights ++ [{ key }] })

def complete (flight : Nat) (result : Except ApiError RepositoryAccess) : AccessState :=
  { state with flights := state.flights.modify flight fun flight =>
      { flight with result := some result } }

end AccessState

end Cache

section Calls

inductive AccessOp where
  /-- `time.Now`. -/
  | now
  | cachedForRequest (accountID : Int) (now : Time)
  /-- `go` of `refreshUserRepositoryAccessAsync`, with how often the context of the
  new goroutine lets it try. -/
  | goRefresh (accountID : Int)
  | epochForRefresh (accountID : Int)
  | doChan (accountID : Int) (epoch : Nat)
  /-- The `select`: `none` when the context is done. -/
  | await (flight : Nat)
  | epochMatches (accountID : Int) (epoch : Nat)
  | load (accountID : Int)
  | invalidateIfCurrent (accountID : Int) (epoch : Nat)
  | finishRefresh (accountID : Int) (epoch : Nat)
  | cacheIfCurrent (accountID : Int) (epoch : Nat) (access : RepositoryAccess)
  | complete (flight : Nat) (result : Except ApiError RepositoryAccess)
  | invalidate (accountID : Int)
  /-- `userAuthorizedRepositoryAccess` returns to its caller. -/
  | returned (accountID : Int) (result : Except ApiError RepositoryAccess)

@[reducible] def AccessOp.Resp : AccessOp → Type
  | .now => Time
  | .cachedForRequest _ _ => Option (RepositoryAccess × Bool)
  | .goRefresh _ | .epochForRefresh _ => Nat
  | .doChan _ _ => Nat × Bool
  | .await _ => Option (Except ApiError RepositoryAccess)
  | .epochMatches _ _ | .cacheIfCurrent _ _ _ => Bool
  | .load _ => Except ApiError RepositoryAccess
  | .invalidateIfCurrent _ _ | .finishRefresh _ _ | .complete _ _ | .invalidate _ |
    .returned _ _ => Unit

abbrev AccessAction := Prog AccessOp AccessOp.Resp

abbrev AccessAnswered := Call AccessOp AccessOp.Resp

def askAccess (op : AccessOp) : AccessAction op.Resp := Prog.request op

def cachedUserRepositoryAccessForRequest (accountID : Int) :
    AccessAction (Option (RepositoryAccess × Bool)) := do
  let now ← askAccess .now
  askAccess (.cachedForRequest accountID now)

def settleFailure (accountID : Int) (epoch : Nat) (err : ApiError) : AccessAction Unit :=
  if isRejectedGitHubUserAccess err then askAccess (.invalidateIfCurrent accountID epoch)
  else askAccess (.finishRefresh accountID epoch)

/-- What the flight of one account and epoch runs. -/
def refreshFlight (flight : Nat) (accountID : Int) (epoch : Nat) : AccessAction Unit := do
  match ← askAccess (.load accountID) with
  | .error err =>
      settleFailure accountID epoch err
      askAccess (.complete flight (.error err))
  | .ok access =>
      let _ ← askAccess (.cacheIfCurrent accountID epoch access)
      askAccess (.complete flight (.ok access))

/-- The loop, until its context ends it after `rounds`. -/
def refreshUserRepositoryAccess (accountID : Int) :
    Nat → AccessAction (Except ApiError RepositoryAccess)
  | 0 => return .error errContextCanceled
  | rounds + 1 => do
      let epoch ← askAccess (.epochForRefresh accountID)
      let (flight, _) ← askAccess (.doChan accountID epoch)
      match ← askAccess (.await flight) with
      | none => return .error errContextCanceled
      | some (.error err) => return .error err
      | some (.ok access) =>
          match ← askAccess (.epochMatches accountID epoch) with
          | false => refreshUserRepositoryAccess accountID rounds
          | true => return .ok access

def userAuthorizedRepositoryAccess (accountID : Int) (rounds : Nat) :
    AccessAction (Except ApiError RepositoryAccess) := do
  match ← cachedUserRepositoryAccessForRequest accountID with
  | some (access, true) =>
      let _ ← askAccess (.goRefresh accountID)
      return .ok access
  | some (access, false) => return .ok access
  | none => refreshUserRepositoryAccess accountID rounds

end Calls

section System

inductive AccessTask where
  | request (accountID : Int) (rounds : Nat)
  | invalidation (accountID : Int)
  /-- The goroutine of `refreshUserRepositoryAccessAsync`. -/
  | refresh (accountID : Int) (rounds : Nat)
  /-- The goroutine of a `DoChan`. -/
  | flight (index : Nat) (accountID : Int) (epoch : Nat)

def AccessTask.body : AccessTask → AccessAction Unit
  | .request accountID rounds => do
      let result ← userAuthorizedRepositoryAccess accountID rounds
      askAccess (.returned accountID result)
  | .invalidation accountID => askAccess (.invalidate accountID)
  | .refresh accountID rounds => do
      let _ ← refreshUserRepositoryAccess accountID rounds
      return ()
  | .flight index accountID epoch => refreshFlight index accountID epoch

/-- What the clock, `range` over the map, a context and the outside give a call. -/
structure AccessChoice where
  now : Time := 0
  victim : Int := 0
  canceled : Bool := false
  rounds : Nat := 0
  sources : AccessSources := ⟨.ok [], .ok "", .ok, none⟩

def respondAccess (choice : AccessChoice) (state : AccessState) :
    (op : AccessOp) → Option (op.Resp × AccessState)
  | .now => some (choice.now, state)
  | .cachedForRequest accountID now => some (state.cachedForRequest accountID now)
  | .goRefresh _ => some (choice.rounds, state)
  | .epochForRefresh accountID => some (state.epochs accountID, state)
  | .doChan accountID epoch => some (state.doChan (flightKey accountID epoch))
  | .await flight =>
      if choice.canceled then some (none, state)
      else match state.flights[flight]? with
        | none => none
        | some flight => flight.result.map fun result => (some result, state)
  | .epochMatches accountID epoch => some (decide (state.epochs accountID = epoch), state)
  | .load _ => some (loadUserRepositoryAccess choice.sources, state)
  | .invalidateIfCurrent accountID epoch => some ((), state.invalidateIfCurrent accountID epoch)
  | .finishRefresh accountID epoch => some ((), state.finishRefresh accountID epoch choice.now)
  | .cacheIfCurrent accountID epoch access =>
      state.cacheIfCurrent accountID epoch access choice.now choice.victim
  | .complete flight result => some ((), state.complete flight result)
  | .invalidate accountID => some ((), state.invalidate accountID)
  | .returned _ _ => some ((), state)

def accessSpawned : (op : AccessOp) → op.Resp → List AccessTask
  | .goRefresh accountID, rounds => [.refresh accountID rounds]
  | .doChan accountID epoch, (flight, true) => [.flight flight accountID epoch]
  | _, _ => []

def AccessTask.entry : AccessTask → Bool
  | .request _ _ | .invalidation _ => true
  | .refresh _ _ | .flight _ _ _ => false

def accessMachine : Machine AccessOp AccessOp.Resp AccessTask AccessState AccessChoice where
  body := AccessTask.body
  respond _ := respondAccess
  spawned _ := accessSpawned
  entry := AccessTask.entry
  crash _ := {}

abbrev AccessWorld := World AccessOp AccessOp.Resp AccessTask AccessState

abbrev AccessMove := Move AccessTask AccessChoice

abbrev AccessEvent := Event AccessOp AccessOp.Resp AccessTask

def noAccess : AccessWorld := ⟨{}, [], []⟩

end System

end Runnerd
