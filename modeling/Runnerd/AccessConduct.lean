import Runnerd.AccessCache

/-!
What each goroutine of the access cache may call after the answers it has had, and
what each call does to the cache, to the epochs and to the flights.
-/

namespace Runnerd

open Interaction Interleaving

section Keys

theorem no_letter (n : Int) : 'p' ∉ (toString n).toList := by
  intro member
  rcases int_signs n 'p' member with sign | digit
  · exact absurd sign (by decide)
  · exact absurd digit (by decide)

theorem flightKey_inj {a b : Int} {e f : Nat} (same : flightKey a e = flightKey b f) :
    a = b ∧ e = f := by
  -- the only p of a key is the one of its epoch
  have shape (accountID : Int) (epoch : Nat) : (flightKey accountID epoch).toList =
      ("account:".toList ++ (toString accountID).toList ++ ":e".toList) ++
        'p' :: ("och:".toList ++ (toString (epoch : Int)).toList) := by
    have number : toString (epoch : Int) = toString epoch := rfl
    rw [number]
    simp [flightKey, String.toList_append]
  have runes := congrArg String.toList same
  rw [shape, shape] at runes
  have front : 'p' ∉ "account:".toList ++ (toString a).toList ++ ":e".toList := by
    simpa using no_letter a
  have back : 'p' ∉ "och:".toList ++ (toString (e : Int)).toList := by
    simpa using no_letter e
  obtain ⟨left, _, right⟩ := (List.append_cons_inj_of_notMem front back).mp runes
  have accounts : (toString a).toList = (toString b).toList :=
    List.append_cancel_left (List.append_cancel_right left)
  have epochs : (toString (e : Int)).toList = (toString (f : Int)).toList :=
    List.append_cancel_left right
  exact ⟨toString_inj a b (String.toList_injective accounts),
    Int.ofNat_inj.mp (toString_inj e f (String.toList_injective epochs))⟩

end Keys

section Contracts

/-- What the answers so far entitle a caller to. -/
def Entitled (accountID : Int) (access : RepositoryAccess) (past : List AccessAnswered) : Prop :=
  (∃ now refresh, ⟨.cachedForRequest accountID now, some (access, refresh)⟩ ∈ past) ∨
  ∃ epoch flight started earlier,
    (⟨.epochMatches accountID epoch, true⟩ :: ⟨.await flight, some (.ok access)⟩ ::
      ⟨.doChan accountID epoch, (flight, started)⟩ :: earlier : List AccessAnswered) <:+ past

def callerContract (accountID : Int) (past : List AccessAnswered) : AccessOp → Prop
  | .now | .goRefresh _ | .await _ | .epochForRefresh _ => True
  | .cachedForRequest found now => found = accountID ∧ past = [⟨.now, now⟩]
  | .doChan found epoch => found = accountID ∧
      ∃ earlier, past = ⟨.epochForRefresh accountID, epoch⟩ :: earlier
  | .epochMatches found epoch => found = accountID ∧ ∃ flight started access earlier,
      past = ⟨.await flight, some (.ok access)⟩ ::
        ⟨.doChan accountID epoch, (flight, started)⟩ :: earlier
  | .returned found result => found = accountID ∧
      ∀ access, result = .ok access → Entitled accountID access past
  | _ => False

def flightContract (index : Nat) (accountID : Int) (epoch : Nat) (past : List AccessAnswered) :
    AccessOp → Prop
  | .load found => found = accountID ∧ past = []
  | .cacheIfCurrent found stamp access => found = accountID ∧ stamp = epoch ∧
      past = [⟨.load accountID, .ok access⟩]
  | .invalidateIfCurrent found stamp => found = accountID ∧ stamp = epoch ∧
      ∃ err, past = [⟨.load accountID, .error err⟩] ∧ isRejectedGitHubUserAccess err = true
  | .finishRefresh found stamp => found = accountID ∧ stamp = epoch ∧
      ∃ err, past = [⟨.load accountID, .error err⟩] ∧ isRejectedGitHubUserAccess err = false
  | .complete flight result => flight = index ∧
      (∀ access, result = .ok access → ⟨.load accountID, .ok access⟩ ∈ past) ∧
      ∀ err, result = .error err → isRejectedGitHubUserAccess err = true →
        ⟨.invalidateIfCurrent accountID epoch, ()⟩ ∈ past
  | _ => False

def accessContract : AccessTask → List AccessAnswered → AccessOp → Prop
  | .request accountID _, past, op | .refresh accountID _, past, op =>
      callerContract accountID past op
  | .invalidation accountID, _, op => op = .invalidate accountID
  | .flight index accountID epoch, past, op => flightContract index accountID epoch past op

def AccessOp.ofFlight : AccessOp → Bool
  | .load _ | .invalidateIfCurrent _ _ | .finishRefresh _ _ | .cacheIfCurrent _ _ _ |
    .complete _ _ => true
  | _ => false

def AccessOp.ofCaller : AccessOp → Bool
  | .invalidate _ => false
  | op => !op.ofFlight

variable {accountID : Int} {past : List AccessAnswered} {task : AccessTask} {op : AccessOp}

theorem callerContract_own (contract : callerContract accountID past op) : op.ofFlight = false := by
  cases op <;> first | rfl | exact contract.elim

theorem flight_permitted (permitted : accessContract task past op) (own : op.ofFlight = true) :
    ∃ index accountID epoch, task = .flight index accountID epoch ∧
      flightContract index accountID epoch past op := by
  have foreign {found : Int} (contract : callerContract found past op) : False := by
    rw [callerContract_own contract] at own
    cases own
  cases task with
  | request found rounds => exact (foreign permitted).elim
  | refresh found rounds => exact (foreign permitted).elim
  | invalidation found =>
      cases permitted
      cases own
  | flight index found stamp => exact ⟨index, found, stamp, rfl, permitted⟩

theorem caller_permitted (permitted : accessContract task past op) (own : op.ofCaller = true) :
    ∃ accountID, callerContract accountID past op := by
  cases task with
  | request found rounds => exact ⟨found, permitted⟩
  | refresh found rounds => exact ⟨found, permitted⟩
  | invalidation found =>
      cases permitted
      cases own
  | flight index found stamp =>
      have contract : flightContract index found stamp past op := permitted
      cases op <;> first | exact contract.elim | cases own

theorem refresh_keeps {post : Except ApiError RepositoryAccess → List AccessAnswered → Prop}
    (failed : ∀ err later, post (.error err) later)
    (got : ∀ access later, Entitled accountID access later → post (.ok access) later)
    (rounds : Nat) :
    Keeps (callerContract accountID) (refreshUserRepositoryAccess accountID rounds) post past := by
  induction rounds generalizing past with
  | zero => exact keeps_return (failed _ _)
  | succ rounds ih =>
      refine keeps_call trivial fun epoch => keeps_call ⟨rfl, past, rfl⟩ fun joined => ?_
      refine keeps_call trivial fun answer => ?_
      match answer with
      | none => exact keeps_return (failed _ _)
      | some (.error err) => exact keeps_return (failed _ _)
      | some (.ok access) =>
          refine keeps_call ⟨rfl, joined.1, joined.2, access, _, rfl⟩ fun current => ?_
          cases current with
          | false => exact ih
          | true =>
              exact keeps_return (got access _
                (.inr ⟨epoch, joined.1, joined.2, _, List.suffix_rfl⟩))

theorem request_keeps (accountID : Int) (rounds : Nat) :
    Keeps (callerContract accountID) (AccessTask.body (.request accountID rounds))
      (fun _ _ => True) [] := by
  have done (result : Except ApiError RepositoryAccess) (later : List AccessAnswered)
      (entitled : ∀ access, result = .ok access → Entitled accountID access later) :
      Keeps (callerContract accountID) (askAccess (.returned accountID result)) (fun _ _ => True)
        later := keeps_last ⟨rfl, entitled⟩ fun _ => trivial
  have failed (err : ApiError) (later : List AccessAnswered) :
      Keeps (callerContract accountID) (askAccess (.returned accountID (.error err)))
        (fun _ _ => True) later := done _ _ fun access same => by cases same
  apply keeps_seq
  refine keeps_call trivial fun now => keeps_call ⟨rfl, rfl⟩ fun answer => ?_
  match answer with
  | none =>
      refine refresh_keeps failed (fun access later entitled => ?_) rounds
      refine done _ _ fun found same => ?_
      cases same
      exact entitled
  | some (access, true) =>
      refine keeps_call trivial fun _ => keeps_return (done _ _ fun found same => ?_)
      cases same
      exact .inl ⟨now, true, List.mem_cons_of_mem _ List.mem_cons_self⟩
  | some (access, false) =>
      refine keeps_return (done _ _ fun found same => ?_)
      cases same
      exact .inl ⟨now, false, List.mem_cons_self⟩

theorem flight_keeps (index : Nat) (accountID : Int) (epoch : Nat) :
    Keeps (flightContract index accountID epoch) (refreshFlight index accountID epoch)
      (fun _ _ => True) [] := by
  refine keeps_call ⟨rfl, rfl⟩ fun answer => ?_
  cases answer with
  | error err =>
      apply keeps_seq
      unfold settleFailure
      by_cases rejected : isRejectedGitHubUserAccess err = true
      · rw [if_pos rejected]
        refine keeps_last ⟨rfl, rfl, err, rfl, rejected⟩ fun _ => keeps_last ⟨rfl, ?_, ?_⟩ fun _ => trivial
        · exact fun access same => by cases same
        · exact fun _ _ _ => List.mem_cons_self
      · rw [if_neg rejected]
        have kept := Bool.not_eq_true _ |>.mp rejected
        refine keeps_last ⟨rfl, rfl, err, rfl, kept⟩ fun _ => keeps_last ⟨rfl, ?_, ?_⟩ fun _ => trivial
        · exact fun access same => by cases same
        · intro found same rejectedToo
          cases same
          exact absurd rejectedToo rejected
  | ok access =>
      refine keeps_call ⟨rfl, rfl, rfl⟩ fun stored => keeps_last ⟨rfl, ?_, ?_⟩ fun _ => trivial
      · intro found same
        cases same
        exact List.mem_cons_of_mem _ List.mem_cons_self
      · exact fun err same => by cases same

theorem access_keeps (task : AccessTask) :
    Keeps (accessContract task) task.body (fun _ _ => True) [] := by
  cases task with
  | request accountID rounds => exact request_keeps accountID rounds
  | refresh accountID rounds =>
      refine keeps_seq (refresh_keeps ?_ ?_ rounds)
      · exact fun _ _ => keeps_return trivial
      · exact fun _ _ _ => keeps_return trivial
  | invalidation accountID => exact keeps_last rfl fun _ => trivial
  | flight index accountID epoch => exact flight_keeps index accountID epoch

variable {condition : AccessWorld → AccessMove → Prop} {world : AccessWorld}

theorem access_obeys (reaches : accessMachine.Reaches condition noAccess world) :
    Machine.Obeys accessContract world := by
  refine Machine.obeys_reachable access_keeps ?_ reaches
  constructor
  · intro tid thread live
    cases live
  · intro tid thread live
    cases live

end Contracts

section Steps
variable {state after : AccessState} {choice : AccessChoice} {op : AccessOp} {resp : op.Resp}

/-- In one process an epoch never goes back, and a flight keeps its key. -/
structure Grows (state after : AccessState) : Prop where
  epochs : ∀ accountID, state.epochs accountID ≤ after.epochs accountID
  flights : ∀ (index : Nat) (flight : Flight), state.flights[index]? = some flight →
    ∃ next, after.flights[index]? = some next ∧ next.key = flight.key

theorem grows_refl (state : AccessState) : Grows state state :=
  ⟨fun _ => le_rfl, fun _ flight present => ⟨flight, present, rfl⟩⟩

theorem grows_cache (state : AccessState) (cache : AccessTable) :
    Grows state { state with cache } :=
  ⟨fun _ => le_rfl, fun _ flight present => ⟨flight, present, rfl⟩⟩

theorem invalidate_grows (state : AccessState) (accountID : Int) :
    Grows state (state.invalidate accountID) := by
  refine ⟨fun other => ?_, fun _ flight present => ⟨flight, present, rfl⟩⟩
  by_cases same : other = accountID
  · subst same
    simp [AccessState.invalidate]
  · simp [AccessState.invalidate, same]

theorem invalidated (state : AccessState) (accountID : Int) :
    (state.invalidate accountID).epochs accountID = state.epochs accountID + 1 := by
  simp [AccessState.invalidate]

theorem dropped {state : AccessState} {accountID : Int} {entry : CachedUserRepositoryAccess} :
    entry ∈ (state.drop accountID).rows ↔
      entry ∈ state.cache.rows ∧ entry.accountID ≠ accountID := by
  simp [AccessState.drop, KeyedTable.mem_erase]

/-- Everything that a call can do to the cache. -/
inductive CacheEffect (state : AccessState) (call : AccessAnswered) (after : AccessState) : Prop where
  | fewer (subset : ∀ entry ∈ after.cache.rows, entry ∈ state.cache.rows)
      (size : after.cache.rows.length ≤ state.cache.rows.length)
      (other : ∀ accountID epoch access, call ≠ ⟨.cacheIfCurrent accountID epoch access, true⟩)
      (ends : ∀ accountID, after.epochs accountID = state.epochs accountID ∨
        ∀ entry ∈ after.cache.rows, entry.accountID ≠ accountID)
  | marked (old entry : CachedUserRepositoryAccess) (present : old ∈ state.cache.rows)
      (same : entry.accountID = old.accountID) (access : entry.access = old.access)
      (cache : after.cache = state.cache.put entry) (epochs : after.epochs = state.epochs)
      (other : ∀ accountID epoch access, call ≠ ⟨.cacheIfCurrent accountID epoch access, true⟩)
  | stored (entry : CachedUserRepositoryAccess) (room : AccessTable)
      (subset : ∀ old ∈ room.rows, old ∈ state.cache.rows)
      (size : (room.put entry).rows.length ≤
        max state.cache.rows.length maxUserRepositoryAccessCacheItems)
      (current : state.epochs entry.accountID = after.epochs entry.accountID)
      (same : call = ⟨.cacheIfCurrent entry.accountID (state.epochs entry.accountID) entry.access,
        true⟩)
      (next : after = { state with cache := room.put entry })

theorem cacheEffect_same {call : AccessAnswered} (cache : after.cache = state.cache)
    (epochs : after.epochs = state.epochs)
    (other : ∀ accountID epoch access, call ≠ ⟨.cacheIfCurrent accountID epoch access, true⟩) :
    CacheEffect state call after :=
  .fewer (fun _ member => cache ▸ member) (le_of_eq (by rw [cache])) other
    fun accountID => .inl (by rw [epochs])

theorem cacheEffect_invalidate {call : AccessAnswered} (accountID : Int)
    (other : ∀ accountID epoch access, call ≠ ⟨.cacheIfCurrent accountID epoch access, true⟩) :
    CacheEffect state call (state.invalidate accountID) := by
  refine .fewer (fun entry member => (dropped.mp member).1) (List.length_filter_le _ _) other
    fun found => ?_
  by_cases same : found = accountID
  · subst same
    exact .inr fun entry member => (dropped.mp member).2
  · exact .inl (by simp [AccessState.invalidate, same])

theorem cached_effect {accountID : Int} {now : Time} {answer : Option (RepositoryAccess × Bool)}
    (answered : state.cachedForRequest accountID now = (answer, after)) :
    CacheEffect state ⟨.cachedForRequest accountID now, answer⟩ after ∧ Grows state after ∧
    ∀ access refresh, answer = some (access, refresh) → ∃ entry ∈ state.cache.rows,
      entry.accountID = accountID ∧ entry.access = access ∧ now < entry.expiresAt := by
  have other (id : Int) (epoch : Nat) (access : RepositoryAccess) :
      (⟨.cachedForRequest accountID now, answer⟩ : AccessAnswered) ≠
        ⟨.cacheIfCurrent id epoch access, true⟩ := fun same => by cases same
  unfold AccessState.cachedForRequest at answered
  cases found : state.cache.find accountID with
  | none =>
      simp only [found, Prod.mk.injEq] at answered
      obtain ⟨rfl, rfl⟩ := answered
      exact ⟨cacheEffect_same rfl rfl other, grows_refl state, fun _ _ same => by cases same⟩
  | some cached =>
      obtain ⟨present, account⟩ := KeyedTable.find_some.mp found
      simp only [found] at answered
      by_cases fresh : now < cached.expiresAt
      · rw [if_pos fresh] at answered
        by_cases due : cached.refreshAfter ≤ now ∧ cached.refreshing = false
        · rw [if_pos due] at answered
          cases answered
          refine ⟨.marked cached { cached with refreshing := true } present rfl rfl rfl rfl other,
            grows_cache state _, ?_⟩
          intro access refresh same
          cases same
          exact ⟨cached, present, account, rfl, fresh⟩
        · rw [if_neg due] at answered
          cases answered
          refine ⟨cacheEffect_same rfl rfl other, grows_refl state, ?_⟩
          intro access refresh same
          cases same
          exact ⟨cached, present, account, rfl, fresh⟩
      · rw [if_neg fresh] at answered
        cases answered
        refine ⟨.fewer (fun entry member => (dropped.mp member).1) (List.length_filter_le _ _) other
          fun _ => .inl rfl, grows_cache state _, fun _ _ same => by cases same⟩

theorem evicted_room {accountID victim : Int} {room : AccessTable}
    (evicted : state.evictOneUserRepositoryAccess accountID victim = some room)
    (entry : CachedUserRepositoryAccess) (own : entry.accountID = accountID) :
    (∀ old ∈ room.rows, old ∈ state.cache.rows) ∧ (room.put entry).rows.length ≤
      max state.cache.rows.length maxUserRepositoryAccessCacheItems := by
  unfold AccessState.evictOneUserRepositoryAccess at evicted
  split at evicted
  · rename_i full
    split at evicted
    · rename_i there
      cases evicted
      have shrunk := state.cache.erase_length victim
      have grown := (state.drop victim).put_length entry
      rw [if_pos there] at shrunk
      refine ⟨fun old member => (dropped.mp member).1, ?_⟩
      unfold AccessState.drop at grown ⊢
      omega
    · cases evicted
  · rename_i free
    cases evicted
    refine ⟨fun _ => id, ?_⟩
    have grown := state.cache.put_length entry
    cases found : state.cache.find accountID with
    | none =>
        have room : ¬maxUserRepositoryAccessCacheItems ≤ state.cache.rows.length := fun full =>
          free ⟨by rw [found]; rfl, full⟩
        omega
    | some old =>
        rw [← own] at found
        rw [KeyedTable.put_length_present found]
        exact le_max_left _ _

theorem store_effect {accountID : Int} {epoch : Nat} {access : RepositoryAccess} {now : Time}
    {victim : Int} {answer : Bool}
    (answered : state.cacheIfCurrent accountID epoch access now victim = some (answer, after)) :
    CacheEffect state ⟨.cacheIfCurrent accountID epoch access, answer⟩ after ∧
      Grows state after := by
  unfold AccessState.cacheIfCurrent at answered
  by_cases current : state.epochs accountID = epoch
  · rw [if_pos current] at answered
    obtain ⟨room, evicted, same⟩ := Option.map_eq_some_iff.mp answered
    cases same
    let entry : CachedUserRepositoryAccess :=
      { accountID, access
        refreshAfter := now + userRepositoryAccessRefreshAfter
        expiresAt := now + userRepositoryAccessCacheTTL }
    obtain ⟨subset, size⟩ := evicted_room evicted entry rfl
    subst current
    exact ⟨.stored entry room subset size rfl rfl rfl, grows_cache state _⟩
  · rw [if_neg current] at answered
    cases answered
    refine ⟨cacheEffect_same rfl rfl fun _ _ _ same => ?_, grows_refl state⟩
    cases same

theorem finish_effect (accountID : Int) (epoch : Nat) (now : Time) :
    CacheEffect state ⟨.finishRefresh accountID epoch, ()⟩ (state.finishRefresh accountID epoch now) ∧
      Grows state (state.finishRefresh accountID epoch now) := by
  have other (id : Int) (stamp : Nat) (access : RepositoryAccess) :
      (⟨.finishRefresh accountID epoch, ()⟩ : AccessAnswered) ≠
        ⟨.cacheIfCurrent id stamp access, true⟩ := fun same => by cases same
  unfold AccessState.finishRefresh
  split
  · split
    · exact ⟨cacheEffect_same rfl rfl other, grows_refl state⟩
    · rename_i cached found
      obtain ⟨present, _⟩ := KeyedTable.find_some.mp found
      exact ⟨.marked cached { cached with
        refreshing := false
        refreshAfter := min (now + userRepositoryAccessRefreshRetry) cached.expiresAt }
        present rfl rfl rfl rfl other, grows_cache state _⟩
  · exact ⟨cacheEffect_same rfl rfl other, grows_refl state⟩

theorem doChan_flight (state : AccessState) (key : String) :
    (state.doChan key).2.cache = state.cache ∧ (state.doChan key).2.epochs = state.epochs ∧
    (∃ flight, (state.doChan key).2.flights[(state.doChan key).1.1]? = some flight ∧
      flight.key = key) ∧
    ∀ (index : Nat) (flight : Flight), (state.doChan key).2.flights[index]? = some flight →
      state.flights[index]? = some flight ∨ (flight.key = key ∧ flight.result = none) := by
  unfold AccessState.doChan
  cases found : state.flights.findIdx? fun flight => flight.key == key && flight.result.isNone with
  | some index =>
      obtain ⟨bound, holds, _⟩ := List.findIdx?_eq_some_iff_getElem.mp found
      refine ⟨rfl, rfl, ⟨state.flights[index], List.getElem?_eq_getElem bound, ?_⟩, fun _ _ => .inl⟩
      rw [Bool.and_eq_true, beq_iff_eq] at holds
      exact holds.1
  | none =>
      refine ⟨rfl, rfl, ⟨{ key }, by simp, rfl⟩, fun index flight present => ?_⟩
      rw [List.getElem?_append] at present
      split at present
      · exact .inl present
      · have fresh := List.mem_of_getElem? present
        cases List.mem_singleton.mp fresh
        exact .inr ⟨rfl, rfl⟩

theorem doChan_grows (state : AccessState) (key : String) : Grows state (state.doChan key).2 := by
  obtain ⟨_, epochs, _⟩ := doChan_flight state key
  refine ⟨fun accountID => by rw [epochs], fun index flight present => ?_⟩
  unfold AccessState.doChan
  split
  · exact ⟨flight, present, rfl⟩
  · obtain ⟨bound, _⟩ := List.getElem?_eq_some_iff.mp present
    exact ⟨flight, (List.getElem?_append_left bound).trans present, rfl⟩

theorem complete_flight (state : AccessState) (index : Nat)
    (result : Except ApiError RepositoryAccess) (other : Nat) :
    (state.complete index result).flights[other]? =
      (state.flights[other]?).map fun flight =>
        if index = other then { flight with result := some result } else flight := by
  by_cases same : index = other
  · subst same
    simp [AccessState.complete]
  · simp [AccessState.complete, same]

theorem complete_grows (state : AccessState) (index : Nat)
    (result : Except ApiError RepositoryAccess) : Grows state (state.complete index result) := by
  refine ⟨fun _ => le_rfl, fun other flight present => ?_⟩
  rw [complete_flight, present]
  refine ⟨_, rfl, ?_⟩
  split <;> rfl

/-- What every answered call does. -/
theorem respondAccess_effect (answered : respondAccess choice state op = some (resp, after)) :
    CacheEffect state ⟨op, resp⟩ after ∧ Grows state after := by
  cases op with
  | now =>
      cases answered
      exact ⟨cacheEffect_same rfl rfl fun _ _ _ same => (by cases same), grows_refl state⟩
  | cachedForRequest accountID now =>
      have given := cached_effect (Option.some.inj answered)
      exact ⟨given.1, given.2.1⟩
  | goRefresh accountID =>
      cases answered
      exact ⟨cacheEffect_same rfl rfl fun _ _ _ same => (by cases same), grows_refl state⟩
  | epochForRefresh accountID =>
      cases answered
      exact ⟨cacheEffect_same rfl rfl fun _ _ _ same => (by cases same), grows_refl state⟩
  | doChan accountID epoch =>
      have same := Option.some.inj answered
      obtain ⟨cache, epochs, _⟩ := doChan_flight state (flightKey accountID epoch)
      have grows := doChan_grows state (flightKey accountID epoch)
      rw [same] at cache epochs grows
      exact ⟨cacheEffect_same cache epochs fun _ _ _ same => (by cases same), grows⟩
  | await flight =>
      simp only [respondAccess] at answered
      split at answered
      · cases answered
        exact ⟨cacheEffect_same rfl rfl fun _ _ _ same => (by cases same), grows_refl state⟩
      · split at answered
        · cases answered
        · obtain ⟨result, _, same⟩ := Option.map_eq_some_iff.mp answered
          cases same
          exact ⟨cacheEffect_same rfl rfl fun _ _ _ same => (by cases same), grows_refl state⟩
  | epochMatches accountID epoch =>
      cases answered
      exact ⟨cacheEffect_same rfl rfl fun _ _ _ same => (by cases same), grows_refl state⟩
  | load accountID =>
      cases answered
      exact ⟨cacheEffect_same rfl rfl fun _ _ _ same => (by cases same), grows_refl state⟩
  | invalidateIfCurrent accountID epoch =>
      cases answered
      unfold AccessState.invalidateIfCurrent
      split
      · exact ⟨cacheEffect_invalidate accountID fun _ _ _ same => (by cases same),
          invalidate_grows state accountID⟩
      · exact ⟨cacheEffect_same rfl rfl fun _ _ _ same => (by cases same), grows_refl state⟩
  | finishRefresh accountID epoch =>
      cases answered
      exact finish_effect accountID epoch choice.now
  | cacheIfCurrent accountID epoch access => exact store_effect answered
  | complete flight result =>
      cases answered
      exact ⟨cacheEffect_same rfl rfl fun _ _ _ same => (by cases same),
        complete_grows state flight result⟩
  | invalidate accountID =>
      cases answered
      exact ⟨cacheEffect_invalidate accountID fun _ _ _ same => (by cases same),
        invalidate_grows state accountID⟩
  | returned accountID result =>
      cases answered
      exact ⟨cacheEffect_same rfl rfl fun _ _ _ same => (by cases same), grows_refl state⟩

/-- Where each flight of after comes from. -/
theorem respondAccess_flights (answered : respondAccess choice state op = some (resp, after))
    {index : Nat} {flight : Flight} (present : after.flights[index]? = some flight) :
    (∃ old, state.flights[index]? = some old ∧ flight.key = old.key ∧
      (flight.result = old.result ∨
        ∃ result, op = .complete index result ∧ flight.result = some result)) ∨
    ∃ accountID epoch, op = .doChan accountID epoch ∧ flight.key = flightKey accountID epoch ∧
      flight.result = none := by
  have still (same : after.flights = state.flights) :
      ∃ old, state.flights[index]? = some old ∧ flight.key = old.key ∧
        (flight.result = old.result ∨
          ∃ result, op = .complete index result ∧ flight.result = some result) :=
    ⟨flight, same ▸ present, rfl, .inl rfl⟩
  cases op with
  | doChan accountID epoch =>
      have same := Option.some.inj answered
      obtain ⟨_, _, _, flights⟩ := doChan_flight state (flightKey accountID epoch)
      rw [same] at flights
      rcases flights index flight present with old | ⟨key, none⟩
      · exact .inl ⟨flight, old, rfl, .inl rfl⟩
      · exact .inr ⟨accountID, epoch, rfl, key, none⟩
  | complete target result =>
      cases answered
      rw [complete_flight] at present
      obtain ⟨old, there, rfl⟩ := Option.map_eq_some_iff.mp present
      by_cases own : target = index
      · subst own
        exact .inl ⟨old, there, by rw [if_pos rfl], .inr ⟨result, rfl, by rw [if_pos rfl]⟩⟩
      · exact .inl ⟨old, there, by rw [if_neg own], .inl (by rw [if_neg own])⟩
  -- the other calls leave the flights as they are
  | cachedForRequest accountID now =>
      have same := Option.some.inj answered
      refine .inl (still ?_)
      unfold AccessState.cachedForRequest at same
      split at same
      · cases same
        rfl
      · split at same
        · split at same <;> cases same <;> rfl
        · cases same
          rfl
  | await target =>
      simp only [respondAccess] at answered
      split at answered
      · cases answered
        exact .inl (still rfl)
      · split at answered
        · cases answered
        · obtain ⟨result, _, same⟩ := Option.map_eq_some_iff.mp answered
          cases same
          exact .inl (still rfl)
  | invalidateIfCurrent accountID epoch =>
      cases answered
      refine .inl (still ?_)
      unfold AccessState.invalidateIfCurrent
      split <;> rfl
  | finishRefresh accountID epoch =>
      cases answered
      refine .inl (still ?_)
      unfold AccessState.finishRefresh
      split
      · split <;> rfl
      · rfl
  | cacheIfCurrent accountID epoch access =>
      refine .inl (still ?_)
      simp only [respondAccess, AccessState.cacheIfCurrent] at answered
      split at answered
      · obtain ⟨room, _, same⟩ := Option.map_eq_some_iff.mp answered
        cases same
        rfl
      · cases answered
        rfl
  | now =>
      cases answered
      exact .inl (still rfl)
  | goRefresh accountID =>
      cases answered
      exact .inl (still rfl)
  | epochForRefresh accountID =>
      cases answered
      exact .inl (still rfl)
  | epochMatches accountID epoch =>
      cases answered
      exact .inl (still rfl)
  | load accountID =>
      cases answered
      exact .inl (still rfl)
  | invalidate accountID =>
      cases answered
      exact .inl (still rfl)
  | returned accountID result =>
      cases answered
      exact .inl (still rfl)

end Steps

end Runnerd
