import Runnerd.AccessConduct

/-!
What a user may see is never older than the last invalidation. A flight belongs to
the epoch that was read before it took off, an invalidation ends the epoch, and
neither the cache nor a waiting caller takes the list of a flight whose epoch is
over. What is cached was stored in the epoch that still runs.
-/

namespace Runnerd

open Interaction Interleaving

section Entries

/-- The epoch of the flight whose list a call puts into the cache. -/
def stores (accountID : Int) : AccessAnswered → Option Nat
  | ⟨.cacheIfCurrent found epoch _, true⟩ => if found = accountID then some epoch else none
  | _ => none

/-- The epoch of the flight that stored a list of the account last. -/
def storedEpoch (accountID : Int) : List AccessEvent → Option Nat
  | [] => none
  | event :: trace => (stores accountID event.call).or (storedEpoch accountID trace)

theorem stores_none {call : AccessAnswered}
    (other : ∀ accountID epoch access, call ≠ ⟨.cacheIfCurrent accountID epoch access, true⟩)
    (accountID : Int) : stores accountID call = none := by
  unfold stores
  split
  · exact absurd rfl (other _ _ _)
  · rfl

/-- The cache is never too full, and all of it is of the running epochs. -/
structure Stamped (state : AccessState) (trace : List AccessEvent) : Prop where
  bounded : state.cache.rows.length ≤ maxUserRepositoryAccessCacheItems
  current : ∀ entry ∈ state.cache.rows,
    storedEpoch entry.accountID trace = some (state.epochs entry.accountID)

theorem stamped_step {state after : AccessState} {trace : List AccessEvent} (event : AccessEvent)
    (stamped : Stamped state trace) (effect : CacheEffect state event.call after) :
    Stamped after (event :: trace) := by
  cases effect with
  | fewer subset size other ends =>
      refine ⟨le_trans size stamped.bounded, fun entry member => ?_⟩
      rw [storedEpoch, stores_none other, Option.none_or, stamped.current entry (subset entry member)]
      rcases ends entry.accountID with same | gone
      · rw [same]
      · exact absurd rfl (gone entry member)
  | marked old entry present same access cache epochs other =>
      have found : state.cache.find entry.accountID = some old :=
        KeyedTable.find_some.mpr ⟨present, same.symm⟩
      refine ⟨?_, fun found member => ?_⟩
      · rw [cache, KeyedTable.put_length_present found]
        exact stamped.bounded
      · rw [storedEpoch, stores_none other, Option.none_or, epochs]
        rw [cache] at member
        rcases KeyedTable.mem_put.mp member with ⟨older, _⟩ | rfl
        · exact stamped.current found older
        · rw [same]
          exact stamped.current old present
  | stored entry room subset size current same next =>
      subst next
      refine ⟨le_trans size (max_le stamped.bounded le_rfl), fun found member => ?_⟩
      rw [storedEpoch, same]
      rcases KeyedTable.mem_put.mp member with ⟨older, different⟩ | rfl
      · have kept : stores found.accountID
            ⟨.cacheIfCurrent entry.accountID (state.epochs entry.accountID) entry.access, true⟩ =
            none := if_neg (Ne.symm different)
        rw [kept, Option.none_or]
        exact stamped.current found (subset found older)
      · simp [stores]

variable {condition : AccessWorld → AccessMove → Prop} {world : AccessWorld}

theorem stamped_reachable (reaches : accessMachine.Reaches condition noAccess world) :
    Stamped world.state world.trace := by
  have empty (trace : List AccessEvent) : Stamped {} trace :=
    ⟨Nat.zero_le _, fun entry member => by cases member⟩
  induction reaches with
  | refl => exact empty _
  | step move _ _ stepped ih =>
      obtain ⟨tid, choice, thread, op, resp, rest, state, rfl, acts, rfl⟩ | ⟨task, rfl, _, rfl⟩ |
        ⟨rfl, rfl⟩ := accessMachine.step_cases stepped
      · exact stamped_step ⟨tid, thread.task, ⟨op, resp⟩⟩ ih
          (respondAccess_effect acts.answer).1
      · exact ih
      · exact empty _

end Entries

section Memories

/-- What an answer of before still says. -/
def Recalls (state : AccessState) : AccessAnswered → Prop
  | ⟨.epochForRefresh accountID, epoch⟩ => epoch ≤ state.epochs accountID
  | ⟨.doChan accountID epoch, (index, _)⟩ => ∃ flight, state.flights[index]? = some flight ∧
      flight.key = flightKey accountID epoch
  | ⟨.invalidateIfCurrent accountID epoch, _⟩ => epoch < state.epochs accountID
  | _ => True

theorem recalls_grows {state after : AccessState} (grows : Grows state after)
    {call : AccessAnswered} (recalls : Recalls state call) : Recalls after call := by
  obtain ⟨op, resp⟩ := call
  cases op with
  | epochForRefresh accountID => exact le_trans recalls (grows.epochs accountID)
  | invalidateIfCurrent accountID epoch => exact lt_of_lt_of_le recalls (grows.epochs accountID)
  | doChan accountID epoch =>
      obtain ⟨flight, present, key⟩ := recalls
      obtain ⟨next, now, same⟩ := grows.flights resp.1 flight present
      exact ⟨next, now, same.trans key⟩
  | _ => trivial

/-- What the goroutines that still run know. -/
structure AccessKnown (world : AccessWorld) : Prop where
  recalls : ∀ (tid : Nat) (thread : Thread AccessOp AccessOp.Resp AccessTask),
    world.threads[tid]? = some thread → thread.rest.ended = false →
    ∀ call ∈ thread.past, Recalls world.state call
  flying : ∀ (tid : Nat) (thread : Thread AccessOp AccessOp.Resp AccessTask) (index : Nat)
    (accountID : Int) (epoch : Nat), world.threads[tid]? = some thread →
    thread.rest.ended = false → thread.task = .flight index accountID epoch →
    epoch ≤ world.state.epochs accountID ∧ ∃ flight, world.state.flights[index]? = some flight ∧
      flight.key = flightKey accountID epoch
  keys : ∀ (index : Nat) (flight : Flight), world.state.flights[index]? = some flight →
    ∃ accountID epoch, flight.key = flightKey accountID epoch ∧
      epoch ≤ world.state.epochs accountID

variable {world : AccessWorld} {tid : Nat} {choice : AccessChoice}
variable {thread : Thread AccessOp AccessOp.Resp AccessTask} {op : AccessOp} {resp : op.Resp}
variable {rest : AccessAction Unit} {state : AccessState}

theorem acts_pending (acts : accessMachine.Acts world tid choice thread op resp rest state) :
    thread.rest.ended = false := by
  obtain ⟨answers, next, _⟩ := acts.next
  rw [next]
  rfl

/-- Only a caller joins a flight, with the epoch that it has just read. -/
theorem joins_read (obeys : Machine.Obeys accessContract world) (known : AccessKnown world)
    {accountID : Int} {epoch : Nat} {resp : AccessOp.Resp (.doChan accountID epoch)}
    (acts : accessMachine.Acts world tid choice thread (.doChan accountID epoch) resp rest state) :
    epoch ≤ world.state.epochs accountID := by
  obtain ⟨found, rfl, earlier, past⟩ := caller_permitted (obeys.permits acts) rfl
  have memory := known.recalls tid thread acts.live (acts_pending acts)
  rw [past] at memory
  exact memory _ List.mem_cons_self

theorem refused_current (obeys : Machine.Obeys accessContract world) (known : AccessKnown world)
    {accountID : Int} {epoch : Nat} {resp : AccessOp.Resp (.invalidateIfCurrent accountID epoch)}
    (acts : accessMachine.Acts world tid choice thread (.invalidateIfCurrent accountID epoch) resp
      rest state) : epoch < state.epochs accountID := by
  have answer : respondAccess choice world.state (.invalidateIfCurrent accountID epoch) =
      some (resp, state) := acts.answer
  obtain ⟨index, found, stamp, task, rfl, rfl, _⟩ := flight_permitted (obeys.permits acts) rfl
  have reached := (known.flying tid thread index _ _ acts.live (acts_pending acts) task).1
  cases answer
  unfold AccessState.invalidateIfCurrent
  by_cases current : world.state.epochs accountID = epoch
  · rw [if_pos current, invalidated]
    omega
  · rw [if_neg current]
    omega

theorem recalls_answer (obeys : Machine.Obeys accessContract world) (known : AccessKnown world)
    (acts : accessMachine.Acts world tid choice thread op resp rest state) :
    Recalls state ⟨op, resp⟩ := by
  have answer : respondAccess choice world.state op = some (resp, state) := acts.answer
  cases op with
  | epochForRefresh accountID =>
      cases answer
      exact le_rfl
  | invalidateIfCurrent accountID epoch => exact refused_current obeys known acts
  | doChan accountID epoch =>
      have same := Option.some.inj answer
      obtain ⟨_, _, joined, _⟩ := doChan_flight world.state (flightKey accountID epoch)
      rw [same] at joined
      exact joined
  | _ => trivial

theorem flight_spawned {index : Nat} {accountID : Int} {epoch : Nat}
    (spawned : AccessTask.flight index accountID epoch ∈ accessSpawned op resp) :
    (⟨op, resp⟩ : AccessAnswered) = ⟨.doChan accountID epoch, (index, true)⟩ := by
  unfold accessSpawned at spawned
  split at spawned
  · simp at spawned
  · simp only [List.mem_singleton, AccessTask.flight.injEq] at spawned
    obtain ⟨rfl, rfl, rfl⟩ := spawned
    rfl
  · simp at spawned

theorem accessKnown_step (obeys : Machine.Obeys accessContract world) (known : AccessKnown world)
    (acts : accessMachine.Acts world tid choice thread op resp rest state) :
    AccessKnown (accessMachine.acted world tid thread op resp rest state) := by
  obtain ⟨_, grows⟩ := respondAccess_effect acts.answer
  have grown {index epoch : Nat} {accountID : Int}
      (flies : epoch ≤ world.state.epochs accountID ∧ ∃ flight,
        world.state.flights[index]? = some flight ∧ flight.key = flightKey accountID epoch) :
      epoch ≤ state.epochs accountID ∧ ∃ flight, state.flights[index]? = some flight ∧
        flight.key = flightKey accountID epoch := by
    obtain ⟨reached, flight, present, key⟩ := flies
    obtain ⟨next, now, same⟩ := grows.flights index flight present
    exact ⟨le_trans reached (grows.epochs accountID), next, now, same.trans key⟩
  constructor
  · intro other found live pending call member
    rcases Machine.acted_thread live with ⟨rfl, rfl⟩ | ⟨_, old⟩ | ⟨task, _, rfl⟩
    · rcases List.mem_cons.mp member with rfl | older
      · exact recalls_answer obeys known acts
      · exact recalls_grows grows (known.recalls _ thread acts.live (acts_pending acts) call older)
    · exact recalls_grows grows (known.recalls other found old pending call member)
    · cases member
  · intro other found index accountID epoch live pending task
    rcases Machine.acted_thread live with ⟨rfl, rfl⟩ | ⟨_, old⟩ | ⟨spawned, member, rfl⟩
    · have flies := known.flying _ thread index accountID epoch acts.live (acts_pending acts) task
      exact grown flies
    · exact grown (known.flying other found index accountID epoch old pending task)
    · have same : spawned = .flight index accountID epoch := task
      subst same
      have called := flight_spawned member
      cases called
      have joined := recalls_answer obeys known acts
      exact ⟨le_trans (joins_read obeys known acts) (grows.epochs accountID), joined⟩
  · intro index flight present
    rcases respondAccess_flights acts.answer present with ⟨old, there, key, _⟩ |
      ⟨accountID, epoch, rfl, key, _⟩
    · obtain ⟨accountID, epoch, same, reached⟩ := known.keys index old there
      exact ⟨accountID, epoch, key.trans same, le_trans reached (grows.epochs accountID)⟩
    · exact ⟨accountID, epoch, key, le_trans (joins_read obeys known acts) (grows.epochs accountID)⟩

variable {condition : AccessWorld → AccessMove → Prop}

theorem accessKnown_reachable (reaches : accessMachine.Reaches condition noAccess world) :
    AccessKnown world := by
  induction reaches with
  | refl =>
      constructor
      · intro tid thread live
        cases live
      · intro tid thread index accountID epoch live
        cases live
      · intro index flight present
        cases present
  | step move before _ stepped ih =>
      obtain ⟨tid, choice, thread, op, resp, rest, state, rfl, acts, rfl⟩ | ⟨task, rfl, entered, rfl⟩ |
        ⟨rfl, rfl⟩ := accessMachine.step_cases stepped
      · exact accessKnown_step (access_obeys before) ih acts
      · constructor
        · intro tid found live pending call member
          rcases Machine.started_thread live with old | rfl
          · exact ih.recalls tid found old pending call member
          · cases member
        · intro tid found index accountID epoch live pending same
          rcases Machine.started_thread live with old | rfl
          · exact ih.flying tid found index accountID epoch old pending same
          · have notFlight : task = .flight index accountID epoch := same
            subst notFlight
            cases entered
        · exact ih.keys
      · -- no goroutine of the old process runs any more
        constructor
        · intro tid found live pending
          obtain ⟨old, _, rfl⟩ := Machine.halted_thread live
          cases pending
        · intro tid found index accountID epoch live pending
          obtain ⟨old, _, rfl⟩ := Machine.halted_thread live
          cases pending
        · intro index flight present
          cases present

end Memories

section Freshness

/-- A goroutine that started from `first` on has loaded the list. -/
def LoadedSince (first : Nat) (accountID : Int) (access : RepositoryAccess)
    (trace : List AccessEvent) : Prop :=
  ∃ event ∈ trace, first ≤ event.tid ∧ event.call = ⟨.load accountID, .ok access⟩

theorem loadedSince_later {first : Nat} {accountID : Int} {access : RepositoryAccess}
    {trace : List AccessEvent} (event : AccessEvent)
    (loaded : LoadedSince first accountID access trace) :
    LoadedSince first accountID access (event :: trace) := by
  obtain ⟨found, member, rest⟩ := loaded
  exact ⟨found, List.mem_cons_of_mem _ member, rest⟩

/-- Nothing that was loaded by an older goroutine is left, except where its epoch is
over. -/
structure Renewed (first : Nat) (accountID : Int) (world : AccessWorld) : Prop where
  bound : first ≤ world.threads.length
  cached : ∀ entry ∈ world.state.cache.rows, entry.accountID = accountID →
    LoadedSince first accountID entry.access world.trace
  late : ∀ (tid : Nat) (thread : Thread AccessOp AccessOp.Resp AccessTask) (index epoch : Nat),
    tid < first → world.threads[tid]? = some thread → thread.rest.ended = false →
    thread.task = .flight index accountID epoch → epoch < world.state.epochs accountID
  landed : ∀ (index : Nat) (flight : Flight) (epoch : Nat) (access : RepositoryAccess),
    world.state.flights[index]? = some flight → flight.key = flightKey accountID epoch →
    flight.result = some (.ok access) →
    epoch < world.state.epochs accountID ∨ LoadedSince first accountID access world.trace
  awaited : ∀ (tid : Nat) (thread : Thread AccessOp AccessOp.Resp AccessTask), first ≤ tid →
    world.threads[tid]? = some thread → thread.rest.ended = false →
    ∀ (epoch flight : Nat) (started : Bool) (access : RepositoryAccess)
      (earlier : List AccessAnswered),
    (⟨.await flight, some (.ok access)⟩ :: ⟨.doChan accountID epoch, (flight, started)⟩ :: earlier :
      List AccessAnswered) <:+ thread.past →
    epoch < world.state.epochs accountID ∨ LoadedSince first accountID access world.trace
  entitled : ∀ (tid : Nat) (thread : Thread AccessOp AccessOp.Resp AccessTask), first ≤ tid →
    world.threads[tid]? = some thread → thread.rest.ended = false →
    ∀ access, Entitled accountID access thread.past →
    LoadedSince first accountID access world.trace

variable {first : Nat} {accountID : Int} {world : AccessWorld} {tid : Nat} {choice : AccessChoice}
variable {thread : Thread AccessOp AccessOp.Resp AccessTask} {op : AccessOp} {resp : op.Resp}
variable {rest : AccessAction Unit} {state : AccessState}

theorem flight_loaded (obeys : Machine.Obeys accessContract world)
    (renewed : Renewed first accountID world)
    (acts : accessMachine.Acts world tid choice thread op resp rest state) {index epoch : Nat}
    {access : RepositoryAccess} (task : thread.task = .flight index accountID epoch)
    (loaded : (⟨.load accountID, .ok access⟩ : AccessAnswered) ∈ thread.past) :
    epoch < world.state.epochs accountID ∨ LoadedSince first accountID access world.trace := by
  by_cases old : tid < first
  · exact .inl (renewed.late tid thread index epoch old acts.live (acts_pending acts) task)
  · exact .inr ⟨_, obeys.recorded tid thread acts.live _ loaded, Nat.le_of_not_lt old, rfl⟩

theorem renewed_cached (obeys : Machine.Obeys accessContract world)
    (renewed : Renewed first accountID world)
    (acts : accessMachine.Acts world tid choice thread op resp rest state) :
    ∀ entry ∈ state.cache.rows, entry.accountID = accountID →
      LoadedSince first accountID entry.access world.trace := by
  intro entry member own
  cases (respondAccess_effect acts.answer).1 with
  | fewer subset size other ends => exact renewed.cached entry (subset entry member) own
  | marked old marked present same access cache epochs other =>
      rw [cache] at member
      rcases KeyedTable.mem_put.mp member with ⟨older, _⟩ | rfl
      · exact renewed.cached entry older own
      · rw [access]
        exact renewed.cached old present (same.symm.trans own)
  | stored fresh room subset size current same next =>
      subst next
      rcases KeyedTable.mem_put.mp member with ⟨older, _⟩ | rfl
      · exact renewed.cached entry (subset entry older) own
      · cases same
        subst own
        obtain ⟨index, found, stamp, task, rfl, rfl, past⟩ :=
          flight_permitted (obeys.permits acts) rfl
        have loaded : (⟨.load entry.accountID, .ok entry.access⟩ : AccessAnswered) ∈
            thread.past := by
          rw [past]
          exact List.mem_singleton_self _
        rcases flight_loaded obeys renewed acts task loaded with older | since
        · exact absurd older (lt_irrefl _)
        · exact since

theorem renewed_landed (obeys : Machine.Obeys accessContract world) (known : AccessKnown world)
    (renewed : Renewed first accountID world)
    (acts : accessMachine.Acts world tid choice thread op resp rest state) {index : Nat}
    {flight : Flight} {epoch : Nat} {access : RepositoryAccess}
    (present : state.flights[index]? = some flight) (key : flight.key = flightKey accountID epoch)
    (landed : flight.result = some (.ok access)) :
    epoch < world.state.epochs accountID ∨ LoadedSince first accountID access world.trace := by
  rcases respondAccess_flights acts.answer present with ⟨old, there, same, result⟩ |
    ⟨_, _, _, _, none⟩
  · rcases result with before | ⟨result, rfl, now⟩
    · exact renewed.landed index old epoch access there (same.symm.trans key)
        (before.symm.trans landed)
    · obtain rfl : result = .ok access := Option.some.inj (now.symm.trans landed)
      obtain ⟨own, found, stamp, task, rfl, loaded, _⟩ := flight_permitted (obeys.permits acts) rfl
      obtain ⟨_, flying, there_, keyed⟩ :=
        known.flying tid thread index found stamp acts.live (acts_pending acts) task
      obtain rfl : old = flying := Option.some.inj (there.symm.trans there_)
      obtain ⟨rfl, rfl⟩ := flightKey_inj (keyed.symm.trans (same.symm.trans key))
      exact flight_loaded obeys renewed acts task (loaded access rfl)
  · rw [none] at landed
    cases landed

theorem renewed_awaited (known : AccessKnown world) (renewed : Renewed first accountID world)
    (acts : accessMachine.Acts world tid choice thread op resp rest state) (late : first ≤ tid)
    {epoch flight : Nat} {started : Bool} {access : RepositoryAccess}
    {earlier : List AccessAnswered}
    (suffix : (⟨.await flight, some (.ok access)⟩ ::
      ⟨.doChan accountID epoch, (flight, started)⟩ :: earlier : List AccessAnswered) <:+
      ⟨op, resp⟩ :: thread.past) :
    epoch < world.state.epochs accountID ∨ LoadedSince first accountID access world.trace := by
  rcases List.suffix_cons_iff.mp suffix with last | older
  · have answer : respondAccess choice world.state op = some (resp, state) := acts.answer
    obtain ⟨head, past⟩ := List.cons_eq_cons.mp last
    cases head
    have joined := known.recalls tid thread acts.live (acts_pending acts)
      ⟨.doChan accountID epoch, (flight, started)⟩ (past ▸ List.mem_cons_self)
    obtain ⟨found, present, key⟩ := joined
    simp only [respondAccess] at answer
    split at answer
    · cases answer
    · rw [present] at answer
      obtain ⟨result, landed, same⟩ := Option.map_eq_some_iff.mp answer
      cases same
      exact renewed.landed flight found epoch access present key landed
  · exact renewed.awaited tid thread late acts.live (acts_pending acts) epoch flight started access
      earlier older

theorem renewed_entitled (renewed : Renewed first accountID world)
    (acts : accessMachine.Acts world tid choice thread op resp rest state) (late : first ≤ tid)
    {access : RepositoryAccess} (entitled : Entitled accountID access (⟨op, resp⟩ :: thread.past)) :
    LoadedSince first accountID access world.trace := by
  have answer : respondAccess choice world.state op = some (resp, state) := acts.answer
  have before := renewed.entitled tid thread late acts.live (acts_pending acts) access
  rcases entitled with ⟨now, refresh, member⟩ | ⟨epoch, flight, started, earlier, suffix⟩
  · rcases List.mem_cons.mp member with same | older
    · cases same
      obtain ⟨_, _, given⟩ := cached_effect (Option.some.inj answer)
      obtain ⟨entry, present, own, same, _⟩ := given access refresh rfl
      exact same ▸ renewed.cached entry present own
    · exact before (.inl ⟨now, refresh, older⟩)
  · rcases List.suffix_cons_iff.mp suffix with last | older
    · obtain ⟨head, past⟩ := List.cons_eq_cons.mp last
      cases head
      have current : world.state.epochs accountID = epoch := by
        have same := congrArg Prod.fst (Option.some.inj answer)
        exact of_decide_eq_true same
      rcases renewed.awaited tid thread late acts.live (acts_pending acts) epoch flight started
        access earlier (past ▸ List.suffix_rfl) with over_ | since
      · exact absurd current (Nat.ne_of_gt over_)
      · exact since
    · exact before (.inr ⟨epoch, flight, started, earlier, older⟩)

theorem renewed_step (obeys : Machine.Obeys accessContract world) (known : AccessKnown world)
    (renewed : Renewed first accountID world)
    (acts : accessMachine.Acts world tid choice thread op resp rest state) :
    Renewed first accountID (accessMachine.acted world tid thread op resp rest state) := by
  obtain ⟨_, grows⟩ := respondAccess_effect acts.answer
  have later {epoch : Nat} {access : RepositoryAccess}
      (either : epoch < world.state.epochs accountID ∨
        LoadedSince first accountID access world.trace) :
      epoch < state.epochs accountID ∨
        LoadedSince first accountID access (⟨tid, thread.task, ⟨op, resp⟩⟩ :: world.trace) :=
    either.imp (fun before => lt_of_lt_of_le before (grows.epochs accountID)) (loadedSince_later _)
  constructor
  · refine le_trans renewed.bound ?_
    simp [Machine.acted]
  · exact fun entry member own =>
      loadedSince_later _ (renewed_cached obeys renewed acts entry member own)
  · intro other found index epoch old live pending task
    have there : (world.threads.set tid (thread.answered op resp rest))[other]? = some found := by
      rw [← live]
      refine (List.getElem?_append_left ?_).symm
      rw [List.length_set]
      exact lt_of_lt_of_le old renewed.bound
    refine lt_of_lt_of_le ?_ (grows.epochs accountID)
    by_cases own : tid = other
    · subst own
      obtain ⟨bound, _⟩ := List.getElem?_eq_some_iff.mp acts.live
      rw [List.getElem?_set_self bound] at there
      obtain rfl := Option.some.inj there
      exact renewed.late tid thread index epoch old acts.live (acts_pending acts) task
    · rw [List.getElem?_set_ne own] at there
      exact renewed.late other found index epoch old there pending task
  · exact fun index flight epoch access present key landed =>
      later (renewed_landed obeys known renewed acts present key landed)
  · intro other found late live pending epoch flight started access earlier suffix
    rcases Machine.acted_thread live with ⟨rfl, rfl⟩ | ⟨_, old⟩ | ⟨task, _, rfl⟩
    · exact later (renewed_awaited known renewed acts late suffix)
    · exact later (renewed.awaited other found late old pending epoch flight started access earlier
        suffix)
    · have short := suffix.length_le
      simp [Machine.launch] at short
  · intro other found late live pending access entitled
    rcases Machine.acted_thread live with ⟨rfl, rfl⟩ | ⟨_, old⟩ | ⟨task, _, rfl⟩
    · exact loadedSince_later _ (renewed_entitled renewed acts late entitled)
    · exact loadedSince_later _ (renewed.entitled other found late old pending access entitled)
    · rcases entitled with ⟨_, _, member⟩ | ⟨_, _, _, _, suffix⟩
      · cases member
      · have short := suffix.length_le
        simp [Machine.launch] at short

variable {condition : AccessWorld → AccessMove → Prop} {after : AccessWorld}

/-- The goroutines of before can no longer bring a list in. -/
theorem renewed_invalidated (known : AccessKnown world) {resp : AccessOp.Resp (.invalidate accountID)}
    (acts : accessMachine.Acts world tid choice thread (.invalidate accountID) resp rest state) :
    Renewed world.threads.length accountID
      (accessMachine.acted world tid thread (.invalidate accountID) resp rest state) := by
  have answer : respondAccess choice world.state (.invalidate accountID) = some (resp, state) :=
    acts.answer
  cases answer
  have ended : world.state.epochs accountID < (world.state.invalidate accountID).epochs accountID := by
    rw [invalidated]
    exact Nat.lt_succ_self _
  have size : (accessMachine.acted world tid thread (.invalidate accountID) () rest
      (world.state.invalidate accountID)).threads.length = world.threads.length := by
    simp [Machine.acted, accessMachine, accessSpawned]
  have outside {other : Nat} {found : Thread AccessOp AccessOp.Resp AccessTask}
      (late : world.threads.length ≤ other)
      (live : (accessMachine.acted world tid thread (.invalidate accountID) () rest
        (world.state.invalidate accountID)).threads[other]? = some found) : False := by
    obtain ⟨bound, _⟩ := List.getElem?_eq_some_iff.mp live
    omega
  constructor
  · exact size.ge
  · exact fun entry member own => absurd own (dropped.mp member).2
  · intro other found index epoch _ live pending task
    refine lt_of_le_of_lt ?_ ended
    rcases Machine.acted_thread live with ⟨rfl, rfl⟩ | ⟨_, old⟩ | ⟨spawned, member, rfl⟩
    · exact (known.flying _ thread index accountID epoch acts.live (acts_pending acts) task).1
    · exact (known.flying other found index accountID epoch old pending task).1
    · cases member
  · intro index flight epoch access present key landed
    obtain ⟨found, stamp, same, reached⟩ := known.keys index flight present
    obtain ⟨rfl, rfl⟩ := flightKey_inj (key.symm.trans same)
    exact .inl (lt_of_le_of_lt reached ended)
  · exact fun other found late live => (outside late live).elim
  · exact fun other found late live => (outside late live).elim

theorem renewed_reachable (reaches : accessMachine.Reaches condition noAccess world)
    (renewed : Renewed first accountID world)
    (further : accessMachine.Reaches condition world after) : Renewed first accountID after := by
  induction further with
  | refl => exact renewed
  | step move before _ stepped ih =>
      have so_far := reaches.trans before
      obtain ⟨tid, choice, thread, op, resp, rest, state, rfl, acts, rfl⟩ | ⟨task, rfl, entered, rfl⟩ |
        ⟨rfl, rfl⟩ := accessMachine.step_cases stepped
      · exact renewed_step (access_obeys so_far) (accessKnown_reachable so_far) ih acts
      · constructor
        · refine le_trans ih.bound ?_
          simp
        · exact ih.cached
        · intro tid found index epoch old live pending same
          rcases Machine.started_thread live with there | rfl
          · exact ih.late tid found index epoch old there pending same
          · have notFlight : task = .flight index accountID epoch := same
            subst notFlight
            cases entered
        · exact ih.landed
        · intro tid found late live pending epoch flight started access earlier suffix
          rcases Machine.started_thread live with there | rfl
          · exact ih.awaited tid found late there pending epoch flight started access earlier suffix
          · have short := suffix.length_le
            simp [Machine.launch] at short
        · intro tid found late live pending access entitled
          rcases Machine.started_thread live with there | rfl
          · exact ih.entitled tid found late there pending access entitled
          · rcases entitled with ⟨_, _, member⟩ | ⟨_, _, _, _, suffix⟩
            · cases member
            · have short := suffix.length_le
              simp [Machine.launch] at short
      · have stopped {tid : Nat} {found : Thread AccessOp AccessOp.Resp AccessTask}
            {threads : List (Thread AccessOp AccessOp.Resp AccessTask)}
            (live : (threads.map Thread.halted)[tid]? = some found)
            (pending : found.rest.ended = false) : False := by
          obtain ⟨old, _, rfl⟩ := Machine.halted_thread live
          cases pending
        constructor
        · rw [List.length_map]
          exact ih.bound
        · intro entry member
          cases member
        · exact fun tid found index epoch _ live pending => (stopped live pending).elim
        · intro index flight epoch access present
          cases present
        · exact fun tid found _ live pending => (stopped live pending).elim
        · exact fun tid found _ live pending => (stopped live pending).elim

end Freshness

section Coherence

def sameProcess (_ : AccessWorld) : AccessMove → Prop
  | .crash => False
  | _ => True

variable {world after : AccessWorld} {condition : AccessWorld → AccessMove → Prop}

/-- An epoch that is over stays so for as long as the process runs. -/
theorem epoch_over (further : accessMachine.Reaches sameProcess world after) (accountID : Int) :
    world.state.epochs accountID ≤ after.state.epochs accountID := by
  induction further with
  | refl => exact le_rfl
  | step move _ meets stepped ih =>
      obtain ⟨tid, choice, thread, op, resp, rest, state, rfl, acts, rfl⟩ | ⟨task, rfl, _, rfl⟩ |
        ⟨rfl, rfl⟩ := accessMachine.step_cases stepped
      · exact le_trans ih ((respondAccess_effect acts.answer).2.epochs accountID)
      · exact ih
      · exact meets.elim

/-- What holds of the access cache in every world that a server reaches. -/
structure AccessCoherent (world : AccessWorld) : Prop where
  bounded : world.state.cache.rows.length ≤ maxUserRepositoryAccessCacheItems
  /-- A cached answer is given at a time, by the caller's clock, before it expires. -/
  unexpired : ∀ tid choice thread accountID now access refresh rest state,
    accessMachine.Acts world tid choice thread (.cachedForRequest accountID now)
      (some (access, refresh)) rest state →
    thread.past.head? = some ⟨.now, now⟩ ∧ ∃ entry ∈ world.state.cache.rows,
      entry.accountID = accountID ∧ entry.access = access ∧ now < entry.expiresAt
  /-- Once a refresh that GitHub rejected is done, nothing of its epoch is cached. -/
  rejected : ∀ tid choice thread index accountID epoch err answer rest state,
    thread.task = .flight index accountID epoch → isRejectedGitHubUserAccess err = true →
    accessMachine.Acts world tid choice thread (.complete index (.error err)) answer rest state →
    ∀ later, accessMachine.Reaches sameProcess
      (accessMachine.acted world tid thread (.complete index (.error err)) answer rest state) later →
    ∀ entry ∈ later.state.cache.rows, entry.accountID = accountID →
      storedEpoch accountID later.trace ≠ some epoch
  /-- A call that starts after an invalidation returns nothing that an older goroutine
  has loaded. -/
  fresh : ∀ tid choice thread accountID answer rest state,
    accessMachine.Acts world tid choice thread (.invalidate accountID) answer rest state →
    ∀ later, accessMachine.Reaches (fun _ _ => True)
      (accessMachine.acted world tid thread (.invalidate accountID) answer rest state) later →
    ∀ caller picked calling access done rest state, world.threads.length ≤ caller →
      accessMachine.Acts later caller picked calling (.returned accountID (.ok access)) done rest
        state →
      ∃ event ∈ later.trace, world.threads.length ≤ event.tid ∧
        event.call = ⟨.load accountID, .ok access⟩

theorem access_step {tid : Nat} {choice : AccessChoice}
    {thread : Thread AccessOp AccessOp.Resp AccessTask} {op : AccessOp} {resp : op.Resp}
    {rest : AccessAction Unit} {state : AccessState}
    (acts : accessMachine.Acts world tid choice thread op resp rest state) :
    accessMachine.step world (.run tid choice) =
      some (accessMachine.acted world tid thread op resp rest state) := by
  obtain ⟨answers, next, rfl⟩ := acts.next
  simp [Machine.step, acts.live, next, acts.answer]

theorem unexpired_reachable (reaches : accessMachine.Reaches condition noAccess world) {tid : Nat}
    {choice : AccessChoice} {thread : Thread AccessOp AccessOp.Resp AccessTask} {accountID : Int}
    {now : Time} {access : RepositoryAccess} {refresh : Bool} {rest : AccessAction Unit}
    {state : AccessState}
    (acts : accessMachine.Acts world tid choice thread (.cachedForRequest accountID now)
      (some (access, refresh)) rest state) :
    thread.past.head? = some ⟨.now, now⟩ ∧ ∃ entry ∈ world.state.cache.rows,
      entry.accountID = accountID ∧ entry.access = access ∧ now < entry.expiresAt := by
  have answer : respondAccess choice world.state (.cachedForRequest accountID now) =
    some (some (access, refresh), state) := acts.answer
  obtain ⟨_, _, past⟩ := caller_permitted ((access_obeys reaches).permits acts) rfl
  obtain ⟨_, _, given⟩ := cached_effect (Option.some.inj answer)
  refine ⟨?_, given access refresh rfl⟩
  rw [past]
  rfl

theorem rejected_reachable (reaches : accessMachine.Reaches condition noAccess world) {tid : Nat}
    {choice : AccessChoice} {thread : Thread AccessOp AccessOp.Resp AccessTask} {index : Nat}
    {accountID : Int} {epoch : Nat} {err : ApiError} {answer : Unit} {rest : AccessAction Unit}
    {state : AccessState} {later : AccessWorld} (task : thread.task = .flight index accountID epoch)
    (rejected : isRejectedGitHubUserAccess err = true)
    (acts : accessMachine.Acts world tid choice thread (.complete index (.error err)) answer rest state)
    (further : accessMachine.Reaches sameProcess
      (accessMachine.acted world tid thread (.complete index (.error err)) answer rest state) later) :
    ∀ entry ∈ later.state.cache.rows, entry.accountID = accountID →
      storedEpoch accountID later.trace ≠ some epoch := by
  have permitted := (access_obeys reaches).permits acts
  rw [task] at permitted
  obtain ⟨_, _, invalidates⟩ := permitted
  have over_ : epoch < world.state.epochs accountID :=
    (accessKnown_reachable reaches).recalls tid thread acts.live (acts_pending acts) _
      (invalidates err rfl rejected)
  have answered : respondAccess choice world.state (.complete index (.error err)) =
    some (answer, state) := acts.answer
  have still : world.state.epochs accountID ≤ later.state.epochs accountID :=
    le_trans ((respondAccess_effect answered).2.epochs accountID) (epoch_over further accountID)
  have reached : accessMachine.Reaches (fun _ _ => True) noAccess later :=
    ((reaches.weaken fun _ _ _ => trivial).step (.run tid choice) trivial (access_step acts)).trans
      (further.weaken fun _ _ _ => trivial)
  intro entry member own stale
  have current := (stamped_reachable reached).current entry member
  rw [own, stale] at current
  have same : epoch = later.state.epochs accountID := Option.some.inj current
  omega

theorem access_coherent {world : AccessWorld}
    (reaches : accessMachine.Reaches (fun _ _ => True) noAccess world) : AccessCoherent world where
  bounded := (stamped_reachable reaches).bounded
  unexpired _ _ _ _ _ _ _ _ _ acts := unexpired_reachable reaches acts
  rejected _ _ _ _ _ _ _ _ _ _ task rejected acts _ further :=
    rejected_reachable reaches task rejected acts further
  fresh tid choice thread accountID answer rest state acts later further := by
    intro caller picked calling access done rest state late returns
    have invalidated_ : accessMachine.Reaches (fun _ _ => True) noAccess _ :=
      reaches.step (.run tid choice) trivial (access_step acts)
    have renewed := renewed_reachable invalidated_
      (renewed_invalidated (accessKnown_reachable reaches) acts) further
    obtain ⟨_, rfl, entitled⟩ :=
      caller_permitted ((access_obeys (invalidated_.trans further)).permits returns) rfl
    exact renewed.entitled caller calling late returns.live (acts_pending returns) access
      (entitled access rfl)

def someSources (repository : String) : AccessSources where
  installations := .ok [7]
  secret := .ok "token"
  decryptSecret := .ok
  client := some fun _ _ => .ok [repository]

/-- An account is invalidated while a flight is in the air. Its list is thrown away,
and the caller that waited for it joins the flight of the caller that came later. -/
def staleMoves : List AccessMove :=
  [.start (.request 1 3), .run 0 {}, .run 0 {}, .run 0 {}, .run 0 {},
   .run 1 { sources := someSources "org/old" }, .start (.invalidation 1), .run 2 {},
   .start (.request 1 3), .run 3 {}, .run 3 {}, .run 3 {}, .run 3 {}, .run 1 {}, .run 1 {},
   .run 0 {}, .run 0 {}, .run 0 {}, .run 0 {}, .run 4 { sources := someSources "org/new" },
   .run 4 {}, .run 4 {}, .run 3 {}, .run 3 {}, .run 3 {}, .run 0 {}, .run 0 {}, .run 0 {}]

theorem access_coherent_stale : ∃ world, AccessCoherent world ∧
    (world.state.cache.rows.map fun entry => (entry.accountID, entry.access)) =
      [(1, [⟨7, ["org/new"]⟩])] ∧
    (world.threads.map fun thread => thread.rest.ended) = [true, true, true, true, true] := by
  have ran : (accessMachine.runChecked (fun _ _ => true) staleMoves noAccess).any (fun world =>
      decide ((world.state.cache.rows.map fun entry => (entry.accountID, entry.access)) =
        [(1, [⟨7, ["org/new"]⟩])] ∧
        (world.threads.map fun thread => thread.rest.ended) = [true, true, true, true, true])) =
      true := by decide +kernel
  obtain ⟨world, reaches, found⟩ := Machine.reaches_any ran
  exact ⟨world, access_coherent (reaches.weaken fun _ _ _ => trivial), of_decide_eq_true found⟩

end Coherence

end Runnerd
