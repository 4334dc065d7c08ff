import Runnerd.Ownership

/-!
`MaxConcurrentRunners` and the `MaxConcurrency` of each spec bound the rows that
are creating or running. Only the creating write of `startRunner` makes a row
active, and only under `admissionMu`; what it counted under the mutex still
bounds the table when it writes, because nothing else adds to the count.
-/

namespace Runnerd

open GoText Interaction Interleaving Versioned

/-- The creating and running rows among those whose `profile_name` is counted. -/
def activeRows (table : RequestTable) (counted : String → Bool) : Nat :=
  table.rows.countP fun row => counted row.profileName && occupied row.status

def activeCount (table : RequestTable) : Nat := activeRows table fun _ => true

def activeCountForProfile (table : RequestTable) (name : String) : Nat :=
  activeRows table fun carried => carried == name

structure WithinLimits (server : Server) (table : RequestTable) : Prop where
  total : activeCount table ≤ server.cfg.maxConcurrentRunners
  profiles : ∀ profile ∈ server.catalog.profiles, 0 < profile.maxConcurrency →
    (activeCountForProfile table profile.name : Int) ≤ profile.maxConcurrency

section Rows
variable {server : Server} {world : RunnerWorld} {tid : Nat} {choice : Choice}
  {thread : RunnerThread} {op : Op} {resp : op.Resp} {state : ServerState}

/-- Only the creating write makes a request active. -/
theorem custody_occupied {released : String → Prop} {writer : Writer} {c d : Custody}
    (step : Custody.Step released writer c d) (other : writer ≠ .startCreating)
    (active : occupied d.status = true) : occupied c.status = true := by
  cases step with
  | kept passive => exact active
  | admitted unstopped => exact absurd rfl other
  | placed creating sandbox => simp [occupied, creating]
  | stayed occupied => exact occupied
  | reattached occupied sandbox => exact occupied
  | dropped drops _ waits => rcases waits with rfl | rfl <;> cases active
  | ended ends stopping free finished settled => rcases finished with rfl | rfl | rfl <;> cases active
  | unplaced unplaced => cases active
  | interrupted creating => cases active
  | marked uncompleted => cases active
  | forced unfinished settled => cases active
  | rescheduled stopping => cases active
  | abandoned abandons stopping => cases active
  | requeued finished => cases active
  | exitRescheduled occupied settled => cases active
  | exitCompleted occupied free => cases active
  | exitFailed occupied settled => cases active
  | reconciled failed settled => cases active

/-- A changed row carries the same profile, and is active only if it was or if
this is the creating write. -/
theorem Change.active {past : List Answered} {now : Time} {row next : RunnerRequestRecord}
    (change : Change server past now ⟨op, resp⟩ row next) :
    next.profileName = row.profileName ∧
      (occupied next.status = true → occupied row.status = true ∨
        ∃ st, op = .writeState .startCreating st ∧ row.id = sanitizeID st.id) := by
  cases change with
  | @written writer st base row matched knows edit same =>
      obtain ⟨request, step⟩ := edit_custody edit
      have profile : row.profileName = base.profileName := congrArg Core.profileName same
      have status : row.status = base.status := congrArg Core.status same
      constructor
      · rw [profile]
        exact request.profile
      · intro active
        by_cases creating : writer = .startCreating
        · subst creating
          simp only [versionMatches, Bool.and_eq_true, beq_iff_eq] at matched
          exact .inr ⟨st, rfl, matched.1⟩
        · rw [status]
          exact .inl (custody_occupied step creating active)
  | claimed free => exact ⟨rfl, .inl⟩
  | released matched => exact ⟨rfl, .inl⟩
  | retried allowed named => exact ⟨rfl, nofun⟩

/-- A request keeps its profile for as long as it exists. -/
theorem Turn.keepsProfile (turn : Turn server world tid choice thread op resp state)
    {row : RunnerRequestRecord} (member : row ∈ world.state.table.rows) :
    ∃ next ∈ state.table.rows, next.id = row.id ∧ next.profileName = row.profileName := by
  rcases turn.rows with ⟨edit, rows, changes⟩ | ⟨added, _, rows⟩
  · rw [rows]
    refine ⟨edit row, List.mem_map_of_mem member, ?_⟩
    rcases changes row member with kept | change
    · rw [kept]
      exact ⟨rfl, rfl⟩
    · exact ⟨change.sameID, change.active.1⟩
  · rw [rows]
    exact ⟨row, List.mem_append_left _ member, rfl, rfl⟩

/-- A call that is no creating write adds no active row. -/
theorem Turn.active_le (turn : Turn server world tid choice thread op resp state)
    (counted : String → Bool) (other : ∀ st, op ≠ .writeState .startCreating st) :
    activeRows state.table counted ≤ activeRows world.state.table counted := by
  unfold activeRows
  rcases turn.rows with ⟨edit, rows, changes⟩ | ⟨added, news, rows⟩
  · rw [rows]
    apply countP_edit_le
    intro row member active
    rcases changes row member with kept | change
    · rwa [kept] at active
    · obtain ⟨profile, origin⟩ := change.active
      rw [Bool.and_eq_true] at active ⊢
      rw [← profile]
      refine ⟨active.1, (origin active.2).resolve_right ?_⟩
      rintro ⟨st, creating, _⟩
      exact other st creating
  · rw [rows, List.countP_append]
    cases news with
    | created =>
        -- an admitted request is queued or failed
        rcases turn.permits with ⟨rfl, _⟩ | ⟨rfl, _⟩
        · simp [admittedRecord, occupied]
        · simp [admittedRecord, occupied]

/-- A creating write adds one row at most, and none to a profile its row does
not carry. -/
theorem Turn.active_creating {st : RunnerState} {answer : Except GoError Unit}
    (turn : Turn server world tid choice thread (.writeState .startCreating st) answer state)
    (counted : String → Bool) :
    activeRows state.table counted ≤ activeRows world.state.table counted + 1 ∧
      ((∀ row ∈ world.state.table.rows, row.id = sanitizeID st.id → counted row.profileName = false) →
        activeRows state.table counted ≤ activeRows world.state.table counted) := by
  unfold activeRows
  rcases turn.rows with ⟨edit, rows, changes⟩ | ⟨added, news, rows⟩
  · rw [rows]
    have falls : ∀ row ∈ world.state.table.rows,
        (counted (edit row).profileName && occupied (edit row).status) = true →
        (counted row.profileName && occupied row.status) = true ∨
          (row.id = sanitizeID st.id ∧ counted row.profileName = true) := by
      intro row member active
      rcases changes row member with kept | change
      · rw [kept] at active
        exact .inl active
      · obtain ⟨profile, origin⟩ := change.active
        rw [Bool.and_eq_true, profile] at active
        rw [Bool.and_eq_true]
        refine (origin active.2).imp (fun before => ⟨active.1, before⟩) ?_
        rintro ⟨written, same, key⟩
        cases same
        exact ⟨key, active.1⟩
    constructor
    · apply countP_edit_one world.state.table.primaryKey (sanitizeID st.id)
      intro row member active
      exact (falls row member active).imp_right And.left
    · intro apart
      apply countP_edit_le
      intro row member active
      refine (falls row member active).resolve_right ?_
      rintro ⟨key, carried⟩
      rw [apart row member key] at carried
      cases carried
  · cases news

end Rows

section Mutex
variable {server : Server} {tid : Nat} {choice : Choice} {state after : ServerState}
  {op : Op} {resp : op.Resp}

/-- What a call can do to `admissionMu`. -/
theorem admission_answered (answered : respond server tid choice state op = some (resp, after)) :
    (op = .lockAdmission ∧ state.admission = none ∧ after.admission = some tid) ∨
      op = .unlockAdmission ∨
      (op ≠ .lockAdmission ∧ op ≠ .unlockAdmission ∧ after.admission = state.admission) := by
  have viaStore {α : Type} {answer : Except GoError α}
      {operation : RequestTable → Except GoError α × RequestTable}
      (answered : stored choice state operation = some (answer, after)) :
      after.admission = state.admission := by
    rcases stored_cases answered with ⟨err, _, rfl⟩ | ⟨table, _, rfl⟩ <;> rfl
  cases op with
  | lockAdmission =>
      simp only [respond] at answered
      split at answered
      · cases answered
      · rename_i free
        cases answered
        exact .inl ⟨rfl, free, rfl⟩
  | unlockAdmission => exact .inr (.inl rfl)
  | lockRunner id =>
      simp only [respond] at answered
      split at answered
      · cases answered
      · cases answered
        exact .inr (.inr ⟨by simp, by simp, rfl⟩)
  | acquireSlot =>
      simp only [respond] at answered
      split at answered <;> cases answered <;> exact .inr (.inr ⟨by simp, by simp, rfl⟩)
  | awaitExit =>
      simp only [respond] at answered
      split at answered
      · cases answered
        exact .inr (.inr ⟨by simp, by simp, rfl⟩)
      · cases answered
  | exitWatchAccepted owner =>
      simp only [respond, Option.map_eq_some_iff] at answered
      obtain ⟨accepted, -, same⟩ := answered
      cases same
      exact .inr (.inr ⟨by simp, by simp, rfl⟩)
  | readState _ | readRequest _ | writeState _ _ | claimNextRunnable _ _ _ | releaseLease _ _
  | retryRequest _ _ | createRequest _ _ _ _ _ _ | inFlightCount | inFlightCountForProfile _
  | getProfile _ | matchProfile _ _ | listActiveStates | listMismatchedCompletedStates _
  | listFailedWorkflowJobStates _ =>
      simp only [respond, loaded] at answered
      exact .inr (.inr ⟨by simp, by simp, viaStore answered⟩)
  | _ =>
      cases answered
      exact .inr (.inr ⟨by simp, by simp, rfl⟩)

theorem holdsAdmission_other (past : List Answered) (noLock : op ≠ .lockAdmission)
    (noUnlock : op ≠ .unlockAdmission) :
    holdsAdmission (⟨op, resp⟩ :: past) = holdsAdmission past := by
  cases op with
  | lockAdmission => exact absurd rfl noLock
  | unlockAdmission => exact absurd rfl noUnlock
  | _ => rfl

/-- The calls since the goroutine last locked `admissionMu` or wrote a row. -/
def tenure : List Answered → List Answered
  | [] => []
  | ⟨.lockAdmission, _⟩ :: _ => []
  | ⟨.writeState _ _, _⟩ :: _ => []
  | call :: past => call :: tenure past

theorem tenure_cons (call : Answered) (past : List Answered) :
    tenure (call :: past) = [] ∨ tenure (call :: past) = call :: tenure past := by
  rcases call with ⟨op, resp⟩
  cases op <;> first | exact .inl rfl | exact .inr rfl

/-- The profiles an in-flight count is about, and the count. -/
def countOf : Answered → Option ((String → Bool) × Nat)
  | ⟨.inFlightCount, .ok count⟩ => some (fun _ => true, count)
  | ⟨.inFlightCountForProfile name, .ok count⟩ =>
      some (fun carried => carried == trimSpace name, count)
  | _ => none

theorem active_inFlight {row : RunnerRequestRecord} (active : occupied row.status = true) :
    inFlight row = true := by
  simp only [occupied, Bool.or_eq_true, beq_iff_eq] at active
  rcases active with creating | running
  · simp [inFlight, creating]
  · simp [inFlight, running]

/-- The active rows are among those in flight. -/
theorem countOf_answered (answered : respond server tid choice state op = some (resp, after))
    {counted : String → Bool} {count : Nat} (counts : countOf ⟨op, resp⟩ = some (counted, count)) :
    activeRows after.table counted ≤ count := by
  unfold countOf at counts
  split at counts
  · rename_i call total same
    cases same
    cases counts
    simp only [respond] at answered
    obtain ⟨rfl, ⟨err, failed⟩ | read⟩ := loaded_cases answered
    · cases failed
    · cases read
      apply List.countP_mono_left
      intro row _ active
      exact active_inFlight (by simpa using active)
  · rename_i call name total same
    cases same
    cases counts
    simp only [respond] at answered
    obtain ⟨rfl, ⟨err, failed⟩ | read⟩ := loaded_cases answered
    · cases failed
    · cases read
      apply List.countP_mono_left
      intro row _ active
      rw [Bool.and_eq_true] at active ⊢
      exact ⟨active.1, active_inFlight active.2⟩
  · cases counts

end Mutex

section Worlds
variable {server : Server} {world : RunnerWorld} {tid : Nat} {choice : Choice}
  {thread : RunnerThread} {op : Op} {resp : op.Resp} {rest : Action Unit} {state : ServerState}

/-- What a goroutine may rely on: it holds `admissionMu` if it locked it, and
under the mutex its counts still bound the active rows. -/
structure Counted (server : Server) (state : ServerState) (tid : Nat) (past : List Answered) :
    Prop where
  holder : holdsAdmission past = true → state.admission = some tid
  bounds : holdsAdmission past = true → ∀ call ∈ tenure past, ∀ counted count,
    countOf call = some (counted, count) → activeRows state.table counted ≤ count
  catalog : ∀ name profile, (⟨.getProfile name, .ok profile⟩ : Answered) ∈ past →
    getProfile server.catalog name = .ok profile
  request : ∀ id req, (⟨.readRequest id, .ok req⟩ : Answered) ∈ past →
    ∃ row ∈ state.table.rows, row.id = sanitizeID id ∧ row.profileName = req.profileName

theorem Turn.keepsRequest (turn : Turn server world tid choice thread op resp state)
    {id name : String}
    (known : ∃ row ∈ world.state.table.rows, row.id = id ∧ row.profileName = name) :
    ∃ row ∈ state.table.rows, row.id = id ∧ row.profileName = name := by
  obtain ⟨row, member, rfl, rfl⟩ := known
  exact turn.keepsProfile member

/-- The actor's own call. -/
theorem counted_own (turn : Turn server world tid choice thread op resp state)
    (before : Counted server world.state tid thread.past) :
    Counted server state tid (⟨op, resp⟩ :: thread.past) := by
  have effect := admission_answered turn.answer
  constructor
  · intro holds
    rcases effect with ⟨_, _, locked⟩ | rfl | ⟨noLock, noUnlock, same⟩
    · exact locked
    · cases holds
    · rw [holdsAdmission_other _ noLock noUnlock] at holds
      exact same.trans (before.holder holds)
  · intro holds call member counted count counts
    rcases tenure_cons ⟨op, resp⟩ thread.past with ended | continued
    · rw [ended] at member
      cases member
    · rw [continued] at member
      rcases List.mem_cons.mp member with rfl | older
      · exact countOf_answered turn.answer counts
      · -- an older count: the call is no lock and no write, so it adds nothing
        have noLock : op ≠ .lockAdmission := by
          rintro rfl
          cases continued
        have noUnlock : op ≠ .unlockAdmission := by
          rintro rfl
          cases holds
        have noWrite : ∀ st, op ≠ .writeState .startCreating st := by
          rintro st rfl
          cases continued
        rw [holdsAdmission_other _ noLock noUnlock] at holds
        exact Nat.le_trans (turn.active_le counted noWrite)
          (before.bounds holds call older counted count counts)
  · intro name profile member
    rcases List.mem_cons.mp member with last | older
    · cases last
      have answered := turn.answer
      simp only [respond] at answered
      obtain ⟨_, ⟨err, failed⟩ | read⟩ := loaded_cases answered
      · cases failed
      · exact read.symm
    · exact before.catalog name profile older
  · intro id req member
    rcases List.mem_cons.mp member with last | older
    · cases last
      obtain ⟨rfl, row, here, rfl, same⟩ := readRequest_answered turn.answer
      exact ⟨row, here, same, rfl⟩
    · exact turn.keepsRequest (before.request id req older)

/-- What `startRunner` has done when its creating write changes a row. -/
theorem Turn.admitted {st : RunnerState} {answer : Except GoError Unit}
    (turn : Turn server world tid choice thread (.writeState .startCreating st) answer state) :
    state.table.rows = world.state.table.rows ∨
      ∃ base, Admission server thread.past base ∧ st.id = base.id := by
  rcases turn.rows with ⟨edit, rows, changes⟩ | ⟨added, news, _⟩
  · by_cases same : ∀ row ∈ world.state.table.rows, edit row = row
    · left
      rw [rows]
      exact (List.map_congr_left same).trans (List.map_id _)
    · right
      simp only [not_forall] at same
      obtain ⟨row, member, different⟩ := same
      have change := (changes row member).resolve_left different
      generalize edit row = next at change
      cases change with
      | written matched knows edited same =>
          cases edited with
          | startCreating admission expires => exact ⟨_, admission, rfl⟩
  · cases news

theorem admission_holds {past : List Answered} {base : RunnerState}
    (admission : Admission server past base) : holdsAdmission past = true := by
  cases admission <;> rfl

/-- Another goroutine's call. -/
theorem counted_other {other : Nat} {past : List Answered}
    (turn : Turn server world tid choice thread op resp state) (different : other ≠ tid)
    (actor : Counted server world.state tid thread.past)
    (before : Counted server world.state other past) : Counted server state other past := by
  have excluded (mine : holdsAdmission past = true)
      (theirs : holdsAdmission thread.past = true) : False := by
    have same := (before.holder mine).symm.trans (actor.holder theirs)
    exact different (Option.some.inj same)
  constructor
  · intro holds
    rcases admission_answered turn.answer with ⟨_, free, _⟩ | rfl | ⟨_, _, same⟩
    · rw [before.holder holds] at free
      cases free
    · exact (excluded holds turn.permits).elim
    · exact same.trans (before.holder holds)
  · intro holds call member counted count counts
    have bound := before.bounds holds call member counted count counts
    by_cases creating : ∃ st, op = .writeState .startCreating st
    · obtain ⟨st, rfl⟩ := creating
      rcases turn.admitted with same | ⟨base, admission, _⟩
      · rw [activeRows, same]
        exact bound
      · exact (excluded holds (admission_holds admission)).elim
    · simp only [not_exists] at creating
      exact Nat.le_trans (turn.active_le counted creating) bound
  · exact before.catalog
  · intro id req member
    exact turn.keepsRequest (before.request id req member)

theorem counted_reachable {condition : RunnerWorld → RunnerMove → Prop} {table : RequestTable}
    (reaches : (machine server).Reaches condition (opened table) world) :
    Machine.Informed (fun state _ tid _ past => Counted server state tid past) world := by
  induction reaches with
  | refl =>
      intro tid thread live
      cases live
  | step move before _ stepped ih =>
      have coherent := coherent_reachable before
      refine Machine.informed_step ih stepped ?_ ?_ ?_
      · intro state trace tid task
        constructor
        · intro holds
          cases holds
        · intro holds
          cases holds
        · intro name profile member
          cases member
        · intro id req member
          cases member
      · intro tid choice thread op resp rest state acts _ counted
        exact counted_own (turn_of_acts coherent acts) counted
      · intro tid choice thread op resp rest state other found acts _ different _ _ counted
        exact counted_other (turn_of_acts coherent acts) different (ih.actor acts) counted

theorem getProfile_found {name : String} {profile : RunnerProfile}
    (found : getProfile server.catalog name = .ok profile) :
    profile ∈ server.catalog.profiles ∧ profile.name = trimSpace name := by
  unfold getProfile at found
  split at found
  · rename_i candidate first
    cases found
    exact ⟨List.mem_of_find?_eq_some first, by simpa using List.find?_some first⟩
  · cases found

/-- The profile that `startRunner` loaded for a row is the one the row carries. -/
theorem loaded_profile {name : String} {profile loaded : RunnerProfile}
    (found : getProfile server.catalog name = .ok loaded)
    (listed : profile ∈ server.catalog.profiles) (carried : name = profile.name) :
    loaded = profile := by
  obtain ⟨member, same⟩ := getProfile_found found
  apply unique_row server.catalog.distinct member listed
  rw [same, carried]
  exact (server.catalog.named profile listed).1

/-- A creating write leaves the table within its limits. -/
theorem Turn.creatingWithin {st : RunnerState} {answer : Except GoError Unit}
    (turn : Turn server world tid choice thread (.writeState .startCreating st) answer state)
    (counted : Counted server world.state tid thread.past)
    (within : WithinLimits server world.state.table) : WithinLimits server state.table := by
  rcases turn.admitted with same | ⟨base, admission, sameID⟩
  · constructor
    · rw [activeCount, activeRows, same]
      exact within.total
    · intro profile listed capped
      rw [activeCountForProfile, activeRows, same]
      exact within.profiles profile listed capped
  have holds := admission_holds admission
  -- what both ways to the write have in common
  obtain ⟨id, req, profile, count, reads, requests, loads, counts, room, gate⟩ :
      ∃ id req profile count, (⟨.readState id, .ok base⟩ : Answered) ∈ thread.past ∧
        (⟨.readRequest id, .ok req⟩ : Answered) ∈ thread.past ∧
        (⟨.getProfile req.profileName, .ok profile⟩ : Answered) ∈ thread.past ∧
        (⟨.inFlightCount, .ok count⟩ : Answered) ∈ tenure thread.past ∧
        count < server.cfg.maxConcurrentRunners ∧
        (req.profileName = "" ∨ profile.maxConcurrency ≤ 0 ∨ ∃ held,
          (⟨.inFlightCountForProfile profile.name, .ok held⟩ : Answered) ∈ tenure thread.past ∧
            (held : Int) < profile.maxConcurrency) := by
    generalize thread.past = past at admission
    cases admission with
    | @uncapped id req base profile count now unstopped room free =>
        refine ⟨id, req, profile, count, ?_, ?_, ?_, ?_, room, free.imp_right .inl⟩ <;>
          simp [admissionPrelude, tenure]
    | @capped id req base profile count held now unstopped room profileRoom =>
        refine ⟨id, req, profile, count, ?_, ?_, ?_, ?_, room,
          .inr (.inr ⟨held, ?_, profileRoom⟩)⟩ <;> simp [admissionPrelude, tenure]
  have total := counted.bounds holds _ counts (fun _ => true) count rfl
  have baseID : base.id = sanitizeID id := by
    obtain ⟨event, recorded, call⟩ := turn.recorded reads
    have honest := turn.coherent.honest event recorded
    rw [call] at honest
    exact honest
  constructor
  · have grown := (turn.active_creating fun _ => true).1
    unfold activeCount
    omega
  · intro spec listed capped
    have grown := turn.active_creating fun carried => carried == spec.name
    by_cases carries : req.profileName = spec.name
    · have found := counted.catalog req.profileName profile loads
      have same := loaded_profile found listed carries
      subst same
      have named : req.profileName ≠ "" := by
        rw [carries]
        exact (server.catalog.named profile listed).2
      obtain ⟨held, member, below⟩ := (gate.resolve_left named).resolve_left (by omega)
      have bound := counted.bounds holds _ member _ held rfl
      rw [(server.catalog.named profile listed).1] at bound
      unfold activeCountForProfile
      omega
    · -- the row carries another profile
      have apart : ∀ row ∈ world.state.table.rows, row.id = sanitizeID st.id →
          (row.profileName == spec.name) = false := by
        intro row member key
        obtain ⟨known, present, knownID, carried⟩ := counted.request id req requests
        have same : row = known := by
          apply world.state.table.same_row member present
          rw [key, sameID, baseID, sanitizeID_idem, knownID]
        rw [same, carried]
        simpa using carries
      have kept := grown.2 apart
      have before := within.profiles spec listed capped
      unfold activeCountForProfile at before ⊢
      omega

/-- In every reachable world the creating and running rows are within the limits
of the server and of each spec. -/
theorem limits_reachable {table : RequestTable} (fits : WithinLimits server table)
    (reaches : (machine server).Reaches (fun _ _ => True) (opened table) world) :
    WithinLimits server world.state.table := by
  induction reaches with
  | refl => exact fits
  | step move before _ stepped ih =>
      obtain ⟨tid, choice, thread, op, resp, rest, state, rfl, acts, rfl⟩ | ⟨task, rfl, _, rfl⟩ |
        ⟨rfl, rfl⟩ := (machine server).step_cases stepped
      · have turn := turn_of_acts (coherent_reachable before) acts
        change WithinLimits server state.table
        by_cases creating : ∃ st, op = .writeState .startCreating st
        · obtain ⟨st, rfl⟩ := creating
          exact turn.creatingWithin ((counted_reachable before).actor acts) ih
        · simp only [not_exists] at creating
          constructor
          · exact Nat.le_trans (turn.active_le _ creating) ih.total
          · intro profile listed capped
            have falls := turn.active_le (fun carried => carried == profile.name) creating
            have bound := ih.profiles profile listed capped
            unfold activeCountForProfile at bound ⊢
            omega
      · exact ih
      · exact ih

end Worlds

section Samples

/-- One runner at a time for the spec, two for the server. -/
def cappedServer : Server :=
  { sampleServer with
    catalog :=
      { profiles := [{ name := "linux", labels := ["linux"], maxConcurrency := 1 }]
        named := by decide
        distinct := by decide } }

/-- A run that fills the spec. -/
theorem limits_reachable_full :
    ∃ world, (machine cappedServer).Reaches (fun _ _ => True) (opened .empty) world ∧
      activeCountForProfile world.state.table "linux" = 1 ∧
      WithinLimits cappedServer world.state.table := by
  have ran : ((machine cappedServer).runChecked (fun _ _ => true)
      (jobEvent .queued (sampleJob 1) :: turns 0 (plain 5) ++
        .start (.processQueuedRequests 1) :: turns 1 (plain 4) ++ turns 2 (plain 9))
      (opened .empty)).any (fun world =>
        decide (activeCountForProfile world.state.table "linux" = 1)) = true := by decide +kernel
  obtain ⟨world, reaches, full⟩ := Machine.reaches_any ran
  have fits : WithinLimits cappedServer .empty := by
    constructor
    · decide
    · intro profile _ capped
      exact Int.le_of_lt capped
  have free := reaches.weaken fun _ _ _ => True.intro
  exact ⟨world, free, by simpa using full, limits_reachable fits free⟩

end Samples

end Runnerd
