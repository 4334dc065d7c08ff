import Runnerd.Ownership
import Runnerd.RoleConduct

/-!
Mutual exclusion on one request. `lockRunner` hashes the id as its caller
spells it; the store maps several spellings to one row. Two sections on one row
therefore take the same mutex as far as each spelling that comes from outside
falls on the stripe of the id it is stored under.
-/

namespace Runnerd

open GoText Interaction Interleaving

section Sections

/-- The row that a call reads or writes. -/
def rowOf : Op → Option String
  | .readState id | .readRequest id | .releaseLease id _ => some (sanitizeID id)
  | .writeState _ st => some (sanitizeID st.id)
  | _ => none

/-- The id of the runner mutex that a goroutine holds. -/
def lockHeld : List Answered → Option String
  | [] => none
  | call :: past => heldLock (lockHeld past) call.op

/-- The rows that a goroutine has touched in its sections, each with the id that
it entered the section with. -/
def touches : List Answered → List (String × String)
  | [] => []
  | call :: past =>
      match lockHeld past, rowOf call.op with
      | some lock, some row => (lock, row) :: touches past
      | _, _ => touches past

theorem touches_call {past : List Answered} {lock row : String}
    (member : (lock, row) ∈ touches past) :
    ∃ call earlier, call :: earlier <:+ past ∧ rowOf call.op = some row ∧
      lockHeld earlier = some lock := by
  induction past with
  | nil => cases member
  | cons call past ih =>
      have older (found : (lock, row) ∈ touches past) :
          ∃ other earlier, other :: earlier <:+ call :: past ∧ rowOf other.op = some row ∧
            lockHeld earlier = some lock := by
        obtain ⟨other, earlier, suffix, touched, held⟩ := ih found
        exact ⟨other, earlier, suffix.trans (List.suffix_cons _ _), touched, held⟩
      simp only [touches] at member
      split at member
      · rename_i held touched
        rcases List.mem_cons.mp member with last | earlier
        · cases last
          exact ⟨call, past, List.suffix_rfl, touched, held⟩
        · exact older earlier
      · exact older member

theorem ghost_lockHeld (role : Role) (past : List Answered) :
    role.protocol.ghost none past = lockHeld past := by
  induction past with
  | nil => rfl
  | cons call past ih =>
      change heldLock (role.protocol.ghost none past) call.op = _
      rw [ih]
      rfl

/-- What a role permits inside a section is about the section's own row. -/
theorem permits_own {role : Role} {op : Op} {lock row : String}
    (permitted : role.permits (some lock) op) (touched : rowOf op = some row) :
    role.names lock ∧ row = sanitizeID lock := by
  have own {id : String} (enters : role.enters (some lock) id) (same : sanitizeID id = row) :
      role.names lock ∧ row = sanitizeID lock := by
    obtain ⟨named, stored⟩ := enters lock rfl
    exact ⟨named, same.symm.trans stored.symm⟩
  cases op with
  | readState id => exact own permitted (Option.some.inj touched)
  | readRequest id => exact own permitted (Option.some.inj touched)
  | releaseLease id workerID => exact own permitted (Option.some.inj touched)
  | writeState writer st => exact own permitted.1 (Option.some.inj touched)
  | _ => cases touched

end Sections

section Worlds
variable {server : Server} {world : RunnerWorld}

/-- The spelling falls on the stripe of the stored id. -/
def alike (id : String) : Bool := lockStripe id == lockStripe (sanitizeID id)

/-- Whoever calls from outside spells ids on their own stripes. -/
def spelledAlike : RunnerMove → Bool
  | .start task => task.spelled.all alike
  | _ => true

theorem names_alike {task : Task} (fits : task.fits fun id => alike id = true) {lock : String}
    (named : task.role.names lock) : lockStripe lock = lockStripe (sanitizeID lock) := by
  have plain (spelled : List String) (each : ∀ id ∈ spelled, alike id = true)
      (known : (bystanderRole spelled).names lock) :
      lockStripe lock = lockStripe (sanitizeID lock) := by
    rcases known with stored | given
    · rw [stored]
    · exact beq_iff_eq.mp (each lock given)
  have none_spelled : ∀ id ∈ ([] : List String), alike id = true := nofun
  cases task with
  | startRunner claimed =>
      have same : lock = sanitizeID claimed.id := named
      rw [same, sanitizeID_idem]
  | exitWatch id sandboxID owner => exact plain [] none_spelled named
  | recoveredExitWatch id sandboxID owner => exact plain [] none_spelled named
  | _ => exact plain _ fits named

/-- Every section takes the mutex of the row it touches. -/
theorem touched_stripe {table : RequestTable}
    (reaches : (machine server).Reaches (fun _ move => spelledAlike move = true) (opened table)
      world) {tid : Nat} {thread : RunnerThread} (live : world.threads[tid]? = some thread)
    {lock row : String} (touched : (lock, row) ∈ touches thread.past) :
    lockStripe lock = lockStripe row := by
  have ruled : Machine.Ruled (fun task => task.role.protocol) none
      (Task.fits fun id => alike id = true) world := by
    refine roles_reachable server ?_ reaches
    intro world task meets
    exact List.all_eq_true.mp meets
  obtain ⟨call, earlier, suffix, own, held⟩ := touches_call touched
  have permitted := ruled.followed tid thread live call earlier suffix
  rw [ghost_lockHeld, held] at permitted
  obtain ⟨named, rfl⟩ := permits_own permitted own
  exact names_alike (ruled.fit tid thread live) named

/-- Any two sections that touch one row take the same mutex. -/
theorem sections_exclusive {table : RequestTable}
    (reaches : (machine server).Reaches (fun _ move => spelledAlike move = true) (opened table)
      world) {first second : Nat} {one other : RunnerThread}
    (here : world.threads[first]? = some one) (there : world.threads[second]? = some other)
    {lock another row : String} (touched : (lock, row) ∈ touches one.past)
    (also : (another, row) ∈ touches other.past) : lockStripe lock = lockStripe another :=
  (touched_stripe reaches here touched).trans (touched_stripe reaches there also).symm

/-- A request is made as `ci/main/1` and stored as `ci-main-1`, which falls on the same
stripe. Goroutine 2 has attempted it, and goroutine 3 is asked to delete `ci/main/1`. -/
def untilBoth : List RunnerMove :=
  .start (.createRunner
      { id := "ci/main/1", repositoryFullName := "owner/repo", profileName := "linux" } "") ::
    turns 0 (plain 5) ++ .start (.processQueuedRequests 1) :: turns 1 (plain 4) ++
    turns 2 (plain 10) ++ .start (.deleteRunner "ci/main/1") :: turns 3 (plain 2)

theorem sections_exclusive_spellings :
    ∃ world one other, (machine sampleServer).Reaches (fun _ move => spelledAlike move = true)
        (opened .empty) world ∧
      world.threads[2]? = some one ∧ world.threads[3]? = some other ∧
      ("ci-main-1", "ci-main-1") ∈ touches one.past ∧
      ("ci/main/1", "ci-main-1") ∈ touches other.past ∧
      lockStripe "ci-main-1" = lockStripe "ci/main/1" := by
  have ran : ((machine sampleServer).runChecked (fun _ move => spelledAlike move) untilBoth
      (opened .empty)).any (fun world => (world.threads[2]?).any fun one =>
        (world.threads[3]?).any fun other =>
          decide (("ci-main-1", "ci-main-1") ∈ touches one.past ∧
            ("ci/main/1", "ci-main-1") ∈ touches other.past)) = true := by
    decide +kernel
  obtain ⟨world, reaches, found⟩ := Machine.reaches_any ran
  simp only [Option.any_eq_true, decide_eq_true_eq] at found
  obtain ⟨one, here, other, there, touched, also⟩ := found
  exact ⟨world, one, other, reaches, here, there, touched, also,
    sections_exclusive reaches here there touched also⟩

/-- A request is made as `a/b` and stored as `a-b`. Its attempt, goroutine 2,
locks `a-b`, and goroutine 3 is asked to delete `a/b`. -/
def untilSpelled : List RunnerMove :=
  .start (.createRunner
      { id := "a/b", repositoryFullName := "owner/repo", profileName := "linux" } "") ::
    turns 0 (plain 5) ++ .start (.processQueuedRequests 1) :: turns 1 (plain 4) ++
    turns 2 (plain 3) ++ .start (.deleteRunner "a/b") :: turns 3 (plain 2)

/-- Both are inside a section on the row, under two mutexes. -/
theorem sections_overlap_spelled :
    ¬∀ (server : Server) (table : RequestTable) (world : RunnerWorld) (first second : Nat)
        (one other : RunnerThread) (lock another row : String),
      (machine server).Reaches (fun _ _ => True) (opened table) world →
      world.threads[first]? = some one → world.threads[second]? = some other →
      (lock, row) ∈ touches one.past → (another, row) ∈ touches other.past →
      lockStripe lock = lockStripe another := by
  intro always
  have ran : ((machine sampleServer).runChecked (fun _ _ => true) untilSpelled
      (opened .empty)).any (fun world => (world.threads[2]?).any fun one =>
        (world.threads[3]?).any fun other =>
          decide (("a-b", "a-b") ∈ touches one.past ∧ ("a/b", "a-b") ∈ touches other.past ∧
            lockStripe "a-b" ≠ lockStripe "a/b")) = true := by
    decide +kernel
  obtain ⟨world, reaches, found⟩ := Machine.reaches_any ran
  simp only [Option.any_eq_true, decide_eq_true_eq] at found
  obtain ⟨one, here, other, there, touched, also, apart⟩ := found
  exact apart (always sampleServer .empty world 2 3 one other _ _ _
    (reaches.weaken fun _ _ _ => True.intro) here there touched also)

end Worlds

end Runnerd
