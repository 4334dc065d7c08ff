import Mathlib
import Runnerd.SpecTable

/-!
The writes of `internal/state/catalog.go` on one spec, and the transactions that
the admin handlers put around them. The first statement of such a transaction
locks the row it writes until the commit, so the transaction is one step: the
surroundings say what the clock shows, and which statements the database fails.

`updated_at` is the version of a row. `precision` says what the column keeps of
an instant.
-/

namespace Runnerd

open GoText

def millisecond : Time := 1000000

/-- A timestamp column that keeps multiples of a unit no longer than a
millisecond, and rounds other instants up or down. -/
structure ColumnPrecision where
  unit : Time
  fine : unit ∣ millisecond
  keep : Time → Time
  kept : ∀ instant, unit ∣ keep instant
  exact : ∀ instant, unit ∣ instant → keep instant = instant
  monotone : Monotone keep

structure SaveSurroundings where
  now : Time := 0
  eventTime : Time := 0
  opened : Option GoError := none
  write : Option GoError := none
  reread : Option GoError := none
  audit : Option GoError := none
  commit : Option GoError := none

/-- `ErrConflict`, `ErrAuditEventPersistence`, or any other error. -/
inductive MutationError where
  | conflict
  | audit (err : GoError)
  | failed (err : GoError)
  deriving DecidableEq, Repr

def failing (fault : Option GoError) : Except MutationError Unit :=
  (faulted fault).mapError .failed

section Model
variable (lower : String → String) (precision : ColumnPrecision)

/-- `ErrNotFound` is `none`. -/
def SpecTable.getProfile (specs : SpecTable) (name : String) : Except GoError (Option SpecProfile) :=
  match specs.find (trimSpace name) with
  | none => .ok none
  | some record => (recordToProfile record).map some

def SpecTable.deleteProfile (specs : SpecTable) (name : String) : SpecTable :=
  specs.erase fun record => decide (record.name = trimSpace name)

def savedAt (now : Time) (expectedUpdatedAt : Option Time) : Time :=
  match expectedUpdatedAt with
  | none => now
  | some expected => if now < expected + millisecond then expected + millisecond else now

/-- The record of `saveProfile`, as the columns keep it. -/
def profileRecord (now : Time) (profile : SpecProfile) : RunnerProfileRecord where
  name := trimSpace profile.name
  labelsJSON := .listed profile.labels
  requiredLabelsJSON := .listed profile.requiredLabels
  templateID := profile.templateID
  defaultTemplateName := profile.defaultTemplateName
  runnerGroup := profile.runnerGroup
  maxConcurrency := profile.maxConcurrency
  minIdle := profile.minIdle
  priority := profile.priority
  enabled := profile.enabled
  defaultAvailable := true
  managedBy := profile.managedBy
  catalogRevision := profile.catalogRevision
  createdAt := some (precision.keep (profile.createdAt.getD now))
  updatedAt := precision.keep now

/-- The columns that a save of an existing row writes. -/
def profileUpdates (saved : RunnerProfileRecord) : KeyedTable.Edit RunnerProfileRecord.name where
  apply record := { saved with
    name := record.name
    defaultAvailable := record.defaultAvailable
    createdAt := record.createdAt }
  keeps _ := rfl

def unchangedSince (name : String) (expected : Time) (record : RunnerProfileRecord) : Bool :=
  decide (record.name = name ∧ record.updatedAt = expected)

/-- The statement of a conditional save: an update of the version that was read,
or an insert. -/
def writeProfile (saved : RunnerProfileRecord) (expectedUpdatedAt : Option Time)
    (specs : SpecTable) : Option SpecTable :=
  match expectedUpdatedAt with
  | some expected =>
      if specs.affected (unchangedSince saved.name expected) = 0 then none
      else some (specs.update (unchangedSince saved.name expected) (profileUpdates saved))
  | none => specs.insert saved

/-- `UpsertProfileIfUnchanged`. -/
def upsertProfileIfUnchanged (surroundings : SaveSurroundings) (profile : SpecProfile)
    (expectedUpdatedAt : Option Time) (specs : SpecTable) :
    Except MutationError (SpecProfile × SpecTable) := do
  failing surroundings.opened
  (validateProfile lower profile.toRunnerProfile).mapError .failed
  let saved := profileRecord precision (savedAt surroundings.now expectedUpdatedAt) profile
  failing surroundings.write
  match writeProfile saved expectedUpdatedAt specs with
  | none => .error .conflict
  | some specs =>
      failing surroundings.reread
      match ← (SpecTable.getProfile specs saved.name).mapError .failed with
      | none => .error (.failed errNotFound)
      | some profile => return (profile, specs)

/-- `ApplyMutationWithAudit`: an error rolls everything back. -/
def applyMutationWithAudit {α : Type} (surroundings : SaveSurroundings)
    (event : AuditEvent SpecPayload)
    (mutation : SpecTable → Except MutationError (α × SpecTable)) (store : SpecStore) :
    Except MutationError (α × SpecStore) := do
  let (answer, specs) ← mutation store.specs
  (faulted surroundings.audit).mapError .audit
  failing surroundings.commit
  return (answer, { specs, audit := store.audit ++ [event] })

def specEvent (now : Time) (action resourceID : String) (payload : SpecPayload) :
    AuditEvent SpecPayload where
  actor := "admin_api"
  action
  resourceType := "runner_profile"
  resourceID := trimSpace resourceID
  payload
  createdAt := precision.keep now

def saveTransaction (surroundings : SaveSurroundings) (action : String) (profile : SpecProfile)
    (expectedUpdatedAt : Option Time) (store : SpecStore) :
    Except MutationError (SpecProfile × SpecStore) :=
  applyMutationWithAudit surroundings
    (specEvent precision surroundings.eventTime action profile.name (.profile profile))
    (upsertProfileIfUnchanged lower precision surroundings profile expectedUpdatedAt) store

def deleteTransaction (surroundings : SaveSurroundings) (name : String) (store : SpecStore) :
    Except MutationError (Unit × SpecStore) :=
  applyMutationWithAudit surroundings
    (specEvent precision surroundings.eventTime "profile.delete" name (.status "deleted"))
    (fun specs => do
      failing surroundings.write
      return ((), SpecTable.deleteProfile specs name)) store

end Model

section Facts
variable {lower : String → String} {precision : ColumnPrecision}

/-- Everything that a successful save does to the table. -/
inductive Saved (row : RunnerProfileRecord) (before : SpecTable) :
    Option Time → SpecTable → Prop where
  | inserted {after : SpecTable} (absent : before.find row.name = none)
      (rows : after.rows = before.rows ++ [row]) : Saved row before none after
  | replaced {old : RunnerProfileRecord} (found : before.find row.name = some old) :
      Saved row before (some old.updatedAt)
        (before.update (unchangedSince row.name old.updatedAt) (profileUpdates row))

theorem writeProfile_saved {row : RunnerProfileRecord} {expected : Option Time}
    {before after : SpecTable} (wrote : writeProfile row expected before = some after) :
    Saved row before expected after := by
  cases expected with
  | none =>
      obtain ⟨absent, rows⟩ := KeyedTable.insert_some wrote
      exact .inserted absent rows
  | some instant =>
      simp only [writeProfile] at wrote
      by_cases none : before.affected (unchangedSince row.name instant) = 0
      · rw [if_pos none] at wrote
        cases wrote
      · rw [if_neg none] at wrote
        cases Option.some.inj wrote
        obtain ⟨old, member, matched⟩ := List.countP_pos_iff.mp (Nat.pos_of_ne_zero none)
        obtain ⟨named, rfl⟩ := of_decide_eq_true matched
        exact .replaced (KeyedTable.find_some.mpr ⟨member, named⟩)

/-- A save leaves a row that can be read back. -/
theorem Saved.readable {row : RunnerProfileRecord} {expected : Option Time}
    {before after : SpecTable} (saved : Saved row before expected after) :
    ∃ last, after.find row.name = some last ∧ last.labelsJSON = row.labelsJSON ∧
      last.requiredLabelsJSON = row.requiredLabelsJSON := by
  cases saved with
  | inserted absent rows =>
      refine ⟨row, KeyedTable.find_some.mpr ⟨?_, rfl⟩, rfl, rfl⟩
      rw [rows]
      exact List.mem_append_right _ (List.mem_singleton_self _)
  | @replaced old found =>
      have matched : unchangedSince row.name old.updatedAt old = true := by
        simp [unchangedSince, (KeyedTable.find_some.mp found).2]
      refine ⟨(profileUpdates row).apply old, ?_, rfl, rfl⟩
      rw [KeyedTable.find_update, found, Option.map_some, if_pos matched]

/-- The row that a save reads back. -/
theorem Saved.getProfile {now : Time} {profile : SpecProfile} {expected : Option Time}
    {before after : SpecTable}
    (saved : Saved (profileRecord precision now profile) before expected after) :
    ∃ read, SpecTable.getProfile after (profileRecord precision now profile).name =
      .ok (some read) := by
  obtain ⟨last, found, labels, required⟩ := saved.readable
  have trimmed : trimSpace (profileRecord precision now profile).name =
      (profileRecord precision now profile).name := trimSpace_idem profile.name
  simp only [SpecTable.getProfile, trimmed, found, recordToProfile, labels, required]
  exact ⟨_, rfl⟩

/-- Why a save may fail. -/
inductive SaveFails (lower : String → String) (surroundings : SaveSurroundings)
    (profile : SpecProfile) : MutationError → Prop where
  | conflict : SaveFails lower surroundings profile .conflict
  | invalid {err : GoError} (rejected : validateProfile lower profile.toRunnerProfile = .error err) :
      SaveFails lower surroundings profile (.failed err)
  | storage {err : GoError} (fault : some err ∈ [surroundings.opened, surroundings.write,
      surroundings.reread, surroundings.commit]) : SaveFails lower surroundings profile (.failed err)
  | audit {err : GoError} (fault : surroundings.audit = some err) :
      SaveFails lower surroundings profile (.audit err)

variable {surroundings : SaveSurroundings} {profile : SpecProfile} {expected : Option Time}

theorem failing_error {fault : Option GoError} {err : MutationError}
    (failed : failing fault = .error err) : ∃ cause, fault = some cause ∧ err = .failed cause := by
  obtain ⟨cause, failed, same⟩ := error_mapError failed
  exact ⟨cause, faulted_error failed, same⟩

theorem upsertProfileIfUnchanged_ok {specs after : SpecTable} {answer : SpecProfile}
    (ran : upsertProfileIfUnchanged lower precision surroundings profile expected specs =
      .ok (answer, after)) :
    Saved (profileRecord precision (savedAt surroundings.now expected) profile) specs expected
      after := by
  obtain ⟨_, _, ran⟩ := ok_bind ran
  obtain ⟨_, _, ran⟩ := ok_bind ran
  obtain ⟨_, _, ran⟩ := ok_bind ran
  cases wrote : writeProfile (profileRecord precision (savedAt surroundings.now expected) profile)
      expected specs with
  | none =>
      simp only [wrote] at ran
      cases ran
  | some table =>
      simp only [wrote] at ran
      obtain ⟨_, _, ran⟩ := ok_bind ran
      obtain ⟨read, _, ran⟩ := ok_bind ran
      cases read with
      | none => cases ran
      | some profile =>
          cases Except.ok.inj ran
          exact writeProfile_saved wrote

theorem upsertProfileIfUnchanged_error {specs : SpecTable} {err : MutationError}
    (ran : upsertProfileIfUnchanged lower precision surroundings profile expected specs =
      .error err) : SaveFails lower surroundings profile err := by
  rcases error_bind ran with failed | ⟨_, _, ran⟩
  · obtain ⟨cause, fault, rfl⟩ := failing_error failed
    exact .storage (by simp [fault])
  rcases error_bind ran with failed | ⟨_, _, ran⟩
  · obtain ⟨cause, rejected, rfl⟩ := error_mapError failed
    exact .invalid rejected
  rcases error_bind ran with failed | ⟨_, _, ran⟩
  · obtain ⟨cause, fault, rfl⟩ := failing_error failed
    exact .storage (by simp [fault])
  cases wrote : writeProfile (profileRecord precision (savedAt surroundings.now expected) profile)
      expected specs with
  | none =>
      simp only [wrote] at ran
      cases Except.error.inj ran
      exact .conflict
  | some table =>
      simp only [wrote] at ran
      rcases error_bind ran with failed | ⟨_, _, ran⟩
      · obtain ⟨cause, fault, rfl⟩ := failing_error failed
        exact .storage (by simp [fault])
      · -- the row was just written, so it is there and can be decoded
        obtain ⟨read, found⟩ := (writeProfile_saved wrote).getProfile
        simp only [found] at ran
        cases ran

theorem saveTransaction_ok {action : String} {store after : SpecStore} {answer : SpecProfile}
    (ran : saveTransaction lower precision surroundings action profile expected store =
      .ok (answer, after)) :
    Saved (profileRecord precision (savedAt surroundings.now expected) profile) store.specs expected
      after.specs := by
  obtain ⟨⟨value, specs⟩, mutated, ran⟩ := ok_bind ran
  obtain ⟨_, _, ran⟩ := ok_bind ran
  obtain ⟨_, _, ran⟩ := ok_bind ran
  cases Except.ok.inj ran
  exact upsertProfileIfUnchanged_ok mutated

theorem saveTransaction_error {action : String} {store : SpecStore} {err : MutationError}
    (ran : saveTransaction lower precision surroundings action profile expected store =
      .error err) : SaveFails lower surroundings profile err := by
  rcases error_bind ran with failed | ⟨⟨value, specs⟩, _, ran⟩
  · exact upsertProfileIfUnchanged_error failed
  rcases error_bind ran with failed | ⟨_, _, ran⟩
  · obtain ⟨cause, fault, rfl⟩ := error_mapError failed
    exact .audit (faulted_error fault)
  rcases error_bind ran with failed | ⟨_, _, ran⟩
  · obtain ⟨cause, fault, rfl⟩ := failing_error failed
    exact .storage (by simp [fault])
  cases ran

theorem deleteTransaction_ok {name : String} {store after : SpecStore} {answer : Unit}
    (ran : deleteTransaction precision surroundings name store = .ok (answer, after)) :
    after.specs = SpecTable.deleteProfile store.specs name := by
  obtain ⟨⟨_, specs⟩, mutated, ran⟩ := ok_bind ran
  obtain ⟨_, _, ran⟩ := ok_bind ran
  obtain ⟨_, _, ran⟩ := ok_bind ran
  obtain ⟨_, _, mutated⟩ := ok_bind mutated
  cases Except.ok.inj ran
  cases Except.ok.inj mutated
  rfl

/-- The version that a save stores is above the one it was based on. -/
theorem savedAt_increases {now instant : Time} (kept : precision.unit ∣ instant) :
    instant < precision.keep (savedAt now (some instant)) := by
  have next : precision.unit ∣ instant + millisecond := (Int.dvd_add_right kept).mpr precision.fine
  have later : instant + millisecond ≤ savedAt now (some instant) := by
    simp only [savedAt]
    by_cases early : now < instant + millisecond
    · rw [if_pos early]
    · rw [if_neg early]
      exact not_lt.mp early
  calc instant < instant + millisecond := Int.lt_add_of_pos_right instant (by decide)
    _ = precision.keep (instant + millisecond) := (precision.exact _ next).symm
    _ ≤ precision.keep (savedAt now (some instant)) := precision.monotone later

end Facts

end Runnerd
