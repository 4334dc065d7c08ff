import Runnerd.SpecTable

/-!
`ReconcileManagedProfiles` of `internal/state/catalog.go`: one transaction that
goes through the specs of the built-in catalog. The surroundings give each
element a reading of the clock and say which of its statements the database
fails. `lower` is `strings.ToLower`, `keep` is what a timestamp column keeps of
an instant.
-/

namespace Runnerd

open GoText

structure ManagedProfileConflict where
  name : String
  existingManagedBy : String
  deriving DecidableEq, Repr

/-- What the open transaction has changed and collected so far. -/
structure Reconciliation extends SpecStore where
  conflicts : List ManagedProfileConflict

structure ElementSurroundings where
  now : Time := 0
  find : Option GoError := none
  create : Option GoError := none
  update : Option GoError := none
  reread : Option GoError := none
  audit : Option GoError := none

structure ReconcileSurroundings where
  opened : Option GoError := none
  element : Nat → ElementSurroundings := fun _ => {}
  commit : Option GoError := none

section Model
variable (lower : String → String) (keep : Time → Time)

def trimmedOwner (profile : SpecProfile) : SpecProfile :=
  { profile with name := trimSpace profile.name, managedBy := trimSpace profile.managedBy }

def ownerRequired (managedBy : String) : Except GoError Unit :=
  if managedBy = "" then .error { message := "managed profile owner is required" } else .ok ()

def checkManagedProfile (profile : SpecProfile) : Except GoError Unit := do
  nameRequired profile.name
  validateProfileName profile.name
  ownerRequired profile.managedBy
  requiredWithin lower profile.toRunnerProfile

def conflictWith (existing : RunnerProfileRecord) (profile : SpecProfile) :
    Option ManagedProfileConflict :=
  if existing.managedBy = "" ∨ existing.managedBy ≠ profile.managedBy then
    some ⟨profile.name, existing.managedBy⟩
  else none

def managedRecord (now : Time) (profile : SpecProfile) : RunnerProfileRecord where
  name := profile.name
  labelsJSON := .listed profile.labels
  requiredLabelsJSON := .listed profile.requiredLabels
  templateID := profile.templateID
  defaultTemplateName := profile.defaultTemplateName
  runnerGroup := profile.runnerGroup
  maxConcurrency := profile.maxConcurrency
  minIdle := profile.minIdle
  priority := profile.priority
  enabled := profile.enabled
  defaultAvailable := true
  managedBy := profile.managedBy
  catalogRevision := profile.catalogRevision
  createdAt := some (keep (profile.createdAt.getD now))
  updatedAt := keep now

/-- The columns that an upgrade writes. -/
def managedUpdates (now : Time) (profile : SpecProfile) :
    KeyedTable.Edit RunnerProfileRecord.name where
  apply record := { record with
    labelsJSON := .listed profile.labels
    requiredLabelsJSON := .listed profile.requiredLabels
    templateID := profile.templateID
    defaultTemplateName := profile.defaultTemplateName
    runnerGroup := profile.runnerGroup
    priority := profile.priority
    managedBy := profile.managedBy
    catalogRevision := profile.catalogRevision
    updatedAt := keep now }
  keeps _ := rfl

/-- The `WHERE` of an upgrade. -/
def upgradable (existing : RunnerProfileRecord) (profile : SpecProfile)
    (record : RunnerProfileRecord) : Bool :=
  decide (record.name = profile.name ∧ record.managedBy = existing.managedBy ∧
    record.catalogRevision < profile.catalogRevision)

def reconciliationEvent (now : Time) (profile : SpecProfile) : AuditEvent SpecPayload where
  actor := "runnerd_startup"
  action := "profile.reconcile"
  resourceType := "runner_profile"
  resourceID := profile.name
  payload := .reconciled profile.managedBy profile.catalogRevision
  createdAt := keep now

def appendManagedProfileReconciliationAudit (element : ElementSurroundings)
    (profile : SpecProfile) (tx : Reconciliation) : Except GoError Reconciliation := do
  faulted element.audit
  return { tx with audit := tx.audit ++ [reconciliationEvent keep element.now profile] }

def errDuplicatedKey : GoError := { message := "duplicated key not allowed" }

def createManagedProfile (element : ElementSurroundings) (profile : SpecProfile)
    (tx : Reconciliation) : Except GoError Reconciliation := do
  faulted element.create
  match tx.specs.insert (managedRecord keep element.now profile) with
  | none => .error errDuplicatedKey
  | some specs =>
      appendManagedProfileReconciliationAudit keep element profile { tx with specs }

def upgradeManagedProfile (element : ElementSurroundings) (profile : SpecProfile)
    (existing : RunnerProfileRecord) (tx : Reconciliation) : Except GoError Reconciliation := do
  faulted element.update
  if tx.specs.affected (upgradable existing profile) = 0 then
    faulted element.reread
    match tx.specs.find profile.name with
    | none => return tx
    | some current => return { tx with
        conflicts := tx.conflicts ++ (conflictWith current profile).toList }
  else
    let specs := tx.specs.update (upgradable existing profile)
      (managedUpdates keep element.now profile)
    appendManagedProfileReconciliationAudit keep element profile { tx with specs }

/-- The body of the loop. -/
def reconcileProfile (element : ElementSurroundings) (input : SpecProfile) (tx : Reconciliation) :
    Except GoError Reconciliation := do
  let profile := trimmedOwner input
  checkManagedProfile lower profile
  faulted element.find
  match tx.specs.find profile.name with
  | none => createManagedProfile keep element profile tx
  | some existing =>
      match conflictWith existing profile with
      | some conflict => return { tx with conflicts := tx.conflicts ++ [conflict] }
      | none =>
          if profile.catalogRevision ≤ existing.catalogRevision then return tx
          else upgradeManagedProfile keep element profile existing tx

def reconcileProfiles (element : Nat → ElementSurroundings) :
    List SpecProfile → Reconciliation → Except GoError Reconciliation
  | [], tx => .ok tx
  | input :: rest, tx => do
      let tx ← reconcileProfile lower keep (element 0) input tx
      reconcileProfiles (fun index => element (index + 1)) rest tx

def reconcileTransaction (surroundings : ReconcileSurroundings) (profiles : List SpecProfile)
    (store : SpecStore) : Except GoError Reconciliation := do
  faulted surroundings.opened
  let tx ← reconcileProfiles lower keep surroundings.element profiles { store with conflicts := [] }
  faulted surroundings.commit
  return tx

/-- An error of any statement, and of the commit, rolls the transaction back. -/
def reconcileManagedProfiles (surroundings : ReconcileSurroundings) (profiles : List SpecProfile)
    (store : SpecStore) : Except GoError (List ManagedProfileConflict) × SpecStore :=
  match reconcileTransaction lower keep surroundings profiles store with
  | .error err => (.error err, store)
  | .ok tx => (.ok tx.conflicts, tx.toSpecStore)

end Model

section Steps
variable {lower : String → String} {keep : Time → Time}

/-- Everything one element can do. -/
inductive Reconciled (keep : Time → Time) (now : Time) (profile : SpecProfile)
    (before : Reconciliation) : Reconciliation → Prop where
  | conflict {existing : RunnerProfileRecord}
      (found : before.specs.find profile.name = some existing)
      (other : existing.managedBy = "" ∨ existing.managedBy ≠ profile.managedBy) :
      Reconciled keep now profile before
        { before with conflicts := before.conflicts ++ [⟨profile.name, existing.managedBy⟩] }
  | current {existing : RunnerProfileRecord}
      (found : before.specs.find profile.name = some existing)
      (owned : existing.managedBy = profile.managedBy ∧ existing.managedBy ≠ "")
      (recent : profile.catalogRevision ≤ existing.catalogRevision) :
      Reconciled keep now profile before before
  | created {specs : SpecTable} (absent : before.specs.find profile.name = none)
      (inserted : before.specs.insert (managedRecord keep now profile) = some specs) :
      Reconciled keep now profile before
        { before with specs, audit := before.audit ++ [reconciliationEvent keep now profile] }
  | upgraded {existing : RunnerProfileRecord}
      (found : before.specs.find profile.name = some existing)
      (owned : existing.managedBy = profile.managedBy ∧ existing.managedBy ≠ "")
      (older : existing.catalogRevision < profile.catalogRevision) :
      Reconciled keep now profile before
        { before with
          specs := before.specs.update (upgradable existing profile) (managedUpdates keep now profile)
          audit := before.audit ++ [reconciliationEvent keep now profile] }

theorem checkManagedProfile_ok {profile : SpecProfile} {value : Unit}
    (passed : checkManagedProfile lower profile = .ok value) :
    profile.name ≠ "" ∧ profile.managedBy ≠ "" := by
  obtain ⟨_, named, passed⟩ := ok_bind passed
  obtain ⟨_, _, passed⟩ := ok_bind passed
  obtain ⟨_, owned, _⟩ := ok_bind passed
  refine ⟨nameRequired_ok named, fun empty => ?_⟩
  simp [ownerRequired, empty] at owned

theorem conflictWith_none {existing : RunnerProfileRecord} {profile : SpecProfile} :
    conflictWith existing profile = none ↔
      existing.managedBy = profile.managedBy ∧ existing.managedBy ≠ "" := by
  by_cases unowned : existing.managedBy = ""
  · simp [conflictWith, unowned]
  · by_cases same : existing.managedBy = profile.managedBy <;> simp_all [conflictWith]

theorem conflictWith_some {existing : RunnerProfileRecord} {profile : SpecProfile}
    {conflict : ManagedProfileConflict} (some_ : conflictWith existing profile = some conflict) :
    (existing.managedBy = "" ∨ existing.managedBy ≠ profile.managedBy) ∧
      conflict = ⟨profile.name, existing.managedBy⟩ := by
  unfold conflictWith at some_
  split at some_
  · rename_i other
    exact ⟨other, (Option.some.inj some_).symm⟩
  · cases some_

theorem audited_ok {element : ElementSurroundings} {profile : SpecProfile}
    {tx after : Reconciliation}
    (ran : appendManagedProfileReconciliationAudit keep element profile tx = .ok after) :
    after = { tx with audit := tx.audit ++ [reconciliationEvent keep element.now profile] } := by
  obtain ⟨_, _, ran⟩ := ok_bind ran
  exact (Except.ok.inj ran).symm

/-- The row that was just read matches the condition of its upgrade. -/
theorem upgrade_affects {specs : SpecTable} {profile : SpecProfile} {existing : RunnerProfileRecord}
    (found : specs.find profile.name = some existing)
    (older : existing.catalogRevision < profile.catalogRevision) :
    specs.affected (upgradable existing profile) ≠ 0 := by
  obtain ⟨member, named⟩ := KeyedTable.find_some.mp found
  intro none
  have unmatched := List.countP_eq_zero.mp none existing member
  simp [upgradable, named, older] at unmatched

theorem reconcileProfile_cases {element : ElementSurroundings} {input : SpecProfile}
    {tx after : Reconciliation} (ran : reconcileProfile lower keep element input tx = .ok after) :
    Reconciled keep element.now (trimmedOwner input) tx after := by
  obtain ⟨_, _, ran⟩ := ok_bind ran
  obtain ⟨_, _, ran⟩ := ok_bind ran
  cases found : tx.specs.find (trimmedOwner input).name with
  | none =>
      simp only [found] at ran
      obtain ⟨_, _, ran⟩ := ok_bind ran
      cases inserted : tx.specs.insert (managedRecord keep element.now (trimmedOwner input)) with
      | none =>
          simp only [inserted] at ran
          cases ran
      | some specs =>
          simp only [inserted] at ran
          cases audited_ok ran
          exact .created found inserted
  | some existing =>
      simp only [found] at ran
      cases conflict : conflictWith existing (trimmedOwner input) with
      | some entry =>
          simp only [conflict] at ran
          obtain ⟨other, rfl⟩ := conflictWith_some conflict
          cases Except.ok.inj ran
          exact .conflict found other
      | none =>
          simp only [conflict] at ran
          have owned := conflictWith_none.mp conflict
          split at ran
          · rename_i recent
            cases Except.ok.inj ran
            exact .current found owned recent
          · rename_i notRecent
            have older : existing.catalogRevision < (trimmedOwner input).catalogRevision := by omega
            obtain ⟨_, _, ran⟩ := ok_bind ran
            rw [if_neg (upgrade_affects found older)] at ran
            cases audited_ok ran
            exact .upgraded found owned older

/-- What an upgrade leaves of a row. -/
structure RowKept (old new : RunnerProfileRecord) : Prop where
  name : new.name = old.name
  managedBy : new.managedBy = old.managedBy
  enabled : new.enabled = old.enabled
  maxConcurrency : new.maxConcurrency = old.maxConcurrency
  minIdle : new.minIdle = old.minIdle
  revision : old.catalogRevision ≤ new.catalogRevision

theorem RowKept.refl (row : RunnerProfileRecord) : RowKept row row :=
  ⟨rfl, rfl, rfl, rfl, rfl, le_refl _⟩

theorem RowKept.trans {first second third : RunnerProfileRecord} (one : RowKept first second)
    (two : RowKept second third) : RowKept first third where
  name := two.name.trans one.name
  managedBy := two.managedBy.trans one.managedBy
  enabled := two.enabled.trans one.enabled
  maxConcurrency := two.maxConcurrency.trans one.maxConcurrency
  minIdle := two.minIdle.trans one.minIdle
  revision := le_trans one.revision two.revision

/-- The table changes in the row of one name only, and only when its owner is the
owner of the spec. -/
structure OnlyOwned (profile : SpecProfile) (before after : SpecTable) : Prop where
  kept : ∀ row ∈ before.rows, ∃ later ∈ after.rows, RowKept row later
  untouched : ∀ row ∈ before.rows,
    row.name ≠ profile.name ∨ row.managedBy = "" ∨ row.managedBy ≠ profile.managedBy →
      row ∈ after.rows
  fresh : ∀ row ∈ after.rows,
    row ∈ before.rows ∨ (row.name = profile.name ∧ row.managedBy = profile.managedBy)

theorem OnlyOwned.refl (profile : SpecProfile) (specs : SpecTable) :
    OnlyOwned profile specs specs where
  kept row member := ⟨row, member, RowKept.refl row⟩
  untouched _ member _ := member
  fresh _ member := .inl member

variable {now : Time} {profile : SpecProfile} {before after : Reconciliation}

theorem insert_onlyOwned {specs later : SpecTable}
    (inserted : specs.insert (managedRecord keep now profile) = some later) :
    OnlyOwned profile specs later := by
  obtain ⟨_, rows⟩ := KeyedTable.insert_some inserted
  constructor
  · intro row member
    refine ⟨row, ?_, RowKept.refl row⟩
    rw [rows]
    exact List.mem_append_left _ member
  · intro row member _
    rw [rows]
    exact List.mem_append_left _ member
  · intro row member
    rw [rows, List.mem_append, List.mem_singleton] at member
    rcases member with old | rfl
    · exact .inl old
    · exact .inr ⟨rfl, rfl⟩

theorem upgrade_onlyOwned {specs : SpecTable} {existing : RunnerProfileRecord}
    (owned : existing.managedBy = profile.managedBy ∧ existing.managedBy ≠ "") :
    OnlyOwned profile specs
      (specs.update (upgradable existing profile) (managedUpdates keep now profile)) := by
  constructor
  · intro row member
    refine ⟨_, KeyedTable.mem_update.mpr ⟨row, member, rfl⟩, ?_⟩
    by_cases matched : upgradable existing profile row = true
    · obtain ⟨_, sameOwner, older⟩ := of_decide_eq_true matched
      rw [if_pos matched]
      exact ⟨rfl, owned.1.symm.trans sameOwner.symm, rfl, rfl, rfl, le_of_lt older⟩
    · rw [if_neg matched]
      exact RowKept.refl row
  · intro row member foreign
    refine KeyedTable.mem_update.mpr ⟨row, member, ?_⟩
    by_cases matched : upgradable existing profile row = true
    · obtain ⟨sameName, sameOwner, _⟩ := of_decide_eq_true matched
      rcases foreign with otherName | unowned | otherOwner
      · exact absurd sameName otherName
      · exact absurd (sameOwner.symm.trans unowned) owned.2
      · exact absurd (sameOwner.trans owned.1) otherOwner
    · rw [if_neg matched]
  · intro row member
    obtain ⟨old, present, rfl⟩ := KeyedTable.mem_update.mp member
    by_cases matched : upgradable existing profile old = true
    · rw [if_pos matched]
      exact .inr ⟨(of_decide_eq_true matched).1, rfl⟩
    · rw [if_neg matched]
      exact .inl present

theorem Reconciled.onlyOwned (reconciled : Reconciled keep now profile before after) :
    OnlyOwned profile before.specs after.specs := by
  cases reconciled with
  | conflict => exact OnlyOwned.refl profile _
  | current => exact OnlyOwned.refl profile _
  | created _ inserted => exact insert_onlyOwned inserted
  | upgraded _ owned _ => exact upgrade_onlyOwned owned

/-- Nothing is left to do for the spec. -/
def Settled (profile : SpecProfile) (specs : SpecTable) : Prop :=
  ∃ row ∈ specs.rows, row.name = profile.name ∧
    (row.managedBy = profile.managedBy → profile.catalogRevision ≤ row.catalogRevision)

theorem Settled.later {specs later : SpecTable} (settled : Settled profile specs)
    (kept : ∀ row ∈ specs.rows, ∃ next ∈ later.rows, RowKept row next) :
    Settled profile later := by
  obtain ⟨row, member, named, recent⟩ := settled
  obtain ⟨next, present, same⟩ := kept row member
  refine ⟨next, present, same.name.trans named, fun owned => ?_⟩
  exact le_trans (recent (same.managedBy.symm.trans owned)) same.revision

theorem Reconciled.settles (reconciled : Reconciled keep now profile before after)
    (owner : profile.managedBy ≠ "") : Settled profile after.specs := by
  cases reconciled with
  | conflict found other =>
      obtain ⟨member, named⟩ := KeyedTable.find_some.mp found
      refine ⟨_, member, named, fun same => ?_⟩
      rcases other with unowned | otherOwner
      · exact absurd (same.symm.trans unowned) owner
      · exact absurd same otherOwner
  | current found owned recent =>
      obtain ⟨member, named⟩ := KeyedTable.find_some.mp found
      exact ⟨_, member, named, fun _ => recent⟩
  | created _ inserted =>
      obtain ⟨_, rows⟩ := KeyedTable.insert_some inserted
      refine ⟨managedRecord keep now profile, ?_, rfl, fun _ => le_refl _⟩
      rw [rows]
      exact List.mem_append_right _ (List.mem_singleton_self _)
  | @upgraded existing found owned older =>
      obtain ⟨member, named⟩ := KeyedTable.find_some.mp found
      have matched : upgradable existing profile existing = true := by
        simp [upgradable, named, older]
      refine ⟨_, KeyedTable.mem_update.mpr ⟨existing, member, rfl⟩, ?_, fun _ => ?_⟩
      · rw [if_pos matched]
        exact named
      · rw [if_pos matched]
        exact le_refl _

theorem Reconciled.again (reconciled : Reconciled keep now profile before after)
    (settled : Settled profile before.specs) : after.toSpecStore = before.toSpecStore := by
  obtain ⟨row, member, named, recent⟩ := settled
  have stored : before.specs.find profile.name = some row :=
    KeyedTable.find_some.mpr ⟨member, named⟩
  cases reconciled with
  | conflict => rfl
  | current => rfl
  | created absent _ =>
      rw [stored] at absent
      cases absent
  | upgraded found owned older =>
      rw [stored] at found
      cases found
      exact absurd (recent owned.1) (not_le.mpr older)

/-- One element of a run, with the transaction before and after it. -/
structure Visit where
  now : Time
  profile : SpecProfile
  before : Reconciliation
  after : Reconciliation

/-- The row of the name has no owner or another one. -/
def Visit.conflict (visit : Visit) : Option ManagedProfileConflict :=
  match visit.before.specs.find visit.profile.name with
  | none => none
  | some existing => conflictWith existing visit.profile

/-- The element created or upgraded the row of its name. -/
def Visit.wrote (visit : Visit) : Bool :=
  decide (visit.before.specs.find visit.profile.name ≠ visit.after.specs.find visit.profile.name)

def Visit.event (keep : Time → Time) (visit : Visit) : Option (AuditEvent SpecPayload) :=
  if visit.wrote then some (reconciliationEvent keep visit.now visit.profile) else none

/-- The row the name is to have after the element: a missing one is created, and an
older one of the same owner gets the columns of the input. -/
def Visit.wanted (keep : Time → Time) (visit : Visit) : RunnerProfileRecord :=
  match visit.before.specs.find visit.profile.name with
  | none => managedRecord keep visit.now visit.profile
  | some existing =>
      if (conflictWith existing visit.profile).isNone ∧
          existing.catalogRevision < visit.profile.catalogRevision then
        (managedUpdates keep visit.now visit.profile).apply existing
      else existing

/-- The elements of a run in order, up to the first one that fails. -/
def reconcileVisits (lower : String → String) (keep : Time → Time)
    (element : Nat → ElementSurroundings) : List SpecProfile → Reconciliation → List Visit
  | [], _ => []
  | input :: rest, tx =>
      match reconcileProfile lower keep (element 0) input tx with
      | .error _ => []
      | .ok after => ⟨(element 0).now, trimmedOwner input, tx, after⟩ ::
          reconcileVisits lower keep (fun index => element (index + 1)) rest after

theorem Reconciled.conflicts (reconciled : Reconciled keep now profile before after) :
    after.conflicts = before.conflicts ++ (Visit.conflict ⟨now, profile, before, after⟩).toList := by
  cases reconciled with
  | conflict found other => simp [Visit.conflict, found, conflictWith, other]
  | current found owned recent => simp [Visit.conflict, found, conflictWith_none.mpr owned]
  | created absent _ => simp [Visit.conflict, absent]
  | upgraded found owned older => simp [Visit.conflict, found, conflictWith_none.mpr owned]

theorem Reconciled.audit (reconciled : Reconciled keep now profile before after) :
    after.audit = before.audit ++ (Visit.event keep ⟨now, profile, before, after⟩).toList := by
  cases reconciled with
  | conflict => simp [Visit.event, Visit.wrote]
  | current => simp [Visit.event, Visit.wrote]
  | @created specs absent inserted =>
      obtain ⟨_, rows⟩ := KeyedTable.insert_some inserted
      have present : specs.find profile.name = some (managedRecord keep now profile) := by
        refine KeyedTable.find_some.mpr ⟨?_, rfl⟩
        rw [rows]
        exact List.mem_append_right _ (List.mem_singleton_self _)
      simp [Visit.event, Visit.wrote, absent, present]
  | @upgraded existing found owned older =>
      obtain ⟨_, named⟩ := KeyedTable.find_some.mp found
      have matched : upgradable existing profile existing = true := by
        simp [upgradable, named, older]
      have differs : existing ≠ (managedUpdates keep now profile).apply existing := by
        intro same
        have revision := congrArg RunnerProfileRecord.catalogRevision same
        exact absurd revision (ne_of_lt older)
      simp [Visit.event, Visit.wrote, KeyedTable.find_update, found, matched, differs]

theorem Reconciled.wanted (reconciled : Reconciled keep now profile before after) :
    after.specs.find profile.name = some (Visit.wanted keep ⟨now, profile, before, after⟩) := by
  cases reconciled with
  | conflict found other => simp [Visit.wanted, found, conflictWith, other]
  | current found owned recent =>
      simp [Visit.wanted, found, conflictWith_none.mpr owned, not_lt.mpr recent]
  | @created specs absent inserted =>
      obtain ⟨_, rows⟩ := KeyedTable.insert_some inserted
      simp only [Visit.wanted, absent]
      refine KeyedTable.find_some.mpr ⟨?_, rfl⟩
      rw [rows]
      exact List.mem_append_right _ (List.mem_singleton_self _)
  | @upgraded existing found owned older =>
      obtain ⟨_, named⟩ := KeyedTable.find_some.mp found
      have matched : upgradable existing profile existing = true := by
        simp [upgradable, named, older]
      simp [Visit.wanted, KeyedTable.find_update, found, matched, conflictWith_none.mpr owned, older]

end Steps

section Runs
variable {lower : String → String} {keep : Time → Time}

/-- What a run that returns no error has done, element by element and as a whole. -/
structure Conservative (keep : Time → Time) (visits : List Visit) (store after : SpecStore)
    (conflicts : List ManagedProfileConflict) : Prop where
  conflicts : conflicts = visits.filterMap Visit.conflict
  audit : after.audit = store.audit ++ visits.filterMap (Visit.event keep)
  owned : ∀ visit ∈ visits, OnlyOwned visit.profile visit.before.specs visit.after.specs
  brought : ∀ visit ∈ visits,
    visit.after.specs.find visit.profile.name = some (visit.wanted keep)
  settled : ∀ visit ∈ visits, Settled visit.profile after.specs
  kept : ∀ row ∈ store.specs.rows, ∃ later ∈ after.specs.rows, RowKept row later
  untouched : ∀ row ∈ store.specs.rows,
    (row.managedBy = "" ∨
      ∀ visit ∈ visits, visit.profile.name = row.name → visit.profile.managedBy ≠ row.managedBy) →
      row ∈ after.specs.rows
  fresh : ∀ row ∈ after.specs.rows, row ∈ store.specs.rows ∨
    ∃ visit ∈ visits, row.name = visit.profile.name ∧ row.managedBy = visit.profile.managedBy

theorem reconcileProfiles_visits {element : Nat → ElementSurroundings}
    {profiles : List SpecProfile} {tx after : Reconciliation}
    (ran : reconcileProfiles lower keep element profiles tx = .ok after) :
    (reconcileVisits lower keep element profiles tx).map Visit.profile =
        profiles.map trimmedOwner ∧
      ∃ conflicts, after.conflicts = tx.conflicts ++ conflicts ∧
        Conservative keep (reconcileVisits lower keep element profiles tx) tx.toSpecStore
          after.toSpecStore conflicts := by
  induction profiles generalizing element tx with
  | nil =>
      cases Except.ok.inj ran
      have none : ∀ visit, visit ∉ reconcileVisits lower keep element [] after :=
        fun _ => List.not_mem_nil
      refine ⟨rfl, [], (List.append_nil _).symm, rfl, (List.append_nil _).symm,
        fun visit member => (none visit member).elim, fun visit member => (none visit member).elim,
        fun visit member => (none visit member).elim, ?_, ?_, ?_⟩
      · intro row member
        exact ⟨row, member, RowKept.refl row⟩
      · intro row member _
        exact member
      · intro row member
        exact .inl member
  | cons input rest ih =>
      obtain ⟨middle, first, ran⟩ := ok_bind ran
      obtain ⟨names, conflicts, collected, run⟩ := ih ran
      have step := reconcileProfile_cases first
      have only := step.onlyOwned
      have visits : reconcileVisits lower keep element (input :: rest) tx =
          ⟨(element 0).now, trimmedOwner input, tx, middle⟩ ::
            reconcileVisits lower keep (fun index => element (index + 1)) rest middle := by
        simp only [reconcileVisits, first]
      rw [visits]
      refine ⟨by rw [List.map_cons, List.map_cons, names],
        (Visit.conflict ⟨(element 0).now, trimmedOwner input, tx, middle⟩).toList ++ conflicts,
        ?_, ?_, ?_, ?_, ?_, ?_, ?_, ?_, ?_⟩
      · rw [collected, step.conflicts, List.append_assoc]
      · rw [run.conflicts, List.filterMap_cons]
        cases Visit.conflict ⟨(element 0).now, trimmedOwner input, tx, middle⟩ <;> rfl
      · rw [run.audit, step.audit, List.filterMap_cons, List.append_assoc]
        cases Visit.event keep ⟨(element 0).now, trimmedOwner input, tx, middle⟩ <;> rfl
      · intro visit member
        rcases List.mem_cons.mp member with rfl | later
        · exact only
        · exact run.owned visit later
      · intro visit member
        rcases List.mem_cons.mp member with rfl | later
        · exact step.wanted
        · exact run.brought visit later
      · intro visit member
        rcases List.mem_cons.mp member with rfl | later
        · obtain ⟨_, checked, _⟩ := ok_bind first
          exact (step.settles (checkManagedProfile_ok checked).2).later run.kept
        · exact run.settled visit later
      · intro row member
        obtain ⟨next, present, one⟩ := only.kept row member
        obtain ⟨last, there, two⟩ := run.kept next present
        exact ⟨last, there, one.trans two⟩
      · intro row member foreign
        -- what is foreign to the run is foreign to its first visit and to the others
        refine run.untouched row (only.untouched row member ?_) ?_
        · rcases foreign with unowned | other
          · exact .inr (.inl unowned)
          · by_cases named : row.name = (trimmedOwner input).name
            · exact .inr (.inr (Ne.symm (other _ List.mem_cons_self named.symm)))
            · exact .inl named
        · exact foreign.imp id fun other visit later => other visit (List.mem_cons_of_mem _ later)
      · -- a row of the end was there before the rest of the run, or the rest brought it
        intro row member
        rcases run.fresh row member with old | ⟨visit, later, same⟩
        · rcases only.fresh row old with older | same
          · exact .inl older
          · exact .inr ⟨_, List.mem_cons_self, same⟩
        · exact .inr ⟨visit, List.mem_cons_of_mem _ later, same⟩

/-- After a run every spec of its input is settled. -/
theorem reconcileProfiles_settles {element : Nat → ElementSurroundings}
    {profiles : List SpecProfile} {tx after : Reconciliation}
    (ran : reconcileProfiles lower keep element profiles tx = .ok after) :
    ∀ input ∈ profiles, Settled (trimmedOwner input) after.specs := by
  obtain ⟨profilesSeen, _, _, run⟩ := reconcileProfiles_visits ran
  intro input member
  have seen : trimmedOwner input ∈ profiles.map trimmedOwner := List.mem_map_of_mem member
  rw [← profilesSeen] at seen
  obtain ⟨visit, visited, same⟩ := List.mem_map.mp seen
  rw [← same]
  exact run.settled visit visited

/-- A run over settled specs changes nothing. -/
theorem reconcileProfiles_settled {element : Nat → ElementSurroundings}
    {profiles : List SpecProfile} {tx after : Reconciliation}
    (ran : reconcileProfiles lower keep element profiles tx = .ok after)
    (settled : ∀ input ∈ profiles, Settled (trimmedOwner input) tx.specs) :
    after.toSpecStore = tx.toSpecStore := by
  induction profiles generalizing element tx with
  | nil =>
      cases Except.ok.inj ran
      rfl
  | cons head rest ih =>
      obtain ⟨middle, first, ran⟩ := ok_bind ran
      have same := (reconcileProfile_cases first).again (settled head List.mem_cons_self)
      have specs : middle.specs = tx.specs := congrArg SpecStore.specs same
      refine (ih ran fun input member => ?_).trans same
      rw [specs]
      exact settled input (List.mem_cons_of_mem _ member)

theorem reconcileTransaction_ok {surroundings : ReconcileSurroundings}
    {profiles : List SpecProfile} {store : SpecStore} {tx : Reconciliation}
    (ran : reconcileTransaction lower keep surroundings profiles store = .ok tx) :
    reconcileProfiles lower keep surroundings.element profiles
      { store with conflicts := [] } = .ok tx := by
  obtain ⟨_, _, ran⟩ := ok_bind ran
  obtain ⟨last, looped, ran⟩ := ok_bind ran
  obtain ⟨_, _, ran⟩ := ok_bind ran
  cases Except.ok.inj ran
  exact looped

/-- What every element preserves, a reconciliation preserves. -/
theorem reconcileManagedProfiles_preserves {holds : SpecTable → Prop}
    (each : ∀ {now : Time} {input : SpecProfile} {before after : Reconciliation},
      Reconciled keep now (trimmedOwner input) before after → holds before.specs →
        holds after.specs)
    {surroundings : ReconcileSurroundings} {profiles : List SpecProfile} {store : SpecStore}
    (first : holds store.specs) :
    holds (reconcileManagedProfiles lower keep surroundings profiles store).2.specs := by
  have loop {element : Nat → ElementSurroundings} {profiles : List SpecProfile}
      {tx after : Reconciliation} (held : holds tx.specs)
      (ran : reconcileProfiles lower keep element profiles tx = .ok after) :
      holds after.specs := by
    induction profiles generalizing element tx with
    | nil =>
        cases Except.ok.inj ran
        exact held
    | cons head rest ih =>
        obtain ⟨middle, step, ran⟩ := ok_bind ran
        exact ih (each (reconcileProfile_cases step) held) ran
  cases ran : reconcileTransaction lower keep surroundings profiles store with
  | error err =>
      simp only [reconcileManagedProfiles, ran]
      exact first
  | ok tx =>
      have kept : holds tx.specs := loop (by exact first) (reconcileTransaction_ok ran)
      simp only [reconcileManagedProfiles, ran]
      exact kept

theorem reconcileManagedProfiles_conservative (lower : String → String) (keep : Time → Time)
    (surroundings : ReconcileSurroundings) (profiles : List SpecProfile) (store : SpecStore) :
    (∃ err, reconcileManagedProfiles lower keep surroundings profiles store = (.error err, store)) ∨
    ∃ conflicts after visits,
      reconcileManagedProfiles lower keep surroundings profiles store = (.ok conflicts, after) ∧
      visits = reconcileVisits lower keep surroundings.element profiles
        { store with conflicts := [] } ∧
      visits.map Visit.profile = profiles.map trimmedOwner ∧
      Conservative keep visits store after conflicts ∧
      ∀ again, (reconcileManagedProfiles lower keep again profiles after).2 = after := by
  cases ran : reconcileTransaction lower keep surroundings profiles store with
  | error err =>
      left
      refine ⟨err, ?_⟩
      simp only [reconcileManagedProfiles, ran]
  | ok tx =>
      right
      have looped := reconcileTransaction_ok ran
      obtain ⟨names, conflicts, collected, run⟩ := reconcileProfiles_visits looped
      rw [List.nil_append] at collected
      refine ⟨conflicts, tx.toSpecStore, _, ?_, rfl, names, run, fun again => ?_⟩
      · simp only [reconcileManagedProfiles, ran, collected]
      · cases second : reconcileTransaction lower keep again profiles tx.toSpecStore with
        | error err => simp only [reconcileManagedProfiles, second]
        | ok last =>
            have settled : ∀ input ∈ profiles, Settled (trimmedOwner input) tx.specs :=
              reconcileProfiles_settles looped
            have same := reconcileProfiles_settled (reconcileTransaction_ok second) settled
            simp only [reconcileManagedProfiles, second, same]

/-- An element that passes its checks goes through when the database fails nothing. -/
theorem reconcileProfile_succeeds {input : SpecProfile}
    (passed : checkManagedProfile lower (trimmedOwner input) = .ok ()) (tx : Reconciliation) :
    ∃ after, reconcileProfile lower keep {} input tx = .ok after := by
  simp only [reconcileProfile, passed, faulted, bind, Except.bind, pure, Except.pure]
  cases found : tx.specs.find (trimmedOwner input).name with
  | none =>
      have free : tx.specs.find (managedRecord keep 0 (trimmedOwner input)).name = none := found
      obtain ⟨specs, inserted, _⟩ := KeyedTable.insert_free free
      simp only [createManagedProfile, inserted]
      exact ⟨_, rfl⟩
  | some existing =>
      cases conflict : conflictWith existing (trimmedOwner input) with
      | some entry =>
          simp only [conflict]
          exact ⟨_, rfl⟩
      | none =>
          simp only [conflict]
          by_cases recent : (trimmedOwner input).catalogRevision ≤ existing.catalogRevision
          · rw [if_pos recent]
            exact ⟨_, rfl⟩
          · rw [if_neg recent]
            simp only [upgradeManagedProfile, if_neg (upgrade_affects found (not_le.mp recent))]
            exact ⟨_, rfl⟩

/-- Without faults of the database, a list whose specs pass their checks is reconciled. -/
theorem reconcileManagedProfiles_succeeds {profiles : List SpecProfile}
    (checked : ∀ input ∈ profiles, checkManagedProfile lower (trimmedOwner input) = .ok ())
    (store : SpecStore) :
    ∃ conflicts after,
      reconcileManagedProfiles lower keep {} profiles store = (.ok conflicts, after) := by
  have loop (tx : Reconciliation) :
      ∃ after, reconcileProfiles lower keep (fun _ => {}) profiles tx = .ok after := by
    induction profiles generalizing tx with
    | nil => exact ⟨tx, rfl⟩
    | cons head rest ih =>
        obtain ⟨middle, first⟩ := reconcileProfile_succeeds (checked head List.mem_cons_self) tx
        obtain ⟨after, later⟩ := ih (fun input member =>
          checked input (List.mem_cons_of_mem _ member)) middle
        refine ⟨after, ?_⟩
        rw [reconcileProfiles, first]
        exact later
  obtain ⟨after, looped⟩ := loop { store with conflicts := [] }
  have ran : reconcileTransaction lower keep {} profiles store = .ok after := by
    simp only [reconcileTransaction, looped]
    rfl
  exact ⟨after.conflicts, after.toSpecStore, by simp only [reconcileManagedProfiles, ran]⟩

/-- One name, in two revisions of its owner and then claimed by another owner. -/
def repeatedSpecs : List SpecProfile :=
  [{ name := " large", managedBy := "qiniu/ci-runner", catalogRevision := 1, enabled := false },
   { name := "large", managedBy := "qiniu/ci-runner", catalogRevision := 2, maxConcurrency := 4 },
   { name := "large", managedBy := "other", catalogRevision := 9 }]

/-- The row is created, then upgraded, and the third spec conflicts with it. -/
theorem reconcileManagedProfiles_conservative_repeated :
    ∃ conflicts after visits,
      reconcileManagedProfiles toLower id {} repeatedSpecs ⟨.empty, []⟩ = (.ok conflicts, after) ∧
      Conservative id visits ⟨.empty, []⟩ after conflicts ∧
      visits.map Visit.wrote = [true, true, false] ∧
      conflicts = [⟨"large", "qiniu/ci-runner"⟩] ∧
      (after.specs.rows.map fun row => (row.catalogRevision, row.enabled, row.maxConcurrency)) =
        [(2, false, 0)] := by
  have conflicted : (reconcileManagedProfiles toLower id {} repeatedSpecs ⟨.empty, []⟩).1.toOption =
      some [⟨"large", "qiniu/ci-runner"⟩] := by decide +kernel
  have rows : ((reconcileManagedProfiles toLower id {} repeatedSpecs ⟨.empty, []⟩).2.specs.rows.map
      fun row => (row.catalogRevision, row.enabled, row.maxConcurrency)) = [(2, false, 0)] := by
    decide +kernel
  have wrote : ((reconcileVisits toLower id (fun _ => {}) repeatedSpecs
      { specs := .empty, audit := [], conflicts := [] }).map Visit.wrote) = [true, true, false] := by
    decide +kernel
  obtain ⟨err, failed⟩ | ⟨conflicts, after, visits, ran, visited, _, run, _⟩ :=
    reconcileManagedProfiles_conservative toLower id {} repeatedSpecs ⟨.empty, []⟩
  · rw [failed] at conflicted
    cases conflicted
  · rw [ran] at conflicted rows
    have found : conflicts = [⟨"large", "qiniu/ci-runner"⟩] := Option.some.inj conflicted
    rw [← visited] at wrote
    exact ⟨conflicts, after, visits, ran, run, wrote, found, rows⟩

end Runs

end Runnerd
