import Runnerd.SpecVersions

/-!
Specs of the built-in catalog against admin requests. A request decides by what
it read, and other requests go on until it writes. What keeps a managed row safe
is that no request makes a row managed or unmanaged, so a read that found the
name free or unmanaged stays right about that for as long as the server runs.
-/

namespace Runnerd

open GoText Interaction Interleaving

section Guarding

/-- The columns of a row that belong to the catalog. -/
structure Frozen (old new : RunnerProfileRecord) : Prop where
  name : new.name = old.name
  labelsJSON : new.labelsJSON = old.labelsJSON
  requiredLabelsJSON : new.requiredLabelsJSON = old.requiredLabelsJSON
  templateID : new.templateID = old.templateID
  defaultTemplateName : new.defaultTemplateName = old.defaultTemplateName
  runnerGroup : new.runnerGroup = old.runnerGroup
  priority : new.priority = old.priority
  managedBy : new.managedBy = old.managedBy
  catalogRevision : new.catalogRevision = old.catalogRevision

theorem Frozen.refl (row : RunnerProfileRecord) : Frozen row row :=
  ⟨rfl, rfl, rfl, rfl, rfl, rfl, rfl, rfl, rfl⟩

theorem Frozen.trans {first second third : RunnerProfileRecord} (one : Frozen first second)
    (two : Frozen second third) : Frozen first third where
  name := two.name.trans one.name
  labelsJSON := two.labelsJSON.trans one.labelsJSON
  requiredLabelsJSON := two.requiredLabelsJSON.trans one.requiredLabelsJSON
  templateID := two.templateID.trans one.templateID
  defaultTemplateName := two.defaultTemplateName.trans one.defaultTemplateName
  runnerGroup := two.runnerGroup.trans one.runnerGroup
  priority := two.priority.trans one.priority
  managedBy := two.managedBy.trans one.managedBy
  catalogRevision := two.catalogRevision.trans one.catalogRevision

/-- The managed rows are the same ones, with the same catalog columns. -/
structure Guards (before after : SpecTable) : Prop where
  kept : ∀ row ∈ before.rows, row.managedBy ≠ "" → ∃ later ∈ after.rows, Frozen row later
  only : ∀ later ∈ after.rows, later.managedBy ≠ "" → ∃ row ∈ before.rows, Frozen row later

theorem Guards.refl (specs : SpecTable) : Guards specs specs :=
  ⟨fun row member _ => ⟨row, member, Frozen.refl row⟩,
    fun row member _ => ⟨row, member, Frozen.refl row⟩⟩

theorem Guards.trans {first second third : SpecTable} (one : Guards first second)
    (two : Guards second third) : Guards first third := by
  constructor
  · intro row member owned
    obtain ⟨middle, present, same⟩ := one.kept row member owned
    obtain ⟨last, there, again⟩ := two.kept middle present (same.managedBy ▸ owned)
    exact ⟨last, there, same.trans again⟩
  · intro last member owned
    obtain ⟨middle, present, again⟩ := two.only last member owned
    obtain ⟨row, there, same⟩ := one.only middle present (again.managedBy ▸ owned)
    exact ⟨row, there, same.trans again⟩

def OwnersTrimmed (specs : SpecTable) : Prop :=
  ∀ row ∈ specs.rows, trimSpace row.managedBy = row.managedBy

/-- No row of the name is managed. -/
def Unmanaged (name : String) (specs : SpecTable) : Prop :=
  ∀ row ∈ specs.rows, row.name = trimSpace name → row.managedBy = ""

/-- The row shows the catalog fields of the spec. -/
structure Shows (profile : SpecProfile) (row : RunnerProfileRecord) : Prop where
  name : row.name = profile.name
  labelsJSON : row.labelsJSON = .listed profile.labels
  requiredLabelsJSON : row.requiredLabelsJSON = .listed profile.requiredLabels
  templateID : row.templateID = profile.templateID
  defaultTemplateName : row.defaultTemplateName = profile.defaultTemplateName
  runnerGroup : row.runnerGroup = profile.runnerGroup
  priority : row.priority = profile.priority
  managedBy : row.managedBy = profile.managedBy
  catalogRevision : row.catalogRevision = profile.catalogRevision

theorem Shows.later {profile : SpecProfile} {old new : RunnerProfileRecord}
    (shows_ : Shows profile old) (frozen : Frozen old new) : Shows profile new where
  name := frozen.name.trans shows_.name
  labelsJSON := frozen.labelsJSON.trans shows_.labelsJSON
  requiredLabelsJSON := frozen.requiredLabelsJSON.trans shows_.requiredLabelsJSON
  templateID := frozen.templateID.trans shows_.templateID
  defaultTemplateName := frozen.defaultTemplateName.trans shows_.defaultTemplateName
  runnerGroup := frozen.runnerGroup.trans shows_.runnerGroup
  priority := frozen.priority.trans shows_.priority
  managedBy := frozen.managedBy.trans shows_.managedBy
  catalogRevision := frozen.catalogRevision.trans shows_.catalogRevision

/-- What a read still tells about the table. -/
inductive Known (specs : SpecTable) (name : String) : Option SpecProfile → Prop where
  | free (unmanaged : Unmanaged name specs) : Known specs name none
  | unmanaged {profile : SpecProfile} (named : profile.name = trimSpace name)
      (unowned : profile.managedBy = "") (unmanaged : Unmanaged name specs) :
      Known specs name (some profile)
  | managed {profile : SpecProfile} {row : RunnerProfileRecord}
      (named : profile.name = trimSpace name) (owned : trimSpace profile.managedBy ≠ "")
      (member : row ∈ specs.rows) (shows_ : Shows profile row) : Known specs name (some profile)

theorem Unmanaged.later {name : String} {before after : SpecTable}
    (unmanaged : Unmanaged name before) (guards : Guards before after) : Unmanaged name after := by
  intro row member named
  by_contra owned
  obtain ⟨old, present, frozen⟩ := guards.only row member owned
  exact owned (frozen.managedBy.trans (unmanaged old present (frozen.name.symm.trans named)))

theorem ne_of_trimmed {owner : String} (owned : trimSpace owner ≠ "") : owner ≠ "" := by
  rintro rfl
  exact owned (by decide)

theorem Known.later {name : String} {read : Option SpecProfile} {before after : SpecTable}
    (known : Known before name read) (guards : Guards before after) : Known after name read := by
  cases known with
  | free unmanaged => exact .free (unmanaged.later guards)
  | unmanaged named unowned unmanaged => exact .unmanaged named unowned (unmanaged.later guards)
  | managed named owned member shows_ =>
      obtain ⟨later, present, frozen⟩ :=
        guards.kept _ member (shows_.managedBy ▸ ne_of_trimmed owned)
      exact .managed named owned present (shows_.later frozen)

theorem OwnersTrimmed.later {before after : SpecTable} (trimmed : OwnersTrimmed before)
    (guards : Guards before after) : OwnersTrimmed after := by
  intro row member
  by_cases unowned : row.managedBy = ""
  · rw [unowned]
    decide
  · obtain ⟨old, present, frozen⟩ := guards.only row member unowned
    rw [frozen.managedBy]
    exact trimmed old present

/-- A read is right when it is made. -/
theorem getProfile_known {specs : SpecTable} (trimmed : OwnersTrimmed specs) {name : String}
    {answer : Option SpecProfile} (read : SpecTable.getProfile specs name = .ok answer) :
    Known specs name answer := by
  simp only [SpecTable.getProfile] at read
  cases found : specs.find (trimSpace name) with
  | none =>
      simp only [found] at read
      cases Except.ok.inj read
      exact .free fun row member named => absurd named (KeyedTable.find_none.mp found row member)
  | some record =>
      simp only [found] at read
      obtain ⟨member, named⟩ := KeyedTable.find_some.mp found
      cases decoded : recordToProfile record with
      | error err =>
          simp only [decoded] at read
          cases read
      | ok profile =>
          simp only [decoded] at read
          cases Except.ok.inj read
          have row := recordToProfile_ok decoded
          have shows_ : Shows profile record := by
            rw [row]
            exact ⟨rfl, rfl, rfl, rfl, rfl, rfl, rfl, rfl, rfl⟩
          by_cases owned : trimSpace profile.managedBy = ""
          · have unowned : record.managedBy = "" := by
              rw [← trimmed record member, shows_.managedBy]
              exact owned
            refine .unmanaged (shows_.name.symm.trans named) (shows_.managedBy.symm.trans unowned) ?_
            intro other present same
            rw [specs.same_row present member (same.trans named.symm)]
            exact unowned
          · exact .managed (shows_.name.symm.trans named) owned member shows_

end Guarding

section Writes
variable {precision : ColumnPrecision} {now : Time} {profile : SpecProfile}
variable {expected : Option Time} {before after : SpecTable}

/-- A save of an unmanaged spec under a name that no managed row has. -/
theorem unmanaged_guards
    (saved : Saved (profileRecord precision now profile) before expected after)
    (unowned : profile.managedBy = "") (unmanaged : Unmanaged profile.name before) :
    Guards before after := by
  cases saved with
  | inserted absent rows =>
      constructor
      · intro row member _
        refine ⟨row, ?_, Frozen.refl row⟩
        rw [rows]
        exact List.mem_append_left _ member
      · intro row member owned
        rw [rows, List.mem_append, List.mem_singleton] at member
        rcases member with old | rfl
        · exact ⟨row, old, Frozen.refl row⟩
        · exact absurd unowned owned
  | @replaced base found =>
      have foreign (row : RunnerProfileRecord) (member : row ∈ before.rows)
          (owned : row.managedBy ≠ "") :
          unchangedSince (profileRecord precision now profile).name base.updatedAt row = false := by
        simp only [unchangedSince, decide_eq_false_iff_not, not_and]
        intro named
        exact absurd (unmanaged row member named) owned
      constructor
      · intro row member owned
        refine ⟨row, KeyedTable.mem_update.mpr ⟨row, member, ?_⟩, Frozen.refl row⟩
        simp [foreign row member owned]
      · intro row member owned
        obtain ⟨old, present, rfl⟩ := KeyedTable.mem_update.mp member
        by_cases matched : unchangedSince (profileRecord precision now profile).name
            base.updatedAt old = true
        · rw [if_pos matched] at owned
          exact absurd unowned owned
        · rw [if_neg matched]
          exact ⟨old, present, Frozen.refl old⟩

/-- A save that repeats the catalog fields of a managed row. -/
theorem managed_guards {current : SpecProfile} {row : RunnerProfileRecord} {base : Time}
    (saved : Saved (profileRecord precision now profile) before (some base) after)
    (same : SameCatalogFields current profile) (member : row ∈ before.rows)
    (shows_ : Shows current row) (trimmed : trimSpace current.name = current.name) :
    Guards before after := by
  have frozen (old : RunnerProfileRecord) (present : old ∈ before.rows)
      (named : old.name = (profileRecord precision now profile).name) :
      Frozen old ((profileUpdates (profileRecord precision now profile)).apply old) := by
    have name : old.name = row.name := by
      rw [named, shows_.name, ← trimmed, ← same.name]
      rfl
    rw [before.same_row present member name]
    exact ⟨rfl, (congrArg LabelsColumn.listed same.labels).trans shows_.labelsJSON.symm,
      (congrArg LabelsColumn.listed same.requiredLabels).trans shows_.requiredLabelsJSON.symm,
      same.templateID.trans shows_.templateID.symm,
      same.defaultTemplateName.trans shows_.defaultTemplateName.symm,
      same.runnerGroup.trans shows_.runnerGroup.symm, same.priority.trans shows_.priority.symm,
      same.managedBy.trans shows_.managedBy.symm,
      same.catalogRevision.trans shows_.catalogRevision.symm⟩
  cases saved with
  | @replaced old found =>
      have edited (old : RunnerProfileRecord) (present : old ∈ before.rows) (version : Time) :
          Frozen old (if unchangedSince (profileRecord precision now profile).name version old then
            (profileUpdates (profileRecord precision now profile)).apply old else old) := by
        by_cases matched : unchangedSince (profileRecord precision now profile).name version old =
            true
        · rw [if_pos matched]
          exact frozen old present (of_decide_eq_true matched).1
        · rw [if_neg matched]
          exact Frozen.refl old
      constructor
      · intro row member _
        exact ⟨_, KeyedTable.mem_update.mpr ⟨row, member, rfl⟩, edited row member _⟩
      · intro later member _
        obtain ⟨old, present, rfl⟩ := KeyedTable.mem_update.mp member
        exact ⟨old, present, edited old present _⟩

theorem delete_guards {name : String} (unmanaged : Unmanaged name before) :
    Guards before (SpecTable.deleteProfile before name) := by
  constructor
  · intro row member owned
    refine ⟨row, KeyedTable.mem_erase.mpr ⟨member, ?_⟩, Frozen.refl row⟩
    simp only [decide_eq_false_iff_not]
    exact fun named => owned (unmanaged row member named)
  · intro row member _
    exact ⟨row, (KeyedTable.mem_erase.mp member).1, Frozen.refl row⟩

theorem Based.guards {past : List SpecAnswered} (based : Based past profile expected)
    (known : ∀ name answer, ⟨.getProfile name, .ok answer⟩ ∈ past → Known before name answer)
    (saved : Saved (profileRecord precision now profile) before expected after) :
    Guards before after := by
  cases based with
  | absent read unowned =>
      cases known _ _ read with
      | free unmanaged => exact unmanaged_guards saved unowned unmanaged
  | unmanaged read blank named owner =>
      cases known _ _ read with
      | unmanaged same unowned unmanaged =>
          have stored : profile.managedBy = "" := owner.elim id fun same => same.trans unowned
          refine unmanaged_guards saved stored fun row member rowNamed => ?_
          refine unmanaged row member (rowNamed.trans ?_)
          rcases named with rfl | asRead
          · rfl
          · rw [asRead, same, trimSpace_idem]
      | managed _ owned _ _ => exact absurd blank owned
  | managed read owned same =>
      cases known _ _ read with
      | unmanaged _ unowned _ => exact absurd unowned (ne_of_trimmed owned)
      | managed named _ member shows_ =>
          refine managed_guards saved same member shows_ ?_
          rw [named, trimSpace_idem]

theorem Deletable.guards {past : List SpecAnswered} {name : String} (deletable : Deletable past name)
    (known : ∀ name answer, ⟨.getProfile name, .ok answer⟩ ∈ past → Known before name answer) :
    Guards before (SpecTable.deleteProfile before name) := by
  rcases deletable with read | ⟨current, read, blank⟩
  · cases known _ _ read with
    | free unmanaged => exact delete_guards unmanaged
  · cases known _ _ read with
    | unmanaged _ _ unmanaged => exact delete_guards unmanaged
    | managed _ owned _ _ => exact absurd blank owned

theorem Reconciled.ownersTrimmed {keep : Time → Time} {input : SpecProfile}
    {before after : Reconciliation} (reconciled : Reconciled keep now (trimmedOwner input) before after)
    (trimmed : OwnersTrimmed before.specs) : OwnersTrimmed after.specs := by
  have owner : trimSpace (trimmedOwner input).managedBy = (trimmedOwner input).managedBy :=
    trimSpace_idem input.managedBy
  cases reconciled with
  | conflict => exact trimmed
  | current => exact trimmed
  | created _ inserted =>
      obtain ⟨_, rows⟩ := KeyedTable.insert_some inserted
      intro row member
      rw [rows, List.mem_append, List.mem_singleton] at member
      rcases member with old | rfl
      · exact trimmed row old
      · exact owner
  | upgraded =>
      intro row member
      obtain ⟨old, present, rfl⟩ := KeyedTable.mem_update.mp member
      split
      · exact owner
      · exact trimmed old present

end Writes

section Runs
variable {lower : String → String} {precision : ColumnPrecision}
variable {condition : SpecWorld → SpecMove → Prop} {world later : SpecWorld}
variable {tid : Nat} {choice : SpecChoice} {thread : Thread SpecOp SpecOp.Resp SpecTask}
variable {op : SpecOp} {resp : op.Resp} {rest : SpecAction Unit} {state : SpecState}

/-- The reads of a request are still right. -/
def readsHold : Machine.ThreadFact SpecOp SpecOp.Resp SpecTask SpecState :=
  fun state _ _ _ past => ∀ name answer, ⟨.getProfile name, .ok answer⟩ ∈ past →
    state.serving = true ∧ Known state.specs name answer

/-- A call of a serving server leaves the managed rows as they are. -/
theorem acts_guards (obeys : Machine.Obeys specContract world)
    (informed : Machine.Informed readsHold world) (serving : world.state.serving = true)
    (acts : (specMachine lower precision).Acts world tid choice thread op resp rest state) :
    state.serving = true ∧ Guards world.state.specs state.specs := by
  have permitted := obeys.permits acts
  have known (name : String) (answer : Option SpecProfile)
      (read : ⟨.getProfile name, .ok answer⟩ ∈ thread.past) :
      Known world.state.specs name answer := (informed.actor acts name answer read).2
  cases respondSpecs_step acts.answer with
  | reconciled idle =>
      rw [serving] at idle
      cases idle
  | unchanged => exact ⟨serving, Guards.refl _⟩
  | saved _ still saved => exact ⟨still, permitted.2.guards known saved⟩
  | deleted _ still specs =>
      rw [specs]
      exact ⟨still, permitted.2.guards known⟩

/-- A read that was just made holds, and so do the earlier ones. -/
theorem reads_step (trimmed : OwnersTrimmed world.state.specs)
    (acts : (specMachine lower precision).Acts world tid choice thread op resp rest state)
    {past : List SpecAnswered} {trace : List (Event SpecOp SpecOp.Resp SpecTask)} {other : Nat}
    {task : SpecTask} (older : readsHold world.state trace other task past)
    (guards : world.state.serving = true →
      state.serving = true ∧ Guards world.state.specs state.specs) :
    readsHold state trace other task past ∧ readsHold state trace other task (⟨op, resp⟩ :: past) := by
  have kept : readsHold state trace other task past := by
    intro name answer read
    obtain ⟨serving, known⟩ := older name answer read
    obtain ⟨still, guards⟩ := guards serving
    exact ⟨still, known.later guards⟩
  refine ⟨kept, fun name answer read => ?_⟩
  rcases List.mem_cons.mp read with fresh | older
  · cases fresh
    have answered : respondSpecs lower precision choice world.state (.getProfile name) =
        some (.ok answer, state) := acts.answer
    by_cases serving : world.state.serving = true
    · simp only [respondSpecs, if_pos serving] at answered
      cases fault : choice.read with
      | some err =>
          simp only [fault] at answered
          cases answered
      | none =>
          simp only [fault, Option.some.injEq, Prod.mk.injEq] at answered
          obtain ⟨made, rfl⟩ := answered
          exact ⟨serving, getProfile_known trimmed made⟩
    · simp only [respondSpecs, if_neg serving] at answered
      cases answered
  · exact kept name answer older

theorem specs_guarded
    (reaches : (specMachine lower precision).Reaches condition emptySpecs world) :
    OwnersTrimmed world.state.specs ∧ Machine.Informed readsHold world := by
  induction reaches with
  | refl =>
      constructor
      · intro row member
        cases member
      · intro tid thread live
        cases live
  | @step world after move before _ stepped ih =>
      obtain ⟨trimmed, informed⟩ := ih
      have obeys := specs_obey before
      constructor
      · obtain ⟨tid, choice, thread, op, resp, rest, state, rfl, acts, rfl⟩ | ⟨task, rfl, _, rfl⟩ |
          ⟨rfl, rfl⟩ := (specMachine lower precision).step_cases stepped
        · by_cases serving : world.state.serving = true
          · exact trimmed.later (acts_guards obeys informed serving acts).2
          · cases respondSpecs_step acts.answer with
            | reconciled _ store =>
                change OwnersTrimmed state.specs
                rw [store]
                exact reconcileManagedProfiles_preserves Reconciled.ownersTrimmed trimmed
            | unchanged => exact trimmed
            | saved served => exact absurd served serving
            | deleted served => exact absurd served serving
        · exact trimmed
        · exact trimmed
      · refine Machine.informed_step informed stepped ?_ ?_ ?_
        · intro state trace tid task name answer read
          cases read
        · intro tid choice thread op resp rest state acts _ older
          exact (reads_step trimmed acts older fun serving =>
            acts_guards obeys informed serving acts).2
        · intro tid choice thread op resp rest state other found acts _ _ _ _ older
          exact (reads_step trimmed acts older fun serving =>
            acts_guards obeys informed serving acts).1

/-- As long as the server runs, its requests leave the managed specs as they are. -/
theorem requests_guard_managed (lower : String → String) (precision : ColumnPrecision)
    {world later : SpecWorld}
    (reaches : (specMachine lower precision).Reaches (fun _ _ => True) emptySpecs world)
    (started : world.state.serving = true)
    (serves : (specMachine lower precision).Reaches (fun _ move => move ≠ .crash) world later) :
    Guards world.state.specs later.state.specs := by
  have run : later.state.serving = true ∧ Guards world.state.specs later.state.specs := by
    induction serves with
    | refl => exact ⟨started, Guards.refl _⟩
    | @step middle after move before up stepped ih =>
        obtain ⟨serving, guards⟩ := ih
        have reached : (specMachine lower precision).Reaches (fun _ _ => True) emptySpecs middle :=
          reaches.trans (before.weaken fun _ _ _ => trivial)
        obtain ⟨tid, choice, thread, op, resp, rest, state, rfl, acts, rfl⟩ | ⟨task, rfl, _, rfl⟩ |
          ⟨rfl, rfl⟩ := (specMachine lower precision).step_cases stepped
        · obtain ⟨still, next⟩ :=
            acts_guards (specs_obey reached) (specs_guarded reached).2 serving acts
          exact ⟨still, guards.trans next⟩
        · exact ⟨serving, guards⟩
        · exact absurd rfl up
  exact run.2

def uninterrupted (_ : SpecWorld) : SpecMove → Bool
  | .crash => false
  | _ => true

/-- A managed spec, patched within its limits and then overwritten, patched in a
catalog field under another spelling, and deleted. -/
def managedSpecMoves : List SpecMove :=
  [.start (.patch "large" (some (.object [("MIN_IDLE", .integer 2), ("other", .null)]))),
   .start (.create (some (.object [("name", .string "large"), ("template_id", .string "mine")]))),
   .start (.patch "large" (some (.object [("label\u017f", .array [.string "mine"])]))),
   .start (.delete "large"),
   .run 1 {}, .run 2 {}, .run 3 {}, .run 4 {}, .run 1 { write := { now := 5000000 } }]

def managedStart : List SpecMove :=
  [.start (.startup [{ name := "large", labels := ["x64"], templateID := "base"
                       managedBy := "qiniu/ci-runner", catalogRevision := 1 }]), .run 0 {}]

def templatesAndLimits (world : SpecWorld) : List (String × Int) :=
  world.state.specs.rows.map fun row => (row.templateID, row.minIdle)

theorem requests_guard_managed_run : ∃ world later : SpecWorld,
    Guards world.state.specs later.state.specs ∧ templatesAndLimits world = [("base", 0)] ∧
      templatesAndLimits later = [("base", 2)] ∧
      later.threads.all (fun thread => thread.rest.ended) = true := by
  have ran : ((specMachine toLower millisecondColumn).runChecked (fun _ _ => true) managedStart
      emptySpecs).any (fun world =>
        decide (world.state.serving = true ∧ templatesAndLimits world = [("base", 0)]) &&
        ((specMachine toLower millisecondColumn).runChecked uninterrupted managedSpecMoves world).any
          fun later => decide (templatesAndLimits later = [("base", 2)] ∧
            later.threads.all (fun thread => thread.rest.ended) = true)) = true := by
    decide +kernel
  obtain ⟨world, first, rest⟩ := (Option.any_eq_true _ _).mp ran
  obtain ⟨started, second⟩ := (Bool.and_eq_true _ _).mp rest
  obtain ⟨later, second, found⟩ := (Option.any_eq_true _ _).mp second
  simp only [decide_eq_true_eq] at started found
  refine ⟨world, later, requests_guard_managed toLower millisecondColumn
    ((Machine.reaches_checked .refl first).weaken fun _ _ _ => trivial) started.1
    ((Machine.reaches_checked .refl second).weaken ?_), started.2, found.1, found.2⟩
  rintro _ move passed rfl
  cases passed

end Runs

section Filter

/-- A member whose key folds to a tag that the filter knows is never decoded. -/
theorem decode_filtered {Input : Type} {fields : List (Field Input)} {zero result : Input}
    {payload : ProfileRequestPayload} {names : List String} (holds : Input → Prop)
    {body : Option Json} (read : readProfileRequestPayload body = some payload)
    (filtered : payload.containsAny names = false)
    (decoded : payload.decode fields zero = some result) (first : holds zero)
    (each : ∀ field ∈ fields, field.tag ∉ names → ∀ value input next,
      field.set value input = some next → holds input → holds next) : holds result := by
  have members (listed : List (String × Json)) {start last : Input}
      (passed : ∀ member ∈ listed, ∀ name ∈ names, equalFold member.1 name = false)
      (folded : listed.foldlM (decodeMember fields) start = some last) (held : holds start) :
      holds last := by
    induction listed generalizing start with
    | nil =>
        cases folded
        exact held
    | cons member rest ih =>
        rw [List.foldlM_cons] at folded
        obtain ⟨next, step, folded⟩ := Option.bind_eq_some_iff.mp folded
        refine ih (fun other later => passed other (List.mem_cons_of_mem _ later)) folded ?_
        unfold decodeMember at step
        cases found : fields.find? fun field => equalFold member.1 field.tag with
        | none =>
            simp only [found] at step
            cases step
            exact held
        | some field =>
            simp only [found] at step
            refine each field (List.mem_of_find?_eq_some found) ?_ _ _ _ step held
            intro known
            have folds := List.find?_some found
            rw [passed member List.mem_cons_self _ known] at folds
            cases folds
  cases body with
  | none => cases read
  | some value =>
      cases value with
      | null =>
          cases read
          cases decoded
          exact first
      | object listed =>
          cases read
          refine members listed ?_ decoded first
          simpa [ProfileRequestPayload.containsAny] using filtered
      | bool _ => cases read
      | integer _ => cases read
      | decimal _ => cases read
      | string _ => cases read
      | array _ => cases read

/-- A patch that passes the filter for managed specs names no catalog field. -/
theorem managed_patch_filtered {body : Option Json} {payload : ProfileRequestPayload}
    {input : PatchProfileRequest} (read : readProfileRequestPayload body = some payload)
    (filtered : payload.containsAny catalogFields = false)
    (decoded : payload.decode patchFields {} = some input) :
    input.labels = none ∧ input.requiredLabels = none ∧ input.templateID = none ∧
      input.runnerGroup = none ∧ input.priority = none := by
  refine decode_filtered (fun input => input.labels = none ∧ input.requiredLabels = none ∧
    input.templateID = none ∧ input.runnerGroup = none ∧ input.priority = none) read filtered decoded
    ⟨rfl, rfl, rfl, rfl, rfl⟩ ?_
  intro field member free value input next set held
  simp only [patchFields, List.mem_cons, List.not_mem_nil, or_false] at member
  rcases member with rfl | rfl | rfl | rfl | rfl | rfl | rfl | rfl
  all_goals first
    | exact absurd (by decide) free
    | (obtain ⟨_, _, rfl⟩ := Option.map_eq_some_iff.mp set
       exact held)

end Filter

end Runnerd
