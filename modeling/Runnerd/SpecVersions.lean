import Runnerd.SpecRequests

/-!
`updated_at` as the version of a spec. While requests only create and patch
specs, each version of a row is above the one it replaces, so two saves on one
version cannot both succeed, whatever the clocks of the requests show.
-/

namespace Runnerd

open GoText Interaction Interleaving

section Steps
variable {lower : String → String} {precision : ColumnPrecision} {choice : SpecChoice}
variable {state after : SpecState}

/-- Everything that an answered call does to the state. -/
inductive SpecStep (lower : String → String) (precision : ColumnPrecision) (choice : SpecChoice)
    (before : SpecState) : SpecOp → SpecState → Prop where
  | reconciled {profiles : List SpecProfile} {after : SpecState} (idle : before.serving = false)
      (store : after.toSpecStore = (reconcileManagedProfiles lower precision.keep choice.reconcile
        profiles before.toSpecStore).2) :
      SpecStep lower precision choice before (.reconcile profiles) after
  | unchanged {op : SpecOp} (serving : before.serving = true) :
      SpecStep lower precision choice before op before
  | saved {action : String} {profile : SpecProfile} {expected : Option Time} {after : SpecState}
      (serving : before.serving = true) (still : after.serving = true)
      (saved : Saved (profileRecord precision (savedAt choice.write.now expected) profile)
        before.specs expected after.specs) :
      SpecStep lower precision choice before (.saveProfile action profile expected) after
  | deleted {name : String} {after : SpecState} (serving : before.serving = true)
      (still : after.serving = true)
      (specs : after.specs = SpecTable.deleteProfile before.specs name) :
      SpecStep lower precision choice before (.deleteProfile name) after

theorem save_answered {action : String} {profile : SpecProfile} {expected : Option Time}
    {answer : Except MutationError SpecProfile}
    (answered : respondSpecs lower precision choice state (.saveProfile action profile expected) =
      some (answer, after)) :
    state.serving = true ∧ ((∃ saved, answer = .ok saved ∧ after.serving = true ∧
        Saved (profileRecord precision (savedAt choice.write.now expected) profile)
          state.specs expected after.specs) ∨
      ∃ err, answer = .error err ∧ SaveFails lower choice.write profile err ∧ after = state) := by
  by_cases serving : state.serving = true
  · simp only [respondSpecs, if_pos serving] at answered
    cases ran : saveTransaction lower precision choice.write action profile expected
        state.toSpecStore with
    | error err =>
        rw [ran] at answered
        cases answered
        exact ⟨serving, .inr ⟨err, rfl, saveTransaction_error ran, rfl⟩⟩
    | ok pair =>
        obtain ⟨saved, store⟩ := pair
        rw [ran] at answered
        cases answered
        exact ⟨serving, .inl ⟨saved, rfl, serving, saveTransaction_ok ran⟩⟩
  · simp only [respondSpecs, if_neg serving] at answered
    cases answered

theorem respondSpecs_step {op : SpecOp} {resp : op.Resp}
    (answered : respondSpecs lower precision choice state op = some (resp, after)) :
    SpecStep lower precision choice state op after := by
  by_cases serving : state.serving = true
  · cases op with
    | reconcile profiles =>
        simp only [respondSpecs, if_pos serving] at answered
        cases answered
    | getProfile name =>
        simp only [respondSpecs, if_pos serving] at answered
        cases fault : choice.read with
        | none =>
            simp only [fault] at answered
            cases answered
            exact .unchanged serving
        | some err =>
            simp only [fault] at answered
            cases answered
            exact .unchanged serving
    | validateTemplate templateID =>
        simp only [respondSpecs, if_pos serving] at answered
        cases answered
        exact .unchanged serving
    | saveProfile action profile expected =>
        obtain ⟨_, ⟨saved, rfl, still, wrote⟩ | ⟨err, rfl, _, rfl⟩⟩ := save_answered answered
        · exact .saved serving still wrote
        · exact .unchanged serving
    | deleteProfile name =>
        simp only [respondSpecs, if_pos serving] at answered
        cases ran : deleteTransaction precision choice.write name state.toSpecStore with
        | error err =>
            rw [ran] at answered
            cases answered
            exact .unchanged serving
        | ok pair =>
            obtain ⟨_, store⟩ := pair
            rw [ran] at answered
            cases answered
            exact .deleted serving serving (deleteTransaction_ok ran)
  · -- before the server serves, only the catalog is reconciled
    cases op with
    | reconcile profiles =>
        simp only [respondSpecs, if_neg serving, Option.some.injEq] at answered
        refine .reconciled (Bool.not_eq_true _ |>.mp serving) ?_
        cases ran : reconcileManagedProfiles lower precision.keep choice.reconcile profiles
            state.toSpecStore with
        | mk result store =>
            rw [ran] at answered
            cases result with
            | error err =>
                cases answered
                rfl
            | ok conflicts =>
                cases answered
                rfl
    | getProfile name =>
        simp only [respondSpecs, if_neg serving] at answered
        cases answered
    | validateTemplate templateID =>
        simp only [respondSpecs, if_neg serving] at answered
        cases answered
    | saveProfile action profile expected =>
        exact absurd (save_answered answered).1 serving
    | deleteProfile name =>
        simp only [respondSpecs, if_neg serving] at answered
        cases answered

end Steps

section Versions
variable {lower : String → String} {precision : ColumnPrecision}

/-- Every version is an instant that the column can keep. -/
def VersionsKept (precision : ColumnPrecision) (specs : SpecTable) : Prop :=
  ∀ row ∈ specs.rows, precision.unit ∣ row.updatedAt

/-- Each row stays, as it is or in a later version. -/
def SpecsAdvance (before after : SpecTable) : Prop :=
  ∀ old ∈ before.rows, ∃ new ∈ after.rows,
    new.name = old.name ∧ (new = old ∨ old.updatedAt < new.updatedAt)

theorem SpecsAdvance.refl (specs : SpecTable) : SpecsAdvance specs specs :=
  fun row member => ⟨row, member, rfl, .inl rfl⟩

theorem Reconciled.versionsKept {now : Time} {profile : SpecProfile}
    {before after : Reconciliation} (reconciled : Reconciled precision.keep now profile before after)
    (kept : VersionsKept precision before.specs) : VersionsKept precision after.specs := by
  cases reconciled with
  | conflict => exact kept
  | current => exact kept
  | created _ inserted =>
      obtain ⟨_, rows⟩ := KeyedTable.insert_some inserted
      intro row member
      rw [rows, List.mem_append, List.mem_singleton] at member
      rcases member with old | rfl
      · exact kept row old
      · exact precision.kept now
  | upgraded found owned older =>
      intro row member
      obtain ⟨old, present, rfl⟩ := KeyedTable.mem_update.mp member
      split
      · exact precision.kept now
      · exact kept old present

theorem Saved.versionsKept {now : Time} {profile : SpecProfile} {expected : Option Time}
    {before after : SpecTable}
    (saved : Saved (profileRecord precision now profile) before expected after)
    (kept : VersionsKept precision before) : VersionsKept precision after := by
  intro row member
  cases saved with
  | inserted _ rows =>
      rw [rows, List.mem_append, List.mem_singleton] at member
      rcases member with old | rfl
      · exact kept row old
      · exact precision.kept now
  | replaced found =>
      obtain ⟨old, present, rfl⟩ := KeyedTable.mem_update.mp member
      split
      · exact precision.kept now
      · exact kept old present

theorem Saved.advances {now : Time} {profile : SpecProfile} {expected : Option Time}
    {before after : SpecTable}
    (saved : Saved (profileRecord precision (savedAt now expected) profile) before expected after)
    (kept : VersionsKept precision before) : SpecsAdvance before after := by
  intro old member
  cases saved with
  | inserted _ rows =>
      refine ⟨old, ?_, rfl, .inl rfl⟩
      rw [rows]
      exact List.mem_append_left _ member
  | @replaced base found =>
      refine ⟨_, KeyedTable.mem_update.mpr ⟨old, member, rfl⟩, ?_⟩
      by_cases matched : unchangedSince (profileRecord precision
          (savedAt now (some base.updatedAt)) profile).name base.updatedAt old = true
      · obtain ⟨_, same⟩ := of_decide_eq_true matched
        rw [if_pos matched]
        refine ⟨rfl, .inr ?_⟩
        rw [same]
        exact savedAt_increases (same ▸ kept old member)
      · rw [if_neg matched]
        exact ⟨rfl, .inl rfl⟩

/-- A save on this version can no longer succeed. -/
def Superseded (name : String) (expected : Option Time) (specs : SpecTable) : Prop :=
  ∃ row ∈ specs.rows, row.name = name ∧ ∀ instant ∈ expected, instant < row.updatedAt

theorem Superseded.later {name : String} {expected : Option Time} {before after : SpecTable}
    (superseded : Superseded name expected before) (advances : SpecsAdvance before after) :
    Superseded name expected after := by
  obtain ⟨row, member, named, above⟩ := superseded
  obtain ⟨new, present, same, step⟩ := advances row member
  refine ⟨new, present, same.trans named, fun instant wanted => ?_⟩
  rcases step with rfl | higher
  · exact above instant wanted
  · exact (above instant wanted).trans higher

theorem Saved.notSuperseded {row : RunnerProfileRecord} {expected : Option Time}
    {before after : SpecTable} (saved : Saved row before expected after) :
    ¬Superseded row.name expected before := by
  rintro ⟨old, member, named, above⟩
  cases saved with
  | inserted absent _ => exact KeyedTable.find_none.mp absent old member named
  | @replaced base found =>
      obtain ⟨present, same⟩ := KeyedTable.find_some.mp found
      obtain rfl : old = base := before.same_row member present (named.trans same.symm)
      exact lt_irrefl _ (above _ rfl)

theorem Saved.superseded {now : Time} {profile : SpecProfile} {expected : Option Time}
    {before after : SpecTable}
    (saved : Saved (profileRecord precision (savedAt now expected) profile) before expected after)
    (kept : VersionsKept precision before) :
    Superseded (trimSpace profile.name) expected after := by
  cases saved with
  | inserted _ rows =>
      refine ⟨profileRecord precision (savedAt now none) profile, ?_, rfl, fun _ wanted => by
        cases wanted⟩
      rw [rows]
      exact List.mem_append_right _ (List.mem_singleton_self _)
  | @replaced base found =>
      obtain ⟨present, named⟩ := KeyedTable.find_some.mp found
      have matched : unchangedSince (profileRecord precision (savedAt now (some base.updatedAt))
          profile).name base.updatedAt base = true := by
        simp [unchangedSince, named]
      refine ⟨_, KeyedTable.mem_update.mpr ⟨base, present, rfl⟩, ?_⟩
      rw [if_pos matched]
      refine ⟨named, fun instant wanted => ?_⟩
      cases wanted
      exact savedAt_increases (kept base present)

end Versions

section Runs
variable {lower : String → String} {precision : ColumnPrecision}
variable {condition : SpecWorld → SpecMove → Prop} {world later : SpecWorld}

/-- No request other than a create or a patch is answered. -/
def savesOnly (world : SpecWorld) : SpecMove → Bool
  | .run tid _ => (world.threads[tid]?).all fun thread => thread.task.saves
  | _ => true

def SavesOnly (world : SpecWorld) (move : SpecMove) : Prop := savesOnly world move = true

/-- The event is a save of the name on this version that went through. -/
def overwrote (name : String) (expected : Option Time)
    (event : Event SpecOp SpecOp.Resp SpecTask) : Bool :=
  match event.call with
  | ⟨.saveProfile _ profile based, .ok _⟩ => decide (trimSpace profile.name = name ∧ based = expected)
  | _ => false

theorem specs_obey (reaches : (specMachine lower precision).Reaches condition emptySpecs world) :
    Machine.Obeys specContract world := by
  refine Machine.obeys_reachable (fun task => specTask_keeps task) ?_ reaches
  constructor
  · intro tid thread live
    cases live
  · intro tid thread live
    cases live

theorem versionsKept_reachable
    (reaches : (specMachine lower precision).Reaches condition emptySpecs world) :
    VersionsKept precision world.state.specs := by
  induction reaches with
  | refl =>
      intro row member
      cases member
  | step move _ _ stepped ih =>
      obtain ⟨tid, choice, thread, op, resp, rest, state, rfl, acts, rfl⟩ | ⟨task, rfl, _, rfl⟩ |
        ⟨rfl, rfl⟩ := (specMachine lower precision).step_cases stepped
      · cases respondSpecs_step acts.answer with
        | reconciled idle store =>
            change VersionsKept precision state.specs
            rw [store]
            exact reconcileManagedProfiles_preserves Reconciled.versionsKept ih
        | unchanged => exact ih
        | saved _ _ saved => exact saved.versionsKept ih
        | deleted _ _ specs =>
            change VersionsKept precision state.specs
            rw [specs]
            exact fun row member => ih row (KeyedTable.mem_erase.mp member).1
      · exact ih
      · exact ih

variable {tid : Nat} {choice : SpecChoice} {thread : Thread SpecOp SpecOp.Resp SpecTask}
variable {op : SpecOp} {resp : op.Resp} {rest : SpecAction Unit} {state : SpecState}

/-- One answered call of a create or a patch. -/
theorem saving_advances (obeys : Machine.Obeys specContract world)
    (kept : VersionsKept precision world.state.specs)
    (acts : (specMachine lower precision).Acts world tid choice thread op resp rest state)
    (saves : thread.task.saves = true) : SpecsAdvance world.state.specs state.specs := by
  have permitted := obeys.permits acts
  cases respondSpecs_step acts.answer with
  | reconciled =>
      have starts : thread.task.starts = true := permitted
      cases task : thread.task <;> simp [task, SpecTask.saves, SpecTask.starts] at saves starts
  | unchanged => exact SpecsAdvance.refl _
  | saved _ _ saved => exact saved.advances kept
  | deleted =>
      have deletes : thread.task.deletes = true := permitted.1
      cases task : thread.task <;> simp [task, SpecTask.saves, SpecTask.deletes] at saves deletes

theorem savesOnly_task (only : SavesOnly world (.run tid choice))
    (live : world.threads[tid]? = some thread) : thread.task.saves = true := by
  simpa [SavesOnly, savesOnly, live] using only

theorem savesOnly_advances
    (reaches : (specMachine lower precision).Reaches condition emptySpecs world)
    {move : SpecMove} (only : SavesOnly world move)
    (stepped : (specMachine lower precision).step world move = some later) :
    SpecsAdvance world.state.specs later.state.specs := by
  obtain ⟨tid, choice, thread, op, resp, rest, state, rfl, acts, rfl⟩ | ⟨task, rfl, _, rfl⟩ |
    ⟨rfl, rfl⟩ := (specMachine lower precision).step_cases stepped
  · exact saving_advances (specs_obey reaches) (versionsKept_reachable reaches) acts
      (savesOnly_task only acts.live)
  · exact SpecsAdvance.refl _
  · exact SpecsAdvance.refl _

/-- What the events since some world say of the versions that stand. -/
structure OncePerVersion (events : List (Event SpecOp SpecOp.Resp SpecTask))
    (specs : SpecTable) : Prop where
  once : ∀ name expected, events.countP (overwrote name expected) ≤ 1
  gone : ∀ name expected, 0 < events.countP (overwrote name expected) →
    Superseded name expected specs

theorem OncePerVersion.advance {events : List (Event SpecOp SpecOp.Resp SpecTask)}
    {before after : SpecTable} (perVersion : OncePerVersion events before)
    (advances : SpecsAdvance before after) : OncePerVersion events after where
  once := perVersion.once
  gone name expected some_ := (perVersion.gone name expected some_).later advances

theorem OncePerVersion.event {events : List (Event SpecOp SpecOp.Resp SpecTask)}
    {event : Event SpecOp SpecOp.Resp SpecTask} {before after : SpecTable}
    (perVersion : OncePerVersion events before) (advances : SpecsAdvance before after)
    (saved : ∀ name expected, overwrote name expected event = true →
      ¬Superseded name expected before ∧ Superseded name expected after) :
    OncePerVersion (event :: events) after := by
  constructor
  · intro name expected
    rw [List.countP_cons]
    by_cases hit : overwrote name expected event = true
    · have fresh : events.countP (overwrote name expected) = 0 := by
        by_contra some_
        exact (saved name expected hit).1
          (perVersion.gone name expected (Nat.pos_of_ne_zero some_))
      rw [if_pos hit, fresh]
    · rw [if_neg hit]
      exact perVersion.once name expected
  · intro name expected some_
    by_cases hit : overwrote name expected event = true
    · exact (saved name expected hit).2
    · rw [List.countP_cons, if_neg hit] at some_
      exact (perVersion.gone name expected some_).later advances

theorem acts_overwrote (kept : VersionsKept precision world.state.specs)
    (acts : (specMachine lower precision).Acts world tid choice thread op resp rest state)
    (name : String) (expected : Option Time)
    (hit : overwrote name expected ⟨tid, thread.task, ⟨op, resp⟩⟩ = true) :
    ¬Superseded name expected world.state.specs ∧ Superseded name expected state.specs := by
  cases op with
  | saveProfile action profile based =>
      obtain ⟨_, ⟨saved, rfl, _, wrote⟩ | ⟨err, rfl, _, _⟩⟩ := save_answered acts.answer
      · obtain ⟨rfl, rfl⟩ := of_decide_eq_true hit
        exact ⟨wrote.notSuperseded, wrote.superseded kept⟩
      · cases hit
  | reconcile profiles => cases hit
  | getProfile name => cases hit
  | validateTemplate templateID => cases hit
  | deleteProfile name => cases hit

theorem oncePerVersion_reachable
    (reaches : (specMachine lower precision).Reaches condition emptySpecs world)
    (saving : (specMachine lower precision).Reaches SavesOnly world later) :
    ∃ events, later.trace = events ++ world.trace ∧ OncePerVersion events later.state.specs := by
  induction saving with
  | refl =>
      refine ⟨[], rfl, fun name expected => Nat.zero_le _, fun name expected some_ => ?_⟩
      cases some_
  | @step middle after move before only stepped ih =>
      have reached : (specMachine lower precision).Reaches (fun _ _ => True) emptySpecs middle :=
        (reaches.weaken fun _ _ _ => trivial).trans (before.weaken fun _ _ _ => trivial)
      have advances := savesOnly_advances reached only stepped
      obtain ⟨events, trace, perVersion⟩ := ih
      obtain ⟨tid, choice, thread, op, resp, rest, state, rfl, acts, rfl⟩ | ⟨task, rfl, _, rfl⟩ |
        ⟨rfl, rfl⟩ := (specMachine lower precision).step_cases stepped
      · exact ⟨_ :: events, congrArg (List.cons _) trace, perVersion.event advances
          (acts_overwrote (versionsKept_reachable reached) acts)⟩
      · exact ⟨events, trace, perVersion.advance advances⟩
      · exact ⟨events, trace, perVersion.advance advances⟩

/-- What holds in every world that creates and patches reach from `world`. -/
structure NoLostUpdates (lower : String → String) (precision : ColumnPrecision)
    (world later : SpecWorld) : Prop where
  advances : ∀ move after, SavesOnly later move →
    (specMachine lower precision).step later move = some after →
    SpecsAdvance later.state.specs after.state.specs
  once : ∃ events, later.trace = events ++ world.trace ∧
    ∀ name expected, events.countP (overwrote name expected) ≤ 1
  inserts : ∀ tid choice thread action profile answer rest state,
    (specMachine lower precision).Acts later tid choice thread (.saveProfile action profile none)
      (.ok answer) rest state → later.state.specs.find (trimSpace profile.name) = none
  observed : ∀ tid choice thread action profile expected resp rest state,
    (specMachine lower precision).Acts later tid choice thread
      (.saveProfile action profile expected) resp rest state → Based thread.past profile expected
  rejects : ∀ tid choice thread action profile expected err rest state,
    (specMachine lower precision).Acts later tid choice thread
      (.saveProfile action profile expected) (.error err) rest state →
    SaveFails lower choice.write profile err ∧ state = later.state

theorem saves_no_lost_updates (lower : String → String) (precision : ColumnPrecision)
    {world later : SpecWorld}
    (reaches : (specMachine lower precision).Reaches (fun _ _ => True) emptySpecs world)
    (saving : (specMachine lower precision).Reaches SavesOnly world later) :
    NoLostUpdates lower precision world later := by
  have reached : (specMachine lower precision).Reaches (fun _ _ => True) emptySpecs later :=
    reaches.trans (saving.weaken fun _ _ _ => trivial)
  constructor
  · intro move after only stepped
    exact savesOnly_advances reached only stepped
  · obtain ⟨events, trace, perVersion⟩ := oncePerVersion_reachable reaches saving
    exact ⟨events, trace, perVersion.once⟩
  · intro tid choice thread action profile answer rest state acts
    obtain ⟨_, ⟨saved, _, _, wrote⟩ | ⟨err, failed, _⟩⟩ := save_answered acts.answer
    · cases wrote with
      | inserted absent _ => exact absent
    · cases failed
  · intro tid choice thread action profile expected resp rest state acts
    exact ((specs_obey reached).permits acts).2
  · intro tid choice thread action profile expected err rest state acts
    obtain ⟨_, ⟨saved, succeeded, _⟩ | ⟨_, failed, fails, same⟩⟩ := save_answered acts.answer
    · cases succeeded
    · cases failed
      exact ⟨fails, same⟩

/-- `DATETIME(3)` that cuts off what it cannot keep. -/
def millisecondColumn : ColumnPrecision where
  unit := millisecond
  fine := Int.dvd_refl _
  keep instant := instant / millisecond * millisecond
  kept instant := Int.dvd_mul_left _ _
  exact instant whole := Int.ediv_mul_cancel whole
  monotone first second ordered :=
    Int.mul_le_mul_of_nonneg_right (Int.ediv_le_ediv (by decide) ordered) (by decide)

/-- A server starts on an empty catalog and stores one spec. -/
def oneSpecMoves : List SpecMove :=
  [.start (.startup []), .run 0 {},
   .start (.create (some (.object [("name", .string "large"), ("template_id", .string "base")]))),
   .run 1 {}, .run 1 {}, .run 1 { write := { now := 5000700 } }]

/-- Two patches of that spec, both read before either saves, by clocks that stand
behind the stored version. -/
def racingPatches : List SpecMove :=
  [.start (.patch "large" (some (.object [("min_idle", .integer 1)]))),
   .start (.patch "large" (some (.object [("min_idle", .integer 2)]))),
   .run 2 {}, .run 3 {}, .run 3 { write := { now := 100 } }, .run 2 { write := { now := 200 } }]

theorem saves_no_lost_updates_racing :
    ∃ world later, NoLostUpdates toLower millisecondColumn world later ∧
      later.state.specs.rows.map (fun row => (row.minIdle, row.updatedAt)) = [(2, 6000000)] ∧
      later.trace.length = 8 := by
  have ran : ((specMachine toLower millisecondColumn).runChecked (fun _ _ => true) oneSpecMoves
      emptySpecs).any (fun world => ((specMachine toLower millisecondColumn).runChecked savesOnly
        racingPatches world).any fun later =>
          decide (later.state.specs.rows.map (fun row => (row.minIdle, row.updatedAt)) =
            [(2, 6000000)] ∧ later.trace.length = 8)) = true := by decide +kernel
  obtain ⟨world, first, second⟩ := (Option.any_eq_true _ _).mp ran
  obtain ⟨later, second, found⟩ := (Option.any_eq_true _ _).mp second
  have reaches : (specMachine toLower millisecondColumn).Reaches (fun _ _ => True) emptySpecs
      world := (Machine.reaches_checked .refl first).weaken fun _ _ _ => trivial
  exact ⟨world, later,
    saves_no_lost_updates toLower millisecondColumn reaches (Machine.reaches_checked .refl second),
    of_decide_eq_true found⟩

end Runs

end Runnerd
