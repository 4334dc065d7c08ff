import Runnerd.Admissions
import Runnerd.Changes
import Runnerd.Replay
import Runnerd.RetryBodies

/-!
The name of a runner and the id of its request. Both are made of one text, each
by a function of its own, and a webhook about the runner gives the name only.
`stripped_name` takes the id back out of the name.
-/

namespace Runnerd

open GoText Interaction Interleaving Versioned

section Texts

theorem rdropWhile_blank_end {runes : List Char} (rune : Char) (blank : isSpace rune = true) :
    (runes ++ [rune]).rdropWhile isSpace = runes.rdropWhile isSpace :=
  List.rdropWhile_concat_pos _ _ _ blank

/-- The blanks at the end may be dropped first. -/
theorem trimRunes_rdropWhile (runes : List Char) :
    trimRunes (runes.rdropWhile isSpace) = trimRunes runes := by
  induction runes using List.reverseRecOn with
  | nil => rfl
  | append_singleton runes rune ih =>
      by_cases blank : isSpace rune = true
      · rw [rdropWhile_blank_end rune blank, ih, trimRunes, trimRunes, List.dropWhile_append]
        split
        · rename_i empty
          rw [List.isEmpty_iff] at empty
          simp [empty, blank]
        · rw [rdropWhile_blank_end rune blank]
      · rw [List.rdropWhile_concat_neg _ _ _ blank]

/-- A blank is no slash and no dash. -/
theorem isSpace_replaced {old : Char} (solid : isSpace old = false) (rune : Char) :
    isSpace (if rune = old then '-' else rune) = isSpace rune := by
  split
  · rename_i same
    rw [same, solid]
    decide
  · rfl

theorem trimRunes_replaceRune {old : Char} (solid : isSpace old = false) (runes : List Char) :
    trimRunes (replaceRune old '-' runes) = replaceRune old '-' (trimRunes runes) := by
  have same : isSpace ∘ (fun rune => if rune = old then '-' else rune) = isSpace :=
    funext (isSpace_replaced solid)
  rw [trimRunes, replaceRune, List.dropWhile_map, same, List.rdropWhile, ← List.map_reverse,
    List.dropWhile_map, same, ← List.map_reverse]
  rfl

theorem replaceRune_idem (old : Char) (other : old ≠ '-') (runes : List Char) :
    replaceRune old '-' (replaceRune old '-' runes) = replaceRune old '-' runes := by
  apply replaceRune_absent
  exact fun member => (replaceRune_removes old '-' old runes other member).1 rfl

/-- Both slashes become dashes. -/
def dashed (runes : List Char) : List Char :=
  replaceRune '\\' '-' (replaceRune '/' '-' runes)

theorem dashed_idem (runes : List Char) : dashed (dashed runes) = dashed runes := by
  have absent : '/' ∉ dashed runes := by
    intro member
    obtain ⟨-, dash | inner⟩ := replaceRune_removes '\\' '-' '/' _ (by decide) member
    · cases dash
    · exact (replaceRune_removes '/' '-' '/' runes (by decide) inner).1 rfl
  rw [dashed, replaceRune_absent '/' '-' _ absent, dashed, replaceRune_idem '\\' (by decide)]

theorem trimRunes_dashed (runes : List Char) : trimRunes (dashed runes) = dashed (trimRunes runes) := by
  rw [dashed, trimRunes_replaceRune (by decide), trimRunes_replaceRune (by decide), dashed]

theorem sanitizeRunes_dashed (runes : List Char) :
    sanitizeRunes (dashed (runes.rdropWhile isSpace)) = sanitizeRunes runes := by
  change replaceDots (dashed (trimRunes (dashed (runes.rdropWhile isSpace)))) =
    replaceDots (dashed (trimRunes runes))
  rw [trimRunes_dashed, dashed_idem, trimRunes_rdropWhile]

/-- The prefix stays in front, and only the id's own end is trimmed. -/
theorem prefixed_name (id : String) : (sanitizeRunnerName ("e2b-" ++ id)).toList =
    "e2b-".toList ++ dashed (id.toList.rdropWhile isSpace) := by
  have trimmed : trimRunes ("e2b-".toList ++ id.toList) =
      "e2b-".toList ++ id.toList.rdropWhile isSpace := by
    have front : ("e2b-".toList ++ id.toList).dropWhile isSpace = "e2b-".toList ++ id.toList := rfl
    rw [trimRunes, front]
    generalize id.toList = runes
    induction runes using List.reverseRecOn with
    | nil => decide
    | append_singleton runes rune ih =>
        by_cases blank : isSpace rune = true
        · rw [← List.append_assoc, rdropWhile_blank_end rune blank, rdropWhile_blank_end rune blank,
            ih]
        · rw [← List.append_assoc, List.rdropWhile_concat_neg _ _ _ blank,
            List.rdropWhile_concat_neg _ _ _ blank, List.append_assoc]
  rw [sanitizeRunnerName, String.toList_ofList, String.toList_append, trimmed]
  simp [dashed, replaceRune]

theorem name_prefixed (id : String) : hasPrefix (sanitizeRunnerName ("e2b-" ++ id)) "e2b-" = true := by
  rw [hasPrefix, prefixed_name, List.isPrefixOf_iff_prefix]
  exact List.prefix_append _ _

/-- The id comes back out of the name, up to what the store makes of it. -/
theorem stripped_name (id : String) :
    sanitizeID (trimPrefix (sanitizeRunnerName ("e2b-" ++ id)) "e2b-") = sanitizeID id := by
  rw [trimPrefix, if_pos (name_prefixed id), prefixed_name, List.drop_left, sanitizeID,
    String.toList_ofList, sanitizeRunes_dashed, sanitizeID]

theorem sanitizeRunnerName_idem (name : String) :
    sanitizeRunnerName (sanitizeRunnerName name) = sanitizeRunnerName name := by
  have runes : (sanitizeRunnerName name).toList = dashed (trimRunes name.toList) :=
    String.toList_ofList
  have again : trimRunes (dashed (trimRunes name.toList)) = dashed (trimRunes name.toList) := by
    rw [trimRunes_dashed, trimRunes_of_trimmed _ (trimRunes_trimmed _)]
  rw [sanitizeRunnerName, runes, again]
  exact congrArg String.ofList (dashed_idem _)

/-- No two dots in a row are left. -/
theorem replaceDots_separate (runes : List Char) : ¬ ['.', '.'] <:+: replaceDots runes := by
  fun_induction replaceDots runes with
  | case1 rest ih =>
      rw [List.infix_cons_iff]
      rintro (start | inside)
      · cases List.cons_prefix_cons.mp start |>.1
      · exact ih inside
  | case2 first rest separate ih =>
      rw [List.infix_cons_iff]
      rintro (start | inside)
      · -- the second dot would be the head of what is left, and then of the text
        obtain ⟨rfl, tail⟩ := List.cons_prefix_cons.mp start
        have next : '.' ∈ (replaceDots rest).head? := by
          cases kept : replaceDots rest with
          | nil => simp [kept] at tail
          | cons head more =>
              rw [kept, List.cons_prefix_cons] at tail
              rw [← tail.1]
              rfl
        rcases replaceDots_head rest '.' next with dash | here
        · cases dash
        · cases rest with
          | nil => cases here
          | cons head more => exact separate more rfl (by simpa using here)
      · exact ih inside
  | case3 => simp

/-- A sanitised id can stand in a path. -/
theorem sanitizeID_clean (id : String) : '/' ∉ (sanitizeID id).toList ∧
    '\\' ∉ (sanitizeID id).toList ∧ contains (sanitizeID id) ".." = false := by
  have runes : (sanitizeID id).toList = sanitizeRunes id.toList := String.toList_ofList
  rw [runes]
  refine ⟨fun member => (sanitizeRunes_mem _ _ member).1 rfl,
    fun member => (sanitizeRunes_mem _ _ member).2 rfl, ?_⟩
  rw [← Bool.not_eq_true, contains_iff, runes]
  exact replaceDots_separate _

end Texts

section Rows

/-- The row's id and name are made of one text. -/
def Named (row : RunnerRequestRecord) : Prop :=
  ∃ id, row.id = sanitizeID id ∧ row.runnerName = sanitizeRunnerName ("e2b-" ++ id)

/-- A completed job that names the row's runner leads back to the row. -/
def FoundByName (table : RequestTable) (row : RunnerRequestRecord) : Prop :=
  ∃ recovered, (∀ job : WorkflowJob, job.runnerName = row.runnerName →
      completedWorkflowJobStopID job = return recovered) ∧
    readRecord table recovered = .ok row

theorem readRecord_row {table : RequestTable} {row : RunnerRequestRecord} (here : row ∈ table.rows)
    {id : String} (same : sanitizeID id = row.id) : readRecord table id = .ok row := by
  rw [readRecord, same]
  cases found : table.find row.id with
  | none =>
      rw [RequestTable.find, List.find?_eq_none] at found
      exact absurd (beq_self_eq_true row.id) (found row here)
  | some other =>
      obtain ⟨there, key⟩ := RequestTable.find_some found
      rw [table.same_row there here key]

theorem Named.found {table : RequestTable} {row : RunnerRequestRecord} (named : Named row)
    (here : row ∈ table.rows) : FoundByName table row := by
  obtain ⟨id, key, name⟩ := named
  refine ⟨trimPrefix row.runnerName "e2b-", ?_, ?_⟩
  · intro job ran
    have prefixed : hasPrefix row.runnerName "e2b-" = true := by
      rw [name]
      exact name_prefixed id
    rw [completedWorkflowJobStopID, ran, if_pos prefixed]
  · apply readRecord_row here
    rw [name, stripped_name, key]

/-- The request has its runner named after it. -/
def NamedRequest (req : RunnerRequest) : Prop := req.runnerName = "e2b-" ++ req.id

theorem manualRequest_named (id repository profileName runnerGroup : String)
    (labels requestedLabels : List String) :
    NamedRequest (manualRequest id repository profileName runnerGroup labels requestedLabels) := by
  simp only [NamedRequest, manualRequest]

theorem admittedRecord_named {req : RunnerRequest} (named : NamedRequest req) (now : Time)
    (links : GitHubContext) (status : Status) (stage reason message : String) :
    Named (admittedRecord now req links status stage reason message) := by
  have present : sanitizeRunnerName req.runnerName ≠ "" := by
    intro empty
    have prefixed := name_prefixed req.id
    rw [NamedRequest] at named
    rw [← named, empty] at prefixed
    cases prefixed
  refine ⟨req.id, rfl, ?_⟩
  simp only [admittedRecord, if_neg present]
  rw [named]

/-- A request that is accepted, new or known, answers with a row that its runner's
name leads back to. -/
theorem createRequest_found {table next : RequestTable} (rows : ∀ row ∈ table.rows, Named row)
    {req : RunnerRequest} (named : NamedRequest req) {now : Time} {links : GitHubContext}
    {status : Status} {stage reason message : String} {created : Bool} {st : RunnerState}
    (accepted : createRequest now table req links status stage reason message =
      (.ok (created, st), next)) :
    ∃ row, readRecord next req.id = .ok row ∧ recordToState row = st ∧ FoundByName next row := by
  unfold createRequest at accepted
  split at accepted
  · cases accepted
  · dsimp only at accepted
    split at accepted
    · rename_i inserted
      simp only [Prod.mk.injEq, Except.ok.injEq] at accepted
      obtain ⟨⟨_, rfl⟩, rfl⟩ := accepted
      have here : admittedRecord now req links status stage reason message ∈ _ :=
        RequestTable.insert_rows inserted ▸ List.mem_append_right _ (List.mem_singleton_self _)
      exact ⟨_, readRecord_row here rfl, rfl,
        (admittedRecord_named named now links status stage reason message).found here⟩
    · split at accepted
      · rename_i existing found
        cases accepted
        obtain ⟨here, key⟩ := RequestTable.find_some found
        exact ⟨existing, readRecord_row here key.symm, rfl, (rows existing here).found here⟩
      · cases accepted

end Rows

section Edits
variable {server : Server} {past : List Answered}

/-- The name of a row, as the store would write it. -/
def storedName (st : RunnerState) : String := sanitizeRunnerName st.runnerName

theorem storedName_written (st : RunnerState) (now : Time) (row : RunnerRequestRecord) :
    storedName (stateUpdates st now row).toRunnerState = storedName st.advanced := by
  simp only [storedName, stateUpdates, RunnerState.advanced, sanitizeRunnerName_idem]

/-- No edit renames a runner. -/
theorem edit_name {writer : Writer} {base st : RunnerState}
    (edit : Edit server past writer base st) : st.runnerName = base.runnerName := by
  by_cases quiet : writer ≠ .startSnapshot ∧ writer ≠ .failStart
  · exact congrArg Prod.fst (edit_columns edit quiet)
  · cases edit with
    | startSnapshot reads service => rfl
    | failStart unstopped known err now =>
        exact congrArg Prod.fst (applyFailure_columns _ _ _ _ _)
    | @failSnapshot base service refused err now =>
        exact congrArg Prod.fst
          (applyFailure_columns server.cfg now (snapshotState base service) "sandbox_config" err)
    | _ => simp at quiet

end Edits

section Programs
variable (server : Server)

/-- Whoever adds a row has named the runner after it. -/
def NamesRunner : Op → Prop
  | .createRequest req _ _ _ _ _ => NamedRequest req
  | _ => True

theorem enqueueRunnerRequest_names {req : RunnerRequest} (named : NamedRequest req)
    (links : GitHubContext) : Calls NamesRunner (enqueueRunnerRequest req links) := by
  refine calls_call trivial fun _ => calls_call trivial fun answer => ?_
  cases answer with
  | ok st => exact calls_call trivial fun _ => calls_return
  | error err =>
      refine calls_call named fun answer => calls_call trivial fun _ => ?_
      cases answer with
      | error err => exact calls_return
      | ok created => exact calls_return

theorem handleCreateRunner_names (input : ManualCreateRequest) (newID : String) :
    Calls NamesRunner (handleCreateRunner server input newID) := by
  have enqueues (repository profileName runnerGroup : String) (labels requestedLabels : List String) :
      Calls NamesRunner (do let _ ← enqueueRunnerRequest (manualRequest (manualID input newID)
        repository profileName runnerGroup labels requestedLabels) {}) :=
    calls_seq (enqueueRunnerRequest_names (manualRequest_named _ _ _ _ _ _) _) fun _ => calls_return
  unfold handleCreateRunner
  dsimp only
  split
  · exact calls_return
  · split
    · exact calls_return
    · split
      · split
        · exact calls_return
        · refine calls_call trivial fun answer => ?_
          rcases answer with err | _ | profile
          · exact calls_return
          · exact calls_return
          · exact enqueues _ _ _ _ _
      · refine calls_call trivial fun answer => ?_
        cases answer with
        | error err => exact calls_return
        | ok profile =>
            dsimp only
            split
            · exact calls_return
            · exact enqueues _ _ _ _ _

theorem founds_names {past : List Answered} {task : Task} {op : Op}
    (founds : Founds server past task op)
    (other : ∀ input newID, task ≠ .createRunner input newID) : NamesRunner op := by
  cases founds with
  | @delivered _ repository installationID job links decision about decided =>
      cases decision with
      | rejected reason => exact rfl
      | queued profileName runnerGroup labels => exact rfl
  | @manual input newID req links status stage reason message id noJob =>
      exact absurd rfl (other input newID)

theorem task_names (task : Task) :
    Keeps (fun _ => NamesRunner) (taskBody server task) (fun _ _ => True) [] := by
  by_cases manual : ∃ input newID, task = .createRunner input newID
  · obtain ⟨input, newID, rfl⟩ := manual
    exact keeps_calls (handleCreateRunner_names server input newID) (fun _ _ names => names)
      fun _ _ _ _ => True.intro
  · have other (input : ManualCreateRequest) (newID : String) : task ≠ .createRunner input newID :=
      fun same => manual ⟨input, newID, same⟩
    rw [← deliveryBody_eq]
    refine keeps_weaken (fun past op permitted => ?_) (task_admits server task)
    cases op with
    | createRequest req links status stage reason message =>
        exact founds_names server (permitted (.inl rfl)) other
    | _ => exact True.intro

end Programs

section Worlds
variable {server : Server} {condition : RunnerWorld → RunnerMove → Prop} {table : RequestTable}
  {world : RunnerWorld}

theorem names_obeyed (reaches : (machine server).Reaches condition (opened table) world) :
    Machine.Obeys (fun _ _ => NamesRunner) world := by
  refine Machine.obeys_reachable (task_names server) ?_ reaches
  constructor
  · intro tid thread live
    cases live
  · intro tid thread live
    cases live

/-- Goroutines remember the names of the rows they have read. -/
theorem names_remembered (reaches : (machine server).Reaches condition (opened table) world) :
    Machine.Informed (fun state _ _ _ past =>
      ∀ base, Knows past base → RememberedPart storedName state.table.rows base) world := by
  induction reaches with
  | refl =>
      intro tid thread live
      cases live
  | step move _ _ stepped ih =>
      exact part_step storedName (fun _ _ => rfl) storedName_written ih stepped

theorem Named.stored {row : RunnerRequestRecord} (named : Named row) :
    storedName row.toRunnerState = row.runnerName := by
  obtain ⟨id, -, name⟩ := named
  change sanitizeRunnerName row.runnerName = row.runnerName
  rw [name, sanitizeRunnerName_idem]

theorem change_named {tid : Nat} {choice : Choice} {thread : RunnerThread} {op : Op}
    {resp : op.Resp} {rest : Action Unit} {state : ServerState}
    (reaches : (machine server).Reaches condition (opened table) world)
    (acts : (machine server).Acts world tid choice thread op resp rest state)
    {row next : RunnerRequestRecord} (here : row ∈ world.state.table.rows) (named : Named row)
    (change : Change server thread.past choice.now ⟨op, resp⟩ row next) : Named next := by
  have same : next.runnerName = row.runnerName := by
    cases change with
    | @written writer st base row matched knows edit same =>
        simp only [versionMatches, Bool.and_eq_true, beq_iff_eq] at matched
        have request := (edit_custody edit).1
        have seen := (names_remembered reaches).actor acts base knows
        have key : sanitizeID base.id = rowID row := by
          rw [← request.id]
          exact matched.1.symm
        rw [RememberedPart, key] at seen
        have found := seen_current world.state.table.primaryKey seen here
          (matched.2.trans request.version)
        change sanitizeRunnerName st.runnerName = row.runnerName
        rw [edit_name edit, ← named.stored]
        exact found.symm
    | claimed free => rfl
    | released matched => rfl
    | retried allowed named => rfl
  obtain ⟨id, key, name⟩ := named
  exact ⟨id, change.sameID.trans key, same.trans name⟩

theorem rows_named (first : ∀ row ∈ table.rows, Named row)
    (reaches : (machine server).Reaches condition (opened table) world) :
    ∀ row ∈ world.state.table.rows, Named row := by
  induction reaches with
  | refl => exact first
  | step move before _ stepped ih =>
      obtain ⟨tid, choice, thread, op, resp, rest, state, rfl, acts, rfl⟩ | ⟨task, rfl, _, rfl⟩ |
        ⟨rfl, rfl⟩ := (machine server).step_cases stepped
      · have turn := turn_of_acts (coherent_reachable before) acts
        intro row member
        change row ∈ state.table.rows at member
        rcases turn.rows with ⟨edit, rows, changes⟩ | ⟨fresh, news, rows⟩
        · obtain ⟨old, here, rfl⟩ := List.mem_map.mp (rows ▸ member)
          rcases changes old here with same | change
          · rw [same]
            exact ih old here
          · exact change_named before acts here (ih old here) change
        · rcases List.mem_append.mp (rows ▸ member) with old | new
          · exact ih row old
          · cases List.mem_singleton.mp new
            have permitted := (names_obeyed before).permits acts
            cases news
            exact admittedRecord_named permitted _ _ _ _ _ _
      · exact ih
      · exact ih

/-- In every run each runner's name leads back to its row, and so does the name of
a manual request that is accepted, whatever id it gives. A stored id is a
fixed point without slashes and double dots. -/
theorem runner_names_round_trip (server : Server)
    (reaches : (machine server).Reaches condition (opened .empty) world) :
    (∀ row ∈ world.state.table.rows, FoundByName world.state.table row) ∧
      (∀ now id repository profileName runnerGroup labels requestedLabels links status stage reason
          message created st next,
        createRequest now world.state.table
            (manualRequest id repository profileName runnerGroup labels requestedLabels) links
            status stage reason message = (.ok (created, st), next) →
          ∃ row, readRecord next id = .ok row ∧ recordToState row = st ∧ FoundByName next row) ∧
      ∀ id, sanitizeID (sanitizeID id) = sanitizeID id ∧ '/' ∉ (sanitizeID id).toList ∧
        '\\' ∉ (sanitizeID id).toList ∧ contains (sanitizeID id) ".." = false := by
  have named : ∀ row ∈ world.state.table.rows, Named row := by
    refine rows_named (fun row member => ?_) reaches
    cases member
  refine ⟨fun row here => (named row here).found here, ?_, ?_⟩
  · intro now id repository profileName runnerGroup labels requestedLabels links status stage
      reason message created st next accepted
    exact createRequest_found named (manualRequest_named id _ _ _ _ _) accepted
  · exact fun id => ⟨sanitizeID_idem id, sanitizeID_clean id⟩

/-- The table after a first request whose id is a path with blanks around it. -/
def pathStored : RequestTable :=
  (createRequest 5 .empty (manualRequest " a/../b " "owner/repo" "e2b" "" ["e2b"] []) {} .queued
    "" "" "").2

theorem runner_names_round_trip_path :
    (pathStored.rows.map fun row => (row.id, row.runnerName)) = [("a---b", "e2b- a-..-b")] ∧
      ∃ row, readRecord pathStored " a/../b " = .ok row ∧ FoundByName pathStored row := by
  obtain ⟨-, accepts, -⟩ :=
    runner_names_round_trip sampleServer (.refl : (machine sampleServer).Reaches
      (fun _ _ => True) (opened .empty) (opened .empty))
  obtain ⟨row, reads, -, found⟩ := accepts 5 " a/../b " "owner/repo" "e2b" "" ["e2b"] [] {} .queued
    "" "" "" true _ pathStored rfl
  exact ⟨by decide +kernel, row, reads, found⟩

end Worlds

end Runnerd
