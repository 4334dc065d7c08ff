import Mathlib.Data.String.Basic
import Runnerd.BrowserGroups
import Runnerd.ServerGroups

/-!
Where the browser's job groups are the server's. Both put one job after another into
the group of its key, so the groups are alike when the keys are and when the newest
job of each group brings the same head SHA.
-/

namespace Runnerd

open GoText

section Fields

theorem omitText_getD (text : String) : (omitText text).getD "" = text := by
  unfold omitText
  split
  · simp_all
  · rfl

theorem truthy_omitText (text : String) : truthy (omitText text) = (text != "") := by
  rw [truthy, omitText_getD]

theorem omitNumber_getD (number : Int) : (omitNumber number).getD 0 = asDouble number := by
  unfold omitNumber
  split
  · rename_i zero
    rw [zero]
    exact (asDouble_zero.mpr rfl).symm
  · rfl

theorem asDouble_bne (number : Int) : (asDouble number != 0) = (number != 0) := by
  rw [Bool.eq_iff_iff, bne_iff_ne, bne_iff_ne, ne_eq, ne_eq, asDouble_zero]

theorem truthyNumber_omitNumber (number : Int) : truthyNumber (omitNumber number) = (number != 0) := by
  rw [truthyNumber, omitNumber_getD, asDouble_bne]

theorem orText_getD (first second : Option String) :
    (orText first second).getD "" = if first.getD "" ≠ "" then first.getD "" else second.getD "" := by
  unfold orText truthy
  by_cases blank : first.getD "" = ""
  · simp [blank]
  · simp [blank]

end Fields

section Keys

variable (zone : Time → Int)

/-- The pull requests that commits belong to are the same ones, as far as their
numbers are. -/
theorem browserPRs_lookup (states : List RunnerState) (key : String) :
    (browserPRs (states.map (browserRunner zone))).lookup key =
      ((prByRepositoryAndSHA states).lookup key).map asDouble := by
  unfold browserPRs prByRepositoryAndSHA
  rw [List.foldl_map]
  suffices grown : ∀ (read numbers : AList fun _ : String => Int),
      (∀ key, read.lookup key = (numbers.lookup key).map asDouble) → ∀ key,
      (states.foldl _ read).lookup key = ((states.foldl _ numbers).lookup key).map asDouble from
    grown ∅ ∅ (fun key => by simp) key
  induction states with
  | nil => exact fun read numbers same => same
  | cons st rest ih =>
      intro read numbers same
      refine ih _ _ fun key => ?_
      simp only [browserRunner, truthy_omitText, omitText_getD]
      by_cases number : st.pullRequestNumber = 0
      · simp [omitNumber, number, same]
      · have shown : asDouble st.pullRequestNumber ≠ 0 := fun zero => number (asDouble_zero.mp zero)
        by_cases named : st.repositoryFullName ≠ "" ∧ st.headSHA ≠ ""
        · simp only [omitNumber, number, if_false]
          rw [if_pos (by simp [named, shown]), if_pos ⟨named.1, named.2, number⟩]
          by_cases here : key = st.repositoryFullName ++ ":" ++ st.headSHA
          · rw [here, AList.lookup_insert, AList.lookup_insert, Option.map_some]
          · rw [AList.lookup_insert_ne here, AList.lookup_insert_ne here, same]
        · simp only [omitNumber, number, if_false]
          rw [if_neg (by simp only [bne_iff_ne, Bool.and_eq_true]; tauto), if_neg (by tauto), same]

theorem browserSeed_eq (browser : Browser) (states : List RunnerState) (st : RunnerState) :
    ∃ number : Option Int, number.getD 0 = asDouble (inferredNumber states st) ∧
      browserSeed browser (browserPRs (states.map (browserRunner zone))) (browserRunner zone st) =
        buildGroupSeed browser (browserRunner zone st) (repositoryName st) number := by
  have repository : (orText (browserRunner zone st).repositoryFullName
      (some "unknown/repository")).getD "" = repositoryName st := by
    rw [orText_getD, browserRunner, omitText_getD, repositoryName]
    by_cases blank : st.repositoryFullName = ""
    · simp [blank]
    · simp [blank]
  have sha : (browserRunner zone st).headSHA = omitText st.headSHA := rfl
  have own : (browserRunner zone st).pullRequestNumber = omitNumber st.pullRequestNumber := rfl
  refine ⟨orNumber (omitNumber st.pullRequestNumber) (if st.headSHA != "" then
    ((prByRepositoryAndSHA states).lookup (repositoryName st ++ ":" ++ st.headSHA)).map asDouble
    else none), ?_, ?_⟩
  · simp only [orNumber, truthyNumber_omitNumber, inferredNumber]
    have zero : asDouble 0 = 0 := asDouble_zero.mpr rfl
    by_cases number : st.pullRequestNumber = 0
    · by_cases named : st.headSHA = ""
      · simp [number, named, zero]
      · cases (prByRepositoryAndSHA states).lookup (repositoryName st ++ ":" ++ st.headSHA) with
        | none => simp [number, named, zero]
        | some value => simp [number, named]
    · simp [number, omitNumber_getD]
  · have commit : (orText (browserRunner zone st).repositoryFullName
        (some "unknown/repository")).getD "" ++ ":" ++ (browserRunner zone st).headSHA.getD "" =
        repositoryName st ++ ":" ++ st.headSHA := by rw [repository, sha, omitText_getD]
    simp only [browserSeed, browserPRs_lookup, sha, own, truthy_omitText]
    rw [commit, repository]

/-- What a key is made of is read back as it was written. -/
def ReadsKey (number : Int) (st : RunnerState) : Prop :=
  if number ≠ 0 then numberText (asDouble number) = toString number
  else if st.headSHA ≠ "" then st.headBranch ≠ "" → trimSpace st.headBranch ≠ ""
  else st.workflowRunID ≠ 0 →
    numberText (asDouble st.workflowRunID) = toString st.workflowRunID

/-- A branch of blanks is one to the browser and none to the server. -/
theorem branch_same (branch : String) :
    (orText (omitText branch) (some "detached")).getD "" = firstNonEmpty [branch, "detached"] ↔
      (branch ≠ "" → trimSpace branch ≠ "") := by
  have detached : trimSpace "detached" ≠ "" := by decide +kernel
  rw [orText_getD, omitText_getD]
  by_cases named : branch = ""
  · have blank : trimSpace "" = "" := by decide +kernel
    simp [named, firstNonEmpty, blank, detached]
  · by_cases blank : trimSpace branch = ""
    · have server : firstNonEmpty [branch, "detached"] = "detached" := by
        simp [firstNonEmpty, blank, detached]
      rw [server]
      simp only [named, blank, ne_eq, not_false_eq_true, if_true, not_true, imp_false]
      refine iff_of_false ?_ (by simp)
      rintro rfl
      exact detached blank
    · simp [named, firstNonEmpty, blank]

theorem seed_key_iff (browser : Browser) (states : List RunnerState) (st : RunnerState) :
    (browserSeed browser (browserPRs (states.map (browserRunner zone))) (browserRunner zone st)).key =
        (jobSeed (prByRepositoryAndSHA states) st).key ↔
      ReadsKey (inferredNumber states st) st := by
  obtain ⟨number, value, seed⟩ := browserSeed_eq zone browser states st
  rw [seed, jobSeed_eq]
  generalize inferredNumber states st = inferred at value
  simp only [buildGroupSeed, runnerJobGroupSeed, truthyNumber, value, asDouble_bne, ReadsKey,
    bne_iff_ne]
  by_cases numbered : inferred = 0
  · have sha : (browserRunner zone st).headSHA = omitText st.headSHA := rfl
    have branch : (browserRunner zone st).headBranch = omitText st.headBranch := rfl
    have run : (browserRunner zone st).workflowRunID = omitNumber st.workflowRunID := rfl
    have zero : asDouble 0 = 0 := asDouble_zero.mpr rfl
    simp only [numbered, sha, branch, run, truthy_omitText, omitText_getD, omitNumber_getD,
      bne_iff_ne, ne_eq, not_true, if_false]
    by_cases named : st.headSHA = ""
    · by_cases ran : st.workflowRunID = 0
      · simp [named, ran, zero, browserRunner]
      · have read : asDouble st.workflowRunID ≠ 0 := fun none => ran (asDouble_zero.mp none)
        simp [named, ran, read]
    · simp only [named, not_false_eq_true, if_true]
      rw [← branch_same st.headBranch]
      simp
  · simp [numbered]

end Keys

section Groups

variable (zone : Time → Int) (browser : Browser) (states : List RunnerState)

/-- The browser's group of these jobs, before it is ordered. -/
def browserBuildGroup (numbers : AList fun _ : String => Int) (jobs : List BrowserRunner) :
    Option BuildGroup :=
  gathered (browserSeed browser numbers)
    (fun group runner => group.join runner (browserSeed browser numbers runner)) jobs

theorem browser_gathered (numbers : AList fun _ : String => Int) (runners : List BrowserRunner)
    (key : String) :
    (runners.foldl (browserGroup browser numbers) .empty).find key =
      browserBuildGroup browser numbers
        (runners.filter fun runner => decide ((browserSeed browser numbers runner).key = key)) := by
  refine gathers_fold (fun (groups : KeyedTable BuildGroup.key) key => groups.find key)
    ⟨?_, ?_⟩ (fun key => rfl) _ key
  · intro groups runner
    unfold browserGroup
    cases found : groups.find (browserSeed browser numbers runner).key with
    | none =>
        obtain ⟨after, inserted, _⟩ := KeyedTable.insert_free found
        simp [found, inserted, KeyedTable.find_insert inserted]
    | some current =>
        have own := (KeyedTable.find_some.mp found).2
        simp [found, KeyedTable.find_update, own]
  · intro groups runner key different
    unfold browserGroup
    cases found : groups.find (browserSeed browser numbers runner).key with
    | none =>
        obtain ⟨after, inserted, _⟩ := KeyedTable.insert_free found
        simp [found, inserted, KeyedTable.find_insert inserted, different]
    | some current =>
        simp only [found, KeyedTable.find_update]
        cases there : groups.find key with
        | none => rfl
        | some other =>
            have own := (KeyedTable.find_some.mp there).2
            simp [own, Ne.symm different]

end Groups

section BrowserContents

variable (browser : Browser) (numbers : AList fun _ : String => Int)

def BuildGroup.lead (group : BuildGroup) : Lead String := ⟨group.updatedAt, group.headSHA.getD ""⟩

theorem buildGroupSeed_lead (runner : BrowserRunner) (repository : String) (number : Option Int) :
    (buildGroupSeed browser runner repository number).lead =
      ⟨runner.updatedAt, runner.headSHA.getD ""⟩ := by
  unfold buildGroupSeed
  by_cases numbered : truthyNumber number = true
  · simp [numbered, BuildGroup.lead]
  · by_cases named : truthy runner.headSHA = true
    · simp [numbered, named, BuildGroup.lead]
    · have blank : runner.headSHA.getD "" = "" := by simpa [truthy] using named
      by_cases ran : truthyNumber runner.workflowRunID = true
      · simp [numbered, named, ran, blank, BuildGroup.lead]
      · simp [numbered, named, ran, blank, BuildGroup.lead]

theorem browserSeed_lead (runner : BrowserRunner) :
    (browserSeed browser numbers runner).lead = ⟨runner.updatedAt, runner.headSHA.getD ""⟩ :=
  buildGroupSeed_lead browser runner _ _

theorem browserSeed_jobs (runner : BrowserRunner) :
    (browserSeed browser numbers runner).jobs = [runner] := by
  unfold browserSeed buildGroupSeed
  simp only [apply_ite BuildGroup.jobs, ite_self]

theorem browserSeed_runs (runner : BrowserRunner) :
    (browserSeed browser numbers runner).workflowRunIDs =
      if truthyNumber runner.workflowRunID then runner.workflowRunID.toList else [] := by
  unfold browserSeed buildGroupSeed
  simp only [apply_ite BuildGroup.workflowRunIDs, ite_self]

theorem joinRun_jobs (current : BuildGroup) (run : Option Int) :
    (current.joinRun run).jobs = current.jobs := by
  cases run with
  | none => rfl
  | some run => simp only [BuildGroup.joinRun, apply_ite BuildGroup.jobs, ite_self]

theorem joinRun_lead (current : BuildGroup) (run : Option Int) :
    (current.joinRun run).lead = current.lead := by
  cases run with
  | none => rfl
  | some run =>
      unfold BuildGroup.joinRun
      dsimp only
      split
      · rfl
      · rfl

theorem browserJoin_jobs (current group : BuildGroup) (runner : BrowserRunner) :
    (current.join runner group).jobs = current.jobs ++ [runner] := by
  unfold BuildGroup.join
  simp only [joinRun_jobs, apply_ite BuildGroup.jobs, ite_self]

theorem browserJoin_lead (current group : BuildGroup) (runner : BrowserRunner) :
    (current.join runner group).lead = current.lead.join runner.updatedAt (runner.headSHA.getD "") := by
  unfold BuildGroup.join
  rw [joinRun_lead]
  unfold BuildGroup.lead Lead.join
  by_cases newer : current.updatedAt < runner.updatedAt <;>
    by_cases named : runner.headSHA.getD "" = "" <;>
    by_cases blank : current.headSHA.getD "" = "" <;>
    simp [newer, named, blank, apply_ite BuildGroup.updatedAt, apply_ite BuildGroup.headSHA, truthy,
      orText]

theorem joinRun_runs (current : BuildGroup) (ran : Option Int)
    (sorted : Descending current.workflowRunIDs) :
    Descending (current.joinRun ran).workflowRunIDs ∧
      ∀ run, run ∈ (current.joinRun ran).workflowRunIDs ↔
        run ∈ current.workflowRunIDs ∨ (run ≠ 0 ∧ ran = some run) := by
  cases ran with
  | none => simp [BuildGroup.joinRun, sorted]
  | some ran =>
      unfold BuildGroup.joinRun
      dsimp only
      by_cases adds : ran ≠ 0 ∧ ran ∉ current.workflowRunIDs
      · rw [if_pos adds]
        constructor
        · have ordered : ((current.workflowRunIDs ++ [ran]).mergeSort
              fun first second => decide (second - first ≤ 0)).Pairwise
              fun first second => decide (second - first ≤ 0) = true :=
            List.pairwise_mergeSort (fun first second third one two => by simp at *; omega)
              (fun first second => by simp; omega) (current.workflowRunIDs ++ [ran])
          exact ordered.imp fun le => by simpa using le
        · intro run
          simp only [List.mem_mergeSort, List.mem_append, List.mem_singleton, Option.some.injEq]
          grind
      · rw [if_neg adds]
        refine ⟨sorted, fun run => ?_⟩
        simp only [Option.some.injEq]
        grind

theorem browserJoin_runs (current group : BuildGroup) (runner : BrowserRunner)
    (sorted : Descending current.workflowRunIDs) :
    Descending (current.join runner group).workflowRunIDs ∧
      ∀ run, run ∈ (current.join runner group).workflowRunIDs ↔
        run ∈ current.workflowRunIDs ∨ (run ≠ 0 ∧ runner.workflowRunID = some run) := by
  have step : ∀ other : BuildGroup, other.workflowRunIDs = current.workflowRunIDs →
      Descending (other.joinRun runner.workflowRunID).workflowRunIDs ∧
        ∀ run, run ∈ (other.joinRun runner.workflowRunID).workflowRunIDs ↔
          run ∈ current.workflowRunIDs ∨ (run ≠ 0 ∧ runner.workflowRunID = some run) := by
    intro other same
    rw [← same]
    exact joinRun_runs other runner.workflowRunID (by rwa [same])
  unfold BuildGroup.join
  exact step _ (by simp only [apply_ite BuildGroup.workflowRunIDs, ite_self])

/-- What a group of the browser holds of its jobs. -/
structure BrowserHolds (key : String) (jobs : List BrowserRunner) (group : BuildGroup) : Prop where
  named : group.key = key
  members : group.jobs = jobs
  head : group.headSHA.getD "" = (leadingText (fun runner : BrowserRunner => runner.updatedAt)
    (fun runner => runner.headSHA.getD "") jobs).getD ""
  sorted : Descending group.workflowRunIDs
  runs : ∀ run, run ∈ group.workflowRunIDs ↔
    run ≠ 0 ∧ ∃ runner ∈ jobs, runner.workflowRunID = some run

theorem browser_holds (first : BrowserRunner) (rest : List BrowserRunner) :
    ∃ group, browserBuildGroup browser numbers (first :: rest) = some group ∧
      BrowserHolds (browserSeed browser numbers first).key (first :: rest) group := by
  have runs : Descending (rest.foldl (fun group runner =>
        group.join runner (browserSeed browser numbers runner))
        (browserSeed browser numbers first)).workflowRunIDs ∧
      ∀ run, run ∈ (rest.foldl (fun group runner =>
        group.join runner (browserSeed browser numbers runner))
        (browserSeed browser numbers first)).workflowRunIDs ↔
      run ≠ 0 ∧ ∃ runner ∈ first :: rest, runner.workflowRunID = some run := by
    induction rest using List.reverseRecOn with
    | nil =>
        rw [List.foldl_nil, browserSeed_runs]
        cases ran : first.workflowRunID with
        | none => simp [Descending, truthyNumber, ran]
        | some run =>
            by_cases zero : run = 0
            · simp [Descending, truthyNumber, zero, ran]
              exact fun other nonzero same => nonzero same.symm
            · simp [Descending, truthyNumber, zero, ran]
              grind
    | append_singleton rest last ih =>
        rw [List.foldl_append, List.foldl_cons, List.foldl_nil]
        obtain ⟨sorted, members⟩ := browserJoin_runs _ (browserSeed browser numbers last) last ih.1
        refine ⟨sorted, fun run => ?_⟩
        rw [members, ih.2]
        simp only [← List.cons_append, List.mem_append, List.mem_singleton]
        grind
  refine ⟨_, rfl, ?_, ?_, ?_, runs.1, runs.2⟩
  · clear runs
    induction rest using List.reverseRecOn with
    | nil => rfl
    | append_singleton rest last ih =>
        rw [List.foldl_append, List.foldl_cons, List.foldl_nil, BuildGroup.join_key, ih]
  · clear runs
    induction rest using List.reverseRecOn with
    | nil => exact browserSeed_jobs browser numbers first
    | append_singleton rest last ih =>
        rw [List.foldl_append, List.foldl_cons, List.foldl_nil, browserJoin_jobs, ih, List.cons_append]
  · have folded : (rest.foldl (fun group runner =>
        group.join runner (browserSeed browser numbers runner))
        (browserSeed browser numbers first)).lead =
        rest.foldl (fun lead runner => lead.join runner.updatedAt (runner.headSHA.getD ""))
          (browserSeed browser numbers first).lead :=
      (List.foldl_hom BuildGroup.lead fun group runner => (browserJoin_lead group _ runner).symm).symm
    rw [browserSeed_lead] at folded
    exact (congrArg Lead.kept folded).trans (lead_fold first rest).2.2

end BrowserContents

section Currents

variable (zone : Time → Int)

/-- In a group without a commit the highest run id is not read as another one. -/
def ReadsRuns (jobs : List RunnerState) : Prop :=
  (∀ st ∈ jobs, st.headSHA = "") → ∀ st ∈ jobs, st.workflowRunID ≠ 0 →
    (∀ other ∈ jobs, other.workflowRunID ≠ 0 → other.workflowRunID ≤ st.workflowRunID) →
    ∀ other ∈ jobs, asDouble other.workflowRunID = asDouble st.workflowRunID →
      other.workflowRunID = st.workflowRunID

/-- A filter that keeps no more than a wider one keeps the same. -/
theorem filter_same {Element : Type} {narrow wide : Element → Bool} {elements : List Element}
    (wider : ∀ element, narrow element = true → wide element = true)
    (size : (elements.filter wide).length = (elements.filter narrow).length) {element : Element}
    (member : element ∈ elements) (kept : wide element = true) : narrow element = true := by
  have sublist : (elements.filter narrow).Sublist (elements.filter wide) :=
    List.monotone_filter_right elements wider
  have same := sublist.eq_of_length size.symm
  have inside : element ∈ elements.filter narrow := by
    rw [same]
    exact List.mem_filter.mpr ⟨member, kept⟩
  exact (List.mem_filter.mp inside).2

variable {zone} {key : String} {jobs : List RunnerState} {group : UserRunnerJobGroup}
variable {build : BuildGroup} {browser : Browser}

def BuildGroup.finished (browser : Browser) (build : BuildGroup) : BuildGroup :=
  { build with jobs := orderJobs browser build.jobs }

variable (browser) in
theorem finished_jobs (server : ServerHolds key jobs group)
    (held : BrowserHolds key (jobs.map (browserRunner zone)) build) :
    (build.finished browser).jobs.Perm ((finishGroup group).jobs.map (browserRunner zone)) := by
  have one : (build.finished browser).jobs.Perm build.jobs := List.mergeSort_perm _ _
  have two : (finishGroup group).jobs.Perm group.jobs := List.mergeSort_perm _ _
  rw [held.members] at one
  rw [server.members] at two
  exact one.trans (two.map _).symm

/-- Both filter for the head SHA, where there is one. -/
theorem current_headed (server : ServerHolds key jobs group)
    (held : BrowserHolds key (jobs.map (browserRunner zone)) build)
    (head : build.headSHA.getD "" = group.headSHA) (named : group.headSHA ≠ "") :
    (currentBuildJobs (build.finished browser)).Perm
      ((finishGroup group).currentJobs.map (browserRunner zone)) := by
  have present : ∃ st ∈ jobs, st.headSHA = group.headSHA := by
    have leads := server.head
    cases leading : leadingText (fun st : RunnerState => st.updatedAt) (fun st => st.headSHA) jobs with
    | none => exact absurd (by rw [leads, leading]; rfl) named
    | some found =>
        rw [leading] at leads
        obtain ⟨_, st, member, same⟩ := leadingText_some leading
        exact ⟨st, member, same.trans leads.symm⟩
  have sha : build.headSHA = some group.headSHA := by
    cases found : build.headSHA with
    | none => exact absurd (by rw [← head, found]; rfl) named
    | some text =>
        rw [found] at head
        exact congrArg some head
  have picked (st : RunnerState) : ((browserRunner zone st).headSHA == some group.headSHA) =
      (st.headSHA == group.headSHA) := by
    rw [Bool.eq_iff_iff, beq_iff_eq, beq_iff_eq]
    show omitText st.headSHA = some group.headSHA ↔ st.headSHA = group.headSHA
    unfold omitText
    by_cases blank : st.headSHA = ""
    · simp [blank, Ne.symm named]
    · simp [blank]
  have members := finished_jobs browser server held
  have same : ((build.finished browser).jobs.filter fun job => job.headSHA == build.headSHA).Perm
      (((finishGroup group).jobs.filter fun job => job.headSHA == group.headSHA).map
        (browserRunner zone)) := by
    refine (members.filter _).trans ?_
    rw [sha, List.filter_map]
    simp only [Function.comp_def, picked]
    exact .refl _
  have some_ : ((finishGroup group).jobs.filter fun job => job.headSHA == group.headSHA) ≠ [] := by
    obtain ⟨st, member, own⟩ := present
    refine List.ne_nil_of_mem (a := st) (List.mem_filter.mpr ⟨?_, by simp [own]⟩)
    rw [finishGroup_jobs, server.members]
    exact member
  have server_ : (finishGroup group).currentJobs =
      (finishGroup group).jobs.filter fun job => job.headSHA == group.headSHA :=
    if_pos ⟨named, some_⟩
  have browser_ : currentBuildJobs (build.finished browser) =
      (build.finished browser).jobs.filter fun job => job.headSHA == build.headSHA := by
    refine if_pos ⟨?_, fun empty => ?_⟩
    · show truthy build.headSHA = true
      simp [truthy, sha, named]
    · have nothing : ((build.finished browser).jobs.filter fun job =>
        job.headSHA == build.headSHA) = [] := empty
      rw [nothing] at same
      exact some_ (List.map_eq_nil_iff.mp same.symm.eq_nil)
  rw [server_, browser_]
  exact same

/-- Without a run id neither side filters. -/
theorem current_idle (held : BrowserHolds key (jobs.map (browserRunner zone)) build)
    (unnamed : group.headSHA = "") (untrue : ¬ truthy build.headSHA = true)
    (none_ : (finishGroup group).workflowRunIDs = [])
    (idle : ∀ st ∈ jobs, st.workflowRunID = 0) :
    (finishGroup group).currentJobs = (finishGroup group).jobs ∧
      currentBuildJobs (build.finished browser) = (build.finished browser).jobs := by
  have none' : build.workflowRunIDs = [] := by
    refine List.eq_nil_iff_forall_not_mem.mpr fun run inside => ?_
    obtain ⟨_, runner, member, ran⟩ := (held.runs run).mp inside
    obtain ⟨st, present, rfl⟩ := List.mem_map.mp member
    have omitted : omitNumber st.workflowRunID = some run := ran
    rw [idle st present] at omitted
    cases omitted
  have no_run : ¬ truthyNumber build.workflowRunIDs.head? = true := by simp [truthyNumber, none']
  constructor
  · exact (if_neg fun both => both.1 unnamed).trans (if_neg fun both => both.1 none_)
  · exact (if_neg fun both => untrue both.1).trans (if_neg fun both => no_run both.1)

/-- The highest run id of the jobs. -/
structure HighestRun (jobs : List RunnerState) (run : Int) : Prop where
  ran : run ≠ 0
  owned : ∃ st ∈ jobs, st.workflowRunID = run
  above : ∀ st ∈ jobs, st.workflowRunID ≠ 0 → st.workflowRunID ≤ run

theorem highest_run (server : ServerHolds key jobs group) {run : Int}
    (latest : (finishGroup group).workflowRunIDs.head? = some run) : HighestRun jobs run := by
  obtain ⟨inside, bound⟩ := (descending_head (finish_descending group) run).mp latest
  obtain ⟨ran, own⟩ := (server.runs run).mp ((finish_runs group run).mp inside)
  refine ⟨ran, own, fun st member other => bound _ ?_⟩
  exact (finish_runs group _).mpr ((server.runs _).mpr ⟨other, st, member, rfl⟩)

theorem browser_latest (held : BrowserHolds key (jobs.map (browserRunner zone)) build) {run : Int}
    (highest : HighestRun jobs run) : build.workflowRunIDs.head? = some (asDouble run) := by
  obtain ⟨ran, ⟨first, present, own⟩, above⟩ := highest
  have read : asDouble run ≠ 0 := fun zero => ran (asDouble_zero.mp zero)
  refine (descending_head held.sorted _).mpr ⟨(held.runs _).mpr ⟨read, _,
    List.mem_map_of_mem present, ?_⟩, fun other inside => ?_⟩
  · show omitNumber first.workflowRunID = some (asDouble run)
    rw [own, omitNumber, if_neg ran]
  · obtain ⟨_, runner, member, same⟩ := (held.runs other).mp inside
    obtain ⟨st, there, rfl⟩ := List.mem_map.mp member
    have omitted : omitNumber st.workflowRunID = some other := same
    unfold omitNumber at omitted
    split at omitted
    · cases omitted
    · rename_i nonzero
      rw [← Option.some.inj omitted]
      exact asDouble_mono (above st there nonzero)

/-- The server filters for the highest run id as it is. -/
theorem server_running (server : ServerHolds key jobs group) (unnamed : group.headSHA = "")
    {run : Int} (latest : (finishGroup group).workflowRunIDs.head? = some run) :
    (finishGroup group).currentJobs =
      (finishGroup group).jobs.filter fun job => some job.workflowRunID == some run := by
  obtain ⟨_, ⟨first, present, own⟩, _⟩ := highest_run server latest
  have nonempty : ((finishGroup group).jobs.filter fun job =>
      some job.workflowRunID == (finishGroup group).workflowRunIDs.head?) ≠ [] := by
    refine List.ne_nil_of_mem (a := first) (List.mem_filter.mpr ⟨?_, by simp [latest, own]⟩)
    rw [finishGroup_jobs, server.members]
    exact present
  rw [← latest]
  refine (if_neg fun both => both.1 unnamed).trans (if_pos ⟨fun empty => ?_, nonempty⟩)
  have empty_ : (finishGroup group).workflowRunIDs = [] := empty
  rw [empty_] at latest
  cases latest

variable (browser) in
/-- The browser filters for the number that it reads the highest run id as. -/
theorem browser_running (server : ServerHolds key jobs group)
    (held : BrowserHolds key (jobs.map (browserRunner zone)) build)
    (untrue : ¬ truthy build.headSHA = true) {run : Int} (highest : HighestRun jobs run) :
    (currentBuildJobs (build.finished browser)).Perm
      (((finishGroup group).jobs.filter fun job =>
        omitNumber job.workflowRunID == some (asDouble run)).map (browserRunner zone)) := by
  have latest := browser_latest held highest
  obtain ⟨ran, ⟨first, present, own⟩, _⟩ := highest
  have read : asDouble run ≠ 0 := fun zero => ran (asDouble_zero.mp zero)
  have picked : ((build.finished browser).jobs.filter fun job =>
      job.workflowRunID == some (asDouble run)).Perm
      (((finishGroup group).jobs.filter fun job =>
        omitNumber job.workflowRunID == some (asDouble run)).map (browserRunner zone)) := by
    refine ((finished_jobs browser server held).filter _).trans ?_
    rw [List.filter_map]
    exact .refl _
  have filtered : currentBuildJobs (build.finished browser) =
      (build.finished browser).jobs.filter fun job => job.workflowRunID == some (asDouble run) := by
    rw [← latest]
    have read_ : truthyNumber build.workflowRunIDs.head? = true := by
      simp [truthyNumber, latest, read]
    refine (if_neg fun both => untrue both.1).trans (if_pos ⟨read_, fun empty => ?_⟩)
    have nothing : ((build.finished browser).jobs.filter fun job =>
      job.workflowRunID == build.workflowRunIDs.head?) = [] := empty
    rw [latest] at nothing
    rw [nothing] at picked
    have missing := List.filter_eq_nil_iff.mp (List.map_eq_nil_iff.mp picked.symm.eq_nil) first
      ((finishGroup_jobs group first).mpr (by rw [server.members]; exact present))
    simp [own, omitNumber, ran] at missing
  rw [filtered]
  exact picked

theorem omitNumber_wider {run : Int} (ran : run ≠ 0) (job : RunnerState)
    (narrow : (some job.workflowRunID == some run) = true) :
    (omitNumber job.workflowRunID == some (asDouble run)) = true := by
  have same : job.workflowRunID = run := by simpa using narrow
  simp [same, omitNumber, ran]

/-- Two filters of different width agree when they keep equally much. -/
theorem reads_of_filters (server : ServerHolds key jobs group) {run : Int}
    (highest : HighestRun jobs run)
    (size : ((finishGroup group).jobs.filter fun job =>
        omitNumber job.workflowRunID == some (asDouble run)).length =
      ((finishGroup group).jobs.filter fun job => some job.workflowRunID == some run).length) :
    ReadsRuns jobs := by
  obtain ⟨ran, ⟨first, present, own⟩, above⟩ := highest
  intro _ st member nonzero top other there same
  have read : asDouble run ≠ 0 := fun zero => ran (asDouble_zero.mp zero)
  have highest : st.workflowRunID = run :=
    le_antisymm (above st member nonzero) (own ▸ top first present (own ▸ ran))
  have wide : (omitNumber other.workflowRunID == some (asDouble run)) = true := by
    have other_ : other.workflowRunID ≠ 0 := by
      intro zero
      rw [zero, highest, asDouble_zero.mpr rfl] at same
      exact read same.symm
    simp [omitNumber, other_, same, highest]
  have narrow := filter_same (omitNumber_wider ran) size
    ((finishGroup_jobs group other).mpr (by rw [server.members]; exact there)) wide
  rw [highest]
  simpa using narrow

theorem filters_of_reads (server : ServerHolds key jobs group) {run : Int}
    (highest : HighestRun jobs run) (blank : ∀ st ∈ jobs, st.headSHA = "")
    (reads : ReadsRuns jobs) :
    ((finishGroup group).jobs.filter fun job =>
        omitNumber job.workflowRunID == some (asDouble run)) =
      (finishGroup group).jobs.filter fun job => some job.workflowRunID == some run := by
  obtain ⟨ran, ⟨first, present, own⟩, above⟩ := highest
  apply List.filter_congr
  intro job member
  rw [finishGroup_jobs, server.members] at member
  rw [Bool.eq_iff_iff]
  refine ⟨fun wide => ?_, omitNumber_wider ran job⟩
  have read_ : asDouble job.workflowRunID = asDouble run := by
    unfold omitNumber at wide
    split at wide
    · simp at wide
    · simpa using wide
  have same := reads blank first present (own ▸ ran) (own ▸ above) job member (own ▸ read_)
  simp [same, own]

/-- Where there is no head SHA, both filter for the highest run id, if there is one. -/
theorem current_headless (server : ServerHolds key jobs group)
    (held : BrowserHolds key (jobs.map (browserRunner zone)) build)
    (head : build.headSHA.getD "" = group.headSHA) (unnamed : group.headSHA = "") :
    (currentBuildJobs (build.finished browser)).Perm
        ((finishGroup group).currentJobs.map (browserRunner zone)) ↔ ReadsRuns jobs := by
  have blank : ∀ st ∈ jobs, st.headSHA = "" := by
    have leads := server.head
    rw [unnamed] at leads
    cases leading : leadingText (fun st : RunnerState => st.updatedAt) (fun st => st.headSHA) jobs with
    | none => exact leadingText_none.mp leading
    | some found =>
        rw [leading] at leads
        exact absurd leads.symm (leadingText_some leading).1
  have untrue : ¬ truthy build.headSHA = true := by simp [truthy, head, unnamed]
  cases latest : (finishGroup group).workflowRunIDs.head? with
  | none =>
      have none_ : (finishGroup group).workflowRunIDs = [] := List.head?_eq_none_iff.mp latest
      have idle : ∀ st ∈ jobs, st.workflowRunID = 0 := by
        intro st member
        by_contra ran
        have there := (finish_runs group st.workflowRunID).mpr
          ((server.runs _).mpr ⟨ran, st, member, rfl⟩)
        rw [none_] at there
        cases there
      obtain ⟨server_, browser_⟩ := current_idle held unnamed untrue none_ idle
      rw [server_, browser_]
      exact iff_of_true (finished_jobs browser server held)
        fun _ st member ran => absurd (idle st member) ran
  | some run =>
      have highest := highest_run server latest
      have picked := browser_running browser server held untrue highest
      rw [server_running server unnamed latest]
      constructor
      · intro perm
        have size := (picked.symm.trans perm).length_eq
        rw [List.length_map, List.length_map] at size
        exact reads_of_filters server highest size
      · intro reads
        rw [← filters_of_reads server highest blank reads]
        exact picked

variable (browser) in
theorem current_iff (server : ServerHolds key jobs group)
    (held : BrowserHolds key (jobs.map (browserRunner zone)) build)
    (head : build.headSHA.getD "" = group.headSHA) :
    (currentBuildJobs (build.finished browser)).Perm
        ((finishGroup group).currentJobs.map (browserRunner zone)) ↔ ReadsRuns jobs := by
  by_cases named : group.headSHA = ""
  · exact current_headless server held head named
  · refine iff_of_true (current_headed server held head named) fun blank => ?_
    have none_ : leadingText (fun st : RunnerState => st.updatedAt) (fun st => st.headSHA) jobs =
      none := leadingText_none.mpr blank
    exact absurd (by rw [server.head, none_]; rfl) named

theorem head_iff (server : ServerHolds key jobs group)
    (held : BrowserHolds key (jobs.map (browserRunner zone)) build) :
    build.headSHA.getD "" = group.headSHA ↔
      leadingText (fun st : RunnerState => rfc3339 (zone st.updatedAt) st.updatedAt)
        (fun st => st.headSHA) jobs =
      leadingText (fun st : RunnerState => st.updatedAt) (fun st => st.headSHA) jobs := by
  have sha : (fun runner : BrowserRunner => runner.headSHA.getD "") ∘ browserRunner zone =
      fun st : RunnerState => st.headSHA := by
    funext st
    exact omitText_getD st.headSHA
  rw [held.head, server.head, leadingText_map, sha]
  exact leadingText_getD

end Currents

end Runnerd
