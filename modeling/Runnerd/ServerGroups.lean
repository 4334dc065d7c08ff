import Runnerd.JobGroups
import Runnerd.KeyedGroups

/-!
What the server's job groups hold. The groups come out of one pass over the states, so
the group of a key is what the pass makes of the jobs with that key.
-/

namespace Runnerd

section Contents

variable (states : List RunnerState)

def repositoryName (st : RunnerState) : String :=
  if st.repositoryFullName = "" then "unknown/repository" else st.repositoryFullName

/-- The number that a job has, or that another job of its commit has. -/
def inferredNumber (states : List RunnerState) (st : RunnerState) : Int :=
  if st.pullRequestNumber = 0 ∧ st.headSHA ≠ "" then
    ((prByRepositoryAndSHA states).lookup (repositoryName st ++ ":" ++ st.headSHA)).getD 0
  else st.pullRequestNumber

theorem jobSeed_eq (states : List RunnerState) (st : RunnerState) :
    jobSeed (prByRepositoryAndSHA states) st =
      runnerJobGroupSeed st (repositoryName st) (inferredNumber states st) := rfl

/-- The visible jobs that the server puts into the group of a key. -/
def jobsOf (key : String) : List RunnerState :=
  (states.filter isUserVisibleRunnerJob).filter fun st =>
    decide ((jobSeed (prByRepositoryAndSHA states) st).key = key)

/-- The server's group of these jobs, before it is ordered. -/
def serverGroup (jobs : List RunnerState) : Option UserRunnerJobGroup :=
  gathered (jobSeed (prByRepositoryAndSHA states))
    (fun group st => group.join st (jobSeed (prByRepositoryAndSHA states) st)) jobs

theorem server_gathered (key : String) :
    (states.foldl (groupJob (prByRepositoryAndSHA states)) ∅).lookup key =
      serverGroup states (jobsOf states key) := by
  generalize numbers_ : prByRepositoryAndSHA states = numbers
  have visible : states.foldl (groupJob numbers) ∅ =
      (states.filter isUserVisibleRunnerJob).foldl (fun groupsByKey st =>
        groupsByKey.insert (jobSeed numbers st).key
          (((groupsByKey.lookup (jobSeed numbers st).key).map fun current =>
            current.join st (jobSeed numbers st)).getD (jobSeed numbers st))) ∅ := by
    rw [List.foldl_filter]
    congr 1
    funext groupsByKey st
    unfold groupJob
    cases isUserVisibleRunnerJob st with
    | false => rfl
    | true =>
        dsimp only
        cases groupsByKey.lookup (jobSeed numbers st).key with
        | none => rfl
        | some current => rfl
  rw [visible, serverGroup, jobsOf, numbers_]
  refine gathers_fold (fun (groups : GroupsByKey) key => groups.lookup key) ⟨?_, ?_⟩
    (fun key => AList.lookup_empty key) _ key
  · exact fun groups st => AList.lookup_insert _
  · exact fun groups st key different => AList.lookup_insert_ne (Ne.symm different)

def UserRunnerJobGroup.lead (group : UserRunnerJobGroup) : Lead Time :=
  ⟨group.updatedAt, group.headSHA⟩

theorem jobSeed_lead (st : RunnerState) :
    (jobSeed (prByRepositoryAndSHA states) st).lead = ⟨st.updatedAt, st.headSHA⟩ := by
  rw [jobSeed_eq, runnerJobGroupSeed]
  by_cases numbered : inferredNumber states st = 0
  · by_cases named : st.headSHA = ""
    · by_cases ran : st.workflowRunID = 0
      · simp [numbered, named, ran, UserRunnerJobGroup.lead]
      · simp [numbered, named, ran, UserRunnerJobGroup.lead]
    · simp [numbered, named, UserRunnerJobGroup.lead]
  · simp [numbered, UserRunnerJobGroup.lead]

theorem jobSeed_runs (st : RunnerState) :
    (jobSeed (prByRepositoryAndSHA states) st).workflowRunIDs =
      if st.workflowRunID ≠ 0 then [st.workflowRunID] else [] := by
  rw [jobSeed_eq, runnerJobGroupSeed]
  simp only [apply_ite UserRunnerJobGroup.workflowRunIDs, ite_self]

theorem join_key (current seed : UserRunnerJobGroup) (st : RunnerState) :
    (current.join st seed).key = current.key := by
  unfold UserRunnerJobGroup.join
  simp only [apply_ite UserRunnerJobGroup.key, ite_self]

theorem join_lead (current seed : UserRunnerJobGroup) (st : RunnerState) :
    (current.join st seed).lead = current.lead.join st.updatedAt st.headSHA := by
  unfold UserRunnerJobGroup.join UserRunnerJobGroup.lead Lead.join
  by_cases newer : current.updatedAt < st.updatedAt <;> by_cases named : st.headSHA = "" <;>
    by_cases blank : current.headSHA = "" <;>
    simp [newer, named, blank, apply_ite UserRunnerJobGroup.updatedAt,
      apply_ite UserRunnerJobGroup.headSHA]

theorem join_runs (current seed : UserRunnerJobGroup) (st : RunnerState) (run : Int) :
    run ∈ (current.join st seed).workflowRunIDs ↔
      run ∈ current.workflowRunIDs ∨ (run ≠ 0 ∧ run = st.workflowRunID) := by
  have kept : ∀ group : UserRunnerJobGroup, group.workflowRunIDs = current.workflowRunIDs →
      (run ∈ (if st.workflowRunID ≠ 0 ∧ st.workflowRunID ∉ group.workflowRunIDs then
        { group with workflowRunIDs := group.workflowRunIDs ++ [st.workflowRunID] }
        else group).workflowRunIDs ↔
      run ∈ current.workflowRunIDs ∨ (run ≠ 0 ∧ run = st.workflowRunID)) := by
    intro group same
    by_cases adds : st.workflowRunID ≠ 0 ∧ st.workflowRunID ∉ group.workflowRunIDs
    · rw [if_pos adds]
      simp only [List.mem_append, List.mem_singleton, same]
      grind
    · rw [if_neg adds, same]
      grind
  unfold UserRunnerJobGroup.join
  exact kept _ (by simp only [apply_ite UserRunnerJobGroup.workflowRunIDs, ite_self])

/-- What a group holds of its jobs. -/
structure ServerHolds (key : String) (jobs : List RunnerState) (group : UserRunnerJobGroup) :
    Prop where
  named : group.key = key
  members : group.jobs = jobs
  head : group.headSHA =
    (leadingText (fun st : RunnerState => st.updatedAt) (fun st => st.headSHA) jobs).getD ""
  runs : ∀ run, run ∈ group.workflowRunIDs ↔ run ≠ 0 ∧ ∃ st ∈ jobs, st.workflowRunID = run

theorem server_holds (first : RunnerState) (rest : List RunnerState) :
    ∃ group, serverGroup states (first :: rest) = some group ∧
      ServerHolds (jobSeed (prByRepositoryAndSHA states) first).key (first :: rest) group := by
  refine ⟨_, rfl, ?_, ?_, ?_, ?_⟩
  · induction rest using List.reverseRecOn with
    | nil => rfl
    | append_singleton rest last ih =>
        rw [List.foldl_append, List.foldl_cons, List.foldl_nil, join_key, ih]
  · induction rest using List.reverseRecOn with
    | nil => exact jobSeed_jobs _ _
    | append_singleton rest last ih =>
        rw [List.foldl_append, List.foldl_cons, List.foldl_nil, join_jobs, ih, List.cons_append]
  · have folded : (rest.foldl (fun group st =>
        group.join st (jobSeed (prByRepositoryAndSHA states) st))
        (jobSeed (prByRepositoryAndSHA states) first)).lead =
        rest.foldl (fun lead st => lead.join st.updatedAt st.headSHA)
          (jobSeed (prByRepositoryAndSHA states) first).lead :=
      (List.foldl_hom UserRunnerJobGroup.lead fun group st => (join_lead group _ st).symm).symm
    rw [jobSeed_lead] at folded
    exact (congrArg Lead.kept folded).trans (lead_fold first rest).2.2
  · intro run
    induction rest using List.reverseRecOn with
    | nil =>
        rw [List.foldl_nil, jobSeed_runs]
        by_cases ran : first.workflowRunID = 0
        · simp [ran]
          grind
        · simp [ran]
          grind
    | append_singleton rest last ih =>
        rw [List.foldl_append, List.foldl_cons, List.foldl_nil, join_runs, ih]
        simp only [← List.cons_append, List.mem_append, List.mem_singleton]
        grind

end Contents

section Runs

/-- Run ids in the order that a group keeps them. -/
def Descending (runs : List Int) : Prop := runs.Pairwise fun first second => second ≤ first

theorem descending_head {runs : List Int} (sorted : Descending runs) (run : Int) :
    runs.head? = some run ↔ run ∈ runs ∧ ∀ other ∈ runs, other ≤ run := by
  cases runs with
  | nil => simp
  | cons first rest =>
      have le : ∀ later ∈ rest, later ≤ first :=
        fun later member => List.rel_of_pairwise_cons sorted member
      simp only [List.head?_cons, Option.some.injEq, List.mem_cons]
      constructor
      · rintro rfl
        exact ⟨.inl rfl, fun other member => member.elim (fun same => same.le) (le other)⟩
      · rintro ⟨rfl | later, bound⟩
        · rfl
        · exact le_antisymm (bound first (.inl rfl)) (le run later)

theorem finish_descending (group : UserRunnerJobGroup) :
    Descending (finishGroup group).workflowRunIDs := by
  have ordered : (finishGroup group).workflowRunIDs.Pairwise
      fun first second => decide (second ≤ first) = true :=
    List.pairwise_mergeSort (fun first second third one two => by simp at *; omega)
      (fun first second => by simp; omega) group.workflowRunIDs
  exact ordered.imp fun le => by simpa using le

theorem finish_runs (group : UserRunnerJobGroup) (run : Int) :
    run ∈ (finishGroup group).workflowRunIDs ↔ run ∈ group.workflowRunIDs :=
  List.mem_mergeSort

end Runs

section Groups

variable (states : List RunnerState)
variable (order : RangeOrder (Sigma fun _ : String => UserRunnerJobGroup))

theorem server_group (key : String) :
    (jobsOf states key = [] ∧ serverGroup states (jobsOf states key) = none) ∨
      ∃ group, serverGroup states (jobsOf states key) = some group ∧
        ServerHolds key (jobsOf states key) group := by
  cases jobs : jobsOf states key with
  | nil => exact .inl ⟨rfl, rfl⟩
  | cons first rest =>
      have member : first ∈ jobsOf states key := by
        rw [jobs]
        exact List.mem_cons_self
      have named : (jobSeed (prByRepositoryAndSHA states) first).key = key :=
        of_decide_eq_true (List.mem_filter.mp member).2
      obtain ⟨group, made, holds⟩ := server_holds states first rest
      rw [named] at holds
      exact .inr ⟨group, made, holds⟩

theorem mem_serverGroups (group : UserRunnerJobGroup) :
    group ∈ runnerJobGroups order states ↔ ∃ key unordered,
      serverGroup states (jobsOf states key) = some unordered ∧ group = finishGroup unordered := by
  unfold runnerJobGroups
  simp only [List.mem_mergeSort, List.mem_map, (order.complete _).mem_iff]
  constructor
  · rintro ⟨entry, member, rfl⟩
    refine ⟨entry.1, entry.2, ?_, rfl⟩
    rw [← server_gathered]
    exact AList.mem_lookup_iff.mpr member
  · rintro ⟨key, unordered, made, rfl⟩
    rw [← server_gathered] at made
    exact ⟨⟨key, unordered⟩, AList.mem_lookup_iff.mp made, rfl⟩

variable {states order}

theorem serverGroups_hold {group : UserRunnerJobGroup}
    (member : group ∈ runnerJobGroups order states) :
    jobsOf states group.key ≠ [] ∧ ∃ unordered, group = finishGroup unordered ∧
      ServerHolds group.key (jobsOf states group.key) unordered := by
  obtain ⟨key, unordered, made, rfl⟩ := (mem_serverGroups states order group).mp member
  rcases server_group states key with ⟨_, none⟩ | ⟨found, made', holds⟩
  · rw [none] at made
    cases made
  · rw [made'] at made
    cases made
    have named : (finishGroup unordered).key = key := holds.named
    rw [named]
    refine ⟨fun empty => ?_, unordered, rfl, holds⟩
    rw [empty] at made'
    cases made'

variable (order) in
theorem serverGroups_there {key : String} (some_ : jobsOf states key ≠ []) :
    ∃ unordered, finishGroup unordered ∈ runnerJobGroups order states ∧
      ServerHolds key (jobsOf states key) unordered := by
  rcases server_group states key with ⟨empty, _⟩ | ⟨found, made, holds⟩
  · exact absurd empty some_
  · exact ⟨found, (mem_serverGroups states order _).mpr ⟨key, found, made, rfl⟩, holds⟩

end Groups

end Runnerd
