import Runnerd.ServerGroups

/-!
The server's job groups split the visible jobs between them, and each group splits its
own jobs between the current and the previous ones.
-/

namespace Runnerd

section Halves

/-- The current jobs are the jobs of the group that pass some test. -/
theorem currentRunnerGroupJobs_filter (group : UserRunnerJobGroup) :
    ∃ test : RunnerState → Bool, currentRunnerGroupJobs group = group.jobs.filter test := by
  unfold currentRunnerGroupJobs
  dsimp only
  split
  · exact ⟨_, rfl⟩
  · split
    · exact ⟨_, rfl⟩
    · exact ⟨fun _ => true, by simp⟩

theorem currentRunnerGroupJobs_nonempty {group : UserRunnerJobGroup} (jobs : group.jobs ≠ []) :
    currentRunnerGroupJobs group ≠ [] := by
  unfold currentRunnerGroupJobs
  dsimp only
  split
  · rename_i head
    exact head.2
  · split
    · rename_i run
      exact run.2
    · exact jobs

theorem same_of_id {jobs : List RunnerState} (distinct : (jobs.map fun job => job.id).Nodup)
    {first second : RunnerState} (one : first ∈ jobs) (two : second ∈ jobs)
    (same : first.id = second.id) : first = second :=
  List.inj_on_of_nodup_map distinct one two same

/-- With distinct ids a job is not a previous one exactly if it is a current one. -/
theorem previousRunnerGroupJobs_filter {jobs : List RunnerState} (test : RunnerState → Bool)
    (distinct : (jobs.map fun job => job.id).Nodup) :
    previousRunnerGroupJobs jobs (jobs.filter test) = jobs.filter fun job => !test job := by
  apply List.filter_congr
  intro job member
  have current : job.id ∈ (jobs.filter test).map (fun current => current.id) ↔ test job = true := by
    constructor
    · intro inside
      obtain ⟨other, found, same⟩ := List.mem_map.mp inside
      obtain ⟨present, passes⟩ := List.mem_filter.mp found
      rwa [← same_of_id distinct present member same]
    · intro passes
      exact List.mem_map_of_mem (List.mem_filter.mpr ⟨member, passes⟩)
  by_cases passes : test job = true
  · simp [passes, current.mpr passes]
  · have absent := fun inside => passes (current.mp inside)
    simp only [Bool.not_eq_true] at passes
    rw [passes, List.contains_eq_mem, decide_eq_false absent]

end Halves

section Partition

variable {states : List RunnerState} {order : RangeOrder (Sigma fun _ : String => UserRunnerJobGroup)}
variable {group : UserRunnerJobGroup}

/-- Each visible job is in one group, and in each group it is current or previous. -/
structure Partitions (states : List RunnerState) (groups : List UserRunnerJobGroup) : Prop where
  keys : (groups.map fun group => group.key).Nodup
  one : ∀ st ∈ states, isUserVisibleRunnerJob st = true →
    ∃! group, group ∈ groups ∧ st ∈ group.jobs
  visible : ∀ group ∈ groups, ∀ st ∈ group.jobs, st ∈ states ∧ isUserVisibleRunnerJob st = true
  once : ∀ group ∈ groups, group.jobs.Nodup
  current : ∀ group ∈ groups, group.currentJobs ≠ []
  halves : ∀ group ∈ groups, (group.currentJobs ++ group.previousJobs).Perm group.jobs
  apart : ∀ group ∈ groups, group.currentJobs.Disjoint group.previousJobs

theorem jobs_perm (member : group ∈ runnerJobGroups order states) :
    group.jobs.Perm (jobsOf states group.key) := by
  obtain ⟨_, unordered, rfl, holds⟩ := serverGroups_hold member
  have ordered : (finishGroup unordered).jobs.Perm unordered.jobs := List.mergeSort_perm _ _
  rw [holds.members] at ordered
  exact ordered

theorem mem_jobsOf {key : String} {st : RunnerState} :
    st ∈ jobsOf states key ↔ (st ∈ states ∧ isUserVisibleRunnerJob st = true) ∧
      (jobSeed (prByRepositoryAndSHA states) st).key = key := by
  rw [jobsOf, List.mem_filter, List.mem_filter, decide_eq_true_eq]

theorem jobsOf_sublist (key : String) : (jobsOf states key).Sublist states :=
  List.filter_sublist.trans List.filter_sublist

theorem jobs_iff (member : group ∈ runnerJobGroups order states) (st : RunnerState) :
    st ∈ group.jobs ↔ (st ∈ states ∧ isUserVisibleRunnerJob st = true) ∧
      (jobSeed (prByRepositoryAndSHA states) st).key = group.key := by
  rw [(jobs_perm member).mem_iff, mem_jobsOf]

/-- A group is stored under its own key. -/
theorem stored_key {entry : Sigma fun _ : String => UserRunnerJobGroup}
    (stored : entry ∈ (states.foldl (groupJob (prByRepositoryAndSHA states)) ∅).entries) :
    entry.2.key = entry.1 := by
  have found := AList.mem_lookup_iff.mpr stored
  rw [server_gathered] at found
  rcases server_group states entry.1 with ⟨_, none⟩ | ⟨unordered, made, holds⟩
  · rw [none] at found
    cases found
  · rw [made] at found
    cases found
    exact holds.named

variable (states order) in
theorem keys_distinct : ((runnerJobGroups order states).map fun group => group.key).Nodup := by
  unfold runnerJobGroups
  dsimp only
  generalize there : states.foldl (groupJob (prByRepositoryAndSHA states)) ∅ = groupsByKey
  have sorted := (List.mergeSort_perm ((order.visit groupsByKey.entries).map
    fun entry => finishGroup entry.2) fun first second =>
      decide (second.updatedAt ≤ first.updatedAt)).map fun group => group.key
  rw [sorted.nodup_iff, List.map_map]
  have visited := (order.complete groupsByKey.entries).map fun entry => (finishGroup entry.2).key
  refine visited.nodup_iff.mpr ?_
  have own : groupsByKey.entries.map (fun entry => (finishGroup entry.2).key) =
      groupsByKey.entries.map Sigma.fst := by
    apply List.map_congr_left
    intro entry stored
    rw [← there] at stored
    exact stored_key stored
  rw [own]
  exact groupsByKey.nodupKeys

theorem ids_distinct (distinct : (states.map fun st => st.id).Nodup)
    (member : group ∈ runnerJobGroups order states) : (group.jobs.map fun job => job.id).Nodup := by
  rw [((jobs_perm member).map fun job => job.id).nodup_iff]
  exact distinct.sublist ((jobsOf_sublist group.key).map fun job => job.id)

theorem jobs_halved (distinct : (states.map fun st => st.id).Nodup)
    (member : group ∈ runnerJobGroups order states) :
    group.currentJobs ≠ [] ∧ (group.currentJobs ++ group.previousJobs).Perm group.jobs := by
  have ids := ids_distinct distinct member
  obtain ⟨some_, unordered, finished, holds⟩ := serverGroups_hold member
  have present : group.jobs ≠ [] := fun empty => some_ (by
    have perm := jobs_perm member
    rw [empty] at perm
    exact perm.nil_eq.symm)
  have current : group.currentJobs = currentRunnerGroupJobs group := by
    rw [finished]
    rfl
  have previous : group.previousJobs = previousRunnerGroupJobs group.jobs group.currentJobs := by
    rw [finished]
    rfl
  refine ⟨current ▸ currentRunnerGroupJobs_nonempty present, ?_⟩
  obtain ⟨test, filtered⟩ := currentRunnerGroupJobs_filter group
  rw [previous, current, filtered, previousRunnerGroupJobs_filter test ids]
  exact List.filter_append_perm test group.jobs

theorem partitions (order : RangeOrder (Sigma fun _ : String => UserRunnerJobGroup))
    (distinct : (states.map fun st => st.id).Nodup) :
    Partitions states (runnerJobGroups order states) where
  keys := keys_distinct states order
  one st present visible := by
    have inside : st ∈ jobsOf states (jobSeed (prByRepositoryAndSHA states) st).key :=
      mem_jobsOf.mpr ⟨⟨present, visible⟩, rfl⟩
    obtain ⟨unordered, here, holds⟩ := serverGroups_there order (List.ne_nil_of_mem inside)
    refine ⟨finishGroup unordered, ⟨here, ?_⟩, ?_⟩
    · exact (jobs_iff here st).mpr ⟨⟨present, visible⟩, holds.named.symm⟩
    · rintro other ⟨there, found⟩
      have same := ((jobs_iff there st).mp found).2
      exact List.inj_on_of_nodup_map (keys_distinct states order) there here
        (same.symm.trans holds.named.symm)
  visible group member st inside := ((jobs_iff member st).mp inside).1
  once group member := List.Nodup.of_map _ (ids_distinct distinct member)
  current group member := (jobs_halved distinct member).1
  halves group member := (jobs_halved distinct member).2
  apart group member := by
    have whole := (jobs_halved distinct member).2.nodup_iff.mpr
      (List.Nodup.of_map _ (ids_distinct distinct member))
    exact (List.nodup_append'.mp whole).2.2

end Partition

section ListOrder

/-- The job says that this commit belongs to this pull request. The commit is named as
`prByRepositoryAndSHA` names it. -/
def RunnerState.Places (st : RunnerState) (commit : String) (number : Int) : Prop :=
  (st.repositoryFullName ≠ "" ∧ st.headSHA ≠ "" ∧ number ≠ 0) ∧ st.pullRequestNumber = number ∧
    st.repositoryFullName ++ ":" ++ st.headSHA = commit

instance (st : RunnerState) (commit : String) (number : Int) : Decidable (st.Places commit number) :=
  inferInstanceAs (Decidable (_ ∧ _))

/-- No commit belongs to two pull requests. -/
def OnePullRequest (states : List RunnerState) : Prop :=
  ∀ commit, ∀ first ∈ states, ∀ second ∈ states, ∀ one two,
    first.Places commit one → second.Places commit two → one = two

/-- The job is in the group of this key. -/
def AssignedTo (groups : List UserRunnerJobGroup) (st : RunnerState) (key : String) : Prop :=
  ∃ group ∈ groups, group.key = key ∧ st ∈ group.jobs

theorem placed_append (states : List RunnerState) (last : RunnerState) (commit : String) :
    (prByRepositoryAndSHA (states ++ [last])).lookup commit =
      if last.Places commit last.pullRequestNumber then some last.pullRequestNumber
      else (prByRepositoryAndSHA states).lookup commit := by
  have step : prByRepositoryAndSHA (states ++ [last]) =
      if last.repositoryFullName ≠ "" ∧ last.headSHA ≠ "" ∧ last.pullRequestNumber ≠ 0 then
        (prByRepositoryAndSHA states).insert (last.repositoryFullName ++ ":" ++ last.headSHA)
          last.pullRequestNumber
      else prByRepositoryAndSHA states := by
    unfold prByRepositoryAndSHA
    rw [List.foldl_append]
    rfl
  rw [step]
  by_cases counts : last.repositoryFullName ≠ "" ∧ last.headSHA ≠ "" ∧ last.pullRequestNumber ≠ 0
  · rw [if_pos counts]
    by_cases here : last.repositoryFullName ++ ":" ++ last.headSHA = commit
    · rw [if_pos ⟨counts, rfl, here⟩, here, AList.lookup_insert]
    · rw [if_neg fun places => here places.2.2, AList.lookup_insert_ne (Ne.symm here)]
  · rw [if_neg counts, if_neg fun places => counts places.1]

/-- What is looked up is what some job says. -/
theorem placed_sound {states : List RunnerState} {commit : String} {number : Int}
    (found : (prByRepositoryAndSHA states).lookup commit = some number) :
    ∃ st ∈ states, st.Places commit number := by
  induction states using List.reverseRecOn with
  | nil => simp [prByRepositoryAndSHA] at found
  | append_singleton states last ih =>
      rw [placed_append] at found
      by_cases places : last.Places commit last.pullRequestNumber
      · rw [if_pos places] at found
        exact ⟨last, by simp, Option.some.inj found ▸ places⟩
      · rw [if_neg places] at found
        obtain ⟨st, member, named⟩ := ih found
        exact ⟨st, List.mem_append_left _ member, named⟩

theorem placed_there {states : List RunnerState} {commit : String} {number : Int}
    {st : RunnerState} (member : st ∈ states) (places : st.Places commit number) :
    ((prByRepositoryAndSHA states).lookup commit).isSome = true := by
  induction states using List.reverseRecOn with
  | nil => cases member
  | append_singleton states last ih =>
      rw [placed_append]
      by_cases own : last.Places commit last.pullRequestNumber
      · rw [if_pos own]
        rfl
      · rw [if_neg own]
        rcases List.mem_append.mp member with earlier | here
        · exact ih earlier
        · rw [List.mem_singleton.mp here] at places
          exact absurd (places.2.1 ▸ places) own

/-- Where no commit belongs to two pull requests, the jobs of a commit say which one it
belongs to, wherever they stand. -/
theorem placed_iff {states : List RunnerState} (unique : OnePullRequest states) (commit : String)
    (number : Int) : (prByRepositoryAndSHA states).lookup commit = some number ↔
      ∃ st ∈ states, st.Places commit number := by
  refine ⟨placed_sound, ?_⟩
  rintro ⟨st, member, places⟩
  obtain ⟨found, there⟩ := Option.isSome_iff_exists.mp (placed_there member places)
  obtain ⟨other, present, named⟩ := placed_sound there
  rw [there, unique commit other present st member found number named places]

theorem OnePullRequest.perm {states other : List RunnerState} (same : other.Perm states)
    (unique : OnePullRequest states) : OnePullRequest other :=
  fun commit first one second two =>
    unique commit first (same.mem_iff.mp one) second (same.mem_iff.mp two)

theorem jobSeed_perm {states other : List RunnerState} (same : other.Perm states)
    (unique : OnePullRequest states) (st : RunnerState) :
    jobSeed (prByRepositoryAndSHA other) st = jobSeed (prByRepositoryAndSHA states) st := by
  have lookup (commit : String) : (prByRepositoryAndSHA other).lookup commit =
      (prByRepositoryAndSHA states).lookup commit := by
    apply Option.ext
    intro number
    rw [placed_iff (unique.perm same), placed_iff unique]
    simp only [same.mem_iff]
  simp only [jobSeed, lookup]

theorem assigned_iff (order : RangeOrder (Sigma fun _ : String => UserRunnerJobGroup))
    (states : List RunnerState) (st : RunnerState) (key : String) :
    AssignedTo (runnerJobGroups order states) st key ↔
      (st ∈ states ∧ isUserVisibleRunnerJob st = true) ∧
        (jobSeed (prByRepositoryAndSHA states) st).key = key := by
  constructor
  · rintro ⟨group, member, rfl, inside⟩
    exact (jobs_iff member st).mp inside
  · intro assigned
    obtain ⟨unordered, here, holds⟩ :=
      serverGroups_there order (List.ne_nil_of_mem (mem_jobsOf.mpr assigned))
    refine ⟨finishGroup unordered, here, holds.named, ?_⟩
    have named : (finishGroup unordered).key = key := holds.named
    rw [jobs_iff here, named]
    exact assigned

end ListOrder

theorem job_groups_partition (order order' : RangeOrder (Sigma fun _ : String => UserRunnerJobGroup))
    (states : List RunnerState) (distinct : (states.map fun st => st.id).Nodup) :
    Partitions states (runnerJobGroups order states) ∧
      (OnePullRequest states → ∀ other, other.Perm states → ∀ st key,
        AssignedTo (runnerJobGroups order' other) st key ↔
          AssignedTo (runnerJobGroups order states) st key) := by
  refine ⟨partitions order distinct, fun unique other same st key => ?_⟩
  rw [assigned_iff, assigned_iff, jobSeed_perm same unique, same.mem_iff]

/-- A pull request's job, a job of the same commit that names no pull request, and one
that the users do not see. -/
def threeRows : List RunnerState :=
  [{ id := "1", status := .running, repositoryFullName := "org/app", pullRequestNumber := 5
     headSHA := "aaa" },
   { id := "2", status := .completed, repositoryFullName := "org/app", headSHA := "aaa" },
   { id := "3", status := .failed, failureStage := "admission"
     failureReason := "profile_labels_not_matched" }]

theorem job_groups_partition_three :
    (threeRows.map fun st => st.id).Nodup ∧
      Partitions threeRows (runnerJobGroups visitInOrder threeRows) ∧
      (OnePullRequest threeRows → ∀ other, other.Perm threeRows → ∀ st key,
        AssignedTo (runnerJobGroups visitInOrder other) st key ↔
          AssignedTo (runnerJobGroups visitInOrder threeRows) st key) ∧
      OnePullRequest threeRows := by
  have distinct : (threeRows.map fun st => st.id).Nodup := by decide
  refine ⟨distinct, (job_groups_partition visitInOrder visitInOrder threeRows distinct).1,
    (job_groups_partition visitInOrder visitInOrder threeRows distinct).2, ?_⟩
  have numbers : ∀ st ∈ threeRows, st.pullRequestNumber = 0 ∨ st.pullRequestNumber = 5 := by decide
  rintro commit first one second two n m ⟨⟨_, _, some_⟩, own, _⟩ ⟨⟨_, _, some'⟩, own', _⟩
  have first_ := numbers first one
  have second_ := numbers second two
  omega

end Runnerd
