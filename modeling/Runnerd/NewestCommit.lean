import Mathlib.Data.List.MinMax
import Runnerd.JobPartition

/-!
Which commit a job group shows. The loop of `runnerJobGroups` keeps one time for the
whole group, so a job without a head SHA hides a commit that is older than it and comes
later in the list.
-/

namespace Runnerd

section Newest

/-- The most recently updated of the jobs that have a head SHA. -/
def NewestOf (jobs : List RunnerState) (newest : RunnerState) : Prop :=
  (newest ∈ jobs ∧ newest.headSHA ≠ "") ∧
    ∀ other ∈ jobs, other.headSHA ≠ "" → other.updatedAt ≤ newest.updatedAt

structure ShowsNewest (group : UserRunnerJobGroup) : Prop where
  head : (∀ newest, NewestOf group.jobs newest → group.headSHA = newest.headSHA) ∧
    (group.headSHA = "" ↔ ∀ st ∈ group.jobs, st.headSHA = "")
  current : group.headSHA ≠ "" →
    group.currentJobs = group.jobs.filter fun job => job.headSHA == group.headSHA

/-- Where a job without a head SHA stands before the newest one with a SHA and was updated
after it, the jobs before the newest one bring no other SHA than its own. -/
def NewestReaches (jobs : List RunnerState) : Prop :=
  ∀ before newest after, jobs = before ++ newest :: after → NewestOf jobs newest →
    (∃ st ∈ before, st.headSHA = "" ∧ newest.updatedAt < st.updatedAt) →
    ∀ sha, leadingText (fun st : RunnerState => st.updatedAt) (fun st => st.headSHA) before =
      some sha → sha = newest.headSHA

theorem NewestOf.perm {jobs other : List RunnerState} (same : other.Perm jobs)
    {newest : RunnerState} : NewestOf other newest ↔ NewestOf jobs newest := by
  simp only [NewestOf, same.mem_iff]

/-- The list brings the newest SHA, unless an earlier one was kept. -/
theorem leading_newest {before after : List RunnerState} {newest : RunnerState}
    (distinct : ((before ++ newest :: after).map fun st => st.updatedAt).Nodup)
    (latest : NewestOf (before ++ newest :: after) newest) :
    leadingText (fun st : RunnerState => st.updatedAt) (fun st => st.headSHA)
        (before ++ newest :: after) =
      if ∃ st ∈ before, st.headSHA = "" ∧ newest.updatedAt < st.updatedAt then
        (leadingText (fun st : RunnerState => st.updatedAt) (fun st => st.headSHA) before).or
          (some newest.headSHA)
      else some newest.headSHA := by
  have older : (∃ st ∈ before, st.headSHA = "" ∧ newest.updatedAt < st.updatedAt) ↔
      ¬∀ old ∈ before, old.updatedAt < newest.updatedAt := by
    constructor
    · rintro ⟨st, member, _, later⟩ all
      exact lt_asymm later (all st member)
    · intro some_
      simp only [not_forall, not_lt] at some_
      obtain ⟨st, member, later⟩ := some_
      have apart : newest.updatedAt ≠ st.updatedAt := by
        intro same
        rw [List.map_append, List.map_cons] at distinct
        refine (List.nodup_append'.mp distinct).2.2 (List.mem_map_of_mem member) ?_
        rw [← same]
        exact List.mem_cons_self
      have later_ := lt_of_le_of_ne later apart
      refine ⟨st, member, ?_, later_⟩
      by_contra named
      exact not_le.mpr later_ (latest.2 st (List.mem_append_left _ member) named)
  have shown : leadingText (fun st : RunnerState => st.updatedAt) (fun st => st.headSHA)
      (before ++ newest :: after) = leadingText (fun st : RunnerState => st.updatedAt)
        (fun st => st.headSHA) (before ++ [newest]) := by
    apply leadingText_newest
    · exact latest.1.2
    · exact fun other member => latest.2 other (by simp [member])
  rw [shown, leadingText_append]
  by_cases hidden : ∃ st ∈ before, st.headSHA = "" ∧ newest.updatedAt < st.updatedAt
  · rw [if_pos hidden]
    cases kept : leadingText (fun st : RunnerState => st.updatedAt) (fun st => st.headSHA) before with
    | none => rw [if_pos ⟨latest.1.2, .inr rfl⟩, Option.none_or]
    | some sha =>
        rw [if_neg, Option.some_or]
        rintro ⟨_, all | none_⟩
        · exact older.mp hidden all
        · cases none_
  · rw [if_neg hidden, if_pos ⟨latest.1.2, .inl (not_not.mp fun not_ => hidden (older.mpr not_))⟩]

end Newest

section Groups

variable {states : List RunnerState} {order : RangeOrder (Sigma fun _ : String => UserRunnerJobGroup)}
variable {group : UserRunnerJobGroup}

theorem group_head (member : group ∈ runnerJobGroups order states) :
    group.headSHA = (leadingText (fun st : RunnerState => st.updatedAt) (fun st => st.headSHA)
      (jobsOf states group.key)).getD "" := by
  obtain ⟨_, unordered, finished, holds⟩ := serverGroups_hold member
  rw [← holds.head, finished]
  rfl

/-- The head SHA is the SHA of some job of the group, where one has a SHA. -/
theorem group_head_jobs (member : group ∈ runnerJobGroups order states) :
    (group.headSHA = "" ↔ ∀ st ∈ group.jobs, st.headSHA = "") ∧
      (group.headSHA ≠ "" → ∃ st ∈ group.jobs, st.headSHA = group.headSHA) := by
  have perm := jobs_perm member
  rw [group_head member]
  cases leading : leadingText (fun st : RunnerState => st.updatedAt) (fun st => st.headSHA)
      (jobsOf states group.key) with
  | none =>
      have blank := leadingText_none.mp leading
      refine ⟨iff_of_true rfl fun st inside => blank st (perm.mem_iff.mp inside), ?_⟩
      exact fun named => absurd rfl named
  | some sha =>
      obtain ⟨named, st, inside, same⟩ := leadingText_some leading
      refine ⟨iff_of_false named fun blank => ?_, fun _ => ⟨st, perm.mem_iff.mpr inside, same⟩⟩
      exact named (same.symm.trans (blank st (perm.mem_iff.mpr inside)))

theorem group_current (member : group ∈ runnerJobGroups order states) (named : group.headSHA ≠ "") :
    group.currentJobs = group.jobs.filter fun job => job.headSHA == group.headSHA := by
  obtain ⟨st, inside, same⟩ := (group_head_jobs member).2 named
  have some_ : (group.jobs.filter fun job => job.headSHA == group.headSHA) ≠ [] :=
    List.ne_nil_of_mem (List.mem_filter.mpr ⟨inside, beq_iff_eq.mpr same⟩)
  obtain ⟨_, unordered, finished, _⟩ := serverGroups_hold member
  have current : group.currentJobs = currentRunnerGroupJobs group := by
    rw [finished]
    rfl
  rw [current]
  exact if_pos ⟨named, some_⟩

theorem clocks_distinct (distinct : (states.map fun st => st.updatedAt).Nodup) (key : String) :
    ((jobsOf states key).map fun st => st.updatedAt).Nodup :=
  distinct.sublist ((jobsOf_sublist key).map _)

theorem shows_iff (distinct : (states.map fun st => st.updatedAt).Nodup)
    (member : group ∈ runnerJobGroups order states) :
    ShowsNewest group ↔ NewestReaches (jobsOf states group.key) := by
  have clocks := clocks_distinct distinct group.key
  have perm := jobs_perm member
  constructor
  · intro shows before newest after jobs latest hidden sha kept
    have head := shows.head.1 newest ((NewestOf.perm perm).mpr latest)
    rw [group_head member, jobs, leading_newest (jobs ▸ clocks) (jobs ▸ latest), if_pos hidden,
      kept] at head
    exact head
  · intro reaches
    refine ⟨⟨fun newest latest => ?_, (group_head_jobs member).1⟩, group_current member⟩
    rw [NewestOf.perm perm] at latest
    obtain ⟨before, after, jobs⟩ := List.append_of_mem latest.1.1
    rw [group_head member, jobs, leading_newest (jobs ▸ clocks) (jobs ▸ latest)]
    by_cases hidden : ∃ st ∈ before, st.headSHA = "" ∧ newest.updatedAt < st.updatedAt
    · rw [if_pos hidden]
      cases kept : leadingText (fun st : RunnerState => st.updatedAt) (fun st => st.headSHA)
          before with
      | none => rfl
      | some sha => exact reaches before newest after jobs latest hidden sha kept
    · rw [if_neg hidden]
      rfl

end Groups

theorem groups_show_newest_iff (order : RangeOrder (Sigma fun _ : String => UserRunnerJobGroup))
    (states : List RunnerState) (distinct : (states.map fun st => st.updatedAt).Nodup) :
    (∀ group ∈ runnerJobGroups order states, ShowsNewest group) ↔
      ∀ key, NewestReaches (jobsOf states key) := by
  constructor
  · intro shows key
    by_cases empty : jobsOf states key = []
    · intro before newest after jobs
      rw [empty] at jobs
      simp at jobs
    · obtain ⟨unordered, here, holds⟩ := serverGroups_there order empty
      have named : (finishGroup unordered).key = key := holds.named
      rw [← named]
      exact (shows_iff distinct here).mp (shows _ here)
  · exact fun reaches group member => (shows_iff distinct member).mpr (reaches group.key)

/-- Three jobs of a pull request. The first one has no head SHA and is the newest, the
third one has the newest SHA. -/
def hiddenCommit : List RunnerState :=
  [{ id := "1", status := .running, repositoryFullName := "org/app", pullRequestNumber := 5
     updatedAt := 3 },
   { id := "2", status := .completed, repositoryFullName := "org/app", pullRequestNumber := 5
     headSHA := "bbb", updatedAt := 1 },
   { id := "3", status := .running, repositoryFullName := "org/app", pullRequestNumber := 5
     headSHA := "ccc", updatedAt := 2 }]

theorem groups_show_newest_hidden :
    (hiddenCommit.map fun st => st.updatedAt).Nodup ∧
      ((∀ group ∈ runnerJobGroups visitInOrder hiddenCommit, ShowsNewest group) ↔
        ∀ key, NewestReaches (jobsOf hiddenCommit key)) :=
  ⟨by decide, groups_show_newest_iff visitInOrder hiddenCommit (by decide)⟩

theorem newest_commit_hidden :
    (hiddenCommit.map fun st => st.updatedAt).Nodup ∧
      ¬∀ group ∈ runnerJobGroups visitInOrder hiddenCommit, ShowsNewest group := by
  refine ⟨by decide, fun shows => ?_⟩
  have jobs : jobsOf hiddenCommit "pr:org/app:5" = hiddenCommit := by decide +kernel
  obtain ⟨unordered, here, holds⟩ := serverGroups_there visitInOrder
    (show jobsOf hiddenCommit "pr:org/app:5" ≠ [] by rw [jobs]; decide)
  have named : (finishGroup unordered).key = "pr:org/app:5" := holds.named
  have reaches := (shows_iff (by decide) here).mp (shows _ here)
  rw [named, jobs] at reaches
  -- the first job hides the third one, so the SHA of the second one is kept
  have kept : leadingText (fun st : RunnerState => st.updatedAt) (fun st => st.headSHA)
      (hiddenCommit.take 2) = some "bbb" := by decide
  have newest : NewestOf hiddenCommit (hiddenCommit.get ⟨2, by decide⟩) := by
    refine ⟨⟨List.get_mem _ _, by decide⟩, ?_⟩
    decide
  have same := reaches (hiddenCommit.take 2) _ [] rfl newest
    ⟨hiddenCommit.get ⟨0, by decide⟩, by simp [hiddenCommit], by decide, by decide⟩ "bbb" kept
  exact absurd same (by decide)

end Runnerd
