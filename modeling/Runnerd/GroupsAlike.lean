import Runnerd.BrowserAgreement

/-!
The browser's job groups and the server's, as a whole: the condition on the jobs under
which they are alike, and that it is the exact one.
-/

namespace Runnerd

open GoText

section Alike

/-- The same groups, with the same jobs, head SHA, current and previous jobs. -/
structure GroupsAlike (arrive : RunnerState → BrowserRunner) (serverGroups : List UserRunnerJobGroup)
    (groups : List BuildGroup) : Prop where
  keys : ∀ key, (∃ group ∈ serverGroups, group.key = key) ↔ ∃ build ∈ groups, build.key = key
  jobs : ∀ group ∈ serverGroups, ∀ build ∈ groups, build.key = group.key →
    build.jobs.Perm (group.jobs.map arrive)
  headSHA : ∀ group ∈ serverGroups, ∀ build ∈ groups, build.key = group.key →
    build.headSHA.getD "" = group.headSHA
  current : ∀ group ∈ serverGroups, ∀ build ∈ groups, build.key = group.key →
    (currentBuildJobs build).Perm (group.currentJobs.map arrive)
  previous : ∀ group ∈ serverGroups, ∀ build ∈ groups, build.key = group.key →
    (previousBuildJobs build (currentBuildJobs build)).Perm (group.previousJobs.map arrive)

/-- What the jobs must meet for that. -/
structure ReadsAlike (zone : Time → Int) (states : List RunnerState) : Prop where
  keys : ∀ st ∈ states, isUserVisibleRunnerJob st = true → ReadsKey (inferredNumber states st) st
  /-- In each group the newest job with a head SHA has the same one, whether times are
  compared or their texts. -/
  heads : ∀ key,
    leadingText (fun st : RunnerState => rfc3339 (zone st.updatedAt) st.updatedAt)
      (fun st => st.headSHA) (jobsOf states key) =
    leadingText (fun st : RunnerState => st.updatedAt) (fun st => st.headSHA) (jobsOf states key)
  runs : ∀ key, ReadsRuns (jobsOf states key)

variable (zone : Time → Int) (browser : Browser) (states : List RunnerState)
variable (order : RangeOrder (Sigma fun _ : String => UserRunnerJobGroup))

/-- The jobs that the browser puts into the group of a key. -/
def buildsOf (key : String) : List BrowserRunner :=
  ((states.map (browserRunner zone)).filter isUserVisibleBrowserJob).filter fun runner =>
    decide ((browserSeed browser (browserPRs (states.map (browserRunner zone))) runner).key = key)

theorem visible_same (st : RunnerState) :
    isUserVisibleBrowserJob (browserRunner zone st) = isUserVisibleRunnerJob st := by
  have text (field name : String) (named : name ≠ "") :
      (omitText field == some name) = (field == name) := by
    rw [Bool.eq_iff_iff, beq_iff_eq, beq_iff_eq, omitText]
    by_cases blank : field = ""
    · simp [blank, Ne.symm named]
    · simp [blank]
  simp only [isUserVisibleBrowserJob, isUserVisibleRunnerJob, browserRunner]
  rw [text st.failureStage "admission" (by decide),
    text st.failureReason "profile_labels_not_matched" (by decide)]

/-- With the same keys the browser puts the same jobs into each group. -/
theorem buildsOf_same (keys : ∀ st ∈ states, isUserVisibleRunnerJob st = true →
    ReadsKey (inferredNumber states st) st) (key : String) :
    buildsOf zone browser states key = (jobsOf states key).map (browserRunner zone) := by
  rw [buildsOf, jobsOf, List.filter_map, List.filter_map]
  have shown : isUserVisibleBrowserJob ∘ browserRunner zone = isUserVisibleRunnerJob := by
    funext st
    exact visible_same zone st
  rw [shown]
  congr 1
  apply List.filter_congr
  intro st member
  obtain ⟨present, visible⟩ := List.mem_filter.mp member
  have same := (seed_key_iff zone browser states st).mpr (keys st present visible)
  simp only [Function.comp_apply, same]

theorem browser_group (key : String) :
    (buildsOf zone browser states key = [] ∧ browserBuildGroup browser
        (browserPRs (states.map (browserRunner zone))) (buildsOf zone browser states key) = none) ∨
      ∃ build, browserBuildGroup browser (browserPRs (states.map (browserRunner zone)))
          (buildsOf zone browser states key) = some build ∧
        BrowserHolds key (buildsOf zone browser states key) build := by
  cases jobs : buildsOf zone browser states key with
  | nil => exact .inl ⟨rfl, rfl⟩
  | cons first rest =>
      have member : first ∈ buildsOf zone browser states key := by
        rw [jobs]
        exact List.mem_cons_self
      have named := of_decide_eq_true (List.mem_filter.mp member).2
      obtain ⟨build, made, holds⟩ :=
        browser_holds browser (browserPRs (states.map (browserRunner zone))) first rest
      rw [named] at holds
      exact .inr ⟨build, made, holds⟩

theorem mem_browserGroups (build : BuildGroup) :
    build ∈ groupRunnersByBuildContext browser (states.map (browserRunner zone)) ↔
      ∃ key unordered, browserBuildGroup browser (browserPRs (states.map (browserRunner zone)))
        (buildsOf zone browser states key) = some unordered ∧
        build = unordered.finished browser := by
  unfold groupRunnersByBuildContext
  simp only [List.mem_mergeSort, List.mem_map]
  constructor
  · rintro ⟨unordered, member, rfl⟩
    refine ⟨unordered.key, unordered, ?_, rfl⟩
    rw [buildsOf, ← browser_gathered]
    exact KeyedTable.find_some.mpr ⟨member, rfl⟩
  · rintro ⟨key, unordered, made, rfl⟩
    rw [buildsOf, ← browser_gathered] at made
    exact ⟨unordered, (KeyedTable.find_some.mp made).1, rfl⟩

theorem previous_same {group : UserRunnerJobGroup} {build : BuildGroup}
    (jobs : build.jobs.Perm ((finishGroup group).jobs.map (browserRunner zone)))
    (current : (currentBuildJobs build).Perm
      ((finishGroup group).currentJobs.map (browserRunner zone))) :
    (previousBuildJobs build (currentBuildJobs build)).Perm
      ((finishGroup group).previousJobs.map (browserRunner zone)) := by
  have previous : (finishGroup group).previousJobs = (finishGroup group).jobs.filter fun job =>
      !((finishGroup group).currentJobs.map fun current => current.id).contains job.id := rfl
  have ids : ((currentBuildJobs build).map fun current => current.id).Perm
      ((finishGroup group).currentJobs.map fun current => current.id) := by
    have mapped := current.map fun current : BrowserRunner => current.id
    rw [List.map_map] at mapped
    exact mapped
  have picked (id : String) : ((currentBuildJobs build).map fun current => current.id).contains id =
      ((finishGroup group).currentJobs.map fun current => current.id).contains id := by
    rw [Bool.eq_iff_iff, List.contains_iff_mem, List.contains_iff_mem]
    exact ids.mem_iff
  unfold previousBuildJobs
  rw [previous]
  simp only [picked]
  refine (jobs.filter _).trans ?_
  rw [List.filter_map]
  exact .refl _

variable {zone browser states order}

theorem browserGroups_hold {build : BuildGroup}
    (member : build ∈ groupRunnersByBuildContext browser (states.map (browserRunner zone))) :
    buildsOf zone browser states build.key ≠ [] ∧ ∃ unordered, build = unordered.finished browser ∧
      BrowserHolds build.key (buildsOf zone browser states build.key) unordered := by
  obtain ⟨key, unordered, made, rfl⟩ := (mem_browserGroups zone browser states build).mp member
  rcases browser_group zone browser states key with ⟨_, none⟩ | ⟨found, made', holds⟩
  · rw [none] at made
    cases made
  · rw [made'] at made
    cases made
    have named : (unordered.finished browser).key = key := holds.named
    rw [named]
    refine ⟨fun empty => ?_, unordered, rfl, holds⟩
    rw [empty] at made'
    cases made'

theorem browserGroups_there {key : String} (some_ : buildsOf zone browser states key ≠ []) :
    ∃ unordered, unordered.finished browser ∈
        groupRunnersByBuildContext browser (states.map (browserRunner zone)) ∧
      BrowserHolds key (buildsOf zone browser states key) unordered := by
  rcases browser_group zone browser states key with ⟨empty, _⟩ | ⟨found, made, holds⟩
  · exact absurd empty some_
  · exact ⟨found, (mem_browserGroups zone browser states _).mpr ⟨key, found, made, rfl⟩, holds⟩

/-- The two groups of one key, when the browser puts the same jobs into its own. -/
theorem alike_pair (reads : ReadsAlike zone states) {group : UserRunnerJobGroup} {build : BuildGroup}
    (here : group ∈ runnerJobGroups order states)
    (there : build ∈ groupRunnersByBuildContext browser (states.map (browserRunner zone)))
    (same : build.key = group.key) :
    build.jobs.Perm (group.jobs.map (browserRunner zone)) ∧
      build.headSHA.getD "" = group.headSHA ∧
      (currentBuildJobs build).Perm (group.currentJobs.map (browserRunner zone)) := by
  obtain ⟨_, unordered, finished, server⟩ := serverGroups_hold here
  obtain ⟨_, unordered', finished', held⟩ := browserGroups_hold there
  rw [same, buildsOf_same zone browser states reads.keys] at held
  have head := (head_iff server held).mpr (reads.heads group.key)
  have current := (current_iff browser server held head).mpr (reads.runs group.key)
  have jobs := finished_jobs browser server held
  rw [← finished, ← finished'] at jobs current
  rw [finished, finished']
  rw [finished, finished'] at jobs current
  exact ⟨jobs, head, current⟩

theorem alike_of_reads (reads : ReadsAlike zone states) :
    GroupsAlike (browserRunner zone) (runnerJobGroups order states)
      (groupRunnersByBuildContext browser (states.map (browserRunner zone))) := by
  have same := buildsOf_same zone browser states reads.keys
  constructor
  · intro key
    constructor
    · rintro ⟨group, here, rfl⟩
      have some_ : buildsOf zone browser states group.key ≠ [] := by
        rw [same]
        exact fun empty => (serverGroups_hold here).1 (List.map_eq_nil_iff.mp empty)
      obtain ⟨unordered, there, holds⟩ := browserGroups_there some_
      exact ⟨_, there, holds.named⟩
    · rintro ⟨build, there, rfl⟩
      have some_ : jobsOf states build.key ≠ [] := by
        intro empty
        refine (browserGroups_hold there).1 ?_
        rw [same, empty]
        rfl
      obtain ⟨unordered, here, holds⟩ := serverGroups_there order some_
      exact ⟨_, here, holds.named⟩
  · exact fun group here build there named => (alike_pair reads here there named).1
  · exact fun group here build there named => (alike_pair reads here there named).2.1
  · exact fun group here build there named => (alike_pair reads here there named).2.2
  · intro group here build there named
    obtain ⟨jobs, _, current⟩ := alike_pair reads here there named
    obtain ⟨_, unordered, rfl, _⟩ := serverGroups_hold here
    exact previous_same zone jobs current

theorem reads_of_alike (alike : GroupsAlike (browserRunner zone) (runnerJobGroups order states)
    (groupRunnersByBuildContext browser (states.map (browserRunner zone)))) :
    ReadsAlike zone states := by
  have keys : ∀ st ∈ states, isUserVisibleRunnerJob st = true →
      ReadsKey (inferredNumber states st) st := by
    intro st present visible
    rw [← seed_key_iff zone browser]
    have member : st ∈ jobsOf states (jobSeed (prByRepositoryAndSHA states) st).key :=
      List.mem_filter.mpr ⟨List.mem_filter.mpr ⟨present, visible⟩, decide_eq_true rfl⟩
    obtain ⟨unordered, here, server⟩ :=
      serverGroups_there order (List.ne_nil_of_mem member)
    obtain ⟨build, there, named⟩ := (alike.keys _).mp ⟨_, here, server.named⟩
    have jobs := alike.jobs _ here build there (named.trans server.named.symm)
    obtain ⟨_, unordered', rfl, held⟩ := browserGroups_hold there
    have arrived : browserRunner zone st ∈ (unordered'.finished browser).jobs := by
      rw [jobs.mem_iff]
      exact List.mem_map_of_mem ((finishGroup_jobs unordered st).mpr (by rwa [server.members]))
    have inside : browserRunner zone st ∈ unordered'.jobs :=
      (List.mergeSort_perm _ _).mem_iff.mp arrived
    rw [held.members] at inside
    have own := of_decide_eq_true (List.mem_filter.mp inside).2
    exact own.trans named
  have pair (key : String) (some_ : jobsOf states key ≠ []) :
      ∃ group build, ServerHolds key (jobsOf states key) group ∧
        BrowserHolds key ((jobsOf states key).map (browserRunner zone)) build ∧
        build.headSHA.getD "" = group.headSHA ∧
        (currentBuildJobs (build.finished browser)).Perm
          ((finishGroup group).currentJobs.map (browserRunner zone)) := by
    obtain ⟨unordered, here, server⟩ := serverGroups_there order some_
    obtain ⟨build, there, named⟩ := (alike.keys _).mp ⟨_, here, server.named⟩
    have same := named.trans server.named.symm
    have head := alike.headSHA _ here build there same
    have current := alike.current _ here build there same
    obtain ⟨_, unordered', rfl, held⟩ := browserGroups_hold there
    rw [named, buildsOf_same zone browser states keys] at held
    exact ⟨unordered, unordered', server, held, head, current⟩
  constructor
  · exact keys
  · intro key
    by_cases empty : jobsOf states key = []
    · rw [empty]
      rfl
    · obtain ⟨group, build, server, held, head, _⟩ := pair key empty
      exact (head_iff server held).mp head
  · intro key
    by_cases empty : jobsOf states key = []
    · rw [empty]
      exact fun _ st member => by cases member
    · obtain ⟨group, build, server, held, head, current⟩ := pair key empty
      exact (current_iff browser server held head).mp current

theorem groups_alike_iff (zone : Time → Int) (browser : Browser)
    (order : RangeOrder (Sigma fun _ : String => UserRunnerJobGroup)) (states : List RunnerState) :
    GroupsAlike (browserRunner zone) (runnerJobGroups order states)
        (groupRunnersByBuildContext browser (states.map (browserRunner zone))) ↔
      ReadsAlike zone states :=
  ⟨reads_of_alike, alike_of_reads⟩

/-- Half a second later, and the text of the time comes first. -/
def halfSecondLater : List RunnerState :=
  [{ id := "1", status := .completed, repositoryFullName := "org/app", pullRequestNumber := 5
     headSHA := "aaa", updatedAt := 1709200800000000000 },
   { id := "2", status := .running, repositoryFullName := "org/app", pullRequestNumber := 5
     headSHA := "bbb", updatedAt := 1709200800500000000 }]

def plainBrowser : Browser where
  t name _ := name
  localeCompare first second := if first < second then -1 else if first = second then 0 else 1

theorem half_second_apart :
    ¬GroupsAlike (browserRunner fun _ => 0) (runnerJobGroups visitInOrder halfSecondLater)
      (groupRunnersByBuildContext plainBrowser (halfSecondLater.map (browserRunner fun _ => 0))) := by
  intro alike
  have server : ((runnerJobGroups visitInOrder halfSecondLater).map fun group =>
      (group.key, group.headSHA)) = [("pr:org/app:5", "bbb")] := by decide +kernel
  have browser : ((groupRunnersByBuildContext plainBrowser
      (halfSecondLater.map (browserRunner fun _ => 0))).map fun build =>
      (build.key, build.headSHA.getD "")) = [("pr:org/app:5", "aaa")] := by decide +kernel
  obtain ⟨group, groups, one⟩ := List.map_eq_singleton_iff.mp server
  obtain ⟨build, builds, two⟩ := List.map_eq_singleton_iff.mp browser
  simp only [Prod.mk.injEq] at one two
  have same := alike.headSHA group (by simp [groups]) build (by simp [builds]) (two.1.trans one.1.symm)
  rw [one.2, two.2] at same
  exact absurd same (by decide)

end Alike

end Runnerd
