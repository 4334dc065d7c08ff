import Runnerd.BestFirst
import Runnerd.RequestStore

/-!
Which runner spec takes a workflow job: `internal/labelutil/labels.go` and the
selection of `internal/state/catalog.go`. The rule in the README reads
`required_labels ⊆ job_labels ⊆ labels`. The code tests both inclusions with one
helper, whose parameters are named for the second one.

`strings.ToLower` and `sort.Slice` are parameters: what is proved holds for any
way to lower a label and for any sort.
-/

namespace Runnerd

open GoText BestFirst

section Rule
variable (lower : String → String)

/-- `labelutil.Match`, over the set of labels it builds from `required`. -/
def matchLabels (jobLabels required : List String) : Bool :=
  if jobLabels.length = 0 then true
  else
    let available := required.map fun label => lower (trimSpace label)
    jobLabels.all fun label => available.contains (lower (trimSpace label))

/-- The comparison of `selectMatchingProfile`. -/
def profileLess (first second : RunnerProfile) : Bool :=
  if first.priority ≠ second.priority then decide (second.priority < first.priority)
  else if first.labels.length ≠ second.labels.length then
    decide (second.labels.length < first.labels.length)
  else decide (first.name < second.name)

def profileCandidates (profiles : List RunnerProfile) (labels : List String) :
    List RunnerProfile :=
  profiles.filter fun profile =>
    profile.enabled && matchLabels lower profile.requiredLabels labels &&
      matchLabels lower labels profile.labels

/-- `selectMatchingProfile`, for a given `strings.ToLower` and `sort.Slice`. -/
def selectMatchingProfileBy (sorter : SliceSort RunnerProfile) (profiles : List RunnerProfile)
    (labels : List String) : Option RunnerProfile :=
  (sorter.sort profileLess (profileCandidates lower profiles labels)).head?

/-- The labels as they are compared. -/
def labelNames (labels : List String) : Set String :=
  { name | ∃ label ∈ labels, lower (trimSpace label) = name }

/-- The documented rule. -/
structure Suits (labels : List String) (profile : RunnerProfile) : Prop where
  enabled : profile.enabled = true
  required : labelNames lower profile.requiredLabels ⊆ labelNames lower labels
  offered : labelNames lower labels ⊆ labelNames lower profile.labels

/-- The greater priority, then the more labels, then the smaller name. -/
def Outranks (first second : RunnerProfile) : Prop :=
  second.priority < first.priority ∨
    (first.priority = second.priority ∧ (second.labels.length < first.labels.length ∨
      (first.labels.length = second.labels.length ∧ first.name < second.name)))

/-- One step of rewriting a job's labels: another order, a label said twice, or
one written in another case or with blanks around it. -/
inductive Relabelled : List String → List String → Prop where
  | ordered {first second : List String} (same : first.Perm second) : Relabelled first second
  | repeated {labels : List String} {label : String} (present : label ∈ labels) :
      Relabelled (label :: labels) labels
  | respelt {labels : List String} {first second : String}
      (same : lower (trimSpace first) = lower (trimSpace second)) :
      Relabelled (first :: labels) (second :: labels)

end Rule

section Facts
variable {lower : String → String} {labels : List String}

theorem matchLabels_iff (jobLabels required : List String) :
    matchLabels lower jobLabels required = true ↔
      labelNames lower jobLabels ⊆ labelNames lower required := by
  have inside : (∀ label ∈ jobLabels, lower (trimSpace label) ∈
      required.map fun label => lower (trimSpace label)) ↔
      labelNames lower jobLabels ⊆ labelNames lower required := by
    constructor
    · rintro all name ⟨label, member, rfl⟩
      obtain ⟨other, present, same⟩ := List.mem_map.mp (all label member)
      exact ⟨other, present, same⟩
    · intro subset label member
      obtain ⟨other, present, same⟩ := subset ⟨label, member, rfl⟩
      exact List.mem_map.mpr ⟨other, present, same⟩
  rw [← inside]
  unfold matchLabels
  by_cases empty : jobLabels.length = 0
  · have nil : jobLabels = [] := List.length_eq_zero_iff.mp empty
    simp [nil]
  · simp [empty]

theorem mem_candidates (profiles : List RunnerProfile) (profile : RunnerProfile) :
    profile ∈ profileCandidates lower profiles labels ↔
      profile ∈ profiles ∧ Suits lower labels profile := by
  simp only [profileCandidates, List.mem_filter, Bool.and_eq_true, matchLabels_iff]
  constructor
  · rintro ⟨member, ⟨enabled, required⟩, offered⟩
    exact ⟨member, enabled, required, offered⟩
  · rintro ⟨member, suits⟩
    exact ⟨member, ⟨suits.enabled, suits.required⟩, suits.offered⟩

theorem profileLess_iff (first second : RunnerProfile) :
    profileLess first second = true ↔ Outranks first second := by
  unfold profileLess Outranks
  by_cases priority : first.priority = second.priority
  · by_cases count : first.labels.length = second.labels.length
    · simp [priority, count]
    · simp [priority, count]
  · simp [priority]

theorem profileLess_weak : StrictWeak profileLess := by
  have falls {first second : RunnerProfile} :
      profileLess first second = false ↔ ¬Outranks first second := by
    rw [← profileLess_iff, Bool.not_eq_true]
  constructor
  · intro profile
    simp [falls, Outranks]
  · intro first second before
    rw [profileLess_iff] at before
    rw [falls]
    intro after
    rcases before with higher | ⟨priority, longer | ⟨count, earlier⟩⟩
    · rcases after with lower_ | ⟨same, _⟩ <;> omega
    · rcases after with lower_ | ⟨same, shorter | ⟨same, _⟩⟩ <;> omega
    · rcases after with lower_ | ⟨same, shorter | ⟨same, later⟩⟩
      · omega
      · omega
      · exact String.lt_asymm earlier later
  · intro first second third left right
    rw [falls] at left right ⊢
    simp only [Outranks, not_or, not_and, not_lt] at left right ⊢
    refine ⟨left.1.trans right.1, fun priority => ?_⟩
    have middle : first.priority = second.priority :=
      le_antisymm left.1 (priority ▸ right.1)
    have left' := left.2 middle
    have right' := right.2 (middle.symm.trans priority)
    refine ⟨left'.1.trans right'.1, fun count => ?_⟩
    have middle' : first.labels.length = second.labels.length :=
      le_antisymm left'.1 (count ▸ right'.1)
    exact String.le_trans (right'.2 (middle'.symm.trans count)) (left'.2 middle')

/-- Specs of different names do not tie. -/
theorem profileLess_separated {profiles : List RunnerProfile}
    (distinct : (profiles.map RunnerProfile.name).Nodup) : Separated profileLess profiles := by
  intro first left second right before after
  apply List.inj_on_of_nodup_map distinct left right
  have decides {a b : RunnerProfile} (less : profileLess a b = false) : ¬Outranks a b := by
    rw [← profileLess_iff, less]
    exact Bool.false_ne_true
  have before := decides before
  have after := decides after
  simp only [Outranks, not_or, not_and, not_lt] at before after
  have priority : first.priority = second.priority := le_antisymm before.1 after.1
  have count : first.labels.length = second.labels.length :=
    le_antisymm (before.2 priority).1 (after.2 priority.symm).1
  exact String.le_antisymm ((after.2 priority.symm).2 count.symm) ((before.2 priority).2 count)

theorem relabelled_names {first second : List String} (rewritten : Relabelled lower first second) :
    labelNames lower first = labelNames lower second := by
  cases rewritten with
  | ordered same =>
      ext name
      constructor
      · rintro ⟨label, member, rfl⟩
        exact ⟨label, same.subset member, rfl⟩
      · rintro ⟨label, member, rfl⟩
        exact ⟨label, same.symm.subset member, rfl⟩
  | repeated present =>
      ext name
      constructor
      · rintro ⟨label, member, rfl⟩
        rcases List.mem_cons.mp member with rfl | later
        · exact ⟨_, present, rfl⟩
        · exact ⟨label, later, rfl⟩
      · rintro ⟨label, member, rfl⟩
        exact ⟨label, List.mem_cons_of_mem _ member, rfl⟩
  | respelt same =>
      ext name
      simp only [labelNames, List.mem_cons, Set.mem_ofPred_eq, exists_eq_or_imp, same]

theorem rewritten_names {first second : List String}
    (rewritten : Relation.EqvGen (Relabelled lower) first second) :
    labelNames lower first = labelNames lower second := by
  induction rewritten with
  | rel _ _ step => exact relabelled_names step
  | refl _ => rfl
  | symm _ _ _ ih => exact ih.symm
  | trans _ _ _ _ _ first second => exact first.trans second

/-- The candidates depend on the labels only through the names they stand for. -/
theorem candidates_names (profiles : List RunnerProfile) {first second : List String}
    (same : labelNames lower first = labelNames lower second) :
    profileCandidates lower profiles first = profileCandidates lower profiles second := by
  apply List.filter_congr
  intro profile _
  have required : matchLabels lower profile.requiredLabels first =
      matchLabels lower profile.requiredLabels second := by
    rw [Bool.eq_iff_iff, matchLabels_iff, matchLabels_iff, same]
  have offered : matchLabels lower first profile.labels =
      matchLabels lower second profile.labels := by
    rw [Bool.eq_iff_iff, matchLabels_iff, matchLabels_iff, same]
  rw [required, offered]

end Facts

section Selection

/-- What the README and the comments promise of the selection. -/
structure SelectsByRule (lower : String → String) (sorter : SliceSort RunnerProfile)
    (profiles : List RunnerProfile) (labels : List String) : Prop where
  rejects : selectMatchingProfileBy lower sorter profiles labels = none ↔
    ∀ profile ∈ profiles, ¬Suits lower labels profile
  selects : ∀ profile, selectMatchingProfileBy lower sorter profiles labels = some profile ↔
    profile ∈ profiles ∧ Suits lower labels profile ∧
      ∀ other ∈ profiles, Suits lower labels other → other ≠ profile → Outranks profile other
  specsInAnyOrder : ∀ (other : SliceSort RunnerProfile) (permuted : List RunnerProfile),
    permuted.Perm profiles → selectMatchingProfileBy lower other permuted labels =
      selectMatchingProfileBy lower sorter profiles labels
  labelsInAnyForm : ∀ rewritten, Relation.EqvGen (Relabelled lower) rewritten labels →
    selectMatchingProfileBy lower sorter profiles rewritten =
      selectMatchingProfileBy lower sorter profiles labels

section ByRule
variable (lower : String → String) (sorter : SliceSort RunnerProfile)
  {profiles : List RunnerProfile} (distinct : (profiles.map RunnerProfile.name).Nodup)
  (labels : List String)
include distinct

theorem candidates_separated : Separated profileLess (profileCandidates lower profiles labels) := by
  intro first left second right
  exact profileLess_separated distinct first (List.mem_of_mem_filter left) second
    (List.mem_of_mem_filter right)

theorem selectMatchingProfileBy_some (profile : RunnerProfile) :
    selectMatchingProfileBy lower sorter profiles labels = some profile ↔
      profile ∈ profiles ∧ Suits lower labels profile ∧
        ∀ other ∈ profiles, Suits lower labels other → other ≠ profile →
          Outranks profile other := by
  have separated := candidates_separated lower distinct labels
  rw [selectMatchingProfileBy, first_iff sorter profileLess_weak separated]
  constructor
  · intro best
    obtain ⟨member, suits⟩ := (mem_candidates profiles profile).mp best.member
    refine ⟨member, suits, fun other present fits different => ?_⟩
    have candidate := (mem_candidates profiles other).mpr ⟨present, fits⟩
    rw [← profileLess_iff]
    by_contra notAbove
    exact different (separated other candidate profile best.member (best.least other candidate)
      (Bool.not_eq_true _ |>.mp notAbove))
  · rintro ⟨member, suits, outranks⟩
    refine ⟨(mem_candidates profiles profile).mpr ⟨member, suits⟩, fun other candidate => ?_⟩
    obtain ⟨present, fits⟩ := (mem_candidates profiles other).mp candidate
    by_cases same : other = profile
    · rw [same]
      exact profileLess_weak.irrefl profile
    · exact profileLess_weak.asymm _ _ ((profileLess_iff _ _).mpr (outranks other present fits same))

end ByRule

theorem selectMatchingProfile_rule (lower : String → String) (sorter : SliceSort RunnerProfile)
    {profiles : List RunnerProfile} (distinct : (profiles.map RunnerProfile.name).Nodup)
    (labels : List String) : SelectsByRule lower sorter profiles labels := by
  have separated := candidates_separated lower distinct labels
  constructor
  · rw [selectMatchingProfileBy, first_none, List.eq_nil_iff_forall_not_mem]
    constructor
    · intro none profile member suits
      exact none profile ((mem_candidates profiles profile).mpr ⟨member, suits⟩)
    · intro none profile candidate
      obtain ⟨member, suits⟩ := (mem_candidates profiles profile).mp candidate
      exact none profile member suits
  · exact selectMatchingProfileBy_some lower sorter distinct labels
  · intro other permuted same
    exact first_congr sorter other profileLess_weak separated (same.filter _)
  · intro rewritten steps
    have names := rewritten_names steps
    rw [selectMatchingProfileBy, selectMatchingProfileBy, candidates_names profiles names]

/-- Two specs of the built-in catalog and one that an operator added. -/
def catalogSpecs : List RunnerProfile :=
  [{ name := "qiniu-ubuntu-24.04", labels := ["self-hosted", "linux", "x64", "qiniu", "ubuntu-24.04"]
     requiredLabels := ["qiniu", "ubuntu-24.04"], priority := 100, managedBy := "qiniu/ci-runner" },
   { name := "qiniu-ubuntu-latest", labels := ["self-hosted", "linux", "x64", "qiniu", "ubuntu-latest"]
     requiredLabels := ["qiniu", "ubuntu-latest"], priority := 100, managedBy := "qiniu/ci-runner" },
   { name := "default", labels := ["self-hosted", "e2b", "qiniu", "ubuntu-24.04"] }]

theorem selectMatchingProfile_rule_catalog :
    SelectsByRule toLower insertion catalogSpecs [" Qiniu", "UBUNTU-24.04", "qiniu"] :=
  selectMatchingProfile_rule toLower insertion (by decide) _

example : (selectMatchingProfile catalogSpecs [" Qiniu", "UBUNTU-24.04", "qiniu"]).map
    RunnerProfile.name = some "qiniu-ubuntu-24.04" := by decide +kernel

/-- `selectMatchingProfile` as the store uses it. -/
theorem selectMatchingProfile_by (profiles : List RunnerProfile) (labels : List String) :
    selectMatchingProfile profiles labels =
      selectMatchingProfileBy toLower insertion profiles labels := by
  have matching (first second : List String) :
      labelsMatch first second = matchLabels toLower first second := by
    cases first with
    | nil => rfl
    | cons head rest => rfl
  have preferred (first second : RunnerProfile) :
      profilePreferred first second = true ↔ profileLess second first = false := by
    unfold profilePreferred profileLess
    by_cases priority : first.priority = second.priority
    · by_cases count : first.labels.length = second.labels.length
      · simp only [priority, count, ne_eq, not_true, if_false, decide_eq_true_eq,
          decide_eq_false_iff_not]
        exact Iff.rfl
      · have other : second.labels.length ≠ first.labels.length := fun same => count same.symm
        simp [priority, count, other]
        omega
    · have other : second.priority ≠ first.priority := fun same => priority same.symm
      simp [priority, other]
      omega
  unfold selectMatchingProfile selectMatchingProfileBy profileCandidates
  simp only [matching, insertion, preferred]

theorem selectMatchingProfile_some {profiles : List RunnerProfile}
    (distinct : (profiles.map RunnerProfile.name).Nodup) (labels : List String)
    (profile : RunnerProfile) :
    selectMatchingProfile profiles labels = some profile ↔
      profile ∈ profiles ∧ Suits toLower labels profile ∧
        ∀ other ∈ profiles, Suits toLower labels other → other ≠ profile →
          Outranks profile other := by
  rw [selectMatchingProfile_by]
  exact selectMatchingProfileBy_some toLower insertion distinct labels profile

end Selection

end Runnerd
