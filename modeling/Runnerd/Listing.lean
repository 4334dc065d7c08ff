import Runnerd.RepositoryAccess

/-!
The batched listing is the plain one. `queryBatches_granted` and
`queryBatches_apart` say what the batches select between them, `selectListed_eq`
and `collected` what the merge holds, and the page follows from `merged_page`.
-/

namespace Runnerd

open GoText SortedPages

section Names

theorem keepNew_keys (clean key : String → String) (out : List String) (value name : String) :
    name ∈ (keepNew clean key out value).map key ↔
      name ∈ out.map key ∨ clean value ≠ "" ∧ key (clean value) = name := by
  unfold keepNew
  by_cases blank : clean value = ""
  · simp [blank]
  · by_cases seen : key (clean value) ∈ out.map key
    · rw [if_pos (.inr seen)]
      constructor
      · exact .inl
      · rintro (before | ⟨_, rfl⟩)
        · exact before
        · exact seen
    · rw [if_neg (not_or.mpr ⟨blank, seen⟩), List.map_append, List.mem_append]
      simp [blank, eq_comm]

theorem keepFirst_keys (clean key : String → String) (values : List String) (name : String) :
    name ∈ (keepFirst clean key values).map key ↔
      ∃ value ∈ values, clean value ≠ "" ∧ key (clean value) = name := by
  suffices grown : ∀ out : List String,
      name ∈ (values.foldl (keepNew clean key) out).map key ↔
        name ∈ out.map key ∨ ∃ value ∈ values, clean value ≠ "" ∧ key (clean value) = name by
    rw [keepFirst, grown, List.map_nil]
    simp
  induction values with
  | nil => simp
  | cons value rest ih =>
      intro out
      rw [List.foldl_cons, ih, keepNew_keys, List.exists_mem_cons_iff, or_assoc]

theorem keepFirst_clean (clean key : String → String) (values : List String) (name : String)
    (member : name ∈ keepFirst clean key values) :
    name ≠ "" ∧ ∃ value ∈ values, clean value = name := by
  suffices grown : ∀ out : List String, name ∈ values.foldl (keepNew clean key) out →
      name ∈ out ∨ name ≠ "" ∧ ∃ value ∈ values, clean value = name by
    simpa using grown [] member
  clear member
  induction values with
  | nil => simp
  | cons value rest ih =>
      intro out found
      rw [List.foldl_cons] at found
      rcases ih _ found with kept | ⟨present, other, later, same⟩
      · unfold keepNew at kept
        split at kept
        · exact .inl kept
        · grind
      · exact .inr ⟨present, other, List.mem_cons_of_mem value later, same⟩

theorem mem_uniqueLowerTrimmed (values : List String) (name : String) :
    name ∈ uniqueLowerTrimmed values ↔
      ∃ value ∈ values, toLower (trimSpace value) ≠ "" ∧ toLower (trimSpace value) = name := by
  have keys := keepFirst_keys (fun value => toLower (trimSpace value)) id values name
  rwa [List.map_id] at keys

theorem lowerRune_ascii (rune : Char) (ascii : rune.toNat < 128) : lowerRune rune = rune.toLower := by
  unfold lowerRune
  rw [if_neg, if_neg]
  · intro kelvin
    rw [beq_iff_eq.mp kelvin] at ascii
    exact absurd ascii (by decide)
  · intro dotted
    rw [beq_iff_eq.mp dotted] at ascii
    exact absurd ascii (by decide)

theorem foldRune_ascii (rune : Char) (ascii : rune.toNat < 128) : foldRune rune = rune.toLower := by
  unfold foldRune
  rw [if_neg, if_neg]
  · intro kelvin
    rw [beq_iff_eq.mp kelvin] at ascii
    exact absurd ascii (by decide)
  · intro long
    rw [beq_iff_eq.mp long] at ascii
    exact absurd ascii (by decide)

theorem isAscii_rune (text : String) (ascii : isAscii text = true) (rune : Char)
    (member : rune ∈ text.toList) : rune.toNat < 128 := by
  have each := List.all_eq_true.mp ascii rune member
  simpa using each

theorem toLower_ascii (text : String) (ascii : isAscii text = true) :
    toLower text = sqlLower text := by
  unfold toLower sqlLower
  rw [List.map_congr_left fun rune member => lowerRune_ascii rune (isAscii_rune text ascii rune member)]

theorem equalFold_ascii (text word : String) (ascii : isAscii text = true)
    (asciiWord : isAscii word = true) :
    equalFold text word = true ↔ sqlLower text = sqlLower word := by
  unfold equalFold sqlLower
  rw [List.map_congr_left fun rune member => foldRune_ascii rune (isAscii_rune text ascii rune member),
    List.map_congr_left fun rune member => foldRune_ascii rune (isAscii_rune word asciiWord rune member),
    beq_iff_eq, String.ofList_inj]

theorem trimSpace_subset (text : String) (rune : Char) (member : rune ∈ (trimSpace text).toList) :
    rune ∈ text.toList := by
  rw [trimSpace, String.toList_ofList, trimRunes] at member
  exact (List.dropWhile_suffix _).subset ((List.rdropWhile_prefix isSpace _).subset member)

theorem trimSpace_ascii (text : String) (ascii : isAscii text = true) :
    isAscii (trimSpace text) = true := by
  rw [isAscii, List.all_eq_true]
  intro rune member
  simpa using isAscii_rune text ascii rune (trimSpace_subset text rune member)

theorem sqlLower_blank (text : String) : sqlLower text = "" ↔ text = "" := by
  constructor
  · intro blank
    have none : text.toList.map Char.toLower = [] := by
      simpa [sqlLower] using congrArg String.toList blank
    exact String.toList_eq_nil_iff.mp (List.map_eq_nil_iff.mp none)
  · rintro rfl
    rfl

end Names

section Batches

theorem repositories_addAccess (sets : RepositorySets) (item : GitHubInstallationRepositoryAccess)
    (installationID : Int) (name : String) :
    name ∈ (addAccess sets item).repositories installationID ↔
      name ∈ sets.repositories installationID ∨
        0 < installationID ∧ item.installationID = installationID ∧
          name ∈ uniqueLowerTrimmed item.repositories := by
  unfold addAccess
  by_cases skipped : item.installationID ≤ 0
  · rw [if_pos skipped]
    constructor
    · exact .inl
    · rintro (before | ⟨positive, rfl, _⟩)
      · exact before
      · omega
  · rw [if_neg skipped]
    by_cases own : item.installationID = installationID
    · subst own
      have positive : 0 < item.installationID := by omega
      simp [RepositorySets.repositories, positive]
    · rw [RepositorySets.repositories, Finmap.lookup_insert_of_ne _ (Ne.symm own)]
      simp [RepositorySets.repositories, own]

theorem repositories_access (access : List GitHubInstallationRepositoryAccess)
    (installationID : Int) (name : String) :
    name ∈ (access.foldl addAccess ∅).repositories installationID ↔
      0 < installationID ∧ ∃ item ∈ access, item.installationID = installationID ∧
        name ∈ uniqueLowerTrimmed item.repositories := by
  suffices grown : ∀ sets : RepositorySets,
      name ∈ (access.foldl addAccess sets).repositories installationID ↔
        name ∈ sets.repositories installationID ∨ 0 < installationID ∧ ∃ item ∈ access,
          item.installationID = installationID ∧ name ∈ uniqueLowerTrimmed item.repositories by
    rw [grown]
    simp [RepositorySets.repositories]
  induction access with
  | nil => simp
  | cons item rest ih =>
      intro sets
      rw [List.foldl_cons, ih, repositories_addAccess, List.exists_mem_cons_iff, or_assoc,
        ← and_or_left]

theorem mem_normalized (access : List GitHubInstallationRepositoryAccess)
    (item : GitHubInstallationRepositoryAccess) :
    item ∈ normalizeGitHubInstallationRepositoryAccess access ↔
      item.repositories ≠ [] ∧
        item.repositories = ((access.foldl addAccess ∅).repositories item.installationID).sort := by
  let sets : RepositorySets := access.foldl addAccess ∅
  have known (id : Int) (some : 0 < (sets.repositories id).card) : id ∈ sets.keys := by
    rw [Finmap.mem_keys]
    by_contra absent
    rw [RepositorySets.repositories, Finmap.lookup_eq_none.mpr absent] at some
    simp at some
  rw [normalizeGitHubInstallationRepositoryAccess, List.mem_map]
  constructor
  · rintro ⟨id, chosen, rfl⟩
    rw [Finset.mem_sort, Finset.mem_filter, ← Finset.length_sort (· ≤ ·)] at chosen
    exact ⟨List.length_pos_iff.mp chosen.2, rfl⟩
  · rintro ⟨some, same⟩
    refine ⟨item.installationID, ?_, by rw [← same]⟩
    have filled : 0 < (sets.repositories item.installationID).card := by
      rw [← Finset.length_sort (· ≤ ·), ← same]
      exact List.length_pos_iff.mpr some
    rw [Finset.mem_sort, Finset.mem_filter]
    exact ⟨known _ filled, filled⟩

theorem normalized_installations (access : List GitHubInstallationRepositoryAccess) :
    ((normalizeGitHubInstallationRepositoryAccess access).map
      fun item => item.installationID).Nodup := by
  rw [normalizeGitHubInstallationRepositoryAccess, List.map_map]
  exact (List.map_id _).symm ▸ Finset.sort_nodup _ _

/-- Cutting into chunks loses and repeats nothing. -/
theorem repositoryChunks_flatten (size : Nat) (repositories : List String) :
    (repositoryChunks size repositories).flatten = repositories := by
  fun_induction repositoryChunks size repositories with
  | case1 => rfl
  | case2 first rest ih =>
      rw [List.flatten_cons, ih, List.cons_append, List.take_append_drop]

theorem mem_queryBatches (access : List GitHubInstallationRepositoryAccess) (maxParameters : Int)
    (record : RunnerRequestRecord) :
    (∃ batch ∈ githubInstallationRepositoryAccessQueryBatches access maxParameters,
        batch.predicate record = true) ↔
      0 < record.githubInstallationID ∧ ∃ item ∈ access,
        item.installationID = record.githubInstallationID ∧
          sqlLower record.repositoryFullName ∈ uniqueLowerTrimmed item.repositories := by
  rw [← repositories_access]
  constructor
  · rintro ⟨batch, member, holds⟩
    rw [QueryBatch.predicate, Bool.and_eq_true, beq_iff_eq, List.contains_iff_mem] at holds
    obtain ⟨item, normalized, cut⟩ := List.mem_flatMap.mp member
    obtain ⟨chunk, chunked, rfl⟩ := List.mem_map.mp cut
    obtain ⟨_, sorted⟩ := (mem_normalized access item).mp normalized
    have listed : sqlLower record.repositoryFullName ∈ item.repositories := by
      rw [← repositoryChunks_flatten _ item.repositories]
      exact List.mem_flatten_of_mem chunked holds.2
    rw [sorted, Finset.mem_sort] at listed
    rw [holds.1]
    exact listed
  · intro listed
    let item : GitHubInstallationRepositoryAccess :=
      ⟨record.githubInstallationID,
        ((access.foldl addAccess ∅).repositories record.githubInstallationID).sort⟩
    have here : sqlLower record.repositoryFullName ∈ item.repositories :=
      (Finset.mem_sort _).mpr listed
    have normalized : item ∈ normalizeGitHubInstallationRepositoryAccess access :=
      (mem_normalized access item).mpr ⟨List.ne_nil_of_mem here, rfl⟩
    rw [← repositoryChunks_flatten ((if maxParameters < 2 then 2 else maxParameters) - 1).toNat
      item.repositories] at here
    obtain ⟨chunk, chunked, present⟩ := List.mem_flatten.mp here
    refine ⟨⟨item.installationID, chunk⟩, ?_, ?_⟩
    · exact List.mem_flatMap.mpr ⟨item, normalized, List.mem_map.mpr ⟨chunk, chunked, rfl⟩⟩
    · rw [QueryBatch.predicate, Bool.and_eq_true, beq_iff_eq, List.contains_iff_mem]
      exact ⟨rfl, present⟩

/-- No row satisfies two batches. -/
theorem queryBatches_apart (access : List GitHubInstallationRepositoryAccess)
    (maxParameters : Int) :
    (githubInstallationRepositoryAccessQueryBatches access maxParameters).Pairwise
      fun first second => ∀ record : RunnerRequestRecord,
        first.predicate record = true → second.predicate record = false := by
  rw [githubInstallationRepositoryAccessQueryBatches, List.pairwise_flatMap]
  constructor
  · intro item normalized
    obtain ⟨_, sorted⟩ := (mem_normalized access item).mp normalized
    have once : item.repositories.Nodup := by
      rw [sorted]
      exact Finset.sort_nodup _ _
    rw [← repositoryChunks_flatten ((if maxParameters < 2 then 2 else maxParameters) - 1).toNat
      item.repositories, List.nodup_flatten] at once
    rw [List.pairwise_map]
    refine once.2.imp fun {first second} disjoint record holds => ?_
    rw [QueryBatch.predicate, Bool.and_eq_true, List.contains_iff_mem] at holds
    have absent := disjoint holds.2
    rw [QueryBatch.predicate, Bool.and_eq_false_iff]
    exact .inr (by simpa using absent)
  · have distinct := normalized_installations access
    rw [List.Nodup, List.pairwise_map] at distinct
    refine distinct.imp fun {first second} different batch member other member' record holds => ?_
    obtain ⟨_, _, rfl⟩ := List.mem_map.mp member
    obtain ⟨_, _, rfl⟩ := List.mem_map.mp member'
    rw [QueryBatch.predicate, Bool.and_eq_true, beq_iff_eq] at holds
    simp [QueryBatch.predicate, holds.1, different]

end Batches

section Merging

theorem listedBefore_iff (first second : RunnerRequestRecord) :
    listedBefore first second = true ↔ second.createdAt < first.createdAt ∨
      first.createdAt = second.createdAt ∧ first.id < second.id := by
  unfold listedBefore
  split
  · simp_all
  · simp_all

/-- `ORDER BY queued_at DESC, id ASC`. -/
def queuedOrder : Order RunnerRequestRecord where
  le first second := !listedBefore second first
  trans first second third below above := by
    rw [Bool.not_eq_true', ← Bool.not_eq_true, listedBefore_iff] at *
    grind
  total first second := by
    by_cases before : listedBefore second first = true
    · have after : listedBefore first second = false := by
        rw [← Bool.not_eq_true, listedBefore_iff]
        rw [listedBefore_iff] at before
        grind
      simp [after]
    · simp [before]

theorem queuedOrder_le (first second : RunnerRequestRecord) :
    queuedOrder.le first second = true ↔ second.createdAt < first.createdAt ∨
      first.createdAt = second.createdAt ∧ first.id ≤ second.id := by
  change (!listedBefore second first) = true ↔ _
  rw [Bool.not_eq_true', ← Bool.not_eq_true, listedBefore_iff]
  grind

def RequestTable.listed (table : RequestTable) : List RunnerRequestRecord :=
  table.rows.map listedColumns

theorem listed_once (table : RequestTable) :
    (table.listed.map fun record => record.id).Nodup := by
  rw [RequestTable.listed, List.map_map]
  exact table.primaryKey

theorem listed_byID (table : RequestTable) (first second : RunnerRequestRecord)
    (left : first ∈ table.listed) (right : second ∈ table.listed) (same : first.id = second.id) :
    first = second :=
  List.inj_on_of_nodup_map (listed_once table) left right same

theorem listed_separates (table : RequestTable) : Separates queuedOrder table.listed := by
  intro first left second right below above
  rw [queuedOrder_le] at below above
  apply listed_byID table first second left right
  grind

theorem listing_listed (table : RequestTable) (keep : RunnerRequestRecord → Bool)
    (kept : ∀ record, keep (listedColumns record) = keep record) :
    listing queuedOrder keep table.listed =
      ((table.rows.filter keep).mergeSort queuedOrder.le).map listedColumns := by
  have same : keep ∘ listedColumns = keep := funext kept
  rw [listing, RequestTable.listed, List.filter_map, same]
  symm
  apply List.map_mergeSort
  intro first _ second _
  rfl

theorem selectListed_eq (table : RequestTable) (batch : QueryBatch) (limit : Int) :
    selectListed table batch limit =
      (listing queuedOrder batch.predicate table.listed).take limit.toNat := by
  rw [listing_listed table _ fun _ => rfl, ← List.map_take]
  rfl

/-- The map holds exactly the given rows, each under its own id. -/
def Collected (records : AList fun _ : String => RunnerRequestRecord)
    (rows : RunnerRequestRecord → Prop) : Prop :=
  ∀ id record, records.lookup id = some record ↔ record.id = id ∧ rows record

theorem Collected.congr {records : AList fun _ : String => RunnerRequestRecord}
    {rows rows' : RunnerRequestRecord → Prop} (collected : Collected records rows)
    (same : ∀ record, rows record ↔ rows' record) : Collected records rows' :=
  fun id record => (collected id record).trans (and_congr_right fun _ => same record)

theorem collectByID_collected (table : RequestTable) (batch : List RunnerRequestRecord)
    (records : AList fun _ : String => RunnerRequestRecord) (rows : RunnerRequestRecord → Prop)
    (listed : ∀ record ∈ batch, record ∈ table.listed)
    (before : ∀ record, rows record → record ∈ table.listed) (collected : Collected records rows) :
    Collected (collectByID records batch) fun record => rows record ∨ record ∈ batch := by
  induction batch generalizing records rows with
  | nil => simpa [collectByID] using collected
  | cons first rest ih =>
      have here : first ∈ table.listed := listed first List.mem_cons_self
      have inserted : Collected (records.insert first.id first)
          fun record => rows record ∨ record = first := by
        intro id record
        by_cases own : id = first.id
        · subst own
          rw [AList.lookup_insert, Option.some.injEq]
          constructor
          · rintro rfl
            exact ⟨rfl, .inr rfl⟩
          · rintro ⟨same, known | rfl⟩
            · exact listed_byID table first record here (before record known) same.symm
            · rfl
        · rw [AList.lookup_insert_ne own, collected id record]
          constructor
          · rintro ⟨same, known⟩
            exact ⟨same, .inl known⟩
          · rintro ⟨same, known | rfl⟩
            · exact ⟨same, known⟩
            · exact absurd same.symm own
      have grown := ih (records.insert first.id first) _
        (fun record member => listed record (List.mem_cons_of_mem first member))
        (fun record known => known.elim (before record) fun same => same ▸ here) inserted
      exact grown.congr fun record => by rw [List.mem_cons, or_assoc]

theorem batches_collected (table : RequestTable) (batches : List QueryBatch) (limit : Int) :
    Collected
      (batches.foldl (fun records batch => collectByID records (selectListed table batch limit)) ∅)
      fun record => ∃ batch ∈ batches, record ∈ selectListed table batch limit := by
  have listed (batch : QueryBatch) (record : RunnerRequestRecord)
      (member : record ∈ selectListed table batch limit) : record ∈ table.listed := by
    rw [selectListed_eq] at member
    exact ((mem_listing _ record).mp (List.mem_of_mem_take member)).1
  suffices grown : ∀ (records : AList fun _ : String => RunnerRequestRecord)
      (rows : RunnerRequestRecord → Prop), (∀ record, rows record → record ∈ table.listed) →
      Collected records rows →
      Collected (batches.foldl
        (fun records batch => collectByID records (selectListed table batch limit)) records)
        fun record => rows record ∨ ∃ batch ∈ batches, record ∈ selectListed table batch limit by
    have all := grown ∅ (fun _ => False) (fun _ => False.elim) (fun id record => by simp)
    simpa using all
  induction batches with
  | nil => simp
  | cons batch rest ih =>
      intro records rows before collected
      have first := collectByID_collected table _ records rows (listed batch) before collected
      have grown := ih _ _ (fun record known => known.elim (before record) (listed batch record)) first
      exact grown.congr fun record => by rw [List.exists_mem_cons_iff, or_assoc]

/-- What the code sorts after the loop is the merge of the batches. -/
theorem records_merge (order : RangeOrder (Sigma fun _ : String => RunnerRequestRecord))
    (table : RequestTable) (batches : List QueryBatch) (limit : Int) :
    Merges queuedOrder table.listed (batches.map QueryBatch.predicate) limit.toNat
      (((order.visit (batches.foldl (fun records batch =>
          collectByID records (selectListed table batch limit)) ∅).entries).map
        Sigma.snd).mergeSort queuedOrder.le) := by
  have collected := batches_collected table batches limit
  revert collected
  generalize batches.foldl (fun records batch =>
    collectByID records (selectListed table batch limit)) ∅ = records
  intro collected
  have found (entry : Sigma fun _ : String => RunnerRequestRecord) (member : entry ∈ records.entries) :
      entry.2.id = entry.1 ∧ ∃ batch ∈ batches, entry.2 ∈ selectListed table batch limit :=
    (collected entry.1 entry.2).mp (AList.mem_lookup_iff.mpr member)
  refine ⟨fun record => ?_, ?_, sorted_mergeSort _⟩
  · rw [List.mem_mergeSort, List.mem_map]
    constructor
    · rintro ⟨entry, member, rfl⟩
      obtain ⟨_, batch, listed, selected⟩ :=
        found entry ((order.complete records.entries).mem_iff.mp member)
      rw [selectListed_eq] at selected
      exact ⟨batch.predicate, List.mem_map_of_mem listed, selected⟩
    · rintro ⟨_, part, selected⟩
      obtain ⟨batch, listed, rfl⟩ := List.mem_map.mp part
      rw [← selectListed_eq] at selected
      have here := (collected record.id record).mpr ⟨rfl, batch, listed, selected⟩
      exact ⟨⟨record.id, record⟩,
        (order.complete records.entries).mem_iff.mpr (AList.mem_lookup_iff.mp here), rfl⟩
  · rw [(List.mergeSort_perm _ _).nodup_iff, ((order.complete records.entries).map _).nodup_iff]
    apply List.Nodup.of_map fun record : RunnerRequestRecord => record.id
    have keys : (records.entries.map Sigma.snd).map (fun record => record.id) = records.keys := by
      rw [List.map_map]
      exact List.map_congr_left fun entry member => (found entry member).1
    rw [keys]
    exact records.keys_nodup

end Merging

section Pages

/-- The pair of the row's columns is in the item, up to the case of the name
and the blanks around the item's. -/
def GitHubInstallationRepositoryAccess.names (item : GitHubInstallationRepositoryAccess)
    (record : RunnerRequestRecord) : Bool :=
  item.installationID == record.githubInstallationID && item.repositories.any fun name =>
    sqlLower (trimSpace name) == sqlLower record.repositoryFullName

def inAccess (access : List GitHubInstallationRepositoryAccess) (record : RunnerRequestRecord) :
    Bool :=
  access.any fun item => item.names record

/-- The rows the listing can return: no access is granted to what no
installation or no repository name belongs to. -/
def granted (access : List GitHubInstallationRepositoryAccess) (record : RunnerRequestRecord) :
    Bool :=
  decide (0 < record.githubInstallationID) && record.repositoryFullName != "" &&
    inAccess access record

def listedState (record : RunnerRequestRecord) : RunnerState :=
  recordToState (listedColumns record)

def pageLimit (limit : Int) : Nat :=
  if limit ≤ 0 ∨ limit > 500 then 500 else limit.toNat

/-- Every repository name of the list is ASCII. -/
def AsciiAccess (access : List GitHubInstallationRepositoryAccess) : Prop :=
  ∀ item ∈ access, ∀ name ∈ item.repositories, isAscii name = true

theorem mem_uniqueLowerTrimmed_ascii (repositories : List String) (repository : String)
    (ascii : ∀ name ∈ repositories, isAscii name = true) :
    sqlLower repository ∈ uniqueLowerTrimmed repositories ↔ repository ≠ "" ∧
      ∃ name ∈ repositories, sqlLower (trimSpace name) = sqlLower repository := by
  rw [mem_uniqueLowerTrimmed]
  constructor
  · rintro ⟨name, member, present, same⟩
    rw [toLower_ascii _ (trimSpace_ascii name (ascii name member))] at present same
    refine ⟨fun blank => present ?_, name, member, same⟩
    rw [same, blank, sqlLower_blank]
  · rintro ⟨present, name, member, same⟩
    refine ⟨name, member, ?_⟩
    rw [toLower_ascii _ (trimSpace_ascii name (ascii name member)), same]
    exact ⟨fun blank => present ((sqlLower_blank repository).mp blank), rfl⟩

theorem queryBatches_granted (access : List GitHubInstallationRepositoryAccess)
    (ascii : AsciiAccess access) (maxParameters : Int) :
    anyPart ((githubInstallationRepositoryAccessQueryBatches access maxParameters).map
      QueryBatch.predicate) = granted access := by
  funext record
  rw [Bool.eq_iff_iff, anyPart, List.any_map, List.any_eq_true]
  refine (mem_queryBatches access maxParameters record).trans ?_
  simp only [granted, inAccess, GitHubInstallationRepositoryAccess.names, Bool.and_eq_true,
    decide_eq_true_iff, bne_iff_ne, List.any_eq_true, beq_iff_eq]
  constructor
  · rintro ⟨positive, item, member, own, listed⟩
    rw [mem_uniqueLowerTrimmed_ascii _ _ (ascii item member)] at listed
    exact ⟨⟨positive, listed.1⟩, item, member, own, listed.2⟩
  · rintro ⟨⟨positive, present⟩, item, member, own, named⟩
    refine ⟨positive, item, member, own, ?_⟩
    rw [mem_uniqueLowerTrimmed_ascii _ _ (ascii item member)]
    exact ⟨present, named⟩

theorem int64_fits (value : Int) (nonnegative : 0 ≤ value) (fits : value < 2 ^ 63) :
    int64 value = value := by
  rw [int64]
  apply Int.bmod_eq_of_le_mul_two
  · omega
  · omega

theorem total_fits (counts : QueryBatch → Nat) (batches : List QueryBatch)
    (fits : (batches.map counts).sum < 2 ^ 63) :
    batches.foldl (fun total batch => int64 (total + counts batch)) 0 = (batches.map counts).sum := by
  suffices grown : ∀ start : Nat, start + (batches.map counts).sum < 2 ^ 63 →
      batches.foldl (fun total batch => int64 (total + counts batch)) (start : Int) =
        (start + (batches.map counts).sum : Nat) by
    simpa using grown 0 (by omega)
  clear fits
  induction batches with
  | nil => simp
  | cons batch rest ih =>
      intro start fits
      rw [List.map_cons, List.sum_cons] at fits
      rw [List.foldl_cons, int64_fits _ (by omega) (by omega), ← Int.natCast_add, ih _ (by omega),
        List.map_cons, List.sum_cons, Nat.add_assoc]

theorem queryBatches_total (table : RequestTable)
    (access : List GitHubInstallationRepositoryAccess) (ascii : AsciiAccess access)
    (maxParameters : Int) :
    ((githubInstallationRepositoryAccessQueryBatches access maxParameters).map fun batch =>
      table.rows.countP batch.predicate).sum = table.rows.countP (granted access) := by
  have apart := queryBatches_apart access maxParameters
  let parts := (githubInstallationRepositoryAccessQueryBatches access maxParameters).map
    QueryBatch.predicate
  have disjoint : parts.Pairwise fun first second =>
      ∀ item, first item = true → second item = false :=
    List.pairwise_map.mpr apart
  have sums := total_eq_sum table.rows disjoint
  rw [List.map_map, queryBatches_granted access ascii] at sums
  exact sums

theorem queryLimit_enough (total offset limit : Int) (start : 0 ≤ offset) (inside : offset < total)
    (some : 0 ≤ limit) (fits : total < 2 ^ 63) :
    offset.toNat + limit.toNat ≤ (queryLimit total offset limit).toNat ∨
      total.toNat ≤ (queryLimit total offset limit).toNat := by
  rw [queryLimit, int64_fits (total - offset) (by omega) (by omega)]
  by_cases whole : limit ≤ total - offset
  · rw [if_pos whole, int64_fits (offset + limit) (by omega) (by omega)]
    rw [if_neg (by rw [maxInt]; omega)]
    exact .inl (by omega)
  · rw [if_neg whole, if_neg (by rw [maxInt]; omega)]
    exact .inr (Nat.le_refl _)

/-- The slice bounds of the code cut the page out. -/
theorem slicePage_eq (items : List RunnerRequestRecord) (offset limit : Int) (start : 0 ≤ offset)
    (some : 0 ≤ limit) : slicePage items offset limit = page offset.toNat limit.toNat items := by
  rw [slicePage, page_eq_drop_take]
  by_cases deep : offset > items.length
  · simp only [if_pos deep]
    rw [List.drop_eq_nil_of_le, List.drop_eq_nil_of_le]
    · rw [List.length_take]
      omega
    · rw [List.length_take]
      omega
  · simp only [if_neg deep]
    by_cases last : offset + limit > items.length
    · rw [if_pos last, Int.toNat_natCast, List.take_length, List.take_of_length_le (by omega)]
    · rw [if_neg last, Int.toNat_add start some]

theorem granted_listedColumns (access : List GitHubInstallationRepositoryAccess)
    (record : RunnerRequestRecord) : granted access (listedColumns record) = granted access record :=
  rfl

/-- The list the pages are cut from. -/
def grantedRows (table : RequestTable) (access : List GitHubInstallationRepositoryAccess) :
    List RunnerRequestRecord :=
  (table.rows.filter (granted access)).mergeSort queuedOrder.le

theorem grantedRows_length (table : RequestTable)
    (access : List GitHubInstallationRepositoryAccess) :
    (grantedRows table access).length = table.rows.countP (granted access) := by
  rw [grantedRows, List.length_mergeSort, List.countP_eq_length_filter]

theorem grantedRows_sorted (table : RequestTable)
    (access : List GitHubInstallationRepositoryAccess) :
    (grantedRows table access).Pairwise fun first second =>
      second.createdAt < first.createdAt ∨
        first.createdAt = second.createdAt ∧ first.id < second.id := by
  have perm : (grantedRows table access).Perm (table.rows.filter (granted access)) :=
    List.mergeSort_perm _ _
  have distinct : ((grantedRows table access).map fun record => record.id).Nodup :=
    (perm.map _).nodup_iff.mpr (table.primaryKey.sublist (List.filter_sublist.map _))
  rw [List.Nodup, List.pairwise_map] at distinct
  refine (distinct.and (sorted_mergeSort _)).imp fun {first second} both => ?_
  have ordered := both.2
  rw [queuedOrder_le] at ordered
  exact ordered.imp_right fun tie => ⟨tie.1, lt_of_le_of_ne tie.2 both.1⟩

theorem listing_eq_page (order : RangeOrder (Sigma fun _ : String => RunnerRequestRecord))
    (table : CountedTable) (access : List GitHubInstallationRepositoryAccess) (limit offset : Int)
    (ascii : AsciiAccess access) :
    listStatesForGitHubInstallationRepositories order table access limit offset =
      ((page offset.toNat (pageLimit limit) (grantedRows table.toRequestTable access)).map
        listedState, ((grantedRows table.toRequestTable access).length : Int)) := by
  have small : table.rows.countP (granted access) < 2 ^ 63 :=
    List.countP_le_length.trans_lt table.counted
  have covered := queryBatches_granted access ascii maxRunnerRequestRepositoryAccessQueryParameters
  have sums := queryBatches_total table.toRequestTable access ascii
    maxRunnerRequestRepositoryAccessQueryParameters
  rw [listStatesForGitHubInstallationRepositories, grantedRows_length]
  generalize githubInstallationRepositoryAccessQueryBatches access
    maxRunnerRequestRepositoryAccessQueryParameters = batches at covered sums ⊢
  have length := grantedRows_length table.toRequestTable access
  by_cases none : batches.isEmpty
  · rw [if_pos none]
    rw [List.isEmpty_iff.mp none] at sums
    have empty : grantedRows table.toRequestTable access = [] :=
      List.eq_nil_of_length_eq_zero (length.trans sums.symm)
    rw [empty, ← sums]
    simp [page]
  · rw [if_neg none]
    simp only
    rw [total_fits _ _ (sums ▸ small), sums]
    have first : (if offset < 0 then 0 else offset).toNat = offset.toNat := by split <;> omega
    have start : 0 ≤ (if offset < 0 then 0 else offset) := by split <;> omega
    have size : (if limit ≤ 0 ∨ limit > 500 then 500 else limit).toNat = pageLimit limit := by
      rw [pageLimit]
      split <;> rfl
    have some : 0 ≤ (if limit ≤ 0 ∨ limit > 500 then 500 else limit) := by split <;> omega
    revert first start size some
    generalize (if offset < 0 then 0 else offset) = skip
    generalize (if limit ≤ 0 ∨ limit > 500 then 500 else limit) = count
    intro first start size some
    rw [← first, ← size]
    by_cases beyond : skip ≥ (table.rows.countP (granted access) : Int)
    · rw [if_pos beyond, page, List.drop_eq_nil_of_le (by omega)]
      simp
    · rw [if_neg beyond, slicePage_eq _ _ _ start some]
      have merges := records_merge order table.toRequestTable batches
        (queryLimit (table.rows.countP (granted access)) skip count)
      have whole := listing_listed table.toRequestTable _ (granted_listedColumns access)
      have cut := merged_page merges (listed_separates table.toRequestTable)
        (listed_once table.toRequestTable).of_map skip.toNat count.toNat
      rw [covered, whole, List.length_map, ← grantedRows, length] at cut
      have enough := queryLimit_enough (table.rows.countP (granted access)) skip count start
        (by omega) some (by omega)
      have cutPage : page skip.toNat count.toNat ((grantedRows table.toRequestTable access).map
          listedColumns) = (page skip.toNat count.toNat
            (grantedRows table.toRequestTable access)).map listedColumns := by
        rw [page, ← List.map_drop, ← List.map_take, page]
      refine Prod.ext ((congrArg (List.map recordToState) ((cut enough).trans cutPage)).trans ?_) rfl
      rw [List.map_map]
      rfl

/-- A page is cut from the granted rows, each once, the latest first. -/
theorem batched_listing (order : RangeOrder (Sigma fun _ : String => RunnerRequestRecord))
    (table : CountedTable) (access : List GitHubInstallationRepositoryAccess) (limit offset : Int)
    (ascii : AsciiAccess access) :
    ∃ rows : List RunnerRequestRecord, rows.Perm (table.rows.filter (granted access)) ∧
      rows.Pairwise (fun first second => second.createdAt < first.createdAt ∨
        first.createdAt = second.createdAt ∧ first.id < second.id) ∧
      listStatesForGitHubInstallationRepositories order table access limit offset =
        (((rows.drop offset.toNat).take (pageLimit limit)).map listedState, (rows.length : Int)) :=
  ⟨grantedRows table.toRequestTable access, List.mergeSort_perm _ _,
    grantedRows_sorted table.toRequestTable access,
    listing_eq_page order table access limit offset ascii⟩

def visitInOrder {α : Type} : RangeOrder α := ⟨id, fun _ => .refl _⟩

def oneRow (record : RunnerRequestRecord) (clean : sanitizeID record.id = record.id) :
    CountedTable where
  rows := [record]
  primaryKey := List.nodup_singleton _
  jobIndex := by
    rw [List.filterMap_cons]
    split <;> simp
  sanitized := by simpa using clean
  counted := by simp

def pushedRow : RunnerRequestRecord :=
  { id := "42", status := .queued, githubInstallationID := 7, repositoryFullName := "Octo/Repo" }

theorem batched_listing_padded :
    ∃ rows : List RunnerRequestRecord,
      rows.Perm ((oneRow pushedRow (by decide)).rows.filter (granted [⟨7, [" octo/repo "]⟩])) ∧
      rows.Pairwise (fun first second => second.createdAt < first.createdAt ∨
        first.createdAt = second.createdAt ∧ first.id < second.id) ∧
      listStatesForGitHubInstallationRepositories visitInOrder (oneRow pushedRow (by decide))
          [⟨7, [" octo/repo "]⟩] 0 (-3) =
        (((rows.drop 0).take 500).map listedState, (rows.length : Int)) :=
  batched_listing visitInOrder (oneRow pushedRow (by decide)) [⟨7, [" octo/repo "]⟩] 0 (-3)
    (by simp [AsciiAccess]; decide)

/-- A request that no installation sent. -/
def manualRow : RunnerRequestRecord :=
  { id := "manual", status := .queued, repositoryFullName := "octo/repo" }

/-- The pair of the row's columns is in the list, and the row on no page. -/
theorem manual_row_unlisted :
    ¬ ∃ rows : List RunnerRequestRecord,
      rows.Perm ((oneRow manualRow (by decide)).rows.filter (inAccess [⟨0, ["octo/repo"]⟩])) ∧
      listStatesForGitHubInstallationRepositories visitInOrder (oneRow manualRow (by decide))
          [⟨0, ["octo/repo"]⟩] 10 0 =
        (((rows.drop 0).take 10).map listedState, (rows.length : Int)) := by
  rintro ⟨rows, same, listed⟩
  have one : rows.length = 1 := by
    rw [same.length_eq]
    decide
  have total := grantedRows_length (oneRow manualRow (by decide)).toRequestTable
    [⟨0, ["octo/repo"]⟩]
  rw [listing_eq_page _ _ _ _ _ (by simp [AsciiAccess]; decide), total, one] at listed
  have counts : ((oneRow manualRow (by decide)).rows.countP
      (granted [⟨0, ["octo/repo"]⟩]) : Int) = (1 : Nat) := congrArg Prod.snd listed
  exact absurd counts (by decide)

end Pages

section Authorisation

theorem fetched_positive (fetch : String → Int → Except ApiError (List String)) (token : String)
    (installationID : Int) (items : List String)
    (fetched : listUserInstallationRepositories fetch token installationID = .ok items) :
    0 < installationID := by
  unfold listUserInstallationRepositories at fetched
  simp only at fetched
  by_cases blank : trimSpace token = ""
  · rw [if_pos blank] at fetched
    cases fetched
  · by_cases low : installationID ≤ 0
    · rw [if_neg blank, if_pos low] at fetched
      cases fetched
    · omega

theorem loadInstallations_items (fetch : Int → Except ApiError (List String))
    (installations : List Int) (access : List GitHubInstallationRepositoryAccess)
    (loaded : loadInstallations fetch installations = .ok access) :
    ∀ item ∈ access, ∃ items, fetch item.installationID = .ok items ∧
      item.repositories = keepFirst trimSpace toLower items := by
  induction installations generalizing access with
  | nil =>
      cases loaded
      simp
  | cons installationID rest ih =>
      rw [loadInstallations] at loaded
      cases fetched : fetch installationID with
      | error err =>
          rw [fetched] at loaded
          simp only at loaded
          by_cases gone : err.inaccessible = true
          · rw [if_pos gone] at loaded
            exact ih access loaded
          · rw [if_neg gone] at loaded
            cases loaded
      | ok items =>
          rw [fetched] at loaded
          simp only at loaded
          cases later : loadInstallations fetch rest with
          | error err =>
              rw [later] at loaded
              cases loaded
          | ok others =>
              rw [later] at loaded
              cases loaded
              intro item member
              simp only at member
              by_cases none : keepFirst trimSpace toLower items = []
              · rw [if_pos none] at member
                exact ih others later item member
              · rw [if_neg none] at member
                rcases List.mem_cons.mp member with rfl | member
                · exact ⟨items, fetched, rfl⟩
                · exact ih others later item member

theorem loaded_items (sources : AccessSources) (access : List GitHubInstallationRepositoryAccess)
    (loaded : loadUserRepositoryAccess sources = .ok access) :
    ∀ item ∈ access, 0 < item.installationID ∧
      ∀ name ∈ item.repositories, name ≠ "" ∧ trimSpace name = name := by
  unfold loadUserRepositoryAccess at loaded
  split at loaded
  · cases loaded
  · cases loaded
    simp
  · split at loaded
    · cases loaded
    · split at loaded
      · cases loaded
      · intro item member
        obtain ⟨items, fetched, kept⟩ := loadInstallations_items _ _ access loaded item member
        refine ⟨fetched_positive _ _ _ _ fetched, fun name listed => ?_⟩
        rw [kept] at listed
        obtain ⟨present, value, _, rfl⟩ := keepFirst_clean _ _ _ _ listed
        exact ⟨present, trimSpace_idem value⟩

/-- `hasRepositoryAccess` looks for the row's pair in the list. -/
theorem hasRepositoryAccess_iff (access : List GitHubInstallationRepositoryAccess)
    (record : RunnerRequestRecord) (ascii : AsciiAccess access)
    (asciiName : isAscii record.repositoryFullName = true)
    (trimmed : trimSpace record.repositoryFullName = record.repositoryFullName) :
    hasRepositoryAccess access record.githubInstallationID record.repositoryFullName =
      inAccess access record := by
  rw [Bool.eq_iff_iff]
  simp only [hasRepositoryAccess, inAccess, GitHubInstallationRepositoryAccess.names,
    List.any_eq_true, Bool.and_eq_true, beq_iff_eq, trimmed]
  refine exists_congr fun item => and_congr_right fun member => and_congr_right fun _ => ?_
  refine exists_congr fun name => and_congr_right fun listed => ?_
  exact equalFold_ascii _ _ (trimSpace_ascii name (ascii item member name listed)) asciiName

theorem granted_of_loaded (sources : AccessSources)
    (access : List GitHubInstallationRepositoryAccess)
    (loaded : loadUserRepositoryAccess sources = .ok access) (record : RunnerRequestRecord) :
    granted access record = inAccess access record := by
  rw [Bool.eq_iff_iff, granted, Bool.and_eq_true, Bool.and_eq_true]
  constructor
  · exact And.right
  · intro inside
    refine ⟨?_, inside⟩
    obtain ⟨item, member, named⟩ := List.any_eq_true.mp inside
    obtain ⟨positive, clean⟩ := loaded_items sources access loaded item member
    rw [GitHubInstallationRepositoryAccess.names, Bool.and_eq_true, beq_iff_eq,
      List.any_eq_true] at named
    obtain ⟨own, name, listed, same⟩ := named
    obtain ⟨present, trimmed⟩ := clean name listed
    rw [beq_iff_eq, trimmed] at same
    refine ⟨decide_eq_true (own ▸ positive), bne_iff_ne.mpr fun blank => present ?_⟩
    rwa [blank, (sqlLower_blank "").mpr rfl, sqlLower_blank] at same

theorem listedState_inj (table : RequestTable) (first second : RunnerRequestRecord)
    (left : first ∈ table.rows) (right : second ∈ table.rows)
    (same : listedState first = listedState second) : first = second := by
  have ids : (listedState first).id = (listedState second).id :=
    congrArg (fun st : RunnerState => st.id) same
  exact List.inj_on_of_nodup_map table.primaryKey left right ids

/-- The rows on the pages are the rows whose detail, log and terminal the user
is let into. -/
theorem listed_iff_authorised
    (order : RangeOrder (Sigma fun _ : String => RunnerRequestRecord)) (table : CountedTable)
    (sources : AccessSources) (access : List GitHubInstallationRepositoryAccess)
    (loaded : loadUserRepositoryAccess sources = .ok access) (ascii : AsciiAccess access)
    (record : RunnerRequestRecord) (stored : record ∈ table.rows)
    (asciiName : isAscii record.repositoryFullName = true)
    (trimmed : trimSpace record.repositoryFullName = record.repositoryFullName) (limit : Int) :
    (∃ offset : Int, listedState record ∈
      (listStatesForGitHubInstallationRepositories order table access limit offset).1) ↔
      hasRepositoryAccess access record.githubInstallationID record.repositoryFullName = true := by
  have member : record ∈ grantedRows table.toRequestTable access ↔ granted access record = true := by
    rw [grantedRows, List.mem_mergeSort, List.mem_filter, and_iff_right stored]
  rw [hasRepositoryAccess_iff access record ascii asciiName trimmed,
    ← granted_of_loaded sources access loaded record, ← member]
  have some : 0 < pageLimit limit := by
    rw [pageLimit]
    split <;> omega
  rw [← mem_some_page (pageLimit limit) some]
  constructor
  · rintro ⟨offset, found⟩
    rw [listing_eq_page order table access limit offset ascii] at found
    obtain ⟨other, listed, same⟩ := List.mem_map.mp found
    refine ⟨offset.toNat, ?_⟩
    have present := List.mem_of_mem_drop (List.mem_of_mem_take listed)
    rw [grantedRows, List.mem_mergeSort, List.mem_filter] at present
    rwa [listedState_inj table.toRequestTable record other stored present.1 same.symm]
  · rintro ⟨offset, found⟩
    refine ⟨offset, ?_⟩
    rw [listing_eq_page order table access limit offset ascii, Int.toNat_natCast]
    exact List.mem_map_of_mem found

def oneInstallation : AccessSources where
  installations := .ok [7]
  secret := .ok "token"
  decryptSecret := .ok
  client := some fun _ _ => .ok [" octo/repo ", "OCTO/repo"]

theorem listed_iff_authorised_pushed :
    (∃ offset : Int, listedState pushedRow ∈ (listStatesForGitHubInstallationRepositories visitInOrder
      (oneRow pushedRow (by decide)) [⟨7, ["octo/repo"]⟩] 20 offset).1) ↔
      hasRepositoryAccess [⟨7, ["octo/repo"]⟩] 7 "Octo/Repo" = true :=
  listed_iff_authorised visitInOrder (oneRow pushedRow (by decide)) oneInstallation
    [⟨7, ["octo/repo"]⟩] (by decide) (by simp [AsciiAccess]; decide) pushedRow
    (List.mem_singleton.mpr rfl) (by decide) (by decide) 20

end Authorisation

end Runnerd
