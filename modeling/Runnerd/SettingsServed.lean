import Runnerd.SettingsRuns

/-!
What the owners of a scope have set, in plain text, and that the tables, the cipher and
the resolution together make exactly this of it.
-/

namespace Runnerd.Settings

open GoText SecretBox SealedBytes

section Agreement
variable {site : Site}

/-- The rows of a scope are the setting of its owners: the value's JSON, and a key that opens
to theirs. -/
structure World.Agrees (world : World site) (scope : Scope) : Prop where
  value : (world.tables.preferences.find scope).map AccountPreferenceRecord.valueJSON =
    (world.settings scope).value.map fun value => trimSpace (site.marshal value)
  key : ∀ lookups, Opens site.aead site.sum256 site.corruptInput lookups site.authEncryptionKey →
    (world.tables.secrets.find scope).map
        (fun record => decryptSecret lookups record.secret.encryptedValue) =
      (world.settings scope).apiKey.map .ok
  made : ∀ value, (world.settings scope).value = some value → ∃ entry ∈ world.saves,
    entry.mutation.scope = scope ∧ entry.mutation.value = value
  unset : scope.id ≤ 0 → world.settings scope = {}

theorem World.Agrees.positive {world : World site} {scope : Scope} (agrees : world.Agrees scope)
    (set : world.settings scope ≠ {}) : 0 < scope.id := by
  by_contra missing
  exact set (agrees.unset (by omega))

/-- A step that leaves the rows and the settings as they are. -/
theorem World.Agrees.kept {world later : World site} {scope : Scope} (agrees : world.Agrees scope)
    (preferences : later.tables.preferences = world.tables.preferences)
    (secrets : later.tables.secrets = world.tables.secrets)
    (settings : later.settings = world.settings) (saves : later.saves = world.saves) :
    later.Agrees scope where
  value := by rw [preferences, settings]; exact agrees.value
  key := by rw [secrets, settings]; exact agrees.key
  made := by rw [settings, saves]; exact agrees.made
  unset := by rw [settings]; exact agrees.unset

theorem save_agrees_here {world : World site} {entry : Entry site} {after : Tables}
    (applied : entry.mutation.apply site world.tables = .ok after)
    (agrees : world.Agrees entry.mutation.scope) :
    (world.save entry after).Agrees entry.mutation.scope := by
  obtain ⟨positive, preferences, -, secrets⟩ := apply_ok applied
  have setting : (world.save entry after).settings entry.mutation.scope =
      entry.edit (world.settings entry.mutation.scope) := Function.update_self ..
  constructor
  · rw [setting]
    have found : (world.save entry after).tables.preferences = after.preferences := rfl
    rw [found, preferences, KeyedTable.find_put, if_pos rfl]
    rfl
  · intro lookups opens
    have found : (world.save entry after).tables.secrets = after.secrets := rfl
    rw [setting, found, Entry.edit]
    cases entry.sound.2 with
    | inherited mode written source =>
      have change : entry.mutation.secret = .delete := by rw [written]
      simp only [change] at secrets
      rw [mode, secrets, KeyedTable.find_erase, if_pos rfl]
      rfl
    | @custom _ _ _ secret mode written asked supported key =>
      have change : entry.mutation.secret = secret := by rw [written]
      rw [change] at secrets
      rw [mode]
      cases key with
      | keep blank =>
        -- the row of an earlier save stays, and so does the key of the setting
        simp only at secrets
        simp only [secrets, blank, if_true]
        exact agrees.key lookups opens
      | set typed sealed =>
        obtain ⟨stored, text, put⟩ := secrets
        have solid := encryptSecret_stored _ _ sealed
        have opened := decryptSecret_stored _ _ site.corruptInput sealed rfl opens
        rw [put, KeyedTable.find_put, if_pos rfl]
        simp only [typed, if_false, Option.map_some, text, solid.1, opened, trimSpace_idem]
  · intro value same
    rw [setting] at same
    exact ⟨entry, List.mem_cons_self, rfl, Option.some.inj same⟩
  · intro missing
    omega

/-- A save writes the key of its own scope only. -/
theorem apply_secret_elsewhere {mutation : Mutation} {tables after : Tables} {scope : Scope}
    (applied : mutation.apply site tables = .ok after) (other : mutation.scope ≠ scope) :
    after.secrets.find scope = tables.secrets.find scope := by
  obtain ⟨-, -, -, secrets⟩ := apply_ok applied
  cases change : mutation.secret with
  | keep =>
    simp only [change] at secrets
    rw [secrets]
  | set encrypted =>
    simp only [change] at secrets
    obtain ⟨stored, -, put⟩ := secrets
    rw [put, KeyedTable.find_put, if_neg other]
  | delete =>
    simp only [change] at secrets
    rw [secrets, KeyedTable.find_erase, if_neg (Ne.symm other)]

theorem save_agrees_elsewhere {world : World site} {entry : Entry site} {after : Tables}
    (applied : entry.mutation.apply site world.tables = .ok after) {scope : Scope}
    (other : entry.mutation.scope ≠ scope) (agrees : world.Agrees scope) :
    (world.save entry after).Agrees scope := by
  obtain ⟨-, preferences, -, -⟩ := apply_ok applied
  have setting : (world.save entry after).settings scope = world.settings scope :=
    Function.update_of_ne (Ne.symm other) _ _
  constructor
  · have found : (world.save entry after).tables.preferences = after.preferences := rfl
    rw [setting, found, preferences, KeyedTable.find_put, if_neg other]
    exact agrees.value
  · intro lookups opens
    have found : (world.save entry after).tables.secrets = after.secrets := rfl
    rw [setting, found, apply_secret_elsewhere applied other]
    exact agrees.key lookups opens
  · intro value same
    rw [setting] at same
    obtain ⟨old, listed, known⟩ := agrees.made value same
    exact ⟨old, List.mem_cons_of_mem _ listed, known⟩
  · rw [setting]
    exact agrees.unset

theorem save_agrees {world : World site} {entry : Entry site} {after : Tables}
    (applied : entry.mutation.apply site world.tables = .ok after) {scope : Scope}
    (agrees : world.Agrees scope) : (world.save entry after).Agrees scope := by
  by_cases here : entry.mutation.scope = scope
  · subst here
    exact save_agrees_here applied agrees
  · exact save_agrees_elsewhere applied here agrees

theorem deleteKey_agrees {world : World site} (deleted : Scope) {scope : Scope}
    (agrees : world.Agrees scope) : (world.deleteKey deleted).Agrees scope := by
  have kept : (world.deleteKey deleted).tables.preferences = world.tables.preferences := by
    simp only [World.deleteKey, World.commit, deleteAccountSecret]
    split <;> rfl
  by_cases here : scope = deleted
  · subst here
    have setting : (world.deleteKey scope).settings scope =
        { world.settings scope with apiKey := none } := Function.update_self ..
    constructor
    · rw [setting, kept]
      exact agrees.value
    · intro lookups opens
      rw [setting]
      by_cases missing : scope.id ≤ 0
      · have same : (world.deleteKey scope).tables.secrets = world.tables.secrets := by
          simp only [World.deleteKey, World.commit, deleteAccountSecret, missing, if_true]
        rw [same, agrees.key lookups opens, agrees.unset missing]
      · have erased : (world.deleteKey scope).tables.secrets =
            world.tables.secrets.erase fun record => decide (record.scope = scope) := by
          simp only [World.deleteKey, World.commit, deleteAccountSecret, missing, if_false]
        rw [erased, KeyedTable.find_erase, if_pos rfl]
        rfl
    · rw [setting]
      exact agrees.made
    · intro missing
      rw [setting, agrees.unset missing]
  · have setting : (world.deleteKey deleted).settings scope = world.settings scope :=
      Function.update_of_ne here _ _
    have same : (world.deleteKey deleted).tables.secrets.find scope =
        world.tables.secrets.find scope := by
      simp only [World.deleteKey, World.commit, deleteAccountSecret]
      split
      · rfl
      · rw [KeyedTable.find_erase, if_neg here]
    constructor
    · rw [setting, kept]
      exact agrees.value
    · intro lookups opens
      rw [setting, same]
      exact agrees.key lookups opens
    · rw [setting]
      exact agrees.made
    · rw [setting]
      exact agrees.unset

theorem defaultWrite_rest {write : DefaultWrite} {tables after : Tables}
    (applied : write.apply tables = .ok after) :
    after.preferences = tables.preferences ∧ after.secrets = tables.secrets := by
  cases write with
  | upsert config =>
    cases applied
    exact ⟨rfl, rfl⟩
  | preservingAPIKey config =>
    unfold DefaultWrite.apply at applied
    cases before : tables.serviceDefault with
    | none => simp [before] at applied
    | some current =>
      by_cases unkeyed : current.apiKeyEncrypted = ""
      · simp [before, unkeyed] at applied
      · simp only [before, unkeyed, if_false, Except.ok.injEq] at applied
        subst applied
        exact ⟨rfl, rfl⟩

theorem step_agrees {before after : World site} (step : Step before after) {scope : Scope}
    (agrees : before.Agrees scope) : after.Agrees scope := by
  cases step with
  | saved entry seen applied => exact save_agrees applied agrees
  | keyDeleted seen manageable => exact deleteKey_agrees _ agrees
  | defaultSaved entry seen applied =>
    obtain ⟨preferences, secrets⟩ := defaultWrite_rest applied
    exact agrees.kept preferences secrets rfl rfl
  | defaultKeyDeleted => exact agrees.kept rfl rfl rfl rfl
  | others preferences secrets serviceDefault => exact agrees.kept preferences secrets rfl rfl

/-- The tables are the settings, whoever writes in whatever order. -/
theorem Reached.agrees {world : World site} (reached : Reached world) (scope : Scope) :
    world.Agrees scope := by
  induction reached with
  | fresh fresh =>
    constructor
    · simp [KeyedTable.find, fresh.preferences, fresh.settings]
    · simp [KeyedTable.find, fresh.secrets, fresh.settings]
    · simp [fresh.settings]
    · simp [fresh.settings]
  | step _ step ih => exact step_agrees step ih

end Agreement

section Serving
variable {site : Site} {world : World site} {backend : ServiceDatabase}
  (getInstallation : Option (Int → Except GoError GitHubInstallationAccount))
  (newClient : (apiKey endpoint : String) → Option GoError)

/-- What the settings make of a scope: its own endpoint and key, or those of an account that
still has the installation. -/
inductive Serves (settings : Scope → Setting) (env : ServiceEnvironment) :
    Scope → (apiURL apiKey : String) → Prop
  | own {scope : Scope} {endpoint apiKey : String}
      (value : (settings scope).value = some ⟨"", endpoint, 0⟩)
      (key : (settings scope).apiKey = some apiKey) (filled : trimSpace endpoint ≠ "")
      (accepted : env.newClient apiKey (trimSpace endpoint) = none) :
      Serves settings env scope (trimSpace endpoint) apiKey
  | lent {installationID accountID : Int} {apiURL apiKey : String}
      (value : (settings (.githubInstallation installationID)).value =
        some ⟨"inherit", "", accountID⟩) (positive : 0 < accountID)
      (linked : githubInstallationLinkedToAccount env accountID installationID = .ok true)
      (serves : Serves settings env (.account accountID) apiURL apiKey) :
      Serves settings env (.githubInstallation installationID) apiURL apiKey

/-- The queries for preferences and secrets do not fail. -/
def Readable (backend : ServiceDatabase) : Prop :=
  ∀ scope, backend.fault (.preference scope) = none ∧ backend.fault (.secret scope) = none

section Rows
variable {tables : Tables} {scope : Scope}

theorem accountPreference_none (readable : Readable backend)
    (missing : tables.preferences.find scope = none) :
    accountPreference (tables.through backend) scope = .error .notFound := by
  have silent : (tables.through backend).fault (.preference scope) = none := (readable scope).1
  have rows : ((tables.through backend).preferences.find? fun record => record.scope == scope) =
      none := missing
  simp [accountPreference, ServiceDatabase.ask, silent, rows]

theorem accountPreference_some {record : AccountPreferenceRecord} (readable : Readable backend)
    (positive : 0 < scope.id) (found : tables.preferences.find scope = some record) :
    accountPreference (tables.through backend) scope = .ok record.valueJSON := by
  have silent : (tables.through backend).fault (.preference scope) = none := (readable scope).1
  have rows : ((tables.through backend).preferences.find? fun record => record.scope == scope) =
      some record := found
  have present : ¬ scope.id ≤ 0 := by omega
  simp [accountPreference, ServiceDatabase.ask, silent, present, rows]

theorem accountSecret_none (readable : Readable backend)
    (missing : tables.secrets.find scope = none) :
    accountSecret (tables.through backend) scope = .error .notFound := by
  have silent : (tables.through backend).fault (.secret scope) = none := (readable scope).2
  have rows : ((tables.through backend).secrets.find? fun record => record.scope == scope) =
      none := missing
  simp [accountSecret, ServiceDatabase.ask, silent, rows]

theorem accountSecret_some {record : AccountSecretRecord} (readable : Readable backend)
    (positive : 0 < scope.id) (found : tables.secrets.find scope = some record) :
    accountSecret (tables.through backend) scope = .ok record.secret := by
  have silent : (tables.through backend).fault (.secret scope) = none := (readable scope).2
  have rows : ((tables.through backend).secrets.find? fun record => record.scope == scope) =
      some record := found
  have present : ¬ scope.id ≤ 0 := by omega
  simp [accountSecret, ServiceDatabase.ask, silent, present, rows]

end Rows

theorem preference_unset (reached : Reached world) (readable : Readable backend) {scope : Scope}
    (unset : (world.settings scope).value = none) :
    (world.environment backend getInstallation newClient).lookups.preference scope =
      .error .notFound := by
  have rows := (reached.agrees scope).value
  rw [unset, Option.map_none, Option.map_eq_none_iff] at rows
  have missing : accountPreference (world.tables.through backend) scope = .error .notFound :=
    accountPreference_none readable rows
  exact congrArg (Except.map site.unmarshal) missing

theorem preference_set (reached : Reached world) (legible : world.Legible)
    (readable : Readable backend) {scope : Scope} {value : SandboxPreference}
    (set : (world.settings scope).value = some value) :
    (world.environment backend getInstallation newClient).lookups.preference scope =
      .ok (.ok value) := by
  have agrees := reached.agrees scope
  have positive : 0 < scope.id := agrees.positive fun blank => by simp [blank] at set
  have rows := agrees.value
  rw [set, Option.map_some, Option.map_eq_some_iff] at rows
  obtain ⟨record, found, text⟩ := rows
  obtain ⟨entry, saved, -, rfl⟩ := agrees.made value set
  have stored : accountPreference (world.tables.through backend) scope = .ok record.valueJSON :=
    accountPreference_some readable positive found
  have parsed := legible entry saved
  rw [← text] at parsed
  exact (congrArg (Except.map site.unmarshal) stored).trans (congrArg Except.ok parsed)

theorem secret_unset (reached : Reached world) (readable : Readable backend) {scope : Scope}
    (unset : (world.settings scope).apiKey = none) :
    (world.environment backend getInstallation newClient).lookups.secret scope =
      .error .notFound := by
  have rows := (reached.agrees scope).key
    (world.environment backend getInstallation newClient).lookups rfl
  rw [unset, Option.map_none, Option.map_eq_none_iff] at rows
  exact accountSecret_none readable rows

theorem secret_set (reached : Reached world) (readable : Readable backend) {scope : Scope}
    {apiKey : String} (set : (world.settings scope).apiKey = some apiKey) : ∃ secret,
    (world.environment backend getInstallation newClient).lookups.secret scope = .ok secret ∧
      decryptSecret (world.environment backend getInstallation newClient).lookups
        secret.encryptedValue = .ok apiKey := by
  have agrees := reached.agrees scope
  have positive : 0 < scope.id := agrees.positive fun blank => by simp [blank] at set
  have rows := agrees.key (world.environment backend getInstallation newClient).lookups rfl
  rw [set, Option.map_some, Option.map_eq_some_iff] at rows
  obtain ⟨record, found, opened⟩ := rows
  exact ⟨record.secret, accountSecret_some readable positive found, opened⟩

/-- This is a service at this endpoint, with this key. -/
def IsService (env : ServiceEnvironment) (resolved : Resolved) (apiURL apiKey : String) : Prop :=
  ∃ service, resolved = .ok service ∧ service.apiURL = apiURL ∧
    decryptSecret env.lookups service.encryptedAPIKey = .ok apiKey

theorem custom_resolves (reached : Reached world) (readable : Readable backend) (scope : Scope)
    (endpoint apiURL apiKey : String) :
    IsService (world.environment backend getInstallation newClient)
        (customService (world.environment backend getInstallation newClient).lookups scope
          ⟨"", endpoint, 0⟩) apiURL apiKey ↔
      trimSpace endpoint ≠ "" ∧ apiURL = trimSpace endpoint ∧
        (world.settings scope).apiKey = some apiKey ∧ newClient apiKey (trimSpace endpoint) = none := by
  unfold IsService customService
  by_cases missing : trimSpace endpoint = ""
  · simp [missing]
  · simp only [missing, if_false, not_false_eq_true, true_and, ne_eq]
    cases set : (world.settings scope).apiKey with
    | none => simp [secret_unset getInstallation newClient reached readable set]
    | some typed =>
      obtain ⟨secret, found, opened⟩ := secret_set getInstallation newClient reached readable set
      have client : (world.environment backend getInstallation newClient).lookups.newClient =
          newClient := rfl
      simp only [found, sandboxServiceForConfig, opened, client, trimSpace_idem]
      -- the row opens to the key of the setting; what is left is whether the SDK takes it
      cases refused : newClient typed (trimSpace endpoint) with
      | some err =>
        constructor
        · rintro ⟨service, resolved, -, -⟩
          cases resolved
        · rintro ⟨-, same, accepted⟩
          cases same
          rw [refused] at accepted
          cases accepted
      | none =>
        constructor
        · rintro ⟨service, resolved, rfl, key⟩
          cases resolved
          have same : typed = apiKey := by simpa [opened] using key
          exact ⟨rfl, congrArg some same, same ▸ refused⟩
        · rintro ⟨rfl, same, -⟩
          cases same
          exact ⟨_, rfl, rfl, opened⟩

theorem setting_kind (reached : Reached world) {scope : Scope} {value : SandboxPreference}
    (set : (world.settings scope).value = some value) :
    (∃ endpoint, value = ⟨"", endpoint, 0⟩) ∨ ∃ installationID accountID,
      scope = .githubInstallation installationID ∧ value = ⟨"inherit", "", accountID⟩ := by
  obtain ⟨entry, -, rfl, rfl⟩ := (reached.agrees scope).made value set
  cases entry.sound.2 with
  | inherited mode written source => exact .inr ⟨_, _, by rw [written], by rw [written]⟩
  | custom mode written asked supported key => exact .inl ⟨_, by rw [written]⟩

theorem own_resolves (reached : Reached world) (legible : world.Legible)
    (readable : Readable backend) {scope : Scope} {endpoint : String}
    (set : (world.settings scope).value = some ⟨"", endpoint, 0⟩) :
    sandboxServiceForScope (world.environment backend getInstallation newClient).lookups scope =
      customService (world.environment backend getInstallation newClient).lookups scope
        ⟨"", endpoint, 0⟩ := by
  rw [sandboxServiceForScope, preference_set getInstallation newClient reached legible readable set]
  simp [blank_custom]

theorem unset_serves (reached : Reached world)
    (readable : Readable backend) {scope : Scope} (unset : (world.settings scope).value = none)
    (apiURL apiKey : String) :
    IsService (world.environment backend getInstallation newClient)
        (sandboxServiceForScope (world.environment backend getInstallation newClient).lookups scope)
        apiURL apiKey ↔
      Serves world.settings (world.environment backend getInstallation newClient) scope apiURL
        apiKey := by
  rw [sandboxServiceForScope, preference_unset getInstallation newClient reached readable unset]
  constructor
  · rintro ⟨service, found, -⟩
    cases found
  · intro serves
    cases serves with
    | own value => simp [unset] at value
    | lent value => simp [unset] at value

theorem own_serves (reached : Reached world) (legible : world.Legible)
    (readable : Readable backend) {scope : Scope} {endpoint : String}
    (set : (world.settings scope).value = some ⟨"", endpoint, 0⟩) (apiURL apiKey : String) :
    IsService (world.environment backend getInstallation newClient)
        (sandboxServiceForScope (world.environment backend getInstallation newClient).lookups scope)
        apiURL apiKey ↔
      Serves world.settings (world.environment backend getInstallation newClient) scope apiURL
        apiKey := by
  rw [own_resolves getInstallation newClient reached legible readable set,
    custom_resolves getInstallation newClient reached readable]
  constructor
  · rintro ⟨filled, rfl, key, accepted⟩
    exact .own set key filled accepted
  · intro serves
    cases serves with
    | @own _ typed _ value key filled accepted =>
      have same : endpoint = typed := by simpa [set] using value
      subst same
      exact ⟨filled, rfl, key, accepted⟩
    | lent value => simp [set] at value

theorem account_serves (reached : Reached world) (legible : world.Legible)
    (readable : Readable backend) (accountID : Int) (apiURL apiKey : String) :
    IsService (world.environment backend getInstallation newClient)
        (sandboxServiceForScope (world.environment backend getInstallation newClient).lookups
          (.account accountID)) apiURL apiKey ↔
      Serves world.settings (world.environment backend getInstallation newClient)
        (.account accountID) apiURL apiKey := by
  cases set : (world.settings (.account accountID)).value with
  | none => exact unset_serves getInstallation newClient reached readable set apiURL apiKey
  | some value =>
    obtain ⟨endpoint, rfl⟩ | ⟨_, _, other, -⟩ := setting_kind reached set
    · exact own_serves getInstallation newClient reached legible readable set apiURL apiKey
    · cases other

/-- An installation that inherits is served as the account is, while it is linked. -/
theorem lent_serves (reached : Reached world) (legible : world.Legible)
    (readable : Readable backend) {installationID accountID : Int}
    (set : (world.settings (.githubInstallation installationID)).value =
      some ⟨"inherit", "", accountID⟩) (apiURL apiKey : String) :
    IsService (world.environment backend getInstallation newClient)
        (sandboxServiceForScope (world.environment backend getInstallation newClient).lookups
          (.githubInstallation installationID)) apiURL apiKey ↔
      0 < accountID ∧ githubInstallationLinkedToAccount
          (world.environment backend getInstallation newClient) accountID installationID = .ok true ∧
        IsService (world.environment backend getInstallation newClient)
          (sandboxServiceForScope (world.environment backend getInstallation newClient).lookups
            (.account accountID)) apiURL apiKey := by
  have stored := preference_set getInstallation newClient reached legible readable set
  have mode : toLower (trimSpace "inherit") = "inherit" := by decide
  rw [installationLevel_eq, installationLevel, preferenceLevel, stored, accountLevel_eq]
  simp only [mode, if_true]
  constructor
  · rintro ⟨service, found, url, key⟩
    obtain ⟨positive, linked, own, resolved, rfl⟩ := inheritedLevel_ok found
    exact ⟨positive, linked, own, resolved, url, key⟩
  · rintro ⟨positive, linked, own, resolved, url, key⟩
    have present : ¬ accountID ≤ 0 := by omega
    refine ⟨{ own with source := "inherited_account" }, ?_, url, key⟩
    rw [inheritedLevel, if_neg present, linked, resolved]
    rfl

/-- What the owners have set is what is used: a scope resolves to the endpoint and the key that
its settings name, and to nothing else. -/
theorem saved_service_used (reached : Reached world) (legible : world.Legible)
    (readable : Readable backend) (scope : Scope) (apiURL apiKey : String) :
    IsService (world.environment backend getInstallation newClient)
        (sandboxServiceForScope (world.environment backend getInstallation newClient).lookups scope)
        apiURL apiKey ↔
      Serves world.settings (world.environment backend getInstallation newClient) scope apiURL
        apiKey := by
  cases scope with
  | account accountID =>
    exact account_serves getInstallation newClient reached legible readable accountID apiURL apiKey
  | githubInstallation installationID =>
    cases set : (world.settings (.githubInstallation installationID)).value with
    | none => exact unset_serves getInstallation newClient reached readable set apiURL apiKey
    | some value =>
      obtain ⟨endpoint, rfl⟩ | ⟨_, accountID, same, rfl⟩ := setting_kind reached set
      · exact own_serves getInstallation newClient reached legible readable set apiURL apiKey
      · cases same
        rw [lent_serves getInstallation newClient reached legible readable set,
          account_serves getInstallation newClient reached legible readable]
        constructor
        · rintro ⟨positive, linked, serves⟩
          exact .lent set positive linked serves
        · intro serves
          cases serves with
          | own value => simp [set] at value
          | @lent _ lender _ _ value positive linked serves =>
            have same : accountID = lender := by simpa [set] using value
            subst same
            exact ⟨positive, linked, serves⟩

theorem octo_saved_service : Serves octoLentWorld.settings
    (octoLentWorld.environment {} none fun _ _ => none) (.githubInstallation 5) octoURL
    "e2b_key" :=
  (saved_service_used none (fun _ _ => none) octoLentWorld_reached octoLentWorld_legible
    (fun _ => ⟨rfl, rfl⟩) (.githubInstallation 5) octoURL "e2b_key").mp
    ⟨octoService, by decide +kernel, rfl, by decide +kernel⟩

end Serving

end Runnerd.Settings
