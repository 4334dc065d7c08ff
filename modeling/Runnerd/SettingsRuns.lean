import Runnerd.ServicePrecedence
import Runnerd.ServiceSettings

/-!
Runs of the settings handlers, in which other requests write between the queries of
each: who may save for a scope, what a save writes, and that the tables hold nothing
but what was saved.
-/

namespace Runnerd.Settings

open GoText SecretBox SealedBytes
open Urls (Text)

section Requests
variable (site : Site)

/-- A save that has passed its checks. -/
structure Entry where
  viewer : Int
  query : Text
  input : UpsertSandboxConfigRequest
  nonce : Nonce site.aead
  reads : SettingsReads
  mutation : Mutation
  handled : handleUserSaveSandboxConfig site reads nonce viewer query (some input) = .ok mutation

/-- A save of the default that has passed its checks. -/
structure AdminEntry where
  input : UpsertAdminSandboxServiceDefaultRequest
  nonce : Nonce site.aead
  view : ServiceDatabase
  write : DefaultWrite
  handled : handleAdminSaveSandboxServiceDefault site nonce view (some input) = .ok write

/-- What the owners of a scope have set, in plain text: where it is served, or whose
service it uses, and the key. -/
structure Setting where
  value : Option SandboxPreference := none
  apiKey : Option String := none
  deriving DecidableEq

variable {site} in
/-- A save replaces the value. A key that is typed is the new one; inheriting drops the key. -/
def Entry.edit (entry : Entry site) (setting : Setting) : Setting where
  value := some entry.mutation.value
  apiKey :=
    match normalizeSandboxPreferenceMode entry.input.mode entry.mutation.scope with
    | .inherit => none
    | .custom =>
        if trimSpace entry.input.apiKey = "" then setting.apiKey
        else some (trimSpace entry.input.apiKey)

structure World where
  tables : Tables
  settings : Scope → Setting := fun _ => {}
  /-- What the tables have held before. -/
  past : List Tables := []
  saves : List (Entry site) := []
  adminSaves : List (AdminEntry site) := []

variable {site}

def World.commit (world : World site) (after : Tables) : World site :=
  { world with tables := after, past := world.tables :: world.past }

def World.save (world : World site) (entry : Entry site) (after : Tables) : World site :=
  { world.commit after with
    saves := entry :: world.saves
    settings := Function.update world.settings entry.mutation.scope
      (entry.edit (world.settings entry.mutation.scope)) }

def World.deleteKey (world : World site) (scope : Scope) : World site :=
  { world.commit (deleteAccountSecret scope world.tables) with
    settings := Function.update world.settings scope
      { world.settings scope with apiKey := none } }

def World.saveDefault (world : World site) (entry : AdminEntry site) (after : Tables) :
    World site :=
  { world.commit after with adminSaves := entry :: world.adminSaves }

/-- The view is of the tables as they are or have been. -/
def World.Seen (world : World site) (view : ServiceDatabase) : Prop :=
  ∃ held ∈ world.tables :: world.past, view = held.through view

/-- Nothing has been saved yet. -/
structure World.Fresh (world : World site) : Prop where
  preferences : world.tables.preferences.rows = []
  secrets : world.tables.secrets.rows = []
  serviceDefault : world.tables.serviceDefault = none
  settings : world.settings = fun _ => {}
  past : world.past = []
  saves : world.saves = []
  adminSaves : world.adminSaves = []

/-- What was saved can be read back from its JSON. -/
def World.Legible (world : World site) : Prop :=
  ∀ entry ∈ world.saves,
    site.unmarshal (trimSpace (site.marshal entry.mutation.value)) = .ok entry.mutation.value

/-- The tables, GitHub and the SDK as a resolution finds them. -/
def World.environment (world : World site) (backend : ServiceDatabase)
    (getInstallation : Option (Int → Except GoError GitHubInstallationAccount))
    (newClient : (apiKey endpoint : String) → Option GoError) : ServiceEnvironment where
  db := world.tables.through backend
  unmarshal := site.unmarshal
  getInstallation := getInstallation
  openSealed := openSealed site.aead site.sum256 site.corruptInput site.authEncryptionKey
  newClient := newClient

inductive Step : World site → World site → Prop
  | saved {world : World site} {after : Tables} (entry : Entry site)
      (seen : ∀ view ∈ entry.reads.views, world.Seen view)
      (applied : entry.mutation.apply site world.tables = .ok after) :
      Step world (world.save entry after)
  /-- `handleUserDeleteSandboxAPIKey`. -/
  | keyDeleted {world : World site} {reads : SettingsReads} {viewer : Int} {query : Text}
      {scope : Scope} (seen : ∀ view ∈ reads.views, world.Seen view)
      (manageable : manageableScope reads viewer query = .ok scope) :
      Step world (world.deleteKey scope)
  | defaultSaved {world : World site} {after : Tables} (entry : AdminEntry site)
      (seen : world.Seen entry.view)
      (applied : entry.write.apply world.tables = .ok after) :
      Step world (world.saveDefault entry after)
  | defaultKeyDeleted {world : World site} :
      Step world (world.commit (deleteSandboxServiceDefaultAPIKey world.tables))
  /-- Whatever the other handlers write. -/
  | others {world : World site} {after : Tables}
      (preferences : after.preferences = world.tables.preferences)
      (secrets : after.secrets = world.tables.secrets)
      (serviceDefault : after.serviceDefault = world.tables.serviceDefault) :
      Step world (world.commit after)

inductive Reached : World site → Prop
  | fresh {world : World site} (fresh : world.Fresh) : Reached world
  | step {before after : World site} (reached : Reached before) (step : Step before after) :
      Reached after

end Requests

section Clearance

/-- Who may change the settings of a scope: an account its own, and those of an installation
the GitHub user that it belongs to, or a member of the organisation that it belongs to. -/
inductive SpeaksFor (reads : SettingsReads) (viewer : Int) : Scope → Prop
  | self : SpeaksFor reads viewer (.account viewer)
  | user {installationID : Int} {owner : GitHubInstallationAccount} {identity : OAuthIdentityRecord}
      (owned : scopeOwner reads viewer installationID = .ok owner)
      (known : getOAuthIdentityForAccount reads.identity viewer = .ok identity)
      (isUser : isUserOwner owner = true) (same : userMatches identity owner = true) :
      SpeaksFor reads viewer (.githubInstallation installationID)
  | organization {installationID : Int} {owner : GitHubInstallationAccount}
      {memberships : List OrganizationMembership}
      (owned : scopeOwner reads viewer installationID = .ok owner)
      (known : reads.memberships = some (.ok memberships))
      (isOrganization : isOrganizationOwner owner = true)
      (member : organizationMatches memberships owner = true) :
      SpeaksFor reads viewer (.githubInstallation installationID)

variable {reads : SettingsReads} {viewer : Int}

/-- What the user check says of one owner. -/
theorem userManageable_single {owner : GitHubInstallationAccount} {manageable : List Bool}
    (answered : userManageable reads viewer [owner] = .ok manageable) :
    ∃ manages, manageable = [manages] ∧ (manages = true → ∃ identity,
      getOAuthIdentityForAccount reads.identity viewer = .ok identity ∧
        isUserOwner owner = true ∧ userMatches identity owner = true) := by
  unfold userManageable at answered
  by_cases asked : toLower (trimSpace owner.accountType) = "user"
  · cases known : getOAuthIdentityForAccount reads.identity viewer with
    | error err => simp [asked, known] at answered
    | ok identity =>
      have single : manageable = [isUserOwner owner && userMatches identity owner] := by
        simpa [asked, known] using answered.symm
      refine ⟨_, single, ?_⟩
      intro manages
      rw [Bool.and_eq_true] at manages
      exact ⟨identity, rfl, manages⟩
  · have single : manageable = [false] := by simpa [asked] using answered.symm
    exact ⟨false, single, by simp⟩

theorem speaksFor_owner {installationID : Int} {owner : GitHubInstallationAccount}
    {manageable : List Bool} (owned : scopeOwner reads viewer installationID = .ok owner)
    (answered : githubInstallationAccountsManageable reads viewer [owner] = .ok manageable)
    (manages : manageable.headD false = true) :
    SpeaksFor reads viewer (.githubInstallation installationID) := by
  unfold githubInstallationAccountsManageable at answered
  cases first : userManageable reads viewer [owner] with
  | error err => simp [first] at answered
  | ok checked =>
    obtain ⟨user, rfl, matched⟩ := userManageable_single first
    have byUser (granted : user = true) :
        SpeaksFor reads viewer (.githubInstallation installationID) := by
      obtain ⟨identity, known, isUser, same⟩ := matched granted
      exact .user owned known isUser same
    by_cases asked : toLower (trimSpace owner.accountType) = "organization"
    · cases known : reads.memberships with
      | none => simp [first, asked, known] at answered
      | some answer =>
        cases answer with
        | error err => simp [first, asked, known] at answered
        | ok memberships =>
          by_cases isOrganization : isOrganizationOwner owner = true
          · have member : organizationMatches memberships owner = true := by
              have read : manageable = [organizationMatches memberships owner] := by
                simpa [first, asked, known, isOrganization] using answered.symm
              simpa [read] using manages
            exact .organization owned known isOrganization member
          · have granted : user = true := by
              have read : manageable = [user] := by
                simpa [first, asked, known, isOrganization] using answered.symm
              simpa [read] using manages
            exact byUser granted
    · have granted : user = true := by
        have read : manageable = [user] := by simpa [first, asked] using answered.symm
        simpa [read] using manages
      exact byUser granted

theorem manageableScope_ok {query : Text} {scope : Scope}
    (manageable : manageableScope reads viewer query = .ok scope) :
    SpeaksFor reads viewer scope := by
  unfold manageableScope at manageable
  cases asked : accountPreferenceScopeFromRequest reads.scope viewer query with
  | error err => simp [asked] at manageable
  | ok found =>
    cases checked : accountPreferenceScopeManageable reads viewer found with
    | error err => simp [asked, checked] at manageable
    | ok manages =>
      cases manages with
      | false => simp [asked, checked] at manageable
      | true =>
        have same : found = scope := by simpa [asked, checked] using manageable
        subst same
        unfold accountPreferenceScopeManageable at checked
        cases found with
        | account id =>
          have own : id = viewer := by simpa using checked
          rw [own]
          exact .self
        | githubInstallation installationID =>
          cases owned : scopeOwner reads viewer installationID with
          | error err => simp [owned] at checked
          | ok owner =>
            cases answered : githubInstallationAccountsManageable reads viewer [owner] with
            | error err => simp [owned, answered] at checked
            | ok manageable =>
              have first : manageable.headD false = true := by
                simpa [owned, answered] using checked
              exact speaksFor_owner owned answered first

end Clearance

section Entries
variable {site : Site}

/-- The key that a save stores is the one that was typed. -/
inductive Entry.Keys (entry : Entry site) : SecretChange → Prop
  | keep (blank : trimSpace entry.input.apiKey = "") : Keys entry .keep
  | set {encrypted : String} (typed : trimSpace entry.input.apiKey ≠ "")
      (sealed : encryptSecret site.aead site.sum256 entry.nonce (trimSpace entry.input.apiKey)
        site.authEncryptionKey = .ok encrypted) : Keys entry (.set encrypted)

/-- What a save writes. -/
inductive Entry.Stores (entry : Entry site) : Prop
  | inherited {installationID sourceAccountID : Int}
      (mode : normalizeSandboxPreferenceMode entry.input.mode entry.mutation.scope = .inherit)
      (written : entry.mutation =
        ⟨.githubInstallation installationID, ⟨"inherit", "", sourceAccountID⟩, .delete⟩)
      (source : inheritedSandboxSourceAccountID site entry.reads (.githubInstallation installationID)
        entry.viewer entry.input.replaceInheritedSource = .ok sourceAccountID)
  | custom {scope : Scope} {apiURL endpoint : String} {secret : SecretChange}
      (mode : normalizeSandboxPreferenceMode entry.input.mode entry.mutation.scope = .custom)
      (written : entry.mutation = ⟨scope, ⟨"", endpoint, 0⟩, secret⟩)
      (asked : normalizeHTTPURL site entry.input.apiURL = .ok apiURL)
      (supported : supportedSandboxRegionEndpoint site apiURL = some endpoint)
      (key : entry.Keys secret)

theorem secretChange_keys {entry : Entry site} {stored : Bool} {secret : SecretChange}
    (changed : secretChange site entry.nonce (trimSpace entry.input.apiKey) stored = .ok secret) :
    entry.Keys secret := by
  unfold secretChange at changed
  by_cases blank : trimSpace entry.input.apiKey = ""
  · cases stored with
    | false => simp [blank] at changed
    | true =>
      have same : .keep = secret := by simpa [blank] using changed
      rw [← same]
      exact .keep blank
  · cases sealed : encryptSecret site.aead site.sum256 entry.nonce (trimSpace entry.input.apiKey)
        site.authEncryptionKey with
    | error err => simp [blank, sealed] at changed
    | ok encrypted =>
      have same : .set encrypted = secret := by simpa [blank, sealed] using changed
      rw [← same]
      exact .set blank sealed

theorem inheritMutation_ok {reads : SettingsReads} {viewer : Int} {scope : Scope}
    {input : UpsertSandboxConfigRequest} {mutation : Mutation}
    (made : inheritMutation site reads viewer scope input = .ok mutation) : ∃ sourceAccountID,
    mutation = ⟨scope, ⟨"inherit", "", sourceAccountID⟩, .delete⟩ ∧
      inheritedSandboxSourceAccountID site reads scope viewer input.replaceInheritedSource =
        .ok sourceAccountID := by
  unfold inheritMutation at made
  cases found : inheritedSandboxSourceAccountID site reads scope viewer
      input.replaceInheritedSource with
  | error err => simp [found] at made
  | ok sourceAccountID =>
    refine ⟨sourceAccountID, ?_, rfl⟩
    by_cases own : sourceAccountID = viewer
    · cases configured : sandboxSourceAccountConfigured site reads viewer with
      | error err => simp [found, own, configured] at made
      | ok ready =>
        cases ready with
        | false => simp [found, own, configured] at made
        | true => simpa [found, own, configured] using made.symm
    · simpa [found, own] using made.symm

theorem customMutation_ok {entry : Entry site} {scope : Scope} {mutation : Mutation}
    (made : customMutation site entry.reads entry.nonce scope entry.input = .ok mutation) :
    ∃ apiURL endpoint secret, mutation = ⟨scope, ⟨"", endpoint, 0⟩, secret⟩ ∧
      normalizeHTTPURL site entry.input.apiURL = .ok apiURL ∧
      supportedSandboxRegionEndpoint site apiURL = some endpoint ∧ entry.Keys secret := by
  unfold customMutation at made
  cases asked : normalizeHTTPURL site entry.input.apiURL with
  | error err => simp [asked] at made
  | ok apiURL =>
    cases supported : supportedSandboxRegionEndpoint site apiURL with
    | none => simp [asked, supported] at made
    | some endpoint =>
      cases read : keyStored entry.reads.currentKey scope with
      | error err => simp [asked, supported, read] at made
      | ok stored =>
        cases changed : secretChange site entry.nonce (trimSpace entry.input.apiKey) stored with
        | error err => simp [asked, supported, read, changed] at made
        | ok secret =>
          have written : mutation = ⟨scope, ⟨"", endpoint, 0⟩, secret⟩ := by
            simpa [asked, supported, read, changed] using made.symm
          exact ⟨apiURL, endpoint, secret, written, rfl, supported, secretChange_keys changed⟩

theorem Entry.sound (entry : Entry site) :
    SpeaksFor entry.reads entry.viewer entry.mutation.scope ∧ entry.Stores := by
  have handled := entry.handled
  unfold handleUserSaveSandboxConfig at handled
  cases managed : manageableScope entry.reads entry.viewer entry.query with
  | error err => simp [managed] at handled
  | ok scope =>
    have speaks := manageableScope_ok managed
    simp only [managed] at handled
    cases mode : normalizeSandboxPreferenceMode entry.input.mode scope with
    | inherit =>
      rw [mode] at handled
      obtain ⟨sourceAccountID, written, source⟩ := inheritMutation_ok handled
      cases scope with
      -- the mode of an account's own scope is never to inherit
      | account id => cases mode
      | githubInstallation installationID =>
        have placed : entry.mutation.scope = .githubInstallation installationID := by rw [written]
        rw [← placed] at speaks mode
        exact ⟨speaks, .inherited mode written source⟩
    | custom =>
      rw [mode] at handled
      obtain ⟨apiURL, endpoint, secret, written, asked, supported, key⟩ := customMutation_ok handled
      have placed : entry.mutation.scope = scope := by rw [written]
      rw [← placed] at speaks mode
      exact ⟨speaks, .custom mode written asked supported key⟩

theorem blank_custom (scope : Scope) : normalizeSandboxPreferenceMode "" scope = .custom := by
  have blank : toLower (trimSpace "") ≠ "inherit" := by decide
  cases scope with
  | account id => rfl
  | githubInstallation id => rw [normalizeSandboxPreferenceMode, if_neg blank]

/-- A save that inherits is one of `inherit`. -/
theorem Entry.inherits {entry : Entry site} {scope : Scope}
    (inherited : normalizeSandboxPreferenceMode entry.mutation.value.mode scope = .inherit) :
    ∃ installationID sourceAccountID, entry.mutation =
      ⟨.githubInstallation installationID, ⟨"inherit", "", sourceAccountID⟩, .delete⟩ ∧
        inheritedSandboxSourceAccountID site entry.reads (.githubInstallation installationID)
          entry.viewer entry.input.replaceInheritedSource = .ok sourceAccountID := by
  cases entry.sound.2 with
  | @inherited installationID sourceAccountID mode written source =>
    exact ⟨installationID, sourceAccountID, written, source⟩
  | custom mode written asked supported key =>
    rw [written, blank_custom] at inherited
    cases inherited

end Entries

section Contents
variable {site : Site}

/-- The rows are what was saved. -/
structure World.Holds (world : World site) (tables : Tables) : Prop where
  preference : ∀ record ∈ tables.preferences.rows, ∃ entry ∈ world.saves,
    record = ⟨entry.mutation.scope, trimSpace (site.marshal entry.mutation.value)⟩
  secret : ∀ record ∈ tables.secrets.rows, ∃ entry ∈ world.saves,
    entry.mutation.scope = record.scope ∧ ∃ encrypted, entry.mutation.secret = .set encrypted ∧
      record.secret.encryptedValue = trimSpace encrypted
  serviceDefault : ∀ config, tables.serviceDefault = some config → config.apiKeyEncrypted = "" ∨
    ∃ entry ∈ world.adminSaves, ∃ encrypted,
      typedDefaultKey site entry.nonce entry.input = .ok encrypted ∧ encrypted ≠ "" ∧
        config.apiKeyEncrypted = trimSpace encrypted

theorem World.Holds.mono {world later : World site} {tables : Tables} (holds : world.Holds tables)
    (saves : world.saves ⊆ later.saves) (adminSaves : world.adminSaves ⊆ later.adminSaves) :
    later.Holds tables where
  preference record member := by
    obtain ⟨entry, listed, same⟩ := holds.preference record member
    exact ⟨entry, saves listed, same⟩
  secret record member := by
    obtain ⟨entry, listed, same⟩ := holds.secret record member
    exact ⟨entry, saves listed, same⟩
  serviceDefault config stored := by
    rcases holds.serviceDefault config stored with blank | ⟨entry, listed, typed⟩
    · exact .inl blank
    · exact .inr ⟨entry, adminSaves listed, typed⟩

/-- The tables after the transaction of a save. -/
theorem apply_ok {mutation : Mutation} {tables after : Tables}
    (applied : mutation.apply site tables = .ok after) :
    0 < mutation.scope.id ∧ after.preferences =
        tables.preferences.put ⟨mutation.scope, trimSpace (site.marshal mutation.value)⟩ ∧
      after.serviceDefault = tables.serviceDefault ∧
      match mutation.secret with
      | .keep => after.secrets = tables.secrets
      | .set encrypted => ∃ secret : AccountSecret, secret.encryptedValue = trimSpace encrypted ∧
          after.secrets = tables.secrets.put ⟨mutation.scope, secret⟩
      | .delete => after.secrets =
          tables.secrets.erase fun record => decide (record.scope = mutation.scope) := by
  unfold Mutation.apply upsertAccountPreference at applied
  by_cases missing : mutation.scope.id ≤ 0
  · simp [missing] at applied
  · by_cases blank : trimSpace (site.marshal mutation.value) = ""
    · simp [missing, blank] at applied
    · simp only [missing, blank, if_false] at applied
      cases change : mutation.secret with
      | keep =>
        simp only [change, Except.ok.injEq] at applied
        subst applied
        exact ⟨by omega, rfl, rfl, rfl⟩
      | set encrypted =>
        simp only [change, upsertAccountSecret, missing, if_false] at applied
        split at applied
        · cases applied
        · cases applied
          exact ⟨by omega, rfl, rfl, _, rfl, rfl⟩
      | delete =>
        simp only [change, deleteAccountSecret, missing, if_false, Except.ok.injEq] at applied
        subst applied
        exact ⟨by omega, rfl, rfl, rfl⟩

theorem saved_holds {world : World site} {entry : Entry site} {after : Tables}
    (holds : world.Holds world.tables)
    (applied : entry.mutation.apply site world.tables = .ok after) :
    (world.save entry after).Holds after := by
  obtain ⟨-, preferences, serviceDefault, secrets⟩ := apply_ok applied
  have earlier : (world.save entry after).Holds world.tables :=
    holds.mono (List.subset_cons_self entry world.saves) (List.Subset.refl _)
  constructor
  · intro record member
    rw [preferences, KeyedTable.mem_put] at member
    rcases member with ⟨kept, -⟩ | rfl
    · exact earlier.preference record kept
    · exact ⟨entry, List.mem_cons_self, rfl⟩
  · intro record member
    cases change : entry.mutation.secret with
    | keep =>
      simp only [change] at secrets
      rw [secrets] at member
      exact earlier.secret record member
    | set encrypted =>
      simp only [change] at secrets
      obtain ⟨secret, sealed, put⟩ := secrets
      rw [put, KeyedTable.mem_put] at member
      rcases member with ⟨kept, -⟩ | rfl
      · exact earlier.secret record kept
      · exact ⟨entry, List.mem_cons_self, rfl, encrypted, change, sealed⟩
    | delete =>
      simp only [change] at secrets
      rw [secrets, KeyedTable.mem_erase] at member
      exact earlier.secret record member.1
  · rw [serviceDefault]
    exact earlier.serviceDefault

theorem keyDeleted_holds {world : World site} (scope : Scope) (holds : world.Holds world.tables) :
    world.Holds (deleteAccountSecret scope world.tables) := by
  unfold deleteAccountSecret
  by_cases missing : scope.id ≤ 0
  · rwa [if_pos missing]
  · rw [if_neg missing]
    constructor
    · exact holds.preference
    · intro record member
      exact holds.secret record (KeyedTable.mem_erase.mp member).1
    · exact holds.serviceDefault

/-- An administrator's save writes the key that was typed, or none. -/
theorem AdminEntry.written (entry : AdminEntry site) : ∃ config encrypted,
    typedDefaultKey site entry.nonce entry.input = .ok encrypted ∧
      (config.apiKeyEncrypted = encrypted ∧ entry.write = .upsert config ∨
        entry.write = .preservingAPIKey config) := by
  have handled := entry.handled
  unfold handleAdminSaveSandboxServiceDefault at handled
  cases asked : defaultURL site entry.input with
  | error err => simp [asked] at handled
  | ok apiURL =>
    cases read : currentDefault entry.view with
    | error err => simp [asked, read] at handled
    | ok current =>
      cases mode : defaultAudienceMode entry.input current with
      | error err => simp [asked, read, mode] at handled
      | ok audienceMode =>
        cases typed : typedDefaultKey site entry.nonce entry.input with
        | error err => simp [asked, read, mode, typed] at handled
        | ok encrypted =>
          simp only [asked, read, mode, typed] at handled
          refine ⟨⟨entry.input.enabled, audienceMode, apiURL, encrypted⟩, encrypted, rfl, ?_⟩
          by_cases keeps : entry.input.enabled = true ∧ trimSpace entry.input.apiKey = ""
          · rw [if_pos keeps] at handled
            split at handled
            · cases handled
            · exact .inr (Except.ok.inj handled).symm
          · rw [if_neg keeps] at handled
            exact .inl ⟨rfl, (Except.ok.inj handled).symm⟩

theorem defaultSaved_holds {world : World site} {entry : AdminEntry site} {after : Tables}
    (holds : world.Holds world.tables) (applied : entry.write.apply world.tables = .ok after) :
    (world.saveDefault entry after).Holds after := by
  obtain ⟨config, encrypted, typed, written⟩ := entry.written
  have earlier : (world.saveDefault entry after).Holds world.tables :=
    holds.mono (List.Subset.refl _) (List.subset_cons_self entry world.adminSaves)
  rcases written with ⟨key, write⟩ | write
  · rw [write] at applied
    have row : after =
        { world.tables with serviceDefault := some (keepingKey config world.tables.serviceDefault) } :=
      (Except.ok.inj applied).symm
    subst row
    constructor
    · exact earlier.preference
    · exact earlier.secret
    · intro stored same
      cases same
      by_cases blank : trimSpace config.apiKeyEncrypted = ""
      · -- an upsert without a key keeps the key of the row
        have kept : (keepingKey config world.tables.serviceDefault).apiKeyEncrypted =
            (world.tables.serviceDefault.map SandboxServiceDefault.apiKeyEncrypted).getD "" := by
          simp [keepingKey, blank]
        rw [kept]
        cases before : world.tables.serviceDefault with
        | none => exact .inl rfl
        | some old => exact earlier.serviceDefault old before
      · right
        refine ⟨entry, List.mem_cons_self, encrypted, typed, ?_, ?_⟩
        · rintro rfl
          rw [key] at blank
          exact blank (by decide)
        · simp [keepingKey, key ▸ blank, key]
  · rw [write] at applied
    cases before : world.tables.serviceDefault with
    | none => simp [DefaultWrite.apply, before] at applied
    | some old =>
      by_cases unkeyed : old.apiKeyEncrypted = ""
      · simp [DefaultWrite.apply, before, unkeyed] at applied
      · simp only [DefaultWrite.apply, before, unkeyed, if_false, Except.ok.injEq] at applied
        subst applied
        constructor
        · exact earlier.preference
        · exact earlier.secret
        · intro stored same
          cases same
          exact earlier.serviceDefault old before

theorem defaultKeyDeleted_holds {world : World site} (holds : world.Holds world.tables) :
    world.Holds (deleteSandboxServiceDefaultAPIKey world.tables) := by
  constructor
  · exact holds.preference
  · exact holds.secret
  · intro config stored
    obtain ⟨old, -, rfl⟩ := Option.map_eq_some_iff.mp stored
    exact .inl rfl

theorem others_holds {world : World site} {after : Tables} (holds : world.Holds world.tables)
    (preferences : after.preferences = world.tables.preferences)
    (secrets : after.secrets = world.tables.secrets)
    (serviceDefault : after.serviceDefault = world.tables.serviceDefault) : world.Holds after where
  preference := by rw [preferences]; exact holds.preference
  secret := by rw [secrets]; exact holds.secret
  serviceDefault := by rw [serviceDefault]; exact holds.serviceDefault

/-- Whatever the tables have held was saved. -/
def World.Sound (world : World site) : Prop :=
  ∀ tables ∈ world.tables :: world.past, world.Holds tables

theorem step_sound {before after : World site} (step : Step before after) (sound : before.Sound) :
    after.Sound := by
  have current := sound before.tables List.mem_cons_self
  -- what was saved stays known, so only the new contents of the tables need an account
  intro tables member
  cases step with
  | saved entry seen applied =>
    rcases List.mem_cons.mp member with rfl | held
    · exact saved_holds current applied
    · exact (sound tables held).mono (List.subset_cons_self _ _) (List.Subset.refl _)
  | keyDeleted seen manageable =>
    rcases List.mem_cons.mp member with rfl | held
    · exact (keyDeleted_holds _ current).mono (List.Subset.refl _) (List.Subset.refl _)
    · exact (sound tables held).mono (List.Subset.refl _) (List.Subset.refl _)
  | defaultSaved entry seen applied =>
    rcases List.mem_cons.mp member with rfl | held
    · exact defaultSaved_holds current applied
    · exact (sound tables held).mono (List.Subset.refl _) (List.subset_cons_self _ _)
  | defaultKeyDeleted =>
    rcases List.mem_cons.mp member with rfl | held
    · exact (defaultKeyDeleted_holds current).mono (List.Subset.refl _) (List.Subset.refl _)
    · exact (sound tables held).mono (List.Subset.refl _) (List.Subset.refl _)
  | others preferences secrets serviceDefault =>
    rcases List.mem_cons.mp member with rfl | held
    · exact (others_holds current preferences secrets serviceDefault).mono (List.Subset.refl _)
        (List.Subset.refl _)
    · exact (sound tables held).mono (List.Subset.refl _) (List.Subset.refl _)

theorem Reached.sound {world : World site} (reached : Reached world) : world.Sound := by
  induction reached with
  | fresh fresh =>
    intro tables member
    rw [fresh.past, List.mem_singleton] at member
    subst member
    constructor
    · intro record listed
      simp [fresh.preferences] at listed
    · intro record listed
      simp [fresh.secrets] at listed
    · intro config stored
      simp [fresh.serviceDefault] at stored
  | step _ step ih => exact step_sound step ih

end Contents

section Trial

def octoURL : String := "https://sandbox.example.com"

def octoOwnText : String := "\x7b\"api_url\":\"https://sandbox.example.com\"\x7d"

def octoLentText : String := "\x7b\"mode\":\"inherit\",\"source_account_id\":7\x7d"

/-- A server with one region. -/
def octoSite : Site where
  aead := octoSealing.aead
  sum256 := octoSum256
  corruptInput := octoCorruptInput
  authEncryptionKey := "octo-key"
  marshal value :=
    if value.mode = "" then "\x7b\"api_url\":\"" ++ value.apiURL ++ "\"\x7d"
    else "\x7b\"mode\":\"" ++ value.mode ++ "\",\"source_account_id\":" ++
      toString value.sourceAccountID ++ "\x7d"
  unmarshal text :=
    if text = octoOwnText then .ok ⟨"", octoURL, 0⟩
    else if text = octoLentText then .ok ⟨"inherit", "", 7⟩
    else .error { message := "unexpected end of JSON input" }
  parseHost _ host := some host
  sandboxRegions := [octoURL ++ "/"]

/-- Account 7 is the GitHub user 70, who has installation 5. -/
def octoTables : Tables where
  installations :=
    [{ id := 3, accountID := 7, installationID := 5, githubAccountID := 70, accountType := "user"
       accountLogin := "octo" }]
  identities := [⟨7, "github", "70", "octo"⟩]

def octoReads (tables : Tables) : SettingsReads where
  scope := tables.through {}
  owner := tables.through {}
  installations := tables.through {}
  identity := tables.through {}
  memberships := none
  inheritedSource := tables.through {}
  sourcePreference := tables.through {}
  sourceSecret := tables.through {}
  currentKey := tables.through {}

def octoNonce : Nonce octoSite.aead := ⟨octoSealing.nonce, rfl⟩

def octoOwnInput : UpsertSandboxConfigRequest := { apiURL := octoURL, apiKey := " e2b_key " }

def octoEncrypted : String := "v1:CxYhLDdCTVhjbnmEFZW9gyKP0AybfK5zgEf0Rkz0WaFUKe8"

def octoOwnMutation : Mutation := ⟨.account 7, ⟨"", octoURL, 0⟩, .set octoEncrypted⟩

theorem octoOwn_handled : handleUserSaveSandboxConfig octoSite (octoReads octoTables) octoNonce 7 []
    (some octoOwnInput) = .ok octoOwnMutation := by
  decide +kernel

def octoOwn : Entry octoSite :=
  ⟨7, [], octoOwnInput, octoNonce, octoReads octoTables, octoOwnMutation, octoOwn_handled⟩

def Mutation.written (mutation : Mutation) (tables : Tables) : Tables :=
  (mutation.apply octoSite tables).toOption.getD tables

def octoLentMutation : Mutation := ⟨.githubInstallation 5, ⟨"inherit", "", 7⟩, .delete⟩

def octoLentQuery : Text := Urls.ascii "installation_id=3"

theorem octoLent_handled : handleUserSaveSandboxConfig octoSite
    (octoReads (octoOwnMutation.written octoTables)) octoNonce 7 octoLentQuery
    (some { mode := "inherit" }) = .ok octoLentMutation := by
  decide +kernel

def octoLent : Entry octoSite :=
  ⟨7, octoLentQuery, { mode := "inherit" }, octoNonce,
    octoReads (octoOwnMutation.written octoTables), octoLentMutation, octoLent_handled⟩

theorem Mutation.written_ok {mutation : Mutation} {tables : Tables}
    (ok : (mutation.apply octoSite tables).toBool = true) :
    mutation.apply octoSite tables = .ok (mutation.written tables) := by
  cases applied : mutation.apply octoSite tables with
  | error err => simp [applied, Except.toBool] at ok
  | ok after => simp [Mutation.written, applied, Except.toOption]

def octoFreshWorld : World octoSite := { tables := octoTables }

def octoOwnWorld : World octoSite :=
  octoFreshWorld.save octoOwn (octoOwnMutation.written octoTables)

/-- Account 7 has saved its service, and has lent it to installation 5. -/
def octoLentWorld : World octoSite :=
  octoOwnWorld.save octoLent (octoLentMutation.written octoOwnWorld.tables)

/-- What installation 5 resolves to there. -/
def octoService : SandboxService where
  apiURL := octoURL
  encryptedAPIKey := octoEncrypted
  source := "inherited_account"

theorem octoReads_seen (world : World octoSite) :
    ∀ view ∈ (octoReads world.tables).views, world.Seen view := by
  intro view member
  have same : view = world.tables.through {} := by
    simpa [SettingsReads.views, octoReads] using member
  refine ⟨world.tables, List.mem_cons_self, ?_⟩
  rw [same]
  rfl

theorem octoLentWorld_reached : Reached octoLentWorld := by
  have fresh : Reached octoFreshWorld := .fresh ⟨rfl, rfl, rfl, rfl, rfl, rfl, rfl⟩
  have own : Reached octoOwnWorld :=
    .step fresh
      (.saved octoOwn (octoReads_seen octoFreshWorld) (Mutation.written_ok (by decide +kernel)))
  exact .step own
    (.saved octoLent (octoReads_seen octoOwnWorld) (Mutation.written_ok (by decide +kernel)))

theorem octoLentWorld_legible : octoLentWorld.Legible := by
  have own : octoSite.unmarshal (trimSpace (octoSite.marshal octoOwnMutation.value)) =
      .ok octoOwnMutation.value := by
    decide +kernel
  have lent : octoSite.unmarshal (trimSpace (octoSite.marshal octoLentMutation.value)) =
      .ok octoLentMutation.value := by
    decide +kernel
  intro entry listed
  have either : entry = octoLent ∨ entry = octoOwn := by
    simpa [octoLentWorld, octoOwnWorld, octoFreshWorld, World.save] using listed
  rcases either with rfl | rfl
  · exact lent
  · exact own

end Trial

end Runnerd.Settings
