import Runnerd.SettingsRuns

/-!
Whose key a runner is started with, and who asked for that, in any run of the settings
handlers. Nobody's key is used for an installation unless it was typed there, or its
account has lent it to the installation or owns that.
-/

namespace Runnerd.Settings

open GoText SecretBox SealedBytes

section Lending
variable {site : Site}

theorem stored_saved {world : World site} {tables : Tables} {backend : ServiceDatabase}
    {scope : Scope} {value : SandboxPreference} (holds : world.Holds tables)
    (legible : world.Legible)
    (stored : storedPreference site (tables.through backend) scope = .ok (.ok value)) :
    ∃ entry ∈ world.saves, entry.mutation.scope = scope ∧ entry.mutation.value = value := by
  unfold storedPreference at stored
  cases read : accountPreference (tables.through backend) scope with
  | error err => simp [read, Except.map] at stored
  | ok valueJSON =>
    have parsed : site.unmarshal valueJSON = .ok value := by
      simpa [read, Except.map] using stored
    have row := ask_ok read
    by_cases missing : scope.id ≤ 0
    · simp [missing] at row
    · rw [if_neg missing] at row
      cases found : (tables.through backend).preferences.find? fun record => record.scope == scope with
      | none => simp [found] at row
      | some record =>
        have text : record.valueJSON = valueJSON := by simpa [found] using row
        have here : record.scope = scope := by simpa using List.find?_some found
        have listed : record ∈ tables.preferences.rows := List.mem_of_find?_eq_some found
        obtain ⟨entry, saved, rfl⟩ := holds.preference record listed
        refine ⟨entry, saved, here, ?_⟩
        have same := (legible entry saved).symm.trans (text ▸ parsed)
        exact Except.ok.inj same

/-- The account has asked itself that the installation uses its service. -/
def World.LentBy (world : World site) (accountID installationID : Int) : Prop :=
  ∃ entry ∈ world.saves, entry.viewer = accountID ∧
    SpeaksFor entry.reads accountID (.githubInstallation installationID) ∧ entry.mutation =
      ⟨.githubInstallation installationID, ⟨"inherit", "", accountID⟩, .delete⟩

theorem inheritedSource_cases {reads : SettingsReads} {scope : Scope} {viewer source : Int}
    {replace : Bool}
    (found : inheritedSandboxSourceAccountID site reads scope viewer replace = .ok source) :
    source = viewer ∨ ∃ value, storedPreference site reads.inheritedSource scope = .ok (.ok value) ∧
      normalizeSandboxPreferenceMode value.mode scope = .inherit ∧ value.sourceAccountID = source := by
  unfold inheritedSandboxSourceAccountID at found
  cases replace with
  | true => exact .inl (by simpa using found.symm)
  | false =>
    cases read : storedPreference site reads.inheritedSource scope with
    | error err =>
      cases err with
      | notFound => exact .inl (by simpa [read] using found.symm)
      | failed err => simp [read] at found
    | ok parsed =>
      cases parsed with
      | error corrupt => simp [read] at found
      | ok value =>
        by_cases inherited : normalizeSandboxPreferenceMode value.mode scope = .inherit ∧
            0 < value.sourceAccountID
        · have same : value.sourceAccountID = source := by simpa [read, inherited] using found
          exact .inr ⟨value, rfl, inherited.1, same⟩
        · rw [read] at found
          simp only [Bool.false_eq_true, if_false, if_neg inherited, Except.ok.injEq] at found
          exact .inl found.symm

/-- Every service that is inherited was lent. -/
def World.Lent (world : World site) : Prop :=
  ∀ entry ∈ world.saves, ∀ installationID,
    entry.mutation.scope = .githubInstallation installationID →
    normalizeSandboxPreferenceMode entry.mutation.value.mode (.githubInstallation installationID) =
      .inherit → world.LentBy entry.mutation.value.sourceAccountID installationID

theorem World.LentBy.mono {world later : World site} {accountID installationID : Int}
    (lent : world.LentBy accountID installationID) (saves : world.saves ⊆ later.saves) :
    later.LentBy accountID installationID := by
  obtain ⟨entry, listed, asked⟩ := lent
  exact ⟨entry, saves listed, asked⟩

theorem Reached.lent {world : World site} (reached : Reached world) (legible : world.Legible) :
    world.Lent := by
  induction reached with
  | fresh fresh =>
    intro entry listed
    simp [fresh.saves] at listed
  | @step before after reached step ih =>
    cases step with
    | @saved tables entry seen applied =>
      have known : before.Legible := fun old listed => legible old (List.mem_cons_of_mem _ listed)
      have earlier := ih known
      intro made listed installationID placed inherited
      rcases List.mem_cons.mp listed with rfl | old
      · -- the account that lends is the one that saves, or the one that was saved before
        obtain ⟨own, sourceAccountID, written, source⟩ := made.inherits inherited
        have same : own = installationID := by simpa [written] using placed
        subst same
        rw [written]
        rcases inheritedSource_cases source with rfl | ⟨value, stored, inherits, rfl⟩
        · have speaks := made.sound.1
          rw [written] at speaks
          exact ⟨made, List.mem_cons_self, rfl, speaks, written⟩
        · obtain ⟨held, member, view⟩ := seen made.reads.inheritedSource (by simp [SettingsReads.views])
          rw [view] at stored
          obtain ⟨first, saved, place, rfl⟩ :=
            stored_saved (reached.sound held member) known stored
          exact (earlier first saved own place inherits).mono (List.subset_cons_self _ _)
      · exact (earlier made old installationID placed inherited).mono (List.subset_cons_self _ _)
    | keyDeleted | defaultSaved | defaultKeyDeleted | others =>
      intro made listed installationID placed inherited
      exact ih legible made listed installationID placed inherited

end Lending

section Credentials
variable {site : Site}

/-- The key and the endpoint of a service were typed, each by someone who spoke for the
scope then; the endpoint is one of the regions. -/
structure World.Typed (world : World site) (lookups : Lookups) (scope : Scope)
    (service : SandboxService) : Prop where
  key : ∃ entry ∈ world.saves, SpeaksFor entry.reads entry.viewer scope ∧
    entry.mutation.scope = scope ∧ trimSpace entry.input.apiKey ≠ "" ∧
    decryptSecret lookups service.encryptedAPIKey = .ok (trimSpace entry.input.apiKey)
  url : ∃ entry ∈ world.saves, SpeaksFor entry.reads entry.viewer scope ∧
    entry.mutation.scope = scope ∧ ∃ apiURL, normalizeHTTPURL site entry.input.apiURL = .ok apiURL ∧
    (supportedSandboxRegionEndpoint site apiURL).map trimSpace = some service.apiURL

/-- An administrator typed the key. -/
def World.TypedDefault (world : World site) (lookups : Lookups) (service : SandboxService) : Prop :=
  ∃ entry ∈ world.adminSaves, trimSpace entry.input.apiKey ≠ "" ∧
    decryptSecret lookups service.encryptedAPIKey = .ok (trimSpace entry.input.apiKey)

/-- Who typed the credentials that a request resolves to. -/
inductive Provenance (world : World site) (env : ServiceEnvironment) (req : RunnerRequest)
    (service : SandboxService) : Prop
  | snapshot (url : service.apiURL = trimSpace req.sandboxAPIURL)
      (key : service.encryptedAPIKey = trimSpace req.sandboxAPIKeyEncrypted)
  | installation {installationID : Int}
      (known : requestInstallation env req = .ok (some installationID))
      (typed : world.Typed env.lookups (.githubInstallation installationID) service)
  | lent {installationID accountID : Int}
      (known : requestInstallation env req = .ok (some installationID))
      (lent : world.LentBy accountID installationID) (linked : Linked env accountID installationID)
      (typed : world.Typed env.lookups (.account accountID) service)
  | personal {installationID accountID : Int}
      (known : requestInstallation env req = .ok (some installationID))
      (owner : PersonalOwner env accountID installationID)
      (typed : world.Typed env.lookups (.account accountID) service)
  | adminDefault {installation : Option Int} {config : SandboxServiceDefault}
      (known : requestInstallation env req = .ok installation)
      (admits : Admits env config installation) (typed : world.TypedDefault env.lookups service)

variable {world : World site} {backend : ServiceDatabase}
  {getInstallation : Option (Int → Except GoError GitHubInstallationAccount)}
  {newClient : (apiKey endpoint : String) → Option GoError}

theorem customService_ok {lookups : Lookups} {scope : Scope} {value : SandboxPreference}
    {service : SandboxService} (own : customService lookups scope value = .ok service) :
    trimSpace value.apiURL ≠ "" ∧ service.apiURL = trimSpace value.apiURL ∧
      ∃ secret, lookups.secret scope = .ok secret ∧
        service.encryptedAPIKey = secret.encryptedValue := by
  unfold customService at own
  by_cases missing : trimSpace value.apiURL = ""
  · simp [missing] at own
  · simp only [missing, if_false] at own
    cases found : lookups.secret scope with
    | error err => cases err <;> simp [found] at own
    | ok secret =>
      simp only [found] at own
      have same := sandboxServiceForConfig_same own
      exact ⟨missing, by rw [same], secret, rfl, by rw [same]⟩

theorem secret_stored {tables : Tables} {scope : Scope} {secret : AccountSecret}
    (found : accountSecret (tables.through backend) scope = .ok secret) :
    ⟨scope, secret⟩ ∈ tables.secrets.rows := by
  have row := ask_ok found
  by_cases missing : scope.id ≤ 0
  · simp [missing] at row
  · rw [if_neg missing] at row
    cases listed : (tables.through backend).secrets.find? fun record => record.scope == scope with
    | none => simp [listed] at row
    | some record =>
      have same : record.secret = secret := by simpa [listed] using row
      have here : record.scope = scope := by simpa using List.find?_some listed
      subst same here
      exact List.mem_of_find?_eq_some listed

theorem typed_of_custom {scope : Scope} {value : SandboxPreference} {service : SandboxService}
    (holds : world.Holds world.tables) (legible : world.Legible)
    (stored : (world.environment backend getInstallation newClient).lookups.preference scope =
      .ok (.ok value))
    (own : customService (world.environment backend getInstallation newClient).lookups scope value =
      .ok service) :
    world.Typed (world.environment backend getInstallation newClient).lookups scope service := by
  obtain ⟨filled, url, secret, found, key⟩ := customService_ok own
  -- the endpoint and the key may be of two saves: a blank key keeps the one stored before
  obtain ⟨entry, saved, rfl, rfl⟩ := stored_saved holds legible stored
  obtain ⟨speaks, stores⟩ := entry.sound
  obtain ⟨sealer, sealing, placed, encrypted, change, text⟩ := holds.secret _ (secret_stored found)
  obtain ⟨sealerSpeaks, sealerStores⟩ := sealer.sound
  rw [placed] at sealerSpeaks
  constructor
  · refine ⟨sealer, sealing, sealerSpeaks, placed, ?_⟩
    cases sealerStores with
    | inherited mode written source => simp [written] at change
    | custom mode written asked supported typed =>
      rw [written] at change
      subst change
      cases typed with
      | set typed sealed =>
        have solid := encryptSecret_stored _ _ sealed
        have opened : decryptSecret (world.environment backend getInstallation newClient).lookups _ =
            .ok (trimSpace (trimSpace sealer.input.apiKey)) :=
          decryptSecret_stored _ _ site.corruptInput sealed rfl rfl
        refine ⟨typed, ?_⟩
        rw [key, text, solid.1, opened, trimSpace_idem]
  · refine ⟨entry, saved, speaks, rfl, ?_⟩
    cases stores with
    | inherited mode written source =>
      rw [written] at filled
      exact absurd rfl filled
    | custom mode written asked supported typed =>
      refine ⟨_, asked, ?_⟩
      rw [supported, url, written]
      rfl

theorem typed_account {accountID : Int} {service : SandboxService}
    (holds : world.Holds world.tables) (legible : world.Legible)
    (own : accountLevel (world.environment backend getInstallation newClient) accountID =
      .ok service) :
    world.Typed (world.environment backend getInstallation newClient).lookups (.account accountID)
      service := by
  obtain ⟨value, stored, custom⟩ := preferenceLevel_ok own
  exact typed_of_custom holds legible stored custom

theorem lent_of_inherits {installationID accountID : Int} (reached : Reached world)
    (legible : world.Legible)
    (inherits : Inherits (world.environment backend getInstallation newClient)
      (.githubInstallation installationID) (.account accountID)) :
    world.LentBy accountID installationID := by
  obtain ⟨value, stored, inherited, -, -, same⟩ := inherits
  have current := reached.sound world.tables List.mem_cons_self
  obtain ⟨entry, saved, placed, rfl⟩ := stored_saved current legible stored
  rw [Scope.account.inj same]
  exact reached.lent legible entry saved installationID placed inherited

theorem typedDefaultKey_ok {nonce : Nonce site.aead} {encrypted : String}
    {input : UpsertAdminSandboxServiceDefaultRequest}
    (typed : typedDefaultKey site nonce input = .ok encrypted) (filled : encrypted ≠ "") :
    trimSpace input.apiKey ≠ "" ∧ encryptSecret site.aead site.sum256 nonce (trimSpace input.apiKey)
      site.authEncryptionKey = .ok encrypted := by
  unfold typedDefaultKey at typed
  by_cases blank : trimSpace input.apiKey = ""
  · have nothing : encrypted = "" := by simpa [blank] using typed.symm
    exact absurd nothing filled
  · refine ⟨blank, ?_⟩
    cases sealed : encryptSecret site.aead site.sum256 nonce (trimSpace input.apiKey)
        site.authEncryptionKey with
    | error err => simp [blank, sealed] at typed
    | ok stored => simpa [blank, sealed] using typed

theorem defaultService_ok {lookups : Lookups} {config : SandboxServiceDefault}
    {service : SandboxService} (own : defaultService lookups config = .ok service) :
    trimSpace config.apiKeyEncrypted ≠ "" ∧
      service.encryptedAPIKey = trimSpace config.apiKeyEncrypted := by
  unfold defaultService at own
  by_cases unaddressed : trimSpace config.apiURL = ""
  · simp [unaddressed] at own
  · by_cases unkeyed : trimSpace config.apiKeyEncrypted = ""
    · simp [unaddressed, unkeyed] at own
    · simp only [unaddressed, unkeyed, if_false] at own
      refine ⟨unkeyed, ?_⟩
      rw [sandboxServiceForConfig_same own]

theorem typed_default {config : SandboxServiceDefault} {service : SandboxService}
    (holds : world.Holds world.tables) (stored : world.tables.serviceDefault = some config)
    (own : defaultService (world.environment backend getInstallation newClient).lookups config =
      .ok service) :
    world.TypedDefault (world.environment backend getInstallation newClient).lookups service := by
  obtain ⟨filled, key⟩ := defaultService_ok own
  rcases holds.serviceDefault config stored with blank | ⟨entry, listed, encrypted, typed, some_, text⟩
  · rw [blank] at filled
    exact absurd rfl filled
  · obtain ⟨asked, sealed⟩ := typedDefaultKey_ok typed some_
    have solid := encryptSecret_stored _ _ sealed
    have opened : decryptSecret (world.environment backend getInstallation newClient).lookups _ =
        .ok (trimSpace (trimSpace entry.input.apiKey)) :=
      decryptSecret_stored _ _ site.corruptInput sealed rfl rfl
    refine ⟨entry, listed, asked, ?_⟩
    rw [key, text, trimSpace_idem, solid.1, opened, trimSpace_idem]

/-- A runner is started with credentials that were typed for it: for its installation, or
for an account that lent them to the installation or owns it, or as the default. -/
theorem credentials_typed (reached : Reached world) (legible : world.Legible)
    (req : RunnerRequest) (service : SandboxService)
    (resolved : sandboxServiceForRunnerRequest
      (world.environment backend getInstallation newClient).lookups req = .ok service) :
    Provenance world (world.environment backend getInstallation newClient) req service := by
  have holds := reached.sound world.tables List.mem_cons_self
  cases resolution_credited ((resolution_eq req).symm.trans resolved) with
  | snapshot url key => exact .snapshot url key
  | installation known stored own =>
    exact .installation known (typed_of_custom holds legible stored own)
  | @inherited installationID accountID found known inherits linked own same =>
    have typed := typed_account holds legible own
    subst same
    exact .lent known (lent_of_inherits reached legible inherits) linked ⟨typed.key, typed.url⟩
  | personal known owner linked own => exact .personal known owner (typed_account holds legible own)
  | adminDefault known admits own =>
    exact .adminDefault known admits (typed_default holds admits.stored own)

def octoServiceRequest : RunnerRequest := { id := "42", githubInstallationID := 5 }

theorem octo_credentials_typed : Provenance octoLentWorld
    (octoLentWorld.environment {} none fun _ _ => none) octoServiceRequest octoService :=
  credentials_typed octoLentWorld_reached octoLentWorld_legible octoServiceRequest octoService
    (by decide +kernel)

end Credentials

end Runnerd.Settings
