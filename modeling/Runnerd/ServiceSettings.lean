import Runnerd.CacheDeletion
import Runnerd.JobGroups
import Runnerd.KeyedTable
import Runnerd.Numerals
import Runnerd.Redirects
import Runnerd.SecretBox
import Runnerd.ServiceTables

/-!
The sandbox service settings of `internal/server/server_user_handlers.go`: which scope
a request is about, who manages it, what is stored for it, and the admin default of
`internal/server/server_admin_sandbox_service.go`. Every query of a handler has its own
view of the tables, since other requests write between them.
-/

namespace Runnerd.Settings

open GoText SecretBox SealedBytes
open Urls (Text ascii)

section Tables

structure Tables where
  preferences : KeyedTable AccountPreferenceRecord.scope := .empty
  secrets : KeyedTable AccountSecretRecord.scope := .empty
  serviceDefault : Option SandboxServiceDefault := none
  installations : List GitHubInstallationRecord := []
  owners : List GitHubInstallationOwnerRecord := []
  identities : List OAuthIdentityRecord := []
  audiences : List SandboxServiceDefaultAudience := []

/-- The tables as the queries of a backend read them, which may fail. -/
def Tables.through (tables : Tables) (backend : ServiceDatabase) : ServiceDatabase :=
  { backend with
    preferences := tables.preferences.rows
    secrets := tables.secrets.rows
    serviceDefault := tables.serviceDefault
    installations := tables.installations
    owners := tables.owners
    identities := tables.identities
    audiences := tables.audiences }

def upsertAccountPreference (scope : Scope) (valueJSON : String) (tables : Tables) :
    Except GoError Tables :=
  let valueJSON := trimSpace valueJSON
  if scope.id ≤ 0 then .error { message := "scope_id is required" }
  else if valueJSON = "" then .error { message := "value_json is required" }
  else .ok { tables with preferences := tables.preferences.put ⟨scope, valueJSON⟩ }

def upsertAccountSecret (scope : Scope) (encryptedValue : String) (tables : Tables) :
    Except GoError Tables :=
  if scope.id ≤ 0 then .error { message := "scope_id is required" }
  else if present : trimSpace encryptedValue = "" then
    .error { message := "encrypted_value is required" }
  else
    .ok { tables with
      secrets := tables.secrets.put
        ⟨scope, ⟨trimSpace encryptedValue, trimSpace_idem encryptedValue, present⟩⟩ }

/-- `deleteAccountSecret` of a sandbox key; a row that is missing is no error to its callers. -/
def deleteAccountSecret (scope : Scope) (tables : Tables) : Tables :=
  if scope.id ≤ 0 then tables
  else { tables with secrets := tables.secrets.erase fun record => decide (record.scope = scope) }

end Tables

section Rows
open CacheDeletion (AccountTables SecretRow scopeType)

def sandboxAPIKey : String := "sandbox_api_key"

/-- The columns of a sandbox key. -/
def secretRow (record : AccountSecretRecord) : SecretRow :=
  ⟨scopeType record.scope, record.scope.id, sandboxAPIKey, record.secret.encryptedValue⟩

def sandboxKeys (tables : AccountTables) : List SecretRow :=
  tables.secrets.filter fun row => row.keyType == sandboxAPIKey

theorem secretKey_sandbox {scope : Scope} (known : ¬ scope.id ≤ 0) :
    CacheDeletion.secretKey (scopeType scope) scope.id sandboxAPIKey =
      some fun row => row.scopeType == scopeType scope && row.scopeID == scope.id &&
        row.keyType == sandboxAPIKey := by
  have kind : scopeType scope ≠ "" := by cases scope <;> simp [scopeType]
  have typed : sandboxAPIKey ≠ "" := by decide
  have normal : CacheDeletion.normalizeAccountSecretKeyType sandboxAPIKey = sandboxAPIKey := by
    decide +kernel
  simp only [CacheDeletion.secretKey, CacheDeletion.scopeType_normal, normal, kind, known, typed,
    or_self, if_false]

/-- What is deleted here is what `deleteAccountSecret` deletes from the table of all secrets. -/
theorem deleteAccountSecret_rows {scope : Scope} {tables : Tables} {rows : AccountTables}
    (same : sandboxKeys rows = tables.secrets.rows.map secretRow) :
    sandboxKeys (CacheDeletion.deleteAccountSecret none (scopeType scope) scope.id sandboxAPIKey
        rows).2 =
      (deleteAccountSecret scope tables).secrets.rows.map secretRow := by
  by_cases missing : scope.id ≤ 0
  · have asked : CacheDeletion.secretKey (scopeType scope) scope.id sandboxAPIKey = none := by
      simp only [CacheDeletion.secretKey, missing, true_or, or_true, if_true]
    rw [CacheDeletion.deleteSecret_unnamed asked, deleteAccountSecret, if_pos missing]
    exact same
  · have named : ∀ record : AccountSecretRecord,
        (!(scopeType record.scope == scopeType scope && record.scope.id == scope.id &&
          sandboxAPIKey == sandboxAPIKey)) = !decide (record.scope = scope) := by
      intro record
      rw [beq_self_eq_true, Bool.and_true]
      congr 1
      rw [Bool.eq_iff_iff, decide_eq_true_iff, CacheDeletion.scope_columns]
      simp
    rw [sandboxKeys, CacheDeletion.deleteSecret_secrets (secretKey_sandbox missing),
      List.filter_comm, ← sandboxKeys, same, List.filter_map, deleteAccountSecret,
      if_neg missing]
    exact congrArg _ (List.filter_congr fun record _ => named record)

end Rows

section Managers

/-- `accountPreferenceScopeFromRequest`'s row of the account. Its id is the primary key, so the
order of the listing plays no part. -/
def githubInstallationForAccount (db : ServiceDatabase) (accountID id : Int) :
    Except LookupError (Option GitHubInstallationRecord) :=
  db.ask (.installations accountID)
    (if accountID ≤ 0 then .error .notFound
    else
      .ok ((db.installations.filter fun record => record.accountID == accountID).find? fun record =>
        record.id == id))

def accountPreferenceScopeFromRequest (db : ServiceDatabase) (accountID : Int) (query : Text) :
    Except GoError Scope :=
  let installationIDText := trimSpace (stringOf (Redirects.queryGet (ascii "installation_id") query))
  if installationIDText = "" then .ok (.account accountID)
  else
    match parseInt64 installationIDText with
    | none => .error { message := "invalid installation_id" }
    | some installationID =>
        if installationID ≤ 0 then .error { message := "invalid installation_id" }
        else
          match githubInstallationForAccount db accountID installationID with
          | .error err => .error err.error
          | .ok none => .error { message := "github installation not found" }
          | .ok (some installation) => .ok (.githubInstallation installation.installationID)

/-- What a check of a membership reads of `OrganizationMembership`. -/
structure OrganizationMembership where
  organizationID : Int
  organizationLogin : String
  deriving DecidableEq

/-- The views of the queries of one request, in their order, and GitHub's answer. -/
structure SettingsReads where
  scope : ServiceDatabase
  owner : ServiceDatabase
  installations : ServiceDatabase
  identity : ServiceDatabase
  /-- The token of the viewer and `ListUserOrganizationMemberships`, if there is a client. -/
  memberships : Option (Except ApiError (List OrganizationMembership))
  inheritedSource : ServiceDatabase
  sourcePreference : ServiceDatabase
  sourceSecret : ServiceDatabase
  currentKey : ServiceDatabase

def SettingsReads.views (reads : SettingsReads) : List ServiceDatabase :=
  [reads.scope, reads.owner, reads.installations, reads.identity, reads.inheritedSource,
    reads.sourcePreference, reads.sourceSecret, reads.currentKey]

variable (reads : SettingsReads) (viewer : Int)

/-- The owner that `accountPreferenceScopeManageable` finds; one without a type is nobody. -/
def scopeOwner (installationID : Int) : Except LookupError GitHubInstallationAccount :=
  match gitHubInstallationAccountForInstallation reads.owner installationID with
  | .ok owner => .ok owner
  | .error (.failed err) => .error (.failed err)
  | .error .notFound =>
      reads.installations.ask (.installations viewer)
        (if viewer ≤ 0 then .error .notFound
        else
          match reads.installations.installations.find? fun record =>
              record.accountID == viewer && record.installationID == installationID with
          | none => .ok ⟨0, "", ""⟩
          | some record => .ok (recordToGitHubInstallationAccount record))

def isUserOwner (owner : GitHubInstallationAccount) : Bool :=
  equalFold (trimSpace owner.accountType) "user"

def isOrganizationOwner (owner : GitHubInstallationAccount) : Bool :=
  equalFold (trimSpace owner.accountType) "organization"

def userMatches (identity : OAuthIdentityRecord) (owner : GitHubInstallationAccount) : Bool :=
  if 0 < owner.githubAccountID then
    trimSpace identity.oauthSubject == toString owner.githubAccountID
  else equalFold (trimSpace identity.oauthLogin) (trimSpace owner.accountLogin)

def organizationMatches (memberships : List OrganizationMembership)
    (owner : GitHubInstallationAccount) : Bool :=
  if 0 < owner.githubAccountID then
    memberships.any fun membership => membership.organizationID == owner.githubAccountID
  else
    memberships.any fun membership =>
      toLower (trimSpace membership.organizationLogin) == toLower (trimSpace owner.accountLogin)

def storeError (err : LookupError) : ApiError := { message := err.error.message }

/-- The identity is asked for only when an owner is a user. -/
def userManageable (owners : List GitHubInstallationAccount) : Except ApiError (List Bool) :=
  if owners.any fun owner => toLower (trimSpace owner.accountType) == "user" then
    match getOAuthIdentityForAccount reads.identity viewer with
    | .error err => .error (storeError err)
    | .ok identity =>
        .ok (owners.map fun owner => isUserOwner owner && userMatches identity owner)
  else .ok (owners.map fun _ => false)

def githubInstallationAccountsManageable (owners : List GitHubInstallationAccount) :
    Except ApiError (List Bool) :=
  match userManageable reads viewer owners with
  | .error err => .error err
  | .ok manageable =>
      if owners.any fun owner => toLower (trimSpace owner.accountType) == "organization" then
        match reads.memberships with
        | none => .error { message := "github client is not configured" }
        | some (.error err) => .error err
        | some (.ok memberships) =>
            .ok ((owners.zip manageable).map fun (owner, manages) =>
              if isOrganizationOwner owner then organizationMatches memberships owner else manages)
      else .ok manageable

def accountPreferenceScopeManageable : Scope → Except ApiError Bool
  | .account id => .ok (id == viewer)
  | .githubInstallation installationID =>
      match scopeOwner reads viewer installationID with
      | .error err => .error (storeError err)
      | .ok owner =>
          match githubInstallationAccountsManageable reads viewer [owner] with
          | .error err => .error err
          | .ok manageable => .ok (manageable.headD false)

end Managers

section Saving

/-- What the server is built on, and its settings. -/
structure Site where
  aead : Aead
  sum256 : SealedBytes.Bytes → aead.Key
  corruptInput : String → GoError
  authEncryptionKey : String
  marshal : SandboxPreference → String
  unmarshal : String → Except GoError SandboxPreference
  parseHost : Text → Text → Option Text
  /-- The sandbox API URLs of `SandboxRegions`. -/
  sandboxRegions : List String

variable (site : Site) (reads : SettingsReads)

def normalizeHTTPURL (rawURL : String) : Except GoError String :=
  let value := trimSpace rawURL
  if value = "" then .error { message := "api_url is required" }
  else
    match Urls.parse site.parseHost (bytesOf value) with
    | none => .error { message := "api_url must be an absolute URL" }
    | some parsed =>
        if parsed.scheme = [] ∨ parsed.host = [] then
          .error { message := "api_url must be an absolute URL" }
        else if parsed.scheme ≠ ascii "http" ∧ parsed.scheme ≠ ascii "https" then
          .error { message := "api_url must use http or https" }
        else .ok (stringOf parsed.string)

def regionEndpoint (sandboxAPIURL : String) : String := trimRight '/' (trimSpace sandboxAPIURL)

/-- The endpoints of the regions are ASCII. -/
def supportedSandboxRegionEndpoint (rawURL : String) : Option String :=
  (site.sandboxRegions.map regionEndpoint).find? fun endpoint =>
    equalFold (trimRight '/' (trimSpace rawURL)) endpoint

structure UpsertSandboxConfigRequest where
  apiURL : String := ""
  apiKey : String := ""
  mode : String := ""
  replaceInheritedSource : Bool := false

inductive SecretChange where
  | keep
  | set (encryptedValue : String)
  | delete
  deriving DecidableEq

/-- What one request writes in one transaction. -/
structure Mutation where
  scope : Scope
  value : SandboxPreference
  secret : SecretChange
  deriving DecidableEq

def storedPreference (db : ServiceDatabase) (scope : Scope) :
    Except LookupError (Except GoError SandboxPreference) :=
  (accountPreference db scope).map site.unmarshal

def inheritedSandboxSourceAccountID (scope : Scope) (currentAccountID : Int) (replace : Bool) :
    Except GoError Int :=
  if replace then .ok currentAccountID
  else
    match storedPreference site reads.inheritedSource scope with
    | .error .notFound => .ok currentAccountID
    | .error (.failed err) => .error err
    | .ok (.error corrupt) => .error corrupt
    | .ok (.ok value) =>
        if normalizeSandboxPreferenceMode value.mode scope = .inherit ∧ 0 < value.sourceAccountID then
          .ok value.sourceAccountID
        else .ok currentAccountID

def keyStored (db : ServiceDatabase) (scope : Scope) : Except GoError Bool :=
  match accountSecret db scope with
  | .error .notFound => .ok false
  | .error (.failed err) => .error err
  | .ok _ => .ok true

def sandboxSourceAccountConfigured (accountID : Int) : Except GoError Bool :=
  match storedPreference site reads.sourcePreference (.account accountID) with
  | .error .notFound => .ok false
  | .error (.failed err) => .error err
  | .ok (.error corrupt) => .error corrupt
  | .ok (.ok value) =>
      if trimSpace value.apiURL = "" then .ok false
      else keyStored reads.sourceSecret (.account accountID)

def internal (err : GoError) : HttpError := ⟨500, "", err.message⟩

def badRequest (message : String) : HttpError := ⟨400, "", message⟩

def inheritMutation (viewer : Int) (scope : Scope) (input : UpsertSandboxConfigRequest) :
    Except HttpError Mutation :=
  match inheritedSandboxSourceAccountID site reads scope viewer input.replaceInheritedSource with
  | .error err => .error (internal err)
  | .ok sourceAccountID =>
      let mutation : Mutation := ⟨scope, ⟨"inherit", "", sourceAccountID⟩, .delete⟩
      if sourceAccountID = viewer then
        match sandboxSourceAccountConfigured site reads viewer with
        | .error err => .error (internal err)
        | .ok false => .error (badRequest "configure your account Sandbox service first")
        | .ok true => .ok mutation
      else .ok mutation

/-- The key that is typed replaces the one that is stored; a blank one leaves it. -/
def secretChange (nonce : Nonce site.aead) (apiKey : String) (stored : Bool) :
    Except HttpError SecretChange :=
  if apiKey = "" then
    if stored then .ok .keep else .error (badRequest "api_key is required")
  else
    match encryptSecret site.aead site.sum256 nonce apiKey site.authEncryptionKey with
    | .error err => .error (internal err)
    | .ok encryptedAPIKey => .ok (.set encryptedAPIKey)

def customMutation (nonce : Nonce site.aead) (scope : Scope) (input : UpsertSandboxConfigRequest) :
    Except HttpError Mutation :=
  match normalizeHTTPURL site input.apiURL with
  | .error err => .error (badRequest err.message)
  | .ok apiURL =>
      match supportedSandboxRegionEndpoint site apiURL with
      | none => .error (badRequest "unsupported sandbox region")
      | some endpoint =>
          match keyStored reads.currentKey scope with
          | .error err => .error (internal err)
          | .ok stored =>
              match secretChange site nonce (trimSpace input.apiKey) stored with
              | .error err => .error err
              | .ok secret => .ok ⟨scope, ⟨"", endpoint, 0⟩, secret⟩

/-- The scope of a request that the viewer may change. -/
def manageableScope (viewer : Int) (query : Text) : Except HttpError Scope :=
  match accountPreferenceScopeFromRequest reads.scope viewer query with
  | .error err => .error (badRequest err.message)
  | .ok scope =>
      match accountPreferenceScopeManageable reads viewer scope with
      | .error err => .error (writeUserRepositoryAuthorizationError err)
      | .ok false =>
          .error ⟨403, "", "Sandbox service for this GitHub account is managed by its owner"⟩
      | .ok true => .ok scope

/-- `handleUserSaveSandboxConfig` of a user who is signed in, up to its transaction. A body
that is not JSON has no input. -/
def handleUserSaveSandboxConfig (nonce : Nonce site.aead) (viewer : Int) (query : Text)
    (input : Option UpsertSandboxConfigRequest) : Except HttpError Mutation :=
  match manageableScope reads viewer query with
  | .error err => .error err
  | .ok scope =>
      match input with
      | none => .error (badRequest "invalid sandbox config payload")
      | some input =>
          match normalizeSandboxPreferenceMode input.mode scope with
          | .inherit => inheritMutation site reads viewer scope input
          | .custom => customMutation site reads nonce scope input

/-- The transaction of a save; it is taken back as a whole when a part of it fails. -/
def Mutation.apply (mutation : Mutation) (tables : Tables) : Except GoError Tables :=
  match upsertAccountPreference mutation.scope (site.marshal mutation.value) tables with
  | .error err => .error err
  | .ok tables =>
      match mutation.secret with
      | .keep => .ok tables
      | .set encryptedValue => upsertAccountSecret mutation.scope encryptedValue tables
      | .delete => .ok (deleteAccountSecret mutation.scope tables)

end Saving

section AdminDefault
variable (site : Site)

structure UpsertAdminSandboxServiceDefaultRequest where
  enabled : Bool := false
  audienceMode : String := ""
  apiURL : String := ""
  apiKey : String := ""

inductive DefaultWrite where
  | upsert (config : SandboxServiceDefault)
  | preservingAPIKey (config : SandboxServiceDefault)

def defaultURL (input : UpsertAdminSandboxServiceDefaultRequest) : Except HttpError String :=
  let apiURL := trimSpace input.apiURL
  if apiURL = "" then
    if input.enabled then .error (badRequest "api_url is required") else .ok ""
  else
    match normalizeHTTPURL site apiURL with
    | .error err => .error (badRequest err.message)
    | .ok normalized => .ok normalized

def defaultAudienceMode (input : UpsertAdminSandboxServiceDefaultRequest)
    (current : Option SandboxServiceDefault) : Except HttpError String :=
  let asked := toLower (trimSpace input.audienceMode)
  let audienceMode :=
    if asked = "" then (current.map SandboxServiceDefault.audienceMode).getD "all" else asked
  if audienceMode ≠ "all" ∧ audienceMode ≠ "selected" then
    .error (badRequest "audience_mode must be all or selected")
  else .ok audienceMode

def typedDefaultKey (nonce : Nonce site.aead) (input : UpsertAdminSandboxServiceDefaultRequest) :
    Except HttpError String :=
  let apiKey := trimSpace input.apiKey
  if apiKey = "" then .ok ""
  else
    match encryptSecret site.aead site.sum256 nonce apiKey site.authEncryptionKey with
    | .error err => .error (internal err)
    | .ok encryptedAPIKey => .ok encryptedAPIKey

/-- The row, if there is one, with its audience mode. -/
def currentDefault (view : ServiceDatabase) : Except GoError (Option SandboxServiceDefault) :=
  match getSandboxServiceDefault view with
  | .error .notFound => .ok none
  | .error (.failed err) => .error err
  | .ok config => .ok (some config)

/-- `handleAdminSaveSandboxServiceDefault` of an administrator, up to its transaction. -/
def handleAdminSaveSandboxServiceDefault (nonce : Nonce site.aead) (view : ServiceDatabase)
    (input : Option UpsertAdminSandboxServiceDefaultRequest) : Except HttpError DefaultWrite :=
  match input with
  | none => .error (badRequest "invalid sandbox service default payload")
  | some input =>
      match defaultURL site input with
      | .error err => .error err
      | .ok apiURL =>
          match currentDefault view with
          | .error err => .error (internal err)
          | .ok current =>
              match defaultAudienceMode input current with
              | .error err => .error err
              | .ok audienceMode =>
                  match typedDefaultKey site nonce input with
                  | .error err => .error err
                  | .ok encryptedAPIKey =>
                      let kept := (current.map SandboxServiceDefault.apiKeyEncrypted).getD ""
                      let config : SandboxServiceDefault :=
                        ⟨input.enabled, audienceMode, apiURL, encryptedAPIKey⟩
                      if input.enabled ∧ trimSpace input.apiKey = "" then
                        if trimSpace kept = "" then .error (badRequest "api_key is required")
                        else .ok (.preservingAPIKey config)
                      else .ok (.upsert config)

def errDefaultAPIKeyRequired : GoError :=
  { message := "sandbox service default api key is required" }

/-- The new row, with the key that is stored where there is no new one. -/
def keepingKey (config : SandboxServiceDefault) (current : Option SandboxServiceDefault) :
    SandboxServiceDefault :=
  { config with
    audienceMode := normalizeSandboxServiceDefaultAudienceMode config.audienceMode
    apiURL := trimSpace config.apiURL
    apiKeyEncrypted :=
      if trimSpace config.apiKeyEncrypted = "" then
        (current.map SandboxServiceDefault.apiKeyEncrypted).getD ""
      else trimSpace config.apiKeyEncrypted }

def DefaultWrite.apply (tables : Tables) : DefaultWrite → Except GoError Tables
  | .upsert config =>
      .ok { tables with serviceDefault := some (keepingKey config tables.serviceDefault) }
  | .preservingAPIKey config =>
      match tables.serviceDefault with
      | none => .error errDefaultAPIKeyRequired
      | some current =>
          if current.apiKeyEncrypted = "" then .error errDefaultAPIKeyRequired
          else
            .ok { tables with
              serviceDefault := some { config with
                audienceMode := normalizeSandboxServiceDefaultAudienceMode config.audienceMode
                apiURL := trimSpace config.apiURL
                apiKeyEncrypted := current.apiKeyEncrypted } }

def deleteSandboxServiceDefaultAPIKey (tables : Tables) : Tables :=
  { tables with
    serviceDefault := tables.serviceDefault.map fun config => { config with apiKeyEncrypted := "" } }

end AdminDefault

end Runnerd.Settings
