import Runnerd.ServiceResolution

/-!
The tables a resolution reads: `internal/state/account_preferences.go`,
`account_secrets.go`, `github_installations.go` and `sandbox_service_defaults.go`,
and what `githubInstallationOwner` asks GitHub for. Any query may fail. The
parser of a stored preference is a parameter, like the cipher and the SDK.
-/

namespace Runnerd

open GoText

/-- A row of `account_preferences` in the sandbox namespace. -/
structure AccountPreferenceRecord where
  scope : Scope
  valueJSON : String

/-- A row of `account_secrets` that holds a sandbox API key. -/
structure AccountSecretRecord where
  scope : Scope
  secret : AccountSecret

structure GitHubInstallationRecord where
  id : Int
  accountID : Int
  installationID : Int
  githubAccountID : Int := 0
  accountType : String := ""
  accountLogin : String := ""
  updatedAt : Time := 0
  deriving DecidableEq, Repr

structure GitHubInstallationOwnerRecord where
  installationID : Int
  githubAccountID : Int
  accountType : String
  deriving DecidableEq, Repr

structure OAuthIdentityRecord where
  accountID : Int
  oauthProvider : String
  oauthSubject : String
  oauthLogin : String
  deriving DecidableEq, Repr

structure SandboxServiceDefaultAudience where
  githubAccountID : Int
  accountType : String
  deriving DecidableEq, Repr

/-- GitHub's account of an installation. -/
structure GitHubInstallationAccount where
  githubAccountID : Int
  accountType : String
  accountLogin : String
  deriving DecidableEq, Repr

inductive ServiceQuery where
  | preference (scope : Scope)
  | secret (scope : Scope)
  | installations (accountID : Int)
  | personalInstallation (installationID : Int)
  | accountLogin (login : String)
  | serviceDefault
  | installationAccount (installationID : Int)
  | installationOwner (installationID : Int)
  | upsertOwner (installationID : Int)
  | identity (accountID : Int)
  | audience
  deriving DecidableEq

/-- `LIMIT 1` without an order. -/
structure LimitOne where
  pick : List Int → Option Int
  mem : ∀ rows found, pick rows = some found → found ∈ rows
  none : ∀ rows, pick rows = none → rows = []

def LimitOne.first : LimitOne where
  pick := List.head?
  mem _ _ := List.mem_of_head?
  none _ := List.head?_eq_none_iff.mp

structure ServiceDatabase where
  preferences : List AccountPreferenceRecord := []
  secrets : List AccountSecretRecord := []
  installations : List GitHubInstallationRecord := []
  owners : List GitHubInstallationOwnerRecord := []
  identities : List OAuthIdentityRecord := []
  serviceDefault : Option SandboxServiceDefault := none
  audiences : List SandboxServiceDefaultAudience := []
  /-- The error of a query, if it fails. -/
  fault : ServiceQuery → Option GoError := fun _ => none
  /-- SQL `LOWER`, which differs between the backends. -/
  lower : String → String := toLower
  limitOne : LimitOne := .first

/-- Everything a resolution depends on. -/
structure ServiceEnvironment where
  db : ServiceDatabase
  unmarshal : String → Except GoError SandboxPreference
  /-- `GetInstallation`, if there is a GitHub client. -/
  getInstallation : Option (Int → Except GoError GitHubInstallationAccount)
  openSealed : String → Except GoError String
  newClient : (apiKey endpoint : String) → Option GoError

section Queries
variable (db : ServiceDatabase)

/-- The rows of a query that does not fail. -/
def ServiceDatabase.ask {α : Type} (query : ServiceQuery) (rows : Except LookupError α) :
    Except LookupError α :=
  match db.fault query with
  | some err => .error (.failed err)
  | none => rows

/-- `First`: the row that an order puts first. -/
def firstRow (before : GitHubInstallationRecord → GitHubInstallationRecord → Bool)
    (rows : List GitHubInstallationRecord) : Option GitHubInstallationRecord :=
  (rows.mergeSort before).head?

def normalizeGitHubAccountType (value : String) : String :=
  let value := toLower (trimSpace value)
  if value = "user" then "user"
  else if value = "organization" ∨ value = "org" then "organization"
  else ""

def accountPreference (scope : Scope) : Except LookupError String :=
  db.ask (.preference scope)
    (if scope.id ≤ 0 then .error .notFound
    else
      match db.preferences.find? (fun record => record.scope == scope) with
      | none => .error .notFound
      | some record => .ok record.valueJSON)

def accountSecret (scope : Scope) : Except LookupError AccountSecret :=
  db.ask (.secret scope)
    (if scope.id ≤ 0 then .error .notFound
    else
      match db.secrets.find? (fun record => record.scope == scope) with
      | none => .error .notFound
      | some record => .ok record.secret)

/-- `ListGitHubInstallations`, of which the resolution uses the ids. -/
def listGitHubInstallations (accountID : Int) : Except LookupError (List Int) :=
  db.ask (.installations accountID)
    (if accountID ≤ 0 then .error .notFound
    else
      .ok ((db.installations.filter fun record => record.accountID == accountID).map
        GitHubInstallationRecord.installationID))

/-- The join with `oauth_identities`. -/
def personalAccounts (installationID : Int) : List Int :=
  (db.installations.filter fun record =>
    record.installationID == installationID && record.accountLogin != "" &&
      db.identities.any fun identity =>
        identity.accountID == record.accountID && identity.oauthProvider == "github" &&
          db.lower identity.oauthLogin == db.lower record.accountLogin).map
    GitHubInstallationRecord.accountID

def accountScopeForPersonalGitHubInstallation (installationID : Int) :
    Except LookupError (Option Int) :=
  db.ask (.personalInstallation installationID)
    (if installationID ≤ 0 then .error .notFound
    else
      match db.limitOne.pick (personalAccounts db installationID) with
      | none => .ok none
      | some accountID => .ok (if accountID ≤ 0 then none else some accountID))

def gitHubInstallationScopeForAccountLogin (accountLogin : String) :
    Except LookupError (Option Int) :=
  let accountLogin := trimSpace accountLogin
  db.ask (.accountLogin accountLogin)
    (if accountLogin = "" then .error .notFound
    else
      let rows := db.installations.filter fun record =>
        db.lower record.accountLogin == db.lower accountLogin
      .ok ((firstRow (fun first second =>
        second.updatedAt < first.updatedAt || (first.updatedAt == second.updatedAt &&
          first.installationID ≤ second.installationID)) rows).map
        GitHubInstallationRecord.installationID))

def normalizeSandboxServiceDefaultAudienceMode (mode : String) : String :=
  if equalFold (trimSpace mode) "selected" then "selected" else "all"

def getSandboxServiceDefault : Except LookupError SandboxServiceDefault :=
  db.ask .serviceDefault
    (match db.serviceDefault with
    | none => .error .notFound
    | some config =>
        .ok { config with
          audienceMode := normalizeSandboxServiceDefaultAudienceMode config.audienceMode })

def recordToGitHubInstallationAccount (record : GitHubInstallationRecord) :
    GitHubInstallationAccount :=
  ⟨record.githubAccountID, normalizeGitHubAccountType record.accountType, record.accountLogin⟩

def gitHubInstallationAccountForInstallation (installationID : Int) :
    Except LookupError GitHubInstallationAccount :=
  db.ask (.installationAccount installationID)
    (let rows := db.installations.filter fun record =>
      record.installationID == installationID && 0 < record.githubAccountID &&
        record.accountType != ""
    match firstRow (fun first second =>
        second.updatedAt < first.updatedAt ||
          (first.updatedAt == second.updatedAt && second.id ≤ first.id)) rows with
    | none => .error .notFound
    | some record => .ok (recordToGitHubInstallationAccount record))

def getGitHubInstallationOwner (installationID : Int) : Except LookupError InstallationOwner :=
  db.ask (.installationOwner installationID)
    (if installationID ≤ 0 then .error .notFound
    else
      match db.owners.find? (fun record => record.installationID == installationID) with
      | none => .error .notFound
      | some record =>
          .ok ⟨record.githubAccountID, normalizeGitHubAccountType record.accountType⟩)

/-- `UpsertGitHubInstallationOwner`, and the row it reads back. -/
def upsertGitHubInstallationOwner (installationID : Int) (owner : GitHubInstallationAccount) :
    Except LookupError InstallationOwner :=
  let accountType := normalizeGitHubAccountType owner.accountType
  db.ask (.upsertOwner installationID)
    (if installationID ≤ 0 then .error (.failed { message := "installation_id is required" })
    else if owner.githubAccountID ≤ 0 ∨ accountType = "" ∨ trimSpace owner.accountLogin = "" then
      .error (.failed { message := "stable github installation owner identity is required" })
    else .ok ⟨owner.githubAccountID, accountType⟩)

/-- `GetOAuthIdentityForAccount` for GitHub. -/
def getOAuthIdentityForAccount (accountID : Int) : Except LookupError OAuthIdentityRecord :=
  db.ask (.identity accountID)
    (if accountID ≤ 0 then .error .notFound
    else
      match db.identities.find? (fun identity =>
        identity.accountID == accountID && identity.oauthProvider == "github") with
      | none => .error .notFound
      | some identity => .ok identity)

def sandboxServiceDefaultAudienceContains (owner : InstallationOwner) : Except LookupError Bool :=
  let accountType := normalizeGitHubAccountType owner.accountType
  db.ask .audience
    (.ok (if owner.githubAccountID ≤ 0 ∨ accountType = "" then false
    else db.audiences.contains ⟨owner.githubAccountID, accountType⟩))

end Queries

section Environment
variable (env : ServiceEnvironment)

/-- `githubInstallationLinkedToAccount`. -/
def githubInstallationLinkedToAccount (accountID installationID : Int) : Except GoError Bool :=
  match listGitHubInstallations env.db accountID with
  | .error err => .error err.error
  | .ok installations => .ok (installations.contains installationID)

def githubInstallationOwner (installationID : Int) : Except LookupError InstallationOwner :=
  if installationID ≤ 0 then .error .notFound
  else
    match gitHubInstallationAccountForInstallation env.db installationID with
    | .ok owner => .ok ⟨owner.githubAccountID, owner.accountType⟩
    | .error (.failed err) => .error (.failed err)
    | .error .notFound =>
        match getGitHubInstallationOwner env.db installationID with
        | .ok owner => .ok owner
        | .error (.failed err) => .error (.failed err)
        | .error .notFound =>
            match env.getInstallation with
            | none => .error .notFound
            | some getInstallation =>
                match getInstallation installationID with
                | .error err => .error (.failed err)
                | .ok installation =>
                    upsertGitHubInstallationOwner env.db installationID installation

/-- The tables' answers to a resolution. -/
def ServiceEnvironment.lookups : Lookups where
  preference scope := (accountPreference env.db scope).map env.unmarshal
  secret := accountSecret env.db
  linkedToAccount := githubInstallationLinkedToAccount env
  scopeForAccountLogin := gitHubInstallationScopeForAccountLogin env.db
  scopeForPersonalInstallation := accountScopeForPersonalGitHubInstallation env.db
  serviceDefault := getSandboxServiceDefault env.db
  installationOwner := githubInstallationOwner env
  audienceContains owner :=
    (sandboxServiceDefaultAudienceContains env.db owner).mapError LookupError.error
  openSealed := env.openSealed
  newClient := env.newClient

end Environment

section Links
variable {env : ServiceEnvironment}

/-- The account has the installation. -/
def Linked (env : ServiceEnvironment) (accountID installationID : Int) : Prop :=
  ∃ record ∈ env.db.installations,
    record.accountID = accountID ∧ record.installationID = installationID

/-- The account's GitHub login is that of the installation's owner. -/
def PersonalOwner (env : ServiceEnvironment) (accountID installationID : Int) : Prop :=
  ∃ record ∈ env.db.installations, ∃ identity ∈ env.db.identities,
    record.accountID = accountID ∧ record.installationID = installationID ∧
      record.accountLogin ≠ "" ∧ identity.accountID = accountID ∧
      identity.oauthProvider = "github" ∧
      env.db.lower identity.oauthLogin = env.db.lower record.accountLogin

theorem PersonalOwner.linked {accountID installationID : Int}
    (owner : PersonalOwner env accountID installationID) : Linked env accountID installationID := by
  obtain ⟨record, stored, _, _, account, installation, _⟩ := owner
  exact ⟨record, stored, account, installation⟩

theorem ask_ok {db : ServiceDatabase} {α : Type} {query : ServiceQuery}
    {rows : Except LookupError α} {found : α} (answered : db.ask query rows = .ok found) :
    rows = .ok found := by
  unfold ServiceDatabase.ask at answered
  split at answered
  · cases answered
  · exact answered

theorem linked_of_lookup {accountID installationID : Int}
    (linked : githubInstallationLinkedToAccount env accountID installationID = .ok true) :
    Linked env accountID installationID := by
  unfold githubInstallationLinkedToAccount at linked
  cases listed : listGitHubInstallations env.db accountID with
  | error err => simp [listed] at linked
  | ok installations =>
      have rows := ask_ok listed
      by_cases missing : accountID ≤ 0
      · simp [missing] at rows
      · rw [if_neg missing] at rows
        cases rows
        simpa [listed, Linked, and_assoc] using linked

theorem personalOwner_of_lookup {accountID installationID : Int}
    (found : accountScopeForPersonalGitHubInstallation env.db installationID =
      .ok (some accountID)) : PersonalOwner env accountID installationID := by
  have rows := ask_ok found
  by_cases missing : installationID ≤ 0
  · simp [missing] at rows
  · rw [if_neg missing] at rows
    cases picked : env.db.limitOne.pick (personalAccounts env.db installationID) with
    | none => simp [picked] at rows
    | some account =>
        have member := env.db.limitOne.mem _ _ picked
        by_cases negative : account ≤ 0
        · simp [picked, negative] at rows
        · have same : account = accountID := by simpa [picked, negative] using rows
          subst same
          simp only [personalAccounts, List.mem_map, List.mem_filter, Bool.and_eq_true,
            List.any_eq_true, beq_iff_eq, bne_iff_ne] at member
          obtain ⟨record, ⟨stored, ⟨installation, named⟩, identity, known, ⟨own, provider⟩, login⟩,
            account⟩ := member
          exact ⟨record, stored, identity, known, account, installation, named,
            own.trans account, provider, login⟩

end Links

end Runnerd
