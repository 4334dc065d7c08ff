import Runnerd.Effects

/-!
`internal/server/server_sandbox_service.go`: which sandbox service a runner
request resolves to. Without an injected service it is the request's own
snapshot, then the installation, the account of its personal owner and the
admin default, each only if the one before is not configured. What the tables
and GitHub answer is the same for one resolution, and may differ for the next.
-/

namespace Runnerd

open GoText

/-- `accountPreferenceScope`. -/
inductive Scope where
  | account (id : Int)
  | githubInstallation (id : Int)
  deriving DecidableEq, Repr

def Scope.id : Scope → Int
  | .account id | .githubInstallation id => id

/-- A scope as the `%s:%d` of the messages. -/
def Scope.text : Scope → String
  | .account id => "account:" ++ toString id
  | .githubInstallation id => "github_installation:" ++ toString id

inductive LookupError where
  /-- `state.ErrNotFound`. -/
  | notFound
  | failed (err : GoError)

def LookupError.error : LookupError → GoError
  | .notFound => errNotFound
  | .failed err => err

/-- An error of the resolution, and whether `errSandboxServiceNotConfigured` is
in its chain. -/
structure ServiceError where
  err : GoError
  notConfigured : Bool := false
  deriving DecidableEq, Repr

def notConfigured (lead : String) : ServiceError :=
  ⟨{ message := lead ++ ": sandbox service not configured" }, true⟩

abbrev Resolved := Except ServiceError SandboxService

/-- `accountSandboxServicePreferenceValue`. -/
structure SandboxPreference where
  mode : String := ""
  apiURL : String := ""
  sourceAccountID : Int := 0
  deriving DecidableEq, Repr

/-- A secret as `upsertAccountSecret` stores it. -/
structure AccountSecret where
  encryptedValue : String
  trimmed : trimSpace encryptedValue = encryptedValue
  present : encryptedValue ≠ ""

structure SandboxServiceDefault where
  enabled : Bool
  audienceMode : String
  apiURL : String
  apiKeyEncrypted : String
  deriving DecidableEq, Repr

structure InstallationOwner where
  githubAccountID : Int
  accountType : String
  deriving DecidableEq, Repr

/-- What the tables, GitHub, the cipher and the SDK answer to one resolution. A
preference that is found may be corrupt. -/
structure Lookups where
  preference : Scope → Except LookupError (Except GoError SandboxPreference)
  secret : Scope → Except LookupError AccountSecret
  linkedToAccount : (accountID installationID : Int) → Except GoError Bool
  scopeForAccountLogin : String → Except LookupError (Option Int)
  scopeForPersonalInstallation : Int → Except LookupError (Option Int)
  serviceDefault : Except LookupError SandboxServiceDefault
  installationOwner : Int → Except LookupError InstallationOwner
  audienceContains : InstallationOwner → Except GoError Bool
  openSealed : String → Except GoError String
  newClient : (apiKey endpoint : String) → Option GoError

section Resolution
variable (lookups : Lookups)

def encryptedSecretPrefix : String := "v1:"

def decryptSecret (ciphertext : String) : Except GoError String :=
  let ciphertext := trimSpace ciphertext
  if hasPrefix ciphertext encryptedSecretPrefix = false then
    .error { message := "unsupported encrypted secret format" }
  else lookups.openSealed (trimPrefix ciphertext encryptedSecretPrefix)

/-- `sandboxServiceForConfig`: the service for these credentials, if they can be
used at all. -/
def sandboxServiceForConfig (service : SandboxService) : Resolved :=
  match decryptSecret lookups service.encryptedAPIKey with
  | .error err => .error ⟨err, false⟩
  | .ok apiKey =>
      match lookups.newClient apiKey (trimSpace service.apiURL) with
      | some err => .error ⟨err, false⟩
      | none => .ok service

inductive PreferenceMode where
  | custom
  | inherit
  deriving DecidableEq, Repr

def normalizeSandboxPreferenceMode (mode : String) : Scope → PreferenceMode
  | .githubInstallation _ => if toLower (trimSpace mode) = "inherit" then .inherit else .custom
  | .account _ => .custom

def sandboxConfigSourceForScope : Scope → String
  | .account _ => "account"
  | .githubInstallation _ => "installation"

/-- The scope's own URL and key. -/
def customService (scope : Scope) (value : SandboxPreference) : Resolved :=
  let apiURL := trimSpace value.apiURL
  if apiURL = "" then
    .error (notConfigured ("sandbox service api_url is not configured for " ++ scope.text))
  else
    match lookups.secret scope with
    | .error .notFound =>
        .error (notConfigured ("sandbox service api key is not configured for " ++ scope.text))
    | .error (.failed err) => .error ⟨err, false⟩
    | .ok secret =>
        sandboxServiceForConfig lookups
          { apiURL := apiURL
            encryptedAPIKey := secret.encryptedValue
            source := sandboxConfigSourceForScope scope }

def Scope.inherits : Scope → Nat
  | .account _ => 0
  | .githubInstallation _ => 1

theorem inherits_installation {mode : String} {scope : Scope}
    (inherited : normalizeSandboxPreferenceMode mode scope = .inherit) : scope.inherits = 1 := by
  cases scope with
  | account id => cases inherited
  | githubInstallation id => rfl

def sandboxServiceForScope (scope : Scope) : Resolved :=
  match lookups.preference scope with
  | .error .notFound =>
      .error (notConfigured ("sandbox service is not configured for " ++ scope.text))
  | .error (.failed err) => .error ⟨err, false⟩
  | .ok (.error corrupt) => .error ⟨corrupt, false⟩
  | .ok (.ok value) =>
      if _inherited : normalizeSandboxPreferenceMode value.mode scope = .inherit then
        if value.sourceAccountID ≤ 0 then
          .error (notConfigured
            ("sandbox service inherited account is not configured for " ++ scope.text))
        else
          match lookups.linkedToAccount value.sourceAccountID scope.id with
          | .error err => .error ⟨err, false⟩
          | .ok false =>
              .error (notConfigured
                ("sandbox service inherited account no longer has github installation " ++
                  toString scope.id))
          | .ok true =>
              (sandboxServiceForScope (.account value.sourceAccountID)).map fun service =>
                { service with source := "inherited_account" }
      else customService lookups scope value
termination_by scope.inherits
decreasing_by
  rw [inherits_installation _inherited]
  exact Nat.one_pos

/-- The default's own URL and key. -/
def defaultService (config : SandboxServiceDefault) : Resolved :=
  let apiURL := trimSpace config.apiURL
  let encryptedAPIKey := trimSpace config.apiKeyEncrypted
  if apiURL = "" then
    .error (notConfigured "admin sandbox service default api_url is not configured")
  else if encryptedAPIKey = "" then
    .error (notConfigured "admin sandbox service default api key is not configured")
  else
    sandboxServiceForConfig lookups
      { apiURL := apiURL, encryptedAPIKey := encryptedAPIKey, source := "admin_default" }

def sandboxServiceForAdminDefault (resolveOwner : Except LookupError InstallationOwner) :
    Resolved :=
  match lookups.serviceDefault with
  | .error .notFound =>
      .error (notConfigured "admin sandbox service default is not configured")
  | .error (.failed err) => .error ⟨err, false⟩
  | .ok config =>
      if config.enabled = false then
        .error (notConfigured "admin sandbox service default is disabled")
      else if config.audienceMode = "selected" then
        match resolveOwner with
        | .error .notFound =>
            .error (notConfigured
              "github repository owner is not known for admin sandbox service default")
        | .error (.failed err) => .error ⟨err, false⟩
        | .ok owner =>
            match lookups.audienceContains owner with
            | .error err => .error ⟨err, false⟩
            | .ok false =>
                .error (notConfigured
                  "github repository owner is not selected for admin sandbox service default")
            | .ok true => defaultService lookups config
      else defaultService lookups config

/-- `githubInstallationScopeForRepository`. -/
def githubInstallationScopeForRepository (repositoryFullName : String) :
    Except LookupError (Option Int) :=
  let name := (trimSpace repositoryFullName).toList
  if '/' ∈ name then
    lookups.scopeForAccountLogin (String.ofList (name.takeWhile (· ≠ '/')))
  else .ok none

/-- From the request's installation on. -/
def serviceForInstallation (installationID : Int) : Resolved :=
  match sandboxServiceForScope lookups (.githubInstallation installationID) with
  | .ok service => .ok service
  | .error err =>
      if err.notConfigured = false then .error err
      else
        match lookups.scopeForPersonalInstallation installationID with
        | .error lookupErr => .error ⟨lookupErr.error, false⟩
        | .ok none => sandboxServiceForAdminDefault lookups (lookups.installationOwner installationID)
        | .ok (some accountID) =>
            match sandboxServiceForScope lookups (.account accountID) with
            | .ok service => .ok service
            | .error accountErr =>
                if accountErr.notConfigured = false then .error accountErr
                else
                  sandboxServiceForAdminDefault lookups (lookups.installationOwner installationID)

/-- `sandboxServiceAndConfigForRunnerRequestContext` without an injected service. -/
def sandboxServiceForRunnerRequest (req : RunnerRequest) : Resolved :=
  if trimSpace req.sandboxAPIURL ≠ "" ∧ trimSpace req.sandboxAPIKeyEncrypted ≠ "" then
    let source := trimSpace req.sandboxConfigSource
    sandboxServiceForConfig lookups
      { apiURL := trimSpace req.sandboxAPIURL
        encryptedAPIKey := trimSpace req.sandboxAPIKeyEncrypted
        source := if source = "" then "request_snapshot" else source }
  else
    let known : Except LookupError (Option Int) :=
      if 0 < req.githubInstallationID then .ok (some req.githubInstallationID)
      else githubInstallationScopeForRepository lookups req.repositoryFullName
    match known with
    | .error err => .error ⟨err.error, false⟩
    | .ok found =>
        let installationID := found.getD req.githubInstallationID
        if installationID ≤ 0 then
          match sandboxServiceForAdminDefault lookups (.error .notFound) with
          | .ok service => .ok service
          | .error defaultErr =>
              if defaultErr.notConfigured then
                .error ⟨{ message := "runner request " ++ req.id ++
                  " has no github installation scope" }, false⟩
              else .error defaultErr
        else serviceForInstallation lookups installationID

end Resolution

section Configured
variable {lookups : Lookups}

/-- A URL and a key, both trimmed. -/
def SandboxService.configured (service : SandboxService) : Bool :=
  trimSpace service.apiURL == service.apiURL && service.apiURL != "" &&
    trimSpace service.encryptedAPIKey == service.encryptedAPIKey && service.encryptedAPIKey != ""

theorem configured_iff {service : SandboxService} :
    service.configured = true ↔
      (trimSpace service.apiURL = service.apiURL ∧ service.apiURL ≠ "") ∧
        trimSpace service.encryptedAPIKey = service.encryptedAPIKey ∧
        service.encryptedAPIKey ≠ "" := by
  simp only [SandboxService.configured, Bool.and_eq_true, beq_iff_eq, bne_iff_ne, and_assoc]

theorem sandboxServiceForConfig_same {service found : SandboxService}
    (resolved : sandboxServiceForConfig lookups service = .ok found) : found = service := by
  unfold sandboxServiceForConfig at resolved
  split at resolved
  · cases resolved
  · split at resolved
    · cases resolved
    · cases resolved
      rfl

theorem customService_configured {scope : Scope} {value : SandboxPreference}
    {service : SandboxService} (resolved : customService lookups scope value = .ok service) :
    service.configured = true := by
  unfold customService at resolved
  dsimp only at resolved
  split at resolved
  · cases resolved
  · rename_i url
    split at resolved
    · cases resolved
    · cases resolved
    · rename_i secret _
      cases sandboxServiceForConfig_same resolved
      exact configured_iff.mpr ⟨⟨trimSpace_idem _, url⟩, secret.trimmed, secret.present⟩

theorem sandboxServiceForScope_configured {scope : Scope} {service : SandboxService}
    (resolved : sandboxServiceForScope lookups scope = .ok service) :
    service.configured = true := by
  fun_induction sandboxServiceForScope lookups scope generalizing service with
  | case7 scope value stored inherited source linked ih =>
      cases own : sandboxServiceForScope lookups (.account value.sourceAccountID) with
      | error err =>
          rw [own] at resolved
          cases resolved
      | ok found =>
          rw [own] at resolved
          cases resolved
          have kept : found.configured = true := ih own
          exact kept
  | case8 scope value stored custom => exact customService_configured resolved
  | _ => cases resolved

theorem defaultService_configured {config : SandboxServiceDefault} {service : SandboxService}
    (resolved : defaultService lookups config = .ok service) : service.configured = true := by
  unfold defaultService at resolved
  dsimp only at resolved
  split at resolved
  · cases resolved
  · rename_i url
    split at resolved
    · cases resolved
    · rename_i key
      cases sandboxServiceForConfig_same resolved
      exact configured_iff.mpr ⟨⟨trimSpace_idem _, url⟩, trimSpace_idem _, key⟩

theorem sandboxServiceForAdminDefault_configured
    {resolveOwner : Except LookupError InstallationOwner} {service : SandboxService}
    (resolved : sandboxServiceForAdminDefault lookups resolveOwner = .ok service) :
    service.configured = true := by
  unfold sandboxServiceForAdminDefault at resolved
  split at resolved
  · cases resolved
  · cases resolved
  · split at resolved
    · cases resolved
    · split at resolved
      · split at resolved
        · cases resolved
        · cases resolved
        · split at resolved
          · cases resolved
          · cases resolved
          · exact defaultService_configured resolved
      · exact defaultService_configured resolved

theorem serviceForInstallation_configured {installationID : Int} {service : SandboxService}
    (resolved : serviceForInstallation lookups installationID = .ok service) :
    service.configured = true := by
  unfold serviceForInstallation at resolved
  split at resolved
  · rename_i found own
    cases resolved
    exact sandboxServiceForScope_configured own
  · split at resolved
    · cases resolved
    · split at resolved
      · cases resolved
      · exact sandboxServiceForAdminDefault_configured resolved
      · split at resolved
        · rename_i found own
          cases resolved
          exact sandboxServiceForScope_configured own
        · split at resolved
          · cases resolved
          · exact sandboxServiceForAdminDefault_configured resolved

/-- A request resolves to a URL and a key, or to an error. -/
theorem sandboxServiceForRunnerRequest_configured {req : RunnerRequest} {service : SandboxService}
    (resolved : sandboxServiceForRunnerRequest lookups req = .ok service) :
    service.configured = true := by
  unfold sandboxServiceForRunnerRequest at resolved
  dsimp only at resolved
  split at resolved
  · rename_i stored
    cases sandboxServiceForConfig_same resolved
    exact configured_iff.mpr ⟨⟨trimSpace_idem _, stored.1⟩, trimSpace_idem _, stored.2⟩
  · split at resolved
    · cases resolved
    · split at resolved
      · split at resolved
        · rename_i found default
          cases resolved
          exact sandboxServiceForAdminDefault_configured default
        · split at resolved
          · cases resolved
          · cases resolved
      · exact serviceForInstallation_configured resolved

/-- The resolution as its callers see it. -/
def requestService (lookups : Lookups) (req : RunnerRequest) : Except GoError SandboxService :=
  (sandboxServiceForRunnerRequest lookups req).mapError ServiceError.err

/-- The server's answer to `resolveSandboxService` is such a resolution: its
own snapshot rule changes nothing in it. -/
theorem resolveService_resolution {server : Server} (uninjected : server.injectedSandbox = none)
    (lookups : Lookups) (req : RunnerRequest) :
    resolveService server req (requestService lookups req) = requestService lookups req := by
  unfold resolveService
  rw [uninjected]
  dsimp only
  split
  · rename_i stored
    cases found : sandboxServiceForRunnerRequest lookups req with
    | error err => simp [requestService, found, Except.mapError, Except.map]
    | ok service =>
        have own := found
        rw [sandboxServiceForRunnerRequest, if_pos stored] at own
        cases sandboxServiceForConfig_same own
        simp [requestService, found, Except.mapError, Except.map]
  · rfl

end Configured

end Runnerd
