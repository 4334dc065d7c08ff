import Runnerd.Precedence
import Runnerd.ServiceTables

/-!
The precedence of sandbox services. `resolution` states it over the tables, as
levels of which the first configured one decides, and `Credited` says whose
credentials a service holds. `resolution_precedence` compares both with
`sandboxServiceForRunnerRequest`.
-/

namespace Runnerd

open GoText Precedence

section Levels
variable (env : ServiceEnvironment)

/-- The credentials kept in the request. -/
def snapshotLevel (req : RunnerRequest) : Resolved :=
  if trimSpace req.sandboxAPIURL ≠ "" ∧ trimSpace req.sandboxAPIKeyEncrypted ≠ "" then
    sandboxServiceForConfig env.lookups
      { apiURL := trimSpace req.sandboxAPIURL
        encryptedAPIKey := trimSpace req.sandboxAPIKeyEncrypted
        source :=
          if trimSpace req.sandboxConfigSource = "" then "request_snapshot"
          else trimSpace req.sandboxConfigSource }
  else .error (notConfigured "sandbox service is not kept in the request")

/-- What a scope configures, given what it makes of its preference. -/
def preferenceLevel (scope : Scope) (configured : SandboxPreference → Resolved) : Resolved :=
  match env.lookups.preference scope with
  | .error .notFound =>
      .error (notConfigured ("sandbox service is not configured for " ++ scope.text))
  | .error (.failed err) => .error ⟨err, false⟩
  | .ok (.error corrupt) => .error ⟨corrupt, false⟩
  | .ok (.ok value) => configured value

/-- An account never inherits. -/
def accountLevel (accountID : Int) : Resolved :=
  preferenceLevel env (.account accountID) (customService env.lookups (.account accountID))

/-- The account an installation inherits from, while it is linked. -/
def inheritedLevel (installationID sourceAccountID : Int) : Resolved :=
  if sourceAccountID ≤ 0 then
    .error (notConfigured ("sandbox service inherited account is not configured for " ++
      (Scope.githubInstallation installationID).text))
  else
    match githubInstallationLinkedToAccount env sourceAccountID installationID with
    | .error err => .error ⟨err, false⟩
    | .ok false =>
        .error (notConfigured
          ("sandbox service inherited account no longer has github installation " ++
            toString installationID))
    | .ok true =>
        (accountLevel env sourceAccountID).map fun service =>
          { service with source := "inherited_account" }

def installationLevel (installationID : Int) : Resolved :=
  preferenceLevel env (.githubInstallation installationID) fun value =>
    if toLower (trimSpace value.mode) = "inherit" then
      inheritedLevel env installationID value.sourceAccountID
    else customService env.lookups (.githubInstallation installationID) value

def personalLevel (installationID : Int) : Resolved :=
  match accountScopeForPersonalGitHubInstallation env.db installationID with
  | .error err => .error ⟨err.error, false⟩
  | .ok none => .error (notConfigured "github installation has no personal account")
  | .ok (some accountID) => accountLevel env accountID

/-- The installation of a request, its own or that of the repository's owner. -/
def requestInstallation (req : RunnerRequest) : Except LookupError (Option Int) :=
  if 0 < req.githubInstallationID then .ok (some req.githubInstallationID)
  else
    match githubInstallationScopeForRepository env.lookups req.repositoryFullName with
    | .error err => .error err
    | .ok none => .ok none
    | .ok (some installationID) =>
        .ok (if 0 < installationID then some installationID else none)

/-- The owner an audience is asked about. It is not known without an installation. -/
def defaultOwner : Option Int → Except LookupError InstallationOwner
  | none => .error .notFound
  | some installationID => githubInstallationOwner env installationID

def adminDefaultLevel (installation : Option Int) : Resolved :=
  sandboxServiceForAdminDefault env.lookups (defaultOwner env installation)

/-- Beyond the snapshot. Without an installation only the admin default is left. -/
def unkeptResolution (req : RunnerRequest) : Resolved :=
  match requestInstallation env req with
  | .error err => .error ⟨err.error, false⟩
  | .ok none =>
      firstConfigured ServiceError.notConfigured [adminDefaultLevel env none]
        (.error ⟨{ message := "runner request " ++ req.id ++
          " has no github installation scope" }, false⟩)
  | .ok (some installationID) =>
      firstConfigured ServiceError.notConfigured
        [installationLevel env installationID, personalLevel env installationID]
        (adminDefaultLevel env (some installationID))

def resolution (req : RunnerRequest) : Resolved :=
  firstConfigured ServiceError.notConfigured [snapshotLevel env req] (unkeptResolution env req)

/-- The resolution of the first scope goes on to that of the second. -/
def Inherits (first second : Scope) : Prop :=
  ∃ value, env.lookups.preference first = .ok (.ok value) ∧
    normalizeSandboxPreferenceMode value.mode first = .inherit ∧ 0 < value.sourceAccountID ∧
    githubInstallationLinkedToAccount env value.sourceAccountID first.id = .ok true ∧
    second = .account value.sourceAccountID

/-- The owner of the repository is known, and is in the audience. -/
structure Audience (installation : Option Int) : Prop where
  readable : env.db.fault .audience = none
  owned : ∃ owner, defaultOwner env installation = .ok owner ∧ 0 < owner.githubAccountID ∧
    normalizeGitHubAccountType owner.accountType ≠ "" ∧
    ⟨owner.githubAccountID, normalizeGitHubAccountType owner.accountType⟩ ∈ env.db.audiences

/-- The default is there, enabled, and for this repository's owner. -/
structure Admits (config : SandboxServiceDefault) (installation : Option Int) : Prop where
  readable : env.db.fault .serviceDefault = none
  stored : env.db.serviceDefault = some config
  enabled : config.enabled = true
  audience : equalFold (trimSpace config.audienceMode) "selected" = true → Audience env installation

/-- Whose credentials a service holds. -/
inductive Credited (req : RunnerRequest) (service : SandboxService) : Prop
  | snapshot (url : service.apiURL = trimSpace req.sandboxAPIURL)
      (key : service.encryptedAPIKey = trimSpace req.sandboxAPIKeyEncrypted)
  | installation {installationID : Int} {value : SandboxPreference}
      (known : requestInstallation env req = .ok (some installationID))
      (stored : env.lookups.preference (.githubInstallation installationID) = .ok (.ok value))
      (own : customService env.lookups (.githubInstallation installationID) value = .ok service)
  | inherited {installationID accountID : Int} {found : SandboxService}
      (known : requestInstallation env req = .ok (some installationID))
      (inherits : Inherits env (.githubInstallation installationID) (.account accountID))
      (linked : Linked env accountID installationID) (own : accountLevel env accountID = .ok found)
      (same : service = { found with source := "inherited_account" })
  | personal {installationID accountID : Int}
      (known : requestInstallation env req = .ok (some installationID))
      (owner : PersonalOwner env accountID installationID)
      (linked : Linked env accountID installationID) (own : accountLevel env accountID = .ok service)
  | adminDefault {installation : Option Int} {config : SandboxServiceDefault}
      (known : requestInstallation env req = .ok installation)
      (admits : Admits env config installation)
      (own : defaultService env.lookups config = .ok service)

/-- One precedence, one step of inheritance, and no other tenant's credentials
but those the request came with. -/
structure OnePrecedence (req : RunnerRequest) : Prop where
  first : sandboxServiceForRunnerRequest env.lookups req = resolution env req
  once : ∀ first second third, Inherits env first second → ¬ Inherits env second third
  goesOn : ∀ first second, Inherits env first second →
    sandboxServiceForScope env.lookups first =
      (sandboxServiceForScope env.lookups second).map fun service =>
        { service with source := "inherited_account" }
  default : ∀ installation service, adminDefaultLevel env installation = .ok service ↔
    ∃ config, Admits env config installation ∧ defaultService env.lookups config = .ok service
  credited : ∀ service, sandboxServiceForRunnerRequest env.lookups req = .ok service →
    Credited env req service

end Levels

section Scopes
variable {env : ServiceEnvironment}

theorem accountLevel_eq (accountID : Int) :
    sandboxServiceForScope env.lookups (.account accountID) = accountLevel env accountID := by
  rw [sandboxServiceForScope, accountLevel, preferenceLevel]
  cases env.lookups.preference (.account accountID) with
  | error err => cases err <;> rfl
  | ok parsed =>
      cases parsed with
      | error corrupt => rfl
      | ok value => rfl

theorem inherit_iff (mode : String) (installationID : Int) :
    normalizeSandboxPreferenceMode mode (.githubInstallation installationID) = .inherit ↔
      toLower (trimSpace mode) = "inherit" := by
  rw [normalizeSandboxPreferenceMode]
  by_cases inherit : toLower (trimSpace mode) = "inherit"
  · rw [if_pos inherit]
    simp only [inherit]
  · rw [if_neg inherit]
    simp only [inherit, reduceCtorEq]

theorem installationLevel_eq (installationID : Int) :
    sandboxServiceForScope env.lookups (.githubInstallation installationID) =
      installationLevel env installationID := by
  rw [sandboxServiceForScope, installationLevel, preferenceLevel]
  cases env.lookups.preference (.githubInstallation installationID) with
  | error err => cases err <;> rfl
  | ok parsed =>
      cases parsed with
      | error corrupt => rfl
      | ok value =>
          by_cases mode : toLower (trimSpace value.mode) = "inherit"
          · have inherited := (inherit_iff value.mode installationID).mpr mode
            simp only [inherited, mode, if_true, dif_pos, inheritedLevel]
            by_cases missing : value.sourceAccountID ≤ 0
            · simp only [missing, if_true]
            · simp only [missing, if_false]
              have same : env.lookups.linkedToAccount value.sourceAccountID
                  (Scope.githubInstallation installationID).id =
                  githubInstallationLinkedToAccount env value.sourceAccountID installationID := rfl
              rw [same]
              cases githubInstallationLinkedToAccount env value.sourceAccountID installationID with
              | error err => rfl
              | ok linked =>
                  cases linked with
                  | false => rfl
                  | true => simp only [accountLevel_eq]
          · have custom := mt (inherit_iff value.mode installationID).mp mode
            simp only [custom, mode, if_false, dif_neg, not_false_eq_true]

theorem inherits_account {first second : Scope} (inherits : Inherits env first second) :
    ∃ installationID accountID, first = .githubInstallation installationID ∧
      second = .account accountID := by
  obtain ⟨value, _, mode, _, _, rfl⟩ := inherits
  cases first with
  | account id => cases mode
  | githubInstallation id => exact ⟨id, _, rfl, rfl⟩

theorem inherits_once (first second third : Scope) (inherits : Inherits env first second) :
    ¬ Inherits env second third := by
  intro again
  obtain ⟨_, accountID, _, rfl⟩ := inherits_account inherits
  obtain ⟨installationID, _, other, _⟩ := inherits_account again
  cases other

theorem inherits_goesOn (first second : Scope) (inherits : Inherits env first second) :
    sandboxServiceForScope env.lookups first =
      (sandboxServiceForScope env.lookups second).map fun service =>
        { service with source := "inherited_account" } := by
  obtain ⟨installationID, accountID, rfl, same⟩ := inherits_account inherits
  obtain ⟨value, stored, mode, positive, linked, rfl⟩ := inherits
  have missing : ¬ value.sourceAccountID ≤ 0 := by omega
  have inherit := (inherit_iff value.mode installationID).mp mode
  have linked' : githubInstallationLinkedToAccount env value.sourceAccountID installationID =
      .ok true := linked
  rw [installationLevel_eq, installationLevel, preferenceLevel, stored, accountLevel_eq]
  simp only [inherit, if_true, inheritedLevel, missing, if_false, linked']

end Scopes

section Resolution
variable {env : ServiceEnvironment}

theorem serviceForInstallation_eq (installationID : Int) :
    serviceForInstallation env.lookups installationID =
      firstConfigured ServiceError.notConfigured
        [installationLevel env installationID, personalLevel env installationID]
        (adminDefaultLevel env (some installationID)) := by
  rw [serviceForInstallation, installationLevel_eq]
  cases installationLevel env installationID with
  | ok service => rfl
  | error err =>
      rw [firstConfigured_error]
      cases skip : err.notConfigured with
      | false => simp only [skip, if_true, Bool.false_eq_true, if_false]
      | true =>
          have answer : env.lookups.scopeForPersonalInstallation installationID =
            accountScopeForPersonalGitHubInstallation env.db installationID := rfl
          simp only [skip, Bool.true_eq_false, if_false, if_true, personalLevel, answer]
          cases accountScopeForPersonalGitHubInstallation env.db installationID with
          | error lookupErr => rfl
          | ok found =>
              cases found with
              | none => rfl
              | some accountID =>
                  simp only [accountLevel_eq]
                  cases accountLevel env accountID with
                  | ok service => rfl
                  | error accountErr =>
                      simp only [firstConfigured_error]
                      cases skip : accountErr.notConfigured with
                      | false => simp only [if_true, Bool.false_eq_true, if_false]
                      | true =>
                          simp only [Bool.true_eq_false, if_false, if_true, firstConfigured_nil]
                          rfl

theorem unkeptResolution_eq (req : RunnerRequest)
    (unkept : ¬ (trimSpace req.sandboxAPIURL ≠ "" ∧ trimSpace req.sandboxAPIKeyEncrypted ≠ "")) :
    sandboxServiceForRunnerRequest env.lookups req = unkeptResolution env req := by
  rw [sandboxServiceForRunnerRequest, if_neg unkept, unkeptResolution, requestInstallation]
  by_cases own : 0 < req.githubInstallationID
  · have known : ¬ req.githubInstallationID ≤ 0 := by omega
    simp only [own, if_true, Option.getD_some, known, if_false, serviceForInstallation_eq]
  · simp only [own, if_false]
    cases githubInstallationScopeForRepository env.lookups req.repositoryFullName with
    | error err => rfl
    | ok found =>
        cases found with
        | none =>
            have missing : req.githubInstallationID ≤ 0 := by omega
            simp only [Option.getD_none, missing, if_true, adminDefaultLevel, defaultOwner]
            cases sandboxServiceForAdminDefault env.lookups (.error .notFound) with
            | ok service => rfl
            | error err => rfl
        | some installationID =>
            by_cases positive : 0 < installationID
            · have known : ¬ installationID ≤ 0 := by omega
              simp only [Option.getD_some, known, if_false, positive, if_true,
                serviceForInstallation_eq]
            · have missing : installationID ≤ 0 := by omega
              simp only [Option.getD_some, missing, if_true, positive, if_false, adminDefaultLevel,
                defaultOwner]
              cases sandboxServiceForAdminDefault env.lookups (.error .notFound) with
              | ok service => rfl
              | error err => rfl

/-- An unusable configuration is an error, never a missing one. -/
theorem unusable_stands (service : SandboxService) :
    ¬ Skipped ServiceError.notConfigured (sandboxServiceForConfig env.lookups service) := by
  rintro ⟨err, failed, skip⟩
  rw [sandboxServiceForConfig] at failed
  split at failed
  · cases failed
    cases skip
  · split at failed
    · cases failed
      cases skip
    · cases failed

theorem resolution_eq (req : RunnerRequest) :
    sandboxServiceForRunnerRequest env.lookups req = resolution env req := by
  rw [resolution, snapshotLevel]
  by_cases kept : trimSpace req.sandboxAPIURL ≠ "" ∧ trimSpace req.sandboxAPIKeyEncrypted ≠ ""
  · rw [sandboxServiceForRunnerRequest, if_pos kept, if_pos kept,
      firstConfigured_stands _ _ (unusable_stands _)]
  · rw [if_neg kept, firstConfigured_skipped _ _ ⟨_, rfl, rfl⟩, firstConfigured_nil,
      unkeptResolution_eq req kept]

end Resolution

section Credits
variable {env : ServiceEnvironment} {req : RunnerRequest}

theorem snapshotLevel_credited {service : SandboxService}
    (kept : snapshotLevel env req = .ok service) : Credited env req service := by
  unfold snapshotLevel at kept
  split at kept
  · cases sandboxServiceForConfig_same kept
    exact .snapshot rfl rfl
  · cases kept

theorem preferenceLevel_ok {scope : Scope} {configured : SandboxPreference → Resolved}
    {service : SandboxService} (found : preferenceLevel env scope configured = .ok service) :
    ∃ value, env.lookups.preference scope = .ok (.ok value) ∧ configured value = .ok service := by
  unfold preferenceLevel at found
  split at found
  · cases found
  · cases found
  · cases found
  · rename_i value stored
    exact ⟨value, stored, found⟩

theorem inheritedLevel_ok {installationID sourceAccountID : Int} {service : SandboxService}
    (found : inheritedLevel env installationID sourceAccountID = .ok service) :
    0 < sourceAccountID ∧
      githubInstallationLinkedToAccount env sourceAccountID installationID = .ok true ∧
      ∃ own, accountLevel env sourceAccountID = .ok own ∧
        service = { own with source := "inherited_account" } := by
  unfold inheritedLevel at found
  by_cases missing : sourceAccountID ≤ 0
  · rw [if_pos missing] at found
    cases found
  · rw [if_neg missing] at found
    split at found
    · cases found
    · cases found
    · rename_i linked
      cases own : accountLevel env sourceAccountID with
      | error err =>
          rw [own] at found
          cases found
      | ok service =>
          rw [own] at found
          cases found
          exact ⟨by omega, linked, service, rfl, rfl⟩

theorem installationLevel_credited {installationID : Int} {service : SandboxService}
    (known : requestInstallation env req = .ok (some installationID))
    (found : installationLevel env installationID = .ok service) : Credited env req service := by
  obtain ⟨value, stored, configured⟩ := preferenceLevel_ok found
  by_cases mode : toLower (trimSpace value.mode) = "inherit"
  · rw [if_pos mode] at configured
    obtain ⟨positive, linked, own, resolved, same⟩ := inheritedLevel_ok configured
    have inherits : Inherits env (.githubInstallation installationID)
        (.account value.sourceAccountID) :=
      ⟨value, stored, (inherit_iff value.mode installationID).mpr mode, positive, linked, rfl⟩
    exact .inherited known inherits (linked_of_lookup linked) resolved same
  · rw [if_neg mode] at configured
    exact .installation known stored configured

theorem personalLevel_credited {installationID : Int} {service : SandboxService}
    (known : requestInstallation env req = .ok (some installationID))
    (found : personalLevel env installationID = .ok service) : Credited env req service := by
  unfold personalLevel at found
  split at found
  · cases found
  · cases found
  · rename_i accountID looked
    have owner := personalOwner_of_lookup looked
    exact .personal known owner owner.linked found

theorem ask_ok_iff {db : ServiceDatabase} {α : Type} {query : ServiceQuery}
    {rows : Except LookupError α} {found : α} :
    db.ask query rows = .ok found ↔ db.fault query = none ∧ rows = .ok found := by
  unfold ServiceDatabase.ask
  cases db.fault query with
  | none => simp
  | some err => simp

theorem audienceContains_iff (owner : InstallationOwner) :
    env.lookups.audienceContains owner = .ok true ↔
      env.db.fault .audience = none ∧ 0 < owner.githubAccountID ∧
        normalizeGitHubAccountType owner.accountType ≠ "" ∧
        ⟨owner.githubAccountID, normalizeGitHubAccountType owner.accountType⟩ ∈
          env.db.audiences := by
  have same : env.lookups.audienceContains owner =
    (sandboxServiceDefaultAudienceContains env.db owner).mapError LookupError.error := rfl
  have answered : env.lookups.audienceContains owner = .ok true ↔
      sandboxServiceDefaultAudienceContains env.db owner = .ok true := by
    rw [same]
    cases sandboxServiceDefaultAudienceContains env.db owner with
    | error err => simp [Except.mapError]
    | ok contained => simp [Except.mapError]
  rw [answered, sandboxServiceDefaultAudienceContains, ask_ok_iff, Except.ok.injEq]
  by_cases unknown : owner.githubAccountID ≤ 0 ∨
      normalizeGitHubAccountType owner.accountType = ""
  · rw [if_pos unknown]
    constructor
    · rintro ⟨_, absent⟩
      cases absent
    · rintro ⟨_, positive, named, _⟩
      rcases unknown with unknown | unknown
      · omega
      · exact absurd unknown named
  · rw [if_neg unknown, List.contains_iff_mem]
    rw [not_or, Int.not_le] at unknown
    simp [unknown]

theorem audience_iff {installation : Option Int} {owner : InstallationOwner}
    (owned : defaultOwner env installation = .ok owner) :
    Audience env installation ↔ env.lookups.audienceContains owner = .ok true := by
  rw [audienceContains_iff]
  constructor
  · rintro ⟨readable, other, found, facts⟩
    cases owned.symm.trans found
    exact ⟨readable, facts⟩
  · rintro ⟨readable, facts⟩
    exact ⟨readable, owner, owned, facts⟩

theorem adminDefaultLevel_iff (installation : Option Int) (service : SandboxService) :
    adminDefaultLevel env installation = .ok service ↔
      ∃ config, Admits env config installation ∧
        defaultService env.lookups config = .ok service := by
  have asked : env.lookups.serviceDefault = getSandboxServiceDefault env.db := rfl
  rw [adminDefaultLevel, sandboxServiceForAdminDefault, asked, getSandboxServiceDefault,
    ServiceDatabase.ask]
  simp only [normalizeSandboxServiceDefaultAudienceMode]
  cases readable : env.db.fault .serviceDefault with
  | some err =>
      constructor
      · intro failed
        cases failed
      · rintro ⟨config, admits, _⟩
        cases readable.symm.trans admits.readable
  | none =>
  cases stored : env.db.serviceDefault with
  | none =>
      constructor
      · intro failed
        cases failed
      · rintro ⟨config, admits, _⟩
        cases stored.symm.trans admits.stored
  | some config =>
  -- there is one row, so what admits is this default
  have only : (∃ config, Admits env config installation ∧
      defaultService env.lookups config = .ok service) ↔
      config.enabled = true ∧
        (equalFold (trimSpace config.audienceMode) "selected" = true →
          Audience env installation) ∧
        defaultService env.lookups config = .ok service := by
    constructor
    · rintro ⟨other, admits, own⟩
      cases stored.symm.trans admits.stored
      exact ⟨admits.enabled, admits.audience, own⟩
    · rintro ⟨enabled, audience, own⟩
      exact ⟨config, ⟨readable, stored, enabled, audience⟩, own⟩
  rw [only]
  by_cases enabled : config.enabled = true
  · by_cases selected : equalFold (trimSpace config.audienceMode) "selected" = true
    · simp only [enabled, selected, if_true, Bool.true_eq_false, if_false, true_and, forall_const]
      cases owned : defaultOwner env installation with
      | error err =>
          constructor
          · intro failed
            cases err with
            | notFound => cases failed
            | failed err => cases failed
          · rintro ⟨⟨_, owner, found, _⟩, _⟩
            cases owned.symm.trans found
      | ok owner =>
          rw [audience_iff owned]
          simp only
          cases contained : env.lookups.audienceContains owner with
          | error err => simp
          | ok allowed =>
              cases allowed with
              | false => simp
              | true =>
                  simp only [true_and]
                  rfl
    · have other : ("all" = "selected") = False := by decide
      simp only [enabled, selected, Bool.true_eq_false, if_false, Bool.false_eq_true, other,
        true_and, false_implies]
      rfl
  · rw [Bool.not_eq_true] at enabled
    simp [enabled]

theorem resolution_credited {service : SandboxService}
    (resolved : resolution env req = .ok service) : Credited env req service := by
  rcases mem_of_firstConfigured resolved with kept | unkept
  · exact snapshotLevel_credited (List.mem_singleton.mp kept).symm
  · unfold unkeptResolution at unkept
    split at unkept
    · cases unkept
    · rename_i known
      rcases mem_of_firstConfigured unkept with default | missing
      · obtain ⟨config, admits, own⟩ :=
          (adminDefaultLevel_iff none _).mp (List.mem_singleton.mp default).symm
        exact .adminDefault known admits own
      · cases missing
    · rename_i installationID known
      rcases mem_of_firstConfigured unkept with level | default
      · rcases List.mem_cons.mp level with own | personal
        · exact installationLevel_credited known own.symm
        · exact personalLevel_credited known (List.mem_singleton.mp personal).symm
      · obtain ⟨config, admits, own⟩ := (adminDefaultLevel_iff _ _).mp default
        exact .adminDefault known admits own

/-- The precedence of sandbox services, and whose credentials are used. -/
theorem resolution_precedence (env : ServiceEnvironment) (req : RunnerRequest) :
    OnePrecedence env req where
  first := resolution_eq req
  once := inherits_once
  goesOn := inherits_goesOn
  default := adminDefaultLevel_iff
  credited _ resolved := resolution_credited ((resolution_eq req).symm.trans resolved)

def sandboxURL : String := "https://sandbox.example.com"

def urlPreference : String := "\x7b\"api_url\":\"https://sandbox.example.com\"\x7d"

def sealedKey : String := "v1:c2VhbGVkbm9uY2VzYW5kYm94LWFwaS1rZXktb2YtYWNjb3VudC03LXRhZ3RhZw"

theorem sealedKey_trimmed : trimSpace sealedKey = sealedKey := by decide +kernel

theorem sealedKey_filled : sealedKey ≠ "" := by decide

/-- Tables in which every preference is a URL and every key can be opened. -/
def urlEnv (db : ServiceDatabase) : ServiceEnvironment where
  db := db
  unmarshal _ := .ok { apiURL := sandboxURL }
  getInstallation := none
  openSealed _ := .ok "sandbox-api-key"
  newClient _ _ := none

/-- Account 7 has credentials, and no installation any more. -/
def departedEnv : ServiceEnvironment :=
  urlEnv
    { preferences := [⟨.account 7, urlPreference⟩]
      secrets := [⟨.account 7, ⟨sealedKey, sealedKey_trimmed, sealedKey_filled⟩⟩] }

/-- A request of installation 5 that was admitted while account 7 had it. -/
def keptRequest : RunnerRequest where
  id := "gh-11"
  githubInstallationID := 5
  repositoryFullName := "octo/repo"
  sandboxAPIURL := sandboxURL
  sandboxAPIKeyEncrypted := sealedKey
  sandboxConfigSource := "inherited_account"

def keptService (source : String) : SandboxService where
  apiURL := sandboxURL
  encryptedAPIKey := sealedKey
  source := source

/-- The kept credentials are those of an account that has left. -/
theorem snapshot_outlives_link :
    sandboxServiceForRunnerRequest departedEnv.lookups keptRequest =
        .ok (keptService "inherited_account") ∧
      accountLevel departedEnv 7 = .ok (keptService "account") ∧
      ¬ Linked departedEnv 7 5 := by
  refine ⟨by decide +kernel, by decide +kernel, ?_⟩
  rintro ⟨record, stored, _⟩
  cases stored

end Credits

end Runnerd
