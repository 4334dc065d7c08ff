import Mathlib
import Runnerd.Numerals
import Runnerd.ServicePrecedence

/-!
The sandbox service that is shown for a scope, from `fillSandboxResolvedSource`
in `server_user_handlers.go`. It resolves without the account of the
installation's personal owner. `readiness_agrees_iff` says when that shows.
-/

namespace Runnerd

open GoText Precedence

section Shown
variable (env : ServiceEnvironment)

def sandboxDefaultAudienceOwnerForScope : Scope → Except LookupError InstallationOwner
  | .githubInstallation installationID => githubInstallationOwner env installationID
  | .account accountID =>
      match getOAuthIdentityForAccount env.db accountID with
      | .error err => .error err
      | .ok identity =>
          match parseInt64 (trimSpace identity.oauthSubject) with
          | none => .error .notFound
          | some githubAccountID =>
              if githubAccountID ≤ 0 then .error .notFound else .ok ⟨githubAccountID, "user"⟩

def sandboxServiceForScopeWithDefault (scope : Scope) : Resolved :=
  match sandboxServiceForScope env.lookups scope with
  | .ok service => .ok service
  | .error err =>
      if err.notConfigured = false then .error err
      else
        sandboxServiceForAdminDefault env.lookups (sandboxDefaultAudienceOwnerForScope env scope)

/-- `ResolvedSource` of the sandbox preference. -/
inductive ResolvedSource where
  | none
  | custom
  | inherited
  | adminDefault
  deriving DecidableEq, Repr

def resolvedSource (source : String) : ResolvedSource :=
  if source = "inherited_account" then .inherited
  else if source = "admin_default" then .adminDefault
  else .custom

def fillSandboxResolvedSource (scope : Scope) : Except ServiceError ResolvedSource :=
  match sandboxServiceForScopeWithDefault env scope with
  | .error err => if err.notConfigured = true then .ok .none else .error err
  | .ok service => .ok (resolvedSource service.source)

/-- `sandboxServiceAndConfigForRunnerRequest`, with the service that a server may
have been given. -/
def serviceForRunnerRequest (injectedSandbox : Option Bool) (req : RunnerRequest) : Resolved :=
  match injectedSandbox with
  | some listsTemplates => .ok { listsTemplates := listsTemplates }
  | none => sandboxServiceForRunnerRequest env.lookups req

end Shown

section Agreement

/-- The class of a source. Neither an injected service nor a snapshot has one. -/
def sourceClass (source : String) : Option ResolvedSource :=
  if source = "installation" ∨ source = "account" then some .custom
  else if source = "inherited_account" then some .inherited
  else if source = "admin_default" then some .adminDefault
  else none

/-- What is shown is what a request resolves to. -/
structure ReadinessAgrees (shown : Except ServiceError ResolvedSource) (resolved : Resolved) :
    Prop where
  unconfigured : shown = .ok .none ↔ ∃ err, resolved = .error err ∧ err.notConfigured = true
  served : ∀ service, resolved = .ok service →
    ∃ source, sourceClass service.source = some source ∧ shown = .ok source
  serves : ∀ source, source ≠ .none → shown = .ok source →
    ∃ service, resolved = .ok service ∧ sourceClass service.source = some source

/-- An error that does not say that nothing is configured. -/
def Fails (resolved : Resolved) : Prop :=
  ∃ err, resolved = .error err ∧ err.notConfigured = false

/-- The personal owner's account makes no difference. -/
def PersonalIdle (env : ServiceEnvironment) (installationID : Int) : Prop :=
  Skipped ServiceError.notConfigured (installationLevel env installationID) →
    Skipped ServiceError.notConfigured (personalLevel env installationID) ∨
      Fails (personalLevel env installationID) ∧ Fails (adminDefaultLevel env (some installationID))

/-- What is shown of a resolution. -/
def shownOf : Resolved → Except ServiceError ResolvedSource
  | .error err => if err.notConfigured = true then .ok .none else .error err
  | .ok service => .ok (resolvedSource service.source)

variable {env : ServiceEnvironment}

theorem resolved_cases (resolved : Resolved) :
    (∃ service, resolved = .ok service) ∨ Skipped ServiceError.notConfigured resolved ∨
      Fails resolved := by
  cases resolved with
  | ok service => exact .inl ⟨service, rfl⟩
  | error err =>
      cases skip : err.notConfigured with
      | true => exact .inr (.inl ⟨err, rfl, skip⟩)
      | false => exact .inr (.inr ⟨err, rfl, skip⟩)

theorem fails_stands {resolved : Resolved} (fails : Fails resolved) :
    ¬ Skipped ServiceError.notConfigured resolved := by
  obtain ⟨err, rfl, unskipped⟩ := fails
  rintro ⟨other, same, skip⟩
  cases same
  rw [unskipped] at skip
  cases skip

theorem ok_stands {service : SandboxService} :
    ¬ Skipped ServiceError.notConfigured (.ok service : Resolved) := by
  rintro ⟨err, same, _⟩
  cases same

theorem shown_eq (installationID : Int) :
    fillSandboxResolvedSource env (.githubInstallation installationID) =
      shownOf (firstConfigured ServiceError.notConfigured [installationLevel env installationID]
        (adminDefaultLevel env (some installationID))) := by
  have same : sandboxServiceForScopeWithDefault env (.githubInstallation installationID) =
      firstConfigured ServiceError.notConfigured [installationLevel env installationID]
        (adminDefaultLevel env (some installationID)) := by
    rw [sandboxServiceForScopeWithDefault, installationLevel_eq]
    cases installationLevel env installationID with
    | ok service => rfl
    | error err =>
        rw [firstConfigured_error]
        cases skip : err.notConfigured with
        | false => simp only [skip, if_true, Bool.false_eq_true, if_false]
        | true =>
            simp only [skip, Bool.true_eq_false, if_false, if_true]
            rfl
  rw [fillSandboxResolvedSource, same]
  rfl

/-- A resolution agrees with what is shown of it, if its sources have a class. -/
theorem shownOf_agrees {resolved : Resolved} (classed : ∀ service, resolved = .ok service →
    sourceClass service.source = some (resolvedSource service.source)) :
    ReadinessAgrees (shownOf resolved) resolved := by
  rcases resolved_cases resolved with ⟨service, rfl⟩ | ⟨err, rfl, skip⟩ | ⟨err, rfl, unskipped⟩
  · have own := classed service rfl
    constructor
    · constructor
      · intro shown
        have none : resolvedSource service.source = .none := Except.ok.inj shown
        rw [resolvedSource] at none
        split at none
        · cases none
        · split at none <;> cases none
      · rintro ⟨err, failed, _⟩
        cases failed
    · intro found same
      cases same
      exact ⟨_, own, rfl⟩
    · rintro source _ shown
      exact ⟨service, rfl, own.trans (congrArg some (Except.ok.inj shown))⟩
  · have shown : shownOf (.error err) = .ok .none := if_pos skip
    constructor
    · exact ⟨fun _ => ⟨err, rfl, skip⟩, fun _ => shown⟩
    · rintro service failed
      cases failed
    · intro source some other
      rw [shown] at other
      exact absurd (Except.ok.inj other).symm some
  · have shown : shownOf (.error err) = .error err := if_neg (by simp [unskipped])
    constructor
    · rw [shown]
      constructor
      · intro none
        cases none
      · rintro ⟨other, same, skip⟩
        cases same
        rw [unskipped] at skip
        cases skip
    · rintro service failed
      cases failed
    · intro source _ other
      rw [shown] at other
      cases other

theorem customService_source {scope : Scope} {value : SandboxPreference} {service : SandboxService}
    (found : customService env.lookups scope value = .ok service) :
    service.source = sandboxConfigSourceForScope scope := by
  unfold customService at found
  dsimp only at found
  split at found
  · cases found
  · split at found
    · cases found
    · cases found
    · cases sandboxServiceForConfig_same found
      rfl

theorem accountLevel_source {accountID : Int} {service : SandboxService}
    (found : accountLevel env accountID = .ok service) : service.source = "account" := by
  obtain ⟨value, _, own⟩ := preferenceLevel_ok found
  exact customService_source own

theorem installationLevel_source {installationID : Int} {service : SandboxService}
    (found : installationLevel env installationID = .ok service) :
    service.source = "installation" ∨ service.source = "inherited_account" := by
  obtain ⟨value, _, configured⟩ := preferenceLevel_ok found
  by_cases mode : toLower (trimSpace value.mode) = "inherit"
  · rw [if_pos mode] at configured
    obtain ⟨_, _, own, _, rfl⟩ := inheritedLevel_ok configured
    exact .inr rfl
  · rw [if_neg mode] at configured
    exact .inl (customService_source configured)

theorem adminDefaultLevel_source {installation : Option Int} {service : SandboxService}
    (found : adminDefaultLevel env installation = .ok service) :
    service.source = "admin_default" := by
  obtain ⟨config, _, own⟩ := (adminDefaultLevel_iff installation service).mp found
  unfold defaultService at own
  dsimp only at own
  split at own
  · cases own
  · split at own
    · cases own
    · cases sandboxServiceForConfig_same own
      rfl

theorem sourceClass_shown {source : String} (known : source ∈ ["installation", "account",
    "inherited_account", "admin_default"]) : sourceClass source = some (resolvedSource source) := by
  simp only [List.mem_cons, List.not_mem_nil, or_false] at known
  rcases known with rfl | rfl | rfl | rfl <;> decide

/-- What the two resolutions have in common always agrees. -/
theorem levels_agree {resolved : Resolved} {installationID : Int}
    (level : resolved = installationLevel env installationID ∨
      resolved = adminDefaultLevel env (some installationID)) :
    ReadinessAgrees (shownOf resolved) resolved := by
  apply shownOf_agrees
  intro service found
  apply sourceClass_shown
  rcases level with own | default
  · rcases installationLevel_source (own.symm.trans found) with same | same
    · simp [same]
    · simp [same]
  · simp [adminDefaultLevel_source (default.symm.trans found)]

/-- The default is shown, and the personal owner's account answers. -/
theorem personal_agrees_iff {personal : Resolved} {installationID : Int}
    (personalSource : ∀ service, personal = .ok service → service.source = "account") :
    ReadinessAgrees (shownOf (adminDefaultLevel env (some installationID)))
        (firstConfigured ServiceError.notConfigured [personal]
          (adminDefaultLevel env (some installationID))) ↔
      Skipped ServiceError.notConfigured personal ∨
        Fails personal ∧ Fails (adminDefaultLevel env (some installationID)) := by
  rcases resolved_cases personal with ⟨service, rfl⟩ | skipped | fails
  · -- a service of the account is never what the default shows
    have apart : ¬ ReadinessAgrees (shownOf (adminDefaultLevel env (some installationID)))
        (.ok service) := by
      intro agrees
      obtain ⟨source, own, shown⟩ := agrees.served service rfl
      rw [personalSource service rfl] at own
      have custom : source = .custom := (Option.some.inj own).symm
      rw [custom] at shown
      rcases resolved_cases (adminDefaultLevel env (some installationID)) with
        ⟨found, default⟩ | ⟨err, default, skip⟩ | ⟨err, default, unskipped⟩
      · rw [default, shownOf, adminDefaultLevel_source default] at shown
        cases shown
      · rw [default, shownOf, if_pos skip] at shown
        cases shown
      · rw [default, shownOf, if_neg (by simp [unskipped])] at shown
        cases shown
    rw [firstConfigured_ok]
    constructor
    · exact fun agrees => absurd agrees apart
    · rintro (skipped | ⟨fails, _⟩)
      · exact absurd skipped ok_stands
      · obtain ⟨err, same, _⟩ := fails
        cases same
  · rw [firstConfigured_skipped _ _ skipped, firstConfigured_nil]
    exact ⟨fun _ => .inl skipped, fun _ => levels_agree (.inr rfl)⟩
  · rw [firstConfigured_stands _ _ (fails_stands fails)]
    obtain ⟨err, rfl, unskipped⟩ := fails
    have failing : Fails (.error err : Resolved) := ⟨err, rfl, unskipped⟩
    constructor
    · intro agrees
      -- a request fails with the account, so whatever the page shows of the default is wrong
      refine .inr ⟨failing, ?_⟩
      rcases resolved_cases (adminDefaultLevel env (some installationID)) with
        ⟨found, default⟩ | ⟨other, default, skip⟩ | fails
      · have shown : shownOf (adminDefaultLevel env (some installationID)) =
            .ok .adminDefault := by
          rw [default, shownOf, adminDefaultLevel_source default]
          rfl
        obtain ⟨service, served, _⟩ := agrees.serves .adminDefault (by decide) shown
        cases served
      · have shown : shownOf (adminDefaultLevel env (some installationID)) = .ok .none := by
          rw [default, shownOf, if_pos skip]
        obtain ⟨same, failed, skipped⟩ := agrees.unconfigured.mp shown
        cases failed
        rw [unskipped] at skipped
        cases skipped
      · exact fails
    · rintro (skipped | ⟨_, other, default, stands⟩)
      · exact absurd skipped (fails_stands failing)
      · have shown : shownOf (adminDefaultLevel env (some installationID)) = .error other := by
          rw [default, shownOf, if_neg (by simp [stands])]
        rw [shown]
        constructor
        · constructor
          · intro none
            cases none
          · rintro ⟨same, failed, skip⟩
            cases failed
            rw [unskipped] at skip
            cases skip
        · intro service failed
          cases failed
        · intro source _ none
          cases none

/-- What is shown for an installation is what its requests resolve to exactly
when nothing depends on the account of its personal owner. -/
theorem readiness_agrees_iff (injectedSandbox : Option Bool) (env : ServiceEnvironment)
    (req : RunnerRequest)
    (installationID : Int) (known : requestInstallation env req = .ok (some installationID))
    (unkept : ¬ (trimSpace req.sandboxAPIURL ≠ "" ∧ trimSpace req.sandboxAPIKeyEncrypted ≠ "")) :
    ReadinessAgrees (fillSandboxResolvedSource env (.githubInstallation installationID))
        (serviceForRunnerRequest env injectedSandbox req) ↔
      injectedSandbox = none ∧ PersonalIdle env installationID := by
  cases injectedSandbox with
  | some listsTemplates =>
      constructor
      · intro agrees
        obtain ⟨source, own, _⟩ := agrees.served _ rfl
        cases own
      · rintro ⟨uninjected, _⟩
        cases uninjected
  | none =>
      have service : serviceForRunnerRequest env none req =
          firstConfigured ServiceError.notConfigured
            [installationLevel env installationID, personalLevel env installationID]
            (adminDefaultLevel env (some installationID)) := by
        simp only [serviceForRunnerRequest, unkeptResolution_eq req unkept, unkeptResolution, known]
      rw [service, shown_eq, PersonalIdle]
      by_cases skipped : Skipped ServiceError.notConfigured (installationLevel env installationID)
      · rw [firstConfigured_skipped _ _ skipped, firstConfigured_skipped _ _ skipped,
          firstConfigured_nil, personal_agrees_iff fun service found => ?_]
        · simp only [skipped, true_and, forall_const]
        · unfold personalLevel at found
          split at found
          · cases found
          · cases found
          · exact accountLevel_source found
      · rw [firstConfigured_stands _ _ skipped, firstConfigured_stands _ _ skipped]
        simp only [skipped, false_implies, and_self, iff_true]
        exact levels_agree (.inl rfl)

/-- Installation 5 is of octo, who has account 7. The scope has credentials. -/
def personalEnv (scope : Scope) : ServiceEnvironment :=
  urlEnv
    { preferences := [⟨scope, urlPreference⟩]
      secrets := [⟨scope, ⟨sealedKey, sealedKey_trimmed, sealedKey_filled⟩⟩]
      installations := [{ id := 1, accountID := 7, installationID := 5, accountLogin := "octo" }]
      identities :=
        [{ accountID := 7, oauthProvider := "github", oauthSubject := "583231"
           oauthLogin := "octo" }] }

def freshRequest : RunnerRequest where
  id := "gh-12"
  githubInstallationID := 5
  repositoryFullName := "octo/repo"

theorem readiness_agrees_installation :
    ReadinessAgrees
      (fillSandboxResolvedSource (personalEnv (.githubInstallation 5)) (.githubInstallation 5))
      (serviceForRunnerRequest (personalEnv (.githubInstallation 5)) none freshRequest) :=
  (readiness_agrees_iff none (personalEnv (.githubInstallation 5)) freshRequest 5 rfl
    (by decide)).mpr ⟨rfl, fun _ => .inl ⟨_, rfl, rfl⟩⟩

/-- Nothing is shown, and a request runs with the personal owner's account. -/
theorem personal_owner_unshown :
    fillSandboxResolvedSource (personalEnv (.account 7)) (.githubInstallation 5) = .ok .none ∧
      serviceForRunnerRequest (personalEnv (.account 7)) none freshRequest =
        .ok (keptService "account") ∧
      ¬ ReadinessAgrees
        (fillSandboxResolvedSource (personalEnv (.account 7)) (.githubInstallation 5))
        (serviceForRunnerRequest (personalEnv (.account 7)) none freshRequest) := by
  have shown : fillSandboxResolvedSource (personalEnv (.account 7)) (.githubInstallation 5) =
      .ok .none := by decide +kernel
  have service : serviceForRunnerRequest (personalEnv (.account 7)) none freshRequest =
      .ok (keptService "account") := by decide +kernel
  refine ⟨shown, service, fun agrees => ?_⟩
  obtain ⟨err, failed, _⟩ := agrees.unconfigured.mp shown
  rw [service] at failed
  cases failed

end Agreement

end Runnerd
