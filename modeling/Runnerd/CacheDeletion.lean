import Runnerd.ServiceResolution

/-!
How a cache configuration is deleted: three records of `account_preferences` and
`account_secrets`, each in a store call of its own. Saving them is one transaction.
-/

namespace Runnerd.CacheDeletion

open GoText

section Tables

structure PreferenceRow where
  scopeType : String
  scopeID : Int
  namespace_ : String
  key : String
  valueJSON : String
  deriving DecidableEq, Repr

structure SecretRow where
  scopeType : String
  scopeID : Int
  keyType : String
  encryptedValue : String
  deriving DecidableEq, Repr

structure AccountTables where
  preferences : List PreferenceRow := []
  secrets : List SecretRow := []
  deriving DecidableEq, Repr

def normalizeAccountScopeType (scopeType : String) : String := toLower (trimSpace scopeType)

def normalizeAccountPreferencePart (value : String) : String := toLower (trimSpace value)

def normalizeAccountSecretKeyType (keyType : String) : String := toLower (trimSpace keyType)

/-- The rows that a preference call is about, if its arguments name any. -/
def preferenceKey (scopeType : String) (scopeID : Int) (namespace_ key : String) :
    Option (PreferenceRow → Bool) :=
  let scopeType := normalizeAccountScopeType scopeType
  let namespace_ := normalizeAccountPreferencePart namespace_
  let key := normalizeAccountPreferencePart key
  if scopeType = "" ∨ scopeID ≤ 0 ∨ namespace_ = "" ∨ key = "" then none
  else
    some fun row => row.scopeType == scopeType && row.scopeID == scopeID &&
      row.namespace_ == namespace_ && row.key == key

def secretKey (scopeType : String) (scopeID : Int) (keyType : String) :
    Option (SecretRow → Bool) :=
  let scopeType := normalizeAccountScopeType scopeType
  let keyType := normalizeAccountSecretKeyType keyType
  if scopeType = "" ∨ scopeID ≤ 0 ∨ keyType = "" then none
  else
    some fun row => row.scopeType == scopeType && row.scopeID == scopeID && row.keyType == keyType

/-- `GetAccountPreference`, when the database answers. -/
def getAccountPreference (tables : AccountTables) (scopeType : String) (scopeID : Int)
    (namespace_ key : String) : Option PreferenceRow :=
  (preferenceKey scopeType scopeID namespace_ key).bind fun named => tables.preferences.find? named

/-- `GetAccountSecret`, when the database answers. -/
def getAccountSecret (tables : AccountTables) (scopeType : String) (scopeID : Int)
    (keyType : String) : Option SecretRow :=
  (secretKey scopeType scopeID keyType).bind fun named => tables.secrets.find? named

/-- `DeleteAccountPreference`. A call that fails has removed nothing. -/
def deleteAccountPreference (fault : Option GoError) (scopeType : String) (scopeID : Int)
    (namespace_ key : String) (tables : AccountTables) : Option LookupError × AccountTables :=
  match fault with
  | some err => (some (.failed err), tables)
  | none =>
      match preferenceKey scopeType scopeID namespace_ key with
      | none => (some .notFound, tables)
      | some named =>
          if tables.preferences.countP named = 0 then (some .notFound, tables)
          else (none, { tables with preferences := tables.preferences.filter fun row => !named row })

/-- `DeleteAccountSecret`. -/
def deleteAccountSecret (fault : Option GoError) (scopeType : String) (scopeID : Int)
    (keyType : String) (tables : AccountTables) : Option LookupError × AccountTables :=
  match fault with
  | some err => (some (.failed err), tables)
  | none =>
      match secretKey scopeType scopeID keyType with
      | none => (some .notFound, tables)
      | some named =>
          if tables.secrets.countP named = 0 then (some .notFound, tables)
          else (none, { tables with secrets := tables.secrets.filter fun row => !named row })

end Tables

section Handler

def scopeType : Scope → String
  | .account _ => "account"
  | .githubInstallation _ => "github_installation"

def cacheAccessKeyID : String := "cache_access_key_id"
def cacheSecretAccessKey : String := "cache_secret_access_key"
def preferenceNamespaceCache : String := "cache"
def preferenceKeyCacheS3 : String := "s3"

/-- The store calls of the handler. -/
inductive DeleteCall where
  | accessKey
  | secretKey
  | preference
  deriving DecidableEq, Repr

/-- What the handler makes of an error: a missing record is none. -/
def reported : Option LookupError → Option GoError
  | some (.failed err) => some err
  | _ => none

def deleteCacheSecrets (scope : Scope) : List (String × Option GoError) → AccountTables →
    Option GoError × AccountTables
  | [], tables => (none, tables)
  | (key, fault) :: rest, tables =>
      let deleted := deleteAccountSecret fault (scopeType scope) scope.id key tables
      match reported deleted.1 with
      | some err => (some err, deleted.2)
      | none => deleteCacheSecrets scope rest deleted.2

/-- `handleUserDeleteCacheConfig` of an authorised user, up to the audit record. An
error is a response of status 500. -/
def handleUserDeleteCacheConfig (faults : DeleteCall → Option GoError) (scope : Scope)
    (tables : AccountTables) : Option GoError × AccountTables :=
  let secrets := deleteCacheSecrets scope [(cacheAccessKeyID, faults .accessKey),
    (cacheSecretAccessKey, faults .secretKey)] tables
  match secrets.1 with
  | some err => (some err, secrets.2)
  | none =>
      let deleted := deleteAccountPreference (faults .preference) (scopeType scope) scope.id
        preferenceNamespaceCache preferenceKeyCacheS3 secrets.2
      (reported deleted.1, deleted.2)

end Handler

section Records

/-- The configuration of a scope, as its readers find it. -/
structure CacheRecords where
  preference : Option PreferenceRow := none
  accessKey : Option SecretRow := none
  secretKey : Option SecretRow := none
  deriving DecidableEq, Repr

def cacheRecords (tables : AccountTables) (scope : Scope) : CacheRecords where
  preference := getAccountPreference tables (scopeType scope) scope.id preferenceNamespaceCache
    preferenceKeyCacheS3
  accessKey := getAccountSecret tables (scopeType scope) scope.id cacheAccessKeyID
  secretKey := getAccountSecret tables (scopeType scope) scope.id cacheSecretAccessKey

theorem find_removed {Row : Type} (named : Row → Bool) (rows : List Row) :
    (rows.filter fun row => !named row).find? named = none := by
  rw [List.find?_eq_none]
  intro row member
  simpa using (List.mem_filter.mp member).2

theorem find_kept {Row : Type} {named other : Row → Bool}
    (apart : ∀ row, other row = true → named row = false) (rows : List Row) :
    (rows.filter fun row => !named row).find? other = rows.find? other := by
  induction rows with
  | nil => rfl
  | cons row rest ih =>
      by_cases asked : other row = true
      · simp [asked, apart row asked]
      · by_cases removed : named row = true
        · simp [asked, removed, ih]
        · simp [asked, removed, ih]

variable {kind keyType : String} {scopeID : Int} {tables : AccountTables}

/-- A deletion answers with its fault and no other error. -/
theorem deleteSecret_reported (fault : Option GoError) :
    reported (deleteAccountSecret fault kind scopeID keyType tables).1 = fault := by
  unfold deleteAccountSecret
  cases fault with
  | some err => rfl
  | none =>
      dsimp only
      split
      · rfl
      · split <;> rfl

theorem deletePreference_reported (fault : Option GoError) (namespace_ key : String) :
    reported (deleteAccountPreference fault kind scopeID namespace_ key tables).1 = fault := by
  unfold deleteAccountPreference
  cases fault with
  | some err => rfl
  | none =>
      dsimp only
      split
      · rfl
      · split <;> rfl

theorem deleteSecret_unnamed (asked : secretKey kind scopeID keyType = none) :
    (deleteAccountSecret none kind scopeID keyType tables).2 = tables := by
  simp only [deleteAccountSecret, asked]

/-- The rows that a deletion is about go, whether there are any or not. -/
theorem deleteSecret_secrets {named : SecretRow → Bool}
    (asked : secretKey kind scopeID keyType = some named) :
    (deleteAccountSecret none kind scopeID keyType tables).2.secrets =
      tables.secrets.filter fun row => !named row := by
  simp only [deleteAccountSecret, asked]
  split
  · rename_i absent
    rw [List.countP_eq_zero] at absent
    have kept : ∀ row ∈ tables.secrets, (!named row) = true := by
      intro row member
      simpa using absent row member
    exact (List.filter_eq_self.mpr kept).symm
  · rfl

theorem deleteSecret_removes :
    getAccountSecret (deleteAccountSecret none kind scopeID keyType tables).2 kind scopeID keyType =
      none := by
  unfold getAccountSecret
  cases asked : secretKey kind scopeID keyType with
  | none => rfl
  | some named =>
      rw [deleteSecret_secrets asked]
      exact find_removed named tables.secrets

/-- The columns that name a secret, as they are stored. -/
def secretName (kind : String) (scopeID : Int) (keyType : String) : String × Int × String :=
  (normalizeAccountScopeType kind, scopeID, normalizeAccountSecretKeyType keyType)

theorem secretKey_names {named : SecretRow → Bool}
    (asked : secretKey kind scopeID keyType = some named) (row : SecretRow) :
    named row = true ↔ (row.scopeType, row.scopeID, row.keyType) = secretName kind scopeID keyType := by
  unfold secretKey at asked
  dsimp only at asked
  split at asked
  · cases asked
  · rw [← Option.some.inj asked]
    simp [secretName, and_assoc]

/-- The other secrets stay. -/
theorem deleteSecret_keeps {otherKind otherType : String} {otherID : Int}
    (apart : secretName otherKind otherID otherType ≠ secretName kind scopeID keyType)
    (fault : Option GoError) :
    getAccountSecret (deleteAccountSecret fault kind scopeID keyType tables).2 otherKind otherID
      otherType = getAccountSecret tables otherKind otherID otherType := by
  unfold deleteAccountSecret
  cases fault with
  | some err => rfl
  | none =>
      cases asked : secretKey kind scopeID keyType with
      | none => rfl
      | some named =>
          dsimp only
          split
          · rfl
          · unfold getAccountSecret
            cases wants : secretKey otherKind otherID otherType with
            | none => rfl
            | some wanted =>
                refine find_kept (fun row own => ?_) tables.secrets
                rw [← Bool.not_eq_true, secretKey_names asked]
                exact fun same => apart (((secretKey_names wants row).mp own).symm.trans same)

/-- The columns that name a preference, as they are stored. -/
def preferenceName (kind : String) (scopeID : Int) (namespace_ key : String) :
    String × Int × String × String :=
  (normalizeAccountScopeType kind, scopeID, normalizeAccountPreferencePart namespace_,
    normalizeAccountPreferencePart key)

theorem preferenceKey_names {named : PreferenceRow → Bool} {namespace_ key : String}
    (asked : preferenceKey kind scopeID namespace_ key = some named) (row : PreferenceRow) :
    named row = true ↔ (row.scopeType, row.scopeID, row.namespace_, row.key) =
      preferenceName kind scopeID namespace_ key := by
  unfold preferenceKey at asked
  dsimp only at asked
  split at asked
  · cases asked
  · rw [← Option.some.inj asked]
    simp [preferenceName, and_assoc]

theorem deletePreference_keeps {otherKind : String} {otherID : Int}
    {namespace_ key otherNamespace otherKey : String}
    (apart : preferenceName otherKind otherID otherNamespace otherKey ≠
      preferenceName kind scopeID namespace_ key) (fault : Option GoError) :
    getAccountPreference (deleteAccountPreference fault kind scopeID namespace_ key tables).2
      otherKind otherID otherNamespace otherKey =
      getAccountPreference tables otherKind otherID otherNamespace otherKey := by
  unfold deleteAccountPreference
  cases fault with
  | some err => rfl
  | none =>
      cases asked : preferenceKey kind scopeID namespace_ key with
      | none => rfl
      | some named =>
          dsimp only
          split
          · rfl
          · unfold getAccountPreference
            cases wants : preferenceKey otherKind otherID otherNamespace otherKey with
            | none => rfl
            | some wanted =>
                refine find_kept (fun row own => ?_) tables.preferences
                rw [← Bool.not_eq_true, preferenceKey_names asked]
                exact fun same => apart (((preferenceKey_names wants row).mp own).symm.trans same)

theorem deleteSecret_preferences (fault : Option GoError) :
    (deleteAccountSecret fault kind scopeID keyType tables).2.preferences = tables.preferences := by
  unfold deleteAccountSecret
  cases fault with
  | some err => rfl
  | none =>
      dsimp only
      split
      · rfl
      · split <;> rfl

theorem deletePreference_secrets (fault : Option GoError) (namespace_ key : String) :
    (deleteAccountPreference fault kind scopeID namespace_ key tables).2.secrets =
      tables.secrets := by
  unfold deleteAccountPreference
  cases fault with
  | some err => rfl
  | none =>
      dsimp only
      split
      · rfl
      · split <;> rfl

theorem deletePreference_removes (namespace_ key : String) :
    getAccountPreference (deleteAccountPreference none kind scopeID namespace_ key tables).2 kind
      scopeID namespace_ key = none := by
  unfold deleteAccountPreference getAccountPreference
  cases asked : preferenceKey kind scopeID namespace_ key with
  | none => rfl
  | some named =>
      dsimp only
      split
      · rename_i absent
        rw [List.countP_eq_zero] at absent
        exact List.find?_eq_none.mpr absent
      · exact find_removed named tables.preferences

/-- A preference is read from its own table. -/
theorem getPreference_congr {before after : AccountTables}
    (same : after.preferences = before.preferences) (namespace_ key : String) :
    getAccountPreference after kind scopeID namespace_ key =
      getAccountPreference before kind scopeID namespace_ key := by
  rw [getAccountPreference, getAccountPreference, same]

theorem getSecret_congr {before after : AccountTables} (same : after.secrets = before.secrets) :
    getAccountSecret after kind scopeID keyType = getAccountSecret before kind scopeID keyType := by
  rw [getAccountSecret, getAccountSecret, same]

end Records

section Erasure
variable {scope : Scope} {tables : AccountTables}

theorem keys_apart (scope : Scope) :
    secretName (scopeType scope) scope.id cacheSecretAccessKey ≠
      secretName (scopeType scope) scope.id cacheAccessKeyID := by
  have types : normalizeAccountSecretKeyType cacheSecretAccessKey ≠
      normalizeAccountSecretKeyType cacheAccessKeyID := by decide +kernel
  exact fun same => types (congrArg (fun name => name.2.2) same)

theorem deleteAccessKey_records :
    cacheRecords (deleteAccountSecret none (scopeType scope) scope.id cacheAccessKeyID tables).2
      scope = { cacheRecords tables scope with accessKey := none } := by
  simp only [cacheRecords, deleteSecret_removes, deleteSecret_keeps (keys_apart scope),
    getPreference_congr (deleteSecret_preferences _)]

theorem deleteSecretKey_records :
    cacheRecords (deleteAccountSecret none (scopeType scope) scope.id cacheSecretAccessKey tables).2
      scope = { cacheRecords tables scope with secretKey := none } := by
  simp only [cacheRecords, deleteSecret_removes, deleteSecret_keeps (keys_apart scope).symm,
    getPreference_congr (deleteSecret_preferences _)]

theorem deletePreference_records :
    cacheRecords (deleteAccountPreference none (scopeType scope) scope.id preferenceNamespaceCache
      preferenceKeyCacheS3 tables).2 scope = { cacheRecords tables scope with preference := none } := by
  simp only [cacheRecords, deletePreference_removes, getSecret_congr (deletePreference_secrets _ _ _)]

/-- What the handler does to the three records: each call that does not fail erases
its own. -/
def erase (faults : DeleteCall → Option GoError) (records : CacheRecords) :
    Option GoError × CacheRecords :=
  match faults .accessKey with
  | some err => (some err, records)
  | none =>
      match faults .secretKey with
      | some err => (some err, { records with accessKey := none })
      | none =>
          match faults .preference with
          | some err => (some err, { records with accessKey := none, secretKey := none })
          | none => (none, {})

/-- One round of the loop over the secrets. -/
theorem deleteCacheSecrets_cons (key : String) (fault : Option GoError)
    (rest : List (String × Option GoError)) :
    deleteCacheSecrets scope ((key, fault) :: rest) tables =
      match fault with
      | some err => (some err, tables)
      | none => deleteCacheSecrets scope rest
          (deleteAccountSecret none (scopeType scope) scope.id key tables).2 := by
  rw [deleteCacheSecrets]
  simp only [deleteSecret_reported]
  cases fault with
  | some err => rfl
  | none => rfl

theorem handler_erases (faults : DeleteCall → Option GoError) (scope : Scope)
    (tables : AccountTables) :
    ((handleUserDeleteCacheConfig faults scope tables).1,
      cacheRecords (handleUserDeleteCacheConfig faults scope tables).2 scope) =
      erase faults (cacheRecords tables scope) := by
  unfold handleUserDeleteCacheConfig erase
  rw [deleteCacheSecrets_cons]
  cases faults .accessKey with
  | some err => rfl
  | none =>
      dsimp only
      rw [deleteCacheSecrets_cons]
      cases faults .secretKey with
      | some err =>
          dsimp only
          rw [deleteAccessKey_records]
      | none =>
          dsimp only
          rw [deleteCacheSecrets]
          dsimp only
          rw [deletePreference_reported]
          cases faults .preference with
          | some err =>
              dsimp only [deleteAccountPreference]
              rw [deleteSecretKey_records, deleteAccessKey_records]
          | none =>
              dsimp only
              rw [deletePreference_records, deleteSecretKey_records, deleteAccessKey_records]

theorem scopeType_normal (scope : Scope) :
    normalizeAccountScopeType (scopeType scope) = scopeType scope := by
  have account : normalizeAccountScopeType "account" = "account" := by decide +kernel
  have installation : normalizeAccountScopeType "github_installation" = "github_installation" := by
    decide +kernel
  cases scope with
  | account id => exact account
  | githubInstallation id => exact installation

theorem scope_columns {first second : Scope} :
    first = second ↔ scopeType first = scopeType second ∧ first.id = second.id := by
  cases first <;> cases second <;> simp [scopeType, Scope.id]

/-- Two scopes store their records under different names. -/
theorem scope_named {other : Scope} (apart : other ≠ scope) :
    (normalizeAccountScopeType (scopeType other), other.id) ≠
      (normalizeAccountScopeType (scopeType scope), scope.id) := by
  intro same
  rw [scopeType_normal, scopeType_normal, Prod.mk.injEq] at same
  exact apart (scope_columns.mpr same)

theorem deleteSecret_elsewhere {other : Scope} (apart : other ≠ scope) (key : String)
    (fault : Option GoError) :
    cacheRecords (deleteAccountSecret fault (scopeType scope) scope.id key tables).2 other =
      cacheRecords tables other := by
  have named (first second : String) : secretName (scopeType other) other.id first ≠
      secretName (scopeType scope) scope.id second := fun same =>
    scope_named apart (congrArg (fun name => (name.1, name.2.1)) same)
  simp only [cacheRecords, deleteSecret_keeps (named _ _),
    getPreference_congr (deleteSecret_preferences _)]

theorem deletePreference_elsewhere {other : Scope} (apart : other ≠ scope)
    (fault : Option GoError) :
    cacheRecords (deleteAccountPreference fault (scopeType scope) scope.id preferenceNamespaceCache
      preferenceKeyCacheS3 tables).2 other = cacheRecords tables other := by
  have named : preferenceName (scopeType other) other.id preferenceNamespaceCache
      preferenceKeyCacheS3 ≠ preferenceName (scopeType scope) scope.id preferenceNamespaceCache
      preferenceKeyCacheS3 := fun same =>
    scope_named apart (congrArg (fun name => (name.1, name.2.1)) same)
  simp only [cacheRecords, deletePreference_keeps named,
    getSecret_congr (deletePreference_secrets _ _ _)]

theorem deleteCacheSecrets_elsewhere {other : Scope} (apart : other ≠ scope)
    (keys : List (String × Option GoError)) (tables : AccountTables) :
    cacheRecords (deleteCacheSecrets scope keys tables).2 other = cacheRecords tables other := by
  induction keys generalizing tables with
  | nil => rfl
  | cons first rest ih =>
      obtain ⟨key, fault⟩ := first
      rw [deleteCacheSecrets_cons]
      cases fault with
      | some err => rfl
      | none => exact (ih _).trans (deleteSecret_elsewhere apart key none)

/-- Whatever fails, the configurations of the other scopes stay. -/
theorem handler_elsewhere (faults : DeleteCall → Option GoError) {other : Scope}
    (apart : other ≠ scope) (tables : AccountTables) :
    cacheRecords (handleUserDeleteCacheConfig faults scope tables).2 other =
      cacheRecords tables other := by
  have secrets := deleteCacheSecrets_elsewhere apart
    [(cacheAccessKeyID, faults .accessKey), (cacheSecretAccessKey, faults .secretKey)] tables
  unfold handleUserDeleteCacheConfig
  dsimp only
  split
  · exact secrets
  · exact (deletePreference_elsewhere apart _).trans secrets

/-- An error leaves the configuration as it was, and success leaves none of it. -/
def AllOrNothing (faults : DeleteCall → Option GoError) (scope : Scope) (tables : AccountTables) :
    Prop :=
  match (handleUserDeleteCacheConfig faults scope tables).1 with
  | some _ => cacheRecords (handleUserDeleteCacheConfig faults scope tables).2 scope =
      cacheRecords tables scope
  | none => cacheRecords (handleUserDeleteCacheConfig faults scope tables).2 scope = {}

/-- The call that ends the handler. -/
def firstFault (faults : DeleteCall → Option GoError) : Option DeleteCall :=
  [.accessKey, .secretKey, .preference].find? fun call => (faults call).isSome

/-- A record is stored that is deleted before this call. -/
def storedBefore (records : CacheRecords) : DeleteCall → Prop
  | .accessKey => False
  | .secretKey => records.accessKey ≠ none
  | .preference => records.accessKey ≠ none ∨ records.secretKey ≠ none

/-- The configuration is deleted as a whole or not at all exactly when no call fails
after another has removed a record. -/
theorem delete_all_or_nothing (faults : DeleteCall → Option GoError) (scope : Scope)
    (tables : AccountTables) :
    AllOrNothing faults scope tables ↔
      ∀ call, firstFault faults = some call → ¬ storedBefore (cacheRecords tables scope) call := by
  have erases := handler_erases faults scope tables
  rw [Prod.ext_iff] at erases
  obtain ⟨answer, left⟩ := erases
  dsimp only at answer left
  rw [AllOrNothing, answer, left]
  generalize cacheRecords tables scope = records
  obtain ⟨preference, accessKey, secretKey⟩ := records
  unfold erase firstFault
  cases first : faults .accessKey with
  | some err => simp [first, storedBefore]
  | none =>
      cases second : faults .secretKey with
      | some err => simp [first, second, storedBefore, eq_comm]
      | none =>
          cases third : faults .preference with
          | some err => simp [first, second, third, storedBefore, eq_comm]
          | none => simp [first, second, third]

end Erasure

section Samples

/-- A configured account. -/
def configuredTables : AccountTables where
  preferences := [⟨"account", 7, "cache", "s3", "\x7b\"bucket\":\"ci\"\x7d"⟩]
  secrets := [⟨"account", 7, "cache_access_key_id", "sealed-id"⟩,
    ⟨"account", 7, "cache_secret_access_key", "sealed-key"⟩]

def preferenceFails : DeleteCall → Option GoError
  | .preference => some { message := "database is locked" }
  | _ => none

/-- The handler answers with an error, the secrets are gone and the preference is not. -/
theorem delete_strands_preference :
    (handleUserDeleteCacheConfig preferenceFails (.account 7) configuredTables).1 =
        some { message := "database is locked" } ∧
      (handleUserDeleteCacheConfig preferenceFails (.account 7) configuredTables).2 =
        { preferences := configuredTables.preferences } ∧
      ¬ AllOrNothing preferenceFails (.account 7) configuredTables := by
  refine ⟨by decide +kernel, by decide +kernel, ?_⟩
  have erased : cacheRecords (handleUserDeleteCacheConfig preferenceFails (.account 7)
      configuredTables).2 (.account 7) ≠ cacheRecords configuredTables (.account 7) := by
    decide +kernel
  exact erased

end Samples

end Runnerd.CacheDeletion
