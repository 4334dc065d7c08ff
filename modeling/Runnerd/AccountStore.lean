import Runnerd.Interleaving
import Runnerd.SpecTable

/-!
The accounts, their OAuth identities and the audit events, of
`internal/state/identity_audit.go`, below the transactions that save an identity.
At READ COMMITTED a statement sees what is committed when it runs and what its own
transaction has written. An insert under a unique key waits for an open transaction
that has inserted the key, and an update for one that has updated the row. A failed
transaction leaves nothing behind but the ids it took from a sequence.

`UpdateAccountRoleWithAudit` runs its transactions at SERIALIZABLE: each of them
takes effect at one moment, or fails.
-/

namespace Runnerd.Accounts

open GoText Interaction Interleaving

section Records

/-- `unknown` is the empty text that `normalizePlatformRole` gives for other texts. -/
inductive PlatformRole where
  | unknown
  | admin
  | user
  deriving DecidableEq, Repr

def normalizePlatformRole (role : String) : PlatformRole :=
  let role := toLower (trimSpace role)
  if role = "admin" then .admin
  else if role = "user" then .user
  else .unknown

def normalizeOAuthProvider (provider : String) : String := toLower (trimSpace provider)

def normalizeOAuthSubject (subject : String) : String := trimSpace subject

def normalizeOAuthLogin (login : String) : String := toLower (trimSpace login)

structure AccountRecord where
  id : Int
  role : PlatformRole
  createdAt : Time
  updatedAt : Time
  deriving DecidableEq, Repr

/-- A row of `oauth_identities` with all its columns. -/
structure OAuthIdentityRecord where
  id : Int
  accountID : Int
  oauthProvider : String
  oauthSubject : String
  oauthLogin : String
  createdAt : Time
  updatedAt : Time
  deriving DecidableEq, Repr

/-- The columns of `idx_oauth_identities_provider_subject`. -/
def OAuthIdentityRecord.providerSubject (row : OAuthIdentityRecord) : String × String :=
  (row.oauthProvider, row.oauthSubject)

/-- The payload of `account.role.update`. -/
structure RoleChange where
  oldRole : PlatformRole
  newRole : PlatformRole
  deriving DecidableEq, Repr

/-- What a caller asks to save. -/
structure OAuthIdentity where
  oauthProvider : String
  oauthSubject : String
  oauthLogin : String
  createdAt : Option Time := none

structure AccountRoleUpdate where
  actorAccountID : Int
  accountID : Int
  role : String
  auditActor : String

end Records

section Tables

structure AccountTables where
  accounts : KeyedTable AccountRecord.id := .empty
  identities : KeyedTable OAuthIdentityRecord.providerSubject := .empty
  audit : List (AuditEvent RoleChange) := []

/-- What a statement of an open transaction has written. -/
inductive AccountWrite where
  | insertAccount (row : AccountRecord)
  | deleteAccount (id : Int)
  | insertIdentity (row : OAuthIdentityRecord)
  | setLogin (id : Int) (login : String) (now : Time)
  | setRole (id : Int) (role : PlatformRole) (now : Time)

def roleEdit (role : PlatformRole) (now : Time) : KeyedTable.Edit AccountRecord.id :=
  ⟨fun row => { row with role, updatedAt := now }, fun _ => rfl⟩

def loginEdit (login : String) (now : Time) :
    KeyedTable.Edit OAuthIdentityRecord.providerSubject :=
  ⟨fun row => { row with oauthLogin := login, updatedAt := now }, fun _ => rfl⟩

def AccountWrite.run (tables : AccountTables) : AccountWrite → AccountTables
  | .insertAccount row => { tables with accounts := (tables.accounts.insert row).getD tables.accounts }
  | .deleteAccount id =>
      { tables with accounts := tables.accounts.erase fun row => decide (row.id = id) }
  | .insertIdentity row =>
      { tables with identities := (tables.identities.insert row).getD tables.identities }
  | .setLogin id login now =>
      { tables with identities :=
          tables.identities.update (fun row => decide (row.id = id)) (loginEdit login now) }
  | .setRole id role now =>
      { tables with accounts :=
          tables.accounts.update (fun row => decide (row.id = id)) (roleEdit role now) }

/-- The audit event of a role change, as `appendAuditEvent` stores it. -/
def roleEvent (auditActor : String) (target : AccountRecord) (role : PlatformRole) (now : Time) :
    AuditEvent RoleChange where
  actor := trimSpace auditActor
  action := "account.role.update"
  resourceType := "account"
  resourceID := toString target.id
  payload := { oldRole := target.role, newRole := role }
  createdAt := now

def AccountTables.adminCount (tables : AccountTables) : Nat :=
  tables.accounts.affected fun row => row.role == .admin

def updateAccountRoleWithAuditOnce (now : Time) (actorAccountID accountID : Int)
    (role : PlatformRole) (auditActor : String) (tables : AccountTables) :
    Except GoError (AccountRecord × AccountTables) :=
  match tables.accounts.find actorAccountID with
  | none => .error errNotFound
  | some actor =>
      if actor.role ≠ .admin then .error errConflict
      else match tables.accounts.find accountID with
        | none => .error errNotFound
        | some target =>
            let unchanged := fun row : AccountRecord =>
              decide (row.id = target.id ∧ row.role = target.role)
            if target.id = actor.id then .error errConflict
            else if target.role = role then .ok (target, tables)
            else if target.role = .admin ∧ role = .user ∧ tables.adminCount ≤ 1 then
              .error errConflict
            else if tables.accounts.affected unchanged ≠ 1 then .error errConflict
            else .ok ({ target with role, updatedAt := now },
              { tables with
                accounts := tables.accounts.update unchanged (roleEdit role now)
                audit := tables.audit ++ [roleEvent auditActor target role now] })

end Tables

section Database

/-- What is committed, and what the open transactions have written, oldest first. -/
structure AccountDatabase where
  tables : AccountTables
  pending : List (Nat × AccountWrite) := []
  nextAccountID : Int
  nextIdentityID : Int

namespace AccountDatabase
variable (db : AccountDatabase) (tid : Nat)

def own : List AccountWrite :=
  (db.pending.filter fun written => written.1 == tid).map Prod.snd

/-- What a statement of the transaction sees. -/
def view : AccountTables := (db.own tid).foldl AccountWrite.run db.tables

def write (written : AccountWrite) : AccountDatabase :=
  { db with pending := db.pending ++ [(tid, written)] }

def closed : AccountDatabase :=
  { db with pending := db.pending.filter fun written => written.1 != tid }

/-- Another transaction has written something of a kind. -/
def waits (kind : AccountWrite → Bool) : Bool :=
  db.pending.any fun written => written.1 != tid && kind written.2

end AccountDatabase

def AccountWrite.inserts (key : String × String) : AccountWrite → Bool
  | .insertIdentity row => decide (row.providerSubject = key)
  | _ => false

def AccountWrite.logs (id : Int) : AccountWrite → Bool
  | .setLogin found _ _ => decide (found = id)
  | _ => false

def AccountWrite.ranks (id : Int) : AccountWrite → Bool
  | .setRole found _ _ => decide (found = id)
  | _ => false

inductive AccountOp where
  | now
  | findIdentity (provider subject : String)
  | findAccount (id : Int)
  | createAccount (role : PlatformRole) (now : Time)
  | deleteAccount (id : Int)
  /-- `ON CONFLICT DO NOTHING`: the id of the row, if it is a new one. -/
  | createIdentity (row : OAuthIdentityRecord)
  | updateLogin (id : Int) (login : String) (now : Time)
  | updateRole (id : Int) (role : PlatformRole) (now : Time)
  | commit
  | rollback
  | updateAccountRoleOnce (actorAccountID accountID : Int) (role : PlatformRole)
      (auditActor : String)
  /-- A call that saves an identity returns to its caller. -/
  | saved (result : Except GoError (AccountRecord × OAuthIdentityRecord))
  /-- `UpdateAccountRoleWithAudit` returns to its caller. -/
  | updated (result : Except GoError AccountRecord)

@[reducible] def AccountOp.Resp : AccountOp → Type
  | .now => Time
  | .findIdentity _ _ => Except GoError (Option OAuthIdentityRecord)
  | .findAccount _ => Except GoError (Option AccountRecord)
  | .createAccount _ _ => Except GoError Int
  | .createIdentity _ => Except GoError (Option Int)
  | .updateAccountRoleOnce _ _ _ _ => Except GoError AccountRecord
  | .deleteAccount _ | .updateLogin _ _ _ | .updateRole _ _ _ | .commit => Except GoError Unit
  | .rollback | .saved _ | .updated _ => Unit

structure AccountChoice where
  now : Time := 0
  fault : Option GoError := none

/-- A statement that the database fails writes nothing. -/
def unlessFailed {α : Type} (fault : Option GoError) (db : AccountDatabase)
    (answer : Option (α × AccountDatabase)) : Option (Except GoError α × AccountDatabase) :=
  match fault with
  | some err => some (.error err, db)
  | none => answer.map fun (value, after) => (.ok value, after)

def newAccount (id : Int) (role : PlatformRole) (now : Time) : AccountRecord :=
  { id, role, createdAt := now, updatedAt := now }

def createAccount (tid : Nat) (role : PlatformRole) (now : Time) (db : AccountDatabase) :
    Int × AccountDatabase :=
  (db.nextAccountID,
    { db.write tid (.insertAccount (newAccount db.nextAccountID role now)) with
      nextAccountID := db.nextAccountID + 1 })

def createIdentity (tid : Nat) (row : OAuthIdentityRecord) (db : AccountDatabase) :
    Option (Option Int × AccountDatabase) :=
  if db.waits tid (AccountWrite.inserts row.providerSubject) then none
  else if ((db.view tid).identities.find row.providerSubject).isSome then some (none, db)
  else some (some db.nextIdentityID,
    { db.write tid (.insertIdentity { row with id := db.nextIdentityID }) with
      nextIdentityID := db.nextIdentityID + 1 })

def respondAccount (tid : Nat) (choice : AccountChoice) (db : AccountDatabase) :
    (op : AccountOp) → Option (op.Resp × AccountDatabase)
  | .now => some (choice.now, db)
  | .findIdentity provider subject =>
      unlessFailed choice.fault db (some ((db.view tid).identities.find (provider, subject), db))
  | .findAccount id => unlessFailed choice.fault db (some ((db.view tid).accounts.find id, db))
  | .createAccount role now => unlessFailed choice.fault db (some (createAccount tid role now db))
  | .deleteAccount id =>
      unlessFailed choice.fault db (some ((), db.write tid (.deleteAccount id)))
  | .createIdentity row => unlessFailed choice.fault db (createIdentity tid row db)
  | .updateLogin id login now =>
      unlessFailed choice.fault db (if db.waits tid (AccountWrite.logs id) then none
        else some ((), db.write tid (.setLogin id login now)))
  | .updateRole id role now =>
      unlessFailed choice.fault db (if db.waits tid (AccountWrite.ranks id) then none
        else some ((), db.write tid (.setRole id role now)))
  | .commit =>
      unlessFailed choice.fault (db.closed tid)
        (some ((), { db.closed tid with tables := db.view tid }))
  | .rollback => some ((), db.closed tid)
  | .updateAccountRoleOnce actorAccountID accountID role auditActor =>
      if db.waits tid (AccountWrite.ranks accountID) then none
      else match choice.fault, updateAccountRoleWithAuditOnce choice.now actorAccountID accountID role
          auditActor db.tables with
        | some err, _ => some (.error err, db)
        | none, .error err => some (.error err, db)
        | none, .ok (updated, tables) => some (.ok updated, { db with tables })
  | .saved _ | .updated _ => some ((), db)

end Database

section Calls

abbrev AccountAction := Prog AccountOp AccountOp.Resp

abbrev AccountAnswered := Call AccountOp AccountOp.Resp

def askAccount (op : AccountOp) : AccountAction op.Resp := Prog.request op

def isTransientStoreError (err : GoError) : Bool :=
  let message := toLower err.message
  ["database is locked", "sqlite_busy", "40001", "40p01", "sqlstate 40001", "sqlstate 40p01",
    "serialization_failure", "deadlock", "deadlock_detected", "concurrent update",
    "lock wait timeout"].any fun part => contains message part

/-- The loop around a transaction, and the error it ended with so far. -/
def retrying {α : Type} (once : AccountAction (Except GoError α)) :
    Nat → GoError → AccountAction (Except GoError α)
  | 0, lastErr => return .error lastErr
  | attempts + 1, _ => do
      match ← once with
      | .ok value => return .ok value
      | .error err =>
          if isTransientStoreError err then retrying once attempts err else return .error err

def storeAttempts : Nat := 20

/-- `return err` inside `db.Transaction`. -/
def abortSave {α : Type} (err : GoError) : AccountAction (Except GoError α) := do
  askAccount .rollback
  return .error err

def commitSave {α : Type} (value : α) : AccountAction (Except GoError α) := do
  match ← askAccount .commit with
  | .error err => return .error err
  | .ok () => return .ok value

abbrev SavedIdentity := Except GoError (AccountRecord × OAuthIdentityRecord)

/-- `accountFromIdentity`, of what its query finds. -/
def accountFromIdentity (identity : OAuthIdentityRecord) :
    Except GoError (Option AccountRecord) → SavedIdentity
  | .error err => .error err
  | .ok none => .error errNotFound
  | .ok (some account) => .ok (account, identity)

/-- The last statement of a transaction, and how it ends. -/
def concludeSave (identity : OAuthIdentityRecord) : AccountAction SavedIdentity := do
  match accountFromIdentity identity (← askAccount (.findAccount identity.accountID)) with
  | .error err => abortSave err
  | .ok saved => commitSave saved

/-- The arguments of `saveOAuthIdentityOnce`. -/
structure IdentitySave where
  provider : String
  subject : String
  login : String
  role : PlatformRole
  createdAt : Option Time
  updateExisting : Bool
  accountID : Int

def promote (save : IdentitySave) (now : Time) (accountID : Int) :
    AccountAction (Except GoError Unit) :=
  if save.updateExisting then askAccount (.updateRole accountID save.role now)
  else return .ok ()

/-- What both branches do with an identity that is there. -/
def touchIdentity (save : IdentitySave) (now : Time) (identity : OAuthIdentityRecord) :
    AccountAction SavedIdentity :=
  if save.accountID ≠ 0 ∧ identity.accountID ≠ save.accountID then abortSave errConflict
  else do
    match ← askAccount (.updateLogin identity.id save.login now) with
    | .error err => abortSave err
    | .ok () =>
        match ← promote save now identity.accountID with
        | .error err => abortSave err
        | .ok () =>
            concludeSave { identity with oauthLogin := save.login, updatedAt := now }

/-- The account of a new identity, and whether it was made for it. -/
def targetAccount (save : IdentitySave) (now : Time) :
    AccountAction (Except GoError (Int × Bool)) :=
  if save.accountID = 0 then do
    match ← askAccount (.createAccount save.role now) with
    | .error err => return .error err
    | .ok id => return .ok (id, true)
  else do
    match ← askAccount (.findAccount save.accountID) with
    | .error err => return .error err
    | .ok none => return .error errNotFound
    | .ok (some _) => return .ok (save.accountID, false)

def undoAccount (accountID : Int) (created : Bool) : AccountAction (Except GoError Unit) :=
  if created then askAccount (.deleteAccount accountID) else return .ok ()

def newIdentity (save : IdentitySave) (now : Time) (accountID : Int) : OAuthIdentityRecord where
  id := 0
  accountID := accountID
  oauthProvider := save.provider
  oauthSubject := save.subject
  oauthLogin := save.login
  createdAt := save.createdAt.getD now
  updatedAt := now

def insertIdentity (save : IdentitySave) (now : Time) (accountID : Int) (created : Bool) :
    AccountAction SavedIdentity := do
  match ← askAccount (.createIdentity (newIdentity save now accountID)) with
  | .error err => abortSave err
  | .ok (some id) => concludeSave { newIdentity save now accountID with id }
  | .ok none =>
      match ← undoAccount accountID created with
      | .error err => abortSave err
      | .ok () =>
          match ← askAccount (.findIdentity save.provider save.subject) with
          | .error err => abortSave err
          | .ok none => abortSave errRecordNotFound
          | .ok (some identity) => touchIdentity save now identity

def saveOAuthIdentityOnce (save : IdentitySave) : AccountAction SavedIdentity := do
  let now ← askAccount .now
  match ← askAccount (.findIdentity save.provider save.subject) with
  | .error err => abortSave err
  | .ok (some identity) => touchIdentity save now identity
  | .ok none =>
      match ← targetAccount save now with
      | .error err => abortSave err
      | .ok (accountID, created) => insertIdentity save now accountID created

def identitySave (identity : OAuthIdentity) (role : String) (updateExisting : Bool)
    (accountID : Int) : IdentitySave where
  provider := normalizeOAuthProvider identity.oauthProvider
  subject := normalizeOAuthSubject identity.oauthSubject
  login := normalizeOAuthLogin identity.oauthLogin
  role := normalizePlatformRole role
  createdAt := identity.createdAt
  updateExisting := updateExisting
  accountID := accountID

def IdentitySave.invalid (save : IdentitySave) : Option GoError :=
  if save.provider = "" then some { message := "oauth_provider is required" }
  else if save.subject = "" then some { message := "oauth_subject is required" }
  else if save.login = "" then some { message := "oauth_login is required" }
  else if save.accountID = 0 ∧ save.role = .unknown then
    some { message := "role must be admin or user" }
  else none

def saveOAuthIdentity (identity : OAuthIdentity) (role : String) (updateExisting : Bool)
    (accountID : Int) : AccountAction SavedIdentity :=
  let save := identitySave identity role updateExisting accountID
  match save.invalid with
  | some err => return .error err
  | none => retrying (saveOAuthIdentityOnce save) storeAttempts { message := "" }

def upsertAccountForOAuthIdentity (identity : OAuthIdentity) (role : String) :
    AccountAction SavedIdentity := saveOAuthIdentity identity role true 0

def ensureAccountForOAuthIdentity (identity : OAuthIdentity) (role : String) :
    AccountAction SavedIdentity := saveOAuthIdentity identity role false 0

def linkOAuthIdentityToAccount (accountID : Int) (identity : OAuthIdentity) :
    AccountAction SavedIdentity := saveOAuthIdentity identity "" false accountID

/-- `strings.Cut(identity, ":")`, with `github` for a text without a colon. -/
def cutIdentity (identity : String) : String × String :=
  let runes := identity.toList
  if ':' ∈ runes then
    (String.ofList (runes.takeWhile (· ≠ ':')),
      String.ofList ((runes.dropWhile (· ≠ ':')).drop 1))
  else ("github", identity)

def bootstrapAdminAccount (identity : String) : AccountAction (Except GoError Unit) :=
  let identity := trimSpace identity
  if identity = "" then return .ok ()
  else
    let provider := trimSpace (cutIdentity identity).1
    let subject := trimSpace (cutIdentity identity).2
    if provider = "" ∨ subject = "" then return .error { message := "expected provider:subject" }
    else do
      let result ← upsertAccountForOAuthIdentity
        { oauthProvider := provider, oauthSubject := subject, oauthLogin := subject } "admin"
      return result.map fun _ => ()

def AccountRoleUpdate.invalid (update : AccountRoleUpdate) : Option GoError :=
  if update.actorAccountID ≤ 0 ∨ update.accountID ≤ 0 then some errNotFound
  else if update.actorAccountID = update.accountID then some errConflict
  else if normalizePlatformRole update.role = .unknown then
    some { message := "role must be admin or user" }
  else if trimSpace update.auditActor = "" then some { message := "audit actor is required" }
  else none

def updateAccountRoleWithAudit (update : AccountRoleUpdate) :
    AccountAction (Except GoError AccountRecord) :=
  match update.invalid with
  | some err => return .error err
  | none =>
      retrying (askAccount (.updateAccountRoleOnce update.actorAccountID update.accountID
        (normalizePlatformRole update.role) (trimSpace update.auditActor)))
        storeAttempts { message := "" }

end Calls

section System

inductive AccountTask where
  | updateRole (update : AccountRoleUpdate)
  | ensure (identity : OAuthIdentity) (role : String)
  | link (accountID : Int) (identity : OAuthIdentity)
  | bootstrap (identity : String)

def AccountTask.body : AccountTask → AccountAction Unit
  | .updateRole update => do
      let result ← updateAccountRoleWithAudit update
      askAccount (.updated result)
  | .ensure identity role => do
      let result ← ensureAccountForOAuthIdentity identity role
      askAccount (.saved result)
  | .link accountID identity => do
      let result ← linkOAuthIdentityToAccount accountID identity
      askAccount (.saved result)
  | .bootstrap identity => do
      let _ ← bootstrapAdminAccount identity
      return ()

def accountMachine : Machine AccountOp AccountOp.Resp AccountTask AccountDatabase AccountChoice where
  body := AccountTask.body
  respond := respondAccount
  spawned _ _ _ := []
  entry _ := true
  crash db := { db with pending := [] }

abbrev AccountWorld := World AccountOp AccountOp.Resp AccountTask AccountDatabase

abbrev AccountMove := Move AccountTask AccountChoice

abbrev AccountEvent := Event AccountOp AccountOp.Resp AccountTask

/-- A database as its last user left it: the sequences are past the ids in use. -/
def openedAccounts (tables : AccountTables) (nextAccountID nextIdentityID : Int) : AccountWorld :=
  ⟨{ tables, nextAccountID, nextIdentityID }, [], []⟩

end System

end Runnerd.Accounts
