import Runnerd.AccountStore

/-!
What a transaction that saves an identity commits: a new account with its identity,
an identity of an account that was there, or no more than an update of rows that are
there. An account that it made for an identity that another transaction was faster to
insert is gone again when it commits.
-/

namespace Runnerd.Accounts

open GoText Interaction Interleaving

section Contracts

/-- What a goroutine has written since its transaction began. -/
def writesOf : List AccountAnswered → List AccountWrite
  | [] => []
  | ⟨.commit, _⟩ :: _ | ⟨.rollback, _⟩ :: _ => []
  | ⟨.createAccount role now, .ok id⟩ :: past =>
      writesOf past ++ [.insertAccount (newAccount id role now)]
  | ⟨.createIdentity row, .ok (some id)⟩ :: past => writesOf past ++ [.insertIdentity { row with id }]
  | ⟨.deleteAccount id, .ok ()⟩ :: past => writesOf past ++ [.deleteAccount id]
  | ⟨.updateLogin id login now, .ok ()⟩ :: past => writesOf past ++ [.setLogin id login now]
  | ⟨.updateRole id role now, .ok ()⟩ :: past => writesOf past ++ [.setRole id role now]
  | _ :: past => writesOf past

/-- Writes that leave nothing. -/
def Undone (writes : List AccountWrite) : Prop :=
  writes = [] ∨ ∃ account, writes = [.insertAccount account, .deleteAccount account.id]

/-- What a transaction may commit. `creates` says that it makes the account, and
`promotes` that it sets the role of an account that is there. -/
inductive Tidy (creates promotes : Bool) : List AccountWrite → Prop
  | created {account : AccountRecord} {row : OAuthIdentityRecord} (makes : creates = true)
      (own : row.accountID = account.id) :
      Tidy creates promotes [.insertAccount account, .insertIdentity row]
  | linked {row : OAuthIdentityRecord} (links : creates = false) :
      Tidy creates promotes [.insertIdentity row]
  | touched {base : List AccountWrite} (undone : Undone base) (id : Int) (login : String)
      (now : Time) : Tidy creates promotes (base ++ [.setLogin id login now])
  | promoted {base : List AccountWrite} (undone : Undone base) (id : Int) (login : String)
      (now : Time) (account : Int) (sets : promotes = true) :
      Tidy creates promotes (base ++ [.setLogin id login now, .setRole account .admin now])

/-- The account that was read last is the one of the identity. -/
def Backed (key : String × String) (past : List AccountAnswered) : Prop :=
  ∃ id account earlier, past = ⟨.findAccount id, .ok (some account)⟩ :: earlier ∧
    ((∃ row, .insertIdentity row ∈ writesOf past ∧ row.accountID = id ∧ row.providerSubject = key) ∨
    ∃ row, (⟨.findIdentity key.1 key.2, .ok (some row)⟩ : AccountAnswered) ∈ past ∧
      row.accountID = id)

/-- A call ends with the account that its transaction read last and then committed. -/
def Concluded (result : SavedIdentity) (past : List AccountAnswered) : Prop :=
  ∀ account identity, result = .ok (account, identity) → ∃ id earlier,
    past = ⟨.commit, .ok ()⟩ :: ⟨.findAccount id, .ok (some account)⟩ :: earlier

def savePermits (key : String × String) (creates promotes : Bool) (past : List AccountAnswered) :
    AccountOp → Prop
  | .now | .rollback => True
  | .findAccount _ => writesOf past = [] ∨ Tidy creates promotes (writesOf past)
  | .findIdentity provider subject => (provider, subject) = key ∧
      ∀ row, .insertIdentity row ∉ writesOf past
  | .createAccount _ _ => creates = true ∧ writesOf past = []
  | .createIdentity row => row.providerSubject = key ∧
      ((creates = true ∧ ∃ account, writesOf past = [.insertAccount account] ∧
        row.accountID = account.id) ∨ (creates = false ∧ writesOf past = []))
  | .deleteAccount id => ∃ account, writesOf past = [.insertAccount account] ∧ account.id = id
  | .updateLogin _ _ _ => Undone (writesOf past)
  | .updateRole _ role _ => role = .admin ∧ promotes = true
  | .commit => Tidy creates promotes (writesOf past) ∧ Backed key past
  | .saved result => Concluded result past
  | .updateAccountRoleOnce _ _ _ _ | .updated _ => False

def AccountAnswered.failed : AccountAnswered → Bool
  | ⟨.updateAccountRoleOnce _ _ _ _, .error _⟩ => true
  | _ => false

def AccountRoleUpdate.once (update : AccountRoleUpdate) : AccountOp :=
  .updateAccountRoleOnce update.actorAccountID update.accountID (normalizePlatformRole update.role)
    (trimSpace update.auditActor)

/-- The call ends with its first attempt that does not fail, if there is one. -/
def updatePermits (update : AccountRoleUpdate) (past : List AccountAnswered) : AccountOp → Prop
  | .updated (.error _) => ∀ call ∈ past, AccountAnswered.failed call = true
  | .updated (.ok account) => ∃ actorAccountID accountID role auditActor earlier,
      past = ⟨.updateAccountRoleOnce actorAccountID accountID role auditActor, .ok account⟩ :: earlier ∧
        ∀ call ∈ earlier, AccountAnswered.failed call = true
  | op => op = update.once ∧ past.length < storeAttempts ∧
      ∀ call ∈ past, AccountAnswered.failed call = true

def IdentitySave.key (save : IdentitySave) : String × String := (save.provider, save.subject)

def IdentitySave.permits (save : IdentitySave) : List AccountAnswered → AccountOp → Prop :=
  savePermits save.key (decide (save.accountID = 0)) save.updateExisting

def bootstrapSave (identity : String) : IdentitySave :=
  let identity := trimSpace identity
  let provider := trimSpace (cutIdentity identity).1
  let subject := trimSpace (cutIdentity identity).2
  identitySave { oauthProvider := provider, oauthSubject := subject, oauthLogin := subject } "admin"
    true 0

def accountContract : AccountTask → List AccountAnswered → AccountOp → Prop
  | .updateRole update => updatePermits update
  | .ensure identity role => (identitySave identity role false 0).permits
  | .link accountID identity => (identitySave identity "" false accountID).permits
  | .bootstrap identity => (bootstrapSave identity).permits

variable {save : IdentitySave} {past : List AccountAnswered}

/-- How a transaction leaves its goroutine. -/
def Over (result : SavedIdentity) (later : List AccountAnswered) : Prop :=
  writesOf later = [] ∧ Concluded result later

theorem abort_over (err : GoError) :
    Keeps save.permits (abortSave (α := AccountRecord × OAuthIdentityRecord) err) Over past :=
  keeps_call trivial fun _ => keeps_return ⟨rfl, fun _ _ same => by cases same⟩

theorem concludeSave_keeps {identity : OAuthIdentityRecord}
    (tidy : Tidy (decide (save.accountID = 0)) save.updateExisting (writesOf past))
    (backed : (∃ row, .insertIdentity row ∈ writesOf past ∧ row.accountID = identity.accountID ∧
        row.providerSubject = save.key) ∨
      ∃ row, (⟨.findIdentity save.provider save.subject, .ok (some row)⟩ : AccountAnswered) ∈ past ∧
        row.accountID = identity.accountID) :
    Keeps save.permits (concludeSave identity) Over past := by
  refine keeps_call (.inr tidy) fun answer => ?_
  match answer with
  | .error err => exact abort_over err
  | .ok none => exact abort_over _
  | .ok (some account) =>
      refine keeps_call ⟨tidy, identity.accountID, account, past, rfl, ?_⟩ fun committed => ?_
      · exact backed.imp id fun ⟨row, found, own⟩ => ⟨row, List.mem_cons_of_mem _ found, own⟩
      · cases committed with
        | error err => exact keeps_return ⟨rfl, fun _ _ same => by cases same⟩
        | ok _ =>
            refine keeps_return ⟨rfl, fun found row same => ?_⟩
            cases same
            exact ⟨identity.accountID, past, rfl⟩

theorem touchIdentity_keeps {now : Time} {identity : OAuthIdentityRecord}
    (admin : save.updateExisting = true → save.role = .admin) (undone : Undone (writesOf past))
    (found : (⟨.findIdentity save.provider save.subject, .ok (some identity)⟩ : AccountAnswered) ∈
      past) : Keeps save.permits (touchIdentity save now identity) Over past := by
  unfold touchIdentity
  by_cases foreign : save.accountID ≠ 0 ∧ identity.accountID ≠ save.accountID
  · rw [if_pos foreign]
    exact abort_over errConflict
  · rw [if_neg foreign]
    refine keeps_call undone fun answer => ?_
    cases answer with
    | error err => exact abort_over err
    | ok _ =>
        apply keeps_seq
        unfold promote
        by_cases promotes : save.updateExisting = true
        · rw [if_pos promotes]
          refine keeps_last ⟨admin promotes, promotes⟩ fun promoted => ?_
          cases promoted with
          | error err => exact abort_over err
          | ok _ =>
              refine concludeSave_keeps ?_ (.inr ⟨identity, ?_, rfl⟩)
              · have tidy : Tidy (decide (save.accountID = 0)) save.updateExisting
                    (_ ++ [.setLogin identity.id save.login now,
                      .setRole identity.accountID .admin now]) :=
                  .promoted undone identity.id save.login now identity.accountID promotes
                simpa [writesOf, admin promotes] using tidy
              · exact List.mem_cons_of_mem _ (List.mem_cons_of_mem _ found)
        · rw [if_neg promotes]
          refine keeps_return (concludeSave_keeps ?_ (.inr ⟨identity, ?_, rfl⟩))
          · exact .touched undone identity.id save.login now
          · exact List.mem_cons_of_mem _ found

/-- The identity that another transaction was faster to insert is read again. -/
theorem reread_keeps {now : Time}
    {next : (AccountOp.findIdentity save.provider save.subject).Resp → AccountAction SavedIdentity}
    (admin : save.updateExisting = true → save.role = .admin) (undone : Undone (writesOf past))
    (failed : ∀ err, next (.error err) = abortSave err)
    (absent : next (.ok none) = abortSave errRecordNotFound)
    (found : ∀ identity, next (.ok (some identity)) = touchIdentity save now identity) :
    Keeps save.permits (askAccount (.findIdentity save.provider save.subject) >>= next) Over past := by
  refine keeps_call ⟨rfl, fun row inserted => ?_⟩ fun answer => ?_
  · rcases undone with none | ⟨account, both⟩
    · simp [none] at inserted
    · simp [both] at inserted
  · cases answer with
    | error err =>
        rw [failed]
        exact abort_over err
    | ok answer =>
        cases answer with
        | none =>
            rw [absent]
            exact abort_over errRecordNotFound
        | some identity =>
            rw [found]
            exact touchIdentity_keeps admin undone List.mem_cons_self

theorem insertIdentity_keeps {now : Time} {accountID : Int} {created : Bool}
    (admin : save.updateExisting = true → save.role = .admin)
    (target : (created = true ∧ save.accountID = 0 ∧ ∃ account,
        writesOf past = [.insertAccount account] ∧ accountID = account.id) ∨
      (created = false ∧ save.accountID ≠ 0 ∧ writesOf past = [])) :
    Keeps save.permits (insertIdentity save now accountID created) Over past := by
  refine keeps_call ⟨rfl, ?_⟩ fun answer => ?_
  · rcases target with ⟨_, creates, account, wrote, own⟩ | ⟨_, links, wrote⟩
    · exact .inl ⟨decide_eq_true creates, account, wrote, own⟩
    · exact .inr ⟨decide_eq_false links, wrote⟩
  · match answer with
    | .error err => exact abort_over err
    | .ok (some id) =>
        refine concludeSave_keeps ?_ (.inl ⟨{ newIdentity save now accountID with id }, ?_, rfl,
          rfl⟩)
        · simp only [writesOf]
          rcases target with ⟨_, creates, account, wrote, own⟩ | ⟨_, links, wrote⟩
          · rw [wrote]
            exact .created (decide_eq_true creates) own
          · rw [wrote]
            exact .linked (decide_eq_false links)
        · simp [writesOf]
    | .ok none =>
        apply keeps_seq
        unfold undoAccount
        rcases target with ⟨made, _, account, wrote, own⟩ | ⟨made, _, wrote⟩
        · rw [if_pos made]
          refine keeps_last ⟨account, wrote, own.symm⟩ fun deleted => ?_
          cases deleted with
          | error err => exact abort_over err
          | ok _ =>
              refine reread_keeps admin (.inr ⟨account, ?_⟩) (fun _ => rfl) rfl fun _ => rfl
              simp [writesOf, wrote, own]
        · rw [if_neg (by simp [made])]
          exact keeps_return (reread_keeps admin (.inl wrote) (fun _ => rfl) rfl fun _ => rfl)

theorem saveOnce_keeps (admin : save.updateExisting = true → save.role = .admin)
    (idle : writesOf past = []) :
    Keeps save.permits (saveOAuthIdentityOnce save) Over past := by
  refine keeps_call trivial fun now => keeps_call ⟨rfl, fun row inserted => ?_⟩ fun answer => ?_
  · simp [writesOf, idle] at inserted
  · match answer with
    | .error err => exact abort_over err
    | .ok (some identity) => exact touchIdentity_keeps admin (.inl idle) List.mem_cons_self
    | .ok none =>
        apply keeps_seq
        unfold targetAccount
        by_cases creates : save.accountID = 0
        · rw [if_pos creates]
          refine keeps_call ⟨decide_eq_true creates, idle⟩ fun made => ?_
          cases made with
          | error err => exact keeps_return (abort_over err)
          | ok id =>
              refine keeps_return (insertIdentity_keeps admin
                (.inl ⟨rfl, creates, newAccount id save.role now, ?_, rfl⟩))
              simp [writesOf, idle]
        · rw [if_neg creates]
          refine keeps_call (.inl idle) fun found => ?_
          match found with
          | .error err => exact keeps_return (abort_over err)
          | .ok none => exact keeps_return (abort_over errNotFound)
          | .ok (some _) =>
              exact keeps_return (insertIdentity_keeps admin (.inr ⟨rfl, creates, idle⟩))

theorem retrying_keeps {contract : List AccountAnswered → AccountOp → Prop}
    {once : AccountAction SavedIdentity}
    (each : ∀ past, writesOf past = [] → Keeps contract once Over past) (attempts : Nat)
    (lastErr : GoError) (idle : writesOf past = []) :
    Keeps contract (retrying once attempts lastErr) Over past := by
  induction attempts generalizing past lastErr with
  | zero => exact keeps_return ⟨idle, fun _ _ same => by cases same⟩
  | succ attempts ih =>
      apply keeps_seq
      refine keeps_mono ?_ (each past idle)
      intro result later over_
      cases result with
      | ok value => exact keeps_return over_
      | error err =>
          dsimp only
          by_cases transient : isTransientStoreError err = true
          · rw [if_pos transient]
            exact ih err over_.1
          · rw [if_neg transient]
            exact keeps_return over_

theorem save_keeps (identity : OAuthIdentity) (role : String) (updateExisting : Bool)
    (accountID : Int) (admin : updateExisting = true → normalizePlatformRole role = .admin) :
    Keeps (identitySave identity role updateExisting accountID).permits
      (saveOAuthIdentity identity role updateExisting accountID) Over [] := by
  have idle : writesOf [] = [] := rfl
  generalize saved : identitySave identity role updateExisting accountID = save
  have promotes : save.updateExisting = true → save.role = .admin := by
    simpa only [← saved, identitySave] using admin
  unfold saveOAuthIdentity
  simp only [saved]
  cases save.invalid with
  | some err => exact keeps_return ⟨idle, fun _ _ same => by cases same⟩
  | none => exact retrying_keeps (fun _ idle => saveOnce_keeps promotes idle) storeAttempts _ idle

theorem updates_keeps (update : AccountRoleUpdate) (attempts : Nat) (lastErr : GoError)
    (count : past.length + attempts ≤ storeAttempts)
    (failed : ∀ call ∈ past, AccountAnswered.failed call = true) :
    Keeps (updatePermits update) (retrying (askAccount (.updateAccountRoleOnce
      update.actorAccountID update.accountID (normalizePlatformRole update.role)
      (trimSpace update.auditActor))) attempts lastErr)
      (fun result later => updatePermits update later (.updated result)) past := by
  induction attempts generalizing past lastErr with
  | zero => exact keeps_return failed
  | succ attempts ih =>
      refine keeps_call ⟨rfl, by omega, failed⟩ fun answer => ?_
      cases answer with
      | ok account => exact keeps_return ⟨_, _, _, _, past, rfl, failed⟩
      | error err =>
          have failed' : ∀ call ∈ (⟨.updateAccountRoleOnce update.actorAccountID update.accountID
              (normalizePlatformRole update.role) (trimSpace update.auditActor), .error err⟩ ::
              past : List AccountAnswered), AccountAnswered.failed call = true := by
            intro call member
            rcases List.mem_cons.mp member with rfl | older
            · rfl
            · exact failed call older
          dsimp only
          by_cases transient : isTransientStoreError err = true
          · rw [if_pos transient]
            refine ih err ?_ failed'
            simp only [List.length_cons]
            omega
          · rw [if_neg transient]
            exact keeps_return failed'

theorem account_keeps (task : AccountTask) :
    Keeps (accountContract task) task.body (fun _ _ => True) [] := by
  cases task with
  | updateRole update =>
      apply keeps_seq
      unfold updateAccountRoleWithAudit
      split
      · exact keeps_return (keeps_last (fun _ member => by cases member) fun _ => trivial)
      · refine keeps_mono (fun _ _ permitted => keeps_last permitted fun _ => trivial)
          (updates_keeps update _ _ ?_ ?_)
        · exact le_of_eq (Nat.zero_add _)
        · intro call member
          cases member
  | ensure identity role =>
      apply keeps_seq
      refine keeps_mono ?_ (save_keeps identity role false 0 fun same => by cases same)
      exact fun result later over_ => keeps_last over_.2 fun _ => trivial
  | link accountID identity =>
      apply keeps_seq
      refine keeps_mono ?_ (save_keeps identity "" false accountID fun same => by cases same)
      exact fun result later over_ => keeps_last over_.2 fun _ => trivial
  | bootstrap identity =>
      apply keeps_seq
      unfold bootstrapAdminAccount
      dsimp only
      split
      · exact keeps_return (keeps_return trivial)
      · split
        · exact keeps_return (keeps_return trivial)
        · apply keeps_seq
          refine keeps_mono ?_ (save_keeps _ "admin" true 0 fun _ => by decide +kernel)
          exact fun _ _ _ => keeps_return (keeps_return trivial)

variable {condition : AccountWorld → AccountMove → Prop} {world : AccountWorld}
variable {tables : AccountTables} {nextAccountID nextIdentityID : Int}

theorem account_obeys (reaches : accountMachine.Reaches condition
    (openedAccounts tables nextAccountID nextIdentityID) world) :
    Machine.Obeys accountContract world := by
  refine Machine.obeys_reachable account_keeps ?_ reaches
  constructor
  · intro tid thread live
    cases live
  · intro tid thread live
    cases live

end Contracts

end Runnerd.Accounts
