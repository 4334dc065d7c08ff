import Runnerd.AccountCommits

/-!
The administrators, and the audit of role changes. An account loses its role only by
an update at SERIALIZABLE, which another administrator asks for and which writes the
change down. The identities that are saved make accounts and administrators only.
-/

namespace Runnerd.Accounts

open GoText Interaction Interleaving

section Administrators

def AccountTables.HasAdmin (tables : AccountTables) : Prop :=
  ∃ account ∈ tables.accounts.rows, account.role = .admin

variable {before after : AccountTables}

theorem hasAdmin_more (more : ∀ account ∈ before.accounts.rows, account ∈ after.accounts.rows)
    (has : before.HasAdmin) : after.HasAdmin := by
  obtain ⟨account, present, admin⟩ := has
  exact ⟨account, more account present, admin⟩

theorem hasAdmin_commits {creates promotes : Bool} {writes : List AccountWrite}
    (commits : Commits creates promotes writes before after) (has : before.HasAdmin) :
    after.HasAdmin := by
  cases commits with
  | created account row makes own wrote accounts identities audit =>
      refine hasAdmin_more (fun found member => ?_) has
      rw [accounts]
      exact List.mem_append_left _ member
  | linked row wrote rows => exact has
  | touched id login now wrote => exact has
  | promoted id login now promotedID sets wrote =>
      obtain ⟨account, present, admin⟩ := has
      by_cases named : account.id = promotedID
      · refine ⟨{ account with role := .admin, updatedAt := now }, ?_, rfl⟩
        refine KeyedTable.mem_update.mpr ⟨account, present, ?_⟩
        simp [named, roleEdit]
      · refine ⟨account, KeyedTable.mem_update.mpr ⟨account, present, ?_⟩, admin⟩
        simp [named]

/-- The administrator who asks for an update stays one. -/
theorem hasAdmin_updated {now : Time} {actorAccountID accountID : Int} {role : PlatformRole}
    {auditActor : String} {updated : AccountRecord}
    (done : updateAccountRoleWithAuditOnce now actorAccountID accountID role auditActor before =
      .ok (updated, after)) : after.HasAdmin := by
  obtain ⟨⟨actor, present, admin, other⟩, updates⟩ := roleOnce_updated done
  cases updates with
  | kept _ named already => exact ⟨actor, present, admin⟩
  | changed _ named different rows =>
      refine ⟨actor, ?_, admin⟩
      dsimp only
      rw [rows]
      exact List.mem_map.mpr ⟨actor, present, if_neg other⟩

variable {world later : AccountWorld} {tid : Nat} {choice : AccountChoice}
variable {thread : Thread AccountOp AccountOp.Resp AccountTask} {op : AccountOp} {resp : op.Resp}
variable {rest : AccountAction Unit} {state : AccountDatabase}

theorem hasAdmin_acts (obeys : Machine.Obeys accountContract world)
    (consistent : Consistent world)
    (acts : accountMachine.Acts world tid choice thread op resp rest state)
    (has : world.state.tables.HasAdmin) : state.tables.HasAdmin := by
  have permitted := obeys.permits acts
  have effect : AccountEffect tid world.state ⟨op, resp⟩ state := respondAccount_effect acts.answer
  cases effect with
  | quiet wrote => exact has
  | account role now => exact has
  | identity row alone free => exact has
  | edited wrote account identity => exact has
  | closed wrote => exact has
  | committed =>
      obtain ⟨key, creates, promotes, tidy, _⟩ :=
        permitted_save permitted fun update permits => by cases permits.1
      exact hasAdmin_commits (consistent.commits acts tidy) has
  | ranked changed => exact hasAdmin_updated changed

variable {condition : AccountWorld → AccountMove → Prop}
variable {tables : AccountTables} {nextAccountID nextIdentityID : Int}

theorem hasAdmin_reachable (used : ∀ account ∈ tables.accounts.rows, account.id < nextAccountID)
    (reaches : accountMachine.Reaches condition
      (openedAccounts tables nextAccountID nextIdentityID) world)
    (further : accountMachine.Reaches condition world later)
    (has : world.state.tables.HasAdmin) : later.state.tables.HasAdmin := by
  induction further with
  | refl => exact has
  | step move middle _ stepped ih =>
      have so_far := reaches.trans middle
      obtain ⟨tid, choice, thread, op, resp, rest, state, rfl, acts, rfl⟩ | ⟨task, rfl, _, rfl⟩ |
        ⟨rfl, rfl⟩ := accountMachine.step_cases stepped
      · exact hasAdmin_acts (account_obeys so_far) (consistent_reachable used so_far) acts ih
      · exact ih
      · exact ih

end Administrators

section Audits

variable {world : AccountWorld} {tid : Nat} {choice : AccountChoice}
variable {thread : Thread AccountOp AccountOp.Resp AccountTask} {op : AccountOp} {resp : op.Resp}
variable {rest : AccountAction Unit} {state : AccountDatabase}

/-- Only a call of `UpdateAccountRoleWithAudit` speaks as one. -/
theorem permitted_update {task : AccountTask} {past : List AccountAnswered}
    (permitted : accountContract task past op)
    (updates : ∀ key creates promotes, ¬savePermits key creates promotes past op) :
    ∃ update, task = .updateRole update ∧ updatePermits update past op := by
  cases task with
  | updateRole update => exact ⟨update, rfl, permitted⟩
  | ensure identity role => exact absurd permitted (updates _ _ _)
  | link accountID identity => exact absurd permitted (updates _ _ _)
  | bootstrap identity => exact absurd permitted (updates _ _ _)

theorem commits_audit {creates promotes : Bool} {writes : List AccountWrite}
    {before after : AccountTables} (commits : Commits creates promotes writes before after) :
    after.audit = before.audit := by
  cases commits with
  | created account row makes own wrote accounts identities audit => exact audit
  | linked row wrote rows => rfl
  | touched id login now wrote => rfl
  | promoted id login now account sets wrote => rfl

/-- What one transaction of `UpdateAccountRoleWithAudit` leaves. -/
def Attempted (before after : AccountDatabase) (accountID : Int) (role : PlatformRole)
    (auditActor : String) : Except GoError AccountRecord → Prop
  | .error _ => after = before
  | .ok updated => ∃ now tables, after = { before with tables } ∧
      RoleUpdated now accountID role auditActor before.tables updated tables

theorem attempted_acts {actorAccountID accountID : Int} {role : PlatformRole} {auditActor : String}
    {result : AccountOp.Resp (.updateAccountRoleOnce actorAccountID accountID role auditActor)}
    (acts : accountMachine.Acts world tid choice thread
      (.updateAccountRoleOnce actorAccountID accountID role auditActor) result rest state) :
    Attempted world.state state accountID role auditActor result := by
  have answer : respondAccount tid choice world.state
    (.updateAccountRoleOnce actorAccountID accountID role auditActor) = some (result, state) :=
    acts.answer
  simp only [respondAccount] at answer
  split at answer
  · cases answer
  · split at answer
    · cases answer
      rfl
    · cases answer
      rfl
    · rename_i changed
      cases answer
      exact ⟨_, _, rfl, (roleOnce_updated changed).2⟩

/-- How a call of `UpdateAccountRoleWithAudit` may end: with an error after attempts
that all failed, or with its first attempt that did not. -/
def Ended (past : List AccountAnswered) : Except GoError AccountRecord → Prop
  | .error _ => ∀ call ∈ past, AccountAnswered.failed call = true
  | .ok updated => ∃ actorAccountID accountID role auditActor earlier,
      past = ⟨.updateAccountRoleOnce actorAccountID accountID role auditActor, .ok updated⟩ ::
        earlier ∧ ∀ call ∈ earlier, AccountAnswered.failed call = true

/-- What holds of the accounts and of the audit events whenever runnerd runs. -/
structure RolesGuarded (world : AccountWorld) : Prop where
  /-- Once there is an administrator, there always is one. -/
  admin : world.state.tables.HasAdmin → ∀ later,
    accountMachine.Reaches (fun _ _ => True) world later → later.state.tables.HasAdmin
  attempt : ∀ tid choice thread actorAccountID accountID role auditActor result rest state,
    accountMachine.Acts world tid choice thread
      (.updateAccountRoleOnce actorAccountID accountID role auditActor) result rest state →
    (∃ update, thread.task = .updateRole update ∧
      update.once = .updateAccountRoleOnce actorAccountID accountID role auditActor) ∧
    thread.past.length < storeAttempts ∧
    (∀ call ∈ thread.past, AccountAnswered.failed call = true) ∧
    Attempted world.state state accountID role auditActor result
  ended : ∀ tid choice thread result answer rest state,
    accountMachine.Acts world tid choice thread (.updated result) answer rest state →
    Ended thread.past result ∧ state = world.state
  /-- Nothing else writes to the audit events. -/
  audit : ∀ tid choice thread (op : AccountOp) resp rest state,
    accountMachine.Acts world tid choice thread op resp rest state →
    (∀ actorAccountID accountID role auditActor,
      op ≠ .updateAccountRoleOnce actorAccountID accountID role auditActor) →
    state.tables.audit = world.state.tables.audit

variable {condition : AccountWorld → AccountMove → Prop}
variable {tables : AccountTables} {nextAccountID nextIdentityID : Int}

theorem audit_acts (obeys : Machine.Obeys accountContract world) (consistent : Consistent world)
    (acts : accountMachine.Acts world tid choice thread op resp rest state)
    (other : ∀ actorAccountID accountID role auditActor,
      op ≠ .updateAccountRoleOnce actorAccountID accountID role auditActor) :
    state.tables.audit = world.state.tables.audit := by
  have permitted := obeys.permits acts
  have effect : AccountEffect tid world.state ⟨op, resp⟩ state := respondAccount_effect acts.answer
  cases effect with
  | quiet wrote => rfl
  | account role now => rfl
  | identity row alone free => rfl
  | edited wrote account identity => rfl
  | closed wrote => rfl
  | committed =>
      obtain ⟨key, creates, promotes, tidy, _⟩ :=
        permitted_save permitted fun update permits => by cases permits.1
      exact commits_audit (consistent.commits acts tidy)
  | ranked changed => exact absurd rfl (other _ _ _ _)

theorem roles_guarded (used : ∀ account ∈ tables.accounts.rows, account.id < nextAccountID)
    (reaches : accountMachine.Reaches (fun _ _ => True)
      (openedAccounts tables nextAccountID nextIdentityID) world) : RolesGuarded world where
  admin has _ further := hasAdmin_reachable used reaches further has
  attempt tid choice thread actorAccountID accountID role auditActor result rest state acts := by
    obtain ⟨update, task, once, count, failed⟩ :=
      permitted_update ((account_obeys reaches).permits acts) fun _ _ _ permits => permits
    exact ⟨⟨update, task, once.symm⟩, count, failed, attempted_acts acts⟩
  ended tid choice thread result answer rest state acts := by
    obtain ⟨update, _, permits⟩ :=
      permitted_update ((account_obeys reaches).permits acts) fun _ _ _ permits => permits
    have answered : respondAccount tid choice world.state (.updated result) =
      some (answer, state) := acts.answer
    cases answered
    cases result with
    | error err => exact ⟨permits, rfl⟩
    | ok updated => exact ⟨permits, rfl⟩
  audit tid choice thread op resp rest state acts other :=
    audit_acts (account_obeys reaches) (consistent_reachable used reaches) acts other

/-- An administrator is set up, another account signs in, and it is made an
administrator by the second attempt of a call. -/
def promotionMoves : List AccountMove :=
  [.start (.bootstrap "github:7"), .run 0 {}, .run 0 {}, .run 0 {}, .run 0 {}, .run 0 {}, .run 0 {},
   .start (.ensure { oauthProvider := "github", oauthSubject := "8", oauthLogin := "bob" } "user"),
   .run 1 {}, .run 1 {}, .run 1 {}, .run 1 {}, .run 1 {}, .run 1 {}, .run 1 {},
   .start (.updateRole { actorAccountID := 1, accountID := 2, role := "admin", auditActor := "ann" }),
   .run 2 { fault := some { message := "SQLSTATE 40001" } }, .run 2 { now := 5 }, .run 2 {}]

theorem roles_guarded_promotion : ∃ world, RolesGuarded world ∧
    (world.state.tables.accounts.rows.map fun account => (account.id, account.role)) =
      [(1, .admin), (2, .admin)] ∧
    (world.state.tables.audit.map fun event => (event.resourceID, event.payload)) =
      [("2", { oldRole := .user, newRole := .admin })] := by
  have ran : (accountMachine.runChecked (fun _ _ => true) promotionMoves
      (openedAccounts {} 1 1)).any (fun world => decide
        ((world.state.tables.accounts.rows.map fun account => (account.id, account.role)) =
          [(1, .admin), (2, .admin)] ∧
        (world.state.tables.audit.map fun event => (event.resourceID, event.payload)) =
          [("2", { oldRole := .user, newRole := .admin })])) = true := by decide +kernel
  obtain ⟨world, reaches, found⟩ := Machine.reaches_any ran
  refine ⟨world, roles_guarded ?_ (reaches.weaken fun _ _ _ => trivial), of_decide_eq_true found⟩
  exact fun account member => by cases member

end Audits

end Runnerd.Accounts
