import Runnerd.AccountCommits

/-!
One account for one identity. Of the transactions that find no identity with a key,
one inserts it. The others wait for that, delete the accounts that they have made,
and read its account.
-/

namespace Runnerd.Accounts

open GoText Interaction Interleaving

section Growth

/-- The runs in which every call is an `EnsureAccountForOAuthIdentity` for one key. -/
def ensuresOnly (key : String × String) (_ : AccountWorld) : AccountMove → Prop
  | .start task => ∃ identity role, task = .ensure identity role ∧
      (normalizeOAuthProvider identity.oauthProvider,
        normalizeOAuthSubject identity.oauthSubject) = key
  | _ => True

/-- An identity with the key belongs to the account. -/
def Names (key : String × String) (accountID : Int) (tables : AccountTables) : Prop :=
  ∃ row ∈ tables.identities.rows, row.providerSubject = key ∧ row.accountID = accountID

/-- Accounts stay as they are, and identities stay with their accounts. -/
structure Grown (before after : AccountTables) : Prop where
  accounts : ∀ account ∈ before.accounts.rows, account ∈ after.accounts.rows
  identities : ∀ row ∈ before.identities.rows, Names row.providerSubject row.accountID after

theorem grown_refl (tables : AccountTables) : Grown tables tables :=
  ⟨fun _ member => member, fun row member => ⟨row, member, rfl, rfl⟩⟩

variable {before after : AccountTables} {key : String × String} {accountID : Int}

theorem names_grown (grown : Grown before after) (names : Names key accountID before) :
    Names key accountID after := by
  obtain ⟨row, present, rfl, rfl⟩ := names
  exact grown.identities row present

theorem setLogin_grown (tables : AccountTables) (id : Int) (login : String) (now : Time) :
    Grown tables ((AccountWrite.setLogin id login now).run tables) := by
  constructor
  · exact fun account member => member
  · intro row member
    by_cases named : row.id = id
    · refine ⟨{ row with oauthLogin := login, updatedAt := now }, ?_, rfl, rfl⟩
      refine KeyedTable.mem_update.mpr ⟨row, member, ?_⟩
      simp [named, loginEdit]
    · refine ⟨row, KeyedTable.mem_update.mpr ⟨row, member, ?_⟩, rfl, rfl⟩
      simp [named]

theorem commits_grown {writes : List AccountWrite} (commits : Commits true false writes before after) :
    Grown before after := by
  cases commits with
  | created account row makes own wrote accounts identities audit =>
      constructor
      · intro found member
        rw [accounts]
        exact List.mem_append_left _ member
      · intro found member
        refine ⟨found, ?_, rfl, rfl⟩
        rw [identities]
        exact List.mem_append_left _ member
  | linked row wrote rows =>
      constructor
      · exact fun found member => member
      · intro found member
        refine ⟨found, ?_, rfl, rfl⟩
        dsimp only
        rw [rows]
        exact List.mem_append_left _ member
  | touched id login now wrote => exact setLogin_grown before id login now
  | promoted id login now account sets wrote => cases sets

/-- What a commit adds to the accounts has an identity. -/
theorem commits_backed {writes : List AccountWrite} (commits : Commits true false writes before after)
    (keyed : ∀ row, .insertIdentity row ∈ writes → row.providerSubject = key) :
    ∀ account ∈ after.accounts.rows, account ∈ before.accounts.rows ∨ Names key account.id after := by
  cases commits with
  | created account row makes own wrote accounts identities audit =>
      intro found member
      rw [accounts] at member
      rcases List.mem_append.mp member with older | last
      · exact .inl older
      · cases List.mem_singleton.mp last
        refine .inr ⟨row, ?_, keyed row (by simp [wrote]), own⟩
        rw [identities]
        exact List.mem_append_right _ List.mem_cons_self
  | linked row wrote rows => exact fun found member => .inl member
  | touched id login now wrote => exact fun found member => .inl member
  | promoted id login now account sets wrote => cases sets

/-- The identities that are there before a transaction inserts one. -/
theorem view_identity {writes : List AccountWrite} {tables : AccountTables}
    (none : ∀ row, .insertIdentity row ∉ writes) {row : OAuthIdentityRecord}
    (member : row ∈ (writes.foldl AccountWrite.run tables).identities.rows) :
    Names row.providerSubject row.accountID tables := by
  induction writes generalizing tables with
  | nil => exact ⟨row, member, rfl, rfl⟩
  | cons written writes ih =>
      have known := ih (fun row later => none row (List.mem_cons_of_mem _ later)) member
      cases written with
      | insertIdentity made => exact absurd List.mem_cons_self (none made)
      | insertAccount made => exact known
      | deleteAccount id => exact known
      | setRole id role now => exact known
      | setLogin id login now =>
          obtain ⟨found, present, same, own⟩ := known
          obtain ⟨old, older, rfl⟩ := KeyedTable.mem_update.mp present
          refine ⟨old, older, ?_, ?_⟩
          · rw [← same]
            split
            · rfl
            · rfl
          · rw [← own]
            split
            · rfl
            · rfl

end Growth

section Knowledge

/-- An account that is there is the one of the key. -/
def Settled (key : String × String) (account : AccountRecord) (tables : AccountTables) : Prop :=
  account ∈ tables.accounts.rows ∧ Names key account.id tables

variable {before after : AccountTables} {key : String × String}

theorem settled_grown (grown : Grown before after) {account : AccountRecord}
    (settled : Settled key account before) : Settled key account after :=
  ⟨grown.accounts account settled.1, names_grown grown settled.2⟩

/-- What the calls of a goroutine still say about the tables. -/
structure Knows (key : String × String) (tables : AccountTables) (past : List AccountAnswered) :
    Prop where
  keyed : ∀ row, .insertIdentity row ∈ writesOf past → row.providerSubject = key
  read : ∀ row, (⟨.findIdentity key.1 key.2, .ok (some row)⟩ : AccountAnswered) ∈ past →
    Names key row.accountID tables
  looked : ∀ id account earlier, past = ⟨.findAccount id, .ok (some account)⟩ :: earlier →
    account.id = id ∧ (account ∈ tables.accounts.rows ∨
      ∃ row, writesOf past = [.insertAccount account, .insertIdentity row])
  concluded : ∀ id account earlier,
    past = ⟨.commit, .ok ()⟩ :: ⟨.findAccount id, .ok (some account)⟩ :: earlier →
    Settled key account tables

theorem knows_grown (grown : Grown before after) {past : List AccountAnswered}
    (knows : Knows key before past) : Knows key after past where
  keyed := knows.keyed
  read row member := names_grown grown (knows.read row member)
  looked id account earlier same :=
    (knows.looked id account earlier same).imp_right (.imp_left (grown.accounts account))
  concluded id account earlier same := settled_grown grown (knows.concluded id account earlier same)

variable {world : AccountWorld} {tid : Nat} {choice : AccountChoice}
variable {thread : Thread AccountOp AccountOp.Resp AccountTask} {op : AccountOp} {resp : op.Resp}
variable {rest : AccountAction Unit} {state : AccountDatabase} {past : List AccountAnswered}

theorem found_identity (consistent : Consistent world) {provider subject : String}
    {row : OAuthIdentityRecord}
    (acts : accountMachine.Acts world tid choice thread (.findIdentity provider subject)
      (.ok (some row)) rest state)
    (permitted : savePermits key true false thread.past (.findIdentity provider subject)) :
    Names key row.accountID world.state.tables := by
  obtain ⟨same, none⟩ := permitted
  have answer : respondAccount tid choice world.state (.findIdentity provider subject) =
    some (.ok (some row), state) := acts.answer
  rcases unlessFailed_cases answer with ⟨err, failed, _⟩ | ⟨value, ok, given⟩
  · cases failed
  · cases ok
    have found : (world.state.view tid).identities.find (provider, subject) = some row := by
      simp only [Option.some.injEq, Prod.mk.injEq] at given
      exact given.1
    obtain ⟨member, named⟩ := KeyedTable.find_some.mp found
    rw [consistent.view acts] at member
    have known := view_identity none member
    rwa [named, same] at known

theorem found_account (consistent : Consistent world) {id : Int} {account : AccountRecord}
    (acts : accountMachine.Acts world tid choice thread (.findAccount id) (.ok (some account)) rest
      state)
    (permitted : savePermits key true false thread.past (.findAccount id)) :
    account.id = id ∧ (account ∈ world.state.tables.accounts.rows ∨
      ∃ row, writesOf thread.past = [.insertAccount account, .insertIdentity row]) := by
  have answer : respondAccount tid choice world.state (.findAccount id) =
    some (.ok (some account), state) := acts.answer
  rcases unlessFailed_cases answer with ⟨err, failed, _⟩ | ⟨value, ok, given⟩
  · cases failed
  · cases ok
    have found : (world.state.view tid).accounts.find id = some account := by
      simp only [Option.some.injEq, Prod.mk.injEq] at given
      exact given.1
    obtain ⟨member, named⟩ := KeyedTable.find_some.mp found
    refine ⟨named, ?_⟩
    rcases permitted with idle | tidy
    · rw [consistent.view acts, idle] at member
      exact .inl member
    · have commits := consistent.commits acts tidy
      generalize world.state.view tid = view at commits member
      cases commits with
      | created made row makes own wrote accounts identities audit =>
          rw [accounts] at member
          rcases List.mem_append.mp member with older | last
          · exact .inl older
          · cases List.mem_singleton.mp last
            exact .inr ⟨row, wrote⟩
      | linked row wrote rows => exact .inl member
      | touched id login now wrote => exact .inl member
      | promoted id login now account sets wrote => cases sets

theorem commits_settled {writes : List AccountWrite} (commits : Commits true false writes before after)
    {account : AccountRecord} {accountID : Int} (own : account.id = accountID)
    (there : account ∈ before.accounts.rows ∨
      ∃ row, writes = [.insertAccount account, .insertIdentity row])
    (backed : (∃ row, .insertIdentity row ∈ writes ∧ row.accountID = accountID ∧
      row.providerSubject = key) ∨ Names key accountID before) : Settled key account after := by
  have grown := commits_grown commits
  constructor
  · rcases there with older | ⟨row, wrote⟩
    · exact grown.accounts account older
    · subst wrote
      cases commits with
      | created made _ makes _ wrote accounts identities audit =>
          cases wrote
          rw [accounts]
          exact List.mem_append_right _ List.mem_cons_self
      | linked _ wrote rows => cases wrote
      | touched id login now wrote => exact absurd (by simp) (wrote row)
      | promoted id login now account sets wrote => cases sets
  · rcases backed with ⟨row, inserted, belongs, keyed⟩ | names
    · cases commits with
      | created made found makes _ wrote accounts identities audit =>
          have same : row = found := by simpa [wrote] using inserted
          refine ⟨row, ?_, keyed, belongs.trans own.symm⟩
          rw [identities, same]
          exact List.mem_append_right _ List.mem_cons_self
      | linked found wrote rows =>
          have same : row = found := by simpa [wrote] using inserted
          refine ⟨row, ?_, keyed, belongs.trans own.symm⟩
          dsimp only
          rw [rows, same]
          exact List.mem_append_right _ List.mem_cons_self
      | touched id login now wrote => exact absurd inserted (wrote row)
      | promoted id login now account sets wrote => cases sets
    · rw [own]
      exact names_grown grown names

/-- The calls of this kind of run leave accounts and identities where they are. -/
theorem grown_acts (consistent : Consistent world)
    (acts : accountMachine.Acts world tid choice thread op resp rest state)
    (permitted : savePermits key true false thread.past op) :
    Grown world.state.tables state.tables := by
  have effect : AccountEffect tid world.state ⟨op, resp⟩ state := respondAccount_effect acts.answer
  cases effect with
  | quiet wrote => exact grown_refl _
  | account role now => exact grown_refl _
  | identity row alone free => exact grown_refl _
  | edited wrote account identity => exact grown_refl _
  | closed wrote => exact grown_refl _
  | committed => exact commits_grown (consistent.commits acts permitted.1)
  | ranked changed => exact absurd permitted id

theorem committed_tables (acts : accountMachine.Acts world tid choice thread .commit (.ok ()) rest
    state) : state.tables = world.state.view tid := by
  have answer : respondAccount tid choice world.state .commit = some (.ok (), state) := acts.answer
  rcases unlessFailed_cases answer with ⟨err, failed, _⟩ | ⟨value, ok, given⟩
  · cases failed
  · cases given
    rfl

theorem keyed_own (acts : accountMachine.Acts world tid choice thread op resp rest state)
    (permitted : savePermits key true false thread.past op)
    (keyed : ∀ row, .insertIdentity row ∈ writesOf thread.past → row.providerSubject = key) :
    ∀ row, .insertIdentity row ∈ writesOf (⟨op, resp⟩ :: thread.past) → row.providerSubject = key := by
  have effect : AccountEffect tid world.state ⟨op, resp⟩ state := respondAccount_effect acts.answer
  intro row member
  cases effect with
  | quiet wrote =>
      rw [wrote] at member
      exact keyed row member
  | account role now =>
      rcases List.mem_append.mp member with older | last
      · exact keyed row older
      · simp at last
  | identity made alone free =>
      rcases List.mem_append.mp member with older | last
      · exact keyed row older
      · cases List.mem_singleton.mp last
        exact permitted.1
  | edited wrote account identity =>
      rw [wrote] at member
      rcases List.mem_append.mp member with older | last
      · exact keyed row older
      · exact absurd (List.mem_singleton.mp last).symm (identity row)
  | closed wrote =>
      rw [wrote] at member
      cases member
  | committed => cases member
  | ranked changed => exact absurd permitted id

theorem knows_own (consistent : Consistent world)
    (acts : accountMachine.Acts world tid choice thread op resp rest state)
    (permitted : savePermits key true false thread.past op)
    (knows : Knows key world.state.tables thread.past) :
    Knows key state.tables (⟨op, resp⟩ :: thread.past) := by
  have grown := grown_acts consistent acts permitted
  constructor
  · exact keyed_own acts permitted knows.keyed
  · intro row member
    rcases List.mem_cons.mp member with last | older
    · cases last
      exact names_grown grown (found_identity consistent acts permitted)
    · exact names_grown grown (knows.read row older)
  · intro id account earlier same
    cases same
    exact (found_account consistent acts permitted).imp_right
      (.imp (grown.accounts account) fun wrote => wrote)
  · intro id account earlier same
    obtain ⟨last, found⟩ := List.cons.inj same
    cases last
    obtain ⟨tidy, named, read, before, past, backed⟩ := permitted
    rw [found] at past
    cases past
    obtain ⟨own, there⟩ := knows.looked id account earlier found
    rw [committed_tables acts]
    refine commits_settled (consistent.commits acts tidy) own there (backed.imp_right ?_)
    rintro ⟨row, member, rfl⟩
    exact knows.read row member

end Knowledge

section Accounts

variable {start : AccountTables} {key : String × String} {world : AccountWorld}

/-- What holds in every state of such a run. -/
structure OneKey (start : AccountTables) (key : String × String) (world : AccountWorld) : Prop where
  tasks : ∀ (tid : Nat) (thread : Thread AccountOp AccountOp.Resp AccountTask),
    world.threads[tid]? = some thread → ∃ identity role, thread.task = .ensure identity role ∧
      (normalizeOAuthProvider identity.oauthProvider,
        normalizeOAuthSubject identity.oauthSubject) = key
  kept : ∀ account ∈ start.accounts.rows, account ∈ world.state.tables.accounts.rows
  backed : ∀ account ∈ world.state.tables.accounts.rows,
    account ∈ start.accounts.rows ∨ Names key account.id world.state.tables
  knows : Machine.Informed (fun (state : AccountDatabase) (_ : List AccountEvent) (_ : Nat)
    (_ : AccountTask) past => Knows key state.tables past) world
  saved : ∀ event ∈ world.trace, ∀ account identity,
    event.call = ⟨.saved (.ok (account, identity)), ()⟩ → Settled key account world.state.tables

variable {tid : Nat} {choice : AccountChoice}
variable {thread : Thread AccountOp AccountOp.Resp AccountTask} {op : AccountOp} {resp : op.Resp}
variable {rest : AccountAction Unit} {state : AccountDatabase}

theorem OneKey.permits (oneKey : OneKey start key world)
    (obeys : Machine.Obeys accountContract world)
    (acts : accountMachine.Acts world tid choice thread op resp rest state) :
    savePermits key true false thread.past op := by
  obtain ⟨identity, role, task, rfl⟩ := oneKey.tasks tid thread acts.live
  have permitted := obeys.permits acts
  rw [task] at permitted
  exact permitted

/-- The identities that a transaction inserts have its key. -/
theorem backed_acts (oneKey : OneKey start key world) (obeys : Machine.Obeys accountContract world)
    (consistent : Consistent world)
    (acts : accountMachine.Acts world tid choice thread op resp rest state) :
    ∀ account ∈ state.tables.accounts.rows,
      account ∈ start.accounts.rows ∨ Names key account.id state.tables := by
  have permitted := oneKey.permits obeys acts
  have grown := grown_acts consistent acts permitted
  have older (account : AccountRecord) (member : account ∈ world.state.tables.accounts.rows) :
      account ∈ start.accounts.rows ∨ Names key account.id state.tables :=
    (oneKey.backed account member).imp_right (names_grown grown)
  have effect : AccountEffect tid world.state ⟨op, resp⟩ state := respondAccount_effect acts.answer
  cases effect with
  | quiet wrote => exact older
  | account role now => exact older
  | identity row alone free => exact older
  | edited wrote account identity => exact older
  | closed wrote => exact older
  | committed =>
      intro account member
      have keyed := (oneKey.knows.actor acts).keyed
      rcases commits_backed (consistent.commits acts permitted.1) keyed account member with
        there | names
      · exact older account there
      · exact .inr names
  | ranked changed => exact absurd permitted id

theorem oneKey_acted (oneKey : OneKey start key world) (obeys : Machine.Obeys accountContract world)
    (consistent : Consistent world)
    (acts : accountMachine.Acts world tid choice thread op resp rest state)
    (stepped : accountMachine.step world (.run tid choice) =
      some (accountMachine.acted world tid thread op resp rest state)) :
    OneKey start key (accountMachine.acted world tid thread op resp rest state) := by
  have grown := grown_acts consistent acts (oneKey.permits obeys acts)
  constructor
  · intro other found live
    rcases Machine.acted_thread live with ⟨rfl, rfl⟩ | ⟨_, live⟩ | ⟨task, member, rfl⟩
    · exact oneKey.tasks _ thread acts.live
    · exact oneKey.tasks other found live
    · cases member
  · exact fun account member => grown.accounts account (oneKey.kept account member)
  · exact backed_acts oneKey obeys consistent acts
  · refine Machine.informed_step oneKey.knows stepped ?_ ?_ ?_
    · intro state trace tid task
      constructor
      · exact fun row member => by cases member
      · exact fun row member => by cases member
      · exact fun id account earlier same => by cases same
      · exact fun id account earlier same => by cases same
    · intro tid choice thread op resp rest state acts _ knows
      exact knows_own consistent acts (oneKey.permits obeys acts) knows
    · intro tid choice thread op resp rest state other found acts _ _ _ _ knows
      exact knows_grown (grown_acts consistent acts (oneKey.permits obeys acts)) knows
  · intro event member account identity saves
    rcases List.mem_cons.mp member with rfl | older
    · cases saves
      have permitted : Concluded _ thread.past := oneKey.permits obeys acts
      obtain ⟨id, earlier, past⟩ := permitted account identity rfl
      exact settled_grown grown ((oneKey.knows.actor acts).concluded id account earlier past)
    · exact settled_grown grown (oneKey.saved event older account identity saves)

variable {nextAccountID nextIdentityID : Int}

theorem oneKey_reachable (used : ∀ account ∈ start.accounts.rows, account.id < nextAccountID)
    (reaches : accountMachine.Reaches (ensuresOnly key)
      (openedAccounts start nextAccountID nextIdentityID) world) : OneKey start key world := by
  induction reaches with
  | refl =>
      constructor
      · exact fun tid thread live => by cases live
      · exact fun account member => member
      · exact fun account member => .inl member
      · exact fun tid thread live => by cases live
      · exact fun event member => by cases member
  | step move before meets stepped ih =>
      have cases_ := accountMachine.step_cases stepped
      obtain ⟨tid, choice, thread, op, resp, rest, state, rfl, acts, rfl⟩ | ⟨task, rfl, _, rfl⟩ |
        ⟨rfl, rfl⟩ := cases_
      · exact oneKey_acted ih (account_obeys before) (consistent_reachable used before) acts stepped
      · constructor
        · intro tid found live
          rcases Machine.started_thread live with live | rfl
          · exact ih.tasks tid found live
          · exact meets
        · exact ih.kept
        · exact ih.backed
        · intro tid found live pending
          rcases Machine.started_thread live with live | rfl
          · exact ih.knows tid found live pending
          · constructor
            · exact fun row member => by cases member
            · exact fun row member => by cases member
            · exact fun id account earlier same => by cases same
            · exact fun id account earlier same => by cases same
        · exact ih.saved
      · constructor
        · intro tid found live
          obtain ⟨old, present, rfl⟩ := Machine.halted_thread live
          exact ih.tasks tid old present
        · exact ih.kept
        · exact ih.backed
        · intro tid found live pending
          obtain ⟨old, _, rfl⟩ := Machine.halted_thread live
          obtain ⟨op, next, stopped⟩ := pending
          cases stopped
        · exact ih.saved

/-- A call has returned an account with its identity. -/
def Returned (world : AccountWorld) (account : AccountRecord) : Prop :=
  ∃ event ∈ world.trace, ∃ identity, event.call = ⟨.saved (.ok (account, identity)), ()⟩

/-- What concurrent calls for one key leave, whoever of them is still running. -/
structure OneAccount (start : AccountTables) (key : String × String) (world : AccountWorld) : Prop where
  identity : ∀ account, Returned world account →
    world.state.tables.identities.affected (fun row => decide (row.providerSubject = key)) = 1
  /-- Every account that a call has made has an identity. -/
  backed : ∀ account ∈ world.state.tables.accounts.rows, account ∉ start.accounts.rows →
    ∃ row ∈ world.state.tables.identities.rows, row.accountID = account.id
  same : ∀ first second, Returned world first → Returned world second → first = second
  kept : ∀ account ∈ start.accounts.rows, account ∈ world.state.tables.accounts.rows

theorem one_account (used : ∀ account ∈ start.accounts.rows, account.id < nextAccountID)
    (reaches : accountMachine.Reaches (ensuresOnly key)
      (openedAccounts start nextAccountID nextIdentityID) world) : OneAccount start key world := by
  have oneKey := oneKey_reachable used reaches
  have settled {account : AccountRecord} (returned : Returned world account) :
      Settled key account world.state.tables := by
    obtain ⟨event, member, identity, saves⟩ := returned
    exact oneKey.saved event member account identity saves
  constructor
  · intro account returned
    obtain ⟨_, row, present, keyed, _⟩ := settled returned
    have found := KeyedTable.find_some.mpr ⟨present, keyed⟩
    rw [KeyedTable.affected_key, found]
    rfl
  · intro account member made
    obtain ⟨row, present, _, own⟩ := (oneKey.backed account member).resolve_left made
    exact ⟨row, present, own⟩
  · intro first second one two
    obtain ⟨here, row, present, keyed, own⟩ := settled one
    obtain ⟨there, other, present', keyed', own'⟩ := settled two
    have same : row = other :=
      world.state.tables.identities.same_row present present' (keyed.trans keyed'.symm)
    refine world.state.tables.accounts.same_row here there ?_
    rw [← own, ← own', same]
  · exact oneKey.kept

/-- Two calls find no identity and make an account each. The second waits for the
first, deletes its own account and returns the one of the first. -/
def raceMoves : List AccountMove :=
  [.start (.ensure { oauthProvider := "GitHub", oauthSubject := "8", oauthLogin := "bob" } "user"),
   .start (.ensure { oauthProvider := "github", oauthSubject := " 8", oauthLogin := "rob" } "admin"),
   .run 0 {}, .run 0 {}, .run 0 {}, .run 1 {}, .run 1 {}, .run 1 {}, .run 0 {}, .run 0 {}, .run 0 {},
   .run 1 {}, .run 0 {}, .run 1 {}, .run 1 {}, .run 1 {}, .run 1 {}, .run 1 {}, .run 1 {}]

def onlyKey (key : String × String) (_ : AccountWorld) : AccountMove → Bool
  | .start (.ensure identity _) => decide ((normalizeOAuthProvider identity.oauthProvider,
      normalizeOAuthSubject identity.oauthSubject) = key)
  | .start _ => false
  | _ => true

theorem onlyKey_ensures {world : AccountWorld} {move : AccountMove}
    (only : onlyKey key world move = true) : ensuresOnly key world move := by
  cases move with
  | run tid choice => trivial
  | crash => trivial
  | start task =>
      cases task with
      | ensure identity role =>
          simp only [onlyKey, decide_eq_true_eq] at only
          exact ⟨identity, role, rfl, only⟩
      | _ => cases only

theorem one_account_race : ∃ world, OneAccount {} ("github", "8") world ∧
    (world.state.tables.accounts.rows.map fun account => (account.id, account.role)) = [(1, .user)] ∧
    (world.state.tables.identities.rows.map fun row => (row.accountID, row.oauthLogin)) =
      [(1, "rob")] ∧
    (world.threads.map fun thread => thread.rest.ended) = [true, true] := by
  have ran : (accountMachine.runChecked (onlyKey ("github", "8")) raceMoves
      (openedAccounts {} 1 1)).any (fun world => decide
        ((world.state.tables.accounts.rows.map fun account => (account.id, account.role)) =
          [(1, .user)] ∧
        (world.state.tables.identities.rows.map fun row => (row.accountID, row.oauthLogin)) =
          [(1, "rob")] ∧
        (world.threads.map fun thread => thread.rest.ended) = [true, true])) = true := by
    decide +kernel
  obtain ⟨world, reaches, found⟩ := Machine.reaches_any ran
  have used : ∀ account ∈ ({} : AccountTables).accounts.rows, account.id < 1 :=
    fun account member => by cases member
  exact ⟨world, one_account used (reaches.weaken fun _ _ only => onlyKey_ensures only),
    of_decide_eq_true found⟩

end Accounts

end Runnerd.Accounts
