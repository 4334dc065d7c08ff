import Runnerd.AccountSaves

/-!
What the database holds while transactions are open: each transaction has written
what its goroutine was answered, no two of them have made one account or one
identity, and none of them has made what is committed. So a commit adds exactly the
rows that its goroutine has made.
-/

namespace Runnerd.Accounts

open GoText Interaction Interleaving

section Effects

/-- What an answer does to the database, and what it adds to the memory of writes. -/
inductive AccountEffect (tid : Nat) (db : AccountDatabase) :
    AccountAnswered → AccountDatabase → Prop
  | quiet {call : AccountAnswered} (wrote : ∀ past, writesOf (call :: past) = writesOf past) :
      AccountEffect tid db call db
  | account (role : PlatformRole) (now : Time) :
      AccountEffect tid db ⟨.createAccount role now, .ok db.nextAccountID⟩
        { db.write tid (.insertAccount (newAccount db.nextAccountID role now)) with
          nextAccountID := db.nextAccountID + 1 }
  | identity (row : OAuthIdentityRecord)
      (alone : db.waits tid (AccountWrite.inserts row.providerSubject) = false)
      (free : (db.view tid).identities.find row.providerSubject = none) :
      AccountEffect tid db ⟨.createIdentity row, .ok (some db.nextIdentityID)⟩
        { db.write tid (.insertIdentity { row with id := db.nextIdentityID }) with
          nextIdentityID := db.nextIdentityID + 1 }
  | edited {call : AccountAnswered} {written : AccountWrite}
      (wrote : ∀ past, writesOf (call :: past) = writesOf past ++ [written])
      (account : ∀ row, written ≠ .insertAccount row)
      (identity : ∀ row, written ≠ .insertIdentity row) :
      AccountEffect tid db call (db.write tid written)
  | closed {call : AccountAnswered} (wrote : ∀ past, writesOf (call :: past) = []) :
      AccountEffect tid db call (db.closed tid)
  | committed : AccountEffect tid db ⟨.commit, .ok ()⟩ { db.closed tid with tables := db.view tid }
  | ranked {now : Time} {actorAccountID accountID : Int} {role : PlatformRole}
      {auditActor : String} {updated : AccountRecord} {tables : AccountTables}
      (changed : updateAccountRoleWithAuditOnce now actorAccountID accountID role auditActor
        db.tables = .ok (updated, tables)) :
      AccountEffect tid db ⟨.updateAccountRoleOnce actorAccountID accountID role auditActor,
        .ok updated⟩ { db with tables }

variable {tid : Nat} {choice : AccountChoice} {db after : AccountDatabase}

/-- A statement that the database fails leaves the database as it is. -/
theorem unlessFailed_cases {α : Type} {fault : Option GoError} {answer : Option (α × AccountDatabase)}
    {resp : Except GoError α} {base : AccountDatabase}
    (answered : unlessFailed fault base answer = some (resp, after)) :
    (∃ err, resp = .error err ∧ after = base) ∨
      ∃ value, resp = .ok value ∧ answer = some (value, after) := by
  cases fault with
  | some err =>
      cases answered
      exact .inl ⟨err, rfl, rfl⟩
  | none =>
      obtain ⟨⟨value, next⟩, given, same⟩ := Option.map_eq_some_iff.mp answered
      cases same
      exact .inr ⟨value, rfl, given⟩

theorem respondAccount_effect {op : AccountOp} {resp : op.Resp}
    (answer : respondAccount tid choice db op = some (resp, after)) :
    AccountEffect tid db ⟨op, resp⟩ after := by
  cases op with
  | now =>
      cases answer
      exact .quiet fun _ => rfl
  | findIdentity provider subject =>
      rcases unlessFailed_cases answer with ⟨err, rfl, rfl⟩ | ⟨value, rfl, given⟩
      · exact .quiet fun _ => rfl
      · cases given
        exact .quiet fun _ => rfl
  | findAccount id =>
      rcases unlessFailed_cases answer with ⟨err, rfl, rfl⟩ | ⟨value, rfl, given⟩
      · exact .quiet fun _ => rfl
      · cases given
        exact .quiet fun _ => rfl
  | createAccount role now =>
      rcases unlessFailed_cases answer with ⟨err, rfl, rfl⟩ | ⟨value, rfl, given⟩
      · exact .quiet fun _ => rfl
      · cases given
        exact .account role now
  | deleteAccount id =>
      rcases unlessFailed_cases answer with ⟨err, rfl, rfl⟩ | ⟨value, rfl, given⟩
      · exact .quiet fun _ => rfl
      · cases given
        exact .edited (fun _ => rfl) (fun _ => by simp) (fun _ => by simp)
  | createIdentity row =>
      rcases unlessFailed_cases answer with ⟨err, rfl, rfl⟩ | ⟨value, rfl, given⟩
      · exact .quiet fun _ => rfl
      · unfold createIdentity at given
        split at given
        · cases given
        · rename_i alone
          split at given
          · cases given
            exact .quiet fun _ => rfl
          · rename_i free
            cases given
            exact .identity row (by simpa using alone) (by simpa using free)
  | updateLogin id login now =>
      rcases unlessFailed_cases answer with ⟨err, rfl, rfl⟩ | ⟨value, rfl, given⟩
      · exact .quiet fun _ => rfl
      · split at given
        · cases given
        · cases given
          exact .edited (fun _ => rfl) (fun _ => by simp) (fun _ => by simp)
  | updateRole id role now =>
      rcases unlessFailed_cases answer with ⟨err, rfl, rfl⟩ | ⟨value, rfl, given⟩
      · exact .quiet fun _ => rfl
      · split at given
        · cases given
        · cases given
          exact .edited (fun _ => rfl) (fun _ => by simp) (fun _ => by simp)
  | commit =>
      rcases unlessFailed_cases answer with ⟨err, rfl, rfl⟩ | ⟨value, rfl, given⟩
      · exact .closed fun _ => rfl
      · cases given
        exact .committed
  | rollback =>
      cases answer
      exact .closed fun _ => rfl
  | updateAccountRoleOnce actorAccountID accountID role auditActor =>
      simp only [respondAccount] at answer
      split at answer
      · cases answer
      · split at answer
        · cases answer
          exact .quiet fun _ => rfl
        · cases answer
          exact .quiet fun _ => rfl
        · rename_i changed
          cases answer
          exact .ranked changed
  | saved result =>
      cases answer
      exact .quiet fun _ => rfl
  | updated result =>
      cases answer
      exact .quiet fun _ => rfl

end Effects

section Transactions

variable {db : AccountDatabase} {tid other : Nat} {written : AccountWrite}

theorem mem_own : written ∈ db.own tid ↔ (tid, written) ∈ db.pending := by
  simp only [AccountDatabase.own, List.mem_map, List.mem_filter, beq_iff_eq]
  constructor
  · rintro ⟨⟨writer, found⟩, ⟨member, rfl⟩, rfl⟩
    exact member
  · intro member
    exact ⟨(tid, written), ⟨member, rfl⟩, rfl⟩

theorem own_write : (db.write tid written).own tid = db.own tid ++ [written] := by
  simp [AccountDatabase.own, AccountDatabase.write]

theorem own_write_other (different : other ≠ tid) :
    (db.write tid written).own other = db.own other := by
  simp [AccountDatabase.own, AccountDatabase.write, Ne.symm different]

theorem own_closed : (db.closed tid).own tid = [] := by
  simp [AccountDatabase.own, AccountDatabase.closed]

theorem own_closed_other (different : other ≠ tid) : (db.closed tid).own other = db.own other := by
  simp only [AccountDatabase.own, AccountDatabase.closed, List.filter_filter]
  congr 1
  apply List.filter_congr
  intro found _
  by_cases same : found.1 = other
  · simp [same, different]
  · simp [same]

theorem mem_closed : (other, written) ∈ (db.closed tid).pending ↔
    (other, written) ∈ db.pending ∧ other ≠ tid := by
  simp [AccountDatabase.closed]

/-- The rows that a transaction makes are not committed. -/
def Clear (writes : List AccountWrite) (tables : AccountTables) : Prop :=
  (∀ account, .insertAccount account ∈ writes → tables.accounts.find account.id = none) ∧
  ∀ row, .insertIdentity row ∈ writes → tables.identities.find row.providerSubject = none

theorem run_insertAccount {tables : AccountTables} {account : AccountRecord}
    (free : tables.accounts.find account.id = none) :
    ∃ accounts, (AccountWrite.insertAccount account).run tables = { tables with accounts } ∧
      accounts.rows = tables.accounts.rows ++ [account] := by
  obtain ⟨accounts, inserted, rows⟩ := KeyedTable.insert_free free
  exact ⟨accounts, by simp [AccountWrite.run, inserted], rows⟩

theorem run_insertIdentity {tables : AccountTables} {row : OAuthIdentityRecord}
    (free : tables.identities.find row.providerSubject = none) :
    ∃ identities, (AccountWrite.insertIdentity row).run tables = { tables with identities } ∧
      identities.rows = tables.identities.rows ++ [row] := by
  obtain ⟨identities, inserted, rows⟩ := KeyedTable.insert_free free
  exact ⟨identities, by simp [AccountWrite.run, inserted], rows⟩

/-- An account that is made and deleted again was never there. -/
theorem undone_run {writes : List AccountWrite} {tables : AccountTables} (undone : Undone writes)
    (clear : Clear writes tables) : writes.foldl AccountWrite.run tables = tables := by
  rcases undone with rfl | ⟨account, rfl⟩
  · rfl
  · have free := clear.1 account List.mem_cons_self
    obtain ⟨accounts, made, rows⟩ := run_insertAccount free
    have gone : accounts.erase (fun row => decide (row.id = account.id)) = tables.accounts := by
      apply KeyedTable.ext_rows
      have others : ∀ row ∈ tables.accounts.rows, ¬row.id = account.id := KeyedTable.find_none.mp free
      simp only [KeyedTable.erase, rows, List.filter_append]
      rw [List.filter_eq_self.mpr (fun row member => by simp [others row member])]
      simp
    simp only [List.foldl_cons, List.foldl_nil, made]
    simp only [AccountWrite.run, gone]

/-- What a commit of these writes does to the tables. -/
inductive Commits (creates promotes : Bool) (writes : List AccountWrite) (before : AccountTables) :
    AccountTables → Prop
  | created {after : AccountTables} (account : AccountRecord) (row : OAuthIdentityRecord)
      (makes : creates = true) (own : row.accountID = account.id)
      (wrote : writes = [.insertAccount account, .insertIdentity row])
      (accounts : after.accounts.rows = before.accounts.rows ++ [account])
      (identities : after.identities.rows = before.identities.rows ++ [row])
      (audit : after.audit = before.audit) : Commits creates promotes writes before after
  | linked {identities : KeyedTable OAuthIdentityRecord.providerSubject} (row : OAuthIdentityRecord)
      (wrote : writes = [.insertIdentity row])
      (rows : identities.rows = before.identities.rows ++ [row]) :
      Commits creates promotes writes before { before with identities }
  | touched (id : Int) (login : String) (now : Time)
      (wrote : ∀ row, .insertIdentity row ∉ writes) :
      Commits creates promotes writes before
        ((AccountWrite.setLogin id login now).run before)
  | promoted (id : Int) (login : String) (now : Time) (account : Int) (sets : promotes = true)
      (wrote : ∀ row, .insertIdentity row ∉ writes) :
      Commits creates promotes writes before
        ((AccountWrite.setRole account .admin now).run
          ((AccountWrite.setLogin id login now).run before))

theorem undone_identity {writes : List AccountWrite} (undone : Undone writes)
    (row : OAuthIdentityRecord) : .insertIdentity row ∉ writes := by
  rcases undone with rfl | ⟨account, rfl⟩
  · simp
  · simp

theorem tidy_commits {creates promotes : Bool} {writes : List AccountWrite} {tables : AccountTables}
    (tidy : Tidy creates promotes writes) (clear : Clear writes tables) :
    Commits creates promotes writes tables (writes.foldl AccountWrite.run tables) := by
  cases tidy with
  | @created account row makes own =>
      obtain ⟨accounts, made, accountRows⟩ :=
        run_insertAccount (clear.1 account List.mem_cons_self)
      have free : ({ tables with accounts } : AccountTables).identities.find row.providerSubject =
          none := clear.2 row (by simp)
      obtain ⟨identities, named, identityRows⟩ := run_insertIdentity free
      simp only [List.foldl_cons, List.foldl_nil, made, named]
      exact .created account row makes own rfl accountRows identityRows rfl
  | @linked row links =>
      obtain ⟨identities, named, rows⟩ := run_insertIdentity (clear.2 row List.mem_cons_self)
      simp only [List.foldl_cons, List.foldl_nil, named]
      exact .linked row rfl rows
  | @touched base undone id login now =>
      have clear_ : Clear base tables :=
        ⟨fun account member => clear.1 account (List.mem_append_left _ member),
          fun row member => clear.2 row (List.mem_append_left _ member)⟩
      rw [List.foldl_append, undone_run undone clear_]
      refine .touched id login now fun row member => ?_
      rcases List.mem_append.mp member with older | last
      · exact undone_identity undone row older
      · simp at last
  | @promoted base undone id login now account sets =>
      have clear_ : Clear base tables :=
        ⟨fun account member => clear.1 account (List.mem_append_left _ member),
          fun row member => clear.2 row (List.mem_append_left _ member)⟩
      rw [List.foldl_append, undone_run undone clear_]
      refine .promoted id login now account sets fun row member => ?_
      rcases List.mem_append.mp member with older | last
      · exact undone_identity undone row older
      · simp at last

end Transactions

section Databases

/-- No two transactions make one row, and no row that is made is there. -/
structure Sound (db : AccountDatabase) : Prop where
  used : ∀ account ∈ db.tables.accounts.rows, account.id < db.nextAccountID
  fresh : ∀ tid account, (tid, .insertAccount account) ∈ db.pending →
    account.id < db.nextAccountID ∧ db.tables.accounts.find account.id = none
  apart : ∀ tid other account found, (tid, .insertAccount account) ∈ db.pending →
    (other, .insertAccount found) ∈ db.pending → tid ≠ other → account.id ≠ found.id
  free : ∀ tid row, (tid, .insertIdentity row) ∈ db.pending →
    db.tables.identities.find row.providerSubject = none
  lone : ∀ tid other row found, (tid, .insertIdentity row) ∈ db.pending →
    (other, .insertIdentity found) ∈ db.pending → tid ≠ other →
    row.providerSubject ≠ found.providerSubject

variable {db : AccountDatabase} {tid : Nat}

theorem Sound.clear (sound : Sound db) (tid : Nat) : Clear (db.own tid) db.tables :=
  ⟨fun account member => (sound.fresh tid account (mem_own.mp member)).2,
    fun row member => sound.free tid row (mem_own.mp member)⟩

/-- Fewer open transactions are as sound. -/
theorem Sound.subset (sound : Sound db) {pending : List (Nat × AccountWrite)}
    (fewer : ∀ written ∈ pending, written ∈ db.pending) : Sound { db with pending } where
  used := sound.used
  fresh tid account member := sound.fresh tid account (fewer _ member)
  apart tid other account found member there :=
    sound.apart tid other account found (fewer _ member) (fewer _ there)
  free tid row member := sound.free tid row (fewer _ member)
  lone tid other row found member there :=
    sound.lone tid other row found (fewer _ member) (fewer _ there)

theorem Sound.edited (sound : Sound db) {written : AccountWrite}
    (account : ∀ row, written ≠ .insertAccount row)
    (identity : ∀ row, written ≠ .insertIdentity row) : Sound (db.write tid written) := by
  have older_account {writer : Nat} {row : AccountRecord}
      (member : (writer, .insertAccount row) ∈ (db.write tid written).pending) :
      (writer, .insertAccount row) ∈ db.pending := by
    rcases List.mem_append.mp member with older | last
    · exact older
    · cases List.mem_singleton.mp last
      exact absurd rfl (account row)
  have older_identity {writer : Nat} {row : OAuthIdentityRecord}
      (member : (writer, .insertIdentity row) ∈ (db.write tid written).pending) :
      (writer, .insertIdentity row) ∈ db.pending := by
    rcases List.mem_append.mp member with older | last
    · exact older
    · cases List.mem_singleton.mp last
      exact absurd rfl (identity row)
  exact
    { used := sound.used
      fresh := fun tid account member => sound.fresh tid account (older_account member)
      apart := fun tid other account found member there =>
        sound.apart tid other account found (older_account member) (older_account there)
      free := fun tid row member => sound.free tid row (older_identity member)
      lone := fun tid other row found member there =>
        sound.lone tid other row found (older_identity member) (older_identity there) }

theorem Sound.account (sound : Sound db) (role : PlatformRole) (now : Time) :
    Sound { db.write tid (.insertAccount (newAccount db.nextAccountID role now)) with
      nextAccountID := db.nextAccountID + 1 } := by
  have cases_ {writer : Nat} {row : AccountRecord} (member : (writer, .insertAccount row) ∈
      db.pending ++ [(tid, .insertAccount (newAccount db.nextAccountID role now))]) :
      (writer, .insertAccount row) ∈ db.pending ∨
        (writer = tid ∧ row = newAccount db.nextAccountID role now) := by
    rcases List.mem_append.mp member with older | last
    · exact .inl older
    · cases List.mem_singleton.mp last
      exact .inr ⟨rfl, rfl⟩
  have named {writer : Nat} {row : OAuthIdentityRecord} (member : (writer, .insertIdentity row) ∈
      db.pending ++ [(tid, .insertAccount (newAccount db.nextAccountID role now))]) :
      (writer, .insertIdentity row) ∈ db.pending := by
    rcases List.mem_append.mp member with older | last
    · exact older
    · cases List.mem_singleton.mp last
  have unused : db.tables.accounts.find db.nextAccountID = none :=
    KeyedTable.find_none.mpr fun row member same => absurd (sound.used row member) (by omega)
  constructor
  · intro account member
    exact Int.lt_add_one_of_le (sound.used account member).le
  · intro writer account member
    rcases cases_ member with older | ⟨_, rfl⟩
    · have known := sound.fresh writer account older
      exact ⟨Int.lt_add_one_of_le known.1.le, known.2⟩
    · exact ⟨Int.lt_add_one_of_le le_rfl, unused⟩
  · intro writer other account found member there different
    rcases cases_ member with older | ⟨same, rfl⟩
    · rcases cases_ there with older' | ⟨_, rfl⟩
      · exact sound.apart writer other account found older older' different
      · exact (sound.fresh writer account older).1.ne
    · rcases cases_ there with older' | ⟨same', rfl⟩
      · exact (sound.fresh other found older').1.ne'
      · exact absurd (same.trans same'.symm) different
  · exact fun writer row member => sound.free writer row (named member)
  · exact fun writer other row found member there =>
      sound.lone writer other row found (named member) (named there)

theorem Sound.identity (sound : Sound db) {row : OAuthIdentityRecord} {id nextIdentityID : Int}
    (alone : db.waits tid (AccountWrite.inserts row.providerSubject) = false)
    (free : db.tables.identities.find row.providerSubject = none) :
    Sound { db.write tid (.insertIdentity { row with id }) with nextIdentityID } := by
  have cases_ {writer : Nat} {found : OAuthIdentityRecord} (member : (writer, .insertIdentity found) ∈
      db.pending ++ [(tid, .insertIdentity { row with id })]) :
      (writer, .insertIdentity found) ∈ db.pending ∨
        (writer = tid ∧ found.providerSubject = row.providerSubject) := by
    rcases List.mem_append.mp member with older | last
    · exact .inl older
    · cases List.mem_singleton.mp last
      exact .inr ⟨rfl, rfl⟩
  have named {writer : Nat} {account : AccountRecord} (member : (writer, .insertAccount account) ∈
      db.pending ++ [(tid, .insertIdentity { row with id })]) :
      (writer, .insertAccount account) ∈ db.pending := by
    rcases List.mem_append.mp member with older | last
    · exact older
    · cases List.mem_singleton.mp last
  -- An open transaction that has inserted the key would have to be waited for.
  have elsewhere {writer : Nat} {found : OAuthIdentityRecord} (different : writer ≠ tid)
      (member : (writer, .insertIdentity found) ∈ db.pending) :
      found.providerSubject ≠ row.providerSubject := by
    intro same
    have absent := List.any_eq_false.mp alone _ member
    simp [AccountWrite.inserts, same, different] at absent
  constructor
  · exact sound.used
  · exact fun writer account member => sound.fresh writer account (named member)
  · exact fun writer other account found member there =>
      sound.apart writer other account found (named member) (named there)
  · intro writer found member
    rcases cases_ member with older | ⟨_, same⟩
    · exact sound.free writer found older
    · rw [same]
      exact free
  · intro writer other found second member there different
    rcases cases_ member with older | ⟨rfl, same⟩
    · rcases cases_ there with older' | ⟨rfl, same⟩
      · exact sound.lone writer other found second older older' different
      · rw [same]
        exact elsewhere different older
    · rcases cases_ there with older' | ⟨same', _⟩
      · rw [same]
        exact (elsewhere (Ne.symm different) older').symm
      · exact absurd same'.symm different

/-- The tables after a commit hold no account and no identity more than its own. -/
structure Adds (writes : List AccountWrite) (before after : AccountTables) : Prop where
  accounts : ∀ account ∈ after.accounts.rows, (∃ old ∈ before.accounts.rows, old.id = account.id) ∨
    .insertAccount account ∈ writes
  identities : ∀ row ∈ after.identities.rows,
    (∃ old ∈ before.identities.rows, old.providerSubject = row.providerSubject) ∨
    .insertIdentity row ∈ writes

theorem mem_update_key {Row Key : Type} {key : Row → Key} {table : KeyedTable key}
    {matching : Row → Bool} {edit : KeyedTable.Edit key} {row : Row}
    (member : row ∈ (table.update matching edit).rows) : ∃ old ∈ table.rows, key old = key row := by
  obtain ⟨old, present, rfl⟩ := KeyedTable.mem_update.mp member
  refine ⟨old, present, ?_⟩
  split
  · exact (edit.keeps old).symm
  · rfl

theorem commits_adds {creates promotes : Bool} {writes : List AccountWrite}
    {before after : AccountTables} (commits : Commits creates promotes writes before after) :
    Adds writes before after := by
  cases commits with
  | created account row makes own wrote accounts identities audit =>
      constructor
      · intro found member
        rw [accounts] at member
        rcases List.mem_append.mp member with older | last
        · exact .inl ⟨found, older, rfl⟩
        · cases List.mem_singleton.mp last
          exact .inr (by simp [wrote])
      · intro found member
        rw [identities] at member
        rcases List.mem_append.mp member with older | last
        · exact .inl ⟨found, older, rfl⟩
        · cases List.mem_singleton.mp last
          exact .inr (by simp [wrote])
  | linked row wrote rows =>
      constructor
      · exact fun found member => .inl ⟨found, member, rfl⟩
      · intro found member
        rw [rows] at member
        rcases List.mem_append.mp member with older | last
        · exact .inl ⟨found, older, rfl⟩
        · cases List.mem_singleton.mp last
          exact .inr (by simp [wrote])
  | touched id login now wrote =>
      exact ⟨fun found member => .inl ⟨found, member, rfl⟩,
        fun found member => .inl (mem_update_key member)⟩
  | promoted id login now account sets wrote =>
      exact ⟨fun found member => .inl (mem_update_key member),
        fun found member => .inl (mem_update_key member)⟩

theorem Sound.committed (sound : Sound db) (adds : Adds (db.own tid) db.tables (db.view tid)) :
    Sound { db.closed tid with tables := db.view tid } := by
  constructor
  · intro account member
    rcases adds.accounts account member with ⟨old, present, same⟩ | made
    · rw [← same]
      exact sound.used old present
    · exact (sound.fresh tid account (mem_own.mp made)).1
  · intro writer account member
    obtain ⟨open_, different⟩ := mem_closed.mp member
    have known := sound.fresh writer account open_
    refine ⟨known.1, KeyedTable.find_none.mpr fun found present same => ?_⟩
    rcases adds.accounts found present with ⟨old, older, here⟩ | made
    · exact KeyedTable.find_none.mp known.2 old older (here.trans same)
    · exact sound.apart writer tid account found open_ (mem_own.mp made) different same.symm
  · exact fun writer other account found member there =>
      sound.apart writer other account found (mem_closed.mp member).1 (mem_closed.mp there).1
  · intro writer row member
    obtain ⟨open_, different⟩ := mem_closed.mp member
    refine KeyedTable.find_none.mpr fun found present same => ?_
    rcases adds.identities found present with ⟨old, older, here⟩ | made
    · exact KeyedTable.find_none.mp (sound.free writer row open_) old older (here.trans same)
    · exact sound.lone writer tid row found open_ (mem_own.mp made) different same.symm
  · exact fun writer other row found member there =>
      sound.lone writer other row found (mem_closed.mp member).1 (mem_closed.mp there).1

/-- A role update at SERIALIZABLE touches no id and no identity. -/
theorem Sound.tables (sound : Sound db) {tables : AccountTables}
    (accounts : ∀ account ∈ tables.accounts.rows, ∃ old ∈ db.tables.accounts.rows,
      old.id = account.id)
    (identities : tables.identities = db.tables.identities) : Sound { db with tables } := by
  constructor
  · intro account member
    obtain ⟨old, present, same⟩ := accounts account member
    rw [← same]
    exact sound.used old present
  · intro writer account member
    have known := sound.fresh writer account member
    refine ⟨known.1, KeyedTable.find_none.mpr fun found present same => ?_⟩
    obtain ⟨old, older, here⟩ := accounts found present
    exact KeyedTable.find_none.mp known.2 old older (here.trans same)
  · exact sound.apart
  · intro writer row member
    have known := sound.free writer row member
    simpa only [identities] using known
  · exact sound.lone

end Databases

section RoleUpdates

/-- What a role update that succeeds at SERIALIZABLE has done. -/
inductive RoleUpdated (now : Time) (accountID : Int) (role : PlatformRole) (auditActor : String)
    (before : AccountTables) : AccountRecord → AccountTables → Prop
  | kept {target : AccountRecord} (present : target ∈ before.accounts.rows)
      (named : target.id = accountID) (already : target.role = role) :
      RoleUpdated now accountID role auditActor before target before
  | changed {target : AccountRecord} {accounts : KeyedTable AccountRecord.id}
      (present : target ∈ before.accounts.rows) (named : target.id = accountID)
      (other : target.role ≠ role)
      (rows : accounts.rows = before.accounts.rows.map fun row =>
        if row.id = accountID then { row with role, updatedAt := now } else row) :
      RoleUpdated now accountID role auditActor before { target with role, updatedAt := now }
        { before with accounts, audit := before.audit ++ [roleEvent auditActor target role now] }

variable {now : Time} {actorAccountID accountID : Int} {role : PlatformRole} {auditActor : String}
variable {before after : AccountTables} {updated : AccountRecord}

/-- The administrator who asks for it is another account. -/
theorem roleOnce_updated
    (done : updateAccountRoleWithAuditOnce now actorAccountID accountID role auditActor before =
      .ok (updated, after)) :
    (∃ actor ∈ before.accounts.rows, actor.role = .admin ∧ actor.id ≠ accountID) ∧
      RoleUpdated now accountID role auditActor before updated after := by
  unfold updateAccountRoleWithAuditOnce at done
  split at done
  · cases done
  · rename_i actor asked
    split at done
    · cases done
    · rename_i admin
      split at done
      · cases done
      · rename_i target found
        obtain ⟨present, named⟩ := KeyedTable.find_some.mp found
        dsimp only at done
        split at done
        · cases done
        · rename_i different
          have actor_ : ∃ actor ∈ before.accounts.rows, actor.role = .admin ∧ actor.id ≠ accountID :=
            ⟨actor, (KeyedTable.find_some.mp asked).1, not_not.mp admin,
              fun same => different (named.trans same.symm)⟩
          refine ⟨actor_, ?_⟩
          split at done
          · rename_i already
            cases done
            exact .kept present named already
          · rename_i other
            split at done
            · cases done
            · split at done
              · cases done
              · cases done
                refine .changed present named other ?_
                apply List.map_congr_left
                intro row member
                by_cases same : row.id = accountID
                · have here : row = target :=
                    before.accounts.same_row member present (same.trans named.symm)
                  simp [here, named, roleEdit]
                · simp [same, named]

theorem RoleUpdated.ids (updates : RoleUpdated now accountID role auditActor before updated after) :
    ∀ account ∈ after.accounts.rows, ∃ old ∈ before.accounts.rows, old.id = account.id := by
  cases updates with
  | kept present named already => exact fun account member => ⟨account, member, rfl⟩
  | changed present named other rows =>
      intro account member
      dsimp only at member
      rw [rows] at member
      obtain ⟨old, older, rfl⟩ := List.mem_map.mp member
      refine ⟨old, older, ?_⟩
      split
      · rfl
      · rfl

theorem RoleUpdated.identities
    (updates : RoleUpdated now accountID role auditActor before updated after) :
    after.identities = before.identities := by
  cases updates with
  | kept present named already => rfl
  | changed present named other rows => rfl

end RoleUpdates

section Runs

variable {task : AccountTask} {past : List AccountAnswered}

/-- Only a call that saves an identity makes the statements of one. -/
theorem permitted_save {op : AccountOp} (permitted : accountContract task past op)
    (saves : ∀ update, ¬updatePermits update past op) :
    ∃ key creates promotes, savePermits key creates promotes past op := by
  cases task with
  | updateRole update => exact absurd permitted (saves update)
  | ensure identity role => exact ⟨_, _, _, permitted⟩
  | link accountID identity => exact ⟨_, _, _, permitted⟩
  | bootstrap identity => exact ⟨_, _, _, permitted⟩

/-- The memory of the goroutines that still run is what they have written. -/
structure Consistent (world : AccountWorld) : Prop where
  sound : Sound world.state
  own : ∀ (tid : Nat) (thread : Thread AccountOp AccountOp.Resp AccountTask),
    world.threads[tid]? = some thread → thread.rest.ended = false →
    world.state.own tid = writesOf thread.past
  idle : ∀ written ∈ world.state.pending, written.1 < world.threads.length

variable {world : AccountWorld} {tid : Nat} {choice : AccountChoice}
variable {thread : Thread AccountOp AccountOp.Resp AccountTask} {op : AccountOp} {resp : op.Resp}
variable {rest : AccountAction Unit} {state : AccountDatabase}

theorem account_pending (acts : accountMachine.Acts world tid choice thread op resp rest state) :
    thread.rest.ended = false := by
  obtain ⟨answers, next, _⟩ := acts.next
  rw [next]
  rfl

/-- A transaction sees what is committed and what its goroutine has written. -/
theorem Consistent.view (consistent : Consistent world)
    (acts : accountMachine.Acts world tid choice thread op resp rest state) :
    world.state.view tid = (writesOf thread.past).foldl AccountWrite.run world.state.tables := by
  rw [AccountDatabase.view, consistent.own tid thread acts.live (account_pending acts)]

theorem Consistent.clear (consistent : Consistent world)
    (acts : accountMachine.Acts world tid choice thread op resp rest state) :
    Clear (writesOf thread.past) world.state.tables := by
  rw [← consistent.own tid thread acts.live (account_pending acts)]
  exact consistent.sound.clear tid

theorem Consistent.commits (consistent : Consistent world) {creates promotes : Bool}
    (acts : accountMachine.Acts world tid choice thread op resp rest state)
    (tidy : Tidy creates promotes (writesOf thread.past)) :
    Commits creates promotes (writesOf thread.past) world.state.tables (world.state.view tid) := by
  rw [consistent.view acts]
  exact tidy_commits tidy (consistent.clear acts)

/-- Before an identity is inserted, none is among the writes. -/
theorem createIdentity_view (consistent : Consistent world) {row : OAuthIdentityRecord}
    {resp : AccountOp.Resp (.createIdentity row)}
    (acts : accountMachine.Acts world tid choice thread (.createIdentity row) resp rest state)
    (permitted : accountContract thread.task thread.past (.createIdentity row)) :
    (world.state.view tid).identities = world.state.tables.identities := by
  obtain ⟨key, creates, promotes, _, wrote⟩ :=
    permitted_save permitted fun update permits => by cases permits.1
  rw [consistent.view acts]
  rcases wrote with ⟨_, account, wrote, _⟩ | ⟨_, wrote⟩
  · rw [wrote]
    rfl
  · rw [wrote]
    rfl

theorem sound_step (obeys : Machine.Obeys accountContract world) (consistent : Consistent world)
    (acts : accountMachine.Acts world tid choice thread op resp rest state) : Sound state := by
  have permitted := obeys.permits acts
  have effect : AccountEffect tid world.state ⟨op, resp⟩ state := respondAccount_effect acts.answer
  cases effect with
  | quiet wrote => exact consistent.sound
  | account role now => exact consistent.sound.account role now
  | identity row alone free =>
      rw [createIdentity_view consistent acts permitted] at free
      exact consistent.sound.identity alone free
  | edited wrote account identity => exact consistent.sound.edited account identity
  | closed wrote =>
      exact consistent.sound.subset fun written member => (List.mem_filter.mp member).1
  | committed =>
      obtain ⟨key, creates, promotes, tidy, _⟩ :=
        permitted_save permitted fun update permits => by cases permits.1
      have adds := commits_adds (consistent.commits acts tidy)
      rw [← consistent.own tid thread acts.live (account_pending acts)] at adds
      exact consistent.sound.committed adds
  | ranked changed =>
      obtain ⟨_, updates⟩ := roleOnce_updated changed
      exact consistent.sound.tables updates.ids updates.identities

/-- Each call keeps the writes of its own goroutine in step with its memory. -/
theorem effect_own {db after : AccountDatabase} {call : AccountAnswered}
    (effect : AccountEffect tid db call after) (past : List AccountAnswered)
    (own : db.own tid = writesOf past) : after.own tid = writesOf (call :: past) := by
  cases effect with
  | quiet wrote => rw [wrote, own]
  | account role now =>
      have wrote : (db.write tid (.insertAccount (newAccount db.nextAccountID role now))).own tid =
        db.own tid ++ [.insertAccount (newAccount db.nextAccountID role now)] := own_write
      exact wrote.trans (by rw [own, writesOf])
  | identity row alone free =>
      have wrote : (db.write tid (.insertIdentity { row with id := db.nextIdentityID })).own tid =
        db.own tid ++ [.insertIdentity { row with id := db.nextIdentityID }] := own_write
      exact wrote.trans (by rw [own, writesOf])
  | edited wrote account identity => rw [own_write, wrote, own]
  | closed wrote => rw [own_closed, wrote]
  | committed => exact own_closed
  | ranked changed => exact own

theorem effect_others {db after : AccountDatabase} {call : AccountAnswered}
    (effect : AccountEffect tid db call after) {other : Nat} (different : other ≠ tid) :
    after.own other = db.own other := by
  cases effect with
  | quiet wrote => rfl
  | account role now => exact own_write_other different
  | identity row alone free => exact own_write_other different
  | edited wrote account identity => exact own_write_other different
  | closed wrote => exact own_closed_other different
  | committed => exact own_closed_other different
  | ranked changed => rfl

theorem effect_writers {db after : AccountDatabase} {call : AccountAnswered}
    (effect : AccountEffect tid db call after) :
    ∀ written ∈ after.pending, written ∈ db.pending ∨ written.1 = tid := by
  have writes {kind : AccountWrite} : ∀ written ∈ db.pending ++ [(tid, kind)],
      written ∈ db.pending ∨ written.1 = tid := by
    intro written member
    rcases List.mem_append.mp member with older | last
    · exact .inl older
    · exact .inr (by rw [List.mem_singleton.mp last])
  cases effect with
  | quiet wrote => exact fun written member => .inl member
  | account role now => exact writes
  | identity row alone free => exact writes
  | edited wrote account identity => exact writes
  | closed wrote => exact fun written member => .inl (List.mem_filter.mp member).1
  | committed => exact fun written member => .inl (List.mem_filter.mp member).1
  | ranked changed => exact fun written member => .inl member

theorem consistent_acted (obeys : Machine.Obeys accountContract world)
    (consistent : Consistent world)
    (acts : accountMachine.Acts world tid choice thread op resp rest state) :
    Consistent (accountMachine.acted world tid thread op resp rest state) := by
  have effect : AccountEffect tid world.state ⟨op, resp⟩ state := respondAccount_effect acts.answer
  constructor
  · exact sound_step obeys consistent acts
  · intro other found live pending
    rcases Machine.acted_thread live with ⟨rfl, rfl⟩ | ⟨different, live⟩ | ⟨task, member, rfl⟩
    · exact effect_own effect thread.past (consistent.own _ thread acts.live (account_pending acts))
    · exact (effect_others effect different).trans (consistent.own other found live pending)
    · cases member
  · intro written member
    have size : (accountMachine.acted world tid thread op resp rest state).threads.length =
        world.threads.length := by
      simp [Machine.acted, accountMachine]
    rw [size]
    rcases effect_writers effect written member with older | same
    · exact consistent.idle written older
    · rw [same]
      exact (List.getElem?_eq_some_iff.mp acts.live).1

variable {condition : AccountWorld → AccountMove → Prop}
variable {tables : AccountTables} {nextAccountID nextIdentityID : Int}

theorem consistent_reachable (used : ∀ account ∈ tables.accounts.rows, account.id < nextAccountID)
    (reaches : accountMachine.Reaches condition
      (openedAccounts tables nextAccountID nextIdentityID) world) : Consistent world := by
  induction reaches with
  | refl =>
      refine ⟨⟨used, ?_, ?_, ?_, ?_⟩, ?_, ?_⟩
      · exact fun _ _ member => by cases member
      · exact fun _ _ _ _ member => by cases member
      · exact fun _ _ member => by cases member
      · exact fun _ _ _ _ member => by cases member
      · exact fun _ _ live => by cases live
      · exact fun _ member => by cases member
  | step move before _ stepped ih =>
      obtain ⟨tid, choice, thread, op, resp, rest, state, rfl, acts, rfl⟩ | ⟨task, rfl, _, rfl⟩ |
        ⟨rfl, rfl⟩ := accountMachine.step_cases stepped
      · exact consistent_acted (account_obeys before) ih acts
      · constructor
        · exact ih.sound
        · intro tid found live pending
          rw [List.getElem?_append] at live
          split at live
          · exact ih.own tid found live pending
          · rename_i late
            obtain rfl : found = accountMachine.launch task := by
              simpa using List.mem_of_getElem? live
            -- A goroutine that has just started has written nothing yet.
            refine List.eq_nil_iff_forall_not_mem.mpr fun written member => ?_
            exact late (ih.idle _ (mem_own.mp member))
        · intro written member
          have before := ih.idle written member
          rw [List.length_append]
          omega
      · constructor
        · exact ih.sound.subset fun written member => by cases member
        · intro tid found live pending
          obtain ⟨old, _, rfl⟩ := Machine.halted_thread live
          cases pending
        · exact fun written member => by cases member

end Runs

end Runnerd.Accounts
