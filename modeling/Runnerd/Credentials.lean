import Runnerd.Changes
import Runnerd.Footprints
import Runnerd.Ownership
import Runnerd.RoleConduct
import Runnerd.ServiceResolution

/-!
The credentials of a sandbox. An attempt stores the credentials it resolved in
its row before it calls `StartRunner` with them, and a stop takes them from the
row again. No other write touches these columns, however many goroutines write
the row. They are replaced by `RetryRequest`, which blanks them, and by the
snapshot of another attempt. Neither waits for the attempt that still starts or
stops a sandbox with the old ones.
-/

namespace Runnerd

open GoText Interaction Interleaving Versioned

abbrev Credentials := String × String

def SandboxService.credentials (service : SandboxService) : Credentials :=
  (service.apiURL, service.encryptedAPIKey)

/-- The credential columns of a row, as the store and the resolution trim them. -/
def snapshot (st : RunnerState) : Credentials :=
  (trimSpace st.sandboxAPIURL, trimSpace st.sandboxAPIKeyEncrypted)

/-- `WriteState` of an attempt that sets the credential columns. -/
def Writer.snapshots : Writer → Bool
  | .startSnapshot | .failStart => true
  | _ => false

section Columns
variable {server : Server} {past : List Answered}

theorem snapshot_leased (now : Time) (row : RunnerRequestRecord) :
    snapshot (clearLease now row).toRunnerState = snapshot row.toRunnerState := rfl

theorem snapshot_written (st : RunnerState) (now : Time) (row : RunnerRequestRecord) :
    snapshot (stateUpdates st now row).toRunnerState = snapshot st.advanced := by
  simp only [snapshot, stateUpdates, RunnerState.advanced, trimSpace_idem]

/-- The writers other than these two leave the credential columns alone. -/
theorem edit_snapshot {writer : Writer} {base st : RunnerState}
    (edit : Edit server past writer base st) (quiet : writer.snapshots = false) :
    snapshot st = snapshot base := by
  have other : writer ≠ .startSnapshot ∧ writer ≠ .failStart := by
    constructor
    · rintro rfl
      cases quiet
    · rintro rfl
      cases quiet
  have columns := edit_columns edit other
  simp only [heldColumns, Prod.mk.injEq] at columns
  simp only [snapshot, columns]

end Columns

section History

/-- The credentials that the call leaves in the row, if it sets them. -/
def resets (id : String) : Answered → Option (Option Credentials)
  | ⟨.retryRequest asked _, .ok _⟩ => if sanitizeID asked = id then some none else none
  | ⟨.writeState writer st, .ok ()⟩ =>
      if writer.snapshots = true ∧ sanitizeID st.id = id then some (some (snapshot st)) else none
  | _ => none

/-- The snapshot that the calls so far have left in the row. -/
def standing (id : String) : List RunnerEvent → Option Credentials
  | [] => none
  | event :: earlier => (resets id event.call).getD (standing id earlier)

def storesSnapshot : Answered → Bool
  | ⟨.writeState .startSnapshot _, .ok ()⟩ => true
  | _ => false

/-- What the attempt stored in the row has not been replaced since. -/
def snapshotStands (id : String) (credentials : Credentials) (attempt : Nat) :
    List RunnerEvent → Bool
  | [] => false
  | event :: earlier =>
      (event.tid == attempt && storesSnapshot event.call) ||
        ((resets id event.call).all (· == some credentials) &&
          snapshotStands id credentials attempt earlier)

def asksFor : Answered → Option String
  | ⟨.readRequest id, _⟩ => some id
  | _ => none

/-- The request that the goroutine has read last, and the calls before that. -/
def lastRead (tid : Nat) : List RunnerEvent → Option (String × List RunnerEvent)
  | [] => none
  | event :: earlier =>
      if event.tid = tid then
        match asksFor event.call with
        | some id => some (id, earlier)
        | none => lastRead tid earlier
      else lastRead tid earlier

/-- The credentials of the start that created the sandbox for the request. -/
def createdWith (id sandboxID : String) : Answered → Option Credentials
  | ⟨.startRunner service input, .ok result⟩ =>
      if result.sandboxID = sandboxID ∧ sanitizeID input.requestID = sanitizeID id then
        some service.credentials
      else none
  | _ => none

/-- A stop for a request uses the credentials of each start that created its
sandbox for that request. -/
def keepsCredentials (event : RunnerEvent) (earlier : List RunnerEvent) : Bool :=
  match event.call with
  | ⟨.stopRunner service sandboxID _, _⟩ =>
      (lastRead event.tid earlier).any fun read =>
        earlier.all fun start =>
          (createdWith read.1 sandboxID start.call).all (· == service.credentials)
  | _ => true

/-- What a request resolves to has a URL and a key, trimmed. -/
def resolvesConfigured : Answered → Bool
  | ⟨.resolveSandboxService _, .ok service⟩ => service.configured
  | _ => true

/-- The resolution of the source meets this, whatever the tables hold. -/
theorem resolution_configured {server : Server} (uninjected : server.injectedSandbox = none)
    (lookups : Lookups) (req : RunnerRequest) :
    resolvesConfigured
      ⟨.resolveSandboxService req, resolveService server req (requestService lookups req)⟩ = true := by
  rw [resolveService_resolution uninjected]
  cases found : sandboxServiceForRunnerRequest lookups req with
  | error err => simp [requestService, found, Except.mapError, resolvesConfigured]
  | ok service =>
      have whole := sandboxServiceForRunnerRequest_configured found
      simpa [requestService, found, Except.mapError, resolvesConfigured] using whole

/-- When a stop reads its request, the snapshot of the attempt that created the
sandbox still stands. -/
def credentialGuard (event : RunnerEvent) (earlier : List RunnerEvent) : Bool :=
  match event.call with
  | ⟨.stopRunner _ sandboxID _, _⟩ =>
      (lastRead event.tid earlier).all fun read =>
        earlier.all fun start =>
          (createdWith read.1 sandboxID start.call).all fun credentials =>
            snapshotStands (sanitizeID read.1) credentials start.tid read.2
  | _ => true

end History

section Attempts
variable {server : Server} {past : List Answered}

/-- A call that fixes the credentials of an attempt. -/
def commits : Answered → Bool
  | ⟨.writeState .startSnapshot _, _⟩ | ⟨.startRunner _ _, _⟩ => true
  | _ => false

/-- The attempt has read its request and resolved its service, and has stored
at most the snapshot of that service. -/
structure Ready (past : List Answered) (id : String) (req : RunnerRequest)
    (service : SandboxService) : Prop where
  reads : (⟨.readRequest id, .ok req⟩ : Answered) ∈ past
  resolved : ∃ asked, (⟨.resolveSandboxService asked, .ok service⟩ : Answered) ∈ past
  stored : ∀ call ∈ past, commits call = true →
    ∃ base, (⟨.readState id, .ok base⟩ : Answered) ∈ past ∧
      call = ⟨.writeState .startSnapshot (snapshotState base service), .ok ()⟩

def snapshotContract (past : List Answered) : Op → Prop
  | .writeState .startSnapshot _ => ∀ call ∈ past, commits call = false
  | .startRunner service input =>
      ∃ id req, Ready past id req service ∧ input.requestID = req.id
  | _ => True

/-- The calls of these kinds fix no credentials. -/
def uncommitting (kinds : List Kind) : Bool :=
  !kinds.contains .start && !kinds.contains (.write .startSnapshot)

theorem commits_kind {kinds : List Kind} (quiet : uncommitting kinds = true) {call : Answered}
    (member : kinds.contains call.op.kind = true) : commits call = false := by
  simp only [uncommitting, Bool.and_eq_true, Bool.not_eq_true'] at quiet
  unfold commits
  split
  · exact absurd member (by rw [Op.kind, quiet.2]; exact Bool.false_ne_true)
  · exact absurd member (by rw [Op.kind, quiet.1]; exact Bool.false_ne_true)
  · rfl

theorem snapshot_quiet {kinds : List Kind} (quiet : uncommitting kinds = true)
    (past : List Answered) (op : Op) (member : kinds.contains op.kind = true) :
    snapshotContract past op := by
  simp only [uncommitting, Bool.and_eq_true, Bool.not_eq_true'] at quiet
  unfold snapshotContract
  split
  · exact absurd member (by rw [Op.kind, quiet.2]; exact Bool.false_ne_true)
  · exact absurd member (by rw [Op.kind, quiet.1]; exact Bool.false_ne_true)
  · trivial

theorem within_snapshot {α : Type} {kinds : List Kind} {program : Action α}
    (within : Within kinds program) (quiet : uncommitting kinds = true)
    {post : α → List Answered → Prop}
    (done : ∀ value later, past <:+ later →
      (∀ call ∈ later, commits call = true → call ∈ past) → post value later) :
    Keeps snapshotContract program post past := by
  refine keeps_calls within (snapshot_quiet quiet) fun value later extends_ made => ?_
  refine done value later extends_ fun call member committed => ?_
  rcases made call member with older | allowed
  · exact older
  · rw [commits_kind quiet allowed] at committed
    cases committed

/-- The rest of an attempt that fixes no credentials any more. -/
theorem within_ends {α : Type} {kinds : List Kind} {program : Action α}
    (within : Within kinds program) (quiet : uncommitting kinds = true) :
    Keeps snapshotContract program (fun _ _ => True) past :=
  within_snapshot within quiet fun _ _ _ _ => True.intro

theorem Ready.extend {id : String} {req : RunnerRequest} {service : SandboxService}
    {later : List Answered} (ready : Ready past id req service) (extends_ : past <:+ later)
    (kept : ∀ call ∈ later, commits call = true → call ∈ past) : Ready later id req service := by
  obtain ⟨asked, resolved⟩ := ready.resolved
  refine ⟨extends_.subset ready.reads, ⟨asked, extends_.subset resolved⟩, ?_⟩
  intro call member committed
  obtain ⟨base, reads, same⟩ := ready.stored call (kept call member committed) committed
  exact ⟨base, extends_.subset reads, same⟩

/-- A call that fixes no credentials. -/
theorem Ready.call {id : String} {req : RunnerRequest} {service : SandboxService} {call : Answered}
    (ready : Ready past id req service) (neutral : commits call = false) :
    Ready (call :: past) id req service := by
  refine ready.extend (List.suffix_cons _ _) ?_
  intro other member committed
  rcases List.mem_cons.mp member with rfl | older
  · rw [neutral] at committed
    cases committed
  · exact older

theorem startSandbox_snapshot (id : String) (req : RunnerRequest) (st : RunnerState)
    (profile : RunnerProfile) (service : SandboxService) (ready : Ready past id req service) :
    Keeps snapshotContract (startSandbox server id req st profile service) (fun _ _ => True)
      past := by
  have fails (stage : String) (err : GoError) (later : List Answered) :
      Keeps snapshotContract (failStart server id st stage err) (fun _ _ => True) later :=
    within_ends (failStart_within server id st stage err) rfl
  apply keeps_seq
  refine within_snapshot (resolveTemplate_within service profile) rfl ?_
  intro template later extends_ kept
  have ready := ready.extend extends_ kept
  cases template with
  | error err => exact fails _ err later
  | ok templateID =>
      refine keeps_call True.intro fun answer => ?_
      cases answer with
      | error err => exact fails _ err _
      | ok token =>
          refine keeps_call True.intro fun answer => ?_
          cases answer with
          | error err => exact fails _ err _
          | ok repositoryURL =>
              refine keeps_call ⟨id, req, (ready.call rfl).call rfl, rfl⟩ fun answer => ?_
              cases answer with
              | error err => exact fails _ err _
              | ok result => exact within_ends (startRecorded_within id result) rfl

theorem startCreated_snapshot (id workerID : String) (req : RunnerRequest) (st : RunnerState)
    (profile : RunnerProfile) (reads : (⟨.readRequest id, .ok req⟩ : Answered) ∈ past)
    (open_ : ∀ call ∈ past, commits call = false) :
    Keeps snapshotContract (startCreated server id workerID req st profile) (fun _ _ => True)
      past := by
  have fails (st : RunnerState) (err : GoError) (stage : String) (later : List Answered) :
      Keeps snapshotContract (failStart server id st stage err) (fun _ _ => True) later :=
    within_ends (failStart_within server id st stage err) rfl
  apply keeps_seq
  refine within_snapshot (ensureWorkflowJobStillQueued_within req) rfl ?_
  intro shouldStart later extends_ kept
  have reads := extends_.subset reads
  have open_ : ∀ call ∈ later, commits call = false := by
    intro call member
    by_contra committed
    have committed := Bool.not_eq_false _ ▸ committed
    have fresh := open_ call (kept call member committed)
    rw [committed] at fresh
    cases fresh
  rcases shouldStart with err | _ | _
  · exact fails st err _ later
  · exact keeps_call True.intro fun _ => keeps_return True.intro
  · refine keeps_call True.intro fun answer => ?_
    cases answer with
    | error err => exact fails st err _ _
    | ok service =>
        have resolved : Ready (⟨.resolveSandboxService req, .ok service⟩ :: later) id req service := by
          refine ⟨List.mem_cons_of_mem _ reads, ⟨req, List.mem_cons_self⟩, ?_⟩
          intro call member committed
          rcases List.mem_cons.mp member with rfl | older
          · cases committed
          · rw [open_ call older] at committed
            cases committed
        dsimp only
        split
        · -- a service of its own is written to the row before anything is started with it
          refine keeps_call True.intro fun answer => ?_
          cases answer with
          | error err => exact fails st _ _ _
          | ok current =>
              have open_ : ∀ call ∈ (⟨.readState id, .ok current⟩ : Answered) ::
                  ⟨.resolveSandboxService req, .ok service⟩ :: later, commits call = false := by
                rintro call (_ | ⟨_, _ | ⟨_, older⟩⟩)
                · rfl
                · rfl
                · exact open_ call older
              refine keeps_call open_ fun answer => ?_
              cases answer with
              | error err => exact fails _ _ _ _
              | ok _ =>
                  refine startSandbox_snapshot id req st profile service ?_
                  refine ⟨List.mem_cons_of_mem _ (List.mem_cons_of_mem _ resolved.reads),
                    ⟨req, List.mem_cons_of_mem _ (List.mem_cons_of_mem _ List.mem_cons_self)⟩, ?_⟩
                  intro call member committed
                  rcases List.mem_cons.mp member with rfl | older
                  · exact ⟨current, List.mem_cons_of_mem _ List.mem_cons_self, rfl⟩
                  · rw [open_ call older] at committed
                    cases committed
        · exact startSandbox_snapshot id req st profile service resolved

theorem startAdmitted_snapshot (id workerID : String) (req : RunnerRequest) (st : RunnerState)
    (profile : RunnerProfile) (reads : (⟨.readRequest id, .ok req⟩ : Answered) ∈ past)
    (open_ : ∀ call ∈ past, commits call = false) :
    Keeps snapshotContract (startAdmitted server id workerID req st profile) (fun _ _ => True)
      past := by
  refine keeps_call True.intro fun now => keeps_call True.intro fun answer => ?_
  cases answer with
  | error err =>
      refine keeps_call True.intro fun _ => keeps_call True.intro fun _ => ?_
      exact keeps_call True.intro fun _ => keeps_return True.intro
  | ok _ =>
      refine keeps_call True.intro fun _ => keeps_call True.intro fun _ => ?_
      refine startCreated_snapshot id workerID req _ profile ?_ ?_
      · exact List.mem_append_right [_, _, _, _] reads
      · rintro call (_ | ⟨_, _ | ⟨_, _ | ⟨_, _ | ⟨_, older⟩⟩⟩⟩)
        · rfl
        · rfl
        · rfl
        · rfl
        · exact open_ call older

theorem startRunner_snapshot (id workerID : String) :
    Keeps snapshotContract (startRunner server id workerID) (fun _ _ => True) [] := by
  have drops (later : List Answered) :
      Keeps snapshotContract (dropLease id workerID) (fun _ _ => True) later :=
    keeps_call True.intro fun _ => keeps_return True.intro
  refine keeps_call True.intro fun _ => keeps_call True.intro fun answer => ?_
  cases answer with
  | error err => exact keeps_last True.intro fun _ => True.intro
  | ok req =>
      refine keeps_call True.intro fun answer => ?_
      cases answer with
      | error err => exact keeps_last True.intro fun _ => True.intro
      | ok st =>
          dsimp only
          split
          · exact keeps_call True.intro fun _ => drops _
          · refine keeps_call True.intro fun answer => ?_
            cases answer with
            | error err =>
                refine keeps_call True.intro fun _ => ?_
                exact within_ends (failStart_within server id st _ _) rfl
            | ok profile =>
                refine keeps_call True.intro fun _ => keeps_call True.intro fun answer => ?_
                cases answer with
                | error err =>
                    refine keeps_call True.intro fun _ => keeps_call True.intro fun _ => ?_
                    exact drops _
                | ok inFlight =>
                    have reads : (⟨.readRequest id, .ok req⟩ : Answered) ∈
                        ⟨.inFlightCount, .ok inFlight⟩ :: admissionPrelude id req st profile := by
                      simp [admissionPrelude]
                    have open_ : ∀ call ∈ (⟨.inFlightCount, .ok inFlight⟩ : Answered) ::
                        admissionPrelude id req st profile, commits call = false := by
                      simp [admissionPrelude, commits]
                    dsimp only
                    split
                    · exact within_ends (startDeferred_within id workerID) rfl
                    · split
                      · exact startAdmitted_snapshot id workerID req st profile reads open_
                      · apply keeps_seq
                        refine within_snapshot (profileAtCapacityFor_within profile) rfl ?_
                        rintro (err | _ | _) later extends_ kept
                        · refine keeps_call True.intro fun _ => keeps_call True.intro fun _ => ?_
                          exact drops _
                        · refine startAdmitted_snapshot id workerID req st profile
                            (extends_.subset reads) ?_
                          intro call member
                          by_contra committed
                          have committed := Bool.not_eq_false _ ▸ committed
                          have fresh := open_ call (kept call member committed)
                          rw [committed] at fresh
                          cases fresh
                        · exact within_ends (startDeferred_within id workerID) rfl

/-- The contract of an attempt; the other goroutines owe nothing here. -/
def snapshotDuty : Task → List Answered → Op → Prop
  | .startRunner _ => snapshotContract
  | _ => fun _ _ => True

theorem task_snapshot (server : Server) (task : Task) :
    Keeps (snapshotDuty task) (taskBody server task) (fun _ _ => True) [] := by
  cases task with
  | startRunner claimed =>
      apply keeps_seq
      refine keeps_mono ?_ (startRunner_snapshot claimed.id server.workerID)
      intro _ later _
      exact keeps_last True.intro fun _ => True.intro
  | _ => exact keeps_permitted (fun _ _ => True.intro) _ _

end Attempts

section Rows
variable {server : Server} {condition : RunnerWorld → RunnerMove → Prop} {table : RequestTable}
  {world : RunnerWorld}

theorem snapshots_remembered (reaches : (machine server).Reaches condition (opened table) world) :
    Machine.Informed (fun state _ _ _ past =>
      ∀ base, Knows past base → RememberedPart snapshot state.table.rows base) world := by
  induction reaches with
  | refl =>
      intro tid thread live
      cases live
  | step move _ _ stepped ih => exact part_step snapshot snapshot_leased snapshot_written ih stepped

theorem resets_write {id : String} {call : Answered} {credentials : Credentials}
    (reset : resets id call = some (some credentials)) :
    ∃ writer st, call = ⟨.writeState writer st, .ok ()⟩ ∧ writer.snapshots = true ∧
      sanitizeID st.id = id ∧ snapshot st = credentials := by
  unfold resets at reset
  split at reset
  · split at reset <;> cases reset
  · split at reset
    · rename_i own
      cases reset
      exact ⟨_, _, rfl, own.1, own.2, rfl⟩
    · cases reset
  · cases reset

/-- The last call that sets the credential columns has stored them. -/
theorem standing_write {id : String} {trace : List RunnerEvent} {credentials : Credentials}
    (stands : standing id trace = some credentials) :
    ∃ event ∈ trace, resets id event.call = some (some credentials) := by
  induction trace with
  | nil => cases stands
  | cons event earlier ih =>
      rw [standing] at stands
      cases reset : resets id event.call with
      | none =>
          rw [reset] at stands
          obtain ⟨older, member, found⟩ := ih stands
          exact ⟨older, List.mem_cons_of_mem _ member, found⟩
      | some left =>
          rw [reset] at stands
          cases stands
          exact ⟨event, List.mem_cons_self, reset⟩

/-- The row holds the snapshot that was stored last. -/
def SnapshotStored (trace : List RunnerEvent) (row : RunnerRequestRecord) : Prop :=
  ∀ credentials, standing row.id trace = some credentials → snapshot row.toRunnerState = credentials

theorem Turn.keepsSnapshot {tid : Nat} {choice : Choice} {thread : RunnerThread} {op : Op}
    {resp : op.Resp} {state : ServerState}
    (turn : Turn server world tid choice thread op resp state)
    (reaches : (machine server).Reaches condition (opened table) world)
    {row next : RunnerRequestRecord} (here : row ∈ world.state.table.rows)
    (known : SnapshotStored world.trace row)
    (change : Change server thread.past choice.now ⟨op, resp⟩ row next) :
    SnapshotStored (eventOf tid thread op resp :: world.trace) next := by
  intro credentials stands
  rw [standing, change.sameID] at stands
  cases change with
  | @written writer st base row matched knows edit same =>
      have keys := matched
      simp only [versionMatches, Bool.and_eq_true, beq_iff_eq] at keys
      rw [snapshot_written]
      by_cases sets : writer.snapshots = true
      · rw [resets, if_pos ⟨sets, keys.1.symm⟩] at stands
        cases stands
        rfl
      · rw [resets, if_neg fun own => sets own.1] at stands
        have kept : snapshot st = snapshot base := edit_snapshot edit (Bool.not_eq_true _ ▸ sets)
        have request := (edit_custody edit).1
        have seen := snapshots_remembered reaches tid thread turn.live turn.pending base knows
        have key : sanitizeID base.id = rowID row := by
          rw [← request.id]
          exact keys.1.symm
        rw [RememberedPart, key] at seen
        have found := seen_current world.state.table.primaryKey seen here
          (keys.2.trans request.version)
        exact kept.trans (found.symm.trans (known credentials stands))
  | claimed free => exact known credentials stands
  | released matched => exact known credentials stands
  | retried allowed named =>
      rw [resets, if_pos named.symm] at stands
      cases stands

theorem snapshots_stored (reaches : (machine server).Reaches condition (opened table) world) :
    ∀ row ∈ world.state.table.rows, SnapshotStored world.trace row := by
  refine history_invariant SnapshotStored ?_ ?_ ?_ ?_ reaches
  · intro row _ credentials stands
    cases stands
  · intro world tid choice thread op resp state row before turn _ added fresh credentials stands
    obtain ⟨event, member, reset⟩ := standing_write stands
    obtain ⟨writer, st, wrote, _, same, _⟩ := resets_write reset
    rcases List.mem_cons.mp member with rfl | older
    · cases added with
      | created => cases reset
    · obtain ⟨old, present, key⟩ := written_row before older wrote
      exact absurd (key.trans same) (fresh old present)
  · intro world tid choice thread op resp state row before turn _ here still known credentials stands
    rw [standing] at stands
    cases reset : resets row.id (⟨op, resp⟩ : Answered) with
    | none =>
        rw [reset] at stands
        exact known credentials stands
    | some left =>
        rw [reset] at stands
        cases stands
        obtain ⟨writer, st, wrote, _, same, _⟩ := resets_write reset
        exact absurd same (turn.unwritten here still wrote)
  · intro world tid choice thread op resp state row next before turn _ here known change
    exact turn.keepsSnapshot before here known change

end Rows

section Requests
variable {server : Server} {condition : RunnerWorld → RunnerMove → Prop} {table : RequestTable}
  {world : RunnerWorld} {tid : Nat} {choice : Choice} {state after : ServerState}

/-- The last request that the goroutine has read. -/
def requestRead : List Answered → Option (String × Except GoError RunnerRequest)
  | [] => none
  | ⟨.readRequest id, answer⟩ :: _ => some (id, answer)
  | _ :: past => requestRead past

/-- The request that was read last carries the snapshot that stood then. -/
def RequestFits (trace : List RunnerEvent) (tid : Nat) (past : List Answered) : Prop :=
  ∀ id req, requestRead past = some (id, .ok req) →
    ∃ before, lastRead tid trace = some (id, before) ∧
      ∀ credentials, standing (sanitizeID id) before = some credentials →
        (trimSpace req.sandboxAPIURL, trimSpace req.sandboxAPIKeyEncrypted) = credentials

theorem lastRead_other {event : RunnerEvent} {trace : List RunnerEvent}
    (silent : event.tid ≠ tid ∨ asksFor event.call = none) :
    lastRead tid (event :: trace) = lastRead tid trace := by
  rw [lastRead]
  rcases silent with other | unasked
  · rw [if_neg other]
  · rw [unasked]
    split <;> rfl

theorem requests_fit (reaches : (machine server).Reaches condition (opened table) world) :
    Machine.Informed (fun _ trace tid _ past => RequestFits trace tid past) world := by
  induction reaches with
  | refl =>
      intro tid thread live
      cases live
  | @step world after move before _ stepped ih =>
      refine Machine.informed_step ih stepped ?_ ?_ ?_
      · intro state trace tid task id req read
        cases read
      · intro tid choice thread op resp rest state acts _ known id req read
        by_cases asks : asksFor (⟨op, resp⟩ : Answered) = none
        · have quiet : requestRead (⟨op, resp⟩ :: thread.past) = requestRead thread.past := by
            cases op with
            | readRequest asked => cases asks
            | _ => rfl
          rw [quiet] at read
          rw [lastRead_other (.inr asks)]
          exact known id req read
        · cases op with
          | readRequest asked =>
              cases read
              have answer : respond server tid choice world.state (.readRequest id) =
                  some (.ok req, state) := acts.answer
              obtain ⟨_, row, here, rfl, same⟩ := readRequest_answered answer
              refine ⟨world.trace, by simp [lastRead, asksFor], ?_⟩
              intro credentials stands
              exact snapshots_stored before row here credentials (same ▸ stands)
          | _ => exact absurd rfl asks
      · intro tid choice thread op resp rest state other found _ _ different _ _ known id req read
        rw [lastRead_other (.inl fun same => different same.symm)]
        exact known id req read

theorem lastRead_suffix {trace before : List RunnerEvent} {id : String}
    (read : lastRead tid trace = some (id, before)) : before <:+ trace := by
  induction trace with
  | nil => cases read
  | cons event earlier ih =>
      have grows : earlier <:+ event :: earlier := List.suffix_cons _ _
      rw [lastRead] at read
      split at read
      · split at read
        · cases read
          exact grows
        · exact (ih read).trans grows
      · exact (ih read).trans grows

/-- Without an injected service, a request with a snapshot resolves to it. -/
def resolvesSnapshot : Answered → Prop
  | ⟨.resolveSandboxService req, .ok service⟩ =>
      trimSpace req.sandboxAPIURL ≠ "" → trimSpace req.sandboxAPIKeyEncrypted ≠ "" →
        service.credentials = (trimSpace req.sandboxAPIURL, trimSpace req.sandboxAPIKeyEncrypted)
  | _ => True

theorem resolves_reachable (uninjected : server.injectedSandbox = none)
    (reaches : (machine server).Reaches condition (opened table) world) :
    ∀ event ∈ world.trace, resolvesSnapshot event.call := by
  refine Machine.trace_reachable resolvesSnapshot ?_ ?_ reaches
  · intro event member
    cases member
  · rintro world move ⟨op, resp⟩ _ answered
    obtain ⟨tid, choice, thread, rest, state, rfl, acts⟩ := Machine.answered_acts answered
    unfold resolvesSnapshot
    split
    · rename_i req service same
      cases same
      intro url key
      have answer : some (resolveService server req choice.service, world.state) =
          some (.ok service, state) := acts.answer
      simp only [resolveService, uninjected, if_pos (And.intro url key), Option.some.injEq,
        Prod.mk.injEq] at answer
      obtain ⟨resolved, -⟩ := answer
      cases chosen : choice.service with
      | error err =>
          rw [chosen] at resolved
          cases resolved
      | ok found =>
          rw [chosen] at resolved
          cases resolved
          rfl
    · trivial

end Requests

section Worlds
variable {server : Server} {condition : RunnerWorld → RunnerMove → Prop} {table : RequestTable}
  {world : RunnerWorld}

theorem createdWith_start {id sandboxID : String} {call : Answered} {credentials : Credentials}
    (created : createdWith id sandboxID call = some credentials) :
    ∃ service input result, call = ⟨.startRunner service input, .ok result⟩ ∧
      sanitizeID input.requestID = sanitizeID id ∧ service.credentials = credentials := by
  unfold createdWith at created
  split at created
  · split at created
    · rename_i same
      cases created
      exact ⟨_, _, _, rfl, same.2, rfl⟩
    · cases created
  · cases created

theorem storesSnapshot_write {call : Answered} (stores : storesSnapshot call = true) :
    ∃ st, call = ⟨.writeState .startSnapshot st, .ok ()⟩ := by
  unfold storesSnapshot at stores
  split at stores
  · exact ⟨_, rfl⟩
  · cases stores

theorem stored_ids (reaches : (machine server).Reaches condition (opened table) world) :
    ∀ event ∈ world.trace, storedID event.call.op event.call.resp := by
  refine Machine.trace_reachable (fun call => storedID call.op call.resp) ?_ ?_ reaches
  · intro event member
    cases member
  · rintro world move ⟨op, resp⟩ _ answered
    obtain ⟨tid, choice, thread, rest, state, rfl, acts⟩ := Machine.answered_acts answered
    exact storedID_answered acts.answer

/-- Only an attempt calls `StartRunner`. -/
theorem start_attempts (reaches : (machine server).Reaches condition (opened table) world)
    {tid : Nat} {thread : RunnerThread} (live : world.threads[tid]? = some thread)
    {service : SandboxService} {input : StartInput} {answer : Except GoError StartResult}
    (called : (⟨.startRunner service input, answer⟩ : Answered) ∈ thread.past) :
    ∃ claimed, thread.task = .startRunner claimed := by
  have ruled : Machine.Ruled (fun task => task.role.protocol) none (Task.fits fun _ => True) world :=
    roles_reachable server (fun _ _ _ _ _ => True.intro) reaches
  obtain ⟨later, earlier, split⟩ := List.append_of_mem called
  have permitted := ruled.followed tid thread live _ earlier ⟨later, split.symm⟩
  have attempts : thread.task.role.attempts = true := permitted.1
  cases task : thread.task with
  | startRunner claimed => exact ⟨claimed, rfl⟩
  | _ =>
      rw [task] at attempts
      cases attempts

/-- What the attempt of a start has stored is what it started with. -/
theorem attempt_stored (reaches : (machine server).Reaches condition (opened table) world)
    {start stored : RunnerEvent} (started : start ∈ world.trace) (recorded : stored ∈ world.trace)
    (same : stored.tid = start.tid) {service : SandboxService} {input : StartInput}
    {answer : Except GoError StartResult} (starts : start.call = ⟨.startRunner service input, answer⟩)
    {st : RunnerState} (stores : stored.call = ⟨.writeState .startSnapshot st, .ok ()⟩) :
    ∃ base, st = snapshotState base service ∧ sanitizeID st.id = sanitizeID input.requestID := by
  obtain ⟨thread, live, called⟩ := Machine.traced_reachable rfl reaches started
  obtain ⟨found, there, wrote⟩ := Machine.traced_reachable rfl reaches recorded
  rw [same] at there
  obtain rfl : thread = found := Option.some.inj (live.symm.trans there)
  rw [starts] at called
  rw [stores] at wrote
  obtain ⟨claimed, task⟩ := start_attempts reaches live called
  have kept {call : Answered} {earlier : List Answered} (suffix : call :: earlier <:+ thread.past) :
      snapshotContract earlier call.op := by
    have duty := Machine.kept_past (task_snapshot server) rfl reaches live suffix
    rw [task] at duty
    exact duty
  obtain ⟨later, earlier, split⟩ := List.append_of_mem called
  rw [split] at wrote
  rcases List.mem_append.mp wrote with newer | older
  · -- an attempt that has started stores no snapshot any more
    obtain ⟨last, first, cut⟩ := List.append_of_mem newer
    have suffix : (⟨.writeState .startSnapshot st, .ok ()⟩ : Answered) ::
        (first ++ ⟨.startRunner service input, answer⟩ :: earlier) <:+ thread.past :=
      ⟨last, by rw [split, cut, List.append_assoc, List.cons_append]⟩
    have open_ := kept suffix
    have committed := open_ ⟨.startRunner service input, answer⟩
      (List.mem_append_right _ List.mem_cons_self)
    cases committed
  · rcases List.mem_cons.mp older with impossible | older
    · cases impossible
    · obtain ⟨id, req, ready, named⟩ := kept ⟨later, split.symm⟩
      obtain ⟨base, reads, stored⟩ := ready.stored _ older rfl
      cases stored
      have ids {call : Answered} (member : call ∈ earlier) : storedID call.op call.resp := by
        have past : call ∈ thread.past := by
          rw [split]
          exact List.mem_append_right _ (List.mem_cons_of_mem _ member)
        exact stored_ids reaches _
          ((coherent_reachable reaches).obeys.recorded _ thread live call past)
      have row : base.id = sanitizeID id := ids reads
      have request : req.id = sanitizeID id := ids ready.reads
      refine ⟨base, rfl, ?_⟩
      rw [named, request, ← row]
      rfl

/-- The service of a start was resolved by its attempt. -/
theorem start_resolved (reaches : (machine server).Reaches condition (opened table) world)
    {start : RunnerEvent} (started : start ∈ world.trace) {service : SandboxService}
    {input : StartInput} {answer : Except GoError StartResult}
    (starts : start.call = ⟨.startRunner service input, answer⟩) :
    ∃ event ∈ world.trace, ∃ req, event.call = ⟨.resolveSandboxService req, .ok service⟩ := by
  obtain ⟨thread, live, called⟩ := Machine.traced_reachable rfl reaches started
  rw [starts] at called
  obtain ⟨claimed, task⟩ := start_attempts reaches live called
  obtain ⟨later, earlier, split⟩ := List.append_of_mem called
  have duty := Machine.kept_past (task_snapshot server) rfl reaches live ⟨later, split.symm⟩
  rw [task] at duty
  obtain ⟨id, req, ready, _⟩ := duty
  obtain ⟨asked, resolved⟩ := ready.resolved
  have past : (⟨.resolveSandboxService asked, .ok service⟩ : Answered) ∈ thread.past := by
    rw [split]
    exact List.mem_append_right _ (List.mem_cons_of_mem _ resolved)
  exact ⟨_, (coherent_reachable reaches).obeys.recorded _ thread live _ past, asked, rfl⟩

theorem stands_standing {id : String} {credentials : Credentials} {attempt : Nat}
    {trace : List RunnerEvent}
    (own : ∀ event ∈ trace, event.tid = attempt → storesSnapshot event.call = true →
      resets id event.call = some (some credentials))
    (stands : snapshotStands id credentials attempt trace = true) :
    standing id trace = some credentials := by
  induction trace with
  | nil => cases stands
  | cons event earlier ih =>
      simp only [snapshotStands, Bool.or_eq_true, Bool.and_eq_true, beq_iff_eq] at stands
      rw [standing]
      rcases stands with ⟨same, stores⟩ | ⟨kept, older⟩
      · rw [own event List.mem_cons_self same stores]
        rfl
      · have before := ih (fun event member => own event (List.mem_cons_of_mem _ member)) older
        cases reset : resets id event.call with
        | none => exact before
        | some left =>
            rw [reset, Option.all_some, beq_iff_eq] at kept
            exact kept

/-- What the runs of this module meet: every service that is resolved is
configured, and every stop finds the snapshot of its sandbox. -/
def stableCondition (server : Server) (world : RunnerWorld) (move : RunnerMove) : Bool :=
  guarded server (fun _ => resolvesConfigured) world move && inOrder server credentialGuard world move

abbrev Stable (server : Server) (world : RunnerWorld) (move : RunnerMove) : Prop :=
  stableCondition server world move = true

theorem configured_reachable (reaches : (machine server).Reaches (Stable server) (opened table) world) :
    ∀ event ∈ world.trace, resolvesConfigured event.call = true := by
  refine Machine.trace_reachable (fun call => resolvesConfigured call = true) ?_ ?_ reaches
  · intro event member
    cases member
  · intro world move call meets answered
    simp only [Stable, stableCondition, Bool.and_eq_true, guarded, answered, Option.all_some]
      at meets
    exact meets.1

/-- A start is made with a URL and a key, and the snapshot of its attempt holds
both. -/
theorem start_snapshot (reaches : (machine server).Reaches (Stable server) (opened table) world)
    {start : RunnerEvent} (started : start ∈ world.trace) {id sandboxID : String}
    {credentials : Credentials}
    (created : createdWith id sandboxID start.call = some credentials) :
    credentials.1 ≠ "" ∧ credentials.2 ≠ "" ∧
      ∀ event ∈ world.trace, event.tid = start.tid → storesSnapshot event.call = true →
        resets (sanitizeID id) event.call = some (some credentials) := by
  obtain ⟨service, input, result, starts, named, rfl⟩ := createdWith_start created
  obtain ⟨event, recorded, req, resolved⟩ := start_resolved reaches started starts
  have whole := configured_reachable reaches event recorded
  rw [resolved] at whole
  obtain ⟨⟨url, someURL⟩, key, someKey⟩ := configured_iff.mp whole
  refine ⟨someURL, someKey, ?_⟩
  intro event recorded same stores
  obtain ⟨st, wrote⟩ := storesSnapshot_write stores
  obtain ⟨base, rfl, own⟩ := attempt_stored reaches started recorded same starts wrote
  rw [wrote, resets, if_pos ⟨rfl, own.trans named⟩]
  simp only [snapshot, snapshotState, url, key, SandboxService.credentials]

theorem Turn.stopsStable {tid : Nat} {choice : Choice} {thread : RunnerThread} {op : Op}
    {resp : op.Resp} {state : ServerState}
    (turn : Turn server world tid choice thread op resp state)
    (uninjected : server.injectedSandbox = none)
    (reaches : (machine server).Reaches (Stable server) (opened table) world)
    (meets : Stable server world (.run tid choice)) :
    keepsCredentials (eventOf tid thread op resp) world.trace = true := by
  cases op with
  | stopRunner service sandboxID pid =>
      obtain ⟨id, req, earlier, past⟩ := turn.permits
      have last : requestRead thread.past = some (id, .ok req) := by
        rw [past]
        rfl
      obtain ⟨before, read, fits⟩ := requests_fit reaches tid thread turn.live turn.pending id req last
      have guard := turn.in_order (Bool.and_eq_true_iff.mp meets).2
      simp only [credentialGuard, read, Option.all_some, List.all_eq_true] at guard
      simp only [keepsCredentials, read, Option.any_some, List.all_eq_true]
      intro start started
      cases created : createdWith id sandboxID start.call with
      | none => rfl
      | some credentials =>
          obtain ⟨url, key, own⟩ := start_snapshot reaches started created
          have stands := guard start started
          rw [created, Option.all_some] at stands
          have stood := stands_standing
            (fun event member => own event ((lastRead_suffix read).subset member)) stands
          have carried := fits credentials stood
          have resolved : (⟨.resolveSandboxService req, .ok service⟩ : Answered) ∈ thread.past := by
            rw [past]
            exact List.mem_cons_self
          obtain ⟨event, recorded, same⟩ := turn.recorded resolved
          have resolves := resolves_reachable uninjected reaches event recorded
          rw [same] at resolves
          rw [Option.all_some, beq_iff_eq]
          subst carried
          exact (resolves url key).symm
  | _ => rfl

/-- Along the guarded runs every stop uses the credentials that its sandbox was
created with. -/
theorem credentials_stable (uninjected : server.injectedSandbox = none)
    (reaches : (machine server).Reaches (Stable server) (opened table) world)
    {event : RunnerEvent} {earlier : List RunnerEvent} (suffix : event :: earlier <:+ world.trace) :
    keepsCredentials event earlier = true := by
  induction reaches with
  | refl => cases List.suffix_nil.mp suffix
  | step move before meets stepped ih =>
      obtain ⟨tid, choice, thread, op, resp, rest, state, rfl, acts, rfl⟩ | ⟨task, rfl, _, rfl⟩ |
        ⟨rfl, rfl⟩ := (machine server).step_cases stepped
      · rcases List.suffix_cons_iff.mp suffix with last | older
        · cases last
          exact (turn_of_acts (coherent_reachable before) acts).stopsStable uninjected before meets
        · exact ih older
      · exact ih suffix
      · exact ih suffix

end Worlds

section Samples

def servedBy (apiURL : String) : Choice :=
  { service := .ok { apiURL := apiURL, encryptedAPIKey := "v1:key" } }

/-- The attempt for job 1, goroutine 2, has stored the credentials that the
scopes resolve to and waits for `StartRunner`. -/
def untilServed : List RunnerMove :=
  jobEvent .queued (sampleJob 1) :: turns 0 (plain 5) ++
    .start (.processQueuedRequests 1) :: turns 1 (plain 4) ++
    turns 2 (plain 10 ++ { job := .ok (sampleJob 1) } :: servedBy "https://old" :: plain 4)

/-- A stop of `sbx` with the service at this URL, made last. -/
def stopsAt (apiURL : String) : List RunnerEvent → Bool
  | ⟨_, _, ⟨.stopRunner service "sbx" _, _⟩⟩ :: _ => service.apiURL == apiURL
  | _ => false

/-- The preferences change, and goroutine 4 still stops `sbx` where it was
created. -/
theorem credentials_stable_changed :
    ∃ world event earlier, (machine scopedServer).Reaches (Stable scopedServer)
        (opened .empty) world ∧
      event :: earlier <:+ world.trace ∧ stopsAt "https://old" (event :: earlier) = true ∧
      keepsCredentials event earlier = true := by
  have ran : ((machine scopedServer).runChecked (stableCondition scopedServer)
      (untilServed ++ turns 2 (startedAs "sbx" :: plain 4) ++ .start (.deleteRunner "1") ::
        turns 4 (plain 4 ++ servedBy "https://new" :: plain 1)) (opened .empty)).any (fun world =>
          stopsAt "https://old" world.trace) = true := by
    decide +kernel
  obtain ⟨world, reaches, stops⟩ := Machine.reaches_any ran
  cases trace : world.trace with
  | nil =>
      rw [trace] at stops
      cases stops
  | cons event earlier =>
      have suffix : event :: earlier <:+ world.trace := trace ▸ List.suffix_rfl
      rw [trace] at stops
      exact ⟨world, event, earlier, reaches, suffix, stops, credentials_stable rfl reaches suffix⟩

/-- The sweeper, goroutine 3, gives the attempt up, and an admin retries the
request. The scopes have changed when `sbx` comes, which the attempt no longer
wants. -/
def untilMisdirected : List RunnerMove :=
  untilServed ++ .start .sweepOnce :: turns 3 (plain 1 ++ { now := 61 * second } :: plain 5) ++
    .start (.retryRunner "1") :: turns 4 (plain 2) ++
    turns 2 (startedAs "sbx" :: plain 4 ++ servedBy "https://new" :: plain 1)

/-- The attempt stops its sandbox with credentials it never started it with. -/
theorem credentials_misdirected :
    ¬∀ (server : Server) (world : RunnerWorld) (event : RunnerEvent) (earlier : List RunnerEvent),
      server.injectedSandbox = none →
      (machine server).Reaches (fun world move =>
        guarded server (fun _ => resolvesConfigured) world move = true) (opened .empty) world →
      event :: earlier <:+ world.trace → keepsCredentials event earlier = true := by
  intro always
  have ran : ((machine scopedServer).runChecked (guarded scopedServer (fun _ => resolvesConfigured))
      untilMisdirected (opened .empty)).any (fun world =>
        match world.trace with
        | event :: earlier => !keepsCredentials event earlier
        | [] => false) = true := by
    decide +kernel
  obtain ⟨world, reaches, found⟩ := Machine.reaches_any ran
  cases trace : world.trace with
  | nil =>
      rw [trace] at found
      cases found
  | cons event earlier =>
      have suffix : event :: earlier <:+ world.trace := trace ▸ List.suffix_rfl
      rw [trace] at found
      have kept := always scopedServer world event earlier rfl reaches suffix
      simp [kept] at found

end Samples

end Runnerd
