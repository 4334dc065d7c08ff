import Runnerd.GitHubClient

/-!
What the client keeps in memory, over any interleaving of its callers: a registration token
is handed out for the owner or repository that GitHub issued it for, and a request carries
the installation that GitHub named for its repository.
-/

namespace Runnerd.GitHubClient

open GoText Interaction Interleaving

section Targets

theorem runnerTarget_ok {repositoryFullName runnerGroup : String} {target : RunnerTarget}
    (named : runnerTarget repositoryFullName runnerGroup = .ok target) :
    (∃ owner, target.apiPath = "orgs/" ++ owner ∧ target.webURL = "https://github.com/" ++ owner ∧
        target.cacheKey = "org:" ++ owner) ∨
      ∃ repository, target.apiPath = "repos/" ++ repository ∧
        target.webURL = "https://github.com/" ++ repository ∧
        target.cacheKey = "repo:" ++ repository := by
  unfold runnerTarget at named
  dsimp only at named
  by_cases blank : trimSpace repositoryFullName = ""
  · simp [blank] at named
  · rw [if_neg blank] at named
    split at named
    · simp at named
    · rename_i owner _ _
      by_cases ownerless : owner = ""
      · simp [ownerless] at named
      · rw [if_neg ownerless] at named
        by_cases grouped : trimSpace runnerGroup ≠ ""
        · rw [if_pos grouped, Except.ok.injEq] at named
          subst named
          exact Or.inl ⟨owner, rfl, rfl, rfl⟩
        · rw [if_neg grouped, Except.ok.injEq] at named
          subst named
          exact Or.inr ⟨trimSpace repositoryFullName, rfl, rfl, rfl⟩

theorem org_ne_repo (owner repository : String) : "org:" ++ owner ≠ "repo:" ++ repository := by
  intro same
  have runes := congrArg String.toList same
  simp [String.toList_append] at runes

/-- A key of the cache stands for one path of the API. -/
theorem cacheKey_path {repository group repository' group' : String} {first second : RunnerTarget}
    (here : runnerTarget repository group = .ok first)
    (there : runnerTarget repository' group' = .ok second)
    (same : first.cacheKey = second.cacheKey) :
    first.apiPath = second.apiPath ∧ first.webURL = second.webURL := by
  have cancel : ∀ {front a b : String}, front ++ a = front ++ b → a = b := by
    intro front a b both
    have runes := congrArg String.toList both
    rw [String.toList_append, String.toList_append] at runes
    exact String.toList_inj.mp (List.append_cancel_left runes)
  rcases runnerTarget_ok here with ⟨a, path, url, key⟩ | ⟨a, path, url, key⟩ <;>
    rcases runnerTarget_ok there with ⟨b, path', url', key'⟩ | ⟨b, path', url', key'⟩ <;>
    rw [key, key'] at same
  · rw [path, path', url, url', cancel same]
    exact ⟨rfl, rfl⟩
  · exact absurd same (org_ne_repo a b)
  · exact absurd same.symm (org_ne_repo b a)
  · rw [path, path', url, url', cancel same]
    exact ⟨rfl, rfl⟩

end Targets

section Contracts
variable (client : Client)

/-- GitHub was asked for a token of the target, and this is the one it issued. -/
def Issued (target : RunnerTarget) (token : RegistrationToken) (call : ClientAnswered) : Prop :=
  ∃ credentials reply,
    call = ⟨.send ⟨"POST", registrationTokenURL client target, credentials⟩, .ok reply⟩ ∧
      readRegistrationToken client reply = .ok token

/-- GitHub was asked for the installation of the repository, and this is the one it named. -/
def Named (repository : String) (id : Int) (call : ClientAnswered) : Prop :=
  ∃ reply, call = ⟨.send (installationRequest client repository), .ok reply⟩ ∧
    readInstallation client reply = .ok id

/-- What entitles a request to an installation's credentials. -/
def Licensed (past : List ClientAnswered) (id : Int) (repository : String) : Prop :=
  0 < id ∧ ∃ static, client.appAuth = some static ∧
    (static ≠ 0 ∧ id = static ∨
      static = 0 ∧ (⟨.cachedInstallation repository, id⟩ ∈ past ∨
        ∃ call ∈ past, Named client repository id call))

def sendContract (past : List ClientAnswered) (request : Request) : Prop :=
  match request.credentials with
  | .own => client.appAuth = none
  | .app => client.appAuth = some 0
  | .installation id repository => Licensed client past id repository

/-- A token found in the cache, with enough of its time left. -/
def Found (key : String) (token : RegistrationToken) (past : List ClientAnswered) : Prop :=
  ∃ now, ⟨.cachedRegistrationToken key, (now, some token)⟩ ∈ past

/-- The target that a task asks tokens for. -/
def ClientTask.target : ClientTask → Except GoError RunnerTarget
  | .createRegistrationToken repositoryFullName runnerGroup =>
      runnerTarget repositoryFullName runnerGroup
  | _ => .error { message := "" }

def clientContract (task : ClientTask) (past : List ClientAnswered) : ClientOp → Prop
  | .cachedRegistrationToken _ | .cachedInstallation _ => True
  | .storeRegistrationToken key token => ∃ target, task.target = .ok target ∧
      target.cacheKey = key ∧ ∃ call ∈ past, Issued client target token call
  | .storeInstallation repository id => ∃ call ∈ past, Named client repository id call
  | .send request => sendContract client past request
  | .returned result => ∀ token, result = .ok token → ∃ target, task.target = .ok target ∧
      (Found target.cacheKey token past ∨ ∃ call ∈ past, Issued client target token call)

variable {client} {task : ClientTask} {past : List ClientAnswered}

theorem readRegistrationToken_ne {reply : Reply} {token : RegistrationToken}
    (read : readRegistrationToken client reply = .ok token) : token.token ≠ "" := by
  unfold readRegistrationToken at read
  split at read
  · simp at read
  · split at read
    · simp at read
    · rename_i found _
      by_cases missing : found.token = ""
      · simp [missing] at read
      · rw [if_neg missing, Except.ok.injEq] at read
        exact read ▸ missing

theorem installationID_keeps {static : Int} (auth : client.appAuth = some static)
    (repositoryFullName : String) {post : Except GoError Int → List ClientAnswered → Prop}
    (failed : ∀ err later, past <:+ later → post (.error err) later)
    (got : ∀ id later, past <:+ later →
      (0 < id → Licensed client later id (trimSpace repositoryFullName)) → post (.ok id) later) :
    Keeps (clientContract client task) (installationID client static repositoryFullName) post
      past := by
  unfold installationID
  dsimp only
  by_cases fixed : static ≠ 0
  · rw [if_pos fixed]
    refine keeps_return (got static past List.suffix_rfl fun positive => ?_)
    exact ⟨positive, static, auth, Or.inl ⟨fixed, rfl⟩⟩
  · rw [if_neg fixed]
    have dynamic : static = 0 := not_not.mp fixed
    by_cases blank : trimSpace repositoryFullName = ""
    · rw [if_pos blank]
      exact keeps_return (failed _ _ List.suffix_rfl)
    · rw [if_neg blank]
      refine keeps_call trivial fun cached => ?_
      by_cases known : cached ≠ 0
      · rw [if_pos known]
        refine keeps_return (got cached _ (List.suffix_cons _ _) fun positive => ?_)
        exact ⟨positive, static, auth, Or.inr ⟨dynamic, Or.inl List.mem_cons_self⟩⟩
      · rw [if_neg known]
        have asks : sendContract client (⟨.cachedInstallation (trimSpace repositoryFullName),
            cached⟩ :: past) (installationRequest client (trimSpace repositoryFullName)) := by
          change client.appAuth = some 0
          rw [auth, dynamic]
        refine keeps_call asks fun answer => ?_
        cases answer with
        | error err =>
            exact keeps_return (failed _ _ ((List.suffix_cons _ _).trans (List.suffix_cons _ _)))
        | ok reply =>
            dsimp only
            cases read : readInstallation client reply with
            | error err =>
                exact keeps_return (failed _ _ ((List.suffix_cons _ _).trans (List.suffix_cons _ _)))
            | ok id =>
                have named : Named client (trimSpace repositoryFullName) id
                    ⟨.send (installationRequest client (trimSpace repositoryFullName)),
                      .ok reply⟩ := ⟨reply, rfl, read⟩
                refine keeps_call ⟨_, List.mem_cons_self, named⟩ fun stored => ?_
                refine keeps_return (got id _ ?_ fun positive => ?_)
                · exact ((List.suffix_cons _ _).trans (List.suffix_cons _ _)).trans
                    (List.suffix_cons _ _)
                · exact ⟨positive, static, auth, Or.inr ⟨dynamic, Or.inr
                    ⟨_, List.mem_cons_of_mem _ List.mem_cons_self, named⟩⟩⟩

/-- An answer comes to a request with some credentials. -/
theorem sendFor_keeps (method url repositoryFullName : String)
    {post : Except GoError Reply → List ClientAnswered → Prop}
    (failed : ∀ err later, past <:+ later → post (.error err) later)
    (got : ∀ credentials reply later, past <:+ later →
      ⟨.send ⟨method, url, credentials⟩, .ok reply⟩ ∈ later → post (.ok reply) later) :
    Keeps (clientContract client task) (sendFor client method url repositoryFullName) post
      past := by
  have answered : ∀ credentials before, past <:+ before →
      sendContract client before ⟨method, url, credentials⟩ →
      Keeps (clientContract client task) (askClient (.send ⟨method, url, credentials⟩)) post
        before := by
    intro credentials before extends_ permitted
    refine keeps_last permitted fun answer => ?_
    cases answer with
    | error err => exact failed _ _ (extends_.trans (List.suffix_cons _ _))
    | ok reply =>
        exact got credentials reply _ (extends_.trans (List.suffix_cons _ _)) List.mem_cons_self
  unfold sendFor
  split
  · rename_i auth
    exact answered .own past List.suffix_rfl auth
  · rename_i static auth
    apply keeps_seq
    refine installationID_keeps auth repositoryFullName ?_ ?_
    · exact fun err later extends_ => keeps_return (failed err later extends_)
    · intro id later extends_ licensed
      by_cases missing : id ≤ 0
      · simp only [missing, if_true]
        exact keeps_return (failed _ _ extends_)
      · simp only [missing, if_false]
        exact answered _ later extends_ (licensed (by omega))

theorem followPages_keeps {Failure Item : Type} (lift : GoError → Failure)
    (method repositoryFullName : String) (read : Reply → Except Failure (List Item))
    {post : Except Failure (List Item) → List ClientAnswered → Prop}
    (done : ∀ result later, post result later) (rounds : Nat) (nextURL : String)
    (found : List Item) :
    Keeps (clientContract client task)
      (followPages lift (fun url => sendFor client method url repositoryFullName) read rounds
        nextURL found) post past := by
  induction rounds generalizing nextURL found past with
  | zero =>
      unfold followPages
      by_cases last : nextURL = ""
      · rw [if_pos last]
        exact keeps_return (done _ _)
      · rw [if_neg last]
        exact keeps_return (done _ _)
  | succ rounds ih =>
      unfold followPages
      by_cases last : nextURL = ""
      · rw [if_pos last]
        exact keeps_return (done _ _)
      · rw [if_neg last]
        apply keeps_seq
        refine sendFor_keeps method nextURL repositoryFullName ?_ ?_
        · exact fun err later _ => keeps_return (done _ _)
        · intro credentials reply later _ _
          dsimp only
          cases read reply with
          | error err => exact keeps_return (done _ _)
          | ok items => exact ih _ _

theorem removeRunner_keeps (repositoryFullName runnerGroup : String) (id : Int)
    {post : Except GoError Unit → List ClientAnswered → Prop}
    (done : ∀ result later, post result later) :
    Keeps (clientContract client task) (removeRunner client repositoryFullName runnerGroup id) post
      past := by
  unfold removeRunner
  by_cases missing : id = 0
  · rw [if_pos missing]
    exact keeps_return (done _ _)
  · rw [if_neg missing]
    split
    · exact keeps_return (done _ _)
    · apply keeps_seq
      refine sendFor_keeps _ _ _ (fun err later _ => keeps_return (done _ _)) ?_
      intro credentials reply later _ _
      dsimp only
      by_cases gone : reply.status = 404
      · rw [if_pos gone]
        exact keeps_return (done _ _)
      · rw [if_neg gone]
        exact keeps_return (done _ _)

theorem removeNamed_keeps (repositoryFullName runnerGroup runnerName : String)
    (listed : Except GoError (List Runner)) :
    Keeps (clientContract client task)
      (removeNamed client repositoryFullName runnerGroup runnerName listed) (fun _ _ => True)
      past := by
  cases listed with
  | error err => exact keeps_return trivial
  | ok runners =>
      simp only [removeNamed]
      split
      · exact keeps_return trivial
      · apply keeps_seq
        exact removeRunner_keeps _ _ _ fun _ _ => keeps_return trivial

theorem removeRunnerByName_keeps (rounds : Nat)
    (repositoryFullName runnerGroup runnerName : String) :
    Keeps (clientContract client task)
      (removeRunnerByName client rounds repositoryFullName runnerGroup runnerName)
      (fun _ _ => True) past := by
  unfold removeRunnerByName
  dsimp only
  by_cases blank : trimSpace runnerName = ""
  · rw [if_pos blank]
    exact keeps_return trivial
  · rw [if_neg blank]
    apply keeps_seq
    unfold listRunners
    split
    · exact keeps_return (removeNamed_keeps _ _ _ _)
    · exact followPages_keeps _ _ _ _ (fun listed later => removeNamed_keeps _ _ _ listed) _ _ _

theorem createRegistrationToken_keeps (repositoryFullName runnerGroup : String) :
    Keeps (clientContract client (.createRegistrationToken repositoryFullName runnerGroup))
      (ClientTask.body client (.createRegistrationToken repositoryFullName runnerGroup))
      (fun _ _ => True) [] := by
  have failed : ∀ (err : GoError) (later : List ClientAnswered),
      Keeps (clientContract client (.createRegistrationToken repositoryFullName runnerGroup))
        (askClient (.returned (.error err))) (fun _ _ => True) later := by
    intro err later
    refine keeps_last ?_ fun _ => trivial
    intro token same
    cases same
  apply keeps_seq
  unfold createRegistrationToken
  split
  · exact keeps_return (failed _ _)
  · rename_i target named
    refine keeps_call trivial fun answer => ?_
    obtain ⟨now, cached⟩ := answer
    cases cached with
    | some token =>
        refine keeps_return (keeps_last ?_ fun _ => trivial)
        intro found same
        cases same
        exact ⟨target, named, Or.inl ⟨now, List.mem_cons_self⟩⟩
    | none =>
        apply keeps_seq
        refine sendFor_keeps _ _ _ (fun err later _ => keeps_return (failed err later)) ?_
        intro credentials reply later _ asked
        dsimp only
        cases read : readRegistrationToken client reply with
        | error err => exact keeps_return (failed err later)
        | ok token =>
            have issued : Issued client target token
                ⟨.send ⟨"POST", registrationTokenURL client target, credentials⟩, .ok reply⟩ :=
              ⟨credentials, reply, rfl, read⟩
            refine keeps_call ⟨target, named, rfl, _, asked, issued⟩ fun stored => ?_
            refine keeps_return (keeps_last ?_ fun _ => trivial)
            intro found same
            cases same
            exact ⟨target, named, Or.inr ⟨_, List.mem_cons_of_mem _ asked, issued⟩⟩

theorem client_keeps (task : ClientTask) :
    Keeps (clientContract client task) (task.body client) (fun _ _ => True) [] := by
  cases task with
  | createRegistrationToken repositoryFullName runnerGroup =>
      exact createRegistrationToken_keeps repositoryFullName runnerGroup
  | removeRunnerByName rounds repositoryFullName runnerGroup runnerName =>
      exact keeps_seq (keeps_mono (fun _ _ _ => keeps_return trivial)
        (removeRunnerByName_keeps rounds repositoryFullName runnerGroup runnerName))
  | api method path repositoryFullName =>
      apply keeps_seq
      refine sendFor_keeps _ _ _ (fun err later _ => keeps_return trivial) ?_
      exact fun _ _ _ _ _ => keeps_return trivial

variable {condition : ClientWorld → ClientMove → Prop} {world : ClientWorld}

theorem client_obeys (reaches : (clientMachine client).Reaches condition idleClient world) :
    Machine.Obeys (clientContract client) world := by
  refine Machine.obeys_reachable client_keeps ?_ reaches
  constructor
  · intro tid thread live
    cases live
  · intro tid thread live
    cases live

end Contracts

section Memory
variable (client : Client)

/-- Every entry of the two maps goes back to an answer of GitHub. -/
structure Remembers (world : ClientWorld) : Prop where
  tokens : ∀ key token, world.state.regTokens key = some token →
    ∃ repositoryFullName runnerGroup target, runnerTarget repositoryFullName runnerGroup = .ok target ∧
      target.cacheKey = key ∧ ∃ event ∈ world.trace, Issued client target token event.call
  installations : ∀ repository id, world.state.installationByRepo repository = id → id ≠ 0 →
    ∃ event ∈ world.trace, Named client repository id event.call

variable {client} {condition : ClientWorld → ClientMove → Prop} {world : ClientWorld}

theorem target_of_task {task : ClientTask} {target : RunnerTarget}
    (named : task.target = .ok target) : ∃ repositoryFullName runnerGroup,
      task = .createRegistrationToken repositoryFullName runnerGroup ∧
        runnerTarget repositoryFullName runnerGroup = .ok target := by
  cases task with
  | createRegistrationToken repositoryFullName runnerGroup =>
      exact ⟨repositoryFullName, runnerGroup, rfl, named⟩
  | removeRunnerByName => simp [ClientTask.target] at named
  | api => simp [ClientTask.target] at named

/-- What is left of the tokens after any answer was there before, or is stored by it. -/
theorem regTokens_after {choice : ClientChoice} {state : ClientState} {op : ClientOp} {key : String}
    {token : RegistrationToken}
    (held : (respondClient choice state op).2.regTokens key = some token) :
    state.regTokens key = some token ∨ op = .storeRegistrationToken key token := by
  cases op with
  | cachedRegistrationToken asked =>
      left
      simp only [respondClient, ClientState.cachedToken] at held
      split at held
      · exact held
      · split at held
        · exact held
        · by_cases same : key = asked
          · simp [same] at held
          · simpa [Function.update_of_ne same] using held
  | storeRegistrationToken stored fresh =>
      simp only [respondClient, ClientState.storeToken, Option.filter_eq_some_iff] at held
      by_cases same : key = stored
      · subst same
        rw [Function.update_self, Option.some.injEq] at held
        exact Or.inr (by rw [held.1])
      · rw [Function.update_of_ne same] at held
        exact Or.inl held.1
  | cachedInstallation | storeInstallation | send | returned => exact Or.inl held

theorem installations_after (choice : ClientChoice) (state : ClientState) (op : ClientOp)
    (repository : String) :
    (respondClient choice state op).2.installationByRepo repository =
        state.installationByRepo repository ∨
      ∃ id, op = .storeInstallation repository id ∧
        (respondClient choice state op).2.installationByRepo repository = id := by
  cases op with
  | storeInstallation stored id =>
      by_cases same : repository = stored
      · subst same
        exact Or.inr ⟨id, rfl, Function.update_self ..⟩
      · exact Or.inl (Function.update_of_ne same ..)
  | cachedRegistrationToken asked =>
      left
      simp only [respondClient, ClientState.cachedToken]
      split
      · rfl
      · split <;> rfl
  | storeRegistrationToken | cachedInstallation | send | returned => exact Or.inl rfl

theorem remembers_reachable
    (reaches : (clientMachine client).Reaches condition idleClient world) :
    Remembers client world := by
  induction reaches with
  | refl =>
      constructor
      · intro key token held
        cases held
      · intro repository id held nonzero
        exact absurd held.symm nonzero
  | @step world after move before _ stepped ih =>
      obtain ⟨tid, choice, thread, op, resp, rest, state, rfl, acts, rfl⟩ | ⟨task, rfl, _, rfl⟩ |
        ⟨rfl, rfl⟩ := (clientMachine client).step_cases stepped
      · have obeys := client_obeys before
        have permitted := obeys.permits acts
        have effect : state = (respondClient choice world.state op).2 := by
          have answer := acts.answer
          simp only [clientMachine, Option.some.injEq] at answer
          rw [answer]
        have recorded : ∀ call ∈ thread.past,
            (⟨tid, thread.task, call⟩ : ClientEvent) ∈ world.trace :=
          obeys.recorded tid thread acts.live
        constructor
        · intro key token held
          simp only [Machine.acted] at held ⊢
          rw [effect] at held
          rcases regTokens_after held with kept | rfl
          · obtain ⟨repository, group, target, named, keyed, event, member, issued⟩ :=
              ih.tokens key token kept
            exact ⟨repository, group, target, named, keyed, event,
              List.mem_cons_of_mem _ member, issued⟩
          · obtain ⟨target, own, keyed, call, member, issued⟩ := permitted
            obtain ⟨repository, group, -, named⟩ := target_of_task own
            exact ⟨repository, group, target, named, keyed, _,
              List.mem_cons_of_mem _ (recorded call member), issued⟩
        · intro repository id held nonzero
          simp only [Machine.acted] at held ⊢
          rw [effect] at held
          rcases installations_after choice world.state op repository with same | ⟨stored, rfl, here⟩
          · rw [same] at held
            obtain ⟨event, member, named⟩ := ih.installations repository id held nonzero
            exact ⟨event, List.mem_cons_of_mem _ member, named⟩
          · rw [here] at held
            subst held
            obtain ⟨call, member, named⟩ := permitted
            exact ⟨_, List.mem_cons_of_mem _ (recorded call member), named⟩
      · exact ⟨ih.tokens, ih.installations⟩
      · constructor
        · intro key token held
          cases held
        · intro repository id held nonzero
          exact absurd held.symm nonzero

theorem answer_eq {tid : Nat} {choice : ClientChoice}
    {thread : Thread ClientOp ClientOp.Resp ClientTask} {op : ClientOp} {resp : op.Resp}
    {rest : Prog ClientOp ClientOp.Resp Unit} {state : ClientState}
    (acts : (clientMachine client).Acts world tid choice thread op resp rest state) :
    (respondClient choice world.state op).1 = resp := by
  have answer := acts.answer
  simp only [clientMachine, Option.some.injEq] at answer
  rw [answer]

/-- What a look for a token finds has time left, and GitHub issued it for a target of that
key. -/
theorem looks_reachable (reaches : (clientMachine client).Reaches condition idleClient world) :
    ∀ event ∈ world.trace, ∀ key now token,
      event.call = ⟨.cachedRegistrationToken key, (now, some token)⟩ →
        now + tokenReserve < token.expiresAt ∧
          ∃ repositoryFullName runnerGroup target,
            runnerTarget repositoryFullName runnerGroup = .ok target ∧ target.cacheKey = key ∧
              ∃ other ∈ world.trace, Issued client target token other.call := by
  refine Machine.events_reachable (fun trace event => ∀ key now token,
    event.call = ⟨.cachedRegistrationToken key, (now, some token)⟩ →
      now + tokenReserve < token.expiresAt ∧ ∃ repositoryFullName runnerGroup target,
        runnerTarget repositoryFullName runnerGroup = .ok target ∧ target.cacheKey = key ∧
          ∃ other ∈ trace, Issued client target token other.call) rfl ?_ ?_ reaches
  · intro later trace event known key now token looked
    obtain ⟨fresh, repository, group, target, named, keyed, other, member, issued⟩ :=
      known key now token looked
    exact ⟨fresh, repository, group, target, named, keyed, other,
      List.mem_cons_of_mem _ member, issued⟩
  · intro world tid choice thread op resp rest state before acts key now token looked
    cases looked
    have answered := answer_eq acts
    have memory := remembers_reachable before
    simp only [respondClient, ClientState.cachedToken, Prod.mk.injEq] at answered
    obtain ⟨rfl, found⟩ := answered
    cases held : world.state.regTokens key with
    | none => simp [held] at found
    | some cached =>
        simp only [held] at found
        by_cases fresh : choice.now + tokenReserve < cached.expiresAt
        · rw [if_pos fresh, Option.some.injEq] at found
          subst found
          exact ⟨fresh, memory.tokens key cached held⟩
        · rw [if_neg fresh] at found
          cases found

theorem recalls_reachable (reaches : (clientMachine client).Reaches condition idleClient world) :
    ∀ event ∈ world.trace, ∀ repository id,
      event.call = ⟨.cachedInstallation repository, id⟩ → id ≠ 0 →
        ∃ other ∈ world.trace, Named client repository id other.call := by
  refine Machine.events_reachable (fun trace event => ∀ repository id,
    event.call = ⟨.cachedInstallation repository, id⟩ → id ≠ 0 →
      ∃ other ∈ trace, Named client repository id other.call) rfl ?_ ?_ reaches
  · intro later trace event known repository id asked nonzero
    obtain ⟨other, member, named⟩ := known repository id asked nonzero
    exact ⟨other, List.mem_cons_of_mem _ member, named⟩
  · intro world tid choice thread op resp rest state before acts repository id asked nonzero
    cases asked
    have answered : world.state.installationByRepo repository = id := answer_eq acts
    exact (remembers_reachable before).installations repository id answered nonzero

theorem issued_same {first second : RunnerTarget} {token : RegistrationToken} {call : ClientAnswered}
    (same : first.apiPath = second.apiPath) (issued : Issued client first token call) :
    Issued client second token call := by
  unfold Issued registrationTokenURL at issued ⊢
  rwa [same] at issued

end Memory

section Guarantees
variable (client : Client)

/-- The token of an answered caller, among what is recorded. -/
def HandedOut (trace : List ClientEvent) (event : ClientEvent) (token : RegistrationToken) : Prop :=
  ∃ repositoryFullName runnerGroup target,
    event.task = .createRegistrationToken repositoryFullName runnerGroup ∧
    runnerTarget repositoryFullName runnerGroup = .ok target ∧ token.token ≠ "" ∧
    ∃ other ∈ trace, Issued client target token other.call ∧
      (other.tid = event.tid ∨ ∃ look ∈ trace, look.tid = event.tid ∧ ∃ now,
        look.call = ⟨.cachedRegistrationToken target.cacheKey, (now, some token)⟩ ∧
          now + tokenReserve < token.expiresAt)

def Authorized (trace : List ClientEvent) (id : Int) (repository : String) : Prop :=
  0 < id ∧ (client.appAuth = some id ∨ client.appAuth = some 0 ∧
    ∃ other ∈ trace, Named client repository id other.call)

variable {client} {condition : ClientWorld → ClientMove → Prop} {world : ClientWorld}

theorem HandedOut.grows {trace : List ClientEvent} {event later : ClientEvent}
    {token : RegistrationToken} (given : HandedOut client trace event token) :
    HandedOut client (later :: trace) event token := by
  obtain ⟨repository, group, target, task, named, filled, other, member, issued, source⟩ := given
  refine ⟨repository, group, target, task, named, filled, other, List.mem_cons_of_mem _ member,
    issued, ?_⟩
  rcases source with own | ⟨look, looked, here, fresh⟩
  · exact Or.inl own
  · exact Or.inr ⟨look, List.mem_cons_of_mem _ looked, here, fresh⟩

theorem issued_filled {target : RunnerTarget} {token : RegistrationToken} {call : ClientAnswered}
    (issued : Issued client target token call) : token.token ≠ "" := by
  obtain ⟨credentials, reply, -, read⟩ := issued
  exact readRegistrationToken_ne read

/-- However the callers run beside each other, a caller is given a token that GitHub issued
for the owner or the repository of its own target: upon its own request, or out of the
cache with more than half an hour left. -/
theorem token_for_target (reaches : (clientMachine client).Reaches condition idleClient world)
    {event : ClientEvent} (member : event ∈ world.trace) {token : RegistrationToken}
    (returned : event.call = ⟨.returned (.ok token), ()⟩) :
    HandedOut client world.trace event token := by
  refine Machine.events_reachable (fun trace event => ∀ token,
    event.call = ⟨.returned (.ok token), ()⟩ → HandedOut client trace event token) rfl ?_ ?_
    reaches event member token returned
  · exact fun later trace event known token same => (known token same).grows
  · intro world tid choice thread op resp rest state before acts token same
    cases same
    have obeys := client_obeys before
    have recorded := obeys.recorded tid thread acts.live
    obtain ⟨target, own, source⟩ := obeys.permits acts token rfl
    obtain ⟨repository, group, task, named⟩ := target_of_task own
    rcases source with ⟨now, looked⟩ | ⟨call, asked, issued⟩
    · obtain ⟨fresh, repository', group', target', named', keyed, other, listed, issued⟩ :=
        looks_reachable before _ (recorded _ looked) _ now token rfl
      have path := (cacheKey_path named' named keyed).1
      exact ⟨repository, group, target, task, named, issued_filled issued, other, listed,
        issued_same path issued, Or.inr ⟨_, recorded _ looked, rfl, now, rfl, fresh⟩⟩
    · exact ⟨repository, group, target, task, named, issued_filled issued, _, recorded call asked,
        issued, Or.inl rfl⟩

/-- A request for a repository carries the installation of the settings, or else the one
that GitHub has named for this repository. -/
theorem credentials_of_repository
    (reaches : (clientMachine client).Reaches condition idleClient world)
    {event : ClientEvent} (member : event ∈ world.trace) {request : Request} {id : Int}
    {repository : String} (sent : event.call.op = .send request)
    (carried : request.credentials = .installation id repository) :
    Authorized client world.trace id repository := by
  refine Machine.events_reachable (fun trace event => ∀ request id repository,
    event.call.op = .send request → request.credentials = .installation id repository →
      Authorized client trace id repository) rfl ?_ ?_ reaches event member request id repository
    sent carried
  · intro later trace event known request id repository sent carried
    obtain ⟨positive, source⟩ := known request id repository sent carried
    refine ⟨positive, ?_⟩
    rcases source with fixed | ⟨dynamic, other, listed, named⟩
    · exact Or.inl fixed
    · exact Or.inr ⟨dynamic, other, List.mem_cons_of_mem _ listed, named⟩
  · intro world tid choice thread op resp rest state before acts request id repository sent carried
    have obeys := client_obeys before
    have recorded := obeys.recorded tid thread acts.live
    have permitted := obeys.permits acts
    simp only at sent
    rw [sent] at permitted
    simp only [clientContract, sendContract, carried] at permitted
    obtain ⟨positive, static, auth, source⟩ := permitted
    refine ⟨positive, ?_⟩
    rcases source with ⟨-, rfl⟩ | ⟨rfl, source⟩
    · exact Or.inl auth
    · refine Or.inr ⟨auth, ?_⟩
      rcases source with recalled | ⟨call, asked, named⟩
      · have nonzero : id ≠ 0 := by omega
        exact recalls_reachable before _ (recorded _ recalled) repository id rfl nonzero
      · exact ⟨_, recorded call asked, named⟩

end Guarantees

section Trial

def octoToken : RegistrationToken := ⟨"AABBCC", 7200 * second⟩

def octoClient : Client where
  baseURL := "https://api.github.com"
  appAuth := some 0
  registrationToken body :=
    if body = "\x7b\"token\":\"AABBCC\",\"expires_at\":\"1970-01-01T02:00:00Z\"\x7d" then .ok octoToken
    else .error { message := "invalid character" }
  installation body :=
    if body = "\x7b\"id\":42\x7d" then .ok 42 else .error { message := "invalid character" }
  runners _ := .error { message := "invalid character" }

/-- Two repositories of one owner; the second caller comes half an hour after the first. -/
def octoMoves : List ClientMove :=
  [.start (.createRegistrationToken "octo/hello" "default"), .run 0 {}, .run 0 {},
    .run 0 { reply := .ok ⟨200, .ok "\x7b\"id\":42\x7d", ""⟩ }, .run 0 {},
    .run 0 { reply := .ok ⟨201,
      .ok "\x7b\"token\":\"AABBCC\",\"expires_at\":\"1970-01-01T02:00:00Z\"\x7d", ""⟩ },
    .run 0 {}, .run 0 {}, .start (.createRegistrationToken "octo/world" "default"),
    .run 1 { now := 1800 * second }, .run 1 {}]

def handed (event : ClientEvent) : Option RegistrationToken :=
  match event.call with
  | ⟨.returned (.ok token), _⟩ => some token
  | _ => none

def sentAs (event : ClientEvent) : Option Request :=
  match event.call.op with
  | .send request => some request
  | _ => none

def octoRequest : Request where
  method := "POST"
  url := "https://api.github.com/orgs/octo/actions/runners/registration-token"
  credentials := .installation 42 "octo/hello"

def octoFound (world : ClientWorld) : Bool :=
  (world.trace.any fun event => event.tid == 1 && handed event == some octoToken) &&
    world.trace.any fun event => sentAs event == some octoRequest

theorem octo_run :
    ((clientMachine octoClient).runChecked (fun _ _ => true) octoMoves idleClient).any octoFound =
      true := by
  decide +kernel

theorem handed_call {event : ClientEvent} {token : RegistrationToken}
    (given : handed event = some token) : event.call = ⟨.returned (.ok token), ()⟩ := by
  unfold handed at given
  split at given
  · rename_i found _ same
    rw [same]
    cases given
    rfl
  · cases given

theorem sentAs_call {event : ClientEvent} {request : Request}
    (given : sentAs event = some request) : event.call.op = .send request := by
  unfold sentAs at given
  split at given
  · rename_i found same
    rw [same]
    cases given
    rfl
  · cases given

/-- The condition under which any run counts. -/
def AnyMove (_world : ClientWorld) (_move : ClientMove) : Prop := true = true

theorem octo_token_shared : ∃ world, (clientMachine octoClient).Reaches AnyMove idleClient world ∧
    ∃ event ∈ world.trace, event.tid = 1 ∧ HandedOut octoClient world.trace event octoToken := by
  obtain ⟨world, reaches, found⟩ := Machine.reaches_any octo_run
  have both := (Bool.and_eq_true _ _ ▸ found : _ ∧ _)
  obtain ⟨event, member, given⟩ := List.any_eq_true.mp both.1
  simp only [Bool.and_eq_true, beq_iff_eq] at given
  exact ⟨world, reaches, event, member, given.1,
    token_for_target reaches member (handed_call given.2)⟩

theorem octo_credentials : ∃ world, (clientMachine octoClient).Reaches AnyMove idleClient world ∧
    Authorized octoClient world.trace 42 "octo/hello" := by
  obtain ⟨world, reaches, found⟩ := Machine.reaches_any octo_run
  have both := (Bool.and_eq_true _ _ ▸ found : _ ∧ _)
  obtain ⟨event, member, given⟩ := List.any_eq_true.mp both.2
  simp only [beq_iff_eq] at given
  exact ⟨world, reaches, credentials_of_repository reaches member (sentAs_call given) rfl⟩

end Trial
end Runnerd.GitHubClient
