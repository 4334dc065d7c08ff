import Runnerd.AccountStore
import Runnerd.JobGroups
import Runnerd.Numerals
import Runnerd.SecretBox

/-!
Signing in with GitHub and the session cookies of `internal/server/server_auth.go` and
`internal/server/server_auth_helpers.go`. The HMAC and the JSON form of a session are
parameters. A client that is a browser sends the cookies of its jar, and nothing but the
server's answers puts a cookie there; any other client sends what it likes.
-/

namespace Runnerd.Sessions

open GoText Accounts
open SecretBox (bytesOf)
open Urls (Text code cut ascii)

section Cookies

structure AdminSession where
  provider : String
  subject : String
  login : String
  role : String
  avatarURL : String
  /-- Seconds since the epoch. -/
  expiresAt : Int
  deriving DecidableEq, Repr

/-- What the server is built on, and its settings. -/
structure Site where
  hmac : Text → Text → Text
  marshal : AdminSession → Text
  unmarshal : Text → Except GoError AdminSession
  corruptInput : Text → GoError
  oauthEnabled : Bool
  authSessionSecret : String
  authSessionTTL : Duration

variable (site : Site)

def signAdminSession (payload : Text) : Text :=
  Base64.encodeRaw Base64.url (site.hmac (bytesOf site.authSessionSecret) payload)

def sessionPayload (session : AdminSession) : Text :=
  Base64.encodeRaw Base64.url (site.marshal session)

def encodeAdminSession (session : AdminSession) : Text :=
  sessionPayload site session ++
    code '.' :: signAdminSession site (sessionPayload site session)

def decodeAdminSession (value : Text) : Except GoError AdminSession :=
  let (payloadValue, signature) := cut (code '.') value
  if code '.' ∉ value ∨ payloadValue = [] ∨ signature = [] then
    .error { message := "malformed session" }
  else if signature ≠ signAdminSession site payloadValue then
    .error { message := "invalid signature" }
  else
    match Base64.decodeRaw Base64.url payloadValue with
    | none => .error (site.corruptInput payloadValue)
    | some payload =>
        match site.unmarshal payload with
        | .error err => .error err
        | .ok session =>
            if trimSpace session.subject = "" then .error { message := "session missing subject" }
            else if trimSpace session.role = "" then .error { message := "session missing role" }
            else .ok session

end Cookies

section Requests
variable (site : Site)

/-- The tables that a query reads, or the database's error. -/
abbrev StoreRead := Except GoError AccountTables

/-- The two queries read what is committed when each of them runs. -/
structure IdentityReads where
  identities : StoreRead
  accounts : StoreRead

def getAccountByOAuthIdentity (reads : IdentityReads) (provider subject : String) :
    Except GoError (AccountRecord × Accounts.OAuthIdentityRecord) :=
  let key := (normalizeOAuthProvider provider, normalizeOAuthSubject subject)
  if key.1 = "" ∨ key.2 = "" then .error errNotFound
  else
    match reads.identities with
    | .error err => .error err
    | .ok tables =>
        match tables.identities.find key with
        | none => .error errNotFound
        | some identity =>
            accountFromIdentity identity
              (reads.accounts.map fun tables => tables.accounts.find identity.accountID)

def roleText : PlatformRole → String
  | .unknown => ""
  | .admin => "admin"
  | .user => "user"

def sessionProvider (session : AdminSession) : String :=
  let provider := trimSpace session.provider
  if provider = "" then "github" else provider

structure SessionRequest where
  cookie : Option Text
  now : Time
  reads : IdentityReads

def unix (instant : Time) : Int := instant / second

def sessionFromRequest (request : SessionRequest) : Option AdminSession :=
  match request.cookie with
  | none => none
  | some value =>
      match decodeAdminSession site value with
      | .error _ => none
      | .ok session =>
          if session.expiresAt < unix request.now then none
          else
            match getAccountByOAuthIdentity request.reads (sessionProvider session)
                session.subject with
            | .error _ => none
            | .ok (account, _) => some { session with role := roleText account.role }

def adminSessionFromRequest (request : SessionRequest) : Option AdminSession :=
  match sessionFromRequest site request with
  | none => none
  | some session => if session.role ≠ "admin" then none else some session

def requireAdminAuth (request : SessionRequest) : Bool :=
  (adminSessionFromRequest site request).isSome

/-- The account is looked up once more, and its role is the one in force. -/
def requireUserSession (request : SessionRequest) (again : IdentityReads) :
    Option (AdminSession × AccountRecord) :=
  match sessionFromRequest site request with
  | none => none
  | some session =>
      match getAccountByOAuthIdentity again (sessionProvider session) session.subject with
      | .error _ => none
      | .ok (account, _) => some ({ session with role := roleText account.role }, account)

/-- The request as a handler of users goes on with it. -/
def SessionRequest.user (request : SessionRequest) (again : IdentityReads)
    (userAuthorizedRepositoryAccess :
      Int → Except ApiError (List GitHubInstallationRepositoryAccess)) : UserRequest where
  session := (requireUserSession site request again).map fun signedIn => signedIn.2.id
  userAuthorizedRepositoryAccess := userAuthorizedRepositoryAccess

variable {site}

theorem requireUserSession_user {request : SessionRequest} {again : IdentityReads}
    {authorized : Int → Except ApiError (List GitHubInstallationRepositoryAccess)}
    {accountID : Int} :
    Runnerd.requireUserSession (request.user site again authorized) = .ok accountID ↔
      ∃ session account, requireUserSession site request again = some (session, account) ∧
        account.id = accountID := by
  unfold Runnerd.requireUserSession SessionRequest.user
  cases signed : requireUserSession site request again with
  | none => simp
  | some signedIn =>
      simp only [Option.map_some, Except.ok.injEq, Option.some.injEq]
      constructor
      · intro same
        exact ⟨signedIn.1, signedIn.2, rfl, same⟩
      · rintro ⟨_, _, rfl, same⟩
        exact same

/-- A runner is shown to the account that the cookie signs in, if GitHub lets it see the
runner's repository. -/
theorem userRunnerState_signed_in {table : RequestTable} {request : SessionRequest}
    {again : IdentityReads}
    {authorized : Int → Except ApiError (List GitHubInstallationRepositoryAccess)} {id : String}
    {st : RunnerState} :
    userRunnerState table (request.user site again authorized) id = .ok st ↔
      ∃ session account access,
        requireUserSession site request again = some (session, account) ∧
        readState table id = .ok st ∧ authorized account.id = .ok access ∧
        hasRepositoryAccess access st.githubInstallationID st.repositoryFullName = true := by
  rw [userRunnerState_ok]
  constructor
  · rintro ⟨accountID, access, known, reads, loaded, allowed⟩
    obtain ⟨session, account, signed, rfl⟩ := requireUserSession_user.mp known
    exact ⟨session, account, access, signed, reads, repositoryAccess_ok.mp loaded, allowed⟩
  · rintro ⟨session, account, access, signed, reads, loaded, allowed⟩
    exact ⟨account.id, access, requireUserSession_user.mpr ⟨session, account, signed, rfl⟩, reads,
      repositoryAccess_ok.mpr loaded, allowed⟩

end Requests

section SigningIn
variable (site : Site)

structure GithubOAuthUser where
  id : Int
  login : String
  avatarURL : String
  deriving DecidableEq

def GithubOAuthUser.subject (user : GithubOAuthUser) : String :=
  if user.id ≤ 0 then "" else toString user.id

structure GithubOAuthTokenResponse where
  accessToken : String
  error : String

/-- An answer of GitHub: its status, and its body as far as it is read. -/
structure Answer (α : Type) where
  status : Int
  body : Except GoError α

def Answer.failed {α : Type} (answer : Answer α) : Bool := answer.status < 200 ∨ 299 < answer.status

def exchangeGitHubOAuthCode :
    Except GoError (Answer GithubOAuthTokenResponse) → Except GoError String
  | .error err => .error err
  | .ok answer =>
      if answer.failed then
        match answer.body with
        | .ok decoded =>
            if decoded.error ≠ "" then
              .error { message := "github oauth token status " ++ toString answer.status ++
                ": " ++ decoded.error }
            else .error { message := "github oauth token status " ++ toString answer.status }
        | .error _ => .error { message := "github oauth token status " ++ toString answer.status }
      else
        match answer.body with
        | .error err => .error err
        | .ok decoded =>
            if decoded.error ≠ "" then
              .error { message := "github oauth token error: " ++ decoded.error }
            else if trimSpace decoded.accessToken = "" then
              .error { message := "github oauth token response missing access_token" }
            else .ok decoded.accessToken

def fetchGitHubOAuthUser :
    Except GoError (Answer GithubOAuthUser) → Except GoError GithubOAuthUser
  | .error err => .error err
  | .ok answer =>
      if answer.failed then
        .error { message := "github user status " ++ toString answer.status }
      else
        match answer.body with
        | .error err => .error err
        | .ok user =>
            if trimSpace user.login = "" then
              .error { message := "github user response missing login" }
            else if user.id ≤ 0 then .error { message := "github user response missing id" }
            else .ok user

/-- A callback with the cookie it carries, and what GitHub and the store answer to it. -/
structure Callback where
  installationID : String
  problem : String
  oauthState : String
  code : String
  stateCookie : Option String
  token : Except GoError (Answer GithubOAuthTokenResponse)
  user : Except GoError (Answer GithubOAuthUser)
  account : Except GoError AccountRecord
  encrypted : Except GoError String
  saved : Except GoError Unit
  now : Time

inductive CallbackReply where
  | notFound
  | setup
  | refused (status : Nat) (message : String)
  /-- Refused after the state has been compared, and its cookie cleared. -/
  | failed (status : Nat) (message : String)
  | signedIn (session : AdminSession)

def callbackSession (callback : Callback) (user : GithubOAuthUser) (account : AccountRecord) :
    AdminSession where
  provider := "github"
  subject := user.subject
  login := user.login
  role := roleText account.role
  avatarURL := user.avatarURL
  expiresAt := unix (callback.now + site.authSessionTTL)

/-- The callback behind the comparison of the states. -/
def finishCallback (callback : Callback) : CallbackReply :=
  match exchangeGitHubOAuthCode callback.token with
  | .error _ => .failed 401 "github oauth token exchange failed"
  | .ok _ =>
      match fetchGitHubOAuthUser callback.user with
      | .error _ => .failed 401 "github oauth user fetch failed"
      | .ok user =>
          match callback.account with
          | .error _ => .failed 500 "save github oauth account"
          | .ok account =>
              match callback.encrypted with
              | .error _ => .failed 500 "save github oauth token"
              | .ok _ =>
                  match callback.saved with
                  | .error _ => .failed 500 "save github oauth token"
                  | .ok () => .signedIn (callbackSession site callback user account)

def handleGitHubOAuthCallback (callback : Callback) : CallbackReply :=
  if site.oauthEnabled = false then .notFound
  else if trimSpace callback.installationID ≠ "" then .setup
  else if trimSpace callback.problem ≠ "" then
    .refused 401 ("github oauth rejected: " ++ trimSpace callback.problem)
  else if callback.stateCookie ≠ some callback.oauthState ∨ callback.oauthState = "" ∨
      callback.code = "" then
    .refused 401 "invalid github oauth state"
  else finishCallback site callback

end SigningIn

section System
variable (site : Site)

/-- The server's cookies in a browser. -/
structure Jar where
  oauthState : Option String := none
  session : Option Text := none

/-- A callback that was answered with a session; `client` is the browser it came from. -/
structure Issue where
  client : Option Nat
  oauthState : String
  session : AdminSession
  issuedAt : Time

structure World where
  jars : Nat → Jar := fun _ => {}
  /-- The states of the logins, with the browsers they were handed to. -/
  handed : List (Option Nat × String) := []
  issues : List Issue := []

/-- A client without a number is no browser: it sends whatever cookies it likes. -/
inductive Step where
  | login (client : Option Nat) (token : String)
  | callback (client : Option Nat) (callback : Callback)
  | logout (client : Nat)
  /-- A browser drops cookies, because they have expired or its user wants it. -/
  | drop (client : Nat) (jar : Jar)

def World.setJar (world : World) (client : Option Nat) (edit : Jar → Jar) : World :=
  match client with
  | none => world
  | some id => { world with jars := Function.update world.jars id (edit (world.jars id)) }

def World.answer (world : World) (client : Option Nat) (callback : Callback) : World :=
  match handleGitHubOAuthCallback site callback with
  | .notFound | .setup | .refused _ _ => world
  | .failed _ _ => world.setJar client fun jar => { jar with oauthState := none }
  | .signedIn session =>
      { world.setJar client fun _ =>
          { oauthState := none, session := some (encodeAdminSession site session) } with
        issues := ⟨client, callback.oauthState, session, callback.now⟩ :: world.issues }

def World.next (world : World) : Step → World
  | .login client token =>
      { world.setJar client fun jar => { jar with oauthState := some token } with
        handed := (client, token) :: world.handed }
  | .callback client callback => world.answer site client callback
  | .logout client => world.setJar (some client) fun _ => {}
  | .drop client jar => world.setJar (some client) fun _ => jar

/-- `newID` does not repeat itself, and a browser sends the cookies it has. -/
def Step.Possible (world : World) : Step → Prop
  | .login _ token => token ∉ world.handed.map Prod.snd
  | .callback client sent =>
      ∀ id, client = some id → sent.stateCookie = (world.jars id).oauthState
  | .logout _ => True
  | .drop client jar =>
      (∀ token, jar.oauthState = some token → (world.jars client).oauthState = some token) ∧
        ∀ value, jar.session = some value → (world.jars client).session = some value

inductive Reached : World → Prop where
  | start : Reached {}
  | step {world : World} (step : Step) : Reached world → step.Possible world →
      Reached (world.next site step)

/-- What holds of an issue when it is made. -/
structure Issue.Made (issue : Issue) : Prop where
  provider : issue.session.provider = "github"
  subject : ∃ id : Int, 0 < id ∧ issue.session.subject = toString id
  expiry : issue.session.expiresAt = unix (issue.issuedAt + site.authSessionTTL)

/-- What a browser holds comes from the server's answers to it. -/
structure Jar.Backed (world : World) (id : Nat) (jar : Jar) : Prop where
  state : ∀ token, jar.oauthState = some token → (some id, token) ∈ world.handed
  session : ∀ value, jar.session = some value → ∃ issue ∈ world.issues,
    issue.client = some id ∧ value = encodeAdminSession site issue.session

structure World.Sound (world : World) : Prop where
  fresh : (world.handed.map Prod.snd).Nodup
  jars : ∀ id, (world.jars id).Backed site world id
  issued : ∀ issue ∈ world.issues, ∀ id, issue.client = some id →
    (some id, issue.oauthState) ∈ world.handed
  made : ∀ issue ∈ world.issues, issue.Made site

variable {site}

theorem fetchGitHubOAuthUser_id {answer : Except GoError (Answer GithubOAuthUser)}
    {user : GithubOAuthUser} (fetched : fetchGitHubOAuthUser answer = .ok user) : 0 < user.id := by
  unfold fetchGitHubOAuthUser at fetched
  split at fetched
  · simp at fetched
  · rename_i answer
    by_cases failed : answer.failed = true
    · simp [failed] at fetched
    · simp only [failed, Bool.false_eq_true, if_false] at fetched
      split at fetched
      · simp at fetched
      · rename_i found _
        by_cases named : trimSpace found.login = ""
        · simp [named] at fetched
        · by_cases missing : found.id ≤ 0
          · simp [named, missing] at fetched
          · simp only [named, missing, if_false, Except.ok.injEq] at fetched
            rw [← fetched]
            omega

theorem finishCallback_signedIn {callback : Callback} {session : AdminSession}
    (done : finishCallback site callback = .signedIn session) :
    ∃ user account, fetchGitHubOAuthUser callback.user = .ok user ∧
      session = callbackSession site callback user account := by
  unfold finishCallback at done
  split at done
  · simp at done
  · split at done
    · simp at done
    · rename_i user fetched
      split at done
      · simp at done
      · rename_i account _
        split at done
        · simp at done
        · split at done
          · simp at done
          · simp only [CallbackReply.signedIn.injEq] at done
            exact ⟨user, account, fetched, done.symm⟩

theorem callback_signedIn {callback : Callback} {session : AdminSession}
    (done : handleGitHubOAuthCallback site callback = .signedIn session) :
    callback.stateCookie = some callback.oauthState ∧ ∃ user account,
      fetchGitHubOAuthUser callback.user = .ok user ∧
        session = callbackSession site callback user account := by
  unfold handleGitHubOAuthCallback at done
  by_cases enabled : site.oauthEnabled = false
  · simp [enabled] at done
  · by_cases setup : trimSpace callback.installationID ≠ ""
    · simp [enabled, setup] at done
    · by_cases problem : trimSpace callback.problem ≠ ""
      · simp [enabled, setup, problem] at done
      · by_cases wrong : callback.stateCookie ≠ some callback.oauthState ∨
            callback.oauthState = "" ∨ callback.code = ""
        · simp [enabled, setup, problem, wrong] at done
        · rw [if_neg enabled, if_neg setup, if_neg problem, if_neg wrong] at done
          rw [not_or] at wrong
          exact ⟨not_not.mp wrong.1, finishCallback_signedIn done⟩

theorem callbackSession_made {callback : Callback} {user : GithubOAuthUser}
    {account : AccountRecord} {client : Option Nat}
    (fetched : fetchGitHubOAuthUser callback.user = .ok user) :
    Issue.Made site ⟨client, callback.oauthState, callbackSession site callback user account,
      callback.now⟩ := by
  have positive := fetchGitHubOAuthUser_id fetched
  have named : user.subject = toString user.id := by
    rw [GithubOAuthUser.subject, if_neg (by omega)]
  constructor
  · rfl
  · exact ⟨user.id, positive, named⟩
  · rfl

@[simp] theorem setJar_handed (world : World) (client : Option Nat) (edit : Jar → Jar) :
    (world.setJar client edit).handed = world.handed := by
  cases client <;> rfl

@[simp] theorem setJar_issues (world : World) (client : Option Nat) (edit : Jar → Jar) :
    (world.setJar client edit).issues = world.issues := by
  cases client <;> rfl

theorem Jar.Backed.mono {world later : World} {id : Nat} {jar : Jar}
    (backed : jar.Backed site world id) (handed : world.handed ⊆ later.handed)
    (issues : world.issues ⊆ later.issues) : jar.Backed site later id := by
  constructor
  · intro token held
    exact handed (backed.state token held)
  · intro value held
    obtain ⟨issue, listed, owner, written⟩ := backed.session value held
    exact ⟨issue, issues listed, owner, written⟩

/-- An edit leaves the jars of the other browsers alone. -/
theorem setJar_backed {world later : World} {client : Option Nat} {edit : Jar → Jar}
    (others : ∀ id, (world.jars id).Backed site later id)
    (edited : ∀ id, client = some id → (edit (world.jars id)).Backed site later id) (id : Nat) :
    ((world.setJar client edit).jars id).Backed site later id := by
  cases client with
  | none => exact others id
  | some other =>
      by_cases same : id = other
      · subst same
        have jar : (world.setJar (some id) edit).jars id = edit (world.jars id) :=
          Function.update_self ..
        rw [jar]
        exact edited id rfl
      · have jar : (world.setJar (some other) edit).jars id = world.jars id :=
          Function.update_of_ne same ..
        rw [jar]
        exact others id

/-- An edit that only takes cookies away, and issues nothing. -/
theorem Sound.setJar {world : World} (sound : world.Sound site) {client : Option Nat}
    {edit : Jar → Jar} (edited : ∀ id, client = some id →
      (edit (world.jars id)).Backed site world id) : (world.setJar client edit).Sound site := by
  have handed := setJar_handed world client edit
  have issues := setJar_issues world client edit
  constructor
  · rw [handed]
    exact sound.fresh
  · intro id
    have here := setJar_backed sound.jars edited id
    exact here.mono (by rw [handed]; exact List.Subset.refl _)
      (by rw [issues]; exact List.Subset.refl _)
  · rw [handed, issues]
    exact sound.issued
  · rw [issues]
    exact sound.made

theorem Sound.login {world : World} (sound : world.Sound site) {client : Option Nat}
    {token : String} (fresh : token ∉ world.handed.map Prod.snd) :
    (world.next site (.login client token)).Sound site := by
  have grown : world.handed ⊆ (client, token) :: world.handed := List.subset_cons_self ..
  constructor
  · exact List.nodup_cons.mpr ⟨fresh, sound.fresh⟩
  · intro id
    have old : ∀ other,
        (world.jars other).Backed site (world.next site (.login client token)) other := by
      intro other
      refine (sound.jars other).mono grown ?_
      simp [World.next]
    refine setJar_backed old ?_ id
    intro id owner
    constructor
    · intro held same
      simp only [Option.some.injEq] at same
      rw [← same, ← owner]
      exact List.mem_cons_self
    · exact (old id).session
  · intro issue listed id owner
    have known : issue ∈ world.issues := by simpa [World.next] using listed
    exact grown (sound.issued issue known id owner)
  · intro issue listed
    have known : issue ∈ world.issues := by simpa [World.next] using listed
    exact sound.made issue known

theorem Sound.signedIn {world : World} (sound : world.Sound site) {client : Option Nat}
    {sent : Callback} {session : AdminSession}
    (possible : ∀ id, client = some id → sent.stateCookie = (world.jars id).oauthState)
    (done : handleGitHubOAuthCallback site sent = .signedIn session) :
    (world.answer site client sent).Sound site := by
  obtain ⟨same, user, account, fetched, rfl⟩ := callback_signedIn done
  have made : Issue.Made site ⟨client, sent.oauthState, callbackSession site sent user account,
      sent.now⟩ := callbackSession_made fetched
  have owned : ∀ id, client = some id → (some id, sent.oauthState) ∈ world.handed := by
    intro id owner
    have held := possible id owner
    rw [same] at held
    exact (sound.jars id).state _ held.symm
  simp only [World.answer, done]
  constructor
  · simpa using sound.fresh
  · intro id
    refine setJar_backed (fun other => (sound.jars other).mono ?_ ?_) ?_ id
    · simp
    · simp
    · intro id owner
      constructor
      · simp
      · intro value held
        simp only [Option.some.injEq] at held
        exact ⟨_, List.mem_cons_self, owner, held.symm⟩
  · intro issue listed id owner
    simp only [setJar_handed]
    rcases List.mem_cons.mp listed with rfl | known
    · exact owned id owner
    · exact sound.issued issue known id owner
  · intro issue listed
    rcases List.mem_cons.mp listed with rfl | known
    · exact made
    · exact sound.made issue known

theorem Sound.next {world : World} (sound : world.Sound site) {step : Step}
    (possible : step.Possible world) : (world.next site step).Sound site := by
  cases step with
  | login client token => exact Sound.login sound possible
  | callback client sent =>
      cases done : handleGitHubOAuthCallback site sent with
      | notFound | setup | refused => simpa [World.next, World.answer, done] using sound
      | failed =>
          simp only [World.next, World.answer, done]
          refine Sound.setJar sound fun id _ => ?_
          constructor
          · simp
          · exact (sound.jars id).session
      | signedIn session => exact Sound.signedIn sound possible done
  | logout client =>
      change (world.setJar (some client) fun _ => {}).Sound site
      refine Sound.setJar sound fun id _ => ?_
      constructor <;> simp
  | drop client jar =>
      change (world.setJar (some client) fun _ => jar).Sound site
      refine Sound.setJar sound fun id owner => ?_
      simp only [Option.some.injEq] at owner
      subst owner
      constructor
      · exact fun token held => (sound.jars _).state token (possible.1 token held)
      · exact fun value held => (sound.jars _).session value (possible.2 value held)

theorem Reached.sound {world : World} (reached : Reached site world) : world.Sound site := by
  induction reached with
  | start =>
      have empty : ∀ id, Jar.Backed site {} id {} := by
        intro id
        constructor <;> simp
      constructor
      · simp
      · exact empty
      · simp
      · simp
  | step step _ possible ih => exact Sound.next ih possible

end System

section Codec
variable {site : Site}

/-- A session whose JSON form is there and reads back. -/
def Legible (site : Site) (session : AdminSession) : Prop :=
  site.marshal session ≠ [] ∧ site.unmarshal (site.marshal session) = .ok session

/-- The HMAC gives some bytes for every key and message. -/
def Digests (site : Site) : Prop := ∀ key message, site.hmac key message ≠ []

theorem dot_not_letter : code '.' ∉ Base64.url.letters := by decide

theorem dot_absent (bytes : Text) : code '.' ∉ Base64.encodeRaw Base64.url bytes :=
  fun member => dot_not_letter (Base64.encodeRaw_letters Base64.url bytes _ member)

theorem payload_plain (session : AdminSession) : code '.' ∉ sessionPayload site session :=
  dot_absent _

theorem cut_found {separator : UInt8} {text : Text} (member : separator ∈ text) :
    text = (cut separator text).1 ++ separator :: (cut separator text).2 := by
  obtain ⟨front, rest, split, absent⟩ := List.eq_append_cons_of_mem member
  rw [split, Urls.cut_first absent rest]

theorem cut_before (separator : UInt8) (text : Text) : separator ∉ (cut separator text).1 := by
  intro member
  have passed := List.mem_takeWhile_imp member
  simp at passed

theorem decodeAdminSession_encode {session : AdminSession} (digests : Digests site)
    (legible : Legible site session) (subject : trimSpace session.subject ≠ "")
    (role : trimSpace session.role ≠ "") :
    decodeAdminSession site (encodeAdminSession site session) = .ok session := by
  have payload : sessionPayload site session ≠ [] := by
    intro empty
    exact legible.1 ((Base64.encodeRaw_nil_iff Base64.url _).mp empty)
  have signature : signAdminSession site (sessionPayload site session) ≠ [] := by
    intro empty
    exact digests _ _ ((Base64.encodeRaw_nil_iff Base64.url _).mp empty)
  have parts : cut (code '.') (encodeAdminSession site session) =
      (sessionPayload site session, signAdminSession site (sessionPayload site session)) :=
    Urls.cut_first (payload_plain session) _
  have dotted : code '.' ∈ encodeAdminSession site session := by
    simp [encodeAdminSession]
  have raw : Base64.decodeRaw Base64.url (sessionPayload site session) =
      some (site.marshal session) := Base64.decodeRaw_encodeRaw Base64.url _
  simp only [decodeAdminSession, parts, dotted, payload, signature, raw, legible.2, subject, role,
    not_true_eq_false, or_self, if_false, ne_eq]

/-- What is accepted carries its own signature. -/
theorem decodeAdminSession_ok {value : Text} {session : AdminSession}
    (decoded : decodeAdminSession site value = .ok session) :
    ∃ payload raw, code '.' ∉ payload ∧
      value = payload ++ code '.' :: signAdminSession site payload ∧
      Base64.decodeRaw Base64.url payload = some raw ∧ site.unmarshal raw = .ok session ∧
      trimSpace session.subject ≠ "" ∧ trimSpace session.role ≠ "" := by
  unfold decodeAdminSession at decoded
  dsimp only at decoded
  by_cases malformed : code '.' ∉ value ∨ (cut (code '.') value).1 = [] ∨
      (cut (code '.') value).2 = []
  · simp [malformed] at decoded
  · rw [if_neg malformed] at decoded
    rw [not_or, not_not] at malformed
    have split := cut_found malformed.1
    by_cases signed : (cut (code '.') value).2 = signAdminSession site (cut (code '.') value).1
    · rw [if_neg (not_not.mpr signed)] at decoded
      cases read : Base64.decodeRaw Base64.url (cut (code '.') value).1 with
      | none => simp [read] at decoded
      | some raw =>
          simp only [read] at decoded
          cases parsed : site.unmarshal raw with
          | error err => simp [parsed] at decoded
          | ok found =>
              simp only [parsed] at decoded
              by_cases subject : trimSpace found.subject = ""
              · simp [subject] at decoded
              · by_cases role : trimSpace found.role = ""
                · simp [subject, role] at decoded
                · simp only [subject, role, if_false, Except.ok.injEq] at decoded
                  subst decoded
                  rw [signed] at split
                  exact ⟨_, raw, cut_before _ _, split, read, parsed, subject, role⟩
    · rw [if_pos signed] at decoded
      simp at decoded

end Codec

section Authentication
variable {site : Site}

/-- A cookie that carries the signature of a payload was set for a session of that payload. -/
def World.Unforged (site : Site) (world : World) (cookie : Option Text) : Prop :=
  ∀ payload, code '.' ∉ payload →
    cookie = some (payload ++ code '.' :: signAdminSession site payload) →
      ∃ issue ∈ world.issues, payload = sessionPayload site issue.session

/-- The cookie of an issue, as long as it is good. -/
def Issue.Presented (site : Site) (issue : Issue) (request : SessionRequest) : Prop :=
  request.cookie = some (encodeAdminSession site issue.session) ∧
    trimSpace issue.session.role ≠ "" ∧
    unix request.now ≤ unix (issue.issuedAt + site.authSessionTTL)

theorem Issue.Made.subject_ne {issue : Issue} (made : issue.Made site) :
    trimSpace issue.session.subject ≠ "" := by
  obtain ⟨id, -, named⟩ := made.subject
  rw [named, trimSpace_toString]
  exact toString_nonempty id

theorem Issue.Made.provider_eq {issue : Issue} (made : issue.Made site) :
    sessionProvider issue.session = "github" := by
  rw [sessionProvider, made.provider]
  decide

/-- An unforged cookie decodes to the session of an issue, or to nothing. -/
theorem decode_issue {world : World} {value : Text} {session : AdminSession}
    (unforged : world.Unforged site (some value))
    (legible : ∀ issue ∈ world.issues, Legible site issue.session)
    (decoded : decodeAdminSession site value = .ok session) :
    ∃ issue ∈ world.issues, session = issue.session ∧
      value = encodeAdminSession site issue.session ∧ trimSpace issue.session.role ≠ "" := by
  obtain ⟨payload, raw, plain, split, read, parsed, -, role⟩ := decodeAdminSession_ok decoded
  obtain ⟨issue, listed, rfl⟩ := unforged payload plain (congrArg some split)
  have whole : Base64.decodeRaw Base64.url (sessionPayload site issue.session) =
      some (site.marshal issue.session) := Base64.decodeRaw_encodeRaw Base64.url _
  rw [whole, Option.some.injEq] at read
  rw [← read, (legible issue listed).2, Except.ok.injEq] at parsed
  subst parsed
  exact ⟨issue, listed, rfl, split, role⟩

theorem sessionFromRequest_iff {world : World} (reached : Reached site world)
    (request : SessionRequest) (digests : Digests site)
    (legible : ∀ issue ∈ world.issues, Legible site issue.session)
    (unforged : world.Unforged site request.cookie) (session : AdminSession) :
    sessionFromRequest site request = some session ↔
      ∃ issue ∈ world.issues, issue.Presented site request ∧ ∃ account identity,
        getAccountByOAuthIdentity request.reads "github" issue.session.subject =
            .ok (account, identity) ∧
          session = { issue.session with role := roleText account.role } := by
  have sound := reached.sound
  constructor
  · intro accepted
    unfold sessionFromRequest at accepted
    cases sent : request.cookie with
    | none => simp [sent] at accepted
    | some value =>
        simp only [sent] at accepted
        cases decoded : decodeAdminSession site value with
        | error err => simp [decoded] at accepted
        | ok found =>
            rw [sent] at unforged
            obtain ⟨issue, listed, rfl, written, role⟩ := decode_issue unforged legible decoded
            have made := sound.made issue listed
            simp only [decoded, made.provider_eq] at accepted
            by_cases late : issue.session.expiresAt < unix request.now
            · simp [late] at accepted
            · simp only [late, if_false] at accepted
              split at accepted
              · simp at accepted
              · rename_i account identity found
                have intime : unix request.now ≤ unix (issue.issuedAt + site.authSessionTTL) := by
                  rw [← made.expiry]
                  omega
                exact ⟨issue, listed, ⟨by rw [sent, written], role, intime⟩, account, identity,
                  found, (Option.some.inj accepted).symm⟩
  · rintro ⟨issue, listed, ⟨sent, role, intime⟩, account, identity, found, rfl⟩
    have made := sound.made issue listed
    have decoded := decodeAdminSession_encode digests (legible issue listed) made.subject_ne role
    have fresh : ¬ issue.session.expiresAt < unix request.now := by
      rw [made.expiry]
      omega
    simp only [sessionFromRequest, sent, decoded, fresh, if_false, made.provider_eq, found]

/-- A request is signed in exactly when its cookie is one that a callback has set, its time
is not over, and its identity still has an account; what it may do is what that account may
do now, whatever the cookie was issued with. -/
theorem signed_in_iff {world : World} (reached : Reached site world)
    (request : SessionRequest) (again : IdentityReads) (digests : Digests site)
    (legible : ∀ issue ∈ world.issues, Legible site issue.session)
    (unforged : world.Unforged site request.cookie) :
    (∀ session account, requireUserSession site request again = some (session, account) ↔
      ∃ issue ∈ world.issues, issue.Presented site request ∧
        (getAccountByOAuthIdentity request.reads "github" issue.session.subject).isOk ∧
        ∃ identity, getAccountByOAuthIdentity again "github" issue.session.subject =
            .ok (account, identity) ∧
          session = { issue.session with role := roleText account.role }) ∧
    (requireAdminAuth site request = true ↔
      ∃ issue ∈ world.issues, issue.Presented site request ∧ ∃ account identity,
        getAccountByOAuthIdentity request.reads "github" issue.session.subject =
            .ok (account, identity) ∧ account.role = .admin) := by
  have found := sessionFromRequest_iff reached request digests legible unforged
  have sound := reached.sound
  constructor
  · -- the identity is read twice: for the role in the session, and for the account
    intro session account
    constructor
    · intro accepted
      unfold requireUserSession at accepted
      cases first : sessionFromRequest site request with
      | none => simp [first] at accepted
      | some signed =>
          obtain ⟨issue, listed, presented, was, identity, read, rfl⟩ := (found signed).mp first
          have provider : sessionProvider { issue.session with role := roleText was.role } =
              "github" := (sound.made issue listed).provider_eq
          simp only [first, provider] at accepted
          split at accepted
          · simp at accepted
          · rename_i now later second
            simp only [Option.some.injEq, Prod.mk.injEq] at accepted
            obtain ⟨rfl, rfl⟩ := accepted
            exact ⟨issue, listed, presented, by simp [read, Except.isOk, Except.toBool],
              later, second, rfl⟩
    · rintro ⟨issue, listed, presented, known, identity, second, rfl⟩
      cases read : getAccountByOAuthIdentity request.reads "github" issue.session.subject with
      | error err => simp [read, Except.isOk, Except.toBool] at known
      | ok first =>
          have signed := (found _).mpr ⟨issue, listed, presented, first.1, first.2, read, rfl⟩
          have provider : sessionProvider { issue.session with role := roleText first.1.role } =
              "github" := (sound.made issue listed).provider_eq
          simp only [requireUserSession, signed, provider, second]
  · unfold requireAdminAuth adminSessionFromRequest
    constructor
    · intro accepted
      cases first : sessionFromRequest site request with
      | none => simp [first] at accepted
      | some signed =>
          obtain ⟨issue, listed, presented, account, identity, read, rfl⟩ := (found signed).mp first
          refine ⟨issue, listed, presented, account, identity, read, ?_⟩
          simp only [first] at accepted
          cases role : account.role <;> simp [role, roleText] at accepted ⊢
    · rintro ⟨issue, listed, presented, account, identity, read, role⟩
      have signed := (found _).mpr ⟨issue, listed, presented, account, identity, read, rfl⟩
      simp [signed, role, roleText]

/-- The session in a browser was issued to this browser, upon a login that it began itself:
no other client was handed the state of that login. -/
theorem signed_in_by_own_login {world : World} (reached : Reached site world) {id : Nat}
    {value : Text} (held : (world.jars id).session = some value) :
    ∃ issue ∈ world.issues, issue.client = some id ∧
      value = encodeAdminSession site issue.session ∧ issue.Made site ∧
      (some id, issue.oauthState) ∈ world.handed ∧
      ∀ client, (client, issue.oauthState) ∈ world.handed → client = some id := by
  have sound := reached.sound
  obtain ⟨issue, listed, owner, written⟩ := (sound.jars id).session value held
  have handed := sound.issued issue listed id owner
  refine ⟨issue, listed, owner, written, sound.made issue listed, handed, ?_⟩
  intro client other
  have same := List.inj_on_of_nodup_map sound.fresh other handed rfl
  exact (Prod.mk.inj same).1

end Authentication

section Trial

def octoSession : AdminSession where
  provider := "github"
  subject := "583231"
  login := "octocat"
  role := "user"
  avatarURL := "https://avatars.githubusercontent.com/u/583231"
  expiresAt := 1700043200

/-- The JSON form of `octoSession`. -/
def octoPayload : Text :=
  ascii "\x7b\"provider\":\"github\",\"subject\":\"583231\",\"login\":\"octocat\",\"role\":\"user\"," ++
    ascii "\"avatar_url\":\"https://avatars.githubusercontent.com/u/583231\"," ++
    ascii "\"expires_at\":1700043200\x7d"

/-- The digest of the base64 text of `octoPayload` under the key `session-secret`. -/
def octoDigest : Text :=
  [219, 90, 34, 87, 39, 138, 34, 88, 103, 83, 98, 239, 206, 171, 137, 79, 188, 61, 138, 208, 90,
    187, 233, 149, 53, 51, 154, 74, 120, 67, 9, 127]

def trialSite : Site where
  hmac _ _ := octoDigest
  marshal _ := octoPayload
  unmarshal payload :=
    if payload = octoPayload then .ok octoSession else .error { message := "invalid character" }
  corruptInput _ := { message := "illegal base64 data" }
  oauthEnabled := true
  authSessionSecret := "session-secret"
  authSessionTTL := 43200 * second

def octoState : String := "0f1e2d3c4b5a69788796a5b4c3d2e1f0"

def octoAccount : AccountRecord := ⟨3, .user, 0, 0⟩

def octoCallback : Callback where
  installationID := ""
  problem := ""
  oauthState := octoState
  code := "c0ffee"
  stateCookie := some octoState
  token := .ok ⟨200, .ok ⟨"gho_token", ""⟩⟩
  user := .ok ⟨200, .ok ⟨583231, "octocat", "https://avatars.githubusercontent.com/u/583231"⟩⟩
  account := .ok octoAccount
  encrypted := .ok "enc:v1:AAAA"
  saved := .ok ()
  now := 1700000000 * second

def octoLogin : World := ({} : World).next trialSite (.login (some 7) octoState)

def octoWorld : World := octoLogin.next trialSite (.callback (some 7) octoCallback)

theorem octoWorld_reached : Reached trialSite octoWorld := by
  have first : Reached trialSite octoLogin := .step _ .start (by simp [Step.Possible])
  refine .step _ first ?_
  rintro id same
  simp only [Option.some.injEq] at same
  subst same
  rfl

theorem octoWorld_issues : octoWorld.issues =
    [⟨some 7, octoState, octoSession, 1700000000 * second⟩] := rfl

theorem octoWorld_jar :
    (octoWorld.jars 7).session = some (encodeAdminSession trialSite octoSession) := rfl

def octoTables (role : PlatformRole) : AccountTables where
  accounts := ⟨[⟨3, role, 0, 0⟩], List.nodup_singleton _⟩
  identities := ⟨[⟨1, 3, "github", "583231", "octocat", 0, 0⟩], List.nodup_singleton _⟩

def octoReads (role : PlatformRole) : IdentityReads :=
  ⟨.ok (octoTables role), .ok (octoTables role)⟩

/-- Eleven hours after the login. -/
def octoRequest (role : PlatformRole) : SessionRequest :=
  ⟨some (encodeAdminSession trialSite octoSession), 1700039600 * second, octoReads role⟩

theorem octo_digests : Digests trialSite := fun _ _ => List.cons_ne_nil _ _

theorem octo_legible : ∀ issue ∈ octoWorld.issues, Legible trialSite issue.session := by
  rw [octoWorld_issues]
  simp only [List.mem_singleton, forall_eq]
  constructor
  · simp [trialSite, octoPayload, ascii]
  · simp only [trialSite, if_true]

theorem octo_unforged (role : PlatformRole) :
    octoWorld.Unforged trialSite (octoRequest role).cookie := by
  intro payload plain same
  rw [octoWorld_issues]
  simp only [octoRequest, Option.some.injEq] at same
  have cuts := congrArg (cut (code '.')) same
  rw [Urls.cut_first plain, encodeAdminSession, Urls.cut_first (payload_plain _)] at cuts
  exact ⟨_, List.mem_cons_self, (Prod.mk.inj cuts).1.symm⟩

theorem octo_presented (role : PlatformRole) :
    Issue.Presented trialSite ⟨some 7, octoState, octoSession, 1700000000 * second⟩
      (octoRequest role) := by
  refine ⟨rfl, ?_, ?_⟩
  · decide
  · cases role <;> decide

/-- The account has become an administrator's since the login. -/
theorem octo_signed_in :
    requireUserSession trialSite (octoRequest .user) (octoReads .admin) =
        some ({ octoSession with role := "admin" }, ⟨3, .admin, 0, 0⟩) ∧
      requireAdminAuth trialSite (octoRequest .admin) = true := by
  have issued : (⟨some 7, octoState, octoSession, 1700000000 * second⟩ : Issue) ∈
      octoWorld.issues := List.mem_cons_self
  constructor
  · have users := (signed_in_iff octoWorld_reached (octoRequest .user) (octoReads .admin)
      octo_digests octo_legible (octo_unforged .user)).1
    exact (users _ _).mpr ⟨_, issued, octo_presented .user, rfl, _, rfl, rfl⟩
  · have admins := (signed_in_iff octoWorld_reached (octoRequest .admin) (octoReads .admin)
      octo_digests octo_legible (octo_unforged .admin)).2
    exact admins.mpr ⟨_, issued, octo_presented .admin, _, _, rfl, rfl⟩

theorem octo_own_login : (some 7, octoState) ∈ octoWorld.handed ∧
    ∀ client, (client, octoState) ∈ octoWorld.handed → client = some 7 := by
  obtain ⟨issue, listed, -, -, -, handed, own⟩ :=
    signed_in_by_own_login octoWorld_reached octoWorld_jar
  rw [octoWorld_issues, List.mem_singleton] at listed
  subst listed
  exact ⟨handed, own⟩

end Trial
end Runnerd.Sessions
