import Runnerd.Interleaving
import Runnerd.LinkHeaders
import Runnerd.RunnerState

/-!
The client of `internal/github/client.go`: whose credentials a request carries, the
registration tokens and the installations that it keeps in memory, and the listings that
follow their pages. What runs under one of the mutexes is one call here. What GitHub
answers, and how a body reads as JSON, is open.
-/

namespace Runnerd.GitHubClient

open GoText Interaction Interleaving

section Data

structure RegistrationToken where
  token : String
  expiresAt : Time
  deriving DecidableEq, Repr

structure Runner where
  id : Int
  name : String
  status : String
  busy : Bool
  deriving DecidableEq, Repr

structure RunnerTarget where
  repositoryFullName : String
  apiPath : String
  webURL : String
  cacheKey : String
  deriving DecidableEq, Repr

/-- `own` stands for the transport that the client was made with, `app` for the App's key. -/
inductive Credentials where
  | own
  | app
  | installation (id : Int) (repository : String)
  deriving DecidableEq, Repr

structure Request where
  method : String
  url : String
  credentials : Credentials
  deriving DecidableEq, Repr

structure Reply where
  status : Int
  body : Except GoError String
  link : String := ""

/-- `appAuth` is the installation of the settings, 0 when each repository has its own. -/
structure Client where
  baseURL : String
  appAuth : Option Int
  registrationToken : String → Except GoError RegistrationToken
  installation : String → Except GoError Int
  runners : String → Except GoError (List Runner)

def cutSlash (text : String) : Option (String × String) :=
  if '/' ∈ text.toList then
    some (String.ofList (text.toList.takeWhile (· ≠ '/')),
      String.ofList ((text.toList.dropWhile (· ≠ '/')).drop 1))
  else none

def runnerTarget (repositoryFullName runnerGroup : String) : Except GoError RunnerTarget :=
  let repositoryFullName := trimSpace repositoryFullName
  if repositoryFullName = "" then .error { message := "repository full name is required" }
  else
    match cutSlash repositoryFullName with
    | none => .error { message := "repository full name must be owner/repo" }
    | some (owner, _) =>
        if owner = "" then .error { message := "repository full name must be owner/repo" }
        else if trimSpace runnerGroup ≠ "" then
          .ok ⟨repositoryFullName, "orgs/" ++ owner, "https://github.com/" ++ owner, "org:" ++ owner⟩
        else
          .ok ⟨repositoryFullName, "repos/" ++ repositoryFullName,
            "https://github.com/" ++ repositoryFullName, "repo:" ++ repositoryFullName⟩

/-- What the callers make of an answer before they look into its body. -/
def readReply (what : String) (reply : Reply) : Except GoError String :=
  match reply.body with
  | .error err => .error (err.wrap ("read github " ++ what ++ " response: "))
  | .ok body =>
      if reply.status < 200 ∨ 300 ≤ reply.status then
        .error { message :=
          "github " ++ what ++ ": status " ++ toString reply.status ++ ": " ++ trimSpace body }
      else .ok body

end Data

section Calls

inductive ClientOp where
  | cachedRegistrationToken (key : String)
  | storeRegistrationToken (key : String) (token : RegistrationToken)
  | cachedInstallation (repository : String)
  | storeInstallation (repository : String) (id : Int)
  | send (request : Request)
  /-- `CreateRegistrationToken` returns to its caller. -/
  | returned (result : Except GoError RegistrationToken)

/-- A look for a token comes with the instant that it was compared with. -/
@[reducible] def ClientOp.Resp : ClientOp → Type
  | .cachedRegistrationToken _ => Time × Option RegistrationToken
  | .cachedInstallation _ => Int
  | .send _ => Except GoError Reply
  | .storeRegistrationToken _ _ | .storeInstallation _ _ | .returned _ => Unit

abbrev ClientAction := Prog ClientOp ClientOp.Resp

abbrev ClientAnswered := Call ClientOp ClientOp.Resp

def askClient (op : ClientOp) : ClientAction op.Resp := Prog.request op

variable (client : Client)

def installationRequest (repository : String) : Request :=
  ⟨"GET", client.baseURL ++ "/repos/" ++ repository ++ "/installation", .app⟩

/-- The installation that an answer names. -/
def readInstallation (reply : Reply) : Except GoError Int :=
  match readReply "repository installation" reply with
  | .error err => .error err
  | .ok body =>
      match client.installation body with
      | .error err => .error err
      | .ok id =>
          if id = 0 then
            .error { message := "github repository installation response missing id" }
          else .ok id

def installationID (staticInstallationID : Int) (repositoryFullName : String) :
    ClientAction (Except GoError Int) :=
  let repositoryFullName := trimSpace repositoryFullName
  if staticInstallationID ≠ 0 then return .ok staticInstallationID
  else if repositoryFullName = "" then
    return .error
      { message := "repository full name is required for dynamic GitHub App installation" }
  else do
    let cached ← askClient (.cachedInstallation repositoryFullName)
    if cached ≠ 0 then return .ok cached
    else
      match ← askClient (.send (installationRequest client repositoryFullName)) with
      | .error err => return .error err
      | .ok reply =>
          match readInstallation client reply with
          | .error err => return .error err
          | .ok id =>
              askClient (.storeInstallation repositoryFullName id)
              return .ok id

/-- `Client.do`. -/
def sendFor (method url repositoryFullName : String) : ClientAction (Except GoError Reply) :=
  match client.appAuth with
  | none => askClient (.send ⟨method, url, .own⟩)
  | some staticInstallationID => do
      match ← installationID client staticInstallationID repositoryFullName with
      | .error err => return .error err
      | .ok id =>
          if id ≤ 0 then return .error { message := "installation id is required" }
          else askClient (.send ⟨method, url, .installation id (trimSpace repositoryFullName)⟩)

def registrationTokenURL (target : RunnerTarget) : String :=
  client.baseURL ++ "/" ++ target.apiPath ++ "/actions/runners/registration-token"

def readRegistrationToken (reply : Reply) : Except GoError RegistrationToken :=
  match readReply "registration token" reply with
  | .error err => .error err
  | .ok body =>
      match client.registrationToken body with
      | .error err => .error err
      | .ok token =>
          if token.token = "" then
            .error { message := "github registration token response missing token" }
          else .ok token

def createRegistrationToken (repositoryFullName runnerGroup : String) :
    ClientAction (Except GoError RegistrationToken) :=
  match runnerTarget repositoryFullName runnerGroup with
  | .error err => return .error err
  | .ok target => do
      let (_, cached) ← askClient (.cachedRegistrationToken target.cacheKey)
      match cached with
      | some token => return .ok token
      | none =>
          match ← sendFor client "POST" (registrationTokenURL client target)
              target.repositoryFullName with
          | .error err => return .error err
          | .ok reply =>
              match readRegistrationToken client reply with
              | .error err => return .error err
              | .ok token =>
                  askClient (.storeRegistrationToken target.cacheKey token)
                  return .ok token

end Calls

section Listings
variable (client : Client)

/-- The loops that follow `nextLink`, until their context ends after `rounds` requests. -/
def followPages {Failure Item : Type} (lift : GoError → Failure)
    (send : String → ClientAction (Except GoError Reply))
    (read : Reply → Except Failure (List Item)) :
    Nat → String → List Item → ClientAction (Except Failure (List Item))
  | 0, nextURL, found =>
      if nextURL = "" then return .ok found
      else return .error (lift { message := "context deadline exceeded", deadlineExceeded := true })
  | rounds + 1, nextURL, found =>
      if nextURL = "" then return .ok found
      else do
        match ← send nextURL with
        | .error err => return .error (lift err)
        | .ok reply =>
            match read reply with
            | .error err => return .error err
            | .ok items => followPages lift send read rounds (nextLink reply.link) (found ++ items)

def readRunners (reply : Reply) : Except GoError (List Runner) :=
  match readReply "list runners" reply with
  | .error err => .error err
  | .ok body => client.runners body

def runnersURL (target : RunnerTarget) : String :=
  client.baseURL ++ "/" ++ target.apiPath ++ "/actions/runners"

def listRunners (rounds : Nat) (repositoryFullName runnerGroup : String) :
    ClientAction (Except GoError (List Runner)) :=
  match runnerTarget repositoryFullName runnerGroup with
  | .error err => return .error err
  | .ok target =>
      followPages id (fun url => sendFor client "GET" url target.repositoryFullName)
        (readRunners client) rounds (runnersURL client target ++ "?per_page=100") []

def removeRunner (repositoryFullName runnerGroup : String) (runnerID : Int) :
    ClientAction (Except GoError Unit) :=
  if runnerID = 0 then return .error { message := "runner id is required" }
  else
    match runnerTarget repositoryFullName runnerGroup with
    | .error err => return .error err
    | .ok target => do
        match ← sendFor client "DELETE" (runnersURL client target ++ "/" ++ toString runnerID)
            target.repositoryFullName with
        | .error err => return .error err
        | .ok reply =>
            if reply.status = 404 then return .ok ()
            else return (readReply "remove runner" reply).map fun _ => ()

/-- The removal of the first runner of the name: whether there is one, and the error. -/
def removeNamed (repositoryFullName runnerGroup runnerName : String) :
    Except GoError (List Runner) → ClientAction (Bool × Except GoError Unit)
  | .error err => return (false, .error err)
  | .ok runners =>
      match runners.find? fun runner => runner.name == runnerName with
      | none => return (false, .ok ())
      | some runner => do
          let result ← removeRunner client repositoryFullName runnerGroup runner.id
          return (true, result)

def removeRunnerByName (rounds : Nat) (repositoryFullName runnerGroup runnerName : String) :
    ClientAction (Bool × Except GoError Unit) :=
  let runnerName := trimSpace runnerName
  if runnerName = "" then return (false, .ok ())
  else do
    let listed ← listRunners client rounds repositoryFullName runnerGroup
    removeNamed client repositoryFullName runnerGroup runnerName listed

end Listings

section System
variable (client : Client)

inductive ClientTask where
  | createRegistrationToken (repositoryFullName runnerGroup : String)
  | removeRunnerByName (rounds : Nat) (repositoryFullName runnerGroup runnerName : String)
  /-- Any other call for a repository. -/
  | api (method path repositoryFullName : String)

def ClientTask.body : ClientTask → ClientAction Unit
  | .createRegistrationToken repositoryFullName runnerGroup => do
      let result ← GitHubClient.createRegistrationToken client repositoryFullName runnerGroup
      askClient (.returned result)
  | .removeRunnerByName rounds repositoryFullName runnerGroup runnerName => do
      let _ ← GitHubClient.removeRunnerByName client rounds repositoryFullName runnerGroup runnerName
      return ()
  | .api method path repositoryFullName => do
      let _ ← sendFor client method (client.baseURL ++ path) repositoryFullName
      return ()

structure ClientState where
  regTokens : String → Option RegistrationToken := fun _ => none
  installationByRepo : String → Int := fun _ => 0

structure ClientChoice where
  now : Time := 0
  reply : Except GoError Reply := .error { message := "" }

def tokenReserve : Duration := 30 * 60 * second

namespace ClientState
variable (state : ClientState)

def cachedToken (key : String) (now : Time) : Option RegistrationToken × ClientState :=
  match state.regTokens key with
  | none => (none, state)
  | some token =>
      if now + tokenReserve < token.expiresAt then (some token, state)
      else (none, { state with regTokens := Function.update state.regTokens key none })

/-- The entry is written, and every entry that has run out is dropped. -/
def storeToken (key : String) (token : RegistrationToken) (now : Time) : ClientState :=
  let written := Function.update state.regTokens key (some token)
  { state with regTokens := fun other =>
      (written other).filter (fun cached => decide (now ≤ cached.expiresAt)) }

end ClientState

def respondClient (choice : ClientChoice) (state : ClientState) :
    (op : ClientOp) → op.Resp × ClientState
  | .cachedRegistrationToken key =>
      let found := state.cachedToken key choice.now
      ((choice.now, found.1), found.2)
  | .storeRegistrationToken key token => ((), state.storeToken key token choice.now)
  | .cachedInstallation repository => (state.installationByRepo repository, state)
  | .storeInstallation repository id =>
      ((), { state with
        installationByRepo := Function.update state.installationByRepo repository id })
  | .send _ => (choice.reply, state)
  | .returned _ => ((), state)

/-- The maps go with the process. -/
def clientMachine : Machine ClientOp ClientOp.Resp ClientTask ClientState ClientChoice where
  body := ClientTask.body client
  respond _ choice state op := some (respondClient choice state op)
  spawned _ _ _ := []
  entry _ := true
  crash _ := {}

abbrev ClientWorld := World ClientOp ClientOp.Resp ClientTask ClientState

abbrev ClientMove := Move ClientTask ClientChoice

abbrev ClientEvent := Event ClientOp ClientOp.Resp ClientTask

def idleClient : ClientWorld := ⟨{}, [], []⟩

end System

end Runnerd.GitHubClient
