import Runnerd.Base64
import Runnerd.SplitText
import Runnerd.StartTemplate

/-!
The values that `startScript` writes into the runner's start script, and how a shell
reads the script's lines: `fmt.Sprintf`, the quoted words of an assignment and the
command substitution around them.
-/

namespace Runnerd.StartScript
open Urls (Text code ascii)

structure StartInput where
  requestID : Text
  runnerName : Text
  repositoryURL : Text
  registrationToken : Text
  labels : List Text
  runnerGroup : Text
  requireDocker : Bool
  cacheS3Region : Text
  cacheS3Bucket : Text
  cacheS3Endpoint : Text
  cacheS3ReadPrefixes : Text
  cacheS3WritePrefix : Text
  cacheS3AccessKeyID : Text
  cacheS3SecretKey : Text
  cacheS3SessionToken : Text

section Format

/-- Where `fmt.Sprintf` stands in a format with explicit argument indexes. -/
inductive Verb where
  | plain
  | percent
  | index (read : Nat)
  | closed (index : Nat)

def digit (c : UInt8) : Nat := c.toNat - 48

/-- The template has no other verbs; what follows another one is copied. -/
def sprintfFrom (args : List Text) : Verb → Text → Text
  | _, [] => []
  | .plain, c :: rest =>
      if c = code '%' then sprintfFrom args .percent rest else c :: sprintfFrom args .plain rest
  | .percent, c :: rest =>
      if c = code '[' then sprintfFrom args (.index 0) rest else c :: sprintfFrom args .plain rest
  | .index read, c :: rest =>
      if c = code ']' then sprintfFrom args (.closed read) rest
      else sprintfFrom args (.index (read * 10 + digit c)) rest
  | .closed index, _ :: rest => args.getD (index - 1) [] ++ sprintfFrom args .plain rest

def sprintf (template : Text) (args : List Text) : Text := sprintfFrom args .plain template

end Format

section Arguments

def encodeToString (value : Text) : Text := Base64.encode Base64.standard value

/-- `strings.Join` with a comma. -/
def joinLabels (labels : List Text) : Text := (labels.intersperse [code ',']).flatten

def dockerFlag (input : StartInput) : Text :=
  if input.requireDocker then [code '1'] else [code '0']

def scriptArgs (input : StartInput) (sandboxID : Text) : List Text :=
  [encodeToString input.repositoryURL, encodeToString input.registrationToken,
    encodeToString input.runnerName, encodeToString (joinLabels input.labels),
    encodeToString input.runnerGroup, encodeToString input.requestID, encodeToString sandboxID,
    dockerFlag input, encodeToString input.cacheS3Region, encodeToString input.cacheS3Bucket,
    encodeToString input.cacheS3Endpoint, encodeToString input.cacheS3ReadPrefixes,
    encodeToString input.cacheS3WritePrefix, encodeToString input.cacheS3AccessKeyID,
    encodeToString input.cacheS3SecretKey, encodeToString input.cacheS3SessionToken]

def startScript (input : StartInput) (sandboxID : Text) : Text :=
  sprintf startRunnerScriptTemplate (scriptArgs input sandboxID)

end Arguments

section Shell

/-- `$(...)` drops zero bytes and the line breaks at the end of what it captures. -/
def captured (output : Text) : Text :=
  (output.filter (· != 0)).rdropWhile (· == code '\n')

def isNameByte (c : UInt8) : Bool := Urls.isLetter c || Urls.isDigit c || c == code '_'

end Shell

section Written
variable (args : List Text)

def Placeholder.number (placeholder : Placeholder) : Nat :=
  (ascii placeholder.index).foldl (fun read c => read * 10 + digit c) 0

/-- A placeholder that the format and the shell read as it is meant. -/
structure Placeholder.Plain (placeholder : Placeholder) : Prop where
  named : ascii placeholder.variableName ≠ []
  wordy : ∀ c ∈ ascii placeholder.variableName, isNameByte c = true
  unclosed : code ']' ∉ ascii placeholder.index

def writtenOpening : Text := ascii "=\"$(printf '%s' \""
def writtenClosing : Text := ascii "\" | base64 -d)\""

/-- The line of a variable after the format has filled it in. -/
def writtenLine (placeholder : Placeholder) (argument : Text) : Text :=
  ascii placeholder.variableName ++ (writtenOpening ++ (argument ++ writtenClosing))

def writtenDocker (flag : Text) : Text := ascii "require_docker=\"" ++ (flag ++ ascii "\"")

/-- What becomes of a line of the template. -/
def ScriptLine.written : ScriptLine → Text
  | .fixed text => bytesOf text
  | .docker => writtenDocker (args.getD 7 [])
  | .decoded placeholder => writtenLine placeholder (args.getD (placeholder.number - 1) [])

/-- The format changes nothing else in the line, and the line stays one line. -/
def ScriptLine.Plain : ScriptLine → Prop
  | .fixed text => code '%' ∉ bytesOf text ∧ code '\n' ∉ bytesOf text
  | .docker => True
  | .decoded placeholder => placeholder.Plain

end Written

section Reading

end Reading

section Delivery
variable (input : StartInput) (sandboxID : Text)

/-- A value without zero bytes that does not end in a line break is received as it was given. -/
theorem captured_whole {value : Text} (nonzero : (0 : UInt8) ∉ value)
    (ended : value.getLast? ≠ some (code '\n')) : captured value = value := by
  have kept : value.filter (· != 0) = value := by
    rw [List.filter_eq_self]
    intro c member
    simpa using ne_of_mem_of_not_mem member nonzero
  rw [captured, kept, List.rdropWhile_eq_self_iff]
  intro nonempty
  rw [List.getLast?_eq_some_getLast nonempty] at ended
  simpa using ended

end Delivery
end Runnerd.StartScript
