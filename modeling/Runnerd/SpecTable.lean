import Runnerd.KeyedTable
import Runnerd.ProfileMatching

/-!
The `runner_profiles` table of `internal/state/records.go`, how a row is read
back, and what a spec has to satisfy before it is written. A JSON column of
labels is kept as what `json.Unmarshal` makes of its text, and a nil list of
labels and an empty one are the same list.
-/

namespace Runnerd

open GoText

inductive LabelsColumn where
  | listed (labels : List String)
  | malformed (err : GoError)
  deriving DecidableEq, Repr

def LabelsColumn.unmarshal : LabelsColumn → Except GoError (List String)
  | .listed labels => .ok labels
  | .malformed err => .error err

/-- `createdAt` is `none` for the zero time. -/
structure RunnerProfileRecord where
  name : String
  labelsJSON : LabelsColumn
  requiredLabelsJSON : LabelsColumn
  templateID : String
  defaultTemplateName : String
  runnerGroup : String
  maxConcurrency : Int
  minIdle : Int
  priority : Int
  enabled : Bool
  defaultAvailable : Bool
  managedBy : String
  catalogRevision : Int
  createdAt : Option Time
  updatedAt : Time
  deriving DecidableEq, Repr

abbrev SpecTable := KeyedTable RunnerProfileRecord.name

/-- `RunnerProfile` with its two timestamps. -/
structure SpecProfile extends RunnerProfile where
  createdAt : Option Time := none
  updatedAt : Time := 0
  deriving DecidableEq, Repr

def recordToProfile (record : RunnerProfileRecord) : Except GoError SpecProfile := do
  let labels ← record.labelsJSON.unmarshal
  let requiredLabels ← record.requiredLabelsJSON.unmarshal
  return {
    name := record.name
    labels
    requiredLabels
    templateID := record.templateID
    defaultTemplateName := record.defaultTemplateName
    runnerGroup := record.runnerGroup
    maxConcurrency := record.maxConcurrency
    minIdle := record.minIdle
    priority := record.priority
    enabled := record.enabled
    managedBy := record.managedBy
    catalogRevision := record.catalogRevision
    createdAt := record.createdAt
    updatedAt := record.updatedAt }

def validateProfileName (name : String) : Except GoError Unit :=
  if contains name "/" = true ∨ name = "." ∨ name = ".." then
    .error { message := "profile name must not contain '/' or be '.' or '..'" }
  else .ok ()

def nameRequired (name : String) : Except GoError Unit :=
  if name = "" then .error { message := "profile name is required" } else .ok ()

def requiredWithin (lower : String → String) (profile : RunnerProfile) : Except GoError Unit :=
  if matchLabels lower profile.requiredLabels profile.labels then .ok ()
  else .error { message := "required labels must be a subset of labels" }

/-- `ValidateProfile`. -/
def validateProfile (lower : String → String) (profile : RunnerProfile) : Except GoError Unit := do
  let name := trimSpace profile.name
  nameRequired name
  validateProfileName name
  requiredWithin lower profile

/-- An audit event, its payload before it is encoded. -/
structure AuditEvent (Payload : Type) where
  actor : String
  action : String
  resourceType : String
  resourceID : String
  payload : Payload
  createdAt : Time
  deriving DecidableEq, Repr

/-- What an event about a spec reports. -/
inductive SpecPayload where
  | reconciled (managedBy : String) (catalogRevision : Int)
  | profile (profile : SpecProfile)
  | status (status : String)
  deriving DecidableEq, Repr

structure SpecStore where
  specs : SpecTable
  audit : List (AuditEvent SpecPayload)

/-- What a statement of a transaction answers when the database fails it. -/
def faulted : Option GoError → Except GoError Unit
  | none => .ok ()
  | some err => .error err

section Peeling
variable {ε α β : Type}

theorem ok_bind {first : Except ε α} {next : α → Except ε β} {result : β}
    (ran : first >>= next = .ok result) : ∃ value, first = .ok value ∧ next value = .ok result := by
  cases first with
  | error err => cases ran
  | ok value => exact ⟨value, rfl, ran⟩

theorem error_bind {first : Except ε α} {next : α → Except ε β} {err : ε}
    (ran : first >>= next = .error err) :
    first = .error err ∨ ∃ value, first = .ok value ∧ next value = .error err := by
  cases first with
  | error _ => exact .inl (congrArg Except.error (Except.error.inj ran))
  | ok value => exact .inr ⟨value, rfl, ran⟩

theorem error_mapError {γ : Type} {first : Except ε α} {wrap : ε → γ} {err : γ}
    (ran : first.mapError wrap = .error err) : ∃ cause, first = .error cause ∧ err = wrap cause := by
  cases first with
  | error cause => exact ⟨cause, rfl, (Except.error.inj ran).symm⟩
  | ok _ => cases ran

end Peeling

theorem faulted_error {fault : Option GoError} {err : GoError}
    (failed : faulted fault = .error err) : fault = some err := by
  cases fault with
  | none => cases failed
  | some _ => exact congrArg some (Except.error.inj failed)

theorem nameRequired_ok {name : String} {value : Unit} (passed : nameRequired name = .ok value) :
    name ≠ "" := by
  intro empty
  simp [nameRequired, empty] at passed

theorem unmarshal_ok {column : LabelsColumn} {labels : List String}
    (read : column.unmarshal = .ok labels) : column = .listed labels := by
  cases column with
  | listed _ => exact congrArg LabelsColumn.listed (Except.ok.inj read)
  | malformed _ => cases read

/-- A row that can be read is the row its profile describes. -/
theorem recordToProfile_ok {record : RunnerProfileRecord} {profile : SpecProfile}
    (read : recordToProfile record = .ok profile) :
    record = {
      name := profile.name
      labelsJSON := .listed profile.labels
      requiredLabelsJSON := .listed profile.requiredLabels
      templateID := profile.templateID
      defaultTemplateName := profile.defaultTemplateName
      runnerGroup := profile.runnerGroup
      maxConcurrency := profile.maxConcurrency
      minIdle := profile.minIdle
      priority := profile.priority
      enabled := profile.enabled
      defaultAvailable := record.defaultAvailable
      managedBy := profile.managedBy
      catalogRevision := profile.catalogRevision
      createdAt := profile.createdAt
      updatedAt := profile.updatedAt } := by
  obtain ⟨labels, labelsRead, read⟩ := ok_bind read
  obtain ⟨required, requiredRead, read⟩ := ok_bind read
  cases Except.ok.inj read
  rw [← unmarshal_ok labelsRead, ← unmarshal_ok requiredRead]

end Runnerd
