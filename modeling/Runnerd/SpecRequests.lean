import Mathlib
import Runnerd.CatalogReconciliation
import Runnerd.SpecWrites
import Runnerd.Interleaving

/-!
The admin handlers of `internal/server/server_admin_handlers.go` that create,
change and delete a spec, for any number of concurrent requests. The catalog is
reconciled when a server starts and before it serves its first request.

A body is the first JSON value of the request, an object with its members as they
are written, repeated keys included. `encoding/json` takes a member for the field
whose name it folds to, later members over earlier ones, and fails on a value of
another type.
-/

namespace Runnerd

open GoText Interaction Interleaving

section Decoding

inductive Json where
  | null
  | bool (value : Bool)
  | integer (value : Int)
  /-- A number with a fraction or an exponent. -/
  | decimal (literal : String)
  | string (value : String)
  | array (items : List Json)
  | object (members : List (String × Json))

/-- A setter of a struct field, under its `json` tag. -/
structure Field (Input : Type) where
  tag : String
  set : Json → Input → Option Input

def decodeMember {Input : Type} (fields : List (Field Input)) (input : Input)
    (member : String × Json) : Option Input :=
  match fields.find? fun field => equalFold member.1 field.tag with
  | none => some input
  | some field => field.set member.2 input

/-- `Decode` into a struct: `none` on a value of another type. -/
def decodeStruct {Input : Type} (fields : List (Field Input)) (zero : Input) :
    Json → Option Input
  | .null => some zero
  | .object members => members.foldlM (decodeMember fields) zero
  | _ => none

-- `null` leaves a plain field as it was.
def decodeString : Json → String → Option String
  | .null, old => some old
  | .string value, _ => some value
  | _, _ => none

def decodeInt : Json → Int → Option Int
  | .null, old => some old
  | .integer value, _ => if -2 ^ 63 ≤ value ∧ value < 2 ^ 63 then some value else none
  | _, _ => none

def decodeBool : Json → Bool → Option Bool
  | .null, old => some old
  | .bool value, _ => some value
  | _, _ => none

/-- A slice, and what its array still holds behind it. -/
structure StringSlice where
  items : List String := []
  behind : List String := []

/-- Each element is decoded over the one that stood there, which a `null` leaves. -/
def decodeItems : List Json → List String → Option StringSlice
  | [], behind => some ⟨[], behind⟩
  | item :: rest, held => do
      let first ← decodeString item (held.headD "")
      let slice ← decodeItems rest held.tail
      return { slice with items := first :: slice.items }

def decodeStrings : Json → StringSlice → Option StringSlice
  | .null, _ => some {}
  | .array [], _ => some {}
  | .array items, old => decodeItems items (old.items ++ old.behind)
  | _, _ => none

example : decodeStrings (.array [.null, .null])
    { items := ["c"], behind := ["b"] } = some { items := ["c", "b"] } := rfl

/-- Through a pointer, which `null` resets. -/
def decodePointer {α : Type} (decode : Json → α → Option α) (zero : α) :
    Json → Option α → Option (Option α)
  | .null, _ => some none
  | value, old => (decode value (old.getD zero)).map some

structure CreateProfileRequest where
  name : String := ""
  labels : StringSlice := {}
  requiredLabels : StringSlice := {}
  templateID : String := ""
  runnerGroup : String := ""
  maxConcurrency : Int := 0
  minIdle : Option Int := none
  priority : Option Int := none
  enabled : Option Bool := none

def createFields : List (Field CreateProfileRequest) :=
  [⟨"name", fun value input => (decodeString value input.name).map ({ input with name := · })⟩,
   ⟨"labels", fun value input => (decodeStrings value input.labels).map ({ input with labels := · })⟩,
   ⟨"required_labels", fun value input => (decodeStrings value input.requiredLabels).map
      ({ input with requiredLabels := · })⟩,
   ⟨"template_id", fun value input => (decodeString value input.templateID).map
      ({ input with templateID := · })⟩,
   ⟨"runner_group", fun value input => (decodeString value input.runnerGroup).map
      ({ input with runnerGroup := · })⟩,
   ⟨"max_concurrency", fun value input => (decodeInt value input.maxConcurrency).map
      ({ input with maxConcurrency := · })⟩,
   ⟨"min_idle", fun value input => (decodePointer decodeInt 0 value input.minIdle).map
      ({ input with minIdle := · })⟩,
   ⟨"priority", fun value input => (decodePointer decodeInt 0 value input.priority).map
      ({ input with priority := · })⟩,
   ⟨"enabled", fun value input => (decodePointer decodeBool false value input.enabled).map
      ({ input with enabled := · })⟩]

structure PatchProfileRequest where
  labels : Option StringSlice := none
  requiredLabels : Option StringSlice := none
  templateID : Option String := none
  runnerGroup : Option String := none
  maxConcurrency : Option Int := none
  minIdle : Option Int := none
  priority : Option Int := none
  enabled : Option Bool := none

def patchFields : List (Field PatchProfileRequest) :=
  [⟨"labels", fun value input => (decodePointer decodeStrings {} value input.labels).map
      ({ input with labels := · })⟩,
   ⟨"required_labels", fun value input =>
      (decodePointer decodeStrings {} value input.requiredLabels).map
        ({ input with requiredLabels := · })⟩,
   ⟨"template_id", fun value input => (decodePointer decodeString "" value input.templateID).map
      ({ input with templateID := · })⟩,
   ⟨"runner_group", fun value input => (decodePointer decodeString "" value input.runnerGroup).map
      ({ input with runnerGroup := · })⟩,
   ⟨"max_concurrency", fun value input => (decodePointer decodeInt 0 value input.maxConcurrency).map
      ({ input with maxConcurrency := · })⟩,
   ⟨"min_idle", fun value input => (decodePointer decodeInt 0 value input.minIdle).map
      ({ input with minIdle := · })⟩,
   ⟨"priority", fun value input => (decodePointer decodeInt 0 value input.priority).map
      ({ input with priority := · })⟩,
   ⟨"enabled", fun value input => (decodePointer decodeBool false value input.enabled).map
      ({ input with enabled := · })⟩]

/-- A body and the keys of the map it is first decoded into. -/
structure ProfileRequestPayload where
  data : Json
  fields : List String

/-- `none` stands for a body that cannot be read or parsed. -/
def readProfileRequestPayload : Option Json → Option ProfileRequestPayload
  | some .null => some ⟨.null, []⟩
  | some (.object members) => some ⟨.object members, members.map Prod.fst⟩
  | _ => none

def ProfileRequestPayload.containsAny (payload : ProfileRequestPayload) (names : List String) :
    Bool :=
  payload.fields.any fun field => names.any fun name => equalFold field name

def ProfileRequestPayload.decode {Input : Type} (payload : ProfileRequestPayload)
    (fields : List (Field Input)) (zero : Input) : Option Input :=
  decodeStruct fields zero payload.data

end Decoding

section Handlers

inductive SpecReply where
  | error (status : Nat) (code : String) (message : String)
  | profile (status : Nat) (profile : SpecProfile)
  | deleted

inductive SpecOp where
  | reconcile (profiles : List SpecProfile)
  | getProfile (name : String)
  | validateTemplate (templateID : String)
  | saveProfile (action : String) (profile : SpecProfile) (expectedUpdatedAt : Option Time)
  | deleteProfile (name : String)

/-- `validateAdminProfileTemplate` answers with the reply of a template that it refuses. -/
@[reducible] def SpecOp.Resp : SpecOp → Type
  | .reconcile _ => Except GoError (List ManagedProfileConflict)
  | .getProfile _ => Except GoError (Option SpecProfile)
  | .validateTemplate _ => Option SpecReply
  | .saveProfile _ _ _ => Except MutationError SpecProfile
  | .deleteProfile _ => Except MutationError Unit

abbrev SpecAction := Prog SpecOp SpecOp.Resp

abbrev SpecAnswered := Call SpecOp SpecOp.Resp

def askSpecs (op : SpecOp) : SpecAction op.Resp := Prog.request op

def replyError (status : Nat) (message : String) : SpecReply := .error status "" message

def invalidPayload : SpecReply := replyError 400 "invalid profile payload"

def managedRunnerSpec (message : String) : SpecReply := .error 409 "managed_runner_spec" message

/-- `writeProfileConflict`, `writeMutationAuditError`, and what the handlers write
for any other error. -/
def mutationReply (otherwise : Nat) : MutationError → SpecReply
  | .conflict => .error 409 "runner_spec_conflict"
      "Runner Spec changed while saving; refresh and try again"
  | .audit err => replyError 500
      ("persist mutation audit: audit event persistence failed: " ++ err.message)
  | .failed err => replyError otherwise err.message

def clientMetadata : List String := ["managed_by", "catalog_revision", "default_template_name"]

def catalogFields : List String :=
  ["labels", "required_labels", "template_id", "runner_group", "priority",
   "default_template_name", "managed_by", "catalog_revision"]

def requestedProfile (input : CreateProfileRequest) : SpecProfile where
  name := input.name
  labels := input.labels.items
  requiredLabels := input.requiredLabels.items
  templateID := input.templateID
  runnerGroup := input.runnerGroup
  maxConcurrency := input.maxConcurrency
  minIdle := input.minIdle.getD 0
  priority := input.priority.getD 0
  enabled := input.enabled.getD true

def patchedProfile (current : SpecProfile) (input : PatchProfileRequest) : SpecProfile :=
  { current with
    labels := (input.labels.map StringSlice.items).getD current.labels
    requiredLabels := (input.requiredLabels.map StringSlice.items).getD current.requiredLabels
    templateID := trimSpace (input.templateID.getD current.templateID)
    runnerGroup := input.runnerGroup.getD current.runnerGroup
    maxConcurrency := input.maxConcurrency.getD current.maxConcurrency
    minIdle := input.minIdle.getD current.minIdle
    priority := input.priority.getD current.priority
    enabled := input.enabled.getD current.enabled }

/-- The columns that stay under the control of the operator. -/
def patchedManagedProfile (current : SpecProfile) (input : PatchProfileRequest) : SpecProfile :=
  { current with
    maxConcurrency := input.maxConcurrency.getD current.maxConcurrency
    minIdle := input.minIdle.getD current.minIdle
    enabled := input.enabled.getD current.enabled }

def saveAndReply (action : String) (status : Nat) (profile : SpecProfile)
    (expectedUpdatedAt : Option Time) : SpecAction SpecReply := do
  match ← askSpecs (.saveProfile action profile expectedUpdatedAt) with
  | .error err => return mutationReply 400 err
  | .ok saved => return .profile status saved

variable (lower : String → String)

def createRequested (requested : SpecProfile) (expectedUpdatedAt : Option Time) :
    SpecAction SpecReply := do
  match validateProfile lower requested.toRunnerProfile with
  | .error err => return replyError 400 err.message
  | .ok () =>
      match ← askSpecs (.validateTemplate requested.templateID) with
      | some refused => return refused
      | none => saveAndReply "profile.create" 201 requested expectedUpdatedAt

def createDecoded (input : CreateProfileRequest) : SpecAction SpecReply := do
  match ← askSpecs (.getProfile input.name) with
  | .error err => return replyError 500 err.message
  | .ok none => createRequested lower (requestedProfile input) none
  | .ok (some existing) =>
      if trimSpace existing.managedBy ≠ "" then
        return managedRunnerSpec "managed runner specs cannot be overwritten"
      else createRequested lower (requestedProfile input) (some existing.updatedAt)

def handleCreateProfile (body : Option Json) : SpecAction SpecReply :=
  match readProfileRequestPayload body with
  | none => return invalidPayload
  | some payload =>
      if payload.containsAny clientMetadata then
        return replyError 400 "managed runner spec metadata cannot be set by clients"
      else
        match payload.decode createFields {} with
        | none => return invalidPayload
        | some decoded =>
            let input := { decoded with templateID := trimSpace decoded.templateID }
            if input.templateID = "" then return replyError 400 "template_id is required"
            else createDecoded lower input

def handlePatchManagedProfile (current : SpecProfile) (payload : ProfileRequestPayload) :
    SpecAction SpecReply :=
  if payload.containsAny catalogFields then
    return managedRunnerSpec "managed runner spec catalog fields cannot be changed"
  else
    match payload.decode patchFields {} with
    | none => return invalidPayload
    | some input => saveAndReply "profile.update" 200 (patchedManagedProfile current input)
        (some current.updatedAt)

def patchRequested (current updated : SpecProfile) : SpecAction SpecReply := do
  if updated.templateID = "" then return replyError 400 "template_id is required"
  else
    match validateProfile lower updated.toRunnerProfile with
    | .error err => return replyError 400 err.message
    | .ok () =>
        if updated.templateID ≠ trimSpace current.templateID then
          match ← askSpecs (.validateTemplate updated.templateID) with
          | some refused => return refused
          | none => saveAndReply "profile.update" 200 updated (some current.updatedAt)
        else saveAndReply "profile.update" 200 updated (some current.updatedAt)

def handlePatchUnmanagedProfile (current : SpecProfile) (payload : ProfileRequestPayload) :
    SpecAction SpecReply :=
  if payload.containsAny clientMetadata then
    return replyError 400 "managed runner spec metadata cannot be set by clients"
  else
    match payload.decode patchFields {} with
    | none => return invalidPayload
    | some input => patchRequested lower current (patchedProfile current input)

def handlePatchProfile (name : String) (body : Option Json) : SpecAction SpecReply := do
  match ← askSpecs (.getProfile name) with
  | .error _ => return replyError 404 "profile not found"
  | .ok none => return replyError 404 "profile not found"
  | .ok (some current) =>
      match readProfileRequestPayload body with
      | none => return invalidPayload
      | some payload =>
          if trimSpace current.managedBy ≠ "" then handlePatchManagedProfile current payload
          else handlePatchUnmanagedProfile lower current payload

def deleteAndReply (name : String) : SpecAction SpecReply := do
  match ← askSpecs (.deleteProfile name) with
  | .error err => return mutationReply 500 err
  | .ok () => return .deleted

def handleDeleteProfile (name : String) : SpecAction SpecReply := do
  match ← askSpecs (.getProfile name) with
  | .error err => return replyError 500 err.message
  | .ok none => deleteAndReply name
  | .ok (some profile) =>
      if trimSpace profile.managedBy ≠ "" then
        return managedRunnerSpec "managed runner specs cannot be deleted"
      else deleteAndReply name

end Handlers

section System

inductive SpecTask where
  | startup (profiles : List SpecProfile)
  | create (body : Option Json)
  | patch (name : String) (body : Option Json)
  | delete (name : String)

/-- A server answers requests once its start has reconciled the catalog. -/
structure SpecState extends SpecStore where
  serving : Bool

structure SpecChoice where
  reconcile : ReconcileSurroundings := {}
  read : Option GoError := none
  template : Option SpecReply := none
  write : SaveSurroundings := {}

variable (lower : String → String) (precision : ColumnPrecision)

def SpecTask.body : SpecTask → SpecAction Unit
  | .startup profiles => do
      let _ ← askSpecs (.reconcile profiles)
      return ()
  | .create body => do
      let _ ← handleCreateProfile lower body
      return ()
  | .patch name body => do
      let _ ← handlePatchProfile lower name body
      return ()
  | .delete name => do
      let _ ← handleDeleteProfile name
      return ()

/-- A transaction that fails leaves the store as it was. -/
def transacted {α : Type} (state : SpecState) :
    Except MutationError (α × SpecStore) → Except MutationError α × SpecState
  | .error err => (.error err, state)
  | .ok (answer, store) => (.ok answer, { state with toSpecStore := store })

def reconciled (state : SpecState) :
    Except GoError (List ManagedProfileConflict) × SpecStore →
      Except GoError (List ManagedProfileConflict) × SpecState
  | (.error err, store) => (.error err, { state with toSpecStore := store })
  | (.ok conflicts, store) => (.ok conflicts, { toSpecStore := store, serving := true })

def respondSpecs (choice : SpecChoice) (state : SpecState) :
    (op : SpecOp) → Option (op.Resp × SpecState)
  | .reconcile profiles =>
      if state.serving then none
      else some (reconciled state (reconcileManagedProfiles lower precision.keep choice.reconcile
        profiles state.toSpecStore))
  | .getProfile name =>
      if state.serving then
        match choice.read with
        | some err => some (.error err, state)
        | none => some (SpecTable.getProfile state.specs name, state)
      else none
  | .validateTemplate _ => if state.serving then some (choice.template, state) else none
  | .saveProfile action profile expectedUpdatedAt =>
      if state.serving then
        some (transacted state (saveTransaction lower precision choice.write action profile
          expectedUpdatedAt state.toSpecStore))
      else none
  | .deleteProfile name =>
      if state.serving then
        some (transacted state (deleteTransaction precision choice.write name state.toSpecStore))
      else none

def specMachine : Machine SpecOp SpecOp.Resp SpecTask SpecState SpecChoice where
  body := SpecTask.body lower
  respond _ := respondSpecs lower precision
  spawned _ _ _ := []
  entry _ := true
  crash state := { state with serving := false }

abbrev SpecWorld := World SpecOp SpecOp.Resp SpecTask SpecState

abbrev SpecMove := Move SpecTask SpecChoice

/-- A store that no server has started on. -/
def emptySpecs : SpecWorld :=
  ⟨{ specs := .empty, audit := [], serving := false }, [], []⟩

end System

section Contract
variable {lower : String → String}

/-- The task saves specs, on the version that it read. -/
def SpecTask.saves : SpecTask → Bool
  | .create _ => true
  | .patch _ _ => true
  | _ => false

def SpecTask.starts : SpecTask → Bool
  | .startup _ => true
  | _ => false

def SpecTask.deletes : SpecTask → Bool
  | .delete _ => true
  | _ => false

/-- The catalog fields of a spec, as a patch of a managed one leaves them. -/
structure SameCatalogFields (current updated : SpecProfile) : Prop where
  name : updated.name = current.name
  labels : updated.labels = current.labels
  requiredLabels : updated.requiredLabels = current.requiredLabels
  templateID : updated.templateID = current.templateID
  defaultTemplateName : updated.defaultTemplateName = current.defaultTemplateName
  runnerGroup : updated.runnerGroup = current.runnerGroup
  priority : updated.priority = current.priority
  managedBy : updated.managedBy = current.managedBy
  catalogRevision : updated.catalogRevision = current.catalogRevision

/-- What a save is based on: a name that was not there, an unmanaged row, or a
managed row whose catalog fields it repeats. -/
inductive Based (past : List SpecAnswered) (profile : SpecProfile) : Option Time → Prop where
  | absent (read : ⟨.getProfile profile.name, .ok none⟩ ∈ past) (unowned : profile.managedBy = "") :
      Based past profile none
  | unmanaged {name : String} {current : SpecProfile}
      (read : ⟨.getProfile name, .ok (some current)⟩ ∈ past)
      (blank : trimSpace current.managedBy = "")
      (named : profile.name = name ∨ profile.name = current.name)
      (owner : profile.managedBy = "" ∨ profile.managedBy = current.managedBy) :
      Based past profile (some current.updatedAt)
  | managed {name : String} {current : SpecProfile}
      (read : ⟨.getProfile name, .ok (some current)⟩ ∈ past)
      (owned : trimSpace current.managedBy ≠ "") (same : SameCatalogFields current profile) :
      Based past profile (some current.updatedAt)

/-- A delete follows a read that found no row or an unmanaged one. -/
def Deletable (past : List SpecAnswered) (name : String) : Prop :=
  ⟨.getProfile name, .ok none⟩ ∈ past ∨ ∃ current,
    ⟨.getProfile name, .ok (some current)⟩ ∈ past ∧ trimSpace current.managedBy = ""

def specContract (task : SpecTask) (past : List SpecAnswered) : SpecOp → Prop
  | .reconcile _ => task.starts = true
  | .getProfile _ => True
  | .validateTemplate _ => True
  | .saveProfile _ profile expectedUpdatedAt =>
      task.saves = true ∧ Based past profile expectedUpdatedAt
  | .deleteProfile name => task.deletes = true ∧ Deletable past name

variable {task : SpecTask} {past : List SpecAnswered}

theorem Based.later {profile : SpecProfile} {expected : Option Time} {call : SpecAnswered}
    (based : Based past profile expected) : Based (call :: past) profile expected := by
  cases based with
  | absent read unowned => exact .absent (List.mem_cons_of_mem _ read) unowned
  | unmanaged read blank named owner =>
      exact .unmanaged (List.mem_cons_of_mem _ read) blank named owner
  | managed read owned same => exact .managed (List.mem_cons_of_mem _ read) owned same

theorem saveAndReply_keeps {action : String} {status : Nat} {profile : SpecProfile}
    {expected : Option Time} (saves : task.saves = true) (based : Based past profile expected) :
    Keeps (specContract task) (saveAndReply action status profile expected)
      (fun _ _ => True) past := by
  refine keeps_call ⟨saves, based⟩ fun answer => ?_
  cases answer with
  | error err => exact keeps_return trivial
  | ok saved => exact keeps_return trivial

theorem createRequested_keeps {requested : SpecProfile} {expected : Option Time}
    (saves : task.saves = true) (based : Based past requested expected) :
    Keeps (specContract task) (createRequested lower requested expected)
      (fun _ _ => True) past := by
  unfold createRequested
  cases validateProfile lower requested.toRunnerProfile with
  | error err => exact keeps_return trivial
  | ok _ =>
      refine keeps_call trivial fun refused => ?_
      cases refused with
      | some reply => exact keeps_return trivial
      | none => exact saveAndReply_keeps saves based.later

theorem createDecoded_keeps {input : CreateProfileRequest} (saves : task.saves = true) :
    Keeps (specContract task) (createDecoded lower input) (fun _ _ => True) past := by
  refine keeps_call trivial fun answer => ?_
  rcases answer with err | found
  · exact keeps_return trivial
  cases found with
  | none => exact createRequested_keeps saves (.absent List.mem_cons_self rfl)
  | some existing =>
      by_cases blank : trimSpace existing.managedBy = ""
      · simp only [blank, ne_eq, not_true_eq_false, if_false]
        exact createRequested_keeps saves
          (.unmanaged List.mem_cons_self blank (.inl rfl) (.inl rfl))
      · simp only [blank, ne_eq, not_false_eq_true, if_true]
        exact keeps_return trivial

theorem handleCreateProfile_keeps (body : Option Json) (saves : task.saves = true) :
    Keeps (specContract task) (handleCreateProfile lower body) (fun _ _ => True) past := by
  unfold handleCreateProfile
  cases readProfileRequestPayload body with
  | none => exact keeps_return trivial
  | some payload =>
      dsimp only
      split
      · exact keeps_return trivial
      · cases payload.decode createFields {} with
        | none => exact keeps_return trivial
        | some decoded =>
            dsimp only
            split
            · exact keeps_return trivial
            · exact createDecoded_keeps saves

theorem handlePatchManagedProfile_keeps {name : String} {current : SpecProfile}
    (payload : ProfileRequestPayload) (saves : task.saves = true)
    (read : ⟨.getProfile name, .ok (some current)⟩ ∈ past)
    (owned : trimSpace current.managedBy ≠ "") :
    Keeps (specContract task) (handlePatchManagedProfile current payload)
      (fun _ _ => True) past := by
  unfold handlePatchManagedProfile
  split
  · exact keeps_return trivial
  · cases payload.decode patchFields {} with
    | none => exact keeps_return trivial
    | some input =>
        exact saveAndReply_keeps saves
          (.managed read owned ⟨rfl, rfl, rfl, rfl, rfl, rfl, rfl, rfl, rfl⟩)

theorem patchRequested_keeps {name : String} {current updated : SpecProfile}
    (saves : task.saves = true) (read : ⟨.getProfile name, .ok (some current)⟩ ∈ past)
    (blank : trimSpace current.managedBy = "") (named : updated.name = current.name)
    (owner : updated.managedBy = current.managedBy) :
    Keeps (specContract task) (patchRequested lower current updated) (fun _ _ => True) past := by
  have based : Based past updated (some current.updatedAt) :=
    .unmanaged read blank (.inr named) (.inr owner)
  unfold patchRequested
  split
  · exact keeps_return trivial
  · cases validateProfile lower updated.toRunnerProfile with
    | error err => exact keeps_return trivial
    | ok _ =>
        dsimp only
        split
        · refine keeps_call trivial fun refused => ?_
          cases refused with
          | some reply => exact keeps_return trivial
          | none => exact saveAndReply_keeps saves based.later
        · exact saveAndReply_keeps saves based

theorem handlePatchProfile_keeps (name : String) (body : Option Json)
    (saves : task.saves = true) :
    Keeps (specContract task) (handlePatchProfile lower name body) (fun _ _ => True) past := by
  refine keeps_call trivial fun answer => ?_
  rcases answer with err | found
  · exact keeps_return trivial
  cases found with
  | none => exact keeps_return trivial
  | some current =>
      dsimp only
      cases readProfileRequestPayload body with
      | none => exact keeps_return trivial
      | some payload =>
          by_cases blank : trimSpace current.managedBy = ""
          · simp only [blank, ne_eq, not_true_eq_false, if_false, handlePatchUnmanagedProfile]
            split
            · exact keeps_return trivial
            · cases payload.decode patchFields {} with
              | none => exact keeps_return trivial
              | some input =>
                  exact patchRequested_keeps saves List.mem_cons_self blank rfl rfl
          · simp only [blank, ne_eq, not_false_eq_true, if_true]
            exact handlePatchManagedProfile_keeps payload saves List.mem_cons_self blank

theorem deleteAndReply_keeps {name : String} (deletes : task.deletes = true)
    (deletable : Deletable past name) :
    Keeps (specContract task) (deleteAndReply name) (fun _ _ => True) past := by
  refine keeps_call ⟨deletes, deletable⟩ fun answer => ?_
  cases answer with
  | error err => exact keeps_return trivial
  | ok _ => exact keeps_return trivial

theorem handleDeleteProfile_keeps (name : String) (deletes : task.deletes = true) :
    Keeps (specContract task) (handleDeleteProfile name) (fun _ _ => True) past := by
  refine keeps_call trivial fun answer => ?_
  rcases answer with err | found
  · exact keeps_return trivial
  cases found with
  | none => exact deleteAndReply_keeps deletes (.inl List.mem_cons_self)
  | some current =>
      by_cases blank : trimSpace current.managedBy = ""
      · simp only [blank, ne_eq, not_true_eq_false, if_false]
        exact deleteAndReply_keeps deletes (.inr ⟨current, List.mem_cons_self, blank⟩)
      · simp only [blank, ne_eq, not_false_eq_true, if_true]
        exact keeps_return trivial

theorem specTask_keeps (task : SpecTask) :
    Keeps (specContract task) (task.body lower) (fun _ _ => True) [] := by
  cases task with
  | startup profiles => exact keeps_call rfl fun _ => keeps_return trivial
  | create body =>
      exact keeps_seq (keeps_mono (fun _ _ _ => keeps_return trivial)
        (handleCreateProfile_keeps body rfl))
  | patch name body =>
      exact keeps_seq (keeps_mono (fun _ _ _ => keeps_return trivial)
        (handlePatchProfile_keeps name body rfl))
  | delete name =>
      exact keeps_seq (keeps_mono (fun _ _ _ => keeps_return trivial)
        (handleDeleteProfile_keeps name rfl))

end Contract

end Runnerd
