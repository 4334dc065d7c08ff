import Runnerd.RequestStore
import Runnerd.Webhooks

/-!
The logs of a runner: `AppendLog` and `ReadLog` over the one table
`runner_events`. A log is filed under its request's id as the caller spells it, and
looked up under the id as the store spells it.
-/

namespace Runnerd

open GoText

section Table

inductive LogEventType where
  | controlLog
  | stdoutLog
  | stderrLog
  deriving DecidableEq, Repr

/-- A row of `runner_events`. The table lists its rows by their ids, which are given
in the order of insertion. -/
structure RunnerEventRecord where
  requestID : String
  eventType : LogEventType
  message : List UInt8
  deriving DecidableEq, Repr

/-- `filepath.Base`. -/
def filepathBase (path : String) : String :=
  if path = "" then "."
  else
    let last := (path.toList.rdropWhile (isRune '/')).rtakeWhile fun rune => !isRune '/' rune
    if last = [] then "/" else String.ofList last

def logEventType (name : String) : Except GoError LogEventType :=
  if filepathBase name = "control.log" then .ok .controlLog
  else if filepathBase name = "stdout.log" then .ok .stdoutLog
  else if filepathBase name = "stderr.log" then .ok .stderrLog
  else .error { message := "unsupported log name" }

/-- `AppendLog`, whose insertion does not fail. -/
def appendLog (id name : String) (data : List UInt8) (events : List RunnerEventRecord) :
    List RunnerEventRecord :=
  if data.length = 0 then events
  else
    match logEventType name with
    | .error _ => events
    | .ok eventType => events ++ [{ requestID := id, eventType, message := data }]

/-- `os.ErrNotExist`. -/
def errNotExist : GoError := { message := "file does not exist" }

/-- `ReadLog` with both its results. -/
def readLog (events : List RunnerEventRecord) (id name : String) (maxBytes : Int) :
    List UInt8 × Option GoError :=
  match logEventType name with
  | .error err => ([], some err)
  | .ok eventType =>
      let found := events.filter fun event =>
        event.requestID == sanitizeID id && event.eventType == eventType
      if found.length = 0 then ([], some errNotExist)
      else
        let data := found.flatMap RunnerEventRecord.message
        if 0 < maxBytes ∧ maxBytes < data.length then
          (data.drop (data.length - maxBytes.toNat), none)
        else (data, none)

end Table

section Calls

inductive LogCall where
  | append (id name : String) (data : List UInt8)
  | read (id name : String) (maxBytes : Int)
  deriving DecidableEq, Repr

def LogCall.run (events : List RunnerEventRecord) : LogCall → List RunnerEventRecord
  | .append id name data => appendLog id name data events
  | .read _ _ _ => events

/-- The table after these calls. -/
def logged (calls : List LogCall) : List RunnerEventRecord := calls.foldl LogCall.run []

def logNames : List String := ["control.log", "stdout.log", "stderr.log"]

/-- The log of a call. The directories of its name do not count. -/
def LogCall.adds (id name : String) : LogCall → List UInt8
  | .append called path data => if called = id ∧ filepathBase path = name then data else []
  | .read _ _ _ => []

/-- All that was appended under this id and name, in the order of the calls. -/
def appended (id name : String) (calls : List LogCall) : List UInt8 :=
  calls.flatMap (LogCall.adds id name)

/-- The last bytes, at most `maxBytes` of them. -/
def lastBytes (maxBytes : Int) (data : List UInt8) : List UInt8 :=
  data.drop (data.length - min maxBytes.toNat data.length)

end Calls

section Contents

/-- What the rows of one log hold together. -/
def contents (id : String) (eventType : LogEventType) (events : List RunnerEventRecord) :
    List UInt8 :=
  (events.filter fun event => event.requestID == id && event.eventType == eventType).flatMap
    RunnerEventRecord.message

theorem filepathBase_listed : ∀ name ∈ logNames, filepathBase name = name := by decide

/-- The three names are the names of three logs. -/
theorem logEventType_named {name : String} (listed : name ∈ logNames) :
    ∃ eventType, logEventType name = .ok eventType ∧
      ∀ path, logEventType path = .ok eventType ↔ filepathBase path = name := by
  have plain := filepathBase_listed name listed
  simp only [logNames, List.mem_cons, List.not_mem_nil, or_false] at listed
  rcases listed with rfl | rfl | rfl
  · refine ⟨.controlLog, by rw [logEventType, plain]; rfl, fun path => ?_⟩
    simp only [logEventType]
    grind
  · refine ⟨.stdoutLog, by rw [logEventType, plain]; rfl, fun path => ?_⟩
    simp only [logEventType]
    grind
  · refine ⟨.stderrLog, by rw [logEventType, plain]; rfl, fun path => ?_⟩
    simp only [logEventType]
    grind

theorem contents_call {id name : String} {eventType : LogEventType}
    (typed : ∀ path, logEventType path = .ok eventType ↔ filepathBase path = name)
    (events : List RunnerEventRecord) (call : LogCall) :
    contents id eventType (call.run events) = contents id eventType events ++ call.adds id name := by
  cases call with
  | read called path maxBytes => simp [LogCall.run, LogCall.adds]
  | append called path data =>
      simp only [LogCall.run, LogCall.adds, appendLog]
      by_cases empty : data.length = 0
      · rw [List.length_eq_zero_iff] at empty
        simp [empty]
      · rw [if_neg empty]
        cases named : logEventType path with
        | error err =>
            have other : filepathBase path ≠ name := fun same => by
              rw [(typed path).mpr same] at named
              cases named
            simp [other]
        | ok found =>
            have same : found = eventType ↔ filepathBase path = name := by
              rw [← typed path, named, Except.ok.injEq]
            simp only [contents, List.filter_append, List.flatMap_append, ← same]
            by_cases both : called = id ∧ found = eventType
            · rw [if_pos both]
              simp [both]
            · rw [if_neg both]
              have apart (first : called = id) (second : found = eventType) : data = [] :=
                absurd ⟨first, second⟩ both
              simpa using apart

/-- The rows of a log hold what the calls appended to it. -/
theorem contents_calls {id name : String} {eventType : LogEventType}
    (typed : ∀ path, logEventType path = .ok eventType ↔ filepathBase path = name)
    (calls : List LogCall)
    (events : List RunnerEventRecord) : contents id eventType (calls.foldl LogCall.run events) =
      contents id eventType events ++ appended id name calls := by
  induction calls generalizing events with
  | nil => simp [appended]
  | cons call rest ih =>
      rw [List.foldl_cons, ih, contents_call typed, List.append_assoc]
      rfl

/-- No row is empty. -/
theorem messages_present (calls : List LogCall) : ∀ event ∈ logged calls, event.message ≠ [] := by
  have each (call : LogCall) (events : List RunnerEventRecord)
      (present : ∀ event ∈ events, event.message ≠ []) :
      ∀ event ∈ call.run events, event.message ≠ [] := by
    cases call with
    | read called path maxBytes => exact present
    | append called path data =>
        simp only [LogCall.run, appendLog]
        split
        · exact present
        · rename_i some_
          split
          · exact present
          · intro event member
            rcases List.mem_append.mp member with old | new
            · exact present event old
            · rw [List.mem_singleton.mp new]
              exact fun none => some_ (List.length_eq_zero_iff.mpr none)
  suffices ∀ events : List RunnerEventRecord, (∀ event ∈ events, event.message ≠ []) →
      ∀ event ∈ calls.foldl LogCall.run events, event.message ≠ [] from
    this [] fun _ member => absurd member List.not_mem_nil
  induction calls with
  | nil => exact fun events present => present
  | cons call rest ih => exact fun events present => ih _ (each call events present)

end Contents

section Reads
variable {id name : String} {eventType : LogEventType}

theorem readLog_contents (typed : logEventType name = .ok eventType)
    (events : List RunnerEventRecord) {maxBytes : Int} (positive : 0 < maxBytes) :
    (readLog events id name maxBytes).1 =
      lastBytes maxBytes (contents (sanitizeID id) eventType events) := by
  simp only [readLog, typed, contents, lastBytes]
  generalize (events.filter fun event =>
    event.requestID == sanitizeID id && event.eventType == eventType) = found
  by_cases empty : found.length = 0
  · rw [List.length_eq_zero_iff] at empty
    simp [empty]
  · rw [if_neg empty]
    by_cases cut : 0 < maxBytes ∧ maxBytes < (found.flatMap RunnerEventRecord.message).length
    · rw [if_pos cut, min_eq_left (by omega)]
    · rw [if_neg cut, min_eq_right (by omega), Nat.sub_self, List.drop_zero]

/-- The error of a read says that there is nothing to read. -/
theorem readLog_error (listed : name ∈ logNames) (calls : List LogCall) (maxBytes : Int) :
    (readLog (logged calls) id name maxBytes).2 =
      if appended (sanitizeID id) name calls = [] then some errNotExist else none := by
  obtain ⟨eventType, known, typed⟩ := logEventType_named listed
  have held : contents (sanitizeID id) eventType (logged calls) = appended (sanitizeID id) name calls :=
    contents_calls typed calls []
  rw [← held, readLog, known]
  by_cases empty : contents (sanitizeID id) eventType (logged calls) = []
  · have none : (logged calls).filter (fun event =>
        event.requestID == sanitizeID id && event.eventType == eventType) = [] := by
      rw [contents, List.flatMap_eq_nil_iff] at empty
      rw [List.eq_nil_iff_forall_not_mem]
      intro event member
      exact messages_present calls event (List.mem_filter.mp member).1 (empty event member)
    simp [empty, none]
  · have some_ : ((logged calls).filter fun event =>
        event.requestID == sanitizeID id && event.eventType == eventType).length ≠ 0 := by
      intro none
      rw [List.length_eq_zero_iff] at none
      exact empty (by rw [contents, none]; rfl)
    rw [if_neg empty]
    dsimp only
    rw [if_neg some_]
    split <;> rfl

/-- What a read returns is what was appended under the id that the store makes of
the caller's. -/
theorem readLog_appended (listed : name ∈ logNames) (calls : List LogCall) {maxBytes : Int}
    (positive : 0 < maxBytes) : (readLog (logged calls) id name maxBytes).1 =
      lastBytes maxBytes (appended (sanitizeID id) name calls) := by
  obtain ⟨eventType, known, typed⟩ := logEventType_named listed
  rw [readLog_contents known _ positive]
  exact congrArg (lastBytes maxBytes) (contents_calls typed calls [])

/-- A log can be read back after any calls exactly when the store leaves the id as
the caller spells it. -/
theorem log_round_trip (id name : String) (listed : name ∈ logNames) :
    (∀ calls maxBytes, 0 < maxBytes → (readLog (logged calls) id name maxBytes).1 =
      lastBytes maxBytes (appended id name calls)) ↔ sanitizeID id = id := by
  constructor
  · intro law
    by_contra respelled
    -- one byte under the id as it is spelled
    have read := law [.append id name [0]] 1 (by decide)
    rw [readLog_appended listed _ (by decide)] at read
    simp [appended, LogCall.adds, lastBytes, filepathBase_listed name listed,
      Ne.symm respelled] at read
  · intro same calls maxBytes positive
    rw [readLog_appended listed calls positive, same]

/-- The first line of a control log. -/
def requestCreated : List UInt8 :=
  "runner request created\n".toList.map fun rune => UInt8.ofNat rune.toNat

theorem log_round_trip_plain :
    (readLog (logged [.append "build-1" "control.log" requestCreated]) "build-1" "control.log"
        8).1 =
      lastBytes 8 (appended "build-1" "control.log"
        [.append "build-1" "control.log" requestCreated]) :=
  (log_round_trip "build-1" "control.log" (by decide)).mpr (by decide +kernel) _ 8 (by decide)

/-- A request under a path is accepted, and its control log is gone. -/
theorem log_of_path_lost :
    (createRequest 5 .empty (manualRequest "team/build" "owner/repo" "e2b" "" ["e2b"] []) {}
      .queued "" "" "").1.isOk = true ∧
      readLog (logged [.append "team/build" "control.log" requestCreated]) "team/build" "control.log"
        262144 = ([], some errNotExist) ∧
      lastBytes 262144 (appended "team/build" "control.log"
        [.append "team/build" "control.log" requestCreated]) = requestCreated ∧
      requestCreated ≠ [] := by
  decide +kernel

end Reads

end Runnerd
