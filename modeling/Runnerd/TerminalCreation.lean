import Runnerd.TerminalHub

/-!
Where the output of a terminal goes. Before its session exists the callback puts
it on a list, and the request that creates the session hands the list over, chunk
by chunk, while it keeps the callback waiting. How far the request has come can be
told from its answers.
-/

namespace Runnerd

open Interaction Interleaving

section Chunks

/-- The chunk that a call appends to a session. -/
def appends (ref : Nat) : HubAnswered → List Bytes
  | ⟨.append found data, _⟩ => if found = ref then [data] else []
  | ⟨.output _ data, some found⟩ => if found = ref then [data] else []
  | _ => []

def prints (term : Nat) : HubAnswered → List Bytes
  | ⟨.output found data, _⟩ => if found = term then [data] else []
  | _ => []

-- The trace is newest first, what comes out is oldest first.
def collected (chunks : HubAnswered → List Bytes) : List HubEvent → List Bytes
  | [] => []
  | event :: older => collected chunks older ++ chunks event.call

/-- All chunks that were appended to a session. -/
def delivered (ref : Nat) (trace : List HubEvent) : List Bytes := collected (appends ref) trace

/-- All chunks that a terminal has put out. -/
def printed (term : Nat) (trace : List HubEvent) : List Bytes := collected (prints term) trace

variable {ref term : Nat} {event : HubEvent} {trace : List HubEvent}

@[simp] theorem delivered_cons :
    delivered ref (event :: trace) = delivered ref trace ++ appends ref event.call := rfl

@[simp] theorem printed_cons :
    printed term (event :: trace) = printed term trace ++ prints term event.call := rfl

end Chunks

section Phases

/-- How far a request that creates a terminal has come. -/
inductive CreationPhase where
  | fresh
  | started (term : Nat)
  | locked (term : Nat)
  | added (term ref : Nat)
  | flushing (term ref : Nat) (sent waiting : List Bytes)
  | done

def CreationPhase.next : CreationPhase → HubAnswered → CreationPhase
  | .fresh, ⟨.startTerminal, .ok term⟩ => .started term
  | .started _, ⟨.lockSession term, _⟩ => .locked term
  | .locked term, ⟨.add _ _, (ref, _)⟩ => .added term ref
  | .added _ _, ⟨.adopt term ref, pending⟩ => .flushing term ref [] pending
  | .flushing term ref sent (data :: waiting), ⟨.append _ _, _⟩ =>
      .flushing term ref (sent ++ [data]) waiting
  | .flushing _ _ _ _, ⟨.unlockSession _, _⟩ => .done
  | phase, _ => phase

def creationPhase : List HubAnswered → CreationPhase
  | [] => .fresh
  | call :: past => (creationPhase past).next call

def CreationPhase.permits : CreationPhase → HubOp → Prop
  | .fresh, .startTerminal => True
  | .started term, .lockSession found => found = term
  | .locked _, .add _ _ => True
  | .added _ _, .closeSessionWhenIdle _ => True
  | .added term ref, .adopt found target => found = term ∧ target = ref
  | .flushing _ ref _ (data :: _), .append target chunk => target = ref ∧ chunk = data
  | .flushing term _ _ [], .unlockSession found => found = term
  | _, _ => False

def HubTask.creates : HubTask → Bool
  | .create _ _ => true
  | _ => false

def HubTask.isAppend : HubTask → Bool
  | .append _ _ => true
  | _ => false

/-- The calls of the other tasks. -/
def HubOp.outside : HubOp → Prop
  | .startTerminal | .lockSession _ | .adopt _ _ | .unlockSession _ | .append _ _ => False
  | _ => True

def creationContract (task : HubTask) (past : List HubAnswered) (op : HubOp) : Prop :=
  if task.creates then (creationPhase past).permits op
  else if task.isAppend then True
  else op.outside

variable {task : HubTask} {past : List HubAnswered}

theorem flush_keeps (creates : task.creates = true) (term ref : Nat) (waiting sent : List Bytes)
    (phase : creationPhase past = .flushing term ref sent waiting) :
    Keeps (creationContract task) (Prog.each (fun data => askHub (.append ref data)) waiting)
      (fun _ later => ∃ all, creationPhase later = .flushing term ref all []) past := by
  induction waiting generalizing past sent with
  | nil => exact .done ⟨sent, phase⟩
  | cons data waiting ih =>
      refine Keeps.call ?_ fun _ => ih (sent ++ [data]) ?_
      · simp [creationContract, creates, phase, CreationPhase.permits]
      · simp [creationPhase, phase, CreationPhase.next]

theorem createTerminal_keeps (requestID sandboxID : String) :
    Keeps (creationContract (.create requestID sandboxID))
      (handleUserCreateRunnerTerminal requestID sandboxID) (fun _ _ => True) [] := by
  refine keeps_call (by simp [creationContract, HubTask.creates, creationPhase,
    CreationPhase.permits]) fun started => ?_
  cases started with
  | error err => exact keeps_return trivial
  | ok term =>
      refine keeps_call (by simp [creationContract, HubTask.creates, creationPhase,
        CreationPhase.next, CreationPhase.permits]) fun _ => ?_
      refine keeps_call (by simp [creationContract, HubTask.creates, creationPhase,
        CreationPhase.next, CreationPhase.permits]) fun made => ?_
      refine keeps_call (by simp [creationContract, HubTask.creates, creationPhase,
        CreationPhase.next, CreationPhase.permits]) fun _ => ?_
      refine keeps_call (by simp [creationContract, HubTask.creates, creationPhase,
        CreationPhase.next, CreationPhase.permits]) fun pending => ?_
      apply keeps_seq
      refine keeps_mono ?_ (flush_keeps rfl term made.1 pending [] rfl)
      rintro _ later ⟨all, phase⟩
      exact keeps_last (by simp [creationContract, HubTask.creates, phase, CreationPhase.permits])
        fun _ => trivial

theorem outside_keeps {program : HubAction Unit} (other : task.creates = false)
    (method : task.isAppend = false) (calls : Calls HubOp.outside program) :
    Keeps (creationContract task) program (fun _ _ => True) past := by
  refine keeps_calls calls (fun _ op outside => ?_) fun _ _ _ _ => trivial
  simpa [creationContract, other, method] using outside

theorem streamEvents_outside (ch reads : Nat) : Calls HubOp.outside (streamEvents ch reads) := by
  induction reads with
  | zero => exact calls_return
  | succ reads ih =>
      refine calls_call trivial fun data => ?_
      cases data with
      | none => exact calls_return
      | some _ => exact ih

theorem creation_keeps (task : HubTask) :
    Keeps (creationContract task) task.body (fun _ _ => True) [] := by
  cases task with
  | create requestID sandboxID => exact createTerminal_keeps requestID sandboxID
  | append ref data => exact keeps_last trivial fun _ => trivial
  | events id reads =>
      refine outside_keeps rfl rfl (calls_call trivial fun found => ?_)
      cases found with
      | none => exact calls_return
      | some ref =>
          refine calls_call trivial fun subscribed => ?_
          refine calls_seq (streamEvents_outside _ reads) fun _ => calls_call trivial fun _ => ?_
          exact calls_last trivial
  | output term data => exact outside_keeps rfl rfl (calls_call trivial fun _ => calls_return)
  | add requestID sandboxID => exact outside_keeps rfl rfl (calls_call trivial fun _ => calls_return)
  | get id => exact outside_keeps rfl rfl (calls_call trivial fun _ => calls_return)
  | subscribe ref => exact outside_keeps rfl rfl (calls_call trivial fun _ => calls_return)
  | cancel ref ch => exact outside_keeps rfl rfl (calls_last trivial)
  | receive ch => exact outside_keeps rfl rfl (calls_call trivial fun _ => calls_return)
  | closeSession id =>
      refine outside_keeps rfl rfl (calls_seq ?_ fun _ => calls_return)
      refine calls_call trivial fun found => ?_
      cases found with
      | none => exact calls_return
      | some ref => exact calls_call trivial fun _ => calls_last trivial
  | closeSessionIfIdle id =>
      refine outside_keeps rfl rfl (calls_call trivial fun found => ?_)
      cases found with
      | none => exact calls_return
      | some ref => exact calls_call trivial fun _ => calls_return
  | close =>
      refine outside_keeps rfl rfl (calls_call trivial fun refs => calls_each refs fun ref _ => ?_)
      exact calls_call trivial fun _ => calls_last trivial
  | closer ref => exact outside_keeps rfl rfl (calls_call trivial fun _ => calls_return)

/-- The methods are called by the handlers: `append` is reached through a terminal. -/
def handlersOnly (_ : HubWorld) : HubMove → Prop
  | .start task => task.isAppend = false
  | _ => True

variable {condition : HubWorld → HubMove → Prop} {world : HubWorld}

theorem creation_obeys (reaches : hubMachine.Reaches condition noTerminals world) :
    Machine.Obeys creationContract world := by
  refine Machine.obeys_reachable creation_keeps ?_ reaches
  constructor
  · intro tid thread live
    cases live
  · intro tid thread live
    cases live

end Phases

end Runnerd
