import Runnerd.TerminalHandover

/-!
The buffer of a session is the end of what the session was given, and a subscriber
that keeps up gets the buffer and then every chunk after it, once each.
-/

namespace Runnerd

open Interaction Interleaving

section Buffers

/-- The end of an output, as long as the source keeps it. -/
structure Retained (buffer output : Bytes) : Prop where
  suffix : buffer <:+ output
  enough : min output.length maxBuffer ≤ buffer.length
  bounded : buffer.length ≤ maxBuffer * 2

theorem retained_append {buffer output : Bytes} (retained : Retained buffer output) (data : Bytes) :
    Retained (appendBuffer buffer data) (output ++ data) := by
  have joined : buffer ++ data <:+ output ++ data := by
    obtain ⟨older, same⟩ := retained.suffix
    exact ⟨older, by rw [← same, List.append_assoc]⟩
  have enough := retained.enough
  unfold appendBuffer
  by_cases long : maxBuffer * 2 < (buffer ++ data).length
  · simp only [if_pos long]
    have size : ((buffer ++ data).drop ((buffer ++ data).length - maxBuffer)).length = maxBuffer := by
      rw [List.length_drop]
      omega
    refine ⟨(List.drop_suffix _ _).trans joined, ?_, ?_⟩
    · rw [size]
      exact min_le_right _ _
    · rw [size]
      exact Nat.le_mul_of_pos_right _ (by decide)
  · simp only [if_neg long]
    refine ⟨joined, ?_, Nat.le_of_not_lt long⟩
    simp only [List.length_append]
    omega

def hears (ch : Nat) : HubAnswered → List Bytes
  | ⟨.receive found, some data⟩ => if found = ch then [data] else []
  | _ => []

/-- All chunks that the holder of a channel has received. -/
def received (ch : Nat) (trace : List HubEvent) : List Bytes := collected (hears ch) trace

@[simp] theorem received_cons {ch : Nat} {event : HubEvent} {trace : List HubEvent} :
    received ch (event :: trace) = received ch trace ++ hears ch event.call := rfl

def HubOp.isSubscribe : HubOp → Bool
  | .subscribe _ => true
  | _ => false

/-- The sessions of before with the buffers of before, and new sessions, which are
empty. -/
def Continued (state after : TerminalState) : Prop :=
  ∀ (ref : Nat) (session : TerminalSession), after.sessions[ref]? = some session →
    (∃ old, state.sessions[ref]? = some old ∧ session.buffer = old.buffer ∧
      ∀ ch ∈ session.watchers, ch ∈ old.watchers) ∨
    (state.sessions[ref]? = none ∧ session.buffer = [] ∧ session.watchers = [])

theorem continued_same {state after : TerminalState} (same : after.sessions = state.sessions) :
    Continued state after := by
  intro ref session found
  rw [same] at found
  exact .inl ⟨session, found, rfl, fun _ => id⟩

theorem continued_edit {state : TerminalState} {ref : Nat} {f : TerminalSession → TerminalSession}
    {channels : Channels Bytes} (buffer : ∀ session, (f session).buffer = session.buffer)
    (watchers : ∀ session, ∀ ch ∈ (f session).watchers, ch ∈ session.watchers) :
    Continued state (state.edit ref f channels) := by
  intro other session found
  rw [edit_at] at found
  by_cases same : ref = other
  · rw [if_pos same] at found
    obtain ⟨old, there, rfl⟩ := Option.map_eq_some_iff.mp found
    exact .inl ⟨old, there, buffer old, watchers old⟩
  · rw [if_neg same] at found
    exact .inl ⟨session, found, rfl, fun _ => id⟩

/-- Everything that a call can mean for the buffers, the watchers and what is in
the channels. -/
inductive HubEffect (state : TerminalState) (call : HubAnswered) (after : TerminalState) : Prop where
  | aside (continued : Continued state after)
      (queues : state.channels.SameQueues after.channels)
      (silent : ∀ ref, appends ref call = []) (unheard : ∀ ch, hears ch call = [])
      (other : call.op.isSubscribe = false)
  | appended (ref : Nat) (data : Bytes) (same : after = state.append ref data)
      (gives : ∀ other, appends other call = if ref = other then [data] else [])
      (unheard : ∀ ch, hears ch call = []) (other : call.op.isSubscribe = false)
  | subscribed (ref : Nat) (session : TerminalSession) (found : state.sessions[ref]? = some session)
      (same : call = ⟨.subscribe ref, (session.buffer, state.channels.all.length)⟩)
      (sessions : ∀ (target : Nat) (next : TerminalSession), after.sessions[target]? = some next →
        ∃ old, state.sessions[target]? = some old ∧ next.buffer = old.buffer ∧
          ∀ ch ∈ next.watchers, ch ∈ old.watchers ∨
            (target = ref ∧ ch = state.channels.all.length))
      (queues : (state.channels.make 32).SameQueues after.channels)
  | heard (ch : Nat) (data : Bytes) (rest : List Bytes) (channel : Channel Bytes)
      (same : call = ⟨.receive ch, some data⟩) (found : state.channels.all[ch]? = some channel)
      (queue : channel.queue = data :: rest) (sessions : after.sessions = state.sessions)
      (channels : after.channels = { state.channels with
        all := state.channels.all.set ch { channel with queue := rest } })

variable {state after : TerminalState} {choice : HubChoice} {op : HubOp} {resp : op.Resp}

theorem subscribe_effect {ref : Nat} {answer : Bytes × Nat}
    (subscribed : state.subscribe ref = some (answer, after)) :
    HubEffect state ⟨.subscribe ref, answer⟩ after := by
  cases found : state.sessions[ref]? with
  | none => simp [TerminalState.subscribe, found] at subscribed
  | some session =>
      simp only [TerminalState.subscribe, found] at subscribed
      by_cases closed : session.closed = true
      · rw [if_pos closed] at subscribed
        cases subscribed
        refine .subscribed ref session found rfl (fun target next there => ?_)
          (Channels.close_sameQueues _ _)
        exact ⟨next, there, rfl, fun _ => .inl⟩
      · rw [if_neg closed] at subscribed
        cases subscribed
        refine .subscribed ref session found rfl (fun target next there => ?_)
          (Channels.sameQueues_refl _)
        rw [edit_at] at there
        by_cases same : ref = target
        · rw [if_pos same] at there
          obtain ⟨old, present, rfl⟩ := Option.map_eq_some_iff.mp there
          refine ⟨old, present, rfl, fun ch member => ?_⟩
          rcases List.mem_append.mp member with before | new
          · exact .inl before
          · exact .inr ⟨same.symm, List.mem_singleton.mp new⟩
        · rw [if_neg same] at there
          exact ⟨next, there, rfl, fun _ => .inl⟩

theorem respondHub_effect (answered : respondHub choice state op = some (resp, after)) :
    HubEffect state ⟨op, resp⟩ after := by
  have still (next : TerminalState) (sessions : next.sessions = state.sessions)
      (channels : next.channels = state.channels) : Continued state next ∧
      state.channels.SameQueues next.channels :=
    ⟨continued_same sessions, channels ▸ Channels.sameQueues_refl _⟩
  cases op with
  | add requestID sandboxID =>
      cases answered
      refine .aside (fun ref session found => ?_) (Channels.sameQueues_refl _) (fun _ => rfl)
        (fun _ => rfl) rfl
      simp only [TerminalState.add, List.getElem?_append] at found
      split at found
      · exact .inl ⟨session, found, rfl, fun _ => id⟩
      · rename_i outside
        have fresh := List.mem_of_getElem? found
        cases List.mem_singleton.mp fresh
        exact .inr ⟨List.getElem?_eq_none (Nat.le_of_not_lt outside), rfl, rfl⟩
  | remove id =>
      cases answered
      exact .aside (still _ rfl rfl).1 (still _ rfl rfl).2 (fun _ => rfl) (fun _ => rfl) rfl
  | drain =>
      simp only [respondHub] at answered
      split at answered
      · cases answered
        exact .aside (still _ rfl rfl).1 (still _ rfl rfl).2 (fun _ => rfl) (fun _ => rfl) rfl
      · cases answered
  | closeIfIdle id =>
      have same := Option.some.inj answered
      obtain ⟨_, left⟩ | ⟨ref, session, _, _, _, _, _, left⟩ := closeIfIdle_cases state id
      · rw [same] at left
        cases left
        exact .aside (still _ rfl rfl).1 (still _ rfl rfl).2 (fun _ => rfl) (fun _ => rfl) rfl
      · rw [same] at left
        cases left
        have edited : Continued state (state.edit ref
            (fun session => { session with closed := true }) state.channels) :=
          continued_edit (fun _ => rfl) fun _ _ member => member
        exact .aside edited (Channels.sameQueues_refl _) (fun _ => rfl) (fun _ => rfl) rfl
  | closeWatchers ref =>
      cases answered
      unfold TerminalState.closeWatchers
      split
      · exact .aside (still _ rfl rfl).1 (still _ rfl rfl).2 (fun _ => rfl) (fun _ => rfl) rfl
      · split
        · exact .aside (still _ rfl rfl).1 (still _ rfl rfl).2 (fun _ => rfl) (fun _ => rfl) rfl
        · refine .aside (continued_edit (fun _ => rfl) fun _ ch member => ?_)
            (Channels.closeAll_sameQueues _ _) (fun _ => rfl) (fun _ => rfl) rfl
          cases member
  | subscribe ref => exact subscribe_effect answered
  | cancel ref ch =>
      cases answered
      unfold TerminalState.cancel
      split
      · exact .aside (still _ rfl rfl).1 (still _ rfl rfl).2 (fun _ => rfl) (fun _ => rfl) rfl
      · split
        · exact .aside (continued_edit (fun _ => rfl) fun _ _ => List.mem_of_mem_erase)
            (Channels.close_sameQueues _ _) (fun _ => rfl) (fun _ => rfl) rfl
        · exact .aside (still _ rfl rfl).1 (still _ rfl rfl).2 (fun _ => rfl) (fun _ => rfl) rfl
  | append ref data =>
      cases answered
      exact .appended ref data rfl (fun _ => rfl) (fun _ => rfl) rfl
  | receive ch =>
      obtain ⟨⟨data, channels⟩, got, same⟩ := Option.map_eq_some_iff.mp answered
      cases same
      obtain ⟨channel, value, rest, found, queue, rfl, rfl⟩ | ⟨channel, found, _, _, rfl, rfl⟩ :=
        Channels.receive_some got
      · exact .heard ch value rest channel rfl found queue rfl rfl
      · exact .aside (still _ rfl rfl).1 (still _ rfl rfl).2 (fun _ => rfl) (fun _ => rfl) rfl
  | output term data =>
      simp only [respondHub] at answered
      split at answered
      · cases answered
      · split at answered
        · cases answered
        · split at answered
          · cases answered
            exact .appended _ data rfl (fun _ => rfl) (fun _ => rfl) rfl
          · cases answered
            exact .aside (still _ rfl rfl).1 (still _ rfl rfl).2 (fun _ => rfl) (fun _ => rfl) rfl
  | _ =>
      obtain ⟨_, sessions, channels⟩ := respondHub_idle answered rfl
      exact .aside (still _ sessions channels).1 (still _ sessions channels).2 (fun _ => rfl)
        (fun _ => rfl) rfl

end Buffers

section Sessions
variable {world : HubWorld} {tid : Nat} {choice : HubChoice}
variable {thread : Thread HubOp HubOp.Resp HubTask} {op : HubOp} {resp : op.Resp}
variable {rest : HubAction Unit} {state : TerminalState}

theorem undelivered (handing : Handing world) {ref : Nat}
    (missing : world.state.sessions[ref]? = none) : delivered ref world.trace = [] := by
  refine handing.ledger.untold ref fun term creation there session => ?_
  have settles := handing.ledger.settles term creation there
  simp only [Settles, session] at settles
  exact absurd settles.1 (Nat.not_lt.mpr (List.getElem?_eq_none_iff.mp missing))

/-- A chunk is appended to a session that exists. -/
theorem appended_there (handing : Handing (hubMachine.acted world tid thread op resp rest state))
    {ref : Nat} {data : Bytes} (same : state = world.state.append ref data)
    (gives : appends ref ⟨op, resp⟩ = [data]) :
    ∃ session, world.state.sessions[ref]? = some session := by
  by_contra nobody
  have missing : world.state.sessions[ref]? = none := by
    cases found : world.state.sessions[ref]? with
    | none => rfl
    | some session => exact absurd ⟨session, found⟩ nobody
  have still : state.sessions[ref]? = none := by
    rw [List.getElem?_eq_none_iff] at missing ⊢
    rw [same, (append_still world.state ref data).2]
    exact missing
  have told := undelivered handing still
  change delivered ref (_ :: world.trace) = [] at told
  simp [gives] at told

theorem append_at {ref : Nat} {session : TerminalSession} {data : Bytes}
    (found : state.sessions[ref]? = some session) (some_ : data ≠ []) :
    state.append ref data = state.edit ref
      (fun session => { session with buffer := appendBuffer session.buffer data })
      (state.channels.sendAll data session.watchers) := by
  simp [TerminalState.append, found, some_]

theorem append_nothing (state : TerminalState) (ref : Nat) : state.append ref [] = state := by
  unfold TerminalState.append
  split
  · rfl
  · simp

def Buffered (state : TerminalState) (trace : List HubEvent) : Prop :=
  ∀ (ref : Nat) (session : TerminalSession), state.sessions[ref]? = some session →
    Retained session.buffer (delivered ref trace).flatten

theorem buffered_step (before : Handing world)
    (after : Handing (hubMachine.acted world tid thread op resp rest state))
    (buffered : Buffered world.state world.trace)
    (acts : hubMachine.Acts world tid choice thread op resp rest state) :
    Buffered state (⟨tid, thread.task, ⟨op, resp⟩⟩ :: world.trace) := by
  have kept {ref : Nat} {old session : TerminalSession} (there : world.state.sessions[ref]? = some old)
      (buffer : session.buffer = old.buffer) (silent : appends ref ⟨op, resp⟩ = []) :
      Retained session.buffer
        (delivered ref (⟨tid, thread.task, ⟨op, resp⟩⟩ :: world.trace)).flatten := by
    rw [delivered_cons, silent, List.append_nil, buffer]
    exact buffered ref old there
  intro ref session found
  cases respondHub_effect acts.answer with
  | aside continued queues silent unheard other =>
      rcases continued ref session found with ⟨old, there, buffer, _⟩ | ⟨missing, empty, _⟩
      · exact kept there buffer (silent ref)
      · rw [delivered_cons, undelivered before missing, silent ref, empty]
        exact ⟨List.suffix_rfl, min_le_left _ _, Nat.zero_le _⟩
  | appended target data same gives unheard other =>
      obtain ⟨old, there⟩ := appended_there after same ((gives target).trans (if_pos rfl))
      by_cases nothing : data = []
      · subst nothing
        rw [append_nothing] at same
        subst same
        have retained := buffered ref session found
        rw [delivered_cons, gives ref, List.flatten_append]
        split <;> simpa using retained
      · rw [append_at there nothing] at same
        subst same
        rw [edit_at] at found
        by_cases own : target = ref
        · subst own
          rw [if_pos rfl, there] at found
          cases found
          rw [delivered_cons, gives target, if_pos rfl, List.flatten_append, List.flatten_singleton]
          exact retained_append (buffered target old there) data
        · rw [if_neg own] at found
          exact kept found rfl ((gives ref).trans (if_neg own))
  | subscribed target old there same sessions queues =>
      obtain ⟨before, present, buffer, _⟩ := sessions ref session found
      exact kept present buffer (by rw [same]; rfl)
  | heard ch data rest channel same there queue sessions channels =>
      rw [sessions] at found
      exact kept found rfl (by rw [same]; rfl)

theorem buffered_reachable (reaches : hubMachine.Reaches handlersOnly noTerminals world) :
    Buffered world.state world.trace := by
  induction reaches with
  | refl =>
      intro ref session found
      cases found
  | step move before meets stepped ih =>
      have after := handing_reachable (.step move before meets stepped)
      obtain ⟨tid, choice, thread, op, resp, rest, state, rfl, acts, rfl⟩ | ⟨task, rfl, _, rfl⟩ |
        ⟨rfl, rfl⟩ := hubMachine.step_cases stepped
      · exact buffered_step (handing_reachable before) after ih acts
      · exact ih
      · exact ih

end Sessions

section Subscribers

def Subscribed (ref ch : Nat) (initial : Bytes) (trace : List HubEvent) : Prop :=
  ∃ event ∈ trace, event.call = ⟨.subscribe ref, (initial, ch)⟩

/-- An empty chunk is sent to nobody. -/
def carried (chunks : List Bytes) : List Bytes := chunks.filter fun data => data ≠ []

@[simp] theorem carried_append (one two : List Bytes) :
    carried (one ++ two) = carried one ++ carried two := List.filter_append ..

theorem carried_flatten (chunks : List Bytes) : (carried chunks).flatten = chunks.flatten := by
  induction chunks with
  | nil => rfl
  | cons data rest ih =>
      unfold carried at ih ⊢
      by_cases nothing : data = []
      · simpa [nothing] using ih
      · simpa [nothing] using ih

/-- A chunk that is appended while the channel has a watcher finds room in it. -/
def RoomFor (ch : Nat) (state : TerminalState) (call : HubAnswered) : Prop :=
  ∀ (ref : Nat) (session : TerminalSession) (channel : Channel Bytes),
    state.sessions[ref]? = some session → ch ∈ session.watchers → appends ref call ≠ [] →
    state.channels.all[ch]? = some channel → channel.queue.length < 32

/-- The output from the snapshot on: what was received, what waits in the channel,
and what came after the subscriber had left. -/
def Following (ref ch : Nat) (initial : Bytes) (state : TerminalState) (trace : List HubEvent) :
    Prop :=
  ∃ (before after : List Bytes) (channel : Channel Bytes),
    delivered ref trace = before ++ after ∧ Retained initial before.flatten ∧
    state.channels.all[ch]? = some channel ∧ channel.capacity = 32 ∧
    received ch trace ++ channel.queue <+: carried after ∧
    ∀ session : TerminalSession, state.sessions[ref]? = some session → ch ∈ session.watchers →
      received ch trace ++ channel.queue = carried after

structure Listening (ch : Nat) (state : TerminalState) (trace : List HubEvent) : Prop where
  silent : state.channels.all[ch]? = none → received ch trace = []
  following : ∀ ref initial, Subscribed ref ch initial trace → Following ref ch initial state trace
  only : ∀ (ref : Nat) (initial : Bytes) (other : Nat) (session : TerminalSession),
    Subscribed ref ch initial trace → state.sessions[other]? = some session →
    ch ∈ session.watchers → other = ref

variable {world : HubWorld} {tid ch : Nat} {choice : HubChoice}
variable {thread : Thread HubOp HubOp.Resp HubTask} {op : HubOp} {resp : op.Resp}
variable {rest : HubAction Unit} {state : TerminalState} {trace : List HubEvent} {event : HubEvent}

theorem subscribed_earlier {ref : Nat} {initial : Bytes} (other : event.call.op.isSubscribe = false)
    (subscribed : Subscribed ref ch initial (event :: trace)) : Subscribed ref ch initial trace := by
  obtain ⟨found, member, called⟩ := subscribed
  rcases List.mem_cons.mp member with rfl | older
  · rw [called] at other
    cases other
  · exact ⟨found, older, called⟩

theorem queue_kept {heap after : Channels Bytes} (queues : heap.SameQueues after)
    (missing : after.all[ch]? = none) : heap.all[ch]? = none := by
  rw [List.getElem?_eq_none_iff] at missing ⊢
  rw [← queues.size]
  exact missing

variable (event) in
theorem listening_aside {after : TerminalState} (listening : Listening ch state trace)
    (continued : Continued state after) (queues : state.channels.SameQueues after.channels)
    (silent : ∀ ref, appends ref event.call = []) (unheard : hears ch event.call = [])
    (other : event.call.op.isSubscribe = false) : Listening ch after (event :: trace) := by
  have watched {ref : Nat} {session : TerminalSession} (found : after.sessions[ref]? = some session)
      (member : ch ∈ session.watchers) :
      ∃ old, state.sessions[ref]? = some old ∧ ch ∈ old.watchers := by
    rcases continued ref session found with ⟨old, there, _, watchers⟩ | ⟨_, _, empty⟩
    · exact ⟨old, there, watchers ch member⟩
    · rw [empty] at member
      cases member
  constructor
  · intro missing
    rw [received_cons, listening.silent (queue_kept queues missing), unheard]
    rfl
  · intro ref initial subscribed
    obtain ⟨before, later, channel, chunks, retained, present, capacity, heard, all⟩ :=
      listening.following ref initial (subscribed_earlier other subscribed)
    obtain ⟨next, now, queue, size⟩ := queues.queue ch channel present
    refine ⟨before, later, next, ?_, retained, now, size.trans capacity, ?_, ?_⟩
    · rw [delivered_cons, silent ref, List.append_nil, chunks]
    · rw [received_cons, unheard, List.append_nil, queue]
      exact heard
    · intro session found member
      obtain ⟨old, there, watching⟩ := watched found member
      rw [received_cons, unheard, List.append_nil, queue]
      exact all old there watching
  · intro ref initial target session subscribed found member
    obtain ⟨old, there, watching⟩ := watched found member
    exact listening.only ref initial target old (subscribed_earlier other subscribed) there watching

variable (event) in
theorem listening_heard {after : TerminalState} {source : Nat} {data : Bytes} {left : List Bytes}
    {channel : Channel Bytes} (listening : Listening ch state trace)
    (same : event.call = ⟨.receive source, some data⟩)
    (found : state.channels.all[source]? = some channel) (queue : channel.queue = data :: left)
    (sessions : after.sessions = state.sessions)
    (channels : after.channels = { state.channels with
      all := state.channels.all.set source { channel with queue := left } }) :
    Listening ch after (event :: trace) := by
  obtain ⟨bound, _⟩ := List.getElem?_eq_some_iff.mp found
  have other : event.call.op.isSubscribe = false := by
    rw [same]
    rfl
  have silent (ref : Nat) : appends ref event.call = [] := by
    rw [same]
    rfl
  constructor
  · intro missing
    have before : state.channels.all[ch]? = none := by
      rw [List.getElem?_eq_none_iff] at missing ⊢
      simpa [channels] using missing
    have unlike : source ≠ ch := by
      rintro rfl
      rw [found] at before
      cases before
    rw [received_cons, listening.silent before, same]
    simp [hears, unlike]
  · intro ref initial subscribed
    obtain ⟨before, later, old, chunks, retained, present, capacity, heard, all⟩ :=
      listening.following ref initial (subscribed_earlier other subscribed)
    have told : delivered ref (event :: trace) = before ++ later := by
      rw [delivered_cons, silent ref, List.append_nil, chunks]
    by_cases own : source = ch
    · subst own
      obtain rfl : channel = old := Option.some.inj (found.symm.trans present)
      have moved :
          received source (event :: trace) ++ left = received source trace ++ channel.queue := by
        rw [received_cons, same, queue]
        simp [hears]
      refine ⟨before, later, { channel with queue := left }, told, retained, ?_, capacity, ?_, ?_⟩
      · simp [channels, bound]
      · exact moved ▸ heard
      · rw [sessions]
        exact fun session there member => moved ▸ all session there member
    · have unheard : hears ch event.call = [] := by
        rw [same]
        simp [hears, own]
      refine ⟨before, later, old, told, retained, ?_, capacity, ?_, ?_⟩
      · rw [channels]
        exact (List.getElem?_set_ne own).trans present
      · rw [received_cons, unheard, List.append_nil]
        exact heard
      · rw [sessions, received_cons, unheard, List.append_nil]
        exact all
  · rw [sessions]
    exact fun ref initial target session subscribed =>
      listening.only ref initial target session (subscribed_earlier other subscribed)

variable (event) in
theorem listening_appended {target : Nat} {session : TerminalSession} {data : Bytes}
    (listening : Listening ch state trace) (watched : Watched state)
    (there : state.sessions[target]? = some session)
    (gives : ∀ other, appends other event.call = if target = other then [data] else [])
    (unheard : hears ch event.call = []) (other : event.call.op.isSubscribe = false)
    (room : RoomFor ch state event.call) :
    Listening ch (state.append target data) (event :: trace) := by
  have same : received ch (event :: trace) = received ch trace := by
    rw [received_cons, unheard, List.append_nil]
  by_cases nothing : data = []
  · -- an empty chunk changes nothing but the count of the chunks
    subst nothing
    rw [append_nothing]
    constructor
    · intro missing
      rw [same]
      exact listening.silent missing
    · intro ref initial subscribed
      obtain ⟨before, later, channel, chunks, retained, present, capacity, heard, all⟩ :=
        listening.following ref initial (subscribed_earlier other subscribed)
      have empty : carried (later ++ appends ref event.call) = carried later := by
        rw [gives ref]
        split <;> simp [carried]
      refine ⟨before, later ++ appends ref event.call, channel, ?_, retained, present, capacity,
        ?_, ?_⟩
      · rw [delivered_cons, chunks, List.append_assoc]
      · rw [same, empty]
        exact heard
      · rw [same, empty]
        exact all
    · exact fun ref initial other_ found subscribed =>
        listening.only ref initial other_ found (subscribed_earlier other subscribed)
  · have distinct := watched.distinct target session there
    have isOpen := watched.isOpen target session there
    obtain ⟨_, size, sent⟩ := Channels.sendAll_open data distinct isOpen
    rw [append_at there nothing]
    have unchanged {other_ : Nat} {found : TerminalSession}
        (now : (state.edit target
          (fun session => { session with buffer := appendBuffer session.buffer data })
          (state.channels.sendAll data session.watchers)).sessions[other_]? = some found) :
        ∃ old, state.sessions[other_]? = some old ∧ found.watchers = old.watchers := by
      rw [edit_at] at now
      by_cases own : target = other_
      · rw [if_pos own] at now
        obtain ⟨old, present, rfl⟩ := Option.map_eq_some_iff.mp now
        exact ⟨old, present, rfl⟩
      · rw [if_neg own] at now
        exact ⟨found, now, rfl⟩
    constructor
    · intro missing
      rw [same]
      refine listening.silent ?_
      rw [List.getElem?_eq_none_iff] at missing ⊢
      rw [← size]
      exact missing
    · intro ref initial subscribed
      have earlier := subscribed_earlier other subscribed
      obtain ⟨before, later, channel, chunks, retained, present, capacity, heard, all⟩ :=
        listening.following ref initial earlier
      have told : delivered ref (event :: trace) = before ++ (later ++ appends ref event.call) := by
        rw [delivered_cons, chunks, List.append_assoc]
      by_cases watching : ch ∈ session.watchers
      · -- the chunk goes into the channel
        obtain rfl := listening.only ref initial target session earlier there watching
        have given : appends target event.call = [data] := (gives target).trans (if_pos rfl)
        have free : channel.queue.length < channel.capacity := by
          rw [capacity]
          refine room target session channel there watching ?_ present
          rw [given]
          exact List.cons_ne_nil _ _
        have exact_ := all session there watching
        have now : received ch (event :: trace) ++ (Channels.offer data channel).queue =
            carried (later ++ appends target event.call) := by
          rw [same, Channels.offer_room free, ← List.append_assoc, exact_, given]
          simp [carried, nothing]
        refine ⟨before, _, Channels.offer data channel, told, retained, ?_, ?_, ?_, ?_⟩
        · exact (sent ch).trans (by rw [if_pos watching, present]; rfl)
        · rw [Channels.offer_capacity]
          exact capacity
        · exact now ▸ List.prefix_rfl
        · exact fun _ _ _ => now
      · -- the channel listens elsewhere, or does not listen any more
        refine ⟨before, _, channel, told, retained, ?_, capacity, ?_, ?_⟩
        · exact (sent ch).trans (by rw [if_neg watching, present])
        · rw [same, carried_append]
          exact heard.trans (List.prefix_append _ _)
        · intro found present member
          obtain ⟨old, before_, watchers⟩ := unchanged present
          rw [watchers] at member
          have foreign : target ≠ ref := by
            rintro rfl
            obtain rfl : session = old := Option.some.inj (there.symm.trans before_)
            exact watching member
          rw [same, gives ref, if_neg foreign, List.append_nil]
          exact all old before_ member
    · intro ref initial other_ found subscribed now member
      obtain ⟨old, present, watchers⟩ := unchanged now
      rw [watchers] at member
      exact listening.only ref initial other_ old (subscribed_earlier other subscribed) present member

variable (event) in
theorem listening_subscribed {after : TerminalState} {ref : Nat} {session : TerminalSession}
    (listening : Listening ch state trace) (watched : Watched state) (buffered : Buffered state trace)
    (there : state.sessions[ref]? = some session)
    (same : event.call = ⟨.subscribe ref, (session.buffer, state.channels.all.length)⟩)
    (sessions : ∀ (target : Nat) (next : TerminalSession), after.sessions[target]? = some next →
      ∃ old, state.sessions[target]? = some old ∧ next.buffer = old.buffer ∧
        ∀ ch ∈ next.watchers, ch ∈ old.watchers ∨ (target = ref ∧ ch = state.channels.all.length))
    (queues : (state.channels.make 32).SameQueues after.channels) :
    Listening ch after (event :: trace) := by
  have still : received ch (event :: trace) = received ch trace := by
    rw [received_cons, same]
    exact List.append_nil _
  have told (target : Nat) : delivered target (event :: trace) = delivered target trace := by
    rw [delivered_cons, same]
    exact List.append_nil _
  by_cases fresh : ch = state.channels.all.length
  · -- nobody has had this channel before
    subst fresh
    have missing : state.channels.all[state.channels.all.length]? = none :=
      List.getElem?_eq_none le_rfl
    have never {target : Nat} {initial : Bytes} :
        ¬ Subscribed target state.channels.all.length initial trace := by
      intro subscribed
      obtain ⟨_, _, channel, _, _, present, _⟩ := listening.following target initial subscribed
      rw [missing] at present
      cases present
    have now {target : Nat} {initial : Bytes}
        (subscribed : Subscribed target state.channels.all.length initial (event :: trace)) :
        target = ref ∧ initial = session.buffer := by
      obtain ⟨found, member, called⟩ := subscribed
      rcases List.mem_cons.mp member with rfl | older
      · rw [same] at called
        cases called
        exact ⟨rfl, rfl⟩
      · exact absurd ⟨found, older, called⟩ never
    obtain ⟨next, made, queue, capacity⟩ := queues.queue _ _ (Channels.make_new 32)
    constructor
    · intro none
      rw [none] at made
      cases made
    · intro target initial subscribed
      obtain ⟨rfl, rfl⟩ := now subscribed
      have empty : received state.channels.all.length (event :: trace) ++ next.queue = [] := by
        rw [still, listening.silent missing, queue]
        rfl
      refine ⟨delivered target trace, [], next, ?_, buffered target session there, made, capacity,
        ?_, ?_⟩
      · rw [told, List.append_nil]
      · rw [empty]
        exact List.nil_prefix
      · exact fun _ _ _ => empty
    · intro target initial other found subscribed present member
      obtain ⟨old, before, _, watchers⟩ := sessions other found present
      rcases watchers _ member with older | ⟨own, _⟩
      · exact absurd (watched.isOpen other old before _ older).bound (lt_irrefl _)
      · rw [own, (now subscribed).1]
  · -- of any other channel, nothing that it has or gets is changed
    have watching {target : Nat} {found : TerminalSession}
        (present : after.sessions[target]? = some found) (member : ch ∈ found.watchers) :
        ∃ old, state.sessions[target]? = some old ∧ ch ∈ old.watchers := by
      obtain ⟨old, before, _, watchers⟩ := sessions target found present
      rcases watchers ch member with older | ⟨_, new⟩
      · exact ⟨old, before, older⟩
      · exact absurd new fresh
    have earlier {target : Nat} {initial : Bytes}
        (subscribed : Subscribed target ch initial (event :: trace)) :
        Subscribed target ch initial trace := by
      obtain ⟨found, member, called⟩ := subscribed
      rcases List.mem_cons.mp member with rfl | older
      · rw [same] at called
        cases called
        exact absurd rfl fresh
      · exact ⟨found, older, called⟩
    constructor
    · intro missing
      rw [still]
      refine listening.silent ?_
      have none := queue_kept queues missing
      rw [List.getElem?_eq_none_iff] at none ⊢
      simp only [Channels.make, List.length_append] at none
      exact le_trans (Nat.le_add_right _ _) none
    · intro target initial subscribed
      obtain ⟨before, later, channel, chunks, retained, present, capacity, heard, all⟩ :=
        listening.following target initial (earlier subscribed)
      obtain ⟨bound, _⟩ := List.getElem?_eq_some_iff.mp present
      obtain ⟨next, now, queue, size⟩ :=
        queues.queue ch channel ((Channels.make_old 32 bound).trans present)
      refine ⟨before, later, next, (told target).trans chunks, retained, now, size.trans capacity,
        ?_, ?_⟩
      · rw [still, queue]
        exact heard
      · intro found there member
        obtain ⟨old, present, older⟩ := watching there member
        rw [still, queue]
        exact all old present older
    · intro target initial other found subscribed present member
      obtain ⟨old, before, older⟩ := watching present member
      exact listening.only target initial other old (earlier subscribed) before older

/-- The calls of the handlers, with room in the channel for each chunk. -/
def roomy (ch : Nat) (world : HubWorld) (move : HubMove) : Prop :=
  handlersOnly world move ∧
    ∀ call, hubMachine.answered world move = some call → RoomFor ch world.state call

theorem listening_reachable (reaches : hubMachine.Reaches (roomy ch) noTerminals world) :
    Listening ch world.state world.trace := by
  induction reaches with
  | refl =>
      constructor
      · exact fun _ => rfl
      · rintro ref initial ⟨_, member, _⟩
        cases member
      · rintro ref initial other session ⟨_, member, _⟩
        cases member
  | step move before meets stepped ih =>
      have handlers {found : HubWorld} (reached : hubMachine.Reaches (roomy ch) noTerminals found) :
          hubMachine.Reaches handlersOnly noTerminals found :=
        reached.weaken fun _ _ meets => meets.1
      have after := handing_reachable (handlers (.step move before meets stepped))
      obtain ⟨tid, choice, thread, op, resp, rest, state, rfl, acts, rfl⟩ | ⟨task, rfl, _, rfl⟩ |
        ⟨rfl, rfl⟩ := hubMachine.step_cases stepped
      · have room := meets.2 _ acts.answered_eq
        cases respondHub_effect acts.answer with
        | aside continued queues silent unheard other =>
            exact listening_aside ⟨tid, thread.task, ⟨op, resp⟩⟩ ih continued queues
              silent (unheard ch) other
        | appended target data same gives unheard other =>
            obtain ⟨session, there⟩ := appended_there after same ((gives target).trans (if_pos rfl))
            subst same
            exact listening_appended ⟨tid, thread.task, ⟨op, resp⟩⟩ ih
              (watched_reachable before) there gives (unheard ch) other room
        | subscribed target session there same sessions queues =>
            exact listening_subscribed ⟨tid, thread.task, ⟨op, resp⟩⟩ ih
              (watched_reachable before) (buffered_reachable (handlers before)) there same sessions
              queues
        | heard source data left channel same found queue sessions channels =>
            exact listening_heard ⟨tid, thread.task, ⟨op, resp⟩⟩ ih same found queue
              sessions channels
      · exact ⟨ih.silent, ih.following, ih.only⟩
      · exact ⟨ih.silent, ih.following, ih.only⟩

end Subscribers

section Output

/-- A snapshot and the chunks after it make up one stretch of the output, and none
of it is missing or there twice. -/
def FollowsOutput (output : List Bytes) (initial : Bytes) (chunks : List Bytes) : Prop :=
  ∃ before heard later, output = before ++ heard ++ later ∧ Retained initial before.flatten ∧
    chunks = carried heard ∧ initial ++ chunks.flatten <:+ (before ++ heard).flatten

theorem FollowsOutput.extend {output more : List Bytes} {initial : Bytes} {chunks : List Bytes}
    (follows : FollowsOutput output initial chunks) (extends_ : output <+: more) :
    FollowsOutput more initial chunks := by
  obtain ⟨before, heard, later, split_, rest⟩ := follows
  obtain ⟨further, rfl⟩ := extends_
  exact ⟨before, heard, later ++ further, by rw [split_, List.append_assoc], rest⟩

theorem following_follows {ref ch : Nat} {initial : Bytes} {state : TerminalState}
    {trace : List HubEvent} (following : Following ref ch initial state trace) :
    FollowsOutput (delivered ref trace) initial (received ch trace) := by
  obtain ⟨before, after, channel, chunks, retained, _, _, heard, _⟩ := following
  obtain ⟨part, ⟨later, rfl⟩, same⟩ :=
    List.prefix_filter_iff.mp ((List.prefix_append _ _).trans heard)
  refine ⟨before, part, later, ?_, retained, same, ?_⟩
  · rw [chunks, List.append_assoc]
  · have carried_ : (received ch trace).flatten = part.flatten := by
      rw [same]
      exact carried_flatten part
    obtain ⟨older, snapshot⟩ := retained.suffix
    exact ⟨older, by rw [carried_, List.flatten_append, ← snapshot, List.append_assoc]⟩

/-- What the session of a terminal has been given is all that the terminal has put
out, but for what the creating request still holds. -/
structure OutputKept (world : HubWorld) : Prop where
  buffers : ∀ (ref : Nat) (session : TerminalSession), world.state.sessions[ref]? = some session →
    Retained session.buffer (delivered ref world.trace).flatten
  early : ∀ (term : Nat) (creation : Creation), world.state.creations[term]? = some creation →
    creation.session = none → creation.pending = printed term world.trace
  handedOver : ∀ (term : Nat) (creation : Creation) (ref : Nat),
    world.state.creations[term]? = some creation → creation.session = some ref →
    ∃ held, printed term world.trace = delivered ref world.trace ++ held ∧
      (creation.flushing = false → held = [])

theorem outputKept_reachable {world : HubWorld}
    (reaches : hubMachine.Reaches handlersOnly noTerminals world) : OutputKept world := by
  have ledger := (handing_reachable reaches).ledger
  constructor
  · exact buffered_reachable reaches
  · intro term creation there session
    have settles := ledger.settles term creation there
    simpa only [Settles, session] using settles
  · intro term creation ref there session
    have settles := ledger.settles term creation there
    simp only [Settles, session] at settles
    obtain ⟨_, ⟨held, same⟩, idle⟩ := settles
    refine ⟨held, same.symm, fun free => ?_⟩
    have all : delivered ref world.trace ++ held = delivered ref world.trace :=
      same.trans (idle free)
    simpa using all

/-- No output is lost and none comes twice. -/
theorem terminal_output {world : HubWorld}
    (reaches : hubMachine.Reaches handlersOnly noTerminals world) :
    OutputKept world ∧
    ∀ (ch ref : Nat) (initial : Bytes), hubMachine.Reaches (roomy ch) noTerminals world →
      Subscribed ref ch initial world.trace →
      FollowsOutput (delivered ref world.trace) initial (received ch world.trace) ∧
      ∀ (term : Nat) (creation : Creation), world.state.creations[term]? = some creation →
        creation.session = some ref →
        FollowsOutput (printed term world.trace) initial (received ch world.trace) := by
  have kept := outputKept_reachable reaches
  refine ⟨kept, fun ch ref initial roomy_ subscribed => ?_⟩
  have following := (listening_reachable roomy_).following ref initial subscribed
  refine ⟨following_follows following, fun term creation there session => ?_⟩
  obtain ⟨held, same, _⟩ := kept.handedOver term creation ref there session
  exact (following_follows following).extend ⟨held, same.symm⟩

/-- Two chunks come before the session, and one of them is flushed. -/
def flushingMoves : List HubMove :=
  [.start (.create "request" "sandbox"), .run 0 {}, .start (.output 0 [1]), .run 1 {},
   .start (.output 0 [2]), .run 2 {}, .run 0 {}, .run 0 { newID := "a" }, .run 0 {}, .run 0 {},
   .run 0 {}]

/-- The other one is flushed, somebody subscribes, and two more chunks come. -/
def followingMoves : List HubMove :=
  flushingMoves ++ [.run 0 {}, .run 0 {}, .start (.subscribe 0), .run 4 {},
    .start (.output 0 [3]), .run 5 {}, .start (.output 0 [4]), .run 6 {}, .start (.receive 0),
    .run 7 {}]

def followingCheck (ch : Nat) (world : HubWorld) : HubMove → Bool
  | .start task => !task.isAppend
  | _ => world.state.channels.all[ch]?.all fun channel => decide (channel.queue.length < 32)

theorem followingCheck_roomy {ch : Nat} {world : HubWorld} {move : HubMove}
    (checked : followingCheck ch world move = true) : roomy ch world move := by
  constructor
  · cases move with
    | start task => simpa [followingCheck, handlersOnly] using checked
    | run tid choice => trivial
    | crash => trivial
  · intro call answered ref session channel _ _ _ present
    cases move with
    | start task => cases answered
    | run tid choice => simpa [followingCheck, present] using checked
    | crash => cases answered

def subscribes (ref ch : Nat) (initial : Bytes) : HubAnswered → Bool
  | ⟨.subscribe found, answer⟩ => decide (found = ref ∧ answer = (initial, ch))
  | _ => false

theorem subscribes_subscribed {ref ch : Nat} {initial : Bytes} {trace : List HubEvent}
    (called : (trace.any fun event => subscribes ref ch initial event.call) = true) :
    Subscribed ref ch initial trace := by
  obtain ⟨event, member, same⟩ := List.any_eq_true.mp called
  refine ⟨event, member, ?_⟩
  obtain ⟨tid, task, op, resp⟩ := event
  cases op with
  | subscribe found =>
      obtain ⟨rfl, rfl⟩ := of_decide_eq_true same
      rfl
  | _ => cases same

theorem terminal_output_followed : ∃ world, OutputKept world ∧
    FollowsOutput (printed 0 world.trace) [1, 2] (received 0 world.trace) ∧
    printed 0 world.trace = [[1], [2], [3], [4]] ∧ received 0 world.trace = [[3]] := by
  have ran : (hubMachine.runChecked (followingCheck 0) followingMoves noTerminals).any (fun world =>
      (world.trace.any fun event => subscribes 0 0 [1, 2] event.call) &&
      decide (printed 0 world.trace = [[1], [2], [3], [4]] ∧ received 0 world.trace = [[3]] ∧
        (world.state.creations.map fun creation => creation.session) = [some 0])) = true := by
    decide +kernel
  obtain ⟨world, reached, found⟩ := Machine.reaches_any ran
  rw [Bool.and_eq_true] at found
  obtain ⟨put, got, sessions⟩ := of_decide_eq_true found.2
  have roomy_ : hubMachine.Reaches (roomy 0) noTerminals world :=
    reached.weaken fun _ _ checked => followingCheck_roomy checked
  obtain ⟨kept, follows⟩ := terminal_output (roomy_.weaken fun _ _ meets => meets.1)
  obtain ⟨creation, there, session⟩ : ∃ creation, world.state.creations[0]? = some creation ∧
      creation.session = some 0 := by
    have first := congrArg (fun all => all[0]?) sessions
    simpa using first
  exact ⟨world, kept, (follows 0 0 [1, 2] roomy_ (subscribes_subscribed found.1)).2 0 creation there
    session, put, got⟩

/-- While the request flushes, the buffer is not yet the end of all output. -/
theorem output_held_back : ¬ ∀ world, hubMachine.Reaches handlersOnly noTerminals world →
    ∀ (term : Nat) (creation : Creation) (ref : Nat) (session : TerminalSession),
      world.state.creations[term]? = some creation → creation.session = some ref →
      world.state.sessions[ref]? = some session →
      Retained session.buffer (printed term world.trace).flatten := by
  intro claimed
  have ran : (hubMachine.runChecked (followingCheck 0) flushingMoves noTerminals).any (fun world =>
      decide (printed 0 world.trace = [[1], [2]] ∧
        (world.state.creations.map fun creation => creation.session) = [some 0] ∧
        (world.state.sessions.map fun session => session.buffer) = [[1]])) = true := by
    decide +kernel
  obtain ⟨world, reached, found⟩ := Machine.reaches_any ran
  obtain ⟨put, sessions, buffers⟩ := of_decide_eq_true found
  obtain ⟨creation, there, session⟩ : ∃ creation, world.state.creations[0]? = some creation ∧
      creation.session = some 0 := by
    have first := congrArg (fun all => all[0]?) sessions
    simpa using first
  obtain ⟨made, present, buffer⟩ : ∃ made, world.state.sessions[0]? = some made ∧
      made.buffer = [1] := by
    have first := congrArg (fun all => all[0]?) buffers
    simpa using first
  have retained := claimed world (reached.weaken fun _ _ checked => (followingCheck_roomy checked).1)
    0 creation 0 made there session present
  rw [put, buffer] at retained
  exact absurd retained.enough (by decide)

end Output

end Runnerd
