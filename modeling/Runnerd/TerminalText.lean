import Runnerd.LossyText
import Runnerd.TerminalOutput

/-!
The text that the events of a terminal carry. `json.Marshal` reads the bytes of each event
by themselves, and a chunk may end within a rune.
-/

namespace Runnerd

open LossyText

section Text

/-- What the reader of the event that `writeTerminalEvent` writes gets as its data. -/
def writeTerminalEvent (data : Bytes) : List Char := decode data

/-- The buffer of a session that was given some chunks. -/
def sessionBuffer (chunks : List Bytes) : Bytes := chunks.foldl appendBuffer []

/-- The data of the events for a subscriber that comes after some of the chunks. -/
def terminalEvents (chunks : List Bytes) (subscribed : Nat) : List (List Char) :=
  let initial := sessionBuffer (chunks.take subscribed)
  let later := (chunks.drop subscribed).filter fun data => data ≠ []
  (if initial.length > 0 then [writeTerminalEvent initial] else []) ++ later.map writeTerminalEvent

/-- The part of the output that these events are about. -/
def terminalPart (chunks : List Bytes) (subscribed : Nat) : Bytes :=
  sessionBuffer (chunks.take subscribed) ++ (chunks.drop subscribed).flatten

theorem retained_fold {buffer output : Bytes} (retained : Retained buffer output)
    (chunks : List Bytes) : Retained (chunks.foldl appendBuffer buffer) (output ++ chunks.flatten) := by
  induction chunks generalizing buffer output with
  | nil => simpa using retained
  | cons data chunks ih =>
      have next := ih (retained_append retained data)
      simpa using next

theorem sessionBuffer_retained (chunks : List Bytes) :
    Retained (sessionBuffer chunks) chunks.flatten := by
  have empty : Retained [] [] := ⟨List.suffix_refl _, by simp, by simp⟩
  simpa [sessionBuffer] using retained_fold empty chunks

/-- The part begins where the buffer does and goes on to the end of the output. -/
theorem terminalPart_suffix (chunks : List Bytes) (subscribed : Nat) :
    terminalPart chunks subscribed <:+ chunks.flatten := by
  obtain ⟨older, same⟩ := (sessionBuffer_retained (chunks.take subscribed)).suffix
  refine ⟨older, ?_⟩
  have whole := congrArg List.flatten (List.take_append_drop subscribed chunks)
  rw [List.flatten_append, ← same] at whole
  rw [← whole, terminalPart, List.append_assoc]

/-- The methods of a session make up its buffer in this way, and a subscriber gets it. -/
theorem append_all {state : TerminalState} {ref : Nat} {session : TerminalSession}
    (found : state.sessions[ref]? = some session)
    (bounded : session.buffer.length ≤ maxBuffer * 2) (chunks : List Bytes) :
    ∃ next, (chunks.foldl (fun state data => state.append ref data) state).sessions[ref]? =
      some next ∧ next.buffer = chunks.foldl appendBuffer session.buffer := by
  induction chunks generalizing state session with
  | nil => exact ⟨session, found, rfl⟩
  | cons data chunks ih =>
      rw [List.foldl_cons, List.foldl_cons]
      by_cases none_ : data = []
      · have same : appendBuffer session.buffer data = session.buffer := by
          rw [none_, appendBuffer, List.append_nil, if_neg (not_lt.mpr bounded)]
        rw [none_, append_nothing, ← none_, same]
        exact ih found bounded
      · rw [append_at found none_]
        have next : ((state.edit ref
            (fun session => { session with buffer := appendBuffer session.buffer data })
            (state.channels.sendAll data session.watchers)).sessions[ref]?) =
              some { session with buffer := appendBuffer session.buffer data } := by
          rw [edit_at, if_pos rfl, found]
          rfl
        have suffix_ : Retained session.buffer session.buffer :=
          ⟨List.suffix_refl _, min_le_left _ _, bounded⟩
        exact ih next (retained_append suffix_ data).bounded

theorem subscribe_all {state : TerminalState} {ref : Nat} {session : TerminalSession}
    (found : state.sessions[ref]? = some session) (fresh : session.buffer = [])
    (chunks : List Bytes) : ∃ ch after,
      (chunks.foldl (fun state data => state.append ref data) state).subscribe ref =
        some ((sessionBuffer chunks, ch), after) := by
  obtain ⟨next, there, same⟩ := append_all found (by simp [fresh]) chunks
  rw [fresh] at same
  simp only [TerminalState.subscribe, there, same]
  split
  · exact ⟨_, _, rfl⟩
  · exact ⟨_, _, rfl⟩

theorem filter_flatten (chunks : List Bytes) :
    (chunks.filter fun data => data ≠ []).flatten = chunks.flatten := carried_flatten chunks

theorem valid_nil : Valid [] := ⟨[], rfl⟩

/-- The events of a snapshot and of chunks say what these say where each is text. -/
theorem events_text_iff (initial : Bytes) (chunks : List Bytes) :
    encode ((if initial.length > 0 then [writeTerminalEvent initial] else []) ++
        (chunks.filter fun data => data ≠ []).map writeTerminalEvent).flatten =
      initial ++ chunks.flatten ↔ Valid initial ∧ ∀ chunk ∈ chunks, Valid chunk := by
  have carried_ : (∀ chunk ∈ chunks.filter (fun data => data ≠ []), Valid chunk) ↔
      ∀ chunk ∈ chunks, Valid chunk := by
    simp only [List.mem_filter, decide_eq_true_eq]
    constructor
    · intro valid chunk member
      by_cases none_ : chunk = []
      · rw [none_]
        exact valid_nil
      · exact valid chunk ⟨member, none_⟩
    · exact fun valid chunk member => valid chunk member.1
  have pieces := pieces_iff (initial :: chunks.filter fun data => data ≠ [])
  rw [List.flatten_cons, filter_flatten, List.forall_mem_cons, carried_, List.flatMap_cons] at pieces
  rw [← pieces]
  have first : (if initial.length > 0 then [writeTerminalEvent initial] else []).flatten =
      decode initial := by
    cases initial with
    | nil => simp
    | cons byte rest => simp [writeTerminalEvent]
  rw [List.flatten_append, first, List.flatMap_def]
  rfl

theorem terminal_text_survives_iff (chunks : List Bytes) (subscribed : Nat) :
    encode (terminalEvents chunks subscribed).flatten = terminalPart chunks subscribed ↔
      Valid (sessionBuffer (chunks.take subscribed)) ∧
        ∀ chunk ∈ chunks.drop subscribed, Valid chunk :=
  events_text_iff _ _

end Text

section Heard

variable {world : HubWorld}

/-- The same for a subscriber among all that goes on at the hub: what it has read is one
stretch of the output, and its events say that stretch where its pieces are text. -/
theorem heard_text_iff {ch ref : Nat} {initial : Bytes}
    (reaches : hubMachine.Reaches (roomy ch) noTerminals world)
    (subscribed : Subscribed ref ch initial world.trace) :
    FollowsOutput (delivered ref world.trace) initial (received ch world.trace) ∧
      (encode ((if initial.length > 0 then [writeTerminalEvent initial] else []) ++
          ((received ch world.trace).filter fun data => data ≠ []).map
            writeTerminalEvent).flatten = initial ++ (received ch world.trace).flatten ↔
        Valid initial ∧ ∀ chunk ∈ received ch world.trace, Valid chunk) :=
  ⟨following_follows ((listening_reachable reaches).following ref initial subscribed),
    events_text_iff _ _⟩

end Heard

/-- A rune of two bytes comes in two chunks. -/
theorem split_rune_lost : ¬∀ (output : List Char) (chunks : List Bytes) (subscribed : Nat),
    chunks.flatten = encode output →
      encode (terminalEvents chunks subscribed).flatten = terminalPart chunks subscribed := by
  intro all
  have same := all ['é'] [[0xc3], [0xa9]] 0 (by decide)
  have lead : firstRune [0xc3] = none := by decide
  have tail : firstRune [0xa9] = none := by decide
  simp [terminalEvents, terminalPart, sessionBuffer, writeTerminalEvent, decode, lead, tail] at same
  revert same
  decide

end Runnerd
