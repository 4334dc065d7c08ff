import Mathlib.Data.List.Nodup

/-!
Buffered channels of one process, named by the order in which they were made. A
receiver gets what is buffered before it learns that the channel is closed.
Closing a closed channel, and sending on one, panics, and a panic ends the
process: `panicked` never goes back.
-/

namespace Runnerd

structure Channel (α : Type) where
  capacity : Nat
  queue : List α := []
  closed : Bool := false

structure Channels (α : Type) where
  all : List (Channel α) := []
  panicked : Bool := false

namespace Channels

variable {α : Type}

/-- The new channel is the one at the end. -/
def make (heap : Channels α) (capacity : Nat) : Channels α :=
  { heap with all := heap.all ++ [{ capacity }] }

def shut (channel : Channel α) : Channel α := { channel with closed := true }

def offer (value : α) (channel : Channel α) : Channel α :=
  if channel.queue.length < channel.capacity then
    { channel with queue := channel.queue ++ [value] }
  else channel

/-- `f` on an open channel. -/
def onOpen (f : Channel α → Channel α) (heap : Channels α) (ch : Nat) : Channels α :=
  match heap.all[ch]? with
  | none => heap
  | some channel =>
      if channel.closed then { heap with panicked := true }
      else { heap with all := heap.all.modify ch f }

def close (heap : Channels α) (ch : Nat) : Channels α := heap.onOpen shut ch

/-- A send that is dropped when the buffer is full. -/
def trySend (value : α) (heap : Channels α) (ch : Nat) : Channels α := heap.onOpen (offer value) ch

def closeAll (heap : Channels α) (chs : List Nat) : Channels α := chs.foldl close heap

def sendAll (value : α) (heap : Channels α) (chs : List Nat) : Channels α :=
  chs.foldl (trySend value) heap

/-- `none` while the receiver waits, and no value from a closed channel that is
empty. -/
def receive (heap : Channels α) (ch : Nat) : Option (Option α × Channels α) :=
  match heap.all[ch]? with
  | none => none
  | some channel =>
      match channel.queue with
      | value :: rest => some (some value,
          { heap with all := heap.all.set ch { channel with queue := rest } })
      | [] => if channel.closed then some (none, heap) else none

def Open (heap : Channels α) (ch : Nat) : Prop :=
  ∃ channel, heap.all[ch]? = some channel ∧ channel.closed = false

theorem onOpen_open {heap : Channels α} {ch : Nat} (f : Channel α → Channel α)
    (isOpen : heap.Open ch) : heap.onOpen f ch = { heap with all := heap.all.modify ch f } := by
  obtain ⟨channel, present, notClosed⟩ := isOpen
  simp [onOpen, present, notClosed]

theorem Open.modify {heap : Channels α} {ch other : Nat} {f : Channel α → Channel α}
    (isOpen : heap.Open other) (different : other ≠ ch) :
    Open { heap with all := heap.all.modify ch f } other := by
  obtain ⟨channel, present, notClosed⟩ := isOpen
  refine ⟨channel, ?_, notClosed⟩
  simp [present, different.symm]

/-- On distinct open channels, a change of each is a change of all. -/
theorem foldl_onOpen {f : Channel α → Channel α} {chs : List Nat} {heap : Channels α}
    (distinct : chs.Nodup) (isOpen : ∀ ch ∈ chs, heap.Open ch) :
    (chs.foldl (onOpen f) heap).panicked = heap.panicked ∧
      (chs.foldl (onOpen f) heap).all.length = heap.all.length ∧
      ∀ ch, (chs.foldl (onOpen f) heap).all[ch]? =
        if ch ∈ chs then heap.all[ch]?.map f else heap.all[ch]? := by
  induction chs generalizing heap with
  | nil => exact ⟨rfl, rfl, fun ch => by simp⟩
  | cons head rest ih =>
      rw [List.nodup_cons] at distinct
      have later : ∀ ch ∈ rest, Open { heap with all := heap.all.modify head f } ch := by
        intro ch member
        refine (isOpen ch (List.mem_cons_of_mem _ member)).modify ?_
        rintro rfl
        exact distinct.1 member
      obtain ⟨calm, size, found⟩ := ih distinct.2 later
      rw [List.foldl_cons, onOpen_open f (isOpen head List.mem_cons_self)]
      refine ⟨calm, size.trans (List.length_modify ..), fun ch => ?_⟩
      rw [found ch]
      by_cases first : ch = head
      · subst first
        simp [distinct.1]
      · have other : head ≠ ch := fun same => first same.symm
        simp [first, other]

theorem sendAll_open (value : α) {chs : List Nat} {heap : Channels α} (distinct : chs.Nodup)
    (isOpen : ∀ ch ∈ chs, heap.Open ch) :
    (heap.sendAll value chs).panicked = heap.panicked ∧
      (heap.sendAll value chs).all.length = heap.all.length ∧
      ∀ ch, (heap.sendAll value chs).all[ch]? =
        if ch ∈ chs then heap.all[ch]?.map (offer value) else heap.all[ch]? :=
  foldl_onOpen distinct isOpen

theorem closeAll_open {chs : List Nat} {heap : Channels α} (distinct : chs.Nodup)
    (isOpen : ∀ ch ∈ chs, heap.Open ch) :
    (heap.closeAll chs).panicked = heap.panicked ∧
      (heap.closeAll chs).all.length = heap.all.length ∧
      ∀ ch, (heap.closeAll chs).all[ch]? =
        if ch ∈ chs then heap.all[ch]?.map shut else heap.all[ch]? :=
  foldl_onOpen distinct isOpen

@[simp] theorem shut_queue (channel : Channel α) : (shut channel).queue = channel.queue := rfl

@[simp] theorem offer_closed (value : α) (channel : Channel α) :
    (offer value channel).closed = channel.closed := by
  unfold offer
  split <;> rfl

@[simp] theorem offer_capacity (value : α) (channel : Channel α) :
    (offer value channel).capacity = channel.capacity := by
  unfold offer
  split <;> rfl

theorem offer_room {value : α} {channel : Channel α}
    (room : channel.queue.length < channel.capacity) :
    (offer value channel).queue = channel.queue ++ [value] := by
  simp [offer, room]

/-- The same channels with the same values in them, some of them closed. -/
structure SameQueues (heap after : Channels α) : Prop where
  size : after.all.length = heap.all.length
  queue : ∀ (ch : Nat) (channel : Channel α), heap.all[ch]? = some channel →
    ∃ next, after.all[ch]? = some next ∧ next.queue = channel.queue ∧
      next.capacity = channel.capacity

theorem sameQueues_refl (heap : Channels α) : SameQueues heap heap :=
  ⟨rfl, fun _ channel present => ⟨channel, present, rfl, rfl⟩⟩

theorem SameQueues.trans {heap middle after : Channels α} (first : SameQueues heap middle)
    (second : SameQueues middle after) : SameQueues heap after where
  size := second.size.trans first.size
  queue ch channel present := by
    obtain ⟨between, there, queue, capacity⟩ := first.queue ch channel present
    obtain ⟨next, now, same, still⟩ := second.queue ch between there
    exact ⟨next, now, same.trans queue, still.trans capacity⟩

theorem close_sameQueues (heap : Channels α) (ch : Nat) : SameQueues heap (heap.close ch) := by
  unfold close onOpen
  split
  · exact sameQueues_refl heap
  · split
    · exact ⟨rfl, (sameQueues_refl heap).queue⟩
    · refine ⟨List.length_modify .., fun other channel present => ?_⟩
      by_cases same : ch = other
      · exact ⟨shut channel, by simp [same, present], rfl, rfl⟩
      · exact ⟨channel, by simp [same, present], rfl, rfl⟩

theorem closeAll_sameQueues (heap : Channels α) (chs : List Nat) :
    SameQueues heap (heap.closeAll chs) := by
  induction chs generalizing heap with
  | nil => exact sameQueues_refl heap
  | cons ch rest ih => exact (close_sameQueues heap ch).trans (ih (heap.close ch))

section Opening
variable {value : α} {chs : List Nat} {heap : Channels α} {ch : Nat}

theorem make_old (capacity : Nat) (bound : ch < heap.all.length) :
    (heap.make capacity).all[ch]? = heap.all[ch]? := List.getElem?_append_left bound

theorem make_new (capacity : Nat) :
    (heap.make capacity).all[heap.all.length]? = some { capacity } := by
  simp [make]

theorem Open.bound (isOpen : heap.Open ch) : ch < heap.all.length := by
  obtain ⟨channel, present, _⟩ := isOpen
  exact (List.getElem?_eq_some_iff.mp present).1

theorem Open.make (isOpen : heap.Open ch) (capacity : Nat) : (heap.make capacity).Open ch := by
  have bound := isOpen.bound
  obtain ⟨channel, present, notClosed⟩ := isOpen
  exact ⟨channel, (make_old capacity bound).trans present, notClosed⟩

theorem make_open (capacity : Nat) : (heap.make capacity).Open heap.all.length :=
  ⟨_, make_new capacity, rfl⟩

theorem Open.sendAll (distinct : chs.Nodup) (all : ∀ other ∈ chs, heap.Open other)
    (isOpen : heap.Open ch) : (heap.sendAll value chs).Open ch := by
  obtain ⟨channel, present, notClosed⟩ := isOpen
  obtain ⟨_, _, found⟩ := sendAll_open _ distinct all
  by_cases member : ch ∈ chs
  · refine ⟨offer value channel, ?_, (offer_closed value channel).trans notClosed⟩
    rw [found, if_pos member, present]
    rfl
  · exact ⟨channel, by rw [found, if_neg member, present], notClosed⟩

theorem Open.closeAll (distinct : chs.Nodup) (all : ∀ other ∈ chs, heap.Open other)
    (other : ch ∉ chs) (isOpen : heap.Open ch) : (heap.closeAll chs).Open ch := by
  obtain ⟨channel, present, notClosed⟩ := isOpen
  obtain ⟨_, _, found⟩ := closeAll_open distinct all
  exact ⟨channel, by rw [found, if_neg other, present], notClosed⟩

theorem close_single : heap.close ch = heap.closeAll [ch] := rfl

theorem Open.close {other : Nat} (isOpen : heap.Open ch) (target : heap.Open other)
    (different : ch ≠ other) : (heap.close other).Open ch := by
  rw [close_single]
  exact isOpen.closeAll (List.nodup_singleton other) (by simpa using target) (by simpa using different)

theorem receive_some {answer : Option α} {after : Channels α}
    (received : heap.receive ch = some (answer, after)) :
    (∃ channel value rest, heap.all[ch]? = some channel ∧ channel.queue = value :: rest ∧
      answer = some value ∧
      after = { heap with all := heap.all.set ch { channel with queue := rest } }) ∨
    (∃ channel, heap.all[ch]? = some channel ∧ channel.queue = [] ∧ channel.closed = true ∧
      answer = none ∧ after = heap) := by
  unfold receive at received
  cases present : heap.all[ch]? with
  | none => simp [present] at received
  | some channel =>
      simp only [present] at received
      cases queue : channel.queue with
      | nil =>
          simp only [queue] at received
          by_cases closed : channel.closed = true
          · rw [if_pos closed] at received
            cases received
            exact .inr ⟨channel, rfl, queue, closed, rfl, rfl⟩
          · rw [if_neg closed] at received
            cases received
      | cons value rest =>
          simp only [queue] at received
          cases received
          exact .inl ⟨channel, value, rest, rfl, queue, rfl, rfl⟩

theorem receive_keeps {answer : Option α} {after : Channels α}
    (received : heap.receive ch = some (answer, after)) :
    after.panicked = heap.panicked ∧ after.all.length = heap.all.length ∧
      ∀ other, heap.Open other → after.Open other := by
  obtain ⟨channel, value, rest, present, _, _, rfl⟩ | ⟨_, _, _, _, _, rfl⟩ := receive_some received
  · refine ⟨rfl, List.length_set .., ?_⟩
    rintro other ⟨found, there, notClosed⟩
    by_cases same : other = ch
    · subst same
      obtain rfl : channel = found := Option.some.inj (present.symm.trans there)
      obtain ⟨bound, _⟩ := List.getElem?_eq_some_iff.mp present
      exact ⟨{ channel with queue := rest }, by simp [bound], notClosed⟩
    · refine ⟨found, ?_, notClosed⟩
      rw [← there]
      exact List.getElem?_set_ne (Ne.symm same)
  · exact ⟨rfl, rfl, fun _ => id⟩

end Opening

end Channels

end Runnerd
