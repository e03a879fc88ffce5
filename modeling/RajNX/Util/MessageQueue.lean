import RajNX.Lib.Circular
import RajNX.Lib.Fallible

/-!
# Message queues

`HosMessageQueue` of `message_queue.cpp`. Every member function works under the lock of the queue. One that has to wait
gives the lock back, and begins with its check again when it is woken up; a call of the model is what is done from a
check up to the next time that the lock is given back. The queue is a circular buffer, and `run_refines` says that
interleaved calls do what they do on a plain sequence.
-/

namespace RajNX.Util

open Circular

/-- `HosMessageQueue` -/
structure HosMessageQueue where
  buffer : List UInt64
  capacity : Nat
  count : Nat
  offset : Nat
deriving DecidableEq

/-- What a member function does when it cannot go on: it waits, it returns, or it waits unless its time is over. -/
inductive Patience where
  | waits
  | tries
  | timed (timedOut : Bool)

/-- What a call gives back. -/
inductive Reply where
  | done
  | message (data : UInt64)
  | failed
  | waiting
deriving DecidableEq

/-- What is replied by a call that cannot go on. -/
def Patience.reply : Patience → Reply
  | .waits => .waiting
  | .tries => .failed
  | .timed timedOut => if timedOut then .failed else .waiting

namespace HosMessageQueue

/-- `HosMessageQueue::HosMessageQueue`. There is no array of more than `2 ^ 64` bytes. -/
def construct (buffer : List UInt64) : Option HosMessageQueue :=
  if 2 ^ 64 ≤ 8 * buffer.length then none else some ⟨buffer, buffer.length, 0, 0⟩

variable (q : HosMessageQueue)

/-- `IsFull` -/
def isFull : Bool := q.capacity ≤ q.count

/-- `IsEmpty` -/
def isEmpty : Bool := q.count = 0

/-- Write to a cell of the buffer. -/
def setCell (i : Nat) (data : UInt64) : Option HosMessageQueue :=
  if i < q.buffer.length then some { q with buffer := q.buffer.set i data } else none

/-- `SendInternal`. A full queue aborts. -/
def sendInternal (data : UInt64) : Option HosMessageQueue := do
  if q.capacity ≤ q.count then none
  let q' ← q.setCell ((q.count + q.offset) % 2 ^ 64 % q.capacity) data
  some { q' with count := (q.count + 1) % 2 ^ 64 }

/-- `SendNextInternal`. A full queue aborts. -/
def sendNextInternal (data : UInt64) : Option HosMessageQueue := do
  if q.capacity ≤ q.count then none
  let offset := (q.offset + q.capacity + 2 ^ 64 - 1) % 2 ^ 64 % q.capacity
  let q' ← { q with offset }.setCell offset data
  some { q' with count := (q.count + 1) % 2 ^ 64 }

/-- `ReceiveInternal`. An empty queue aborts. -/
def receiveInternal : Option (UInt64 × HosMessageQueue) := do
  if q.count = 0 then none
  let data ← q.buffer[q.offset]?
  some (data, { q with offset := (q.offset + 1) % 2 ^ 64 % q.capacity, count := q.count - 1 })

/-- `PeekInternal`. An empty queue aborts. -/
def peekInternal : Option UInt64 :=
  if q.count = 0 then none else q.buffer[q.offset]?

/-- A member function that sends. It ends in nothing if it aborts. -/
def sendBy (internal : HosMessageQueue → UInt64 → Option HosMessageQueue) (patience : Patience)
    (q : HosMessageQueue) (data : UInt64) : Option (Reply × HosMessageQueue) :=
  if q.isFull then some (patience.reply, q) else (internal q data).map (.done, ·)

/-- A member function that receives. -/
def receiveBy (patience : Patience) (q : HosMessageQueue) : Option (Reply × HosMessageQueue) :=
  if q.isEmpty then some (patience.reply, q) else q.receiveInternal.map fun (data, q) => (.message data, q)

/-- A member function that looks at the first message. -/
def peekBy (patience : Patience) (q : HosMessageQueue) : Option (Reply × HosMessageQueue) :=
  if q.isEmpty then some (patience.reply, q) else q.peekInternal.map fun data => (.message data, q)

/-- `Send` -/
def send := sendBy sendInternal .waits

/-- `TrySend` -/
def trySend := sendBy sendInternal .tries

/-- `TimedSend` -/
def timedSend (timedOut : Bool) := sendBy sendInternal (.timed timedOut)

/-- `SendNext` -/
def sendNext := sendBy sendNextInternal .waits

/-- `TrySendNext` -/
def trySendNext := sendBy sendNextInternal .tries

/-- `TimedSendNext` -/
def timedSendNext (timedOut : Bool) := sendBy sendNextInternal (.timed timedOut)

/-- `Receive` -/
def receive := receiveBy .waits

/-- `TryReceive` -/
def tryReceive := receiveBy .tries

/-- `TimedReceive` -/
def timedReceive (timedOut : Bool) := receiveBy (.timed timedOut)

/-- `Peek` -/
def peek := peekBy .waits

/-- `TryPeek` -/
def tryPeek := peekBy .tries

/-- `TimedPeek` -/
def timedPeek (timedOut : Bool) := peekBy (.timed timedOut)

end HosMessageQueue

/-- A call of a member function, from a check on. -/
inductive QueueCall where
  | send (data : UInt64)
  | trySend (data : UInt64)
  | timedSend (timedOut : Bool) (data : UInt64)
  | sendNext (data : UInt64)
  | trySendNext (data : UInt64)
  | timedSendNext (timedOut : Bool) (data : UInt64)
  | receive
  | tryReceive
  | timedReceive (timedOut : Bool)
  | peek
  | tryPeek
  | timedPeek (timedOut : Bool)

namespace HosMessageQueue

/-- One call. -/
def call (q : HosMessageQueue) : QueueCall → Option (Reply × HosMessageQueue)
  | .send data => q.send data
  | .trySend data => q.trySend data
  | .timedSend timedOut data => q.timedSend timedOut data
  | .sendNext data => q.sendNext data
  | .trySendNext data => q.trySendNext data
  | .timedSendNext timedOut data => q.timedSendNext timedOut data
  | .receive => q.receive
  | .tryReceive => q.tryReceive
  | .timedReceive timedOut => q.timedReceive timedOut
  | .peek => q.peek
  | .tryPeek => q.tryPeek
  | .timedPeek timedOut => q.timedPeek timedOut

/-- Calls in the order in which they get the lock, with what they reply. -/
def run (q : HosMessageQueue) : List QueueCall → Option (List Reply × HosMessageQueue)
  | [] => some ([], q)
  | c :: cs => do
    let (reply, q) ← q.call c
    let (replies, q) ← q.run cs
    some (reply :: replies, q)

end HosMessageQueue

/-! ## Sequences -/

/-- A call that sends, on a sequence of at most so many messages. -/
def sendOnSeq (capacity : Nat) (patience : Patience) (messages sent : List UInt64) : Reply × List UInt64 :=
  if messages.length = capacity then (patience.reply, messages) else (.done, sent)

/-- A call that receives, on a sequence. -/
def receiveOnSeq (patience : Patience) : List UInt64 → Reply × List UInt64
  | [] => (patience.reply, [])
  | data :: messages => (.message data, messages)

/-- A call that looks at the first message, on a sequence. -/
def peekOnSeq (patience : Patience) : List UInt64 → Reply × List UInt64
  | [] => (patience.reply, [])
  | data :: messages => (.message data, data :: messages)

/-- What a call replies and does on a sequence: it is sent to at the back, or at the front, and received from at the
front. -/
def QueueCall.onSeq (capacity : Nat) (messages : List UInt64) : QueueCall → Reply × List UInt64
  | .send data => sendOnSeq capacity .waits messages (messages ++ [data])
  | .trySend data => sendOnSeq capacity .tries messages (messages ++ [data])
  | .timedSend timedOut data => sendOnSeq capacity (.timed timedOut) messages (messages ++ [data])
  | .sendNext data => sendOnSeq capacity .waits messages (data :: messages)
  | .trySendNext data => sendOnSeq capacity .tries messages (data :: messages)
  | .timedSendNext timedOut data => sendOnSeq capacity (.timed timedOut) messages (data :: messages)
  | .receive => receiveOnSeq .waits messages
  | .tryReceive => receiveOnSeq .tries messages
  | .timedReceive timedOut => receiveOnSeq (.timed timedOut) messages
  | .peek => peekOnSeq .waits messages
  | .tryPeek => peekOnSeq .tries messages
  | .timedPeek timedOut => peekOnSeq (.timed timedOut) messages

/-- Calls on a sequence, one after another. -/
def runOnSeq (capacity : Nat) (messages : List UInt64) : List QueueCall → List Reply × List UInt64
  | [] => ([], messages)
  | c :: cs =>
    let (reply, messages) := c.onSeq capacity messages
    let (replies, messages) := runOnSeq capacity messages cs
    (reply :: replies, messages)

/-- A queue stands for a sequence of messages. -/
structure Represents (q : HosMessageQueue) (messages : List UInt64) : Prop where
  capacity_eq : q.capacity = q.buffer.length
  size_lt : 8 * q.buffer.length < 2 ^ 64
  count_eq : q.count = messages.length
  holds : Holds q.buffer q.offset messages

section Calls

variable {q : HosMessageQueue} {messages sent : List UInt64} {patience : Patience}
  {internal : HosMessageQueue → UInt64 → Option HosMessageQueue} {data : UInt64}

lemma Represents.construct {buffer : List UInt64} (hpos : 1 ≤ buffer.length)
    (hq : HosMessageQueue.construct buffer = some q) : Represents q [] ∧ q.buffer = buffer := by
  rw [HosMessageQueue.construct] at hq
  split at hq
  · cases hq
  · next hsize =>
    obtain rfl := Option.some.inj hq
    exact ⟨⟨rfl, Nat.not_le.mp hsize, rfl, holds_nil hpos⟩, rfl⟩

lemma Represents.isFull (h : Represents q messages) : q.isFull = true ↔ messages.length = q.buffer.length := by
  have hle := h.holds.length_le
  rw [HosMessageQueue.isFull, decide_eq_true_iff, h.capacity_eq, h.count_eq]
  omega

lemma Represents.isEmpty (h : Represents q messages) : q.isEmpty = true ↔ messages = [] := by
  rw [HosMessageQueue.isEmpty, decide_eq_true_iff, h.count_eq, List.length_eq_zero_iff]

/-- A message is put behind the others. -/
lemma Represents.sendInternal (h : Represents q messages) (hroom : messages.length ≠ q.buffer.length) (data : UInt64) :
    ∃ q', q.sendInternal data = some q' ∧ Represents q' (messages ++ [data]) ∧
      q'.buffer.length = q.buffer.length := by
  obtain ⟨buffer, capacity, count, offset⟩ := q
  obtain ⟨hcapacity, hsize, hcount, hholds⟩ := h
  dsimp only at *
  subst hcapacity hcount
  have hlt := Nat.lt_of_le_of_ne hholds.length_le hroom
  have hoffset := hholds.offset_lt
  have hindex : (messages.length + offset) % 2 ^ 64 % buffer.length = (offset + messages.length) % buffer.length := by
    rw [Nat.mod_eq_of_lt (show messages.length + offset < 2 ^ 64 by omega), Nat.add_comm]
  have hcell : (offset + messages.length) % buffer.length < buffer.length := hholds.index_lt _
  refine ⟨⟨buffer.set ((offset + messages.length) % buffer.length) data, buffer.length,
    (messages.length + 1) % 2 ^ 64, offset⟩, ?_, ⟨?_, ?_, ?_, hholds.pushBack hlt data⟩, List.length_set⟩
  · rw [HosMessageQueue.sendInternal]
    dsimp only
    rw [if_neg (Nat.not_le.mpr hlt), hindex, HosMessageQueue.setCell, if_pos hcell]
    rfl
  · exact (List.length_set).symm
  · rwa [List.length_set]
  · rw [List.length_append, List.length_singleton]
    exact Nat.mod_eq_of_lt (by omega)

/-- A message is put in front of the others. -/
lemma Represents.sendNextInternal (h : Represents q messages) (hroom : messages.length ≠ q.buffer.length)
    (data : UInt64) :
    ∃ q', q.sendNextInternal data = some q' ∧ Represents q' (data :: messages) ∧
      q'.buffer.length = q.buffer.length := by
  obtain ⟨buffer, capacity, count, offset⟩ := q
  obtain ⟨hcapacity, hsize, hcount, hholds⟩ := h
  dsimp only at *
  subst hcapacity hcount
  have hlt := Nat.lt_of_le_of_ne hholds.length_le hroom
  have hoffset := hholds.offset_lt
  have hindex : (offset + buffer.length + 2 ^ 64 - 1) % 2 ^ 64 % buffer.length =
      (offset + buffer.length - 1) % buffer.length := by
    have hwrap : offset + buffer.length + 2 ^ 64 - 1 = offset + buffer.length - 1 + 2 ^ 64 := by omega
    rw [hwrap, Nat.add_mod_right, Nat.mod_eq_of_lt (show offset + buffer.length - 1 < 2 ^ 64 by omega)]
  have hcell : (offset + buffer.length - 1) % buffer.length < buffer.length := Nat.mod_lt _ (by omega)
  refine ⟨⟨buffer.set ((offset + buffer.length - 1) % buffer.length) data, buffer.length,
    (messages.length + 1) % 2 ^ 64, (offset + buffer.length - 1) % buffer.length⟩, ?_,
    ⟨?_, ?_, ?_, hholds.pushFront hlt data⟩, List.length_set⟩
  · rw [HosMessageQueue.sendNextInternal]
    dsimp only
    rw [if_neg (Nat.not_le.mpr hlt), hindex, HosMessageQueue.setCell, if_pos hcell]
    rfl
  · exact (List.length_set).symm
  · rwa [List.length_set]
  · rw [List.length_cons]
    exact Nat.mod_eq_of_lt (by omega)

/-- The first message is taken out. -/
lemma Represents.receiveInternal (h : Represents q (data :: messages)) :
    ∃ q', q.receiveInternal = some (data, q') ∧ Represents q' messages ∧ q'.buffer.length = q.buffer.length := by
  obtain ⟨buffer, capacity, count, offset⟩ := q
  obtain ⟨hcapacity, hsize, hcount, hholds⟩ := h
  dsimp only at *
  subst hcapacity hcount
  have hoffset := hholds.offset_lt
  have hindex : (offset + 1) % 2 ^ 64 % buffer.length = (offset + 1) % buffer.length := by
    rw [Nat.mod_eq_of_lt (show offset + 1 < 2 ^ 64 by omega)]
  refine ⟨⟨buffer, buffer.length, messages.length, (offset + 1) % buffer.length⟩, ?_,
    ⟨rfl, hsize, rfl, hholds.popFront⟩, rfl⟩
  have hne : (data :: messages).length ≠ 0 := Nat.succ_ne_zero _
  rw [HosMessageQueue.receiveInternal]
  dsimp only
  rw [if_neg hne, hholds.front, hindex]
  rfl

/-- The first message is shown. -/
lemma Represents.peekInternal (h : Represents q (data :: messages)) : q.peekInternal = some data := by
  have hne : q.count ≠ 0 := h.count_eq ▸ Nat.succ_ne_zero _
  rw [HosMessageQueue.peekInternal, if_neg hne, h.holds.front]

section

variable (h : Represents q messages)

include h

/-- A call that sends does what it does on the sequence. -/
lemma Represents.sendBy (patience : Patience)
    (hinternal : messages.length ≠ q.buffer.length → ∃ q', internal q data = some q' ∧ Represents q' sent ∧
      q'.buffer.length = q.buffer.length) :
    ∃ q', HosMessageQueue.sendBy internal patience q data =
        some ((sendOnSeq q.buffer.length patience messages sent).1, q') ∧
      Represents q' (sendOnSeq q.buffer.length patience messages sent).2 ∧ q'.buffer.length = q.buffer.length := by
  rw [HosMessageQueue.sendBy, sendOnSeq]
  by_cases hfull : messages.length = q.buffer.length
  · rw [if_pos (h.isFull.mpr hfull), if_pos hfull]
    exact ⟨q, rfl, h, rfl⟩
  · obtain ⟨q', hsend, hq'⟩ := hinternal hfull
    rw [if_neg (mt h.isFull.mp hfull), if_neg hfull, hsend]
    exact ⟨q', rfl, hq'⟩

lemma Represents.receiveBy (patience : Patience) :
    ∃ q', q.receiveBy patience = some ((receiveOnSeq patience messages).1, q') ∧
      Represents q' (receiveOnSeq patience messages).2 ∧ q'.buffer.length = q.buffer.length := by
  rw [HosMessageQueue.receiveBy]
  cases messages with
  | nil =>
    rw [if_pos (h.isEmpty.mpr rfl)]
    exact ⟨q, rfl, h, rfl⟩
  | cons data messages =>
    obtain ⟨q', hreceive, hq'⟩ := h.receiveInternal
    rw [if_neg (mt h.isEmpty.mp (List.cons_ne_nil _ _)), hreceive]
    exact ⟨q', rfl, hq'⟩

lemma Represents.peekBy (patience : Patience) :
    ∃ q', q.peekBy patience = some ((peekOnSeq patience messages).1, q') ∧
      Represents q' (peekOnSeq patience messages).2 ∧ q'.buffer.length = q.buffer.length := by
  rw [HosMessageQueue.peekBy]
  cases messages with
  | nil =>
    rw [if_pos (h.isEmpty.mpr rfl)]
    exact ⟨q, rfl, h, rfl⟩
  | cons data messages =>
    rw [if_neg (mt h.isEmpty.mp (List.cons_ne_nil _ _)), h.peekInternal]
    exact ⟨q, rfl, h, rfl⟩

/-- A call does what it does on the sequence. -/
lemma Represents.call (c : QueueCall) :
    ∃ q', q.call c = some ((c.onSeq q.buffer.length messages).1, q') ∧
      Represents q' (c.onSeq q.buffer.length messages).2 ∧ q'.buffer.length = q.buffer.length := by
  cases c with
  | send data => exact h.sendBy _ fun hroom => h.sendInternal hroom data
  | trySend data => exact h.sendBy _ fun hroom => h.sendInternal hroom data
  | timedSend timedOut data => exact h.sendBy _ fun hroom => h.sendInternal hroom data
  | sendNext data => exact h.sendBy _ fun hroom => h.sendNextInternal hroom data
  | trySendNext data => exact h.sendBy _ fun hroom => h.sendNextInternal hroom data
  | timedSendNext timedOut data => exact h.sendBy _ fun hroom => h.sendNextInternal hroom data
  | receive => exact h.receiveBy _
  | tryReceive => exact h.receiveBy _
  | timedReceive timedOut => exact h.receiveBy _
  | peek => exact h.peekBy _
  | tryPeek => exact h.peekBy _
  | timedPeek timedOut => exact h.peekBy _

/-- Calls in any order do what they do on the sequence. -/
lemma Represents.run (cs : List QueueCall) :
    ∃ q', q.run cs = some ((runOnSeq q.buffer.length messages cs).1, q') ∧
      Represents q' (runOnSeq q.buffer.length messages cs).2 ∧ q'.buffer.length = q.buffer.length := by
  induction cs generalizing q messages with
  | nil => exact ⟨q, rfl, h, rfl⟩
  | cons c cs ih =>
    obtain ⟨q₁, hcall, h₁, hlength⟩ := h.call c
    obtain ⟨q₂, hrun, h₂, hlength₂⟩ := ih h₁
    rw [hlength] at hrun h₂
    refine ⟨q₂, ?_, h₂, hlength₂.trans hlength⟩
    rw [HosMessageQueue.run, hcall, Fallible.some_bind]
    dsimp only
    rw [hrun]
    rfl

/-- Sending fails, and leaves the queue as it is, iff the queue is full. -/
lemma Represents.sendBy_failed_iff :
    HosMessageQueue.sendBy internal .tries q data = some (.failed, q) ↔ messages.length = q.buffer.length := by
  rw [HosMessageQueue.sendBy, ← h.isFull]
  split
  · next hfull => exact ⟨fun _ => hfull, fun _ => rfl⟩
  · next hfull =>
    refine ⟨fun heq => ?_, fun heq => absurd heq hfull⟩
    obtain ⟨_, -, hreply⟩ := Option.map_eq_some_iff.mp heq
    cases hreply

/-- Receiving fails, and leaves the queue as it is, iff the queue is empty. -/
lemma Represents.receiveBy_failed_iff : q.receiveBy .tries = some (.failed, q) ↔ messages = [] := by
  rw [HosMessageQueue.receiveBy, ← h.isEmpty]
  split
  · next hempty => exact ⟨fun _ => hempty, fun _ => rfl⟩
  · next hempty =>
    refine ⟨fun heq => ?_, fun heq => absurd heq hempty⟩
    obtain ⟨_, -, hreply⟩ := Option.map_eq_some_iff.mp heq
    cases hreply

lemma Represents.peekBy_failed_iff : q.peekBy .tries = some (.failed, q) ↔ messages = [] := by
  rw [HosMessageQueue.peekBy, ← h.isEmpty]
  split
  · next hempty => exact ⟨fun _ => hempty, fun _ => rfl⟩
  · next hempty =>
    refine ⟨fun heq => ?_, fun heq => absurd heq hempty⟩
    obtain ⟨_, -, hreply⟩ := Option.map_eq_some_iff.mp heq
    cases hreply

end

end Calls

/-! ## Runs -/

section Runs

variable {buffer : List UInt64} {q : HosMessageQueue}

/-- Calls on a new queue, in any order, reply what they reply on the empty sequence, and none of them aborts. The queue
holds the sequence that they end with. A call that tries fails iff that is full or empty. -/
theorem run_refines (hpos : 1 ≤ buffer.length) (hq : HosMessageQueue.construct buffer = some q) (cs : List QueueCall) :
    ∃ q', q.run cs = some ((runOnSeq buffer.length [] cs).1, q') ∧
      Represents q' (runOnSeq buffer.length [] cs).2 ∧ (runOnSeq buffer.length [] cs).2.length ≤ buffer.length ∧
      (∀ data, q'.trySend data = some (.failed, q') ↔ (runOnSeq buffer.length [] cs).2.length = buffer.length) ∧
      (∀ data, q'.trySendNext data = some (.failed, q') ↔ (runOnSeq buffer.length [] cs).2.length = buffer.length) ∧
      (q'.tryReceive = some (.failed, q') ↔ (runOnSeq buffer.length [] cs).2 = []) ∧
      (q'.tryPeek = some (.failed, q') ↔ (runOnSeq buffer.length [] cs).2 = []) := by
  obtain ⟨h, hbuffer⟩ := Represents.construct hpos hq
  obtain ⟨q', hrun, h', hlength⟩ := h.run cs
  rw [hbuffer] at hrun h' hlength
  have hle := h'.holds.length_le
  have hfull (internal data) :=
    @Represents.sendBy_failed_iff q' (runOnSeq buffer.length [] cs).2 internal data h'
  rw [hlength] at hle
  simp only [hlength] at hfull
  exact ⟨q', hrun, h', hle, hfull _, hfull _, h'.receiveBy_failed_iff, h'.peekBy_failed_iff⟩

/-- A queue for two messages whose offset goes around in both directions. -/
theorem run_refines_example :
    ∃ q q', HosMessageQueue.construct [0, 0] = some q ∧
      q.run [.send 1, .sendNext 2, .trySend 3, .receive, .send 4, .peek, .receive, .receive, .tryPeek] =
        some ([.done, .done, .failed, .message 2, .done, .message 1, .message 1, .message 4, .failed], q') := by
  obtain ⟨q', hrun, -⟩ := run_refines (show 1 ≤ [0, 0].length by decide) rfl
    [.send 1, .sendNext 2, .trySend 3, .receive, .send 4, .peek, .receive, .receive, .tryPeek]
  exact ⟨_, q', rfl, hrun⟩

end Runs

end RajNX.Util
