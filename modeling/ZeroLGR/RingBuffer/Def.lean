/-
  ZeroLGR.RingBuffer.Def — `SPSCRingBuffer<T, N>` and its two threads.

  One producer calls `push`, one consumer calls `pop`; every load, slot access
  and store of the two functions is a step of its own, so a run is one
  interleaving.  An atomic index keeps the list of all values ever stored to
  it: a thread loads its own index exactly, and of the other side's index it
  may see any store not older than the one it saw last.

    • `SPSCRingBuffer`, `empty`, `sizeApprox` — the object and its queries,
    • `ProducerPc`, `ConsumerPc` — where each thread is inside its call,
    • `step` — the interleaved single steps of `push` and `pop`, each with the
      event it shows: a completed or a failed push or pop.
-/
import ZeroLGR.Lib.Fifo
import Mathlib.Data.Nat.Bitwise

namespace ZeroLGR.RingBuffer

/-! ## §1. The object. -/

/-- The template argument `N`, with the `requires` clause of the class. -/
structure Capacity where
  N : UInt64
  two_le : 2 ≤ N
  pow_two : N &&& (N - 1) = 0

/-- `MASK = N - 1`. -/
def Capacity.mask (c : Capacity) : UInt64 := c.N - 1

/-- `capacity()`: one slot is always reserved. -/
def Capacity.capacity (c : Capacity) : Nat := (c.N - 1).toNat

/-- `std::atomic<std::size_t>`: every value stored to it, oldest first. -/
structure AtomicIndex where
  stores : List UInt64
  nonempty : stores ≠ []

/-- A freshly constructed index, `{0}`. -/
def AtomicIndex.zero : AtomicIndex := ⟨[0], by simp⟩

/-- The newest value: what the thread that owns the index loads. -/
def AtomicIndex.load (a : AtomicIndex) : UInt64 := a.stores.getLast a.nonempty

def AtomicIndex.store (a : AtomicIndex) (v : UInt64) : AtomicIndex :=
  ⟨a.stores ++ [v], by simp⟩

/-- `head_`, `tail_` and `buf_`. -/
structure SPSCRingBuffer (α : Type*) where
  head : AtomicIndex
  tail : AtomicIndex
  buf : UInt64 → α

variable {α : Type*}

/-- `buf_[i] = val`. -/
def writeSlot (buf : UInt64 → α) (i : UInt64) (val : α) : UInt64 → α :=
  fun j => if j = i then val else buf j

/-- `empty()`, as a thread that sees both current indices computes it. -/
def SPSCRingBuffer.empty (r : SPSCRingBuffer α) : Bool := r.head.load == r.tail.load

/-- `size_approx()`: `(t - h + N) & MASK` in `size_t`. -/
def SPSCRingBuffer.sizeApprox (c : Capacity) (r : SPSCRingBuffer α) : UInt64 :=
  (r.tail.load - r.head.load + c.N) &&& c.mask

/-! ## §2. The two threads. -/

/-- Inside `push(val)`: before the call, after the load of `tail_`, after a
load of `head_` that left room, after the slot is written. -/
inductive ProducerPc (α : Type*) where
  | idle
  | loadedTail (val : α) (t next : UInt64)
  | loadedHead (val : α) (t next : UInt64)
  | wrote (val : α) (next : UInt64)

/-- Inside `pop(out)`: before the call, after the load of `head_`, after a load
of `tail_` that showed an element, after the slot is moved into `out`. -/
inductive ConsumerPc (α : Type*) where
  | idle
  | loadedHead (h : UInt64)
  | loadedTail (h : UInt64)
  | read (h : UInt64) (out : α)

/-- The buffer and both threads; `headSeen` and `tailSeen` are the positions,
in the order of stores, of the other side's index each thread last observed. -/
structure System (α : Type*) where
  ring : SPSCRingBuffer α
  producer : ProducerPc α
  consumer : ConsumerPc α
  headSeen : Nat
  tailSeen : Nat

/-- Both indices `{0}`, arbitrary slot contents, no call in progress. -/
def System.init (buf : UInt64 → α) : System α where
  ring := ⟨.zero, .zero, buf⟩
  producer := .idle
  consumer := .idle
  headSeen := 0
  tailSeen := 0

/-- The single steps; `pushLoadHead i` and `popLoadTail i` see the `i`-th store. -/
inductive Action (α : Type*) where
  | pushLoadTail (val : α)
  | pushLoadHead (i : Nat)
  | pushWriteSlot
  | pushStoreTail
  | popLoadHead
  | popLoadTail (i : Nat)
  | popReadSlot
  | popStoreHead

/-- What a step shows to the callers. -/
inductive Event (α : Type*) where
  | pushed (val : α)
  | pushFailed
  | popped (out : α)
  | popFailed

/-- The value a stale-able load of `a` returns when it sees the `i`-th store
and the store numbered `seen` was observed before. -/
def AtomicIndex.loadFrom (a : AtomicIndex) (seen i : Nat) : Option UInt64 :=
  if seen ≤ i then a.stores[i]? else none

/-- One step of one thread, and what it shows to the callers.  `movedFrom` is
what `std::move` leaves behind. -/
def step (c : Capacity) (movedFrom : α → α) (s : System α) :
    Action α → Option (System α × List (Event α))
  | .pushLoadTail val =>
      match s.producer with
      | .idle =>
          let t := s.ring.tail.load
          some ({ s with producer := .loadedTail val t ((t + 1) &&& c.mask) }, [])
      | _ => none
  | .pushLoadHead i =>
      match s.producer, s.ring.head.loadFrom s.headSeen i with
      | .loadedTail val t next, some h =>
          if next = h then
            some ({ s with producer := .idle, headSeen := i }, [.pushFailed])
          else
            some ({ s with producer := .loadedHead val t next, headSeen := i }, [])
      | _, _ => none
  | .pushWriteSlot =>
      match s.producer with
      | .loadedHead val t next =>
          let ring := { s.ring with buf := writeSlot s.ring.buf t val }
          some ({ s with ring := ring, producer := .wrote val next }, [])
      | _ => none
  | .pushStoreTail =>
      match s.producer with
      | .wrote val next =>
          let ring := { s.ring with tail := s.ring.tail.store next }
          some ({ s with ring := ring, producer := .idle }, [.pushed val])
      | _ => none
  | .popLoadHead =>
      match s.consumer with
      | .idle => some ({ s with consumer := .loadedHead s.ring.head.load }, [])
      | _ => none
  | .popLoadTail i =>
      match s.consumer, s.ring.tail.loadFrom s.tailSeen i with
      | .loadedHead h, some t =>
          if h = t then
            some ({ s with consumer := .idle, tailSeen := i }, [.popFailed])
          else
            some ({ s with consumer := .loadedTail h, tailSeen := i }, [])
      | _, _ => none
  | .popReadSlot =>
      match s.consumer with
      | .loadedTail h =>
          let out := s.ring.buf h
          let ring := { s.ring with buf := writeSlot s.ring.buf h (movedFrom out) }
          some ({ s with ring := ring, consumer := .read h out }, [])
      | _ => none
  | .popStoreHead =>
      match s.consumer with
      | .read h out =>
          let ring := { s.ring with head := s.ring.head.store ((h + 1) &&& c.mask) }
          some ({ s with ring := ring, consumer := .idle }, [.popped out])
      | _ => none

/-! ## §3. Reading a record. -/

/-- The queue action an event stands for; a failed call stands for none. -/
def Event.op : Event α → List (Fifo.Op α)
  | .pushed val => [.enqueue val]
  | .popped out => [.dequeue out]
  | .pushFailed | .popFailed => []

/-- The values successfully pushed in a record, in order. -/
def pushedValues : List (Event α) → List α
  | [] => []
  | .pushed val :: es => val :: pushedValues es
  | _ :: es => pushedValues es

/-- The values popped in a record, in order. -/
def poppedValues : List (Event α) → List α
  | [] => []
  | .popped out :: es => out :: poppedValues es
  | _ :: es => poppedValues es

end ZeroLGR.RingBuffer
