import Mathlib.Logic.Function.Iterate
import PorthCore.Ports.RingBuffer

/-!
# `push` and `pop` one memory access at a time

A thread inside `push` or `pop` is at a control point carrying the locals it
has loaded so far.  `PushPc.step` and `PopPc.step` give the next control point
and the access to shared memory, from the ring as the thread's load sees it;
which ring that is (the current one, or one with a stale index of the other
side) is the choice of the memory model on top.

`push_steps` and `pop_steps` tie the control points to the whole calls: run
without interference they compute exactly `push` and `pop`.
-/

namespace PorthCore.Ports.RingSteps

open PorthCore.Ports.RingBuffer

/-- A write to shared memory, or none. -/
inductive Access
  | none
  | writeSlot (slot : UInt32) (desc : PorthDescriptor)
  | storeHead (v : UInt32)
  | storeTail (v : UInt32)

/-- The access on a ring whose memory is sequentially consistent. -/
def Access.apply (ring : PorthRingBuffer) : Access → PorthRingBuffer
  | .none => ring
  | .writeSlot slot desc =>
      { ring with buffer := Function.update ring.buffer slot.toNat desc }
  | .storeHead v => { ring with head := v }
  | .storeTail v => { ring with tail := v }

/-- Control points of `push`; `idle` is outside the call. -/
inductive PushPc
  | idle
  | loadHead (desc : PorthDescriptor)
  | loadTail (desc : PorthDescriptor) (h : UInt32)
  | fullTest (desc : PorthDescriptor) (h t : UInt32)
  | slotWrite (desc : PorthDescriptor) (h : UInt32)
  | storeHead (desc : PorthDescriptor) (h : UInt32)
  deriving DecidableEq

/-- Control points of `pop`. -/
inductive PopPc
  | idle
  | loadTail
  | loadHead (t : UInt32)
  | emptyTest (t h : UInt32)
  | slotRead (t : UInt32)
  | storeTail (t : UInt32) (desc : PorthDescriptor)
  deriving DecidableEq

/-- The access of `push` from a program counter, with the ring it sees. -/
def PushPc.step (size : UInt64) (seen : PorthRingBuffer) : PushPc → Access × PushPc
  | .idle => (.none, .idle)
  | .loadHead desc => (.none, .loadTail desc seen.head)
  | .loadTail desc h => (.none, .fullTest desc h seen.tail)
  | .fullTest desc h t =>
      if advance size h = t.toUInt64 then (.none, .idle) else (.none, .slotWrite desc h)
  | .slotWrite desc h => (.writeSlot h desc, .storeHead desc h)
  | .storeHead _ h => (.storeHead (advance size h).toUInt32, .idle)

/-- The access of `pop` from a program counter, with the ring it sees. -/
def PopPc.step (size : UInt64) (seen : PorthRingBuffer) : PopPc → Access × PopPc
  | .idle => (.none, .idle)
  | .loadTail => (.none, .loadHead seen.tail)
  | .loadHead t => (.none, .emptyTest t seen.head)
  | .emptyTest t h => if h = t then (.none, .idle) else (.none, .slotRead t)
  | .slotRead t => (.none, .storeTail t (seen.buffer t.toNat))
  | .storeTail t _ => (.storeTail (advance size t).toUInt32, .idle)

/-- The descriptor a step at this point accepts: the store of `m_head` is what
makes `push` return true. -/
def PushPc.accepts : PushPc → List PorthDescriptor
  | .storeHead desc _ => [desc]
  | _ => []

/-- The descriptor a step at this point hands out: the store of `m_tail` is
what makes `pop` return true. -/
def PopPc.returns : PopPc → List PorthDescriptor
  | .storeTail _ desc => [desc]
  | _ => []

/-- One step of a pushing thread that runs alone. -/
def pushAlone (size : UInt64) (s : PorthRingBuffer × PushPc) : PorthRingBuffer × PushPc :=
  ((s.2.step size s.1).1.apply s.1, (s.2.step size s.1).2)

/-- One step of a popping thread that runs alone. -/
def popAlone (size : UInt64) (s : PorthRingBuffer × PopPc) : PorthRingBuffer × PopPc :=
  ((s.2.step size s.1).1.apply s.1, (s.2.step size s.1).2)

/-- Five uninterrupted steps are one `push`; a refused call is done after
three of them and idles. -/
theorem push_steps (size : UInt64) (ring : PorthRingBuffer) (desc : PorthDescriptor) :
    (pushAlone size)^[5] (ring, .loadHead desc) = ((push size ring desc).2, .idle) := by
  by_cases hfull : advance size ring.head = ring.tail.toUInt64
  · simp [pushAlone, PushPc.step, Access.apply, push, hfull]
  · simp [pushAlone, PushPc.step, Access.apply, push, hfull]

theorem pop_steps (size : UInt64) (ring : PorthRingBuffer) (out : PorthDescriptor) :
    (popAlone size)^[5] (ring, .loadTail) = ((pop size ring out).2.2, .idle) := by
  by_cases hempty : ring.head = ring.tail
  · simp [popAlone, PopPc.step, Access.apply, pop, hempty]
  · simp [popAlone, PopPc.step, Access.apply, pop, hempty]

end PorthCore.Ports.RingSteps
