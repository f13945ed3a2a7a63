import PorthCore.Verified.BoundedFifo
import PorthCore.Ports.RingBuffer

/-!
# The ring buffer refines a bounded FIFO queue

One call on the ring and one call on the abstract queue of capacity
`period - 1` give the same answer and stay related by `Represents`, so every
sequence of calls on a fresh ring is answered exactly as the queue answers it.
The queue is recovered from the two indices alone; how often they have wrapped
is hidden in the position of the abstraction relation.
-/

namespace PorthCore.Ports.RingFifo

open PorthCore.Verified.Transition
open PorthCore.Verified.BoundedFifo
open PorthCore.Ports.RingBuffer

/-- One call on the ring, answering with what its caller sees. -/
def ringStep (size : UInt64) (ring : PorthRingBuffer) :
    Op PorthDescriptor → Obs PorthDescriptor × PorthRingBuffer
  | .push desc => (.pushed (push size ring desc).1, (push size ring desc).2)
  | .pop out =>
      (.popped (pop size ring out).1 (pop size ring out).2.1, (pop size ring out).2.2)

/-- `q` is queued in `ring`. -/
def Queues (g : RingGeometry) (ring : PorthRingBuffer) (q : List PorthDescriptor) : Prop :=
  ∃ pos, Represents g ring pos q

variable {g : RingGeometry} {ring : PorthRingBuffer} {q : List PorthDescriptor}

theorem Queues.push_true_iff (h : Queues g ring q) (desc : PorthDescriptor) :
    (push g.size ring desc).1 = true ↔ q.length < g.period - 1 := by
  obtain ⟨pos, hrep⟩ := h
  have hlt := hrep.room
  by_cases hfull : q.length + 1 = g.period
  · rw [push_full hrep hfull]
    simp only [Bool.false_eq_true, false_iff]
    omega
  · have hpush := push_room hrep (by omega) desc
    simp only [hpush.1, true_iff]
    omega

private theorem Queues.pop_true_iff (h : Queues g ring q) (out : PorthDescriptor) :
    (pop g.size ring out).1 = true ↔ 0 < q.length := by
  obtain ⟨pos, hrep⟩ := h
  cases q with
  | nil => simp [pop_empty hrep]
  | cons desc q => simp [(pop_cons hrep out).1]

/-- The simulation step: same answer, and the ring still queues what the
abstract queue holds. -/
theorem ringStep_simulates (g : RingGeometry) :
    Simulates (Queues g) (ringStep g.size) (step (g.period - 1)) := by
  rintro ring q op ⟨pos, hrep⟩
  have hlt := hrep.room
  cases op with
  | push desc =>
      by_cases hfull : q.length + 1 = g.period
      · rw [step_push_of_ge desc (by omega)]
        simp only [ringStep, push_full hrep hfull]
        exact ⟨trivial, pos, hrep⟩
      · obtain ⟨hok, hnext⟩ := push_room hrep (by omega) desc
        rw [step_push_of_lt desc (by omega)]
        simp only [ringStep, hok]
        exact ⟨trivial, pos, hnext⟩
  | pop out =>
      cases q with
      | nil =>
          simp only [ringStep, pop_empty hrep, step_pop_nil]
          exact ⟨trivial, pos, hrep⟩
      | cons desc rest =>
          obtain ⟨hok, hout, hnext⟩ := pop_cons hrep out
          simp only [ringStep, step_pop_cons, hok, hout]
          exact ⟨trivial, pos + 1, hnext⟩

/-- Every word of calls on a fresh ring is answered as by the abstract queue,
and the ring ends up queueing what that queue holds. -/
theorem fresh_ring_run (g : RingGeometry) (slots : Nat → PorthDescriptor)
    (ops : List (Op PorthDescriptor)) :
    outputs (ringStep g.size) (.fresh slots) ops = outputs (step (g.period - 1)) [] ops ∧
      Queues g (final (ringStep g.size) (.fresh slots) ops)
        (final (step (g.period - 1)) [] ops) :=
  (ringStep_simulates g).run ops _ _ ⟨0, represents_fresh g slots⟩

/-- **Refinement.** For every power-of-two `SIZE` from 2 to `2^32`, every
initial array and every sequence of calls on a fresh ring: the answers are
those of a FIFO queue of capacity `SIZE - 1`; what was accepted is what was
delivered followed by what is still queued; the next push succeeds exactly
when fewer than `SIZE - 1` are queued, the next pop exactly when one is; and a
call that fails changes neither the ring nor the output parameter. -/
theorem ring_refines_bounded_fifo (g : RingGeometry) (hsize : g.log2 ≤ 32)
    (slots : Nat → PorthDescriptor) (ops : List (Op PorthDescriptor)) :
    let obs := outputs (ringStep g.size) (.fresh slots) ops
    let ring := final (ringStep g.size) (.fresh slots) ops
    let q := final (step (g.size.toNat - 1)) [] ops
    obs = outputs (step (g.size.toNat - 1)) [] ops ∧
      accepted ops obs = delivered obs ++ q ∧
      (∀ desc, (push g.size ring desc).1 = true ↔ q.length < g.size.toNat - 1) ∧
      (∀ out, (pop g.size ring out).1 = true ↔ 0 < q.length) ∧
      (∀ desc, (push g.size ring desc).1 = false → (push g.size ring desc).2 = ring) ∧
      (∀ out, (pop g.size ring out).1 = false → (pop g.size ring out).2 = (out, ring)) := by
  intro obs ring q
  have hperiod : g.period = g.size.toNat := by
    rw [g.period_eq hsize, g.size_toNat]
  obtain ⟨hobs, hqueue⟩ := fresh_ring_run g slots ops
  rw [hperiod] at hobs hqueue
  refine ⟨hobs, ?_, ?_, hqueue.pop_true_iff, fun _ h => push_false h,
    fun _ h => pop_false h⟩
  · have hhist := history (g.size.toNat - 1) ops ([] : List PorthDescriptor)
    rw [List.nil_append, ← hobs] at hhist
    exact hhist
  · intro desc
    rw [hqueue.push_true_iff, hperiod]

/-- Two pushes and two pops at `SIZE = 4`. -/
theorem ring_refines_bounded_fifo_size_four :
    outputs (ringStep (RingGeometry.size ⟨2, by decide, by decide⟩))
        (.fresh fun _ => default)
        [.push ⟨0x1000, 64⟩, .push ⟨0x2000, 128⟩, .pop default, .pop default] =
      [.pushed true, .pushed true, .popped true ⟨0x1000, 64⟩, .popped true ⟨0x2000, 128⟩] :=
  (ring_refines_bounded_fifo ⟨2, by decide, by decide⟩ (by decide) (fun _ => default)
    [.push ⟨0x1000, 64⟩, .push ⟨0x2000, 128⟩, .pop default, .pop default]).1.trans
    (by decide)

end PorthCore.Ports.RingFifo
