import PorthCore.Verified.Transition
import PorthCore.Ports.SimDevice

/-!
# `force_buffer_overflow` beside a device that drains

The drill pushes the same descriptor 2048 times into a ring of 1024 and ignores
every answer.  The physics thread may drain the ring meanwhile, so that a push
and a round of the drain loop come in any order.

The drill is one more producer: what was queued before stays ahead of it and is
delivered as it was, and the ring takes exactly what it has room for
(`drill_delivers`).
-/

namespace PorthCore.Ports.OverflowDrill

open PorthCore.Verified.Transition
open PorthCore.Verified.Transition.System
open PorthCore.Ports.RingBuffer
open PorthCore.Ports.SimDevice

/-- What the drill pushes. -/
def junk : PorthDescriptor := { addr := 0xDEADBEEF, len := 64 }

/-- `SIM_OVERFLOW_ITERATIONS`. -/
def simOverflowIterations : Nat := 2048

/-- The ring and the device's counter; how many pushes were tried and taken,
and what the device has popped. -/
structure Drill where
  ring : PorthRingBuffer
  counter : UInt64
  tried : Nat
  accepted : Nat
  popped : List PorthDescriptor

/-- A push of the drill, or a round of the device. -/
inductive DrillAct
  | push
  | round
  deriving DecidableEq, Repr

namespace Drill

/-- A turn of the loop in `force_buffer_overflow`. -/
def afterPush (s : Drill) : Drill :=
  let r := push simDefaultShuttleSize s.ring junk
  { s with
    ring := r.2
    tried := s.tried + 1
    accepted := s.accepted + r.1.toNat }

/-- One step of the drill or of the device. -/
def step (s : Drill) : DrillAct → Option Drill
  | .push => if s.tried < simOverflowIterations then some s.afterPush else none
  | .round =>
      (dmaRound simDefaultShuttleSize s.ring s.counter).map fun r =>
        { s with
          ring := r.2.1
          counter := r.2.2
          popped := s.popped ++ [r.1] }

variable {queued q : List PorthDescriptor} {counter : UInt64} {s t : Drill} {pos : Nat}

/-- The drill begins on a ring that queues `queued`. -/
structure Start (queued : List PorthDescriptor) (counter : UInt64) (s : Drill) : Prop where
  ring : ∃ pos, Represents .default1024 s.ring pos queued
  counter : s.counter = counter
  tried : s.tried = 0
  accepted : s.accepted = 0
  popped : s.popped = []

/-- A drill of a shuttle that queues `queued`, beside the device. -/
def system (queued : List PorthDescriptor) (counter : UInt64) : System Drill DrillAct :=
  .ofStep (Start queued counter) step

/-- The ring queues `q`: what is left of `queued` and of the junk taken.  No
push was turned away, or the ring has been full. -/
structure Filling (queued : List PorthDescriptor) (counter : UInt64) (s : Drill) (pos : Nat)
    (q : List PorthDescriptor) : Prop where
  ring : Represents .default1024 s.ring pos q
  inOrder : s.popped ++ q = queued ++ List.replicate s.accepted junk
  counter : s.counter = counter + UInt64.ofNat s.popped.length
  tried : s.tried ≤ simOverflowIterations
  filled : s.accepted = s.tried ∨ 1023 ≤ queued.length + s.accepted

namespace Filling

theorem length_eq (h : Filling queued counter s pos q) :
    s.popped.length + q.length = queued.length + s.accepted := by
  have hlength := congrArg List.length h.inOrder
  rwa [List.length_append, List.length_append, List.length_replicate] at hlength

theorem start (h : Start queued counter s) : ∃ pos, Filling queued counter s pos queued := by
  obtain ⟨pos, hring⟩ := h.ring
  exact
    ⟨pos,
      { ring := hring
        inOrder := by rw [h.popped, h.accepted]; exact (List.append_nil queued).symm
        counter := by rw [h.popped, h.counter]; exact (UInt64.add_zero _).symm
        tried := by rw [h.tried]; exact Nat.zero_le _
        filled := .inl (by rw [h.accepted, h.tried]) }⟩

theorem push (h : Filling queued counter s pos q) (htried : s.tried < simOverflowIterations) :
    ∃ q', Filling queued counter s.afterPush pos q' := by
  have hlength := h.length_eq
  have hsize : simDefaultShuttleSize = RingGeometry.default1024.size :=
    RingGeometry.default1024_size.symm
  simp only [afterPush, hsize]
  by_cases hroom : q.length + 1 < RingGeometry.default1024.period
  · obtain ⟨hok, hring⟩ := push_room h.ring hroom junk
    rw [hok]
    refine ⟨q ++ [junk],
      { ring := hring
        inOrder := ?_
        counter := h.counter
        tried := htried
        filled := ?_ }⟩
    · show s.popped ++ (q ++ [junk]) = queued ++ List.replicate (s.accepted + 1) junk
      rw [List.replicate_succ', ← List.append_assoc, h.inOrder, List.append_assoc]
    · exact h.filled.imp (congrArg (· + 1)) fun hfull => Nat.le_succ_of_le hfull
  · have hlt := h.ring.room
    rw [RingGeometry.default1024_period] at hroom hlt
    rw [push_full h.ring (by rw [RingGeometry.default1024_period]; omega) junk]
    refine ⟨q, { h with tried := htried, filled := .inr ?_ }⟩
    show 1023 ≤ queued.length + s.accepted
    omega

theorem round (h : Filling queued counter s pos q) (hst : s.step .round = some t) :
    ∃ pos' q', Filling queued counter t pos' q' := by
  obtain ⟨r, hround, rfl⟩ := Option.map_eq_some_iff.mp hst
  have hsize : simDefaultShuttleSize = RingGeometry.default1024.size :=
    RingGeometry.default1024_size.symm
  rw [hsize] at hround
  cases q with
  | nil =>
      rw [dmaRound_empty h.ring] at hround
      cases hround
  | cons desc q =>
      obtain ⟨ring', hcons, hring, -, -⟩ := dmaRound_cons h.ring s.counter
      obtain rfl := Option.some.inj (hcons.symm.trans hround)
      refine ⟨pos + 1, q, { h with ring := hring, inOrder := ?_, counter := ?_ }⟩
      · rw [List.append_assoc]
        exact h.inOrder
      · show s.counter + 1 = _
        rw [h.counter, List.length_append, UInt64.ofNat_add, UInt64.add_assoc]
        rfl

theorem step (h : Filling queued counter s pos q) {act : DrillAct} (hst : s.step act = some t) :
    ∃ pos' q', Filling queued counter t pos' q' := by
  cases act with
  | push =>
      obtain ⟨htried, rfl⟩ := of_guard hst
      obtain ⟨q', hnext⟩ := h.push htried
      exact ⟨pos, q', hnext⟩
  | round => exact h.round hst

end Filling

private theorem filling_of_reachable (h : (system queued counter).Reachable s) :
    ∃ pos q, Filling queued counter s pos q := by
  refine h.invariant (I := fun s => ∃ pos q, Filling queued counter s pos q) ?_ ?_
  · intro s hs
    obtain ⟨pos, hfilling⟩ := Filling.start hs
    exact ⟨pos, queued, hfilling⟩
  · rintro s act t ⟨pos, q, hs⟩ hst
    exact hs.step hst

/-- **The drill fills the ring and hurts nothing in it.**  At every point the
device has popped, in order, what was queued before and then junk, and the rest
of both is queued.  The ring never takes more junk than its 1023 places and the
rounds so far allow, and over the 2048 pushes it takes at least what its free
places hold.  A drain that follows pops all the rest and leaves `counter` ahead
by what was queued and the junk taken. -/
theorem drill_delivers (h : (system queued counter).Reachable s) :
    ∃ pos q, Represents .default1024 s.ring pos q ∧
      s.popped ++ q = queued ++ List.replicate s.accepted junk ∧
      queued.length + s.accepted ≤ 1023 + s.popped.length ∧
      (s.tried = simOverflowIterations → 1023 ≤ queued.length + s.accepted) ∧
      ∀ fuel, q.length < fuel →
        ∃ d, drain simDefaultShuttleSize fuel s.ring s.counter = some d ∧
          d.popped.map Prod.snd = q ∧
          d.counter = counter + UInt64.ofNat (queued.length + s.accepted) := by
  obtain ⟨pos, q, hs⟩ := filling_of_reachable h
  have hlength := hs.length_eq
  have hroom := hs.ring.room
  rw [RingGeometry.default1024_period] at hroom
  refine ⟨pos, q, hs.ring, hs.inOrder, by omega, ?_, ?_⟩
  · intro hall
    rcases hs.filled with hnone | hfull
    · rw [hnone, hall]
      exact Nat.le_trans (by decide) (Nat.le_add_left simOverflowIterations _)
    · exact hfull
  · intro fuel hfuel
    obtain ⟨d, hdrain, -, hpopped, hcounter, -⟩ := drain_represents hs.ring s.counter hfuel
    rw [RingGeometry.default1024_size] at hdrain
    refine ⟨d, hdrain, hpopped, ?_⟩
    rw [hcounter, hs.counter, UInt64.add_assoc, ← UInt64.ofNat_add, hlength]

/-! ## One descriptor queued, two pushes and a round -/

/-- A descriptor queued before the drill. -/
def sampleQueued : PorthDescriptor := { addr := 0x1000, len := 64 }

/-- A fresh ring that has taken one descriptor. -/
def sampleStart : Drill where
  ring := (push 1024 (.fresh fun _ => default) sampleQueued).2
  counter := 0
  tried := 0
  accepted := 0
  popped := []

theorem sampleStart_start : Start [sampleQueued] 0 sampleStart where
  ring := by
    have hpush := (push_room (represents_fresh .default1024 fun _ => default) (by decide)
      sampleQueued).2
    rw [RingGeometry.default1024_size] at hpush
    exact ⟨0, hpush⟩
  counter := rfl
  tried := rfl
  accepted := rfl
  popped := rfl

theorem drill_delivers_one_round :
    ∃ s : Drill, s.popped = [sampleQueued] ∧ s.accepted = 2 ∧
      ∃ q, s.popped ++ q = [sampleQueued] ++ List.replicate s.accepted junk := by
  obtain ⟨s, hexec, hs⟩ := exec_of_any step sampleStart [.push, .round, .push]
    (fun s => s.popped = [sampleQueued] ∧ s.accepted = 2) (by decide)
  obtain ⟨hpopped, haccepted⟩ := of_decide_eq_true hs
  obtain ⟨-, q, -, horder, -⟩ := drill_delivers (reachable_of_exec sampleStart_start hexec)
  exact ⟨s, hpopped, haccepted, q, horder⟩

end Drill

end PorthCore.Ports.OverflowDrill
