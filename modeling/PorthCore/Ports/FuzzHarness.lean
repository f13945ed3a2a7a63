import PorthCore.Verified.Transition
import PorthCore.Ports.RingBuffer

/-!
# The differential fuzz test, on any device

`fuzz_ring_buffer.cpp` pushes one sequence of descriptors into a ring and into
a mutex-guarded reference queue, and compares what a second thread pops from
the two.  `Harness` is the test without the ring: the answers of `dut.push` and
`dut.pop` are labels, so its runs are those of the test on any device whatever.
`PorthCore.Ports.FuzzRing` runs it on the ring.

The assertions are on: a failed one ends the process.  `OPERATIONS` is a
parameter `n`, the draws of `addr_dist` are a parameter `draw`.
-/

namespace PorthCore.Ports.FuzzHarness

open PorthCore.Verified.Transition
open PorthCore.Verified.Transition.System
open PorthCore.Ports.RingBuffer

/-! ## The generated sequence -/

/-- The descriptor of turn `i` of the producer. -/
def desc (draw : Nat → UInt64) (i : Nat) : PorthDescriptor :=
  { addr := draw i, len := UInt32.ofNat i }

/-- The descriptors of the first `k` turns. -/
def sent (draw : Nat → UInt64) (k : Nat) : List PorthDescriptor :=
  (List.range k).map (desc draw)

section Sent

variable {draw : Nat → UInt64}

@[simp] theorem length_sent (k : Nat) : (sent draw k).length = k := by
  rw [sent, List.length_map, List.length_range]

theorem sent_succ (k : Nat) : sent draw (k + 1) = sent draw k ++ [desc draw k] := by
  rw [sent, List.range_succ, List.map_append]
  rfl

theorem sent_isPrefix {j k : Nat} (h : j ≤ k) : sent draw j <+: sent draw k := by
  induction h with
  | refl => exact List.prefix_refl _
  | @step k _ ih =>
      rw [sent_succ]
      exact ih.trans (List.prefix_append _ _)

/-- An initial part of the sequence is the descriptors of so many turns. -/
theorem eq_sent_of_prefix {l : List PorthDescriptor} {k : Nat} (h : l <+: sent draw k) :
    l = sent draw l.length := by
  have hle : l.length ≤ k := by
    have hlength := h.length_le
    rwa [length_sent] at hlength
  refine List.IsPrefix.eq_of_length ?_ (length_sent _).symm
  exact List.prefix_of_prefix_length_le h (sent_isPrefix hle) (by rw [length_sent])

end Sent

/-! ## The test on any device -/

/-- What `producer_task` does next; `i` is its turn. -/
inductive ProducerPc
  | push (i : Nat)
  | refPush (i : Nat)
  | count (i : Nat)
  | setDone
  | stopped
  deriving DecidableEq, Repr

/-- The assertions of `verify_transfer`. -/
inductive Assertion
  | noReference
  | dataMismatch
  | metadataMismatch
  deriving DecidableEq, Repr

/-- What `consumer_task` does next. -/
inductive ConsumerPc
  | loopTest
  | pop
  | verifyTransfer (outDut : PorthDescriptor)
  | count
  | stopped
  | aborted (failed : Assertion)
  deriving DecidableEq, Repr

/-- The reference queue, the flag, the two counters and the two threads.
`received` is an auxiliary variable: everything `dut.pop` has returned. -/
structure Harness where
  ref : List PorthDescriptor
  producerDone : Bool
  pushedCount : Nat
  poppedCount : Nat
  producer : ProducerPc
  consumer : ConsumerPc
  received : List PorthDescriptor
  deriving DecidableEq, Repr

/-- A step: the answer of the device to a call, or an access to the reference
queue, the flag or a counter. -/
inductive Op
  | pushReturns (ok : Bool)
  | refPush
  | countPush
  | setDone
  | loopTest
  | popReturns (out : Option PorthDescriptor)
  | verifyTransfer
  | countPop
  deriving DecidableEq, Repr

/-- The turn is one of the loop. -/
def ProducerPc.Within (n : Nat) : ProducerPc → Prop
  | .push i | .refPush i | .count i => i < n
  | .setDone | .stopped => True

/-- The turns whose descriptor is in the reference queue or has left it. -/
def ProducerPc.referenced (n : Nat) : ProducerPc → Nat
  | .push i | .refPush i => i
  | .count i => i + 1
  | .setDone | .stopped => n

/-- The turns whose descriptor `dut.push` has taken. -/
def ProducerPc.pushed (n : Nat) : ProducerPc → Nat
  | .push i => i
  | .refPush i | .count i => i + 1
  | .setDone | .stopped => n

theorem ProducerPc.Within.referenced_le {n : Nat} {pc : ProducerPc} (h : pc.Within n) :
    pc.referenced n ≤ n := by
  cases pc with
  | push i | refPush i => exact Nat.le_of_lt h
  | count i => exact h
  | setDone | stopped => exact Nat.le_refl n

theorem ProducerPc.Within.pushed_le {n : Nat} {pc : ProducerPc} (h : pc.Within n) :
    pc.pushed n ≤ n := by
  cases pc with
  | push i => exact Nat.le_of_lt h
  | refPush i | count i => exact h
  | setDone | stopped => exact Nat.le_refl n

/-- The descriptor that waits for its comparison. -/
def ConsumerPc.pending : ConsumerPc → List PorthDescriptor
  | .verifyTransfer outDut => [outDut]
  | _ => []

/-- The head of the producer's `for` loop. -/
def turn (n i : Nat) : ProducerPc := if i < n then .push i else .setDone

namespace Harness

/-- The harness before its threads start, for `n` descriptors. -/
def start (n : Nat) : Harness :=
  { ref := []
    producerDone := false
    pushedCount := 0
    poppedCount := 0
    producer := turn n 0
    consumer := .loopTest
    received := [] }

/-- An assertion has failed and the process is gone. -/
def Aborted (s : Harness) : Prop := ∃ failed, s.consumer = .aborted failed

instance (s : Harness) : Decidable s.Aborted :=
  match h : s.consumer with
  | .aborted failed => .isTrue ⟨failed, h⟩
  | .loopTest | .pop | .verifyTransfer _ | .count | .stopped =>
      .isFalse fun ⟨_, heq⟩ => by cases h.symm.trans heq

/-- `verify_transfer`: the pop of the reference queue and the assertions. -/
def verified (s : Harness) (outDut : PorthDescriptor) : Harness :=
  match s.ref with
  | [] => { s with consumer := .aborted .noReference }
  | outRef :: rest =>
      { s with
        ref := rest
        consumer :=
          if outDut.addr ≠ outRef.addr then .aborted .dataMismatch
          else if outDut.len ≠ outRef.len then .aborted .metadataMismatch
          else .count }

/-- What an act of a thread does; `draw` are the random descriptors. -/
def moved (n : Nat) (draw : Nat → UInt64) (s : Harness) : Op → Option Harness
  | .pushReturns ok =>
      match s.producer with
      | .push i => some { s with producer := if ok then .refPush i else .push i }
      | _ => none
  | .refPush =>
      match s.producer with
      | .refPush i => some { s with ref := s.ref ++ [desc draw i], producer := .count i }
      | _ => none
  | .countPush =>
      match s.producer with
      | .count i => some { s with pushedCount := s.pushedCount + 1, producer := turn n (i + 1) }
      | _ => none
  | .setDone =>
      match s.producer with
      | .setDone => some { s with producerDone := true, producer := .stopped }
      | _ => none
  | .loopTest =>
      match s.consumer with
      | .loopTest =>
          some { s with
            consumer := if !s.producerDone || s.poppedCount < n then .pop else .stopped }
      | _ => none
  | .popReturns out =>
      match s.consumer, out with
      | .pop, some outDut =>
          some { s with
            consumer := .verifyTransfer outDut
            received := s.received ++ [outDut] }
      | .pop, none => some { s with consumer := .loopTest }
      | _, _ => none
  | .verifyTransfer =>
      match s.consumer with
      | .verifyTransfer outDut => some (s.verified outDut)
      | _ => none
  | .countPop =>
      match s.consumer with
      | .count => some { s with poppedCount := s.poppedCount + 1, consumer := .loopTest }
      | _ => none

/-- The act, unless the test has aborted. -/
def step (n : Nat) (draw : Nat → UInt64) (s : Harness) (op : Op) : Option Harness :=
  if s.Aborted then none else s.moved n draw op

/-- The test on a device that may answer anything. -/
def system (n : Nat) (draw : Nat → UInt64) : System Harness Op := ofStep (· = start n) (step n draw)

/-! ### The invariant -/

/-- How many comparisons have passed. -/
def passed (s : Harness) : Nat :=
  match s.consumer with
  | .count => s.poppedCount + 1
  | _ => s.poppedCount

/-- As long as no assertion has failed, the passed comparisons and the
reference queue together are what the producer has put into it. -/
structure Inv (n : Nat) (draw : Nat → UInt64) (s : Harness) : Prop where
  within : s.producer.Within n
  done : s.producerDone = true ↔ s.producer = .stopped
  reference : ¬s.Aborted → sent draw s.passed ++ s.ref = sent draw (s.producer.referenced n)
  received : ¬s.Aborted → s.received = sent draw s.passed ++ s.consumer.pending
  finished : s.consumer = .stopped → s.producerDone = true ∧ n ≤ s.poppedCount

variable {n : Nat} {draw : Nat → UInt64} {s t : Harness} {op : Op}

theorem turn_within (n i : Nat) : (turn n i).Within n := by
  unfold turn
  split
  · assumption
  · trivial

theorem turn_ne_stopped (n i : Nat) : turn n i ≠ .stopped := by
  unfold turn
  split <;> exact nofun

/-- The loop head neither adds to nor takes from the reference queue. -/
theorem turn_referenced {n i : Nat} (h : i ≤ n) : (turn n i).referenced n = i := by
  unfold turn
  split
  · rfl
  · exact Nat.le_antisymm (Nat.le_of_not_lt ‹_›) h

theorem not_aborted (hconsumer : ∀ failed, s.consumer ≠ .aborted failed) : ¬s.Aborted :=
  fun ⟨failed, h⟩ => hconsumer failed h

theorem step_eq_some (h : s.step n draw op = some t) :
    ¬s.Aborted ∧ s.moved n draw op = some t := by
  unfold step at h
  split at h
  · cases h
  · exact ⟨‹_›, h⟩

theorem Inv.start : Inv n draw (start n) where
  within := turn_within n 0
  done := iff_of_false nofun (turn_ne_stopped n 0)
  reference := fun _ => by
    rw [Harness.start, turn_referenced (Nat.zero_le n)]
    rfl
  received := fun _ => rfl
  finished := nofun

/-- A comparison passes if the reference queue has the same descriptor at its
head, and aborts otherwise. -/
theorem verified_cases (s : Harness) (outDut : PorthDescriptor) :
    (∃ rest, s.ref = outDut :: rest ∧
        s.verified outDut = { s with ref := rest, consumer := .count }) ∨
      (¬[outDut] <+: s.ref ∧ ∃ failed rest,
        s.verified outDut = { s with ref := rest, consumer := .aborted failed } ∧
          (failed = .noReference ↔ s.ref = [])) := by
  unfold verified
  cases href : s.ref with
  | nil => exact .inr ⟨by simp, .noReference, [], by simp [← href], by simp⟩
  | cons outRef rest =>
      by_cases haddr : outDut.addr = outRef.addr
      · by_cases hlen : outDut.len = outRef.len
        · have heq : outDut = outRef := by
            cases outDut
            cases outRef
            simp_all
          exact .inl ⟨rest, by rw [heq], by simp [heq]⟩
        · have hne : outDut ≠ outRef := fun heq => hlen (congrArg _ heq)
          exact .inr ⟨by simpa using hne, .metadataMismatch, rest, by simp [haddr, hlen], by simp⟩
      · have hne : outDut ≠ outRef := fun heq => haddr (congrArg _ heq)
        exact .inr ⟨by simpa using hne, .dataMismatch, rest, by simp [haddr], by simp⟩

namespace Inv

theorem not_done (h : Inv n draw s) (hmoving : s.producer ≠ .stopped) :
    s.producerDone = false := by
  by_contra hset
  exact hmoving (h.done.mp (by simpa using hset))

/-- A step of the producer, which the consumer sees only through the reference
queue and the flag. -/
theorem produce (h : Inv n draw s) (hmoving : s.producer ≠ .stopped)
    {ref : List PorthDescriptor} {done : Bool} {pushedCount : Nat} {producer : ProducerPc}
    (hwithin : producer.Within n) (hdone : done = true ↔ producer = .stopped)
    (href : sent draw s.passed ++ s.ref = sent draw (s.producer.referenced n) →
      sent draw s.passed ++ ref = sent draw (producer.referenced n)) :
    Inv n draw
      { s with
        ref := ref
        producerDone := done
        pushedCount := pushedCount
        producer := producer } where
  within := hwithin
  done := hdone
  reference := fun hlive => href (h.reference hlive)
  received := h.received
  finished := fun hstopped => absurd (h.done.mp (h.finished hstopped).1) hmoving

/-- A step of the consumer that leaves the reference queue alone. -/
theorem consume (h : Inv n draw s) {poppedCount : Nat} {consumer : ConsumerPc}
    {received : List PorthDescriptor} (hlive : ¬s.Aborted)
    (hpassed : passed { s with poppedCount := poppedCount, consumer := consumer } = s.passed)
    (hreceived : received = sent draw s.passed ++ consumer.pending)
    (hfinished : consumer = .stopped → s.producerDone = true ∧ n ≤ poppedCount) :
    Inv n draw
      { s with poppedCount := poppedCount, consumer := consumer, received := received } where
  within := h.within
  done := h.done
  reference := fun _ => (congrArg (sent draw · ++ s.ref) hpassed).trans (h.reference hlive)
  received := fun _ => hreceived.trans (congrArg (sent draw · ++ consumer.pending) hpassed.symm)
  finished := hfinished

/-- A comparison that passes has compared the descriptor of the next turn. -/
theorem verify_passed (h : Inv n draw s) {outDut : PorthDescriptor}
    {rest : List PorthDescriptor} (hpc : s.consumer = .verifyTransfer outDut)
    (href : s.ref = outDut :: rest) :
    s.passed < s.producer.referenced n ∧ outDut = desc draw s.passed := by
  have hlive : ¬s.Aborted := not_aborted (by simp [hpc])
  have hseq := h.reference hlive
  rw [href] at hseq
  have hprefix : sent draw s.passed ++ [outDut] <+: sent draw (s.producer.referenced n) := by
    rw [← hseq]
    exact ⟨rest, by simp⟩
  have hlen := hprefix.length_le
  have heq := eq_sent_of_prefix hprefix
  simp only [List.length_append, List.length_singleton, length_sent] at hlen heq
  rw [sent_succ] at heq
  exact ⟨hlen, List.singleton_inj.mp (List.append_cancel_left heq)⟩

private theorem verify (h : Inv n draw s) {outDut : PorthDescriptor}
    (hpc : s.consumer = .verifyTransfer outDut) : Inv n draw (s.verified outDut) := by
  have hlive : ¬s.Aborted := not_aborted (by simp [hpc])
  rcases s.verified_cases outDut with
    ⟨rest, href, hverified⟩ | ⟨-, failed, rest, hverified, -⟩
  · obtain ⟨-, hdesc⟩ := h.verify_passed hpc href
    have hpassed : s.passed = s.poppedCount := by simp [passed, hpc]
    have hseq := h.reference hlive
    have hrec := h.received hlive
    rw [hpassed] at hdesc hseq hrec
    rw [href, hdesc] at hseq
    rw [hpc, ConsumerPc.pending, hdesc] at hrec
    rw [hverified]
    exact
      { within := h.within
        done := h.done
        reference := fun _ => by
          rw [passed, sent_succ, List.append_assoc]
          exact hseq
        received := fun _ => by
          rw [passed, sent_succ, hrec]
          exact (List.append_nil _).symm
        finished := nofun }
  · rw [hverified]
    exact
      { within := h.within
        done := h.done
        reference := fun hlive' => absurd ⟨failed, rfl⟩ hlive'
        received := fun hlive' => absurd ⟨failed, rfl⟩ hlive'
        finished := nofun }

theorem step (h : Inv n draw s) (hstep : s.step n draw op = some t) : Inv n draw t := by
  obtain ⟨hlive, hmoved⟩ := step_eq_some hstep
  have hwithin := h.within
  cases op with
  | pushReturns ok =>
      simp only [moved] at hmoved
      split at hmoved
      · next i hpc =>
          cases hmoved
          rw [hpc] at hwithin
          have hdone := h.not_done (by simp [hpc])
          refine h.produce (by simp [hpc]) ?_ ?_ ?_
          · cases ok <;> exact hwithin
          · cases ok <;> simp [hdone]
          · rw [hpc]
            cases ok <;> exact id
      · cases hmoved
  | refPush =>
      simp only [moved] at hmoved
      split at hmoved
      · next i hpc =>
          cases hmoved
          rw [hpc] at hwithin
          have hdone := h.not_done (by simp [hpc])
          refine h.produce (by simp [hpc]) hwithin (by simp [hdone]) ?_
          intro hseq
          rw [hpc, ProducerPc.referenced] at hseq
          rw [ProducerPc.referenced, sent_succ, ← List.append_assoc, hseq]
      · cases hmoved
  | countPush =>
      simp only [moved] at hmoved
      split at hmoved
      · next i hpc =>
          cases hmoved
          rw [hpc] at hwithin
          have hdone := h.not_done (by simp [hpc])
          refine h.produce (by simp [hpc]) (turn_within n _) ?_ ?_
          · exact iff_of_false (by simp [hdone]) (turn_ne_stopped n _)
          · rw [hpc, ProducerPc.referenced, turn_referenced hwithin]
            exact id
      · cases hmoved
  | setDone =>
      simp only [moved] at hmoved
      split at hmoved
      · next hpc =>
          cases hmoved
          refine h.produce (by simp [hpc]) trivial (iff_of_true rfl rfl) ?_
          rw [hpc]
          exact id
      · cases hmoved
  | loopTest =>
      simp only [moved] at hmoved
      split at hmoved
      · next hpc =>
          cases hmoved
          have hrec := h.received hlive
          rw [hpc] at hrec
          by_cases hgo : (!s.producerDone || s.poppedCount < n) = true
          · rw [if_pos hgo]
            exact h.consume hlive (by simp [passed, hpc]) hrec nofun
          · rw [if_neg hgo]
            refine h.consume hlive (by simp [passed, hpc]) hrec fun _ => ?_
            simp only [Bool.or_eq_true, not_or, decide_eq_true_eq, Nat.not_lt] at hgo
            exact ⟨by simpa using hgo.1, hgo.2⟩
      · cases hmoved
  | popReturns out =>
      simp only [moved] at hmoved
      split at hmoved
      · next outDut hpc =>
          cases hmoved
          refine h.consume hlive (by simp [passed, hpc]) ?_ nofun
          rw [h.received hlive, hpc]
          simp [ConsumerPc.pending]
      · next hpc =>
          cases hmoved
          refine h.consume hlive (by simp [passed, hpc]) ?_ nofun
          rw [h.received hlive, hpc]
          rfl
      · cases hmoved
  | verifyTransfer =>
      simp only [moved] at hmoved
      split at hmoved
      · next outDut hpc =>
          cases hmoved
          exact h.verify hpc
      · cases hmoved
  | countPop =>
      simp only [moved] at hmoved
      split at hmoved
      · next hpc =>
          cases hmoved
          refine h.consume hlive (by simp [passed, hpc]) ?_ nofun
          rw [h.received hlive, hpc]
          rfl
      · cases hmoved

theorem of_reachable (h : (system n draw).Reachable s) : Inv n draw s :=
  h.invariant (fun _ hs => hs ▸ Inv.start) (fun _ _ _ hs hstep => hs.step hstep)

end Inv

/-- **The test is an exact judge of any device**: a test that ends has popped
the generated sequence, and a comparison fails exactly if what the device has
returned so far, the compared descriptor included, is not an initial part of
what is in the reference queue or has passed through it. -/
theorem judges_any_device (h : (system n draw).Reachable s) :
    (s.consumer = .stopped → s.received = sent draw n) ∧
      ∀ outDut t, s.consumer = .verifyTransfer outDut →
        s.step n draw .verifyTransfer = some t →
          (t.Aborted ↔ ¬s.received <+: sent draw (s.producer.referenced n)) := by
  have hinv := Inv.of_reachable h
  refine ⟨?_, ?_⟩
  · intro hstopped
    have hlive : ¬s.Aborted := not_aborted (by simp [hstopped])
    obtain ⟨hdone, hall⟩ := hinv.finished hstopped
    have hseq := hinv.reference hlive
    rw [hinv.done.mp hdone, ProducerPc.referenced] at hseq
    have hprefix : sent draw s.passed <+: sent draw n := ⟨s.ref, hseq⟩
    have hle := hprefix.length_le
    rw [length_sent, length_sent] at hle
    have hpassed : s.passed = n :=
      Nat.le_antisymm hle (by simpa [passed, hstopped] using hall)
    rw [hinv.received hlive, hpassed, hstopped]
    exact List.append_nil _
  · intro outDut t hpc hstep
    obtain ⟨hlive, hmoved⟩ := step_eq_some hstep
    have hverified : s.verified outDut = t := by simpa [moved, hpc] using hmoved
    subst hverified
    have hrec : s.received = sent draw s.passed ++ [outDut] := by
      rw [hinv.received hlive, hpc]
      rfl
    rw [hrec, ← hinv.reference hlive, List.prefix_append_right_inj]
    rcases s.verified_cases outDut with ⟨rest, href, hverified⟩ | ⟨hnot, failed, _, hverified, -⟩
    · have hpass : ¬(s.verified outDut).Aborted := not_aborted (by simp [hverified])
      exact iff_of_false hpass fun hnot => hnot (href ▸ ⟨rest, rfl⟩)
    · exact iff_of_true ⟨failed, by rw [hverified]⟩ hnot

/-- A device that returns another descriptor than the one it was given. -/
def forging : List Op :=
  [.pushReturns true, .refPush, .loopTest, .popReturns (some { addr := 7, len := 0 })]

theorem judges_any_device_forging :
    ∃ s t, (system 1 fun _ => 5).Reachable s ∧
      s.step 1 (fun _ => 5) .verifyTransfer = some t ∧
      (t.Aborted ↔ ¬s.received <+: sent (fun _ => 5) (s.producer.referenced 1)) ∧ t.Aborted := by
  obtain ⟨s, hexec, hpc⟩ := exec_of_any (step 1 fun _ => 5) (start 1) forging
    (fun s => s.consumer = .verifyTransfer { addr := 7, len := 0 } ∧
      ((s.step 1 (fun _ => 5) .verifyTransfer).any fun t => t.Aborted)) (by decide)
  simp only [Bool.decide_and, Bool.and_eq_true, decide_eq_true_eq, Option.any_eq_true] at hpc
  obtain ⟨hat, t, hstep, haborted⟩ := hpc
  have hreach : (system 1 fun _ => 5).Reachable s := reachable_of_exec rfl hexec
  exact ⟨s, t, hreach, hstep, (judges_any_device hreach).2 _ t hat hstep, by simpa using haborted⟩

end Harness

end PorthCore.Ports.FuzzHarness
