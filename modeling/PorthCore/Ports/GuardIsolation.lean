import PorthCore.Verified.Transition
import PorthCore.Ports.SimDevice

/-!
# What the guard keeps out once it is primed

`ChaosGuard` asks which address the guard latches; here some pass has latched
one, and anything may follow: turns of the physics loop with any draws,
corruption and deadlock switched at will, memory changing under the device,
and host writes to every register but `counter`.

The state keeps the account of what passes have done since: the addresses
they dereferenced and the descriptors they popped, each with the ring it came
from.  `guard_isolates` says that the account only ever names the latched
ring, and that it is the whole story of `counter`.
-/

namespace PorthCore.Ports.GuardIsolation

open PorthCore.Verified.Transition
open PorthCore.Ports.RingBuffer
open PorthCore.Ports.SimDevice

/-- The device and memory, the addresses dereferenced so far and the
descriptors popped so far, with their rings. -/
structure PrimedTwin where
  sim : PorthSimDevice
  mem : Heap
  accessed : List UInt64
  popped : List (UInt64 × PorthDescriptor)

/-- What a pass popped, and from which ring. -/
def poppedBy (pass : DmaPass) : List (UInt64 × PorthDescriptor) :=
  pass.target.toList.flatMap fun addr => pass.popped.map fun slot => (addr, slot.2)

namespace PrimedTwin

/-- The twin after a turn with the outcome `r`. -/
def iterated (s : PrimedTwin) (r : PorthSimDevice × Heap × Option DmaPass) : PrimedTwin where
  sim := r.1
  mem := r.2.1
  accessed := s.accessed ++ (r.2.2.bind (·.target)).toList
  popped := s.popped ++ r.2.2.toList.flatMap poppedBy

/-- One step of the twin. -/
def step (s : PrimedTwin) (op : TwinOp) (t : PrimedTwin) : Prop :=
  match op with
  | .iterate pick bit =>
      ∃ fuel r, physicsIteration fuel pick bit s.sim s.mem = some r ∧ t = s.iterated r
  | .triggerCorruption on => t = { s with sim := { s.sim with corruptStatus := on } }
  | .triggerDeadlock on => t = { s with sim := { s.sim with injectDeadlock := on } }
  | .hostWrite dev =>
      dev.counter = s.sim.dev.counter ∧ t = { s with sim := { s.sim with dev := dev } }
  | .hostMemory mem => t = { s with mem := mem }

/-- Some pass has let `a` through, on whatever device and memory it found, and
left the latch as it is; the account is empty and `counter` stands at
`counter₀`. -/
structure Start (a counter₀ : UInt64) (s : PrimedTwin) : Prop where
  latched : ∃ fuel sim₀ mem₀ pass, processDma fuel sim₀ mem₀ = some pass ∧
    pass.target = some a ∧ s.sim.lastValidShuttle = pass.sim.lastValidShuttle
  counter : s.sim.dev.counter = counter₀
  accessed : s.accessed = []
  popped : s.popped = []

/-- The chaos modes of a twin primed with the shuttle at `a`. -/
def system (a counter₀ : UInt64) : System PrimedTwin TwinOp :=
  { init := Start a counter₀, step := step }

/-! ## The invariant -/

/-- The latch stays, every access was to the shuttle, and the counter counts
what was popped there. -/
structure Inv (a counter₀ : UInt64) (s : PrimedTwin) : Prop where
  ne_zero : a ≠ 0
  latch : s.sim.lastValidShuttle = a
  accessed : ∀ addr ∈ s.accessed, addr = a
  counter : s.sim.dev.counter = counter₀ + UInt64.ofNat s.popped.length
  popped : ∀ entry ∈ s.popped, entry.1 = a

variable {a counter₀ : UInt64} {s t : PrimedTwin}

theorem start_inv (h : Start a counter₀ s) : Inv a counter₀ s := by
  obtain ⟨fuel, sim₀, mem₀, pass, hpass, htarget, hlatch⟩ := h.latched
  have hdma := (processDma_target hpass).symm.trans htarget
  obtain ⟨haddr, hne, -, hexpected⟩ := dmaTarget_eq_some.mp hdma
  refine
    { ne_zero := haddr ▸ hne
      latch := ?_
      accessed := by simp [h.accessed]
      counter := by simp [h.counter, h.popped]
      popped := by simp [h.popped] }
  rw [hlatch]
  rcases processDma_latch hpass with hsame | ⟨-, hset⟩
  · rcases hexpected with hzero | hsome
    · rcases processDma_cases hpass with ⟨hnone, -⟩ | ⟨addr, d, hsome, -, rfl⟩
      · rw [hdma] at hnone
        cases hnone
      · simp only [hzero, if_true]
        exact Option.some.inj htarget
    · rw [hsame, haddr, hsome]
  · exact (Option.some.inj (htarget.symm.trans hset)).symm

/-- With the latch on `a` the guards let through `a` or nothing. -/
theorem Inv.dmaTarget_eq (h : Inv a counter₀ s) {addr : UInt64}
    (htarget : dmaTarget s.sim.dev.dataPtr s.sim.lastValidShuttle = some addr) :
    addr = a ∧ s.sim.dev.dataPtr = a := by
  obtain ⟨rfl, -, -, hexpected⟩ := dmaTarget_eq_some.mp htarget
  rw [h.latch] at hexpected
  exact ⟨hexpected.resolve_left h.ne_zero, hexpected.resolve_left h.ne_zero⟩

private theorem Inv.nextTarget_eq (h : Inv a counter₀ s) :
    s.sim.nextTarget = none ∨ s.sim.nextTarget = some a := by
  cases htarget : s.sim.nextTarget with
  | none => exact .inl rfl
  | some addr =>
      unfold PorthSimDevice.nextTarget at htarget
      split at htarget
      · cases htarget
      · rw [(h.dmaTarget_eq htarget).1]
        exact .inr rfl

/-- What a turn does to a primed device: nothing but its own registers, or a
drain of the ring at `a`, which `data_ptr` then names. -/
theorem Inv.iterate_cases (h : Inv a counter₀ s) {fuel : Nat} {pick bit : Fin 32}
    {r : PorthSimDevice × Heap × Option DmaPass}
    (hr : physicsIteration fuel pick bit s.sim s.mem = some r) :
    r.1.lastValidShuttle = a ∧
      ((r.2.1 = s.mem ∧ r.2.2.bind (·.target) = none ∧ r.2.2.toList.flatMap poppedBy = [] ∧
          r.1.dev.counter = s.sim.dev.counter) ∨
        ∃ d : Drain, s.sim.dev.dataPtr = a ∧ r.2.1 = Function.update s.mem a d.ring ∧
          r.2.2.bind (·.target) = some a ∧
          r.2.2.toList.flatMap poppedBy = d.popped.map (fun slot => (a, slot.2)) ∧
          r.1.dev.counter = s.sim.dev.counter + UInt64.ofNat d.popped.length) := by
  obtain ⟨sim', mem', made⟩ := r
  rcases physicsIteration_eq_some hr with ⟨-, rfl, rfl, rfl⟩ | ⟨-, pass, hpass, rfl, rfl, rfl⟩
  · exact ⟨h.latch, .inl ⟨rfl, rfl, rfl, rfl⟩⟩
  · simp only [applyChaosEffects_latch, updateThermalModel_latch, applyChaosEffects_counter,
      updateThermalModel_counter]
    rcases processDma_cases hpass with ⟨-, rfl⟩ | ⟨addr, d, htarget, hdrain, rfl⟩
    · exact ⟨h.latch, .inl ⟨rfl, rfl, rfl, rfl⟩⟩
    · obtain ⟨rfl, hptr⟩ := h.dmaTarget_eq htarget
      obtain ⟨-, -, -, hcounter⟩ := drain_facts hdrain
      refine ⟨?_, .inr ⟨d, hptr, rfl, rfl, ?_, hcounter⟩⟩
      · simp only [h.latch, h.ne_zero, if_false]
      · simp [poppedBy]

theorem Inv.iterated (h : Inv a counter₀ s) {fuel : Nat} {pick bit : Fin 32}
    {r : PorthSimDevice × Heap × Option DmaPass}
    (hr : physicsIteration fuel pick bit s.sim s.mem = some r) :
    Inv a counter₀ (s.iterated r) := by
  obtain ⟨hlatch, hquiet | hdrain⟩ := h.iterate_cases hr
  · obtain ⟨-, htarget, hpopped, hcounter⟩ := hquiet
    exact
      { ne_zero := h.ne_zero
        latch := hlatch
        accessed := by simpa [PrimedTwin.iterated, htarget] using h.accessed
        counter := by
          simp only [PrimedTwin.iterated, hpopped, List.append_nil]
          rw [hcounter, h.counter]
        popped := by simpa only [PrimedTwin.iterated, hpopped, List.append_nil] using h.popped }
  · obtain ⟨d, -, -, htarget, hpopped, hcounter⟩ := hdrain
    refine
      { ne_zero := h.ne_zero
        latch := hlatch
        accessed := ?_
        counter := ?_
        popped := ?_ }
    · intro addr haddr
      simp only [PrimedTwin.iterated, htarget, List.mem_append, Option.mem_toList,
        Option.some.injEq] at haddr
      rcases haddr with haddr | haddr
      · exact h.accessed addr haddr
      · exact haddr.symm
    · simp only [PrimedTwin.iterated, hpopped]
      rw [hcounter, h.counter, List.length_append, List.length_map, UInt64.ofNat_add,
        UInt64.add_assoc]
    · intro entry hentry
      simp only [PrimedTwin.iterated, hpopped, List.mem_append, List.mem_map] at hentry
      rcases hentry with hentry | ⟨slot, -, rfl⟩
      · exact h.popped entry hentry
      · rfl

theorem Inv.step {op : TwinOp} (h : Inv a counter₀ s) (hstep : PrimedTwin.step s op t) :
    Inv a counter₀ t := by
  cases op with
  | iterate pick bit =>
      obtain ⟨fuel, r, hr, rfl⟩ := hstep
      exact h.iterated hr
  | triggerCorruption on =>
      subst hstep
      exact { h with }
  | triggerDeadlock on =>
      subst hstep
      exact { h with }
  | hostWrite dev =>
      obtain ⟨hcounter, rfl⟩ := hstep
      exact { h with counter := hcounter.trans h.counter }
  | hostMemory mem =>
      subst hstep
      exact { h with }

theorem reachable_inv (h : (system a counter₀).Reachable s) : Inv a counter₀ s :=
  System.Reachable.invariant (I := Inv a counter₀) (fun _ hs => start_inv hs)
    (fun _ _ _ hs hstep => hs.step hstep) h

/-! ## Turns that find another address -/

/-- A turn that finds anything but `a` in `data_ptr` ends, and has touched
neither memory nor the account. -/
theorem Inv.turned_away (h : Inv a counter₀ s) (hptr : s.sim.dev.dataPtr ≠ a)
    (pick bit : Fin 32) :
    (∃ t, PrimedTwin.step s (.iterate pick bit) t) ∧
      ∀ t, PrimedTwin.step s (.iterate pick bit) t →
        t.accessed = s.accessed ∧ t.popped = s.popped ∧ t.mem = s.mem ∧
          t.sim.dev.counter = s.sim.dev.counter ∧ t.sim.lastValidShuttle = a := by
  constructor
  · have hnone : dmaTarget s.sim.dev.dataPtr s.sim.lastValidShuttle = none := by
      cases htarget : dmaTarget s.sim.dev.dataPtr s.sim.lastValidShuttle with
      | none => rfl
      | some addr => exact absurd (h.dmaTarget_eq htarget).2 hptr
    have hsome : (physicsIteration 0 pick bit s.sim s.mem).isSome := by
      cases hdead : s.sim.injectDeadlock with
      | true => simp [physicsIteration, hdead]
      | false => simp [physicsIteration, hdead, processDma_reject, hnone]
    obtain ⟨r, hr⟩ := Option.isSome_iff_exists.mp hsome
    exact ⟨s.iterated r, 0, r, hr, rfl⟩
  · rintro t ⟨fuel, r, hr, rfl⟩
    obtain ⟨hlatch, ⟨hmem, htarget, hpopped, hcounter⟩ | ⟨d, hsame, -⟩⟩ := h.iterate_cases hr
    · refine ⟨?_, ?_, hmem, hcounter, hlatch⟩
      · simp [PrimedTwin.iterated, htarget]
      · simp only [PrimedTwin.iterated, hpopped, List.append_nil]
    · exact absurd hsame hptr

/-- Only the ring at `a` changes in a turn. -/
theorem Inv.mem_frame (h : Inv a counter₀ s) {pick bit : Fin 32}
    (hstep : PrimedTwin.step s (.iterate pick bit) t) {addr : UInt64} (hne : addr ≠ a) :
    t.mem addr = s.mem addr := by
  obtain ⟨fuel, r, hr, rfl⟩ := hstep
  obtain ⟨-, ⟨hmem, -⟩ | ⟨d, -, hmem, -⟩⟩ := h.iterate_cases hr
  · show r.2.1 addr = s.mem addr
    rw [hmem]
  · show r.2.1 addr = s.mem addr
    rw [hmem, Function.update_of_ne hne]

/-- **A primed guard isolates the device.**  After any run from a state in
which some pass has latched `a`: the latch is `a`; every address dereferenced
since is `a`, and so is the one the next turn dereferences, if any; a turn
that finds another value in `data_ptr` ends without an access to any ring and
leaves memory, `counter` and the latch alone; other rings never change in a
turn; and `counter` has risen by the number of descriptors popped since, all
of them from the ring at `a`. -/
theorem guard_isolates (h : (system a counter₀).Reachable s) :
    s.sim.lastValidShuttle = a ∧
      (∀ addr ∈ s.accessed, addr = a) ∧
      (s.sim.nextTarget = none ∨ s.sim.nextTarget = some a) ∧
      (∀ pick bit, s.sim.dev.dataPtr ≠ a →
        (∃ t, PrimedTwin.step s (.iterate pick bit) t) ∧
          ∀ t, PrimedTwin.step s (.iterate pick bit) t →
            t.accessed = s.accessed ∧ t.popped = s.popped ∧ t.mem = s.mem ∧
              t.sim.dev.counter = s.sim.dev.counter ∧ t.sim.lastValidShuttle = a) ∧
      (∀ pick bit t, PrimedTwin.step s (.iterate pick bit) t →
        ∀ addr, addr ≠ a → t.mem addr = s.mem addr) ∧
      s.sim.dev.counter = counter₀ + UInt64.ofNat s.popped.length ∧
      ∀ entry ∈ s.popped, entry.1 = a := by
  have hinv := reachable_inv h
  refine ⟨hinv.latch, hinv.accessed, hinv.nextTarget_eq, ?_, ?_, hinv.counter, hinv.popped⟩
  · intro pick bit hptr
    exact hinv.turned_away hptr pick bit
  · intro pick bit t hstep addr hne
    exact hinv.mem_frame hstep hne

/-! ## A pointer corrupted after the first pass -/

/-- A device about to make its first pass over the empty ring at `0x400000`. -/
def attached : PorthSimDevice :=
  { PorthSimDevice.fresh with
    dev := { PorthSimDevice.fresh.dev with dataPtr := 0x400000 }
    corruptStatus := true }

/-- Two descriptors queued at every address. -/
def sampleHeap : Heap := fun _ =>
  { PorthRingBuffer.fresh (fun _ => { addr := 0x1000, len := 64 }) with head := 2 }

/-- The device once that pass has latched the address, with two descriptors
queued since. -/
def sampleStart : PrimedTwin where
  sim := { attached with lastValidShuttle := 0x400000 }
  mem := sampleHeap
  accessed := []
  popped := []

theorem sampleStart_start : Start 0x400000 0 sampleStart where
  latched := by
    refine ⟨1, attached, fun _ => .fresh fun _ => default, ?_⟩
    rw [processDma_accept (a := .fourMiB) _ _ rfl (.inl rfl)]
    exact ⟨_, rfl, rfl, rfl⟩
  counter := rfl
  accessed := rfl
  popped := rfl

/-- A turn in which chaos flips `bit` of the register it picks. -/
def flipTurn (pick bit : Fin 32) (s : PrimedTwin) : PrimedTwin :=
  s.iterated (turnWithin 3 pick bit s.sim s.mem)

theorem step_flipTurn {pick bit : Fin 32} (h : (physicsIteration 3 pick bit s.sim s.mem).isSome) :
    PrimedTwin.step s (.iterate pick bit) (s.flipTurn pick bit) :=
  ⟨3, _, physicsIteration_within h, rfl⟩

/-- The first turn drains the ring and corrupts the pointer, the second is
turned away. -/
theorem guard_isolates_after_flip :
    let s := sampleStart.flipTurn 29 21
    let t := s.flipTurn 29 21
    s.sim.dev.dataPtr = 0x600000 ∧ t.popped.length = 2 ∧
      t.sim.dev.counter = 0 + UInt64.ofNat t.popped.length := by
  intro s t
  have hstart : (system 0x400000 0).Reachable sampleStart :=
    System.Reachable.of_init sampleStart_start
  have hfirst : (system 0x400000 0).Reachable s :=
    hstart.step (a := TwinOp.iterate 29 21) (step_flipTurn (by decide +kernel))
  have hsecond : (system 0x400000 0).Reachable t :=
    hfirst.step (a := TwinOp.iterate 29 21) (step_flipTurn (by decide +kernel))
  have hmain := guard_isolates hsecond
  exact ⟨by decide +kernel, by decide +kernel, hmain.2.2.2.2.2.1⟩

end PrimedTwin

end PorthCore.Ports.GuardIsolation
