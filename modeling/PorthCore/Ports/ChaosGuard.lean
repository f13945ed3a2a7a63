import PorthCore.Verified.Transition
import PorthCore.Ports.SimDevice

/-!
# What the chaos guard lets through

The physics loop of a fresh device, turn by turn, with corruption and deadlock
switched on and off at will, any draws, and drivers writing to `data_ptr`
between turns 0 or the address of a ring they own.

The guard takes the first aligned non-zero address it meets for a driver's.
Once it has met one it lets through nothing else, whatever is flipped
afterwards; the danger is all in the turns before (`Primed`).  If those find
in `data_ptr` what a driver last wrote there, or something the guard turns
away anyway, every address ever dereferenced was written by a driver
(`dereferenced_written`).
-/

namespace PorthCore.Ports.ChaosGuard

open PorthCore.Verified.Transition
open PorthCore.Ports.RingBuffer
open PorthCore.Ports.SimDevice

/-- The device and memory, the addresses drivers have written to `data_ptr`
and the last value they wrote, and the addresses passes have dereferenced. -/
structure PhysicsLoop where
  sim : PorthSimDevice
  mem : Heap
  written : List UInt64
  lastWritten : UInt64
  dereferenced : List UInt64

/-- A turn of the physics loop, a setting of the tests, or a store of a driver
to `data_ptr`. -/
inductive LoopOp
  | iterate (pick bit : Fin 32)
  | triggerCorruption (on : Bool)
  | triggerDeadlock (on : Bool)
  | publish (a : RingAddress)
  | clear
  | own (a : RingAddress) (ring : PorthRingBuffer)

namespace PhysicsLoop

/-- The loop after a turn with the outcome `r`. -/
def iterated (s : PhysicsLoop) (r : PorthSimDevice × Heap × Option DmaPass) : PhysicsLoop :=
  { s with
    sim := r.1
    mem := r.2.1
    dereferenced := s.dereferenced ++ (r.2.2.bind (·.target)).toList }

/-- A driver's write to `data_ptr`. -/
def wrote (s : PhysicsLoop) (v : UInt64) : PhysicsLoop :=
  { s with
    sim := { s.sim with dev := { s.sim.dev with dataPtr := v } }
    lastWritten := v }

/-- One step of the loop or of its surroundings. -/
def step (s : PhysicsLoop) (op : LoopOp) (t : PhysicsLoop) : Prop :=
  match op with
  | .iterate pick bit =>
      ∃ fuel r, physicsIteration fuel pick bit s.sim s.mem = some r ∧ t = s.iterated r
  | .triggerCorruption on => t = { s with sim := { s.sim with corruptStatus := on } }
  | .triggerDeadlock on => t = { s with sim := { s.sim with injectDeadlock := on } }
  | .publish a => t = { s.wrote a.addr with written := a.addr :: s.written }
  | .clear => t = s.wrote 0
  | .own a ring => t = { s with mem := Function.update s.mem a.addr ring }

/-- A freshly created device; memory holds anything. -/
structure Start (s : PhysicsLoop) : Prop where
  sim : s.sim = .fresh
  written : s.written = []
  lastWritten : s.lastWritten = 0
  dereferenced : s.dereferenced = []

/-- A chip in any chaos mode, beside drivers that come and go. -/
def system : System PhysicsLoop LoopOp := { init := Start, step := step }

/-- While the latch is unset, a turn lets through only what a driver wrote
last. -/
def Primed (s : PhysicsLoop) : LoopOp → Prop
  | .iterate _ _ =>
      s.sim.lastValidShuttle = 0 → s.sim.nextTarget = none ∨ s.sim.nextTarget = some s.lastWritten
  | _ => True

/-! ## The invariant -/

/-- What the latch holds and what was dereferenced a driver has written. -/
structure Inv (s : PhysicsLoop) : Prop where
  lastWritten : s.lastWritten = 0 ∨ s.lastWritten ∈ s.written
  latch : s.sim.lastValidShuttle = 0 ∨ s.sim.lastValidShuttle ∈ s.written
  dereferenced : ∀ addr ∈ s.dereferenced, addr ∈ s.written

variable {s t : PhysicsLoop}

theorem start_inv (h : Start s) : Inv s where
  lastWritten := .inl h.lastWritten
  latch := .inl (by rw [h.sim]; rfl)
  dereferenced := fun addr haddr => by
    rw [h.dereferenced] at haddr
    cases haddr

private theorem nextTarget_eq_some {addr : UInt64} (h : s.sim.nextTarget = some addr) :
    addr = s.sim.dev.dataPtr ∧ addr ≠ 0 ∧
      (s.sim.lastValidShuttle = 0 ∨ addr = s.sim.lastValidShuttle) := by
  unfold PorthSimDevice.nextTarget at h
  split at h
  · cases h
  · obtain ⟨rfl, hne, -, hlatch⟩ := dmaTarget_eq_some.mp h
    exact ⟨rfl, hne, hlatch⟩

/-- What a primed turn dereferences was written by a driver. -/
theorem Inv.nextTarget_written (h : Inv s) {pick bit : Fin 32}
    (hprimed : Primed s (.iterate pick bit)) {addr : UInt64}
    (htarget : s.sim.nextTarget = some addr) : addr ∈ s.written := by
  obtain ⟨-, hne, hlatch⟩ := nextTarget_eq_some htarget
  by_cases hzero : s.sim.lastValidShuttle = 0
  · rcases hprimed hzero with hnone | hlast
    · rw [hnone] at htarget
      cases htarget
    · rw [hlast, Option.some.injEq] at htarget
      subst htarget
      exact h.lastWritten.resolve_left hne
  · have hsame := hlatch.resolve_left hzero
    exact hsame ▸ h.latch.resolve_left hzero

theorem Inv.iterated (h : Inv s) {pick bit : Fin 32} (hprimed : Primed s (.iterate pick bit))
    {fuel : Nat} {r : PorthSimDevice × Heap × Option DmaPass}
    (hr : physicsIteration fuel pick bit s.sim s.mem = some r) : Inv (s.iterated r) := by
  obtain ⟨sim', mem', made⟩ := r
  rcases physicsIteration_cases hr with ⟨-, rfl, -, hlatch⟩ | ⟨hrun, pass, rfl, -, htarget, hlatch⟩
  · refine
      { lastWritten := h.lastWritten
        latch := ?_
        dereferenced := ?_ }
    · simp only [PhysicsLoop.iterated, hlatch]
      exact h.latch
    · simp only [PhysicsLoop.iterated, Option.bind_none, Option.toList_none, List.append_nil]
      exact h.dereferenced
  · have hnext : pass.target = s.sim.nextTarget := by
      rw [htarget, PorthSimDevice.nextTarget, hrun]
      rfl
    refine
      { lastWritten := h.lastWritten
        latch := ?_
        dereferenced := ?_ }
    · rcases hlatch with hsame | ⟨-, hset⟩
      · simp only [PhysicsLoop.iterated, hsame]
        exact h.latch
      · exact .inr (h.nextTarget_written hprimed (hnext.symm.trans hset))
    · intro addr haddr
      simp only [PhysicsLoop.iterated, Option.bind_some, List.mem_append, Option.mem_toList]
        at haddr
      rcases haddr with haddr | haddr
      · exact h.dereferenced addr haddr
      · exact h.nextTarget_written hprimed (hnext.symm.trans haddr)

theorem Inv.step {op : LoopOp} (h : Inv s) (hprimed : Primed s op)
    (hstep : PhysicsLoop.step s op t) : Inv t := by
  cases op with
  | iterate pick bit =>
      obtain ⟨fuel, r, hr, rfl⟩ := hstep
      exact h.iterated hprimed hr
  | triggerCorruption on =>
      subst hstep
      exact { h with }
  | triggerDeadlock on =>
      subst hstep
      exact { h with }
  | publish a =>
      subst hstep
      exact
        { lastWritten := .inr List.mem_cons_self
          latch := h.latch.imp_right (List.mem_cons_of_mem _)
          dereferenced := fun addr haddr => List.mem_cons_of_mem _ (h.dereferenced addr haddr) }
  | clear =>
      subst hstep
      exact { h with lastWritten := .inl rfl }
  | own a ring =>
      subst hstep
      exact { h with }

theorem reachable_inv (h : (system.restrict Primed).Reachable s) : Inv s := by
  refine System.Reachable.invariant (I := Inv) (fun _ hs => start_inv hs) ?_ h
  rintro s op t hs ⟨hprimed, hstep⟩
  exact hs.step hprimed hstep

/-- **The guard follows no forged pointer once it is primed.**  In every run
in which each turn before the first accepted address finds in `data_ptr` the
value a driver wrote last, or one the guard turns away, every address
dereferenced so far was written by a driver, and so is the one the next turn
dereferences, whether its drain ends or not. -/
theorem dereferenced_written (h : (system.restrict Primed).Reachable s) :
    (∀ addr ∈ s.dereferenced, addr ∈ s.written) ∧
      ∀ pick bit, Primed s (.iterate pick bit) →
        ∀ addr, s.sim.nextTarget = some addr → addr ∈ s.written := by
  have hinv := reachable_inv h
  exact ⟨hinv.dereferenced, fun pick bit hprimed addr htarget =>
    hinv.nextTarget_written hprimed htarget⟩

/-! ## Flips before and after the handshake -/

/-- A fresh device whose memory holds empty rings. -/
def sampleStart : PhysicsLoop where
  sim := .fresh
  mem := fun _ => .fresh fun _ => default
  written := []
  lastWritten := 0
  dereferenced := []

theorem sampleStart_start : Start sampleStart where
  sim := rfl
  written := rfl
  lastWritten := rfl
  dereferenced := rfl

/-- The state after a turn whose pass finds an empty ring, with corruption on
and draws that flip bit 21 of `data_ptr`. -/
def flipTurn (s : PhysicsLoop) : PhysicsLoop :=
  s.iterated (turnWithin 1 29 21 s.sim s.mem)

theorem step_flipTurn (h : (physicsIteration 1 29 21 s.sim s.mem).isSome) :
    PhysicsLoop.step s (.iterate 29 21) s.flipTurn :=
  ⟨1, _, physicsIteration_within h, rfl⟩

/-- Corruption from the start. -/
def corrupted : PhysicsLoop :=
  { sampleStart with sim := { sampleStart.sim with corruptStatus := true } }

theorem corrupted_step : PhysicsLoop.step sampleStart (.triggerCorruption true) corrupted := rfl

/-- The handshake after it. -/
def handshake : PhysicsLoop :=
  { corrupted.wrote RingAddress.fourMiB.addr with written := [RingAddress.fourMiB.addr] }

theorem dereferenced_written_after_handshake :
    handshake.flipTurn.flipTurn.dereferenced = [RingAddress.fourMiB.addr] ∧
      ∀ addr ∈ handshake.flipTurn.flipTurn.dereferenced,
        addr ∈ handshake.flipTurn.flipTurn.written := by
  have hstart : (system.restrict Primed).Reachable sampleStart :=
    System.Reachable.of_init sampleStart_start
  have hcorrupted : (system.restrict Primed).Reachable corrupted :=
    hstart.step (a := LoopOp.triggerCorruption true) ⟨trivial, corrupted_step⟩
  have hhandshake : (system.restrict Primed).Reachable handshake :=
    hcorrupted.step (a := LoopOp.publish RingAddress.fourMiB) ⟨trivial, rfl⟩
  have hfirst : (system.restrict Primed).Reachable handshake.flipTurn := by
    refine hhandshake.step (a := LoopOp.iterate 29 21) ⟨?_, step_flipTurn (by decide +kernel)⟩
    intro _
    exact .inr (by decide +kernel)
  have hsecond : (system.restrict Primed).Reachable handshake.flipTurn.flipTurn := by
    refine hfirst.step (a := LoopOp.iterate 29 21) ⟨?_, step_flipTurn (by decide +kernel)⟩
    intro hzero
    exact absurd hzero (by decide +kernel)
  exact ⟨by decide +kernel, (dereferenced_written hsecond).1⟩

/-- The first turn flips bit 21 of a `data_ptr` no driver has written; the
second follows it. -/
theorem forged_pointer_followed :
    system.Reachable corrupted.flipTurn.flipTurn ∧
      corrupted.flipTurn.flipTurn.dereferenced = [0x200000] ∧
      corrupted.flipTurn.flipTurn.written = [] := by
  have hstart : system.Reachable sampleStart := System.Reachable.of_init sampleStart_start
  have hcorrupted : system.Reachable corrupted :=
    hstart.step (a := LoopOp.triggerCorruption true) corrupted_step
  have hfirst : system.Reachable corrupted.flipTurn :=
    hcorrupted.step (a := LoopOp.iterate 29 21) (step_flipTurn (by decide +kernel))
  have hsecond : system.Reachable corrupted.flipTurn.flipTurn :=
    hfirst.step (a := LoopOp.iterate 29 21) (step_flipTurn (by decide +kernel))
  exact ⟨hsecond, by decide +kernel, by decide +kernel⟩

end PhysicsLoop

end PorthCore.Ports.ChaosGuard
