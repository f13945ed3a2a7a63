import PorthCore.Ports.RingBuffer

/-!
# The Digital Twin: register file, DMA drain and physics loop

The registers are `PorthDeviceLayout`, field for field.  `processDma` is one
whole pass over the ring named by `data_ptr`, `physicsIteration` one turn of
`run_physics_loop`; the sleeps and spin delays in between have no effect on
the state and are left out, and so is the TLP log.

Memory is seen through the pointer cast the source makes: `Heap` says which
ring object is found at an address.  It is total, because the cast is; whether
anything lives at an address is not the device's business.

The drain loop has no bound of its own, so it takes fuel.  `drain_represents`
gives the fuel that is enough when the mask of the pass fits the ring, and
`drain_facts` says what any drain that ends has done.
-/

namespace PorthCore.Ports.SimDevice

open PorthCore.Verified.Circular
open PorthCore.Ports.RingBuffer

/-- The memory-mapped register file. -/
structure PorthDeviceLayout where
  control : UInt32
  status : UInt32
  dataPtr : UInt64
  counter : UInt64
  laserTemp : UInt32
  ganVoltage : UInt32
  rfSnr : Int32
  safetyTrip : UInt32
  deriving DecidableEq, Repr

/-- The thermal state of `PorthSimPHY`. -/
structure PorthSimPHY where
  currentTempMc : UInt32
  deriving DecidableEq, Repr

/-- The device: its registers, its PHY, the chaos switches and the latch of
the first address a pass accepted. -/
structure PorthSimDevice where
  dev : PorthDeviceLayout
  phy : PorthSimPHY
  injectDeadlock : Bool
  corruptStatus : Bool
  lastValidShuttle : UInt64
  deriving DecidableEq, Repr

/-- A device as its constructor leaves it on a fresh, zero-filled segment,
before the physics thread runs. -/
def PorthSimDevice.fresh : PorthSimDevice :=
  { dev :=
      { control := 0
        status := 0
        dataPtr := 0
        counter := 0
        laserTemp := 25000
        ganVoltage := 0
        rfSnr := 0
        safetyTrip := 0 }
    phy := { currentTempMc := 25000 }
    injectDeadlock := false
    corruptStatus := false
    lastValidShuttle := 0 }

/-- The ring object found at an address. -/
abbrev Heap := UInt64 → PorthRingBuffer

/-- An address a shuttle can have: non-zero and aligned to the cache line. -/
structure RingAddress where
  addr : UInt64
  ne_zero : addr ≠ 0
  aligned : addr &&& 0x3F = 0

private theorem twoMiB_ne_zero : (0x200000 : UInt64) ≠ 0 := by decide

private theorem twoMiB_aligned : (0x200000 : UInt64) &&& 0x3F = 0 := by decide

/-- A ring at 2 MiB. -/
def RingAddress.twoMiB : RingAddress := ⟨0x200000, twoMiB_ne_zero, twoMiB_aligned⟩

private theorem fourMiB_ne_zero : (0x400000 : UInt64) ≠ 0 := by decide

private theorem fourMiB_aligned : (0x400000 : UInt64) &&& 0x3F = 0 := by decide

/-- A ring at 4 MiB. -/
def RingAddress.fourMiB : RingAddress := ⟨0x400000, fourMiB_ne_zero, fourMiB_aligned⟩

/-! ## The DMA pass -/

/-- The depth every pass assumes, whatever ring it is pointed at. -/
def simDefaultShuttleSize : UInt64 := 1024

/-- The guards of `process_dma`: the address to be drained, if any.  `expected`
is the latch. -/
def dmaTarget (shuttleAddr expected : UInt64) : Option UInt64 :=
  if shuttleAddr = 0 then none
  else if shuttleAddr &&& 0x3F ≠ 0 then none
  else if expected ≠ 0 ∧ shuttleAddr ≠ expected then none
  else some shuttleAddr

/-- What the indices of a ring of 1024 say is queued. -/
def occupancy (ring : PorthRingBuffer) : Nat :=
  (ring.head.toNat + 1024 - ring.tail.toNat) % 1024

/-- One turn of the drain loop: a pop and the increment of `counter`. -/
def dmaRound (size : UInt64) (ring : PorthRingBuffer) (counter : UInt64) :
    Option (PorthDescriptor × PorthRingBuffer × UInt64) :=
  match pop size ring default with
  | (true, desc, ring') => some (desc, ring', counter + 1)
  | (false, _, _) => none

/-- What a finished drain leaves: the ring, the counter, and the slots read
with the descriptors found there, in order. -/
structure Drain where
  ring : PorthRingBuffer
  counter : UInt64
  popped : List (UInt32 × PorthDescriptor)

/-- `while (ring->pop(desc)) …`; `none` when the fuel runs out. -/
def drain (size : UInt64) : Nat → PorthRingBuffer → UInt64 → Option Drain
  | 0, _, _ => none
  | fuel + 1, ring, counter =>
      match dmaRound size ring counter with
      | none => some { ring := ring, counter := counter, popped := [] }
      | some (desc, ring', counter') =>
          (drain size fuel ring' counter').map fun d =>
            { d with popped := (ring.tail, desc) :: d.popped }

/-- The result of a pass: `target` is the address dereferenced as a ring. -/
structure DmaPass where
  sim : PorthSimDevice
  mem : Heap
  target : Option UInt64
  popped : List (UInt32 × PorthDescriptor)

/-- `PorthSimDevice::process_dma`. -/
def processDma (fuel : Nat) (sim : PorthSimDevice) (mem : Heap) : Option DmaPass :=
  match dmaTarget sim.dev.dataPtr sim.lastValidShuttle with
  | none => some { sim := sim, mem := mem, target := none, popped := [] }
  | some shuttleAddr =>
      (drain simDefaultShuttleSize fuel (mem shuttleAddr) sim.dev.counter).map fun d =>
        { sim :=
            { sim with
              dev := { sim.dev with counter := d.counter }
              lastValidShuttle :=
                if sim.lastValidShuttle = 0 then shuttleAddr else sim.lastValidShuttle }
          mem := Function.update mem shuttleAddr d.ring
          target := some shuttleAddr
          popped := d.popped }

/-- The pass that `fuel` is enough for; where it is not, nothing has happened. -/
def passWithin (fuel : Nat) (sim : PorthSimDevice) (mem : Heap) : DmaPass :=
  (processDma fuel sim mem).getD { sim := sim, mem := mem, target := none, popped := [] }

/-- The address the next turn dereferences as a ring. -/
def PorthSimDevice.nextTarget (sim : PorthSimDevice) : Option UInt64 :=
  if sim.injectDeadlock then none else dmaTarget sim.dev.dataPtr sim.lastValidShuttle

/-! ## The physics loop -/

/-- `PorthSimPHY::update_thermal_load`: a step of fixed size towards the
target. -/
def PorthSimPHY.updateThermalLoad (phy : PorthSimPHY) (tempMc : UInt32) : PorthSimPHY :=
  let current := phy.currentTempMc
  if current < tempMc then { currentTempMc := current + 25 }
  else if tempMc < current then { currentTempMc := current - 15 }
  else phy

/-- The voltage ramp of `update_thermal_model`. -/
def nextVoltage (control volt : UInt32) : UInt32 :=
  if control = 0x1 then
    if volt < 800000 then volt + 4000 else volt
  else if 0 < volt then
    if 8000 < volt then volt - 8000 else 0
  else volt

/-- The temperature the voltage drives the laser to. -/
def targetTemp (volt : UInt32) : UInt32 :=
  if 0 < volt then 25000 + volt / 10000 * 800 else 25000

/-- The signal-to-noise ratio published for a temperature. -/
def snrAt (temp : UInt32) : Int32 :=
  if 40000 < temp then 3000 - ((temp - 40000) / 40).toInt32 else 3000

/-- `PorthSimDevice::update_thermal_model`. -/
def updateThermalModel (sim : PorthSimDevice) : PorthSimDevice :=
  let volt := nextVoltage sim.dev.control sim.dev.ganVoltage
  let phy := sim.phy.updateThermalLoad (targetTemp volt)
  { sim with
    phy := phy
    dev :=
      { sim.dev with
        ganVoltage := volt
        rfSnr := snrAt phy.currentTempMc
        laserTemp := phy.currentTempMc } }

/-- `apply_chaos_effects` with the two draws of `bit_dist`: the first picks
the register, the second the bit. -/
def applyChaosEffects (sim : PorthSimDevice) (pick bit : Fin 32) : PorthSimDevice :=
  if sim.corruptStatus then
    if 28 < pick.val then
      { sim with
        dev := { sim.dev with dataPtr := sim.dev.dataPtr ^^^ (1 <<< UInt64.ofNat bit.val) } }
    else
      { sim with
        dev := { sim.dev with status := sim.dev.status ^^^ (1 <<< UInt32.ofNat bit.val) } }
  else sim

/-- One turn of `run_physics_loop`: the device and memory after it, and the
pass it made, if it was not frozen. -/
def physicsIteration (fuel : Nat) (pick bit : Fin 32) (sim : PorthSimDevice) (mem : Heap) :
    Option (PorthSimDevice × Heap × Option DmaPass) :=
  let sim := { sim with dev := { sim.dev with status := 0x1 } }
  if sim.injectDeadlock then some (sim, mem, none)
  else
    (processDma fuel sim mem).map fun pass =>
      (applyChaosEffects (updateThermalModel pass.sim) pick bit, pass.mem, some pass)

/-- The turn that `fuel` is enough for; where it is not, nothing has happened. -/
def turnWithin (fuel : Nat) (pick bit : Fin 32) (sim : PorthSimDevice) (mem : Heap) :
    PorthSimDevice × Heap × Option DmaPass :=
  (physicsIteration fuel pick bit sim mem).getD (sim, mem, none)

/-- A turn of the physics loop, the two switches, a host write to the register
file, and any other change of memory. -/
inductive TwinOp
  | iterate (pick bit : Fin 32)
  | triggerCorruption (on : Bool)
  | triggerDeadlock (on : Bool)
  | hostWrite (dev : PorthDeviceLayout)
  | hostMemory (mem : Heap)

/-- A turn of the physics loop, frozen or not. -/
def TwinOp.isIterate : TwinOp → Bool
  | .iterate _ _ => true
  | _ => false

/-! ## The guards -/

theorem dmaTarget_eq_some {shuttleAddr expected a : UInt64} :
    dmaTarget shuttleAddr expected = some a ↔
      a = shuttleAddr ∧ shuttleAddr ≠ 0 ∧ shuttleAddr &&& 0x3F = 0 ∧
        (expected = 0 ∨ shuttleAddr = expected) := by
  unfold dmaTarget
  by_cases hzero : shuttleAddr = 0
  · simp [hzero]
  · by_cases halign : shuttleAddr &&& 0x3F = 0
    · by_cases hlatch : expected ≠ 0 ∧ shuttleAddr ≠ expected
      · simp [hzero, halign, hlatch]
      · have hor : expected = 0 ∨ shuttleAddr = expected := by
          rcases Decidable.em (expected = 0) with h | h
          · exact .inl h
          · exact .inr (Decidable.byContradiction fun hne => hlatch ⟨h, hne⟩)
        simp only [hzero, halign, hlatch, hor, ne_eq, not_true_eq_false, not_false_eq_true,
          if_false, Option.some.injEq, and_true]
        exact eq_comm
    · simp [hzero, halign]

/-- A driver's own address passes every guard of a device that has latched
nothing else. -/
theorem dmaTarget_ring (a : RingAddress) {expected : UInt64}
    (h : expected = 0 ∨ expected = a.addr) : dmaTarget a.addr expected = some a.addr := by
  refine dmaTarget_eq_some.mpr ⟨rfl, a.ne_zero, a.aligned, ?_⟩
  rcases h with h | h
  · exact .inl h
  · exact .inr h.symm

/-- A pass over a ring the guards let through is its drain, with the latch on
that ring. -/
theorem processDma_accept {sim : PorthSimDevice} (mem : Heap) (fuel : Nat) {a : RingAddress}
    (hptr : sim.dev.dataPtr = a.addr)
    (hlatch : sim.lastValidShuttle = 0 ∨ sim.lastValidShuttle = a.addr) :
    processDma fuel sim mem =
      (drain 1024 fuel (mem a.addr) sim.dev.counter).map fun d =>
        { sim :=
            { sim with
              dev := { sim.dev with counter := d.counter }
              lastValidShuttle := a.addr }
          mem := Function.update mem a.addr d.ring
          target := some a.addr
          popped := d.popped } := by
  have hnext : (if sim.lastValidShuttle = 0 then a.addr else sim.lastValidShuttle) = a.addr := by
    rcases hlatch with h | h
    · rw [if_pos h]
    · rw [if_neg (h ▸ a.ne_zero), h]
  simp only [processDma, hptr, dmaTarget_ring a hlatch, hnext, simDefaultShuttleSize]

/-- A pass the guards turn away changes nothing. -/
theorem processDma_reject {sim : PorthSimDevice} (mem : Heap) (fuel : Nat)
    (h : dmaTarget sim.dev.dataPtr sim.lastValidShuttle = none) :
    processDma fuel sim mem = some { sim := sim, mem := mem, target := none, popped := [] } := by
  rw [processDma, h]

theorem processDma_within {fuel : Nat} {sim : PorthSimDevice} {mem : Heap}
    (h : (processDma fuel sim mem).isSome) :
    processDma fuel sim mem = some (passWithin fuel sim mem) := by
  obtain ⟨pass, hpass⟩ := Option.isSome_iff_exists.mp h
  rw [passWithin, hpass, Option.getD_some]

/-- A pass is turned away and changes nothing, or drains the ring at the
address let through, counts what it pops and sets the latch if it was unset. -/
theorem processDma_cases {fuel : Nat} {sim : PorthSimDevice} {mem : Heap} {pass : DmaPass}
    (h : processDma fuel sim mem = some pass) :
    (dmaTarget sim.dev.dataPtr sim.lastValidShuttle = none ∧
        pass = { sim := sim, mem := mem, target := none, popped := [] }) ∨
      ∃ addr d, dmaTarget sim.dev.dataPtr sim.lastValidShuttle = some addr ∧
        drain simDefaultShuttleSize fuel (mem addr) sim.dev.counter = some d ∧
        pass =
          { sim :=
              { sim with
                dev := { sim.dev with counter := d.counter }
                lastValidShuttle :=
                  if sim.lastValidShuttle = 0 then addr else sim.lastValidShuttle }
            mem := Function.update mem addr d.ring
            target := some addr
            popped := d.popped } := by
  unfold processDma at h
  cases htarget : dmaTarget sim.dev.dataPtr sim.lastValidShuttle with
  | none =>
      rw [htarget] at h
      cases h
      exact .inl ⟨rfl, rfl⟩
  | some addr =>
      rw [htarget] at h
      simp only [Option.map_eq_some_iff] at h
      obtain ⟨d, hdrain, rfl⟩ := h
      exact .inr ⟨addr, d, rfl, hdrain, rfl⟩

/-- Whatever the ring holds, the address a pass dereferences is the one the
guards let through. -/
theorem processDma_target {fuel : Nat} {sim : PorthSimDevice} {mem : Heap} {pass : DmaPass}
    (h : processDma fuel sim mem = some pass) :
    pass.target = dmaTarget sim.dev.dataPtr sim.lastValidShuttle := by
  rcases processDma_cases h with ⟨htarget, rfl⟩ | ⟨addr, d, htarget, -, rfl⟩
  · exact htarget.symm
  · exact htarget.symm

/-- The latch is set once, by the first address let through. -/
theorem processDma_latch {fuel : Nat} {sim : PorthSimDevice} {mem : Heap} {pass : DmaPass}
    (h : processDma fuel sim mem = some pass) :
    pass.sim.lastValidShuttle = sim.lastValidShuttle ∨
      sim.lastValidShuttle = 0 ∧ pass.target = some pass.sim.lastValidShuttle := by
  rcases processDma_cases h with ⟨-, rfl⟩ | ⟨addr, d, -, -, rfl⟩
  · exact .inl rfl
  · by_cases hzero : sim.lastValidShuttle = 0
    · exact .inr ⟨hzero, by simp only [hzero, if_true]⟩
    · exact .inl (by simp only [hzero, if_false])

@[simp] theorem updateThermalModel_latch (sim : PorthSimDevice) :
    (updateThermalModel sim).lastValidShuttle = sim.lastValidShuttle := rfl

/-- Chaos reaches `data_ptr` and `status` only. -/
theorem applyChaosEffects_frame (sim : PorthSimDevice) (pick bit : Fin 32) :
    ∃ dataPtr status, applyChaosEffects sim pick bit =
      { sim with dev := { sim.dev with dataPtr := dataPtr, status := status } } := by
  unfold applyChaosEffects
  split
  · split
    · exact ⟨_, sim.dev.status, rfl⟩
    · exact ⟨sim.dev.dataPtr, _, rfl⟩
  · exact ⟨sim.dev.dataPtr, sim.dev.status, rfl⟩

theorem applyChaosEffects_off {sim : PorthSimDevice} (h : sim.corruptStatus = false)
    (pick bit : Fin 32) : applyChaosEffects sim pick bit = sim := by
  simp [applyChaosEffects, h]

@[simp] theorem applyChaosEffects_latch (sim : PorthSimDevice) (pick bit : Fin 32) :
    (applyChaosEffects sim pick bit).lastValidShuttle = sim.lastValidShuttle := by
  obtain ⟨dataPtr, status, heq⟩ := applyChaosEffects_frame sim pick bit
  rw [heq]

@[simp] theorem applyChaosEffects_counter (sim : PorthSimDevice) (pick bit : Fin 32) :
    (applyChaosEffects sim pick bit).dev.counter = sim.dev.counter := by
  obtain ⟨dataPtr, status, heq⟩ := applyChaosEffects_frame sim pick bit
  rw [heq]

@[simp] theorem updateThermalModel_counter (sim : PorthSimDevice) :
    (updateThermalModel sim).dev.counter = sim.dev.counter := rfl

theorem physicsIteration_within {fuel : Nat} {pick bit : Fin 32} {sim : PorthSimDevice}
    {mem : Heap} (h : (physicsIteration fuel pick bit sim mem).isSome) :
    physicsIteration fuel pick bit sim mem = some (turnWithin fuel pick bit sim mem) := by
  obtain ⟨r, hr⟩ := Option.isSome_iff_exists.mp h
  rw [turnWithin, hr, Option.getD_some]

theorem physicsIteration_of_pass {fuel : Nat} {sim : PorthSimDevice} {mem : Heap}
    {pass : DmaPass} (hdead : sim.injectDeadlock = false)
    (hpass : processDma fuel { sim with dev := { sim.dev with status := 0x1 } } mem = some pass)
    (pick bit : Fin 32) :
    physicsIteration fuel pick bit sim mem =
      some (applyChaosEffects (updateThermalModel pass.sim) pick bit, pass.mem, some pass) := by
  unfold physicsIteration
  rw [if_neg (by simp [hdead]), hpass]
  rfl

/-- A turn of the loop is frozen and only sets `status`, or is a pass, the
thermal step and the chaos effects in that order. -/
theorem physicsIteration_eq_some {fuel : Nat} {pick bit : Fin 32} {sim sim' : PorthSimDevice}
    {mem mem' : Heap} {made : Option DmaPass}
    (h : physicsIteration fuel pick bit sim mem = some (sim', mem', made)) :
    (sim.injectDeadlock = true ∧ sim' = { sim with dev := { sim.dev with status := 0x1 } } ∧
        mem' = mem ∧ made = none) ∨
      (sim.injectDeadlock = false ∧ ∃ pass,
        processDma fuel { sim with dev := { sim.dev with status := 0x1 } } mem = some pass ∧
        sim' = applyChaosEffects (updateThermalModel pass.sim) pick bit ∧ mem' = pass.mem ∧
        made = some pass) := by
  unfold physicsIteration at h
  cases hdead : sim.injectDeadlock with
  | true =>
      simp only [hdead, if_true, Option.some.injEq, Prod.mk.injEq] at h
      obtain ⟨rfl, rfl, rfl⟩ := h
      exact .inl ⟨rfl, rfl, rfl, rfl⟩
  | false =>
      simp only [hdead, Bool.false_eq_true, if_false, Option.map_eq_some_iff,
        Prod.mk.injEq] at h
      obtain ⟨pass, hpass, rfl, rfl, rfl⟩ := h
      exact .inr ⟨rfl, pass, hpass, rfl, rfl, rfl⟩

/-- What a turn of the loop does to the latch, and what it dereferences: that
of its pass, if it makes one. -/
theorem physicsIteration_cases {fuel : Nat} {pick bit : Fin 32} {sim sim' : PorthSimDevice}
    {mem mem' : Heap} {made : Option DmaPass}
    (h : physicsIteration fuel pick bit sim mem = some (sim', mem', made)) :
    (sim.injectDeadlock = true ∧ made = none ∧ mem' = mem ∧
        sim'.lastValidShuttle = sim.lastValidShuttle) ∨
      (sim.injectDeadlock = false ∧ ∃ pass, made = some pass ∧ mem' = pass.mem ∧
        pass.target = dmaTarget sim.dev.dataPtr sim.lastValidShuttle ∧
        (sim'.lastValidShuttle = sim.lastValidShuttle ∨
          sim.lastValidShuttle = 0 ∧ pass.target = some sim'.lastValidShuttle)) := by
  rcases physicsIteration_eq_some h with
    ⟨hdead, rfl, rfl, rfl⟩ | ⟨hdead, pass, hpass, rfl, rfl, rfl⟩
  · exact .inl ⟨hdead, rfl, rfl, rfl⟩
  · have htarget := processDma_target hpass
    have hlatch := processDma_latch hpass
    refine .inr ⟨hdead, pass, rfl, rfl, htarget, ?_⟩
    simp only [applyChaosEffects_latch, updateThermalModel_latch]
    exact hlatch

/-! ## The drain loop -/

variable {g : RingGeometry} {ring : PorthRingBuffer} {pos : Nat}
  {q : List PorthDescriptor}

theorem dmaRound_empty (h : Represents g ring pos []) (counter : UInt64) :
    dmaRound g.size ring counter = none := by
  rw [dmaRound, pop_empty h]

/-- A round on a non-empty ring pops the oldest descriptor and counts it. -/
theorem dmaRound_cons {desc : PorthDescriptor} (h : Represents g ring pos (desc :: q))
    (counter : UInt64) :
    ∃ ring', dmaRound g.size ring counter = some (desc, ring', counter + 1) ∧
      Represents g ring' (pos + 1) q ∧ ring'.head = ring.head ∧
        ring'.buffer = ring.buffer := by
  have hnot : ring.head ≠ ring.tail := by
    rw [Ne, h.empty_iff]
    exact List.cons_ne_nil _ _
  refine ⟨{ ring with tail := (advance g.size ring.tail).toUInt32 }, ?_, h.store_tail, rfl, rfl⟩
  rw [dmaRound, pop, if_neg hnot, h.read_slot]

/-- With the mask of the ring's own geometry a drain ends after the last
queued descriptor, having popped exactly the queue from the slots it was laid
out in. -/
theorem drain_represents : ∀ {q : List PorthDescriptor} {ring : PorthRingBuffer} {pos : Nat},
    Represents g ring pos q → ∀ (counter : UInt64) {fuel : Nat}, q.length < fuel →
      ∃ d, drain g.size fuel ring counter = some d ∧
        Represents g d.ring (pos + q.length) [] ∧
        d.popped.map Prod.snd = q ∧
        d.counter = counter + UInt64.ofNat q.length ∧
        ∀ slot ∈ d.popped, ∃ i < q.length, slot.1.toNat = (pos + i) % g.period := by
  intro q
  induction q with
  | nil =>
      intro ring pos h counter fuel hfuel
      obtain ⟨fuel, rfl⟩ := Nat.exists_eq_succ_of_ne_zero (Nat.ne_of_gt hfuel)
      refine ⟨{ ring := ring, counter := counter, popped := [] }, ?_, h, rfl, ?_, ?_⟩
      · rw [drain, dmaRound_empty h]
      · simp
      · intro slot hslot
        cases hslot
  | cons desc q ih =>
      intro ring pos h counter fuel hfuel
      obtain ⟨fuel, rfl⟩ := Nat.exists_eq_succ_of_ne_zero (Nat.ne_of_gt (Nat.zero_lt_of_lt hfuel))
      obtain ⟨ring', hround, hnext, -, -⟩ := dmaRound_cons h counter
      obtain ⟨d, hdrain, hrep, hpopped, hcounter, hslots⟩ :=
        ih hnext (counter + 1) (Nat.lt_of_succ_lt_succ hfuel)
      refine ⟨{ d with popped := (ring.tail, desc) :: d.popped }, ?_, ?_, ?_, ?_, ?_⟩
      · rw [drain, hround]
        simp only [hdrain, Option.map_some]
      · rw [List.length_cons, show pos + (q.length + 1) = pos + 1 + q.length by omega]
        exact hrep
      · rw [List.map_cons, hpopped]
      · rw [hcounter, List.length_cons, UInt64.ofNat_add, UInt64.add_assoc,
          UInt64.add_comm 1]
        rfl
      · intro slot hslot
        rcases List.mem_cons.mp hslot with rfl | hmem
        · exact ⟨0, Nat.succ_pos _, h.tail_eq⟩
        · obtain ⟨i, hi, hslot⟩ := hslots slot hmem
          refine ⟨i + 1, Nat.succ_lt_succ hi, ?_⟩
          rw [hslot, show pos + 1 + i = pos + (i + 1) by omega]

/-- Whatever ring it was pointed at, a drain that ends has met `head`, which
it does not move, and has counted what it popped. -/
theorem drain_facts {size : UInt64} : ∀ {fuel : Nat} {ring : PorthRingBuffer}
    {counter : UInt64} {d : Drain}, drain size fuel ring counter = some d →
      d.ring.tail = ring.head ∧ d.ring.head = ring.head ∧ d.ring.buffer = ring.buffer ∧
        d.counter = counter + UInt64.ofNat d.popped.length := by
  intro fuel
  induction fuel with
  | zero => intro ring counter d h; cases h
  | succ fuel ih =>
      intro ring counter d h
      rw [drain, dmaRound] at h
      by_cases hempty : ring.head = ring.tail
      · simp only [pop, hempty, if_true, Option.some.injEq] at h
        subst h
        exact ⟨hempty.symm, rfl, rfl, by simp⟩
      · simp only [pop, hempty, if_false, Option.map_eq_some_iff] at h
        obtain ⟨d', hd', rfl⟩ := h
        obtain ⟨htail, hhead, hbuffer, hcounter⟩ := ih hd'
        refine ⟨htail, hhead, hbuffer, ?_⟩
        rw [hcounter, List.length_cons, UInt64.ofNat_add, UInt64.add_assoc, UInt64.add_comm 1]
        rfl

/-- However large the mask of the pass, a drain that ends leaves the ring
empty at the old `head`. -/
theorem drain_empties {size : UInt64} {fuel : Nat} {counter : UInt64} {d : Drain}
    (h : Represents g ring pos q) (hdrain : drain size fuel ring counter = some d) :
    Represents g d.ring ring.head.toNat [] := by
  obtain ⟨htail, hhead, -, -⟩ := drain_facts hdrain
  refine
    { tail_eq := ?_
      head_eq := ?_
      room := g.period_pos
      slots := Holds.nil _ _ _ }
  · rw [htail, Nat.mod_eq_of_lt h.head_lt]
  · rw [hhead, List.length_nil, Nat.add_zero, Nat.mod_eq_of_lt h.head_lt]

/-- More fuel does not change a drain that has ended. -/
theorem drain_mono {size : UInt64} : ∀ {fuel fuel' : Nat} {ring : PorthRingBuffer}
    {counter : UInt64} {d : Drain}, drain size fuel ring counter = some d → fuel ≤ fuel' →
      drain size fuel' ring counter = some d := by
  intro fuel
  induction fuel with
  | zero => intro fuel' ring counter d h; cases h
  | succ fuel ih =>
      intro fuel' ring counter d h hle
      obtain ⟨fuel', rfl⟩ := Nat.exists_eq_succ_of_ne_zero (show fuel' ≠ 0 by omega)
      rw [drain] at h ⊢
      cases hround : dmaRound size ring counter with
      | none => rwa [hround] at h
      | some r =>
          rw [hround] at h
          simp only [Option.map_eq_some_iff] at h ⊢
          obtain ⟨d', hd', rfl⟩ := h
          exact ⟨d', ih hd' (Nat.le_of_succ_le_succ hle), rfl⟩

private theorem processDma_mono {fuel fuel' : Nat} {sim : PorthSimDevice} {mem : Heap}
    {pass : DmaPass} (h : processDma fuel sim mem = some pass) (hle : fuel ≤ fuel') :
    processDma fuel' sim mem = some pass := by
  unfold processDma at h ⊢
  cases htarget : dmaTarget sim.dev.dataPtr sim.lastValidShuttle with
  | none => rwa [htarget] at h
  | some addr =>
      rw [htarget] at h
      simp only [Option.map_eq_some_iff] at h ⊢
      obtain ⟨d, hdrain, heq⟩ := h
      exact ⟨d, drain_mono hdrain hle, heq⟩

theorem physicsIteration_mono {fuel fuel' : Nat} {pick bit : Fin 32} {sim : PorthSimDevice}
    {mem : Heap} {r : PorthSimDevice × Heap × Option DmaPass}
    (h : physicsIteration fuel pick bit sim mem = some r) (hle : fuel ≤ fuel') :
    physicsIteration fuel' pick bit sim mem = some r := by
  obtain ⟨sim', mem', made⟩ := r
  rcases physicsIteration_eq_some h with
    ⟨hdead, rfl, rfl, rfl⟩ | ⟨hdead, pass, hpass, rfl, rfl, rfl⟩
  · exact if_pos hdead
  · exact physicsIteration_of_pass hdead (processDma_mono hpass hle) pick bit

/-- A turn that ends, ends in one way. -/
theorem physicsIteration_unique {fuel fuel' : Nat} {pick bit : Fin 32} {sim : PorthSimDevice}
    {mem : Heap} {r r' : PorthSimDevice × Heap × Option DmaPass}
    (h : physicsIteration fuel pick bit sim mem = some r)
    (h' : physicsIteration fuel' pick bit sim mem = some r') : r = r' := by
  have hmax := physicsIteration_mono h (Nat.le_max_left fuel fuel')
  rw [physicsIteration_mono h' (Nat.le_max_right fuel fuel')] at hmax
  exact (Option.some.inj hmax).symm

end PorthCore.Ports.SimDevice
