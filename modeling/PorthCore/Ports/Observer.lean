import PorthCore.Verified.Transition
import PorthCore.Ports.OperatingEnvelope

/-!
# An observer on the chip's segment

`porth-sim-ctl monitor` constructs `PorthSimDevice(name, false)` to read a
chip that another device owns.  The object is a whole second device: its
constructor writes three registers of the segment, and its own physics loop,
with its own PHY and its own latch, drains the ring and steps the thermal
model on the registers of the owner.

The two devices take their turns in any order (`SharedSegment.system`), and
find the same ring at an address.  Next to it stands the owner alone, under
the same host.  What the two runs show is
the same in every state exactly if every step of the observer found the chip
as it was going to leave it (`undisturbed_iff`); an observer of a chip that is
powered on, warm, or busy disturbs it.
-/

namespace PorthCore.Ports.Observer

open PorthCore.Verified.Transition
open PorthCore.Ports.RingBuffer
open PorthCore.Ports.SimDevice
open PorthCore.Ports.Thermal (Thermals thermals)
open PorthCore.Ports.OperatingEnvelope

/-! ## The owner and its host -/

/-- A host write to one register. -/
inductive RegWrite
  | control (v : UInt32)
  | status (v : UInt32)
  | dataPtr (v : UInt64)
  | counter (v : UInt64)
  | laserTemp (v : UInt32)
  | ganVoltage (v : UInt32)
  | rfSnr (v : Int32)
  | safetyTrip (v : UInt32)

/-- What a store does to the registers. -/
def RegWrite.store (dev : PorthDeviceLayout) : RegWrite → PorthDeviceLayout
  | .control v => { dev with control := v }
  | .status v => { dev with status := v }
  | .dataPtr v => { dev with dataPtr := v }
  | .counter v => { dev with counter := v }
  | .laserTemp v => { dev with laserTemp := v }
  | .ganVoltage v => { dev with ganVoltage := v }
  | .rfSnr v => { dev with rfSnr := v }
  | .safetyTrip v => { dev with safetyTrip := v }

/-- A turn of the owner's physics loop, its switches, and the host: a register
write, or anything done to memory. -/
inductive OwnerOp
  | iterate (pick bit : Fin 32)
  | triggerCorruption (on : Bool)
  | triggerDeadlock (on : Bool)
  | write (w : RegWrite)
  | access (f : Heap → Heap)

/-- What an operation is in the state it meets. -/
def OwnerOp.label (s : Twin) : OwnerOp → TwinOp
  | .iterate pick bit => .iterate pick bit
  | .triggerCorruption on => .triggerCorruption on
  | .triggerDeadlock on => .triggerDeadlock on
  | .write w => .hostWrite (w.store s.sim.dev)
  | .access f => .hostMemory (f s.mem)

/-- The owner alone, from a fresh device. -/
def ownerSystem : System Twin OwnerOp where
  init := Twin.system.init
  step := fun s op t => Twin.step s (op.label s) t

/-! ## The observer beside it -/

/-- How far the observer's constructor has come. -/
inductive Stage
  | mapped
  | tempWritten
  | statusWritten
  | running
  deriving DecidableEq, Repr

/-- The owner with the segment and memory, and the observer.  The observer's
`dev` is the segment. -/
structure SharedSegment where
  twin : Twin
  observer : PorthSimDevice
  stage : Stage

/-- A step of the owner or of the observer. -/
inductive SegmentOp
  | owner (op : OwnerOp)
  /-- The next write of the constructor. -/
  | construct
  /-- A turn of the observer's physics loop. -/
  | iterate (pick bit : Fin 32)
  /-- `read_reg`, which delays and loads. -/
  | readReg

/-- The owner's operations of a run. -/
def SegmentOp.ofOwner : SegmentOp → Option OwnerOp
  | .owner op => some op
  | _ => none

namespace SharedSegment

/-- The segment. -/
def dev (s : SharedSegment) : PorthDeviceLayout := s.twin.sim.dev

/-- The registers are replaced. -/
def withDev (s : SharedSegment) (dev : PorthDeviceLayout) : SharedSegment :=
  { s with twin := { s.twin with sim := { s.twin.sim with dev := dev } } }

/-- The observer with its view of the segment. -/
def view (s : SharedSegment) : PorthSimDevice := { s.observer with dev := s.dev }

/-- The constructor from here on: the next register it writes. -/
def constructed (s : SharedSegment) : Option SharedSegment :=
  match s.stage with
  | .mapped => some { s.withDev { s.dev with laserTemp := 25000 } with stage := .tempWritten }
  | .tempWritten => some { s.withDev { s.dev with status := 0 } with stage := .statusWritten }
  | .statusWritten => some { s.withDev { s.dev with control := 0 } with stage := .running }
  | .running => none

/-- After a turn of the observer's loop. -/
def iterated (s : SharedSegment) (r : PorthSimDevice × Heap × Option DmaPass) : SharedSegment :=
  { s with
    twin := { sim := { s.twin.sim with dev := r.1.dev }, mem := r.2.1 }
    observer := r.1 }

/-- One step on the segment. -/
def step (s : SharedSegment) (op : SegmentOp) (t : SharedSegment) : Prop :=
  match op with
  | .owner op => ∃ twin, ownerSystem.step s.twin op twin ∧ t = { s with twin := twin }
  | .construct => s.constructed = some t
  | .iterate pick bit => s.stage = .running ∧
      ∃ fuel r, physicsIteration fuel pick bit s.view s.twin.mem = some r ∧ t = s.iterated r
  | .readReg => s.stage = .running ∧ t = s

/-- An observer about to be constructed, on any registers and memory. -/
structure Start (s : SharedSegment) : Prop where
  stage : s.stage = .mapped
  injectDeadlock : s.observer.injectDeadlock = false
  corruptStatus : s.observer.corruptStatus = false
  phy : s.observer.phy = { currentTempMc := 25000 }
  latch : s.observer.lastValidShuttle = 0

/-- An observer beside the owner of a segment. -/
def system : System SharedSegment SegmentOp := { init := Start, step := step }

end SharedSegment

/-! ## What is compared -/

/-- What the two runs show of the chip. -/
structure Readings where
  control : UInt32
  dataPtr : UInt64
  counter : UInt64
  ganVoltage : UInt32
  laserTemp : UInt32
  /-- `head` and `tail` of the ring at an address. -/
  indices : UInt64 → UInt32 × UInt32

/-- The registers of a chip as numbers to compare. -/
def readings (s : Twin) : Readings :=
  { control := s.sim.dev.control
    dataPtr := s.sim.dev.dataPtr
    counter := s.sim.dev.counter
    ganVoltage := s.sim.dev.ganVoltage
    laserTemp := s.sim.dev.laserTemp
    indices := fun addr => ((s.mem addr).head, (s.mem addr).tail) }

/-- In every state of the run the chip shows what it shows when its owner runs
alone. -/
def Undisturbed (s : SharedSegment) (ops : List SegmentOp) : Prop :=
  ∀ before after u, ops = before ++ after → SharedSegment.system.Run s before u →
    (∃ v, ownerSystem.Run s.twin (before.filterMap SegmentOp.ofOwner) v) ∧
      ∀ v, ownerSystem.Run s.twin (before.filterMap SegmentOp.ofOwner) v →
        readings u.twin = readings v

/-- A voltage the ramp leaves alone. -/
def VoltageHolds (dev : PorthDeviceLayout) : Prop :=
  dev.control = 1 ∧ 800000 ≤ dev.ganVoltage ∨ dev.control ≠ 1 ∧ dev.ganVoltage = 0

/-- `laser_temp` is one step of this PHY away, towards the target. -/
def TemperatureMeets (phy : PorthSimPHY) (dev : PorthDeviceLayout) : Prop :=
  phy.currentTempMc < targetTemp dev.ganVoltage ∧ dev.laserTemp = phy.currentTempMc + 25 ∨
    targetTemp dev.ganVoltage < phy.currentTempMc ∧ dev.laserTemp = phy.currentTempMc - 15 ∨
    phy.currentTempMc = targetTemp dev.ganVoltage ∧ dev.laserTemp = phy.currentTempMc

/-- What a step of the observer has to find: a chip that is cold before its
first write and off before its last, and for its physics loop nothing to
drain, a voltage at rest, and a temperature in step with its own PHY. -/
def Passive (s : SharedSegment) : SegmentOp → Prop
  | .owner _ | .readReg => True
  | .construct =>
      (s.stage = .mapped → s.dev.laserTemp = 25000) ∧
        (s.stage = .statusWritten → s.dev.control = 0)
  | .iterate _ _ =>
      (∀ addr, dmaTarget s.dev.dataPtr s.observer.lastValidShuttle = some addr →
        (s.twin.mem addr).head = (s.twin.mem addr).tail) ∧
      VoltageHolds s.dev ∧ TemperatureMeets s.observer.phy s.dev

/-! ## A turn of the observer -/

theorem nextVoltage_eq_self (control volt : UInt32) :
    nextVoltage control volt = volt ↔
      control = 1 ∧ 800000 ≤ volt ∨ control ≠ 1 ∧ volt = 0 := by
  unfold nextVoltage
  by_cases hcontrol : control = 0x1
  · simp only [hcontrol, if_true]
    split <;> grind
  · simp only [hcontrol, if_false]
    split
    · split <;> grind
    · grind

theorem updateThermalLoad_eq (phy : PorthSimPHY) (target temp : UInt32) :
    (phy.updateThermalLoad target).currentTempMc = temp ↔
      phy.currentTempMc < target ∧ temp = phy.currentTempMc + 25 ∨
        target < phy.currentTempMc ∧ temp = phy.currentTempMc - 15 ∨
        phy.currentTempMc = target ∧ temp = phy.currentTempMc := by
  unfold PorthSimPHY.updateThermalLoad
  dsimp only
  split
  · grind
  · split <;> grind

/-- An empty ring is left as it is. -/
theorem drain_idle {size : UInt64} {fuel : Nat} {ring : PorthRingBuffer}
    {counter : UInt64} {d : Drain} (hempty : ring.head = ring.tail)
    (h : drain size fuel ring counter = some d) : d.ring = ring ∧ d.counter = counter := by
  cases fuel with
  | zero => cases h
  | succ fuel =>
      simp only [drain, dmaRound, pop, hempty, if_true,
        Option.some.injEq] at h
      subst h
      exact ⟨rfl, rfl⟩

/-- A turn with the switches off is a pass and a thermal step. -/
theorem iterate_off {fuel : Nat} {pick bit : Fin 32} {sim : PorthSimDevice} {mem : Heap}
    {r : PorthSimDevice × Heap × Option DmaPass} (hdead : sim.injectDeadlock = false)
    (hcorrupt : sim.corruptStatus = false)
    (h : physicsIteration fuel pick bit sim mem = some r) :
    ∃ pass, processDma fuel { sim with dev := { sim.dev with status := 0x1 } } mem = some pass ∧
      r.1 = updateThermalModel pass.sim ∧ r.2.1 = pass.mem ∧
      pass.sim.injectDeadlock = false ∧ pass.sim.corruptStatus = false := by
  obtain ⟨sim', mem', made⟩ := r
  rcases physicsIteration_eq_some h with ⟨hfrozen, -, -, -⟩ | ⟨-, pass, hpass, rfl, rfl, -⟩
  · rw [hdead] at hfrozen
    cases hfrozen
  · have hflags : pass.sim.injectDeadlock = false ∧ pass.sim.corruptStatus = false := by
      rcases processDma_cases hpass with ⟨-, rfl⟩ | ⟨addr, d, -, -, rfl⟩
      · exact ⟨hdead, hcorrupt⟩
      · exact ⟨hdead, hcorrupt⟩
    exact ⟨pass, hpass, @applyChaosEffects_off (updateThermalModel pass.sim) hflags.2 pick bit,
      rfl, hflags⟩

/-! ## Two runs alike -/

/-- `sim` with other values in the two registers that are not compared. -/
def blur (sim : PorthSimDevice) (status : UInt32) (rfSnr : Int32) : PorthSimDevice :=
  { sim with dev := { sim.dev with status := status, rfSnr := rfSnr } }

/-- Equal but for `status` and `rf_snr`. -/
structure Agree (s u : Twin) : Prop where
  sim : ∃ status rfSnr, s.sim = blur u.sim status rfSnr
  mem : s.mem = u.mem

namespace Agree

variable {s t u : Twin}

theorem refl (s : Twin) : Agree s s := ⟨⟨s.sim.dev.status, s.sim.dev.rfSnr, rfl⟩, rfl⟩

theorem trans (h : Agree s t) (h' : Agree t u) : Agree s u := by
  obtain ⟨status, rfSnr, hsim⟩ := h.sim
  obtain ⟨status', rfSnr', hsim'⟩ := h'.sim
  exact ⟨⟨status, rfSnr, by rw [hsim, hsim']; rfl⟩, h.mem.trans h'.mem⟩

private theorem readings_eq (h : Agree s u) : readings s = readings u := by
  obtain ⟨status, rfSnr, hsim⟩ := h.sim
  rw [readings, hsim, h.mem]
  rfl

end Agree

/-- A pass looks at neither register. -/
theorem processDma_blur (fuel : Nat) (sim : PorthSimDevice) (mem : Heap) (status : UInt32)
    (rfSnr : Int32) :
    processDma fuel (blur sim status rfSnr) mem =
      (processDma fuel sim mem).map fun pass =>
        { pass with sim := blur pass.sim status rfSnr } := by
  unfold processDma
  have htarget : dmaTarget (blur sim status rfSnr).dev.dataPtr
      (blur sim status rfSnr).lastValidShuttle =
        dmaTarget sim.dev.dataPtr sim.lastValidShuttle := rfl
  rw [htarget]
  cases dmaTarget sim.dev.dataPtr sim.lastValidShuttle with
  | none => rfl
  | some addr =>
      dsimp only
      rw [Option.map_map]
      rfl

/-- The thermal step publishes the same `rf_snr` on both. -/
theorem updateThermalModel_blur (sim : PorthSimDevice) (status : UInt32) (rfSnr : Int32) :
    updateThermalModel (blur sim status rfSnr) =
      blur (updateThermalModel sim) status (updateThermalModel sim).dev.rfSnr := by
  simp only [updateThermalModel, blur]

/-- Chaos may put the difference elsewhere in `status`. -/
theorem applyChaosEffects_blur (sim : PorthSimDevice) (pick bit : Fin 32) (status : UInt32)
    (rfSnr : Int32) :
    ∃ status', applyChaosEffects (blur sim status rfSnr) pick bit =
      blur (applyChaosEffects sim pick bit) status' rfSnr := by
  have hflag : (blur sim status rfSnr).corruptStatus = sim.corruptStatus := rfl
  unfold applyChaosEffects
  rw [hflag]
  cases sim.corruptStatus with
  | false => exact ⟨status, rfl⟩
  | true =>
      by_cases hpick : 28 < pick.val
      · simp only [if_true, if_pos hpick]
        exact ⟨status, rfl⟩
      · simp only [if_true, if_neg hpick]
        exact ⟨_, rfl⟩

/-- The loop turns alike on devices that differ there. -/
theorem physicsIteration_blur {fuel : Nat} {pick bit : Fin 32} {sim : PorthSimDevice}
    {mem : Heap} {status : UInt32} {rfSnr : Int32}
    {r : PorthSimDevice × Heap × Option DmaPass}
    (h : physicsIteration fuel pick bit (blur sim status rfSnr) mem = some r) :
    ∃ r', physicsIteration fuel pick bit sim mem = some r' ∧ r.2.1 = r'.2.1 ∧
      ∃ status' rfSnr', r.1 = blur r'.1 status' rfSnr' := by
  obtain ⟨sim', mem', made⟩ := r
  rcases physicsIteration_eq_some h with
    ⟨hdead, rfl, rfl, rfl⟩ | ⟨hdead, pass, hpass, rfl, rfl, rfl⟩
  · have hturn : physicsIteration fuel pick bit sim mem' =
        some ({ sim with dev := { sim.dev with status := 0x1 } }, mem', none) := if_pos hdead
    exact ⟨_, hturn, rfl, 0x1, rfSnr, rfl⟩
  · -- both passes start with `status` set to 1
    have hstart : ({ blur sim status rfSnr with
        dev := { (blur sim status rfSnr).dev with status := 0x1 } } : PorthSimDevice) =
          blur { sim with dev := { sim.dev with status := 0x1 } } 0x1 rfSnr := rfl
    rw [hstart, processDma_blur] at hpass
    obtain ⟨pass', hpass', rfl⟩ := Option.map_eq_some_iff.mp hpass
    have hthermal := updateThermalModel_blur pass'.sim 0x1 rfSnr
    obtain ⟨status', hchaos⟩ := applyChaosEffects_blur (updateThermalModel pass'.sim) pick bit 0x1
      (updateThermalModel pass'.sim).dev.rfSnr
    have hturn := @physicsIteration_of_pass fuel sim mem pass' hdead hpass' pick bit
    refine ⟨_, hturn, rfl, status', (updateThermalModel pass'.sim).dev.rfSnr, ?_⟩
    exact (congrArg (applyChaosEffects · pick bit) hthermal).trans hchaos

/-- Whatever the owner and the host do, they do alike. -/
theorem Agree.owner_step {s t u : Twin} {op : OwnerOp} (h : Agree s u)
    (hstep : ownerSystem.step s op t) : ∃ v, ownerSystem.step u op v ∧ Agree t v := by
  obtain ⟨status, rfSnr, hsim⟩ := h.sim
  cases op with
  | iterate pick bit =>
      obtain ⟨fuel, r, hr, rfl⟩ := hstep
      rw [hsim, h.mem] at hr
      obtain ⟨r', hr', hmem, hsim'⟩ := physicsIteration_blur hr
      exact ⟨_, ⟨fuel, r', hr', rfl⟩, hsim', hmem⟩
  | triggerCorruption on =>
      cases hstep
      exact ⟨_, rfl, ⟨status, rfSnr, by rw [hsim]; rfl⟩, h.mem⟩
  | triggerDeadlock on =>
      cases hstep
      exact ⟨_, rfl, ⟨status, rfSnr, by rw [hsim]; rfl⟩, h.mem⟩
  | write w =>
      cases hstep
      refine ⟨_, rfl, ?_, h.mem⟩
      rw [hsim]
      cases w with
      | status v => exact ⟨v, rfSnr, rfl⟩
      | rfSnr v => exact ⟨status, v, rfl⟩
      | _ => exact ⟨status, rfSnr, rfl⟩
  | access f =>
      cases hstep
      exact ⟨_, rfl, ⟨status, rfSnr, hsim⟩, congrArg f h.mem⟩

theorem ownerSystem_deterministic (s : Twin) (op : OwnerOp) (t t' : Twin)
    (h : ownerSystem.step s op t) (h' : ownerSystem.step s op t') : t = t' := by
  cases op with
  | iterate pick bit =>
      obtain ⟨fuel, r, hr, rfl⟩ := h
      obtain ⟨fuel', r', hr', rfl⟩ := h'
      rw [physicsIteration_unique hr hr']
  | triggerCorruption | triggerDeadlock | write | access => exact h.trans h'.symm

namespace SharedSegment

variable {s t : SharedSegment} {op : SegmentOp}

/-- The observer's switches are off, and stay so. -/
def SwitchesOff (s : SharedSegment) : Prop :=
  s.observer.injectDeadlock = false ∧ s.observer.corruptStatus = false

theorem constructed_cases (h : s.constructed = some t) :
    (s.stage = .mapped ∧
        t = { s.withDev { s.dev with laserTemp := 25000 } with stage := .tempWritten }) ∨
      (s.stage = .tempWritten ∧
        t = { s.withDev { s.dev with status := 0 } with stage := .statusWritten }) ∨
      (s.stage = .statusWritten ∧
        t = { s.withDev { s.dev with control := 0 } with stage := .running }) := by
  unfold constructed at h
  cases hstage : s.stage with
  | mapped =>
      rw [hstage] at h
      exact .inl ⟨rfl, (Option.some.inj h).symm⟩
  | tempWritten =>
      rw [hstage] at h
      exact .inr (.inl ⟨rfl, (Option.some.inj h).symm⟩)
  | statusWritten =>
      rw [hstage] at h
      exact .inr (.inr ⟨rfl, (Option.some.inj h).symm⟩)
  | running =>
      rw [hstage] at h
      cases h

theorem SwitchesOff.step (h : s.SwitchesOff) (hstep : s.step op t) : t.SwitchesOff := by
  cases op with
  | owner op =>
      obtain ⟨twin, -, rfl⟩ := hstep
      exact h
  | construct =>
      rcases constructed_cases hstep with ⟨-, rfl⟩ | ⟨-, rfl⟩ | ⟨-, rfl⟩
      · exact h
      · exact h
      · exact h
  | iterate pick bit =>
      obtain ⟨-, fuel, r, hr, rfl⟩ := hstep
      obtain ⟨pass, -, hsim, -, hflags⟩ := @iterate_off fuel pick bit s.view s.twin.mem r h.1 h.2 hr
      show r.1.injectDeadlock = false ∧ r.1.corruptStatus = false
      rw [hsim]
      exact hflags
  | readReg =>
      obtain ⟨-, rfl⟩ := hstep
      exact h

/-- The steps are functions. -/
theorem step_deterministic (s : SharedSegment) (op : SegmentOp) (t t' : SharedSegment)
    (h : s.step op t) (h' : s.step op t') : t = t' := by
  cases op with
  | owner op =>
      obtain ⟨twin, hstep, rfl⟩ := h
      obtain ⟨twin', hstep', rfl⟩ := h'
      rw [ownerSystem_deterministic _ _ _ _ hstep hstep']
  | construct => exact Option.some.inj (h.symm.trans h')
  | iterate pick bit =>
      obtain ⟨-, fuel, r, hr, rfl⟩ := h
      obtain ⟨-, fuel', r', hr', rfl⟩ := h'
      rw [physicsIteration_unique hr hr']
  | readReg => exact h.2.trans h'.2.symm

/-- What a turn of the observer leaves on the segment, and in memory. -/
theorem observed_turn {fuel : Nat} {pick bit : Fin 32}
    {r : PorthSimDevice × Heap × Option DmaPass} (hoff : s.SwitchesOff)
    (hr : physicsIteration fuel pick bit s.view s.twin.mem = some r) :
    ∃ counter,
      r.1.dev =
        { s.dev with
          status := 0x1
          counter := counter
          ganVoltage := (thermals s.view).volt
          rfSnr := snrAt (thermals s.view).nextPhy.currentTempMc
          laserTemp := (thermals s.view).nextPhy.currentTempMc } ∧
      ((dmaTarget s.dev.dataPtr s.observer.lastValidShuttle = none ∧ r.2.1 = s.twin.mem ∧
          counter = s.dev.counter) ∨
        ∃ addr d, dmaTarget s.dev.dataPtr s.observer.lastValidShuttle = some addr ∧
          drain simDefaultShuttleSize fuel (s.twin.mem addr) s.dev.counter = some d ∧
          r.2.1 = Function.update s.twin.mem addr d.ring ∧ counter = d.counter) := by
  obtain ⟨pass, hpass, hsim, hmem, -⟩ :=
    @iterate_off fuel pick bit s.view s.twin.mem r hoff.1 hoff.2 hr
  rw [hsim, hmem]
  rcases processDma_cases hpass with ⟨htarget, rfl⟩ | ⟨addr, d, htarget, hdrain, rfl⟩
  · exact ⟨s.dev.counter, rfl, .inl ⟨htarget, rfl, rfl⟩⟩
  · exact ⟨d.counter, rfl, .inr ⟨addr, d, htarget, hdrain, rfl, rfl⟩⟩

/-- A passive step of the observer leaves the chip as it was. -/
theorem agree_of_passive (hoff : s.SwitchesOff) (hstep : s.step op t)
    (hobserver : op.ofOwner = none) (hpassive : Passive s op) : Agree t.twin s.twin := by
  cases op with
  | owner op => cases hobserver
  | construct =>
      obtain ⟨htemp, hcontrol⟩ := hpassive
      rcases constructed_cases hstep with ⟨hstage, rfl⟩ | ⟨-, rfl⟩ | ⟨hstage, rfl⟩
      · rw [← htemp hstage]
        exact .refl s.twin
      · exact ⟨⟨0, s.dev.rfSnr, rfl⟩, rfl⟩
      · rw [← hcontrol hstage]
        exact .refl s.twin
  | iterate pick bit =>
      obtain ⟨hidle, hvoltage, htemp⟩ := hpassive
      obtain ⟨-, fuel, r, hr, rfl⟩ := hstep
      obtain ⟨counter, hdev, hdrained⟩ := observed_turn hoff hr
      have hvolt : (thermals s.view).volt = s.dev.ganVoltage :=
        (nextVoltage_eq_self _ _).mpr hvoltage
      have hphy : (thermals s.view).nextPhy.currentTempMc = s.dev.laserTemp := by
        show (s.observer.phy.updateThermalLoad
          (targetTemp (thermals s.view).volt)).currentTempMc = s.dev.laserTemp
        rw [hvolt]
        exact (updateThermalLoad_eq _ _ _).mpr htemp
      have hpass : counter = s.dev.counter ∧ r.2.1 = s.twin.mem := by
        rcases hdrained with ⟨-, hmem, hcounter⟩ | ⟨addr, d, htarget, hdrain, hmem, hcounter⟩
        · exact ⟨hcounter, hmem⟩
        · obtain ⟨hring, hcount⟩ := drain_idle (hidle addr htarget) hdrain
          rw [hmem, hcounter, hring, Function.update_eq_self]
          exact ⟨hcount, rfl⟩
      refine ⟨⟨0x1, snrAt s.dev.laserTemp, ?_⟩, hpass.2⟩
      show { s.twin.sim with dev := r.1.dev } = _
      rw [hdev, hpass.1, hvolt, hphy]
      rfl
  | readReg =>
      obtain ⟨-, rfl⟩ := hstep
      exact .refl _

/-- A step of the observer that the readings do not show was passive. -/
theorem passive_of_readings (hoff : s.SwitchesOff) (hstep : s.step op t)
    (hsame : readings t.twin = readings s.twin) : Passive s op := by
  cases op with
  | owner op => trivial
  | construct =>
      rcases constructed_cases hstep with ⟨hstage, rfl⟩ | ⟨hstage, -⟩ | ⟨hstage, rfl⟩
      · refine ⟨fun _ => (congrArg Readings.laserTemp hsame).symm, fun hother => ?_⟩
        cases hstage.symm.trans hother
      · constructor
        · intro hother
          cases hstage.symm.trans hother
        · intro hother
          cases hstage.symm.trans hother
      · refine ⟨fun hother => ?_, fun _ => (congrArg Readings.control hsame).symm⟩
        cases hstage.symm.trans hother
  | iterate pick bit =>
      obtain ⟨-, fuel, r, hr, rfl⟩ := hstep
      obtain ⟨counter, hdev, hdrained⟩ := observed_turn hoff hr
      have hvolt : (thermals s.view).volt = s.dev.ganVoltage := by
        have hreading : r.1.dev.ganVoltage = s.dev.ganVoltage :=
          congrArg Readings.ganVoltage hsame
        rwa [hdev] at hreading
      have hphy : (thermals s.view).nextPhy.currentTempMc = s.dev.laserTemp := by
        have hreading : r.1.dev.laserTemp = s.dev.laserTemp := congrArg Readings.laserTemp hsame
        rwa [hdev] at hreading
      refine ⟨?_, (nextVoltage_eq_self _ _).mp hvolt, (updateThermalLoad_eq _ _ _).mp ?_⟩
      · intro addr htarget
        rcases hdrained with ⟨hnone, -, -⟩ | ⟨addr', d, htarget', hdrain, hmem, -⟩
        · rw [htarget] at hnone
          cases hnone
        · cases Option.some.inj (htarget.symm.trans htarget')
          -- the drain stops at `head`, and `tail` is where it was
          have htail : (r.2.1 addr).tail = (s.twin.mem addr).tail :=
            congrArg Prod.snd (congrFun (congrArg Readings.indices hsame) addr)
          rw [hmem, Function.update_self] at htail
          exact (drain_facts hdrain).1.symm.trans htail
      · rw [← hvolt]
        exact hphy
  | readReg => trivial

end SharedSegment

/-! ## Whole runs -/

private theorem SharedSegment.Start.switchesOff {s : SharedSegment} (h : s.Start) : s.SwitchesOff :=
  ⟨h.injectDeadlock, h.corruptStatus⟩

/-- Beside a passive observer the owner's run is its run alone. -/
theorem agree_of_passive_run {s t : SharedSegment} {ops : List SegmentOp}
    (hoff : s.SwitchesOff) (h : (SharedSegment.system.restrict Passive).Run s ops t) :
    ∃ v, ownerSystem.Run s.twin (ops.filterMap SegmentOp.ofOwner) v ∧ Agree t.twin v := by
  have hmatch : ∀ (s : SharedSegment) op t u op', s.SwitchesOff ∧ Agree s.twin u →
      (SharedSegment.system.restrict Passive).step s op t → op.ofOwner = some op' →
        ∃ v, ownerSystem.step u op' v ∧ t.SwitchesOff ∧ Agree t.twin v := by
    rintro s op t u op' ⟨hoff, hagree⟩ ⟨-, hstep⟩ hvisible
    have ht := SharedSegment.SwitchesOff.step hoff hstep
    cases op with
    | owner op =>
        cases hvisible
        obtain ⟨twin, howner, rfl⟩ := hstep
        obtain ⟨v, hv, hnext⟩ := hagree.owner_step howner
        exact ⟨v, hv, ht, hnext⟩
    | construct | iterate | readReg => cases hvisible
  have hhide : ∀ (s : SharedSegment) op t u, s.SwitchesOff ∧ Agree s.twin u →
      (SharedSegment.system.restrict Passive).step s op t → op.ofOwner = none →
        t.SwitchesOff ∧ Agree t.twin u := by
    rintro s op t u ⟨hoff, hagree⟩ ⟨hpassive, hstep⟩ hvisible
    exact ⟨SharedSegment.SwitchesOff.step hoff hstep,
      (SharedSegment.agree_of_passive hoff hstep hvisible hpassive).trans hagree⟩
  obtain ⟨v, hrun, -, hagree⟩ := h.project hmatch hhide ⟨hoff, .refl s.twin⟩
  exact ⟨v, hrun, hagree⟩

/-- **When an observer goes unnoticed.**  From any registers and memory, the
readings of a run with an observer are those of the owner alone, in every
state, exactly if every step of the observer was passive. -/
theorem undisturbed_iff {s t : SharedSegment} {ops : List SegmentOp}
    (hstart : SharedSegment.system.init s) (hrun : SharedSegment.system.Run s ops t) :
    Undisturbed s ops ↔ (SharedSegment.system.restrict Passive).Run s ops t := by
  have hoff := SharedSegment.Start.switchesOff hstart
  constructor
  · intro hsame
    refine hrun.restrict_of_prefixes ?_
    rintro before op after u v rfl hu hstep
    have huoff : u.SwitchesOff := hu.preserves (fun s op t => SharedSegment.SwitchesOff.step) hoff
    cases hvisible : op.ofOwner with
    | some op' =>
        cases op with
        | owner op => trivial
        | construct | iterate | readReg => cases hvisible
    | none =>
        -- the owner alone makes no step here
        obtain ⟨⟨w, hw⟩, hbefore⟩ := hsame before (op :: after) u rfl hu
        have hrun' := hu.concat hstep
        have hafter := (hsame (before ++ [op]) after v (by simp) hrun').2
        rw [List.filterMap_append, List.filterMap_cons_none hvisible, List.filterMap_nil,
          List.append_nil] at hafter
        exact SharedSegment.passive_of_readings huoff hstep
          ((hafter w hw).trans (hbefore w hw).symm)
  · rintro hpassive before after u rfl hu
    obtain ⟨u', hbefore, -⟩ := hpassive.of_append
    cases hu.deterministic SharedSegment.step_deterministic hbefore.of_restrict
    obtain ⟨w, hw, hagree⟩ := agree_of_passive_run hoff hbefore
    refine ⟨⟨w, hw⟩, fun v hv => ?_⟩
    rw [hv.deterministic ownerSystem_deterministic hw]
    exact hagree.readings_eq

/-- An observer about to be constructed beside `u`. -/
def beside (u : Twin) : SharedSegment := { twin := u, observer := .fresh, stage := .mapped }

private theorem beside_start (u : Twin) : (beside u).Start := ⟨rfl, rfl, rfl, rfl, rfl⟩

/-- On a chip at rest the observer is constructed and turns unnoticed, between
turns of the owner. -/
theorem undisturbed_at_rest :
    Undisturbed (beside Twin.sampleFresh)
      [.construct, .owner (.iterate 0 0), .construct, .construct, .iterate 0 0,
        .owner (.iterate 0 0)] := by
  have hpassive : ∃ t, (SharedSegment.system.restrict Passive).Run (beside Twin.sampleFresh)
      [.construct, .owner (.iterate 0 0), .construct, .construct, .iterate 0 0,
        .owner (.iterate 0 0)] t := by
    refine ⟨_, .cons ⟨?_, rfl⟩ (.cons ⟨trivial, _, ⟨0, _, rfl, rfl⟩, rfl⟩
      (.cons ⟨?_, rfl⟩ (.cons ⟨?_, rfl⟩
        (.cons ⟨?_, rfl, 0, _, physicsIteration_of_pass rfl (processDma_reject _ 0 rfl) 0 0, rfl⟩
          (.cons ⟨trivial, _, ⟨0, _, rfl, rfl⟩, rfl⟩ (.nil _))))))⟩
    · exact ⟨fun _ => rfl, fun h => by cases h⟩
    · exact ⟨fun h => (by cases h), fun h => by cases h⟩
    · exact ⟨fun h => (by cases h), fun _ => rfl⟩
    · exact ⟨fun addr h => (by cases h), .inr (by decide), .inr (.inr (by decide))⟩
  obtain ⟨t, hrun⟩ := hpassive
  exact (undisturbed_iff (beside_start _) hrun.of_restrict).mpr hrun

/-- The constructor of an observer switches a powered chip off: a turn of the
owner later `control` reads 0, which reads 1 with the owner alone. -/
theorem observer_powers_down :
    ownerSystem.Reachable Twin.samplePowered ∧
      ∃ t, SharedSegment.system.Run (beside Twin.samplePowered)
          [.construct, .construct, .construct, .owner (.iterate 0 0)] t ∧
        ¬ Undisturbed (beside Twin.samplePowered)
          [.construct, .construct, .construct, .owner (.iterate 0 0)] := by
  constructor
  · have hfresh : ownerSystem.Reachable Twin.sampleFresh := System.Reachable.of_init rfl
    exact hfresh.step (a := .write (.control 1)) rfl
  · have hrun : ∃ t, SharedSegment.system.Run (beside Twin.samplePowered)
        [.construct, .construct, .construct, .owner (.iterate 0 0)] t ∧
          t.twin.sim.dev.control = 0 :=
      ⟨_, .cons rfl (.cons rfl (.cons rfl (.cons ⟨_, ⟨0, _, rfl, rfl⟩, rfl⟩ (.nil _)))), rfl⟩
    obtain ⟨t, hrun, hcontrol⟩ := hrun
    refine ⟨t, hrun, fun h => ?_⟩
    have halone : ownerSystem.Run Twin.samplePowered [.iterate 0 0] Twin.samplePowered.idleTurn :=
      .cons (Twin.Quiet.step ⟨rfl, rfl, rfl⟩) (.nil _)
    have hsame := (h _ [] t rfl hrun).2 _ halone
    have hpowered : t.twin.sim.dev.control = 1 := congrArg Readings.control hsame
    rw [hcontrol] at hpowered
    exact absurd hpowered (by decide)

end PorthCore.Ports.Observer
