import PorthCore.Ports.SnrFeedback

/-!
# `test_sim_chaos`: a watchdog that listens to `laser_temp`

The last phase of the test freezes the physics thread and takes two equal
readings of `laser_temp` in a row for a frozen heart.  The thread may be
anywhere in its loop when the switch is set: it finishes its turn and publishes
one more temperature at most, so the second poll finds the register still
(`deadlock_detected`).

The converse fails.  A chip that is not powered on has reached the temperature
it is driven to and publishes it again and again.  The test never powers the
chip on, so its first poll already reports a frozen heart, whether or not
anything was frozen (`verdict_without_deadlock`).
-/

namespace PorthCore.Ports.Heartbeat

open PorthCore.Verified.Transition
open PorthCore.Verified.Transition.System
open PorthCore.Ports.SimDevice
open PorthCore.Ports.DmaSteps
open PorthCore.Ports.Thermal
open PorthCore.Ports.SnrFeedback

/-- Control points of the test. -/
inductive TestPc
  | writeDataPtr
  | writeStatus
  | corruptOn
  | readStatus
  | corruptOff
  | deadlockOn
  | readLast
  | poll (i : Nat)
  | reset
  | recovered
  | failed
  deriving DecidableEq, Repr

/-- `watchdog_max_retries`. -/
def watchdogMaxRetries : Nat := 10

/-- The twin, the test at its program counter, and the temperature it has read
last. -/
structure ChaosTest where
  twin : DelayedTwin
  pc : TestPc
  lastTemp : UInt32

/-- A step of the physics thread, or of the test with the draw of its register
access. -/
inductive ChaosOp
  | physics (draw : ℚ) (pick bit : Fin 32)
  | test (draw : ℚ)

namespace ChaosTest

/-- The registers. -/
def dev (s : ChaosTest) : PorthDeviceLayout := s.twin.sim.dev

/-- `sim.trigger_deadlock(on)`. -/
def triggerDeadlock (s : ChaosTest) (on : Bool) : DelayedTwin :=
  { s.twin with sim := { s.twin.sim with injectDeadlock := on } }

/-- `sim.trigger_corruption(on)`. -/
def triggerCorruption (s : ChaosTest) (on : Bool) : DelayedTwin :=
  { s.twin with sim := { s.twin.sim with corruptStatus := on } }

/-- The next step of the test.  `shuttleAddr` is the dummy shuttle's address,
and `inject` is false for a test that leaves the deadlock out. -/
def testStep (inject : Bool) (shuttleAddr : UInt64) (s : ChaosTest) (draw : ℚ) : ChaosTest :=
  match s.pc with
  | .writeDataPtr =>
      { s with twin := s.twin.written { s.dev with dataPtr := shuttleAddr }, pc := .writeStatus }
  | .writeStatus => { s with twin := s.twin.written { s.dev with status := 0x2 }, pc := .corruptOn }
  | .corruptOn => { s with twin := s.triggerCorruption true, pc := .readStatus }
  | .readStatus => { s with twin := s.twin.readReg draw, pc := .corruptOff }
  | .corruptOff => { s with twin := s.triggerCorruption false, pc := .deadlockOn }
  | .deadlockOn =>
      if inject then { s with twin := s.triggerDeadlock true, pc := .readLast }
      else { s with pc := .readLast }
  | .readLast => { twin := s.twin.readReg draw, pc := .poll 0, lastTemp := s.dev.laserTemp }
  | .poll i =>
      if s.dev.laserTemp = s.lastTemp then { s with twin := s.twin.readReg draw, pc := .reset }
      else
        { twin := s.twin.readReg draw
          pc := if i + 1 < watchdogMaxRetries then .poll (i + 1) else .failed
          lastTemp := s.dev.laserTemp }
  | .reset => { s with twin := s.triggerDeadlock false, pc := .recovered }
  | .recovered | .failed => s

/-- One step of the physics thread or of the test. -/
def step (inject : Bool) (shuttleAddr : UInt64) (s : ChaosTest) : ChaosOp → ChaosTest
  | .physics draw pick bit => { s with twin := s.twin.physics draw pick bit }
  | .test draw => s.testStep inject shuttleAddr draw

/-- The test at its start, beside a twin in a state that meets `P`. -/
def system (P : DelayedTwin → Prop) (inject : Bool) (shuttleAddr : UInt64) :
    System ChaosTest ChaosOp where
  init := fun s => P s.twin ∧ s.pc = .writeDataPtr
  step := fun s op t => s.step inject shuttleAddr op = t

end ChaosTest

/-! ## The physics thread and `laser_temp` -/

section Physics

variable {s : DelayedTwin}

private theorem passStep_thermals (s : DelayedTwin) (draw : ℚ) (pc : DmaPc) :
    thermals (s.passStep draw pc).sim = thermals s.sim ∧
      (s.passStep draw pc).sim.injectDeadlock = s.sim.injectDeadlock := by
  have happly : ∀ access : DmaAccess,
      thermals (access.apply s.sim s.mem).1 = thermals s.sim ∧
        (access.apply s.sim s.mem).1.injectDeadlock = s.sim.injectDeadlock := by
    intro access
    cases access with
    | _ => exact ⟨rfl, rfl⟩
  cases pc with
  | loadCounter addr => exact happly _
  | _ => exact happly _

/-- Temperatures the physics thread publishes before it looks at the switch. -/
def due : PhysicsPc → Nat
  | .turn => 0
  | .pass _ | .thermal => 1

/-- A step publishes what the thermal model says, or leaves the thermal part
alone; a frozen thread does not start a turn. -/
theorem physics_cases (s : DelayedTwin) (draw : ℚ) (pick bit : Fin 32) :
    (s.physics draw pick bit).sim.injectDeadlock = s.sim.injectDeadlock ∧
      ((s.pc = .thermal ∧ (s.physics draw pick bit).pc = .turn ∧
          thermals (s.physics draw pick bit).sim = (thermals s.sim).update) ∨
        (thermals (s.physics draw pick bit).sim = thermals s.sim ∧
          (s.sim.injectDeadlock = true → due s.pc = 0 →
            due (s.physics draw pick bit).pc = 0))) := by
  obtain ⟨sim, mem, pc, delays⟩ := s
  cases pc with
  | turn =>
      refine ⟨rfl, .inr ⟨rfl, ?_⟩⟩
      intro hdead _
      dsimp only at hdead
      simp only [DelayedTwin.physics, DelayedTwin.written, hdead, if_true]
      rfl
  | pass pc =>
      cases pc with
      | outside => exact ⟨rfl, .inr ⟨rfl, nofun⟩⟩
      | _ =>
          obtain ⟨hthermals, hdead⟩ := passStep_thermals
            { sim := sim, mem := mem, pc := .pass _, delays := delays } draw _
          exact ⟨hdead, .inr ⟨hthermals, nofun⟩⟩
  | thermal =>
      obtain ⟨dataPtr, status, hchaos⟩ :=
        applyChaosEffects_frame (updateThermalModel sim) pick bit
      have hthermals : thermals (applyChaosEffects (updateThermalModel sim) pick bit) =
          (thermals sim).update := by
        rw [hchaos]
        rfl
      have hdead : (applyChaosEffects (updateThermalModel sim) pick bit).injectDeadlock =
          sim.injectDeadlock := by
        rw [hchaos]
        rfl
      exact ⟨hdead, .inl ⟨rfl, rfl, hthermals⟩⟩

end Physics

/-! ## A frozen heart is found -/

/-- From the injection on: one reading of the register may still change, and
the polls count down to it. -/
def frozenAt (twin : DelayedTwin) (lastTemp : UInt32) : TestPc → Prop
  | .readLast => twin.sim.injectDeadlock = true
  | .poll 0 => twin.sim.injectDeadlock = true ∧
      (twin.sim.dev.laserTemp = lastTemp ∨ due twin.pc = 0)
  | .poll 1 => twin.sim.injectDeadlock = true ∧ twin.sim.dev.laserTemp = lastTemp ∧
      due twin.pc = 0
  | .poll (_ + 2) | .failed => False
  | _ => True

private theorem frozenAt_physics {twin : DelayedTwin} {lastTemp : UInt32} {pc : TestPc}
    (h : frozenAt twin lastTemp pc) (draw : ℚ) (pick bit : Fin 32) :
    frozenAt (twin.physics draw pick bit) lastTemp pc := by
  obtain ⟨hdead, hcases⟩ := physics_cases twin draw pick bit
  cases pc with
  | readLast => exact hdead.trans h
  | poll i =>
      match i, h with
      | 0, ⟨hon, hstill⟩ =>
          refine ⟨hdead.trans hon, ?_⟩
          rcases hcases with ⟨-, hturn, -⟩ | ⟨hthermals, hdue⟩
          · exact .inr (by rw [hturn]; rfl)
          · exact hstill.imp (congrArg Thermals.laserTemp hthermals).trans (hdue hon)
      | 1, ⟨hon, hsame, hnone⟩ =>
          refine ⟨hdead.trans hon, ?_⟩
          rcases hcases with ⟨hthermal, -, -⟩ | ⟨hthermals, hdue⟩
          · rw [hthermal] at hnone
            cases hnone
          · exact ⟨(congrArg Thermals.laserTemp hthermals).trans hsame, hdue hon hnone⟩
  | failed => exact h
  | _ => trivial

section Runs

variable {shuttleAddr : UInt64} {s t : ChaosTest}

private theorem frozenAt_test (h : frozenAt s.twin s.lastTemp s.pc) (draw : ℚ) :
    frozenAt (s.testStep true shuttleAddr draw).twin (s.testStep true shuttleAddr draw).lastTemp
      (s.testStep true shuttleAddr draw).pc := by
  unfold ChaosTest.testStep
  cases hpc : s.pc with
  | poll i =>
      rw [hpc] at h
      dsimp only
      split
      · trivial
      · next hmoved =>
          match i, h with
          | 0, ⟨hon, hstill⟩ => exact ⟨hon, rfl, hstill.resolve_left hmoved⟩
          | 1, ⟨_, hsame, _⟩ => exact absurd hsame hmoved
  | readLast =>
      rw [hpc] at h
      exact ⟨h, .inl rfl⟩
  | deadlockOn => exact rfl
  | failed =>
      rw [hpc] at h
      exact h.elim
  | _ => trivial

/-- **A deadlock is detected**: wherever in its loop the physics thread is when
the switch is set, however the two threads are interleaved and whatever the
chip was doing, the test never runs out of polls, and no poll after the second
one is made: the second, if it comes to it, reports the frozen heart. -/
theorem deadlock_detected
    (h : (ChaosTest.system (fun _ => True) true shuttleAddr).Reachable s) :
    s.pc ≠ .failed ∧ (∀ i, s.pc = .poll i → i ≤ 1) ∧
      (s.pc = .poll 1 → ∀ draw, (s.testStep true shuttleAddr draw).pc = .reset) := by
  have hfrozen : frozenAt s.twin s.lastTemp s.pc := by
    refine h.invariant (I := fun s => frozenAt s.twin s.lastTemp s.pc) ?_ ?_
    · rintro s ⟨-, hpc⟩
      rw [hpc]
      trivial
    · rintro s op t hs rfl
      cases op with
      | physics draw pick bit => exact frozenAt_physics hs draw pick bit
      | test draw => exact frozenAt_test hs draw
  refine ⟨?_, ?_, ?_⟩
  · intro hfailed
    rw [hfailed] at hfrozen
    exact hfrozen
  · intro i hpc
    rw [hpc] at hfrozen
    match i, hfrozen with
    | 0, _ => exact Nat.zero_le 1
    | 1, _ => exact Nat.le_refl 1
  · intro hpc draw
    rw [hpc] at hfrozen
    unfold ChaosTest.testStep
    rw [hpc]
    exact congrArg ChaosTest.pc (if_pos hfrozen.2.1)

/-- A chip that heats up, its physics thread about to publish. -/
def heating : ChaosTest :=
  { twin :=
      { sim :=
          { PorthSimDevice.fresh with
            dev := { PorthSimDevice.fresh.dev with control := 1, ganVoltage := 400000 } }
        mem := fun _ => .fresh fun _ => default
        pc := .thermal
        delays := [] }
    pc := .writeDataPtr
    lastTemp := 0 }

/-- The temperature is published between the first reading and the first
poll. -/
def lastPulse (pick bit : Fin 32) : List ChaosOp :=
  List.replicate 7 (.test 1) ++ [.physics 1 pick bit, .test 1]

theorem deadlock_detected_last_pulse :
    ∃ s : ChaosTest, s.pc = .poll 1 ∧ s.pc ≠ .failed ∧ (∀ i, s.pc = .poll i → i ≤ 1) ∧
      (s.pc = .poll 1 → ∀ draw, (s.testStep true 0x200000 draw).pc = .reset) := by
  have hrun : (ChaosTest.system (fun _ => True) true 0x200000).Run heating (lastPulse 0 0)
      ((lastPulse 0 0).foldl (ChaosTest.step true 0x200000) heating) :=
    Run.foldl (fun _ _ _ => rfl) heating
  exact ⟨_, by decide, deadlock_detected ⟨heating, lastPulse 0 0, ⟨trivial, rfl⟩, hrun⟩⟩

/-! ## A cold heart is taken for a frozen one -/

/-- A chip that was never powered on. -/
structure Cold (twin : DelayedTwin) : Prop where
  control : twin.sim.dev.control = 0
  volt : twin.sim.dev.ganVoltage = 0
  phy : twin.sim.phy.currentTempMc = 25000
  laser : twin.sim.dev.laserTemp = 25000

theorem Cold.of_thermals {twin twin' : DelayedTwin} (h : Cold twin)
    (heq : thermals twin'.sim = thermals twin.sim) : Cold twin' where
  control := (congrArg Thermals.control heq).trans h.control
  volt := (congrArg Thermals.ganVoltage heq).trans h.volt
  phy := (congrArg (fun th => th.phy.currentTempMc) heq).trans h.phy
  laser := (congrArg Thermals.laserTemp heq).trans h.laser

/-- It is at the temperature it is driven to. -/
theorem Cold.physics {twin : DelayedTwin} (h : Cold twin) (draw : ℚ) (pick bit : Fin 32) :
    Cold (twin.physics draw pick bit) := by
  obtain ⟨-, ⟨-, -, hupdate⟩ | ⟨hthermals, -⟩⟩ := physics_cases twin draw pick bit
  · have hvolt : (thermals twin.sim).volt = 0 := by
      rw [Thermals.volt, show (thermals twin.sim).control = 0 from h.control,
        show (thermals twin.sim).ganVoltage = 0 from h.volt]
      decide
    have hphy : (thermals twin.sim).nextPhy = twin.sim.phy := by
      rw [Thermals.nextPhy, hvolt, PorthSimPHY.updateThermalLoad,
        show (thermals twin.sim).phy = twin.sim.phy from rfl, h.phy]
      rfl
    exact
      { control := (congrArg Thermals.control hupdate).trans h.control
        volt := (congrArg Thermals.ganVoltage hupdate).trans hvolt
        phy := by
          refine (congrArg (fun th => th.phy.currentTempMc) hupdate).trans ?_
          exact (congrArg PorthSimPHY.currentTempMc hphy).trans h.phy
        laser := by
          refine (congrArg Thermals.laserTemp hupdate).trans ?_
          exact (congrArg PorthSimPHY.currentTempMc hphy).trans h.phy }
  · exact h.of_thermals hthermals

/-- The test on a cold chip: what it remembers is what the register holds. -/
structure Blind (s : ChaosTest) : Prop where
  cold : Cold s.twin
  first : ∀ i, s.pc = .poll i → i = 0 ∧ s.lastTemp = 25000
  failed : s.pc ≠ .failed

theorem Blind.test {inject : Bool} (h : Blind s) (draw : ℚ) :
    Blind (s.testStep inject shuttleAddr draw) := by
  unfold ChaosTest.testStep
  cases hpc : s.pc with
  | deadlockOn =>
      dsimp only
      split
      · exact { cold := h.cold.of_thermals rfl, first := nofun, failed := nofun }
      · exact { cold := h.cold.of_thermals rfl, first := nofun, failed := nofun }
  | readLast =>
      exact
        { cold := h.cold.of_thermals rfl
          first := by
            rintro i ⟨⟩
            exact ⟨rfl, h.cold.laser⟩
          failed := nofun }
  | poll i =>
      have hsame : s.dev.laserTemp = s.lastTemp := h.cold.laser.trans (h.first i hpc).2.symm
      dsimp only
      rw [if_pos hsame]
      exact { cold := h.cold.of_thermals rfl, first := nofun, failed := nofun }
  | failed => exact absurd hpc h.failed
  | recovered => exact h
  | _ => exact { cold := h.cold.of_thermals rfl, first := nofun, failed := nofun }

/-- **The verdict does not depend on the deadlock**: on a freshly created chip,
in any interleaving and whether or not the deadlock is injected, the first poll
reports a frozen heart and the test succeeds. -/
theorem verdict_without_deadlock {inject : Bool}
    (h : (ChaosTest.system DelayedTwin.system.init inject shuttleAddr).Reachable s) :
    s.pc ≠ .failed ∧
      ∀ i, s.pc = .poll i →
        i = 0 ∧ ∀ draw, (s.testStep inject shuttleAddr draw).pc = .reset := by
  have hblind : Blind s := by
    refine h.invariant (I := Blind) ?_ ?_
    · rintro s ⟨⟨hfresh, -, -⟩, hpc⟩
      exact
        { cold := by
            constructor
            all_goals
              rw [hfresh]
              rfl
          first := by
            intro i hpoll
            cases hpc.symm.trans hpoll
          failed := by
            rw [hpc]
            exact nofun }
    · rintro s op t hs rfl
      cases op with
      | physics draw pick bit =>
          exact { hs with cold := hs.cold.physics draw pick bit }
      | test draw => exact hs.test draw
  refine ⟨hblind.failed, ?_⟩
  intro i hpc
  obtain ⟨hzero, hlast⟩ := hblind.first i hpc
  refine ⟨hzero, ?_⟩
  intro draw
  unfold ChaosTest.testStep
  rw [hpc]
  exact congrArg ChaosTest.pc (if_pos (hblind.cold.laser.trans hlast.symm))

/-- A fresh chip at the start of the test. -/
def freshChip : ChaosTest :=
  { twin := { sim := .fresh, mem := fun _ => .fresh fun _ => default, pc := .turn, delays := [] }
    pc := .writeDataPtr
    lastTemp := 0 }

/-- The test up to its first poll, with a whole turn of the physics thread
before it reads `laser_temp` and another one before it polls. -/
def polling (pick bit : Fin 32) : List ChaosOp :=
  List.replicate 6 (.test 1) ++ List.replicate 8 (.physics 1 pick bit) ++ [.test 1] ++
    List.replicate 8 (.physics 1 pick bit)

theorem verdict_without_deadlock_fresh :
    ∃ s : ChaosTest, s.pc = .poll 0 ∧ s.dev.rfSnr = 3000 ∧ s.twin.sim.injectDeadlock = false ∧
      s.pc ≠ .failed ∧
      ∀ i, s.pc = .poll i → i = 0 ∧ ∀ draw, (s.testStep false 0x200000 draw).pc = .reset := by
  have hrun : (ChaosTest.system DelayedTwin.system.init false 0x200000).Run freshChip
      (polling 0 0) ((polling 0 0).foldl (ChaosTest.step false 0x200000) freshChip) :=
    Run.foldl (fun _ _ _ => rfl) freshChip
  obtain ⟨s, hs, hpc, hsnr, hoff⟩ : ∃ s,
      (polling 0 0).foldl (ChaosTest.step false 0x200000) freshChip = s ∧ s.pc = .poll 0 ∧
        s.dev.rfSnr = 3000 ∧ s.twin.sim.injectDeadlock = false :=
    ⟨_, rfl, by decide +kernel⟩
  rw [hs] at hrun
  exact ⟨s, hpc, hsnr, hoff,
    verdict_without_deadlock ⟨freshChip, _, ⟨⟨rfl, rfl, rfl⟩, rfl⟩, hrun⟩⟩

end Runs

end PorthCore.Ports.Heartbeat
