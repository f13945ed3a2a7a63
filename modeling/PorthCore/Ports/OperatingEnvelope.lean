import PorthCore.Verified.Transition
import PorthCore.Ports.Thermal

/-!
# The operating envelope of the Digital Twin

The physics loop from a fresh device, turn by turn, under any host that leaves
`gan_voltage` and `laser_temp` to it: control is written at will, the switches
are toggled, the other registers and the memory change in any way.

* `operating_envelope`: the joint range of voltage and temperature, what is
  published, and that nothing wraps, in every reachable state;
* `settles`: once control is left alone and no turn is frozen, 5000 turns
  bring the device to the fixed point of that control value for good.
-/

namespace PorthCore.Ports.OperatingEnvelope

open PorthCore.Verified.Transition
open PorthCore.Verified.Pursuit
open PorthCore.Ports.SimDevice
open PorthCore.Ports.Thermal

/-- The device and the memory its passes may reach. -/
structure Twin where
  sim : PorthSimDevice
  mem : Heap

/-- How many turns of the physics loop a run makes. -/
def iterations (ops : List TwinOp) : Nat := ops.countP TwinOp.isIterate

@[simp] theorem iterations_iterate (pick bit : Fin 32) (ops : List TwinOp) :
    iterations (.iterate pick bit :: ops) = iterations ops + 1 :=
  List.countP_cons_of_pos rfl

@[simp] theorem iterations_replicate (n : Nat) (pick bit : Fin 32) :
    iterations (List.replicate n (.iterate pick bit)) = n := by
  induction n with
  | zero => rfl
  | succ n ih => rw [List.replicate_succ, iterations_iterate, ih]

namespace Twin

/-- One step of the twin. -/
def step (s : Twin) (op : TwinOp) (t : Twin) : Prop :=
  match op with
  | .iterate pick bit =>
      ∃ fuel r, physicsIteration fuel pick bit s.sim s.mem = some r ∧
        t = { sim := r.1, mem := r.2.1 }
  | .triggerCorruption on => t = { s with sim := { s.sim with corruptStatus := on } }
  | .triggerDeadlock on => t = { s with sim := { s.sim with injectDeadlock := on } }
  | .hostWrite dev => t = { s with sim := { s.sim with dev := dev } }
  | .hostMemory mem => t = { s with mem := mem }

/-- A freshly created device; memory holds anything. -/
def system : System Twin TwinOp := { init := fun s => s.sim = .fresh, step := step }

/-- Nobody but the physics loop writes `gan_voltage` or `laser_temp`. -/
def Undisturbed (s : Twin) : TwinOp → Prop
  | .hostWrite dev =>
      dev.ganVoltage = s.sim.dev.ganVoltage ∧ dev.laserTemp = s.sim.dev.laserTemp
  | _ => True

variable {s t : Twin}

/-! ## The envelope -/

/-- The numbers are in the envelope, and `laser_temp` is the PHY's
temperature. -/
structure Inv (s : Twin) : Prop where
  envelope : (thermals s.sim).lattice.Envelope
  published : s.sim.dev.laserTemp = s.sim.phy.currentTempMc

theorem fresh_inv (h : s.sim = .fresh) : Inv s := by
  constructor
  · rw [h]
    exact ⟨by decide, by decide, by decide, by decide, by decide⟩
  · rw [h]
    rfl

/-- A turn takes the thermal step or none. -/
theorem thermals_iterate {pick bit : Fin 32} (h : Twin.step s (.iterate pick bit) t) :
    thermals t.sim = turned s.sim := by
  obtain ⟨fuel, r, hr, rfl⟩ := h
  exact (physicsIteration_thermals hr).1

/-- A turn writes neither control nor `safety_trip`. -/
theorem iterate_frame {pick bit : Fin 32} (h : Twin.step s (.iterate pick bit) t) :
    t.sim.dev.control = s.sim.dev.control ∧ t.sim.dev.safetyTrip = s.sim.dev.safetyTrip := by
  obtain ⟨fuel, r, hr, rfl⟩ := h
  obtain ⟨hthermals, htrip, -⟩ := physicsIteration_thermals hr
  refine ⟨(congrArg Thermals.control hthermals).trans ?_, htrip⟩
  unfold Thermal.turned
  split <;> rfl

theorem turned_of_not_frozen {sim : PorthSimDevice} (h : sim.injectDeadlock = false) :
    turned sim = (thermals sim).update := by
  rw [turned, h]
  rfl

theorem Inv.turned (h : Inv s) : (turned s.sim).lattice.Envelope ∧
    (turned s.sim).laserTemp = (turned s.sim).phy.currentTempMc := by
  unfold Thermal.turned
  split
  · exact ⟨h.envelope, h.published⟩
  · exact ⟨Thermals.update_envelope h.envelope, rfl⟩

theorem Inv.step {op : TwinOp} (h : Inv s) (hop : Undisturbed s op)
    (hstep : Twin.step s op t) : Inv t := by
  cases op with
  | iterate pick bit =>
      have hthermals := thermals_iterate hstep
      obtain ⟨henvelope, hpublished⟩ := h.turned
      rw [← hthermals] at henvelope hpublished
      exact ⟨henvelope, hpublished⟩
  | triggerCorruption on =>
      subst hstep
      exact ⟨h.envelope, h.published⟩
  | triggerDeadlock on =>
      subst hstep
      exact ⟨h.envelope, h.published⟩
  | hostWrite dev =>
      subst hstep
      obtain ⟨hvolt, htemp⟩ := hop
      have hlattice : (thermals { s.sim with dev := dev }).lattice =
          (thermals s.sim).lattice := by
        simp only [Thermals.lattice, thermals, hvolt]
      exact ⟨hlattice ▸ h.envelope, htemp.trans h.published⟩
  | hostMemory mem =>
      subst hstep
      exact ⟨h.envelope, h.published⟩

theorem reachable_inv (h : (system.restrict Undisturbed).Reachable s) : Inv s := by
  refine System.Reachable.invariant (I := Inv) (fun _ hs => fresh_inv hs) ?_ h
  rintro s op t hs ⟨hop, hstep⟩
  exact hs.step hop hstep

/-- **The operating envelope.**  In every reachable state `gan_voltage` is a
multiple of 4000 up to 800000, the PHY temperature a multiple of 5 from 24990
to 89020, and no operation of the next thermal step wraps; and a turn that is
not frozen publishes the PHY's temperature and an SNR from 1775 to 3000. -/
theorem operating_envelope (h : (system.restrict Undisturbed).Reachable s) :
    4000 ∣ s.sim.dev.ganVoltage.toNat ∧ s.sim.dev.ganVoltage.toNat ≤ 800000 ∧
      5 ∣ s.sim.phy.currentTempMc.toNat ∧ 24990 ≤ s.sim.phy.currentTempMc.toNat ∧
      s.sim.phy.currentTempMc.toNat ≤ 89020 ∧
      (thermals s.sim).NoWrap ∧
      ∀ pick bit t, s.sim.injectDeadlock = false → Twin.step s (.iterate pick bit) t →
        t.sim.dev.laserTemp = t.sim.phy.currentTempMc ∧
          1775 ≤ t.sim.dev.rfSnr.toInt ∧ t.sim.dev.rfSnr.toInt ≤ 3000 := by
  have hinv := reachable_inv h
  obtain ⟨hvdvd, hvle, htdvd, htge, htle⟩ := hinv.envelope
  change (5 : Int) ∣ (s.sim.phy.currentTempMc.toNat : Int) at htdvd
  change (24990 : Int) ≤ (s.sim.phy.currentTempMc.toNat : Int) at htge
  change (s.sim.phy.currentTempMc.toNat : Int) ≤ 89020 at htle
  refine ⟨hvdvd, hvle, by exact_mod_cast htdvd, by exact_mod_cast htge, by exact_mod_cast htle,
    Thermals.Envelope.noWrap hinv.envelope, ?_⟩
  intro pick bit t hdead hstep
  have hthermals := (thermals_iterate hstep).trans (turned_of_not_frozen hdead)
  have hpublished := Thermals.update_published hinv.envelope
  rw [← hthermals] at hpublished
  exact hpublished

/-! ## Turns of an idle device -/

/-- A device that no pass and no draw can disturb. -/
structure Quiet (s : Twin) : Prop where
  dataPtr : s.sim.dev.dataPtr = 0
  corruptStatus : s.sim.corruptStatus = false
  injectDeadlock : s.sim.injectDeadlock = false

/-- A turn that makes no pass and draws no flip. -/
def idleTurn (s : Twin) : Twin :=
  { s with sim := updateThermalModel { s.sim with dev := { s.sim.dev with status := 0x1 } } }

theorem Quiet.idleTurn (h : Quiet s) : Quiet s.idleTurn :=
  ⟨h.dataPtr, h.corruptStatus, h.injectDeadlock⟩

theorem Quiet.step (h : Quiet s) : Twin.step s (.iterate 0 0) s.idleTurn := by
  have hnone : dmaTarget s.sim.dev.dataPtr s.sim.lastValidShuttle = none := by
    rw [h.dataPtr, dmaTarget, if_pos rfl]
  have hturn := physicsIteration_of_pass h.injectDeadlock (processDma_reject s.mem 0 hnone) 0 0
  have hoff : applyChaosEffects s.idleTurn.sim 0 0 = s.idleTurn.sim :=
    @applyChaosEffects_off s.idleTurn.sim h.corruptStatus 0 0
  exact ⟨0, _, hturn, congrArg (Twin.mk · s.mem) hoff.symm⟩

/-- As many such turns as it likes. -/
theorem Quiet.reachable (h : Quiet s) (hreach : (system.restrict Undisturbed).Reachable s)
    (n : Nat) : (system.restrict Undisturbed).Reachable (Twin.idleTurn^[n] s) := by
  induction n generalizing s with
  | zero => exact hreach
  | succ n ih =>
      exact ih h.idleTurn (hreach.step (a := TwinOp.iterate 0 0) ⟨trivial, h.step⟩)

/-- A fresh device. -/
def sampleFresh : Twin := { sim := .fresh, mem := fun _ => .fresh fun _ => default }

/-- The same when control has been set to 1, before its first turn. -/
def samplePowered : Twin :=
  { sampleFresh with
    sim := { PorthSimDevice.fresh with
      dev := { PorthSimDevice.fresh.dev with control := 1 } } }

theorem samplePowered_reachable : (system.restrict Undisturbed).Reachable samplePowered := by
  have hfresh : (system.restrict Undisturbed).Reachable sampleFresh :=
    System.Reachable.of_init rfl
  exact hfresh.step (a := TwinOp.hostWrite samplePowered.sim.dev) ⟨⟨rfl, rfl⟩, rfl⟩

theorem samplePowered_quiet : Quiet samplePowered := ⟨rfl, rfl, rfl⟩

/-- Twelve turns into heating up, and one more. -/
theorem operating_envelope_heating :
    let s := Twin.idleTurn^[12] samplePowered
    (s.sim.dev.ganVoltage = 48000 ∧ s.sim.dev.laserTemp = 25250) ∧
      4000 ∣ s.sim.dev.ganVoltage.toNat ∧ s.sim.dev.ganVoltage.toNat ≤ 800000 ∧
      5 ∣ s.sim.phy.currentTempMc.toNat ∧ 24990 ≤ s.sim.phy.currentTempMc.toNat ∧
      s.sim.phy.currentTempMc.toNat ≤ 89020 ∧ (thermals s.sim).NoWrap ∧
      s.idleTurn.sim.dev.laserTemp = s.idleTurn.sim.phy.currentTempMc ∧
      1775 ≤ s.idleTurn.sim.dev.rfSnr.toInt ∧ s.idleTurn.sim.dev.rfSnr.toInt ≤ 3000 := by
  intro s
  have hreach : (system.restrict Undisturbed).Reachable s :=
    samplePowered_quiet.reachable samplePowered_reachable 12
  have hquiet : Quiet s := ⟨rfl, rfl, rfl⟩
  obtain ⟨hvdvd, hvle, htdvd, htge, htle, hwrap, hturn⟩ := operating_envelope hreach
  exact ⟨by decide +kernel, hvdvd, hvle, htdvd, htge, htle, hwrap,
    hturn 0 0 _ hquiet.injectDeadlock hquiet.step⟩

/-! ## Settling -/

/-- Control is left alone, like the rest of the thermal part, and no turn is
frozen; `data_ptr`, memory and the switches may change between turns. -/
def Steady (s : Twin) : TwinOp → Prop
  | .iterate _ _ => s.sim.injectDeadlock = false
  | .hostWrite dev => thermals { s.sim with dev := dev } = thermals s.sim
  | _ => True

/-- A steady run takes one thermal step each turn and nothing else. -/
theorem steady_run_thermals {ops : List TwinOp} (h : (system.restrict Steady).Run s ops t) :
    thermals t.sim = Thermals.update^[iterations ops] (thermals s.sim) := by
  induction h with
  | nil s => rfl
  | @cons s u t op ops hstep _ ih =>
      obtain ⟨hop, hstep⟩ := hstep
      cases op with
      | iterate pick bit =>
          have hturn := (thermals_iterate hstep).trans (turned_of_not_frozen hop)
          rw [ih, hturn, iterations_iterate, Function.iterate_succ_apply]
      | triggerCorruption on =>
          subst hstep
          exact ih
      | triggerDeadlock on =>
          subst hstep
          exact ih
      | hostWrite dev =>
          subst hstep
          rw [ih]
          exact congrArg _ hop
      | hostMemory mem =>
          subst hstep
          exact ih

/-- The registers at the point of rest of a control value. -/
structure Settled (control : UInt32) (s : Twin) : Prop where
  powered : control = 1 → s.sim.dev.ganVoltage = 800000 ∧ s.sim.dev.laserTemp = 89000 ∧
    s.sim.dev.rfSnr = 1775
  halted : control ≠ 1 → s.sim.dev.ganVoltage = 0 ∧ s.sim.dev.laserTemp = 25000 ∧
    s.sim.dev.rfSnr = 3000

/-- The registers after a thermal step that ends at rest. -/
theorem settled_of_rest {control : UInt32} {th : Thermals} (hsim : thermals s.sim = th.update)
    (hrest : th.update.lattice = ThermalLattice.rest (decide (control = 1))) :
    Settled control s := by
  have hvolt : s.sim.dev.ganVoltage = th.update.ganVoltage := congrArg Thermals.ganVoltage hsim
  have htemp : s.sim.dev.laserTemp = th.update.phy.currentTempMc :=
    congrArg Thermals.laserTemp hsim
  have hsnr : s.sim.dev.rfSnr = th.update.rfSnr := congrArg Thermals.rfSnr hsim
  have hpublished : th.update.rfSnr = snrAt th.update.phy.currentTempMc := by
    simp only [Thermals.update]
  have hvoltage := congrArg ThermalLattice.volt hrest
  have htemperature := congrArg ThermalLattice.temp hrest
  simp only [Thermals.lattice] at hvoltage htemperature
  constructor
  · intro hon
    simp only [hon, decide_true, ThermalLattice.rest, if_true] at hvoltage htemperature
    have hphy : th.update.phy.currentTempMc = 89000 :=
      UInt32.toNat_inj.mp (by exact_mod_cast htemperature)
    rw [hvolt, htemp, hsnr, hpublished, hphy]
    exact ⟨UInt32.toNat_inj.mp hvoltage, rfl, by decide⟩
  · intro hoff
    simp only [hoff, decide_false, ThermalLattice.rest, Bool.false_eq_true, if_false]
      at hvoltage htemperature
    have hphy : th.update.phy.currentTempMc = 25000 :=
      UInt32.toNat_inj.mp (by exact_mod_cast htemperature)
    rw [hvolt, htemp, hsnr, hpublished, hphy]
    exact ⟨UInt32.toNat_inj.mp hvoltage, rfl, by decide⟩

/-- It makes any number of turns. -/
theorem Quiet.run (h : Quiet s) (n : Nat) :
    (system.restrict Steady).Run s (List.replicate n (.iterate 0 0)) (Twin.idleTurn^[n] s) ∧
      Quiet (Twin.idleTurn^[n] s) := by
  induction n generalizing s with
  | zero => exact ⟨.nil s, h⟩
  | succ n ih =>
      obtain ⟨hrun, hquiet⟩ := ih h.idleTurn
      exact ⟨.cons ⟨h.injectDeadlock, h.step⟩ hrun, hquiet⟩

theorem Inv.settled_of_run (h : Inv s) {ops : List TwinOp}
    (hrun : (system.restrict Steady).Run s ops t) (hn : 5000 ≤ iterations ops) :
    Settled s.sim.dev.control t := by
  have hthermals := steady_run_thermals hrun
  have hlattice := Thermals.iterate_lattice h.envelope (iterations ops)
  rw [ThermalLattice.iterate_settled h.envelope _ hn] at hlattice
  obtain ⟨m, hm⟩ : ∃ m, iterations ops = m + 1 := ⟨iterations ops - 1, by omega⟩
  rw [hm, Function.iterate_succ_apply'] at hthermals hlattice
  exact settled_of_rest hthermals hlattice

/-- **The thermal loop settles.**  From every state of the envelope, a run
that leaves control alone and freezes no turn is at the fixed point of that
control value after 5000 turns and ever after; and where the host has written
nothing but control, such a run of any length exists. -/
theorem settles (h : (system.restrict Undisturbed).Reachable s) :
    (∀ ops t, (system.restrict Steady).Run s ops t → 5000 ≤ iterations ops →
        Settled s.sim.dev.control t) ∧
      (s.sim.dev.dataPtr = 0 → s.sim.corruptStatus = false → s.sim.injectDeadlock = false →
        ∀ n, ∃ t, (system.restrict Steady).Run s (List.replicate n (.iterate 0 0)) t) := by
  constructor
  · intro ops t hrun hn
    exact (reachable_inv h).settled_of_run hrun hn
  · intro hptr hcorrupt hdead n
    exact ⟨_, (Quiet.run ⟨hptr, hcorrupt, hdead⟩ n).1⟩

/-- At full voltage every turn adds 25 until the target is reached. -/
theorem Quiet.climbs (h : Quiet s) (hinv : Inv s) (hon : s.sim.dev.control = 1)
    (hvolt : s.sim.dev.ganVoltage = 800000) {n : Nat}
    (hn : s.sim.phy.currentTempMc.toNat + 25 * n ≤ 89000) :
    (Twin.idleTurn^[n] s).sim.phy.currentTempMc.toNat =
      s.sim.phy.currentTempMc.toNat + 25 * n := by
  have hthermals := steady_run_thermals (h.run n).1
  rw [iterations_replicate] at hthermals
  have hlattice : (thermals (Twin.idleTurn^[n] s).sim).lattice =
      (ThermalLattice.step true)^[n] (thermals s.sim).lattice := by
    rw [hthermals, Thermals.iterate_lattice hinv.envelope,
      show (thermals s.sim).control = 1 from hon]
    rfl
  have hstart : (thermals s.sim).lattice =
      { volt := 800000, temp := s.sim.phy.currentTempMc.toNat } := by
    simp only [Thermals.lattice, thermals, hvolt]
    rfl
  rw [hstart, ThermalLattice.iterate_of_ramp_eq (show ThermalLattice.ramp true 800000 = 800000
    from rfl)] at hlattice
  have htemp := congrArg ThermalLattice.temp hlattice
  have htarget : ThermalLattice.target 800000 = 89000 := rfl
  rw [iterate_climb (by decide) n (by omega)] at htemp
  simp only [Thermals.lattice, thermals] at htemp
  omega

theorem settles_powered :
    ∃ t, (system.restrict Steady).Run samplePowered (List.replicate 5000 (.iterate 0 0)) t ∧
      t.sim.dev.laserTemp = 89000 := by
  obtain ⟨hsettled, hexists⟩ := settles samplePowered_reachable
  obtain ⟨t, hrun⟩ := hexists rfl rfl rfl 5000
  refine ⟨t, hrun, ?_⟩
  exact ((hsettled _ t hrun (iterations_replicate 5000 0 0).ge).powered rfl).2.1

/-- A quiet device after 5000 turns: at rest, with control as it was. -/
theorem Quiet.settled (h : Quiet s) (hinv : Inv s) {n : Nat} (hn : 5000 ≤ n) :
    Inv (Twin.idleTurn^[n] s) ∧ Settled s.sim.dev.control (Twin.idleTurn^[n] s) ∧
      (Twin.idleTurn^[n] s).sim.dev.control = s.sim.dev.control := by
  obtain ⟨hrun, -⟩ := h.run n
  have hthermals := steady_run_thermals hrun
  refine ⟨?_, hinv.settled_of_run hrun (hn.trans (iterations_replicate n 0 0).ge), ?_⟩
  · refine System.Run.preserves (I := Inv) ?_ hrun hinv
    rintro u op v hu ⟨hsteady, hstep⟩
    refine hu.step ?_ hstep
    cases op with
    | hostWrite dev =>
        exact ⟨congrArg Thermals.ganVoltage hsteady, congrArg Thermals.laserTemp hsteady⟩
    | _ => trivial
  · exact (congrArg Thermals.control hthermals).trans (Thermals.iterate_control _)

end Twin

end PorthCore.Ports.OperatingEnvelope
