import PorthCore.Ports.OperatingEnvelope

/-!
# The emergency trip and the twin

`PorthDeviceLayout` says that 0xDEADBEEF in `safety_trip` triggers an
immediate shutdown.  The physics loop never reads that register: what happens
to `gan_voltage` is decided by control alone.  So a tripped twin powers down
exactly as long as no turn finds control at 1 with the voltage below its
limit.
-/

namespace PorthCore.Ports.SafetyTrip

open PorthCore.Verified.Transition
open PorthCore.Ports.SimDevice
open PorthCore.Ports.Thermal
open PorthCore.Ports.OperatingEnvelope

/-- `PorthSentinel::TRIP_CODE`. -/
def tripCode : UInt32 := 0xDEADBEEF

/-- The ramp does not rise exactly when control is off or the limit is
reached. -/
theorem nextVoltage_le_iff {control volt : UInt32} :
    nextVoltage control volt ≤ volt ↔ control ≠ 1 ∨ 800000 ≤ volt := by
  unfold nextVoltage
  by_cases hon : control = 1
  · rw [if_pos hon]
    by_cases hlt : volt < 800000
    · have hnat : volt.toNat < 800000 := UInt32.lt_iff_toNat_lt.mp hlt
      have hadd : (volt + 4000).toNat = volt.toNat + 4000 :=
        toNat_add_of_le (Nat.le_of_lt hnat) (by decide)
      have hrise : ¬volt + 4000 ≤ volt := by
        rw [UInt32.le_iff_toNat_le, hadd]
        omega
      simp only [hlt, if_true, hrise, hon, ne_eq, not_true_eq_false, false_or, false_iff]
      exact UInt32.not_le.mpr hlt
    · rw [if_neg hlt]
      exact ⟨fun _ => .inr (UInt32.not_lt.mp hlt), fun _ => UInt32.le_refl _⟩
  · rw [if_neg hon]
    refine ⟨fun _ => .inl hon, fun _ => ?_⟩
    by_cases hpos : 0 < volt
    · rw [if_pos hpos]
      by_cases hbig : 8000 < volt
      · have hsub := toNat_sub_add_of_lt hbig
        rw [if_pos hbig, UInt32.le_iff_toNat_le]
        omega
      · rw [if_neg hbig]
        exact UInt32.le_of_lt hpos
    · rw [if_neg hpos]
      exact UInt32.le_refl _

/-- Without control the ramp stays at zero. -/
theorem nextVoltage_zero {control : UInt32} (h : nextVoltage control 0 ≤ 0) :
    nextVoltage control 0 = 0 := by
  rcases nextVoltage_le_iff.mp h with hoff | hlimit
  · rw [nextVoltage, if_neg hoff]
    rfl
  · exact absurd hlimit (by decide)

namespace Tripped

/-- The register keeps its code and nobody else drives the voltage; control
and the other registers are written at will. -/
def CodeHeld (s : Twin) : TwinOp → Prop
  | .hostWrite dev =>
      dev.safetyTrip = s.sim.dev.safetyTrip ∧ dev.ganVoltage = s.sim.dev.ganVoltage
  | _ => True

/-- A turn that cannot raise the voltage: it is frozen, or finds control off
or the voltage at its limit. -/
def Shut (s : Twin) (op : TwinOp) : Prop :=
  CodeHeld s op ∧
    match op with
    | .iterate _ _ =>
        s.sim.injectDeadlock = true ∨ s.sim.dev.control ≠ 1 ∨ 800000 ≤ s.sim.dev.ganVoltage
    | _ => True

/-- From `s` to `t` the voltage has not risen, and has stayed at zero. -/
structure PoweredDown (s t : Twin) : Prop where
  le : t.sim.dev.ganVoltage ≤ s.sim.dev.ganVoltage
  zero : s.sim.dev.ganVoltage = 0 → t.sim.dev.ganVoltage = 0

variable {s t : Twin}

theorem PoweredDown.refl (s : Twin) : PoweredDown s s := ⟨UInt32.le_refl _, id⟩

theorem PoweredDown.trans {u : Twin} (h : PoweredDown s t) (h' : PoweredDown t u) :
    PoweredDown s u :=
  ⟨UInt32.le_trans h'.le h.le, fun hzero => h'.zero (h.zero hzero)⟩

/-- A turn keeps the voltage down exactly when it is shut. -/
theorem iterate_poweredDown_iff {pick bit : Fin 32} (h : Twin.step s (.iterate pick bit) t) :
    PoweredDown s t ↔ Shut s (.iterate pick bit) := by
  have hvolt := congrArg Thermals.ganVoltage (Twin.thermals_iterate h)
  change t.sim.dev.ganVoltage = (turned s.sim).ganVoltage at hvolt
  cases hdead : s.sim.injectDeadlock with
  | true =>
      have hsame : t.sim.dev.ganVoltage = s.sim.dev.ganVoltage := by
        rw [hvolt, turned, if_pos hdead]
        rfl
      constructor
      · intro _
        exact ⟨trivial, .inl hdead⟩
      · intro _
        exact ⟨hsame ▸ UInt32.le_refl _, hsame.trans⟩
  | false =>
      have hnext : t.sim.dev.ganVoltage =
          nextVoltage s.sim.dev.control s.sim.dev.ganVoltage := by
        rw [hvolt, Twin.turned_of_not_frozen hdead]
        rfl
      constructor
      · intro hdown
        exact ⟨trivial, .inr (nextVoltage_le_iff.mp (hnext ▸ hdown.le))⟩
      · rintro ⟨-, hfrozen | hshut⟩
        · rw [hdead] at hfrozen
          cases hfrozen
        · have hle := nextVoltage_le_iff.mpr hshut
          refine ⟨hnext ▸ hle, fun hzero => ?_⟩
          rw [hzero] at hnext hle
          exact hnext.trans (nextVoltage_zero hle)

private theorem step_shut {op : TwinOp} (hop : Shut s op) (hstep : Twin.step s op t) :
    PoweredDown s t ∧ t.sim.dev.safetyTrip = s.sim.dev.safetyTrip := by
  cases op with
  | iterate pick bit =>
      exact ⟨(iterate_poweredDown_iff hstep).mpr hop, (Twin.iterate_frame hstep).2⟩
  | hostWrite dev =>
      subst hstep
      obtain ⟨⟨hcode, hvolt⟩, -⟩ := hop
      exact ⟨⟨hvolt ▸ UInt32.le_refl _, hvolt.trans⟩, hcode⟩
  | triggerCorruption on | triggerDeadlock on | hostMemory mem =>
      subst hstep
      exact ⟨⟨UInt32.le_refl _, id⟩, rfl⟩

/-- **When a tripped twin shuts down.**  From any state with the trip code in
`safety_trip`, in every run whose turns are all frozen or find control
off or the voltage at its limit, the code stays and the voltage never rises
and stays at zero.  And a turn of any run that keeps the code keeps the
voltage down only if it is such a turn. -/
theorem trip_shuts_down (hcode : s.sim.dev.safetyTrip = tripCode) :
    (∀ ops t, (Twin.system.restrict Shut).Run s ops t →
        PoweredDown s t ∧ t.sim.dev.safetyTrip = tripCode) ∧
      ∀ ops u pick bit t, (Twin.system.restrict CodeHeld).Run s ops u →
        Twin.step u (.iterate pick bit) t →
          (PoweredDown u t ↔ Shut u (.iterate pick bit)) := by
  constructor
  · intro ops t hrun
    refine System.Run.preserves (I := fun u => PoweredDown s u ∧
      u.sim.dev.safetyTrip = tripCode) ?_ hrun ⟨.refl s, hcode⟩
    rintro u op v ⟨hdown, htrip⟩ ⟨hop, hstep⟩
    obtain ⟨hnext, hsame⟩ := step_shut hop hstep
    exact ⟨hdown.trans hnext, hsame.trans htrip⟩
  · intro ops u pick bit t _ hstep
    exact iterate_poweredDown_iff hstep

/-! ## Tripped and powered -/

/-- A fresh device after a trip. -/
def sampleTripped : Twin :=
  { Twin.sampleFresh with
    sim := { PorthSimDevice.fresh with
      dev := { PorthSimDevice.fresh.dev with safetyTrip := tripCode } } }

/-- The same with control written to 1. -/
def sampleDriven : Twin :=
  { sampleTripped with
    sim := { sampleTripped.sim with dev := { sampleTripped.sim.dev with control := 1 } } }

private theorem sampleTripped_reachable : Twin.system.Reachable sampleTripped := by
  have hfresh : Twin.system.Reachable Twin.sampleFresh := System.Reachable.of_init rfl
  exact hfresh.step (a := TwinOp.hostWrite sampleTripped.sim.dev) rfl

theorem trip_shuts_down_idle : PoweredDown sampleTripped sampleTripped.idleTurn := by
  have hrun : (Twin.system.restrict Shut).Run sampleTripped [.iterate 0 0]
      sampleTripped.idleTurn :=
    .cons ⟨⟨trivial, .inr (.inl (by decide))⟩, Twin.Quiet.step ⟨rfl, rfl, rfl⟩⟩ (.nil _)
  exact ((trip_shuts_down rfl).1 _ _ hrun).1

/-- One turn after the host has written 1 to control, the tripped twin is
powering up. -/
theorem tripped_powers_up :
    Twin.system.Reachable sampleTripped ∧
      sampleTripped.sim.dev.safetyTrip = 0xDEADBEEF ∧
      (Twin.system.restrict CodeHeld).Run sampleTripped
        [.hostWrite sampleDriven.sim.dev, .iterate 0 0] sampleDriven.idleTurn ∧
      sampleDriven.idleTurn.sim.dev.safetyTrip = 0xDEADBEEF ∧
      ¬PoweredDown sampleTripped sampleDriven.idleTurn := by
  refine ⟨sampleTripped_reachable, rfl, ?_, rfl, ?_⟩
  · exact .cons ⟨⟨rfl, rfl⟩, rfl⟩
      (.cons ⟨trivial, Twin.Quiet.step ⟨rfl, rfl, rfl⟩⟩ (.nil _))
  · intro hdown
    exact absurd hdown.le (by decide)

end Tripped

end PorthCore.Ports.SafetyTrip
