import PorthCore.Ports.Watchdog

/-!
# How hot a halted laser still gets

Once control is off the voltage bleeds down by 8000 a turn, and for as long as
there is voltage the target may lie above the temperature.  What a turn can
add to the temperature, 25, it pays for with a step of the voltage: the
temperature plus 25 for each step left never grows, unless it is below 25020,
where the approach to ambient ends (`turn_bleed`).
-/

namespace PorthCore.Ports.Overshoot

open PorthCore.Verified.Transition
open PorthCore.Ports.SimDevice
open PorthCore.Ports.Thermal
open PorthCore.Ports.OperatingEnvelope
open PorthCore.Ports.Watchdog
open PorthCore.Ports.Watchdog.Watched (setControl)

/-- The loop finds control off, and the host leaves `gan_voltage` to it. -/
def Halted (u : Twin) : TwinOp → Prop
  | .iterate _ _ => u.sim.dev.control ≠ 1
  | .hostWrite dev => dev.ganVoltage = u.sim.dev.ganVoltage
  | _ => True

/-- The numbers are in the envelope, and heat and voltage within a budget. -/
structure Budget (bound : Nat) (u : Twin) : Prop where
  envelope : (thermals u.sim).lattice.Envelope
  heat : heat u + 25 * bleed u ≤ bound

variable {bound : Nat} {u v : Twin}

theorem Budget.turn (h : Budget bound u) (hbound : 25020 ≤ bound) {pick bit : Fin 32}
    (hoff : u.sim.dev.control ≠ 1) (hstep : Twin.step u (.iterate pick bit) v) :
    Budget bound v := by
  refine ⟨?_, turn_bleed h.envelope hoff hstep hbound h.heat⟩
  rcases turn_lattice h.envelope hstep with hsame | hnext
  · rw [hsame]
    exact h.envelope
  · rw [hnext]
    exact h.envelope.step _

/-- Neither the temperature nor the voltage is touched. -/
theorem Budget.frame (h : Budget bound u) (hphy : v.sim.phy = u.sim.phy)
    (hvolt : v.sim.dev.ganVoltage = u.sim.dev.ganVoltage) : Budget bound v := by
  have hlattice : (thermals v.sim).lattice = (thermals u.sim).lattice := by
    simp only [Thermals.lattice, thermals, hphy, hvolt]
  refine ⟨hlattice ▸ h.envelope, ?_⟩
  have hheat := h.heat
  unfold Watchdog.heat bleed at hheat ⊢
  rwa [hphy, hvolt]

theorem Budget.step (h : Budget bound u) (hbound : 25020 ≤ bound) {op : TwinOp}
    (hop : Halted u op) (hstep : Twin.step u op v) : Budget bound v := by
  cases op with
  | iterate pick bit => exact h.turn hbound hop hstep
  | hostWrite dev =>
      subst hstep
      exact h.frame rfl hop
  | triggerCorruption on | triggerDeadlock on | hostMemory mem =>
      subst hstep
      exact h.frame rfl rfl

/-- **Bounded overshoot after a halt.**  From every state of the operating
envelope, in every run whose turns find control off and whose host leaves
`gan_voltage` alone, a turn that is not frozen publishes at most the
temperature of that state plus 25 for every 8000 of its voltage, or 25020 if
that is less. -/
theorem bounded_overshoot (h : (Twin.system.restrict Twin.Undisturbed).Reachable u)
    {ops : List TwinOp} {t : Twin} (hrun : (Twin.system.restrict Halted).Run u ops t)
    {pick bit : Fin 32} (hoff : t.sim.dev.control ≠ 1)
    (hlive : t.sim.injectDeadlock = false) (hstep : Twin.step t (.iterate pick bit) v) :
    v.sim.dev.laserTemp.toNat ≤
      max (u.sim.phy.currentTempMc.toNat + 25 * ((u.sim.dev.ganVoltage.toNat + 7999) / 8000))
        25020 := by
  have hbound : 25020 ≤ max (heat u + 25 * bleed u) 25020 := Nat.le_max_right _ _
  have hstart : Budget (max (heat u + 25 * bleed u) 25020) u :=
    ⟨(Twin.reachable_inv h).envelope, Nat.le_max_left _ _⟩
  have hlast : Budget (max (heat u + 25 * bleed u) 25020) t := by
    refine System.Run.preserves ?_ hrun hstart
    rintro s op s' hs ⟨hop, hstep⟩
    exact hs.step hbound hop hstep
  have hnext := hlast.turn hbound hoff hstep
  have hpublished : v.sim.dev.laserTemp = v.sim.phy.currentTempMc := by
    have hthermals := (Twin.thermals_iterate hstep).trans (Twin.turned_of_not_frozen hlive)
    exact (congrArg Thermals.laserTemp hthermals).trans
      (congrArg (fun th => th.phy.currentTempMc) hthermals).symm
  rw [hpublished]
  exact (Nat.le_add_right _ _).trans hnext.heat

/-- Halted after one turn with power on, at 4000 of voltage. -/
theorem bounded_overshoot_one_turn :
    (setControl Twin.samplePowered.idleTurn 0).idleTurn.sim.dev.laserTemp.toNat ≤
      max (25000 + 25 * 1) 25020 := by
  have hpowered : (Twin.system.restrict Twin.Undisturbed).Reachable
      Twin.samplePowered.idleTurn :=
    Twin.samplePowered_reachable.step (a := TwinOp.iterate 0 0)
      ⟨trivial, Twin.Quiet.step ⟨rfl, rfl, rfl⟩⟩
  have hrun : (Twin.system.restrict Halted).Run Twin.samplePowered.idleTurn
      [.hostWrite { Twin.samplePowered.idleTurn.sim.dev with control := 0 }]
      (setControl Twin.samplePowered.idleTurn 0) :=
    .cons ⟨rfl, rfl⟩ (.nil _)
  exact bounded_overshoot hpowered hrun (by decide) rfl (Twin.Quiet.step ⟨rfl, rfl, rfl⟩)

end PorthCore.Ports.Overshoot
