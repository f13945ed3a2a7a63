import PorthCore.Verified.Pursuit
import PorthCore.Ports.SimDevice

/-!
# The thermal model in numbers

A turn of the physics loop touches the thermal registers only through
`update_thermal_model`, and that function reads nothing else.  `Thermals` is
this part of the device, `ThermalLattice` what it means in numbers: the GaN voltage
and a temperature in pursuit of the target the voltage sets, 25 up and 15
down.

`Envelope` is the range the two stay in together.  Inside it no operation of
`update_thermal_model` or `update_thermal_load` wraps (`Envelope.noWrap`), so
the registers follow the numbers step by step (`update_lattice`); and the
numbers never leave it (`ThermalLattice.Envelope.step`).
-/

namespace PorthCore.Ports.Thermal

open PorthCore.Verified.Pursuit
open PorthCore.Ports.SimDevice

/-- What the thermal step reads and writes. -/
structure Thermals where
  control : UInt32
  ganVoltage : UInt32
  laserTemp : UInt32
  rfSnr : Int32
  phy : PorthSimPHY
  deriving DecidableEq, Repr

/-- The thermal part of a device. -/
def thermals (sim : PorthSimDevice) : Thermals :=
  { control := sim.dev.control
    ganVoltage := sim.dev.ganVoltage
    laserTemp := sim.dev.laserTemp
    rfSnr := sim.dev.rfSnr
    phy := sim.phy }

namespace Thermals

/-- The voltage the next step writes. -/
def volt (th : Thermals) : UInt32 := nextVoltage th.control th.ganVoltage

/-- The PHY after the next step. -/
def nextPhy (th : Thermals) : PorthSimPHY := th.phy.updateThermalLoad (targetTemp th.volt)

/-- `update_thermal_model` on the thermal part. -/
def update (th : Thermals) : Thermals :=
  { control := th.control
    ganVoltage := th.volt
    laserTemp := th.nextPhy.currentTempMc
    rfSnr := snrAt th.nextPhy.currentTempMc
    phy := th.nextPhy }

end Thermals

private theorem updateThermalModel_thermals (sim : PorthSimDevice) :
    thermals (updateThermalModel sim) = (thermals sim).update := rfl

/-! ## One turn of the physics loop -/

private theorem processDma_thermals {fuel : Nat} {sim : PorthSimDevice} {mem : Heap}
    {pass : DmaPass} (h : processDma fuel sim mem = some pass) :
    thermals pass.sim = thermals sim ∧ pass.sim.dev.safetyTrip = sim.dev.safetyTrip ∧
      pass.sim.injectDeadlock = sim.injectDeadlock := by
  rcases processDma_cases h with ⟨-, rfl⟩ | ⟨addr, d, -, -, rfl⟩
  · exact ⟨rfl, rfl, rfl⟩
  · exact ⟨rfl, rfl, rfl⟩

/-- The thermal part after a turn of the loop on `sim`. -/
def turned (sim : PorthSimDevice) : Thermals :=
  if sim.injectDeadlock then thermals sim else (thermals sim).update

/-- A turn makes the thermal step unless it is frozen, and writes neither
`safety_trip` nor the deadlock switch. -/
theorem physicsIteration_thermals {fuel : Nat} {pick bit : Fin 32} {sim : PorthSimDevice}
    {mem : Heap} {r : PorthSimDevice × Heap × Option DmaPass}
    (h : physicsIteration fuel pick bit sim mem = some r) :
    thermals r.1 = turned sim ∧ r.1.dev.safetyTrip = sim.dev.safetyTrip ∧
      r.1.injectDeadlock = sim.injectDeadlock := by
  obtain ⟨sim', mem', made⟩ := r
  rcases physicsIteration_eq_some h with ⟨hdead, rfl, -, -⟩ | ⟨hdead, pass, hpass, rfl, -, -⟩
  · exact ⟨by rw [turned, if_pos hdead]; rfl, rfl, rfl⟩
  · obtain ⟨hthermals, htrip, hflag⟩ := processDma_thermals hpass
    obtain ⟨dataPtr, status, hchaos⟩ :=
      applyChaosEffects_frame (updateThermalModel pass.sim) pick bit
    dsimp only
    rw [hchaos, turned, hdead]
    refine ⟨?_, htrip, hflag.trans hdead⟩
    calc
      thermals (updateThermalModel pass.sim) = (thermals pass.sim).update :=
        updateThermalModel_thermals _
      _ = (thermals sim).update := by rw [hthermals]; rfl

/-! ## The numbers -/

/-- The voltage and the temperature in numbers. -/
structure ThermalLattice where
  volt : Nat
  temp : Int

namespace ThermalLattice

/-- The temperature a voltage drives the laser to. -/
def target (volt : Nat) : Int := 25000 + volt / 10000 * 800

/-- The voltage ramp: up in steps of 4000 to 800000, down in steps of 8000. -/
def ramp (powered : Bool) (volt : Nat) : Nat :=
  if powered then if volt < 800000 then volt + 4000 else volt else volt - 8000

theorem ramp_off (volt : Nat) : ramp false volt = volt - 8000 := by
  rw [ramp, if_neg Bool.false_ne_true]

/-- One thermal step. -/
def step (powered : Bool) (l : ThermalLattice) : ThermalLattice where
  volt := ramp powered l.volt
  temp := pursue 25 15 (target (ramp powered l.volt)) l.temp

/-- The joint range of voltage and temperature. -/
structure Envelope (l : ThermalLattice) : Prop where
  volt_dvd : 4000 ∣ l.volt
  volt_le : l.volt ≤ 800000
  temp_dvd : (5 : Int) ∣ l.temp
  temp_ge : 24990 ≤ l.temp
  temp_le : l.temp ≤ 89020

private theorem target_range {volt : Nat} (h : volt ≤ 800000) :
    25000 ≤ target volt ∧ target volt ≤ 89000 := by
  unfold target
  omega

variable {l : ThermalLattice}

theorem ramp_range (powered : Bool) {volt : Nat} (hdvd : 4000 ∣ volt) (hle : volt ≤ 800000) :
    4000 ∣ ramp powered volt ∧ ramp powered volt ≤ 800000 := by
  unfold ramp
  cases powered with
  | true =>
      rw [if_pos rfl]
      split <;> omega
  | false =>
      rw [if_neg Bool.false_ne_true]
      omega

/-- No step leaves the envelope: the target stays within its bounds, and a
multiple of 5 that stays within 15 below and 25 above them is within 10 and
20. -/
theorem Envelope.step (h : l.Envelope) (powered : Bool) : (l.step powered).Envelope := by
  obtain ⟨hdvd, hle⟩ := ramp_range powered h.volt_dvd h.volt_le
  obtain ⟨hlo, hhi⟩ := target_range hle
  have htemp : (5 : Int) ∣ (l.step powered).temp := by
    have hpursue : (5 : Int) ∣ pursue 25 15 (target (ramp powered l.volt)) l.temp - 0 :=
      dvd_pursue_sub (by decide) (by decide) (by simpa using h.temp_dvd)
    rwa [Int.sub_zero] at hpursue
  have hge := h.temp_ge
  have hlt := h.temp_le
  have hlow : 25000 - (15 : Nat) < (l.step powered).temp :=
    lt_pursue hlo (by push_cast; omega)
  have hhigh : (l.step powered).temp < 89000 + (25 : Nat) :=
    pursue_lt hhi (by push_cast; omega)
  push_cast at hlow hhigh
  exact
    { volt_dvd := hdvd
      volt_le := hle
      temp_dvd := htemp
      temp_ge := by omega
      temp_le := by omega }

/-! ### Settling -/

/-- Where a constant control value leaves the numbers. -/
def rest (powered : Bool) : ThermalLattice :=
  if powered then { volt := 800000, temp := 89000 } else { volt := 0, temp := 25000 }

theorem Envelope.iterate (h : l.Envelope) (powered : Bool) (n : Nat) :
    ((ThermalLattice.step powered)^[n] l).Envelope := by
  induction n generalizing l with
  | zero => exact h
  | succ n ih =>
      rw [Function.iterate_succ_apply]
      exact ih (h.step powered)

/-- Two hundred steps are enough for the voltage, either way. -/
theorem iterate_volt (h : l.Envelope) (powered : Bool) (n : Nat) :
    ((step powered)^[n] l).volt =
      if powered then min (l.volt + 4000 * n) 800000 else l.volt - 8000 * n := by
  induction n generalizing l with
  | zero =>
      have hle := h.volt_le
      cases powered with
      | true => simp [hle]
      | false => simp
  | succ n ih =>
      have hdvd := h.volt_dvd
      have hle := h.volt_le
      rw [Function.iterate_succ_apply, ih (h.step powered)]
      cases powered with
      | true =>
          simp only [step, ramp, if_true]
          split <;> omega
      | false =>
          simp only [step, ramp, Bool.false_eq_true, if_false]
          omega

/-- Once the voltage stands still, only the pursuit is left. -/
theorem iterate_of_ramp_eq {powered : Bool} {volt : Nat} (h : ramp powered volt = volt)
    (n : Nat) (temp : Int) :
    (step powered)^[n] { volt := volt, temp := temp } =
      { volt := volt, temp := (pursue 25 15 (target volt))^[n] temp } := by
  induction n generalizing temp with
  | zero => rfl
  | succ n ih =>
      rw [Function.iterate_succ_apply, Function.iterate_succ_apply]
      simp only [step, h]
      exact ih _

private theorem ramp_rest (powered : Bool) :
    ramp powered (rest powered).volt = (rest powered).volt := by
  cases powered <;> rfl

private theorem target_rest (powered : Bool) :
    target (rest powered).volt = (rest powered).temp := by
  cases powered <;> rfl

/-- From anywhere in the envelope 5000 steps under one control value lead to
its point of rest: 200 for the voltage, 4267 to come within a step of the
target from the far end of the range, and 40 for the overshoots. -/
theorem iterate_settled (h : l.Envelope) (powered : Bool) {n : Nat} (hn : 5000 ≤ n) :
    (step powered)^[n] l = rest powered := by
  obtain ⟨m, rfl⟩ : ∃ m, n = m + 200 := ⟨n - 200, by omega⟩
  rw [Function.iterate_add_apply]
  have henvelope := h.iterate powered 200
  have hvolt : ((step powered)^[200] l).volt = (rest powered).volt := by
    have hle := h.volt_le
    rw [iterate_volt h]
    cases powered with
    | true => simp only [rest, if_true]; omega
    | false => simp only [rest, Bool.false_eq_true, if_false]; omega
  generalize (step powered)^[200] l = k at henvelope hvolt ⊢
  obtain ⟨volt, temp⟩ := k
  obtain rfl : volt = (rest powered).volt := hvolt
  rw [iterate_of_ramp_eq (ramp_rest powered), target_rest]
  have hdvd : (5 : Int) ∣ temp := henvelope.temp_dvd
  have hge : 24990 ≤ temp := henvelope.temp_ge
  have hle : temp ≤ 89020 := henvelope.temp_le
  have hrange : 25000 ≤ (rest powered).temp ∧ (rest powered).temp ≤ 89000 ∧
      (5 : Int) ∣ (rest powered).temp := by
    cases powered <;> decide
  have hmeet : (pursue 25 15 (rest powered).temp)^[m] temp = (rest powered).temp := by
    apply pursue_settles (n := 4267) (by decide) (by decide)
    · push_cast
      omega
    · push_cast
      omega
    · exact Int.dvd_sub hdvd hrange.2.2
    · omega
  rw [hmeet]

end ThermalLattice

/-! ## The registers follow the numbers -/

namespace Thermals

variable {th : Thermals}

/-- The numbers of the registers. -/
def lattice (th : Thermals) : ThermalLattice :=
  { volt := th.ganVoltage.toNat, temp := th.phy.currentTempMc.toNat }

/-- No `uint32_t` or `int32_t` operation of the next `update_thermal_model`
and `update_thermal_load` wraps; each is listed with the branch it is in. -/
structure NoWrap (th : Thermals) : Prop where
  rampUp : th.control = 1 → th.ganVoltage < 800000 →
    (th.ganVoltage + 4000).toNat = th.ganVoltage.toNat + 4000
  rampDown : th.control ≠ 1 → 8000 < th.ganVoltage →
    (th.ganVoltage - 8000).toNat + 8000 = th.ganVoltage.toNat
  scale : (th.volt / 10000 * 800).toNat = (th.volt / 10000).toNat * 800
  target : (25000 + th.volt / 10000 * 800).toNat = 25000 + (th.volt / 10000 * 800).toNat
  heat : th.phy.currentTempMc < targetTemp th.volt →
    (th.phy.currentTempMc + 25).toNat = th.phy.currentTempMc.toNat + 25
  cool : targetTemp th.volt < th.phy.currentTempMc →
    (th.phy.currentTempMc - 15).toNat + 15 = th.phy.currentTempMc.toNat
  excess : 40000 < th.nextPhy.currentTempMc →
    (th.nextPhy.currentTempMc - 40000).toNat + 40000 = th.nextPhy.currentTempMc.toNat
  cast : 40000 < th.nextPhy.currentTempMc →
    ((th.nextPhy.currentTempMc - 40000) / 40).toInt32.toInt =
      ((th.nextPhy.currentTempMc - 40000) / 40).toNat
  snr : 40000 < th.nextPhy.currentTempMc →
    (3000 - ((th.nextPhy.currentTempMc - 40000) / 40).toInt32).toInt =
      3000 - ((th.nextPhy.currentTempMc - 40000) / 40).toInt32.toInt

end Thermals

theorem toNat_add_of_le {x c : UInt32} {m : Nat} (hx : x.toNat ≤ m) (h : m + c.toNat < 2 ^ 32) :
    (x + c).toNat = x.toNat + c.toNat := by
  rw [UInt32.toNat_add, Nat.mod_eq_of_lt (by omega)]

theorem toNat_sub_add {x c : UInt32} (h : c.toNat ≤ x.toNat) :
    (x - c).toNat + c.toNat = x.toNat := by
  rw [UInt32.toNat_sub_of_le _ _ (UInt32.le_iff_toNat_le.mpr h)]
  exact Nat.sub_add_cancel h

theorem toNat_sub_add_of_lt {x c : UInt32} (h : c < x) : (x - c).toNat + c.toNat = x.toNat :=
  toNat_sub_add (Nat.le_of_lt (UInt32.lt_iff_toNat_lt.mp h))

theorem toNat_le_of_not_lt {x y : UInt32} (h : ¬x < y) : y.toNat ≤ x.toNat :=
  UInt32.le_iff_toNat_le.mp (UInt32.not_lt.mp h)

theorem toInt_toInt32 {x : UInt32} (h : x.toNat < 2 ^ 31) : x.toInt32.toInt = x.toNat := by
  show x.toBitVec.toInt = x.toNat
  rw [BitVec.toInt_eq_toNat_of_lt (show 2 * x.toNat < 2 ^ 32 by omega)]
  rfl

theorem toInt_sub_of_range {a b : Int32} (hlo : -2 ^ 31 ≤ a.toInt - b.toInt)
    (hhi : a.toInt - b.toInt < 2 ^ 31) : (a - b).toInt = a.toInt - b.toInt := by
  rw [Int32.toInt_sub, Int.bmod_eq_of_le (by omega) (by omega)]

theorem nextVoltage_toNat {control volt : UInt32} (h : volt.toNat ≤ 800000) :
    (nextVoltage control volt).toNat = ThermalLattice.ramp (decide (control = 1)) volt.toNat := by
  unfold nextVoltage ThermalLattice.ramp
  by_cases hon : control = 1
  · rw [if_pos hon, decide_eq_true hon, if_pos rfl]
    by_cases hlt : volt < 800000
    · have hnat : volt.toNat < 800000 := UInt32.lt_iff_toNat_lt.mp hlt
      rw [if_pos hlt, if_pos hnat]
      exact toNat_add_of_le h (by decide)
    · have hnat : 800000 ≤ volt.toNat := toNat_le_of_not_lt hlt
      rw [if_neg hlt, if_neg (Nat.not_lt.mpr hnat)]
  · rw [if_neg hon, decide_eq_false hon, if_neg Bool.false_ne_true]
    by_cases hbig : 8000 < volt
    · have hpos : 0 < volt := UInt32.lt_trans (by decide) hbig
      have hsub := toNat_sub_add_of_lt hbig
      rw [if_pos hpos, if_pos hbig]
      exact Nat.eq_sub_of_add_eq hsub
    · have hsmall : volt.toNat ≤ 8000 := toNat_le_of_not_lt hbig
      rw [Nat.sub_eq_zero_of_le hsmall]
      by_cases hpos : 0 < volt
      · rw [if_pos hpos, if_neg hbig]
        rfl
      · rw [if_neg hpos]
        exact Nat.le_zero.mp (toNat_le_of_not_lt hpos)

theorem scale_toNat {volt : UInt32} (h : volt.toNat ≤ 800000) :
    (volt / 10000 * 800).toNat = (volt / 10000).toNat * 800 := by
  have hdiv : (volt / 10000).toNat = volt.toNat / 10000 := UInt32.toNat_div _ _
  rw [UInt32.toNat_mul]
  exact Nat.mod_eq_of_lt (show (volt / 10000).toNat * 800 < 2 ^ 32 by omega)

private theorem scale_le {volt : UInt32} (h : volt.toNat ≤ 800000) :
    (volt / 10000 * 800).toNat ≤ 64000 := by
  have hdiv : (volt / 10000).toNat = volt.toNat / 10000 := UInt32.toNat_div _ _
  rw [scale_toNat h]
  omega

theorem target_toNat {volt : UInt32} (h : volt.toNat ≤ 800000) :
    (25000 + volt / 10000 * 800).toNat = 25000 + (volt / 10000 * 800).toNat := by
  rw [UInt32.add_comm, toNat_add_of_le (scale_le h) (by decide), Nat.add_comm]
  rfl

private theorem targetTemp_toNat {volt : UInt32} (h : volt.toNat ≤ 800000) :
    ((targetTemp volt).toNat : Int) = ThermalLattice.target volt.toNat := by
  have hdiv : (volt / 10000).toNat = volt.toNat / 10000 := UInt32.toNat_div _ _
  unfold targetTemp ThermalLattice.target
  by_cases hpos : 0 < volt
  · rw [if_pos hpos, target_toNat h, scale_toNat h, hdiv]
    push_cast
    rfl
  · have hzero : volt.toNat = 0 := Nat.le_zero.mp (toNat_le_of_not_lt hpos)
    rw [if_neg hpos, hzero]
    rfl

/-- What a load does, by the side of the target the temperature is on. -/
theorem updateThermalLoad_cases (phy : PorthSimPHY) (tempMc : UInt32) :
    (phy.currentTempMc < tempMc ∧
        (phy.updateThermalLoad tempMc).currentTempMc = phy.currentTempMc + 25) ∨
      (tempMc < phy.currentTempMc ∧
        (phy.updateThermalLoad tempMc).currentTempMc = phy.currentTempMc - 15) ∨
      (phy.currentTempMc = tempMc ∧ (phy.updateThermalLoad tempMc).currentTempMc = tempMc) := by
  unfold PorthSimPHY.updateThermalLoad
  by_cases hbelow : phy.currentTempMc < tempMc
  · left
    exact ⟨hbelow, by simp only [hbelow, if_true]⟩
  · by_cases habove : tempMc < phy.currentTempMc
    · right
      left
      exact ⟨habove, by simp only [hbelow, habove, if_false, if_true]⟩
    · have hsame : phy.currentTempMc = tempMc := by
        apply UInt32.toNat_inj.mp
        rw [UInt32.lt_iff_toNat_lt] at hbelow habove
        omega
      right
      right
      refine ⟨hsame, ?_⟩
      simp only [hbelow, habove, if_false]
      exact hsame

/-- A load that has room for its step is a step of the pursuit. -/
theorem updateThermalLoad_toNat {phy : PorthSimPHY} {tempMc : UInt32}
    (hheat : phy.currentTempMc < tempMc → phy.currentTempMc.toNat + 25 < 2 ^ 32)
    (hcool : tempMc < phy.currentTempMc → 15 ≤ phy.currentTempMc.toNat) :
    ((phy.updateThermalLoad tempMc).currentTempMc.toNat : Int) =
      pursue 25 15 tempMc.toNat phy.currentTempMc.toNat := by
  rcases updateThermalLoad_cases phy tempMc with ⟨hlt, hnext⟩ | ⟨hgt, hnext⟩ | ⟨heq, hnext⟩
  · have hnat := UInt32.lt_iff_toNat_lt.mp hlt
    rw [pursue_below (by exact_mod_cast hnat), hnext]
    rw [toNat_add_of_le (Nat.le_refl _) (hheat hlt)]
    rfl
  · have hnat := UInt32.lt_iff_toNat_lt.mp hgt
    rw [pursue_above (by exact_mod_cast hnat), hnext]
    have hsub : (phy.currentTempMc - 15).toNat + 15 = phy.currentTempMc.toNat :=
      toNat_sub_add (hcool hgt)
    omega
  · rw [hnext, heq, pursue_self]

/-- The SNR of a temperature in the envelope. -/
theorem snrAt_toInt {temp : UInt32} (h : temp.toNat ≤ 89020) :
    (snrAt temp).toInt = 3000 - ((temp.toNat - 40000) / 40 : Nat) := by
  unfold snrAt
  by_cases hhot : 40000 < temp
  · have hexcess : (temp - 40000).toNat + 40000 = temp.toNat := toNat_sub_add_of_lt hhot
    have hnat : ((temp - 40000) / 40).toNat = (temp.toNat - 40000) / 40 := by
      rw [UInt32.toNat_div, ← hexcess, Nat.add_sub_cancel]
      rfl
    have hcast := toInt_toInt32 (x := (temp - 40000) / 40) (by rw [hnat]; omega)
    have hbase : (3000 : Int32).toInt = 3000 := by decide
    rw [if_pos hhot, toInt_sub_of_range (by rw [hcast, hnat, hbase]; omega)
      (by rw [hcast, hnat, hbase]; omega), hcast, hnat, hbase]
  · have hcold : temp.toNat ≤ 40000 := toNat_le_of_not_lt hhot
    rw [if_neg hhot, Nat.sub_eq_zero_of_le hcold]
    rfl

namespace Thermals

variable {th : Thermals}

theorem Envelope.volt_le (h : th.lattice.Envelope) : th.volt.toNat ≤ 800000 := by
  rw [volt, nextVoltage_toNat h.volt_le]
  exact (ThermalLattice.ramp_range _ h.volt_dvd h.volt_le).2

/-- Inside the envelope the registers take the step of the numbers. -/
theorem update_lattice (h : th.lattice.Envelope) :
    th.update.lattice = th.lattice.step (decide (th.control = 1)) := by
  have hle := h.temp_le
  have hge := h.temp_ge
  simp only [lattice] at hle hge
  have hvolt : th.volt.toNat = ThermalLattice.ramp (decide (th.control = 1)) th.ganVoltage.toNat :=
    nextVoltage_toNat h.volt_le
  have htemp : ((th.phy.updateThermalLoad (targetTemp th.volt)).currentTempMc.toNat : Int) =
      pursue 25 15 (ThermalLattice.target th.volt.toNat) th.phy.currentTempMc.toNat := by
    rw [← targetTemp_toNat (Envelope.volt_le h)]
    exact updateThermalLoad_toNat (fun _ => by omega) (fun _ => by omega)
  simp only [lattice, update, nextPhy, ThermalLattice.step, htemp, hvolt]

theorem update_envelope (h : th.lattice.Envelope) : th.update.lattice.Envelope := by
  rw [update_lattice h]
  exact h.step _

theorem Envelope.noWrap (h : th.lattice.Envelope) : th.NoWrap := by
  have hnext := update_envelope h
  have hvolt := Envelope.volt_le h
  have hle := h.temp_le
  have hnle := hnext.temp_le
  simp only [lattice, update] at hle hnle
  have hcast : 40000 < th.nextPhy.currentTempMc →
      ((th.nextPhy.currentTempMc - 40000) / 40).toNat ≤ 1225 := by
    intro hhot
    have hexcess : (th.nextPhy.currentTempMc - 40000).toNat + 40000 =
        th.nextPhy.currentTempMc.toNat := toNat_sub_add_of_lt hhot
    rw [UInt32.toNat_div]
    show (th.nextPhy.currentTempMc - 40000).toNat / 40 ≤ 1225
    omega
  refine
    { rampUp := fun _ _ => toNat_add_of_le h.volt_le (by decide)
      rampDown := fun _ hbig => toNat_sub_add_of_lt hbig
      scale := scale_toNat hvolt
      target := target_toNat hvolt
      heat := fun _ => toNat_add_of_le (m := 89020) (by omega) (by decide)
      cool := fun _ => toNat_sub_add ?_
      excess := fun hhot => toNat_sub_add_of_lt hhot
      cast := fun hhot => toInt_toInt32 (by have := hcast hhot; omega)
      snr := fun hhot => ?_ }
  · have hge := h.temp_ge
    simp only [lattice] at hge
    show 15 ≤ th.phy.currentTempMc.toNat
    omega
  · have hsmall := hcast hhot
    have hint := toInt_toInt32 (x := (th.nextPhy.currentTempMc - 40000) / 40) (by omega)
    have hbase : (3000 : Int32).toInt = 3000 := by decide
    rw [toInt_sub_of_range (by rw [hint, hbase]; omega) (by rw [hint, hbase]; omega), hbase]

/-- After a step `laser_temp` is the PHY's temperature and `rf_snr` its
SNR. -/
theorem update_published (h : th.lattice.Envelope) :
    th.update.laserTemp = th.update.phy.currentTempMc ∧
      1775 ≤ th.update.rfSnr.toInt ∧ th.update.rfSnr.toInt ≤ 3000 := by
  have hle := (update_envelope h).temp_le
  simp only [lattice, update] at hle
  refine ⟨rfl, ?_⟩
  simp only [update]
  rw [snrAt_toInt (by omega)]
  omega

@[simp] theorem iterate_control (n : Nat) : (update^[n] th).control = th.control := by
  induction n generalizing th with
  | zero => rfl
  | succ n ih =>
      rw [Function.iterate_succ_apply]
      exact ih

/-- So do any number of steps under one control value. -/
theorem iterate_lattice (h : th.lattice.Envelope) (n : Nat) :
    (update^[n] th).lattice =
      (ThermalLattice.step (decide (th.control = 1)))^[n] th.lattice := by
  induction n generalizing th with
  | zero => rfl
  | succ n ih =>
      rw [Function.iterate_succ_apply, Function.iterate_succ_apply, ih (update_envelope h),
        update_lattice h]
      rfl

end Thermals

end PorthCore.Ports.Thermal
