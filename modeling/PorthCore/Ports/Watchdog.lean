import PorthCore.Ports.Monitor

/-!
# The Driver watchdog and the laser

The watchdog of a live Driver beside the twin and a host that writes only
control.

* `closed_loop_bound`: with at most `k` turns of the physics loop between two
  accesses of the watchdog, the laser stays below `47500 + 50 * k`: `25 * k`
  gained until the load, `25 * k` more until the halt, and 2500 while the
  voltage bleeds down.
* The halt is a one-shot: the watchdog lowers its flag and leaves, and nothing
  starts it again.  A host that powers the device on afterwards heats it
  unguarded (`restart_unguarded`); while none does, there is nothing to guard
  (`guarded_until_restart`).
-/

namespace PorthCore.Ports.Watchdog

open PorthCore.Verified.Transition
open PorthCore.Verified.Pursuit
open PorthCore.Ports.SimDevice
open PorthCore.Ports.Thermal
open PorthCore.Ports.OperatingEnvelope
open PorthCore.Ports.Monitor

/-! ## What one turn does to the temperature -/

/-- The PHY's temperature. -/
def heat (u : Twin) : Nat := u.sim.phy.currentTempMc.toNat

/-- How many thermal steps with control off the voltage takes to zero. -/
def bleed (u : Twin) : Nat := (u.sim.dev.ganVoltage.toNat + 7999) / 8000

variable {u v : Twin} {pick bit : Fin 32}

/-- A turn leaves the numbers or takes them one step. -/
theorem turn_lattice (h : (thermals u.sim).lattice.Envelope)
    (hstep : Twin.step u (.iterate pick bit) v) :
    (thermals v.sim).lattice = (thermals u.sim).lattice ∨
      (thermals v.sim).lattice =
        (thermals u.sim).lattice.step (decide (u.sim.dev.control = 1)) := by
  rw [Twin.thermals_iterate hstep, turned]
  split
  · exact .inl rfl
  · exact .inr (Thermals.update_lattice h)

theorem turn_heat (h : (thermals u.sim).lattice.Envelope)
    (hstep : Twin.step u (.iterate pick bit) v) : heat v ≤ heat u + 25 := by
  rcases turn_lattice h hstep with hsame | hnext
  · have htemp : (heat v : Int) = heat u := congrArg ThermalLattice.temp hsame
    omega
  · have hle : (thermals v.sim).lattice.temp ≤ (thermals u.sim).lattice.temp + (25 : Nat) := by
      rw [hnext]
      exact pursue_le_add
    change (heat v : Int) ≤ (heat u : Int) + (25 : Nat) at hle
    omega

/-- With control off, what a turn adds to the temperature it takes from the
voltage that is left; without voltage the device cools, and near ambient it
overshoots by no more than 20. -/
theorem turn_bleed (h : (thermals u.sim).lattice.Envelope) (hoff : u.sim.dev.control ≠ 1)
    (hstep : Twin.step u (.iterate pick bit) v) {bound : Nat} (hbound : 25020 ≤ bound)
    (hle : heat u + 25 * bleed u ≤ bound) : heat v + 25 * bleed v ≤ bound := by
  rcases turn_lattice h hstep with hsame | hnext
  · have htemp : (heat v : Int) = heat u := congrArg ThermalLattice.temp hsame
    have hvolt : v.sim.dev.ganVoltage.toNat = u.sim.dev.ganVoltage.toNat :=
      congrArg ThermalLattice.volt hsame
    have hbleed : bleed v = bleed u := by rw [bleed, bleed, hvolt]
    omega
  · rw [decide_eq_false hoff] at hnext
    have hvolt : v.sim.dev.ganVoltage.toNat =
        ThermalLattice.ramp false u.sim.dev.ganVoltage.toNat := congrArg ThermalLattice.volt hnext
    have htemp : (heat v : Int) = pursue 25 15
        (ThermalLattice.target (ThermalLattice.ramp false u.sim.dev.ganVoltage.toNat)) (heat u) :=
      congrArg ThermalLattice.temp hnext
    rw [ThermalLattice.ramp_off] at hvolt htemp
    by_cases hzero : u.sim.dev.ganVoltage.toNat = 0
    · -- A multiple of 5 below 25000 is at most 24995.
      have hdvd : (5 : Int) ∣ heat u := h.temp_dvd
      have hcool : (heat v : Int) ≤ max (heat u : Int) 25020 := by
        rw [htemp, hzero, show ThermalLattice.target (0 - 8000) = 25000 from rfl]
        unfold pursue
        split
        · omega
        · split <;> omega
      unfold bleed at hle ⊢
      omega
    · have hheat := turn_heat h hstep
      unfold bleed at hle ⊢
      omega

/-! ## Closed-loop safety -/

namespace Watched

variable {k : Nat} {s t : Monitored}

/-- A twin of the operating envelope at 45000 or below. -/
def Cool (u : Twin) : Prop :=
  (Twin.system.restrict Twin.Undisturbed).Reachable u ∧ u.sim.dev.laserTemp ≤ 45000

/-- At most `k` turns before the first access of the watchdog and between two
of them until it has halted the device, and a host that writes control only,
and only before that. -/
def Schedule (k : Nat) (s : Monitored) : MonitoredOp → Prop
  | .twin (.iterate _ _) => s.tripped = true ∨ s.since < k
  | .twin (.hostWrite dev) =>
      s.tripped = false ∧ dev = { s.dev with control := dev.control }
  | .twin _ => True
  | .monitor => True
  | .stop => False

/-- How hot the laser can be by the time the watchdog gets to each of its
accesses. -/
def Bound (k : Nat) (s : Monitored) : Prop :=
  match s.pc with
  | .flag | .load =>
      s.tripped = false ∧ s.running = true ∧ s.since ≤ k ∧ heat s.twin ≤ 45000 + 25 * s.since
  | .trip =>
      s.tripped = false ∧ s.since ≤ k ∧ heat s.twin ≤ 45000 + 25 * k + 25 * s.since
  | .lower | .left =>
      s.tripped = true ∧ s.dev.control ≠ 1 ∧
        heat s.twin + 25 * bleed s.twin ≤ 47500 + 50 * k

/-- The envelope of the twin and the bound of the halt. -/
structure Inv (k : Nat) (s : Monitored) : Prop where
  twin : Twin.Inv s.twin
  bound : Bound k s

theorem start_inv (h : Cool s.twin) (hs : Monitored.Started s) : Inv k s := by
  have htwin := Twin.reachable_inv h.1
  have htemp : heat s.twin ≤ 45000 := by
    rw [heat, ← htwin.published]
    exact UInt32.le_iff_toNat_le.mp h.2
  refine ⟨htwin, ?_⟩
  unfold Bound
  rw [hs.pc]
  exact ⟨hs.tripped, hs.running, by rw [hs.since]; omega, by omega⟩

theorem Inv.turn (h : Inv k s) {pick bit : Fin 32} {v : Twin}
    (hsched : s.tripped = true ∨ s.since < k)
    (hstep : Twin.step s.twin (.iterate pick bit) v) :
    Inv k { s with twin := v, since := s.since + 1 } := by
  have hheat := turn_heat h.twin.envelope hstep
  refine ⟨h.twin.step (show Twin.Undisturbed s.twin (.iterate pick bit) from trivial) hstep, ?_⟩
  have hbound := h.bound
  unfold Bound at hbound ⊢
  cases hpc : s.pc with
  | flag | load =>
      simp only [hpc] at hbound ⊢
      obtain ⟨htrip, hrun, -, htemp⟩ := hbound
      have hlt := hsched.resolve_left (by simp [htrip])
      exact ⟨htrip, hrun, hlt, by omega⟩
  | trip =>
      simp only [hpc] at hbound ⊢
      obtain ⟨htrip, -, htemp⟩ := hbound
      have hlt := hsched.resolve_left (by simp [htrip])
      exact ⟨htrip, hlt, by omega⟩
  | lower | left =>
      simp only [hpc] at hbound ⊢
      obtain ⟨htrip, hoff, hbleed⟩ := hbound
      exact ⟨htrip, (Twin.iterate_frame hstep).1.trans_ne hoff,
        turn_bleed h.twin.envelope hoff hstep (by omega) hbleed⟩

/-- A step of the twin or its host that leaves the registers the bound is
about. -/
theorem Inv.frame (h : Inv k s) {v : Twin} (htwin : Twin.Inv v) (hheat : heat v = heat s.twin)
    (hbleed : bleed v = bleed s.twin)
    (hcontrol : s.tripped = true → v.sim.dev.control = s.dev.control) :
    Inv k { s with twin := v } := by
  refine ⟨htwin, ?_⟩
  have hbound := h.bound
  unfold Bound at hbound ⊢
  cases hpc : s.pc with
  | flag | load | trip =>
      simp only [hpc] at hbound ⊢
      rw [hheat]
      exact hbound
  | lower | left =>
      simp only [hpc] at hbound ⊢
      obtain ⟨htrip, hoff, hle⟩ := hbound
      exact ⟨htrip, (hcontrol htrip).trans_ne hoff, by rw [hheat, hbleed]; exact hle⟩

/-- The halt, made with the heat of two polls gained. -/
theorem Inv.halt (h : Inv k s) (hpc : s.pc = .trip) :
    Inv k
      { s.withDev (watchdogLoop.trip s.dev) with pc := .lower, tripped := true, since := 0 } := by
  have hbound := h.bound
  unfold Bound at hbound
  simp only [hpc] at hbound
  obtain ⟨-, hsince, htemp⟩ := hbound
  have hvolt := h.twin.envelope.volt_le
  have hbleed : bleed s.twin ≤ 100 := by
    change s.twin.sim.dev.ganVoltage.toNat ≤ 800000 at hvolt
    unfold bleed
    omega
  refine ⟨⟨h.twin.envelope, h.twin.published⟩, ?_⟩
  unfold Bound
  refine ⟨rfl, show (0x0 : UInt32) ≠ 1 by decide, ?_⟩
  change heat s.twin + 25 * bleed s.twin ≤ 47500 + 50 * k
  omega

theorem Inv.monitor (h : Inv k s) (hstep : s.monitorStep watchdogLoop = some t) : Inv k t := by
  have hbound := h.bound
  unfold Bound at hbound
  rcases Monitored.monitorStep_cases hstep with ⟨hpc, rfl⟩ | ⟨hpc, -, rfl⟩ | ⟨hpc, hcool, rfl⟩ |
    ⟨hpc, rfl⟩ | ⟨hpc, rfl⟩
  · simp only [hpc] at hbound
    obtain ⟨htrip, hrun, hsince, htemp⟩ := hbound
    refine ⟨h.twin, ?_⟩
    simp only [Bound, hrun, if_true]
    exact ⟨htrip, trivial, hsince, htemp⟩
  · simp only [hpc] at hbound
    obtain ⟨htrip, -, hsince, htemp⟩ := hbound
    exact ⟨h.twin, htrip, Nat.zero_le _, show heat s.twin ≤ 45000 + 25 * k + 25 * 0 by omega⟩
  · simp only [hpc] at hbound
    obtain ⟨htrip, hrun, -, -⟩ := hbound
    have htemp : heat s.twin ≤ 45000 := by
      rw [heat, ← h.twin.published]
      exact toNat_le_of_not_lt hcool
    exact ⟨h.twin, htrip, hrun, Nat.zero_le _, by simpa using htemp⟩
  · exact h.halt hpc
  · simp only [hpc] at hbound
    exact ⟨h.twin, hbound⟩

theorem Inv.step {op : MonitoredOp} (h : Inv k s) (hsched : Schedule k s op)
    (hstep : Monitored.step watchdogLoop s op t) : Inv k t := by
  cases op with
  | twin op =>
      obtain ⟨v, hv, rfl⟩ := hstep
      cases op with
      | iterate pick bit => exact h.turn hsched hv
      | triggerCorruption on =>
          subst hv
          exact h.frame ⟨h.twin.envelope, h.twin.published⟩ rfl rfl fun _ => rfl
      | triggerDeadlock on =>
          subst hv
          exact h.frame ⟨h.twin.envelope, h.twin.published⟩ rfl rfl fun _ => rfl
      | hostWrite dev =>
          subst hv
          obtain ⟨htrip, hdev⟩ := hsched
          have hvolt : dev.ganVoltage = s.dev.ganVoltage := by rw [hdev]
          have htemp : dev.laserTemp = s.dev.laserTemp := by rw [hdev]
          have hwrite : Twin.Undisturbed s.twin (.hostWrite dev) := ⟨hvolt, htemp⟩
          refine h.frame (h.twin.step hwrite rfl) rfl ?_ ?_
          · simp only [bleed, hvolt]
            rfl
          · intro htrue
            rw [htrip] at htrue
            cases htrue
      | hostMemory mem =>
          subst hv
          exact h.frame ⟨h.twin.envelope, h.twin.published⟩ rfl rfl fun _ => rfl
  | monitor => exact h.monitor hstep
  | stop => exact hsched.elim

theorem reachable_inv
    (h : ((Monitored.system watchdogLoop Cool).restrict (Schedule k)).Reachable s) : Inv k s := by
  refine System.Reachable.invariant (I := Inv k) ?_ ?_ h
  · rintro s ⟨hcool, hs⟩
    exact start_inv hcool hs
  · rintro s op t hs ⟨hsched, hstep⟩
    exact hs.step hsched hstep

/-- **Closed-loop thermal safety.**  From a state of the envelope at 45000 or
below with the watchdog polling, in every run in which at most `k` turns of
the physics loop separate two accesses of the watchdog until its halt and the
host writes control only before it, `laser_temp` never exceeds
`47500 + 50 * k`. -/
theorem closed_loop_bound
    (h : ((Monitored.system watchdogLoop Cool).restrict (Schedule k)).Reachable s) :
    s.dev.laserTemp.toNat ≤ 47500 + 50 * k := by
  have hinv := reachable_inv h
  have htemp : s.dev.laserTemp.toNat = heat s.twin := congrArg UInt32.toNat hinv.twin.published
  have hbound := hinv.bound
  rw [htemp]
  unfold Bound at hbound
  cases hpc : s.pc with
  | flag | load | trip | lower | left =>
      simp only [hpc] at hbound
      omega

/-- Powered on and left alone, a device comes to the limit at full voltage. -/
theorem exists_atLimit : ∃ u : Twin, Cool u ∧ Twin.Quiet u ∧
    ∀ n ≤ 2, (Twin.idleTurn^[n] u).sim.dev.laserTemp.toNat = 45000 + 25 * n := by
  have hreach := Twin.samplePowered_quiet.reachable Twin.samplePowered_reachable 200
  have hquiet := (Twin.samplePowered_quiet.run 200).2
  have hcontrol : (Twin.idleTurn^[200] Twin.samplePowered).sim.dev.control = 1 := by
    decide +kernel
  have hfull : (Twin.idleTurn^[200] Twin.samplePowered).sim.dev.ganVoltage = 800000 := by
    decide +kernel
  have hwarm : (Twin.idleTurn^[200] Twin.samplePowered).sim.phy.currentTempMc.toNat = 29950 := by
    decide +kernel
  generalize Twin.idleTurn^[200] Twin.samplePowered = w at hreach hquiet hcontrol hfull hwarm
  have hheat : ∀ n ≤ 604, (Twin.idleTurn^[n] w).sim.dev.laserTemp.toNat = 29950 + 25 * n := by
    intro n hn
    rw [(Twin.reachable_inv (hquiet.reachable hreach n)).published,
      hquiet.climbs (Twin.reachable_inv hreach) hcontrol hfull (by omega), hwarm]
  refine ⟨Twin.idleTurn^[602] w, ⟨hquiet.reachable hreach 602, ?_⟩, (hquiet.run 602).2, ?_⟩
  · rw [UInt32.le_iff_toNat_le, hheat 602 (by omega)]
    decide
  · intro n hn
    rw [← Function.iterate_add_apply, hheat (n + 602) (by omega)]
    omega

/-- A poll at the limit lets it pass; the next one, a turn later, does not, and
the halt comes after one more turn. -/
theorem closed_loop_bound_at_limit :
    ∃ s : Monitored, (s.tripped = true ∧ s.pc = .left ∧ s.loads = 2) ∧
      s.dev.laserTemp.toNat = 45050 ∧ s.dev.laserTemp.toNat ≤ 47500 + 50 * 1 := by
  obtain ⟨u, hcool, hquiet, htemp⟩ := exists_atLimit
  have hturn : ∀ {s : Monitored} {v : Twin},
      ((Monitored.system watchdogLoop Cool).restrict (Schedule 1)).Reachable s →
      s.since < 1 → Twin.step s.twin (.iterate 0 0) v →
      ((Monitored.system watchdogLoop Cool).restrict (Schedule 1)).Reachable
        { s with twin := v, since := s.since + 1 } :=
    fun h hsince hv => h.step (a := MonitoredOp.twin (.iterate 0 0)) ⟨.inr hsince, _, hv, rfl⟩
  have hmonitor : ∀ {s t : Monitored},
      ((Monitored.system watchdogLoop Cool).restrict (Schedule 1)).Reachable s →
      s.monitorStep watchdogLoop = some t →
      ((Monitored.system watchdogLoop Cool).restrict (Schedule 1)).Reachable t :=
    fun h hstep => h.step (a := MonitoredOp.monitor) ⟨trivial, hstep⟩
  have hstart : ((Monitored.system watchdogLoop Cool).restrict (Schedule 1)).Reachable
      (Monitored.starting u) :=
    System.Reachable.of_init ⟨hcool, Monitored.starting_started u⟩
  have hhot : 45000 < u.idleTurn.sim.dev.laserTemp :=
    UInt32.lt_iff_toNat_lt.mpr (Nat.lt_of_lt_of_eq (by decide) (htemp 1 (by omega)).symm)
  have hpoll := hmonitor (hmonitor hstart rfl)
    (Monitored.monitorStep_cool rfl (UInt32.not_lt.mpr hcool.2))
  have hload := hmonitor (hturn (hmonitor hpoll rfl) Nat.one_pos hquiet.step)
    (Monitored.monitorStep_hot rfl hhot)
  have htrip := hturn hload Nat.one_pos hquiet.idleTurn.step
  have hbound := closed_loop_bound (hmonitor (hmonitor htrip rfl) rfl)
  refine ⟨_, ⟨?_, ?_, ?_⟩, ?_, hbound⟩
  · rfl
  · rfl
  · rfl
  · exact htemp 2 le_rfl

/-! ## After the halt -/

/-- A freshly created device. -/
def Fresh (u : Twin) : Prop := u.sim = .fresh

/-- The host writes nothing but control. -/
def ControlWrites (s : Monitored) : MonitoredOp → Prop
  | .twin (.hostWrite dev) => dev = { s.dev with control := dev.control }
  | _ => True

/-- The host does not power the device on once the watchdog has halted it. -/
def NoRestart (s : Monitored) : MonitoredOp → Prop
  | .twin (.hostWrite dev) => s.tripped = true → dev.control ≠ 1
  | _ => True

/-- The laser is powered and above the limit, and the watchdog of a Driver
that is not being destroyed has left its loop. -/
structure Unguarded (s : Monitored) : Prop where
  alive : s.stopped = false
  left : s.pc = .left
  powered : s.dev.control = 1
  hot : 45000 < s.dev.laserTemp

/-- A live watchdog leaves only through its halt, and the device stays
halted. -/
structure HaltInv (s : Monitored) : Prop where
  halted : s.tripped = true → s.dev.control ≠ 1
  leaving : s.stopped = false → s.pc = .lower ∨ s.pc = .left → s.tripped = true
  running : s.stopped = false → s.pc ≠ .left → s.running = true

theorem HaltInv.monitor (h : HaltInv s) (hstep : s.monitorStep watchdogLoop = some t) :
    HaltInv t := by
  rcases Monitored.monitorStep_cases hstep with ⟨hpc, rfl⟩ | ⟨hpc, -, rfl⟩ | ⟨hpc, -, rfl⟩ |
    ⟨hpc, rfl⟩ | ⟨hpc, rfl⟩
  · refine ⟨h.halted, ?_, ?_⟩
    · intro halive hleft
      have hrun := h.running halive (by simp [hpc])
      simp only [hrun, if_true] at hleft
      simp at hleft
    · intro halive _
      exact h.running halive (by simp [hpc])
  · exact ⟨h.halted, fun _ hleft => by simp at hleft,
      fun halive _ => h.running halive (by simp [hpc])⟩
  · exact ⟨h.halted, fun _ hleft => by simp at hleft,
      fun halive _ => h.running halive (by simp [hpc])⟩
  · exact ⟨fun _ => show (0x0 : UInt32) ≠ 1 by decide, fun _ _ => rfl,
      fun halive _ => h.running halive (by simp [hpc])⟩
  · exact ⟨h.halted, fun halive _ => h.leaving halive (.inl hpc), fun _ hleft => absurd rfl hleft⟩

theorem HaltInv.step {op : MonitoredOp} (h : HaltInv s) (hop : NoRestart s op)
    (hstep : Monitored.step watchdogLoop s op t) : HaltInv t := by
  cases op with
  | twin op =>
      obtain ⟨v, hv, rfl⟩ := hstep
      refine ⟨?_, h.leaving, h.running⟩
      intro htrip
      have hoff := h.halted htrip
      cases op with
      | iterate pick bit => exact (Twin.iterate_frame hv).1.trans_ne hoff
      | hostWrite dev =>
          subst hv
          exact hop htrip
      | triggerCorruption on | triggerDeadlock on | hostMemory mem =>
          subst hv
          exact hoff
  | monitor => exact h.monitor hstep
  | stop =>
      subst hstep
      exact ⟨h.halted, fun halive => (by cases halive), fun halive => (by cases halive)⟩

/-! ## Heating and the halt, whatever the host may do -/

/-- A condition on the host alone. -/
structure HostOnly (C : Monitored → MonitoredOp → Prop) : Prop where
  turn : ∀ s pick bit, C s (.twin (.iterate pick bit))
  monitor : ∀ s, C s .monitor

/-- A write of `v` to control. -/
def setControl (u : Twin) (v : UInt32) : Twin :=
  { u with sim := { u.sim with dev := { u.sim.dev with control := v } } }

/-- A host write to control. -/
def powered (s : Monitored) (v : UInt32) : Monitored := { s with twin := setControl s.twin v }

/-- A number of turns that nothing disturbs. -/
def rested (n : Nat) (u : Twin) : Twin := Twin.idleTurn^[n] u

/-- In the envelope, and left alone by passes and chaos. -/
structure Calm (u : Twin) : Prop where
  inv : Twin.Inv u
  quiet : Twin.Quiet u

theorem Calm.setControl {u : Twin} (h : Calm u) (v : UInt32) : Calm (setControl u v) :=
  ⟨⟨h.inv.envelope, h.inv.published⟩,
    ⟨h.quiet.dataPtr, h.quiet.corruptStatus, h.quiet.injectDeadlock⟩⟩

theorem Calm.rested {u : Twin} (h : Calm u) {n : Nat} (hn : 5000 ≤ n) : Calm (rested n u) :=
  ⟨(h.quiet.settled h.inv hn).1, (h.quiet.run n).2⟩

/-- Left alone with power on, the laser ends at 89000. -/
theorem Calm.rested_hot {u : Twin} (h : Calm u) {n : Nat} (hn : 5000 ≤ n)
    (hon : u.sim.dev.control = 1) :
    45000 < (Watched.rested n u).sim.dev.laserTemp ∧
      (Watched.rested n u).sim.dev.control = 1 := by
  obtain ⟨-, hsettled, hcontrol⟩ := h.quiet.settled h.inv hn
  have htemp : (Watched.rested n u).sim.dev.laserTemp = 89000 := (hsettled.powered hon).2.1
  rw [htemp]
  exact ⟨by decide, hcontrol.trans hon⟩

theorem samplePowered_calm : Calm Twin.samplePowered :=
  ⟨Twin.reachable_inv Twin.samplePowered_reachable, Twin.samplePowered_quiet⟩

section HostOnly

variable {C : Monitored → MonitoredOp → Prop} (hC : HostOnly C)

include hC

theorem HostOnly.reach_rested
    (h : ((Monitored.system watchdogLoop Fresh).restrict C).Reachable s)
    (hquiet : Twin.Quiet s.twin) (n : Nat) :
    ∃ k, ((Monitored.system watchdogLoop Fresh).restrict C).Reachable
      { s with twin := rested n s.twin, since := k } := by
  have hfree : ∀ s, ∀ op ∈ List.replicate n (TwinOp.iterate 0 0), C s (.twin op) := by
    intro s op hop
    rw [List.eq_of_mem_replicate hop]
    exact hC.turn s 0 0
  obtain ⟨k, hrun⟩ := Monitored.run_twin (hquiet.run n).1 hfree s rfl
  exact ⟨k, h.run hrun⟩

/-- The watchdog on a hot laser: flag, load, halt, flag down, gone. -/
theorem HostOnly.reach_tripped
    (h : ((Monitored.system watchdogLoop Fresh).restrict C).Reachable s) (hpc : s.pc = .flag)
    (hrun : s.running = true) (hhot : 45000 < s.dev.laserTemp) :
    ((Monitored.system watchdogLoop Fresh).restrict C).Reachable
      { powered s 0x0 with
        pc := .left, running := false, tripped := true, loads := s.loads + 1, since := 0 } := by
  have hflag : ((Monitored.system watchdogLoop Fresh).restrict C).Reachable
      { s with pc := .load } :=
    h.step (a := MonitoredOp.monitor) ⟨hC.monitor _, Monitored.monitorStep_flag hpc hrun⟩
  have hload : ((Monitored.system watchdogLoop Fresh).restrict C).Reachable
      { s with pc := .trip, loads := s.loads + 1, since := 0 } :=
    hflag.step (a := MonitoredOp.monitor) ⟨hC.monitor _, Monitored.monitorStep_hot rfl hhot⟩
  have htrip : ((Monitored.system watchdogLoop Fresh).restrict C).Reachable
      { powered s 0x0 with pc := .lower, tripped := true, loads := s.loads + 1, since := 0 } :=
    hload.step (a := MonitoredOp.monitor) ⟨hC.monitor _, rfl⟩
  exact htrip.step (a := MonitoredOp.monitor) ⟨hC.monitor _, rfl⟩

end HostOnly

theorem noRestart_hostOnly : HostOnly NoRestart := ⟨fun _ _ _ => trivial, fun _ => trivial⟩

theorem controlWrites_hostOnly : HostOnly ControlWrites :=
  ⟨fun _ _ _ => trivial, fun _ => trivial⟩

/-! ## Until a restart -/

/-- **The watchdog guards until a restart.**  In every run in which the host,
whatever else it writes, does not power the device on after the watchdog's
halt, a live Driver's laser is never above the limit with power on and the
watchdog gone. -/
theorem guarded_until_restart
    (h : ((Monitored.system watchdogLoop Fresh).restrict NoRestart).Reachable s) :
    ¬Unguarded s := by
  have hinv : HaltInv s := by
    refine System.Reachable.invariant (I := HaltInv) ?_ ?_ h
    · rintro s ⟨-, hs⟩
      refine ⟨?_, ?_, fun _ _ => hs.running⟩
      · intro htrip
        rw [hs.tripped] at htrip
        cases htrip
      · intro _ hleft
        rw [hs.pc] at hleft
        simp at hleft
    · rintro s op t hs ⟨hop, hstep⟩
      exact hs.step hop hstep
  intro hun
  exact hinv.halted (hinv.leaving hun.alive (.inr hun.left)) hun.powered

/-- Powered on, left alone and halted at 89000: the watchdog has left, and the
laser is still above the limit. -/
theorem guarded_until_restart_halted :
    ∃ s : Monitored, (s.stopped = false ∧ s.pc = .left ∧ s.tripped = true ∧
      45000 < s.dev.laserTemp) ∧ ¬Unguarded s := by
  have hstart : ((Monitored.system watchdogLoop Fresh).restrict NoRestart).Reachable
      (Monitored.starting Twin.sampleFresh) :=
    System.Reachable.of_init ⟨rfl, Monitored.starting_started _⟩
  have hpowered : ((Monitored.system watchdogLoop Fresh).restrict NoRestart).Reachable
      (Monitored.starting Twin.samplePowered) :=
    hstart.step (a := MonitoredOp.twin (.hostWrite Twin.samplePowered.sim.dev))
      ⟨fun htrip => (by cases htrip), _, rfl, rfl⟩
  obtain ⟨n, hn⟩ : ∃ n, 5000 ≤ n := ⟨5000, le_rfl⟩
  have hhot := (samplePowered_calm.rested_hot hn rfl).1
  obtain ⟨k, hheated⟩ := noRestart_hostOnly.reach_rested hpowered samplePowered_calm.quiet n
  have htripped := noRestart_hostOnly.reach_tripped hheated rfl rfl hhot
  refine ⟨_, ⟨?_, ?_, ?_, ?_⟩, guarded_until_restart htripped⟩
  · rfl
  · rfl
  · rfl
  · exact hhot

/-! ## Trip, cool-down, restart -/

/-- The system of a watchdog and a host that writes control only. -/
def controlled : System Monitored MonitoredOp :=
  (Monitored.system watchdogLoop Fresh).restrict ControlWrites

theorem reach_powered (h : controlled.Reachable s) (v : UInt32) :
    controlled.Reachable (powered s v) :=
  h.step (a := MonitoredOp.twin (.hostWrite { s.dev with control := v })) ⟨rfl, _, rfl, rfl⟩

/-- **Restarted, the laser runs unguarded.**  Power on, heat, halt and
cool-down are followed by a restart of the same live Driver, and nothing
watches the laser reach 89000. -/
theorem restart_unguarded : ∃ s, controlled.Reachable s ∧ Unguarded s := by
  have hstart : controlled.Reachable (Monitored.starting Twin.sampleFresh) :=
    System.Reachable.of_init ⟨rfl, Monitored.starting_started _⟩
  obtain ⟨n, hn⟩ : ∃ n, 5000 ≤ n := ⟨5000, le_rfl⟩
  obtain ⟨k₁, hhot⟩ := controlWrites_hostOnly.reach_rested (reach_powered hstart 1)
    samplePowered_calm.quiet n
  have htripped := controlWrites_hostOnly.reach_tripped hhot rfl rfl
    (samplePowered_calm.rested_hot hn rfl).1
  have hhalted := (samplePowered_calm.rested hn).setControl 0x0
  obtain ⟨k₂, hcold⟩ := controlWrites_hostOnly.reach_rested htripped hhalted.quiet n
  have hrestarted := (hhalted.rested hn).setControl 1
  obtain ⟨k₃, hagain⟩ := controlWrites_hostOnly.reach_rested (reach_powered hcold 1)
    hrestarted.quiet n
  obtain ⟨htemp, hcontrol⟩ := hrestarted.rested_hot hn rfl
  exact ⟨_, hagain, rfl, rfl, hcontrol, htemp⟩

end Watched

end PorthCore.Ports.Watchdog
