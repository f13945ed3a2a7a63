import PorthCore.Ports.Monitor

/-!
# An injected over-temperature and the monitor that polls for it

A host writes a value above the limit to `laser_temp` while a monitor runs
beside the physics loop.  The register has a second writer: every turn of the
loop that is not frozen publishes the PHY's own temperature over whatever is
there.  The monitor samples, so it sees the breach only if nothing below the
limit has been written by the time it loads.

`injected_breach_trips` is the guarantee under that condition, for both
monitors and every schedule; in `breach_missed` one turn comes in between.
-/

namespace PorthCore.Ports.InjectedBreach

open PorthCore.Verified.Transition
open PorthCore.Ports.SimDevice
open PorthCore.Ports.Thermal
open PorthCore.Ports.OperatingEnvelope
open PorthCore.Ports.Monitor

namespace Injected

/-- A host write to `laser_temp`. -/
def inject (s : Monitored) (v : UInt32) : Monitored := s.withDev { s.dev with laserTemp := v }

/-- A monitor beside any twin, with a host that writes `laser_temp` only. -/
def LaserWrites (s : Monitored) : MonitoredOp → Prop
  | .twin (.hostWrite dev) => dev = { s.dev with laserTemp := dev.laserTemp }
  | _ => True

/-- The monitor has yet to load `laser_temp`. -/
def Pending (s : Monitored) : Prop := s.pc = .flag ∨ s.pc = .load

/-- Until the load, nobody writes a value within the limit over the injected
one: neither the host nor a turn of the physics loop. -/
def Survives (m : MonitorLoop) (s : Monitored) (op : MonitoredOp) : Prop :=
  LaserWrites s op ∧
    match op with
    | .twin (.iterate _ _) =>
        Pending s → s.twin.sim.injectDeadlock = true ∨
          m.limit < (thermals s.twin.sim).nextPhy.currentTempMc
    | .twin (.hostWrite dev) => Pending s → m.limit < dev.laserTemp
    | _ => True

/-- What holds from the injection on: the breach is in the register until the
load, and from the emergency write on the registers show it.  `P` is what the
write leaves in control and `safety_trip`, `n` the number of loads before. -/
def Inv (m : MonitorLoop) (P : UInt32 → UInt32 → Prop) (n : Nat) (s : Monitored) : Prop :=
  match s.pc with
  | .flag | .load => m.limit < s.dev.laserTemp ∧ s.loads = n
  | .trip => True
  | .lower => P s.dev.control s.dev.safetyTrip
  | .left => s.loads = n ∨ P s.dev.control s.dev.safetyTrip

variable {m : MonitorLoop} {P : UInt32 → UInt32 → Prop} {n : Nat} {s t : Monitored}

theorem Inv.frame (h : Inv m P n s) {v : Twin} {k : Nat}
    (hcontrol : v.sim.dev.control = s.dev.control)
    (htrip : v.sim.dev.safetyTrip = s.dev.safetyTrip)
    (hlaser : Pending s → m.limit < v.sim.dev.laserTemp) :
    Inv m P n { s with twin := v, since := k } := by
  unfold Inv at h ⊢
  cases hpc : s.pc with
  | flag | load =>
      simp only [hpc] at h ⊢
      exact ⟨hlaser (by simp [Pending, hpc]), h.2⟩
  | trip => trivial
  | lower =>
      simp only [hpc] at h ⊢
      show P v.sim.dev.control v.sim.dev.safetyTrip
      rw [hcontrol, htrip]
      exact h
  | left =>
      simp only [hpc] at h ⊢
      show s.loads = n ∨ P v.sim.dev.control v.sim.dev.safetyTrip
      rw [hcontrol, htrip]
      exact h

theorem Inv.pending (h : Inv m P n s) (hpending : Pending s) : m.limit < s.dev.laserTemp := by
  unfold Inv at h
  rcases hpending with hpc | hpc
  · simp only [hpc] at h
    exact h.1
  · simp only [hpc] at h
    exact h.1

theorem Inv.monitor (h : Inv m P n s)
    (hP : ∀ dev, P (m.trip dev).control (m.trip dev).safetyTrip)
    (hstep : s.monitorStep m = some t) : Inv m P n t := by
  unfold Inv at h
  rcases Monitored.monitorStep_cases hstep with ⟨hpc, rfl⟩ | ⟨hpc, -, rfl⟩ | ⟨hpc, hcool, rfl⟩ |
    ⟨hpc, rfl⟩ | ⟨hpc, rfl⟩
  · simp only [hpc] at h
    cases hrun : s.running with
    | true => exact h
    | false => exact .inl h.2
  · trivial
  · simp only [hpc] at h
    exact absurd h.1 hcool
  · have hissued := hP s.dev
    cases hlower : m.lowersFlag with
    | true => exact hissued
    | false => exact .inr hissued
  · simp only [hpc] at h
    exact .inr h

theorem Inv.step (h : Inv m P n s) (hP : ∀ dev, P (m.trip dev).control (m.trip dev).safetyTrip)
    {op : MonitoredOp} (hop : Survives m s op) (hstep : Monitored.step m s op t) :
    Inv m P n t := by
  obtain ⟨hwrites, hsurvives⟩ := hop
  cases op with
  | twin op =>
      obtain ⟨v, hv, rfl⟩ := hstep
      cases op with
      | iterate pick bit =>
          obtain ⟨hcontrol, htrip⟩ := Twin.iterate_frame hv
          refine h.frame hcontrol htrip fun hpending => ?_
          have hthermals := congrArg Thermals.laserTemp (Twin.thermals_iterate hv)
          change v.sim.dev.laserTemp = _ at hthermals
          rw [hthermals, turned]
          rcases hsurvives hpending with hdead | hhot
          · rw [if_pos hdead]
            exact h.pending hpending
          · split
            · exact h.pending hpending
            · exact hhot
      | hostWrite dev =>
          subst hv
          refine h.frame ?_ ?_ fun hpending => hsurvives hpending
          · show dev.control = s.dev.control
            rw [hwrites]
          · show dev.safetyTrip = s.dev.safetyTrip
            rw [hwrites]
      | triggerCorruption on | triggerDeadlock on | hostMemory mem =>
          subst hv
          exact h.frame rfl rfl fun hpending => h.pending hpending
  | monitor => exact h.monitor hP hstep
  | stop =>
      subst hstep
      exact h

/-- At the end of an iteration that has loaded, the registers show the
emergency write. -/
theorem Inv.issued (h : Inv m P n s) (hload : n < s.loads) (hend : s.pc = .flag ∨ s.pc = .left) :
    P s.dev.control s.dev.safetyTrip := by
  unfold Inv at h
  rcases hend with hpc | hpc
  · simp only [hpc] at h
    omega
  · simp only [hpc] at h
    exact h.resolve_left (by omega)

theorem issued_of_run (hP : ∀ dev, P (m.trip dev).control (m.trip dev).safetyTrip)
    {start : Twin → Prop} {v : UInt32} {ops : List MonitoredOp} (hhot : m.limit < v)
    (hpolling : Pending s)
    (hrun : ((Monitored.system m start).restrict (Survives m)).Run (inject s v) ops t)
    (hload : s.loads < t.loads) (hend : t.pc = .flag ∨ t.pc = .left) :
    P t.dev.control t.dev.safetyTrip := by
  have hstart : Inv m P s.loads (inject s v) := by
    unfold Inv
    rcases hpolling with hpc | hpc
    · rw [show (inject s v).pc = .flag from hpc]
      exact ⟨hhot, rfl⟩
    · rw [show (inject s v).pc = .load from hpc]
      exact ⟨hhot, rfl⟩
  have hinv : Inv m P s.loads t := by
    refine System.Run.preserves (I := Inv m P s.loads) ?_ hrun hstart
    rintro u op w hu ⟨hop, hstep⟩
    exact hu.step hP hop hstep
  exact hinv.issued hload hend

/-- **An injected breach that survives is not missed.**  A host writes `v`,
above the limit, to `laser_temp` while a monitor is polling.  In every run
after that in which, until the monitor loads, no host write and no turn of the
physics loop puts a value within the limit over it, the monitor has made its
emergency write by the end of the first iteration that has loaded the
register.  A load that finds a value within the limit ends the iteration with
nothing written. -/
theorem injected_breach_trips {v : UInt32} (hhot : 45000 < v) :
    (∀ s ops t, Pending s →
      ((Monitored.system sentinelLoop fun _ => True).restrict (Survives sentinelLoop)).Run
        (inject s v) ops t →
      s.loads < t.loads → t.pc = .flag ∨ t.pc = .left → t.dev.safetyTrip = 0xDEADBEEF) ∧
    (∀ s ops t, Pending s →
      ((Monitored.system watchdogLoop fun _ => True).restrict (Survives watchdogLoop)).Run
        (inject s v) ops t →
      s.loads < t.loads → t.pc = .flag ∨ t.pc = .left → t.dev.control = 0) ∧
    ∀ m s t, s.pc = .load → ¬m.limit < s.dev.laserTemp → Monitored.step m s .monitor t →
      t.pc = .flag ∧ t.twin = s.twin := by
  refine ⟨?_, ?_, ?_⟩
  · intro s ops t hpolling hrun hload hend
    exact issued_of_run (P := fun _ trip => trip = 0xDEADBEEF) (fun _ => rfl) hhot hpolling hrun
      hload hend
  · intro s ops t hpolling hrun hload hend
    exact issued_of_run (P := fun control _ => control = 0) (fun _ => rfl) hhot hpolling hrun
      hload hend
  · intro m s t hpc hcool hstep
    obtain rfl : _ = t := Option.some.inj ((Monitored.monitorStep_cool hpc hcool).symm.trans hstep)
    exact ⟨rfl, rfl⟩

/-! ## With and without a turn in between -/

/-- A monitor started on a powered twin, and 46000 injected. -/
def sampleInjected : Monitored := inject (Monitored.starting Twin.samplePowered) 46000

/-- The same once the Sentinel has loaded the register, tripped and left. -/
def sampleTripped : Monitored :=
  { sampleInjected.withDev (sentinelLoop.trip sampleInjected.dev) with
    pc := .left, tripped := true, loads := 1 }

/-- The same with one turn of the physics loop before the load. -/
def sampleMissed : Monitored :=
  { sampleInjected with twin := sampleInjected.twin.idleTurn, loads := 1 }

theorem injected_breach_trips_at_once : sampleTripped.dev.safetyTrip = 0xDEADBEEF := by
  have hrun : ((Monitored.system sentinelLoop fun _ => True).restrict
      (Survives sentinelLoop)).Run (inject (Monitored.starting Twin.samplePowered) 46000)
      [MonitoredOp.monitor, MonitoredOp.monitor, MonitoredOp.monitor] sampleTripped := by
    refine .cons ⟨⟨trivial, trivial⟩, Monitored.monitorStep_flag rfl rfl⟩ ?_
    refine .cons ⟨⟨trivial, trivial⟩, Monitored.monitorStep_hot rfl (by decide)⟩ ?_
    exact .cons ⟨⟨trivial, trivial⟩, rfl⟩ (.nil _)
  have hmain := (injected_breach_trips (v := 46000) (by decide)).1
  exact hmain (Monitored.starting Twin.samplePowered) _ sampleTripped (.inl rfl) hrun (by decide)
    (.inr rfl)

/-- One turn between injection and load puts 25000 back, and the iteration
ends without a trip. -/
theorem breach_missed :
    45000 < sampleInjected.dev.laserTemp ∧
      (∃ ops, ((Monitored.system sentinelLoop fun _ => True).restrict LaserWrites).Run
        sampleInjected ops sampleMissed) ∧
      (∃ ops, ((Monitored.system watchdogLoop fun _ => True).restrict LaserWrites).Run
        sampleInjected ops sampleMissed) ∧
      sampleMissed.loads = 1 ∧ sampleMissed.pc = .flag ∧
      sampleMissed.dev.safetyTrip ≠ 0xDEADBEEF ∧ sampleMissed.dev.control ≠ 0 := by
  have hturn : ∀ m, Monitored.step m sampleInjected (.twin (.iterate 0 0))
      { sampleInjected with twin := sampleInjected.twin.idleTurn, since := 1 } :=
    fun m => ⟨_, Twin.Quiet.step ⟨rfl, rfl, rfl⟩, rfl⟩
  refine ⟨by decide, ⟨[.twin (.iterate 0 0), .monitor, .monitor], ?_⟩,
    ⟨[.twin (.iterate 0 0), .monitor, .monitor], ?_⟩, rfl, rfl, by decide, by decide⟩
  · refine .cons ⟨trivial, hturn sentinelLoop⟩
      (.cons ⟨trivial, Monitored.monitorStep_flag rfl rfl⟩ ?_)
    exact .cons ⟨trivial, Monitored.monitorStep_cool rfl (by decide +kernel)⟩ (.nil _)
  · refine .cons ⟨trivial, hturn watchdogLoop⟩
      (.cons ⟨trivial, Monitored.monitorStep_flag rfl rfl⟩ ?_)
    exact .cons ⟨trivial, Monitored.monitorStep_cool rfl (by decide +kernel)⟩ (.nil _)

end Injected

end PorthCore.Ports.InjectedBreach
