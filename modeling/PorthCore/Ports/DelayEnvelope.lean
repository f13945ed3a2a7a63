import PorthCore.Ports.OperatingEnvelope
import PorthCore.Ports.ProtocolDelay

/-!
# How long an access to the twin takes

`read_reg`, `write_reg`, their flit variants and every descriptor of a DMA pass
go through `apply_protocol_delay`, which adds up a delay and spins for it.  The
thermal term follows the laser, so what an access costs depends on everything
that happened to the chip before.

An access is an operation of its own here, between any two operations of the
twin and any two configurations of its PHY: the physics loop reads the same
temperature in the middle of a turn as before it.  `toCycles` is the conversion
from nanoseconds through `double`; all that matters is that it is monotone.
-/

namespace PorthCore.Ports.DelayEnvelope

open PorthCore.Verified.Transition
open PorthCore.Verified.Transition.System
open PorthCore.Ports.SimDevice
open PorthCore.Ports.Thermal
open PorthCore.Ports.OperatingEnvelope
open PorthCore.Ports.ProtocolDelay

/-- An access that has returned: the configuration it met, the delay it was to
wait for and the cycles it has waited. -/
structure Served where
  baseNs : UInt64
  jitterNs : UInt64
  delayNs : UInt64
  waited : UInt64
  deriving DecidableEq, Repr

/-- The twin, the configuration of its PHY, and the accesses it has served. -/
structure Bus where
  twin : Twin
  baseDelayNs : UInt64
  jitterNs : UInt64
  served : List Served

/-- A step of the twin, a new configuration, or an access of the host. -/
inductive BusOp
  | twin (op : TwinOp)
  | setConfig (base jitter : UInt64)
  /-- An access with its draws, and the readings of the cycle counter before
  the spin loop and at its exit. -/
  | access (draw : Int64) (retry : Bool) (startCycles now : UInt64)

namespace Bus

/-- The PHY as its delay sees it. -/
def phy (s : Bus) : PhyDelay :=
  { currentTempMc := s.twin.sim.phy.currentTempMc
    baseDelayNs := s.baseDelayNs
    jitterNs := s.jitterNs
    jitterDist := .ofJitter s.jitterNs }

variable (toCycles : UInt64 → UInt64)

/-- What an access that returns leaves in the log. -/
def serve (s : Bus) (draw : Int64) (retry : Bool) (startCycles now : UInt64) : Served :=
  { baseNs := s.baseDelayNs
    jitterNs := s.jitterNs
    delayNs := s.phy.totalDelayNs draw retry
    waited := now - startCycles }

/-- One step of the bus. -/
def step (s : Bus) (op : BusOp) (t : Bus) : Prop :=
  match op with
  | .twin op => ∃ twin, Twin.step s.twin op twin ∧ t = { s with twin := twin }
  | .setConfig base jitter => t = { s with baseDelayNs := base, jitterNs := jitter }
  | .access draw retry startCycles now =>
      (s.phy.jitterDist.lower ≤ draw ∧ draw ≤ s.phy.jitterDist.upper) ∧
        ¬now - startCycles < toCycles (s.phy.totalDelayNs draw retry) ∧
        t = { s with served := s.served ++ [s.serve draw retry startCycles now] }

/-- A fresh device with the default configuration. -/
structure Start (s : Bus) : Prop where
  sim : s.twin.sim = .fresh
  baseDelayNs : s.baseDelayNs = 100
  jitterNs : s.jitterNs = 25
  served : s.served = []

/-- Accesses of the host beside a running twin, with any cycle conversion. -/
def system : System Bus BusOp := { init := Start, step := step toCycles }

/-- Only the physics loop writes the thermal registers, and configurations are
ones the delay is exact for. -/
def Sane (s : Bus) : BusOp → Prop
  | .twin op => Twin.Undisturbed s.twin op
  | .setConfig base jitter => Fits base jitter
  | .access _ _ _ _ => True

end Bus

/-- The bounds of an access. -/
structure Served.InBounds (toCycles : UInt64 → UInt64) (a : Served) : Prop where
  fits : Fits a.baseNs a.jitterNs
  floor : a.baseNs.toNat + 5 ≤ a.delayNs.toNat + a.jitterNs.toNat
  ceiling : a.delayNs.toNat ≤ a.baseNs.toNat + 5 + a.jitterNs.toNat + 49 + 500
  waited : toCycles (a.baseNs + 5 - a.jitterNs) ≤ a.waited

section Runs

variable {toCycles : UInt64 → UInt64} {s t : Bus}

/-- The twin keeps its envelope, the configuration fits, and each access was
served in bounds. -/
structure Inv (toCycles : UInt64 → UInt64) (s : Bus) : Prop where
  twin : Twin.Inv s.twin
  config : Fits s.baseDelayNs s.jitterNs
  served : ∀ a ∈ s.served, a.InBounds toCycles

/-- Below 89.02 degrees the thermal term is 49 at most. -/
theorem thermalNs_envelope {twin : Twin} (h : Twin.Inv twin) :
    thermalNs twin.sim.phy.currentTempMc ≤ 49 := by
  have hle : (twin.sim.phy.currentTempMc.toNat : Int) ≤ 89020 := h.envelope.temp_le
  unfold thermalNs
  omega

private theorem floor_toNat {base jitter : UInt64} (h : Fits base jitter) :
    (base + 5 - jitter).toNat + jitter.toNat = base.toNat + 5 := by
  have hcovered := h.covered
  have hroom := h.room
  have hsum : (base + 5).toNat = base.toNat + 5 := by
    rw [UInt64.toNat_add]
    exact Nat.mod_eq_of_lt (show base.toNat + 5 < 2 ^ 64 by omega)
  rw [UInt64.toNat_sub_of_le _ _ (UInt64.le_iff_toNat_le.mpr (hsum ▸ hcovered)), hsum]
  omega

theorem Inv.serve (h : Inv toCycles s) (hmono : ∀ a b, a ≤ b → toCycles a ≤ toCycles b)
    {draw : Int64} {retry : Bool} {startCycles now : UInt64}
    (hdraw : s.phy.jitterDist.lower ≤ draw ∧ draw ≤ s.phy.jitterDist.upper)
    (hdone : ¬now - startCycles < toCycles (s.phy.totalDelayNs draw retry)) :
    (s.serve draw retry startCycles now).InBounds toCycles := by
  have hsigned := h.config.signed
  have hcovered := h.config.covered
  have hroom := h.config.room
  have hthermal := thermalNs_envelope h.twin
  have hfec := fecNs_le retry
  have hmem : -(s.phy.jitterNs.toNat : Int) ≤ draw.toInt ∧ draw.toInt ≤ s.phy.jitterNs.toNat :=
    (draw_mem_iff rfl hsigned draw).mp hdraw
  dsimp only [Bus.phy] at hmem
  have hexact : ((s.phy.totalDelayNs draw retry).toNat : Int) = s.baseDelayNs.toNat + 5 +
      draw.toInt + thermalNs s.twin.sim.phy.currentTempMc + fecNs retry := by
    have hphy : s.phy.jitterDist = .ofJitter s.phy.jitterNs := rfl
    refine (totalDelayNs_exact_iff hphy hsigned s.phy.currentTempMc retry hdraw.1 hdraw.2).mpr ?_
    dsimp only [Bus.phy]
    omega
  have hfloor : s.baseDelayNs.toNat + 5 ≤
      (s.phy.totalDelayNs draw retry).toNat + s.jitterNs.toNat := by
    omega
  refine
    { fits := h.config
      floor := hfloor
      ceiling := ?_
      waited := ?_ }
  · show (s.phy.totalDelayNs draw retry).toNat ≤ _
    dsimp only [Bus.serve]
    omega
  · refine UInt64.le_trans (hmono _ _ ?_) (UInt64.not_lt.mp hdone)
    have hbase := floor_toNat h.config
    rw [UInt64.le_iff_toNat_le]
    dsimp only [Bus.serve]
    omega

theorem Inv.step (h : Inv toCycles s) (hmono : ∀ a b, a ≤ b → toCycles a ≤ toCycles b)
    {op : BusOp} (hsane : s.Sane op) (hst : s.step toCycles op t) : Inv toCycles t := by
  cases op with
  | twin op =>
      obtain ⟨twin, htwin, rfl⟩ := hst
      exact { h with twin := h.twin.step hsane htwin }
  | setConfig base jitter =>
      subst hst
      exact { h with config := hsane }
  | access draw retry startCycles now =>
      obtain ⟨hdraw, hdone, rfl⟩ := hst
      refine { h with served := ?_ }
      intro a ha
      rcases List.mem_append.mp ha with hold | hnew
      · exact h.served a hold
      · rw [List.mem_singleton.mp hnew]
        exact h.serve hmono hdraw hdone

/-- **What an access costs**: in any run in which only the physics loop writes
the thermal registers and every configuration is one the delay is exact for,
each access is asked to wait for `base + 5` ns, give or take the jitter, and up
to 549 ns more, with the configuration as it was then; and it has not returned
before the cycles of the smallest such delay were over. -/
theorem accesses_in_bounds (hmono : ∀ a b, a ≤ b → toCycles a ≤ toCycles b)
    (h : ((Bus.system toCycles).restrict Bus.Sane).Reachable s) :
    ∀ a ∈ s.served,
      a.baseNs.toNat + 5 ≤ a.delayNs.toNat + a.jitterNs.toNat ∧
        a.delayNs.toNat ≤ a.baseNs.toNat + 5 + a.jitterNs.toNat + 549 ∧
        toCycles (a.baseNs + 5 - a.jitterNs) ≤ a.waited := by
  have hinv : Inv toCycles s := by
    refine h.invariant (I := Inv toCycles) ?_ ?_
    · intro s hs
      exact
        { twin := Twin.fresh_inv hs.sim
          config := by
            rw [hs.baseDelayNs, hs.jitterNs]
            exact ⟨by decide, by decide, by decide⟩
          served := by
            rw [hs.served]
            exact List.forall_mem_nil _ }
    · rintro s op t hs ⟨hsane, hst⟩
      exact hs.step hmono hsane hst
  intro a ha
  obtain ⟨-, hfloor, hceiling, hwaited⟩ := hinv.served a ha
  exact ⟨hfloor, by omega, hwaited⟩

/-- 2.4 cycles a nanosecond. -/
def defaultCycles (ns : UInt64) : UInt64 := .ofNat (min (2 ^ 64 - 1) (ns.toNat * 12 / 5))

private theorem defaultCycles_mono (a b : UInt64) (h : a ≤ b) :
    defaultCycles a ≤ defaultCycles b := by
  rw [UInt64.le_iff_toNat_le] at h ⊢
  unfold defaultCycles
  have hlt (n : Nat) : min (2 ^ 64 - 1) n < 2 ^ 64 :=
    Nat.lt_of_le_of_lt (Nat.min_le_left _ _) (by decide)
  rw [UInt64.toNat_ofNat', UInt64.toNat_ofNat', Nat.mod_eq_of_lt (hlt _),
    Nat.mod_eq_of_lt (hlt _)]
  exact min_le_min_left _ (Nat.div_le_div_right (Nat.mul_le_mul_right 12 h))

/-- A fresh device. -/
def freshBus : Bus :=
  { twin := Twin.sampleFresh, baseDelayNs := 100, jitterNs := 25, served := [] }

/-- The smallest draw of the default configuration, then a retry under the
stress scenario. -/
def stressed : Bus :=
  { twin := Twin.sampleFresh
    baseDelayNs := 500
    jitterNs := 250
    served :=
      [{ baseNs := 100, jitterNs := 25, delayNs := 80, waited := 192 },
        { baseNs := 500, jitterNs := 250, delayNs := 1255, waited := 4000 }] }

private theorem stressed_reachable :
    ((Bus.system defaultCycles).restrict Bus.Sane).Reachable stressed := by
  refine ⟨freshBus, [.access (-25) false 1000 1192, .setConfig 500 250,
    .access 250 true 5000 9000], ⟨rfl, rfl, rfl, rfl⟩, ?_⟩
  refine .cons ⟨trivial, ⟨by decide, by decide⟩, by decide, rfl⟩ ?_
  refine .cons ⟨⟨by decide, by decide, by decide⟩, rfl⟩ ?_
  exact .cons ⟨trivial, ⟨by decide, by decide⟩, by decide, rfl⟩ (.nil _)

theorem accesses_in_bounds_stressed :
    stressed.served.length = 2 ∧
      ∀ a ∈ stressed.served,
        a.baseNs.toNat + 5 ≤ a.delayNs.toNat + a.jitterNs.toNat ∧
          a.delayNs.toNat ≤ a.baseNs.toNat + 5 + a.jitterNs.toNat + 549 ∧
          defaultCycles (a.baseNs + 5 - a.jitterNs) ≤ a.waited :=
  ⟨rfl, accesses_in_bounds defaultCycles_mono stressed_reachable⟩

end Runs

end PorthCore.Ports.DelayEnvelope
