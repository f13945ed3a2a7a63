import Mathlib.Data.Rat.Defs
import PorthCore.Ports.DmaSteps
import PorthCore.Ports.OperatingEnvelope
import PorthCore.Ports.ProtocolDelay

/-!
# The SNR feedback loop

`update_thermal_model` publishes the SNR in `rf_snr`, and `get_fec_penalty`
raises the FEC error rate tenfold below an SNR of 2000.  What would close the
loop is the argument of `apply_protocol_delay`, which has a default; the four
register accessors and `process_dma` all leave it at the default.

The twin is taken apart at the places where a delay is applied: the physics
thread is between two turns, inside a pass (at a control point of `DmaPc`) or
before its thermal step, and the host calls an accessor or writes registers
and memory at any of these points.  `delays` records, for each delay, the rate
it used and what `rf_snr` held.  `closed_iff` reads off it where the loop is
closed: as far as `rf_snr` never held less than 2000.

`twin_reachable` ties the steps to whole turns.
-/

namespace PorthCore.Ports.SnrFeedback

open PorthCore.Verified.Transition
open PorthCore.Ports.SimDevice
open PorthCore.Ports.DmaSteps
open PorthCore.Ports.OperatingEnvelope
open PorthCore.Ports.ProtocolDelay

/-- `STANDARD_SNR_DB`, the default of `current_snr`. -/
def standardSnrDb : Int32 := 3000

/-- `m_fec_error_rate`, which nothing changes. -/
def baseErrorRate : ℚ := 1 / 1000

/-- `error_rate` as `get_fec_penalty` computes it. -/
def fecErrorRate (currentSnr : Int32) : ℚ :=
  if currentSnr < 2000 then baseErrorRate * 10 else baseErrorRate

/-- `get_fec_penalty`; `draw` is what `m_error_dist` yields. -/
def getFecPenalty (currentSnr : Int32) (draw : ℚ) : UInt64 :=
  if draw < fecErrorRate currentSnr then 500 else 0

/-- A delay that was applied: the rate it used, the penalty that came of it,
and what `rf_snr` held. -/
structure Delay where
  errorRate : ℚ
  penaltyNs : UInt64
  rfSnr : Int32

/-- The FEC part of `apply_protocol_delay`. -/
def applyProtocolDelay (dev : PorthDeviceLayout) (currentSnr : Int32) (draw : ℚ) : Delay :=
  { errorRate := fecErrorRate currentSnr
    penaltyNs := getFecPenalty currentSnr draw
    rfSnr := dev.rfSnr }

/-- The penalty is the one `totalDelayNs` adds for the outcome of this draw. -/
theorem getFecPenalty_eq (currentSnr : Int32) (draw : ℚ) :
    getFecPenalty currentSnr draw =
      PhyDelay.getFecPenalty (decide (draw < fecErrorRate currentSnr)) := by
  unfold getFecPenalty PhyDelay.getFecPenalty
  simp only [decide_eq_true_eq]

/-! ## The twin, delay by delay -/

/-- Control points of `run_physics_loop`. -/
inductive PhysicsPc
  | turn
  | pass (pc : DmaPc)
  | thermal

/-- The device and the memory its passes may reach, where the physics thread
is, and the delays applied so far. -/
structure DelayedTwin where
  sim : PorthSimDevice
  mem : Heap
  pc : PhysicsPc
  delays : List Delay

/-- A step of the physics thread with its draws, a call of an accessor, the
two switches, and what the host writes directly.  A call that writes is given
the register file it leaves. -/
inductive FeedbackOp
  | physics (draw : ℚ) (pick bit : Fin 32)
  | readReg (draw : ℚ)
  | writeReg (dev : PorthDeviceLayout) (draw : ℚ)
  | readFlit (draw : ℚ)
  | writeFlit (dev : PorthDeviceLayout) (draw : ℚ)
  | triggerCorruption (on : Bool)
  | triggerDeadlock (on : Bool)
  | hostWrite (dev : PorthDeviceLayout)
  | hostMemory (mem : Heap)

namespace DelayedTwin

/-- `m_phy.apply_protocol_delay()`: no argument, so the default. -/
def delayed (s : DelayedTwin) (draw : ℚ) : DelayedTwin :=
  { s with delays := s.delays ++ [applyProtocolDelay s.sim.dev standardSnrDb draw] }

/-- The registers are replaced. -/
def written (s : DelayedTwin) (dev : PorthDeviceLayout) : DelayedTwin :=
  { s with sim := { s.sim with dev := dev } }

/-- `read_reg`. -/
def readReg (s : DelayedTwin) (draw : ℚ) : DelayedTwin := s.delayed draw

/-- `write_reg`. -/
def writeReg (s : DelayedTwin) (dev : PorthDeviceLayout) (draw : ℚ) : DelayedTwin :=
  (s.delayed draw).written dev

/-- `read_flit`. -/
def readFlit (s : DelayedTwin) (draw : ℚ) : DelayedTwin := s.delayed draw

/-- `write_flit`. -/
def writeFlit (s : DelayedTwin) (dev : PorthDeviceLayout) (draw : ℚ) : DelayedTwin :=
  (s.delayed draw).written dev

/-- A step inside `process_dma`.  The delay stands between the pop and the
increment of `counter`. -/
def passStep (s : DelayedTwin) (draw : ℚ) (pc : DmaPc) : DelayedTwin :=
  let r := pc.step s.sim s.mem
  let s :=
    match pc with
    | .loadCounter _ => s.delayed draw
    | _ => s
  { s with
    sim := (r.1.apply s.sim s.mem).1
    mem := (r.1.apply s.sim s.mem).2
    pc := .pass r.2 }

/-- A step of the physics thread. -/
def physics (s : DelayedTwin) (draw : ℚ) (pick bit : Fin 32) : DelayedTwin :=
  match s.pc with
  | .turn =>
      { s.written { s.sim.dev with status := 0x1 } with
        pc := if s.sim.injectDeadlock then .turn else .pass .loadDataPtr }
  | .pass .outside => { s with pc := .thermal }
  | .pass pc => s.passStep draw pc
  | .thermal =>
      { s with
        sim := applyChaosEffects (updateThermalModel s.sim) pick bit
        pc := .turn }

/-- One step of the twin or of the host. -/
def step (s : DelayedTwin) : FeedbackOp → DelayedTwin
  | .physics draw pick bit => s.physics draw pick bit
  | .readReg draw => s.readReg draw
  | .writeReg dev draw => s.writeReg dev draw
  | .readFlit draw => s.readFlit draw
  | .writeFlit dev draw => s.writeFlit dev draw
  | .triggerCorruption on => { s with sim := { s.sim with corruptStatus := on } }
  | .triggerDeadlock on => { s with sim := { s.sim with injectDeadlock := on } }
  | .hostWrite dev => s.written dev
  | .hostMemory mem => { s with mem := mem }

/-- A freshly created device that has applied no delay. -/
def system : System DelayedTwin FeedbackOp where
  init := fun s => s.sim = .fresh ∧ s.pc = .turn ∧ s.delays = []
  step := fun s op t => s.step op = t

/-- The loop is closed: every delay used the rate of the SNR in the register. -/
def Closed (s : DelayedTwin) : Prop := ∀ d ∈ s.delays, d.errorRate = fecErrorRate d.rfSnr

/-! ## What a run applies -/

variable {s t : DelayedTwin}

/-- A step applies no delay, or one at the default SNR. -/
theorem step_delays (s : DelayedTwin) (op : FeedbackOp) :
    (s.step op).delays = s.delays ∨
      ∃ draw, (s.step op).delays =
        s.delays ++ [applyProtocolDelay s.sim.dev standardSnrDb draw] := by
  cases op with
  | physics draw pick bit =>
      show (s.physics draw pick bit).delays = _ ∨ ∃ draw', (s.physics draw pick bit).delays = _
      unfold physics
      cases s.pc with
      | turn => exact .inl rfl
      | thermal => exact .inl rfl
      | pass pc =>
          cases pc with
          | loadCounter addr => exact .inr ⟨draw, rfl⟩
          | outside => exact .inl rfl
          | loadDataPtr => exact .inl rfl
          | latchTest addr => exact .inl rfl
          | popping addr pc => exact .inl rfl
          | storeCounter addr counter => exact .inl rfl
  | readReg draw => exact .inr ⟨draw, rfl⟩
  | writeReg dev draw => exact .inr ⟨draw, rfl⟩
  | readFlit draw => exact .inr ⟨draw, rfl⟩
  | writeFlit dev draw => exact .inr ⟨draw, rfl⟩
  | triggerCorruption on => exact .inl rfl
  | triggerDeadlock on => exact .inl rfl
  | hostWrite dev => exact .inl rfl
  | hostMemory mem => exact .inl rfl

/-- Every delay a run applies uses the base rate, whatever the register
holds. -/
theorem errorRate_eq_base (h : system.Reachable s) :
    ∀ d ∈ s.delays, d.errorRate = baseErrorRate := by
  refine System.Reachable.invariant
    (I := fun s => ∀ d ∈ s.delays, d.errorRate = baseErrorRate) ?_ ?_ h
  · rintro s ⟨-, -, hnone⟩
    rw [hnone]
    exact List.forall_mem_nil _
  · rintro s op t hs rfl d hd
    rcases step_delays s op with hsame | ⟨draw, hone⟩
    · rw [hsame] at hd
      exact hs d hd
    · rw [hone, List.mem_append, List.mem_singleton] at hd
      rcases hd with hold | rfl
      · exact hs d hold
      · show fecErrorRate standardSnrDb = baseErrorRate
        exact if_neg (by decide)

theorem fecErrorRate_eq_base_iff (snr : Int32) : fecErrorRate snr = baseErrorRate ↔ 2000 ≤ snr := by
  unfold fecErrorRate
  rw [← Int32.not_lt]
  by_cases hlow : snr < 2000
  · rw [if_pos hlow]
    simp only [hlow, not_true_eq_false, iff_false]
    decide +kernel
  · simp only [hlow, if_false, not_false_eq_true]

/-- **Where the feedback loop is closed.**  In every reachable state each
delay applied so far used the rate of the SNR then in `rf_snr` if and only if
the register held 2000 or more at every one of them. -/
theorem closed_iff (h : system.Reachable s) :
    s.Closed ↔ ∀ d ∈ s.delays, 2000 ≤ d.rfSnr := by
  have hbase := errorRate_eq_base h
  unfold Closed
  constructor
  · intro hclosed d hd
    rw [← fecErrorRate_eq_base_iff, ← hclosed d hd]
    exact hbase d hd
  · intro hhigh d hd
    rw [(fecErrorRate_eq_base_iff d.rfSnr).mpr (hhigh d hd)]
    exact hbase d hd

/-- A fresh device whose `rf_snr` the host has set to 3000. -/
def sampleStart : DelayedTwin :=
  { sim := { PorthSimDevice.fresh with dev := { PorthSimDevice.fresh.dev with rfSnr := 3000 } }
    mem := fun _ => .fresh fun _ => default
    pc := .turn
    delays := [] }

theorem sampleStart_reachable : system.Reachable sampleStart := by
  have hinit : system.Reachable { sampleStart with sim := .fresh } := .of_init ⟨rfl, rfl, rfl⟩
  exact hinit.step (a := .hostWrite sampleStart.sim.dev) rfl

theorem closed_sampleStart : (sampleStart.readReg 0).Closed := by
  refine (closed_iff (sampleStart_reachable.step (a := .readReg 0) rfl)).mpr ?_
  intro d hd
  obtain rfl := List.mem_singleton.mp hd
  decide

/-! ## Whole turns -/

/-- A pass that runs alone ends outside. -/
theorem pass_run (n : Nat) (log : List Delay) {sim sim' : PorthSimDevice} {mem mem' : Heap}
    {pc : DmaPc} (h : dmaAlone^[n] (sim, mem, pc) = (sim', mem', .outside)) :
    ∃ ops log', system.Run { sim := sim, mem := mem, pc := .pass pc, delays := log } ops
      { sim := sim', mem := mem', pc := .pass .outside, delays := log' } := by
  induction n generalizing sim mem pc log with
  | zero =>
      cases h
      exact ⟨[], log, .nil _⟩
  | succ n ih =>
      rw [Function.iterate_succ_apply] at h
      by_cases houtside : pc = .outside
      · subst houtside
        exact ih log h
      · obtain ⟨ops, log', hrun⟩ := ih (passStep
          { sim := sim, mem := mem, pc := .pass pc, delays := log } 1 pc).delays h
        refine ⟨.physics 1 0 0 :: ops, log', .cons ?_ hrun⟩
        cases pc with
        | outside => exact absurd rfl houtside
        | loadDataPtr => rfl
        | latchTest addr => rfl
        | popping addr pc => rfl
        | loadCounter addr => rfl
        | storeCounter addr counter => rfl

/-- A turn that runs alone is `physicsIteration`. -/
theorem turn_run (log : List Delay) {fuel : Nat} {pick bit : Fin 32} {sim : PorthSimDevice}
    {mem : Heap} {r : PorthSimDevice × Heap × Option DmaPass}
    (h : physicsIteration fuel pick bit sim mem = some r) :
    ∃ ops log', system.Run { sim := sim, mem := mem, pc := .turn, delays := log } ops
      { sim := r.1, mem := r.2.1, pc := .turn, delays := log' } := by
  obtain ⟨sim', mem', made⟩ := r
  rcases physicsIteration_eq_some h with ⟨hdead, rfl, rfl, -⟩ | ⟨hdead, pass, hpass, rfl, rfl, -⟩
  · have hpc : (if sim.injectDeadlock then PhysicsPc.turn else .pass .loadDataPtr) = .turn :=
      if_pos hdead
    exact ⟨[.physics 1 0 0], log, .cons (congrArg (DelayedTwin.mk _ _ · log) hpc) (.nil _)⟩
  · obtain ⟨n, hn⟩ := dma_steps hpass
    obtain ⟨ops, log', hrun⟩ := pass_run n log hn
    have hpc : (if sim.injectDeadlock then PhysicsPc.turn else .pass .loadDataPtr) =
        .pass .loadDataPtr := if_neg (Bool.eq_false_iff.mp hdead)
    refine ⟨.physics 1 0 0 :: (ops ++ [.physics 1 0 0, .physics 1 pick bit]), log', ?_⟩
    refine .cons (congrArg (DelayedTwin.mk _ _ · log) hpc) ?_
    exact hrun.append (.cons rfl (.cons rfl (.nil _)))

/-- Every state the twin reaches turn by turn is reached here between two
turns. -/
theorem twin_reachable {u : Twin} (h : Twin.system.Reachable u) :
    ∃ log, system.Reachable { sim := u.sim, mem := u.mem, pc := .turn, delays := log } := by
  refine System.Reachable.invariant (I := fun u : Twin =>
    ∃ log, system.Reachable { sim := u.sim, mem := u.mem, pc := .turn, delays := log }) ?_ ?_ h
  · intro u hinit
    exact ⟨[], .of_init ⟨hinit, rfl, rfl⟩⟩
  · rintro u op v ⟨log, hu⟩ hstep
    cases op with
    | iterate pick bit =>
        obtain ⟨fuel, r, hr, rfl⟩ := hstep
        obtain ⟨ops, log', hrun⟩ := turn_run log hr
        exact ⟨log', hu.run hrun⟩
    | triggerCorruption on =>
        subst hstep
        exact ⟨log, hu.step (a := .triggerCorruption on) rfl⟩
    | triggerDeadlock on =>
        subst hstep
        exact ⟨log, hu.step (a := .triggerDeadlock on) rfl⟩
    | hostWrite dev =>
        subst hstep
        exact ⟨log, hu.step (a := .hostWrite dev) rfl⟩
    | hostMemory mem =>
        subst hstep
        exact ⟨log, hu.step (a := .hostMemory mem) rfl⟩

/-- A device powered on for 5000 turns publishes an SNR of 1775; the next
`read_reg` draws against the base rate all the same. -/
theorem hot_read_ignores_snr : ∃ s, system.Reachable s ∧ s.sim.dev.rfSnr = 1775 ∧
    ¬(s.readReg 0).Closed := by
  obtain ⟨hrun, -⟩ := Twin.Quiet.run (s := Twin.samplePowered) ⟨rfl, rfl, rfl⟩ 5000
  have hinv := Twin.reachable_inv Twin.samplePowered_reachable
  have hsettled := hinv.settled_of_run hrun (iterations_replicate 5000 0 0).ge
  generalize Twin.idleTurn^[5000] Twin.samplePowered = hot at hrun hsettled
  have hsnr : hot.sim.dev.rfSnr = 1775 := (hsettled.powered rfl).2.2
  obtain ⟨log, hreach⟩ := twin_reachable
    (Twin.samplePowered_reachable.of_restrict.run hrun.of_restrict)
  refine ⟨_, hreach, hsnr, fun hclosed => ?_⟩
  have hlast := hclosed (applyProtocolDelay hot.sim.dev standardSnrDb 0)
    (List.mem_append_right log (List.mem_singleton_self _))
  have hbase := (fecErrorRate_eq_base_iff hot.sim.dev.rfSnr).mp hlast.symm
  rw [hsnr] at hbase
  revert hbase
  decide

end DelayedTwin

end PorthCore.Ports.SnrFeedback
