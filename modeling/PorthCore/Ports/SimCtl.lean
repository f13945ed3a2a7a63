import PorthCore.Ports.SnrFeedback

/-!
# `porth-sim-ctl`: the two commands that attach to a chip

`stress` and `monitor` construct `PorthSimDevice(name, false)` on the segment
of a running chip.  The object is a device of its own: its constructor writes
three registers and waits for `status`, its physics loop runs on the chip's
registers, with the memory of the command's process, and its destructor stops
the loop.  Owner and command take their steps in any order, and the command
may be killed between two of its own.

* `monitor` reports the chip offline when a poll finds `status` at 0.  The
  loop of its own device keeps the register at 1: the report is never made,
  whatever has become of the chip (`monitor_never_offline`).
* `stress` sets its own device corrupting and returns.  That ends the device:
  what it has flipped stays flipped, and nothing is flipped any more
  (`aftermath`).
-/

namespace PorthCore.Ports.SimCtl

open PorthCore.Verified.Transition
open PorthCore.Verified.Transition.System
open PorthCore.Ports.SimDevice
open PorthCore.Ports.DmaSteps
open PorthCore.Ports.SnrFeedback

/-- `monitor_iterations`. -/
def monitorIterations : Nat := 20

/-- What one turn of `handle_monitor` shows. -/
structure Frame where
  tempMc : UInt32
  voltMv : UInt32
  snrRaw : Int32
  count : UInt64
  deriving DecidableEq, Repr

/-- The commands that attach to a chip. -/
inductive Command
  | stress
  | monitor
  deriving DecidableEq, Repr

/-- Control points of a command: the constructor of its device, the handler,
the destructor.  A poll that is under way carries what it has read. -/
inductive Pc
  | writeTemp
  | writeStatus
  | writeControl
  | loadProfile
  | spawn
  | awaitReady
  | setConfig
  | triggerCorruption
  | poll (i : Nat)
  | readTemp (i : Nat)
  | readVolt (i : Nat) (tempMc : UInt32)
  | readSnr (i : Nat) (tempMc voltMv : UInt32)
  | readCount (i : Nat) (tempMc voltMv : UInt32) (snrRaw : Int32)
  | stopLoop
  | join
  | exited
  deriving DecidableEq, Repr

/-- Where the handler begins. -/
def Command.handler : Command → Pc
  | .stress => .setConfig
  | .monitor => .poll 0

/-- Where the physics thread of the command is: at the test of `m_run_sim`, or
inside a turn. -/
inductive Loop
  | notStarted
  | test
  | body
  | ended
  deriving DecidableEq, Repr

/-- The owner with the segment, and the command with its device.  The
registers of `client` are the segment's; `baseDelayNs` and `jitterNs` are the
configuration of its PHY. -/
structure Attached where
  owner : DelayedTwin
  client : DelayedTwin
  baseDelayNs : UInt64
  jitterNs : UInt64
  loop : Loop
  runSim : Bool
  pc : Pc
  frames : List Frame
  offline : Bool

/-- The owner's process, its physics thread included; a step of the command's
physics thread; the next step of the command; its end by a signal. -/
inductive CtlOp
  | owner (op : FeedbackOp)
  | physics (draw : ℚ) (pick bit : Fin 32)
  | command (draw : ℚ)
  | kill

namespace Attached

/-- The segment. -/
def dev (s : Attached) : PorthDeviceLayout := s.owner.sim.dev

/-- The segment after a store. -/
def written (s : Attached) (dev : PorthDeviceLayout) : Attached :=
  { s with owner := s.owner.written dev }

/-- The command's device with its view of the segment. -/
def view (s : Attached) : DelayedTwin := s.client.written s.dev

/-- `read_reg` of the command. -/
def readReg (s : Attached) (draw : ℚ) : Attached := { s with client := s.view.readReg draw }

/-- The next step of a command; `profile` is whether the file with the profile
opens. -/
def commandStep (cmd : Command) (profile : Bool) (s : Attached) (draw : ℚ) : Attached :=
  match s.pc with
  | .writeTemp => { s.written { s.dev with laserTemp := 25000 } with pc := .writeStatus }
  | .writeStatus => { s.written { s.dev with status := 0 } with pc := .writeControl }
  | .writeControl => { s.written { s.dev with control := 0 } with pc := .loadProfile }
  | .loadProfile =>
      if profile then { s with baseDelayNs := 45, jitterNs := 12, pc := .spawn }
      else { s with pc := .spawn }
  | .spawn => { s with loop := .test, pc := .awaitReady }
  | .awaitReady => if s.dev.status = 0 then s else { s with pc := cmd.handler }
  | .setConfig => { s with baseDelayNs := 500, jitterNs := 250, pc := .triggerCorruption }
  | .triggerCorruption =>
      { s with
        client := { s.client with sim := { s.client.sim with corruptStatus := true } }
        pc := .stopLoop }
  | .poll i =>
      if i < monitorIterations then
        if s.dev.status = 0 then { s with offline := true, pc := .stopLoop }
        else { s with pc := .readTemp i }
      else { s with pc := .stopLoop }
  | .readTemp i => { s.readReg draw with pc := .readVolt i s.dev.laserTemp }
  | .readVolt i tempMc => { s.readReg draw with pc := .readSnr i tempMc s.dev.ganVoltage }
  | .readSnr i tempMc voltMv => { s.readReg draw with pc := .readCount i tempMc voltMv s.dev.rfSnr }
  | .readCount i tempMc voltMv snrRaw =>
      { s.readReg draw with
        frames := s.frames ++ [⟨tempMc, voltMv, snrRaw, s.dev.counter⟩]
        pc := .poll (i + 1) }
  | .stopLoop => { s with runSim := false, pc := .join }
  | .join =>
      match s.loop with
      | .ended => { s with pc := .exited }
      | _ => s
  | .exited => s

/-- A step of the command's physics thread. -/
def physicsStep (s : Attached) (draw : ℚ) (pick bit : Fin 32) : Attached :=
  match s.loop with
  | .notStarted | .ended => s
  | .test => { s with loop := if s.runSim then .body else .ended }
  | .body =>
      let r := s.view.physics draw pick bit
      { s.written r.sim.dev with
        client := r
        loop :=
          match r.pc with
          | .turn => .test
          | _ => .body }

/-- One step of the owner, of the command or of its physics loop. -/
def step (cmd : Command) (profile : Bool) (s : Attached) : CtlOp → Attached
  | .owner op => { s with owner := s.owner.step op }
  | .physics draw pick bit => s.physicsStep draw pick bit
  | .command draw => s.commandStep cmd profile draw
  | .kill => { s with loop := .ended, pc := .exited }

/-- A command about to attach to a chip, in any state, that its owner does not
let corrupt. -/
structure Start (s : Attached) : Prop where
  ownerOff : s.owner.sim.corruptStatus = false
  clientOff : s.client.sim.corruptStatus = false
  phy : s.client.sim.phy = { currentTempMc := 25000 }
  latch : s.client.sim.lastValidShuttle = 0
  turn : s.client.pc = .turn
  baseDelayNs : s.baseDelayNs = 100
  jitterNs : s.jitterNs = 25
  loop : s.loop = .notStarted
  runSim : s.runSim = true
  pc : s.pc = .writeTemp
  frames : s.frames = []
  offline : s.offline = false

/-- A command beside the owner of the chip. -/
def system (cmd : Command) (profile : Bool) : System Attached CtlOp where
  init := Start
  step := fun s op t => s.step cmd profile op = t

end Attached

/-! ## A device whose corruption is off -/

section Devices

variable {s : DelayedTwin}

/-- A step inside a pass writes neither `status` nor `data_ptr`. -/
theorem passStep_frame (s : DelayedTwin) (draw : ℚ) (pc : DmaPc) :
    (s.passStep draw pc).sim.corruptStatus = s.sim.corruptStatus ∧
      (s.passStep draw pc).sim.dev.status = s.sim.dev.status ∧
      (s.passStep draw pc).sim.dev.dataPtr = s.sim.dev.dataPtr := by
  have happly : ∀ access : DmaAccess,
      (access.apply s.sim s.mem).1.corruptStatus = s.sim.corruptStatus ∧
        (access.apply s.sim s.mem).1.dev.status = s.sim.dev.status ∧
        (access.apply s.sim s.mem).1.dev.dataPtr = s.sim.dev.dataPtr := by
    intro access
    cases access with
    | _ => exact ⟨rfl, rfl, rfl⟩
  cases pc with
  | loadCounter addr => exact happly _
  | _ => exact happly _

/-- What a step of a physics thread does to the two registers chaos reaches:
it writes 1 to `status` at most. -/
theorem physics_off (hoff : s.sim.corruptStatus = false) (draw : ℚ) (pick bit : Fin 32) :
    (s.physics draw pick bit).sim.corruptStatus = false ∧
      ((s.physics draw pick bit).sim.dev.status = 1 ∨
        (s.physics draw pick bit).sim.dev.status = s.sim.dev.status) ∧
      (s.physics draw pick bit).sim.dev.dataPtr = s.sim.dev.dataPtr := by
  obtain ⟨sim, mem, pc, delays⟩ := s
  cases pc with
  | turn => exact ⟨hoff, .inl rfl, rfl⟩
  | pass pc =>
      cases pc with
      | outside => exact ⟨hoff, .inr rfl, rfl⟩
      | _ =>
          obtain ⟨hcorrupt, hstatus, hptr⟩ := passStep_frame
            { sim := sim, mem := mem, pc := .pass _, delays := delays } draw _
          exact ⟨hcorrupt.trans hoff, .inr hstatus, hptr⟩
  | thermal =>
      have hmodel : (updateThermalModel sim).corruptStatus = false := hoff
      have hchaos := applyChaosEffects_off hmodel pick bit
      have hsim : (DelayedTwin.physics { sim := sim, mem := mem, pc := .thermal, delays := delays }
          draw pick bit).sim = updateThermalModel sim := hchaos
      rw [hsim]
      exact ⟨hoff, .inr rfl, rfl⟩

end Devices

/-! ## The monitor never reports a chip offline -/

/-- The owner stays off corruption, and whoever writes registers does not turn
`status` to 0. -/
def Honest (s : Attached) : CtlOp → Prop
  | .owner (.triggerCorruption on) => on = false
  | .owner (.writeReg dev _) | .owner (.writeFlit dev _) | .owner (.hostWrite dev) =>
      dev.status = 0 → s.dev.status = 0
  | _ => True

/-- The constructor has seen the device ready, and the command has not ended. -/
def Pc.ready : Pc → Bool
  | .writeTemp | .writeStatus | .writeControl | .loadProfile | .spawn | .awaitReady => false
  | .exited => false
  | _ => true

/-- The frames shown so far. -/
def Pc.Shows (n : Nat) : Pc → Prop
  | .poll i => n = i ∧ i ≤ monitorIterations
  | .readTemp i | .readVolt i _ | .readSnr i _ _ | .readCount i _ _ _ =>
      n = i ∧ i < monitorIterations
  | .stopLoop | .join => n = monitorIterations
  | .setConfig | .triggerCorruption => False
  | .exited => True
  | _ => n = 0

section Monitor

variable {profile : Bool} {s t : Attached}

/-- What `monitor` finds as long as nobody corrupts a register. -/
structure Watching (s : Attached) : Prop where
  ownerOff : s.owner.sim.corruptStatus = false
  clientOff : s.client.sim.corruptStatus = false
  ready : s.pc.ready = true → s.dev.status ≠ 0
  shows : s.pc.Shows s.frames.length
  online : s.offline = false

/-- `status` is not turned to 0 where it matters, and the rest is as before. -/
theorem Watching.of_status (h : Watching s) (hpc : t.pc = s.pc) (hframes : t.frames = s.frames)
    (hoffline : t.offline = s.offline) (howner : t.owner.sim.corruptStatus = false)
    (hclient : t.client.sim.corruptStatus = false)
    (hstatus : s.dev.status ≠ 0 → t.dev.status ≠ 0) : Watching t where
  ownerOff := howner
  clientOff := hclient
  ready := by
    rw [hpc]
    exact fun hready => hstatus (h.ready hready)
  shows := by
    rw [hpc, hframes]
    exact h.shows
  online := hoffline.trans h.online

theorem status_ne_zero {v w : UInt32} (h : v = 1 ∨ v = w) (hw : w ≠ 0) : v ≠ 0 := by
  rcases h with rfl | rfl
  · decide
  · exact hw

theorem Watching.owner (h : Watching s) {op : FeedbackOp} (hop : Honest s (.owner op)) :
    Watching { s with owner := s.owner.step op } := by
  cases op with
  | physics draw pick bit =>
      obtain ⟨hoff, hstatus, -⟩ := physics_off h.ownerOff draw pick bit
      exact h.of_status rfl rfl rfl hoff h.clientOff (status_ne_zero hstatus)
  | writeReg dev draw => exact h.of_status rfl rfl rfl h.ownerOff h.clientOff (mt hop)
  | writeFlit dev draw => exact h.of_status rfl rfl rfl h.ownerOff h.clientOff (mt hop)
  | hostWrite dev => exact h.of_status rfl rfl rfl h.ownerOff h.clientOff (mt hop)
  | triggerCorruption on => exact h.of_status rfl rfl rfl hop h.clientOff id
  | readReg draw => exact h.of_status rfl rfl rfl h.ownerOff h.clientOff id
  | readFlit draw => exact h.of_status rfl rfl rfl h.ownerOff h.clientOff id
  | triggerDeadlock on => exact h.of_status rfl rfl rfl h.ownerOff h.clientOff id
  | hostMemory mem => exact h.of_status rfl rfl rfl h.ownerOff h.clientOff id

theorem Watching.physics (h : Watching s) (draw : ℚ) (pick bit : Fin 32) :
    Watching (s.physicsStep draw pick bit) := by
  unfold Attached.physicsStep
  cases s.loop with
  | notStarted => exact h
  | ended => exact h
  | test => exact h.of_status rfl rfl rfl h.ownerOff h.clientOff id
  | body =>
      have hview : s.view.sim.corruptStatus = false := h.clientOff
      obtain ⟨hoff, hstatus, -⟩ := physics_off hview draw pick bit
      exact h.of_status rfl rfl rfl h.ownerOff hoff (status_ne_zero hstatus)

/-- A step of the command: a poll finds the chip online. -/
theorem Watching.command (h : Watching s) (draw : ℚ) :
    Watching (s.commandStep .monitor profile draw) := by
  have hshows := h.shows
  have hready := h.ready
  unfold Attached.commandStep
  cases hpc : s.pc with
  | setConfig =>
      rw [hpc] at hshows
      exact hshows.elim
  | triggerCorruption =>
      rw [hpc] at hshows
      exact hshows.elim
  | awaitReady =>
      rw [hpc] at hshows
      dsimp only
      split
      · exact h
      · next hup => exact ⟨h.ownerOff, h.clientOff, fun _ => hup, ⟨hshows, Nat.zero_le _⟩, h.online⟩
  | poll i =>
      rw [hpc] at hshows hready
      have hup := hready rfl
      dsimp only
      by_cases hmore : i < monitorIterations
      · rw [if_pos hmore, if_neg hup]
        exact ⟨h.ownerOff, h.clientOff, fun _ => hup, ⟨hshows.1, hmore⟩, h.online⟩
      · rw [if_neg hmore]
        have hlast : i = monitorIterations := Nat.le_antisymm hshows.2 (Nat.le_of_not_lt hmore)
        exact ⟨h.ownerOff, h.clientOff, fun _ => hup, hshows.1.trans hlast, h.online⟩
  | readCount i tempMc voltMv snrRaw =>
      rw [hpc] at hshows hready
      refine ⟨h.ownerOff, h.clientOff, hready, ⟨?_, hshows.2⟩, h.online⟩
      rw [List.length_append, List.length_singleton, hshows.1]
  | loadProfile =>
      rw [hpc] at hshows
      dsimp only
      split
      · exact ⟨h.ownerOff, h.clientOff, by simp [Pc.ready], hshows, h.online⟩
      · exact ⟨h.ownerOff, h.clientOff, by simp [Pc.ready], hshows, h.online⟩
  | join =>
      rw [hpc] at hready
      dsimp only
      split
      · exact ⟨h.ownerOff, h.clientOff, by simp [Pc.ready], trivial, h.online⟩
      · exact h
  | exited => exact h
  | writeTemp | writeStatus | writeControl | spawn =>
      rw [hpc] at hshows
      exact ⟨h.ownerOff, h.clientOff, by simp [Pc.ready], hshows, h.online⟩
  | readTemp i | readVolt i tempMc | readSnr i tempMc voltMv | stopLoop =>
      rw [hpc] at hshows hready
      exact ⟨h.ownerOff, h.clientOff, hready, hshows, h.online⟩

/-- **The offline report is never made**: in every interleaving of a monitor
with the owner of the chip and its host, whatever they do to the chip or
however long they do nothing, as long as nobody corrupts `status` or writes 0
there, every poll finds the chip online, and the monitor stops after its
twentieth frame, not before. -/
theorem monitor_never_offline
    (h : ((Attached.system .monitor profile).restrict Honest).Reachable s) :
    s.offline = false ∧ (∀ i, s.pc = .poll i → s.frames.length = i ∧ s.dev.status ≠ 0) ∧
      (s.pc = .stopLoop → s.frames.length = monitorIterations) := by
  have hwatching : Watching s := by
    refine h.invariant (I := Watching) ?_ ?_
    · intro s hs
      refine ⟨hs.ownerOff, hs.clientOff, ?_, ?_, hs.offline⟩
      · rw [hs.pc]
        simp [Pc.ready]
      · rw [hs.pc, hs.frames]
        rfl
    · rintro s op t hs ⟨hop, rfl⟩
      cases op with
      | owner op => exact hs.owner hop
      | physics draw pick bit => exact hs.physics draw pick bit
      | command draw => exact hs.command draw
      | kill =>
          exact ⟨hs.ownerOff, hs.clientOff, by simp [Attached.step, Pc.ready], trivial, hs.online⟩
  have hshows := hwatching.shows
  refine ⟨hwatching.online, ?_, ?_⟩
  · intro i hpc
    rw [hpc] at hshows
    refine ⟨hshows.1, hwatching.ready ?_⟩
    rw [hpc]
    rfl
  · intro hpc
    rw [hpc] at hshows
    exact hshows

/-- A chip that a safety trip has halted, and whose owner does nothing any
more. -/
def halted : Attached :=
  { owner :=
      { sim :=
          { PorthSimDevice.fresh with
            dev := { PorthSimDevice.fresh.dev with safetyTrip := 0xDEADBEEF } }
        mem := fun _ => .fresh fun _ => default
        pc := .turn
        delays := [] }
    client := { sim := .fresh, mem := fun _ => .fresh fun _ => default, pc := .turn, delays := [] }
    baseDelayNs := 100
    jitterNs := 25
    loop := .notStarted
    runSim := true
    pc := .writeTemp
    frames := []
    offline := false }

/-- The command attaches, its loop starts a turn, and it makes `n` steps of its
handler. -/
def attach (pick bit : Fin 32) (n : Nat) : List CtlOp :=
  List.replicate 5 (.command 1) ++ List.replicate 2 (.physics 1 pick bit) ++
    List.replicate (n + 1) (.command 1)

/-- Only the command moves. -/
theorem attach_cases {pick bit : Fin 32} {n : Nat} {op : CtlOp} (h : op ∈ attach pick bit n) :
    op = .command 1 ∨ op = .physics 1 pick bit := by
  simp only [attach, List.mem_append, List.mem_replicate] at h
  rcases h with (⟨-, rfl⟩ | ⟨-, rfl⟩) | ⟨-, rfl⟩
  · exact .inl rfl
  · exact .inr rfl
  · exact .inl rfl

theorem monitor_never_offline_halted :
    ∃ s : Attached, s.dev.safetyTrip = 0xDEADBEEF ∧ s.pc = .poll 2 ∧ s.offline = false ∧
      (∀ i, s.pc = .poll i → s.frames.length = i ∧ s.dev.status ≠ 0) ∧
      (s.pc = .stopLoop → s.frames.length = monitorIterations) := by
  have hrun : ((Attached.system .monitor true).restrict Honest).Run halted (attach 0 0 10)
      ((attach 0 0 10).foldl (Attached.step .monitor true) halted) := by
    refine Run.foldl ?_ halted
    intro s op hop
    rcases attach_cases hop with rfl | rfl
    · exact ⟨trivial, rfl⟩
    · exact ⟨trivial, rfl⟩
  have hstart : Attached.Start halted := by
    constructor
    all_goals rfl
  exact ⟨_, by decide, by decide, monitor_never_offline ⟨halted, _, hstart, hrun⟩⟩

end Monitor

/-! ## What a command leaves behind -/

/-- The owner stays off corruption, and whoever else writes registers leaves
`status`, `data_ptr` and `counter` alone. -/
def HandsOff (s : Attached) : CtlOp → Prop
  | .owner (.triggerCorruption on) => on = false
  | .owner (.writeReg dev _) | .owner (.writeFlit dev _) | .owner (.hostWrite dev) =>
      dev.status = s.dev.status ∧ dev.dataPtr = s.dev.dataPtr ∧ dev.counter = s.dev.counter
  | _ => True

/-- On the way round the loop without a ring: a pass that has sampled
`data_ptr` found `ptr` there. -/
def Barred (ptr : UInt64) : PhysicsPc → Prop
  | .turn | .thermal | .pass .outside | .pass .loadDataPtr => True
  | .pass (.latchTest shuttleAddr) => shuttleAddr = ptr
  | .pass _ => False

/-- A physics thread that is barred, by a latch on another address, stays so
and leaves latch and counter alone. -/
theorem barred_physics {s : DelayedTwin} (hlatch : s.sim.lastValidShuttle ≠ 0)
    (hptr : s.sim.dev.dataPtr ≠ s.sim.lastValidShuttle) (h : Barred s.sim.dev.dataPtr s.pc)
    (draw : ℚ) (pick bit : Fin 32) :
    (s.physics draw pick bit).sim.lastValidShuttle = s.sim.lastValidShuttle ∧
      (s.physics draw pick bit).sim.dev.counter = s.sim.dev.counter ∧
      Barred s.sim.dev.dataPtr (s.physics draw pick bit).pc := by
  obtain ⟨sim, mem, pc, delays⟩ := s
  cases pc with
  | turn =>
      refine ⟨rfl, rfl, ?_⟩
      simp only [DelayedTwin.physics]
      split
      · trivial
      · trivial
  | thermal =>
      have hlast := applyChaosEffects_latch (updateThermalModel sim) pick bit
      have hcount := applyChaosEffects_counter (updateThermalModel sim) pick bit
      exact ⟨hlast, hcount, trivial⟩
  | pass pc =>
      cases pc with
      | outside => exact ⟨rfl, rfl, trivial⟩
      | loadDataPtr => exact ⟨rfl, rfl, rfl⟩
      | latchTest addr =>
          have haddr : addr = sim.dev.dataPtr := h
          have hnone : dmaTarget addr sim.lastValidShuttle = none := by
            rw [Option.eq_none_iff_forall_ne_some]
            intro target htarget
            obtain ⟨-, -, -, hzero | hsame⟩ := dmaTarget_eq_some.mp htarget
            · exact hlatch hzero
            · exact hptr (haddr ▸ hsame)
          have hstep : DmaPc.step sim mem (.latchTest addr) = (.none, .outside) := by
            simp only [DmaPc.step, hnone]
          simp only [DelayedTwin.physics, DelayedTwin.passStep, hstep]
          exact ⟨rfl, rfl, trivial⟩
      | popping addr pc => exact h.elim
      | loadCounter addr => exact h.elim
      | storeCounter addr counter => exact h.elim

section Aftermath

variable {cmd : Command} {profile : Bool} {s t : Attached} {ops : List CtlOp}

/-- A step ends a command whose physics thread has ended, or finds the command
ended. -/
theorem commandStep_exited {draw : ℚ} (h : (s.commandStep cmd profile draw).pc = .exited) :
    (s.pc = .exited ∨ s.loop = .ended) ∧ (s.commandStep cmd profile draw).loop = s.loop := by
  unfold Attached.commandStep at h
  cases hpc : s.pc with
  | join =>
      rw [hpc] at h
      cases hloop : s.loop with
      | ended => exact ⟨.inr rfl, by simp only [Attached.commandStep, hpc, hloop]⟩
      | notStarted | test | body =>
          simp only [hloop] at h
          cases hpc.symm.trans h
  | exited => exact ⟨.inl rfl, by simp only [Attached.commandStep, hpc]⟩
  | awaitReady =>
      rw [hpc] at h
      dsimp only at h
      split at h
      · cases hpc.symm.trans h
      · cases cmd with
        | stress => cases h
        | monitor => cases h
  | loadProfile =>
      rw [hpc] at h
      dsimp only at h
      split at h
      · cases h
      · cases h
  | poll i =>
      rw [hpc] at h
      dsimp only at h
      split at h
      · split at h
        · cases h
        · cases h
      · cases h
  | _ =>
      rw [hpc] at h
      cases h

/-- A command has not exited before its physics thread has ended. -/
theorem ended_of_exited (h : (Attached.system cmd profile).Reachable s) (hexit : s.pc = .exited) :
    s.loop = .ended := by
  refine h.invariant (I := fun s => s.pc = .exited → s.loop = .ended) ?_ ?_ hexit
  · intro s hs hpc
    cases hs.pc.symm.trans hpc
  · rintro s op t hs rfl hpc
    cases op with
    | owner op => exact hs hpc
    | kill => rfl
    | command draw =>
        obtain ⟨hbefore, hloop⟩ := commandStep_exited hpc
        exact hloop.trans (hbefore.elim hs id)
    | physics draw pick bit =>
        simp only [Attached.step, Attached.physicsStep] at hpc ⊢
        cases hloop : s.loop with
        | notStarted =>
            simp only [hloop] at hpc
            exact hs hpc
        | ended => exact hloop
        | test =>
            simp only [hloop] at hpc
            cases hloop.symm.trans (hs hpc)
        | body =>
            simp only [hloop] at hpc
            cases hloop.symm.trans (hs hpc)

/-- From a state `s` on, in which a command has ended. -/
structure Left (s t : Attached) : Prop where
  exited : t.pc = .exited
  ended : t.loop = .ended
  ownerOff : t.owner.sim.corruptStatus = false
  status : t.dev.status = 1 ∨ t.dev.status = s.dev.status
  dataPtr : t.dev.dataPtr = s.dev.dataPtr

theorem Left.owner (h : Left s t) {op : FeedbackOp} (hop : HandsOff t (.owner op)) :
    Left s { t with owner := t.owner.step op } := by
  cases op with
  | physics draw pick bit =>
      obtain ⟨hoff, hstatus, hptr⟩ := physics_off h.ownerOff draw pick bit
      refine ⟨h.exited, h.ended, hoff, ?_, hptr.trans h.dataPtr⟩
      rcases hstatus with hone | hsame
      · exact .inl hone
      · exact h.status.imp hsame.trans hsame.trans
  | writeReg dev draw | writeFlit dev draw | hostWrite dev =>
      obtain ⟨hstatus, hptr, -⟩ := hop
      exact ⟨h.exited, h.ended, h.ownerOff, h.status.imp hstatus.trans hstatus.trans,
        hptr.trans h.dataPtr⟩
  | triggerCorruption on => exact { h with ownerOff := hop }
  | readReg draw | readFlit draw | triggerDeadlock on | hostMemory mem => exact { h with }

/-- Once a command and its physics thread have ended, only the owner's side
still moves. -/
theorem step_of_exited (hexit : t.pc = .exited) (hended : t.loop = .ended) (op : CtlOp) :
    (∃ op', op = .owner op') ∨ t.step cmd profile op = t := by
  cases op with
  | owner op => exact .inl ⟨op, rfl⟩
  | kill =>
      right
      simp only [Attached.step, ← hexit, ← hended]
  | command draw =>
      right
      simp only [Attached.step, Attached.commandStep, hexit]
  | physics draw pick bit =>
      right
      simp only [Attached.step, Attached.physicsStep, hended]

theorem Left.step (h : Left s t) {op : CtlOp} (hop : HandsOff t op) :
    Left s (t.step cmd profile op) := by
  rcases step_of_exited h.exited h.ended op with ⟨op, rfl⟩ | hsame
  · exact h.owner hop
  · rw [hsame]
    exact h

/-- The owner, latched on another address than the one left in `data_ptr`, has
made no pass. -/
structure Locked (s t : Attached) : Prop extends Left s t where
  latch : t.owner.sim.lastValidShuttle = s.owner.sim.lastValidShuttle
  counter : t.dev.counter = s.dev.counter
  barred : Barred s.dev.dataPtr t.owner.pc

theorem Locked.owner (h : Locked s t) (hlatch : s.owner.sim.lastValidShuttle ≠ 0)
    (hptr : s.dev.dataPtr ≠ s.owner.sim.lastValidShuttle) {op : FeedbackOp}
    (hop : HandsOff t (.owner op)) : Locked s { t with owner := t.owner.step op } := by
  have hleft := h.toLeft.owner hop
  cases op with
  | physics draw pick bit =>
      have hon : t.owner.sim.lastValidShuttle ≠ 0 := h.latch ▸ hlatch
      have hother : t.owner.sim.dev.dataPtr ≠ t.owner.sim.lastValidShuttle := by
        rw [h.latch]
        exact h.dataPtr.symm ▸ hptr
      have hbarred : Barred t.owner.sim.dev.dataPtr t.owner.pc := h.dataPtr.symm ▸ h.barred
      obtain ⟨hlast, hcount, hpc⟩ := barred_physics hon hother hbarred draw pick bit
      exact
        { hleft with
          latch := hlast.trans h.latch
          counter := hcount.trans h.counter
          barred := h.dataPtr ▸ hpc }
  | writeReg dev draw | writeFlit dev draw | hostWrite dev =>
      exact { hleft with latch := h.latch, counter := hop.2.2.trans h.counter, barred := h.barred }
  | triggerCorruption on | readReg draw | readFlit draw | triggerDeadlock on | hostMemory mem =>
      exact { hleft with latch := h.latch, counter := h.counter, barred := h.barred }

/-- **What a command leaves behind**: once it has ended, by itself or by a
signal, and as long as nobody else writes these registers, `data_ptr` stays
what the command has left there and `status` stays or is 1, whatever the owner
does.  If the owner is latched on another address by then, it makes no pass any
more. -/
theorem aftermath (h : (Attached.system cmd profile).Reachable s) (hexit : s.pc = .exited)
    (hoff : s.owner.sim.corruptStatus = false)
    (hrun : ((Attached.system cmd profile).restrict HandsOff).Run s ops t) :
    t.dev.dataPtr = s.dev.dataPtr ∧ (t.dev.status = 1 ∨ t.dev.status = s.dev.status) ∧
      (s.owner.pc = .turn → s.owner.sim.lastValidShuttle ≠ 0 →
        s.dev.dataPtr ≠ s.owner.sim.lastValidShuttle →
          t.dev.counter = s.dev.counter ∧ Barred s.dev.dataPtr t.owner.pc) := by
  have hstart : Left s s := ⟨hexit, ended_of_exited h hexit, hoff, .inr rfl, rfl⟩
  have hleft : Left s t := by
    refine hrun.preserves (I := Left s) ?_ hstart
    rintro u op v hu ⟨hop, rfl⟩
    exact hu.step hop
  refine ⟨hleft.dataPtr, hleft.status, ?_⟩
  intro hturn hlatch hptr
  have hlocked : Locked s t := by
    refine hrun.preserves (I := Locked s) ?_ ⟨hstart, rfl, rfl, ?_⟩
    · rintro u op v hu ⟨hop, rfl⟩
      rcases step_of_exited hu.exited hu.ended op with ⟨op, rfl⟩ | hsame
      · exact hu.owner hlatch hptr hop
      · rw [hsame]
        exact hu
    · rw [hturn]
      trivial
  exact ⟨hlocked.counter, hlocked.barred⟩

deriving instance DecidableEq for PhysicsPc

/-- A chip whose owner is latched on its ring, and a command about to attach. -/
def primed : Attached :=
  { halted with
    owner :=
      { halted.owner with
        sim :=
          { PorthSimDevice.fresh with
            dev := { PorthSimDevice.fresh.dev with dataPtr := 0x200000 }
            lastValidShuttle := 0x200000 } } }

/-- `stress` comes as far as its scenario while its physics thread is inside a
turn, which flips a bit; then it ends. -/
def stressed (pick bit : Fin 32) : List CtlOp :=
  attach pick bit 2 ++ List.replicate 7 (.physics 1 pick bit) ++
    [.command 1, .physics 1 pick bit, .command 1]

theorem aftermath_flipped :
    ∃ s t : Attached, s.pc = .exited ∧ s.dev.dataPtr = 0x200040 ∧
      s.owner.sim.lastValidShuttle = 0x200000 ∧ s.owner.pc = .turn ∧
      t.owner.pc = .pass .outside ∧ t.dev.dataPtr = s.dev.dataPtr ∧
      (t.dev.status = 1 ∨ t.dev.status = s.dev.status) ∧
      (s.owner.pc = .turn → s.owner.sim.lastValidShuttle ≠ 0 →
        s.dev.dataPtr ≠ s.owner.sim.lastValidShuttle →
          t.dev.counter = s.dev.counter ∧ Barred s.dev.dataPtr t.owner.pc) := by
  let left := (stressed 29 6).foldl (Attached.step .stress true) primed
  let turn := List.replicate 3 (CtlOp.owner (.physics 1 0 0))
  have hstress : (Attached.system .stress true).Run primed (stressed 29 6) left :=
    Run.foldl (fun _ _ _ => rfl) primed
  have hturn : ((Attached.system .stress true).restrict HandsOff).Run left turn
      (turn.foldl (Attached.step .stress true) left) := by
    refine Run.foldl ?_ left
    intro s op hop
    obtain rfl := List.eq_of_mem_replicate hop
    exact ⟨trivial, rfl⟩
  have hstart : Attached.Start primed := by
    constructor
    all_goals rfl
  exact ⟨left, _, by decide, by decide, by decide, by decide, by decide,
    aftermath ⟨primed, _, hstart, hstress⟩ (by decide) (by decide) hturn⟩

end Aftermath

end PorthCore.Ports.SimCtl
