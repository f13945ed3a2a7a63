import PorthCore.Verified.Transition
import PorthCore.Ports.DmaSteps
import PorthCore.Ports.Driver

/-!
# `~Driver` against a pass under way

The destructor writes 0 to `data_ptr`, stops and joins the watchdog, and then
the shuttle goes; the physics thread takes the steps of `process_dma` in
between.  The pass samples `data_ptr` once, so a pass that is past the latch
test when the 0 is written goes on popping.

`accessAhead` says of the physics thread's position, and of nothing else, that
its own next steps reach the ring.  The device stays away from the dead ring
if and only if that is false when the shuttle is destroyed (`teardown_safe`).

Whoever owns the ring's memory may change it at any time, before and after its
destruction, and the length of the drain plays no part.
-/

namespace PorthCore.Ports.Teardown

open PorthCore.Verified.Transition
open PorthCore.Ports.RingBuffer
open PorthCore.Ports.RingSteps
open PorthCore.Ports.SimDevice
open PorthCore.Ports.DmaSteps
open PorthCore.Ports.Driver

/-- Control points of the destructor and of the member destruction after
it. -/
inductive DtorPc
  | alive
  | clearDataPtr
  | stopWatchdog
  | joinWatchdog
  | destroyShuttle
  | done
  deriving DecidableEq

/-- Whether the 0 has been written. -/
def DtorPc.cleared : DtorPc → Bool
  | .alive | .clearDataPtr => false
  | .stopWatchdog | .joinWatchdog | .destroyShuttle | .done => true

/-- `stray` records that the device has accessed the ring after its
destruction. -/
structure Attached where
  sim : PorthSimDevice
  mem : Heap
  dma : DmaPc
  dtor : DtorPc
  ringLives : Bool
  stray : Bool

/-- The owner uses the ring, the destructor or the pass begins, or one of them
takes a step. -/
inductive Act
  | own (ring : PorthRingBuffer)
  | destroy
  | dtorStep
  | pass
  | dmaStep

namespace Attached

variable (a : RingAddress)

/-- A step of the destructor; joining the watchdog changes nothing here. -/
def afterDtor (s : Attached) : Attached :=
  match s.dtor with
  | .alive | .done => s
  | .clearDataPtr =>
      { s with sim := { s.sim with dev := destruct s.sim.dev }, dtor := .stopWatchdog }
  | .stopWatchdog => { s with dtor := .joinWatchdog }
  | .joinWatchdog => { s with dtor := .destroyShuttle }
  | .destroyShuttle => { s with dtor := .done, ringLives := false }

/-- A step of the physics thread. -/
def afterDma (s : Attached) : Attached :=
  let r := s.dma.step s.sim s.mem
  { s with
    sim := (r.1.apply s.sim s.mem).1
    mem := (r.1.apply s.sim s.mem).2
    dma := r.2
    stray := s.stray || (decide (s.dma.touches = some a.addr) && !s.ringLives) }

/-- One step of the destructor, of the pass or of the owner. -/
def step (s : Attached) : Act → Option Attached
  | .own ring => some { s with mem := Function.update s.mem a.addr ring }
  | .destroy => if s.dtor = .alive then some { s with dtor := .clearDataPtr } else none
  | .dtorStep => some s.afterDtor
  | .pass => if s.dma = .outside then some { s with dma := .loadDataPtr } else none
  | .dmaStep => some (s.afterDma a)

/-- A driver attached to a device that has latched no other ring and is
between two passes. -/
structure Start (s : Attached) : Prop where
  dataPtr : s.sim.dev.dataPtr = a.addr
  latch : s.sim.lastValidShuttle = 0 ∨ s.sim.lastValidShuttle = a.addr
  dma : s.dma = .outside
  dtor : s.dtor = .alive
  ringLives : s.ringLives = true
  stray : s.stray = false

/-- All interleavings of a destructor with the physics thread. -/
def system : System Attached Act := .ofStep (Start a) (step a)

/-- The shuttle is destroyed only when the physics thread is not on its way to
the ring. -/
def Quiesced (s : Attached) : Act → Prop
  | .dtorStep => s.dtor = .destroyShuttle → s.dma.accessAhead s.sim = false
  | _ => True

instance (s : Attached) : DecidablePred s.Quiesced
  | .dtorStep =>
      inferInstanceAs (Decidable (s.dtor = .destroyShuttle → s.dma.accessAhead s.sim = false))
  | .own _ | .destroy | .pass | .dmaStep => .isTrue trivial

/-! ## Where the pass can be -/

/-- The addresses a pass has sampled: the driver's, or the 0 written over
it. -/
def SampledOk (a : RingAddress) : DmaPc → Prop
  | .outside | .loadDataPtr => True
  | .latchTest addr => addr = a.addr ∨ addr = 0
  | .popping addr _ | .loadCounter addr | .storeCounter addr _ => addr = a.addr

/-- What holds in every run, quiesced or not. -/
structure Inv (s : Attached) : Prop where
  dataPtr : s.sim.dev.dataPtr = a.addr ∨ s.sim.dev.dataPtr = 0
  cleared : s.dtor.cleared = true → s.sim.dev.dataPtr = 0
  latch : s.sim.lastValidShuttle = 0 ∨ s.sim.lastValidShuttle = a.addr
  sampled : SampledOk a s.dma
  dead : s.ringLives = false → s.dtor = .done
  live : s.ringLives = true → s.stray = false

/-- What holds besides in every run that destroys the shuttle quiesced. -/
structure Clean (s : Attached) : Prop where
  notAhead : s.ringLives = false → s.dma.accessAhead s.sim = false
  stray : s.stray = false

variable {a : RingAddress} {s t : Attached}

theorem start_inv (h : Start a s) : Inv a s where
  dataPtr := .inl h.dataPtr
  cleared := fun hcleared => by rw [h.dtor] at hcleared; cases hcleared
  latch := h.latch
  sampled := by rw [h.dma]; trivial
  dead := fun hdead => by rw [h.ringLives] at hdead; cases hdead
  live := fun _ => h.stray

/-- A step of the physics thread stays within the driver's address. -/
theorem Inv.afterDma (h : Inv a s) : Inv a (s.afterDma a) := by
  have hptr := DmaAccess.apply_dataPtr s.sim s.mem (s.dma.step s.sim s.mem).1
  suffices hnext : ((s.afterDma a).sim.lastValidShuttle = 0 ∨
      (s.afterDma a).sim.lastValidShuttle = a.addr) ∧ SampledOk a (s.afterDma a).dma from
    { dataPtr := by rw [Attached.afterDma, hptr]; exact h.dataPtr
      cleared := fun hcleared => hptr.trans (h.cleared hcleared)
      latch := hnext.1
      sampled := hnext.2
      dead := h.dead
      live := fun hlive => by
        simp only [Attached.afterDma] at hlive ⊢
        simp [h.live hlive, hlive] }
  have hok := h.sampled
  unfold Attached.afterDma
  cases hdma : s.dma with
  | outside => exact ⟨h.latch, trivial⟩
  | loadDataPtr => exact ⟨h.latch, h.dataPtr⟩
  | latchTest addr =>
      rw [hdma] at hok
      rcases hok with rfl | rfl
      · obtain ⟨happly, hstep⟩ := DmaPc.step_latchTest s.mem h.latch
        simp only [happly, hstep]
        exact ⟨.inr trivial, rfl⟩
      · exact ⟨h.latch, trivial⟩
  | popping addr pc =>
      rw [hdma] at hok
      subst hok
      exact ⟨h.latch, DmaPc.afterPop_cases (P := SampledOk a) _ _ _ (fun _ => trivial)
        (fun _ => rfl) rfl⟩
  | loadCounter addr =>
      rw [hdma] at hok
      exact ⟨h.latch, hok⟩
  | storeCounter addr counter =>
      rw [hdma] at hok
      exact ⟨h.latch, hok⟩

theorem Inv.afterDtor (h : Inv a s) : Inv a s.afterDtor := by
  unfold Attached.afterDtor
  cases hdtor : s.dtor with
  | alive => exact h
  | done => exact h
  | clearDataPtr =>
      exact
        { dataPtr := .inr rfl
          cleared := fun _ => rfl
          latch := h.latch
          sampled := h.sampled
          dead := fun hdead => by rw [h.dead hdead] at hdtor; cases hdtor
          live := h.live }
  | stopWatchdog =>
      exact
        { dataPtr := h.dataPtr
          cleared := fun _ => h.cleared (by rw [hdtor]; rfl)
          latch := h.latch
          sampled := h.sampled
          dead := fun hdead => by rw [h.dead hdead] at hdtor; cases hdtor
          live := h.live }
  | joinWatchdog =>
      exact
        { dataPtr := h.dataPtr
          cleared := fun _ => h.cleared (by rw [hdtor]; rfl)
          latch := h.latch
          sampled := h.sampled
          dead := fun hdead => by rw [h.dead hdead] at hdtor; cases hdtor
          live := h.live }
  | destroyShuttle =>
      exact
        { dataPtr := h.dataPtr
          cleared := fun _ => h.cleared (by rw [hdtor]; rfl)
          latch := h.latch
          sampled := h.sampled
          dead := fun _ => rfl
          live := fun hlive => by cases hlive }

theorem Inv.step (h : Inv a s) {act : Act} (hstep : s.step a act = some t) : Inv a t := by
  cases act with
  | own ring =>
      cases hstep
      exact { h with }
  | destroy =>
      simp only [Attached.step, Option.ite_none_right_eq_some, Option.some.injEq] at hstep
      obtain ⟨halive, rfl⟩ := hstep
      exact
        { dataPtr := h.dataPtr
          cleared := fun hcleared => by cases hcleared
          latch := h.latch
          sampled := h.sampled
          dead := fun hdead => by rw [h.dead hdead] at halive; cases halive
          live := h.live }
  | dtorStep =>
      cases hstep
      exact h.afterDtor
  | pass =>
      simp only [Attached.step, Option.ite_none_right_eq_some, Option.some.injEq] at hstep
      obtain ⟨-, rfl⟩ := hstep
      exact { h with sampled := trivial }
  | dmaStep =>
      cases hstep
      exact h.afterDma

theorem reachable_inv (h : (system a).Reachable s) : Inv a s :=
  System.Reachable.invariant (I := Inv a) (fun _ hs => start_inv hs)
    (fun _ _ _ hs hstep => hs.step hstep) h

/-! ## The condition is sufficient -/

/-- Every step of a quiesced run keeps it clean. -/
theorem Clean.step (hinv : Inv a s) (h : Clean s) {act : Act} (hquiet : Quiesced s act)
    (hstep : s.step a act = some t) : Clean t := by
  cases act with
  | own ring =>
      cases hstep
      exact { h with }
  | destroy =>
      simp only [Attached.step, Option.ite_none_right_eq_some, Option.some.injEq] at hstep
      obtain ⟨-, rfl⟩ := hstep
      exact { h with }
  | dtorStep =>
      cases hstep
      unfold Attached.afterDtor
      cases hdtor : s.dtor with
      | alive => exact h
      | done => exact h
      | clearDataPtr =>
          exact
            { notAhead := fun hdead => by rw [hinv.dead hdead] at hdtor; cases hdtor
              stray := h.stray }
      | stopWatchdog => exact { h with }
      | joinWatchdog => exact { h with }
      | destroyShuttle =>
          exact
            { notAhead := fun _ => hquiet hdtor
              stray := h.stray }
  | pass =>
      simp only [Attached.step, Option.ite_none_right_eq_some, Option.some.injEq] at hstep
      obtain ⟨-, rfl⟩ := hstep
      exact
        { notAhead := fun _ => rfl
          stray := h.stray }
  | dmaStep =>
      cases hstep
      cases hlives : s.ringLives with
      | true =>
          exact
            { notAhead := fun hdead => by rw [Attached.afterDma, hlives] at hdead; cases hdead
              stray := by simp only [Attached.afterDma, h.stray, hlives]; simp }
      | false =>
          have hahead := h.notAhead hlives
          have hptr : s.sim.dev.dataPtr = 0 := hinv.cleared (by rw [hinv.dead hlives]; rfl)
          exact
            { notAhead := fun _ => DmaPc.not_ahead_step s.mem hptr hahead
              stray := by
                simp only [Attached.afterDma, h.stray, DmaPc.touches_of_not_ahead hahead]
                simp }

private theorem quiesced_reachable_clean (h : ((system a).restrict Quiesced).Reachable s) :
    Clean s := by
  have hboth : Inv a s ∧ Clean s := by
    refine System.Reachable.invariant (I := fun s => Inv a s ∧ Clean s) ?_ ?_ h
    · intro s hs
      exact ⟨start_inv hs,
        { notAhead := fun hdead => by rw [hs.ringLives] at hdead; cases hdead
          stray := hs.stray }⟩
    · rintro s act t ⟨hinv, hclean⟩ ⟨hquiet, hstep⟩
      exact ⟨hinv.step hstep, hclean.step hinv hquiet hstep⟩
  exact hboth.2

private theorem step_done (hdone : s.dtor = .done) {act : Act} (hstep : s.step a act = some t) :
    t.dtor = .done := by
  cases act with
  | own ring =>
      cases hstep
      exact hdone
  | destroy =>
      simp only [Attached.step, hdone, reduceCtorEq, if_false] at hstep
  | dtorStep =>
      cases hstep
      simp only [Attached.afterDtor, hdone]
  | pass =>
      simp only [Attached.step, Option.ite_none_right_eq_some, Option.some.injEq] at hstep
      obtain ⟨-, rfl⟩ := hstep
      exact hdone
  | dmaStep =>
      cases hstep
      exact hdone

/-- Once the destructor is done, whatever happens leaves a clean state
clean. -/
theorem Clean.run_done {acts : List Act} (hrun : (system a).Run s acts t) (hinv : Inv a s)
    (hdone : s.dtor = .done) (h : Clean s) : Clean t := by
  have hall : Inv a t ∧ t.dtor = .done ∧ Clean t := by
    refine hrun.preserves (I := fun s => Inv a s ∧ s.dtor = .done ∧ Clean s) ?_
      ⟨hinv, hdone, h⟩
    rintro s act t ⟨hinv, hdone, hclean⟩ hstep
    refine ⟨hinv.step hstep, step_done hdone hstep, hclean.step hinv ?_ hstep⟩
    cases act with
    | dtorStep => exact fun hdestroy => by rw [hdone] at hdestroy; cases hdestroy
    | own ring => trivial
    | destroy => trivial
    | pass => trivial
    | dmaStep => trivial
  exact hall.2.2

/-! ## The condition is necessary -/

/-- Some steps of the physics thread alone end in a stray access. -/
def Strays (a : RingAddress) (s : Attached) : Prop :=
  ∃ acts t, (system a).Run s acts t ∧ t.stray = true

theorem Strays.of_touches (hdead : s.ringLives = false) (htouch : s.dma.touches = some a.addr) :
    Strays a s := by
  refine ⟨[.dmaStep], s.afterDma a, .cons rfl (.nil _), ?_⟩
  simp only [Attached.afterDma, htouch, hdead]
  simp

theorem Strays.of_next (h : Strays a (s.afterDma a)) : Strays a s := by
  obtain ⟨acts, t, hrun, hstray⟩ := h
  exact ⟨.dmaStep :: acts, t, .cons rfl hrun, hstray⟩

/-- A thread on its way to a dead ring gets there within three steps. -/
theorem Inv.strays (h : Inv a s) (hdead : s.ringLives = false)
    (hahead : s.dma.accessAhead s.sim = true) : Strays a s := by
  have hok := h.sampled
  cases hdma : s.dma with
  | outside =>
      rw [hdma] at hahead
      cases hahead
  | loadDataPtr =>
      rw [hdma] at hahead
      cases hahead
  | latchTest addr =>
      rw [hdma] at hahead hok
      rcases hok with rfl | rfl
      · obtain ⟨-, hstep⟩ := DmaPc.step_latchTest s.mem h.latch
        refine .of_next (.of_touches hdead ?_)
        simp only [Attached.afterDma, hdma, hstep]
        rfl
      · cases hahead
  | popping addr pc =>
      rw [hdma] at hahead hok
      subst hok
      cases pc with
      | idle => cases hahead
      | loadTail => exact .of_touches hdead (by rw [hdma]; rfl)
      | loadHead t => exact .of_touches hdead (by rw [hdma]; rfl)
      | emptyTest t hd =>
          have hne : hd ≠ t := of_decide_eq_true hahead
          refine .of_next (.of_touches hdead ?_)
          simp only [Attached.afterDma, hdma, DmaPc.step, PopPc.step, if_neg hne]
          rfl
      | slotRead t => exact .of_touches hdead (by rw [hdma]; rfl)
      | storeTail t desc => exact .of_touches hdead (by rw [hdma]; rfl)
  | loadCounter addr =>
      rw [hdma] at hok
      subst hok
      refine .of_next (.of_next (.of_touches hdead ?_))
      simp only [Attached.afterDma, hdma, DmaPc.step]
      rfl
  | storeCounter addr counter =>
      rw [hdma] at hok
      subst hok
      refine .of_next (.of_touches hdead ?_)
      simp only [Attached.afterDma, hdma, DmaPc.step]
      rfl

/-- **When teardown is safe.**  In every run that destroys the shuttle only
when the physics thread is not on its way to the ring, the device never
touches the dead ring; and at a destruction in any run, nothing it can lead to
is a stray access if and only if the thread is not on its way then. -/
theorem teardown_safe (a : RingAddress) :
    (∀ s, ((system a).restrict Quiesced).Reachable s → s.stray = false) ∧
      ∀ s, (system a).Reachable s → s.dtor = .destroyShuttle →
        ((∀ acts t, (system a).Run s.afterDtor acts t → t.stray = false) ↔
          s.dma.accessAhead s.sim = false) := by
  refine ⟨fun s h => (quiesced_reachable_clean h).stray, ?_⟩
  intro s h hdtor
  have hinv := reachable_inv h
  have hlives : s.ringLives = true := by
    by_contra hdead
    rw [hinv.dead (Bool.eq_false_iff.mpr hdead)] at hdtor
    cases hdtor
  have hafter : s.afterDtor = { s with dtor := .done, ringLives := false } := by
    simp only [Attached.afterDtor, hdtor]
  have hnext := hinv.afterDtor
  rw [hafter] at hnext ⊢
  constructor
  · intro hnone
    by_contra hahead
    obtain ⟨acts, t, hrun, hstray⟩ := hnext.strays rfl (Bool.not_eq_false _ ▸ hahead)
    rw [hnone acts t hrun] at hstray
    cases hstray
  · intro hahead acts t hrun
    refine (Clean.run_done hrun hnext rfl ?_).stray
    exact
      { notAhead := fun _ => hahead
        stray := hinv.live hlives }

/-! ## Two teardowns -/

/-- A driver at 2 MiB whose ring has one descriptor queued. -/
def sampleStart : Attached where
  sim :=
    { PorthSimDevice.fresh with dev := { PorthSimDevice.fresh.dev with dataPtr := 0x200000 } }
  mem := fun _ => { PorthRingBuffer.fresh (fun _ => default) with head := 1 }
  dma := .outside
  dtor := .alive
  ringLives := true
  stray := false

theorem sampleStart_start : Start .twoMiB sampleStart where
  dataPtr := rfl
  latch := .inl rfl
  dma := rfl
  dtor := rfl
  ringLives := rfl
  stray := rfl

/-- A whole pass, and only then the destructor. -/
def passThenDestroy : List Act :=
  [Act.pass] ++ List.replicate 12 Act.dmaStep ++ [Act.destroy] ++ List.replicate 4 Act.dtorStep ++
    [Act.pass] ++ List.replicate 2 Act.dmaStep

theorem teardown_safe_after_pass :
    ∃ s : Attached, s.ringLives = false ∧ s.sim.dev.counter = 1 ∧ s.stray = false := by
  obtain ⟨t, hexec, htest⟩ :=
    System.exec_of_any (System.guarded Quiesced (step .twoMiB)) sampleStart passThenDestroy
      (fun s => !s.ringLives && decide (s.sim.dev.counter = 1)) (by decide +kernel)
  simp only [Bool.and_eq_true, Bool.not_eq_true', decide_eq_true_eq] at htest
  refine ⟨t, htest.1, htest.2, ?_⟩
  exact (teardown_safe .twoMiB).1 t
    (System.restrict_reachable_of_exec sampleStart_start hexec)

/-- The destructor runs as a whole between the latch test of a pass and its
first pop. -/
def destroyInsidePass : List Act :=
  [Act.pass, Act.dmaStep, Act.dmaStep, Act.destroy] ++ List.replicate 4 Act.dtorStep ++
    [Act.dmaStep]

theorem stray_access_inside_pass :
    ∃ s, (system .twoMiB).Reachable s ∧ s.dtor = .done ∧ s.sim.dev.dataPtr = 0 ∧
      s.stray = true := by
  obtain ⟨t, hexec, htest⟩ :=
    System.exec_of_any (step .twoMiB) sampleStart destroyInsidePass
      (fun s => decide (s.dtor = .done) && (decide (s.sim.dev.dataPtr = 0) && s.stray))
      (by decide +kernel)
  simp only [Bool.and_eq_true, decide_eq_true_eq] at htest
  exact ⟨t, System.reachable_of_exec sampleStart_start hexec, htest⟩

end Attached

end PorthCore.Ports.Teardown
