import PorthCore.Ports.RingSteps
import PorthCore.Ports.SimDevice

/-!
# `process_dma` one memory access at a time

The physics thread inside a pass is at a control point of `DmaPc`, which
carries the address it has sampled and, inside the drain loop, the control
point of the pop under way.  `data_ptr` is sampled once, at `loadDataPtr`;
nothing after that looks at the register again.

`dma_steps` ties the control points to the whole pass: run without
interference they end in the state `processDma` computes.
-/

namespace PorthCore.Ports.DmaSteps

open PorthCore.Ports.RingBuffer
open PorthCore.Ports.RingSteps
open PorthCore.Ports.SimDevice

/-- Control points of `process_dma`; `outside` is between two passes. -/
inductive DmaPc
  | outside
  | loadDataPtr
  | latchTest (shuttleAddr : UInt64)
  | popping (shuttleAddr : UInt64) (pc : PopPc)
  | loadCounter (shuttleAddr : UInt64)
  | storeCounter (shuttleAddr : UInt64) (counter : UInt64)
  deriving DecidableEq

/-- The write of a step, to the device or to the ring at an address. -/
inductive DmaAccess
  | none
  | latch (shuttleAddr : UInt64)
  | ring (shuttleAddr : UInt64) (access : Access)
  | counter (v : UInt64)

/-- What an access of the pass does to the device and to memory. -/
def DmaAccess.apply (sim : PorthSimDevice) (mem : Heap) : DmaAccess → PorthSimDevice × Heap
  | .none => (sim, mem)
  | .latch shuttleAddr => ({ sim with lastValidShuttle := shuttleAddr }, mem)
  | .ring shuttleAddr access =>
      (sim, Function.update mem shuttleAddr (access.apply (mem shuttleAddr)))
  | .counter v => ({ sim with dev := { sim.dev with counter := v } }, mem)

namespace DmaPc

/-- The pop the pass is inside of. -/
def pop : DmaPc → PopPc
  | .popping _ pc => pc
  | _ => .idle

/-- Where a step of the pop at `pc` leads: when the call is over the loop goes
on to the counter if it returned true and leaves the pass if not. -/
def afterPop (shuttleAddr : UInt64) (pc : PopPc) : PopPc → DmaPc
  | .idle =>
      match pc with
      | .storeTail _ _ => .loadCounter shuttleAddr
      | _ => .outside
  | pc' => .popping shuttleAddr pc'

/-- The access from a program counter, and the next program counter. -/
def step (sim : PorthSimDevice) (mem : Heap) : DmaPc → DmaAccess × DmaPc
  | .outside => (.none, .outside)
  | .loadDataPtr => (.none, .latchTest sim.dev.dataPtr)
  | .latchTest shuttleAddr =>
      match dmaTarget shuttleAddr sim.lastValidShuttle with
      | none => (.none, .outside)
      | some shuttleAddr =>
          (if sim.lastValidShuttle = 0 then .latch shuttleAddr else .none,
            .popping shuttleAddr .loadTail)
  | .popping shuttleAddr pc =>
      let r := pc.step simDefaultShuttleSize (mem shuttleAddr)
      (.ring shuttleAddr r.1, afterPop shuttleAddr pc r.2)
  | .loadCounter shuttleAddr => (.none, .storeCounter shuttleAddr sim.dev.counter)
  | .storeCounter shuttleAddr counter => (.counter (counter + 1), .popping shuttleAddr .loadTail)

/-- The ring a step accesses, if it accesses one.  The empty test compares two
locals. -/
def touches : DmaPc → Option UInt64
  | .popping shuttleAddr pc =>
      match pc with
      | .idle | .emptyTest _ _ => none
      | .loadTail | .loadHead _ | .slotRead _ | .storeTail _ _ => some shuttleAddr
  | _ => none

/-- Whether the steps of this thread alone will reach the ring from here,
whatever the registers and the ring turn into: false only outside a pass,
before `data_ptr` is sampled, and where a test on locals is about to end the
pass. -/
def accessAhead (sim : PorthSimDevice) : DmaPc → Bool
  | .outside | .loadDataPtr => false
  | .latchTest shuttleAddr => (dmaTarget shuttleAddr sim.lastValidShuttle).isSome
  | .popping _ pc =>
      match pc with
      | .idle => false
      | .emptyTest t h => decide (h ≠ t)
      | .loadTail | .loadHead _ | .slotRead _ | .storeTail _ _ => true
  | .loadCounter _ | .storeCounter _ _ => true

end DmaPc

/-- After a step of the pop the pass is still inside it, at the counter, or
over. -/
theorem DmaPc.afterPop_cases {P : DmaPc → Prop} (addr : UInt64) (pc pc' : PopPc)
    (houtside : pc' = .idle → P .outside) (hcounter : pc' = .idle → P (.loadCounter addr))
    (hinside : P (.popping addr pc')) : P (DmaPc.afterPop addr pc pc') := by
  cases pc' with
  | idle =>
      cases pc with
      | storeTail t desc => exact hcounter rfl
      | idle => exact houtside rfl
      | loadTail => exact houtside rfl
      | loadHead t => exact houtside rfl
      | emptyTest t h => exact houtside rfl
      | slotRead t => exact houtside rfl
  | loadTail => exact hinside
  | loadHead t => exact hinside
  | emptyTest t h => exact hinside
  | slotRead t => exact hinside
  | storeTail t desc => exact hinside

@[simp] theorem DmaPc.pop_afterPop (addr : UInt64) (pc pc' : PopPc) :
    (DmaPc.afterPop addr pc pc').pop = pc' :=
  DmaPc.afterPop_cases (P := fun dma => dma.pop = pc') addr pc pc' Eq.symm Eq.symm rfl

/-- The latch test on a driver's own address leads into the drain loop, with
the latch on that address. -/
theorem DmaPc.step_latchTest {sim : PorthSimDevice} (mem : Heap) {a : RingAddress}
    (h : sim.lastValidShuttle = 0 ∨ sim.lastValidShuttle = a.addr) :
    (DmaPc.step sim mem (.latchTest a.addr)).1.apply sim mem =
        ({ sim with lastValidShuttle := a.addr }, mem) ∧
      (DmaPc.step sim mem (.latchTest a.addr)).2 = .popping a.addr .loadTail := by
  rw [DmaPc.step, dmaTarget_ring a h]
  dsimp only
  rcases h with hzero | hsame
  · rw [if_pos hzero]
    exact ⟨rfl, rfl⟩
  · rw [if_neg (hsame ▸ a.ne_zero), ← hsame]
    exact ⟨rfl, rfl⟩

/-- No step of a pass writes `data_ptr`. -/
theorem DmaAccess.apply_dataPtr (sim : PorthSimDevice) (mem : Heap) (access : DmaAccess) :
    (access.apply sim mem).1.dev.dataPtr = sim.dev.dataPtr := by
  cases access <;> rfl

namespace DmaPc

theorem touches_of_not_ahead {sim : PorthSimDevice} {pc : DmaPc}
    (h : pc.accessAhead sim = false) : pc.touches = none := by
  cases pc with
  | popping addr pc => cases pc <;> first | rfl | cases h
  | outside => rfl
  | loadDataPtr => rfl
  | latchTest addr => rfl
  | loadCounter addr => rfl
  | storeCounter addr counter => rfl

/-- With `data_ptr` at 0, a physics thread that is not on its way to a ring
does not get on its way by itself. -/
theorem not_ahead_step {sim : PorthSimDevice} (mem : Heap) {pc : DmaPc}
    (hptr : sim.dev.dataPtr = 0) (h : pc.accessAhead sim = false) :
    (pc.step sim mem).2.accessAhead ((pc.step sim mem).1.apply sim mem).1 = false := by
  cases pc with
  | outside => rfl
  | loadDataPtr =>
      rw [step, hptr]
      rfl
  | latchTest addr =>
      have hnone : dmaTarget addr sim.lastValidShuttle = none :=
        Option.not_isSome_iff_eq_none.mp (Bool.eq_false_iff.mp h)
      rw [step, hnone]
      rfl
  | popping addr pc =>
      cases pc with
      | idle => rfl
      | emptyTest t hd =>
          have heq : hd = t := Decidable.not_not.mp (of_decide_eq_false h)
          rw [step, PopPc.step, if_pos heq]
          rfl
      | loadTail => cases h
      | loadHead t => cases h
      | slotRead t => cases h
      | storeTail t desc => cases h
  | loadCounter addr => cases h
  | storeCounter addr counter => cases h

end DmaPc

/-! ## The pass as a sequence of steps -/

/-- The physics thread with the memory it works on. -/
abbrev DmaThread := PorthSimDevice × Heap × DmaPc

/-- One step of a physics thread that runs alone. -/
def dmaAlone (s : DmaThread) : DmaThread :=
  let r := s.2.2.step s.1 s.2.1
  ((r.1.apply s.1 s.2.1).1, (r.1.apply s.1 s.2.1).2, r.2)

/-- A round that pops takes seven steps, from one load of `m_tail` to the
next. -/
theorem round_steps {sim : PorthSimDevice} {mem : Heap} {addr : UInt64}
    {desc : PorthDescriptor} {ring' : PorthRingBuffer} {counter' : UInt64}
    (h : dmaRound 1024 (mem addr) sim.dev.counter = some (desc, ring', counter')) :
    dmaAlone^[7] (sim, mem, .popping addr .loadTail) =
      ({ sim with dev := { sim.dev with counter := counter' } },
        Function.update mem addr ring', .popping addr .loadTail) := by
  unfold dmaRound at h
  by_cases hempty : (mem addr).head = (mem addr).tail
  · simp [pop, hempty] at h
  · simp only [pop, hempty, if_false, Option.some.injEq, Prod.mk.injEq] at h
    obtain ⟨-, rfl, rfl⟩ := h
    simp [dmaAlone, DmaPc.step, DmaPc.afterPop, DmaAccess.apply, PopPc.step, Access.apply, hempty,
      simDefaultShuttleSize]

/-- A round that finds the ring empty takes three and leaves the pass. -/
theorem last_round_steps {sim : PorthSimDevice} {mem : Heap} {addr counter : UInt64}
    (h : dmaRound 1024 (mem addr) counter = none) :
    dmaAlone^[3] (sim, mem, .popping addr .loadTail) = (sim, mem, .outside) := by
  unfold dmaRound at h
  by_cases hempty : (mem addr).head = (mem addr).tail
  · simp [dmaAlone, DmaPc.step, DmaPc.afterPop, DmaAccess.apply, PopPc.step, Access.apply, hempty]
  · simp [pop, hempty] at h

private theorem drain_steps (addr : UInt64) : ∀ {fuel : Nat} (sim : PorthSimDevice) (mem : Heap)
    {d : Drain}, drain 1024 fuel (mem addr) sim.dev.counter = some d →
      ∃ n, dmaAlone^[n] (sim, mem, .popping addr .loadTail) =
        ({ sim with dev := { sim.dev with counter := d.counter } },
          Function.update mem addr d.ring, .outside) := by
  intro fuel
  induction fuel with
  | zero => intro sim mem d h; cases h
  | succ fuel ih =>
      intro sim mem d h
      rw [drain] at h
      cases hround : dmaRound 1024 (mem addr) sim.dev.counter with
      | none =>
          rw [hround] at h
          cases h
          refine ⟨3, ?_⟩
          rw [last_round_steps hround, Function.update_eq_self]
      | some r =>
          obtain ⟨desc, ring', counter'⟩ := r
          rw [hround] at h
          simp only [Option.map_eq_some_iff] at h
          obtain ⟨d', hd', rfl⟩ := h
          obtain ⟨n, hn⟩ := ih { sim with dev := { sim.dev with counter := counter' } }
            (Function.update mem addr ring') (by rw [Function.update_self]; exact hd')
          refine ⟨n + 7, ?_⟩
          rw [Function.iterate_add_apply, round_steps hround, hn, Function.update_idem]

/-- **Run alone, the steps of a pass compute `processDma`.** -/
theorem dma_steps {fuel : Nat} {sim : PorthSimDevice} {mem : Heap} {pass : DmaPass}
    (h : processDma fuel sim mem = some pass) :
    ∃ n, dmaAlone^[n] (sim, mem, .loadDataPtr) = (pass.sim, pass.mem, .outside) := by
  unfold processDma at h
  cases htarget : dmaTarget sim.dev.dataPtr sim.lastValidShuttle with
  | none =>
      rw [htarget] at h
      cases h
      exact ⟨2, by simp [dmaAlone, DmaPc.step, DmaAccess.apply, htarget]⟩
  | some addr =>
      rw [htarget] at h
      simp only [Option.map_eq_some_iff] at h
      obtain ⟨d, hd, rfl⟩ := h
      obtain ⟨n, hn⟩ := drain_steps addr
        { sim with
          lastValidShuttle := if sim.lastValidShuttle = 0 then addr else sim.lastValidShuttle }
        mem hd
      have htwo : dmaAlone^[2] (sim, mem, .loadDataPtr) =
          ({ sim with
              lastValidShuttle :=
                if sim.lastValidShuttle = 0 then addr else sim.lastValidShuttle },
            mem, .popping addr .loadTail) := by
        by_cases hzero : sim.lastValidShuttle = 0
        · rw [hzero] at htarget
          simp [dmaAlone, DmaPc.step, DmaAccess.apply, htarget, hzero]
        · simp [dmaAlone, DmaPc.step, DmaAccess.apply, htarget, hzero]
      refine ⟨n + 2, ?_⟩
      rw [Function.iterate_add_apply, htwo, hn]

end PorthCore.Ports.DmaSteps
