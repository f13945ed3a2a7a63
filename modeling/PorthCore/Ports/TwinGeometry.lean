import PorthCore.Verified.Transition
import PorthCore.Ports.Driver

/-!
# One ring, two masks

`Driver<RingSize>` masks the shared indices with `RingSize - 1`; the pass of
the Digital Twin reinterprets the same object as a ring of 1024 and masks with
1023.  A run alternates transmissions with whole passes over the ring whose
address the driver's constructor wrote to `data_ptr`.

A pass is exact when it ends with the ring empty, has popped precisely what
was accepted since the previous pass, has read no slot outside the ring and
has raised `counter` by the number popped.  It is exact if and only if the two
masks cannot be told apart on the stretch from `tail` to `head`
(`MasksAgree`): the ring has 1024 slots, or the stretch neither wraps nor
leaves the first 1024 slots.
-/

namespace PorthCore.Ports.TwinGeometry

open PorthCore.Verified.Transition
open PorthCore.Verified.Circular
open PorthCore.Ports.RingBuffer
open PorthCore.Ports.SimDevice
open PorthCore.Ports.Driver

/-- A driver attached to a device.  `sincePass` lists what the ring accepted
since the previous pass. -/
structure Attached where
  sim : PorthSimDevice
  mem : Heap
  stats : Option PorthStats
  sincePass : List PorthDescriptor

/-- A call of `transmit`, or a whole pass of the twin. -/
inductive AttachedOp
  | transmit (desc : PorthDescriptor)
  | pass

namespace Attached

variable (g : RingGeometry) (a : RingAddress)

/-- The driver's ring. -/
def ring (s : Attached) : PorthRingBuffer := s.mem a.addr

/-- The state `Driver::Driver` leaves on a device and a memory. -/
def constructed (sim : PorthSimDevice) (mem : Heap) (stats : Option PorthStats)
    (slots : Nat → PorthDescriptor) : Attached :=
  { sim := { sim with dev := construct sim.dev a.addr .built }
    mem := Function.update mem a.addr (.fresh slots)
    stats := stats
    sincePass := [] }

/-- Where runs start: a driver just constructed on a device that has latched
no other ring. -/
def Start (s : Attached) : Prop :=
  ∃ (sim : PorthSimDevice) (mem : Heap) (stats : Option PorthStats)
    (slots : Nat → PorthDescriptor),
    (sim.lastValidShuttle = 0 ∨ sim.lastValidShuttle = a.addr) ∧
      s = constructed a sim mem stats slots

/-- The driver calls `transmit`. -/
def transmitted (s : Attached) (desc : PorthDescriptor) : Attached :=
  let r := transmit g.size (s.ring a) s.stats desc
  { s with
    mem := Function.update s.mem a.addr r.2.1
    stats := r.2.2
    sincePass := if r.1 = .success then s.sincePass ++ [desc] else s.sincePass }

/-- A pass of `process_dma` has ended. -/
def passed (s : Attached) (pass : DmaPass) : Attached :=
  { s with sim := pass.sim, mem := pass.mem, sincePass := [] }

/-- A pass is a step only if it ends. -/
def step (s : Attached) (op : AttachedOp) (t : Attached) : Prop :=
  match op with
  | .transmit desc => t = s.transmitted g a desc
  | .pass => ∃ fuel pass, processDma fuel s.sim s.mem = some pass ∧ t = s.passed pass

/-- Calls and passes in any order, on a ring of any size. -/
def system : System Attached AttachedOp := { init := Start a, step := step g a }

/-- The pass started in `s` ends, and does exactly what the driver expects. -/
def PassExact (s : Attached) : Prop :=
  ∃ fuel pass, processDma fuel s.sim s.mem = some pass ∧
    (pass.mem a.addr).head = (pass.mem a.addr).tail ∧
    pass.popped.map Prod.snd = s.sincePass ∧
    (∀ slot ∈ pass.popped, slot.1.toNat < g.size.toNat) ∧
    pass.sim.dev.counter = s.sim.dev.counter + UInt64.ofNat s.sincePass.length

/-- The masks `RingSize - 1` and 1023 agree on the queued stretch. -/
def MasksAgree (s : Attached) : Prop :=
  g.size = 1024 ∨
    ((s.ring a).tail.toNat ≤ (s.ring a).head.toNat ∧ (s.ring a).head.toNat < 1024)

/-! ## The invariant -/

/-- The shuttle the twin finds and what the ring queues since the last pass. -/
structure Inv (s : Attached) : Prop where
  dataPtr : s.sim.dev.dataPtr = a.addr
  latch : s.sim.lastValidShuttle = 0 ∨ s.sim.lastValidShuttle = a.addr
  queue : Represents g (s.ring a) (s.ring a).tail.toNat s.sincePass
  tail_lt : (s.ring a).tail.toNat < 1024

variable {g a}

theorem start_inv {s : Attached} (h : Start a s) : Inv g a s := by
  obtain ⟨sim, mem, stats, slots, hlatch, rfl⟩ := h
  have hring : (constructed a sim mem stats slots).ring a = .fresh slots :=
    Function.update_self ..
  refine
    { dataPtr := rfl
      latch := hlatch
      queue := ?_
      tail_lt := ?_ }
  · rw [hring]
    exact represents_fresh g slots
  · rw [hring]
    exact Nat.succ_pos 1023

private theorem transmitted_success {s : Attached} {desc : PorthDescriptor}
    {ring' : PorthRingBuffer} {stats' : Option PorthStats}
    (h : transmit g.size (s.ring a) s.stats desc = (.success, ring', stats')) :
    s.transmitted g a desc =
      { s with
        mem := Function.update s.mem a.addr ring'
        stats := stats'
        sincePass := s.sincePass ++ [desc] } := by
  simp only [transmitted, h, if_true]

private theorem transmitted_full {s : Attached} {desc : PorthDescriptor}
    {stats' : Option PorthStats}
    (h : transmit g.size (s.ring a) s.stats desc = (.full, s.ring a, stats')) :
    s.transmitted g a desc = { s with stats := stats' } := by
  simp only [transmitted, h, reduceCtorEq, if_false]
  rw [ring, Function.update_eq_self]

theorem Inv.transmitted {s : Attached} (h : Inv g a s) (desc : PorthDescriptor) :
    Inv g a (s.transmitted g a desc) := by
  rcases transmit_cases h.queue s.stats desc with ⟨ring', heq, -, hnext⟩ | ⟨heq, -⟩
  · have htail : ring'.tail.toNat = (s.ring a).tail.toNat := by
      rw [hnext.tail_eq, Nat.mod_eq_of_lt h.queue.tail_lt]
    have hring : Function.update s.mem a.addr ring' a.addr = ring' := Function.update_self ..
    rw [transmitted_success heq]
    refine
      { dataPtr := h.dataPtr
        latch := h.latch
        queue := ?_
        tail_lt := ?_ }
    · simp only [ring, hring, htail]
      exact hnext
    · simp only [ring, hring, htail]
      exact h.tail_lt
  · rw [transmitted_full heq]
    exact { dataPtr := h.dataPtr, latch := h.latch, queue := h.queue, tail_lt := h.tail_lt }

/-- Where the masks agree, the device sees the same queue the driver does. -/
theorem Inv.twin_queue {s : Attached} (h : Inv g a s) (hagree : MasksAgree g a s) :
    Represents .default1024 (s.ring a) (s.ring a).tail.toNat s.sincePass := by
  have hq := h.queue
  have htail := h.tail_lt
  rcases hagree with hsize | ⟨hle, hlt⟩
  · refine hq.congr_period ?_
    rw [RingGeometry.default1024_period]
    exact g.size_eq_iff_period_eq.mp hsize
  · have hlen : (s.ring a).tail.toNat + s.sincePass.length = (s.ring a).head.toNat := by
      have hhead := hq.head_eq
      have hroom := hq.room
      have htlt := hq.tail_lt
      by_cases hwrap : (s.ring a).tail.toNat + s.sincePass.length < g.period
      · rw [Nat.mod_eq_of_lt hwrap] at hhead
        exact hhead.symm
      · rw [Nat.mod_eq_sub_mod (by omega), Nat.mod_eq_of_lt (by omega)] at hhead
        omega
    refine
      { tail_eq := ?_
        head_eq := ?_
        room := ?_
        slots := ?_ }
    · rw [RingGeometry.default1024_period, Nat.mod_eq_of_lt htail]
    · rw [RingGeometry.default1024_period, hlen, Nat.mod_eq_of_lt hlt]
    · rw [RingGeometry.default1024_period]
      omega
    · intro i hi
      have hslot := hq.slots i hi
      have hhlt := hq.head_lt
      rw [Nat.mod_eq_of_lt (by omega)] at hslot
      rw [RingGeometry.default1024_period, Nat.mod_eq_of_lt (by omega)]
      exact hslot

/-- On the stretch where the masks agree no slot lies outside the ring. -/
theorem Inv.slot_lt {s : Attached} (h : Inv g a s) (hagree : MasksAgree g a s) {i : Nat}
    (hi : i < s.sincePass.length) :
    ((s.ring a).tail.toNat + i) % RingGeometry.default1024.period < g.period := by
  have hq := h.twin_queue hagree
  have hhead := hq.head_eq
  have hhlt := h.queue.head_lt
  have hroom := hq.room
  rw [RingGeometry.default1024_period] at hhead hroom ⊢
  rcases hagree with hsize | ⟨hle, hlt⟩
  · rw [g.size_eq_iff_period_eq.mp hsize]
    exact Nat.mod_lt _ (by decide)
  · have := h.tail_lt
    omega

/-- **The condition is sufficient**: where the masks agree the pass is exact. -/
theorem Inv.passExact {s : Attached} (h : Inv g a s) (hagree : MasksAgree g a s) :
    PassExact g a s := by
  obtain ⟨d, hdrain, hrep, hpopped, hcounter, hslots⟩ :=
    drain_represents (h.twin_queue hagree) s.sim.dev.counter (Nat.lt_succ_self _)
  rw [RingGeometry.default1024_size] at hdrain
  have hpass := processDma_accept s.mem s.sincePass.length.succ h.dataPtr h.latch
  rw [show s.mem a.addr = s.ring a from rfl, hdrain] at hpass
  refine ⟨_, _, hpass, ?_, hpopped, ?_, hcounter⟩
  · simp only [Function.update_self]
    exact hrep.empty_iff.mpr rfl
  · intro slot hslot
    obtain ⟨i, hi, hpos⟩ := hslots slot hslot
    have hlt := h.slot_lt hagree hi
    have hle : g.period ≤ g.size.toNat := by
      rw [g.size_toNat]
      exact Nat.pow_le_pow_right (by decide) (Nat.min_le_left _ _)
    omega

/-- What a drain with the mask 1023 pops is the distance from `tail` to `head`
modulo 1024, and it never meets a `head` beyond 1023. -/
theorem drain_distance : ∀ {fuel : Nat} {ring : PorthRingBuffer} {counter : UInt64} {d : Drain},
    ring.tail.toNat < 1024 → drain 1024 fuel ring counter = some d →
      ring.head.toNat < 1024 ∧
        d.popped.length = (ring.head.toNat + 1024 - ring.tail.toNat) % 1024 := by
  intro fuel
  induction fuel with
  | zero => intro ring counter d _ h; cases h
  | succ fuel ih =>
      intro ring counter d htail h
      rw [drain, dmaRound] at h
      by_cases hempty : ring.head = ring.tail
      · simp only [pop, hempty, if_true, Option.some.injEq] at h
        subst h
        rw [hempty]
        simp only [List.length_nil]
        omega
      · simp only [pop, hempty, if_false, Option.map_eq_some_iff] at h
        obtain ⟨d', hd', rfl⟩ := h
        have hnext := advance_toUInt32_toNat .default1024 ring.tail
        rw [RingGeometry.default1024_size, RingGeometry.default1024_period] at hnext
        obtain ⟨hhead, hlen⟩ := ih (by simp only [hnext]; omega) hd'
        simp only [hnext] at hlen hhead
        have hne : ring.head.toNat ≠ ring.tail.toNat := fun heq =>
          hempty (UInt32.toNat_inj.mp heq)
        refine ⟨hhead, ?_⟩
        rw [List.length_cons, hlen]
        omega

/-- **The condition is necessary**: an exact pass finds the masks agreeing. -/
theorem Inv.masksAgree {s : Attached} (h : Inv g a s) (hexact : PassExact g a s) :
    MasksAgree g a s := by
  obtain ⟨fuel, pass, hpass, -, hpopped, -, -⟩ := hexact
  rw [processDma_accept s.mem _ h.dataPtr h.latch, Option.map_eq_some_iff] at hpass
  obtain ⟨d, hdrain, rfl⟩ := hpass
  obtain ⟨hhead, hlen⟩ := drain_distance h.tail_lt hdrain
  have hcount : d.popped.length = s.sincePass.length := by
    rw [← hpopped, List.length_map]
  by_cases hle : (s.ring a).tail.toNat ≤ (s.ring a).head.toNat
  · exact .inr ⟨hle, hhead⟩
  · refine .inl (g.size_eq_iff_period_eq.mpr ?_)
    have htail := h.tail_lt
    have htlt := h.queue.tail_lt
    have hroom := h.queue.room
    have heq := h.queue.head_eq
    have hwrap : g.period ≤ (s.ring a).tail.toNat + s.sincePass.length := by
      by_contra hlt
      rw [Nat.mod_eq_of_lt (by omega)] at heq
      omega
    rw [Nat.mod_eq_sub_mod hwrap, Nat.mod_eq_of_lt (by omega)] at heq
    change d.popped.length = ((s.ring a).head.toNat + 1024 - (s.ring a).tail.toNat) % 1024 at hlen
    omega

/-- A pass that ends at all, exact or not, leaves the ring empty below 1024. -/
theorem Inv.passed {s : Attached} (h : Inv g a s) {fuel : Nat} {pass : DmaPass}
    (hpass : processDma fuel s.sim s.mem = some pass) : Inv g a (s.passed pass) := by
  rw [processDma_accept s.mem _ h.dataPtr h.latch, Option.map_eq_some_iff] at hpass
  obtain ⟨d, hdrain, rfl⟩ := hpass
  have hring : Function.update s.mem a.addr d.ring a.addr = d.ring := Function.update_self ..
  have htail : d.ring.tail.toNat = (s.ring a).head.toNat :=
    congrArg UInt32.toNat (drain_facts hdrain).1
  refine
    { dataPtr := h.dataPtr
      latch := .inr rfl
      queue := ?_
      tail_lt := ?_ }
  · simp only [Attached.passed, ring, hring, htail]
    exact drain_empties h.queue hdrain
  · simp only [Attached.passed, ring, hring, htail]
    exact (drain_distance h.tail_lt hdrain).1

theorem Inv.step {s t : Attached} {op : AttachedOp} (h : Inv g a s)
    (hstep : Attached.step g a s op t) : Inv g a t := by
  cases op with
  | transmit desc =>
      subst hstep
      exact h.transmitted desc
  | pass =>
      obtain ⟨fuel, pass, hpass, rfl⟩ := hstep
      exact h.passed hpass

theorem reachable_inv {s : Attached} (h : (system g a).Reachable s) : Inv g a s :=
  System.Reachable.invariant (I := Inv g a)
    (fun _ hs => start_inv hs) (fun _ _ _ hs hstep => hs.step hstep) h

/-- **When driver and twin agree.**  In every run, a pass ends, empties the
ring, pops exactly what was accepted since the previous one, stays inside the
ring and counts right, if and only if it finds the masks agreeing. -/
theorem pass_exact_iff_masks_agree (g : RingGeometry) (a : RingAddress) {s : Attached}
    (h : (system g a).Reachable s) : PassExact g a s ↔ MasksAgree g a s := by
  have hinv := reachable_inv h
  exact ⟨hinv.masksAgree, hinv.passExact⟩

/-! ## A ring of two -/

/-- The state after a pass given `fuel`; unchanged if that is not enough. -/
def afterPass (fuel : Nat) (s : Attached) : Attached :=
  s.passed (passWithin fuel s.sim s.mem)

private theorem step_afterPass {fuel : Nat} {s : Attached}
    (h : (processDma fuel s.sim s.mem).isSome) : Attached.step g a s .pass (s.afterPass fuel) :=
  ⟨fuel, _, processDma_within h, rfl⟩

/-- A ring of two slots. -/
def sizeTwo : RingGeometry := ⟨1, by decide, by decide⟩

/-- A driver with two slots on a fresh device. -/
def sizeTwoStart : Attached :=
  constructed .twoMiB .fresh (fun _ => .fresh fun _ => default) none fun _ => default

/-- The same with one descriptor transmitted. -/
def sizeTwoFirst : Attached := sizeTwoStart.transmitted sizeTwo .twoMiB ⟨0x1000, 64⟩

/-- The same after a pass and a second transmission. -/
def sizeTwoSecond : Attached :=
  (sizeTwoFirst.afterPass 2).transmitted sizeTwo .twoMiB ⟨0x2000, 64⟩

theorem sizeTwoFirst_reachable : (system sizeTwo .twoMiB).Reachable sizeTwoFirst := by
  have hstart : (system sizeTwo .twoMiB).Reachable sizeTwoStart :=
    System.Reachable.of_init ⟨_, _, _, _, .inl rfl, rfl⟩
  exact hstart.step (a := .transmit ⟨0x1000, 64⟩) rfl

theorem sizeTwoSecond_reachable : (system sizeTwo .twoMiB).Reachable sizeTwoSecond := by
  have hpass : (system sizeTwo .twoMiB).step sizeTwoFirst .pass (sizeTwoFirst.afterPass 2) :=
    step_afterPass (g := sizeTwo) (a := .twoMiB) (by decide +kernel)
  exact (sizeTwoFirst_reachable.step hpass).step (a := .transmit ⟨0x2000, 64⟩) rfl

/-- The first pass over two slots is exact. -/
theorem pass_exact_size_two_first : PassExact sizeTwo .twoMiB sizeTwoFirst :=
  (pass_exact_iff_masks_agree sizeTwo .twoMiB sizeTwoFirst_reachable).mpr
    (.inr (by decide +kernel))

/-- The second pass is not: `head` has wrapped to 0 and `tail` is 1, so the
device reads on to slot 1023. -/
theorem pass_overruns_size_two :
    (system sizeTwo .twoMiB).Reachable sizeTwoSecond ∧
      ¬ PassExact sizeTwo .twoMiB sizeTwoSecond ∧
      sizeTwoSecond.sincePass.length = 1 ∧
      (processDma 1024 sizeTwoSecond.sim sizeTwoSecond.mem).map (·.popped.length) =
        some 1023 := by
  have hinv : Inv sizeTwo .twoMiB sizeTwoSecond := reachable_inv sizeTwoSecond_reachable
  refine ⟨sizeTwoSecond_reachable, ?_, by decide +kernel, by decide +kernel⟩
  intro hexact
  rcases hinv.masksAgree hexact with hsize | hlin
  · exact absurd hsize (by decide)
  · exact absurd hlin (by decide +kernel)

end Attached

end PorthCore.Ports.TwinGeometry
