import PorthCore.Verified.Transition
import PorthCore.Ports.Driver

/-!
# One device, one session after another

A session is the life of a `Driver<1024>`: its constructor writes the ring's
address to `data_ptr`, it transmits, its destructor writes 0.  Passes run at
any time, inside sessions and between them; chaos and deadlock are off.

The device keeps the first address a pass accepted and from then on drains
nothing else.  `owner` records the session in which that pass ran.  A pass in
a session drains its ring completely if no pass has run before or the session
is at the owner's address, and is turned away with nothing changed otherwise
(`pass_by_owner`).
-/

namespace PorthCore.Ports.Sessions

open PorthCore.Verified.Transition
open PorthCore.Ports.RingBuffer
open PorthCore.Ports.SimDevice
open PorthCore.Ports.Driver

/-- The device and memory, the session under way with the descriptors its ring
queues, and the address of the first session in which a pass ran. -/
structure Bench where
  sim : PorthSimDevice
  mem : Heap
  stats : Option PorthStats
  session : Option RingAddress
  queued : List PorthDescriptor
  owner : Option RingAddress

/-- A driver comes or goes, or uses the twin in between. -/
inductive BenchOp
  | attach (a : RingAddress) (slots : Nat → PorthDescriptor)
  | link (stats : Option PorthStats)
  | transmit (desc : PorthDescriptor)
  | pass
  | detach

namespace Bench

/-- `Driver::Driver` with a ring at `a`. -/
def attached (s : Bench) (a : RingAddress) (slots : Nat → PorthDescriptor) : Bench :=
  { s with
    sim := { s.sim with dev := construct s.sim.dev a.addr .built }
    mem := Function.update s.mem a.addr (.fresh slots)
    stats := none
    session := some a
    queued := [] }

/-- The driver calls `transmit`. -/
def transmitted (s : Bench) (a : RingAddress) (desc : PorthDescriptor) : Bench :=
  let r := transmit 1024 (s.mem a.addr) s.stats desc
  { s with
    mem := Function.update s.mem a.addr r.2.1
    stats := r.2.2
    queued := if r.1 = .success then s.queued ++ [desc] else s.queued }

/-- A pass takes out of the queue what it popped. -/
def passed (s : Bench) (pass : DmaPass) : Bench :=
  { s with
    sim := pass.sim
    mem := pass.mem
    queued := s.queued.drop pass.popped.length
    owner := s.owner.or s.session }

/-- `Driver::~Driver`. -/
def detached (s : Bench) : Bench :=
  { s with
    sim := { s.sim with dev := destruct s.sim.dev }
    session := none
    queued := [] }

/-- Sessions do not overlap. -/
def step (s : Bench) (op : BenchOp) (t : Bench) : Prop :=
  match op with
  | .attach a slots => s.session = none ∧ t = s.attached a slots
  | .link stats => s.session.isSome ∧ t = { s with stats := stats }
  | .transmit desc => ∃ a, s.session = some a ∧ t = s.transmitted a desc
  | .pass => ∃ fuel pass, processDma fuel s.sim s.mem = some pass ∧ t = s.passed pass
  | .detach => s.session.isSome ∧ t = s.detached

/-- A fresh device and no session. -/
structure Start (s : Bench) : Prop where
  sim : s.sim = .fresh
  session : s.session = none
  queued : s.queued = []
  owner : s.owner = none

/-- Drivers one after the other on one twin. -/
def system : System Bench BenchOp := { init := Start, step := step }

/-- A pass started now in the session at `a` ends with that ring empty, having
popped what it queued in order. -/
def Drains (s : Bench) (a : RingAddress) : Prop :=
  ∃ fuel pass, processDma fuel s.sim s.mem = some pass ∧
    (pass.mem a.addr).head = (pass.mem a.addr).tail ∧
    pass.popped.map Prod.snd = s.queued ∧
    pass.sim.dev.counter = s.sim.dev.counter + UInt64.ofNat s.queued.length

/-- A pass started now is turned away: registers, latch and memory stay as
they are. -/
def TurnedAway (s : Bench) : Prop :=
  ∀ fuel, processDma fuel s.sim s.mem =
    some { sim := s.sim, mem := s.mem, target := none, popped := [] }

/-- The session at `a` is at the owner's address, or nobody is the owner
yet. -/
def MayDrain (s : Bench) (a : RingAddress) : Prop :=
  ∀ o, s.owner = some o → o.addr = a.addr

/-! ## The invariant -/

/-- `data_ptr` follows the session, the latch its first owner, and the ring
holds what is queued. -/
structure Inv (s : Bench) : Prop where
  idle : s.session = none → s.sim.dev.dataPtr = 0
  latch : s.sim.lastValidShuttle = (s.owner.map RingAddress.addr).getD 0
  active : ∀ a, s.session = some a →
    s.sim.dev.dataPtr = a.addr ∧ ∃ pos, Represents .default1024 (s.mem a.addr) pos s.queued

variable {s t : Bench}

theorem start_inv (h : Start s) : Inv s where
  idle := fun _ => by rw [h.sim]; rfl
  latch := by rw [h.sim, h.owner]; rfl
  active := fun a hsession => by rw [h.session] at hsession; cases hsession

/-- In a session that may drain, the latch lets the ring through. -/
theorem Inv.latch_or (h : Inv s) {a : RingAddress} (hmay : MayDrain s a) :
    s.sim.lastValidShuttle = 0 ∨ s.sim.lastValidShuttle = a.addr := by
  have hlatch := h.latch
  cases howner : s.owner with
  | none =>
      rw [howner] at hlatch
      exact .inl hlatch
  | some o =>
      rw [howner] at hlatch
      exact .inr (hlatch.trans (hmay o howner))

/-- In a session that may not, the guards turn the pass away. -/
theorem Inv.turnedAway (h : Inv s) {a : RingAddress} (hsession : s.session = some a)
    (hmay : ¬ MayDrain s a) : TurnedAway s := by
  intro fuel
  refine processDma_reject s.mem fuel ?_
  obtain ⟨hptr, -⟩ := h.active a hsession
  have hlatch := h.latch
  rw [Option.eq_none_iff_forall_ne_some]
  intro target htarget
  rw [dmaTarget_eq_some] at htarget
  obtain ⟨-, -, -, hor⟩ := htarget
  refine hmay fun o howner => ?_
  rw [howner] at hlatch
  rcases hor with hzero | hsame
  · exact absurd (hlatch.symm.trans hzero) o.ne_zero
  · exact (hlatch.symm.trans hsame.symm).trans hptr

/-- In a session that may drain, the pass drains. -/
theorem Inv.pass_eq (h : Inv s) {a : RingAddress} (hsession : s.session = some a)
    (hmay : MayDrain s a) (fuel : Nat) :
    processDma fuel s.sim s.mem =
      (drain 1024 fuel (s.mem a.addr) s.sim.dev.counter).map fun d =>
        { sim :=
            { s.sim with
              dev := { s.sim.dev with counter := d.counter }
              lastValidShuttle := a.addr }
          mem := Function.update s.mem a.addr d.ring
          target := some a.addr
          popped := d.popped } :=
  processDma_accept s.mem fuel (h.active a hsession).1 (h.latch_or hmay)

theorem Inv.drains (h : Inv s) {a : RingAddress} (hsession : s.session = some a)
    (hmay : MayDrain s a) : Drains s a := by
  obtain ⟨-, pos, hqueue⟩ := h.active a hsession
  obtain ⟨d, hdrain, hrep, hpopped, hcounter, -⟩ :=
    drain_represents hqueue s.sim.dev.counter (Nat.lt_succ_self _)
  rw [RingGeometry.default1024_size] at hdrain
  have hpass := h.pass_eq hsession hmay s.queued.length.succ
  rw [hdrain] at hpass
  refine ⟨_, _, hpass, ?_, hpopped, hcounter⟩
  simp only [Function.update_self]
  exact hrep.empty_iff.mpr rfl

theorem Inv.attached (h : Inv s) (a : RingAddress) (slots : Nat → PorthDescriptor) :
    Inv (s.attached a slots) where
  idle := fun hsession => by cases hsession
  latch := h.latch
  active := fun b hsession => by
    cases hsession
    refine ⟨rfl, 0, ?_⟩
    simp only [Bench.attached, Function.update_self]
    exact represents_fresh _ slots

theorem Inv.transmitted (h : Inv s) {a : RingAddress} (hsession : s.session = some a)
    (desc : PorthDescriptor) : Inv (s.transmitted a desc) := by
  obtain ⟨hptr, pos, hqueue⟩ := h.active a hsession
  refine
    { idle := fun hnone => absurd (hnone.symm.trans hsession) (Option.some_ne_none a).symm
      latch := h.latch
      active := ?_ }
  intro b hb
  cases Option.some.inj (hsession.symm.trans hb)
  refine ⟨hptr, pos, ?_⟩
  rcases transmit_cases hqueue s.stats desc with ⟨ring', heq, -, hnext⟩ | ⟨heq, -⟩
  · rw [RingGeometry.default1024_size] at heq
    simp only [Bench.transmitted, heq, if_true, Function.update_self]
    exact hnext
  · rw [RingGeometry.default1024_size] at heq
    simp only [Bench.transmitted, heq, reduceCtorEq, if_false, Function.update_self]
    exact hqueue

/-- Between sessions a pass finds 0 and is turned away. -/
theorem Inv.turnedAway_idle (h : Inv s) (hsession : s.session = none) : TurnedAway s := by
  intro fuel
  refine processDma_reject s.mem fuel ?_
  rw [h.idle hsession]
  rfl

/-- A pass that is turned away changes at most the owner, and that only in a
session that may not drain, which has one. -/
theorem Inv.passed_turnedAway (h : Inv s) (howner : s.owner.or s.session = s.owner) :
    Inv (s.passed { sim := s.sim, mem := s.mem, target := none, popped := [] }) where
  idle := h.idle
  latch := by
    simp only [Bench.passed, howner]
    exact h.latch
  active := h.active

/-- A pass that drains makes its session's address the owner's. -/
theorem Inv.passed_drained (h : Inv s) {a : RingAddress} (hsession : s.session = some a)
    (hmay : MayDrain s a) {fuel : Nat} {d : Drain}
    (hdrain : drain 1024 fuel (s.mem a.addr) s.sim.dev.counter = some d) :
    Inv (s.passed
      { sim :=
          { s.sim with
            dev := { s.sim.dev with counter := d.counter }
            lastValidShuttle := a.addr }
        mem := Function.update s.mem a.addr d.ring
        target := some a.addr
        popped := d.popped }) := by
  obtain ⟨hptr, pos, hqueue⟩ := h.active a hsession
  refine
    { idle := fun hnone => absurd (hnone.symm.trans hsession) (Option.some_ne_none a).symm
      latch := ?_
      active := ?_ }
  · simp only [Bench.passed]
    cases howner : s.owner with
    | none => simp [hsession]
    | some o => simp [hmay o howner]
  · intro b hb
    cases Option.some.inj (hsession.symm.trans hb)
    refine ⟨hptr, (s.mem a.addr).head.toNat, ?_⟩
    obtain ⟨d', hdrain', -, hpopped, -⟩ :=
      drain_represents hqueue s.sim.dev.counter (Nat.lt_succ_self _)
    rw [RingGeometry.default1024_size] at hdrain'
    have hsame : d' = d := by
      have hle := drain_mono hdrain (Nat.le_max_left fuel s.queued.length.succ)
      have hle' := drain_mono hdrain' (Nat.le_max_right fuel s.queued.length.succ)
      exact Option.some.inj (hle'.symm.trans hle)
    have hlen : d.popped.length = s.queued.length := by
      rw [← hpopped, List.length_map, hsame]
    simp only [Bench.passed, Function.update_self, hlen, List.drop_length]
    exact drain_empties hqueue hdrain

theorem Inv.passed (h : Inv s) {fuel : Nat} {pass : DmaPass}
    (hpass : processDma fuel s.sim s.mem = some pass) : Inv (s.passed pass) := by
  cases hsession : s.session with
  | none =>
      cases Option.some.inj (hpass.symm.trans (h.turnedAway_idle hsession fuel))
      exact h.passed_turnedAway (by rw [hsession, Option.or_none])
  | some a =>
      by_cases hmay : MayDrain s a
      · rw [h.pass_eq hsession hmay, Option.map_eq_some_iff] at hpass
        obtain ⟨d, hdrain, rfl⟩ := hpass
        exact h.passed_drained hsession hmay hdrain
      · cases Option.some.inj (hpass.symm.trans (h.turnedAway hsession hmay fuel))
        refine h.passed_turnedAway ?_
        cases howner : s.owner with
        | none => exact absurd (fun o ho => by rw [howner] at ho; cases ho) hmay
        | some o => rfl

theorem Inv.step {op : BenchOp} (h : Inv s) (hstep : Bench.step s op t) : Inv t := by
  cases op with
  | attach a slots =>
      obtain ⟨-, rfl⟩ := hstep
      exact h.attached a slots
  | link stats =>
      obtain ⟨-, rfl⟩ := hstep
      exact { h with }
  | transmit desc =>
      obtain ⟨a, hsession, rfl⟩ := hstep
      exact h.transmitted hsession desc
  | pass =>
      obtain ⟨fuel, pass, hpass, rfl⟩ := hstep
      exact h.passed hpass
  | detach =>
      obtain ⟨-, rfl⟩ := hstep
      exact
        { idle := fun _ => rfl
          latch := h.latch
          active := fun a hsession => by cases hsession }

theorem reachable_inv (h : system.Reachable s) : Inv s :=
  System.Reachable.invariant (I := Inv) (fun _ hs => start_inv hs)
    (fun _ _ _ hs hstep => hs.step hstep) h

/-- **What a pass in a session does.**  If no pass ran in an earlier session,
or the first one that did was at this session's address, the pass drains the
session's ring completely; otherwise it changes nothing. -/
theorem pass_by_owner {a : RingAddress} (h : system.Reachable s)
    (hsession : s.session = some a) :
    (MayDrain s a → Drains s a) ∧ (¬ MayDrain s a → TurnedAway s) := by
  have hinv := reachable_inv h
  exact ⟨hinv.drains hsession, hinv.turnedAway hsession⟩

/-! ## The second handshake -/

/-- A fresh twin, without a driver. -/
def sampleStart : Bench where
  sim := .fresh
  mem := fun _ => .fresh fun _ => default
  stats := none
  session := none
  queued := []
  owner := none

/-- The state after a pass given `fuel`; unchanged if that is not enough. -/
def afterPass (fuel : Nat) (s : Bench) : Bench :=
  s.passed (passWithin fuel s.sim s.mem)

theorem Reachable.afterPass (h : system.Reachable s) {fuel : Nat}
    (hends : (processDma fuel s.sim s.mem).isSome) : system.Reachable (s.afterPass fuel) :=
  h.step (a := .pass) ⟨fuel, _, processDma_within hends, rfl⟩

/-- A session at the first address with one descriptor transmitted. -/
def firstSession : Bench :=
  (sampleStart.attached .twoMiB fun _ => default).transmitted .twoMiB ⟨0x1000, 64⟩

private theorem firstSession_reachable : system.Reachable firstSession := by
  have hstart : system.Reachable sampleStart :=
    System.Reachable.of_init { sim := rfl, session := rfl, queued := rfl, owner := rfl }
  have hopen : system.Reachable (sampleStart.attached .twoMiB fun _ => default) :=
    hstart.step (a := BenchOp.attach .twoMiB fun _ => default) ⟨rfl, rfl⟩
  exact hopen.step (a := BenchOp.transmit ⟨0x1000, 64⟩) ⟨.twoMiB, rfl, rfl⟩

/-- The same after a pass, and a session at `a` with one descriptor. -/
def nextSession (a : RingAddress) : Bench :=
  ((firstSession.afterPass 2).detached.attached a fun _ => default).transmitted a ⟨0x2000, 64⟩

theorem nextSession_reachable (a : RingAddress) : system.Reachable (nextSession a) := by
  have hpass : system.Reachable (firstSession.afterPass 2) :=
    Reachable.afterPass firstSession_reachable (by decide +kernel)
  have hsession : (firstSession.afterPass 2).session.isSome := by decide +kernel
  have hclosed : system.Reachable (firstSession.afterPass 2).detached :=
    hpass.step (a := BenchOp.detach) ⟨hsession, rfl⟩
  have hopen : system.Reachable
      ((firstSession.afterPass 2).detached.attached a fun _ => default) :=
    hclosed.step (a := BenchOp.attach a fun _ => default) ⟨rfl, rfl⟩
  exact hopen.step (a := BenchOp.transmit ⟨0x2000, 64⟩) ⟨a, rfl, rfl⟩

theorem nextSession_owner (a : RingAddress) : (nextSession a).owner = some .twoMiB := by
  have howner :
      (firstSession.afterPass 2).owner.map RingAddress.addr = some RingAddress.twoMiB.addr := by
    decide +kernel
  obtain ⟨o, ho, haddr⟩ := Option.map_eq_some_iff.mp howner
  obtain ⟨addr, _, _⟩ := o
  cases haddr
  exact ho

/-- Back at the first address the pass drains. -/
theorem pass_by_owner_same_address : Drains (nextSession .twoMiB) .twoMiB := by
  refine (pass_by_owner (nextSession_reachable .twoMiB) rfl).1 ?_
  intro o howner
  rw [nextSession_owner, Option.some.injEq] at howner
  rw [howner]

/-- At another address it does not. -/
theorem second_session_not_drained :
    system.Reachable (nextSession .fourMiB) ∧
      (nextSession .fourMiB).session = some .fourMiB ∧
      (nextSession .fourMiB).queued = [⟨0x2000, 64⟩] ∧
      ¬ Drains (nextSession .fourMiB) .fourMiB := by
  have hreach := nextSession_reachable .fourMiB
  have hqueued : (nextSession .fourMiB).queued = [⟨0x2000, 64⟩] := by decide +kernel
  refine ⟨hreach, rfl, hqueued, ?_⟩
  rintro ⟨fuel, pass, hpass, -, hpopped, -⟩
  have haway : TurnedAway (nextSession .fourMiB) := by
    refine (reachable_inv hreach).turnedAway rfl ?_
    intro hmay
    exact absurd (hmay .twoMiB (nextSession_owner .fourMiB)) (by decide)
  cases Option.some.inj (hpass.symm.trans (haway fuel))
  rw [hqueued] at hpopped
  cases hpopped

end Bench

end PorthCore.Ports.Sessions
