import PorthCore.Verified.Transition
import PorthCore.Ports.XdpPortal

/-!
# Conservation across driver, portal and twin

One ring of 1024 between two producers, `transmit` and `bridge_to_shuttle`,
and two consumers, `receive` and the rounds of the device's drain loop.  Each
operation is atomic and any order is a run; the kernel may put anything into
the portal's rings at any time.

`Balanced` is the account that every operation keeps: the packets counted are
those the device counted, those received and those still queued; the bytes
counted are those of the accepted descriptors; and what was offered was either
counted or dropped.  All sums are in `uint64_t`, so counters that wrap are
covered.
-/

namespace PorthCore.Ports.Conservation

open PorthCore.Verified.Transition
open PorthCore.Ports.RingBuffer
open PorthCore.Ports.SimDevice
open PorthCore.Ports.Driver
open PorthCore.Ports.XdpPortal

/-! ## The account -/

/-- The bytes of a list of descriptors. -/
def bytes (descs : List PorthDescriptor) : Nat := (descs.map fun desc => desc.len.toNat).sum

@[simp] theorem bytes_concat (descs : List PorthDescriptor) (desc : PorthDescriptor) :
    bytes (descs ++ [desc]) = bytes descs + desc.len.toNat := by
  simp [bytes]

/-- The balance of the counters with `queued` descriptors in the ring. -/
structure Balanced (stats : PorthStats) (counter : UInt64) (received : Nat) (queued : Nat)
    (accepted : List PorthDescriptor) (offered : Nat) : Prop where
  packets : stats.totalPackets = counter + UInt64.ofNat received + UInt64.ofNat queued
  bytes : stats.totalBytes = UInt64.ofNat (bytes accepted)
  offers : stats.totalPackets + stats.droppedPackets = UInt64.ofNat offered

namespace Balanced

variable {stats : PorthStats} {counter : UInt64} {received queued offered : Nat}
  {accepted : List PorthDescriptor}

theorem zero : Balanced .zero 0 0 0 [] 0 where
  packets := rfl
  bytes := rfl
  offers := rfl

theorem accept (h : Balanced stats counter received queued accepted offered)
    (desc : PorthDescriptor) :
    Balanced (stats.accept desc.len) counter received (queued + 1) (accepted ++ [desc])
      (offered + 1) where
  packets := by
    show stats.totalPackets + 1 = _
    rw [h.packets, UInt64.ofNat_add, ← UInt64.add_assoc]
    rfl
  bytes := by
    show stats.totalBytes + desc.len.toUInt64 = _
    rw [h.bytes, bytes_concat, UInt64.ofNat_add]
    exact congrArg _ (UInt64.toNat_inj.mp (by simp))
  offers := by
    show stats.totalPackets + 1 + stats.droppedPackets = _
    rw [UInt64.add_assoc, UInt64.add_comm 1, ← UInt64.add_assoc, h.offers, UInt64.ofNat_add]
    rfl

theorem drop (h : Balanced stats counter received queued accepted offered) :
    Balanced stats.drop counter received queued accepted (offered + 1) where
  packets := h.packets
  bytes := h.bytes
  offers := by
    show stats.totalPackets + (stats.droppedPackets + 1) = _
    rw [← UInt64.add_assoc, h.offers, UInt64.ofNat_add]
    rfl

theorem receive (h : Balanced stats counter received (queued + 1) accepted offered) :
    Balanced stats counter (received + 1) queued accepted offered where
  packets := by
    rw [h.packets, UInt64.ofNat_add, UInt64.ofNat_add]
    ac_rfl
  bytes := h.bytes
  offers := h.offers

theorem drain (h : Balanced stats counter received (queued + 1) accepted offered) :
    Balanced stats (counter + 1) received queued accepted offered where
  packets := by
    calc
      stats.totalPackets
          = counter + UInt64.ofNat received + (UInt64.ofNat queued + 1) := by
            rw [h.packets, UInt64.ofNat_add]
            rfl
      _ = counter + 1 + UInt64.ofNat received + UInt64.ofNat queued := by ac_rfl
  bytes := h.bytes
  offers := h.offers

end Balanced

/-! ## The machine -/

variable {Rx Fill : Type}

/-- The shared state, and what the callers have seen so far: the descriptors
accepted, the successful receptions, the transmissions, and the bridge calls
that found an rx descriptor. -/
structure DataPlane (Rx Fill : Type) where
  sim : PorthSimDevice
  mem : Heap
  stats : Option PorthStats
  portal : PorthXDPPortal Rx Fill
  accepted : List PorthDescriptor
  received : Nat
  transmits : Nat
  bridged : Nat

/-- A call of the driver or of the portal, a round of the device loop, or
anything the kernel does to its rings. -/
inductive DataPlaneOp (Rx Fill : Type)
  | transmit (desc : PorthDescriptor)
  | bridge
  | receive (outDesc : PorthDescriptor)
  | round
  | kernel (rx : Rx) (fill : Fill)

/-- How many descriptors an operation takes from a ring that has any. -/
def DataPlaneOp.pops : DataPlaneOp Rx Fill → Nat
  | .receive _ | .round => 1
  | .transmit _ | .bridge | .kernel _ _ => 0

namespace DataPlane

variable (xsk : Xsk Rx Fill) (a : RingAddress)

/-- The shuttle's ring. -/
def ring (s : DataPlane Rx Fill) : PorthRingBuffer := s.mem a.addr

/-- The driver calls `transmit`. -/
def transmitted (s : DataPlane Rx Fill) (desc : PorthDescriptor) : DataPlane Rx Fill :=
  let r := transmit 1024 (s.ring a) s.stats desc
  { s with
    mem := Function.update s.mem a.addr r.2.1
    stats := r.2.2
    accepted := if r.1 = .success then s.accepted ++ [desc] else s.accepted
    transmits := s.transmits + 1 }

/-- The portal is polled. -/
def afterBridge (s : DataPlane Rx Fill) : DataPlane Rx Fill :=
  let out := bridgeToShuttle xsk 1024 s.portal (s.ring a) s.stats
  { s with
    mem := Function.update s.mem a.addr out.ring
    stats := out.stats
    portal := out.portal
    accepted :=
      match out.branch with
      | .forwarded desc => s.accepted ++ [desc]
      | _ => s.accepted
    bridged := if out.branch = .noPacket then s.bridged else s.bridged + 1 }

/-- The driver calls `receive`. -/
def afterReceive (s : DataPlane Rx Fill) (outDesc : PorthDescriptor) : DataPlane Rx Fill :=
  let r := receive 1024 (s.ring a) outDesc
  { s with
    mem := Function.update s.mem a.addr r.2.2
    received := if r.1 = .success then s.received + 1 else s.received }

/-- One round of the drain loop; a round that pops nothing ends the pass. -/
def afterRound (s : DataPlane Rx Fill) : DataPlane Rx Fill :=
  match dmaRound 1024 (s.ring a) s.sim.dev.counter with
  | some (_, ring', counter') =>
      { s with
        sim := { s.sim with dev := { s.sim.dev with counter := counter' } }
        mem := Function.update s.mem a.addr ring' }
  | none => s

/-- The kernel has moved its ends of the rings. -/
def afterKernel (s : DataPlane Rx Fill) (rx : Rx) (fill : Fill) : DataPlane Rx Fill :=
  { s with portal := { s.portal with rxRing := rx, fillRing := fill } }

/-- One step of the data plane. -/
def apply (s : DataPlane Rx Fill) : DataPlaneOp Rx Fill → DataPlane Rx Fill
  | .transmit desc => s.transmitted a desc
  | .bridge => s.afterBridge xsk a
  | .receive outDesc => s.afterReceive a outDesc
  | .round => s.afterRound a
  | .kernel rx fill => s.afterKernel rx fill

/-- A fresh ring at the address in `data_ptr`, which the device has latched,
with zeroed statistics and `counter`. -/
structure Start (s : DataPlane Rx Fill) : Prop where
  fresh : ∃ slots, s.ring a = .fresh slots
  dataPtr : s.sim.dev.dataPtr = a.addr
  latch : s.sim.lastValidShuttle = a.addr
  counter : s.sim.dev.counter = 0
  stats : s.stats = some .zero
  accepted : s.accepted = []
  received : s.received = 0
  transmits : s.transmits = 0
  bridged : s.bridged = 0

/-- Calls, rounds and arrivals in any order. -/
def system : System (DataPlane Rx Fill) (DataPlaneOp Rx Fill) where
  init := Start a
  step := fun s op t => t = s.apply xsk a op

/-! ## The invariant -/

/-- `pos` descriptors have left the ring and `q` is queued. -/
structure Inv (s : DataPlane Rx Fill) (stats : PorthStats) (pos : Nat)
    (q : List PorthDescriptor) : Prop where
  dataPtr : s.sim.dev.dataPtr = a.addr
  latch : s.sim.lastValidShuttle = a.addr
  linked : s.stats = some stats
  queue : Represents .default1024 (s.ring a) pos q
  balance : Balanced stats s.sim.dev.counter s.received q.length s.accepted
    (s.transmits + s.bridged)

variable {xsk : Xsk Rx Fill} {a : RingAddress} {s : DataPlane Rx Fill} {stats : PorthStats}
  {pos : Nat} {q : List PorthDescriptor}

theorem start_inv (h : Start a s) : Inv a s .zero 0 [] := by
  obtain ⟨slots, hslots⟩ := h.fresh
  refine
    { dataPtr := h.dataPtr
      latch := h.latch
      linked := h.stats
      queue := ?_
      balance := ?_ }
  · rw [hslots]
    exact represents_fresh _ slots
  · rw [h.counter, h.received, h.accepted, h.transmits, h.bridged]
    exact Balanced.zero

/-- The indices tell how many descriptors are queued. -/
theorem Inv.occupancy_eq (h : Inv a s stats pos q) : occupancy (s.ring a) = q.length := by
  have htail := h.queue.tail_eq
  have hhead := h.queue.head_eq
  have hroom := h.queue.room
  rw [RingGeometry.default1024_period] at htail hhead hroom
  rw [occupancy, htail, hhead]
  omega

/-- `t` follows `s`, which queues `q`: it is sound, and unless it accepted
something it queues what is left of `q` after `popped` descriptors. -/
def Follows (a : RingAddress) (s : DataPlane Rx Fill) (q : List PorthDescriptor) (popped : Nat)
    (t : DataPlane Rx Fill) : Prop :=
  ∃ stats pos q', Inv a t stats pos q' ∧
    (t.accepted = s.accepted ∧ q' = q.drop popped ∨ ∃ desc, t.accepted = s.accepted ++ [desc])

theorem Inv.transmitted (h : Inv a s stats pos q) (desc : PorthDescriptor) :
    Follows a s q 0 (s.transmitted a desc) := by
  have hoffered : s.transmits + 1 + s.bridged = s.transmits + s.bridged + 1 := by omega
  rcases transmit_cases h.queue s.stats desc with ⟨ring', heq, -, hnext⟩ | ⟨heq, -⟩
  · rw [RingGeometry.default1024_size] at heq
    refine ⟨stats.accept desc.len, pos, q ++ [desc], ?_, .inr ⟨desc, ?_⟩⟩
    · simp only [DataPlane.transmitted, heq, if_true]
      exact
        { dataPtr := h.dataPtr
          latch := h.latch
          linked := by rw [h.linked]; rfl
          queue := by simpa only [ring, Function.update_self] using hnext
          balance := by
            rw [hoffered, List.length_append]
            exact h.balance.accept desc }
    · simp only [DataPlane.transmitted, heq, if_true]
  · rw [RingGeometry.default1024_size] at heq
    refine ⟨stats.drop, pos, q, ?_, .inl ⟨?_, rfl⟩⟩
    · simp only [DataPlane.transmitted, heq, reduceCtorEq, if_false]
      exact
        { dataPtr := h.dataPtr
          latch := h.latch
          linked := by rw [h.linked]; rfl
          queue := by simpa only [ring, Function.update_self] using h.queue
          balance := by
            rw [hoffered]
            exact h.balance.drop }
    · simp only [DataPlane.transmitted, heq, reduceCtorEq, if_false]

theorem Inv.afterBridge (h : Inv a s stats pos q) :
    Follows a s q 0 (s.afterBridge xsk a) := by
  have hcases := bridge_cases xsk h.queue s.portal s.stats
  rw [RingGeometry.default1024_size] at hcases
  unfold DataPlane.afterBridge
  generalize bridgeToShuttle xsk 1024 s.portal (s.ring a) s.stats = out at hcases ⊢
  rcases hcases with ⟨hbranch, hring, hstats⟩ | ⟨hbranch, hring, hstats⟩ |
    ⟨desc, hbranch, hnext, hstats⟩
  · -- Nothing to forward.
    refine ⟨stats, pos, q, ?_, .inl ⟨by simp only [hbranch], rfl⟩⟩
    simp only [hbranch, if_true]
    exact
      { dataPtr := h.dataPtr
        latch := h.latch
        linked := hstats.trans h.linked
        queue := by simpa only [ring, Function.update_self, hring] using h.queue
        balance := h.balance }
  · -- A packet was found and dropped, for its address or for want of room.
    have hno : out.branch ≠ .noPacket := by
      rcases hbranch with h | h <;> rw [h] <;> exact BridgeBranch.noConfusion
    have haccepted : (match out.branch with
        | .forwarded desc => s.accepted ++ [desc]
        | _ => s.accepted) = s.accepted := by
      rcases hbranch with h | h <;> rw [h]
    refine ⟨stats.drop, pos, q, ?_, .inl ⟨haccepted, rfl⟩⟩
    simp only [haccepted, if_neg hno]
    exact
      { dataPtr := h.dataPtr
        latch := h.latch
        linked := by rw [hstats, h.linked]; rfl
        queue := by simpa only [ring, Function.update_self, hring] using h.queue
        balance := h.balance.drop }
  · -- A packet was forwarded.
    refine ⟨stats.accept desc.len, pos, q ++ [desc], ?_, .inr ⟨desc, by simp only [hbranch]⟩⟩
    simp only [hbranch, reduceCtorEq, if_false]
    exact
      { dataPtr := h.dataPtr
        latch := h.latch
        linked := by rw [hstats, h.linked]; rfl
        queue := by simpa only [ring, Function.update_self] using hnext
        balance := by
          rw [List.length_append]
          exact h.balance.accept desc }

theorem Inv.afterReceive (h : Inv a s stats pos q) (outDesc : PorthDescriptor) :
    Follows a s q 1 (s.afterReceive a outDesc) := by
  cases q with
  | nil =>
      have heq := receive_empty h.queue outDesc
      rw [RingGeometry.default1024_size] at heq
      refine ⟨stats, pos, [], ?_, .inl ⟨rfl, rfl⟩⟩
      simp only [DataPlane.afterReceive, heq, reduceCtorEq, if_false]
      exact
        { dataPtr := h.dataPtr
          latch := h.latch
          linked := h.linked
          queue := by simpa only [ring, Function.update_self] using h.queue
          balance := h.balance }
  | cons desc q =>
      obtain ⟨ring', heq, hnext⟩ := receive_cons h.queue outDesc
      rw [RingGeometry.default1024_size] at heq
      refine ⟨stats, pos + 1, q, ?_, .inl ⟨rfl, rfl⟩⟩
      simp only [DataPlane.afterReceive, heq, if_true]
      exact
        { dataPtr := h.dataPtr
          latch := h.latch
          linked := h.linked
          queue := by simpa only [ring, Function.update_self] using hnext
          balance := h.balance.receive }

theorem Inv.afterRound (h : Inv a s stats pos q) : Follows a s q 1 (s.afterRound a) := by
  cases q with
  | nil =>
      have heq := dmaRound_empty h.queue s.sim.dev.counter
      rw [RingGeometry.default1024_size] at heq
      simp only [DataPlane.afterRound, heq]
      exact ⟨stats, pos, [], h, .inl ⟨rfl, rfl⟩⟩
  | cons desc q =>
      obtain ⟨ring', heq, hnext, -, -⟩ := dmaRound_cons h.queue s.sim.dev.counter
      rw [RingGeometry.default1024_size] at heq
      simp only [DataPlane.afterRound, heq]
      refine ⟨stats, pos + 1, q, ?_, .inl ⟨rfl, rfl⟩⟩
      exact
        { dataPtr := h.dataPtr
          latch := h.latch
          linked := h.linked
          queue := by simpa only [ring, Function.update_self] using hnext
          balance := h.balance.drain }

theorem Inv.afterKernel (h : Inv a s stats pos q) (rx : Rx) (fill : Fill) :
    Follows a s q 0 (s.afterKernel rx fill) :=
  ⟨stats, pos, q,
    { dataPtr := h.dataPtr
      latch := h.latch
      linked := h.linked
      queue := h.queue
      balance := h.balance },
    .inl ⟨rfl, rfl⟩⟩

theorem Inv.apply (xsk : Xsk Rx Fill) (h : Inv a s stats pos q) (op : DataPlaneOp Rx Fill) :
    Follows a s q op.pops (s.apply xsk a op) := by
  cases op with
  | transmit desc => exact h.transmitted desc
  | bridge => exact h.afterBridge
  | receive outDesc => exact h.afterReceive outDesc
  | round => exact h.afterRound
  | kernel rx fill => exact h.afterKernel rx fill

theorem reachable_inv (h : (system xsk a).Reachable s) : ∃ stats pos q, Inv a s stats pos q := by
  refine System.Reachable.invariant (I := fun s => ∃ stats pos q, Inv a s stats pos q)
    (fun _ hs => ⟨_, _, _, start_inv hs⟩) ?_ h
  rintro s op t ⟨stats, pos, q, hs⟩ rfl
  obtain ⟨stats', pos', q', hnext, -⟩ := hs.apply xsk op
  exact ⟨stats', pos', q', hnext⟩

/-! ## Draining -/

private theorem Run.accepted_le {s t : DataPlane Rx Fill} {ops : List (DataPlaneOp Rx Fill)}
    (hrun : (system xsk a).Run s ops t) (h : ∃ stats pos q, Inv a s stats pos q) :
    s.accepted.length ≤ t.accepted.length := by
  induction hrun with
  | nil s => exact Nat.le_refl _
  | @cons s t u op ops hstep _ ih =>
      obtain ⟨stats, pos, q, h⟩ := h
      subst hstep
      obtain ⟨stats', pos', q', hnext, hcase⟩ := h.apply xsk op
      have hle := ih ⟨stats', pos', q', hnext⟩
      rcases hcase with ⟨hsame, -⟩ | ⟨desc, hmore⟩
      · rwa [hsame] at hle
      · rw [hmore, List.length_append] at hle
        exact Nat.le_of_succ_le hle

/-- In a run that accepts nothing, the descriptors queued go down by one with
every round and every reception until none is left. -/
theorem Inv.drains {t : DataPlane Rx Fill} {ops : List (DataPlaneOp Rx Fill)}
    (hrun : (system xsk a).Run s ops t) (h : Inv a s stats pos q)
    (hnone : t.accepted = s.accepted) :
    ∃ stats' pos', Inv a t stats' pos' (q.drop (ops.map DataPlaneOp.pops).sum) := by
  induction hrun generalizing stats pos q with
  | nil s => exact ⟨stats, pos, h⟩
  | @cons s t u op ops hstep hrest ih =>
      subst hstep
      obtain ⟨stats', pos', q', hnext, hcase⟩ := h.apply xsk op
      have hle := Run.accepted_le hrest ⟨stats', pos', q', hnext⟩
      rcases hcase with ⟨hsame, rfl⟩ | ⟨desc, hmore⟩
      · obtain ⟨stats'', pos'', hlast⟩ := ih hnext (hnone.trans hsame.symm)
        refine ⟨stats'', pos'', ?_⟩
        rwa [List.drop_drop] at hlast
      · rw [hnone, hmore, List.length_append] at hle
        exact absurd hle (Nat.not_succ_le_self _)

/-- A whole pass leaves the ring empty. -/
theorem Inv.pass_empties (h : Inv a s stats pos q) :
    ∃ fuel pass, processDma fuel s.sim s.mem = some pass ∧
      occupancy (pass.mem a.addr) = 0 := by
  obtain ⟨d, hdrain, hrep, -, -, -⟩ :=
    drain_represents h.queue s.sim.dev.counter (Nat.lt_succ_self _)
  rw [RingGeometry.default1024_size] at hdrain
  have hpass := processDma_accept s.mem q.length.succ h.dataPtr (.inr h.latch)
  rw [show s.mem a.addr = s.ring a from rfl, hdrain] at hpass
  refine ⟨_, _, hpass, ?_⟩
  have htail := hrep.tail_lt
  rw [RingGeometry.default1024_period] at htail
  simp only [Function.update_self, occupancy, hrep.empty_iff.mpr rfl]
  omega

/-- **Conservation.**  After every operation of every run the packets counted
are those the device counted plus those received plus those queued, the bytes
counted are those of the accepted descriptors, and every offer was counted or
dropped.  A pass nobody pushes into stops with the ring empty, whether it runs
alone or its rounds alternate with receptions. -/
theorem conservation (xsk : Xsk Rx Fill) (a : RingAddress) {s : DataPlane Rx Fill}
    (h : (system xsk a).Reachable s) :
    (∃ stats, s.stats = some stats ∧
      stats.totalPackets = s.sim.dev.counter + UInt64.ofNat s.received +
        UInt64.ofNat (occupancy (s.ring a)) ∧
      stats.totalBytes = UInt64.ofNat (bytes s.accepted) ∧
      stats.totalPackets + stats.droppedPackets = UInt64.ofNat (s.transmits + s.bridged)) ∧
    (∃ fuel pass, processDma fuel s.sim s.mem = some pass ∧
      occupancy (pass.mem a.addr) = 0) ∧
    ∀ ops t, (system xsk a).Run s ops t → t.accepted = s.accepted →
      occupancy (t.ring a) = occupancy (s.ring a) - (ops.map DataPlaneOp.pops).sum := by
  obtain ⟨stats, pos, q, hinv⟩ := reachable_inv h
  refine ⟨⟨stats, hinv.linked, ?_, hinv.balance.bytes, hinv.balance.offers⟩,
    hinv.pass_empties, ?_⟩
  · rw [hinv.occupancy_eq]
    exact hinv.balance.packets
  · intro ops t hrun hnone
    obtain ⟨stats', pos', hlast⟩ := hinv.drains hrun hnone
    rw [hlast.occupancy_eq, hinv.occupancy_eq, List.length_drop]

/-! ## A short run -/

/-- A fresh ring at 2 MiB and a portal over the 4 MiB behind it. -/
def sampleStart : DataPlane XskRingCons XskRingProd where
  sim :=
    { PorthSimDevice.fresh with
      dev := { PorthSimDevice.fresh.dev with dataPtr := 0x200000 }
      lastValidShuttle := 0x200000 }
  mem := fun _ => .fresh fun _ => default
  stats := some .zero
  portal :=
    { rxRing := { entries := fun _ => ⟨0, 0⟩, cachedCons := 0, producer := 0, consumer := 0 }
      fillRing := { entries := fun _ => 0, cachedProd := 0, producer := 0, consumer := 0 }
      umemStart := 0x400000
      umemEnd := 0x800000 }
  accepted := []
  received := 0
  transmits := 0
  bridged := 0

/-- One descriptor from each producer, and one to each consumer. -/
def sampleOps : List (DataPlaneOp XskRingCons XskRingProd) :=
  [ .transmit ⟨0x500000, 64⟩
  , .kernel
      { entries := fun _ => ⟨0x600000, 60⟩, cachedCons := 0, producer := 1, consumer := 0 }
      sampleStart.portal.fillRing
  , .bridge
  , .round
  , .receive default ]

/-- The state the sample operations end in. -/
def sampleRun : DataPlane XskRingCons XskRingProd :=
  sampleOps.foldl (fun s op => s.apply xskDefault .twoMiB op) sampleStart

private theorem sampleRun_reachable : (system xskDefault .twoMiB).Reachable sampleRun := by
  refine (System.Reachable.of_init ?_).run (System.Run.foldl (fun _ _ _ => rfl) _)
  exact
    { fresh := ⟨_, rfl⟩
      dataPtr := rfl
      latch := rfl
      counter := rfl
      stats := rfl
      accepted := rfl
      received := rfl
      transmits := rfl
      bridged := rfl }

theorem conservation_short_run :
    sampleRun.received = 1 ∧ sampleRun.sim.dev.counter = 1 ∧ bytes sampleRun.accepted = 124 ∧
      ∃ stats, sampleRun.stats = some stats ∧
        stats.totalPackets = sampleRun.sim.dev.counter + UInt64.ofNat sampleRun.received +
          UInt64.ofNat (occupancy (sampleRun.ring .twoMiB)) := by
  obtain ⟨⟨stats, hlinked, hpackets, -⟩, -⟩ :=
    conservation xskDefault .twoMiB sampleRun_reachable
  exact ⟨by decide +kernel, by decide +kernel, by decide +kernel, stats, hlinked, hpackets⟩

end DataPlane

end PorthCore.Ports.Conservation
