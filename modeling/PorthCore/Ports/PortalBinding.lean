import PorthCore.Ports.XdpPortal

/-!
# Where the bridge sends a valid packet

`bind_shuttle_memory` keeps the bounds of the shuttle as absolute addresses.
libxdp speaks of frames by their offset from the start of the registered
area, and `xsk_umem__add_offset_to_addr` still answers with an offset.
`bridge_to_shuttle` compares that offset with the absolute bounds and hands it
on as the address, without adding the base.  The two agree for a base of 0
only (`forwards_in_place_iff`).

What is pushed lies inside the recorded bounds all the same
(`pushed_in_bounds`): the sum in `is_addr_valid` is taken in `uint64_t`, but
an offset libxdp decodes is too small to make it wrap.
-/

namespace PorthCore.Ports.PortalBinding

open PorthCore.Ports.RingBuffer
open PorthCore.Ports.Driver
open PorthCore.Ports.XdpPortal

variable {Rx Fill : Type}

/-- `bind_shuttle_memory`, once the UMEM is registered. -/
def bindShuttleMemory (portal : PorthXDPPortal Rx Fill) (base size : UInt64) :
    PorthXDPPortal Rx Fill :=
  { portal with umemStart := base, umemEnd := base + size }

variable {xsk : Xsk Rx Fill} {portal : PorthXDPPortal Rx Fill} {stats : PorthStats}
  {g : RingGeometry} {ring : PorthRingBuffer} {pos : Nat} {q : List PorthDescriptor}
  {rx : Rx} {idx : UInt32} {base size : UInt64}

/-- The call pushes `desc` and counts it. -/
structure Pushes (g : RingGeometry) (pos : Nat) (q : List PorthDescriptor) (stats : PorthStats)
    (desc : PorthDescriptor) (out : Bridge Rx Fill) : Prop where
  branch : out.branch = .forwarded desc
  queue : Represents g out.ring pos (q ++ [desc])
  counted : out.stats = some (stats.accept desc.len)

/-- At base 0 an offset is an address, and every packet inside the area is
valid. -/
theorem accepts_of_base_zero {desc : XdpDesc}
    (hfits : (xsk.addOffsetToAddr desc.addr).toNat + desc.len.toNat ≤ size.toNat) :
    (bindShuttleMemory portal 0 size).accepts xsk desc = true := by
  have hsize := size.toNat_lt
  have hsum : (xsk.addOffsetToAddr desc.addr + desc.len.toUInt64).toNat =
      (xsk.addOffsetToAddr desc.addr).toNat + desc.len.toNat := by
    rw [UInt64.toNat_add, UInt32.toNat_toUInt64, Nat.mod_eq_of_lt (by omega)]
  simp only [PorthXDPPortal.accepts, PorthXDPPortal.isAddrValid, bindShuttleMemory,
    UInt64.zero_add, Bool.and_eq_true, decide_eq_true_eq, UInt64.le_iff_toNat_le, hsum]
  exact ⟨Nat.zero_le _, hfits⟩

/-- Whatever the ring is like, a forwarded descriptor was checked and pushed. -/
theorem forwarded_checked {size : UInt64} {stats : Option PorthStats} {desc : PorthDescriptor}
    (hforwarded : (bridgeToShuttle xsk size portal ring stats).branch = .forwarded desc) :
    portal.isAddrValid desc.addr desc.len = true ∧
      (∃ idx rx, xsk.peek portal.rxRing = (some idx, rx) ∧
        desc = handOver xsk (xsk.rxDesc rx idx)) ∧
      push size ring desc = (true, (bridgeToShuttle xsk size portal ring stats).ring) := by
  rcases hpeek : xsk.peek portal.rxRing with ⟨_ | idx, rx⟩
  · rw [bridge_noPacket size hpeek] at hforwarded
    cases hforwarded
  · cases hvalid : portal.accepts xsk (xsk.rxDesc rx idx) with
    | false =>
        rw [bridge_invalid size hpeek hvalid] at hforwarded
        cases hforwarded
    | true =>
        rcases hpush : push size ring (handOver xsk (xsk.rxDesc rx idx)) with ⟨_ | _, ring'⟩
        · rw [bridge_push_false stats hpeek hvalid hpush] at hforwarded
          cases hforwarded
        · rw [bridge_push_true stats hpeek hvalid hpush] at hforwarded ⊢
          cases hforwarded
          exact ⟨hvalid, ⟨idx, rx, rfl, rfl⟩, hpush⟩

/-- What is pushed is the offset, whatever the base. -/
theorem pushed_eq_handOver (hpeek : xsk.peek portal.rxRing = (some idx, rx))
    {desc : PorthDescriptor}
    (hpush : (bridgeToShuttle xsk g.size (bindShuttleMemory portal base size) ring
      (some stats)).branch = .forwarded desc) :
    desc = handOver xsk (xsk.rxDesc rx idx) := by
  obtain ⟨-, ⟨idx', rx', hpeek', rfl⟩, -⟩ := forwarded_checked hpush
  have hsame : (some idx', rx') = (some idx, rx) := hpeek'.symm.trans hpeek
  cases hsame
  rfl

/-- **The bridge forwards to the real location only from base 0.**  For a
shuttle bound at `base` with `size` bytes and room in its ring, and an rx
descriptor whose offset and length fit the area, the call pushes the
descriptor at `base` plus the offset and counts it if and only if `base` is
0. -/
theorem forwards_in_place_iff (h : Represents g ring pos q) (hroom : q.length + 1 < g.period)
    (hpeek : xsk.peek portal.rxRing = (some idx, rx))
    (hfits : (xsk.addOffsetToAddr (xsk.rxDesc rx idx).addr).toNat +
      (xsk.rxDesc rx idx).len.toNat ≤ size.toNat) :
    Pushes g pos q stats
        { addr := base + xsk.addOffsetToAddr (xsk.rxDesc rx idx).addr
          len := (xsk.rxDesc rx idx).len }
        (bridgeToShuttle xsk g.size (bindShuttleMemory portal base size) ring (some stats)) ↔
      base = 0 := by
  constructor
  · intro hpushes
    have hsame := congrArg PorthDescriptor.addr (pushed_eq_handOver hpeek hpushes.branch)
    simp only [handOver] at hsame
    have hcancel := congrArg (· - xsk.addOffsetToAddr (xsk.rxDesc rx idx).addr) hsame
    simpa using hcancel
  · intro hzero
    subst hzero
    have hpeek' : xsk.peek (bindShuttleMemory portal 0 size).rxRing = (some idx, rx) := hpeek
    obtain ⟨ring', hnext, heq⟩ :=
      bridge_forwarded (some stats) hpeek' (accepts_of_base_zero hfits) h hroom
    rw [heq, UInt64.zero_add]
    exact ⟨rfl, hnext, rfl⟩

/-! ## The bounds of what is pushed -/

/-- `xsk_umem__add_offset_to_addr` adds the upper 16 bits of an address to the
lower 48. -/
def AddsOffset (xsk : Xsk Rx Fill) : Prop :=
  ∀ addr, (xsk.addOffsetToAddr addr).toNat = addr.toNat % 2 ^ 48 + addr.toNat / 2 ^ 48

private theorem xskDefault_addsOffset : AddsOffset xskDefault := by
  intro addr
  have hlt := addr.toNat_lt
  have hlow : (addr &&& 0xFFFFFFFFFFFF).toNat = addr.toNat % 2 ^ 48 := by
    rw [UInt64.toNat_and]
    exact Nat.and_two_pow_sub_one_eq_mod addr.toNat 48
  have hhigh : (addr >>> (48 : UInt64)).toNat = addr.toNat / 2 ^ 48 := by
    rw [UInt64.toNat_shiftRight]
    exact Nat.shiftRight_eq_div_pow addr.toNat 48
  show ((addr &&& 0xFFFFFFFFFFFF) + (addr >>> (48 : UInt64))).toNat = _
  rw [UInt64.toNat_add, hlow, hhigh, Nat.mod_eq_of_lt (by omega)]

/-- `is_addr_valid` means what it says for every address libxdp decodes. -/
theorem isAddrValid_handOver_iff (hadds : AddsOffset xsk) (frame : XdpDesc) :
    portal.isAddrValid (handOver xsk frame).addr (handOver xsk frame).len = true ↔
      portal.umemStart.toNat ≤ (handOver xsk frame).addr.toNat ∧
        (handOver xsk frame).addr.toNat + (handOver xsk frame).len.toNat ≤
          portal.umemEnd.toNat := by
  have haddr : (handOver xsk frame).addr.toNat = _ := hadds frame.addr
  have hlt := frame.addr.toNat_lt
  have hlen := (handOver xsk frame).len.toNat_lt
  -- Below 2^48 + 2^16 + 2^32, the sum does not wrap.
  have hsum : ((handOver xsk frame).addr + (handOver xsk frame).len.toUInt64).toNat =
      (handOver xsk frame).addr.toNat + (handOver xsk frame).len.toNat := by
    rw [UInt64.toNat_add, UInt32.toNat_toUInt64, Nat.mod_eq_of_lt (by omega)]
  simp only [PorthXDPPortal.isAddrValid, Bool.and_eq_true, decide_eq_true_eq,
    UInt64.le_iff_toNat_le, hsum]

/-- A call forwards a descriptor, or leaves the ring as it is. -/
theorem forwarded_or_ring_eq {cap : UInt64} {stats : Option PorthStats} :
    (∃ desc, (bridgeToShuttle xsk cap portal ring stats).branch = .forwarded desc) ∨
      (bridgeToShuttle xsk cap portal ring stats).ring = ring := by
  rcases hpeek : xsk.peek portal.rxRing with ⟨_ | idx, rx⟩
  · rw [bridge_noPacket cap hpeek]
    exact .inr rfl
  · cases hvalid : portal.accepts xsk (xsk.rxDesc rx idx) with
    | false =>
        rw [bridge_invalid cap hpeek hvalid]
        exact .inr rfl
    | true =>
        rcases hpush : push cap ring (handOver xsk (xsk.rxDesc rx idx)) with ⟨_ | _, ring'⟩
        · have hkept := push_false (congrArg Prod.fst hpush)
          rw [hpush] at hkept
          rw [bridge_push_false stats hpeek hvalid hpush]
          exact .inr hkept
        · rw [bridge_push_true stats hpeek hvalid hpush]
          exact .inl ⟨_, rfl⟩

/-- A forwarded descriptor was pushed and lies inside the recorded memory. -/
theorem forwarded_in_bounds (hadds : AddsOffset xsk)
    (hend : base.toNat + size.toNat < 2 ^ 64) {cap : UInt64} {stats : Option PorthStats}
    {desc : PorthDescriptor}
    (hforwarded : (bridgeToShuttle xsk cap (bindShuttleMemory portal base size) ring stats).branch =
      .forwarded desc) :
    push cap ring desc =
        (true, (bridgeToShuttle xsk cap (bindShuttleMemory portal base size) ring stats).ring) ∧
      base.toNat ≤ desc.addr.toNat ∧
      desc.addr.toNat + desc.len.toNat ≤ base.toNat + size.toNat := by
  obtain ⟨hvalid, ⟨idx, rx, -, rfl⟩, hpush⟩ := forwarded_checked hforwarded
  obtain ⟨hstart, hstop⟩ := (isAddrValid_handOver_iff hadds (xsk.rxDesc rx idx)).mp hvalid
  have hbound : (base + size).toNat = base.toNat + size.toNat := by
    rw [UInt64.toNat_add, Nat.mod_eq_of_lt hend]
  exact ⟨hpush, hstart, hbound ▸ hstop⟩

/-- **No out-of-range descriptor escapes the bridge.**  Whatever the rx ring,
the shuttle and the recorded memory are, a call leaves the ring as it is, or
as it is after the push of a descriptor that lies inside that memory, its
length included; and such is every descriptor it forwards. -/
theorem pushed_in_bounds (hadds : AddsOffset xsk) (portal : PorthXDPPortal Rx Fill)
    {base size : UInt64} (hend : base.toNat + size.toNat < 2 ^ 64) (cap : UInt64)
    (ring : PorthRingBuffer) (stats : Option PorthStats) :
    let out := bridgeToShuttle xsk cap (bindShuttleMemory portal base size) ring stats
    (out.ring = ring ∨ ∃ desc, push cap ring desc = (true, out.ring) ∧
        base.toNat ≤ desc.addr.toNat ∧
        desc.addr.toNat + desc.len.toNat ≤ base.toNat + size.toNat) ∧
      ∀ desc, out.branch = .forwarded desc →
        push cap ring desc = (true, out.ring) ∧ base.toNat ≤ desc.addr.toNat ∧
          desc.addr.toNat + desc.len.toNat ≤ base.toNat + size.toNat := by
  intro out
  have hforwarded : ∀ desc, out.branch = .forwarded desc →
      push cap ring desc = (true, out.ring) ∧ base.toNat ≤ desc.addr.toNat ∧
        desc.addr.toNat + desc.len.toNat ≤ base.toNat + size.toNat :=
    fun _ hbranch => forwarded_in_bounds hadds hend hbranch
  refine ⟨?_, hforwarded⟩
  have hcases : (∃ desc, out.branch = .forwarded desc) ∨ out.ring = ring := forwarded_or_ring_eq
  rcases hcases with ⟨desc, hbranch⟩ | hsame
  · exact .inr ⟨desc, hforwarded desc hbranch⟩
  · exact .inl hsame

/-! ## One packet at two bases -/

/-- An rx ring in which a packet of 64 bytes at offset 0x1000 is pending. -/
def sampleRx : XskRingCons where
  entries := fun _ => { addr := 0x1000, len := 64 }
  cachedCons := 0
  producer := 1
  consumer := 0

/-- A portal that is bound to nothing, with a packet to read. -/
def samplePortal : PorthXDPPortal XskRingCons XskRingProd where
  rxRing := sampleRx
  fillRing := { entries := fun _ => 0, cachedProd := 0, producer := 0, consumer := 0 }
  umemStart := 0
  umemEnd := 0

/-- An empty ring. -/
def sampleRing : PorthRingBuffer := .fresh fun _ => default

/-- The packet goes into the ring; bound 0x1000 further up, it does not. -/
theorem pushed_in_bounds_sample :
    (∃ desc : PorthDescriptor, push RingGeometry.default1024.size sampleRing desc =
        (true, (bridgeToShuttle xskDefault RingGeometry.default1024.size
          (bindShuttleMemory samplePortal 0x800 0x2000) sampleRing none).ring) ∧
      (0x800 : UInt64).toNat ≤ desc.addr.toNat ∧
      desc.addr.toNat + desc.len.toNat ≤ (0x800 : UInt64).toNat + (0x2000 : UInt64).toNat) ∧
    (bridgeToShuttle xskDefault RingGeometry.default1024.size
      (bindShuttleMemory samplePortal 0x1800 0x2000) sampleRing none).ring.head = 0 := by
  have hend : (0x800 : UInt64).toNat + (0x2000 : UInt64).toNat < 2 ^ 64 := by decide
  have hmain := pushed_in_bounds xskDefault_addsOffset samplePortal hend
    RingGeometry.default1024.size sampleRing none
  refine ⟨hmain.1.resolve_left ?_, by decide⟩
  intro hsame
  exact absurd (congrArg PorthRingBuffer.head hsame) (by decide)

theorem forwards_in_place_base_zero :
    (bridgeToShuttle xskDefault RingGeometry.default1024.size
      (bindShuttleMemory samplePortal 0 0x200000) sampleRing (some .zero)).branch =
        .forwarded { addr := 0 + 0x1000, len := 64 } := by
  have hpeek : xskDefault.peek samplePortal.rxRing =
      (some 0, { sampleRx with cachedCons := 1 }) := rfl
  have hmain : Pushes RingGeometry.default1024 0 [] .zero { addr := 0 + 0x1000, len := 64 }
      (bridgeToShuttle xskDefault RingGeometry.default1024.size
        (bindShuttleMemory samplePortal 0 0x200000) sampleRing (some .zero)) ↔ (0 : UInt64) = 0 :=
    forwards_in_place_iff (represents_fresh _ _) (by decide) hpeek (by decide)
  exact (hmain.mpr rfl).branch

/-- With the shuttle mapped at 0x7f0000000000 the packet is dropped. -/
theorem valid_packet_dropped :
    (bridgeToShuttle xskDefault RingGeometry.default1024.size
        (bindShuttleMemory samplePortal 0x7f0000000000 0x200000) sampleRing
        (some .zero)).branch = .invalid ∧
      (bridgeToShuttle xskDefault RingGeometry.default1024.size
        (bindShuttleMemory samplePortal 0x7f0000000000 0x200000) sampleRing
        (some .zero)).stats = some PorthStats.zero.drop ∧
      (xskDefault.addOffsetToAddr 0x1000).toNat + 64 ≤ (0x200000 : UInt64).toNat := by
  decide

end PorthCore.Ports.PortalBinding
