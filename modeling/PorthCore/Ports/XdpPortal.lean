import PorthCore.Ports.Driver

/-!
# `PorthXDPPortal`: from the NIC to the shuttle

libxdp is not part of the repository.  Its ring functions are the fields of
`Xsk`, over abstract states of the rx ring and of the fill ring; what a result
needs to know about them it assumes by name.

`bridgeToShuttle` reads the descriptor through the same pointer the source
keeps: after `release` the address is read again from the ring as it is then.
The wakeup call on an empty rx ring has no effect on the portal and is left
out, like the sockets and handles that only `open_portal` touches.
-/

namespace PorthCore.Ports.XdpPortal

open PorthCore.Ports.RingBuffer
open PorthCore.Ports.Driver

/-- `struct xdp_desc`, without its options. -/
structure XdpDesc where
  addr : UInt64
  len : UInt32
  deriving DecidableEq, Repr

/-- The libxdp calls the portal makes, one entry at a time. -/
structure Xsk (Rx Fill : Type) where
  /-- `xsk_ring_cons__peek`: the index of the entry, if there is one. -/
  peek : Rx → Option UInt32 × Rx
  /-- `xsk_ring_cons__rx_desc`, dereferenced. -/
  rxDesc : Rx → UInt32 → XdpDesc
  /-- `xsk_ring_cons__release`. -/
  release : Rx → Rx
  /-- `xsk_ring_prod__reserve`: the index of the slot, if one is free. -/
  reserve : Fill → Option UInt32 × Fill
  /-- The store through `xsk_ring_prod__fill_addr`. -/
  setFillAddr : Fill → UInt32 → UInt64 → Fill
  /-- `xsk_ring_prod__submit`. -/
  submit : Fill → Fill
  /-- `xsk_umem__add_offset_to_addr`. -/
  addOffsetToAddr : UInt64 → UInt64

/-! ### The rings as libxdp keeps them

Both have 2048 entries and free-running indices; `cached` is the user side's
own view. -/

/-- An rx ring: the kernel moves `producer`, `release` moves `consumer`. -/
structure XskRingCons where
  entries : UInt32 → XdpDesc
  cachedCons : UInt32
  producer : UInt32
  consumer : UInt32

/-- A fill ring: `submit` moves `producer`, the kernel moves `consumer`. -/
structure XskRingProd where
  entries : UInt32 → UInt64
  cachedProd : UInt32
  producer : UInt32
  consumer : UInt32

/-- The default rings, masked with 2047.  An address in the upper 16 bits of
an unaligned chunk is an offset. -/
def xskDefault : Xsk XskRingCons XskRingProd where
  peek rx :=
    if rx.cachedCons = rx.producer then (none, rx)
    else (some rx.cachedCons, { rx with cachedCons := rx.cachedCons + 1 })
  rxDesc rx idx := rx.entries (idx &&& 2047)
  release rx := { rx with consumer := rx.consumer + 1 }
  reserve fill :=
    if fill.cachedProd - fill.consumer < 2048 then
      (some fill.cachedProd, { fill with cachedProd := fill.cachedProd + 1 })
    else (none, fill)
  setFillAddr fill idx addr :=
    { fill with entries := Function.update fill.entries (idx &&& 2047) addr }
  submit fill := { fill with producer := fill.producer + 1 }
  addOffsetToAddr addr := (addr &&& (0xFFFFFFFFFFFF : UInt64)) + (addr >>> (48 : UInt64))

/-- The portal: its two rings and the bounds of the bound memory. -/
structure PorthXDPPortal (Rx Fill : Type) where
  rxRing : Rx
  fillRing : Fill
  umemStart : UInt64
  umemEnd : UInt64

variable {Rx Fill : Type}

namespace PorthXDPPortal

/-- `recycle_frame`. -/
def recycleFrame (xsk : Xsk Rx Fill) (portal : PorthXDPPortal Rx Fill) (addr : UInt64) :
    PorthXDPPortal Rx Fill :=
  match xsk.reserve portal.fillRing with
  | (some idxFill, fill) =>
      { portal with fillRing := xsk.submit (xsk.setFillAddr fill idxFill addr) }
  | (none, fill) => { portal with fillRing := fill }

/-- `xsk_ring_cons__release` on the portal's own ring. -/
def releaseRx (xsk : Xsk Rx Fill) (portal : PorthXDPPortal Rx Fill) :
    PorthXDPPortal Rx Fill :=
  { portal with rxRing := xsk.release portal.rxRing }

/-- `is_addr_valid`; the sum wraps in `uint64_t`. -/
def isAddrValid (portal : PorthXDPPortal Rx Fill) (addr : UInt64) (len : UInt32) : Bool :=
  decide (portal.umemStart ≤ addr) && decide (addr + len.toUInt64 ≤ portal.umemEnd)

end PorthXDPPortal

/-- The branch a call of `bridge_to_shuttle` takes. -/
inductive BridgeBranch
  | noPacket
  | invalid
  | forwarded (desc : PorthDescriptor)
  | refused
  deriving DecidableEq, Repr

/-- What a call leaves.  The source returns nothing; `branch` only names the
way it went. -/
structure Bridge (Rx Fill : Type) where
  branch : BridgeBranch
  portal : PorthXDPPortal Rx Fill
  ring : PorthRingBuffer
  stats : Option PorthStats

/-- `PorthXDPPortal::bridge_to_shuttle`. -/
def bridgeToShuttle (xsk : Xsk Rx Fill) (size : UInt64) (portal : PorthXDPPortal Rx Fill)
    (ring : PorthRingBuffer) (stats : Option PorthStats) : Bridge Rx Fill :=
  match xsk.peek portal.rxRing with
  | (none, rx) =>
      { branch := .noPacket, portal := { portal with rxRing := rx }, ring := ring, stats := stats }
  | (some idxRx, rx) =>
      let portal := { portal with rxRing := rx }
      let desc := xsk.rxDesc rx idxRx
      let packetAddr := xsk.addOffsetToAddr desc.addr
      let packetLen := desc.len
      if portal.isAddrValid packetAddr packetLen = false then
        { branch := .invalid
          portal := (portal.recycleFrame xsk desc.addr).releaseRx xsk
          ring := ring
          stats := stats.map (·.drop) }
      else
        match push size ring { addr := packetAddr, len := packetLen } with
        | (true, ring') =>
            let portal := portal.releaseRx xsk
            -- `desc->addr` is read from the ring after the entry went back.
            { branch := .forwarded { addr := packetAddr, len := packetLen }
              portal := portal.recycleFrame xsk (xsk.rxDesc portal.rxRing idxRx).addr
              ring := ring'
              stats := stats.map (·.accept packetLen) }
        | (false, ring') =>
            -- Neither released nor recycled.
            { branch := .refused, portal := portal, ring := ring', stats := stats.map (·.drop) }

/-! ## The four ways through a call -/

/-- The descriptor a valid packet becomes. -/
def handOver (xsk : Xsk Rx Fill) (desc : XdpDesc) : PorthDescriptor :=
  { addr := xsk.addOffsetToAddr desc.addr, len := desc.len }

/-- The portal accepts the packet. -/
def PorthXDPPortal.accepts (xsk : Xsk Rx Fill) (portal : PorthXDPPortal Rx Fill)
    (desc : XdpDesc) : Bool :=
  portal.isAddrValid (xsk.addOffsetToAddr desc.addr) desc.len

variable {xsk : Xsk Rx Fill} {portal : PorthXDPPortal Rx Fill} {stats : Option PorthStats}
  {g : RingGeometry} {ring : PorthRingBuffer} {pos : Nat} {q : List PorthDescriptor}
  {rx : Rx} {idx : UInt32}

theorem bridge_noPacket (size : UInt64) (hpeek : xsk.peek portal.rxRing = (none, rx)) :
    bridgeToShuttle xsk size portal ring stats =
      { branch := .noPacket
        portal := { portal with rxRing := rx }
        ring := ring
        stats := stats } := by
  rw [bridgeToShuttle, hpeek]

theorem bridge_invalid (size : UInt64) (hpeek : xsk.peek portal.rxRing = (some idx, rx))
    (hvalid : portal.accepts xsk (xsk.rxDesc rx idx) = false) :
    bridgeToShuttle xsk size portal ring stats =
      { branch := .invalid
        portal := ({ portal with rxRing := rx }.recycleFrame xsk (xsk.rxDesc rx idx).addr).releaseRx
          xsk
        ring := ring
        stats := stats.map (·.drop) } := by
  rw [bridgeToShuttle, hpeek]
  exact if_pos hvalid

/-- A valid packet the shuttle takes, whatever state its ring is in. -/
theorem bridge_push_true {size : UInt64} {ring' : PorthRingBuffer}
    (stats : Option PorthStats) (hpeek : xsk.peek portal.rxRing = (some idx, rx))
    (hvalid : portal.accepts xsk (xsk.rxDesc rx idx) = true)
    (hpush : push size ring (handOver xsk (xsk.rxDesc rx idx)) = (true, ring')) :
    bridgeToShuttle xsk size portal ring stats =
      { branch := .forwarded (handOver xsk (xsk.rxDesc rx idx))
        portal := ({ portal with rxRing := rx }.releaseRx xsk).recycleFrame xsk
          (xsk.rxDesc (xsk.release rx) idx).addr
        ring := ring'
        stats := stats.map (·.accept (xsk.rxDesc rx idx).len) } := by
  have hnot : ¬portal.accepts xsk (xsk.rxDesc rx idx) = false := by simp [hvalid]
  simp only [handOver] at hpush ⊢
  rw [bridgeToShuttle, hpeek]
  dsimp only
  rw [hpush]
  exact if_neg hnot

/-- A valid packet the shuttle does not take. -/
theorem bridge_push_false {size : UInt64} {ring' : PorthRingBuffer}
    (stats : Option PorthStats) (hpeek : xsk.peek portal.rxRing = (some idx, rx))
    (hvalid : portal.accepts xsk (xsk.rxDesc rx idx) = true)
    (hpush : push size ring (handOver xsk (xsk.rxDesc rx idx)) = (false, ring')) :
    bridgeToShuttle xsk size portal ring stats =
      { branch := .refused
        portal := { portal with rxRing := rx }
        ring := ring'
        stats := stats.map (·.drop) } := by
  have hnot : ¬portal.accepts xsk (xsk.rxDesc rx idx) = false := by simp [hvalid]
  simp only [handOver] at hpush
  rw [bridgeToShuttle, hpeek]
  dsimp only
  rw [hpush]
  exact if_neg hnot

theorem bridge_refused (hpeek : xsk.peek portal.rxRing = (some idx, rx))
    (hvalid : portal.accepts xsk (xsk.rxDesc rx idx) = true) (h : Represents g ring pos q)
    (hfull : q.length + 1 = g.period) :
    bridgeToShuttle xsk g.size portal ring stats =
      { branch := .refused
        portal := { portal with rxRing := rx }
        ring := ring
        stats := stats.map (·.drop) } :=
  bridge_push_false stats hpeek hvalid (push_full h hfull _)

theorem bridge_forwarded (stats : Option PorthStats)
    (hpeek : xsk.peek portal.rxRing = (some idx, rx))
    (hvalid : portal.accepts xsk (xsk.rxDesc rx idx) = true) (h : Represents g ring pos q)
    (hroom : q.length + 1 < g.period) :
    ∃ ring', Represents g ring' pos (q ++ [handOver xsk (xsk.rxDesc rx idx)]) ∧
      bridgeToShuttle xsk g.size portal ring stats =
        { branch := .forwarded (handOver xsk (xsk.rxDesc rx idx))
          portal := ({ portal with rxRing := rx }.releaseRx xsk).recycleFrame xsk
            (xsk.rxDesc (xsk.release rx) idx).addr
          ring := ring'
          stats := stats.map (·.accept (xsk.rxDesc rx idx).len) } := by
  obtain ⟨hok, hnext⟩ := push_room h hroom (handOver xsk (xsk.rxDesc rx idx))
  have hpush : push g.size ring (handOver xsk (xsk.rxDesc rx idx)) =
      (true, (push g.size ring (handOver xsk (xsk.rxDesc rx idx))).2) := Prod.ext hok rfl
  exact ⟨_, hnext, bridge_push_true stats hpeek hvalid hpush⟩

/-- The effect of a call on the ring and the statistics, branch by branch. -/
theorem bridge_cases (xsk : Xsk Rx Fill) (h : Represents g ring pos q)
    (portal : PorthXDPPortal Rx Fill) (stats : Option PorthStats) :
    let out := bridgeToShuttle xsk g.size portal ring stats
    (out.branch = .noPacket ∧ out.ring = ring ∧ out.stats = stats) ∨
      ((out.branch = .invalid ∨ out.branch = .refused) ∧ out.ring = ring ∧
        out.stats = stats.map (·.drop)) ∨
      ∃ desc, out.branch = .forwarded desc ∧ Represents g out.ring pos (q ++ [desc]) ∧
        out.stats = stats.map (·.accept desc.len) := by
  have hlt := h.room
  rcases hpeek : xsk.peek portal.rxRing with ⟨_ | idx, rx⟩
  · rw [bridge_noPacket g.size hpeek]
    exact .inl ⟨rfl, rfl, rfl⟩
  · cases hvalid : portal.accepts xsk (xsk.rxDesc rx idx) with
    | false =>
        rw [bridge_invalid g.size hpeek hvalid]
        exact .inr (.inl ⟨.inl rfl, rfl, rfl⟩)
    | true =>
        by_cases hfull : q.length + 1 = g.period
        · rw [bridge_refused hpeek hvalid h hfull]
          exact .inr (.inl ⟨.inr rfl, rfl, rfl⟩)
        · obtain ⟨ring', hnext, heq⟩ := bridge_forwarded stats hpeek hvalid h (by omega)
          rw [heq]
          exact .inr (.inr ⟨_, rfl, hnext, rfl⟩)

end PorthCore.Ports.XdpPortal
