import PorthCore.Verified.Transition
import PorthCore.Ports.XskRings

/-!
# Reception: the kernel, the portal and the shuttle's consumer

The kernel takes addresses from the fill ring and posts rx descriptors, a call
of `bridge_to_shuttle` moves one of them to the shuttle, and the consumer pops
it there.  Calls and kernel steps are atomic and come in any order; a kernel
step that finds its ring full or empty changes nothing.

Beside the portal, the shuttle's ring and the statistics a state keeps what
has happened so far.  `View` says what the three rings hold, and there is one
lemma for each of the four ways through a call.
-/

namespace PorthCore.Ports.Reception

open PorthCore.Verified.Transition
open PorthCore.Ports.RingBuffer
open PorthCore.Ports.Driver
open PorthCore.Ports.XdpPortal
open PorthCore.Ports.XskRings

/-- A peeked descriptor, the way its call went, and whether the fill ring had
a slot at the time. -/
structure Handled where
  desc : XdpDesc
  branch : BridgeBranch
  slot : Bool
  deriving DecidableEq

/-- The portal, the shuttle's ring and the statistics, and the history. -/
structure RxPath (Rx Fill : Type) where
  portal : PorthXDPPortal Rx Fill
  ring : PorthRingBuffer
  stats : Option PorthStats
  /-- All rx descriptors posted. -/
  produced : List XdpDesc
  /-- The calls that found a packet. -/
  handled : List Handled
  popped : List PorthDescriptor
  /-- What was in the fill ring at the start. -/
  supplied : List UInt64
  /-- All addresses the kernel took from the fill ring. -/
  taken : List UInt64
  /-- Those it has not used yet. -/
  held : List UInt64

/-- A poll, a pop at the other end of the shuttle, or what the kernel does. -/
inductive RxPathOp
  | bridge
  | pop (outDesc : PorthDescriptor)
  /-- The kernel uses the frame at `addr` for the packet `desc`. -/
  | post (addr : UInt64) (desc : XdpDesc)
  | take

variable {Rx Fill : Type}

/-- The descriptor a call would peek. -/
def peeked (xsk : Xsk Rx Fill) (rx : Rx) : Option XdpDesc :=
  match xsk.peek rx with
  | (some idx, rx) => some (xsk.rxDesc rx idx)
  | (none, _) => none

namespace RxPath

section Machine

variable (xsk : Xsk Rx Fill) (kernel : Kernel Rx Fill) (g : RingGeometry)

/-- The portal is polled. -/
def afterBridge (s : RxPath Rx Fill) : RxPath Rx Fill :=
  let out := bridgeToShuttle xsk g.size s.portal s.ring s.stats
  { s with
    portal := out.portal
    ring := out.ring
    stats := out.stats
    handled := s.handled ++ (peeked xsk s.portal.rxRing).toList.map fun desc =>
      { desc := desc, branch := out.branch, slot := Xsk.hasSlot xsk s.portal.fillRing } }

/-- The consumer of the shuttle pops. -/
def afterPop (s : RxPath Rx Fill) (outDesc : PorthDescriptor) : RxPath Rx Fill :=
  let r := RingBuffer.pop g.size s.ring outDesc
  { s with
    ring := r.2.2
    popped := if r.1 then s.popped ++ [r.2.1] else s.popped }

/-- The kernel posts a packet, if the rx ring has room. -/
def afterPost (s : RxPath Rx Fill) (addr : UInt64) (desc : XdpDesc) : RxPath Rx Fill :=
  match kernel.post s.portal.rxRing desc with
  | some rx =>
      { s with
        portal := { s.portal with rxRing := rx }
        produced := s.produced ++ [desc]
        held := s.held.erase addr }
  | none => s

/-- The kernel takes a frame out of the fill ring, if there is one. -/
def afterTake (s : RxPath Rx Fill) : RxPath Rx Fill :=
  match kernel.take s.portal.fillRing with
  | some (addr, fill) =>
      { s with
        portal := { s.portal with fillRing := fill }
        taken := s.taken ++ [addr]
        held := s.held ++ [addr] }
  | none => s

/-- One step of the path. -/
def apply (s : RxPath Rx Fill) : RxPathOp → RxPath Rx Fill
  | .bridge => s.afterBridge xsk g
  | .pop outDesc => s.afterPop g outDesc
  | .post addr desc => s.afterPost kernel addr desc
  | .take => s.afterTake kernel

end Machine

/-! ## What the rings hold -/

section

variable (rxHolds : Rx → Nat → List XdpDesc → Prop) (fillHolds : Fill → List UInt64 → Prop)
  (g : RingGeometry)

/-- A fresh shuttle and zeroed statistics; what the two libxdp rings hold is
arbitrary. -/
structure Start (s : RxPath Rx Fill) : Prop where
  fresh : ∃ slots, s.ring = .fresh slots
  stats : s.stats = some .zero
  rx : rxHolds s.portal.rxRing 0 s.produced
  fill : fillHolds s.portal.fillRing s.supplied
  handled : s.handled = []
  popped : s.popped = []
  taken : s.taken = []
  held : s.held = []

/-- Polls, pops and what the kernel does, in any order. -/
def system (xsk : Xsk Rx Fill) (kernel : Kernel Rx Fill) :
    System (RxPath Rx Fill) RxPathOp where
  init := Start rxHolds fillHolds
  step := fun s op t => t = s.apply xsk kernel g op

/-- `lag` entries are peeked and not released, `pending` are still to come,
the kernel may take `avail`, and the shuttle queues `q`. -/
structure View (s : RxPath Rx Fill) (lag : Nat) (pending : List XdpDesc)
    (avail : List UInt64) (pos : Nat) (q : List PorthDescriptor) : Prop where
  rx : rxHolds s.portal.rxRing lag pending
  fill : fillHolds s.portal.fillRing avail
  queue : Represents g s.ring pos q

end

/-- A call that peeked `desc` went by `branch`. -/
structure Bridged (xsk : Xsk Rx Fill) (s t : RxPath Rx Fill) (desc : XdpDesc)
    (branch : BridgeBranch) (counted : PorthStats → PorthStats) : Prop where
  handled : t.handled = s.handled ++
    [{ desc := desc, branch := branch, slot := Xsk.hasSlot xsk s.portal.fillRing }]
  stats : t.stats = s.stats.map counted

variable {xsk : Xsk Rx Fill} {kernel : Kernel Rx Fill}
  {rxHolds : Rx → Nat → List XdpDesc → Prop} {fillHolds : Fill → List UInt64 → Prop}
  {g : RingGeometry} {s : RxPath Rx Fill} {lag pos : Nat} {desc : XdpDesc}
  {pending rest : List XdpDesc} {avail : List UInt64} {q : List PorthDescriptor}

theorem peeked_nil {rx : Rx} (hc : XskContract xsk kernel rxHolds fillHolds)
    (h : rxHolds rx lag []) : peeked xsk rx = none := by
  obtain ⟨rx', hpeek, -⟩ := hc.peek_nil h
  rw [peeked, hpeek]

theorem peeked_cons {rx : Rx} (hc : XskContract xsk kernel rxHolds fillHolds)
    (h : rxHolds rx lag (desc :: rest)) : peeked xsk rx = some desc := by
  obtain ⟨idx, rx', hpeek, hdesc, -⟩ := hc.peek_cons h
  rw [peeked, hpeek, ← hdesc]

theorem handled_afterBridge (hpeeked : peeked xsk s.portal.rxRing = some desc) :
    (s.afterBridge xsk g).handled = s.handled ++
      [{ desc := desc
         branch := (bridgeToShuttle xsk g.size s.portal s.ring s.stats).branch
         slot := Xsk.hasSlot xsk s.portal.fillRing }] := by
  simp only [afterBridge, hpeeked, Option.toList_some, List.map_cons, List.map_nil]

theorem View.bridge_nil (hc : XskContract xsk kernel rxHolds fillHolds)
    (h : View rxHolds fillHolds g s lag [] avail pos q) :
    View rxHolds fillHolds g (s.afterBridge xsk g) lag [] avail pos q ∧
      (s.afterBridge xsk g).handled = s.handled ∧ (s.afterBridge xsk g).stats = s.stats := by
  obtain ⟨rx, hpeek, hrx⟩ := hc.peek_nil h.rx
  have hout : bridgeToShuttle xsk g.size s.portal s.ring s.stats = _ :=
    bridge_noPacket g.size hpeek
  simp only [afterBridge, hout, peeked_nil hc h.rx, Option.toList_none, List.map_nil,
    List.append_nil, and_self, and_true]
  exact ⟨hrx, h.fill, h.queue⟩

/-- A packet outside the bound memory: its entry is released and its frame
recycled. -/
theorem View.bridge_invalid (hc : XskContract xsk kernel rxHolds fillHolds)
    (h : View rxHolds fillHolds g s lag (desc :: rest) avail pos q)
    (hvalid : s.portal.accepts xsk desc = false) :
    View rxHolds fillHolds g (s.afterBridge xsk g) lag rest
        (recycledAvail xsk s.portal.fillRing avail desc.addr) pos q ∧
      Bridged xsk s (s.afterBridge xsk g) desc .invalid (·.drop) := by
  have hhandled := handled_afterBridge (g := g) (peeked_cons hc h.rx)
  obtain ⟨idx, rx, hpeek, hdesc, hrx⟩ := hc.peek_cons h.rx
  have hout : bridgeToShuttle xsk g.size s.portal s.ring s.stats = _ :=
    XdpPortal.bridge_invalid g.size hpeek (hdesc ▸ hvalid)
  rw [hdesc] at hout
  rw [hout] at hhandled
  refine ⟨⟨?_, ?_, ?_⟩, hhandled, ?_⟩
  · simp only [afterBridge, hout, PorthXDPPortal.releaseRx, recycleFrame_rxRing]
    exact hc.release hrx
  · simp only [afterBridge, hout]
    exact hc.recycle { s.portal with rxRing := rx } h.fill desc.addr
  · simp only [afterBridge, hout]
    exact h.queue
  · simp only [afterBridge, hout]

/-- A valid packet and a full shuttle: the entry is left peeked. -/
theorem View.bridge_refused (hc : XskContract xsk kernel rxHolds fillHolds)
    (h : View rxHolds fillHolds g s lag (desc :: rest) avail pos q)
    (hvalid : s.portal.accepts xsk desc = true) (hfull : q.length + 1 = g.period) :
    View rxHolds fillHolds g (s.afterBridge xsk g) (lag + 1) rest avail pos q ∧
      Bridged xsk s (s.afterBridge xsk g) desc .refused (·.drop) := by
  have hhandled := handled_afterBridge (g := g) (peeked_cons hc h.rx)
  obtain ⟨idx, rx, hpeek, hdesc, hrx⟩ := hc.peek_cons h.rx
  have hout : bridgeToShuttle xsk g.size s.portal s.ring s.stats = _ :=
    XdpPortal.bridge_refused hpeek (hdesc ▸ hvalid) h.queue hfull
  rw [hout] at hhandled
  refine ⟨⟨?_, ?_, ?_⟩, hhandled, ?_⟩
  · simp only [afterBridge, hout]
    exact hrx
  · simp only [afterBridge, hout]
    exact h.fill
  · simp only [afterBridge, hout]
    exact h.queue
  · simp only [afterBridge, hout]

/-- A valid packet and room: it is handed over, and its frame recycled. -/
theorem View.bridge_forwarded (hc : XskContract xsk kernel rxHolds fillHolds)
    (h : View rxHolds fillHolds g s lag (desc :: rest) avail pos q)
    (hvalid : s.portal.accepts xsk desc = true) (hroom : q.length + 1 < g.period) :
    View rxHolds fillHolds g (s.afterBridge xsk g) lag rest
        (recycledAvail xsk s.portal.fillRing avail desc.addr) pos (q ++ [handOver xsk desc]) ∧
      Bridged xsk s (s.afterBridge xsk g) desc (.forwarded (handOver xsk desc))
        (·.accept desc.len) := by
  have hhandled := handled_afterBridge (g := g) (peeked_cons hc h.rx)
  obtain ⟨idx, rx, hpeek, hdesc, hrx⟩ := hc.peek_cons h.rx
  obtain ⟨ring', hnext, hout⟩ :=
    XdpPortal.bridge_forwarded s.stats hpeek (hdesc ▸ hvalid) h.queue hroom
  -- The address is read again after the release.
  rw [hc.release_desc, hdesc] at hout
  rw [hdesc] at hnext
  rw [hout] at hhandled
  refine ⟨⟨?_, ?_, ?_⟩, hhandled, ?_⟩
  · simp only [afterBridge, hout, recycleFrame_rxRing, PorthXDPPortal.releaseRx]
    exact hc.release hrx
  · simp only [afterBridge, hout]
    exact hc.recycle ({ s.portal with rxRing := rx }.releaseRx xsk) h.fill desc.addr
  · simp only [afterBridge, hout]
    exact hnext
  · simp only [afterBridge, hout]

/-- The full test of `push` fires exactly without room. -/
theorem View.room_iff (h : View rxHolds fillHolds g s lag pending avail pos q) :
    advance g.size s.ring.head ≠ s.ring.tail.toUInt64 ↔ q.length + 1 < g.period := by
  rw [Ne, h.queue.full_iff]
  have hlt := h.queue.room
  omega

/-! ## The other operations -/

theorem View.pop_nil (h : View rxHolds fillHolds g s lag pending avail pos [])
    (outDesc : PorthDescriptor) : s.afterPop g outDesc = s := by
  simp only [afterPop, pop_empty h.queue outDesc, Bool.false_eq_true, if_false]

theorem View.pop_cons {head : PorthDescriptor}
    (h : View rxHolds fillHolds g s lag pending avail pos (head :: q))
    (outDesc : PorthDescriptor) :
    View rxHolds fillHolds g (s.afterPop g outDesc) lag pending avail (pos + 1) q ∧
      (s.afterPop g outDesc).popped = s.popped ++ [head] := by
  obtain ⟨hok, hhead, hnext⟩ := RingBuffer.pop_cons h.queue outDesc
  refine ⟨⟨h.rx, h.fill, hnext⟩, ?_⟩
  simp only [afterPop, hok, hhead, if_true]

/-- A post finds the rx ring full, or puts `desc` behind the pending ones. -/
theorem View.post (hc : XskContract xsk kernel rxHolds fillHolds)
    (h : View rxHolds fillHolds g s lag pending avail pos q) (addr : UInt64) (desc : XdpDesc) :
    s.afterPost kernel addr desc = s ∨
      ∃ rx, s.afterPost kernel addr desc =
          { s with
            portal := { s.portal with rxRing := rx }
            produced := s.produced ++ [desc]
            held := s.held.erase addr } ∧
        rxHolds rx lag (pending ++ [desc]) := by
  cases hpost : kernel.post s.portal.rxRing desc with
  | none =>
      left
      rw [afterPost, hpost]
  | some rx =>
      right
      refine ⟨rx, ?_, hc.post h.rx hpost⟩
      rw [afterPost, hpost]

/-- A take finds the fill ring empty, or gets the oldest address. -/
theorem View.take (hc : XskContract xsk kernel rxHolds fillHolds)
    (h : View rxHolds fillHolds g s lag pending avail pos q) :
    s.afterTake kernel = s ∨
      ∃ addr avail' fill, avail = addr :: avail' ∧
        s.afterTake kernel =
          { s with
            portal := { s.portal with fillRing := fill }
            taken := s.taken ++ [addr]
            held := s.held ++ [addr] } ∧
        fillHolds fill avail' := by
  cases htake : kernel.take s.portal.fillRing with
  | none =>
      left
      rw [afterTake, htake]
  | some taken =>
      obtain ⟨addr, fill⟩ := taken
      obtain ⟨avail', heq, hfill⟩ := hc.take h.fill htake
      right
      refine ⟨addr, avail', fill, heq, ?_, hfill⟩
      rw [afterTake, htake]

/-! ## A start -/

/-- A fresh shuttle from 0x200000 to 0x400000, an empty fill ring, and `desc`
pending `n` times. -/
def sample (desc : XdpDesc) (n : Nat) : RxPath XskRingCons XskRingProd where
  portal :=
    { rxRing := rxOf desc n
      fillRing := fillEmpty
      umemStart := 0x200000
      umemEnd := 0x400000 }
  ring := .fresh fun _ => default
  stats := some .zero
  produced := List.replicate n desc
  handled := []
  popped := []
  supplied := []
  taken := []
  held := []

/-- A packet inside the bound memory. -/
def sampleDesc : XdpDesc := { addr := 0x300000, len := 64 }

theorem sample_start (desc : XdpDesc) {n : Nat} (hn : n ≤ 2048) :
    Start RxHolds FillHolds (sample desc n) where
  fresh := ⟨_, rfl⟩
  stats := rfl
  rx := rxHolds_rxOf desc hn
  fill := fillHolds_fillEmpty
  handled := rfl
  popped := rfl
  taken := rfl
  held := rfl

end RxPath

end PorthCore.Ports.Reception
