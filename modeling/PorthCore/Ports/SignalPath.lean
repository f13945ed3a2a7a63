import PorthCore.Ports.FramePool
import PorthCore.Ports.PayloadView

/-!
# From the wire to the terminal

`network_portal_demo` polls a primed `PorthNetworkPortal` until `poll_rx` throws
or the user stops it.  An XDP program attached to the interface sees every
packet that arrives; what it redirects to the socket the kernel copies into a
frame it has taken, and `poll_rx` prints from there.

Nothing in `main` attaches `porth_xdp_prog`: it is opened, loaded and its map
is given the socket, but `xsk_socket__create` leaves it to the library which
program it attaches.  So the attached program is a parameter here.  Whatever
it is, what is printed are the payloads of the IPv4 packets among those it has
redirected, in order and each once, as they arrived; only an IPv4 packet of
fewer than 42 bytes stops the demo (`signals_in_order`).  If it is
`porth_xdp_prog`, every packet redirected counts, and one that stops the demo
has a header too short to be one.
-/

namespace PorthCore.Ports.SignalPath

open PorthCore.Verified.Transition
open PorthCore.Verified.ByteProbe
open PorthCore.Verified.ByteProbe.Probe
open PorthCore.Ports.XdpPortal
open PorthCore.Ports.XskRings
open PorthCore.Ports.XdpFilter
open PorthCore.Ports.FrameOwnership (frames frames_cons frames_concat frames_erase)
open PorthCore.Ports.NetworkPortal
open PorthCore.Ports.FramePool
open PorthCore.Ports.PayloadView (datagramArea)

variable {Rx Fill : Type}

/-! ## The machine -/

/-- The pool of the portal, the packets posted to it, and what `main` has seen:
the signals printed and the exception it caught. -/
structure Session (Rx Fill : Type) where
  pool : Pool Rx Fill
  posted : List Packet
  signals : List (List UInt8)
  fatal : Option StdException

/-- A call of `poll_rx`, or what the kernel does in between. -/
inductive SessionOp
  | poll
  | take
  /-- A packet arrives on a queue.  If it is redirected to the socket, the kernel
  uses the frame at `addr` for it and posts `desc`; `area` is the UMEM
  afterwards. -/
  | arrive (queue : UInt32) (p : Packet) (addr : UInt64) (desc : XdpDesc) (area : Nat → UInt8)

/-- What is behind the headers of a packet, as `poll_rx` counts them. -/
def payload (p : Packet) : List UInt8 := (List.range' 42 (p.len - 42)).map p.bytes

/-- What `poll_rx` prints of a packet. -/
def signal (p : Packet) : Option (List UInt8) :=
  if isIPv4.run p.bytes then some (payload p) else none

/-- `porth_xdp_prog` is attached, and `bind_xsk_map` has stored the socket under
the key 0: a redirection from another queue ends in `XDP_PASS`. -/
def behindFilter (queue : UInt32) (p : Packet) : Bool :=
  (porthXdpProg queue p.len).run p.bytes = .redirectMap 0

/-- A program without conditions is attached, as the library has one: whatever
arrives on the queue of the socket goes there. -/
def behindDefault (queue : UInt32) (_ : Packet) : Bool := queue == 0

/-- The kernel copies a packet into a frame it holds, and writes nowhere
else.  No packet comes without an Ethernet header. -/
structure Copies (s : Pool Rx Fill) (p : Packet) (addr : UInt64) (desc : XdpDesc)
    (area : Nat → UInt8) : Prop where
  held : addr ∈ s.held
  chunk : chunkOf desc.addr = chunkOf addr
  len : desc.len.toNat = p.len
  header : 14 ≤ p.len
  inside : desc.addr.toNat % 4096 + p.len ≤ 4096
  bytes : ∀ i < p.len, area (desc.addr.toNat + i) = p.bytes i
  elsewhere : ∀ i, i / 4096 ≠ chunkOf addr → area i = s.area i

namespace Session

section Machine

-- `attached`: whether the attached program redirects a packet of a queue to the
-- socket of the portal.
variable (xsk : Xsk Rx Fill) (batch : XskBatch Fill) (kernel : Kernel Rx Fill)
  (attached : UInt32 → Packet → Bool) (stringMax : Nat)
  (rxHolds : Rx → Nat → List XdpDesc → Prop) (fillHolds : Fill → List UInt64 → Prop)

/-- A turn of the loop in `main`. -/
def afterPoll (s : Session Rx Fill) : Session Rx Fill :=
  let out := pollRx xsk stringMax s.pool.area s.pool.portal
  { pool := { s.pool with portal := out.portal }
    posted := s.posted
    signals := s.signals ++ out.printed.toList
    fatal :=
      match out.result with
      | .ok _ => none
      | .error e => some e }

/-- A packet arrives; the kernel drops what it finds no room for. -/
def afterArrive (s : Session Rx Fill) (queue : UInt32) (p : Packet) (addr : UInt64)
    (desc : XdpDesc) (area : Nat → UInt8) : Session Rx Fill :=
  if attached queue p then
    match kernel.post s.pool.portal.rxRing desc with
    | some rx =>
        { s with
          pool :=
            { portal := { s.pool.portal with rxRing := rx }
              area := area
              held := s.pool.held.erase addr }
          posted := s.posted ++ [p] }
    | none => s
  else s

/-- One step of the demo. -/
def apply (s : Session Rx Fill) : SessionOp → Session Rx Fill
  | .poll => s.afterPoll xsk stringMax
  | .take => { s with pool := s.pool.afterTake kernel }
  | .arrive queue p addr desc area => s.afterArrive kernel attached queue p addr desc area

/-- The kernel copies what it redirects. -/
def Delivers (s : Session Rx Fill) : SessionOp → Prop
  | .poll | .take => True
  | .arrive queue p addr desc area =>
      attached queue p = true → Copies s.pool p addr desc area

/-- A primed portal, and nothing received. -/
structure Opened (s : Session Rx Fill) : Prop where
  primed : Pool.Primed xsk batch rxHolds fillHolds s.pool
  posted : s.posted = []
  signals : s.signals = []
  fatal : s.fatal = none

/-- The demo, up to the first exception. -/
def system : System (Session Rx Fill) SessionOp where
  init := Opened xsk batch rxHolds fillHolds
  step := fun s op t => s.fatal = none ∧ Delivers attached s op ∧
    t = s.apply xsk kernel attached stringMax op

end Machine

/-! ## What is in a frame -/

/-- The frame behind a descriptor holds the packet. -/
structure Carries (area : Nat → UInt8) (desc : XdpDesc) (p : Packet) : Prop where
  len : desc.len.toNat = p.len
  header : 14 ≤ p.len
  inside : desc.addr.toNat % 4096 + p.len ≤ 4096
  bytes : ∀ i < p.len, (frameAt area desc).bytes i = p.bytes i

private theorem isIPv4_of_accepted {p : Packet} (h : p.Accepted) : isIPv4.run p.bytes = true := by
  have htype : 256 * (p.bytes 12).toNat + (p.bytes 13).toNat = 0x0800 := h.etherType
  have hlow := (p.bytes 13).toNat_lt
  refine run_isIPv4.mpr ⟨UInt8.toNat_inj.mp ?_, UInt8.toNat_inj.mp ?_⟩
  · show _ = 8
    omega
  · show _ = 0
    omega

theorem signal_of_ipv4 {p : Packet} (h : isIPv4.run p.bytes = true) :
    signal p = some (payload p) := if_pos h

private theorem signal_of_other {p : Packet} (h : isIPv4.run p.bytes = false) : signal p = none :=
  if_neg (Bool.eq_false_iff.mp h)

/-- Every packet `porth_xdp_prog` redirects is printed. -/
theorem filterMap_signal {ps : List Packet} (h : ∀ p ∈ ps, p.Accepted) :
    ps.filterMap signal = ps.map payload := by
  rw [← List.filterMap_eq_map]
  exact List.filterMap_congr fun p hp => signal_of_ipv4 (isIPv4_of_accepted (h p hp))

namespace Carries

variable {area area' : Nat → UInt8} {desc : XdpDesc} {p : Packet}

/-- The EtherType in the frame is the packet's. -/
theorem isIPv4_eq (h : Carries area desc p) :
    isIPv4.run (frameAt area desc).bytes = isIPv4.run p.bytes := by
  have hheader := h.header
  have hwithin : Within p.len (frameAt area desc).bytes isIPv4 :=
    within_isIPv4.mpr ⟨by omega, fun _ => by omega⟩
  exact hwithin.run_congr h.bytes

/-- A packet that is not IPv4 is passed over; otherwise its payload is taken
from the frame. -/
theorem extract_ok {stringMax : Nat} (hmax : SizeLimit stringMax) (h : Carries area desc p)
    (hlen : isIPv4.run p.bytes = true → 42 ≤ p.len) :
    (extract stringMax desc.len).run (frameAt area desc).bytes = .ok (signal p) := by
  have hdesc := h.len
  cases htype : isIPv4.run p.bytes with
  | false =>
      rw [signal_of_other htype]
      exact (extract_other (h.isIPv4_eq.trans htype)).1
  | true =>
      have hlong := hlen htype
      have hwindow : (List.range' 42 (p.len - 42)).map (frameAt area desc).bytes =
          (List.range' 42 (p.len - 42)).map p.bytes := by
        refine List.map_congr_left fun i hi => h.bytes i ?_
        have hlt := (List.mem_range'_1.mp hi).2
        omega
      rw [(extract_payload hmax (h.isIPv4_eq.trans htype) (by omega)).1, hdesc, hwindow,
        signal_of_ipv4 htype, payload]

private theorem extract_short {stringMax : Nat} (hmax : SizeLimit stringMax)
    (h : Carries area desc p) (htype : isIPv4.run p.bytes = true) (hlen : p.len < 42) :
    (extract stringMax desc.len).run (frameAt area desc).bytes = .error .lengthError :=
  extract_throws hmax (h.isIPv4_eq.trans htype) (h.len ▸ hlen)

/-- A packet stays as long as nobody writes to its chunk. -/
theorem of_chunk (h : Carries area desc p)
    (hsame : ∀ i, i / 4096 = chunkOf desc.addr → area' i = area i) : Carries area' desc p where
  len := h.len
  header := h.header
  inside := h.inside
  bytes := by
    intro i hi
    have hinside := h.inside
    rw [← h.bytes i hi]
    refine hsame _ ?_
    show (desc.addr.toNat + i) / 4096 = desc.addr.toNat / 4096
    omega

end Carries

/-- A redirected packet has 42 bytes, or a header too short to be one. -/
theorem long_or_short {p : Packet} (h : p.Accepted) : 42 ≤ p.len ∨ p.ShortHeader := by
  rcases p.accepted_iff.mp h with hsovereign | hshort
  · left
    have hihl := hsovereign.ihl
    have hdatagram : 14 + 4 * p.ihl + 8 ≤ p.len := hsovereign.datagram
    omega
  · exact .inr hshort

/-! ## The invariant -/

section

variable (attached : UInt32 → Packet → Bool) (rxHolds : Rx → Nat → List XdpDesc → Prop)
  (fillHolds : Fill → List UInt64 → Prop)

/-- While the demo runs: the packets `seen` are printed, those `waiting` are in
the frames behind the rx ring, and no frame is in two places. -/
structure Tracked (s : Session Rx Fill) (pending : List XdpDesc) (avail : List UInt64)
    (seen waiting : List Packet) : Prop where
  rx : rxHolds s.pool.portal.rxRing 0 pending
  fill : fillHolds s.pool.portal.fillRing avail
  once : frames chunkOf avail + frames chunkOf s.pool.held +
    frames (fun desc => chunkOf desc.addr) pending = Multiset.range 64
  carried : List.Forall₂ (Carries s.pool.area) pending waiting
  posted : s.posted = seen ++ waiting
  redirected : ∀ p ∈ s.posted, ∃ queue, attached queue p = true
  signals : s.signals = seen.filterMap signal
  running : s.fatal = none

/-- When the demo has stopped: the packet behind those printed was IPv4 and too
short. -/
structure Stopped (s : Session Rx Fill) (seen : List Packet) (p : Packet)
    (waiting : List Packet) : Prop where
  posted : s.posted = seen ++ p :: waiting
  redirected : ∀ p ∈ s.posted, ∃ queue, attached queue p = true
  signals : s.signals = seen.filterMap signal
  ipv4 : isIPv4.run p.bytes = true
  len : p.len < 42
  fatal : s.fatal = some .lengthError

end

variable {xsk : Xsk Rx Fill} {batch : XskBatch Fill} {kernel : Kernel Rx Fill}
  {attached : UInt32 → Packet → Bool} {stringMax : Nat}
  {rxHolds : Rx → Nat → List XdpDesc → Prop} {fillHolds : Fill → List UInt64 → Prop}
  {s t : Session Rx Fill} {pending : List XdpDesc} {avail : List UInt64}
  {seen waiting : List Packet}

private theorem Opened.tracked (hc : PoolContract xsk batch kernel rxHolds fillHolds)
    (h : Opened xsk batch rxHolds fillHolds s) :
    Tracked attached rxHolds fillHolds s [] (frameStarts 64) [] [] := by
  have hplaced := Pool.Primed.placed hc h.primed
  exact
    { rx := hplaced.rx
      fill := hplaced.fill
      once := hplaced.once
      carried := .nil
      posted := h.posted
      redirected := by
        rw [h.posted]
        exact fun p hp => absurd hp List.not_mem_nil
      signals := h.signals
      running := h.fatal }

namespace Tracked

/-- 64 frames do not fill 2048 slots. -/
theorem hasSlot (hc : PoolContract xsk batch kernel rxHolds fillHolds)
    (h : Tracked attached rxHolds fillHolds s pending avail seen waiting) :
    Xsk.hasSlot xsk s.pool.portal.fillRing = true := by
  have hcard := congrArg Multiset.card h.once
  simp only [frames, Multiset.card_add, Multiset.coe_card, List.length_map, Multiset.card_range]
    at hcard
  exact (hc.hasSlot_iff h.fill).mpr (by omega)

private theorem poll_nil (hc : PoolContract xsk batch kernel rxHolds fillHolds)
    (h : Tracked attached rxHolds fillHolds s [] avail seen waiting) :
    Tracked attached rxHolds fillHolds (s.afterPoll xsk stringMax) [] avail seen waiting := by
  obtain ⟨rx, hpeek, hrx⟩ := hc.peek_nil h.rx
  simp only [afterPoll, pollRx, hpeek, Option.toList_none, List.append_nil]
  exact { h with rx := hrx, running := rfl }

/-- What there is to print of the oldest packet that waits is printed, and its
frame goes back. -/
theorem poll_ok (hc : PoolContract xsk batch kernel rxHolds fillHolds)
    (hmax : SizeLimit stringMax) {desc : XdpDesc} {p : Packet}
    (h : Tracked attached rxHolds fillHolds s (desc :: pending) avail seen (p :: waiting))
    (hlen : isIPv4.run p.bytes = true → 42 ≤ p.len) :
    Tracked attached rxHolds fillHolds (s.afterPoll xsk stringMax) pending (avail ++ [desc.addr])
      (seen ++ [p]) waiting := by
  obtain ⟨hhead, hrest⟩ := List.forall₂_cons.mp h.carried
  obtain ⟨rx, hrx, hout⟩ := pollRx_ok hc.toXskContract h.rx (hhead.extract_ok hmax hlen)
  have hfill := holds_refill hc.toXskContract rx h.fill desc.addr
  rw [recycledAvail, h.hasSlot hc, if_pos rfl] at hfill
  have honce := h.once
  rw [frames_cons] at honce
  unfold afterPoll
  rw [hout]
  refine
    { rx := hrx
      fill := hfill
      once := ?_
      carried := hrest
      posted := ?_
      redirected := h.redirected
      signals := ?_
      running := rfl }
  · rw [frames_concat, ← honce]
    show frames chunkOf avail + {chunkOf desc.addr} + frames chunkOf s.pool.held + _ = _
    ac_rfl
  · rw [List.append_assoc]
    exact h.posted
  · rw [h.signals, List.filterMap_append]
    cases hsignal : signal p with
    | none => simp [hsignal]
    | some bytes => simp [hsignal]

/-- The oldest packet that waits is too short, and `std::string` throws. -/
theorem poll_short (hc : PoolContract xsk batch kernel rxHolds fillHolds)
    (hmax : SizeLimit stringMax) {desc : XdpDesc} {p : Packet}
    (h : Tracked attached rxHolds fillHolds s (desc :: pending) avail seen (p :: waiting))
    (htype : isIPv4.run p.bytes = true) (hlen : p.len < 42) :
    Stopped attached (s.afterPoll xsk stringMax) seen p waiting := by
  obtain ⟨hhead, -⟩ := List.forall₂_cons.mp h.carried
  obtain ⟨idx, rx, hpeek, rfl, -⟩ := hc.peek_cons h.rx
  have hthrows := hhead.extract_short hmax htype hlen
  simp only [afterPoll, pollRx, hpeek, hthrows, Option.toList_none, List.append_nil]
  exact
    { posted := h.posted
      redirected := h.redirected
      signals := h.signals
      ipv4 := htype
      len := hlen
      fatal := rfl }

theorem take (hc : PoolContract xsk batch kernel rxHolds fillHolds)
    (h : Tracked attached rxHolds fillHolds s pending avail seen waiting) :
    ∃ avail', Tracked attached rxHolds fillHolds { s with pool := s.pool.afterTake kernel } pending
      avail' seen waiting := by
  unfold Pool.afterTake
  cases htake : kernel.take s.pool.portal.fillRing with
  | none => exact ⟨avail, h⟩
  | some taken =>
      obtain ⟨addr, fill⟩ := taken
      obtain ⟨avail', rfl, hfill⟩ := hc.take h.fill htake
      have honce := h.once
      rw [frames_cons] at honce
      refine ⟨avail', { h with fill := hfill, once := ?_ }⟩
      rw [frames_concat, ← honce]
      ac_rfl

/-- The kernel holds no frame in which a packet waits. -/
theorem chunk_ne (h : Tracked attached rxHolds fillHolds s pending avail seen waiting)
    {addr : UInt64} (haddr : addr ∈ s.pool.held) :
    ∀ desc ∈ pending, chunkOf desc.addr ≠ chunkOf addr := by
  intro desc hdesc heq
  have hnodup : (frames chunkOf avail + frames chunkOf s.pool.held +
      frames (fun desc => chunkOf desc.addr) pending).Nodup := by
    rw [h.once]
    exact Multiset.nodup_range 64
  have hheld : chunkOf addr ∈ frames chunkOf avail + frames chunkOf s.pool.held :=
    Multiset.mem_add.mpr (.inr (Multiset.mem_coe.mpr (List.mem_map_of_mem haddr)))
  have hpending : chunkOf addr ∈ frames (fun desc : XdpDesc => chunkOf desc.addr) pending := by
    rw [← heq]
    exact Multiset.mem_coe.mpr (List.mem_map_of_mem hdesc)
  exact Multiset.disjoint_left.mp (Multiset.nodup_add.mp hnodup).2.2 hheld hpending

/-- A packet that is redirected joins those that wait, in its own frame. -/
theorem arrive (hc : PoolContract xsk batch kernel rxHolds fillHolds)
    (h : Tracked attached rxHolds fillHolds s pending avail seen waiting) {queue : UInt32}
    {p : Packet} {addr : UInt64} {desc : XdpDesc} {area : Nat → UInt8}
    (hop : Delivers attached s (.arrive queue p addr desc area)) :
    ∃ pending' waiting', Tracked attached rxHolds fillHolds
      (s.afterArrive kernel attached queue p addr desc area) pending' avail seen waiting' := by
  unfold afterArrive
  split
  · next hredirect =>
      have hcopies := hop hredirect
      cases hpost : kernel.post s.pool.portal.rxRing desc with
      | none => exact ⟨pending, waiting, h⟩
      | some rx =>
          have hnew : Carries area desc p :=
            { len := hcopies.len
              header := hcopies.header
              inside := hcopies.inside
              bytes := hcopies.bytes }
          have hold : List.Forall₂ (Carries area) pending waiting := by
            have hboth := (List.forall₂_and_left pending waiting).mpr
              ⟨h.chunk_ne hcopies.held, h.carried⟩
            refine hboth.imp fun other p' hother => hother.2.of_chunk fun i hi => ?_
            exact hcopies.elsewhere i (hi ▸ hother.1)
          refine ⟨pending ++ [desc], waiting ++ [p], ?_⟩
          refine
            { rx := hc.post h.rx hpost
              fill := h.fill
              once := ?_
              carried := List.rel_append hold (.cons hnew .nil)
              posted := by rw [h.posted, List.append_assoc]
              redirected := ?_
              signals := h.signals
              running := h.running }
          · have honce := h.once
            rw [frames_erase chunkOf hcopies.held] at honce
            rw [frames_concat, hcopies.chunk, ← honce]
            ac_rfl
          · intro other hother
            rcases List.mem_append.mp hother with hmem | hmem
            · exact h.redirected other hmem
            · rw [List.mem_singleton.mp hmem]
              exact ⟨queue, hredirect⟩
  · exact ⟨pending, waiting, h⟩

end Tracked

/-! ## Runs -/

/-- The demo runs and has printed a first part of what was posted, or it has
stopped. -/
def Kept (attached : UInt32 → Packet → Bool) (rxHolds : Rx → Nat → List XdpDesc → Prop)
    (fillHolds : Fill → List UInt64 → Prop) (s : Session Rx Fill) : Prop :=
  (∃ pending avail seen waiting, Tracked attached rxHolds fillHolds s pending avail seen waiting) ∨
    ∃ seen p waiting, Stopped attached s seen p waiting

theorem Tracked.poll (hc : PoolContract xsk batch kernel rxHolds fillHolds)
    (hmax : SizeLimit stringMax)
    (h : Tracked attached rxHolds fillHolds s pending avail seen waiting) :
    Kept attached rxHolds fillHolds (s.afterPoll xsk stringMax) := by
  cases h.carried with
  | nil => exact .inl ⟨_, _, _, _, { h with carried := .nil }.poll_nil hc⟩
  | @cons desc p pending waiting hhead hrest =>
      have h' : Tracked attached rxHolds fillHolds s (desc :: pending) avail seen
          (p :: waiting) := { h with carried := .cons hhead hrest }
      by_cases hstops : isIPv4.run p.bytes = true ∧ p.len < 42
      · exact .inr ⟨_, _, _, h'.poll_short hc hmax hstops.1 hstops.2⟩
      · refine .inl ⟨_, _, _, _, h'.poll_ok hc hmax fun htype => ?_⟩
        exact not_lt.mp fun hlen => hstops ⟨htype, hlen⟩

theorem Kept.step (hc : PoolContract xsk batch kernel rxHolds fillHolds)
    (hmax : SizeLimit stringMax) (h : Kept attached rxHolds fillHolds s) {op : SessionOp}
    (hstep : (system xsk batch kernel attached stringMax rxHolds fillHolds).step s op t) :
    Kept attached rxHolds fillHolds t := by
  obtain ⟨hrunning, hop, rfl⟩ := hstep
  rcases h with ⟨pending, avail, seen, waiting, h⟩ | ⟨seen, p, waiting, h⟩
  · cases op with
    | poll => exact h.poll hc hmax
    | take =>
        obtain ⟨avail', hnext⟩ := h.take hc
        exact .inl ⟨pending, avail', seen, waiting, hnext⟩
    | arrive queue p addr desc area =>
        obtain ⟨pending', waiting', hnext⟩ := h.arrive hc hop
        exact .inl ⟨pending', avail, seen, waiting', hnext⟩
  · rw [h.fatal] at hrunning
    cases hrunning

theorem kept_of_reachable (hc : PoolContract xsk batch kernel rxHolds fillHolds)
    (hmax : SizeLimit stringMax)
    (h : (system xsk batch kernel attached stringMax rxHolds fillHolds).Reachable s) :
    Kept attached rxHolds fillHolds s := by
  refine System.Reachable.invariant (I := Kept attached rxHolds fillHolds) ?_ ?_ h
  · intro s hs
    exact .inl ⟨_, _, _, _, hs.tracked hc⟩
  · intro s op t hs hstep
    exact hs.step hc hmax hstep

private theorem accepted_of_behindFilter {queue : UInt32} {p : Packet}
    (h : behindFilter queue p = true) : p.Accepted := by
  have hredirect : (porthXdpProg queue p.len).run p.bytes = .redirectMap 0 := of_decide_eq_true h
  by_contra hnot
  rw [(porthXdpProg_decides queue p).pass hnot] at hredirect
  cases hredirect

/-- What is known of the session once the program attached is
`porth_xdp_prog`. -/
structure Filtered (s : Session Rx Fill) (seen waiting : List Packet) : Prop where
  posted : ∀ p ∈ s.posted, p.Sovereign ∨ p.ShortHeader
  signals : s.signals = seen.map payload
  fatal : s.fatal ≠ none → ∃ p rest, waiting = p :: rest ∧ p.ShortHeader

/-- **Signals in order, up to the first packet too short.**  Whatever program is
attached, whatever arrives and however `poll_rx` and the kernel take turns,
only what the program redirects is posted, and what is printed are the
payloads of the IPv4 packets in a first part of it, each as it arrived, once
and in order.  While the demo runs the others wait in the rx ring; it stops
only at an IPv4 packet of fewer than 42 bytes.  Behind `porth_xdp_prog` each
packet posted is addressed to the port, or has a header too short to be one,
and is printed unless the demo stops there; and it stops only at a header too
short. -/
theorem signals_in_order (hc : PoolContract xsk batch kernel rxHolds fillHolds)
    (hmax : SizeLimit stringMax)
    (h : (system xsk batch kernel attached stringMax rxHolds fillHolds).Reachable s) :
    ∃ seen waiting, s.posted = seen ++ waiting ∧ s.signals = seen.filterMap signal ∧
      (∀ p ∈ s.posted, ∃ queue, attached queue p = true) ∧
      (s.fatal = none →
        ∃ pending, rxHolds s.pool.portal.rxRing 0 pending ∧ pending.length = waiting.length) ∧
      (∀ e, s.fatal = some e →
        e = .lengthError ∧ ∃ p rest, waiting = p :: rest ∧ isIPv4.run p.bytes = true ∧
          p.len < 42) ∧
      (attached = behindFilter → Filtered s seen waiting) := by
  have haccepted (hposted : ∀ p ∈ s.posted, ∃ queue, attached queue p = true)
      (hfilter : attached = behindFilter) : ∀ p ∈ s.posted, p.Accepted := by
    intro p hp
    obtain ⟨queue, hredirect⟩ := hposted p hp
    exact accepted_of_behindFilter (hfilter ▸ hredirect)
  rcases kept_of_reachable hc hmax h with ⟨pending, avail, seen, waiting, h⟩ |
    ⟨seen, p, waiting, h⟩
  · refine ⟨seen, waiting, h.posted, h.signals, h.redirected, ?_, ?_, ?_⟩
    · exact fun _ => ⟨pending, h.rx, h.carried.length_eq⟩
    · intro e hfatal
      rw [h.running] at hfatal
      cases hfatal
    · intro hfilter
      have hall := haccepted h.redirected hfilter
      refine ⟨fun p hp => p.accepted_iff.mp (hall p hp), ?_, ?_⟩
      · rw [h.signals]
        exact filterMap_signal fun p hp => hall p (h.posted ▸ List.mem_append_left waiting hp)
      · exact fun hstopped => absurd h.running hstopped
  · refine ⟨seen, p :: waiting, h.posted, h.signals, h.redirected, ?_, ?_, ?_⟩
    · intro hfatal
      rw [h.fatal] at hfatal
      cases hfatal
    · intro e hfatal
      rw [h.fatal] at hfatal
      cases hfatal
      exact ⟨rfl, p, waiting, rfl, h.ipv4, h.len⟩
    · intro hfilter
      have hall := haccepted h.redirected hfilter
      have hp := hall p (h.posted ▸ List.mem_append_right seen List.mem_cons_self)
      refine ⟨fun p hp => p.accepted_iff.mp (hall p hp), ?_, fun _ => ⟨p, waiting, rfl, ?_⟩⟩
      · rw [h.signals]
        exact filterMap_signal fun p hp => hall p (h.posted ▸ List.mem_append_left _ hp)
      · exact (long_or_short hp).resolve_left (not_le.mpr h.len)

/-- As many calls as packets wait print them all. -/
theorem Tracked.drain (hc : PoolContract xsk batch kernel rxHolds fillHolds)
    (hmax : SizeLimit stringMax)
    (h : Tracked attached rxHolds fillHolds s pending avail seen waiting)
    (hlong : ∀ p ∈ waiting, isIPv4.run p.bytes = true → 42 ≤ p.len) :
    ∃ t avail', (system xsk batch kernel attached stringMax rxHolds fillHolds).Run s
        (List.replicate waiting.length .poll) t ∧
      Tracked attached rxHolds fillHolds t [] avail' (seen ++ waiting) [] := by
  induction waiting generalizing s pending avail seen with
  | nil =>
      cases h.carried
      rw [List.append_nil]
      exact ⟨s, avail, .nil s, h⟩
  | cons p waiting ih =>
      obtain ⟨hhead, hrest⟩ := List.forall_mem_cons.mp hlong
      cases hcarried : h.carried with
      | cons hcarries hothers =>
          obtain ⟨t, avail', hrun, ht⟩ := ih (h.poll_ok hc hmax hhead) hrest
          rw [List.append_assoc] at ht
          exact ⟨t, avail', .cons ⟨h.running, trivial, rfl⟩ hrun, ht⟩

/-- **Nothing is held back.**  If every IPv4 packet posted has the 42 bytes of
its headers, the demo runs, and as many more calls of `poll_rx` as packets wait
leave the payload of each of them printed and the rx ring empty. -/
theorem all_printed (hc : PoolContract xsk batch kernel rxHolds fillHolds)
    (hmax : SizeLimit stringMax)
    (h : (system xsk batch kernel attached stringMax rxHolds fillHolds).Reachable s)
    (hlong : ∀ p ∈ s.posted, isIPv4.run p.bytes = true → 42 ≤ p.len) :
    ∃ n t, (system xsk batch kernel attached stringMax rxHolds fillHolds).Run s
        (List.replicate n .poll) t ∧
      t.fatal = none ∧ t.posted = s.posted ∧ t.signals = s.posted.filterMap signal ∧
      rxHolds t.pool.portal.rxRing 0 [] := by
  rcases kept_of_reachable hc hmax h with ⟨pending, avail, seen, waiting, h⟩ |
    ⟨seen, p, waiting, h⟩
  · have hwaiting : ∀ p ∈ waiting, isIPv4.run p.bytes = true → 42 ≤ p.len := by
      intro p hp
      exact hlong p (h.posted ▸ List.mem_append_right seen hp)
    obtain ⟨t, avail', hrun, ht⟩ := h.drain hc hmax hwaiting
    have hposted : t.posted = s.posted := by
      rw [ht.posted, h.posted, List.append_nil]
    refine ⟨_, t, hrun, ht.running, hposted, ?_, ht.rx⟩
    rw [ht.signals, h.posted]
  · have hmem : p ∈ s.posted := h.posted ▸ List.mem_append_right seen List.mem_cons_self
    have hge := hlong p hmem h.ipv4
    have hlt := h.len
    omega

/-! ## A packet that stops the demo, and a datagram behind another packet -/

/-- The demo when its socket is primed. -/
def sampleOpened : Session XskRingCons XskRingProd where
  pool := Pool.samplePrimed
  posted := []
  signals := []
  fatal := none

/-- The demo with the default rings. -/
def sampleSystem (attached : UInt32 → Packet → Bool) :
    System (Session XskRingCons XskRingProd) SessionOp :=
  system xskDefault batchDefault kernelDefault attached (2 ^ 62 - 1) RxHolds FillHolds

theorem sampleOpened_opened :
    Opened xskDefault batchDefault RxHolds FillHolds sampleOpened where
  primed := Pool.samplePrimed_primed
  posted := rfl
  signals := rfl
  fatal := rfl

/-- A frame is taken, and a packet of `len` bytes is copied to its start. -/
def afterPacket (attached : UInt32 → Packet → Bool) (s : Session XskRingCons XskRingProd)
    (bytes : Nat → UInt8) (len : UInt32) (addr : UInt64) (area : Nat → UInt8) :
    Session XskRingCons XskRingProd :=
  (s.apply xskDefault kernelDefault attached (2 ^ 62 - 1) .take).apply xskDefault kernelDefault
    attached (2 ^ 62 - 1)
    (.arrive 0 { bytes := bytes, len := len.toNat } addr { addr := addr, len := len } area)

theorem afterPacket_reachable {attached : UInt32 → Packet → Bool}
    {s : Session XskRingCons XskRingProd} {bytes : Nat → UInt8} {len : UInt32} {addr : UInt64}
    {area : Nat → UInt8} (hs : (sampleSystem attached).Reachable s) (hrunning : s.fatal = none)
    (hcopies : Copies (s.pool.afterTake kernelDefault) { bytes := bytes, len := len.toNat } addr
      { addr := addr, len := len } area) :
    (sampleSystem attached).Reachable (afterPacket attached s bytes len addr area) := by
  have hrun : (sampleSystem attached).Run s [.take, .arrive 0
      { bytes := bytes, len := len.toNat } addr { addr := addr, len := len } area]
      (afterPacket attached s bytes len addr area) :=
    .cons ⟨hrunning, trivial, rfl⟩ (.cons ⟨hrunning, fun _ => hcopies, rfl⟩ (.nil _))
  exact hs.run hrun

private theorem crafted_reachable :
    (sampleSystem behindFilter).Reachable
      (afterPacket behindFilter sampleOpened crafted.bytes 34 0 crafted.bytes) := by
  refine afterPacket_reachable (.of_init sampleOpened_opened) rfl ?_
  refine
    { held := by decide +kernel
      chunk := rfl
      len := rfl
      header := by decide
      inside := by decide
      bytes := fun i _ => congrArg crafted.bytes (Nat.zero_add i)
      elsewhere := ?_ }
  intro i hi
  have hfirst : i / 4096 ≠ 0 := hi
  have hfar : ¬(i = 12 ∨ i = 16 ∨ i = 17 ∨ i = 23) := by omega
  simp only [not_or] at hfar
  show crafted.bytes i = 0
  simp [crafted, hfar]

/-- Behind the filter a packet of 34 bytes is posted, and `poll_rx` throws. -/
theorem signals_in_order_crafted :
    let t := (afterPacket behindFilter sampleOpened crafted.bytes 34 0 crafted.bytes).apply
      xskDefault kernelDefault behindFilter (2 ^ 62 - 1) .poll
    t.fatal = some .lengthError ∧
      ∃ seen waiting, t.posted = seen ++ waiting ∧ Filtered t seen waiting ∧
        ∃ p rest, waiting = p :: rest ∧ isIPv4.run p.bytes = true ∧ p.len < 42 := by
  intro t
  have hreach := crafted_reachable.step (a := SessionOp.poll) (t := t) ⟨by decide, trivial, rfl⟩
  have hfatal : t.fatal = some .lengthError := by decide
  obtain ⟨seen, waiting, hposted, -, -, -, hstopped, hfiltered⟩ :=
    signals_in_order poolContract_default ⟨by decide, by decide⟩ hreach
  exact ⟨hfatal, seen, waiting, hposted, hfiltered rfl, (hstopped _ hfatal).2⟩

/-- The datagram in the second frame. -/
def secondFrame : Nat → UInt8 := fun i => if 4096 ≤ i then datagramArea (i - 4096) else 0

/-- A packet of 60 zero bytes, then a datagram of five bytes; whatever arrives is
redirected. -/
def twoPosted : Session XskRingCons XskRingProd :=
  afterPacket behindDefault (afterPacket behindDefault sampleOpened (fun _ => 0) 60 0 fun _ => 0)
    datagramArea 47 4096 secondFrame

private theorem twoPosted_reachable : (sampleSystem behindDefault).Reachable twoPosted := by
  have hfirst : (sampleSystem behindDefault).Reachable
      (afterPacket behindDefault sampleOpened (fun _ => 0) 60 0 fun _ => 0) := by
    refine afterPacket_reachable (.of_init sampleOpened_opened) rfl ?_
    exact
      { held := by decide +kernel
        chunk := rfl
        len := rfl
        header := by decide
        inside := by decide
        bytes := fun _ _ => rfl
        elsewhere := fun _ _ => rfl }
  refine afterPacket_reachable hfirst rfl ?_
  refine
    { held := by decide +kernel
      chunk := rfl
      len := rfl
      header := by decide
      inside := by decide
      bytes := ?_
      elsewhere := ?_ }
  · intro i _
    show secondFrame (4096 + i) = datagramArea i
    simp [secondFrame]
  · intro i hi
    have hsecond : i / 4096 ≠ 1 := hi
    show secondFrame i = 0
    by_cases hlow : 4096 ≤ i
    · have hfar : ¬(i - 4096 = 12 ∨ i - 4096 = 14 ∨ i - 4096 = 23 ∨ i - 4096 = 36 ∨
          i - 4096 = 37 ∨ i - 4096 = 39 ∨ 42 ≤ i - 4096 ∧ i - 4096 < 47) := by
        omega
      simp only [not_or] at hfar
      simp [secondFrame, hlow, datagramArea, hfar]
    · simp [secondFrame, hlow]

/-- The first packet is passed over, the datagram is printed. -/
theorem all_printed_datagram :
    ∃ n t, (sampleSystem behindDefault).Run twoPosted (List.replicate n .poll) t ∧
      t.fatal = none ∧ t.posted.length = 2 ∧ t.signals = [List.replicate 5 0x41] := by
  have hposted : twoPosted.posted =
      [{ bytes := fun _ => 0, len := 60 }, { bytes := datagramArea, len := 47 }] := rfl
  have hlong : ∀ p ∈ twoPosted.posted, isIPv4.run p.bytes = true → 42 ≤ p.len := by
    rw [hposted]
    simp
  obtain ⟨n, t, hrun, hfatal, hsame, hsignals, -⟩ := all_printed poolContract_default
    ⟨by decide, by decide⟩ twoPosted_reachable hlong
  refine ⟨n, t, hrun, hfatal, ?_, ?_⟩
  · rw [hsame, hposted]
    rfl
  · rw [hsignals, hposted]
    decide

end Session

end PorthCore.Ports.SignalPath
