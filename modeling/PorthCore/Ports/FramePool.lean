import Mathlib.Data.Multiset.Range
import PorthCore.Verified.Transition
import PorthCore.Ports.FrameOwnership
import PorthCore.Ports.NetworkPortal

/-!
# The 64 frames of `PorthNetworkPortal`

`prime_fill_ring` supplies 64 of the 4096 frames of the UMEM; from then on
every frame goes from the fill ring to the kernel, with a packet to the rx
ring, and through `poll_rx` back to the fill ring.  `poll_rx` drops a frame
for which the fill ring has no slot, and an exception drops one on the way
out.  Neither happens: 64 frames never fill 2048 slots, and the kernel posts
no short IPv4 packet.

A frame is the chunk of 4096 bytes its address lies in.  The kernel may
rewrite the area with every packet it posts; what it says about the packets
that wait stays true (`Posts`).
-/

namespace PorthCore.Ports.FramePool

open PorthCore.Verified.Transition
open PorthCore.Verified.ByteProbe
open PorthCore.Verified.ByteProbe.Probe
open PorthCore.Ports.XdpPortal
open PorthCore.Ports.XskRings
open PorthCore.Ports.FrameOwnership (frames frames_cons frames_concat frames_erase)
open PorthCore.Ports.NetworkPortal

variable {Rx Fill : Type}

/-! ## Priming -/

/-- The calls for several slots at once. -/
structure XskBatch (Fill : Type) where
  /-- `xsk_ring_prod__reserve`: the first of `n` slots, if so many are free. -/
  reserve : Fill → UInt32 → Option UInt32 × Fill
  /-- `xsk_ring_prod__submit`. -/
  submit : Fill → UInt32 → Fill

/-- `NUM_FRAMES` frames of `FRAME_SIZE` bytes. -/
def frameSize : UInt64 := 4096

/-- `FILL_RING_RESERVE_SIZE`. -/
def fillRingReserveSize : UInt32 := 64

/-- The frame an address lies in. -/
def chunkOf (addr : UInt64) : Nat := addr.toNat / 4096

/-- Consecutive stores through `xsk_ring_prod__fill_addr`. -/
def storeAll (xsk : Xsk Rx Fill) : Fill → UInt32 → List UInt64 → Fill
  | fill, _, [] => fill
  | fill, idx, addr :: addrs => storeAll xsk (xsk.setFillAddr fill idx addr) (idx + 1) addrs

/-- The starts of the first `n` frames. -/
def frameStarts (n : Nat) : List UInt64 :=
  (List.range n).map fun i => UInt64.ofNat i * frameSize

/-- `prime_fill_ring`. -/
def primeFillRing (xsk : Xsk Rx Fill) (batch : XskBatch Fill) (fillRing : Fill) : Fill :=
  match batch.reserve fillRing fillRingReserveSize with
  | (some idx, fill) =>
      batch.submit (storeAll xsk fill idx (frameStarts fillRingReserveSize.toNat))
        fillRingReserveSize
  | (none, fill) => batch.submit fill 0

/-- `reserve` succeeds exactly when enough of the 2048 slots are free, for one
slot and for several. -/
structure PoolContract (xsk : Xsk Rx Fill) (batch : XskBatch Fill) (kernel : Kernel Rx Fill)
    (rxHolds : Rx → Nat → List XdpDesc → Prop) (fillHolds : Fill → List UInt64 → Prop) : Prop
    extends XskContract xsk kernel rxHolds fillHolds where
  hasSlot_iff : ∀ {fill avail}, fillHolds fill avail →
    (Xsk.hasSlot xsk fill = true ↔ avail.length < 2048)
  reserve_batch : ∀ {fill avail} (addrs : List UInt64), fillHolds fill avail →
    avail.length + addrs.length ≤ 2048 →
      ∃ idx fill', batch.reserve fill (UInt32.ofNat addrs.length) = (some idx, fill') ∧
        fillHolds (batch.submit (storeAll xsk fill' idx addrs) (UInt32.ofNat addrs.length))
          (avail ++ addrs)

/-- The default fill ring. -/
def batchDefault : XskBatch XskRingProd where
  reserve fill n :=
    if n ≤ 2048 - (fill.cachedProd - fill.consumer) then
      (some fill.cachedProd, { fill with cachedProd := fill.cachedProd + n })
    else (none, fill)
  submit fill n := { fill with producer := fill.producer + n }

/-- Stores move no index. -/
theorem storeAll_indices (fill : XskRingProd) (idx : UInt32) (addrs : List UInt64) :
    (storeAll xskDefault fill idx addrs).consumer = fill.consumer ∧
      (storeAll xskDefault fill idx addrs).producer = fill.producer ∧
      (storeAll xskDefault fill idx addrs).cachedProd = fill.cachedProd := by
  induction addrs generalizing fill idx with
  | nil => exact ⟨rfl, rfl, rfl⟩
  | cons addr addrs ih => exact ih (xskDefault.setFillAddr fill idx addr) (idx + 1)

private theorem laid_storeAll {fill : XskRingProd} {pos : Nat} {avail : List UInt64}
    (h : Laid fill.entries pos avail) (addrs : List UInt64)
    (hroom : avail.length + addrs.length ≤ 2048) :
    Laid (storeAll xskDefault fill (UInt32.ofNat (pos + avail.length)) addrs).entries pos
      (avail ++ addrs) := by
  induction addrs generalizing fill avail with
  | nil => rwa [List.append_nil]
  | cons addr addrs ih =>
      rw [List.length_cons] at hroom
      have hnext := h.store (by omega) addr
      have hlen : pos + (avail ++ [addr]).length = pos + avail.length + 1 := by
        rw [List.length_append, List.length_singleton, Nat.add_assoc]
      have hrest := @ih (xskDefault.setFillAddr fill (UInt32.ofNat (pos + avail.length)) addr)
        (avail ++ [addr]) hnext (by rw [List.length_append, List.length_singleton]; omega)
      rw [hlen, ← ofNat_succ, List.append_assoc] at hrest
      exact hrest

theorem fillAt_dist {fill : XskRingProd} {pos : Nat} {avail : List UInt64}
    (h : FillAt fill pos avail) :
    fill.cachedProd - fill.consumer = UInt32.ofNat avail.length := by
  rw [h.cachedProd, h.producer, h.consumer, ofNat_add_sub]

private theorem fillAt_hasSlot {fill : XskRingProd} {pos : Nat} {avail : List UInt64}
    (h : FillAt fill pos avail) :
    Xsk.hasSlot xskDefault fill = true ↔ avail.length < 2048 := by
  rw [← ofNat_lt_2048 h.room, ← fillAt_dist h]
  unfold Xsk.hasSlot
  by_cases hfree : fill.cachedProd - fill.consumer < 2048
  · rw [show xskDefault.reserve fill = _ from if_pos hfree]
    exact ⟨fun _ => hfree, fun _ => rfl⟩
  · rw [show xskDefault.reserve fill = (none, fill) from if_neg hfree]
    exact ⟨fun h => Bool.noConfusion h, fun h => absurd h hfree⟩

private theorem fillAt_reserve_batch {fill : XskRingProd} {pos : Nat} {avail : List UInt64}
    (h : FillAt fill pos avail) (addrs : List UInt64)
    (hroom : avail.length + addrs.length ≤ 2048) :
    ∃ idx fill', batchDefault.reserve fill (UInt32.ofNat addrs.length) = (some idx, fill') ∧
      FillAt (batchDefault.submit (storeAll xskDefault fill' idx addrs)
        (UInt32.ofNat addrs.length)) pos (avail ++ addrs) := by
  have hfree : UInt32.ofNat addrs.length ≤ 2048 - (fill.cachedProd - fill.consumer) := by
    have hsub : (2048 - UInt32.ofNat avail.length).toNat = 2048 - avail.length := by
      have hle : UInt32.ofNat avail.length ≤ 2048 := by
        rw [UInt32.le_iff_toNat_le, UInt32.toNat_ofNat', Nat.mod_eq_of_lt (by omega)]
        show avail.length ≤ 2048
        omega
      rw [UInt32.toNat_sub_of_le _ _ hle, UInt32.toNat_ofNat', Nat.mod_eq_of_lt (by omega)]
      rfl
    rw [fillAt_dist h, UInt32.le_iff_toNat_le, hsub, UInt32.toNat_ofNat',
      Nat.mod_eq_of_lt (by omega)]
    omega
  have hindex : fill.cachedProd = UInt32.ofNat (pos + avail.length) :=
    h.cachedProd.trans h.producer
  have hlaid : Laid (storeAll xskDefault
      { fill with cachedProd := fill.cachedProd + UInt32.ofNat addrs.length }
      (UInt32.ofNat (pos + avail.length)) addrs).entries pos (avail ++ addrs) :=
    @laid_storeAll { fill with cachedProd := fill.cachedProd + UInt32.ofNat addrs.length } pos
      avail h.slots addrs hroom
  rw [← hindex] at hlaid
  refine ⟨_, _, if_pos hfree, ?_⟩
  obtain ⟨hconsumer, hproducer, hcached⟩ := storeAll_indices
    { fill with cachedProd := fill.cachedProd + UInt32.ofNat addrs.length } fill.cachedProd addrs
  exact
    { consumer := hconsumer.trans h.consumer
      producer := by
        show (storeAll xskDefault _ _ addrs).producer + _ = _
        rw [hproducer, List.length_append, ← Nat.add_assoc, UInt32.ofNat_add]
        exact congrArg (· + _) h.producer
      cachedProd := by
        show (storeAll xskDefault _ _ addrs).cachedProd =
          (storeAll xskDefault _ _ addrs).producer + _
        rw [hcached, hproducer]
        exact congrArg (· + _) h.cachedProd
      room := by
        rw [List.length_append]
        exact hroom
      slots := hlaid }

theorem poolContract_default :
    PoolContract xskDefault batchDefault kernelDefault RxHolds FillHolds where
  toXskContract := xskDefault_contract
  hasSlot_iff := fun ⟨_, h⟩ => fillAt_hasSlot h
  reserve_batch := fun addrs ⟨pos, h⟩ hroom => by
    obtain ⟨idx, fill', hreserve, hnext⟩ := fillAt_reserve_batch h addrs hroom
    exact ⟨idx, fill', hreserve, pos, hnext⟩

/-! ## The machine -/

/-- The portal, its UMEM, and the addresses the kernel took and has not used. -/
structure Pool (Rx Fill : Type) where
  portal : PorthNetworkPortal Rx Fill
  area : Nat → UInt8
  held : List UInt64

/-- A call of `poll_rx`, or what the kernel does in between. -/
inductive PoolOp
  | poll
  | take
  /-- The kernel uses the frame at `addr` for the packet `desc`; `area` is the
  UMEM afterwards. -/
  | post (addr : UInt64) (desc : XdpDesc) (area : Nat → UInt8)

namespace Pool

section Machine

variable (xsk : Xsk Rx Fill) (batch : XskBatch Fill) (kernel : Kernel Rx Fill) (stringMax : Nat)
  (rxHolds : Rx → Nat → List XdpDesc → Prop) (fillHolds : Fill → List UInt64 → Prop)

/-- The portal is polled. -/
def afterPoll (s : Pool Rx Fill) : Pool Rx Fill :=
  { s with portal := (pollRx xsk stringMax s.area s.portal).portal }

/-- The kernel takes a frame out of the fill ring, if there is one. -/
def afterTake (s : Pool Rx Fill) : Pool Rx Fill :=
  match kernel.take s.portal.fillRing with
  | some (addr, fill) =>
      { s with
        portal := { s.portal with fillRing := fill }
        held := s.held ++ [addr] }
  | none => s

/-- The kernel posts a packet in a frame it holds, if the rx ring has room. -/
def afterPost (s : Pool Rx Fill) (addr : UInt64) (desc : XdpDesc) (area : Nat → UInt8) :
    Pool Rx Fill :=
  match kernel.post s.portal.rxRing desc with
  | some rx =>
      { portal := { s.portal with rxRing := rx }
        area := area
        held := s.held.erase addr }
  | none => s

/-- One step of the portal or of the kernel. -/
def apply (s : Pool Rx Fill) : PoolOp → Pool Rx Fill
  | .poll => s.afterPoll xsk stringMax
  | .take => s.afterTake kernel
  | .post addr desc area => s.afterPost kernel addr desc area

/-- Not IPv4 by the test of `poll_rx`, or as long as the prefix it skips. -/
def Harmless (area : Nat → UInt8) (desc : XdpDesc) : Prop :=
  isIPv4.run (frameAt area desc).bytes = false ∨ 42 ≤ desc.len.toNat

/-- The kernel posts a frame it holds, at any address inside, and leaves all
packets that wait harmless. -/
def Posts (s : Pool Rx Fill) : PoolOp → Prop
  | .poll | .take => True
  | .post addr desc area =>
      addr ∈ s.held ∧ chunkOf desc.addr = chunkOf addr ∧
        ∀ lag pending, rxHolds s.portal.rxRing lag pending →
          ∀ other ∈ pending ++ [desc], Harmless area other

/-- A fill ring primed once when it was fresh, and nothing anywhere else. -/
structure Primed (s : Pool Rx Fill) : Prop where
  fill : ∃ fresh, fillHolds fresh [] ∧ s.portal.fillRing = primeFillRing xsk batch fresh
  rx : rxHolds s.portal.rxRing 0 []
  held : s.held = []

/-- The portal between calls, beside the kernel. -/
def system : System (Pool Rx Fill) PoolOp where
  init := Primed xsk batch rxHolds fillHolds
  step := fun s op t => Posts rxHolds s op ∧ t = s.apply xsk kernel stringMax op

/-- What the rings hold, each of the 64 frames in one place, and no packet
that would throw. -/
structure Placed (s : Pool Rx Fill) (pending : List XdpDesc) (avail : List UInt64) : Prop where
  rx : rxHolds s.portal.rxRing 0 pending
  fill : fillHolds s.portal.fillRing avail
  once : frames chunkOf avail + frames chunkOf s.held +
    frames (fun desc => chunkOf desc.addr) pending = Multiset.range 64
  harmless : ∀ desc ∈ pending, Harmless s.area desc

end Machine

variable {xsk : Xsk Rx Fill} {batch : XskBatch Fill} {kernel : Kernel Rx Fill} {stringMax : Nat}
  {rxHolds : Rx → Nat → List XdpDesc → Prop} {fillHolds : Fill → List UInt64 → Prop}
  {s : Pool Rx Fill} {pending : List XdpDesc} {avail : List UInt64}

/-! ## Priming puts 64 frames into the fill ring -/

private theorem frames_frameStarts : frames chunkOf (frameStarts 64) = Multiset.range 64 := by
  have hchunks : (frameStarts 64).map chunkOf = List.range 64 := by decide
  rw [frames, hchunks]
  rfl

private theorem fillHolds_prime (hc : PoolContract xsk batch kernel rxHolds fillHolds)
    {fresh : Fill} (hfresh : fillHolds fresh []) :
    fillHolds (primeFillRing xsk batch fresh) (frameStarts 64) := by
  obtain ⟨idx, fill', hreserve, hnext⟩ :=
    hc.reserve_batch (frameStarts 64) hfresh (by decide)
  have hcount : UInt32.ofNat (frameStarts 64).length = fillRingReserveSize := rfl
  rw [hcount] at hreserve hnext
  rw [primeFillRing, hreserve]
  exact hnext

theorem Primed.placed (hc : PoolContract xsk batch kernel rxHolds fillHolds)
    (h : Primed xsk batch rxHolds fillHolds s) :
    Placed rxHolds fillHolds s [] (frameStarts 64) := by
  obtain ⟨fresh, hfresh, hfill⟩ := h.fill
  refine ⟨h.rx, hfill ▸ fillHolds_prime hc hfresh, ?_, fun desc hdesc => by cases hdesc⟩
  rw [h.held, frames_frameStarts]
  rfl

/-! ## Every operation keeps the frames apart -/

/-- 64 frames do not fill 2048 slots. -/
theorem Placed.hasSlot (hc : PoolContract xsk batch kernel rxHolds fillHolds)
    (h : Placed rxHolds fillHolds s pending avail) :
    Xsk.hasSlot xsk s.portal.fillRing = true := by
  have hcard := congrArg Multiset.card h.once
  simp only [frames, Multiset.card_add, Multiset.coe_card, List.length_map, Multiset.card_range]
    at hcard
  exact (hc.hasSlot_iff h.fill).mpr (by omega)

/-- A harmless packet does not throw. -/
theorem Harmless.extract (hmax : SizeLimit stringMax) {area : Nat → UInt8} {desc : XdpDesc}
    (h : Harmless area desc) :
    ∃ printed, (extract stringMax desc.len).run (frameAt area desc).bytes = .ok printed := by
  cases htype : isIPv4.run (frameAt area desc).bytes with
  | false => exact ⟨none, (extract_other htype).1⟩
  | true =>
      rcases h with hother | hlen
      · rw [htype] at hother
        cases hother
      · exact ⟨_, (extract_payload hmax htype hlen).1⟩

theorem Placed.poll (hc : PoolContract xsk batch kernel rxHolds fillHolds)
    (hmax : SizeLimit stringMax) (h : Placed rxHolds fillHolds s pending avail) :
    ∃ pending' avail', Placed rxHolds fillHolds (s.afterPoll xsk stringMax) pending' avail' := by
  cases pending with
  | nil =>
      obtain ⟨rx, hrx, hportal⟩ := pollRx_nil hc.toXskContract h.rx
      refine ⟨[], avail, ?_, ?_, h.once, h.harmless⟩
      · rw [afterPoll, hportal]
        exact hrx
      · rw [afterPoll, hportal]
        exact h.fill
  | cons desc rest =>
      obtain ⟨hhead, hrest⟩ := List.forall_mem_cons.mp h.harmless
      obtain ⟨printed, hrun⟩ := hhead.extract hmax
      obtain ⟨rx, hrx, hout⟩ := pollRx_ok hc.toXskContract h.rx hrun
      have hfill := holds_refill hc.toXskContract rx h.fill desc.addr
      rw [recycledAvail, h.hasSlot hc, if_pos rfl] at hfill
      refine ⟨rest, avail ++ [desc.addr], ?_, ?_, ?_, hrest⟩
      · rw [afterPoll, hout]
        exact hrx
      · rw [afterPoll, hout]
        exact hfill
      · have honce := h.once
        rw [frames_cons] at honce
        rw [frames_concat, ← honce]
        show frames chunkOf avail + {chunkOf desc.addr} + frames chunkOf s.held + _ = _
        ac_rfl

theorem Placed.take (hc : PoolContract xsk batch kernel rxHolds fillHolds)
    (h : Placed rxHolds fillHolds s pending avail) :
    ∃ avail', Placed rxHolds fillHolds (s.afterTake kernel) pending avail' := by
  unfold afterTake
  cases htake : kernel.take s.portal.fillRing with
  | none => exact ⟨avail, h⟩
  | some taken =>
      obtain ⟨addr, fill⟩ := taken
      obtain ⟨avail', rfl, hfill⟩ := hc.take h.fill htake
      refine ⟨avail', h.rx, hfill, ?_, h.harmless⟩
      have honce := h.once
      rw [frames_cons] at honce
      rw [frames_concat, ← honce]
      ac_rfl

theorem Placed.post (hc : PoolContract xsk batch kernel rxHolds fillHolds)
    (h : Placed rxHolds fillHolds s pending avail) {addr : UInt64} {desc : XdpDesc}
    {area : Nat → UInt8} (hpost : Posts rxHolds s (.post addr desc area)) :
    ∃ pending', Placed rxHolds fillHolds (s.afterPost kernel addr desc area) pending' avail := by
  obtain ⟨hheld, hchunk, hharmless⟩ := hpost
  unfold afterPost
  cases hresult : kernel.post s.portal.rxRing desc with
  | none => exact ⟨pending, h⟩
  | some rx =>
      refine ⟨pending ++ [desc], hc.post h.rx hresult, h.fill, ?_, hharmless 0 pending h.rx⟩
      have honce := h.once
      rw [frames_erase chunkOf hheld] at honce
      rw [frames_concat, hchunk, ← honce]
      ac_rfl

theorem Placed.step (hc : PoolContract xsk batch kernel rxHolds fillHolds)
    (hmax : SizeLimit stringMax) (h : Placed rxHolds fillHolds s pending avail) {op : PoolOp}
    (hop : Posts rxHolds s op) :
    ∃ pending' avail', Placed rxHolds fillHolds (s.apply xsk kernel stringMax op) pending'
      avail' := by
  cases op with
  | poll => exact h.poll hc hmax
  | take =>
      obtain ⟨avail', hnext⟩ := h.take hc
      exact ⟨pending, avail', hnext⟩
  | post addr desc area =>
      obtain ⟨pending', hnext⟩ := h.post hc hop
      exact ⟨pending', avail, hnext⟩

/-- **No frame is lost or doubled.**  Once primed, whatever the kernel takes
and posts and whenever `poll_rx` is called, each of the 64 frames is in the
fill ring, with the kernel or in the rx ring, and in one of them only, and the
fill ring has a slot for the next frame `poll_rx` returns. -/
theorem frames_conserved (hc : PoolContract xsk batch kernel rxHolds fillHolds)
    (hmax : SizeLimit stringMax)
    (h : (system xsk batch kernel stringMax rxHolds fillHolds).Reachable s) :
    ∃ pending avail, Placed rxHolds fillHolds s pending avail ∧
      Xsk.hasSlot xsk s.portal.fillRing = true := by
  have hplaced : ∃ pending avail, Placed rxHolds fillHolds s pending avail := by
    refine System.Reachable.invariant
      (I := fun s => ∃ pending avail, Placed rxHolds fillHolds s pending avail) ?_ ?_ h
    · intro s hs
      exact ⟨[], _, Primed.placed hc hs⟩
    · rintro s op t ⟨pending, avail, hs⟩ ⟨hop, rfl⟩
      exact hs.step hc hmax hop
  obtain ⟨pending, avail, hs⟩ := hplaced
  exact ⟨pending, avail, hs, hs.hasSlot hc⟩

/-! ## One frame around -/

/-- A packet of 60 bytes in the first frame, behind a headroom of 128. -/
def sampleDesc : XdpDesc := { addr := 128, len := 60 }

/-- Empty rings, the fill ring primed, and a UMEM of zeros. -/
def samplePrimed : Pool XskRingCons XskRingProd where
  portal :=
    { rxRing := rxOf sampleDesc 0
      fillRing := primeFillRing xskDefault batchDefault fillEmpty }
  area := fun _ => 0
  held := []

theorem samplePrimed_primed : Primed xskDefault batchDefault RxHolds FillHolds samplePrimed where
  fill := ⟨fillEmpty, fillHolds_fillEmpty, rfl⟩
  rx := rxHolds_rxOf sampleDesc (Nat.zero_le _)
  held := rfl

/-- Taken, posted and polled. -/
def sampleRound : Pool XskRingCons XskRingProd :=
  ((samplePrimed.afterTake kernelDefault).afterPost kernelDefault 0 sampleDesc
    fun _ => 0).afterPoll xskDefault (2 ^ 62 - 1)

theorem frames_conserved_one_round :
    ∃ pending avail, Placed RxHolds FillHolds sampleRound pending avail ∧
      Xsk.hasSlot xskDefault sampleRound.portal.fillRing = true := by
  have hposts : Posts RxHolds (samplePrimed.afterTake kernelDefault)
      (.post 0 sampleDesc fun _ => 0) := by
    refine ⟨by decide +kernel, by decide, ?_⟩
    intro lag pending hrx other hother
    exact .inl rfl
  have hrun : (system xskDefault batchDefault kernelDefault (2 ^ 62 - 1) RxHolds FillHolds).Run
      samplePrimed [.take, .post 0 sampleDesc fun _ => 0, .poll] sampleRound :=
    .cons ⟨trivial, rfl⟩ (.cons ⟨hposts, rfl⟩ (.cons ⟨trivial, rfl⟩ (.nil _)))
  exact frames_conserved poolContract_default ⟨by decide, by decide⟩
    ((System.Reachable.of_init samplePrimed_primed).run hrun)

end Pool

end PorthCore.Ports.FramePool
