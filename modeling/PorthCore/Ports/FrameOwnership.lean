import Mathlib.Algebra.Order.Group.Multiset
import PorthCore.Ports.Reception

/-!
# Who owns a frame

A frame goes from the fill ring to the kernel, with a packet to the rx ring,
and by its descriptor to the shuttle.  `bridge_to_shuttle` hands a valid packet
over and, in the same call, puts its frame back into the fill ring: if there
is a slot, the frame is in the shuttle and with the NIC at once.

A frame is what `frame` makes of an address.  The kernel writes only into
frames it holds, and `xsk_umem__add_offset_to_addr` does not leave the frame.
As long as no call hands a packet over while the fill ring has a slot, no frame
has two owners (`exclusive_ownership`).
-/

namespace PorthCore.Ports.FrameOwnership

open PorthCore.Verified.Transition
open PorthCore.Ports.RingBuffer
open PorthCore.Ports.XdpPortal
open PorthCore.Ports.XskRings
open PorthCore.Ports.Reception
open PorthCore.Ports.Reception.RxPath

variable {Rx Fill φ : Type}

/-- What the kernel does: it posts packets in frames it holds. -/
def Lawful (xsk : Xsk Rx Fill) (frame : UInt64 → φ) (s : RxPath Rx Fill) : RxPathOp → Prop
  | .post addr desc =>
      addr ∈ s.held ∧ frame desc.addr = frame addr ∧
        frame (xsk.addOffsetToAddr desc.addr) = frame addr
  | .bridge | .pop _ | .take => True

/-- The frames supplied are pairwise distinct. -/
structure Supplied (xsk : Xsk Rx Fill) (frame : UInt64 → φ) (s : RxPath Rx Fill) : Prop where
  distinct : (s.supplied.map frame ++ s.produced.map fun desc => frame desc.addr).Nodup
  located : ∀ desc ∈ s.produced, frame (xsk.addOffsetToAddr desc.addr) = frame desc.addr

/-- No frame is in the fill ring and behind a queued descriptor. -/
def Exclusive (fillHolds : Fill → List UInt64 → Prop) (g : RingGeometry) (frame : UInt64 → φ)
    (s : RxPath Rx Fill) : Prop :=
  ∀ avail pos q, fillHolds s.portal.fillRing avail → Represents g s.ring pos q →
    ∀ addr ∈ avail, ∀ desc ∈ q, frame addr ≠ frame desc.addr

/-- A call that does not hand a packet over while the fill ring has a slot. -/
def Withholds (xsk : Xsk Rx Fill) (g : RingGeometry) (s : RxPath Rx Fill) : RxPathOp → Prop
  | .bridge =>
      ∀ desc, peeked xsk s.portal.rxRing = some desc → s.portal.accepts xsk desc = true →
        advance g.size s.ring.head ≠ s.ring.tail.toUInt64 →
          Xsk.hasSlot xsk s.portal.fillRing = false
  | .pop _ | .post _ _ | .take => True

/-! ## The frames of all owners -/

/-- The frames of a list of descriptors or addresses. -/
def frames {α : Type} (f : α → φ) (l : List α) : Multiset φ := l.map f

theorem frames_cons {α : Type} (f : α → φ) (x : α) (l : List α) :
    frames f (x :: l) = {f x} + frames f l := rfl

theorem frames_concat {α : Type} (f : α → φ) (l : List α) (x : α) :
    frames f (l ++ [x]) = frames f l + {f x} := by
  rw [frames, List.map_append, ← Multiset.coe_add]
  rfl

theorem frames_erase (f : UInt64 → φ) {l : List UInt64} {x : UInt64} (hx : x ∈ l) :
    frames f l = {f x} + frames f (l.erase x) := by
  rw [← frames_cons]
  exact Multiset.coe_eq_coe.mpr ((List.perm_cons_erase hx).map f)

/-- The frames in the fill ring, with the kernel, in the rx ring and in the
shuttle. -/
def owned (frame : UInt64 → φ) (avail held : List UInt64) (pending : List XdpDesc)
    (q : List PorthDescriptor) : Multiset φ :=
  frames frame avail + frames frame held + frames (fun desc => frame desc.addr) pending +
    frames (fun desc => frame desc.addr) q

section

variable (xsk : Xsk Rx Fill) (rxHolds : Rx → Nat → List XdpDesc → Prop)
  (fillHolds : Fill → List UInt64 → Prop) (g : RingGeometry) (frame : UInt64 → φ)

/-- No frame has two owners. -/
structure Owned (s : RxPath Rx Fill) (lag : Nat) (pending : List XdpDesc)
    (avail : List UInt64) (pos : Nat) (q : List PorthDescriptor) : Prop where
  view : View rxHolds fillHolds g s lag pending avail pos q
  distinct : (owned frame avail s.held pending q).Nodup
  located : ∀ desc ∈ pending, frame (xsk.addOffsetToAddr desc.addr) = frame desc.addr

/-- Some state of the rings has every frame in one place. -/
def SingleOwner (s : RxPath Rx Fill) : Prop :=
  ∃ lag pending avail pos q, Owned xsk rxHolds fillHolds g frame s lag pending avail pos q

end

variable {xsk : Xsk Rx Fill} {kernel : Kernel Rx Fill}
  {rxHolds : Rx → Nat → List XdpDesc → Prop} {fillHolds : Fill → List UInt64 → Prop}
  {g : RingGeometry} {frame : UInt64 → φ} {s t : RxPath Rx Fill} {lag pos : Nat}
  {pending : List XdpDesc} {avail : List UInt64} {q : List PorthDescriptor}

theorem start_owned (h : Start rxHolds fillHolds s) (hsupplied : Supplied xsk frame s) :
    Owned xsk rxHolds fillHolds g frame s 0 s.produced s.supplied 0 [] := by
  obtain ⟨slots, hslots⟩ := h.fresh
  have hdistinct : (owned frame s.supplied s.held s.produced []).Nodup := by
    have hnodup := hsupplied.distinct
    rw [← Multiset.coe_nodup, ← Multiset.coe_add] at hnodup
    rw [owned, h.held]
    show (frames frame s.supplied + 0 + frames (fun desc => frame desc.addr) s.produced +
      0).Nodup
    rw [add_zero, add_zero]
    exact hnodup
  exact
    { view :=
        { rx := h.rx
          fill := h.fill
          queue := hslots ▸ represents_fresh g slots }
      distinct := hdistinct
      located := hsupplied.located }

namespace Owned

/-- Single owners are exclusive. -/
theorem exclusive (hc : XskContract xsk kernel rxHolds fillHolds)
    (h : Owned xsk rxHolds fillHolds g frame s lag pending avail pos q) :
    Exclusive fillHolds g frame s := by
  intro avail' pos' q' hfill hqueue addr haddr desc hdesc heq
  obtain rfl := hc.fill_unique h.view.fill hfill
  obtain rfl := h.view.queue.unique hqueue
  have hdisjoint := (Multiset.nodup_add.mp h.distinct).2.2
  have hleft : frame addr ∈ frames frame avail + frames frame s.held +
      frames (fun desc => frame desc.addr) pending :=
    Multiset.mem_add.mpr (.inl (Multiset.mem_add.mpr (.inl
      (Multiset.mem_coe.mpr (List.mem_map_of_mem haddr)))))
  have hright : frame addr ∈ frames (fun desc : PorthDescriptor => frame desc.addr) q := by
    rw [heq]
    exact Multiset.mem_coe.mpr (List.mem_map_of_mem hdesc)
  exact Multiset.disjoint_left.mp hdisjoint hleft hright

/-! ### One operation -/

/-- The oldest entry leaves the rx ring, its frame goes nowhere. -/
theorem drop_head {desc : XdpDesc}
    (hnodup : (owned frame avail s.held (desc :: pending) q).Nodup) :
    (owned frame avail s.held pending q).Nodup := by
  refine Multiset.nodup_of_le ?_ hnodup
  rw [owned, owned, frames_cons]
  exact Multiset.le_iff_exists_add.mpr ⟨{frame desc.addr}, by ac_rfl⟩

/-- The oldest entry leaves the rx ring, its frame goes to the fill ring. -/
theorem recycle_head {desc : XdpDesc}
    (hnodup : (owned frame avail s.held (desc :: pending) q).Nodup) :
    (owned frame (avail ++ [desc.addr]) s.held pending q).Nodup := by
  have hsame : owned frame (avail ++ [desc.addr]) s.held pending q =
      owned frame avail s.held (desc :: pending) q := by
    rw [owned, owned, frames_cons, frames_concat]
    ac_rfl
  rwa [hsame]

/-- The oldest entry leaves the rx ring, its frame goes to the shuttle. -/
theorem hand_over_head {desc : XdpDesc} {handed : PorthDescriptor}
    (hframe : frame handed.addr = frame desc.addr)
    (hnodup : (owned frame avail s.held (desc :: pending) q).Nodup) :
    (owned frame avail s.held pending (q ++ [handed])).Nodup := by
  have hsame : owned frame avail s.held pending (q ++ [handed]) =
      owned frame avail s.held (desc :: pending) q := by
    rw [owned, owned, frames_cons, frames_concat, hframe]
    ac_rfl
  rwa [hsame]

theorem bridge (hc : XskContract xsk kernel rxHolds fillHolds)
    (h : Owned xsk rxHolds fillHolds g frame s lag pending avail pos q)
    (hop : Withholds xsk g s .bridge) :
    SingleOwner xsk rxHolds fillHolds g frame (s.afterBridge xsk g) := by
  cases pending with
  | nil => exact ⟨lag, [], avail, pos, q, (h.view.bridge_nil hc).1, h.distinct, h.located⟩
  | cons desc rest =>
      obtain ⟨hhead, hrest⟩ := List.forall_mem_cons.mp h.located
      cases hvalid : s.portal.accepts xsk desc with
      | false =>
          refine ⟨lag, rest, _, pos, q, (h.view.bridge_invalid hc hvalid).1, ?_, hrest⟩
          unfold recycledAvail
          split
          · exact recycle_head h.distinct
          · exact drop_head h.distinct
      | true =>
          by_cases hroom : q.length + 1 < g.period
          · have hslot := hop desc (peeked_cons hc h.view.rx) hvalid (h.view.room_iff.mpr hroom)
            refine ⟨lag, rest, _, pos, _, (h.view.bridge_forwarded hc hvalid hroom).1, ?_, hrest⟩
            rw [recycledAvail, hslot]
            exact hand_over_head hhead h.distinct
          · have hlt := h.view.queue.room
            exact ⟨lag + 1, rest, avail, pos, q,
              (h.view.bridge_refused hc hvalid (by omega)).1, drop_head h.distinct, hrest⟩

/-- A call that hands a packet over while the fill ring has a slot gives its
frame two owners. -/
theorem withholds_of_bridge (hc : XskContract xsk kernel rxHolds fillHolds)
    (h : Owned xsk rxHolds fillHolds g frame s lag pending avail pos q)
    (hnext : Exclusive fillHolds g frame (s.afterBridge xsk g)) :
    Withholds xsk g s .bridge := by
  intro desc hpeeked hvalid hfree
  cases pending with
  | nil =>
      rw [peeked_nil hc h.view.rx] at hpeeked
      cases hpeeked
  | cons head rest =>
      rw [peeked_cons hc h.view.rx] at hpeeked
      obtain rfl := Option.some.inj hpeeked
      have hview := (h.view.bridge_forwarded hc hvalid (h.view.room_iff.mp hfree)).1
      by_contra hnot
      have hslot : Xsk.hasSlot xsk s.portal.fillRing = true := Bool.eq_true_of_not_eq_false hnot
      have havail : head.addr ∈ recycledAvail xsk s.portal.fillRing avail head.addr := by
        rw [recycledAvail, hslot, if_pos rfl]
        exact List.mem_concat_self
      exact hnext _ _ _ hview.fill hview.queue _ havail _ List.mem_concat_self
        (h.located head List.mem_cons_self).symm

theorem pop (h : Owned xsk rxHolds fillHolds g frame s lag pending avail pos q)
    (outDesc : PorthDescriptor) :
    SingleOwner xsk rxHolds fillHolds g frame (s.afterPop g outDesc) := by
  cases q with
  | nil =>
      rw [h.view.pop_nil outDesc]
      exact ⟨lag, pending, avail, pos, [], h⟩
  | cons head q =>
      refine ⟨lag, pending, avail, pos + 1, q, (h.view.pop_cons outDesc).1, ?_, h.located⟩
      refine Multiset.nodup_of_le ?_ h.distinct
      rw [owned, owned, frames_cons]
      exact Multiset.le_iff_exists_add.mpr ⟨{frame head.addr}, by ac_rfl⟩

theorem post (hc : XskContract xsk kernel rxHolds fillHolds)
    (h : Owned xsk rxHolds fillHolds g frame s lag pending avail pos q) {addr : UInt64}
    {desc : XdpDesc} (hop : Lawful xsk frame s (.post addr desc)) :
    SingleOwner xsk rxHolds fillHolds g frame (s.afterPost kernel addr desc) := by
  obtain ⟨hheld, hframe, hresolved⟩ := hop
  rcases h.view.post hc addr desc with heq | ⟨rx, heq, hrx⟩
  · rw [heq]
    exact ⟨lag, pending, avail, pos, q, h⟩
  · rw [heq]
    refine ⟨lag, pending ++ [desc], avail, pos, q, ⟨hrx, h.view.fill, h.view.queue⟩, ?_, ?_⟩
    · have hsame : owned frame avail (s.held.erase addr) (pending ++ [desc]) q =
          owned frame avail s.held pending q := by
        rw [owned, owned, frames_concat, frames_erase frame hheld, hframe]
        ac_rfl
      show (owned frame avail (s.held.erase addr) (pending ++ [desc]) q).Nodup
      rw [hsame]
      exact h.distinct
    · intro other hother
      rcases List.mem_append.mp hother with hold | hnew
      · exact h.located other hold
      · rw [List.mem_singleton.mp hnew, hresolved, hframe]

theorem take (hc : XskContract xsk kernel rxHolds fillHolds)
    (h : Owned xsk rxHolds fillHolds g frame s lag pending avail pos q) :
    SingleOwner xsk rxHolds fillHolds g frame (s.afterTake kernel) := by
  rcases h.view.take hc with heq | ⟨addr, avail', fill, rfl, heq, hfill⟩
  · rw [heq]
    exact ⟨lag, pending, avail, pos, q, h⟩
  · rw [heq]
    refine ⟨lag, pending, avail', pos, q, ⟨h.view.rx, hfill, h.view.queue⟩, ?_, h.located⟩
    have hsame : owned frame avail' (s.held ++ [addr]) pending q =
        owned frame (addr :: avail') s.held pending q := by
      rw [owned, owned, frames_cons, frames_concat]
      ac_rfl
    show (owned frame avail' (s.held ++ [addr]) pending q).Nodup
    rw [hsame]
    exact h.distinct

theorem step (hc : XskContract xsk kernel rxHolds fillHolds)
    (h : Owned xsk rxHolds fillHolds g frame s lag pending avail pos q) {op : RxPathOp}
    (hlawful : Lawful xsk frame s op) (hop : Withholds xsk g s op) :
    SingleOwner xsk rxHolds fillHolds g frame (s.apply xsk kernel g op) := by
  cases op with
  | bridge => exact h.bridge hc hop
  | pop outDesc => exact h.pop outDesc
  | post addr desc => exact h.post hc hlawful
  | take => exact h.take hc

end Owned

/-! ## Runs -/

/-- A law-abiding kernel and calls that withhold. -/
def withholding (xsk : Xsk Rx Fill) (kernel : Kernel Rx Fill)
    (rxHolds : Rx → Nat → List XdpDesc → Prop) (fillHolds : Fill → List UInt64 → Prop)
    (g : RingGeometry) (frame : UInt64 → φ) : System (RxPath Rx Fill) RxPathOp :=
  ((system rxHolds fillHolds g xsk kernel).restrict (Lawful xsk frame)).restrict (Withholds xsk g)

theorem singleOwner_of_run (hc : XskContract xsk kernel rxHolds fillHolds)
    (hstart : Start rxHolds fillHolds s) (hsupplied : Supplied xsk frame s) {ops : List RxPathOp}
    (hrun : (withholding xsk kernel rxHolds fillHolds g frame).Run s ops t) :
    SingleOwner xsk rxHolds fillHolds g frame t := by
  refine System.Run.preserves (I := SingleOwner xsk rxHolds fillHolds g frame) ?_ hrun
    ⟨_, _, _, _, _, start_owned hstart hsupplied⟩
  rintro u op v ⟨lag, pending, avail, pos, q, hu⟩ ⟨hop, hlawful, rfl⟩
  exact hu.step hc hlawful hop

/-- **When frames are owned exclusively.**  From any supply of distinct frames
and with a kernel that uses the frames it took, in every run whose calls never
hand a packet over while the fill ring has a slot, no frame is with the NIC
and in the shuttle in any state reached.  And the next call of such a run
keeps it so only if it is such a call. -/
theorem exclusive_ownership (hc : XskContract xsk kernel rxHolds fillHolds)
    (hstart : Start rxHolds fillHolds s) (hsupplied : Supplied xsk frame s) :
    (∀ ops t, (withholding xsk kernel rxHolds fillHolds g frame).Run s ops t →
        Exclusive fillHolds g frame t) ∧
      ∀ ops t, (withholding xsk kernel rxHolds fillHolds g frame).Run s ops t →
        (Exclusive fillHolds g frame (t.afterBridge xsk g) ↔ Withholds xsk g t .bridge) := by
  constructor
  · intro ops t hrun
    obtain ⟨lag, pending, avail, pos, q, ht⟩ := singleOwner_of_run hc hstart hsupplied hrun
    exact ht.exclusive hc
  · intro ops t hrun
    obtain ⟨lag, pending, avail, pos, q, ht⟩ := singleOwner_of_run hc hstart hsupplied hrun
    constructor
    · intro hnext
      exact ht.withholds_of_bridge hc hnext
    · intro hop
      obtain ⟨lag', pending', avail', pos', q', hnext⟩ := ht.bridge hc hop
      exact hnext.exclusive hc

/-! ## A packet outside and one inside the bound memory -/

/-- Frames of 4096 bytes. -/
def chunk (addr : UInt64) : UInt64 := addr / 4096

private theorem sample_supplied {desc : XdpDesc}
    (hlocated : chunk (xskDefault.addOffsetToAddr desc.addr) = chunk desc.addr) :
    Supplied xskDefault chunk (sample desc 1) where
  distinct := List.nodup_singleton _
  located := by
    intro other hother
    rw [List.eq_of_mem_replicate hother]
    exact hlocated

/-- The frames from 0 up. -/
def nthFrame (i : UInt32) : UInt64 := 4096 * i.toUInt64

theorem chunk_nthFrame {i : Nat} (hi : i < 2048) :
    (chunk (nthFrame (UInt32.ofNat i))).toNat = i := by
  simp only [chunk, nthFrame, UInt64.toNat_div, UInt64.toNat_mul, UInt32.toNat_toUInt64,
    UInt32.toNat_ofNat']
  rw [show (4096 : UInt64).toNat = 4096 from rfl]
  omega

/-- A packet in a frame above all those in the fill ring, which is full. -/
def crowded : RxPath XskRingCons XskRingProd where
  portal :=
    { rxRing := rxOf { addr := 0x900000, len := 64 } 1
      fillRing := fillOf nthFrame 2048
      umemStart := 0
      umemEnd := 0x1000000 }
  ring := .fresh fun _ => default
  stats := some .zero
  produced := [{ addr := 0x900000, len := 64 }]
  handled := []
  popped := []
  supplied := (List.range 2048).map fun i => nthFrame (UInt32.ofNat i)
  taken := []
  held := []

private theorem crowded_start : Start RxHolds FillHolds crowded where
  fresh := ⟨_, rfl⟩
  stats := rfl
  rx := rxHolds_rxOf _ (by decide)
  fill := by
    simp only [crowded]
    exact fillHolds_fillOf nthFrame (Nat.le_refl 2048)
  handled := rfl
  popped := rfl
  taken := rfl
  held := rfl

private theorem crowded_supplied : Supplied xskDefault chunk crowded where
  distinct := by
    simp only [crowded, List.map_map, List.map_cons, List.map_nil]
    refine List.Nodup.append ?_ (List.nodup_singleton _) ?_
    · refine List.Nodup.map_on ?_ List.nodup_range
      intro i hi j hj heq
      rw [List.mem_range] at hi hj
      rw [← chunk_nthFrame hi, ← chunk_nthFrame hj]
      exact congrArg UInt64.toNat heq
    · intro frame hframe hpacket
      obtain ⟨i, hi, rfl⟩ := List.mem_map.mp hframe
      have hsame := congrArg UInt64.toNat (List.mem_singleton.mp hpacket)
      have hlt := List.mem_range.mp hi
      rw [Function.comp_apply, chunk_nthFrame hlt] at hsame
      exact absurd (hsame ▸ hlt) (by decide)
  located := by
    intro desc hdesc
    rw [List.mem_singleton.mp hdesc]
    decide

/-- The packet goes to the shuttle and its frame does not fit into the fill
ring.  Then the kernel takes a frame and posts another packet in it. -/
def handedOver : RxPath XskRingCons XskRingProd :=
  ((crowded.afterBridge xskDefault .default1024).afterTake kernelDefault).afterPost kernelDefault 0
    { addr := 0x100, len := 64 }

/-- The next call finds a slot. -/
theorem exclusive_ownership_crowded :
    handedOver.ring.head = 1 ∧ Exclusive FillHolds .default1024 chunk handedOver ∧
      ¬Exclusive FillHolds .default1024 chunk (handedOver.afterBridge xskDefault .default1024) := by
  have hwithholds : Withholds xskDefault .default1024 crowded .bridge := by
    intro desc _ _ _
    decide +kernel
  have hrun : (withholding xskDefault kernelDefault RxHolds FillHolds .default1024 chunk).Run
      crowded [.bridge, .take, .post 0 { addr := 0x100, len := 64 }] handedOver :=
    .cons ⟨hwithholds, trivial, rfl⟩
      (.cons ⟨trivial, trivial, rfl⟩
        (.cons ⟨trivial, ⟨by decide +kernel, by decide, by decide⟩, rfl⟩ (.nil _)))
  obtain ⟨hall, hnext⟩ := exclusive_ownership xskDefault_contract crowded_start crowded_supplied
  refine ⟨by decide +kernel, hall _ _ hrun, ?_⟩
  rw [hnext _ _ hrun]
  intro hop
  have hslot := hop { addr := 0x100, len := 64 } (by decide +kernel) (by decide +kernel)
    (by decide +kernel)
  exact absurd hslot (by decide +kernel)

/-- After one call the frame of the packet is in the fill ring and in the
shuttle. -/
theorem frame_with_two_owners :
    Start RxHolds FillHolds (sample sampleDesc 1) ∧
      Supplied xskDefault chunk (sample sampleDesc 1) ∧
      ((system RxHolds FillHolds .smallest xskDefault kernelDefault).restrict
        (Lawful xskDefault chunk)).Run (sample sampleDesc 1) [.bridge]
          ((sample sampleDesc 1).afterBridge xskDefault .smallest) ∧
      ¬Exclusive FillHolds .smallest chunk
        ((sample sampleDesc 1).afterBridge xskDefault .smallest) := by
  have hstart := sample_start sampleDesc (n := 1) (by decide)
  have hsupplied : Supplied xskDefault chunk (sample sampleDesc 1) := sample_supplied (by decide)
  refine ⟨hstart, hsupplied, .cons ⟨trivial, rfl⟩ (.nil _), ?_⟩
  intro hexclusive
  have hwithholds := (start_owned (g := .smallest) hstart hsupplied).withholds_of_bridge
    xskDefault_contract hexclusive
  have hslot := hwithholds sampleDesc rfl (by decide) (by decide)
  cases hslot

end PorthCore.Ports.FrameOwnership
