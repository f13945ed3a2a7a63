import PorthCore.Ports.RxAccounting

/-!
# The frames of `PorthXDPPortal` only diminish

`recycle_frame` is the only place that writes to the fill ring, and it puts
back a frame the portal has just received; nothing primes the ring as
`prime_fill_ring` does in the other portal.  So no frame is ever added to those
in circulation: the fill ring, the kernel and the rx ring.  A call that returns
from a full shuttle takes its frame out of circulation for good, and so does
`recycle_frame` on a full fill ring.

The books here are kept by every call, also by those `RxAccounting` excludes.
Of the kernel only this is assumed, that it posts each packet in a frame it has
taken.
-/

namespace PorthCore.Ports.FrameBudget

open PorthCore.Verified.Transition
open PorthCore.Ports.RingBuffer
open PorthCore.Ports.Driver
open PorthCore.Ports.XdpPortal
open PorthCore.Ports.XskRings
open PorthCore.Ports.Reception
open PorthCore.Ports.Reception.RxPath
open PorthCore.Ports.RxAccounting (pushedBy isReturned)

variable {Rx Fill : Type}

/-! ## The books -/

/-- The kernel posts in a frame it holds. -/
def InHeldFrame (s : RxPath Rx Fill) : RxPathOp → Prop
  | .post addr _ => addr ∈ s.held
  | .bridge | .pop _ | .take => True

/-- How many frames were peeked and not put back. -/
def lost (s : RxPath Rx Fill) : Nat := s.handled.countP fun e => !isReturned e

/-- What a call counts. -/
def count (stats : PorthStats) (e : Handled) : PorthStats :=
  match e.branch with
  | .noPacket => stats
  | .invalid | .refused => stats.drop
  | .forwarded desc => stats.accept desc.len

section

variable (rxHolds : Rx → Nat → List XdpDesc → Prop) (fillHolds : Fill → List UInt64 → Prop)
  (g : RingGeometry)

/-- The books of `n` frames, with `pending` in the rx ring, `avail` in the fill
ring and `q` in the shuttle. -/
structure Circulation (n : Nat) (s : RxPath Rx Fill) (lag : Nat) (pending : List XdpDesc)
    (avail : List UInt64) (pos : Nat) (q : List PorthDescriptor) : Prop where
  view : View rxHolds fillHolds g s lag pending avail pos q
  /-- Every frame circulates or is lost. -/
  frames : avail.length + s.held.length + pending.length + lost s = n
  /-- The entries are peeked in order. -/
  inOrder : s.handled.map (·.desc) ++ pending = s.produced
  /-- What was pushed is popped or queued, once and in order. -/
  pushed : s.popped ++ q = s.handled.filterMap pushedBy
  counted : s.stats = some (s.handled.foldl count .zero)

/-- Some state of the rings accounts for `n` frames. -/
def Circulates (n : Nat) (s : RxPath Rx Fill) : Prop :=
  ∃ lag pending avail pos q, Circulation rxHolds fillHolds g n s lag pending avail pos q

/-- Runs with a kernel that posts in the frames it holds. -/
def lawful (xsk : Xsk Rx Fill) (kernel : Kernel Rx Fill) : System (RxPath Rx Fill) RxPathOp :=
  (system rxHolds fillHolds g xsk kernel).restrict InHeldFrame

end

variable {xsk : Xsk Rx Fill} {kernel : Kernel Rx Fill}
  {rxHolds : Rx → Nat → List XdpDesc → Prop} {fillHolds : Fill → List UInt64 → Prop}
  {g : RingGeometry} {s t : RxPath Rx Fill} {n lag pos : Nat} {pending : List XdpDesc}
  {avail : List UInt64} {q : List PorthDescriptor}

theorem start_circulation (h : Start rxHolds fillHolds s) :
    Circulation rxHolds fillHolds g (s.supplied.length + s.produced.length) s 0 s.produced
      s.supplied 0 [] := by
  obtain ⟨slots, hslots⟩ := h.fresh
  exact
    { view :=
        { rx := h.rx
          fill := h.fill
          queue := hslots ▸ represents_fresh g slots }
      frames := by rw [lost, h.handled, h.held]; rfl
      inOrder := by rw [h.handled]; rfl
      pushed := by rw [h.handled, h.popped]; rfl
      counted := by rw [h.handled, h.stats]; rfl }

/-! ## One operation -/

namespace Circulation

/-- A call that peeked `desc` with the entries `rest` behind it. -/
theorem bridged {desc : XdpDesc} {rest : List XdpDesc} {branch : BridgeBranch} {lag' : Nat}
    {counted : PorthStats → PorthStats} {avail' : List UInt64} {q' : List PorthDescriptor}
    (h : Circulation rxHolds fillHolds g n s lag (desc :: rest) avail pos q)
    (hview : View rxHolds fillHolds g (s.afterBridge xsk g) lag' rest avail' pos q')
    (hbridged : Bridged xsk s (s.afterBridge xsk g) desc branch counted)
    {e : Handled} (he : e = ⟨desc, branch, Xsk.hasSlot xsk s.portal.fillRing⟩)
    (havail : avail'.length + (if isReturned e then 0 else 1) = avail.length + 1)
    (hpushed : q' = q ++ (pushedBy e).toList) (hcounted : ∀ stats, counted stats = count stats e) :
    Circulation rxHolds fillHolds g n (s.afterBridge xsk g) lag' rest avail' pos q' := by
  have hhandled : (s.afterBridge xsk g).handled = s.handled ++ [e] := by
    rw [hbridged.handled, he]
  have hheld : (s.afterBridge xsk g).held = s.held := rfl
  have hdesc : e.desc = desc := by rw [he]
  have hlost : lost (s.afterBridge xsk g) = lost s + if isReturned e then 0 else 1 := by
    rw [lost, lost, hhandled, List.countP_append, List.countP_singleton]
    cases isReturned e <;> rfl
  refine
    { view := hview
      frames := ?_
      inOrder := ?_
      pushed := ?_
      counted := ?_ }
  · have hframes := h.frames
    rw [List.length_cons] at hframes
    rw [hheld, hlost]
    omega
  · rw [hhandled, List.map_append, List.append_assoc, List.map_singleton, hdesc]
    exact h.inOrder
  · rw [hhandled, List.filterMap_append, ← h.pushed, hpushed, List.append_assoc]
    cases hpush : pushedBy e <;> simp [hpush, afterBridge]
  · rw [hbridged.stats, h.counted, hhandled, List.foldl_append, Option.map_some, hcounted]
    rfl

/-- An operation that peeks nothing and moves at most one frame. -/
theorem unpeeked {pending' : List XdpDesc} {avail' : List UInt64} {pos' : Nat}
    {q' : List PorthDescriptor}
    (h : Circulation rxHolds fillHolds g n s lag pending avail pos q)
    (hview : View rxHolds fillHolds g t lag pending' avail' pos' q')
    (hhandled : t.handled = s.handled) (hstats : t.stats = s.stats)
    (hmoved : avail'.length + t.held.length + pending'.length =
      avail.length + s.held.length + pending.length)
    (hproduced : s.handled.map (·.desc) ++ pending' = t.produced)
    (hpopped : t.popped ++ q' = s.popped ++ q) :
    Circulation rxHolds fillHolds g n t lag pending' avail' pos' q' where
  view := hview
  frames := by rw [lost, hhandled, hmoved]; exact h.frames
  inOrder := by rw [hhandled, hproduced]
  pushed := by rw [hhandled, hpopped, h.pushed]
  counted := by rw [hhandled, hstats, h.counted]

theorem bridge (hc : XskContract xsk kernel rxHolds fillHolds)
    (h : Circulation rxHolds fillHolds g n s lag pending avail pos q) :
    Circulates rxHolds fillHolds g n (s.afterBridge xsk g) := by
  cases pending with
  | nil =>
      obtain ⟨hview, hhandled, hstats⟩ := h.view.bridge_nil hc
      exact ⟨lag, [], avail, pos, q, h.unpeeked hview hhandled hstats rfl h.inOrder rfl⟩
  | cons desc rest =>
      cases hvalid : s.portal.accepts xsk desc with
      | false =>
          obtain ⟨hview, hbridged⟩ := h.view.bridge_invalid hc hvalid
          refine ⟨lag, rest, _, pos, q, h.bridged hview hbridged rfl ?_ ?_ fun _ => rfl⟩
          · cases hslot : Xsk.hasSlot xsk s.portal.fillRing <;>
              simp [recycledAvail, isReturned, hslot]
          · exact (List.append_nil q).symm
      | true =>
          by_cases hroom : q.length + 1 < g.period
          · obtain ⟨hview, hbridged⟩ := h.view.bridge_forwarded hc hvalid hroom
            refine ⟨lag, rest, _, pos, _, h.bridged hview hbridged rfl ?_ rfl fun _ => rfl⟩
            cases hslot : Xsk.hasSlot xsk s.portal.fillRing <;>
              simp [recycledAvail, isReturned, hslot]
          · have hlt := h.view.queue.room
            obtain ⟨hview, hbridged⟩ := h.view.bridge_refused hc hvalid (by omega)
            -- The frame stays behind the entry that is never released.
            exact ⟨lag + 1, rest, avail, pos, q,
              h.bridged hview hbridged rfl rfl (List.append_nil q).symm fun _ => rfl⟩

theorem pop (h : Circulation rxHolds fillHolds g n s lag pending avail pos q)
    (outDesc : PorthDescriptor) : Circulates rxHolds fillHolds g n (s.afterPop g outDesc) := by
  cases q with
  | nil =>
      rw [h.view.pop_nil outDesc]
      exact ⟨lag, pending, avail, pos, [], h⟩
  | cons head q =>
      obtain ⟨hview, hpopped⟩ := h.view.pop_cons outDesc
      refine ⟨lag, pending, avail, pos + 1, q, h.unpeeked hview rfl rfl rfl h.inOrder ?_⟩
      rw [hpopped, List.append_assoc]
      rfl

/-- A packet takes its frame from the kernel to the rx ring. -/
theorem post (hc : XskContract xsk kernel rxHolds fillHolds)
    (h : Circulation rxHolds fillHolds g n s lag pending avail pos q) {addr : UInt64}
    (desc : XdpDesc) (hheld : addr ∈ s.held) :
    Circulates rxHolds fillHolds g n (s.afterPost kernel addr desc) := by
  rcases h.view.post hc addr desc with heq | ⟨rx, heq, hrx⟩
  · rw [heq]
    exact ⟨lag, pending, avail, pos, q, h⟩
  · rw [heq]
    refine ⟨lag, pending ++ [desc], avail, pos, q,
      h.unpeeked ⟨hrx, h.view.fill, h.view.queue⟩ rfl rfl ?_ ?_ rfl⟩
    · have hpos : 0 < s.held.length := List.length_pos_of_mem hheld
      rw [List.length_erase_of_mem hheld, List.length_append, List.length_singleton]
      omega
    · rw [← List.append_assoc, h.inOrder]

/-- A take moves the oldest frame of the fill ring to the kernel. -/
theorem take (hc : XskContract xsk kernel rxHolds fillHolds)
    (h : Circulation rxHolds fillHolds g n s lag pending avail pos q) :
    Circulates rxHolds fillHolds g n (s.afterTake kernel) := by
  rcases h.view.take hc with heq | ⟨addr, avail', fill, rfl, heq, hfill⟩
  · rw [heq]
    exact ⟨lag, pending, avail, pos, q, h⟩
  · rw [heq]
    refine ⟨lag, pending, avail', pos, q,
      h.unpeeked ⟨h.view.rx, hfill, h.view.queue⟩ rfl rfl ?_ h.inOrder rfl⟩
    rw [List.length_append, List.length_singleton, List.length_cons]
    omega

theorem step (hc : XskContract xsk kernel rxHolds fillHolds)
    (h : Circulation rxHolds fillHolds g n s lag pending avail pos q) {op : RxPathOp}
    (hop : InHeldFrame s op) : Circulates rxHolds fillHolds g n (s.apply xsk kernel g op) := by
  cases op with
  | bridge => exact h.bridge hc
  | pop outDesc => exact h.pop outDesc
  | post addr desc => exact h.post hc desc hop
  | take => exact h.take hc

end Circulation

/-! ## Runs -/

theorem Circulates.run (hc : XskContract xsk kernel rxHolds fillHolds)
    (h : Circulates rxHolds fillHolds g n s) {ops : List RxPathOp}
    (hrun : (lawful rxHolds fillHolds g xsk kernel).Run s ops t) :
    Circulates rxHolds fillHolds g n t := by
  refine System.Run.preserves (I := Circulates rxHolds fillHolds g n) ?_ hrun h
  rintro u op v ⟨lag, pending, avail, pos, q, hu⟩ ⟨hop, rfl⟩
  exact hu.step hc hop

private theorem Circulates.lost_le (h : Circulates rxHolds fillHolds g n s) : lost s ≤ n := by
  obtain ⟨lag, pending, avail, pos, q, h⟩ := h
  have hframes := h.frames
  omega

/-- A state that has lost all of its frames. -/
theorem Circulates.drained (hc : XskContract xsk kernel rxHolds fillHolds)
    (h : Circulates rxHolds fillHolds g (lost s) s) {ops : List RxPathOp}
    (hrun : (lawful rxHolds fillHolds g xsk kernel).Run s ops t) :
    t.handled = s.handled ∧ t.stats = s.stats := by
  -- Nothing is lost any more, and nothing circulates.
  have hpreserved : Circulates rxHolds fillHolds g (lost s) t ∧ t.handled = s.handled := by
    refine System.Run.preserves
      (I := fun u => Circulates rxHolds fillHolds g (lost s) u ∧ u.handled = s.handled) ?_ hrun
      ⟨h, rfl⟩
    rintro u op v ⟨hcirc, hhandled⟩ ⟨hop, rfl⟩
    obtain ⟨lag, pending, avail, pos, q, hu⟩ := hcirc
    refine ⟨hu.step hc hop, ?_⟩
    have hframes := hu.frames
    have hlost : lost u = lost s := by rw [lost, lost, hhandled]
    have hnone : pending = [] := List.eq_nil_of_length_eq_zero (by omega)
    subst hnone
    cases op with
    | bridge => exact (hu.view.bridge_nil hc).2.1.trans hhandled
    | pop outDesc => exact hhandled
    | post addr desc =>
        have hempty : u.held = [] := List.eq_nil_of_length_eq_zero (by omega)
        have hmem : addr ∈ u.held := hop
        rw [hempty] at hmem
        cases hmem
    | take =>
        rw [← hhandled]
        show (u.afterTake kernel).handled = u.handled
        unfold RxPath.afterTake
        split <;> rfl
  obtain ⟨⟨_, _, _, _, _, ht⟩, hhandled⟩ := hpreserved
  obtain ⟨_, _, _, _, _, hs⟩ := h
  exact ⟨hhandled, by rw [ht.counted, hs.counted, hhandled]⟩

/-- **Frames leave the circulation and never come back.**  From any start with
`n` frames in the fill ring and the rx ring, and with a kernel that posts in
the frames it took, every run keeps the books: what is in the fill ring, with
the kernel, in the rx ring and lost adds up to `n`, so at most `n` frames are
ever lost.  Once `n` are, no later call finds a packet and the statistics never
move again. -/
theorem circulation_closed (hc : XskContract xsk kernel rxHolds fillHolds)
    (hstart : Start rxHolds fillHolds s) {ops : List RxPathOp}
    (hrun : (lawful rxHolds fillHolds g xsk kernel).Run s ops t) :
    Circulates rxHolds fillHolds g (s.supplied.length + s.produced.length) t ∧
      lost t ≤ s.supplied.length + s.produced.length ∧
      (lost t = s.supplied.length + s.produced.length →
        ∀ ops' u, (lawful rxHolds fillHolds g xsk kernel).Run t ops' u →
          u.handled = t.handled ∧ u.stats = t.stats) := by
  have hstarted : Circulates rxHolds fillHolds g (s.supplied.length + s.produced.length) s :=
    ⟨_, _, _, _, _, start_circulation hstart⟩
  have hcirc := hstarted.run hc hrun
  refine ⟨hcirc, hcirc.lost_le, ?_⟩
  intro hall ops' u hrun'
  rw [← hall] at hcirc
  exact hcirc.drained hc hrun'

/-- **A portal nobody primes receives nothing.**  With the rings as libxdp
creates them, both empty, no call of any run finds a packet: nothing reaches
the shuttle and the statistics stay at zero. -/
theorem unprimed_receives_nothing (hc : XskContract xsk kernel rxHolds fillHolds)
    (hstart : Start rxHolds fillHolds s) (hsupplied : s.supplied = [])
    (hproduced : s.produced = []) {ops : List RxPathOp}
    (hrun : (lawful rxHolds fillHolds g xsk kernel).Run s ops t) :
    t.handled = [] ∧ t.stats = some .zero ∧ t.popped = [] ∧
      peeked xsk t.portal.rxRing = none := by
  have hstarted : Circulates rxHolds fillHolds g (lost s) s := by
    have hzero : lost s = s.supplied.length + s.produced.length := by
      rw [lost, hstart.handled, hsupplied, hproduced]
      rfl
    rw [hzero]
    exact ⟨_, _, _, _, _, start_circulation hstart⟩
  obtain ⟨hhandled, hstats⟩ := hstarted.drained hc hrun
  rw [hstart.handled] at hhandled
  rw [hstart.stats] at hstats
  obtain ⟨lag, pending, avail, pos, q, ht⟩ := hstarted.run hc hrun
  have hlost : lost s = 0 := by rw [lost, hstart.handled]; rfl
  have hframes := ht.frames
  have hnone : pending = [] := List.eq_nil_of_length_eq_zero (by omega)
  have hpushed := ht.pushed
  rw [hhandled, List.filterMap_nil] at hpushed
  subst hnone
  exact ⟨hhandled, hstats, (List.append_eq_nil_iff.mp hpushed).1, peeked_nil hc ht.view.rx⟩

/-! ## A frame behind a full shuttle, and no frame at all -/

/-- Two packets for a shuttle of one place: the second frame is lost, the first
comes back, is taken and posted again. -/
def oneLeft : RxPath XskRingCons XskRingProd :=
  ((((sample sampleDesc 2).afterBridge xskDefault .smallest).afterBridge xskDefault
    .smallest).afterTake kernelDefault).afterPost kernelDefault sampleDesc.addr sampleDesc

/-- The next call loses it too; popping the shuttle does not help any more. -/
theorem circulation_closed_full_shuttle :
    let t := oneLeft.afterBridge xskDefault .smallest
    let u := ((t.afterPop .smallest default).afterTake kernelDefault).afterBridge xskDefault
      .smallest
    (lost oneLeft = 1 ∧ lost t = 2 ∧ u.popped.length = 1) ∧
      Circulates RxHolds FillHolds .smallest 2 t ∧ u.handled = t.handled ∧ u.stats = t.stats := by
  intro t u
  have hheld : sampleDesc.addr ∈ ((((sample sampleDesc 2).afterBridge xskDefault
      .smallest).afterBridge xskDefault .smallest).afterTake kernelDefault).held := by
    decide
  have hrun : (lawful RxHolds FillHolds .smallest xskDefault kernelDefault).Run
      (sample sampleDesc 2)
      [.bridge, .bridge, .take, .post sampleDesc.addr sampleDesc, .bridge] t :=
    .cons ⟨trivial, rfl⟩ (.cons ⟨trivial, rfl⟩ (.cons ⟨trivial, rfl⟩
      (.cons ⟨hheld, rfl⟩ (.cons ⟨trivial, rfl⟩ (.nil _)))))
  have hlater : (lawful RxHolds FillHolds .smallest xskDefault kernelDefault).Run t
      [.pop default, .take, .bridge] u :=
    .cons ⟨trivial, rfl⟩ (.cons ⟨trivial, rfl⟩ (.cons ⟨trivial, rfl⟩ (.nil _)))
  obtain ⟨hcirc, -, hclosed⟩ := circulation_closed xskDefault_contract
    (sample_start sampleDesc (by decide)) hrun
  have hall : lost t = 2 := by decide +kernel
  exact ⟨⟨by decide, hall, by decide +kernel⟩, hcirc, hclosed hall _ _ hlater⟩

theorem unprimed_receives_nothing_two_calls :
    let t := (((sample sampleDesc 0).afterBridge xskDefault .smallest).afterTake
      kernelDefault).afterBridge xskDefault .smallest
    t.handled = [] ∧ t.stats = some .zero := by
  intro t
  have hrun : (lawful RxHolds FillHolds .smallest xskDefault kernelDefault).Run
      (sample sampleDesc 0) [.bridge, .take, .bridge] t :=
    .cons ⟨trivial, rfl⟩ (.cons ⟨trivial, rfl⟩ (.cons ⟨trivial, rfl⟩ (.nil _)))
  obtain ⟨hhandled, hstats, -, -⟩ := unprimed_receives_nothing xskDefault_contract
    (sample_start sampleDesc (by decide)) rfl rfl hrun
  exact ⟨hhandled, hstats⟩

end PorthCore.Ports.FrameBudget
