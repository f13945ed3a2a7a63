import PorthCore.Ports.Reception

/-!
# What becomes of a peeked descriptor

`bridge_to_shuttle` has three exits behind the peek.  Two of them release the
entry; the third, taken when the shuttle is full, returns without releasing it
and without recycling its frame.  And `recycle_frame` gives up silently when
the fill ring has no slot.

`Accounted` is the books kept: nothing is peeked and not released, every
descriptor is pushed once or dropped with its frame back in the fill ring, and
the order is that of the rx ring.  A call keeps the books exactly when it
finds room for what it peeks (`rx_accounting`).
-/

namespace PorthCore.Ports.RxAccounting

open PorthCore.Verified.Transition
open PorthCore.Ports.RingBuffer
open PorthCore.Ports.Driver
open PorthCore.Ports.XdpPortal
open PorthCore.Ports.XskRings
open PorthCore.Ports.Reception
open PorthCore.Ports.Reception.RxPath

/-! ## The books -/

/-- What a call pushed to the shuttle. -/
def pushedBy (e : Handled) : Option PorthDescriptor :=
  match e.branch with
  | .forwarded desc => some desc
  | .noPacket | .invalid | .refused => none

/-- The call counted the packet as dropped. -/
def isDropped (e : Handled) : Bool :=
  match e.branch with
  | .invalid | .refused => true
  | .noPacket | .forwarded _ => false

/-- The call put the frame back into the fill ring. -/
def isReturned (e : Handled) : Bool :=
  match e.branch with
  | .invalid | .forwarded _ => e.slot
  | .noPacket | .refused => false

variable {Rx Fill : Type}

/-- Pushed as it is, or dropped with its frame put back. -/
def Settled (xsk : Xsk Rx Fill) (e : Handled) : Prop :=
  pushedBy e = some (handOver xsk e.desc) ∨ isDropped e = true ∧ isReturned e = true

/-- The books with `pending` in the rx ring, `avail` in the fill ring and `q`
in the shuttle. -/
structure Account (xsk : Xsk Rx Fill) (rxHolds : Rx → Nat → List XdpDesc → Prop)
    (fillHolds : Fill → List UInt64 → Prop) (g : RingGeometry) (s : RxPath Rx Fill)
    (stats : PorthStats) (pending : List XdpDesc) (avail : List UInt64) (pos : Nat)
    (q : List PorthDescriptor) : Prop where
  /-- As many entries are released as were peeked. -/
  view : View rxHolds fillHolds g s 0 pending avail pos q
  linked : s.stats = some stats
  /-- The entries are consumed in order. -/
  inOrder : s.handled.map (·.desc) ++ pending = s.produced
  /-- What was pushed is popped or queued, once and in order. -/
  pushed : s.popped ++ q = s.handled.filterMap pushedBy
  /-- The fill ring received the frames put back and nothing else. -/
  returned : s.taken ++ avail = s.supplied ++ (s.handled.filter isReturned).map (·.desc.addr)
  counted : stats.totalPackets = UInt64.ofNat (s.handled.filterMap pushedBy).length
  dropped : stats.droppedPackets = UInt64.ofNat (s.handled.filter isDropped).length
  settled : ∀ e ∈ s.handled, Settled xsk e

/-- Some state of the rings accounts for the history. -/
def Accounted (xsk : Xsk Rx Fill) (rxHolds : Rx → Nat → List XdpDesc → Prop)
    (fillHolds : Fill → List UInt64 → Prop) (g : RingGeometry) (s : RxPath Rx Fill) : Prop :=
  ∃ stats pending avail pos q, Account xsk rxHolds fillHolds g s stats pending avail pos q

/-- A call that finds room for what it peeks: in the shuttle for a valid
packet, in the fill ring for the frame of an invalid one. -/
def Settles (xsk : Xsk Rx Fill) (g : RingGeometry) (s : RxPath Rx Fill) : RxPathOp → Prop
  | .bridge =>
      ∀ desc, peeked xsk s.portal.rxRing = some desc →
        if s.portal.accepts xsk desc then advance g.size s.ring.head ≠ s.ring.tail.toUInt64
        else Xsk.hasSlot xsk s.portal.fillRing = true
  | .pop _ | .post _ _ | .take => True

variable {xsk : Xsk Rx Fill} {kernel : Kernel Rx Fill}
  {rxHolds : Rx → Nat → List XdpDesc → Prop} {fillHolds : Fill → List UInt64 → Prop}
  {g : RingGeometry} {s t : RxPath Rx Fill} {stats : PorthStats} {pending : List XdpDesc}
  {avail : List UInt64} {pos : Nat} {q : List PorthDescriptor}

private theorem start_account (h : Start rxHolds fillHolds s) :
    Account xsk rxHolds fillHolds g s .zero s.produced s.supplied 0 [] := by
  obtain ⟨slots, hslots⟩ := h.fresh
  exact
    { view :=
        { rx := h.rx
          fill := h.fill
          queue := hslots ▸ represents_fresh g slots }
      linked := h.stats
      inOrder := by rw [h.handled]; rfl
      pushed := by rw [h.handled, h.popped]; rfl
      returned := by rw [h.handled, h.taken, List.filter_nil, List.map_nil, List.append_nil]; rfl
      counted := by rw [h.handled]; rfl
      dropped := by rw [h.handled]; rfl
      settled := by rw [h.handled]; exact fun e he => absurd he List.not_mem_nil }

/-! ## One operation -/

namespace Account

/-- A call that peeked `desc` with the entries `rest` behind it. -/
theorem bridged {desc : XdpDesc} {rest : List XdpDesc} {branch : BridgeBranch}
    {count : PorthStats → PorthStats} {avail' : List UInt64} {q' : List PorthDescriptor}
    (h : Account xsk rxHolds fillHolds g s stats (desc :: rest) avail pos q)
    (hview : View rxHolds fillHolds g (s.afterBridge xsk g) 0 rest avail' pos q')
    (hbridged : Bridged xsk s (s.afterBridge xsk g) desc branch count)
    {e : Handled} (he : e = ⟨desc, branch, Xsk.hasSlot xsk s.portal.fillRing⟩)
    (hpushed : q' = q ++ (pushedBy e).toList)
    (hreturned : avail' = avail ++ if isReturned e then [desc.addr] else [])
    (hcounted : (count stats).totalPackets =
      stats.totalPackets + UInt64.ofNat (pushedBy e).toList.length)
    (hdropped : (count stats).droppedPackets =
      stats.droppedPackets + UInt64.ofNat (if isDropped e then 1 else 0))
    (hsettled : Settled xsk e) :
    Account xsk rxHolds fillHolds g (s.afterBridge xsk g) (count stats) rest avail' pos q' := by
  have hhandled := hbridged.handled
  rw [← he] at hhandled
  have hdesc : e.desc = desc := by rw [he]
  have hone : (s.handled ++ [e]).filterMap pushedBy =
      s.handled.filterMap pushedBy ++ (pushedBy e).toList := by
    rw [List.filterMap_append]
    cases hpush : pushedBy e <;> simp [hpush]
  refine
    { view := hview
      linked := by rw [hbridged.stats, h.linked]; rfl
      inOrder := ?_
      pushed := ?_
      returned := ?_
      counted := ?_
      dropped := ?_
      settled := ?_ }
  · rw [hhandled, List.map_append, List.append_assoc, List.map_singleton, hdesc]
    exact h.inOrder
  · rw [hhandled, hone, ← h.pushed, hpushed, List.append_assoc]
    rfl
  · show s.taken ++ avail' = s.supplied ++ _
    rw [hhandled, hreturned, List.filter_append, List.map_append, ← List.append_assoc,
      ← List.append_assoc, h.returned, List.append_assoc, List.append_assoc]
    cases hret : isReturned e <;> simp [hret, hdesc]
  · rw [hhandled, hone, hcounted, h.counted, List.length_append, UInt64.ofNat_add]
  · rw [hhandled, hdropped, h.dropped, List.filter_append, List.length_append, UInt64.ofNat_add]
    cases hdrop : isDropped e <;> simp [hdrop]
  · rw [hhandled]
    intro e' he'
    rcases List.mem_append.mp he' with hold | hnew
    · exact h.settled e' hold
    · rw [List.mem_singleton.mp hnew]
      exact hsettled

/-- An operation that peeks nothing and moves at most one entry of one ring. -/
theorem unpeeked {pending' : List XdpDesc} {avail' : List UInt64} {pos' : Nat}
    {q' : List PorthDescriptor}
    (h : Account xsk rxHolds fillHolds g s stats pending avail pos q)
    (hview : View rxHolds fillHolds g t 0 pending' avail' pos' q')
    (hhandled : t.handled = s.handled) (hstats : t.stats = s.stats)
    (hsupplied : t.supplied = s.supplied)
    (hproduced : s.handled.map (·.desc) ++ pending' = t.produced)
    (hpopped : t.popped ++ q' = s.popped ++ q) (htaken : t.taken ++ avail' = s.taken ++ avail) :
    Account xsk rxHolds fillHolds g t stats pending' avail' pos' q' where
  view := hview
  linked := hstats.trans h.linked
  inOrder := by rw [hhandled, hproduced]
  pushed := by rw [hhandled, hpopped, h.pushed]
  returned := by rw [hhandled, hsupplied, htaken, h.returned]
  counted := by rw [hhandled, h.counted]
  dropped := by rw [hhandled, h.dropped]
  settled := by rw [hhandled]; exact h.settled

/-- A call that finds room keeps the books. -/
theorem bridge (hc : XskContract xsk kernel rxHolds fillHolds)
    (h : Account xsk rxHolds fillHolds g s stats pending avail pos q)
    (hop : Settles xsk g s .bridge) :
    Accounted xsk rxHolds fillHolds g (s.afterBridge xsk g) := by
  cases pending with
  | nil =>
      obtain ⟨hview, hhandled, hstats⟩ := h.view.bridge_nil hc
      exact ⟨stats, [], avail, pos, q,
        h.unpeeked hview hhandled hstats rfl h.inOrder rfl rfl⟩
  | cons desc rest =>
      have hroom := hop desc (peeked_cons hc h.view.rx)
      cases hvalid : s.portal.accepts xsk desc with
      | false =>
          obtain ⟨hview, hbridged⟩ := h.view.bridge_invalid hc hvalid
          have hslot : Xsk.hasSlot xsk s.portal.fillRing = true := by
            simpa only [hvalid, Bool.false_eq_true, if_false] using hroom
          refine ⟨_, rest, _, pos, q, h.bridged hview hbridged rfl ?_ ?_ ?_ ?_ ?_⟩
          · exact (List.append_nil q).symm
          · simp only [recycledAvail, isReturned, hslot, if_true]
          · exact (UInt64.add_zero _).symm
          · rfl
          · exact .inr ⟨rfl, hslot⟩
      | true =>
          have hlt : q.length + 1 < g.period := by
            rw [← h.view.room_iff]
            simpa only [hvalid, if_true] using hroom
          obtain ⟨hview, hbridged⟩ := h.view.bridge_forwarded hc hvalid hlt
          refine ⟨_, rest, _, pos, _, h.bridged hview hbridged rfl ?_ ?_ ?_ ?_ ?_⟩
          · rfl
          · cases hslot : Xsk.hasSlot xsk s.portal.fillRing <;>
              simp [recycledAvail, isReturned, hslot]
          · rfl
          · exact (UInt64.add_zero _).symm
          · exact .inl rfl

/-- A call that keeps the books has found room. -/
theorem settles_of_bridge (hc : XskContract xsk kernel rxHolds fillHolds)
    (h : Account xsk rxHolds fillHolds g s stats pending avail pos q)
    (hnext : Accounted xsk rxHolds fillHolds g (s.afterBridge xsk g)) :
    Settles xsk g s .bridge := by
  obtain ⟨stats', pending', avail', pos', q', h'⟩ := hnext
  intro desc hpeeked
  cases pending with
  | nil =>
      rw [peeked_nil hc h.view.rx] at hpeeked
      cases hpeeked
  | cons head rest =>
      rw [peeked_cons hc h.view.rx] at hpeeked
      obtain rfl := Option.some.inj hpeeked
      cases hvalid : s.portal.accepts xsk head with
      | false =>
          have hbridged := (h.view.bridge_invalid hc hvalid).2
          have hsettled := h'.settled _ (by rw [hbridged.handled]; exact List.mem_concat_self)
          rcases hsettled with hpush | ⟨-, hslot⟩
          · cases hpush
          · exact hslot
      | true =>
          rw [if_pos rfl, h.view.room_iff]
          by_contra hnot
          have hlt := h.view.queue.room
          have hbridged := (h.view.bridge_refused hc hvalid (by omega)).2
          have hsettled := h'.settled _ (by rw [hbridged.handled]; exact List.mem_concat_self)
          rcases hsettled with hpush | ⟨-, hback⟩
          · cases hpush
          · cases hback

theorem pop (h : Account xsk rxHolds fillHolds g s stats pending avail pos q)
    (outDesc : PorthDescriptor) : Accounted xsk rxHolds fillHolds g (s.afterPop g outDesc) := by
  cases q with
  | nil =>
      rw [h.view.pop_nil outDesc]
      exact ⟨stats, pending, avail, pos, [], h⟩
  | cons head q =>
      obtain ⟨hview, hpopped⟩ := h.view.pop_cons outDesc
      refine ⟨stats, pending, avail, pos + 1, q,
        h.unpeeked hview rfl rfl rfl h.inOrder ?_ rfl⟩
      rw [hpopped, List.append_assoc]
      rfl

theorem post (hc : XskContract xsk kernel rxHolds fillHolds)
    (h : Account xsk rxHolds fillHolds g s stats pending avail pos q) (addr : UInt64)
    (desc : XdpDesc) : Accounted xsk rxHolds fillHolds g (s.afterPost kernel addr desc) := by
  rcases h.view.post hc addr desc with heq | ⟨rx, heq, hrx⟩
  · rw [heq]
    exact ⟨stats, pending, avail, pos, q, h⟩
  · rw [heq]
    refine ⟨stats, pending ++ [desc], avail, pos, q,
      h.unpeeked ⟨hrx, h.view.fill, h.view.queue⟩ rfl rfl rfl ?_ rfl rfl⟩
    rw [← List.append_assoc, h.inOrder]

theorem take (hc : XskContract xsk kernel rxHolds fillHolds)
    (h : Account xsk rxHolds fillHolds g s stats pending avail pos q) :
    Accounted xsk rxHolds fillHolds g (s.afterTake kernel) := by
  rcases h.view.take hc with heq | ⟨addr, avail', fill, rfl, heq, hfill⟩
  · rw [heq]
    exact ⟨stats, pending, avail, pos, q, h⟩
  · rw [heq]
    refine ⟨stats, pending, avail', pos, q,
      h.unpeeked ⟨h.view.rx, hfill, h.view.queue⟩ rfl rfl rfl h.inOrder rfl ?_⟩
    rw [List.append_assoc]
    rfl

theorem step (hc : XskContract xsk kernel rxHolds fillHolds)
    (h : Account xsk rxHolds fillHolds g s stats pending avail pos q) {op : RxPathOp}
    (hop : Settles xsk g s op) :
    Accounted xsk rxHolds fillHolds g (s.apply xsk kernel g op) := by
  cases op with
  | bridge => exact h.bridge hc hop
  | pop outDesc => exact h.pop outDesc
  | post addr desc => exact h.post hc addr desc
  | take => exact h.take hc

end Account

/-! ## Runs -/

theorem accounted_of_run (hc : XskContract xsk kernel rxHolds fillHolds)
    (hstart : Start rxHolds fillHolds s) {ops : List RxPathOp}
    (hrun : ((system rxHolds fillHolds g xsk kernel).restrict (Settles xsk g)).Run s ops t) :
    Accounted xsk rxHolds fillHolds g t := by
  refine System.Run.preserves (I := Accounted xsk rxHolds fillHolds g) ?_ hrun
    ⟨_, _, _, _, _, start_account hstart⟩
  rintro u op v ⟨stats, pending, avail, pos, q, hu⟩ ⟨hop, rfl⟩
  exact hu.step hc hop

/-- **When the rx accounting holds.**  From any start, in every run whose calls
find room for what they peek, the books are kept in every state reached: the
entries peeked are the entries released, each is pushed once or dropped with
its frame put back, in order.  And the next call of such a run keeps them only
if it finds room. -/
theorem rx_accounting (hc : XskContract xsk kernel rxHolds fillHolds)
    (hstart : Start rxHolds fillHolds s) :
    (∀ ops t, ((system rxHolds fillHolds g xsk kernel).restrict (Settles xsk g)).Run s ops t →
        Accounted xsk rxHolds fillHolds g t) ∧
      ∀ ops t, ((system rxHolds fillHolds g xsk kernel).restrict (Settles xsk g)).Run s ops t →
        (Accounted xsk rxHolds fillHolds g (t.afterBridge xsk g) ↔ Settles xsk g t .bridge) := by
  constructor
  · intro ops t hrun
    exact accounted_of_run hc hstart hrun
  · intro ops t hrun
    obtain ⟨stats, pending, avail, pos, q, ht⟩ := accounted_of_run hc hstart hrun
    exact ⟨ht.settles_of_bridge hc, ht.bridge hc⟩

/-! ## One packet, and one too many -/

theorem rx_accounting_one_packet :
    Accounted xskDefault RxHolds FillHolds .smallest
      ((sample sampleDesc 1).afterBridge xskDefault .smallest) := by
  have hroom : Settles xskDefault .smallest (sample sampleDesc 1) .bridge := by
    rintro desc hdesc
    obtain rfl : sampleDesc = desc := Option.some.inj hdesc
    decide
  have hrun : ((system RxHolds FillHolds .smallest xskDefault kernelDefault).restrict
      (Settles xskDefault .smallest)).Run (sample sampleDesc 1) [.bridge]
        ((sample sampleDesc 1).afterBridge xskDefault .smallest) :=
    .cons ⟨hroom, rfl⟩ (.nil _)
  exact (rx_accounting xskDefault_contract (sample_start sampleDesc (by decide))).1 _ _ hrun

/-- The second of two packets finds the shuttle full: two entries are peeked
and one is released. -/
theorem full_shuttle_not_released :
    let s := (sample sampleDesc 2).afterBridge xskDefault .smallest
    let t := s.afterBridge xskDefault .smallest
    Start RxHolds FillHolds (sample sampleDesc 2) ∧
      (system RxHolds FillHolds .smallest xskDefault kernelDefault).Run (sample sampleDesc 2)
        [.bridge, .bridge] t ∧
      t.portal.rxRing.cachedCons = 2 ∧ t.portal.rxRing.consumer = 1 ∧
      ¬Accounted xskDefault RxHolds FillHolds .smallest t := by
  intro s t
  refine ⟨sample_start sampleDesc (by decide), .cons rfl (.cons rfl (.nil _)), by decide,
    by decide, ?_⟩
  rintro ⟨stats, pending, avail, pos, q, h⟩
  have hsettled := h.settled ⟨sampleDesc, .refused, true⟩ (by decide)
  rcases hsettled with hpush | ⟨-, hback⟩
  · cases hpush
  · cases hback

end PorthCore.Ports.RxAccounting
