import PorthCore.Verified.Transition
import PorthCore.Ports.XskRings

/-!
# `bridge_to_shuttle`, step by step

In `XdpPortal` a call is one operation.  Here it is a sequence of accesses,
and the consumer of the shuttle and the kernel may act between any two of
them.  `desc` is a pointer into the rx ring: what a call reads through it is
what the slot holds at that moment.

`HeldContract` is what libxdp promises about entries that were peeked and not
released: the kernel leaves them alone.  `release` gives back the oldest of
them.  The successful branch releases first and reads `desc->addr` afterwards,
so the address it recycles is the one it received as long as the kernel does
not use the slot in between (`recycles_received`).
-/

namespace PorthCore.Ports.BridgeSteps

open PorthCore.Verified.Transition
open PorthCore.Ports.RingBuffer
open PorthCore.Ports.Driver
open PorthCore.Ports.XdpPortal
open PorthCore.Ports.XskRings

variable {Rx Fill : Type}

/-! ## Entries that are held -/

/-- `held` are the entries peeked and not released, oldest first, each with
its index. -/
structure HeldContract (xsk : Xsk Rx Fill) (kernel : Kernel Rx Fill)
    (rxHeld : Rx → List (UInt32 × XdpDesc) → List XdpDesc → Prop) : Prop where
  peek_nil : ∀ {rx held}, rxHeld rx held [] →
    ∃ rx', xsk.peek rx = (none, rx') ∧ rxHeld rx' held []
  peek_cons : ∀ {rx held desc rest}, rxHeld rx held (desc :: rest) →
    ∃ idx rx', xsk.peek rx = (some idx, rx') ∧ rxHeld rx' (held ++ [(idx, desc)]) rest
  rxDesc : ∀ {rx held pending}, rxHeld rx held pending →
    ∀ e ∈ held, xsk.rxDesc rx e.1 = e.2
  release : ∀ {rx e held pending}, rxHeld rx (e :: held) pending →
    rxHeld (xsk.release rx) held pending
  release_desc : ∀ rx idx, xsk.rxDesc (xsk.release rx) idx = xsk.rxDesc rx idx
  post : ∀ {rx held pending desc rx'}, rxHeld rx held pending →
    kernel.post rx desc = some rx' → rxHeld rx' held (pending ++ [desc])

/-- The default rx ring: the held entries lie before the pending ones. -/
structure HeldAt (rx : XskRingCons) (pos : Nat) (held : List (UInt32 × XdpDesc))
    (pending : List XdpDesc) : Prop where
  ring : RxAt rx pos held.length pending
  slots : Laid rx.entries pos (held.map Prod.snd)
  indices : ∀ i (hi : i < held.length), held[i].1 = UInt32.ofNat (pos + i)

/-- An rx ring with `held` peeked and `pending` still to come. -/
def RxHeld (rx : XskRingCons) (held : List (UInt32 × XdpDesc)) (pending : List XdpDesc) :
    Prop :=
  ∃ pos, HeldAt rx pos held pending

theorem HeldAt.peek_cons {rx : XskRingCons} {pos : Nat} {held : List (UInt32 × XdpDesc)}
    {desc : XdpDesc} {rest : List XdpDesc} (h : HeldAt rx pos held (desc :: rest)) :
    HeldAt { rx with cachedCons := rx.cachedCons + 1 } pos (held ++ [(rx.cachedCons, desc)])
      rest := by
  obtain ⟨-, hdesc, hring⟩ := h.ring.peek_cons
  have hindex := h.ring.cachedCons
  refine ⟨?_, ?_, ?_⟩
  · rw [List.length_append, List.length_singleton]
    exact hring
  · rw [List.map_append]
    refine Verified.Circular.Holds.push h.slots ?_
    rw [List.length_map]
    show rx.entries (UInt32.ofNat ((pos + held.length) % 2048)) = desc
    rw [← ofNat_and_mask, ← hindex]
    exact hdesc
  · intro i hi
    rw [List.length_append, List.length_singleton] at hi
    rcases Nat.lt_or_eq_of_le (Nat.le_of_lt_succ hi) with hold | hnew
    · rw [List.getElem_append_left hold]
      exact h.indices i hold
    · subst hnew
      rw [List.getElem_concat_length rfl]
      exact hindex

theorem HeldAt.rxDesc {rx : XskRingCons} {pos : Nat} {held : List (UInt32 × XdpDesc)}
    {pending : List XdpDesc} (h : HeldAt rx pos held pending) {e : UInt32 × XdpDesc}
    (he : e ∈ held) : xskDefault.rxDesc rx e.1 = e.2 := by
  obtain ⟨i, hi, rfl⟩ := List.getElem_of_mem he
  have hslot := h.slots i (by rwa [List.length_map])
  rw [List.getElem_map] at hslot
  show rx.entries (held[i].1 &&& 2047) = _
  rw [h.indices i hi, ofNat_and_mask]
  exact hslot

theorem HeldAt.release {rx : XskRingCons} {pos : Nat} {e : UInt32 × XdpDesc}
    {held : List (UInt32 × XdpDesc)} {pending : List XdpDesc}
    (h : HeldAt rx pos (e :: held) pending) :
    HeldAt (xskDefault.release rx) (pos + 1) held pending where
  ring := h.ring.release
  slots := Verified.Circular.Holds.tail h.slots
  indices := by
    intro i hi
    have hindex := h.indices (i + 1) (Nat.succ_lt_succ hi)
    rw [show pos + 1 + i = pos + (i + 1) by omega, ← hindex]
    rfl

/-- A post goes behind the pending entries; the ring has a free one, so that
is no held slot. -/
theorem HeldAt.post {rx rx' : XskRingCons} {pos : Nat} {held : List (UInt32 × XdpDesc)}
    {pending : List XdpDesc} {desc : XdpDesc} (h : HeldAt rx pos held pending)
    (hpost : kernelDefault.post rx desc = some rx') : HeldAt rx' pos held (pending ++ [desc]) := by
  have hring := h.ring.post hpost
  obtain ⟨hfree, rfl⟩ := h.ring.post_eq hpost
  refine ⟨hring, ?_, h.indices⟩
  intro i hi
  have hlt : i < held.length := by rwa [List.length_map] at hi
  show Function.update rx.entries _ desc (UInt32.ofNat ((pos + i) % 2048)) = _
  rw [ofNat_and_mask, Nat.add_assoc, Function.update_of_ne (slot_ne (by omega) hfree (by omega))]
  exact h.slots i hi

private theorem xskDefault_heldContract : HeldContract xskDefault kernelDefault RxHeld where
  peek_nil := fun ⟨pos, h⟩ => ⟨_, h.ring.peek_nil, pos, h⟩
  peek_cons := fun ⟨pos, h⟩ => ⟨_, _, h.ring.peek_cons.1, pos, h.peek_cons⟩
  rxDesc := fun ⟨_, h⟩ _ he => h.rxDesc he
  release := fun ⟨pos, h⟩ => ⟨pos + 1, h.release⟩
  release_desc := fun _ _ => rfl
  post := fun ⟨pos, h⟩ hpost => ⟨pos, h.post hpost⟩

private theorem rxHeld_rxOf (desc : XdpDesc) {n : Nat} (hn : n ≤ 2048) :
    RxHeld (rxOf desc n) [] (List.replicate n desc) := by
  obtain ⟨pos, h⟩ := rxHolds_rxOf desc hn
  exact ⟨pos, h, Verified.Circular.Holds.nil _ _ _, fun i hi => absurd hi (Nat.not_lt_zero i)⟩

/-! ## The machine -/

/-- A call that has peeked: the index, and the address its entry held then. -/
structure Call where
  idxRx : UInt32
  peekedAddr : UInt64
  deriving DecidableEq, Repr

/-- Where the calling thread is, by its next access. -/
inductive BridgePc
  /-- `xsk_ring_cons__peek`. -/
  | idle
  /-- The two fields of `*desc`, and the check. -/
  | fetch (call : Call)
  /-- Invalid: `desc->addr` for `recycle_frame`. -/
  | dropRead (call : Call)
  | dropRecycle (call : Call) (addr : UInt64)
  | dropRelease (call : Call)
  | push (call : Call) (desc : PorthDescriptor)
  | release (call : Call) (desc : PorthDescriptor)
  /-- Pushed and released: `desc->addr` for `recycle_frame`. -/
  | reread (call : Call)
  | recycle (call : Call) (addr : UInt64)
  deriving DecidableEq, Repr

/-- The portal, the shuttle's ring, the statistics and the thread.
`submitted` is a history: for each address submitted to the fill ring, the one
its call peeked and the one it submitted. -/
structure BridgeRun (Rx Fill : Type) where
  portal : PorthXDPPortal Rx Fill
  ring : PorthRingBuffer
  stats : Option PorthStats
  pc : BridgePc
  submitted : List (UInt64 × UInt64)

/-- An access of the call, or what may happen between two of them. -/
inductive BridgeOp
  /-- The next access of the call, or of a new one. -/
  | bridge
  | pop (outDesc : PorthDescriptor)
  | post (desc : XdpDesc)
  | take

namespace BridgeRun

section Machine

variable (xsk : Xsk Rx Fill) (kernel : Kernel Rx Fill) (size : UInt64)

/-- Reserve and submit, with the address the call has read. -/
def afterRecycle (s : BridgeRun Rx Fill) (call : Call) (addr : UInt64) : BridgeRun Rx Fill :=
  { s with
    portal := s.portal.recycleFrame xsk addr
    submitted :=
      if Xsk.hasSlot xsk s.portal.fillRing then s.submitted ++ [(call.peekedAddr, addr)]
      else s.submitted }

/-- One access of `bridge_to_shuttle`. -/
def next (s : BridgeRun Rx Fill) : BridgeRun Rx Fill :=
  match s.pc with
  | .idle =>
      match xsk.peek s.portal.rxRing with
      | (none, rx) => { s with portal := { s.portal with rxRing := rx } }
      | (some idx, rx) =>
          { s with
            portal := { s.portal with rxRing := rx }
            pc := .fetch { idxRx := idx, peekedAddr := (xsk.rxDesc rx idx).addr } }
  | .fetch call =>
      let desc := xsk.rxDesc s.portal.rxRing call.idxRx
      if s.portal.accepts xsk desc = false then
        { s with stats := s.stats.map (·.drop), pc := .dropRead call }
      else { s with pc := .push call (handOver xsk desc) }
  | .dropRead call =>
      { s with pc := .dropRecycle call (xsk.rxDesc s.portal.rxRing call.idxRx).addr }
  | .dropRecycle call addr => { s.afterRecycle xsk call addr with pc := .dropRelease call }
  | .dropRelease _ => { s with portal := s.portal.releaseRx xsk, pc := .idle }
  | .push call desc =>
      match push size s.ring desc with
      | (true, ring) => { s with ring := ring, pc := .release call desc }
      | (false, ring) => { s with ring := ring, stats := s.stats.map (·.drop), pc := .idle }
  | .release call desc =>
      { s with
        portal := s.portal.releaseRx xsk
        stats := s.stats.map (·.accept desc.len)
        pc := .reread call }
  | .reread call =>
      { s with pc := .recycle call (xsk.rxDesc s.portal.rxRing call.idxRx).addr }
  | .recycle call addr => { s.afterRecycle xsk call addr with pc := .idle }

/-- The kernel posts a packet, if the rx ring has room. -/
def afterPost (s : BridgeRun Rx Fill) (desc : XdpDesc) : BridgeRun Rx Fill :=
  match kernel.post s.portal.rxRing desc with
  | some rx => { s with portal := { s.portal with rxRing := rx } }
  | none => s

/-- The kernel takes a frame out of the fill ring, if there is one. -/
def afterTake (s : BridgeRun Rx Fill) : BridgeRun Rx Fill :=
  match kernel.take s.portal.fillRing with
  | some (_, fill) => { s with portal := { s.portal with fillRing := fill } }
  | none => s

/-- One step of the call or of its surroundings. -/
def apply (s : BridgeRun Rx Fill) : BridgeOp → BridgeRun Rx Fill
  | .bridge => s.next xsk size
  | .pop outDesc => { s with ring := (pop size s.ring outDesc).2.2 }
  | .post desc => s.afterPost kernel desc
  | .take => s.afterTake kernel

/-- No call under way and no entry held. -/
structure Start (rxHeld : Rx → List (UInt32 × XdpDesc) → List XdpDesc → Prop)
    (s : BridgeRun Rx Fill) : Prop where
  rx : ∃ pending, rxHeld s.portal.rxRing [] pending
  pc : s.pc = .idle
  submitted : s.submitted = []

/-- All interleavings of calls with a consumer and the kernel. -/
def system (rxHeld : Rx → List (UInt32 × XdpDesc) → List XdpDesc → Prop) :
    System (BridgeRun Rx Fill) BridgeOp where
  init := Start rxHeld
  step := fun s op t => t = s.apply xsk kernel size op

end Machine

/-! ## A call nobody interrupts -/

section

variable {xsk : Xsk Rx Fill} {size : UInt64} {s : BridgeRun Rx Fill}

/-- Accesses of a call with nothing in between. -/
def solo (xsk : Xsk Rx Fill) (size : UInt64) (n : Nat) (s : BridgeRun Rx Fill) :
    BridgeRun Rx Fill :=
  (next xsk size)^[n] s

/-- What `bridge_to_shuttle` as one operation leaves. -/
structure Completed (out : Bridge Rx Fill) (t : BridgeRun Rx Fill) : Prop where
  portal : t.portal = out.portal
  ring : t.ring = out.ring
  stats : t.stats = out.stats
  pc : t.pc = .idle

/-- **The steps are those of the call.**  Without anyone else, the accesses of
a call add up to `bridgeToShuttle`. -/
theorem solo_completes (s : BridgeRun Rx Fill) (hpc : s.pc = .idle) :
    ∃ n, Completed (bridgeToShuttle xsk size s.portal s.ring s.stats) (solo xsk size n s) := by
  obtain ⟨portal, ring, stats, pc, submitted⟩ := s
  obtain rfl : pc = .idle := hpc
  rcases hpeek : xsk.peek portal.rxRing with ⟨_ | idx, rx⟩
  · rw [bridge_noPacket size hpeek]
    refine ⟨1, ?_⟩
    simp only [solo, Function.iterate_one, next, hpeek]
    exact ⟨rfl, rfl, rfl, rfl⟩
  · cases hvalid : portal.accepts xsk (xsk.rxDesc rx idx) with
    | false =>
        rw [bridge_invalid size hpeek hvalid]
        have hfetch : PorthXDPPortal.accepts xsk { portal with rxRing := rx }
            (xsk.rxDesc rx idx) = false := hvalid
        refine ⟨5, ?_⟩
        simp only [solo, Function.iterate_succ, Function.comp_apply, Function.iterate_zero, id,
          next, hpeek, hfetch, if_true, afterRecycle]
        exact ⟨rfl, rfl, rfl, rfl⟩
    | true =>
        have hfetch : PorthXDPPortal.accepts xsk { portal with rxRing := rx }
            (xsk.rxDesc rx idx) = true := hvalid
        rcases hpush : push size ring (handOver xsk (xsk.rxDesc rx idx)) with ⟨_ | _, ring'⟩
        · rw [bridge_push_false stats hpeek hvalid hpush]
          refine ⟨3, ?_⟩
          simp only [solo, Function.iterate_succ, Function.comp_apply, Function.iterate_zero, id,
            next, hpeek, hfetch, Bool.true_eq_false, if_false, hpush]
          exact ⟨rfl, rfl, rfl, rfl⟩
        · rw [bridge_push_true stats hpeek hvalid hpush]
          refine ⟨6, ?_⟩
          simp only [solo, Function.iterate_succ, Function.comp_apply, Function.iterate_zero, id,
            next, hpeek, hfetch, Bool.true_eq_false, if_false, hpush, afterRecycle]
          exact ⟨rfl, rfl, rfl, rfl⟩

end

/-! ## The address a call recycles -/

end BridgeRun

/-- The call whose entry is peeked and not yet released. -/
def BridgePc.holding : BridgePc → Option Call
  | .fetch call | .dropRead call | .dropRecycle call _ | .dropRelease call | .push call _
  | .release call _ => some call
  | .idle | .reread _ | .recycle _ _ => none

/-- The call that has read the address it will submit. -/
def BridgePc.loaded : BridgePc → Option (Call × UInt64)
  | .dropRecycle call addr | .recycle call addr => some (call, addr)
  | _ => none

namespace BridgeRun

section

variable (xsk : Xsk Rx Fill) (kernel : Kernel Rx Fill)
  (rxHeld : Rx → List (UInt32 × XdpDesc) → List XdpDesc → Prop)

/-- A post between the release of a forwarded packet and the second read of
its address leaves the address in its slot as it was. -/
def KeepsSlot (s : BridgeRun Rx Fill) : BridgeOp → Prop
  | .post desc => ∀ call rx, s.pc = .reread call → kernel.post s.portal.rxRing desc = some rx →
      (xsk.rxDesc rx call.idxRx).addr = (xsk.rxDesc s.portal.rxRing call.idxRx).addr
  | _ => True

/-- What the pointer of the call under way points at. -/
structure Inv (s : BridgeRun Rx Fill) : Prop where
  held : ∃ held pending, rxHeld s.portal.rxRing held pending ∧
    ∀ call, s.pc.holding = some call → ∃ desc : XdpDesc, (call.idxRx, desc) ∈ held ∧
      desc.addr = call.peekedAddr
  reread : ∀ call, s.pc = .reread call →
    (xsk.rxDesc s.portal.rxRing call.idxRx).addr = call.peekedAddr
  loaded : ∀ call addr, s.pc.loaded = some (call, addr) → addr = call.peekedAddr
  submitted : ∀ e ∈ s.submitted, e.1 = e.2

end

variable {xsk : Xsk Rx Fill} {kernel : Kernel Rx Fill} {size : UInt64}
  {rxHeld : Rx → List (UInt32 × XdpDesc) → List XdpDesc → Prop} {s : BridgeRun Rx Fill}

theorem Start.inv (h : Start rxHeld s) : Inv xsk rxHeld s where
  held := by
    obtain ⟨pending, hrx⟩ := h.rx
    refine ⟨[], pending, hrx, ?_⟩
    intro call hcall
    rw [h.pc] at hcall
    cases hcall
  reread := by
    intro call hpc
    rw [h.pc] at hpc
    cases hpc
  loaded := by
    intro call addr hpc
    rw [h.pc] at hpc
    cases hpc
  submitted := by
    intro e he
    rw [h.submitted] at he
    cases he

/-- While the entry is held its slot has the address that was peeked. -/
theorem Inv.slot (hc : HeldContract xsk kernel rxHeld) (h : Inv xsk rxHeld s) {call : Call}
    (hcall : s.pc.holding = some call) :
    (xsk.rxDesc s.portal.rxRing call.idxRx).addr = call.peekedAddr := by
  obtain ⟨held, pending, hrx, hentry⟩ := h.held
  obtain ⟨desc, hmem, haddr⟩ := hentry call hcall
  rw [hc.rxDesc hrx _ hmem]
  exact haddr

/-- Releasing gives back the oldest entry, whichever call peeked it. -/
theorem Inv.release (hc : HeldContract xsk kernel rxHeld) (h : Inv xsk rxHeld s) {call : Call}
    (hcall : s.pc.holding = some call) :
    ∃ held pending, rxHeld (xsk.release s.portal.rxRing) held pending := by
  obtain ⟨held, pending, hrx, hentry⟩ := h.held
  obtain ⟨desc, hmem, -⟩ := hentry call hcall
  cases held with
  | nil => cases hmem
  | cons e held => exact ⟨held, pending, hc.release hrx⟩

/-- A submitted address is the one the call has read. -/
theorem Inv.recycled (h : Inv xsk rxHeld s) {call : Call} {addr : UInt64}
    (hloaded : s.pc.loaded = some (call, addr)) :
    ∀ e ∈ (s.afterRecycle xsk call addr).submitted, e.1 = e.2 := by
  intro e he
  unfold afterRecycle at he
  by_cases hslot : Xsk.hasSlot xsk s.portal.fillRing = true
  · simp only [hslot, if_true, List.mem_append, List.mem_singleton] at he
    rcases he with hold | rfl
    · exact h.submitted e hold
    · exact (h.loaded call addr hloaded).symm
  · simp only [hslot, Bool.false_eq_true, if_false] at he
    exact h.submitted e he

/-- Between calls only the rings and the history count. -/
theorem Inv.of_idle {t : BridgeRun Rx Fill}
    (hrx : ∃ held pending, rxHeld t.portal.rxRing held pending) (hpc : t.pc = .idle)
    (hsubmitted : ∀ e ∈ t.submitted, e.1 = e.2) : Inv xsk rxHeld t where
  held := by
    obtain ⟨held, pending, hrx⟩ := hrx
    exact ⟨held, pending, hrx, fun call hcall => by rw [hpc] at hcall; cases hcall⟩
  reread := fun call hcall => by rw [hpc] at hcall; cases hcall
  loaded := fun call addr hcall => by rw [hpc] at hcall; cases hcall
  submitted := hsubmitted

/-- A call goes on without touching the rx ring. -/
theorem Inv.goes_on (h : Inv xsk rxHeld s) {t : BridgeRun Rx Fill} {call : Call}
    (hcall : s.pc.holding = some call) (hrx : t.portal.rxRing = s.portal.rxRing)
    (hnext : t.pc.holding = some call)
    (hloaded : ∀ call addr, t.pc.loaded = some (call, addr) → addr = call.peekedAddr)
    (hsubmitted : ∀ e ∈ t.submitted, e.1 = e.2) : Inv xsk rxHeld t where
  held := by
    obtain ⟨held, pending, hheld, hentry⟩ := h.held
    refine ⟨held, pending, hrx ▸ hheld, ?_⟩
    intro call' hcall'
    obtain rfl := Option.some.inj (hnext.symm.trans hcall')
    exact hentry call hcall
  reread := fun call' hpc => by rw [hpc] at hnext; cases hnext
  loaded := hloaded
  submitted := hsubmitted

theorem Inv.next (hc : HeldContract xsk kernel rxHeld) (h : Inv xsk rxHeld s) :
    Inv xsk rxHeld (s.next xsk size) := by
  cases hpc : s.pc with
  | idle =>
      obtain ⟨held, pending, hrx, -⟩ := h.held
      cases pending with
      | nil =>
          obtain ⟨rx, hpeek, hrx'⟩ := hc.peek_nil hrx
          simp only [BridgeRun.next, hpc, hpeek]
          exact .of_idle ⟨held, [], hrx'⟩ rfl h.submitted
      | cons desc rest =>
          obtain ⟨idx, rx, hpeek, hrx'⟩ := hc.peek_cons hrx
          have hdesc : xsk.rxDesc rx idx = desc :=
            hc.rxDesc hrx' (idx, desc) List.mem_concat_self
          simp only [BridgeRun.next, hpc, hpeek, hdesc]
          refine ⟨⟨_, rest, hrx', ?_⟩, ?_, ?_, h.submitted⟩
          · intro call hcall
            cases hcall
            exact ⟨desc, List.mem_concat_self, rfl⟩
          · intro call hcall
            cases hcall
          · intro call addr hcall
            cases hcall
  | fetch call =>
      have hcall : s.pc.holding = some call := by rw [hpc]; rfl
      simp only [BridgeRun.next, hpc]
      split
      · exact h.goes_on hcall rfl rfl (fun call addr hload => by cases hload) h.submitted
      · exact h.goes_on hcall rfl rfl (fun call addr hload => by cases hload) h.submitted
  | dropRead call =>
      have hcall : s.pc.holding = some call := by rw [hpc]; rfl
      simp only [BridgeRun.next, hpc]
      refine h.goes_on hcall rfl rfl (fun call addr hload => ?_) h.submitted
      cases hload
      exact h.slot hc hcall
  | dropRecycle call addr =>
      have hcall : s.pc.holding = some call := by rw [hpc]; rfl
      simp only [BridgeRun.next, hpc]
      refine h.goes_on hcall (recycleFrame_rxRing _ _ _) rfl
        (fun call addr hload => by cases hload) ?_
      exact h.recycled (by rw [hpc]; rfl)
  | dropRelease call =>
      have hcall : s.pc.holding = some call := by rw [hpc]; rfl
      simp only [BridgeRun.next, hpc]
      exact .of_idle (h.release hc hcall) rfl h.submitted
  | push call desc =>
      have hcall : s.pc.holding = some call := by rw [hpc]; rfl
      obtain ⟨held, pending, hrx, -⟩ := h.held
      simp only [BridgeRun.next, hpc]
      split
      · exact h.goes_on hcall rfl rfl (fun call addr hload => by cases hload) h.submitted
      · exact .of_idle ⟨held, pending, hrx⟩ rfl h.submitted
  | release call desc =>
      have hcall : s.pc.holding = some call := by rw [hpc]; rfl
      obtain ⟨held, pending, hrx⟩ := h.release hc hcall
      simp only [BridgeRun.next, hpc]
      refine ⟨⟨held, pending, hrx, ?_⟩, ?_, ?_, h.submitted⟩
      · intro call' hcall'
        cases hcall'
      · intro call' hcall'
        cases hcall'
        show (xsk.rxDesc (xsk.release s.portal.rxRing) call.idxRx).addr = _
        rw [hc.release_desc]
        exact h.slot hc hcall
      · intro call' addr hcall'
        cases hcall'
  | reread call =>
      obtain ⟨held, pending, hrx, -⟩ := h.held
      simp only [BridgeRun.next, hpc]
      refine ⟨⟨held, pending, hrx, ?_⟩, ?_, ?_, h.submitted⟩
      · intro call' hcall'
        cases hcall'
      · intro call' hcall'
        cases hcall'
      · intro call' addr hcall'
        cases hcall'
        exact h.reread call hpc
  | recycle call addr =>
      obtain ⟨held, pending, hrx, -⟩ := h.held
      simp only [BridgeRun.next, hpc]
      refine .of_idle ⟨held, pending, ?_⟩ rfl (h.recycled (by rw [hpc]; rfl))
      rwa [show (s.afterRecycle xsk call addr).portal.rxRing = s.portal.rxRing from
        recycleFrame_rxRing _ _ _]

theorem Inv.post (hc : HeldContract xsk kernel rxHeld) (h : Inv xsk rxHeld s) {desc : XdpDesc}
    (hkeeps : KeepsSlot xsk kernel s (.post desc)) : Inv xsk rxHeld (s.afterPost kernel desc) := by
  unfold afterPost
  cases hpost : kernel.post s.portal.rxRing desc with
  | none => exact h
  | some rx =>
      obtain ⟨held, pending, hrx, hentry⟩ := h.held
      refine ⟨⟨held, _, hc.post hrx hpost, hentry⟩, ?_, h.loaded, h.submitted⟩
      intro call hpc
      exact (hkeeps call rx hpc hpost).trans (h.reread call hpc)

theorem Inv.step (hc : HeldContract xsk kernel rxHeld) (h : Inv xsk rxHeld s) {op : BridgeOp}
    (hkeeps : KeepsSlot xsk kernel s op) : Inv xsk rxHeld (s.apply xsk kernel size op) := by
  cases op with
  | bridge => exact h.next hc
  | pop outDesc => exact ⟨h.held, h.reread, h.loaded, h.submitted⟩
  | post desc => exact h.post hc hkeeps
  | take =>
      show Inv xsk rxHeld (s.afterTake kernel)
      unfold afterTake
      split
      · exact ⟨h.held, h.reread, h.loaded, h.submitted⟩
      · exact h

/-- A post into the slot of a released packet: the next two accesses of its
call submit what the kernel left there. -/
theorem Inv.submits_other (h : Inv xsk rxHeld s) {desc : XdpDesc}
    (hpost : ¬KeepsSlot xsk kernel s (.post desc))
    (hslot : Xsk.hasSlot xsk s.portal.fillRing = true) :
    ∃ e ∈ (((s.afterPost kernel desc).next xsk size).next xsk size).submitted, e.1 ≠ e.2 := by
  simp only [KeepsSlot, not_forall] at hpost
  obtain ⟨call, rx, hpc, hrx, haddr⟩ := hpost
  rw [h.reread call hpc] at haddr
  refine ⟨(call.peekedAddr, (xsk.rxDesc rx call.idxRx).addr), ?_, Ne.symm haddr⟩
  simp only [afterPost, hrx, BridgeRun.next, hpc, afterRecycle, hslot, if_true]
  exact List.mem_concat_self

/-- **The frame recycled is the frame received, unless the kernel is faster.**
As long as no post between the release of a forwarded packet and the second
read of its address changes that address, every call submits the address it
peeked.  One such post, and a call that finds a slot submits another one. -/
theorem recycles_received (hc : HeldContract xsk kernel rxHeld)
    (h : ((system xsk kernel size rxHeld).restrict (KeepsSlot xsk kernel)).Reachable s) :
    (∀ e ∈ s.submitted, e.1 = e.2) ∧
      ∀ desc, ¬KeepsSlot xsk kernel s (.post desc) →
        Xsk.hasSlot xsk s.portal.fillRing = true →
          ∃ e ∈ (((s.afterPost kernel desc).next xsk size).next xsk size).submitted,
            e.1 ≠ e.2 := by
  have hinv : Inv xsk rxHeld s := by
    refine System.Reachable.invariant (fun s (hs : Start rxHeld s) => hs.inv) ?_ h
    rintro s op t hs ⟨hkeeps, rfl⟩
    exact hs.step hc hkeeps
  exact ⟨hinv.submitted, fun desc hpost hslot => hinv.submits_other hpost hslot⟩

/-! ## A full rx ring -/

/-- A packet inside the bound memory, pending `n` times. -/
def sample (n : Nat) : BridgeRun XskRingCons XskRingProd where
  portal :=
    { rxRing := rxOf { addr := 0x300000, len := 64 } n
      fillRing := fillEmpty
      umemStart := 0x200000
      umemEnd := 0x400000 }
  ring := .fresh fun _ => default
  stats := none
  pc := .idle
  submitted := []

theorem sample_start {n : Nat} (hn : n ≤ 2048) : Start RxHeld (sample n) where
  rx := ⟨_, rxHeld_rxOf _ hn⟩
  pc := rfl
  submitted := rfl

/-- Operations in order. -/
def after (ops : List BridgeOp) (s : BridgeRun XskRingCons XskRingProd) :
    BridgeRun XskRingCons XskRingProd :=
  ops.foldl (apply xskDefault kernelDefault 1024) s

theorem recycles_received_alone :
    (after (List.replicate 6 .bridge) (sample 1)).submitted = [(0x300000, 0x300000)] ∧
      ∀ e ∈ (after (List.replicate 6 .bridge) (sample 1)).submitted, e.1 = e.2 := by
  have hreach : ((system xskDefault kernelDefault 1024 RxHeld).restrict
      (KeepsSlot xskDefault kernelDefault)).Reachable
        (after (List.replicate 6 .bridge) (sample 1)) := by
    refine (System.Reachable.of_init (sample_start (by decide))).run (System.Run.foldl ?_ _)
    intro s op hop
    rw [List.eq_of_mem_replicate hop]
    exact ⟨trivial, rfl⟩
  exact ⟨by decide, (recycles_received xskDefault_heldContract hreach).1⟩

/-- The kernel waits for an entry of the full ring and posts another frame
there while the call is between its release and its second read. -/
def overtaken : BridgeRun XskRingCons XskRingProd :=
  after [.bridge, .bridge, .bridge, .bridge, .post { addr := 0x310000, len := 64 }, .bridge,
    .bridge] (sample 2048)

theorem stale_address_recycled :
    (system xskDefault kernelDefault 1024 RxHeld).Reachable overtaken ∧
      overtaken.submitted = [(0x300000, 0x310000)] :=
  ⟨(System.Reachable.of_init (sample_start (by decide))).run
    (System.Run.foldl (fun _ _ _ => rfl) _), by decide⟩

end BridgeRun

end PorthCore.Ports.BridgeSteps
