import PorthCore.Verified.Circular
import PorthCore.Ports.XdpPortal

/-!
# What the portal may rely on in libxdp

`Kernel` is the other side of the two rings: it posts rx descriptors and takes
addresses from the fill ring.  `XskContract` is what is documented about both
sides, over two representation relations: an rx ring holds `lag` entries that
were peeked and not released and the entries still pending, a fill ring holds
the addresses the kernel may take.

`xskDefault_contract` shows that the rings of `XdpPortal`, with their
free-running 32-bit indices and 2048 slots, keep it.
-/

namespace PorthCore.Ports.XskRings

open PorthCore.Verified.Circular
open PorthCore.Ports.XdpPortal

/-- The kernel's side of the rings. -/
structure Kernel (Rx Fill : Type) where
  /-- Posts an rx descriptor, if the ring has a free entry. -/
  post : Rx → XdpDesc → Option Rx
  /-- Takes the oldest address from the fill ring, if there is one. -/
  take : Fill → Option (UInt64 × Fill)

variable {Rx Fill : Type}

/-- `peek` advances the cached index over the oldest pending entry, `release`
the shared one by an entry; `reserve` yields a slot or none, and `submit`
hands what was stored there to the kernel. -/
structure XskContract (xsk : Xsk Rx Fill) (kernel : Kernel Rx Fill)
    (rxHolds : Rx → Nat → List XdpDesc → Prop) (fillHolds : Fill → List UInt64 → Prop) :
    Prop where
  peek_nil : ∀ {rx lag}, rxHolds rx lag [] →
    ∃ rx', xsk.peek rx = (none, rx') ∧ rxHolds rx' lag []
  peek_cons : ∀ {rx lag desc rest}, rxHolds rx lag (desc :: rest) →
    ∃ idx rx', xsk.peek rx = (some idx, rx') ∧ xsk.rxDesc rx' idx = desc ∧
      rxHolds rx' (lag + 1) rest
  release : ∀ {rx lag pending}, rxHolds rx (lag + 1) pending →
    rxHolds (xsk.release rx) lag pending
  release_desc : ∀ rx idx, xsk.rxDesc (xsk.release rx) idx = xsk.rxDesc rx idx
  reserve_none : ∀ {fill avail}, fillHolds fill avail → (xsk.reserve fill).1 = none →
    fillHolds (xsk.reserve fill).2 avail
  reserve_some : ∀ {fill avail idx}, fillHolds fill avail → (xsk.reserve fill).1 = some idx →
    ∀ addr, fillHolds (xsk.submit (xsk.setFillAddr (xsk.reserve fill).2 idx addr))
      (avail ++ [addr])
  post : ∀ {rx lag pending desc rx'}, rxHolds rx lag pending → kernel.post rx desc = some rx' →
    rxHolds rx' lag (pending ++ [desc])
  take : ∀ {fill avail addr fill'}, fillHolds fill avail →
    kernel.take fill = some (addr, fill') → ∃ rest, avail = addr :: rest ∧ fillHolds fill' rest
  fill_unique : ∀ {fill avail avail'}, fillHolds fill avail → fillHolds fill avail' →
    avail = avail'

/-- `reserve` would yield a slot. -/
def Xsk.hasSlot (xsk : Xsk Rx Fill) (fill : Fill) : Bool := (xsk.reserve fill).1.isSome

/-- The addresses the kernel may take once the portal has tried to recycle
`addr`. -/
def recycledAvail (xsk : Xsk Rx Fill) (fill : Fill) (avail : List UInt64) (addr : UInt64) :
    List UInt64 :=
  if Xsk.hasSlot xsk fill then avail ++ [addr] else avail

/-- `recycle_frame` puts the address into the fill ring if there is a slot. -/
theorem XskContract.recycle {xsk : Xsk Rx Fill} {kernel : Kernel Rx Fill}
    {rxHolds : Rx → Nat → List XdpDesc → Prop} {fillHolds : Fill → List UInt64 → Prop}
    (h : XskContract xsk kernel rxHolds fillHolds) (portal : PorthXDPPortal Rx Fill)
    {avail : List UInt64} (hfill : fillHolds portal.fillRing avail) (addr : UInt64) :
    fillHolds (portal.recycleFrame xsk addr).fillRing
      (recycledAvail xsk portal.fillRing avail addr) := by
  unfold PorthXDPPortal.recycleFrame recycledAvail Xsk.hasSlot
  rcases hreserve : xsk.reserve portal.fillRing with ⟨_ | idx, fill⟩
  · have hnone := h.reserve_none hfill (by rw [hreserve])
    rw [hreserve] at hnone
    simpa using hnone
  · have hsome := h.reserve_some hfill (show (xsk.reserve portal.fillRing).1 = some idx by
      rw [hreserve]) addr
    rw [hreserve] at hsome
    simpa using hsome

@[simp] theorem recycleFrame_rxRing (xsk : Xsk Rx Fill) (portal : PorthXDPPortal Rx Fill)
    (addr : UInt64) : (portal.recycleFrame xsk addr).rxRing = portal.rxRing := by
  unfold PorthXDPPortal.recycleFrame
  split <;> rfl

/-! ## The default rings -/

/-- The kernel beside `xskDefault`. -/
def kernelDefault : Kernel XskRingCons XskRingProd where
  post rx desc :=
    if rx.producer - rx.consumer < 2048 then
      some
        { rx with
          entries := Function.update rx.entries (rx.producer &&& 2047) desc
          producer := rx.producer + 1 }
    else none
  take fill :=
    if fill.consumer = fill.producer then none
    else some (fill.entries (fill.consumer &&& 2047), { fill with consumer := fill.consumer + 1 })

/-- Masking a free-running index names its slot. -/
theorem ofNat_and_mask (n : Nat) : UInt32.ofNat n &&& 2047 = UInt32.ofNat (n % 2048) := by
  apply UInt32.toNat_inj.mp
  have hmask : n % 2 ^ 32 &&& 2 ^ 11 - 1 = n % 2 ^ 32 % 2 ^ 11 :=
    Nat.and_two_pow_sub_one_eq_mod _ 11
  have hsmall : n % 2048 < 2 ^ 32 := by omega
  rw [UInt32.toNat_and, UInt32.toNat_ofNat', UInt32.toNat_ofNat', Nat.mod_eq_of_lt hsmall]
  exact hmask.trans (Nat.mod_mod_of_dvd n (Nat.pow_dvd_pow 2 (by decide)))

theorem ofNat_succ (n : Nat) : UInt32.ofNat n + 1 = UInt32.ofNat (n + 1) := by
  rw [UInt32.ofNat_add]
  rfl

/-- The distance of two free-running indices less than `2^32` apart. -/
theorem ofNat_add_sub (n k : Nat) : UInt32.ofNat (n + k) - UInt32.ofNat n = UInt32.ofNat k := by
  rw [UInt32.ofNat_add, UInt32.add_comm, UInt32.add_sub_cancel]

theorem ofNat_lt_2048 {k : Nat} (hk : k ≤ 2048) : UInt32.ofNat k < 2048 ↔ k < 2048 := by
  rw [UInt32.lt_iff_toNat_lt, UInt32.toNat_ofNat', Nat.mod_eq_of_lt (by omega)]
  rfl

theorem ofNat_inj {k k' : Nat} (hk : k ≤ 2048) (hk' : k' ≤ 2048)
    (heq : UInt32.ofNat k = UInt32.ofNat k') : k = k' := by
  have hnat := congrArg UInt32.toNat heq
  rwa [UInt32.toNat_ofNat', UInt32.toNat_ofNat',
    Nat.mod_eq_of_lt (show k < 2 ^ 32 by omega),
    Nat.mod_eq_of_lt (show k' < 2 ^ 32 by omega)] at hnat

private theorem ofNat_add_eq_iff {n k : Nat} (hk : k ≤ 2048) :
    UInt32.ofNat n = UInt32.ofNat (n + k) ↔ k = 0 := by
  constructor
  · intro heq
    have hzero : UInt32.ofNat k = 0 := by
      rw [← ofNat_add_sub n k, ← heq, UInt32.sub_self]
    exact ofNat_inj hk (Nat.zero_le _) hzero
  · intro hzero
    rw [hzero, Nat.add_zero]

/-- Offsets below one revolution have different slots. -/
theorem slot_ne {n i j : Nat} (hi : i < 2048) (hj : j < 2048) (hne : i ≠ j) :
    UInt32.ofNat ((n + i) % 2048) ≠ UInt32.ofNat ((n + j) % 2048) := by
  intro heq
  have hnat := congrArg UInt32.toNat heq
  rw [UInt32.toNat_ofNat', UInt32.toNat_ofNat',
    Nat.mod_eq_of_lt (show (n + i) % 2048 < 2 ^ 32 by omega),
    Nat.mod_eq_of_lt (show (n + j) % 2048 < 2 ^ 32 by omega)] at hnat
  exact hne (offset_inj hi hj hnat)

/-- A list laid out in the slots of a ring, behind the mask. -/
def Laid {α : Type} (entries : UInt32 → α) (start : Nat) (q : List α) : Prop :=
  Holds 2048 (fun slot => entries (UInt32.ofNat slot)) start q

/-- A store behind the last element extends the list. -/
theorem Laid.store {α : Type} {entries : UInt32 → α} {start : Nat} {q : List α}
    (h : Laid entries start q) (hlen : q.length < 2048) (x : α) :
    Laid (Function.update entries (UInt32.ofNat (start + q.length) &&& 2047) x) start
      (q ++ [x]) := by
  rw [ofNat_and_mask]
  refine Holds.push (fun i hi => ?_) (Function.update_self ..)
  rw [Function.update_of_ne (slot_ne (by omega) hlen (by omega))]
  exact h i hi

/-- The masked index of the first element reads it. -/
theorem Laid.read {α : Type} {entries : UInt32 → α} {start : Nat} {x : α} {q : List α}
    (h : Laid entries start (x :: q)) : entries (UInt32.ofNat start &&& 2047) = x := by
  rw [ofNat_and_mask]
  exact Holds.head h

theorem Laid.unique {α : Type} {entries : UInt32 → α} {start start' : Nat} {q q' : List α}
    (h : Laid entries start q) (h' : Laid entries start' q')
    (hstart : UInt32.ofNat start = UInt32.ofNat start') (hlen : q.length = q'.length) :
    q = q' := by
  have hnat := congrArg UInt32.toNat hstart
  rw [UInt32.toNat_ofNat', UInt32.toNat_ofNat'] at hnat
  exact Holds.unique h h' (by omega) hlen

/-- The rx ring with `pos` entries released so far. -/
structure RxAt (rx : XskRingCons) (pos lag : Nat) (pending : List XdpDesc) : Prop where
  consumer : rx.consumer = UInt32.ofNat pos
  cachedCons : rx.cachedCons = UInt32.ofNat (pos + lag)
  producer : rx.producer = UInt32.ofNat (pos + lag + pending.length)
  room : lag + pending.length ≤ 2048
  slots : Laid rx.entries (pos + lag) pending

/-- An rx ring with `lag` entries peeked and not released, and `pending` to
come. -/
def RxHolds (rx : XskRingCons) (lag : Nat) (pending : List XdpDesc) : Prop :=
  ∃ pos, RxAt rx pos lag pending

/-- The fill ring with `pos` addresses taken so far. -/
structure FillAt (fill : XskRingProd) (pos : Nat) (avail : List UInt64) : Prop where
  consumer : fill.consumer = UInt32.ofNat pos
  producer : fill.producer = UInt32.ofNat (pos + avail.length)
  cachedProd : fill.cachedProd = fill.producer
  room : avail.length ≤ 2048
  slots : Laid fill.entries pos avail

/-- A fill ring with the addresses `avail` to take. -/
def FillHolds (fill : XskRingProd) (avail : List UInt64) : Prop := ∃ pos, FillAt fill pos avail

theorem RxAt.peek_nil {rx : XskRingCons} {pos lag : Nat} (h : RxAt rx pos lag []) :
    xskDefault.peek rx = (none, rx) := by
  have hsame : rx.cachedCons = rx.producer := by
    rw [h.cachedCons, h.producer]
    rfl
  exact if_pos hsame

theorem RxAt.peek_cons {rx : XskRingCons} {pos lag : Nat} {desc : XdpDesc}
    {rest : List XdpDesc} (h : RxAt rx pos lag (desc :: rest)) :
    xskDefault.peek rx = (some rx.cachedCons, { rx with cachedCons := rx.cachedCons + 1 }) ∧
      rx.entries (rx.cachedCons &&& 2047) = desc ∧
      RxAt { rx with cachedCons := rx.cachedCons + 1 } pos (lag + 1) rest := by
  have hroom := h.room
  rw [List.length_cons] at hroom
  have hne : rx.cachedCons ≠ rx.producer := by
    rw [h.cachedCons, h.producer, Ne, ofNat_add_eq_iff (by rw [List.length_cons]; omega)]
    exact Nat.succ_ne_zero _
  refine ⟨if_neg hne, ?_, ?_⟩
  · rw [h.cachedCons]
    exact h.slots.read
  · exact
      { consumer := h.consumer
        cachedCons := by
          show rx.cachedCons + 1 = _
          rw [h.cachedCons, ofNat_succ, Nat.add_assoc]
        producer := by
          show rx.producer = _
          rw [h.producer, List.length_cons]
          exact congrArg _ (by omega)
        room := by omega
        slots := Holds.tail h.slots }

theorem RxAt.release {rx : XskRingCons} {pos lag : Nat} {pending : List XdpDesc}
    (h : RxAt rx pos (lag + 1) pending) :
    RxAt (xskDefault.release rx) (pos + 1) lag pending := by
  have hpos : pos + (lag + 1) = pos + 1 + lag := by omega
  have hroom := h.room
  exact
    { consumer := by
        show rx.consumer + 1 = _
        rw [h.consumer, ofNat_succ]
      cachedCons := hpos ▸ h.cachedCons
      producer := hpos ▸ h.producer
      room := by omega
      slots := hpos ▸ h.slots }

/-- A post finds a free entry and stores behind the last pending one. -/
theorem RxAt.post_eq {rx rx' : XskRingCons} {pos lag : Nat} {pending : List XdpDesc}
    {desc : XdpDesc} (h : RxAt rx pos lag pending) (hpost : kernelDefault.post rx desc = some rx') :
    lag + pending.length < 2048 ∧
      rx' =
        { rx with
          entries := Function.update rx.entries
            (UInt32.ofNat (pos + lag + pending.length) &&& 2047) desc
          producer := rx.producer + 1 } := by
  have hroom := h.room
  have hdist : rx.producer - rx.consumer = UInt32.ofNat (lag + pending.length) := by
    rw [h.producer, h.consumer, Nat.add_assoc, ofNat_add_sub]
  have hiff : rx.producer - rx.consumer < 2048 ↔ lag + pending.length < 2048 := by
    rw [hdist, ofNat_lt_2048 hroom]
  by_cases hfree : rx.producer - rx.consumer < 2048
  · refine ⟨hiff.mp hfree, ?_⟩
    rw [← h.producer]
    exact (Option.some.inj (hpost.symm.trans (if_pos hfree)))
  · exact absurd (hpost.symm.trans (if_neg hfree)) (Option.some_ne_none _)

theorem RxAt.post {rx rx' : XskRingCons} {pos lag : Nat} {pending : List XdpDesc}
    {desc : XdpDesc} (h : RxAt rx pos lag pending) (hpost : kernelDefault.post rx desc = some rx') :
    RxAt rx' pos lag (pending ++ [desc]) := by
  obtain ⟨hfree, rfl⟩ := h.post_eq hpost
  exact
    { consumer := h.consumer
      cachedCons := h.cachedCons
      producer := by
        show rx.producer + 1 = _
        rw [h.producer, ofNat_succ, List.length_append]
        rfl
      room := by
        rw [List.length_append, List.length_singleton]
        omega
      slots := h.slots.store (by omega) desc }

theorem FillAt.unique {fill : XskRingProd} {pos pos' : Nat} {avail avail' : List UInt64}
    (h : FillAt fill pos avail) (h' : FillAt fill pos' avail') : avail = avail' := by
  have hlen : UInt32.ofNat avail.length = UInt32.ofNat avail'.length := by
    rw [← ofNat_add_sub pos avail.length, ← ofNat_add_sub pos' avail'.length, ← h.producer,
      ← h.consumer, ← h'.producer, ← h'.consumer]
  exact h.slots.unique h'.slots (h.consumer.symm.trans h'.consumer)
    (ofNat_inj h.room h'.room hlen)

theorem FillAt.reserve_none {fill : XskRingProd} {pos : Nat} {avail : List UInt64}
    (h : FillAt fill pos avail) (hnone : (xskDefault.reserve fill).1 = none) :
    FillAt (xskDefault.reserve fill).2 pos avail := by
  by_cases hfree : fill.cachedProd - fill.consumer < 2048
  · rw [show xskDefault.reserve fill = _ from if_pos hfree] at hnone
    cases hnone
  · rw [show xskDefault.reserve fill = (none, fill) from if_neg hfree]
    exact h

theorem FillAt.reserve_some {fill : XskRingProd} {pos : Nat} {avail : List UInt64} {idx : UInt32}
    (h : FillAt fill pos avail) (hsome : (xskDefault.reserve fill).1 = some idx) (addr : UInt64) :
    FillAt (xskDefault.submit (xskDefault.setFillAddr (xskDefault.reserve fill).2 idx addr)) pos
      (avail ++ [addr]) := by
  have hdist : fill.cachedProd - fill.consumer = UInt32.ofNat avail.length := by
    rw [h.cachedProd, h.producer, h.consumer, ofNat_add_sub]
  by_cases hfree : fill.cachedProd - fill.consumer < 2048
  · have hreserve : xskDefault.reserve fill =
        (some fill.cachedProd, { fill with cachedProd := fill.cachedProd + 1 }) := if_pos hfree
    rw [hreserve] at hsome ⊢
    obtain rfl := Option.some.inj hsome
    have hlen : avail.length < 2048 := by
      rwa [hdist, ofNat_lt_2048 h.room] at hfree
    exact
      { consumer := h.consumer
        producer := by
          show fill.producer + 1 = _
          rw [h.producer, ofNat_succ, List.length_append]
          rfl
        cachedProd := congrArg (· + 1) h.cachedProd
        room := by
          rw [List.length_append, List.length_singleton]
          omega
        slots := by
          show Laid (Function.update fill.entries (fill.cachedProd &&& 2047) addr) _ _
          rw [h.cachedProd, h.producer]
          exact h.slots.store hlen addr }
  · rw [show xskDefault.reserve fill = (none, fill) from if_neg hfree] at hsome
    cases hsome

theorem FillAt.take {fill fill' : XskRingProd} {pos : Nat} {avail : List UInt64} {addr : UInt64}
    (h : FillAt fill pos avail) (htake : kernelDefault.take fill = some (addr, fill')) :
    ∃ rest, avail = addr :: rest ∧ FillAt fill' (pos + 1) rest := by
  have hroom := h.room
  by_cases hempty : fill.consumer = fill.producer
  · exact absurd (htake.symm.trans (if_pos hempty)) (Option.some_ne_none _)
  · obtain ⟨rfl, rfl⟩ := Prod.mk.inj (Option.some.inj (htake.symm.trans (if_neg hempty)))
    cases avail with
    | nil => exact absurd (h.consumer.trans h.producer.symm) hempty
    | cons head rest =>
        rw [List.length_cons] at hroom
        refine ⟨rest, ?_, ?_⟩
        · rw [h.consumer, h.slots.read]
        · exact
            { consumer := by
                show fill.consumer + 1 = _
                rw [h.consumer, ofNat_succ]
              producer := by
                show fill.producer = _
                rw [h.producer, List.length_cons]
                exact congrArg _ (by omega)
              cachedProd := h.cachedProd
              room := by omega
              slots := Holds.tail h.slots }

/-- The default rings keep the contract. -/
theorem xskDefault_contract : XskContract xskDefault kernelDefault RxHolds FillHolds where
  peek_nil := fun ⟨pos, h⟩ => ⟨_, h.peek_nil, pos, h⟩
  peek_cons := fun ⟨pos, h⟩ =>
    ⟨_, _, h.peek_cons.1, h.peek_cons.2.1, pos, h.peek_cons.2.2⟩
  release := fun ⟨pos, h⟩ => ⟨pos + 1, h.release⟩
  release_desc := fun _ _ => rfl
  reserve_none := fun ⟨pos, h⟩ hnone => ⟨pos, h.reserve_none hnone⟩
  reserve_some := fun ⟨pos, h⟩ hsome addr => ⟨pos, h.reserve_some hsome addr⟩
  post := fun ⟨pos, h⟩ hpost => ⟨pos, h.post hpost⟩
  take := fun ⟨pos, h⟩ htake => by
    obtain ⟨rest, heq, hrest⟩ := h.take htake
    exact ⟨rest, heq, pos + 1, hrest⟩
  fill_unique := fun ⟨_, h⟩ ⟨_, h'⟩ => h.unique h'

/-- An rx ring in which `desc` is pending `n` times. -/
def rxOf (desc : XdpDesc) (n : Nat) : XskRingCons where
  entries := fun _ => desc
  cachedCons := 0
  producer := UInt32.ofNat n
  consumer := 0

theorem rxHolds_rxOf (desc : XdpDesc) {n : Nat} (hn : n ≤ 2048) :
    RxHolds (rxOf desc n) 0 (List.replicate n desc) :=
  ⟨0,
    { consumer := rfl
      cachedCons := rfl
      producer := by
        rw [List.length_replicate, Nat.add_zero, Nat.zero_add]
        rfl
      room := by
        rw [List.length_replicate]
        omega
      slots := fun i hi => (List.getElem_replicate hi).symm }⟩

/-- A fill ring whose first `n` addresses are there to take. -/
def fillOf (entries : UInt32 → UInt64) (n : Nat) : XskRingProd where
  entries := entries
  cachedProd := UInt32.ofNat n
  producer := UInt32.ofNat n
  consumer := 0

theorem fillHolds_fillOf (entries : UInt32 → UInt64) {n : Nat} (hn : n ≤ 2048) :
    FillHolds (fillOf entries n) ((List.range n).map fun i => entries (UInt32.ofNat i)) :=
  ⟨0,
    { consumer := rfl
      producer := by
        rw [List.length_map, List.length_range, Nat.zero_add]
        rfl
      cachedProd := rfl
      room := by
        rw [List.length_map, List.length_range]
        exact hn
      slots := by
        intro i hi
        rw [List.length_map, List.length_range] at hi
        rw [List.getElem_map, List.getElem_range, Nat.zero_add, Nat.mod_eq_of_lt (by omega)]
        rfl }⟩

/-- A fill ring nothing was put into. -/
def fillEmpty : XskRingProd where
  entries := fun _ => 0
  cachedProd := 0
  producer := 0
  consumer := 0

theorem fillHolds_fillEmpty : FillHolds fillEmpty [] :=
  ⟨0,
    { consumer := rfl
      producer := rfl
      cachedProd := rfl
      room := by decide
      slots := Holds.nil _ _ _ }⟩

end PorthCore.Ports.XskRings
