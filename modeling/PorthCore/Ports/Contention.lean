import Mathlib.Data.List.Nodup
import PorthCore.Verified.Transition
import PorthCore.Ports.DmaSteps

/-!
# `receive` against the drain loop

Three threads on one ring of 1024, one memory access at a time: `transmit`
pushes, `receive` pops, and the physics thread pops in the drain loop.  The
ring knows one consumer, so the two pops share `m_tail` as a plain variable:
each loads it, reads a slot and stores the successor of what it loaded.

Deliveries are exactly once, and `m_tail` only moves forward, in every run in
which a popper that stores `m_tail` has seen no pop complete since its own
load of it (`NoOverlap`).  When one has, the store writes a stale index:
`receive` and the device can hand out the same descriptor
(`delivered_twice`).

An accepted descriptor is named by its place in `accepted`.  `slotId` records
which of them a slot was last written with; it and the fields of `PopView` are
history, read by no step of the program.
-/

namespace PorthCore.Ports.Contention

open PorthCore.Verified.Transition
open PorthCore.Verified.Circular
open PorthCore.Ports.RingBuffer
open PorthCore.Ports.RingSteps
open PorthCore.Ports.SimDevice
open PorthCore.Ports.DmaSteps

/-- Who pops: the host in `receive`, or the device in `process_dma`. -/
inductive Popper
  | receive
  | device
  deriving DecidableEq

/-- A descriptor handed out: to whom, and which accepted one the slot held. -/
structure Delivery where
  popper : Popper
  id : Option Nat
  desc : PorthDescriptor
  deriving DecidableEq

/-- History of the pop under way: how many deliveries there were when it
loaded `m_tail`, and which descriptor it read. -/
structure PopView where
  loadedAt : Nat
  readId : Option Nat

/-- The history after a step of the pop at `pc`. -/
def PopView.next (view : PopView) (pc : PopPc) (done : Nat) (slotId : Nat → Option Nat) :
    PopView :=
  match pc with
  | .loadTail => { view with loadedAt := done }
  | .slotRead t => { view with readId := slotId t.toNat }
  | _ => view

/-- The deliveries a step of the pop at `pc` makes. -/
def PopView.delivers (view : PopView) (popper : Popper) (pc : PopPc) : List Delivery :=
  pc.returns.map fun desc => { popper := popper, id := view.readId, desc := desc }

/-- If the next step of the pop at `pc` is the store of `m_tail`, no pop has
completed since this one loaded it; `done` counts the deliveries so far. -/
def PopView.Fresh (view : PopView) (pc : PopPc) (done : Nat) : Prop :=
  pc.returns ≠ [] → view.loadedAt = done

instance (view : PopView) (pc : PopPc) (done : Nat) : Decidable (view.Fresh pc done) :=
  inferInstanceAs (Decidable (pc.returns ≠ [] → view.loadedAt = done))

/-- The slots as a step of the push at `pc` leaves them marked; `accepted` is
how many descriptors were accepted before it. -/
def markSlot (pc : PushPc) (accepted : Nat) (slotId : Nat → Option Nat) : Nat → Option Nat :=
  match pc with
  | .slotWrite _ h => Function.update slotId h.toNat (some accepted)
  | _ => slotId

/-- One ring between a host thread that transmits, one that receives and the
device, each at its program counter. -/
structure TwoConsumers where
  sim : PorthSimDevice
  mem : Heap
  tx : PushPc
  rx : PopPc
  dma : DmaPc
  slotId : Nat → Option Nat
  rxView : PopView
  dmaView : PopView
  accepted : List PorthDescriptor
  handed : List Delivery

/-- A call begins, or one access of it takes place. -/
inductive Act
  | transmit (desc : PorthDescriptor)
  | receive
  | pass
  | txStep
  | rxStep
  | dmaStep

namespace TwoConsumers

variable (a : RingAddress)

/-- The ring all three use. -/
def ring (s : TwoConsumers) : PorthRingBuffer := s.mem a.addr

/-- A step of `push`. -/
def afterTx (s : TwoConsumers) : TwoConsumers :=
  let r := s.tx.step 1024 (s.ring a)
  { s with
    mem := Function.update s.mem a.addr (r.1.apply (s.ring a))
    tx := r.2
    slotId := markSlot s.tx s.accepted.length s.slotId
    accepted := s.accepted ++ s.tx.accepts }

/-- A step of `receive`'s `pop`. -/
def afterRx (s : TwoConsumers) : TwoConsumers :=
  let r := s.rx.step 1024 (s.ring a)
  { s with
    mem := Function.update s.mem a.addr (r.1.apply (s.ring a))
    rx := r.2
    rxView := s.rxView.next s.rx s.handed.length s.slotId
    handed := s.handed ++ s.rxView.delivers .receive s.rx }

/-- A step of the physics thread. -/
def afterDma (s : TwoConsumers) : TwoConsumers :=
  let r := s.dma.step s.sim s.mem
  { s with
    sim := (r.1.apply s.sim s.mem).1
    mem := (r.1.apply s.sim s.mem).2
    dma := r.2
    dmaView := s.dmaView.next s.dma.pop s.handed.length s.slotId
    handed := s.handed ++ s.dmaView.delivers .device s.dma.pop }

/-- A thread between two calls may start one; a thread inside one may step. -/
def step (s : TwoConsumers) : Act → Option TwoConsumers
  | .transmit desc => if s.tx = .idle then some { s with tx := .loadHead desc } else none
  | .receive => if s.rx = .idle then some { s with rx := .loadTail } else none
  | .pass => if s.dma = .outside then some { s with dma := .loadDataPtr } else none
  | .txStep => some (s.afterTx a)
  | .rxStep => some (s.afterRx a)
  | .dmaStep => some s.afterDma

/-- A fresh ring whose address the driver has published to a device that has
latched no other; nobody is inside a call. -/
structure Start (s : TwoConsumers) : Prop where
  fresh : ∃ slots, s.ring a = .fresh slots
  dataPtr : s.sim.dev.dataPtr = a.addr
  latch : s.sim.lastValidShuttle = 0 ∨ s.sim.lastValidShuttle = a.addr
  tx : s.tx = .idle
  rx : s.rx = .idle
  dma : s.dma = .outside
  accepted : s.accepted = []
  handed : s.handed = []

/-- All interleavings of the three, access by access. -/
def system : System TwoConsumers Act := .ofStep (Start a) (step a)

/-- Every delivery is of an accepted descriptor, as it was accepted, and no
descriptor is delivered twice. -/
def ExactlyOnce (s : TwoConsumers) : Prop :=
  (s.handed.map Delivery.id).Nodup ∧
    ∀ d ∈ s.handed, ∃ i, d.id = some i ∧ s.accepted[i]? = some d.desc

/-- `m_tail` has not left the stretch from the old `m_tail` to `m_head`. -/
def Forward (ring ring' : PorthRingBuffer) : Prop :=
  (ring'.tail.toNat + 1024 - ring.tail.toNat) % 1024 ≤ occupancy ring

/-- A popper stores `m_tail` only if no pop has completed since it loaded
it. -/
def NoOverlap (s : TwoConsumers) : Act → Prop
  | .rxStep => s.rxView.Fresh s.rx s.handed.length
  | .dmaStep => s.dmaView.Fresh s.dma.pop s.handed.length
  | _ => True

instance (s : TwoConsumers) : DecidablePred s.NoOverlap
  | .rxStep => inferInstanceAs (Decidable (s.rxView.Fresh s.rx s.handed.length))
  | .dmaStep => inferInstanceAs (Decidable (s.dmaView.Fresh s.dma.pop s.handed.length))
  | .transmit _ | .receive | .pass | .txStep => .isTrue trivial

/-- A step that leaves `m_tail` alone moves it forward. -/
theorem Forward.of_tail_eq {ring ring' : PorthRingBuffer} (h : ring'.tail = ring.tail) :
    Forward ring ring' := by
  rw [Forward, h, show ring.tail.toNat + 1024 - ring.tail.toNat = 1024 by omega]
  exact Nat.zero_le _

end TwoConsumers

/-! ## The queue and the three threads -/

/-- The ring between the next delivery and the next acceptance. -/
structure Queue (ring : PorthRingBuffer) (slotId : Nat → Option Nat)
    (accepted : List PorthDescriptor) (handed : List Delivery) : Prop where
  tail_eq : ring.tail.toNat = handed.length % 1024
  head_eq : ring.head.toNat = accepted.length % 1024
  le : handed.length ≤ accepted.length
  room : accepted.length < handed.length + 1024
  slots : ∀ j, handed.length ≤ j → j < accepted.length →
    accepted[j]? = some (ring.buffer (j % 1024)) ∧ slotId (j % 1024) = some j
  deliveries : ∀ (i : Nat) (d : Delivery),
    handed[i]? = some d → d.id = some i ∧ accepted[i]? = some d.desc

/-- The producer at each control point, with `done` deliveries and `sent`
acceptances so far. -/
def TxOk (ring : PorthRingBuffer) (slotId : Nat → Option Nat) (done sent : Nat) : PushPc → Prop
  | .idle | .loadHead _ => True
  | .loadTail _ h => h.toNat = sent % 1024
  | .fullTest _ h t =>
      h.toNat = sent % 1024 ∧ ∃ j ≤ done, sent < j + 1024 ∧ t.toNat = j % 1024
  | .slotWrite _ h => h.toNat = sent % 1024 ∧ sent + 1 < done + 1024
  | .storeHead desc h =>
      h.toNat = sent % 1024 ∧ sent + 1 < done + 1024 ∧
        ring.buffer (sent % 1024) = desc ∧ slotId (sent % 1024) = some sent

/-- A popper at each control point.  What it knows about the front of the
queue it knows only while no pop has completed since its load of `m_tail`. -/
def PopOk (accepted : List PorthDescriptor) (done : Nat) (view : PopView) : PopPc → Prop
  | .idle | .loadTail => True
  | .loadHead t => view.loadedAt ≤ done ∧ t.toNat = view.loadedAt % 1024
  | .emptyTest t h =>
      (view.loadedAt ≤ done ∧ t.toNat = view.loadedAt % 1024) ∧
        (view.loadedAt = done → ∃ j, done ≤ j ∧ j ≤ accepted.length ∧ h.toNat = j % 1024)
  | .slotRead t =>
      (view.loadedAt ≤ done ∧ t.toNat = view.loadedAt % 1024) ∧
        (view.loadedAt = done → done < accepted.length)
  | .storeTail t desc =>
      (view.loadedAt ≤ done ∧ t.toNat = view.loadedAt % 1024) ∧
        (view.loadedAt = done →
          done < accepted.length ∧ view.readId = some done ∧ accepted[done]? = some desc)

/-- The pass works on the driver's ring. -/
def DmaOk (a : RingAddress) : DmaPc → Prop
  | .outside | .loadDataPtr => True
  | .latchTest addr | .popping addr _ | .loadCounter addr | .storeCounter addr _ => addr = a.addr

private theorem advance1024_toNat (i : UInt32) : (advance 1024 i).toNat = (i.toNat + 1) % 1024 := by
  simpa only [RingGeometry.default1024_size, RingGeometry.default1024_period] using
    advance_toNat .default1024 i

theorem advance1024_toUInt32_toNat (i : UInt32) :
    (advance 1024 i).toUInt32.toNat = (i.toNat + 1) % 1024 := by
  simpa only [RingGeometry.default1024_size, RingGeometry.default1024_period] using
    advance_toUInt32_toNat .default1024 i

/-! ### What survives the steps of the others -/

theorem TxOk.later {ring ring' : PorthRingBuffer} {slotId : Nat → Option Nat}
    {done done' sent : Nat} {pc : PushPc} (h : TxOk ring slotId done sent pc)
    (hle : done ≤ done') (hbuffer : ring'.buffer = ring.buffer) :
    TxOk ring' slotId done' sent pc := by
  cases pc with
  | idle => trivial
  | loadHead desc => trivial
  | loadTail desc hd => exact h
  | fullTest desc hd t =>
      obtain ⟨hh, j, hj, hroom, ht⟩ := h
      exact ⟨hh, j, Nat.le_trans hj hle, hroom, ht⟩
  | slotWrite desc hd => exact ⟨h.1, by have := h.2; omega⟩
  | storeHead desc hd =>
      obtain ⟨hh, hroom, hslot, hid⟩ := h
      exact ⟨hh, by omega, by rw [hbuffer]; exact hslot, hid⟩

theorem PopOk.append {accepted : List PorthDescriptor} {done : Nat} {view : PopView} {pc : PopPc}
    (h : PopOk accepted done view pc) (more : List PorthDescriptor) :
    PopOk (accepted ++ more) done view pc := by
  have hlen : accepted.length ≤ (accepted ++ more).length := by
    rw [List.length_append]
    exact Nat.le_add_right _ _
  cases pc with
  | idle => trivial
  | loadTail => trivial
  | loadHead t => exact h
  | emptyTest t hd =>
      refine ⟨h.1, fun heq => ?_⟩
      obtain ⟨j, hle, hj, hval⟩ := h.2 heq
      exact ⟨j, hle, Nat.le_trans hj hlen, hval⟩
  | slotRead t => exact ⟨h.1, fun heq => Nat.lt_of_lt_of_le (h.2 heq) hlen⟩
  | storeTail t desc =>
      refine ⟨h.1, fun heq => ?_⟩
      obtain ⟨hlt, hid, hdesc⟩ := h.2 heq
      exact ⟨Nat.lt_of_lt_of_le hlt hlen, hid, by rw [List.getElem?_append_left hlt]; exact hdesc⟩

/-- A delivery by the other popper leaves only the bare index behind. -/
theorem PopOk.later {accepted : List PorthDescriptor} {done done' : Nat} {view : PopView}
    {pc : PopPc} (h : PopOk accepted done view pc) (hle : done ≤ done') :
    PopOk accepted done' view pc := by
  rcases Nat.eq_or_lt_of_le hle with rfl | hlt
  · exact h
  · cases pc with
    | idle => trivial
    | loadTail => trivial
    | loadHead t => exact ⟨Nat.le_trans h.1 hle, h.2⟩
    | emptyTest t hd => exact ⟨⟨Nat.le_trans h.1.1 hle, h.1.2⟩, fun heq => by have := h.1.1; omega⟩
    | slotRead t => exact ⟨⟨Nat.le_trans h.1.1 hle, h.1.2⟩, fun heq => by have := h.1.1; omega⟩
    | storeTail t desc =>
        exact ⟨⟨Nat.le_trans h.1.1 hle, h.1.2⟩, fun heq => by have := h.1.1; omega⟩

/-! ### One step of each thread -/

section Steps

variable {ring : PorthRingBuffer} {slotId : Nat → Option Nat} {accepted : List PorthDescriptor}
  {handed : List Delivery}

/-! The three accesses that touch the queue. -/

/-- The slot behind the last descriptor is nobody's. -/
theorem Queue.write_slot (hq : Queue ring slotId accepted handed)
    (hroom : accepted.length + 1 < handed.length + 1024) (desc : PorthDescriptor)
    (id : Option Nat) :
    Queue
      { ring with buffer := Function.update ring.buffer (accepted.length % 1024) desc }
      (Function.update slotId (accepted.length % 1024) id) accepted handed where
  tail_eq := hq.tail_eq
  head_eq := hq.head_eq
  le := hq.le
  room := hq.room
  slots := by
    intro j hle hlt
    have hne : j % 1024 ≠ accepted.length % 1024 := by
      intro heq
      have := pos_inj handed.length hle (by omega) hq.le (by omega) heq
      omega
    simp only [Function.update_of_ne hne]
    exact hq.slots j hle hlt
  deliveries := hq.deliveries

/-- The store of `m_head` accepts what that slot holds. -/
theorem Queue.store_head (hq : Queue ring slotId accepted handed) {hd : UInt32}
    {desc : PorthDescriptor} (hh : hd.toNat = accepted.length % 1024)
    (hroom : accepted.length + 1 < handed.length + 1024)
    (hslot : ring.buffer (accepted.length % 1024) = desc)
    (hid : slotId (accepted.length % 1024) = some accepted.length) :
    Queue { ring with head := (advance 1024 hd).toUInt32 } slotId (accepted ++ [desc]) handed where
  tail_eq := hq.tail_eq
  head_eq := by
    rw [advance1024_toUInt32_toNat, hh, Nat.mod_add_mod, List.length_append]
    rfl
  le := by
    have := hq.le
    rw [List.length_append]
    omega
  room := by
    rw [List.length_append]
    exact hroom
  slots := by
    intro j hle hlt
    rw [List.length_append, List.length_singleton] at hlt
    rcases Nat.lt_or_eq_of_le (Nat.lt_succ_iff.mp hlt) with hlt | rfl
    · rw [List.getElem?_append_left hlt]
      exact hq.slots j hle hlt
    · rw [List.getElem?_concat_length, hslot]
      exact ⟨rfl, hid⟩
  deliveries := by
    intro i d hd
    obtain ⟨hdid, hdesc⟩ := hq.deliveries i d hd
    have hi : i < accepted.length := (List.getElem?_eq_some_iff.mp hdesc).1
    exact ⟨hdid, by rw [List.getElem?_append_left hi]; exact hdesc⟩

/-- The store of `m_tail` delivers the oldest descriptor. -/
theorem Queue.store_tail (hq : Queue ring slotId accepted handed) {t : UInt32} {d : Delivery}
    (ht : t.toNat = handed.length % 1024) (hlt : handed.length < accepted.length)
    (hid : d.id = some handed.length) (hdesc : accepted[handed.length]? = some d.desc) :
    Queue { ring with tail := (advance 1024 t).toUInt32 } slotId accepted (handed ++ [d]) where
  tail_eq := by
    rw [advance1024_toUInt32_toNat, ht, Nat.mod_add_mod, List.length_append]
    rfl
  head_eq := hq.head_eq
  le := by
    rw [List.length_append]
    exact hlt
  room := by
    have := hq.room
    rw [List.length_append]
    omega
  slots := by
    intro j hle hj
    rw [List.length_append] at hle
    exact hq.slots j (Nat.le_of_succ_le hle) hj
  deliveries := by
    intro i d' hd
    rcases Nat.lt_trichotomy i handed.length with hi | rfl | hi
    · rw [List.getElem?_append_left hi] at hd
      exact hq.deliveries i d' hd
    · rw [List.getElem?_concat_length, Option.some.injEq] at hd
      subst hd
      exact ⟨hid, hdesc⟩
    · rw [List.getElem?_eq_none (by rw [List.length_append]; exact hi)] at hd
      cases hd

/-- A step of the producer. -/
theorem Queue.tx_step (hq : Queue ring slotId accepted handed) {pc : PushPc}
    (h : TxOk ring slotId handed.length accepted.length pc) :
    Queue ((pc.step 1024 ring).1.apply ring) (markSlot pc accepted.length slotId)
        (accepted ++ pc.accepts) handed ∧
      TxOk ((pc.step 1024 ring).1.apply ring) (markSlot pc accepted.length slotId) handed.length
        (accepted ++ pc.accepts).length (pc.step 1024 ring).2 ∧
      ((pc.step 1024 ring).1.apply ring).tail = ring.tail := by
  cases pc with
  | idle =>
      simp only [PushPc.step, Access.apply, markSlot, PushPc.accepts, List.append_nil]
      exact ⟨hq, h, trivial⟩
  | loadHead desc =>
      simp only [PushPc.step, Access.apply, markSlot, PushPc.accepts, List.append_nil]
      exact ⟨hq, hq.head_eq, trivial⟩
  | loadTail desc hd =>
      simp only [PushPc.step, Access.apply, markSlot, PushPc.accepts, List.append_nil]
      exact ⟨hq, ⟨h, handed.length, Nat.le_refl _, hq.room, hq.tail_eq⟩, trivial⟩
  | fullTest desc hd t =>
      obtain ⟨hh, j, hj, hroom, ht⟩ := h
      by_cases hfull : advance 1024 hd = t.toUInt64
      · simp only [PushPc.step, hfull, if_true, Access.apply, markSlot, PushPc.accepts,
          List.append_nil]
        exact ⟨hq, trivial, trivial⟩
      · simp only [PushPc.step, hfull, if_false, Access.apply, markSlot, PushPc.accepts,
          List.append_nil]
        refine ⟨hq, ⟨hh, ?_⟩, trivial⟩
        have hne : (advance 1024 hd).toNat ≠ t.toUInt64.toNat := fun heq =>
          hfull (UInt64.toNat_inj.mp heq)
        rw [advance1024_toNat, UInt32.toNat_toUInt64, hh, ht] at hne
        by_contra hge
        exact hne (by omega)
  | slotWrite desc hd =>
      obtain ⟨hh, hroom⟩ := h
      simp only [PushPc.step, Access.apply, markSlot, PushPc.accepts, List.append_nil, hh]
      exact ⟨hq.write_slot hroom desc _,
        ⟨hh, hroom, Function.update_self .., Function.update_self ..⟩, trivial⟩
  | storeHead desc hd =>
      obtain ⟨hh, hroom, hslot, hid⟩ := h
      simp only [PushPc.step, Access.apply, markSlot, PushPc.accepts]
      exact ⟨hq.store_head hh hroom hslot hid, trivial, trivial⟩

/-- A step of a popper that stores `m_tail` only on a fresh load. -/
theorem Queue.pop_step (hq : Queue ring slotId accepted handed) {view : PopView} {pc : PopPc}
    (h : PopOk accepted handed.length view pc) (popper : Popper)
    (hfresh : view.Fresh pc handed.length) :
    Queue ((pc.step 1024 ring).1.apply ring) slotId accepted
        (handed ++ view.delivers popper pc) ∧
      PopOk accepted (handed ++ view.delivers popper pc).length
        (view.next pc handed.length slotId) (pc.step 1024 ring).2 ∧
      ((pc.step 1024 ring).1.apply ring).buffer = ring.buffer ∧
      TwoConsumers.Forward ring ((pc.step 1024 ring).1.apply ring) := by
  have hstay : TwoConsumers.Forward ring ring := .of_tail_eq rfl
  cases pc with
  | idle =>
      simp only [PopPc.step, Access.apply, PopView.next, PopView.delivers, PopPc.returns,
        List.map_nil, List.append_nil]
      exact ⟨hq, trivial, trivial, hstay⟩
  | loadTail =>
      simp only [PopPc.step, Access.apply, PopView.next, PopView.delivers, PopPc.returns,
        List.map_nil, List.append_nil]
      exact ⟨hq, ⟨Nat.le_refl _, hq.tail_eq⟩, trivial, hstay⟩
  | loadHead t =>
      simp only [PopPc.step, Access.apply, PopView.next, PopView.delivers, PopPc.returns,
        List.map_nil, List.append_nil]
      exact ⟨hq, ⟨h, fun _ => ⟨accepted.length, hq.le, Nat.le_refl _, hq.head_eq⟩⟩, trivial, hstay⟩
  | emptyTest t hd =>
      obtain ⟨hload, hseen⟩ := h
      by_cases hempty : hd = t
      · simp only [PopPc.step, hempty, if_true, Access.apply, PopView.next, PopView.delivers,
          PopPc.returns, List.map_nil, List.append_nil]
        exact ⟨hq, trivial, trivial, hstay⟩
      · simp only [PopPc.step, hempty, if_false, Access.apply, PopView.next, PopView.delivers,
          PopPc.returns, List.map_nil, List.append_nil]
        refine ⟨hq, ⟨hload, fun heq => ?_⟩, trivial, hstay⟩
        obtain ⟨j, hle, hj, hval⟩ := hseen heq
        rcases Nat.eq_or_lt_of_le hle with rfl | hlt
        · have hsame : hd.toNat = t.toNat := by rw [hval, hload.2, heq]
          exact absurd (UInt32.toNat_inj.mp hsame) hempty
        · omega
  | slotRead t =>
      obtain ⟨hload, hfront⟩ := h
      simp only [PopPc.step, Access.apply, PopView.next, PopView.delivers, PopPc.returns,
        List.map_nil, List.append_nil]
      refine ⟨hq, ⟨hload, fun heq => ?_⟩, trivial, hstay⟩
      have hlt := hfront heq
      obtain ⟨hdesc, hid⟩ := hq.slots handed.length (Nat.le_refl _) hlt
      have ht : t.toNat = handed.length % 1024 := by
        rw [hload.2]
        exact congrArg (· % 1024) heq
      exact ⟨hlt, by rw [ht]; exact hid, by rw [ht]; exact hdesc⟩
  | storeTail t desc =>
      obtain ⟨⟨-, ht⟩, hread⟩ := h
      have heq := hfresh (List.cons_ne_nil _ _)
      obtain ⟨hlt, hid, hdesc⟩ := hread heq
      rw [heq] at ht
      simp only [PopPc.step, Access.apply, PopView.next, PopView.delivers, PopPc.returns,
        List.map_cons, List.map_nil]
      refine ⟨hq.store_tail ht hlt hid hdesc, trivial, trivial, ?_⟩
      have htail := hq.tail_eq
      have hhead := hq.head_eq
      have hroom := hq.room
      simp only [TwoConsumers.Forward, occupancy, advance1024_toUInt32_toNat]
      omega

end Steps

/-! ## The invariant -/

namespace TwoConsumers

/-- The shuttle the device finds, the queue in the ring, and where each party
stands. -/
structure Inv (a : RingAddress) (s : TwoConsumers) : Prop where
  dataPtr : s.sim.dev.dataPtr = a.addr
  latch : s.sim.lastValidShuttle = 0 ∨ s.sim.lastValidShuttle = a.addr
  queue : Queue (s.ring a) s.slotId s.accepted s.handed
  tx : TxOk (s.ring a) s.slotId s.handed.length s.accepted.length s.tx
  rx : PopOk s.accepted s.handed.length s.rxView s.rx
  dma : DmaOk a s.dma
  dmaPop : PopOk s.accepted s.handed.length s.dmaView s.dma.pop

variable {a : RingAddress} {s : TwoConsumers}

theorem start_inv (h : Start a s) : Inv a s := by
  obtain ⟨slots, hring⟩ := h.fresh
  refine
    { dataPtr := h.dataPtr
      latch := h.latch
      queue := ?_
      tx := by rw [h.tx]; trivial
      rx := by rw [h.rx]; trivial
      dma := by rw [h.dma]; trivial
      dmaPop := by rw [h.dma]; trivial }
  rw [hring, h.accepted, h.handed]
  exact
    { tail_eq := rfl
      head_eq := rfl
      le := Nat.le_refl _
      room := by decide
      slots := fun j _ hj => absurd hj (Nat.not_lt_zero j)
      deliveries := fun i d hd => by cases hd }

@[simp] theorem afterTx_ring :
    (s.afterTx a).ring a = (s.tx.step 1024 (s.ring a)).1.apply (s.ring a) :=
  Function.update_self ..

@[simp] theorem afterRx_ring :
    (s.afterRx a).ring a = (s.rx.step 1024 (s.ring a)).1.apply (s.ring a) :=
  Function.update_self ..

theorem handed_le_append (handed : List Delivery) (view : PopView) (popper : Popper) (pc : PopPc) :
    handed.length ≤ (handed ++ view.delivers popper pc).length := by
  rw [List.length_append]
  exact Nat.le_add_right _ _

theorem Inv.afterTx (h : Inv a s) :
    Inv a (s.afterTx a) ∧ Forward (s.ring a) ((s.afterTx a).ring a) := by
  obtain ⟨hqueue, htx, htail⟩ := h.queue.tx_step h.tx
  refine ⟨?_, ?_⟩
  · exact
      { dataPtr := h.dataPtr
        latch := h.latch
        queue := by rw [afterTx_ring]; exact hqueue
        tx := by rw [afterTx_ring]; exact htx
        rx := h.rx.append _
        dma := h.dma
        dmaPop := h.dmaPop.append _ }
  · rw [afterTx_ring]
    exact .of_tail_eq htail

theorem Inv.afterRx (h : Inv a s) (hfresh : NoOverlap s .rxStep) :
    Inv a (s.afterRx a) ∧ Forward (s.ring a) ((s.afterRx a).ring a) := by
  obtain ⟨hqueue, hrx, hbuffer, hforward⟩ := h.queue.pop_step h.rx .receive hfresh
  have hle := handed_le_append s.handed s.rxView .receive s.rx
  refine ⟨?_, by rw [afterRx_ring]; exact hforward⟩
  exact
    { dataPtr := h.dataPtr
      latch := h.latch
      queue := by rw [afterRx_ring]; exact hqueue
      tx := by rw [afterRx_ring]; exact h.tx.later hle hbuffer
      rx := hrx
      dma := h.dma
      dmaPop := h.dmaPop.later hle }

/-- A step of the pass outside a pop leaves the memory alone. -/
theorem Inv.afterDma_outside (h : Inv a s) (sim' : PorthSimDevice) (dma' : DmaPc)
    (hidle : s.dma.pop = .idle)
    (happly : (s.dma.step s.sim s.mem).1.apply s.sim s.mem = (sim', s.mem))
    (hnext : (s.dma.step s.sim s.mem).2 = dma')
    (hptr : sim'.dev.dataPtr = s.sim.dev.dataPtr)
    (hlatch : sim'.lastValidShuttle = 0 ∨ sim'.lastValidShuttle = a.addr)
    (hok : DmaOk a dma') (hpop : dma'.pop = .idle ∨ dma'.pop = .loadTail) :
    Inv a s.afterDma ∧ Forward (s.ring a) (s.afterDma.ring a) := by
  have hstep : s.afterDma = { s with sim := sim', dma := dma' } := by
    simp only [TwoConsumers.afterDma, hidle, happly, hnext, PopView.next, PopView.delivers,
      PopPc.returns, List.map_nil, List.append_nil]
  rw [hstep]
  refine ⟨?_, .of_tail_eq rfl⟩
  exact
    { dataPtr := hptr.trans h.dataPtr
      latch := hlatch
      queue := h.queue
      tx := h.tx
      rx := h.rx
      dma := hok
      dmaPop := by
        rcases hpop with hpop | hpop <;> simp only [hpop] <;> trivial }

private theorem Inv.afterDma_popping (h : Inv a s) {pc : PopPc} (hdma : s.dma = .popping a.addr pc)
    (hfresh : s.dmaView.Fresh pc s.handed.length) :
    Inv a s.afterDma ∧ Forward (s.ring a) (s.afterDma.ring a) := by
  have hpop := h.dmaPop
  simp only [hdma, DmaPc.pop] at hpop
  obtain ⟨hqueue, hnext, hbuffer, hforward⟩ := h.queue.pop_step hpop .device hfresh
  have hle := handed_le_append s.handed s.dmaView .device pc
  have hstep : s.afterDma =
      { s with
        mem := Function.update s.mem a.addr ((pc.step 1024 (s.ring a)).1.apply (s.ring a))
        dma := DmaPc.afterPop a.addr pc (pc.step 1024 (s.ring a)).2
        dmaView := s.dmaView.next pc s.handed.length s.slotId
        handed := s.handed ++ s.dmaView.delivers .device pc } := by
    simp only [TwoConsumers.afterDma, hdma, DmaPc.step, DmaAccess.apply, DmaPc.pop, ring,
      simDefaultShuttleSize]
  have hring : s.afterDma.ring a = (pc.step 1024 (s.ring a)).1.apply (s.ring a) := by
    rw [hstep]
    exact Function.update_self ..
  refine ⟨?_, by rw [hring]; exact hforward⟩
  rw [hstep] at hring ⊢
  exact
    { dataPtr := h.dataPtr
      latch := h.latch
      queue := by rw [hring]; exact hqueue
      tx := by rw [hring]; exact h.tx.later hle hbuffer
      rx := h.rx.later hle
      dma := DmaPc.afterPop_cases (P := DmaOk a) _ _ _ (fun _ => trivial) (fun _ => rfl) rfl
      dmaPop := by simp only [DmaPc.pop_afterPop]; exact hnext }

theorem Inv.afterDma (h : Inv a s) (hfresh : NoOverlap s .dmaStep) :
    Inv a s.afterDma ∧ Forward (s.ring a) (s.afterDma.ring a) := by
  have hok := h.dma
  cases hdma : s.dma with
  | outside =>
      exact h.afterDma_outside s.sim .outside (by rw [hdma]; rfl) (by rw [hdma]; rfl)
        (by rw [hdma]; rfl) rfl h.latch trivial (.inl rfl)
  | loadDataPtr =>
      exact h.afterDma_outside s.sim (.latchTest s.sim.dev.dataPtr) (by rw [hdma]; rfl)
        (by rw [hdma]; rfl) (by rw [hdma]; rfl) rfl h.latch h.dataPtr (.inl rfl)
  | latchTest addr =>
      rw [hdma] at hok
      subst hok
      obtain ⟨happly, hnext⟩ := DmaPc.step_latchTest s.mem h.latch
      exact h.afterDma_outside { s.sim with lastValidShuttle := a.addr }
        (.popping a.addr .loadTail) (by rw [hdma]; rfl) (by rw [hdma]; exact happly)
        (by rw [hdma]; exact hnext) rfl (.inr rfl) rfl (.inr rfl)
  | popping addr pc =>
      rw [hdma] at hok
      subst hok
      refine h.afterDma_popping hdma ?_
      rw [NoOverlap, hdma] at hfresh
      exact hfresh
  | loadCounter addr =>
      rw [hdma] at hok
      exact h.afterDma_outside s.sim (.storeCounter addr s.sim.dev.counter) (by rw [hdma]; rfl)
        (by rw [hdma]; rfl) (by rw [hdma]; rfl) rfl h.latch hok (.inl rfl)
  | storeCounter addr counter =>
      rw [hdma] at hok
      exact h.afterDma_outside
        { s.sim with dev := { s.sim.dev with counter := counter + 1 } }
        (.popping addr .loadTail) (by rw [hdma]; rfl) (by rw [hdma]; rfl) (by rw [hdma]; rfl)
        rfl h.latch hok (.inr rfl)

/-- Every step that meets the condition keeps the invariant and moves `m_tail`
forward only. -/
theorem Inv.step (h : Inv a s) {act : Act} {t : TwoConsumers} (hcond : NoOverlap s act)
    (hstep : s.step a act = some t) : Inv a t ∧ Forward (s.ring a) (t.ring a) := by
  have hstay : Forward (s.ring a) (s.ring a) := .of_tail_eq rfl
  cases act with
  | transmit desc =>
      obtain ⟨-, rfl⟩ := System.of_guard hstep
      exact ⟨{ h with tx := trivial }, hstay⟩
  | receive =>
      obtain ⟨-, rfl⟩ := System.of_guard hstep
      exact ⟨{ h with rx := trivial }, hstay⟩
  | pass =>
      obtain ⟨-, rfl⟩ := System.of_guard hstep
      exact ⟨{ h with dma := trivial, dmaPop := trivial }, hstay⟩
  | txStep =>
      cases hstep
      exact h.afterTx
  | rxStep =>
      cases hstep
      exact h.afterRx hcond
  | dmaStep =>
      cases hstep
      exact h.afterDma hcond

theorem reachable_inv (h : ((system a).restrict NoOverlap).Reachable s) : Inv a s := by
  refine System.Reachable.invariant (I := Inv a) (fun _ hs => start_inv hs) ?_ h
  rintro s act t hs ⟨hcond, hstep⟩
  exact (hs.step hcond hstep).1

private theorem Inv.exactlyOnce (h : Inv a s) : ExactlyOnce s := by
  refine ⟨?_, ?_⟩
  · rw [List.nodup_iff_getElem?_ne_getElem?]
    intro i j hij hj heq
    rw [List.length_map] at hj
    have hi : i < s.handed.length := Nat.lt_trans hij hj
    obtain ⟨hidi, -⟩ := h.queue.deliveries i _ (List.getElem?_eq_getElem hi)
    obtain ⟨hidj, -⟩ := h.queue.deliveries j _ (List.getElem?_eq_getElem hj)
    simp only [List.getElem?_map, List.getElem?_eq_getElem hi, List.getElem?_eq_getElem hj,
      Option.map_some, hidi, hidj, Option.some.injEq] at heq
    omega
  · intro d hd
    obtain ⟨i, hi, rfl⟩ := List.getElem_of_mem hd
    obtain ⟨hid, hdesc⟩ := h.queue.deliveries i _ (List.getElem?_eq_getElem hi)
    exact ⟨i, hid, hdesc⟩

/-- **Exactly once, if no pop completes inside another.**  In every run in
which a popper stores `m_tail` only when no pop has completed since it loaded
it, deliveries are exactly once and `m_tail` moves forward with every step. -/
theorem exactly_once_of_noOverlap (a : RingAddress) {s : TwoConsumers}
    (h : ((system a).restrict NoOverlap).Reachable s) :
    ExactlyOnce s ∧
      ∀ act t, ((system a).restrict NoOverlap).step s act t →
        Forward (s.ring a) (t.ring a) := by
  have hinv := reachable_inv h
  exact ⟨hinv.exactlyOnce, fun act t hstep => (hinv.step hstep.1 hstep.2).2⟩

/-! ## A stale store -/

/-- A fresh ring at 2 MiB behind the handshake. -/
def sampleStart : TwoConsumers where
  sim :=
    { PorthSimDevice.fresh with dev := { PorthSimDevice.fresh.dev with dataPtr := 0x200000 } }
  mem := fun _ => .fresh fun _ => default
  tx := .idle
  rx := .idle
  dma := .outside
  slotId := fun _ => none
  rxView := { loadedAt := 0, readId := none }
  dmaView := { loadedAt := 0, readId := none }
  accepted := []
  handed := []

theorem sampleStart_start : Start .twoMiB sampleStart where
  fresh := ⟨_, rfl⟩
  dataPtr := rfl
  latch := .inl rfl
  tx := rfl
  rx := rfl
  dma := rfl
  accepted := rfl
  handed := rfl

/-- One descriptor is transmitted, received, and the device finds the ring
empty. -/
def oneAtATime : List Act :=
  [Act.transmit ⟨0x1000, 64⟩] ++ List.replicate 5 Act.txStep ++ [Act.receive] ++
    List.replicate 5 Act.rxStep ++ [Act.pass] ++ List.replicate 5 Act.dmaStep

theorem exactly_once_one_at_a_time :
    ∃ s, s.handed = [⟨.receive, some 0, ⟨0x1000, 64⟩⟩] ∧ ExactlyOnce s := by
  obtain ⟨t, hexec, htest⟩ :=
    System.exec_of_any (System.guarded NoOverlap (step .twoMiB)) sampleStart oneAtATime
      (fun s => decide (s.handed = [⟨.receive, some 0, ⟨0x1000, 64⟩⟩]))
      (by decide +kernel)
  refine ⟨t, of_decide_eq_true htest, ?_⟩
  exact (exactly_once_of_noOverlap .twoMiB
    (System.restrict_reachable_of_exec sampleStart_start hexec)).1

/-- One descriptor is transmitted, `receive` gets as far as its slot read, the
device pops, and `receive` goes on. -/
def overlap : List Act :=
  [Act.transmit ⟨0x1000, 64⟩] ++ List.replicate 5 Act.txStep ++ [Act.receive] ++
    List.replicate 4 Act.rxStep ++ [Act.pass] ++ List.replicate 7 Act.dmaStep ++ [Act.rxStep]

theorem delivered_twice :
    ∃ s, (system .twoMiB).Reachable s ∧ ¬ ExactlyOnce s ∧
      s.handed = [⟨.device, some 0, ⟨0x1000, 64⟩⟩, ⟨.receive, some 0, ⟨0x1000, 64⟩⟩] := by
  obtain ⟨t, hexec, htest⟩ :=
    System.exec_of_any (step .twoMiB) sampleStart overlap
      (fun s => decide (s.handed =
        [⟨.device, some 0, ⟨0x1000, 64⟩⟩, ⟨.receive, some 0, ⟨0x1000, 64⟩⟩]))
      (by decide +kernel)
  have hhanded := of_decide_eq_true htest
  refine ⟨t, System.reachable_of_exec sampleStart_start hexec, ?_, hhanded⟩
  rintro ⟨hnodup, -⟩
  rw [hhanded] at hnodup
  exact absurd hnodup (by decide)

end TwoConsumers

end PorthCore.Ports.Contention
