import PorthCore.Verified.Transition
import PorthCore.Verified.Location
import PorthCore.Ports.RingSteps

/-!
# One producer, one consumer, any interleaving

The two threads of an SPSC ring run their memory steps in any order, and the
acquire load of the other side's index may be stale: it returns any value in
that index's modification order from the reader's view on.

The invariant relates four numbers: what has been accepted and released (the
lengths of the two histories) and what each side last saw of the other.  A
side that acts on an old view only errs on the safe side, because
`released ≤ headView ≤ accepted` and `accepted < tailView + period` with
`tailView ≤ released`.

`writer` is an auxiliary variable: the number of the push that last wrote a
slot.  It has no effect on the steps.
-/

namespace PorthCore.Ports.RingSpsc

open PorthCore.Verified
open PorthCore.Verified.Transition
open PorthCore.Verified.Circular
open PorthCore.Ports.RingBuffer
open PorthCore.Ports.RingSteps

/-- Shared memory, the two threads, their views of the other's index, and the
histories. -/
structure Spsc where
  buffer : Nat → PorthDescriptor
  head : Location UInt32
  tail : Location UInt32
  tailView : Nat
  headView : Nat
  producer : PushPc
  consumer : PopPc
  writer : Nat → Option Nat
  accepted : List PorthDescriptor
  released : List PorthDescriptor

/-- A step of the schedule.  `position` picks the store an acquire load reads
from. -/
inductive SpscStep
  | callPush (desc : PorthDescriptor)
  | pushLoadTail (position : Nat)
  | pushStep
  | callPop
  | popLoadHead (position : Nat)
  | popStep

namespace Spsc

/-- A fresh ring with both threads outside their calls. -/
def fresh (slots : Nat → PorthDescriptor) : Spsc :=
  { buffer := slots
    head := ⟨0, []⟩
    tail := ⟨0, []⟩
    tailView := 0
    headView := 0
    producer := .idle
    consumer := .idle
    writer := fun _ => none
    accepted := []
    released := [] }

/-- The ring with both indices up to date. -/
def memory (s : Spsc) : PorthRingBuffer :=
  { buffer := s.buffer, head := s.head.current, tail := s.tail.current }

/-- The effect of an access on the locations and on the auxiliary `writer`. -/
def access (s : Spsc) : Access → Spsc
  | .none => s
  | .writeSlot slot desc =>
      { s with
        buffer := Function.update s.buffer slot.toNat desc
        writer := Function.update s.writer slot.toNat (some s.accepted.length) }
  | .storeHead v => { s with head := s.head.store v }
  | .storeTail v => { s with tail := s.tail.store v }

/-- A producer step that does not read the other side's index. -/
def pushed (size : UInt64) (s : Spsc) : Spsc :=
  { s.access (s.producer.step size s.memory).1 with
    producer := (s.producer.step size s.memory).2
    accepted := s.accepted ++ s.producer.accepts }

/-- A consumer step that does not read the other side's index. -/
def popped (size : UInt64) (s : Spsc) : Spsc :=
  { s.access (s.consumer.step size s.memory).1 with
    consumer := (s.consumer.step size s.memory).2
    released := s.released ++ s.consumer.returns }

/-- One access of a thread, at the position its view allows. -/
def step (size : UInt64) (s : Spsc) : SpscStep → Option Spsc
  | .callPush desc =>
      match s.producer with
      | .idle => some { s with producer := .loadHead desc }
      | _ => none
  | .pushLoadTail position =>
      match s.producer with
      | .loadTail desc h =>
          (s.tail.load s.tailView position).map fun t =>
            { s with
              tailView := position
              producer := (PushPc.step size { s.memory with tail := t } (.loadTail desc h)).2 }
      | _ => none
  | .pushStep =>
      match s.producer with
      | .idle | .loadTail _ _ => none
      | _ => some (s.pushed size)
  | .callPop =>
      match s.consumer with
      | .idle => some { s with consumer := .loadTail }
      | _ => none
  | .popLoadHead position =>
      match s.consumer with
      | .loadHead t =>
          (s.head.load s.headView position).map fun h =>
            { s with
              headView := position
              consumer := (PopPc.step size { s.memory with head := h } (.loadHead t)).2 }
      | _ => none
  | .popStep =>
      match s.consumer with
      | .idle | .loadHead _ => none
      | _ => some (s.popped size)

/-- Every schedule of the two threads on a fresh ring. -/
def system (size : UInt64) (slots : Nat → PorthDescriptor) : System Spsc SpscStep :=
  .ofStep (· = fresh slots) (step size)

/-! ## The property -/

/-- SPSC safety of one state. -/
structure Safe (s : Spsc) : Prop where
  /-- What pop returned is what push accepted, in order, up to some point. -/
  inOrder : s.released <+: s.accepted
  /-- The slot about to be read was last written by the push whose turn it is,
  and holds its descriptor. -/
  readsOwn : ∀ t, s.consumer = .slotRead t →
    s.writer t.toNat = some s.released.length ∧
      s.accepted[s.released.length]? = some (s.buffer t.toNat)
  /-- The slot about to be written holds no accepted, unreleased descriptor. -/
  writesFree : ∀ desc h, s.producer = .slotWrite desc h →
    ∀ i, s.released.length ≤ i → i < s.accepted.length → s.writer h.toNat ≠ some i
  /-- Every accepted, unreleased descriptor sits in the slot its push wrote. -/
  keeps : ∀ i, s.released.length ≤ i → ∀ (h : i < s.accepted.length),
    ∃ slot, s.writer slot = some i ∧ s.buffer slot = s.accepted[i]

/-! ## The invariant -/

/-- The value of an index at a position of its modification order. -/
def At (g : RingGeometry) (position : Nat) (v : UInt32) : Prop :=
  v.toNat = position % g.period

/-- What a producer control point knows. -/
def ProducerOk (g : RingGeometry) (s : Spsc) : PushPc → Prop
  | .idle | .loadHead _ => True
  | .loadTail _ h => h = s.head.current
  | .fullTest _ h t => h = s.head.current ∧ At g s.tailView t
  | .slotWrite _ h => h = s.head.current ∧ s.accepted.length + 1 < s.tailView + g.period
  | .storeHead desc h =>
      h = s.head.current ∧ s.accepted.length + 1 < s.tailView + g.period ∧
        s.buffer h.toNat = desc ∧ s.writer h.toNat = some s.accepted.length

/-- What a consumer control point knows. -/
def ConsumerOk (g : RingGeometry) (s : Spsc) : PopPc → Prop
  | .idle | .loadTail => True
  | .loadHead t => t = s.tail.current
  | .emptyTest t h => t = s.tail.current ∧ At g s.headView h
  | .slotRead t => t = s.tail.current ∧ s.released.length < s.headView
  | .storeTail t desc =>
      t = s.tail.current ∧ s.released.length < s.headView ∧
        s.accepted[s.released.length]? = some desc

/-- The memory of the ring between a producer and a consumer that each see old
values. -/
structure Inv (g : RingGeometry) (s : Spsc) : Prop where
  queue : ∃ q, s.accepted = s.released ++ q ∧
    Represents g s.memory s.released.length q
  headAt : s.head.Tracks (At g)
  tailAt : s.tail.Tracks (At g)
  headLatest : s.head.latest = s.accepted.length
  tailLatest : s.tail.latest = s.released.length
  tailView_le : s.tailView ≤ s.released.length
  tailView_room : s.accepted.length < s.tailView + g.period
  headView_ge : s.released.length ≤ s.headView
  headView_le : s.headView ≤ s.accepted.length
  writerAt : ∀ slot i, s.writer slot = some i → slot = i % g.period
  written : ∀ i, s.released.length ≤ i → i < s.accepted.length →
    s.writer (i % g.period) = some i
  producerOk : ProducerOk g s s.producer
  consumerOk : ConsumerOk g s s.consumer

theorem fresh_inv (g : RingGeometry) (slots : Nat → PorthDescriptor) :
    Inv g (fresh slots) where
  queue := ⟨[], rfl, represents_fresh g slots⟩
  headAt := Location.tracks_init (Nat.zero_mod _).symm
  tailAt := Location.tracks_init (Nat.zero_mod _).symm
  headLatest := rfl
  tailLatest := rfl
  tailView_le := Nat.le_refl 0
  tailView_room := by
    have := g.period_pos
    simp only [fresh, List.length_nil]
    omega
  headView_ge := Nat.le_refl 0
  headView_le := Nat.le_refl 0
  writerAt := fun _ _ h => by cases h
  written := fun _ _ h => absurd h (Nat.not_lt_zero _)
  producerOk := trivial
  consumerOk := trivial

namespace Inv

variable {g : RingGeometry} {s : Spsc}

theorem head_toNat (h : Inv g s) :
    s.head.current.toNat = s.accepted.length % g.period := by
  rw [← h.headLatest]
  exact h.headAt.current

theorem tail_toNat (h : Inv g s) :
    s.tail.current.toNat = s.released.length % g.period := by
  rw [← h.tailLatest]
  exact h.tailAt.current

/-- The next value of an index belongs to the next position. -/
theorem at_advance {position : Nat} {v : UInt32} (h : At g position v) :
    At g (position + 1) (advance g.size v).toUInt32 := by
  unfold At at h ⊢
  rw [advance_toUInt32_toNat, h, Nat.mod_add_mod]

/-- **The invariant implies safety.** -/
theorem safe (h : Inv g s) : Safe s := by
  obtain ⟨q, hq, hrep⟩ := h.queue
  have hlen : s.accepted.length = s.released.length + q.length := by
    rw [hq, List.length_append]
  have hroom := hrep.room
  refine ⟨⟨q, hq.symm⟩, ?_, ?_, ?_⟩
  · intro t hpc
    have hok := h.consumerOk
    rw [hpc] at hok
    obtain ⟨rfl, hview⟩ := hok
    have hlt : s.released.length < s.accepted.length :=
      Nat.lt_of_lt_of_le hview h.headView_le
    obtain ⟨desc, rest, rfl⟩ := List.exists_cons_of_length_pos (l := q) (by omega)
    refine ⟨?_, ?_⟩
    · rw [h.tail_toNat]
      exact h.written _ (Nat.le_refl _) hlt
    · rw [hq, List.getElem?_append_right (Nat.le_refl _), Nat.sub_self,
        List.getElem?_cons_zero]
      exact congrArg some hrep.read_slot.symm
  · intro desc slot hpc i hlo hhi hwriter
    have hok := h.producerOk
    rw [hpc] at hok
    obtain ⟨rfl, hspace⟩ := hok
    have hview := h.tailView_le
    have hslot := h.writerAt _ _ hwriter
    rw [h.head_toNat] at hslot
    have := pos_inj s.released.length (by omega) (by omega)
      hlo (by omega) hslot
    omega
  · intro i hlo hhi
    refine ⟨i % g.period, h.written i hlo hhi, ?_⟩
    have hi : i - s.released.length < q.length := by omega
    have hslot := hrep.slots (i - s.released.length) hi
    rw [Nat.add_sub_cancel' hlo] at hslot
    calc
      s.buffer (i % g.period) = q[i - s.released.length] := hslot
      _ = s.accepted[i] := by
        simp only [hq, List.getElem_append_right hlo]

/-! ### Steps of the producer -/

theorem callPush (h : Inv g s) (desc : PorthDescriptor) :
    Inv g { s with producer := .loadHead desc } :=
  { h with producerOk := trivial }

/-- A load of `m_tail`, however stale, keeps the producer's view sound. -/
theorem pushLoadTail (h : Inv g s) {desc : PorthDescriptor} {hd t : UInt32}
    {position : Nat} (hpc : s.producer = .loadTail desc hd)
    (hload : s.tail.load s.tailView position = some t) :
    Inv g { s with tailView := position, producer := .fullTest desc hd t } := by
  obtain ⟨hview, hlatest, hheld⟩ := Location.load_eq_some hload
  have hroom := h.tailView_room
  have hok := h.producerOk
  rw [hpc] at hok
  rw [h.tailLatest] at hlatest
  exact
    { h with
      tailView_le := hlatest
      tailView_room := Nat.lt_of_lt_of_le hroom (Nat.add_le_add_right hview _)
      producerOk := ⟨hok, h.tailAt _ _ hheld⟩ }

/-- The full test on an old tail errs on the safe side: passing it leaves room
for one more even counted from that old tail. -/
theorem fullTest_room (h : Inv g s) {t : UInt32} (ht : At g s.tailView t)
    (hnot : advance g.size s.head.current ≠ t.toUInt64) :
    s.accepted.length + 1 < s.tailView + g.period := by
  have hroom := h.tailView_room
  by_contra hge
  have hlast : s.accepted.length + 1 = s.tailView + g.period := by omega
  apply hnot
  rw [← UInt64.toNat_inj, advance_toNat, h.head_toNat, Nat.mod_add_mod, hlast,
    Nat.add_mod_right, UInt32.toNat_toUInt64]
  exact ht.symm

/-- The slot write lands behind the queue. -/
theorem slotWrite (h : Inv g s) {desc : PorthDescriptor} {hd : UInt32}
    (hpc : s.producer = .slotWrite desc hd) :
    Inv g
      { s with
        buffer := Function.update s.buffer hd.toNat desc
        writer := Function.update s.writer hd.toNat (some s.accepted.length)
        producer := .storeHead desc hd } := by
  have hok := h.producerOk
  rw [hpc] at hok
  obtain ⟨rfl, hspace⟩ := hok
  obtain ⟨q, hq, hrep⟩ := h.queue
  refine
    { h with
      queue := ⟨q, hq, hrep.write_slot desc⟩
      writerAt := ?_
      written := ?_
      producerOk := ⟨rfl, hspace, Function.update_self .., Function.update_self ..⟩
      consumerOk := ?_ }
  · intro slot i hwriter
    by_cases hslot : slot = s.head.current.toNat
    · subst hslot
      simp only [Function.update_self, Option.some.injEq] at hwriter
      rw [← hwriter]
      exact h.head_toNat
    · simp only [Function.update_of_ne hslot] at hwriter
      exact h.writerAt slot i hwriter
  · intro i hlo hhi
    have hne : i % g.period ≠ s.head.current.toNat := by
      rw [h.head_toNat]
      intro heq
      have hview := h.tailView_le
      have hlo' : s.released.length ≤ i := hlo
      have hhi' : i < s.accepted.length := hhi
      have := pos_inj s.released.length hlo' (by omega) (by omega) (by omega) heq
      omega
    simp only [Function.update_of_ne hne]
    exact h.written i hlo hhi
  · have hcons := h.consumerOk
    cases hc : s.consumer <;> rw [hc] at hcons <;> exact hcons

/-- Storing `m_head` publishes the descriptor. -/
theorem storeHead (h : Inv g s) {desc : PorthDescriptor} {hd : UInt32}
    (hpc : s.producer = .storeHead desc hd) :
    Inv g
      { s with
        head := s.head.store (advance g.size hd).toUInt32
        producer := .idle
        accepted := s.accepted ++ [desc] } := by
  have hok := h.producerOk
  rw [hpc] at hok
  obtain ⟨rfl, hspace, hslot, hwriter⟩ := hok
  obtain ⟨q, hq, hrep⟩ := h.queue
  have hview := h.tailView_le
  have hlen : s.accepted.length = s.released.length + q.length := by
    rw [hq, List.length_append]
  refine
    { h with
      queue := ⟨q ++ [desc], by simp only [hq, List.append_assoc], ?_⟩
      headAt := h.headAt.store ?_
      headLatest := by simp [h.headLatest]
      tailView_room := by simpa using hspace
      headView_le := by simpa using Nat.le_succ_of_le h.headView_le
      written := ?_
      producerOk := trivial
      consumerOk := ?_ }
  · have hnext := hrep.store_head (by omega) hslot
    simpa only [memory, Location.current_store] using hnext
  · exact at_advance h.headAt.current
  · intro i hlo hhi
    simp only [List.length_append, List.length_cons, List.length_nil] at hhi
    by_cases hlast : i = s.accepted.length
    · subst hlast
      rw [← h.head_toNat]
      exact hwriter
    · exact h.written i hlo (by omega)
  · have hcons := h.consumerOk
    have hle := h.headView_le
    cases hc : s.consumer with
    | idle | loadTail => trivial
    | loadHead t | emptyTest t hd | slotRead t =>
        rw [hc] at hcons
        exact hcons
    | storeTail t desc' =>
        rw [hc] at hcons
        obtain ⟨ht, hlt, hget⟩ := hcons
        refine ⟨ht, hlt, ?_⟩
        have hin : s.released.length < s.accepted.length := by omega
        simpa only [List.getElem?_append_left hin] using hget

/-- Every producer step that does not load `m_tail`. -/
theorem pushStep (h : Inv g s) (hidle : s.producer ≠ .idle)
    (hload : ∀ desc hd, s.producer ≠ .loadTail desc hd) : Inv g (s.pushed g.size) := by
  have hok := h.producerOk
  cases hpc : s.producer with
  | idle => exact absurd hpc hidle
  | loadTail desc hd => exact absurd hpc (hload desc hd)
  | loadHead desc =>
      simpa [pushed, hpc, PushPc.step, access, memory, PushPc.accepts] using
        ({ h with producerOk := rfl } :
          Inv g { s with producer := .loadTail desc s.head.current })
  | fullTest desc hd t =>
      rw [hpc] at hok
      obtain ⟨rfl, ht⟩ := hok
      by_cases hfull : advance g.size s.head.current = t.toUInt64
      · simpa [pushed, hpc, PushPc.step, access, memory, PushPc.accepts, hfull] using
          ({ h with producerOk := trivial } : Inv g { s with producer := .idle })
      · simpa [pushed, hpc, PushPc.step, access, memory, PushPc.accepts, hfull] using
          ({ h with producerOk := ⟨rfl, h.fullTest_room ht hfull⟩ } :
            Inv g { s with producer := .slotWrite desc s.head.current })
  | slotWrite desc hd =>
      simpa [pushed, hpc, PushPc.step, access, memory, PushPc.accepts] using h.slotWrite hpc
  | storeHead desc hd =>
      simpa [pushed, hpc, PushPc.step, access, memory, PushPc.accepts] using h.storeHead hpc

/-! ### Steps of the consumer -/

theorem callPop (h : Inv g s) : Inv g { s with consumer := .loadTail } :=
  { h with consumerOk := trivial }

/-- A load of `m_head`, however stale, never falls behind what was released. -/
theorem popLoadHead (h : Inv g s) {t hd : UInt32} {position : Nat}
    (hpc : s.consumer = .loadHead t)
    (hload : s.head.load s.headView position = some hd) :
    Inv g { s with headView := position, consumer := .emptyTest t hd } := by
  obtain ⟨hview, hlatest, hheld⟩ := Location.load_eq_some hload
  have hge := h.headView_ge
  have hok := h.consumerOk
  rw [hpc] at hok
  rw [h.headLatest] at hlatest
  exact
    { h with
      headView_ge := Nat.le_trans hge hview
      headView_le := hlatest
      consumerOk := ⟨hok, h.headAt _ _ hheld⟩ }

/-- The empty test on an old head errs on the safe side. -/
theorem emptyTest_nonempty (h : Inv g s) {hd : UInt32} (hhd : At g s.headView hd)
    (hnot : hd ≠ s.tail.current) : s.released.length < s.headView := by
  refine Nat.lt_of_le_of_ne h.headView_ge ?_
  intro heq
  apply hnot
  rw [← UInt32.toNat_inj, h.tail_toNat, heq]
  exact hhd

/-- The slot read returns the descriptor whose turn it is. -/
theorem slotRead (h : Inv g s) {t : UInt32} (hpc : s.consumer = .slotRead t) :
    Inv g { s with consumer := .storeTail t (s.buffer t.toNat) } := by
  have hread := (h.safe).readsOwn t hpc
  have hok := h.consumerOk
  rw [hpc] at hok
  exact { h with consumerOk := ⟨hok.1, hok.2, hread.2⟩ }

/-- Storing `m_tail` releases the slot. -/
theorem storeTail (h : Inv g s) {t : UInt32} {desc : PorthDescriptor}
    (hpc : s.consumer = .storeTail t desc) :
    Inv g
      { s with
        tail := s.tail.store (advance g.size t).toUInt32
        consumer := .idle
        released := s.released ++ [desc] } := by
  have hok := h.consumerOk
  rw [hpc] at hok
  obtain ⟨rfl, hview, hget⟩ := hok
  obtain ⟨q, hq, hrep⟩ := h.queue
  rw [hq, List.getElem?_append_right (Nat.le_refl _), Nat.sub_self] at hget
  obtain ⟨rest, rfl⟩ : ∃ rest, q = desc :: rest := by
    cases q with
    | nil => simp at hget
    | cons x rest =>
        simp only [List.getElem?_cons_zero, Option.some.injEq] at hget
        exact ⟨rest, by rw [hget]⟩
  have hprod := h.producerOk
  refine
    { h with
      queue := ⟨rest, by simp [hq], ?_⟩
      tailAt := h.tailAt.store ?_
      tailLatest := by simp [h.tailLatest]
      tailView_le := by simpa using Nat.le_succ_of_le h.tailView_le
      headView_ge := by rw [List.length_append]; exact hview
      written := ?_
      producerOk := ?_
      consumerOk := trivial }
  · have hnext := hrep.store_tail
    simpa only [memory, Location.current_store, List.length_append,
      List.length_cons, List.length_nil] using hnext
  · exact at_advance h.tailAt.current
  · intro i hlo hhi
    simp only [List.length_append, List.length_cons, List.length_nil] at hlo
    exact h.written i (by omega) hhi
  · cases hc : s.producer <;> rw [hc] at hprod <;> exact hprod

/-- Every consumer step that does not load `m_head`. -/
theorem popStep (h : Inv g s) (hidle : s.consumer ≠ .idle)
    (hload : ∀ t, s.consumer ≠ .loadHead t) : Inv g (s.popped g.size) := by
  have hok := h.consumerOk
  cases hpc : s.consumer with
  | idle => exact absurd hpc hidle
  | loadHead t => exact absurd hpc (hload t)
  | loadTail =>
      simpa [popped, hpc, PopPc.step, access, memory, PopPc.returns] using
        ({ h with consumerOk := rfl } :
          Inv g { s with consumer := .loadHead s.tail.current })
  | emptyTest t hd =>
      rw [hpc] at hok
      obtain ⟨rfl, hhd⟩ := hok
      by_cases hempty : hd = s.tail.current
      · simpa [popped, hpc, PopPc.step, access, memory, PopPc.returns, hempty] using
          ({ h with consumerOk := trivial } : Inv g { s with consumer := .idle })
      · simpa [popped, hpc, PopPc.step, access, memory, PopPc.returns, hempty] using
          ({ h with consumerOk := ⟨rfl, h.emptyTest_nonempty hhd hempty⟩ } :
            Inv g { s with consumer := .slotRead s.tail.current })
  | slotRead t =>
      simpa [popped, hpc, PopPc.step, access, memory, PopPc.returns] using h.slotRead hpc
  | storeTail t desc =>
      simpa [popped, hpc, PopPc.step, access, memory, PopPc.returns] using h.storeTail hpc

/-- Every step of the schedule keeps the invariant. -/
theorem step (h : Inv g s) {a : SpscStep} {s' : Spsc}
    (hstep : s.step g.size a = some s') : Inv g s' := by
  cases a with
  | callPush desc =>
      simp only [Spsc.step] at hstep
      split at hstep
      · cases hstep
        exact h.callPush desc
      · cases hstep
  | pushLoadTail position =>
      simp only [Spsc.step] at hstep
      split at hstep
      · next desc hd hpc =>
          obtain ⟨t, hload, rfl⟩ := Option.map_eq_some_iff.mp hstep
          exact h.pushLoadTail hpc hload
      · cases hstep
  | pushStep =>
      simp only [Spsc.step] at hstep
      split at hstep
      · cases hstep
      · cases hstep
      · next hidle hload =>
          cases hstep
          exact h.pushStep hidle hload
  | callPop =>
      simp only [Spsc.step] at hstep
      split at hstep
      · cases hstep
        exact h.callPop
      · cases hstep
  | popLoadHead position =>
      simp only [Spsc.step] at hstep
      split at hstep
      · next t hpc =>
          obtain ⟨hd, hload, rfl⟩ := Option.map_eq_some_iff.mp hstep
          exact h.popLoadHead hpc hload
      · cases hstep
  | popStep =>
      simp only [Spsc.step] at hstep
      split at hstep
      · cases hstep
      · cases hstep
      · next hidle hload =>
          cases hstep
          exact h.popStep hidle hload

end Inv

/-- **SPSC safety**: in every state that any schedule of one producer and one
consumer on a fresh ring reaches, with loads of the other side's index as
stale as coherence allows. -/
theorem spsc_safe (g : RingGeometry) (slots : Nat → PorthDescriptor) {s : Spsc}
    (h : (system g.size slots).Reachable s) : s.Safe := by
  have hinv : Inv g s := h.invariant
    (fun _ hs => hs ▸ fresh_inv g slots) (fun _ _ _ hs hstep => hs.step hstep)
  exact hinv.safe

/-- One push and the pop behind it, up to the slot read, at `SIZE = 2`; the
consumer first looks at an old `m_head` and finds the ring empty. -/
def sizeTwoSchedule : List SpscStep :=
  [.callPush ⟨0x1000, 64⟩, .pushStep, .pushLoadTail 0, .pushStep, .pushStep, .pushStep,
    .callPop, .popStep, .popLoadHead 0, .popStep,
    .callPop, .popStep, .popLoadHead 1, .popStep]

theorem spsc_safe_size_two :
    ∃ s, (system (RingGeometry.size ⟨1, by decide, by decide⟩) fun _ => default).Reachable s ∧
      s.consumer = .slotRead 0 ∧ s.Safe := by
  obtain ⟨s, hexec, hpc⟩ := System.exec_of_any
    (step (RingGeometry.size ⟨1, by decide, by decide⟩)) (fresh fun _ => default)
    sizeTwoSchedule (fun s => s.consumer = .slotRead 0) (by decide +kernel)
  have hreach : (system _ fun _ => default).Reachable s := System.reachable_of_exec rfl hexec
  exact ⟨s, hreach, by simpa using hpc, spsc_safe _ _ hreach⟩

end Spsc

end PorthCore.Ports.RingSpsc
