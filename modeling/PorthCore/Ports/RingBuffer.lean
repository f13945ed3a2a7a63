import Mathlib.Data.Nat.ModEq
import PorthCore.Verified.Circular

/-!
# `PorthRingBuffer<SIZE>`: the SPSC descriptor ring

The indices are the source's `uint32_t`, the mask is its `size_t`, and the
descriptor memory is what `m_buffer` points to, indexed in descriptors.  The
push and pop below are whole calls; `PorthCore.Ports.RingSteps` has the same
code one memory access at a time.

`RingGeometry` is a `SIZE` the `static_assert` of the class admits, from two
slots on.  With `SIZE` above `2^32` the indices wrap at the width of
`uint32_t` before the mask bites, so the number of slots in use is
`RingGeometry.period`, not `SIZE`; the two agree up to `2^32`.

`Represents g ring pos q` is the abstraction relation: `pos` descriptors have
left the ring so far and `q` is queued.  Each access to the ring has one lemma
about it, and nothing later unfolds `push` or `pop`.
-/

namespace PorthCore.Ports.RingBuffer

open PorthCore.Verified.Circular

/-- The unit of exchange between the CPU and the data plane. -/
structure PorthDescriptor where
  addr : UInt64
  len : UInt32
  deriving DecidableEq, Repr, Inhabited

/-- The ring object: the descriptor array and the two indices. -/
structure PorthRingBuffer where
  buffer : Nat → PorthDescriptor
  head : UInt32
  tail : UInt32

/-- A ring as its constructor leaves it; the array contents are arbitrary. -/
def PorthRingBuffer.fresh (slots : Nat → PorthDescriptor) : PorthRingBuffer :=
  { buffer := slots, head := 0, tail := 0 }

/-- `(i + 1) & (SIZE - 1)`: the increment wraps in `uint32_t`, the mask is a
`size_t`, and so is the result. -/
def advance (size : UInt64) (i : UInt32) : UInt64 :=
  (i + 1).toUInt64 &&& (size - 1)

/-- `PorthRingBuffer::push`. -/
def push (size : UInt64) (ring : PorthRingBuffer) (desc : PorthDescriptor) :
    Bool × PorthRingBuffer :=
  let h := ring.head
  let t := ring.tail
  if advance size h = t.toUInt64 then (false, ring)
  else
    (true,
      { ring with
        buffer := Function.update ring.buffer h.toNat desc
        head := (advance size h).toUInt32 })

/-- `PorthRingBuffer::pop`; `outDesc` is the output parameter, before and
after the call. -/
def pop (size : UInt64) (ring : PorthRingBuffer) (outDesc : PorthDescriptor) :
    Bool × PorthDescriptor × PorthRingBuffer :=
  let t := ring.tail
  let h := ring.head
  if h = t then (false, outDesc, ring)
  else
    (true, ring.buffer t.toNat,
      { ring with tail := (advance size t).toUInt32 })

/-! ## Geometry -/

/-- A power of two from 2 on that fits `size_t`. -/
structure RingGeometry where
  log2 : Nat
  one_le : 1 ≤ log2
  le_63 : log2 ≤ 63

namespace RingGeometry

/-- The template argument `SIZE`. -/
def size (g : RingGeometry) : UInt64 := UInt64.ofNat (2 ^ g.log2)

/-- The number of index values in use. -/
def period (g : RingGeometry) : Nat := 2 ^ min g.log2 32

variable (g : RingGeometry)

theorem size_toNat : g.size.toNat = 2 ^ g.log2 := by
  have hlt : 2 ^ g.log2 < 2 ^ 64 :=
    Nat.pow_lt_pow_right (by decide) (by have := g.le_63; omega)
  exact UInt64.toNat_ofNat_of_lt' hlt

theorem period_eq (h : g.log2 ≤ 32) : g.period = 2 ^ g.log2 := by
  rw [period, Nat.min_eq_left h]

theorem two_le_period : 2 ≤ g.period := by
  calc
    2 = 2 ^ 1 := rfl
    _ ≤ 2 ^ min g.log2 32 :=
      Nat.pow_le_pow_right (by decide) (by have := g.one_le; omega)

theorem period_pos : 0 < g.period := by
  have := g.two_le_period
  omega

private theorem period_le : g.period ≤ 2 ^ 32 :=
  Nat.pow_le_pow_right (by decide) (Nat.min_le_right _ _)

theorem size_eq_iff_period_eq : g.size = 1024 ↔ g.period = 1024 := by
  rw [← UInt64.toNat_inj, g.size_toNat, period,
    show (1024 : UInt64).toNat = 2 ^ 10 from rfl, show (1024 : Nat) = 2 ^ 10 from rfl,
    Nat.pow_right_inj (by decide), Nat.pow_right_inj (by decide)]
  omega

private theorem smallest_one_le : 1 ≤ 1 := by decide

private theorem smallest_le_63 : 1 ≤ 63 := by decide

/-- Two slots, which hold one descriptor. -/
def smallest : RingGeometry := ⟨1, smallest_one_le, smallest_le_63⟩

/-- The default capacity, which is also the Digital Twin's. -/
def default1024 : RingGeometry := ⟨10, by decide, by decide⟩

@[simp] theorem default1024_size : default1024.size = 1024 := by decide

@[simp] theorem default1024_period : default1024.period = 1024 := by decide

end RingGeometry

/-- Masking with `SIZE - 1` is reduction modulo `SIZE`. -/
private theorem mask_eq_mod (g : RingGeometry) (n : Nat) :
    n &&& (g.size - 1).toNat = n % 2 ^ g.log2 := by
  have hone : (1 : UInt64) ≤ g.size := by
    rw [UInt64.le_iff_toNat_le, g.size_toNat]
    exact Nat.one_le_two_pow
  rw [UInt64.toNat_sub_of_le _ _ hone, g.size_toNat]
  exact Nat.and_two_pow_sub_one_eq_mod n g.log2

/-- The one place where the two word widths meet: the next index is the
successor modulo the period. -/
theorem advance_toNat (g : RingGeometry) (i : UInt32) :
    (advance g.size i).toNat = (i.toNat + 1) % g.period := by
  have hinc : (i + 1).toUInt64.toNat = (i.toNat + 1) % 2 ^ 32 := by
    rw [UInt32.toNat_toUInt64, UInt32.toNat_add]
    rfl
  rw [advance, UInt64.toNat_and, mask_eq_mod, hinc, RingGeometry.period]
  by_cases h : g.log2 ≤ 32
  · rw [Nat.min_eq_left h]
    exact Nat.mod_mod_of_dvd _ (Nat.pow_dvd_pow 2 h)
  · have hlt : (i.toNat + 1) % 2 ^ 32 < 2 ^ g.log2 :=
      Nat.lt_of_lt_of_le (Nat.mod_lt _ (by decide))
        (Nat.pow_le_pow_right (by decide) (by omega))
    rw [Nat.min_eq_right (by omega), Nat.mod_eq_of_lt hlt]

private theorem advance_lt (g : RingGeometry) (i : UInt32) :
    (advance g.size i).toNat < g.period := by
  rw [advance_toNat]
  exact Nat.mod_lt _ g.period_pos

/-- The store back into a `uint32_t` index loses nothing. -/
theorem advance_toUInt32_toNat (g : RingGeometry) (i : UInt32) :
    (advance g.size i).toUInt32.toNat = (i.toNat + 1) % g.period := by
  have hlt : (advance g.size i).toNat < 2 ^ 32 :=
    Nat.lt_of_lt_of_le (advance_lt g i) g.period_le
  rw [UInt64.toNat_toUInt32, Nat.mod_eq_of_lt hlt, advance_toNat]

/-! ## The abstraction relation -/

/-- `ring` has handed out `pos` descriptors so far and now queues `q`. -/
structure Represents (g : RingGeometry) (ring : PorthRingBuffer) (pos : Nat)
    (q : List PorthDescriptor) : Prop where
  tail_eq : ring.tail.toNat = pos % g.period
  head_eq : ring.head.toNat = (pos + q.length) % g.period
  room : q.length < g.period
  slots : Holds g.period ring.buffer pos q

theorem represents_fresh (g : RingGeometry) (slots : Nat → PorthDescriptor) :
    Represents g (.fresh slots) 0 [] where
  tail_eq := (Nat.zero_mod _).symm
  head_eq := (Nat.zero_mod _).symm
  room := g.period_pos
  slots := Holds.nil _ _ _

namespace Represents

variable {g : RingGeometry} {ring : PorthRingBuffer} {pos : Nat}
  {q : List PorthDescriptor}

theorem tail_lt (h : Represents g ring pos q) : ring.tail.toNat < g.period := by
  rw [h.tail_eq]
  exact Nat.mod_lt _ g.period_pos

theorem head_lt (h : Represents g ring pos q) : ring.head.toNat < g.period := by
  rw [h.head_eq]
  exact Nat.mod_lt _ g.period_pos

/-- Only the period of the geometry matters. -/
theorem congr_period {g' : RingGeometry} (h : Represents g ring pos q)
    (hperiod : g.period = g'.period) : Represents g' ring pos q where
  tail_eq := hperiod ▸ h.tail_eq
  head_eq := hperiod ▸ h.head_eq
  room := hperiod ▸ h.room
  slots := hperiod ▸ h.slots

private theorem advance_head (h : Represents g ring pos q) :
    (advance g.size ring.head).toNat = (pos + (q.length + 1)) % g.period := by
  rw [advance_toNat, h.head_eq, Nat.mod_add_mod, Nat.add_assoc]

/-- The full test fires exactly when one slot is left. -/
theorem full_iff (h : Represents g ring pos q) :
    advance g.size ring.head = ring.tail.toUInt64 ↔ q.length + 1 = g.period := by
  rw [← UInt64.toNat_inj, h.advance_head, UInt32.toNat_toUInt64, h.tail_eq]
  constructor
  · intro heq
    by_contra hne
    have hlt : q.length + 1 < g.period := by have := h.room; omega
    have := offset_inj (j := 0) hlt g.period_pos heq
    omega
  · intro heq
    rw [heq, Nat.add_mod_right]

/-- The empty test fires exactly when nothing is queued. -/
theorem empty_iff (h : Represents g ring pos q) : ring.head = ring.tail ↔ q = [] := by
  rw [← UInt32.toNat_inj, h.head_eq, h.tail_eq, ← List.length_eq_zero_iff]
  constructor
  · intro heq
    exact offset_inj (j := 0) h.room g.period_pos heq
  · intro heq
    rw [heq, Nat.add_zero]

/-- A ring represents one queue. -/
theorem unique {pos' : Nat} {q' : List PorthDescriptor} (h : Represents g ring pos q)
    (h' : Represents g ring pos' q') : q = q' := by
  have hpos : pos % g.period = pos' % g.period := h.tail_eq.symm.trans h'.tail_eq
  have hend : (pos + q.length) % g.period = (pos + q'.length) % g.period :=
    calc
      (pos + q.length) % g.period = (pos' + q'.length) % g.period :=
        h.head_eq.symm.trans h'.head_eq
      _ = (pos + q'.length) % g.period := (Nat.ModEq.add_right q'.length hpos).symm
  exact h.slots.unique h'.slots hpos (offset_inj h.room h'.room hend)

/-! ### One lemma for each access -/

/-- Writing the slot at `head` leaves the queue alone. -/
theorem write_slot (h : Represents g ring pos q) (desc : PorthDescriptor) :
    Represents g
      { ring with buffer := Function.update ring.buffer ring.head.toNat desc } pos q where
  tail_eq := h.tail_eq
  head_eq := h.head_eq
  room := h.room
  slots := by
    rw [h.head_eq]
    exact h.slots.write_back h.room desc

/-- Storing `head` appends what the slot at the old `head` holds. -/
theorem store_head (h : Represents g ring pos q) (hroom : q.length + 1 < g.period)
    {desc : PorthDescriptor} (hdesc : ring.buffer ring.head.toNat = desc) :
    Represents g { ring with head := (advance g.size ring.head).toUInt32 } pos
      (q ++ [desc]) where
  tail_eq := h.tail_eq
  head_eq := by
    simp only [advance_toUInt32_toNat, List.length_append, List.length_cons, List.length_nil]
    rw [h.head_eq, Nat.mod_add_mod, Nat.add_assoc]
  room := by
    simpa only [List.length_append, List.length_cons, List.length_nil] using hroom
  slots := h.slots.push (by rw [← h.head_eq]; exact hdesc)

/-- The slot at `tail` holds the oldest descriptor. -/
theorem read_slot {desc : PorthDescriptor} (h : Represents g ring pos (desc :: q)) :
    ring.buffer ring.tail.toNat = desc := by
  rw [h.tail_eq]
  exact h.slots.head

/-- Storing `tail` drops the oldest descriptor. -/
theorem store_tail {desc : PorthDescriptor} (h : Represents g ring pos (desc :: q)) :
    Represents g { ring with tail := (advance g.size ring.tail).toUInt32 } (pos + 1) q where
  tail_eq := by
    simp only [advance_toUInt32_toNat]
    rw [h.tail_eq, Nat.mod_add_mod]
  head_eq := by
    have hhead := h.head_eq
    rw [List.length_cons] at hhead
    rw [show pos + 1 + q.length = pos + (q.length + 1) by omega]
    exact hhead
  room := Nat.lt_of_succ_lt h.room
  slots := h.slots.tail

end Represents

/-! ## The specification of `push` and `pop` -/

variable {g : RingGeometry} {ring : PorthRingBuffer} {pos : Nat}
  {q : List PorthDescriptor}

theorem push_full (h : Represents g ring pos q) (hfull : q.length + 1 = g.period)
    (desc : PorthDescriptor) : push g.size ring desc = (false, ring) :=
  if_pos (h.full_iff.mpr hfull)

theorem push_room (h : Represents g ring pos q) (hroom : q.length + 1 < g.period)
    (desc : PorthDescriptor) :
    (push g.size ring desc).1 = true ∧
      Represents g (push g.size ring desc).2 pos (q ++ [desc]) := by
  have hnot : advance g.size ring.head ≠ ring.tail.toUInt64 := by
    rw [Ne, h.full_iff]
    omega
  rw [push, if_neg hnot]
  exact ⟨rfl, (h.write_slot desc).store_head hroom (Function.update_self ..)⟩

theorem pop_empty (h : Represents g ring pos []) (out : PorthDescriptor) :
    pop g.size ring out = (false, out, ring) :=
  if_pos (h.empty_iff.mpr rfl)

theorem pop_cons {desc : PorthDescriptor} (h : Represents g ring pos (desc :: q))
    (out : PorthDescriptor) :
    (pop g.size ring out).1 = true ∧ (pop g.size ring out).2.1 = desc ∧
      Represents g (pop g.size ring out).2.2 (pos + 1) q := by
  have hnot : ring.head ≠ ring.tail := by
    rw [Ne, h.empty_iff]
    exact List.cons_ne_nil _ _
  rw [pop, if_neg hnot]
  exact ⟨rfl, h.read_slot, h.store_tail⟩

/-- A call that answers `false` changes nothing, whatever the ring. -/
theorem push_false {size : UInt64} {ring : PorthRingBuffer} {desc : PorthDescriptor}
    (h : (push size ring desc).1 = false) : (push size ring desc).2 = ring := by
  unfold push at h ⊢
  dsimp only at h ⊢
  split at h <;> simp_all

theorem pop_false {size : UInt64} {ring : PorthRingBuffer} {out : PorthDescriptor}
    (h : (pop size ring out).1 = false) : (pop size ring out).2 = (out, ring) := by
  unfold pop at h ⊢
  dsimp only at h ⊢
  split at h <;> simp_all

end PorthCore.Ports.RingBuffer
