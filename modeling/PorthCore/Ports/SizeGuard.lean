import PorthCore.Ports.RingFifo

/-!
# What the size guard of the ring admits

The `static_assert` of `PorthRingBuffer` asks for `SIZE & (SIZE - 1) == 0`.
Besides the powers of two this holds of 0, where the mask `SIZE - 1` is all
ones; and the indices behind the mask are `uint32_t`, so above 2^32 it is
their width that wraps them.  `sound_iff` finds the accepted sizes at which
the ring keeps to its array and holds `SIZE - 1` descriptors: those from 1 to
2^32.
-/

namespace PorthCore.Ports.SizeGuard

open PorthCore.Verified.Transition
open PorthCore.Verified.BoundedFifo
open PorthCore.Ports.RingBuffer
open PorthCore.Ports.RingFifo

/-- The `static_assert`. -/
def Admits (size : UInt64) : Prop := size &&& (size - 1) = 0

instance (size : UInt64) : Decidable (Admits size) :=
  inferInstanceAs (Decidable (size &&& (size - 1) = 0))

/-- The slot a call reads or writes: a call that answers `false` uses none. -/
def slotUsed (size : UInt64) (ring : PorthRingBuffer) : Op PorthDescriptor → Option UInt32
  | .push desc => if (push size ring desc).1 then some ring.head else none
  | .pop out => if (pop size ring out).1 then some ring.tail else none

/-- The slots a sequence of calls uses, in order. -/
def slotsUsed (size : UInt64) : PorthRingBuffer → List (Op PorthDescriptor) → List UInt32
  | _, [] => []
  | ring, op :: ops =>
      (slotUsed size ring op).toList ++ slotsUsed size (ringStep size ring op).2 ops

/-- The number of descriptors queued after a sequence of calls on a fresh
ring: those accepted and not delivered. -/
def queued (size : UInt64) (slots : Nat → PorthDescriptor)
    (ops : List (Op PorthDescriptor)) : Nat :=
  (accepted ops (outputs (ringStep size) (.fresh slots) ops)).length -
    (delivered (outputs (ringStep size) (.fresh slots) ops)).length

/-- Every sequence of calls on a fresh ring over an array of `size` slots
stays inside the array, and the next push is refused exactly when `size - 1`
descriptors are queued. -/
structure Sound (size : UInt64) (slots : Nat → PorthDescriptor) : Prop where
  inBounds : ∀ ops, ∀ slot ∈ slotsUsed size (.fresh slots) ops, slot.toNat < size.toNat
  refuses : ∀ ops desc,
    (push size (final (ringStep size) (.fresh slots) ops) desc).1 = false ↔
      queued size slots ops + 1 = size.toNat

/-- The accepted sizes: 0 and the powers of two. -/
theorem admits_iff (size : UInt64) :
    Admits size ↔ size = 0 ∨ ∃ k, k ≤ 63 ∧ size.toNat = 2 ^ k := by
  unfold Admits
  by_cases hzero : size = 0
  · subst hzero
    simp
  · have hne : size.toNat ≠ 0 := fun h => hzero (UInt64.toNat_inj.mp h)
    have hone : (1 : UInt64) ≤ size := UInt64.le_iff_toNat_le.mpr (Nat.one_le_iff_ne_zero.mpr hne)
    rw [← UInt64.toNat_inj, UInt64.toNat_and, UInt64.toNat_sub_of_le _ _ hone]
    show size.toNat &&& (size.toNat - 1) = 0 ↔ _
    rw [Nat.and_sub_one_eq_zero_iff_isPowerOfTwo hne]
    constructor
    · rintro ⟨k, hk⟩
      refine .inr ⟨k, ?_, hk⟩
      have hlt : 2 ^ k < 2 ^ 64 := hk ▸ size.toNat_lt
      exact Nat.le_of_lt_succ ((Nat.pow_lt_pow_iff_right (by decide)).mp hlt)
    · rintro (h | ⟨k, -, hk⟩)
      · exact absurd h hzero
      · exact ⟨k, hk⟩

/-! ## From two slots on -/

section

variable {g : RingGeometry} {ring : PorthRingBuffer} {q : List PorthDescriptor}
  {slots : Nat → PorthDescriptor}

private theorem slotUsed_lt (h : Queues g ring q) {op : Op PorthDescriptor} {slot : UInt32}
    (hslot : slotUsed g.size ring op = some slot) : slot.toNat < g.period := by
  obtain ⟨pos, hrep⟩ := h
  cases op with
  | push desc =>
      obtain ⟨-, hhead⟩ := Option.ite_none_right_eq_some.mp hslot
      rw [← Option.some.inj hhead]
      exact hrep.head_lt
  | pop out =>
      obtain ⟨-, htail⟩ := Option.ite_none_right_eq_some.mp hslot
      rw [← Option.some.inj htail]
      exact hrep.tail_lt

/-- The slots a run uses are index values in use. -/
theorem slotsUsed_lt (h : Queues g ring q) (ops : List (Op PorthDescriptor)) :
    ∀ slot ∈ slotsUsed g.size ring ops, slot.toNat < g.period := by
  induction ops generalizing ring q with
  | nil => exact List.forall_mem_nil _
  | cons op ops ih =>
      intro slot hslot
      rw [slotsUsed, List.mem_append, Option.mem_toList] at hslot
      rcases hslot with hnow | hlater
      · exact slotUsed_lt h hnow
      · exact ih (ringStep_simulates g ring q op h).2 slot hlater

/-- What is queued is what the abstract queue holds. -/
theorem queued_eq (g : RingGeometry) (slots : Nat → PorthDescriptor)
    (ops : List (Op PorthDescriptor)) :
    queued g.size slots ops = (final (step (g.period - 1)) [] ops).length := by
  have hhistory := history (g.period - 1) ops ([] : List PorthDescriptor)
  unfold queued
  rw [(fresh_ring_run g slots ops).1, ← List.nil_append (accepted _ _), hhistory,
    List.length_append, Nat.add_sub_cancel_left]

/-- The next push is refused exactly when `period - 1` descriptors are
queued. -/
theorem refuses_iff (g : RingGeometry) (slots : Nat → PorthDescriptor)
    (ops : List (Op PorthDescriptor)) (desc : PorthDescriptor) :
    (push g.size (final (ringStep g.size) (.fresh slots) ops) desc).1 = false ↔
      queued g.size slots ops + 1 = g.period := by
  have hqueues := (fresh_ring_run g slots ops).2
  have hpush := hqueues.push_true_iff desc
  obtain ⟨pos, hrep⟩ := hqueues
  have hroom := hrep.room
  rw [queued_eq, ← Bool.not_eq_true, hpush]
  omega

private theorem sound_of_period (hperiod : g.period = g.size.toNat)
    (slots : Nat → PorthDescriptor) : Sound g.size slots where
  inBounds := by
    rw [← hperiod]
    exact slotsUsed_lt ⟨0, represents_fresh g slots⟩
  refuses := by
    rw [← hperiod]
    exact refuses_iff g slots

/-- Pushes alone fill the queue. -/
theorem final_pushes (cap : Nat) (desc : PorthDescriptor) {n : Nat} (q : List PorthDescriptor)
    (h : q.length + n ≤ cap) :
    (final (step cap) q (List.replicate n (.push desc))).length = q.length + n := by
  induction n generalizing q with
  | zero => rfl
  | succ n ih =>
      rw [List.replicate_succ, final, step_push_of_lt desc (by omega)]
      have hlength : (q ++ [desc]).length = q.length + 1 := by simp
      rw [ih (q ++ [desc]) (by omega), hlength]
      omega

/-- A ring whose indices wrap before its mask does is full too early. -/
theorem not_sound_of_period (hperiod : g.period ≠ g.size.toNat) : ¬Sound g.size slots := by
  intro h
  have hfull := final_pushes (g.period - 1) default (n := g.period - 1) [] (by simp)
  have hqueued := queued_eq g slots (List.replicate (g.period - 1) (.push default))
  have hpos := g.two_le_period
  rw [hfull, List.length_nil, Nat.zero_add] at hqueued
  have hrefused := (refuses_iff g slots (List.replicate (g.period - 1) (.push default)) default).mpr
    (by omega)
  have hsize := (h.refuses _ default).mp hrefused
  omega

end

/-! ## The two sizes below -/

/-- With one slot the ring is full and empty at once. -/
theorem push_one (slots : Nat → PorthDescriptor) (desc : PorthDescriptor) :
    push 1 (.fresh slots) desc = (false, .fresh slots) :=
  if_pos (by decide : advance 1 0 = (0 : UInt32).toUInt64)

private theorem pop_one (slots : Nat → PorthDescriptor) (out : PorthDescriptor) :
    pop 1 (.fresh slots) out = (false, out, .fresh slots) := rfl

/-- It answers every call with `false` and stays as it is. -/
theorem run_one (slots : Nat → PorthDescriptor) (ops : List (Op PorthDescriptor)) :
    final (ringStep 1) (.fresh slots) ops = .fresh slots ∧
      slotsUsed 1 (.fresh slots) ops = [] ∧ queued 1 slots ops = 0 := by
  unfold queued
  induction ops with
  | nil => exact ⟨rfl, rfl, rfl⟩
  | cons op ops ih =>
      obtain ⟨hfinal, hslots, hqueued⟩ := ih
      cases op with
      | push desc =>
          simp only [final, slotsUsed, outputs, ringStep, slotUsed, push_one, accepted, delivered,
            Bool.false_eq_true, if_false, Option.toList_none, List.nil_append]
          exact ⟨hfinal, hslots, hqueued⟩
      | pop out =>
          simp only [final, slotsUsed, outputs, ringStep, slotUsed, pop_one, accepted, delivered,
            Bool.false_eq_true, if_false, Option.toList_none, List.nil_append]
          exact ⟨hfinal, hslots, hqueued⟩

private theorem sound_one (slots : Nat → PorthDescriptor) : Sound 1 slots where
  inBounds := by
    intro ops
    rw [(run_one slots ops).2.1]
    exact List.forall_mem_nil _
  refuses := by
    intro ops desc
    rw [(run_one slots ops).1, (run_one slots ops).2.2, push_one]
    exact ⟨fun _ => rfl, fun _ => rfl⟩

/-- With no slot the first push is accepted all the same. -/
theorem not_sound_zero (slots : Nat → PorthDescriptor) : ¬Sound 0 slots := by
  intro h
  have hroom : advance 0 0 ≠ (0 : UInt32).toUInt64 := by decide
  have hused : slotsUsed 0 (.fresh slots) [.push default] = [0] := by
    simp only [slotsUsed, slotUsed, push, PorthRingBuffer.fresh, hroom, if_false, if_true,
      Option.toList_some, List.append_nil]
  have hslot := h.inBounds [.push default] 0 (hused ▸ List.mem_singleton_self 0)
  exact absurd hslot (Nat.not_lt_zero _)

/-- **What the size guard is enough for.**  Of the sizes it accepts, the ring
keeps to its array and is full at `SIZE - 1` descriptors for exactly those
from 1 to 2^32. -/
theorem sound_iff {size : UInt64} (hguard : Admits size) (slots : Nat → PorthDescriptor) :
    Sound size slots ↔ 1 ≤ size.toNat ∧ size.toNat ≤ 2 ^ 32 := by
  rcases (admits_iff size).mp hguard with rfl | ⟨k, hk, hsize⟩
  · constructor
    · intro h
      exact absurd h (not_sound_zero slots)
    · intro h
      exact absurd h.1 (by decide)
  · rcases Nat.eq_zero_or_pos k with rfl | hpos
    · obtain rfl : size = 1 := UInt64.toNat_inj.mp hsize
      constructor
      · intro _
        decide
      · intro _
        exact sound_one slots
    · let g : RingGeometry := ⟨k, hpos, hk⟩
      obtain rfl : size = g.size := UInt64.toNat_inj.mp (hsize.trans g.size_toNat.symm)
      have hperiod : g.period = g.size.toNat ↔ g.size.toNat ≤ 2 ^ 32 := by
        rw [hsize, Nat.pow_le_pow_iff_right (by decide)]
        show 2 ^ min k 32 = 2 ^ k ↔ k ≤ 32
        rw [Nat.pow_right_inj (by decide)]
        omega
      have hone : 1 ≤ g.size.toNat := hsize ▸ Nat.one_le_two_pow
      constructor
      · intro h
        refine ⟨hone, hperiod.mp ?_⟩
        by_contra hne
        exact not_sound_of_period hne h
      · rintro ⟨-, hle⟩
        exact sound_of_period (hperiod.mpr hle) slots

theorem sound_default : Sound 1024 fun _ => default :=
  (sound_iff (by decide) _).mpr (by decide)

/-- `SIZE = 0` passes the guard, and its first push writes slot 0 of an array
without slots. -/
theorem zero_admitted_not_sound : Admits 0 ∧ ¬Sound 0 fun _ => default :=
  ⟨by decide, not_sound_zero _⟩

end PorthCore.Ports.SizeGuard
