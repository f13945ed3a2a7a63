import Mathlib.Data.Nat.ModEq
import Mathlib.Logic.Function.Basic

/-!
# Lists laid out in a circular store

A store of `n` slots holds a list from position `start` when element `i` of
the list sits in slot `(start + i) % n`.  Positions are unbounded sequence
numbers, so a queue that has wrapped around any number of times is described
by the same equation as a fresh one; only the slot number is reduced.

The rules below are what a bounded queue needs: two positions less than one
revolution apart never share a slot (`offset_inj`), writing behind the last
element extends the list (`Holds.push`), and advancing `start` drops the first
(`Holds.tail`).
-/

namespace PorthCore.Verified.Circular

variable {α : Type}

/-- Slot `(start + i) % n` of `slots` holds element `i` of `q`. -/
def Holds (n : Nat) (slots : Nat → α) (start : Nat) (q : List α) : Prop :=
  ∀ i (hi : i < q.length), slots ((start + i) % n) = q[i]

/-- Offsets below one revolution are told apart by their slots. -/
theorem offset_inj {n start i j : Nat} (hi : i < n) (hj : j < n)
    (h : (start + i) % n = (start + j) % n) : i = j := by
  have hmod : i ≡ j [MOD n] := Nat.ModEq.add_left_cancel' start h
  exact Nat.ModEq.eq_of_lt_of_lt hmod hi hj

/-- Two positions in a window of one revolution that share a slot are equal. -/
theorem pos_inj {n i j : Nat} (lo : Nat) (hi : lo ≤ i) (hin : i < lo + n)
    (hj : lo ≤ j) (hjn : j < lo + n) (h : i % n = j % n) : i = j := by
  have hoff := @offset_inj n lo (i - lo) (j - lo) (by omega)
    (by omega) (by rwa [Nat.add_sub_cancel' hi, Nat.add_sub_cancel' hj])
  omega

theorem Holds.nil (n : Nat) (slots : Nat → α) (start : Nat) :
    Holds n slots start [] := fun i hi => absurd hi (Nat.not_lt_zero i)

/-- A store holds one list of a given length from a given slot on. -/
theorem Holds.unique {n start start' : Nat} {slots : Nat → α} {q q' : List α}
    (h : Holds n slots start q) (h' : Holds n slots start' q')
    (hstart : start % n = start' % n) (hlen : q.length = q'.length) : q = q' := by
  refine List.ext_getElem hlen fun i hi hi' => ?_
  have hslot : (start + i) % n = (start' + i) % n := Nat.ModEq.add_right i hstart
  rw [← h i hi, ← h' i hi', hslot]

/-- The first element sits in the slot of `start`. -/
theorem Holds.head {n start : Nat} {slots : Nat → α} {x : α} {rest : List α}
    (h : Holds n slots start (x :: rest)) : slots (start % n) = x :=
  h 0 (Nat.succ_pos _)

/-- Advancing `start` by one position drops the first element. -/
theorem Holds.tail {n start : Nat} {slots : Nat → α} {x : α} {rest : List α}
    (h : Holds n slots start (x :: rest)) : Holds n slots (start + 1) rest := by
  intro i hi
  have hnext := h (i + 1) (Nat.succ_lt_succ hi)
  rw [show start + 1 + i = start + (i + 1) by omega, hnext]
  exact List.getElem_cons_succ ..

/-- A write to the slot behind the last element does not touch the list. -/
theorem Holds.write_back {n start : Nat} {slots : Nat → α} {q : List α}
    (hlen : q.length < n) (h : Holds n slots start q) (x : α) :
    Holds n (Function.update slots ((start + q.length) % n) x) start q := by
  intro i hi
  have hne : (start + i) % n ≠ (start + q.length) % n := by
    intro heq
    have := offset_inj (by omega) hlen heq
    omega
  rw [Function.update_of_ne hne]
  exact h i hi

/-- If the slot behind the last element holds `x`, the list extends by `x`. -/
theorem Holds.push {n start : Nat} {slots : Nat → α} {q : List α} {x : α}
    (h : Holds n slots start q) (hx : slots ((start + q.length) % n) = x) :
    Holds n slots start (q ++ [x]) := by
  intro i hi
  simp only [List.length_append, List.length_cons, List.length_nil] at hi
  by_cases hlast : i = q.length
  · subst hlast
    rw [hx]
    exact List.getElem_concat_length rfl _ |>.symm
  · have hlt : i < q.length := by omega
    rw [h i hlt, List.getElem_append_left hlt]

end PorthCore.Verified.Circular
