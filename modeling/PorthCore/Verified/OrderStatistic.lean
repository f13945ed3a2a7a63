import Mathlib.Data.Rat.Floor

/-!
# Order statistics of a list

In a sorted list the elements below a given one all stand before it, and those
up to it include everything that does.  So the element at index `i` is one of
rank `r` for every `r` between `i` and `i + 1`: at most `r` elements are below
it and at least `r` are not above it (`hasRank_getElem`).  Ties need no care,
since both counts are taken of the value and not of the position.

Ranks are rational, because they usually are a fraction of the length.
-/

namespace PorthCore.Verified.OrderStatistic

variable {α : Type} [LE α]

/-! ## Sorted lists -/

section Sorted

variable [Std.IsLinearOrder α] {l : List α} (h : l.Pairwise (· ≤ ·))
include h

theorem getElem_le_getElem {i j : Nat} (hij : i ≤ j) (hj : j < l.length) : l[i] ≤ l[j] := by
  rcases Nat.eq_or_lt_of_le hij with rfl | hlt
  · exact Std.le_refl _
  · exact List.pairwise_iff_getElem.mp h i j (by omega) hj hlt

theorem getElem_zero_le (hpos : 0 < l.length) : ∀ x ∈ l, l[0] ≤ x := by
  intro x hx
  obtain ⟨j, hj, rfl⟩ := List.mem_iff_getElem.mp hx
  exact getElem_le_getElem h (Nat.zero_le j) hj

theorem le_getElem_last (hpos : 0 < l.length) : ∀ x ∈ l, x ≤ l[l.length - 1] := by
  intro x hx
  obtain ⟨j, hj, rfl⟩ := List.mem_iff_getElem.mp hx
  exact getElem_le_getElem h (by omega) (by omega)

/-- What stands before an element, and the element itself, is not above it. -/
theorem lt_countP_le_getElem [DecidableLE α] {i : Nat} (hi : i < l.length) :
    i < l.countP (decide <| · ≤ l[i]) := by
  have htake : (l.take (i + 1)).countP (decide <| · ≤ l[i]) = (l.take (i + 1)).length := by
    rw [List.countP_eq_length]
    intro x hx
    obtain ⟨j, hj, rfl⟩ := List.mem_iff_getElem.mp hx
    rw [List.length_take] at hj
    rw [List.getElem_take, decide_eq_true_eq]
    exact getElem_le_getElem h (by omega) hi
  calc
    i < (l.take (i + 1)).length := by rw [List.length_take]; omega
    _ = (l.take (i + 1)).countP (decide <| · ≤ l[i]) := htake.symm
    _ ≤ l.countP (decide <| · ≤ l[i]) := (List.take_sublist (i + 1) l).countP_le

/-- What is below an element stands before it. -/
theorem countP_lt_getElem_le [LT α] [DecidableLT α] [Std.LawfulOrderLT α] {i : Nat}
    (hi : i < l.length) :
    l.countP (decide <| · < l[i]) ≤ i := by
  have hdrop : (l.drop i).countP (decide <| · < l[i]) = 0 := by
    rw [List.countP_eq_zero]
    intro x hx hlt
    obtain ⟨j, hj, rfl⟩ := List.mem_iff_getElem.mp hx
    rw [List.getElem_drop, decide_eq_true_eq] at hlt
    rw [List.length_drop] at hj
    exact Std.not_lt.mpr (getElem_le_getElem h (Nat.le_add_right i j) (by omega)) hlt
  calc
    l.countP (decide <| · < l[i])
        = (l.take i ++ l.drop i).countP (decide <| · < l[i]) := by rw [List.take_append_drop]
    _ = (l.take i).countP (decide <| · < l[i]) := by
      rw [List.countP_append, hdrop, Nat.add_zero]
    _ ≤ (l.take i).length := List.countP_le_length
    _ ≤ i := List.length_take_le i l

end Sorted

/-! ## Ranks -/

variable [LT α] [DecidableLE α] [DecidableLT α]

/-- At most `r` elements are below `v`, and at least `r` are not above it. -/
structure HasRank (l : List α) (r : ℚ) (v : α) : Prop where
  below : (l.countP (decide <| · < v) : ℚ) ≤ r
  upTo : r ≤ (l.countP (decide <| · ≤ v) : ℚ)

/-- The order of the list does not matter. -/
theorem HasRank.perm {l l' : List α} {r : ℚ} {v : α} (h : HasRank l r v) (hperm : l.Perm l') :
    HasRank l' r v where
  below := hperm.countP_eq _ ▸ h.below
  upTo := hperm.countP_eq _ ▸ h.upTo

/-- **The rank of an index.** -/
theorem hasRank_getElem [Std.IsLinearOrder α] [Std.LawfulOrderLT α] {l : List α}
    (h : l.Pairwise (· ≤ ·)) {i : Nat} (hi : i < l.length) {r : ℚ} (hlo : (i : ℚ) ≤ r)
    (hhi : r ≤ i + 1) : HasRank l r l[i] where
  below := by
    have hbelow : (l.countP (decide <| · < l[i]) : ℚ) ≤ i := by
      exact_mod_cast countP_lt_getElem_le h hi
    exact hbelow.trans hlo
  upTo := by
    have hupTo : (i + 1 : ℚ) ≤ l.countP (decide <| · ≤ l[i]) := by
      exact_mod_cast lt_countP_le_getElem h hi
    exact hhi.trans hupTo

end PorthCore.Verified.OrderStatistic
