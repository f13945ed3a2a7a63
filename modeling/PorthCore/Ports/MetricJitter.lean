import Mathlib.Algebra.BigOperators.Fin
import Mathlib.Algebra.Order.BigOperators.Group.List
import Mathlib.Algebra.Order.Chebyshev
import PorthCore.Ports.Metric

/-!
# The jitter statistic of `PorthMetric`

`calculate_stdev` hands the samples twice to `std::inner_product` with a
`double` accumulator.  The accumulator is where the sum is kept; each product
is formed before, in `uint64_t`, and loses its multiples of 2^64.  The square
root that follows is taken of an absolute value.

With doubles taken for rationals, `true_squares_iff` says when the statistic
is the one it stands for: when every retained sample is below 2^32.
-/

namespace PorthCore.Ports.MetricJitter

open PorthCore.Verified.Transition.System
open PorthCore.Ports.Metric

/-- `calculate_mean`. -/
def calculateMean (m : PorthMetric) (samples : List UInt64) : ℚ :=
  samples.foldl (fun sum x => sum + (x.toNat : ℚ)) 0 / m.count

/-- `sq_sum` of `calculate_stdev`: the product is a `uint64_t`. -/
def sqSum (samples : List UInt64) : ℚ :=
  samples.foldl (fun sum x => sum + ((x * x).toNat : ℚ)) 0

/-- What `calculate_stdev` subtracts, before the absolute value. -/
def variance (m : PorthMetric) (samples : List UInt64) (mean : ℚ) : ℚ :=
  sqSum samples / m.count - mean * mean

/-- The argument of the square root. -/
def radicand (m : PorthMetric) (samples : List UInt64) (mean : ℚ) : ℚ :=
  |variance m samples mean|

/-- The statistic sums the squares of the retained samples, and its variance
is one. -/
structure TrueSquares (m : PorthMetric) (samples : List UInt64) : Prop where
  squares : sqSum samples = (m.retained.map fun x => (x.toNat ^ 2 : ℚ)).sum
  mean_sq_le : calculateMean m samples ^ 2 ≤ sqSum samples / m.count
  radicand_eq : radicand m samples (calculateMean m samples) =
    variance m samples (calculateMean m samples)

/-! ## Sums of squares -/

theorem foldl_add_eq_sum (f : UInt64 → ℚ) (l : List UInt64) (a : ℚ) :
    l.foldl (fun sum x => sum + f x) a = a + (l.map f).sum := by
  induction l generalizing a with
  | nil => simp
  | cons x l ih =>
      rw [List.foldl_cons, ih, List.map_cons, List.sum_cons, add_assoc]

/-- The product of a sample with itself falls short of its square by what
wraps. -/
theorem toNat_mul_self_le (x : UInt64) : (x * x).toNat ≤ x.toNat ^ 2 := by
  rw [UInt64.toNat_mul, sq]
  exact Nat.mod_le _ _

private theorem toNat_mul_self_eq_iff (x : UInt64) :
    (x * x).toNat = x.toNat ^ 2 ↔ x.toNat < 2 ^ 32 := by
  rw [UInt64.toNat_mul, sq, Nat.mod_eq_iff_lt (by decide)]
  constructor
  · intro h
    by_contra hbig
    have := Nat.mul_le_mul (Nat.not_lt.mp hbig) (Nat.not_lt.mp hbig)
    omega
  · intro h
    have := Nat.mul_lt_mul'' h h
    omega

/-- The sums agree exactly if every product does. -/
theorem sum_mul_self_eq_iff (l : List UInt64) :
    (l.map fun x => ((x * x).toNat : ℚ)).sum = (l.map fun x => (x.toNat ^ 2 : ℚ)).sum ↔
      ∀ x ∈ l, x.toNat < 2 ^ 32 := by
  induction l with
  | nil => simp
  | cons x l ih =>
      have hx : ((x * x).toNat : ℚ) ≤ x.toNat ^ 2 := by exact_mod_cast toNat_mul_self_le x
      have hl : (l.map fun x => ((x * x).toNat : ℚ)).sum ≤
          (l.map fun x => (x.toNat ^ 2 : ℚ)).sum := by
        apply List.sum_le_sum
        intro y _
        exact_mod_cast toNat_mul_self_le y
      rw [List.map_cons, List.map_cons, List.sum_cons, List.sum_cons, List.forall_mem_cons, ← ih,
        ← toNat_mul_self_eq_iff]
      constructor
      · intro h
        have hxeq : ((x * x).toNat : ℚ) = x.toNat ^ 2 := by linarith
        exact ⟨by exact_mod_cast hxeq, by linarith⟩
      · rintro ⟨hxeq, hleq⟩
        have hxeq' : ((x * x).toNat : ℚ) = x.toNat ^ 2 := by exact_mod_cast hxeq
        rw [hxeq', hleq]

/-- The square of a sum is at most the sum of the squares times their
number. -/
theorem sq_sum_le_length_mul (l : List ℚ) : l.sum ^ 2 ≤ l.length * (l.map (· ^ 2)).sum := by
  have h := sq_sum_le_card_mul_sum_sq (s := Finset.univ) (f := fun i : Fin l.length => l[i.1])
  rw [Finset.card_univ, Fintype.card_fin, Fin.sum_univ_getElem,
    Fin.sum_univ_fun_getElem l fun x => x ^ 2] at h
  exact h

/-! ## The statistic of a recorder -/

variable {m : PorthMetric}

private theorem calculateMean_sorted (m : PorthMetric) :
    calculateMean m m.retained.mergeSort =
      (m.retained.map fun x => (x.toNat : ℚ)).sum / m.count := by
  have hperm := List.mergeSort_perm m.retained fun a b => a ≤ b
  rw [calculateMean, foldl_add_eq_sum, zero_add, (hperm.map _).sum_eq]

private theorem sqSum_sorted (m : PorthMetric) :
    sqSum m.retained.mergeSort = (m.retained.map fun x => ((x * x).toNat : ℚ)).sum := by
  have hperm := List.mergeSort_perm m.retained fun a b => a ≤ b
  rw [sqSum, foldl_add_eq_sum fun x => ((x * x).toNat : ℚ), zero_add, (hperm.map _).sum_eq]

/-- With true squares the variance is that of the samples, and not negative. -/
theorem mean_sq_le_of_squares (h : m.Bounded) (hcount : 0 < m.count)
    (hsquares : sqSum m.retained.mergeSort = (m.retained.map fun x => (x.toNat ^ 2 : ℚ)).sum) :
    calculateMean m m.retained.mergeSort ^ 2 ≤ sqSum m.retained.mergeSort / m.count := by
  have hpos : (0 : ℚ) < m.count := by exact_mod_cast hcount
  have hschwarz := sq_sum_le_length_mul (m.retained.map fun x => (x.toNat : ℚ))
  rw [List.length_map, h.length_retained, List.map_map] at hschwarz
  rw [calculateMean_sorted, hsquares, div_pow, div_le_div_iff₀ (by positivity) hpos]
  calc
    (m.retained.map fun x => (x.toNat : ℚ)).sum ^ 2 * m.count
        ≤ (m.count * (m.retained.map fun x => (x.toNat ^ 2 : ℚ)).sum) * m.count := by
      gcongr
      exact hschwarz
    _ = (m.retained.map fun x => (x.toNat ^ 2 : ℚ)).sum * (m.count : ℚ) ^ 2 := by ring

private theorem trueSquares_iff (h : m.Bounded) (hcount : 0 < m.count) :
    TrueSquares m m.retained.mergeSort ↔ ∀ x ∈ m.retained, x.toNat < 2 ^ 32 := by
  rw [← sum_mul_self_eq_iff, ← sqSum_sorted]
  constructor
  · intro htrue
    exact htrue.squares
  · intro hsquares
    have hle := mean_sq_le_of_squares h hcount hsquares
    refine { squares := hsquares, mean_sq_le := hle, radicand_eq := ?_ }
    rw [sq] at hle
    exact abs_of_nonneg (sub_nonneg.mpr hle)

/-- **When the jitter statistic sums true squares.**  After any calls on a
recorder that leave a sample, the accumulated sum is the sum of the squares of
the retained samples, and with that the variance one, if and only if every
retained sample is below 2^32. -/
theorem true_squares_iff {cap : Nat} (hcap : 1 ≤ cap) {ops : List MetricOp}
    (hleft : PorthMetric.recorded ops ≠ []) :
    ∃ m samples, exec PorthMetric.step (.make cap) ops = some m ∧
      m.getSortedSamples = some samples ∧
      (TrueSquares m samples ↔ ∀ x ∈ (PorthMetric.recorded ops).take cap, x.toNat < 2 ^ 32) := by
  obtain ⟨m, hexec, h⟩ := (PorthMetric.Retains.make cap).run ops
  refine ⟨m, _, hexec, h.bounded.getSortedSamples, ?_⟩
  rw [trueSquares_iff h.bounded (h.count_pos hcap hleft), h.front]
  rfl

/-- Two samples below 2^32. -/
theorem true_squares_small : ∃ m samples,
    exec PorthMetric.step (.make 2) [.record 3, .record 4] = some m ∧
      m.getSortedSamples = some samples ∧
      (TrueSquares m samples ↔ ∀ x ∈ [3, 4], UInt64.toNat x < 2 ^ 32) :=
  true_squares_iff (by decide) (by decide)

/-- The one sample 2^32: its square is accumulated as 0. -/
theorem large_sample_not_true_squares :
    ∃ m, exec PorthMetric.step (.make 1) [.record 4294967296] = some m ∧
      m.getSortedSamples = some [4294967296] ∧ sqSum [4294967296] = 0 ∧
      ¬TrueSquares m [4294967296] := by
  refine ⟨{ samples := [4294967296], capacity := 1, count := 1 }, rfl, ?_, by decide +kernel, ?_⟩
  · simp [PorthMetric.getSortedSamples, PorthMetric.retained]
  · intro h
    have hsquares := h.squares
    revert hsquares
    decide +kernel

end PorthCore.Ports.MetricJitter
