import Mathlib.Algebra.Order.Field.Basic
import Mathlib.Tactic.GCongr
import Mathlib.Tactic.Linarith
import Mathlib.Tactic.Positivity
import Mathlib.Tactic.Ring
import PorthCore.Verified.OrderStatistic
import PorthCore.Verified.Transition

/-!
# `PorthMetric`: the sample recorder and its percentiles

The buffer is allocated once, `m_count` says how much of it is in use, and
`reset` only puts the count back: stale samples stay behind it.  An access
outside `m_samples` is undefined; here it makes the operation return `none`.

Doubles are rationals.  What is left to show of `get_percentile_ns` is then
about its index: truncated, and clamped at the top (`exists_quantiles`).
-/

namespace PorthCore.Ports.Metric

open PorthCore.Verified.OrderStatistic
open PorthCore.Verified.Transition.System

/-- The recorder: a vector of `capacity` cycle counts and how many of them are
set. -/
structure PorthMetric where
  samples : List UInt64
  capacity : Nat
  count : Nat
  deriving DecidableEq, Repr

namespace PorthMetric

/-- The constructor. -/
def make (maxSamples : Nat) : PorthMetric :=
  { samples := List.replicate maxSamples 0
    capacity := maxSamples
    count := 0 }

/-- `record`. -/
def record (m : PorthMetric) (latency : UInt64) : Option PorthMetric :=
  if m.count < m.capacity then
    if m.count < m.samples.length then
      some { m with samples := m.samples.set m.count latency, count := m.count + 1 }
    else none
  else some m

/-- `reset`. -/
def reset (m : PorthMetric) : PorthMetric := { m with count := 0 }

/-- The samples in use. -/
def retained (m : PorthMetric) : List UInt64 := m.samples.take m.count

/-- `get_sorted_samples`. -/
def getSortedSamples (m : PorthMetric) : Option (List UInt64) :=
  if m.count ≤ m.samples.length then some (m.retained.mergeSort) else none

/-- The index of `get_percentile_ns`.  Its callers have returned where the
count is 0. -/
def percentileIndex (m : PorthMetric) (percentile : ℚ) : Nat :=
  let idx := ⌊percentile * m.count / 100⌋₊
  if m.count ≤ idx then m.count - 1 else idx

/-- The sample `get_percentile_ns` selects. -/
def percentileSample (m : PorthMetric) (samples : List UInt64) (percentile : ℚ) : Option UInt64 :=
  samples[m.percentileIndex percentile]?

/-- `get_percentile_ns`. -/
def getPercentileNs (m : PorthMetric) (samples : List UInt64) (percentile cpns : ℚ) : Option ℚ :=
  (m.percentileSample samples percentile).map fun v => v.toNat / cpns

/-- The columns `save_markdown_report` writes. -/
structure MarkdownRow where
  minNs : ℚ
  medianNs : ℚ
  p999Ns : ℚ
  maxNs : ℚ

/-- `save_markdown_report`: the row it writes, unless nothing is recorded. -/
def saveMarkdownReport (m : PorthMetric) (cyclesPerNs : ℚ) : Option MarkdownRow :=
  if m.count = 0 then none
  else do
    let sorted ← m.getSortedSamples
    let minNs ← m.getPercentileNs sorted 0 cyclesPerNs
    let medianNs ← m.getPercentileNs sorted 50 cyclesPerNs
    let p999Ns ← m.getPercentileNs sorted (999 / 10) cyclesPerNs
    let maxNs ← m.getPercentileNs sorted 100 cyclesPerNs
    some { minNs := minNs, medianNs := medianNs, p999Ns := p999Ns, maxNs := maxNs }

end PorthMetric

/-- A call on a recorder. -/
inductive MetricOp
  | record (latency : UInt64)
  | reset
  deriving DecidableEq, Repr

namespace PorthMetric

/-- One call; `none` where the vector has no such index. -/
def step (m : PorthMetric) : MetricOp → Option PorthMetric
  | .record latency => m.record latency
  | .reset => some m.reset

/-- The values recorded since the last reset, after those in `l`. -/
def recordedFrom (l : List UInt64) : List MetricOp → List UInt64
  | [] => l
  | .record latency :: ops => recordedFrom (l ++ [latency]) ops
  | .reset :: ops => recordedFrom [] ops

/-- The values recorded since the last reset. -/
def recorded (ops : List MetricOp) : List UInt64 := recordedFrom [] ops

/-! ## What a recorder retains -/

/-- The three copies of the buffer's size agree. -/
structure Bounded (m : PorthMetric) : Prop where
  count_le : m.count ≤ m.capacity
  size : m.capacity = m.samples.length

/-- A recorder of capacity `cap` that has been given `l` since the last
reset. -/
structure Retains (cap : Nat) (l : List UInt64) (m : PorthMetric) : Prop where
  capacity : m.capacity = cap
  size : m.samples.length = cap
  count : m.count = min l.length cap
  front : m.retained = l.take cap

variable {m : PorthMetric} {cap : Nat} {l : List UInt64}

theorem Bounded.make (cap : Nat) : Bounded (make cap) where
  count_le := Nat.zero_le cap
  size := List.length_replicate.symm

/-- Where they agree, `record` writes inside the buffer. -/
theorem Bounded.record (h : Bounded m) (latency : UInt64) :
    ∃ m', m.record latency = some m' ∧ Bounded m' := by
  unfold PorthMetric.record
  by_cases hroom : m.count < m.capacity
  · have hin : m.count < m.samples.length := h.size ▸ hroom
    rw [if_pos hroom, if_pos hin]
    exact ⟨_, rfl, hroom, h.size.trans List.length_set.symm⟩
  · rw [if_neg hroom]
    exact ⟨m, rfl, h⟩

theorem Bounded.reset (h : Bounded m) : Bounded m.reset where
  count_le := Nat.zero_le _
  size := h.size

/-- And `get_sorted_samples` reads inside it. -/
theorem Bounded.getSortedSamples (h : Bounded m) :
    m.getSortedSamples = some m.retained.mergeSort :=
  if_pos (h.size ▸ h.count_le)

theorem Retains.bounded (h : Retains cap l m) : Bounded m where
  count_le := by
    rw [h.count, h.capacity]
    exact Nat.min_le_right _ _
  size := h.capacity.trans h.size.symm

theorem Retains.make (cap : Nat) : Retains cap [] (make cap) where
  capacity := rfl
  size := List.length_replicate
  count := (Nat.zero_min cap).symm
  front := List.take_nil.symm

theorem Retains.reset (h : Retains cap l m) : Retains cap [] m.reset where
  capacity := h.capacity
  size := h.size
  count := (Nat.zero_min cap).symm
  front := List.take_nil.symm

theorem Retains.record (h : Retains cap l m) (latency : UInt64) :
    ∃ m', m.record latency = some m' ∧ Retains cap (l ++ [latency]) m' := by
  have hcount := h.count
  have hfront := h.front
  have hlength : (l ++ [latency]).length = l.length + 1 := by simp
  have hcapacity := h.capacity
  have hsize := h.size
  unfold PorthMetric.record
  by_cases hroom : m.count < m.capacity
  · have hin : m.count < m.samples.length := by omega
    rw [if_pos hroom, if_pos hin]
    refine ⟨_, rfl, h.capacity, ?_, ?_, ?_⟩
    · rw [List.length_set]
      exact h.size
    · show m.count + 1 = min (l ++ [latency]).length cap
      omega
    · show (m.samples.set m.count latency).take (m.count + 1) = _
      have hold : m.samples.take m.count = l := by
        rw [retained] at hfront
        rw [hfront, List.take_of_length_le (by omega)]
      rw [List.take_add_one, List.getElem?_set_self hin, List.take_set_of_le (Nat.le_refl _), hold,
        List.take_of_length_le (by omega)]
      rfl
  · rw [if_neg hroom]
    refine ⟨m, rfl, h.capacity, h.size, by omega, ?_⟩
    rw [hfront, List.take_append_of_le_length (by omega)]

/-- A whole sequence of calls. -/
theorem Retains.run (h : Retains cap l m) (ops : List MetricOp) :
    ∃ m', exec step m ops = some m' ∧ Retains cap (recordedFrom l ops) m' := by
  induction ops generalizing l m with
  | nil => exact ⟨m, rfl, h⟩
  | cons op ops ih =>
      cases op with
      | record latency =>
          obtain ⟨m₁, hstep, h₁⟩ := h.record latency
          obtain ⟨m', hexec, h'⟩ := ih h₁
          refine ⟨m', ?_, h'⟩
          simp only [exec, step, hstep, Option.bind_some]
          exact hexec
      | reset => exact ih h.reset

/-! ## The index of a percentile -/

section

variable {p q : ℚ} (hcount : 0 < m.count)
include hcount

private theorem percentileIndex_lt (p : ℚ) : m.percentileIndex p < m.count := by
  unfold percentileIndex
  dsimp only
  split <;> omega

private theorem percentileIndex_le (hp : 0 ≤ p) :
    (m.percentileIndex p : ℚ) ≤ p * m.count / 100 := by
  have hrank : (0 : ℚ) ≤ p * m.count / 100 := by positivity
  refine le_trans ?_ (Nat.floor_le hrank)
  unfold percentileIndex
  dsimp only
  split
  · exact_mod_cast (by omega : m.count - 1 ≤ ⌊p * m.count / 100⌋₊)
  · exact le_refl _

/-- The clamp is needed for 100 alone, and there it loses nothing. -/
theorem le_percentileIndex (hp : p ≤ 100) : p * m.count / 100 ≤ m.percentileIndex p + 1 := by
  unfold percentileIndex
  dsimp only
  split
  · have hlast : ((m.count - 1 : Nat) : ℚ) + 1 = m.count := by
      exact_mod_cast (by omega : m.count - 1 + 1 = m.count)
    have hpos : (0 : ℚ) < m.count := by exact_mod_cast hcount
    rw [hlast]
    nlinarith
  · exact (Nat.lt_floor_add_one _).le

private theorem percentileIndex_mono (hpq : p ≤ q) : m.percentileIndex p ≤ m.percentileIndex q := by
  have hrank : p * m.count / 100 ≤ q * m.count / 100 := by gcongr
  have hfloor := Nat.floor_mono hrank
  unfold percentileIndex
  dsimp only
  split <;> split <;> omega

omit hcount in
private theorem percentileIndex_zero : m.percentileIndex 0 = 0 := by
  unfold percentileIndex
  rw [zero_mul, zero_div, Nat.floor_zero]
  dsimp only
  split <;> omega

omit hcount in
private theorem percentileIndex_hundred : m.percentileIndex 100 = m.count - 1 := by
  have hrank : (100 : ℚ) * m.count / 100 = m.count := by ring
  unfold percentileIndex
  rw [hrank, Nat.floor_natCast]
  exact if_pos (Nat.le_refl _)

end

/-! ## Percentiles are quantiles -/

private theorem pairwise_mergeSort_le (l : List UInt64) : l.mergeSort.Pairwise (· ≤ ·) := by
  have hsorted : l.mergeSort.Pairwise fun a b => decide (a ≤ b) = true := by
    apply List.pairwise_mergeSort
    · intro a b c hab hbc
      exact decide_eq_true (UInt64.le_trans (of_decide_eq_true hab) (of_decide_eq_true hbc))
    · intro a b
      rcases UInt64.le_total a b with h | h
      · simp [h]
      · simp [h]
  exact hsorted.imp of_decide_eq_true

/-- The samples selected from `samples` are quantiles of the retained ones, and
`get_percentile_ns` answers with them, in nanoseconds. -/
structure Quantiles (m : PorthMetric) (samples : List UInt64) : Prop where
  rank : ∀ p : ℚ, 0 ≤ p → p ≤ 100 → ∃ v, m.percentileSample samples p = some v ∧
    HasRank m.retained (p * m.retained.length / 100) v ∧
    ∀ cpns, m.getPercentileNs samples p cpns = some (v.toNat / cpns)
  mono : ∀ (p q : ℚ) (v w : UInt64), 0 ≤ p → p ≤ q → q ≤ 100 →
    m.percentileSample samples p = some v → m.percentileSample samples q = some w → v ≤ w
  least : ∃ v ∈ m.retained, m.percentileSample samples 0 = some v ∧
    (∀ cpns, m.getPercentileNs samples 0 cpns = some (v.toNat / cpns)) ∧ ∀ x ∈ m.retained, v ≤ x
  greatest : ∃ v ∈ m.retained, m.percentileSample samples 100 = some v ∧
    (∀ cpns, m.getPercentileNs samples 100 cpns = some (v.toNat / cpns)) ∧
    ∀ x ∈ m.retained, x ≤ v

theorem getPercentileNs_of_sample {samples : List UInt64} {p : ℚ} {v : UInt64}
    (h : m.percentileSample samples p = some v) (cpns : ℚ) :
    m.getPercentileNs samples p cpns = some (v.toNat / cpns) := by
  rw [getPercentileNs, h]
  rfl

theorem Bounded.length_retained (h : Bounded m) : m.retained.length = m.count := by
  rw [retained, List.length_take]
  have := h.count_le
  have := h.size
  omega

private theorem Bounded.quantiles (h : Bounded m) (hcount : 0 < m.count) :
    Quantiles m m.retained.mergeSort := by
  have hretained := h.length_retained
  have hlength : m.retained.mergeSort.length = m.count := by
    rw [List.length_mergeSort, hretained]
  have hsorted := pairwise_mergeSort_le m.retained
  have hperm := List.mergeSort_perm m.retained (fun a b => a ≤ b)
  have hmem : ∀ x, x ∈ m.retained ↔ x ∈ m.retained.mergeSort := fun x => hperm.mem_iff.symm
  have hpos : 0 < m.retained.mergeSort.length := hlength ▸ hcount
  have hlt : ∀ p, m.percentileIndex p < m.retained.mergeSort.length :=
    fun p => hlength ▸ percentileIndex_lt hcount p
  have hselect : ∀ p, m.percentileSample m.retained.mergeSort p =
      some (m.retained.mergeSort.get ⟨m.percentileIndex p, hlt p⟩) :=
    fun p => List.getElem?_eq_getElem (hlt p)
  refine { rank := ?_, mono := ?_, least := ?_, greatest := ?_ }
  · intro p hlo hhi
    rw [hretained]
    refine ⟨_, hselect p, HasRank.perm ?_ hperm, getPercentileNs_of_sample (hselect p)⟩
    exact hasRank_getElem hsorted (hlt p) (percentileIndex_le hcount hlo)
      (le_percentileIndex hcount hhi)
  · intro p q v w _ hpq _ hv hw
    obtain rfl := Option.some.inj ((hselect p).symm.trans hv)
    obtain rfl := Option.some.inj ((hselect q).symm.trans hw)
    exact getElem_le_getElem hsorted (percentileIndex_mono hcount hpq) (hlt q)
  · have hsample : m.percentileSample m.retained.mergeSort 0 = some m.retained.mergeSort[0] := by
      rw [percentileSample, percentileIndex_zero, List.getElem?_eq_getElem hpos]
    refine ⟨m.retained.mergeSort[0], (hmem _).mpr (List.getElem_mem hpos), hsample,
      getPercentileNs_of_sample hsample, ?_⟩
    · intro x hx
      exact getElem_zero_le hsorted hpos x ((hmem x).mp hx)
  · have hlast : m.retained.mergeSort.length - 1 < m.retained.mergeSort.length := by omega
    have hsample : m.percentileSample m.retained.mergeSort 100 =
        some m.retained.mergeSort[m.retained.mergeSort.length - 1] := by
      rw [percentileSample, percentileIndex_hundred, ← hlength, List.getElem?_eq_getElem hlast]
    refine ⟨m.retained.mergeSort[m.retained.mergeSort.length - 1],
      (hmem _).mpr (List.getElem_mem hlast), hsample, getPercentileNs_of_sample hsample, ?_⟩
    · intro x hx
      exact le_getElem_last hsorted hpos x ((hmem x).mp hx)

/-- The conversion to nanoseconds keeps the order of two percentiles. -/
theorem Quantiles.percentileNs {samples : List UInt64} (h : Quantiles m samples) {p cpns : ℚ}
    (hlo : 0 ≤ p) (hhi : p ≤ 100) (hcpns : 0 < cpns) :
    ∃ ns, m.getPercentileNs samples p cpns = some ns ∧
      ∀ q ns', p ≤ q → q ≤ 100 → m.getPercentileNs samples q cpns = some ns' → ns ≤ ns' := by
  obtain ⟨v, hv, -, hns⟩ := h.rank p hlo hhi
  refine ⟨v.toNat / cpns, hns cpns, ?_⟩
  intro q ns' hpq hq hns
  obtain ⟨w, hw, rfl⟩ := Option.map_eq_some_iff.mp hns
  have hle : (v.toNat : ℚ) ≤ w.toNat := by
    exact_mod_cast UInt64.le_iff_toNat_le.mp (h.mono p q v w hlo hpq hq hv hw)
  gcongr

/-- A row of a report: four percentiles of the samples, in order. -/
structure Reports (m : PorthMetric) (samples : List UInt64) (cyclesPerNs : ℚ)
    (row : MarkdownRow) : Prop where
  minNs : m.getPercentileNs samples 0 cyclesPerNs = some row.minNs
  medianNs : m.getPercentileNs samples 50 cyclesPerNs = some row.medianNs
  p999Ns : m.getPercentileNs samples (999 / 10) cyclesPerNs = some row.p999Ns
  maxNs : m.getPercentileNs samples 100 cyclesPerNs = some row.maxNs
  min_le_median : row.minNs ≤ row.medianNs
  median_le_p999 : row.medianNs ≤ row.p999Ns
  p999_le_max : row.p999Ns ≤ row.maxNs

/-- Quantiles make a report. -/
theorem Quantiles.report {samples : List UInt64} (h : Quantiles m samples) (hcount : 0 < m.count)
    (hsorted : m.getSortedSamples = some samples) {cyclesPerNs : ℚ} (hpos : 0 < cyclesPerNs) :
    ∃ row, m.saveMarkdownReport cyclesPerNs = some row ∧ Reports m samples cyclesPerNs row := by
  obtain ⟨minNs, hmin, hmin'⟩ := h.percentileNs (p := 0) (by norm_num) (by norm_num) hpos
  obtain ⟨medianNs, hmedian, hmedian'⟩ := h.percentileNs (p := 50) (by norm_num) (by norm_num) hpos
  obtain ⟨p999Ns, hp999, hp999'⟩ :=
    h.percentileNs (p := 999 / 10) (by norm_num) (by norm_num) hpos
  obtain ⟨maxNs, hmax, -⟩ := h.percentileNs (p := 100) (by norm_num) (by norm_num) hpos
  refine ⟨{ minNs := minNs, medianNs := medianNs, p999Ns := p999Ns, maxNs := maxNs }, ?_, ?_⟩
  · rw [saveMarkdownReport, if_neg hcount.ne', hsorted]
    simp only [Option.bind_eq_bind, Option.bind_some, hmin, hmedian, hp999, hmax]
  · exact
      { minNs := hmin
        medianNs := hmedian
        p999Ns := hp999
        maxNs := hmax
        min_le_median := hmin' _ _ (by norm_num) (by norm_num) hmedian
        median_le_p999 := hmedian' _ _ (by norm_num) (by norm_num) hp999
        p999_le_max := hp999' _ _ (by norm_num) (by norm_num) hmax }

/-- A recorder that has been given something retains something. -/
theorem Retains.count_pos (h : Retains cap l m) (hcap : 1 ≤ cap) (hl : l ≠ []) : 0 < m.count := by
  have hlength := List.length_pos_iff.mpr hl
  rw [h.count]
  omega

/-- **Percentiles are true quantiles.**  After any calls on a recorder of
capacity `cap` that leave a sample, it retains the first `cap` of the values
recorded since the last reset, and every percentile is a sample of that rank
among them, over the cycles of a nanosecond: a selection that grows with the
percentile, from the least sample at 0 to the greatest at 100.  A report then
has its percentiles in order. -/
theorem exists_quantiles (hcap : 1 ≤ cap) {ops : List MetricOp} (hleft : recorded ops ≠ []) :
    ∃ m samples, exec step (make cap) ops = some m ∧ m.getSortedSamples = some samples ∧
      m.retained = (recorded ops).take cap ∧ Quantiles m samples ∧
      ∀ cyclesPerNs, 0 < cyclesPerNs →
        ∃ row, m.saveMarkdownReport cyclesPerNs = some row ∧
          Reports m samples cyclesPerNs row := by
  obtain ⟨m, hexec, h⟩ := (Retains.make cap).run ops
  have hsorted := h.bounded.getSortedSamples
  have hcount := h.count_pos hcap hleft
  have hquantiles := h.bounded.quantiles hcount
  exact ⟨m, _, hexec, hsorted, h.front, hquantiles,
    fun _ hpos => hquantiles.report hcount hsorted hpos⟩

/-- Three values in a recorder of two, reported at 2 cycles per nanosecond. -/
theorem exists_quantiles_saturated :
    ∃ m samples, exec step (make 2) [.record 9, .reset, .record 30, .record 10, .record 20] =
        some m ∧ m.getSortedSamples = some samples ∧ m.retained = [30, 10] ∧
      Quantiles m samples ∧
      ∃ row, m.saveMarkdownReport 2 = some row ∧ Reports m samples 2 row := by
  obtain ⟨m, samples, hexec, hsorted, hretained, hquantiles, hreport⟩ :=
    @exists_quantiles 2 (by decide)
      [.record 9, .reset, .record 30, .record 10, .record 20] (by decide)
  exact ⟨m, samples, hexec, hsorted, hretained, hquantiles, hreport 2 (by norm_num)⟩

end PorthMetric

end PorthCore.Ports.Metric
