import PorthCore.Ports.SimDevice

/-!
# The propagation delay of `PorthSimPHY`

`apply_protocol_delay` adds a base delay, a fixed FEC latency, a random draw,
a thermal term and an FEC penalty in `uint64_t`.  The draw is signed and is
cast before it is added, so the sum is right modulo 2^64 only.  `Fits` is the
set of configurations for which it is right as it stands
(`exact_delay_iff_fits`).

The random engines are left out: the draw and the FEC outcome are arguments,
and a result about the delay holds for all of them.  So is the spin loop, which
waits for the sum and changes nothing.
-/

namespace PorthCore.Ports.ProtocolDelay

open PorthCore.Ports.SimDevice

/-- The bounds of a `std::uniform_int_distribution<int64_t>`. -/
structure JitterDist where
  lower : Int64
  upper : Int64
  deriving DecidableEq, Repr

/-- `m_jitter_dist` for a jitter of `jitter`; the negation wraps where the
source overflows. -/
def JitterDist.ofJitter (jitter : UInt64) : JitterDist :=
  { lower := -jitter.toInt64, upper := jitter.toInt64 }

/-- The part of `PorthSimPHY` that sets the delay, beside its temperature. -/
structure PhyDelay extends PorthSimPHY where
  baseDelayNs : UInt64
  jitterNs : UInt64
  jitterDist : JitterDist
  deriving DecidableEq, Repr

namespace PhyDelay

/-- `m_fec_penalty_ns`, which nothing changes. -/
def fecPenaltyNs : UInt64 := 5

/-- The constructor of `PorthSimPHY`. -/
def make (baseNs jitterInit : UInt64) : PhyDelay :=
  { currentTempMc := 25000
    baseDelayNs := baseNs
    jitterNs := jitterInit
    jitterDist := .ofJitter jitterInit }

/-- `set_config`. -/
def setConfig (phy : PhyDelay) (base jitter : UInt64) : PhyDelay :=
  { phy with
    baseDelayNs := base
    jitterNs := jitter
    jitterDist := .ofJitter jitter }

/-- `calculate_thermal_jitter`. -/
def calculateThermalJitter (phy : PhyDelay) : UInt64 :=
  let temp := phy.currentTempMc
  if 40000 < temp then ((temp - 40000) / 1000).toUInt64 else 0

/-- `get_fec_penalty`, for either outcome of its draw. -/
def getFecPenalty (retry : Bool) : UInt64 := if retry then 500 else 0

/-- The value of `total_delay_ns` in `apply_protocol_delay`.  `draw` is what
the distribution yields; it is asked only for a jitter above 0. -/
def totalDelayNs (phy : PhyDelay) (draw : Int64) (retry : Bool) : UInt64 :=
  let randomJitter := if 0 < phy.jitterNs then draw else 0
  phy.baseDelayNs + fecPenaltyNs + randomJitter.toUInt64 + phy.calculateThermalJitter +
    getFecPenalty retry

end PhyDelay

/-! ## The sum in numbers -/

/-- Thermal jitter as a number of nanoseconds. -/
def thermalNs (temp : UInt32) : Nat := (temp.toNat - 40000) / 1000

/-- The penalty of a FEC retry. -/
def fecNs (retry : Bool) : Nat := if retry then 500 else 0

private theorem thermalNs_le (temp : UInt32) : thermalNs temp ≤ 4294927 := by
  have hlt := temp.toNat_lt
  unfold thermalNs
  omega

theorem fecNs_le (retry : Bool) : fecNs retry ≤ 500 := by
  cases retry <;> decide

theorem toNat_calculateThermalJitter (phy : PhyDelay) :
    phy.calculateThermalJitter.toNat = thermalNs phy.currentTempMc := by
  unfold PhyDelay.calculateThermalJitter thermalNs
  by_cases hhot : 40000 < phy.currentTempMc
  · have hle : 40000 ≤ phy.currentTempMc := UInt32.le_of_lt hhot
    simp only [hhot, if_true, UInt32.toNat_toUInt64, UInt32.toNat_div]
    rw [UInt32.toNat_sub_of_le _ _ hle]
    rfl
  · have hle : phy.currentTempMc.toNat ≤ 40000 :=
      UInt32.le_iff_toNat_le.mp (UInt32.not_lt.mp hhot)
    simp only [hhot, if_false]
    rw [Nat.sub_eq_zero_of_le hle]
    rfl

private theorem toNat_getFecPenalty (retry : Bool) :
    (PhyDelay.getFecPenalty retry).toNat = fecNs retry := by
  cases retry <;> rfl

/-- The cast of a negative draw adds 2^64. -/
theorem toNat_toUInt64 (draw : Int64) : (draw.toUInt64.toNat : Int) = draw.toInt % 2 ^ 64 := by
  have hlt := draw.toUInt64.toNat_lt
  have hcond := BitVec.toInt_eq_toNat_cond draw.toBitVec
  rw [Int64.toInt, hcond, Int64.toNat_toBitVec]
  split <;> omega

/-- The upper bound is the jitter below 2^63 and negative from there on. -/
theorem toInt_toInt64 (jitter : UInt64) :
    jitter.toInt64.toInt =
      if jitter.toNat < 2 ^ 63 then (jitter.toNat : Int) else jitter.toNat - 2 ^ 64 := by
  have hcond := BitVec.toInt_eq_toNat_cond jitter.toInt64.toBitVec
  rw [Int64.toInt, hcond, UInt64.toBitVec_toInt64, UInt64.toNat_toBitVec]
  split <;> split <;> omega

/-- The sum is right modulo 2^64. -/
theorem totalDelayNs_mod (phy : PhyDelay) {draw : Int64} (retry : Bool)
    (hdraw : phy.jitterNs = 0 → draw = 0) :
    ((phy.totalDelayNs draw retry).toNat : Int) =
      (phy.baseDelayNs.toNat + 5 + draw.toInt + thermalNs phy.currentTempMc + fecNs retry) %
        2 ^ 64 := by
  have hrandom : (if 0 < phy.jitterNs then draw else 0) = draw := by
    by_cases hpos : 0 < phy.jitterNs
    · rw [if_pos hpos]
    · rw [if_neg hpos, hdraw]
      exact UInt64.le_zero_iff.mp (UInt64.not_lt.mp hpos)
  unfold PhyDelay.totalDelayNs
  simp only [hrandom, UInt64.toNat_add, toNat_calculateThermalJitter, toNat_getFecPenalty]
  have hcast := toNat_toUInt64 draw
  have hfive : PhyDelay.fecPenaltyNs.toNat = 5 := rfl
  push_cast
  rw [hcast, hfive]
  omega

/-! ## When the sum is exact -/

/-- The distribution is well formed, its lower bound is computed without
overflow, and the delay is the sum it stands for. -/
structure ExactDelay (phy : PhyDelay) : Prop where
  ordered : phy.jitterDist.lower ≤ phy.jitterDist.upper
  noOverflow : phy.jitterDist.lower.toInt = -phy.jitterDist.upper.toInt
  exact : ∀ (draw : Int64) (temp : UInt32) (retry : Bool),
    phy.jitterDist.lower ≤ draw → draw ≤ phy.jitterDist.upper →
      ((PhyDelay.totalDelayNs { phy with currentTempMc := temp } draw retry).toNat : Int) =
        phy.baseDelayNs.toNat + 5 + draw.toInt + thermalNs temp + fecNs retry

/-- The jitter is a positive `int64_t`, the smallest draw leaves the sum
non-negative, and the largest leaves it below 2^64 in the hottest laser. -/
structure Fits (base jitter : UInt64) : Prop where
  signed : jitter.toNat < 2 ^ 63
  covered : jitter.toNat ≤ base.toNat + 5
  room : base.toNat + 5 + jitter.toNat + 4294927 + 500 < 2 ^ 64

theorem ofJitter_noOverflow_iff (jitter : UInt64) :
    (JitterDist.ofJitter jitter).lower.toInt = -(JitterDist.ofJitter jitter).upper.toInt ↔
      jitter.toNat ≠ 2 ^ 63 := by
  have hlt := jitter.toNat_lt
  unfold JitterDist.ofJitter
  rw [Int64.toInt_neg, toInt_toInt64, Int.bmod_def]
  split <;> split <;> omega

theorem ofJitter_lower {jitter : UInt64} (h : jitter.toNat < 2 ^ 63) :
    (JitterDist.ofJitter jitter).lower.toInt = -(jitter.toNat : Int) := by
  have hno := (ofJitter_noOverflow_iff jitter).mpr (by omega)
  rw [hno]
  unfold JitterDist.ofJitter
  rw [toInt_toInt64, if_pos h]

theorem ofJitter_upper {jitter : UInt64} (h : jitter.toNat < 2 ^ 63) :
    (JitterDist.ofJitter jitter).upper.toInt = jitter.toNat := by
  unfold JitterDist.ofJitter
  rw [toInt_toInt64, if_pos h]

/-- Both conditions on the bounds come down to the sign of the cast. -/
theorem ofJitter_sound_iff (jitter : UInt64) :
    (JitterDist.ofJitter jitter).lower ≤ (JitterDist.ofJitter jitter).upper ∧
        (JitterDist.ofJitter jitter).lower.toInt = -(JitterDist.ofJitter jitter).upper.toInt ↔
      jitter.toNat < 2 ^ 63 := by
  have hlt := jitter.toNat_lt
  constructor
  · rintro ⟨hle, hno⟩
    have hbound := Int64.le_iff_toInt_le.mp hle
    have hupper : (JitterDist.ofJitter jitter).upper.toInt = _ := toInt_toInt64 jitter
    have hne := (ofJitter_noOverflow_iff jitter).mp hno
    by_contra hbig
    rw [if_neg hbig] at hupper
    omega
  · intro h
    refine ⟨Int64.le_iff_toInt_le.mpr ?_, (ofJitter_noOverflow_iff jitter).mpr (by omega)⟩
    rw [ofJitter_lower h, ofJitter_upper h]
    omega

/-- A number is its own remainder exactly if it is a word. -/
theorem emod_eq_self_iff (m : Int) : m % 2 ^ 64 = m ↔ 0 ≤ m ∧ m < 2 ^ 64 := by omega

section

variable {phy : PhyDelay} (hdist : phy.jitterDist = .ofJitter phy.jitterNs)
  (hsigned : phy.jitterNs.toNat < 2 ^ 63)
include hdist hsigned

theorem draw_mem_iff (draw : Int64) :
    phy.jitterDist.lower ≤ draw ∧ draw ≤ phy.jitterDist.upper ↔
      -(phy.jitterNs.toNat : Int) ≤ draw.toInt ∧ draw.toInt ≤ phy.jitterNs.toNat := by
  rw [hdist, Int64.le_iff_toInt_le, Int64.le_iff_toInt_le, ofJitter_lower hsigned,
    ofJitter_upper hsigned]

/-- One draw, one temperature, one FEC outcome. -/
theorem totalDelayNs_exact_iff {draw : Int64} (temp : UInt32) (retry : Bool)
    (hlo : phy.jitterDist.lower ≤ draw) (hhi : draw ≤ phy.jitterDist.upper) :
    ((PhyDelay.totalDelayNs { phy with currentTempMc := temp } draw retry).toNat : Int) =
        phy.baseDelayNs.toNat + 5 + draw.toInt + thermalNs temp + fecNs retry ↔
      0 ≤ (phy.baseDelayNs.toNat + 5 + draw.toInt + thermalNs temp + fecNs retry : Int) ∧
        (phy.baseDelayNs.toNat + 5 + draw.toInt + thermalNs temp + fecNs retry : Int) <
          2 ^ 64 := by
  have hmem := (draw_mem_iff hdist hsigned draw).mp ⟨hlo, hhi⟩
  have hzero : phy.jitterNs = 0 → draw = 0 := by
    intro hj
    rw [hj] at hmem
    apply Int64.toInt_inj.mp
    show draw.toInt = 0
    have hj' : ((0 : UInt64).toNat : Int) = 0 := rfl
    omega
  rw [totalDelayNs_mod { phy with currentTempMc := temp } retry hzero]
  exact emod_eq_self_iff _

end

/-- Whatever distribution belongs to the jitter, the delay is exact for all its
draws if and only if it is for the two outermost ones. -/
theorem exactDelay_iff (phy : PhyDelay) (hdist : phy.jitterDist = .ofJitter phy.jitterNs) :
    ExactDelay phy ↔ Fits phy.baseDelayNs phy.jitterNs := by
  constructor
  · intro h
    have hsigned : phy.jitterNs.toNat < 2 ^ 63 :=
      (ofJitter_sound_iff phy.jitterNs).mp ⟨hdist ▸ h.ordered, hdist ▸ h.noOverflow⟩
    have hlower : phy.jitterDist.lower.toInt = _ := hdist ▸ ofJitter_lower hsigned
    have hupper : phy.jitterDist.upper.toInt = _ := hdist ▸ ofJitter_upper hsigned
    -- The smallest draw in a cool laser, the largest in the hottest one.
    have hmin := (totalDelayNs_exact_iff hdist hsigned 0 false Int64.le_rfl h.ordered).mp
      (h.exact _ 0 false Int64.le_rfl h.ordered)
    have hmax := (totalDelayNs_exact_iff hdist hsigned 4294967295 true h.ordered Int64.le_rfl).mp
      (h.exact _ 4294967295 true h.ordered Int64.le_rfl)
    have hcool : thermalNs 0 = 0 := rfl
    have hhot : thermalNs 4294967295 = 4294927 := rfl
    simp only [hlower, hupper, hcool, hhot, fecNs, if_true, Bool.false_eq_true, if_false]
      at hmin hmax
    exact ⟨hsigned, by omega, by omega⟩
  · intro h
    obtain ⟨hle, hno⟩ := (ofJitter_sound_iff phy.jitterNs).mpr h.signed
    refine ⟨hdist ▸ hle, hdist ▸ hno, ?_⟩
    intro draw temp retry hlo hhi
    have hmem := (draw_mem_iff hdist h.signed draw).mp ⟨hlo, hhi⟩
    have hthermal := thermalNs_le temp
    have hfec := fecNs_le retry
    have hcovered := h.covered
    have hroom := h.room
    apply (totalDelayNs_exact_iff hdist h.signed temp retry hlo hhi).mpr
    omega

/-- **When the propagation delay is exact.**  A PHY built or configured with
`base` and `jitter` has a well-formed jitter distribution and computes the
exact delay for every draw, temperature and FEC outcome if and only if
`jitter` is below 2^63 and at most `base + 5`, and the largest sum stays below
2^64. -/
theorem exact_delay_iff_fits (base jitter : UInt64) :
    (ExactDelay (.make base jitter) ↔ Fits base jitter) ∧
      ∀ old : PhyDelay, ExactDelay (old.setConfig base jitter) ↔ Fits base jitter :=
  ⟨exactDelay_iff (.make base jitter) rfl,
    fun old => exactDelay_iff (old.setConfig base jitter) rfl⟩

/-- A chip launched with a delay of 0 and a jitter of 25: the draw -25 makes
the delay 2^64 - 20. -/
theorem negative_delay_wraps :
    (PhyDelay.totalDelayNs ((PhyDelay.make 100 25).setConfig 0 25) (-25) false).toNat =
        2 ^ 64 - 20 ∧
      ¬ExactDelay ((PhyDelay.make 100 25).setConfig 0 25) := by
  refine ⟨by decide, ?_⟩
  intro h
  have hdelay := h.exact (-25) 25000 false (by decide) (by decide)
  revert hdelay
  decide

end PorthCore.Ports.ProtocolDelay
