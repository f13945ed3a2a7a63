import PorthCore.Ports.ProtocolDelay
import PorthCore.Ports.Thermal

/-!
# Thermal inertia over a sequence of targets

`update_thermal_load` moves the temperature 25 up or 15 down, however near the
target is, and nothing stops it at the target or at the ends of `uint32_t`.
Two questions about the sequences of targets a fresh PHY can be given:

* which of them wrap: those with a call that finds the temperature within 25
  of 2^32 and below its target, or below 15 and above its target
  (`neverWraps_iff`);
* which targets are met: the temperature is a multiple of 5 for as long as
  nothing wraps, so it settles at the multiples of 5 and swings around every
  other target (`settles_iff`).
-/

namespace PorthCore.Ports.ThermalInertia

open PorthCore.Verified.Pursuit
open PorthCore.Ports.SimDevice
open PorthCore.Ports.ProtocolDelay
open PorthCore.Ports.Thermal

/-- One call of `update_thermal_load`: what it finds, what it is given and
what it stores. -/
structure Load where
  previous : UInt32
  target : UInt32
  stored : UInt32
  deriving DecidableEq, Repr

/-- The call a target makes of a PHY. -/
def loadOf (phy : PorthSimPHY) (t : UInt32) : Load :=
  { previous := phy.currentTempMc
    target := t
    stored := (phy.updateThermalLoad t).currentTempMc }

/-- The calls a list of targets makes of a PHY. -/
def loads : PorthSimPHY → List UInt32 → List Load
  | _, [] => []
  | phy, t :: ts => loadOf phy t :: loads (phy.updateThermalLoad t) ts

namespace Load

/-- The stored temperature is the exact result of a step. -/
def Exact (load : Load) : Prop :=
  (load.stored.toNat : Int) = load.previous.toNat + 25 ∨
    (load.stored.toNat : Int) = load.previous.toNat - 15 ∨
    (load.stored.toNat : Int) = load.previous.toNat

/-- The step has room: a rise ends below 2^32 and a fall at 0 or above. -/
structure InRoom (load : Load) : Prop where
  heat : load.previous < load.target → load.previous.toNat + 25 < 2 ^ 32
  cool : load.target < load.previous → 15 ≤ load.previous.toNat

end Load

/-- The PHY as it is constructed. -/
def freshPhy : PorthSimPHY := { currentTempMc := 25000 }

/-- The lowest of the first temperature and the targets. -/
def lowest (targets : List UInt32) : Nat := targets.foldr (fun t lo => min t.toNat lo) 25000

/-- The highest of them. -/
def highest (targets : List UInt32) : Nat := targets.foldr (fun t hi => max t.toNat hi) 25000

/-- The accumulator does not wrap under `targets`. -/
structure NeverWraps (targets : List UInt32) : Prop where
  exact : ∀ load ∈ loads freshPhy targets, load.Exact
  range : ∀ load ∈ loads freshPhy targets,
    (lowest targets : Int) - 15 ≤ load.stored.toNat ∧
      (load.stored.toNat : Int) ≤ highest targets + 25
  fits : ∀ load ∈ loads freshPhy targets,
    0 ≤ (load.stored.toNat : Int) ∧ (load.stored.toNat : Int) < 2 ^ 32

/-! ## One call -/

section

variable {phy : PorthSimPHY} {t : UInt32}

/-- What is stored, in numbers. -/
theorem stored_cases (phy : PorthSimPHY) (t : UInt32) :
    (phy.currentTempMc.toNat < t.toNat ∧
        (loadOf phy t).stored.toNat = (phy.currentTempMc.toNat + 25) % 2 ^ 32) ∨
      (t.toNat < phy.currentTempMc.toNat ∧
        (loadOf phy t).stored.toNat = (2 ^ 32 - 15 + phy.currentTempMc.toNat) % 2 ^ 32) ∨
      (phy.currentTempMc.toNat = t.toNat ∧ (loadOf phy t).stored.toNat = t.toNat) := by
  rcases updateThermalLoad_cases phy t with ⟨hlt, hnext⟩ | ⟨hgt, hnext⟩ | ⟨heq, hnext⟩
  · left
    refine ⟨UInt32.lt_iff_toNat_lt.mp hlt, ?_⟩
    rw [loadOf, hnext, UInt32.toNat_add]
    rfl
  · right
    left
    refine ⟨UInt32.lt_iff_toNat_lt.mp hgt, ?_⟩
    rw [loadOf, hnext, UInt32.toNat_sub]
    rfl
  · right
    right
    exact ⟨congrArg UInt32.toNat heq, congrArg UInt32.toNat hnext⟩

theorem inRoom_iff : (loadOf phy t).InRoom ↔
    (phy.currentTempMc.toNat < t.toNat → phy.currentTempMc.toNat + 25 < 2 ^ 32) ∧
      (t.toNat < phy.currentTempMc.toNat → 15 ≤ phy.currentTempMc.toNat) := by
  rw [← UInt32.lt_iff_toNat_lt, ← UInt32.lt_iff_toNat_lt]
  constructor
  · intro h
    exact ⟨h.heat, h.cool⟩
  · intro h
    exact ⟨h.1, h.2⟩

/-- A step that wraps lands on none of the three exact results. -/
theorem exact_iff_inRoom : (loadOf phy t).Exact ↔ (loadOf phy t).InRoom := by
  have hlt := phy.currentTempMc.toNat_lt
  have hstored := stored_cases phy t
  rw [inRoom_iff]
  unfold Load.Exact
  show ((loadOf phy t).stored.toNat : Int) = phy.currentTempMc.toNat + 25 ∨
    ((loadOf phy t).stored.toNat : Int) = phy.currentTempMc.toNat - 15 ∨
    ((loadOf phy t).stored.toNat : Int) = phy.currentTempMc.toNat ↔ _
  omega

theorem stored_eq_pursue (h : (loadOf phy t).InRoom) :
    ((phy.updateThermalLoad t).currentTempMc.toNat : Int) =
      pursue 25 15 t.toNat phy.currentTempMc.toNat :=
  updateThermalLoad_toNat h.heat h.cool

/-- A step that has room stays within a step of the range of its target. -/
theorem range_step (lo hi : Int) (h : (loadOf phy t).InRoom) (hlo : lo ≤ t.toNat)
    (hhi : (t.toNat : Int) ≤ hi) (hge : lo - (15 : Nat) < phy.currentTempMc.toNat)
    (hle : phy.currentTempMc.toNat < hi + (25 : Nat)) :
    lo - (15 : Nat) < (phy.updateThermalLoad t).currentTempMc.toNat ∧
      (phy.updateThermalLoad t).currentTempMc.toNat < hi + (25 : Nat) := by
  rw [stored_eq_pursue h]
  exact ⟨lt_pursue hlo hge, pursue_lt hhi hle⟩

end

/-! ## A sequence of calls -/

/-- Calls that have room keep the temperature within a step of the range of
their targets. -/
theorem loads_range (lo hi : Int) {targets : List UInt32} {phy : PorthSimPHY}
    (htargets : ∀ t ∈ targets, lo ≤ t.toNat ∧ (t.toNat : Int) ≤ hi)
    (hroom : ∀ load ∈ loads phy targets, load.InRoom)
    (hlo : lo - (15 : Nat) < phy.currentTempMc.toNat)
    (hhi : phy.currentTempMc.toNat < hi + (25 : Nat)) :
    ∀ load ∈ loads phy targets,
      lo - (15 : Nat) < load.stored.toNat ∧ load.stored.toNat < hi + (25 : Nat) := by
  induction targets generalizing phy with
  | nil => exact List.forall_mem_nil _
  | cons t ts ih =>
      have ht := htargets t List.mem_cons_self
      have hnow := hroom (loadOf phy t) List.mem_cons_self
      obtain ⟨hlo', hhi'⟩ := range_step lo hi hnow ht.1 ht.2 hlo hhi
      intro load hmem
      rcases List.mem_cons.mp hmem with rfl | htail
      · exact ⟨hlo', hhi'⟩
      · exact ih (fun s hs => htargets s (List.mem_cons_of_mem t hs))
          (fun l hl => hroom l (List.mem_cons_of_mem _ hl)) hlo' hhi' load htail

/-- Every call is the call some PHY gets of some target. -/
theorem exists_loadOf {targets : List UInt32} {phy : PorthSimPHY} {load : Load}
    (h : load ∈ loads phy targets) : ∃ p t, load = loadOf p t := by
  induction targets generalizing phy with
  | nil => exact absurd h List.not_mem_nil
  | cons t ts ih =>
      rcases List.mem_cons.mp h with rfl | htail
      · exact ⟨phy, t, rfl⟩
      · exact ih htail

private theorem lowest_le (targets : List UInt32) :
    lowest targets ≤ 25000 ∧ ∀ t ∈ targets, lowest targets ≤ t.toNat := by
  unfold lowest
  induction targets with
  | nil => exact ⟨Nat.le_refl _, List.forall_mem_nil _⟩
  | cons s ts ih =>
      rw [List.foldr_cons, List.forall_mem_cons]
      refine ⟨by omega, by omega, fun t ht => ?_⟩
      have := ih.2 t ht
      omega

private theorem le_highest (targets : List UInt32) :
    25000 ≤ highest targets ∧ ∀ t ∈ targets, t.toNat ≤ highest targets := by
  unfold highest
  induction targets with
  | nil => exact ⟨Nat.le_refl _, List.forall_mem_nil _⟩
  | cons s ts ih =>
      rw [List.foldr_cons, List.forall_mem_cons]
      refine ⟨by omega, by omega, fun t ht => ?_⟩
      have := ih.2 t ht
      omega

theorem neverWraps_of_inRoom {targets : List UInt32}
    (hroom : ∀ load ∈ loads freshPhy targets, load.InRoom) : NeverWraps targets := by
  obtain ⟨hlow, hlowest⟩ := lowest_le targets
  obtain ⟨hhigh, hhighest⟩ := le_highest targets
  have htemp : freshPhy.currentTempMc.toNat = 25000 := rfl
  have hrange := loads_range (lowest targets) (highest targets)
    (fun t ht => ⟨by exact_mod_cast hlowest t ht, by exact_mod_cast hhighest t ht⟩) hroom
    (by omega) (by omega)
  exact
    { exact := by
        intro load hmem
        obtain ⟨phy, t, rfl⟩ := exists_loadOf hmem
        exact exact_iff_inRoom.mpr (hroom _ hmem)
      range := by
        intro load hmem
        have := hrange load hmem
        omega
      fits := by
        intro load hmem
        have := load.stored.toNat_lt
        omega }

/-- **When the accumulator wraps.**  Every stored temperature is exact, and
with that in range, if and only if every call has room for its step. -/
theorem neverWraps_iff (targets : List UInt32) :
    NeverWraps targets ↔ ∀ load ∈ loads freshPhy targets, load.InRoom := by
  constructor
  · intro h load hmem
    obtain ⟨phy, t, rfl⟩ := exists_loadOf hmem
    exact exact_iff_inRoom.mp (h.exact _ hmem)
  · exact neverWraps_of_inRoom

/-- The wrap below: a PHY that stands at 10 modulo 15 and is cooled towards 0
passes 0. -/
theorem cooled_past_zero {phy : PorthSimPHY} {n : Nat}
    (h : phy.currentTempMc.toNat = 10 + 15 * n) :
    { previous := 10, target := 0, stored := 4294967291 } ∈
      loads phy (List.replicate (n + 1) 0) := by
  induction n generalizing phy with
  | zero =>
      obtain ⟨temp⟩ := phy
      obtain rfl : temp = 10 := UInt32.toNat_inj.mp h
      decide
  | succ n ih =>
      have hcooled : (phy.updateThermalLoad 0).currentTempMc.toNat = 10 + 15 * n := by
        have hzero : (0 : UInt32).toNat = 0 := rfl
        have hstored := stored_cases phy 0
        have hlt := phy.currentTempMc.toNat_lt
        show (loadOf phy 0).stored.toNat = _
        omega
      rw [List.replicate_succ]
      exact List.mem_cons_of_mem _ (ih hcooled)

/-- 1667 loads of 0 on a fresh PHY: the last one finds 10 and stores
2^32 - 5. -/
theorem cooling_wraps : ¬NeverWraps (List.replicate 1667 0) := by
  intro h
  have hmem : ({ previous := 10, target := 0, stored := 4294967291 } : Load) ∈
      loads freshPhy (List.replicate 1667 0) := cooled_past_zero (n := 1666) rfl
  have hexact := h.exact _ hmem
  revert hexact
  unfold Load.Exact
  decide

/-! ## Temperatures that are multiples of 5

The first temperature is one, and so are both steps. -/

/-- The temperatures a fresh PHY can have while its targets stay in
`[lo, hi]`. -/
structure OnLattice (lo hi : Nat) (phy : PorthSimPHY) : Prop where
  dvd : 5 ∣ phy.currentTempMc.toNat
  ge : lo < phy.currentTempMc.toNat + 15
  le : phy.currentTempMc.toNat < hi + 25

theorem OnLattice.fresh {lo hi : Nat} (hlo : lo ≤ 25000) (hhi : 25000 ≤ hi) :
    OnLattice lo hi freshPhy := by
  have htemp : freshPhy.currentTempMc.toNat = 25000 := rfl
  exact
    { dvd := by omega
      ge := by omega
      le := by omega }

section

variable {lo hi : Nat} {phy : PorthSimPHY} {t : UInt32}
  (hlo : 10 ≤ lo) (hhi : hi ≤ 2 ^ 32 - 21) (ht : lo ≤ t.toNat ∧ t.toNat ≤ hi)
include hlo hhi ht

/-- A multiple of 5 above 10 is at least 15, and one below 2^32 - 21 is below
2^32 - 25. -/
theorem OnLattice.inRoom (h : OnLattice lo hi phy) : (loadOf phy t).InRoom := by
  have hdvd := h.dvd
  rw [inRoom_iff]
  omega

theorem OnLattice.load (h : OnLattice lo hi phy) : OnLattice lo hi (phy.updateThermalLoad t) := by
  have hroom := h.inRoom hlo hhi ht
  have hdvd : (5 : Int) ∣ pursue 25 15 t.toNat phy.currentTempMc.toNat - 0 :=
    dvd_pursue_sub (by decide) (by decide) (by have := h.dvd; omega)
  rw [← stored_eq_pursue hroom] at hdvd
  obtain ⟨hge, hle⟩ := range_step lo hi hroom (by omega) (by omega)
    (by have := h.ge; omega) (by have := h.le; omega)
  exact
    { dvd := by omega
      ge := by omega
      le := by omega }

end

/-- Targets in `[10, 2^32 - 21]` never wrap. -/
theorem neverWraps_of_range {targets : List UInt32}
    (h : ∀ t ∈ targets, 10 ≤ t.toNat ∧ t.toNat ≤ 2 ^ 32 - 21) : NeverWraps targets := by
  have hrun : ∀ phy : PorthSimPHY, OnLattice 10 (2 ^ 32 - 21) phy →
      ∀ load ∈ loads phy targets, load.InRoom := by
    induction targets with
    | nil => exact fun phy _ => List.forall_mem_nil _
    | cons t ts ih =>
        intro phy hphy load hmem
        have ht := h t List.mem_cons_self
        rcases List.mem_cons.mp hmem with rfl | htail
        · exact hphy.inRoom (Nat.le_refl _) (Nat.le_refl _) ht
        · exact ih (fun s hs => h s (List.mem_cons_of_mem t hs)) _
            (hphy.load (Nat.le_refl _) (Nat.le_refl _) ht) load htail
  exact neverWraps_of_inRoom (hrun freshPhy (.fresh (by decide) (by decide)))

/-! ## Settling at a target -/

/-- `update_thermal_load` on a PHY with its delay configuration. -/
def withLoad (phy : PhyDelay) (t : UInt32) : PhyDelay :=
  { phy with toPorthSimPHY := phy.toPorthSimPHY.updateThermalLoad t }

/-- The targets in question, 1 to 1000 degrees. -/
def InRange (t : UInt32) : Prop := 1000 ≤ t.toNat ∧ t.toNat ≤ 1000000

instance (t : UInt32) : Decidable (InRange t) :=
  inferInstanceAs (Decidable (1000 ≤ t.toNat ∧ t.toNat ≤ 1000000))

/-- Repeated loads of `t` bring the temperature to `t` for good, and with it
the thermal jitter to that of `t`. -/
def Settles (phy : PhyDelay) (t : UInt32) : Prop :=
  ∃ n, ∀ m, n ≤ m →
    ((fun p => withLoad p t)^[m] phy).currentTempMc = t ∧
      ((fun p => withLoad p t)^[m] phy).calculateThermalJitter.toNat =
        if 40000 < t.toNat then (t.toNat - 40000) / 1000 else 0

/-- The loads of a list of targets in range leave a PHY on the lattice. -/
theorem onLattice_foldl {targets : List UInt32} {phy : PhyDelay}
    (h : OnLattice 1000 1000000 phy.toPorthSimPHY) (htargets : ∀ t ∈ targets, InRange t) :
    OnLattice 1000 1000000 (targets.foldl withLoad phy).toPorthSimPHY := by
  induction targets generalizing phy with
  | nil => exact h
  | cons t ts ih =>
      obtain ⟨ht, hts⟩ := List.forall_mem_cons.mp htargets
      rw [List.foldl_cons]
      exact ih (h.load (by decide) (by decide) ht) hts

section

variable {phy : PhyDelay} {t : UInt32} (h : OnLattice 1000 1000000 phy.toPorthSimPHY)
  (ht : InRange t)
include h ht

theorem onLattice_iterate (n : Nat) :
    OnLattice 1000 1000000 ((fun p => withLoad p t)^[n] phy).toPorthSimPHY := by
  induction n with
  | zero => exact h
  | succ n ih =>
      rw [Function.iterate_succ_apply']
      exact ih.load (by decide) (by decide) ht

private theorem iterate_eq_pursue (n : Nat) :
    (((fun p => withLoad p t)^[n] phy).currentTempMc.toNat : Int) =
      (pursue 25 15 t.toNat)^[n] phy.currentTempMc.toNat := by
  induction n with
  | zero => rfl
  | succ n ih =>
      rw [Function.iterate_succ_apply', Function.iterate_succ_apply', ← ih]
      exact stored_eq_pursue ((onLattice_iterate h ht n).inRoom (by decide) (by decide) ht)

/-- A target that is a multiple of 5 is met: 66667 calls bring the
temperature within a step of it from anywhere in the range, 40 more onto it. -/
theorem settles_of_dvd (hdvd : 5 ∣ t.toNat) : Settles phy t := by
  refine ⟨66667 + 40, fun m hm => ?_⟩
  have htemp : ((fun p => withLoad p t)^[m] phy).currentTempMc = t := by
    have hlattice := h.dvd
    have hge := h.ge
    have hle := h.le
    have hlow := ht.1
    have hhigh := ht.2
    have hmeet : (pursue 25 15 t.toNat)^[m] phy.currentTempMc.toNat = t.toNat := by
      apply pursue_settles (n := 66667) (by decide) (by decide)
      · push_cast
        omega
      · push_cast
        omega
      · show (5 : Int) ∣ _
        omega
      · exact hm
    apply UInt32.toNat_inj.mp
    have := iterate_eq_pursue h ht m
    omega
  refine ⟨htemp, ?_⟩
  rw [toNat_calculateThermalJitter, htemp]
  unfold thermalNs
  split <;> omega

theorem dvd_of_settles (hsettles : Settles phy t) : 5 ∣ t.toNat := by
  obtain ⟨n, hn⟩ := hsettles
  have htemp := (hn n (Nat.le_refl n)).1
  rw [← htemp]
  exact (onLattice_iterate h ht n).dvd

end

theorem onLattice_make (base jitter : UInt64) :
    OnLattice 1000 1000000 (PhyDelay.make base jitter).toPorthSimPHY :=
  OnLattice.fresh (by decide) (by decide)

/-- **Which targets are met.**  From every temperature that targets in range
lead to, the PHY settles at a target in range if and only if it is a multiple
of 5. -/
theorem settles_iff (base jitter : UInt64) {targets : List UInt32}
    (htargets : ∀ s ∈ targets, InRange s) {t : UInt32} (ht : InRange t) :
    Settles (targets.foldl withLoad (.make base jitter)) t ↔ 5 ∣ t.toNat := by
  have hlattice := onLattice_foldl (onLattice_make base jitter) htargets
  constructor
  · exact dvd_of_settles hlattice ht
  · exact settles_of_dvd hlattice ht

/-- The default PHY, after a load of 80 degrees, set to 45. -/
theorem settles_at_45_degrees : Settles (List.foldl withLoad (.make 100 25) [80000]) 45000 :=
  (settles_iff 100 25 (List.forall_mem_singleton.mpr (by decide)) (by decide)).mpr (by decide)

/-- 41001 is never met: the temperatures around it are multiples of 5. -/
theorem never_settles_at_41001 : ¬Settles (.make 100 25) 41001 := by
  intro h
  have hdvd := dvd_of_settles (onLattice_make 100 25) (by decide) h
  revert hdvd
  decide

end PorthCore.Ports.ThermalInertia
