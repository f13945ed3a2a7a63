import Mathlib.Data.Int.GCD
import Mathlib.Data.Int.ModEq
import Mathlib.Tactic.LinearCombination
import Mathlib.Tactic.Positivity
import Mathlib.Tactic.Ring

/-!
# Pursuit of a target in unequal steps

`pursue up down target x` is one step of a value that climbs by `up` while it
is below its target and sinks by `down` while it is above it.  It overshoots,
so there is no distance that every step shortens.  What there is instead:

* a range: a target that stays in `[lo, hi]` keeps the value strictly between
  `lo - down` and `hi + up`, however the target moves;
* an approach: towards a fixed target the value enters the window
  `(target - down, target + up)` in time proportional to its distance and
  never leaves it;
* a residue: every step away from the target subtracts `down` modulo
  `up + down`.  Inside the window that residue is the whole state, so a value
  in the target's class modulo `gcd up down` meets it within `up + down`
  steps (`pursue_settles`).
-/

namespace PorthCore.Verified.Pursuit

/-- One step towards the target. -/
def pursue (up down : Nat) (target x : Int) : Int :=
  if x < target then x + up
  else if target < x then x - down
  else x

variable {up down : Nat} {target x lo hi : Int}

theorem pursue_below (h : x < target) : pursue up down target x = x + up := by
  rw [pursue, if_pos h]

theorem pursue_above (h : target < x) : pursue up down target x = x - down := by
  rw [pursue, if_neg (by omega), if_pos h]

@[simp] theorem pursue_self (up down : Nat) (x : Int) : pursue up down x x = x := by
  rw [pursue, if_neg (Int.lt_irrefl x), if_neg (Int.lt_irrefl x)]

/-! ## The range of a moving target -/

theorem lt_pursue (hlo : lo ≤ target) (hx : lo - down < x) :
    lo - down < pursue up down target x := by
  unfold pursue
  split
  · omega
  · split <;> omega

theorem pursue_lt (hhi : target ≤ hi) (hx : x < hi + up) :
    pursue up down target x < hi + up := by
  unfold pursue
  split
  · omega
  · split <;> omega

/-- A step keeps the class modulo a common divisor of the two step sizes. -/
theorem dvd_pursue_sub {d : Int} (hup : d ∣ up) (hdown : d ∣ down) {c : Int} (hx : d ∣ x - c) :
    d ∣ pursue up down target x - c := by
  unfold pursue
  split
  · rw [show x + up - c = x - c + up by omega]
    exact Int.dvd_add hx hup
  · split
    · rw [show x - down - c = x - c - down by omega]
      exact Int.dvd_sub hx hdown
    · exact hx

/-- A step climbs by at most `up`. -/
theorem pursue_le_add : pursue up down target x ≤ x + up := by
  unfold pursue
  split
  · omega
  · split <;> omega

/-! ## The approach to a fixed target -/

private theorem iterate_self (n : Nat) : (pursue up down x)^[n] x = x :=
  Function.iterate_fixed (pursue_self up down x) n

/-- Until it has reached the target, every step climbs. -/
theorem iterate_climb (hup : 0 < up) (n : Nat) (hx : x + up * n ≤ target) :
    (pursue up down target)^[n] x = x + up * n := by
  induction n generalizing x with
  | zero => simp
  | succ n ih =>
      rw [Nat.cast_succ, Int.mul_add, Int.mul_one] at hx ⊢
      have hnonneg : 0 ≤ (up : Int) * n := by positivity
      rw [Function.iterate_succ_apply, pursue_below (by omega), ih (by omega)]
      omega

theorem iterate_lt (hup : 0 < up) (n : Nat) (hx : x < target + up + down * n) :
    (pursue up down target)^[n] x < target + up := by
  induction n generalizing x with
  | zero => simpa using hx
  | succ n ih =>
      rw [Function.iterate_succ_apply]
      apply ih
      rw [Nat.cast_succ, Int.mul_add, Int.mul_one] at hx
      have hnonneg : 0 ≤ (down : Int) * n := by positivity
      unfold pursue
      split
      · omega
      · split <;> omega

theorem lt_iterate (hdown : 0 < down) (n : Nat) (hx : target - down - up * n < x) :
    target - down < (pursue up down target)^[n] x := by
  induction n generalizing x with
  | zero => simpa using hx
  | succ n ih =>
      rw [Function.iterate_succ_apply]
      apply ih
      rw [Nat.cast_succ, Int.mul_add, Int.mul_one] at hx
      have hnonneg : 0 ≤ (up : Int) * n := by positivity
      unfold pursue
      split
      · omega
      · split <;> omega

theorem dvd_iterate_sub (n : Nat) {c : Int} (hx : (Nat.gcd up down : Int) ∣ x - c) :
    (Nat.gcd up down : Int) ∣ (pursue up down target)^[n] x - c := by
  have hup : (Nat.gcd up down : Int) ∣ up := by exact_mod_cast Nat.gcd_dvd_left up down
  have hdown : (Nat.gcd up down : Int) ∣ down := by exact_mod_cast Nat.gcd_dvd_right up down
  induction n with
  | zero => exact hx
  | succ n ih =>
      rw [Function.iterate_succ_apply']
      exact dvd_pursue_sub hup hdown ih

/-! ## The orbit inside the window -/

/-- A step off the target subtracts `down` modulo `up + down`, whichever way
it goes. -/
theorem pursue_modEq (h : x ≠ target) :
    pursue up down target x ≡ x - down [ZMOD (up + down : Nat)] := by
  rcases lt_or_gt_of_ne h with hlt | hgt
  · rw [pursue_below hlt]
    apply Int.ModEq.symm
    rw [Int.modEq_iff_dvd]
    exact ⟨1, by push_cast; ring⟩
  · rw [pursue_above hgt]

theorem iterate_modEq (n : Nat) (h : ∀ m < n, (pursue up down target)^[m] x ≠ target) :
    (pursue up down target)^[n] x ≡ x - n * down [ZMOD (up + down : Nat)] := by
  induction n with
  | zero => simp [Int.ModEq.refl]
  | succ n ih =>
      have hn := ih fun m hm => h m (Nat.lt_succ_of_lt hm)
      rw [Function.iterate_succ_apply']
      calc
        pursue up down target ((pursue up down target)^[n] x)
            ≡ (pursue up down target)^[n] x - down [ZMOD (up + down : Nat)] :=
              pursue_modEq (h n (Nat.lt_succ_self n))
        _ ≡ x - n * down - down [ZMOD (up + down : Nat)] := hn.sub_right _
        _ = x - (n + 1 : Nat) * down := by push_cast; ring

/-- Multiples of `down` run through the multiples of `gcd up down` modulo
`up + down`. -/
theorem exists_dvd_sub_mul (hpos : 0 < up + down) {e : Int} (he : (Nat.gcd up down : Int) ∣ e) :
    ∃ n : Nat, n < up + down ∧ ((up + down : Nat) : Int) ∣ e - n * down := by
  obtain ⟨q, rfl⟩ := he
  have hgcd : Nat.gcd (up + down) down = Nat.gcd up down := by simp
  have hbezout := Nat.gcd_eq_gcd_ab (up + down) down
  rw [hgcd] at hbezout
  generalize Nat.gcdA (up + down) down = a at hbezout
  generalize Nat.gcdB (up + down) down = b at hbezout
  have hM : (0 : Int) < (up + down : Nat) := by exact_mod_cast hpos
  have hnonneg := Int.emod_nonneg (b * q) hM.ne'
  have hlt := Int.emod_lt_of_pos (b * q) hM
  have hdiv := Int.emod_add_mul_ediv (b * q) (up + down : Nat)
  refine ⟨(b * q % (up + down : Nat)).toNat, ?_, a * q + down * (b * q / (up + down : Nat)), ?_⟩
  · omega
  · rw [Int.toNat_of_nonneg hnonneg, hbezout]
    linear_combination -(down : Int) * hdiv

/-- From inside the window the target is met within `up + down` steps. -/
theorem exists_iterate_eq (hup : 0 < up) (hdown : 0 < down) (hlo : target - down < x)
    (hhi : x < target + up) (hx : (Nat.gcd up down : Int) ∣ x - target) :
    ∃ n < up + down, (pursue up down target)^[n] x = target := by
  obtain ⟨n, hn, hdvd⟩ := exists_dvd_sub_mul (by omega) hx
  by_contra hnever
  push Not at hnever
  have hmod := iterate_modEq n fun m hm => hnever m (hm.trans hn)
  have hlo' : target - down < (pursue up down target)^[n] x := by
    have hnonneg : 0 ≤ (up : Int) * n := by positivity
    exact lt_iterate hdown n (by omega)
  have hhi' : (pursue up down target)^[n] x < target + up := by
    have hnonneg : 0 ≤ (down : Int) * n := by positivity
    exact iterate_lt hup n (by omega)
  refine hnever n hn ?_
  have hzero : ((up + down : Nat) : Int) ∣ (pursue up down target)^[n] x - target := by
    have hsum := Int.dvd_add (Int.modEq_iff_dvd.mp hmod.symm) hdvd
    rwa [show (pursue up down target)^[n] x - (x - n * down) + (x - target - n * down) =
      (pursue up down target)^[n] x - target by ring] at hsum
  have habs : |(pursue up down target)^[n] x - target| < (up + down : Nat) := by
    rw [abs_lt]
    constructor <;> (push_cast; omega)
  have := Int.eq_zero_of_abs_lt_dvd hzero habs
  omega

/-- **Settling.**  A value in the target's class modulo `gcd up down` that `n`
steps bring into the window has met the target `up + down` steps later, and
stays there. -/
theorem pursue_settles (hup : 0 < up) (hdown : 0 < down) {n m : Nat}
    (hlo : target - down - up * n < x) (hhi : x < target + up + down * n)
    (hx : (Nat.gcd up down : Int) ∣ x - target) (hm : n + (up + down) ≤ m) :
    (pursue up down target)^[m] x = target := by
  have hdvd : (Nat.gcd up down : Int) ∣ (pursue up down target)^[n] x - target :=
    dvd_iterate_sub n hx
  obtain ⟨k, hk, hmeet⟩ :=
    exists_iterate_eq hup hdown (lt_iterate hdown n hlo) (iterate_lt hup n hhi) hdvd
  obtain ⟨j, rfl⟩ : ∃ j, m = j + (k + n) := ⟨m - (k + n), by omega⟩
  rw [Function.iterate_add_apply, Function.iterate_add_apply, hmeet, iterate_self]

end PorthCore.Verified.Pursuit
