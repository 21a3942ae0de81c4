/- path: JsonScada/Lib/Single
   layer: library
   digest: Numbers of one binary format as numbers of a wider one. -/

import JsonScada.Lib.DotNet
import JsonScada.Lib.Interchange

set_option autoImplicit false
set_option relaxedAutoImplicit false

namespace JsonScada.Lib.Single

open JsonScada.Lib.Binary64 JsonScada.Lib.Binary64.Format JsonScada.Lib.DotNet

variable {f : Format}

/-- A significand that fits the precision, with an exponent that is not too small, is exact. -/
theorem roundMagnitude_of_significand (hp : 1 ≤ f.precision) {n : ℕ} {k : ℤ}
    (hn : n ≤ 2 ^ f.precision) (hk : f.minExponent ≤ k) :
    roundMagnitude f (n * 2 ^ k) = n * 2 ^ k := by
  have htwo : (1 : ℚ) < 2 := by norm_num
  have hpos : (0 : ℚ) < 2 ^ k := zpow_pos (by norm_num) k
  rcases Nat.eq_zero_or_pos n with rfl | hnpos
  · rw [Nat.cast_zero, zero_mul, roundMagnitude_zero]
  generalize hq : (n : ℚ) * 2 ^ k = q
  have hqpos : 0 < q := by
    rw [← hq]
    exact mul_pos (by exact_mod_cast hnpos) hpos
  have hlow : (2 : ℚ) ^ Int.log 2 q ≤ q := by
    exact_mod_cast Int.zpow_log_le_self (b := 2) (by norm_num) hqpos
  rcases le_or_gt (quantum f q) k with hle | hgt
  · -- the exponent is a multiple of the quantum
    have hsplit : k = ((k - quantum f q).toNat : ℤ) + quantum f q := by omega
    refine roundMagnitude_exact f (n * 2 ^ (k - quantum f q).toNat) ?_
    calc q = n * (2 : ℚ) ^ (((k - quantum f q).toNat : ℤ) + quantum f q) := by rw [← hsplit, hq]
      _ = ((n * 2 ^ (k - quantum f q).toNat : ℤ) : ℚ) * 2 ^ quantum f q := by
        rw [zpow_add₀ (by norm_num), zpow_natCast]
        push_cast
        ring
  · -- only the power of two past the largest significand has a larger quantum
    have hlog : quantum f q = Int.log 2 q - (f.precision - 1) := by
      unfold quantum at hgt ⊢
      omega
    have hupper : q ≤ 2 ^ ((f.precision : ℤ) + k) := by
      rw [← hq, zpow_add₀ (by norm_num), zpow_natCast]
      exact mul_le_mul_of_nonneg_right (by exact_mod_cast hn) hpos.le
    have hexp : Int.log 2 q ≤ f.precision + k :=
      (zpow_le_zpow_iff_right₀ htwo).mp (hlow.trans hupper)
    have heq : q = 2 ^ ((f.precision : ℤ) + k) := by
      refine le_antisymm hupper ((zpow_le_zpow_right₀ htwo.le ?_).trans hlow)
      omega
    refine roundMagnitude_exact f (2 ^ (f.precision - 1)) ?_
    push_cast
    rw [← zpow_natCast, ← zpow_add₀ (by norm_num)]
    refine heq.trans (congrArg (fun e => (2 : ℚ) ^ e) ?_)
    omega

theorem holds_of_significand (hp : 1 ≤ f.precision) {n : ℕ} {k : ℤ} (neg : Bool)
    (hn : n ≤ 2 ^ f.precision) (hk : f.minExponent ≤ k) (hmax : (n : ℚ) * 2 ^ k < 2 ^ f.maxExponent) :
    f.Holds (.fin (if neg then -(n * 2 ^ k) else n * 2 ^ k)) := by
  have hpos : (0 : ℚ) < 2 ^ k := zpow_pos (by norm_num) k
  have hnonneg : (0 : ℚ) ≤ n * 2 ^ k := mul_nonneg (Nat.cast_nonneg n) hpos.le
  have hround := roundMagnitude_of_significand hp hn hk
  show Binary64.round f _ = .fin _
  unfold Binary64.round
  cases neg with
  | true =>
    rw [if_pos rfl]
    rcases hnonneg.eq_or_lt with hzero | hlt
    · rw [← hzero, neg_zero, if_neg (lt_irrefl _), roundMagnitude_zero]
      unfold ofMagnitude
      rw [if_neg (not_le.mpr (zpow_pos (by norm_num) _)), if_neg Bool.false_ne_true]
    · rw [if_pos (neg_neg_of_pos hlt), neg_neg, hround]
      unfold ofMagnitude
      rw [if_neg (not_le.mpr hmax), if_pos rfl]
  | false =>
    rw [if_neg Bool.false_ne_true, if_neg (not_lt.mpr hnonneg), hround]
    unfold ofMagnitude
    rw [if_neg (not_le.mpr hmax), if_neg Bool.false_ne_true]

/-- A rounded magnitude is a significand of the format. -/
theorem exists_roundMagnitude {q : ℚ} (hq : 0 ≤ q) :
    ∃ n : ℕ, n ≤ 2 ^ f.precision ∧ roundMagnitude f q = n * 2 ^ quantum f q := by
  have htwo : (1 : ℚ) < 2 := by norm_num
  have hpos : (0 : ℚ) < 2 ^ quantum f q := zpow_pos (by norm_num) _
  have hnonneg : 0 ≤ nearestEven (q / 2 ^ quantum f q) :=
    (Int.floor_nonneg.mpr (div_nonneg hq hpos.le)).trans (floor_le_nearestEven _)
  have hbound : q / 2 ^ quantum f q ≤ ((2 ^ f.precision : ℕ) : ℤ) := by
    rw [div_le_iff₀ hpos]
    have hlt : q < (2 : ℚ) ^ (Int.log 2 q + 1) := by
      exact_mod_cast Int.lt_zpow_succ_log_self (b := 2) (by norm_num) q
    calc q ≤ (2 : ℚ) ^ (Int.log 2 q + 1) := hlt.le
      _ ≤ 2 ^ ((f.precision : ℤ) + quantum f q) :=
        zpow_le_zpow_right₀ htwo.le (by unfold quantum; omega)
      _ = ((2 ^ f.precision : ℕ) : ℤ) * 2 ^ quantum f q := by
        rw [zpow_add₀ (by norm_num), zpow_natCast]
        push_cast
        rfl
  have hle := nearestEven_mono hbound
  rw [nearestEven_intCast] at hle
  refine ⟨(nearestEven (q / 2 ^ quantum f q)).toNat, by omega, ?_⟩
  unfold roundMagnitude
  congr 1
  exact_mod_cast (Int.toNat_of_nonneg hnonneg).symm

/-- What is rounded to a format is exact in every format that is no narrower. -/
theorem holds_round {g : Format} (hp : 1 ≤ f.precision) (hprec : f.precision ≤ g.precision)
    (hmin : g.minExponent ≤ f.minExponent) (hmax : f.maxExponent ≤ g.maxExponent) (q : ℚ) :
    g.Holds (Binary64.round f q) := by
  have htwo : (1 : ℚ) < 2 := by norm_num
  have hmagnitude : ∀ (neg : Bool) (m : ℚ), 0 ≤ m → g.Holds (ofMagnitude f neg (roundMagnitude f m)) := by
    intro neg m hm
    obtain ⟨n, hn, heq⟩ := exists_roundMagnitude hm
    unfold ofMagnitude
    split
    · trivial
    · next hsmall =>
      rw [heq] at hsmall ⊢
      refine holds_of_significand (hp.trans hprec) neg
        (hn.trans (Nat.pow_le_pow_right (by norm_num) hprec)) (hmin.trans (le_max_right _ _)) ?_
      exact (not_le.mp hsmall).trans_le (zpow_le_zpow_right₀ htwo.le hmax)
  unfold Binary64.round
  split
  · next hneg => exact hmagnitude true (-q) (by linarith)
  · next hnonneg => exact hmagnitude false q (not_lt.mp hnonneg)

theorem holds_toSingle {x : Number} : binary64.Holds (toSingle x) := by
  cases x with
  | fin q => exact holds_round (by decide) (by decide) (by decide) (by decide) q
  | _ => trivial

theorem holds_intCast {z : ℤ} (hlow : -(2 ^ 53) ≤ z) (hhigh : z ≤ 2 ^ 53) :
    binary64.Holds (.fin (z : ℚ)) := by
  have hmax : ((z.natAbs : ℕ) : ℚ) * 2 ^ (0 : ℤ) < 2 ^ binary64.maxExponent := by
    have hle : ((z.natAbs : ℕ) : ℚ) ≤ (2 : ℚ) ^ (53 : ℕ) := by
      exact_mod_cast (by omega : z.natAbs ≤ 2 ^ 53)
    have hlt : (2 : ℚ) ^ (53 : ℕ) < (2 : ℚ) ^ binary64.maxExponent := by
      rw [← zpow_natCast]
      exact zpow_lt_zpow_right₀ (by norm_num) (by decide)
    rw [zpow_zero, mul_one]
    exact hle.trans_lt hlt
  have hholds := @holds_of_significand binary64 (by decide) z.natAbs 0 (decide (z < 0))
    (by show z.natAbs ≤ 2 ^ 53; omega) (by decide) hmax
  rw [zpow_zero, mul_one] at hholds
  by_cases hneg : z < 0
  · rw [decide_eq_true hneg, if_pos rfl] at hholds
    have hcast : -((z.natAbs : ℕ) : ℚ) = z := by
      have habs : ((z.natAbs : ℕ) : ℤ) = -z := by omega
      rw [← Int.cast_natCast, habs, Int.cast_neg, neg_neg]
    rwa [hcast] at hholds
  · rw [decide_eq_false hneg, if_neg Bool.false_ne_true] at hholds
    have hcast : ((z.natAbs : ℕ) : ℚ) = z := by
      have habs : ((z.natAbs : ℕ) : ℤ) = z := by omega
      rw [← Int.cast_natCast, habs]
    rwa [hcast] at hholds

/-- Rounding stays between two numbers of the format. -/
theorem round_between (hp : 1 ≤ f.precision) {a b q : ℚ} (ha : f.Holds (.fin a))
    (hb : f.Holds (.fin b)) (haq : a ≤ q) (hqb : q ≤ b) :
    ∃ y, Binary64.round f q = .fin y ∧ a ≤ y ∧ y ≤ b := by
  have hlow := round_mono f hp haq
  have hhigh := round_mono f hp hqb
  rw [show Binary64.round f a = .fin a from ha] at hlow
  rw [show Binary64.round f b = .fin b from hb] at hhigh
  cases hround : Binary64.round f q with
  | nan => exact absurd hround (round_ne_nan f q)
  | inf neg =>
    rw [hround] at hlow hhigh
    cases neg with
    | true => cases hlow
    | false => cases hhigh
  | fin y =>
    rw [hround, Number.lt_fin, decide_eq_false_iff_not, not_lt] at hlow hhigh
    exact ⟨y, rfl, hlow, hhigh⟩

/-- Neutral factors leave a double as it is. -/
theorem neutral {x : Number} (hx : binary64.Holds x) : (x.mul (.fin 1)).add (.fin 0) = x := by
  cases x with
  | nan => rfl
  | inf neg => cases neg <;> simp [Number.mul, Number.add]
  | fin q =>
    have hround : Binary64.round binary64 q = .fin q := hx
    show (Binary64.round binary64 (q * 1)).add (.fin 0) = .fin q
    rw [mul_one, hround]
    show Binary64.round binary64 (q + 0) = .fin q
    rw [add_zero, hround]

end JsonScada.Lib.Single
