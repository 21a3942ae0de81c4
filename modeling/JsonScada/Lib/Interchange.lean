/- path: JsonScada/Lib/Interchange
   layer: library
   digest: Bit patterns of binary floating-point formats, and the values they stand for. -/

import JsonScada.Lib.Binary64
import Mathlib.Tactic.FieldSimp

set_option autoImplicit false
set_option relaxedAutoImplicit false

namespace JsonScada.Lib.Binary64

namespace Format

variable (f : Format)

/-- The weight of the exponent field. -/
def unit : ℕ := 2 ^ (f.precision - 1)

/-- The exponent field of the infinities and of `NaN`. -/
def topField : ℕ := (f.maxExponent - f.minExponent - f.precision + 2).toNat

/-- The weight of the sign. -/
def signUnit : ℕ := (f.topField + 1) * f.unit

/-- The pattern of a magnitude: the significand, counted on from the exponent. -/
def encodeMagnitude (q : ℚ) : ℕ :=
  (quantum f q - f.minExponent).toNat * f.unit + (q / 2 ^ quantum f q).num.toNat

def encode : Number → ℕ
  | .nan => f.topField * f.unit + f.unit / 2
  | .inf neg => (if neg then f.signUnit else 0) + f.topField * f.unit
  | .fin q => if q = 0 then 0 else (if q < 0 then f.signUnit else 0) + f.encodeMagnitude |q|

/-- The magnitude of an exponent field and a fraction. -/
def decodeMagnitude (field fraction : ℕ) : ℚ :=
  if field = 0 then fraction * 2 ^ f.minExponent
  else (f.unit + fraction : ℕ) * 2 ^ (f.minExponent + field - 1)

def decode (c : ℕ) : Number :=
  let neg : Bool := f.signUnit ≤ c
  let rest := if neg then c - f.signUnit else c
  let field := rest / f.unit
  let fraction := rest % f.unit
  if f.topField ≤ field then (if fraction = 0 then .inf neg else .nan)
  else .fin (if neg then -f.decodeMagnitude field fraction else f.decodeMagnitude field fraction)

/-- The number is a value of the format. -/
def Holds : Number → Prop
  | .fin q => round f q = .fin q
  | _ => True

instance : (x : Number) → Decidable (f.Holds x)
  | .fin q => inferInstanceAs (Decidable (round f q = .fin q))
  | .nan => inferInstanceAs (Decidable True)
  | .inf _ => inferInstanceAs (Decidable True)

/-- A format with fractions, and exponents that leave room for whole significands. -/
structure Regular : Prop where
  precision : 2 ≤ f.precision
  exponents : f.minExponent + f.precision ≤ f.maxExponent

variable {f}

theorem unit_pos : 0 < f.unit := Nat.two_pow_pos _

theorem encode_zero : f.encode (.fin 0) = 0 := by
  unfold encode
  simp only [if_true]

theorem encode_of_pos {q : ℚ} (h : 0 < q) : f.encode (.fin q) = f.encodeMagnitude q := by
  unfold encode
  simp only [h.ne', if_false, not_lt.mpr h.le, abs_of_pos h, Nat.zero_add]

theorem encode_of_neg {q : ℚ} (h : q < 0) :
    f.encode (.fin q) = f.signUnit + f.encodeMagnitude (-q) := by
  unfold encode
  simp only [h.ne, if_false, h, if_true, abs_of_neg h]

theorem decode_split {neg : Bool} {field fraction : ℕ} (hfraction : fraction < f.unit)
    (hfield : field ≤ f.topField) :
    f.decode ((if neg then f.signUnit else 0) + (field * f.unit + fraction)) =
      if f.topField ≤ field then (if fraction = 0 then .inf neg else .nan)
      else .fin (if neg then -f.decodeMagnitude field fraction
        else f.decodeMagnitude field fraction) := by
  have hlt : field * f.unit + fraction < f.signUnit := by
    have hmul : (field + 1) * f.unit ≤ (f.topField + 1) * f.unit :=
      Nat.mul_le_mul_right _ (by omega)
    unfold signUnit
    rw [add_mul, one_mul] at hmul
    omega
  have hdiv : (field * f.unit + fraction) / f.unit = field := by
    rw [mul_comm, Nat.mul_add_div unit_pos, Nat.div_eq_of_lt hfraction, add_zero]
  have hmod : (field * f.unit + fraction) % f.unit = fraction := by
    rw [mul_comm, Nat.mul_add_mod, Nat.mod_eq_of_lt hfraction]
  unfold decode
  cases neg with
  | true =>
    have hle : f.signUnit ≤ f.signUnit + (field * f.unit + fraction) := Nat.le_add_right _ _
    simp only [if_true, hle, decide_true, Nat.add_sub_cancel_left, hdiv, hmod]
  | false =>
    have hnot : ¬ f.signUnit ≤ field * f.unit + fraction := by omega
    simp only [Bool.false_eq_true, if_false, Nat.zero_add, hnot, decide_false, hdiv, hmod]

theorem round_of_nonneg {q : ℚ} (h : 0 ≤ q) (hr : round f q = .fin q) :
    roundMagnitude f q = q ∧ q < 2 ^ f.maxExponent := by
  unfold round at hr
  rw [if_neg (not_lt.mpr h), ofMagnitude] at hr
  by_cases hmax : (2 : ℚ) ^ f.maxExponent ≤ roundMagnitude f q
  · rw [if_pos hmax] at hr
    cases hr
  · rw [if_neg hmax, if_neg Bool.false_ne_true] at hr
    have hq := Number.fin.inj hr
    rw [hq] at hmax
    exact ⟨hq, not_le.mp hmax⟩

theorem round_of_neg {q : ℚ} (h : q < 0) (hr : round f q = .fin q) :
    roundMagnitude f (-q) = -q ∧ -q < 2 ^ f.maxExponent := by
  unfold round at hr
  rw [if_pos h, ofMagnitude] at hr
  by_cases hmax : (2 : ℚ) ^ f.maxExponent ≤ roundMagnitude f (-q)
  · rw [if_pos hmax] at hr
    cases hr
  · rw [if_neg hmax, if_pos rfl] at hr
    have hq : roundMagnitude f (-q) = -q := by
      have hneg := Number.fin.inj hr
      linarith
    rw [hq] at hmax
    exact ⟨hq, not_le.mp hmax⟩

/-- A positive magnitude of the format is a whole number of its quanta. -/
theorem exists_significand {q : ℚ} (hpos : 0 < q) (hround : roundMagnitude f q = q) :
    ∃ n : ℕ, q = n * 2 ^ quantum f q := by
  have hquantum : (0 : ℚ) < 2 ^ quantum f q := zpow_pos (by norm_num) _
  have hint : ((nearestEven (q / 2 ^ quantum f q) : ℤ) : ℚ) * 2 ^ quantum f q = q := hround
  have hnonneg : 0 ≤ nearestEven (q / 2 ^ quantum f q) := by
    have hdiv : 0 ≤ q / 2 ^ quantum f q := (div_pos hpos hquantum).le
    exact (Int.floor_nonneg.mpr hdiv).trans (floor_le_nearestEven _)
  refine ⟨(nearestEven (q / 2 ^ quantum f q)).toNat, ?_⟩
  have hcast : (((nearestEven (q / 2 ^ quantum f q)).toNat : ℕ) : ℚ) =
      ((nearestEven (q / 2 ^ quantum f q) : ℤ) : ℚ) := by
    exact_mod_cast Int.toNat_of_nonneg hnonneg
  rw [hcast, hint]

/-- The significand fills the precision, or the exponent is the smallest. -/
theorem significand_bounds (hf : f.Regular) {q : ℚ} {n : ℕ} (hpos : 0 < q)
    (hn : q = n * 2 ^ quantum f q) :
    n < 2 * f.unit ∧ (f.minExponent < quantum f q → f.unit ≤ n) := by
  have htwo : (1 : ℚ) < 2 := by norm_num
  have hquantum : (0 : ℚ) < 2 ^ quantum f q := zpow_pos (by norm_num) _
  have hprec := hf.precision
  have hlow : (2 : ℚ) ^ Int.log 2 q ≤ q := by
    exact_mod_cast Int.zpow_log_le_self (b := 2) (by norm_num) hpos
  have hhigh : q < (2 : ℚ) ^ (Int.log 2 q + 1) := by
    exact_mod_cast Int.lt_zpow_succ_log_self (b := 2) (by norm_num) q
  have hunit : ((f.unit : ℕ) : ℚ) = 2 ^ ((f.precision : ℤ) - 1) := by
    unfold unit
    rw [Nat.cast_pow, Nat.cast_ofNat, ← zpow_natCast]
    congr 1
    omega
  constructor
  · have hlt : (n : ℚ) * 2 ^ quantum f q < (2 * f.unit : ℕ) * 2 ^ quantum f q := by
      calc (n : ℚ) * 2 ^ quantum f q = q := hn.symm
        _ < (2 : ℚ) ^ (Int.log 2 q + 1) := hhigh
        _ ≤ 2 ^ ((f.precision : ℤ) + quantum f q) :=
          zpow_le_zpow_right₀ htwo.le (by unfold quantum; omega)
        _ = (2 * f.unit : ℕ) * 2 ^ quantum f q := by
          rw [zpow_add₀ (by norm_num), Nat.cast_mul, hunit, Nat.cast_ofNat,
            ← zpow_one_add₀ (by norm_num)]
          congr 2
          omega
    exact_mod_cast lt_of_mul_lt_mul_right hlt hquantum.le
  · intro hmin
    have hle : (f.unit : ℚ) * 2 ^ quantum f q ≤ n * 2 ^ quantum f q := by
      calc (f.unit : ℚ) * 2 ^ quantum f q = 2 ^ Int.log 2 q := by
            rw [hunit, ← zpow_add₀ (by norm_num)]
            congr 1
            unfold quantum at hmin ⊢
            omega
        _ ≤ q := hlow
        _ = n * 2 ^ quantum f q := hn
    exact_mod_cast le_of_mul_le_mul_right hle hquantum

theorem encodeMagnitude_eq {q : ℚ} {n : ℕ} (hn : q = n * 2 ^ quantum f q) :
    f.encodeMagnitude q = (quantum f q - f.minExponent).toNat * f.unit + n := by
  have hquantum : (2 : ℚ) ^ quantum f q ≠ 0 := (zpow_pos (by norm_num) _).ne'
  have hdiv : q / 2 ^ quantum f q = (n : ℚ) := (div_eq_iff hquantum).mpr hn
  unfold encodeMagnitude
  rw [hdiv, Rat.num_natCast, Int.toNat_natCast]

/-- The pattern of a magnitude, split in its fields, stands for the magnitude. -/
theorem magnitude_fields (hf : f.Regular) {q : ℚ} (hpos : 0 < q)
    (hround : roundMagnitude f q = q) (hmax : q < 2 ^ f.maxExponent) :
    ∃ field fraction, f.encodeMagnitude q = field * f.unit + fraction ∧ fraction < f.unit ∧
      field < f.topField ∧ f.decodeMagnitude field fraction = q := by
  obtain ⟨n, hn⟩ := exists_significand hpos hround
  obtain ⟨hupper, hlower⟩ := significand_bounds hf hpos hn
  have hcode := encodeMagnitude_eq hn
  have hmin : f.minExponent ≤ quantum f q := le_max_right _ _
  have hexp := hf.exponents
  by_cases hsub : n < f.unit
  · -- a subnormal number
    have hquantum : quantum f q = f.minExponent := by
      by_contra hne
      have := hlower (lt_of_le_of_ne hmin (Ne.symm hne))
      omega
    refine ⟨0, n, ?_, hsub, ?_, ?_⟩
    · rw [hcode, hquantum]
      simp
    · unfold topField
      omega
    · unfold decodeMagnitude
      rw [if_pos rfl, ← hquantum]
      exact hn.symm
  · obtain ⟨r, hr⟩ := Nat.exists_eq_add_of_le (not_lt.mp hsub)
    have hbound : quantum f q + f.precision ≤ f.maxExponent := by
      have hunit : ((f.unit : ℕ) : ℚ) = 2 ^ ((f.precision : ℤ) - 1) := by
        have hprec := hf.precision
        unfold unit
        rw [Nat.cast_pow, Nat.cast_ofNat, ← zpow_natCast]
        congr 1
        omega
      have hlt : (2 : ℚ) ^ ((f.precision : ℤ) - 1 + quantum f q) < 2 ^ f.maxExponent := by
        calc (2 : ℚ) ^ ((f.precision : ℤ) - 1 + quantum f q)
            = (f.unit : ℚ) * 2 ^ quantum f q := by
              rw [hunit, zpow_add₀ (by norm_num)]
          _ ≤ n * 2 ^ quantum f q := by
              refine mul_le_mul_of_nonneg_right ?_ (zpow_pos (by norm_num) _).le
              exact_mod_cast not_lt.mp hsub
          _ = q := hn.symm
          _ < 2 ^ f.maxExponent := hmax
      have := (zpow_lt_zpow_iff_right₀ (by norm_num : (1 : ℚ) < 2)).mp hlt
      omega
    refine ⟨(quantum f q - f.minExponent).toNat + 1, r, ?_, ?_, ?_, ?_⟩
    · rw [hcode, hr]
      ring
    · omega
    · unfold topField
      omega
    · unfold decodeMagnitude
      rw [if_neg (Nat.succ_ne_zero _), ← hr]
      have he : f.minExponent + (((quantum f q - f.minExponent).toNat + 1 : ℕ) : ℤ) - 1 =
          quantum f q := by
        push_cast
        omega
      rw [he]
      exact hn.symm

/-- A value of the format is read back from its pattern. -/
theorem decode_encode (hf : f.Regular) {x : Number} (hx : f.Holds x) :
    f.decode (f.encode x) = x := by
  have htop : ¬ f.topField ≤ 0 := by
    have := hf.exponents
    unfold topField
    omega
  cases x with
  | nan =>
    have htwo : 2 ≤ f.unit := by
      have hpow := Nat.pow_le_pow_right (n := 2) (by norm_num)
        (show 1 ≤ f.precision - 1 by have := hf.precision; omega)
      exact hpow
    have hsplit := @decode_split f false f.topField (f.unit / 2) (by omega) le_rfl
    rw [if_neg Bool.false_ne_true, Nat.zero_add] at hsplit
    show f.decode (f.topField * f.unit + f.unit / 2) = .nan
    rw [hsplit, if_pos le_rfl, if_neg (by omega)]
  | inf neg =>
    have hsplit := @decode_split f neg f.topField 0 unit_pos le_rfl
    rw [Nat.add_zero] at hsplit
    show f.decode ((if neg then f.signUnit else 0) + f.topField * f.unit) = .inf neg
    rw [hsplit, if_pos le_rfl, if_pos rfl]
  | fin q =>
    have hr : round f q = .fin q := hx
    rcases lt_trichotomy q 0 with hneg | rfl | hpos
    · obtain ⟨hround, hmax⟩ := round_of_neg hneg hr
      obtain ⟨field, fraction, hcode, hfraction, hfield, hvalue⟩ :=
        magnitude_fields hf (neg_pos.mpr hneg) hround hmax
      have hsplit := @decode_split f true field fraction hfraction hfield.le
      rw [if_pos rfl] at hsplit
      rw [encode_of_neg hneg, hcode, hsplit, if_neg (not_le.mpr hfield), if_pos rfl, hvalue, neg_neg]
    · have hsplit := @decode_split f false 0 0 unit_pos (Nat.zero_le _)
      simp only [Bool.false_eq_true, if_false, Nat.zero_mul, Nat.add_zero, htop] at hsplit
      rw [encode_zero, hsplit]
      simp [decodeMagnitude]
    · obtain ⟨hround, hmax⟩ := round_of_nonneg hpos.le hr
      obtain ⟨field, fraction, hcode, hfraction, hfield, hvalue⟩ :=
        magnitude_fields hf hpos hround hmax
      have hsplit := @decode_split f false field fraction hfraction hfield.le
      rw [if_neg Bool.false_ne_true, Nat.zero_add] at hsplit
      rw [encode_of_pos hpos, hcode, hsplit, if_neg (not_le.mpr hfield), if_neg Bool.false_ne_true, hvalue]

/-- The pattern of a value of the format fits in the sign, exponent and fraction. -/
theorem encode_lt (hf : f.Regular) {x : Number} (hx : f.Holds x) :
    f.encode x < 2 * f.signUnit := by
  have hunit := @unit_pos f
  have hsign : f.signUnit = f.topField * f.unit + f.unit := by
    unfold signUnit
    ring
  have hmagnitude : ∀ q : ℚ, 0 < q → roundMagnitude f q = q → q < 2 ^ f.maxExponent →
      f.encodeMagnitude q < f.signUnit := by
    intro q hpos hround hmax
    obtain ⟨field, fraction, hcode, hfraction, hfield, -⟩ := magnitude_fields hf hpos hround hmax
    have hmul : field * f.unit ≤ f.topField * f.unit := Nat.mul_le_mul_right _ hfield.le
    omega
  cases x with
  | nan =>
    show f.topField * f.unit + f.unit / 2 < _
    omega
  | inf neg =>
    show (if neg then f.signUnit else 0) + f.topField * f.unit < _
    split_ifs <;> omega
  | fin q =>
    have hr : round f q = .fin q := hx
    rcases lt_trichotomy q 0 with hneg | rfl | hpos
    · obtain ⟨hround, hmax⟩ := round_of_neg hneg hr
      have := hmagnitude (-q) (neg_pos.mpr hneg) hround hmax
      rw [encode_of_neg hneg]
      omega
    · rw [encode_zero]
      omega
    · obtain ⟨hround, hmax⟩ := round_of_nonneg hpos.le hr
      have := hmagnitude q hpos hround hmax
      rw [encode_of_pos hpos]
      omega

end Format

end JsonScada.Lib.Binary64
