/- path: JsonScada/Lib/Binary64
   layer: library
   digest: Binary floating-point formats over the rationals, rounded to nearest even. -/

import Mathlib.Data.Int.Log
import Mathlib.Data.Rat.Floor
import Mathlib.Tactic.Linarith
import Mathlib.Tactic.Positivity
import Mathlib.Tactic.FieldSimp

set_option autoImplicit false
set_option relaxedAutoImplicit false

namespace JsonScada.Lib.Binary64

/-- A binary format: significand bits, exponent of the smallest positive value,
and the exponent from which magnitudes overflow. -/
structure Format where
  precision : ℕ
  minExponent : ℤ
  maxExponent : ℤ

def binary64 : Format := ⟨53, -1074, 1024⟩

/-- The nearest integer, ties to even. -/
def nearestEven (q : ℚ) : ℤ :=
  let n := ⌊q⌋
  let r := q - n
  if r < 1 / 2 then n else if 1 / 2 < r then n + 1 else if n % 2 = 0 then n else n + 1

/-- Exponent of the unit in the last place at magnitude `q`. -/
def quantum (f : Format) (q : ℚ) : ℤ :=
  max (Int.log 2 q - (f.precision - 1)) f.minExponent

def roundMagnitude (f : Format) (q : ℚ) : ℚ :=
  nearestEven (q / 2 ^ quantum f q) * 2 ^ quantum f q

/-- A value of the format. The two zeros are one value. -/
inductive Number where
  | nan
  | inf (neg : Bool)
  | fin (q : ℚ)
  deriving DecidableEq

def ofMagnitude (f : Format) (neg : Bool) (m : ℚ) : Number :=
  if 2 ^ f.maxExponent ≤ m then .inf neg else .fin (if neg then -m else m)

/-- Rounding of an exact result; from the largest magnitude on it overflows. -/
def round (f : Format) (q : ℚ) : Number :=
  if q < 0 then ofMagnitude f true (roundMagnitude f (-q))
  else ofMagnitude f false (roundMagnitude f q)

theorem round_ne_nan (f : Format) (q : ℚ) : round f q ≠ .nan := by
  unfold round ofMagnitude
  split_ifs <;> simp

theorem nearestEven_intCast (n : ℤ) : nearestEven n = n := by
  simp [nearestEven]

theorem floor_le_nearestEven (q : ℚ) : ⌊q⌋ ≤ nearestEven q := by
  unfold nearestEven
  dsimp only
  split_ifs <;> omega

theorem nearestEven_le_floor_add_one (q : ℚ) : nearestEven q ≤ ⌊q⌋ + 1 := by
  unfold nearestEven
  dsimp only
  split_ifs <;> omega

theorem nearestEven_mono {x y : ℚ} (h : x ≤ y) : nearestEven x ≤ nearestEven y := by
  rcases (Int.floor_le_floor h).lt_or_eq with hlt | heq
  · have hx := nearestEven_le_floor_add_one x
    have hy := floor_le_nearestEven y
    omega
  · -- the same integer part: only the fractions are compared
    unfold nearestEven
    dsimp only
    rw [heq]
    split_ifs <;> first | omega | (exfalso; linarith)

private theorem two_zpow_pos (e : ℤ) : (0 : ℚ) < 2 ^ e := zpow_pos (by norm_num) e

theorem roundMagnitude_zero (f : Format) : roundMagnitude f 0 = 0 := by
  have h : nearestEven 0 = 0 := by simpa using nearestEven_intCast 0
  simp [roundMagnitude, h]

theorem roundMagnitude_nonneg (f : Format) {q : ℚ} (h : 0 ≤ q) : 0 ≤ roundMagnitude f q := by
  have hd : 0 ≤ q / 2 ^ quantum f q := div_nonneg h (two_zpow_pos _).le
  have hn : 0 ≤ nearestEven (q / 2 ^ quantum f q) :=
    (Int.floor_nonneg.mpr hd).trans (floor_le_nearestEven _)
  exact mul_nonneg (by exact_mod_cast hn) (two_zpow_pos _).le

/-- A whole number of quanta is left as it is. -/
theorem roundMagnitude_exact (f : Format) {q : ℚ} (m : ℤ) (h : q = m * 2 ^ quantum f q) :
    roundMagnitude f q = q := by
  have hd : q / 2 ^ quantum f q = m := by
    rw [div_eq_iff (two_zpow_pos _).ne']
    exact h
  rw [roundMagnitude, hd, nearestEven_intCast, ← h]

private theorem roundMagnitude_le_of_same {f : Format} {x y : ℚ} (h : x ≤ y)
    (hq : quantum f x = quantum f y) : roundMagnitude f x ≤ roundMagnitude f y := by
  have hpos := two_zpow_pos (quantum f y)
  have hdiv : x / 2 ^ quantum f y ≤ y / 2 ^ quantum f y := div_le_div_of_nonneg_right h hpos.le
  have hn : (nearestEven (x / 2 ^ quantum f y) : ℚ) ≤ nearestEven (y / 2 ^ quantum f y) := by
    exact_mod_cast nearestEven_mono hdiv
  rw [roundMagnitude, roundMagnitude, hq]
  exact mul_le_mul_of_nonneg_right hn hpos.le

/-- A multiple of the quantum that bounds `q` bounds the rounded `q`. -/
private theorem roundMagnitude_le_multiple {f : Format} {q : ℚ} (m : ℤ)
    (h : q ≤ m * 2 ^ quantum f q) : roundMagnitude f q ≤ m * 2 ^ quantum f q := by
  have hpos := two_zpow_pos (quantum f q)
  have hd : q / 2 ^ quantum f q ≤ m := (div_le_iff₀ hpos).mpr h
  have hn := nearestEven_mono hd
  rw [nearestEven_intCast] at hn
  exact mul_le_mul_of_nonneg_right (by exact_mod_cast hn) hpos.le

private theorem multiple_le_roundMagnitude {f : Format} {q : ℚ} (m : ℤ)
    (h : m * 2 ^ quantum f q ≤ q) : m * 2 ^ quantum f q ≤ roundMagnitude f q := by
  have hpos := two_zpow_pos (quantum f q)
  have hd : (m : ℚ) ≤ q / 2 ^ quantum f q := (le_div_iff₀ hpos).mpr h
  have hn := nearestEven_mono hd
  rw [nearestEven_intCast] at hn
  exact mul_le_mul_of_nonneg_right (by exact_mod_cast hn) hpos.le

private theorem zpow_eq_multiple {a b : ℤ} (h : a ≤ b) :
    (2 : ℚ) ^ b = ((2 ^ (b - a).toNat : ℕ) : ℤ) * (2 : ℚ) ^ a := by
  have hb : b = ((b - a).toNat : ℤ) + a := by omega
  conv_lhs => rw [hb, zpow_add₀ (by norm_num)]
  push_cast
  rw [zpow_natCast]

theorem quantum_mono (f : Format) {x y : ℚ} (hx : 0 < x) (h : x ≤ y) :
    quantum f x ≤ quantum f y := by
  have := Int.log_mono_right (b := 2) hx h
  unfold quantum
  omega

/-- Rounding keeps the order: inside one binade by the nearest integer, across
binades because the power of two between them is a multiple of both quanta. -/
theorem roundMagnitude_mono (f : Format) (hf : 1 ≤ f.precision) {x y : ℚ}
    (hx : 0 ≤ x) (h : x ≤ y) : roundMagnitude f x ≤ roundMagnitude f y := by
  rcases hx.eq_or_lt with rfl | hx
  · rw [roundMagnitude_zero]
    exact roundMagnitude_nonneg f h
  rcases (quantum_mono f hx h).lt_or_eq with hlt | heq
  · have hy : 0 < y := hx.trans_le h
    have hqy : quantum f y = Int.log 2 y - (f.precision - 1) := by
      unfold quantum at hlt ⊢
      omega
    have hlog : Int.log 2 x < Int.log 2 y := by
      unfold quantum at hlt
      omega
    have hlow : (2 : ℚ) ^ Int.log 2 y ≤ y := by
      exact_mod_cast Int.zpow_log_le_self (b := 2) (by norm_num) hy
    have hhigh : x ≤ (2 : ℚ) ^ Int.log 2 y := by
      have hlt : x < (2 : ℚ) ^ (Int.log 2 x + 1) := by
        exact_mod_cast Int.lt_zpow_succ_log_self (b := 2) (by norm_num) x
      exact hlt.le.trans (zpow_le_zpow_right₀ (by norm_num) (by omega))
    have ey := zpow_eq_multiple (a := quantum f y) (b := Int.log 2 y) (by omega)
    have ex := zpow_eq_multiple (a := quantum f x) (b := Int.log 2 y) (by omega)
    calc roundMagnitude f x ≤ (2 : ℚ) ^ Int.log 2 y := by
          rw [ex]
          exact roundMagnitude_le_multiple _ (ex ▸ hhigh)
      _ ≤ roundMagnitude f y := by
          rw [ey]
          exact multiple_le_roundMagnitude _ (ey ▸ hlow)
  · exact roundMagnitude_le_of_same h heq

namespace Number

/-- The order of the format, with which `NaN` compares as false. -/
def lt : Number → Number → Bool
  | nan, _ => false
  | _, nan => false
  | _, inf true => false
  | inf true, _ => true
  | inf false, _ => false
  | fin _, inf false => true
  | fin a, fin b => decide (a < b)

/-- Numeric equality, with which `NaN` differs from itself. -/
def eqv (a b : Number) : Bool := a ≠ nan && a = b

def le (a b : Number) : Bool := lt a b || eqv a b

def isNaN (a : Number) : Bool := a = nan

def IsFinite : Number → Prop
  | fin _ => True
  | _ => False

instance (a : Number) : Decidable a.IsFinite := by
  cases a <;> unfold IsFinite <;> infer_instance

def neg : Number → Number
  | nan => nan
  | inf s => inf (!s)
  | fin q => fin (-q)

def abs : Number → Number
  | nan => nan
  | inf _ => inf false
  | fin q => fin |q|

def add : Number → Number → Number
  | nan, _ => nan
  | _, nan => nan
  | inf s, inf t => if s = t then inf s else nan
  | inf s, fin _ => inf s
  | fin _, inf t => inf t
  | fin a, fin b => round binary64 (a + b)

def sub (a b : Number) : Number := add a (neg b)

def mul : Number → Number → Number
  | nan, _ => nan
  | _, nan => nan
  | inf s, inf t => inf (s != t)
  | inf s, fin q => if q = 0 then nan else inf (s != decide (q < 0))
  | fin q, inf s => if q = 0 then nan else inf (s != decide (q < 0))
  | fin a, fin b => round binary64 (a * b)

protected theorem mul_comm (a b : Number) : mul a b = mul b a := by
  cases a with
  | nan => cases b <;> rfl
  | inf s =>
    cases b with
    | nan => rfl
    | inf t => simp only [mul, bne_comm]
    | fin q => rfl
  | fin p =>
    cases b with
    | nan => rfl
    | inf t => rfl
    | fin q =>
      have h : p * q = q * p := by ring
      simp only [mul, h]

@[simp] theorem lt_fin (a b : ℚ) : lt (fin a) (fin b) = decide (a < b) := rfl

@[simp] theorem eqv_fin (a b : ℚ) : eqv (fin a) (fin b) = decide (a = b) := by
  simp [eqv]

theorem eqv_iff {a b : Number} : eqv a b = true ↔ a ≠ nan ∧ a = b := by
  simp [eqv]

@[simp] theorem eqv_nan_left (a : Number) : eqv nan a = false := by simp [eqv]

theorem lt_trans {a b c : Number} (hab : lt a b = true) (hbc : lt b c = true) :
    lt a c = true := by
  rcases a with _ | (_ | _) | a <;> rcases b with _ | (_ | _) | b <;>
    rcases c with _ | (_ | _) | c <;> simp_all [lt]
  exact hab.trans hbc

theorem lt_irrefl (a : Number) : lt a a = false := by
  rcases a with _ | (_ | _) | a <;> simp [lt]

theorem lt_asymm {a b : Number} (h : lt a b = true) : lt b a = false := by
  cases hb : lt b a with
  | false => rfl
  | true => exact absurd (lt_trans h hb) (by simp [lt_irrefl])

theorem ne_nan_of_lt {a b : Number} (h : lt a b = true) : a ≠ nan ∧ b ≠ nan := by
  constructor
  · rintro rfl
    cases h
  · rintro rfl
    cases a with
    | nan => cases h
    | inf s => cases s <;> cases h
    | fin q => cases h

theorem le_of_lt {a b : Number} (h : lt a b = true) : le a b = true := by simp [le, h]

/-- Numbers other than `NaN` are linearly ordered. -/
theorem le_of_not_lt {a b : Number} (ha : a ≠ nan) (hb : b ≠ nan) (h : lt a b = false) :
    le b a = true := by
  unfold le
  rw [Bool.or_eq_true, eqv_iff]
  rcases a with _ | (_ | _) | a <;> rcases b with _ | (_ | _) | b <;> simp_all [lt]
  exact lt_or_eq_of_le h

theorem not_lt_of_le {a b : Number} (h : le a b = true) : lt b a = false := by
  unfold le at h
  rw [Bool.or_eq_true, eqv_iff] at h
  rcases h with h | ⟨_, rfl⟩
  · exact lt_asymm h
  · exact lt_irrefl a

theorem lt_of_le_of_lt {a b c : Number} (hab : le a b = true) (hbc : lt b c = true) :
    lt a c = true := by
  unfold le at hab
  rw [Bool.or_eq_true, eqv_iff] at hab
  rcases hab with hab | ⟨_, rfl⟩
  · exact lt_trans hab hbc
  · exact hbc

theorem lt_of_lt_of_le {a b c : Number} (hab : lt a b = true) (hbc : le b c = true) :
    lt a c = true := by
  unfold le at hbc
  rw [Bool.or_eq_true, eqv_iff] at hbc
  rcases hbc with hbc | ⟨_, rfl⟩
  · exact lt_trans hab hbc
  · exact hab

theorem IsFinite.ne_nan {a : Number} (h : a.IsFinite) : a ≠ nan := by
  rintro rfl
  exact h

end Number

private theorem ofMagnitude_le (f : Format) {x y : ℚ} (h : x ≤ y) :
    Number.lt (ofMagnitude f false y) (ofMagnitude f false x) = false := by
  simp only [ofMagnitude, Bool.false_eq_true, ite_false]
  split_ifs with hy hx
  · rfl
  · rfl
  · exact absurd (le_trans ‹_› h) hy
  · simpa using h

private theorem ofMagnitude_neg_le (f : Format) {x y : ℚ} (h : y ≤ x) :
    Number.lt (ofMagnitude f true y) (ofMagnitude f true x) = false := by
  simp only [ofMagnitude, ite_true]
  split_ifs with hy hx
  · rfl
  · exact absurd (le_trans hy h) hx
  · rfl
  · simpa using h

private theorem ofMagnitude_sign (f : Format) {x y : ℚ} (hx : 0 ≤ x) (hy : 0 ≤ y) :
    Number.lt (ofMagnitude f false y) (ofMagnitude f true x) = false := by
  simp only [ofMagnitude, Bool.false_eq_true, ite_false, ite_true]
  split_ifs
  · rfl
  · rfl
  · rfl
  · simp only [Number.lt_fin, decide_eq_false_iff_not, not_lt]
    linarith

/-- Rounding is monotone: the order of two exact results is never reversed. -/
theorem round_mono (f : Format) (hf : 1 ≤ f.precision) {x y : ℚ} (h : x ≤ y) :
    Number.lt (round f y) (round f x) = false := by
  unfold round
  split_ifs with hy hx hx
  · exact ofMagnitude_neg_le f (roundMagnitude_mono f hf (by linarith) (by linarith))
  · exfalso
    linarith
  · exact ofMagnitude_sign f (roundMagnitude_nonneg f (by linarith))
      (roundMagnitude_nonneg f (by linarith))
  · exact ofMagnitude_le f (roundMagnitude_mono f hf (by linarith) h)

/-- Natural numbers up to two to the precision are exact in binary64. -/
theorem round_natCast {n : ℕ} (h : n ≤ 2 ^ 53) : round binary64 n = .fin n := by
  have hlog : Int.log 2 (n : ℚ) = (Nat.log 2 n : ℕ) := Int.log_natCast 2 n
  have hle : Nat.log 2 n ≤ 53 := by
    calc Nat.log 2 n ≤ Nat.log 2 (2 ^ 53) := Nat.log_mono_right h
      _ = 53 := Nat.log_pow (by norm_num) 53
  have hq : quantum binary64 n = (Nat.log 2 n : ℤ) - 52 := by
    simp only [quantum, binary64, hlog]
    omega
  have hmag : roundMagnitude binary64 n = n := by
    by_cases hs : Nat.log 2 n ≤ 52
    · -- the quantum is at most one, so `n` is a whole number of quanta
      have e := zpow_eq_multiple (a := quantum binary64 n) (b := 0) (by omega)
      refine roundMagnitude_exact _ (n * ((2 ^ (0 - quantum binary64 n).toNat : ℕ) : ℤ)) ?_
      rw [Int.cast_mul, mul_assoc, ← e]
      simp
    · have h53 : Nat.log 2 n = 53 := by omega
      have hn : n = 2 ^ 53 := by
        have hpow := Nat.pow_log_le_self 2 (x := n) (by rintro rfl; simp at h53)
        rw [h53] at hpow
        omega
      have hq1 : quantum binary64 n = 1 := by omega
      refine roundMagnitude_exact _ (2 ^ 52) ?_
      rw [hq1, hn]
      norm_num
  have hpos : ¬ ((n : ℚ) < 0) := by
    have : (0 : ℚ) ≤ n := Nat.cast_nonneg n
    linarith
  have hsmall : ¬ ((2 : ℚ) ^ binary64.maxExponent ≤ n) := by
    have hn : (n : ℚ) ≤ (2 : ℚ) ^ (53 : ℕ) := by exact_mod_cast h
    have hlt : (2 : ℚ) ^ (53 : ℕ) < (2 : ℚ) ^ binary64.maxExponent := by
      rw [← zpow_natCast]
      exact zpow_lt_zpow_right₀ (by norm_num) (by decide)
    exact not_le.mpr (hn.trans_lt hlt)
  rw [round, if_neg hpos, hmag, ofMagnitude, if_neg hsmall, if_neg Bool.false_ne_true]

namespace Number

theorem add_natCast_one {n : ℕ} (h : n + 1 ≤ 2 ^ 53) : add (fin n) (fin 1) = fin ((n + 1 : ℕ) : ℚ) := by
  have hr := round_natCast h
  simpa [add] using hr

/-- Widening a number by a finite half-width keeps the two ends in order. -/
theorem sub_le_add (x : Number) {w : ℚ} (hw : 0 ≤ w) : lt (add x (fin w)) (sub x (fin w)) = false := by
  rcases x with _ | (_ | _) | x
  · rfl
  · rfl
  · rfl
  · exact round_mono binary64 (by decide) (by linarith)

end Number

end JsonScada.Lib.Binary64
