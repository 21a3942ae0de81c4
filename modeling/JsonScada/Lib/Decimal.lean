/- path: JsonScada/Lib/Decimal
   layer: library
   digest: The shortest decimal of a double, and the integer read back from its text. -/

import JsonScada.Lib.EcmaScript
import JsonScada.Lib.Interchange
import Mathlib.Algebra.Order.Floor.Semifield
import Mathlib.Tactic.IntervalCases

set_option autoImplicit false
set_option relaxedAutoImplicit false

namespace JsonScada.Lib.Decimal

open JsonScada.Lib.Binary64 JsonScada.Lib.Binary64.Format JsonScada.Lib.EcmaScript

section Nearest

theorem nearestEven_of_near {x : ℚ} {m : ℤ} (h : |x - m| < 1 / 2) : nearestEven x = m := by
  obtain ⟨hlow, hhigh⟩ := abs_lt.mp h
  by_cases hm : (m : ℚ) ≤ x
  · have hfloor : ⌊x⌋ = m := Int.floor_eq_iff.mpr ⟨hm, by linarith⟩
    unfold nearestEven
    dsimp only
    rw [hfloor, if_pos hhigh]
  · have hfloor : ⌊x⌋ = m - 1 := by
      refine Int.floor_eq_iff.mpr ⟨?_, ?_⟩
      · push_cast
        linarith
      · push_cast
        linarith
    unfold nearestEven
    dsimp only
    rw [hfloor, if_neg (by push_cast; linarith), if_pos (by push_cast; linarith)]
    omega

theorem roundMagnitude_of_near {f : Format} {q d : ℚ} (m : ℤ) (hm : q = m * 2 ^ quantum f d)
    (h : |d - q| < 2 ^ quantum f d / 2) : roundMagnitude f d = q := by
  have hpos : (0 : ℚ) < 2 ^ quantum f d := zpow_pos (by norm_num) _
  have hnear : |d / 2 ^ quantum f d - m| < 1 / 2 := by
    have heq : d / 2 ^ quantum f d - m = (d - q) / 2 ^ quantum f d := by
      rw [hm]
      field_simp
    rw [heq, abs_div, abs_of_pos hpos, div_lt_iff₀ hpos]
    linarith
  rw [roundMagnitude, nearestEven_of_near hnear, ← hm]

theorem log_bounds {q : ℚ} (h : 0 < q) :
    (2 : ℚ) ^ Int.log 2 q ≤ q ∧ q < (2 : ℚ) ^ (Int.log 2 q + 1) := by
  constructor
  · exact_mod_cast Int.zpow_log_le_self (b := 2) (by norm_num) h
  · exact_mod_cast Int.lt_zpow_succ_log_self (b := 2) (by norm_num) q

theorem lt_of_quantum_lt {d : ℚ} {e : ℤ} (hd : 0 < d) (h : quantum binary64 d < e) :
    d < 2 ^ 52 * 2 ^ e := by
  have hlog : Int.log 2 d + 1 ≤ 52 + e := by
    simp only [quantum, binary64] at h
    omega
  calc d < 2 ^ (Int.log 2 d + 1) := (log_bounds hd).2
    _ ≤ 2 ^ (52 + e) := zpow_le_zpow_right₀ (by norm_num) hlog
    _ = 2 ^ 52 * 2 ^ e := by
      rw [zpow_add₀ (by norm_num)]
      norm_cast

theorem le_of_lt_quantum {d : ℚ} {e : ℤ} (hd : 0 < d) (hmin : -1074 ≤ e)
    (h : e < quantum binary64 d) : 2 ^ 53 * 2 ^ e ≤ d := by
  have hlog : 53 + e ≤ Int.log 2 d := by
    simp only [quantum, binary64] at h
    omega
  calc (2 : ℚ) ^ 53 * 2 ^ e = 2 ^ (53 + e) := by
        rw [zpow_add₀ (by norm_num)]
        norm_cast
    _ ≤ 2 ^ Int.log 2 d := zpow_le_zpow_right₀ (by norm_num) hlog
    _ ≤ d := (log_bounds hd).1

/-- Numbers whose distance from a double is small beside it are rounded to it. -/
theorem roundMagnitude_of_close {q d : ℚ} (hq : 0 < q) (hround : roundMagnitude binary64 q = q)
    (hd : 0 < d) (h : |d - q| ≤ q / (2 * 10 ^ 16)) : roundMagnitude binary64 d = q := by
  obtain ⟨n, hn⟩ := exists_significand hq hround
  obtain ⟨hupper, hlower⟩ := significand_bounds (f := binary64) ⟨by decide, by decide⟩ hq hn
  have hunit : binary64.unit = 2 ^ 52 := rfl
  rw [hunit] at hupper hlower
  have hmin : -1074 ≤ quantum binary64 q := le_max_right _ _
  generalize he : quantum binary64 q = e at hn hlower hmin
  have hpos : (0 : ℚ) < 2 ^ e := zpow_pos (by norm_num) _
  have hupperq : (n : ℚ) ≤ 2 ^ 53 - 1 := by
    have hle : n + 1 ≤ 2 ^ 53 := by omega
    have hcast : (n : ℚ) + 1 ≤ 2 ^ 53 := by exact_mod_cast hle
    linarith
  have hscaled : |d - q| ≤ n / (2 * 10 ^ 16) * 2 ^ e := by
    rw [div_mul_eq_mul_div, ← hn]
    exact h
  have hhalf : |d - q| < 2 ^ e / 2 := by
    have hlt : (n : ℚ) / (2 * 10 ^ 16) < 1 / 2 := by
      rw [div_lt_div_iff₀ (by norm_num) (by norm_num)]
      linarith
    calc |d - q| ≤ n / (2 * 10 ^ 16) * 2 ^ e := hscaled
      _ < 1 / 2 * 2 ^ e := mul_lt_mul_of_pos_right hlt hpos
      _ = 2 ^ e / 2 := by ring
  obtain ⟨hbelow, habove⟩ := abs_lt.mp hhalf
  rcases lt_trichotomy (quantum binary64 d) e with hlt | heq | hgt
  · -- only below a power of two does the number have a smaller quantum
    have hdlt := lt_of_quantum_lt hd hlt
    have hdmin : -1074 ≤ quantum binary64 d := le_max_right _ _
    have hnlow : 2 ^ 52 ≤ n := hlower (by change -1074 < e; omega)
    have hnq : (2 : ℚ) ^ 52 ≤ n := by exact_mod_cast hnlow
    have hneq : n = 2 ^ 52 := by
      by_contra hne
      have hsucc : (2 : ℚ) ^ 52 + 1 ≤ n := by exact_mod_cast (by omega : 2 ^ 52 + 1 ≤ n)
      have hfar : (2 ^ 52 + 1) * 2 ^ e ≤ q := hn ▸ mul_le_mul_of_nonneg_right hsucc hpos.le
      linarith
    have hquarter : |d - q| < 2 ^ e / 4 := by
      calc |d - q| ≤ n / (2 * 10 ^ 16) * 2 ^ e := hscaled
        _ < 1 / 4 * 2 ^ e := by
          rw [hneq]
          exact mul_lt_mul_of_pos_right (by norm_num) hpos
        _ = 2 ^ e / 4 := by ring
    have hqpow : q = 2 ^ 52 * 2 ^ e := by
      rw [hn, hneq]
      norm_cast
    have hquantum : quantum binary64 d = e - 1 := by
      by_contra hne
      have hfar := lt_of_quantum_lt (e := e - 1) hd (by omega)
      rw [zpow_sub_one₀ (by norm_num)] at hfar
      linarith
    have hprev : (2 : ℚ) ^ (e - 1) = 2 ^ e / 2 := by
      rw [zpow_sub_one₀ (by norm_num)]
      ring
    refine roundMagnitude_of_near (2 ^ 53) ?_ ?_
    · rw [hquantum, hprev, hqpow]
      push_cast
      ring
    · rw [hquantum, hprev]
      linarith
  · exact roundMagnitude_of_near n (by rw [heq]; exact_mod_cast hn) (by rwa [heq])
  · have hfar := le_of_lt_quantum hd hmin hgt
    have hle : q ≤ (2 ^ 53 - 1) * 2 ^ e := hn ▸ mul_le_mul_of_nonneg_right hupperq hpos.le
    linarith

end Nearest

section Shortest

/-- The position of the decimal point: `q` is below ten to it. -/
def point (q : ℚ) : ℤ := Int.log 10 q + 1

/-- The number of `k` digits nearest to `q`. -/
def nearestDigits (q : ℚ) (k : ℕ) : ℕ := (nearestEven (q / 10 ^ (point q - k))).toNat

theorem ten_zpow_pos (e : ℤ) : (0 : ℚ) < 10 ^ e := zpow_pos (by norm_num) e

theorem abs_sub_nearestEven_le (x : ℚ) : |x - nearestEven x| ≤ 1 / 2 := by
  have hlow := Int.floor_le x
  have hhigh := Int.lt_floor_add_one x
  unfold nearestEven
  dsimp only
  split_ifs <;> rw [abs_le] <;> push_cast <;> constructor <;> linarith

theorem point_bounds {q : ℚ} (h : 0 < q) :
    (10 : ℚ) ^ (point q - 1) ≤ q ∧ q < (10 : ℚ) ^ point q := by
  constructor
  · rw [point, add_sub_cancel_right]
    exact_mod_cast Int.zpow_log_le_self (b := 10) (by norm_num) h
  · exact_mod_cast Int.lt_zpow_succ_log_self (b := 10) (by norm_num) q

theorem scaled_bounds {q : ℚ} (h : 0 < q) {k : ℕ} (hk : 0 < k) :
    ((10 ^ (k - 1) : ℕ) : ℤ) ≤ q / 10 ^ (point q - k) ∧
      q / 10 ^ (point q - k) ≤ ((10 ^ k : ℕ) : ℤ) := by
  obtain ⟨hlow, hhigh⟩ := point_bounds h
  constructor
  · rw [le_div_iff₀ (ten_zpow_pos _)]
    refine le_trans (le_of_eq ?_) hlow
    push_cast
    rw [← zpow_natCast, ← zpow_add₀ (by norm_num)]
    congr 1
    omega
  · rw [div_le_iff₀ (ten_zpow_pos _)]
    refine hhigh.le.trans (le_of_eq ?_)
    push_cast
    rw [← zpow_natCast, ← zpow_add₀ (by norm_num)]
    congr 1
    omega

theorem nearestDigits_bounds {q : ℚ} (h : 0 < q) {k : ℕ} (hk : 0 < k) :
    10 ^ (k - 1) ≤ nearestDigits q k ∧ nearestDigits q k ≤ 10 ^ k := by
  obtain ⟨hlow, hhigh⟩ := scaled_bounds h hk
  have hle := nearestEven_mono hlow
  have hge := nearestEven_mono hhigh
  rw [nearestEven_intCast] at hle hge
  exact ⟨Int.ofNat_le.mp (hle.trans (Int.self_le_toNat _)), Int.toNat_le.mpr hge⟩

theorem cast_nearestDigits {q : ℚ} (h : 0 < q) {k : ℕ} (hk : 0 < k) :
    (nearestDigits q k : ℚ) = nearestEven (q / 10 ^ (point q - k)) := by
  have hle := nearestEven_mono (scaled_bounds h hk).1
  rw [nearestEven_intCast] at hle
  have hcast : ((nearestDigits q k : ℕ) : ℤ) = nearestEven (q / 10 ^ (point q - k)) :=
    Int.toNat_of_nonneg (le_trans (Int.natCast_nonneg _) hle)
  exact_mod_cast hcast

/-- The double is read back from its nearest number of `k` digits. -/
def Suffices (q : ℚ) (k : ℕ) : Prop :=
  round binary64 (nearestDigits q k * 10 ^ (point q - k)) = .fin q

instance (q : ℚ) (k : ℕ) : Decidable (Suffices q k) :=
  inferInstanceAs (Decidable (round binary64 _ = .fin q))

theorem round_eq_of_magnitude {q d : ℚ} (hq : 0 ≤ q) (hd : 0 ≤ d) (hr : round binary64 q = .fin q)
    (h : roundMagnitude binary64 d = q) : round binary64 d = .fin q := by
  have hmag := (round_of_nonneg hq hr).1
  rw [← hr]
  unfold Binary64.round
  rw [if_neg (not_lt.mpr hd), if_neg (not_lt.mpr hq), h, hmag]

/-- Seventeen digits tell every double from its neighbours. -/
theorem suffices_seventeen {q : ℚ} (h : 0 < q) (hr : round binary64 q = .fin q) :
    Suffices q 17 := by
  have hpos := ten_zpow_pos (point q - (17 : ℕ))
  obtain ⟨hlow, hhigh⟩ := nearestDigits_bounds h (k := 17) (by norm_num)
  have hdpos : (0 : ℚ) < nearestDigits q 17 * 10 ^ (point q - (17 : ℕ)) := by
    have hnat : 0 < nearestDigits q 17 := by omega
    have hcast : (0 : ℚ) < nearestDigits q 17 := by exact_mod_cast hnat
    exact mul_pos hcast hpos
  refine round_eq_of_magnitude h.le hdpos.le hr ?_
  refine roundMagnitude_of_close h (round_of_nonneg h.le hr).1 hdpos ?_
  have hhalf := abs_sub_nearestEven_le (q / 10 ^ (point q - (17 : ℕ)))
  rw [← cast_nearestDigits h (by norm_num), abs_sub_comm] at hhalf
  have hsplit : nearestDigits q 17 * (10 : ℚ) ^ (point q - (17 : ℕ)) - q =
      (nearestDigits q 17 - q / 10 ^ (point q - (17 : ℕ))) * 10 ^ (point q - (17 : ℕ)) := by
    field_simp
  have hunit : (10 : ℚ) ^ (point q - (17 : ℕ)) ≤ q / 10 ^ 16 := by
    rw [le_div_iff₀ (by norm_num)]
    refine le_trans (le_of_eq ?_) (point_bounds h).1
    rw [← zpow_natCast, ← zpow_add₀ (by norm_num)]
    congr 1
    omega
  calc |nearestDigits q 17 * (10 : ℚ) ^ (point q - (17 : ℕ)) - q|
      = |nearestDigits q 17 - q / 10 ^ (point q - (17 : ℕ))| * 10 ^ (point q - (17 : ℕ)) := by
        rw [hsplit, abs_mul, abs_of_pos hpos]
    _ ≤ 1 / 2 * (q / 10 ^ 16) := mul_le_mul hhalf hunit hpos.le (by norm_num)
    _ = q / (2 * 10 ^ 16) := by ring

/-- A whole number needs no digits behind the point. -/
theorem suffices_of_integer {z k : ℕ} (hr : round binary64 z = .fin z)
    (hk : point (z : ℚ) = k) : Suffices z k := by
  have hpoint : point (z : ℚ) - k = 0 := by omega
  have hnearest : nearestDigits (z : ℚ) k = z := by
    unfold nearestDigits
    rw [hpoint, zpow_zero, div_one]
    exact congrArg Int.toNat (nearestEven_intCast (z : ℤ))
  unfold Suffices
  rw [hnearest, hpoint, zpow_zero, mul_one, hr]

/-- The number of digits of the shortest text. -/
def digitCount (q : ℚ) : ℕ :=
  (((List.range 17).map (· + 1)).find? fun k => Suffices q k).getD 17

theorem shortestDigits_eq (q : ℚ) :
    shortestDigits q =
      if nearestDigits q (digitCount q) = 10 ^ digitCount q then (['1'], point q + 1)
      else (Nat.toDigits 10 (nearestDigits q (digitCount q)), point q) := rfl

/-- The count is the first that suffices. -/
theorem digitCount_spec {q : ℚ} (h : 0 < q) (hr : round binary64 q = .fin q) :
    0 < digitCount q ∧ digitCount q ≤ 17 ∧ Suffices q (digitCount q) ∧
      ∀ k, 0 < k → Suffices q k → digitCount q ≤ k := by
  unfold digitCount
  rw [List.find?_map]
  cases hfind : (List.range 17).find? ((fun k => decide (Suffices q k)) ∘ (· + 1)) with
  | none =>
    have hnone := List.find?_range_eq_none.mp hfind 16 (by norm_num)
    simp [suffices_seventeen h hr] at hnone
  | some i =>
    obtain ⟨hgood, hmem, hfirst⟩ := List.find?_range_eq_some.mp hfind
    have hi := List.mem_range.mp hmem
    refine ⟨Nat.succ_pos i, hi, of_decide_eq_true hgood, ?_⟩
    intro k hk hsuffices
    by_contra hlt
    simp only [Option.map_some, Option.getD_some, not_le] at hlt
    have hno := hfirst (k - 1) (by omega)
    rw [Function.comp_apply, Nat.sub_add_cancel hk] at hno
    simp [hsuffices] at hno

theorem length_toDigits_eq {m k : ℕ} (hk : 0 < k) (hlow : 10 ^ (k - 1) ≤ m) (hhigh : m < 10 ^ k) :
    (Nat.toDigits 10 m).length = k := by
  have hle := (Nat.length_toDigits_le_iff (b := 10) (by norm_num) hk).mpr hhigh
  have hpos : 0 < (Nat.toDigits 10 m).length := Nat.length_toDigits_pos
  by_contra hne
  have hlt := (Nat.length_toDigits_le_iff (b := 10) (n := m) (k := k - 1) (by norm_num)
    (by omega)).mp (by omega)
  omega

/-- The digits and the point of the shortest text stand for a number that is read
back as the double; of a whole number they are the digits before the point. -/
theorem exists_shortestDigits {q : ℚ} (h : 0 < q) (hr : round binary64 q = .fin q) :
    ∃ m : ℕ, 0 < m ∧ (shortestDigits q).1 = Nat.toDigits 10 m ∧
      round binary64 (m * 10 ^ ((shortestDigits q).2 - (Nat.toDigits 10 m).length)) = .fin q ∧
      ((∃ z : ℕ, q = z) → ((Nat.toDigits 10 m).length : ℤ) ≤ (shortestDigits q).2) := by
  obtain ⟨hpos, hseventeen, hsuffices, hfirst⟩ := digitCount_spec h hr
  obtain ⟨hlow, hhigh⟩ := nearestDigits_bounds h hpos
  have hinteger : (∃ z : ℕ, q = z) → (digitCount q : ℤ) ≤ point q := by
    rintro ⟨z, rfl⟩
    have hone : (1 : ℚ) < 10 ^ point (z : ℚ) := by
      have hz : (1 : ℚ) ≤ z := by exact_mod_cast (Nat.cast_pos.mp h : 0 < z)
      exact lt_of_le_of_lt hz (point_bounds h).2
    have hpoint : 0 < point (z : ℚ) := (one_lt_zpow_iff_right₀ (by norm_num)).mp hone
    have hle := hfirst (point (z : ℚ)).toNat (by omega) (suffices_of_integer hr (by omega))
    omega
  unfold Suffices at hsuffices
  rw [shortestDigits_eq]
  by_cases hcarry : nearestDigits q (digitCount q) = 10 ^ digitCount q
  · -- the nearest number carries into one more digit
    have hone : Nat.toDigits 10 1 = ['1'] := by decide
    refine ⟨1, one_pos, by rw [if_pos hcarry, hone], ?_, ?_⟩
    · rw [if_pos hcarry, hone, ← hsuffices, hcarry]
      push_cast
      rw [← zpow_natCast, ← zpow_add₀ (by norm_num), one_mul]
      congr 2
      simp only [List.length_singleton]
      omega
    · intro hz
      have hle := hinteger hz
      rw [if_pos hcarry, hone]
      simp only [List.length_singleton]
      omega
  · have hlength := length_toDigits_eq hpos hlow (lt_of_le_of_ne hhigh hcarry)
    refine ⟨nearestDigits q (digitCount q), ?_, by rw [if_neg hcarry], ?_, ?_⟩
    · exact lt_of_lt_of_le (by positivity) hlow
    · rw [if_neg hcarry, hlength, hsuffices]
    · rw [if_neg hcarry, hlength]
      exact hinteger

end Shortest

section Reading

theorem digit_mem {c : Char} (h : c.isDigit = true) : c ∈ "0123456789".toList := by
  rw [Char.isDigit_iff_toNat] at h
  have hnine : c.toNat ≤ 57 := h.2
  have hzero : 48 ≤ c.toNat := h.1
  rw [← Char.ofNat_toNat c]
  interval_cases c.toNat <;> decide

theorem digit_facts {c : Char} (h : c.isDigit = true) :
    isWhite c = false ∧ digitValue 10 c = some (c.toNat - '0'.toNat) ∧ c ≠ '+' ∧ c ≠ '-' ∧
      c ≠ 'x' ∧ c ≠ 'X' ∧ c.toNat - '0'.toNat < 10 := by
  have hall : "0123456789".toList.all (fun c => isWhite c = false ∧
      digitValue 10 c = some (c.toNat - '0'.toNat) ∧ c ≠ '+' ∧ c ≠ '-' ∧ c ≠ 'x' ∧ c ≠ 'X' ∧
        c.toNat - '0'.toNat < 10) = true := by decide
  exact of_decide_eq_true (List.all_eq_true.mp hall c (digit_mem h))

/-- What follows the digits does not go on with them. -/
def Ends (rest : List Char) : Prop := ∀ c ∈ rest.head?, c = '.' ∨ c = 'e'

theorem spanDigits_of_ends {rest : List Char} (h : Ends rest) :
    spanDigits 10 rest = ([], rest) := by
  cases rest with
  | nil => rfl
  | cons c cs =>
    have hnone : digitValue 10 c = none := by
      rcases h c rfl with rfl | rfl <;> decide
    rw [spanDigits, hnone]

theorem spanDigits_append {cs rest : List Char} (hcs : ∀ c ∈ cs, c.isDigit = true)
    (h : Ends rest) :
    (spanDigits 10 (cs ++ rest)).1 = cs.map fun c => c.toNat - '0'.toNat := by
  induction cs with
  | nil => rw [List.nil_append, spanDigits_of_ends h, List.map_nil]
  | cons c cs ih =>
    rw [List.forall_mem_cons] at hcs
    rw [List.cons_append, spanDigits, (digit_facts hcs.1).2.1]
    exact congrArg _ (ih hcs.2)

theorem ofDigits_map (cs : List Char) :
    ofDigits 10 (cs.map fun c => c.toNat - '0'.toNat) = Nat.ofDigitChars 10 cs 0 := by
  rw [ofDigits, List.foldl_map, Nat.ofDigitChars_eq_foldl]
  congr 1
  funext n c
  rw [Nat.mul_comm]

theorem radixPart_digits {c : Char} {cs rest : List Char} (hc : c.isDigit = true)
    (hcs : ∀ d ∈ cs, d.isDigit = true) (h : Ends rest) :
    radixPart (c :: (cs ++ rest)) = (10, c :: (cs ++ rest)) := by
  have hnext : ∀ d ∈ (cs ++ rest).head?, d ≠ 'x' ∧ d ≠ 'X' := by
    cases cs with
    | nil =>
      intro d hd
      rcases h d hd with rfl | rfl <;> decide
    | cons d ds =>
      rintro e ⟨⟩
      obtain ⟨-, -, -, -, hx, hX, -⟩ := digit_facts (hcs d List.mem_cons_self)
      exact ⟨hx, hX⟩
  generalize cs ++ rest = ds at hnext
  cases ds with
  | nil => simp [radixPart]
  | cons d ds =>
    obtain ⟨hx, hX⟩ := hnext d rfl
    unfold radixPart
    split
    · rename_i heq
      cases heq
      exact absurd rfl hx
    · rename_i heq
      cases heq
      exact absurd rfl hX
    · rfl

/-- The integer read from digits is rounded once. -/
theorem parseInt_digits {cs rest : List Char} (hne : cs ≠ []) (hcs : ∀ c ∈ cs, c.isDigit = true)
    (h : Ends rest) :
    parseInt (cs ++ rest) = round binary64 (Nat.ofDigitChars 10 cs 0) ∧
      parseInt ('-' :: (cs ++ rest)) = (round binary64 (Nat.ofDigitChars 10 cs 0)).neg := by
  have hspan := spanDigits_append hcs h
  have hdigits := ofDigits_map cs
  cases cs with
  | nil => exact absurd rfl hne
  | cons c cs =>
    rw [List.forall_mem_cons] at hcs
    obtain ⟨hwhite, -, hplus, hminus, -⟩ := digit_facts hcs.1
    have hradix := radixPart_digits hcs.1 hcs.2 h
    have hsign : signPart (c :: (cs ++ rest)) = (false, c :: (cs ++ rest)) := by
      simp [signPart, hplus, hminus]
    have htrim : trimStart (c :: (cs ++ rest)) = c :: (cs ++ rest) := by
      rw [trimStart, List.dropWhile_cons, hwhite]
      rfl
    have htrimneg : trimStart ('-' :: c :: (cs ++ rest)) = '-' :: c :: (cs ++ rest) := rfl
    rw [List.cons_append] at hspan ⊢
    rw [List.map_cons] at hspan hdigits
    constructor
    · simp only [parseInt, htrim, hsign, hradix, hspan, hdigits, Bool.false_eq_true, if_false]
    · simp only [parseInt, htrimneg, signPart, hradix, hspan, hdigits, if_true]

theorem ofDigitChars_lt {cs : List Char} (h : ∀ c ∈ cs, c.isDigit = true) :
    Nat.ofDigitChars 10 cs 0 < 10 ^ cs.length := by
  induction cs with
  | nil => simp
  | cons c cs ih =>
    rw [List.forall_mem_cons] at h
    have hc := (digit_facts h.1).2.2.2.2.2.2
    have hlt := ih h.2
    rw [Nat.ofDigitChars_cons, Nat.ofDigitChars_eq_ofDigitChars_zero, List.length_cons, pow_succ]
    have hnine : 10 * 0 + (c.toNat - '0'.toNat) ≤ 9 := by omega
    have hmul := Nat.mul_le_mul_left (10 ^ cs.length) hnine
    omega

theorem isDigit_toDigits {m : ℕ} {c : Char} (h : c ∈ Nat.toDigits 10 m) : c.isDigit = true :=
  Nat.isDigit_of_mem_toDigits (by norm_num) (by norm_num) h

/-- The first digits of a number are its quotient by a power of ten. -/
theorem ofDigitChars_take (m k : ℕ) :
    Nat.ofDigitChars 10 ((Nat.toDigits 10 m).take k) 0 =
      m / 10 ^ ((Nat.toDigits 10 m).length - k) := by
  have hlt := ofDigitChars_lt fun c hc =>
    isDigit_toDigits (m := m) (List.mem_of_mem_drop (i := k) hc)
  have hwhole : Nat.ofDigitChars 10 (Nat.toDigits 10 m) 0 = m := Nat.ofDigitChars_ten_toDigits
  rw [← List.take_append_drop k (Nat.toDigits 10 m), Nat.ofDigitChars_append,
    Nat.ofDigitChars_eq_ofDigitChars_zero, List.length_drop] at hwhole
  rw [List.length_drop] at hlt
  have hpos : 0 < 10 ^ ((Nat.toDigits 10 m).length - k) := by positivity
  generalize Nat.toDigits 10 m = ds at *
  rw [← hwhole, Nat.mul_add_div hpos, Nat.div_eq_of_lt hlt, Nat.add_zero]

theorem toDigits_lt (m : ℕ) : m < 10 ^ (Nat.toDigits 10 m).length :=
  (Nat.length_toDigits_le_iff (by norm_num) Nat.length_toDigits_pos).mp le_rfl

theorem toDigits_le {m : ℕ} (hm : 0 < m) : 10 ^ ((Nat.toDigits 10 m).length - 1) ≤ m := by
  rcases Nat.lt_or_ge 1 (Nat.toDigits 10 m).length with hmany | hone
  · by_contra hless
    have hshort := (Nat.length_toDigits_le_iff (b := 10) (n := m) (by norm_num)
      (by omega : 0 < (Nat.toDigits 10 m).length - 1)).mpr (by omega)
    omega
  · rw [show (Nat.toDigits 10 m).length - 1 = 0 by omega]
    omega

theorem value_nonneg (m : ℕ) (e : ℤ) : (0 : ℚ) ≤ m * 10 ^ e :=
  mul_nonneg (Nat.cast_nonneg m) (ten_zpow_pos e).le

/-- Digits put before the point at `n` stand for a number between two powers of ten. -/
theorem value_bounds {m : ℕ} (hm : 0 < m) (n : ℤ) :
    (10 : ℚ) ^ (n - 1) ≤ m * 10 ^ (n - (Nat.toDigits 10 m).length) ∧
      (m : ℚ) * 10 ^ (n - (Nat.toDigits 10 m).length) < 10 ^ n := by
  have hlength : 0 < (Nat.toDigits 10 m).length := Nat.length_toDigits_pos
  constructor
  · have hmq : (10 : ℚ) ^ ((Nat.toDigits 10 m).length - 1) ≤ m := by exact_mod_cast toDigits_le hm
    refine le_trans (le_of_eq ?_) (mul_le_mul_of_nonneg_right hmq (ten_zpow_pos _).le)
    rw [← zpow_natCast, ← zpow_add₀ (by norm_num)]
    congr 1
    omega
  · have hmq : (m : ℚ) < 10 ^ (Nat.toDigits 10 m).length := by exact_mod_cast toDigits_lt m
    refine lt_of_lt_of_le (mul_lt_mul_of_pos_right hmq (ten_zpow_pos _)) (le_of_eq ?_)
    rw [← zpow_natCast, ← zpow_add₀ (by norm_num)]
    congr 1
    omega

section Point

variable {m : ℕ} {n : ℤ}

theorem value_of_length_le (h : ((Nat.toDigits 10 m).length : ℤ) ≤ n) :
    (m : ℚ) * 10 ^ (n - (Nat.toDigits 10 m).length) =
      ((10 ^ (n.toNat - (Nat.toDigits 10 m).length) * m : ℕ) : ℚ) := by
  have hexp : n - (Nat.toDigits 10 m).length =
      ((n.toNat - (Nat.toDigits 10 m).length : ℕ) : ℤ) := by omega
  rw [hexp, zpow_natCast]
  push_cast
  ring

theorem floor_of_lt_length (h : n < (Nat.toDigits 10 m).length) (hpos : 0 < n) :
    ⌊(m : ℚ) * 10 ^ (n - (Nat.toDigits 10 m).length)⌋₊ =
      m / 10 ^ ((Nat.toDigits 10 m).length - n.toNat) := by
  have hexp : n - (Nat.toDigits 10 m).length =
      -(((Nat.toDigits 10 m).length - n.toNat : ℕ) : ℤ) := by omega
  have hdiv := Nat.floor_div_eq_div (K := ℚ) m (10 ^ ((Nat.toDigits 10 m).length - n.toNat))
  push_cast at hdiv
  rw [hexp, zpow_neg, zpow_natCast, ← div_eq_mul_inv]
  exact hdiv

theorem floor_of_nonpos (hm : 0 < m) (h : n ≤ 0) :
    ⌊(m : ℚ) * 10 ^ (n - (Nat.toDigits 10 m).length)⌋₊ = 0 := by
  rw [Nat.floor_eq_zero]
  exact (value_bounds hm n).2.trans_le (zpow_le_one_of_nonpos₀ (by norm_num) h)

/-- Within the positions that need no exponent, a text begins with its whole part. -/
theorem formatDigits_shape (hm : 0 < m) (hlow : -6 < n) (hhigh : n ≤ 21) :
    ∃ cs rest, formatDigits (Nat.toDigits 10 m) n = cs ++ rest ∧ cs ≠ [] ∧
      (∀ c ∈ cs, c.isDigit = true) ∧ Ends rest ∧
      Nat.ofDigitChars 10 cs 0 = ⌊(m : ℚ) * 10 ^ (n - (Nat.toDigits 10 m).length)⌋₊ := by
  have hne : Nat.toDigits 10 m ≠ [] := Nat.toDigits_ne_nil
  unfold formatDigits
  by_cases hwhole : ((Nat.toDigits 10 m).length : ℤ) ≤ n
  · rw [if_pos ⟨hwhole, hhigh⟩]
    refine ⟨_, [], (List.append_nil _).symm, by simp [hne], ?_, (by rintro c ⟨⟩), ?_⟩
    · intro c hc
      rcases List.mem_append.mp hc with hc | hc
      · exact isDigit_toDigits hc
      · rw [List.eq_of_mem_replicate hc]
        rfl
    · rw [Nat.ofDigitChars_append, Nat.ofDigitChars_ten_toDigits,
        Nat.ofDigitChars_replicate_zero, value_of_length_le hwhole, Nat.floor_natCast]
  · rw [if_neg fun h => hwhole h.1]
    by_cases hpos : 0 < n
    · rw [if_pos ⟨hpos, hhigh⟩]
      refine ⟨_, _, rfl, ?_, fun c hc => isDigit_toDigits (List.mem_of_mem_take hc), ?_, ?_⟩
      · simp only [ne_eq, List.take_eq_nil_iff, hne, or_false]
        omega
      · rintro c ⟨⟩
        exact .inl rfl
      · rw [ofDigitChars_take, floor_of_lt_length (not_le.mp hwhole) hpos]
    · rw [if_neg fun h => hpos h.1, if_pos ⟨hlow, not_lt.mp hpos⟩]
      refine ⟨['0'], _, rfl, by simp, ?_, ?_, ?_⟩
      · intro c hc
        rw [List.mem_singleton.mp hc]
        rfl
      · rintro c ⟨⟩
        exact .inl rfl
      · rw [floor_of_nonpos hm (not_lt.mp hpos)]
        rfl

theorem parseInt_formatDigits (hm : 0 < m) (hlow : -6 < n) (hhigh : n ≤ 21) :
    parseInt (formatDigits (Nat.toDigits 10 m) n) =
        round binary64 (⌊(m : ℚ) * 10 ^ (n - (Nat.toDigits 10 m).length)⌋₊ : ℕ) ∧
      parseInt ('-' :: formatDigits (Nat.toDigits 10 m) n) =
        (round binary64 (⌊(m : ℚ) * 10 ^ (n - (Nat.toDigits 10 m).length)⌋₊ : ℕ)).neg := by
  obtain ⟨cs, rest, htext, hne, hcs, hends, hvalue⟩ := formatDigits_shape hm hlow hhigh
  rw [htext, ← hvalue]
  exact parseInt_digits hne hcs hends

/-- Outside them a text begins with one digit, and a point or an exponent. -/
theorem formatDigits_exponent (h : ¬(-6 < n ∧ n ≤ 21)) :
    ∃ rest, Ends rest ∧
      formatDigits (Nat.toDigits 10 m) n = (Nat.toDigits 10 m).take 1 ++ rest := by
  have hlength : 0 < (Nat.toDigits 10 m).length := Nat.length_toDigits_pos
  unfold formatDigits
  rw [if_neg (by omega), if_neg (by omega), if_neg (by omega)]
  split
  · rename_i d heq
    rw [heq]
    refine ⟨formatExponent (n - 1), ?_, rfl⟩
    rintro c ⟨⟩
    exact .inr rfl
  · refine ⟨_, ?_, rfl⟩
    rintro c ⟨⟩
    exact .inl rfl

theorem first_digit_bounds (hm : 0 < m) :
    1 ≤ m / 10 ^ ((Nat.toDigits 10 m).length - 1) ∧
      m / 10 ^ ((Nat.toDigits 10 m).length - 1) < 10 := by
  constructor
  · exact (Nat.one_le_div_iff (by positivity)).mpr (toDigits_le hm)
  · rw [Nat.div_lt_iff_lt_mul (by positivity), ← pow_succ',
      Nat.sub_add_cancel Nat.length_toDigits_pos]
    exact toDigits_lt m

/-- Of a text with an exponent one digit is read. -/
theorem parseInt_formatDigits_exponent (hm : 0 < m) (h : ¬(-6 < n ∧ n ≤ 21)) :
    ∃ d : ℕ, 1 ≤ d ∧ d ≤ 9 ∧ parseInt (formatDigits (Nat.toDigits 10 m) n) = .fin d ∧
      parseInt ('-' :: formatDigits (Nat.toDigits 10 m) n) = .fin (-d) := by
  obtain ⟨rest, hends, htext⟩ := formatDigits_exponent (m := m) h
  obtain ⟨hone, hten⟩ := first_digit_bounds hm
  have hread := @parseInt_digits ((Nat.toDigits 10 m).take 1) rest
    (by simp [List.take_eq_nil_iff, Nat.toDigits_ne_nil])
    (fun c hc => isDigit_toDigits (List.mem_of_mem_take hc)) hends
  have hexact := round_natCast (n := m / 10 ^ ((Nat.toDigits 10 m).length - 1)) (by omega)
  rw [ofDigitChars_take, ← htext, hexact] at hread
  exact ⟨_, hone, by omega, hread⟩

end Point

end Reading

section Whole

variable {q : ℚ}

theorem le_of_round_le {x y a b : ℚ} (hx : round binary64 x = .fin a)
    (hy : round binary64 y = .fin b) (h : x ≤ y) : a ≤ b := by
  have hmono := round_mono binary64 (by decide) h
  rw [hx, hy] at hmono
  simpa [Number.lt] using hmono

/-- The point stands no further than that of the double at a power of ten exactly
for the doubles below it. -/
theorem position_le_iff {r : ℚ} {t : ℤ} (h : 0 < q) (hr : round binary64 q = .fin q)
    (hpow : round binary64 (10 ^ t) = .fin r) (hone : (shortestDigits r).2 = t + 1) :
    (shortestDigits q).2 ≤ t ↔ q < r := by
  obtain ⟨m, hm, -, hread, -⟩ := exists_shortestDigits h hr
  obtain ⟨hlow, hhigh⟩ := value_bounds hm (shortestDigits q).2
  constructor
  · intro hle
    have hten : (10 : ℚ) ^ (shortestDigits q).2 ≤ 10 ^ t := zpow_le_zpow_right₀ (by norm_num) hle
    refine lt_of_le_of_ne (le_of_round_le hread hpow (hhigh.le.trans hten)) ?_
    rintro rfl
    omega
  · intro hlt
    by_contra hgt
    have hten : (10 : ℚ) ^ t ≤ 10 ^ ((shortestDigits q).2 - 1) :=
      zpow_le_zpow_right₀ (by norm_num) (by omega)
    exact absurd (le_of_round_le hpow hread (hten.trans hlow)) (not_le.mpr hlt)

/-- The double at a millionth, the first whose text needs no exponent. -/
def millionth : ℚ := 4722366482869645 / 2 ^ 72

theorem position_le_neg_six (h : 0 < q) (hr : round binary64 q = .fin q) :
    (shortestDigits q).2 ≤ -6 ↔ q < millionth :=
  position_le_iff h hr (by decide +kernel) (by decide +kernel)

theorem position_le_twenty_one (h : 0 < q) (hr : round binary64 q = .fin q) :
    (shortestDigits q).2 ≤ 21 ↔ q < 10 ^ 21 :=
  position_le_iff h hr (by decide +kernel) (by decide +kernel)

/-- From two to the precision on every double is a whole number. -/
theorem exists_natCast_of_large (h : 2 ^ 53 ≤ q) (hr : round binary64 q = .fin q) :
    ∃ z : ℕ, q = z := by
  have hpos : 0 < q := lt_of_lt_of_le (by norm_num) h
  obtain ⟨n, hn⟩ := exists_significand hpos (round_of_nonneg hpos.le hr).1
  have hquantum : 0 ≤ quantum binary64 q := by
    have hlog := Int.log_mono_right (b := 2) (by norm_num) h
    have hpow : Int.log 2 ((2 : ℚ) ^ 53) = 53 := by
      have hzpow := Int.log_zpow (R := ℚ) (b := 2) (by norm_num) 53
      exact_mod_cast hzpow
    rw [hpow] at hlog
    simp only [quantum, binary64]
    omega
  refine ⟨n * 2 ^ (quantum binary64 q).toNat, ?_⟩
  conv_lhs => rw [hn, ← Int.toNat_of_nonneg hquantum]
  push_cast
  rw [zpow_natCast]

/-- A number read back as a double has the whole part of the double, and is whole
where the double is. -/
theorem round_floor {d : ℚ} (hd : 0 ≤ d) (h : 0 < q) (hr : round binary64 q = .fin q)
    (hread : round binary64 d = .fin q) (hwhole : (∃ z : ℕ, q = z) → ∃ w : ℕ, d = w) :
    round binary64 (⌊d⌋₊ : ℕ) = .fin ⌊q⌋₊ := by
  by_cases hinteger : ∃ z : ℕ, q = z
  · obtain ⟨w, rfl⟩ := hwhole hinteger
    obtain ⟨z, rfl⟩ := hinteger
    rw [Nat.floor_natCast, Nat.floor_natCast]
    exact hread
  · have hsmall : q < 2 ^ 53 := by
      by_contra hlarge
      exact hinteger (exists_natCast_of_large (not_lt.mp hlarge) hr)
    have hfloor : ⌊q⌋₊ < 2 ^ 53 := (Nat.floor_lt h.le).mpr (by exact_mod_cast hsmall)
    have heq : ⌊d⌋₊ = ⌊q⌋₊ := by
      rcases lt_trichotomy ⌊d⌋₊ ⌊q⌋₊ with hlt | heq | hgt
      · -- the whole number between them would be the double itself
        have hle := le_of_round_le hread (round_natCast hfloor.le) (Nat.lt_of_floor_lt hlt).le
        exact absurd ⟨_, le_antisymm hle (Nat.floor_le h.le)⟩ hinteger
      · exact heq
      · have hle := le_of_round_le (round_natCast hfloor) hread
          ((Nat.le_floor_iff hd).mp hgt)
        exact absurd (Nat.lt_floor_add_one q) (not_lt.mpr (by exact_mod_cast hle))
    rw [heq]
    exact round_natCast hfloor.le

theorem numToString_fin (q : ℚ) :
    numToString (.fin q) =
      if q = 0 then ['0']
      else if q < 0 then '-' :: formatDigits (shortestDigits (-q)).1 (shortestDigits (-q)).2
      else formatDigits (shortestDigits q).1 (shortestDigits q).2 := rfl

theorem numToString_of_pos (h : 0 < q) :
    numToString (.fin q) = formatDigits (shortestDigits q).1 (shortestDigits q).2 := by
  rw [numToString_fin, if_neg h.ne', if_neg (not_lt.mpr h.le)]

theorem numToString_of_neg (h : q < 0) :
    numToString (.fin q) =
      '-' :: formatDigits (shortestDigits (-q)).1 (shortestDigits (-q)).2 := by
  rw [numToString_fin, if_neg h.ne, if_pos h]

/-- Without an exponent in the text, what is read is the whole part. -/
theorem parseInt_of_plain (h : 0 < q) (hr : round binary64 q = .fin q) (hlow : millionth ≤ q)
    (hhigh : q < 10 ^ 21) :
    parseInt (numToString (.fin q)) = .fin ⌊q⌋₊ ∧
      parseInt ('-' :: formatDigits (shortestDigits q).1 (shortestDigits q).2) =
        .fin (-⌊q⌋₊) := by
  obtain ⟨m, hm, hdigits, hread, hinteger⟩ := exists_shortestDigits h hr
  have hmin : -6 < (shortestDigits q).2 := by
    by_contra hle
    exact absurd ((position_le_neg_six h hr).mp (not_lt.mp hle)) (not_lt.mpr hlow)
  have hmax : (shortestDigits q).2 ≤ 21 := (position_le_twenty_one h hr).mpr hhigh
  obtain ⟨hplus, hminus⟩ := parseInt_formatDigits hm hmin hmax
  have hwhole : (∃ z : ℕ, q = z) →
      ∃ w : ℕ, (m : ℚ) * 10 ^ ((shortestDigits q).2 - (Nat.toDigits 10 m).length) = w := by
    intro hz
    exact ⟨_, value_of_length_le (hinteger hz)⟩
  have hexact := round_floor (value_nonneg m _) h hr hread hwhole
  rw [hexact] at hplus hminus
  rw [numToString_of_pos h, hdigits]
  exact ⟨hplus, hminus⟩

/-- With an exponent, what is read is one digit that is not zero. -/
theorem parseInt_of_exponent (h : 0 < q) (hr : round binary64 q = .fin q)
    (hextreme : ¬(millionth ≤ q ∧ q < 10 ^ 21)) :
    ∃ d : ℕ, 1 ≤ d ∧ d ≤ 9 ∧ parseInt (numToString (.fin q)) = .fin d ∧
      parseInt ('-' :: formatDigits (shortestDigits q).1 (shortestDigits q).2) = .fin (-d) := by
  obtain ⟨m, hm, hdigits, -, -⟩ := exists_shortestDigits h hr
  have hposition : ¬(-6 < (shortestDigits q).2 ∧ (shortestDigits q).2 ≤ 21) := by
    rintro ⟨hmin, hmax⟩
    refine hextreme ⟨?_, (position_le_twenty_one h hr).mp hmax⟩
    by_contra hlt
    have hle := (position_le_neg_six h hr).mpr (not_le.mp hlt)
    omega
  rw [numToString_of_pos h, hdigits]
  exact parseInt_formatDigits_exponent hm hposition

theorem round_neg (h : q < 0) (hr : round binary64 q = .fin q) :
    round binary64 (-q) = .fin (-q) := by
  obtain ⟨hmag, hmax⟩ := round_of_neg h hr
  unfold Binary64.round ofMagnitude
  rw [if_neg (by linarith), hmag, if_neg (not_le.mpr hmax), if_neg Bool.false_ne_true]

theorem cast_floor (h : 0 ≤ q) : ((⌊q⌋₊ : ℕ) : ℚ) = (⌊q⌋ : ℤ) := by
  have hfloor := Int.natCast_floor_eq_floor h
  exact_mod_cast congrArg (Int.cast : ℤ → ℚ) hfloor

/-- The text of the double has no exponent. -/
def Plain (q : ℚ) : Prop := q = 0 ∨ millionth ≤ |q| ∧ |q| < 10 ^ 21

instance (q : ℚ) : Decidable (Plain q) :=
  inferInstanceAs (Decidable (q = 0 ∨ millionth ≤ |q| ∧ |q| < 10 ^ 21))

theorem Plain.neg (h : Plain q) : Plain (-q) := by
  rcases h with rfl | h
  · exact .inl neg_zero
  · exact .inr (by rwa [abs_neg])

theorem Plain.of_pos (h : 0 < q) (hplain : Plain q) : millionth ≤ q ∧ q < 10 ^ 21 := by
  rcases hplain with rfl | hplain
  · exact absurd h (lt_irrefl 0)
  · rwa [abs_of_pos h] at hplain

/-- A double whose text has an exponent is tiny or huge. -/
theorem truncate_of_not_plain (h : ¬Plain q) :
    truncate q = 0 ∨ (0 < q ∧ 10 ^ 21 ≤ truncate q) ∨ (q < 0 ∧ truncate q ≤ -10 ^ 21) := by
  have hsmall : millionth < 1 := by decide +kernel
  rcases lt_trichotomy q 0 with hneg | rfl | hpos
  · rw [truncate, if_pos hneg]
    rcases lt_or_ge (-q) 1 with hlt | hge
    · have hfloor : ⌊-q⌋ = 0 := Int.floor_eq_zero_iff.mpr ⟨by linarith, hlt⟩
      exact .inl (by rw [hfloor, neg_zero])
    · have hlarge : ((10 ^ 21 : ℤ) : ℚ) ≤ -q := by
        by_contra hlt
        refine h (.inr ?_)
        rw [abs_of_neg hneg]
        exact ⟨by linarith, by exact_mod_cast not_le.mp hlt⟩
      have hfloor := Int.le_floor.mpr hlarge
      exact .inr (.inr ⟨hneg, by omega⟩)
  · exact absurd (.inl rfl) h
  · rw [truncate, if_neg (not_lt.mpr hpos.le)]
    rcases lt_or_ge q 1 with hlt | hge
    · exact .inl (Int.floor_eq_zero_iff.mpr ⟨hpos.le, hlt⟩)
    · have hlarge : ((10 ^ 21 : ℤ) : ℚ) ≤ q := by
        by_contra hlt
        refine h (.inr ?_)
        rw [abs_of_pos hpos]
        exact ⟨by linarith, by exact_mod_cast not_le.mp hlt⟩
      exact .inr (.inl ⟨hpos, Int.le_floor.mpr hlarge⟩)

/-- `parseInt` of a double truncates it, unless its text has an exponent. -/
theorem parseInt_plain (hr : round binary64 q = .fin q) (h : Plain q) :
    parseInt (numToString (.fin q)) = .fin (truncate q) := by
  rcases lt_trichotomy q 0 with hneg | rfl | hpos
  · have hminus := neg_pos.mpr hneg
    obtain ⟨hlow, hhigh⟩ := h.neg.of_pos hminus
    rw [numToString_of_neg hneg, (parseInt_of_plain hminus (round_neg hneg hr) hlow hhigh).2,
      truncate, if_pos hneg, cast_floor hminus.le]
    push_cast
    rfl
  · decide +kernel
  · obtain ⟨hlow, hhigh⟩ := h.of_pos hpos
    rw [(parseInt_of_plain hpos hr hlow hhigh).1, truncate, if_neg (not_lt.mpr hpos.le),
      cast_floor hpos.le]

/-- With an exponent one digit is read, with the sign of the double. -/
theorem parseInt_not_plain (hr : round binary64 q = .fin q) (h : ¬Plain q) :
    ∃ d : ℕ, 1 ≤ d ∧ d ≤ 9 ∧
      parseInt (numToString (.fin q)) = .fin (if q < 0 then -d else d) := by
  rcases lt_trichotomy q 0 with hneg | rfl | hpos
  · have hminus := neg_pos.mpr hneg
    have hextreme : ¬(millionth ≤ -q ∧ -q < 10 ^ 21) := by
      intro hmid
      exact h (.inr (by rwa [abs_of_neg hneg]))
    obtain ⟨d, hone, hnine, -, hread⟩ :=
      parseInt_of_exponent hminus (round_neg hneg hr) hextreme
    refine ⟨d, hone, hnine, ?_⟩
    rw [numToString_of_neg hneg, if_pos hneg, hread]
  · exact absurd (.inl rfl) h
  · have hextreme : ¬(millionth ≤ q ∧ q < 10 ^ 21) := by
      intro hmid
      exact h (.inr (by rwa [abs_of_pos hpos]))
    obtain ⟨d, hone, hnine, hread, -⟩ := parseInt_of_exponent hpos hr hextreme
    refine ⟨d, hone, hnine, ?_⟩
    rw [if_neg (not_lt.mpr hpos.le), hread]

end Whole

end JsonScada.Lib.Decimal
