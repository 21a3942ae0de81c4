/- path: JsonScada/Lib/Numeral
   layer: library
   digest: Decimal numerals of a fixed number of decimals, and the doubles they stand for. -/

import JsonScada.Lib.Decimal
import JsonScada.Lib.FloatArith
import JsonScada.Lib.Golang

set_option autoImplicit false
set_option relaxedAutoImplicit false

namespace JsonScada.Lib.Numeral

open JsonScada.Lib.Binary64 JsonScada.Lib.EcmaScript JsonScada.Lib.Decimal JsonScada.Lib.Golang

/-- `fmt.Sprintf("%.0f", value)`; the model has no negative zero. -/
def formatWhole : Number → String
  | .nan => "NaN"
  | .inf neg => if neg then "-Inf" else "+Inf"
  | .fin q => (if q < 0 then "-" else "") ++ toString (nearestEven |q|).toNat

/-- The text stands for the number: a numeral that rounds to it, or its name. -/
def Denotes (text : String) : Number → Prop
  | .nan => text = "NaN"
  | .inf neg => text = if neg then "-Inf" else "+Inf"
  | .fin q => signedDecimalPrefix text.toList = some (.fin q, [])

section Digits

theorem spanDigits_rest {cs rest : List Char} (hcs : ∀ c ∈ cs, c.isDigit = true)
    (h : Ends rest) : (spanDigits 10 (cs ++ rest)).2 = rest := by
  induction cs with
  | nil => rw [List.nil_append, spanDigits_of_ends h]
  | cons c cs ih =>
    rw [List.forall_mem_cons] at hcs
    rw [List.cons_append, spanDigits, (digit_facts hcs.1).2.1]
    exact ih hcs.2

theorem ne_infinity {c : Char} {cs : List Char} (h : c.isDigit = true) :
    "Infinity".toList.isPrefixOf (c :: cs) = false := by
  rw [Bool.eq_false_iff]
  intro hprefix
  obtain ⟨rest, hrest⟩ := List.isPrefixOf_iff_prefix.mp hprefix
  have hhead : 'I' = c := Option.some.inj (congrArg List.head? hrest)
  subst hhead
  exact absurd h (by decide)

/-- A numeral with a part of its own for the decimals. -/
def withDecimals (whole decimals : List Char) : List Char :=
  whole ++ if decimals = [] then [] else '.' :: decimals

theorem decimalPrefix_withDecimals {whole decimals : List Char} (hne : whole ≠ [])
    (hwhole : ∀ c ∈ whole, c.isDigit = true) (hdecimals : ∀ c ∈ decimals, c.isDigit = true) :
    decimalPrefix (withDecimals whole decimals) =
      some (round binary64 (Nat.ofDigitChars 10 (whole ++ decimals) 0 *
        10 ^ (-(decimals.length : ℤ))), []) := by
  obtain ⟨c, cs, rfl⟩ := List.exists_cons_of_ne_nil hne
  have hends : Ends (if decimals = [] then [] else '.' :: decimals) := by
    intro d hd
    split_ifs at hd
    · cases hd
    · cases hd
      exact .inl rfl
  have hspan := spanDigits_append hwhole hends
  have hrest := spanDigits_rest hwhole hends
  have hprefix := @ne_infinity c (cs ++ if decimals = [] then [] else '.' :: decimals)
    (hwhole c List.mem_cons_self)
  have hnil : Ends [] := fun d hd => by cases hd
  have hspan' := spanDigits_append hdecimals hnil
  have hrest' := spanDigits_rest hdecimals hnil
  rw [List.append_nil] at hspan' hrest'
  have hdigits : ((c :: cs).map fun c => c.toNat - '0'.toNat) ++
      (decimals.map fun c => c.toNat - '0'.toNat) =
        ((c :: cs) ++ decimals).map fun c => c.toNat - '0'.toNat := (List.map_append ..).symm
  unfold withDecimals
  rw [← List.cons_append] at hprefix
  rw [decimalPrefix, hprefix, if_neg Bool.false_ne_true]
  simp only [hspan, hrest]
  by_cases hdec : decimals = []
  · subst hdec
    simp only [if_true, List.append_nil, ofDigits_map]
    simp [exponentPart]
  · simp only [hdec, if_false, hspan', hrest', hdigits, ofDigits_map]
    simp [exponentPart]

/-- A numeral with an optional sign before it. -/
def signed (negative : Bool) (digits : List Char) : List Char :=
  if negative then '-' :: digits else digits

theorem signedDecimalPrefix_digits {c : Char} {cs : List Char} (h : c.isDigit = true) :
    signedDecimalPrefix (c :: cs) = decimalPrefix (c :: cs) := by
  obtain ⟨-, -, hplus, hminus, -⟩ := digit_facts h
  unfold signedDecimalPrefix
  split
  · rename_i heq
    exact absurd (List.cons.inj heq).1 hplus
  · rename_i heq
    exact absurd (List.cons.inj heq).1 hminus
  · rfl

theorem signedDecimalPrefix_signed {negative : Bool} {whole decimals : List Char}
    (hne : whole ≠ []) (hwhole : ∀ c ∈ whole, c.isDigit = true)
    (hdecimals : ∀ c ∈ decimals, c.isDigit = true) :
    signedDecimalPrefix (signed negative (withDecimals whole decimals)) =
      let x := round binary64 (Nat.ofDigitChars 10 (whole ++ decimals) 0 *
        10 ^ (-(decimals.length : ℤ)))
      some (if negative then x.neg else x, []) := by
  have hread := decimalPrefix_withDecimals hne hwhole hdecimals
  cases negative with
  | true =>
    change (decimalPrefix (withDecimals whole decimals)).map _ = _
    rw [hread]
    rfl
  | false =>
    obtain ⟨c, cs, rfl⟩ := List.exists_cons_of_ne_nil hne
    have hfirst := @signedDecimalPrefix_digits c (cs ++ if decimals = [] then []
      else '.' :: decimals) (hwhole c List.mem_cons_self)
    exact hfirst.trans hread

end Digits

section Texts

variable {q : ℚ}

theorem neg_eq_fin {x : Number} : x.neg = .fin q ↔ x = .fin (-q) := by
  cases x with
  | nan => simp [Number.neg]
  | inf s => simp [Number.neg]
  | fin p =>
    rw [Number.neg, Number.fin.injEq, Number.fin.injEq]
    constructor
    · intro h
      linarith
    · intro h
      linarith

/-- A numeral stands for a double where its magnitude rounds to that of the double. -/
theorem denotes_signed {text : String} {whole decimals : List Char} (hne : whole ≠ [])
    (hwhole : ∀ c ∈ whole, c.isDigit = true) (hdecimals : ∀ c ∈ decimals, c.isDigit = true)
    (htext : text.toList = signed (q < 0) (withDecimals whole decimals)) :
    Denotes text (.fin q) ↔
      round binary64 (Nat.ofDigitChars 10 (whole ++ decimals) 0 *
        10 ^ (-(decimals.length : ℤ))) = .fin |q| := by
  rw [Denotes, htext, signedDecimalPrefix_signed hne hwhole hdecimals]
  simp only [Option.some.injEq, Prod.mk.injEq, and_true]
  by_cases hneg : q < 0
  · simp only [hneg, decide_true, if_true]
    rw [neg_eq_fin, abs_of_neg hneg]
  · simp only [hneg, decide_false, Bool.false_eq_true, if_false]
    rw [abs_of_nonneg (not_lt.mp hneg)]

theorem toList_sign (negative : Prop) [Decidable negative] (body : String) :
    ((if negative then "-" else "") ++ body).toList = signed negative body.toList := by
  unfold signed
  by_cases h : negative <;> simp [h]

theorem isDouble_abs_fin (hq : IsDouble (.fin q)) : round binary64 |q| = .fin |q| :=
  isDouble_abs hq

/-- The text of a whole double stands for it. -/
theorem denotes_formatWhole (hq : IsDouble (.fin q)) (hwhole : ∃ z : ℤ, q = z) :
    Denotes (formatWhole (.fin q)) (.fin q) := by
  obtain ⟨z, hz⟩ := hwhole
  have habs : |q| = (z.natAbs : ℕ) := by
    rw [hz, Nat.cast_natAbs, Int.cast_abs]
  have hnearest : (nearestEven |q|).toNat = z.natAbs := by
    have hcast := nearestEven_intCast (z.natAbs : ℤ)
    rw [Int.cast_natCast] at hcast
    rw [habs, hcast, Int.toNat_natCast]
  have htext : (formatWhole (.fin q)).toList =
      signed (q < 0) (withDecimals (Nat.toDigits 10 z.natAbs) []) := by
    rw [formatWhole, toList_sign, hnearest, Nat.toString_eq_repr, Nat.toList_repr,
      withDecimals, if_pos rfl, List.append_nil]
  have hdouble := isDouble_abs_fin hq
  refine (denotes_signed Nat.toDigits_ne_nil (fun c => isDigit_toDigits)
    (fun c hc => absurd hc List.not_mem_nil) htext).mpr ?_
  rw [List.append_nil, Nat.ofDigitChars_ten_toDigits, List.length_nil, Nat.cast_zero,
    neg_zero, zpow_zero, mul_one, ← habs]
  exact hdouble

/-- Six decimals are enough to tell the double from every other. -/
def SixDecimals : Number → Prop
  | .fin q => round binary64 (nearestEven (|q| * 10 ^ 6) * 10 ^ (-6 : ℤ)) = .fin |q|
  | _ => True

instance : DecidablePred SixDecimals
  | .fin q => inferInstanceAs (Decidable (round binary64 _ = .fin |q|))
  | .nan => isTrue trivial
  | .inf _ => isTrue trivial

/-- The decimals of a number of millionths, with the zeros before them. -/
def millionths (n : ℕ) : List Char :=
  let frac := Nat.toDigits 10 (n % 10 ^ 6)
  List.replicate (6 - frac.length) '0' ++ frac

theorem length_millionths (n : ℕ) : (millionths n).length = 6 := by
  have hlength : (Nat.toDigits 10 (n % 10 ^ 6)).length ≤ 6 :=
    (Nat.length_toDigits_le_iff (by norm_num) (by norm_num)).mpr (Nat.mod_lt n (by norm_num))
  unfold millionths
  rw [List.length_append, List.length_replicate]
  omega

theorem isDigit_millionths {n : ℕ} {c : Char} (h : c ∈ millionths n) : c.isDigit = true := by
  rcases List.mem_append.mp h with hzero | hfrac
  · rw [(List.mem_replicate.mp hzero).2]
    decide
  · exact isDigit_toDigits hfrac

theorem ofDigitChars_millionths (n : ℕ) :
    Nat.ofDigitChars 10 (Nat.toDigits 10 (n / 10 ^ 6) ++ millionths n) 0 = n := by
  have hfrac : Nat.ofDigitChars 10 (millionths n) 0 = n % 10 ^ 6 := by
    rw [millionths, Nat.ofDigitChars_append, Nat.ofDigitChars_replicate_zero, mul_zero,
      Nat.ofDigitChars_ten_toDigits]
  rw [Nat.ofDigitChars_append, Nat.ofDigitChars_ten_toDigits,
    Nat.ofDigitChars_eq_ofDigitChars_zero, length_millionths, hfrac]
  omega

/-- The text of six decimals stands for the double where they are enough. -/
theorem denotes_formatF {x : Number} : Denotes (formatF x) x ↔ SixDecimals x := by
  cases x with
  | nan => exact iff_of_true rfl trivial
  | inf s => exact iff_of_true rfl trivial
  | fin q =>
    have hpos : 0 ≤ nearestEven (|q| * 10 ^ 6) := by
      have hfloor := floor_le_nearestEven (|q| * 10 ^ 6)
      have hzero : 0 ≤ ⌊|q| * 10 ^ 6⌋ := Int.floor_nonneg.mpr (by positivity)
      omega
    have htext : (formatF (.fin q)).toList = signed (q < 0) (withDecimals
        (Nat.toDigits 10 ((nearestEven (|q| * 10 ^ 6)).toNat / 10 ^ 6))
        (millionths (nearestEven (|q| * 10 ^ 6)).toNat)) := by
      have hlength := length_millionths (nearestEven (|q| * 10 ^ 6)).toNat
      have hne : millionths (nearestEven (|q| * 10 ^ 6)).toNat ≠ [] := by
        intro hnil
        rw [hnil] at hlength
        cases hlength
      rw [formatF, String.append_assoc, String.append_assoc, toList_sign, withDecimals,
        if_neg hne]
      simp [millionths, Nat.toString_eq_repr]
    rw [denotes_signed Nat.toDigits_ne_nil (fun c => isDigit_toDigits)
      (fun c => isDigit_millionths) htext, ofDigitChars_millionths, length_millionths,
      SixDecimals]
    have hcast : (((nearestEven (|q| * 10 ^ 6)).toNat : ℕ) : ℚ) =
        nearestEven (|q| * 10 ^ 6) := by
      exact_mod_cast congrArg (Int.cast : ℤ → ℚ) (Int.toNat_of_nonneg hpos)
    rw [hcast]
    rfl

end Texts

section Whole

theorem whole_of_round_natCast {n : ℕ} {q : ℚ} (h : round binary64 n = .fin q) :
    ∃ w : ℕ, q = w := by
  by_cases hsmall : n ≤ 2 ^ 53
  · rw [round_natCast hsmall] at h
    exact ⟨n, (Number.fin.inj h).symm⟩
  · have hbound : ((2 ^ 53 : ℕ) : ℚ) ≤ n := by exact_mod_cast (not_le.mp hsmall).le
    have hlarge := le_of_round_le (round_natCast le_rfl) h hbound
    have hdouble : round binary64 q = .fin q := by
      have := isDouble_round (n : ℚ)
      rwa [h] at this
    exact exists_natCast_of_large (by exact_mod_cast hlarge) hdouble

/-- The double of an integer is whole, where it is finite. -/
theorem whole_of_round {z : ℤ} {q : ℚ} (h : round binary64 z = .fin q) : ∃ w : ℤ, q = w := by
  obtain ⟨n, rfl | rfl⟩ := z.eq_nat_or_neg
  · obtain ⟨w, hw⟩ := whole_of_round_natCast h
    exact ⟨w, by exact_mod_cast hw⟩
  · rcases Nat.eq_zero_or_pos n with rfl | hn
    · obtain ⟨w, hw⟩ := whole_of_round_natCast (n := 0) (by simpa using h)
      exact ⟨w, by exact_mod_cast hw⟩
    · rw [Int.cast_neg, Int.cast_natCast, Binary64.round_neg binary64 (by positivity),
        neg_eq_fin] at h
      obtain ⟨w, hw⟩ := whole_of_round_natCast h
      refine ⟨-w, ?_⟩
      push_cast
      linarith

/-- The double of an integer is printed with all its digits. -/
theorem denotes_formatWhole_round (z : ℤ) :
    Denotes (formatWhole (round binary64 z)) (round binary64 z) := by
  have hdouble := isDouble_round (z : ℚ)
  cases h : round binary64 (z : ℚ) with
  | nan => exact absurd h (round_ne_nan binary64 z)
  | inf s => rfl
  | fin q =>
    rw [h] at hdouble
    exact denotes_formatWhole hdouble (whole_of_round h)

/-- Only zero is rounded to zero. -/
theorem round_intCast_eq_zero {z : ℤ} : round binary64 z = .fin 0 ↔ z = 0 := by
  have hone : round binary64 ((1 : ℕ) : ℚ) = .fin (1 : ℕ) := round_natCast (by norm_num)
  rw [Nat.cast_one] at hone
  constructor
  · intro h
    rcases lt_trichotomy z 0 with hneg | hzero | hpos
    · have hle : (z : ℚ) ≤ -1 := by exact_mod_cast Int.le_sub_one_of_lt hneg
      have hminus : round binary64 (-1) = .fin (-1) := by
        rw [Binary64.round_neg binary64 one_ne_zero, hone]
        rfl
      have hbound := le_of_round_le h hminus hle
      norm_num at hbound
    · exact hzero
    · have hle : (1 : ℚ) ≤ z := by exact_mod_cast hpos
      have hbound := le_of_round_le hone h hle
      norm_num at hbound
  · rintro rfl
    exact (isDouble_zero : round binary64 0 = .fin 0) ▸ by rw [Int.cast_zero]

end Whole

end JsonScada.Lib.Numeral
