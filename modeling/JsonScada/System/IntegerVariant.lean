/- path: JsonScada/System/IntegerVariant
   source: src/OPC-UA-Server/index.js, convertValueVariant
   digest: When an analog value is published as the integer it is. -/

import JsonScada.Lib.Decimal
import JsonScada.OpcUaServer.Convert

set_option autoImplicit false
set_option relaxedAutoImplicit false

namespace JsonScada.System.IntegerVariant

open JsonScada.Lib.Binary64 JsonScada.Lib.EcmaScript JsonScada.Lib.Decimal
open JsonScada.OpcUaServer.Convert

/-- The integer types an analog tag can be published as. -/
inductive IntegerType where
  | int16 | uint16 | int32 | uint32 | int64 | uint64 | byte | sbyte
  deriving DecidableEq

namespace IntegerType

/-- The type as `protocolSourceASDU` has it. -/
def name : IntegerType → String
  | int16 => "int16"
  | uint16 => "uint16"
  | int32 => "int32"
  | uint32 => "uint32"
  | int64 => "int64"
  | uint64 => "uint64"
  | byte => "byte"
  | sbyte => "sbyte"

def dataType : IntegerType → DataType
  | int16 => .int16
  | uint16 => .uint16
  | int32 => .int32
  | uint32 => .uint32
  | int64 => .int64
  | uint64 => .uint64
  | byte => .byte
  | sbyte => .sbyte

def low : IntegerType → ℤ
  | int16 => -2 ^ 15
  | int32 => -2 ^ 31
  | int64 => -2 ^ 63
  | sbyte => -2 ^ 7
  | _ => 0

def high : IntegerType → ℤ
  | int16 => 2 ^ 15 - 1
  | uint16 => 2 ^ 16 - 1
  | int32 => 2 ^ 31 - 1
  | uint32 => 2 ^ 32 - 1
  | int64 => 2 ^ 63 - 1
  | uint64 => 2 ^ 64 - 1
  | byte => 2 ^ 8 - 1
  | sbyte => 2 ^ 7 - 1

/-- The mask of the type on an integer, a number of 32 bits with its sign; the types of 64 bits
have none. -/
def narrow (t : IntegerType) (z : ℤ) : ℤ :=
  match t with
  | int16 | uint16 => z % 2 ^ 16
  | byte | sbyte => z % 2 ^ 8
  | int32 | uint32 => if z % 2 ^ 32 < 2 ^ 31 then z % 2 ^ 32 else z % 2 ^ 32 - 2 ^ 32
  | int64 | uint64 => z

/-- The truncated values that are in the range of the type once they are masked. -/
def Keeps (t : IntegerType) (z : ℤ) : Prop :=
  match t with
  | int16 => z % 2 ^ 16 < 2 ^ 15
  | sbyte => z % 2 ^ 8 < 2 ^ 7
  | uint32 => z % 2 ^ 32 < 2 ^ 31
  | int64 => -2 ^ 63 ≤ z ∧ z < 2 ^ 63
  | uint64 => 0 ≤ z ∧ z < 2 ^ 64
  | uint16 | int32 | byte => True

/-- A negative digit is in the range once it is masked. -/
def KeepsNegative : IntegerType → Prop
  | uint16 | int32 | int64 | byte => True
  | int16 | uint32 | uint64 | sbyte => False

instance (t : IntegerType) (z : ℤ) : Decidable (t.Keeps z) := by
  cases t <;> unfold Keeps <;> infer_instance

end IntegerType

open IntegerType

/-- The variant is an integer of the range of its data type, and the truncated value when
that is in the range. -/
def Published (t : IntegerType) (q : ℚ) (v : Option Conversion) : Prop :=
  ∃ n : ℤ, v = some ⟨.value (.num (.fin n)), some t.dataType, none⟩ ∧
    t.low ≤ n ∧ n ≤ t.high ∧ (t.low ≤ truncate q → truncate q ≤ t.high → n = truncate q)

/-- The values that the branch of the type takes care of: a text with an exponent is right for a
huge value only, for which any integer of the range will do. -/
def Supported (t : IntegerType) (q : ℚ) : Prop :=
  if Plain q then t.Keeps (truncate q) else 10 ^ 21 ≤ |q| ∧ (q < 0 → t.KeepsNegative)

section Masks

theorem toUint32_intCast (z : ℤ) : (toUint32 (.fin z) : ℤ) = z % 2 ^ 32 := by
  rw [toUint32, truncate_intCast, Int.toNat_of_nonneg (Int.emod_nonneg _ (by norm_num))]

/-- A mask of the low bits takes the remainder. -/
theorem bitAnd_intCast (z : ℤ) {k : ℕ} (hk : k ≤ 32) :
    bitAnd (.fin z) (2 ^ k - 1) =
      if z % 2 ^ k < 2 ^ 31 then z % 2 ^ k else z % 2 ^ k - 2 ^ 32 := by
  have hbits : ((toUint32 (.fin z) &&& (2 ^ k - 1) : ℕ) : ℤ) = z % 2 ^ k := by
    rw [Nat.and_two_pow_sub_one_eq_mod, Int.natCast_mod, toUint32_intCast, Nat.cast_pow,
      Nat.cast_ofNat, Int.emod_emod_of_dvd _ (pow_dvd_pow 2 hk)]
  have hlt : toUint32 (.fin z) &&& (2 ^ k - 1) < 2 ^ 31 ↔ z % 2 ^ k < 2 ^ 31 := by
    rw [← hbits]
    exact_mod_cast Iff.rfl
  rw [bitAnd]
  simp only [hbits, hlt]

/-- What is read is masked as the type has it. -/
theorem convertValueVariant_eq (host : Host) {rtData : RtData} {t : IntegerType} {z : ℤ}
    (htype : rtData.type = "analog") (hasdu : rtData.protocolSourceASDU = .text t.name)
    (hread : parseIntOf rtData.value = .fin z) :
    convertValueVariant host rtData =
      some ⟨.value (.num (.fin (t.narrow z))), some t.dataType, none⟩ := by
  have hword : bitAnd (.fin z) 0xffff = z % 2 ^ 16 := by
    have hmask := bitAnd_intCast z (k := 16) (by norm_num)
    rwa [if_pos (by omega)] at hmask
  have hbyte : bitAnd (.fin z) 0xff = z % 2 ^ 8 := by
    have hmask := bitAnd_intCast z (k := 8) (by norm_num)
    rwa [if_pos (by omega)] at hmask
  have hlong : bitAnd (.fin z) 0xffffffff =
      if z % 2 ^ 32 < 2 ^ 31 then z % 2 ^ 32 else z % 2 ^ 32 - 2 ^ 32 :=
    bitAnd_intCast z (k := 32) le_rfl
  have hanalog : convertValueVariant host rtData = some (convertAnalog host rtData) := by
    rw [convertValueVariant, htype]
    rfl
  rw [hanalog, convertAnalog, hasdu]
  congr 1
  cases t with
  | int16 => simp only [name, masked, hread, hword, narrow, dataType]
  | uint16 => simp only [name, masked, hread, hword, narrow, dataType]
  | byte => simp only [name, masked, hread, hbyte, narrow, dataType]
  | sbyte => simp only [name, masked, hread, hbyte, narrow, dataType]
  | int32 => simp only [name, masked, hread, hlong, narrow, dataType]
  | uint32 => simp only [name, masked, hread, hlong, narrow, dataType]
  | int64 => simp only [name, hread, narrow, dataType]
  | uint64 => simp only [name, hread, narrow, dataType]

end Masks

section Values

variable {t : IntegerType} {q : ℚ}

theorem published_some_iff {z : ℤ} :
    Published t q (some ⟨.value (.num (.fin (t.narrow z))), some t.dataType, none⟩) ↔
      t.low ≤ t.narrow z ∧ t.narrow z ≤ t.high ∧
        (t.low ≤ truncate q → truncate q ≤ t.high → t.narrow z = truncate q) := by
  constructor
  · rintro ⟨n, hn, h⟩
    have hnarrow : (t.narrow z : ℚ) = n := by simpa using hn
    obtain rfl : t.narrow z = n := by exact_mod_cast hnarrow
    exact h
  · intro h
    exact ⟨t.narrow z, rfl, h⟩

/-- The mask leaves a number in the range or takes it there. -/
theorem range_iff (t : IntegerType) (z : ℤ) :
    t.low ≤ t.narrow z ∧ t.narrow z ≤ t.high ↔ t.Keeps z := by
  cases t with
  | int16 | uint16 | byte | sbyte | int64 | uint64 =>
    simp only [narrow, Keeps, low, high, iff_true]
    omega
  | int32 | uint32 =>
    simp only [narrow, Keeps, low, high, iff_true]
    split_ifs <;> omega

theorem narrow_eq {t : IntegerType} {z : ℤ} (h : t.Keeps z) (hlow : t.low ≤ z)
    (hhigh : z ≤ t.high) : t.narrow z = z := by
  cases t with
  | int16 | uint16 | byte | sbyte =>
    simp only [narrow, Keeps, low, high] at *
    omega
  | int32 | uint32 =>
    simp only [narrow, Keeps, low, high] at *
    split_ifs <;> omega
  | int64 | uint64 => rfl

theorem truncate_eq_zero_iff : truncate q = 0 ↔ |q| < 1 := by
  rw [truncate]
  split_ifs with hneg
  · rw [neg_eq_zero, Int.floor_eq_zero_iff, abs_of_neg hneg]
    exact ⟨fun h => h.2, fun h => ⟨by linarith, h⟩⟩
  · rw [Int.floor_eq_zero_iff, abs_of_nonneg (not_lt.mp hneg)]
    exact ⟨fun h => h.2, fun h => ⟨not_lt.mp hneg, h⟩⟩

theorem large_iff (h : ¬ Plain q) : 10 ^ 21 ≤ |q| ↔ truncate q ≠ 0 := by
  have hmillionth : millionth < 1 := by decide +kernel
  rw [Ne, truncate_eq_zero_iff, not_lt]
  constructor
  · intro hlarge
    linarith
  · intro hone
    by_contra hsmall
    exact h (.inr ⟨hmillionth.le.trans hone, not_le.mp hsmall⟩)

section Digits

variable {d : ℕ} (hone : 1 ≤ d) (hnine : d ≤ 9)

include hone hnine

theorem keeps_digit (t : IntegerType) : t.Keeps d := by
  cases t <;> simp only [Keeps] <;> omega

theorem keeps_neg_digit (t : IntegerType) : t.Keeps (-d) ↔ t.KeepsNegative := by
  cases t <;> simp only [Keeps, KeepsNegative, iff_true, iff_false] <;> omega

/-- A digit is not masked away. -/
theorem narrow_digit_ne_zero (t : IntegerType) : t.narrow d ≠ 0 ∧ t.narrow (-d) ≠ 0 := by
  cases t with
  | int16 | uint16 | byte | sbyte | int64 | uint64 =>
    simp only [narrow]
    omega
  | int32 | uint32 =>
    simp only [narrow]
    split_ifs <;> omega

/-- The digit that is read of a text with an exponent will do for a huge value. -/
theorem digit_iff (h : ¬ Plain q) :
    (t.low ≤ t.narrow (if q < 0 then -(d : ℤ) else d) ∧
      t.narrow (if q < 0 then -(d : ℤ) else d) ≤ t.high ∧
        (t.low ≤ truncate q → truncate q ≤ t.high →
          t.narrow (if q < 0 then -(d : ℤ) else d) = truncate q)) ↔
      10 ^ 21 ≤ |q| ∧ (q < 0 → t.KeepsNegative) := by
  have hbounds : -10 ^ 21 < t.low ∧ t.low ≤ 0 ∧ 0 ≤ t.high ∧ t.high < 10 ^ 21 := by
    cases t <;> decide
  obtain ⟨hpositive, hnegative⟩ := narrow_digit_ne_zero hone hnine t
  have hkeeps : t.Keeps (if q < 0 then -(d : ℤ) else d) ↔ (q < 0 → t.KeepsNegative) := by
    by_cases hneg : q < 0
    · rw [if_pos hneg, keeps_neg_digit hone hnine]
      exact ⟨fun hkeeps _ => hkeeps, fun hkeeps => hkeeps hneg⟩
    · rw [if_neg hneg]
      exact iff_of_true (keeps_digit hone hnine t) fun hq => absurd hq hneg
  have hne : t.narrow (if q < 0 then -(d : ℤ) else d) ≠ 0 := by
    split_ifs
    · exact hnegative
    · exact hpositive
  rw [← and_assoc, range_iff, hkeeps, large_iff h, and_comm]
  apply and_congr_left
  intro _
  rcases truncate_of_not_plain h with hzero | ⟨-, hhuge⟩ | ⟨-, hhuge⟩
  · rw [hzero]
    exact iff_of_false (fun heq => hne (heq hbounds.2.1 hbounds.2.2.1)) fun hnot => hnot rfl
  · exact iff_of_true (fun _ hle => by omega) (by omega)
  · exact iff_of_true (fun hle _ => by omega) (by omega)

end Digits

/-- An analog value is published as the integer it is for the supported values, and for no
others. -/
theorem published_iff (host : Host) {rtData : RtData} (htype : rtData.type = "analog")
    (hasdu : rtData.protocolSourceASDU = .text t.name) (hvalue : rtData.value = .fin q)
    (hdouble : round binary64 q = .fin q) :
    Published t q (convertValueVariant host rtData) ↔ Supported t q := by
  rw [Supported]
  by_cases hplain : Plain q
  · have hread : parseIntOf rtData.value = .fin (truncate q) := by
      rw [parseIntOf, hvalue, parseInt_plain hdouble hplain]
    rw [if_pos hplain, convertValueVariant_eq host htype hasdu hread, published_some_iff]
    rw [← and_assoc, range_iff]
    exact ⟨fun h => h.1, fun h => ⟨h, narrow_eq h⟩⟩
  · obtain ⟨d, hone, hnine, hdigit⟩ := parseInt_not_plain hdouble hplain
    have hread : parseIntOf rtData.value = .fin ((if q < 0 then -(d : ℤ) else d : ℤ) : ℚ) := by
      rw [parseIntOf, hvalue, hdigit]
      split_ifs <;> simp
    rw [if_neg hplain, convertValueVariant_eq host htype hasdu hread, published_some_iff]
    exact digit_iff hone hnine hplain

/-- A host that is not asked for numbers. -/
def noHost : Host := ⟨fun _ => none, fun _ => .null, fun _ _ _ => none⟩

def analogTag (asdu : String) (value : ℚ) : RtData where
  _id := .fin 1
  tag := "T"
  type := "analog"
  value := .fin value
  protocolSourceASDU := .text asdu

theorem current_published :
    Published .int16 (601 / 2) (convertValueVariant noHost (analogTag "int16" (601 / 2))) :=
  (published_iff noHost (t := .int16) rfl rfl rfl (by decide +kernel)).mpr (by
    rw [Supported, if_pos (by decide +kernel)]
    decide +kernel)

/-- Minus one is published as 65535, which is no 16-bit integer with a sign. -/
theorem minus_one_not_published :
    ¬ Published .int16 (-1) (convertValueVariant noHost (analogTag "int16" (-1))) := by
  have hread : parseIntOf (analogTag "int16" (-1)).value = .fin (-1 : ℤ) := by decide +kernel
  rw [convertValueVariant_eq noHost (t := .int16) rfl rfl hread, published_some_iff]
  rintro ⟨-, hhigh, -⟩
  revert hhigh
  decide

end Values

end JsonScada.System.IntegerVariant
