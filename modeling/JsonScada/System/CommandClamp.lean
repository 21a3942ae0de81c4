/- path: JsonScada/System/CommandClamp
   source: src/mqtt-sparkplug/index.js
   digest: Integer commands are read from the text of the number, and most are bounded. -/

import JsonScada.MqttSparkplug.Command
import JsonScada.Lib.Decimal

set_option autoImplicit false
set_option relaxedAutoImplicit false

namespace JsonScada.System.CommandClamp

open JsonScada.Lib.Binary64 JsonScada.Lib.EcmaScript JsonScada.Lib.Decimal
open JsonScada.Model.Documents (Date)
open JsonScada.MqttSparkplug.Payload (Scalar)
open JsonScada.MqttSparkplug.Receive (toLowerCase)
open JsonScada.MqttSparkplug.Command

/-- The integer types of a metric. -/
inductive IntegerType where
  | int8 | int16 | int32 | int64 | uint8 | uint16 | uint32 | uint64
  deriving DecidableEq

namespace IntegerType

/-- The type in lower case, as a command names it. -/
def name : IntegerType → String
  | int8 => "int8"
  | int16 => "int16"
  | int32 => "int32"
  | int64 => "int64"
  | uint8 => "uint8"
  | uint16 => "uint16"
  | uint32 => "uint32"
  | uint64 => "uint64"

def bits : IntegerType → ℕ
  | int8 | uint8 => 8
  | int16 | uint16 => 16
  | int32 | uint32 => 32
  | int64 | uint64 => 64

def signed : IntegerType → Bool
  | int8 | int16 | int32 | int64 => true
  | uint8 | uint16 | uint32 | uint64 => false

def low (t : IntegerType) : ℤ := if t.signed then -2 ^ (t.bits - 1) else 0

def high (t : IntegerType) : ℤ := if t.signed then 2 ^ (t.bits - 1) - 1 else 2 ^ t.bits - 1

/-- The bounds that the branch of the type puts on what it has read. -/
def bounded (t : IntegerType) (value : Number) : Number :=
  match t with
  | int64 => value
  | uint64 => nonNegative value
  | _ => clamp (.fin t.low) (.fin t.high) value

theorem low_le_high (t : IntegerType) : t.low ≤ t.high := by cases t <;> decide

theorem digit_le_high (t : IntegerType) {d : ℕ} (h : d ≤ 9) : (d : ℤ) < t.high := by
  have hhigh : 9 < t.high := by cases t <;> decide
  omega

theorem low_lt_neg_digit {t : IntegerType} (ht : t.signed = true) {d : ℕ} (h : d ≤ 9) :
    t.low < -(d : ℤ) := by
  have hlow : t.low < -9 := by
    cases t <;> first | decide | cases ht
  omega

theorem low_of_unsigned {t : IntegerType} (ht : t.signed = false) : t.low = 0 := by
  unfold low
  rw [if_neg (by simp [ht])]

theorem high_lt_extreme (t : IntegerType) : t.high < 10 ^ 21 := by cases t <;> decide

theorem neg_extreme_lt_low (t : IntegerType) : -10 ^ 21 < t.low := by cases t <;> decide

end IntegerType

open IntegerType

/-- What a command of an integer type sends is its text read, within the bounds of the branch. -/
theorem commandValue_integer (cmd : CommandDocument) (t : IntegerType) :
    commandValue cmd t.name = some (.num (t.bounded (parseIntOf cmd.value))) := by
  cases t <;>
    simp [commandValue, name, bounded, signedClamp, unsignedClamp, low, high, bits, signed] <;>
      norm_num

/-- The value a payload carries. -/
def sentValue : CommandPayload → Scalar
  | .dcmd _ _ _ metric => metric.value
  | .ncmd _ _ metric => metric.value
  | .plain _ value => value

theorem sentValue_payloadAt {address : String} {metric : String → CommandMetric} {value : Scalar}
    {splTopic : List String} {p : CommandPayload} (hmetric : ∀ name, (metric name).value = value)
    (h : payloadAt address metric value splTopic = some p) : sentValue p = value := by
  unfold payloadAt at h
  split_ifs at h
  · cases h
    exact hmetric _
  · cases h
    exact hmetric _
  · cases h
    rfl

theorem sentValue_integer {now : Date} {cmd : CommandDocument} {t : IntegerType}
    {p : CommandPayload} (htype : cmd.protocolSourceASDU.map toLowerCase = some t.name)
    (h : getMetricCommandPayload now cmd = some p) :
    sentValue p = .num (t.bounded (parseIntOf cmd.value)) := by
  obtain ⟨asdu, hasdu, hname⟩ := Option.map_eq_some_iff.mp htype
  simp only [getMetricCommandPayload, hasdu, hname, commandValue_integer] at h
  split_ifs at h
  exact sentValue_payloadAt (fun _ => rfl) h

/-- The integer wanted for a command: its truncation, or the bound next to it. -/
def Wanted (t : IntegerType) : Number → ℤ → Prop
  | .fin q, v =>
    (t.low ≤ truncate q → truncate q ≤ t.high → v = truncate q) ∧
      (truncate q < t.low → v = t.low) ∧ (t.high < truncate q → v = t.high)
  | .inf neg, v => v = if neg then t.low else t.high
  | .nan, _ => True

/-- The sent value is in the range of the type and the one wanted for the command. -/
def Conforms (t : IntegerType) (value : Number) (sent : Scalar) : Prop :=
  ∃ v : ℤ, sent = .num (.fin v) ∧ t.low ≤ v ∧ v ≤ t.high ∧ Wanted t value v

/-- The commands whose text and range the branch of the type takes care of. -/
def Within (t : IntegerType) : Number → Prop
  | .fin q =>
    if Plain q then
      (t = int64 → t.low ≤ truncate q ∧ truncate q ≤ t.high) ∧ (t = uint64 → truncate q ≤ t.high)
    else t.signed = false ∧ q < 0
  | _ => False

instance (t : IntegerType) : (value : Number) → Decidable (Within t value)
  | .fin q => inferInstanceAs (Decidable (if Plain q then _ else _))
  | .nan => inferInstanceAs (Decidable False)
  | .inf _ => inferInstanceAs (Decidable False)

theorem conforms_fin_iff {t : IntegerType} {q : ℚ} {sent : Scalar} :
    Conforms t (.fin q) sent ↔ sent = .num (.fin (max t.low (min t.high (truncate q)) : ℤ)) := by
  have hle := t.low_le_high
  constructor
  · rintro ⟨v, rfl, hlow, hhigh, hin, hbelow, habove⟩
    have heq : v = max t.low (min t.high (truncate q)) := by
      rcases lt_or_ge (truncate q) t.low with h | h
      · rw [hbelow h]
        omega
      · rcases lt_or_ge t.high (truncate q) with h' | h'
        · rw [habove h']
          omega
        · rw [hin h h']
          omega
    rw [heq]
  · rintro rfl
    exact ⟨_, rfl, by omega, by omega, by omega, by omega, by omega⟩

section Bounded

variable {t : IntegerType}

theorem clamp_intCast {low high v : ℤ} (h : low ≤ high) :
    clamp (.fin low) (.fin high) (.fin v) = .fin (max low (min high v) : ℤ) := by
  unfold clamp
  simp only [Number.lt, decide_eq_true_eq, Int.cast_lt]
  split_ifs with habove hbelow
  · congr 2
    omega
  · congr 2
    omega
  · congr 2
    omega

theorem nonNegative_intCast (v : ℤ) : nonNegative (.fin v) = .fin (max 0 v : ℤ) := by
  unfold nonNegative
  have hzero : ((v : ℚ) < 0) ↔ v < 0 := by exact_mod_cast Iff.rfl
  simp only [Number.lt, decide_eq_true_eq, hzero]
  split_ifs with hneg
  · rw [max_eq_left hneg.le, Int.cast_zero]
  · rw [max_eq_right (not_lt.mp hneg)]

/-- The bounds of a branch hold the integer in the range, but for the missing ones. -/
theorem bounded_intCast (v : ℤ) :
    t.bounded (.fin v) = .fin (max t.low (min t.high v) : ℤ) ↔
      (t = int64 → t.low ≤ v ∧ v ≤ t.high) ∧ (t = uint64 → v ≤ t.high) := by
  have hle := t.low_le_high
  cases t with
  | int64 =>
    simp only [bounded, Number.fin.injEq, Int.cast_inj, forall_const, reduceCtorEq,
      IsEmpty.forall_iff, and_true]
    omega
  | uint64 =>
    have hlow : low uint64 = 0 := rfl
    simp only [bounded, nonNegative_intCast, Number.fin.injEq, Int.cast_inj, forall_const,
      reduceCtorEq, IsEmpty.forall_iff, true_and, hlow]
    rw [hlow] at hle
    omega
  | int8 | int16 | int32 | uint8 | uint16 | uint32 =>
    simp only [bounded, clamp_intCast hle, reduceCtorEq, IsEmpty.forall_iff, and_self]

theorem bounded_nan : t.bounded .nan = .nan := by cases t <;> rfl

end Bounded

/-- The digit that is read of a text with an exponent is right for no command but
those below an unsigned range. -/
theorem digit_conforms_iff {t : IntegerType} {q : ℚ} (h : ¬Plain q) {d : ℕ} (hone : 1 ≤ d)
    (hnine : d ≤ 9) :
    max t.low (min t.high (if q < 0 then -(d : ℤ) else d)) =
        max t.low (min t.high (truncate q)) ↔ t.signed = false ∧ q < 0 := by
  have hle := t.low_le_high
  have hdigit := t.digit_le_high hnine
  have hhigh := t.high_lt_extreme
  have hlow := t.neg_extreme_lt_low
  have hextreme := truncate_of_not_plain h
  have hzero : t.low ≤ 0 := by cases t <;> decide
  rcases lt_trichotomy q 0 with hneg | rfl | hpos
  · have hnot : ¬0 < q := not_lt.mpr hneg.le
    simp only [hneg, hnot, if_true, and_true, false_and, false_or, true_and] at hextreme ⊢
    cases hsigned : t.signed with
    | true =>
      have hbelow := low_lt_neg_digit hsigned hnine
      simp only [reduceCtorEq, iff_false]
      omega
    | false =>
      have hbase := low_of_unsigned hsigned
      simp only [iff_true]
      omega
  · exact absurd (.inl rfl) h
  · have hnot : ¬q < 0 := not_lt.mpr hpos.le
    simp only [hpos, hnot, if_false, and_false, false_and, or_false, true_and, iff_false]
      at hextreme ⊢
    omega

/-- What an integer command sends is the value wanted of it exactly when the text and
the range of the number are ones that the branch of its type takes care of. -/
theorem sent_conforms_iff (now : Date) {cmd : CommandDocument} {t : IntegerType}
    {p : CommandPayload} (htype : cmd.protocolSourceASDU.map toLowerCase = some t.name)
    (hvalue : binary64.Holds cmd.value) (hp : getMetricCommandPayload now cmd = some p) :
    Conforms t cmd.value (sentValue p) ↔ Within t cmd.value := by
  rw [sentValue_integer htype hp]
  cases hread : cmd.value with
  | nan =>
    have hnan : parseIntOf .nan = .nan := by decide +kernel
    rw [hnan, bounded_nan]
    simp [Conforms, Within]
  | inf neg =>
    have hnan : parseIntOf (.inf neg) = .nan := by cases neg <;> decide +kernel
    rw [hnan, bounded_nan]
    simp [Conforms, Within]
  | fin q =>
    have hround : round binary64 q = .fin q := by
      rw [hread] at hvalue
      exact hvalue
    rw [conforms_fin_iff, Scalar.num.injEq, Within]
    by_cases hplain : Plain q
    · rw [if_pos hplain, parseIntOf, parseInt_plain hround hplain]
      exact bounded_intCast _
    · obtain ⟨d, hone, hnine, hdigit⟩ := parseInt_not_plain hround hplain
      have hcast : (if q < 0 then -(d : ℚ) else d) = ((if q < 0 then -(d : ℤ) else d : ℤ) : ℚ) := by
        split_ifs <;> simp
      have hrange : t.bounded (.fin ((if q < 0 then -(d : ℤ) else d : ℤ) : ℚ)) =
          .fin (max t.low (min t.high (if q < 0 then -(d : ℤ) else d)) : ℤ) := by
        have hhigh := t.digit_le_high hnine
        refine (bounded_intCast _).mpr ⟨?_, ?_⟩
        · rintro rfl
          have hlow := low_lt_neg_digit (t := int64) rfl hnine
          split_ifs <;> omega
        · rintro rfl
          split_ifs <;> omega
      rw [if_neg hplain, parseIntOf, hdigit, hcast, hrange, Number.fin.injEq, Int.cast_inj]
      exact digit_conforms_iff hplain hone hnine

/-- A command of the given type and value to a metric of a device. -/
def deviceCommand (type : String) (value : Number) : CommandDocument where
  protocolSourceASDU := some type
  protocolSourceObjectAddress := "spBv1.0/G/E/D/m"
  value := value

/-- A command for 300.5 is bounded by the largest value of the type. -/
theorem large_command_bounded :
    ∃ p, getMetricCommandPayload 0 (deviceCommand "Int8" (.fin (601 / 2))) = some p ∧
      Conforms .int8 (.fin (601 / 2)) (sentValue p) := by
  have hsent : getMetricCommandPayload 0 (deviceCommand "Int8" (.fin (601 / 2))) =
      some (.dcmd "G" "E" "D" ⟨"m", .num (.fin 127), "int8", 0⟩) := by decide +kernel
  exact ⟨_, hsent, (sent_conforms_iff 0 (t := .int8) (by decide +kernel) (by decide +kernel)
    hsent).mpr (by decide +kernel)⟩

/-- Ten to the twenty-first is read as one, and ten to the nineteenth is sent as it
is to a metric of 64 bits. -/
theorem extreme_commands_sent :
    (∃ p, getMetricCommandPayload 0 (deviceCommand "Int8" (.fin (10 ^ 21))) = some p ∧
        ¬Conforms .int8 (.fin (10 ^ 21)) (sentValue p)) ∧
      ∃ p, getMetricCommandPayload 0 (deviceCommand "Int64" (.fin (10 ^ 19))) = some p ∧
        ¬Conforms .int64 (.fin (10 ^ 19)) (sentValue p) := by
  refine ⟨⟨.dcmd "G" "E" "D" ⟨"m", .num (.fin 1), "int8", 0⟩, by decide +kernel, ?_⟩,
    .dcmd "G" "E" "D" ⟨"m", .num (.fin (10 ^ 19)), "int64", 0⟩, by decide +kernel, ?_⟩
  · rw [conforms_fin_iff]
    decide +kernel
  · rw [conforms_fin_iff]
    decide +kernel

end JsonScada.System.CommandClamp
