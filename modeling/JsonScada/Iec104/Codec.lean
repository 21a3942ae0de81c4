/- path: JsonScada/Iec104/Codec
   source: src/lib60870.netcore/lib60870.netcore/lib60870, CS101 (ASDU.cs, InformationObject.cs,
   QualityDescriptor.cs, ScaledValue.cs and the classes of the objects) and CP56Time2a.cs
   digest: The octets of the information objects, and the objects read back from them. -/

import JsonScada.Iec104.Asdu
import JsonScada.Lib.Calendar
import JsonScada.Lib.OctetReader
import JsonScada.Lib.Single

set_option autoImplicit false
set_option relaxedAutoImplicit false

namespace JsonScada.Iec104.Codec

open JsonScada.Lib.Binary64 JsonScada.Lib.DotNet JsonScada.Lib.Calendar
open JsonScada.Lib.Endian (bytes ofBytes)
open JsonScada.Lib.OctetReader
open JsonScada.Iec104.Types JsonScada.Iec104.Objects JsonScada.Iec104.Asdu

section Masks

/-- A flag of an octet, or nothing. -/
def bit (mask : ℕ) (set : Bool) : ℕ := if set then mask else 0

theorem land_7f (n : ℕ) : n &&& 0x7f = n % 128 := Nat.and_two_pow_sub_one_eq_mod n 7

theorem land_3f (n : ℕ) : n &&& 0x3f = n % 64 := Nat.and_two_pow_sub_one_eq_mod n 6

theorem land_1f (n : ℕ) : n &&& 0x1f = n % 32 := Nat.and_two_pow_sub_one_eq_mod n 5

theorem land_0f (n : ℕ) : n &&& 0x0f = n % 16 := Nat.and_two_pow_sub_one_eq_mod n 4

/-- The highest bit of an octet. -/
theorem land_80 {n : ℕ} (h : n < 256) : n &&& 0x80 = 0x80 ↔ 128 ≤ n := by
  have hall : ∀ k < 256, k &&& 0x80 = 0x80 ↔ 128 ≤ k := by decide +kernel
  exact hall n h

end Masks

section Descriptors

/-- `EncodedValue` of a descriptor with these flags. -/
def EncodedValue (q : QualityDescriptor) : ℕ :=
  bit 0x01 q.overflow + bit 0x10 q.blocked + bit 0x20 q.substituted + bit 0x40 q.nonTopical +
    bit 0x80 q.invalid

/-- The flags of a descriptor with this `EncodedValue`. -/
def qualityDescriptor (encodedValue : ℕ) : QualityDescriptor where
  overflow := encodedValue &&& 0x01 ≠ 0
  blocked := encodedValue &&& 0x10 ≠ 0
  substituted := encodedValue &&& 0x20 ≠ 0
  nonTopical := encodedValue &&& 0x40 ≠ 0
  invalid := encodedValue &&& 0x80 ≠ 0

theorem qualityDescriptor_EncodedValue (q : QualityDescriptor) :
    qualityDescriptor (EncodedValue q) = q := by
  have hall : ∀ i s o b n : Bool,
      qualityDescriptor (EncodedValue ⟨i, s, o, b, n⟩) = ⟨i, s, o, b, n⟩ := by decide
  exact hall _ _ _ _ _

/-- The octets of a `ScaledValue`. -/
def scaledValue (value : ℤ) : List ℕ := bytes 2 (value % 65536).toNat

/-- The value of two octets, with its sign. -/
def ofScaledValue : Reader ℤ :=
  (fun n : ℕ => if 32767 < n then (n - 65536 : ℤ) else n) <$> number 2

theorem reads_scaledValue {value : ℤ} (h : -32768 ≤ value ∧ value ≤ 32767) :
    Reads ofScaledValue (scaledValue value) value := by
  have hlt : (value % 65536).toNat < 256 ^ 2 := by omega
  have hread := (Reads.number hlt).map fun n : ℕ => if 32767 < n then (n - 65536 : ℤ) else n
  have hback : (if 32767 < (value % 65536).toNat then ((value % 65536).toNat - 65536 : ℤ)
      else (value % 65536).toNat) = value := by
    split <;> omega
  rw [hback] at hread
  exact hread

/-- The octets of a single precision number, the lowest first. -/
def singleOctets (value : Number) : List ℕ := bytes 4 (binary32.encode value)

/-- `BitConverter.ToSingle` -/
def toSingleOf : Reader Number := binary32.decode <$> number 4

theorem regular_single : binary32.Regular := ⟨by decide, by decide⟩

theorem reads_single {value : Number} (h : binary32.Holds value) :
    Reads toSingleOf (singleOctets value) value := by
  have hlt : binary32.encode value < 256 ^ 4 :=
    (Format.encode_lt regular_single h).trans_eq (by decide)
  have hread := (Reads.number hlt).map binary32.decode
  rw [Format.decode_encode regular_single h] at hread
  exact hread

/-- A byte that is kept as a number. -/
def byteOf : Reader ℤ := (fun n : ℕ => (n : ℤ)) <$> next

theorem reads_byte {n : ℤ} (h : 0 ≤ n) : Reads byteOf [n.toNat] n :=
  ((Reads.next n.toNat).map _).of_eq (Int.toNat_of_nonneg h)

/-- A bitstring of 32 bits. -/
def bitstring : Reader ℤ := (fun n : ℕ => (n : ℤ)) <$> number 4

theorem reads_bitstring {value : ℤ} (h : 0 ≤ value ∧ value ≤ 4294967295) :
    Reads bitstring (bytes 4 value.toNat) value := by
  have hlt : value.toNat < 256 ^ 4 := by omega
  have hread := (Reads.number hlt).map fun n : ℕ => (n : ℤ)
  rw [Int.toNat_of_nonneg h.1] at hread
  exact hread

def DoublePointValue.code : DoublePointValue → ℕ
  | .INTERMEDIATE => 0
  | .OFF => 1
  | .ON => 2
  | .INDETERMINATE => 3

/-- `(DoublePointValue)(diq & 0x03)` -/
def doublePointValue (diq : ℕ) : DoublePointValue :=
  match diq &&& 0x03 with
  | 0 => .INTERMEDIATE
  | 1 => .OFF
  | 2 => .ON
  | _ => .INDETERMINATE

/-- A double point value with the overflow flag added to its number. -/
def carried (value : DoublePointValue) (overflow : Bool) : DoublePointValue :=
  doublePointValue (DoublePointValue.code value + bit 0x01 overflow)

end Descriptors

section Time

/-- The octets of the time tag of a `DateTime`: the milliseconds of the minute, minute and
invalid flag, hour, day, month and the year of the century. -/
def encodedValue (c : CP56Time2a) : List ℕ :=
  let time := reading c.time
  bytes 2 (time.second * 1000 + time.millisecond).toNat ++
    [time.minute.toNat + bit 0x80 c.invalid, time.hour.toNat, time.day.toNat, time.month.toNat,
      (time.year % 100).toNat]

/-- `new DateTime(0)` -/
def DateTime.zero : ℤ := -62135596800000

/-- `GetDateTime(1970)`, for the fields of the octets. -/
def GetDateTime (Year Month DayOfMonth Hour Minute millies : ℕ) : ℤ :=
  let baseYear := if Year < 70 then 2000 else 1900
  (timeOf {
    year := (baseYear + Year : ℕ)
    month := (if Month = 0 then 1 else Month : ℕ)
    day := (if DayOfMonth = 0 then 1 else DayOfMonth : ℕ)
    hour := Hour
    minute := Minute
    second := (millies / 1000 : ℕ)
    millisecond := (millies % 1000 : ℕ) }).getD DateTime.zero

/-- The time tag of seven octets. -/
def cp56Time2a : Reader CP56Time2a := do
  let millies ← number 2
  let minute ← next
  let hour ← next
  let day ← next
  let month ← next
  let year ← next
  return {
    time := GetDateTime (year &&& 0x7f) (month &&& 0x0f) (day &&& 0x1f) (hour &&& 0x1f)
      (minute &&& 0x3f) millies
    invalid := minute &&& 0x80 = 0x80 }

/-- The times from 1970 to 2069. -/
def inCentury (time : ℤ) : Prop := 0 ≤ time ∧ time < 3155760000000

instance (time : ℤ) : Decidable (inCentury time) := inferInstanceAs (Decidable (_ ∧ _))

/-- The fields of a reading of these times give it back. -/
theorem GetDateTime_reading {time : ℤ} (h : inCentury time) :
    GetDateTime ((reading time).year % 100).toNat (reading time).month.toNat
      (reading time).day.toNat (reading time).hour.toNat (reading time).minute.toNat
      ((reading time).second * 1000 + (reading time).millisecond).toNat = time := by
  obtain ⟨hlow, hhigh⟩ := h
  have hyear := @civil_century (time / 86400000) (by omega) (by omega)
  obtain ⟨hmonth, hday⟩ := civil_bounds (time / 86400000)
  have hback := timeOf_reading time
  have hhour : (reading time).hour = time / 3600000 % 24 := rfl
  have hminute : (reading time).minute = time / 60000 % 60 := rfl
  have hsecond : (reading time).second = time / 1000 % 60 := rfl
  have hmillisecond : (reading time).millisecond = time % 1000 := rfl
  change 1970 ≤ (reading time).year ∧ (reading time).year < 2070 at hyear
  change 1 ≤ (reading time).month ∧ (reading time).month ≤ 12 at hmonth
  change 1 ≤ (reading time).day ∧ (reading time).day ≤ 31 at hday
  unfold GetDateTime
  generalize reading time = r at *
  have hbase : (if (r.year % 100).toNat < 70 then 2000 else 1900) + (r.year % 100).toNat =
      r.year.toNat := by
    split <;> omega
  have hsplit : (r.second * 1000 + r.millisecond).toNat / 1000 = r.second.toNat ∧
      (r.second * 1000 + r.millisecond).toNat % 1000 = r.millisecond.toNat := by
    omega
  have hfields : ({
      year := r.year.toNat
      month := r.month.toNat
      day := r.day.toNat
      hour := r.hour.toNat
      minute := r.minute.toNat
      second := r.second.toNat
      millisecond := r.millisecond.toNat } : Reading) = r := by
    obtain ⟨year, month, day, hour, minute, second, millisecond⟩ := r
    dsimp only at *
    rw [Reading.mk.injEq]
    omega
  dsimp only
  rw [hbase, hsplit.1, hsplit.2, if_neg (by omega : ¬r.month.toNat = 0),
    if_neg (by omega : ¬r.day.toNat = 0), hfields, hback, Option.getD_some]

theorem reads_cp56Time2a {c : CP56Time2a} (h : inCentury c.time) :
    Reads cp56Time2a (encodedValue c) c := by
  have htime := GetDateTime_reading h
  obtain ⟨hmonth, hday⟩ := civil_bounds (c.time / 86400000)
  have hhour : (reading c.time).hour = c.time / 3600000 % 24 := rfl
  have hminute : (reading c.time).minute = c.time / 60000 % 60 := rfl
  have hsecond : (reading c.time).second = c.time / 1000 % 60 := rfl
  have hmillisecond : (reading c.time).millisecond = c.time % 1000 := rfl
  change 1 ≤ (reading c.time).month ∧ (reading c.time).month ≤ 12 at hmonth
  change 1 ≤ (reading c.time).day ∧ (reading c.time).day ≤ 31 at hday
  unfold encodedValue
  generalize reading c.time = r at *
  have hflag : bit 0x80 c.invalid = 0 ∧ c.invalid = false ∨
      bit 0x80 c.invalid = 128 ∧ c.invalid = true := by
    cases c.invalid <;> simp [bit]
  have hoctet : r.minute.toNat + bit 0x80 c.invalid < 256 := by omega
  have hmillies : (r.second * 1000 + r.millisecond).toNat < 256 ^ 2 := by omega
  have hminute' : (r.minute.toNat + bit 0x80 c.invalid) % 64 = r.minute.toNat := by omega
  have hinvalid : decide (128 ≤ r.minute.toNat + bit 0x80 c.invalid) = c.invalid := by
    rcases hflag with ⟨hbit, hset⟩ | ⟨hbit, hset⟩
    · rw [hbit, hset, decide_eq_false_iff_not]
      omega
    · rw [hbit, hset, decide_eq_true_iff]
      omega
  refine (Reads.number hmillies).bind fun rest => ?_
  change some (({
    time := GetDateTime ((r.year % 100).toNat &&& 0x7f) (r.month.toNat &&& 0x0f)
      (r.day.toNat &&& 0x1f) (r.hour.toNat &&& 0x1f)
      ((r.minute.toNat + bit 0x80 c.invalid) &&& 0x3f) (r.second * 1000 + r.millisecond).toNat
    invalid := (r.minute.toNat + bit 0x80 c.invalid) &&& 0x80 = 0x80 } : CP56Time2a), rest) =
      some (c, rest)
  rw [land_7f, land_3f, land_1f, land_1f, land_0f, hminute',
    Nat.mod_eq_of_lt (by omega : (r.year % 100).toNat < 128),
    Nat.mod_eq_of_lt (by omega : r.month.toNat < 16),
    Nat.mod_eq_of_lt (by omega : r.day.toNat < 32),
    Nat.mod_eq_of_lt (by omega : r.hour.toNat < 32), htime]
  simp only [land_80 hoctet, hinvalid]

end Time

section Contents

/-- What `Encode` of the class of the content appends between the address and the time tag;
none where a quality is missing. -/
def contentOctets (c : Content) (quality : Option QualityDescriptor) : Option (List ℕ) :=
  match c with
  | .single value => quality.map fun q => [(EncodedValue q + bit 0x01 value) % 256]
  | .double value => quality.map fun q => [(EncodedValue q + DoublePointValue.code value) % 256]
  | .step value isTransient => quality.map fun q =>
    [((if value < 0 then value + 128 else value).toNat % 256 + bit 0x80 isTransient) % 256,
      EncodedValue q]
  | .normalized value | .scaled value => quality.map fun q => scaledValue value ++ [EncodedValue q]
  | .normalizedWithoutQuality value => some (scaledValue value)
  | .short value => quality.map fun q => singleOctets value ++ [EncodedValue q]
  | .bitstring value => quality.map fun q => bytes 4 value.toNat ++ [EncodedValue q]
  | .singleCommand command select qu =>
    some [(qu % 32 * 4).toNat ||| bit 0x01 command ||| bit 0x80 select]
  | .doubleCommand state select qu | .stepCommand state select qu =>
    some [(state % 4 + (qu % 32 * 4).toNat) ||| bit 0x80 select]
  | .setpointNormalized value select | .setpointScaled value select =>
    some (scaledValue value ++ [bit 0x80 select])
  | .setpointShort value select => some (singleOctets value ++ [bit 0x80 select])
  | .bitstringCommand value => some (bytes 4 value.toNat)
  | .interrogationCommand n | .counterInterrogationCommand n | .resetProcessCommand n
  | .parameterActivation n => some [n.toNat]
  | .readCommand | .clockSynchronizationCommand => some []
  | .testCommand tsc => some (bytes 2 tsc.toNat)
  | .parameterNormalized value qpm | .parameterScaled value qpm =>
    some (scaledValue value ++ [qpm.toNat])
  | .parameterFloat value qpm => some (singleOctets value ++ [qpm.toNat])

/-- What the constructor of the class of the type reads between the address and the time
tag. -/
def content (t : TypeID) : Reader (Content × Option QualityDescriptor) :=
  match withoutTime t with
  | .M_SP_NA_1 => do
    let siq ← next
    return (.single (siq &&& 0x01 = 0x01), some (qualityDescriptor (siq &&& 0xf0)))
  | .M_DP_NA_1 => do
    let diq ← next
    return (.double (doublePointValue diq), some (qualityDescriptor (diq &&& 0xf0)))
  | .M_ST_NA_1 => do
    let vti ← next
    let qds ← next
    let value : ℤ := (vti &&& 0x7f : ℕ)
    return (.step (if 63 < value then value - 128 else value) (vti &&& 0x80 = 0x80),
      some (qualityDescriptor qds))
  | .M_ME_NA_1 => do
    let value ← ofScaledValue
    let qds ← next
    return (.normalized value, some (qualityDescriptor qds))
  | .M_ME_NB_1 => do
    let value ← ofScaledValue
    let qds ← next
    return (.scaled value, some (qualityDescriptor qds))
  | .M_ME_ND_1 => do
    let value ← ofScaledValue
    return (.normalizedWithoutQuality value, none)
  | .M_ME_NC_1 => do
    let value ← toSingleOf
    let qds ← next
    return (.short value, some (qualityDescriptor qds))
  | .M_BO_NA_1 => do
    let value ← bitstring
    let qds ← next
    return (.bitstring value, some (qualityDescriptor qds))
  | .C_SC_NA_1 => do
    let sco ← next
    return (.singleCommand (sco &&& 0x01 = 0x01) (sco &&& 0x80 = 0x80) ((sco &&& 0x7c) / 4 : ℕ),
      none)
  | .C_DC_NA_1 => do
    let dcq ← next
    return (.doubleCommand (dcq &&& 0x03) (dcq &&& 0x80 = 0x80) ((dcq &&& 0x7c) / 4 : ℕ), none)
  | .C_RC_NA_1 => do
    let dcq ← next
    return (.stepCommand (dcq &&& 0x03) (dcq &&& 0x80 = 0x80) ((dcq &&& 0x7c) / 4 : ℕ), none)
  | .C_SE_NA_1 => do
    let value ← ofScaledValue
    let qos ← next
    return (.setpointNormalized value (qos &&& 0x80 = 0x80), none)
  | .C_SE_NB_1 => do
    let value ← ofScaledValue
    let qos ← next
    return (.setpointScaled value (qos &&& 0x80 = 0x80), none)
  | .C_SE_NC_1 => do
    let value ← toSingleOf
    let qos ← next
    return (.setpointShort value (qos &&& 0x80 = 0x80), none)
  | .C_BO_NA_1 => do
    let value ← bitstring
    return (.bitstringCommand value, none)
  | .C_IC_NA_1 => do
    let qoi ← byteOf
    return (.interrogationCommand qoi, none)
  | .C_CI_NA_1 => do
    let qcc ← byteOf
    return (.counterInterrogationCommand qcc, none)
  | .C_RD_NA_1 => return (.readCommand, none)
  | .C_CS_NA_1 => return (.clockSynchronizationCommand, none)
  | .C_RP_NA_1 => do
    let qrp ← byteOf
    return (.resetProcessCommand qrp, none)
  | .C_TS_TA_1 => do
    let tsc ← number 2
    return (.testCommand tsc, none)
  | .P_ME_NA_1 => do
    let value ← ofScaledValue
    let qpm ← byteOf
    return (.parameterNormalized value qpm, none)
  | .P_ME_NB_1 => do
    let value ← ofScaledValue
    let qpm ← byteOf
    return (.parameterScaled value qpm, none)
  | .P_ME_NC_1 => do
    let value ← toSingleOf
    let qpm ← byteOf
    return (.parameterFloat value qpm, none)
  | .P_AC_NA_1 => do
    let qpa ← byteOf
    return (.parameterActivation qpa, none)
  | _ => fun _ => none

/-- The values that the objects can have. -/
def InRange : Content → Prop
  | .step value _ => -64 ≤ value ∧ value ≤ 63
  | .normalized value | .normalizedWithoutQuality value | .scaled value
  | .setpointNormalized value _ | .setpointScaled value _ => -32768 ≤ value ∧ value ≤ 32767
  | .short value | .setpointShort value _ => binary32.Holds value
  | .bitstring value | .bitstringCommand value => 0 ≤ value ∧ value ≤ 4294967295
  | .singleCommand _ _ qu => 0 ≤ qu ∧ qu < 32
  | .doubleCommand state _ qu | .stepCommand state _ qu => state < 4 ∧ 0 ≤ qu ∧ qu < 32
  | .interrogationCommand n | .counterInterrogationCommand n | .resetProcessCommand n
  | .parameterActivation n => 0 ≤ n ∧ n ≤ 255
  | .testCommand tsc => 0 ≤ tsc ∧ tsc ≤ 65535
  | .parameterNormalized value qpm | .parameterScaled value qpm =>
    (-32768 ≤ value ∧ value ≤ 32767) ∧ 0 ≤ qpm ∧ qpm ≤ 255
  | .parameterFloat value qpm => binary32.Holds value ∧ 0 ≤ qpm ∧ qpm ≤ 255
  | _ => True

/-- The classes with a quality. -/
def hasQuality : Content → Bool
  | .single _ | .double _ | .step _ _ | .normalized _ | .scaled _ | .short _ | .bitstring _ => true
  | _ => false

/-- The content and the quality as they are received: the overflow flag of a single or double
point is added to its value. -/
def receivedContent (c : Content) (quality : Option QualityDescriptor) :
    Content × Option QualityDescriptor :=
  let overflow := quality.any (·.overflow)
  match c with
  | .single value => (.single (value ^^ overflow), quality.map ({ · with overflow := false }))
  | .double value =>
    (.double (carried value overflow), quality.map ({ · with overflow := false }))
  | c => (c, quality)

theorem single_received (value : Bool) (q : QualityDescriptor) :
    (decide ((EncodedValue q + bit 0x01 value) % 256 &&& 0x01 = 0x01),
      qualityDescriptor ((EncodedValue q + bit 0x01 value) % 256 &&& 0xf0)) =
        ((value ^^ q.overflow), { q with overflow := false }) := by
  have hall : ∀ v i s o b n : Bool,
      (decide ((EncodedValue ⟨i, s, o, b, n⟩ + bit 0x01 v) % 256 &&& 0x01 = 0x01),
        qualityDescriptor ((EncodedValue ⟨i, s, o, b, n⟩ + bit 0x01 v) % 256 &&& 0xf0)) =
          ((v ^^ o), ⟨i, s, false, b, n⟩) := by
    decide +kernel
  exact hall _ _ _ _ _ _

theorem double_received (value : DoublePointValue) (q : QualityDescriptor) :
    (doublePointValue ((EncodedValue q + DoublePointValue.code value) % 256),
      qualityDescriptor ((EncodedValue q + DoublePointValue.code value) % 256 &&& 0xf0)) =
        (carried value q.overflow, { q with overflow := false }) := by
  have hall : ∀ i s o b n : Bool,
      (doublePointValue ((EncodedValue ⟨i, s, o, b, n⟩ + DoublePointValue.code value) % 256),
        qualityDescriptor
          ((EncodedValue ⟨i, s, o, b, n⟩ + DoublePointValue.code value) % 256 &&& 0xf0)) =
            (carried value o, ⟨i, s, false, b, n⟩) := by
    cases value <;> decide +kernel
  exact hall _ _ _ _ _

/-- The state, the select flag and the qualifier of a command in its octet. -/
theorem command_received {state qu : ℕ} (select : Bool) (hstate : state < 4) (hqu : qu < 32) :
    (state + qu * 4 ||| bit 0x80 select) &&& 0x03 = state ∧
      decide ((state + qu * 4 ||| bit 0x80 select) &&& 0x80 = 0x80) = select ∧
      ((state + qu * 4 ||| bit 0x80 select) &&& 0x7c) / 4 = qu := by
  have hall : ∀ b : Bool, ∀ s < 4, ∀ n < 32, (s + n * 4 ||| bit 0x80 b) &&& 0x03 = s ∧
      decide ((s + n * 4 ||| bit 0x80 b) &&& 0x80 = 0x80) = b ∧
      ((s + n * 4 ||| bit 0x80 b) &&& 0x7c) / 4 = n := by
    decide +kernel
  exact hall select state hstate qu hqu

theorem single_command_received {qu : ℕ} (command select : Bool) (hqu : qu < 32) :
    decide ((qu * 4 ||| bit 0x01 command ||| bit 0x80 select) &&& 0x01 = 0x01) = command ∧
      decide ((qu * 4 ||| bit 0x01 command ||| bit 0x80 select) &&& 0x80 = 0x80) = select ∧
      ((qu * 4 ||| bit 0x01 command ||| bit 0x80 select) &&& 0x7c) / 4 = qu := by
  have hall : ∀ a b : Bool, ∀ n < 32,
      decide ((n * 4 ||| bit 0x01 a ||| bit 0x80 b) &&& 0x01 = 0x01) = a ∧
        decide ((n * 4 ||| bit 0x01 a ||| bit 0x80 b) &&& 0x80 = 0x80) = b ∧
        ((n * 4 ||| bit 0x01 a ||| bit 0x80 b) &&& 0x7c) / 4 = n := by
    decide +kernel
  exact hall command select qu hqu

theorem step_received {value : ℤ} (isTransient : Bool) (h : -64 ≤ value ∧ value ≤ 63) :
    let vti := ((if value < 0 then value + 128 else value).toNat % 256 + bit 0x80 isTransient) % 256
    (if 63 < ((vti &&& 0x7f : ℕ) : ℤ) then ((vti &&& 0x7f : ℕ) : ℤ) - 128
      else ((vti &&& 0x7f : ℕ) : ℤ)) = value ∧ decide (vti &&& 0x80 = 0x80) = isTransient := by
  have hall : ∀ b : Bool, ∀ n < 128, (n + bit 0x80 b) % 256 &&& 0x7f = n ∧
      decide ((n + bit 0x80 b) % 256 &&& 0x80 = 0x80) = b := by
    decide +kernel
  have hlt : (if value < 0 then value + 128 else value).toNat % 256 < 128 := by
    split <;> omega
  obtain ⟨hvalue, htransient⟩ := hall isTransient _ hlt
  dsimp only
  rw [hvalue]
  refine ⟨?_, htransient⟩
  by_cases hneg : value < 0
  · rw [if_pos hneg] at hlt ⊢
    rw [if_pos (by omega)]
    omega
  · rw [if_neg hneg] at hlt ⊢
    rw [if_neg (by omega)]
    omega

theorem select_received (select : Bool) : decide (bit 0x80 select &&& 0x80 = 0x80) = select := by
  cases select <;> rfl

section Shapes

variable {α β : Type}

theorem reads_octet (b : ℕ) (make : ℕ → β) :
    Reads (do let b ← next; return make b) [b] (make b) := fun _ => rfl

theorem reads_only {r : Reader α} {octets : List ℕ} {a : α} (h : Reads r octets a)
    (make : α → β) : Reads (do let a ← r; return make a) octets (make a) := h.map make

/-- A value with an octet after it. -/
theorem reads_with {r : Reader α} {octets : List ℕ} {a : α} (h : Reads r octets a) (b : ℕ)
    (make : α → ℕ → β) :
    Reads (do let a ← r; let b ← next; return make a b) (octets ++ [b]) (make a b) :=
  h.bind fun _ => rfl

/-- A value with the quality of an object after it. -/
theorem reads_quality {r : Reader α} {octets : List ℕ} {a : α} (h : Reads r octets a)
    (q : QualityDescriptor) (make : α → Content) :
    Reads (do let a ← r; let qds ← next; return (make a, some (qualityDescriptor qds)))
      (octets ++ [EncodedValue q]) (make a, some q) :=
  (reads_with h (EncodedValue q) fun a qds => (make a, some (qualityDescriptor qds))).of_eq
    (by rw [qualityDescriptor_EncodedValue])

/-- A value with the select flag of a command after it. -/
theorem reads_select {r : Reader α} {octets : List ℕ} {a : α} (h : Reads r octets a)
    (select : Bool) (make : α → Bool → β) :
    Reads (do let a ← r; let qos ← next; return make a (qos &&& 0x80 = 0x80))
      (octets ++ [bit 0x80 select]) (make a select) :=
  (reads_with h (bit 0x80 select) fun a qos => make a (qos &&& 0x80 = 0x80)).of_eq
    (by rw [select_received])

/-- A value with the byte of a parameter after it. -/
theorem reads_parameter {r : Reader α} {octets : List ℕ} {a : α} (h : Reads r octets a) {n : ℤ}
    (hn : 0 ≤ n) (make : α → ℤ → β) :
    Reads (do let a ← r; let b ← byteOf; return make a b) (octets ++ [n.toNat]) (make a n) :=
  h.bind (reads_only (reads_byte hn) (make a))

end Shapes

/-- The octets of a content are read back as it is received. -/
theorem reads_content {t : TypeID} {c : Content} {quality : Option QualityDescriptor}
    (ht : withoutTime t = c.type) (hrange : InRange c)
    (hquality : quality.isSome = hasQuality c) :
    ∃ octets, contentOctets c quality = some octets ∧
      Reads (content t) octets (receivedContent c quality) := by
  unfold content
  rw [ht]
  cases hhas : hasQuality c with
  | true =>
    obtain ⟨q, rfl⟩ := Option.isSome_iff_exists.mp (hquality.trans hhas)
    cases c with
    | single value =>
      obtain ⟨hvalue, hq⟩ := Prod.mk.inj (single_received value q)
      refine ⟨_, rfl, (reads_octet _ _).of_eq ?_⟩
      rw [hvalue, hq]
      rfl
    | double value =>
      obtain ⟨hvalue, hq⟩ := Prod.mk.inj (double_received value q)
      refine ⟨_, rfl, (reads_octet _ _).of_eq ?_⟩
      rw [hvalue, hq]
      rfl
    | step value isTransient =>
      obtain ⟨hvalue, htransient⟩ := step_received isTransient hrange
      refine ⟨_, rfl, (reads_with (Reads.next _) _ _).of_eq ?_⟩
      rw [hvalue, htransient, qualityDescriptor_EncodedValue]
      rfl
    | normalized value => exact ⟨_, rfl, reads_quality (reads_scaledValue hrange) q .normalized⟩
    | scaled value => exact ⟨_, rfl, reads_quality (reads_scaledValue hrange) q .scaled⟩
    | short value => exact ⟨_, rfl, reads_quality (reads_single hrange) q .short⟩
    | bitstring value => exact ⟨_, rfl, reads_quality (reads_bitstring hrange) q .bitstring⟩
    | _ => cases hhas
  | false =>
    have hnone : quality = none := by simpa [hhas] using hquality
    subst hnone
    cases c with
    | normalizedWithoutQuality value =>
      exact ⟨_, rfl, reads_only (reads_scaledValue hrange) fun value =>
        (Content.normalizedWithoutQuality value, none)⟩
    | singleCommand command select qu =>
      obtain ⟨hlow, hhigh⟩ := hrange
      obtain ⟨hcommand, hselect, hqu⟩ :=
        single_command_received command select (by omega : qu.toNat < 32)
      have hoctet : (qu % 32 * 4).toNat = qu.toNat * 4 := by omega
      refine ⟨_, rfl, (reads_octet _ _).of_eq ?_⟩
      rw [hoctet, hcommand, hselect, hqu, Int.toNat_of_nonneg hlow]
      rfl
    | doubleCommand state select qu =>
      obtain ⟨hstate, hlow, hhigh⟩ := hrange
      obtain ⟨hback, hselect, hqu⟩ :=
        command_received select hstate (by omega : qu.toNat < 32)
      have hoctet : state % 4 + (qu % 32 * 4).toNat = state + qu.toNat * 4 := by omega
      refine ⟨_, rfl, (reads_octet _ _).of_eq ?_⟩
      rw [hoctet, hback, hselect, hqu, Int.toNat_of_nonneg hlow]
      rfl
    | stepCommand state select qu =>
      obtain ⟨hstate, hlow, hhigh⟩ := hrange
      obtain ⟨hback, hselect, hqu⟩ :=
        command_received select hstate (by omega : qu.toNat < 32)
      have hoctet : state % 4 + (qu % 32 * 4).toNat = state + qu.toNat * 4 := by omega
      refine ⟨_, rfl, (reads_octet _ _).of_eq ?_⟩
      rw [hoctet, hback, hselect, hqu, Int.toNat_of_nonneg hlow]
      rfl
    | setpointNormalized value select =>
      exact ⟨_, rfl, reads_select (reads_scaledValue hrange) select fun value select =>
        (Content.setpointNormalized value select, none)⟩
    | setpointScaled value select =>
      exact ⟨_, rfl, reads_select (reads_scaledValue hrange) select fun value select =>
        (Content.setpointScaled value select, none)⟩
    | setpointShort value select =>
      exact ⟨_, rfl, reads_select (reads_single hrange) select fun value select =>
        (Content.setpointShort value select, none)⟩
    | bitstringCommand value =>
      exact ⟨_, rfl, reads_only (reads_bitstring hrange) fun value =>
        (Content.bitstringCommand value, none)⟩
    | interrogationCommand n =>
      exact ⟨_, rfl, reads_only (reads_byte hrange.1) fun n => (Content.interrogationCommand n, none)⟩
    | counterInterrogationCommand n =>
      exact ⟨_, rfl, reads_only (reads_byte hrange.1) fun n => (Content.counterInterrogationCommand n, none)⟩
    | resetProcessCommand n =>
      exact ⟨_, rfl, reads_only (reads_byte hrange.1) fun n => (Content.resetProcessCommand n, none)⟩
    | parameterActivation n =>
      exact ⟨_, rfl, reads_only (reads_byte hrange.1) fun n => (Content.parameterActivation n, none)⟩
    | readCommand => exact ⟨_, rfl, Reads.pure _⟩
    | clockSynchronizationCommand => exact ⟨_, rfl, Reads.pure _⟩
    | testCommand tsc =>
      obtain ⟨hlow, hhigh⟩ := hrange
      have hlt : tsc.toNat < 256 ^ 2 := by omega
      refine ⟨_, rfl, (reads_only (Reads.number hlt) _).of_eq ?_⟩
      rw [Int.toNat_of_nonneg hlow]
      rfl
    | parameterNormalized value qpm =>
      exact ⟨_, rfl, reads_parameter (reads_scaledValue hrange.1) hrange.2.1 fun value qpm =>
        (Content.parameterNormalized value qpm, none)⟩
    | parameterScaled value qpm =>
      exact ⟨_, rfl, reads_parameter (reads_scaledValue hrange.1) hrange.2.1 fun value qpm =>
        (Content.parameterScaled value qpm, none)⟩
    | parameterFloat value qpm =>
      exact ⟨_, rfl, reads_parameter (reads_single hrange.1) hrange.2.1 fun value qpm =>
        (Content.parameterFloat value qpm, none)⟩
    | _ => cases hhas

end Contents

end JsonScada.Iec104.Codec
