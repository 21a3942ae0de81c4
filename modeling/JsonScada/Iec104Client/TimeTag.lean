/- path: JsonScada/Iec104Client/TimeTag
   source: src/lib60870.netcore/iec104client/MongoUpdate.cs (ProcessMongo),
   AsduReceiveHandler.cs, src/lib60870.netcore/lib60870.netcore/lib60870/CP24Time2a.cs
   digest: Short time tags, and the dates made of the time tags of received values. -/

import JsonScada.Iec104Client.Update
import JsonScada.Lib.Calendar

set_option autoImplicit false
set_option relaxedAutoImplicit false

namespace JsonScada.Iec104Client.TimeTag

open JsonScada.Lib.Calendar
open JsonScada.Lib.Binary64 (Number)
open JsonScada.Model.Documents (Date SourceDataUpdate)
open JsonScada.Iec104.Types JsonScada.Iec104.Objects JsonScada.Iec104Client.Update

/-- Three bytes: the milliseconds of the minute, and the minute with its flags. -/
structure CP24Time2a where
  encodedValue0 : BitVec 8 := 0
  encodedValue1 : BitVec 8 := 0
  encodedValue2 : BitVec 8 := 0
  deriving DecidableEq

namespace CP24Time2a

def millies (c : CP24Time2a) : ℕ := c.encodedValue0.toNat + c.encodedValue1.toNat * 0x100

def Millisecond (c : CP24Time2a) : ℕ := c.millies % 1000

def Second (c : CP24Time2a) : ℕ := c.millies / 1000

def Minute (c : CP24Time2a) : ℕ := (c.encodedValue2 &&& 0x3f).toNat

def Invalid (c : CP24Time2a) : Bool := c.encodedValue2 &&& 0x80 = 0x80

def setMillies (c : CP24Time2a) (millies : ℕ) : CP24Time2a :=
  { c with
    encodedValue0 := BitVec.ofNat 8 millies
    encodedValue1 := BitVec.ofNat 8 (millies / 0x100) }

def setMillisecond (c : CP24Time2a) (value : ℕ) : CP24Time2a :=
  c.setMillies (c.Second * 1000 + value)

def setSecond (c : CP24Time2a) (value : ℕ) : CP24Time2a :=
  c.setMillies (value * 1000 + c.millies % 1000)

def setMinute (c : CP24Time2a) (value : ℕ) : CP24Time2a :=
  { c with encodedValue2 := (c.encodedValue2 &&& 0xc0) ||| (BitVec.ofNat 8 value &&& 0x3f) }

def setInvalid (c : CP24Time2a) (value : Bool) : CP24Time2a :=
  { c with
    encodedValue2 := if value then c.encodedValue2 ||| 0x80 else c.encodedValue2 &&& 0x7f }

/-- The constructor of a time. -/
def new (minute second millisecond : ℕ) : CP24Time2a :=
  (((({} : CP24Time2a).setMillisecond millisecond).setSecond second).setMinute minute)

theorem millies_setMillies (c : CP24Time2a) {n : ℕ} (h : n < 65536) :
    (c.setMillies n).millies = n := by
  simp only [millies, setMillies, BitVec.toNat_ofNat]
  omega

@[simp] theorem millies_setMinute (c : CP24Time2a) (n : ℕ) : (c.setMinute n).millies = c.millies :=
  rfl

@[simp] theorem millies_setInvalid (c : CP24Time2a) (b : Bool) :
    (c.setInvalid b).millies = c.millies := rfl

theorem Minute_setMinute (c : CP24Time2a) {n : ℕ} (h : n < 64) : (c.setMinute n).Minute = n := by
  have hbits : ((c.encodedValue2 &&& 0xc0) ||| (BitVec.ofNat 8 n &&& 0x3f)) &&& 0x3f =
      BitVec.ofNat 8 n &&& 0x3f := by
    rw [BitVec.and_or_distrib_right, BitVec.and_assoc, BitVec.and_assoc]
    simp
  have hmask : (BitVec.ofNat 8 n &&& 0x3f).toNat = n := by
    rw [BitVec.toNat_and, BitVec.toNat_ofNat, Nat.mod_eq_of_lt (by omega)]
    exact (Nat.and_two_pow_sub_one_eq_mod n 6).trans (Nat.mod_eq_of_lt h)
  rw [Minute, setMinute, hbits, hmask]

theorem Minute_setInvalid (c : CP24Time2a) (b : Bool) : (c.setInvalid b).Minute = c.Minute := by
  cases b with
  | true =>
    have hbits : (c.encodedValue2 ||| 0x80) &&& 0x3f = c.encodedValue2 &&& 0x3f := by
      rw [BitVec.and_or_distrib_right]
      simp
    simp only [Minute, setInvalid, if_true, hbits]
  | false =>
    have hbits : (c.encodedValue2 &&& 0x7f) &&& 0x3f = c.encodedValue2 &&& 0x3f := by
      rw [BitVec.and_assoc]
      rfl
    simp only [Minute, setInvalid, Bool.false_eq_true, if_false, hbits]

theorem Invalid_setInvalid (c : CP24Time2a) (b : Bool) : (c.setInvalid b).Invalid = b := by
  cases b with
  | true =>
    have hbits : (c.encodedValue2 ||| 0x80) &&& 0x80 = 0x80 := by
      rw [BitVec.and_or_distrib_right, BitVec.and_self]
      ext i hi
      simp
    simp only [Invalid, setInvalid, if_true, hbits, decide_true]
  | false =>
    have hbits : (c.encodedValue2 &&& 0x7f) &&& 0x80 = 0 := by
      rw [BitVec.and_assoc]
      simp
    simp only [Invalid, setInvalid, Bool.false_eq_true, if_false, hbits]
    rfl

/-- The constructor keeps what it is given. -/
theorem millies_new {minute second millisecond : ℕ} (hs : second < 60) (hms : millisecond < 1000) :
    (new minute second millisecond).millies = second * 1000 + millisecond := by
  have hzero : (({} : CP24Time2a).setMillisecond millisecond).millies = millisecond := by
    rw [setMillisecond]
    have hsecond : ({} : CP24Time2a).Second = 0 := by decide
    rw [hsecond, millies_setMillies _ (by omega)]
    omega
  rw [new, millies_setMinute, setSecond, hzero, millies_setMillies _ (by omega)]
  omega

end CP24Time2a

/-- The constant of the handler for the values without a long time tag. -/
def invCP56 : CP56Time2a := { time := 0, invalid := true }

def invCP24 : CP24Time2a := ({} : CP24Time2a).setInvalid true

/-- The time tags of a value in the queue. -/
structure SourceTimestamps where
  hasSourceTimestampCP24 : Bool
  hasSourceTimestampCP56 : Bool
  sourceTimestampCP24 : CP24Time2a
  sourceTimestampCP56 : CP56Time2a
  deriving DecidableEq

/-- The types with a short time tag: single and double points, step positions, bitstrings,
measured values, integrated totals and events of protection equipment. -/
def shortTimed : List TypeID :=
  [.other 2, .other 4, .other 6, .other 8, .other 10, .other 12, .other 14, .other 16,
    .other 17, .other 18, .other 19]

/-- The types with a long one. -/
def longTimed : List TypeID :=
  [.M_SP_TB_1, .M_DP_TB_1, .M_ST_TB_1, .M_BO_TB_1, .M_ME_TD_1, .M_ME_TE_1, .M_ME_TF_1,
    .M_IT_TB_1, .other 38, .other 39, .other 40]

/-- What `AsduReceivedHandler` enqueues of the time tag of an object of the type. -/
def timestampsOf (TypeId : TypeID) (cp24 : CP24Time2a) (cp56 : CP56Time2a) : SourceTimestamps :=
  if TypeId ∈ shortTimed then {
    hasSourceTimestampCP24 := true
    hasSourceTimestampCP56 := false
    sourceTimestampCP24 := cp24
    sourceTimestampCP56 := invCP56 }
  else if TypeId ∈ longTimed then {
    hasSourceTimestampCP24 := false
    hasSourceTimestampCP56 := true
    sourceTimestampCP24 := invCP24
    sourceTimestampCP56 := cp56 }
  else {
    hasSourceTimestampCP24 := false
    hasSourceTimestampCP56 := false
    sourceTimestampCP24 := invCP24
    sourceTimestampCP56 := invCP56 }

section ProcessMongo

variable (dateOf : CP56Time2a → Option Date) (zone now : ℤ)

/-- The date written for the time tags, on a clock that is `zone` milliseconds ahead of UTC
now and then. A constructor of `DateTime` that throws leaves none. -/
def sourceTime (s : SourceTimestamps) : Option Date :=
  if s.hasSourceTimestampCP24 then
    let dtnow := reading (now + zone)
    (timeOf { dtnow with
      minute := s.sourceTimestampCP24.Minute
      second := s.sourceTimestampCP24.Second
      millisecond := s.sourceTimestampCP24.Millisecond }).map (· - zone)
  else if s.hasSourceTimestampCP56 then dateOf s.sourceTimestampCP56
  else none

/-- A value with the time that is made of its time tags. -/
def withTimestamps (s : SourceTimestamps) (iv : IEC_Value) : IEC_Value :=
  { iv with
    sourceTimestamp := sourceTime dateOf zone now s
    sourceTimestampInvalid := s.sourceTimestampCP56.invalid }

/-- The document `ProcessMongo` writes of a value with its time tags. -/
def sourceDataUpdateOf (doubleText : Number → String) (s : SourceTimestamps) (iv : IEC_Value) :
    SourceDataUpdate :=
  sourceDataUpdate doubleText (withTimestamps dateOf zone now s iv)

end ProcessMongo

end JsonScada.Iec104Client.TimeTag
