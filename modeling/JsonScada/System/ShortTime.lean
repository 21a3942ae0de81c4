/- path: JsonScada/System/ShortTime
   source: src/lib60870.netcore/iec104client/MongoUpdate.cs, ProcessMongo
   digest: When the date made of a short time tag is the time of the event. -/

import JsonScada.Iec104Client.TimeTag

set_option autoImplicit false
set_option relaxedAutoImplicit false

namespace JsonScada.System.ShortTime

open JsonScada.Lib.Calendar
open JsonScada.Lib.Binary64 (Number)
open JsonScada.Model.Documents (Date SourceDataUpdate)
open JsonScada.Iec104.Types JsonScada.Iec104.Objects
open JsonScada.Iec104Client.Update JsonScada.Iec104Client.TimeTag

/-- The tag has the minute, the second and the millisecond of the time, on a clock that is
`zone` milliseconds ahead of UTC. -/
structure TagOf (zone t : ℤ) (c : CP24Time2a) : Prop where
  minute : (c.Minute : ℤ) = (reading (t + zone)).minute
  second : (c.Second : ℤ) = (reading (t + zone)).second
  millisecond : (c.Millisecond : ℤ) = (reading (t + zone)).millisecond

/-- The tag a station makes of a time, with its quality. -/
def tagAt (zone t : ℤ) (invalid : Bool) : CP24Time2a :=
  (CP24Time2a.new (reading (t + zone)).minute.toNat (reading (t + zone)).second.toNat
    (reading (t + zone)).millisecond.toNat).setInvalid invalid

section Statement

variable (dateOf : CP56Time2a → Option Date) (doubleText : Number → String)

/-- An object of the type with the time tag, received at `r`, is written with the time `t` and
the quality of the tag. -/
def Rebuilt (zone t r : ℤ) (TypeId : TypeID) (c : CP24Time2a) (cp56 : CP56Time2a)
    (iv : IEC_Value) : Prop :=
  let u := sourceDataUpdateOf dateOf zone r doubleText (timestampsOf TypeId c cp56) iv
  u.timeTagAtSource = some t ∧ u.timeTagAtSourceOk = some !c.Invalid

/-- Both times are in one hour of the clock. -/
def SameHour (zone t r : ℤ) : Prop := (t + zone) / 3600000 = (r + zone) / 3600000

end Statement

variable {dateOf : CP56Time2a → Option Date} {doubleText : Number → String} {zone t r : ℤ}
  {TypeId : TypeID} {c : CP24Time2a} {cp56 : CP56Time2a} {iv : IEC_Value}

theorem tagOf_tagAt (zone t : ℤ) (invalid : Bool) :
    TagOf zone t (tagAt zone t invalid) ∧ (tagAt zone t invalid).Invalid = invalid := by
  obtain ⟨hms, hs, hm⟩ : (0 ≤ (reading (t + zone)).millisecond ∧
      (reading (t + zone)).millisecond < 1000) ∧ (0 ≤ (reading (t + zone)).second ∧
      (reading (t + zone)).second < 60) ∧ 0 ≤ (reading (t + zone)).minute ∧
      (reading (t + zone)).minute < 60 := by
    simp only [reading]
    omega
  have hmillies : (tagAt zone t invalid).millies =
      (reading (t + zone)).second.toNat * 1000 + (reading (t + zone)).millisecond.toNat := by
    rw [tagAt, CP24Time2a.millies_setInvalid]
    exact CP24Time2a.millies_new (by omega) (by omega)
  refine ⟨⟨?_, ?_, ?_⟩, CP24Time2a.Invalid_setInvalid _ _⟩
  · rw [tagAt, CP24Time2a.Minute_setInvalid, CP24Time2a.new,
      CP24Time2a.Minute_setMinute _ (by omega)]
    omega
  · rw [CP24Time2a.Second, hmillies]
    omega
  · rw [CP24Time2a.Millisecond, hmillies]
    omega

/-- The date made of a tag has the hour of its making. -/
theorem sourceTime_of_tagOf (hTypeId : TypeId ∈ shortTimed) (hc : TagOf zone t c) :
    sourceTime dateOf zone r (timestampsOf TypeId c cp56) =
      some ((r + zone) / 3600000 * 3600000 + (t + zone) % 3600000 - zone) := by
  have hreading : { reading (r + zone) with
      minute := (c.Minute : ℤ), second := (c.Second : ℤ), millisecond := (c.Millisecond : ℤ) } =
        withinHour (r + zone) (t + zone) := by
    rw [hc.minute, hc.second, hc.millisecond]
    rfl
  rw [timestampsOf, if_pos hTypeId, sourceTime, if_pos rfl]
  dsimp only at hreading ⊢
  rw [hreading, timeOf_withinHour, Option.map_some]

/-- The time is that of the event if the hour has not changed since, and the quality is that of
the tag if the tag is invalid: it is read from a long time tag that is not there. -/
theorem rebuilt_iff (hTypeId : TypeId ∈ shortTimed) (hc : TagOf zone t c) :
    Rebuilt dateOf doubleText zone t r TypeId c cp56 iv ↔
      SameHour zone t r ∧ c.Invalid = true := by
  have htime : sourceTime dateOf zone r (timestampsOf TypeId c cp56) = some t ↔
      SameHour zone t r := by
    rw [sourceTime_of_tagOf hTypeId hc, Option.some.injEq, SameHour]
    omega
  have hinvalid : (timestampsOf TypeId c cp56).sourceTimestampCP56.invalid = true := by
    rw [timestampsOf, if_pos hTypeId]
    rfl
  refine and_congr htime ?_
  change some (!(timestampsOf TypeId c cp56).sourceTimestampCP56.invalid) = some (!c.Invalid) ↔ _
  rw [hinvalid]
  cases c.Invalid <;> decide

section Breaker

/-- 2024-02-29, 23:59:59.250 on a clock one hour ahead of UTC. -/
def tripped : ℤ := 1709247599250

def breaker : IEC_Value where
  address := 1
  common_address := 1
  conn_number := 1
  asdu := .other 2
  value := .fin 1

def noText (_ : Number) : String := ""

theorem breaker_rebuilt :
    Rebuilt (fun _ => none) noText 3600000 tripped (tripped + 500) (.other 2)
      (tagAt 3600000 tripped true) invCP56 breaker := by
  obtain ⟨htag, hinvalid⟩ := tagOf_tagAt 3600000 tripped true
  exact (rebuilt_iff (by decide) htag).mpr ⟨by rw [SameHour]; decide, hinvalid⟩

/-- Two seconds later it is March: the event is dated an hour late, and a tag that is valid is
written as if it were not. -/
theorem breaker_dated_in_march :
    let u := sourceDataUpdateOf (fun _ => none) 3600000 (tripped + 2000) noText
      (timestampsOf (.other 2) (tagAt 3600000 tripped false) invCP56) breaker
    (u.timeTagAtSource = some (tripped + 3600000) ∧ u.timeTagAtSourceOk = some false ∧
      (tagAt 3600000 tripped false).Invalid = false) ∧
      ∀ r, ¬ Rebuilt (fun _ => none) noText 3600000 tripped r (.other 2)
        (tagAt 3600000 tripped false) invCP56 breaker := by
  obtain ⟨htag, hvalid⟩ := tagOf_tagAt 3600000 tripped false
  have htime : sourceTime (fun _ => none) 3600000 (tripped + 2000)
      (timestampsOf (.other 2) (tagAt 3600000 tripped false) invCP56) =
        some (tripped + 3600000) := by
    rw [sourceTime_of_tagOf (by decide) htag]
    decide
  refine ⟨⟨htime, by decide, hvalid⟩, fun r h => ?_⟩
  · have hok : (!(!(tagAt 3600000 tripped false).Invalid)) = true := by
      rw [← Option.some.inj h.2]
      rfl
    rw [hvalid] at hok
    cases hok

end Breaker

end JsonScada.System.ShortTime
