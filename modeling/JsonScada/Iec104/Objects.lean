/- path: JsonScada/Iec104/Objects
   source: src/lib60870.netcore/iec104server/Common_srv_cli.cs and the same file of
   iec104client, BuildInfoObj
   digest: The information object the drivers build of a value. -/

import JsonScada.Iec104.Types

set_option autoImplicit false
set_option relaxedAutoImplicit false

namespace JsonScada.Iec104.Objects

open JsonScada.Lib.Binary64 JsonScada.Lib.DotNet JsonScada.Iec104.Types

structure QualityDescriptor where
  invalid : Bool := false
  substituted : Bool := false
  overflow : Bool := false
  blocked : Bool := false
  nonTopical : Bool := false
  deriving DecidableEq

/-- A time in milliseconds with its quality. -/
structure CP56Time2a where
  time : ℤ
  invalid : Bool := false
  deriving DecidableEq

inductive DoublePointValue where
  | INTERMEDIATE | OFF | ON | INDETERMINATE
  deriving DecidableEq

/-- What an information object carries besides its address, quality and time. A
normalized value is the raw number, the state of a double or step command 1 or 2. -/
inductive Content where
  | single (value : Bool)
  | double (value : DoublePointValue)
  | step (value : ℤ) (isTransient : Bool)
  | normalized (rawValue : ℤ)
  | normalizedWithoutQuality (rawValue : ℤ)
  | scaled (value : ℤ)
  | short (value : Number)
  | bitstring (value : ℤ)
  | singleCommand (command select : Bool) (qu : ℤ)
  | doubleCommand (state : ℕ) (select : Bool) (qu : ℤ)
  | stepCommand (state : ℕ) (select : Bool) (qu : ℤ)
  | setpointNormalized (rawValue : ℤ) (select : Bool)
  | setpointScaled (value : ℤ) (select : Bool)
  | setpointShort (value : Number) (select : Bool)
  | bitstringCommand (value : ℤ)
  | interrogationCommand (qoi : ℤ)
  | counterInterrogationCommand (qcc : ℤ)
  | readCommand
  | clockSynchronizationCommand
  | resetProcessCommand (qrp : ℤ)
  | testCommand (tsc : ℤ)
  | parameterNormalized (rawValue qpm : ℤ)
  | parameterScaled (value qpm : ℤ)
  | parameterFloat (value : Number) (qpm : ℤ)
  | parameterActivation (qpa : ℤ)
  deriving DecidableEq

/-- The type that has the content, without a time tag. -/
def Content.type : Content → TypeID
  | single _ => .M_SP_NA_1
  | double _ => .M_DP_NA_1
  | step _ _ => .M_ST_NA_1
  | normalized _ => .M_ME_NA_1
  | normalizedWithoutQuality _ => .M_ME_ND_1
  | scaled _ => .M_ME_NB_1
  | short _ => .M_ME_NC_1
  | bitstring _ => .M_BO_NA_1
  | singleCommand _ _ _ => .C_SC_NA_1
  | doubleCommand _ _ _ => .C_DC_NA_1
  | stepCommand _ _ _ => .C_RC_NA_1
  | setpointNormalized _ _ => .C_SE_NA_1
  | setpointScaled _ _ => .C_SE_NB_1
  | setpointShort _ _ => .C_SE_NC_1
  | bitstringCommand _ => .C_BO_NA_1
  | interrogationCommand _ => .C_IC_NA_1
  | counterInterrogationCommand _ => .C_CI_NA_1
  | readCommand => .C_RD_NA_1
  | clockSynchronizationCommand => .C_CS_NA_1
  | resetProcessCommand _ => .C_RP_NA_1
  | testCommand _ => .C_TS_TA_1
  | parameterNormalized _ _ => .P_ME_NA_1
  | parameterScaled _ _ => .P_ME_NB_1
  | parameterFloat _ _ => .P_ME_NC_1
  | parameterActivation _ => .P_AC_NA_1

structure InformationObject where
  type : TypeID
  objectAddress : ℤ
  content : Content
  quality : Option QualityDescriptor := none
  timestamp : Option CP56Time2a := none
  deriving DecidableEq

/-- The types with a time tag of the types without one (`maptowithcp56time`). -/
def withCP56Time : TypeID → TypeID
  | .M_SP_NA_1 => .M_SP_TB_1
  | .M_DP_NA_1 => .M_DP_TB_1
  | .M_ST_NA_1 => .M_ST_TB_1
  | .M_BO_NA_1 => .M_BO_TB_1
  | .M_ME_NA_1 => .M_ME_TD_1
  | .M_ME_NB_1 => .M_ME_TE_1
  | .M_ME_NC_1 => .M_ME_TF_1
  | .M_IT_NA_1 => .M_IT_TB_1
  | t => t

/-- The type without a time tag that carries the same content. -/
def withoutTime : TypeID → TypeID
  | .M_SP_TB_1 => .M_SP_NA_1
  | .M_DP_TB_1 => .M_DP_NA_1
  | .M_ST_TB_1 => .M_ST_NA_1
  | .M_BO_TB_1 => .M_BO_NA_1
  | .M_ME_TD_1 => .M_ME_NA_1
  | .M_ME_TE_1 => .M_ME_NB_1
  | .M_ME_TF_1 => .M_ME_NC_1
  | .M_IT_TB_1 => .M_IT_NA_1
  | .C_SC_TA_1 => .C_SC_NA_1
  | .C_DC_TA_1 => .C_DC_NA_1
  | .C_RC_TA_1 => .C_RC_NA_1
  | .C_SE_TA_1 => .C_SE_NA_1
  | .C_SE_TB_1 => .C_SE_NB_1
  | .C_SE_TC_1 => .C_SE_NC_1
  | .C_BO_TA_1 => .C_BO_NA_1
  | t => t

/-- The objects of these types are built with a time. -/
def hasTimestamp : TypeID → Bool
  | .M_SP_TB_1 | .M_DP_TB_1 | .M_ST_TB_1 | .M_BO_TB_1 | .M_ME_TD_1 | .M_ME_TE_1 | .M_ME_TF_1
  | .C_SC_TA_1 | .C_DC_TA_1 | .C_RC_TA_1 | .C_SE_TA_1 | .C_SE_TB_1 | .C_SE_TC_1 | .C_BO_TA_1
  | .C_CS_NA_1 | .C_TS_TA_1 => true
  | _ => false

/-- The commands to the whole station go to address zero. -/
def addressOf : TypeID → ℤ → ℤ
  | .C_IC_NA_1, _ | .C_CI_NA_1, _ | .C_CS_NA_1, _ | .C_TS_TA_1, _ => 0
  | _, addr => addr

/-- `value * kconv1 + kconv2` -/
def converted (value kconv1 kconv2 : Number) : Number := (value.mul kconv1).add kconv2

/-- `value != 0`, inverted for a factor of -1. -/
def boolean (value kconv1 : Number) : Bool :=
  let bval := !value.eqv (.fin 0)
  if kconv1 = .fin (-1) then !bval else bval

def doublePoint (value kconv1 : Number) (transient : Bool) : DoublePointValue :=
  if transient then .INTERMEDIATE else if boolean value kconv1 then .ON else .OFF

/-- Of the states of a double command, ON is 2 and OFF is 1. -/
def doubleState (value kconv1 : Number) : ℕ := if boolean value kconv1 then 2 else 1

/-- Of the states of a step command, HIGHER is 2 and LOWER is 1. -/
def stepState (value kconv1 : Number) : ℕ :=
  let higher := Number.le (.fin 1) value
  if (if kconv1 = .fin (-1) then !higher else higher) then 2 else 1

/-- `value > high`, or else `value < low` -/
def outside (low high : ℤ) (value : Number) : Bool :=
  Number.lt (.fin high) value || Number.lt value (.fin low)

/-- The nearest bound for a value outside of them. -/
def limit (low high : ℤ) (value : Number) : Number :=
  if Number.lt (.fin high) value then .fin high
  else if Number.lt value (.fin low) then .fin low else value

/-- A value cut to the range of its type sets the overflow flag, which throws where no
quality was given. -/
def flagOverflow (out : Bool) (quality : Option QualityDescriptor) :
    Option (Option QualityDescriptor) :=
  if out then quality.map fun q => some { q with overflow := true } else some quality

def measured (low high : ℤ) (value : Number) (quality : Option QualityDescriptor)
    (make : ℤ → Content) : Option (Option (Content × Option QualityDescriptor)) := do
  let quality ← flagOverflow (outside low high value) quality
  let n ← Convert.toInt16 (limit low high value)
  return some (make n, quality)

/-- `System.Convert.ToUInt32(value)`, all bits inverted for a factor of -1. -/
def bits (value kconv1 : Number) : Option ℤ :=
  (Convert.toUInt32 value).map fun n => if kconv1 = .fin (-1) then complementU32 n else n

/-- `System.Convert.ToByte` of an integer -/
def byte (n : ℤ) : Option ℤ := if 0 ≤ n ∧ n ≤ 255 then some n else none

/-- The constructor takes the number for a normalized value and cuts it to that range. -/
def normalizedParameter (n : ℤ) : ℤ :=
  if 0 < n then 32767 else if n < 0 then -32768 else 0

/-- The switch of `BuildInfoObj`: `none` where a conversion throws, `some none` for a
type without an object. Of the qualifier five bits are kept; the flag of a setpoint
command is sent with qualifier zero. -/
def buildContent (t : TypeID) (value : Number) (sbo : Bool) (cmdqualif : ℤ)
    (quality : Option QualityDescriptor) (kconv1 kconv2 : Number) (transient : Bool) :
    Option (Option (Content × Option QualityDescriptor)) :=
  match t with
  | .M_SP_NA_1 | .M_SP_TB_1 => some (some (.single (boolean value kconv1), quality))
  | .M_DP_NA_1 | .M_DP_TB_1 => some (some (.double (doublePoint value kconv1 transient), quality))
  | .M_ST_NA_1 | .M_ST_TB_1 =>
    measured (-64) 63 (converted value kconv1 kconv2) quality fun n => .step n transient
  | .M_ME_NA_1 | .M_ME_TD_1 =>
    measured (-32768) 32767 (converted value kconv1 kconv2) quality .normalized
  | .M_ME_ND_1 =>
    (measured (-32768) 32767 (converted value kconv1 kconv2) quality
      .normalizedWithoutQuality).map fun made => made.map fun c => (c.1, none)
  | .M_ME_NB_1 | .M_ME_TE_1 =>
    measured (-32768) 32767 (converted value kconv1 kconv2) quality .scaled
  | .M_ME_NC_1 | .M_ME_TF_1 =>
    some (some (.short (toSingle (converted value kconv1 kconv2)), quality))
  | .M_BO_NA_1 | .M_BO_TB_1 => (bits value kconv1).map fun n => some (.bitstring n, quality)
  | .C_SC_NA_1 | .C_SC_TA_1 =>
    some (some (.singleCommand (boolean value kconv1) sbo (cmdqualif % 32), none))
  | .C_DC_NA_1 | .C_DC_TA_1 =>
    some (some (.doubleCommand (doubleState value kconv1) sbo (cmdqualif % 32), none))
  | .C_RC_NA_1 | .C_RC_TA_1 =>
    some (some (.stepCommand (stepState value kconv1) sbo (cmdqualif % 32), none))
  | .C_SE_NA_1 | .C_SE_TA_1 =>
    (Convert.toInt16 (limit (-32768) 32767 (converted value kconv1 kconv2))).map fun n =>
      some (.setpointNormalized n sbo, none)
  | .C_SE_NB_1 | .C_SE_TB_1 =>
    (Convert.toInt16 (limit (-32768) 32767 (converted value kconv1 kconv2))).map fun n =>
      some (.setpointScaled n sbo, none)
  | .C_SE_NC_1 | .C_SE_TC_1 =>
    some (some (.setpointShort (toSingle (converted value kconv1 kconv2)) sbo, none))
  | .C_BO_NA_1 | .C_BO_TA_1 => (bits value kconv1).map fun n => some (.bitstringCommand n, none)
  | .C_IC_NA_1 => (byte cmdqualif).map fun n => some (.interrogationCommand n, none)
  | .C_CI_NA_1 => (byte cmdqualif).map fun n => some (.counterInterrogationCommand n, none)
  | .C_RD_NA_1 => some (some (.readCommand, none))
  | .C_CS_NA_1 => some (some (.clockSynchronizationCommand, none))
  | .C_RP_NA_1 => (byte cmdqualif).map fun n => some (.resetProcessCommand n, none)
  | .C_TS_TA_1 => (Convert.toUInt16 value).map fun n => some (.testCommand n, none)
  | .P_ME_NA_1 => do
    let n ← Convert.toInt32 (limit (-32768) 32767 (converted value kconv1 kconv2))
    let qpm ← byte cmdqualif
    return some (.parameterNormalized (normalizedParameter n) qpm, none)
  | .P_ME_NB_1 => do
    let n ← Convert.toInt16 (limit (-32768) 32767 (converted value kconv1 kconv2))
    let qpm ← byte cmdqualif
    return some (.parameterScaled n qpm, none)
  | .P_ME_NC_1 =>
    (byte cmdqualif).map fun qpm =>
      some (.parameterFloat (toSingle (converted value kconv1 kconv2)) qpm, none)
  | .P_AC_NA_1 => (byte cmdqualif).map fun qpa => some (.parameterActivation qpa, none)
  | _ => some none

/-- The type of the object: with a time tag, one that carries it. -/
def typeOf (asdu : ℤ) (time_tag : Option CP56Time2a) : TypeID :=
  if time_tag.isSome then withCP56Time (.ofCode asdu) else .ofCode asdu

/-- `none` is an exception, `some none` a null; without a time tag the time is now. -/
def BuildInfoObj (now : ℤ) (asdu addr : ℤ) (value : Number) (sbo : Bool := false)
    (cmdqualif : ℤ := 0) (quality : Option QualityDescriptor := none)
    (time_tag : Option CP56Time2a := none) (kconv1 : Number := .fin 1)
    (kconv2 : Number := .fin 0) (transient : Bool := false) :
    Option (Option InformationObject) :=
  let t := typeOf asdu time_tag
  (buildContent t value sbo cmdqualif quality kconv1 kconv2 transient).map fun made =>
    made.map fun c => {
      type := t
      objectAddress := addressOf t addr
      content := c.1
      quality := c.2
      timestamp := if hasTimestamp t then some (time_tag.getD { time := now }) else none }

/-- The value of the time tag changes the type of an object and nothing it carries. -/
theorem buildContent_withCP56Time (t : TypeID) (value : Number) (sbo : Bool) (cmdqualif : ℤ)
    (quality : Option QualityDescriptor) (kconv1 kconv2 : Number) (transient : Bool) :
    buildContent (withCP56Time t) value sbo cmdqualif quality kconv1 kconv2 transient =
      buildContent t value sbo cmdqualif quality kconv1 kconv2 transient := by
  cases t <;> rfl

theorem buildContent_typeOf (asdu : ℤ) (time_tag : Option CP56Time2a) (value : Number)
    (sbo : Bool) (cmdqualif : ℤ) (quality : Option QualityDescriptor) (kconv1 kconv2 : Number)
    (transient : Bool) :
    buildContent (typeOf asdu time_tag) value sbo cmdqualif quality kconv1 kconv2 transient =
      buildContent (.ofCode asdu) value sbo cmdqualif quality kconv1 kconv2 transient := by
  unfold typeOf
  split
  · exact buildContent_withCP56Time ..
  · rfl

/-- An object carries what the switch makes of the type it was asked for. -/
theorem build_carries {now asdu addr : ℤ} {value : Number} {sbo : Bool} {cmdqualif : ℤ}
    {quality : Option QualityDescriptor} {time_tag : Option CP56Time2a}
    {kconv1 kconv2 : Number} {transient : Bool} :
    (BuildInfoObj now asdu addr value sbo cmdqualif quality time_tag kconv1 kconv2
        transient).map (Option.map fun o => (o.content, o.quality)) =
      buildContent (.ofCode asdu) value sbo cmdqualif quality kconv1 kconv2 transient := by
  unfold BuildInfoObj
  rw [← buildContent_typeOf asdu time_tag, Option.map_map]
  generalize buildContent (typeOf asdu time_tag) value sbo cmdqualif quality kconv1 kconv2
    transient = made
  rcases made with _ | _ | made <;> rfl

theorem limit_inf (low high : ℤ) (neg : Bool) :
    limit low high (.inf neg) = .fin (if neg then low else high : ℤ) := by
  cases neg <;> rfl

/-- Limiting, then rounding, is rounding and clamping. -/
theorem limit_fin {low high : ℤ} (hlh : low ≤ high) (q : ℚ) :
    ∃ r : ℚ, limit low high (.fin q) = .fin r ∧
      nearestEven r = max low (min high (nearestEven q)) := by
  by_cases hhigh : (high : ℚ) < q
  · refine ⟨high, by simp [limit, hhigh], ?_⟩
    have h := nearestEven_mono hhigh.le
    rw [nearestEven_intCast] at h ⊢
    omega
  by_cases hlow : q < (low : ℚ)
  · refine ⟨low, by simp [limit, hhigh, hlow], ?_⟩
    have h := nearestEven_mono hlow.le
    rw [nearestEven_intCast] at h ⊢
    omega
  · refine ⟨q, by simp [limit, hhigh, hlow], ?_⟩
    have h₁ := nearestEven_mono (not_lt.mp hhigh)
    have h₂ := nearestEven_mono (not_lt.mp hlow)
    rw [nearestEven_intCast] at h₁ h₂
    omega

/-- A value cut to a range converts to any type that has the range. -/
theorem convert_limit_fin {first last low high : ℤ} (hl : first ≤ low) (hlh : low ≤ high)
    (hh : high ≤ last) (q : ℚ) :
    convert first last (limit low high (.fin q)) = some (max low (min high (nearestEven q))) := by
  obtain ⟨r, hr, hnearest⟩ := limit_fin hlh q
  have hin : first ≤ nearestEven r ∧ nearestEven r ≤ last := by omega
  rw [hr, convert_fin hin, hnearest]

theorem convert_limit_inf {first last low high : ℤ} (hl : first ≤ low) (hlh : low ≤ high)
    (hh : high ≤ last) (neg : Bool) :
    convert first last (limit low high (.inf neg)) = some (if neg then low else high) := by
  have hin : first ≤ (if neg then low else high) ∧ (if neg then low else high) ≤ last := by
    split_ifs <;> omega
  rw [limit_inf, convert_fin (by rwa [nearestEven_intCast]), nearestEven_intCast]

theorem convert_limit {first last low high : ℤ} (hl : first ≤ low) (hlh : low ≤ high)
    (hh : high ≤ last) (x : Number) :
    (convert first last (limit low high x)).isSome = !x.isNaN := by
  cases x with
  | nan => rfl
  | inf neg =>
    rw [convert_limit_inf hl hlh hh]
    rfl
  | fin q =>
    rw [convert_limit_fin hl hlh hh]
    rfl

/-- The values an object can be made of, by type: any number for a measured value or a
setpoint, an unsigned number of the width of the type for bitstrings and tests, and a byte
as the qualifier of the other commands. -/
def encodable (t : TypeID) (value : Number) (cmdqualif : ℤ) (kconv1 kconv2 : Number) : Bool :=
  match t with
  | .M_SP_NA_1 | .M_SP_TB_1 | .M_DP_NA_1 | .M_DP_TB_1 | .M_ME_NC_1 | .M_ME_TF_1
  | .C_SC_NA_1 | .C_SC_TA_1 | .C_DC_NA_1 | .C_DC_TA_1 | .C_RC_NA_1 | .C_RC_TA_1
  | .C_SE_NC_1 | .C_SE_TC_1 | .C_RD_NA_1 | .C_CS_NA_1 => true
  | .M_ST_NA_1 | .M_ST_TB_1 | .M_ME_NA_1 | .M_ME_TD_1 | .M_ME_ND_1 | .M_ME_NB_1 | .M_ME_TE_1
  | .C_SE_NA_1 | .C_SE_TA_1 | .C_SE_NB_1 | .C_SE_TB_1 =>
    !(converted value kconv1 kconv2).isNaN
  | .M_BO_NA_1 | .M_BO_TB_1 | .C_BO_NA_1 | .C_BO_TA_1 => (Convert.toUInt32 value).isSome
  | .C_TS_TA_1 => (Convert.toUInt16 value).isSome
  | .C_IC_NA_1 | .C_CI_NA_1 | .C_RP_NA_1 | .P_ME_NC_1 | .P_AC_NA_1 => (byte cmdqualif).isSome
  | .P_ME_NA_1 | .P_ME_NB_1 =>
    !(converted value kconv1 kconv2).isNaN && (byte cmdqualif).isSome
  | _ => false

theorem measured_isSome {low high : ℤ} (hl : -32768 ≤ low) (hlh : low ≤ high)
    (hh : high ≤ 32767) (x : Number) (q : QualityDescriptor) (make : ℤ → Content) :
    (measured low high x (some q) make).join.isSome = !x.isNaN := by
  have hn := convert_limit hl hlh hh x
  rw [← hn]
  unfold measured flagOverflow Convert.toInt16
  cases outside low high x <;> cases convert (-32768) 32767 (limit low high x) <;> rfl

/-- With a quality given, an object is made of just the values that can be encoded. -/
theorem buildContent_isSome (t : TypeID) (value : Number) (sbo : Bool) (cmdqualif : ℤ)
    (q : QualityDescriptor) (kconv1 kconv2 : Number) (transient : Bool) :
    (buildContent t value sbo cmdqualif (some q) kconv1 kconv2 transient).join.isSome =
      encodable t value cmdqualif kconv1 kconv2 := by
  have hmap : ∀ {α β : Type} (o : Option α) (f : α → β),
      (o.map fun n => some (f n)).join.isSome = o.isSome := by
    rintro α β (_ | a) f <;> rfl
  have h16 := @convert_limit (-32768) 32767 (-32768) 32767 le_rfl (by decide) le_rfl
    (converted value kconv1 kconv2)
  have h32 := @convert_limit (-2147483648) 2147483647 (-32768) 32767 (by decide) (by decide)
    (by decide) (converted value kconv1 kconv2)
  have hm := fun make => @measured_isSome (-32768) 32767 le_rfl (by decide) le_rfl
    (converted value kconv1 kconv2) q make
  have hst := fun make => @measured_isSome (-64) 63 (by decide) (by decide) (by decide)
    (converted value kconv1 kconv2) q make
  cases t with
  | M_ST_NA_1 | M_ST_TB_1 => exact hst _
  | M_ME_NA_1 | M_ME_TD_1 | M_ME_NB_1 | M_ME_TE_1 => exact hm _
  | M_ME_ND_1 =>
    have hjoin : ∀ {α β : Type} (o : Option (Option α)) (f : α → β),
        (o.map (Option.map f)).join.isSome = o.join.isSome := by
      rintro α β (_ | _ | a) f <;> rfl
    exact (hjoin ..).trans (hm .normalizedWithoutQuality)
  | C_SE_NA_1 | C_SE_TA_1 | C_SE_NB_1 | C_SE_TB_1 => exact (hmap ..).trans h16
  | M_BO_NA_1 | M_BO_TB_1 | C_BO_NA_1 | C_BO_TA_1 =>
    refine (hmap ..).trans ?_
    unfold bits
    exact Option.isSome_map
  | C_IC_NA_1 | C_CI_NA_1 | C_RP_NA_1 | C_TS_TA_1 | P_ME_NC_1 | P_AC_NA_1 => exact hmap ..
  | P_ME_NA_1 =>
    unfold buildContent encodable
    rw [← h32]
    unfold Convert.toInt32
    cases convert (-2147483648) 2147483647 _ <;> cases byte cmdqualif <;> rfl
  | P_ME_NB_1 =>
    unfold buildContent encodable
    rw [← h16]
    unfold Convert.toInt16
    cases convert (-32768) 32767 _ <;> cases byte cmdqualif <;> rfl
  | _ => rfl

/-- A measured value with a quality: the number cut to its range, and the overflow flag set
where it was cut. -/
theorem measured_some (low high : ℤ) (x : Number) (q : QualityDescriptor)
    (make : ℤ → Content) :
    measured low high x (some q) make = (Convert.toInt16 (limit low high x)).map fun n =>
      some (make n, some { q with overflow := q.overflow || outside low high x }) := by
  unfold measured flagOverflow
  cases outside low high x <;> cases Convert.toInt16 (limit low high x) <;> simp

theorem measured_type {low high : ℤ} {x : Number} {quality : Option QualityDescriptor}
    {make : ℤ → Content} {t : TypeID} {c : Content × Option QualityDescriptor}
    (h : measured low high x quality make = some (some c)) (hmake : ∀ n, (make n).type = t) :
    c.1.type = t := by
  unfold measured at h
  obtain ⟨q, -, h⟩ := Option.bind_eq_some_iff.mp h
  obtain ⟨n, -, h⟩ := Option.bind_eq_some_iff.mp h
  obtain rfl := Option.some.inj (Option.some.inj h)
  exact hmake n

/-- The switch makes the content of the type it is asked for. -/
theorem buildContent_type {t : TypeID} {value : Number} {sbo : Bool} {cmdqualif : ℤ}
    {quality : Option QualityDescriptor} {kconv1 kconv2 : Number} {transient : Bool}
    {c : Content × Option QualityDescriptor}
    (h : buildContent t value sbo cmdqualif quality kconv1 kconv2 transient = some (some c)) :
    c.1.type = withoutTime t := by
  have hsome : ∀ {a : Content × Option QualityDescriptor}, some (some a) = some (some c) →
      c.1.type = a.1.type := by
    rintro a ⟨⟩
    rfl
  have hmap : ∀ {o : Option ℤ} {f : ℤ → Content × Option QualityDescriptor} {t : TypeID},
      (∀ n, (f n).1.type = t) → o.map (fun n => some (f n)) = some (some c) → c.1.type = t := by
    intro o f t hf h
    obtain ⟨n, -, h⟩ := Option.map_eq_some_iff.mp h
    exact (hsome (congrArg some h)).trans (hf n)
  cases t with
  | M_SP_NA_1 | M_SP_TB_1 | M_DP_NA_1 | M_DP_TB_1 | M_ME_NC_1 | M_ME_TF_1 | C_SC_NA_1
  | C_SC_TA_1 | C_DC_NA_1 | C_DC_TA_1 | C_RC_NA_1 | C_RC_TA_1 | C_SE_NC_1 | C_SE_TC_1
  | C_RD_NA_1 | C_CS_NA_1 => exact hsome h
  | M_ST_NA_1 | M_ST_TB_1 | M_ME_NA_1 | M_ME_TD_1 | M_ME_NB_1 | M_ME_TE_1 =>
    exact measured_type h fun n => rfl
  | M_ME_ND_1 =>
    obtain ⟨made, hmade, h⟩ := Option.map_eq_some_iff.mp h
    obtain ⟨c', rfl, h⟩ := Option.map_eq_some_iff.mp h
    have ht : c'.1.type = .M_ME_ND_1 := measured_type hmade fun n => rfl
    exact (hsome (congrArg some h)).trans ht
  | M_BO_NA_1 | M_BO_TB_1 | C_BO_NA_1 | C_BO_TA_1 | C_SE_NA_1 | C_SE_TA_1 | C_SE_NB_1
  | C_SE_TB_1 | C_IC_NA_1 | C_CI_NA_1 | C_RP_NA_1 | C_TS_TA_1 | P_ME_NC_1 | P_AC_NA_1 =>
    exact hmap (fun n => rfl) h
  | P_ME_NA_1 | P_ME_NB_1 =>
    obtain ⟨n, -, h⟩ := Option.bind_eq_some_iff.mp h
    obtain ⟨qpm, -, h⟩ := Option.bind_eq_some_iff.mp h
    exact hsome h
  | M_IT_NA_1 | M_IT_TB_1 | C_TS_NA_1 | other => simp [buildContent] at h

end JsonScada.Iec104.Objects
