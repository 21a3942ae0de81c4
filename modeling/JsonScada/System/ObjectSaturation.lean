/- path: JsonScada/System/ObjectSaturation
   source: src/lib60870.netcore/iec104server/Common_srv_cli.cs, BuildInfoObj
   digest: Which integer an object carries for a value, and when it is marked as cut. -/

import JsonScada.Iec104.Objects

set_option autoImplicit false
set_option relaxedAutoImplicit false

namespace JsonScada.System.ObjectSaturation

open JsonScada.Lib.Binary64 JsonScada.Lib.DotNet
open JsonScada.Iec104.Types JsonScada.Iec104.Objects

/-- The integers a step, normalized or scaled type has, for its converted values. -/
def range : TypeID → Option (ℤ × ℤ)
  | .M_ST_NA_1 | .M_ST_TB_1 => some (-64, 63)
  | .M_ME_NA_1 | .M_ME_TD_1 | .M_ME_ND_1 | .M_ME_NB_1 | .M_ME_TE_1
  | .C_SE_NA_1 | .C_SE_TA_1 | .C_SE_NB_1 | .C_SE_TB_1 | .P_ME_NB_1 => some (-32768, 32767)
  | _ => none

def isBitstring : TypeID → Bool
  | .M_BO_NA_1 | .M_BO_TB_1 | .C_BO_NA_1 | .C_BO_TA_1 => true
  | _ => false

/-- The objects of these types carry the quality. -/
def hasQuality : TypeID → Bool
  | .M_SP_NA_1 | .M_SP_TB_1 | .M_DP_NA_1 | .M_DP_TB_1 | .M_ST_NA_1 | .M_ST_TB_1
  | .M_ME_NA_1 | .M_ME_TD_1 | .M_ME_NB_1 | .M_ME_TE_1 | .M_ME_NC_1 | .M_ME_TF_1
  | .M_BO_NA_1 | .M_BO_TB_1 => true
  | _ => false

/-- The integer of a step, normalized, scaled or bitstring object. -/
def integer : Content → Option ℤ
  | .step n _ => some n
  | .normalized n => some n
  | .normalizedWithoutQuality n => some n
  | .scaled n => some n
  | .bitstring n => some n
  | .setpointNormalized n _ => some n
  | .setpointScaled n _ => some n
  | .bitstringCommand n => some n
  | .parameterScaled n _ => some n
  | _ => none

/-- To the nearest integer, an exact half to the even one. -/
def rounded : Number → Option ℤ
  | .fin q => some (nearestEven q)
  | _ => none

/-- Rounded and clamped; the infinities are clamped to the bounds. -/
def saturated (low high : ℤ) : Number → Option ℤ
  | .fin q => some (max low (min high (nearestEven q)))
  | .inf neg => some (if neg then low else high)
  | .nan => none

/-- Clamping to the range of the type changes the value. -/
def isCut (t : TypeID) (x : Number) : Bool :=
  (range t).any fun bounds => limit bounds.1 bounds.2 x ≠ x

/-- What the object of a type has to carry for a value and a quality. -/
structure Encodes (t : TypeID) (value kconv1 kconv2 : Number) (q : QualityDescriptor)
    (content : Content) (quality : Option QualityDescriptor) : Prop where
  saturated : ∀ low high, range t = some (low, high) →
    integer content = saturated low high (converted value kconv1 kconv2)
  bitstring : isBitstring t = true →
    integer content =
      (rounded value).map fun n => if kconv1 = .fin (-1) then complementU32 n else n
  quality : quality = if hasQuality t then
    some { q with overflow := q.overflow || isCut t (converted value kconv1 kconv2) } else none

section Limits

variable {low high first last : ℤ} {x : Number}

/-- The bounds have no fraction, so that rounding may come before or after. -/
theorem convert_limit_eq (hl : first ≤ low) (hlh : low ≤ high) (hh : high ≤ last) (x : Number) :
    convert first last (limit low high x) = saturated low high x := by
  cases x with
  | nan => rfl
  | inf neg => exact convert_limit_inf hl hlh hh neg
  | fin q => exact convert_limit_fin hl hlh hh q

/-- Beyond a bound the value is changed, within them it is not. -/
theorem outside_eq (low high : ℤ) (x : Number) :
    outside low high x = decide (limit low high x ≠ x) := by
  rw [outside, limit]
  cases hhigh : Number.lt (.fin high) x with
  | true =>
    have hne : (Number.fin (high : ℚ)) ≠ x := by
      rintro rfl
      simp [Number.lt] at hhigh
    rw [if_pos rfl, Bool.true_or, decide_eq_true hne]
  | false =>
    rw [if_neg Bool.false_ne_true, Bool.false_or]
    cases hlow : Number.lt x (.fin low) with
    | true =>
      have hne : (Number.fin (low : ℚ)) ≠ x := by
        rintro rfl
        simp [Number.lt] at hlow
      rw [if_pos rfl, decide_eq_true hne]
    | false =>
      rw [if_neg Bool.false_ne_true, decide_eq_false (not_not.mpr rfl)]

theorem toUInt32_eq {n : ℤ} (h : Convert.toUInt32 x = some n) : rounded x = some n := by
  obtain ⟨q, rfl, rfl, -⟩ := convert_eq_some h
  rfl

end Limits

section Contents

variable {t : TypeID} {value kconv1 kconv2 : Number} {sbo transient : Bool} {cmdqualif : ℤ}
  {q : QualityDescriptor} {c : Content × Option QualityDescriptor}

/-- A measured value with the quality of its object. -/
theorem of_measured {low high : ℤ} {x : Number} {make : ℤ → Content}
    (hl : -32768 ≤ low) (hlh : low ≤ high) (hh : high ≤ 32767)
    (h : measured low high x (some q) make = some (some c)) :
    ∃ n, saturated low high x = some n ∧ c.1 = make n ∧
      c.2 = some { q with overflow := q.overflow || decide (limit low high x ≠ x) } := by
  rw [measured_some] at h
  obtain ⟨n, hn, heq⟩ := Option.map_eq_some_iff.mp h
  obtain rfl := Option.some.inj heq
  rw [Convert.toInt16, convert_limit_eq hl hlh hh] at hn
  exact ⟨n, hn, rfl, by rw [outside_eq]⟩

theorem encodes_of_measured {low high : ℤ} {make : ℤ → Content}
    (hrange : range t = some (low, high)) (hbits : isBitstring t = false)
    (hquality : hasQuality t = true) (hmake : ∀ n, integer (make n) = some n)
    (hl : -32768 ≤ low) (hlh : low ≤ high) (hh : high ≤ 32767)
    (h : measured low high (converted value kconv1 kconv2) (some q) make = some (some c)) :
    Encodes t value kconv1 kconv2 q c.1 c.2 := by
  obtain ⟨n, hn, hcontent, hq⟩ := of_measured hl hlh hh h
  refine ⟨fun low' high' hrange' => ?_, fun hbits' => ?_, ?_⟩
  · obtain ⟨rfl, rfl⟩ := Prod.mk.inj (Option.some.inj (hrange.symm.trans hrange'))
    rw [hcontent, hmake, hn]
  · rw [hbits] at hbits'
    cases hbits'
  · rw [hquality, if_pos rfl, hq, isCut, hrange, Option.any_some]

/-- A setpoint or a parameter, which has no quality. -/
theorem encodes_of_command {n : ℤ} (hrange : range t = some (-32768, 32767))
    (hbits : isBitstring t = false) (hquality : hasQuality t = false)
    (hn : Convert.toInt16 (limit (-32768) 32767 (converted value kconv1 kconv2)) = some n)
    (hcontent : integer c.1 = some n) (hc : c.2 = none) :
    Encodes t value kconv1 kconv2 q c.1 c.2 := by
  rw [Convert.toInt16, convert_limit_eq le_rfl (by decide) le_rfl] at hn
  refine ⟨fun low high hrange' => ?_, fun hbits' => ?_, ?_⟩
  · obtain ⟨rfl, rfl⟩ := Prod.mk.inj (Option.some.inj (hrange.symm.trans hrange'))
    rw [hcontent, hn]
  · rw [hbits] at hbits'
    cases hbits'
  · rw [hquality, hc]
    rfl

theorem encodes_of_bits {make : ℤ → Content × Option QualityDescriptor}
    (hrange : range t = none) (hmake : ∀ n, integer (make n).1 = some n)
    (hquality : ∀ n, (make n).2 = if hasQuality t then some q else none)
    (h : (bits value kconv1).map (fun n => some (make n)) = some (some c)) :
    Encodes t value kconv1 kconv2 q c.1 c.2 := by
  obtain ⟨m, hm, heq⟩ := Option.map_eq_some_iff.mp h
  obtain rfl := Option.some.inj heq
  obtain ⟨n, hn, rfl⟩ := Option.map_eq_some_iff.mp hm
  refine ⟨fun low high hrange' => ?_, fun _ => ?_, ?_⟩
  · rw [hrange] at hrange'
    cases hrange'
  · rw [hmake, toUInt32_eq hn]
    rfl
  · rw [hquality, isCut, hrange, Option.any_none, Bool.or_false]

/-- A type whose objects have no such integer. -/
theorem encodes_of_other {c' : Content × Option QualityDescriptor} (hrange : range t = none)
    (hbits : isBitstring t = false) (hquality : c'.2 = if hasQuality t then some q else none)
    (h : c' = c) : Encodes t value kconv1 kconv2 q c.1 c.2 := by
  subst h
  refine ⟨fun low high hrange' => ?_, fun hbits' => ?_, ?_⟩
  · rw [hrange] at hrange'
    cases hrange'
  · rw [hbits] at hbits'
    cases hbits'
  · rw [hquality, isCut, hrange, Option.any_none, Bool.or_false]

/-- By cases on the type, as in the switch. -/
theorem encodes_of_buildContent
    (h : buildContent t value sbo cmdqualif (some q) kconv1 kconv2 transient = some (some c)) :
    Encodes t value kconv1 kconv2 q c.1 c.2 := by
  have hmap : ∀ {o : Option ℤ} {f : ℤ → Content × Option QualityDescriptor},
      o.map (fun n => some (f n)) = some (some c) → ∃ n, o = some n ∧ f n = c := by
    intro o f hf
    obtain ⟨n, hn, heq⟩ := Option.map_eq_some_iff.mp hf
    exact ⟨n, hn, Option.some.inj heq⟩
  cases t with
  | M_SP_NA_1 | M_SP_TB_1 | M_DP_NA_1 | M_DP_TB_1 | M_ME_NC_1 | M_ME_TF_1 | C_SC_NA_1
  | C_SC_TA_1 | C_DC_NA_1 | C_DC_TA_1 | C_RC_NA_1 | C_RC_TA_1 | C_SE_NC_1 | C_SE_TC_1
  | C_RD_NA_1 | C_CS_NA_1 =>
    exact encodes_of_other rfl rfl rfl (Option.some.inj (Option.some.inj h))
  | M_ST_NA_1 | M_ST_TB_1 =>
    exact encodes_of_measured rfl rfl rfl (fun _ => rfl) (by decide) (by decide) (by decide) h
  | M_ME_NA_1 | M_ME_TD_1 | M_ME_NB_1 | M_ME_TE_1 =>
    exact encodes_of_measured rfl rfl rfl (fun _ => rfl) le_rfl (by decide) le_rfl h
  | M_ME_ND_1 =>
    obtain ⟨made, hmade, h⟩ := Option.map_eq_some_iff.mp h
    obtain ⟨c', rfl, rfl⟩ := Option.map_eq_some_iff.mp h
    obtain ⟨n, hn, hcontent, -⟩ := of_measured le_rfl (by decide) le_rfl hmade
    refine ⟨fun low high hrange => ?_, nofun, rfl⟩
    obtain ⟨rfl, rfl⟩ := Prod.mk.inj (Option.some.inj hrange)
    rw [hn, hcontent]
    rfl
  | C_SE_NA_1 | C_SE_TA_1 | C_SE_NB_1 | C_SE_TB_1 =>
    obtain ⟨n, hn, rfl⟩ := hmap h
    exact encodes_of_command rfl rfl rfl hn rfl rfl
  | M_BO_NA_1 | M_BO_TB_1 | C_BO_NA_1 | C_BO_TA_1 =>
    exact encodes_of_bits rfl (fun _ => rfl) (fun _ => rfl) h
  | C_IC_NA_1 | C_CI_NA_1 | C_RP_NA_1 | C_TS_TA_1 | P_ME_NC_1 | P_AC_NA_1 =>
    obtain ⟨n, -, hc⟩ := hmap h
    exact encodes_of_other rfl rfl rfl hc
  | P_ME_NA_1 =>
    obtain ⟨n, -, h⟩ := Option.bind_eq_some_iff.mp h
    obtain ⟨qpm, -, h⟩ := Option.bind_eq_some_iff.mp h
    exact encodes_of_other rfl rfl rfl (Option.some.inj (Option.some.inj h))
  | P_ME_NB_1 =>
    obtain ⟨n, hn, h⟩ := Option.bind_eq_some_iff.mp h
    obtain ⟨qpm, -, h⟩ := Option.bind_eq_some_iff.mp h
    obtain rfl := Option.some.inj (Option.some.inj h)
    exact encodes_of_command rfl rfl rfl hn rfl rfl
  | M_IT_NA_1 | M_IT_TB_1 | C_TS_NA_1 | other => simp [buildContent] at h

/-- A value that can be encoded gives an object of the type, with or without its time, that
carries the value cut to the range of the type and says so. -/
theorem object_saturates {now asdu addr : ℤ} {time_tag : Option CP56Time2a}
    (h : encodable (.ofCode asdu) value cmdqualif kconv1 kconv2 = true) :
    ∃ o, BuildInfoObj now asdu addr value sbo cmdqualif (some q) time_tag kconv1 kconv2
        transient = some (some o) ∧ o.type = typeOf asdu time_tag ∧
      Encodes (.ofCode asdu) value kconv1 kconv2 q o.content o.quality := by
  rw [← buildContent_isSome _ _ sbo cmdqualif q kconv1 kconv2 transient] at h
  obtain ⟨c, hc⟩ := Option.isSome_iff_exists.mp h
  have hmade := Option.join_eq_some_iff.mp hc
  let o : InformationObject := {
    type := typeOf asdu time_tag
    objectAddress := addressOf (typeOf asdu time_tag) addr
    content := c.1
    quality := c.2
    timestamp :=
      if hasTimestamp (typeOf asdu time_tag) then some (time_tag.getD { time := now }) else none }
  refine ⟨o, ?_, rfl, encodes_of_buildContent hmade⟩
  rw [BuildInfoObj, buildContent_typeOf, hmade]
  rfl

end Contents

section Level

/-- 200 is cut to 63, the highest step, and so marked. -/
theorem step_saturates :
    ∃ o, BuildInfoObj 0 5 1 (.fin 100) false 0 (some {}) (some { time := 1000 }) (.fin 2)
        (.fin 0) false = some (some o) ∧ o.type = .M_ST_TB_1 ∧
      Encodes .M_ST_NA_1 (.fin 100) (.fin 2) (.fin 0) {} o.content o.quality :=
  object_saturates (by decide +kernel)

/-- With a factor of -1 a bitstring is not the value: all its bits are inverted. -/
theorem bitstring_inverted :
    (BuildInfoObj 0 7 1 (.fin 1) false 0 (some {}) none (.fin (-1)) (.fin 0) false).map
        (fun made => made.bind fun o => integer o.content) = some (some 4294967294) ∧
      saturated 0 4294967295 (.fin 1) = some 1 := by
  decide +kernel

end Level

end JsonScada.System.ObjectSaturation
