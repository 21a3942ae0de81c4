/- path: JsonScada/System/MonitorRoundTrip
   source: src/lib60870.netcore (iec104server, iec104client),
   src/cs_data_processor/cs_data_processor.js
   digest: A value sent by the server, read by the client and converted by the processor. -/

import JsonScada.Lib.Single
import JsonScada.Iec104Client.Receive

set_option autoImplicit false
set_option relaxedAutoImplicit false

namespace JsonScada.System.MonitorRoundTrip

open JsonScada.Lib.Binary64 JsonScada.Lib.Binary64.Format JsonScada.Lib.Single
open JsonScada.Lib.DotNet (toSingle binary32)
open JsonScada.Lib.EcmaScript (toUint32)
open JsonScada.Model.Documents JsonScada.Processor.Convert JsonScada.Iec104.Types
open JsonScada.Iec104.Objects JsonScada.Iec104Client.Commands JsonScada.Iec104Client.Update
open JsonScada.Iec104Client.Receive

/-- The monitoring types the server builds objects of. -/
def monitored : TypeID → Bool
  | .M_SP_NA_1 | .M_DP_NA_1 | .M_ST_NA_1 | .M_BO_NA_1 | .M_ME_NA_1 | .M_ME_ND_1 | .M_ME_NB_1
  | .M_ME_NC_1 | .M_SP_TB_1 | .M_DP_TB_1 | .M_ST_TB_1 | .M_BO_TB_1 | .M_ME_TD_1 | .M_ME_TE_1
  | .M_ME_TF_1 => true
  | _ => false

/-- A number rounded and clamped to a range. -/
def rounded (low high : ℤ) : Number → Option ℤ
  | .nan => none
  | .inf neg => some (if neg then low else high)
  | .fin q => some (max low (min high (nearestEven q)))

def expectedInt (low high : ℤ) (value : Number) : Option Number :=
  (rounded low high value).map fun n : ℤ => .fin n

/-- The value the server has, as far as the type carries it. -/
def expected (t : TypeID) (value : Number) : Option Number :=
  match withoutTime t with
  | .M_SP_NA_1 | .M_DP_NA_1 => some (boolNum (!value.eqv (.fin 0)))
  | .M_ST_NA_1 => expectedInt (-64) 63 value
  | .M_BO_NA_1 => expectedInt 0 4294967295 value
  | .M_ME_NA_1 | .M_ME_ND_1 | .M_ME_NB_1 => expectedInt (-32768) 32767 value
  | .M_ME_NC_1 => some (toSingle value)
  | _ => none

def digital (t : TypeID) : Bool :=
  match withoutTime t with
  | .M_SP_NA_1 | .M_DP_NA_1 => true
  | _ => false

/-- A point of the kind of the type, with neutral factors. -/
structure Neutral (t : TypeID) (doc : Point) : Prop where
  type : doc.type = if digital t then .digital else .analog
  kconv1 : doc.kconv1 = .fin 1
  kconv2 : doc.kconv2 = .fin 0

section RoundTrip

variable (doubleText : Number → String) (dateOf : CP56Time2a → Option Date) (srv : Connection)

/-- The object the server builds is sent in an ASDU of its type, and what the client makes of
that gives the point its value back, and its invalid flag where the server had it. -/
def RoundTrip (t : TypeID) (doc : Point) (value : Number) (q : QualityDescriptor)
    (transient : Bool) (time_tag : Option CP56Time2a) (addr cot ca now sent : ℤ) : Prop :=
  ∃ obj iv, BuildInfoObj sent t.code addr value false 0 (some q) time_tag (.fin 1) (.fin 0)
      transient = some (some obj) ∧
    AsduReceivedHandler dateOf srv now { TypeId := obj.type, Cot := cot, Ca := ca, elements := [obj] } =
      some [iv] ∧
    expected t value = some (convert doc (sourceDataUpdate doubleText iv)).value ∧
    (q.invalid = true → (convert doc (sourceDataUpdate doubleText iv)).invalid = true)

end RoundTrip

/-- The zero dead band of the point cuts a number. -/
def cut (doc : Point) (x : Number) : Bool :=
  match doc.zeroDeadband with
  | .val z => !z.eqv (.fin 0) && x.abs.lt z
  | _ => false

/-- No number but zero is cut. -/
def NotCut (doc : Point) (x : Option Number) : Prop := ∀ y ∈ x, cut doc y = true → y = .fin 0

/-- When a value comes back: a double point in motion is no zero; integers are numbers, of a
bitstring in its range; normalized values are zero, since the number sent is read as a fraction
of the range; and where the quality is not sent or not read, it is valid. -/
def Survives (t : TypeID) (doc : Point) (value : Number) (q : QualityDescriptor)
    (transient : Bool) : Prop :=
  match withoutTime t with
  | .M_SP_NA_1 => True
  | .M_DP_NA_1 => transient = true → value.eqv (.fin 0) = false
  | .M_ST_NA_1 | .M_ME_NB_1 => value ≠ .nan ∧ NotCut doc (expected t value)
  | .M_BO_NA_1 =>
    (Lib.DotNet.Convert.toUInt32 value).isSome = true ∧ q.invalid = false ∧ NotCut doc (expected t value)
  | .M_ME_NA_1 => rounded (-32768) 32767 value = some 0
  | .M_ME_ND_1 => rounded (-32768) 32767 value = some 0 ∧ q.invalid = false
  | .M_ME_NC_1 => NotCut doc (expected t value)
  | _ => False

/-- Limiting, then rounding, is rounding and clamping. -/
theorem convert_limit_eq {first last low high : ℤ} (hl : first ≤ low) (hlh : low ≤ high)
    (hh : high ≤ last) (x : Number) :
    Lib.DotNet.convert first last (limit low high x) = rounded low high x := by
  cases x with
  | nan => rfl
  | inf neg =>
    rw [convert_limit_inf hl hlh hh]
    cases neg <;> rfl
  | fin q => exact convert_limit_fin hl hlh hh q

/-- What of a value and its quality comes out of the object. -/
def carried (t : TypeID) (value : Number) (q : QualityDescriptor) (transient : Bool) :
    Option (Number × QualityDescriptor) :=
  let flagged (low high : ℤ) : QualityDescriptor :=
    { q with overflow := q.overflow || outside low high value }
  match withoutTime t with
  | .M_SP_NA_1 => some (boolNum (!value.eqv (.fin 0)), q)
  | .M_DP_NA_1 => some (doubleValue (doublePoint value (.fin 1) transient), q)
  | .M_ST_NA_1 => (rounded (-64) 63 value).map fun n : ℤ =>
    (.fin n, { flagged (-64) 63 with invalid := q.invalid || transient })
  | .M_BO_NA_1 => (Lib.DotNet.Convert.toUInt32 value).map fun n : ℤ => (.fin n, {})
  | .M_ME_NA_1 => (rounded (-32768) 32767 value).map fun n : ℤ =>
    (GetNormalizedValue n, flagged (-32768) 32767)
  | .M_ME_ND_1 => (rounded (-32768) 32767 value).map fun n : ℤ => (GetNormalizedValue n, {})
  | .M_ME_NB_1 => (rounded (-32768) 32767 value).map fun n : ℤ => (.fin n, flagged (-32768) 32767)
  | .M_ME_NC_1 => some (toSingle value, q)
  | _ => none

theorem measured_rounded {low high : ℤ} (hl : -32768 ≤ low) (hlh : low ≤ high) (hh : high ≤ 32767)
    (x : Number) (q : QualityDescriptor) (make : ℤ → Content) :
    measured low high x (some q) make = (rounded low high x).map fun n =>
      some (make n, some { q with overflow := q.overflow || outside low high x }) := by
  rw [measured_some]
  exact congrArg _ (convert_limit_eq hl hlh hh x)

/-- What the client reads of a content and its quality. -/
def elementOf (t : TypeID) (c : Content × Option QualityDescriptor) :
    Option (Number × QualityDescriptor) :=
  element t { type := t, objectAddress := 0, content := c.1, quality := c.2 }

/-- An element as the client reads it of what the server built. -/
def readBack (t : TypeID) (made : Option (Option (Content × Option QualityDescriptor))) :
    Option (Number × QualityDescriptor) := made.join.bind (elementOf t)

theorem readBack_eq {t : TypeID} (ht : monitored t = true) {value : Number}
    (hvalue : binary64.Holds value) (q : QualityDescriptor) (transient : Bool) :
    readBack t (buildContent t value false 0 (some q) (.fin 1) (.fin 0) transient) =
      carried t value q transient := by
  have hneutral : converted value (.fin 1) (.fin 0) = value := neutral hvalue
  have hbool : boolean value (.fin 1) = !value.eqv (.fin 0) := rfl
  have hbits : bits value (.fin 1) = Lib.DotNet.Convert.toUInt32 value := by
    unfold bits
    exact Option.map_id_apply
  have hwide := @measured_rounded (-32768) 32767 le_rfl (by decide) le_rfl value q
  have hnarrow := @measured_rounded (-64) 63 (by decide) (by decide) (by decide) value q
  cases t with
  | M_SP_NA_1 | M_SP_TB_1 | M_DP_NA_1 | M_DP_TB_1 => rfl
  | M_ST_NA_1 | M_ST_TB_1 =>
    simp only [buildContent, hneutral, hnarrow, carried, withoutTime]
    cases rounded (-64) 63 value <;> rfl
  | M_BO_NA_1 | M_BO_TB_1 =>
    simp only [buildContent, hbits, carried, withoutTime]
    cases Lib.DotNet.Convert.toUInt32 value <;> rfl
  | M_ME_NA_1 | M_ME_TD_1 | M_ME_NB_1 | M_ME_TE_1 | M_ME_ND_1 =>
    simp only [buildContent, hneutral, hwide, carried, withoutTime]
    cases rounded (-32768) 32767 value <;> rfl
  | M_ME_NC_1 | M_ME_TF_1 =>
    simp only [buildContent, hneutral]
    rfl
  | _ => cases ht

section Normalized

theorem holds_fraction {f : Format} (hp : 16 ≤ f.precision) (hmin : f.minExponent ≤ -15)
    (hmax : 1 ≤ f.maxExponent) : f.Holds (.fin (32767 / 32768)) := by
  have hlt : ((32767 : ℕ) : ℚ) * 2 ^ (-15 : ℤ) < 2 ^ f.maxExponent := by
    have hone : (1 : ℚ) ≤ 2 ^ f.maxExponent := one_le_zpow₀ (by norm_num) (by omega)
    exact lt_of_lt_of_le (by norm_num) hone
  have hn : 32767 ≤ 2 ^ f.precision := le_trans (by norm_num) (Nat.pow_le_pow_right (by norm_num) hp)
  have h := holds_of_significand (by omega) false hn hmin hlt
  norm_num at h
  exact h

theorem holds_negOne {f : Format} (hp : 1 ≤ f.precision) (hmin : f.minExponent ≤ -1)
    (hmax : 1 ≤ f.maxExponent) : f.Holds (.fin (-1)) ∧ f.Holds (.fin (-1 / 2)) := by
  have htwo : (2 : ℚ) ≤ 2 ^ f.maxExponent := by
    have h := zpow_le_zpow_right₀ (by norm_num : (1 : ℚ) ≤ 2) hmax
    rwa [zpow_one] at h
  have hn : 1 ≤ 2 ^ f.precision := Nat.one_le_two_pow
  constructor
  · have h := holds_of_significand hp true hn (by omega : f.minExponent ≤ 0)
      (by norm_num; linarith)
    norm_num at h
    exact h
  · have h := holds_of_significand hp true hn hmin (by norm_num; linarith)
    norm_num at h ⊢
    exact h

/-- The fraction read for a number of 16 bits: a single precision number between minus one and
one, over a half below zero for minus one. -/
theorem normalized_bounds (n : ℤ) :
    ∃ y : ℚ, GetNormalizedValue n = .fin y ∧ -1 ≤ y ∧ y ≤ 32767 / 32768 ∧ (n = -1 → -1 / 2 ≤ y) := by
  have hhalf := (@holds_negOne binary64 (by decide) (by decide) (by decide)).2
  have hlimited : ∃ r : ℚ, GetNormalizedValue n = toSingle (.fin r) ∧ -1 ≤ r ∧ r ≤ 32767 / 32768 ∧
      (n = -1 → -1 / 2 ≤ r) := by
    unfold GetNormalizedValue
    dsimp only
    cases hround : Lib.Binary64.round binary64 (n / 32767) with
    | nan => exact absurd hround (round_ne_nan _ _)
    | inf neg =>
      have hnot : n ≠ -1 := by
        rintro rfl
        obtain ⟨y, hy, -⟩ := @round_between binary64 (by decide) (-1 / 2) (32767 / 32768)
          ((-1 : ℤ) / 32767) hhalf (holds_fraction (by decide) (by decide) (by decide))
          (by norm_num) (by norm_num)
        rw [hround] at hy
        cases hy
      cases neg with
      | true => exact ⟨-1, rfl, le_rfl, by norm_num, fun h => absurd h hnot⟩
      | false =>
        refine ⟨32767 / 32768, ?_, by norm_num, le_rfl, fun h => absurd h hnot⟩
        have hlt : Number.lt (.fin (32767 / 32768)) (.fin (-1)) = false := by
          rw [Number.lt_fin]
          norm_num
        show toSingle (if Number.lt (.fin (32767 / 32768)) (.fin (-1)) = true then _ else _) = _
        rw [hlt, if_neg Bool.false_ne_true]
        rfl
    | fin r =>
      have hone : n = -1 → -1 / 2 ≤ r ∧ r ≤ 32767 / 32768 := by
        rintro rfl
        obtain ⟨y, hy, hlow, hhigh⟩ := @round_between binary64 (by decide) (-1 / 2) (32767 / 32768)
          ((-1 : ℤ) / 32767) hhalf (holds_fraction (by decide) (by decide) (by decide))
          (by norm_num) (by norm_num)
        rw [hround] at hy
        cases hy
        exact ⟨hlow, hhigh⟩
      simp only [Number.lt_fin, decide_eq_true_eq]
      by_cases hbig : (32767 / 32768 : ℚ) < r
      · refine ⟨32767 / 32768, ?_, by norm_num, le_rfl, fun h => absurd (hone h).2 (not_le.mpr hbig)⟩
        rw [if_pos hbig]
        simp only [Number.lt_fin, decide_eq_true_eq]
        rw [if_neg (by norm_num)]
      · rw [if_neg hbig]
        simp only [Number.lt_fin, decide_eq_true_eq]
        by_cases hsmall : r < -1
        · refine ⟨-1, ?_, le_rfl, by norm_num, fun h => ?_⟩
          · rw [if_pos hsmall]
          · have := (hone h).1
            linarith
        · exact ⟨r, by rw [if_neg hsmall], not_lt.mp hsmall, not_lt.mp hbig, fun h => (hone h).1⟩
  obtain ⟨r, heq, hlow, hhigh, hone⟩ := hlimited
  have hends := @holds_negOne binary32 (by decide) (by decide) (by decide)
  have htop : binary32.Holds (.fin (32767 / 32768)) := holds_fraction (by decide) (by decide) (by decide)
  obtain ⟨y, hy, hylow, hyhigh⟩ := round_between (by decide) hends.1 htop hlow hhigh
  refine ⟨y, heq.trans hy, hylow, hyhigh, fun h => ?_⟩
  obtain ⟨y', hy', hhalf', -⟩ := round_between (by decide) hends.2 htop (hone h) hhigh
  rw [hy] at hy'
  cases hy'
  exact hhalf'

theorem normalized_zero : GetNormalizedValue 0 = .fin 0 := by
  have hzero : ∀ f : Format, Lib.Binary64.round f 0 = .fin 0 := by
    intro f
    unfold Lib.Binary64.round ofMagnitude
    rw [if_neg (lt_irrefl _), roundMagnitude_zero, if_neg (not_le.mpr (zpow_pos (by norm_num) _)),
      if_neg Bool.false_ne_true]
  unfold GetNormalizedValue
  rw [Int.cast_zero, zero_div, hzero]
  have h1 : Number.lt (.fin (32767 / 32768)) (.fin 0) = false := by
    rw [Number.lt_fin]
    norm_num
  have h2 : Number.lt (.fin 0) (.fin (-1)) = false := by
    rw [Number.lt_fin]
    norm_num
  dsimp only
  rw [h1, if_neg Bool.false_ne_true, h2, if_neg Bool.false_ne_true]
  exact hzero binary32

/-- Of the numbers sent as normalized values zero alone is read as itself. -/
theorem normalized_eq_iff (n : ℤ) : GetNormalizedValue n = .fin n ↔ n = 0 := by
  constructor
  · intro h
    obtain ⟨y, hy, hlow, hhigh, hone⟩ := normalized_bounds n
    rw [hy] at h
    obtain rfl := Number.fin.inj h
    have hn1 : -1 ≤ n := by exact_mod_cast hlow
    have hn2 : n < 1 := by
      have : (n : ℚ) < 1 := lt_of_le_of_lt hhigh (by norm_num)
      exact_mod_cast this
    by_contra hne
    have hminus : n = -1 := by omega
    have := hone hminus
    rw [hminus] at this
    norm_num at this
  · rintro rfl
    rw [normalized_zero, Int.cast_zero]

end Normalized

section Convert

variable {t u : TypeID} {doc : Point} {iv : IEC_Value} (doubleText : Number → String)

/-- The value a point gets of one that was read. -/
def shown (t : TypeID) (doc : Point) (x : Number) : Number :=
  match withoutTime t with
  | .M_SP_NA_1 => x
  | .M_DP_NA_1 => boolNum (!lowBit x)
  | _ => if cut doc x then .fin 0 else x

/-- The invalid flag a point gets of a value and a quality that were read. -/
def flagged (t : TypeID) (x : Number) (q : QualityDescriptor) : Bool :=
  q.invalid || q.nonTopical || q.overflow || x.isNaN ||
    (withoutTime t = .M_DP_NA_1 && (x.eqv (.fin 0) || x.eqv (.fin 3)))

theorem digital_iff :
    digital t = true ↔ withoutTime t = .M_SP_NA_1 ∨ withoutTime t = .M_DP_NA_1 := by
  unfold digital
  split
  · next h => simp [h]
  · next h => simp [h]
  · next hsp hdp => exact iff_of_false Bool.false_ne_true fun h => h.elim hsp hdp

theorem asduBegins_double (hu : monitored u = true) (hiv : iv.asdu = u) :
    asduBegins (sourceDataUpdate doubleText iv) "M_DP_" = decide (withoutTime u = .M_DP_NA_1) := by
  show "M_DP_".toList.isPrefixOf iv.asdu.name.toList = _
  rw [hiv]
  cases u with
  | M_SP_NA_1 | M_DP_NA_1 | M_ST_NA_1 | M_BO_NA_1 | M_ME_NA_1 | M_ME_ND_1 | M_ME_NB_1
  | M_ME_NC_1 | M_SP_TB_1 | M_DP_TB_1 | M_ST_TB_1 | M_BO_TB_1 | M_ME_TD_1 | M_ME_TE_1
  | M_ME_TF_1 => decide
  | _ => cases hu

theorem convert_analog (hdoc : Neutral t doc) (ht : digital t = false)
    (hholds : binary64.Holds iv.value) :
    (convert doc (sourceDataUpdate doubleText iv)).value = shown t doc iv.value ∧
      (convert doc (sourceDataUpdate doubleText iv)).invalid = flagged t iv.value iv.quality := by
  have htype : doc.type = .analog := by
    have h := hdoc.type
    rwa [ht, if_neg Bool.false_ne_true] at h
  have hbase : withoutTime t ≠ .M_SP_NA_1 ∧ withoutTime t ≠ .M_DP_NA_1 := by
    rw [← not_or, ← digital_iff, ht]
    exact Bool.false_ne_true
  have hshown : shown t doc iv.value = if cut doc iv.value then .fin 0 else iv.value := by
    unfold shown
    split
    · next h => exact absurd h hbase.1
    · next h => exact absurd h hbase.2
    · rfl
  unfold convert
  rw [htype]
  constructor
  · have hvalue : ((sourceDataUpdate doubleText iv).valueAtSource.toNumber.mul doc.kconv1).add
        doc.kconv2 = iv.value := by
      rw [hdoc.kconv1, hdoc.kconv2]
      exact neutral hholds
    rw [hshown]
    simp only [convertAnalog, hvalue]
    split
    · next hzero => simp [cut, hzero]
    · next hzero => simp [cut, hzero]
    · next z hzero => simp [cut, hzero]
  · unfold flagged
    rw [decide_eq_false hbase.2, Bool.false_and, Bool.or_false]
    simp only [convertAnalog, guardValue, sourceDataUpdate, quality]
    cases iv.value.isNaN <;> simp

theorem convert_digital (hdoc : Neutral t doc) (ht : digital t = true) (hu : monitored u = true)
    (hut : withoutTime u = withoutTime t) (hiv : iv.asdu = u) (hnan : iv.value.isNaN = false) :
    (convert doc (sourceDataUpdate doubleText iv)).value = shown t doc iv.value ∧
      (convert doc (sourceDataUpdate doubleText iv)).invalid = flagged t iv.value iv.quality := by
  have htype : doc.type = .digital := by
    have h := hdoc.type
    rwa [ht, if_pos rfl] at h
  have hkconv1 : doc.kconv1.eqv (.fin (-1)) = false := by
    rw [hdoc.kconv1]
    simp
    norm_num
  have hdouble := asduBegins_double doubleText hu hiv
  rw [hut] at hdouble
  have hguard : guardValue (sourceDataUpdate doubleText iv) (quality (sourceDataUpdate doubleText iv)) =
      (iv.value, quality (sourceDataUpdate doubleText iv)) := by
    simp [guardValue, sourceDataUpdate, hnan]
  unfold convert
  rw [htype]
  simp only [convertDigital, hdouble, hguard, hkconv1]
  by_cases hbase : withoutTime t = .M_DP_NA_1
  · simp only [shown, flagged, hbase, decide_true, if_true, Bool.true_and, hnan, Bool.or_false]
    refine ⟨rfl, ?_⟩
    cases iv.value.eqv (.fin 0) || iv.value.eqv (.fin 3) <;>
      simp [quality, sourceDataUpdate]
  · have hsingle : withoutTime t = .M_SP_NA_1 := (digital_iff.mp ht).resolve_right hbase
    simp only [shown, flagged, hsingle]
    refine ⟨rfl, ?_⟩
    simp [quality, sourceDataUpdate, hnan]

end Convert

/-- The value of what was read comes out right, and so does the invalid flag. -/
def Restored (t : TypeID) (doc : Point) (value : Number) (q : QualityDescriptor)
    (r : Number × QualityDescriptor) : Prop :=
  expected t value = some (shown t doc r.1) ∧ (q.invalid = true → flagged t r.1 r.2 = true)

section Main

variable {doubleText : Number → String} {dateOf : CP56Time2a → Option Date} {srv : Connection}
variable {t : TypeID} {doc : Point} {value : Number} {q : QualityDescriptor} {transient : Bool}

theorem typeOf_monitored (ht : monitored t = true) (time_tag : Option CP56Time2a) :
    TypeID.ofCode t.code = t ∧ monitored (typeOf t.code time_tag) = true ∧
      withoutTime (typeOf t.code time_tag) = withoutTime t := by
  cases time_tag <;> cases t <;> first | cases ht; done | exact ⟨rfl, rfl, rfl⟩

theorem rounded_bounds {low high n : ℤ} (hlh : low ≤ high) (h : rounded low high value = some n) :
    low ≤ n ∧ n ≤ high := by
  cases value with
  | nan => cases h
  | inf neg =>
    cases neg with
    | true =>
      cases h
      exact ⟨le_rfl, hlh⟩
    | false =>
      cases h
      exact ⟨hlh, le_rfl⟩
  | fin q =>
    cases h
    omega

theorem rounded_of_toUInt32 {n : ℤ} (h : Lib.DotNet.Convert.toUInt32 value = some n) :
    rounded 0 4294967295 value = some n := by
  cases value with
  | nan => cases h
  | inf neg => cases h
  | fin q =>
    have hdef : (if 0 ≤ nearestEven q ∧ nearestEven q ≤ 4294967295 then some (nearestEven q)
        else none) = some n := h
    split at hdef
    · next hrange =>
      cases hdef
      exact congrArg some (by omega)
    · cases hdef

/-- What is carried for a type that is not digital is a double. -/
theorem carried_holds {r : Number × QualityDescriptor} (hdigital : digital t = false)
    (h : carried t value q transient = some r) : binary64.Holds r.1 := by
  have hint : ∀ {low high n : ℤ}, -(2 ^ 53) ≤ low → low ≤ high → high ≤ 2 ^ 53 →
      rounded low high value = some n → binary64.Holds (.fin (n : ℚ)) := by
    intro low high n hlow hlh hhigh hn
    have hbounds := rounded_bounds hlh hn
    exact holds_intCast (by omega) (by omega)
  unfold digital at hdigital
  unfold carried at h
  split at h
  · next hb =>
    rw [hb] at hdigital
    cases hdigital
  · next hb =>
    rw [hb] at hdigital
    cases hdigital
  · obtain ⟨n, hn, rfl⟩ := Option.map_eq_some_iff.mp h
    exact hint (by norm_num) (by norm_num) (by norm_num) hn
  · obtain ⟨n, hn, rfl⟩ := Option.map_eq_some_iff.mp h
    exact hint (by norm_num) (by norm_num) (by norm_num) (rounded_of_toUInt32 hn)
  · obtain ⟨n, -, rfl⟩ := Option.map_eq_some_iff.mp h
    exact holds_toSingle
  · obtain ⟨n, -, rfl⟩ := Option.map_eq_some_iff.mp h
    exact holds_toSingle
  · obtain ⟨n, hn, rfl⟩ := Option.map_eq_some_iff.mp h
    exact hint (by norm_num) (by norm_num) (by norm_num) hn
  · cases h
    exact holds_toSingle
  · cases h

/-- What is carried for a digital type is a state. -/
theorem carried_number {r : Number × QualityDescriptor} (hdigital : digital t = true)
    (h : carried t value q transient = some r) : r.1.isNaN = false := by
  rcases digital_iff.mp hdigital with hb | hb
  · unfold carried at h
    rw [hb] at h
    cases h
    cases value.eqv (.fin 0) <;> rfl
  · unfold carried at h
    rw [hb] at h
    cases h
    unfold doublePoint
    cases transient with
    | true => rfl
    | false => cases boolean value (.fin 1) <;> rfl

theorem carried_congr {u : TypeID} (h : withoutTime u = withoutTime t) :
    carried u value q transient = carried t value q transient := by
  unfold carried
  rw [h]

/-- The three programs, put together. -/
theorem roundTrip_iff_restored (ht : monitored t = true) (hdoc : Neutral t doc)
    (hvalue : binary64.Holds value) (time_tag : Option CP56Time2a) (addr cot ca now sent : ℤ) :
    RoundTrip doubleText dateOf srv t doc value q transient time_tag addr cot ca now sent ↔
      ∃ r, carried t value q transient = some r ∧ Restored t doc value q r := by
  obtain ⟨hcode, hu, hut⟩ := typeOf_monitored ht time_tag
  have hread := readBack_eq hu hvalue q transient
  rw [carried_congr hut] at hread
  have hcontent := buildContent_typeOf t.code time_tag value false 0 (some q) (.fin 1) (.fin 0)
    transient
  unfold RoundTrip BuildInfoObj Restored
  dsimp only
  generalize typeOf t.code time_tag = u at *
  cases hmade : buildContent u value false 0 (some q) (.fin 1) (.fin 0) transient with
  | none =>
    rw [hmade] at hread
    constructor
    · rintro ⟨obj, iv, h, -⟩
      cases h
    · rintro ⟨r, hr, -⟩
      rw [← hread] at hr
      cases hr
  | some made =>
    cases made with
    | none =>
      rw [hmade] at hread
      constructor
      · rintro ⟨obj, iv, h, -⟩
        cases h
      · rintro ⟨r, hr, -⟩
        rw [← hread] at hr
        cases hr
    | some c =>
      rw [hmade] at hread
      have helement : ∀ r, carried t value q transient = some r → ∀ asdu o, asdu.TypeId = u →
          (convert doc (sourceDataUpdate doubleText (valueOf dateOf srv now asdu o r))).value =
              shown t doc r.1 ∧
            (convert doc (sourceDataUpdate doubleText (valueOf dateOf srv now asdu o r))).invalid =
              flagged t r.1 r.2 := by
        intro r hr asdu o hasdu
        cases hd : digital t with
        | false => exact convert_analog doubleText hdoc hd (carried_holds hd hr)
        | true => exact convert_digital doubleText hdoc hd hu hut hasdu (carried_number hd hr)
      constructor
      · rintro ⟨obj, iv, hobj, hiv, hexpected, hinvalid⟩
        cases hobj
        obtain ⟨r, hr, rfl⟩ := Option.map_eq_some_iff.mp
          ((AsduReceivedHandler_singleton dateOf srv now rfl).mp hiv)
        have hcarried : carried t value q transient = some r := hread.symm.trans hr
        have hvalue := fun asdu o h => (helement r hcarried asdu o h).1
        have hflag := fun asdu o h => (helement r hcarried asdu o h).2
        refine ⟨r, hcarried, hexpected.trans (congrArg some (hvalue _ _ rfl)), fun hq => ?_⟩
        exact (hflag _ _ rfl).symm.trans (hinvalid hq)
      · rintro ⟨r, hr, hexpected, hinvalid⟩
        let obj : InformationObject := ⟨u, addressOf u addr, c.1, c.2,
          if hasTimestamp u then some (time_tag.getD { time := sent }) else none⟩
        let asdu : ASDU := ⟨u, cot, ca, [obj]⟩
        obtain ⟨hshown, hflagged⟩ := helement r hr asdu obj rfl
        have helem : element u obj = some r := hread.trans hr
        have hreceive : receive dateOf srv now asdu obj = some (valueOf dateOf srv now asdu obj r) :=
          congrArg (Option.map _) helem
        refine ⟨obj, valueOf dateOf srv now asdu obj r, rfl, ?_, ?_, ?_⟩
        · exact (AsduReceivedHandler_singleton dateOf srv now rfl).mpr hreceive
        · exact hexpected.trans (congrArg some hshown.symm)
        · exact fun hq => hflagged.trans (hinvalid hq)

theorem shown_analog {x : Number} (h : digital t = false) :
    shown t doc x = if cut doc x then .fin 0 else x := by
  have hbase := digital_iff.not.mp (by rw [h]; exact Bool.false_ne_true)
  rw [not_or] at hbase
  unfold shown
  split
  · next hsp => exact absurd hsp hbase.1
  · next hdp => exact absurd hdp hbase.2
  · rfl

theorem notCut_iff {x : Number} :
    some x = some (if cut doc x then Number.fin 0 else x) ↔ NotCut doc (some x) := by
  unfold NotCut
  cases hcut : cut doc x with
  | true => simp [hcut]
  | false => simp [hcut]

/-- A normalized value is read as a fraction of its range. -/
theorem shown_normalized (n : ℤ) :
    some (Number.fin n) = some (if cut doc (GetNormalizedValue n) then Number.fin 0
      else GetNormalizedValue n) ↔ n = 0 := by
  have hzero : Number.fin n = .fin 0 ↔ n = 0 := by simp
  rw [Option.some.injEq]
  split
  · exact hzero
  · rw [eq_comm]
    exact normalized_eq_iff n

theorem flagged_of_invalid {x : Number} {r : QualityDescriptor} (h : r.invalid = true) :
    flagged t x r = true := by
  unfold flagged
  rw [h]
  rfl

/-- A value without a quality is valid, unless it is no number. -/
theorem flagged_default (h : digital t = false) (n : ℚ) : flagged t (.fin n) {} = false := by
  have hbase := digital_iff.not.mp (by rw [h]; exact Bool.false_ne_true)
  rw [not_or] at hbase
  simp [flagged, hbase.2, Number.isNaN]

theorem rounded_eq_none {low high : ℤ} : rounded low high value = none ↔ value = .nan := by
  cases value <;> simp [rounded]

theorem exists_map_iff {α β : Type} (o : Option α) (f : α → β) (P : β → Prop) :
    (∃ r, o.map f = some r ∧ P r) ↔ ∃ n, o = some n ∧ P (f n) := by
  cases o with
  | none => simp
  | some n => simp

/-- An integer that the client reads as it was sent, with its quality. -/
theorem restored_int_iff (hd : digital t = false) {low high : ℤ}
    (hexpected : expected t value = expectedInt low high value) {f : ℤ → QualityDescriptor}
    (hf : ∀ n, q.invalid = true → (f n).invalid = true) :
    (∃ n, rounded low high value = some n ∧ Restored t doc value q (.fin n, f n)) ↔
      value ≠ .nan ∧ NotCut doc (expected t value) := by
  unfold Restored
  rw [hexpected]
  unfold expectedInt
  cases hr : rounded low high value with
  | none =>
    have hnan := rounded_eq_none.mp hr
    simp [hnan]
  | some n =>
    have hnum : value ≠ .nan := fun h => by
      rw [rounded_eq_none.mpr h] at hr
      cases hr
    have hshown := @shown_analog t doc (.fin n) hd
    constructor
    · rintro ⟨m, hm, hvalue, -⟩
      cases hm
      rw [hshown] at hvalue
      exact ⟨hnum, notCut_iff.mp hvalue⟩
    · rintro ⟨-, hcut⟩
      refine ⟨n, rfl, ?_, fun h => flagged_of_invalid (hf n h)⟩
      rw [hshown]
      exact notCut_iff.mpr hcut

/-- A double point in motion is read as ON, and invalid. -/
theorem restored_double_iff (hb : withoutTime t = .M_DP_NA_1) :
    Restored t doc value q (doubleValue (doublePoint value (.fin 1) transient), q) ↔
      (transient = true → value.eqv (.fin 0) = false) := by
  have hstates : lowBit (.fin 0) = false ∧ lowBit (.fin 1) = true ∧ lowBit (.fin 2) = false := by
    decide
  have hbool : boolean value (.fin 1) = !value.eqv (.fin 0) := rfl
  unfold Restored
  rw [and_iff_left flagged_of_invalid]
  simp only [expected, shown, hb, Option.some.injEq]
  unfold doublePoint
  rw [hbool]
  cases transient with
  | true =>
    simp only [if_true, doubleValue, hstates.1]
    cases value.eqv (.fin 0) <;> simp [boolNum]
  | false =>
    cases value.eqv (.fin 0) <;> simp [doubleValue, hstates.2.1, hstates.2.2]

theorem restored_bitstring_iff (hb : withoutTime t = .M_BO_NA_1) :
    (∃ n, Lib.DotNet.Convert.toUInt32 value = some n ∧ Restored t doc value q (.fin n, {})) ↔
      (Lib.DotNet.Convert.toUInt32 value).isSome = true ∧ q.invalid = false ∧
        NotCut doc (expected t value) := by
  have hd : digital t = false := by simp [digital, hb]
  have hexpected : expected t value = expectedInt 0 4294967295 value := by simp [expected, hb]
  unfold Restored
  rw [hexpected]
  unfold expectedInt
  cases hn : Lib.DotNet.Convert.toUInt32 value with
  | none => simp
  | some n =>
    rw [rounded_of_toUInt32 hn]
    have hshown := @shown_analog t doc (.fin n) hd
    have hflagged := flagged_default hd n
    constructor
    · rintro ⟨m, hm, hvalue, hinvalid⟩
      cases hm
      rw [hshown] at hvalue
      refine ⟨rfl, ?_, notCut_iff.mp hvalue⟩
      cases hq : q.invalid with
      | false => rfl
      | true => exact absurd (hflagged.symm.trans (hinvalid hq)) Bool.false_ne_true
    · rintro ⟨-, hq, hcut⟩
      refine ⟨n, rfl, ?_, fun h => ?_⟩
      · rw [hshown]
        exact notCut_iff.mpr hcut
      · rw [hq] at h
        cases h

/-- Of the normalized values zero comes back, with its quality where that is sent. -/
theorem restored_normalized_iff (hb : withoutTime t = .M_ME_NA_1 ∨ withoutTime t = .M_ME_ND_1)
    {f : ℤ → QualityDescriptor} :
    (∃ n, rounded (-32768) 32767 value = some n ∧
        Restored t doc value q (GetNormalizedValue n, f n)) ↔
      rounded (-32768) 32767 value = some 0 ∧
        (q.invalid = true → flagged t (.fin 0) (f 0) = true) := by
  have hd : digital t = false := by rcases hb with h | h <;> simp [digital, h]
  have hexpected : expected t value = expectedInt (-32768) 32767 value := by
    rcases hb with h | h <;> simp [expected, h]
  unfold Restored
  rw [hexpected]
  unfold expectedInt
  constructor
  · rintro ⟨n, hn, hvalue, hinvalid⟩
    rw [hn, shown_analog hd] at hvalue
    obtain rfl := (shown_normalized n).mp hvalue
    rw [normalized_zero] at hinvalid
    exact ⟨hn, hinvalid⟩
  · rintro ⟨hn, hinvalid⟩
    refine ⟨0, hn, ?_, ?_⟩
    · rw [hn, shown_analog hd]
      exact (shown_normalized 0).mpr rfl
    · rw [normalized_zero]
      exact hinvalid

theorem restored_short_iff (hb : withoutTime t = .M_ME_NC_1) :
    Restored t doc value q (toSingle value, q) ↔ NotCut doc (expected t value) := by
  have hd : digital t = false := by simp [digital, hb]
  have hexpected : expected t value = some (toSingle value) := by simp [expected, hb]
  unfold Restored
  rw [hexpected, shown_analog hd]
  constructor
  · exact fun h => notCut_iff.mp h.1
  · exact fun h => ⟨notCut_iff.mpr h, flagged_of_invalid⟩

theorem monitored_base (ht : monitored t = true) :
    withoutTime t = .M_SP_NA_1 ∨ withoutTime t = .M_DP_NA_1 ∨ withoutTime t = .M_ST_NA_1 ∨
      withoutTime t = .M_BO_NA_1 ∨ withoutTime t = .M_ME_NA_1 ∨ withoutTime t = .M_ME_ND_1 ∨
      withoutTime t = .M_ME_NB_1 ∨ withoutTime t = .M_ME_NC_1 := by
  cases t <;> first | cases ht; done | decide

/-- A value that the server sends comes back exactly where it survives. -/
theorem monitor_round_trip (ht : monitored t = true) (hdoc : Neutral t doc)
    (hvalue : binary64.Holds value) (time_tag : Option CP56Time2a) (addr cot ca now sent : ℤ) :
    RoundTrip doubleText dateOf srv t doc value q transient time_tag addr cot ca now sent ↔
      Survives t doc value q transient := by
  rw [roundTrip_iff_restored ht hdoc hvalue time_tag addr cot ca now sent]
  rcases monitored_base ht with hb | hb | hb | hb | hb | hb | hb | hb
  · simp only [Restored, Survives, carried, expected, shown, hb]
    exact iff_true_intro ⟨_, rfl, rfl, fun h => flagged_of_invalid h⟩
  · simp only [Survives, carried, hb, Option.some.injEq, exists_eq_left']
    exact restored_double_iff hb
  · have hd : digital t = false := by simp [digital, hb]
    have hexpected : expected t value = expectedInt (-64) 63 value := by simp [expected, hb]
    have hinvalid : ∀ n : ℤ, q.invalid = true → (q.invalid || transient) = true := fun n h => by
      simp [h]
    simp only [Survives, carried, hb, exists_map_iff]
    exact restored_int_iff hd hexpected hinvalid
  · simp only [Survives, carried, hb, exists_map_iff]
    exact restored_bitstring_iff hb
  · simp only [Survives, carried, hb, exists_map_iff]
    rw [restored_normalized_iff (.inl hb)]
    exact and_iff_left fun h => flagged_of_invalid h
  · have hd : digital t = false := by simp [digital, hb]
    simp only [Survives, carried, hb, exists_map_iff]
    rw [restored_normalized_iff (.inr hb), flagged_default hd]
    simp
  · have hd : digital t = false := by simp [digital, hb]
    have hexpected : expected t value = expectedInt (-32768) 32767 value := by simp [expected, hb]
    simp only [Survives, carried, hb, exists_map_iff]
    exact restored_int_iff hd hexpected fun n h => h
  · simp only [Survives, carried, hb, Option.some.injEq, exists_eq_left']
    exact restored_short_iff hb

end Main

/-- An analog point with the factors and the dead band a new tag has. -/
def reading : Point := { _id := .fin 1, tag := "READING", type := .analog }

theorem reading_neutral {t : TypeID} (h : digital t = false) : Neutral t reading where
  type := by rw [h]; rfl
  kconv1 := rfl
  kconv2 := rfl

theorem holds_hundred : binary64.Holds (.fin 100) := by
  have h := @holds_intCast 100 (by norm_num) (by norm_num)
  norm_num at h
  exact h

/-- A scaled value comes back. -/
theorem scaled_comes_back :
    RoundTrip (fun _ => "") (fun _ => none) { protocolConnectionNumber := 61 } .M_ME_NB_1 reading
      (.fin 100) { invalid := true } false none 7 3 1 0 0 :=
  (monitor_round_trip rfl (reading_neutral rfl) holds_hundred none 7 3 1 0 0).mpr
    ⟨Number.noConfusion, fun _ _ h => absurd h Bool.false_ne_true⟩

/-- A normalized value of 100 is read as a fraction of the range, and a bitstring that is
invalid as a valid one. -/
theorem normalized_and_bitstring_differ :
    ¬ RoundTrip (fun _ => "") (fun _ => none) { protocolConnectionNumber := 61 } .M_ME_NA_1 reading
      (.fin 100) {} false none 7 3 1 0 0 ∧
    ¬ RoundTrip (fun _ => "") (fun _ => none) { protocolConnectionNumber := 61 } .M_BO_NA_1 reading
      (.fin 100) { invalid := true } false none 7 3 1 0 0 := by
  have hround : nearestEven 100 = 100 := by
    have h := nearestEven_intCast 100
    norm_num at h
    exact h
  constructor
  · rw [roundTrip_iff_restored rfl (reading_neutral rfl) holds_hundred none 7 3 1 0 0]
    simp only [carried, withoutTime, exists_map_iff]
    rw [restored_normalized_iff (.inl rfl)]
    rintro ⟨hzero, -⟩
    simp [rounded, hround] at hzero
  · rw [roundTrip_iff_restored rfl (reading_neutral rfl) holds_hundred none 7 3 1 0 0]
    simp only [carried, withoutTime, exists_map_iff]
    rw [restored_bitstring_iff rfl]
    rintro ⟨-, hvalid, -⟩
    cases hvalid

end JsonScada.System.MonitorRoundTrip
