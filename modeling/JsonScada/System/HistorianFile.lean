/- path: JsonScada/System/HistorianFile
   source: src/cs_data_processor/cs_data_processor.js, sqlHistQueue and processSqlAndMongoHistUpdates
   digest: Which updates of the drivers make a historian transaction malformed. -/

import JsonScada.Processor.Change
import JsonScada.Processor.HistorianSql

set_option autoImplicit false
set_option relaxedAutoImplicit false

namespace JsonScada.System.HistorianFile

open JsonScada.Lib.Binary64 JsonScada.Lib.EcmaScript JsonScada.Lib.Sql JsonScada.Model.Documents
open JsonScada.Processor.Convert JsonScada.Processor.Historian JsonScada.Processor.Change
open JsonScada.Processor.HistorianSql

/-- One change event as the handler receives it. -/
structure Delivery where
  clock : Clock
  digitalUpdatesCount : ℕ
  doc : Point
  sdu : SourceDataUpdate
  deriving DecidableEq

namespace Delivery

def outcome (d : Delivery) : Outcome := change d.clock d.digitalUpdatesCount d.doc d.sdu

/-- The update is taken, and the historian is to have it. -/
def isQueued (d : Delivery) : Bool :=
  let r := readUpdate d.clock d.doc d.sdu
  accepted d.doc d.sdu r && insertIntoHistorian d.doc d.sdu r.conv.value

theorem mem_hist {d : Delivery} {e : HistEntry} :
    e ∈ d.outcome.hist ↔ d.isQueued = true ∧ e = histEntry d.doc d.sdu (readUpdate d.clock d.doc d.sdu) := by
  have hhist : d.outcome.hist = if d.isQueued = true then
      [histEntry d.doc d.sdu (readUpdate d.clock d.doc d.sdu)] else [] := rfl
  rw [hhist]
  split_ifs with h <;> simp [h]

end Delivery

/-- The batch drained from sqlHistQueue after some deliveries. -/
def drained (ds : List Delivery) : List HistEntry := ds.flatMap fun d => d.outcome.hist

/-- The value at source is converted to a finite number. A double point and an inverted
one are zero or one, whatever was written. -/
def FiniteAtSource (doc : Point) (sdu : SourceDataUpdate) : Prop :=
  match doc.type with
  | .analog => ((sdu.valueAtSource.toNumber.mul doc.kconv1).add doc.kconv2).IsFinite
  | .digital => asduBegins sdu "M_DP_" = true ∨ doc.kconv1.eqv (.fin (-1)) = true ∨
      ∀ s, sdu.valueAtSource ≠ .val (.inf s)
  | _ => ∀ s, sdu.valueAtSource ≠ .val (.inf s)

/-- The text of valueJson behind `{"v":`. -/
def jsonOf (valueJson : String) : List Char :=
  let text := if valueJson = "" then ['"', '"'] else trim valueJson.toList
  if HistEntry.bracketed text then trimBoth ['"'] text
  else if HistEntry.wrapped (HistEntry.quoted text) then '"' :: (text ++ ['"'])
  else text

/-- An update the historian can be given: its number is finite, its texts hold no NUL,
and its valueJson stands for a JSON value. -/
structure Storable (inRange : List Char → Bool) (doc : Point) (sdu : SourceDataUpdate) : Prop where
  finite : FiniteAtSource doc sdu
  tag : '\x00' ∉ doc.tag.toList
  valueString : '\x00' ∉ (convert doc sdu).valueString.toList
  valueJson : '\x00' ∉ (sdu.valueJsonAtSource.getD "").toList
  json : JsonMember inRange (jsonOf (sdu.valueJsonAtSource.getD ""))

section Value

variable {doc : Point} {sdu : SourceDataUpdate}

theorem guardValue_isFinite (q : Quality) :
    (guardValue sdu q).1.IsFinite ↔ ∀ s, sdu.valueAtSource ≠ .val (.inf s) := by
  unfold guardValue
  cases hv : sdu.valueAtSource with
  | absent => simp [Number.IsFinite]
  | null => simp [Number.IsFinite]
  | val x => cases x <;> simp [Number.isNaN, Number.IsFinite]

theorem isFinite_of_abs_lt {x z : Number} (h : x.abs.lt z = true) : x.IsFinite := by
  cases x with
  | nan => cases h
  | inf s => cases z with
    | inf t => cases t <;> cases h
    | nan => cases h
    | fin q => cases h
  | fin q => trivial

theorem boolNum_isFinite (b : Bool) : (boolNum b).IsFinite := by
  cases b <;> trivial

theorem convert_isFinite : (convert doc sdu).value.IsFinite ↔ FiniteAtSource doc sdu := by
  unfold convert FiniteAtSource
  cases doc.type with
  | digital =>
    simp only [convertDigital]
    split_ifs with hinv hdouble hdouble
    · simp [boolNum_isFinite, hdouble]
    · simp [boolNum_isFinite, hinv]
    · simp [boolNum_isFinite, hdouble]
    · simp only [hdouble, hinv, Bool.false_eq_true, false_or]
      exact guardValue_isFinite _
  | analog =>
    simp only [convertAnalog]
    cases doc.zeroDeadband with
    | absent => exact Iff.rfl
    | null => exact Iff.rfl
    | val z =>
      simp only []
      split_ifs with hband
      · have hlt := (Bool.and_eq_true_iff.mp hband).2
        exact ⟨fun _ => isFinite_of_abs_lt hlt, fun _ => trivial⟩
      · exact Iff.rfl
  | string => exact guardValue_isFinite _
  | json => exact guardValue_isFinite _

end Value

section Json

theorem mem_dropWhile {p : Char → Bool} {c : Char} (hc : p c = false) (s : List Char) :
    c ∈ s.dropWhile p ↔ c ∈ s := by
  induction s with
  | nil => exact Iff.rfl
  | cons d s ih =>
    rw [List.dropWhile_cons]
    split_ifs with hd
    · have hne : c ≠ d := by
        rintro rfl
        rw [hc] at hd
        cases hd
      rw [ih, List.mem_cons, or_iff_right hne]
    · exact Iff.rfl

theorem nul_mem_trim (s : List Char) : '\x00' ∈ trim s ↔ '\x00' ∈ s := by
  have hwhite : isWhite '\x00' = false := by decide
  rw [trim, trimEnd, trimStart, List.mem_reverse, mem_dropWhile hwhite, List.mem_reverse,
    mem_dropWhile hwhite]

theorem nul_mem_jsonPlain (e : HistEntry) : '\x00' ∈ e.jsonPlain ↔ '\x00' ∈ e.valueJson.toList := by
  have hsource : '\x00' ∈ e.jsonSource ↔ '\x00' ∈ e.valueJson.toList := by
    unfold HistEntry.jsonSource
    split_ifs with h
    · rw [h]
      decide
    · exact nul_mem_trim _
  unfold HistEntry.jsonPlain
  split_ifs
  · simp [hsource]
  · exact hsource

theorem bracketed_escaped (s : List Char) :
    HistEntry.bracketed (escaped s) = HistEntry.bracketed s := by
  cases s with
  | nil => rfl
  | cons c s =>
    by_cases hc : c = '\''
    · subst hc
      rfl
    · simp [escaped, hc, HistEntry.bracketed]

theorem memberText_eq (e : HistEntry) : memberText e = jsonOf e.valueJson := by
  have hempty : ∀ s, trimBoth [] s = s := by
    intro s
    have hkeep : ∀ t : List Char, t.dropWhile [].contains = t := by
      intro t
      cases t <;> rfl
    rw [trimBoth, hkeep, hkeep, List.reverse_reverse]
  unfold memberText jsonOf HistEntry.jsonPlain
  rw [HistEntry.valueJsonText_eq]
  change _ = if HistEntry.bracketed e.jsonSource = true then trimBoth ['"'] e.jsonSource
    else if HistEntry.wrapped (escaped e.jsonSource) = true then '"' :: (e.jsonSource ++ ['"'])
    else e.jsonSource
  rw [HistEntry.trimS, bracketed_escaped]
  cases hb : HistEntry.bracketed e.jsonSource with
  | true =>
    have hwrap : HistEntry.wrapped (escaped e.jsonSource) = false := by
      unfold HistEntry.wrapped
      rw [bracketed_escaped, hb]
      cases escaped e.jsonSource <;> simp
    simp [hwrap]
  | false => simp [hempty]

end Json

theorem writable_histEntry {inRange : List Char → Bool} (d : Delivery) :
    Writable inRange (histEntry d.doc d.sdu (readUpdate d.clock d.doc d.sdu)) ↔
      Storable inRange d.doc d.sdu := by
  constructor
  · rintro ⟨⟨htag, hplain, hstring⟩, hfin, hjson⟩
    rw [nul_mem_jsonPlain] at hplain
    rw [memberText_eq] at hjson
    exact ⟨convert_isFinite.mp hfin, htag, hstring, hplain, hjson⟩
  · rintro ⟨hfin, htag, hstring, hplain, hjson⟩
    refine ⟨⟨htag, ?_, hstring⟩, convert_isFinite.mpr hfin, ?_⟩
    · rw [nul_mem_jsonPlain]
      exact hplain
    · rw [memberText_eq]
      exact hjson

theorem forall_mem_drained {P : HistEntry → Prop} {ds : List Delivery} :
    (∀ e ∈ drained ds, P e) ↔ ∀ d ∈ ds, d.isQueued = true →
      P (histEntry d.doc d.sdu (readUpdate d.clock d.doc d.sdu)) := by
  simp only [drained, List.mem_flatMap, Delivery.mem_hist]
  constructor
  · intro h d hd hq
    exact h _ ⟨d, hd, hq, rfl⟩
  · rintro h e ⟨d, hd, hq, rfl⟩
    exact h d hd hq

/-- The transaction of a batch is well formed when every update in it is storable. -/
theorem wellFormed_drained_iff (inRange : List Char → Bool) (ds : List Delivery)
    (hne : drained ds ≠ []) :
    WellFormed inRange (drained ds) (histTransaction (drained ds)) ↔
      ∀ d ∈ ds, d.isQueued = true → Storable inRange d.doc d.sdu := by
  rw [wellFormed_iff hne, forall_mem_drained]
  simp only [writable_histEntry]

section Example

def breaker : Point := { _id := .fin 8, tag := "KAW2KPR21MTWT", type := .digital, stateTextTrue := "ON" }

def breakerClosed : Delivery :=
  ⟨⟨0, 1000⟩, 0, breaker, { valueAtSource := .val (.fin 1), timeTag := 900 }⟩

def voltage : Point := { _id := .fin 7, tag := "KAW2AL_ALL", type := .analog, unit := "kV" }

/-- A calculation that divides zero by zero. -/
def voltageNaN : Delivery :=
  ⟨⟨0, 1000⟩, 0, voltage, { valueAtSource := .val .nan, timeTag := 900 }⟩

theorem wellFormed_drained_breaker :
    drained [breakerClosed] ≠ [] ∧ WellFormed (fun _ => true) (drained [breakerClosed])
      (histTransaction (drained [breakerClosed])) := by
  have hne : drained [breakerClosed] ≠ [] := by decide +kernel
  refine ⟨hne, (wellFormed_drained_iff _ _ hne).mpr ?_⟩
  intro d hd _
  obtain rfl := List.mem_singleton.mp hd
  refine ⟨?_, by decide +kernel, by decide +kernel, by decide +kernel, by decide +kernel⟩
  refine .inr (.inr ?_)
  intro s
  simp [breakerClosed]

/-- The guard against NaN does not reach the factors: the row has no number in it, and the
breaker in the same batch is not written. -/
theorem not_wellFormed_voltageNaN :
    drained [breakerClosed, voltageNaN] ≠ [] ∧ ∀ inRange, ¬ WellFormed inRange
      (drained [breakerClosed, voltageNaN]) (histTransaction (drained [breakerClosed, voltageNaN])) := by
  have hne : drained [breakerClosed, voltageNaN] ≠ [] := by decide +kernel
  refine ⟨hne, ?_⟩
  intro inRange hw
  have hall := (wellFormed_iff hne).mp hw
  rw [forall_mem_drained] at hall
  have hnan := hall voltageNaN (by simp) (by decide +kernel)
  exact absurd hnan.finite (by decide +kernel)

end Example

end JsonScada.System.HistorianFile
