/- path: JsonScada/System/ValueExtraction
   source: src/plc4x-client/plc4x-client.go, extractValue
   digest: Which PLC values are read as what they are. -/

import JsonScada.Plc4xClient.Extraction
import JsonScada.System.WriteRead

set_option autoImplicit false
set_option relaxedAutoImplicit false

namespace JsonScada.System.ValueExtraction

open JsonScada.Lib JsonScada.Lib.Binary64 JsonScada.Lib.Endian JsonScada.Lib.Golang
open JsonScada.Lib.Numeral
open JsonScada.Plc4xClient.Extraction
open JsonScada.Plc4xClient.Values (Host Plc4x PlcType float64 wrap readBits readFloat)
open JsonScada.System.WriteRead (number turned readReverses)

section Statement

variable (host : Host) (lib : Plc4x) (enc : Encoding) (e : String)

/-- The number of a numeric value, its bytes in the order set for the type. -/
def scalar (T : PlcType) (bits : ℕ) : Number :=
  number T (turned (readReverses host e T) T.size bits)

/-- The milliseconds of a time, its bytes in the order set. -/
def scalarTime (millis : ℕ) : Number :=
  scalar host e .LINT millis

/-- The results stand for the value. -/
def Represents : PlcValue → Extracted → Prop
  | .unlisted _, _ | .null _, _ => False
  | .bool _ b, r =>
    r.valDbl = (if b then .fin 1 else .fin 0) ∧ r.valStr = (if b then "true" else "false")
  | .numeric T _ bits, r =>
    r.valDbl = scalar host e T bits ∧ Denotes r.valStr (scalar host e T bits)
  | .time _ _ millis, r =>
    r.valDbl = scalarTime host e millis ∧ Denotes r.valStr (scalarTime host e millis)
  | .text _ _ s, r => r.valStr = s
  | .struct _ _, _ => True
  | .list _ elements, r =>
    r.valArrDbl = elements.map fun v => (extractValue host lib enc e v).valDbl
  | .raw _ bytes, r => r.valArrDbl = bytes.map fun b => float64 b.toNat

/-- The value is reported bad, or has to be for a bad element. -/
inductive Bad : PlcValue → Prop
  | reported {v : PlcValue} (h : (extractValue host lib enc e v).bad = true) : Bad v
  | element {is : Bool} {elements : List PlcValue} {v : PlcValue} (hv : v ∈ elements)
      (h : Bad v) : Bad (.list is elements)

/-- A value is reported bad or read as what it is, and a list with a bad element is reported
bad. -/
def Faithful (v : PlcValue) : Prop :=
  let r := extractValue host lib enc e v
  (r.bad = true ∨ Represents host lib enc e v r) ∧
    ∀ is elements, v = .list is elements → (∃ x ∈ elements, Bad host lib enc e x) → r.bad = true

mutual

/-- A value that cannot be read, or a list with one. -/
def unreadable : PlcValue → Bool
  | .unlisted _ | .null _ => true
  | .bool is _ | .numeric _ is _ | .time _ is _ | .struct is _ | .raw is _ => !is
  | .text T is _ => decide (T = .WSTRING) && !is
  | .list is elements => !is || anyUnreadable elements

def anyUnreadable : List PlcValue → Bool
  | [] => false
  | v :: vs => unreadable v || anyUnreadable vs

end

/-- The bits of a float come through the integer of the library. -/
def FloatKept (T : PlcType) (bits : ℕ) : Prop :=
  (e = "LITTLE_ENDIAN" →
    number T (reverseBytes T.size (lib.getUint T.size bits)) = scalar host e T bits) ∧
    SixDecimals (scalar host e T bits)

/-- What has to hold of a value that answers: a float is kept by the integer of the library and
by six decimals, a time is the epoch, a text is empty, a list has no element that cannot be
read, and a raw array has one byte at most. -/
def Extractable : PlcValue → Prop
  | .unlisted _ | .null _ | .bool _ _ | .struct _ _ => True
  | .numeric T is bits => is = true → T.format ≠ none → FloatKept host lib e T bits
  | .time _ is millis => is = true → millis = 0
  | .text T is s => (T = .WSTRING → is = true) → s = ""
  | .list is elements => is = true → anyUnreadable elements = false
  | .raw is bytes => is = true → bytes.length ≤ 1

end Statement

variable {host : Host} {lib : Plc4x} {enc : Encoding} {e : String}

section Lists

theorem anyUnreadable_iff (vs : List PlcValue) :
    anyUnreadable vs = true ↔ ∃ v ∈ vs, unreadable v = true := by
  induction vs with
  | nil => simp [anyUnreadable]
  | cons v vs ih => rw [anyUnreadable, Bool.or_eq_true, ih, List.exists_mem_cons_iff]

/-- The flag itself knows nothing of elements. -/
theorem bad_list (is : Bool) (elements : List PlcValue) :
    (extractValue host lib enc e (.list is elements)).bad = !is := by
  cases is <;> simp [extractValue, array, failed]

theorem unreadable_of_reported {v : PlcValue} (h : (extractValue host lib enc e v).bad = true) :
    unreadable v = true := by
  cases v with
  | unlisted _ | null _ => rfl
  | list is elements =>
    rw [bad_list] at h
    rw [unreadable, h, Bool.true_or]
  | text T is s =>
    cases T <;> cases is <;> simp_all [extractValue, text, unreadable]
  | bool is _ | numeric _ is _ | time _ is _ | struct is _ | raw is _ =>
    cases is
    · rfl
    · simp [extractValue, numeric, dateTime, array] at h

theorem unreadable_of_bad {v : PlcValue} (h : Bad host lib enc e v) : unreadable v = true := by
  induction h with
  | reported h => exact unreadable_of_reported h
  | element hv _ ih =>
    rw [unreadable, (anyUnreadable_iff _).mpr ⟨_, hv, ih⟩, Bool.or_true]

mutual

theorem bad_of_unreadable : ∀ v : PlcValue, unreadable v = true → Bad host lib enc e v
  | .unlisted _, _ => .reported (by rw [extractValue]; rfl)
  | .null _, _ => .reported (by rw [extractValue])
  | .bool is _, h | .numeric _ is _, h | .time _ is _, h | .struct is _, h | .raw is _, h => by
    cases is
    · exact .reported (by rw [extractValue]; rfl)
    · rw [unreadable] at h
      cases h
  | .text T is _, h => by
    rw [unreadable, Bool.and_eq_true, decide_eq_true_eq, Bool.not_eq_true'] at h
    obtain ⟨rfl, rfl⟩ := h
    exact .reported (by rw [extractValue]; rfl)
  | .list is elements, h => by
    rw [unreadable, Bool.or_eq_true] at h
    rcases h with his | hany
    · exact .reported (by rw [bad_list, his])
    · obtain ⟨v, hv, hbad⟩ := exists_bad_of_any elements hany
      exact .element hv hbad

theorem exists_bad_of_any : ∀ vs : List PlcValue, anyUnreadable vs = true →
    ∃ v ∈ vs, Bad host lib enc e v
  | [], h => by
    rw [anyUnreadable] at h
    cases h
  | v :: vs, h => by
    rw [anyUnreadable, Bool.or_eq_true] at h
    rcases h with hv | hvs
    · exact ⟨v, List.mem_cons_self, bad_of_unreadable v hv⟩
    · obtain ⟨x, hx, hbad⟩ := exists_bad_of_any vs hvs
      exact ⟨x, List.mem_cons_of_mem v hx, hbad⟩

end

/-- A bad value is one that cannot be read. -/
theorem bad_iff {v : PlcValue} : Bad host lib enc e v ↔ unreadable v = true :=
  ⟨unreadable_of_bad, bad_of_unreadable v⟩

end Lists

section Scalars

variable {T : PlcType} {bits : ℕ}

theorem reverseBytes_one {b : ℕ} (h : b < 256 ^ 1) : reverseBytes 1 b = b := by
  have hone : bytes 1 b = [b % 256] := rfl
  rw [reverseBytes, hone]
  simp [ofBytes]
  omega

/-- An integer is read as the order of its bytes says. -/
theorem extractValue_integer (hT : T.format = none) (hbits : bits < 256 ^ T.size) :
    Plc4xClient.Values.extractValue host lib e T bits = scalar host e T bits := by
  by_cases hsize : 1 < T.size
  · exact WriteRead.extractValue_eq hsize hT hbits
  · have hone : T.size = 1 := by
      cases T <;> simp [PlcType.size] at hsize ⊢
    have hturned : turned (readReverses host e T) T.size bits = bits := by
      unfold turned
      rw [hone] at hbits ⊢
      split_ifs
      · exact reverseBytes_one hbits
      · rfl
    rw [scalar, hturned]
    cases T <;> first | rfl | exact absurd hone (by decide)

theorem extractValue_format (hT : T.format ≠ none) :
    Plc4xClient.Values.extractValue host lib e T bits = scalar host e T bits ↔
      (e = "LITTLE_ENDIAN" →
        number T (reverseBytes T.size (lib.getUint T.size bits)) = scalar host e T bits) := by
  by_cases he : e = "LITTLE_ENDIAN"
  · subst he
    rw [WriteRead.extractValue_little hT]
    exact ⟨fun h _ => h, fun h => h rfl⟩
  · rw [WriteRead.extractValue_float hT he]
    refine iff_of_true ?_ fun h => absurd h he
    have hkeep : readReverses host e T = false := by
      cases T <;> first | exact absurd rfl hT | simp [readReverses, WriteRead.word, he]
    rw [scalar, hkeep]
    rfl

theorem denotes_integer (hT : T.format = none) :
    Denotes (formatWhole (scalar host e T bits)) (scalar host e T bits) := by
  unfold scalar number
  rw [hT]
  exact denotes_formatWhole_round _

theorem valStr_numeric (T : PlcType) (bits : ℕ) :
    (numeric host lib enc e T bits).valStr =
      if T.format = none then formatWhole (numeric host lib enc e T bits).valDbl
      else formatF (numeric host lib enc e T bits).valDbl := rfl

/-- The number and the text of a numeric value. -/
theorem represents_numeric (T : PlcType) (is : Bool) (b : Fin (256 ^ T.size)) :
    Represents host lib enc e (.numeric T is b) (numeric host lib enc e T b) ↔
      (T.format ≠ none → FloatKept host lib e T b) := by
  have hread : (numeric host lib enc e T b).valDbl =
      Plc4xClient.Values.extractValue host lib e T b := rfl
  show _ ∧ Denotes (numeric host lib enc e T b).valStr _ ↔ _
  rw [valStr_numeric, hread]
  by_cases hT : T.format = none
  · rw [extractValue_integer hT b.isLt, if_pos hT]
    exact iff_of_true ⟨rfl, denotes_integer hT⟩ fun h => absurd hT h
  · have hkept := @extractValue_format host lib e T b hT
    rw [if_neg hT]
    constructor
    · rintro ⟨hvalue, htext⟩ -
      rw [hvalue] at htext
      exact ⟨hkept.mp hvalue, denotes_formatF.mp htext⟩
    · intro h
      obtain ⟨hvalue, hdecimals⟩ := h hT
      rw [hkept.mpr hvalue]
      exact ⟨rfl, denotes_formatF.mpr hdecimals⟩

theorem reverseBytes_eq_zero {n x : ℕ} (h : x < 256 ^ n) (hzero : reverseBytes n 0 = 0) :
    reverseBytes n x = 0 ↔ x = 0 := by
  constructor
  · intro hx
    have htwice := reverseBytes_reverseBytes h
    rw [hx, hzero] at htwice
    exact htwice.symm
  · rintro rfl
    exact hzero

/-- The milliseconds are none at the epoch only. -/
theorem scalarTime_eq_zero {millis : ℕ} (h : millis < 256 ^ 8) :
    scalarTime host e millis = .fin 0 ↔ millis = 0 := by
  have hturned : turned (readReverses host e .LINT) 8 millis = 0 ↔ millis = 0 := by
    unfold turned
    split_ifs
    · exact reverseBytes_eq_zero h (by decide)
    · exact Iff.rfl
  have hlt := WriteRead.turned_lt (readReverses host e .LINT) h
  rw [← hturned]
  show round binary64 ((wrap 8 (turned (readReverses host e .LINT) 8 millis) : ℤ) : ℚ) = _ ↔ _
  rw [round_intCast_eq_zero]
  unfold wrap
  split_ifs <;> omega

/-- The number of a time is lost, its text is not. -/
theorem represents_time (T : TimeType) (is : Bool) (millis : Fin (256 ^ 8)) :
    Represents host lib enc e (.time T is millis) (dateTime enc e millis) ↔ millis = 0 := by
  have htext : (dateTime enc e millis).valStr = formatWhole (scalarTime host e millis) := by
    have hbits := @WriteRead.readBits_eq host e .LINT millis rfl 8
    unfold dateTime scalarTime scalar
    rw [hbits]
    rfl
  have hnumber : (dateTime enc e millis).valDbl = .fin 0 := rfl
  show _ ∧ Denotes (dateTime enc e millis).valStr _ ↔ _
  rw [htext, hnumber, eq_comm (a := Number.fin 0), scalarTime_eq_zero millis.isLt, Fin.ext_iff]
  exact and_iff_left (denotes_integer (T := .LINT) rfl)

/-- No text comes back. -/
theorem represents_text (T : TextType) (is : Bool) (s : String) :
    Represents host lib enc e (.text T is s) (text enc T is s) ↔ s = "" := by
  have hempty : (text enc T is s).valStr = "" := by
    cases T with
    | WSTRING => cases is <;> rfl
    | _ => rfl
  show (text enc T is s).valStr = s ↔ _
  rw [hempty]
  exact eq_comm

theorem bad_text (T : TextType) (is : Bool) (s : String) :
    (text enc T is s).bad = false ↔ (T = .WSTRING → is = true) := by
  cases T <;> cases is <;> simp [text, failed]

end Scalars

section Main

theorem faithful_of_bad {v : PlcValue} (h : (extractValue host lib enc e v).bad = true) :
    Faithful host lib enc e v :=
  ⟨.inl h, fun _ _ _ _ => h⟩

/-- A good value other than a list has to be represented. -/
theorem faithful_of_good {v : PlcValue} (hgood : (extractValue host lib enc e v).bad = false)
    (hlist : ∀ is elements, v ≠ .list is elements) :
    Faithful host lib enc e v ↔
      Represents host lib enc e v (extractValue host lib enc e v) := by
  constructor
  · rintro ⟨hbad | hrep, -⟩
    · rw [hgood] at hbad
      cases hbad
    · exact hrep
  · intro hrep
    exact ⟨.inr hrep, fun is elements heq => absurd heq (hlist is elements)⟩

theorem faithful_list (elements : List PlcValue) :
    Faithful host lib enc e (.list true elements) ↔ anyUnreadable elements = false := by
  have hbad : (extractValue host lib enc e (.list true elements)).bad = false := bad_list _ _
  have harray : (extractValue host lib enc e (.list true elements)).valArrDbl =
      elements.map fun v => (extractValue host lib enc e v).valDbl := by
    rw [extractValue, if_pos rfl, ← elementValues_eq]
    rfl
  have hany : (∃ x ∈ elements, Bad host lib enc e x) ↔ anyUnreadable elements = true := by
    rw [anyUnreadable_iff]
    simp only [bad_iff]
  constructor
  · rintro ⟨-, hreport⟩
    by_contra hsome
    have htrue := hreport true elements rfl (hany.mpr (Bool.not_eq_false _ ▸ hsome))
    rw [hbad] at htrue
    cases htrue
  · intro hnone
    refine ⟨.inr harray, fun is vs heq hexists => ?_⟩
    cases heq
    rw [hany.mp hexists] at hnone
    cases hnone

/-- A value is read as what it is exactly where its branch loses nothing. -/
theorem faithful_iff_extractable (v : PlcValue) :
    Faithful host lib enc e v ↔ Extractable host lib e v := by
  have hfailed : ∀ w : PlcValue, extractValue host lib enc e w = failed →
      Faithful host lib enc e w := by
    intro w hw
    exact faithful_of_bad (by rw [hw]; rfl)
  cases v with
  | unlisted name => exact iff_of_true (hfailed _ (by rw [extractValue])) trivial
  | null T => exact iff_of_true (faithful_of_bad (by rw [extractValue])) trivial
  | bool is b =>
    refine iff_of_true ?_ trivial
    cases is with
    | false => exact hfailed _ (by rw [extractValue]; rfl)
    | true =>
      rw [faithful_of_good (by rw [extractValue]; rfl) (fun _ _ h => by cases h), extractValue,
        if_pos rfl]
      exact ⟨rfl, rfl⟩
  | struct is s =>
    refine iff_of_true ?_ trivial
    cases is with
    | false => exact hfailed _ (by rw [extractValue]; rfl)
    | true =>
      rw [faithful_of_good (by rw [extractValue]; rfl) (fun _ _ h => by cases h)]
      trivial
  | numeric T is bits =>
    cases is with
    | false => exact iff_of_true (hfailed _ (by rw [extractValue]; rfl)) fun h => by cases h
    | true =>
      rw [faithful_of_good (by rw [extractValue]; rfl) (fun _ _ h => by cases h), extractValue,
        if_pos rfl, represents_numeric]
      exact ⟨fun h _ => h, fun h => h rfl⟩
  | time T is millis =>
    cases is with
    | false => exact iff_of_true (hfailed _ (by rw [extractValue]; rfl)) fun h => by cases h
    | true =>
      rw [faithful_of_good (by rw [extractValue]; rfl) (fun _ _ h => by cases h), extractValue,
        if_pos rfl, represents_time]
      exact ⟨fun h _ => h, fun h => h rfl⟩
  | text T is s =>
    have heq : extractValue host lib enc e (.text T is s) = text enc T is s := by
      rw [extractValue]
    cases hbad : (text enc T is s).bad with
    | true =>
      refine iff_of_true (faithful_of_bad (by rw [heq, hbad])) fun h => ?_
      rw [(bad_text T is s).mpr h] at hbad
      cases hbad
    | false =>
      rw [faithful_of_good (by rw [heq, hbad]) (fun _ _ h => by cases h), heq, represents_text]
      have hreads := (bad_text T is s).mp hbad
      exact ⟨fun h _ => h, fun h => h hreads⟩
  | list is elements =>
    cases is with
    | false => exact iff_of_true (hfailed _ (by rw [extractValue]; rfl)) fun h => by cases h
    | true => exact (faithful_list elements).trans ⟨fun h _ => h, fun h => h rfl⟩
  | raw is bytes =>
    cases is with
    | false => exact iff_of_true (hfailed _ (by rw [extractValue]; rfl)) fun h => by cases h
    | true =>
      rw [faithful_of_good (by rw [extractValue]; rfl) (fun _ _ h => by cases h), extractValue,
        if_pos rfl]
      exact (rawArray_complete_iff bytes).trans ⟨fun h _ => h, fun h => h rfl⟩

/-- Texts of whole numbers, and numbers where a text has one. -/
def compact : Encoding where
  marshal
    | .bool b => some (if b then "true" else "false")
    | .number x => some (formatWhole x)
    | .text s => some s.quote
    | .numbers xs => some ("[" ++ ",".intercalate (xs.map formatWhole) ++ "]")
    | _ => none
  parseFloat s := match EcmaScript.parseFloat s.toList with
    | .nan => .fin 0
    | x => x

/-- A text, a time, two bytes and a list with a missing value are good and not what they are. -/
theorem text_time_bytes_list_lost :
    ¬ Faithful (WriteRead.hostOf .little) WriteRead.strict compact "" (.text .STRING true "A") ∧
      ¬ Faithful (WriteRead.hostOf .little) WriteRead.strict compact ""
        (.text .WSTRING true "A") ∧
      ¬ Faithful (WriteRead.hostOf .little) WriteRead.strict compact "" (.time .TIME true 1) ∧
      ¬ Faithful (WriteRead.hostOf .little) WriteRead.strict compact "" (.raw true [1, 2]) ∧
      ¬ Faithful (WriteRead.hostOf .little) WriteRead.strict compact ""
        (.list true [.null .NULL]) := by
  refine ⟨?_, ?_, ?_, ?_, ?_⟩
  · rw [faithful_of_good (by rw [extractValue]; rfl) (fun _ _ h => by cases h), extractValue,
      represents_text]
    decide
  · rw [faithful_of_good (by rw [extractValue]; rfl) (fun _ _ h => by cases h), extractValue,
      represents_text]
    decide
  · rw [faithful_of_good (by rw [extractValue]; rfl) (fun _ _ h => by cases h), extractValue,
      if_pos rfl, represents_time]
    decide
  · rw [faithful_of_good (by rw [extractValue]; rfl) (fun _ _ h => by cases h), extractValue,
      if_pos rfl]
    exact fun h => absurd ((rawArray_complete_iff [1, 2]).mp h) (by decide)
  · rw [faithful_list, anyUnreadable, unreadable]
    decide

end Main

end JsonScada.System.ValueExtraction
