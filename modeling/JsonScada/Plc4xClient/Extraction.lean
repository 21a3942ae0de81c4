/- path: JsonScada/Plc4xClient/Extraction
   source: src/plc4x-client/plc4x-client.go, extractValue
   digest: The results read from a PLC value, which may be a tree of values. -/

import JsonScada.Lib.Numeral
import JsonScada.Plc4xClient.Values

set_option autoImplicit false
set_option relaxedAutoImplicit false

namespace JsonScada.Plc4xClient.Extraction

open JsonScada.Lib.Binary64 JsonScada.Lib.Golang JsonScada.Lib.Numeral
open JsonScada.Plc4xClient.Values (Host Plc4x PlcType float64 wrap readBits)

/-- The types without a value. -/
inductive NullType where
  | Unknown
  | NULL
  deriving DecidableEq

def NullType.name : NullType → String
  | Unknown => "Unknown"
  | NULL => "NULL"

/-- The types of dates, times and durations. -/
inductive TimeType where
  | TIME
  | LTIME
  | DATE
  | LDATE
  | TIME_OF_DAY
  | LTIME_OF_DAY
  | DATE_AND_TIME
  | DATE_AND_LTIME
  | LDATE_AND_TIME
  deriving DecidableEq

/-- The types of texts. -/
inductive TextType where
  | CHAR
  | WCHAR
  | STRING
  | WSTRING
  deriving DecidableEq

/-- A value of the library by its type, with what its methods answer: `is` is the answer to the
question asked before the value is taken. -/
inductive PlcValue where
  | unlisted (name : String)
  | null (T : NullType)
  | bool (is : Bool) (b : Bool)
  | numeric (T : PlcType) (is : Bool) (bits : Fin (256 ^ T.size))
  /-- The bits of `GetDateTime().UnixMilli()`, 64 with a sign. -/
  | time (T : TimeType) (is : Bool) (millis : Fin (256 ^ 8))
  | text (T : TextType) (is : Bool) (s : String)
  /-- A structure by its text in the format `%v`. -/
  | struct (is : Bool) (s : String)
  | list (is : Bool) (elements : List PlcValue)
  | raw (is : Bool) (bytes : List UInt8)

/-- What `json.Marshal` is called with. -/
inductive Document where
  | plc (v : PlcValue)
  | bool (b : Bool)
  | number (x : Number)
  | dateTime (millis : ℤ)
  | text (s : String)
  | numbers (xs : List Number)

/-- `json.Marshal`, which may fail, and the number of `strconv.ParseFloat`. -/
structure Encoding where
  marshal : Document → Option String
  parseFloat : String → Number

/-- The named results, with what they begin with. -/
structure Extracted where
  valDbl : Number := .fin 0
  valStr : String := ""
  valJson : String := "\x7b\x7d"
  valArrDbl : List Number := []
  bad : Bool := false

/-- Nothing but the flag. -/
def failed : Extracted := { bad := true }

section Cases

variable (host : Host) (lib : Plc4x) (enc : Encoding) (e : String)

/-- `valJson`, which stays an empty document where the encoding fails. -/
def json (d : Document) : String := (enc.marshal d).getD "\x7b\x7d"

/-- A number with its text: all digits of an integer, six decimals of a float. -/
def numeric (T : PlcType) (bits : ℕ) : Extracted :=
  let x := Values.extractValue host lib e T bits
  { valDbl := x
    valStr := if T.format = none then formatWhole x else formatF x
    valJson := json enc (.number x) }

/-- The number is assigned to a variable of the branch. -/
def dateTime (millis : ℕ) : Extracted :=
  { valStr := formatWhole (float64 (wrap 8 (readBits e 8 millis)))
    valJson := json enc (.dateTime (wrap 8 millis)) }

/-- Three of the types have a branch of their own, which is empty; in the fourth the text is
assigned to a variable of the branch. -/
def text (T : TextType) (is : Bool) (s : String) : Extracted :=
  match T with
  | .CHAR | .WCHAR | .STRING => {}
  | .WSTRING =>
    if is then { valDbl := enc.parseFloat s, valJson := json enc (.text s) } else failed

/-- The results for an array: the first number and the text of all. -/
def array (first : Option Number) (valArrDbl : List Number) : Extracted :=
  let marshalled := enc.marshal (.numbers valArrDbl)
  { valDbl := first.getD (.fin 0)
    valStr := marshalled.getD ""
    valJson := marshalled.getD "\x7b\x7d"
    valArrDbl := valArrDbl }

/-- Each turn of the loop appends to the empty array. -/
def rawArray (bytes : List UInt8) : List Number :=
  let vdArr : List Number := []
  bytes.foldl (fun _ b => vdArr ++ [float64 b.toNat]) []

mutual

def extractValue : PlcValue → Extracted
  | .unlisted _ => failed
  | .null T => { valStr := T.name, valJson := json enc (.plc (.null T)), bad := true }
  | .bool is b =>
    if is then
      { valDbl := if b then .fin 1 else .fin 0
        valStr := if b then "true" else "false"
        valJson := json enc (.bool b) }
    else failed
  | .numeric T is bits => if is then numeric host lib enc e T bits else failed
  | .time _ is millis => if is then dateTime enc e millis else failed
  | .text T is s => text enc T is s
  | .struct is s =>
    if is then { valStr := s, valJson := json enc (.plc (.struct is s)) } else failed
  | .list is elements =>
    if is then
      let valArrDbl := elementValues elements
      array enc valArrDbl.head? valArrDbl
    else failed
  | .raw is bytes =>
    if is then array enc (bytes.head?.map fun b => float64 b.toNat) (rawArray bytes) else failed

/-- The numbers of the elements of a list; their other results are dropped. -/
def elementValues : List PlcValue → List Number
  | [] => []
  | v :: vs => (extractValue v).valDbl :: elementValues vs

end

end Cases

variable {host : Host} {lib : Plc4x} {enc : Encoding} {e : String}

theorem elementValues_eq (vs : List PlcValue) :
    elementValues host lib enc e vs = vs.map fun v => (extractValue host lib enc e v).valDbl := by
  induction vs with
  | nil => rw [elementValues, List.map_nil]
  | cons v vs ih => rw [elementValues, ih, List.map_cons]

/-- Of the bytes of a raw array the last is left. -/
theorem rawArray_eq (bytes : List UInt8) :
    rawArray bytes = (bytes.getLast?.map fun b => float64 b.toNat).toList := by
  induction bytes using List.reverseRecOn with
  | nil => rfl
  | append_singleton bytes b _ =>
    rw [rawArray, List.foldl_append, List.getLast?_concat]
    rfl

/-- All bytes of a raw array are left where there is one at most. -/
theorem rawArray_complete_iff (bytes : List UInt8) :
    rawArray bytes = bytes.map (fun b => float64 b.toNat) ↔ bytes.length ≤ 1 := by
  rw [rawArray_eq]
  constructor
  · intro h
    have hlength := congrArg List.length h
    rw [List.length_map] at hlength
    cases hlast : bytes.getLast? with
    | none =>
      rw [List.getLast?_eq_none_iff.mp hlast]
      exact Nat.zero_le 1
    | some b =>
      rw [hlast] at hlength
      exact hlength.symm.le
  · intro h
    rcases bytes with _ | ⟨b, _ | ⟨c, bytes⟩⟩
    · rfl
    · rfl
    · simp at h

end JsonScada.Plc4xClient.Extraction
