/- path: JsonScada/Processor/Convert
   source: src/cs_data_processor/cs_data_processor.js, change handler, quality bits and conversion
   digest: Quality bits, double points, inversion, conversion factors, zero dead band. -/

import JsonScada.Model.Documents

set_option autoImplicit false
set_option relaxedAutoImplicit false

namespace JsonScada.Processor.Convert

open JsonScada.Lib.Binary64 JsonScada.Lib.EcmaScript JsonScada.Model.Documents

structure Quality where
  invalid : Bool
  transient : Bool
  overflow : Bool
  nottopical : Bool
  carry : Bool
  substituted : Bool
  blocked : Bool
  deriving DecidableEq

/-- Quality bits set by the protocol driver. -/
def quality (sdu : SourceDataUpdate) : Quality :=
  let bit (b : Option Bool) : Bool := b.getD false
  { invalid := bit sdu.invalidAtSource || bit sdu.notTopicalAtSource ||
      bit sdu.overflowAtSource || bit sdu.transientAtSource
    transient := bit sdu.transientAtSource
    overflow := bit sdu.overflowAtSource
    nottopical := bit sdu.notTopicalAtSource
    carry := bit sdu.carryAtSource
    substituted := bit sdu.substitutedAtSource
    blocked := bit sdu.blockedAtSource }

/-- Undefined, null and NaN values become zero and mark the update invalid. -/
def guardValue (sdu : SourceDataUpdate) (q : Quality) : Number × Quality :=
  match sdu.valueAtSource with
  | .val x => if x.isNaN then (.fin 0, { q with invalid := true }) else (x, q)
  | _ => (.fin 0, { q with invalid := true })

/-- Qualifier to be shown in valueString. -/
def txtQualif (q : Quality) : String :=
  (if q.invalid then "[IV]" else "") ++ (if q.transient then "[TR]" else "") ++
    (if q.overflow then "[OV]" else "") ++ (if q.nottopical then "[NT]" else "") ++
    (if q.carry then "[CR]" else "") ++ (if q.substituted then "[SB]" else "") ++
    (if q.blocked then "[BK]" else "")

/-- The ASDU name of the update begins with `pre`. -/
def asduBegins (sdu : SourceDataUpdate) (pre : String) : Bool :=
  match sdu.asduAtSource with
  | some a => pre.toList.isPrefixOf a.toList
  | none => false

/-- The lowest bit of a value, `value & 0x01`. -/
def lowBit (x : Number) : Bool := toUint32 x % 2 = 1

/-- What the handler makes of one update before the limits are checked. -/
structure Conversion where
  value : Number
  invalid : Bool
  transient : Bool
  overflow : Bool
  valueString : String
  deriving DecidableEq

def truthyNum (x : Number) : Bool := x ≠ .nan && x ≠ .fin 0

def boolNum (b : Bool) : Number := if b then .fin 1 else .fin 0

/-- Double point status and inversion (kconv1 = -1). -/
def convertDigital (doc : Point) (sdu : SourceDataUpdate) : Conversion :=
  let g := guardValue sdu (quality sdu)
  let double := asduBegins sdu "M_DP_"
  let unstable := double && (g.1.eqv (.fin 0) || g.1.eqv (.fin 3))
  let q := if unstable then { g.2 with transient := true, invalid := true } else g.2
  let txt := txtQualif g.2
  let txt :=
    if unstable then
      let txt := if g.2.invalid then txt else txt ++ "[IV]"
      " " ++ (if g.2.transient then txt else txt ++ "[TR]")
    else txt
  let value := if double then boolNum (!lowBit g.1) else g.1
  let value := if doc.kconv1.eqv (.fin (-1)) then boolNum (value.eqv (.fin 0)) else value
  { value := value
    invalid := q.invalid
    transient := q.transient
    overflow := q.overflow
    valueString := (if truthyNum value then doc.stateTextTrue else doc.stateTextFalse) ++
      (if doc.unit ≠ "" then " " ++ doc.unit else "") ++ txt }

/-- Conversion factors and zero dead band, applied to the value at source again. -/
def convertAnalog (doc : Point) (sdu : SourceDataUpdate) : Conversion :=
  let g := guardValue sdu (quality sdu)
  let txt := txtQualif g.2
  let txt := if txt ≠ "" then " " ++ txt else txt
  let value := (sdu.valueAtSource.toNumber.mul doc.kconv1).add doc.kconv2
  let value := match doc.zeroDeadband with
    | .absent => value
    | .null => value
    | .val z => if !z.eqv (.fin 0) && value.abs.lt z then .fin 0 else value
  { value := value
    invalid := g.2.invalid
    transient := g.2.transient
    overflow := g.2.overflow
    valueString :=
      if asduBegins sdu "M_BO_" then
        String.ofList (toStringBinary value) ++ " " ++ doc.unit ++ txt
      else
        String.ofList (numToString (parseFloat (toFixed 4 value))) ++ " " ++ doc.unit ++ txt }

/-- String and JSON points keep the guarded value and the text at source. -/
def convertOther (sdu : SourceDataUpdate) : Conversion :=
  let g := guardValue sdu (quality sdu)
  { value := g.1
    invalid := g.2.invalid
    transient := g.2.transient
    overflow := g.2.overflow
    valueString := sdu.valueStringAtSource.getD "" }

def convert (doc : Point) (sdu : SourceDataUpdate) : Conversion :=
  match doc.type with
  | .digital => convertDigital doc sdu
  | .analog => convertAnalog doc sdu
  | _ => convertOther sdu

/-- Two documents with the same conversion settings. -/
structure SameSettings (a b : Point) : Prop where
  type : a.type = b.type
  kconv1 : a.kconv1 = b.kconv1
  kconv2 : a.kconv2 = b.kconv2
  zeroDeadband : a.zeroDeadband = b.zeroDeadband
  unit : a.unit = b.unit
  stateTextTrue : a.stateTextTrue = b.stateTextTrue
  stateTextFalse : a.stateTextFalse = b.stateTextFalse

theorem convert_congr {a b : Point} (h : SameSettings a b) (sdu : SourceDataUpdate) :
    convert a sdu = convert b sdu := by
  unfold convert convertDigital convertAnalog
  rw [h.type, h.kconv1, h.kconv2, h.zeroDeadband, h.unit, h.stateTextTrue, h.stateTextFalse]

end JsonScada.Processor.Convert
