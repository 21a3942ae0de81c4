/- path: JsonScada/Model/Documents
   source: docs/schema.md, src/server_realtime_auth/app/models
   digest: Documents of the realtimeData and soeData collections. -/

import JsonScada.Lib.EcmaScript

set_option autoImplicit false
set_option relaxedAutoImplicit false

namespace JsonScada.Model.Documents

open JsonScada.Lib.Binary64 JsonScada.Lib.EcmaScript

/-- Instants in milliseconds from the epoch. -/
abbrev Date := ℤ

/-- A document field that can be missing, null, or hold a value. -/
inductive DocField (α : Type) where
  | absent
  | null
  | val (a : α)
  deriving DecidableEq

namespace DocField

/-- `'name' in document && document.name !== null`. -/
def given {α : Type} : DocField α → Option α
  | val a => some a
  | _ => none

/-- The number an arithmetic operator reads. -/
def toNumber : DocField Number → Number
  | absent => .nan
  | null => .fin 0
  | val x => x

def truthy : DocField Number → Bool
  | val x => x ≠ .nan && x ≠ .fin 0
  | _ => false

/-- `field != x` for a number `x`. -/
def looseNe (f : DocField Number) (x : Number) : Bool :=
  match f with
  | val y => !y.eqv x
  | _ => true

theorem looseNe_eq_false {f : DocField Number} {x : Number} :
    f.looseNe x = false ↔ f = val x ∧ x ≠ .nan := by
  cases f with
  | absent => simp [looseNe]
  | null => simp [looseNe]
  | val y =>
    simp only [looseNe, Bool.not_eq_false', Number.eqv_iff, val.injEq]
    constructor
    · rintro ⟨hy, rfl⟩
      exact ⟨rfl, hy⟩
    · rintro ⟨rfl, hy⟩
      exact ⟨hy, rfl⟩

theorem looseNe_of_ne_nan {f : DocField Number} {x : Number} (hx : x ≠ .nan) :
    f.looseNe x = !decide (f = val x) := by
  rw [Bool.eq_iff_iff, ← not_iff_not, Bool.not_eq_true, looseNe_eq_false]
  simp [hx]

/-- The field as a JavaScript value. -/
def toJs : DocField Number → JsVal
  | absent => .undefined
  | null => .null
  | val x => .num x

end DocField

inductive PointType where
  | digital
  | analog
  | string
  | json
  deriving DecidableEq

inductive Origin where
  | supervised
  | calculated
  | manual
  | command
  | system
  deriving DecidableEq

/-- What a protocol driver or the calculation process writes for a point. -/
structure SourceDataUpdate where
  valueAtSource : DocField Number
  valueStringAtSource : Option String := none
  valueJsonAtSource : Option String := none
  asduAtSource : Option String := none
  causeOfTransmissionAtSource : Option String := none
  timeTag : Date
  timeTagAtSource : Option Date := none
  timeTagAtSourceOk : Option Bool := none
  invalidAtSource : Option Bool := none
  notTopicalAtSource : Option Bool := none
  overflowAtSource : Option Bool := none
  transientAtSource : Option Bool := none
  carryAtSource : Option Bool := none
  substitutedAtSource : Option Bool := none
  blockedAtSource : Option Bool := none
  rangeCheck : Option Date := none
  isHistorical : Bool := false
  isNotForHistorical : Bool := false
  deriving DecidableEq

/-- The `sourceDataUpdate` field. The realtime server can leave an object that
holds `rangeCheck` alone in a point no driver has written yet. -/
inductive SourceField where
  | none
  | bare (rangeCheck : Date)
  | data (u : SourceDataUpdate)
  deriving DecidableEq

/-- A document of the realtimeData collection. Fields the API lets a client write
without a type check are kept as JavaScript values. -/
structure Point where
  _id : Number
  tag : String
  type : PointType
  origin : Origin := .supervised
  group1 : String := ""
  group2 : String := ""
  description : String := ""
  ungroupedDescription : String := ""
  priority : Number := .fin 0
  isEvent : Option Bool := some false
  unit : String := ""
  stateTextTrue : String := ""
  stateTextFalse : String := ""
  eventTextTrue : String := ""
  eventTextFalse : String := ""
  kconv1 : Number := .fin 1
  kconv2 : Number := .fin 0
  zeroDeadband : DocField Number := .absent
  hiLimit : DocField Number := .null
  loLimit : DocField Number := .null
  hysteresis : DocField Number := .val (.fin 0)
  alarmDisabled : JsVal := .bool false
  alarmState : Number := .fin (-1)
  alarmed : Bool := false
  alarmRange : DocField Number := .val (.fin 0)
  annotation : JsVal := .str ""
  notes : JsVal := .str ""
  value : Number := .fin 0
  valueDefault : Number := .fin 0
  valueString : String := ""
  valueJson : DocField String := .absent
  invalid : Bool := false
  overflow : Bool := false
  transient : Bool := false
  frozen : Bool := false
  timeTag : DocField Date := .val 0
  timeTagAlarm : Option Date := none
  timeTagAtSource : Option Date := none
  timeTagAtSourceOk : Option Bool := none
  updatesCnt : DocField Number := .val (.fin 0)
  historianPeriod : DocField Number := .absent
  historianDeadBand : DocField Number := .absent
  historianLastValue : DocField Number := .absent
  commandOfSupervised : Number := .fin 0
  supervisedOfCommand : Number := .fin 0
  protocolSourceConnectionNumber : Number := .fin 0
  protocolSourceCommonAddress : JsVal := .num (.fin 0)
  protocolSourceObjectAddress : JsVal := .num (.fin 0)
  protocolSourceASDU : JsVal := .num (.fin 0)
  protocolSourceCommandDuration : DocField Number := .null
  protocolSourceCommandUseSBO : JsVal := .null
  beepType : DocField Number := .absent
  beepGroup1List : Option (List String) := none
  sourceDataUpdate : SourceField := .none
  deriving DecidableEq

/-- What the processes insert in the soeData collection. -/
structure SoeEvent where
  tag : String
  pointKey : Number
  group1 : String
  description : String
  eventText : String
  invalid : Bool
  priority : Number
  timeTag : Date
  timeTagAtSource : Option Date
  timeTagAtSourceOk : Option Bool
  ack : ℕ
  deriving DecidableEq

def beepPointKey : Number := .fin (-1)

def cntUpdatesPointKey : Number := .fin (-2)

/-- A point that is neither of the two system points the processor writes itself. -/
def Point.Ordinary (p : Point) : Prop := p._id ≠ beepPointKey ∧ p._id ≠ cntUpdatesPointKey

/-- A digital tag of protection type events: its change to zero is not stored. -/
def Point.isDigitalEvent (p : Point) : Bool := p.type = .digital && p.isEvent = some true

instance (p : Point) : Decidable p.Ordinary := by unfold Point.Ordinary; infer_instance

end JsonScada.Model.Documents
