/- path: JsonScada/Dnp3Client/Acquisition
   source: src/dnp3/Dnp3ClientCpp/soe_handler.cpp, mongo.cpp (processMongo)
   digest: From a measurement of the DNP3 stack to the update of its point. -/

import JsonScada.Dnp3Client.AutoCreate

set_option autoImplicit false
set_option relaxedAutoImplicit false

namespace JsonScada.Dnp3Client.Acquisition

open JsonScada.Lib.Binary64 JsonScada.Model.Documents JsonScada.Dnp3Client.AutoCreate

inductive TimestampQuality where
  | INVALID
  | SYNCHRONIZED
  | UNSYNCHRONIZED
  deriving DecidableEq

/-- A time in milliseconds from the epoch; zero stands for none. -/
structure DNPTime where
  value : BitVec 64
  quality : TimestampQuality
  deriving DecidableEq

/-- The quality bits of a measurement; a type leaves those it does not have false. -/
structure Flags where
  ONLINE : Bool := true
  COMM_LOST : Bool := false
  REMOTE_FORCED : Bool := false
  LOCAL_FORCED : Bool := false
  OVERRANGE : Bool := false
  ROLLOVER : Bool := false
  REFERENCE_ERR : Bool := false
  deriving DecidableEq

inductive DoubleBit where
  | INTERMEDIATE
  | DETERMINED_OFF
  | DETERMINED_ON
  | INDETERMINATE
  deriving DecidableEq

def DoubleBit.code : DoubleBit → ℕ
  | .INTERMEDIATE => 0
  | .DETERMINED_OFF => 1
  | .DETERMINED_ON => 2
  | .INDETERMINATE => 3

inductive Content where
  | Binary (value : Bool)
  | DoubleBitBinary (value : DoubleBit)
  | Analog (value : Number)
  | Counter (value : BitVec 32)
  | FrozenCounter (value : BitVec 32)
  | BinaryOutputStatus (value : Bool)
  | AnalogOutputStatus (value : Number)
  deriving DecidableEq

/-- What the stack delivers for one index. -/
structure Indexed where
  index : BitVec 16
  value : Content
  flags : Flags := {}
  time : DNPTime
  deriving DecidableEq

/-- The handler of a connection: its number, the clock and `std::to_string` of a double. -/
structure SOEHandler where
  protocolConnectionNumber : ℤ
  nowMs : ℤ
  to_string : Number → String

namespace SOEHandler

def pushValue (h : SOEHandler) (baseGroup : ℤ) (item : Indexed) (value : Number)
    (valueString : String) (overrange rollover referenceError transient : Bool) : Dnp3Value :=
  { address := item.index.toNat
    baseGroup := baseGroup
    group := baseGroup
    variation := 0
    value := value
    valueString := valueString
    cot := 20
    serverTimestamp := h.nowMs
    hasSourceTimestamp := item.time.value ≠ 0
    sourceTimestamp := item.time.value.toInt
    timeTagOk := item.time.quality = .SYNCHRONIZED
    qOnline := item.flags.ONLINE
    qCommLost := item.flags.COMM_LOST
    qRemoteForced := item.flags.REMOTE_FORCED
    qLocalForced := item.flags.LOCAL_FORCED
    qOverrange := overrange
    qRollover := rollover
    qReferenceError := referenceError
    qTransient := transient
    connNumber := h.protocolConnectionNumber }

def bit (b : Bool) : Number := if b then .fin 1 else .fin 0

def processBinary (h : SOEHandler) (item : Indexed) (value : Bool) : Dnp3Value :=
  h.pushValue 1 item (bit value) (if value then "true" else "false") false false false false

def processDoubleBinary (h : SOEHandler) (item : Indexed) (value : DoubleBit) : Dnp3Value :=
  let transient := value = .INTERMEDIATE ∨ value = .INDETERMINATE
  let val := bit (value = .DETERMINED_ON ∨ value = .INDETERMINATE)
  h.pushValue 3 item val (toString value.code) false false false transient

def processAnalog (h : SOEHandler) (item : Indexed) (value : Number) : Dnp3Value :=
  h.pushValue 30 item value (h.to_string value) item.flags.OVERRANGE false
    item.flags.REFERENCE_ERR false

def processCounter (h : SOEHandler) (item : Indexed) (value : BitVec 32) (baseGroup : ℤ) :
    Dnp3Value :=
  h.pushValue baseGroup item (.fin value.toNat) (toString value.toNat) false item.flags.ROLLOVER
    false false

def processFrozenCounter (h : SOEHandler) (item : Indexed) (value : BitVec 32) : Dnp3Value :=
  h.pushValue 23 item (.fin value.toNat) (toString value.toNat) false item.flags.ROLLOVER
    false false

def processBinaryOutput (h : SOEHandler) (item : Indexed) (value : Bool) : Dnp3Value :=
  h.pushValue 10 item (bit value) (if value then "true" else "false") false false false false

def processAnalogOutputStatus (h : SOEHandler) (item : Indexed) (value : Number) : Dnp3Value :=
  h.pushValue 40 item value (h.to_string value) item.flags.OVERRANGE false
    item.flags.REFERENCE_ERR false

/-- The value enqueued for a measurement. -/
def Process (h : SOEHandler) (item : Indexed) : Dnp3Value :=
  match item.value with
  | .Binary value => h.processBinary item value
  | .DoubleBitBinary value => h.processDoubleBinary item value
  | .Analog value => h.processAnalog item value
  | .Counter value => h.processCounter item value 20
  | .FrozenCounter value => h.processFrozenCounter item value
  | .BinaryOutputStatus value => h.processBinaryOutput item value
  | .AnalogOutputStatus value => h.processAnalogOutputStatus item value

/-- Every measurement is pushed with its own time. -/
theorem process_time (h : SOEHandler) (item : Indexed) :
    (h.Process item).hasSourceTimestamp = decide (item.time.value ≠ 0) ∧
      (h.Process item).sourceTimestamp = item.time.value.toInt := by
  unfold Process
  cases item.value <;> exact ⟨rfl, rfl⟩

end SOEHandler

/-- Times from 2001 to 2033. -/
def safe (t : ℤ) : Bool := 1000000000000 ≤ t && t ≤ 2000000000000

def safeServerTime (iv : Dnp3Value) : ℤ := if safe iv.serverTimestamp then iv.serverTimestamp else 0

def safeSourceTime (iv : Dnp3Value) : ℤ :=
  let t := if iv.hasSourceTimestamp then iv.sourceTimestamp else 0
  if safe t then t else 0

/-- What `processMongo` sets in the document of the point. -/
def sourceDataUpdate (iv : Dnp3Value) : SourceDataUpdate :=
  { valueAtSource := .val iv.value
    valueStringAtSource := some iv.valueString
    asduAtSource := some (toString iv.group ++ " " ++ toString iv.variation)
    causeOfTransmissionAtSource := some (toString iv.cot)
    timeTagAtSource := some (safeSourceTime iv)
    timeTagAtSourceOk := some iv.timeTagOk
    timeTag := safeServerTime iv
    notTopicalAtSource := some iv.qCommLost
    invalidAtSource := some (iv.qCommLost || iv.qReferenceError || !iv.qOnline)
    overflowAtSource := some iv.qOverrange
    blockedAtSource := some !iv.qOnline
    substitutedAtSource := some (iv.qRemoteForced || iv.qLocalForced)
    carryAtSource := some iv.qRollover
    transientAtSource := some iv.qTransient }

theorem safeSourceTime_of_none {iv : Dnp3Value} (h : iv.hasSourceTimestamp = false) :
    safeSourceTime iv = 0 := by
  unfold safeSourceTime
  rw [h]
  rfl

theorem safeSourceTime_of_safe {iv : Dnp3Value} (h : iv.hasSourceTimestamp = true)
    (hsafe : safe iv.sourceTimestamp = true) : safeSourceTime iv = iv.sourceTimestamp := by
  unfold safeSourceTime
  simp only [h, if_true, hsafe]

end JsonScada.Dnp3Client.Acquisition
