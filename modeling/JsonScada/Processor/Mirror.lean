/- path: JsonScada/Processor/Mirror
   source: src/cs_data_processor/cs_data_processor.js, pipeline and sqlRtDataQueue
   digest: What the change stream lets through, and the rows queued for the SQL mirror. -/

import JsonScada.Processor.Change

set_option autoImplicit false
set_option relaxedAutoImplicit false

namespace JsonScada.Processor.Mirror

open JsonScada.Lib.Binary64 JsonScada.Lib.EcmaScript JsonScada.Model.Documents
open JsonScada.Processor.Convert JsonScada.Processor.Historian JsonScada.Processor.Change

/-- A write of realtimeData as the change stream tells it. An update carries the document
looked up for it, and what it set in `sourceDataUpdate`. -/
inductive Notification where
  | insert (fullDocument : Point)
  | update (fullDocument : Point) (sourceDataUpdate : Option SourceDataUpdate)
  deriving DecidableEq

/-- The `$match` of the stream: updates of the sourceDataUpdate, and of those the part
that this instance processes. -/
def pipeline (DivideProcessingExpression : Point → Bool) : Notification → Bool
  | .insert _ => false
  | .update fullDocument sourceDataUpdate =>
    sourceDataUpdate.isSome && DivideProcessingExpression fullDocument

/-- An entry of sqlRtDataQueue. -/
structure RtRow where
  tag : List Char
  time_tag : Date
  json_data : Point
  deriving DecidableEq

/-- The text logged for an inserted document. It reads `value`, which has none before its
declaration further down is reached. -/
def insertText (fullDocument : Point) (value : Option Number) : Option (List Char) :=
  value.map fun value =>
    "INSERT ".toList ++ numToString fullDocument._id ++ [' '] ++ fullDocument.tag.toList ++ [' '] ++
      numToString value

def insertRow (clock : Clock) (fullDocument : Point) : RtRow :=
  ⟨fullDocument.tag.toList, clock.now, fullDocument⟩

/-- fullDocument with the new data, just to stringify it. -/
def edited (clock : Clock) (fullDocument : Point) (r : Reading) : Point :=
  { fullDocument with
    value := r.conv.value
    valueString := r.conv.valueString
    valueJson := .val r.valueJson
    timeTag := .val clock.now
    overflow := r.conv.overflow
    invalid := r.conv.invalid
    transient := r.conv.transient
    updatesCnt := .val (fullDocument.updatesCnt.toNumber.add (.fin 1))
    alarmed := r.alarmed }

def updateRow (clock : Clock) (fullDocument : Point) (r : Reading) : RtRow :=
  ⟨HistEntry.quoted fullDocument.tag.toList, clock.now, edited clock fullDocument r⟩

/-- What one call of the handler does, with the rows it queues for the mirror. -/
structure Handled where
  outcome : Outcome
  sqlRtDataQueue : List RtRow := []
  deriving DecidableEq

def handle (clock : Clock) (active : Bool) (count : ℕ) : Notification → Handled
  | .insert fullDocument =>
    { outcome := { digitalUpdatesCount := count }
      -- nothing is queued when the text of the log line throws
      sqlRtDataQueue := ((insertText fullDocument none).map fun _ =>
        insertRow clock fullDocument).toList }
  | .update fullDocument (some sourceDataUpdate) =>
    let r := readUpdate clock fullDocument sourceDataUpdate
    if active then
      { outcome := change clock count fullDocument sourceDataUpdate
        sqlRtDataQueue := if accepted fullDocument sourceDataUpdate r then
          [updateRow clock fullDocument r] else [] }
    -- when inactive, ignore changes
    else { outcome := { digitalUpdatesCount := count } }
  | .update _ none => { outcome := { digitalUpdatesCount := count } }

/-- The handler is called for what the pipeline lets through. -/
def onChange (DivideProcessingExpression : Point → Bool) (clock : Clock) (active : Bool)
    (count : ℕ) (n : Notification) : Handled :=
  if pipeline DivideProcessingExpression n then handle clock active count n
  else { outcome := { digitalUpdatesCount := count } }

/-- No document inserted gives a row: the pipeline keeps it from the handler, and the
handler would throw before it queues one. -/
theorem insert_queues_nothing (DivideProcessingExpression : Point → Bool) (clock : Clock)
    (active : Bool) (count : ℕ) (doc : Point) :
    (onChange DivideProcessingExpression clock active count (.insert doc)).sqlRtDataQueue = [] ∧
      (handle clock active count (.insert doc)).sqlRtDataQueue = [] := ⟨rfl, rfl⟩

end JsonScada.Processor.Mirror
