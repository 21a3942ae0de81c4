/- path: JsonScada/Processor/Flush
   source: src/cs_data_processor/cs_data_processor.js, processRtDataMongoUpdates
   digest: Bulk operations made of the queued updates and their effect on a document. -/

import JsonScada.Processor.Change

set_option autoImplicit false
set_option relaxedAutoImplicit false

namespace JsonScada.Processor.Flush

open JsonScada.Lib.Binary64 JsonScada.Lib.EcmaScript JsonScada.Model.Documents
open JsonScada.Processor.Convert JsonScada.Processor.Limits JsonScada.Processor.Change

/-- One updateOne of the bulk: the `$set` of a queued entry, or its `$addToSet`. -/
inductive BulkOp where
  | setPoint (u : PointUpdate)
  | setBeep (beepType : Option Number) (timeTag : Date)
  | setCounter (value : ℕ) (timeTag : Date)
  | addToSet (beepGroup1List : String)
  deriving DecidableEq

/-- The `$addToSet` part of an entry is split from its `$set` part. -/
def bulkOps : RtUpdate → List BulkOp
  | .point u => [.setPoint u]
  | .beep beepType timeTag group1 => [.setBeep beepType timeTag, .addToSet group1]
  | .counter value timeTag => [.setCounter value timeTag]

namespace BulkOp

/-- The `_id` in the filter of the operation. -/
def _id : BulkOp → Number
  | setPoint u => u._id
  | setBeep _ _ => beepPointKey
  | setCounter _ _ => cntUpdatesPointKey
  | addToSet _ => beepPointKey

/-- The operation on the document its filter selects. -/
def update : BulkOp → Point → Point
  | setPoint u, p =>
    { p with
      value := u.value
      valueString := u.valueString
      valueJson := .val u.valueJson
      historianLastValue := match u.historianLastValue with
        | some x => .val x
        | none => p.historianLastValue
      timeTag := .val u.timeTag
      overflow := u.overflow
      invalid := u.invalid
      transient := u.transient
      frozen := false
      timeTagAtSource := u.timeTagAtSource
      timeTagAtSourceOk := u.timeTagAtSourceOk
      updatesCnt := .val u.updatesCnt
      alarmRange := .val u.alarmRange
      alarmed := u.alarmed
      timeTagAlarm := match u.timeTagAlarm with
        | some t => some t
        | none => p.timeTagAlarm }
  | setBeep beepType timeTag, p =>
    { p with
      beepType := match beepType with
        | some b => .val b
        | none => p.beepType
      value := .fin 1
      valueString := "Beep Active"
      timeTag := .val timeTag }
  | setCounter value timeTag, p =>
    { p with
      value := .fin value
      valueString := toString value ++ " Updates"
      timeTag := .val timeTag }
  | addToSet g, p =>
    { p with
      beepGroup1List := match p.beepGroup1List with
        | some gs => some (if g ∈ gs then gs else gs ++ [g])
        | none => some [g] }

/-- The effect on a document, selected or not. -/
def apply (op : BulkOp) (p : Point) : Point := if p._id = op._id then op.update p else p

@[simp] theorem update_id (op : BulkOp) (p : Point) : (op.update p)._id = p._id := by
  cases op <;> rfl

@[simp] theorem apply_id (op : BulkOp) (p : Point) : (op.apply p)._id = p._id := by
  unfold apply
  split
  · exact update_id op p
  · rfl

theorem apply_setPoint {u : PointUpdate} {p : Point} (h : u._id = p._id) :
    (setPoint u).apply p = (setPoint u).update p := if_pos h.symm

/-- An operation on one of the two system points leaves every other point. -/
theorem apply_of_ordinary {op : BulkOp} {p : Point} (hp : p.Ordinary)
    (hop : ∀ u, op ≠ setPoint u) : op.apply p = p := by
  cases op with
  | setPoint u => exact absurd rfl (hop u)
  | setBeep b t => exact if_neg hp.1
  | setCounter v t => exact if_neg hp.2
  | addToSet g => exact if_neg hp.1

theorem apply_settings (op : BulkOp) (p : Point) : SameSettings (op.apply p) p := by
  unfold apply
  split
  · cases op <;> exact ⟨rfl, rfl, rfl, rfl, rfl, rfl, rfl⟩
  · exact ⟨rfl, rfl, rfl, rfl, rfl, rfl, rfl⟩

theorem apply_limits (op : BulkOp) (p : Point) : SameLimits (op.apply p) p := by
  unfold apply
  split
  · cases op <;> exact ⟨rfl, rfl, rfl, rfl⟩
  · exact ⟨rfl, rfl, rfl, rfl⟩

@[simp] theorem apply_isEvent (op : BulkOp) (p : Point) : (op.apply p).isEvent = p.isEvent := by
  unfold apply
  split
  · cases op <;> rfl
  · rfl

end BulkOp

/-- The document after a list of operations, applied in their order. -/
def applyAll (ops : List BulkOp) (p : Point) : Point := ops.foldl (fun p op => op.apply p) p

@[simp] theorem applyAll_nil (p : Point) : applyAll [] p = p := rfl

@[simp] theorem applyAll_cons (op : BulkOp) (ops : List BulkOp) (p : Point) :
    applyAll (op :: ops) p = applyAll ops (op.apply p) := rfl

theorem applyAll_append (ops ops' : List BulkOp) (p : Point) :
    applyAll (ops ++ ops') p = applyAll ops' (applyAll ops p) := List.foldl_append

end JsonScada.Processor.Flush
