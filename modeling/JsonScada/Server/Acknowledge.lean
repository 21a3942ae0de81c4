/- path: JsonScada/Server/Acknowledge
   source: src/server_realtime_auth/index.js, AckAllAlarms, AckOneAlarm and SilenceBeep
   digest: What an alarm acknowledge sets in a realtimeData document, and the updates of a
   silence request on the beep point. -/

import JsonScada.Model.Documents

set_option autoImplicit false
set_option relaxedAutoImplicit false

namespace JsonScada.Server.Acknowledge

open JsonScada.Lib.Binary64 JsonScada.Lib.EcmaScript JsonScada.Model.Documents

def clearAlarm (p : Point) : Point := { p with alarmed := false }

/-- A digital event tag of a supervised or calculated point. -/
def eventTag (p : Point) : Bool :=
  p.type = .digital && p.isEvent = some true && (p.origin = .supervised || p.origin = .calculated)

/-- Make a digital event tag return to zero. -/
def resetEvent (p : Point) : Point :=
  { p with value := .fin 0, valueString := p.stateTextFalse, timeTagAtSource := none }

/-- Both updates of AckAllAlarms on a document in their filter: only active event
tags are reset. -/
def ackAllAlarms (p : Point) : Point :=
  let p := clearAlarm p
  if eventTag p && p.value.eqv (.fin 1) then resetEvent p else p

/-- Both updates of AckOneAlarm on the document it finds. -/
def ackOneAlarm (p : Point) : Point :=
  let p := clearAlarm p
  if eventTag p then resetEvent p else p

theorem eventTag_eq_false {p : Point} (h : p.isDigitalEvent = false) : eventTag p = false := by
  unfold Point.isDigitalEvent at h
  simp [eventTag, h]

theorem ackAllAlarms_eq_clearAlarm {p : Point} (h : p.isDigitalEvent = false) :
    ackAllAlarms p = clearAlarm p := by
  have he : eventTag (clearAlarm p) = false := eventTag_eq_false h
  simp [ackAllAlarms, he]

theorem ackOneAlarm_eq_clearAlarm {p : Point} (h : p.isDigitalEvent = false) :
    ackOneAlarm p = clearAlarm p := by
  have he : eventTag (clearAlarm p) = false := eventTag_eq_false h
  simp [ackOneAlarm, he]

end JsonScada.Server.Acknowledge

namespace JsonScada.Server.Silence

open JsonScada.Lib.Binary64 JsonScada.Model.Documents

/-- One updateOne of a silence: remove the groups of the user from the beep list,
force silence when the list is empty, or clear list and value at once. -/
inductive SilenceOp where
  | pullAll (group1List : List String)
  | zeroIfEmpty
  | clear
  deriving DecidableEq

/-- What SilenceBeep sends, in order, for the group list of the user's rights. -/
def silenceOps (authentication : Bool) (group1List : List String) : List SilenceOp :=
  if authentication && group1List ≠ [] then [.pullAll group1List, .zeroIfEmpty] else [.clear]

def zeroBeep (p : Point) : Point :=
  { p with value := .fin 0, valueString := "0", beepType := .val (.fin 0) }

namespace SilenceOp

def update : SilenceOp → Point → Point
  | pullAll group1List, p =>
    { p with beepGroup1List := p.beepGroup1List.map fun gs => gs.filter (· ∉ group1List) }
  | zeroIfEmpty, p => if p.beepGroup1List = some [] then zeroBeep p else p
  | clear, p => { zeroBeep p with beepGroup1List := some [] }

/-- The effect on a document: the filter selects the beep point. -/
def apply (op : SilenceOp) (p : Point) : Point := if p._id = beepPointKey then op.update p else p

theorem apply_of_ordinary {op : SilenceOp} {p : Point} (hp : p.Ordinary) : op.apply p = p :=
  if_neg hp.1

theorem apply_id (op : SilenceOp) (p : Point) : (op.apply p)._id = p._id := by
  unfold apply
  split
  · cases op with
    | pullAll gs => rfl
    | zeroIfEmpty =>
      show (if p.beepGroup1List = some [] then zeroBeep p else p)._id = p._id
      split <;> rfl
    | clear => rfl
  · rfl

end SilenceOp

end JsonScada.Server.Silence
