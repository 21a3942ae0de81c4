/- path: JsonScada/Replication/Write
   source: src/mongowr/customized_module.js
   digest: Update operations built from the messages of the other site. -/

import JsonScada.Lib.JsObject
import JsonScada.Model.Documents

set_option autoImplicit false
set_option relaxedAutoImplicit false

namespace JsonScada.Replication.Write

open JsonScada.Lib.JsObject
open JsonScada.Model.Documents (Date)

/-- An `updateOne` of the bulk write. -/
structure UpdateOne where
  /-- `filter.tag`, which may be undefined. -/
  tag : Option Value
  set : Fields
  /-- The `_id` of a document the operation inserts, as a BSON double. -/
  setOnInsertId : Option Value := none
  upsert : Bool := false

section Reading

-- `new Date(v)`: the standard fixes the reading of ISO texts and leaves that of
-- other texts to the implementation.
variable (newDate : Value → Option Date)

/-- `if (fs[k]) fs[k] = new Date(fs[k])` -/
def dateField (k : String) (fs : Fields) : Fields :=
  match fs.get k with
  | some v => if Value.truthy (some v) then fs.set k (.date (newDate v)) else fs
  | none => fs

theorem dateField_set {j k : String} (h : j ≠ k) (fs : Fields) (v : Value) :
    dateField newDate j (fs.set k v) = (dateField newDate j fs).set k v := by
  unfold dateField
  rw [Members.get_set_of_ne h]
  cases hj : fs.get j with
  | none => rfl
  | some w =>
    dsimp only
    split
    · exact Members.set_comm h (by rw [hj]; exact Option.some_ne_none w) v _
    · rfl

/-- Date members of a driver's update. -/
def sourceDates (sourceDataUpdate : Fields) : Fields :=
  dateField newDate "timeTagAtSource" (dateField newDate "timeTag" sourceDataUpdate)

/-- The conversion passes over the other members. -/
theorem sourceDates_set {k : String} (htag : "timeTag" ≠ k) (hsource : "timeTagAtSource" ≠ k)
    (fs : Fields) (v : Value) :
    sourceDates newDate (fs.set k v) = (sourceDates newDate fs).set k v := by
  rw [sourceDates, dateField_set newDate htag, dateField_set newDate hsource]
  rfl

/-- Date members of a whole document. -/
def documentDates (updatedFields : Fields) : Fields :=
  dateField newDate "timeTagAlarm"
    (dateField newDate "timeTagAtSource" (dateField newDate "timeTag" updatedFields))

/-- The operation `procQueue` builds for an object that has the expected members. -/
def operation (dataObj : Fields) : Option UpdateOne :=
  let tag := dataObj.get "tag"
  match dataObj.get "operationType",
      Value.member (dataObj.get "updateDescription") "updatedFields" with
  | some (.str "integrity"), some (.obj updatedFields) =>
    match Members.get updatedFields "_id" with
    | some _id =>
      if Value.truthy (some _id) && Value.truthy tag then
        some {
          tag := tag
          set := (documentDates newDate updatedFields).delete "_id"
          setOnInsertId := some _id
          upsert := true }
      else none
    | none => none
  | some (.str "update"), some (.obj updatedFields) =>
    match Members.get updatedFields "sourceDataUpdate" with
    | some (.obj source) =>
      some {
        tag := tag
        set := Members.set updatedFields "sourceDataUpdate" (.obj (sourceDates newDate source)) }
    | some v => if Value.truthy (some v) then some { tag := tag, set := updatedFields } else none
    | none => none
  | _, _ => none

def hasMembers (fs : Fields) (ks : List String) : Bool := ks.all fun k => (fs.get k).isSome

/-- The operations of one message. An element that is no object ends it with an
exception; one without the expected members is passed over. -/
def procMessage : List Value → List UpdateOne
  | [] => []
  | .obj dataObj :: arrObj =>
    if hasMembers dataObj ["cnt", "operationType", "updateDescription"] then
      (operation newDate dataObj).toList ++ procMessage arrObj
    else procMessage arrObj
  | _ => []

end Reading

section Counting

/-- The counters of the receiver. -/
structure Counters where
  cntChg : ℤ := -1
  cntLost : ℤ := 0
  deriving DecidableEq

/-- `dataObj.cnt` as the other site writes it, a count. -/
def cntOf (dataObj : Fields) : Option ℕ :=
  match dataObj.get "cnt" with
  | some (.num (.fin q)) => if q = q.num.toNat then some q.num.toNat else none
  | _ => none

/-- The change with the number `cnt` has come. -/
def Counters.count (c : Counters) (cnt : ℕ) : Counters :=
  { cntLost :=
      if cnt - c.cntChg > 1 ∧ c.cntChg ≠ -1 then c.cntLost + (cnt - c.cntChg) else c.cntLost
    cntChg := cnt }

/-- The counters after a message of `procQueue`, which counts the elements with the expected
members. `none` is a number that is no count, which the other site does not send. -/
def countMessage : Counters → List Value → Option Counters
  | c, [] => some c
  | c, .obj dataObj :: arrObj =>
    if hasMembers dataObj ["cnt", "operationType", "updateDescription"] then
      (cntOf dataObj).bind fun cnt => countMessage (c.count cnt) arrObj
    else countMessage c arrObj
  | c, .arr _ :: arrObj => countMessage c arrObj
  -- `in` throws on other values
  | c, _ => some c

/-- The counters after some messages. -/
def countQueue (c : Counters) (msgQueue : List (List Value)) : Option Counters :=
  msgQueue.foldlM countMessage c

end Counting

end JsonScada.Replication.Write
