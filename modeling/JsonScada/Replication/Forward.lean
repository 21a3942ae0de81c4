/- path: JsonScada/Replication/Forward
   source: src/mongofw/customized_module.js, src/mongofw/app-defs.js
   digest: Changes on their way to the other site, and their way back from backfillData. -/

import JsonScada.Lib.Collection
import JsonScada.Lib.JsObject
import JsonScada.Model.Documents

set_option autoImplicit false
set_option relaxedAutoImplicit false

namespace JsonScada.Replication.Forward

open JsonScada.Lib.Binary64 JsonScada.Lib.EcmaScript JsonScada.Lib.JsObject
open JsonScada.Lib.Collection (sortBy mem_sortBy)
open JsonScada.Model.Documents (Date)

def maxLengthJson : ℕ := 60000

def packetSizeThreshold : ℕ := 7000

def backfillDocsPerSec : ℕ := 500

/-- An update event of the change stream. `tag` is read in the document the server
looks up for the event; a document that is gone by then leaves a null there. -/
structure ChangeEvent where
  tag : Option String
  documentKey : Value
  updatedFields : Fields
  sourceDataUpdate : Fields
  /-- The stream selects the updates that write this member. -/
  has_source : updatedFields.get "sourceDataUpdate" = some (.obj sourceDataUpdate)
  removedFields : List Value := []
  truncatedArrays : List Value := []

/-- The event as the object that goes into `chgQueue`. -/
def ChangeEvent.toValue (e : ChangeEvent) : Value :=
  .obj [
    ("operationType", .str "update"),
    ("fullDocument", e.tag.elim .null fun t => .obj [("tag", .str t)]),
    ("documentKey", e.documentKey),
    ("updateDescription", .obj [
      ("updatedFields", .obj e.updatedFields),
      ("removedFields", .arr e.removedFields),
      ("truncatedArrays", .arr e.truncatedArrays)])]

/-- `JSON.stringify(v).length`. -/
def jsonLength (v : Value) : ℕ := codeUnits (String.ofList v.stringify)

theorem jsonLength_eq (v : Value) :
    jsonLength v = (v.stringify.map fun c => if c.toNat < 0x10000 then 1 else 2).sum := by
  rw [jsonLength, codeUnits, String.toList_ofList]

/-- A member of an object literal; JSON has no undefined members. -/
def optionalMember (k : String) (v : Option Value) : Fields := v.toList.map fun w => (k, w)

theorem get_optionalMember_self (k : String) (v : Option Value) :
    (optionalMember k v).get k = v := by
  cases v <;> simp [optionalMember, Members.get_cons]

theorem get_optionalMember_append {j k : String} (h : j ≠ k) (v : Option Value) (fs : Fields) :
    Members.get (optionalMember k v ++ fs) j = fs.get j := by
  cases v <;> simp [optionalMember, Members.get_cons, h]

/-- `delete fs[k]` where the member is truthy. -/
def deleteTruthy (k : String) (fs : Fields) : Fields :=
  if Value.truthy (fs.get k) then fs.delete k else fs

theorem truthy_deleteTruthy (k : String) (fs : Fields) :
    Value.truthy ((deleteTruthy k fs).get k) = false := by
  unfold deleteTruthy
  split
  · simp [Value.truthy]
  · next h => exact Bool.eq_false_iff.mpr h

theorem get_deleteTruthy_of_ne {j k : String} (h : j ≠ k) (fs : Fields) :
    (deleteTruthy k fs).get j = fs.get j := by
  unfold deleteTruthy
  split
  · exact Members.get_delete_of_ne h fs
  · rfl

theorem deleteTruthy_eq_self {k : String} {fs : Fields} (h : Value.truthy (fs.get k) = false) :
    deleteTruthy k fs = fs := by
  simp [deleteTruthy, h]

/-- The body of the loop of `enqueueDbSync`. -/
def syncChange (doc : Fields) : Option Value :=
  let doc := deleteTruthy "protocolDestinations" (deleteTruthy "sourceDataUpdate" doc)
  if jsonLength (.obj doc) > maxLengthJson then none
  else some (.obj [
    ("operationType", .str "integrity"),
    ("fullDocument", .obj (optionalMember "tag" (doc.get "tag"))),
    ("documentKey", .obj (optionalMember "_id" (doc.get "_id"))),
    ("updateDescription", .obj [("updatedFields", .obj doc)])])

section Sending

/-- `valueJsonAtSource` is too large for a UDP message. -/
def largeJson (sourceDataUpdate : Fields) : Bool :=
  (sourceDataUpdate.get "valueJsonAtSource").any fun v => v.length > maxLengthJson / 2

def withoutLarge (sourceDataUpdate : Fields) : Fields :=
  deleteTruthy "valueBsonAtSource"
    (if largeJson sourceDataUpdate then sourceDataUpdate.delete "valueJsonAtSource"
      else sourceDataUpdate)

theorem largeJson_withoutLarge (s : Fields) : largeJson (withoutLarge s) = false := by
  have hget : (withoutLarge s).get "valueJsonAtSource" =
      Members.get (if largeJson s then s.delete "valueJsonAtSource" else s) "valueJsonAtSource" :=
    get_deleteTruthy_of_ne (by decide) _
  rw [largeJson, hget]
  split
  · simp
  · next h => exact Bool.eq_false_iff.mpr h

theorem withoutLarge_eq_self {s : Fields} (hjson : largeJson s = false)
    (hbson : Value.truthy (s.get "valueBsonAtSource") = false) : withoutLarge s = s := by
  simp only [withoutLarge, hjson, Bool.false_eq_true, if_false, deleteTruthy_eq_self hbson]

/-- Nothing more is deleted when the update is sent again, marked as historical. -/
theorem withoutLarge_set_historical (s : Fields) (v : Value) :
    withoutLarge ((withoutLarge s).set "isHistorical" v) =
      (withoutLarge s).set "isHistorical" v := by
  apply withoutLarge_eq_self
  · have hsmall := largeJson_withoutLarge s
    unfold largeJson at hsmall ⊢
    rwa [Members.get_set_of_ne (by decide)]
  · rw [Members.get_set_of_ne (by decide)]
    exact truthy_deleteTruthy _ _

def onFields (f : Fields → Fields) : Value → Value
  | .obj fs => .obj (f fs)
  | v => v

/-- What `dequeueChangesSend` deletes from a change before it looks at its size. -/
def trimmed (change : Value) : Value :=
  change.modify "updateDescription" fun d =>
    onFields (fun fs => deleteTruthy "removedFields" (deleteTruthy "truncatedArrays" fs))
      (d.modify "updatedFields" fun u => u.modify "sourceDataUpdate" (onFields withoutLarge))

/-- The object sent for a change. -/
def wireObject (cnt : ℕ) (change : Value) : Value :=
  let change := trimmed change
  .obj (("cnt", .num (.fin cnt)) ::
    (optionalMember "tag" (Value.member (Value.member (some change) "fullDocument") "tag") ++
      optionalMember "operationType" (Value.member (some change) "operationType") ++
      optionalMember "documentKey" (Value.member (some change) "documentKey") ++
      optionalMember "updateDescription" (Value.member (some change) "updateDescription")))

def sourceOf (v : Value) : Option Value :=
  Value.member (Value.member (Value.member (some v) "updateDescription") "updatedFields")
    "sourceDataUpdate"

theorem sourceOf_wireObject (cnt : ℕ) (change : Value) :
    sourceOf (wireObject cnt change) = sourceOf (trimmed change) := by
  have hmember : Value.member (some (wireObject cnt change)) "updateDescription" =
      Value.member (some (trimmed change)) "updateDescription" := by
    rw [wireObject, Value.member_obj, Members.get_cons, if_neg (by decide), List.append_assoc,
      List.append_assoc, get_optionalMember_append (by decide),
      get_optionalMember_append (by decide), get_optionalMember_append (by decide),
      get_optionalMember_self]
  rw [sourceOf, hmember, sourceOf]

/-- The change goes into `bfArr` as well. -/
def toBackfill (change : Value) : Bool :=
  match Value.member (some change) "operationType" with
  | some (.str "update") => !Value.truthy (Value.member (sourceOf change) "isHistorical")
  | _ => false

structure Packet where
  /-- `cntChg` after the packet. -/
  cntChg : ℕ
  fwArr : List Value := []
  bfArr : List Value := []
  /-- Changes left in `chgQueue`. -/
  rest : List Value := []

/-- The inner loop of `dequeueChangesSend`, which fills one packet. -/
def fillPacket : List Value → ℕ → ℕ → Packet
  | [], cntChg, _ => { cntChg := cntChg }
  | change :: rest, cntChg, strSz =>
    let obj := wireObject (cntChg + 1) change
    let chgLen := jsonLength obj
    if chgLen > maxLengthJson then fillPacket rest cntChg strSz
    else
      let bf := if toBackfill (trimmed change) then [obj] else []
      if strSz + chgLen > packetSizeThreshold then
        { cntChg := cntChg + 1, fwArr := [obj], bfArr := bf, rest := rest }
      else
        let more := fillPacket rest (cntChg + 1) (strSz + chgLen)
        { more with
          fwArr := obj :: more.fwArr
          bfArr := bf ++ more.bfArr }

/-- What is handed to `udpSocket.send` for a packet. -/
def message (deflateSync : ByteArray → ByteArray) (fwArr : List Value) : ByteArray :=
  deflateSync (String.ofList (Value.arr fwArr).stringify).toUTF8

theorem fillPacket_singleton {change : Value} {cntChg : ℕ}
    (h : jsonLength (wireObject (cntChg + 1) change) ≤ maxLengthJson) :
    fillPacket [change] cntChg 0 =
      { cntChg := cntChg + 1
        fwArr := [wireObject (cntChg + 1) change]
        bfArr := if toBackfill (trimmed change) then [wireObject (cntChg + 1) change] else [] } := by
  have hsize : ¬ jsonLength (wireObject (cntChg + 1) change) > maxLengthJson := by omega
  rw [fillPacket]
  simp [hsize, fillPacket]

/-- What is stored for a backfill of a packet is an object of it. -/
theorem mem_bfArr {queue : List Value} {cntChg strSz : ℕ} {obj : Value}
    (h : obj ∈ (fillPacket queue cntChg strSz).bfArr) :
    ∃ n, ∃ change ∈ queue, toBackfill (trimmed change) = true ∧ obj = wireObject n change := by
  induction queue generalizing cntChg strSz with
  | nil => cases h
  | cons change rest ih =>
    have hfirst : ∀ n, obj ∈ (if toBackfill (trimmed change) then [wireObject n change] else []) →
        ∃ n, ∃ c ∈ change :: rest, toBackfill (trimmed c) = true ∧ obj = wireObject n c := by
      intro n hobj
      split at hobj
      · next hback =>
        exact ⟨n, change, List.mem_cons_self, hback, List.mem_singleton.mp hobj⟩
      · cases hobj
    have hrest : ∀ n size, obj ∈ (fillPacket rest n size).bfArr →
        ∃ n, ∃ c ∈ change :: rest, toBackfill (trimmed c) = true ∧ obj = wireObject n c := by
      intro n size hobj
      obtain ⟨m, c, hmem, hback, hc⟩ := ih hobj
      exact ⟨m, c, List.mem_cons_of_mem change hmem, hback, hc⟩
    rw [fillPacket] at h
    dsimp only at h
    split at h
    · exact hrest cntChg strSz h
    · split at h
      · exact hfirst (cntChg + 1) h
      · rcases List.mem_append.mp h with h | h
        · exact hfirst (cntChg + 1) h
        · exact hrest _ _ h

end Sending

section Backfilling

/-- A document of the backfillData collection; its metadata repeat the tag. -/
structure BackfillDoc where
  timestamp : Date
  tag : Option Value
  data : Value

/-- What `backfillDequeue` inserts for an object; a timestamp that is no date is
refused by the collection, a time series. -/
def backfillDoc (now : Date) (obj : Value) : Option BackfillDoc :=
  let stamp := Value.member
    (Value.member (Value.member (some obj) "updateDescription") "updatedFields") "timestamp"
  let doc (t : Date) : BackfillDoc :=
    { timestamp := t, tag := Value.member (some obj) "tag", data := obj }
  if Value.truthy stamp then
    match stamp with
    | some (.date (some t)) => some (doc t)
    | _ => none
  else some (doc now)

/-- One page of the moving window of `replayBackfill`. -/
def findPage (replayBegin replayEnd : Date) (skip limit : ℕ) (docs : List BackfillDoc) :
    List BackfillDoc :=
  let window := docs.filter fun d : BackfillDoc =>
    replayBegin < d.timestamp && d.timestamp ≤ replayEnd
  ((sortBy BackfillDoc.timestamp window).drop skip).take limit

/-- What `replayBackfill` enqueues for a document, which need not have a source update. -/
def replayed (data : Value) : Option Value :=
  if Value.truthy (sourceOf data) then
    some (data.modify "updateDescription" fun d => d.modify "updatedFields" fun u =>
      u.modify "sourceDataUpdate" (onFields fun s => s.set "isHistorical" (.bool true)))
  else none

end Backfilling

section Objects

/-- The object sent for an update, spelled out. -/
def updateObject (cnt : ℕ) (tag : Option String) (documentKey : Value) (updatedFields : Fields) :
    Value :=
  .obj (("cnt", .num (.fin cnt)) :: (optionalMember "tag" (tag.map Value.str) ++ [
    ("operationType", .str "update"),
    ("documentKey", documentKey),
    ("updateDescription", .obj [("updatedFields", .obj updatedFields)])]))

/-- What is sent of the fields of an event. -/
def ChangeEvent.sentFields (e : ChangeEvent) : Fields :=
  e.updatedFields.set "sourceDataUpdate" (.obj (withoutLarge e.sourceDataUpdate))

/-- Fields with their source update marked as historical. -/
def historic (fs : Fields) : Fields :=
  match fs.get "sourceDataUpdate" with
  | some (.obj s) => fs.set "sourceDataUpdate" (.obj (Members.set s "isHistorical" (.bool true)))
  | _ => fs

theorem historic_eq {fs s : Fields} (h : fs.get "sourceDataUpdate" = some (.obj s)) :
    historic fs = fs.set "sourceDataUpdate" (.obj (s.set "isHistorical" (.bool true))) := by
  simp [historic, h]

theorem ChangeEvent.get_sentFields (e : ChangeEvent) :
    e.sentFields.get "sourceDataUpdate" = some (.obj (withoutLarge e.sourceDataUpdate)) :=
  Members.get_set_self _ _ _

theorem member_updateObject (cnt : ℕ) (tag : Option String) (documentKey : Value)
    (fs : Fields) (k : String) :
    Value.member (some (updateObject cnt tag documentKey fs)) k =
      if k = "cnt" then some (.num (.fin cnt))
      else if k = "tag" then tag.map Value.str
      else if k = "operationType" then some (.str "update")
      else if k = "documentKey" then some documentKey
      else if k = "updateDescription" then some (.obj [("updatedFields", .obj fs)])
      else none := by
  cases tag with
  | none =>
    by_cases htag : k = "tag"
    · subst htag
      simp [updateObject, optionalMember, Members.get_cons]
    · simp [updateObject, optionalMember, Members.get_cons, htag]
  | some t => simp [updateObject, optionalMember, Members.get_cons]

theorem sourceOf_updateObject (cnt : ℕ) (tag : Option String) (documentKey : Value)
    (fs : Fields) :
    sourceOf (updateObject cnt tag documentKey fs) = fs.get "sourceDataUpdate" := by
  rw [sourceOf, member_updateObject]
  simp [Members.get_cons]

theorem modify_updateObject {fs gs : Fields} {f : Value → Value}
    (h : f (.obj [("updatedFields", .obj fs)]) = .obj [("updatedFields", .obj gs)])
    (cnt : ℕ) (tag : Option String) (documentKey : Value) :
    (updateObject cnt tag documentKey fs).modify "updateDescription" f =
      updateObject cnt tag documentKey gs := by
  cases tag <;> simp [updateObject, optionalMember, Value.modify, Members.get_cons, Members.set, h]

theorem trimmed_updateObject {fs s : Fields} (hs : fs.get "sourceDataUpdate" = some (.obj s))
    (cnt : ℕ) (tag : Option String) (documentKey : Value) :
    trimmed (updateObject cnt tag documentKey fs) =
      updateObject cnt tag documentKey
        (fs.set "sourceDataUpdate" (.obj (withoutLarge s))) := by
  refine modify_updateObject ?_ cnt tag documentKey
  have hfields : ∀ gs : Fields,
      deleteTruthy "removedFields" (deleteTruthy "truncatedArrays"
        [("updatedFields", .obj gs)]) = [("updatedFields", .obj gs)] := by
    intro gs
    rw [deleteTruthy_eq_self (k := "truncatedArrays") rfl,
      deleteTruthy_eq_self (k := "removedFields") rfl]
  simp [Value.modify, Members.get_cons, Members.set, hs, onFields, hfields]

theorem trimmed_event (e : ChangeEvent) :
    trimmed e.toValue = .obj [
      ("operationType", .str "update"),
      ("fullDocument", e.tag.elim .null fun t => .obj [("tag", .str t)]),
      ("documentKey", e.documentKey),
      ("updateDescription", .obj [("updatedFields", .obj e.sentFields)])] := by
  have hdelete : ∀ gs : Fields, deleteTruthy "removedFields" (deleteTruthy "truncatedArrays"
      [("updatedFields", .obj gs), ("removedFields", .arr e.removedFields),
        ("truncatedArrays", .arr e.truncatedArrays)]) = [("updatedFields", .obj gs)] := by
    intro gs
    simp [deleteTruthy, Members.get_cons, Value.truthy, Members.delete]
  simp [trimmed, ChangeEvent.toValue, Value.modify, Members.get_cons, Members.set, e.has_source,
    onFields, hdelete, ChangeEvent.sentFields]

/-- What is sent for an event of the change stream. -/
theorem wireObject_event (cnt : ℕ) (e : ChangeEvent) :
    wireObject cnt e.toValue = updateObject cnt e.tag e.documentKey e.sentFields := by
  rw [wireObject, trimmed_event]
  cases htag : e.tag <;>
    simp [updateObject, optionalMember, Value.member, Members.get_cons]

/-- An object that is sent again has no looked-up document, so its tag is lost. -/
theorem wireObject_updateObject {fs s : Fields}
    (hs : fs.get "sourceDataUpdate" = some (.obj s)) (cnt m : ℕ) (tag : Option String)
    (documentKey : Value) :
    wireObject m (updateObject cnt tag documentKey fs) =
      updateObject m none documentKey
        (fs.set "sourceDataUpdate" (.obj (withoutLarge s))) := by
  rw [wireObject, trimmed_updateObject hs]
  simp only [member_updateObject]
  simp [updateObject, optionalMember, Value.member]

theorem replayed_updateObject {fs s : Fields}
    (hs : fs.get "sourceDataUpdate" = some (.obj s)) (cnt : ℕ) (tag : Option String)
    (documentKey : Value) :
    replayed (updateObject cnt tag documentKey fs) =
      some (updateObject cnt tag documentKey (historic fs)) := by
  have htruthy : Value.truthy (some (.obj s)) = true := rfl
  rw [replayed, sourceOf_updateObject, hs, if_pos htruthy, historic_eq hs]
  congr 1
  refine modify_updateObject ?_ cnt tag documentKey
  simp [Value.modify, Members.get_cons, Members.set, hs, onFields]

/-- What is sent when a stored object of an event is replayed. -/
theorem wireObject_replayed (e : ChangeEvent) (cnt m : ℕ) :
    (replayed (wireObject cnt e.toValue)).map (wireObject m) =
      some (updateObject m none e.documentKey (historic e.sentFields)) := by
  have hs := e.get_sentFields
  have hh : (historic e.sentFields).get "sourceDataUpdate" =
      some (.obj ((withoutLarge e.sourceDataUpdate).set "isHistorical" (.bool true))) := by
    rw [historic_eq hs, Members.get_set_self]
  rw [wireObject_event, replayed_updateObject hs, Option.map_some, wireObject_updateObject hh,
    withoutLarge_set_historical, historic_eq hs, Members.set_set_self]

end Objects

end JsonScada.Replication.Forward
