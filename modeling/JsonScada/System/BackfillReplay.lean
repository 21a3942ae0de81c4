/- path: JsonScada/System/BackfillReplay
   source: src/mongofw/customized_module.js, src/mongowr/customized_module.js
   digest: A change that is sent, stored for backfill and replayed, and the updates of it. -/

import JsonScada.Lib.Machine
import JsonScada.Replication.Forward
import JsonScada.Replication.Write

set_option autoImplicit false
set_option relaxedAutoImplicit false

namespace JsonScada.System.BackfillReplay

open JsonScada.Lib.JsObject JsonScada.Lib.Machine
open JsonScada.Model.Documents (Date)
open JsonScada.Replication.Forward JsonScada.Replication.Write

/-- The forwarding process and its collection. A document outlives the replay window,
so the expiry of the collection is left out. -/
structure Forwarder where
  chgQueue : List Value := []
  backfillQueue : List (List Value) := []
  backfillData : List BackfillDoc := []
  cntChg : ℕ := 0
  /-- The objects of all packets sent so far. -/
  sent : List Value := []

/-- A change comes in, a point is synchronised, a packet goes out, the backfill queue is
written, a page of a replay is enqueued, or the process starts again. -/
inductive Event where
  | change (e : ChangeEvent)
  | sync (doc : Fields)
  | send
  | backfill (now : Date)
  | replay (replayBegin replayEnd : Date) (skip : ℕ)
  | restart

/-- `limit` of a page: twice the rate while the queue of changes is empty. -/
def pageLimit (s : Forwarder) : ℕ :=
  backfillDocsPerSec + if s.chgQueue.isEmpty then backfillDocsPerSec else 0

def step (s : Forwarder) : Event → Option Forwarder
  | .change e => some { s with chgQueue := s.chgQueue ++ [e.toValue] }
  | .sync doc => some { s with chgQueue := s.chgQueue ++ (syncChange doc).toList }
  | .send =>
    if s.chgQueue = [] then none else
      let packet := fillPacket s.chgQueue s.cntChg 0
      some { s with
        chgQueue := packet.rest
        backfillQueue :=
          if packet.bfArr = [] then s.backfillQueue else s.backfillQueue ++ [packet.bfArr]
        cntChg := packet.cntChg
        sent := s.sent ++ packet.fwArr }
  | .backfill now =>
    some { s with
      backfillQueue := []
      backfillData := s.backfillData ++ s.backfillQueue.flatten.filterMap (backfillDoc now) }
  | .replay replayBegin replayEnd skip =>
    let page := findPage replayBegin replayEnd skip (pageLimit s) s.backfillData
    some { s with chgQueue := s.chgQueue ++ page.filterMap fun d => replayed d.data }
  | .restart => some { s with chgQueue := [], backfillQueue := [], cntChg := 0 }

/-- The two operations update the same document with the same fields, but for the mark
of the second. -/
structure SameUpdate (live replay : UpdateOne) : Prop where
  tag : replay.tag = live.tag
  set : replay.set = historic live.set
  setOnInsertId : replay.setOnInsertId = live.setOnInsertId
  upsert : replay.upsert = live.upsert

/-- What is asked of an object that was sent live and of the object sent for its replay. -/
structure ReplayedRight (newDate : Value → Option Date) (s : Forwarder) (live replay : Value) :
    Prop where
  same_update : ∃ op op', procMessage newDate [live.reread] = [op] ∧
    procMessage newDate [replay.reread] = [op'] ∧ SameUpdate op op'
  once : ∀ d ∈ s.backfillData, d.data ≠ replay

section Stored

/-- `sourceDataUpdate.isHistorical` of an object is truthy. -/
def isHistoric (obj : Value) : Bool := Value.truthy (Value.member (sourceOf obj) "isHistorical")

theorem isHistoric_of_toBackfill {change : Value} (h : toBackfill (trimmed change) = true)
    (n : ℕ) : isHistoric (wireObject n change) = false := by
  rw [isHistoric, sourceOf_wireObject]
  rw [toBackfill] at h
  split at h
  · exact (Bool.not_eq_true' _).mp h
  · cases h

theorem isHistoric_fillPacket (queue : List Value) (n size : ℕ) :
    ∀ obj ∈ (fillPacket queue n size).bfArr, isHistoric obj = false := by
  intro obj hobj
  obtain ⟨m, change, -, hback, rfl⟩ := mem_bfArr hobj
  exact isHistoric_of_toBackfill hback m

/-- No object marked as historical is stored or about to be. -/
structure NoneHistoric (s : Forwarder) : Prop where
  queued : ∀ bf ∈ s.backfillQueue, ∀ obj ∈ bf, isHistoric obj = false
  stored : ∀ d ∈ s.backfillData, isHistoric d.data = false

theorem data_backfillDoc {now : Date} {obj : Value} {d : BackfillDoc}
    (h : backfillDoc now obj = some d) : d.data = obj := by
  rw [backfillDoc] at h
  dsimp only at h
  split at h
  · split at h
    · cases h
      rfl
    · cases h
  · cases h
    rfl

theorem noneHistoric_step {s t : Forwarder} {ev : Event} (hi : NoneHistoric s)
    (h : step s ev = some t) : NoneHistoric t := by
  cases ev with
  | change e =>
    cases h
    exact ⟨hi.queued, hi.stored⟩
  | sync doc =>
    cases h
    exact ⟨hi.queued, hi.stored⟩
  | send =>
    rw [step] at h
    split at h
    · cases h
    · cases h
      refine ⟨?_, hi.stored⟩
      intro bf hbf obj hobj
      dsimp only at hbf
      split at hbf
      · exact hi.queued bf hbf obj hobj
      · rcases List.mem_append.mp hbf with hold | hnew
        · exact hi.queued bf hold obj hobj
        · obtain rfl := List.mem_singleton.mp hnew
          exact isHistoric_fillPacket _ _ _ obj hobj
  | backfill now =>
    cases h
    refine ⟨fun bf hbf => absurd hbf List.not_mem_nil, ?_⟩
    intro d hd
    rcases List.mem_append.mp hd with hold | hnew
    · exact hi.stored d hold
    · obtain ⟨obj, hobj, hdoc⟩ := List.mem_filterMap.mp hnew
      obtain ⟨bf, hbf, hmem⟩ := List.mem_flatten.mp hobj
      rw [data_backfillDoc hdoc]
      exact hi.queued bf hbf obj hmem
  | replay replayBegin replayEnd skip =>
    cases h
    exact ⟨hi.queued, hi.stored⟩
  | restart =>
    cases h
    exact ⟨fun bf hbf => absurd hbf List.not_mem_nil, hi.stored⟩

theorem noneHistoric_run {s : Forwarder} {events : List Event}
    (hrun : run step {} events = some s) : NoneHistoric s := by
  refine run_invariant (P := fun _ _ => True) (fun s ev t _ hi h => noneHistoric_step hi h)
    (every_of_forall_mem fun _ _ => trivial) ?_ hrun
  exact ⟨fun bf hbf => absurd hbf List.not_mem_nil, fun d hd => absurd hd List.not_mem_nil⟩

end Stored

section Replayed

variable (newDate : Value → Option Date)

/-- The operation built for an update that is received. -/
def updateOf (tag : Option String) (fs s : Fields) : UpdateOne where
  tag := tag.map Value.str
  set := Members.set (Value.rereadFields fs) "sourceDataUpdate"
    (.obj (sourceDates newDate (Value.rereadFields s)))

theorem procMessage_updateObject {fs s : Fields}
    (hs : fs.get "sourceDataUpdate" = some (.obj s)) (n : ℕ) (tag : Option String)
    (documentKey : Value) :
    procMessage newDate [(updateObject n tag documentKey fs).reread] =
      [updateOf newDate tag fs s] := by
  have hget : Members.get (Value.rereadFields fs) "sourceDataUpdate" =
      some (.obj (Value.rereadFields s)) := by
    rw [Value.get_rereadFields, hs, Option.map_some, Value.reread_obj]
  cases tag <;>
    simp [updateObject, optionalMember, Value.rereadFields, procMessage, hasMembers, operation,
      Members.get_cons, hget, updateOf]

/-- The mark is all that a replay adds to the fields. -/
theorem updateOf_historic {fs s : Fields} (hs : fs.get "sourceDataUpdate" = some (.obj s)) :
    updateOf newDate none (historic fs) (s.set "isHistorical" (.bool true)) =
      { tag := none
        set := historic (updateOf newDate none fs s).set } := by
  have hset : (updateOf newDate none fs s).set.get "sourceDataUpdate" =
      some (.obj (sourceDates newDate (Value.rereadFields s))) := Members.get_set_self _ _ _
  rw [historic_eq hset, updateOf, historic_eq hs, Value.rereadFields_set,
    Value.rereadFields_set, sourceDates_set newDate (by decide) (by decide)]
  simp [updateOf]

theorem replayedRight_iff {s : Forwarder} (hi : NoneHistoric s) {e : ChangeEvent} {n m : ℕ}
    {c : Value} (hreplay : replayed (wireObject n e.toValue) = some c) :
    ReplayedRight newDate s (wireObject n e.toValue) (wireObject m c) ↔ e.tag = none := by
  have hs := e.get_sentFields
  have hh : (historic e.sentFields).get "sourceDataUpdate" =
      some (.obj ((withoutLarge e.sourceDataUpdate).set "isHistorical" (.bool true))) := by
    rw [historic_eq hs, Members.get_set_self]
  have hwire : wireObject m c = updateObject m none e.documentKey (historic e.sentFields) := by
    have h := wireObject_replayed e n m
    rw [hreplay] at h
    exact Option.some.inj h
  have hlive : procMessage newDate [(wireObject n e.toValue).reread] =
      [updateOf newDate e.tag e.sentFields (withoutLarge e.sourceDataUpdate)] := by
    rw [wireObject_event, procMessage_updateObject newDate hs]
  have hagain : procMessage newDate [(wireObject m c).reread] =
      [{ tag := none
         set := historic
          (updateOf newDate none e.sentFields (withoutLarge e.sourceDataUpdate)).set }] := by
    rw [hwire, procMessage_updateObject newDate hh, updateOf_historic newDate hs]
  constructor
  · rintro ⟨⟨op, op', hop, hop', hsame⟩, -⟩
    rw [hlive] at hop
    rw [hagain] at hop'
    obtain ⟨rfl, -⟩ := List.cons.inj hop
    obtain ⟨rfl, -⟩ := List.cons.inj hop'
    have htag : none = e.tag.map Value.str := hsame.tag
    exact Option.map_eq_none_iff.mp htag.symm
  · intro htag
    rw [htag] at hlive
    refine ⟨⟨_, _, hlive, hagain, rfl, rfl, rfl, rfl⟩, ?_⟩
    intro d hd hdata
    have hmark : isHistoric d.data = true := by
      rw [hdata, hwire, isHistoric, sourceOf_updateObject, hh]
      simp [Value.truthy]
    rw [hi.stored d hd] at hmark
    cases hmark

/-- In every run, a replayed change is written to the document of the live one, and is
not stored again, exactly when the live change names no document either: the object that
is enqueued again has its tag where no change has it. -/
theorem replay_reaches_document_iff {events : List Event} {s : Forwarder}
    (hrun : run step {} events = some s) {e : ChangeEvent} {n m : ℕ} {c : Value}
    (hreplay : replayed (wireObject n e.toValue) = some c) :
    ReplayedRight newDate s (wireObject n e.toValue) (wireObject m c) ↔ e.tag = none :=
  replayedRight_iff newDate (noneHistoric_run hrun) hreplay

/-- An update of a transformer's voltage. -/
def voltageChange : ChangeEvent where
  tag := some "KAW2TR2-0MTVB"
  documentKey := .obj [("_id", .num (.fin 2))]
  updatedFields := [("sourceDataUpdate", .obj [("valueAtSource", .num (.fin 138)),
    ("timeTagAtSource", .date (some 1000))])]
  sourceDataUpdate := [("valueAtSource", .num (.fin 138)), ("timeTagAtSource", .date (some 1000))]
  has_source := rfl

/-- `new Date` on the texts of this run. -/
def voltageDate : Value → Option Date
  | .str "1970-01-01T00:00:01.000Z" => some 1000
  | _ => none

/-- It is sent, stored, and replayed an hour later. -/
def voltageEvents : List Event :=
  [.change voltageChange, .send, .backfill 2000, .replay 0 3602000 0, .send]

def voltageReplay : Value :=
  updateObject 1 voltageChange.tag voltageChange.documentKey (historic voltageChange.sentFields)

theorem voltage_replayed :
    replayed (wireObject 1 voltageChange.toValue) = some voltageReplay := by
  rw [wireObject_event]
  exact replayed_updateObject voltageChange.get_sentFields 1 _ _

def voltageDoc : BackfillDoc where
  timestamp := 2000
  tag := some (.str "KAW2TR2-0MTVB")
  data := wireObject 1 voltageChange.toValue

def voltageEnd : Forwarder where
  backfillData := [voltageDoc]
  cntChg := 2
  sent := [wireObject 1 voltageChange.toValue, wireObject 2 voltageReplay]

theorem voltage_run : run step {} voltageEvents = some voltageEnd := by
  have hlive : fillPacket [voltageChange.toValue] 0 0 =
      { cntChg := 1
        fwArr := [wireObject 1 voltageChange.toValue]
        bfArr := [wireObject 1 voltageChange.toValue] } :=
    fillPacket_singleton (by rw [jsonLength_eq]; decide +kernel)
  have hagain : fillPacket [voltageReplay] 1 0 =
      { cntChg := 2
        fwArr := [wireObject 2 voltageReplay]
        bfArr := [] } :=
    fillPacket_singleton (by rw [jsonLength_eq]; decide +kernel)
  have hdoc : backfillDoc 2000 (wireObject 1 voltageChange.toValue) = some voltageDoc := rfl
  have hpage : findPage 0 3602000 0 1000 [voltageDoc] = [voltageDoc] := by
    simp [findPage, voltageDoc, Lib.Collection.sortBy]
  have hreplay : replayed voltageDoc.data = some voltageReplay := voltage_replayed
  have hsend : step { chgQueue := [voltageChange.toValue] } .send = some {
      backfillQueue := [[wireObject 1 voltageChange.toValue]]
      cntChg := 1
      sent := [wireObject 1 voltageChange.toValue] } := by
    simp only [step, hlive]
    rfl
  have hstore : step {
      backfillQueue := [[wireObject 1 voltageChange.toValue]]
      cntChg := 1
      sent := [wireObject 1 voltageChange.toValue] } (.backfill 2000) = some {
      backfillData := [voltageDoc]
      cntChg := 1
      sent := [wireObject 1 voltageChange.toValue] } := by
    simp only [step, List.flatten_singleton, List.filterMap_cons, hdoc, List.filterMap_nil]
    rfl
  have henqueue : step {
      backfillData := [voltageDoc]
      cntChg := 1
      sent := [wireObject 1 voltageChange.toValue] } (.replay 0 3602000 0) = some {
      chgQueue := [voltageReplay]
      backfillData := [voltageDoc]
      cntChg := 1
      sent := [wireObject 1 voltageChange.toValue] } := by
    have hlimit : pageLimit {
        backfillData := [voltageDoc]
        cntChg := 1
        sent := [wireObject 1 voltageChange.toValue] } = 1000 := rfl
    simp only [step, hlimit, hpage, List.filterMap_cons, hreplay, List.filterMap_nil]
    rfl
  have hresend : step {
      chgQueue := [voltageReplay]
      backfillData := [voltageDoc]
      cntChg := 1
      sent := [wireObject 1 voltageChange.toValue] } .send = some voltageEnd := by
    simp only [step, hagain]
    rfl
  exact run_cons_eq_some.mpr ⟨_, rfl, run_cons_eq_some.mpr ⟨_, hsend,
    run_cons_eq_some.mpr ⟨_, hstore, run_cons_eq_some.mpr ⟨_, henqueue,
      run_cons_eq_some.mpr ⟨_, hresend, rfl⟩⟩⟩⟩⟩

theorem voltage_reaches_document_iff :
    ReplayedRight voltageDate voltageEnd (wireObject 1 voltageChange.toValue)
      (wireObject 2 voltageReplay) ↔ voltageChange.tag = none :=
  replay_reaches_document_iff voltageDate voltage_run voltage_replayed

/-- A change with a tag that is sent, stored and replayed, and whose replay is written
to no document of that tag. -/
theorem replay_misses_document :
    run step {} voltageEvents = some voltageEnd ∧
      wireObject 1 voltageChange.toValue ∈ voltageEnd.sent ∧
      voltageDoc ∈ voltageEnd.backfillData ∧
      voltageDoc.data = wireObject 1 voltageChange.toValue ∧
      replayed voltageDoc.data = some voltageReplay ∧
      wireObject 2 voltageReplay ∈ voltageEnd.sent ∧
      ¬ ReplayedRight voltageDate voltageEnd (wireObject 1 voltageChange.toValue)
        (wireObject 2 voltageReplay) := by
  refine ⟨voltage_run, List.mem_cons_self, List.mem_singleton_self _, rfl, voltage_replayed,
    List.mem_cons_of_mem _ (List.mem_singleton_self _), ?_⟩
  intro h
  have htag := (replayedRight_iff _ (noneHistoric_run voltage_run) voltage_replayed).mp h
  cases htag

end Replayed

end JsonScada.System.BackfillReplay
