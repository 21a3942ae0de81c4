/- path: JsonScada/System/PointFeed
   source: src/cs_data_processor/cs_data_processor.js, src/server_realtime_auth/index.js
   digest: One point between its driver, the change stream, the processor and the operator. -/

import JsonScada.Lib.Machine
import JsonScada.Lib.WriteBehind
import JsonScada.Processor.Flush
import JsonScada.Server.Acknowledge

set_option autoImplicit false
set_option relaxedAutoImplicit false

namespace JsonScada.System.PointFeed

open JsonScada.Lib.Binary64 JsonScada.Lib.EcmaScript JsonScada.Model.Documents
open JsonScada.Lib.Machine JsonScada.Lib.WriteBehind
open JsonScada.Processor.Convert JsonScada.Processor.Limits JsonScada.Processor.Change
open JsonScada.Processor.Flush JsonScada.Server.Acknowledge JsonScada.Server.Silence

/-- A change event on its way to the handler. The stream looks the document up at
some moment after the write; from then on the event carries that document. -/
structure ChangeEvent where
  sourceDataUpdate : SourceDataUpdate
  fullDocument : Option Point
  deriving DecidableEq

/-- The document of the point with the writes on their way to it, the change
events not delivered yet, and the trace of the run. -/
structure Feed where
  db : Buffer Point BulkOp RtUpdate
  events : List ChangeEvent
  digitalUpdatesCount : ℕ
  written : List SourceDataUpdate
  handled : List SourceDataUpdate
  pointUpdates : ℕ
  limitEvents : List SoeEvent
  deriving DecidableEq

def start (doc : Point) (count : ℕ) : Feed :=
  { db := ⟨doc, [], []⟩, events := [], digitalUpdatesCount := count, written := [],
    handled := [], pointUpdates := 0, limitEvents := [] }

/-- A write of the driver, a lookup of the document for one event, the delivery of
the oldest event, the two halves of a flush, an acknowledge of the operator, and an
update of a silence. -/
inductive Label where
  | write (sourceDataUpdate : SourceDataUpdate)
  | lookup (i : ℕ)
  | deliver (clock : Clock)
  | drain
  | apply
  | ackOne
  | ackAll
  | silence (op : SilenceOp)
  deriving DecidableEq

def isPoint : RtUpdate → Bool
  | .point _ => true
  | _ => false

def deliver (clock : Clock) (doc : Point) (sdu : SourceDataUpdate) (events : List ChangeEvent)
    (s : Feed) : Feed :=
  let o := change clock s.digitalUpdatesCount doc sdu
  { s with
    db := s.db.enqueue o.enqueued
    events := events
    digitalUpdatesCount := o.digitalUpdatesCount
    handled := s.handled ++ [sdu]
    pointUpdates := s.pointUpdates + (o.enqueued.filter isPoint).length
    limitEvents := s.limitEvents ++ o.limitEvents }

/-- The write of a protocol driver. -/
def replaceSource (u : SourceDataUpdate) (p : Point) : Point :=
  { p with sourceDataUpdate := .data u }

def step (s : Feed) : Label → Option Feed
  | .write u => some { s with
      db := s.db.edit (replaceSource u)
      events := s.events ++ [⟨u, none⟩]
      written := s.written ++ [u] }
  | .lookup i =>
    match s.events[i]? with
    | some ⟨u, none⟩ => some { s with events := s.events.set i ⟨u, some s.db.stored⟩ }
    | _ => none
  | .deliver clock =>
    match s.events with
    | ⟨u, some doc⟩ :: events => some (deliver clock doc u events s)
    | _ => none
  | .drain => some { s with db := s.db.drain bulkOps }
  | .apply => (s.db.applyNext BulkOp.apply).map fun db => { s with db := db }
  | .ackOne => some { s with db := s.db.edit ackOneAlarm }
  | .ackAll => some { s with db := s.db.edit ackAllAlarms }
  | .silence op => some { s with db := s.db.edit op.apply }

namespace Feed

/-- The stored document with every waiting update applied. -/
def newest (s : Feed) : Point := s.db.newest bulkOps BulkOp.apply

/-- All change events delivered, and nothing left to flush. -/
def Settled (s : Feed) : Prop := s.events = [] ∧ s.db.Idle

instance (s : Feed) : Decidable s.Settled := by unfold Settled Buffer.Idle; infer_instance

end Feed

/-- The event at the head of the stream, when the document of the event has been
looked up. -/
def due (s : Feed) : Option (Point × SourceDataUpdate) :=
  match s.events with
  | ⟨u, some doc⟩ :: _ => some (doc, u)
  | _ => none

/-- A condition on the deliveries of a run: the state before, the clock reading,
the document and the update of the event delivered. -/
def OnDelivery (P : Feed → Clock → Point → SourceDataUpdate → Prop) (s : Feed) : Label → Prop
  | .deliver clock => ∀ e ∈ due s, P s clock e.1 e.2
  | _ => True

instance (P : Feed → Clock → Point → SourceDataUpdate → Prop)
    [∀ s clock p u, Decidable (P s clock p u)] (s : Feed) (a : Label) :
    Decidable (OnDelivery P s a) := by
  cases a <;> unfold OnDelivery <;> infer_instance

theorem step_deliver {s t : Feed} {clock : Clock} (h : step s (.deliver clock) = some t) :
    ∃ doc u, due s = some (doc, u) ∧ s.events = ⟨u, some doc⟩ :: s.events.tail ∧
      t = deliver clock doc u s.events.tail s := by
  simp only [step] at h
  split at h
  · rename_i u doc events heq
    refine ⟨doc, u, ?_, ?_, ?_⟩
    · simp [due, heq]
    · simp [heq]
    · simpa [heq] using h.symm
  · cases h

theorem onDelivery_of_stuck {P : Feed → Clock → Point → SourceDataUpdate → Prop} {s : Feed}
    {a : Label} (h : step s a = none) : OnDelivery P s a := by
  cases a with
  | deliver clock =>
    intro e he
    have hdue : due s = none := by
      simp only [step] at h
      unfold due
      split at h
      · cases h
      · rfl
    rw [hdue] at he
    cases he
  | _ => trivial

theorem step_lookup {s t : Feed} {i : ℕ} (h : step s (.lookup i) = some t) :
    ∃ u, s.events[i]? = some ⟨u, none⟩ ∧
      t = { s with events := s.events.set i ⟨u, some s.db.stored⟩ } := by
  simp only [step] at h
  split at h
  · rename_i u heq
    exact ⟨u, heq, by simpa using h.symm⟩
  · cases h

theorem step_apply {s t : Feed} (h : step s .apply = some t) :
    ∃ db, s.db.applyNext BulkOp.apply = some db ∧ t = { s with db := db } := by
  obtain ⟨db, hdb, rfl⟩ := Option.map_eq_some_iff.mp h
  exact ⟨db, hdb, rfl⟩

/-- The writes a label performs. -/
def writes : Label → List SourceDataUpdate
  | .write u => [u]
  | _ => []

theorem step_written {s t : Feed} {a : Label} (h : step s a = some t) :
    t.written = s.written ++ writes a := by
  cases a with
  | write u =>
    obtain rfl := Option.some.inj h
    rfl
  | lookup i =>
    obtain ⟨u, -, rfl⟩ := step_lookup h
    simp [writes]
  | deliver clock =>
    obtain ⟨p, u, -, -, rfl⟩ := step_deliver h
    simp [writes, deliver]
  | apply =>
    obtain ⟨db, -, rfl⟩ := step_apply h
    simp [writes]
  | drain | ackOne | ackAll | silence =>
    obtain rfl := Option.some.inj h
    simp [writes]

/-- The fields the updates of a point decide are the same in two documents, except
that the first may lack the alarm of the second. -/
structure SameImage (a b : Point) : Prop where
  _id : a._id = b._id
  value : a.value = b.value
  invalid : a.invalid = b.invalid
  alarmRange : a.alarmRange = b.alarmRange
  updatesCnt : a.updatesCnt = b.updatesCnt
  alarmed : b.alarmed = false → a.alarmed = false

theorem SameImage.refl (a : Point) : SameImage a a := ⟨rfl, rfl, rfl, rfl, rfl, id⟩

theorem apply_sameImage (op : BulkOp) (a b : Point) (h : SameImage a b) :
    SameImage (op.apply a) (op.apply b) := by
  unfold BulkOp.apply
  rw [h._id]
  split
  · cases op with
    | setPoint u => exact ⟨h._id, rfl, rfl, rfl, rfl, id⟩
    | setBeep b t => exact ⟨h._id, rfl, h.invalid, h.alarmRange, h.updatesCnt, h.alarmed⟩
    | setCounter v t => exact ⟨h._id, rfl, h.invalid, h.alarmRange, h.updatesCnt, h.alarmed⟩
    | addToSet g => exact ⟨h._id, h.value, h.invalid, h.alarmRange, h.updatesCnt, h.alarmed⟩
  · exact h

/-- Settings no process of the feed changes. -/
structure SamePoint (a b : Point) : Prop where
  _id : a._id = b._id
  isEvent : a.isEvent = b.isEvent
  settings : SameSettings a b
  limits : SameLimits a b

theorem SamePoint.refl (a : Point) : SamePoint a a :=
  ⟨rfl, rfl, ⟨rfl, rfl, rfl, rfl, rfl, rfl, rfl⟩, ⟨rfl, rfl, rfl, rfl⟩⟩

theorem SamePoint.trans {a b c : Point} (h : SamePoint a b) (h' : SamePoint b c) :
    SamePoint a c := by
  obtain ⟨hi, he, hs, hl⟩ := h
  obtain ⟨hi', he', hs', hl'⟩ := h'
  refine ⟨hi.trans hi', he.trans he', ?_, ?_⟩
  · exact ⟨hs.1.trans hs'.1, hs.2.trans hs'.2, hs.3.trans hs'.3, hs.4.trans hs'.4,
      hs.5.trans hs'.5, hs.6.trans hs'.6, hs.7.trans hs'.7⟩
  · exact ⟨hl.1.trans hl'.1, hl.2.trans hl'.2, hl.3.trans hl'.3, hl.4.trans hl'.4⟩

theorem SamePoint.ordinary {a b : Point} (h : SamePoint a b) (hb : b.Ordinary) : a.Ordinary := by
  unfold Point.Ordinary at hb ⊢
  rw [h._id]
  exact hb

theorem SamePoint.isDigitalEvent {a b : Point} (h : SamePoint a b) :
    a.isDigitalEvent = b.isDigitalEvent := by
  unfold Point.isDigitalEvent
  rw [h.settings.type, h.isEvent]

theorem apply_samePoint (op : BulkOp) (p : Point) : SamePoint (op.apply p) p :=
  ⟨BulkOp.apply_id op p, BulkOp.apply_isEvent op p, BulkOp.apply_settings op p,
    BulkOp.apply_limits op p⟩

theorem replaceSource_samePoint (u : SourceDataUpdate) (p : Point) :
    SamePoint (replaceSource u p) p :=
  ⟨rfl, rfl, ⟨rfl, rfl, rfl, rfl, rfl, rfl, rfl⟩, ⟨rfl, rfl, rfl, rfl⟩⟩

theorem clearAlarm_samePoint (p : Point) : SamePoint (clearAlarm p) p :=
  ⟨rfl, rfl, ⟨rfl, rfl, rfl, rfl, rfl, rfl, rfl⟩, ⟨rfl, rfl, rfl, rfl⟩⟩

theorem resetEvent_samePoint (p : Point) : SamePoint (resetEvent p) p :=
  ⟨rfl, rfl, ⟨rfl, rfl, rfl, rfl, rfl, rfl, rfl⟩, ⟨rfl, rfl, rfl, rfl⟩⟩

theorem ackAllAlarms_samePoint (p : Point) : SamePoint (ackAllAlarms p) p := by
  unfold ackAllAlarms
  simp only []
  split
  · exact (resetEvent_samePoint _).trans (clearAlarm_samePoint p)
  · exact clearAlarm_samePoint p

theorem ackOneAlarm_samePoint (p : Point) : SamePoint (ackOneAlarm p) p := by
  unfold ackOneAlarm
  simp only []
  split
  · exact (resetEvent_samePoint _).trans (clearAlarm_samePoint p)
  · exact clearAlarm_samePoint p

theorem silence_samePoint (op : SilenceOp) (p : Point) : SamePoint (op.apply p) p := by
  have hzero : SamePoint (zeroBeep p) p :=
    ⟨rfl, rfl, ⟨rfl, rfl, rfl, rfl, rfl, rfl, rfl⟩, ⟨rfl, rfl, rfl, rfl⟩⟩
  unfold SilenceOp.apply
  split
  · cases op with
    | pullAll gs => exact ⟨rfl, rfl, ⟨rfl, rfl, rfl, rfl, rfl, rfl, rfl⟩, ⟨rfl, rfl, rfl, rfl⟩⟩
    | zeroIfEmpty =>
      show SamePoint (if p.beepGroup1List = some [] then zeroBeep p else p) p
      split
      · exact hzero
      · exact SamePoint.refl p
    | clear => exact ⟨rfl, rfl, ⟨rfl, rfl, rfl, rfl, rfl, rfl, rfl⟩, ⟨rfl, rfl, rfl, rfl⟩⟩
  · exact SamePoint.refl p

/-- Every document in the feed is one of the point `doc`, every waiting update is
for it, and the events not delivered yet are the writes not handled yet. -/
structure Serves (doc : Point) (s : Feed) : Prop where
  stored : SamePoint s.db.stored doc
  documents : ∀ e ∈ s.events, ∀ p, e.fullDocument = some p → SamePoint p doc
  waiting : ∀ u, .setPoint u ∈ s.db.pending bulkOps → u._id = doc._id
  writes : s.written = s.handled ++ s.events.map ChangeEvent.sourceDataUpdate

theorem serves_start (doc : Point) (count : ℕ) : Serves doc (start doc count) where
  stored := SamePoint.refl doc
  documents := by intro e he; cases he
  waiting := by intro u hu; cases hu
  writes := rfl

theorem Serves.newest {doc : Point} {s : Feed} (h : Serves doc s) : SamePoint s.newest doc :=
  Buffer.newest_invariant s.db (fun op _ p hp => (apply_samePoint op p).trans hp) h.stored

theorem Serves.due {doc p : Point} {u : SourceDataUpdate} {s : Feed} (h : Serves doc s)
    (hd : due s = some (p, u)) : SamePoint p doc := by
  unfold PointFeed.due at hd
  split at hd
  · rename_i v q rest heq
    obtain ⟨rfl, rfl⟩ : q = p ∧ v = u := by simpa using hd
    exact h.documents ⟨v, some q⟩ (by simp [heq]) q rfl
  · cases hd

/-- The updates a delivery enqueues are those of the point, beeps and counts apart. -/
theorem mem_bulkOps_change {clock : Clock} {count : ℕ} {doc : Point} {sdu : SourceDataUpdate}
    {u : PointUpdate} (h : .setPoint u ∈ (change clock count doc sdu).enqueued.flatMap bulkOps) :
    accepted doc sdu (readUpdate clock doc sdu) = true ∧
      stored doc (readUpdate clock doc sdu) = true ∧
      u = pointUpdate clock doc sdu (readUpdate clock doc sdu) := by
  obtain ⟨q, hq, hu⟩ := List.mem_flatMap.mp h
  obtain rfl : q = .point u := by
    cases q with
    | point v =>
      have hv : u = v := by simpa [bulkOps] using hu
      rw [hv]
    | beep b t g => simp [bulkOps] at hu
    | counter v t => simp [bulkOps] at hu
  have hbeep : .point u ∉ beepUpdate clock doc (readUpdate clock doc sdu) := by
    unfold beepUpdate
    split_ifs <;> simp
  have hcount : .point u ∉ counterUpdate clock count doc := by
    unfold counterUpdate
    split_ifs <;> simp
  obtain ⟨hacc, hq | hq | ⟨hst, hq⟩⟩ := mem_enqueued.mp hq
  · exact absurd hq hbeep
  · exact absurd hq hcount
  · exact ⟨hacc, hst, RtUpdate.point.inj hq⟩

theorem serves_step {doc : Point} {s t : Feed} {a : Label} (hs : Serves doc s)
    (h : step s a = some t) : Serves doc t := by
  cases a with
  | write u =>
    obtain rfl := Option.some.inj h
    refine ⟨(replaceSource_samePoint u _).trans hs.stored, ?_, hs.waiting, ?_⟩
    · intro e he p hp
      rcases List.mem_append.mp he with he | he
      · exact hs.documents e he p hp
      · obtain rfl := List.mem_singleton.mp he
        cases hp
    · simp [hs.writes]
  | lookup i =>
    obtain ⟨u, hi, rfl⟩ := step_lookup h
    refine ⟨hs.stored, ?_, hs.waiting, ?_⟩
    · intro e he p hp
      rcases List.mem_or_eq_of_mem_set he with he | rfl
      · exact hs.documents e he p hp
      · obtain rfl := Option.some.inj hp
        exact hs.stored
    · have hu : (s.events.map ChangeEvent.sourceDataUpdate)[i]? = some u := by simp [hi]
      obtain ⟨hlt, hget⟩ := List.getElem?_eq_some_iff.mp hu
      have hset := List.set_getElem_self hlt
      rw [hget] at hset
      rw [List.map_set, hset]
      exact hs.writes
  | deliver clock =>
    obtain ⟨p, u, hd, hev, rfl⟩ := step_deliver h
    have hp := hs.due hd
    refine ⟨hs.stored, ?_, ?_, ?_⟩
    · intro e he
      exact hs.documents e (hev ▸ List.mem_cons_of_mem _ he)
    · intro v hv
      simp only [deliver, Buffer.pending_enqueue, List.mem_append] at hv
      rcases hv with hv | hv
      · exact hs.waiting v hv
      · obtain ⟨-, -, rfl⟩ := mem_bulkOps_change hv
        exact hp._id
    · have hw := hs.writes
      rw [hev] at hw
      simpa [deliver] using hw
  | drain =>
    obtain rfl := Option.some.inj h
    refine ⟨hs.stored, hs.documents, ?_, hs.writes⟩
    intro u hu
    rw [Buffer.pending_drain] at hu
    exact hs.waiting u hu
  | apply =>
    obtain ⟨db, hdb, rfl⟩ := step_apply h
    obtain ⟨op, hop, hst⟩ := @Buffer.applyNext_eq_some _ _ _ bulkOps BulkOp.apply s.db db hdb
    refine ⟨?_, hs.documents, ?_, hs.writes⟩
    · rw [hst]
      exact (apply_samePoint op _).trans hs.stored
    · intro u hu
      exact hs.waiting u (hop ▸ List.mem_cons_of_mem op hu)
  | ackOne =>
    obtain rfl := Option.some.inj h
    exact ⟨(ackOneAlarm_samePoint _).trans hs.stored, hs.documents, hs.waiting, hs.writes⟩
  | ackAll =>
    obtain rfl := Option.some.inj h
    exact ⟨(ackAllAlarms_samePoint _).trans hs.stored, hs.documents, hs.waiting, hs.writes⟩
  | silence op =>
    obtain rfl := Option.some.inj h
    exact ⟨(silence_samePoint op _).trans hs.stored, hs.documents, hs.waiting, hs.writes⟩

/-- What the entries of a change do to a document of its point: nothing when the update
is dropped or not stored, one update otherwise. -/
theorem applyAll_enqueued {p x : Point} {u : SourceDataUpdate} {clock : Clock} {count : ℕ}
    (hid : p._id = x._id) (hx : x.Ordinary) :
    applyAll ((change clock count p u).enqueued.flatMap bulkOps) x =
      if accepted p u (readUpdate clock p u) && stored p (readUpdate clock p u) then
        (BulkOp.setPoint (pointUpdate clock p u (readUpdate clock p u))).update x
      else x := by
  have hother : ∀ q : RtUpdate, isPoint q = false → applyAll (bulkOps q) x = x := by
    intro q hq
    cases q with
    | point v => cases hq
    | beep b t g =>
      simp only [bulkOps, applyAll_cons, applyAll_nil]
      rw [BulkOp.apply_of_ordinary hx (by simp), BulkOp.apply_of_ordinary hx (by simp)]
    | counter v t =>
      simp only [bulkOps, applyAll_cons, applyAll_nil]
      rw [BulkOp.apply_of_ordinary hx (by simp)]
  have hbeep : applyAll ((beepUpdate clock p (readUpdate clock p u)).flatMap bulkOps) x = x := by
    unfold beepUpdate
    split_ifs <;> first | rfl | simpa using hother _ rfl
  have hcount : applyAll ((counterUpdate clock count p).flatMap bulkOps) x = x := by
    unfold counterUpdate
    split_ifs <;> first | rfl | simpa using hother _ rfl
  simp only [change]
  cases hacc : accepted p u (readUpdate clock p u) with
  | false => rfl
  | true =>
    rw [if_pos rfl, List.flatMap_append, List.flatMap_append, applyAll_append, applyAll_append,
      hbeep, hcount]
    cases hst : stored p (readUpdate clock p u) with
    | false => rfl
    | true => exact BulkOp.apply_setPoint hid

theorem stored_of_not_event {p : Point} {r : Reading} (hpe : p.isDigitalEvent = false) :
    stored p r = true := by
  unfold Point.isDigitalEvent at hpe
  rw [Bool.and_comm] at hpe
  simp [stored, hpe]

/-- What the entries of a change do to a document of its point: nothing when the update
is dropped, one update otherwise. -/
theorem applyAll_change {p x : Point} {u : SourceDataUpdate} {clock : Clock} {count : ℕ}
    (hid : p._id = x._id) (hx : x.Ordinary) (hpe : p.isDigitalEvent = false) :
    applyAll ((change clock count p u).enqueued.flatMap bulkOps) x =
      if accepted p u (readUpdate clock p u) then
        (BulkOp.setPoint (pointUpdate clock p u (readUpdate clock p u))).update x
      else x := by
  rw [applyAll_enqueued hid hx, stored_of_not_event hpe, Bool.and_true]

/-- The newest document after a delivery is the newest one with the entries applied. -/
theorem newest_deliver_eq {p : Point} {u : SourceDataUpdate} {clock : Clock} {s : Feed}
    {events : List ChangeEvent} : (deliver clock p u events s).newest =
      applyAll ((change clock s.digitalUpdatesCount p u).enqueued.flatMap bulkOps) s.newest :=
  Buffer.newest_enqueue s.db _

/-- What a delivery does to the newest document of its point: nothing when the
update is dropped, one update otherwise. -/
theorem newest_deliver {doc p : Point} {u : SourceDataUpdate} {clock : Clock} {s : Feed}
    {events : List ChangeEvent} (hs : Serves doc s) (hp : SamePoint p doc) (hd : doc.Ordinary)
    (he : doc.isDigitalEvent = false) :
    (deliver clock p u events s).newest =
      if accepted p u (readUpdate clock p u) then
        (BulkOp.setPoint (pointUpdate clock p u (readUpdate clock p u))).update s.newest
      else s.newest := by
  rw [newest_deliver_eq]
  exact applyAll_change (hp._id.trans hs.newest._id.symm) (hs.newest.ordinary hd)
    (hp.isDigitalEvent.trans he)

/-- Steps other than a delivery leave the image of the newest document and the
record of deliveries. -/
structure Frame (s t : Feed) : Prop where
  newest : SameImage t.newest s.newest
  handled : t.handled = s.handled
  pointUpdates : t.pointUpdates = s.pointUpdates
  limitEvents : t.limitEvents = s.limitEvents

theorem step_frame {doc : Point} {s t : Feed} {a : Label} (hs : Serves doc s)
    (hd : doc.Ordinary) (he : doc.isDigitalEvent = false) (ha : ∀ clock, a ≠ .deliver clock) (h : step s a = some t) :
    Frame s t := by
  have hev : s.db.stored.isDigitalEvent = false := hs.stored.isDigitalEvent.trans he
  have hedit : ∀ f : Point → Point, SameImage (f s.db.stored) s.db.stored →
      SameImage ((s.db.edit f).newest bulkOps BulkOp.apply) s.newest := by
    intro f hf
    exact Buffer.newest_edit_related apply_sameImage s.db f hf
  cases a with
  | write u =>
    obtain rfl := Option.some.inj h
    exact ⟨hedit _ ⟨rfl, rfl, rfl, rfl, rfl, id⟩, rfl, rfl, rfl⟩
  | lookup i =>
    obtain ⟨u, hi, rfl⟩ := step_lookup h
    exact ⟨SameImage.refl _, rfl, rfl, rfl⟩
  | deliver clock => exact absurd rfl (ha clock)
  | drain =>
    obtain rfl := Option.some.inj h
    have hn := @Buffer.newest_drain _ _ _ bulkOps BulkOp.apply s.db
    refine ⟨?_, rfl, rfl, rfl⟩
    show SameImage ((s.db.drain bulkOps).newest bulkOps BulkOp.apply) s.newest
    rw [hn]
    exact SameImage.refl _
  | apply =>
    obtain ⟨db, hdb, rfl⟩ := step_apply h
    refine ⟨?_, rfl, rfl, rfl⟩
    show SameImage (db.newest bulkOps BulkOp.apply) s.newest
    rw [Buffer.newest_applyNext hdb]
    exact SameImage.refl _
  | ackOne =>
    obtain rfl := Option.some.inj h
    refine ⟨hedit _ ?_, rfl, rfl, rfl⟩
    rw [ackOneAlarm_eq_clearAlarm hev]
    exact ⟨rfl, rfl, rfl, rfl, rfl, fun _ => rfl⟩
  | ackAll =>
    obtain rfl := Option.some.inj h
    refine ⟨hedit _ ?_, rfl, rfl, rfl⟩
    rw [ackAllAlarms_eq_clearAlarm hev]
    exact ⟨rfl, rfl, rfl, rfl, rfl, fun _ => rfl⟩
  | silence op =>
    obtain rfl := Option.some.inj h
    refine ⟨hedit _ ?_, rfl, rfl, rfl⟩
    rw [SilenceOp.apply_of_ordinary (hs.stored.ordinary hd)]
    exact SameImage.refl _

/-- An accepted update enqueues one update of its point, a dropped one none. -/
theorem pointUpdates_deliver {p : Point} {u : SourceDataUpdate} {clock : Clock} {s : Feed}
    {events : List ChangeEvent} (he : p.isDigitalEvent = false) :
    (deliver clock p u events s).pointUpdates =
      s.pointUpdates + if accepted p u (readUpdate clock p u) then 1 else 0 := by
  have hst : stored p (readUpdate clock p u) = true := stored_of_not_event he
  have hbeep : (beepUpdate clock p (readUpdate clock p u)).filter isPoint = [] := by
    unfold beepUpdate
    split_ifs <;> rfl
  have hcount : (counterUpdate clock s.digitalUpdatesCount p).filter isPoint = [] := by
    unfold counterUpdate
    split_ifs <;> rfl
  simp only [deliver, change, hst, if_true]
  split_ifs
  · rw [List.filter_append, List.filter_append, hbeep, hcount]
    rfl
  · rfl

/-- What a delivery does to the value and the alarm range of a point with limits, and
the limit events it inserts. -/
theorem deliver_limits {doc p : Point} {u : SourceDataUpdate} {clock : Clock} {s : Feed}
    {events : List ChangeEvent} {l : LimitSet} (hs : Serves doc s) (hp : SamePoint p doc)
    (hd : doc.Ordinary) (ht : doc.type = .analog) (hl : limitSet doc = some l) :
    let t := deliver clock p u events s
    let range := l.range p.alarmRange (convert p u).value
    (t.newest.value, t.newest.alarmRange) =
        (if accepted p u (readUpdate clock p u) then ((convert p u).value, .val range)
          else (s.newest.value, s.newest.alarmRange)) ∧
      t.limitEvents.length =
        s.limitEvents.length + if p.alarmRange.looseNe range then 1 else 0 := by
  intro t range
  have he : doc.isDigitalEvent = false := by simp [Point.isDigitalEvent, ht]
  have hpl : limitSet p = some l := (limitSet_congr hp.limits).trans hl
  obtain ⟨hrange, hevent⟩ :=
    @readUpdate_limits clock p u l (hp.settings.type.trans ht) hpl
  constructor
  · rw [newest_deliver hs hp hd he]
    split_ifs with hacc
    · show ((convert p u).value, DocField.val (readUpdate clock p u).alarmRange) = _
      rw [hrange]
    · rfl
  · show (s.limitEvents ++ (change clock s.digitalUpdatesCount p u).limitEvents).length = _
    rw [List.length_append]
    simp only [change, hevent]
    split_ifs <;> rfl

/-- A complete flush: everything queued is sent, and everything sent takes effect. -/
def flush (s : Feed) : List Label :=
  .drain :: List.replicate (s.db.pending bulkOps).length .apply

private theorem run_apply_all (s : Feed) (h : s.db.queued = []) :
    run step s (List.replicate s.db.sent.length .apply) =
      some { s with db := ⟨s.newest, [], []⟩ } := by
  obtain ⟨⟨stored, sent, queued⟩, events, count, written, handled, updates, limitEvents⟩ := s
  obtain rfl : queued = [] := h
  induction sent generalizing stored with
  | nil => rfl
  | cons op ops ih =>
    rw [List.length_cons, List.replicate_succ, run_cons_eq_some]
    exact ⟨_, rfl, ih (op.apply stored)⟩

/-- After a complete flush the store holds the newest document. -/
theorem run_flush (s : Feed) :
    run step s (flush s) = some { s with db := ⟨s.newest, [], []⟩ } := by
  have hrun := run_apply_all { s with db := s.db.drain bulkOps } rfl
  rw [flush, run_cons_eq_some]
  refine ⟨_, rfl, hrun.trans ?_⟩
  show some { s with db := ⟨(s.db.drain bulkOps).newest bulkOps BulkOp.apply, [], []⟩ } = _
  rw [Buffer.newest_drain]
  rfl

theorem newest_of_settled {s : Feed} (h : s.Settled) : s.newest = s.db.stored :=
  Buffer.newest_of_idle h.2

theorem handled_of_settled {doc : Point} {s : Feed} (hs : Serves doc s) (h : s.Settled) :
    s.handled = s.written := by
  rw [hs.writes, h.1]
  simp

section Example

def sampleClock : Clock := ⟨0, 1000⟩

def samplePoint : Point :=
  { _id := .fin 7, tag := "KAW2AL", type := .analog, unit := "kV", priority := .fin 3 }

/-- An analog point with limits, in alarm above the high one. -/
def limitedPoint : Point :=
  { samplePoint with
    hiLimit := .val (.fin 10), loLimit := .val (.fin 0), hysteresis := .val (.fin 1)
    value := .fin 12, alarmRange := .val (.fin 1), alarmed := true }

def sampleWrite (value : ℚ) : SourceDataUpdate :=
  { valueAtSource := .val (.fin value), timeTag := 900 }

/-- A write handled and flushed before anything else happens. -/
def sampleCycle (value : ℚ) : List Label :=
  [.write (sampleWrite value), .lookup 0, .deliver sampleClock, .drain, .apply]

end Example

end JsonScada.System.PointFeed
