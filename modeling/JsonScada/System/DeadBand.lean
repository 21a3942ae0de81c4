/- path: JsonScada/System/DeadBand
   source: src/cs_data_processor/cs_data_processor.js, insertIntoHistorian and sqlHistQueue
   digest: The records of the historian and the stored values stay within the dead band. -/

import Mathlib.Data.List.Chain
import JsonScada.System.PointFeed

set_option autoImplicit false
set_option relaxedAutoImplicit false

namespace JsonScada.System.DeadBand

open JsonScada.Lib.Binary64 JsonScada.Lib.Machine JsonScada.Lib.WriteBehind
open JsonScada.Model.Documents JsonScada.Processor.Convert JsonScada.Processor.Change
open JsonScada.Processor.Historian JsonScada.Processor.Flush JsonScada.Server.Acknowledge
open JsonScada.Server.Silence JsonScada.System.PointFeed

section Decision

variable {p x : Point} {u : SourceDataUpdate} {clock : Clock} {count : ℕ} {band : Number}

/-- An analog point with a period that is not negative and a positive dead band. -/
structure Banded (p : Point) (band : Number) : Prop where
  type : p.type = .analog
  period : ∃ period, p.historianPeriod = .val period ∧ Number.le (.fin 0) period = true
  deadBand : p.historianDeadBand = .val band
  positive : Number.lt (.fin 0) band = true

/-- A value is recorded when it is not within the dead band of the last one. -/
theorem insertIntoHistorian_iff (h : Banded p band) (hu : u.isNotForHistorical = false)
    {value : Number} : insertIntoHistorian p u value = true ↔
      ∀ last, p.historianLastValue = .val last → (value.sub last).abs.lt band.abs = false := by
  obtain ⟨period, hperiod, hle⟩ := h.period
  have hkept : period.lt (.fin 0) = false := Number.not_lt_of_le hle
  have hpos := h.positive
  rw [insertIntoHistorian, hperiod]
  simp only [DocField.toNumber, hkept, hu, h.deadBand, Bool.or_self]
  cases hlast : p.historianLastValue with
  | absent => simp
  | null => simp
  | val last => simp [h.type, hpos]

/-- The update goes to the historian. -/
def recorded (clock : Clock) (p : Point) (u : SourceDataUpdate) : Bool :=
  accepted p u (readUpdate clock p u) && insertIntoHistorian p u (convert p u).value

theorem hist_change : (change clock count p u).hist =
    if recorded clock p u then [histEntry p u (readUpdate clock p u)] else [] := rfl

/-- What the historian decides on in a document. -/
def historianFields (p : Point) : DocField Number × DocField Number × DocField Number :=
  (p.historianPeriod, p.historianDeadBand, p.historianLastValue)

/-- Only an update of the point itself sets a field of the historian. -/
theorem historianFields_apply {op : BulkOp} (hop : ∀ u, op ≠ .setPoint u) :
    historianFields (op.apply x) = historianFields x := by
  rw [BulkOp.apply]
  split_ifs
  · cases op with
    | setPoint u => exact absurd rfl (hop u)
    | setBeep b t => rfl
    | setCounter v t => rfl
    | addToSet g => rfl
  · rfl

theorem applyAll_historianFields {ops : List BulkOp}
    (hops : ∀ op ∈ ops, ∀ u, op ≠ .setPoint u) :
    historianFields (applyAll ops x) = historianFields x := by
  induction ops generalizing x with
  | nil => rfl
  | cons op ops ih =>
    rw [applyAll_cons, ih fun o ho => hops o (List.mem_cons_of_mem op ho),
      historianFields_apply (hops op List.mem_cons_self)]

theorem applyAll_id (ops : List BulkOp) (x : Point) : (applyAll ops x)._id = x._id := by
  induction ops generalizing x with
  | nil => rfl
  | cons op ops ih => rw [applyAll_cons, ih, BulkOp.apply_id]

/-- What the entries of a change do to the last value of the historian. -/
theorem applyAll_change_last (ht : p.type = .analog) (hid : p._id = x._id) :
    (applyAll ((change clock count p u).enqueued.flatMap bulkOps) x).historianLastValue =
      if recorded clock p u then .val (convert p u).value else x.historianLastValue := by
  have hbeep : ∀ op ∈ (beepUpdate clock p (readUpdate clock p u)).flatMap bulkOps,
      ∀ v, op ≠ .setPoint v := by
    rw [beepUpdate]
    split_ifs <;> simp [bulkOps]
  have hcount : counterUpdate clock count p = [] := by simp [counterUpdate, counts, ht]
  have hstored : stored p (readUpdate clock p u) = true := by simp [stored, ht]
  simp only [change, hcount, hstored, if_true, List.append_nil]
  by_cases hacc : accepted p u (readUpdate clock p u) = true
  · rw [if_pos hacc, List.flatMap_append, applyAll_append]
    set y := applyAll ((beepUpdate clock p (readUpdate clock p u)).flatMap bulkOps) x
    have hy : historianFields y = historianFields x := applyAll_historianFields hbeep
    have hyid : p._id = y._id := hid.trans (applyAll_id _ _).symm
    have hlast : y.historianLastValue = x.historianLastValue :=
      congrArg (fun fields => fields.2.2) hy
    have hone : applyAll ([RtUpdate.point (pointUpdate clock p u (readUpdate clock p u))].flatMap
        bulkOps) y = (BulkOp.setPoint (pointUpdate clock p u (readUpdate clock p u))).update y :=
      BulkOp.apply_setPoint hyid
    rw [hone, recorded, hacc, Bool.true_and, ← hlast]
    have hvalue : (readUpdate clock p u).conv = convert p u := rfl
    cases hins : insertIntoHistorian p u (convert p u).value with
    | true => simp [BulkOp.update, pointUpdate, ht, hvalue, hins]
    | false => simp [BulkOp.update, pointUpdate, hvalue, hins]
  · rw [if_neg hacc, recorded]
    simp [hacc]

end Decision

section Archive

/-- The feed of a point with the records queued for the historian, in order. -/
structure Archive where
  feed : Feed
  records : List HistEntry

def opened (doc : Point) (count : ℕ) : Archive := ⟨start doc count, []⟩

/-- What a step queues for the historian. -/
def queuedFor (s : Feed) : Label → List HistEntry
  | .deliver clock =>
    match due s with
    | some (p, u) => (change clock s.digitalUpdatesCount p u).hist
    | none => []
  | _ => []

def archiveStep (s : Archive) (a : Label) : Option Archive :=
  (step s.feed a).map fun t => ⟨t, s.records ++ queuedFor s.feed a⟩

/-- The previous update is flushed, and the document delivered is the one it left. -/
def Flushed (s : Feed) (_ : Clock) (p : Point) (_ : SourceDataUpdate) : Prop :=
  s.db.Idle ∧ p.historianLastValue = s.db.stored.historianLastValue

instance (s : Feed) (clock : Clock) (p : Point) (u : SourceDataUpdate) :
    Decidable (Flushed s clock p u) :=
  inferInstanceAs (Decidable ((_ ∧ _) ∧ _))

/-- The value of the last record; that of the document before the run while there is none. -/
def lastRecord (doc : Point) (records : List HistEntry) : DocField Number :=
  match records.getLast? with
  | some entry => .val entry.value
  | none => doc.historianLastValue

/-- The values recorded, with the one the document came with. -/
def recordedValues (doc : Point) (records : List HistEntry) : List Number :=
  doc.historianLastValue.given.toList ++ records.map HistEntry.value

/-- The difference of finite values, a double again, is the dead band at least. -/
def Apart (band a b : Number) : Prop :=
  a.IsFinite → b.IsFinite → Number.le band.abs (b.sub a).abs = true

/-- A value that is stored and not recorded is within the dead band of the last record. -/
def StoredWithin (doc : Point) (band : Number) (s : Archive) (a : Label) : Prop :=
  OnDelivery (fun feed clock p u => ∀ v : PointUpdate,
    .point v ∈ (change clock feed.digitalUpdatesCount p u).enqueued →
    (change clock feed.digitalUpdatesCount p u).hist = [] →
    ∃ last, lastRecord doc s.records = .val last ∧
      (v.value.sub last).abs.lt band.abs = true) s.feed a

variable {doc : Point} {records : List HistEntry} {entry : HistEntry} {band : Number}

theorem lastRecord_append : lastRecord doc (records ++ [entry]) = .val entry.value := by
  rw [lastRecord, List.getLast?_concat]

/-- The last record is the last of the values. -/
theorem mem_getLast?_recordedValues {x : Number} :
    x ∈ (recordedValues doc records).getLast? ↔ lastRecord doc records = .val x := by
  rw [recordedValues, lastRecord]
  cases records using List.reverseRecOn with
  | nil => cases hlast : doc.historianLastValue <;> simp [DocField.given]
  | append_singleton records entry => simp [List.getLast?_append]

/-- Numbers that are not within the dead band of each other. -/
theorem apart_of_not_lt (hpos : Number.lt (.fin 0) band = true) {a b : Number}
    (h : (b.sub a).abs.lt band.abs = false) : Apart band a b := by
  intro ha hb
  have hband : band.abs ≠ .nan := by
    cases band with
    | nan => cases hpos
    | inf s => simp [Number.abs]
    | fin q => simp [Number.abs]
  have hdiff : (b.sub a).abs ≠ .nan := by
    cases a with
    | nan => cases ha
    | inf s => cases ha
    | fin q =>
      cases b with
      | nan => cases hb
      | inf s => cases hb
      | fin r =>
        intro hnan
        have hround := round_ne_nan binary64 (r + -q)
        rw [Number.sub, Number.neg, Number.add] at hnan
        cases hr : round binary64 (r + -q) with
        | nan => exact hround hr
        | inf s =>
          rw [hr] at hnan
          cases hnan
        | fin d =>
          rw [hr] at hnan
          cases hnan
  exact Number.le_of_not_lt hdiff hband h

end Archive

section Runs

variable {doc : Point} {band : Number} {s t : Archive} {a : Label}

/-- The settings of the historian are the same in two documents. -/
structure SameBand (a b : Point) : Prop where
  period : a.historianPeriod = b.historianPeriod
  deadBand : a.historianDeadBand = b.historianDeadBand

theorem SameBand.of_fields {a b : Point} (h : historianFields a = historianFields b) :
    SameBand a b :=
  ⟨congrArg Prod.fst h, congrArg (fun fields => fields.2.1) h⟩

theorem SameBand.trans {a b c : Point} (h : SameBand a b) (h' : SameBand b c) : SameBand a c :=
  ⟨h.period.trans h'.period, h.deadBand.trans h'.deadBand⟩

theorem Banded.of_same {p : Point} (h : Banded doc band) (htype : p.type = doc.type)
    (hsame : SameBand p doc) : Banded p band where
  type := htype.trans h.type
  period := hsame.period ▸ h.period
  deadBand := hsame.deadBand.trans h.deadBand
  positive := h.positive

theorem sameBand_apply (op : BulkOp) (p : Point) : SameBand (op.apply p) p := by
  cases op with
  | setPoint u =>
    rw [BulkOp.apply]
    split_ifs
    · exact ⟨rfl, rfl⟩
    · exact ⟨rfl, rfl⟩
  | setBeep b t => exact .of_fields (historianFields_apply (by simp))
  | setCounter v t => exact .of_fields (historianFields_apply (by simp))
  | addToSet g => exact .of_fields (historianFields_apply (by simp))

/-- The same point with the same last value. -/
structure SameLast (a b : Point) : Prop where
  _id : a._id = b._id
  last : a.historianLastValue = b.historianLastValue

theorem sameLast_apply (op : BulkOp) (a b : Point) (h : SameLast a b) :
    SameLast (op.apply a) (op.apply b) := by
  refine ⟨by rw [BulkOp.apply_id, BulkOp.apply_id, h._id], ?_⟩
  rw [BulkOp.apply, BulkOp.apply, h._id]
  split_ifs
  · cases op with
    | setPoint u =>
      have hlast := h.last
      cases hu : u.historianLastValue <;> simp [BulkOp.update, hu, hlast]
    | setBeep b t => exact h.last
    | setCounter v t => exact h.last
    | addToSet g => exact h.last
  · exact h.last

/-- The edits of the other processes leave the fields of the historian. -/
theorem historianFields_ackOneAlarm (p : Point) :
    historianFields (ackOneAlarm p) = historianFields p := by
  rw [ackOneAlarm]
  split_ifs <;> rfl

theorem historianFields_ackAllAlarms (p : Point) :
    historianFields (ackAllAlarms p) = historianFields p := by
  rw [ackAllAlarms]
  split_ifs <;> rfl

theorem historianFields_silence (op : SilenceOp) (p : Point) :
    historianFields (op.apply p) = historianFields p := by
  rw [SilenceOp.apply]
  split_ifs
  · cases op with
    | pullAll gs => rfl
    | zeroIfEmpty =>
      change historianFields (if p.beepGroup1List = some [] then zeroBeep p else p) = _
      split_ifs <;> rfl
    | clear => rfl
  · rfl

/-- An edit that leaves the fields of the historian leaves those of the newest document. -/
theorem newest_edit_last {feed : Feed} {f : Point → Point}
    (hid : (f feed.db.stored)._id = feed.db.stored._id)
    (hf : historianFields (f feed.db.stored) = historianFields feed.db.stored) :
    ((feed.db.edit f).newest bulkOps BulkOp.apply).historianLastValue =
      feed.newest.historianLastValue := by
  have hsame : SameLast (f feed.db.stored) feed.db.stored :=
    ⟨hid, congrArg (fun fields => fields.2.2) hf⟩
  exact (Buffer.newest_edit_related sameLast_apply feed.db f hsame).last

/-- What a run keeps: the settings in every document, the last value with the last record, and the
records apart. -/
structure Kept (doc : Point) (band : Number) (s : Archive) : Prop where
  serves : Serves doc s.feed
  stored : SameBand s.feed.db.stored doc
  documents : ∀ e ∈ s.feed.events, ∀ p, e.fullDocument = some p → SameBand p doc
  forHistorian : ∀ u ∈ s.feed.written, u.isNotForHistorical = false
  last : s.feed.newest.historianLastValue = lastRecord doc s.records
  apart : (recordedValues doc s.records).IsChain (Apart band)

theorem kept_opened (doc : Point) (band : Number) (count : ℕ) :
    Kept doc band (opened doc count) where
  serves := serves_start doc count
  stored := ⟨rfl, rfl⟩
  documents e he := by cases he
  forHistorian u hu := by cases hu
  last := rfl
  apart := by
    rw [recordedValues]
    cases doc.historianLastValue <;> simp [DocField.given, opened]

/-- A step other than a delivery keeps the last value. -/
theorem step_last {feed next : Feed} (ha : ∀ clock, a ≠ .deliver clock)
    (h : step feed a = some next) :
    next.newest.historianLastValue = feed.newest.historianLastValue := by
  cases a with
  | write u =>
    obtain rfl := Option.some.inj h
    exact newest_edit_last rfl rfl
  | lookup i =>
    obtain ⟨u, -, rfl⟩ := step_lookup h
    rfl
  | deliver clock => exact absurd rfl (ha clock)
  | drain =>
    obtain rfl := Option.some.inj h
    exact congrArg Point.historianLastValue (Buffer.newest_drain _)
  | apply =>
    obtain ⟨db, hdb, rfl⟩ := step_apply h
    exact congrArg Point.historianLastValue (Buffer.newest_applyNext hdb)
  | ackOne =>
    obtain rfl := Option.some.inj h
    exact newest_edit_last (ackOneAlarm_samePoint _)._id (historianFields_ackOneAlarm _)
  | ackAll =>
    obtain rfl := Option.some.inj h
    exact newest_edit_last (ackAllAlarms_samePoint _)._id (historianFields_ackAllAlarms _)
  | silence op =>
    obtain rfl := Option.some.inj h
    exact newest_edit_last (silence_samePoint op _)._id (historianFields_silence op _)

/-- The settings stay the same in every document, whatever the step. -/
theorem step_settings {feed next : Feed} (hstored : SameBand feed.db.stored doc)
    (hdocuments : ∀ e ∈ feed.events, ∀ p, e.fullDocument = some p → SameBand p doc)
    (h : step feed a = some next) : SameBand next.db.stored doc ∧
      ∀ e ∈ next.events, ∀ p, e.fullDocument = some p → SameBand p doc := by
  cases a with
  | write u =>
    obtain rfl := Option.some.inj h
    refine ⟨⟨hstored.period, hstored.deadBand⟩, fun e he p hp => ?_⟩
    rcases List.mem_append.mp he with he | he
    · exact hdocuments e he p hp
    · obtain rfl := List.mem_singleton.mp he
      cases hp
  | lookup i =>
    obtain ⟨u, hi, rfl⟩ := step_lookup h
    refine ⟨hstored, fun e he p hp => ?_⟩
    rcases List.mem_or_eq_of_mem_set he with he | rfl
    · exact hdocuments e he p hp
    · obtain rfl := Option.some.inj hp
      exact hstored
  | deliver clock =>
    obtain ⟨p, u, -, hevents, rfl⟩ := step_deliver h
    refine ⟨hstored, fun e he => hdocuments e ?_⟩
    rw [hevents]
    exact List.mem_cons_of_mem _ he
  | drain =>
    obtain rfl := Option.some.inj h
    exact ⟨hstored, hdocuments⟩
  | apply =>
    obtain ⟨db, hdb, rfl⟩ := step_apply h
    obtain ⟨op, -, hst⟩ := @Buffer.applyNext_eq_some _ _ _ bulkOps BulkOp.apply feed.db db hdb
    refine ⟨?_, hdocuments⟩
    rw [hst]
    exact (sameBand_apply op _).trans hstored
  | ackOne =>
    obtain rfl := Option.some.inj h
    exact ⟨(SameBand.of_fields (historianFields_ackOneAlarm _)).trans hstored, hdocuments⟩
  | ackAll =>
    obtain rfl := Option.some.inj h
    exact ⟨(SameBand.of_fields (historianFields_ackAllAlarms _)).trans hstored, hdocuments⟩
  | silence op =>
    obtain rfl := Option.some.inj h
    exact ⟨(SameBand.of_fields (historianFields_silence op _)).trans hstored, hdocuments⟩

/-- The steps of the run: writes that are for the historian, and deliveries one flush after the
other. -/
def Admissible (s : Archive) (a : Label) : Prop :=
  (∀ u ∈ writes a, u.isNotForHistorical = false) ∧ OnDelivery Flushed s.feed a

/-- What is known of a delivery in such a run. -/
theorem Kept.delivery (h : Kept doc band s) (hdoc : Banded doc band) {clock : Clock} {p : Point}
    {u : SourceDataUpdate} (hdue : due s.feed = some (p, u))
    (hevents : s.feed.events = ⟨u, some p⟩ :: s.feed.events.tail)
    (hflushed : Flushed s.feed clock p u) :
    Banded p band ∧ u.isNotForHistorical = false ∧
      p.historianLastValue = lastRecord doc s.records := by
  have hmem : (⟨u, some p⟩ : ChangeEvent) ∈ s.feed.events := by
    rw [hevents]
    exact List.mem_cons_self
  refine ⟨hdoc.of_same (h.serves.due hdue).settings.type (h.documents _ hmem p rfl),
    h.forHistorian u ?_, ?_⟩
  · rw [h.serves.writes]
    exact List.mem_append_right _ (List.mem_map_of_mem hmem)
  · have hnewest : s.feed.newest = s.feed.db.stored := Buffer.newest_of_idle hflushed.1
    rw [hflushed.2, ← hnewest]
    exact h.last

/-- What one step keeps. -/
theorem kept_step (hdoc : Banded doc band) (h : Kept doc band s) (ha : Admissible s a)
    (hstep : archiveStep s a = some t) : Kept doc band t := by
  obtain ⟨next, hnext, rfl⟩ := Option.map_eq_some_iff.mp hstep
  obtain ⟨hstored, hdocuments⟩ := step_settings h.stored h.documents hnext
  have hwritten : ∀ u ∈ next.written, u.isNotForHistorical = false := by
    intro u hu
    rw [step_written hnext] at hu
    rcases List.mem_append.mp hu with hu | hu
    · exact h.forHistorian u hu
    · exact ha.1 u hu
  have hserves := serves_step h.serves hnext
  by_cases hdel : ∃ clock, a = .deliver clock
  · obtain ⟨clock, rfl⟩ := hdel
    obtain ⟨p, u, hdue, hevents, rfl⟩ := step_deliver hnext
    obtain ⟨hp, hu, hlast⟩ := h.delivery hdoc hdue hevents (ha.2 (p, u) hdue)
    have hqueued : queuedFor s.feed (.deliver clock) =
        if recorded clock p u then [histEntry p u (readUpdate clock p u)] else [] := by
      rw [queuedFor, hdue]
      exact hist_change
    have hnewest : (deliver clock p u s.feed.events.tail s.feed).newest.historianLastValue =
        if recorded clock p u then .val (convert p u).value
        else s.feed.newest.historianLastValue := by
      have hid : p._id = s.feed.newest._id :=
        (h.serves.due hdue)._id.trans h.serves.newest._id.symm
      rw [← applyAll_change_last hp.type hid]
      exact congrArg Point.historianLastValue (Buffer.newest_enqueue s.feed.db _)
    rw [hqueued]
    by_cases hrec : recorded clock p u = true
    · rw [if_pos hrec] at hnewest ⊢
      refine ⟨hserves, hstored, hdocuments, hwritten, ?_, ?_⟩
      · rw [lastRecord_append]
        exact hnewest
      · rw [recordedValues, List.map_append, ← List.append_assoc]
        refine h.apart.append (List.isChain_singleton _) fun x hx y hy => ?_
        obtain rfl : (convert p u).value = y := Option.some.inj hy
        rw [mem_getLast?_recordedValues, ← hlast] at hx
        have hins := (Bool.and_eq_true_iff.mp hrec).2
        exact apart_of_not_lt hp.positive ((insertIntoHistorian_iff hp hu).mp hins x hx)
    · rw [if_neg hrec] at hnewest ⊢
      rw [List.append_nil]
      exact ⟨hserves, hstored, hdocuments, hwritten, hnewest.trans h.last, h.apart⟩
  · have hother : ∀ clock, a ≠ .deliver clock := fun clock hc => hdel ⟨clock, hc⟩
    have hqueued : queuedFor s.feed a = [] := by
      cases a with
      | deliver clock => exact absurd rfl (hother clock)
      | write | lookup | drain | apply | ackOne | ackAll | silence => rfl
    rw [hqueued, List.append_nil]
    exact ⟨hserves, hstored, hdocuments, hwritten, (step_last hother hnext).trans h.last, h.apart⟩

/-- A value that a delivery stores without a record is within the dead band. -/
theorem Kept.storedWithin (hdoc : Banded doc band) (h : Kept doc band s) (ha : Admissible s a) :
    StoredWithin doc band s a := by
  cases a with
  | deliver clock =>
    intro e hdue v hv hnone
    obtain ⟨p, u⟩ := e
    have hevents : s.feed.events = ⟨u, some p⟩ :: s.feed.events.tail := by
      rw [due] at hdue
      split at hdue
      · rename_i u' p' events heq
        obtain ⟨rfl, rfl⟩ := Prod.mk.inj (Option.some.inj hdue)
        rw [heq]
        rfl
      · cases hdue
    obtain ⟨hp, hu, hlast⟩ := h.delivery hdoc hdue hevents (ha.2 (p, u) hdue)
    obtain ⟨hacc, -, rfl⟩ := mem_bulkOps_change
      (List.mem_flatMap.mpr ⟨_, hv, List.mem_singleton_self _⟩)
    have hins : ¬ insertIntoHistorian p u (convert p u).value = true := by
      intro hins
      rw [hist_change, recorded, hacc, hins] at hnone
      cases hnone
    rw [insertIntoHistorian_iff hp hu] at hins
    simp only [not_forall, Bool.not_eq_false] at hins
    obtain ⟨last, hval, hlt⟩ := hins
    exact ⟨last, hlast ▸ hval, hlt⟩
  | write | lookup | drain | apply | ackOne | ackAll | silence => trivial

/-- The updates of a banded point flushed one by one: with nothing waiting the stored last value is
that of the last record, consecutive records are the dead band apart, and what is stored without a
record is within the dead band of the last record. -/
theorem dead_band (hdoc : Banded doc band) {count : ℕ} {labels : List Label}
    (hw : ∀ a ∈ labels, ∀ u ∈ writes a, u.isNotForHistorical = false)
    (hflushed : Every archiveStep (fun s a => OnDelivery Flushed s.feed a) (opened doc count) labels)
    (hrun : run archiveStep (opened doc count) labels = some t) :
    (t.feed.db.Idle → t.feed.db.stored.historianLastValue = lastRecord doc t.records) ∧
      (recordedValues doc t.records).IsChain (Apart band) ∧
      Every archiveStep (StoredWithin doc band) (opened doc count) labels := by
  have hadm : Every archiveStep Admissible (opened doc count) labels :=
    (every_of_forall_mem hw).and hflushed
  have hstart := kept_opened doc band count
  have hkept : Kept doc band t :=
    run_invariant (fun s a t ha hs h => kept_step hdoc hs ha h) hadm hstart hrun
  refine ⟨fun hidle => ?_, hkept.apart, ?_⟩
  · have hnewest : t.feed.newest = t.feed.db.stored := Buffer.newest_of_idle hidle
    rw [← hnewest]
    exact hkept.last
  · have hboth := hadm.strengthen (fun s a t ha hs h => kept_step hdoc hs ha h) hstart
    exact hboth.imp fun s a hs => hs.2.storedWithin hdoc hs.1

/-- A voltage with a dead band of two. -/
def voltage : Point :=
  { samplePoint with
    historianPeriod := .val (.fin 0), historianDeadBand := .val (.fin 2)
    historianLastValue := .null }

/-- It rises to 5, drifts to 6 and on to 8. -/
def drift : List Label := sampleCycle 5 ++ sampleCycle 6 ++ sampleCycle 8

theorem drift_recorded : ∃ t, run archiveStep (opened voltage 0) drift = some t ∧
    recordedValues voltage t.records = [.fin 5, .fin 8] ∧
    [Number.fin 5, .fin 8].IsChain (Apart (.fin 2)) ∧
    t.feed.db.stored.historianLastValue = lastRecord voltage t.records := by
  have hdoc : Banded voltage (.fin 2) := ⟨rfl, ⟨.fin 0, rfl, by decide⟩, rfl, by decide⟩
  obtain ⟨t, ht⟩ : ∃ t, run archiveStep (opened voltage 0) drift = some t :=
    Option.isSome_iff_exists.mp (by decide +kernel)
  have hvalues : (run archiveStep (opened voltage 0) drift).map
      (fun t => recordedValues voltage t.records) = some [.fin 5, .fin 8] := by decide +kernel
  have hbuffer : (run archiveStep (opened voltage 0) drift).map
      (fun t => (t.feed.db.sent, t.feed.db.queued)) = some ([], []) := by decide +kernel
  rw [ht] at hvalues hbuffer
  have hvalues : recordedValues voltage t.records = [.fin 5, .fin 8] := Option.some.inj hvalues
  have hidle : t.feed.db.Idle := Prod.mk.inj (Option.some.inj hbuffer)
  obtain ⟨hlast, hapart, -⟩ :=
    @dead_band voltage (.fin 2) t hdoc 0 drift (by decide) (by decide +kernel) ht
  rw [hvalues] at hapart
  exact ⟨t, ht, hvalues, hapart, hlast hidle⟩

end Runs

end JsonScada.System.DeadBand
