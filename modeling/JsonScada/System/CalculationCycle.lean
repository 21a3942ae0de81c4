/- path: JsonScada/System/CalculationCycle
   source: src/calculations/calculations.go; src/cs_data_processor/cs_data_processor.js
   digest: A calculation cycle whose updates are all delivered and flushed, in any schedule. -/

import JsonScada.Calculations.Engine
import JsonScada.System.Convergence

set_option autoImplicit false
set_option relaxedAutoImplicit false

namespace JsonScada.System.CalculationCycle

open JsonScada.Lib.Binary64 JsonScada.Lib.Machine JsonScada.Lib.WriteBehind
open JsonScada.Model.Documents JsonScada.Calculations.Formulas JsonScada.Calculations.Engine
open JsonScada.Processor.Convert JsonScada.Processor.Change JsonScada.Processor.Flush
open JsonScada.System.PointFeed JsonScada.System.Convergence

/-- The change event of one point. Its document is looked up some time after the write. -/
structure PointEvent where
  id : ℤ
  sourceDataUpdate : SourceDataUpdate
  fullDocument : Option Point
  deriving DecidableEq

/-- The collection with the processor's writes on their way to it, and the events not
delivered yet. -/
structure Handling where
  db : Buffer Docs BulkOp RtUpdate
  events : List PointEvent
  digitalUpdatesCount : ℕ

/-- A lookup for one event, the delivery of the oldest, and the two halves of a flush. -/
inductive Label where
  | lookup (i : ℕ)
  | deliver (clock : Clock)
  | drain
  | apply

/-- A write on the collection: it changes the document its filter selects. -/
def act (op : BulkOp) (docs : Docs) : Docs := fun id => (docs id).map op.apply

def step (s : Handling) : Label → Option Handling
  | .lookup i =>
    match s.events[i]? with
    | some ⟨id, u, none⟩ => some { s with events := s.events.set i ⟨id, u, s.db.stored id⟩ }
    | _ => none
  | .deliver clock =>
    match s.events with
    | ⟨_, u, some doc⟩ :: events =>
      let o := change clock s.digitalUpdatesCount doc u
      some
        { db := s.db.enqueue o.enqueued
          events := events
          digitalUpdatesCount := o.digitalUpdatesCount }
    | _ => none
  | .drain => some { s with db := s.db.drain bulkOps }
  | .apply => (s.db.applyNext act).map fun db => { s with db := db }

/-- What is left open in a cycle: the order of the map, the clock, and what the
processor does when. -/
structure Schedule where
  ids : List ℤ
  now : Number
  timeTag : ℤ → Date
  count : ℕ
  labels : List Label

/-- The state after the bulk write of the engine. -/
def afterWrite (c : Schedule) (docs : Docs) (written : List (ℤ × Update Number)) : Handling :=
  { db := ⟨bulkWrite c.timeTag written docs, [], []⟩
    events := written.map fun w => ⟨w.1, sourceDataUpdate (c.timeTag w.1) w.2, none⟩
    digitalUpdatesCount := c.count }

/-- One cycle of the engine, and all it wrote delivered and flushed. -/
def Cycle (calcs : Calcs) (docs docs' : Docs) : Prop :=
  ∃ (c : Schedule) (written : List (ℤ × Update Number)) (t : Handling),
    Enumerates calcs c.ids ∧ opers calcs docs c.now c.ids = some written ∧
    run step (afterWrite c docs written) c.labels = some t ∧
      t.events = [] ∧ t.db.Idle ∧ t.db.stored = docs'

/-- Every document is stored under its own key. -/
def Keyed (docs : Docs) : Prop := ∀ id doc, docs id = some doc → doc._id = .fin id

/-- A key of neither of the two points the processor writes itself. -/
def OrdinaryKey (id : ℤ) : Prop := id ≠ -1 ∧ id ≠ -2

/-- The document of a point once an update of it is handled and flushed. -/
def handled (clock : Clock) (doc : Point) (u : SourceDataUpdate) : Point :=
  if accepted doc u (readUpdate clock doc u) then
    (BulkOp.setPoint (pointUpdate clock doc u (readUpdate clock doc u))).update doc
  else doc

theorem ordinary_of_key {doc : Point} {id : ℤ} (hkey : doc._id = .fin id) (h : OrdinaryKey id) :
    doc.Ordinary := by
  unfold Point.Ordinary beepPointKey cntUpdatesPointKey
  rw [hkey]
  constructor
  · intro heq
    apply h.1
    have hq := Number.fin.inj heq
    exact_mod_cast hq
  · intro heq
    apply h.2
    have hq := Number.fin.inj heq
    exact_mod_cast hq

theorem keyed_act {docs : Docs} (h : Keyed docs) (op : BulkOp) : Keyed (act op docs) := by
  intro id doc hdoc
  obtain ⟨d, hd, rfl⟩ := Option.map_eq_some_iff.mp hdoc
  rw [BulkOp.apply_id]
  exact h id d hd

/-- An update of another point leaves the document of this one. -/
theorem act_other {docs : Docs} {op : BulkOp} {id : ℤ} (hkeyed : Keyed docs)
    (hid : OrdinaryKey id) (hop : ∀ u, op = .setPoint u → u._id ≠ .fin id) :
    act op docs id = docs id := by
  cases hdoc : docs id with
  | none => simp [act, hdoc]
  | some doc =>
    have hkey := hkeyed id doc hdoc
    have hsame : op.apply doc = doc := by
      cases op with
      | setPoint u =>
        refine if_neg ?_
        rw [hkey]
        exact fun heq => hop u rfl heq.symm
      | setBeep b t => exact BulkOp.apply_of_ordinary (ordinary_of_key hkey hid) (by simp)
      | setCounter v t => exact BulkOp.apply_of_ordinary (ordinary_of_key hkey hid) (by simp)
      | addToSet g => exact BulkOp.apply_of_ordinary (ordinary_of_key hkey hid) (by simp)
    simp [act, hdoc, hsame]

theorem foldl_act_other {docs : Docs} {ops : List BulkOp} {id : ℤ} (hkeyed : Keyed docs)
    (hid : OrdinaryKey id) (hops : ∀ u, .setPoint u ∈ ops → u._id ≠ .fin id) :
    ops.foldl (fun docs op => act op docs) docs id = docs id := by
  induction ops generalizing docs with
  | nil => rfl
  | cons op ops ih =>
    have hop : ∀ u, op = .setPoint u → u._id ≠ .fin id := by
      rintro u rfl
      exact hops u List.mem_cons_self
    rw [List.foldl_cons, ih (keyed_act hkeyed op) fun u hu => hops u (List.mem_cons_of_mem op hu),
      act_other hkeyed hid hop]

theorem foldl_act (ops : List BulkOp) (docs : Docs) (id : ℤ) :
    ops.foldl (fun docs op => act op docs) docs id = (docs id).map (applyAll ops) := by
  induction ops generalizing docs with
  | nil => cases hdoc : docs id <;> simp [hdoc]
  | cons op ops ih =>
    rw [List.foldl_cons, ih]
    cases hdoc : docs id <;> simp [act, hdoc]

theorem keyed_bulkWrite {docs : Docs} (h : Keyed docs) (timeTag : ℤ → Date)
    (written : List (ℤ × Update Number)) : Keyed (bulkWrite timeTag written docs) := by
  unfold bulkWrite
  induction written generalizing docs with
  | nil => exact h
  | cons w rest ih =>
    rw [List.foldl_cons]
    apply ih
    intro id doc hdoc
    dsimp only at hdoc
    split at hdoc
    · obtain ⟨d, hd, rfl⟩ := Option.map_eq_some_iff.mp hdoc
      exact h id d hd
    · exact h id doc hdoc

namespace Handling

/-- The collection with every waiting write done. -/
def newest (s : Handling) : Docs := s.db.newest bulkOps act

/-- The keys whose events are not delivered yet. -/
def awaited (s : Handling) : List ℤ := s.events.map PointEvent.id

end Handling

variable {source : ℤ → Option SourceDataUpdate} {docs : Docs} {s t : Handling}

/-- What the documents of a key become by the update written for it, if any. -/
def Final (source : ℤ → Option SourceDataUpdate) (docs : Docs) (id : ℤ) (doc : Option Point) :
    Prop :=
  match source id with
  | none => doc = docs id
  | some u => ∃ clock, doc = (docs id).map fun d => handled clock d u

/-- While the events of a cycle are handled: an awaited point is as the engine left it,
with nothing on the way to it; every other has, or is about to have, its final document. -/
structure Serves (source : ℤ → Option SourceDataUpdate) (docs : Docs) (s : Handling) : Prop where
  keyed : Keyed s.db.stored
  nodup : s.awaited.Nodup
  event : ∀ e ∈ s.events, source e.id = some e.sourceDataUpdate
  document : ∀ e ∈ s.events, OrdinaryKey e.id → ∀ doc, e.fullDocument = some doc →
    docs e.id = some doc
  stored : ∀ id ∈ s.awaited, OrdinaryKey id → s.db.stored id = docs id
  waiting : ∀ id ∈ s.awaited, OrdinaryKey id →
    ∀ u, .setPoint u ∈ s.db.pending bulkOps → u._id ≠ .fin id
  final : ∀ id ∉ s.awaited, OrdinaryKey id → Final source docs id (s.newest id)

theorem Serves.newest_awaited (hs : Serves source docs s) {id : ℤ} (hid : id ∈ s.awaited)
    (hord : OrdinaryKey id) : s.newest id = docs id := by
  rw [← hs.stored id hid hord]
  exact foldl_act_other hs.keyed hord (hs.waiting id hid hord)

theorem Serves.newest_keyed (hs : Serves source docs s) : Keyed s.newest :=
  Buffer.newest_invariant s.db (fun op _ _ h => keyed_act h op) hs.keyed

theorem serves_lookup (hs : Serves source docs s) {i : ℕ} (h : step s (.lookup i) = some t) :
    Serves source docs t := by
  simp only [step] at h
  split at h
  · next id u heq =>
    obtain rfl := Option.some.inj h
    have hmem : ⟨id, u, none⟩ ∈ s.events := List.mem_of_getElem? heq
    have hawaited : (s.events.set i ⟨id, u, s.db.stored id⟩).map PointEvent.id = s.awaited := by
      have hid : (s.events.map PointEvent.id)[i]? = some id := by simp [heq]
      obtain ⟨hlt, hget⟩ := List.getElem?_eq_some_iff.mp hid
      have hset := List.set_getElem_self hlt
      rw [hget] at hset
      rw [List.map_set]
      exact hset
    refine ⟨hs.keyed, ?_, ?_, ?_, ?_, ?_, ?_⟩
    · change ((s.events.set i _).map PointEvent.id).Nodup
      rw [hawaited]
      exact hs.nodup
    · intro e he
      rcases List.mem_or_eq_of_mem_set he with he | rfl
      · exact hs.event e he
      · exact hs.event ⟨id, u, none⟩ hmem
    · intro e he hord doc hdoc
      rcases List.mem_or_eq_of_mem_set he with he | rfl
      · exact hs.document e he hord doc hdoc
      · rw [← hs.stored id (List.mem_map.mpr ⟨_, hmem, rfl⟩) hord]
        exact hdoc
    · intro d hd
      exact hs.stored d (hawaited ▸ hd)
    · intro d hd
      exact hs.waiting d (hawaited ▸ hd)
    · intro d hd
      refine hs.final d fun hin => hd ?_
      change d ∈ (s.events.set i _).map PointEvent.id
      rwa [hawaited]
  · cases h

/-- A delivery gives its point its final document, and no other point anything. -/
theorem serves_deliver (hs : Serves source docs s) {clock : Clock}
    (htype : ∀ id doc, (source id).isSome → docs id = some doc → doc.type = .analog)
    (hordinary : ∀ id, (source id).isSome → OrdinaryKey id)
    (hkeyed : Keyed docs) (h : step s (.deliver clock) = some t) : Serves source docs t := by
  simp only [step] at h
  split at h
  · next id u doc rest heq =>
    obtain rfl := Option.some.inj h
    have hmem : ⟨id, u, some doc⟩ ∈ s.events := heq ▸ List.mem_cons_self
    have hsource : source id = some u := hs.event _ hmem
    have hord : OrdinaryKey id := hordinary id (by rw [hsource]; rfl)
    have hdoc : docs id = some doc := hs.document _ hmem hord doc rfl
    have hkey : doc._id = .fin id := hkeyed id doc hdoc
    have hawaited : s.awaited = id :: rest.map PointEvent.id := by
      unfold Handling.awaited
      rw [heq]
      rfl
    have hnodup := hs.nodup
    rw [hawaited, List.nodup_cons] at hnodup
    let ops := (change clock s.digitalUpdatesCount doc u).enqueued.flatMap bulkOps
    have hops : ∀ v, .setPoint v ∈ ops → v._id = .fin id := by
      intro v hv
      obtain ⟨-, -, rfl⟩ := mem_bulkOps_change hv
      exact hkey
    refine ⟨hs.keyed, hnodup.2, ?_, ?_, ?_, ?_, ?_⟩
    · intro e he
      exact hs.event e (heq ▸ List.mem_cons_of_mem _ he)
    · intro e he
      exact hs.document e (heq ▸ List.mem_cons_of_mem _ he)
    · intro d hd
      exact hs.stored d (hawaited ▸ List.mem_cons_of_mem id hd)
    · intro d hd hdord v hv
      simp only [Buffer.pending_enqueue, List.mem_append] at hv
      rcases hv with hv | hv
      · exact hs.waiting d (hawaited ▸ List.mem_cons_of_mem id hd) hdord v hv
      · rw [hops v hv]
        intro hsame
        have hq := Number.fin.inj hsame
        have hsame : id = d := by exact_mod_cast hq
        exact hnodup.1 (hsame ▸ hd)
    · intro d hd hdord
      change Final source docs d ((s.db.enqueue _).newest bulkOps act d)
      rw [Buffer.newest_enqueue]
      change Final source docs d (ops.foldl (fun docs op => act op docs) s.newest d)
      by_cases hsame : d = id
      · subst hsame
        have hnew : s.newest d = docs d :=
          hs.newest_awaited (hawaited ▸ List.mem_cons_self) hdord
        have htake : applyAll ops doc = handled clock doc u :=
          applyAll_change rfl (ordinary_of_key hkey hord)
            (by simp [Point.isDigitalEvent, htype d doc (by rw [hsource]; rfl) hdoc])
        unfold Final
        rw [hsource]
        refine ⟨clock, ?_⟩
        rw [foldl_act, hnew, hdoc, Option.map_some, htake, Option.map_some]
      · have hother : ops.foldl (fun docs op => act op docs) s.newest d = s.newest d := by
          apply foldl_act_other hs.newest_keyed hdord
          intro v hv hvd
          rw [hops v hv] at hvd
          have hq := Number.fin.inj hvd
          exact hsame (by exact_mod_cast hq.symm)
        rw [hother]
        apply hs.final d _ hdord
        rw [hawaited, List.mem_cons, not_or]
        exact ⟨hsame, hd⟩
  · cases h

theorem serves_step (hs : Serves source docs s) {a : Label}
    (htype : ∀ id doc, (source id).isSome → docs id = some doc → doc.type = .analog)
    (hordinary : ∀ id, (source id).isSome → OrdinaryKey id)
    (hkeyed : Keyed docs) (h : step s a = some t) : Serves source docs t := by
  cases a with
  | lookup i => exact serves_lookup hs h
  | deliver clock => exact serves_deliver hs htype hordinary hkeyed h
  | drain =>
    obtain rfl := Option.some.inj h
    have hpending := @Buffer.pending_drain _ _ _ bulkOps s.db
    refine ⟨hs.keyed, hs.nodup, hs.event, hs.document, hs.stored, ?_, ?_⟩
    · intro id hid hord u hu
      rw [hpending] at hu
      exact hs.waiting id hid hord u hu
    · intro id hid hord
      change Final source docs id ((s.db.drain bulkOps).newest bulkOps act id)
      rw [Buffer.newest_drain]
      exact hs.final id hid hord
  | apply =>
    obtain ⟨db, hdb, rfl⟩ := Option.map_eq_some_iff.mp h
    obtain ⟨op, hop, hst⟩ := @Buffer.applyNext_eq_some _ _ _ bulkOps act s.db db hdb
    refine ⟨?_, hs.nodup, hs.event, hs.document, ?_, ?_, ?_⟩
    · change Keyed db.stored
      rw [hst]
      exact keyed_act hs.keyed op
    · intro id hid hord
      change db.stored id = docs id
      rw [hst, act_other hs.keyed hord, hs.stored id hid hord]
      rintro u rfl
      exact hs.waiting id hid hord u (hop ▸ List.mem_cons_self)
    · intro id hid hord u hu
      exact hs.waiting id hid hord u (hop ▸ List.mem_cons_of_mem op hu)
    · intro id hid hord
      change Final source docs id (db.newest bulkOps act id)
      rw [Buffer.newest_applyNext hdb]
      exact hs.final id hid hord

theorem handled_samePoint (clock : Clock) (doc : Point) (u : SourceDataUpdate) :
    SamePoint (handled clock doc u) doc := by
  unfold handled
  split
  · exact ⟨rfl, rfl, ⟨rfl, rfl, rfl, rfl, rfl, rfl, rfl⟩, ⟨rfl, rfl, rfl, rfl⟩⟩
  · exact SamePoint.refl doc

/-- Taken or dropped, an update leaves its conversion in the document. -/
theorem handled_image {clock : Clock} {doc : Point} {u : SourceDataUpdate}
    (hu : u.isHistorical = false) (htype : doc.type = .analog) :
    (handled clock doc u).value = (convert doc u).value ∧
      (handled clock doc u).invalid = (convert doc u).invalid := by
  unfold handled
  split
  · exact ⟨rfl, rfl⟩
  · next h =>
    rw [Bool.not_eq_true] at h
    obtain ⟨hval, hinv⟩ :=
      unchanged_of_not_accepted hu (by simp [Point.isDigitalEvent, htype]) h
    exact ⟨hval.symm, hinv.symm⟩

/-- The update a cycle writes for a key. -/
def sourceOf (timeTag : ℤ → Date) (written : List (ℤ × Update Number)) (id : ℤ) :
    Option SourceDataUpdate :=
  (written.find? fun w => w.1 = id).map fun w => sourceDataUpdate (timeTag id) w.2

section Written

variable {timeTag : ℤ → Date} {written : List (ℤ × Update Number)} {id : ℤ}

theorem sourceOf_mem (hnodup : (written.map Prod.fst).Nodup) {u : Update Number}
    (h : (id, u) ∈ written) : sourceOf timeTag written id = some (sourceDataUpdate (timeTag id) u) := by
  have hfind : written.find? (fun w => w.1 = id) = some (id, u) := by
    induction written with
    | nil => cases h
    | cons w rest ih =>
      rw [List.map_cons, List.nodup_cons] at hnodup
      rcases List.mem_cons.mp h with rfl | h
      · simp
      · have hne : w.1 ≠ id := by
          rintro rfl
          exact hnodup.1 (List.mem_map.mpr ⟨_, h, rfl⟩)
        rw [List.find?_cons_of_neg (by simpa using hne)]
        exact ih hnodup.2 h
  rw [sourceOf, hfind]
  rfl

theorem mem_of_sourceOf {v : SourceDataUpdate} (h : sourceOf timeTag written id = some v) :
    ∃ u, (id, u) ∈ written ∧ v = sourceDataUpdate (timeTag id) u := by
  obtain ⟨w, hw, rfl⟩ := Option.map_eq_some_iff.mp h
  have hid : w.1 = id := by simpa using List.find?_some hw
  refine ⟨w.2, ?_, rfl⟩
  rw [← hid]
  exact List.mem_of_find?_eq_some hw

theorem bulkWrite_of_mem (hnodup : (written.map Prod.fst).Nodup) {u : Update Number}
    (h : (id, u) ∈ written) : bulkWrite timeTag written docs id =
      (docs id).map (replaceSource (sourceDataUpdate (timeTag id) u)) := by
  induction written generalizing docs with
  | nil => cases h
  | cons w rest ih =>
    rw [List.map_cons, List.nodup_cons] at hnodup
    rcases List.mem_cons.mp h with rfl | h
    · exact (bulkWrite_of_not_mem timeTag hnodup.1).trans (if_pos rfl)
    · have hne : id ≠ w.1 := by
        rintro rfl
        exact hnodup.1 (List.mem_map.mpr ⟨_, h, rfl⟩)
      refine (ih hnodup.2 h).trans (congrArg _ ?_)
      exact if_neg hne

end Written

/-- A point no update was written for keeps its document. -/
theorem Final.of_unwritten {timeTag : ℤ → Date} {written : List (ℤ × Update Number)} {id : ℤ}
    {doc : Option Point} (hnot : ∀ u, (id, u) ∉ written)
    (h : Final (sourceOf timeTag written) (bulkWrite timeTag written docs) id doc) :
    doc = docs id := by
  have hsource : sourceOf timeTag written id = none := by
    cases hv : sourceOf timeTag written id with
    | none => rfl
    | some v =>
      obtain ⟨u, hmem, -⟩ := mem_of_sourceOf hv
      exact absurd hmem (hnot u)
  have hkeys : id ∉ written.map Prod.fst := by
    intro hmem
    obtain ⟨w, hw, rfl⟩ := List.mem_map.mp hmem
    exact hnot w.2 hw
  unfold Final at h
  rw [hsource] at h
  exact h.trans (bulkWrite_of_not_mem timeTag hkeys)

/-- Nothing is handled yet when the engine has written. -/
theorem serves_afterWrite {c : Schedule} {written : List (ℤ × Update Number)}
    (hnodup : (written.map Prod.fst).Nodup) (hkeyed : Keyed docs) :
    Serves (sourceOf c.timeTag written) (bulkWrite c.timeTag written docs)
      (afterWrite c docs written) := by
  have hawaited : (afterWrite c docs written).awaited = written.map Prod.fst := by
    simp [Handling.awaited, afterWrite, Function.comp_def]
  refine ⟨keyed_bulkWrite hkeyed _ _, hawaited ▸ hnodup, ?_, ?_, fun _ _ _ => rfl, ?_, ?_⟩
  · intro e he
    obtain ⟨w, hw, rfl⟩ := List.mem_map.mp he
    exact sourceOf_mem hnodup hw
  · intro e he _ doc hdoc
    obtain ⟨w, -, rfl⟩ := List.mem_map.mp he
    cases hdoc
  · intro id _ _ u hu
    cases hu
  · intro id hid _
    have hnone : sourceOf c.timeTag written id = none := by
      cases hsource : sourceOf c.timeTag written id with
      | none => rfl
      | some v =>
        obtain ⟨u, hu, -⟩ := mem_of_sourceOf hsource
        exact absurd (hawaited ▸ List.mem_map.mpr ⟨_, hu, rfl⟩) hid
    unfold Final
    rw [hnone]
    rfl

/-- The effect of a whole cycle, whatever its schedule: a point whose update was written
has its final document, and every other ordinary point keeps its own. -/
theorem cycle_final {calcs : Calcs} {docs' : Docs} (h : Cycle calcs docs docs')
    (hkeyed : Keyed docs) (hkeys : ∀ id, (calcs id).isSome → OrdinaryKey id)
    (htype : ∀ id doc, (calcs id).isSome → docs id = some doc → doc.type = .analog) :
    ∃ (c : Schedule) (written : List (ℤ × Update Number)), Enumerates calcs c.ids ∧
      opers calcs docs c.now c.ids = some written ∧ Keyed docs' ∧ ∀ id, OrdinaryKey id →
        Final (sourceOf c.timeTag written) (bulkWrite c.timeTag written docs) id (docs' id) := by
  obtain ⟨c, written, t, hids, hopers, hrun, hdone, hidle, rfl⟩ := h
  have hnodup := opers_nodup hopers hids.1
  have hcalc : ∀ id, (sourceOf c.timeTag written id).isSome → (calcs id).isSome := by
    intro id hid
    obtain ⟨v, hv⟩ := Option.isSome_iff_exists.mp hid
    obtain ⟨u, hu, -⟩ := mem_of_sourceOf hv
    exact (hids.2 id).mp ((mem_opers hopers).mp hu).1
  have hanalog : ∀ id doc, (sourceOf c.timeTag written id).isSome →
      bulkWrite c.timeTag written docs id = some doc → doc.type = .analog := by
    intro id doc hid hdoc
    obtain ⟨v, hv⟩ := Option.isSome_iff_exists.mp hid
    obtain ⟨u, hu, -⟩ := mem_of_sourceOf hv
    rw [bulkWrite_of_mem hnodup hu] at hdoc
    obtain ⟨d, hd, rfl⟩ := Option.map_eq_some_iff.mp hdoc
    exact htype id d (hcalc id hid) hd
  have hserves : Serves (sourceOf c.timeTag written) (bulkWrite c.timeTag written docs) t := by
    refine run_invariant (P := fun _ _ => True) ?_ ?_ (serves_afterWrite hnodup hkeyed) hrun
    · intro s a t _ hs hstep
      exact serves_step hs hanalog (fun id hid => hkeys id (hcalc id hid))
        (keyed_bulkWrite hkeyed _ _) hstep
    · exact every_of_forall_mem fun _ _ => trivial
  have hnewest : t.newest = t.db.stored := Buffer.newest_of_idle hidle
  refine ⟨c, written, hids, hopers, hserves.keyed, ?_⟩
  intro id hord
  rw [← hnewest]
  refine hserves.final id ?_ hord
  simp [Handling.awaited, hdone]

/-- The writes on their way can all take effect. -/
theorem run_apply (s : Handling) (hqueued : s.db.queued = []) :
    ∃ labels t, run step s labels = some t ∧ t.events = s.events ∧ t.db.Idle := by
  obtain ⟨⟨stored, sent, queued⟩, events, count⟩ := s
  obtain rfl : queued = [] := hqueued
  induction sent generalizing stored with
  | nil => exact ⟨[], _, rfl, rfl, rfl, rfl⟩
  | cons op ops ih =>
    obtain ⟨labels, t, hrun, hevents, hidle⟩ := ih (act op stored)
    exact ⟨.apply :: labels, t, run_cons_eq_some.mpr ⟨_, rfl, hrun⟩, hevents, hidle⟩

/-- The events can all be looked up and delivered, and what they enqueue flushed. -/
theorem run_handling (clock : Clock) (s : Handling)
    (hstored : ∀ e ∈ s.events, e.fullDocument = none ∧ (s.db.stored e.id).isSome) :
    ∃ labels t, run step s labels = some t ∧ t.events = [] ∧ t.db.Idle := by
  obtain ⟨db, events, count⟩ := s
  induction events generalizing db count with
  | nil =>
    obtain ⟨labels, t, hrun, hevents, hidle⟩ := run_apply ⟨db.drain bulkOps, [], count⟩ rfl
    exact ⟨.drain :: labels, t, run_cons_eq_some.mpr ⟨_, rfl, hrun⟩, hevents, hidle⟩
  | cons e events ih =>
    obtain ⟨id, u, fullDocument⟩ := e
    obtain ⟨hnone, hsome⟩ := hstored _ List.mem_cons_self
    obtain rfl : fullDocument = none := hnone
    obtain ⟨doc, hdoc⟩ := Option.isSome_iff_exists.mp hsome
    have hdoc : db.stored id = some doc := hdoc
    let o := change clock count doc u
    obtain ⟨labels, t, hrun, hdone⟩ := ih (db.enqueue o.enqueued) o.digitalUpdatesCount
      fun e he => hstored e (List.mem_cons_of_mem _ he)
    refine ⟨.lookup 0 :: .deliver clock :: labels, t, ?_, hdone⟩
    rw [run_cons_eq_some]
    refine ⟨_, rfl, run_cons_eq_some.mpr ⟨_, ?_, hrun⟩⟩
    simp [step, hdoc, o]

/-- A cycle that no formula stops has a schedule. -/
theorem cycle_exists {calcs : Calcs} {now : Number} {ids : List ℤ}
    {written : List (ℤ × Update Number)} (hids : Enumerates calcs ids)
    (hopers : opers calcs docs now ids = some written)
    (hdocs : ∀ id, (calcs id).isSome → (docs id).isSome) : ∃ docs', Cycle calcs docs docs' := by
  have hnodup := opers_nodup hopers hids.1
  let c : Schedule := ⟨ids, now, fun _ => 0, 0, []⟩
  obtain ⟨labels, t, hrun, hdone, hidle⟩ := run_handling ⟨0, 0⟩ (afterWrite c docs written) (by
    intro e he
    obtain ⟨w, hw, rfl⟩ := List.mem_map.mp he
    refine ⟨rfl, ?_⟩
    have hid : w.1 ∈ ids := ((mem_opers hopers).mp hw).1
    obtain ⟨doc, hdoc⟩ := Option.isSome_iff_exists.mp (hdocs w.1 ((hids.2 w.1).mp hid))
    change (bulkWrite c.timeTag written docs w.1).isSome
    rw [@bulkWrite_of_mem docs c.timeTag written w.1 hnodup w.2 hw, hdoc]
    rfl)
  exact ⟨t.db.stored, { c with labels := labels }, written, t, hids, hopers, hrun, hdone, hidle, rfl⟩

end JsonScada.System.CalculationCycle
