/- path: JsonScada/System/Acknowledged
   source: src/cs_data_processor/cs_data_processor.js, src/server_realtime_auth/index.js
   digest: Which updates on their way undo an acknowledge of the operator. -/

import JsonScada.System.PointFeed

set_option autoImplicit false
set_option relaxedAutoImplicit false

namespace JsonScada.System.Acknowledged

open JsonScada.Lib.Binary64 JsonScada.Lib.EcmaScript JsonScada.Lib.Machine
open JsonScada.Lib.WriteBehind JsonScada.Model.Documents JsonScada.Processor.Convert
open JsonScada.Processor.Limits JsonScada.Processor.Change JsonScada.Processor.Flush
open JsonScada.Server.Acknowledge JsonScada.System.PointFeed

def pointOf : BulkOp → Option PointUpdate
  | .setPoint u => some u
  | _ => none

/-- The last update of the point still on its way to the store. -/
def lastWaiting (s : Feed) : Option PointUpdate :=
  ((s.db.pending bulkOps).filterMap pointOf).getLast?

/-- The update computes no alarm range other than the stored one, save the normal range. -/
def NoNewAlarm (s : Feed) (clock : Clock) (p : Point) (u : SourceDataUpdate) : Prop :=
  (readUpdate clock p u).alarmRange = .fin 0 ∨
    s.db.stored.alarmRange = .val (readUpdate clock p u).alarmRange

/-- The update carries no alarm: it is dropped, or the alarms of the point are off, or
its document is as fresh as the acknowledge where the alarm depends on it. -/
def CarriesNoAlarm (s : Feed) (clock : Clock) (p : Point) (u : SourceDataUpdate) : Prop :=
  accepted p u (readUpdate clock p u) = true → p.alarmDisabled = .bool true ∨
    ((p.alarmed = false ∨ normalizes p (convert p u).value = true) ∧
      ((readUpdate clock p u).alarmRange = .fin 0 ∨ p.alarmRange = s.db.stored.alarmRange))

instance (s : Feed) (clock : Clock) (p : Point) (u : SourceDataUpdate) :
    Decidable (NoNewAlarm s clock p u) := by unfold NoNewAlarm; infer_instance

instance (s : Feed) (clock : Clock) (p : Point) (u : SourceDataUpdate) :
    Decidable (CarriesNoAlarm s clock p u) := by unfold CarriesNoAlarm; infer_instance

theorem alarmed_applyAll (ops : List BulkOp) (p : Point)
    (h : ∀ u, .setPoint u ∈ ops → u._id = p._id) :
    (applyAll ops p).alarmed =
      ((ops.filterMap pointOf).getLast?.map PointUpdate.alarmed).getD p.alarmed := by
  induction ops generalizing p with
  | nil => rfl
  | cons op ops ih =>
    have htail : ∀ u, .setPoint u ∈ ops → u._id = (op.apply p)._id := by
      intro u hu
      rw [BulkOp.apply_id]
      exact h u (List.mem_cons_of_mem op hu)
    rw [applyAll_cons, ih (op.apply p) htail]
    cases op with
    | setPoint u =>
      have hu : (BulkOp.setPoint u).apply p = (BulkOp.setPoint u).update p :=
        BulkOp.apply_setPoint (h u List.mem_cons_self)
      have hcons : (BulkOp.setPoint u :: ops).filterMap pointOf = u :: ops.filterMap pointOf :=
        rfl
      rw [hu, hcons, List.getLast?_cons]
      cases (ops.filterMap pointOf).getLast? <;> rfl
    | setBeep b t =>
      rw [List.filterMap_cons_none rfl]
      unfold BulkOp.apply
      split <;> rfl
    | setCounter v t =>
      rw [List.filterMap_cons_none rfl]
      unfold BulkOp.apply
      split <;> rfl
    | addToSet g =>
      rw [List.filterMap_cons_none rfl]
      unfold BulkOp.apply
      split <;> rfl

/-- The alarm the document of a feed will have: that of the last update on its way,
or the stored one. -/
theorem newest_alarmed {doc : Point} {s : Feed} (hs : Serves doc s) :
    s.newest.alarmed = ((lastWaiting s).map PointUpdate.alarmed).getD s.db.stored.alarmed := by
  apply alarmed_applyAll
  intro u hu
  exact (hs.waiting u hu).trans hs.stored._id.symm

private theorem newest_clearAlarm {doc : Point} {s : Feed} (hs : Serves doc s) :
    ((s.db.edit clearAlarm).newest bulkOps BulkOp.apply).alarmed = false ↔
      ∀ u ∈ lastWaiting s, u.alarmed = false := by
  have hs' : Serves doc { s with db := s.db.edit clearAlarm } :=
    ⟨(clearAlarm_samePoint _).trans hs.stored, hs.documents, hs.waiting, hs.writes⟩
  have hn := newest_alarmed hs'
  have hw : lastWaiting { s with db := s.db.edit clearAlarm } = lastWaiting s := rfl
  rw [hw] at hn
  show (Feed.newest { s with db := s.db.edit clearAlarm }).alarmed = false ↔ _
  rw [hn]
  cases lastWaiting s with
  | none => simp [Buffer.edit, clearAlarm]
  | some u => simp

/-- Both acknowledges leave the alarm of the last update on its way. -/
theorem newest_ack {doc : Point} {s t : Feed} {ack : Label} (hs : Serves doc s)
    (he : doc.isDigitalEvent = false) (hack : ack = .ackOne ∨ ack = .ackAll)
    (h : step s ack = some t) :
    t.newest.alarmed = false ↔ ∀ u ∈ lastWaiting s, u.alarmed = false := by
  have hev : s.db.stored.isDigitalEvent = false := hs.stored.isDigitalEvent.trans he
  rw [← newest_clearAlarm hs]
  rcases hack with rfl | rfl
  · obtain rfl := Option.some.inj h
    simp only [Feed.newest, Buffer.edit, ackOneAlarm_eq_clearAlarm hev]
  · obtain rfl := Option.some.inj h
    simp only [Feed.newest, Buffer.edit, ackAllAlarms_eq_clearAlarm hev]

/-- While no new alarm arises, an update writes no alarm just when it carries none. -/
theorem pointUpdate_alarmed {s : Feed} {clock : Clock} {p : Point} {u : SourceDataUpdate}
    (ht : p.type = .analog) (hn : NoNewAlarm s clock p u)
    (hacc : accepted p u (readUpdate clock p u) = true) :
    (pointUpdate clock p u (readUpdate clock p u)).alarmed = false ↔
      CarriesNoAlarm s clock p u := by
  obtain ⟨hrange, halarmed, -⟩ := @readUpdate_analog clock p u ht
  have hcheck := @checkLimits_alarmed p (convert p u).value p.alarmed
  rw [← hrange, ← halarmed] at hcheck
  have hstored : ((readUpdate clock p u).alarmRange = .fin 0 ∨
      p.alarmRange = .val (readUpdate clock p u).alarmRange) ↔
      ((readUpdate clock p u).alarmRange = .fin 0 ∨ p.alarmRange = s.db.stored.alarmRange) := by
    rcases hn with hn | hn
    · simp [hn]
    · rw [hn]
  rw [hstored] at hcheck
  unfold CarriesNoAlarm
  simp only [pointUpdate, hacc, true_implies]
  by_cases hd : p.alarmDisabled = .bool true
  · simp [hd]
  · simpa [hd] using hcheck

/-- One step after the acknowledge: a delivery that adds no alarm condition leaves the
point without alarm just when its update carries none. -/
theorem quiet_step {doc : Point} {s t : Feed} {a : Label} (hd : doc.Ordinary)
    (ht : doc.type = .analog) (hs : Serves doc s) (hn : OnDelivery NoNewAlarm s a)
    (hq : s.newest.alarmed = false) (h : step s a = some t) :
    t.newest.alarmed = false ↔ OnDelivery CarriesNoAlarm s a := by
  have he : doc.isDigitalEvent = false := by simp [Point.isDigitalEvent, ht]
  by_cases hdel : ∃ clock, a = .deliver clock
  · obtain ⟨clock, rfl⟩ := hdel
    obtain ⟨p, u, hdue, -, rfl⟩ := step_deliver h
    have hp : SamePoint p doc := hs.due hdue
    have hpn : NoNewAlarm s clock p u := hn (p, u) hdue
    have hpt : p.type = .analog := hp.settings.type.trans ht
    have hon : OnDelivery CarriesNoAlarm s (.deliver clock) ↔ CarriesNoAlarm s clock p u := by
      simp [OnDelivery, hdue]
    rw [hon, newest_deliver hs hp hd he]
    split_ifs with hacc
    · exact pointUpdate_alarmed hpt hpn hacc
    · simp [CarriesNoAlarm, hacc, hq]
  · have hf : Frame s t := step_frame hs hd he (fun clock hc => hdel ⟨clock, hc⟩) h
    refine ⟨fun _ => ?_, fun _ => hf.newest.alarmed hq⟩
    cases a with
    | deliver clock => exact absurd ⟨clock, rfl⟩ hdel
    | _ => trivial

/-- After an acknowledge with no new alarm condition: every flush leaves the point
without alarm, whenever it comes, just when the last update on its way at the
acknowledge and all updates handled later carry no alarm. -/
theorem acknowledged_stays {doc : Point} {count : ℕ} {before after : List Label} {ack : Label}
    {s m : Feed} (hd : doc.Ordinary) (ht : doc.type = .analog)
    (hack : ack = .ackOne ∨ ack = .ackAll) (hs : run step (start doc count) before = some s)
    (hm : step s ack = some m) (hn : Every step (OnDelivery NoNewAlarm) m after) :
    (∀ t, Visits step m after t → ∀ t', run step t (flush t) = some t' →
        t'.db.stored.alarmed = false) ↔
      (∀ u ∈ lastWaiting s, u.alarmed = false) ∧
        Every step (OnDelivery CarriesNoAlarm) m after := by
  have he : doc.isDigitalEvent = false := by simp [Point.isDigitalEvent, ht]
  have hserves : Serves doc s :=
    run_invariant (fun _ _ _ _ => serves_step) (every_of_forall_mem fun _ _ => trivial)
      (serves_start doc count) hs
  have hserves' : Serves doc m := serves_step hserves hm
  have hflush : ∀ t : Feed, (∀ t', run step t (flush t) = some t' →
      t'.db.stored.alarmed = false) ↔ t.newest.alarmed = false := by
    intro t
    simp [run_flush]
  simp only [hflush]
  rw [← newest_ack hserves he hack hm]
  have hiff : m.newest.alarmed = false →
      ((∀ t, Visits step m after t → t.newest.alarmed = false) ↔
        Every step (OnDelivery CarriesNoAlarm) m after) := by
    intro hq
    refine visits_iff_every ?_ (fun _ _ _ => onDelivery_of_stuck) hn hserves' hq
    intro s a t hna hs' h
    exact ⟨serves_step hs' h, fun hq => quiet_step hd ht hs' hna hq h⟩
  constructor
  · intro hv
    have hq := hv m (visits_start m after)
    exact ⟨hq, (hiff hq).mp hv⟩
  · rintro ⟨hq, hc⟩
    exact (hiff hq).mpr hc

section Example

/-- The document is looked up before the acknowledge and handled after it. -/
theorem acknowledge_undone :
    ∃ s ∈ run step (start limitedPoint 0) [.write (sampleWrite 13), .lookup 0],
      ∃ m ∈ step s .ackOne,
        Every step (OnDelivery NoNewAlarm) m [.deliver sampleClock, .drain, .apply] ∧
        ∃ t ∈ run step m [.deliver sampleClock, .drain, .apply],
          t.Settled ∧ t.db.stored.alarmed = true := by
  decide +kernel

theorem fresh_update_quiet :
    ∃ s ∈ run step (start limitedPoint 0) (sampleCycle 11), ∃ m ∈ step s .ackAll,
      ∀ t, Visits step m (sampleCycle 13) t → ∀ t', run step t (flush t) = some t' →
        t'.db.stored.alarmed = false := by
  obtain ⟨s, hs, m, hm, hlast, hn, hc⟩ :
      ∃ s ∈ run step (start limitedPoint 0) (sampleCycle 11), ∃ m ∈ step s .ackAll,
        (∀ u ∈ lastWaiting s, u.alarmed = false) ∧
        Every step (OnDelivery NoNewAlarm) m (sampleCycle 13) ∧
        Every step (OnDelivery CarriesNoAlarm) m (sampleCycle 13) := by
    decide +kernel
  exact ⟨s, hs, m, hm,
    (acknowledged_stays (by decide) rfl (.inr rfl) hs hm hn).mpr ⟨hlast, hc⟩⟩

end Example

end JsonScada.System.Acknowledged
