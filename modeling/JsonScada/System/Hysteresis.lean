/- path: JsonScada/System/Hysteresis
   source: src/cs_data_processor/cs_data_processor.js, limits and hysteresis
   digest: Updates flushed one by one keep range and value in band, save for a jump. -/

import JsonScada.Processor.Bands
import JsonScada.System.Convergence

set_option autoImplicit false
set_option relaxedAutoImplicit false

namespace JsonScada.System.Hysteresis

open JsonScada.Lib.Binary64 JsonScada.Lib.Machine JsonScada.Lib.WriteBehind
open JsonScada.Model.Documents JsonScada.Processor.Convert JsonScada.Processor.Limits
open JsonScada.Processor.Bands JsonScada.Processor.Change JsonScada.Processor.Flush
open JsonScada.System.PointFeed JsonScada.System.Convergence

/-- The previous update is flushed, and the document delivered is the one it left. -/
def Sequential (s : Feed) (_ : Clock) (p : Point) (_ : SourceDataUpdate) : Prop :=
  (s.db.sent = [] ∧ s.db.queued = []) ∧
    p.value = s.db.stored.value ∧ p.alarmRange = s.db.stored.alarmRange

def FiniteValue (_ : Feed) (_ : Clock) (p : Point) (u : SourceDataUpdate) : Prop :=
  (convert p u).value.IsFinite

/-- The new value is no jump from the range of one limit into the band of the other. -/
def NoJump (l : LimitSet) (_ : Feed) (_ : Clock) (p : Point) (u : SourceDataUpdate) : Prop :=
  ¬ Crosses l p.alarmRange (convert p u).value

instance (s : Feed) (clock : Clock) (p : Point) (u : SourceDataUpdate) :
    Decidable (Sequential s clock p u) := by unfold Sequential; infer_instance

instance (s : Feed) (clock : Clock) (p : Point) (u : SourceDataUpdate) :
    Decidable (FiniteValue s clock p u) := by unfold FiniteValue; infer_instance

instance (l : LimitSet) (s : Feed) (clock : Clock) (p : Point) (u : SourceDataUpdate) :
    Decidable (NoJump l s clock p u) := by unfold NoJump; infer_instance

/-- A step inserts one limit event when it changes the alarm range the point will
have once flushed, and none otherwise. -/
def ExactLimitEvents (s : Feed) (a : Label) : Prop :=
  ∀ t, step s a = some t → t.limitEvents.length =
    s.limitEvents.length + if t.newest.alarmRange = s.newest.alarmRange then 0 else 1

/-- What a sequential run keeps, jumps or not. -/
structure Regular (doc : Point) (l : LimitSet) (s : Feed) : Prop where
  serves : Serves doc s
  current : ∀ u ∈ s.written, u.isHistorical = false
  range : s.newest.alarmRange ∈ alarmRanges
  stable : Stable l s.newest.alarmRange s.newest.value

/-- The newest pair of range and value is in band. -/
def PairInBand (l : LimitSet) (s : Feed) : Prop :=
  InBand l s.newest.alarmRange s.newest.value

variable {doc : Point} {l : LimitSet}

/-- One delivery: the invariant and the exact event count hold whatever the value,
and a pair in band stays in band just when the value is no jump. -/
theorem deliver_regular {s : Feed} {clock : Clock} {p : Point} {u : SourceDataUpdate}
    (hd : doc.Ordinary) (ht : doc.type = .analog) (hl : limitSet doc = some l)
    (hsep : Separated l) (hs : Regular doc l s) (hdue : due s = some (p, u))
    (hev : s.events = ⟨u, some p⟩ :: s.events.tail) (hseq : Sequential s clock p u)
    (hfin : FiniteValue s clock p u) :
    let t := deliver clock p u s.events.tail s
    (t.newest.alarmRange ∈ alarmRanges ∧ Stable l t.newest.alarmRange t.newest.value) ∧
      (t.limitEvents.length =
        s.limitEvents.length + if t.newest.alarmRange = s.newest.alarmRange then 0 else 1) ∧
      (PairInBand l s → (PairInBand l t ↔ NoJump l s clock p u)) := by
  intro t
  have hp : SamePoint p doc := hs.serves.due hdue
  have he : p.isDigitalEvent = false := by
    simp [Point.isDigitalEvent, hp.settings.type.trans ht]
  obtain ⟨hidle, hval, hrange⟩ := hseq
  have hnew : s.newest = s.db.stored := Buffer.newest_of_idle hidle
  rw [← hnew] at hval hrange
  obtain ⟨hpair, hcount⟩ :=
    @deliver_limits doc p u clock s s.events.tail l hs.serves hp hd ht hl
  have hmem : p.alarmRange ∈ alarmRanges := hrange ▸ hs.range
  have hnan := range_ne_nan l p.alarmRange (convert p u).value
  unfold PairInBand NoJump
  by_cases hacc : accepted p u (readUpdate clock p u) = true
  · rw [if_pos hacc, Prod.mk.injEq] at hpair
    obtain ⟨hv, hr⟩ := hpair
    have hband := inBand_range hsep hmem hfin
    refine ⟨?_, ?_, fun _ => ?_⟩
    · rw [hv, hr]
      exact ⟨range_mem hmem, stable_range⟩
    · rw [hcount, hr, ← hrange]
      rw [DocField.looseNe_of_ne_nan hnan]
      by_cases heq : p.alarmRange = .val (l.range p.alarmRange (convert p u).value)
      · rw [if_pos heq.symm, decide_eq_true heq]
        rfl
      · rw [if_neg (Ne.symm heq), decide_eq_false heq]
        rfl
    · rw [hv, hr]
      exact hband
  · -- dropped: the value is the stored one, so the rule keeps the stored range
    rw [if_neg hacc, Prod.mk.injEq] at hpair
    obtain ⟨hv, hr⟩ := hpair
    rw [Bool.not_eq_true] at hacc
    have hu : u.isHistorical = false := by
      apply hs.current
      rw [hs.serves.writes, hev]
      simp
    have hsame : (convert p u).value = s.newest.value :=
      (unchanged_of_not_accepted hu he hacc).1.trans hval
    have hstable := hs.stable
    rw [← hrange, ← hsame] at hstable
    refine ⟨?_, ?_, fun hin => ?_⟩
    · rw [hv, hr]
      exact ⟨hs.range, hs.stable⟩
    · rw [hcount, hr, if_pos rfl, DocField.looseNe_eq_false.mpr ⟨hstable, hnan⟩]
      rfl
    · rw [hv, hr, hrange, hsame]
      exact iff_of_true hin (hin.not_crosses hsep)

/-- The steps the run consists of: no historical write, and deliveries of finite
values one flush after the other. -/
def Admissible (s : Feed) (a : Label) : Prop :=
  (∀ u ∈ writes a, u.isHistorical = false) ∧
    OnDelivery Sequential s a ∧ OnDelivery FiniteValue s a

theorem regular_step {s t : Feed} {a : Label} (hd : doc.Ordinary) (ht : doc.type = .analog)
    (hl : limitSet doc = some l) (hsep : Separated l) (hs : Regular doc l s)
    (ha : Admissible s a) (h : step s a = some t) :
    Regular doc l t ∧
      t.limitEvents.length =
        s.limitEvents.length + (if t.newest.alarmRange = s.newest.alarmRange then 0 else 1) ∧
      (PairInBand l s → (PairInBand l t ↔ OnDelivery (NoJump l) s a)) := by
  obtain ⟨hw, hseq, hfin⟩ := ha
  have hcur : ∀ u ∈ t.written, u.isHistorical = false := by
    intro u hu
    rw [step_written h] at hu
    rcases List.mem_append.mp hu with hu | hu
    · exact hs.current u hu
    · exact hw u hu
  by_cases hdel : ∃ clock, a = .deliver clock
  · obtain ⟨clock, rfl⟩ := hdel
    obtain ⟨p, u, hdue, hev, rfl⟩ := step_deliver h
    have hon : OnDelivery (NoJump l) s (.deliver clock) ↔ NoJump l s clock p u := by
      simp [OnDelivery, hdue]
    obtain ⟨⟨hrange, hstable⟩, hcount, hband⟩ :=
      deliver_regular hd ht hl hsep hs hdue hev (hseq (p, u) hdue) (hfin (p, u) hdue)
    rw [hon]
    exact ⟨⟨serves_step hs.serves h, hcur, hrange, hstable⟩, hcount, hband⟩
  · have he : doc.isDigitalEvent = false := by simp [Point.isDigitalEvent, ht]
    have hf : Frame s t := step_frame hs.serves hd he (fun clock hc => hdel ⟨clock, hc⟩) h
    have hr : t.newest.alarmRange = s.newest.alarmRange := hf.newest.alarmRange
    have hv : t.newest.value = s.newest.value := hf.newest.value
    refine ⟨⟨serves_step hs.serves h, hcur, ?_, ?_⟩, ?_, fun hin => ?_⟩
    · rw [hr]
      exact hs.range
    · rw [hr, hv]
      exact hs.stable
    · rw [hf.limitEvents, if_pos hr]
      rfl
    · unfold PairInBand
      rw [hr, hv]
      refine iff_of_true hin ?_
      cases a with
      | deliver clock => exact absurd ⟨clock, rfl⟩ hdel
      | _ => trivial

theorem regular_start (count : ℕ) (hr : doc.alarmRange ∈ alarmRanges)
    (h0 : InBand l doc.alarmRange doc.value) : Regular doc l (start doc count) where
  serves := serves_start doc count
  current := by intro u hu; cases hu
  range := hr
  stable := h0.stable hr

/-- Updates flushed one by one: the stored range and value are in band after every
flush and every limit event stands for one change of the range, just when no update
jumps from the range of one limit into the band of the other. -/
theorem in_band_iff_no_jump {count : ℕ} {labels : List Label} (hd : doc.Ordinary)
    (ht : doc.type = .analog) (hl : limitSet doc = some l) (hsep : Separated l)
    (hr : doc.alarmRange ∈ alarmRanges) (h0 : InBand l doc.alarmRange doc.value)
    (hw : ∀ a ∈ labels, ∀ u ∈ writes a, u.isHistorical = false)
    (hseq : Every step (OnDelivery Sequential) (start doc count) labels)
    (hfin : Every step (OnDelivery FiniteValue) (start doc count) labels) :
    ((∀ s, Visits step (start doc count) labels s → ∀ t, run step s (flush s) = some t →
          InBand l t.db.stored.alarmRange t.db.stored.value) ∧
        Every step ExactLimitEvents (start doc count) labels) ↔
      Every step (OnDelivery (NoJump l)) (start doc count) labels := by
  have hadm : Every step Admissible (start doc count) labels :=
    (every_of_forall_mem hw).and (hseq.and hfin)
  have hstart := regular_start count hr h0
  have hstep : ∀ s a t, Admissible s a → Regular doc l s → step s a = some t →
      Regular doc l t ∧ (PairInBand l s → (PairInBand l t ↔ OnDelivery (NoJump l) s a)) := by
    intro s a t ha hs h
    obtain ⟨hreg, -, hband⟩ := regular_step hd ht hl hsep hs ha h
    exact ⟨hreg, hband⟩
  have hexact : Every step ExactLimitEvents (start doc count) labels := by
    have hboth := hadm.strengthen (fun s a t ha hs h => (hstep s a t ha hs h).1) hstart
    refine hboth.imp fun s a hs t h => ?_
    exact (regular_step hd ht hl hsep hs.2 hs.1 h).2.1
  have hflush : ∀ s : Feed, (∀ t, run step s (flush s) = some t →
      InBand l t.db.stored.alarmRange t.db.stored.value) ↔ PairInBand l s := by
    intro s
    simp [run_flush, PairInBand]
  simp only [hflush, hexact, and_true]
  exact visits_iff_every hstep (fun _ _ _ => onDelivery_of_stuck) hadm hstart h0

section Example

def sampleLimits : LimitSet := ⟨.fin 10, .fin 0, .fin 1⟩

/-- The sample point in alarm below the low limit. -/
def lowPoint : Point := { limitedPoint with value := .fin (-5), alarmRange := .val (.fin (-1)) }

/-- From below the low limit to a value at the high limit: the range stays low. -/
theorem jump_keeps_low_range :
    limitSet lowPoint = some sampleLimits ∧
      Every step (OnDelivery Sequential) (start lowPoint 0) (sampleCycle 10) ∧
      ∃ t ∈ run step (start lowPoint 0) (sampleCycle 10), t.Settled ∧
        t.db.stored.alarmRange = .val (.fin (-1)) ∧ t.db.stored.value = .fin 10 ∧
        (sampleLimits.loLimit.add sampleLimits.hysteresis).lt t.db.stored.value = true := by
  decide +kernel

theorem return_to_normal_in_band :
    ∃ s ∈ run step (start lowPoint 0) (sampleCycle 5 ++ sampleCycle 10),
      InBand sampleLimits s.newest.alarmRange s.newest.value := by
  have hsep : Separated sampleLimits := ⟨by decide +kernel, by decide +kernel⟩
  have h0 : InBand sampleLimits lowPoint.alarmRange lowPoint.value :=
    ⟨by decide +kernel, by decide +kernel, by decide +kernel, by decide +kernel⟩
  let labels := sampleCycle 5 ++ sampleCycle 10
  have hin := ((@in_band_iff_no_jump lowPoint _ 0 labels (by decide) rfl rfl hsep (by decide) h0 (by decide)
    (by decide +kernel) (by decide +kernel)).mpr (by decide +kernel)).1
  obtain ⟨s, hs⟩ : ∃ s, run step (start lowPoint 0) (sampleCycle 5 ++ sampleCycle 10) = some s :=
    Option.isSome_iff_exists.mp (by decide +kernel)
  exact ⟨s, hs, hin s ⟨_, List.prefix_rfl, hs⟩ _ (run_flush s)⟩

end Example

end JsonScada.System.Hysteresis
