/- path: JsonScada/System/Counters
   source: src/cs_data_processor/cs_data_processor.js, alarmRange and updatesCnt
   digest: Limit events and update counts are exact while the documents are fresh. -/

import JsonScada.System.PointFeed

set_option autoImplicit false
set_option relaxedAutoImplicit false

namespace JsonScada.System.Counters

open JsonScada.Lib.Binary64 JsonScada.Lib.Machine JsonScada.Lib.WriteBehind
open JsonScada.Model.Documents JsonScada.Processor.Convert JsonScada.Processor.Limits
open JsonScada.Processor.Change JsonScada.Processor.Flush JsonScada.System.PointFeed

section Rule

variable (l : LimitSet) (doc : Point)

/-- The range after the rule has run over the updates in order. -/
def ruleRange (range : DocField Number) : List SourceDataUpdate → DocField Number
  | [] => range
  | u :: us => ruleRange (.val (l.range range (convert doc u).value)) us

/-- How many of the updates change the range. -/
def ruleChanges (range : DocField Number) : List SourceDataUpdate → ℕ
  | [] => 0
  | u :: us =>
    let next := .val (l.range range (convert doc u).value)
    (if range = next then 0 else 1) + ruleChanges next us

theorem ruleChanges_append (range : DocField Number) (us vs : List SourceDataUpdate) :
    ruleChanges l doc range (us ++ vs) =
      ruleChanges l doc range us + ruleChanges l doc (ruleRange l doc range us) vs := by
  induction us generalizing range with
  | nil => simp [ruleChanges, ruleRange]
  | cons u us ih => simp [ruleChanges, ruleRange, ih, Nat.add_assoc]

end Rule

/-- The document delivered and the rule run over the values delivered so far agree
on whether the new value changes the range. -/
def RangeFresh (l : LimitSet) (doc : Point) (s : Feed) (_ : Clock) (p : Point)
    (u : SourceDataUpdate) : Prop :=
  let reached := ruleRange l doc doc.alarmRange s.handled
  p.alarmRange = .val (l.range p.alarmRange (convert p u).value) ↔
    reached = .val (l.range reached (convert p u).value)

/-- An accepted update counts on from the newest document, below the last whole
number that a double can tell from its successor. -/
def CountFresh (initial : ℕ) (s : Feed) (clock : Clock) (p : Point) (u : SourceDataUpdate) :
    Prop :=
  accepted p u (readUpdate clock p u) = true →
    p.updatesCnt = s.newest.updatesCnt ∧ initial + s.pointUpdates < 2 ^ 53

instance (l : LimitSet) (doc : Point) (s : Feed) (clock : Clock) (p : Point)
    (u : SourceDataUpdate) : Decidable (RangeFresh l doc s clock p u) := by
  unfold RangeFresh
  infer_instance

instance (initial : ℕ) (s : Feed) (clock : Clock) (p : Point) (u : SourceDataUpdate) :
    Decidable (CountFresh initial s clock p u) := by unfold CountFresh; infer_instance

variable {doc : Point} {l : LimitSet} {initial : ℕ}

/-- The counts of a run, with the range the rule has reached. -/
structure Counted (doc : Point) (l : LimitSet) (initial : ℕ) (s : Feed) : Prop where
  serves : Serves doc s
  limitEvents : s.limitEvents.length = ruleChanges l doc doc.alarmRange s.handled
  updatesCnt : s.newest.updatesCnt = .val (.fin ((initial + s.pointUpdates : ℕ) : ℚ))

theorem counted_step {s t : Feed} {a : Label} (hd : doc.Ordinary) (ht : doc.type = .analog)
    (hl : limitSet doc = some l) (hs : Counted doc l initial s)
    (hr : OnDelivery (RangeFresh l doc) s a) (hc : OnDelivery (CountFresh initial) s a)
    (h : step s a = some t) : Counted doc l initial t := by
  have he : doc.isDigitalEvent = false := by simp [Point.isDigitalEvent, ht]
  by_cases hdel : ∃ clock, a = .deliver clock
  · obtain ⟨clock, rfl⟩ := hdel
    obtain ⟨p, u, hdue, -, rfl⟩ := step_deliver h
    have hp : SamePoint p doc := hs.serves.due hdue
    obtain ⟨-, hevents⟩ :=
      @deliver_limits doc p u clock s s.events.tail l hs.serves hp hd ht hl
    refine ⟨serves_step hs.serves h, ?_, ?_⟩
    · have hfresh := hr (p, u) hdue
      have hnan := range_ne_nan l p.alarmRange (convert p u).value
      have hlast : ruleChanges l doc doc.alarmRange (s.handled ++ [u]) =
          ruleChanges l doc doc.alarmRange s.handled +
            if p.alarmRange.looseNe (l.range p.alarmRange (convert p u).value) then 1 else 0 := by
        rw [ruleChanges_append]
        simp only [ruleChanges, Nat.add_zero, ← convert_congr hp.settings]
        rw [DocField.looseNe_of_ne_nan hnan]
        by_cases heq : p.alarmRange = .val (l.range p.alarmRange (convert p u).value)
        · rw [if_pos (hfresh.mp heq), decide_eq_true heq]
          rfl
        · rw [if_neg (fun h => heq (hfresh.mpr h)), decide_eq_false heq]
          rfl
      rw [hevents, hs.limitEvents]
      exact hlast.symm
    · rw [newest_deliver hs.serves hp hd he,
        pointUpdates_deliver (hp.isDigitalEvent.trans he)]
      split_ifs with hacc
      · obtain ⟨hcnt, hlt⟩ := hc (p, u) hdue hacc
        show DocField.val (p.updatesCnt.toNumber.add (.fin 1)) = _
        rw [hcnt, hs.updatesCnt]
        exact congrArg DocField.val (Number.add_natCast_one hlt)
      · exact hs.updatesCnt
  · have hf : Frame s t := step_frame hs.serves hd he (fun clock hc => hdel ⟨clock, hc⟩) h
    refine ⟨serves_step hs.serves h, ?_, ?_⟩
    · rw [hf.limitEvents, hf.handled]
      exact hs.limitEvents
    · rw [hf.newest.updatesCnt, hf.pointUpdates]
      exact hs.updatesCnt

section Example

def calmPoint : Point :=
  { limitedPoint with value := .fin 5, alarmRange := .val (.fin 0), alarmed := false }

/-- Two values above the high limit handled within one flush period. -/
def burst : List Label :=
  [.write (sampleWrite 12), .lookup 0, .write (sampleWrite 13), .lookup 1,
    .deliver sampleClock, .deliver sampleClock, .drain, .apply, .apply]

end Example

end JsonScada.System.Counters
