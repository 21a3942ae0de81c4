/- path: JsonScada/System/Convergence
   source: src/cs_data_processor/cs_data_processor.js, update decision
   digest: The stored value follows the source unless a stale document hides a change. -/

import JsonScada.System.PointFeed

set_option autoImplicit false
set_option relaxedAutoImplicit false

namespace JsonScada.System.Convergence

open JsonScada.Lib.Binary64 JsonScada.Lib.Machine JsonScada.Lib.WriteBehind
open JsonScada.Model.Documents JsonScada.Processor.Convert JsonScada.Processor.Change
open JsonScada.Processor.Flush JsonScada.System.PointFeed

/-- An update dropped as not changed was compared with the value and the quality
the document will have once all that waits is written. -/
def DropsFresh (s : Feed) (clock : Clock) (p : Point) (u : SourceDataUpdate) : Prop :=
  accepted p u (readUpdate clock p u) = false →
    p.value = s.newest.value ∧ p.invalid = s.newest.invalid

instance (s : Feed) (clock : Clock) (p : Point) (u : SourceDataUpdate) :
    Decidable (DropsFresh s clock p u) := by unfold DropsFresh; infer_instance

/-- The newest document holds the conversion of the last update handled. -/
def Image (doc : Point) (s : Feed) : Prop :=
  ∀ u, s.handled.getLast? = some u →
    s.newest.value = (convert doc u).value ∧ s.newest.invalid = (convert doc u).invalid

/-- What a dropped update says of the document it was compared with. -/
theorem unchanged_of_not_accepted {clock : Clock} {p : Point} {u : SourceDataUpdate}
    (hu : u.isHistorical = false) (he : p.isDigitalEvent = false)
    (h : accepted p u (readUpdate clock p u) = false) :
    (convert p u).value = p.value ∧ (convert p u).invalid = p.invalid := by
  unfold Point.isDigitalEvent at he
  simp only [accepted, hu, readUpdate, Bool.and_assoc, he, Bool.not_false, Bool.and_true,
    Bool.and_false, Bool.or_eq_false_iff, Bool.not_eq_eq_eq_not,
    decide_eq_false_iff_not, ne_eq] at h
  obtain ⟨⟨⟨⟨⟨⟨⟨-, -⟩, hv⟩, -⟩, -⟩, -⟩, -⟩, hi⟩ := h
  exact ⟨(Number.eqv_iff.mp hv).2, not_not.mp (of_decide_eq_false hi)⟩

theorem image_start (doc : Point) (count : ℕ) : Image doc (start doc count) := by
  intro u hu
  cases hu

/-- One step keeps the image of the source when its delivery, if it is one, drops
nothing on account of a stale document. -/
theorem image_step {doc : Point} {s t : Feed} {a : Label} (hd : doc.Ordinary)
    (he : doc.isDigitalEvent = false) (hs : Serves doc s)
    (hw : ∀ u ∈ s.written, u.isHistorical = false) (ha : OnDelivery DropsFresh s a)
    (hi : Image doc s) (h : step s a = some t) : Image doc t := by
  by_cases hq : ∃ clock, a = .deliver clock
  · obtain ⟨clock, rfl⟩ := hq
    obtain ⟨p, u, hdue, hev, rfl⟩ := step_deliver h
    have hp : SamePoint p doc := hs.due hdue
    intro v hv
    obtain rfl : u = v := by simpa [deliver] using hv
    rw [newest_deliver hs hp hd he, ← convert_congr hp.settings]
    split_ifs with hacc
    · exact ⟨rfl, rfl⟩
    · -- dropped: the document compared with is the newest, and nothing changed in it
      rw [Bool.not_eq_true] at hacc
      have hu : u.isHistorical = false := by
        apply hw
        rw [hs.writes, hev]
        simp
      obtain ⟨hval, hinv⟩ := unchanged_of_not_accepted hu (hp.isDigitalEvent.trans he) hacc
      obtain ⟨hval', hinv'⟩ := ha (p, u) hdue hacc
      exact ⟨hval'.symm.trans hval.symm, hinv'.symm.trans hinv.symm⟩
  · have hf : Frame s t := step_frame hs hd he (fun clock hc => hq ⟨clock, hc⟩) h
    intro u hu
    rw [hf.newest.value, hf.newest.invalid]
    exact hi u (hf.handled ▸ hu)

/-- The facts of a run that converges. -/
structure Follows (doc : Point) (s : Feed) : Prop where
  serves : Serves doc s
  current : ∀ u ∈ s.written, u.isHistorical = false
  image : Image doc s

theorem follows_start (doc : Point) (count : ℕ) : Follows doc (start doc count) where
  serves := serves_start doc count
  current := by intro u hu; cases hu
  image := image_start doc count

/-- A dropped update whose document is stale leaves the image of the source wrong. -/
theorem not_image_of_stale_drop {doc : Point} {s t : Feed} {clock : Clock}
    (hd : doc.Ordinary) (he : doc.isDigitalEvent = false) (hs : Serves doc s)
    (hw : ∀ u ∈ s.written, u.isHistorical = false)
    (ha : ¬ OnDelivery DropsFresh s (.deliver clock)) (h : step s (.deliver clock) = some t) :
    ¬ Image doc t := by
  intro hi
  apply ha
  intro e hdue hacc
  obtain ⟨p, u, hdue', hev, rfl⟩ := step_deliver h
  obtain rfl : (p, u) = e := Option.some.inj (hdue'.symm.trans hdue)
  have hp : SamePoint p doc := hs.due hdue'
  have hu : u.isHistorical = false := by
    apply hw
    rw [hs.writes, hev]
    simp
  obtain ⟨hval, hinv⟩ := unchanged_of_not_accepted hu (hp.isDigitalEvent.trans he) hacc
  have hnew := hi u (by simp [deliver])
  rw [newest_deliver hs hp hd he, hacc, ← convert_congr hp.settings] at hnew
  exact ⟨hval.symm.trans hnew.1.symm, hinv.symm.trans hnew.2.symm⟩

section Example

/-- The value goes to one and back to zero within one flush period. -/
def flicker : List Label :=
  [.write (sampleWrite 1), .lookup 0, .write (sampleWrite 0), .lookup 1,
    .deliver sampleClock, .deliver sampleClock, .drain, .apply]

/-- With a flush between the two deliveries nothing is lost. -/
def unhurried : List Label := sampleCycle 1 ++ sampleCycle 0

end Example

end JsonScada.System.Convergence
