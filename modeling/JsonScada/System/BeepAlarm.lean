/- path: JsonScada/System/BeepAlarm
   source: src/cs_data_processor/cs_data_processor.js, NEW BEEP and alarmTime
   digest: When a digital point beeps without registering a new alarm. -/

import JsonScada.System.PointFeed

set_option autoImplicit false
set_option relaxedAutoImplicit false

namespace JsonScada.System.BeepAlarm

open JsonScada.Lib.Binary64 JsonScada.Lib.EcmaScript JsonScada.Lib.Machine
open JsonScada.Lib.WriteBehind JsonScada.Model.Documents JsonScada.Processor.Convert
open JsonScada.Processor.Limits JsonScada.Processor.Change JsonScada.Processor.Flush
open JsonScada.Server.Silence JsonScada.System.PointFeed

def isBeep : RtUpdate → Bool
  | .beep _ _ _ => true
  | _ => false

/-- The update of the point sets timeTagAlarm. -/
def registersAlarm : RtUpdate → Bool
  | .point u => u.timeTagAlarm.isSome
  | _ => false

/-- A beep is enqueued only together with a new alarm of the point. -/
def BeepsForAlarm (s : Feed) (clock : Clock) (p : Point) (u : SourceDataUpdate) : Prop :=
  let enqueued := (change clock s.digitalUpdatesCount p u).enqueued
  (∃ q ∈ enqueued, isBeep q = true) → ∃ q ∈ enqueued, registersAlarm q = true

def NotSOE (_ : Feed) (clock : Clock) (p : Point) (u : SourceDataUpdate) : Prop :=
  isSOE clock p u = false

/-- No update with an unchanged value is accepted for an alarmed point that beeps. -/
def NoRepeatedBeep (_ : Feed) (clock : Clock) (p : Point) (u : SourceDataUpdate) : Prop :=
  ¬ (accepted p u (readUpdate clock p u) = true ∧ p.alarmed = true ∧
    (convert p u).value.eqv p.value = true ∧ p.priority.le LowestPriorityThatBeeps = true)

instance (s : Feed) (clock : Clock) (p : Point) (u : SourceDataUpdate) :
    Decidable (BeepsForAlarm s clock p u) := by unfold BeepsForAlarm; infer_instance

instance (s : Feed) (clock : Clock) (p : Point) (u : SourceDataUpdate) :
    Decidable (NotSOE s clock p u) := by unfold NotSOE; infer_instance

instance (s : Feed) (clock : Clock) (p : Point) (u : SourceDataUpdate) :
    Decidable (NoRepeatedBeep s clock p u) := by unfold NoRepeatedBeep; infer_instance

theorem exists_isBeep_beepUpdate {clock : Clock} {p : Point} {r : Reading} :
    (∃ q ∈ beepUpdate clock p r, isBeep q = true) ↔
      beeps p r = true ∧ p.priority.le LowestPriorityThatBeeps = true := by
  have hzero : p.priority.eqv (.fin 0) = true → p.priority.le LowestPriorityThatBeeps = true := by
    intro h
    obtain ⟨-, h⟩ := Number.eqv_iff.mp h
    rw [h]
    decide
  unfold beepUpdate
  cases hb : beeps p r with
  | false => simp
  | true =>
    cases hp : p.priority.eqv (.fin 0) with
    | true => simp [isBeep, hzero hp]
    | false =>
      cases hl : p.priority.le LowestPriorityThatBeeps <;> simp [isBeep]

/-- The beep entries of a delivery: only accepted updates have them. -/
theorem exists_isBeep_change {clock : Clock} {count : ℕ} {p : Point} {u : SourceDataUpdate} :
    (∃ q ∈ (change clock count p u).enqueued, isBeep q = true) ↔
      accepted p u (readUpdate clock p u) = true ∧ beeps p (readUpdate clock p u) = true ∧
        p.priority.le LowestPriorityThatBeeps = true := by
  have hcount : ∀ q ∈ counterUpdate clock count p, isBeep q = false := by
    unfold counterUpdate
    split_ifs <;> simp [isBeep]
  rw [← @exists_isBeep_beepUpdate clock p]
  constructor
  · rintro ⟨q, hq, hbeep⟩
    obtain ⟨hacc, hq | hq | ⟨-, rfl⟩⟩ := mem_enqueued.mp hq
    · exact ⟨hacc, q, hq, hbeep⟩
    · rw [hcount q hq] at hbeep
      cases hbeep
    · cases hbeep
  · rintro ⟨hacc, q, hq, hbeep⟩
    exact ⟨q, mem_enqueued.mpr ⟨hacc, .inl hq⟩, hbeep⟩

/-- The new alarm of a delivery: an accepted and stored update carries its time. -/
theorem exists_registersAlarm_change {clock : Clock} {count : ℕ} {p : Point}
    {u : SourceDataUpdate} :
    (∃ q ∈ (change clock count p u).enqueued, registersAlarm q = true) ↔
      accepted p u (readUpdate clock p u) = true ∧ stored p (readUpdate clock p u) = true ∧
        newAlarm p (readUpdate clock p u) = true := by
  have hbeep : ∀ q ∈ beepUpdate clock p (readUpdate clock p u), registersAlarm q = false := by
    unfold beepUpdate
    split_ifs <;> simp [registersAlarm]
  have hcount : ∀ q ∈ counterUpdate clock count p, registersAlarm q = false := by
    unfold counterUpdate
    split_ifs <;> simp [registersAlarm]
  have hpoint : registersAlarm (.point (pointUpdate clock p u (readUpdate clock p u))) =
      newAlarm p (readUpdate clock p u) := by
    simp only [registersAlarm, pointUpdate]
    split_ifs with h <;> simp [h]
  constructor
  · rintro ⟨q, hq, hreg⟩
    obtain ⟨hacc, hq | hq | ⟨hst, rfl⟩⟩ := mem_enqueued.mp hq
    · rw [hbeep q hq] at hreg
      cases hreg
    · rw [hcount q hq] at hreg
      cases hreg
    · exact ⟨hacc, hst, hpoint ▸ hreg⟩
  · rintro ⟨hacc, hst, hnew⟩
    exact ⟨_, mem_enqueued.mpr ⟨hacc, .inr (.inr ⟨hst, rfl⟩)⟩, hpoint.trans hnew⟩

/-- One delivery of a digital point that is no event tag: it beeps for a new alarm
just when it does not repeat the beep of an old one. -/
theorem beepsForAlarm_iff {s : Feed} {clock : Clock} {p : Point} {u : SourceDataUpdate}
    (ht : p.type = .digital) (he : p.isEvent = some false)
    (hd : p.alarmDisabled.truthy = false) (hsoe : NotSOE s clock p u) :
    BeepsForAlarm s clock p u ↔ NoRepeatedBeep s clock p u := by
  have hread : (readUpdate clock p u).isSOE = false := hsoe
  have halarmed : (readUpdate clock p u).alarmed =
      (p.alarmed || !(convert p u).value.eqv p.value) := by
    simp [readUpdate, raised, ht, hd]
  have hconv : (readUpdate clock p u).conv = convert p u := rfl
  have hstored : stored p (readUpdate clock p u) = true := by simp [stored, he]
  have hbeeps : beeps p (readUpdate clock p u) = (readUpdate clock p u).alarmed := by
    cases hr : (readUpdate clock p u).alarmed <;> simp [beeps, hd, he, ht, hread, hr]
  have hnew : newAlarm p (readUpdate clock p u) =
      ((readUpdate clock p u).alarmed &&
        (!p.alarmed || !(convert p u).value.eqv p.value)) := by
    simp [newAlarm, hd, ht, hread, hconv]
  unfold BeepsForAlarm NoRepeatedBeep
  simp only [exists_isBeep_change, exists_registersAlarm_change, hstored, hbeeps, hnew,
    halarmed]
  cases accepted p u (readUpdate clock p u) <;> cases p.alarmed <;>
    cases (convert p u).value.eqv p.value <;>
    cases p.priority.le LowestPriorityThatBeeps <;> simp

/-- Along every run each beep stands for a new alarm just when no delivery repeats the
beep of an alarmed point whose value is unchanged. -/
theorem every_beep_for_alarm_iff {doc : Point} {count : ℕ} {labels : List Label}
    (ht : doc.type = .digital) (he : doc.isEvent = some false)
    (hd : doc.alarmDisabled.truthy = false)
    (hsoe : Every step (OnDelivery NotSOE) (start doc count) labels) :
    Every step (OnDelivery BeepsForAlarm) (start doc count) labels ↔
      Every step (OnDelivery NoRepeatedBeep) (start doc count) labels := by
  have hserves : ∀ {P : Feed → Label → Prop}, Every step P (start doc count) labels →
      Every step (fun s a => (P s a ∧ OnDelivery NotSOE s a) ∧ Serves doc s)
        (start doc count) labels := by
    intro P hp
    exact (hp.and hsoe).strengthen (fun s a t _ hs h => serves_step hs h)
      (serves_start doc count)
  have hiff : ∀ (s : Feed) (a : Label), OnDelivery NotSOE s a → Serves doc s →
      (OnDelivery BeepsForAlarm s a ↔ OnDelivery NoRepeatedBeep s a) := by
    intro s a hn hs
    cases a with
    | deliver clock =>
      have hpoint : ∀ e ∈ due s, (BeepsForAlarm s clock e.1 e.2 ↔
          NoRepeatedBeep s clock e.1 e.2) := by
        intro e hdue
        have hp : SamePoint e.1 doc := hs.due hdue
        exact beepsForAlarm_iff (hp.settings.type.trans ht) (hp.isEvent.trans he)
          (hp.limits.alarmDisabled ▸ hd) (hn e hdue)
      exact forall₂_congr hpoint
    | _ => exact Iff.rfl
  constructor
  · intro h
    exact (hserves h).imp fun s a hs => (hiff s a hs.1.2 hs.2).mp hs.1.1
  · intro h
    exact (hserves h).imp fun s a hs => (hiff s a hs.1.2 hs.2).mpr hs.1.1

section Example

/-- An alarmed digital point of the highest priority. -/
def alarmedPoint : Point :=
  { samplePoint with type := .digital, priority := .fin 0, value := .fin 1, alarmed := true }

def qualityLost : SourceDataUpdate := { sampleWrite 1 with invalidAtSource := some true }

theorem quality_change_beeps :
    ∃ s ∈ run step (start alarmedPoint 0) [.silence .clear, .write qualityLost, .lookup 0],
      (s.db.sent = [] ∧ s.db.queued = []) ∧ OnDelivery NotSOE s (.deliver sampleClock) ∧
      ∃ e ∈ due s, (convert e.1 e.2).value = s.db.stored.value ∧
        (∃ q ∈ (change sampleClock s.digitalUpdatesCount e.1 e.2).enqueued, isBeep q = true) ∧
        ¬ ∃ q ∈ (change sampleClock s.digitalUpdatesCount e.1 e.2).enqueued,
          registersAlarm q = true := by
  decide +kernel

theorem value_changes_beep_for_alarm :
    Every step (OnDelivery BeepsForAlarm) (start alarmedPoint 0)
      ([.ackOne] ++ sampleCycle 0 ++ [.ackOne] ++ sampleCycle 1) :=
  (every_beep_for_alarm_iff rfl rfl rfl (by decide +kernel)).mpr (by decide +kernel)

end Example

end JsonScada.System.BeepAlarm
