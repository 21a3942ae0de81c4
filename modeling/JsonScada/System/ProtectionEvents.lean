/- path: JsonScada/System/ProtectionEvents
   source: src/cs_data_processor/cs_data_processor.js, isSOE, alarmed and protection events for state OFF
   digest: Which updates without a source time change a protection event. -/

import JsonScada.System.PointFeed

set_option autoImplicit false
set_option relaxedAutoImplicit false

namespace JsonScada.System.ProtectionEvents

open JsonScada.Lib.Binary64 JsonScada.Lib.EcmaScript JsonScada.Lib.Machine
open JsonScada.Lib.WriteBehind JsonScada.Model.Documents JsonScada.Processor.Convert
open JsonScada.Processor.Limits JsonScada.Processor.Change JsonScada.Processor.Flush
open JsonScada.System.PointFeed

/-- The previous update is flushed, and the document delivered is the one it left. -/
def AfterFlush (s : Feed) (_ : Clock) (p : Point) (_ : SourceDataUpdate) : Prop :=
  s.db.Idle ∧ p.value = s.db.stored.value ∧ p.alarmed = s.db.stored.alarmed

/-- A delivery, once flushed, changes value and alarm only for an SOE, and never makes the
value zero. -/
def ChangedBySOE (s : Feed) (clock : Clock) (p : Point) (u : SourceDataUpdate) : Prop :=
  ∀ t r, step s (.deliver clock) = some t → run step t (flush t) = some r →
    (isSOE clock p u = false →
      r.db.stored.value = s.db.stored.value ∧ r.db.stored.alarmed = s.db.stored.alarmed) ∧
    (s.db.stored.value ≠ .fin 0 → r.db.stored.value ≠ .fin 0)

/-- No reason but the value to take the update: no range check, no source time, a document
updated before and with the same quality. -/
structure Plain (p : Point) (u : SourceDataUpdate) : Prop where
  rangeCheck : ∀ t ∈ u.rangeCheck, t = 0
  timeTagAtSource : u.timeTagAtSource = none
  timeTag : p.timeTag ≠ .null
  invalid : (convert p u).invalid = p.invalid

theorem plain_iff {p : Point} {u : SourceDataUpdate} : Plain p u ↔
    (∀ t ∈ u.rangeCheck, t = 0) ∧ u.timeTagAtSource = none ∧ p.timeTag ≠ .null ∧
      (convert p u).invalid = p.invalid :=
  ⟨fun h => ⟨h.1, h.2, h.3, h.4⟩, fun h => ⟨h.1, h.2.1, h.2.2.1, h.2.2.2⟩⟩

instance (p : Point) (u : SourceDataUpdate) : Decidable (Plain p u) :=
  decidable_of_iff _ plain_iff.symm

/-- An update that is no SOE is historical or plain, or has the value zero, or the value of
the document, whose alarm is not one left from before the alarms were disabled. -/
def Harmless (_ : Feed) (clock : Clock) (p : Point) (u : SourceDataUpdate) : Prop :=
  isSOE clock p u = false →
    u.isHistorical = true ∨ Plain p u ∨ (convert p u).value = .fin 0 ∨
      ((convert p u).value = p.value ∧ (p.alarmDisabled = .bool true → p.alarmed = false))

instance (s : Feed) (clock : Clock) (p : Point) (u : SourceDataUpdate) :
    Decidable (AfterFlush s clock p u) :=
  inferInstanceAs (Decidable ((_ ∧ _) ∧ _ ∧ _))

instance (s : Feed) (clock : Clock) (p : Point) (u : SourceDataUpdate) :
    Decidable (Harmless s clock p u) := by unfold Harmless; infer_instance

section Decision

variable {p : Point} {u : SourceDataUpdate} {clock : Clock}

/-- The value of a digital point is a number. -/
theorem convertDigital_ne_nan : (convertDigital p u).value ≠ .nan := by
  have hguard : (guardValue u (quality u)).1 ≠ .nan := by
    rw [guardValue]
    split
    · rename_i x heq
      cases x <;> simp [Number.isNaN]
    · simp
  have hbit : ∀ b, boolNum b ≠ .nan := by
    intro b
    cases b <;> simp [boolNum]
  simp only [convertDigital]
  split_ifs
  · exact hbit _
  · exact hbit _
  · exact hbit _
  · exact hguard

theorem stored_iff_ne_zero (hp : p.isDigitalEvent = true) :
    stored p (readUpdate clock p u) = true ↔ (convert p u).value ≠ .fin 0 := by
  have hconv : (readUpdate clock p u).conv = convert p u := rfl
  rw [Point.isDigitalEvent, Bool.and_comm] at hp
  rw [stored, hconv, hp, Bool.true_and, Bool.not_eq_true', ← Bool.not_eq_true, Number.eqv_iff]
  constructor
  · intro h hzero
    exact h ⟨by simp [hzero], hzero⟩
  · rintro h ⟨-, hzero⟩
    exact h hzero

/-- An update of a protection event that is no SOE is dropped for being historical or plain. -/
theorem not_accepted_iff (hp : p.isDigitalEvent = true) (hsoe : isSOE clock p u = false) :
    accepted p u (readUpdate clock p u) = false ↔ u.isHistorical = true ∨ Plain p u := by
  have hr : (readUpdate clock p u).isSOE = false := hsoe
  have hconv : (readUpdate clock p u).conv = convert p u := rfl
  obtain ⟨ht, he⟩ : p.type = .digital ∧ p.isEvent = some true := by
    simpa [Point.isDigitalEvent] using hp
  rw [plain_iff, accepted, hr, hconv, ht, he]
  cases u.isHistorical <;> cases u.rangeCheck <;> simp [and_assoc]

/-- The alarm a stored update of a digital point leaves. -/
theorem alarmed_pointUpdate (hp : p.type = .digital) :
    (pointUpdate clock p u (readUpdate clock p u)).alarmed =
      if p.alarmDisabled = .bool true then false else raised p (convert p u) := by
  have hr : (readUpdate clock p u).alarmed = raised p (convert p u) := by simp [readUpdate, hp]
  rw [pointUpdate, hr]

/-- A stored update leaves value and alarm when its value is that of the document. -/
theorem kept_iff (hp : p.type = .digital) :
    ((convert p u).value = p.value ∧
        (pointUpdate clock p u (readUpdate clock p u)).alarmed = p.alarmed) ↔
      ((convert p u).value = p.value ∧ (p.alarmDisabled = .bool true → p.alarmed = false)) := by
  refine and_congr_right fun hvalue => ?_
  have hnan : (convert p u).value ≠ .nan := by
    rw [convert, hp]
    exact convertDigital_ne_nan
  have hsame : (convert p u).value.eqv p.value = true := Number.eqv_iff.mpr ⟨hnan, hvalue⟩
  have hraised : raised p (convert p u) = p.alarmed := by simp [raised, hsame]
  rw [alarmed_pointUpdate hp, hraised]
  split_ifs with hdis
  · exact ⟨fun h _ => h.symm, fun h => (h hdis).symm⟩
  · simp [hdis]

end Decision

variable {doc p : Point} {u : SourceDataUpdate} {s : Feed} {clock : Clock}

/-- What is stored after a delivery and its flush. -/
theorem stored_after (hs : Serves doc s) (hd : doc.Ordinary) (hp : SamePoint p doc)
    {events : List ChangeEvent} {r : Feed}
    (hr : run step (deliver clock p u events s) (flush (deliver clock p u events s)) = some r)
    (hidle : s.db.Idle) :
    r.db.stored =
      if accepted p u (readUpdate clock p u) && stored p (readUpdate clock p u) then
        (BulkOp.setPoint (pointUpdate clock p u (readUpdate clock p u))).update s.db.stored
      else s.db.stored := by
  rw [run_flush] at hr
  obtain rfl := Option.some.inj hr
  have hnewest : s.newest = s.db.stored := Buffer.newest_of_idle hidle
  show (deliver clock p u events s).newest = _
  rw [newest_deliver_eq, hnewest]
  exact applyAll_enqueued (hp._id.trans hs.stored._id.symm) (hs.stored.ordinary hd)

/-- A delivery and its flush have one outcome. -/
theorem changedBySOE_iff_newest (hdue : due s = some (p, u)) :
    ChangedBySOE s clock p u ↔
      (isSOE clock p u = false →
        (deliver clock p u s.events.tail s).newest.value = s.db.stored.value ∧
          (deliver clock p u s.events.tail s).newest.alarmed = s.db.stored.alarmed) ∧
      (s.db.stored.value ≠ .fin 0 →
        (deliver clock p u s.events.tail s).newest.value ≠ .fin 0) := by
  have hstep : ∃ t, step s (.deliver clock) = some t := by
    rw [due] at hdue
    split at hdue
    · rename_i v q rest heq
      exact ⟨_, by rw [step, heq]⟩
    · cases hdue
  obtain ⟨t, ht⟩ := hstep
  obtain ⟨q, v, hdue', -, rfl⟩ := step_deliver ht
  obtain ⟨rfl, rfl⟩ : q = p ∧ v = u := by simpa using hdue'.symm.trans hdue
  have hrun := run_flush (deliver clock q v s.events.tail s)
  rw [ChangedBySOE]
  constructor
  · intro h
    exact h _ _ ht hrun
  · intro h t' r ht' hr'
    obtain rfl := Option.some.inj (ht.symm.trans ht')
    obtain rfl := Option.some.inj (hrun.symm.trans hr')
    exact h

/-- One delivery, of an SOE or not. -/
theorem changedBySOE_iff (hs : Serves doc s) (hd : doc.Ordinary)
    (hevent : doc.isDigitalEvent = true) (hdue : due s = some (p, u))
    (hflushed : AfterFlush s clock p u) :
    ChangedBySOE s clock p u ↔ Harmless s clock p u := by
  obtain ⟨hidle, hvalue, halarmed⟩ := hflushed
  have hp : SamePoint p doc := hs.due hdue
  have hpe : p.isDigitalEvent = true := hp.isDigitalEvent.trans hevent
  have htype : p.type = .digital := by
    have hboth : p.type = .digital ∧ p.isEvent = some true := by
      simpa [Point.isDigitalEvent] using hpe
    exact hboth.1
  rw [changedBySOE_iff_newest hdue]
  have hstored := stored_after hs hd hp (run_flush (deliver clock p u s.events.tail s)) hidle
  set t := deliver clock p u s.events.tail s
  have hnewest : t.newest =
      if accepted p u (readUpdate clock p u) && stored p (readUpdate clock p u) then
        (BulkOp.setPoint (pointUpdate clock p u (readUpdate clock p u))).update s.db.stored
      else s.db.stored := hstored
  cases hacc : accepted p u (readUpdate clock p u) with
  | false =>
    rw [hacc, Bool.false_and, if_neg Bool.false_ne_true] at hnewest
    rw [hnewest]
    refine iff_of_true ⟨fun _ => ⟨rfl, rfl⟩, id⟩ fun hsoe => ?_
    rcases (not_accepted_iff hpe hsoe).mp hacc with hhist | hplain
    · exact Or.inl hhist
    · exact Or.inr (Or.inl hplain)
  | true =>
    rw [hacc, Bool.true_and] at hnewest
    have hdrop : isSOE clock p u = false → ¬ (u.isHistorical = true ∨ Plain p u) := by
      intro hsoe hor
      rw [(not_accepted_iff hpe hsoe).mpr hor] at hacc
      cases hacc
    by_cases hzero : (convert p u).value = .fin 0
    · have hst : ¬ stored p (readUpdate clock p u) = true := by
        rw [stored_iff_ne_zero hpe]
        exact not_not_intro hzero
      rw [if_neg hst] at hnewest
      rw [hnewest]
      exact iff_of_true ⟨fun _ => ⟨rfl, rfl⟩, id⟩ fun _ => Or.inr (Or.inr (Or.inl hzero))
    · rw [if_pos ((stored_iff_ne_zero hpe).mpr hzero)] at hnewest
      have hv : t.newest.value = (convert p u).value := by rw [hnewest]; rfl
      have ha : t.newest.alarmed = (pointUpdate clock p u (readUpdate clock p u)).alarmed := by
        rw [hnewest]; rfl
      rw [hv, ha, ← hvalue, ← halarmed]
      simp only [hzero, ne_eq, not_false_iff, implies_true, and_true]
      rw [Harmless, kept_iff htype]
      refine forall_congr' fun hsoe => ?_
      constructor
      · intro h
        exact Or.inr (Or.inr (Or.inr h))
      · rintro (hhist | hplain | habs | h)
        · exact absurd (Or.inl hhist) (hdrop hsoe)
        · exact absurd (Or.inr hplain) (hdrop hsoe)
        · exact absurd habs hzero
        · exact h

/-- Updates flushed one by one: a protection event changes by SOE only, and never to zero,
throughout a run exactly where all its deliveries without SOE are harmless. -/
theorem changedBySOE_iff_harmless {count : ℕ} {labels : List Label} (hd : doc.Ordinary)
    (hevent : doc.isDigitalEvent = true)
    (hflushed : Every step (OnDelivery AfterFlush) (start doc count) labels) :
    Every step (OnDelivery ChangedBySOE) (start doc count) labels ↔
      Every step (OnDelivery Harmless) (start doc count) labels := by
  have hboth := hflushed.strengthen (fun s a t _ hs h => serves_step hs h) (serves_start doc count)
  have hone : ∀ s a, OnDelivery AfterFlush s a ∧ Serves doc s →
      (OnDelivery ChangedBySOE s a ↔ OnDelivery Harmless s a) := by
    rintro s a ⟨ha, hs⟩
    cases a with
    | deliver clock =>
      refine forall₂_congr fun e he => ?_
      exact changedBySOE_iff hs hd hevent he (ha e he)
    | _ => exact Iff.rfl
  constructor
  · intro h
    exact (h.and hboth).imp fun s a hs => (hone s a hs.2).mp hs.1
  · intro h
    exact (h.and hboth).imp fun s a hs => (hone s a hs.2).mpr hs.1

section Example

/-- A protection relay that is not operated. -/
def relay : Point :=
  { _id := .fin 5, tag := "KAW2TRIP", type := .digital, isEvent := some true, priority := .fin 3 }

def operated : SourceDataUpdate := { valueAtSource := .val (.fin 1), timeTag := 900 }

def delivered (u : SourceDataUpdate) : List Label := [.write u, .lookup 0, .deliver sampleClock]

/-- The relay operates with a source time, and is then read without one. -/
def operation : List Label :=
  delivered { operated with timeTagAtSource := some 800 } ++ [.drain, .apply, .apply] ++
    delivered { operated with valueAtSource := .val (.fin 0) }

theorem operation_changedBySOE :
    Every step (OnDelivery ChangedBySOE) (start relay 0) operation := by
  have hflushed : Every step (OnDelivery AfterFlush) (start relay 0) operation := by decide
  have hharmless : Every step (OnDelivery Harmless) (start relay 0) operation := by decide
  exact (changedBySOE_iff_harmless (by decide) rfl hflushed).mpr hharmless

/-- Without a source time and with its quality changed, the new value is stored and alarmed. -/
theorem doubtful_read_operates :
    Every step (OnDelivery AfterFlush) (start relay 0)
        (delivered { operated with invalidAtSource := some true }) ∧
      ¬ Every step (OnDelivery ChangedBySOE) (start relay 0)
        (delivered { operated with invalidAtSource := some true }) := by
  refine ⟨by decide, ?_⟩
  rintro ⟨-, h⟩
  have hdelivery := ((h _ rfl).2 _ rfl).1 _ rfl
  have hkept := (hdelivery _ _ rfl (run_flush _)).1 rfl
  exact absurd hkept.1 (by decide)

end Example

end JsonScada.System.ProtectionEvents
