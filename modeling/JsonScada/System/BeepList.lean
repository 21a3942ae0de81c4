/- path: JsonScada/System/BeepList
   source: src/cs_data_processor/cs_data_processor.js, src/server_realtime_auth/index.js
   digest: The beep point between the two halves of new alarms and the silences. -/

import JsonScada.Lib.Machine
import JsonScada.Processor.Flush
import JsonScada.Server.Acknowledge

set_option autoImplicit false
set_option relaxedAutoImplicit false

namespace JsonScada.System.BeepList

open JsonScada.Lib.Binary64 JsonScada.Lib.Machine JsonScada.Model.Documents
open JsonScada.Processor.Change JsonScada.Processor.Flush JsonScada.Server.Silence

/-- A new alarm in the unordered bulk, with the halves that have taken effect. -/
structure Alarm where
  beepType : Option Number
  timeTag : Date
  group1 : String
  setDone : Bool := false
  addDone : Bool := false
  deriving DecidableEq

/-- The beep point, the alarms sent and the silence requests with what is left of them. -/
structure Beeper where
  doc : Point
  alarms : List Alarm := []
  requests : List (List SilenceOp) := []
  deriving DecidableEq

/-- A new alarm is sent, one of its halves takes effect, a silence is requested, or
the next update of a request takes effect. -/
inductive Label where
  | alarm (beepType : Option Number) (timeTag : Date) (group1 : String)
  | setBeep (i : ℕ)
  | addToSet (i : ℕ)
  | silence (authentication : Bool) (group1List : List String)
  | serve (j : ℕ)
  deriving DecidableEq

def step (s : Beeper) : Label → Option Beeper
  | .alarm beepType timeTag group1 =>
    some { s with alarms := s.alarms ++ [⟨beepType, timeTag, group1, false, false⟩] }
  | .setBeep i =>
    match s.alarms[i]? with
    | some ⟨b, t, g, false, d⟩ =>
      some { s with
        doc := (BulkOp.setBeep b t).apply s.doc
        alarms := s.alarms.set i ⟨b, t, g, true, d⟩ }
    | _ => none
  | .addToSet i =>
    match s.alarms[i]? with
    | some ⟨b, t, g, d, false⟩ =>
      some { s with
        doc := (BulkOp.addToSet g).apply s.doc
        alarms := s.alarms.set i ⟨b, t, g, d, true⟩ }
    | _ => none
  | .silence authentication group1List =>
    some { s with requests := s.requests ++ [silenceOps authentication group1List] }
  | .serve j =>
    match s.requests[j]? with
    | some (op :: ops) =>
      some { s with doc := op.apply s.doc, requests := s.requests.set j ops }
    | _ => none

/-- All operations have completed. -/
def Completed (s : Beeper) : Prop :=
  (∀ a ∈ s.alarms, a.setDone = true ∧ a.addDone = true) ∧ ∀ r ∈ s.requests, r = []

instance (s : Beeper) : Decidable (Completed s) := by unfold Completed; infer_instance

def Listed (p : Point) : Prop := p.beepGroup1List.getD [] ≠ []

instance (p : Point) : Decidable (Listed p) := by unfold Listed; infer_instance

/-- An alarm whose value is written and whose group is not. -/
def HalfDone (s : Beeper) : Prop := ∃ a ∈ s.alarms, a.setDone = true ∧ a.addDone = false

/-- An alarm whose value is still to be written. -/
def SetPending (s : Beeper) : Prop := ∃ a ∈ s.alarms, a.setDone = false

instance (s : Beeper) : Decidable (HalfDone s) := by unfold HalfDone; infer_instance

instance (s : Beeper) : Decidable (SetPending s) := by unfold SetPending; infer_instance

/-- The step is an update of a silence that sets the value to zero. -/
def zeroes (s : Beeper) : Label → Bool
  | .serve j =>
    match s.requests[j]? with
    | some (.clear :: _) => true
    | some (.zeroIfEmpty :: _) => s.doc.beepGroup1List = some []
    | _ => false
  | _ => false

/-- No silence sets the value to zero between the two halves of an alarm, unless
another alarm is about to set it again. -/
def SilencesBetweenAlarms (s : Beeper) (a : Label) : Prop :=
  zeroes s a = true → HalfDone s → SetPending s

instance (s : Beeper) (a : Label) : Decidable (SilencesBetweenAlarms s a) := by
  unfold SilencesBetweenAlarms
  infer_instance

/-- A listed group or a half done alarm is heard, or will be. -/
structure Heard (s : Beeper) : Prop where
  _id : s.doc._id = beepPointKey
  listed : Listed s.doc → s.doc.value = .fin 1 ∨ SetPending s
  halfDone : HalfDone s → s.doc.value = .fin 1 ∨ SetPending s

theorem step_setBeep {s t : Beeper} {i : ℕ} (h : step s (.setBeep i) = some t) :
    ∃ a, s.alarms[i]? = some a ∧ a.setDone = false ∧
      t = { s with
        doc := (BulkOp.setBeep a.beepType a.timeTag).apply s.doc
        alarms := s.alarms.set i { a with setDone := true } } := by
  simp only [step] at h
  split at h
  · rename_i b τ g d heq
    exact ⟨⟨b, τ, g, false, d⟩, heq, rfl, (Option.some.inj h).symm⟩
  · cases h

theorem step_addToSet {s t : Beeper} {i : ℕ} (h : step s (.addToSet i) = some t) :
    ∃ a, s.alarms[i]? = some a ∧ a.addDone = false ∧
      t = { s with
        doc := (BulkOp.addToSet a.group1).apply s.doc
        alarms := s.alarms.set i { a with addDone := true } } := by
  simp only [step] at h
  split at h
  · rename_i b τ g d heq
    exact ⟨⟨b, τ, g, d, false⟩, heq, rfl, (Option.some.inj h).symm⟩
  · cases h

theorem step_serve {s t : Beeper} {j : ℕ} (h : step s (.serve j) = some t) :
    ∃ op ops, s.requests[j]? = some (op :: ops) ∧
      t = { s with doc := op.apply s.doc, requests := s.requests.set j ops } := by
  simp only [step] at h
  split at h
  · rename_i op ops heq
    exact ⟨op, ops, heq, (Option.some.inj h).symm⟩
  · cases h

/-- An alarm keeps the half it has when the other half of some alarm is done. -/
private theorem setPending_addToSet {as : List Alarm} {i : ℕ} {a : Alarm}
    (hi : as[i]? = some a) (h : ∃ x ∈ as, x.setDone = false) :
    ∃ x ∈ as.set i { a with addDone := true }, x.setDone = false := by
  obtain ⟨x, hx, hd⟩ := h
  obtain ⟨k, hk⟩ := List.mem_iff_getElem?.mp hx
  by_cases hki : i = k
  · subst hki
    obtain rfl : a = x := Option.some.inj (hi.symm.trans hk)
    have hlt : i < as.length := (List.getElem?_eq_some_iff.mp hi).1
    exact ⟨_, List.mem_iff_getElem?.mpr ⟨i, List.getElem?_set_self hlt⟩, hd⟩
  · refine ⟨x, List.mem_iff_getElem?.mpr ⟨k, ?_⟩, hd⟩
    rw [List.getElem?_set_ne hki]
    exact hk

theorem heard_addToSet {s t : Beeper} {i : ℕ} (hs : Heard s)
    (h : step s (.addToSet i) = some t) : Heard t := by
  obtain ⟨a, hi, hadd, rfl⟩ := step_addToSet h
  have hmem : a ∈ s.alarms := List.mem_of_getElem? hi
  have hdoc : (BulkOp.addToSet a.group1).apply s.doc =
      (BulkOp.addToSet a.group1).update s.doc := if_pos hs._id
  -- before the step the alarm is half done, or its value is still to be written
  have hbefore : s.doc.value = .fin 1 ∨ SetPending s := by
    cases hset : a.setDone with
    | true => exact hs.halfDone ⟨a, hmem, hset, hadd⟩
    | false => exact .inr ⟨a, hmem, hset⟩
  have hafter := hbefore.imp_right (setPending_addToSet hi)
  refine ⟨?_, fun _ => ?_, fun _ => ?_⟩
  · exact (BulkOp.apply_id _ _).trans hs._id
  · rw [hdoc]
    exact hafter
  · rw [hdoc]
    exact hafter

theorem heard_serve {s t : Beeper} {j : ℕ} (hs : Heard s)
    (ha : SilencesBetweenAlarms s (.serve j)) (h : step s (.serve j) = some t) : Heard t := by
  obtain ⟨op, ops, hj, rfl⟩ := step_serve h
  have hdoc : op.apply s.doc = op.update s.doc := if_pos hs._id
  have hid : (op.apply s.doc)._id = beepPointKey := (SilenceOp.apply_id op s.doc).trans hs._id
  cases op with
  | pullAll gs =>
    refine ⟨hid, fun hl => ?_, fun hd => ?_⟩
    · rw [hdoc] at hl ⊢
      apply hs.listed
      intro hnil
      apply hl
      show (s.doc.beepGroup1List.map _).getD [] = []
      cases hgs : s.doc.beepGroup1List with
      | none => rfl
      | some l =>
        rw [hgs] at hnil
        obtain rfl : l = [] := hnil
        rfl
    · rw [hdoc]
      exact hs.halfDone hd
  | zeroIfEmpty =>
    by_cases hempty : s.doc.beepGroup1List = some []
    · have hz : zeroes s (.serve j) = true := by simp [zeroes, hj, hempty]
      have hup : SilenceOp.zeroIfEmpty.update s.doc = zeroBeep s.doc := if_pos hempty
      refine ⟨hid, fun hl => ?_, fun hd => .inr (ha hz hd)⟩
      rw [hdoc, hup] at hl
      exact absurd (by simp [zeroBeep, hempty]) hl
    · have hup : SilenceOp.zeroIfEmpty.update s.doc = s.doc := if_neg hempty
      rw [hup] at hdoc
      refine ⟨hid, fun hl => ?_, fun hd => ?_⟩
      · rw [hdoc] at hl ⊢
        exact hs.listed hl
      · rw [hdoc]
        exact hs.halfDone hd
  | clear =>
    have hz : zeroes s (.serve j) = true := by simp [zeroes, hj]
    refine ⟨hid, fun hl => ?_, fun hd => .inr (ha hz hd)⟩
    rw [hdoc] at hl
    exact absurd rfl hl

theorem heard_step {s t : Beeper} {a : Label} (ha : SilencesBetweenAlarms s a) (hs : Heard s)
    (h : step s a = some t) : Heard t := by
  cases a with
  | alarm b τ g =>
    obtain rfl := Option.some.inj h
    have hp : SetPending { s with alarms := s.alarms ++ [⟨b, τ, g, false, false⟩] } :=
      ⟨⟨b, τ, g, false, false⟩, by simp, rfl⟩
    exact ⟨hs._id, fun _ => .inr hp, fun _ => .inr hp⟩
  | setBeep i =>
    obtain ⟨a, hi, -, rfl⟩ := step_setBeep h
    have hdoc : (BulkOp.setBeep a.beepType a.timeTag).apply s.doc =
        (BulkOp.setBeep a.beepType a.timeTag).update s.doc := if_pos hs._id
    have hvalue : ((BulkOp.setBeep a.beepType a.timeTag).apply s.doc).value = .fin 1 := by
      rw [hdoc]
      rfl
    exact ⟨(BulkOp.apply_id _ _).trans hs._id, fun _ => .inl hvalue, fun _ => .inl hvalue⟩
  | addToSet i => exact heard_addToSet hs h
  | silence auth gs =>
    obtain rfl := Option.some.inj h
    exact ⟨hs._id, hs.listed, hs.halfDone⟩
  | serve j => exact heard_serve hs ha h

/-- In every state in which all operations have completed a group in the list is heard,
when no silence falls between the halves of the alarms. -/
theorem listed_beeps {doc : Point} {labels : List Label} {s : Beeper}
    (hid : doc._id = beepPointKey) (h0 : Listed doc → doc.value = .fin 1)
    (hsafe : Every step SilencesBetweenAlarms { doc := doc } labels)
    (hv : Visits step { doc := doc } labels s) (hdone : Completed s) (hl : Listed s.doc) :
    s.doc.value = .fin 1 := by
  have hstart : Heard { doc := doc } := by
    refine ⟨hid, fun h => .inl (h0 h), ?_⟩
    rintro ⟨a, ha, -⟩
    cases ha
  have hs : Heard s :=
    visits_invariant (fun s a t ha hs h => heard_step ha hs h) hsafe hstart hv
  rcases hs.listed hl with hvalue | ⟨a, ha, hset⟩
  · exact hvalue
  · rw [(hdone.1 a ha).1] at hset
    cases hset

/-- After a silence between the halves of an alarm nothing on its way sets the value. -/
theorem silent_of_zeroes {s t : Beeper} {j : ℕ} (hid : s.doc._id = beepPointKey)
    (ha : ¬ SilencesBetweenAlarms s (.serve j)) (h : step s (.serve j) = some t) :
    t.doc.value = .fin 0 ∧ HalfDone t ∧ ¬ SetPending t := by
  unfold SilencesBetweenAlarms at ha
  push Not at ha
  obtain ⟨hz, hhalf, hset⟩ := ha
  obtain ⟨op, ops, hj, rfl⟩ := step_serve h
  refine ⟨?_, hhalf, hset⟩
  have hdoc : op.apply s.doc = op.update s.doc := if_pos hid
  rw [hdoc]
  cases op with
  | pullAll gs => simp [zeroes, hj] at hz
  | zeroIfEmpty =>
    have hempty : s.doc.beepGroup1List = some [] := by simpa [zeroes, hj] using hz
    simp [SilenceOp.update, hempty, zeroBeep]
  | clear => rfl

section Example

def beepPoint : Point :=
  { _id := beepPointKey, tag := "_System.Status.AlarmBeep", type := .digital
    beepGroup1List := some [] }

/-- The silence of another user falls between the two halves. -/
theorem silence_loses_beep :
    ∃ s ∈ run step { doc := beepPoint } [.alarm none 1000 "KAW2", .setBeep 0,
        .silence true ["KAW1"], .serve 0, .serve 0, .addToSet 0],
      Completed s ∧ s.doc.beepGroup1List = some ["KAW2"] ∧ s.doc.value = .fin 0 := by
  decide +kernel

theorem later_silence_keeps_beep :
    ∃ s ∈ run step { doc := beepPoint } [.alarm none 1000 "KAW2", .addToSet 0,
        .silence true ["KAW1"], .serve 0, .setBeep 0, .serve 0],
      Completed s ∧ s.doc.value = .fin 1 := by
  obtain ⟨s, hs, hdone, hl⟩ :
      ∃ s ∈ run step { doc := beepPoint } [.alarm none 1000 "KAW2", .addToSet 0,
          .silence true ["KAW1"], .serve 0, .setBeep 0, .serve 0],
        Completed s ∧ Listed s.doc := by
    decide +kernel
  exact ⟨s, hs, hdone, listed_beeps rfl (by decide +kernel) (by decide +kernel)
    ⟨_, List.prefix_rfl, hs⟩ hdone hl⟩

end Example

end JsonScada.System.BeepList
