/- path: JsonScada/System/MetricFlags
   source: src/mqtt-sparkplug/index.js, src/cs_data_processor/cs_data_processor.js
   digest: Historical and transient flags of metrics, from the message to the tag. -/

import JsonScada.MqttSparkplug.Update
import JsonScada.Processor.Change

set_option autoImplicit false
set_option relaxedAutoImplicit false

namespace JsonScada.System.MetricFlags

open JsonScada.Lib.Binary64 JsonScada.Lib.Machine
open JsonScada.Model.Documents (Date Point SourceDataUpdate)
open JsonScada.MqttSparkplug.Payload JsonScada.MqttSparkplug.Receive
open JsonScada.MqttSparkplug.Update JsonScada.Processor.Change

/-- The update has the flags of the metric. -/
structure Carries (head : Head) (sdu : SourceDataUpdate) : Prop where
  historical : head.isHistorical = true → sdu.isHistorical = true
  transient : head.isTransient = true → sdu.isNotForHistorical = true

section Consumer

variable {head : Head} {sdu : SourceDataUpdate}

/-- The data processor leaves the present value to a historical metric whose flag it sees. -/
theorem Carries.leaves_present (h : Carries head sdu) (hhead : head.isHistorical = true)
    (clock : Clock) (count : ℕ) (doc : Point) : (change clock count doc sdu).enqueued = [] := by
  have haccepted : ∀ r, accepted doc sdu r = false := by
    intro r
    rw [accepted, h.historical hhead]
    exact Bool.and_false _
  simp [change, haccepted]

/-- A transient metric whose flag it sees is kept out of the historian, in a document with a
period. -/
theorem Carries.not_recorded (h : Carries head sdu) (hhead : head.isTransient = true)
    (clock : Clock) (count : ℕ) {doc : Point} (hperiod : doc.historianPeriod ≠ .absent) :
    (change clock count doc sdu).hist = [] := by
  have hinsert : ∀ value, insertIntoHistorian doc sdu value = false := by
    intro value
    rw [insertIntoHistorian, h.transient hhead]
    split
    · next habsent => exact absurd habsent hperiod
    · simp
  simp [change, hinsert]

end Consumer

section Runs

variable (host : Host)

/-- The updates that are written have the flags of the metrics they were queued for. -/
structure Kept (p : Progress) : Prop where
  origin : ∀ w ∈ p.written, ∃ head ∈ p.received, EntryOf host head w.1
  carries : ∀ w ∈ p.written, ∀ head ∈ p.received, EntryOf host head w.1 → Carries head w.2

/-- The value that is written now is of a metric without the flags. -/
def Unflagged (p : Progress) : Event → Prop
  | .update _ true => ∀ data ∈ p.client.ValuesQueue.head?,
      data.isHistorical = false ∧ data.isNotForHistorical = false
  | _ => True

/-- Values in the queue and values written were queued for metrics that were received. -/
structure Sourced (p : Progress) : Prop where
  queue : ∀ data ∈ p.client.ValuesQueue, ∃ head ∈ p.received, EntryOf host head data
  written : ∀ w ∈ p.written, ∃ head ∈ p.received, EntryOf host head w.1
  update : ∀ w ∈ p.written, ∃ now, w.2 = updTag host now w.1

variable {host}

theorem sourced_start : Sourced host {} where
  queue _ h := by cases h
  written _ h := by cases h
  update _ h := by cases h

theorem sourced_step {p q : Progress} {e : Event} (hp : Sourced host p)
    (h : step host p e = some q) : Sourced host q := by
  cases e with
  | message m =>
    cases h
    refine ⟨fun data hdata => ?_, fun w hw => ?_, hp.update⟩
    · rcases queuedFrom_onMessage m p.client data hdata with hold | ⟨head, hhead, hentry⟩
      · obtain ⟨head, hhead, hentry⟩ := hp.queue data hold
        exact ⟨head, List.mem_append_left _ hhead, hentry⟩
      · exact ⟨head, List.mem_append_right _ hhead, hentry⟩
    · obtain ⟨head, hhead, hentry⟩ := hp.written w hw
      exact ⟨head, List.mem_append_left _ hhead, hentry⟩
  | update now hasTag =>
    rw [step, processMongoUpdates] at h
    cases hqueue : p.client.ValuesQueue with
    | nil => simp [hqueue] at h
    | cons data rest =>
      rw [hqueue] at h
      cases h
      have hin : ∀ x ∈ data :: rest, ∃ head ∈ p.received, EntryOf host head x := by
        rw [← hqueue]
        exact hp.queue
      refine ⟨fun x hx => hin x (List.mem_cons_of_mem _ hx), fun w hw => ?_, fun w hw => ?_⟩
      · cases hasTag with
        | false => exact hp.written w hw
        | true =>
          rcases List.mem_append.mp hw with hw | hw
          · exact hp.written w hw
          · rw [List.mem_singleton.mp hw]
            exact hin data List.mem_cons_self
      · cases hasTag with
        | false => exact hp.update w hw
        | true =>
          rcases List.mem_append.mp hw with hw | hw
          · exact hp.update w hw
          · rw [List.mem_singleton.mp hw]
            exact ⟨now, rfl⟩

/-- No update that is written has a flag. -/
theorem carries_updTag_iff {head : Head} {data : QueuedValue} (h : EntryOf host head data)
    (now : Date) : Carries head (updTag host now data) ↔
      data.isHistorical = false ∧ data.isNotForHistorical = false := by
  rw [h.flags.1, h.flags.2]
  constructor
  · intro hcarries
    refine ⟨?_, ?_⟩
    · rw [Bool.eq_false_iff]
      exact fun hhead => Bool.false_ne_true (hcarries.historical hhead)
    · rw [Bool.eq_false_iff]
      exact fun hhead => Bool.false_ne_true (hcarries.transient hhead)
  · rintro ⟨hhistorical, htransient⟩
    refine ⟨fun hhead => ?_, fun hhead => ?_⟩
    · rw [hhistorical] at hhead
      cases hhead
    · rw [htransient] at hhead
      cases hhead

/-- In the states of runs, what is written was unflagged. -/
theorem kept_iff {p : Progress} (hp : Sourced host p) :
    Kept host p ↔ ∀ w ∈ p.written, w.1.isHistorical = false ∧ w.1.isNotForHistorical = false := by
  constructor
  · intro hkept w hw
    obtain ⟨head, hhead, hentry⟩ := hkept.origin w hw
    obtain ⟨now, hupdate⟩ := hp.update w hw
    have hcarries := hkept.carries w hw head hhead hentry
    rw [hupdate] at hcarries
    exact (carries_updTag_iff hentry now).mp hcarries
  · intro h
    refine ⟨hp.written, fun w hw head _ hentry => ?_⟩
    obtain ⟨now, hupdate⟩ := hp.update w hw
    rw [hupdate]
    exact (carries_updTag_iff hentry now).mpr (h w hw)

theorem kept_step_iff {p q : Progress} {e : Event} (hp : Sourced host p) (hkept : Kept host p)
    (h : step host p e = some q) : Kept host q ↔ Unflagged p e := by
  have hold := (kept_iff hp).mp hkept
  rw [kept_iff (sourced_step hp h)]
  cases e with
  | message m =>
    cases h
    exact iff_of_true hold trivial
  | update now hasTag =>
    rw [step, processMongoUpdates] at h
    cases hqueue : p.client.ValuesQueue with
    | nil => simp [hqueue] at h
    | cons data rest =>
      rw [hqueue] at h
      cases h
      cases hasTag with
      | false => exact iff_of_true hold trivial
      | true =>
        rw [Unflagged, hqueue]
        constructor
        · intro hall x hx
          cases hx
          exact hall _ (List.mem_append_right _ (List.mem_singleton_self _))
        · intro hnew w hw
          rcases List.mem_append.mp hw with hw | hw
          · exact hold w hw
          · rw [List.mem_singleton.mp hw]
            exact hnew data rfl

/-- The flags of metrics reach the tags throughout a run exactly where no metric that is
written has one. -/
theorem flags_kept_iff (events : List Event) :
    (∀ p, Visits (step host) {} events p → Kept host p) ↔
      Every (step host) Unflagged {} events := by
  refine visits_iff_every (A := fun _ _ => True) (J := Sourced host) ?_ ?_
    (every_of_forall_mem fun _ _ => trivial) sourced_start ?_
  · intro p e q _ hp h
    exact ⟨sourced_step hp h, fun hkept => kept_step_iff hp hkept h⟩
  · intro p e _ h
    cases e with
    | message m => cases h
    | update now hasTag =>
      rw [step, processMongoUpdates] at h
      cases hqueue : p.client.ValuesQueue with
      | nil =>
        cases hasTag <;> simp [Unflagged, hqueue]
      | cons data rest => simp [hqueue] at h
  · exact (kept_iff sourced_start).mpr fun _ h => by cases h

end Runs

section Example

/-- A node is born with a value of the past, which is then written. -/
def replayed : List Event :=
  [.message {
      topic := "spBv1.0/G/NBIRTH/N"
      metrics := some [.scalar { name := some "P", type := some "Boolean", isHistorical := true }
        (some (.bool true))]
      now := 0 },
    .update 0 true]

/-- A metric loses its flag on the way to the tag. -/
theorem replayed_loses_flag :
    ¬ ∀ (host : Host) (events : List Event) (p : Progress),
      Visits (step host) {} events p → Kept host p := by
  intro h
  have hflagged : (run (step plainHost) {} replayed).any
      (fun p => p.written.any fun w => w.1.isHistorical) = true := by decide
  obtain ⟨p, hp, hany⟩ := (Option.any_eq_true _ _).mp hflagged
  obtain ⟨w, hw, hhistorical⟩ := List.any_eq_true.mp hany
  have hsourced : Sourced plainHost p := run_invariant
    (fun _ _ _ _ hs ht => sourced_step hs ht) (every_of_forall_mem fun _ _ => trivial)
    sourced_start hp
  have hplain := ((kept_iff hsourced).mp (h _ _ p ⟨replayed, List.prefix_refl _, hp⟩) w hw).1
  rw [hhistorical] at hplain
  cases hplain

end Example

end JsonScada.System.MetricFlags
