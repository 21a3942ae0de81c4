/- path: JsonScada/System/DatabaseFailure
   source: src/lib60870.netcore/iec104client/MongoUpdate.cs, src/dnp3/Dnp3ClientCpp/mongo.cpp
   digest: Which failures of the database lose acquired values of two client drivers. -/

import JsonScada.Dnp3Client.WriteLoop
import JsonScada.Iec104Client.WriteLoop
import JsonScada.Lib.Custody

set_option autoImplicit false
set_option relaxedAutoImplicit false

namespace JsonScada.System.DatabaseFailure

open JsonScada.Lib.Binary64 JsonScada.Lib.Machine JsonScada.Lib.Custody
open JsonScada.Model.Documents

section Iec104

open JsonScada.Iec104Client.Update JsonScada.Iec104Client.WriteLoop

def iecAddress (iv : IEC_Value) : ℤ × ℤ × ℤ := (iv.conn_number, iv.common_address, iv.address)

def iecFinite (iv : IEC_Value) : Bool := decide iv.value.IsFinite

/-- The values a receive handler gives to the driver. -/
def iecReceived : Event → List IEC_Value
  | .enqueue iv => [iv]
  | _ => []

/-- What was written, what is being written, and what waits in the queue. -/
def iecContents (s : Acquirer) : List IEC_Value := s.written ++ s.listWrites ++ s.IECDataQueue

/-- The values not yet written do not come to exceed the limit. -/
def iecWithin (s : Acquirer) : Event → Prop
  | .enqueue _ => s.listWrites.length + s.IECDataQueue.length < DataBufferLimit
  | _ => True

instance (s : Acquirer) (e : Event) : Decidable (iecWithin s e) := by
  cases e <;> unfold iecWithin <;> infer_instance

/-- The query for the key of a new tag is made, and fails. -/
def iecQueryFails (iv : IEC_Value) (realtimeData : Option (List Point)) (creators : List Creator) :
    Prop :=
  realtimeData = none ∧ ∃ c, creators.find? (ofValue iv) = some c ∧ c.isNew iv = true ∧
    c.LastNewKeyCreated.eqv (.fin 0) = true

/-- No query for a key and no bulk write fails while a finite value is in hand. -/
def iecSurvives (s : Acquirer) : Event → Prop
  | .dequeue realtimeData => s.stage = .taking → ∀ iv ∈ s.IECDataQueue.head?,
    iecQueryFails iv realtimeData s.creators →
      ∀ x ∈ s.listWrites ++ [iv], iecFinite x = false
  | .bulkWrite succeeds => s.stage = .writing → succeeds = false →
    ∀ x ∈ s.listWrites, iecFinite x = false
  | _ => True

/-- Values are in hand while the queue is emptied and until they are written. -/
structure IecInv (s : Acquirer) : Prop where
  rest : s.stage ≠ .taking → s.stage ≠ .writing → s.listWrites = []
  within : s.listWrites.length + s.IECDataQueue.length ≤ DataBufferLimit

theorem iecCreate_snd {iv : IEC_Value} {realtimeData : Option (List Point)}
    {creators : List Creator} :
    (create iv realtimeData creators).2 = false ↔ iecQueryFails iv realtimeData creators := by
  unfold create iecQueryFails
  cases hfind : creators.find? (ofValue iv) with
  | none => simp
  | some c =>
    cases hnew : c.isNew iv with
    | false => simp [hnew]
    | true =>
      cases hzero : c.LastNewKeyCreated.eqv (.fin 0) with
      | false => simp [hnew, hzero, Creator.nextKey]
      | true => cases realtimeData <;> simp [hnew, hzero, Creator.nextKey]

instance (iv : IEC_Value) (realtimeData : Option (List Point)) (creators : List Creator) :
    Decidable (iecQueryFails iv realtimeData creators) := decidable_of_iff _ iecCreate_snd

instance (s : Acquirer) (e : Event) : Decidable (iecSurvives s e) := by
  cases e <;> unfold iecSurvives <;> infer_instance

/-- An exception with nothing in hand. -/
theorem iec_fail {s : Acquirer} (h : IecInv s) (hnil : s.listWrites = []) {P : Prop} (hp : P) :
    IecInv (fail s) ∧ Drops iecContents iecFinite s (fail s) [] P := by
  have hlength := h.within
  rw [hnil] at hlength
  exact ⟨⟨fun _ _ => rfl, hlength⟩, drops_nothing (by simp [iecContents, fail, hnil]) hp⟩

/-- A value comes into hand, or is lost with what is in hand. -/
theorem iec_dequeue {s t : Acquirer} (h : IecInv s) {realtimeData : Option (List Point)}
    (hstep : step s (.dequeue realtimeData) = some t) :
    IecInv t ∧ Drops iecContents iecFinite s t [] (iecSurvives s (.dequeue realtimeData)) := by
  simp only [step] at hstep
  split_ifs at hstep with hstage
  have hlength := h.within
  cases hqueue : s.IECDataQueue with
  | nil =>
    rw [hqueue] at hstep
    cases hstep
  | cons iv rest =>
    simp only [hqueue] at hstep
    rw [hqueue, List.length_cons] at hlength
    have hsurvives : iecSurvives s (.dequeue realtimeData) ↔
        ((create iv realtimeData s.creators).2 = false →
          ∀ x ∈ s.listWrites ++ [iv], iecFinite x = false) := by
      simp only [iecSurvives, hstage, hqueue, List.head?_cons, Option.mem_some_iff, forall_eq',
        iecCreate_snd, true_imp_iff]
    cases hkeyed : (create iv realtimeData s.creators).2 with
    | true =>
      rw [hkeyed, if_pos rfl] at hstep
      cases hstep
      refine ⟨⟨fun hne _ => absurd hstage hne, ?_⟩, ?_⟩
      · simp only [List.length_append, List.length_singleton]
        omega
      · refine drops_nothing (by simp [iecContents, hqueue]) ?_
        rw [hsurvives, hkeyed]
        exact nofun
    | false =>
      rw [hkeyed, if_neg Bool.false_ne_true] at hstep
      cases hstep
      refine ⟨⟨fun _ _ => rfl, ?_⟩, s.written, s.listWrites ++ [iv], rest, ?_, ?_, ?_⟩
      · simp only [fail, List.length_nil]
        omega
      · simp [iecContents, hqueue]
      · simp [iecContents, fail]
      · rw [hsurvives, hkeyed]
        exact forall_prop_of_true rfl

/-- What is in hand is written, or lost. -/
theorem iec_bulkWrite {s t : Acquirer} (h : IecInv s) {succeeds : Bool}
    (hstep : step s (.bulkWrite succeeds) = some t) :
    IecInv t ∧ Drops iecContents iecFinite s t [] (iecSurvives s (.bulkWrite succeeds)) := by
  simp only [step] at hstep
  split_ifs at hstep with hstage hok
  all_goals
    cases hstep
    have hlength := h.within
  · refine ⟨⟨fun _ _ => rfl, ?_⟩, drops_nothing (by simp [iecContents]) ?_⟩
    · simp only [List.length_nil]
      omega
    · intro _ hfalse
      rw [hfalse] at hok
      cases hok
  · refine ⟨⟨fun _ _ => rfl, ?_⟩, s.written, s.listWrites, s.IECDataQueue, rfl, ?_, ?_⟩
    · simp only [fail, List.length_nil]
      omega
    · simp [iecContents, fail]
    · simp only [iecSurvives, hstage, Bool.not_eq_true _ ▸ hok, true_imp_iff]

theorem iec_step {s t : Acquirer} {e : Event} (hwithin : iecWithin s e) (h : IecInv s)
    (hstep : step s e = some t) :
    IecInv t ∧ Drops iecContents iecFinite s t (iecReceived e) (iecSurvives s e) := by
  cases e with
  | enqueue iv =>
    cases hstep
    have hlt : s.listWrites.length + s.IECDataQueue.length < DataBufferLimit := hwithin
    refine ⟨⟨h.rest, ?_⟩, drops_nothing (by simp [iecContents, iecReceived]) trivial⟩
    simp only [List.length_append, List.length_singleton]
    omega
  | connect succeeds | ping succeeds =>
    simp only [step] at hstep
    split_ifs at hstep with hstage hok
    all_goals
      cases hstep
      have hnil := h.rest (by simp [hstage]) (by simp [hstage])
    · exact ⟨⟨fun _ _ => hnil, h.within⟩, drops_nothing (List.append_nil _).symm trivial⟩
    · exact iec_fail h hnil trivial
  | acknowledge succeeds =>
    simp only [step] at hstep
    split_ifs at hstep with hstage hok
    all_goals cases hstep
    · exact ⟨h, drops_nothing (List.append_nil _).symm trivial⟩
    · exact iec_fail h hstage.2 trivial
  | dequeue realtimeData => exact iec_dequeue h hstep
  | insert =>
    simp only [step] at hstep
    split_ifs at hstep with hstage hnil
    all_goals cases hstep
    · exact ⟨⟨fun _ _ => hnil, h.within⟩, drops_nothing (List.append_nil _).symm trivial⟩
    · refine ⟨⟨fun _ hne => absurd rfl hne, h.within⟩, ?_⟩
      exact drops_nothing (List.append_nil _).symm trivial
  | bulkWrite succeeds => exact iec_bulkWrite h hstep
  | discard =>
    simp only [step] at hstep
    split_ifs at hstep with hstage
    have hlength := h.within
    omega
  | resume =>
    simp only [step] at hstep
    split_ifs at hstep with hstage
    cases hstep
    have hnil := h.rest (by simp [hstage.1]) (by simp [hstage.1])
    exact ⟨⟨fun _ _ => hnil, h.within⟩, drops_nothing (List.append_nil _).symm trivial⟩

theorem iec_stuck {s : Acquirer} {e : Event} (hstep : step s e = none) : iecSurvives s e := by
  cases e with
  | dequeue realtimeData =>
    intro hstage iv hiv
    obtain ⟨rest, hqueue⟩ := List.head?_eq_some_iff.mp hiv
    simp [step, hstage, hqueue] at hstep
  | bulkWrite succeeds =>
    intro hstage
    simp [step, hstage] at hstep
  | _ => trivial

end Iec104

section Dnp3

open JsonScada.Dnp3Client.AutoCreate JsonScada.Dnp3Client.WriteLoop

def dnpAddress (iv : Dnp3Value) : ℤ × ℤ × ℤ := (iv.connNumber, iv.baseGroup, iv.address)

def dnpFinite (iv : Dnp3Value) : Bool := decide iv.value.IsFinite

def dnpReceived : Event → List Dnp3Value
  | .enqueueValue value => [value]
  | _ => []

def dnpContents (s : Acquirer) : List Dnp3Value :=
  s.written ++ s.writes ++ s.batch ++ s.DNP3DataQueue

def dnpWithin (s : Acquirer) : Event → Prop
  | .enqueueValue _ =>
    s.writes.length + s.batch.length + s.DNP3DataQueue.length < DataBufferLimit
  | _ => True

instance (s : Acquirer) (e : Event) : Decidable (dnpWithin s e) := by
  cases e <;> unfold dnpWithin <;> infer_instance

/-- The query for the key of a new tag is made, and fails. -/
def dnpQueryFails (iv : Dnp3Value) (realtimeData : Option (List Point)) (creators : List Creator) :
    Prop :=
  realtimeData = none ∧ ∃ c, creators.find? (ofValue iv) = some c ∧ c.isNew iv = true ∧
    c.lastNewKeyCreated.eqv (.fin 0) = true

/-- No ping, no query for a key and no bulk write fails while a finite value is in hand, and
none that is taken is beyond the values the driver accepts. -/
def dnpSurvives (s : Acquirer) : Event → Prop
  | .ping isMongoLive => s.stage = .pinging → isMongoLive = false →
    ∀ x ∈ s.batch, dnpFinite x = false
  | .item realtimeData => s.stage = .building → ∀ iv ∈ s.batch.head?,
    skipped iv = true ∨ dnpQueryFails iv realtimeData s.creators → dnpFinite iv = false
  | .bulk_write succeeds => s.stage = .building → s.batch = [] → succeeds = false →
    ∀ x ∈ s.writes, dnpFinite x = false
  | _ => True

/-- A batch is in hand from the swap to its bulk write. -/
structure DnpInv (s : Acquirer) : Prop where
  batch : s.stage = .connecting ∨ s.stage = .waiting → s.batch = []
  writes : s.stage ≠ .building → s.writes = []
  within : s.writes.length + s.batch.length + s.DNP3DataQueue.length ≤ DataBufferLimit

theorem dnpCreate_snd {iv : Dnp3Value} {realtimeData : Option (List Point)}
    {creators : List Creator} :
    (create iv realtimeData creators).2 = false ↔ dnpQueryFails iv realtimeData creators := by
  unfold create dnpQueryFails
  cases hfind : creators.find? (ofValue iv) with
  | none => simp
  | some c =>
    cases hnew : c.isNew iv with
    | false => simp [hnew]
    | true =>
      cases hzero : c.lastNewKeyCreated.eqv (.fin 0) with
      | false => simp [hnew, hzero, Creator.tags]
      | true => cases realtimeData <;> simp [hnew, hzero, Creator.tags]

instance (iv : Dnp3Value) (realtimeData : Option (List Point)) (creators : List Creator) :
    Decidable (dnpQueryFails iv realtimeData creators) := decidable_of_iff _ dnpCreate_snd

instance (s : Acquirer) (e : Event) : Decidable (dnpSurvives s e) := by
  cases e <;> unfold dnpSurvives <;> infer_instance

/-- A value is taken up, or is skipped or lost alone. -/
theorem dnp_item {s t : Acquirer} (h : DnpInv s) {realtimeData : Option (List Point)}
    (hstep : step s (.item realtimeData) = some t) :
    DnpInv t ∧ Drops dnpContents dnpFinite s t [] (dnpSurvives s (.item realtimeData)) := by
  simp only [step] at hstep
  split_ifs at hstep with hstage
  have hlength := h.within
  cases hbatch : s.batch with
  | nil =>
    rw [hbatch] at hstep
    cases hstep
  | cons iv batch =>
    simp only [hbatch] at hstep
    rw [hbatch, List.length_cons] at hlength
    have hsurvives : dnpSurvives s (.item realtimeData) ↔
        (skipped iv = true ∨ (create iv realtimeData s.creators).2 = false →
          dnpFinite iv = false) := by
      simp only [dnpSurvives, hstage, hbatch, List.head?_cons, Option.mem_some_iff, forall_eq',
        dnpCreate_snd, true_imp_iff]
    have hlost : (skipped iv = true ∨ (create iv realtimeData s.creators).2 = false) →
        (dnpSurvives s (.item realtimeData) ↔ ∀ x ∈ [iv], dnpFinite x = false) := by
      intro hdropped
      rw [hsurvives, List.forall_mem_singleton]
      exact forall_prop_of_true hdropped
    split_ifs at hstep with hskipped hcompleted
    all_goals cases hstep
    · refine ⟨⟨fun hne => ?_, h.writes, ?_⟩, s.written ++ s.writes, [iv],
        batch ++ s.DNP3DataQueue, ?_, ?_, hlost (.inl hskipped)⟩
      · simp [hstage] at hne
      · dsimp only
        omega
      · simp [dnpContents, hbatch]
      · simp [dnpContents]
    · refine ⟨⟨fun hne => ?_, fun hne => absurd hstage hne, ?_⟩, ?_⟩
      · simp [hstage] at hne
      · simp only [List.length_append, List.length_singleton]
        omega
      · refine drops_nothing (by simp [dnpContents, hbatch]) ?_
        rw [hsurvives, hcompleted]
        simp [hskipped]
    · refine ⟨⟨fun hne => ?_, h.writes, ?_⟩, s.written ++ s.writes, [iv],
        batch ++ s.DNP3DataQueue, ?_, ?_, hlost (.inr (Bool.not_eq_true _ ▸ hcompleted))⟩
      · simp [hstage] at hne
      · dsimp only
        omega
      · simp [dnpContents, hbatch]
      · simp [dnpContents]

/-- What is in hand is written, or lost. -/
theorem dnp_bulk_write {s t : Acquirer} (h : DnpInv s) {succeeds : Bool}
    (hstep : step s (.bulk_write succeeds) = some t) :
    DnpInv t ∧ Drops dnpContents dnpFinite s t [] (dnpSurvives s (.bulk_write succeeds)) := by
  simp only [step] at hstep
  split_ifs at hstep with hstage hnil hok
  all_goals
    cases hstep
    obtain ⟨hbuilding, hbatch⟩ := hstage
    have hlength := h.within
  · refine ⟨⟨fun _ => hbatch, fun _ => hnil, hlength⟩, ?_⟩
    refine drops_nothing (List.append_nil _).symm fun _ _ _ x hx => ?_
    rw [hnil] at hx
    cases hx
  · refine ⟨⟨fun _ => hbatch, fun _ => rfl, ?_⟩, drops_nothing (by simp [dnpContents]) ?_⟩
    · simp only [List.length_nil]
      omega
    · intro _ _ hfalse
      rw [hfalse] at hok
      cases hok
  · refine ⟨⟨fun _ => rfl, fun _ => rfl, ?_⟩, s.written, s.writes, s.DNP3DataQueue, ?_, ?_, ?_⟩
    · simp only [fail, List.length_nil]
      omega
    · simp [dnpContents, hbatch]
    · simp [dnpContents, fail]
    · simp only [dnpSurvives, hbuilding, hbatch, Bool.not_eq_true _ ▸ hok, true_imp_iff]

theorem dnp_step {s t : Acquirer} {e : Event} (hwithin : dnpWithin s e) (h : DnpInv s)
    (hstep : step s e = some t) :
    DnpInv t ∧ Drops dnpContents dnpFinite s t (dnpReceived e) (dnpSurvives s e) := by
  cases e with
  | enqueueValue value =>
    have hlt : s.writes.length + s.batch.length + s.DNP3DataQueue.length < DataBufferLimit :=
      hwithin
    rw [step, enqueueValue, if_neg (by omega)] at hstep
    cases hstep
    refine ⟨⟨h.batch, h.writes, ?_⟩, drops_nothing (by simp [dnpContents, dnpReceived]) trivial⟩
    simp only [List.length_append, List.length_singleton]
    omega
  | connect succeeds =>
    simp only [step] at hstep
    split_ifs at hstep with hstage hok
    all_goals
      cases hstep
      have hbatch := h.batch (.inl hstage)
      have hwrites := h.writes (by simp [hstage])
    · refine ⟨⟨fun _ => hbatch, fun _ => hwrites, h.within⟩, ?_⟩
      exact drops_nothing (List.append_nil _).symm trivial
    · exact ⟨h, drops_nothing (List.append_nil _).symm trivial⟩
  | swap =>
    simp only [step] at hstep
    split_ifs at hstep with hstage
    cases hstep
    have hlength := h.within
    have hbatch := h.batch (.inr hstage)
    have hwrites := h.writes (by simp [hstage])
    refine ⟨⟨fun hne => ?_, fun _ => hwrites, ?_⟩, ?_⟩
    · simp at hne
    · simp only [List.length_nil]
      omega
    · exact drops_nothing (by simp [dnpContents, dnpReceived, hbatch]) trivial
  | ping isMongoLive =>
    simp only [step] at hstep
    split_ifs at hstep with hstage hok
    all_goals
      cases hstep
      have hlength := h.within
      have hwrites := h.writes (by simp [hstage])
    · refine ⟨⟨fun hne => ?_, fun _ => hwrites, hlength⟩, ?_⟩
      · simp at hne
      · refine drops_nothing (List.append_nil _).symm fun _ hfalse => ?_
        rw [hfalse] at hok
        cases hok
    · refine ⟨⟨fun _ => rfl, fun _ => rfl, ?_⟩, s.written, s.batch, s.DNP3DataQueue, ?_, ?_, ?_⟩
      · simp only [fail, List.length_nil]
        omega
      · simp [dnpContents, hwrites]
      · simp [dnpContents, dnpReceived, fail]
      · simp only [dnpSurvives, hstage, Bool.not_eq_true _ ▸ hok, true_imp_iff]
  | item realtimeData => exact dnp_item h hstep
  | bulk_write succeeds => exact dnp_bulk_write h hstep

theorem dnp_stuck {s : Acquirer} {e : Event} (hstep : step s e = none) : dnpSurvives s e := by
  cases e with
  | ping isMongoLive =>
    intro hstage
    simp [step, hstage] at hstep
  | item realtimeData =>
    intro hstage iv hiv
    obtain ⟨rest, hbatch⟩ := List.head?_eq_some_iff.mp hiv
    simp only [step, hstage, hbatch, if_true] at hstep
    split_ifs at hstep
  | bulk_write succeeds =>
    intro hstage hbatch
    simp only [step, hstage, hbatch, and_self, if_true] at hstep
    split_ifs at hstep
  | _ => trivial

end Dnp3

section Runs

open JsonScada.Dnp3Client.AutoCreate (Dnp3Value)
open JsonScada.Iec104Client.Update (IEC_Value)
open JsonScada.Iec104Client.WriteLoop JsonScada.Dnp3Client

/-- A driver at its start, with its connections. -/
def iecStart (creators : List Creator) : Observed Acquirer IEC_Value :=
  { state := { creators := creators } }

def dnpStart (creators : List WriteLoop.Creator) : Observed WriteLoop.Acquirer Dnp3Value :=
  { state := { creators := creators } }

/-- While the values not yet written stay within the limit, the finite values received are
written, in hand or queued in every state of a run, each once and in the order of those of its
address, just when no step fails with a finite value in hand. -/
theorem kept_iff_survives (iecCreators : List Creator) (dnpCreators : List WriteLoop.Creator)
    (iecEvents : List Event) (dnpEvents : List WriteLoop.Event)
    (hiec : Every (observe step iecReceived) (fun t e => iecWithin t.state e)
      (iecStart iecCreators) iecEvents)
    (hdnp : Every (observe WriteLoop.step dnpReceived) (fun t e => dnpWithin t.state e)
      (dnpStart dnpCreators) dnpEvents) :
    ((∀ t, Visits (observe step iecReceived) (iecStart iecCreators) iecEvents t →
        Kept iecContents iecAddress iecFinite t) ↔
      Every (observe step iecReceived) (fun t e => iecSurvives t.state e)
        (iecStart iecCreators) iecEvents) ∧
    ((∀ t, Visits (observe WriteLoop.step dnpReceived) (dnpStart dnpCreators) dnpEvents t →
        Kept dnpContents dnpAddress dnpFinite t) ↔
      Every (observe WriteLoop.step dnpReceived) (fun t e => dnpSurvives t.state e)
        (dnpStart dnpCreators) dnpEvents) := by
  constructor
  · exact kept_iff_every (fun s e t hw h hstep => iec_step hw h hstep)
      (fun s e _ hstep => iec_stuck hstep) ⟨fun _ _ => rfl, Nat.zero_le _⟩ rfl hiec
  · exact kept_iff_every (fun s e t hw h hstep => dnp_step hw h hstep)
      (fun s e _ hstep => dnp_stuck hstep) ⟨fun _ => rfl, fun _ => rfl, Nat.zero_le _⟩ rfl hdnp

def measured : IEC_Value where
  address := 7
  common_address := 1
  conn_number := 61
  asdu := .M_ME_NC_1
  value := .fin 5

def analog : Dnp3Value where
  address := 7
  baseGroup := 30
  value := .fin 5
  connNumber := 62

/-- The ping of the first driver and the connection of the second fail before their value is
taken; both write it later. -/
theorem early_failure_kept :
    (∀ t, Visits (observe step iecReceived) (iecStart [])
        [.connect true, .enqueue measured, .ping false, .resume, .connect true, .ping true,
          .dequeue none, .insert, .bulkWrite true] t →
      Kept iecContents iecAddress iecFinite t) ∧
    ∀ t, Visits (observe WriteLoop.step dnpReceived) (dnpStart [])
        [.enqueueValue analog, .connect false, .connect true, .swap, .ping true, .item none,
          .bulk_write true] t →
      Kept dnpContents dnpAddress dnpFinite t := by
  obtain ⟨hiec, hdnp⟩ := kept_iff_survives [] []
    [.connect true, .enqueue measured, .ping false, .resume, .connect true, .ping true,
      .dequeue none, .insert, .bulkWrite true]
    [.enqueueValue analog, .connect false, .connect true, .swap, .ping true, .item none,
      .bulk_write true] (by decide) (by decide)
  exact ⟨hiec.mpr (by decide), hdnp.mpr (by decide)⟩

/-- A value is lost with the bulk write it is part of, and with the ping after its batch was
taken. -/
theorem late_failure_loses :
    (Every (observe step iecReceived) (fun t e => iecWithin t.state e) (iecStart [])
        [.connect true, .enqueue measured, .ping true, .dequeue none, .insert, .bulkWrite false] ∧
      ∃ t, run (observe step iecReceived) (iecStart [])
          [.connect true, .enqueue measured, .ping true, .dequeue none, .insert,
            .bulkWrite false] = some t ∧
        ¬Kept iecContents iecAddress iecFinite t) ∧
    Every (observe WriteLoop.step dnpReceived) (fun t e => dnpWithin t.state e) (dnpStart [])
        [.connect true, .enqueueValue analog, .swap, .ping false] ∧
      ∃ t, run (observe WriteLoop.step dnpReceived) (dnpStart [])
          [.connect true, .enqueueValue analog, .swap, .ping false] = some t ∧
        ¬Kept dnpContents dnpAddress dnpFinite t := by
  refine ⟨⟨by decide, _, rfl, fun h => ?_⟩, by decide, _, rfl, fun h => ?_⟩
  · exact absurd (h (61, 1, 7)) (by decide)
  · exact absurd (h (62, 30, 7)) (by decide)

end Runs

end JsonScada.System.DatabaseFailure
