/- path: JsonScada/System/LostConnection
   source: src/lib60870.netcore/iec104client, src/cs_data_processor/cs_data_processor.js
   digest: The points of a closed connection, and the values still on their way to them. -/

import JsonScada.System.PointFeed
import JsonScada.Iec104Client.Update

set_option autoImplicit false
set_option relaxedAutoImplicit false

namespace JsonScada.System.LostConnection

open JsonScada.Lib.Binary64 JsonScada.Lib.Machine JsonScada.Lib.WriteBehind
open JsonScada.Model.Documents JsonScada.Processor.Convert JsonScada.Processor.Change
open JsonScada.Processor.Flush JsonScada.Server.Acknowledge JsonScada.Server.Silence
open JsonScada.System.PointFeed (Feed Serves SamePoint OnDelivery due)
open JsonScada.Iec104Client.Commands JsonScada.Iec104Client.Update

/-- A point with its way through the processor; whether an update of its closed connection
is on its way to it, and whether one has come to it. -/
structure Link where
  feed : Feed
  invalidating : Bool := false
  lost : Bool := false
  deriving DecidableEq

/-- The values received, the batch that is being written, and the points. -/
structure State where
  IECDataQueue : List IEC_Value := []
  listWrites : List IEC_Value := []
  closed : Bool := false
  links : List Link
  deriving DecidableEq

def start (docs : List Point) : State :=
  { links := docs.map fun d => { feed := PointFeed.start d 0 } }

/-- A value is received; ProcessMongo takes what was received, or writes the next value of
its batch; the connection is closed, and the update of that comes to a point; or the
processor of a point takes a step. -/
inductive Label where
  | receive (iv : IEC_Value)
  | batch
  | write
  | close
  | invalidate (i : ℕ) (now : Date)
  | process (i : ℕ) (a : PointFeed.Label)
  deriving DecidableEq

variable (srv : Connection) (doubleText : Number → String) (docs : List Point)

def updateLink (s : State) (i : ℕ) (f : Link → Option Link) : Option State := do
  let l ← s.links[i]?
  let l' ← f l
  return { s with links := s.links.set i l' }

def feedLink (a : PointFeed.Label) (l : Link) : Option Link :=
  (PointFeed.step l.feed a).map fun f => { l with feed := f }

def invalidateLink (now : Date) (l : Link) : Option Link :=
  if l.invalidating then
    some {
      feed := { l.feed with db := l.feed.db.edit (invalidate now) }
      invalidating := false
      lost := true }
  else none

/-- The processor does not write in the place of the driver. -/
def isWrite : PointFeed.Label → Bool
  | .write _ => true
  | _ => false

/-- A value whose filter finds no point is dropped. The update of a closed connection is
not waited for; it comes to one point after the other. -/
def step (s : State) : Label → Option State
  | .receive iv => some { s with IECDataQueue := s.IECDataQueue ++ [iv] }
  | .batch =>
    if s.listWrites = [] then some { s with IECDataQueue := [], listWrites := s.IECDataQueue }
    else none
  | .write =>
    s.listWrites.head?.bind fun iv =>
      let s := { s with listWrites := s.listWrites.tail }
      (docs.findIdx? (rtFilt iv)).elim (some s) fun i =>
        updateLink s i (feedLink (.write (sourceDataUpdate doubleText iv)))
  | .close =>
    some { s with
      closed := true
      links := docs.zipWith (fun d l => { l with
        invalidating := l.invalidating || ofConnection srv d }) s.links }
  | .invalidate i now => updateLink s i (invalidateLink now)
  | .process i a => if isWrite a then none else updateLink s i (feedLink a)

/-- Both queues are empty, the change events delivered, and the update of the closed
connection has come to all points. -/
def Drained (s : State) : Prop :=
  s.closed = true ∧ s.IECDataQueue = [] ∧ s.listWrites = [] ∧
    ∀ l ∈ s.links, l.feed.Settled ∧ l.invalidating = false

def AllInvalid (s : State) : Prop :=
  ∀ x ∈ docs.zip s.links, ofConnection srv x.1 = true → x.2.feed.db.stored.invalid = true

/-- The validity of a point after some writes. -/
def lastInvalid (ops : List BulkOp) (invalid : Bool) : Bool :=
  ops.foldl (fun b op => match op with | .setPoint u => u.invalid | _ => b) invalid

/-- What the processor accepts for the point is invalid. -/
def Rejects (clock : Clock) (p : Point) (u : SourceDataUpdate) : Prop :=
  accepted p u (readUpdate clock p u) = true → stored p (readUpdate clock p u) = true →
    (convert p u).invalid = true

/-- The condition on the steps of a run: when the update of the closed connection comes to
a point, the last update on its way there from the processor, if there is one, is invalid;
and after that the processor accepts no valid update of the point. -/
def NotOvertaken (s : State) : Label → Prop
  | .invalidate i _ => ∀ l ∈ s.links[i]?, lastInvalid (l.feed.db.pending bulkOps) true = true
  | .process i a => ∀ l ∈ s.links[i]?, l.lost = true →
    OnDelivery (fun _ clock p u => Rejects clock p u) l.feed a
  | _ => True

instance (clock : Clock) (p : Point) (u : SourceDataUpdate) : Decidable (Rejects clock p u) := by
  unfold Rejects; infer_instance

instance (s : State) (a : Label) : Decidable (NotOvertaken s a) := by
  cases a <;> unfold NotOvertaken <;> infer_instance

instance (s : State) : Decidable (Drained s) := by unfold Drained; infer_instance

instance (s : State) : Decidable (AllInvalid srv docs s) := by unfold AllInvalid; infer_instance

@[simp] theorem lastInvalid_nil (b : Bool) : lastInvalid [] b = b := rfl

theorem lastInvalid_append (ops ops' : List BulkOp) (b : Bool) :
    lastInvalid (ops ++ ops') b = lastInvalid ops' (lastInvalid ops b) := List.foldl_append

/-- Writes that mark their point invalid leave an invalid point invalid. -/
theorem lastInvalid_of_forall {ops : List BulkOp}
    (h : ∀ u, .setPoint u ∈ ops → u.invalid = true) : lastInvalid ops true = true := by
  induction ops with
  | nil => rfl
  | cons op ops ih =>
    have htail : lastInvalid ops true = true := ih fun u hu => h u (List.mem_cons_of_mem op hu)
    cases op with
    | setPoint u =>
      have hu : u.invalid = true := h u List.mem_cons_self
      show lastInvalid ops u.invalid = true
      rw [hu]
      exact htail
    | setBeep b t => exact htail
    | setCounter v t => exact htail
    | addToSet g => exact htail

/-- The validity of the newest document is decided by the last write on its way. -/
theorem newest_invalid {d : Point} {f : Feed} (hf : Serves d f) :
    f.newest.invalid = lastInvalid (f.db.pending bulkOps) f.db.stored.invalid := by
  have main : ∀ (ops : List BulkOp) (p : Point), p._id = d._id →
      (∀ u, .setPoint u ∈ ops → u._id = d._id) →
        (ops.foldl (fun s w => w.apply s) p).invalid = lastInvalid ops p.invalid := by
    intro ops
    induction ops with
    | nil => intros; rfl
    | cons op ops ih =>
      intro p hp hops
      have hnext := ih (op.apply p) ((BulkOp.apply_id op p).trans hp) fun u hu =>
        hops u (List.mem_cons_of_mem op hu)
      have hop : (op.apply p).invalid = lastInvalid [op] p.invalid := by
        cases op with
        | setPoint u =>
          have hid : u._id = p._id := (hops u List.mem_cons_self).trans hp.symm
          rw [BulkOp.apply_setPoint hid]
          rfl
        | setBeep b t =>
          unfold BulkOp.apply
          split_ifs <;> rfl
        | setCounter v t =>
          unfold BulkOp.apply
          split_ifs <;> rfl
        | addToSet g =>
          unfold BulkOp.apply
          split_ifs <;> rfl
      rw [List.foldl_cons, hnext, hop]
      rfl
  exact main _ _ hf.stored._id hf.waiting

/-- Two documents of a point that are valid or invalid together. -/
structure SameValidity (a b : Point) : Prop where
  _id : a._id = b._id
  invalid : a.invalid = b.invalid

theorem apply_sameValidity (op : BulkOp) (a b : Point) (h : SameValidity a b) :
    SameValidity (op.apply a) (op.apply b) := by
  unfold BulkOp.apply
  rw [h._id]
  split
  · cases op with
    | setPoint u => exact ⟨h._id, rfl⟩
    | setBeep b t => exact ⟨h._id, h.invalid⟩
    | setCounter v t => exact ⟨h._id, h.invalid⟩
    | addToSet g => exact ⟨h._id, h.invalid⟩
  · exact h

theorem ackOneAlarm_sameValidity (p : Point) : SameValidity (ackOneAlarm p) p := by
  unfold ackOneAlarm
  simp only []
  split <;> exact ⟨rfl, rfl⟩

theorem ackAllAlarms_sameValidity (p : Point) : SameValidity (ackAllAlarms p) p := by
  unfold ackAllAlarms
  simp only []
  split <;> exact ⟨rfl, rfl⟩

theorem silence_sameValidity (op : SilenceOp) (p : Point) : SameValidity (op.apply p) p := by
  unfold SilenceOp.apply
  split
  · cases op with
    | pullAll gs => exact ⟨rfl, rfl⟩
    | zeroIfEmpty =>
      show SameValidity (if p.beepGroup1List = some [] then zeroBeep p else p) p
      split <;> exact ⟨rfl, rfl⟩
    | clear => exact ⟨rfl, rfl⟩
  · exact ⟨rfl, rfl⟩

/-- A point whose newest document is invalid stays so, unless a valid update of it is
accepted. -/
theorem step_invalid {d : Point} {f g : Feed} {a : PointFeed.Label} (hf : Serves d f)
    (hinv : f.newest.invalid = true)
    (ha : OnDelivery (fun _ clock p u => Rejects clock p u) f a)
    (h : PointFeed.step f a = some g) : g.newest.invalid = true := by
  have hedit : ∀ e : Point → Point, SameValidity (e f.db.stored) f.db.stored →
      ((f.db.edit e).newest bulkOps BulkOp.apply).invalid = true := by
    intro e he
    have hsame : SameValidity ((f.db.edit e).newest bulkOps BulkOp.apply) f.newest :=
      Buffer.newest_edit_related apply_sameValidity f.db e he
    exact hsame.invalid.trans hinv
  have hserves := PointFeed.serves_step hf h
  cases a with
  | write u =>
    obtain rfl := Option.some.inj h
    exact hedit _ ⟨rfl, rfl⟩
  | lookup i =>
    obtain ⟨u, -, rfl⟩ := PointFeed.step_lookup h
    exact hinv
  | deliver clock =>
    obtain ⟨p, u, hdue, -, rfl⟩ := PointFeed.step_deliver h
    have hrej : Rejects clock p u := ha (p, u) (by rw [hdue]; rfl)
    rw [newest_invalid hserves]
    show lastInvalid ((f.db.enqueue _).pending bulkOps) f.db.stored.invalid = true
    rw [Buffer.pending_enqueue, lastInvalid_append, ← newest_invalid hf, hinv]
    refine lastInvalid_of_forall fun v hv => ?_
    obtain ⟨hacc, hst, rfl⟩ := PointFeed.mem_bulkOps_change hv
    exact hrej hacc hst
  | drain =>
    obtain rfl := Option.some.inj h
    show ((f.db.drain bulkOps).newest bulkOps BulkOp.apply).invalid = true
    rw [Buffer.newest_drain]
    exact hinv
  | apply =>
    obtain ⟨db, hdb, rfl⟩ := PointFeed.step_apply h
    show (db.newest bulkOps BulkOp.apply).invalid = true
    rw [Buffer.newest_applyNext hdb]
    exact hinv
  | ackOne =>
    obtain rfl := Option.some.inj h
    exact hedit _ (ackOneAlarm_sameValidity _)
  | ackAll =>
    obtain rfl := Option.some.inj h
    exact hedit _ (ackAllAlarms_sameValidity _)
  | silence op =>
    obtain rfl := Option.some.inj h
    exact hedit _ (silence_sameValidity op _)

/-- A point the update of the closed connection has come to is invalid once everything on
its way from the processor has come to it too. -/
structure LinkInv (closed : Bool) (d : Point) (l : Link) : Prop where
  serves : Serves d l.feed
  marked : closed = true → ofConnection srv d = true → l.invalidating = true ∨ l.lost = true
  lost : l.lost = true → l.feed.newest.invalid = true

structure Inv (s : State) : Prop where
  length : s.links.length = docs.length
  links : ∀ (i : ℕ) (d : Point) (l : Link), docs[i]? = some d → s.links[i]? = some l →
    LinkInv srv s.closed d l

theorem inv_start : Inv srv docs (start docs) where
  length := List.length_map _
  links := by
    intro i d l hd hl
    have hstart : (start docs).links[i]? = some { feed := PointFeed.start d 0 } := by
      simp [start, hd]
    obtain rfl := Option.some.inj (hl.symm.trans hstart)
    exact ⟨PointFeed.serves_start d 0, by rintro ⟨⟩, by rintro ⟨⟩⟩

theorem linkInv_feed {closed : Bool} {d : Point} {l l' : Link} {a : PointFeed.Label}
    (hl : LinkInv srv closed d l)
    (ha : l.lost = true → OnDelivery (fun _ clock p u => Rejects clock p u) l.feed a)
    (h : feedLink a l = some l') : LinkInv srv closed d l' := by
  obtain ⟨f, hf, rfl⟩ := Option.map_eq_some_iff.mp h
  exact ⟨PointFeed.serves_step hl.serves hf, hl.marked,
    fun hlost => step_invalid hl.serves (hl.lost hlost) (ha hlost) hf⟩

theorem linkInv_invalidate {closed : Bool} {d : Point} {l l' : Link} {now : Date}
    (hl : LinkInv srv closed d l)
    (hlast : lastInvalid (l.feed.db.pending bulkOps) true = true)
    (h : invalidateLink now l = some l') : LinkInv srv closed d l' := by
  unfold invalidateLink at h
  split_ifs at h
  obtain rfl := Option.some.inj h
  have hsame : SamePoint (invalidate now l.feed.db.stored) l.feed.db.stored :=
    ⟨rfl, rfl, ⟨rfl, rfl, rfl, rfl, rfl, rfl, rfl⟩, ⟨rfl, rfl, rfl, rfl⟩⟩
  have hserves : Serves d { l.feed with db := l.feed.db.edit (invalidate now) } :=
    ⟨hsame.trans hl.serves.stored, hl.serves.documents, hl.serves.waiting, hl.serves.writes⟩
  refine ⟨hserves, fun _ _ => .inr rfl, fun _ => ?_⟩
  rw [newest_invalid hserves]
  exact hlast

theorem inv_updateLink {s t : State} {i : ℕ} {f : Link → Option Link} (hs : Inv srv docs s)
    (hf : ∀ d l l', s.links[i]? = some l → LinkInv srv s.closed d l → f l = some l' →
      LinkInv srv s.closed d l')
    (h : updateLink s i f = some t) : Inv srv docs t := by
  obtain ⟨l, hl, h⟩ := Option.bind_eq_some_iff.mp h
  obtain ⟨l', hl', h⟩ := Option.bind_eq_some_iff.mp h
  obtain rfl := Option.some.inj h
  refine ⟨(List.length_set ..).trans hs.length, ?_⟩
  intro j d m hd hm
  by_cases hij : i = j
  · subst hij
    have hlt : i < s.links.length := (List.getElem?_eq_some_iff.mp hl).1
    have hset : (s.links.set i l')[i]? = some l' := List.getElem?_set_self hlt
    obtain rfl := Option.some.inj (hm.symm.trans hset)
    exact hf d l _ hl (hs.links i d l hd hl) hl'
  · have hset : (s.links.set i l')[j]? = s.links[j]? := List.getElem?_set_ne hij
    exact hs.links j d m hd (hset.symm.trans hm)

theorem inv_close {s : State} (hs : Inv srv docs s) :
    Inv srv docs { s with
      closed := true
      links := docs.zipWith (fun d l => { l with
        invalidating := l.invalidating || ofConnection srv d }) s.links } := by
  refine ⟨by simp [hs.length], ?_⟩
  intro i d m hd hm
  obtain ⟨d', l, hd', hl, rfl⟩ := List.getElem?_zipWith_eq_some.mp hm
  obtain rfl := Option.some.inj (hd.symm.trans hd')
  have hlink := hs.links i d l hd hl
  exact ⟨hlink.serves, fun _ hconn => .inl (by simp [hconn]), hlink.lost⟩

theorem inv_step {s t : State} {a : Label} (hs : Inv srv docs s) (hov : NotOvertaken s a)
    (h : step srv doubleText docs s a = some t) : Inv srv docs t := by
  cases a with
  | receive iv =>
    obtain rfl := Option.some.inj h
    exact ⟨hs.length, hs.links⟩
  | batch =>
    simp only [step] at h
    split_ifs at h
    obtain rfl := Option.some.inj h
    exact ⟨hs.length, hs.links⟩
  | write =>
    obtain ⟨iv, -, h⟩ := Option.bind_eq_some_iff.mp h
    have hs' : Inv srv docs { s with listWrites := s.listWrites.tail } :=
      ⟨hs.length, hs.links⟩
    cases hi : docs.findIdx? (rtFilt iv) with
    | none =>
      rw [hi] at h
      obtain rfl := Option.some.inj h
      exact hs'
    | some i =>
      rw [hi] at h
      exact inv_updateLink srv docs hs'
        (fun d l l' _ hl hl' =>
          @linkInv_feed srv s.closed d l l' (.write _) hl (fun _ => trivial) hl') h
  | close =>
    obtain rfl := Option.some.inj h
    exact inv_close srv docs hs
  | invalidate i now =>
    exact inv_updateLink srv docs hs
      (fun d l l' hmem hl hl' => linkInv_invalidate srv hl (hov l hmem) hl') h
  | process i a =>
    simp only [step] at h
    split_ifs at h
    exact inv_updateLink srv docs hs
      (fun d l l' hmem hl hl' => linkInv_feed srv hl (hov l hmem) hl') h

/-- In every run whose steps meet the condition, the points of the closed connection are
invalid whenever the queues are drained. -/
theorem drained_invalid {labels : List Label} {s : State}
    (hov : Every (step srv doubleText docs) NotOvertaken (start docs) labels)
    (hv : Visits (step srv doubleText docs) (start docs) labels s) (hd : Drained s) :
    AllInvalid srv docs s := by
  have hinv : Inv srv docs s := by
    refine visits_invariant ?_ hov (inv_start srv docs) hv
    intro s a t hp hs h
    exact inv_step srv doubleText docs hs hp h
  obtain ⟨hclosed, -, -, hlinks⟩ := hd
  rintro ⟨d, l⟩ hx hconn
  obtain ⟨i, hi⟩ := List.mem_iff_getElem?.mp hx
  obtain ⟨hd, hl⟩ := List.getElem?_zip_eq_some.mp hi
  have hlink := hinv.links i d l hd hl
  obtain ⟨hsettled, hdone⟩ := hlinks l (List.mem_of_getElem? hl)
  have hlost : l.lost = true := by
    rcases hlink.marked hclosed hconn with h | h
    · rw [hdone] at h
      cases h
    · exact h
  have hnewest := hlink.lost hlost
  rw [PointFeed.newest_of_settled hsettled] at hnewest
  exact hnewest

section Example

def sampleConnection : Connection := { protocolConnectionNumber := 1 }

def sampleText (_ : Number) : String := "5"

/-- A measurement of connection 1. -/
def samplePoint : Point :=
  { PointFeed.samplePoint with
    protocolSourceConnectionNumber := .fin 1
    protocolSourceCommonAddress := .num (.fin 1)
    protocolSourceObjectAddress := .num (.fin 100) }

def sampleValue : IEC_Value :=
  { address := 100, common_address := 1, conn_number := 1, asdu := .M_ME_NC_1, value := .fin 5 }

/-- A value taken from the queue and brought to its point. -/
def sampleUpdate : List Label :=
  [.batch, .write, .process 0 (.lookup 0), .process 0 (.deliver PointFeed.sampleClock),
    .process 0 .drain, .process 0 .apply]

def sampleLoss : List Label := [.close, .invalidate 0 1500]

def updateThenLoss : List Label := .receive sampleValue :: sampleUpdate ++ sampleLoss

/-- The value is received before the loss, and taken from the queue after it. -/
def lossThenUpdate : List Label := .receive sampleValue :: sampleLoss ++ sampleUpdate

theorem update_then_loss_invalid :
    ∃ s ∈ run (step sampleConnection sampleText [samplePoint]) (start [samplePoint])
        updateThenLoss,
      Drained s ∧ AllInvalid sampleConnection [samplePoint] s := by
  have hrun : (run (step sampleConnection sampleText [samplePoint]) (start [samplePoint])
      updateThenLoss).map (fun s => decide (Drained s)) = some true := by
    decide +kernel
  obtain ⟨s, hs, hdrained⟩ := Option.map_eq_some_iff.mp hrun
  have hd : Drained s := of_decide_eq_true hdrained
  exact ⟨s, hs, hd, drained_invalid sampleConnection sampleText [samplePoint]
    (by decide +kernel) ⟨_, List.prefix_rfl, hs⟩ hd⟩

theorem loss_then_update_valid :
    ∃ s ∈ run (step sampleConnection sampleText [samplePoint]) (start [samplePoint])
        lossThenUpdate,
      Drained s ∧ ¬ AllInvalid sampleConnection [samplePoint] s := by
  have hrun : (run (step sampleConnection sampleText [samplePoint]) (start [samplePoint])
      lossThenUpdate).map (fun s =>
        decide (Drained s ∧ ¬ AllInvalid sampleConnection [samplePoint] s)) = some true := by
    decide +kernel
  obtain ⟨s, hs, hboth⟩ := Option.map_eq_some_iff.mp hrun
  exact ⟨s, hs, of_decide_eq_true hboth⟩

end Example

end JsonScada.System.LostConnection
