/- path: JsonScada/MqttSparkplug/Update
   source: src/mqtt-sparkplug/index.js
   digest: The queue of received values, filled by messages and written to the tags. -/

import JsonScada.Lib.Machine
import JsonScada.MqttSparkplug.Receive

set_option autoImplicit false
set_option relaxedAutoImplicit false

namespace JsonScada.MqttSparkplug.Update

open JsonScada.Model.Documents (Date SourceDataUpdate)
open JsonScada.MqttSparkplug.Payload JsonScada.MqttSparkplug.Receive

/-- The client, the metrics it has received, and the updates it has written, each with the
queued value it was written for. -/
structure Progress where
  client : Client := {}
  received : List Head := []
  written : List (QueuedValue × SourceDataUpdate) := []

inductive Event where
  | message (m : Received)
  /-- A pass of the loop of `processMongoUpdates`; the tag is there, or is created without
  an exception. -/
  | update (now : Date) (hasTag : Bool)

/-- The metrics that the handler takes of a message. -/
def metricsOf (m : Received) : List Metric :=
  (m.metrics.getD []).filter fun x => x.head.type.isSome

section Queue

variable (host : Host)

/-- A value leaves the queue before its tag is looked for. -/
def processMongoUpdates (now : Date) (hasTag : Bool) (p : Progress) : Option Progress :=
  match p.client.ValuesQueue with
  | [] => none
  | data :: rest =>
    some { p with
      client := { p.client with ValuesQueue := rest }
      written := if hasTag then p.written ++ [(data, updTag host now data)] else p.written }

def step (p : Progress) : Event → Option Progress
  | .message m => some { p with
      client := onMessage host m p.client
      received := p.received ++ leavesOf (metricsOf m) }
  | .update now hasTag => processMongoUpdates host now hasTag p

/-- The value was queued for the metric. -/
def EntryOf (head : Head) (data : QueuedValue) : Prop :=
  ∃ now value type isBirth msgType address d,
    data = entryOf host now head value type isBirth msgType address d

/-- What is queued beyond the values of before was queued for one of the metrics. -/
def QueuedFrom (heads : List Head) (s t : Client) : Prop :=
  ∀ data ∈ t.ValuesQueue, data ∈ s.ValuesQueue ∨ ∃ head ∈ heads, EntryOf host head data

variable {host}

theorem EntryOf.flags {head : Head} {data : QueuedValue} (h : EntryOf host head data) :
    data.isHistorical = head.isHistorical ∧ data.isNotForHistorical = head.isTransient := by
  obtain ⟨now, value, type, isBirth, msgType, address, d, rfl⟩ := h
  exact ⟨rfl, rfl⟩

theorem QueuedFrom.refl (heads : List Head) (s : Client) : QueuedFrom host heads s s :=
  fun _ h => .inl h

theorem QueuedFrom.of_queue {heads : List Head} {s t : Client}
    (h : t.ValuesQueue = s.ValuesQueue) : QueuedFrom host heads s t :=
  fun _ hdata => .inl (h ▸ hdata)

theorem QueuedFrom.trans {heads : List Head} {s t u : Client} (h : QueuedFrom host heads s t)
    (h' : QueuedFrom host heads t u) : QueuedFrom host heads s u := by
  intro data hdata
  rcases h' data hdata with hdata | hnew
  · exact h data hdata
  · exact .inr hnew

theorem queuedFrom_enqueueMetric (now : Date) {head : Head} {heads : List Head}
    (hhead : head ∈ heads) (value : Option Scalar) (isBirth : Bool)
    (msgType address : String) (s : Client) :
    QueuedFrom host heads s (enqueueMetric host now head value isBirth msgType address s).1 := by
  intro data hdata
  rw [enqueueMetric] at hdata
  split at hdata
  · exact .inl hdata
  · next type _ =>
    split at hdata
    · next d _ =>
      rcases List.mem_append.mp hdata with hdata | hdata
      · exact .inl hdata
      · refine .inr ⟨head, hhead, now, value, toLowerCase type, isBirth, msgType, address, d, ?_⟩
        exact List.mem_singleton.mp hdata
    · exact .inl hdata

theorem queuedFrom_processBirthOrData (now : Date) (locator : String)
    (metrics : Option (List Metric)) (isBirth : Bool) (msgType : String) (s : Client) :
    QueuedFrom host (leavesOf (metrics.getD [])) s
      (processBirthOrData host now locator metrics isBirth msgType s).1 := by
  have hbirth : QueuedFrom host (leavesOf (metrics.getD [])) s
      (if isBirth then { s with DevicesList := s.DevicesList.set locator birth } else s) := by
    split
    · exact .of_queue rfl
    · exact .refl _ s
  cases metrics with
  | none => exact hbirth
  | some ms =>
    exact hbirth.trans (queueMetrics_related host now (QueuedFrom.refl _) QueuedFrom.trans
      (fun head templateName s =>
        .of_queue (queue_objectAddressOf host head locator templateName s)) ms
      (fun head hhead value => queuedFrom_enqueueMetric now hhead value isBirth msgType) _)

theorem queuedFrom_requestBirth (heads : List Head) (m : Received) (splTopic : List String)
    (s : Client) : QueuedFrom host heads s (requestBirth m splTopic s) := by
  rw [requestBirth]
  split_ifs <;> exact .of_queue rfl

theorem queuedFrom_invalidate (heads : List Head) (mongoClient : Bool) (path : String)
    (s : Client) : QueuedFrom host heads s (InvalidatePathTags mongoClient path s) := by
  rw [InvalidatePathTags]
  split_ifs <;> exact .of_queue rfl

/-- A message queues values of its own metrics only. -/
theorem queuedFrom_onMessage (m : Received) (s : Client) :
    QueuedFrom host (leavesOf (metricsOf m)) s (onMessage host m s) := by
  have hmetrics : leavesOf (metricsOf m) =
      leavesOf ((m.metrics.map fun ms => ms.filter fun x => x.head.type.isSome).getD []) := by
    rw [metricsOf]
    cases m.metrics <;> rfl
  have hdata := fun locator isBirth msgType =>
    @queuedFrom_processBirthOrData host m.now locator
      (m.metrics.map fun ms => ms.filter fun x => x.head.type.isSome) isBirth msgType s
  rw [← hmetrics] at hdata
  simp only [onMessage]
  split
  · split_ifs
    · exact hdata _ _ _
    · exact queuedFrom_requestBirth _ _ _ _
  · split_ifs
    · exact hdata _ _ _
    · exact queuedFrom_requestBirth _ _ _ _
  · split_ifs
    · exact hdata _ _ _
    · exact (hdata _ _ _).trans (queuedFrom_invalidate _ _ _ _)
  · exact hdata _ _ _
  · exact (QueuedFrom.of_queue rfl).trans (queuedFrom_invalidate _ _ _ _)
  · exact (QueuedFrom.of_queue rfl).trans (queuedFrom_invalidate _ _ _ _)
  · exact .refl _ s

end Queue

end JsonScada.MqttSparkplug.Update
