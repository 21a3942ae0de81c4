/- path: JsonScada/System/SparkplugRoundTrip
   source: src/mqtt-sparkplug/index.js
   digest: A point published by one node and received by another. -/

import JsonScada.MqttSparkplug.Publish
import JsonScada.MqttSparkplug.Receive

set_option autoImplicit false
set_option relaxedAutoImplicit false

namespace JsonScada.System.SparkplugRoundTrip

open JsonScada.Lib.Binary64 JsonScada.Lib.EcmaScript JsonScada.Lib.JsObject
open JsonScada.Model.Documents (Date DocField PointType SourceDataUpdate)
open JsonScada.MqttSparkplug.Topic JsonScada.MqttSparkplug.Payload
open JsonScada.MqttSparkplug.Publish
open JsonScada.MqttSparkplug.Receive

/-- The update is that of the published point. -/
structure SameUpdate (element : Element) (u : SourceDataUpdate) : Prop where
  value : element.type ≠ .string → u.valueAtSource = .val element.value
  valueString : element.type = .string → u.valueStringAtSource = element.valueString
  invalid : u.invalidAtSource = some element.invalid
  timeTagAtSource : u.timeTagAtSource = element.timeTagAtSource.given
  timeTagAtSourceOk : u.timeTagAtSourceOk = element.timeTagAtSourceOk.given

/-- What both payloads tell of a point. -/
structure Tells (element : Element) (head : Head) (type : String) (value : Scalar) : Prop where
  typeValue : typeValue element = some (type, value)
  type : head.type = some type
  properties : ∃ ps, head.properties = some ps ∧ ps.get "quality" = none ∧
    ps.get "Quality" = none ∧ ps.get "good" = some (.bool (!element.invalid)) ∧
    ∃ good, Scalar.truthy (some good) = decide (element.timeTagAtSourceOk = .val true) ∧
      ps.get "timestampGood" = if (sourceTimestamp element).isSome then some good else none
  timestamp : head.timestamp = (sourceTimestamp element).map fun t : Date => .num (.fin t)

theorem get_topicsOf (connection : Connection) (element : Element) {k : String}
    (ht : k ≠ "topic") (ha : k ≠ "topicAsTag") (ps : Members Scalar) :
    Members.get (topicsOf connection element ++ ps) k = ps.get k := by
  rw [topicsOf]
  split
  · rfl
  · simp [Members.get_cons, ht, ha]

theorem get_timestampProperty (element : Element) (good : Scalar) (k : String) :
    (timestampProperty element good).get k =
      if k = "timestampGood" ∧ (sourceTimestamp element).isSome then some good else none := by
  rw [timestampProperty]
  by_cases hs : (sourceTimestamp element).isSome <;> simp [hs, Members.get_cons]

/-- Data metrics carry the alias alone. -/
theorem tells_getMetricPayload {element : Element} {connection : Connection} {m : Metric}
    (h : getMetricPayload element connection = some m) :
    ∃ head type value, m = .scalar head (some value) ∧ Tells element head type value := by
  rw [getMetricPayload] at h
  split at h
  · cases h
  · obtain ⟨tv, htv, rfl⟩ := Option.map_eq_some_iff.mp h
    refine ⟨_, tv.1, tv.2, rfl, htv, rfl,
      ⟨_, rfl, ?_, ?_, ?_, dataTimestampGood element, truthy_dataTimestampGood element, ?_⟩, rfl⟩
    · simp [valueProperties, Members.get_cons, get_topicsOf, get_timestampProperty]
    · simp [valueProperties, Members.get_cons, get_topicsOf, get_timestampProperty]
    · simp [valueProperties, Members.get_cons]
    · simp [valueProperties, Members.get_cons, get_topicsOf, get_timestampProperty]

theorem tells_birthMetric {element : Element} {connection : Connection} {m : Metric}
    (h : birthMetric connection element = some m) :
    ∃ head type value, m = .scalar head (some value) ∧ Tells element head type value := by
  rw [birthMetric] at h
  split at h
  · cases h
  · obtain ⟨tv, htv, rfl⟩ := Option.map_eq_some_iff.mp h
    refine ⟨_, tv.1, tv.2, rfl, htv, rfl,
      ⟨_, rfl, ?_, ?_, ?_, birthTimestampGood element,
        truthy_birthTimestampGood element, ?_⟩, rfl⟩ <;>
    by_cases hc : element.origin = .command <;>
    simp [hc, Members.get_cons, get_topicsOf, get_timestampProperty, List.append_assoc]

/-- Types and values that are published. -/
theorem typeValue_cases {element : Element} {type : String} {value : Scalar}
    (h : typeValue element = some (type, value)) :
    (type = "boolean" ∧ element.type = .digital ∧ value = .bool (!element.isEvent &&
      (element.value ≠ .nan && element.value ≠ .fin 0))) ∨
    (type = "string" ∧ element.type = .string ∧ value = .str
      (element.valueString.getD (String.ofList (numToString element.value)))) ∨
    (type = "double" ∧ element.type = .analog ∧ value = .num element.value) := by
  rw [typeValue] at h
  cases ht : element.type with
  | digital =>
    rw [ht] at h
    obtain ⟨rfl, rfl⟩ := Prod.mk.inj (Option.some.inj h)
    exact .inl ⟨rfl, rfl, rfl⟩
  | string =>
    rw [ht] at h
    obtain ⟨rfl, rfl⟩ := Prod.mk.inj (Option.some.inj h)
    exact .inr (.inl ⟨rfl, rfl, rfl⟩)
  | analog =>
    rw [ht] at h
    obtain ⟨rfl, rfl⟩ := Prod.mk.inj (Option.some.inj h)
    exact .inr (.inr ⟨rfl, rfl, rfl⟩)
  | json =>
    rw [ht] at h
    cases h

section Received

variable (host : Host)

/-- The entry that a receiving node queues for a published point. -/
structure EntryOf (now : Date) (element : Element) (q : QueuedValue) : Prop where
  digital : element.type = .digital → element.isEvent = false →
    q.value = .num (.fin (if element.value ≠ .nan ∧ element.value ≠ .fin 0 then 1 else 0))
  string : element.type = .string → ∀ t, element.valueString = some t → q.valueString = t
  analog : element.type = .analog → q.value = .num element.value
  invalid : q.invalid = element.invalid
  time : q.timeTagAtSource = (element.timeTagAtSource.given).elim (some now) fun t =>
    dateOfNumber (round binary64 (host.longUnsigned (.num (.fin t))))
  /-- The flag of the publisher is inverted; without a time there is none. -/
  timeOk : q.timeTagAtSourceOk = (element.timeTagAtSource.given.isSome &&
    !decide (element.timeTagAtSourceOk = .val true))

theorem enqueue_tells {element : Element} {head : Head} {type : String} {value : Scalar}
    (h : Tells element head type value) (now : Date) (isBirth : Bool)
    (msgType address : String) (s : Client) :
    ∃ q, enqueueMetric host now head (some value) isBirth msgType address s =
        ({ s with ValuesQueue := s.ValuesQueue ++ [q] }, false) ∧ EntryOf host now element q := by
  obtain ⟨ps, hps, hquality, hQuality, hgood, good, htruthy, htime⟩ := h.properties
  have hinvalid : invalidOf head (some value) = element.invalid := by
    simp [invalidOf, hps, hquality, hQuality, hgood, Scalar.truthy]
  have htimestamp : timestampOf host now head =
      (element.timeTagAtSource.given).elim (some now) fun t =>
        dateOfNumber (round binary64 (host.longUnsigned (.num (.fin t)))) := by
    rw [timestampOf, h.timestamp, sourceTimestamp]
    cases element.timeTagAtSource.given <;> rfl
  have htimestampGood : timestampGoodOf head = (element.timeTagAtSource.given.isSome &&
      !decide (element.timeTagAtSourceOk = .val true)) := by
    rw [timestampGoodOf, hps, Option.bind_some, htime, h.timestamp, ← htruthy, sourceTimestamp]
    cases element.timeTagAtSource.given <;> rfl
  have hentry : ∀ d : Decoded, (element.type = .digital → element.isEvent = false → d.value =
        .num (.fin (if element.value ≠ .nan ∧ element.value ≠ .fin 0 then 1 else 0))) →
      (element.type = .string → ∀ t, element.valueString = some t → d.valueString = t) →
      (element.type = .analog → d.value = .num element.value) →
      decode host (toLowerCase type) head (some value) = .next d →
      ∃ q, enqueueMetric host now head (some value) isBirth msgType address s =
        ({ s with ValuesQueue := s.ValuesQueue ++ [q] }, false) ∧ EntryOf host now element q := by
    intro d hdigital hstring hanalog hdecode
    refine ⟨entryOf host now head (some value) (toLowerCase type) isBirth msgType address d,
      ?_, hdigital, hstring, hanalog, hinvalid, htimestamp, htimestampGood⟩
    simp only [enqueueMetric, h.type, hdecode]
  rcases typeValue_cases h.typeValue with ⟨rfl, ht, rfl⟩ | ⟨rfl, ht, rfl⟩ | ⟨rfl, ht, rfl⟩
  · have hdecode : decode host (toLowerCase "boolean") head (some (.bool (!element.isEvent &&
        (element.value ≠ .nan && element.value ≠ .fin 0)))) = .next _ :=
      (congrArg (decode host · head _) (by decide)).trans (decode_boolean host head _)
    refine hentry _ ?_ (by simp [ht]) (by simp [ht]) hdecode
    intro _ hev
    by_cases hv : element.value ≠ .nan ∧ element.value ≠ .fin 0
    · simp [Decoded.boolean, hev, hv]
    · have hfalse : (!element.isEvent && (decide (element.value ≠ .nan) &&
          decide (element.value ≠ .fin 0))) = false := by
        rw [hev, Bool.not_false, Bool.true_and, ← Bool.decide_and, decide_eq_false hv]
      rw [hfalse, if_neg hv]
      rfl
  · have hdecode : decode host (toLowerCase "string") head (some (.str
        (element.valueString.getD (String.ofList (numToString element.value))))) = .next _ :=
      (congrArg (decode host · head _) (by decide)).trans (decode_string host head _)
    refine hentry _ (by simp [ht]) ?_ (by simp [ht]) hdecode
    intro _ t hvs
    simp [Decoded.string, hvs, Scalar.toText]
  · have hdecode : decode host (toLowerCase "double") head (some (.num element.value)) =
        .next _ := (congrArg (decode host · head _) (by decide)).trans (decode_double host head _)
    refine hentry _ (by simp [ht]) (by simp [ht]) ?_ hdecode
    intro _
    rfl

/-- A source time from the epoch on arrives, where the 64-bit package keeps it. -/
theorem EntryOf.time_exact {now : Date} {element : Element} {q : QueuedValue}
    (h : EntryOf host now element q) {t : ℕ} (ht : element.timeTagAtSource = .val (t : ℤ))
    (hmax : t ≤ 8640000000000000) (hlong : host.longUnsigned (.num (.fin t)) = t) :
    q.timeTagAtSource = some (t : ℤ) := by
  have hround : round binary64 (t : ℚ) = .fin t := round_natCast (by omega)
  have habs : |(t : ℚ)| ≤ 8640000000000000 := by
    rw [abs_of_nonneg (Nat.cast_nonneg t)]
    exact_mod_cast hmax
  have htruncate : truncate (t : ℚ) = t := by
    simp [truncate, not_lt.mpr (Nat.cast_nonneg t)]
  rw [h.time, ht]
  simp only [DocField.given, Option.elim_some, Int.cast_natCast, hlong, hround, dateOfNumber,
    habs, if_true, htruncate]

/-- The flag is inverted where there is a source time; where there is none, the receiver
takes its own. -/
theorem EntryOf.not_sameUpdate {now later : Date} {element : Element} {q : QueuedValue}
    (h : EntryOf host now element q) : ¬ SameUpdate element (updTag host later q) := by
  intro hsame
  have hok : some q.timeTagAtSourceOk = element.timeTagAtSourceOk.given := hsame.timeTagAtSourceOk
  have htime : q.timeTagAtSource = element.timeTagAtSource.given := hsame.timeTagAtSource
  cases hgiven : element.timeTagAtSource.given with
  | none =>
    rw [h.time, hgiven] at htime
    cases htime
  | some t =>
    rw [h.timeOk, hgiven, Option.isSome_some, Bool.true_and] at hok
    cases hflag : element.timeTagAtSourceOk with
    | absent =>
      rw [hflag] at hok
      cases hok
    | null =>
      rw [hflag] at hok
      cases hok
    | val b =>
      rw [hflag] at hok
      cases b <;> simp [DocField.given] at hok

/-- The metric is published for a point: as data, or in the birth of the device. -/
def Published (connection : Connection) (element : Element) (m : Metric) : Prop :=
  getMetricPayload element connection = some m ∨
    ∃ realtimeData, element ∈ realtimeData ∧ m ∈ getDeviceBirthPayload realtimeData connection ∧
      birthMetric connection element = some m

/-- The metric of a point, once the receiver knows its address, is queued. -/
theorem published_entry {element : Element} {connection : Connection} {m : Metric}
    (hm : Published connection element m) {deviceLocator address : String} {s : Client}
    (haddress : (objectAddressOf host m.head deviceLocator "" s).2 = .next address)
    (isBirth : Bool) (msgType : String) (now : Date) :
    ∃ t q, queueMetric host now deviceLocator isBirth "" msgType m s = (t, false) ∧
      t.ValuesQueue = s.ValuesQueue ++ [q] ∧ EntryOf host now element q := by
  obtain ⟨head, type, value, rfl, htells⟩ :
      ∃ head type value, m = .scalar head (some value) ∧ Tells element head type value := by
    rcases hm with h | ⟨_, _, _, h⟩
    · exact tells_getMetricPayload h
    · exact tells_birthMetric h
  have hqueue := queue_objectAddressOf host head deviceLocator "" s
  have hqueued : queueMetric host now deviceLocator isBirth "" msgType
      (.scalar head (some value)) s =
      enqueueMetric host now head (some value) isBirth msgType address
        (objectAddressOf host head deviceLocator "" s).1 := by
    have hpair : objectAddressOf host head deviceLocator "" s =
        ((objectAddressOf host head deviceLocator "" s).1, .next address) :=
      Prod.ext rfl haddress
    rw [queueMetric, hpair]
  obtain ⟨q, hq, hentry⟩ := enqueue_tells host htells now isBirth msgType address
    (objectAddressOf host head deviceLocator "" s).1
  refine ⟨_, q, hqueued.trans hq, ?_, hentry⟩
  rw [← hqueue]

/-- What is queued for a published metric has the point's value and validity, and the
update made of it is never that of the point. -/
theorem published_never_same {element : Element} {connection : Connection} {m : Metric}
    (hm : Published connection element m) {deviceLocator address : String} {s : Client}
    (haddress : (objectAddressOf host m.head deviceLocator "" s).2 = .next address)
    (isBirth : Bool) (msgType : String) (now later : Date) :
    ∃ t q, queueMetric host now deviceLocator isBirth "" msgType m s = (t, false) ∧
      t.ValuesQueue = s.ValuesQueue ++ [q] ∧ EntryOf host now element q ∧
      ¬ SameUpdate element (updTag host later q) := by
  obtain ⟨t, q, hqueued, hq, hentry⟩ := published_entry host hm haddress isBirth msgType now
  exact ⟨t, q, hqueued, hq, hentry, hentry.not_sameUpdate⟩

end Received

section Breaker

/-- A closed breaker with a good source time. -/
def breaker : Element where
  _id := .fin 7
  tag := "KAW2AL-21XCBR5238"
  type := .digital
  protocolSourceConnectionNumber := 61
  value := .fin 1
  timeTagAtSource := .val 1000
  timeTagAtSourceOk := .val true

def substation : Connection where
  protocolConnectionNumber := 81

def breakerPath : String := "spBv1.0/Substation/KAW2/Primary"

/-- A receiver after the birth of the device that publishes the breaker. -/
def receiver : Client :=
  onMessage plainHost {
    topic := "spBv1.0/Substation/DBIRTH/KAW2/Primary"
    metrics := some (getDeviceBirthPayload [breaker] substation)
    now := 2000 } {}

def breakerMetric : Metric :=
  .scalar {
    metricAlias := some (.num (.fin 7))
    type := some "boolean"
    timestamp := some (.num (.fin 1000))
    properties := some [("valueJson", .str "true"), ("valueString", .str "true"),
      ("good", .bool true), ("timestampGood", .bool true)] }
    (some (.bool true))

theorem breaker_payload : getMetricPayload breaker substation = some breakerMetric := by
  have hid : (decide (breaker.origin = .command) || breaker._id.lt (.fin 1)) = false := by
    decide +kernel
  have hjson : valueProperties breaker (.bool true) =
      [("valueJson", .str "true"), ("valueString", .str "true")] := by
    decide +kernel
  have htype : typeValue breaker = some ("boolean", .bool true) := by
    decide +kernel
  have htopics : topicsOf substation breaker = [] := by
    decide +kernel
  have htime : timestampProperty breaker (dataTimestampGood breaker) =
      [("timestampGood", .bool true)] := by
    decide +kernel
  rw [getMetricPayload, hid, htype]
  simp only [Option.map_some, hjson, htopics, htime]
  simp [breakerMetric, breaker, sourceTimestamp, DocField.given]

theorem breaker_address :
    (objectAddressOf plainHost breakerMetric.head breakerPath "" receiver).2 =
      .next "spBv1.0/Substation/KAW2/Primary/KAW2AL-21XCBR5238" := by
  decide +kernel

/-- The receiver takes the good source time for a bad one. -/
theorem breaker_flag_inverted :
    ∃ t q, queueMetric plainHost 3000 breakerPath false "" "DDATA" breakerMetric receiver =
        (t, false) ∧ t.ValuesQueue = receiver.ValuesQueue ++ [q] ∧
      (updTag plainHost 3500 q).timeTagAtSourceOk = some false ∧
      ¬ SameUpdate breaker (updTag plainHost 3500 q) := by
  obtain ⟨t, q, hqueued, hq, hentry⟩ := published_entry plainHost (.inl breaker_payload)
    breaker_address false "DDATA" 3000
  have hok : q.timeTagAtSourceOk = false := hentry.timeOk
  exact ⟨t, q, hqueued, hq, congrArg some hok, hentry.not_sameUpdate⟩

theorem breaker_received :
    ∃ t q, queueMetric plainHost 3000 breakerPath false "" "DDATA" breakerMetric receiver =
        (t, false) ∧ t.ValuesQueue = receiver.ValuesQueue ++ [q] ∧
      EntryOf plainHost 3000 breaker q ∧ ¬ SameUpdate breaker (updTag plainHost 3500 q) :=
  published_never_same plainHost (.inl breaker_payload) breaker_address false "DDATA" 3000 3500

end Breaker

end JsonScada.System.SparkplugRoundTrip
