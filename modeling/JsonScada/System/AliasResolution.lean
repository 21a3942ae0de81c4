/- path: JsonScada/System/AliasResolution
   source: src/mqtt-sparkplug/index.js, queueMetric
   digest: The object addresses that metrics with only an alias are queued under. -/

import JsonScada.MqttSparkplug.Update

set_option autoImplicit false
set_option relaxedAutoImplicit false

namespace JsonScada.System.AliasResolution

open JsonScada.Lib.EcmaScript JsonScada.Lib.JsObject
open JsonScada.Model.Documents (Date)
open JsonScada.MqttSparkplug.AutoTag (splitTopic textOf)
open JsonScada.MqttSparkplug.Topic JsonScada.MqttSparkplug.Payload
open JsonScada.MqttSparkplug.Receive JsonScada.MqttSparkplug.Update

/-- A metric as a reader of its message comes to it, within the template of that name. -/
structure Visit where
  templateName : String
  head : Head
  /-- It is a template that holds metrics, so it has no value of its own. -/
  isTemplate : Bool
  deriving DecidableEq

namespace Visit

def isNamed (v : Visit) : Bool := trim (v.head.name.getD "").toList ≠ []

/-- The object address a named metric has at a node or device. -/
def ownAddress (d : String) (v : Visit) : String :=
  if trim v.templateName.toList ≠ [] then
    d ++ "/" ++ topicStr v.templateName ++ "/" ++ v.head.name.getD ""
  else d ++ "/" ++ topicStr (v.head.name.getD "")

end Visit

section Statement

variable (host : Host)

def Names (metricAlias : Scalar) (v : Visit) : Bool :=
  v.isNamed && v.head.metricAlias.any fun a => aliasKey host a = aliasKey host metricAlias

/-- The latest named metric with the alias. -/
def latest (vs : List Visit) (metricAlias : Scalar) : Option Visit :=
  vs.reverse.find? (Names host metricAlias)

/-- The named metric whose object address a metric has: itself, or by its alias. -/
def namedBy (before : List Visit) (v : Visit) : Option Visit :=
  if v.isNamed then some v else v.head.metricAlias.bind (latest host before)

/-- Which templates are looked into, by what has come before them. -/
abbrev Policy := List Visit → Visit → Bool

def always : Policy := fun _ _ => true

/-- A template has to have a name, or an alias that has been named. -/
def whenKnown : Policy := fun before v => (namedBy host before v).isSome

mutual

/-- The metrics in the order of the message, a template before those it holds. -/
def visit (policy : Policy) (before : List Visit) (templateName : String) : Metric → List Visit
  | .scalar head _ => [{ templateName := templateName, head := head, isTemplate := false }]
  | .template head metrics =>
    let v : Visit := { templateName := templateName, head := head, isTemplate := true }
    v :: if policy before v then visitAll policy (before ++ [v]) (head.name.getD "") metrics else []

def visitAll (policy : Policy) (before : List Visit) (templateName : String) :
    List Metric → List Visit
  | [] => []
  | m :: ms =>
    visit policy before templateName m ++
      visitAll policy (before ++ visit policy before templateName m) templateName ms

end

/-- The values to be queued, each with the named metric that its address is of. -/
def addressed (before : List Visit) : List Visit → List (Visit × Visit)
  | [] => []
  | v :: vs =>
    (if v.isTemplate then [] else ((namedBy host before v).map (Prod.mk v)).toList) ++
      addressed (before ++ [v]) vs

/-- The node or device a birth or data message is from, and whether it is a birth. -/
def sourceOf (m : Received) : Option (String × Bool) :=
  match textOf (splitTopic m.topic)[2]? with
  | "NDATA" => some (nodeLocator (splitTopic m.topic), false)
  | "DDATA" => some (deviceLocator (splitTopic m.topic), false)
  | "NBIRTH" => some (nodeLocator (splitTopic m.topic), true)
  | "DBIRTH" => some (deviceLocator (splitTopic m.topic), true)
  | _ => none

/-- The metrics a message brings after those that are known of its source. -/
def visitsOf (policy : Policy) (before : List Visit) (m : Received) : List Visit :=
  visitAll policy before "" (metricsOf m)

/-- What is known of a source once a message has come. -/
def after (policy : Policy) (d : String) (known : List Visit) (m : Received) : List Visit :=
  match sourceOf m with
  | some (l, isBirth) =>
    if l = d then
      if isBirth then visitsOf policy [] m else known ++ visitsOf policy known m
    else known
  | none => known

/-- The metrics received from a node or device since its last birth. -/
def since (policy : Policy) (d : String) (messages : List Received) : List Visit :=
  messages.foldl (after policy d) []

/-- The value was queued for the metric, under the address of the named one. -/
structure QueuedFor (d : String) (data : QueuedValue) (v : Visit × Visit) : Prop where
  entry : EntryOf host v.1.head data
  objectAddress : data.protocolSourceObjectAddress = v.2.ownAddress d

/-- A message from `d` queues its values under the addresses of named metrics that have come
since the last birth of `d`, an alias under that of the latest it has named. -/
def Resolved (policy : Policy) (d : String) (isBirth : Bool) (messages : List Received)
    (m : Received) (s t : Client) : Prop :=
  let known := if isBirth then [] else since policy d messages
  ∃ entries, t.ValuesQueue = s.ValuesQueue ++ entries ∧
    if isBirth || isBirthed s d then
      List.Forall₂ (QueuedFor host d) entries (addressed host known (visitsOf policy known m))
    else entries = []

/-- The client after the messages. -/
def received (messages : List Received) : Client :=
  messages.foldl (fun s m => onMessage host m s) {}

/-- No metric, at whatever depth, makes an exception of its message. -/
inductive Decodable : Metric → Prop where
  | scalar {head : Head} {value : Option Scalar} {type : String}
      (typed : head.type = some type)
      (decoded : decode host (toLowerCase type) head value ≠ .thrown) :
      Decodable (.scalar head value)
  | template {head : Head} {metrics : List Metric} (typed : head.type.isSome = true)
      (decodable : ∀ m ∈ metrics, Decodable m) : Decodable (.template head metrics)

/-- The messages from a node or device that can be read to their end. -/
def Readable (d : String) (m : Received) : Prop :=
  ∀ isBirth, sourceOf m = some (d, isBirth) → ∀ x ∈ metricsOf m, Decodable host x

end Statement

variable {host : Host} {now : Date} {d : String} {isBirth : Bool} {msgType : String}

section Log

theorem latest_append (vs : List Visit) (v : Visit) (a : Scalar) :
    latest host (vs ++ [v]) a = if Names host a v then some v else latest host vs a := by
  rw [latest, latest, List.reverse_append, List.reverse_singleton, List.singleton_append,
    List.find?_cons]
  cases Names host a v <;> rfl

theorem addressed_append (before vs ws : List Visit) :
    addressed host before (vs ++ ws) =
      addressed host before vs ++ addressed host (before ++ vs) ws := by
  induction vs generalizing before with
  | nil => rw [List.nil_append, List.append_nil, addressed, List.nil_append]
  | cons v vs ih =>
    rw [List.cons_append, addressed, addressed, ih, List.append_assoc, List.append_assoc,
      List.singleton_append]

theorem addressed_singleton (before : List Visit) (v : Visit) :
    addressed host before [v] =
      if v.isTemplate then [] else ((namedBy host before v).map (Prod.mk v)).toList := by
  rw [addressed, addressed, List.append_nil]

theorem Visit.ownAddress_ne_empty (v : Visit) (d : String) : v.ownAddress d ≠ "" := by
  intro h
  have hlist := congrArg String.toList h
  rw [Visit.ownAddress] at hlist
  split at hlist <;> simp at hlist

end Log

section Map

/-- The map of a node or device holds the latest name of each alias. -/
def Tracks (host : Host) (d : String) (s : Client) (known : List Visit) : Prop :=
  ∃ device map, s.DevicesList.get d = some device ∧ device.mapAliasToObjectAddress = some map ∧
    ∀ a, map.get (aliasKey host a) = (latest host known a).map (Visit.ownAddress d)

theorem tracks_birth (s : Client) :
    Tracks host d { s with DevicesList := s.DevicesList.set d birth } [] :=
  ⟨birth, [], Members.get_set_self _ _ _, rfl, fun _ => rfl⟩

theorem Tracks.of_get {s t : Client} {known : List Visit} (h : Tracks host d s known)
    (heq : t.DevicesList.get d = s.DevicesList.get d) : Tracks host d t known := by
  obtain ⟨device, map, hdevice, hmap, hlatest⟩ := h
  exact ⟨device, map, heq.trans hdevice, hmap, hlatest⟩

/-- A metric that names no alias leaves the map right. -/
theorem Tracks.append_of_not_names {s : Client} {known : List Visit} {v : Visit}
    (h : Tracks host d s known) (hv : ∀ a, Names host a v = false) :
    Tracks host d s (known ++ [v]) := by
  obtain ⟨device, map, hdevice, hmap, hlatest⟩ := h
  refine ⟨device, map, hdevice, hmap, fun a => ?_⟩
  rw [latest_append, hv a, hlatest a]
  rfl

theorem decode_ne_passed {type : String} {head : Head} {value : Option Scalar} :
    decode host type head value ≠ .passed := by
  have hjson : Decoded.json host head value ≠ .passed := by
    rcases value with _ | _ | _ | _ | _ | _ | _ | _ <;> simp [Decoded.json]
  rw [decode]
  split_ifs
  · exact hjson
  all_goals simp

/-- The address of a metric is found as the names so far tell. -/
theorem objectAddressOf_of_tracks {s : Client} {known : List Visit} (h : Tracks host d s known)
    (v : Visit) :
    (objectAddressOf host v.head d v.templateName s).2 =
        ((namedBy host known v).elim .passed fun n => .next (n.ownAddress d)) ∧
      Tracks host d (objectAddressOf host v.head d v.templateName s).1 (known ++ [v]) := by
  obtain ⟨device, map, hdevice, hmap, hlatest⟩ := h
  have hkeep := Tracks.append_of_not_names (v := v) ⟨device, map, hdevice, hmap, hlatest⟩
  by_cases hname : trim (v.head.name.getD "").toList ≠ []
  · have hnamed : v.isNamed = true := decide_eq_true hname
    cases halias : v.head.metricAlias with
    | none =>
      simp only [objectAddressOf, if_pos hname, halias, namedBy, hnamed, if_true]
      exact ⟨rfl, hkeep fun a => by rw [Names, halias, Option.any_none, Bool.and_false]⟩
    | some b =>
      simp only [objectAddressOf, if_pos hname, halias, hdevice, hmap, namedBy, hnamed, if_true]
      refine ⟨rfl, ?_⟩
      refine ⟨_, _, Members.get_set_self _ _ _, rfl, fun a => ?_⟩
      have hnames : Names host a v = decide (aliasKey host b = aliasKey host a) := by
        rw [Names, hnamed, halias, Option.any_some, Bool.true_and]
      rw [latest_append, hnames]
      by_cases hkey : aliasKey host b = aliasKey host a
      · rw [decide_eq_true hkey, if_pos rfl, ← hkey, Members.get_set_self]
        rfl
      · rw [decide_eq_false hkey, Members.get_set_of_ne (Ne.symm hkey), hlatest a]
        rfl
  · have hnamed : v.isNamed = false := decide_eq_false hname
    have hnames : ∀ a, Names host a v = false := by
      intro a
      rw [Names, hnamed, Bool.false_and]
    cases halias : v.head.metricAlias with
    | none =>
      simp only [objectAddressOf, if_neg hname, halias, namedBy, hnamed]
      exact ⟨rfl, hkeep hnames⟩
    | some b =>
      simp only [objectAddressOf, if_neg hname, halias, hdevice, hmap, namedBy, hnamed, hlatest b]
      cases hlast : latest host known b with
      | none => exact ⟨by simp [hlast], hkeep hnames⟩
      | some n => exact ⟨by simp [hlast, n.ownAddress_ne_empty d], hkeep hnames⟩

theorem enqueueMetric_of_decodable {head : Head} {value : Option Scalar} {type : String}
    (htype : head.type = some type)
    (hdecode : decode host (toLowerCase type) head value ≠ .thrown) (address : String)
    (s : Client) :
    ∃ data, enqueueMetric host now head value isBirth msgType address s =
        ({ s with ValuesQueue := s.ValuesQueue ++ [data] }, false) ∧
      EntryOf host head data ∧ data.protocolSourceObjectAddress = address := by
  have hnext : ∃ x, decode host (toLowerCase type) head value = .next x := by
    cases hd : decode host (toLowerCase type) head value with
    | passed => exact absurd hd decode_ne_passed
    | next x => exact ⟨x, rfl⟩
    | thrown => exact absurd hd hdecode
  obtain ⟨x, hx⟩ := hnext
  refine ⟨_, ?_, ⟨now, value, toLowerCase type, isBirth, msgType, address, x, rfl⟩, rfl⟩
  simp only [enqueueMetric, htype, hx]

end Map

section Metrics

/-- Metrics have been taken up to their end, and queued under the addresses they have. -/
structure Taken (host : Host) (d : String) (s : Client) (known vs : List Visit)
    (r : Client × Bool) : Prop where
  ended : r.2 = false
  tracks : Tracks host d r.1 (known ++ vs)
  queued : ∃ entries, r.1.ValuesQueue = s.ValuesQueue ++ entries ∧
    List.Forall₂ (QueuedFor host d) entries (addressed host known vs)

theorem Taken.nil {s : Client} {known : List Visit} (h : Tracks host d s known) :
    Taken host d s known [] (s, false) :=
  ⟨rfl, (List.append_nil known).symm ▸ h, [], (List.append_nil _).symm, .nil⟩

theorem Taken.append {s t : Client} {known vs ws : List Visit} {r : Client × Bool}
    (h : Taken host d s known vs (t, false)) (h' : Taken host d t (known ++ vs) ws r) :
    Taken host d s known (vs ++ ws) r := by
  obtain ⟨entries, hqueue, hentries⟩ := h.queued
  obtain ⟨entries', hqueue', hentries'⟩ := h'.queued
  refine ⟨h'.ended, ?_, entries ++ entries', ?_, ?_⟩
  · rw [← List.append_assoc]
    exact h'.tracks
  · rw [hqueue', hqueue, List.append_assoc]
  · rw [addressed_append]
    exact List.rel_append hentries hentries'

/-- A metric without an address is passed over, and so is what a template names. -/
theorem taken_passed {s t : Client} {known : List Visit} {v : Visit}
    (htracks : Tracks host d t (known ++ [v])) (hqueue : t.ValuesQueue = s.ValuesQueue)
    (hv : v.isTemplate = true ∨ namedBy host known v = none) :
    Taken host d s known [v] (t, false) := by
  refine ⟨rfl, htracks, [], hqueue.trans (List.append_nil _).symm, ?_⟩
  rw [addressed_singleton]
  rcases hv with hv | hv
  · rw [if_pos hv]
    exact .nil
  · rw [hv, Option.map_none, Option.toList_none, ite_self]
    exact .nil

mutual

/-- By recursion on the metric and the metrics of its template. -/
theorem taken_queueMetric : ∀ (m : Metric), Decodable host m → ∀ (templateName : String)
    (known : List Visit) (s : Client), Tracks host d s known →
      Taken host d s known (visit (whenKnown host) known templateName m)
        (queueMetric host now d isBirth templateName msgType m s)
  | .scalar head value, hm, templateName, known, s, h => by
    obtain ⟨htype, hdecode⟩ := hm
    obtain ⟨hflow, htracks⟩ := objectAddressOf_of_tracks h
      { templateName := templateName, head := head, isTemplate := false }
    have hqueue := queue_objectAddressOf host head d templateName s
    rw [visit, queueMetric]
    generalize objectAddressOf host head d templateName s = r at hflow htracks hqueue
    obtain ⟨t, flow⟩ := r
    dsimp only at hflow htracks hqueue
    cases hnamed : namedBy host known
        { templateName := templateName, head := head, isTemplate := false } with
    | none =>
      rw [hnamed, Option.elim_none] at hflow
      subst hflow
      exact taken_passed htracks hqueue (.inr hnamed)
    | some n =>
      rw [hnamed, Option.elim_some] at hflow
      subst hflow
      obtain ⟨data, heq, hentry, haddress⟩ := @enqueueMetric_of_decodable host now isBirth msgType
        head value _ htype hdecode (n.ownAddress d) t
      dsimp only
      rw [heq]
      refine ⟨rfl, htracks.of_get rfl, [data], by rw [hqueue], ?_⟩
      rw [addressed_singleton, hnamed]
      exact .cons ⟨hentry, haddress⟩ .nil
  | .template head metrics, hm, templateName, known, s, h => by
    obtain ⟨_, _⟩ | ⟨htype, hmetrics⟩ := hm
    obtain ⟨hflow, htracks⟩ := objectAddressOf_of_tracks h
      { templateName := templateName, head := head, isTemplate := true }
    have hqueue := queue_objectAddressOf host head d templateName s
    rw [visit, queueMetric]
    generalize objectAddressOf host head d templateName s = r at hflow htracks hqueue
    obtain ⟨t, flow⟩ := r
    dsimp only at hflow htracks hqueue ⊢
    have hpassed := taken_passed htracks hqueue (.inl rfl)
    cases hnamed : namedBy host known
        { templateName := templateName, head := head, isTemplate := true } with
    | none =>
      rw [hnamed, Option.elim_none] at hflow
      subst hflow
      rw [whenKnown, hnamed]
      exact hpassed
    | some n =>
      rw [hnamed, Option.elim_some] at hflow
      subst hflow
      have hnone : head.type.isNone = false := by
        rw [Option.isNone_eq_false_iff, htype]
      rw [whenKnown, hnamed, hnone]
      exact hpassed.append
        (taken_queueMetrics metrics hmetrics (head.name.getD "") _ t htracks)

theorem taken_queueMetrics : ∀ (ms : List Metric), (∀ m ∈ ms, Decodable host m) →
    ∀ (templateName : String) (known : List Visit) (s : Client), Tracks host d s known →
      Taken host d s known (visitAll (whenKnown host) known templateName ms)
        (queueMetrics host now d isBirth templateName msgType ms s)
  | [], _, templateName, known, s, h => by
    rw [visitAll, queueMetrics]
    exact .nil h
  | m :: ms, hms, templateName, known, s, h => by
    have hone := taken_queueMetric m (hms m List.mem_cons_self) templateName known s h
    rw [visitAll, queueMetrics]
    generalize queueMetric host now d isBirth templateName msgType m s = r at hone
    obtain ⟨t, flag⟩ := r
    obtain rfl : flag = false := hone.ended
    exact hone.append (taken_queueMetrics ms (fun x hx => hms x (List.mem_cons_of_mem m hx))
      templateName _ t hone.tracks)

end

/-- The metrics of others leave an entry of `DevicesList` alone. -/
theorem get_queueMetrics {l : String} (hne : d ≠ l) (ms : List Metric) (s : Client) :
    (queueMetrics host now l isBirth "" msgType ms s).1.DevicesList.get d =
      s.DevicesList.get d := by
  refine @queueMetrics_related host now (fun s t => t.DevicesList.get d = s.DevicesList.get d)
    (fun _ => rfl) (fun hst htu => htu.trans hst) l ?_ isBirth msgType ms ?_ s
  · intro head templateName s
    simp only [objectAddressOf]
    split
    · split
      · rfl
      · split
        · rfl
        · split
          · rfl
          · exact Members.get_set_of_ne hne _ _
    · split
      · rfl
      · split
        · rfl
        · split
          · rfl
          · split <;> rfl
  · intro head _ value address s
    rw [enqueueMetric]
    split
    · rfl
    · split <;> rfl

end Metrics

section Messages

/-- What becomes of a message. -/
inductive Handled (host : Host) (m : Received) (s t : Client) : Prop where
  /-- Its metrics are gone through. -/
  | taken (l : String) (isBirth : Bool) (msgType : String)
      (source : sourceOf m = some (l, isBirth)) (born : (isBirth || isBirthed s l) = true)
      (devices : t.DevicesList = (processBirthOrData host m.now l
        (m.metrics.map fun ms => ms.filter fun x => x.head.type.isSome) isBirth msgType
        s).1.DevicesList)
      (queue : t.ValuesQueue = (processBirthOrData host m.now l
        (m.metrics.map fun ms => ms.filter fun x => x.head.type.isSome) isBirth msgType
        s).1.ValuesQueue)
  | unborn (l : String) (source : sourceOf m = some (l, false)) (unborn : isBirthed s l = false)
      (eq : t = requestBirth m (splitTopic m.topic) s)
  | death (l : String) (source : sourceOf m = none) (devices : t.DevicesList = die l s.DevicesList)
      (queue : t.ValuesQueue = s.ValuesQueue)
  | other (source : sourceOf m = none) (eq : t = s)

theorem invalidate_keeps (mongoClient : Bool) (path : String) (s : Client) :
    (InvalidatePathTags mongoClient path s).DevicesList = s.DevicesList ∧
      (InvalidatePathTags mongoClient path s).ValuesQueue = s.ValuesQueue := by
  rw [InvalidatePathTags]
  split_ifs <;> exact ⟨rfl, rfl⟩

theorem slash_mem_deviceLocator (splTopic : List String) :
    '/' ∈ (deviceLocator splTopic).toList := by
  rw [deviceLocator]
  split_ifs <;> simp [nodeLocator]

theorem handled_onMessage (m : Received) (s : Client) :
    Handled host m s (onMessage host m s) := by
  have hsource : ∀ kind, textOf (splitTopic m.topic)[2]? = kind → sourceOf m = match kind with
      | "NDATA" => some (nodeLocator (splitTopic m.topic), false)
      | "DDATA" => some (deviceLocator (splitTopic m.topic), false)
      | "NBIRTH" => some (nodeLocator (splitTopic m.topic), true)
      | "DBIRTH" => some (deviceLocator (splitTopic m.topic), true)
      | _ => none := by
    rintro kind rfl
    rfl
  rw [onMessage]
  generalize textOf (splitTopic m.topic)[2]? = kind at hsource
  specialize hsource kind rfl
  dsimp only
  split
  · cases hborn : isBirthed s (nodeLocator (splitTopic m.topic)) with
    | true => exact .taken _ _ _ hsource (by rw [hborn]; rfl) rfl rfl
    | false => exact .unborn _ hsource hborn rfl
  · cases hborn : isBirthed s (deviceLocator (splitTopic m.topic)) with
    | true => exact .taken _ _ _ hsource (by rw [hborn]; rfl) rfl rfl
    | false => exact .unborn _ hsource hborn rfl
  · refine .taken _ true "NBIRTH" hsource rfl ?_ ?_
    · split_ifs
      · rfl
      · exact (invalidate_keeps _ _ _).1
    · split_ifs
      · rfl
      · exact (invalidate_keeps _ _ _).2
  · exact .taken _ true "DBIRTH" hsource rfl rfl rfl
  · refine .death (nodeLocator (splitTopic m.topic)) hsource ?_ (invalidate_keeps _ _ _).2
    rw [(invalidate_keeps _ _ _).1]
    exact killDevices_eq_self (slash_mem_deviceLocator _) _
  · exact .death (deviceLocator (splitTopic m.topic)) hsource (invalidate_keeps _ _ _).1
      (invalidate_keeps _ _ _).2
  · refine .other ?_ rfl
    rw [hsource]
    split <;> first | rfl | contradiction

/-- The metrics of a message of `d`, after what is known of `d`. -/
theorem taken_processBirthOrData {m : Received} {known : List Visit} {s : Client}
    (hm : ∀ x ∈ metricsOf m, Decodable host x)
    (htracks : Tracks host d
      (if isBirth then { s with DevicesList := s.DevicesList.set d birth } else s) known)
    {r : Client × Bool} (hr : processBirthOrData host now d
      (m.metrics.map fun ms => ms.filter fun x => x.head.type.isSome) isBirth msgType s = r) :
    Tracks host d r.1 (known ++ visitsOf (whenKnown host) known m) ∧
      ∃ entries, r.1.ValuesQueue = s.ValuesQueue ++ entries ∧
        List.Forall₂ (QueuedFor host d) entries
          (addressed host known (visitsOf (whenKnown host) known m)) := by
  have hqueue : (if isBirth then { s with DevicesList := s.DevicesList.set d birth }
      else s).ValuesQueue = s.ValuesQueue := by
    split_ifs <;> rfl
  subst hr
  cases hmetrics : m.metrics with
  | none =>
    rw [Option.map_none, processBirthOrData]
    have hvisits : visitsOf (whenKnown host) known m = [] := by
      rw [visitsOf, metricsOf, hmetrics]
      rfl
    rw [hvisits, List.append_nil]
    exact ⟨htracks, [], hqueue.trans (List.append_nil _).symm, .nil⟩
  | some ms =>
    rw [Option.map_some, processBirthOrData]
    have htaken : metricsOf m = ms.filter fun x => x.head.type.isSome := by
      rw [metricsOf, hmetrics]
      rfl
    have h := @taken_queueMetrics host now d isBirth msgType (metricsOf m) hm "" known _ htracks
    rw [htaken] at h
    rw [visitsOf, htaken]
    obtain ⟨entries, hentries, hqueued⟩ := h.queued
    exact ⟨h.tracks, entries, hentries.trans (by rw [hqueue]), hqueued⟩

/-- A request for a birth queues nothing, and no one is birthed by it. -/
theorem requestBirth_keeps (m : Received) (splTopic : List String) (s : Client) (d : String) :
    (requestBirth m splTopic s).ValuesQueue = s.ValuesQueue ∧
      (isBirthed (requestBirth m splTopic s) d = true →
        (requestBirth m splTopic s).DevicesList.get d = s.DevicesList.get d) := by
  have hset : ∀ rebirths, isBirthed { s with
      DevicesList := s.DevicesList.set (nodeLocator splTopic)
        { birthed := false, lastReqDateTime := some m.now }
      rebirths := rebirths } d = true →
        (s.DevicesList.set (nodeLocator splTopic)
          { birthed := false, lastReqDateTime := some m.now }).get d = s.DevicesList.get d := by
    intro rebirths hborn
    by_cases hd : d = nodeLocator splTopic
    · subst hd
      simp [isBirthed] at hborn
    · exact Members.get_set_of_ne hd _ _
  rw [requestBirth]
  split_ifs
  · exact ⟨rfl, fun _ => rfl⟩
  · exact ⟨rfl, hset _⟩
  · exact ⟨rfl, hset _⟩

theorem get_die {l : String} {devices : Members Device}
    (h : ((die l devices).get d).any Device.birthed = true) :
    (die l devices).get d = devices.get d := by
  rw [die] at h ⊢
  cases hl : devices.get l with
  | none => rfl
  | some device =>
    rw [hl] at h
    by_cases hd : d = l
    · subst hd
      simp at h
    · exact Members.get_set_of_ne hd _ _

theorem isBirthed_of_get {s t : Client} (h : t.DevicesList.get d = s.DevicesList.get d) :
    isBirthed t d = isBirthed s d := by
  rw [isBirthed, isBirthed, h]

/-- The map of a birthed node or device holds what is known of it. -/
def Known (host : Host) (d : String) (s : Client) (known : List Visit) : Prop :=
  isBirthed s d = true → Tracks host d s known

theorem Known.of_get {s t : Client} {known : List Visit} (h : Known host d s known)
    (heq : isBirthed t d = true → t.DevicesList.get d = s.DevicesList.get d) :
    Known host d t known := by
  intro hborn
  have hget := heq hborn
  exact (h (isBirthed_of_get hget ▸ hborn)).of_get hget

/-- A message from `d` that is gone through. -/
theorem known_of_taken {m : Received} {known : List Visit} {s t : Client} {l : String}
    (hm : Readable host d m) (hknown : Known host d s known)
    (hsource : sourceOf m = some (l, isBirth)) (hborn : (isBirth || isBirthed s l) = true)
    (hdevices : t.DevicesList = (processBirthOrData host m.now l
      (m.metrics.map fun ms => ms.filter fun x => x.head.type.isSome) isBirth msgType
      s).1.DevicesList) : Known host d t (after (whenKnown host) d known m) := by
  rw [after, hsource]
  by_cases hl : l = d
  · subst hl
    dsimp only
    rw [if_pos rfl]
    intro _
    cases isBirth with
    | true =>
      rw [if_pos rfl]
      refine Tracks.of_get ?_ (congrArg (Members.get · l) hdevices)
      exact (@taken_processBirthOrData host m.now l true msgType m [] s (hm true hsource)
        (tracks_birth s) _ rfl).1
    | false =>
      rw [if_neg Bool.false_ne_true]
      refine Tracks.of_get ?_ (congrArg (Members.get · l) hdevices)
      exact (taken_processBirthOrData (hm false hsource) (hknown hborn) rfl).1
  · dsimp only
    rw [if_neg hl]
    refine hknown.of_get fun _ => ?_
    have hstart : (if isBirth then { s with DevicesList := s.DevicesList.set l birth }
        else s).DevicesList.get d = s.DevicesList.get d := by
      split_ifs
      · exact Members.get_set_of_ne (Ne.symm hl) _ _
      · rfl
    rw [hdevices]
    cases m.metrics with
    | none => exact hstart
    | some ms => exact (get_queueMetrics (Ne.symm hl) _ _).trans hstart

theorem known_onMessage {m : Received} {known : List Visit} {s : Client}
    (hm : Readable host d m) (hknown : Known host d s known) :
    Known host d (onMessage host m s) (after (whenKnown host) d known m) := by
  cases @handled_onMessage host m s with
  | taken l isBirth msgType hsource hborn hdevices _ =>
    exact known_of_taken hm hknown hsource hborn hdevices
  | unborn l hsource hunborn heq =>
    have hkeeps := requestBirth_keeps m (splitTopic m.topic) s d
    rw [← heq] at hkeeps
    intro hborn
    have hget := hkeeps.2 hborn
    have hne : l ≠ d := by
      rintro rfl
      rw [isBirthed_of_get hget, hunborn] at hborn
      cases hborn
    rw [after, hsource]
    dsimp only
    rw [if_neg hne]
    exact hknown.of_get hkeeps.2 hborn
  | death l hsource hdevices _ =>
    rw [after, hsource]
    refine hknown.of_get fun hborn => ?_
    rw [isBirthed, hdevices] at hborn
    rw [hdevices]
    exact get_die hborn
  | other hsource heq =>
    rw [after, hsource, heq]
    exact hknown

/-- By induction on the messages, the latest one last. -/
theorem known_received {messages : List Received} (h : ∀ m ∈ messages, Readable host d m) :
    Known host d (received host messages) (since (whenKnown host) d messages) := by
  induction messages using List.reverseRecOn with
  | nil => nofun
  | append_singleton messages m ih =>
    have hlast := h m (List.mem_append_right _ (List.mem_singleton_self m))
    have hbefore := ih fun x hx => h x (List.mem_append_left _ hx)
    rw [received, since, List.foldl_append, List.foldl_append]
    exact known_onMessage hlast hbefore

/-- After any messages, a message from `d` queues its values under the addresses of the named
metrics that have come since the last birth of `d`, and other messages queue nothing. -/
theorem aliases_resolved {messages : List Received} {m : Received}
    (h : ∀ x ∈ messages ++ [m], Readable host d x) :
    (∀ isBirth, sourceOf m = some (d, isBirth) →
      Resolved host (whenKnown host) d isBirth messages m (received host messages)
        (received host (messages ++ [m]))) ∧
      (sourceOf m = none →
        (received host (messages ++ [m])).ValuesQueue = (received host messages).ValuesQueue) := by
  have hm := h m (List.mem_append_right _ (List.mem_singleton_self m))
  have hknown := known_received fun x hx => h x (List.mem_append_left _ hx)
  have hlast : received host (messages ++ [m]) = onMessage host m (received host messages) := by
    rw [received, List.foldl_append]
    rfl
  rw [hlast]
  cases @handled_onMessage host m (received host messages) with
  | taken l isBirth msgType hsource hborn _ hqueue =>
    refine ⟨fun b hd => ?_, fun hnone => absurd (hsource.symm.trans hnone) nofun⟩
    obtain ⟨rfl, rfl⟩ := Prod.mk.inj (Option.some.inj (hsource.symm.trans hd))
    have htracks : Tracks host l (if isBirth then { received host messages with
        DevicesList := (received host messages).DevicesList.set l birth }
        else received host messages)
          (if isBirth then [] else since (whenKnown host) l messages) := by
      cases isBirth with
      | true => exact tracks_birth _
      | false => exact hknown hborn
    obtain ⟨-, entries, hentries, hqueued⟩ :=
      @taken_processBirthOrData host m.now l isBirth msgType m _ (received host messages)
        (hm _ hsource) htracks _ rfl
    refine ⟨entries, hqueue.trans hentries, ?_⟩
    rw [if_pos hborn]
    exact hqueued
  | unborn l hsource hunborn heq =>
    refine ⟨fun b hd => ?_, fun hnone => absurd (hsource.symm.trans hnone) nofun⟩
    obtain ⟨rfl, rfl⟩ := Prod.mk.inj (Option.some.inj (hsource.symm.trans hd))
    refine ⟨[], ?_, ?_⟩
    · rw [heq, (requestBirth_keeps _ _ _ l).1, List.append_nil]
    · rw [hunborn]
      rfl
  | death l hsource _ hqueue =>
    exact ⟨fun b hd => absurd (hsource.symm.trans hd) nofun, fun _ => hqueue⟩
  | other hsource heq =>
    exact ⟨fun b hd => absurd (hsource.symm.trans hd) nofun, fun _ => by rw [heq]⟩

/-- The addresses that are added to the queue of a client. -/
theorem addresses_of_resolved {policy : Policy} {messages : List Received} {m : Received}
    {s t : Client} (h : Resolved host policy d isBirth messages m s t)
    (hborn : (isBirth || isBirthed s d) = true) :
    t.ValuesQueue.map QueuedValue.protocolSourceObjectAddress =
      s.ValuesQueue.map QueuedValue.protocolSourceObjectAddress ++
        (addressed host (if isBirth then [] else since policy d messages)
          (visitsOf policy (if isBirth then [] else since policy d messages) m)).map
            fun v => v.2.ownAddress d := by
  obtain ⟨entries, hqueue, hentries⟩ := h
  rw [if_pos hborn] at hentries
  rw [hqueue, List.map_append]
  congr 1
  clear hqueue
  generalize addressed host _ _ = vs at hentries ⊢
  induction hentries with
  | nil => rfl
  | cons hone _ ih => rw [List.map_cons, List.map_cons, hone.objectAddress, ih]

end Messages

section Tank

def tank : String := "spBv1.0/Plant/Pump/Tank"

def tankBirth (metrics : List Metric) : Received where
  topic := "spBv1.0/Plant/DBIRTH/Pump/Tank"
  metrics := some metrics
  now := 1000

def tankData (metrics : List Metric) : Received where
  topic := "spBv1.0/Plant/DDATA/Pump/Tank"
  metrics := some metrics
  now := 2000

/-- A metric of the alias 1, with a name or without. -/
def one (name : Option String) : Metric :=
  .scalar { name := name, metricAlias := some (.long 1), type := some "Boolean" }
    (some (.bool true))

theorem decodable_one (name : Option String) : Decodable plainHost (one name) := by
  refine .scalar rfl ?_
  have htype : toLowerCase "Boolean" = "boolean" := by decide +kernel
  rw [htype, decode_boolean]
  nofun

/-- A rebirth gives the alias to another metric. -/
def reassigned : List Received :=
  [tankBirth [one (some "Level")], tankData [one none], tankBirth [one (some "Flow")]]

theorem reassigned_resolved :
    (received plainHost (reassigned ++ [tankData [one none]])).ValuesQueue.map
        QueuedValue.protocolSourceObjectAddress =
      ["spBv1.0/Plant/Pump/Tank/Level", "spBv1.0/Plant/Pump/Tank/Level",
        "spBv1.0/Plant/Pump/Tank/Flow", "spBv1.0/Plant/Pump/Tank/Flow"] ∧
      Resolved plainHost (whenKnown plainHost) tank false reassigned (tankData [one none])
        (received plainHost reassigned)
        (received plainHost (reassigned ++ [tankData [one none]])) := by
  have hreadable : ∀ x ∈ reassigned ++ [tankData [one none]], Readable plainHost tank x := by
    have hmetrics : ∀ x ∈ reassigned ++ [tankData [one none]],
        metricsOf x = [one none] ∨ metricsOf x = [one (some "Level")] ∨
          metricsOf x = [one (some "Flow")] := by
      simp [reassigned, tankBirth, tankData, metricsOf, one, Metric.head]
    intro x hx _ _ metric hmetric
    rcases hmetrics x hx with h | h | h <;> rw [h, List.mem_singleton] at hmetric <;>
      rw [hmetric] <;> exact decodable_one _
  exact ⟨by decide +kernel, (aliases_resolved hreadable).1 false (by decide +kernel)⟩

/-- The alias 1 is named again in a template that has an alias nobody knows. -/
def hidden : List Received :=
  [tankBirth [one (some "Level")],
    tankData [.template { metricAlias := some (.long 9), type := some "Template" }
      [one (some "Flow")]]]

/-- What such a template holds is passed over, and the alias still is that of the old name. -/
theorem hidden_not_resolved :
    (∀ x ∈ hidden ++ [tankData [one none]], Readable plainHost tank x) ∧
      sourceOf (tankData [one none]) = some (tank, false) ∧
      ¬ Resolved plainHost always tank false hidden (tankData [one none])
        (received plainHost hidden) (received plainHost (hidden ++ [tankData [one none]])) := by
  refine ⟨?_, by decide +kernel, fun h => ?_⟩
  · intro x hx _ _ metric hmetric
    have hcases : metric = one (some "Level") ∨ metric = one none ∨ metric =
        .template { metricAlias := some (.long 9), type := some "Template" }
          [one (some "Flow")] := by
      simp only [hidden, List.cons_append, List.nil_append, List.mem_cons, List.not_mem_nil,
        or_false] at hx
      rcases hx with rfl | rfl | rfl <;>
        simp_all [tankBirth, tankData, metricsOf, one, Metric.head]
    rcases hcases with rfl | rfl | rfl
    · exact decodable_one _
    · exact decodable_one _
    · refine .template rfl fun m hm => ?_
      rw [List.mem_singleton.mp hm]
      exact decodable_one _
  · have haddresses := addresses_of_resolved h (by decide +kernel)
    exact absurd haddresses (by decide +kernel)

end Tank

end JsonScada.System.AliasResolution
