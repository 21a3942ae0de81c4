/- path: JsonScada/System/PathInvalidation
   source: src/mqtt-sparkplug/index.js
   digest: Which tags a birth or a death sets invalid, and which ones it should. -/

import JsonScada.MqttSparkplug.Invalidate
import JsonScada.System.SparkplugSession

set_option autoImplicit false
set_option relaxedAutoImplicit false

namespace JsonScada.System.PathInvalidation

open JsonScada.Lib.Binary64 JsonScada.Lib.EcmaScript JsonScada.Lib.Collection
open JsonScada.Lib.Pattern
open JsonScada.Model.Documents (Date Point)
open JsonScada.MqttSparkplug.Topic JsonScada.MqttSparkplug.Payload
open JsonScada.MqttSparkplug.Receive JsonScada.MqttSparkplug.Invalidate
open JsonScada.System.SparkplugSession

/-- A tag of the connection with an address below the path. -/
def isOwn (protocolConnectionNumber : ℤ) (path : String) (p : Point) : Bool :=
  p.protocolSourceConnectionNumber = .fin protocolConnectionNumber &&
    match p.protocolSourceObjectAddress with
    | .str address => (path ++ "/").toList.isPrefixOf address.toList
    | _ => false

/-- The path of a message after which its tags are not to be trusted. -/
def pathOf : Message → Option String
  | .nbirth n => some (nodePath n)
  | .ndeath n => some (nodePath n)
  | .ddeath n d => some (devicePath n d)
  | _ => none

/-- The connection of the client, and the state of its database. -/
structure Setup where
  regex : Regex
  protocolConnectionNumber : ℤ
  HintMongoIsConnected : Bool := true

section Paths

variable (host : Host)

theorem invalidated_objectAddressOf (head : Head) (locator templateName : String) (s : Client) :
    (objectAddressOf host head locator templateName s).1.invalidated = s.invalidated := by
  simp only [objectAddressOf]
  split
  · split
    · rfl
    · split
      · rfl
      · split <;> rfl
  · split
    · rfl
    · split
      · rfl
      · split
        · rfl
        · split <;> rfl

theorem invalidated_enqueueMetric (now : Date) (head : Head) (value : Option Scalar)
    (isBirth : Bool) (msgType address : String) (s : Client) :
    (enqueueMetric host now head value isBirth msgType address s).1.invalidated =
      s.invalidated := by
  rw [enqueueMetric]
  split
  · rfl
  · split <;> rfl

theorem invalidated_birth (now : Date) (locator : String) (metrics : Option (List Metric))
    (msgType : String) (s : Client) :
    (processBirthOrData host now locator metrics true msgType s).1.invalidated =
      s.invalidated := by
  cases metrics with
  | none => rfl
  | some ms =>
    exact @queueMetrics_related host now (fun s t => t.invalidated = s.invalidated)
      (fun _ => rfl) (fun hst htu => htu.trans hst) locator
      (fun head => invalidated_objectAddressOf host head locator) true msgType ms
      (fun head _ value => invalidated_enqueueMetric host now head value true msgType)
      { s with DevicesList := s.DevicesList.set locator birth }

/-- The metrics of a birth are taken up without an exception. -/
def isTakenUp (a : Arrival) (s : Client) : Bool :=
  match a.message with
  | .nbirth n =>
    !(ProcessNodeBirthOrData host a.now (nodePath n)
      (a.metrics.map fun ms => ms.filter fun x => x.head.type.isSome) true "NBIRTH" s).2
  | _ => true

/-- A birth or a death hands its path on, a birth unless its metrics end in an exception. -/
theorem invalidated_handled {a : Arrival} {path : String} (ha : pathOf a.message = some path)
    (s : Client) :
    (handled host a s).invalidated =
      s.invalidated ++ if a.mongoClient && isTakenUp host a s then [path] else [] := by
  cases hm : a.message with
  | nbirth n =>
    obtain ⟨hkind, hnode, -⟩ := read_nodeTopic "NBIRTH" (by decide) n
    have htopic : a.received.topic = Message.nodeTopic "NBIRTH" n := by
      simp [Arrival.received, hm, Message.topic]
    obtain rfl : nodePath n = path := by simpa [pathOf, hm] using ha
    have hkept := invalidated_birth host a.now (nodePath n)
      (a.metrics.map fun ms => ms.filter fun x => x.head.type.isSome) "NBIRTH" s
    have hnow : a.received.now = a.now := rfl
    have hmetrics : a.received.metrics = a.metrics := rfl
    have hclient : a.received.mongoClient = a.mongoClient := rfl
    simp only [handled, onMessage, htopic, hkind, hnode, hnow, hmetrics, hclient, isTakenUp, hm,
      ProcessNodeBirthOrData]
    split
    · next hthrown => simp [hthrown, hkept]
    · next htaken =>
      simp only [InvalidatePathTags, htaken, Bool.not_false, Bool.and_true]
      split <;> simp [hkept]
  | ndeath n =>
    obtain ⟨hkind, hnode, -⟩ := read_nodeTopic "NDEATH" (by decide) n
    have htopic : a.received.topic = Message.nodeTopic "NDEATH" n := by
      simp [Arrival.received, hm, Message.topic]
    obtain rfl : nodePath n = path := by simpa [pathOf, hm] using ha
    have hclient : a.received.mongoClient = a.mongoClient := rfl
    simp only [handled, onMessage, htopic, hkind, hnode, InvalidatePathTags, isTakenUp, hm,
      hclient, Bool.and_true]
    split <;> simp
  | ddeath n d =>
    obtain ⟨hkind, -, hdevice⟩ := read_deviceTopic "DDEATH" (by decide) n d
    have htopic : a.received.topic = Message.deviceTopic "DDEATH" n d := by
      simp [Arrival.received, hm, Message.topic]
    obtain rfl : devicePath n d = path := by simpa [pathOf, hm] using ha
    have hclient : a.received.mongoClient = a.mongoClient := rfl
    simp only [handled, onMessage, htopic, hkind, hdevice, InvalidatePathTags, isTakenUp, hm,
      hclient, Bool.and_true]
    split <;> simp
  | ndata n => simp [pathOf, hm] at ha
  | dbirth n d => simp [pathOf, hm] at ha
  | ddata n d => simp [pathOf, hm] at ha

end Paths

section Tags

variable (setup : Setup) (host : Host) (a : Arrival) (s : Client) (realtimeData : List Point)

/-- The database after a message, by the paths the handler has handed on. -/
def afterMessage : List Point :=
  ((handled host a s).invalidated.drop s.invalidated.length).foldl
    (fun docs path =>
      updateTags setup.regex setup.protocolConnectionNumber path setup.HintMongoIsConnected docs)
    realtimeData

/-- The update of the tags is asked for, and the database is there to do it. -/
def isUpdated : Bool := setup.HintMongoIsConnected && (a.mongoClient && isTakenUp host a s)

/-- Exactly the tags below the path are set invalid. -/
def MarksOwn (path : String) : Prop :=
  afterMessage setup host a s realtimeData =
    updateMany (isOwn setup.protocolConnectionNumber path) setInvalid realtimeData

/-- Tags of the connection that are valid and begin like the path lie below it. -/
def Unmistaken (path : String) : Prop :=
  ∀ p ∈ realtimeData, p.invalid = false →
    isLike setup.protocolConnectionNumber path p = true →
    isOwn setup.protocolConnectionNumber path p = true

theorem like_self (c : Char) : like c c = true := by
  rw [like]
  split_ifs with hdot
  · rw [hdot]
    decide
  · exact decide_eq_true rfl

theorem isLike_of_isOwn {n : ℤ} {path : String} {p : Point} (h : isOwn n path p = true) :
    isLike n path p = true := by
  rw [isOwn, Bool.and_eq_true] at h
  obtain ⟨hconnection, haddress⟩ := h
  rw [isLike, hconnection, Bool.true_and]
  cases hp : p.protocolSourceObjectAddress with
  | str address =>
    simp only [hp, List.isPrefixOf_iff_prefix, String.toList_append] at haddress
    have hprefix := (List.prefix_append path.toList "/".toList).trans haddress
    exact starts_iff.mpr ⟨path.toList, hprefix, spells_self fun c _ => like_self c⟩
  | _ => simp [hp] at haddress

variable {setup host a s realtimeData}

theorem afterMessage_eq {path : String} (ha : pathOf a.message = some path) (hplain : Plain path)
    (hlimit : ("^" ++ path).utf8ByteSize ≤ setup.regex.limit) :
    afterMessage setup host a s realtimeData =
      updateMany (fun p => isUpdated setup host a s &&
        isLike setup.protocolConnectionNumber path p) setInvalid realtimeData := by
  have hnone : updateMany (fun _ => false) setInvalid realtimeData = realtimeData := by
    simp [updateMany]
  rw [afterMessage, invalidated_handled host ha, List.drop_left]
  cases hgiven : a.mongoClient && isTakenUp host a s with
  | false => simp [isUpdated, hgiven, hnone]
  | true =>
    simp only [isUpdated, hgiven, Bool.and_true, if_true, List.foldl_cons, List.foldl_nil,
      updateTags, isSelected_eq_isLike setup.regex setup.protocolConnectionNumber hplain hlimit]
    cases setup.HintMongoIsConnected with
    | false => simp [hnone]
    | true => simp

/-- A birth or a death sets the tags below its path invalid, and no other, where no address
is mistaken for one of them. -/
theorem marks_own_iff {path : String} (ha : pathOf a.message = some path) (hplain : Plain path)
    (hlimit : ("^" ++ path).utf8ByteSize ≤ setup.regex.limit) :
    MarksOwn setup host a s realtimeData path ↔
      if isUpdated setup host a s then Unmistaken setup realtimeData path
      else ∀ p ∈ realtimeData, isOwn setup.protocolConnectionNumber path p = true →
        p.invalid = true := by
  rw [MarksOwn, afterMessage_eq ha hplain hlimit, updateMany_setInvalid_iff]
  cases isUpdated setup host a s with
  | true =>
    simp only [Bool.true_and, if_true]
    refine forall₃_congr fun p _ hvalid => ?_
    constructor
    · intro heq hlike
      rw [← heq, hlike]
    · intro h
      rw [Bool.eq_iff_iff]
      exact ⟨h, isLike_of_isOwn⟩
  | false =>
    simp only [Bool.false_and, Bool.false_eq_true, if_false]
    refine forall₂_congr fun p _ => ?_
    cases p.invalid with
    | true => simp
    | false => cases isOwn setup.protocolConnectionNumber path p <;> simp

end Tags

section Plain

/-- A database that takes plain patterns alone. -/
def plainFind (pattern text : String) : Option Bool :=
  match pattern.toList with
  | '^' :: cs =>
    if special.all fun c => !cs.contains c then
      some (starts (cs.map fun c => .one (like c)) text.toList)
    else none
  | _ => none

theorem plainFind_start (pattern text : String) (h : Plain pattern)
    (_ : ("^" ++ pattern).utf8ByteSize ≤ 32764) :
    plainFind ("^" ++ pattern) text =
      some (starts (pattern.toList.map fun c => .one (like c)) text.toList) := by
  have hlist : ("^" ++ pattern).toList = '^' :: pattern.toList := by simp
  have hall : (special.all fun c => !pattern.toList.contains c) = true := by
    rw [List.all_eq_true]
    intro c hc
    simpa using h c hc
  simp only [plainFind, hlist, hall, if_true]

def plainRegex : Regex := ⟨32764, plainFind, plainFind_start⟩

theorem group_nonempty : "G" ≠ "" := by decide

theorem group_legal : ∀ c ∈ ['/', '+', '#'], c ∉ "G".toList := forall_mem_of_all (by decide)

theorem first_nonempty : "N1" ≠ "" := by decide

theorem first_legal : ∀ c ∈ ['/', '+', '#'], c ∉ "N1".toList := forall_mem_of_all (by decide)

def first : Node := ⟨⟨"G", group_nonempty, group_legal⟩, ⟨"N1", first_nonempty, first_legal⟩⟩

def firstDies : Arrival := { message := .ndeath first, now := 0 }

def tagAt (address : String) : Point where
  _id := .fin 1
  tag := "T"
  type := .analog
  protocolSourceConnectionNumber := .fin (1 : ℤ)
  protocolSourceObjectAddress := .str address

/-- The tag of the node alone is there. -/
theorem death_marks_own :
    MarksOwn ⟨plainRegex, 1, true⟩ plainHost firstDies {} [tagAt "spBv1.0/G/N1/x"]
      (nodePath first) := by
  refine (marks_own_iff rfl (fun c hc => ?_) (by decide)).mpr ?_
  · revert c
    exact forall_mem_of_all (by decide)
  · have hupdated : isUpdated ⟨plainRegex, 1, true⟩ plainHost firstDies {} = true := rfl
    rw [if_pos hupdated]
    intro p hp _ _
    rw [List.mem_singleton.mp hp]
    decide

/-- The death of `N1` sets a tag of `N10` invalid. -/
theorem death_marks_neighbour :
    ¬ ∀ (setup : Setup) (host : Host) (a : Arrival) (s : Client) (realtimeData : List Point)
      (path : String), pathOf a.message = some path →
      MarksOwn setup host a s realtimeData path := by
  intro h
  have hmarks := h ⟨plainRegex, 1, true⟩ plainHost firstDies {} [tagAt "spBv1.0/G/N10/x"] _ rfl
  have hinvalid := congrArg (List.map Point.invalid) hmarks
  revert hinvalid
  decide

end Plain

end JsonScada.System.PathInvalidation
