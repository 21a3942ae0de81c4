/- path: JsonScada/System/SparkplugSession
   source: src/mqtt-sparkplug/index.js
   digest: Births and deaths of nodes and devices as the client keeps them. -/

import JsonScada.Lib.Machine
import JsonScada.MqttSparkplug.Receive

set_option autoImplicit false
set_option relaxedAutoImplicit false

namespace JsonScada.System.SparkplugSession

open JsonScada.Lib.JsObject JsonScada.Lib.Machine
open JsonScada.Model.Documents (Date)
open JsonScada.MqttSparkplug.AutoTag (SparkplugNS splitTopic textOf)
open JsonScada.MqttSparkplug.Topic JsonScada.MqttSparkplug.Payload
open JsonScada.MqttSparkplug.Receive

structure Node where
  groupId : Name
  edgeNodeId : Name
  deriving DecidableEq

/-- The messages of nodes and of their devices that bear on a session. -/
inductive Message where
  | nbirth (n : Node)
  | ndata (n : Node)
  | ndeath (n : Node)
  | dbirth (n : Node) (d : Name)
  | ddata (n : Node) (d : Name)
  | ddeath (n : Node) (d : Name)
  deriving DecidableEq

namespace Message

def node : Message → Node
  | nbirth n => n
  | ndata n => n
  | ndeath n => n
  | dbirth n _ => n
  | ddata n _ => n
  | ddeath n _ => n

def nodeTopic (kind : String) (n : Node) : String :=
  joined [SparkplugNS, n.groupId.text, kind, n.edgeNodeId.text]

def deviceTopic (kind : String) (n : Node) (d : Name) : String :=
  joined [SparkplugNS, n.groupId.text, kind, n.edgeNodeId.text, d.text]

def topic : Message → String
  | nbirth n => nodeTopic "NBIRTH" n
  | ndata n => nodeTopic "NDATA" n
  | ndeath n => nodeTopic "NDEATH" n
  | dbirth n d => deviceTopic "DBIRTH" n d
  | ddata n d => deviceTopic "DDATA" n d
  | ddeath n d => deviceTopic "DDEATH" n d

end Message

def nodePath (n : Node) : String := joined [SparkplugNS, n.groupId.text, n.edgeNodeId.text]

def devicePath (n : Node) (d : Name) : String :=
  joined [SparkplugNS, n.groupId.text, n.edgeNodeId.text, d.text]

/-- A message with its payload and the circumstances of its handling. -/
structure Arrival where
  message : Message
  metrics : Option (List Metric) := none
  now : Date
  handle : Bool := true
  mongoClient : Bool := true

def Arrival.received (a : Arrival) : Received where
  topic := a.message.topic
  metrics := a.metrics
  now := a.now
  handle := a.handle
  mongoClient := a.mongoClient

section Paths

theorem Name.no_slash (a : Name) : '/' ∉ a.text.toList := a.legal '/' (by simp)

theorem no_slash_NS : '/' ∉ SparkplugNS.toList := by decide

theorem split_nodePath (n : Node) :
    splitTopic (nodePath n) = [SparkplugNS, n.groupId.text, n.edgeNodeId.text] := by
  refine splitTopic_joined ?_
  simp [Name.no_slash, no_slash_NS]

theorem split_devicePath (n : Node) (d : Name) :
    splitTopic (devicePath n d) =
      [SparkplugNS, n.groupId.text, n.edgeNodeId.text, d.text] := by
  refine splitTopic_joined ?_
  simp [Name.no_slash, no_slash_NS]

theorem split_nodeTopic {kind : String} (hk : '/' ∉ kind.toList) (n : Node) :
    splitTopic (Message.nodeTopic kind n) =
      [SparkplugNS, n.groupId.text, kind, n.edgeNodeId.text] := by
  refine splitTopic_joined ?_
  simp [Name.no_slash, no_slash_NS, hk]

theorem split_deviceTopic {kind : String} (hk : '/' ∉ kind.toList) (n : Node) (d : Name) :
    splitTopic (Message.deviceTopic kind n d) =
      [SparkplugNS, n.groupId.text, kind, n.edgeNodeId.text, d.text] := by
  refine splitTopic_joined ?_
  simp [Name.no_slash, no_slash_NS, hk]

theorem Name.ext' {a b : Name} (h : a.text = b.text) : a = b := by
  cases a
  cases b
  cases h
  rfl

theorem nodePath_inj {n n' : Node} (h : nodePath n = nodePath n') : n = n' := by
  have hsplit := congrArg splitTopic h
  rw [split_nodePath, split_nodePath] at hsplit
  obtain ⟨g, e⟩ := n
  obtain ⟨g', e'⟩ := n'
  simp only [List.cons.injEq, and_true, true_and] at hsplit
  rw [Name.ext' hsplit.1, Name.ext' hsplit.2]

theorem devicePath_inj {n n' : Node} {d d' : Name} (h : devicePath n d = devicePath n' d') :
    n = n' ∧ d = d' := by
  have hsplit := congrArg splitTopic h
  rw [split_devicePath, split_devicePath] at hsplit
  obtain ⟨g, e⟩ := n
  obtain ⟨g', e'⟩ := n'
  simp only [List.cons.injEq, and_true, true_and] at hsplit
  obtain ⟨hg, he, hd⟩ := hsplit
  rw [Name.ext' hg, Name.ext' he, Name.ext' hd]
  exact ⟨rfl, rfl⟩

theorem nodePath_ne_devicePath (n n' : Node) (d : Name) : nodePath n ≠ devicePath n' d := by
  intro h
  have hlen := congrArg (fun t => (splitTopic t).length) h
  simp [split_nodePath, split_devicePath] at hlen

theorem locators_nodeTopic (n : Node) (kind : String) :
    nodeLocator [SparkplugNS, n.groupId.text, kind, n.edgeNodeId.text] = nodePath n ∧
      deviceLocator [SparkplugNS, n.groupId.text, kind, n.edgeNodeId.text] = nodePath n := by
  simp [nodeLocator, deviceLocator, textOf, nodePath, joined, String.append_assoc]

theorem locators_deviceTopic (n : Node) (d : Name) (kind : String) :
    nodeLocator [SparkplugNS, n.groupId.text, kind, n.edgeNodeId.text, d.text] = nodePath n ∧
      deviceLocator [SparkplugNS, n.groupId.text, kind, n.edgeNodeId.text, d.text] =
        devicePath n d := by
  simp [nodeLocator, deviceLocator, textOf, nodePath, devicePath, joined, String.append_assoc]

end Paths

section Session

/-- A birth since the last death, of the device or of its node. -/
def aliveAfter (n : Node) (d : Name) (alive : Bool) : Message → Bool
  | .dbirth n' d' => if n' = n ∧ d' = d then true else alive
  | .ddeath n' d' => if n' = n ∧ d' = d then false else alive
  | .ndeath n' => if n' = n then false else alive
  | _ => alive

def deviceAlive (n : Node) (d : Name) (h : List Arrival) : Bool :=
  h.foldl (fun alive a => aliveAfter n d alive a.message) false

def nodeAliveAfter (n : Node) (alive : Bool) : Message → Bool
  | .nbirth n' => if n' = n then true else alive
  | .ndeath n' => if n' = n then false else alive
  | _ => alive

def nodeAlive (n : Node) (h : List Arrival) : Bool :=
  h.foldl (fun alive a => nodeAliveAfter n alive a.message) false

theorem deviceAlive_append (n : Node) (d : Name) (h : List Arrival) (a : Arrival) :
    deviceAlive n d (h ++ [a]) = aliveAfter n d (deviceAlive n d h) a.message := by
  simp [deviceAlive, List.foldl_append]

theorem nodeAlive_append (n : Node) (h : List Arrival) (a : Arrival) :
    nodeAlive n (h ++ [a]) = nodeAliveAfter n (nodeAlive n h) a.message := by
  simp [nodeAlive, List.foldl_append]

variable (host : Host)

def handled (a : Arrival) (s : Client) : Client := onMessage host a.received s

def step (s : Client) (a : Arrival) : Option Client := some (handled host a s)

/-- The births of one path have become `b`, those of the others are as before. -/
structure OnlyBirth (s t : Client) (k : String) (b : Option (Bool × Option Date)) : Prop where
  self : birthOf t k = b
  other : ∀ j, j ≠ k → birthOf t j = birthOf s j

theorem onlyBirth_set {s t : Client} {k : String} {v : Device}
    (h : SameBirths { s with DevicesList := s.DevicesList.set k v } t) :
    OnlyBirth s t k (some (v.birthed, v.lastReqDateTime)) := by
  refine ⟨?_, fun j hj => ?_⟩
  · rw [h.births]
    simp [birthOf]
  · rw [h.births]
    simp [birthOf, Members.get_set_of_ne hj]

theorem onlyBirth_die (s : Client) (k : String) :
    OnlyBirth s { s with DevicesList := die k s.DevicesList } k
      ((birthOf s k).map fun b => (false, b.2)) := by
  cases hk : s.DevicesList.get k with
  | none => exact ⟨by simp [die, birthOf, hk], fun j _ => by simp [die, birthOf, hk]⟩
  | some v =>
    refine ⟨by simp [die, birthOf, hk], fun j hj => ?_⟩
    simp [die, birthOf, hk, Members.get_set_of_ne hj]

/-- What the handler reads of a topic. -/
theorem read_nodeTopic (kind : String) (hk : '/' ∉ kind.toList) (n : Node) :
    textOf (splitTopic (Message.nodeTopic kind n))[2]? = kind ∧
      nodeLocator (splitTopic (Message.nodeTopic kind n)) = nodePath n ∧
      deviceLocator (splitTopic (Message.nodeTopic kind n)) = nodePath n := by
  rw [split_nodeTopic hk]
  exact ⟨rfl, locators_nodeTopic n kind⟩

theorem read_deviceTopic (kind : String) (hk : '/' ∉ kind.toList) (n : Node) (d : Name) :
    textOf (splitTopic (Message.deviceTopic kind n d))[2]? = kind ∧
      nodeLocator (splitTopic (Message.deviceTopic kind n d)) = nodePath n ∧
      deviceLocator (splitTopic (Message.deviceTopic kind n d)) = devicePath n d := by
  rw [split_deviceTopic hk]
  exact ⟨rfl, locators_deviceTopic n d kind⟩

theorem slash_mem_nodePath (n : Node) : '/' ∈ (nodePath n).toList := by
  simp [nodePath, joined]

theorem births_nbirth {a : Arrival} {n : Node} (ha : a.message = .nbirth n) (s : Client) :
    OnlyBirth s (handled host a s) (nodePath n) (some (true, none)) ∧
      (handled host a s).rebirths = s.rebirths := by
  obtain ⟨hkind, hnode, -⟩ := read_nodeTopic "NBIRTH" (by decide) n
  have htopic : a.received.topic = Message.nodeTopic "NBIRTH" n := by
    simp [Arrival.received, ha, Message.topic]
  have hsame : SameBirths { s with DevicesList := s.DevicesList.set (nodePath n) birth }
      (handled host a s) := by
    simp only [handled, onMessage, htopic, hkind, hnode, ProcessNodeBirthOrData]
    split
    · exact sameBirths_birth host _ _ _ _ s
    · exact (sameBirths_birth host _ _ _ _ s).trans (sameBirths_invalidate _ _ _)
  exact ⟨onlyBirth_set hsame, hsame.rebirths⟩

theorem births_dbirth {a : Arrival} {n : Node} {d : Name} (ha : a.message = .dbirth n d)
    (s : Client) :
    OnlyBirth s (handled host a s) (devicePath n d) (some (true, none)) ∧
      (handled host a s).rebirths = s.rebirths := by
  obtain ⟨hkind, -, hdevice⟩ := read_deviceTopic "DBIRTH" (by decide) n d
  have htopic : a.received.topic = Message.deviceTopic "DBIRTH" n d := by
    simp [Arrival.received, ha, Message.topic]
  have hsame : SameBirths { s with DevicesList := s.DevicesList.set (devicePath n d) birth }
      (handled host a s) := by
    simp only [handled, onMessage, htopic, hkind, hdevice, ProcessDeviceBirthOrData]
    exact sameBirths_birth host _ _ _ _ s
  exact ⟨onlyBirth_set hsame, hsame.rebirths⟩

/-- The devices of the node are left as they are: `forEach` visits none of them. -/
theorem births_ndeath {a : Arrival} {n : Node} (ha : a.message = .ndeath n) (s : Client) :
    OnlyBirth s (handled host a s) (nodePath n)
        ((birthOf s (nodePath n)).map fun b => (false, b.2)) ∧
      (handled host a s).rebirths = s.rebirths := by
  obtain ⟨hkind, hnode, hdevice⟩ := read_nodeTopic "NDEATH" (by decide) n
  have htopic : a.received.topic = Message.nodeTopic "NDEATH" n := by
    simp [Arrival.received, ha, Message.topic]
  have hsame : SameBirths { s with DevicesList := die (nodePath n) s.DevicesList }
      (handled host a s) := by
    simp only [handled, onMessage, htopic, hkind, hnode, hdevice,
      killDevices_eq_self (slash_mem_nodePath n)]
    exact sameBirths_invalidate _ _ _
  have hdie := onlyBirth_die s (nodePath n)
  refine ⟨⟨(hsame.births _).trans hdie.self, fun j hj => ?_⟩, hsame.rebirths⟩
  exact (hsame.births j).trans (hdie.other j hj)

theorem births_ddeath {a : Arrival} {n : Node} {d : Name} (ha : a.message = .ddeath n d)
    (s : Client) :
    OnlyBirth s (handled host a s) (devicePath n d)
        ((birthOf s (devicePath n d)).map fun b => (false, b.2)) ∧
      (handled host a s).rebirths = s.rebirths := by
  obtain ⟨hkind, -, hdevice⟩ := read_deviceTopic "DDEATH" (by decide) n d
  have htopic : a.received.topic = Message.deviceTopic "DDEATH" n d := by
    simp [Arrival.received, ha, Message.topic]
  have hsame : SameBirths { s with DevicesList := die (devicePath n d) s.DevicesList }
      (handled host a s) := by
    simp only [handled, onMessage, htopic, hkind, hdevice]
    exact sameBirths_invalidate _ _ _
  have hdie := onlyBirth_die s (devicePath n d)
  refine ⟨⟨(hsame.births _).trans hdie.self, fun j hj => ?_⟩, hsame.rebirths⟩
  exact (hsame.births j).trans (hdie.other j hj)

/-- The path of the node or device a data message is about. -/
def dataPath : Message → Option String
  | .ndata n => some (nodePath n)
  | .ddata n d => some (devicePath n d)
  | _ => none

def rebirthOf (n : Node) (now : Date) : Rebirth where
  groupId := n.groupId.text
  edgeNodeId := n.edgeNodeId.text
  time := now

/-- What a data message does before a birth. -/
structure Unborn (n : Node) (a : Arrival) (s t : Client) : Prop where
  queue : t.ValuesQueue = s.ValuesQueue
  waiting : isWaiting a.now s (nodePath n) = true → t = s
  request : isWaiting a.now s (nodePath n) = false →
    OnlyBirth s t (nodePath n) (some (false, some a.now)) ∧
      t.rebirths = s.rebirths ++ if a.handle then [rebirthOf n a.now] else []

theorem unborn_requestBirth {a : Arrival} {n : Node} {splTopic : List String}
    (hgroup : splTopic[1]?.getD "" = n.groupId.text)
    (hedge : splTopic[3]?.getD "" = n.edgeNodeId.text)
    (hnode : nodeLocator splTopic = nodePath n) (s : Client) :
    Unborn n a s (requestBirth a.received splTopic s) := by
  have hnow : a.received.now = a.now := rfl
  have hhandle : a.received.handle = a.handle := rfl
  cases hwait : isWaiting a.now s (nodePath n) with
  | true =>
    have heq : requestBirth a.received splTopic s = s := by
      simp [requestBirth, hnode, hnow, hwait]
    refine ⟨by rw [heq], fun _ => heq, ?_⟩
    rw [hwait]
    rintro ⟨⟩
  | false =>
    have heq : requestBirth a.received splTopic s = { s with
        DevicesList := s.DevicesList.set (nodePath n)
          { birthed := false, lastReqDateTime := some a.now }
        rebirths := s.rebirths ++ if a.handle then [rebirthOf n a.now] else [] } := by
      cases hh : a.handle <;>
        simp [requestBirth, hnode, hnow, hwait, hgroup, hedge, hhandle, hh,
          n.groupId.nonempty, n.edgeNodeId.nonempty, rebirthOf]
    refine ⟨by rw [heq], ?_, fun _ => ?_⟩
    · rw [hwait]
      rintro ⟨⟩
    · rw [heq]
      refine ⟨⟨by simp [birthOf], fun j hj => ?_⟩, rfl⟩
      simp [birthOf, Members.get_set_of_ne hj]

/-- Data of a birthed path are queued and change no births. -/
theorem births_data {a : Arrival} {p : String} (ha : dataPath a.message = some p) (s : Client) :
    (isBirthed s p = true → SameBirths s (handled host a s)) ∧
      (isBirthed s p = false → Unborn a.message.node a s (handled host a s)) := by
  cases hm : a.message with
  | ndata n =>
    obtain ⟨hkind, hnode, -⟩ := read_nodeTopic "NDATA" (by decide) n
    have htopic : a.received.topic = Message.nodeTopic "NDATA" n := by
      simp [Arrival.received, hm, Message.topic]
    obtain rfl : nodePath n = p := by simpa [dataPath, hm] using ha
    constructor
    · intro hbirth
      simp only [handled, onMessage, htopic, hkind, hnode, hbirth, ProcessNodeBirthOrData,
        if_true]
      exact sameBirths_data host _ _ _ _ s
    · intro hbirth
      simp only [handled, onMessage, htopic, hkind, hnode, hbirth, Bool.false_eq_true, if_false]
      refine unborn_requestBirth ?_ ?_ hnode s <;> rw [split_nodeTopic (by decide)] <;> rfl
  | ddata n d =>
    obtain ⟨hkind, hnode, hdevice⟩ := read_deviceTopic "DDATA" (by decide) n d
    have htopic : a.received.topic = Message.deviceTopic "DDATA" n d := by
      simp [Arrival.received, hm, Message.topic]
    obtain rfl : devicePath n d = p := by simpa [dataPath, hm] using ha
    constructor
    · intro hbirth
      simp only [handled, onMessage, htopic, hkind, hdevice, hbirth, ProcessDeviceBirthOrData,
        if_true]
      exact sameBirths_data host _ _ _ _ s
    · intro hbirth
      simp only [handled, onMessage, htopic, hkind, hdevice, hbirth, Bool.false_eq_true,
        if_false]
      refine unborn_requestBirth ?_ ?_ hnode s <;> rw [split_deviceTopic (by decide)] <;> rfl
  | nbirth n => simp [dataPath, hm] at ha
  | ndeath n => simp [dataPath, hm] at ha
  | dbirth n d => simp [dataPath, hm] at ha
  | ddeath n d => simp [dataPath, hm] at ha

/-- No device of a node that dies is birthed, and a birth is requested only while there
is a client to publish the request. -/
structure Orderly (s : Client) (a : Arrival) : Prop where
  death : ∀ n, a.message = .ndeath n → ∀ d, isBirthed s (devicePath n d) = false
  request : ∀ p, dataPath a.message = some p → isBirthed s p = false →
    isWaiting a.now s (nodePath a.message.node) = false → a.handle = true

/-- A path that is birthed has had a birth since its last death. -/
structure Kept (h : List Arrival) (s : Client) : Prop where
  device : ∀ n d, isBirthed s (devicePath n d) = true → deviceAlive n d h = true
  node : ∀ n, isBirthed s (nodePath n) = true → nodeAlive n h = true

/-- The node is asked for a birth now, or was asked within the waiting time. -/
def Asked (n : Node) (now : Date) (s t : Client) : Prop :=
  t.rebirths = s.rebirths ++ [rebirthOf n now] ∨
    ∃ time, rebirthOf n time ∈ s.rebirths ∧ now < time + waitingTime

/-- What one message may do: data of what is not alive are not queued, and nodes other
than the one of the message keep their births. -/
structure StepKept (h : List Arrival) (s : Client) (a : Arrival) (t : Client) : Prop where
  device : ∀ n d, a.message = .ddata n d → deviceAlive n d h = false →
    t.ValuesQueue = s.ValuesQueue ∧ Asked n a.now s t
  node : ∀ n, a.message = .ndata n → nodeAlive n h = false →
    t.ValuesQueue = s.ValuesQueue ∧ Asked n a.now s t
  other_node : ∀ n, n ≠ a.message.node → isBirthed t (nodePath n) = isBirthed s (nodePath n)
  other_device : ∀ n d, n ≠ a.message.node →
    isBirthed t (devicePath n d) = isBirthed s (devicePath n d)

/-- A request that is on record was published. -/
def Logged (s : Client) : Prop :=
  ∀ n b time, birthOf s (nodePath n) = some (b, some time) → rebirthOf n time ∈ s.rebirths

theorem OnlyBirth.isBirthed_eq {s t : Client} {k j : String} {b : Option (Bool × Option Date)}
    (h : OnlyBirth s t k b) (hj : j ≠ k) : isBirthed t j = isBirthed s j := by
  rw [isBirthed_eq_birthOf, isBirthed_eq_birthOf, h.other j hj]

/-- A message can change the births of one path, which is one of its node. -/
theorem births_handled (s : Client) (a : Arrival) :
    SameBirths s (handled host a s) ∨ ∃ k b, OnlyBirth s (handled host a s) k b ∧
      (k = nodePath a.message.node ∨ ∃ d, k = devicePath a.message.node d) := by
  have hdata : ∀ p, dataPath a.message = some p →
      SameBirths s (handled host a s) ∨ ∃ k b, OnlyBirth s (handled host a s) k b ∧
        (k = nodePath a.message.node ∨ ∃ d, k = devicePath a.message.node d) := by
    intro p hp
    obtain ⟨hsame, hunborn⟩ := births_data host hp s
    cases hb : isBirthed s p with
    | true => exact .inl (hsame hb)
    | false =>
      have h := hunborn hb
      cases hw : isWaiting a.now s (nodePath a.message.node) with
      | true =>
        rw [h.waiting hw]
        exact .inl (.refl s)
      | false => exact .inr ⟨_, _, (h.request hw).1, .inl rfl⟩
  cases hm : a.message with
  | nbirth n => exact .inr ⟨_, _, (births_nbirth host hm s).1, .inl rfl⟩
  | ndeath n => exact .inr ⟨_, _, (births_ndeath host hm s).1, .inl rfl⟩
  | dbirth n d => exact .inr ⟨_, _, (births_dbirth host hm s).1, .inr ⟨d, rfl⟩⟩
  | ddeath n d => exact .inr ⟨_, _, (births_ddeath host hm s).1, .inr ⟨d, rfl⟩⟩
  | ndata n =>
    rw [← hm]
    exact hdata (nodePath n) (by simp [dataPath, hm])
  | ddata n d =>
    rw [← hm]
    exact hdata (devicePath n d) (by simp [dataPath, hm])

theorem other_births {n : Node} {a : Arrival} (hn : n ≠ a.message.node) (s : Client) :
    isBirthed (handled host a s) (nodePath n) = isBirthed s (nodePath n) ∧
      ∀ d, isBirthed (handled host a s) (devicePath n d) = isBirthed s (devicePath n d) := by
  rcases births_handled host s a with h | ⟨k, b, h, hk⟩
  · exact ⟨h.isBirthed_eq _, fun d => h.isBirthed_eq _⟩
  · have hnode : nodePath n ≠ k := by
      rcases hk with rfl | ⟨d, rfl⟩
      · exact fun he => hn (nodePath_inj he)
      · exact nodePath_ne_devicePath _ _ _
    have hdevice : ∀ d, devicePath n d ≠ k := by
      intro d
      rcases hk with rfl | ⟨d', rfl⟩
      · exact (nodePath_ne_devicePath _ _ _).symm
      · exact fun he => hn (devicePath_inj he).1
    exact ⟨h.isBirthed_eq hnode, fun d => h.isBirthed_eq (hdevice d)⟩

/-- Data make no births. -/
theorem isBirthed_of_data {a : Arrival} {p : String} (ha : dataPath a.message = some p)
    {s : Client} {k : String} (hk : isBirthed (handled host a s) k = true) :
    isBirthed s k = true := by
  obtain ⟨hsame, hunborn⟩ := births_data host ha s
  cases hb : isBirthed s p with
  | true => rwa [(hsame hb).isBirthed_eq] at hk
  | false =>
    have h := hunborn hb
    cases hw : isWaiting a.now s (nodePath a.message.node) with
    | true => rwa [h.waiting hw] at hk
    | false =>
      have honly := (h.request hw).1
      by_cases hkn : k = nodePath a.message.node
      · rw [isBirthed_eq_birthOf, hkn, honly.self] at hk
        cases hk
      · rwa [honly.isBirthed_eq hkn] at hk

theorem isBirthed_of_death {s t : Client} {k : String}
    (h : OnlyBirth s t k ((birthOf s k).map fun b => (false, b.2))) :
    isBirthed t k = false := by
  rw [isBirthed_eq_birthOf, h.self, Option.any_map]
  cases birthOf s k <;> rfl

theorem kept_device {h : List Arrival} {s : Client} {a : Arrival} (hk : Kept h s)
    (ho : Orderly s a) {n : Node} {d : Name}
    (hb : isBirthed (handled host a s) (devicePath n d) = true) :
    aliveAfter n d (deviceAlive n d h) a.message = true := by
  cases hm : a.message with
  | nbirth n' =>
    rw [(births_nbirth host hm s).1.isBirthed_eq (nodePath_ne_devicePath _ _ _).symm] at hb
    exact hk.device n d hb
  | ndata n' =>
    exact hk.device n d (isBirthed_of_data host (p := nodePath n') (by simp [dataPath, hm]) hb)
  | ddata n' d' =>
    exact hk.device n d
      (isBirthed_of_data host (p := devicePath n' d') (by simp [dataPath, hm]) hb)
  | ndeath n' =>
    rw [(births_ndeath host hm s).1.isBirthed_eq (nodePath_ne_devicePath _ _ _).symm] at hb
    have hne : n' ≠ n := by
      rintro rfl
      rw [ho.death _ hm d] at hb
      cases hb
    simpa [aliveAfter, hne] using hk.device n d hb
  | dbirth n' d' =>
    by_cases he : n' = n ∧ d' = d
    · simp [aliveAfter, he]
    · have hpath : devicePath n d ≠ devicePath n' d' := by
        intro heq
        obtain ⟨rfl, rfl⟩ := devicePath_inj heq
        exact he ⟨rfl, rfl⟩
      rw [(births_dbirth host hm s).1.isBirthed_eq hpath] at hb
      simpa [aliveAfter, he] using hk.device n d hb
  | ddeath n' d' =>
    by_cases he : n' = n ∧ d' = d
    · obtain ⟨rfl, rfl⟩ := he
      rw [isBirthed_of_death (births_ddeath host hm s).1] at hb
      cases hb
    · have hpath : devicePath n d ≠ devicePath n' d' := by
        intro heq
        obtain ⟨rfl, rfl⟩ := devicePath_inj heq
        exact he ⟨rfl, rfl⟩
      rw [(births_ddeath host hm s).1.isBirthed_eq hpath] at hb
      simpa [aliveAfter, he] using hk.device n d hb

theorem kept_node {h : List Arrival} {s : Client} {a : Arrival} (hk : Kept h s) {n : Node}
    (hb : isBirthed (handled host a s) (nodePath n) = true) :
    nodeAliveAfter n (nodeAlive n h) a.message = true := by
  cases hm : a.message with
  | nbirth n' =>
    by_cases he : n' = n
    · simp [nodeAliveAfter, he]
    · have hpath : nodePath n ≠ nodePath n' := fun heq => he (nodePath_inj heq).symm
      rw [(births_nbirth host hm s).1.isBirthed_eq hpath] at hb
      simpa [nodeAliveAfter, he] using hk.node n hb
  | ndata n' =>
    exact hk.node n (isBirthed_of_data host (p := nodePath n') (by simp [dataPath, hm]) hb)
  | ddata n' d' =>
    exact hk.node n (isBirthed_of_data host (p := devicePath n' d') (by simp [dataPath, hm]) hb)
  | ndeath n' =>
    by_cases he : n' = n
    · subst he
      rw [isBirthed_of_death (births_ndeath host hm s).1] at hb
      cases hb
    · have hpath : nodePath n ≠ nodePath n' := fun heq => he (nodePath_inj heq).symm
      rw [(births_ndeath host hm s).1.isBirthed_eq hpath] at hb
      simpa [nodeAliveAfter, he] using hk.node n hb
  | dbirth n' d' =>
    rw [(births_dbirth host hm s).1.isBirthed_eq (nodePath_ne_devicePath _ _ _)] at hb
    exact hk.node n hb
  | ddeath n' d' =>
    rw [(births_ddeath host hm s).1.isBirthed_eq (nodePath_ne_devicePath _ _ _)] at hb
    exact hk.node n hb

theorem kept_step {h : List Arrival} {s : Client} {a : Arrival} (hk : Kept h s)
    (ho : Orderly s a) : Kept (h ++ [a]) (handled host a s) := by
  refine ⟨fun n d hb => ?_, fun n hb => ?_⟩
  · rw [deviceAlive_append]
    exact kept_device host hk ho hb
  · rw [nodeAlive_append]
    exact kept_node host hk hb

/-- Where the births of one node path change, the record is right if the new one is. -/
theorem Logged.onlyBirth {s t : Client} {k : String} {b : Option (Bool × Option Date)}
    (hl : Logged s) (h : OnlyBirth s t k b) (hr : ∀ r ∈ s.rebirths, r ∈ t.rebirths)
    (hb : ∀ n c time, k = nodePath n → b = some (c, some time) →
      rebirthOf n time ∈ t.rebirths) : Logged t := by
  intro n c time hbirth
  by_cases hk : nodePath n = k
  · rw [hk, h.self] at hbirth
    exact hb n c time hk.symm hbirth
  · rw [h.other _ hk] at hbirth
    exact hr _ (hl n c time hbirth)

theorem logged_step {s : Client} {a : Arrival} (hl : Logged s) (ho : Orderly s a) :
    Logged (handled host a s) := by
  have hdata : ∀ p, dataPath a.message = some p → Logged (handled host a s) := by
    intro p hp
    obtain ⟨hsame, hunborn⟩ := births_data host hp s
    cases hb : isBirthed s p with
    | true =>
      have h := hsame hb
      intro n c time hbirth
      rw [h.births] at hbirth
      rw [h.rebirths]
      exact hl n c time hbirth
    | false =>
      have h := hunborn hb
      cases hw : isWaiting a.now s (nodePath a.message.node) with
      | true =>
        rw [h.waiting hw]
        exact hl
      | false =>
        obtain ⟨honly, hreq⟩ := h.request hw
        rw [ho.request p hp hb hw, if_pos rfl] at hreq
        refine hl.onlyBirth honly (fun r hr => ?_) fun n c time hk hbirth => ?_
        · rw [hreq]
          exact List.mem_append_left _ hr
        · obtain rfl := nodePath_inj hk
          obtain ⟨-, rfl⟩ : false = c ∧ a.now = time := by simpa using hbirth
          rw [hreq]
          exact List.mem_append_right _ (List.mem_singleton_self _)
  have hdeath : ∀ {k : String} {n : Node} {c : Bool} {time : Date}, k = nodePath n →
      (birthOf s k).map (fun b => (false, b.2)) = some (c, some time) →
      rebirthOf n time ∈ s.rebirths := by
    intro k n c time hk hbirth
    obtain ⟨⟨b, t⟩, hold, heq⟩ := Option.map_eq_some_iff.mp hbirth
    obtain ⟨-, rfl⟩ := Prod.mk.inj heq
    rw [hk] at hold
    exact hl n b time hold
  cases hm : a.message with
  | ndata n => exact hdata (nodePath n) (by simp [dataPath, hm])
  | ddata n d => exact hdata (devicePath n d) (by simp [dataPath, hm])
  | nbirth n =>
    obtain ⟨honly, hr⟩ := births_nbirth host hm s
    refine hl.onlyBirth honly (fun r h => hr ▸ h) fun n' c time _ hbirth => ?_
    simp at hbirth
  | dbirth n d =>
    obtain ⟨honly, hr⟩ := births_dbirth host hm s
    refine hl.onlyBirth honly (fun r h => hr ▸ h) fun n' c time _ hbirth => ?_
    simp at hbirth
  | ndeath n =>
    obtain ⟨honly, hr⟩ := births_ndeath host hm s
    refine hl.onlyBirth honly (fun r h => hr ▸ h) fun n' c time hk hbirth => ?_
    exact hr ▸ hdeath hk hbirth
  | ddeath n d =>
    obtain ⟨honly, hr⟩ := births_ddeath host hm s
    refine hl.onlyBirth honly (fun r h => hr ▸ h) fun n' c time hk hbirth => ?_
    exact hr ▸ hdeath hk hbirth

/-- Data of a path that is not birthed are not queued, and the node is asked for a birth. -/
theorem asked_of_data {s : Client} {a : Arrival} {p : String} (hl : Logged s)
    (ho : Orderly s a) (hp : dataPath a.message = some p) (hb : isBirthed s p = false) :
    (handled host a s).ValuesQueue = s.ValuesQueue ∧
      Asked a.message.node a.now s (handled host a s) := by
  have h := (births_data host hp s).2 hb
  refine ⟨h.queue, ?_⟩
  cases hw : isWaiting a.now s (nodePath a.message.node) with
  | true =>
    rw [isWaiting, Option.any_eq_true] at hw
    obtain ⟨time, htime, hlt⟩ := hw
    obtain ⟨v, hv, hlast⟩ := Option.bind_eq_some_iff.mp htime
    refine .inr ⟨time, hl _ v.birthed time ?_, of_decide_eq_true hlt⟩
    simp [birthOf, hv, hlast]
  | false =>
    have hreq := (h.request hw).2
    rw [ho.request p hp hb hw, if_pos rfl] at hreq
    exact .inl hreq

theorem stepKept {h : List Arrival} {s : Client} {a : Arrival} (hk : Kept h s) (hl : Logged s)
    (ho : Orderly s a) : StepKept h s a (handled host a s) := by
  refine ⟨fun n d hm ha => ?_, fun n hm ha => ?_, fun n hn => (other_births host hn s).1,
    fun n d hn => (other_births host hn s).2 d⟩
  · have hb : isBirthed s (devicePath n d) = false := by
      rw [Bool.eq_false_iff]
      intro hb
      rw [hk.device n d hb] at ha
      cases ha
    have hasked := asked_of_data host hl ho (p := devicePath n d) (by simp [dataPath, hm]) hb
    rwa [hm] at hasked
  · have hb : isBirthed s (nodePath n) = false := by
      rw [Bool.eq_false_iff]
      intro hb
      rw [hk.node n hb] at ha
      cases ha
    have hasked := asked_of_data host hl ho (p := nodePath n) (by simp [dataPath, hm]) hb
    rwa [hm] at hasked

/-- The condition on deaths cannot be spared: a device that is birthed when its node dies
stays so. -/
theorem not_kept_of_ndeath {h : List Arrival} {s : Client} {a : Arrival} {n : Node} {d : Name}
    (hm : a.message = .ndeath n) (hb : isBirthed s (devicePath n d) = true) :
    ¬ Kept (h ++ [a]) (handled host a s) := by
  intro hk
  have hbirth : isBirthed (handled host a s) (devicePath n d) = true := by
    rw [(births_ndeath host hm s).1.isBirthed_eq (nodePath_ne_devicePath _ _ _).symm, hb]
  have halive := hk.device n d hbirth
  rw [deviceAlive_append, hm] at halive
  simp [aliveAfter] at halive

/-- In every run in which no node dies while one of its devices is birthed, what is birthed
has had a birth since its last death and since that of its node, and every message does
what it may. -/
theorem session_kept {as : List Arrival} {s : Client} (hrun : run (step host) {} as = some s)
    (hok : Every (step host) Orderly {} as) :
    Kept as s ∧ ∀ a, Orderly s a → StepKept as s a (handled host a s) := by
  have hinv : Kept as s ∧ Logged s := by
    refine run_trace_invariant (P := Orderly) (I := fun h s => Kept h s ∧ Logged s) ?_ hok ?_ hrun
    · rintro h s a t ho ⟨hk, hl⟩ hstep
      obtain rfl : handled host a s = t := Option.some.inj hstep
      exact ⟨kept_step host hk ho, logged_step host hl ho⟩
    · refine ⟨⟨fun n d hb => ?_, fun n hb => ?_⟩, fun n b time hb => ?_⟩
      · cases hb
      · cases hb
      · cases hb
  exact ⟨hinv.1, fun a ho => stepKept host hinv.1 hinv.2 ho⟩

end Session

section Plant

def pump : Node where
  groupId := ⟨"Plant", by decide, forall_mem_of_all (by decide)⟩
  edgeNodeId := ⟨"Pump", by decide, forall_mem_of_all (by decide)⟩

def tank : Name := ⟨"Tank", by decide, forall_mem_of_all (by decide)⟩

def level : Metric :=
  .scalar { name := some "Level", type := some "Boolean" } (some (.bool true))

/-- The node and its device are born, and the node dies. -/
def pumpDeath : List Arrival := [
  { message := .nbirth pump, metrics := some [], now := 1000 },
  { message := .dbirth pump tank, metrics := some [level], now := 2000 },
  { message := .ndeath pump, now := 3000 }]

def tankData : Arrival where
  message := .ddata pump tank
  metrics := some [level]
  now := 4000

/-- The device of a dead node is still birthed, and its data are queued. -/
theorem dead_node_data :
    ∃ s, run (step plainHost) {} pumpDeath = some s ∧ ¬ Kept pumpDeath s ∧
      ¬ StepKept pumpDeath s tankData (handled plainHost tankData s) := by
  refine ⟨_, rfl, fun hk => ?_, fun hs => ?_⟩
  · have halive := hk.device pump tank (by decide +kernel)
    exact absurd halive (by decide +kernel)
  · have hqueue := (hs.device pump tank rfl (by decide +kernel)).1
    exact absurd hqueue (by decide +kernel)

/-- The device dies before its node. -/
def orderlyDeath : List Arrival := [
  { message := .nbirth pump, metrics := some [], now := 1000 },
  { message := .dbirth pump tank, metrics := some [level], now := 2000 },
  { message := .ddeath pump tank, now := 3000 },
  { message := .ndeath pump, now := 3500 }]

theorem orderlyDeath_orderly : Every (step plainHost) Orderly {} orderlyDeath := by
  have hfree : ∀ (s : Client) (a : Arrival), a.handle = true →
      (∀ n, a.message ≠ .ndeath n) → Orderly s a :=
    fun s a hh hm => ⟨fun n hn => absurd hn (hm n), fun _ _ _ _ => hh⟩
  refine ⟨hfree _ _ rfl (by simp), fun s₁ h₁ => ⟨hfree _ _ rfl (by simp), fun s₂ h₂ =>
    ⟨hfree _ _ rfl (by simp), fun s₃ h₃ => ⟨⟨fun n hn d => ?_, fun _ _ _ _ => rfl⟩,
      fun _ _ => trivial⟩⟩⟩⟩
  obtain rfl : pump = n := by simpa using hn
  obtain rfl := Option.some.inj h₁
  obtain rfl := Option.some.inj h₂
  obtain rfl := Option.some.inj h₃
  by_cases hd : d = tank
  · subst hd
    exact isBirthed_of_death (births_ddeath plainHost rfl _).1
  · have hpath : devicePath pump d ≠ devicePath pump tank := fun h => hd (devicePath_inj h).2
    rw [(births_ddeath plainHost rfl _).1.isBirthed_eq hpath,
      (births_dbirth plainHost rfl _).1.isBirthed_eq hpath,
      (births_nbirth plainHost rfl _).1.isBirthed_eq (nodePath_ne_devicePath _ _ _).symm]
    rfl

theorem orderlyDeath_kept :
    ∃ s, run (step plainHost) {} orderlyDeath = some s ∧ Kept orderlyDeath s ∧
      StepKept orderlyDeath s tankData (handled plainHost tankData s) := by
  obtain ⟨s, hrun⟩ : ∃ s, run (step plainHost) {} orderlyDeath = some s := ⟨_, rfl⟩
  obtain ⟨hk, hs⟩ := session_kept plainHost hrun orderlyDeath_orderly
  have hdata : Orderly s tankData :=
    ⟨fun n hn => absurd hn (by simp [tankData]), fun _ _ _ _ => rfl⟩
  exact ⟨s, hrun, hk, hs tankData hdata⟩

end Plant

end JsonScada.System.SparkplugSession
