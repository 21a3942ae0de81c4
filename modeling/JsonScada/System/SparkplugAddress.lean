/- path: JsonScada/System/SparkplugAddress
   layer: system
   digest: Which metrics of a birth message a command to their stored address reaches. -/

import Mathlib.Data.List.TakeWhile
import JsonScada.MqttSparkplug.Command
import JsonScada.System.SparkplugSession

set_option autoImplicit false
set_option relaxedAutoImplicit false

namespace JsonScada.System.SparkplugAddress

open JsonScada.Lib.Binary64 JsonScada.Lib.EcmaScript
open JsonScada.Model.Documents (Date)
open JsonScada.MqttSparkplug.AutoTag (SparkplugNS splitTopic textOf)
open JsonScada.MqttSparkplug.Topic JsonScada.MqttSparkplug.Payload
open JsonScada.MqttSparkplug.Receive JsonScada.MqttSparkplug.Command
open JsonScada.System.SparkplugSession

/-- The path of a node, or of a device of it. -/
def pathOf (n : Node) : Option Name → String
  | none => nodePath n
  | some d => devicePath n d

/-- The levels of that path. -/
def levelsOf (n : Node) (d : Option Name) : List String :=
  SparkplugNS :: n.groupId.text :: n.edgeNodeId.text :: (d.map Name.text).toList

/-- The payload is a command to a metric of the node, or of the device when there is one. -/
def Addresses (n : Node) (d : Option Name) (name : String) (payload : CommandPayload) : Prop :=
  ∃ metric : CommandMetric, metric.name = name ∧
    payload = d.elim (.ncmd n.groupId.text n.edgeNodeId.text metric)
      fun device => .dcmd n.groupId.text n.edgeNodeId.text device.text metric

/-- The characters `topicStr` replaces. -/
def reserved : List Char := ['/', '+', '#']

theorem splitTopic_pathOf (n : Node) (d : Option Name) (b : String) :
    splitTopic (pathOf n d ++ "/" ++ b) = levelsOf n d ++ splitTopic b := by
  cases d with
  | none =>
    have hpath : pathOf n none ++ "/" ++ b =
        SparkplugNS ++ "/" ++ (n.groupId.text ++ "/" ++ (n.edgeNodeId.text ++ "/" ++ b)) := by
      simp [pathOf, nodePath, joined, String.append_assoc]
    rw [hpath, splitTopic_append no_slash_NS, splitTopic_append (Name.no_slash n.groupId),
      splitTopic_append (Name.no_slash n.edgeNodeId)]
    rfl
  | some device =>
    have hpath : pathOf n (some device) ++ "/" ++ b =
        SparkplugNS ++ "/" ++ (n.groupId.text ++ "/" ++
          (n.edgeNodeId.text ++ "/" ++ (device.text ++ "/" ++ b))) := by
      simp [pathOf, devicePath, joined, String.append_assoc]
    rw [hpath, splitTopic_append no_slash_NS, splitTopic_append (Name.no_slash n.groupId),
      splitTopic_append (Name.no_slash n.edgeNodeId), splitTopic_append (Name.no_slash device)]
    rfl

section Escaping

theorem slash_not_mem_topicStr (s : String) : '/' ∉ (topicStr s).toList := by
  intro hmem
  rw [topicStr, String.toList_ofList, List.mem_map] at hmem
  obtain ⟨c, -, hc⟩ := hmem
  split_ifs at hc with hslash
  · exact absurd hc (by decide)
  · exact absurd hc (by decide)
  · exact absurd hc (by decide)
  · exact hslash hc

/-- Trimming that keeps every character keeps the text. -/
theorem trim_eq_self_of_length {s : List Char} (h : (trim s).length = s.length) : trim s = s := by
  have hstart : trimStart s <:+ s := List.dropWhile_suffix _
  have hend : (trimEnd (trimStart s)).reverse <:+ (trimStart s).reverse := by
    rw [trimEnd, List.reverse_reverse]
    exact List.dropWhile_suffix _
  have hle : (trimStart s).length ≤ s.length := hstart.length_le
  have hle' : (trim s).length ≤ (trimStart s).length := by
    have hlen := hend.length_le
    rwa [List.length_reverse, List.length_reverse] at hlen
  have hs : trimStart s = s := hstart.eq_of_length (by omega)
  have ht : (trim s).reverse = (trimStart s).reverse :=
    hend.eq_of_length (by rw [List.length_reverse, List.length_reverse]; exact h.trans (by rw [hs]))
  rw [List.reverse_inj.mp ht, hs]

theorem map_eq_self_iff {f : Char → Char} {l : List Char} :
    l.map f = l ↔ ∀ c ∈ l, f c = c := by
  have h := List.map_inj_left (l := l) (f := f) (g := id)
  rwa [List.map_id] at h

/-- The escaping leaves a text alone when there is nothing to trim and nothing to replace. -/
theorem topicStr_eq_self_iff (s : String) :
    topicStr s = s ↔ trim s.toList = s.toList ∧ ∀ c ∈ reserved, c ∉ s.toList := by
  constructor
  · intro h
    have hlist := congrArg String.toList h
    rw [topicStr, String.toList_ofList] at hlist
    have hlength := congrArg List.length hlist
    rw [List.length_map] at hlength
    have htrim := trim_eq_self_of_length hlength
    rw [htrim] at hlist
    refine ⟨htrim, fun c hc hmem => ?_⟩
    have hfix := map_eq_self_iff.mp hlist c hmem
    simp only [reserved, List.mem_cons, List.not_mem_nil, or_false] at hc
    rcases hc with rfl | rfl | rfl <;> exact absurd hfix (by decide)
  · rintro ⟨htrim, hchars⟩
    have hmap : (trim s.toList).map (fun c =>
        if c = '/' then '|' else if c = '+' then '^' else if c = '#' then '@' else c) = s.toList := by
      rw [htrim, map_eq_self_iff]
      intro c hc
      have hno : ∀ r ∈ reserved, c ≠ r := fun r hr hcr => hchars r hr (hcr ▸ hc)
      rw [if_neg (hno '/' (by decide)), if_neg (hno '+' (by decide)), if_neg (hno '#' (by decide))]
    rw [topicStr, hmap, String.ofList_toList]

theorem trim_eq_nil {s : List Char} (h : trim s = []) : ∀ c ∈ s, isWhite c = true := by
  have hstart : trimStart s = [] := by
    by_contra hne
    have hend : ((trimStart s).reverse.dropWhile isWhite) = [] := by
      simpa [trim, trimEnd] using h
    rw [List.dropWhile_eq_nil_iff] at hend
    cases hs : trimStart s with
    | nil => exact hne hs
    | cons c cs =>
      have hwhite := hend c (by simp [hs])
      have hhead : isWhite c = false := by
        rw [trimStart] at hs
        have hdrop := List.head_dropWhile_not (l := s) isWhite (by rw [hs]; exact List.cons_ne_nil c cs)
        simpa only [hs, List.head_cons] using hdrop
      rw [hwhite] at hhead
      cases hhead
  rwa [trimStart, List.dropWhile_eq_nil_iff] at hstart

end Escaping

/-- A type the commands have is not blank. -/
theorem trim_ne_nil_of_type {asdu : String} (h : toLowerCase asdu ∈ commandTypes) :
    trim asdu.toList ≠ [] := by
  intro hblank
  have hwhite := trim_eq_nil hblank
  cases hs : asdu.toList with
  | nil =>
    have hempty : toLowerCase asdu = "" := by rw [toLowerCase, hs]; rfl
    rw [hempty] at h
    exact absurd h (by decide)
  | cons c cs =>
    have hc : isWhite c = true := hwhite c (by simp [hs])
    have hlower : c.toLower = c := by
      refine dif_neg ?_
      rintro ⟨hA, hZ⟩
      have hA' : 65 ≤ c.toNat := hA
      have hZ' : c.toNat ≤ 90 := hZ
      simp only [isWhite, List.contains_eq_mem, List.mem_cons, List.not_mem_nil, or_false,
        Bool.or_eq_true, decide_eq_true_eq, Bool.and_eq_true] at hc
      omega
    have hmem : c ∈ (toLowerCase asdu).toList := by
      rw [toLowerCase, hs, String.toList_ofList, List.map_cons, hlower]
      exact List.mem_cons_self
    have hnone : (commandTypes.all fun type => type.toList.all fun x => !isWhite x) = true := by
      decide
    have hblack := List.all_eq_true.mp (List.all_eq_true.mp hnone _ h) c hmem
    rw [hc] at hblack
    cases hblack

section RoundTrip

variable (host : Host) (now : Date)

theorem address_objectAddressOf {head : Head} {locator templateName address : String} {s : Client}
    (hname : trim (head.name.getD "").toList ≠ [])
    (h : (objectAddressOf host head locator templateName s).2 = .next address) :
    address =
      if trim templateName.toList ≠ [] then
        locator ++ "/" ++ topicStr templateName ++ "/" ++ head.name.getD ""
      else locator ++ "/" ++ topicStr (head.name.getD "") := by
  simp only [objectAddressOf, if_pos hname] at h
  split at h
  · exact (Flow.next.inj h).symm
  · split at h
    · cases h
    · split at h
      · cases h
      · exact (Flow.next.inj h).symm

theorem address_enqueueMetric {head : Head} {value : Option Scalar} {isBirth : Bool}
    {msgType address : String} {s : Client} {e : QueuedValue}
    (h : (enqueueMetric host now head value isBirth msgType address s).1.ValuesQueue =
      s.ValuesQueue ++ [e]) : e.protocolSourceObjectAddress = address := by
  have hnone : s.ValuesQueue ≠ s.ValuesQueue ++ [e] := by simp
  rw [enqueueMetric] at h
  split at h
  · exact absurd h hnone
  · split at h
    · have he := List.append_cancel_left h
      rw [← List.singleton_inj.mp he, entryOf]
    · exact absurd h hnone

/-- The address under which a metric with a name is queued. -/
theorem address_of_queued {locator : String} {head : Head} {value : Option Scalar}
    {templateName msgType : String} {s t : Client} {b : Bool} {e : QueuedValue}
    (hqueue : queueMetric host now locator true templateName msgType (.scalar head value) s = (t, b))
    (hentry : t.ValuesQueue = s.ValuesQueue ++ [e]) (hname : trim (head.name.getD "").toList ≠ []) :
    e.protocolSourceObjectAddress =
      if trim templateName.toList ≠ [] then
        locator ++ "/" ++ topicStr templateName ++ "/" ++ head.name.getD ""
      else locator ++ "/" ++ topicStr (head.name.getD "") := by
  have hkept := queue_objectAddressOf host head locator templateName s
  rw [queueMetric] at hqueue
  cases hfound : objectAddressOf host head locator templateName s with
  | mk s' flow =>
    rw [hfound] at hkept hqueue
    have hstay : ∀ f : Bool, (s', f) ≠ (t, b) := by
      intro f heq
      have hs : s' = t := congrArg Prod.fst heq
      rw [← hs, hkept] at hentry
      simp at hentry
    cases flow with
    | passed => exact absurd hqueue (hstay false)
    | thrown => exact absurd hqueue (hstay true)
    | next address =>
      have hqueued : e.protocolSourceObjectAddress = address := by
        have hsent : enqueueMetric host now head value true msgType address s' = (t, b) := hqueue
        have hqueue' : s'.ValuesQueue = s.ValuesQueue := hkept
        refine @address_enqueueMetric host now head value true msgType address s' e ?_
        rw [hsent, hqueue']
        exact hentry
      rw [hqueued]
      exact address_objectAddressOf host hname (by rw [hfound])

end RoundTrip

section Sending

variable (n : Node) (d : Option Name)

/-- The levels of a path and some more levels make a command to a metric of that path exactly
when there is one more level, its name. -/
theorem addresses_payloadAt_iff (address name : String) {metric : String → CommandMetric}
    (hmetric : ∀ x, (metric x).name = x) (value : Scalar) {rest : List String} (hrest : rest ≠ []) :
    (∃ payload, payloadAt address metric value (levelsOf n d ++ rest) = some payload ∧
      Addresses n d name payload) ↔ rest = [name] := by
  cases rest with
  | nil => exact absurd rfl hrest
  | cons x rest =>
    have hfirst : (levelsOf n d ++ x :: rest)[0]? = some SparkplugNS := rfl
    rw [payloadAt, if_pos hfirst]
    cases d with
    | none =>
      cases rest with
      | nil => simp [levelsOf, Addresses, textOf, hmetric]
      | cons y rest => simp [levelsOf, Addresses, textOf]
    | some device =>
      cases rest with
      | nil => simp [levelsOf, Addresses, textOf, hmetric]
      | cons y rest => simp [levelsOf, Addresses]

/-- A command is addressed to a metric of a path when its type is known, and its address is the
path and the name. -/
theorem addresses_iff (sent : Date) {cmd : CommandDocument} {b name : String}
    (hcmd : cmd.protocolSourceObjectAddress = pathOf n d ++ "/" ++ b) :
    (∃ payload, getMetricCommandPayload sent cmd = some payload ∧ Addresses n d name payload) ↔
      splitTopic b = [name] ∧
        ∃ asdu, cmd.protocolSourceASDU = some asdu ∧ toLowerCase asdu ∈ commandTypes := by
  have hne : splitTopic b ≠ [] := by
    rw [splitTopic, ne_eq, List.map_eq_nil_iff]
    exact List.splitOn_ne_nil '/' b.toList
  cases hasdu : cmd.protocolSourceASDU with
  | none => simp [getMetricCommandPayload, hasdu]
  | some asdu =>
    have htype : (∃ a, some asdu = some a ∧ toLowerCase a ∈ commandTypes) ↔
        toLowerCase asdu ∈ commandTypes := by simp
    rw [htype]
    by_cases hknown : toLowerCase asdu ∈ commandTypes
    · obtain ⟨value, hvalue⟩ :=
        Option.isSome_iff_exists.mp ((isSome_commandValue cmd (toLowerCase asdu)).mpr hknown)
      have hpayload : getMetricCommandPayload sent cmd =
          payloadAt cmd.protocolSourceObjectAddress
            (fun x => ⟨x, value, toLowerCase asdu, sent⟩) value
            (levelsOf n d ++ splitTopic b) := by
        rw [getMetricCommandPayload, hasdu, hcmd, splitTopic_pathOf]
        simp [trim_ne_nil_of_type hknown, hvalue]
      rw [hpayload, addresses_payloadAt_iff n d _ name (fun x => rfl) value hne]
      simp [hknown]
    · have hvalue : commandValue cmd (toLowerCase asdu) = none := by
        rw [← Option.not_isSome_iff_eq_none, isSome_commandValue]
        exact hknown
      have hpayload : getMetricCommandPayload sent cmd = none := by
        rw [getMetricCommandPayload, hasdu]
        simp [hvalue]
      simp [hpayload, hknown]

end Sending

section Claim

variable (host : Host) {now sent : Date}

/-- A command to the address under which a birth message stores a metric reaches that metric
exactly when the metric is in no template, its name needs no escaping, and the command names a
type that commands have. -/
theorem command_reaches_metric_iff {n : Node} {d : Option Name} {head : Head}
    {value : Option Scalar} {templateName msgType : String} {s t : Client} {b : Bool}
    {e : QueuedValue} {cmd : CommandDocument}
    (hqueue : queueMetric host now (pathOf n d) true templateName msgType (.scalar head value) s =
      (t, b))
    (hentry : t.ValuesQueue = s.ValuesQueue ++ [e]) (hname : trim (head.name.getD "").toList ≠ [])
    (hcmd : cmd.protocolSourceObjectAddress = e.protocolSourceObjectAddress) :
    (∃ payload, getMetricCommandPayload sent cmd = some payload ∧
      Addresses n d (head.name.getD "") payload) ↔
    trim templateName.toList = [] ∧ trim (head.name.getD "").toList = (head.name.getD "").toList ∧
      (∀ c ∈ reserved, c ∉ (head.name.getD "").toList) ∧
      ∃ asdu, cmd.protocolSourceASDU = some asdu ∧ toLowerCase asdu ∈ commandTypes := by
  have haddress := address_of_queued host now hqueue hentry hname
  by_cases htemplate : trim templateName.toList = []
  · rw [if_neg (by simpa using htemplate)] at haddress
    rw [addresses_iff n d sent (hcmd.trans haddress),
      splitTopic_singleton (slash_not_mem_topicStr _), List.singleton_inj, topicStr_eq_self_iff]
    simp only [htemplate, true_and, and_assoc]
  · have hpath : pathOf n d ++ "/" ++ topicStr templateName ++ "/" ++ head.name.getD "" =
        pathOf n d ++ "/" ++ (topicStr templateName ++ "/" ++ head.name.getD "") := by
      simp [String.append_assoc]
    rw [if_pos htemplate, hpath] at haddress
    rw [addresses_iff n d sent (hcmd.trans haddress),
      splitTopic_append (slash_not_mem_topicStr templateName)]
    -- the template and the name are two levels at least
    have hlong : ∀ name, topicStr templateName :: splitTopic name ≠ [name] := by
      intro name heq
      have htail : splitTopic name = [] := (List.cons.inj heq).2
      rw [splitTopic, List.map_eq_nil_iff] at htail
      exact List.splitOn_ne_nil '/' name.toList htail
    simp [htemplate, hlong]

end Claim

section Plant

/-- The metric every node has, to be told to send its birth again. -/
def rebirth : Head where
  name := some "Node Control/Rebirth"
  type := some "Boolean"

def level : Head where
  name := some "Level"
  type := some "Boolean"

/-- A command that sets the metric to true. -/
def setTrue (e : QueuedValue) : CommandDocument where
  protocolSourceASDU := some "Boolean"
  protocolSourceObjectAddress := e.protocolSourceObjectAddress
  value := .fin 1

/-- The command goes to a metric the node does not have. -/
theorem rebirth_misaddressed :
    ∃ t e, queueMetric plainHost 1000 (pathOf pump none) true "" "NBIRTH"
        (.scalar rebirth (some (.bool false))) {} = (t, false) ∧
      t.ValuesQueue = ({} : Client).ValuesQueue ++ [e] ∧
      ¬ ∃ payload, getMetricCommandPayload 2000 (setTrue e) = some payload ∧
        Addresses pump none "Node Control/Rebirth" payload := by
  refine ⟨_, _, rfl, rfl, ?_⟩
  rintro ⟨payload, hpayload, metric, hname, rfl⟩
  have hsent : getMetricCommandPayload 2000 (setTrue (entryOf plainHost 1000 rebirth
      (some (.bool false)) "boolean" true "NBIRTH" "spBv1.0/Plant/Pump/Node Control|Rebirth"
      (Decoded.boolean plainHost rebirth (some (.bool false))))) =
      some (.ncmd "Plant" "Pump" ⟨"Node Control|Rebirth", .bool true, "boolean", 2000⟩) := by
    decide +kernel
  obtain ⟨-, -, rfl⟩ := CommandPayload.ncmd.inj (Option.some.inj (hpayload.symm.trans hsent))
  exact absurd hname (by decide)

theorem level_addressed :
    ∃ t e, queueMetric plainHost 1000 (pathOf pump (some tank)) true "" "DBIRTH"
        (.scalar level (some (.bool false))) {} = (t, false) ∧
      t.ValuesQueue = ({} : Client).ValuesQueue ++ [e] ∧
      ∃ payload, getMetricCommandPayload 2000 (setTrue e) = some payload ∧
        Addresses pump (some tank) "Level" payload := by
  refine ⟨_, _, rfl, rfl, ?_⟩
  have hiff := fun e => @command_reaches_metric_iff plainHost 1000 2000 pump (some tank) level
    (some (.bool false)) "" "DBIRTH" {} _ false e (setTrue e) rfl
  exact (hiff _ rfl (by decide) rfl).mpr
    ⟨by decide, by decide, forall_mem_of_all (by decide), "Boolean", rfl, by decide⟩

end Plant

end JsonScada.System.SparkplugAddress
