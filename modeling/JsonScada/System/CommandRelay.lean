/- path: JsonScada/System/CommandRelay
   source: src/mqtt-sparkplug/index.js, on dcmd and ProcessDeviceCommand
   digest: Which received device commands are passed on to the points they name, and as what. -/

import JsonScada.MqttSparkplug.DeviceCommand

set_option autoImplicit false
set_option relaxedAutoImplicit false

namespace JsonScada.System.CommandRelay

open JsonScada.Lib.Binary64 JsonScada.Lib.EcmaScript
open JsonScada.Model.Documents (Date Point)
open JsonScada.MqttSparkplug.Payload JsonScada.MqttSparkplug.DeviceCommand
open JsonScada.MqttSparkplug.Receive (toLowerCase stringTypes)

section Statement

variable (host : Host) (long : Long) (conn : JscadaConnection)

/-- A metric with a type names a command point; documents without a positive key are internal
system data. -/
structure Names (metric : Metric) (type : String) (p : Point) : Prop where
  typed : metric.head.type.map toLowerCase = some type
  name : metric.head.name = some p.tag
  command : p.origin = .command
  key : p._id.le (.fin 0) = false

/-- The command is for the point. -/
structure Addressed (c : Cmd) (p : Point) : Prop where
  connectionNumber : c.protocolSourceConnectionNumber = p.protocolSourceConnectionNumber
  commonAddress : c.protocolSourceCommonAddress = p.protocolSourceCommonAddress
  objectAddress : c.protocolSourceObjectAddress = p.protocolSourceObjectAddress
  ASDU : c.protocolSourceASDU = p.protocolSourceASDU
  commandDuration : c.protocolSourceCommandDuration = p.protocolSourceCommandDuration
  commandUseSBO : c.protocolSourceCommandUseSBO = p.protocolSourceCommandUseSBO

/-- The number is the converted integer: rounded at each operation, or once at the end. -/
def Converted (kconv1 kconv2 : Number) (v : ℤ) (x : Number) : Prop :=
  x = (kconv1.mul (round binary64 v)).add kconv2 ∨
    ∃ k₁ k₂ : ℚ, kconv1 = .fin k₁ ∧ kconv2 = .fin k₂ ∧ x = round binary64 (k₁ * v + k₂)

/-- The value of the command for a metric of a type. -/
def Carries (type : String) (value : Option Scalar) (p : Point) (x : Number) : Prop :=
  (type = "boolean" → x = if p.kconv1 = .fin (-1) then .fin (if Scalar.truthy value then 0 else 1)
    else .fin (if Scalar.truthy value then 1 else 0)) ∧
  (type ∈ numberTypes →
    x = (p.kconv1.mul (castNumber host type value)).add p.kconv2) ∧
  (type ∈ longTypes → ∃ v, castLong host type value = some v ∧ Converted p.kconv1 p.kconv2 v x)

/-- The commands are those a metric has to cause: one for the command point it names on another
connection, and none where it names none. -/
def Relayed (realtimeData : List Point) (metric : Metric) (commands : List Cmd) : Prop :=
  (∀ p ∈ realtimeData, ∀ type, Names metric type p →
    p.protocolSourceConnectionNumber ≠ conn.protocolConnectionNumber →
      ∃ c, commands = [c] ∧ Addressed c p ∧ Carries host type (valueOf metric) p c.value) ∧
  ((∀ p ∈ realtimeData, ∀ type, Names metric type p →
    p.protocolSourceConnectionNumber = conn.protocolConnectionNumber) → commands = [])

/-- Cutting the factors off to integers and the result to 64 bits does not matter. -/
def LongKept (type : String) (v : ℤ) (p : Point) : Prop :=
  Converted p.kconv1 p.kconv2 v
    (round binary64 (long.mulAdd (type = "uint64") v p.kconv1 p.kconv2))

/-- A metric that names a command point of the same connection has to be a 64-bit integer
without a value; a 64-bit integer for a point of another one has a value, and its conversion
needs no fractions and no more than 64 bits. -/
def Relayable (realtimeData : List Point) (metric : Metric) : Prop :=
  ∀ p ∈ realtimeData, ∀ type, Names metric type p →
    if p.protocolSourceConnectionNumber = conn.protocolConnectionNumber then
      type ∈ longTypes ∧ castLong host type (valueOf metric) = none
    else
      type ∈ longTypes → ∃ v, castLong host type (valueOf metric) = some v ∧ LongKept long type v p

end Statement

variable {host : Host} {long : Long} {conn : JscadaConnection} {currentBroker : ℕ} {now : Date}
  {realtimeData : List Point} {metric : Metric} {type : String} {p : Point}

section Convert

variable {value : Option Scalar} {metricJson : String}

theorem of_mem_numberTypes :
    ∀ t ∈ numberTypes, t ≠ "boolean" ∧ t ∉ stringTypes ∧ t ∉ longTypes := by
  decide

theorem of_mem_longTypes :
    ∀ t ∈ longTypes, t ≠ "boolean" ∧ t ∉ stringTypes ∧ t ∉ numberTypes := by
  decide

theorem convert_boolean :
    ∃ text, convert host long "boolean" value p metricJson =
      some (if p.kconv1 = .fin (-1) then .fin (if Scalar.truthy value then 0 else 1)
        else .fin (if Scalar.truthy value then 1 else 0), text) :=
  ⟨_, rfl⟩

theorem convert_number (h : type ∈ numberTypes) :
    ∃ text, convert host long type value p metricJson =
      some ((p.kconv1.mul (castNumber host type value)).add p.kconv2, text) := by
  obtain ⟨hboolean, hstring, -⟩ := of_mem_numberTypes type h
  unfold convert
  rw [if_neg hboolean, if_neg hstring, if_pos h]
  exact ⟨_, rfl⟩

theorem convert_long (h : type ∈ longTypes) :
    ∃ text : Number → Option Scalar, convert host long type value p metricJson =
      (castLong host type value).map fun v =>
        (round binary64 (long.mulAdd (type = "uint64") v p.kconv1 p.kconv2),
          text (round binary64 (long.mulAdd (type = "uint64") v p.kconv1 p.kconv2))) := by
  obtain ⟨hboolean, hstring, hnumber⟩ := of_mem_longTypes type h
  unfold convert
  rw [if_neg hboolean, if_neg hstring, if_neg hnumber, if_pos h]
  exact ⟨fun x => some (.str (String.ofList (numToString x))), rfl⟩

/-- Only a 64-bit integer can throw. -/
theorem convert_ne_none (h : type ∉ longTypes) :
    convert host long type value p metricJson ≠ none := by
  unfold convert
  rw [if_neg h]
  split_ifs <;> exact Option.some_ne_none _

theorem convert_eq_none_iff :
    convert host long type value p metricJson = none ↔
      type ∈ longTypes ∧ castLong host type value = none := by
  by_cases h : type ∈ longTypes
  · obtain ⟨text, htext⟩ := @convert_long host long type p value metricJson h
    rw [htext, Option.map_eq_none_iff]
    exact ⟨fun hnone => ⟨h, hnone⟩, fun hnone => hnone.2⟩
  · exact iff_of_false (convert_ne_none h) fun hnone => h hnone.1

/-- What is sent is right, up to the conversion of 64-bit integers. -/
theorem carries_iff {x : Number} {text : Option Scalar}
    (h : convert host long type value p metricJson = some (x, text)) :
    Carries host type value p x ↔
      (type ∈ longTypes → ∃ v, castLong host type value = some v ∧ LongKept long type v p) := by
  by_cases hlong : type ∈ longTypes
  · obtain ⟨text', htext⟩ := @convert_long host long type p value metricJson hlong
    rw [htext] at h
    obtain ⟨v, hv, heq⟩ := Option.map_eq_some_iff.mp h
    cases heq
    obtain ⟨hboolean, -, hnumber⟩ := of_mem_longTypes type hlong
    constructor
    · rintro ⟨-, -, hc⟩ -
      obtain ⟨w, hw, hconverted⟩ := hc hlong
      obtain rfl : v = w := Option.some.inj (hv.symm.trans hw)
      exact ⟨v, hv, hconverted⟩
    · intro hkept
      obtain ⟨w, hw, hconverted⟩ := hkept hlong
      obtain rfl : v = w := Option.some.inj (hv.symm.trans hw)
      exact ⟨fun hb => absurd hb hboolean, fun hn => absurd hn hnumber,
        fun _ => ⟨v, hv, hconverted⟩⟩
  · refine iff_of_true ⟨?_, ?_, fun hl => absurd hl hlong⟩ fun hl => absurd hl hlong
    · rintro rfl
      obtain ⟨text', htext⟩ := @convert_boolean host long p value metricJson
      rw [htext] at h
      exact (congrArg Prod.fst (Option.some.inj h)).symm
    · intro hnumber
      obtain ⟨text', htext⟩ := @convert_number host long type p value metricJson hnumber
      rw [htext] at h
      exact (congrArg Prod.fst (Option.some.inj h)).symm

end Convert

section Process

/-- A point whose name is given but which is no point to command causes nothing. -/
theorem processElement_of_not_names (h : ∀ type, ¬ Names metric type p)
    (hnamed : isNamed metric p = true) :
    processElement host long conn currentBroker now metric p = [] := by
  unfold isNamed at hnamed
  rw [Bool.and_eq_true, decide_eq_true_eq, decide_eq_true_eq] at hnamed
  unfold processElement
  split_ifs with hcond
  · rfl
  · rw [Bool.not_eq_true, Bool.or_eq_false_iff] at hcond
    cases htype : metric.head.type with
    | none => rfl
    | some type =>
      exact absurd ⟨by rw [htype]; rfl, hnamed.1, hnamed.2, hcond.2⟩ (h (toLowerCase type))

/-- A point that is named causes the command that its conversion gives. -/
theorem processElement_of_names (h : Names metric type p) :
    processElement host long conn currentBroker now metric p =
      match convert host long type (valueOf metric) p
        (host.metricJson metric.head (valueOf metric)) with
      | none => []
      | some r => [cmdOf conn currentBroker now p r.1 r.2
          (host.metricJson metric.head (valueOf metric))] := by
  have hguard : ¬ (decide (p.origin ≠ .command) || p._id.le (.fin 0)) = true := by
    simp [h.command, h.key]
  obtain ⟨type', htype, rfl⟩ := Option.map_eq_some_iff.mp h.typed
  unfold processElement
  rw [if_neg hguard, htype]
  dsimp only
  cases convert host long (toLowerCase type') (valueOf metric) p
    (host.metricJson metric.head (valueOf metric)) <;> rfl

theorem Names.named (h : Names metric type p) : isNamed metric p = true := by
  unfold isNamed
  rw [h.name, h.command, decide_eq_true rfl, decide_eq_true rfl, Bool.and_self]

theorem addressed_cmdOf (x : Number) (text : Option Scalar) (json : String) :
    Addressed (cmdOf conn currentBroker now p x text json) p :=
  ⟨rfl, rfl, rfl, rfl, rfl, rfl⟩

/-- With one document for each tag a metric is processed for one at most. -/
theorem ProcessDeviceCommand_eq (hu : (realtimeData.map (·.tag)).Nodup) (hp : p ∈ realtimeData)
    (hnamed : isNamed metric p = true) :
    ProcessDeviceCommand host long conn currentBroker now realtimeData metric =
      processElement host long conn currentBroker now metric p := by
  obtain ⟨pre, post, rfl⟩ := List.append_of_mem hp
  rw [List.map_append, List.map_cons, List.nodup_middle, List.nodup_cons, ← List.map_append]
    at hu
  have hnone : ∀ q ∈ pre ++ post, isNamed metric q = false := by
    intro q hq
    by_contra hq'
    rw [Bool.not_eq_false] at hq'
    unfold isNamed at hnamed hq'
    rw [Bool.and_eq_true, decide_eq_true_eq] at hnamed hq'
    have heq : p.tag = q.tag := Option.some.inj (hnamed.1.symm.trans hq'.1)
    exact hu.1 (heq ▸ List.mem_map_of_mem hq)
  have hpre : pre.filter (isNamed metric) = [] := by
    rw [List.filter_eq_nil_iff]
    intro q hq
    rw [hnone q (List.mem_append_left post hq)]
    exact Bool.false_ne_true
  have hpost : post.filter (isNamed metric) = [] := by
    rw [List.filter_eq_nil_iff]
    intro q hq
    rw [hnone q (List.mem_append_right pre hq)]
    exact Bool.false_ne_true
  unfold ProcessDeviceCommand
  rw [List.filter_append, List.filter_cons_of_pos hnamed, hpre, hpost, List.nil_append,
    List.flatMap_singleton]

end Process

section Main

/-- Two points a metric names are one. -/
theorem Names.unique {q : Point} {type' : String} (hu : (realtimeData.map (·.tag)).Nodup)
    (hp : p ∈ realtimeData) (hq : q ∈ realtimeData) (h : Names metric type p)
    (h' : Names metric type' q) : p = q := by
  have htag : p.tag = q.tag := Option.some.inj (h.name.symm.trans h'.name)
  exact List.inj_on_of_nodup_map hu hp hq htag

/-- A metric is relayed where the point it names allows for it. -/
theorem relayed_iff (hu : (realtimeData.map (·.tag)).Nodup) :
    Relayed host conn realtimeData metric
        (ProcessDeviceCommand host long conn currentBroker now realtimeData metric) ↔
      Relayable host long conn realtimeData metric := by
  constructor
  · rintro ⟨hother, hown⟩ p hp type hnames
    have heq : ProcessDeviceCommand host long conn currentBroker now realtimeData metric = _ :=
      (ProcessDeviceCommand_eq hu hp hnames.named).trans (processElement_of_names hnames)
    split_ifs with hconn
    · have hnone := hown fun q hq type' hnames' => by
        rw [← hnames.unique hu hp hq hnames']
        exact hconn
      rw [hnone] at heq
      cases hconvert : convert host long type (valueOf metric) p
          (host.metricJson metric.head (valueOf metric)) with
      | none => exact convert_eq_none_iff.mp hconvert
      | some r =>
        rw [hconvert] at heq
        cases heq
    · obtain ⟨c, hc, -, hcarries⟩ := hother p hp type hnames hconn
      rw [hc] at heq
      cases hconvert : convert host long type (valueOf metric) p
          (host.metricJson metric.head (valueOf metric)) with
      | none =>
        rw [hconvert] at heq
        cases heq
      | some r =>
        rw [hconvert] at heq
        cases heq
        exact (carries_iff hconvert).mp hcarries
  · intro h
    constructor
    · intro p hp type hnames hconn
      have hrelayable := h p hp type hnames
      rw [if_neg hconn] at hrelayable
      rw [ProcessDeviceCommand_eq hu hp hnames.named, processElement_of_names hnames]
      cases hconvert : convert host long type (valueOf metric) p
          (host.metricJson metric.head (valueOf metric)) with
      | none =>
        obtain ⟨hlong, hcast⟩ := convert_eq_none_iff.mp hconvert
        obtain ⟨v, hv, -⟩ := hrelayable hlong
        rw [hv] at hcast
        cases hcast
      | some r => exact ⟨_, rfl, addressed_cmdOf _ _ _, (carries_iff hconvert).mpr hrelayable⟩
    · intro hown
      rw [ProcessDeviceCommand, List.flatMap_eq_nil_iff]
      intro p hp
      obtain ⟨hp, hnamed⟩ := List.mem_filter.mp hp
      by_cases hnames : ∃ type, Names metric type p
      · obtain ⟨type, hnames⟩ := hnames
        have hrelayable := h p hp type hnames
        rw [if_pos (hown p hp type hnames)] at hrelayable
        rw [processElement_of_names hnames, convert_eq_none_iff.mpr hrelayable]
      · exact processElement_of_not_names (not_exists.mp hnames) hnamed

/-- Every metric of a payload causes the commands it has to, exactly where the point each names
allows for it. -/
theorem commands_relayed_iff (host : Host) (long : Long) (conn : JscadaConnection)
    (currentBroker : ℕ) (now : Date) (realtimeData : List Point) (metrics : List Metric)
    (henabled : conn.commandsEnabled = true) (hu : (realtimeData.map (·.tag)).Nodup) :
    (onDcmd host long conn currentBroker now true realtimeData (some metrics) =
        metrics.flatMap (ProcessDeviceCommand host long conn currentBroker now realtimeData) ∧
      ∀ metric ∈ metrics, Relayed host conn realtimeData metric
        (ProcessDeviceCommand host long conn currentBroker now realtimeData metric)) ↔
      ∀ metric ∈ metrics, Relayable host long conn realtimeData metric := by
  have hqueue : onDcmd host long conn currentBroker now true realtimeData (some metrics) =
      metrics.flatMap (ProcessDeviceCommand host long conn currentBroker now realtimeData) := by
    rw [onDcmd, henabled, Bool.and_self, if_pos rfl]
  constructor
  · rintro ⟨-, h⟩ metric hmem
    exact (relayed_iff hu).mp (h metric hmem)
  · intro h
    exact ⟨hqueue, fun metric hmem => (relayed_iff hu).mpr (h metric hmem)⟩

theorem wrap_of_range {z : ℤ} (hlow : -2 ^ 63 ≤ z) (hhigh : z < 2 ^ 63) :
    Long.wrap false z = z := by
  unfold Long.wrap
  rw [if_neg Bool.false_ne_true]
  omega

/-- Signed integers keep their value with factors that are integers, as long as nothing
overflows. -/
theorem longKept_of_integers {a b v : ℤ} (h₁ : p.kconv1 = .fin a) (h₂ : p.kconv2 = .fin b)
    (ha : -2 ^ 63 ≤ a ∧ a < 2 ^ 63) (hb : -2 ^ 63 ≤ b ∧ b < 2 ^ 63)
    (hproduct : -2 ^ 63 ≤ v * a ∧ v * a < 2 ^ 63)
    (hsum : -2 ^ 63 ≤ v * a + b ∧ v * a + b < 2 ^ 63) : LongKept long "int64" v p := by
  have hcut : ∀ z : ℤ, -2 ^ 63 ≤ z ∧ z < 2 ^ 63 → long.fromNumber (.fin (z : ℚ)) = z := by
    intro z hz
    have htruncate : truncate (z : ℚ) = z := by
      unfold truncate
      rw [← Int.cast_neg, Int.floor_intCast, Int.floor_intCast, neg_neg]
      split_ifs <;> rfl
    have hnumber := long.fromNumber_cut (z : ℚ)
    rw [htruncate] at hnumber
    exact hnumber hz.1 hz.2
  refine .inr ⟨a, b, h₁, h₂, ?_⟩
  have hsigned : decide ("int64" = "uint64") = false := by decide
  rw [hsigned, Long.mulAdd, h₁, h₂, hcut a ha, hcut b hb,
    wrap_of_range hproduct.1 hproduct.2, wrap_of_range hsum.1 hsum.2]
  push_cast
  rw [mul_comm (a : ℚ)]

/-- A package that cuts every number off. -/
def cutting : Long where
  fromNumber
    | .fin q => truncate q
    | _ => 0
  fromNumber_cut _ _ _ := rfl

def driver : JscadaConnection where
  protocolConnectionNumber := .fin 5
  name := "BROKER"
  endpointURLs := ["mqtt://127.0.0.1"]
  commandsEnabled := true

/-- A command point acquired on a connection, with a factor. -/
def valve (connectionNumber kconv1 : ℚ) : Point where
  _id := .fin 1
  tag := "VALVE"
  type := .digital
  origin := .command
  kconv1 := .fin kconv1
  protocolSourceConnectionNumber := .fin connectionNumber

def metricOf (type : String) (value : Scalar) : Metric :=
  .scalar { name := some "VALVE", type := some type } (some value)

theorem nodup_valve (connectionNumber kconv1 : ℚ) :
    ([valve connectionNumber kconv1].map (·.tag)).Nodup := List.nodup_singleton _

/-- A Boolean for a valve on another connection is relayed. -/
theorem valve_relayed :
    (onDcmd plainHost cutting driver 0 0 true [valve 6 (-1)]
        (some [metricOf "Boolean" (.bool true)]) =
      [metricOf "Boolean" (.bool true)].flatMap
        (ProcessDeviceCommand plainHost cutting driver 0 0 [valve 6 (-1)]) ∧
      ∀ metric ∈ [metricOf "Boolean" (.bool true)], Relayed plainHost driver [valve 6 (-1)] metric
        (ProcessDeviceCommand plainHost cutting driver 0 0 [valve 6 (-1)] metric)) := by
  refine (commands_relayed_iff plainHost cutting driver 0 0 [valve 6 (-1)] _ rfl
    (nodup_valve 6 (-1))).mpr ?_
  intro metric hmetric p hp type hnames
  obtain rfl := List.mem_singleton.mp hmetric
  obtain rfl := List.mem_singleton.mp hp
  have htype : "boolean" = type := Option.some.inj hnames.typed
  rw [if_neg (by decide), ← htype]
  intro hlong
  exact absurd hlong (by decide)

/-- A command for a valve of the same connection is queued again, and half of ten is none. -/
theorem valve_circulates_and_half_lost :
    ¬ Relayed plainHost driver [valve 5 1] (metricOf "Boolean" (.bool true))
        (ProcessDeviceCommand plainHost cutting driver 0 0 [valve 5 1]
          (metricOf "Boolean" (.bool true))) ∧
      ¬ Relayed plainHost driver [valve 6 (1 / 2)] (metricOf "Int64" (.long 10))
        (ProcessDeviceCommand plainHost cutting driver 0 0 [valve 6 (1 / 2)]
          (metricOf "Int64" (.long 10))) := by
  constructor
  · rintro ⟨-, hown⟩
    have hnone := hown fun p hp type _ => by
      obtain rfl := List.mem_singleton.mp hp
      rfl
    exact absurd hnone (by decide)
  · rw [relayed_iff (nodup_valve 6 (1 / 2))]
    intro h
    have hnames : Names (metricOf "Int64" (.long 10)) "int64" (valve 6 (1 / 2)) :=
      ⟨by decide, rfl, rfl, by decide⟩
    have hkept := h _ List.mem_cons_self _ hnames
    rw [if_neg (by decide)] at hkept
    obtain ⟨v, hv, hconverted⟩ := hkept (by decide)
    have hten : castLong plainHost "int64" (valueOf (metricOf "Int64" (.long 10))) = some 10 := by
      decide +kernel
    obtain rfl : (10 : ℤ) = v := Option.some.inj (hten.symm.trans hv)
    rcases hconverted with hdouble | ⟨k₁, k₂, h₁, h₂, hexact⟩
    · exact absurd hdouble (by decide +kernel)
    · cases h₁
      cases h₂
      exact absurd hexact (by decide +kernel)

end Main

end JsonScada.System.CommandRelay
