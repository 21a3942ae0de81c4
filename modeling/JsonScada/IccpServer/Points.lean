/- path: JsonScada/IccpServer/Points
   source: src/iccp/iccp-server/main.go, src/iccp/iccp-server/config.go
   digest: The tags the ICCP server loads, the values they convert to and the points built of them. -/

import JsonScada.Lib.DotNet
import JsonScada.Lib.Golang
import JsonScada.Model.Documents

set_option autoImplicit false
set_option relaxedAutoImplicit false

namespace JsonScada.IccpServer.Points

open JsonScada.Lib.Binary64 JsonScada.Lib.Golang
open JsonScada.Lib.Collection (findLast? findLast?_eq_some_iff)
open JsonScada.Lib.DotNet (toSingle)
open JsonScada.Model.Documents (Date)

section Documents

/-- A value of the type `interface{}`, as it is decoded from a document. -/
inductive Bson where
  | null
  | str (s : String)
  | double (x : Number)
  | int (n : ℤ)
  /-- any other value, by its text for `%v` -/
  | other (text : String)
  deriving DecidableEq

/-- A document of `realtimeData`; a field that is missing has its zero value. -/
structure RtData where
  ID : Number := .fin 0
  tag : String := ""
  type : String := ""
  value : Number := .fin 0
  valueString : String := ""
  invalid : Bool := false
  group1 : String := ""
  origin : String := ""
  protocolSourceConnectionNumber : Number := .fin 0
  protocolSourceASDU : Bson := .null
  protocolSourceObjectAddress : Bson := .null
  protocolSourceCommonAddress : Bson := .null
  protocolSourceCommandDuration : Number := .fin 0
  protocolSourceCommandUseSBO : Bool := false
  timeTagAtSource : Option Date := none
  timeTagAtSourceOk : Bool := false
  commandBlocked : Bool := false
  deriving DecidableEq

structure ProtocolConnection where
  protocolConnectionNumber : ℤ
  name : String
  commandsEnabled : Bool
  topics : List String
  remoteApTitle : String := ""
  deriving DecidableEq

/-- `contains` -/
def contains (a : List String) (str : String) : Bool :=
  a.any fun n => trimSpace str = trimSpace n

end Documents

section Values

structure Quality where
  validity : String
  source : String
  deriving DecidableEq

/-- The values of the tase2 package, by their constructors. -/
inductive DataValue where
  | boolean (b : Bool)
  | float32 (x : Number)
  | integer (n : ℤ)
  | unsigned (n : ℕ)
  | visibleString (s : String)
  | stateQTimeTag (on : Bool) (q : Quality) (tod : Date)
  | realQTimeTag (x : Number) (q : Quality) (tod : Date)
  | discreteQTimeTag (n : ℤ) (q : Quality) (tod : Date)
  deriving DecidableEq

inductive ICCPType where
  | unknown
  | stateQTimeTag
  | realQTimeTag
  | discreteQTimeTag
  deriving DecidableEq

/-- What the driver takes from the libraries. -/
structure Host where
  /-- `fmt.Sprintf("%v", value)` of a float -/
  formatV : Number → String
  /-- `strconv.ParseFloat(text, 64)`: the number, and whether there was no error -/
  parseFloat : String → Number × Bool
  /-- `dv.String()` -/
  text : DataValue → String

variable (host : Host) (now : Date)

/-- `asduToString` and `objAddrToString` -/
def asduToString : Bson → String
  | .null => ""
  | .str s => s
  | .double x => if x = .fin (int64 x) then toString (int64 x) else host.formatV x
  | .int n => toString n
  | .other text => text

def convertToDataValue (tag : RtData) : DataValue :=
  if tag.type = "digital" then .boolean (tag.value ≠ .fin 0)
  else if tag.type = "analog" then
    let asdu := asduToString host tag.protocolSourceASDU
    if asdu = "int16" then .integer (int16 tag.value)
    else if asdu = "uint16" then .unsigned (uint16 tag.value)
    else if asdu = "int32" then .integer (int32 tag.value)
    else if asdu = "uint32" then .unsigned (uint32 tag.value)
    else if asdu = "int64" then .integer (int64 tag.value)
    else if asdu = "boolean" then .boolean (tag.value ≠ .fin 0)
    else .float32 (toSingle tag.value)
  else if tag.type = "string" then
    .visibleString (if tag.valueString ≠ "" then tag.valueString else host.formatV tag.value)
  else .float32 (toSingle tag.value)

/-- The types that are published as indication points. -/
def getICCPType (tag : RtData) : ICCPType :=
  if tag.type = "digital" then .stateQTimeTag
  else if tag.type = "analog" then .realQTimeTag
  else .unknown

def qualityOf (tag : RtData) : Quality :=
  { validity := if tag.invalid then "invalid" else "good", source := "process" }

def timeTagOf (tag : RtData) : Date :=
  if tag.timeTagAtSourceOk then tag.timeTagAtSource.getD now else now

def convertToICCPValue (tag : RtData) : ICCPType → DataValue
  | .stateQTimeTag => .stateQTimeTag (tag.value ≠ .fin 0) (qualityOf tag) (timeTagOf now tag)
  | .realQTimeTag => .realQTimeTag (toSingle tag.value) (qualityOf tag) (timeTagOf now tag)
  | .discreteQTimeTag => .discreteQTimeTag (int64 tag.value) (qualityOf tag) (timeTagOf now tag)
  | .unknown => convertToDataValue host tag

end Values

section Names

/-- `(r >= 'a' && r <= 'z') || (r >= 'A' && r <= 'Z')` -/
def isLetter (c : Char) : Bool := ('a' ≤ c && c ≤ 'z') || ('A' ≤ c && c ≤ 'Z')

def isAlphanumeric (c : Char) : Bool := isLetter c || ('0' ≤ c && c ≤ '9')

/-- Any other character becomes an underscore. -/
def plain (c : Char) : Char := if isAlphanumeric c then c else '_'

def startsWithLetter (name : List Char) : Bool := name.head?.any isLetter

def sanitizePointName (name : String) : String :=
  if name = "" then "X_unnamed_"
  else
    let result := name.toList.map plain
    let result := if startsWithLetter result then result else 'X' :: result
    String.ofList (result.take 32)

end Names

section Loading

variable (connections : List ProtocolConnection)

/-- The topics of all connections. -/
def topicList : List String :=
  ((connections.flatMap ProtocolConnection.topics).map trimSpace).filter (· ≠ "")

/-- `connNumbers` has the connection number of the tag. -/
def isOwn (tag : RtData) : Bool :=
  (connections.map ProtocolConnection.protocolConnectionNumber).contains
    (int64 tag.protocolSourceConnectionNumber)

/-- `{_id: {$gt: 0}}`, and `group1` in the topics when there are any. -/
def query (tag : RtData) : Bool :=
  Number.lt (.fin 0) tag.ID &&
    (topicList connections = [] || (topicList connections).contains tag.group1)

/-- The documents loaded at start-up, in the order of the cursor. -/
def load (realtimeData : List RtData) : List RtData := realtimeData.filter (query connections)

end Loading

section Building

variable (host : Host) (now : Date) (connections : List ProtocolConnection)

/-- The name of a point: its domain, and the name its domain keeps it by. -/
structure ObjectRef where
  domain : String
  item : String
  deriving DecidableEq

inductive PointKind where
  | control
  | indication (iccpType : ICCPType)
  deriving DecidableEq

/-- A point that was added to the data model, and the tag it was added for. -/
structure Point where
  tag : String
  ref : ObjectRef
  kind : PointKind
  value : DataValue
  deriving DecidableEq

/-- `ip.ICCPType` -/
def Point.iccpType (p : Point) : ICCPType :=
  match p.kind with
  | .control => .unknown
  | .indication iccpType => iccpType

/-- The domains and points, as they were added. -/
structure DataModel where
  domains : List String := []
  points : List Point := []

/-- Some connection with commands enabled has the group among its topics. -/
def hasCmdEnabled (group1 : String) : Bool :=
  connections.any fun conn =>
    conn.commandsEnabled && (conn.topics = [] || contains conn.topics group1)

/-- The tag has no group, or belongs to one of the connections. -/
def isSkipped (tag : RtData) : Bool := trimSpace tag.group1 = "" || isOwn connections tag

/-- The tag becomes a control point. -/
def isControl (tag : RtData) : Bool :=
  tag.origin = "command" && !tag.commandBlocked && hasCmdEnabled connections (trimSpace tag.group1)

/-- The point of a tag that is not skipped. -/
def pointOf (tag : RtData) : Option Point :=
  let ref : ObjectRef := ⟨trimSpace tag.group1, sanitizePointName tag.tag⟩
  if isControl connections tag then
    some ⟨tag.tag, ref, .control, convertToDataValue host tag⟩
  else if getICCPType tag ≠ .unknown then
    some ⟨tag.tag, ref, .indication (getICCPType tag),
      convertToICCPValue host now tag (getICCPType tag)⟩
  else none

/-- One iteration of the loop that builds the data model. -/
def addTag (m : DataModel) (tag : RtData) : DataModel :=
  if isSkipped connections tag then m
  else {
    domains := if trimSpace tag.group1 ∈ m.domains then m.domains
      else m.domains ++ [trimSpace tag.group1]
    points := m.points ++ (pointOf host now connections tag).toList }

/-- The data model built of the tags. -/
def build (allTags : List RtData) : DataModel := allTags.foldl (addTag host now connections) {}

/-- A tag of a kind that is published: a control point, or a type with an ICCP type. -/
def IsPublished (tag : RtData) : Prop :=
  isSkipped connections tag = false ∧
    (isControl connections tag = true ∨ tag.type = "digital" ∨ tag.type = "analog")

variable {host now connections}

theorem getICCPType_ne_unknown {tag : RtData} :
    getICCPType tag ≠ .unknown ↔ tag.type = "digital" ∨ tag.type = "analog" := by
  rw [getICCPType]
  split_ifs with hdigital hanalog
  · simp [hdigital]
  · simp [hanalog]
  · simp [hdigital, hanalog]

/-- The point of a tag has its name, and is a control point when the tag says so. -/
theorem pointOf_eq_some {tag : RtData} {p : Point} (h : pointOf host now connections tag = some p) :
    p.tag = tag.tag ∧ p.ref = ⟨trimSpace tag.group1, sanitizePointName tag.tag⟩ ∧
      (p.kind = .control ↔ isControl connections tag = true) := by
  rw [pointOf] at h
  split_ifs at h with hcontrol htype
  · obtain rfl := Option.some.inj h
    exact ⟨rfl, rfl, by simp [hcontrol]⟩
  · obtain rfl := Option.some.inj h
    exact ⟨rfl, rfl, by simp [hcontrol]⟩

theorem isSome_pointOf {tag : RtData} : (pointOf host now connections tag).isSome ↔
    isControl connections tag = true ∨ tag.type = "digital" ∨ tag.type = "analog" := by
  rw [← getICCPType_ne_unknown, pointOf]
  split_ifs with hcontrol htype
  · simp [hcontrol]
  · simp [htype]
  · simpa [hcontrol] using htype

theorem mem_points_addTag {m : DataModel} {tag : RtData} {p : Point} :
    p ∈ (addTag host now connections m tag).points ↔
      p ∈ m.points ∨ isSkipped connections tag = false ∧
        pointOf host now connections tag = some p := by
  rw [addTag]
  by_cases hskip : isSkipped connections tag = true
  · rw [if_pos hskip]
    simp [hskip]
  · rw [if_neg hskip]
    simp [hskip]

theorem mem_domains_addTag {m : DataModel} {tag : RtData} {domain : String} :
    domain ∈ (addTag host now connections m tag).domains ↔
      domain ∈ m.domains ∨ isSkipped connections tag = false ∧ trimSpace tag.group1 = domain := by
  rw [addTag]
  by_cases hskip : isSkipped connections tag = true
  · rw [if_pos hskip]
    simp [hskip]
  · rw [if_neg hskip]
    by_cases hmem : trimSpace tag.group1 ∈ m.domains
    · simp only [hmem, if_true, hskip, true_and]
      constructor
      · exact Or.inl
      · rintro (h | rfl)
        · exact h
        · exact hmem
    · simp [hmem, hskip, eq_comm]

theorem mem_points_build {allTags : List RtData} {p : Point} :
    p ∈ (build host now connections allTags).points ↔
      ∃ t ∈ allTags, isSkipped connections t = false ∧ pointOf host now connections t = some p := by
  rw [build]
  induction allTags using List.reverseRecOn with
  | nil => simp
  | append_singleton allTags tag ih =>
    rw [List.foldl_append, List.foldl_cons, List.foldl_nil, mem_points_addTag, ih]
    simp [or_and_right, exists_or]

theorem mem_domains_build {allTags : List RtData} {domain : String} :
    domain ∈ (build host now connections allTags).domains ↔
      ∃ t ∈ allTags, isSkipped connections t = false ∧ trimSpace t.group1 = domain := by
  rw [build]
  induction allTags using List.reverseRecOn with
  | nil => simp
  | append_singleton allTags tag ih =>
    rw [List.foldl_append, List.foldl_cons, List.foldl_nil, mem_domains_addTag, ih]
    simp [or_and_right, exists_or]

/-- `ipByTag` -/
def DataModel.ipByTag (m : DataModel) : Map String Point :=
  Map.ofEntries ((m.points.filter fun p => p.kind ≠ .control).map fun p => (p.tag, p))

/-- `cpByTag` -/
def DataModel.cpByTag (m : DataModel) : Map String Point :=
  Map.ofEntries ((m.points.filter fun p => p.kind = .control).map fun p => (p.tag, p))

/-- A point the lookup by tag finds is one of the entries, of that tag. -/
theorem of_ofEntries {points : List Point} {q : Point → Bool} {tag : String} {p : Point}
    (h : Map.ofEntries ((points.filter q).map fun p => (p.tag, p)) tag = some p) :
    p ∈ points ∧ q p = true ∧ p.tag = tag := by
  rw [Map.ofEntries_self Point.tag] at h
  obtain ⟨htag, pre, post, hsplit, -⟩ := findLast?_eq_some_iff.mp h
  have hmem : p ∈ points.filter q := by
    rw [hsplit]
    simp
  exact ⟨(List.mem_filter.mp hmem).1, (List.mem_filter.mp hmem).2, of_decide_eq_true htag⟩

theorem of_ipByTag {m : DataModel} {tag : String} {p : Point} (h : m.ipByTag tag = some p) :
    p ∈ m.points ∧ p.kind ≠ .control ∧ p.tag = tag := by
  obtain ⟨hmem, hkind, htag⟩ := of_ofEntries h
  exact ⟨hmem, of_decide_eq_true hkind, htag⟩

theorem of_cpByTag {m : DataModel} {tag : String} {p : Point} (h : m.cpByTag tag = some p) :
    p ∈ m.points ∧ p.kind = .control ∧ p.tag = tag := by
  obtain ⟨hmem, hkind, htag⟩ := of_ofEntries h
  exact ⟨hmem, of_decide_eq_true hkind, htag⟩

end Building

end JsonScada.IccpServer.Points
