/- path: JsonScada/IccpServer/Server
   source: src/iccp/iccp-server/main.go, src/iccp/iccp-server/config.go
   digest: The caches for commands, the server of a client, and what a change event does. -/

import JsonScada.IccpServer.Points

set_option autoImplicit false
set_option relaxedAutoImplicit false

namespace JsonScada.IccpServer.Server

open JsonScada.Lib.Binary64 JsonScada.Lib.Golang
open JsonScada.Lib.Collection (findLast? findLast?_eq_some_iff)
open JsonScada.Model.Documents (Date)
open JsonScada.IccpServer.Points

section Caches

variable (allTags : List RtData)

/-- `rtDataByTag` -/
def rtDataByTag : Map String RtData := Map.ofEntries (allTags.map fun t => (t.tag, t))

/-- `tagByDomainItem` -/
def tagByDomainItem : Map String String :=
  Map.ofEntries ((allTags.filter fun t => t.group1 ≠ "" && sanitizePointName t.tag ≠ "").map
    fun t => (t.group1 ++ "/" ++ sanitizePointName t.tag, t.tag))

/-- A tag that is not there is the empty text. -/
def findTagByDomainItem (domain item : String) : String :=
  (tagByDomainItem allTags (domain ++ "/" ++ item)).getD ""

/-- A document that is not there has zero values. -/
def findRtDataForTag (tag : String) : RtData := (rtDataByTag allTags tag).getD {}

variable {allTags}

/-- A tag that is found is the tag of a document. -/
theorem exists_of_findTagByDomainItem {domain item : String}
    (h : findTagByDomainItem allTags domain item ≠ "") :
    ∃ t ∈ allTags, t.tag = findTagByDomainItem allTags domain item := by
  rw [findTagByDomainItem, tagByDomainItem, Map.ofEntries_map] at h ⊢
  cases hlast : findLast? _ _ with
  | none =>
    rw [hlast] at h
    exact absurd rfl h
  | some t =>
    obtain ⟨-, pre, post, hsplit, -⟩ := findLast?_eq_some_iff.mp hlast
    have ht : t ∈ allTags.filter fun t => t.group1 ≠ "" && sanitizePointName t.tag ≠ "" := by
      rw [hsplit]
      simp
    exact ⟨t, List.mem_of_mem_filter ht, rfl⟩

/-- The document found for the tag of a document is one of that tag. -/
theorem mem_findRtDataForTag {tag : String} (h : ∃ t ∈ allTags, t.tag = tag) :
    findRtDataForTag allTags tag ∈ allTags ∧ (findRtDataForTag allTags tag).tag = tag := by
  obtain ⟨t, ht, htag⟩ := h
  rw [findRtDataForTag, rtDataByTag, Map.ofEntries_self RtData.tag]
  cases hlast : findLast? (fun s => s.tag = tag) allTags with
  | none =>
    rw [findLast?, List.find?_eq_none] at hlast
    exact absurd (hlast t (List.mem_reverse.mpr ht)) (by simp [htag])
  | some s =>
    obtain ⟨hs, pre, post, hsplit, -⟩ := findLast?_eq_some_iff.mp hlast
    have hmem : s ∈ allTags := by
      rw [hsplit]
      simp
    exact ⟨hmem, of_decide_eq_true hs⟩

end Caches

section Commands

/-- A document inserted in `commandsQueue`. -/
structure Command where
  protocolSourceConnectionNumber : Number
  protocolSourceCommonAddress : Number
  protocolSourceObjectAddress : String
  protocolSourceASDU : String
  protocolSourceCommandDuration : Number
  protocolSourceCommandUseSBO : Bool
  pointKey : Number
  tag : String
  value : Number
  valueString : String
  originatorUserName : String
  originatorIpAddress : String
  timeTag : Date
  deriving DecidableEq

variable (host : Host) (now : Date)

def commonAddrToFloat64 : Bson → Number
  | .double x => x
  | .int n => round binary64 n
  | .str s => if (host.parseFloat s).2 then (host.parseFloat s).1 else .fin 0
  | _ => .fin 0

/-- The document `insertCommand` inserts. -/
def insertCommand (conn : ProtocolConnection) (value : Number) (valueStr : String)
    (rtDoc : RtData) : Command := {
  protocolSourceConnectionNumber := rtDoc.protocolSourceConnectionNumber
  protocolSourceCommonAddress := commonAddrToFloat64 host rtDoc.protocolSourceCommonAddress
  protocolSourceObjectAddress := asduToString host rtDoc.protocolSourceObjectAddress
  protocolSourceASDU := asduToString host rtDoc.protocolSourceASDU
  protocolSourceCommandDuration := rtDoc.protocolSourceCommandDuration
  protocolSourceCommandUseSBO := rtDoc.protocolSourceCommandUseSBO
  pointKey := rtDoc.ID
  tag := rtDoc.tag
  value := value
  valueString := valueStr
  originatorUserName := "Protocol connection: " ++ toString conn.protocolConnectionNumber ++ " " ++
    conn.name
  originatorIpAddress := ""
  timeTag := now }

def extractCommandValue : DataValue → Number × String
  | .boolean b => if b then (.fin 1, "true") else (.fin 0, "false")
  | .integer n => (round binary64 n, toString n)
  | .unsigned n => (round binary64 n, toString n)
  | .float32 x => (x, formatF x)
  | .visibleString s =>
    if s ≠ "" then ((host.parseFloat s).1, s) else (.fin 0, host.text (.visibleString s))
  | dv => (.fin 0, host.text dv)

/-- The write handler, up to the command it inserts; `none` is a `ResultFailure` before that. -/
def writeData (allTags : List RtData) (conn : ProtocolConnection) (ref : ObjectRef)
    (value : DataValue) : Option Command :=
  let tag := findTagByDomainItem allTags ref.domain ref.item
  if tag = "" then none
  else
    let rtDoc := findRtDataForTag allTags tag
    if rtDoc.ID = .fin 0 then none
    else some (insertCommand host now conn (extractCommandValue host value).1
      (extractCommandValue host value).2 rtDoc)

variable {host now}

theorem tag_insertCommand (conn : ProtocolConnection) (v : Number) (text : String)
    (rtDoc : RtData) : (insertCommand host now conn v text rtDoc).tag = rtDoc.tag := rfl

/-- Over loaded documents a write fails only for a name without a tag. -/
theorem writeData_load {connections : List ProtocolConnection} {realtimeData : List RtData}
    {conn : ProtocolConnection} {ref : ObjectRef} {value : DataValue} {tag : String}
    (htag : findTagByDomainItem (load connections realtimeData) ref.domain ref.item = tag)
    (hne : tag ≠ "") :
    writeData host now (load connections realtimeData) conn ref value =
      some (insertCommand host now conn (extractCommandValue host value).1
        (extractCommandValue host value).2
        (findRtDataForTag (load connections realtimeData) tag)) := by
  subst htag
  have hmem := (mem_findRtDataForTag (exists_of_findTagByDomainItem hne)).1
  have hid : (findRtDataForTag (load connections realtimeData)
      (findTagByDomainItem (load connections realtimeData) ref.domain ref.item)).ID ≠ .fin 0 := by
    intro hzero
    have hquery := (List.mem_filter.mp hmem).2
    rw [query, hzero] at hquery
    simp [Number.lt] at hquery
  rw [writeData, if_neg hne, if_neg hid]

end Commands

section Changes

variable (host : Host) (now : Date) (connections : List ProtocolConnection)

/-- What a change event does: it is skipped, writes a value under a name of the data model, or is
an update of an indication point. -/
inductive Effect where
  | skip
  | writeValue (ref : ObjectRef) (value : DataValue)
  | update (ip : Point) (value : DataValue)
  deriving DecidableEq

/-- What follows from the document of a change event; the change stream delivers only those of
`topicList`. -/
def onChange (m : DataModel) (tag : RtData) : Effect :=
  if tag.ID = .fin 0 then .skip
  else if isOwn connections tag then .skip
  else if tag.origin = "command" then
    if (m.cpByTag tag.tag).isSome then
      .writeValue ⟨tag.group1, sanitizePointName tag.tag⟩ (convertToDataValue host tag)
    else .skip
  else
    match m.ipByTag tag.tag with
    | none => .skip
    | some ip => .update ip (convertToICCPValue host now tag ip.iccpType)

/-- The name of the point an effect updates. -/
def Effect.ref : Effect → Option ObjectRef
  | .skip => none
  | .writeValue ref _ => some ref
  | .update ip _ => some ip.ref

variable {host now connections}

/-- The events that update an indication point. -/
theorem onChange_eq_update_iff {m : DataModel} {tag : RtData} {ip : Point} {value : DataValue} :
    onChange host now connections m tag = .update ip value ↔
      (tag.ID ≠ .fin 0 ∧ isOwn connections tag = false ∧ tag.origin ≠ "command") ∧
        m.ipByTag tag.tag = some ip ∧ value = convertToICCPValue host now tag ip.iccpType := by
  rw [onChange]
  split_ifs with hid hown hcommand hcontrol
  · simp [hid]
  · simp [hown]
  · simp [hcommand]
  · simp [hcommand]
  · cases hip : m.ipByTag tag.tag with
    | none => simp
    | some p =>
      simp only [Effect.update.injEq, Option.some.injEq, hid, hown, hcommand, ne_eq,
        not_false_eq_true, true_and]
      constructor
      · rintro ⟨rfl, rfl⟩
        exact ⟨rfl, rfl⟩
      · rintro ⟨rfl, rfl⟩
        exact ⟨rfl, rfl⟩

end Changes

end JsonScada.IccpServer.Server
