/- path: JsonScada/System/Noninterference
   source: src/server_realtime_auth/index.js, READ SERVICE and HISTORY READ SERVICE
   digest: What the points and events of other groups have to do with the answer to a read. -/

import JsonScada.Server.History
import JsonScada.Server.Read

set_option autoImplicit false
set_option relaxedAutoImplicit false

namespace JsonScada.System.Noninterference

open JsonScada.Lib.Binary64 JsonScada.Lib.EcmaScript JsonScada.Lib.Collection
open JsonScada.Model.Documents JsonScada.Server.Request JsonScada.Server.Database
open JsonScada.Server.Read JsonScada.Server.History

/-- The points of the user's groups, and the system points anyone may read. -/
def visible (s : Session) (p : Point) : Bool := exempt p || s.inGroup p.group1

/-- Two databases in which the user sees the same. -/
structure SameView (s : Session) (db₁ db₂ : Db) : Prop where
  realtimeData : db₁.realtimeData.filter (visible s) = db₂.realtimeData.filter (visible s)
  soeData : db₁.soeData.filter (fun d => s.inGroup d.event.group1) =
    db₂.soeData.filter fun d => s.inGroup d.event.group1
  commandsQueue : db₁.commandsQueue = db₂.commandsQueue

section Points

variable (h : Host) (s : Session) (req : ReadRequest)

/-- What a read returns: the acknowledge of a command, and the points. -/
def returned : ReadReply → Option CommandAck × List Result
  | .commandAck a => (some a, [])
  | .results l => (none, l.filter fun r => r.statusCode = .Good)
  | _ => (none, [])

/-- The points returned, from the visible ones among those found. -/
def pointsOf (seen : List Point) : List Result :=
  match req.nodesToRead with
  | some nodes => match nodes.mapM ReadNode.nodeId with
    | none => []
    | some nodeIds => nodeIds.filterMap fun nodeId =>
      (seen.find? (isNode nodeId)).map (pointResult h req)
  | none => (seen.filter fun p => s.inGroup p.group1).map filteredResult

variable {h s req}

theorem filter_sort (sort : SortOrder) (p : Point → Bool) (c : List Point) :
    (sort.sort c).filter p = sort.sort (c.filter p) := by
  cases sort with
  | natural => rfl
  | byGroup => exact filter_sortBy _ p c
  | byAlarm => exact filter_sortBy _ p c

theorem mem_sort {sort : SortOrder} {c : List Point} {p : Point} : p ∈ sort.sort c ↔ p ∈ c := by
  cases sort with
  | natural => rfl
  | byGroup => exact mem_sortBy
  | byAlarm => exact mem_sortBy

/-- The visible ones among the points found are found among the visible ones. -/
theorem filter_sort_filter (sort : SortOrder) (p q : Point → Bool) (c : List Point) :
    (sort.sort (c.filter q)).filter p = sort.sort ((c.filter p).filter q) := by
  rw [filter_sort, List.filter_comm]

theorem mem_results {db : Db} {query : Find} {sort : SortOrder} {found : List Point}
    (hf : results db query sort = some found) {p : Point} (hp : p ∈ found) :
    p ∈ db.realtimeData := by
  cases query with
  | filter q =>
    obtain rfl := Option.some.inj hf
    exact List.mem_of_mem_filter (mem_sort.mp hp)
  | null => cases hf
  | rejected => cases hf

/-- A node stands for one point: a text for the one with the tag, a number for the one with
the key. -/
theorem isNode_unique {points : List Point} (hu : Db.UniqueKeys points) {nodeId : NodeId}
    {p q : Point} (hp : p ∈ points) (hq : q ∈ points) (hnp : isNode nodeId p = true)
    (hnq : isNode nodeId q = true) : p = q := by
  have hcases : ∀ r, isNode nodeId r = true → nodeId.id.getD .undefined = .str r.tag ∨
      nodeId.id.getD .undefined = .num r._id := by
    intro r hr
    rcases Bool.or_eq_true_iff.mp hr with htag | hid
    · exact .inl (JsVal.strictEq_eq htag)
    · exact .inr (JsVal.strictEq_eq hid)
  rcases hcases p hnp with hp' | hp' <;> rcases hcases q hnq with hq' | hq' <;>
    rw [hp'] at hq'
  · exact hu.tag p hp q hq (JsVal.str.inj hq')
  · cases hq'
  · cases hq'
  · exact hu._id p hp q hq (JsVal.num.inj hq')

/-- A node has a good result just for a visible point. -/
theorem guard_nodeResult (found : List Point) (nodeId : NodeId) :
    Option.guard (fun r : Result => r.statusCode = .Good) (nodeResult h s req found nodeId) =
      ((found.find? (isNode nodeId)).filter (visible s)).map (pointResult h req) := by
  unfold nodeResult
  cases found.find? (isNode nodeId) with
  | none => rfl
  | some p =>
    have hdenied : (!exempt p && !s.inGroup p.group1) = !visible s p := (Bool.not_or _ _).symm
    show Option.guard _ (if (!exempt p && !s.inGroup p.group1) = true then _ else _) = _
    rw [hdenied]
    cases hv : visible s p with
    | true =>
      rw [Option.filter_some_pos hv]
      rfl
    | false =>
      rw [Option.filter_some_neg (by simp [hv])]
      rfl

theorem pointsOf_nil : pointsOf h s req [] = [] := by
  unfold pointsOf
  cases req.nodesToRead with
  | none => rfl
  | some nodes =>
    show (match nodes.mapM ReadNode.nodeId with
      | none => []
      | some nodeIds => _) = ([] : List Result)
    cases nodes.mapM ReadNode.nodeId with
    | none => rfl
    | some nodeIds =>
      apply List.filterMap_eq_nil_iff.mpr
      intro nodeId _
      rfl

/-- The answer returns what the visible points give. -/
theorem returned_answer {found : List Point} (hu : Db.UniqueKeys found) :
    returned (answer h s req found) = (none, pointsOf h s req (found.filter (visible s))) := by
  unfold answer
  by_cases hnone : found = []
  · subst hnone
    rw [if_pos rfl, List.filter_nil, pointsOf_nil]
    rfl
  · rw [if_neg hnone]
    unfold pointsOf
    cases hnodes : req.nodesToRead with
    | none =>
      have hgood : ∀ r ∈ (found.filter fun p => s.inGroup p.group1).map filteredResult,
          decide (r.statusCode = .Good) = true := by
        intro r hr
        obtain ⟨p, -, rfl⟩ := List.mem_map.mp hr
        rfl
      have hseen : (found.filter (visible s)).filter (fun p => s.inGroup p.group1) =
          found.filter fun p => s.inGroup p.group1 := by
        rw [List.filter_filter]
        apply List.filter_congr
        intro p _
        cases hin : s.inGroup p.group1 <;> simp [visible, hin]
      simp only [returned]
      rw [List.filter_eq_self.mpr hgood, hseen]
    | some nodes =>
      cases hids : nodes.mapM ReadNode.nodeId with
      | none => simp only [hids, returned]
      | some nodeIds =>
        have hfind : ∀ nodeId : NodeId, (found.filter (visible s)).find? (isNode nodeId) =
            (found.find? (isNode nodeId)).filter (visible s) := fun nodeId =>
          find?_filter_of_unique fun p hp q hq hnp hnq => isNode_unique hu hp hq hnp hnq
        simp only [hids, returned, hfind, ← @guard_nodeResult h s req]
        rw [← List.filterMap_eq_filter, List.filterMap_map]
        rfl

/-- Reads return the same where the user sees the same. -/
theorem returned_readRequest {db₁ db₂ : Db} (hv : SameView s db₁ db₂)
    (hu₁ : Db.UniqueKeys db₁.realtimeData) (hu₂ : Db.UniqueKeys db₂.realtimeData) :
    returned (readRequest h s db₁ req) = returned (readRequest h s db₂ req) := by
  unfold readRequest
  split_ifs
  · rfl
  cases req.cmdHandles h with
  | cons handle handles =>
    show returned (readAck h s db₁ handle) = returned (readAck h s db₂ handle)
    unfold readAck
    rw [hv.commandsQueue]
  | nil =>
    cases search h req with
    | none => rfl
    | some q =>
      obtain ⟨query, sort⟩ := q
      have hsub : ∀ {db : Db} {found}, Db.UniqueKeys db.realtimeData →
          results db query sort = some found → Db.UniqueKeys found := fun hu hf =>
        ⟨fun p hp q hq => hu._id p (mem_results hf hp) q (mem_results hf hq),
          fun p hp q hq => hu.tag p (mem_results hf hp) q (mem_results hf hq)⟩
      cases query with
      | null => rfl
      | rejected => rfl
      | filter q =>
        have hseen : (sort.sort (db₁.realtimeData.filter q)).filter (visible s) =
            (sort.sort (db₂.realtimeData.filter q)).filter (visible s) := by
          rw [filter_sort_filter, hv.realtimeData, ← filter_sort_filter]
        show returned (answer h s req (sort.sort (db₁.realtimeData.filter q))) =
          returned (answer h s req (sort.sort (db₂.realtimeData.filter q)))
        rw [returned_answer (hsub hu₁ rfl), returned_answer (hsub hu₂ rfl), hseen]

end Points

section Events

variable (h : Host) (s : Session) (req : HistoryReadRequest)

/-- What a history read returns of events. -/
def eventsOf : HistoryReply → List EventResult
  | .events l => l
  | _ => []

/-- The limit lets all the events asked for through, unless it is rejected. -/
def Uncut (db : Db) : Prop :=
  ∀ n st, limitValues h req = .first n → filtering req = some st → (rows h s req db st).length ≤ n

/-- The events of a tag are all of one group. -/
def OneGroup (db : Db) : Prop :=
  ∀ d ∈ db.soeData, ∀ e ∈ db.soeData, d.event.tag = e.event.tag → d.event.group1 = e.event.group1

variable {h s req}

theorem filter_sortRows (p : SoeDoc × ℕ → Bool) (l : List (SoeDoc × ℕ)) :
    (sortRows h s req l).filter p = sortRows h s req (l.filter p) := by
  unfold sortRows
  split_ifs
  · exact filter_sortBy _ p l
  · exact filter_sortBy _ p l

/-- The rows of the user's groups come from the events of these groups. Of counts this is
so when the events of a tag are of one group. -/
theorem filter_rows {db : Db} (hone : req.isCount = true → OneGroup db)
    (st : Server.History.Filtering) :
    (rows h s req db st).filter (fun r => s.inGroup r.1.event.group1) =
      rows h s req { db with soeData := db.soeData.filter fun d => s.inGroup d.event.group1 } st := by
  unfold rows
  simp only [filter_sortRows]
  congr 1
  cases hc : req.isCount with
  | false =>
    simp only [Bool.false_eq_true, if_false]
    rw [List.filter_map, List.filter_comm]
    rfl
  | true =>
    simp only [if_true]
    -- the tag of an event tells whether it is of the user's groups
    let own : String → Bool := fun tag =>
      db.soeData.any fun d => d.event.tag = tag && s.inGroup d.event.group1
    have hown : ∀ d ∈ db.soeData, s.inGroup d.event.group1 = own d.event.tag := by
      intro d hd
      apply Bool.eq_iff_iff.mpr
      constructor
      · intro hin
        exact List.any_eq_true.mpr ⟨d, hd, by simp [hin]⟩
      · intro hany
        obtain ⟨e, he, htag⟩ := List.any_eq_true.mp hany
        obtain ⟨htag, hin⟩ := Bool.and_eq_true_iff.mp htag
        rw [hone hc d hd e he (by simpa using (of_decide_eq_true htag).symm)]
        exact hin
    rw [List.filter_comm]
    generalize hdocs : db.soeData.filter (fun d => accepts h s req st d.event) = docs
    have hmem : ∀ d ∈ docs, d ∈ db.soeData := by
      intro d hd
      rw [← hdocs] at hd
      exact List.mem_of_mem_filter hd
    calc (lastByKey (fun d => d.event.tag) docs).filter (fun r => s.inGroup r.1.event.group1)
        = (lastByKey (fun d => d.event.tag) docs).filter fun r => own r.1.event.tag :=
          List.filter_congr fun r hr => hown r.1 (hmem r.1 (mem_of_lastByKey hr))
      _ = lastByKey (fun d => d.event.tag) (docs.filter fun d => own d.event.tag) :=
          filter_lastByKey (fun d : SoeDoc => d.event.tag) own docs
      _ = lastByKey (fun d => d.event.tag) (docs.filter fun d => s.inGroup d.event.group1) := by
          rw [List.filter_congr fun d hd => hown d (hmem d hd)]

/-- The events of the answer are the rows of the user's groups. -/
theorem eventsOf_readEvents {db : Db} (hcut : Uncut h s req db) :
    eventsOf (readEvents h s db req) = match filtering req, limitValues h req with
      | some _, .rejected => []
      | some st, _ => ((rows h s req db st).filter fun r => s.inGroup r.1.event.group1).map
          eventResult
      | none, _ => [] := by
  unfold readEvents
  cases hst : filtering req with
  | none => rfl
  | some st =>
    have hproc : ∀ found, eventsOf (procArrayResults s found) =
        (found.filter fun r => s.inGroup r.1.event.group1).map eventResult := by
      intro found
      unfold procArrayResults
      split_ifs with hnil
      · rw [hnil]
        rfl
      · rfl
    simp only [hproc]
    cases hlim : limitValues h req with
    | rejected => rfl
    | all => rfl
    | first n =>
      show (((rows h s req db st).take n).filter _).map _ = _
      rw [List.take_of_length_le (hcut n st hlim hst)]

theorem eventsOf_congr {db₁ db₂ : Db} (hv : SameView s db₁ db₂)
    (hcut₁ : Uncut h s req db₁) (hcut₂ : Uncut h s req db₂)
    (hone : req.isCount = true → OneGroup db₁ ∧ OneGroup db₂) :
    eventsOf (readEvents h s db₁ req) = eventsOf (readEvents h s db₂ req) := by
  have hrows : ∀ st, (rows h s req db₁ st).filter (fun r => s.inGroup r.1.event.group1) =
      (rows h s req db₂ st).filter fun r => s.inGroup r.1.event.group1 := by
    intro st
    rw [filter_rows fun hc => (hone hc).1, filter_rows fun hc => (hone hc).2]
    unfold rows
    simp only [hv.soeData]
  simp only [eventsOf_readEvents hcut₁, eventsOf_readEvents hcut₂, hrows]

end Events

section Values

variable (h : Host) (s : Session) (req : HistoryReadRequest)

/-- The tag of a visible point. -/
def ownTag (db : Db) (tag : String) : Bool :=
  (db.realtimeData.filter (visible s)).any fun p => p.tag = tag

/-- A node that asks for such a tag. -/
def ownNode (own : String → Bool) (nodeId : Option NodeId) : Bool :=
  match nodeId.bind NodeId.id with
  | some (.str tag) => own tag
  | _ => false

/-- What a history read returns of values to the nodes that ask for such tags. -/
def valuesOf (own : String → Bool) : HistoryReply → List HistoryReadResult
  | .values l => l.filter fun r => ownNode own r.nodeId
  | _ => []

/-- Two historians that give the same records of such tags. -/
def SameRecords (own : String → Bool) : Option (List HistRow) → Option (List HistRow) → Prop
  | none, none => True
  | some rows₁, some rows₂ =>
    rows₁.filter (fun row => own row.tag) = rows₂.filter fun row => own row.tag
  | _, _ => False

variable {h s req}

theorem id_of_valueId {n : ReadNode} {id : JsVal}
    (hid : HistoryReadRequest.valueId h n = some id) : n.nodeId.bind NodeId.id = some id := by
  unfold HistoryReadRequest.valueId at hid
  split_ifs at hid
  obtain ⟨nodeId, hn, hid⟩ := Option.bind_eq_some_iff.mp hid
  split_ifs at hid
  rw [hn]
  exact hid

/-- The result of a node that asks for such a tag depends on the records of such tags. -/
theorem guard_historyReadResult {own : String → Bool} {rows₁ rows₂ : List HistRow}
    (hr : rows₁.filter (fun row => own row.tag) = rows₂.filter fun row => own row.tag)
    (n : ReadNode) :
    Option.guard (fun r : HistoryReadResult => ownNode own r.nodeId)
        (historyReadResult h req rows₁ n) =
      Option.guard (fun r : HistoryReadResult => ownNode own r.nodeId)
        (historyReadResult h req rows₂ n) := by
  unfold historyReadResult
  cases hid : HistoryReadRequest.valueId h n with
  | none => rfl
  | some id =>
    cases hown : ownNode own n.nodeId with
    | false => simp [Option.guard, hown]
    | true =>
      obtain ⟨tag, rfl, htag⟩ : ∃ tag, id = .str tag ∧ own tag = true := by
        unfold ownNode at hown
        rw [id_of_valueId hid] at hown
        cases id with
        | str tag => exact ⟨tag, rfl, hown⟩
        | _ => cases hown
      have hrows : ∀ rows : List HistRow, rows.filter (fun row => (JsVal.str tag).strictEq
          (.str row.tag)) = (rows.filter fun row => own row.tag).filter fun row =>
            (JsVal.str tag).strictEq (.str row.tag) := by
        intro rows
        rw [List.filter_filter]
        apply List.filter_congr
        intro row _
        cases heq : (JsVal.str tag).strictEq (.str row.tag) with
        | false => rfl
        | true =>
          have htags := JsVal.str.inj (JsVal.strictEq_eq heq)
          rw [← htags, htag]
          rfl
      simp only [hrows rows₁, hrows rows₂, hr]

theorem valuesOf_congr {own : String → Bool} {query₁ query₂ : List Char → Option (List HistRow)}
    (hq : SameRecords own (query₁ (histQuery h s req)) (query₂ (histQuery h s req))) :
    valuesOf own (readValues h s query₁ req) = valuesOf own (readValues h s query₂ req) := by
  unfold readValues
  cases h₁ : query₁ (histQuery h s req) with
  | none =>
    cases h₂ : query₂ (histQuery h s req) with
    | none => rfl
    | some rows₂ =>
      rw [h₁, h₂] at hq
      cases hq
  | some rows₁ =>
    cases h₂ : query₂ (histQuery h s req) with
    | none =>
      rw [h₁, h₂] at hq
      cases hq
    | some rows₂ =>
      rw [h₁, h₂] at hq
      cases req.nodesToRead with
      | none => rfl
      | some nodes =>
        simp only [valuesOf]
        rw [← List.filterMap_eq_filter, ← List.filterMap_eq_filter, List.filterMap_map,
          List.filterMap_map]
        exact List.filterMap_congr fun n _ => guard_historyReadResult hq n

end Values

section Requests

variable {h : Host} {s : Session} {db₁ db₂ : Db}

/-- Where the user sees the same in two databases, reads return the same points, event
queries the same events unless the limit cuts them, and the historian the same values of
the user's points. -/
theorem read_noninterference (hv : SameView s db₁ db₂) (hu₁ : Db.UniqueKeys db₁.realtimeData)
    (hu₂ : Db.UniqueKeys db₂.realtimeData) :
    (∀ req, returned (readRequest h s db₁ req) = returned (readRequest h s db₂ req)) ∧
      ∀ (req : HistoryReadRequest) (query₁ query₂ : List Char → Option (List HistRow)),
        (Uncut h s req db₁ → Uncut h s req db₂ →
          (req.isCount = true → OneGroup db₁ ∧ OneGroup db₂) →
          eventsOf (historyRead h s db₁ query₁ req) = eventsOf (historyRead h s db₂ query₂ req)) ∧
        (SameRecords (ownTag s db₁) (query₁ (histQuery h s req)) (query₂ (histQuery h s req)) →
          valuesOf (ownTag s db₁) (historyRead h s db₁ query₁ req) =
            valuesOf (ownTag s db₁) (historyRead h s db₂ query₂ req)) := by
  refine ⟨fun req => returned_readRequest hv hu₁ hu₂, fun req query₁ query₂ => ⟨?_, ?_⟩⟩
  · intro hcut₁ hcut₂ hone
    have hvalues : ∀ query, eventsOf (readValues h s query req) = [] := by
      intro query
      unfold readValues
      cases query (histQuery h s req) with
      | none => rfl
      | some rows => cases req.nodesToRead <;> rfl
    unfold historyRead
    cases req.refused h with
    | some code => rfl
    | none =>
      simp only []
      split_ifs
      · exact eventsOf_congr hv hcut₁ hcut₂ hone
      · rw [hvalues, hvalues]
  · intro hq
    have hevents : ∀ db, valuesOf (ownTag s db₁) (readEvents h s db req) = [] := by
      intro db
      unfold readEvents
      cases filtering req with
      | none => rfl
      | some st =>
        show valuesOf _ (procArrayResults s _) = []
        unfold procArrayResults
        split_ifs <;> rfl
    unfold historyRead
    cases req.refused h with
    | some code => rfl
    | none =>
      simp only []
      split_ifs
      · rw [hevents, hevents]
      · exact valuesOf_congr hq

end Requests

section Example

def event (p : Point) (text : String) : SoeEvent :=
  { tag := p.tag, pointKey := p._id, group1 := p.group1, description := p.description
    eventText := text, invalid := false, priority := .fin 0, timeTag := 4000
    timeTagAtSource := none, timeTagAtSourceOk := none, ack := 0 }

def station : Db :=
  { realtimeData := [breaker, pump], soeData := [⟨"a1", event breaker "OPEN"⟩] }

/-- The same station while the pump of another group is running. -/
def runningStation : Db :=
  { realtimeData := [breaker, { pump with value := .fin 1, alarmed := true }]
    soeData := [⟨"a0", event pump "ON"⟩, ⟨"a1", event breaker "OPEN"⟩] }

def readKeys (keys : List ℚ) : ReadRequest :=
  { nodesToRead := some (keys.map fun key =>
      { nodeId := some ⟨.num (.fin opcIdTypeNumber), some (.num (.fin key))⟩ }) }

/-- The events of the last hour. -/
def lastHour : HistoryReadRequest :=
  { historyReadDetails := some { parameterTypeId := some (.num (.fin 647)) }
    contentFilter := some [], «namespace» := some (.num (.fin NamespaceMongodb)) }

/-- The values of two tags in the last hour. -/
def values : HistoryReadRequest :=
  { historyReadDetails := some { parameterTypeId := some (.num (.fin 647)) }
    nodesToRead := some (["12KPR", "PUMP"].map fun tag =>
      { attributeId := some (.num (.fin 13))
        nodeId := some ⟨.num (.fin opcIdTypeString), some (.str tag)⟩ }) }

def record (p : Point) (value : ℚ) : HistRow := ⟨p.tag, .fin value, "00000000", 4000, none⟩

theorem sameView_station : SameView operator station runningStation := by
  constructor <;> decide +kernel

theorem uncut_lastHour {db : Db}
    (hlen : (rows Host.plain operator lastHour db {}).length ≤ 10000) :
    Uncut Host.plain operator lastHour db := by
  intro n st hn hst
  obtain rfl : ({} : Server.History.Filtering) = st := Option.some.inj hst
  have hlimit : limitValues Host.plain lastHour = .first 10000 := by decide +kernel
  obtain rfl : 10000 = n := Limit.first.inj (hlimit.symm.trans hn)
  exact hlen

/-- The breaker, its event and its values are returned, whatever the pump does. -/
theorem read_noninterference_station :
    (returned (readRequest Host.plain operator station (readKeys [30, 12])) =
        returned (readRequest Host.plain operator runningStation (readKeys [30, 12])) ∧
      (returned (readRequest Host.plain operator station (readKeys [30, 12]))).2.length = 1) ∧
    (eventsOf (historyRead Host.plain operator station (fun _ => none) lastHour) =
        eventsOf (historyRead Host.plain operator runningStation (fun _ => none) lastHour) ∧
      (eventsOf (historyRead Host.plain operator station (fun _ => none) lastHour)).length = 1) ∧
    valuesOf (ownTag operator station) (historyRead Host.plain operator station
        (fun _ => some [record breaker 0]) values) =
      valuesOf (ownTag operator station) (historyRead Host.plain operator runningStation
        (fun _ => some [record breaker 0, record pump 1]) values) := by
  have hu₁ : Db.UniqueKeys station.realtimeData :=
    Db.uniqueKeys_of_nodup (by decide +kernel) (by decide +kernel)
  have hu₂ : Db.UniqueKeys runningStation.realtimeData :=
    Db.uniqueKeys_of_nodup (by decide +kernel) (by decide +kernel)
  obtain ⟨hread, hhistory⟩ :=
    read_noninterference (h := Host.plain) sameView_station hu₁ hu₂
  refine ⟨⟨hread _, by decide +kernel⟩, ⟨?_, by decide +kernel⟩, ?_⟩
  · refine (hhistory lastHour _ _).1 (uncut_lastHour ?_) (uncut_lastHour ?_) ?_
    · decide +kernel
    · decide +kernel
    · intro hcount
      cases hcount
  · refine (hhistory values _ _).2 ?_
    show [record breaker 0].filter _ = [record breaker 0, record pump 1].filter _
    decide +kernel

/-- Two databases that are equal on the user's groups and on the beep point. -/
structure SameGroups (s : Session) (db₁ db₂ : Db) : Prop where
  realtimeData : db₁.realtimeData.filter
      (fun p => s.rights.group1List.contains p.group1 || p._id = beepPointKey) =
    db₂.realtimeData.filter fun p =>
      s.rights.group1List.contains p.group1 || p._id = beepPointKey
  soeData : db₁.soeData.filter (fun d => s.rights.group1List.contains d.event.group1) =
    db₂.soeData.filter fun d => s.rights.group1List.contains d.event.group1
  commandsQueue : db₁.commandsQueue = db₂.commandsQueue

def updatesCount (n : ℚ) : Point :=
  { _id := .fin (-2), tag := "_System.Status.DigitalUpdatesCnt", type := .analog
    group1 := "_System", value := .fin n }

/-- Anyone may read the count of the updates of all groups, and a refused node is told from
an unknown one. -/
theorem not_read_noninterference :
    (¬ ∀ (h : Host) (s : Session) (db₁ db₂ : Db), s.authentication = true →
        s.rights.group1List ≠ [] → Db.UniqueKeys db₁.realtimeData →
        Db.UniqueKeys db₂.realtimeData → SameGroups s db₁ db₂ →
        ∀ req, returned (readRequest h s db₁ req) = returned (readRequest h s db₂ req)) ∧
      ¬ ∀ (h : Host) (s : Session) (db₁ db₂ : Db), s.authentication = true →
        s.rights.group1List ≠ [] → Db.UniqueKeys db₁.realtimeData →
        Db.UniqueKeys db₂.realtimeData → SameView s db₁ db₂ →
        ∀ req, readRequest h s db₁ req = readRequest h s db₂ req := by
  constructor
  · intro hall
    have heq := hall Host.plain operator { realtimeData := [updatesCount 10] }
      { realtimeData := [updatesCount 11] } rfl (by decide)
      (Db.uniqueKeys_of_nodup (by decide) (by decide))
      (Db.uniqueKeys_of_nodup (by decide) (by decide))
      (by constructor <;> decide +kernel) (readKeys [-2])
    revert heq
    decide +kernel
  · intro hall
    have heq := hall Host.plain operator { realtimeData := [breaker] }
      { realtimeData := [breaker, pump] } rfl (by decide)
      (Db.uniqueKeys_of_nodup (by decide) (by decide))
      (Db.uniqueKeys_of_nodup (by decide +kernel) (by decide +kernel))
      (by constructor <;> decide +kernel) (readKeys [30, 12])
    revert heq
    decide +kernel

end Example

end JsonScada.System.Noninterference
