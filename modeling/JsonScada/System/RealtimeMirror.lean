/- path: JsonScada/System/RealtimeMirror
   layer: system
   digest: When the variables of the OPC-UA servers mirror the realtime documents. -/

import JsonScada.OpcUaServer.Startup

set_option autoImplicit false
set_option relaxedAutoImplicit false

namespace JsonScada.System.RealtimeMirror

open JsonScada.Lib.Machine
open JsonScada.OpcUaServer.Convert JsonScada.OpcUaServer.Startup

section Streams

/-- A document of the tag waits in the stream. -/
def Awaits (tag : String) : Phase → Prop
  | .watching _ queue => ∃ doc ∈ queue, doc.tag = tag
  | _ => False

/-- What waits in a stream is of the groups of its filter and of documents that are there; the last
of each tag is the present document. -/
structure Current (realtimeData : String → Option RtData) (filter : Filter)
    (queue : List RtData) : Prop where
  admitted : ∀ doc ∈ queue, filter.admits doc = true ∧
    ∃ present, realtimeData doc.tag = some present ∧ present.group1 = doc.group1 ∧
      present._id = doc._id
  last : ∀ (k : ℕ) (doc : RtData), queue[k]? = some doc →
    (∀ m : ℕ, k < m → ∀ other : RtData, queue[m]? = some other → other.tag ≠ doc.tag) →
    realtimeData doc.tag = some doc

variable {realtimeData : String → Option RtData} {filter : Filter} {queue : List RtData}
  {doc old : RtData}

theorem Current.nil : Current realtimeData filter [] :=
  ⟨fun _ h => (by cases h), fun k _ h => (by cases k <;> cases h)⟩

theorem Current.tail (h : Current realtimeData filter (doc :: queue)) :
    Current realtimeData filter queue where
  admitted d hd := h.admitted d (List.mem_cons_of_mem _ hd)
  last k d hk hlast := by
    refine h.last (k + 1) d hk fun m hm other hother => ?_
    obtain ⟨m, rfl⟩ : ∃ n, m = n + 1 := ⟨m - 1, by omega⟩
    exact hlast m (by omega) other hother

/-- A document that is the only one of its tag is the present one. -/
theorem Current.present_of_cons (h : Current realtimeData filter (doc :: queue))
    (honly : ∀ other ∈ queue, other.tag ≠ doc.tag) : realtimeData doc.tag = some doc := by
  refine h.last 0 doc rfl fun m hm other hother => ?_
  obtain ⟨m, rfl⟩ : ∃ n, m = n + 1 := ⟨m - 1, by omega⟩
  exact honly other (List.mem_of_getElem? hother)

theorem admits_congr {d : RtData} (hgroup : d.group1 = doc.group1) (hid : d._id = doc._id) :
    filter.admits d = filter.admits doc := by
  cases filter <;> simp [Filter.admits, hgroup, hid]

/-- An update keeps a stream current, whether its filter admits the document or not. -/
theorem Current.record (h : Current realtimeData filter queue)
    (hold : realtimeData doc.tag = some old) (hgroup : doc.group1 = old.group1)
    (hid : doc._id = old._id) :
    Current (Function.update realtimeData doc.tag (some doc)) filter
      (if filter.admits doc then queue ++ [doc] else queue) := by
  have hpresent : ∀ d ∈ queue, ∃ present, Function.update realtimeData doc.tag (some doc) d.tag =
      some present ∧ present.group1 = d.group1 ∧ present._id = d._id := by
    intro d hd
    obtain ⟨-, present, hd, hg, hi⟩ := h.admitted d hd
    by_cases htag : d.tag = doc.tag
    · rw [htag, hold] at hd
      obtain rfl := Option.some.inj hd
      exact ⟨doc, by rw [htag, Function.update_self], hgroup.trans hg, hid.trans hi⟩
    · exact ⟨present, by rw [Function.update_of_ne htag, hd], hg, hi⟩
  split_ifs with hadmits
  · refine ⟨fun d hd => ?_, fun k d hk hlast => ?_⟩
    · rcases List.mem_append.mp hd with hd | hd
      · exact ⟨(h.admitted d hd).1, hpresent d hd⟩
      · obtain rfl := List.mem_singleton.mp hd
        exact ⟨hadmits, d, by rw [Function.update_self], rfl, rfl⟩
    · rcases Nat.lt_or_ge k queue.length with hlt | hge
      · have hne : doc.tag ≠ d.tag := hlast queue.length hlt doc (by simp)
        rw [Function.update_of_ne hne.symm]
        rw [List.getElem?_append_left hlt] at hk
        refine h.last k d hk fun m hm other hother => hlast m hm other ?_
        rw [List.getElem?_append_left (List.getElem?_eq_some_iff.mp hother).1]
        exact hother
      · obtain rfl : d = doc := by
          rw [List.getElem?_append_right hge] at hk
          exact List.mem_singleton.mp (List.mem_of_getElem? hk)
        rw [Function.update_self]
  · refine ⟨fun d hd => ⟨(h.admitted d hd).1, hpresent d hd⟩,
      fun k d hk hlast => ?_⟩
    have hd := h.last k d hk hlast
    by_cases htag : d.tag = doc.tag
    · -- what waits is of the filter's groups, and the document has the same group
      obtain ⟨hadm, present, hpres, hg, hi⟩ := h.admitted d (List.mem_of_getElem? hk)
      rw [htag, hold] at hpres
      obtain rfl := Option.some.inj hpres
      rw [admits_congr (hg.symm.trans hgroup.symm) (hi.symm.trans hid.symm)] at hadm
      exact absurd hadm hadmits
    · rw [Function.update_of_ne htag]
      exact hd

/-- The documents of a stream before and after one of them is looked up. -/
theorem Current.lookup_places (h : Current realtimeData filter queue)
    (hkeyed : ∀ tag (d : RtData), realtimeData tag = some d → d.tag = tag) (place : ℕ) :
    (∀ (k : ℕ) (d : RtData), queue[k]? = some d → ∃ d' : RtData,
      (queue.modify place fun doc => (realtimeData doc.tag).getD doc)[k]? = some d' ∧
        d'.tag = d.tag) ∧
    ∀ (k : ℕ) (d : RtData),
      (queue.modify place fun doc => (realtimeData doc.tag).getD doc)[k]? = some d →
      ∃ d₀ : RtData, queue[k]? = some d₀ ∧ d.tag = d₀.tag ∧
        (d = d₀ ∨ realtimeData d₀.tag = some d) := by
  have hlooked : ∀ d ∈ queue, ∃ present, realtimeData d.tag = some present ∧
      present.tag = d.tag ∧ (realtimeData d.tag).getD d = present := by
    intro d hd
    obtain ⟨-, present, hpres, -⟩ := h.admitted d hd
    exact ⟨present, hpres, hkeyed _ _ hpres, by rw [hpres]; rfl⟩
  constructor
  · intro k d hd
    obtain ⟨present, -, htag, hget⟩ := hlooked d (List.mem_of_getElem? hd)
    rw [List.getElem?_modify, hd]
    by_cases hk : place = k
    · exact ⟨present, by simp [hk, hget], htag⟩
    · exact ⟨d, by simp [hk], rfl⟩
  · intro k d hk
    rw [List.getElem?_modify] at hk
    obtain ⟨d₀, hd₀, hd⟩ := Option.map_eq_some_iff.mp hk
    refine ⟨d₀, hd₀, ?_⟩
    split_ifs at hd with hplace
    · obtain ⟨present, hpres, htag, hget⟩ := hlooked d₀ (List.mem_of_getElem? hd₀)
      rw [hget] at hd
      subst hd
      exact ⟨htag, .inr hpres⟩
    · exact ⟨by rw [← hd], .inl hd.symm⟩

/-- The tags that wait stay the same. -/
theorem Current.awaits_lookup (h : Current realtimeData filter queue)
    (hkeyed : ∀ tag (d : RtData), realtimeData tag = some d → d.tag = tag) (place : ℕ)
    {tag : String} :
    Awaits tag (.watching filter
      (queue.modify place fun doc => (realtimeData doc.tag).getD doc)) ↔
      Awaits tag (.watching filter queue) := by
  obtain ⟨hto, hfrom⟩ := h.lookup_places hkeyed place
  constructor
  · rintro ⟨d, hd, rfl⟩
    obtain ⟨k, hk⟩ := List.mem_iff_getElem?.mp hd
    obtain ⟨d₀, hd₀, htag, -⟩ := hfrom k d hk
    exact ⟨d₀, List.mem_of_getElem? hd₀, htag.symm⟩
  · rintro ⟨d, hd, rfl⟩
    obtain ⟨k, hk⟩ := List.mem_iff_getElem?.mp hd
    obtain ⟨d', hd', htag⟩ := hto k d hk
    exact ⟨d', List.mem_of_getElem? hd', htag⟩

/-- A document that is looked up is the present one of its tag. -/
theorem Current.lookup (h : Current realtimeData filter queue)
    (hkeyed : ∀ tag (d : RtData), realtimeData tag = some d → d.tag = tag) (place : ℕ) :
    Current realtimeData filter
      (queue.modify place fun doc => (realtimeData doc.tag).getD doc) := by
  obtain ⟨hto, hfrom⟩ := h.lookup_places hkeyed place
  refine ⟨fun d hd => ?_, fun k d hk hlast => ?_⟩
  · obtain ⟨k, hk⟩ := List.mem_iff_getElem?.mp hd
    obtain ⟨d₀, hd₀, -, rfl | hpres⟩ := hfrom k d hk
    · exact h.admitted d (List.mem_of_getElem? hd₀)
    · obtain ⟨hadm, present, hpres', hg, hi⟩ := h.admitted d₀ (List.mem_of_getElem? hd₀)
      rw [hpres] at hpres'
      obtain rfl := Option.some.inj hpres'
      rw [admits_congr hg hi]
      exact ⟨hadm, d, by rw [hkeyed _ _ hpres]; exact hpres, rfl, rfl⟩
  · obtain ⟨d₀, hd₀, -, rfl | hpres⟩ := hfrom k d hk
    · refine h.last k d hd₀ fun m hm other hother => ?_
      obtain ⟨other', hother', htag⟩ := hto m other hother
      rw [← htag]
      exact hlast m hm other' hother'
    · rw [hkeyed _ _ hpres]
      exact hpres

end Streams

section Servers

variable {ι : Type} {host : Host} {connection : ι → Connection} {s t : State ι}
  {e : Event ι} {tag : String}

/-- A document of the tag waits in some stream. -/
def Pending (s : State ι) (tag : String) : Prop := ∃ i, Awaits tag (s.phase i)

/-- The find of the server has the document, for a variable that is still to be created. -/
def Found (s : State ι) (j : ι) (doc : RtData) : Prop :=
  ∃ res, s.phase j = .found res ∧ res doc.tag = some doc ∧ doc.origin ≠ "command"

/-- The condition on a step: an update of a tag that some server has found or has a variable of is
recorded by a stream; and an event is not delivered while a server has found an older document of
the tag and is still to create the variable, unless another event of the tag waits. -/
def Kept (s : State ι) : Event ι → Prop
  | .update doc =>
    (∃ j, (∃ old, old.tag = doc.tag ∧ Found s j old) ∨ (s.metrics j doc.tag).isSome) →
    ∃ i filter queue, s.phase i = .watching filter queue ∧ filter.admits doc = true
  | .deliver i => ∀ filter doc queue, s.phase i = .watching filter (doc :: queue) →
    (∀ j old, old.tag = doc.tag → Found s j old → s.realtimeData doc.tag = some old) ∨
    (∃ other ∈ queue, other.tag = doc.tag) ∨ ∃ k, k ≠ i ∧ Awaits doc.tag (s.phase k)
  | _ => True

/-- The variable holds the conversion of the present document of the tag. -/
def Mirrors (host : Host) (s : State ι) (tag : String) (h : Held) : Prop :=
  ∃ doc, s.realtimeData tag = some doc ∧ ∀ h', heldOf host doc = some h' → h = h'

/-- What is found and what the variables hold is present, or an event of the tag waits. -/
structure Mirrored (host : Host) (s : State ι) : Prop where
  keyed : ∀ (tag : String) (d : RtData), s.realtimeData tag = some d → d.tag = tag
  streams : ∀ (i : ι) (filter : Filter) (queue : List RtData),
    s.phase i = .watching filter queue → Current s.realtimeData filter queue
  results : ∀ (j : ι) (res : String → Option RtData) (tag : String) (d : RtData),
    s.phase j = .found res → res tag = some d → d.tag = tag
  found : ∀ (j : ι) (d : RtData), Found s j d →
    s.realtimeData d.tag = some d ∨ Pending s d.tag
  mirrors : ∀ (j : ι) (tag : String) (h : Held), s.metrics j tag = some h →
    Mirrors host s tag h ∨ Pending s tag

theorem awaits_record {doc : RtData} {phase : Phase} (h : Awaits tag phase) :
    Awaits tag (phase.record doc) := by
  cases phase with
  | watching filter queue =>
    obtain ⟨d, hd, htag⟩ := h
    rw [Phase.record]
    split_ifs with hadmits
    · exact ⟨d, List.mem_append_left _ hd, htag⟩
    · exact ⟨d, hd, htag⟩
  | starting => cases h
  | finding => cases h
  | found res => cases h
  | created filter => cases h

theorem record_eq_found {doc : RtData} {phase : Phase} {res : String → Option RtData} :
    phase.record doc = .found res ↔ phase = .found res := by
  cases phase <;> simp [Phase.record]

theorem record_eq_watching {doc : RtData} {phase : Phase} {filter : Filter}
    {queue : List RtData} : phase.record doc = .watching filter queue ↔
      ∃ queue₀, phase = .watching filter queue₀ ∧
        (if filter.admits doc then queue₀ ++ [doc] else queue₀) = queue := by
  cases phase with
  | watching filter₀ queue₀ =>
    rw [Phase.record, Phase.watching.injEq]
    constructor
    · rintro ⟨rfl, h⟩
      exact ⟨queue₀, rfl, h⟩
    · rintro ⟨queue₁, h, h₁⟩
      obtain ⟨rfl, rfl⟩ := Phase.watching.inj h
      exact ⟨rfl, h₁⟩
  | starting => simp [Phase.record]
  | finding => simp [Phase.record]
  | found res => simp [Phase.record]
  | created filter₀ => simp [Phase.record]

theorem mirrored_started (host : Host) (realtimeData : List RtData) :
    Mirrored host (started realtimeData : State ι) where
  keyed tag d h := by
    have hfind : realtimeData.find? (fun doc => doc.tag = tag) = some d := h
    have htag := List.find?_some hfind
    exact of_decide_eq_true htag
  streams i filter queue h := by cases h
  results j res tag d h := by cases h
  found j d h := by
    obtain ⟨res, hphase, -⟩ := h
    cases hphase
  mirrors j tag h hm := by cases hm

/-- An update that is kept. -/
theorem mirrored_update {doc old : RtData} (h : Mirrored host s) (hkept : Kept s (.update doc))
    (hold : s.realtimeData doc.tag = some old) (hvalue : IsValueUpdate old doc) :
    Mirrored host { s with
      realtimeData := Function.update s.realtimeData doc.tag (some doc)
      phase := fun i => (s.phase i).record doc } := by
  set t : State ι := { s with
    realtimeData := Function.update s.realtimeData doc.tag (some doc)
    phase := fun i => (s.phase i).record doc }
  have hself : t.realtimeData doc.tag = some doc := Function.update_self ..
  have hother : ∀ tag, tag ≠ doc.tag → t.realtimeData tag = s.realtimeData tag :=
    fun tag htag => Function.update_of_ne htag ..
  have hpending : ∀ tag, Pending s tag → Pending t tag := by
    rintro tag ⟨i, hi⟩
    exact ⟨i, awaits_record hi⟩
  have hrecorded : (∃ i filter queue, s.phase i = .watching filter queue ∧
      filter.admits doc = true) → Pending t doc.tag := by
    rintro ⟨i, filter, queue, hphase, hadmits⟩
    refine ⟨i, ?_⟩
    have hrecord : t.phase i = .watching filter (queue ++ [doc]) := by
      change (s.phase i).record doc = _
      rw [hphase, Phase.record, if_pos hadmits]
    rw [hrecord]
    exact ⟨doc, by simp, rfl⟩
  have hfound : ∀ j d, Found t j d → Found s j d := by
    rintro j d ⟨res, hphase, hres⟩
    exact ⟨res, record_eq_found.mp hphase, hres⟩
  refine ⟨fun tag d hd => ?_, fun i filter queue hphase => ?_, fun j res tag d hphase => ?_,
    fun j d hd => ?_, fun j tag v hv => ?_⟩
  · by_cases htag : tag = doc.tag
    · subst htag
      rw [hself] at hd
      exact congrArg RtData.tag (Option.some.inj hd).symm
    · rw [hother tag htag] at hd
      exact h.keyed tag d hd
  · obtain ⟨queue₀, hphase₀, rfl⟩ := record_eq_watching.mp hphase
    exact (h.streams i filter queue₀ hphase₀).record hold hvalue.2.2.2.1 hvalue.1
  · exact h.results j res tag d (record_eq_found.mp hphase)
  · by_cases htag : d.tag = doc.tag
    · rw [htag]
      exact .inr (hrecorded (hkept ⟨j, .inl ⟨d, htag, hfound j d hd⟩⟩))
    · rw [hother d.tag htag]
      exact (h.found j d (hfound j d hd)).imp_right (hpending d.tag)
  · by_cases htag : tag = doc.tag
    · subst htag
      have hsome : s.metrics j doc.tag = some v := hv
      exact .inr (hrecorded (hkept ⟨j, .inr (by rw [hsome]; rfl)⟩))
    · rcases h.mirrors j tag v hv with ⟨d, hd, hheld⟩ | hwaits
      · exact .inl ⟨d, (hother tag htag).trans hd, hheld⟩
      · exact .inr (hpending tag hwaits)

variable [DecidableEq ι]

/-- A step of one server that leaves the documents, the variables and the tags that wait alone. -/
theorem mirrored_phase (h : Mirrored host s) {i : ι} {phase : Phase}
    (hdb : t.realtimeData = s.realtimeData) (hmetrics : t.metrics = s.metrics)
    (hphase : t.phase = Function.update s.phase i phase)
    (hwaits : ∀ tag, Awaits tag phase ↔ Awaits tag (s.phase i))
    (hstream : ∀ filter queue, phase = .watching filter queue →
      Current s.realtimeData filter queue)
    (hfound : ∀ res tag d, phase = .found res → res tag = some d →
      s.realtimeData tag = some d) :
    Mirrored host t := by
  have hself : t.phase i = phase := by rw [hphase, Function.update_self]
  have hother : ∀ j, j ≠ i → t.phase j = s.phase j := fun j hj => by
    rw [hphase, Function.update_of_ne hj]
  have hpending : ∀ tag, Pending t tag ↔ Pending s tag := by
    refine fun tag => exists_congr fun j => ?_
    by_cases hj : j = i
    · rw [hj, hself]
      exact hwaits tag
    · rw [hother j hj]
  refine ⟨fun tag d hd => ?_, fun j filter queue hj => ?_, fun j res tag d hj hd => ?_,
    fun j d hd => ?_, fun j tag v hv => ?_⟩
  · rw [hdb] at hd
    exact h.keyed tag d hd
  · rw [hdb]
    by_cases hji : j = i
    · rw [hji, hself] at hj
      exact hstream filter queue hj
    · rw [hother j hji] at hj
      exact h.streams j filter queue hj
  · by_cases hji : j = i
    · rw [hji, hself] at hj
      exact h.keyed tag d (hfound res tag d hj hd)
    · rw [hother j hji] at hj
      exact h.results j res tag d hj hd
  · rw [hdb, hpending]
    obtain ⟨res, hj, hres, horigin⟩ := hd
    by_cases hji : j = i
    · rw [hji, hself] at hj
      exact .inl (hfound res d.tag d hj hres)
    · rw [hother j hji] at hj
      exact h.found j d ⟨res, hj, hres, horigin⟩
  · rw [hmetrics] at hv
    rw [hpending, Mirrors, hdb]
    exact h.mirrors j tag v hv

/-- The variables of a server are created of what its find has. -/
theorem mirrored_create {i : ι} {res : String → Option RtData} {filter : Filter}
    (h : Mirrored host s) (hphase : s.phase i = .found res) :
    Mirrored host { s with
      phase := Function.update s.phase i (.created filter)
      metrics := Function.update s.metrics i fun tag => (res tag).bind (variableOf host) } := by
  set t : State ι := { s with
    phase := Function.update s.phase i (.created filter)
    metrics := Function.update s.metrics i fun tag => (res tag).bind (variableOf host) }
  -- the same step without the variables
  have hstep : Mirrored host { s with phase := Function.update s.phase i (.created filter) } :=
    mirrored_phase h rfl rfl rfl (fun tag => by rw [hphase]; exact Iff.rfl)
      (fun _ _ hc => by cases hc) fun _ _ _ hc => by cases hc
  refine ⟨hstep.keyed, hstep.streams, hstep.results, hstep.found, fun j tag v hv => ?_⟩
  by_cases hj : j = i
  · subst hj
    have hcreated : (res tag).bind (variableOf host) = some v := by
      have hself : t.metrics j = fun tag => (res tag).bind (variableOf host) :=
        Function.update_self ..
      rw [hself] at hv
      exact hv
    obtain ⟨d, hd, hvar⟩ := Option.bind_eq_some_iff.mp hcreated
    obtain rfl := h.results j res tag d hphase hd
    rw [variableOf] at hvar
    split_ifs at hvar with horigin
    have hpending : Pending s d.tag → Pending t d.tag := by
      rintro ⟨k, hk⟩
      refine ⟨k, ?_⟩
      have hkj : k ≠ j := by
        rintro rfl
        rw [hphase] at hk
        exact hk
      have hsame : t.phase k = s.phase k := Function.update_of_ne hkj ..
      rw [hsame]
      exact hk
    refine (h.found j d ⟨res, hphase, hd, horigin⟩).imp (fun hpresent => ⟨d, hpresent, ?_⟩)
      hpending
    intro h' hh'
    rw [hvar] at hh'
    exact Option.some.inj hh'
  · have hsame : t.metrics j = s.metrics j := Function.update_of_ne hj ..
    rw [hsame] at hv
    exact hstep.mirrors j tag v hv

/-- The event at the head of a stream is delivered. -/
theorem mirrored_deliver {i : ι} {filter : Filter} {doc : RtData} {queue : List RtData}
    (h : Mirrored host s) (hkept : Kept s (.deliver i))
    (hphase : s.phase i = .watching filter (doc :: queue)) :
    Mirrored host { s with
      phase := Function.update s.phase i (.watching filter queue)
      metrics := fun j => setValue host doc (s.metrics j) } := by
  set t : State ι := { s with
    phase := Function.update s.phase i (.watching filter queue)
    metrics := fun j => setValue host doc (s.metrics j) }
  have hself : t.phase i = .watching filter queue := Function.update_self ..
  have hother : ∀ j, j ≠ i → t.phase j = s.phase j := fun j hj => Function.update_of_ne hj ..
  have hcurrent := h.streams i filter (doc :: queue) hphase
  have hpending : ∀ tag, tag ≠ doc.tag → Pending s tag → Pending t tag := by
    rintro tag htag ⟨j, hj⟩
    refine ⟨j, ?_⟩
    by_cases hji : j = i
    · subst hji
      rw [hphase] at hj
      obtain ⟨d, hd, rfl⟩ := hj
      rw [hself]
      exact ⟨d, (List.mem_cons.mp hd).resolve_left fun hc => htag (by rw [hc]), rfl⟩
    · rw [hother j hji]
      exact hj
  have hpresent : ¬ Pending t doc.tag → s.realtimeData doc.tag = some doc := by
    refine fun hnone => hcurrent.present_of_cons fun other hmem htag => hnone ⟨i, ?_⟩
    rw [hself]
    exact ⟨other, hmem, htag⟩
  have hfoundPhase : ∀ j res, t.phase j = .found res → s.phase j = .found res := by
    intro j res hj
    by_cases hji : j = i
    · subst hji
      rw [hself] at hj
      cases hj
    · rw [hother j hji] at hj
      exact hj
  refine ⟨h.keyed, fun j filter' queue' hj => ?_, fun j res tag d hj => ?_, fun j d hd => ?_,
    fun j tag v hv => ?_⟩
  · by_cases hji : j = i
    · subst hji
      rw [hself] at hj
      obtain ⟨rfl, rfl⟩ := Phase.watching.inj hj
      exact hcurrent.tail
    · rw [hother j hji] at hj
      exact h.streams j filter' queue' hj
  · exact h.results j res tag d (hfoundPhase j res hj)
  · obtain ⟨res, hj, hres⟩ := hd
    have hd : Found s j d := ⟨res, hfoundPhase j res hj, hres⟩
    by_cases htag : d.tag = doc.tag
    · rcases hkept filter doc queue hphase with hall | ⟨other, hmem, hsame⟩ | ⟨k, hk, hwaits⟩
      · rw [htag]
        exact .inl (hall j d htag hd)
      · refine .inr ⟨i, ?_⟩
        rw [hself]
        exact ⟨other, hmem, hsame.trans htag.symm⟩
      · refine .inr ⟨k, ?_⟩
        rw [hother k hk, htag]
        exact hwaits
    · exact (h.found j d hd).imp_right (hpending d.tag htag)
  · have hset : setValue host doc (s.metrics j) tag = some v := hv
    by_cases htag : tag = doc.tag
    · subst htag
      refine or_iff_not_imp_right.mpr fun hnone => ⟨doc, hpresent hnone, fun h' hh' => ?_⟩
      rw [setValue_self hh'] at hset
      obtain ⟨-, -, rfl⟩ := Option.map_eq_some_iff.mp hset
      rfl
    · rw [setValue_of_ne htag] at hset
      exact (h.mirrors j tag v hset).imp_right (hpending tag htag)

/-- What one step keeps. -/
theorem mirrored_step (h : Mirrored host s) (hkept : Kept s e)
    (hstep : step host connection s e = some t) : Mirrored host t := by
  cases e with
  | update doc =>
    rw [step] at hstep
    split at hstep
    · cases hstep
    · rename_i old hold
      split_ifs at hstep with hvalue
      obtain rfl := Option.some.inj hstep
      exact mirrored_update h hkept hold hvalue
  | register i =>
    rw [step] at hstep
    split at hstep
    · rename_i hphase
      obtain rfl := Option.some.inj hstep
      exact mirrored_phase h rfl rfl rfl (fun tag => by rw [hphase]; exact Iff.rfl)
        (fun _ _ hc => by cases hc) fun _ _ _ hc => by cases hc
    · cases hstep
  | find i =>
    rw [step] at hstep
    split at hstep
    · rename_i hphase
      obtain rfl := Option.some.inj hstep
      refine mirrored_phase h rfl rfl rfl (fun tag => by rw [hphase]; exact Iff.rfl)
        (fun _ _ hc => by cases hc) fun res tag d hres hd => ?_
      obtain rfl := Phase.found.inj hres
      exact (Option.filter_eq_some_iff.mp hd).1
    · cases hstep
  | create i =>
    rw [step] at hstep
    split at hstep
    · rename_i res hphase
      obtain rfl := Option.some.inj hstep
      exact mirrored_create h hphase
    · cases hstep
  | watch i =>
    rw [step] at hstep
    split at hstep
    · rename_i filter hphase
      obtain rfl := Option.some.inj hstep
      refine mirrored_phase h rfl rfl rfl (fun tag => ?_) (fun filter' queue hc => ?_)
        fun _ _ _ hc => by cases hc
      · rw [hphase]
        simp [Awaits]
      · obtain ⟨rfl, rfl⟩ := Phase.watching.inj hc
        exact Current.nil
    · cases hstep
  | lookup i place =>
    rw [step] at hstep
    split at hstep
    · rename_i filter queue hphase
      obtain rfl := Option.some.inj hstep
      have hcurrent := h.streams i filter queue hphase
      refine mirrored_phase h rfl rfl rfl (fun tag => ?_) (fun filter' queue' hc => ?_)
        fun _ _ _ hc => by cases hc
      · rw [hphase]
        exact hcurrent.awaits_lookup h.keyed place
      · obtain ⟨rfl, rfl⟩ := Phase.watching.inj hc
        exact hcurrent.lookup h.keyed place
    · cases hstep
  | deliver i =>
    rw [step] at hstep
    split at hstep
    · rename_i filter doc queue hphase
      obtain rfl := Option.some.inj hstep
      exact mirrored_deliver h hkept hphase
    · cases hstep

theorem mirrored_run {realtimeData : List RtData} {events : List (Event ι)}
    (hkept : Every (step host connection) Kept (started realtimeData) events)
    (hrun : run (step host connection) (started realtimeData) events = some t) :
    Mirrored host t :=
  run_invariant (fun _ _ _ hk h hs => mirrored_step h hk hs) hkept
    (mirrored_started host realtimeData) hrun

end Servers

section Settled

/-- In a run whose steps are all kept, once every server has its stream open and nothing waits, the
variables hold the conversions of the present documents, and are bad when these are invalid. -/
theorem mirrors_of_kept {ι : Type} [DecidableEq ι] (host : Host) (connection : ι → Connection)
    {realtimeData : List RtData} {events : List (Event ι)} {t : State ι}
    (hrun : run (step host connection) (started realtimeData) events = some t)
    (hkept : Every (step host connection) Kept (started realtimeData) events)
    (hsettled : ∀ i, ∃ filter, t.phase i = .watching filter [])
    {i : ι} {tag : String} {held : Held} {doc : RtData} {v : Conversion}
    (hheld : t.metrics i tag = some held) (hdoc : t.realtimeData tag = some doc)
    (hv : convertValueVariant host doc = some v) (htype : v.dataType.isSome) :
    held.variant = v ∧ (held.status = .bad ↔ doc.invalid = true) := by
  have hnone : ¬ Pending t tag := by
    rintro ⟨j, hj⟩
    obtain ⟨filter, hphase⟩ := hsettled j
    rw [hphase] at hj
    obtain ⟨d, hd, -⟩ := hj
    cases hd
  obtain ⟨present, hpresent, hmirrors⟩ :=
    ((mirrored_run hkept hrun).mirrors i tag held hheld).resolve_right hnone
  obtain rfl := Option.some.inj (hpresent.symm.trans hdoc)
  have hof : heldOf host present = some
      ⟨v, if present.invalid then .bad else .good, present.timeTagAtSource.getD 0⟩ := by
    rw [heldOf, hv, Option.filter_some, if_pos htype]
    rfl
  obtain rfl := hmirrors _ hof
  refine ⟨rfl, ?_⟩
  cases present.invalid <;> simp

/-- A server without topics, and a breaker. -/
def single : Unit → Connection := fun _ => ⟨.fin 2, "OPCUA-SERVER", false, []⟩

def breaker (value : ℤ) : RtData where
  _id := .fin 1
  tag := "KOR1TR1-2XCBR5238"
  type := "digital"
  value := .fin value
  group1 := some "KOR1"
  protocolSourceConnectionNumber := .fin 1

def noHost : Host where
  parseJson _ := none
  newDate _ := .null
  newNodeId _ _ _ := none

/-- The server starts, and then the breaker closes. -/
def closing : List (Event Unit) :=
  [.register (), .find (), .create (), .watch (), .update (breaker 1), .deliver ()]

theorem closing_kept : Every (step noHost single) Kept (started [breaker 0]) closing := by
  refine ⟨trivial, fun s₁ h₁ => ⟨trivial, fun s₂ h₂ => ⟨trivial, fun s₃ h₃ => ⟨trivial,
    fun s₄ h₄ => ⟨fun _ => ?_, fun s₅ h₅ => ⟨fun filter doc queue _ => .inl fun j old _ h => ?_,
      fun _ _ => trivial⟩⟩⟩⟩⟩⟩
  all_goals
    obtain rfl := Option.some.inj h₁
    obtain rfl := Option.some.inj h₂
    obtain rfl := Option.some.inj h₃
    obtain rfl := Option.some.inj h₄
  · exact ⟨(), none, [], rfl, rfl⟩
  · obtain rfl := Option.some.inj h₅
    obtain ⟨res, hphase, -⟩ := h
    cases hphase

theorem single_mirrors : ∃ t held,
    run (step noHost single) (started [breaker 0]) closing = some t ∧
    t.metrics () "KOR1TR1-2XCBR5238" = some held ∧
    held.variant = ⟨.value (.bool true), some .boolean, none⟩ ∧
    (held.status = .bad ↔ (breaker 1).invalid = true) := by
  obtain ⟨t, ht⟩ : ∃ t, run (step noHost single) (started [breaker 0]) closing = some t :=
    Option.isSome_iff_exists.mp (by decide)
  have hphase : (run (step noHost single) (started [breaker 0]) closing).map
      (fun t => t.phase ()) = some (.watching none []) := rfl
  have hheld : (run (step noHost single) (started [breaker 0]) closing).map
      (fun t => t.metrics () "KOR1TR1-2XCBR5238") =
      some (some ⟨⟨.value (.bool true), some .boolean, none⟩, .good, 0⟩) := rfl
  have hdoc : (run (step noHost single) (started [breaker 0]) closing).map
      (fun t => t.realtimeData "KOR1TR1-2XCBR5238") = some (some (breaker 1)) := rfl
  rw [ht] at hphase hheld hdoc
  have hheld := Option.some.inj hheld
  have hsettled : ∀ i, ∃ filter, t.phase i = .watching filter [] := fun i =>
    ⟨none, Option.some.inj hphase⟩
  exact ⟨t, _, ht, hheld, mirrors_of_kept noHost single ht closing_kept hsettled hheld
    (Option.some.inj hdoc) rfl rfl⟩

/-- The breaker closes between the find and the opening of the stream. -/
def closingEarly : List (Event Unit) :=
  [.register (), .find (), .create (), .update (breaker 1), .watch ()]

/-- The variable keeps the open position, with good quality. -/
theorem closing_lost : ∃ t held v,
    run (step noHost single) (started [breaker 0]) closingEarly = some t ∧
    (∀ i, ∃ filter, t.phase i = .watching filter []) ∧
    t.metrics () "KOR1TR1-2XCBR5238" = some held ∧
    t.realtimeData "KOR1TR1-2XCBR5238" = some (breaker 1) ∧
    convertValueVariant noHost (breaker 1) = some v ∧ v.dataType.isSome ∧
    held.variant ≠ v := by
  obtain ⟨t, ht⟩ : ∃ t, run (step noHost single) (started [breaker 0]) closingEarly = some t :=
    Option.isSome_iff_exists.mp (by decide)
  have hphase : (run (step noHost single) (started [breaker 0]) closingEarly).map
      (fun t => t.phase ()) = some (.watching none []) := rfl
  have hheld : (run (step noHost single) (started [breaker 0]) closingEarly).map
      (fun t => t.metrics () "KOR1TR1-2XCBR5238") =
      some (some ⟨⟨.value (.bool false), some .boolean, none⟩, .good, 0⟩) := rfl
  have hdoc : (run (step noHost single) (started [breaker 0]) closingEarly).map
      (fun t => t.realtimeData "KOR1TR1-2XCBR5238") = some (some (breaker 1)) := rfl
  rw [ht] at hphase hheld hdoc
  refine ⟨t, _, _, ht, fun _ => ⟨none, Option.some.inj hphase⟩, Option.some.inj hheld,
    Option.some.inj hdoc, rfl, rfl, fun h => ?_⟩
  cases h

end Settled

end JsonScada.System.RealtimeMirror
