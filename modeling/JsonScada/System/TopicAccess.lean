/- path: JsonScada/System/TopicAccess
   layer: system
   digest: When the clients of an ICCP connection are confined to its topics. -/

import JsonScada.IccpServer.Sessions

set_option autoImplicit false
set_option relaxedAutoImplicit false

namespace JsonScada.System.TopicAccess

open JsonScada.Lib.Golang JsonScada.Lib.Machine
open JsonScada.Lib.Collection (findLast?_eq_some_iff)
open JsonScada.Model.Documents (Date)
open JsonScada.IccpServer.Points JsonScada.IccpServer.Server JsonScada.IccpServer.Sessions

variable {setup : Setup} {s t : State} {e : Event}

/-- The document is a command of the topics that is not blocked. -/
def Operable (topics : List String) (doc : RtData) : Prop :=
  contains topics doc.group1 = true ∧ doc.origin = "command" ∧ doc.commandBlocked = false

/-- What a client of a connection with topics may be given. -/
def Confined : Output → Prop
  | .access client domains dataSets => client.connection.topics ≠ [] →
    (∀ domain ∈ domains, contains client.connection.topics domain = true) ∧
    ∀ ds ∈ dataSets, ∀ item ∈ ds.items, contains client.connection.topics item.domain = true
  | .value client ref _ => client.connection.topics ≠ [] →
    contains client.connection.topics ref.domain = true
  | .report client ip _ => client.connection.topics ≠ [] →
    contains client.connection.topics ip.ref.domain = true
  | .command client _ stored => client.connection.topics ≠ [] →
    client.connection.commandsEnabled = true ∧
    ∃ doc ∈ stored, Operable client.connection.topics doc

/-- Every group that is published is among the topics. -/
def Covers (setup : Setup) (topics : List String) : Prop :=
  ∀ tag ∈ setup.allTags, isSkipped setup.connections tag = false →
    contains topics tag.group1 = true

/-- The condition on a step: a client of a connection with topics associates only where they cover
all groups, and writes only under a name that is cached for a tag that is operable now. -/
def Allowed (setup : Setup) (s : State) : Event → Prop
  | .associate client => client.connection ∈ setup.connections → IsNew s client →
    client.connection.topics ≠ [] → Covers setup client.connection.topics
  | .write client _ ref _ => client ∈ s.entries → setup.reachesHandler ref = true →
    client.connection.commandsEnabled = true → client.connection.topics ≠ [] →
    findTagByDomainItem setup.allTags ref.domain ref.item ≠ "" →
    ∃ doc ∈ s.realtimeData (findTagByDomainItem setup.allTags ref.domain ref.item),
      Operable client.connection.topics doc
  | _ => True

section Access

theorem contains_trimSpace (topics : List String) (group1 : String) :
    contains topics (trimSpace group1) = contains topics group1 := by
  rw [contains, contains, trimSpace_trimSpace]

/-- The domain of a point is one of the model. -/
theorem domain_mem_of_mem_points {p : Point} (hp : p ∈ setup.dataModel.points) :
    p.ref.domain ∈ setup.dataModel.domains := by
  obtain ⟨tag, htag, hskip, hpoint⟩ := mem_points_build.mp hp
  refine mem_domains_build.mpr ⟨tag, htag, hskip, ?_⟩
  rw [(pointOf_eq_some hpoint).2.1]

/-- A client is let into the domains of its topics alone just when they cover all groups. -/
theorem confined_access_iff {client : Client} :
    Confined (.access client (accessDomains setup.dataModel client.connection)
      setup.datasetDefs) ↔
    (client.connection.topics ≠ [] → Covers setup client.connection.topics) := by
  have hdomains : (∀ domain ∈ setup.dataModel.domains,
      contains client.connection.topics domain = true) ↔
      Covers setup client.connection.topics := by
    constructor
    · intro h tag htag hskip
      rw [← contains_trimSpace]
      exact h _ (mem_domains_build.mpr ⟨tag, htag, hskip, rfl⟩)
    · intro h domain hdomain
      obtain ⟨tag, htag, hskip, rfl⟩ := mem_domains_build.mp hdomain
      rw [contains_trimSpace]
      exact h tag htag hskip
  rw [accessDomains_eq, Confined]
  refine forall_congr' fun _ => ?_
  rw [hdomains]
  refine and_iff_left_of_imp fun hcovers ds hds item hitem => ?_
  obtain ⟨domain, hdomain, hds⟩ := List.mem_flatMap.mp hds
  rw [domain_of_mem_items hds hitem]
  exact hdomains.mpr hcovers domain hdomain

end Access

section Runs

/-- What a client was given access to is among the outputs, for each client that is associated or
has changes pending; only points of the model are pending. -/
structure Linked (setup : Setup) (s : State) : Prop where
  entries : ∀ client ∈ s.entries,
    .access client (accessDomains setup.dataModel client.connection) setup.datasetDefs ∈ s.outputs
  pending : ∀ u ∈ s.pending, .access u.client (accessDomains setup.dataModel u.client.connection)
    setup.datasetDefs ∈ s.outputs ∧ u.ip ∈ setup.dataModel.points

/-- A client whose access was confined has topics that cover all groups. -/
theorem covers_of_access {client : Client} (hconfined : ∀ o ∈ s.outputs, Confined o)
    (haccess : .access client (accessDomains setup.dataModel client.connection)
      setup.datasetDefs ∈ s.outputs)
    (htopics : client.connection.topics ≠ []) {domain : String}
    (hdomain : domain ∈ setup.dataModel.domains) :
    contains client.connection.topics domain = true := by
  have haccess' := hconfined _ haccess
  rw [Confined, accessDomains_eq] at haccess'
  exact (haccess' htopics).1 domain hdomain

/-- Outputs are only added, and what is linked stays linked. -/
theorem linked_step (hlinked : Linked setup s) (hstep : step setup s e = some t) :
    Linked setup t := by
  cases e with
  | store doc =>
    obtain rfl := Option.some.inj hstep
    exact ⟨hlinked.entries, hlinked.pending⟩
  | delete tag =>
    obtain rfl := Option.some.inj hstep
    exact ⟨hlinked.entries, hlinked.pending⟩
  | deliver now doc =>
    rw [step] at hstep
    split_ifs at hstep
    cases heffect : onChange setup.host now setup.connections setup.dataModel doc with
    | skip =>
      simp only [heffect, Option.some.injEq] at hstep
      subst hstep
      exact hlinked
    | writeValue ref value =>
      simp only [heffect, Option.some.injEq] at hstep
      subst hstep
      exact ⟨hlinked.entries, hlinked.pending⟩
    | update ip value =>
      simp only [heffect, Option.some.injEq] at hstep
      subst hstep
      refine ⟨hlinked.entries, fun u hu => ?_⟩
      rcases mem_bufferChange.mp hu with ⟨⟨hclient, -⟩, rfl, -⟩ | ⟨hu, -⟩
      · exact ⟨hlinked.entries _ hclient,
          (of_ipByTag (onChange_eq_update_iff.mp heffect).2.1).1⟩
      · exact hlinked.pending u hu
  | flush order =>
    rw [step] at hstep
    split_ifs at hstep
    obtain rfl := Option.some.inj hstep
    exact ⟨fun client hclient => List.mem_append_left _ (hlinked.entries client hclient),
      fun u hu => (by cases hu)⟩
  | associate client =>
    rw [step] at hstep
    split_ifs at hstep
    obtain rfl := Option.some.inj hstep
    refine ⟨fun c hc => ?_, fun u hu => ?_⟩
    · rcases List.mem_append.mp hc with hc | hc
      · exact List.mem_append_left _ (hlinked.entries c hc)
      · obtain rfl := List.mem_singleton.mp hc
        exact List.mem_append_right _ (List.mem_singleton_self _)
    · exact ⟨List.mem_append_left _ (hlinked.pending u hu).1, (hlinked.pending u hu).2⟩
  | disconnect client =>
    obtain rfl := Option.some.inj hstep
    exact ⟨fun c hc => hlinked.entries c (List.mem_of_mem_filter hc), hlinked.pending⟩
  | read client ref =>
    rw [step] at hstep
    split_ifs at hstep
    split at hstep
    · cases hstep
    · obtain rfl := Option.some.inj hstep
      exact ⟨fun c hc => List.mem_append_left _ (hlinked.entries c hc),
        fun u hu => ⟨List.mem_append_left _ (hlinked.pending u hu).1, (hlinked.pending u hu).2⟩⟩
  | write client now ref value =>
    rw [step] at hstep
    split_ifs at hstep
    · split at hstep
      · obtain rfl := Option.some.inj hstep
        exact hlinked
      · obtain rfl := Option.some.inj hstep
        exact ⟨fun c hc => List.mem_append_left _ (hlinked.entries c hc),
          fun u hu => ⟨List.mem_append_left _ (hlinked.pending u hu).1,
            (hlinked.pending u hu).2⟩⟩
    · obtain rfl := Option.some.inj hstep
      exact hlinked

theorem confined_append_iff (hconfined : ∀ o ∈ s.outputs, Confined o) (o : Output) :
    (∀ o' ∈ s.outputs ++ [o], Confined o') ↔ Confined o := by
  simp only [List.forall_mem_append, List.forall_mem_singleton]
  exact and_iff_right hconfined

/-- A write gives a command for the tag of the item, if there is one. -/
theorem confined_write {client : Client} {now : Date} {ref : ObjectRef} {value : DataValue}
    (hstep : step setup s (.write client now ref value) = some t)
    (hconfined : ∀ o ∈ s.outputs, Confined o) :
    (∀ o ∈ t.outputs, Confined o) ↔ Allowed setup s (.write client now ref value) := by
  rw [step] at hstep
  split_ifs at hstep with hguard henabled
  · by_cases hne : findTagByDomainItem setup.allTags ref.domain ref.item = ""
    · have hnone : writeData setup.host now setup.allTags client.connection ref value = none := by
        rw [writeData, if_pos hne]
      rw [hnone] at hstep
      obtain rfl := Option.some.inj hstep
      exact iff_of_true hconfined fun _ _ _ _ h => absurd hne h
    · have hsome : writeData setup.host now setup.allTags client.connection ref value =
          some (insertCommand setup.host now client.connection
            (extractCommandValue setup.host value).1 (extractCommandValue setup.host value).2
            (findRtDataForTag setup.allTags
              (findTagByDomainItem setup.allTags ref.domain ref.item))) :=
        writeData_load rfl hne
      have htag := (mem_findRtDataForTag (exists_of_findTagByDomainItem hne)).2
      rw [hsome] at hstep
      obtain rfl := Option.some.inj hstep
      rw [confined_append_iff hconfined, Confined, Allowed, tag_insertCommand, htag]
      exact ⟨fun h _ _ _ htopics _ => (h htopics).2,
        fun h htopics => ⟨henabled, h hguard.1 hguard.2 henabled htopics hne⟩⟩
  · obtain rfl := Option.some.inj hstep
    exact iff_of_true hconfined fun _ _ h => absurd h henabled

/-- After confined outputs a step gives a confined one exactly when it is allowed. -/
theorem confined_step (hlinked : Linked setup s) (hstep : step setup s e = some t)
    (hconfined : ∀ o ∈ s.outputs, Confined o) :
    (∀ o ∈ t.outputs, Confined o) ↔ Allowed setup s e := by
  cases e with
  | store doc =>
    obtain rfl := Option.some.inj hstep
    exact iff_of_true hconfined trivial
  | delete tag =>
    obtain rfl := Option.some.inj hstep
    exact iff_of_true hconfined trivial
  | deliver now doc =>
    rw [step] at hstep
    split_ifs at hstep
    refine iff_of_true ?_ trivial
    split at hstep
    all_goals
      obtain rfl := Option.some.inj hstep
      exact hconfined
  | flush order =>
    rw [step] at hstep
    split_ifs at hstep with horder
    obtain rfl := Option.some.inj hstep
    refine iff_of_true (fun o ho => ?_) trivial
    rcases List.mem_append.mp ho with ho | ho
    · exact hconfined o ho
    · obtain ⟨u, hu, rfl⟩ := List.mem_map.mp ho
      obtain ⟨haccess, hpoint⟩ := hlinked.pending u (horder.1.mem_iff.mp hu)
      intro htopics
      exact covers_of_access hconfined haccess htopics (domain_mem_of_mem_points hpoint)
  | associate client =>
    rw [step] at hstep
    split_ifs at hstep with hguard
    obtain rfl := Option.some.inj hstep
    rw [confined_append_iff hconfined, confined_access_iff, Allowed]
    exact ⟨fun h _ _ => h, fun h => h hguard.1 hguard.2⟩
  | disconnect client =>
    obtain rfl := Option.some.inj hstep
    exact iff_of_true hconfined trivial
  | read client ref =>
    rw [step] at hstep
    split_ifs at hstep with hguard
    split at hstep
    · cases hstep
    · obtain rfl := Option.some.inj hstep
      rw [confined_append_iff hconfined]
      refine iff_of_true (fun htopics => ?_) trivial
      rw [accessDomains_eq] at hguard
      exact covers_of_access hconfined (hlinked.entries client hguard.1) htopics hguard.2
  | write client now ref value => exact confined_write hstep hconfined

/-- The outputs of a run are confined exactly when every step is allowed. -/
theorem confined_iff (setup : Setup) (events : List Event) :
    (∀ t, Visits (step setup) (started setup) events t → ∀ o ∈ t.outputs, Confined o) ↔
      Every (step setup) (Allowed setup) (started setup) events := by
  refine visits_iff_every (A := fun _ _ => True) (J := Linked setup) ?_ ?_
    (every_of_forall_mem fun _ _ => trivial) ⟨fun _ h => (by cases h), fun _ h => (by cases h)⟩
    (fun _ h => (by cases h))
  · intro s e t _ hlinked hstep
    exact ⟨linked_step hlinked hstep, confined_step hlinked hstep⟩
  · intro s e _ hstuck
    cases e with
    | associate client =>
      intro hconn hnew
      rw [step, if_pos ⟨hconn, hnew⟩] at hstuck
      cases hstuck
    | write client now ref value =>
      intro hclient hreaches henabled
      rw [step, if_pos ⟨hclient, hreaches⟩, if_pos henabled] at hstuck
      split at hstuck <;> cases hstuck
    | _ => trivial

def tagOfB : RtData := { ID := .fin 1, tag := "T", type := "analog", group1 := "B" }

/-- Two connections with a topic each, and a tag of the second one. -/
def twoTopics : Setup where
  host := ⟨fun _ => "", fun _ => (.fin 0, false), fun _ => ""⟩
  start := 0
  connections := [⟨1, "A", false, ["A"], "1.1.999.2"⟩, ⟨2, "B", false, ["B"], "1.1.999.3"⟩]
  realtimeData := [tagOfB]
  datasetChunkSize := 0
  keyOrder := id
  keyOrder_perm := List.Perm.refl
  reachesHandler := fun _ => true

/-- The client of the first connection is let into the domain of the second. -/
theorem twoTopics_access : ¬ ∀ (setup : Setup) (events : List Event) (t : State),
    Visits (step setup) (started setup) events t → ∀ o ∈ t.outputs, Confined o := by
  intro h
  let client : Client := ⟨0, ⟨1, "A", false, ["A"], "1.1.999.2"⟩⟩
  have hstep := @step_associate twoTopics (started twoTopics) client List.mem_cons_self
    ⟨List.not_mem_nil, fun _ h => (by cases h)⟩
  have haccess := h twoTopics [.associate client] _
    ⟨_, List.prefix_refl _, run_cons_eq_some.mpr ⟨_, hstep, rfl⟩⟩ _
    (List.mem_append_right _ (List.mem_singleton_self _))
  have hquery : query twoTopics.connections tagOfB = true := by decide
  have hskip : isSkipped twoTopics.connections tagOfB = false := by decide
  have hcovers := confined_access_iff.mp haccess (by decide) tagOfB
    (List.mem_filter.mpr ⟨List.mem_singleton_self _, hquery⟩) hskip
  exact absurd hcovers (by decide)

end Runs

end JsonScada.System.TopicAccess
