/- path: JsonScada/System/ModelFreshness
   layer: system
   digest: When the shared ICCP data model follows the changes of its tags. -/

import JsonScada.IccpServer.Sessions

set_option autoImplicit false
set_option relaxedAutoImplicit false

namespace JsonScada.System.ModelFreshness

open JsonScada.Lib.Golang JsonScada.Lib.Machine JsonScada.Lib.Coalescing
open JsonScada.Model.Documents (Date)
open JsonScada.IccpServer.Points JsonScada.IccpServer.Server JsonScada.IccpServer.Sessions

variable {setup : Setup} {s t : State} {e : Event} {p : Point}

section Deliveries

/-- What a delivered document of the tag of a point converts to. -/
def conversion (setup : Setup) (p : Point) : Event → Option DataValue
  | .deliver now doc =>
    if doc.tag = p.tag then some (convertToICCPValue setup.host now doc p.iccpType) else none
  | _ => none

/-- The conversions of the change events delivered for the tag of a point, in order. -/
def conversions (setup : Setup) (p : Point) (events : List Event) : List DataValue :=
  events.filterMap (conversion setup p)

/-- The conversion of the last one; the value the point was built with while there is none. -/
def lastValue (setup : Setup) (p : Point) (events : List Event) : DataValue :=
  (conversions setup p events).getLast?.getD p.value

/-- The point is the indication point of its tag. -/
def IsIndication (setup : Setup) (p : Point) : Prop := setup.dataModel.ipByTag p.tag = some p

/-- The document is one that updates an indication point. -/
structure Updates (setup : Setup) (doc : RtData) : Prop where
  ID : doc.ID ≠ .fin 0
  source : isOwn setup.connections doc = false
  origin : doc.origin ≠ "command"

/-- The client is associated, and its topics let the group pass. -/
def Reached (s : State) (group1 : String) (client : Client) : Prop :=
  client ∈ s.entries ∧ admits client.connection group1 = true

instance (s : State) (group1 : String) (client : Client) : Decidable (Reached s group1 client) :=
  inferInstanceAs (Decidable (_ ∧ _))

/-- The condition on a change event of an indication point: it updates the point, some client is
reached, and no change of the point is pending for another one. -/
def Stored (setup : Setup) (s : State) : Event → Prop
  | .deliver _ doc => ∀ p, setup.dataModel.ipByTag doc.tag = some p →
    Updates setup doc ∧ (∃ client, Reached s doc.group1 client) ∧
      ∀ u ∈ s.pending, u.ip = p → Reached s doc.group1 u.client
  | _ => True

/-- The topics of the client let the change events of the point pass. -/
def LetPass (p : Point) (client : Client) : Event → Prop
  | .deliver _ doc => doc.tag = p.tag → admits client.connection doc.group1 = true
  | _ => True

/-- A delivered document of the tag of a point is a change of the point. -/
theorem onChange_of_updates (hp : IsIndication setup p) {doc : RtData} (htag : doc.tag = p.tag)
    (hdoc : Updates setup doc) (now : Date) :
    onChange setup.host now setup.connections setup.dataModel doc =
      .update p (convertToICCPValue setup.host now doc p.iccpType) := by
  refine onChange_eq_update_iff.mpr ⟨⟨hdoc.ID, hdoc.source, hdoc.origin⟩, ?_, rfl⟩
  rw [htag]
  exact hp

/-- Documents of other tags change other points. -/
theorem ip_ne_of_tag_ne {doc : RtData} (htag : doc.tag ≠ p.tag) {now : Date} {ip : Point}
    {value : DataValue}
    (h : onChange setup.host now setup.connections setup.dataModel doc = .update ip value) :
    p ≠ ip := by
  rintro rfl
  exact htag (of_ipByTag (onChange_eq_update_iff.mp h).2.1).2.2.symm

/-- What a delivery was: a change of the point; or of another point, of a control point, or of
none. -/
theorem deliver_cases (hp : IsIndication setup p) {now : Date} {doc : RtData}
    (hstored : Stored setup s (.deliver now doc))
    (hstep : step setup s (.deliver now doc) = some t) :
    (doc.tag = p.tag ∧ t = { s with
      pending := bufferChange s.entries doc.group1 p
        (convertToICCPValue setup.host now doc p.iccpType) s.pending }) ∨
    (doc.tag ≠ p.tag ∧ (t = s ∨
      (∃ ref value, t = { s with
        held := fun q =>
          if s.entries ≠ [] ∧ q.kind = .control ∧ q.ref = ref then value else s.held q }) ∨
      ∃ ip value, p ≠ ip ∧
        t = { s with pending := bufferChange s.entries doc.group1 ip value s.pending })) := by
  rw [step] at hstep
  split_ifs at hstep
  by_cases htag : doc.tag = p.tag
  · have hupdates := (hstored p (by rw [htag]; exact hp)).1
    rw [onChange_of_updates hp htag hupdates] at hstep
    exact .inl ⟨htag, (Option.some.inj hstep).symm⟩
  · refine .inr ⟨htag, ?_⟩
    cases heffect : onChange setup.host now setup.connections setup.dataModel doc with
    | skip =>
      rw [heffect] at hstep
      exact .inl (Option.some.inj hstep).symm
    | writeValue ref value =>
      rw [heffect] at hstep
      exact .inr (.inl ⟨ref, value, (Option.some.inj hstep).symm⟩)
    | update ip value =>
      rw [heffect] at hstep
      exact .inr (.inr ⟨ip, value, ip_ne_of_tag_ne htag heffect, (Option.some.inj hstep).symm⟩)

end Deliveries

section SharedModel

/-- What is pending for a point is the last value, and the point holds it when nothing is. -/
structure Follows (p : Point) (last : DataValue) (s : State) : Prop where
  pending : ∀ u ∈ s.pending, u.ip = p → u.value = last
  held : (∃ u ∈ s.pending, u.ip = p) ∨ s.held p = last

/-- A flush in any order stores the last value. -/
theorem Follows.flush {last : DataValue} (h : Follows p last s) {order : List Pending}
    (horder : order.Perm s.pending) : applyUpdates s.held order p = last := by
  rw [applyUpdates]
  by_cases hex : ∃ u ∈ s.pending, u.ip = p
  · refine applyAll_of_forall_eq (fun u hu => h.pending u (horder.mem_iff.mp hu)) ?_
    obtain ⟨u, hu, hip⟩ := hex
    exact ⟨u, horder.mem_iff.mpr hu, hip⟩
  · rw [applyAll_of_forall_ne fun u hu hip => hex ⟨u, horder.mem_iff.mp hu, hip⟩]
    exact h.held.resolve_left hex

/-- The change event of a point is what it follows from then on. -/
theorem follows_bufferChange {group1 : String} {value : DataValue}
    (hreached : ∃ client, Reached s group1 client)
    (halone : ∀ u ∈ s.pending, u.ip = p → Reached s group1 u.client) :
    Follows p value { s with pending := bufferChange s.entries group1 p value s.pending } := by
  refine ⟨fun u hu hip => ?_, .inl ?_⟩
  · rcases mem_bufferChange.mp hu with ⟨-, -, hvalue⟩ | ⟨hu, hother⟩
    · exact hvalue
    · exact absurd ⟨halone u hu hip, hip⟩ hother
  · obtain ⟨client, hclient⟩ := hreached
    exact ⟨⟨client, p, value⟩, mem_bufferChange.mpr (.inl ⟨hclient, rfl, rfl⟩), rfl⟩

/-- The change of another point leaves it alone. -/
theorem Follows.bufferChange_of_ne {last : DataValue} (h : Follows p last s) {group1 : String}
    {ip : Point} (hne : p ≠ ip) {value : DataValue} :
    Follows p last { s with pending := bufferChange s.entries group1 ip value s.pending } := by
  refine ⟨fun u hu hip => ?_, ?_⟩
  · rcases mem_bufferChange.mp hu with ⟨-, hip', -⟩ | ⟨hu, -⟩
    · exact absurd (hip.symm.trans hip') hne
    · exact h.pending u hu hip
  · rcases h.held with ⟨u, hu, hip⟩ | hheld
    · refine .inl ⟨u, mem_bufferChange.mpr (.inr ⟨hu, fun hc => hne ?_⟩), hip⟩
      exact hip.symm.trans hc.2
    · exact .inr hheld

/-- What one step keeps. -/
theorem follows_step (hp : IsIndication setup p) {events : List Event}
    (h : Follows p (lastValue setup p events) s) (hstored : Stored setup s e)
    (hstep : step setup s e = some t) : Follows p (lastValue setup p (events ++ [e])) t := by
  have hother : conversion setup p e = none →
      lastValue setup p (events ++ [e]) = lastValue setup p events := by
    intro hnone
    simp only [lastValue, conversions, List.filterMap_append, List.filterMap_cons, hnone,
      List.filterMap_nil, List.append_nil]
  cases e with
  | store doc =>
    obtain rfl := Option.some.inj hstep
    rw [hother rfl]
    exact ⟨h.pending, h.held⟩
  | delete tag =>
    obtain rfl := Option.some.inj hstep
    rw [hother rfl]
    exact ⟨h.pending, h.held⟩
  | deliver now doc =>
    rcases deliver_cases hp hstored hstep with ⟨htag, rfl⟩ |
      ⟨htag, rfl | ⟨ref, value, rfl⟩ | ⟨ip, value, hne, rfl⟩⟩
    · have hlast : lastValue setup p (events ++ [.deliver now doc]) =
          convertToICCPValue setup.host now doc p.iccpType := by
        simp [lastValue, conversions, conversion, htag]
      obtain ⟨-, hreached, halone⟩ := hstored p (by rw [htag]; exact hp)
      rw [hlast]
      exact follows_bufferChange hreached halone
    · rw [hother (if_neg htag)]
      exact h
    · rw [hother (if_neg htag)]
      refine ⟨h.pending, h.held.imp_right fun hheld => ?_⟩
      exact (if_neg fun hc => (of_ipByTag hp).2.1 hc.2.1).trans hheld
    · rw [hother (if_neg htag)]
      exact h.bufferChange_of_ne hne
  | flush order =>
    rw [step] at hstep
    split_ifs at hstep with horder
    obtain rfl := Option.some.inj hstep
    rw [hother rfl]
    exact ⟨fun u hu => (by cases hu), .inr (h.flush horder.1)⟩
  | associate client =>
    rw [step] at hstep
    split_ifs at hstep
    obtain rfl := Option.some.inj hstep
    rw [hother rfl]
    exact ⟨h.pending, h.held⟩
  | disconnect client =>
    obtain rfl := Option.some.inj hstep
    rw [hother rfl]
    exact ⟨h.pending, h.held⟩
  | read client ref =>
    rw [hother rfl]
    rw [step] at hstep
    split_ifs at hstep
    split at hstep
    · cases hstep
    · obtain rfl := Option.some.inj hstep
      exact ⟨h.pending, h.held⟩
  | write client now ref value =>
    rw [hother rfl]
    rw [step] at hstep
    split_ifs at hstep
    · split at hstep
      all_goals
        obtain rfl := Option.some.inj hstep
        exact ⟨h.pending, h.held⟩
    · obtain rfl := Option.some.inj hstep
      exact h

/-- What a run keeps, from the start of the servers. -/
theorem follows_run (hp : IsIndication setup p) {events : List Event}
    (hstored : Every (step setup) (Stored setup) (started setup) events)
    (hrun : run (step setup) (started setup) events = some t) :
    Follows p (lastValue setup p events) t := by
  refine run_trace_invariant (I := fun events s => Follows p (lastValue setup p events) s)
    (fun events s e t hstored h hstep => follows_step hp h hstored hstep) hstored ?_ hrun
  exact ⟨fun u hu => (by cases hu), .inr rfl⟩

end SharedModel

section Clients

variable {client : Client}

/-- The reports of a point to a client. -/
def reportsTo (client : Client) (p : Point) (outputs : List Output) : List DataValue :=
  outputs.filterMap fun
    | .report c ip value => if c = client ∧ ip = p then some value else none
    | _ => none

/-- The change pending for a client, and what it was given: a mailbox. -/
def boxOf (client : Client) (p : Point) (s : State) : Mailbox DataValue where
  latest := (s.pending.find? fun u => u.key = (client, p)).map Pending.value
  given := reportsTo client p s.outputs

/-- What an event is for the mailboxes of a point. -/
def changeOf (setup : Setup) (p : Point) : Event → Option (Change DataValue)
  | .flush _ => some .flush
  | e => (conversion setup p e).map .put

theorem puts_filterMap (events : List Event) :
    Mailbox.puts (events.filterMap (changeOf setup p)) = conversions setup p events := by
  rw [Mailbox.puts, conversions, List.filterMap_filterMap]
  refine List.filterMap_congr fun e _ => ?_
  cases e with
  | flush order => rfl
  | deliver now doc =>
    rw [changeOf]
    · cases conversion setup p (.deliver now doc) <;> rfl
    · rintro order ⟨⟩
  | _ => rfl

/-- What is pending at a key after a change. -/
theorem find?_bufferChange (hkeys : (s.pending.map Pending.key).Nodup) {group1 : String}
    {ip : Point} {value : DataValue} :
    (bufferChange s.entries group1 ip value s.pending).find? (fun u => u.key = (client, p)) =
      if Reached s group1 client ∧ p = ip then some ⟨client, ip, value⟩
      else s.pending.find? fun u => u.key = (client, p) := by
  have hkeys' := @nodup_bufferChange s.entries group1 ip value s.pending hkeys
  split_ifs with hreached
  · obtain ⟨hreached, rfl⟩ := hreached
    exact (find?_eq_some_iff_mem hkeys').mpr ⟨mem_bufferChange.mpr (.inl ⟨hreached, rfl, rfl⟩), rfl⟩
  · ext u
    rw [find?_eq_some_iff_mem hkeys', find?_eq_some_iff_mem hkeys]
    refine and_congr_left fun hkey => ?_
    obtain ⟨rfl, rfl⟩ := Prod.mk.inj hkey
    rw [mem_bufferChange]
    constructor
    · rintro (⟨hc, hip, -⟩ | ⟨hu, -⟩)
      · exact absurd ⟨hc, hip⟩ hreached
      · exact hu
    · exact fun hu => .inr ⟨hu, hreached⟩

theorem reportsTo_map (order : List Pending) :
    reportsTo client p (order.map fun u => .report u.client u.ip u.value) =
      (order.filter fun u => u.key = (client, p)).map Pending.value := by
  induction order with
  | nil => rfl
  | cons u order ih =>
    rw [reportsTo] at ih ⊢
    rw [List.map_cons, List.filterMap_cons, ih]
    by_cases hu : u.key = (client, p)
    · have hboth : u.client = client ∧ u.ip = p := Prod.mk.inj hu
      simp [hu, hboth.1, hboth.2]
    · have hnot : ¬ (u.client = client ∧ u.ip = p) := fun h => hu (Prod.ext h.1 h.2)
      simp [hu, hnot]

/-- What a flush gives to a client of a point is what was pending. -/
theorem reportsTo_order (hkeys : (s.pending.map Pending.key).Nodup) {order : List Pending}
    (horder : order.Perm s.pending) :
    reportsTo client p (order.map fun u => .report u.client u.ip u.value) =
      ((s.pending.find? fun u => u.key = (client, p)).map Pending.value).toList := by
  have hfilter : order.filter (fun u => u.key = (client, p)) =
      (s.pending.find? fun u => u.key = (client, p)).toList := by
    rw [filter_eq_toList ((horder.map Pending.key).nodup_iff.mpr hkeys),
      find?_eq_of_perm hkeys horder]
  rw [reportsTo_map, hfilter]
  cases s.pending.find? fun u => u.key = (client, p) <;> rfl

theorem reportsTo_append_other {outputs : List Output} {o : Output}
    (ho : ∀ c ip value, o ≠ .report c ip value) :
    reportsTo client p (outputs ++ [o]) = reportsTo client p outputs := by
  rw [reportsTo, List.filterMap_append]
  cases o with
  | report c ip value => exact absurd rfl (ho c ip value)
  | _ => exact List.append_nil _

/-- A change of the point is put in the mailboxes of its clients, that of another is not. -/
theorem boxOf_deliver {now : Date} {doc : RtData} (hp : IsIndication setup p)
    (hkeys : (s.pending.map Pending.key).Nodup) (hclient : client ∈ s.entries)
    (hstored : Stored setup s (.deliver now doc)) (hpass : LetPass p client (.deliver now doc))
    (hstep : step setup s (.deliver now doc) = some t) :
    boxOf client p t =
      (changeOf setup p (.deliver now doc)).toList.foldl Mailbox.apply (boxOf client p s) := by
  have hchange : changeOf setup p (.deliver now doc) =
      (conversion setup p (.deliver now doc)).map .put := by
    rw [changeOf]
    rintro order ⟨⟩
  rw [hchange, conversion]
  rcases deliver_cases hp hstored hstep with ⟨htag, rfl⟩ |
    ⟨htag, rfl | ⟨ref, value, rfl⟩ | ⟨ip, value, hne, rfl⟩⟩
  · rw [if_pos htag, boxOf, find?_bufferChange hkeys, if_pos ⟨⟨hclient, hpass htag⟩, rfl⟩]
    rfl
  · rw [if_neg htag]
    rfl
  · rw [if_neg htag]
    rfl
  · rw [if_neg htag, boxOf, find?_bufferChange hkeys, if_neg fun hc => hne hc.2]
    rfl

/-- One step changes the mailbox of an associated client as its event says. -/
theorem boxOf_step (hp : IsIndication setup p) (hkeys : (s.pending.map Pending.key).Nodup)
    (hclient : client ∈ s.entries) (hstored : Stored setup s e) (hpass : LetPass p client e)
    (hstep : step setup s e = some t) :
    boxOf client p t = (changeOf setup p e).toList.foldl Mailbox.apply (boxOf client p s) := by
  cases e with
  | store doc =>
    obtain rfl := Option.some.inj hstep
    rfl
  | delete tag =>
    obtain rfl := Option.some.inj hstep
    rfl
  | deliver now doc => exact boxOf_deliver hp hkeys hclient hstored hpass hstep
  | flush order =>
    rw [step] at hstep
    split_ifs at hstep with horder
    obtain rfl := Option.some.inj hstep
    rw [boxOf, reportsTo, List.filterMap_append, ← reportsTo, ← reportsTo,
      reportsTo_order hkeys horder.1]
    rfl
  | associate c =>
    rw [step] at hstep
    split_ifs at hstep
    obtain rfl := Option.some.inj hstep
    rw [boxOf, reportsTo_append_other (by simp)]
    rfl
  | disconnect c =>
    obtain rfl := Option.some.inj hstep
    rfl
  | read c ref =>
    rw [step] at hstep
    split_ifs at hstep
    split at hstep
    · cases hstep
    · obtain rfl := Option.some.inj hstep
      rw [boxOf, reportsTo_append_other (by simp)]
      rfl
  | write c now ref value =>
    rw [step] at hstep
    split_ifs at hstep
    · split at hstep
      · obtain rfl := Option.some.inj hstep
        rfl
      · obtain rfl := Option.some.inj hstep
        rw [boxOf, reportsTo_append_other (by simp)]
        rfl
    · obtain rfl := Option.some.inj hstep
      rfl

/-- Reads and writes of the clients leave the pending changes and the clients. -/
theorem read_frame {c : Client} {ref : ObjectRef} (hstep : step setup s (.read c ref) = some t) :
    t.pending = s.pending ∧ t.entries = s.entries := by
  rw [step] at hstep
  split_ifs at hstep
  split at hstep
  · cases hstep
  · obtain rfl := Option.some.inj hstep
    exact ⟨rfl, rfl⟩

theorem write_frame {c : Client} {now : Date} {ref : ObjectRef} {value : DataValue}
    (hstep : step setup s (.write c now ref value) = some t) :
    t.pending = s.pending ∧ t.entries = s.entries := by
  rw [step] at hstep
  split_ifs at hstep
  · split at hstep
    · obtain rfl := Option.some.inj hstep
      exact ⟨rfl, rfl⟩
    · obtain rfl := Option.some.inj hstep
      exact ⟨rfl, rfl⟩
  · obtain rfl := Option.some.inj hstep
    exact ⟨rfl, rfl⟩

/-- What a step makes of the pending changes. -/
theorem pending_step (hstep : step setup s e = some t) :
    t.pending = s.pending ∨ t.pending = [] ∨
      ∃ group1 ip value, t.pending = bufferChange s.entries group1 ip value s.pending := by
  cases e with
  | store doc =>
    obtain rfl := Option.some.inj hstep
    exact .inl rfl
  | delete tag =>
    obtain rfl := Option.some.inj hstep
    exact .inl rfl
  | deliver now doc =>
    rw [step] at hstep
    split_ifs at hstep
    split at hstep
    · obtain rfl := Option.some.inj hstep
      exact .inl rfl
    · obtain rfl := Option.some.inj hstep
      exact .inl rfl
    · obtain rfl := Option.some.inj hstep
      exact .inr (.inr ⟨_, _, _, rfl⟩)
  | flush order =>
    rw [step] at hstep
    split_ifs at hstep
    obtain rfl := Option.some.inj hstep
    exact .inr (.inl rfl)
  | associate c =>
    rw [step] at hstep
    split_ifs at hstep
    obtain rfl := Option.some.inj hstep
    exact .inl rfl
  | disconnect c =>
    obtain rfl := Option.some.inj hstep
    exact .inl rfl
  | read c ref => exact .inl (read_frame hstep).1
  | write c now ref value => exact .inl (write_frame hstep).1

theorem nodup_step (hkeys : (s.pending.map Pending.key).Nodup) (hstep : step setup s e = some t) :
    (t.pending.map Pending.key).Nodup := by
  rcases pending_step hstep with h | h | ⟨group1, ip, value, h⟩
  · rwa [h]
  · rw [h]
    exact List.nodup_nil
  · rw [h]
    exact nodup_bufferChange hkeys

/-- A client that does not disconnect stays. -/
theorem mem_entries_step (hclient : client ∈ s.entries) (hstay : e ≠ .disconnect client)
    (hstep : step setup s e = some t) : client ∈ t.entries := by
  cases e with
  | disconnect c =>
    obtain rfl := Option.some.inj hstep
    refine List.mem_filter.mpr ⟨hclient, decide_eq_true ?_⟩
    rintro rfl
    exact hstay rfl
  | associate c =>
    rw [step] at hstep
    split_ifs at hstep
    obtain rfl := Option.some.inj hstep
    exact List.mem_append_left _ hclient
  | store doc =>
    obtain rfl := Option.some.inj hstep
    exact hclient
  | delete tag =>
    obtain rfl := Option.some.inj hstep
    exact hclient
  | deliver now doc =>
    rw [step] at hstep
    split_ifs at hstep
    split at hstep <;> (obtain rfl := Option.some.inj hstep; exact hclient)
  | flush order =>
    rw [step] at hstep
    split_ifs at hstep
    obtain rfl := Option.some.inj hstep
    exact hclient
  | read c ref => rwa [(read_frame hstep).2]
  | write c now ref value => rwa [(write_frame hstep).2]

/-- What a run makes of the mailbox of a client that is associated throughout. -/
theorem boxOf_run (hp : IsIndication setup p) (hkeys : (s.pending.map Pending.key).Nodup)
    (hclient : client ∈ s.entries) {events : List Event}
    (hsteps : Every (step setup)
      (fun s e => Stored setup s e ∧ LetPass p client e ∧ e ≠ .disconnect client) s events)
    (hrun : run (step setup) s events = some t) :
    boxOf client p t = (events.filterMap (changeOf setup p)).foldl Mailbox.apply
      (boxOf client p s) := by
  have hinv := run_trace_invariant (I := fun events t => client ∈ t.entries ∧
      (t.pending.map Pending.key).Nodup ∧ boxOf client p t =
        (events.filterMap (changeOf setup p)).foldl Mailbox.apply (boxOf client p s))
    (fun events s' e t' hstep h hs => ?_) hsteps ⟨hclient, hkeys, rfl⟩ hrun
  · exact hinv.2.2
  · refine ⟨mem_entries_step h.1 hstep.2.2 hs, nodup_step h.2.1 hs, ?_⟩
    have hone : [e].filterMap (changeOf setup p) = (changeOf setup p e).toList := by
      rw [List.filterMap_cons]
      cases changeOf setup p e <;> rfl
    rw [boxOf_step hp h.2.1 h.1 hstep.1 hstep.2.1 hs, h.2.2, List.filterMap_append, hone,
      List.foldl_append]

end Clients

section Freshness

/-- In a run whose change events are all stored, the points hold the last values when nothing is
pending, and a client associated throughout a part of it is given the values of each point its
topics let pass in the order of delivery, up to the last. -/
theorem model_fresh (setup : Setup) {before during : List Event} {s t : State}
    (hbefore : run (step setup) (started setup) before = some s)
    (hduring : run (step setup) s during = some t)
    (hstored : Every (step setup) (Stored setup) (started setup) (before ++ during)) :
    (t.pending = [] → ∀ p, IsIndication setup p →
      t.held p = lastValue setup p (before ++ during)) ∧
    ∀ client ∈ s.entries, (∀ u ∈ s.pending, u.client ≠ client) →
      Event.disconnect client ∉ during → ∀ p, IsIndication setup p →
      (∀ e ∈ during, LetPass p client e) →
      ∃ given, reportsTo client p t.outputs = reportsTo client p s.outputs ++ given ∧
        given.Sublist (conversions setup p during) ∧
        (t.pending = [] → given.getLast? = (conversions setup p during).getLast?) := by
  have hrun : run (step setup) (started setup) (before ++ during) = some t := by
    rw [run_append, hbefore]
    exact hduring
  constructor
  · intro hidle p hp
    refine (follows_run hp hstored hrun).held.resolve_left ?_
    rintro ⟨u, hu, -⟩
    rw [hidle] at hu
    cases hu
  · intro client hclient hnew hstay p hp hpass
    have hkeys : (s.pending.map Pending.key).Nodup :=
      run_invariant (P := fun _ _ => True) (I := fun s => (s.pending.map Pending.key).Nodup)
        (fun s e t _ h hstep => nodup_step h hstep) (every_of_forall_mem fun _ _ => trivial)
        List.nodup_nil hbefore
    have hsteps : Every (step setup)
        (fun s e => Stored setup s e ∧ LetPass p client e ∧ e ≠ .disconnect client) s during := by
      refine ((every_append.mp hstored).2 s hbefore).and (every_of_forall_mem fun e he => ?_)
      exact ⟨hpass e he, fun h => hstay (h ▸ he)⟩
    have hbox := boxOf_run hp hkeys hclient hsteps hduring
    have hempty : (boxOf client p s).latest = none := by
      rw [boxOf, Option.map_eq_none_iff, List.find?_eq_none]
      intro u hu hkey
      exact hnew u hu (congrArg Prod.fst (of_decide_eq_true hkey))
    obtain ⟨given, hgiven, hsub, hlast⟩ := Mailbox.given_foldl_apply hempty
      (during.filterMap (changeOf setup p))
    rw [← hbox, puts_filterMap] at hsub hlast
    rw [← hbox] at hgiven
    refine ⟨given, hgiven, (List.sublist_append_left _ _).trans hsub, fun hidle => ?_⟩
    have hnone : (boxOf client p t).latest = none := by
      rw [boxOf, hidle]
      rfl
    rwa [hnone, Option.toList_none, List.append_nil] at hlast

def digitalTag (value : ℚ) : RtData := {
  ID := .fin 1
  tag := "T"
  type := "digital"
  value := .fin value
  group1 := "A" }

/-- One tag, and a connection without topics. -/
def oneTag : Setup where
  host := ⟨fun _ => "", fun _ => (.fin 0, false), fun _ => ""⟩
  start := 0
  connections := [⟨1, "ICCP", false, [], ""⟩]
  realtimeData := [digitalTag 0]
  datasetChunkSize := 0
  keyOrder := id
  keyOrder_perm := fun _ => .refl _
  reachesHandler := fun _ => true

def stateOf (on : Bool) : DataValue := .stateQTimeTag on ⟨"good", "process"⟩ 0

/-- The point of the tag. -/
def pointT : Point := ⟨"T", ⟨"A", "T"⟩, .indication .stateQTimeTag, stateOf false⟩

theorem isIndication_pointT : IsIndication oneTag pointT := by
  have hload : oneTag.allTags = [digitalTag 0] := by rfl
  have hskip : isSkipped oneTag.connections (digitalTag 0) = false := by decide
  rw [IsIndication, Setup.dataModel, hload, build, List.foldl_cons, List.foldl_nil, addTag, hskip]
  rfl

theorem updates_digitalTag : Updates oneTag (digitalTag 1) where
  ID := by decide
  source := by decide
  origin := by decide

/-- The tag is switched on. -/
def switchOn : Event := .deliver 0 (digitalTag 1)

def clientT : Client := ⟨1, ⟨1, "ICCP", false, [], ""⟩⟩

/-- A client that is there when the tag is switched on is told so, and the point is on. -/
theorem switchOn_fresh : ∃ s t, run (step oneTag) (started oneTag) [.associate clientT] = some s ∧
    run (step oneTag) s [switchOn, .flush [⟨clientT, pointT, stateOf true⟩]] = some t ∧
    t.held pointT = stateOf true ∧ ∃ given, reportsTo clientT pointT t.outputs =
      reportsTo clientT pointT s.outputs ++ given ∧ given.Sublist [stateOf true] ∧
      given.getLast? = some (stateOf true) := by
  obtain ⟨s, hassociate, hentries, hpending⟩ : ∃ s,
      step oneTag (started oneTag) (.associate clientT) = some s ∧ s.entries = [clientT] ∧
      s.pending = [] :=
    ⟨_, step_associate List.mem_cons_self ⟨List.not_mem_nil, fun _ h => (by cases h)⟩, rfl, rfl⟩
  have hreached : Reached s "A" clientT := ⟨by simp [hentries], by decide⟩
  have hdeliver : step oneTag s switchOn =
      some { s with pending := [⟨clientT, pointT, stateOf true⟩] } := by
    rw [switchOn, step, if_pos (by rfl),
      onChange_of_updates isIndication_pointT rfl updates_digitalTag, hentries, hpending]
    rfl
  obtain ⟨t, hflush, hidle⟩ : ∃ t, step oneTag { s with
      pending := [⟨clientT, pointT, stateOf true⟩] }
      (.flush [⟨clientT, pointT, stateOf true⟩]) = some t ∧ t.pending = [] := by
    have horder : IsOrder [⟨clientT, pointT, stateOf true⟩] [⟨clientT, pointT, stateOf true⟩] :=
      ⟨.refl _, by simp⟩
    rw [step, if_pos horder]
    exact ⟨_, rfl, rfl⟩
  have hbefore := run_cons_eq_some.mpr ⟨_, hassociate, run_nil _⟩
  have hduring := run_cons_eq_some.mpr ⟨_, hdeliver, run_cons_eq_some.mpr ⟨_, hflush, run_nil _⟩⟩
  have hstored : Every (step oneTag) (Stored oneTag) (started oneTag)
      ([.associate clientT] ++ [switchOn, .flush [⟨clientT, pointT, stateOf true⟩]]) := by
    refine ⟨trivial, fun s' hs' => ⟨fun p hp => ?_, fun _ _ => ⟨trivial, fun _ _ => trivial⟩⟩⟩
    obtain rfl := Option.some.inj (hassociate.symm.trans hs')
    refine ⟨updates_digitalTag, ⟨clientT, hreached⟩, fun u hu => ?_⟩
    rw [hpending] at hu
    cases hu
  obtain ⟨hheld, hgiven⟩ := model_fresh oneTag hbefore hduring hstored
  obtain ⟨given, hreports, hsub, hgetLast⟩ := hgiven clientT hreached.1
    (by simp [hpending]) (by simp [switchOn]) pointT isIndication_pointT
    (by simp [switchOn, LetPass, admits, clientT])
  exact ⟨s, t, hbefore, hduring, hheld hidle pointT isIndication_pointT, given, hreports, hsub,
    hgetLast hidle⟩

/-- A change without a client is lost. -/
theorem lost_change : ¬ ∀ (setup : Setup) (events : List Event) (t : State),
    run (step setup) (started setup) events = some t → t.pending = [] →
    ∀ p, IsIndication setup p → t.held p = lastValue setup p events := by
  intro h
  have hdeliver : step oneTag (started oneTag) switchOn = some (started oneTag) := by
    rw [switchOn, step, if_pos (by rfl),
      onChange_of_updates isIndication_pointT rfl updates_digitalTag]
    rfl
  have hlast := h oneTag [switchOn] (started oneTag)
    (run_cons_eq_some.mpr ⟨_, hdeliver, rfl⟩) rfl pointT isIndication_pointT
  have hvalue : lastValue oneTag pointT [switchOn] = stateOf true := by rfl
  rw [hvalue] at hlast
  have hne : stateOf false ≠ stateOf true := by decide
  exact hne hlast

end Freshness

end JsonScada.System.ModelFreshness
