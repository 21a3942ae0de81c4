/- path: JsonScada/System/DeathSequence
   source: src/mqtt-sparkplug/sparkplug-client.js, src/mqtt-sparkplug/index.js
   digest: The sequence number of a birth beside that of the will of its connection. -/

import JsonScada.Lib.Machine
import JsonScada.MqttSparkplug.EdgeNode
import Mathlib.Data.List.Chain

set_option autoImplicit false
set_option relaxedAutoImplicit false

namespace JsonScada.System.DeathSequence

open JsonScada.Lib.Machine
open JsonScada.MqttSparkplug.Payload JsonScada.MqttSparkplug.SparkplugClient
open JsonScada.MqttSparkplug.EdgeNode

section Numbers

/-- The payload ends with the metric `bdSeq` of the given value. -/
def Carries (p : Payload) (b : ℤ) : Prop := ∃ ms, p.metrics = some (ms ++ [bdSeqMetric b])

def Registers (w : Will) (b : ℤ) : Prop := ∃ p, w.payload = .death p ∧ Carries p b

/-- A birth of the node with the number was published on the connection. -/
def Bears (c : Connection) (b : ℤ) : Prop :=
  ∃ m ∈ c.published, m.publication = .nodeBirth ∧ Carries m.payload b

def Shows (c : Connection) (b : ℤ) : Prop := Registers c.will b ∨ Bears c b

/-- The births of every connection have the number of its death certificate, and the
numbers of a connection follow those of the connection before it. -/
structure Agreement (connections : List Connection) : Prop where
  births : ∀ c ∈ connections, ∀ b, Bears c b → ∀ d, Registers c.will d → b = d
  advances : connections.IsChain fun c prev =>
    ∀ b, Shows c b → ∀ b', Shows prev b' → b = (b' + 1) % 256

theorem bdSeqMetric_inj {b d : ℤ} (h : bdSeqMetric b = bdSeqMetric d) : b = d := by
  simpa [bdSeqMetric] using h

theorem Carries.unique {p : Payload} {b d : ℤ} (hb : Carries p b) (hd : Carries p d) : b = d := by
  obtain ⟨ms, hms⟩ := hb
  obtain ⟨ns, hns⟩ := hd
  rw [hms, Option.some.injEq] at hns
  exact bdSeqMetric_inj (List.singleton_inj.mp (List.append_inj' hns rfl).2)

theorem carries_getDeathPayload {b d : ℤ} : Carries (getDeathPayload b) d ↔ d = b := by
  constructor
  · intro h
    exact h.unique ⟨[], rfl⟩
  · rintro rfl
    exact ⟨[], rfl⟩

/-- Only a node without a host id registers a death certificate. -/
theorem registers_willOf {config : ClientConfig} {b d : ℤ} :
    Registers (willOf config b) d ↔ config.scadaHostId = "" ∧ d = b := by
  unfold willOf
  by_cases hhost : config.scadaHostId = ""
  · rw [if_neg (not_not.mpr hhost)]
    simp only [Registers, deviceWill, WillPayload.death.injEq, hhost, true_and]
    constructor
    · rintro ⟨p, rfl, hp⟩
      exact carries_getDeathPayload.mp hp
    · intro heq
      exact ⟨_, rfl, carries_getDeathPayload.mpr heq⟩
  · rw [if_pos hhost]
    simp [Registers, scadaWill, hhost]

end Numbers

section Publishing

variable (engine : Engine) (config : Config)

/-- The call sends a birth that has metrics. -/
def SendsBirth (p : Publication) (payload : Payload) (options : Options) : Prop :=
  p = .nodeBirth ∧ (outgoing engine p payload options).isSome ∧ payload.metrics.isSome

instance (p : Publication) (payload : Payload) (options : Options) :
    Decidable (SendsBirth engine p payload options) :=
  inferInstanceAs (Decidable (_ ∧ _ ∧ _))

theorem bdSeq_publish (p : Publication) (payload : Payload) (options : Options) (s : Session) :
    (publish engine config p payload options s).bdSeq = s.bdSeq := by
  unfold publish
  cases outgoing engine p payload options <;> by_cases hp : p = .nodeBirth <;>
    simp [hp, incrementSeqNum]

/-- At most one message is published, and its metrics carry the number of the session
when it is a birth. -/
theorem published_publish (p : Publication) (payload : Payload) (options : Options)
    (s : Session) :
    (publish engine config p payload options s).published.drop s.published.length =
      match outgoing engine p payload options with
      | none => []
      | some packing => [{
          publication := p
          topic := topicOf config p
          payload := {
            metrics := metricsOf p s.bdSeq payload
            seq := some (incrementSeqNum (if p = .nodeBirth then { s with seq := 0 } else s)).1 }
          packing := packing }] := by
  unfold publish
  cases outgoing engine p payload options <;> by_cases hp : p = .nodeBirth <;>
    simp [hp, incrementSeqNum]

theorem carries_metricsOf_birth {bdSeq b : ℤ} {payload : Payload} {seq : Option ℕ} :
    Carries { metrics := metricsOf .nodeBirth bdSeq payload, seq := seq } b ↔
      payload.metrics.isSome ∧ b = bdSeq := by
  unfold metricsOf
  rw [if_pos rfl]
  cases hmetrics : payload.metrics with
  | none => simp [Carries]
  | some ms =>
    simp only [Option.map_some, Option.isSome_some, true_and]
    constructor
    · intro h
      exact h.unique ⟨ms, rfl⟩
    · rintro rfl
      exact ⟨ms, rfl⟩

/-- What a publication adds to the births of the connection. -/
theorem bears_deliver (p : Publication) (payload : Payload) (options : Options) (s : Session)
    (c : Connection) (b : ℤ) :
    Bears (c.deliver s (publish engine config p payload options s)) b ↔
      Bears c b ∨ SendsBirth engine p payload options ∧ b = s.bdSeq := by
  rw [Connection.deliver, published_publish]
  cases hout : outgoing engine p payload options with
  | none => simp [Bears, SendsBirth, hout]
  | some packing =>
    simp only [Bears, List.mem_append, List.mem_singleton, or_and_right, exists_or,
      exists_eq_left, SendsBirth, hout, Option.isSome_some, true_and]
    refine or_congr Iff.rfl ?_
    constructor
    · rintro ⟨rfl, hcarries⟩
      obtain ⟨hsome, heq⟩ := carries_metricsOf_birth.mp hcarries
      exact ⟨⟨rfl, hsome⟩, heq⟩
    · rintro ⟨⟨rfl, hsome⟩, heq⟩
      exact ⟨rfl, carries_metricsOf_birth.mpr ⟨hsome, heq⟩⟩

end Publishing

section Counting

variable (engine : Engine) (document : ConnectionDocument)

/-- The number of a first connection is zero, and that of a connection made again with
the same client follows the number of the connection before. -/
structure Counted (client : Client) : Prop where
  configured : client.config = getSparkplugConfig document
  number : -1 ≤ client.session.bdSeq
  opened : client.connected = true → 0 ≤ client.session.bdSeq

/-- What the connections have to do with the client that made the last of them. -/
def Recent (bdSeq : ℤ) : List Connection → Prop
  | [] => bdSeq = -1
  | c :: rest =>
    bdSeq ≠ -1 → (∀ b, Bears c b → b = bdSeq) ∧
      (bdSeq ≠ 0 → ∀ prev ∈ rest.head?, ∀ b, Bears prev b → b = bdSeq - 1)

structure Inv (e : Node) : Prop where
  wills : ∀ c ∈ e.connections, c.will = willOf (getSparkplugConfig document) (-1)
  births : ∀ c ∈ e.connections, ∀ b, Bears c b → 0 ≤ b
  client : ∀ client ∈ e.client, Counted document client ∧
    client.will = willOf (getSparkplugConfig document) (-1) ∧
      Recent client.session.bdSeq e.connections

/-- The steps that keep the numbers in agreement: a connection is the first one, or
registers no death certificate; a birth is one of such a connection, of the same
client as the one before and among its first 256. -/
def Keeps (e : Node) : Event → Prop
  | .connect =>
    ∀ client ∈ e.client, client.connected = false →
      document.scadaHostId.getD "" ≠ "" ∨ e.connections = []
  | .publish p payload options =>
    ∀ client ∈ e.client, client.connected = true → SendsBirth engine p payload options →
      document.scadaHostId.getD "" ≠ "" ∧
        ∀ prev ∈ e.connections[1]?, ∀ b, Bears prev b →
          if client.session.bdSeq = 0 then b % 256 = 255 else client.session.bdSeq < 256
  | _ => True

theorem registers_will {b : ℤ} :
    Registers (willOf (getSparkplugConfig document) (-1)) b ↔
      document.scadaHostId.getD "" = "" ∧ b = -1 := registers_willOf

variable {engine document}

theorem inv_newClient {e t : Node} (hi : Inv document e)
    (h : step engine document e .newClient = some t) : Inv document t := by
  simp only [step, newClient] at h
  split_ifs at h with hsome hencodes
  · cases h
    refine ⟨hi.wills, hi.births, ?_⟩
    rintro client ⟨⟩
    refine ⟨⟨rfl, le_refl _, by simp⟩, rfl, ?_⟩
    cases e.connections with
    | nil => rfl
    | cons c rest => exact fun hne => absurd rfl hne
  · cases h

theorem inv_connect {e : Node} {client : Client} (hi : Inv document e)
    (hclient : e.client = some client) : Inv document (connectWith engine e client) := by
  obtain ⟨⟨hconfig, hnumber, -⟩, hwill, hrecent⟩ := hi.client client hclient
  refine ⟨?_, ?_, ?_⟩
  · rintro c (_ | ⟨_, hc⟩)
    · exact hwill
    · exact hi.wills c hc
  · rintro c (_ | ⟨_, hc⟩)
    · rintro b ⟨m, hm, -⟩
      cases hm
    · exact hi.births c hc
  · rintro _ ⟨⟩
    refine ⟨⟨hconfig, by simp [handle]; omega, fun _ => by simp [handle]; omega⟩, hwill, ?_⟩
    intro _
    refine ⟨?_, ?_⟩
    · rintro b ⟨m, hm, -⟩
      cases hm
    · intro hne prev hprev b hb
      have hbefore : client.session.bdSeq ≠ -1 := by
        intro heq
        simp [handle, heq] at hne
      cases hconnections : e.connections with
      | nil => simp [hconnections] at hprev
      | cons c rest =>
        rw [hconnections] at hprev hrecent
        cases hprev
        rw [(hrecent hbefore).1 b hb]
        simp [handle]

theorem inv_publish {e : Node} {client : Client} (hi : Inv document e)
    (hclient : e.client = some client) (hopen : client.connected = true) (p : Publication)
    (payload : Payload) (options : Options) :
    Inv document (publishOn engine p payload options e client) := by
  obtain ⟨⟨hconfig, hnumber, hzero⟩, hwill, hrecent⟩ := hi.client client hclient
  have hnonneg := hzero hopen
  have hseq := bdSeq_publish engine client.config.toConfig p payload options client.session
  cases hconnections : e.connections with
  | nil =>
    rw [hconnections] at hrecent
    have hfirst : client.session.bdSeq = -1 := hrecent
    omega
  | cons c rest =>
    rw [hconnections] at hrecent
    obtain ⟨hlast, hprev⟩ := hrecent (by omega)
    have hwills := hi.wills
    have hbirths := hi.births
    rw [hconnections] at hwills hbirths
    rw [publishOn, hconnections, delivered]
    refine ⟨?_, ?_, ?_⟩
    · rintro d (_ | ⟨_, hd⟩)
      · exact hwills c List.mem_cons_self
      · exact hwills d (List.mem_cons_of_mem c hd)
    · rintro d (_ | ⟨_, hd⟩)
      · intro b hb
        rcases (bears_deliver engine _ p payload options _ c b).mp hb with hb | ⟨-, rfl⟩
        · exact hbirths c List.mem_cons_self b hb
        · exact hnonneg
      · exact hbirths d (List.mem_cons_of_mem c hd)
    · rintro _ ⟨⟩
      refine ⟨⟨hconfig, by rw [hseq]; exact hnumber, fun _ => by rw [hseq]; exact hnonneg⟩,
        hwill, ?_⟩
      intro _
      dsimp only
      rw [hseq]
      refine ⟨?_, hprev⟩
      intro b hb
      rcases (bears_deliver engine _ p payload options _ c b).mp hb with hb | ⟨-, rfl⟩
      · exact hlast b hb
      · rfl

theorem inv_step {e t : Node} {a : Event} (hi : Inv document e)
    (h : step engine document e a = some t) : Inv document t := by
  cases a with
  | newClient => exact inv_newClient hi h
  | connect =>
    obtain ⟨client, hclient, h⟩ := Option.bind_eq_some_iff.mp h
    split_ifs at h
    cases h
    exact inv_connect hi hclient
  | close =>
    obtain ⟨client, hclient, rfl⟩ := Option.map_eq_some_iff.mp h
    obtain ⟨⟨hconfig, hnumber, -⟩, hwill, hrecent⟩ := hi.client client hclient
    refine ⟨hi.wills, hi.births, ?_⟩
    rintro _ ⟨⟩
    exact ⟨⟨hconfig, hnumber, by simp⟩, hwill, hrecent⟩
  | publish p payload options =>
    obtain ⟨client, hclient, h⟩ := Option.bind_eq_some_iff.mp h
    split_ifs at h with hopen
    cases h
    exact inv_publish hi hclient hopen p payload options
  | stop =>
    cases h
    exact ⟨hi.wills, hi.births, by simp⟩

/-- A connection that shows no birth yet agrees with those before it when it
registers no death certificate, or is the first. -/
theorem agreement_connect {e : Node} {client : Client} (hi : Inv document e)
    (hclient : e.client = some client) (hagree : Agreement e.connections) :
    Agreement ({ will := client.will } :: e.connections) ↔
      document.scadaHostId.getD "" ≠ "" ∨ e.connections = [] := by
  have hwill := (hi.client client hclient).2.1
  have hnone : ∀ b, ¬Bears { will := client.will } b := by
    rintro b ⟨m, hm, -⟩
    cases hm
  constructor
  · rintro ⟨-, hadvances⟩
    by_contra hneither
    obtain ⟨hhost, hsome⟩ := not_or.mp hneither
    rw [not_not] at hhost
    cases hconnections : e.connections with
    | nil => exact hsome hconnections
    | cons prev rest =>
      rw [hconnections, List.isChain_cons_cons] at hadvances
      have hmem : prev ∈ e.connections := by
        rw [hconnections]
        exact List.mem_cons_self
      have hshows : ∀ will, will = willOf (getSparkplugConfig document) (-1) →
          Registers will (-1) := by
        rintro _ rfl
        exact (registers_will document).mpr ⟨hhost, rfl⟩
      have heq := hadvances.1 (-1) (.inl (hshows _ hwill)) (-1)
        (.inl (hshows _ (hi.wills prev hmem)))
      omega
  · intro hgood
    refine ⟨?_, ?_⟩
    · rintro c (_ | ⟨_, hc⟩)
      · exact fun b hb => absurd hb (hnone b)
      · exact hagree.births c hc
    · refine List.isChain_cons.mpr ⟨?_, hagree.advances⟩
      rintro prev hprev b (hb | hb)
      · rw [hwill] at hb
        rcases hgood with hhost | hempty
        · exact absurd ((registers_will document).mp hb).1 hhost
        · simp [hempty] at hprev
      · exact absurd hb (hnone b)

/-- A birth added to the last connection agrees when that registers no death
certificate and its number follows the births of the connection before. -/
theorem agreement_birth {c c' : Connection} {rest : List Connection} {b : ℤ}
    (hwill : c'.will = c.will) (hbears : ∀ d, Bears c' d ↔ Bears c d ∨ d = b)
    (hagree : Agreement (c :: rest)) :
    Agreement (c' :: rest) ↔ (∀ d, Registers c.will d → b = d) ∧
      ∀ prev ∈ rest.head?, ∀ d, Shows prev d → b = (d + 1) % 256 := by
  have hchain := List.isChain_cons.mp hagree.advances
  constructor
  · rintro ⟨hbirths, hadvances⟩
    have hnew : Bears c' b := (hbears b).mpr (.inr rfl)
    refine ⟨?_, fun prev hprev => (List.isChain_cons.mp hadvances).1 prev hprev b (.inr hnew)⟩
    intro d hd
    exact hbirths c' List.mem_cons_self b hnew d (by rwa [hwill])
  · rintro ⟨hregisters, hprevious⟩
    refine ⟨?_, List.isChain_cons.mpr ⟨?_, hchain.2⟩⟩
    · rintro e (_ | ⟨_, he⟩)
      · intro d hd r hr
        rw [hwill] at hr
        rcases (hbears d).mp hd with hd | rfl
        · exact hagree.births c List.mem_cons_self d hd r hr
        · exact hregisters r hr
      · exact hagree.births e (List.mem_cons_of_mem c he)
    · rintro prev hprev d (hd | hd)
      · rw [hwill] at hd
        exact hchain.1 prev hprev d (.inl hd)
      · rcases (hbears d).mp hd with hd | rfl
        · exact hchain.1 prev hprev d (.inr hd)
        · exact hprevious prev hprev

theorem agreement_congr {c c' : Connection} {rest : List Connection} (hwill : c'.will = c.will)
    (hbears : ∀ d, Bears c' d ↔ Bears c d) (hagree : Agreement (c :: rest)) :
    Agreement (c' :: rest) := by
  have hchain := List.isChain_cons.mp hagree.advances
  refine ⟨?_, List.isChain_cons.mpr ⟨?_, hchain.2⟩⟩
  · rintro e (_ | ⟨_, he⟩)
    · intro d hd r hr
      rw [hwill] at hr
      exact hagree.births c List.mem_cons_self d ((hbears d).mp hd) r hr
    · exact hagree.births e (List.mem_cons_of_mem c he)
  · rintro prev hprev d (hd | hd)
    · rw [hwill] at hd
      exact hchain.1 prev hprev d (.inl hd)
    · exact hchain.1 prev hprev d (.inr ((hbears d).mp hd))

theorem agreement_publish {e : Node} {client : Client} (hi : Inv document e)
    (hclient : e.client = some client) (hopen : client.connected = true)
    (hagree : Agreement e.connections) (p : Publication) (payload : Payload)
    (options : Options) :
    Agreement (publishOn engine p payload options e client).connections ↔
      (SendsBirth engine p payload options → document.scadaHostId.getD "" ≠ "" ∧
        ∀ prev ∈ e.connections[1]?, ∀ b, Bears prev b →
          if client.session.bdSeq = 0 then b % 256 = 255 else client.session.bdSeq < 256) := by
  obtain ⟨⟨-, -, hzero⟩, -, hrecent⟩ := hi.client client hclient
  have hnonneg := hzero hopen
  cases hconnections : e.connections with
  | nil =>
    rw [hconnections] at hrecent
    have hfirst : client.session.bdSeq = -1 := hrecent
    omega
  | cons c rest =>
    rw [hconnections] at hrecent hagree
    obtain ⟨-, hprev⟩ := hrecent (by omega)
    have hwill : c.will = willOf (getSparkplugConfig document) (-1) :=
      hi.wills c (by rw [hconnections]; exact List.mem_cons_self)
    have hbears := bears_deliver engine client.config.toConfig p payload options client.session c
    rw [publishOn, hconnections]
    by_cases hsends : SendsBirth engine p payload options
    · simp only [hsends, true_and] at hbears
      simp only [hsends, forall_const, List.getElem?_cons_succ, ← List.head?_eq_getElem?]
      refine (agreement_birth (Connection.deliver_will c _ _) hbears hagree).trans ?_
      rw [hwill]
      constructor
      · rintro ⟨hregisters, hprevious⟩
        have hhost : document.scadaHostId.getD "" ≠ "" := by
          intro hempty
          have heq := hregisters (-1) ((registers_will document).mpr ⟨hempty, rfl⟩)
          omega
        refine ⟨hhost, fun prev hmem b hb => ?_⟩
        have heq := hprevious prev hmem b (.inr hb)
        split_ifs <;> omega
      · rintro ⟨hhost, hprevious⟩
        refine ⟨fun d hd => absurd ((registers_will document).mp hd).1 hhost, ?_⟩
        rintro prev hmem b (hb | hb)
        · have hprevwill := hi.wills prev (by
            rw [hconnections]
            exact List.mem_cons_of_mem c (List.mem_of_mem_head? hmem))
          rw [hprevwill] at hb
          exact absurd ((registers_will document).mp hb).1 hhost
        · have hcount := hprevious prev hmem b hb
          have hlast := fun hne => hprev hne prev hmem b hb
          split_ifs at hcount <;> omega
    · refine iff_of_true (agreement_congr (Connection.deliver_will c _ _) (fun d => ?_) hagree)
        fun h => absurd h hsends
      rw [hbears]
      simp [hsends]

theorem agreement_step {e t : Node} {a : Event} (hi : Inv document e)
    (h : step engine document e a = some t) (hagree : Agreement e.connections) :
    Agreement t.connections ↔ Keeps engine document e a := by
  cases a with
  | newClient =>
    simp only [step] at h
    split_ifs at h with hsome
    obtain ⟨client, -, rfl⟩ := Option.map_eq_some_iff.mp h
    exact iff_of_true hagree trivial
  | connect =>
    obtain ⟨client, hclient, h⟩ := Option.bind_eq_some_iff.mp h
    split_ifs at h with hopen
    cases h
    simp only [Keeps, hclient, Option.mem_some_iff, forall_eq', hopen, forall_const]
    exact agreement_connect hi hclient hagree
  | close =>
    obtain ⟨client, -, rfl⟩ := Option.map_eq_some_iff.mp h
    exact iff_of_true hagree trivial
  | publish p payload options =>
    obtain ⟨client, hclient, h⟩ := Option.bind_eq_some_iff.mp h
    split_ifs at h with hopen
    cases h
    simp only [Keeps, hclient, Option.mem_some_iff, forall_eq', hopen, forall_const]
    exact agreement_publish hi hclient hopen hagree p payload options
  | stop =>
    cases h
    exact iff_of_true hagree trivial

theorem keeps_of_stuck {e : Node} {a : Event} (h : step engine document e a = none) :
    Keeps engine document e a := by
  cases a with
  | newClient | close | stop => trivial
  | connect =>
    intro client hclient hopen
    simp only [step, Option.mem_def.mp hclient, Option.bind_some, hopen] at h
    cases h
  | publish p payload options =>
    intro client hclient hopen
    simp only [step, Option.mem_def.mp hclient, Option.bind_some, hopen, if_true] at h
    cases h

variable (engine document)

/-- A run of an edge node keeps the numbers of its births and wills in agreement
exactly when each of its steps does. -/
theorem agreement_iff (events : List Event) :
    (∀ t, Visits (step engine document) {} events t → Agreement t.connections) ↔
      Every (step engine document) (Keeps engine document) {} events := by
  have hstart : Inv document {} := ⟨by simp, by simp, by simp⟩
  refine visits_iff_every (A := fun _ _ => True) (J := Inv document) ?_ ?_ ?_ hstart ?_
  · intro s a t _ hi h
    exact ⟨inv_step hi h, agreement_step hi h⟩
  · intro s a _ h
    exact keeps_of_stuck h
  · exact every_of_forall_mem fun _ _ => trivial
  · exact ⟨by simp, List.isChain_nil⟩

end Counting

section Runs

/-- An engine that encodes every payload. -/
def encoder : Engine where
  encodes _ := true
  toUpperCase s := s

def plantNode : ConnectionDocument where
  groupId := some "G"
  edgeNodeId := some "E"

/-- At its first connection the node has registered -1, and its birth tells 0. -/
theorem first_birth_disagrees :
    ∃ t, Visits (step encoder plantNode) {}
        [.newClient, .connect, .publish .nodeBirth { metrics := some [] } {}] t ∧
      ∃ c ∈ t.connections, Bears c 0 ∧ Registers c.will (-1) ∧ ¬Agreement t.connections := by
  refine ⟨_, ⟨_, List.prefix_refl _, rfl⟩, _, List.mem_cons_self,
    ⟨_, List.mem_cons_self, rfl, [], rfl⟩, ⟨_, rfl, [], rfl⟩, fun hagree => ?_⟩
  have heq := hagree.births _ List.mem_cons_self 0 ⟨_, List.mem_cons_self, rfl, [], rfl⟩ (-1)
    ⟨_, rfl, [], rfl⟩
  omega

end Runs

end JsonScada.System.DeathSequence
