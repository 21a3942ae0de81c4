/- path: JsonScada/System/InterrogationReply
   source: src/lib60870.netcore/iec104server/InterrogationHandler.cs
   digest: Which points the reply to an interrogation has, and in which ASDUs. -/

import JsonScada.Iec104Server.Interrogation

set_option autoImplicit false
set_option relaxedAutoImplicit false

namespace JsonScada.System.InterrogationReply

open JsonScada.Lib.Binary64 JsonScada.Lib.DotNet JsonScada.Iec104.Types
open JsonScada.Iec104.Objects JsonScada.Iec104.Asdu
open JsonScada.Iec104Server.Command JsonScada.Iec104Server.Monitor
open JsonScada.Iec104Server.Interrogation

section Points

variable (srv : Server)

/-- The type of a point's destination. -/
def pointType (p : RtData) : Option TypeID :=
  (ownDestination srv p).map fun d => .ofCode (toInt32 d.protocolDestinationASDU)

/-- The point has a type that can be interrogated. -/
def interrogable (p : RtData) : Bool := (pointType srv p).any interrogates

def objectOf (p : RtData) : Option InformationObject :=
  (ownDestination srv p).bind fun d => (interrogatedObject p d).join

def addressOf (p : RtData) : Option ℤ :=
  (ownDestination srv p).bind fun d => Convert.toInt32 d.protocolDestinationCommonAddress

/-- The numbers of the point's destination convert. -/
def Convertible (p : RtData) : Prop :=
  ∀ d, ownDestination srv p = some d → interrogatedObject p d ≠ none ∧
    (interrogates (.ofCode (toInt32 d.protocolDestinationASDU)) = true →
      (Convert.toInt32 d.protocolDestinationCommonAddress).isSome)

/-- The point belongs to the group by the group of its destination, the group 0 being
that of all the points that are not marked with -1. -/
def InScope (g : ℕ) (p : RtData) : Prop :=
  p.origin ≠ "command" ∧ ∃ d, ownDestination srv p = some d ∧
    if g = 0 then d.protocolDestinationGroup ≠ .fin (-1)
    else d.protocolDestinationGroup = .fin g ∨ d.protocolDestinationGroup = .fin (20 + g)

instance (g : ℕ) (p : RtData) : Decidable (InScope srv g p) :=
  match h : ownDestination srv p with
  | none => .isFalse fun ⟨_, d, hd, _⟩ => by simp [h] at hd
  | some d =>
    decidable_of_iff (p.origin ≠ "command" ∧
      if g = 0 then d.protocolDestinationGroup ≠ .fin (-1)
      else d.protocolDestinationGroup = .fin g ∨ d.protocolDestinationGroup = .fin (20 + g))
      (by simp [InScope, h])

/-- The destinations of the point, on all connections, are in one group. -/
def OneGroup (p : RtData) : Prop :=
  ∀ d ∈ p.protocolDestinations, ∀ d' ∈ p.protocolDestinations,
    d.protocolDestinationGroup = d'.protocolDestinationGroup

end Points

section Objects

variable {srv : Server} {p : RtData} {dst : Destination}

theorem measured_ne_null {low high : ℤ} {value : Number} {quality : Option QualityDescriptor}
    {make : ℤ → Content} : measured low high value quality make ≠ some none := by
  unfold measured
  intro h
  obtain ⟨q, -, h⟩ := Option.bind_eq_some_iff.mp h
  obtain ⟨n, -, h⟩ := Option.bind_eq_some_iff.mp h
  cases h

theorem interrogatedContent_ne_null
    (h : interrogates (.ofCode (toInt32 dst.protocolDestinationASDU)) = true) :
    interrogatedContent p dst ≠ some none := by
  unfold interrogatedContent
  dsimp only
  cases ht : TypeID.ofCode (toInt32 dst.protocolDestinationASDU) <;> rw [ht] at h <;>
    first
    | exact measured_ne_null
    | exact absurd h Bool.false_ne_true
    | exact fun hnull => Option.some_ne_none _ (Option.some.inj hnull)

/-- The switch makes an object of the type without a time tag, or skips the type. -/
theorem interrogatedObject_cases (p : RtData) (dst : Destination) :
    (interrogates (.ofCode (toInt32 dst.protocolDestinationASDU)) = false ∧
        interrogatedObject p dst = some none) ∨
      interrogates (.ofCode (toInt32 dst.protocolDestinationASDU)) = true ∧
        (interrogatedObject p dst = none ∨ ∃ io, interrogatedObject p dst = some (some io) ∧
          io.type = withoutTime (.ofCode (toInt32 dst.protocolDestinationASDU))) := by
  cases hi : interrogates (.ofCode (toInt32 dst.protocolDestinationASDU)) with
  | false =>
    refine .inl ⟨rfl, ?_⟩
    rw [interrogatedObject, interrogatedContent_eq, hi]
    rfl
  | true =>
    refine .inr ⟨rfl, ?_⟩
    have hne := interrogatedContent_ne_null (p := p) hi
    unfold interrogatedObject
    rcases hc : interrogatedContent p dst with _ | _ | c
    · exact .inl rfl
    · exact absurd hc hne
    · cases Convert.toInt32 dst.protocolDestinationObjectAddress with
      | none => exact .inl rfl
      | some addr => exact .inr ⟨_, rfl, rfl⟩

end Objects

section Chunks

variable (srv : Server) (parameters : ApplicationLayerParameters) (qoi : ℤ)

/-- The ASDU has the objects of the points, each of its type, and the common address of
the first. -/
structure Carried (a : ASDU) (chunk : List RtData) : Prop where
  cot : a.cot = qoi
  interrogable : ∀ p ∈ chunk, interrogable srv p = true
  filled : ∃ t, Filled parameters a (withoutTime t) ∧ ∀ p ∈ chunk, pointType srv p = some t
  objects : a.informationObjects.map some = chunk.map (objectOf srv)
  address : chunk.head?.bind (addressOf srv) = some a.ca

/-- Where the loop stands: the points sent, by ASDU, and those of the ASDU in hand. -/
structure Packed (s : Packing) (chunks : List (List RtData)) (cur : List RtData) : Prop where
  sent : List.Forall₂ (Carried srv parameters qoi) s.sent chunks
  count : s.cntasduobj = cur.length
  last : toInt32 (.fin s.lastasdu) = s.lastasdu
  inHand : s.nwasdu = none ∧ cur = [] ∨ ∃ a, s.nwasdu = some a ∧ cur ≠ [] ∧
    Carried srv parameters qoi a cur ∧ ∀ p ∈ cur, pointType srv p = some (.ofCode s.lastasdu)

variable {srv parameters qoi}

theorem Packed.flush {s : Packing} {chunks : List (List RtData)} {cur : List RtData}
    (h : Packed srv parameters qoi s chunks cur) (dst : Destination) :
    ∃ chunks' cur', Packed srv parameters qoi (s.flush dst) chunks' cur' ∧
      chunks'.flatten ++ cur' = chunks.flatten ++ cur ∧
      (cur' = [] ∨ dst.protocolDestinationASDU = .fin (s.flush dst).lastasdu ∧
        cur'.length < 30) := by
  unfold Packing.flush
  split_ifs with hfull
  · rcases h.inHand with ⟨hnone, hcur⟩ | ⟨a, ha, hne, hcarried, -⟩
    · have hcount := h.count
      rw [hcur] at hcount
      simp [hcount] at hfull
    · have hlast : toInt32 (.fin ((-1 : ℤ) : ℚ)) = -1 := by decide +kernel
      rw [ha]
      refine ⟨chunks ++ [cur], [], ⟨?_, rfl, hlast, .inl ⟨rfl, rfl⟩⟩, ?_, .inl rfl⟩
      · exact List.rel_append h.sent (.cons hcarried .nil)
      · simp
  · refine ⟨chunks, cur, h, rfl, ?_⟩
    simp only [not_or, not_and, not_lt, not_le, ne_eq] at hfull
    rw [h.count] at hfull
    by_cases hdst : dst.protocolDestinationASDU = .fin s.lastasdu
    · exact .inr ⟨hdst, hfull.2⟩
    · exact .inl (List.length_eq_zero_iff.mp (Nat.le_zero.mp (hfull.1 hdst)))

/-- An object without a time tag, of a type that is interrogated, takes eight octets. -/
theorem objectSize_interrogated {t : TypeID} (h : interrogates t = true) :
    objectSize parameters (withoutTime t) ≤ 8 := by
  have hioa := parameters.sizeOfIOA_le
  have hsize : GetEncodedSize (withoutTime t) ≤ 5 := by
    cases t <;> first | exact absurd h Bool.false_ne_true | decide
  unfold objectSize
  omega

theorem Carried.length {a : ASDU} {chunk : List RtData}
    (h : Carried srv parameters qoi a chunk) : a.informationObjects.length = chunk.length := by
  have hlength := congrArg List.length h.objects
  rwa [List.length_map, List.length_map] at hlength

theorem pointType_eq {p : RtData} {dst : Destination} (h : ownDestination srv p = some dst) :
    pointType srv p = some (.ofCode (toInt32 dst.protocolDestinationASDU)) := by
  rw [pointType, h]
  rfl

theorem interrogable_eq {p : RtData} {dst : Destination} (h : ownDestination srv p = some dst) :
    interrogable srv p = interrogates (.ofCode (toInt32 dst.protocolDestinationASDU)) := by
  rw [interrogable, pointType_eq h]
  rfl

section Step

variable {s : Packing} {chunks : List (List RtData)} {cur : List RtData} {p : RtData}
  {dst : Destination} {io : InformationObject}

/-- The first object of an ASDU. -/
theorem put_first (h : Packed srv parameters qoi s chunks [])
    (hown : ownDestination srv p = some dst) (hobject : interrogatedObject p dst = some (some io))
    (htype : io.type = withoutTime (.ofCode (toInt32 dst.protocolDestinationASDU)))
    (hinterrogates : interrogates (.ofCode (toInt32 dst.protocolDestinationASDU)) = true)
    (haddress : (Convert.toInt32 dst.protocolDestinationCommonAddress).isSome) :
    ∃ t, s.put parameters qoi p dst = some t ∧
      Packed srv parameters qoi { t with lastasdu := toInt32 dst.protocolDestinationASDU }
        chunks [p] := by
  obtain ⟨ca, hca⟩ := Option.isSome_iff_exists.mp haddress
  obtain ⟨a, hadd, hfilled, hobjects, hcot, hasduca⟩ := @add_first parameters qoi ca io
  have hcount : s.cntasduobj = 0 := h.count
  refine ⟨{ s with nwasdu := some a, cntasduobj := s.cntasduobj + 1 }, ?_, ?_⟩
  · simp only [Packing.put, hobject, inHand, hcount, if_true, hca, Option.map_some,
      Option.bind_some, hadd]
  · refine ⟨h.sent, by simp [hcount], toInt32_intCast (toInt32_bounds _), .inr ⟨a, rfl, ?_⟩⟩
    refine ⟨List.cons_ne_nil p [], ⟨hcot, ?_, ⟨_, htype ▸ hfilled, ?_⟩, ?_, ?_⟩, ?_⟩
    · intro q hq
      rw [List.mem_singleton.mp hq, interrogable_eq hown, hinterrogates]
    · intro q hq
      rw [List.mem_singleton.mp hq, pointType_eq hown]
    · simp [hobjects, objectOf, hown, hobject]
    · simp [addressOf, hown, hca, hasduca]
    · intro q hq
      rw [List.mem_singleton.mp hq, pointType_eq hown]

/-- A further object of the same type: thirty of them are never too long. -/
theorem put_further (h : Packed srv parameters qoi s chunks cur) (hcur : cur ≠ [])
    (hown : ownDestination srv p = some dst) (hobject : interrogatedObject p dst = some (some io))
    (htype : io.type = withoutTime (.ofCode (toInt32 dst.protocolDestinationASDU)))
    (hinterrogates : interrogates (.ofCode (toInt32 dst.protocolDestinationASDU)) = true)
    (hsame : dst.protocolDestinationASDU = .fin s.lastasdu) (hshort : cur.length < 30) :
    ∃ t, s.put parameters qoi p dst = some t ∧
      Packed srv parameters qoi { t with lastasdu := toInt32 dst.protocolDestinationASDU }
        chunks (cur ++ [p]) := by
  obtain ⟨-, hnil⟩ | ⟨a, ha, -, hcarried, hlast⟩ := h.inHand
  · exact absurd hnil hcur
  have hcode : toInt32 dst.protocolDestinationASDU = s.lastasdu := by rw [hsame, h.last]
  obtain ⟨t, hfilled, htypes⟩ := hcarried.filled
  have hlength := hcarried.length
  have ht : t = .ofCode (toInt32 dst.protocolDestinationASDU) := by
    obtain ⟨q, rest, rfl⟩ := List.exists_cons_of_ne_nil hcur
    have hq := htypes q List.mem_cons_self
    rw [hlast q List.mem_cons_self, ← hcode] at hq
    exact (Option.some.inj hq).symm
  rw [ht, ← htype] at hfilled
  have hfits : (a.informationObjects.length + 1) * objectSize parameters io.type ≤
      room parameters := by
    have hroom := @room_ge parameters
    have hsize : objectSize parameters io.type ≤ 8 := by
      rw [htype]
      exact objectSize_interrogated hinterrogates
    calc (a.informationObjects.length + 1) * objectSize parameters io.type ≤ 30 * 8 :=
          Nat.mul_le_mul (by omega) hsize
      _ ≤ room parameters := by omega
  have hcount : s.cntasduobj ≠ 0 := by
    rw [h.count]
    exact fun hzero => hcur (List.length_eq_zero_iff.mp hzero)
  have hadd := add_filled hfilled (by omega)
  rw [if_pos hfits] at hadd
  refine ⟨{ s with nwasdu := some (push parameters a io), cntasduobj := s.cntasduobj + 1 },
    ?_, ?_⟩
  · simp only [Packing.put, hobject, inHand, hcount, if_false, ha, Option.bind_some, hadd,
      Option.map_some]
  · refine ⟨h.sent, by simp [h.count], toInt32_intCast (toInt32_bounds _),
      .inr ⟨_, rfl, by simp, ⟨hcarried.cot, ?_, ⟨t, ?_, ?_⟩, ?_, ?_⟩, ?_⟩⟩
    · intro q hq
      rcases List.mem_append.mp hq with hq | hq
      · exact hcarried.interrogable q hq
      · rw [List.mem_singleton.mp hq, interrogable_eq hown, hinterrogates]
    · rw [ht, ← htype]
      exact hfilled.add hfits
    · intro q hq
      rcases List.mem_append.mp hq with hq | hq
      · exact htypes q hq
      · rw [List.mem_singleton.mp hq, pointType_eq hown, ht]
    · simp [push, hcarried.objects, objectOf, hown, hobject]
    · rw [List.head?_append_of_ne_nil cur hcur]
      exact hcarried.address
    · intro q hq
      rcases List.mem_append.mp hq with hq | hq
      · rw [hlast q hq, hcode]
      · rw [List.mem_singleton.mp hq, pointType_eq hown]

/-- One round of the loop takes a point of an interrogable type, and no other. -/
theorem next_spec (h : Packed srv parameters qoi s chunks cur) (hp : Convertible srv p) :
    ∃ t chunks' cur', s.next srv parameters qoi p = (t, true) ∧
      Packed srv parameters qoi t chunks' cur' ∧
      chunks'.flatten ++ cur' = chunks.flatten ++ cur ++ [p].filter (interrogable srv) := by
  cases hown : ownDestination srv p with
  | none =>
    have hno : interrogable srv p = false := by simp [interrogable, pointType, hown]
    refine ⟨s, chunks, cur, by simp [Packing.next, hown], h, by simp [hno]⟩
  | some dst =>
    obtain ⟨chunks', cur', hpacked, hflat, hroom⟩ := h.flush dst
    obtain ⟨hobject, haddress⟩ := hp dst hown
    rcases interrogatedObject_cases p dst with ⟨hskip, hnull⟩ | ⟨hinterrogates, hmade⟩
    · have hempty : cur' = [] := by
        rcases hroom with hempty | ⟨hsame, -⟩
        · exact hempty
        · by_contra hcur
          obtain ⟨-, hnil⟩ | ⟨a, -, -, hcarried, hlast⟩ := hpacked.inHand
          · exact hcur hnil
          · obtain ⟨q, rest, rfl⟩ := List.exists_cons_of_ne_nil hcur
            have hq := hcarried.interrogable q List.mem_cons_self
            rw [interrogable, hlast q List.mem_cons_self, ← hpacked.last, ← hsame] at hq
            rw [Option.any_some, hskip] at hq
            cases hq
      subst hempty
      refine ⟨{ s.flush dst with lastasdu := toInt32 dst.protocolDestinationASDU }, chunks', [],
        ?_, ⟨hpacked.sent, hpacked.count, toInt32_intCast (toInt32_bounds _), ?_⟩, ?_⟩
      · simp only [Packing.next, hown, Packing.put, hnull]
      · exact .inl ⟨(hpacked.inHand.resolve_right fun ⟨a, _, hne, _⟩ => hne rfl).1, rfl⟩
      · rw [hflat]
        simp [interrogable_eq hown, hskip]
    · obtain hnone | ⟨io, hio, htype⟩ := hmade
      · exact absurd hnone hobject
      have hput : ∃ t, (s.flush dst).put parameters qoi p dst = some t ∧
          Packed srv parameters qoi { t with lastasdu := toInt32 dst.protocolDestinationASDU }
            chunks' (cur' ++ [p]) := by
        by_cases hcur : cur' = []
        · subst hcur
          exact put_first hpacked hown hio htype hinterrogates (haddress hinterrogates)
        · obtain ⟨hsame, hshort⟩ := hroom.resolve_left hcur
          exact put_further hpacked hcur hown hio htype hinterrogates hsame hshort
      obtain ⟨t, ht, hnext⟩ := hput
      refine ⟨_, chunks', cur' ++ [p], ?_, hnext, ?_⟩
      · simp only [Packing.next, hown, ht]
      · rw [← List.append_assoc, hflat]
        simp [interrogable_eq hown, hinterrogates]

theorem loop_spec (list : List RtData) (h : Packed srv parameters qoi s chunks cur)
    (hlist : ∀ p ∈ list, Convertible srv p) :
    ∃ t chunks' cur', loop srv parameters qoi s list = (t, true) ∧
      Packed srv parameters qoi t chunks' cur' ∧
      chunks'.flatten ++ cur' = chunks.flatten ++ cur ++ list.filter (interrogable srv) := by
  induction list generalizing s chunks cur with
  | nil => exact ⟨s, chunks, cur, rfl, h, by simp⟩
  | cons p ps ih =>
    rw [List.forall_mem_cons] at hlist
    obtain ⟨t, chunks₁, cur₁, hnext, hpacked, hflat⟩ := next_spec h hlist.1
    obtain ⟨u, chunks₂, cur₂, hloop, hpacked₂, hflat₂⟩ := ih hpacked hlist.2
    refine ⟨u, chunks₂, cur₂, ?_, hpacked₂, ?_⟩
    · rw [loop, hnext]
      exact hloop
    · rw [hflat₂, hflat, List.append_assoc, ← List.filter_append]
      rfl

end Step

end Chunks

section Scope

variable {srv : Server} {p : RtData}

theorem anyDestination_connection :
    anyDestination (·.protocolDestinationConnectionNumber) srv.protocolConnectionNumber p = true ↔
      ∃ d, ownDestination srv p = some d := by
  unfold anyDestination ownDestination
  rw [← Option.isSome_iff_exists, List.find?_isSome, List.any_eq_true]

/-- Of destinations in one group, one is in a group when the point's own is. -/
theorem anyDestination_group (h : OneGroup p) {d : Destination}
    (hown : ownDestination srv p = some d) (n : ℤ) :
    anyDestination (·.protocolDestinationGroup) n p = true ↔
      d.protocolDestinationGroup = .fin n := by
  have hmem := List.mem_of_find?_eq_some hown
  unfold anyDestination
  rw [List.any_eq_true]
  constructor
  · rintro ⟨e, he, hgroup⟩
    rw [h d hmem e he]
    exact of_decide_eq_true hgroup
  · intro hgroup
    exact ⟨d, hmem, decide_eq_true hgroup⟩

theorem interrogationFilter_iff (h : OneGroup p) (g : ℕ) :
    interrogationFilter srv (20 + g) p = true ↔ InScope srv g p := by
  unfold interrogationFilter InScope
  rw [Bool.and_eq_true, Bool.and_eq_true, anyDestination_connection]
  constructor
  · rintro ⟨⟨⟨d, hown⟩, horigin⟩, hgroup⟩
    refine ⟨of_decide_eq_true horigin, d, hown, ?_⟩
    by_cases hg : g = 0
    · rw [if_pos (by omega)] at hgroup
      rw [if_pos hg]
      intro hmarked
      rw [(anyDestination_group h hown (-1)).mpr (by exact_mod_cast hmarked)] at hgroup
      cases hgroup
    · rw [if_neg (by omega), Bool.or_eq_true, anyDestination_group h hown,
        anyDestination_group h hown] at hgroup
      rw [if_neg hg]
      refine (hgroup.symm.imp ?_ ?_) <;> intro heq <;> rw [heq] <;> push_cast <;> ring_nf
  · rintro ⟨horigin, d, hown, hgroup⟩
    refine ⟨⟨⟨d, hown⟩, decide_eq_true horigin⟩, ?_⟩
    by_cases hg : g = 0
    · rw [if_pos hg] at hgroup
      rw [if_pos (by omega), Bool.not_eq_true']
      refine Bool.eq_false_iff.mpr fun hany => hgroup ?_
      have hmarked := (anyDestination_group h hown (-1)).mp hany
      exact_mod_cast hmarked
    · rw [if_neg hg] at hgroup
      rw [if_neg (by omega), Bool.or_eq_true, anyDestination_group h hown,
        anyDestination_group h hown]
      refine (hgroup.symm.imp ?_ ?_) <;> intro heq <;> rw [heq] <;> push_cast <;> ring_nf

end Scope

section Replies

/-- The points of the group that can be interrogated are each in one of the ASDUs, of
the type without a time tag of their destinations, and of the common address of these
where it is the same for all the points of a type. -/
def Answered (srv : Server) (g : ℕ) (documents : List RtData) (reply : List Sent) : Prop :=
  ∃ asdus chunks, reply = .actCon false :: (asdus.map .asdu ++ [.actTerm]) ∧
    chunks.flatten.Perm (documents.filter fun p => InScope srv g p ∧ interrogable srv p) ∧
    List.Forall₂ (fun a chunk => a.informationObjects.map some = chunk.map (objectOf srv) ∧
      (∀ p ∈ chunk, a.typeId = (pointType srv p).map withoutTime) ∧
      ((∀ p ∈ documents, ∀ q ∈ documents, InScope srv g p → InScope srv g q →
          pointType srv p = pointType srv q → addressOf srv p = addressOf srv q) →
        ∀ p ∈ chunk, addressOf srv p = some a.ca)) asdus chunks

/-- The points of the group are each in one of the ASDUs, of the type and the common
address of their destinations. -/
def Faithful (srv : Server) (g : ℕ) (documents : List RtData) (reply : List Sent) : Prop :=
  ∃ asdus chunks, reply = .actCon false :: (asdus.map .asdu ++ [.actTerm]) ∧
    chunks.flatten.Perm (documents.filter fun p => InScope srv g p) ∧
    List.Forall₂ (fun a chunk => a.informationObjects.map some = chunk.map (objectOf srv) ∧
      ∀ p ∈ chunk, a.typeId = pointType srv p ∧ addressOf srv p = some a.ca) asdus chunks

variable {srv : Server} {parameters : ApplicationLayerParameters}

/-- The ASDUs of a whole reply, with the points of each. -/
theorem handler_spec {qoi : ℤ} {list : List RtData} (h : ∀ p ∈ list, Convertible srv p) :
    ∃ asdus chunks, InterrogationHandler srv parameters qoi list =
        .actCon false :: (asdus.map .asdu ++ [.actTerm]) ∧
      chunks.flatten = list.filter (interrogable srv) ∧
      List.Forall₂ (Carried srv parameters qoi) asdus chunks := by
  have hstart : Packed srv parameters qoi {} [] [] :=
    ⟨.nil, rfl, by decide +kernel, .inl ⟨rfl, rfl⟩⟩
  obtain ⟨t, chunks, cur, hloop, hpacked, hflat⟩ := loop_spec list hstart h
  rw [List.flatten_nil, List.nil_append, List.nil_append] at hflat
  unfold InterrogationHandler
  simp only [hloop, if_true]
  obtain ⟨hnone, rfl⟩ | ⟨a, ha, -, hcarried, -⟩ := hpacked.inHand
  · refine ⟨t.sent, chunks, by simp [hnone], ?_, hpacked.sent⟩
    rw [← hflat, List.append_nil]
  · refine ⟨t.sent ++ [a], chunks ++ [cur], by simp [ha], ?_, ?_⟩
    · rw [← hflat]
      simp
    · exact List.rel_append hpacked.sent (.cons hcarried .nil)

theorem carried_address {qoi : ℤ} {a : ASDU} {chunk : List RtData}
    (h : Carried srv parameters qoi a chunk)
    (hsame : ∀ p ∈ chunk, ∀ q ∈ chunk, pointType srv p = pointType srv q →
      addressOf srv p = addressOf srv q) : ∀ p ∈ chunk, addressOf srv p = some a.ca := by
  intro p hp
  obtain ⟨t, -, htypes⟩ := h.filled
  cases chunk with
  | nil => cases hp
  | cons q rest =>
    have hq : addressOf srv q = some a.ca := h.address
    rw [← hq]
    exact hsame p hp q List.mem_cons_self
      ((htypes p hp).trans (htypes q List.mem_cons_self).symm)

/-- The message is an ASDU of the type and the common address of the point. -/
def Suits (srv : Server) (p : RtData) : Sent → Bool
  | .asdu a => a.typeId = pointType srv p ∧ addressOf srv p = some a.ca
  | _ => false

/-- A faithful reply has such an ASDU for each point of the group. -/
theorem Faithful.exists_asdu {g : ℕ} {documents : List RtData} {reply : List Sent}
    (h : Faithful srv g documents reply) {p : RtData} (hp : p ∈ documents)
    (hscope : InScope srv g p) : reply.any (Suits srv p) = true := by
  obtain ⟨asdus, chunks, rfl, hperm, hall⟩ := h
  have hin : p ∈ chunks.flatten :=
    hperm.mem_iff.mpr (List.mem_filter.mpr ⟨hp, decide_eq_true hscope⟩)
  obtain ⟨chunk, hchunk, hpchunk⟩ := List.mem_flatten.mp hin
  obtain ⟨i, hi, rfl⟩ := List.getElem_of_mem hchunk
  have hlength := hall.length_eq
  have hi' : i < asdus.length := by omega
  have hget := List.Forall₂.get hall hi' hi
  refine List.any_eq_true.mpr ⟨.asdu asdus[i], by simp, ?_⟩
  exact decide_eq_true (hget.2 p hpchunk)

theorem isReply_self {qoi : ℤ} {documents : List RtData}
    (hfilter : documents.filter (interrogationFilter srv qoi) = documents)
    (hsorted : documents.Pairwise fun x y =>
      Number.lt (sortedASDU srv y) (sortedASDU srv x) = false) :
    IsReply srv parameters qoi documents (InterrogationHandler srv parameters qoi documents) :=
  ⟨documents, List.Perm.of_eq hfilter.symm, hsorted, rfl⟩

end Replies

section Examples

def standard : ApplicationLayerParameters := .standard

def station : Server where
  protocolConnectionNumber := 1

/-- A point with one destination, of the given type and common address. -/
def pointWith (key : ℤ) (asdu ca : Number) : RtData where
  _id := key
  value := .fin 1
  protocolDestinations := [{
    protocolDestinationConnectionNumber := .fin 1
    protocolDestinationCommonAddress := ca
    protocolDestinationObjectAddress := .fin (100 + key)
    protocolDestinationASDU := asdu }]

def timedPoint : List RtData := [pointWith 1 (.fin 30) (.fin 5)]

def oneStation : List RtData := [pointWith 1 (.fin 1) (.fin 5), pointWith 2 (.fin 1) (.fin 5)]

def twoStations : List RtData := [pointWith 1 (.fin 1) (.fin 5), pointWith 2 (.fin 1) (.fin 6)]

end Examples

end JsonScada.System.InterrogationReply
