/- path: JsonScada/System/AutoAddresses
   layer: system
   digest: Addresses given automatically by the DNP3 server, over any number of starts. -/

import JsonScada.Dnp3Server.Distribute
import JsonScada.Lib.Machine

set_option autoImplicit false
set_option relaxedAutoImplicit false

namespace JsonScada.System.AutoAddresses

open JsonScada.Lib JsonScada.Lib.Binary64 JsonScada.Lib.DotNet
open JsonScada.Dnp3Server.Documents JsonScada.Dnp3Server.Distribute
open JsonScada.Iec104.Types (Destination)

/-- A destination of the connection in a group. -/
def OfGroup (conn : Connection) (group : ℤ) (d : Destination) : Prop :=
  d.protocolDestinationConnectionNumber = .fin conn.protocolConnectionNumber ∧
    d.protocolDestinationCommonAddress = .fin group

theorem OfGroup.unique {conn : Connection} {group group' : ℤ} {d : Destination}
    (h : OfGroup conn group d) (h' : OfGroup conn group' d) : group = group' := by
  have heq : (Number.fin group) = .fin group' := h.2.symm.trans h'.2
  exact Int.cast_injective (Number.fin.inj heq)

/-- How destinations are given for some of the loops: every tag keeps what it has and gets
at most one; the tags of the loops without a destination of the connection get one, and only
they; and no tag gets an address that another has in the same group of the connection. -/
structure Distribution (conn : Connection) (bs : List Block) (db db' : List Tag)
    (given : Tag → Option Destination) : Prop where
  result : db' = db.map fun t => (given t).elim t t.push
  once : ∀ t ∈ db, ∀ b ∈ bs, isNew conn b t = true → ∃ d, given t = some d
  own : ∀ t ∈ db, ∀ d, given t = some d →
    ∃ b ∈ bs, isNew conn b t = true ∧ OfGroup conn b.group d
  distinct : ∀ t ∈ db, ∀ d, given t = some d → ∀ t' ∈ db, t' ≠ t →
    ∀ d' ∈ t'.destinations ++ (given t').toList, ∀ group, OfGroup conn group d →
      OfGroup conn group d' →
        d'.protocolDestinationObjectAddress ≠ d.protocolDestinationObjectAddress

def Distributed (conn : Connection) (bs : List Block) (db db' : List Tag) : Prop :=
  ∃ given, Distribution conn bs db db' given

/-- The loop finds the highest address in use: the tags to be given one have numbers for
their keys and are not too many, the addresses of the connection in the tags the loop reads
are whole and leave room, and no address of the group is above all of these. -/
structure Recoverable (conn : Connection) (b : Block) (db : List Tag) : Prop where
  numeric : ∀ t ∈ db.filter (isNew conn b), ∃ n, t._id = .number n
  room : (db.filter (isNew conn b)).length ≤ 65536
  whole : ∀ t ∈ db.filter (linked conn b), ∀ d ∈ t.destinations, conn.owns d = true →
    ∃ a : ℤ, d.protocolDestinationObjectAddress = .fin a ∧ -2 ^ 31 ≤ a ∧
      a + (db.filter (isNew conn b)).length ≤ 65535
  seen : ∀ t ∈ db, ∀ d ∈ t.destinations, OfGroup conn b.group d →
    ∃ t' ∈ db.filter (linked conn b), ∃ d' ∈ t'.destinations, conn.owns d' = true ∧
      Number.le d.protocolDestinationObjectAddress d'.protocolDestinationObjectAddress = true

/-- The addresses from zero on are free, as many as there are analog tags to be given one. -/
structure Unused (conn : Connection) (db : List Tag) : Prop where
  numeric : ∀ t ∈ db.filter (isNew conn analogs), ∃ n, t._id = .number n
  room : (db.filter (isNew conn analogs)).length ≤ 65536
  unused : ∀ t ∈ db, ∀ d ∈ t.destinations, OfGroup conn analogs.group d →
    ∀ i : ℕ, i < (db.filter (isNew conn analogs)).length →
      d.protocolDestinationObjectAddress ≠ .fin i

/-- What a start needs of the tags before it. -/
def Startable (conn : Connection) (db : List Tag) : Prop :=
  conn.autoCreateTags = true →
    (conn.commandsEnabled = true →
      Recoverable conn crobs db ∧ Recoverable conn analogOutputs db) ∧
    Recoverable conn digitals db ∧ Unused conn db

/-- One loop gives addresses that follow the last one, where these are free. -/
theorem distribute_distributed {conn : Connection} {b : Block} {db : List Tag} {last : ℤ}
    (hids : (db.map Tag._id).Nodup)
    (hnumeric : ∀ t ∈ db.filter (isNew conn b), ∃ n, t._id = .number n)
    (hroom : last + (db.filter (isNew conn b)).length ≤ 65535)
    (hfree : ∀ t ∈ db, ∀ d ∈ t.destinations, OfGroup conn b.group d →
      ∀ i : ℕ, i < (db.filter (isNew conn b)).length →
        d.protocolDestinationObjectAddress ≠ .fin (last + 1 + i : ℤ)) :
    Distributed conn [b] db (distribute conn b last db) := by
  let ids := (newTags conn b db).map Tag._id
  have hmem : ∀ t ∈ db, (t._id ∈ ids ↔ isNew conn b t = true) := by
    intro t ht
    constructor
    · intro hid
      obtain ⟨u, hu, heq⟩ := List.mem_map.mp hid
      obtain ⟨hudb, hnew⟩ := mem_newTags.mp hu
      rwa [← eq_of_id hids hudb ht heq]
    · intro hnew
      exact List.mem_map_of_mem (mem_newTags.mpr ⟨ht, hnew⟩)
  have hlength : ids.length = (db.filter (isNew conn b)).length := by
    rw [List.length_map, newTags_perm.length_eq]
  have hgiven : ∀ {t : Tag} {d : Destination}, (if t._id ∈ ids then
      some (created conn b (last + 1 + ids.idxOf t._id)) else none) = some d →
      t._id ∈ ids ∧ d = created conn b (last + 1 + ids.idxOf t._id) := by
    intro t d h
    split at h
    case isTrue hid => exact ⟨hid, (Option.some.inj h).symm⟩
    case isFalse => cases h
  refine ⟨fun t => if t._id ∈ ids then
    some (created conn b (last + 1 + ids.idxOf t._id)) else none, ?_, ?_, ?_, ?_⟩
  · rw [distribute_eq_map hids (fun t ht hnew => hnumeric t (List.mem_filter.mpr ⟨ht, hnew⟩))
      hroom]
    apply List.map_congr_left
    intro t _
    show (if t._id ∈ ids then _ else t) = _
    split_ifs <;> rfl
  · intro t ht b' hb' hnew
    obtain rfl := List.mem_singleton.mp hb'
    exact ⟨_, if_pos ((hmem t ht).mpr hnew)⟩
  · intro t ht d hd
    obtain ⟨hid, rfl⟩ := hgiven hd
    exact ⟨b, List.mem_singleton_self b, (hmem t ht).mp hid, rfl, rfl⟩
  · intro t ht d hd t' ht' hne d' hd' group hg hg'
    obtain ⟨hid, rfl⟩ := hgiven hd
    obtain rfl : group = b.group := hg.unique ⟨rfl, rfl⟩
    rcases List.mem_append.mp hd' with hold | hnew
    · refine hfree t' ht' d' hold hg' (ids.idxOf t._id) ?_
      rw [← hlength]
      exact List.idxOf_lt_length_of_mem hid
    · obtain ⟨hid', rfl⟩ := hgiven (Option.mem_toList.mp hnew)
      intro heq
      have hidx : ids.idxOf t'._id = ids.idxOf t._id := by
        have h : (Number.fin ((last + 1 + ids.idxOf t'._id : ℤ) : ℚ)) =
          .fin (last + 1 + ids.idxOf t._id : ℤ) := heq
        have h := Int.cast_injective (Number.fin.inj h)
        omega
      have hsame := (List.idxOf_inj hid').mp hidx
      exact hne (eq_of_id hids ht' ht hsame)

/-- Where the last address can be recovered, the addresses after it are free. -/
theorem recoverable_free {conn : Connection} {b : Block} {db : List Tag}
    (h : Recoverable conn b db) :
    lastAddress conn (linkedTags conn b db) + (db.filter (isNew conn b)).length ≤ 65535 ∧
      ∀ t ∈ db, ∀ d ∈ t.destinations, OfGroup conn b.group d → ∀ i : ℕ,
        d.protocolDestinationObjectAddress ≠
          .fin (lastAddress conn (linkedTags conn b db) + 1 + i : ℤ) := by
  have hmem : ∀ d, d ∈ (linkedTags conn b db).flatMap Tag.destinations ↔
      ∃ t ∈ db.filter (linked conn b), d ∈ t.destinations := by
    intro d
    simp only [linkedTags, List.mem_flatMap, Collection.mem_sortBy]
  have hwhole : ∀ d ∈ (linkedTags conn b db).flatMap Tag.destinations, conn.owns d = true →
      ∃ a : ℤ, d.protocolDestinationObjectAddress = .fin a ∧ -2 ^ 31 ≤ a ∧ a < 2 ^ 31 := by
    intro d hd howns
    obtain ⟨t, ht, hdt⟩ := (hmem d).mp hd
    obtain ⟨a, ha, hlow, hhigh⟩ := h.whole t ht d hdt howns
    exact ⟨a, ha, hlow, by omega⟩
  obtain ⟨-, hge, hlast⟩ := @foldl_higher conn _ (-1) hwhole
  constructor
  · rcases hlast with hlast | ⟨d, hd, howns, haddr⟩
    · have hroom := h.room
      rw [lastAddress, hlast]
      omega
    · obtain ⟨t, ht, hdt⟩ := (hmem d).mp hd
      obtain ⟨a, ha, -, hhigh⟩ := h.whole t ht d hdt howns
      have heq : a = lastAddress conn (linkedTags conn b db) :=
        Int.cast_injective (Number.fin.inj (ha.symm.trans haddr))
      omega
  · intro t ht d hd hgroup i heq
    obtain ⟨t', ht', d', hd', howns, hle⟩ := h.seen t ht d hd hgroup
    obtain ⟨a, ha, -, -⟩ := h.whole t' ht' d' hd' howns
    have hmax : a ≤ lastAddress conn (linkedTags conn b db) :=
      hge d' ((hmem d').mpr ⟨t', ht', hd'⟩) howns a ha
    rw [heq, ha] at hle
    have hnum : lastAddress conn (linkedTags conn b db) + 1 + i ≤ a := by
      simp only [Number.le, Number.lt_fin, Number.eqv_fin, Bool.or_eq_true,
        decide_eq_true_eq] at hle
      rcases hle with hlt | heq
      · exact le_of_lt (by exact_mod_cast hlt)
      · exact le_of_eq (by exact_mod_cast heq)
    omega

/-- The loop is for other tags and another group than the loops before it. -/
def Apart (bs : List Block) (b : Block) : Prop :=
  ∀ b' ∈ bs, b'.group ≠ b.group ∧ ∀ t, b'.holds t = true → b.holds t = false

theorem holds_of_isNew {conn : Connection} {b : Block} {t : Tag} (h : isNew conn b t = true) :
    b.holds t = true := by
  unfold isNew unlinked at h
  simp only [Bool.and_eq_true] at h
  exact h.1.1

section Frame

variable {conn : Connection} {bs : List Block} {b : Block} {db db' : List Tag}

theorem Distributed.ids (h : Distributed conn bs db db') : db'.map Tag._id = db.map Tag._id := by
  obtain ⟨given, h⟩ := h
  rw [h.result, List.map_map]
  apply List.map_congr_left
  intro t _
  show ((given t).elim t t.push)._id = t._id
  cases given t <;> rfl

/-- The tags of another loop stay as they are. -/
theorem Distributed.filter (h : Distributed conn bs db db') (hapart : Apart bs b)
    {p : Tag → Bool} (hp : ∀ t, p t = true → b.holds t = true) : db'.filter p = db.filter p := by
  obtain ⟨given, h⟩ := h
  have hnot : ∀ u, b.holds u = false → p u = false := by
    intro u hu
    cases hpu : p u with
    | false => rfl
    | true =>
      rw [hp u hpu] at hu
      cases hu
  have hfix : ∀ t ∈ db, p ((given t).elim t t.push) = p t ∧
      (p t = true → (given t).elim t t.push = t) := by
    intro t ht
    cases hg : given t with
    | none => exact ⟨rfl, fun _ => rfl⟩
    | some d =>
      obtain ⟨b', hb', hnew, -⟩ := h.own t ht d hg
      have hother : b.holds t = false := (hapart b' hb').2 t (holds_of_isNew hnew)
      have hpt : p t = false := hnot t hother
      have hpush : p (t.push d) = false := hnot (t.push d) hother
      refine ⟨hpush.trans hpt.symm, fun h => ?_⟩
      rw [hpt] at h
      cases h
  rw [h.result]
  clear h
  induction db with
  | nil => rfl
  | cons t ts ih =>
    obtain ⟨heq, hsame⟩ := hfix t List.mem_cons_self
    rw [List.map_cons, List.filter_cons, List.filter_cons, heq,
      ih fun u hu => hfix u (List.mem_cons_of_mem t hu)]
    split_ifs with hpt
    · rw [hsame hpt]
    · rfl

/-- The destinations of another group were there before. -/
theorem Distributed.destination (h : Distributed conn bs db db') (hapart : Apart bs b) {t' : Tag}
    (ht' : t' ∈ db') {d : Destination} (hd : d ∈ t'.destinations)
    (hgroup : OfGroup conn b.group d) : ∃ t ∈ db, d ∈ t.destinations := by
  obtain ⟨given, h⟩ := h
  rw [h.result] at ht'
  obtain ⟨t, ht, rfl⟩ := List.mem_map.mp ht'
  refine ⟨t, ht, ?_⟩
  cases hg : given t with
  | none => rwa [hg] at hd
  | some e =>
    rw [hg, Option.elim_some, Tag.destinations_push] at hd
    rcases List.mem_append.mp hd with hd | hd
    · exact hd
    · obtain rfl := List.mem_singleton.mp hd
      obtain ⟨b', hb', -, hown⟩ := h.own t ht d hg
      exact absurd (hown.unique hgroup) (hapart b' hb').1

theorem isNew_holds (t : Tag) (h : isNew conn b t = true) : b.holds t = true := holds_of_isNew h

theorem linked_holds (t : Tag) (h : linked conn b t = true) : b.holds t = true := by
  unfold linked at h
  simp only [Bool.and_eq_true] at h
  exact h.1.1

theorem Recoverable.after (hr : Recoverable conn b db) (h : Distributed conn bs db db')
    (hapart : Apart bs b) : Recoverable conn b db' := by
  have hnew := h.filter hapart (@isNew_holds conn b)
  have hlinked := h.filter hapart (@linked_holds conn b)
  constructor
  · rw [hnew]
    exact hr.numeric
  · rw [hnew]
    exact hr.room
  · rw [hnew, hlinked]
    exact hr.whole
  · intro t' ht' d hd hgroup
    obtain ⟨t, ht, hd⟩ := h.destination hapart ht' hd hgroup
    rw [hlinked]
    exact hr.seen t ht d hd hgroup

theorem Unused.after (hu : Unused conn db) (h : Distributed conn bs db db')
    (hapart : Apart bs analogs) : Unused conn db' := by
  have hnew := h.filter hapart (@isNew_holds conn analogs)
  constructor
  · rw [hnew]
    exact hu.numeric
  · rw [hnew]
    exact hu.room
  · rw [hnew]
    intro t' ht' d hd hgroup
    obtain ⟨t, ht, hd⟩ := h.destination hapart ht' hd hgroup
    exact hu.unused t ht d hd hgroup

/-- The tag with what it is given. -/
def withGiven (given : Tag → Option Destination) (t : Tag) : Tag := (given t).elim t t.push

/-- What a loop gives to the tags that the loops before it have left. -/
def chained (given given' : Tag → Option Destination) (t : Tag) : Option Destination :=
  (given t).or (given' (withGiven given t))

section Chained

variable {given given' : Tag → Option Destination} {t : Tag} {d : Destination}

theorem withGiven_of_none (h : given t = none) : withGiven given t = t := by
  unfold withGiven
  rw [h]
  rfl

theorem withGiven_of_some (h : given t = some d) : withGiven given t = t.push d := by
  unfold withGiven
  rw [h]
  rfl

theorem withGiven_id : (withGiven given t)._id = t._id := by
  cases h : given t with
  | none => rw [withGiven_of_none h]
  | some d => rw [withGiven_of_some h, Tag.push_id]

theorem destinations_withGiven :
    (withGiven given t).destinations = t.destinations ++ (given t).toList := by
  cases h : given t with
  | none =>
    rw [withGiven_of_none h]
    exact (List.append_nil _).symm
  | some d =>
    rw [withGiven_of_some h, Tag.destinations_push]
    rfl

theorem chained_of_none (h : given t = none) : chained given given' t = given' t := by
  unfold chained
  rw [withGiven_of_none h, h]
  rfl

theorem chained_of_some (h : given t = some d) : chained given given' t = some d := by
  unfold chained
  rw [h]
  rfl

/-- A tag has its destination from the loops before, or else from the last. -/
theorem chained_cases (h : chained given given' t = some d) :
    given t = some d ∨ given t = none ∧ given' t = some d := by
  cases hg : given t with
  | none => exact .inr ⟨rfl, (chained_of_none hg).symm.trans h⟩
  | some e => exact .inl ((chained_of_some hg).symm.trans h)

end Chained

section AndThen

variable {given given' : Tag → Option Destination} {db'' : List Tag}

theorem Distribution.mem_withGiven (h : Distribution conn bs db db' given) {t : Tag}
    (ht : t ∈ db) : withGiven given t ∈ db' := by
  rw [h.result]
  exact List.mem_map_of_mem ht

theorem Distribution.mem_of_none (h : Distribution conn bs db db' given) {t : Tag}
    (ht : t ∈ db) (hg : given t = none) : t ∈ db' := by
  have hmem := h.mem_withGiven ht
  rwa [withGiven_of_none hg] at hmem

/-- What a loop before has given a destination is not new any more. -/
theorem Distribution.not_again (h : Distribution conn bs db db' given)
    (h' : Distribution conn [b] db' db'' given') {t : Tag} {d : Destination} (ht : t ∈ db)
    (hg : given t = some d) : given' (t.push d) = none := by
  have hmem : t.push d ∈ db' := by
    have hmem := h.mem_withGiven ht
    rwa [withGiven_of_some hg] at hmem
  cases hg' : given' (t.push d) with
  | none => rfl
  | some d' =>
    obtain ⟨b', -, -, hown⟩ := h.own t ht d hg
    obtain ⟨b'', -, hnew, -⟩ := h'.own _ hmem d' hg'
    have hany : (t.push d).anyDestination (·.protocolDestinationConnectionNumber)
        conn.protocolConnectionNumber = true := by
      refine List.any_eq_true.mpr ⟨d, ?_, decide_eq_true hown.1⟩
      rw [Tag.destinations_push]
      exact List.mem_append_right _ (List.mem_singleton_self d)
    unfold isNew unlinked at hnew
    rw [hany] at hnew
    simp at hnew

theorem Distribution.result_chained (h : Distribution conn bs db db' given)
    (h' : Distribution conn [b] db' db'' given') :
    db'' = db.map (withGiven (chained given given')) := by
  rw [h'.result, h.result, List.map_map]
  apply List.map_congr_left
  intro t ht
  show withGiven given' (withGiven given t) = withGiven (chained given given') t
  cases hg : given t with
  | none =>
    rw [withGiven_of_none hg]
    unfold withGiven
    rw [chained_of_none hg]
  | some d =>
    rw [withGiven_of_some hg, withGiven_of_none (h.not_again h' ht hg),
      withGiven_of_some (chained_of_some hg)]

/-- The last loop uses no address of the groups before it, and in its own group none that was
there. -/
theorem Distribution.distinct_chained (h : Distribution conn bs db db' given)
    (h' : Distribution conn [b] db' db'' given') (hids : (db.map Tag._id).Nodup)
    (hapart : Apart bs b) {t t' : Tag} {d d' : Destination} {group : ℤ} (ht : t ∈ db)
    (hd : chained given given' t = some d) (ht' : t' ∈ db) (hne : t' ≠ t)
    (hd' : d' ∈ t'.destinations ++ (chained given given' t').toList)
    (hgroup : OfGroup conn group d) (hgroup' : OfGroup conn group d') :
    d'.protocolDestinationObjectAddress ≠ d.protocolDestinationObjectAddress := by
  have hcases : d' ∈ t'.destinations ++ (given t').toList ∨
      given t' = none ∧ given' t' = some d' := by
    rcases List.mem_append.mp hd' with hold | hnew
    · exact .inl (List.mem_append_left _ hold)
    · rcases chained_cases (Option.mem_toList.mp hnew) with hfirst | hlast
      · exact .inl (List.mem_append_right _ (Option.mem_toList.mpr hfirst))
      · exact .inr hlast
  rcases chained_cases hd with hg | ⟨hg, hg'⟩
  · rcases hcases with hcase | ⟨hnone, hlast⟩
    · exact h.distinct t ht d hg t' ht' hne d' hcase group hgroup hgroup'
    · obtain ⟨b', hb', -, hown⟩ := h.own t ht d hg
      obtain ⟨b'', hb'', -, hown'⟩ := h'.own t' (h.mem_of_none ht' hnone) d' hlast
      obtain rfl := List.mem_singleton.mp hb''
      have heq : b'.group = b''.group :=
        (hgroup.unique hown).symm.trans (hgroup'.unique hown')
      exact absurd heq (hapart b' hb').1
  · have hne' : withGiven given t' ≠ t := by
      intro heq
      exact hne (eq_of_id hids ht' ht (withGiven_id.symm.trans (congrArg Tag._id heq)))
    refine h'.distinct t (h.mem_of_none ht hg) d hg' (withGiven given t') (h.mem_withGiven ht')
      hne' d' ?_ group hgroup hgroup'
    rcases hcases with hcase | ⟨hnone, hlast⟩
    · refine List.mem_append_left _ ?_
      rwa [destinations_withGiven]
    · rw [withGiven_of_none hnone, hlast]
      exact List.mem_append_right _ (List.mem_singleton_self d')

/-- One more loop, for other tags and another group. -/
theorem Distributed.andThen (h : Distributed conn bs db db') (hids : (db.map Tag._id).Nodup)
    (hapart : Apart bs b) (h' : Distributed conn [b] db' db'') :
    Distributed conn (bs ++ [b]) db db'' := by
  obtain ⟨given, h⟩ := h
  obtain ⟨given', h'⟩ := h'
  refine ⟨chained given given', h.result_chained h', ?_, ?_, ?_⟩
  · intro t ht b' hb' hnew
    cases hg : given t with
    | some d => exact ⟨d, chained_of_some hg⟩
    | none =>
      rw [chained_of_none hg]
      rcases List.mem_append.mp hb' with hb' | hb'
      · obtain ⟨d, hd⟩ := h.once t ht b' hb' hnew
        rw [hg] at hd
        cases hd
      · exact h'.once t (h.mem_of_none ht hg) b' hb' hnew
  · intro t ht d hd
    rcases chained_cases hd with hg | ⟨hg, hg'⟩
    · obtain ⟨b', hb', hown⟩ := h.own t ht d hg
      exact ⟨b', List.mem_append_left _ hb', hown⟩
    · obtain ⟨b', hb', hown⟩ := h'.own t (h.mem_of_none ht hg) d hg'
      exact ⟨b', List.mem_append_right _ hb', hown⟩
  · intro t ht d hd t' ht' hne d' hd' group hgroup hgroup'
    exact h.distinct_chained h' hids hapart ht hd ht' hne hd' hgroup hgroup'

end AndThen

end Frame

theorem Distributed.refl (conn : Connection) (db : List Tag) : Distributed conn [] db db := by
  refine ⟨fun _ => none, ?_, ?_, ?_, ?_⟩
  · exact (List.map_id' db).symm
  · rintro t ht b ⟨⟩
  · rintro t ht d ⟨⟩
  · rintro t ht d ⟨⟩

section Start

variable {conn : Connection} {bs : List Block} {b : Block} {db db' : List Tag}

/-- A loop that recovers its last address, after others. -/
theorem Distributed.recovered (h : Distributed conn bs db db') (hids : (db.map Tag._id).Nodup)
    (hr : Recoverable conn b db) (hapart : Apart bs b) :
    Distributed conn (bs ++ [b]) db
      (distribute conn b (lastAddress conn (linkedTags conn b db')) db') := by
  have hr' := hr.after h hapart
  obtain ⟨hroom, hfree⟩ := recoverable_free hr'
  have hids' : (db'.map Tag._id).Nodup := h.ids ▸ hids
  exact h.andThen hids hapart (distribute_distributed hids' hr'.numeric hroom
    fun t ht d hd hgroup i _ => hfree t ht d hd hgroup i)

/-- The loop of group 30, after others. -/
theorem Distributed.restarted (h : Distributed conn bs db db') (hids : (db.map Tag._id).Nodup)
    (hu : Unused conn db) (hapart : Apart bs analogs) :
    Distributed conn (bs ++ [analogs]) db (createG30 conn db') := by
  have hu' := hu.after h hapart
  have hids' : (db'.map Tag._id).Nodup := h.ids ▸ hids
  refine h.andThen hids hapart (distribute_distributed hids' hu'.numeric ?_ ?_)
  · have hroom := hu'.room
    show (-1 : ℤ) + _ ≤ 65535
    omega
  · intro t ht d hd hgroup i hi heq
    refine hu'.unused t ht d hd hgroup i hi ?_
    rw [heq]
    show Number.fin (((-1 : ℤ) + 1 + i : ℤ) : ℚ) = .fin (i : ℚ)
    simp

/-- The loops are for tags of their own. -/
theorem holds_apart {b b' : Block} (h : (b.type, b.origin) ≠ (b'.type, b'.origin)) (t : Tag)
    (ht : b.holds t = true) : b'.holds t = false := by
  unfold Block.holds at ht ⊢
  simp only [Bool.and_eq_true, decide_eq_true_eq] at ht
  rw [ht.1, ht.2]
  by_contra hne
  simp only [Bool.not_eq_false, Bool.and_eq_true, decide_eq_true_eq] at hne
  exact h (Prod.ext hne.1 hne.2)

theorem apart_of_ne {bs : List Block} {b : Block}
    (h : ∀ b' ∈ bs, b'.group ≠ b.group ∧ (b'.type, b'.origin) ≠ (b.type, b.origin)) :
    Apart bs b := by
  intro b' hb'
  obtain ⟨hgroup, hkind⟩ := h b' hb'
  exact ⟨hgroup, holds_apart hkind⟩

theorem start_distributed (hids : (db.map Tag._id).Nodup) (h : Startable conn db) :
    Distributed conn (blocks conn) db (start conn db) := by
  have hrefl := Distributed.refl conn db
  unfold start blocks
  cases hauto : conn.autoCreateTags with
  | false => exact hrefl
  | true =>
    obtain ⟨hcommands, hdigitals, hanalogs⟩ := h hauto
    cases hcmd : conn.commandsEnabled with
    | false =>
      simp only [if_true, Bool.false_eq_true, if_false]
      have h1 := hrefl.recovered hids hdigitals (apart_of_ne (by decide))
      exact h1.restarted hids hanalogs (apart_of_ne (by decide))
    | true =>
      simp only [if_true]
      obtain ⟨hcrobs, houtputs⟩ := hcommands hcmd
      have h1 := hrefl.recovered hids hcrobs (apart_of_ne (by decide))
      have h2 := h1.recovered hids houtputs (apart_of_ne (by decide))
      have h3 := h2.recovered hids hdigitals (apart_of_ne (by decide))
      exact h3.restarted hids hanalogs (apart_of_ne (by decide))

/-- Of tags that have no destination yet a start needs numbers for keys, and that they are
not too many. -/
theorem startable_of_empty (conn : Connection) (hempty : ∀ t ∈ db, t.destinations = [])
    (hnumeric : ∀ t ∈ db, ∃ n, t._id = .number n) (hroom : db.length ≤ 65536) :
    Startable conn db := by
  have hlength : ∀ p : Tag → Bool, (db.filter p).length ≤ 65536 := fun p =>
    (List.length_filter_le p db).trans hroom
  have hrecoverable : ∀ b, Recoverable conn b db := by
    intro b
    constructor
    · exact fun t ht => hnumeric t (List.mem_of_mem_filter ht)
    · exact hlength _
    · intro t ht d hd
      rw [hempty t (List.mem_of_mem_filter ht)] at hd
      cases hd
    · intro t ht d hd
      rw [hempty t ht] at hd
      cases hd
  have hunused : Unused conn db := by
    constructor
    · exact fun t ht => hnumeric t (List.mem_of_mem_filter ht)
    · exact hlength _
    · intro t ht d hd
      rw [hempty t ht] at hd
      cases hd
  exact fun _ => ⟨fun _ => ⟨hrecoverable _, hrecoverable _⟩, hrecoverable _, hunused⟩

end Start

/-- The tags with keys of their own, and what the starts have given them. -/
structure Store where
  tags : List Tag
  unique : (tags.map Tag._id).Nodup
  given : List (DocId × Destination) := []

/-- The destinations of tags beyond those they had, with the keys. -/
def additions (db db' : List Tag) : List (DocId × Destination) :=
  (db.zip db').flatMap fun p =>
    (p.2.destinations.drop p.1.destinations.length).map fun d => (p.1._id, d)

/-- A start for a connection, or a new tag; the database refuses a key in use. -/
inductive Event where
  | startUp (conn : Connection)
  | insert (t : Tag)

def step (s : Store) : Event → Option Store
  | .startUp conn => some {
      tags := start conn s.tags
      unique := (start_ids conn s.tags).symm ▸ s.unique
      given := s.given ++ additions s.tags (start conn s.tags) }
  | .insert t =>
    if h : t._id ∈ s.tags.map Tag._id then some s
    else some {
      tags := s.tags ++ [t]
      unique := by
        rw [List.map_append, List.nodup_append]
        refine ⟨s.unique, List.nodup_singleton _, ?_⟩
        rintro a ha b hb rfl
        exact h (List.mem_singleton.mp hb ▸ ha)
      given := s.given }

/-- Two destinations of one group of a connection. -/
def SameGroup (d d' : Destination) : Prop :=
  d.protocolDestinationConnectionNumber = d'.protocolDestinationConnectionNumber ∧
    d.protocolDestinationCommonAddress = d'.protocolDestinationCommonAddress

/-- What was given is still there, and tells the tags of a group apart. -/
structure Unambiguous (s : Store) : Prop where
  kept : ∀ g ∈ s.given, ∃ t ∈ s.tags, t._id = g.1 ∧ g.2 ∈ t.destinations
  apart : ∀ g ∈ s.given, ∀ g' ∈ s.given, g.1 ≠ g'.1 → SameGroup g.2 g'.2 →
    g.2.protocolDestinationObjectAddress ≠ g'.2.protocolDestinationObjectAddress

theorem additions_map (db : List Tag) (f : Tag → Tag) :
    additions db (db.map f) = db.flatMap fun t =>
      ((f t).destinations.drop t.destinations.length).map fun d => (t._id, d) := by
  induction db with
  | nil => rfl
  | cons t ts ih =>
    rw [List.flatMap_cons, ← ih]
    rfl

/-- The additions are what was given. -/
theorem mem_additions {conn : Connection} {bs : List Block} {db db' : List Tag}
    {given : Tag → Option Destination} (h : Distribution conn bs db db' given)
    {g : DocId × Destination} :
    g ∈ additions db db' ↔ ∃ t ∈ db, t._id = g.1 ∧ given t = some g.2 := by
  have hdrop : ∀ t : Tag, (((given t).elim t t.push).destinations.drop t.destinations.length) =
      (given t).toList := by
    intro t
    cases given t with
    | none => exact List.drop_length
    | some d => simp
  rw [h.result, additions_map, List.mem_flatMap]
  constructor
  · rintro ⟨t, ht, hg⟩
    rw [hdrop] at hg
    obtain ⟨d, hd, rfl⟩ := List.mem_map.mp hg
    exact ⟨t, ht, rfl, Option.mem_toList.mp hd⟩
  · rintro ⟨t, ht, hid, hgiven⟩
    refine ⟨t, ht, ?_⟩
    rw [hdrop]
    refine List.mem_map.mpr ⟨g.2, Option.mem_toList.mpr hgiven, ?_⟩
    rw [hid]

theorem SameGroup.symm {d d' : Destination} (h : SameGroup d d') : SameGroup d' d :=
  ⟨h.1.symm, h.2.symm⟩

/-- Destinations given by a start that distributes tell the tags apart, from each other and
from those given before. -/
theorem Unambiguous.startUp {s : Store} {conn : Connection} (h : Unambiguous s)
    (hd : Distributed conn (blocks conn) s.tags (start conn s.tags)) {s' : Store}
    (hs : step s (.startUp conn) = some s') : Unambiguous s' := by
  obtain ⟨given, hd⟩ := hd
  obtain rfl := Option.some.inj hs
  have hmem : ∀ {g}, g ∈ s.given ++ additions s.tags (start conn s.tags) ↔
      g ∈ s.given ∨ ∃ t ∈ s.tags, t._id = g.1 ∧ given t = some g.2 := by
    intro g
    rw [List.mem_append, mem_additions hd]
  have hafter : ∀ t ∈ s.tags, (given t).elim t t.push ∈ start conn s.tags := by
    intro t ht
    rw [hd.result]
    exact List.mem_map_of_mem ht
  have hid : ∀ t : Tag, ((given t).elim t t.push)._id = t._id := by
    intro t
    cases given t <;> rfl
  -- what is given now differs from every other destination of the group
  have hnew : ∀ g g' : DocId × Destination, (∃ t ∈ s.tags, t._id = g.1 ∧ given t = some g.2) →
      (∃ t ∈ s.tags, t._id = g'.1 ∧ g'.2 ∈ t.destinations ++ (given t).toList) → g.1 ≠ g'.1 →
      SameGroup g.2 g'.2 →
      g'.2.protocolDestinationObjectAddress ≠ g.2.protocolDestinationObjectAddress := by
    rintro g g' ⟨t, ht, htid, hgiven⟩ ⟨t', ht', htid', hin⟩ hne hsame
    obtain ⟨b, -, -, hown⟩ := hd.own t ht g.2 hgiven
    have hne' : t' ≠ t := by
      rintro rfl
      exact hne (htid.symm.trans htid')
    exact hd.distinct t ht g.2 hgiven t' ht' hne' g'.2 hin b.group hown
      ⟨hsame.1.symm.trans hown.1, hsame.2.symm.trans hown.2⟩
  have hold : ∀ g, g ∈ s.given ∨ (∃ t ∈ s.tags, t._id = g.1 ∧ given t = some g.2) →
      ∃ t ∈ s.tags, t._id = g.1 ∧ g.2 ∈ t.destinations ++ (given t).toList := by
    rintro g (hg | ⟨t, ht, htid, hgiven⟩)
    · obtain ⟨t, ht, htid, hin⟩ := h.kept g hg
      exact ⟨t, ht, htid, List.mem_append_left _ hin⟩
    · exact ⟨t, ht, htid, List.mem_append_right _ (Option.mem_toList.mpr hgiven)⟩
  constructor
  · intro g hg
    obtain ⟨t, ht, htid, hin⟩ := hold g (hmem.mp hg)
    refine ⟨_, hafter t ht, (hid t).trans htid, ?_⟩
    cases hgt : given t with
    | none => simpa [hgt] using hin
    | some d => simpa [hgt] using hin
  · intro g hg g' hg' hne hsame
    rcases hmem.mp hg with hg | hgnew
    · rcases hmem.mp hg' with hg' | hgnew'
      · exact h.apart g hg g' hg' hne hsame
      · exact hnew g' g hgnew' (hold g (.inl hg)) (Ne.symm hne) hsame.symm
    · exact (hnew g g' hgnew (hold g' (hmem.mp hg')) hne hsame).symm

theorem Unambiguous.insert {s s' : Store} {t : Tag} (h : Unambiguous s)
    (hs : step s (.insert t) = some s') : Unambiguous s' := by
  dsimp only [step] at hs
  split at hs
  · obtain rfl := Option.some.inj hs
    exact h
  · obtain rfl := Option.some.inj hs
    refine ⟨fun g hg => ?_, h.apart⟩
    obtain ⟨u, hu, hin⟩ := h.kept g hg
    exact ⟨u, List.mem_append_left _ hu, hin⟩

/-- The starts of a run, each with what holds of the tags before it. -/
def AtStarts (P : Connection → Store → Prop) (s : Store) : Event → Prop
  | .startUp conn => P conn s
  | .insert _ => True

/-- In a run whose starts find what they need, every start gives each matching tag without a
destination one, leaves all others as they are, and no two tags of a group of a connection
are ever given one address. -/
theorem starts_distribute (tags : List Tag) (unique : (tags.map Tag._id).Nodup)
    (es : List Event) (s : Store)
    (hstarts : Machine.Every step (AtStarts fun conn s => Startable conn s.tags)
      { tags := tags, unique := unique } es)
    (hrun : Machine.run step { tags := tags, unique := unique } es = some s) :
    Machine.Every step
        (AtStarts fun conn s => Distributed conn (blocks conn) s.tags (start conn s.tags))
        { tags := tags, unique := unique } es ∧
      Unambiguous s := by
  have hdist : Machine.Every step
      (AtStarts fun conn s => Distributed conn (blocks conn) s.tags (start conn s.tags))
      { tags := tags, unique := unique } es := by
    refine hstarts.imp fun s e h => ?_
    cases e with
    | startUp conn => exact start_distributed s.unique h
    | insert t => trivial
  refine ⟨hdist, Machine.run_invariant ?_ hdist ?_ hrun⟩
  · intro s e s' hp hi hs
    cases e with
    | startUp conn => exact hi.startUp hp hs
    | insert t => exact hi.insert hs
  · constructor
    · rintro g ⟨⟩
    · rintro g ⟨⟩

def server : Connection where
  protocolConnectionNumber := 2001

/-- A measurement without destinations. -/
def measurement (n : ℕ) : Tag where
  _id := .number (.fin n)
  tag := "KW" ++ toString n
  type := "analog"
  origin := "supervised"

theorem starts_distribute_first :
    ∃ s, Machine.run step ⟨[measurement 1], by decide, []⟩ [.startUp server] = some s ∧
      Unambiguous s := by
  refine ⟨_, rfl, (starts_distribute [measurement 1] (by decide) [.startUp server] _ ?_ rfl).2⟩
  refine ⟨startable_of_empty server ?_ ?_ (by decide), fun _ _ => trivial⟩
  · intro t ht
    obtain rfl := List.mem_singleton.mp ht
    rfl
  · intro t ht
    obtain rfl := List.mem_singleton.mp ht
    exact ⟨.fin 1, rfl⟩

/-- A second measurement, added between two starts, gets the address of the first. -/
theorem restart_repeats_address :
    ∃ s, Machine.run step ⟨[measurement 1], by decide, []⟩
      [.startUp server, .insert (measurement 2), .startUp server] = some s ∧
      ¬ Unambiguous s := by
  refine ⟨_, rfl, fun h => ?_⟩
  refine h.apart (.number (.fin 1), created server analogs 0) ?_
    (.number (.fin 2), created server analogs 0) ?_ (by decide) ⟨rfl, rfl⟩ rfl
  · decide +kernel
  · decide +kernel

end JsonScada.System.AutoAddresses
