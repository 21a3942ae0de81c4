/- path: JsonScada/System/TagDistribution
   source: src/lib60870.netcore/iec104server/TagsDestinations.cs
   digest: What the distribution of tags over the connections leaves, and its second run. -/

import JsonScada.Iec104Server.TagsDestinations

set_option autoImplicit false
set_option relaxedAutoImplicit false

namespace JsonScada.System.TagDistribution

open JsonScada.Lib.Binary64 JsonScada.Lib.DotNet JsonScada.Lib.Collection
open JsonScada.Iec104.Types (Destination)
open JsonScada.Iec104Server.TagsDestinations

def address (d : Destination) : ℤ := toInt32 d.protocolDestinationObjectAddress

/-- The tags of a category a connection has destinations for. -/
structure Matches (conn : Connection) (cat : Category) (t : Tag) : Prop where
  category : cat ∈ categories conn
  holds : cat.holds t = true
  topics : ofTopics conn t = true

/-- Destinations may be appended, and nothing else changes. -/
structure Extends (t t' : Tag) : Prop where
  others : { t' with protocolDestinations := t.protocolDestinations } = t
  destinations : t.destinations <+: t'.destinations

/-- The destinations for a connection that are new on a tag. -/
def createdFor (conn : Connection) (t t' : Tag) : List Destination :=
  (t'.destinations.drop t.destinations.length).filter conn.owns

/-- What a distribution makes of the content of the database. A tag without a destination for a
connection gets one as long as the range goes on after the highest address in use, in the
order of the keys. -/
structure Distributed (conns : List Connection) (db db' : List Tag) : Prop where
  kept : List.Forall₂ Extends db db'
  mapped : ∀ conn ∈ conns, isActive conn = true → ∀ cat t t', (t, t') ∈ db.zip db' →
    Matches conn cat t → owned conn t = [] → (owned conn t').length =
      if lastIoa conn cat db + place conn cat db t < cat.topIoa then 1 else 0
  created : ∀ conn ∈ conns, ∀ t t', (t, t') ∈ db.zip db' → ∀ d ∈ createdFor conn t t',
    isActive conn = true ∧ owned conn t = [] ∧
      ∃ cat, Matches conn cat t ∧ cat.baseIoa ≤ address d ∧ address d ≤ cat.topIoa
  distinct : ∀ conn ∈ conns, ∀ t t' u u', (t, t') ∈ db.zip db' → (u, u') ∈ db.zip db' →
    u._id ≠ t._id → ∀ d ∈ createdFor conn t t', ∀ e ∈ owned conn u', address d ≠ address e
  again : DistributeAutoTags conns db' = some db'

section Tags

variable {conn : Connection} {cat : Category} {db : List Tag} {t : Tag}

theorem isNew_iff (hcat : cat ∈ categories conn) :
    isNew conn cat t = true ↔ Matches conn cat t ∧ owned conn t = [] := by
  rw [isNew, Bool.and_eq_true, Bool.and_eq_true, Bool.not_eq_true', linked_eq_false_iff]
  constructor
  · rintro ⟨⟨hholds, howned⟩, htopics⟩
    exact ⟨⟨hcat, hholds, htopics⟩, howned⟩
  · rintro ⟨⟨-, hholds, htopics⟩, howned⟩
    exact ⟨⟨hholds, howned⟩, htopics⟩

/-- A destination that is offered has the next address for the tag's place, in the range. -/
theorem offered_spec (hids : (db.map Tag._id).Nodup) (ht : t ∈ db) {d : Destination}
    (h : offered conn db t = some d) :
    isActive conn = true ∧ ∃ cat, Matches conn cat t ∧ owned conn t = [] ∧
      address d = lastIoa conn cat db + 1 + place conn cat db t ∧ address d ≤ cat.topIoa := by
  obtain ⟨hactive, cat, hcat, hd⟩ := of_offered h
  rw [givenIn_eq hids ht] at hd
  split_ifs at hd with hnew
  obtain ⟨hnew, hroom⟩ := hnew
  obtain ⟨hmatches, howned⟩ := (isNew_iff hcat).mp hnew
  obtain ⟨hle, hbounds, -⟩ := categories_apart cat (mem_categories hcat)
  have hlast := (@lastIoa_spec conn cat db hle).1
  have haddress : address d = lastIoa conn cat db + 1 + place conn cat db t := by
    rw [← Option.some.inj hd]
    exact toInt32_intCast ⟨by omega, by omega⟩
  exact ⟨hactive, cat, hmatches, howned, haddress, by omega⟩

/-- The places of two new tags differ. -/
theorem place_ne (hids : (db.map Tag._id).Nodup) {u : Tag} (ht : t ∈ db) (hu : u ∈ db)
    (hnewt : isNew conn cat t = true) (hnewu : isNew conn cat u = true) (hne : u._id ≠ t._id) :
    place conn cat db t ≠ place conn cat db u := by
  intro h
  rw [← idxOf_newTags hids ht hnewt, ← idxOf_newTags hids hu hnewu] at h
  have hmem := List.mem_map_of_mem (f := Tag._id) (mem_newTags.mpr ⟨ht, hnewt⟩)
  exact hne ((List.idxOf_inj hmem).mp h).symm

theorem matches_after {conns : List Connection} :
    Matches conn cat (after conns db t) ↔ Matches conn cat t := by
  obtain ⟨-, htype, horigin, hgroup⟩ := t.pushAll_fields (offers conns db t)
  have hholds : cat.holds (after conns db t) = cat.holds t := by
    rw [after, Category.holds, Category.holds, htype, horigin]
  have htopics : ofTopics conn (after conns db t) = ofTopics conn t := by
    rw [after, ofTopics, ofTopics, hgroup]
  constructor
  · rintro ⟨hcat, h, h'⟩
    exact ⟨hcat, hholds ▸ h, htopics ▸ h'⟩
  · rintro ⟨hcat, h, h'⟩
    exact ⟨hcat, hholds.trans h, htopics.trans h'⟩

/-- A tag that has no destination is offered one if there is an address left. -/
theorem offered_of_matches (hids : (db.map Tag._id).Nodup) (ht : t ∈ db)
    (hactive : isActive conn = true) (hmatches : Matches conn cat t) (howned : owned conn t = []) :
    offered conn db t = if lastIoa conn cat db + place conn cat db t < cat.topIoa then
      some (created conn cat (lastIoa conn cat db + 1 + place conn cat db t)) else none := by
  have hnew := (isNew_iff hmatches.category).mpr ⟨hmatches, howned⟩
  rw [offered_eq hids ht hactive hmatches.category hmatches.holds, givenIn_eq hids ht]
  simp only [hnew, true_and]

end Tags

section Run

variable {conns : List Connection} {conn : Connection} {cat : Category} {db : List Tag}
  {t t' : Tag}

theorem mem_zip_map {f : Tag → Tag} (h : (t, t') ∈ db.zip (db.map f)) : t ∈ db ∧ t' = f t := by
  induction db with
  | nil => cases h
  | cons u us ih =>
    rw [List.map_cons, List.zip_cons_cons] at h
    rcases List.mem_cons.mp h with h | h
    · obtain ⟨rfl, rfl⟩ := Prod.mk.inj h
      exact ⟨List.mem_cons_self, rfl⟩
    · exact ⟨List.mem_cons_of_mem u (ih h).1, (ih h).2⟩

variable (hreject : ∀ conn ∈ conns, rejected conn db = false)
variable (hids : (db.map Tag._id).Nodup)

include hreject hids

theorem extends_after (ht : t ∈ db) : Extends t (after conns db t) := by
  refine ⟨t.pushAll_others _ _, ?_⟩
  rw [destinations_after hreject hids ht]
  exact List.prefix_append _ _

variable (hconns : (conns.map Connection.protocolConnectionNumber).Nodup)

include hconns

theorem createdFor_after (hconn : conn ∈ conns) (ht : t ∈ db) :
    createdFor conn t (after conns db t) = (offered conn db t).toList := by
  rw [createdFor, destinations_after hreject hids ht, List.drop_left, filter_offers hconns hconn]

/-- An address that is given has no other use. -/
theorem address_ne (hconn : conn ∈ conns) {u : Tag} {d e : Destination} (ht : t ∈ db)
    (hu : u ∈ db) (hne : u._id ≠ t._id) (hd : offered conn db t = some d)
    (he : e ∈ owned conn (after conns db u)) : address d ≠ address e := by
  obtain ⟨-, cat, hmatches, howned, haddress, htop⟩ := offered_spec hids ht hd
  have hcat := categories_apart cat (mem_categories hmatches.category)
  obtain ⟨hlast, -, hused, -⟩ := @lastIoa_spec conn cat db hcat.1
  rw [owned_after hreject hids hconns hconn hu] at he
  rcases List.mem_append.mp he with he | he
  · obtain ⟨hin, howns⟩ := List.mem_filter.mp he
    intro heq
    have hle : address e ≤ lastIoa conn cat db :=
      hused u hu e hin howns (show cat.baseIoa ≤ address e by omega)
        (show address e ≤ cat.topIoa by omega)
    omega
  · obtain ⟨-, cat', hmatches', howned', haddress', htop'⟩ :=
      offered_spec hids hu (Option.mem_toList.mp he)
    by_cases heq : cat' = cat
    · subst heq
      have hplace := place_ne hids ht hu ((isNew_iff hmatches.category).mpr ⟨hmatches, howned⟩)
        ((isNew_iff hmatches.category).mpr ⟨hmatches', howned'⟩) hne
      omega
    · have hapart := ((hcat.2.2 cat' (mem_categories hmatches'.category) (Ne.symm heq)).2)
      have hlast' := (@lastIoa_spec conn cat' db
        (categories_apart cat' (mem_categories hmatches'.category)).1).1
      omega

/-- Where a new tag gets none the range is used to its end. -/
theorem lastIoa_after (hconn : conn ∈ conns) (hactive : isActive conn = true)
    (hcat : cat ∈ categories conn) (ht : t ∈ db)
    (hnew : isNew conn cat (after conns db t) = true) :
    lastIoa conn cat (db.map (after conns db)) = cat.topIoa := by
  obtain ⟨hle, hbounds, -⟩ := categories_apart cat (mem_categories hcat)
  obtain ⟨hbase, htop, -, hend⟩ := @lastIoa_spec conn cat db hle
  obtain ⟨hmatches, hempty⟩ := (isNew_iff hcat).mp hnew
  rw [matches_after] at hmatches
  rw [owned_after hreject hids hconns hconn ht, List.append_eq_nil_iff] at hempty
  obtain ⟨howned, hnone⟩ := hempty
  rw [offered_of_matches hids ht hactive hmatches howned] at hnone
  have hroom : ¬ lastIoa conn cat db + place conn cat db t < cat.topIoa := by
    intro hroom
    rw [if_pos hroom] at hnone
    cases hnone
  -- an element with the last address is one of the connection
  obtain ⟨u, hu, d, hd, haddress⟩ : ∃ u ∈ db, ∃ d ∈ owned conn (after conns db u),
      address d = cat.topIoa := by
    rcases htop.eq_or_lt with hfull | hfree
    · rcases hend with hend | ⟨u, hu, d, hin, howns, -, haddress⟩
      · omega
      · refine ⟨u, hu, d, ?_, haddress.trans hfull⟩
        rw [owned_after hreject hids hconns hconn hu]
        exact List.mem_append_left _ (List.mem_filter.mpr ⟨hin, howns⟩)
    · have hnewt := (isNew_iff hcat).mpr ⟨hmatches, howned⟩
      have hlength : place conn cat db t < (newTags conn cat db).length := by
        have hlt := List.idxOf_lt_length_iff.mpr
          (List.mem_map_of_mem (f := Tag._id) (mem_newTags.mpr ⟨ht, hnewt⟩))
        rwa [idxOf_newTags hids ht hnewt, List.length_map] at hlt
      -- the tag in the last place there is an address for
      have hlast : (cat.topIoa - lastIoa conn cat db - 1).toNat <
          (newTags conn cat db).length := by omega
      obtain ⟨hu, hnewu⟩ := mem_newTags.mp (List.getElem_mem hlast)
      obtain ⟨hmatchesu, hownedu⟩ := (isNew_iff hcat).mp hnewu
      have hplace := idxOf_newTags hids hu hnewu
      rw [← List.getElem_map Tag._id (h := by rwa [List.length_map]),
        (newTags_ids hids).idxOf_getElem] at hplace
      have hoffered := offered_of_matches hids hu hactive hmatchesu hownedu
      have hnext : lastIoa conn cat db + 1 + (cat.topIoa - lastIoa conn cat db - 1).toNat =
          cat.topIoa := by omega
      rw [← hplace, hnext, if_pos (by omega)] at hoffered
      refine ⟨_, hu, created conn cat cat.topIoa, ?_, toInt32_intCast ⟨by omega, hbounds.2⟩⟩
      rw [owned_after hreject hids hconns hconn hu, hoffered]
      exact List.mem_append_right _ (List.mem_singleton_self _)
  obtain ⟨hin, howns⟩ := List.mem_filter.mp hd
  obtain ⟨-, htop', hused, -⟩ := @lastIoa_spec conn cat (db.map (after conns db)) hle
  have hle' := hused _ (List.mem_map_of_mem hu) d hin howns
    (show cat.baseIoa ≤ address d by omega) (show address d ≤ cat.topIoa by omega)
  change address d ≤ _ at hle'
  omega

/-- A second run finds no tag it has an address for. -/
theorem allotted_after (hconn : conn ∈ conns) (hactive : isActive conn = true)
    (hcat : cat ∈ categories conn) : allotted conn cat (db.map (after conns db)) = [] := by
  rw [List.eq_nil_iff_forall_not_mem]
  intro t' ht'
  obtain ⟨hin, hnew⟩ := mem_allotted ht'
  obtain ⟨t, ht, rfl⟩ := List.mem_map.mp hin
  rw [allotted, lastIoa_after hreject hids hconns hconn hactive hcat ht hnew, sub_self,
    Int.toNat_zero, List.take_zero] at ht'
  cases ht'

theorem again_after : DistributeAutoTags conns (db.map (after conns db)) =
    some (db.map (after conns db)) := by
  have hids' : ((db.map (after conns db)).map Tag._id).Nodup := by
    rw [List.map_map]
    have hsame : db.map (Tag._id ∘ after conns db) = db.map Tag._id :=
      List.map_congr_left fun t _ => (t.pushAll_fields _).1
    exact hsame ▸ hids
  have hrejected : (conns.any fun conn => rejected conn (db.map (after conns db))) = false := by
    rw [List.any_eq_false]
    intro conn hconn
    rw [rejected, Bool.and_eq_true, refused, List.any_eq_true]
    rintro ⟨hactive, cat, hcat, hnull⟩
    rw [allotted_after hreject hids hconns hconn hactive hcat] at hnull
    cases hnull
  have hoffered : ∀ t, (conns.filterMap fun conn =>
      offered conn (db.map (after conns db)) t) = [] := by
    intro t
    rw [List.filterMap_eq_nil_iff]
    intro conn hconn
    rw [Option.eq_none_iff_forall_ne_some]
    intro d hd
    obtain ⟨hactive, cat, hcat, hgiven⟩ := of_offered hd
    have hmem := mem_ids_of_givenIn hgiven
    rw [allotted_after hreject hids hconns hconn hactive hcat] at hmem
    cases hmem
  rw [DistributeAutoTags_eq hconns hids', hrejected, if_neg Bool.false_ne_true]
  simp only [hoffered]
  exact congrArg some (List.map_id _)

end Run

section Distribution

variable {conns : List Connection} {db : List Tag}

theorem distributed (hconns : (conns.map Connection.protocolConnectionNumber).Nodup)
    (hids : (db.map Tag._id).Nodup)
    (hnull : ∀ conn ∈ conns, isActive conn = true → ∀ cat, ∀ t ∈ db, Matches conn cat t →
      t.protocolDestinations ≠ .null) :
    ∃ db', DistributeAutoTags conns db = some db' ∧ Distributed conns db db' := by
  have hreject : ∀ conn ∈ conns, rejected conn db = false := by
    intro conn hconn
    rw [← Bool.not_eq_true, rejected, Bool.and_eq_true, refused, List.any_eq_true]
    rintro ⟨hactive, cat, hcat, hany⟩
    obtain ⟨t, ht, hnullt⟩ := List.any_eq_true.mp hany
    obtain ⟨hin, hnew⟩ := mem_allotted ht
    exact hnull conn hconn hactive cat t hin ((isNew_iff hcat).mp hnew).1
      (of_decide_eq_true hnullt)
  refine ⟨db.map (after conns db), ?_, ?_⟩
  · rw [DistributeAutoTags_eq hconns hids, if_neg]
    · rfl
    · rw [List.any_eq_true]
      rintro ⟨conn, hconn, hrejected⟩
      rw [hreject conn hconn] at hrejected
      cases hrejected
  · constructor
    case kept =>
      rw [List.forall₂_map_right_iff, List.forall₂_same]
      exact fun t ht => extends_after hreject hids ht
    case mapped =>
      intro conn hconn hactive cat t t' hpair hmatches howned
      obtain ⟨ht, rfl⟩ := mem_zip_map hpair
      rw [owned_after hreject hids hconns hconn ht, howned,
        offered_of_matches hids ht hactive hmatches howned]
      split_ifs <;> rfl
    case created =>
      intro conn hconn t t' hpair d hd
      obtain ⟨ht, rfl⟩ := mem_zip_map hpair
      rw [createdFor_after hreject hids hconns hconn ht, Option.mem_toList] at hd
      obtain ⟨hactive, cat, hmatches, howned, haddress, htop⟩ := offered_spec hids ht hd
      obtain ⟨hle, -⟩ := categories_apart cat (mem_categories hmatches.category)
      have hlast := (@lastIoa_spec conn cat db hle).1
      exact ⟨hactive, howned, cat, hmatches, by omega, htop⟩
    case distinct =>
      intro conn hconn t t' u u' hpair hpair' hne d hd e he
      obtain ⟨ht, rfl⟩ := mem_zip_map hpair
      obtain ⟨hu, rfl⟩ := mem_zip_map hpair'
      rw [createdFor_after hreject hids hconns hconn ht, Option.mem_toList] at hd
      exact address_ne hreject hids hconns hconn ht hu hne hd he
    case again => exact again_after hreject hids hconns

/-- Two breakers, one with a destination on the first connection. -/
theorem breakers_distributed :
    let conn : Connection := { protocolConnectionNumber := 1 }
    let conns : List Connection :=
      [conn, { protocolConnectionNumber := 2, topics := ["KAW2"] }]
    let db : List Tag := [
      { _id := 7, type := "digital", origin := "supervised", group1 := "KAW2" },
      { _id := 4, type := "digital", origin := "supervised", group1 := "KOR1",
        protocolDestinations := .array [created conn digitals 11] }]
    ∃ db', DistributeAutoTags conns db = some db' ∧ Distributed conns db db' := by
  refine distributed (by decide) (by decide) ?_
  intro _ _ _ _ t ht _
  rcases List.mem_cons.mp ht with rfl | ht
  · nofun
  · rw [List.mem_singleton.mp ht]
    nofun

/-- The addresses below the highest one are free, and the tag gets none of them. -/
theorem second_breaker_not_mapped :
    let conn : Connection := { protocolConnectionNumber := 1 }
    let db : List Tag := [
      { _id := 4, type := "digital", origin := "supervised",
        protocolDestinations := .array [created conn digitals 20000] },
      { _id := 7, type := "digital", origin := "supervised" }]
    ¬ ∃ db', DistributeAutoTags [conn] db = some db' ∧
      ∀ t ∈ db', ∀ cat, Matches conn cat t → (owned conn t).length = 1 := by
  intro conn db
  have hresult : DistributeAutoTags [conn] db = some db := by decide +kernel
  rintro ⟨db', hdb', hone⟩
  rw [hresult] at hdb'
  obtain rfl := Option.some.inj hdb'
  have hempty : (owned conn { _id := 7, type := "digital", origin := "supervised" }).length = 0 :=
    rfl
  have hlength := hone _ (List.mem_cons_of_mem _ List.mem_cons_self) digitals
    ⟨by decide, by decide, by decide⟩
  rw [hempty] at hlength
  cases hlength

end Distribution

end JsonScada.System.TagDistribution
