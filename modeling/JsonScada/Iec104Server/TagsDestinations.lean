/- path: JsonScada/Iec104Server/TagsDestinations
   source: src/lib60870.netcore/iec104server/TagsDestinations.cs
   digest: Destinations and object addresses for the tags that have none on a connection. -/

import Mathlib.Data.List.Infix
import JsonScada.Iec104.Types
import JsonScada.Lib.Allotment

set_option autoImplicit false
set_option relaxedAutoImplicit false

namespace JsonScada.Iec104Server.TagsDestinations

open JsonScada.Lib.Binary64 JsonScada.Lib.DotNet JsonScada.Lib.Collection
open JsonScada.Lib.Allotment
open JsonScada.Iec104.Types (Destination)

/-- The field `protocolDestinations` of a document. -/
inductive Destinations where
  | absent
  | null
  | array (ds : List Destination)
  deriving DecidableEq

/-- What is read of a document of `realtimeData`. -/
structure Tag where
  _id : ℤ
  tag : String := ""
  type : String
  origin : String
  group1 : String := ""
  protocolDestinations : Destinations := .absent
  deriving DecidableEq

/-- The elements of the array. -/
def Tag.destinations (t : Tag) : List Destination :=
  match t.protocolDestinations with
  | .array ds => ds
  | _ => []

/-- `$set` of an empty array -/
def Tag.clear (t : Tag) : Tag := { t with protocolDestinations := .array [] }

/-- `$push`, which makes a missing array and refuses a null. -/
def Tag.push (t : Tag) (d : Destination) : Tag :=
  match t.protocolDestinations with
  | .null => t
  | _ => { t with protocolDestinations := .array (t.destinations ++ [d]) }

/-- A connection of the driver (`IEC10X_connection`), its number an `int`. -/
structure Connection where
  protocolConnectionNumber : ℤ
  autoCreateTags : Bool := true
  autoCreateTagsCommonAddress : ℤ := 1
  commandsEnabled : Bool := true
  sizeOfIOA : ℤ := 3
  /-- A missing array is like an empty one. -/
  topics : List String := []

/-- One of the four kinds of tags, with the type of its destinations and the range of their
object addresses. -/
structure Category where
  type : String
  origin : String
  asdu : ℤ
  baseIoa : ℤ
  topIoa : ℤ
  deriving DecidableEq

def digitalCommands : Category where
  type := "digital"
  origin := "command"
  asdu := 45
  baseIoa := 40001
  topIoa := 50000

def analogCommands : Category where
  type := "analog"
  origin := "command"
  asdu := 50
  baseIoa := 50001
  topIoa := 60000

def digitals : Category where
  type := "digital"
  origin := "supervised"
  asdu := 1
  baseIoa := 1
  topIoa := 20000

def analogs : Category where
  type := "analog"
  origin := "supervised"
  asdu := 13
  baseIoa := 20001
  topIoa := 40000

def Category.holds (cat : Category) (t : Tag) : Bool := t.type = cat.type && t.origin = cat.origin

/-- The categories that are gone through, commands only if they are enabled. -/
def categories (conn : Connection) : List Category :=
  [digitalCommands, analogCommands, digitals, analogs].filter fun cat =>
    cat.origin ≠ "command" || conn.commandsEnabled

section Distribute

variable (conn : Connection) (cat : Category)

/-- An element for the connection. -/
def Connection.owns (d : Destination) : Bool :=
  d.protocolDestinationConnectionNumber = .fin conn.protocolConnectionNumber

/-- The `ElemMatch` of the connection's number. -/
def linked (t : Tag) : Bool := t.destinations.any conn.owns

/-- An address of the range that is higher takes the place of the last. -/
def higher (last : ℤ) (d : Destination) : ℤ :=
  let ioa := toInt32 d.protocolDestinationObjectAddress
  if conn.owns d && decide (cat.baseIoa ≤ ioa ∧ ioa ≤ cat.topIoa ∧ last < ioa) then ioa else last

/-- The highest address in use in the range, or the one before its first. -/
def lastIoa (db : List Tag) : ℤ :=
  ((db.filter (linked conn)).flatMap Tag.destinations).foldl (higher conn cat) (cat.baseIoa - 1)

/-- Where topics are defined, `group1` contains one of them. -/
def ofTopics (t : Tag) : Bool :=
  conn.topics.isEmpty || conn.topics.any fun topic => topic.toList <:+: t.group1.toList

/-- A tag that is to get a destination. -/
def isNew (t : Tag) : Bool := cat.holds t && !linked conn t && ofTopics conn t

/-- The tags of the query, in its order, that the topics filter does not skip. -/
def newTags (db : List Tag) : List Tag :=
  (sortBy (·._id) (db.filter fun t => cat.holds t && !linked conn t)).filter (ofTopics conn)

def created (ioa : ℤ) : Destination where
  protocolDestinationConnectionNumber := .fin conn.protocolConnectionNumber
  protocolDestinationCommonAddress := .fin conn.autoCreateTagsCommonAddress
  protocolDestinationObjectAddress := .fin ioa
  protocolDestinationASDU := .fin cat.asdu

/-- The two updates for a tag: a missing array is made, and the destination is pushed, which
the database refuses for a null. -/
def createDestination (t : Tag) (ioa : ℤ) (db : List Tag) : Option (List Tag) :=
  let db := updateOne (fun u => u._id = t._id && u.protocolDestinations = .absent) Tag.clear db
  if db.any fun u => u._id = t._id && u.protocolDestinations = .null then none
  else some (updateOne (fun u => u._id = t._id) (fun u => u.push (created conn cat ioa)) db)

/-- The loop over the new tags of a category, from the last used address on. -/
def distributeCategory (last : ℤ) (db : List Tag) : Option (List Tag) :=
  tryAllot (createDestination conn cat) cat.topIoa last (newTags conn cat db) db

/-- The turn of a connection; the addresses in use are looked up once, at its start. -/
def distribute (db : List Tag) : Option (List Tag) :=
  if conn.autoCreateTags = false ∨ conn.sizeOfIOA < 2 then some db
  else (categories conn).foldlM
    (fun c cat => distributeCategory conn cat (lastIoa conn cat db) c) db

end Distribute

/-- `none` is an exception. -/
def DistributeAutoTags (conns : List Connection) (db : List Tag) : Option (List Tag) :=
  conns.foldlM (fun c conn => distribute conn c) db

section Push

@[simp] theorem Tag.push_id (t : Tag) (d : Destination) : (t.push d)._id = t._id := by
  unfold Tag.push
  split <;> rfl

theorem Tag.push_fields (t : Tag) (d : Destination) :
    (t.push d).type = t.type ∧ (t.push d).origin = t.origin ∧ (t.push d).group1 = t.group1 := by
  unfold Tag.push
  split <;> exact ⟨rfl, rfl, rfl⟩

theorem Tag.push_clear {t : Tag} (h : t.protocolDestinations = .absent) (d : Destination) :
    t.clear.push d = t.push d := by
  obtain ⟨id, tag, type, origin, group1, ds⟩ := t
  obtain rfl : ds = .absent := h
  rfl

/-- Nothing is pushed to a null. -/
theorem Tag.destinations_push (t : Tag) (d : Destination)
    (h : t.protocolDestinations ≠ .null) : (t.push d).destinations = t.destinations ++ [d] := by
  unfold Tag.push
  split
  · next hnull => exact absurd hnull h
  · rfl

theorem Tag.push_ne_null {t : Tag} (h : t.protocolDestinations ≠ .null) (d : Destination) :
    (t.push d).protocolDestinations ≠ .null := by
  unfold Tag.push
  split
  · exact h
  · nofun

end Push

section Update

variable {conn : Connection} {cat : Category} {db : List Tag}

/-- Tags with keys of their own are told apart by the key. -/
theorem eq_of_id {t u : Tag} (hids : (db.map Tag._id).Nodup) (ht : t ∈ db) (hu : u ∈ db)
    (h : t._id = u._id) : t = u :=
  List.inj_on_of_nodup_map hids ht hu h

/-- The two updates give a tag the destination, and no other tag. -/
theorem createDestination_eq {t : Tag} {ioa : ℤ} (hids : (db.map Tag._id).Nodup) (ht : t ∈ db) :
    createDestination conn cat t ioa db =
      if t.protocolDestinations = .null then none else some
        (db.map fun u => if u._id = t._id then u.push (created conn cat ioa) else u) := by
  let made : Tag := if t.protocolDestinations = .absent then t.clear else t
  have hclear : updateOne (fun u => u._id = t._id && u.protocolDestinations = .absent) Tag.clear
      db = db.map fun u => if u._id = t._id then made else u := by
    rw [@updateOne_eq_map_of_mem _ _ _ Tag._id _ db hids t ht
      (fun u hu => of_decide_eq_true (Bool.and_eq_true_iff.mp hu).1)]
    simp [made]
  have hmade : made._id = t._id := by
    unfold made
    split_ifs <;> rfl
  have hnull : made.protocolDestinations = .null ↔ t.protocolDestinations = .null := by
    unfold made
    split_ifs with habsent
    · rw [habsent]
      simp [Tag.clear]
    · rfl
  have hkeys : ((db.map fun u => if u._id = t._id then made else u).map Tag._id) =
      db.map Tag._id := by
    rw [List.map_map]
    apply List.map_congr_left
    intro u _
    show (if u._id = t._id then made else u)._id = u._id
    split_ifs with hid
    · rw [hmade, hid]
    · rfl
  have hany : ((db.map fun u => if u._id = t._id then made else u).any fun u =>
      u._id = t._id && u.protocolDestinations = .null) =
        decide (t.protocolDestinations = .null) := by
    rw [List.any_map, Bool.eq_iff_iff, List.any_eq_true, decide_eq_true_iff, ← hnull]
    constructor
    · rintro ⟨u, -, hu⟩
      rw [Function.comp_apply, Bool.and_eq_true, decide_eq_true_iff, decide_eq_true_iff] at hu
      by_cases hid : u._id = t._id
      · rw [if_pos hid] at hu
        exact hu.2
      · rw [if_neg hid] at hu
        exact absurd hu.1 hid
    · intro hm
      refine ⟨t, ht, ?_⟩
      rw [Function.comp_apply, if_pos rfl, hmade, hm]
      simp
  unfold createDestination
  dsimp only
  rw [hclear, hany]
  simp only [decide_eq_true_iff]
  split_ifs with h
  · rfl
  · rw [updateOne_eq_map (hkeys ▸ hids), List.map_map]
    congr 1
    apply List.map_congr_left
    intro u hu
    rw [Function.comp_apply]
    by_cases hid : u._id = t._id
    · obtain rfl := eq_of_id hids hu ht hid
      rw [if_pos rfl, if_pos hmade, if_pos rfl]
      unfold made
      split_ifs with habsent
      · exact Tag.push_clear habsent _
      · rfl
    · rw [if_neg hid, if_neg hid]

end Update

section Addresses

variable {conn : Connection} {cat : Category} {db : List Tag}

/-- The elements for the connection, in all documents. -/
def owned (conn : Connection) (t : Tag) : List Destination := t.destinations.filter conn.owns

theorem linked_eq_false_iff {t : Tag} : linked conn t = false ↔ owned conn t = [] := by
  rw [linked, List.any_eq_false, owned, List.filter_eq_nil_iff]

theorem foldl_higher_filter (ds : List Destination) (last : ℤ) :
    ds.foldl (higher conn cat) last = (ds.filter conn.owns).foldl (higher conn cat) last := by
  induction ds generalizing last with
  | nil => rfl
  | cons d ds ih =>
    rw [List.foldl_cons, List.filter_cons, ih]
    cases howns : conn.owns d with
    | true =>
      rw [if_pos rfl, List.foldl_cons]
    | false =>
      rw [if_neg Bool.false_ne_true]
      congr 1
      rw [higher, howns, Bool.false_and, if_neg Bool.false_ne_true]

/-- Only the elements for the connection count. -/
theorem lastIoa_eq (conn : Connection) (cat : Category) (db : List Tag) :
    lastIoa conn cat db = (db.flatMap (owned conn)).foldl (higher conn cat) (cat.baseIoa - 1) := by
  rw [lastIoa, foldl_higher_filter]
  congr 1
  induction db with
  | nil => rfl
  | cons t ts ih =>
    rw [List.filter_cons, List.flatMap_cons]
    cases hlinked : linked conn t with
    | true =>
      rw [if_pos rfl, List.flatMap_cons, List.filter_append, ih]
      rfl
    | false =>
      rw [if_neg Bool.false_ne_true, linked_eq_false_iff.mp hlinked, List.nil_append, ih]

/-- The loop ends at the highest address of the range, or where it began. -/
theorem foldl_higher {ds : List Destination} {last : ℤ} (hds : ∀ d ∈ ds, conn.owns d = true)
    (hlast : last ≤ cat.topIoa) :
    last ≤ ds.foldl (higher conn cat) last ∧ ds.foldl (higher conn cat) last ≤ cat.topIoa ∧
      (∀ d ∈ ds, cat.baseIoa ≤ toInt32 d.protocolDestinationObjectAddress →
        toInt32 d.protocolDestinationObjectAddress ≤ cat.topIoa →
          toInt32 d.protocolDestinationObjectAddress ≤ ds.foldl (higher conn cat) last) ∧
      (ds.foldl (higher conn cat) last = last ∨ ∃ d ∈ ds,
        cat.baseIoa ≤ ds.foldl (higher conn cat) last ∧
          toInt32 d.protocolDestinationObjectAddress = ds.foldl (higher conn cat) last) := by
  induction ds generalizing last with
  | nil => simpa using hlast
  | cons d ds ih =>
    have howns := hds d List.mem_cons_self
    obtain ⟨ioa, hioa⟩ : ∃ ioa, toInt32 d.protocolDestinationObjectAddress = ioa := ⟨_, rfl⟩
    have hhead : higher conn cat last d =
        if cat.baseIoa ≤ ioa ∧ ioa ≤ cat.topIoa ∧ last < ioa then ioa else last := by
      rw [higher, howns, Bool.true_and, hioa]
      simp only [decide_eq_true_iff]
    have htop : higher conn cat last d ≤ cat.topIoa := by
      rw [hhead]
      split_ifs <;> omega
    obtain ⟨hle, htop, hge, hend⟩ := ih (fun e he => hds e (List.mem_cons_of_mem d he)) htop
    rw [List.foldl_cons]
    generalize ds.foldl (higher conn cat) (higher conn cat last d) = final at hle htop hge hend ⊢
    rw [hhead] at hle hend
    refine ⟨?_, htop, ?_, ?_⟩
    · split_ifs at hle <;> omega
    · intro e he hbase htop'
      rcases List.mem_cons.mp he with rfl | he
      · rw [hioa] at hbase htop' ⊢
        split_ifs at hle <;> omega
      · exact hge e he hbase htop'
    · rcases hend with hend | ⟨e, he, hbase, heq⟩
      · split_ifs at hend with h
        · exact .inr ⟨d, List.mem_cons_self, by omega, by omega⟩
        · exact .inl hend
      · exact .inr ⟨e, List.mem_cons_of_mem d he, hbase, heq⟩

/-- The highest address in use: none of the range is above it, and it is one of the range
unless there is none. -/
theorem lastIoa_spec (hcat : cat.baseIoa ≤ cat.topIoa) :
    cat.baseIoa - 1 ≤ lastIoa conn cat db ∧ lastIoa conn cat db ≤ cat.topIoa ∧
      (∀ t ∈ db, ∀ d ∈ t.destinations, conn.owns d = true →
        cat.baseIoa ≤ toInt32 d.protocolDestinationObjectAddress →
          toInt32 d.protocolDestinationObjectAddress ≤ cat.topIoa →
            toInt32 d.protocolDestinationObjectAddress ≤ lastIoa conn cat db) ∧
      (lastIoa conn cat db = cat.baseIoa - 1 ∨ ∃ t ∈ db, ∃ d ∈ t.destinations,
        conn.owns d = true ∧ cat.baseIoa ≤ lastIoa conn cat db ∧
          toInt32 d.protocolDestinationObjectAddress = lastIoa conn cat db) := by
  have howns : ∀ d, d ∈ db.flatMap (owned conn) ↔
      ∃ t ∈ db, d ∈ t.destinations ∧ conn.owns d = true := by
    intro d
    simp only [List.mem_flatMap, owned, List.mem_filter]
  obtain ⟨hle, htop, hge, hend⟩ := @foldl_higher conn cat (db.flatMap (owned conn))
    (cat.baseIoa - 1) (fun d hd => ((howns d).mp hd).elim fun _ h => h.2.2) (by omega)
  rw [lastIoa_eq]
  refine ⟨hle, htop, fun t ht d hd hown => hge d ((howns d).mpr ⟨t, ht, hd, hown⟩), ?_⟩
  rcases hend with hend | ⟨d, hd, hbase, heq⟩
  · exact .inl hend
  · obtain ⟨t, ht, hdt, hown⟩ := (howns d).mp hd
    exact .inr ⟨t, ht, d, hdt, hown, hbase, heq⟩

theorem newTags_eq (conn : Connection) (cat : Category) (db : List Tag) :
    newTags conn cat db = sortBy (·._id) (db.filter (isNew conn cat)) := by
  have hnew : (db.filter fun t => cat.holds t && !linked conn t).filter (ofTopics conn) =
      db.filter (isNew conn cat) := by
    rw [List.filter_filter]
    apply List.filter_congr
    intro t _
    exact Bool.and_comm ..
  rw [newTags, filter_sortBy, hnew]

theorem newTags_perm : (newTags conn cat db).Perm (db.filter (isNew conn cat)) := by
  rw [newTags_eq]
  exact List.perm_insertionSort _ _

theorem mem_newTags {t : Tag} :
    t ∈ newTags conn cat db ↔ t ∈ db ∧ isNew conn cat t = true := by
  rw [newTags_perm.mem_iff, List.mem_filter]

theorem newTags_ids (hids : (db.map Tag._id).Nodup) :
    ((newTags conn cat db).map Tag._id).Nodup := by
  rw [(newTags_perm.map Tag._id).nodup_iff]
  exact hids.sublist ((List.filter_sublist).map _)

end Addresses

section Turn

variable {conn : Connection} {cat : Category} {db c : List Tag}

/-- The new tags there are addresses for. -/
def allotted (conn : Connection) (cat : Category) (db : List Tag) : List Tag :=
  (newTags conn cat db).take (cat.topIoa - lastIoa conn cat db).toNat

/-- The destination a tag is given as one of the category. -/
def givenIn (conn : Connection) (db : List Tag) (t : Tag) (cat : Category) :
    Option Destination :=
  let ids := (allotted conn cat db).map Tag._id
  if t._id ∈ ids then some (created conn cat (lastIoa conn cat db + 1 + ids.idxOf t._id))
  else none

/-- The destination a tag is given for one of the categories. -/
def given (conn : Connection) (db : List Tag) (cs : List Category) (t : Tag) :
    Option Destination :=
  cs.findSome? (givenIn conn db t)

def Tag.pushed (t : Tag) (d : Option Destination) : Tag := d.elim t t.push

@[simp] theorem Tag.pushed_id (t : Tag) (d : Option Destination) : (t.pushed d)._id = t._id := by
  cases d with
  | none => rfl
  | some d => exact t.push_id d

/-- A tag that is to be given one has a null. -/
def refused (conn : Connection) (db : List Tag) (cs : List Category) : Bool :=
  cs.any fun cat => (allotted conn cat db).any fun t => t.protocolDestinations = .null

/-- The categories have no tags in common. -/
def Apart (a b : Category) : Prop := ∀ t, a.holds t = true → b.holds t = false

theorem isNew_holds {t : Tag} (h : isNew conn cat t = true) : cat.holds t = true := by
  rw [isNew, Bool.and_eq_true, Bool.and_eq_true] at h
  exact h.1.1

theorem mem_allotted {t : Tag} (h : t ∈ allotted conn cat db) :
    t ∈ db ∧ isNew conn cat t = true :=
  mem_newTags.mp (List.mem_of_mem_take h)

/-- Only the key of a tag counts. -/
theorem givenIn_congr {t u : Tag} (h : t._id = u._id) :
    givenIn conn db t cat = givenIn conn db u cat := by
  rw [givenIn, givenIn, h]

theorem mem_ids_of_givenIn {t : Tag} {d : Destination} (h : givenIn conn db t cat = some d) :
    t._id ∈ (allotted conn cat db).map Tag._id := by
  rw [givenIn] at h
  split_ifs at h with hid
  exact hid

/-- The loop over the tags of a category, where the new tags are those of the start. -/
theorem distributeCategory_eq (hcat : cat.baseIoa ≤ cat.topIoa) (hids : (c.map Tag._id).Nodup)
    (hnew : newTags conn cat c = newTags conn cat db) :
    distributeCategory conn cat (lastIoa conn cat db) c =
      if (allotted conn cat db).any fun t => t.protocolDestinations = .null then none
      else some (c.map fun t => t.pushed (givenIn conn db t cat)) := by
  obtain ⟨-, htop, -⟩ := @lastIoa_spec conn cat db hcat
  have hin : ∀ t ∈ allotted conn cat db, t ∈ c := by
    intro t ht
    exact (mem_newTags.mp (hnew ▸ List.mem_of_mem_take ht)).1
  have hnodup : ((allotted conn cat db).map Tag._id).Nodup := by
    rw [allotted, ← hnew]
    exact (newTags_ids hids).sublist ((List.take_sublist _ _).map _)
  rw [distributeCategory, hnew, tryAllot_take]
  have hall := @tryAllot_eq _ _ (createDestination conn cat) cat.topIoa _ Tag._id
    (fun n t => t.push (created conn cat n)) (fun t => t.protocolDestinations = .null)
    (fun _ t => t.push_id _) (lastIoa conn cat db) _ _ hids hnodup hin
    (fun t _ n c hc ht => by simp only [createDestination_eq hc ht, decide_eq_true_iff])
    (by rw [allotted, List.length_take]; omega)
  refine hall.trans ?_
  congr 2
  apply List.map_congr_left
  intro t _
  rw [givenIn]
  split_ifs <;> rfl

theorem newTags_map {f : Tag → Tag}
    (h : ∀ t ∈ c, cat.holds (f t) = cat.holds t ∧ (cat.holds t = true → f t = t)) :
    newTags conn cat (c.map f) = newTags conn cat c := by
  rw [newTags, newTags, filter_map_of_fixed]
  intro t ht
  obtain ⟨hholds, hfix⟩ := h t ht
  cases hp : cat.holds t with
  | true => rw [hfix hp, hp]; exact ⟨rfl, fun _ => rfl⟩
  | false => rw [hholds, hp]; exact ⟨rfl, nofun⟩

theorem holds_push (cat : Category) (t : Tag) (d : Destination) :
    cat.holds (t.push d) = cat.holds t := by
  obtain ⟨htype, horigin, -⟩ := t.push_fields d
  rw [Category.holds, Category.holds, htype, horigin]

/-- The loop over the categories: each tag gets the destination of its own. -/
theorem foldlM_categories {cs : List Category} (hapart : cs.Pairwise Apart)
    (hcs : ∀ cat ∈ cs, cat.baseIoa ≤ cat.topIoa) (hids : (c.map Tag._id).Nodup)
    (hnew : ∀ cat ∈ cs, newTags conn cat c = newTags conn cat db) :
    cs.foldlM (fun c cat => distributeCategory conn cat (lastIoa conn cat db) c) c =
      if refused conn db cs then none
      else some (c.map fun t => t.pushed (given conn db cs t)) := by
  induction cs generalizing c with
  | nil =>
    have hsame : (c.map fun t => t.pushed (given conn db [] t)) = c := List.map_id c
    rw [hsame]
    rfl
  | cons cat cs ih =>
    obtain ⟨hhead, hrest⟩ := List.pairwise_cons.mp hapart
    have hcat := hcs cat List.mem_cons_self
    rw [List.foldlM_cons, distributeCategory_eq hcat hids (hnew cat List.mem_cons_self), refused,
      List.any_cons]
    cases hnull : (allotted conn cat db).any fun t => t.protocolDestinations = .null with
    | true => rfl
    | false =>
      have hids' : ((c.map fun t => t.pushed (givenIn conn db t cat)).map Tag._id).Nodup := by
        rw [List.map_map]
        have hsame : c.map (Tag._id ∘ fun t => t.pushed (givenIn conn db t cat)) =
            c.map Tag._id := List.map_congr_left fun t _ => t.pushed_id _
        exact hsame ▸ hids
      have hown : ∀ b ∈ cat :: cs, ∀ t ∈ c, ∀ d, givenIn conn db t b = some d →
          b.holds t = true := by
        intro b hb t ht d hd
        obtain ⟨u, hu, heq⟩ := List.mem_map.mp (mem_ids_of_givenIn hd)
        have hmem := List.mem_of_mem_take hu
        rw [← hnew b hb] at hmem
        obtain ⟨huc, hunew⟩ := mem_newTags.mp hmem
        obtain rfl := eq_of_id hids huc ht heq
        exact isNew_holds hunew
      have hother : ∀ b ∈ cs, ∀ t ∈ c, ∀ d, givenIn conn db t cat = some d →
          b.holds t = false ∧ givenIn conn db t b = none := by
        intro b hb t ht d hd
        have hapart := hhead b hb t (hown cat List.mem_cons_self t ht d hd)
        refine ⟨hapart, ?_⟩
        rw [Option.eq_none_iff_forall_ne_some]
        intro e he
        rw [hown b (List.mem_cons_of_mem cat hb) t ht e he] at hapart
        cases hapart
      rw [if_neg Bool.false_ne_true, Option.bind_eq_bind, Option.bind_some, Bool.false_or,
        ih hrest (fun b hb => hcs b (List.mem_cons_of_mem cat hb)) hids' fun b hb => ?_, refused,
        List.map_map]
      · congr 2
        apply List.map_congr_left
        intro t ht
        rw [Function.comp_apply, given, given, List.findSome?_cons]
        cases hd : givenIn conn db t cat with
        | none => rfl
        | some d =>
          have hnone : cs.findSome? (givenIn conn db (t.push d)) = none := by
            rw [List.findSome?_eq_none_iff]
            intro b hb
            rw [givenIn_congr (t.push_id d)]
            exact (hother b hb t ht d hd).2
          exact congrArg _ hnone
      · rw [newTags_map, hnew b (List.mem_cons_of_mem cat hb)]
        intro t ht
        cases hd : givenIn conn db t cat with
        | none => exact ⟨rfl, fun _ => rfl⟩
        | some d =>
          have hholds := (hother b hb t ht d hd).1
          refine ⟨holds_push b t d, fun h => ?_⟩
          rw [hholds] at h
          cases h

/-- The four categories differ in their tags and in their ranges. -/
theorem categories_apart : ∀ a ∈ [digitalCommands, analogCommands, digitals, analogs],
    a.baseIoa ≤ a.topIoa ∧ (-2 ^ 31 ≤ a.baseIoa ∧ a.topIoa < 2 ^ 31) ∧
      ∀ b ∈ [digitalCommands, analogCommands, digitals, analogs], a ≠ b →
        (a.type ≠ b.type ∨ a.origin ≠ b.origin) ∧
          (a.topIoa < b.baseIoa ∨ b.topIoa < a.baseIoa) := by
  decide

theorem mem_categories {cat : Category} (h : cat ∈ categories conn) :
    cat ∈ [digitalCommands, analogCommands, digitals, analogs] :=
  List.mem_of_mem_filter h

theorem apart_of_ne {a b : Category} (ha : a ∈ [digitalCommands, analogCommands, digitals, analogs])
    (hb : b ∈ [digitalCommands, analogCommands, digitals, analogs]) (hne : a ≠ b) : Apart a b := by
  intro t ht
  rw [Category.holds, Bool.and_eq_true, decide_eq_true_iff, decide_eq_true_iff] at ht
  rw [Category.holds, Bool.and_eq_false_iff, decide_eq_false_iff_not, decide_eq_false_iff_not,
    ht.1, ht.2]
  exact ((categories_apart a ha).2.2 b hb hne).1

theorem pairwise_categories (conn : Connection) : (categories conn).Pairwise Apart := by
  have hall : [digitalCommands, analogCommands, digitals, analogs].Pairwise (· ≠ ·) := by decide
  refine (hall.filter _).imp_of_mem fun ha hb hne => ?_
  exact apart_of_ne (List.mem_of_mem_filter ha) (List.mem_of_mem_filter hb) hne

/-- Destinations are created for the connection. -/
def isActive (conn : Connection) : Bool := conn.autoCreateTags && decide (2 ≤ conn.sizeOfIOA)

def offered (conn : Connection) (db : List Tag) (t : Tag) : Option Destination :=
  if isActive conn then given conn db (categories conn) t else none

def rejected (conn : Connection) (db : List Tag) : Bool :=
  isActive conn && refused conn db (categories conn)

/-- The turn of a connection gives each tag the destination it is offered. -/
theorem distribute_eq (hids : (db.map Tag._id).Nodup) :
    distribute conn db =
      if rejected conn db then none
      else some (db.map fun t => t.pushed (offered conn db t)) := by
  have hactive : (conn.autoCreateTags = false ∨ conn.sizeOfIOA < 2) ↔ isActive conn = false := by
    rw [isActive, Bool.and_eq_false_iff, decide_eq_false_iff_not, not_le]
  rw [distribute, rejected]
  cases hact : isActive conn with
  | false =>
    rw [if_pos (hactive.mpr hact), Bool.false_and, if_neg Bool.false_ne_true]
    have hsame : (db.map fun t => t.pushed (offered conn db t)) = db := by
      conv_rhs => rw [← List.map_id db]
      apply List.map_congr_left
      intro t _
      rw [offered, hact, if_neg Bool.false_ne_true]
      rfl
    rw [hsame]
  | true =>
    have hnot : ¬ (conn.autoCreateTags = false ∨ conn.sizeOfIOA < 2) := by
      rw [hactive, hact]
      nofun
    rw [if_neg hnot, foldlM_categories (pairwise_categories conn)
      (fun cat hcat => (categories_apart cat (mem_categories hcat)).1) hids fun _ _ => rfl,
      Bool.true_and]
    simp only [offered, hact, if_true]

end Turn

section Connections

variable {conn : Connection} {cat : Category} {db : List Tag} {F : Tag → Tag}

/-- A change of documents that a connection does not see. -/
structure Unseen (conn : Connection) (t u : Tag) : Prop where
  id : u._id = t._id
  type : u.type = t.type
  origin : u.origin = t.origin
  group1 : u.group1 = t.group1
  owned : owned conn u = owned conn t
  null : u.protocolDestinations = .null ↔ t.protocolDestinations = .null

theorem Unseen.refl (conn : Connection) (t : Tag) : Unseen conn t t :=
  ⟨rfl, rfl, rfl, rfl, rfl, .rfl⟩

theorem Unseen.trans {t u v : Tag} (h : Unseen conn t u) (h' : Unseen conn u v) :
    Unseen conn t v :=
  ⟨h'.id.trans h.id, h'.type.trans h.type, h'.origin.trans h.origin, h'.group1.trans h.group1,
    h'.owned.trans h.owned, h'.null.trans h.null⟩

theorem unseen_push (t : Tag) {d : Destination} (h : conn.owns d = false) :
    Unseen conn t (t.push d) := by
  obtain ⟨htype, horigin, hgroup⟩ := t.push_fields d
  by_cases hnull : t.protocolDestinations = .null
  · have hsame : t.push d = t := by rw [Tag.push, hnull]
    rw [hsame]
    exact .refl conn t
  · refine ⟨t.push_id d, htype, horigin, hgroup, ?_, ?_⟩
    · rw [owned, owned, Tag.destinations_push t d hnull, List.filter_append,
        List.filter_singleton, h]
      exact List.append_nil _
    · exact iff_of_false (Tag.push_ne_null hnull d) hnull

theorem Unseen.linked {t u : Tag} (h : Unseen conn t u) : linked conn u = linked conn t := by
  rw [Bool.eq_iff_iff, ← not_iff_not, Bool.not_eq_true, Bool.not_eq_true, linked_eq_false_iff,
    linked_eq_false_iff, h.owned]

theorem Unseen.holds {t u : Tag} (h : Unseen conn t u) (cat : Category) :
    cat.holds u = cat.holds t := by
  rw [Category.holds, Category.holds, h.type, h.origin]

theorem Unseen.ofTopics {t u : Tag} (h : Unseen conn t u) : ofTopics conn u = ofTopics conn t := by
  rw [TagsDestinations.ofTopics, TagsDestinations.ofTopics, h.group1]

theorem newTags_unseen (h : ∀ t ∈ db, Unseen conn t (F t)) :
    newTags conn cat (db.map F) = (newTags conn cat db).map F := by
  have hquery : (db.map F).filter (fun t => cat.holds t && !TagsDestinations.linked conn t) =
      (db.filter fun t => cat.holds t && !TagsDestinations.linked conn t).map F := by
    rw [List.filter_map]
    congr 1
    apply List.filter_congr
    intro t ht
    rw [Function.comp_apply, (h t ht).holds, (h t ht).linked]
  have hsort : ∀ c : List Tag, (∀ t ∈ c, Unseen conn t (F t)) →
      sortBy (·._id) (c.map F) = (sortBy (·._id) c).map F := by
    intro c hc
    refine (List.map_insertionSort _ _ F c fun a ha b hb => ?_).symm
    show a._id ≤ b._id ↔ (F a)._id ≤ (F b)._id
    rw [(hc a ha).id, (hc b hb).id]
  rw [newTags, newTags, hquery, hsort _ fun t ht => h t (List.mem_of_mem_filter ht),
    List.filter_map]
  congr 1
  apply List.filter_congr
  intro t ht
  rw [Function.comp_apply, (h t (List.mem_of_mem_filter (mem_sortBy.mp ht))).ofTopics]

theorem lastIoa_unseen (h : ∀ t ∈ db, Unseen conn t (F t)) :
    lastIoa conn cat (db.map F) = lastIoa conn cat db := by
  have howned : (db.map F).flatMap (owned conn) = db.flatMap (owned conn) := by
    rw [List.flatMap_map]
    exact List.flatMap_congr fun t ht => (h t ht).owned
  rw [lastIoa_eq, lastIoa_eq, howned]

theorem allotted_unseen (h : ∀ t ∈ db, Unseen conn t (F t)) :
    allotted conn cat (db.map F) = (allotted conn cat db).map F := by
  rw [allotted, allotted, newTags_unseen h, lastIoa_unseen h, List.map_take]

/-- What a connection does not see does not change what it offers. -/
theorem offered_unseen (h : ∀ t ∈ db, Unseen conn t (F t)) {t : Tag} (ht : t ∈ db) :
    offered conn (db.map F) (F t) = offered conn db t := by
  have hids : ∀ cat, (allotted conn cat (db.map F)).map Tag._id =
      (allotted conn cat db).map Tag._id := by
    intro cat
    rw [allotted_unseen h, List.map_map]
    apply List.map_congr_left
    intro u hu
    exact (h u (mem_allotted hu).1).id
  have hgiven : givenIn conn (db.map F) (F t) = givenIn conn db t := by
    funext cat
    rw [givenIn, givenIn, hids, lastIoa_unseen h, (h t ht).id]
  rw [offered, offered, given, given, hgiven]

theorem rejected_unseen (h : ∀ t ∈ db, Unseen conn t (F t)) :
    rejected conn (db.map F) = rejected conn db := by
  have hnull : ∀ cat, ((allotted conn cat (db.map F)).any
      fun t => t.protocolDestinations = .null) =
        (allotted conn cat db).any fun t => t.protocolDestinations = .null := by
    intro cat
    rw [allotted_unseen h, List.any_map, Bool.eq_iff_iff, List.any_eq_true, List.any_eq_true]
    apply exists_congr
    intro u
    apply and_congr_right
    intro hu
    rw [Function.comp_apply, decide_eq_true_iff, decide_eq_true_iff]
    exact (h u (mem_allotted hu).1).null
  rw [rejected, rejected, refused, refused]
  simp only [hnull]

/-- Destinations appended one after the other. -/
def Tag.pushAll (t : Tag) (ds : List Destination) : Tag := ds.foldl Tag.push t

theorem unseen_pushAll (t : Tag) {ds : List Destination}
    (h : ∀ d ∈ ds, conn.owns d = false) : Unseen conn t (t.pushAll ds) := by
  induction ds generalizing t with
  | nil => exact .refl conn t
  | cons d ds ih =>
    exact (unseen_push t (h d List.mem_cons_self)).trans
      (ih (t.push d) fun e he => h e (List.mem_cons_of_mem d he))

/-- A destination that is offered is one of the connection's category for the tag. -/
theorem of_offered {t : Tag} {d : Destination} (h : offered conn db t = some d) :
    isActive conn = true ∧ ∃ cat ∈ categories conn, givenIn conn db t cat = some d := by
  rw [offered] at h
  split_ifs at h with hactive
  rw [given, List.findSome?_eq_some_iff] at h
  obtain ⟨pre, cat, post, hcs, hd, -⟩ := h
  exact ⟨hactive, cat, hcs ▸ List.mem_append_right pre List.mem_cons_self, hd⟩

theorem number_of_offered {t : Tag} {d : Destination} (h : offered conn db t = some d) :
    d.protocolDestinationConnectionNumber = .fin conn.protocolConnectionNumber := by
  obtain ⟨-, cat, -, hd⟩ := of_offered h
  rw [givenIn] at hd
  split_ifs at hd
  rw [← Option.some.inj hd]
  rfl

/-- By induction on the connections, the latest one last: each tag gets the destinations the
connections offer for the content of the start. -/
theorem DistributeAutoTags_eq {conns : List Connection}
    (hconns : (conns.map Connection.protocolConnectionNumber).Nodup)
    (hids : (db.map Tag._id).Nodup) :
    DistributeAutoTags conns db =
      if conns.any fun conn => rejected conn db then none
      else some (db.map fun t => t.pushAll (conns.filterMap fun conn => offered conn db t)) := by
  induction conns using List.reverseRecOn with
  | nil =>
    have hsame : (db.map fun t => t.pushAll ([].filterMap fun conn => offered conn db t)) = db :=
      List.map_id db
    rw [hsame]
    rfl
  | append_singleton conns conn ih =>
    rw [List.map_append, List.nodup_append] at hconns
    rw [DistributeAutoTags, List.foldlM_append, List.any_append]
    have hbefore := ih hconns.1
    rw [DistributeAutoTags] at hbefore
    rw [hbefore]
    cases hreject : conns.any fun conn => rejected conn db with
    | true => rfl
    | false =>
      have hunseen : ∀ t ∈ db, Unseen conn t
          (t.pushAll (conns.filterMap fun conn => offered conn db t)) := by
        intro t _
        refine unseen_pushAll t fun d hd => ?_
        obtain ⟨other, hother, hoffered⟩ := List.mem_filterMap.mp hd
        have hne := hconns.2.2 _ (List.mem_map_of_mem hother) _ (List.mem_singleton_self _)
        rw [Connection.owns, number_of_offered hoffered, decide_eq_false_iff_not]
        intro heq
        exact hne (Int.cast_injective (Number.fin.inj heq))
      have hids' : ((db.map fun t =>
          t.pushAll (conns.filterMap fun conn => offered conn db t)).map Tag._id).Nodup := by
        rw [List.map_map]
        have hsame : db.map (Tag._id ∘ fun t =>
            t.pushAll (conns.filterMap fun conn => offered conn db t)) = db.map Tag._id :=
          List.map_congr_left fun t ht => (hunseen t ht).id
        exact hsame ▸ hids
      rw [if_neg Bool.false_ne_true, Option.bind_eq_bind, Option.bind_some, List.foldlM_cons,
        distribute_eq hids', rejected_unseen hunseen, List.any_cons, List.any_nil, Bool.or_false,
        Bool.false_or]
      cases rejected conn db with
      | true => rfl
      | false =>
        rw [if_neg Bool.false_ne_true, if_neg Bool.false_ne_true, Option.bind_eq_bind,
          Option.bind_some, List.foldlM_nil, List.map_map]
        congr 1
        apply List.map_congr_left
        intro t ht
        rw [Function.comp_apply, offered_unseen hunseen ht, List.filterMap_append, Tag.pushAll,
          Tag.pushAll, List.foldl_append]
        cases hd : offered conn db t <;> simp [hd, Tag.pushed]

end Connections

section Places

variable {conn : Connection} {cat : Category} {db : List Tag} {t : Tag}

/-- The new tags that come before a tag in the query. -/
def place (conn : Connection) (cat : Category) (db : List Tag) (t : Tag) : ℕ :=
  (db.filter fun u => isNew conn cat u && decide (u._id < t._id)).length

theorem idxOf_newTags (hids : (db.map Tag._id).Nodup) (ht : t ∈ db)
    (hnew : isNew conn cat t = true) :
    ((newTags conn cat db).map Tag._id).idxOf t._id = place conn cat db t := by
  have hnodup : ((db.filter (isNew conn cat)).map Tag._id).Nodup :=
    hids.sublist (List.filter_sublist.map _)
  rw [newTags_eq, idxOf_sortBy hnodup (List.mem_filter.mpr ⟨ht, hnew⟩), List.filter_filter, place]
  congr 1
  apply List.filter_congr
  intro u _
  exact Bool.and_comm ..

theorem mem_ids_iff (hids : (db.map Tag._id).Nodup) (ht : t ∈ db) :
    t._id ∈ (allotted conn cat db).map Tag._id ↔
      isNew conn cat t = true ∧ lastIoa conn cat db + place conn cat db t < cat.topIoa := by
  constructor
  · intro h
    obtain ⟨u, hu, hid⟩ := List.mem_map.mp h
    obtain ⟨hudb, hunew⟩ := mem_allotted hu
    obtain rfl := eq_of_id hids hudb ht hid
    refine ⟨hunew, ?_⟩
    rw [allotted, List.map_take, List.mem_take_iff_idxOf_lt
      (List.mem_map_of_mem (mem_newTags.mpr ⟨ht, hunew⟩)), idxOf_newTags hids ht hunew] at h
    omega
  · rintro ⟨hnew, hroom⟩
    rw [allotted, List.map_take, List.mem_take_iff_idxOf_lt
      (List.mem_map_of_mem (mem_newTags.mpr ⟨ht, hnew⟩)), idxOf_newTags hids ht hnew]
    omega

/-- A new tag gets the address of its place after the highest in use, if the range has it. -/
theorem givenIn_eq (hids : (db.map Tag._id).Nodup) (ht : t ∈ db) :
    givenIn conn db t cat =
      if isNew conn cat t = true ∧ lastIoa conn cat db + place conn cat db t < cat.topIoa then
        some (created conn cat (lastIoa conn cat db + 1 + place conn cat db t))
      else none := by
  rw [givenIn]
  by_cases h : t._id ∈ (allotted conn cat db).map Tag._id
  · have hroom := (mem_ids_iff hids ht).mp h
    have hprefix : (allotted conn cat db).map Tag._id <+: (newTags conn cat db).map Tag._id :=
      (List.take_prefix _ _).map _
    rw [if_pos h, if_pos hroom, hprefix.idxOf_eq_of_mem h, idxOf_newTags hids ht hroom.1]
  · rw [if_neg h, if_neg fun hroom => h ((mem_ids_iff hids ht).mpr hroom)]

/-- Only the category of a tag can give it a destination. -/
theorem offered_eq (hids : (db.map Tag._id).Nodup) (ht : t ∈ db) (hactive : isActive conn = true)
    (hcat : cat ∈ categories conn) (hholds : cat.holds t = true) :
    offered conn db t = givenIn conn db t cat := by
  have hother : ∀ b ∈ categories conn, b ≠ cat → givenIn conn db t b = none := by
    intro b hb hne
    have hnot := apart_of_ne (mem_categories hcat) (mem_categories hb) (Ne.symm hne) t hholds
    rw [givenIn_eq hids ht, if_neg]
    rintro ⟨hnew, -⟩
    rw [isNew_holds hnew] at hnot
    cases hnot
  rw [offered, if_pos hactive, given]
  cases hfind : (categories conn).findSome? (givenIn conn db t) with
  | none =>
    rw [List.findSome?_eq_none_iff] at hfind
    exact (hfind cat hcat).symm
  | some d =>
    obtain ⟨b, hb, hd⟩ := List.exists_of_findSome?_eq_some hfind
    by_cases hne : b = cat
    · rw [← hne, hd]
    · rw [hother b hb hne] at hd
      cases hd

end Places

section After

variable {conns : List Connection} {conn : Connection} {db : List Tag} {t : Tag}

/-- Only the destinations are different. -/
theorem Tag.pushAll_others (t : Tag) (ds : List Destination) (p : Destinations) :
    { t.pushAll ds with protocolDestinations := p } = { t with protocolDestinations := p } := by
  induction ds generalizing t with
  | nil => rfl
  | cons d ds ih =>
    have hhead : { t.push d with protocolDestinations := p } =
        { t with protocolDestinations := p } := by
      unfold Tag.push
      split <;> rfl
    exact (ih (t.push d)).trans hhead

theorem Tag.pushAll_fields (t : Tag) (ds : List Destination) :
    (t.pushAll ds)._id = t._id ∧ (t.pushAll ds).type = t.type ∧
      (t.pushAll ds).origin = t.origin ∧ (t.pushAll ds).group1 = t.group1 := by
  obtain ⟨hid, -, htype, horigin, hgroup, -⟩ := Tag.mk.inj (t.pushAll_others ds .absent)
  exact ⟨hid, htype, horigin, hgroup⟩

theorem Tag.destinations_pushAll (h : t.protocolDestinations ≠ .null) (ds : List Destination) :
    (t.pushAll ds).destinations = t.destinations ++ ds := by
  induction ds generalizing t with
  | nil => exact (List.append_nil _).symm
  | cons d ds ih =>
    have hrest : ((t.push d).pushAll ds).destinations = (t.push d).destinations ++ ds :=
      ih (Tag.push_ne_null h d)
    rw [Tag.destinations_push t d h, List.append_assoc] at hrest
    exact hrest

/-- The destinations the connections offer a tag, in their order. -/
def offers (conns : List Connection) (db : List Tag) (t : Tag) : List Destination :=
  conns.filterMap fun conn => offered conn db t

/-- A tag after the run. -/
def after (conns : List Connection) (db : List Tag) (t : Tag) : Tag := t.pushAll (offers conns db t)

/-- The offer of one of the connections. -/
theorem filter_offers (hconns : (conns.map Connection.protocolConnectionNumber).Nodup)
    (hconn : conn ∈ conns) :
    (offers conns db t).filter conn.owns = (offered conn db t).toList := by
  have hnone : ∀ others : List Connection, (∀ other ∈ others,
      other.protocolConnectionNumber ≠ conn.protocolConnectionNumber) →
        (offers others db t).filter conn.owns = [] := by
    intro others hothers
    rw [List.filter_eq_nil_iff]
    intro d hd howns
    obtain ⟨other, hother, hoffered⟩ := List.mem_filterMap.mp hd
    rw [Connection.owns, decide_eq_true_iff, number_of_offered hoffered] at howns
    exact hothers other hother (Int.cast_injective (Number.fin.inj howns))
  obtain ⟨pre, post, rfl⟩ := List.append_of_mem hconn
  rw [List.map_append, List.map_cons, List.nodup_append, List.nodup_cons] at hconns
  have hpre := hnone pre fun other hother =>
    hconns.2.2 _ (List.mem_map_of_mem hother) _ List.mem_cons_self
  have hpost := hnone post fun other hother heq =>
    hconns.2.1.1 (heq ▸ List.mem_map_of_mem hother)
  rw [offers] at hpre hpost ⊢
  rw [List.filterMap_append, List.filter_append, hpre, List.nil_append, List.filterMap_cons]
  cases hd : offered conn db t with
  | none => exact hpost
  | some d =>
    have howns : conn.owns d = true := decide_eq_true (number_of_offered hd)
    show List.filter conn.owns (d :: _) = [d]
    rw [List.filter_cons, if_pos howns, hpost]

variable (hreject : ∀ conn ∈ conns, rejected conn db = false)
variable (hids : (db.map Tag._id).Nodup)

include hreject hids

/-- Nothing is offered to a tag with a null. -/
theorem offers_eq_nil (ht : t ∈ db) (hnull : t.protocolDestinations = .null) :
    offers conns db t = [] := by
  rw [offers, List.filterMap_eq_nil_iff]
  intro conn hconn
  rw [Option.eq_none_iff_forall_ne_some]
  intro d hd
  obtain ⟨hactive, cat, hcat, hgiven⟩ := of_offered hd
  obtain ⟨u, hu, hid⟩ := List.mem_map.mp (mem_ids_of_givenIn hgiven)
  obtain rfl := eq_of_id hids (mem_allotted hu).1 ht hid
  have hrejected : rejected conn db = true := by
    rw [rejected, hactive, refused, Bool.true_and, List.any_eq_true]
    exact ⟨cat, hcat, List.any_eq_true.mpr ⟨u, hu, decide_eq_true hnull⟩⟩
  rw [hreject conn hconn] at hrejected
  cases hrejected

theorem destinations_after (ht : t ∈ db) :
    (after conns db t).destinations = t.destinations ++ offers conns db t := by
  by_cases hnull : t.protocolDestinations = .null
  · rw [after, offers_eq_nil hreject hids ht hnull, List.append_nil]
    rfl
  · exact Tag.destinations_pushAll hnull _

theorem owned_after (hconns : (conns.map Connection.protocolConnectionNumber).Nodup)
    (hconn : conn ∈ conns) (ht : t ∈ db) :
    owned conn (after conns db t) = owned conn t ++ (offered conn db t).toList := by
  rw [owned, destinations_after hreject hids ht, List.filter_append, filter_offers hconns hconn]
  rfl

end After

end JsonScada.Iec104Server.TagsDestinations
