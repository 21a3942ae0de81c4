/- path: JsonScada/Dnp3Server/Distribute
   source: src/dnp3/Dnp3Server/main.cpp, the automatic creation of destinations at the start
   digest: Destinations and object addresses for the tags that have none on a connection. -/

import JsonScada.Dnp3Server.Documents
import JsonScada.Lib.Allotment

set_option autoImplicit false
set_option relaxedAutoImplicit false

namespace JsonScada.Dnp3Server.Distribute

open JsonScada.Lib.Binary64 JsonScada.Lib.DotNet JsonScada.Lib.Collection
open JsonScada.Lib.Allotment JsonScada.Dnp3Server.Documents
open JsonScada.Iec104.Types (Destination)

/-- The tags one of the four loops is for, and the group, variation and duration of the
destinations it creates. The loops write the duration twice, the second time as here. -/
structure Block where
  type : String
  origin : String
  group : ℤ
  asdu : ℤ
  duration : ℤ := 0
  deriving DecidableEq

def crobs : Block where
  type := "digital"
  origin := "command"
  group := 12
  asdu := 1
  duration := 11

def analogOutputs : Block where
  type := "analog"
  origin := "command"
  group := 41
  asdu := 3

def digitals : Block where
  type := "digital"
  origin := "supervised"
  group := 1
  asdu := 2

def analogs : Block where
  type := "analog"
  origin := "supervised"
  group := 30
  asdu := 6

def Block.holds (b : Block) (t : Tag) : Bool := t.type = b.type && t.origin = b.origin

/-- The query for the tags with a destination of the group on the connection. -/
def linked (conn : Connection) (b : Block) (t : Tag) : Bool :=
  b.holds t && t.anyDestination (·.protocolDestinationCommonAddress) b.group &&
    t.anyDestination (·.protocolDestinationConnectionNumber) conn.protocolConnectionNumber

/-- The query for the tags without a destination on the connection. -/
def unlinked (conn : Connection) (b : Block) (t : Tag) : Bool :=
  b.holds t &&
    !t.anyDestination (·.protocolDestinationConnectionNumber) conn.protocolConnectionNumber

/-- `text.find(part) != std::string::npos` -/
def contains (text part : String) : Bool :=
  text.toList.tails.any fun rest => part.toList.isPrefixOf rest

/-- A tag the loop does not skip: where topics are defined, one of them is in its group. -/
def ofTopics (conn : Connection) (t : Tag) : Bool :=
  conn.topics.isEmpty || conn.topics.any (contains t.group1)

/-- A tag that is to get a destination. -/
def isNew (conn : Connection) (b : Block) (t : Tag) : Bool :=
  unlinked conn b t && ofTopics conn t

/-- A destination of the connection with a higher address takes the place of the last. -/
def higher (conn : Connection) (last : ℤ) (d : Destination) : ℤ :=
  if conn.owns d && Number.lt (.fin last) d.protocolDestinationObjectAddress then
    toInt32 d.protocolDestinationObjectAddress
  else last

/-- The loop for the last used address over the documents of a cursor. -/
def lastAddress (conn : Connection) (docs : List Tag) : ℤ :=
  (docs.flatMap Tag.destinations).foldl (higher conn) (-1)

def created (conn : Connection) (b : Block) (addr : ℤ) : Destination where
  protocolDestinationConnectionNumber := .fin conn.protocolConnectionNumber
  protocolDestinationCommonAddress := .fin b.group
  protocolDestinationObjectAddress := .fin addr
  protocolDestinationASDU := .fin b.asdu
  protocolDestinationCommandDuration := .fin b.duration

/-- The two updates for a tag read before. -/
def createDestination (conn : Connection) (b : Block) (t : Tag) (addr : ℤ) (db : List Tag) :
    List Tag :=
  let isTarget (u : Tag) : Bool := u._id = .number t._id.getDouble
  let db := if t.protocolDestinations.isNone then updateOne isTarget Tag.clear db else db
  updateOne isTarget (fun u => u.push (created conn b addr)) db

/-- The tags the loop gives a destination, in the order of the cursor. -/
def newTags (conn : Connection) (b : Block) (db : List Tag) : List Tag :=
  (sortBy (·._id.rank) (db.filter (unlinked conn b))).filter (ofTopics conn)

/-- The loop over the new tags, from the last used address on. -/
def distribute (conn : Connection) (b : Block) (last : ℤ) (db : List Tag) : List Tag :=
  allot (createDestination conn b) 65535 last (newTags conn b db) db

/-- The documents of the cursor for the last used address. -/
def linkedTags (conn : Connection) (b : Block) (db : List Tag) : List Tag :=
  sortBy Tag.firstAddress (db.filter (linked conn b))

def createG12 (conn : Connection) (db : List Tag) : List Tag :=
  distribute conn crobs (lastAddress conn (linkedTags conn crobs db)) db

def createG41 (conn : Connection) (db : List Tag) : List Tag :=
  distribute conn analogOutputs (lastAddress conn (linkedTags conn analogOutputs db)) db

def createG1 (conn : Connection) (db : List Tag) : List Tag :=
  distribute conn digitals (lastAddress conn (linkedTags conn digitals db)) db

/-- The loop for the last address of group 30 runs over the cursor of group 1 once more,
which has no document left. -/
def createG30 (conn : Connection) (db : List Tag) : List Tag :=
  distribute conn analogs (lastAddress conn []) db

/-- The part of a start that concerns a connection. -/
def start (conn : Connection) (db : List Tag) : List Tag :=
  if conn.autoCreateTags then
    createG30 conn (createG1 conn
      (if conn.commandsEnabled then createG41 conn (createG12 conn db) else db))
  else db

def blocks (conn : Connection) : List Block :=
  if conn.autoCreateTags then
    (if conn.commandsEnabled then [crobs, analogOutputs] else []) ++ [digitals, analogs]
  else []

section

variable {conn : Connection} {b : Block} {db : List Tag}

/-- Over whole addresses the loop ends at the highest one, or where it began. -/
theorem foldl_higher {ds : List Destination} {last : ℤ}
    (h : ∀ d ∈ ds, conn.owns d = true →
      ∃ a : ℤ, d.protocolDestinationObjectAddress = .fin a ∧ -2 ^ 31 ≤ a ∧ a < 2 ^ 31) :
    last ≤ ds.foldl (higher conn) last ∧
      (∀ d ∈ ds, conn.owns d = true → ∀ a : ℤ, d.protocolDestinationObjectAddress = .fin a →
        a ≤ ds.foldl (higher conn) last) ∧
      (ds.foldl (higher conn) last = last ∨ ∃ d ∈ ds, conn.owns d = true ∧
        d.protocolDestinationObjectAddress = .fin (ds.foldl (higher conn) last : ℤ)) := by
  induction ds generalizing last with
  | nil => simp
  | cons d ds ih =>
    have hhead : last ≤ higher conn last d ∧
        (conn.owns d = true → ∀ a : ℤ, d.protocolDestinationObjectAddress = .fin a →
          a ≤ higher conn last d) ∧
        (higher conn last d = last ∨ conn.owns d = true ∧
          d.protocolDestinationObjectAddress = .fin (higher conn last d)) := by
      unfold higher
      cases howns : conn.owns d with
      | false => simp
      | true =>
        obtain ⟨a, ha, hrange⟩ := h d List.mem_cons_self howns
        rw [ha, toInt32_intCast hrange]
        by_cases hlt : last < a
        · have hcond : (true && Number.lt (.fin last) (.fin a)) = true := by simpa using hlt
          rw [if_pos hcond]
          refine ⟨le_of_lt hlt, ?_, .inr ⟨rfl, rfl⟩⟩
          intro _ a' ha'
          have heq : a = a' := by simpa using ha'
          omega
        · have hcond : ¬ (true && Number.lt (.fin last) (.fin a)) = true := by simpa using hlt
          rw [if_neg hcond]
          refine ⟨le_rfl, ?_, .inl rfl⟩
          intro _ a' ha'
          have heq : a = a' := by simpa using ha'
          omega
    obtain ⟨hle, hge, hlast⟩ := @ih (higher conn last d) fun e he => h e (List.mem_cons_of_mem d he)
    rw [List.foldl_cons]
    refine ⟨hhead.1.trans hle, ?_, ?_⟩
    · intro e he howns a ha
      rcases List.mem_cons.mp he with rfl | he
      · exact (hhead.2.1 howns a ha).trans hle
      · exact hge e he howns a ha
    · rcases hlast with hlast | ⟨e, he, howns, ha⟩
      · rw [hlast]
        rcases hhead.2.2 with heq | ⟨howns, ha⟩
        · exact .inl heq
        · exact .inr ⟨d, List.mem_cons_self, howns, ha⟩
      · exact .inr ⟨e, List.mem_cons_of_mem d he, howns, ha⟩

theorem newTags_perm : (newTags conn b db).Perm (db.filter (isNew conn b)) := by
  have hnew : (db.filter (unlinked conn b)).filter (ofTopics conn) = db.filter (isNew conn b) := by
    rw [List.filter_filter]
    apply List.filter_congr
    intro t _
    exact Bool.and_comm ..
  unfold newTags
  rw [filter_sortBy, hnew]
  exact List.perm_insertionSort _ _

theorem mem_newTags {t : Tag} : t ∈ newTags conn b db ↔ t ∈ db ∧ isNew conn b t = true := by
  rw [newTags_perm.mem_iff, List.mem_filter]

theorem newTags_ids (hids : (db.map Tag._id).Nodup) : ((newTags conn b db).map Tag._id).Nodup := by
  rw [(newTags_perm.map Tag._id).nodup_iff]
  exact hids.sublist ((List.filter_sublist).map _)

theorem createDestination_ids (t : Tag) (addr : ℤ) :
    (createDestination conn b t addr db).map Tag._id = db.map Tag._id := by
  unfold createDestination
  dsimp only
  refine (map_updateOne (f := fun u : Tag => u.push (created conn b addr)) (fun _ => rfl) _).trans ?_
  split_ifs
  · exact map_updateOne (f := Tag.clear) (fun _ => rfl) db
  · rfl

theorem distribute_ids (last : ℤ) :
    (distribute conn b last db).map Tag._id = db.map Tag._id :=
  map_allot (fun t addr _ => createDestination_ids t addr) last _ db

/-- A start keeps the keys of the tags. -/
theorem start_ids (conn : Connection) (db : List Tag) :
    (start conn db).map Tag._id = db.map Tag._id := by
  unfold start createG30 createG1 createG41 createG12
  split_ifs
  · rw [distribute_ids, distribute_ids, distribute_ids, distribute_ids]
  · rw [distribute_ids, distribute_ids]
  · rfl

/-- Tags with keys of their own are told apart by the key. -/
theorem eq_of_id {t u : Tag} (hids : (db.map Tag._id).Nodup) (ht : t ∈ db) (hu : u ∈ db)
    (h : t._id = u._id) : t = u :=
  List.inj_on_of_nodup_map hids ht hu h

/-- The two updates give a tag with a number for its key the destination, and no other tag. -/
theorem createDestination_eq_map {t : Tag} {addr : ℤ} (hids : (db.map Tag._id).Nodup)
    (ht : t ∈ db) {n : Number} (hn : t._id = .number n) :
    createDestination conn b t addr db =
      db.map fun u => if u._id = t._id then u.push (created conn b addr) else u := by
  have hget : t._id.getDouble = n := by rw [hn]; rfl
  unfold createDestination
  dsimp only
  rw [hget, ← hn]
  cases hp : t.protocolDestinations with
  | some ds => exact updateOne_eq_map hids t._id _
  | none =>
    rw [Option.isNone_none, if_pos rfl, updateOne_updateOne (f := Tag.clear) (fun _ => rfl),
      updateOne_eq_map hids]
    apply List.map_congr_left
    intro u hu
    by_cases hid : u._id = t._id
    · obtain rfl := eq_of_id hids hu ht hid
      rw [if_pos rfl, if_pos rfl, Tag.push, Tag.push, Tag.destinations, Tag.destinations, hp]
      rfl
    · rw [if_neg hid, if_neg hid]

/-- The new tags get the addresses that follow the last one, in their order. -/
theorem distribute_eq_map {last : ℤ} (hids : (db.map Tag._id).Nodup)
    (hnumeric : ∀ t ∈ db, isNew conn b t = true → ∃ n, t._id = .number n)
    (hroom : last + (db.filter (isNew conn b)).length ≤ 65535) :
    distribute conn b last db = db.map fun t =>
      if t._id ∈ (newTags conn b db).map Tag._id then
        t.push (created conn b (last + 1 + ((newTags conn b db).map Tag._id).idxOf t._id))
      else t := by
  refine allot_eq_map (g := fun n t => t.push (created conn b n)) (fun _ _ => rfl) hids
    (newTags_ids hids) (fun t ht => (mem_newTags.mp ht).1) ?_ ?_
  · intro t ht n c hc htc
    obtain ⟨hmem, hnew⟩ := mem_newTags.mp ht
    obtain ⟨k, hk⟩ := hnumeric t hmem hnew
    exact createDestination_eq_map hc htc hk
  · rw [newTags_perm.length_eq]
    exact hroom

end

end JsonScada.Dnp3Server.Distribute
