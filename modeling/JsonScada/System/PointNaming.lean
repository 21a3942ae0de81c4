/- path: JsonScada/System/PointNaming
   layer: system
   digest: When the names of the ICCP points keep the tags apart. -/

import JsonScada.IccpServer.Server
import JsonScada.Lib.Separated

set_option autoImplicit false
set_option relaxedAutoImplicit false

namespace JsonScada.System.PointNaming

open JsonScada.Lib.Binary64 JsonScada.Lib.Golang
open JsonScada.Lib.Collection (findLast? findLast?_eq_some_iff)
open JsonScada.Lib.Separated (append_cons_inj)
open JsonScada.Model.Documents (Date)
open JsonScada.IccpServer.Points JsonScada.IccpServer.Server

section Names

/-- The characters a name is made of, before they are replaced and cut. -/
def spelling (tag : String) : List Char :=
  if tag = "" then "X_unnamed_".toList
  else if startsWithLetter tag.toList then tag.toList
  else 'X' :: tag.toList

/-- Equal characters, or two that are not alphanumeric. -/
def Alike : Option Char → Option Char → Prop
  | some c, some d => c = d ∨ (isAlphanumeric c = false ∧ isAlphanumeric d = false)
  | none, none => True
  | _, _ => False

/-- Two tags that differ among the characters that count. -/
def Distinguished (s t : String) : Prop := ∃ i < 32, ¬ Alike (spelling s)[i]? (spelling t)[i]?

theorem plain_eq_iff {c d : Char} :
    plain c = plain d ↔ c = d ∨ (isAlphanumeric c = false ∧ isAlphanumeric d = false) := by
  have hunder : isAlphanumeric '_' = false := by decide
  rw [plain, plain]
  by_cases hc : isAlphanumeric c <;> by_cases hd : isAlphanumeric d
  · simp [hc, hd]
  · have hne : c ≠ '_' := fun h => by simp [h, hunder] at hc
    have hcd : c ≠ d := fun h => hd (h ▸ hc)
    simp [hc, hd, hne, hcd]
  · have hne : '_' ≠ d := fun h => by simp [← h, hunder] at hd
    have hcd : c ≠ d := fun h => hc (h ▸ hd)
    simp [hc, hd, hne, hcd]
  · simp [hc, hd]

theorem alike_iff {a b : Option Char} : Alike a b ↔ a.map plain = b.map plain := by
  cases a with
  | none => cases b with
    | none => exact iff_of_true trivial rfl
    | some d => exact iff_of_false id (by rintro ⟨⟩)
  | some c => cases b with
    | none => exact iff_of_false id (by rintro ⟨⟩)
    | some d =>
      rw [Option.map_some, Option.map_some, Option.some_inj, plain_eq_iff]
      exact Iff.rfl

theorem isLetter_plain (c : Char) : isLetter (plain c) = isLetter c := by
  rw [plain]
  split_ifs with h
  · rfl
  · have hc : isLetter c = false := by
      rw [Bool.not_eq_true, isAlphanumeric, Bool.or_eq_false_iff] at h
      exact h.1
    rw [hc]
    decide

theorem startsWithLetter_map (name : List Char) :
    startsWithLetter (name.map plain) = startsWithLetter name := by
  cases name with
  | nil => rfl
  | cons c name => exact isLetter_plain c

theorem toList_sanitizePointName (tag : String) :
    (sanitizePointName tag).toList = ((spelling tag).map plain).take 32 := by
  rw [sanitizePointName, spelling]
  by_cases hempty : tag = ""
  · rw [if_pos hempty, if_pos hempty]
    decide
  · rw [if_neg hempty, if_neg hempty]
    simp only [startsWithLetter_map, String.toList_ofList]
    split_ifs with hletter
    · rfl
    · rfl

/-- The names of two tags are equal unless they differ in what counts. -/
theorem sanitizePointName_eq_iff {s t : String} :
    sanitizePointName s = sanitizePointName t ↔ ¬ Distinguished s t := by
  rw [← String.toList_inj, toList_sanitizePointName, toList_sanitizePointName, Distinguished]
  constructor
  · rintro h ⟨i, hi, hno⟩
    refine hno (alike_iff.mpr ?_)
    have hget := congrArg (fun l => l[i]?) h
    simpa [List.getElem?_take, hi] using hget
  · intro h
    apply List.ext_getElem?
    intro i
    by_cases hi : i < 32
    · have hlike : Alike (spelling s)[i]? (spelling t)[i]? := by
        by_contra hno
        exact h ⟨i, hi, hno⟩
      simpa [List.getElem?_take, hi] using alike_iff.mp hlike
    · simp [hi]

theorem slash_notMem (tag : String) : '/' ∉ (sanitizePointName tag).toList := by
  rw [toList_sanitizePointName]
  intro hmem
  obtain ⟨c, -, hc⟩ := List.mem_map.mp (List.mem_of_mem_take hmem)
  rw [plain] at hc
  split_ifs at hc with h
  · rw [hc] at h
    exact absurd h (by decide)
  · exact absurd hc (by decide)

theorem key_eq_iff {g h a b : String} :
    g ++ "/" ++ sanitizePointName a = h ++ "/" ++ sanitizePointName b ↔
      g = h ∧ sanitizePointName a = sanitizePointName b := by
  constructor
  · intro heq
    have hlist := congrArg String.toList heq
    simp only [String.toList_append] at hlist
    have hslash : "/".toList = ['/'] := rfl
    rw [hslash, List.append_assoc, List.append_assoc, List.singleton_append,
      List.singleton_append] at hlist
    obtain ⟨hg, ha⟩ := append_cons_inj (slash_notMem a) (slash_notMem b) hlist
    exact ⟨String.toList_inj.mp hg, String.toList_inj.mp ha⟩
  · rintro ⟨rfl, h⟩
    rw [h]

end Names

section Lookup

variable {connections : List ProtocolConnection} {allTags : List RtData} {t : RtData}

/-- `s` is behind `t` in the order of the cursor. -/
def Behind (allTags : List RtData) (t s : RtData) : Prop :=
  ∃ pre post, allTags = pre ++ t :: post ∧ s ∈ post

/-- The documents that a name of a point is cached for. -/
def CachedAs (ref : ObjectRef) (s : RtData) : Prop :=
  s.group1 ≠ "" ∧ s.group1 = ref.domain ∧ sanitizePointName s.tag = ref.item

instance (ref : ObjectRef) (s : RtData) : Decidable (CachedAs ref s) :=
  inferInstanceAs (Decidable (_ ∧ _ ∧ _))

theorem sanitizePointName_ne_empty (tag : String) : sanitizePointName tag ≠ "" := by
  rw [sanitizePointName]
  split_ifs with hempty
  · decide
  · obtain ⟨c, cs, hcs⟩ := List.exists_cons_of_ne_nil
      (fun h : tag.toList = [] => hempty (String.toList_eq_nil_iff.mp h))
    intro h
    rw [hcs, ← String.toList_inj, String.toList_ofList] at h
    split_ifs at h <;> cases h

/-- The name of a point finds the tag of the last document it is cached for. -/
theorem findTagByDomainItem_eq (g a : String) :
    findTagByDomainItem allTags g (sanitizePointName a) =
      ((findLast? (fun s => CachedAs ⟨g, sanitizePointName a⟩ s) allTags).map RtData.tag).getD "" := by
  rw [findTagByDomainItem, tagByDomainItem, Map.ofEntries_map, findLast?, findLast?,
    ← List.filter_reverse, List.find?_filter]
  congr 3
  ext s
  apply decide_eq_decide.mpr
  simp [key_eq_iff, CachedAs, sanitizePointName_ne_empty]

theorem eq_of_tag_eq (hdistinct : (allTags.map RtData.tag).Nodup) {s : RtData} (hs : s ∈ allTags)
    (ht : t ∈ allTags) (h : s.tag = t.tag) : s = t :=
  List.inj_on_of_nodup_map hdistinct hs ht h

/-- What is behind a document does not depend on how the list is split at it. -/
theorem mem_of_behind (hdistinct : (allTags.map RtData.tag).Nodup) {pre post : List RtData}
    (hsplit : allTags = pre ++ t :: post) {s : RtData} (h : Behind allTags t s) : s ∈ post := by
  obtain ⟨pre', post', hsplit', hs⟩ := h
  have hnodup : (pre ++ t :: post).Nodup := hsplit ▸ hdistinct.of_map
  have hnot := (List.nodup_cons.mp (List.nodup_middle.mp hnodup)).1
  obtain ⟨hpre, hpost⟩ := not_or.mp (fun h => hnot (List.mem_append.mpr h))
  have heq := hsplit.symm.trans hsplit'
  rw [List.append_cons_inj_of_notMem hpre hpost] at heq
  rwa [heq.2.2]

/-- A tag finds its own document. -/
theorem findRtDataForTag_eq (hdistinct : (allTags.map RtData.tag).Nodup) (ht : t ∈ allTags) :
    findRtDataForTag allTags t.tag = t := by
  obtain ⟨hmem, htag⟩ := mem_findRtDataForTag ⟨t, ht, rfl⟩
  exact eq_of_tag_eq hdistinct hmem ht htag

end Lookup

section Naming

variable (host : Host) (connections : List ProtocolConnection) (realtimeData : List RtData)

/-- An event with another value of a tag. -/
structure IsChange (t event : RtData) : Prop where
  tag : event.tag = t.tag
  type : event.type = t.type
  group1 : event.group1 = t.group1
  origin : event.origin = t.origin

/-- What is promised of the names, for the model built at a time of the loaded documents. -/
structure KeepsApart (start : Date) : Prop where
  /-- two published tags never share a point -/
  ownPoints : ∀ p ∈ (build host start connections (load connections realtimeData)).points,
    ∀ q ∈ (build host start connections (load connections realtimeData)).points,
      p.ref = q.ref → p.tag = q.tag
  /-- a change of a tag updates no point of another one -/
  ownUpdates : ∀ t ∈ load connections realtimeData, ∀ event, IsChange t event → ∀ now,
    ∀ ref ∈ (onChange host now connections
      (build host start connections (load connections realtimeData)) event).ref,
    ∀ p ∈ (build host start connections (load connections realtimeData)).points,
      p.ref = ref → p.tag = t.tag
  /-- a write to a control point is a command of its tag -/
  ownCommands : ∀ p ∈ (build host start connections (load connections realtimeData)).points,
    p.kind = .control → ∀ t ∈ load connections realtimeData, t.tag = p.tag →
    ∀ conn ∈ connections, conn.commandsEnabled → ∀ value now,
      findTagByDomainItem (load connections realtimeData) p.ref.domain p.ref.item = t.tag ∧
      findRtDataForTag (load connections realtimeData) t.tag = t ∧
      writeData host now (load connections realtimeData) conn p.ref value =
        some (insertCommand host now conn (extractCommandValue host value).1
          (extractCommandValue host value).2 t)

/-- The condition on the documents: published tags of a domain differ in what counts, and a
command that gets a control point has a tag and a group without space around it, and differs from
all that is cached behind it. -/
structure Unambiguous : Prop where
  points : ∀ s ∈ load connections realtimeData, ∀ t ∈ load connections realtimeData,
    IsPublished connections s → IsPublished connections t → s.tag ≠ t.tag →
    trimSpace s.group1 = trimSpace t.group1 → Distinguished s.tag t.tag
  commands : ∀ t ∈ load connections realtimeData, IsPublished connections t →
    isControl connections t = true → t.tag ≠ "" ∧ trimSpace t.group1 = t.group1 ∧
    ∀ s, Behind (load connections realtimeData) t s → s.group1 = t.group1 →
      Distinguished s.tag t.tag

variable {host connections realtimeData} {start : Date}

theorem exists_point {t : RtData} (ht : t ∈ load connections realtimeData)
    (hpublished : IsPublished connections t) :
    ∃ p ∈ (build host start connections (load connections realtimeData)).points,
      p.tag = t.tag ∧ p.ref = ⟨trimSpace t.group1, sanitizePointName t.tag⟩ ∧
      (p.kind = .control ↔ isControl connections t = true) := by
  obtain ⟨p, hp⟩ := Option.isSome_iff_exists.mp
    ((@isSome_pointOf host start connections t).mpr hpublished.2)
  exact ⟨p, mem_points_build.mpr ⟨t, ht, hpublished.1, hp⟩, pointOf_eq_some hp⟩

theorem exists_tag {p : Point}
    (hp : p ∈ (build host start connections (load connections realtimeData)).points) :
    ∃ t ∈ load connections realtimeData, IsPublished connections t ∧ p.tag = t.tag ∧
      p.ref = ⟨trimSpace t.group1, sanitizePointName t.tag⟩ ∧
      (p.kind = .control ↔ isControl connections t = true) := by
  obtain ⟨t, ht, hskip, hpoint⟩ := mem_points_build.mp hp
  have hsome := (@isSome_pointOf host start connections t).mp (by rw [hpoint]; rfl)
  exact ⟨t, ht, ⟨hskip, hsome⟩, pointOf_eq_some hpoint⟩

/-- The points are apart exactly when the published tags are told apart. -/
theorem ownPoints_iff :
    (∀ p ∈ (build host start connections (load connections realtimeData)).points,
      ∀ q ∈ (build host start connections (load connections realtimeData)).points,
        p.ref = q.ref → p.tag = q.tag) ↔
    ∀ s ∈ load connections realtimeData, ∀ t ∈ load connections realtimeData,
      IsPublished connections s → IsPublished connections t → s.tag ≠ t.tag →
      trimSpace s.group1 = trimSpace t.group1 → Distinguished s.tag t.tag := by
  constructor
  · intro h s hs t ht hps hpt hne hgroup
    obtain ⟨p, hp, hptag, hpref, -⟩ := @exists_point host _ _ start _ hs hps
    obtain ⟨q, hq, hqtag, hqref, -⟩ := @exists_point host _ _ start _ ht hpt
    by_contra hno
    refine hne ?_
    rw [← hptag, ← hqtag]
    refine h p hp q hq ?_
    rw [hpref, hqref, hgroup, sanitizePointName_eq_iff.mpr hno]
  · intro h p hp q hq href
    obtain ⟨s, hs, hps, hptag, hpref, -⟩ := exists_tag hp
    obtain ⟨t, ht, hpt, hqtag, hqref, -⟩ := exists_tag hq
    rw [hpref, hqref, ObjectRef.mk.injEq] at href
    by_contra hne
    rw [hptag, hqtag] at hne
    exact sanitizePointName_eq_iff.mp href.2 (h s hs t ht hps hpt hne href.1)

/-- With points apart, a change stays with its tag. -/
theorem ownUpdates_of (hdistinct : ((load connections realtimeData).map RtData.tag).Nodup)
    (happart : ∀ p ∈ (build host start connections (load connections realtimeData)).points,
      ∀ q ∈ (build host start connections (load connections realtimeData)).points,
        p.ref = q.ref → p.tag = q.tag)
    {t event : RtData} (ht : t ∈ load connections realtimeData) (hevent : IsChange t event)
    {now : Date} {ref : ObjectRef}
    (href : ref ∈ (onChange host now connections
      (build host start connections (load connections realtimeData)) event).ref)
    {p : Point} (hp : p ∈ (build host start connections (load connections realtimeData)).points)
    (hpref : p.ref = ref) : p.tag = t.tag := by
  rw [onChange] at href
  split_ifs at href with hid hown hcommand hcontrol
  · cases href
  · cases href
  · -- the name is made of the group of the event, which is not trimmed
    obtain ⟨q, hq⟩ := Option.isSome_iff_exists.mp hcontrol
    obtain ⟨hqmem, -, hqtag⟩ := of_cpByTag hq
    obtain ⟨t', ht', -, hqt', hqref, -⟩ := exists_tag hqmem
    obtain rfl := eq_of_tag_eq hdistinct ht' ht (by rw [← hqt', hqtag, hevent.tag])
    obtain ⟨s, -, -, -, hsref, -⟩ := exists_tag hp
    obtain rfl := Option.some.inj href
    have hdomain : trimSpace s.group1 = t'.group1 := by
      rw [hsref, ObjectRef.mk.injEq, hevent.group1] at hpref
      exact hpref.1
    rw [← hqt']
    refine happart p hp q hqmem ?_
    rw [hpref, hqref, hevent.group1, hevent.tag, ← hdomain, trimSpace_trimSpace]
  · cases href
  · cases hip : (build host start connections (load connections realtimeData)).ipByTag event.tag with
    | none =>
      rw [hip] at href
      cases href
    | some ip =>
      rw [hip] at href
      obtain ⟨hmem, -, htag⟩ := of_ipByTag hip
      rw [← hevent.tag, ← htag]
      exact happart p hp ip hmem (hpref.trans (Option.some.inj href).symm)

/-- A write to a control point is a command of its tag exactly when the tag and its group are
plain and nothing is cached over it. -/
theorem ownCommands_iff (hdistinct : ((load connections realtimeData).map RtData.tag).Nodup) :
    (∀ p ∈ (build host start connections (load connections realtimeData)).points,
      p.kind = .control → ∀ t ∈ load connections realtimeData, t.tag = p.tag →
      ∀ conn ∈ connections, conn.commandsEnabled → ∀ value now,
        findTagByDomainItem (load connections realtimeData) p.ref.domain p.ref.item = t.tag ∧
        findRtDataForTag (load connections realtimeData) t.tag = t ∧
        writeData host now (load connections realtimeData) conn p.ref value =
          some (insertCommand host now conn (extractCommandValue host value).1
            (extractCommandValue host value).2 t)) ↔
    ∀ t ∈ load connections realtimeData, IsPublished connections t →
      isControl connections t = true → t.tag ≠ "" ∧ trimSpace t.group1 = t.group1 ∧
      ∀ s, Behind (load connections realtimeData) t s → s.group1 = t.group1 →
        Distinguished s.tag t.tag := by
  constructor
  · intro h t ht hpublished hcontrol
    obtain ⟨p, hp, hptag, hpref, hkind⟩ := @exists_point host _ _ start _ ht hpublished
    obtain ⟨conn, hconn, henabled⟩ : ∃ conn ∈ connections, conn.commandsEnabled = true := by
      rw [isControl, Bool.and_eq_true, hasCmdEnabled, List.any_eq_true] at hcontrol
      obtain ⟨conn, hconn, hand⟩ := hcontrol.2
      exact ⟨conn, hconn, (Bool.and_eq_true_iff.mp hand).1⟩
    obtain ⟨hfind, -, hwrite⟩ := h p hp (hkind.mpr hcontrol) t ht hptag.symm conn hconn henabled
      (.boolean true) 0
    have hne : t.tag ≠ "" := by
      intro hempty
      rw [writeData, hfind, if_pos hempty] at hwrite
      cases hwrite
    rw [hpref, findTagByDomainItem_eq] at hfind
    cases hlast : findLast? (fun s => CachedAs ⟨trimSpace t.group1, sanitizePointName t.tag⟩ s)
        (load connections realtimeData) with
    | none =>
      rw [hlast] at hfind
      exact absurd hfind.symm hne
    | some s =>
      rw [hlast] at hfind
      obtain ⟨hcached, pre, post, hsplit, hpost⟩ := findLast?_eq_some_iff.mp hlast
      have hs : s ∈ load connections realtimeData := by
        rw [hsplit]
        simp
      obtain rfl := eq_of_tag_eq hdistinct hs ht hfind
      have hgroup := (of_decide_eq_true hcached).2.1
      refine ⟨hne, hgroup.symm, ?_⟩
      rintro s' ⟨pre', post', hsplit', hs'⟩ hgroup'
      by_contra hno
      have hbehind := mem_of_behind hdistinct hsplit ⟨pre', post', hsplit', hs'⟩
      have hfalse := of_decide_eq_false (hpost s' hbehind)
      exact hfalse ⟨hgroup' ▸ (of_decide_eq_true hcached).1, hgroup'.trans hgroup,
        sanitizePointName_eq_iff.mpr hno⟩
  · intro h p hp hkind t ht htag conn hconn henabled value now
    obtain ⟨t', ht', hpublished, hptag, hpref, hcontrol⟩ := exists_tag hp
    obtain rfl := eq_of_tag_eq hdistinct ht' ht (hptag.symm.trans htag.symm)
    obtain ⟨hne, hgroup, hbehind⟩ := h t' ht hpublished (hcontrol.mp hkind)
    obtain ⟨pre, post, hsplit⟩ := List.append_of_mem ht
    have hgroup' : t'.group1 ≠ "" := by
      intro hempty
      have hskip := hpublished.1
      rw [isSkipped, hgroup, hempty] at hskip
      cases hskip
    have hlast : findLast? (fun s => CachedAs ⟨trimSpace t'.group1, sanitizePointName t'.tag⟩ s)
        (load connections realtimeData) = some t' := by
      refine findLast?_eq_some_iff.mpr ⟨decide_eq_true ⟨hgroup', hgroup.symm, rfl⟩, pre, post,
        hsplit, fun s hs => decide_eq_false fun hcached => ?_⟩
      exact sanitizePointName_eq_iff.mp hcached.2.2
        (hbehind s ⟨pre, post, hsplit, hs⟩ (hcached.2.1.trans hgroup))
    have hfind : findTagByDomainItem (load connections realtimeData) p.ref.domain p.ref.item =
        t'.tag := by
      rw [hpref, findTagByDomainItem_eq, hlast]
      rfl
    have hdoc := findRtDataForTag_eq hdistinct ht
    refine ⟨hfind, hdoc, ?_⟩
    rw [writeData_load hfind hne, hdoc]

/-- The names keep the tags apart exactly when the loaded documents are unambiguous. -/
theorem keepsApart_iff (hdistinct : (realtimeData.map RtData.tag).Nodup) :
    KeepsApart host connections realtimeData start ↔ Unambiguous connections realtimeData := by
  have hload : ((load connections realtimeData).map RtData.tag).Nodup :=
    hdistinct.sublist (List.filter_sublist.map RtData.tag)
  constructor
  · intro h
    exact ⟨ownPoints_iff.mp h.ownPoints, (ownCommands_iff hload).mp h.ownCommands⟩
  · intro h
    have happart := (@ownPoints_iff host _ _ start).mpr h.points
    exact ⟨happart,
      fun t ht event hevent now ref href p hp hpref =>
        ownUpdates_of hload happart ht hevent href hp hpref,
      (ownCommands_iff hload).mpr h.commands⟩

/-- A connection without topics that takes commands. -/
def openConnection : ProtocolConnection := ⟨1, "ICCP", true, [], ""⟩

def breaker (ID : ℚ) (tag : String) : RtData := {
  ID := .fin ID
  tag := tag
  type := "digital"
  group1 := "S1"
  origin := "command"
  protocolSourceConnectionNumber := .fin 7 }

/-- Texts of values do not matter for the names. -/
def noTexts : Host := ⟨fun _ => "", fun _ => (.fin 0, false), fun _ => ""⟩

theorem isPublished_breaker (ID : ℚ) (tag : String) :
    IsPublished [openConnection] (breaker ID tag) := by
  have hint : int64 (.fin 7) = 7 := by
    norm_num [int64, cutOff, JsonScada.Lib.EcmaScript.truncate]
  have hown : isOwn [openConnection] (breaker ID tag) = false := by
    rw [isOwn, breaker, hint]
    decide
  have hgroup : trimSpace "S1" ≠ "" := by decide
  refine ⟨?_, .inr (.inl rfl)⟩
  rw [isSkipped, hown, Bool.or_false]
  exact decide_eq_false hgroup

/-- Two commands that differ in a letter keep apart. -/
theorem breakers_apart :
    KeepsApart noTexts [openConnection] [breaker 1 "BRK-A", breaker 2 "BRK-B"] 0 := by
  have hdiffer : sanitizePointName "BRK-A" ≠ sanitizePointName "BRK-B" := by decide
  have hdistinguished : ∀ s ∈ load [openConnection] [breaker 1 "BRK-A", breaker 2 "BRK-B"],
      ∀ t ∈ load [openConnection] [breaker 1 "BRK-A", breaker 2 "BRK-B"],
      s.tag ≠ t.tag → Distinguished s.tag t.tag := by
    intro s hs t ht hne
    by_contra hno
    have hsame := sanitizePointName_eq_iff.mpr hno
    rcases List.mem_pair.mp (List.mem_of_mem_filter hs) with rfl | rfl <;>
      rcases List.mem_pair.mp (List.mem_of_mem_filter ht) with rfl | rfl
    · exact hne rfl
    · exact hdiffer hsame
    · exact hdiffer hsame.symm
    · exact hne rfl
  refine (keepsApart_iff (by decide)).mpr ⟨fun s hs t ht _ _ hne _ => hdistinguished s hs t ht hne,
    fun t ht _ _ => ⟨?_, ?_, ?_⟩⟩
  · rcases List.mem_pair.mp (List.mem_of_mem_filter ht) with rfl | rfl <;> decide
  · rcases List.mem_pair.mp (List.mem_of_mem_filter ht) with rfl | rfl <;> rfl
  · rintro s ⟨pre, post, hsplit, hs⟩ -
    have hall : (load [openConnection] [breaker 1 "BRK-A", breaker 2 "BRK-B"]).Pairwise
        fun a b => a.tag ≠ b.tag :=
      List.pairwise_map.mp (List.Nodup.sublist (List.filter_sublist.map RtData.tag) (by decide))
    rw [hsplit] at hall
    have hbefore := (List.pairwise_append.mp hall).2.1
    refine hdistinguished s ?_ t ht ((List.pairwise_cons.mp hbefore).1 s hs).symm
    rw [hsplit]
    simp [hs]

/-- Tags that differ in a replaced character get the same point. -/
theorem breakers_collide : ¬ ∀ (host : Host) (connections : List ProtocolConnection)
    (realtimeData : List RtData) (start : Date), (realtimeData.map RtData.tag).Nodup →
      KeepsApart host connections realtimeData start := by
  intro h
  have happart := ownPoints_iff.mp
    (h noTexts [openConnection] [breaker 1 "BRK-1", breaker 2 "BRK 1"] 0 (by decide)).ownPoints
  have hload : load [openConnection] [breaker 1 "BRK-1", breaker 2 "BRK 1"] =
      [breaker 1 "BRK-1", breaker 2 "BRK 1"] := by rfl
  rw [hload] at happart
  refine sanitizePointName_eq_iff.mp ?_ (happart (breaker 1 "BRK-1") (by simp)
    (breaker 2 "BRK 1") (by simp) (isPublished_breaker _ _) (isPublished_breaker _ _) (by decide)
    rfl)
  decide

end Naming

end JsonScada.System.PointNaming
