/- path: JsonScada/System/TagRetry
   source: src/plc4x-client/autotag.go
   digest: When the loop that creates a tag ends, and what it leaves. -/

import JsonScada.Lib.Separated
import JsonScada.Plc4xClient.AutoTag

set_option autoImplicit false
set_option relaxedAutoImplicit false

namespace JsonScada.System.TagRetry

open JsonScada.Lib.Binary64 JsonScada.Lib.Collection JsonScada.Lib.Separated
open JsonScada.Model.AutoKeys (hasKey accepts)
open JsonScada.Model.Documents (Point PointType)
open JsonScada.Plc4xClient.AutoTag

section Statement

variable (ns : String)

/-- The unique indexes of the collection. -/
structure Unique (realtimeData : List Point) : Prop where
  _id : (realtimeData.map (·._id)).Nodup
  tag : (realtimeData.map (·.tag)).Nodup

/-- The document is the one of the tag, the connection and the address. -/
def isTag (rtData : RtDataTag) (p : Point) : Bool :=
  ofTag rtData p && p.protocolSourceObjectAddress = .str rtData.ProtocolSourceObjectAddress

/-- One document has the tag at the address, and those of the other tags are the same. -/
structure Created (rtData : RtDataTag) (docs docs' : List Point) : Prop where
  one : (docs'.filter (isTag rtData)).length = 1
  others : (docs'.filter fun p => p.tag ≠ rtData.Tag) = docs.filter fun p => p.tag ≠ rtData.Tag

/-- Whatever the database does, a call ends, and where its loop has ended without an error the
tag is created. -/
def Creates (rtData : RtDataTag) (s : State) : Prop :=
  ∀ srv : Server, (∃ fuel, AutoCreateTag srv ns fuel rtData s ≠ none) ∧
    ∀ fuel e t, AutoCreateTag srv ns fuel rtData s = some (e, t) →
      e = .inserted ∨ e = .updated → Created rtData.named s.realtimeData t.realtimeData

/-- A 64-bit integer is the key of no document. -/
def FreeKey (realtimeData : List Point) : Prop :=
  ∃ k : ℤ, -2 ^ 63 ≤ k ∧ k < 2 ^ 63 ∧ realtimeData.any (hasKey (keyOf k)) = false

/-- The tag is known already; or a key is free, and neither the tag, if a document has it, nor
the name of the collection looks like the name of a key. -/
def Tells (rtData : RtDataTag) (s : State) : Prop :=
  s._ListCreatedTags rtData.named.Tag ≠ none ∨
    FreeKey s.realtimeData ∧
      (tagTaken s.realtimeData rtData.named.Tag = true →
        Contains rtData.named.Tag "_id:" = false ∧ Contains ns "_id:" = false)

end Statement

section Texts

variable {ns index field key : String}

/-- The text of the error, taken apart at blanks and quotes. -/
theorem toList_duplicateKey (ns tag : String) :
    (duplicateKey ns "tagIndex" "tag" ("\"" ++ tag ++ "\"")).toList =
      "E11000 duplicate key error collection:".toList ++ ' ' :: (ns.toList ++ ' ' ::
        ("index: tagIndex dup key: \x7b tag: ".toList ++ '"' ::
          (tag.toList ++ '"' :: " \x7d".toList))) := by
  have hstart : "E11000 duplicate key error collection: ".toList =
      "E11000 duplicate key error collection:".toList ++ [' '] := by decide
  have hindex : " index: ".toList ++ ("tagIndex".toList ++ (" dup key: \x7b ".toList ++
      ("tag".toList ++ (": ".toList ++ "\"".toList)))) =
        ' ' :: ("index: tagIndex dup key: \x7b tag: ".toList ++ ['"']) := by decide
  have hend : "\"".toList ++ " \x7d".toList = '"' :: " \x7d".toList := by decide
  have htag := congrArg (· ++ (tag.toList ++ '"' :: " \x7d".toList)) hindex
  unfold duplicateKey
  simp only [String.toList_append, List.append_assoc]
  rw [hstart, hend]
  simp only [List.append_assoc, List.cons_append, List.nil_append] at htag ⊢
  rw [htag]

/-- The error of a tag looks like one of a key where the tag or the collection does. -/
theorem contains_id_of_tag (ns tag : String) :
    Contains (duplicateKey ns "tagIndex" "tag" ("\"" ++ tag ++ "\"")) "_id:" = true ↔
      Contains ns "_id:" = true ∨ Contains tag "_id:" = true := by
  unfold Contains
  rw [decide_eq_true_eq, decide_eq_true_eq, decide_eq_true_eq, toList_duplicateKey,
    infix_append_cons_iff (by decide), infix_append_cons_iff (by decide),
    infix_append_cons_iff (by decide), infix_append_cons_iff (by decide)]
  have hstart : ¬ "_id:".toList <:+: "E11000 duplicate key error collection:".toList := by
    decide
  have hindex : ¬ "_id:".toList <:+: "index: tagIndex dup key: \x7b tag: ".toList := by decide
  have hend : ¬ "_id:".toList <:+: " \x7d".toList := by decide
  simp only [hstart, hindex, hend, false_or, or_false]

theorem contains_duplicate (ns index field key : String) :
    Contains (duplicateKey ns index field key) "E11000" = true := by
  unfold Contains duplicateKey
  rw [decide_eq_true_eq]
  simp only [String.toList_append, List.append_assoc]
  have hcode : "E11000 duplicate key error collection: ".toList =
      "E11000".toList ++ " duplicate key error collection: ".toList := by decide
  rw [hcode, List.append_assoc]
  exact List.infix_append_left

/-- The error names the field. -/
theorem contains_field (ns index field key : String) {pat : String} (h : pat = field ++ ":") :
    Contains (duplicateKey ns index field key) pat = true := by
  subst h
  unfold Contains duplicateKey
  rw [decide_eq_true_eq]
  have hcolon : ": ".toList = ":".toList ++ " ".toList := by decide
  simp only [String.toList_append, hcolon]
  refine ⟨"E11000 duplicate key error collection: ".toList ++ (ns.toList ++ (" index: ".toList ++
    (index.toList ++ " dup key: \x7b ".toList))), " ".toList ++ (key.toList ++ " \x7d".toList),
    ?_⟩
  simp only [List.append_assoc]

end Texts

section Loop

variable {srv : Server} {ns : String} {rtData : RtDataTag} {docs : List Point} {n : ℕ}
  {AutoKeyId : ℤ}

theorem wrapInt_range (z : ℤ) : -2 ^ 63 ≤ wrapInt z ∧ wrapInt z < 2 ^ 63 := by
  unfold wrapInt
  omega

theorem wrapInt_wrapInt (a b : ℤ) : wrapInt (wrapInt a + b) = wrapInt (a + b) := by
  unfold wrapInt
  omega

/-- Every integer is reached by counting. -/
theorem exists_wrapInt {k : ℤ} (hlow : -2 ^ 63 ≤ k) (hhigh : k < 2 ^ 63) (a : ℤ) :
    ∃ d : ℕ, wrapInt (a + 1 + d) = k := by
  refine ⟨((k - a - 1) % 2 ^ 64).toNat, ?_⟩
  rw [Int.toNat_of_nonneg (Int.emod_nonneg _ (by norm_num))]
  unfold wrapInt
  omega

/-- A key in use is left for the next one, unless the error names the tag. -/
theorem insertOne_of_key (hfails : srv.insertFails n = none) {p : Point}
    (hkey : docs.any (hasKey p._id) = true)
    (hname : (tagTaken docs p.tag && srv.namesTag n) = false) :
    insertOne srv ns n docs p = .error (duplicateKey ns "_id_" "_id" (srv.keyText p._id)) := by
  unfold insertOne
  rw [hfails]
  dsimp only
  rw [hkey, hname, Bool.not_false, Bool.and_self, if_pos rfl]

theorem insertOne_of_tag (hfails : srv.insertFails n = none) {p : Point}
    (htag : tagTaken docs p.tag = true)
    (hname : docs.any (hasKey p._id) = false ∨ srv.namesTag n = true) :
    insertOne srv ns n docs p =
      .error (duplicateKey ns "tagIndex" "tag" ("\"" ++ p.tag ++ "\"")) := by
  have hcond : (docs.any (hasKey p._id) && !(true && srv.namesTag n)) = false := by
    rcases hname with h | h
    · rw [h, Bool.false_and]
    · rw [h, Bool.and_self, Bool.not_true, Bool.and_false]
  unfold insertOne
  rw [hfails]
  dsimp only
  rw [htag, hcond, if_neg Bool.false_ne_true, if_pos rfl]

theorem insertOne_of_fresh (hfails : srv.insertFails n = none) {p : Point}
    (hkey : docs.any (hasKey p._id) = false) (htag : tagTaken docs p.tag = false) :
    insertOne srv ns n docs p = .ok (docs ++ [p]) := by
  unfold insertOne
  rw [hfails]
  dsimp only
  rw [hkey, htag, Bool.false_and, if_neg Bool.false_ne_true, if_neg Bool.false_ne_true]

/-- The error is that of the tag. -/
def TagNamed (srv : Server) (docs : List Point) (n : ℕ) (tag : String) (key : ℤ) : Prop :=
  tagTaken docs tag = true ∧
    (docs.any (hasKey (keyOf key)) = false ∨ srv.namesTag n = true)

/-- The error of the tag looks like one of a key. -/
def Misread (ns tag : String) : Prop := Contains ns "_id:" = true ∨ Contains tag "_id:" = true

/-- What an attempt comes to: another one, an error, the insertion or the update. -/
inductive Attempt (srv : Server) (ns : String) (rtData : RtDataTag) (docs : List Point) (n : ℕ)
    (key : ℤ) (next : Option (Ending × ℤ × List Point)) :
    Option (Ending × ℤ × List Point) → Prop
  | again (h : docs.any (hasKey (keyOf key)) = true ∨
      tagTaken docs rtData.Tag = true ∧ Misread ns rtData.Tag) :
    Attempt srv ns rtData docs n key next next
  | failed (h : srv.insertFails n ≠ none ∨
      TagNamed srv docs n rtData.Tag key ∧ ¬ Misread ns rtData.Tag) :
    Attempt srv ns rtData docs n key next (some (.failed, key, docs))
  | inserted (hkey : docs.any (hasKey (keyOf key)) = false)
      (htag : tagTaken docs rtData.Tag = false) :
    Attempt srv ns rtData docs n key next
      (some (.inserted, key, docs ++ [rtData.document (keyOf key)]))
  | updated (docs' : List Point) (hnamed : TagNamed srv docs n rtData.Tag key)
      (hread : ¬ Misread ns rtData.Tag) (h : updateTag srv docs rtData = some docs') :
    Attempt srv ns rtData docs n key next (some (.updated, key, docs'))

theorem createLoop_ok {docs' : List Point} (fuel : ℕ)
    (h : insertOne srv ns n docs (rtData.document (keyOf (wrapInt (AutoKeyId + 1)))) =
      .ok docs') :
    createLoop srv ns rtData docs (fuel + 1) n AutoKeyId =
      some (.inserted, wrapInt (AutoKeyId + 1), docs') := by
  rw [createLoop, h]

theorem createLoop_error {err : String} (fuel : ℕ)
    (h : insertOne srv ns n docs (rtData.document (keyOf (wrapInt (AutoKeyId + 1)))) =
      .error err) :
    createLoop srv ns rtData docs (fuel + 1) n AutoKeyId =
      if Contains err "E11000" && Contains err "_id:" then
        createLoop srv ns rtData docs fuel (n + 1) (wrapInt (AutoKeyId + 1))
      else if Contains err "E11000" && Contains err "tag:" then
        match updateTag srv docs rtData with
        | none => some (.failed, wrapInt (AutoKeyId + 1), docs)
        | some docs' => some (.updated, wrapInt (AutoKeyId + 1), docs')
      else some (.failed, wrapInt (AutoKeyId + 1), docs) := by
  rw [createLoop]
  generalize insertOne srv ns n docs (rtData.document (keyOf (wrapInt (AutoKeyId + 1)))) = res
    at h ⊢
  subst h
  rfl

theorem attempt_of_tag (fuel : ℕ) (hfails : srv.insertFails n = none)
    (h : TagNamed srv docs n rtData.Tag (wrapInt (AutoKeyId + 1))) :
    Attempt srv ns rtData docs n (wrapInt (AutoKeyId + 1))
      (createLoop srv ns rtData docs fuel (n + 1) (wrapInt (AutoKeyId + 1)))
      (createLoop srv ns rtData docs (fuel + 1) n AutoKeyId) := by
  have hinsert : insertOne srv ns n docs (rtData.document (keyOf (wrapInt (AutoKeyId + 1)))) =
      .error (duplicateKey ns "tagIndex" "tag" ("\"" ++ rtData.Tag ++ "\"")) :=
    insertOne_of_tag hfails h.1 h.2
  have hfield : Contains (duplicateKey ns "tagIndex" "tag" ("\"" ++ rtData.Tag ++ "\""))
      "tag:" = true := contains_field _ _ _ _ (by decide)
  have hmisread := contains_id_of_tag ns rtData.Tag
  rw [createLoop_error fuel hinsert, contains_duplicate, Bool.true_and, Bool.true_and]
  cases hid : Contains (duplicateKey ns "tagIndex" "tag" ("\"" ++ rtData.Tag ++ "\"")) "_id:" with
  | true =>
    rw [if_pos rfl]
    exact .again (.inr ⟨h.1, hmisread.mp hid⟩)
  | false =>
    have hread : ¬ Misread ns rtData.Tag := fun hm => by
      rw [← Bool.not_eq_true] at hid
      exact hid (hmisread.mpr hm)
    rw [if_neg Bool.false_ne_true, if_pos hfield]
    cases hupdate : updateTag srv docs rtData with
    | none => exact .failed (.inr ⟨h, hread⟩)
    | some docs' => exact .updated docs' h hread hupdate

theorem createLoop_attempt (fuel : ℕ) :
    Attempt srv ns rtData docs n (wrapInt (AutoKeyId + 1))
      (createLoop srv ns rtData docs fuel (n + 1) (wrapInt (AutoKeyId + 1)))
      (createLoop srv ns rtData docs (fuel + 1) n AutoKeyId) := by
  cases hfails : srv.insertFails n with
  | some text =>
    have hcode := srv.insertFails_other n text hfails
    have hinsert : insertOne srv ns n docs
        (rtData.document (keyOf (wrapInt (AutoKeyId + 1)))) = .error text := by
      unfold insertOne
      rw [hfails]
    rw [createLoop_error fuel hinsert, hcode, Bool.false_and, Bool.false_and,
      if_neg Bool.false_ne_true, if_neg Bool.false_ne_true]
    exact .failed (.inl (by rw [hfails]; exact Option.some_ne_none text))
  | none =>
    cases hkey : docs.any (hasKey (keyOf (wrapInt (AutoKeyId + 1)))) with
    | true =>
      cases hname : tagTaken docs rtData.Tag && srv.namesTag n with
      | true =>
        rw [Bool.and_eq_true] at hname
        exact attempt_of_tag fuel hfails ⟨hname.1, .inr hname.2⟩
      | false =>
        have hinsert : insertOne srv ns n docs
            (rtData.document (keyOf (wrapInt (AutoKeyId + 1)))) =
              .error (duplicateKey ns "_id_" "_id"
                (srv.keyText (keyOf (wrapInt (AutoKeyId + 1))))) :=
          insertOne_of_key hfails hkey hname
        have hfield : Contains (duplicateKey ns "_id_" "_id"
            (srv.keyText (keyOf (wrapInt (AutoKeyId + 1))))) "_id:" = true :=
          contains_field _ _ _ _ (by decide)
        rw [createLoop_error fuel hinsert, contains_duplicate, Bool.true_and, if_pos hfield]
        exact .again (.inl hkey)
    | false =>
      cases htag : tagTaken docs rtData.Tag with
      | true => exact attempt_of_tag fuel hfails ⟨htag, .inl hkey⟩
      | false =>
        rw [createLoop_ok fuel (insertOne_of_fresh hfails hkey htag)]
        exact .inserted hkey htag

/-- What goes on for ever goes on once. -/
theorem Attempt.of_none {key : ℤ} {next res : Option (Ending × ℤ × List Point)}
    (h : Attempt srv ns rtData docs n key next res) (hres : res = none) :
    (docs.any (hasKey (keyOf key)) = true ∨
      tagTaken docs rtData.Tag = true ∧ Misread ns rtData.Tag) ∧ next = none := by
  cases h with
  | again h => exact ⟨h, hres⟩
  | failed _ => cases hres
  | inserted _ _ => cases hres
  | updated _ _ _ _ => cases hres

/-- The loop ends at a free key at the latest. -/
theorem createLoop_of_free (hread : tagTaken docs rtData.Tag = true → ¬ Misread ns rtData.Tag)
    (d : ℕ) (hfree : docs.any (hasKey (keyOf (wrapInt (AutoKeyId + 1 + d)))) = false) :
    createLoop srv ns rtData docs (d + 1) n AutoKeyId ≠ none := by
  induction d generalizing n AutoKeyId with
  | zero =>
    rw [Nat.cast_zero, add_zero] at hfree
    intro hnone
    obtain ⟨hkey | ⟨htag, hmisread⟩, -⟩ := (createLoop_attempt 0).of_none hnone
    · rw [hfree] at hkey
      cases hkey
    · exact hread htag hmisread
  | succ d ih =>
    have hnext : wrapInt (wrapInt (AutoKeyId + 1) + 1 + d) =
        wrapInt (AutoKeyId + 1 + (d + 1 : ℕ)) := by
      rw [add_assoc, wrapInt_wrapInt]
      push_cast
      ring_nf
    intro hnone
    have hrest := ((createLoop_attempt (d + 1)).of_none hnone).2
    exact ih (by rw [hnext]; exact hfree) hrest

/-- Without a free key, or with a tag taken for a key, the loop goes on for ever. -/
theorem createLoop_none (hkeys : srv.namesTag = fun _ => false)
    (hfails : srv.insertFails = fun _ => none)
    (h : ¬ FreeKey docs ∨ tagTaken docs rtData.Tag = true ∧ Misread ns rtData.Tag) (fuel : ℕ) :
    createLoop srv ns rtData docs fuel n AutoKeyId = none := by
  induction fuel generalizing n AutoKeyId with
  | zero => rfl
  | succ fuel ih =>
    have hattempt := @createLoop_attempt srv ns rtData docs n AutoKeyId fuel
    have hfull : ¬ FreeKey docs →
        docs.any (hasKey (keyOf (wrapInt (AutoKeyId + 1)))) = true := by
      intro hnone
      by_contra hfree
      obtain ⟨hlow, hhigh⟩ := wrapInt_range (AutoKeyId + 1)
      exact hnone ⟨_, hlow, hhigh, Bool.not_eq_true _ ▸ hfree⟩
    -- the error of a tag is named where a key is free only
    have hexcluded : ¬ (TagNamed srv docs n rtData.Tag (wrapInt (AutoKeyId + 1)) ∧
        ¬ Misread ns rtData.Tag) := by
      rintro ⟨⟨-, hnamed⟩, hread⟩
      rcases h with hnone | ⟨-, hmisread⟩
      · rw [hfull hnone, hkeys] at hnamed
        simp at hnamed
      · exact hread hmisread
    generalize hnext : createLoop srv ns rtData docs fuel (n + 1) (wrapInt (AutoKeyId + 1)) =
      next at hattempt
    rw [ih] at hnext
    generalize createLoop srv ns rtData docs (fuel + 1) n AutoKeyId = res at hattempt ⊢
    cases hattempt with
    | again _ => exact hnext.symm
    | failed hf =>
      rcases hf with hf | hf
      · exact absurd (by rw [hfails]) hf
      · exact absurd hf hexcluded
    | inserted hkey htag =>
      rcases h with hnone | ⟨htaken, -⟩
      · rw [hfull hnone] at hkey
        cases hkey
      · rw [htaken] at htag
        cases htag
    | updated _ hnamed hread _ => exact absurd ⟨hnamed, hread⟩ hexcluded

end Loop

section Documents

variable {srv : Server} {ns : String} {rtData : RtDataTag} {docs docs' : List Point}

theorem tagTaken_iff {tag : String} : tagTaken docs tag = true ↔ ∃ p ∈ docs, p.tag = tag := by
  unfold tagTaken
  rw [List.any_eq_true]
  simp only [decide_eq_true_eq]

theorem created_insert (key : Number) (htag : tagTaken docs rtData.Tag = false) :
    Created rtData docs (docs ++ [rtData.document key]) := by
  have hnone : ∀ p ∈ docs, p.tag ≠ rtData.Tag := by
    intro p hp heq
    rw [tagTaken_iff.mpr ⟨p, hp, heq⟩] at htag
    cases htag
  have hfilter : docs.filter (isTag rtData) = [] := by
    rw [List.filter_eq_nil_iff]
    intro p hp
    simp [isTag, ofTag, hnone p hp]
  constructor
  · rw [List.filter_append, hfilter]
    simp [isTag, ofTag, RtDataTag.document]
  · rw [List.filter_append]
    simp [RtDataTag.document]

/-- A document with the tag is the only one. -/
theorem Unique.split (h : Unique docs) {p : Point} (hp : p ∈ docs) :
    ∃ pre post, docs = pre ++ p :: post ∧ ∀ q ∈ pre ++ post, q.tag ≠ p.tag := by
  obtain ⟨pre, post, rfl⟩ := List.append_of_mem hp
  refine ⟨pre, post, rfl, ?_⟩
  have htag := h.tag
  rw [List.map_append, List.map_cons, List.nodup_middle, List.nodup_cons, ← List.map_append]
    at htag
  intro q hq heq
  exact htag.1 (heq ▸ List.mem_map_of_mem hq)

theorem created_update (hu : Unique docs) (htag : tagTaken docs rtData.Tag = true)
    (h : updateTag srv docs rtData = some docs') : Created rtData docs docs' := by
  unfold updateTag at h
  split_ifs at h with hfails hany haccepts
  · obtain ⟨p, hp, hof⟩ := List.any_eq_true.mp hany
    obtain ⟨pre, post, rfl, hother⟩ := hu.split hp
    have hof' := hof
    unfold ofTag at hof'
    rw [Bool.and_eq_true, decide_eq_true_eq, decide_eq_true_eq] at hof'
    rw [hof'.1] at hother
    have hpre : ∀ q ∈ pre, ofTag rtData q = false := by
      intro q hq
      simp [ofTag, hother q (List.mem_append_left post hq)]
    rw [updateOne_append_cons hpre hof] at h
    cases h
    have hnone : ∀ l : List Point, (∀ q ∈ l, q.tag ≠ rtData.Tag) →
        l.filter (isTag rtData) = [] := by
      intro l hl
      rw [List.filter_eq_nil_iff]
      intro q hq
      simp [isTag, ofTag, hl q hq]
    constructor
    · rw [List.filter_append, List.filter_cons,
        hnone pre fun q hq => hother q (List.mem_append_left post hq),
        hnone post fun q hq => hother q (List.mem_append_right pre hq)]
      simp [isTag, ofTag, hof']
    · rw [List.filter_append, List.filter_append, List.filter_cons, List.filter_cons]
      simp [hof'.1]
  · -- the tag of the new document is taken
    obtain ⟨p, hp, heq⟩ := tagTaken_iff.mp htag
    have htaken : docs.any (fun q => hasKey (srv.upserted rtData)._id q ||
        q.tag = (srv.upserted rtData).tag) = true := by
      refine List.any_eq_true.mpr ⟨p, hp, ?_⟩
      rw [srv.upserted_tag, heq, decide_eq_true rfl, Bool.or_true]
    unfold accepts at haccepts
    rw [htaken] at haccepts
    cases haccepts

/-- Where the loop ends without an error the tag is created. -/
theorem created_of_loop (hu : Unique docs) {fuel n : ℕ} {AutoKeyId key : ℤ} {e : Ending}
    (h : createLoop srv ns rtData docs fuel n AutoKeyId = some (e, key, docs'))
    (he : e = .inserted ∨ e = .updated) : Created rtData docs docs' := by
  induction fuel generalizing n AutoKeyId with
  | zero => cases h
  | succ fuel ih =>
    have hattempt := @createLoop_attempt srv ns rtData docs n AutoKeyId fuel
    generalize hnext : createLoop srv ns rtData docs fuel (n + 1) (wrapInt (AutoKeyId + 1)) =
      next at hattempt
    rw [h] at hattempt
    generalize hres : some (e, key, docs') = res at hattempt
    cases hattempt with
    | again _ => exact ih (hnext.trans hres.symm)
    | failed _ =>
      cases hres
      rcases he with he | he <;> cases he
    | inserted _ htag =>
      cases hres
      exact created_insert _ htag
    | updated _ hnamed _ hupdate =>
      cases hres
      exact created_update hu hnamed.1 hupdate

end Documents

section Main

/-- A database without errors that names a key in use before a tag. -/
def plain (findFails : Bool) : Server where
  findFails := findFails
  keyText _ := "0"
  upserted rtData := rtData.document (.fin 0)
  insertFails_other _ _ h := by cases h
  upserted_tag _ := rfl

variable {ns : String} {rtData : RtDataTag} {s : State}

theorem AutoCreateTag_of_loop {srv : Server} (hlisted : s._ListCreatedTags rtData.named.Tag = none)
    (hfind : (if srv.findFails then none else
      s.realtimeData.find? (atAddress rtData.named)) = none) (fuel : ℕ) :
    AutoCreateTag srv ns fuel rtData s =
      (createLoop srv ns rtData.named s.realtimeData fuel 0 s.AutoKeyId).map fun r =>
        (r.1, {
          AutoKeyId := r.2.1
          realtimeData := r.2.2
          _ListCreatedTags := if r.1 = .failed then s._ListCreatedTags
            else s._ListCreatedTags.set rtData.named.Tag rtData.named.type }) := by
  unfold AutoCreateTag
  dsimp only
  rw [if_neg (not_not_intro hlisted), hfind]

theorem not_misread_iff {tag : String} :
    ¬ Misread ns tag ↔ Contains tag "_id:" = false ∧ Contains ns "_id:" = false := by
  unfold Misread
  rw [not_or, Bool.not_eq_true, Bool.not_eq_true]
  exact and_comm

/-- A call creates its tag, whatever the database does, exactly where the error of a tag in use
is not taken for that of a key. -/
theorem creates_iff_tells (hu : Unique s.realtimeData) :
    Creates ns rtData s ↔ Tells ns rtData s := by
  constructor
  · intro h
    by_contra hcannot
    unfold Tells at hcannot
    rw [not_or, not_not] at hcannot
    obtain ⟨hlisted, hloop⟩ := hcannot
    have hbad : ¬ FreeKey s.realtimeData ∨
        tagTaken s.realtimeData rtData.named.Tag = true ∧ Misread ns rtData.named.Tag := by
      by_contra hgood
      rw [not_or, not_not, not_and] at hgood
      exact hloop ⟨hgood.1, fun htag => not_misread_iff.mp (hgood.2 htag)⟩
    obtain ⟨fuel, hfuel⟩ := (h (plain true)).1
    rw [AutoCreateTag_of_loop hlisted rfl, createLoop_none rfl rfl hbad] at hfuel
    exact hfuel rfl
  · intro h srv
    cases hlisted : s._ListCreatedTags rtData.named.Tag with
    | some type =>
      have hcall : ∀ fuel, AutoCreateTag srv ns fuel rtData s = some (.listed, s) := by
        intro fuel
        unfold AutoCreateTag
        dsimp only
        rw [hlisted, if_pos (Option.some_ne_none type)]
      refine ⟨⟨0, by rw [hcall]; exact Option.some_ne_none _⟩, fun fuel e t het he => ?_⟩
      rw [hcall] at het
      cases het
      rcases he with he | he <;> cases he
    | none =>
      obtain ⟨⟨k, hlow, hhigh, hfree⟩, hread⟩ := h.resolve_left (not_not_intro hlisted)
      cases hfind : (if srv.findFails then none else
          s.realtimeData.find? (atAddress rtData.named)) with
      | some p =>
        have hcall : ∀ fuel, ∃ t, AutoCreateTag srv ns fuel rtData s = some (.found, t) := by
          intro fuel
          unfold AutoCreateTag
          dsimp only
          rw [if_neg (not_not_intro hlisted), hfind]
          exact ⟨_, rfl⟩
        constructor
        · obtain ⟨t, ht⟩ := hcall 0
          exact ⟨0, by rw [ht]; exact Option.some_ne_none _⟩
        · intro fuel e t het he
          obtain ⟨t', ht⟩ := hcall fuel
          rw [ht] at het
          cases het
          rcases he with he | he <;> cases he
      | none =>
        obtain ⟨d, hd⟩ := exists_wrapInt hlow hhigh s.AutoKeyId
        have hends := @createLoop_of_free srv ns rtData.named s.realtimeData 0 s.AutoKeyId
          (fun htag => not_misread_iff.mpr (hread htag)) d (by rw [hd]; exact hfree)
        constructor
        · refine ⟨d + 1, ?_⟩
          rw [AutoCreateTag_of_loop hlisted hfind, ne_eq, Option.map_eq_none_iff]
          exact hends
        · intro fuel e t het he
          rw [AutoCreateTag_of_loop hlisted hfind, Option.map_eq_some_iff] at het
          obtain ⟨⟨e', key, docs'⟩, hloop, heq⟩ := het
          cases heq
          exact created_of_loop hu hloop he

/-- A tag of connection 1 at an address. -/
def tagAt (name address : String) : RtDataTag where
  Tag := name
  ProtocolSourceConnectionNumber := .fin 1
  ProtocolSourceObjectAddress := address

/-- One tag exists. -/
def oneTag (name : String) : State where
  AutoKeyId := 1000000
  realtimeData := [(tagAt name "%MW0:WORD").document (.fin 1000001)]

theorem unique_oneTag (name : String) : Unique (oneTag name).realtimeData :=
  ⟨List.nodup_singleton _, List.nodup_singleton _⟩

theorem freeKey_oneTag (name : String) : FreeKey (oneTag name).realtimeData := by
  have hkey : keyOf 2 = .fin (2 : ℕ) := round_natCast (n := 2) (by norm_num)
  refine ⟨2, by norm_num, by norm_num, ?_⟩
  rw [hkey]
  simp [oneTag, hasKey, RtDataTag.document]

/-- A tag that exists gets a new address. -/
theorem pump_created :
    Unique (oneTag "PUMP").realtimeData ∧
      Creates "json_scada.realtimeData" (tagAt "PUMP" "%MW1:WORD") (oneTag "PUMP") :=
  ⟨unique_oneTag _, (creates_iff_tells (unique_oneTag "PUMP")).mpr
    (.inr ⟨freeKey_oneTag "PUMP", fun _ => by decide⟩)⟩

/-- A tag that looks like a key is tried with one key after the other. -/
theorem pump_id_never_ends :
    Unique (oneTag "PUMP_id:7").realtimeData ∧
      (∀ fuel, AutoCreateTag (plain false) "json_scada.realtimeData" fuel
        (tagAt "PUMP_id:7" "%MW1:WORD") (oneTag "PUMP_id:7") = none) ∧
      ¬ Creates "json_scada.realtimeData" (tagAt "PUMP_id:7" "%MW1:WORD")
        (oneTag "PUMP_id:7") := by
  have hnone : ∀ fuel, AutoCreateTag (plain false) "json_scada.realtimeData" fuel
      (tagAt "PUMP_id:7" "%MW1:WORD") (oneTag "PUMP_id:7") = none := by
    intro fuel
    rw [AutoCreateTag_of_loop rfl (by decide),
      createLoop_none rfl rfl (.inr ⟨by decide, .inr (by decide)⟩)]
    rfl
  refine ⟨unique_oneTag _, hnone, fun h => ?_⟩
  obtain ⟨fuel, hfuel⟩ := (h (plain false)).1
  exact hfuel (hnone fuel)

end Main

end JsonScada.System.TagRetry
