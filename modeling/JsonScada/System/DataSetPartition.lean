/- path: JsonScada/System/DataSetPartition
   source: src/iccp/iccp-server/main.go
   digest: When the data sets of the ICCP server hold its points, each in one place. -/

import JsonScada.IccpServer.DataSets
import JsonScada.System.PointNaming

set_option autoImplicit false
set_option relaxedAutoImplicit false

namespace JsonScada.System.DataSetPartition

open JsonScada.Lib.Collection JsonScada.Lib.Golang JsonScada.Lib.Chunks
open JsonScada.Lib.Separated (append_cons_inj)
open JsonScada.Model.Documents (Date)
open JsonScada.IccpServer.Points JsonScada.IccpServer.DataSets
open JsonScada.System.PointNaming (slash_notMem noTexts openConnection breaker)

/-- The domains and the names of their points are the same. -/
structure SamePoints (m m' : DataModel) : Prop where
  domains : m.domains.Perm m'.domains
  indication : ∀ domainName, (indicationPoints m domainName).Perm (indicationPoints m' domainName)
  control : ∀ domainName, (controlPoints m domainName).Perm (controlPoints m' domainName)

/-- The data sets, whatever the orders of a start are. -/
structure Partitioned (datasetChunkSize : ℕ) (m : DataModel) : Prop where
  attached : ∀ r : Ranges m, ∀ dsts ∈ transferSets datasetChunkSize r,
    ∃ items, dataSets datasetChunkSize r (keyOf dsts.dataSet) = some items
  exactlyOne : ∀ r : Ranges m, ∀ domainName ∈ m.domains,
    (indicationPoints m domainName).length ≤ 50000 → ∀ name ∈ indicationPoints m domainName,
      ∃ dsName items, dataSets datasetChunkSize r (keyOf ⟨domainName, dsName⟩) = some items ∧
        ⟨domainName, name⟩ ∈ items ∧
          ∀ key items', dataSets datasetChunkSize r key = some items' →
            ⟨domainName, name⟩ ∈ items' → key = keyOf ⟨domainName, dsName⟩
  bounded : 0 < datasetChunkSize → ∀ r : Ranges m, ∀ key items,
    dataSets datasetChunkSize r key = some items → items.length ≤ datasetChunkSize
  stable : ∀ m', SamePoints m m' → ∀ (r : Ranges m) (r' : Ranges m'),
    dataSets datasetChunkSize r = dataSets datasetChunkSize r'

/-- A domain with control points has indication points too, and a data set that is not cut into
chunks is not cut off. -/
def Covered (datasetChunkSize : ℕ) (m : DataModel) : Prop :=
  ∀ domainName ∈ m.domains,
    (indicationPoints m domainName = [] → controlPoints m domainName = []) ∧
      ((indicationPoints m domainName).length ≤ 50000 ∨
        isChunked datasetChunkSize m domainName = true)

section Names

theorem slash_notMem_dsPrefix (domainName : String) : '/' ∉ (dsPrefix domainName).toList := by
  have hsuffix : '/' ∉ "_DataSet".toList := by decide
  rw [dsPrefix, String.toList_append, List.mem_append, not_or]
  exact ⟨slash_notMem domainName, hsuffix⟩

theorem slash_notMem_chunkName (domainName : String) (chunkIdx : ℕ) :
    '/' ∉ (chunkName domainName chunkIdx).toList := by
  have hline : '/' ∉ "_".toList := by decide
  have hdigits : '/' ∉ (formatD 4 chunkIdx).toList := by
    rw [formatD, String.toList_ofList, List.mem_append, not_or]
    constructor
    · intro h
      exact absurd (List.eq_of_mem_replicate h) (by decide)
    · intro h
      exact absurd (Nat.isDigit_of_mem_toDigits (by decide) (by decide) h) (by decide)
  rw [chunkName, String.toList_append, String.toList_append, List.mem_append, List.mem_append,
    not_or, not_or]
  exact ⟨⟨slash_notMem_dsPrefix domainName, hline⟩, hdigits⟩

theorem keyOf_inj {a b : ObjectRef} (ha : '/' ∉ a.item.toList) (hb : '/' ∉ b.item.toList)
    (h : keyOf a = keyOf b) : a = b := by
  have hlist := congrArg String.toList h
  rw [keyOf, keyOf] at hlist
  simp only [String.toList_append] at hlist
  have hslash : "/".toList = ['/'] := rfl
  rw [hslash, List.append_assoc, List.append_assoc, List.singleton_append,
    List.singleton_append] at hlist
  obtain ⟨hdomain, hitem⟩ := append_cons_inj ha hb hlist
  obtain ⟨domain, item⟩ := a
  obtain rfl : domain = b.domain := String.toList_inj.mp hdomain
  obtain rfl : item = b.item := String.toList_inj.mp hitem
  rfl

theorem chunkName_inj {domainName : String} {i j : ℕ}
    (h : chunkName domainName i = chunkName domainName j) : i = j := by
  rw [chunkName, chunkName, String.append_right_inj] at h
  exact formatD_inj h

end Names

section Stores

variable {datasetChunkSize : ℕ} {m : DataModel} {domainName : String}
  {pointNames : List String} {r : Ranges m} {ds : DatasetDef}

/-- The name of a data set is the scoped name of a name without a separator. -/
theorem name_of_define (h : ds ∈ define datasetChunkSize m domainName pointNames) :
    ∃ dsName : String, '/' ∉ dsName.toList ∧ ds.name = keyOf ⟨domainName, dsName⟩ := by
  rcases mem_define.mp h with ⟨-, chunk, -, rfl⟩ | ⟨-, -, rfl⟩
  · exact ⟨_, slash_notMem_chunkName domainName chunk.2, rfl⟩
  · exact ⟨_, slash_notMem_dsPrefix domainName, rfl⟩

/-- Every member is of the domain. -/
theorem domain_of_define (h : ds ∈ define datasetChunkSize m domainName pointNames)
    {ref : ObjectRef} (href : ref ∈ ds.items) : ref.domain = domainName := by
  rcases mem_define.mp h with ⟨-, chunk, -, rfl⟩ | ⟨-, -, rfl⟩
  · obtain ⟨name, -, rfl⟩ := List.mem_map.mp href
    rfl
  · exact (mem_singleItems.mp href).1

/-- A chunk is found by its number. -/
theorem numberedChunks_unique {chunk chunk' : List String × ℕ}
    (h : chunk ∈ numberedChunks datasetChunkSize pointNames)
    (h' : chunk' ∈ numberedChunks datasetChunkSize pointNames) (heq : chunk.2 = chunk'.2) :
    chunk = chunk' := by
  obtain ⟨-, hget⟩ := List.mk_mem_zipIdx_iff_le_and_getElem?_sub.mp h
  obtain ⟨-, hget'⟩ := List.mk_mem_zipIdx_iff_le_and_getElem?_sub.mp h'
  rw [← heq, hget] at hget'
  exact Prod.ext (Option.some.inj hget') heq

/-- The name of a data set tells it from the others. -/
theorem datasetDefs_unique {ds ds' : DatasetDef} (h : ds ∈ datasetDefs datasetChunkSize r)
    (h' : ds' ∈ datasetDefs datasetChunkSize r) (heq : ds.name = ds'.name) : ds = ds' := by
  obtain ⟨domainName, hdomain, h⟩ := List.mem_flatMap.mp h
  obtain ⟨domainName', -, h'⟩ := List.mem_flatMap.mp h'
  obtain ⟨dsName, hslash, hname⟩ := name_of_define h
  obtain ⟨dsName', hslash', hname'⟩ := name_of_define h'
  have hkey := keyOf_inj hslash hslash' (hname.symm.trans (heq.trans hname'))
  obtain ⟨rfl, -⟩ := ObjectRef.mk.inj hkey
  rcases mem_define.mp h with ⟨hchunked, chunk, hchunk, rfl⟩ | ⟨hsingle, -, rfl⟩
  · rcases mem_define.mp h' with ⟨-, chunk', hchunk', rfl⟩ | ⟨hsingle, -⟩
    · have hkey : keyOf ⟨domainName, chunkName domainName chunk.2⟩ =
          keyOf ⟨domainName, chunkName domainName chunk'.2⟩ := heq
      have hslash := slash_notMem_chunkName domainName
      obtain ⟨-, hitem⟩ := ObjectRef.mk.inj (keyOf_inj (hslash chunk.2) (hslash chunk'.2) hkey)
      rw [numberedChunks_unique hchunk hchunk' (chunkName_inj hitem)]
    · rw [hchunked] at hsingle
      cases hsingle
  · rcases mem_define.mp h' with ⟨hchunked, -⟩ | ⟨-, -, rfl⟩
    · rw [hchunked] at hsingle
      cases hsingle
    · rfl

theorem dataSets_eq_some_iff {key : String} {items : List ObjectRef} :
    dataSets datasetChunkSize r key = some items ↔
      ⟨key, items⟩ ∈ datasetDefs datasetChunkSize r := by
  rw [dataSets, Map.ofEntries_eq_some_iff]
  · rw [List.mem_map]
    constructor
    · rintro ⟨ds, hds, heq⟩
      obtain ⟨rfl, rfl⟩ := Prod.mk.inj heq
      exact hds
    · intro h
      exact ⟨_, h, rfl⟩
  · intro e he f hf heq
    obtain ⟨ds, hds, rfl⟩ := List.mem_map.mp he
    obtain ⟨ds', hds', rfl⟩ := List.mem_map.mp hf
    rw [datasetDefs_unique hds hds' heq]

/-- A data set with a point of a domain is one of the domain's. -/
theorem define_of_mem {key name : String} {items : List ObjectRef}
    (h : dataSets datasetChunkSize r key = some items) (hmem : ⟨domainName, name⟩ ∈ items) :
    ⟨key, items⟩ ∈ define datasetChunkSize m domainName (r.points domainName) := by
  obtain ⟨domainName', -, hds⟩ := List.mem_flatMap.mp (dataSets_eq_some_iff.mp h)
  obtain rfl : domainName = domainName' := domain_of_define hds hmem
  exact hds

theorem dataSets_of_define (hdomain : domainName ∈ m.domains)
    (h : ds ∈ define datasetChunkSize m domainName (r.points domainName)) :
    dataSets datasetChunkSize r ds.name = some ds.items :=
  dataSets_eq_some_iff.mpr
    (List.mem_flatMap.mpr ⟨domainName, r.domains_perm.mem_iff.mpr hdomain, h⟩)

theorem pos_of_isChunked (h : isChunked datasetChunkSize m domainName = true) :
    0 < datasetChunkSize := by
  rw [isChunked, Bool.and_eq_true] at h
  exact of_decide_eq_true h.1

/-- A name stands in one of the chunks only. -/
theorem chunk_unique (hsize : 0 < datasetChunkSize) (hnames : pointNames.Nodup)
    {chunk chunk' : List String × ℕ} {name : String}
    (h : chunk ∈ numberedChunks datasetChunkSize pointNames)
    (h' : chunk' ∈ numberedChunks datasetChunkSize pointNames) (hname : name ∈ chunk.1)
    (hname' : name ∈ chunk'.1) : chunk = chunk' := by
  have hsorted : (sortBy id pointNames).Nodup :=
    (List.perm_insertionSort _ pointNames).nodup_iff.mpr hnames
  rw [← flatten_chunks hsize (sortBy id pointNames)] at hsorted
  obtain ⟨hone, hget⟩ := List.mk_mem_zipIdx_iff_le_and_getElem?_sub.mp h
  obtain ⟨hone', hget'⟩ := List.mk_mem_zipIdx_iff_le_and_getElem?_sub.mp h'
  have hindex := index_unique hsorted hget hget' hname hname'
  exact numberedChunks_unique h h' (by omega)

/-- Each point has its place, if it is not cut off. -/
theorem exists_unique_dataSet (hdomain : domainName ∈ m.domains)
    (hlength : (indicationPoints m domainName).length ≤ maxDatasetItems) {name : String}
    (hname : name ∈ indicationPoints m domainName) :
    ∃ dsName items, dataSets datasetChunkSize r (keyOf ⟨domainName, dsName⟩) = some items ∧
      ⟨domainName, name⟩ ∈ items ∧
        ∀ key items', dataSets datasetChunkSize r key = some items' →
          ⟨domainName, name⟩ ∈ items' → key = keyOf ⟨domainName, dsName⟩ := by
  have hperm := r.points_perm domainName
  have hin : name ∈ r.points domainName := hperm.mem_iff.mpr hname
  have hnodup : (r.points domainName).Nodup := hperm.nodup_iff.mpr (List.nodup_dedup _)
  cases hchunked : isChunked datasetChunkSize m domainName with
  | true =>
    have hsize := pos_of_isChunked hchunked
    have hsorted : name ∈ sortBy id (r.points domainName) := mem_sortBy.mpr hin
    obtain ⟨i, c, hget, hc⟩ := exists_chunk hsize hsorted
    have hchunk : (c, i + 1) ∈ numberedChunks datasetChunkSize (r.points domainName) :=
      List.mk_mem_zipIdx_iff_le_and_getElem?_sub.mpr ⟨by omega, hget⟩
    have hds := mem_define.mpr (.inl ⟨hchunked, _, hchunk, rfl⟩)
    refine ⟨_, _, dataSets_of_define hdomain hds, List.mem_map_of_mem hc, ?_⟩
    intro key items' hkey hmem
    rcases mem_define.mp (define_of_mem hkey hmem) with ⟨-, chunk, hchunk', heq⟩ | ⟨hsingle, -⟩
    · obtain ⟨rfl, rfl⟩ := DatasetDef.mk.inj heq
      obtain ⟨name', hname', hitem⟩ := List.mem_map.mp hmem
      obtain rfl : name' = name := (ObjectRef.mk.inj hitem).2
      rw [chunk_unique hsize hnodup hchunk' hchunk hname' hc]
    · rw [hchunked] at hsingle
      cases hsingle
  | false =>
    have hne : r.points domainName ≠ [] := List.ne_nil_of_mem hin
    have hds := mem_define.mpr (.inr ⟨hchunked, hne, rfl⟩)
    refine ⟨_, _, dataSets_of_define hdomain hds, mem_singleItems.mpr ⟨rfl, ?_⟩, ?_⟩
    · rw [List.take_of_length_le (hperm.length_eq.trans_le hlength)]
      exact hin
    · intro key items' hkey hmem
      rcases mem_define.mp (define_of_mem hkey hmem) with ⟨h, -⟩ | ⟨-, -, heq⟩
      · rw [hchunked] at h
        cases h
      · exact (DatasetDef.mk.inj heq).1

theorem length_le_of_dataSets (hsize : 0 < datasetChunkSize) {key : String}
    {items : List ObjectRef} (h : dataSets datasetChunkSize r key = some items) :
    items.length ≤ datasetChunkSize := by
  obtain ⟨domainName, -, hds⟩ := List.mem_flatMap.mp (dataSets_eq_some_iff.mp h)
  rcases mem_define.mp hds with ⟨-, chunk, hchunk, heq⟩ | ⟨hsingle, -, heq⟩
  · obtain ⟨rfl, rfl⟩ := DatasetDef.mk.inj heq
    obtain ⟨-, hget⟩ := List.mk_mem_zipIdx_iff_le_and_getElem?_sub.mp hchunk
    rw [List.length_map]
    exact length_of_mem_chunks (List.mem_of_getElem? hget)
  · obtain ⟨rfl, rfl⟩ := DatasetDef.mk.inj heq
    rw [isChunked, decide_eq_true hsize, Bool.true_and, decide_eq_false_iff_not, not_lt] at hsingle
    rw [length_singleItems, (r.points_perm domainName).length_eq]
    exact (min_le_right _ _).trans hsingle

end Stores

section Conditions

variable {datasetChunkSize : ℕ} {m m' : DataModel} {domainName : String}

theorem SamePoints.refl (m : DataModel) : SamePoints m m := ⟨.rfl, fun _ => .rfl, fun _ => .rfl⟩

/-- Without cutting off, the data sets of a domain do not depend on the order of its points. -/
theorem define_congr {pointNames pointNames' : List String} (hsame : SamePoints m m')
    (hnames : pointNames.Perm (indicationPoints m domainName))
    (hnames' : pointNames'.Perm (indicationPoints m' domainName))
    (h : (indicationPoints m domainName).length ≤ maxDatasetItems ∨
      isChunked datasetChunkSize m domainName = true) :
    define datasetChunkSize m domainName pointNames =
      define datasetChunkSize m' domainName pointNames' := by
  have hperm : pointNames.Perm pointNames' :=
    hnames.trans ((hsame.indication domainName).trans hnames'.symm)
  rw [define, define, ← isChunked_congr (hsame.indication domainName).length_eq,
    numberedChunks_perm hperm]
  cases hchunked : isChunked datasetChunkSize m domainName with
  | true => rfl
  | false =>
    have hshort : (indicationPoints m domainName).length ≤ maxDatasetItems := by
      rw [hchunked] at h
      exact h.resolve_right Bool.false_ne_true
    have hitems : singleItems domainName pointNames = singleItems domainName pointNames' := by
      rw [singleItems_eq, singleItems_eq,
        List.take_of_length_le (hnames.length_eq.trans_le hshort),
        List.take_of_length_le ((hperm.symm.trans hnames).length_eq.trans_le hshort)]
      refine sortBy_perm (hperm.map _) fun a ha b hb heq => ?_
      obtain ⟨name, -, rfl⟩ := List.mem_map.mp ha
      obtain ⟨name', -, rfl⟩ := List.mem_map.mp hb
      exact congrArg _ heq
    rw [hitems]

theorem stable_of_covered (h : Covered datasetChunkSize m) (hsame : SamePoints m m')
    (r : Ranges m) (r' : Ranges m') :
    dataSets datasetChunkSize r = dataSets datasetChunkSize r' := by
  funext key
  apply Option.ext
  intro items
  rw [dataSets_eq_some_iff, dataSets_eq_some_iff, datasetDefs, datasetDefs, List.mem_flatMap,
    List.mem_flatMap]
  have hdomains : ∀ domainName, domainName ∈ r'.domains ↔ domainName ∈ r.domains := by
    intro domainName
    rw [r.domains_perm.mem_iff, r'.domains_perm.mem_iff, hsame.domains.mem_iff]
  apply exists_congr
  intro domainName
  rw [hdomains domainName]
  apply and_congr_right
  intro hdomain
  have hcovered := (h domainName (r.domains_perm.mem_iff.mp hdomain)).2
  rw [define_congr hsame (r.points_perm domainName) (r'.points_perm domainName) hcovered]

theorem attached_of_covered (h : Covered datasetChunkSize m) (r : Ranges m)
    {dsts : DSTransferSet} (hdsts : dsts ∈ transferSets datasetChunkSize r) :
    ∃ items, dataSets datasetChunkSize r (keyOf dsts.dataSet) = some items := by
  obtain ⟨domainName, hrange, hattach⟩ := List.mem_flatMap.mp hdsts
  have hdomain := r.attachDomains_perm.mem_iff.mp hrange
  have hperm : (r.attachPoints domainName).Perm (r.points domainName) :=
    (r.attachPoints_perm domainName).trans (r.points_perm domainName).symm
  rw [attach] at hattach
  split_ifs at hattach with hempty hchunked
  · cases hattach
  · obtain ⟨chunk, hchunk, rfl⟩ := List.mem_map.mp hattach
    rw [numberedChunks_perm hperm] at hchunk
    exact ⟨_, dataSets_of_define hdomain (mem_define.mpr (.inl ⟨hchunked, chunk, hchunk, rfl⟩))⟩
  · obtain rfl := List.mem_singleton.mp hattach
    have hne : r.points domainName ≠ [] := by
      intro hnil
      have hnone : indicationPoints m domainName = [] := by
        have hpoints := r.points_perm domainName
        rw [hnil] at hpoints
        exact hpoints.nil_eq.symm
      exact hempty ⟨hnone, (h domainName hdomain).1 hnone⟩
    exact ⟨_, dataSets_of_define hdomain
      (mem_define.mpr (.inr ⟨Bool.eq_false_iff.mpr hchunked, hne, rfl⟩))⟩

/-- The orders of a start that ranges over the points in some order of their own. -/
def rangesOf (m : DataModel) (points : String → List String)
    (h : ∀ domainName, (points domainName).Perm (indicationPoints m domainName)) : Ranges m where
  attachDomains := m.domains
  attachPoints := points
  domains := m.domains
  points := points
  attachDomains_perm := .rfl
  attachPoints_perm := h
  domains_perm := .rfl
  points_perm := h

/-- A domain of control points only has a transfer set without a data set. -/
theorem control_eq_nil (h : Partitioned datasetChunkSize m) (hdomain : domainName ∈ m.domains)
    (hnone : indicationPoints m domainName = []) : controlPoints m domainName = [] := by
  by_contra hcontrol
  let r := rangesOf m (indicationPoints m) fun _ => .rfl
  have hsingle : isChunked datasetChunkSize m domainName = false := by
    rw [isChunked, hnone, List.length_nil, decide_eq_false (Nat.not_lt_zero _), Bool.and_false]
  have hattach : attach datasetChunkSize m domainName (indicationPoints m domainName) =
      [⟨domainName, "DSTrans", ⟨domainName, dsPrefix domainName⟩⟩] := by
    rw [attach, if_neg fun hboth => hcontrol hboth.2, hsingle, if_neg Bool.false_ne_true]
  have hmem : ⟨domainName, "DSTrans", ⟨domainName, dsPrefix domainName⟩⟩ ∈
      transferSets datasetChunkSize r := by
    refine List.mem_flatMap.mpr ⟨domainName, hdomain, ?_⟩
    exact hattach ▸ List.mem_singleton_self _
  obtain ⟨items, hitems⟩ := h.attached r _ hmem
  obtain ⟨domainName', -, hds⟩ := List.mem_flatMap.mp (dataSets_eq_some_iff.mp hitems)
  obtain ⟨dsName, hslash, hname⟩ := name_of_define hds
  obtain ⟨rfl, -⟩ := ObjectRef.mk.inj (keyOf_inj (slash_notMem_dsPrefix domainName) hslash hname)
  rcases mem_define.mp hds with ⟨hchunked, -⟩ | ⟨-, hne, -⟩
  · rw [hsingle] at hchunked
    cases hchunked
  · exact hne hnone

/-- What is cut off depends on the order of the range. -/
theorem length_le_of_stable (h : Partitioned datasetChunkSize m) (hdomain : domainName ∈ m.domains)
    (hsingle : isChunked datasetChunkSize m domainName = false) :
    (indicationPoints m domainName).length ≤ maxDatasetItems := by
  by_contra hlong
  rw [not_le] at hlong
  let r := rangesOf m (indicationPoints m) fun _ => .rfl
  let r' := rangesOf m (fun domainName => (indicationPoints m domainName).reverse)
    fun domainName => List.reverse_perm _
  have hne : indicationPoints m domainName ≠ [] :=
    List.ne_nil_of_length_pos (Nat.zero_lt_of_lt hlong)
  have hitems := dataSets_of_define (r := r) hdomain (mem_define.mpr (.inr ⟨hsingle, hne, rfl⟩))
  have hitems' := dataSets_of_define (r := r') hdomain (mem_define.mpr
    (.inr ⟨hsingle, fun hnil => hne (List.reverse_eq_nil_iff.mp hnil), rfl⟩))
  rw [h.stable m (.refl m) r r'] at hitems
  have heq : singleItems domainName (indicationPoints m domainName) =
      singleItems domainName (indicationPoints m domainName).reverse :=
    Option.some.inj (hitems.symm.trans hitems')
  -- the last name of the one order is the first of the other
  obtain ⟨names, name, hnames⟩ : ∃ names name, indicationPoints m domainName = names ++ [name] :=
    ⟨_, _, (List.dropLast_append_getLast hne).symm⟩
  have hnodup : (names ++ [name]).Nodup := hnames ▸ List.nodup_dedup _
  have hfirst : ⟨domainName, name⟩ ∈ singleItems domainName (names ++ [name]).reverse := by
    rw [mem_singleItems, List.reverse_append]
    exact ⟨rfl, List.mem_cons_self⟩
  rw [← hnames, ← heq, hnames, mem_singleItems] at hfirst
  rw [hnames, List.length_append, List.length_singleton] at hlong
  have hcut : (names ++ [name]).take maxDatasetItems = names.take maxDatasetItems :=
    List.take_append_of_le_length (by omega)
  rw [hcut] at hfirst
  rw [List.nodup_append] at hnodup
  exact hnodup.2.2 name (List.mem_of_mem_take hfirst.2) name (List.mem_singleton_self _) rfl

end Conditions

section Partition

theorem partitioned_iff (datasetChunkSize : ℕ) (host : Host) (now : Date)
    (connections : List ProtocolConnection) (allTags : List RtData) :
    Partitioned datasetChunkSize (build host now connections allTags) ↔
      Covered datasetChunkSize (build host now connections allTags) := by
  constructor
  · intro h domainName hdomain
    refine ⟨control_eq_nil h hdomain, ?_⟩
    cases hchunked : isChunked datasetChunkSize (build host now connections allTags) domainName with
    | true => exact .inr rfl
    | false => exact .inl (length_le_of_stable h hdomain hchunked)
  · intro h
    constructor
    case attached => exact fun r dsts => attached_of_covered h r
    case exactlyOne =>
      intro r domainName hdomain hlength name hname
      exact exists_unique_dataSet hdomain hlength hname
    case bounded => exact fun hsize r key items => length_le_of_dataSets hsize
    case stable => exact fun m' hsame => stable_of_covered h hsame

/-- A substation with a command only. -/
theorem command_not_partitioned :
    ¬ Partitioned 0 (build noTexts 0 [openConnection] [breaker 1 "BRK-A"]) := by
  intro h
  let m := build noTexts 0 [openConnection] [breaker 1 "BRK-A"]
  have hdomain : "S1" ∈ m.domains := by decide +kernel
  have hnone : indicationPoints m "S1" = [] := by decide +kernel
  have hcommand : controlPoints m "S1" = ["BRK_A"] := by decide +kernel
  rw [control_eq_nil h hdomain hnone] at hcommand
  cases hcommand

end Partition

end JsonScada.System.DataSetPartition
