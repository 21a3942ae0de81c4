/- path: JsonScada/IccpServer/DataSets
   source: src/iccp/iccp-server/main.go
   digest: The data sets of the domains and the transfer sets they are attached to. -/

import Mathlib.Data.String.Basic
import JsonScada.IccpServer.Points
import JsonScada.Lib.Chunks

set_option autoImplicit false
set_option relaxedAutoImplicit false

namespace JsonScada.IccpServer.DataSets

open JsonScada.Lib.Collection JsonScada.Lib.Golang JsonScada.Lib.Chunks
open JsonScada.IccpServer.Points

/-- The keys of `domain.IndicationPoints`, a map. -/
def indicationPoints (m : DataModel) (domainName : String) : List String :=
  ((m.points.filter fun p => p.ref.domain = domainName && p.kind ≠ .control).map
    fun p => p.ref.item).dedup

/-- The keys of `domain.ControlPoints`, a map. -/
def controlPoints (m : DataModel) (domainName : String) : List String :=
  ((m.points.filter fun p => p.ref.domain = domainName && p.kind = .control).map
    fun p => p.ref.item).dedup

/-- The orders in which a start of the server ranges over the maps. An order is not specified,
and each of the two loops has its own. -/
structure Ranges (m : DataModel) where
  attachDomains : List String
  attachPoints : String → List String
  domains : List String
  points : String → List String
  attachDomains_perm : attachDomains.Perm m.domains
  attachPoints_perm : ∀ domainName, (attachPoints domainName).Perm (indicationPoints m domainName)
  domains_perm : domains.Perm m.domains
  points_perm : ∀ domainName, (points domainName).Perm (indicationPoints m domainName)

/-- A `DSTransferSet` of a domain, with the data set that was attached to it. -/
structure DSTransferSet where
  domain : String
  name : String
  dataSet : ObjectRef
  deriving DecidableEq

structure DatasetDef where
  name : String
  items : List ObjectRef
  deriving DecidableEq

/-- The name of a data set in the store of a server. -/
def keyOf (ref : ObjectRef) : String := ref.domain ++ "/" ++ ref.item

def maxDatasetItems : ℕ := 50000

section Loops

variable (datasetChunkSize : ℕ) (m : DataModel)

/-- `datasetChunkSize > 0 && len(domain.IndicationPoints) > datasetChunkSize` -/
def isChunked (domainName : String) : Bool :=
  decide (0 < datasetChunkSize) &&
    decide (datasetChunkSize < (indicationPoints m domainName).length)

def dsPrefix (domainName : String) : String := sanitizePointName domainName ++ "_DataSet"

/-- `fmt.Sprintf("%s_%04d", dsPrefix, chunkIdx)` -/
def chunkName (domainName : String) (chunkIdx : ℕ) : String :=
  dsPrefix domainName ++ "_" ++ formatD 4 chunkIdx

/-- The sorted names, cut into chunks that are counted from one. -/
def numberedChunks (pointNames : List String) : List (List String × ℕ) :=
  (chunks datasetChunkSize (sortBy id pointNames)).zipIdx 1

/-- The transfer sets of a domain, its points in the order of the range. -/
def attach (domainName : String) (pointNames : List String) : List DSTransferSet :=
  if indicationPoints m domainName = [] ∧ controlPoints m domainName = [] then []
  else if isChunked datasetChunkSize m domainName then
    (numberedChunks datasetChunkSize pointNames).map fun chunk =>
      { domain := domainName
        name := "DSTrans_" ++ formatD 4 chunk.2
        dataSet := ⟨domainName, chunkName domainName chunk.2⟩ }
  else [⟨domainName, "DSTrans", ⟨domainName, dsPrefix domainName⟩⟩]

/-- The data set of all points, cut off before it is sorted. -/
def singleItems (domainName : String) (pointNames : List String) : List ObjectRef :=
  let dsItems := pointNames.map fun name => (⟨domainName, name⟩ : ObjectRef)
  let dsItems := if maxDatasetItems < dsItems.length then dsItems.take maxDatasetItems else dsItems
  sortBy ObjectRef.item dsItems

/-- The data sets of a domain, its points in the order of the range. -/
def define (domainName : String) (pointNames : List String) : List DatasetDef :=
  if isChunked datasetChunkSize m domainName then
    (numberedChunks datasetChunkSize pointNames).map fun chunk =>
      { name := domainName ++ "/" ++ chunkName domainName chunk.2
        items := chunk.1.map fun pn => ⟨domainName, pn⟩ }
  else if 0 < (singleItems domainName pointNames).length then
    [⟨domainName ++ "/" ++ dsPrefix domainName, singleItems domainName pointNames⟩]
  else []

variable {m} (r : Ranges m)

/-- The first loop over `domainMap` -/
def transferSets : List DSTransferSet :=
  r.attachDomains.flatMap fun domainName => attach datasetChunkSize m domainName
    (r.attachPoints domainName)

/-- The second loop over `domainMap` -/
def datasetDefs : List DatasetDef :=
  r.domains.flatMap fun domainName => define datasetChunkSize m domainName (r.points domainName)

/-- The store of each connection's server, filled in `buildServer`. -/
def dataSets : Map String (List ObjectRef) :=
  Map.ofEntries ((datasetDefs datasetChunkSize r).map fun ds => (ds.name, ds.items))

end Loops

section Members

variable {datasetChunkSize : ℕ} {m m' : DataModel} {domainName : String}
  {pointNames pointNames' : List String}

theorem numberedChunks_perm (h : pointNames.Perm pointNames') :
    numberedChunks datasetChunkSize pointNames = numberedChunks datasetChunkSize pointNames' := by
  have hsort : sortBy id pointNames = sortBy id pointNames' :=
    sortBy_perm h fun _ _ _ _ heq => heq
  rw [numberedChunks, numberedChunks, hsort]

theorem isChunked_congr
    (h : (indicationPoints m domainName).length = (indicationPoints m' domainName).length) :
    isChunked datasetChunkSize m domainName = isChunked datasetChunkSize m' domainName := by
  rw [isChunked, isChunked, h]

theorem singleItems_eq (domainName : String) (pointNames : List String) :
    singleItems domainName pointNames = sortBy ObjectRef.item
      ((pointNames.take maxDatasetItems).map fun name => ⟨domainName, name⟩) := by
  rw [singleItems]
  simp only [List.length_map]
  split_ifs with h
  · rw [List.map_take]
  · rw [List.take_of_length_le (not_lt.mp h)]

theorem mem_singleItems {ref : ObjectRef} : ref ∈ singleItems domainName pointNames ↔
    ref.domain = domainName ∧ ref.item ∈ pointNames.take maxDatasetItems := by
  rw [singleItems_eq, mem_sortBy, List.mem_map]
  constructor
  · rintro ⟨name, hname, rfl⟩
    exact ⟨rfl, hname⟩
  · rintro ⟨rfl, hname⟩
    exact ⟨ref.item, hname, rfl⟩

theorem length_singleItems :
    (singleItems domainName pointNames).length = min maxDatasetItems pointNames.length := by
  rw [singleItems_eq, length_sortBy, List.length_map, List.length_take]

/-- A data set of a domain is one of the chunks, or the only one. -/
theorem mem_define {ds : DatasetDef} :
    ds ∈ define datasetChunkSize m domainName pointNames ↔
      (isChunked datasetChunkSize m domainName = true ∧
        ∃ chunk ∈ numberedChunks datasetChunkSize pointNames,
          ds = ⟨keyOf ⟨domainName, chunkName domainName chunk.2⟩,
            chunk.1.map fun pn => ⟨domainName, pn⟩⟩) ∨
      (isChunked datasetChunkSize m domainName = false ∧ pointNames ≠ [] ∧
        ds = ⟨keyOf ⟨domainName, dsPrefix domainName⟩, singleItems domainName pointNames⟩) := by
  rw [define]
  cases isChunked datasetChunkSize m domainName with
  | true =>
    rw [if_pos rfl, List.mem_map]
    constructor
    · rintro ⟨chunk, hchunk, rfl⟩
      exact .inl ⟨rfl, chunk, hchunk, rfl⟩
    · rintro (⟨-, chunk, hchunk, rfl⟩ | ⟨h, -⟩)
      · exact ⟨chunk, hchunk, rfl⟩
      · cases h
  | false =>
    have hlength : 0 < (singleItems domainName pointNames).length ↔ pointNames ≠ [] := by
      rw [length_singleItems, ← List.length_pos_iff]
      unfold maxDatasetItems
      omega
    rw [if_neg Bool.false_ne_true]
    by_cases h : pointNames ≠ []
    · rw [if_pos (hlength.mpr h), List.mem_singleton]
      constructor
      · rintro rfl
        exact .inr ⟨rfl, h, rfl⟩
      · rintro (⟨hchunked, -⟩ | ⟨-, -, rfl⟩)
        · cases hchunked
        · rfl
    · rw [if_neg fun hpos => h (hlength.mp hpos)]
      refine iff_of_false List.not_mem_nil ?_
      rintro (⟨hchunked, -⟩ | ⟨-, hne, -⟩)
      · cases hchunked
      · exact h hne

end Members

end JsonScada.IccpServer.DataSets
