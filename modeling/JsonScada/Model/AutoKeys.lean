/- path: JsonScada/Model/AutoKeys
   source: GetNextAutoKey of src/lib60870.netcore/iec104client, getNextAutoKey of
   src/dnp3/Dnp3ClientCpp, GetAutoKeyInitialValue of src/mqtt-sparkplug
   digest: Keys of the partition of a connection, and inserts under the unique indexes. -/

import JsonScada.Lib.Collection
import JsonScada.Model.Documents

set_option autoImplicit false
set_option relaxedAutoImplicit false

namespace JsonScada.Model.AutoKeys

open JsonScada.Lib.Binary64 JsonScada.Lib.EcmaScript JsonScada.Model.Documents

def AutoKeyMultiplier : ℤ := 1000000

/-- The first key of the partition of a connection. -/
def baseKey (protocolConnectionNumber : ℤ) : Number :=
  .fin ((protocolConnectionNumber * AutoKeyMultiplier : ℤ) : ℚ)

/-- The first key behind the partition. -/
def topKey (protocolConnectionNumber : ℤ) : Number := baseKey (protocolConnectionNumber + 1)

def InPartition (protocolConnectionNumber : ℤ) (key : Number) : Prop :=
  (baseKey protocolConnectionNumber).le key = true ∧
    key.lt (topKey protocolConnectionNumber) = true

instance (n : ℤ) (key : Number) : Decidable (InPartition n key) := by
  unfold InPartition; infer_instance

/-- The larger of two keys. -/
def larger (best : Option Number) (key : Number) : Option Number :=
  match best with
  | none => some key
  | some b => if b.lt key then some key else some b

/-- The biggest key of the partition, its base key not counted. -/
def biggestKey (protocolConnectionNumber : ℤ) (realtimeData : List Point) : Option Number :=
  ((realtimeData.map (·._id)).filter fun key =>
    (baseKey protocolConnectionNumber).lt key &&
      key.lt (topKey protocolConnectionNumber)).foldl larger none

/-- The key after the last one given out; zero stands for none given out yet. -/
def nextAutoKey (protocolConnectionNumber : ℤ) (lastKey : Number) (realtimeData : List Point) :
    Number :=
  if lastKey.eqv (.fin 0) then
    match biggestKey protocolConnectionNumber realtimeData with
    | some key => key.add (.fin 1)
    | none => baseKey protocolConnectionNumber
  else lastKey.add (.fin 1)

/-- The key is in use. -/
def hasKey (key : Number) (p : Point) : Bool := p._id = key

/-- No document has the key or the tag of the new one, so the unique indexes take it. -/
def accepts (realtimeData : List Point) (p : Point) : Bool :=
  !realtimeData.any fun q => hasKey p._id q || q.tag = p.tag

theorem hasKey_of_accepts {realtimeData : List Point} {p : Point}
    (h : accepts realtimeData p = true) : realtimeData.filter (hasKey p._id) = [] := by
  rw [List.filter_eq_nil_iff]
  intro q hq hkey
  have hany : realtimeData.any (fun q => hasKey p._id q || q.tag = p.tag) = true :=
    List.any_eq_true.mpr ⟨q, hq, by rw [hkey]; rfl⟩
  unfold accepts at h
  rw [hany] at h
  cases h

/-- A document taken by the indexes is the only one of its key, and the others stay the
only ones of theirs. -/
theorem filter_hasKey_append {realtimeData : List Point} {p : Point} {key : Number}
    (hp : accepts realtimeData p = true)
    (h : key = p._id ∨ (realtimeData.filter (hasKey key)).length = 1) :
    ((realtimeData ++ [p]).filter (hasKey key)).length = 1 := by
  have hnone := hasKey_of_accepts hp
  rw [List.filter_append, List.length_append]
  by_cases hkey : key = p._id
  · subst hkey
    rw [hnone]
    simp [hasKey]
  · have hone := h.resolve_left hkey
    have hp' : hasKey key p = false := decide_eq_false fun heq => hkey heq.symm
    rw [hone]
    simp [hp']

/-- The created documents are the only ones of their keys. -/
def Keyed (created realtimeData : List Point) : Prop :=
  ∀ p ∈ created, (realtimeData.filter (hasKey p._id)).length = 1

theorem keyed_nil (realtimeData : List Point) : Keyed [] realtimeData := by
  intro p hp
  cases hp

theorem Keyed.other {created realtimeData : List Point} {p : Point}
    (h : Keyed created realtimeData) (hp : accepts realtimeData p = true) :
    Keyed created (realtimeData ++ [p]) :=
  fun q hq => filter_hasKey_append hp (.inr (h q hq))

theorem Keyed.insert {created realtimeData : List Point} {p : Point}
    (h : Keyed created realtimeData) (hp : accepts realtimeData p = true) :
    Keyed (created ++ [p]) (realtimeData ++ [p]) := by
  intro q hq
  rcases List.mem_append.mp hq with hq | hq
  · exact h.other hp q hq
  · obtain rfl := List.mem_singleton.mp hq
    exact filter_hasKey_append hp (.inl rfl)

end JsonScada.Model.AutoKeys
