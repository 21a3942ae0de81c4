/- path: JsonScada/Replication/Packets
   source: src/mongofw/customized_module.js, dequeueChangesSend
   digest: Which changes of the queue go into a packet, their numbers and their size. -/

import JsonScada.Lib.Chunks
import JsonScada.Replication.Forward

set_option autoImplicit false
set_option relaxedAutoImplicit false

namespace JsonScada.Replication.Packets

open JsonScada.Lib.Batch JsonScada.Lib.JsObject JsonScada.Replication.Forward

/-- The objects sent for some changes, the large ones left out, with the numbers after `cntChg`. -/
def accepted : ℕ → List Value → List Value
  | _, [] => []
  | cntChg, change :: rest =>
    let obj := wireObject (cntChg + 1) change
    if jsonLength obj > maxLengthJson then accepted cntChg rest
    else obj :: accepted (cntChg + 1) rest

/-- The size of some objects as it is accounted. -/
def load (objs : List Value) : ℕ := (objs.map jsonLength).sum

section Batch

variable {change : Value} {rest : List Value} {cntChg strSz : ℕ}

theorem accepted_large (h : jsonLength (wireObject (cntChg + 1) change) > maxLengthJson) :
    accepted cntChg (change :: rest) = accepted cntChg rest := by
  rw [accepted, if_pos h]

theorem accepted_small (h : ¬ jsonLength (wireObject (cntChg + 1) change) > maxLengthJson) :
    accepted cntChg (change :: rest) =
      wireObject (cntChg + 1) change :: accepted (cntChg + 1) rest := by
  rw [accepted, if_neg h]

theorem load_accepted_small (h : ¬ jsonLength (wireObject (cntChg + 1) change) > maxLengthJson) :
    load (accepted cntChg (change :: rest)) =
      jsonLength (wireObject (cntChg + 1) change) + load (accepted (cntChg + 1) rest) := by
  rw [accepted_small h, load, List.map_cons, List.sum_cons, load]

/-- The changes `batch` of a queue are those of the packet. -/
structure Fills (queue : List Value) (cntChg strSz : ℕ) (batch : List Value) (packet : Packet) :
    Prop where
  isBatch : IsBatch (fun part => strSz + load (accepted cntChg part)) packetSizeThreshold queue batch
  rest : queue = batch ++ packet.rest
  fwArr : packet.fwArr = accepted cntChg batch
  cntChg : packet.cntChg = cntChg + packet.fwArr.length

/-- A packet takes a batch of the queue. -/
theorem fillPacket_fills (queue : List Value) (cntChg strSz : ℕ)
    (hsize : strSz ≤ packetSizeThreshold) :
    ∃ batch, Fills queue cntChg strSz batch (fillPacket queue cntChg strSz) := by
  induction queue generalizing cntChg strSz with
  | nil =>
    refine ⟨[], ⟨List.prefix_rfl, Or.inl rfl, fun part hpart hne => ?_⟩, rfl, rfl, rfl⟩
    exact absurd (List.prefix_nil.mp hpart) hne
  | cons change rest ih =>
    rw [fillPacket]
    dsimp only
    have hnil : strSz + load (accepted cntChg []) ≤ packetSizeThreshold := hsize
    by_cases hlarge : jsonLength (wireObject (cntChg + 1) change) > maxLengthJson
    · obtain ⟨batch, hbatch, hrest, hfw, hcnt⟩ := ih cntChg strSz hsize
      rw [if_pos hlarge]
      refine ⟨change :: batch, IsBatch.cons hnil ?_, congrArg (change :: ·) hrest, ?_, hcnt⟩
      · simp only [accepted_large hlarge]
        exact hbatch
      · rw [accepted_large hlarge, hfw]
    · rw [if_neg hlarge]
      by_cases hfull : strSz + jsonLength (wireObject (cntChg + 1) change) > packetSizeThreshold
      · rw [if_pos hfull]
        have hone : accepted cntChg [change] = [wireObject (cntChg + 1) change] :=
          accepted_small hlarge
        refine ⟨[change], IsBatch.singleton hnil ?_, rfl, hone.symm, rfl⟩
        rw [hone, load, List.map_singleton, List.sum_singleton]
        exact hfull
      · obtain ⟨batch, hbatch, hrest, hfw, hcnt⟩ := ih (cntChg + 1)
          (strSz + jsonLength (wireObject (cntChg + 1) change)) (Nat.le_of_not_lt hfull)
        rw [if_neg hfull]
        refine ⟨change :: batch, IsBatch.cons hnil ?_, congrArg (change :: ·) hrest, ?_, ?_⟩
        · simp only [load_accepted_small hlarge, ← Nat.add_assoc]
          exact hbatch
        · rw [accepted_small hlarge, ← hfw]
        · dsimp only [List.length_cons]
          omega

end Batch

section Bytes

/-- The bytes of `JSON.stringify(v)` in UTF-8. -/
def utf8Length (v : Value) : ℕ := (String.ofList v.stringify).utf8ByteSize

theorem utf8ByteSize_ofList_append (as bs : List Char) :
    (String.ofList (as ++ bs)).utf8ByteSize =
      (String.ofList as).utf8ByteSize + (String.ofList bs).utf8ByteSize := by
  rw [String.ofList_append, String.utf8ByteSize_append]

theorem utf8ByteSize_ofList_cons (c : Char) (cs : List Char) :
    (String.ofList (c :: cs)).utf8ByteSize = c.utf8Size + (String.ofList cs).utf8ByteSize := by
  rw [← List.singleton_append, utf8ByteSize_ofList_append, ← String.singleton_eq_ofList,
    String.utf8ByteSize_singleton]

/-- Each object of a packet is followed by a comma or the closing bracket. -/
theorem stringifyAll_size (v : Value) (vs : List Value) :
    (String.ofList (Value.stringifyAll (v :: vs))).utf8ByteSize =
      ((v :: vs).map fun w => utf8Length w + 1).sum := by
  induction vs generalizing v with
  | nil =>
    have hclose : (String.ofList [']']).utf8ByteSize = 1 := rfl
    rw [Value.stringifyAll, utf8ByteSize_ofList_append, hclose, List.map_singleton,
      List.sum_singleton, utf8Length]
  | cons w vs ih =>
    have hcomma : (',' : Char).utf8Size = 1 := rfl
    have hsum : ((v :: w :: vs).map fun u => utf8Length u + 1).sum =
        utf8Length v + 1 + ((w :: vs).map fun u => utf8Length u + 1).sum := by
      rw [List.map_cons, List.sum_cons]
    rw [hsum, Value.stringifyAll, utf8ByteSize_ofList_append, utf8ByteSize_ofList_cons, ih, hcomma,
      Nat.add_assoc, utf8Length]
    exact List.cons_ne_nil w vs

/-- The bytes of the array of a packet. -/
def arraySize (objs : List Value) : ℕ := 1 + max 1 (objs.map fun v => utf8Length v + 1).sum

theorem utf8Length_arr (objs : List Value) : utf8Length (.arr objs) = arraySize objs := by
  have hbracket : ('[' : Char).utf8Size = 1 := rfl
  rw [utf8Length, Value.stringify, utf8ByteSize_ofList_cons, hbracket, arraySize]
  congr 1
  cases objs with
  | nil => rfl
  | cons v vs =>
    rw [stringifyAll_size, Nat.max_eq_right]
    rw [List.map_cons, List.sum_cons]
    omega

end Bytes

end JsonScada.Replication.Packets
