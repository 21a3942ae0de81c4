/- path: JsonScada/System/ForwardSize
   source: src/mongofw/customized_module.js, dequeueChangesSend
   digest: Which batches of changes fit in one UDP message, over all runs of the sender. -/

import JsonScada.Replication.Packets
import JsonScada.System.BackfillReplay

set_option autoImplicit false
set_option relaxedAutoImplicit false

namespace JsonScada.System.ForwardSize

open JsonScada.Lib.Batch JsonScada.Lib.JsObject JsonScada.Lib.Machine
open JsonScada.Replication.Forward JsonScada.Replication.Packets JsonScada.System.BackfillReplay

def payloadLimit : ℕ := 65507

/-- The output is never longer than the input and a fixed overhead. -/
def Deflates (overhead : ℕ) (deflateSync : ByteArray → ByteArray) : Prop :=
  ∀ data, (deflateSync data).size ≤ data.size + overhead

/-- Each message that a sender in the state `s` hands over fits in a datagram. -/
def Sends (deflateSync : ByteArray → ByteArray) (s : Forwarder) (ev : Event) : Prop :=
  ev = .send → s.chgQueue ≠ [] →
    (message deflateSync (fillPacket s.chgQueue s.cntChg 0).fwArr).size ≤ payloadLimit

/-- The next batch of the queue is small enough in UTF-8. -/
def SmallBatch (overhead : ℕ) (s : Forwarder) (ev : Event) : Prop :=
  ev = .send → s.chgQueue ≠ [] → ∀ batch,
    IsBatch (fun part => load (accepted s.cntChg part)) packetSizeThreshold s.chgQueue batch →
      arraySize (accepted s.cntChg batch) + overhead ≤ payloadLimit

section Bound

variable {overhead : ℕ} {s : Forwarder} {ev : Event}

/-- Stored data: nothing is gained, and the overhead is used up. -/
def stored (overhead : ℕ) (data : ByteArray) : ByteArray := data ++ ⟨Array.replicate overhead 0⟩

theorem size_stored (data : ByteArray) : (stored overhead data).size = data.size + overhead := by
  rw [stored, ByteArray.size_append]
  congr 1
  exact Array.size_replicate

theorem deflates_stored : Deflates overhead (stored overhead) := fun data => (size_stored data).le

theorem size_text (fwArr : List Value) :
    (String.ofList (Value.arr fwArr).stringify).toUTF8.size = arraySize fwArr := by
  rw [← utf8Length_arr]
  rfl

theorem fwArr_eq {batch : List Value}
    (hbatch : IsBatch (fun part => load (accepted s.cntChg part)) packetSizeThreshold s.chgQueue
      batch) : (fillPacket s.chgQueue s.cntChg 0).fwArr = accepted s.cntChg batch := by
  obtain ⟨batch', hfills⟩ := fillPacket_fills s.chgQueue s.cntChg 0 (Nat.zero_le _)
  have hbatch' := hfills.isBatch
  simp only [Nat.zero_add] at hbatch'
  rw [hfills.fwArr, hbatch.unique hbatch']

theorem exists_batch (s : Forwarder) :
    ∃ batch, IsBatch (fun part => load (accepted s.cntChg part)) packetSizeThreshold s.chgQueue
      batch := by
  obtain ⟨batch, hfills⟩ := fillPacket_fills s.chgQueue s.cntChg 0 (Nat.zero_le _)
  have hbatch := hfills.isBatch
  simp only [Nat.zero_add] at hbatch
  exact ⟨batch, hbatch⟩

theorem sends_of_smallBatch {deflateSync : ByteArray → ByteArray}
    (hdeflate : Deflates overhead deflateSync) (hsmall : SmallBatch overhead s ev) :
    Sends deflateSync s ev := by
  intro hev hqueue
  obtain ⟨batch, hbatch⟩ := exists_batch s
  have hsize := hsmall hev hqueue batch hbatch
  rw [message, fwArr_eq hbatch]
  have hbound := hdeflate (String.ofList (Value.arr (accepted s.cntChg batch)).stringify).toUTF8
  rw [size_text] at hbound
  omega

theorem smallBatch_of_stored (hsends : Sends (stored overhead) s ev) :
    SmallBatch overhead s ev := by
  intro hev hqueue batch hbatch
  have hsize := hsends hev hqueue
  rwa [message, fwArr_eq hbatch, size_stored, size_text] at hsize

end Bound

/-- Every message of a run fits in a datagram, whatever the compression gains, exactly when every
batch that is sent is small enough in UTF-8. -/
theorem messages_fit_iff (overhead : ℕ) (s : Forwarder) (events : List Event) :
    (∀ deflateSync, Deflates overhead deflateSync →
        Every step (Sends deflateSync) s events) ↔
      Every step (SmallBatch overhead) s events := by
  constructor
  · intro hall
    exact (hall (stored overhead) deflates_stored).imp fun _ _ => smallBatch_of_stored
  · intro hsmall deflateSync hdeflate
    exact hsmall.imp fun _ _ => sends_of_smallBatch hdeflate

section Example

/-- A character of one unit in UTF-16 and three bytes in UTF-8. -/
def Wide (c : Char) : Prop := 0x800 ≤ c.toNat ∧ c.toNat < 0x10000

variable {text : List Char}

theorem Wide.escapeChar {c : Char} (h : Wide c) : Lib.Json.escapeChar c = [c] := by
  have hne : ∀ d : Char, d.toNat < 0x800 → c ≠ d := by
    rintro d hd rfl
    exact absurd h.1 (Nat.not_le_of_lt hd)
  rw [Lib.Json.escapeChar, if_neg (hne _ (by decide)), if_neg (hne _ (by decide)),
    if_neg (hne _ (by decide)), if_neg (hne _ (by decide)), if_neg (hne _ (by decide)),
    if_neg (hne _ (by decide)), if_neg (hne _ (by decide)), if_neg]
  have hle := h.1
  omega

theorem Wide.utf8Size {c : Char} (h : Wide c) : c.utf8Size = 3 := by
  have hval : c.toNat = c.val.toNat := rfl
  obtain ⟨hle, hlt⟩ := h
  rw [Char.utf8Size]
  simp only [UInt32.le_iff_toNat_le]
  rw [if_neg, if_neg, if_pos]
  · exact Nat.le_of_lt_succ hlt
  · exact Nat.not_le_of_lt hle
  · refine Nat.not_le_of_lt (Nat.lt_of_lt_of_le ?_ hle)
    decide

theorem escape_wide (h : ∀ c ∈ text, Wide c) : text.flatMap Lib.Json.escapeChar = text := by
  induction text with
  | nil => rfl
  | cons c cs ih =>
    rw [List.flatMap_cons, (h c List.mem_cons_self).escapeChar,
      ih fun d hd => h d (List.mem_cons_of_mem c hd), List.singleton_append]

theorem units_wide (h : ∀ c ∈ text, Wide c) :
    (text.map fun c => if c.toNat < 0x10000 then 1 else 2).sum = text.length := by
  induction text with
  | nil => rfl
  | cons c cs ih =>
    rw [List.map_cons, List.sum_cons, if_pos (h c List.mem_cons_self).2,
      ih fun d hd => h d (List.mem_cons_of_mem c hd), List.length_cons, Nat.add_comm]

theorem bytes_wide (h : ∀ c ∈ text, Wide c) :
    (String.ofList text).utf8ByteSize = 3 * text.length := by
  induction text with
  | nil => rfl
  | cons c cs ih =>
    rw [utf8ByteSize_ofList_cons, (h c List.mem_cons_self).utf8Size,
      ih fun d hd => h d (List.mem_cons_of_mem c hd), List.length_cons]
    omega

def textFields (text : List Char) : Fields :=
  [("valueStringAtSource", .str (String.ofList text))]

/-- An update with a text value. -/
def textChange (text : List Char) : ChangeEvent where
  tag := some "KAW2"
  documentKey := .null
  updatedFields := [("sourceDataUpdate", .obj (textFields text))]
  sourceDataUpdate := textFields text
  has_source := rfl

def before : List Char :=
  "\x7b\"cnt\":1,\"tag\":\"KAW2\",\"operationType\":\"update\",\"documentKey\":null,".toList ++
  ("\"updateDescription\":\x7b\"updatedFields\":\x7b\"sourceDataUpdate\":".toList ++
    "\x7b\"valueStringAtSource\":\"".toList)

def behind : List Char := "\"\x7d\x7d\x7d\x7d".toList

theorem wireObject_textChange (text : List Char) : wireObject 1 (textChange text).toValue =
    updateObject 1 (some "KAW2") .null [("sourceDataUpdate", .obj (textFields text))] := by
  have hkeep : withoutLarge (textFields text) = textFields text := withoutLarge_eq_self rfl rfl
  rw [wireObject_event, ChangeEvent.sentFields]
  simp [textChange, hkeep, Members.set]

theorem stringify_textChange (h : ∀ c ∈ text, Wide c) :
    (wireObject 1 (textChange text).toValue).stringify = before ++ (text ++ behind) := by
  have hone : Lib.EcmaScript.numToString (.fin ((1 : ℕ) : ℚ)) = ['1'] := by decide +kernel
  rw [wireObject_textChange, updateObject]
  simp only [optionalMember, Option.map_some, Option.toList_some, List.map_cons, List.map_nil,
    List.cons_append, List.nil_append, Value.stringify, Value.stringifyFields, textFields,
    Lib.Json.quote, String.toList_ofList, escape_wide h, hone, List.append_assoc]
  rfl

theorem jsonLength_textChange (h : ∀ c ∈ text, Wide c) :
    jsonLength (wireObject 1 (textChange text).toValue) = text.length + 152 := by
  have hbefore : (before.map fun c => if c.toNat < 0x10000 then 1 else 2).sum = 147 := by
    decide +kernel
  have hbehind : (behind.map fun c => if c.toNat < 0x10000 then 1 else 2).sum = 5 := by
    decide +kernel
  rw [jsonLength_eq, stringify_textChange h, List.map_append, List.sum_append, List.map_append,
    List.sum_append, hbefore, hbehind, units_wide h]
  omega

theorem utf8Length_textChange (h : ∀ c ∈ text, Wide c) :
    utf8Length (wireObject 1 (textChange text).toValue) = 3 * text.length + 152 := by
  have hbefore : (String.ofList before).utf8ByteSize = 147 := by decide +kernel
  have hbehind : (String.ofList behind).utf8ByteSize = 5 := by decide +kernel
  rw [utf8Length, stringify_textChange h, utf8ByteSize_ofList_append, utf8ByteSize_ofList_append,
    hbefore, hbehind, bytes_wide h]
  omega

/-- Ideographs in an order that leaves a compression little to gain. -/
def ideographs : List Char := (List.range 40000).map fun i => Char.ofNat (0x4e00 + i * 7919 % 20000)

theorem ideographs_wide : ∀ c ∈ ideographs, Wide c := by
  intro c hc
  obtain ⟨i, -, rfl⟩ := List.mem_map.mp hc
  have hlt : i * 7919 % 20000 < 20000 := Nat.mod_lt _ (by decide)
  have hvalid : (0x4e00 + i * 7919 % 20000).isValidChar := Or.inl (by omega)
  have hnat : (Char.ofNat (0x4e00 + i * 7919 % 20000)).toNat = 0x4e00 + i * 7919 % 20000 := by
    rw [Char.ofNat, dif_pos hvalid]
    rfl
  rw [Wide, hnat]
  omega

/-- A single change of 40152 units in JSON is accepted, and its message is of 120154 bytes. -/
theorem message_too_large :
    (fillPacket [(textChange ideographs).toValue] 0 0).fwArr =
        [wireObject 1 (textChange ideographs).toValue] ∧
      jsonLength (wireObject 1 (textChange ideographs).toValue) = 40152 ∧
      (message id [wireObject 1 (textChange ideographs).toValue]).size = 120154 ∧
      ¬ ∀ (overhead : ℕ) (s : Forwarder) (events : List Event) (deflateSync : ByteArray → ByteArray),
        Deflates overhead deflateSync → Every step (Sends deflateSync) s events := by
  have hlength : ideographs.length = 40000 := by rw [ideographs, List.length_map, List.length_range]
  have hunits : jsonLength (wireObject 1 (textChange ideographs).toValue) = 40152 := by
    rw [jsonLength_textChange ideographs_wide, hlength]
  have hpacket : (fillPacket [(textChange ideographs).toValue] 0 0).fwArr =
      [wireObject 1 (textChange ideographs).toValue] := by
    rw [fillPacket_singleton (by rw [hunits]; decide)]
  have hsize : (message id [wireObject 1 (textChange ideographs).toValue]).size = 120154 := by
    rw [message, id, size_text, arraySize, List.map_singleton, List.sum_singleton,
      utf8Length_textChange ideographs_wide, hlength]
    omega
  refine ⟨hpacket, hunits, hsize, fun hall => ?_⟩
  have hsend := (hall 0 { chgQueue := [(textChange ideographs).toValue] } [.send] id
    fun _ => le_rfl).1 rfl (List.cons_ne_nil _ _)
  rw [hpacket, hsize] at hsend
  exact absurd hsend (by decide)

end Example

end JsonScada.System.ForwardSize
