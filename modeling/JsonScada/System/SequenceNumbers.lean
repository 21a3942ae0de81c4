/- path: JsonScada/System/SequenceNumbers
   layer: system
   digest: Which runs of an edge node number its messages without a gap. -/

import JsonScada.MqttSparkplug.SparkplugClient

set_option autoImplicit false
set_option relaxedAutoImplicit false

namespace JsonScada.System.SequenceNumbers

open JsonScada.MqttSparkplug.Payload JsonScada.MqttSparkplug.SparkplugClient

/-- A command is published under the id of the node it goes to. -/
def isCommand : Publication → Bool
  | .nodeCmd _ _ | .deviceCmd _ _ _ => true
  | _ => false

/-- A numbered message of the node: whether it is a birth of the node, and its number. -/
structure Numbered where
  birth : Bool
  number : ℕ
  deriving DecidableEq

/-- The number of a message of the node. -/
def numberedOf (m : Published) : Option Numbered :=
  if isCommand m.publication then none
  else m.payload.seq.map fun k => ⟨m.publication = .nodeBirth, k⟩

/-- The numbers under the node's own id, in the order of publication. -/
def numbersOf (s : Session) : List Numbered := s.published.filterMap numberedOf

/-- The number a host has seen last since a birth, if there was one. -/
def seen : Option ℕ → List Numbered → Option ℕ
  | last, [] => last
  | last, m :: ms => seen (if m.birth then some m.number else last.map fun _ => m.number) ms

/-- A host that has last seen a number finds no gap at the next message. -/
def Follows (last : Option ℕ) (m : Numbered) : Prop :=
  if m.birth then m.number = 0 else ∀ k, last = some k → m.number = (k + 1) % 256

/-- Every birth has number zero, and from a birth on the numbers are consecutive. -/
def Gapless : Option ℕ → List Numbered → Prop
  | _, [] => True
  | last, m :: ms =>
    Follows last m ∧ Gapless (if m.birth then some m.number else last.map fun _ => m.number) ms

theorem seen_append_singleton (last : Option ℕ) (ms : List Numbered) (m : Numbered) :
    seen last (ms ++ [m]) =
      if m.birth then some m.number else (seen last ms).map fun _ => m.number := by
  induction ms generalizing last with
  | nil => rfl
  | cons a ms ih => exact ih _

theorem gapless_append_singleton (last : Option ℕ) (ms : List Numbered) (m : Numbered) :
    Gapless last (ms ++ [m]) ↔ Gapless last ms ∧ Follows (seen last ms) m := by
  induction ms generalizing last with
  | nil => simp [Gapless, seen]
  | cons a ms ih =>
    rw [List.cons_append, Gapless, Gapless, seen, ih, and_assoc]

section Counting

variable (engine : Engine)

/-- The message of a call goes out. -/
def goesOut (p : Publication) (payload : Payload) (options : Options) : Bool :=
  (outgoing engine p payload options).isSome

/-- Numbers drawn since a birth of the node was last begun, and messages of the node since
a birth of it last went out. -/
structure Tally where
  drawn : ℕ := 0
  shown : Option ℕ := none

/-- The tally after a call. -/
def Tally.next (t : Tally) : Call → Tally
  | .connect => t
  | .publish p payload options =>
    if p = .nodeBirth then
      { drawn := 1, shown := if goesOut engine p payload options then some 1 else t.shown }
    else if isCommand p || !goesOut engine p payload options then
      { t with drawn := t.drawn + 1 }
    else { drawn := t.drawn + 1, shown := t.shown.map (· + 1) }

def tallyOf (calls : List Call) : Tally := calls.foldl (Tally.next engine) {}

/-- After the calls, the message goes out under the node's id and is no birth. -/
def OwnMessage : Call → Prop
  | .connect => False
  | .publish p payload options =>
    p ≠ .nodeBirth ∧ isCommand p = false ∧ goesOut engine p payload options = true

/-- Whenever a message of the node follows a birth, as many numbers have been drawn as
messages were sent under its id, or a multiple of 256 more or less. -/
def DrawnForOwn (calls : List Call) : Prop :=
  ∀ before call, before ++ [call] <+: calls → OwnMessage engine call →
    ∀ k, (tallyOf engine before).shown = some k → (tallyOf engine before).drawn % 256 = k % 256

theorem tallyOf_append (calls : List Call) (call : Call) :
    tallyOf engine (calls ++ [call]) = (tallyOf engine calls).next engine call := by
  rw [tallyOf, List.foldl_append]
  rfl

theorem drawnForOwn_append (calls : List Call) (call : Call) :
    DrawnForOwn engine (calls ++ [call]) ↔ DrawnForOwn engine calls ∧
      (OwnMessage engine call → ∀ k, (tallyOf engine calls).shown = some k →
        (tallyOf engine calls).drawn % 256 = k % 256) := by
  constructor
  · intro h
    refine ⟨fun before c hbegin => h before c (hbegin.trans (List.prefix_append calls [call])), ?_⟩
    exact h calls call (List.prefix_refl _)
  · rintro ⟨hbefore, hlast⟩ before c hbegin
    rcases List.prefix_concat_iff.mp hbegin with heq | hshort
    · obtain ⟨rfl, hc⟩ := List.append_inj' heq rfl
      obtain rfl := List.singleton_inj.mp hc
      exact hlast
    · exact hbefore before c hshort

end Counting

section Publishing

variable (engine : Engine) (config : Config)

/-- The number a message is given. -/
def numberFor (p : Publication) (s : Session) : ℕ :=
  if p = .nodeBirth then 0 else if s.seq = 256 then 0 else s.seq

theorem seq_publish (p : Publication) (payload : Payload) (options : Options) (s : Session) :
    (publish engine config p payload options s).seq = numberFor p s + 1 := by
  rw [publish, numberFor]
  by_cases hp : p = .nodeBirth
  · subst hp
    cases outgoing engine .nodeBirth payload options <;> simp [incrementSeqNum]
  · cases outgoing engine p payload options <;> simp [incrementSeqNum, hp]

theorem numbersOf_publish (p : Publication) (payload : Payload) (options : Options)
    (s : Session) :
    numbersOf (publish engine config p payload options s) = numbersOf s ++
      if goesOut engine p payload options = true ∧ isCommand p = false then
        [⟨p = .nodeBirth, numberFor p s⟩]
      else [] := by
  rw [publish]
  cases hout : outgoing engine p payload options with
  | none =>
    have hlost : goesOut engine p payload options = false := by rw [goesOut, hout]; rfl
    have hnil : (if goesOut engine p payload options = true ∧ isCommand p = false then
        [(⟨p = .nodeBirth, numberFor p s⟩ : Numbered)] else []) = [] := if_neg (by simp [hlost])
    rw [hnil, List.append_nil]
    split_ifs <;> rfl
  | some packing =>
    have hsent : goesOut engine p payload options = true := by rw [goesOut, hout]; rfl
    by_cases hp : p = .nodeBirth
    · subst hp
      simp [numbersOf, numberedOf, isCommand, incrementSeqNum, numberFor, hsent]
    · cases hc : isCommand p with
      | true => simp [numbersOf, numberedOf, hc, incrementSeqNum, hp]
      | false => simp [numbersOf, numberedOf, hc, incrementSeqNum, numberFor, hp, hsent]

end Publishing

section Counter

/-- What the tally of the calls says of the client. -/
structure Counted (t : Tally) (s : Session) : Prop where
  counter : t.shown ≠ none → s.seq ≤ 256 ∧ s.seq % 256 = t.drawn % 256
  unseen : t.shown = none → seen none (numbersOf s) = none
  last : Gapless none (numbersOf s) → ∀ k, t.shown = some k →
    ∃ j, seen none (numbersOf s) = some j ∧ (j + 1) % 256 = k % 256

variable (engine : Engine) (config : Config) {t : Tally} {s : Session}

/-- A number drawn for nothing under the node's id. -/
theorem Counted.unnumbered (h : Counted t s) {s' : Session}
    (hn : numbersOf s' = numbersOf s) (hs : s'.seq = (if s.seq = 256 then 0 else s.seq) + 1) :
    Counted { t with drawn := t.drawn + 1 } s' := by
  refine ⟨fun hshown => ?_, fun hshown => ?_, fun hg k hk => ?_⟩
  · obtain ⟨hle, hmod⟩ := h.counter hshown
    simp only
    rw [hs]
    split_ifs <;> omega
  · rw [hn]
    exact h.unseen hshown
  · rw [hn] at hg ⊢
    exact h.last hg k hk

theorem Counted.birth {s' : Session} (hn : numbersOf s' = numbersOf s ++ [⟨true, 0⟩])
    (hs : s'.seq = 1) : Counted { drawn := 1, shown := some 1 } s' := by
  refine ⟨fun _ => ?_, fun hshown => by simp at hshown, fun _ k hk => ⟨0, ?_, ?_⟩⟩
  · rw [hs]
    exact ⟨by omega, rfl⟩
  · rw [hn, seen_append_singleton]
    rfl
  · obtain rfl := Option.some.inj hk
    rfl

theorem Counted.lostBirth (h : Counted t s) {s' : Session} (hn : numbersOf s' = numbersOf s)
    (hs : s'.seq = 1) : Counted { drawn := 1, shown := t.shown } s' := by
  refine ⟨fun _ => ?_, fun hshown => ?_, fun hg k hk => ?_⟩
  · rw [hs]
    exact ⟨by omega, rfl⟩
  · rw [hn]
    exact h.unseen hshown
  · rw [hn] at hg ⊢
    exact h.last hg k hk

/-- The next number follows exactly when as many were drawn as were shown. -/
theorem Counted.follows_iff (h : Counted t s) (hg : Gapless none (numbersOf s)) :
    Follows (seen none (numbersOf s)) ⟨false, if s.seq = 256 then 0 else s.seq⟩ ↔
      ∀ k, t.shown = some k → t.drawn % 256 = k % 256 := by
  cases hshown : t.shown with
  | none => simp [Follows, h.unseen hshown]
  | some k =>
    obtain ⟨j, hseen, hj⟩ := h.last hg k hshown
    obtain ⟨hle, hmod⟩ := h.counter (by simp [hshown])
    have hdrawn : (if s.seq = 256 then 0 else s.seq) = t.drawn % 256 := by split_ifs <;> omega
    simp [Follows, hseen, hdrawn, hj]

theorem Counted.own (h : Counted t s) {s' : Session}
    (hn : numbersOf s' = numbersOf s ++ [⟨false, if s.seq = 256 then 0 else s.seq⟩])
    (hs : s'.seq = (if s.seq = 256 then 0 else s.seq) + 1) :
    Counted { drawn := t.drawn + 1, shown := t.shown.map (· + 1) } s' := by
  refine ⟨fun hshown => ?_, fun hshown => ?_, fun hg k hk => ?_⟩
  · obtain ⟨hle, hmod⟩ := h.counter (by simpa using hshown)
    simp only
    rw [hs]
    split_ifs <;> omega
  · have hnone : t.shown = none := by simpa using hshown
    rw [hn, seen_append_singleton, h.unseen hnone]
    rfl
  · rw [hn, gapless_append_singleton] at hg
    obtain ⟨k', hk', rfl⟩ := Option.map_eq_some_iff.mp hk
    obtain ⟨j, hseen, hj⟩ := h.last hg.1 k' hk'
    have hfollow := hg.2
    rw [hseen] at hfollow
    have hnumber : (if s.seq = 256 then 0 else s.seq) = (j + 1) % 256 := hfollow j rfl
    refine ⟨if s.seq = 256 then 0 else s.seq, ?_, ?_⟩
    · rw [hn, seen_append_singleton, hseen]
      rfl
    · rw [hnumber]
      omega

end Counter

section Runs

variable (engine : Engine) (config : Config) {t : Tally} {s : Session}

/-- One call keeps the tally, and leaves a gap exactly when it is a message of the node for
which too few or too many numbers have been drawn. -/
theorem counted_handle (h : Counted t s) (call : Call) :
    Counted (t.next engine call) (handle engine config s call) ∧
      (Gapless none (numbersOf (handle engine config s call)) ↔ Gapless none (numbersOf s) ∧
        (OwnMessage engine call → ∀ k, t.shown = some k → t.drawn % 256 = k % 256)) := by
  cases call with
  | connect => exact ⟨⟨h.counter, h.unseen, h.last⟩, by simp [OwnMessage, handle, numbersOf]⟩
  | publish p payload options =>
    have hseq := seq_publish engine config p payload options s
    have hnumbers := numbersOf_publish engine config p payload options s
    rw [handle]
    by_cases hp : p = .nodeBirth
    · subst hp
      have hnot : ¬ OwnMessage engine (.publish .nodeBirth payload options) := fun ho => ho.1 rfl
      rw [numberFor, if_pos rfl] at hseq hnumbers
      cases hout : goesOut engine .nodeBirth payload options with
      | false =>
        have hn : numbersOf (publish engine config .nodeBirth payload options s) = numbersOf s := by
          simpa [hout] using hnumbers
        refine ⟨?_, by rw [hn]; simp [hnot]⟩
        simpa [Tally.next, hout] using h.lostBirth hn hseq
      | true =>
        have hn : numbersOf (publish engine config .nodeBirth payload options s) =
            numbersOf s ++ [⟨true, 0⟩] := by
          simpa [hout, isCommand] using hnumbers
        refine ⟨?_, by rw [hn, gapless_append_singleton]; simp [hnot, Follows]⟩
        simpa [Tally.next, hout] using Counted.birth hn hseq
    · rw [numberFor, if_neg hp] at hseq hnumbers
      by_cases hown : isCommand p = false ∧ goesOut engine p payload options = true
      · obtain ⟨hcommand, hout⟩ := hown
        have hn : numbersOf (publish engine config p payload options s) =
            numbersOf s ++ [⟨false, if s.seq = 256 then 0 else s.seq⟩] := by
          simpa [hout, hcommand, hp] using hnumbers
        have hmessage : OwnMessage engine (.publish p payload options) := ⟨hp, hcommand, hout⟩
        refine ⟨by simpa [Tally.next, hp, hcommand, hout] using h.own hn hseq, ?_⟩
        rw [hn, gapless_append_singleton]
        refine and_congr_right fun hg => ?_
        rw [h.follows_iff hg]
        exact ⟨fun hk _ => hk, fun hk => hk hmessage⟩
      · have hn : numbersOf (publish engine config p payload options s) = numbersOf s := by
          rw [hnumbers, if_neg (fun hc => hown ⟨hc.2, hc.1⟩), List.append_nil]
        have hnot : ¬ OwnMessage engine (.publish p payload options) := fun ho => hown ho.2
        have hlost : (isCommand p || !goesOut engine p payload options) = true := by
          cases hc : isCommand p with
          | true => rfl
          | false => simpa using fun ho => hown ⟨hc, ho⟩
        refine ⟨by simpa [Tally.next, hp, hlost] using h.unnumbered hn hseq, ?_⟩
        rw [hn]
        simp [hnot]

/-- The state of a client before its first call. -/
def created (seq : ℕ) (bdSeq : ℤ) : Session where
  seq := seq
  bdSeq := bdSeq

theorem counted_handleAll (seq : ℕ) (bdSeq : ℤ) (calls : List Call) :
    Counted (tallyOf engine calls) (handleAll engine config (created seq bdSeq) calls) ∧
      (Gapless none (numbersOf (handleAll engine config (created seq bdSeq) calls)) ↔
        DrawnForOwn engine calls) := by
  induction calls using List.reverseRecOn with
  | nil =>
    refine ⟨⟨fun h => absurd rfl h, fun _ => rfl, fun _ k hk => by cases hk⟩, ?_⟩
    refine iff_of_true trivial fun before call hbegin => ?_
    simp at hbegin
  | append_singleton calls call ih =>
    have hstep := counted_handle engine config ih.1 call
    rw [tallyOf_append, handleAll, List.foldl_append, ← handleAll]
    refine ⟨hstep.1, ?_⟩
    rw [drawnForOwn_append, ← ih.2]
    exact hstep.2

/-- The numbers under the node's own id have no gap exactly when every message of the node
after a birth finds as many numbers drawn as shown, modulo 256. -/
theorem gapless_iff_drawn_for_own (seq : ℕ) (bdSeq : ℤ) (calls : List Call) :
    Gapless none (numbersOf (handleAll engine config (created seq bdSeq) calls)) ↔
      DrawnForOwn engine calls :=
  (counted_handleAll engine config seq bdSeq calls).2

end Runs

section Plant

def plainEngine : Engine where
  encodes _ := true
  toUpperCase := id

def gateway : Config where
  groupId := "Plant"
  edgeNode := "Gateway"

/-- Another node is asked for its birth between two messages of the gateway. -/
def birthRequest : List Call := [
  .connect,
  .publish .nodeBirth { metrics := some [] } {},
  .publish (.deviceBirth "Primary Application") {} {},
  .publish (.nodeCmd "Plant" "Pump") {} {},
  .publish (.deviceData "Primary Application") {} {}]

/-- The data of the gateway skip the number that went to the other node. -/
theorem birthRequest_gap :
    numbersOf (handleAll plainEngine gateway (created 0 (-1)) birthRequest) =
        [⟨true, 0⟩, ⟨false, 1⟩, ⟨false, 3⟩] ∧
      ¬ Gapless none (numbersOf (handleAll plainEngine gateway (created 0 (-1)) birthRequest)) := by
  have hnumbers : numbersOf (handleAll plainEngine gateway (created 0 (-1)) birthRequest) =
      [⟨true, 0⟩, ⟨false, 1⟩, ⟨false, 3⟩] := by decide +kernel
  refine ⟨hnumbers, ?_⟩
  rw [hnumbers]
  rintro ⟨-, -, hlast, -⟩
  exact absurd (hlast 1 rfl) (by decide)

end Plant

end JsonScada.System.SequenceNumbers
