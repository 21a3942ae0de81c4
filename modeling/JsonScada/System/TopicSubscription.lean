/- path: JsonScada/System/TopicSubscription
   source: src/mqtt-sparkplug/index.js
   digest: Topics attributed to a subscription, against the rules of MQTT. -/

import JsonScada.MqttSparkplug.TopicFilter

set_option autoImplicit false
set_option relaxedAutoImplicit false

namespace JsonScada.System.TopicSubscription

open JsonScada.Lib.Pattern JsonScada.MqttSparkplug.TopicFilter

variable {engine : Engine} {s t : Text}

section Rules

def levels (t : Text) : List Text := t.splitOn slash

/-- Levels of a filter against levels of a topic: a plus sign for one level, a number sign for
all that are left, also none. -/
def matchesLevels : List Text → List Text → Bool
  | [], ts => ts.isEmpty
  | f :: fs, ts =>
    if f = [hash] then true
    else
      match ts with
      | [] => false
      | x :: ts => (f = [plus] || f = x) && matchesLevels fs ts

def beginsWithWildcard (s : Text) : Bool := s.head? = some plus || s.head? = some hash

/-- The broker delivers a message of the topic for the filter. A filter that begins with a
wildcard has no part in the topics that begin with a dollar sign. -/
def isDelivered (s t : Text) : Bool :=
  !(beginsWithWildcard s && t.head? = some dollar) && matchesLevels (levels s) (levels t)

structure LegalTopic (t : Text) : Prop where
  nonempty : t ≠ []
  no_wildcard : plus ∉ t ∧ hash ∉ t
  no_zero : 0 ∉ t

structure LegalFilter (s : Text) : Prop where
  nonempty : s ≠ []
  plus_alone : ∀ level ∈ levels s, plus ∈ level → level = [plus]
  hash_alone : ∀ level ∈ levels s, hash ∈ level → level = [hash]
  hash_last : ∀ level ∈ (levels s).dropLast, hash ∉ level
  no_zero : 0 ∉ s

end Rules

section Attribution

/-- The topic is attributed to the subscription where the broker delivers it for it. -/
def Attributes (engine : Engine) (t s : Text) : Prop :=
  topicMatchSub engine t s = some true ↔ isDelivered s t = true

/-- A part of the topic is the text of the filter, with a run that is not empty for each
wildcard and any character for a dot. -/
def Contains (s t : Text) : Prop := ∃ part, part <:+: t ∧ Spells (s.map pieceOf) part

theorem topicMatchSub_iff (h : Plain s) :
    topicMatchSub engine t s = some true ↔ Contains s t := by
  rw [topicMatchSub_plain engine t h, Option.some_inj, occurs_iff]
  exact Iff.rfl

end Attribution

section Unanchored

/-- A topic a filter is meant for, with a letter for each wildcard. -/
def instanceOf (s : Text) : Text := s.map fun c => if c = plus ∨ c = hash then 0x78 else c

theorem spells_instanceOf (s : Text) : Spells (s.map pieceOf) (instanceOf s) := by
  induction s with
  | nil => exact .nil
  | cons c s ih =>
    rw [instanceOf, List.map_cons, List.map_cons, pieceOf]
    by_cases hplus : c = plus
    · rw [if_pos hplus, if_pos (.inl hplus)]
      exact Spells.many (List.cons_ne_nil 0x78 []) (by decide) ih
    · by_cases hhash : c = hash
      · rw [if_neg hplus, if_pos hhash, if_pos (.inr hhash)]
        exact Spells.many (List.cons_ne_nil 0x78 []) (by decide) ih
      · rw [if_neg hplus, if_neg hhash, if_neg (not_or.mpr ⟨hplus, hhash⟩)]
        split_ifs with hdot
        · subst hdot
          exact .one (by decide) ih
        · exact .one (by simp) ih

theorem levels_cons {c : ℕ} (h : c ≠ slash) (s : Text) :
    ∃ level rest, levels s = level :: rest ∧ levels (c :: s) = (c :: level) :: rest := by
  obtain ⟨level, rest, hsplit⟩ := List.exists_cons_of_ne_nil (List.splitOn_ne_nil slash s)
  refine ⟨level, rest, hsplit, ?_⟩
  rw [levels, List.splitOn_eq_splitOnP, List.splitOnP_cons_eq_if_modifyHead,
    ← List.splitOn_eq_splitOnP, hsplit, if_neg (by simpa using h), List.modifyHead_cons]

theorem levels_slash (s : Text) : levels (slash :: s) = [] :: levels s := by
  rw [levels, List.splitOn_eq_splitOnP, List.splitOnP_cons_eq_if_modifyHead,
    ← List.splitOn_eq_splitOnP, if_pos (by simp)]
  rfl

theorem mem_instanceOf {x : ℕ} (h : x ∈ instanceOf s) :
    x = 0x78 ∨ x ∈ s ∧ x ≠ plus ∧ x ≠ hash := by
  obtain ⟨c, hc, rfl⟩ := List.mem_map.mp h
  split_ifs with hwild
  · exact .inl rfl
  · exact .inr ⟨hc, not_or.mp hwild⟩

/-- A plain filter is not meant for topics that begin with a dollar sign. -/
theorem not_isDelivered_dollar (h : Plain s) (hs : s ≠ []) (u : Text) :
    isDelivered s (dollar :: u) = false := by
  obtain ⟨c, s, rfl⟩ := List.exists_cons_of_ne_nil hs
  obtain ⟨first, others, -, htopic⟩ := levels_cons (show dollar ≠ slash by decide) u
  cases hwild : beginsWithWildcard (c :: s) with
  | true => simp [isDelivered, hwild]
  | false =>
    have hc : c ≠ plus ∧ c ≠ hash := by simpa [beginsWithWildcard] using hwild
    rw [isDelivered, hwild, Bool.false_and, Bool.not_false, Bool.true_and, htopic]
    by_cases hslash : c = slash
    · subst hslash
      rw [levels_slash]
      simp [matchesLevels]
    · obtain ⟨level, rest, -, hfilter⟩ := levels_cons hslash s
      have hdollar : c ≠ dollar := by
        rintro rfl
        exact h dollar List.mem_cons_self (by decide)
      rw [hfilter]
      simp [matchesLevels, hc.1, hc.2, hdollar]

/-- For every filter there is a topic that is attributed to it and not delivered for it: the
pattern is not anchored. -/
theorem overmatched (engine : Engine) (h : Plain s) (hs : LegalFilter s) :
    ∃ t, LegalTopic t ∧ isDelivered s t = false ∧ topicMatchSub engine t s = some true := by
  refine ⟨dollar :: instanceOf s, ⟨by simp, ⟨?_, ?_⟩, ?_⟩,
    not_isDelivered_dollar h hs.nonempty _, ?_⟩
  · intro hmem
    rcases List.mem_cons.mp hmem with heq | hmem
    · exact absurd heq (by decide)
    · rcases mem_instanceOf hmem with heq | ⟨-, hne, -⟩
      · exact absurd heq (by decide)
      · exact hne rfl
  · intro hmem
    rcases List.mem_cons.mp hmem with heq | hmem
    · exact absurd heq (by decide)
    · rcases mem_instanceOf hmem with heq | ⟨-, -, hne⟩
      · exact absurd heq (by decide)
      · exact hne rfl
  · intro hmem
    rcases List.mem_cons.mp hmem with heq | hmem
    · exact absurd heq (by decide)
    · rcases mem_instanceOf hmem with heq | ⟨hmem, -⟩
      · exact absurd heq (by decide)
      · exact hs.no_zero hmem
  · rw [topicMatchSub_iff h]
    exact ⟨instanceOf s, (List.suffix_cons _ _).isInfix, spells_instanceOf s⟩

end Unanchored

end JsonScada.System.TopicSubscription
