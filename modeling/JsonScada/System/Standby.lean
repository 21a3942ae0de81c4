/- path: JsonScada/System/Standby
   source: src/cs_data_processor/redundancy.js, src/mqtt-sparkplug/redundancy.js
   digest: Two nodes of one process poll one document; the standby waits for a dead node. -/

import Mathlib.Data.List.Induction
import Mathlib.Data.List.Nodup
import Mathlib.Data.List.Perm.Basic
import JsonScada.Lib.Machine
import JsonScada.Redundancy.Poll

set_option autoImplicit false
set_option relaxedAutoImplicit false

namespace JsonScada.System.Standby

open JsonScada.Lib.Machine JsonScada.Lib.Watchdog JsonScada.Redundancy.Poll

universe u
variable {τ : Type u}

inductive Side where
  | first
  | second
  deriving DecidableEq

/-- The document, the two nodes and the writes sent to the document; for the trace,
the tags the document has had, newest first, and what each node has seen. -/
structure Cluster (τ : Type u) where
  document : Instance (Option τ)
  nodes : Side → Watch (Option τ)
  writes : List (Side × τ)
  stamps : List τ
  seen : Side → List (Sight (Option τ))

/-- A poll of one node, with the tag of its write, and a write that takes effect. The
update is not awaited, and writes on their way may overtake each other. -/
inductive Label (τ : Type u) where
  | poll (side : Side) (tag : τ)
  | commit (i : ℕ)
  deriving DecidableEq

/-- The first node is active and named, the second has just started. -/
def start (document : Instance (Option τ)) (active : Watch (Option τ)) : Cluster τ :=
  { document := document
    nodes := fun side => match side with
      | .first => active
      | .second => Watch.start none
    writes := []
    stamps := document.activeNodeKeepAliveTimeTag.toList
    seen := fun _ => [] }

/-- The tag of a poll is not among the earlier ones. -/
def Fresh (s : Cluster τ) : Label τ → Prop
  | .poll _ tag => tag ∉ s.stamps ∧ tag ∉ s.writes.map Prod.snd
  | .commit _ => True

instance [DecidableEq τ] (s : Cluster τ) (a : Label τ) : Decidable (Fresh s a) := by
  cases a <;> unfold Fresh <;> infer_instance

def isStandbyPoll : Label τ → Bool
  | .poll .second _ => true
  | _ => false

def isCommit : Label τ → Bool
  | .commit _ => true
  | _ => false

/-- Between any five consecutive polls of the standby a write takes effect. -/
def Attentive (labels : List (Label τ)) : Prop :=
  ∀ pre seg post, labels = pre ++ seg ++ post → seg.countP isStandbyPoll = 5 →
    ∃ a ∈ seg, isCommit a = true

/-- The polls of the standby since a write last took effect. -/
def idle (labels : List (Label τ)) : ℕ :=
  labels.foldl (fun n a => match a with
    | .poll .second _ => n + 1
    | .poll .first _ => n
    | .commit _ => 0) 0

@[simp] theorem idle_second (labels : List (Label τ)) (tag : τ) :
    idle (labels ++ [.poll .second tag]) = idle labels + 1 := by
  simp [idle]

@[simp] theorem idle_first (labels : List (Label τ)) (tag : τ) :
    idle (labels ++ [.poll .first tag]) = idle labels := by
  simp [idle]

@[simp] theorem idle_commit (labels : List (Label τ)) (i : ℕ) :
    idle (labels ++ [.commit i]) = 0 := by
  simp [idle]

/-- The idle polls stand behind the last write. -/
theorem exists_idle_suffix (labels : List (Label τ)) {k : ℕ} (hk : k ≤ idle labels) :
    ∃ pre seg, labels = pre ++ seg ∧ seg.countP isStandbyPoll = k ∧
      ∀ a ∈ seg, isCommit a = false := by
  induction labels using List.reverseRecOn generalizing k with
  | nil =>
    obtain rfl : k = 0 := Nat.le_zero.mp hk
    exact ⟨[], [], rfl, rfl, by simp⟩
  | append_singleton labels a ih =>
    cases k with
    | zero => exact ⟨labels ++ [a], [], by simp, rfl, by simp⟩
    | succ k =>
      cases a with
      | poll side tag =>
        cases side with
        | first =>
          rw [idle_first] at hk
          obtain ⟨pre, seg, rfl, hcount, hquiet⟩ := ih hk
          refine ⟨pre, seg ++ [.poll .first tag], by simp, ?_, ?_⟩
          · rw [List.countP_append, hcount]
            rfl
          · intro a ha
            rcases List.mem_append.mp ha with ha | ha
            · exact hquiet a ha
            · rw [List.mem_singleton.mp ha]
              rfl
        | second =>
          rw [idle_second] at hk
          obtain ⟨pre, seg, rfl, hcount, hquiet⟩ := ih (Nat.le_of_succ_le_succ hk)
          refine ⟨pre, seg ++ [.poll .second tag], by simp, ?_, ?_⟩
          · rw [List.countP_append, hcount]
            rfl
          · intro a ha
            rcases List.mem_append.mp ha with ha | ha
            · exact hquiet a ha
            · rw [List.mem_singleton.mp ha]
              rfl
      | commit i =>
        rw [idle_commit] at hk
        omega

theorem Attentive.idle_lt {labels pre : List (Label τ)} (h : Attentive labels)
    (hpre : pre <+: labels) : idle pre < 5 := by
  by_contra hlt
  obtain ⟨front, seg, rfl, hcount, hquiet⟩ := exists_idle_suffix pre (Nat.le_of_not_lt hlt)
  obtain ⟨post, rfl⟩ := hpre
  obtain ⟨a, ha, hc⟩ := h front seg post rfl hcount
  rw [hquiet a ha] at hc
  cases hc

/-- The first node leads: it is active and alone in that, named, and the only one to
write. The looks of the standby since the last write found the tag of the document,
the earlier ones other tags. -/
structure Led (names : Side → String) (labels : List (Label τ)) (s : Cluster τ) : Prop where
  named : s.document.activeNodeName = names .first
  writers : ∀ w ∈ s.writes, w.1 = .first
  first : (s.nodes .first).active = true
  second : (s.nodes .second).active = false
  stamped : ∀ tag, s.document.activeNodeKeepAliveTimeTag = some tag → tag ∈ s.stamps
  distinct : (s.stamps ++ s.writes.map Prod.snd).Nodup
  looks : ∃ old, s.seen .second = old ++
      List.replicate (idle labels) (.other s.document.activeNodeKeepAliveTimeTag) ∧
    ∀ x ∈ old, ∃ tag, x = .other tag ∧ tag ≠ s.document.activeNodeKeepAliveTimeTag ∧
      ∀ stamp, tag = some stamp → stamp ∈ s.stamps

variable [DecidableEq τ] (program : Program) (names : Side → String)

def step (s : Cluster τ) : Label τ → Option (Cluster τ)
  | .poll side tag =>
    match program.ProcessRedundancy (names side) (some s.document) (s.nodes side) with
    | .exit => none
    | .next node writes => some { s with
        nodes := Function.update s.nodes side node
        writes := if writes then s.writes ++ [(side, tag)] else s.writes
        seen := Function.update s.seen side (s.seen side ++ [observe (names side) s.document]) }
  | .commit i =>
    match s.writes[i]? with
    | none => none
    | some (side, tag) => some { s with
        document := { s.document with
          activeNodeName := names side
          activeNodeKeepAliveTimeTag := some tag }
        writes := s.writes.eraseIdx i
        stamps := tag :: s.stamps }

variable {program names}

theorem step_poll {s t : Cluster τ} {side : Side} {tag : τ}
    (h : step program names s (.poll side tag) = some t) :
    let node := look nodeJs (s.nodes side) (observe (names side) s.document)
    t = { s with
      nodes := Function.update s.nodes side node
      writes := if node.active then s.writes ++ [(side, tag)] else s.writes
      seen := Function.update s.seen side (s.seen side ++ [observe (names side) s.document]) } := by
  simp only [step] at h
  rcases program.processRedundancy_found (names side) s.document (s.nodes side) with he | hl
  · rw [he] at h
    cases h
  · rw [hl] at h
    exact (Option.some.inj h).symm

theorem step_commit {s t : Cluster τ} {i : ℕ} (h : step program names s (.commit i) = some t) :
    ∃ side tag, s.writes[i]? = some (side, tag) ∧
      t = { s with
        document := { s.document with
          activeNodeName := names side
          activeNodeKeepAliveTimeTag := some tag }
        writes := s.writes.eraseIdx i
        stamps := tag :: s.stamps } := by
  simp only [step] at h
  split at h
  · cases h
  · rename_i side tag heq
    exact ⟨side, tag, heq, (Option.some.inj h).symm⟩

/-- Each node knows what it has seen. -/
def Informed (initial : Side → Watch (Option τ)) (s : Cluster τ) : Prop :=
  ∀ side, Watching nodeJs (initial side).last (s.seen side) (s.nodes side)

theorem informed_step {initial : Side → Watch (Option τ)} {s t : Cluster τ} {a : Label τ}
    (hs : Informed initial s) (h : step program names s a = some t) : Informed initial t := by
  cases a with
  | poll side tag =>
    obtain rfl := step_poll h
    intro other
    by_cases ho : other = side
    · subst ho
      simp only [Function.update_self]
      exact (hs other).look (.inl rfl)
    · simp only [Function.update_of_ne ho]
      exact hs other
  | commit i =>
    obtain ⟨side, tag, -, rfl⟩ := step_commit h
    exact hs

omit [DecidableEq τ] in
theorem informed_start (document : Instance (Option τ)) {active : Watch (Option τ)}
    (ha : active.active = true) :
    Informed (start document active).nodes (start document active) := by
  intro side
  cases side with
  | first =>
    refine ⟨rfl, fun hf => ?_⟩
    have hactive : active.active = false := hf
    rw [ha] at hactive
    cases hactive
  | second => exact watching_start nodeJs none

theorem led_commit {pre : List (Label τ)} {s t : Cluster τ} {i : ℕ} (hs : Led names pre s)
    (h : step program names s (.commit i) = some t) : Led names (pre ++ [.commit i]) t := by
  obtain ⟨side, tag, hi, rfl⟩ := step_commit h
  have hmem : (side, tag) ∈ s.writes := List.mem_of_getElem? hi
  obtain rfl : side = .first := hs.writers _ hmem
  have hperm : ((tag :: s.stamps) ++ (s.writes.eraseIdx i).map Prod.snd).Perm
      (s.stamps ++ s.writes.map Prod.snd) := by
    obtain ⟨hlt, hget⟩ := List.getElem?_eq_some_iff.mp hi
    have hwrites : ((.first, tag) :: s.writes.eraseIdx i).Perm s.writes := by
      rw [← hget]
      exact List.getElem_cons_eraseIdx_perm hlt
    have htags := hwrites.map Prod.snd
    exact (List.perm_middle.symm.trans (htags.append_left s.stamps))
  have hnew : tag ∉ s.stamps := by
    intro ht
    have hd := hs.distinct
    rw [List.nodup_append] at hd
    exact hd.2.2 tag ht tag (List.mem_map.mpr ⟨_, hmem, rfl⟩) rfl
  refine ⟨rfl, fun w hw => ?_, hs.first, hs.second, ?_, hperm.nodup_iff.mpr hs.distinct, ?_⟩
  · exact hs.writers w (List.mem_of_mem_eraseIdx hw)
  · intro stamp hst
    cases hst
    exact List.mem_cons_self
  · -- every look so far found a tag older than the one written
    obtain ⟨old, hseen, hold⟩ := hs.looks
    refine ⟨s.seen .second, by simp, fun x hx => ?_⟩
    have hfound : ∃ found, x = .other found ∧ ∀ stamp, found = some stamp → stamp ∈ s.stamps := by
      rw [hseen] at hx
      rcases List.mem_append.mp hx with hx | hx
      · obtain ⟨found, hf, -, hstamp⟩ := hold x hx
        exact ⟨found, hf, hstamp⟩
      · exact ⟨_, List.eq_of_mem_replicate hx, hs.stamped⟩
    obtain ⟨found, rfl, hstamp⟩ := hfound
    refine ⟨found, rfl, ?_, fun stamp hst => List.mem_cons_of_mem tag (hstamp stamp hst)⟩
    rintro rfl
    exact hnew (hstamp tag rfl)

theorem led_first {pre : List (Label τ)} {s t : Cluster τ} {tag : τ} (hs : Led names pre s)
    (hfresh : Fresh s (.poll .first tag))
    (h : step program names s (.poll .first tag) = some t) :
    Led names (pre ++ [.poll .first tag]) t := by
  have hown : observe (names .first) s.document = .own := if_pos hs.named
  obtain rfl := step_poll h
  simp only [hown, look, if_true]
  refine ⟨hs.named, ?_, by simp, ?_, hs.stamped, ?_, ?_⟩
  · intro w hw
    rcases List.mem_append.mp hw with hw | hw
    · exact hs.writers w hw
    · rw [List.mem_singleton.mp hw]
  · simpa using hs.second
  · rw [List.map_append, ← List.append_assoc]
    refine List.nodup_append.mpr ⟨hs.distinct, List.nodup_singleton _, ?_⟩
    rintro x hx y hy rfl
    obtain rfl : x = tag := by simpa using hy
    rcases List.mem_append.mp hx with hx | hx
    · exact hfresh.1 hx
    · exact hfresh.2 hx
  · simpa using hs.looks

/-- The standby does not take over within five looks after a write. -/
theorem Led.not_takesOver {pre : List (Label τ)} {s : Cluster τ} {initial : Side → Watch (Option τ)}
    (hs : Led names pre s) (hi : Informed initial s) (hidle : idle pre < 4) :
    ¬ TakesOver (s.nodes .second) (.other s.document.activeNodeKeepAliveTimeTag)
      (look nodeJs (s.nodes .second) (.other s.document.activeNodeKeepAliveTimeTag)) := by
  intro ht
  have hun := (hi .second).unchanged_of_takesOver (.inl rfl) ht
  obtain ⟨tag, rest, hrest⟩ := hun.suffix
  obtain ⟨old, hseen, hold⟩ := hs.looks
  rw [hseen, List.append_assoc, ← List.replicate_succ'] at hrest
  rcases List.append_eq_append_iff.mp hrest with ⟨later, rfl, hlooks⟩ | ⟨_, -, hlooks⟩
  · -- the looks before the last write are part of the stretch, yet found another tag
    have hsame : ∀ x ∈ later ++
        List.replicate (idle pre + 1) (Sight.other s.document.activeNodeKeepAliveTimeTag),
        x = .other tag := by
      intro x hx
      rw [← hlooks] at hx
      exact List.eq_of_mem_replicate hx
    have hdoc := hsame (.other s.document.activeNodeKeepAliveTimeTag)
      (List.mem_append_right _ (by simp))
    cases later with
    | nil =>
      have hlen := congrArg List.length hlooks
      simp [nodeJs] at hlen
      omega
    | cons x later =>
      obtain ⟨found, hfound, hne, -⟩ := hold x (by simp)
      have hx := hsame x (by simp)
      rw [hfound, ← hdoc] at hx
      exact hne (Sight.other.inj hx)
  · have hlen := congrArg List.length hlooks
    simp [nodeJs] at hlen
    omega

theorem led_second {pre : List (Label τ)} {s t : Cluster τ} {tag : τ}
    {initial : Side → Watch (Option τ)} (hne : names .first ≠ names .second)
    (hs : Led names pre s) (hi : Informed initial s)
    (hidle : idle (pre ++ [.poll .second tag]) < 5)
    (h : step program names s (.poll .second tag) = some t) :
    Led names (pre ++ [.poll .second tag]) t := by
  have hother : observe (names .second) s.document =
      .other s.document.activeNodeKeepAliveTimeTag := by
    refine if_neg fun heq => hne ?_
    rw [← heq, hs.named]
  rw [idle_second] at hidle
  have hnot := hs.not_takesOver hi (by omega)
  have hquiet : (look nodeJs (s.nodes .second)
      (.other s.document.activeNodeKeepAliveTimeTag)).active = false := by
    by_contra hact
    rw [Bool.not_eq_false] at hact
    exact hnot ⟨hs.second, by simp, hact⟩
  obtain rfl := step_poll h
  obtain ⟨old, hseen, hold⟩ := hs.looks
  simp only [hother, hquiet]
  refine ⟨hs.named, hs.writers, ?_, ?_, hs.stamped, hs.distinct, old, ?_, hold⟩
  · simpa using hs.first
  · simpa using hquiet
  · simp only [idle_second, Function.update_self]
    rw [hseen, List.append_assoc, List.replicate_succ']

theorem led_step {pre : List (Label τ)} {s t : Cluster τ} {a : Label τ}
    {initial : Side → Watch (Option τ)} (hne : names .first ≠ names .second)
    (hs : Led names pre s) (hi : Informed initial s) (hfresh : Fresh s a)
    (hidle : idle (pre ++ [a]) < 5) (h : step program names s a = some t) :
    Led names (pre ++ [a]) t := by
  cases a with
  | poll side tag =>
    cases side with
    | first => exact led_first hs hfresh h
    | second => exact led_second hne hs hi hidle h
  | commit i => exact led_commit hs h

omit [DecidableEq τ] in
theorem led_start {document : Instance (Option τ)} {active : Watch (Option τ)}
    (hd : document.activeNodeName = names .first) (ha : active.active = true) :
    Led names [] (start document active) where
  named := hd
  writers := by intro w hw; cases hw
  first := ha
  second := rfl
  stamped := by
    intro tag ht
    show tag ∈ document.activeNodeKeepAliveTimeTag.toList
    have htag : document.activeNodeKeepAliveTimeTag = some tag := ht
    rw [htag]
    exact List.mem_singleton_self tag
  distinct := by
    show (document.activeNodeKeepAliveTimeTag.toList ++ []).Nodup
    cases document.activeNodeKeepAliveTimeTag <;> simp
  looks := ⟨[], rfl, by intro x hx; cases hx⟩

/-- Exactly one node is active. -/
def OneActive (s : Cluster τ) : Prop :=
  (s.nodes .first).active = true ∧ (s.nodes .second).active = false

/-- A takeover at a poll: the last five looks of the node, this one included, found the
other node's name and the tag remembered before them. -/
def StaleTakeover (names : Side → String) (initial : Side → Watch (Option τ)) (side : Side)
    (s t : Cluster τ) : Prop :=
  TakesOver (s.nodes side) (observe (names side) s.document) (t.nodes side) →
    Unchanged (initial side).last 5 (t.seen side)

/-- While writes of the active node take effect between any five polls of the standby,
only the first node is ever active; and in every run whatsoever a node takes over only
after five polls in a row that found the other one named with an unchanged tag. -/
theorem standby_waits (program : Program) (names : Side → String)
    (hne : names .first ≠ names .second) {document : Instance (Option τ)}
    (hd : document.activeNodeName = names .first) {active : Watch (Option τ)}
    (ha : active.active = true) (labels : List (Label τ)) :
    (Every (step program names) Fresh (start document active) labels → Attentive labels →
        ∀ s, Visits (step program names) (start document active) labels s → OneActive s) ∧
      (∀ pre side tag post, labels = pre ++ .poll side tag :: post →
        ∀ s t, run (step program names) (start document active) pre = some s →
          step program names s (.poll side tag) = some t →
            StaleTakeover names (start document active).nodes side s t) := by
  have hinformed : ∀ as s, run (step program names) (start document active) as = some s →
      Informed (start document active).nodes s := by
    intro as s hr
    refine run_invariant (P := fun _ _ => True) (fun s a t _ hs h => informed_step hs h) ?_
      (informed_start document ha) hr
    exact every_of_forall_mem fun _ _ => trivial
  constructor
  · rintro hfresh hatt s ⟨pre, hpre, hr⟩
    have hled : pre <+: labels → Led names pre s ∧ Informed (start document active).nodes s := by
      refine run_trace_invariant (I := fun as s => as <+: labels →
        Led names as s ∧ Informed (start document active).nodes s) ?_
        (hfresh.of_isPrefix hpre) (fun _ => ⟨led_start hd ha, informed_start document ha⟩) hr
      intro as s a t hf hi h has
      obtain ⟨hl, hinf⟩ := hi ((List.prefix_append as [a]).trans has)
      exact ⟨led_step hne hl hinf hf (hatt.idle_lt has) h, informed_step hinf h⟩
    exact ⟨(hled hpre).1.first, (hled hpre).1.second⟩
  · intro pre side tag post _ s t hr h ht
    have hi := hinformed pre s hr side
    obtain rfl := step_poll h
    simp only [Function.update_self] at ht ⊢
    exact hi.unchanged_of_takesOver (.inl rfl) ht

section Example

def sampleNames : Side → String
  | .first => "A"
  | .second => "B"

def sampleStart : Cluster ℕ :=
  start { activeNodeName := "A", activeNodeKeepAliveTimeTag := some 0 } ⟨true, 0, none⟩

/-- Node A polls and writes, and node B polls on. -/
def livelyRun : List (Label ℕ) :=
  [.poll .second 1, .poll .second 2, .poll .first 3, .poll .second 4, .commit 0, .poll .second 5]

/-- Node A is gone. -/
def deadRun : List (Label ℕ) := [1, 2, 3, 4, 5, 6].map (Label.poll .second)

theorem standby_waits_sample :
    (∃ s ∈ run (step .csDataProcessor sampleNames) sampleStart livelyRun, OneActive s) ∧
      ∃ t ∈ run (step .csDataProcessor sampleNames) sampleStart deadRun,
        (t.nodes .second).active = true ∧ Unchanged none 5 (t.seen .second) := by
  constructor
  · obtain ⟨s, hs⟩ : ∃ s, run (step .csDataProcessor sampleNames) sampleStart livelyRun = some s :=
      ⟨_, rfl⟩
    have hfresh : Every (step .csDataProcessor sampleNames) Fresh sampleStart livelyRun := by
      decide
    have hatt : Attentive livelyRun := by
      intro pre seg post hseg hcount
      have hle := congrArg (List.countP isStandbyPoll) hseg
      rw [List.countP_append, List.countP_append, hcount] at hle
      have hfour : livelyRun.countP isStandbyPoll = 4 := rfl
      omega
    exact ⟨s, hs, (standby_waits .csDataProcessor sampleNames (by decide) rfl rfl livelyRun).1
      hfresh hatt s ⟨_, List.prefix_rfl, hs⟩⟩
  · obtain ⟨t, ht, hact⟩ : ∃ t, run (step .csDataProcessor sampleNames) sampleStart deadRun =
      some t ∧ (t.nodes .second).active = true := ⟨_, rfl, rfl⟩
    obtain ⟨s, hs, hstep, hover⟩ :
        ∃ s, run (step .csDataProcessor sampleNames) sampleStart deadRun.dropLast = some s ∧
          step .csDataProcessor sampleNames s (.poll .second 6) = some t ∧
            TakesOver (s.nodes .second) (observe "B" s.document) (t.nodes .second) := by
      obtain rfl := Option.some.inj ht
      exact ⟨_, rfl, rfl, rfl, by decide, rfl⟩
    exact ⟨t, ht, hact, (standby_waits .csDataProcessor sampleNames (by decide) rfl rfl deadRun).2
      deadRun.dropLast .second 6 [] rfl s t hs hstep hover⟩

end Example

end JsonScada.System.Standby
