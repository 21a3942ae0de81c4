/- path: JsonScada/System/SpontaneousQueue
   source: src/lib60870.netcore/iec104server/MongoChangeStream.cs
   digest: Which runs of the sending loop lose no object. -/

import JsonScada.Iec104Server.Spontaneous
import JsonScada.Lib.Machine

set_option autoImplicit false
set_option relaxedAutoImplicit false

namespace JsonScada.System.SpontaneousQueue

open JsonScada.Lib.Binary64 JsonScada.Lib.Machine
open JsonScada.Iec104.Objects JsonScada.Iec104.Asdu
open JsonScada.Iec104Server.Spontaneous

/-- The loop, with the objects that were given to it. -/
structure Observed where
  spooler : Spooler := {}
  given : List InfoCA := []

section Contents

/-- The objects of an ASDU, under its common address. -/
def objectsOf (a : ASDU) : List InfoCA := a.informationObjects.map fun io => ⟨io, a.ca⟩

def inHand (s : Spooler) : List InfoCA := s.assembly.elim [] fun a => objectsOf a.newAsdu

/-- What was sent, what is in hand, and what waits. -/
def contents (s : Spooler) : List InfoCA := s.sent.flatMap objectsOf ++ inHand s ++ s.infoCAQueue

/-- The objects given are sent, in hand or waiting, each once and in the order of those
of its address, under their own common address and in ASDUs of their type. -/
structure Kept (t : Observed) : Prop where
  complete : ∀ ca, (contents t.spooler).filter (·.ca = ca) = t.given.filter (·.ca = ca)
  types : ∀ a ∈ t.spooler.sent, ∀ io ∈ a.informationObjects, a.typeId = some io.type

end Contents

section Steps

variable (parameters : ApplicationLayerParameters)

/-- The ASDU in hand has the type and the address of its first object. -/
structure Wf (s : Spooler) : Prop where
  sent : ∀ a ∈ s.sent, ∀ io ∈ a.informationObjects, a.typeId = some io.type
  assembly : ∀ a ∈ s.assembly, Filled parameters a.newAsdu a.ica.io.type ∧
    a.newAsdu.ca = a.ica.ca ∧ a.newAsdu.informationObjects.length ≤ a.cnt ∧ a.cnt ≤ 30

/-- The objects that a step gives to the queue. -/
def given : Event → List InfoCA
  | .enqueue ica => [ica]
  | _ => []

def observe (t : Observed) (e : Event) : Option Observed :=
  (step parameters t.spooler e).map fun s => { spooler := s, given := t.given ++ given e }

/-- An object that continues the ASDU in hand still fits in it. -/
def Fits (t : Observed) : Event → Prop
  | .extend =>
    ∀ a ∈ t.spooler.assembly, ∀ ica2 ∈ t.spooler.infoCAQueue.head?, a.continues ica2 = true →
      (a.newAsdu.informationObjects.length + 1) * objectSize parameters ica2.io.type ≤
        room parameters
  | _ => True

variable {parameters}

/-- What a first object does. -/
theorem start_spec {s : Spooler} (h : Wf parameters s) (hnone : s.assembly = none) {ica : InfoCA}
    {rest : List InfoCA} (hqueue : s.infoCAQueue = ica :: rest) :
    ∃ t, start parameters ica rest s = some t ∧ Wf parameters t ∧ t.sent = s.sent ∧
      contents t = contents s := by
  obtain ⟨a, hadd, hfilled, hobjects, -, hca⟩ := @add_first parameters SPONTANEOUS ica.ca ica.io
  refine ⟨{ s with infoCAQueue := rest, assembly := some { ica := ica, newAsdu := a } }, ?_, ?_,
    rfl, ?_⟩
  · rw [start, hadd]
    rfl
  · refine ⟨h.sent, ?_⟩
    rintro _ ⟨⟩
    exact ⟨hfilled, hca, by simp [hobjects], by norm_num⟩
  · simp [contents, inHand, hnone, hqueue, objectsOf, hobjects, hca]

/-- What a further object does: it is added, or dropped where it does not fit. -/
theorem extend_spec {s : Spooler} (h : Wf parameters s) {a : Assembly}
    (hsome : s.assembly = some a) {ica2 : InfoCA} {rest : List InfoCA}
    (hcontinues : a.continues ica2 = true) :
    ∃ t, extend parameters ica2 rest a s = some t ∧ Wf parameters t ∧ t.sent = s.sent ∧
      contents t = s.sent.flatMap objectsOf ++ inHand s ++
        ((if (a.newAsdu.informationObjects.length + 1) * objectSize parameters ica2.io.type ≤
          room parameters then [ica2] else []) ++ rest) := by
  obtain ⟨hfilled, hca, hlength, hcnt⟩ := h.assembly a hsome
  obtain ⟨hsameca, hsametype, hshort⟩ := of_decide_eq_true hcontinues
  rw [← hsametype] at hfilled
  have hadd := add_filled hfilled (by omega)
  rw [extend, if_pos hcontinues, hadd]
  refine ⟨_, rfl, ⟨h.sent, ?_⟩, rfl, ?_⟩
  · rintro _ ⟨⟩
    dsimp only
    rw [← hsametype]
    split_ifs with hfit
    · exact ⟨hfilled.add hfit, hca, by simp [push]; omega, by omega⟩
    · exact ⟨hfilled, hca, Nat.le_succ_of_le hlength, hshort⟩
  · split_ifs with hfit
    · have hsame : (⟨ica2.io, a.newAsdu.ca⟩ : InfoCA) = ica2 := by rw [hca, ← hsameca]
      simp [contents, inHand, hsome, objectsOf, push, hsame]
    · simp [contents, inHand, hsome]

theorem finish_spec {s t : Spooler} (h : Wf parameters s) {a : Assembly}
    (hsome : s.assembly = some a) (hfinish : finish a s = some t) :
    Wf parameters t ∧ contents t = contents s := by
  unfold finish at hfinish
  split_ifs at hfinish
  cases hfinish
  obtain ⟨hfilled, -⟩ := h.assembly a hsome
  refine ⟨⟨?_, by simp⟩, by simp [contents, inHand, hsome]⟩
  intro b hb io hio
  rcases List.mem_append.mp hb with hb | hb
  · exact h.sent b hb io hio
  · rw [List.mem_singleton.mp hb] at hio ⊢
    rw [hfilled.typeId, hfilled.types io hio]

/-- What a step that happens was. -/
theorem step_cases {s t : Spooler} {e : Event} (h : step parameters s e = some t) :
    (∃ ica, e = .enqueue ica ∧ t = { s with infoCAQueue := s.infoCAQueue ++ [ica] }) ∨
    (∃ ica rest, e = .start ∧ s.assembly = none ∧ s.infoCAQueue = ica :: rest ∧
      start parameters ica rest s = some t) ∨
    (∃ a ica2 rest, e = .extend ∧ s.assembly = some a ∧ s.infoCAQueue = ica2 :: rest ∧
      a.continues ica2 = true ∧ extend parameters ica2 rest a s = some t) ∨
    ∃ a, e = .finish ∧ s.assembly = some a ∧ finish a s = some t := by
  cases e with
  | enqueue ica =>
    cases h
    exact .inl ⟨ica, rfl, rfl⟩
  | start =>
    right; left
    rcases hsome : s.assembly with _ | a
    · rcases hqueue : s.infoCAQueue with _ | ⟨ica, rest⟩
      · simp [step, hsome, hqueue] at h
      · simp only [step, hsome, hqueue] at h
        exact ⟨ica, rest, rfl, rfl, rfl, h⟩
    · simp [step, hsome] at h
  | extend =>
    right; right; left
    rcases hsome : s.assembly with _ | a
    · simp [step, hsome] at h
    · rcases hqueue : s.infoCAQueue with _ | ⟨ica2, rest⟩
      · simp [step, hsome, hqueue] at h
      · simp only [step, hsome, hqueue] at h
        refine ⟨a, ica2, rest, rfl, rfl, rfl, ?_, h⟩
        by_contra hne
        rw [extend, if_neg hne] at h
        cases h
  | finish =>
    obtain ⟨a, hsome, hfinish⟩ := Option.bind_eq_some_iff.mp h
    exact .inr (.inr (.inr ⟨a, rfl, hsome, hfinish⟩))

theorem observe_eq_some {t u : Observed} {e : Event} (h : observe parameters t e = some u) :
    step parameters t.spooler e = some u.spooler ∧ u.given = t.given ++ given e := by
  obtain ⟨s, hs, rfl⟩ := Option.map_eq_some_iff.mp h
  exact ⟨hs, rfl⟩

theorem wf_step {t u : Observed} (h : Wf parameters t.spooler) {e : Event}
    (hstep : observe parameters t e = some u) : Wf parameters u.spooler := by
  obtain ⟨hs, -⟩ := observe_eq_some hstep
  rcases step_cases hs with ⟨ica, -, heq⟩ | ⟨ica, rest, -, hnone, hqueue, heq⟩ |
    ⟨a, ica2, rest, -, hsome, -, hcontinues, heq⟩ | ⟨a, -, hsome, heq⟩
  · rw [heq]
    exact ⟨h.sent, h.assembly⟩
  · obtain ⟨v, hv, hwf, -⟩ := start_spec h hnone hqueue
    rw [heq] at hv
    cases hv
    exact hwf
  · obtain ⟨v, hv, hwf, -⟩ := @extend_spec parameters _ h a hsome ica2 rest hcontinues
    rw [heq] at hv
    cases hv
    exact hwf
  · exact (finish_spec h hsome heq).1

/-- Where nothing but what is given comes to the contents, what was kept is kept. -/
theorem Kept.of_contents {t u : Observed} (h : Kept t) (hwf : Wf parameters u.spooler)
    {more : List InfoCA} (hcontents : contents u.spooler = contents t.spooler ++ more)
    (hgiven : u.given = t.given ++ more) : Kept u := by
  refine ⟨fun ca => ?_, hwf.sent⟩
  rw [hcontents, hgiven, List.filter_append, List.filter_append, h.complete]

/-- An object that was dropped is missed under its address. -/
theorem not_kept_of_dropped {t u : Observed} (h : Kept t) {before after : List InfoCA}
    {ica : InfoCA} (hbefore : contents t.spooler = before ++ ica :: after)
    (hafter : contents u.spooler = before ++ after) (hgiven : u.given = t.given) : ¬Kept u := by
  intro hkept
  have hsame := hkept.complete ica.ca
  rw [hgiven, ← h.complete, hbefore, hafter] at hsame
  have hlength := congrArg List.length hsame
  simp at hlength

/-- A step keeps what was kept just when the object it takes fits. -/
theorem kept_step {t u : Observed} (h : Wf parameters t.spooler) (hkept : Kept t) {e : Event}
    (hstep : observe parameters t e = some u) : Kept u ↔ Fits parameters t e := by
  have hwf := wf_step h hstep
  obtain ⟨hs, hgiven⟩ := observe_eq_some hstep
  rcases step_cases hs with ⟨ica, rfl, heq⟩ | ⟨ica, rest, rfl, hnone, hqueue, heq⟩ |
    ⟨a, ica2, rest, rfl, hsome, hqueue, hcontinues, heq⟩ | ⟨a, rfl, hsome, heq⟩
  · refine iff_of_true (hkept.of_contents hwf ?_ hgiven) trivial
    rw [heq]
    simp [contents, inHand, given]
  · obtain ⟨v, hv, -, -, hcontents⟩ := start_spec h hnone hqueue
    rw [heq] at hv
    cases hv
    exact iff_of_true (hkept.of_contents hwf (by simpa [given] using hcontents) hgiven) trivial
  · obtain ⟨v, hv, -, -, hcontents⟩ := @extend_spec parameters _ h a hsome ica2 rest hcontinues
    rw [heq] at hv
    cases hv
    have hbefore : contents t.spooler =
        t.spooler.sent.flatMap objectsOf ++ inHand t.spooler ++ ica2 :: rest := by
      rw [contents, hqueue]
    have hiff : Fits parameters t .extend ↔ (a.newAsdu.informationObjects.length + 1) *
        objectSize parameters ica2.io.type ≤ room parameters := by
      simp [Fits, hsome, hqueue, hcontinues]
    rw [hiff]
    split_ifs at hcontents with hfit
    · refine iff_of_true (hkept.of_contents hwf ?_ hgiven) hfit
      rw [hcontents, hbefore]
      simp [given]
    · refine iff_of_false (not_kept_of_dropped hkept hbefore (by simpa using hcontents) ?_) hfit
      simpa [given] using hgiven
  · obtain ⟨-, hcontents⟩ := finish_spec h hsome heq
    exact iff_of_true (hkept.of_contents hwf (by simpa [given] using hcontents) hgiven) trivial

theorem fits_of_stuck {t : Observed} (h : Wf parameters t.spooler) {e : Event}
    (hstep : observe parameters t e = none) : Fits parameters t e := by
  cases e with
  | extend =>
    intro a ha ica2 hica2 hcontinues
    obtain ⟨rest, hqueue⟩ : ∃ rest, t.spooler.infoCAQueue = ica2 :: rest :=
      ⟨_, (List.head?_eq_some_iff.mp hica2).choose_spec⟩
    obtain ⟨u, hu, -⟩ := @extend_spec parameters _ h a ha ica2 rest hcontinues
    have hext : step parameters t.spooler .extend = some u := by
      rw [← hu]
      simp only [step, Option.mem_def.mp ha, hqueue]
    rw [observe, hext] at hstep
    cases hstep
  | _ => trivial

end Steps

section Runs

variable {parameters : ApplicationLayerParameters}

/-- The steps of the sending loop. -/
def Sending : Event → Prop
  | .enqueue _ => False
  | _ => True

/-- Nothing waits and nothing is in hand. -/
def Drained (s : Spooler) : Prop := s.infoCAQueue = [] ∧ s.assembly = none

/-- How many sending steps are left at most. -/
def work (s : Spooler) : ℕ := 2 * s.infoCAQueue.length + s.assembly.elim 0 fun _ => 1

/-- Unless all is sent, the loop takes a step, which leaves it less to do. -/
theorem exists_sending {s : Spooler} (h : Wf parameters s) (hleft : ¬Drained s) :
    ∃ e, Sending e ∧ ∃ t, step parameters s e = some t ∧ work t < work s := by
  rcases hsome : s.assembly with _ | a
  · rcases hqueue : s.infoCAQueue with _ | ⟨ica, rest⟩
    · exact absurd ⟨hqueue, hsome⟩ hleft
    · obtain ⟨t, ht, -⟩ := start_spec h hsome hqueue
      refine ⟨.start, trivial, t, by simpa only [step, hsome, hqueue] using ht, ?_⟩
      obtain ⟨added, -, rfl⟩ := Option.map_eq_some_iff.mp ht
      simp only [work, hsome, hqueue, Option.elim_some, Option.elim_none, List.length_cons]
      omega
  · by_cases hnext : s.infoCAQueue.head?.any a.continues = true
    · obtain ⟨ica2, rest, hqueue⟩ : ∃ ica2 rest, s.infoCAQueue = ica2 :: rest := by
        rcases hqueue : s.infoCAQueue with _ | ⟨ica2, rest⟩
        · simp [hqueue] at hnext
        · exact ⟨ica2, rest, rfl⟩
      have hcontinues : a.continues ica2 = true := by simpa [hqueue] using hnext
      obtain ⟨t, ht, -⟩ := @extend_spec parameters s h a hsome ica2 rest hcontinues
      refine ⟨.extend, trivial, t, by simpa only [step, hsome, hqueue] using ht, ?_⟩
      rw [extend, if_pos hcontinues] at ht
      obtain ⟨added, -, rfl⟩ := Option.map_eq_some_iff.mp ht
      simp only [work, hsome, hqueue, Option.elim_some, List.length_cons]
      omega
    · refine ⟨.finish, trivial, _, by rw [step, hsome, Option.bind_some, finish, if_neg hnext], ?_⟩
      simp only [work, hsome, Option.elim_some, Option.elim_none]
      omega

/-- The loop can always go on until all that was given is out of its hands. -/
theorem exists_drained {n : ℕ} {t : Observed} (h : Wf parameters t.spooler)
    (hn : work t.spooler ≤ n) :
    ∃ more, (∀ e ∈ more, Sending e) ∧
      ∃ u, run (observe parameters) t more = some u ∧ Drained u.spooler := by
  induction n generalizing t with
  | zero =>
    refine ⟨[], by simp, t, rfl, ?_⟩
    by_contra hleft
    obtain ⟨e, -, u, -, hless⟩ := exists_sending h hleft
    omega
  | succ n ih =>
    by_cases hleft : Drained t.spooler
    · exact ⟨[], by simp, t, rfl, hleft⟩
    · obtain ⟨e, hsending, v, hv, hless⟩ := exists_sending h hleft
      have hobserve : observe parameters t e = some ⟨v, t.given ++ given e⟩ := by
        rw [observe, hv, Option.map_some]
      obtain ⟨more, hmore, u, hu, hdrained⟩ := ih (wf_step h hobserve) (by dsimp only; omega)
      refine ⟨e :: more, ?_, u, run_cons_eq_some.mpr ⟨_, hobserve, hu⟩, hdrained⟩
      intro e' he'
      rcases List.mem_cons.mp he' with rfl | he'
      · exact hsending
      · exact hmore e' he'

theorem wf_start : Wf parameters ({} : Observed).spooler :=
  ⟨fun _ h => (by cases h), fun _ h => (by cases h)⟩

theorem kept_start : Kept {} := ⟨fun _ => rfl, fun _ h => (by cases h)⟩

/-- All that is given stays in the contents just when no object is taken that does not fit
in the ASDU in hand; and the contents always can be sent. -/
theorem kept_iff_fits (events : List Event) :
    ((∀ t, Visits (observe parameters) {} events t → Kept t) ↔
      Every (observe parameters) (Fits parameters) {} events) ∧
    ∀ t, Visits (observe parameters) {} events t →
      ∃ more, (∀ e ∈ more, Sending e) ∧
        ∃ u, run (observe parameters) t more = some u ∧ Drained u.spooler := by
  have hall : Every (observe parameters) (fun _ _ => True) {} events :=
    every_of_forall_mem fun _ _ => trivial
  constructor
  · refine visits_iff_every (A := fun _ _ => True) (J := fun t => Wf parameters t.spooler) ?_ ?_
      hall wf_start kept_start
    · intro t e u _ hwf hstep
      exact ⟨wf_step hwf hstep, fun hkept => kept_step hwf hkept hstep⟩
    · intro t e hwf hstep
      exact fits_of_stuck hwf hstep
  · intro t hvisits
    have hwf : Wf parameters t.spooler :=
      visits_invariant (P := fun _ _ => True) (I := fun t : Observed => Wf parameters t.spooler)
        (fun _ _ _ _ h hstep => wf_step h hstep) hall wf_start hvisits
    exact exists_drained hwf (Nat.le_refl _)

end Runs

section Examples

def standard : ApplicationLayerParameters := .standard

/-- A short floating point value with its time, of one station. -/
def measured (address : ℤ) : InfoCA where
  io := { type := .M_ME_TF_1, objectAddress := address, content := .short (.fin 1),
          timestamp := some { time := 0 } }
  ca := 1

/-- Seventeen values are given and sent. -/
def seventeen : List Event :=
  ((List.range 17).map fun i => .enqueue (measured i)) ++ .start :: List.replicate 16 .extend ++
    [.finish]

/-- Sixteen of seventeen values go out: the seventeenth is dropped. -/
theorem seventeenth_dropped :
    ∃ t, run (observe standard) {} seventeen = some t ∧ Drained t.spooler ∧
      t.spooler.sent.map (fun a => a.informationObjects.length) = [16] ∧ ¬Kept t := by
  have hrun : ∃ t ∈ run (observe standard) {} seventeen,
      (t.spooler.infoCAQueue = [] ∧ t.spooler.assembly.isNone) ∧
      t.spooler.sent.map (fun a => a.informationObjects.length) = [16] ∧
      (contents t.spooler).filter (·.ca = 1) ≠ t.given.filter (·.ca = 1) := by
    decide +kernel
  obtain ⟨t, ht, ⟨hqueue, hnone⟩, hsent, hne⟩ := hrun
  refine ⟨t, ht, ⟨hqueue, Option.isNone_iff_eq_none.mp hnone⟩, hsent, ?_⟩
  intro hkept
  exact hne (hkept.complete 1)

end Examples

end JsonScada.System.SpontaneousQueue
