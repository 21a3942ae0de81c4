/- path: JsonScada/System/ResumeToken
   source: src/cs_data_processor/cs_data_processor.js, resumeToken, watch, and the stream's handlers
   digest: After which failures of its connection the processor resumes where it was. -/

import Mathlib.Algebra.Order.Group.Nat
import Mathlib.Data.List.Basic
import Mathlib.Tactic.ByContra
import JsonScada.Lib.Machine
import JsonScada.Processor.ChangeStream

set_option autoImplicit false
set_option relaxedAutoImplicit false

namespace JsonScada.System.ResumeToken

open JsonScada.Lib.Machine JsonScada.Processor.ChangeStream

/-- The changes of the collection are numbered, and a number is the token of its change. The
stream stands behind the change `position`; `failed` is set between 'error' and 'close', and
`failures` counts the connections that have failed since the last change. -/
structure Follower where
  connection : Connection ℕ := {}
  written : ℕ
  position : ℕ := 0
  handled : List ℕ := []
  failed : Bool := false
  failures : ℕ := 0
  deriving DecidableEq

/-- A change made in the collection, a connection with its watch, and calls of the handlers. -/
inductive Label where
  | write
  | watch
  | change
  | error
  | close
  | ended
  deriving DecidableEq

def start (written : ℕ) : Follower := { written := written }

/-- A connection that fails calls the handler of 'error' and next the one of 'close'. One may
close without an error as well. -/
def step (s : Follower) : Label → Option Follower
  | .write => some { s with written := s.written + 1 }
  | .watch =>
    if s.failed then none else s.connection.connect.map fun (c, resumeAfter) =>
      -- without a token the stream begins with the changes to come
      { s with connection := c, position := resumeAfter.getD s.written }
  | .change =>
    if s.failed || !s.connection.clientMongo || s.written ≤ s.position then none
    else some { s with
      connection := s.connection.onChange (s.position + 1)
      position := s.position + 1
      handled := s.handled ++ [s.position + 1]
      failures := 0 }
  | .error =>
    if s.failed || !s.connection.clientMongo then none
    else some { s with
      connection := s.connection.onError, failed := true, failures := s.failures + 1 }
  | .close =>
    if s.failed then some { s with connection := s.connection.onClose, failed := false }
    else if s.connection.clientMongo then
      some { s with connection := s.connection.onClose, failures := s.failures + 1 }
    else none
  | .ended =>
    if s.failed || !s.connection.clientMongo then none
    else some { s with connection := s.connection.onEnd }

/-- The token is that of the last change handled, and the stream stands behind that change,
unless two connections have failed since. -/
structure Resumes (s : Follower) : Prop where
  token : s.connection.resumeToken = s.handled.getLast? ∨ 2 ≤ s.failures
  position : ∀ n ∈ s.handled.getLast?, s.position = n ∨ 2 ≤ s.failures

/-- When 'close' follows an 'error', no token is stored. -/
def NoToken (s : Follower) : Label → Prop
  | .close => s.failed = true → s.connection.resumeToken = none
  | _ => True

/-- What every run keeps. A stored token is that of the last change. It differs from the
previous one until a connection fails, and between 'error' and 'close' it is the same. -/
structure Known (s : Follower) : Prop where
  stored : ∀ n ∈ s.connection.resumeToken, s.position = n ∧ s.handled.getLast? = some n
  prev : ∀ p ∈ s.connection.prevResumeToken, ∃ n ∈ s.connection.resumeToken, p ≤ n
  fresh : s.connection.resumeToken ≠ s.connection.prevResumeToken → s.failures = 0
  same : s.connection.resumeToken ≠ none →
    s.connection.resumeToken = s.connection.prevResumeToken → 1 ≤ s.failures
  failing : s.failed = true →
    s.connection.resumeToken = s.connection.prevResumeToken ∧
      (s.connection.resumeToken ≠ none → s.failures = 1)

theorem known_start (written : ℕ) : Known (start written) where
  stored n hn := by cases hn
  prev p hp := by cases hp
  fresh h := absurd rfl h
  same h := absurd rfl h
  failing h := by cases h

theorem resumes_start (written : ℕ) : Resumes (start written) where
  token := Or.inl rfl
  position n hn := by cases hn

variable {s t : Follower}

/-- With its token stored the stream stands behind the last change. -/
theorem Known.resumes_iff (h : Known s) :
    Resumes s ↔ s.connection.resumeToken = s.handled.getLast? ∨ 2 ≤ s.failures := by
  refine ⟨Resumes.token, fun htoken => ⟨htoken, fun n hn => ?_⟩⟩
  rcases htoken with htoken | htwo
  · have hn' : n ∈ s.connection.resumeToken := by rwa [htoken]
    exact Or.inl (h.stored n hn').1
  · exact Or.inr htwo

/-- A handler that keeps the token or drops it leaves what is known. -/
theorem known_release (h : Known s) {failed : Bool} {failures : ℕ}
    (hcount : s.connection.resumeToken ≠ s.connection.prevResumeToken → failures = 1) :
    Known { s with
      connection := s.connection.release, failed := failed, failures := failures } := by
  by_cases hsame : s.connection.resumeToken = s.connection.prevResumeToken
  · have hnone : s.connection.release.resumeToken = none := Connection.release_of_same hsame
    refine ⟨fun n hn => ?_, fun p hp => ?_, fun hne => absurd rfl hne, fun hstored => ?_, fun _ => ?_⟩
    · rw [hnone] at hn
      cases hn
    · have hp' : p ∈ s.connection.release.resumeToken := hp
      exact ⟨p, hp', le_rfl⟩
    · exact absurd hnone hstored
    · exact ⟨rfl, fun hstored => absurd hnone hstored⟩
  · have hkept : s.connection.release.resumeToken = s.connection.resumeToken :=
      Connection.release_of_ne hsame
    refine ⟨fun n hn => ?_, fun p hp => ?_, fun hne => absurd rfl hne, fun _ _ => ?_, fun _ => ?_⟩
    · rw [hkept] at hn
      exact h.stored n hn
    · have hp' : p ∈ s.connection.release.resumeToken := hp
      exact ⟨p, hp', le_rfl⟩
    · exact (hcount hsame).ge
    · exact ⟨rfl, fun _ => hcount hsame⟩

/-- The first handler of a failure drops a token only if a connection has failed before. -/
theorem resumes_release (h : Known s) (hres : Resumes s) {failed : Bool} :
    Resumes { s with
      connection := s.connection.release, failed := failed, failures := s.failures + 1 } := by
  have hknown : Known { s with
      connection := s.connection.release, failed := failed, failures := s.failures + 1 } :=
    known_release h fun hne => by rw [h.fresh hne]
  rw [hknown.resumes_iff]
  by_cases hsame : s.connection.resumeToken = s.connection.prevResumeToken
  · have hnone : s.connection.release.resumeToken = none := Connection.release_of_same hsame
    by_cases hstored : s.connection.resumeToken = none
    · rcases hres.token with htoken | htwo
      · exact Or.inl (hnone.trans (hstored.symm.trans htoken))
      · exact Or.inr (Nat.le_succ_of_le htwo)
    · exact Or.inr (Nat.succ_le_succ (h.same hstored hsame))
  · rcases hres.token with htoken | htwo
    · exact Or.inl ((Connection.release_of_ne hsame).trans htoken)
    · exact Or.inr (Nat.le_succ_of_le htwo)

/-- The 'close' after an 'error' leaves no token, so there must have been none. -/
theorem close_after_error (h : Known s) (hfailed : s.failed = true) (hres : Resumes s) :
    let t := { s with connection := s.connection.release, failed := false }
    Known t ∧ (Resumes t ↔ s.connection.resumeToken = none) := by
  intro t
  obtain ⟨hsame, hone⟩ := h.failing hfailed
  have hknown : Known t := known_release h fun hne => absurd hsame hne
  have hnone : t.connection.resumeToken = none := Connection.release_of_same hsame
  refine ⟨hknown, ?_⟩
  rw [hknown.resumes_iff]
  constructor
  · intro htoken
    by_contra hstored
    obtain ⟨n, hn⟩ := Option.ne_none_iff_exists'.mp hstored
    have hlast : t.handled.getLast? = some n := (h.stored n hn).2
    have htwo : t.failures = 1 := hone hstored
    rw [hnone, hlast] at htoken
    rcases htoken with htoken | htoken
    · cases htoken
    · omega
  · intro hstored
    rcases hres.token with htoken | htwo
    · exact Or.inl (hnone.trans (hstored.symm.trans htoken))
    · exact Or.inr htwo

/-- What one step does to what is known, and when the token stays good. -/
theorem known_step {a : Label} (h : Known s) (hstep : step s a = some t) :
    Known t ∧ (Resumes s → (Resumes t ↔ NoToken s a)) := by
  cases a with
  | write =>
    obtain rfl := Option.some.inj hstep
    refine ⟨⟨h.stored, h.prev, h.fresh, h.same, h.failing⟩, fun hres => ?_⟩
    exact iff_of_true ⟨hres.token, hres.position⟩ trivial
  | watch =>
    rw [step] at hstep
    split_ifs at hstep with hfailed
    obtain ⟨⟨c, resumeAfter⟩, hc, rfl⟩ := Option.map_eq_some_iff.mp hstep
    rw [Connection.connect] at hc
    split_ifs at hc with hclient
    obtain ⟨rfl, rfl⟩ : { s.connection with clientMongo := true } = c ∧
        s.connection.resumeToken = resumeAfter := by simpa using hc
    have hknown : Known { s with
        connection := { s.connection with clientMongo := true }
        position := s.connection.resumeToken.getD s.written } := by
      refine ⟨fun n hn => ⟨?_, (h.stored n hn).2⟩, h.prev, h.fresh, h.same, h.failing⟩
      have hn' : s.connection.resumeToken = some n := hn
      simp [hn']
    refine ⟨hknown, fun hres => iff_of_true ?_ trivial⟩
    exact hknown.resumes_iff.mpr hres.token
  | change =>
    rw [step] at hstep
    split_ifs at hstep with hguard
    obtain rfl := Option.some.inj hstep
    have hfailed : s.failed = false := by simp_all
    have hlast : (s.handled ++ [s.position + 1]).getLast? = some (s.position + 1) :=
      List.getLast?_concat
    have hprev : ∀ p ∈ s.connection.prevResumeToken, p ≤ s.position := by
      intro p hp
      obtain ⟨n, hn, hle⟩ := h.prev p hp
      exact hle.trans (h.stored n hn).1.ge
    have hknown : Known { s with
        connection := s.connection.onChange (s.position + 1)
        position := s.position + 1
        handled := s.handled ++ [s.position + 1]
        failures := 0 } := by
      refine ⟨fun n hn => ?_, fun p hp => ?_, fun _ => rfl, fun _ hsame => ?_, fun hf => ?_⟩
      · obtain rfl : s.position + 1 = n := Option.some.inj hn
        exact ⟨rfl, hlast⟩
      · exact ⟨_, rfl, (hprev p hp).trans (Nat.le_succ _)⟩
      · have hle := hprev (s.position + 1) hsame.symm
        omega
      · rw [hfailed] at hf
        cases hf
    refine ⟨hknown, fun _ => iff_of_true ?_ trivial⟩
    exact hknown.resumes_iff.mpr (Or.inl hlast.symm)
  | error =>
    rw [step] at hstep
    split_ifs at hstep with hguard
    obtain rfl := Option.some.inj hstep
    refine ⟨known_release h fun hne => by rw [h.fresh hne], fun hres => iff_of_true ?_ trivial⟩
    exact resumes_release h hres
  | close =>
    rw [step] at hstep
    split_ifs at hstep with hfailed hclient
    · obtain rfl := Option.some.inj hstep
      refine ⟨known_release h fun hne => absurd (h.failing hfailed).1 hne, fun hres => ?_⟩
      rw [NoToken, forall_prop_of_true hfailed]
      exact (close_after_error h hfailed hres).2
    · obtain rfl := Option.some.inj hstep
      refine ⟨known_release h fun hne => by rw [h.fresh hne], fun hres => iff_of_true ?_ ?_⟩
      · exact resumes_release h hres
      · exact fun hf => absurd hf hfailed
  | ended =>
    rw [step] at hstep
    split_ifs at hstep with hguard
    obtain rfl := Option.some.inj hstep
    refine ⟨⟨h.stored, h.prev, h.fresh, h.same, h.failing⟩, fun hres => ?_⟩
    exact iff_of_true ⟨hres.token, hres.position⟩ trivial

theorem noToken_of_stuck {a : Label} (h : step s a = none) : NoToken s a := by
  cases a with
  | close =>
    intro hfailed
    rw [step, if_pos hfailed] at h
    cases h
  | _ => trivial

/-- Over a whole run, whatever the order of changes, failures, ends and reconnections: the
token is only lost after two failures in a row exactly where no connection fails by error
and close while a token is stored. -/
theorem resumes_iff_noToken (written : ℕ) (as : List Label) :
    (∀ t, Visits step (start written) as t → Resumes t) ↔
      Every step NoToken (start written) as := by
  refine visits_iff_every (A := fun _ _ => True) (J := Known) ?_ (fun s a _ => noToken_of_stuck) ?_
    (known_start written) (resumes_start written)
  · exact fun s a t _ hk hstep => known_step hk hstep
  · exact every_of_forall_mem fun _ _ => trivial

/-- One failure after one change, and the change made meanwhile is never handled. -/
theorem one_failure_skips :
    ∃ t ∈ run step (start 0) [.watch, .write, .change, .error, .close, .write, .watch],
      t.failures = 1 ∧ t.connection.resumeToken = none ∧ t.handled = [1] ∧ t.position = 2 ∧
        ¬ Resumes t := by
  refine ⟨_, rfl, rfl, rfl, rfl, rfl, ?_⟩
  intro h
  rcases h.token with htoken | htwo
  · cases htoken
  · exact absurd htwo (by decide)

end JsonScada.System.ResumeToken
