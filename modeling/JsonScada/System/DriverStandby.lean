/- path: JsonScada/System/DriverStandby
   source: src/calculations/calculations.go, src/i104m/i104m.go,
     src/lib60870.netcore/iec104client/Redundancy.cs, src/iccp/iccp-server/config.go
   digest: A standby driver counts stale keep-alives, and takes over on five of them. -/

import JsonScada.Lib.Machine
import JsonScada.Redundancy.Poll

set_option autoImplicit false
set_option relaxedAutoImplicit false

namespace JsonScada.System.DriverStandby

open JsonScada.Lib.Machine JsonScada.Lib.Watchdog JsonScada.Redundancy.Poll

/-- The loop polls the document again and again; a poll that ends the process ends
the run. -/
def step (d : Driver) (nodeName : String) (node : Watch Time) (inst : Instance Time) :
    Option (Watch Time) :=
  (d.processRedundancy nodeName (some inst) node).node

variable {d : Driver} {nodeName : String}

theorem step_cases {w w' : Watch Time} {inst : Instance Time}
    (h : step d nodeName w inst = some w') : w' = look d.policy w (observe nodeName inst) := by
  unfold step at h
  rcases d.processRedundancy_found nodeName inst w with hexit | hlook
  · rw [hexit] at h
    cases h
  · rw [hlook] at h
    exact (Option.some.inj h).symm

/-- The poll either ends the process, or finds a changed tag only while no keep-alive
has been missed. -/
def SettledPoll (d : Driver) (nodeName : String) (w : Watch Time) (inst : Instance Time) : Prop :=
  (step d nodeName w inst).isSome → Settled w (observe nodeName inst)

instance (w : Watch Time) (inst : Instance Time) : Decidable (SettledPoll d nodeName w inst) := by
  unfold SettledPoll; infer_instance

/-- A takeover follows five polls in a row that found another node and the tag
remembered before them, and a changed tag starts the count over. -/
def StaleTakeover (nodeName : String) (pre : List (Instance Time)) (w w' : Watch Time)
    (inst : Instance Time) : Prop :=
  (TakesOver w (observe nodeName inst) w' →
      Unchanged 0 5 ((pre ++ [inst]).map (observe nodeName))) ∧
    (Changed w (observe nodeName inst) → w'.count = 0)

/-- What the node knows after the polls so far. -/
def Knows (d : Driver) (nodeName : String) (polls : List (Instance Time)) (w : Watch Time) :
    Prop :=
  Watching d.policy 0 (polls.map (observe nodeName)) w

theorem knows_step {pre : List (Instance Time)} {w w' : Watch Time} {inst : Instance Time}
    (hs : SettledPoll d nodeName w inst) (hk : Knows d nodeName pre w)
    (h : step d nodeName w inst = some w') : Knows d nodeName (pre ++ [inst]) w' := by
  have hsettled : Settled w (observe nodeName inst) := hs (by rw [h]; rfl)
  obtain rfl := step_cases h
  unfold Knows
  rw [List.map_append]
  exact Watching.look hk (.inr hsettled)

theorem staleTakeover_step {pre : List (Instance Time)} {w w' : Watch Time} {inst : Instance Time}
    (hk : Knows d nodeName pre w) (h : step d nodeName w inst = some w') :
    StaleTakeover nodeName pre w w' inst ↔ Settled w (observe nodeName inst) := by
  obtain rfl := step_cases h
  have hcount : Changed w (observe nodeName inst) →
      ((look d.policy w (observe nodeName inst)).count = 0 ↔ w.held = 0) := by
    intro hc
    rw [Watching.count_eq_zero_iff hk hc, d.changeResets]
    simp
  constructor
  · intro hst hc
    exact (hcount hc).mp (hst.2 hc)
  · intro hs
    refine ⟨fun ht => ?_, fun hc => (hcount hc).mpr (hs hc)⟩
    have hun := Watching.unchanged_of_takesOver hk (.inr hs) ht
    rw [d.limit] at hun
    rw [List.map_append]
    exact hun

theorem knows_start : Knows d nodeName [] (Watch.start 0) := watching_start d.policy 0

/-- In every run of the loop: all takeovers follow five stale polls in a row and all
changed tags start the count over, just when every changed tag is found while no
keep-alive has been missed. -/
theorem stale_takeover_iff_settled (d : Driver) (nodeName : String)
    (polls : List (Instance Time)) :
    (∀ pre inst post, polls = pre ++ inst :: post → ∀ w w',
        run (step d nodeName) (Watch.start 0) pre = some w → step d nodeName w inst = some w' →
          StaleTakeover nodeName pre w w' inst) ↔
      Every (step d nodeName) (SettledPoll d nodeName) (Watch.start 0) polls := by
  constructor
  · intro hall
    -- the polls already judged are settled, and so the node knows what it has seen
    have main : ∀ (rest pre : List (Instance Time)) (w : Watch Time), polls = pre ++ rest →
        run (step d nodeName) (Watch.start 0) pre = some w → Knows d nodeName pre w →
          Every (step d nodeName) (SettledPoll d nodeName) w rest := by
      intro rest
      induction rest with
      | nil => intros; trivial
      | cons inst rest ih =>
        intro pre w hp hr hk
        have hs : SettledPoll d nodeName w inst := by
          intro hsome
          obtain ⟨w', h⟩ := Option.isSome_iff_exists.mp hsome
          exact (staleTakeover_step hk h).mp (hall pre inst rest hp w w' hr h)
        refine ⟨hs, fun w' h => ?_⟩
        refine ih (pre ++ [inst]) w' ?_ ?_ (knows_step hs hk h)
        · rw [hp, List.append_assoc]
          rfl
        · rw [run_append, hr]
          show run (step d nodeName) w [inst] = some w'
          rw [run_cons_eq_some]
          exact ⟨w', h, rfl⟩
    exact main polls [] (Watch.start 0) rfl rfl knows_start
  · intro hsettled pre inst post hp w w' hr h
    subst hp
    have hpre : Every (step d nodeName) (SettledPoll d nodeName) (Watch.start 0) pre :=
      hsettled.of_isPrefix (List.prefix_append _ _)
    have hk : Knows d nodeName pre w :=
      run_trace_invariant (fun _ _ _ _ hs hk h => knows_step hs hk h) hpre knows_start hr
    have hs : SettledPoll d nodeName w inst := by
      obtain ⟨-, hrest⟩ := every_append.mp hsettled
      exact (hrest w hr).1
    exact (staleTakeover_step hk h).mpr (hs (by rw [h]; rfl))

section Example

/-- Every second keep-alive of node A comes too late for the poll of node B. -/
def isolatedMisses : List (Instance Time) :=
  [1, 1, 2, 2, 3, 3, 4, 4, 5, 5].map fun tag =>
    { activeNodeName := "A", activeNodeKeepAliveTimeTag := tag }

/-- Five misses with a new keep-alive between any two of them, and B is active. -/
theorem isolated_misses_take_over :
    ([Driver.calculations, .i104m, .iec104client, .iccpServer].map fun d =>
        (run (step d "B") (Watch.start 0) isolatedMisses.dropLast,
          run (step d "B") (Watch.start 0) isolatedMisses)) =
      List.replicate 4 (some ⟨false, 4, 5⟩, some ⟨true, 5, 5⟩) ∧
    ¬ Unchanged 0 5 (isolatedMisses.map (observe "B")) := by
  refine ⟨by decide, fun hun => ?_⟩
  obtain ⟨tag, hsuffix⟩ := hun.suffix
  rw [List.suffix_iff_eq_drop, List.length_replicate] at hsuffix
  have hlast : (isolatedMisses.map (observe "B")).drop 5 =
      [3, 4, 4, 5, 5].map Sight.other := by decide
  have htags : List.replicate 5 (Sight.other tag) = [3, 4, 4, 5, 5].map Sight.other :=
    hsuffix.trans hlast
  simp only [List.replicate_succ, List.map_cons, List.cons.injEq, Sight.other.injEq] at htags
  exact absurd (htags.1.symm.trans htags.2.1) (by decide)

end Example

end JsonScada.System.DriverStandby
