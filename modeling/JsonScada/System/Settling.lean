/- path: JsonScada/System/Settling
   source: src/calculations/calculations.go; src/cs_data_processor/cs_data_processor.js
   digest: Acyclic calculations settle after one cycle more than their depth, save for NaN. -/

import JsonScada.Lib.Dataflow
import JsonScada.System.CalculationCycle

set_option autoImplicit false
set_option relaxedAutoImplicit false

namespace JsonScada.System.Settling

open JsonScada.Lib JsonScada.Lib.Binary64 JsonScada.Lib.Dataflow JsonScada.Model.Documents
open JsonScada.Calculations.Formulas JsonScada.Calculations.Engine
open JsonScada.Processor.Convert JsonScada.System.PointFeed JsonScada.System.CalculationCycle

/-- An analog point without conversion factors and without a zero dead band. -/
structure Neutral (doc : Point) : Prop where
  type : doc.type = .analog
  kconv1 : doc.kconv1 = .fin 1
  kconv2 : doc.kconv2 = .fin 0
  zeroDeadband : ∀ z, doc.zeroDeadband = .val z → z = .fin 0

/-- The key is that of a calculated point or of a parcel. -/
def InUse (calcs : Calcs) (id : ℤ) : Prop :=
  (calcs id).isSome ∨ ∃ i p, calcs i = some p ∧ id ∈ p.idParcels

/-- Finitely many calculated points, none a timer, on points that no other part of the
processor writes. -/
structure Configured (calcs : Calcs) : Prop where
  finite : ∃ ids, Enumerates calcs ids
  timer : ∀ id p, calcs id = some p → p.formula ≠ 8
  keys : ∀ id, InUse calcs id → OrdinaryKey id

/-- The documents of a configuration: the calculated points are there and neutral, and
the values are doubles. -/
structure Ready (calcs : Calcs) (docs : Docs) : Prop where
  keyed : Keyed docs
  calculated : ∀ id, (calcs id).isSome → ∃ doc, docs id = some doc ∧ Neutral doc
  double : ∀ id, InUse calcs id → IsDouble (vals docs id)

/-- What the engine reads of a point. -/
abbrev View := ℤ → Number × Bool

def view (docs : Docs) : View := fun id => (vals docs id, invalids docs id)

/-- The formula is one of the switch and has the number of parcels it requires. -/
def Available (p : PointCalc) : Prop :=
  ∃ r, calculate (fun _ => Number.fin 0) (fun _ => false) (.fin 0) p = some r ∧ r.ok = true

/-- The value and the flag of a formula from those of its parcels. -/
def evaluate (calcs : Calcs) (v : View) (id : ℤ) : Number × Bool :=
  ((calcs id).bind fun p => calculate (fun e => (v e).1) (fun e => (v e).2) (.fin 0) p).elim
    (.fin 0, false) fun r => (r.val, r.invalid)

theorem evaluate_congr {calcs : Calcs} {v w : View} {id : ℤ}
    (h : ∀ j, (∃ p, calcs id = some p ∧ j ∈ p.idParcels) → v j = w j) :
    evaluate calcs v id = evaluate calcs w id := by
  unfold evaluate
  cases hp : calcs id with
  | none => rfl
  | some p =>
    have hparcel : ∀ e ∈ p.idParcels, v e = w e := fun e he => h e ⟨p, hp, he⟩
    rw [Option.bind_some, Option.bind_some,
      calculate_congr_parcels (fun e he => congrArg Prod.fst (hparcel e he))
        fun e he => congrArg Prod.snd (hparcel e he)]

/-- The parcels graph: available formulas computed from their parcels. -/
def graph (calcs : Calcs) : Network ℤ (Number × Bool) where
  Node id := ∃ p, calcs id = some p ∧ Available p
  Reads id j := ∃ p, calcs id = some p ∧ j ∈ p.idParcels
  eval := evaluate calcs
  eval_congr := fun _ _ _ _ h => evaluate_congr h

/-- The processor adds the invalid flag to a value that is not a number. -/
def guarded (x : Number × Bool) : Number × Bool := (x.1, x.2 || x.1.isNaN)

/-- The graph as the two processes compute it. -/
def guardedGraph (calcs : Calcs) : Network ℤ (Number × Bool) :=
  { graph calcs with
    eval := fun v id => guarded (evaluate calcs v id)
    eval_congr := fun _ _ _ _ h => congrArg guarded (evaluate_congr h) }

/-- No update is left to be written, and every calculated point holds its formula
applied to the stored parcels. -/
structure Quiet (calcs : Calcs) (docs : Docs) : Prop where
  writes : ∀ ids now, Enumerates calcs ids → opers calcs docs now ids = some []
  holds : ∀ id p r now, calcs id = some p →
    calculate (vals docs) (invalids docs) now p = some r → r.ok = true →
      vals docs id = r.val ∧ invalids docs id = r.invalid

/-- In every run of cycles no cycle is stopped, and from the `n`-th on all is quiet. -/
def Settles (calcs : Calcs) (docs : Docs) (n : ℕ) : Prop :=
  ∀ (s : ℕ → Docs) (k : ℕ), s 0 = docs → (∀ j < k, Cycle calcs (s j) (s (j + 1))) →
    (∀ ids now, Enumerates calcs ids → (opers calcs (s k) now ids).isSome) ∧
      (n ≤ k → Quiet calcs (s k))

/-- No formula indexes the first of no parcels, and none gives a value that is not a
number where the formulas are evaluated down the graph from its inputs. -/
structure Defined (calcs : Calcs) (docs : Docs) (depth : ℕ) : Prop where
  first : ∀ id p, calcs id = some p → ¬(p.formula ∈ [50, 51, 54] ∧ p.idParcels = [])
  number : ∀ id, (graph calcs).Node id →
    ((graph calcs).rounds (view docs) (depth + 1) id).1 ≠ .nan

variable {calcs : Calcs} {docs docs' : Docs} {id : ℤ} {p : PointCalc} {now : Number}
  {r : Calculation Number}

theorem available_iff (h : calculate (vals docs) (invalids docs) now p = some r) :
    Available p ↔ r.ok = true := by
  obtain ⟨r', hr', hok⟩ :=
    @calculate_ok Number _ _ _ _ _ _ _ (fun _ => .fin 0) _ (fun _ => false) now (.fin 0) p r h
  unfold Available
  rw [hr']
  simp [hok]

theorem evaluate_view (hc : Configured calcs) (hp : calcs id = some p)
    (h : calculate (vals docs) (invalids docs) now p = some r) :
    evaluate calcs (view docs) id = (r.val, r.invalid) := by
  have hcalc : calculate (vals docs) (invalids docs) (.fin 0) p = some r := by
    rw [← h]
    exact calculate_congr (hc.timer id p hp) (fun _ _ => rfl) fun _ _ => rfl
  unfold evaluate
  rw [hp, Option.bind_some]
  change ((calculate (vals docs) (invalids docs) (.fin 0) p).elim _ _) = _
  rw [hcalc]
  rfl

/-- Nothing is written just when the point has the result already, a number. -/
theorem changedUpdate_eq_none (hok : r.ok = true) :
    changedUpdate (vals docs) (invalids docs) id r = none ↔
      view docs id = (r.val, r.invalid) ∧ r.val ≠ .nan := by
  have heqv : GoFloat.equal r.val (vals docs id) = r.val.eqv (vals docs id) := rfl
  unfold changedUpdate view
  rw [hok, Bool.true_and, heqv]
  constructor
  · intro h
    split_ifs at h with hchanged
    rw [Bool.or_eq_true, not_or, Bool.not_eq_true, Bool.not_eq_true, Bool.not_eq_false'] at hchanged
    obtain ⟨hval, hinv⟩ := hchanged
    obtain ⟨hnan, hval⟩ := Number.eqv_iff.mp hval
    have hinv : r.invalid = invalids docs id := by simpa using hinv
    exact ⟨Prod.ext hval.symm hinv.symm, hnan⟩
  · rintro ⟨heq, hnan⟩
    obtain ⟨hval, hinv⟩ := Prod.mk.inj heq
    rw [hval, hinv, Number.eqv_iff.mpr ⟨hnan, rfl⟩]
    simp

/-- What is written is the result of a formula that has one. -/
theorem changedUpdate_eq_some {u : Update Number}
    (h : changedUpdate (vals docs) (invalids docs) id r = some u) :
    r.ok = true ∧ u = ⟨r.val, r.invalid, r.transient⟩ := by
  unfold changedUpdate at h
  split_ifs at h with hchanged
  exact ⟨((Bool.and_eq_true _ _).mp hchanged).1, (Option.some.inj h).symm⟩

theorem convert_neutral {doc : Point} {u : Update Number} {timeTag : Date} (hdoc : Neutral doc)
    (hdouble : IsDouble u.valueAtSource) :
    (convert doc (sourceDataUpdate timeTag u)).value = u.valueAtSource ∧
      (convert doc (sourceDataUpdate timeTag u)).invalid =
        (u.invalidAtSource || u.transientAtSource || u.valueAtSource.isNaN) := by
  have hvalue : ((sourceDataUpdate timeTag u).valueAtSource.toNumber.mul doc.kconv1).add
      doc.kconv2 = u.valueAtSource := by
    rw [hdoc.kconv1, hdoc.kconv2]
    exact Single.neutral hdouble
  unfold convert
  rw [hdoc.type]
  constructor
  · simp only [convertAnalog, hvalue]
    split
    · rfl
    · rfl
    · next z hz => simp [hdoc.zeroDeadband z hz]
  · simp only [convertAnalog, guardValue, sourceDataUpdate, quality]
    cases u.valueAtSource.isNaN <;> simp

theorem Neutral.of_samePoint {a b : Point} (hb : Neutral b) (h : SamePoint a b) : Neutral a where
  type := h.settings.type.trans hb.type
  kconv1 := h.settings.kconv1.trans hb.kconv1
  kconv2 := h.settings.kconv2.trans hb.kconv2
  zeroDeadband z hz := hb.zeroDeadband z (h.settings.zeroDeadband ▸ hz)

theorem view_of_same (h : docs' id = docs id) : view docs' id = view docs id := by
  simp [view, vals, invalids, h]

/-- What a cycle does to a point in use: an available formula is applied to the stored
parcels, and any other point stays. -/
structure Moved (calcs : Calcs) (docs docs' : Docs) (id : ℤ) : Prop where
  node : (graph calcs).Node id → view docs' id = guarded (evaluate calcs (view docs) id)
  other : ¬(graph calcs).Node id → view docs' id = view docs id
  neutral : (calcs id).isSome → ∃ doc, docs' id = some doc ∧ Neutral doc

/-- A point whose formula is calculated, unchanged or written and handled. -/
theorem moved_calculated (hc : Configured calcs) (hr : Ready calcs docs) {c : Schedule}
    {written : List (ℤ × Update Number)} (hids : Enumerates calcs c.ids)
    (hopers : opers calcs docs c.now c.ids = some written) (hp : calcs id = some p)
    (hfinal : Final (sourceOf c.timeTag written) (bulkWrite c.timeTag written docs) id
      (docs' id)) : Moved calcs docs docs' id := by
  have hisSome : (calcs id).isSome := by rw [hp]; rfl
  obtain ⟨p', r, hp', hcalc⟩ := calculate_of_opers hopers ((hids.2 id).mpr hisSome)
  cases hp.symm.trans hp'
  obtain ⟨doc, hdoc, hneutral⟩ := hr.calculated id hisSome
  have heval := evaluate_view hc hp hcalc
  have hnode : (graph calcs).Node id ↔ r.ok = true := by
    rw [← available_iff hcalc]
    constructor
    · rintro ⟨q, hq, havailable⟩
      cases hp.symm.trans hq
      exact havailable
    · exact fun havailable => ⟨p, hp, havailable⟩
  have hnodup := opers_nodup hopers hids.1
  cases hu : changedUpdate (vals docs) (invalids docs) id r with
  | none =>
    -- nothing is written, so the document is the one before
    have hnot : ∀ u, (id, u) ∉ written := by
      intro u hmem
      obtain ⟨-, q, r', hq, hcalc', hu'⟩ := (mem_opers hopers).mp hmem
      cases hp.symm.trans hq
      cases hcalc.symm.trans hcalc'
      cases hu.symm.trans hu'
    have hsame : docs' id = docs id := hfinal.of_unwritten hnot
    refine ⟨?_, fun _ => view_of_same hsame, fun _ => ⟨doc, hsame.trans hdoc, hneutral⟩⟩
    intro hn
    obtain ⟨hview, hnan⟩ := (changedUpdate_eq_none (hnode.mp hn)).mp hu
    rw [view_of_same hsame, heval, hview]
    simp [guarded, Number.isNaN, hnan]
  | some u =>
    have hmem : (id, u) ∈ written :=
      (mem_opers hopers).mpr ⟨(hids.2 id).mpr hisSome, p, r, hp, hcalc, hu⟩
    unfold Final at hfinal
    rw [sourceOf_mem hnodup hmem, @bulkWrite_of_mem docs c.timeTag written id hnodup u hmem,
      hdoc] at hfinal
    obtain ⟨clock, hfinal⟩ := hfinal
    obtain ⟨hok, rfl⟩ := changedUpdate_eq_some hu
    have hdouble : IsDouble r.val := calculate_isDouble (hc.timer id p hp)
      (fun e he => hr.double e (Or.inr ⟨id, p, hp, he⟩)) hcalc
    let sdu := sourceDataUpdate (c.timeTag id) ⟨r.val, r.invalid, r.transient⟩
    have hwritten : docs' id = some (handled clock (replaceSource sdu doc) sdu) := hfinal
    have hsource : Neutral (replaceSource sdu doc) :=
      hneutral.of_samePoint (replaceSource_samePoint sdu doc)
    obtain ⟨hval, hinv⟩ := @handled_image clock _ sdu rfl hsource.type
    obtain ⟨hcval, hcinv⟩ :=
      @convert_neutral _ ⟨r.val, r.invalid, r.transient⟩ (c.timeTag id) hsource hdouble
    refine ⟨fun _ => ?_, fun hn => absurd (hnode.mpr hok) hn, fun _ =>
      ⟨_, hwritten, hsource.of_samePoint (handled_samePoint clock _ sdu)⟩⟩
    have hflag : (r.invalid || r.transient || r.val.isNaN) = (r.invalid || r.val.isNaN) := by
      cases htransient : r.transient with
      | false => rw [Bool.or_false]
      | true => rw [calculate_transient hcalc htransient, Bool.true_or, Bool.true_or]
    rw [heval]
    refine Prod.ext ?_ ?_
    · change vals docs' id = r.val
      rw [vals, hwritten, Option.elim_some, hval]
      exact hcval
    · change invalids docs' id = (r.invalid || r.val.isNaN)
      rw [invalids, hwritten, Option.elim_some, hinv, ← hflag]
      exact hcinv

theorem not_node_of_none (h : calcs id = none) : ¬(graph calcs).Node id := by
  rintro ⟨p, hp, -⟩
  cases h.symm.trans hp

/-- Every point in use moves so in a cycle, whatever its schedule. -/
theorem cycle_moved (hc : Configured calcs) (hr : Ready calcs docs) (h : Cycle calcs docs docs') :
    Keyed docs' ∧ ∀ id, InUse calcs id → Moved calcs docs docs' id := by
  have hanalog : ∀ id doc, (calcs id).isSome → docs id = some doc → doc.type = .analog := by
    intro id doc hid hdoc
    obtain ⟨d, hd, hneutral⟩ := hr.calculated id hid
    cases hd.symm.trans hdoc
    exact hneutral.type
  obtain ⟨c, written, hids, hopers, hkeyed, hfinal⟩ :=
    cycle_final h hr.keyed (fun id hid => hc.keys id (Or.inl hid)) hanalog
  refine ⟨hkeyed, ?_⟩
  intro id hid
  have hdone := hfinal id (hc.keys id hid)
  cases hp : calcs id with
  | some p => exact moved_calculated hc hr hids hopers hp hdone
  | none =>
    have hnot : ∀ u, (id, u) ∉ written := by
      intro u hmem
      obtain ⟨-, q, -, hq, -⟩ := (mem_opers hopers).mp hmem
      cases hp.symm.trans hq
    have hsame : docs' id = docs id := hdone.of_unwritten hnot
    refine ⟨fun hn => absurd hn (not_node_of_none hp), fun _ => view_of_same hsame, ?_⟩
    rw [hp]
    exact fun h => absurd h Bool.false_ne_true

theorem evaluate_isDouble (hc : Configured calcs) (hr : Ready calcs docs) (id : ℤ) :
    IsDouble (evaluate calcs (view docs) id).1 := by
  cases hp : calcs id with
  | none =>
    unfold evaluate
    rw [hp]
    exact isDouble_zero
  | some p =>
    cases hcalc : calculate (vals docs) (invalids docs) (.fin 0) p with
    | none =>
      have hzero : evaluate calcs (view docs) id = (.fin 0, false) := by
        unfold evaluate
        rw [hp, Option.bind_some]
        exact congrArg (fun o => Option.elim o _ _) hcalc
      rw [hzero]
      exact isDouble_zero
    | some r =>
      rw [evaluate_view hc hp hcalc]
      exact calculate_isDouble (hc.timer id p hp)
        (fun e he => hr.double e (Or.inr ⟨id, p, hp, he⟩)) hcalc

theorem cycle_ready (hc : Configured calcs) (hr : Ready calcs docs) (h : Cycle calcs docs docs') :
    Ready calcs docs' := by
  obtain ⟨hkeyed, hmoved⟩ := cycle_moved hc hr h
  refine ⟨hkeyed, fun id hid => (hmoved id (Or.inl hid)).neutral hid, ?_⟩
  intro id hid
  by_cases hn : (graph calcs).Node id
  · have hview := congrArg Prod.fst ((hmoved id hid).node hn)
    change vals docs' id = _ at hview
    rw [hview]
    exact evaluate_isDouble hc hr id
  · have hview := congrArg Prod.fst ((hmoved id hid).other hn)
    change vals docs' id = vals docs id at hview
    rw [hview]
    exact hr.double id hid

section Runs

variable {s : ℕ → Docs} {k : ℕ}

theorem run_ready (hc : Configured calcs) (hr : Ready calcs (s 0))
    (hrun : ∀ j < k, Cycle calcs (s j) (s (j + 1))) {j : ℕ} (hj : j ≤ k) : Ready calcs (s j) := by
  induction j with
  | zero => exact hr
  | succ j ih => exact cycle_ready hc (ih (by omega)) (hrun j (by omega))

/-- A run of cycles is a run of rounds of the guarded graph. -/
theorem run_rounds (hc : Configured calcs) (hr : Ready calcs (s 0))
    (hrun : ∀ j < k, Cycle calcs (s j) (s (j + 1))) :
    (guardedGraph calcs).Rounds (fun j => view (s j)) k where
  computed := by
    rintro j hj id ⟨p, hp, havailable⟩
    have hin : InUse calcs id := Or.inl (by rw [hp]; rfl)
    exact ((cycle_moved hc (run_ready hc hr hrun hj.le) (hrun j hj)).2 id hin).node
      ⟨p, hp, havailable⟩
  input := by
    rintro j hj i id _ hread hnot
    obtain ⟨p, hp, hmem⟩ := hread
    have hin : InUse calcs id := Or.inr ⟨i, p, hp, hmem⟩
    exact ((cycle_moved hc (run_ready hc hr hrun hj.le) (hrun j hj)).2 id hin).other hnot

end Runs

/-- The collection is quiet just when no formula is stopped and every available one
finds its result, a number, in its point. -/
theorem quiet_iff (hc : Configured calcs)
    (hfirst : ∀ id p, calcs id = some p → ¬(p.formula ∈ [50, 51, 54] ∧ p.idParcels = [])) :
    Quiet calcs docs ↔ ∀ id, (graph calcs).Node id →
      evaluate calcs (view docs) id = view docs id ∧ (view docs id).1 ≠ .nan := by
  have hcalc : ∀ id p now, calcs id = some p →
      ∃ r, calculate (vals docs) (invalids docs) now p = some r := by
    intro id p now hp
    rw [← Option.isSome_iff_exists, Option.isSome_iff_ne_none, ne_eq, calculate_eq_none]
    exact hfirst id p hp
  constructor
  · rintro hquiet id ⟨p, hp, havailable⟩
    obtain ⟨ids, hids⟩ := hc.finite
    obtain ⟨r, hr⟩ := hcalc id p (.fin 0) hp
    have hok := (available_iff hr).mp havailable
    have hnone : changedUpdate (vals docs) (invalids docs) id r = none := by
      cases hu : changedUpdate (vals docs) (invalids docs) id r with
      | none => rfl
      | some u =>
        have hid : id ∈ ids := (hids.2 id).mpr (by rw [hp]; rfl)
        have hmem := (mem_opers (hquiet.writes ids (.fin 0) hids)).mpr ⟨hid, p, r, hp, hr, hu⟩
        cases hmem
    obtain ⟨hview, hnan⟩ := (changedUpdate_eq_none hok).mp hnone
    rw [evaluate_view hc hp hr, hview]
    exact ⟨rfl, hnan⟩
  · intro hfixed
    have hheld : ∀ id p r now, calcs id = some p →
        calculate (vals docs) (invalids docs) now p = some r → r.ok = true →
          view docs id = (r.val, r.invalid) ∧ r.val ≠ .nan := by
      intro id p r now hp hr hok
      obtain ⟨heq, hnan⟩ := hfixed id ⟨p, hp, (available_iff hr).mpr hok⟩
      rw [evaluate_view hc hp hr] at heq
      rw [← heq] at hnan ⊢
      exact ⟨rfl, hnan⟩
    refine ⟨?_, ?_⟩
    · intro ids now hids
      have hsome : ∀ id ∈ ids, ∃ p r, calcs id = some p ∧
          calculate (vals docs) (invalids docs) now p = some r := by
        intro id hid
        obtain ⟨p, hp⟩ := Option.isSome_iff_exists.mp ((hids.2 id).mp hid)
        obtain ⟨r, hr⟩ := hcalc id p now hp
        exact ⟨p, r, hp, hr⟩
      obtain ⟨written, hopers⟩ := opers_isSome hsome
      rw [hopers]
      refine congrArg some (List.eq_nil_iff_forall_not_mem.mpr ?_)
      rintro ⟨id, u⟩ hmem
      obtain ⟨-, p, r, hp, hr, hu⟩ := (mem_opers hopers).mp hmem
      have hok := (changedUpdate_eq_some hu).1
      rw [(changedUpdate_eq_none hok).mpr (hheld id p r now hp hr hok)] at hu
      cases hu
    · intro id p r now hp hr hok
      exact Prod.mk.inj (hheld id p r now hp hr hok).1

theorem chain_of_guarded {n : ℕ} (h : (guardedGraph calcs).Chain n id) :
    (graph calcs).Chain n id := by
  induction h with
  | node hi => exact .node hi
  | read hi hr _ ih => exact .read hi hr ih

theorem opers_of_first
    (hfirst : ∀ id p, calcs id = some p → ¬(p.formula ∈ [50, 51, 54] ∧ p.idParcels = []))
    {ids : List ℤ} (hids : Enumerates calcs ids) (now : Number) :
    ∃ written, opers calcs docs now ids = some written := by
  apply opers_isSome
  intro id hid
  obtain ⟨p, hp⟩ := Option.isSome_iff_exists.mp ((hids.2 id).mp hid)
  have hsome : ∃ r, calculate (vals docs) (invalids docs) now p = some r := by
    rw [← Option.isSome_iff_exists, Option.isSome_iff_ne_none, ne_eq, calculate_eq_none]
    exact hfirst id p hp
  obtain ⟨r, hr⟩ := hsome
  exact ⟨p, r, hp, hr⟩

variable {depth : ℕ}

/-- Where all formulas are defined, every run of cycles comes to their meaning. -/
theorem settles_of_defined (hc : Configured calcs) (hr : Ready calcs docs)
    (hdepth : (graph calcs).DepthLE depth) (hdefined : Defined calcs docs depth) :
    Settles calcs docs (depth + 1) := by
  let w := (graph calcs).rounds (view docs) (depth + 1)
  have hfixed : ∀ i, (graph calcs).Node i → evaluate calcs w i = w i := fun i hi =>
    Network.rounds_fixed hdepth (view docs) hi (Nat.lt_succ_self depth)
  have hguarded : ∀ i, (guardedGraph calcs).Node i → (guardedGraph calcs).eval w i = w i := by
    intro i hi
    have hnan : (w i).1 ≠ .nan := hdefined.number i hi
    change guarded (evaluate calcs w i) = w i
    rw [hfixed i hi]
    simp [guarded, Number.isNaN, hnan]
  have hinput : ∀ i j, (graph calcs).Node i → (graph calcs).Reads i j →
      ¬(graph calcs).Node j → w j = view docs j := by
    intro i j hi hread hj
    exact (Network.rounds_rounds (graph calcs) (view docs) (depth + 1)).input_start hi hread hj
      le_rfl
  rintro s k rfl hrun
  refine ⟨?_, ?_⟩
  · intro ids now hids
    obtain ⟨written, hopers⟩ := @opers_of_first calcs (s k) hdefined.first ids hids now
    rw [hopers]
    rfl
  · intro hk
    have hrounds := run_rounds hc hr hrun
    have hview : ∀ i, (graph calcs).Node i → view (s k) i = w i := by
      intro i hi
      refine hrounds.agree (Network.rounds_const hguarded (depth + 1)) ?_ hi
        (fun m hm => hdepth m i (chain_of_guarded hm)) hk le_rfl (Nat.lt_succ_self depth) le_rfl
      intro i j hi hread hj
      exact (hinput i j hi hread hj).symm
    refine (quiet_iff hc hdefined.first).mpr ?_
    intro i hi
    have heval : evaluate calcs (view (s k)) i = evaluate calcs w i := by
      apply evaluate_congr
      intro j hread
      by_cases hj : (graph calcs).Node j
      · exact hview j hj
      · exact (hrounds.input_start hi hread hj le_rfl).trans (hinput i j hi hread hj).symm
    rw [heval, hview i hi]
    exact ⟨hfixed i hi, hdefined.number i hi⟩

/-- Cycles that no formula stops can be run on and on. -/
theorem run_exists (hc : Configured calcs) (hr : Ready calcs docs)
    (hfirst : ∀ id p, calcs id = some p → ¬(p.formula ∈ [50, 51, 54] ∧ p.idParcels = []))
    (k : ℕ) : ∃ s : ℕ → Docs, s 0 = docs ∧ ∀ j < k, Cycle calcs (s j) (s (j + 1)) := by
  obtain ⟨ids, hids⟩ := hc.finite
  have hnext : ∀ d, Ready calcs d → ∃ d', Cycle calcs d d' := by
    intro d hd
    obtain ⟨written, hopers⟩ := @opers_of_first calcs d hfirst ids hids (.fin 0)
    refine cycle_exists hids hopers ?_
    intro id hid
    obtain ⟨doc, hdoc, -⟩ := hd.calculated id hid
    rw [hdoc]
    rfl
  induction k with
  | zero => exact ⟨fun _ => docs, rfl, fun j hj => absurd hj (Nat.not_lt_zero j)⟩
  | succ k ih =>
    obtain ⟨s, rfl, hrun⟩ := ih
    obtain ⟨d, hd⟩ := hnext (s k) (run_ready hc hr hrun le_rfl)
    refine ⟨fun j => if j ≤ k then s j else d, if_pos (Nat.zero_le k), ?_⟩
    intro j hj
    dsimp only
    rw [if_pos (by omega)]
    rcases Nat.lt_succ_iff_lt_or_eq.mp hj with hlt | rfl
    · rw [if_pos (by omega)]
      exact hrun j hlt
    · rw [if_neg (by omega)]
      exact hd

/-- Where every run settles, the formulas are defined. -/
theorem defined_of_settles (hc : Configured calcs) (hr : Ready calcs docs)
    (hdepth : (graph calcs).DepthLE depth) (hsettles : Settles calcs docs (depth + 1)) :
    Defined calcs docs depth := by
  obtain ⟨ids, hids⟩ := hc.finite
  have hfirst : ∀ id p, calcs id = some p →
      ¬(p.formula ∈ [50, 51, 54] ∧ p.idParcels = []) := by
    intro id p hp
    obtain ⟨hstart, -⟩ := hsettles (fun _ => docs) 0 rfl fun j hj => absurd hj (Nat.not_lt_zero j)
    obtain ⟨written, hopers⟩ := Option.isSome_iff_exists.mp (hstart ids (.fin 0) hids)
    obtain ⟨q, r, hq, hcalc⟩ := calculate_of_opers hopers ((hids.2 id).mpr (by rw [hp]; rfl))
    cases hp.symm.trans hq
    intro hstops
    cases hcalc.symm.trans (calculate_eq_none.mpr hstops)
  refine ⟨hfirst, ?_⟩
  obtain ⟨s, rfl, hrun⟩ := run_exists hc hr hfirst (depth + 1)
  obtain ⟨-, hquiet⟩ := hsettles s (depth + 1) rfl hrun
  have hfixed := (quiet_iff hc hfirst).mp (hquiet le_rfl)
  have hrounds := run_rounds hc hr hrun
  intro i hi
  have hagree : (graph calcs).rounds (view (s 0)) (depth + 1) i = view (s (depth + 1)) i := by
    refine (Network.rounds_rounds (graph calcs) (view (s 0)) (depth + 1)).agree
      (Network.rounds_const (fun i hi => (hfixed i hi).1) (depth + 1)) ?_ hi
      (fun m hm => hdepth m i hm) (Nat.lt_succ_self depth) le_rfl (Nat.lt_succ_self depth) le_rfl
    intro i j hi hread hj
    exact (hrounds.input_start hi hread hj le_rfl).symm
  rw [hagree]
  exact (hfixed i hi).2

/-- The calculations settle in one cycle more than the depth of their graph just when
every formula of it, evaluated down the graph, is defined. -/
theorem settles_iff_defined (hc : Configured calcs) (hr : Ready calcs docs)
    (hdepth : (graph calcs).DepthLE depth) :
    Settles calcs docs (depth + 1) ↔ Defined calcs docs depth :=
  ⟨defined_of_settles hc hr hdepth, settles_of_defined hc hr hdepth⟩

section Example

/-- One calculated point on two parcels. -/
def single (formula : ℕ) : Calcs := fun id => if id = 3 then some ⟨formula, [1, 2]⟩ else none

def zeroPoint (id : ℤ) : Point := { _id := .fin id, tag := "", type := .analog, invalid := false }

/-- The two parcels and the point, all of value zero and valid. -/
def zeroDocs : Docs := fun id => if id = 1 ∨ id = 2 ∨ id = 3 then some (zeroPoint id) else none

theorem single_eq_some {formula : ℕ} {id : ℤ} {p : PointCalc} (h : single formula id = some p) :
    id = 3 ∧ p = ⟨formula, [1, 2]⟩ := by
  unfold single at h
  split_ifs at h with hid
  exact ⟨hid, (Option.some.inj h).symm⟩

theorem inUse_single {formula : ℕ} {id : ℤ} (h : InUse (single formula) id) :
    id = 1 ∨ id = 2 ∨ id = 3 := by
  rcases h with h | ⟨i, p, hp, hmem⟩
  · obtain ⟨p, hp⟩ := Option.isSome_iff_exists.mp h
    exact Or.inr (Or.inr (single_eq_some hp).1)
  · obtain ⟨-, rfl⟩ := single_eq_some hp
    simp only [List.mem_cons, List.not_mem_nil, or_false] at hmem
    omega

theorem configured_single {formula : ℕ} (h : formula ≠ 8) : Configured (single formula) where
  finite := by
    refine ⟨[3], List.nodup_singleton 3, ?_⟩
    intro id
    rw [List.mem_singleton, single]
    split_ifs with hid <;> simp [hid]
  timer := by
    intro id p hp
    obtain ⟨-, rfl⟩ := single_eq_some hp
    exact h
  keys := by
    intro id hid
    have := inUse_single hid
    unfold OrdinaryKey
    omega

theorem ready_single (formula : ℕ) : Ready (single formula) zeroDocs where
  keyed := by
    intro id doc hdoc
    unfold zeroDocs at hdoc
    split_ifs at hdoc
    obtain rfl := Option.some.inj hdoc
    rfl
  calculated := by
    intro id hid
    obtain ⟨p, hp⟩ := Option.isSome_iff_exists.mp hid
    obtain ⟨rfl, -⟩ := single_eq_some hp
    refine ⟨zeroPoint 3, rfl, rfl, rfl, rfl, ?_⟩
    intro z hz
    cases hz
  double := by
    intro id hid
    have hvalue : vals zeroDocs id = .fin 0 := by
      rw [vals, zeroDocs, if_pos (inUse_single hid)]
      rfl
    rw [hvalue]
    exact isDouble_zero

theorem depth_single (formula : ℕ) : (graph (single formula)).DepthLE 0 := by
  intro n id hchain
  cases hchain with
  | node _ => exact le_rfl
  | read hi hread hj =>
    obtain ⟨p, hp, hmem⟩ := hread
    obtain ⟨-, rfl⟩ := single_eq_some hp
    have hthree : ∀ {m : ℕ} {j : ℤ}, (graph (single formula)).Chain m j → j = 3 := by
      rintro m j (⟨q, hq, -⟩ | ⟨⟨q, hq, -⟩, -, -⟩) <;> exact (single_eq_some hq).1
    rw [hthree hj] at hmem
    simp at hmem

theorem round_zero : Binary64.round binary64 0 = .fin 0 := isDouble_zero

theorem zero_add_zero : Number.add (.fin 0) (.fin 0) = .fin 0 := by
  change Binary64.round binary64 (0 + 0) = .fin 0
  rw [add_zero, round_zero]

theorem zero_mul_zero : Number.mul (.fin 0) (.fin 0) = .fin 0 := by
  change Binary64.round binary64 (0 * 0) = .fin 0
  rw [mul_zero, round_zero]

theorem sqrt_zero : Number.sqrt (.fin 0) = .fin 0 := by
  have happrox : Number.rootApproximation 0 = 0 := by simp [Number.rootApproximation]
  change Binary64.round binary64 (Number.rootApproximation 0) = .fin 0
  rw [happrox, round_zero]

theorem rounds_single {formula : ℕ} (h : (graph (single formula)).Node 3) :
    (graph (single formula)).rounds (view zeroDocs) 1 3 =
      evaluate (single formula) (view zeroDocs) 3 :=
  (Network.rounds_rounds (graph (single formula)) (view zeroDocs) 1).computed 0 one_pos 3 h

end Example

/-- The sum of two parcels settles after one cycle. -/
theorem sum_settles : Settles (single 4) zeroDocs 1 := by
  refine (settles_iff_defined (configured_single (by decide)) (ready_single 4)
    (depth_single 4)).mpr ⟨?_, ?_⟩
  · intro id p hp
    obtain ⟨-, rfl⟩ := single_eq_some hp
    simp
  · rintro id ⟨p, hp, havailable⟩
    have hthree := (single_eq_some hp).1
    subst hthree
    rw [rounds_single ⟨p, hp, havailable⟩]
    change Number.add (Number.add (Binary64.round binary64 0) (.fin 0)) (.fin 0) ≠ .nan
    rw [round_zero, zero_add_zero, zero_add_zero]
    simp

/-- The power factor of two parcels that are zero is written in every cycle. -/
theorem power_factor_unsettled : ¬Settles (single 2) zeroDocs 1 := by
  intro hsettles
  have hdefined := defined_of_settles (configured_single (by decide)) (ready_single 2)
    (depth_single 2) hsettles
  have hnode : (graph (single 2)).Node 3 := ⟨⟨2, [1, 2]⟩, rfl, _, rfl, rfl⟩
  apply hdefined.number 3 hnode
  rw [rounds_single hnode]
  change Number.div (.fin 0) (Number.sqrt (Number.add (Number.mul (.fin 0) (.fin 0))
    (Number.mul (.fin 0) (.fin 0)))) = .nan
  rw [zero_mul_zero, zero_add_zero, sqrt_zero]
  rfl

end JsonScada.System.Settling
