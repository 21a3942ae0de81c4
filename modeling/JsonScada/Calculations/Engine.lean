/- path: JsonScada/Calculations/Engine
   source: src/calculations/calculations.go, main cycle
   digest: One calculation cycle: the points read, the updates accumulated and written. -/

import JsonScada.Calculations.Dependence
import JsonScada.Lib.FloatArith
import JsonScada.Model.Documents

set_option autoImplicit false
set_option relaxedAutoImplicit false

namespace JsonScada.Calculations.Engine

open JsonScada.Lib JsonScada.Lib.Binary64 JsonScada.Model.Documents
open JsonScada.Calculations.Formulas

/-- The formulas as the engine runs them. -/
instance : GoFloat Number where
  const q := Binary64.round binary64 q
  Sqrt := Number.sqrt
  Abs := Number.abs
  less := Number.lt
  equal := Number.eqv

/-- The realtimeData collection by key. -/
abbrev Docs := ℤ → Option Point

/-- The map of the calculated points. -/
abbrev Calcs := ℤ → Option PointCalc

/-- The map `vals` once the parcels are read; a key that is not there reads as zero. -/
def vals (docs : Docs) (id : ℤ) : Number := (docs id).elim (.fin 0) Point.value

def invalids (docs : Docs) (id : ℤ) : Bool := (docs id).elim false Point.invalid

/-- The updates of one cycle, for the points in the order the map yields them; `none`
where a formula stops the process. -/
def opers (calcs : Calcs) (docs : Docs) (now : Number) :
    List ℤ → Option (List (ℤ × Update Number))
  | [] => some []
  | id :: ids => do
    let p ← calcs id
    let r ← calculate (vals docs) (invalids docs) now p
    let rest ← opers calcs docs now ids
    match changedUpdate (vals docs) (invalids docs) id r with
    | some u => some ((id, u) :: rest)
    | none => some rest

/-- The `sourceDataUpdate` of an update. -/
def sourceDataUpdate (timeTag : Date) (u : Update Number) : SourceDataUpdate :=
  { valueAtSource := .val u.valueAtSource
    invalidAtSource := some u.invalidAtSource
    transientAtSource := some u.transientAtSource
    timeTag := timeTag }

/-- The bulk write, one `$set` for a point. -/
def bulkWrite (timeTag : ℤ → Date) (written : List (ℤ × Update Number)) (docs : Docs) : Docs :=
  written.foldl (fun docs w id =>
    if id = w.1 then
      (docs id).map fun doc =>
        { doc with sourceDataUpdate := .data (sourceDataUpdate (timeTag w.1) w.2) }
    else docs id) docs

/-- The order in which the map yields its keys. -/
def Enumerates (calcs : Calcs) (ids : List ℤ) : Prop :=
  ids.Nodup ∧ ∀ id, id ∈ ids ↔ (calcs id).isSome

variable {calcs : Calcs} {docs : Docs} {now : Number} {ids : List ℤ}
  {written : List (ℤ × Update Number)}

theorem opers_cons {id : ℤ} (h : opers calcs docs now (id :: ids) = some written) :
    ∃ p r rest, calcs id = some p ∧
      calculate (vals docs) (invalids docs) now p = some r ∧
      opers calcs docs now ids = some rest ∧
      written = (changedUpdate (vals docs) (invalids docs) id r).toList.map (fun u => (id, u)) ++
        rest := by
  unfold opers at h
  obtain ⟨p, hp, h⟩ := Option.bind_eq_some_iff.mp h
  obtain ⟨r, hr, h⟩ := Option.bind_eq_some_iff.mp h
  obtain ⟨rest, hrest, h⟩ := Option.bind_eq_some_iff.mp h
  refine ⟨p, r, rest, hp, hr, hrest, ?_⟩
  cases hu : changedUpdate (vals docs) (invalids docs) id r with
  | some u =>
    rw [hu] at h
    simpa using h.symm
  | none =>
    rw [hu] at h
    simpa using h.symm

/-- An update is written for a point just when its formula gave it. -/
theorem mem_opers (h : opers calcs docs now ids = some written) {id : ℤ} {u : Update Number} :
    (id, u) ∈ written ↔ id ∈ ids ∧ ∃ p r, calcs id = some p ∧
      calculate (vals docs) (invalids docs) now p = some r ∧
      changedUpdate (vals docs) (invalids docs) id r = some u := by
  induction ids generalizing written with
  | nil =>
    cases h
    simp
  | cons d ids ih =>
    obtain ⟨p, r, rest, hp, hr, hrest, rfl⟩ := opers_cons h
    rw [List.mem_append, ih hrest, List.mem_cons]
    constructor
    · rintro (hhead | ⟨hid, htail⟩)
      · obtain ⟨v, hv, heq⟩ := List.mem_map.mp hhead
        cases heq
        exact ⟨Or.inl rfl, p, r, hp, hr, by simpa using hv⟩
      · exact ⟨Or.inr hid, htail⟩
    · rintro ⟨rfl | hid, p', r', hp', hr', hu⟩
      · cases hp.symm.trans hp'
        cases hr.symm.trans hr'
        exact Or.inl (List.mem_map.mpr ⟨u, by simp [hu], rfl⟩)
      · exact Or.inr ⟨hid, p', r', hp', hr', hu⟩

theorem opers_nodup (h : opers calcs docs now ids = some written) (hids : ids.Nodup) :
    (written.map Prod.fst).Nodup := by
  have hsub : (written.map Prod.fst).Sublist ids := by
    clear hids
    induction ids generalizing written with
    | nil =>
      cases h
      exact List.Sublist.refl []
    | cons d ids ih =>
      obtain ⟨p, r, rest, -, -, hrest, rfl⟩ := opers_cons h
      cases changedUpdate (vals docs) (invalids docs) d r with
      | none => exact (ih hrest).cons d
      | some u => exact (ih hrest).cons_cons d
  exact hids.sublist hsub

/-- The cycle is completed when no formula of it stops the process. -/
theorem opers_isSome (hcalcs : ∀ id ∈ ids, ∃ p r, calcs id = some p ∧
    calculate (vals docs) (invalids docs) now p = some r) :
    ∃ written, opers calcs docs now ids = some written := by
  induction ids with
  | nil => exact ⟨[], rfl⟩
  | cons d ids ih =>
    obtain ⟨rest, hrest⟩ := ih fun id hid => hcalcs id (List.mem_cons_of_mem d hid)
    obtain ⟨p, r, hp, hr⟩ := hcalcs d List.mem_cons_self
    simp only [opers, hp, hr, hrest, Option.bind_eq_bind, Option.bind_some]
    split <;> exact ⟨_, rfl⟩

theorem calculate_of_opers (h : opers calcs docs now ids = some written) {id : ℤ}
    (hid : id ∈ ids) : ∃ p r, calcs id = some p ∧
      calculate (vals docs) (invalids docs) now p = some r := by
  induction ids generalizing written with
  | nil => cases hid
  | cons d ids ih =>
    obtain ⟨p, r, rest, hp, hr, hrest, -⟩ := opers_cons h
    rcases List.mem_cons.mp hid with rfl | hid
    · exact ⟨p, r, hp, hr⟩
    · exact ih hrest hid

/-- The bulk write touches the source of the written points only. -/
theorem bulkWrite_of_not_mem (timeTag : ℤ → Date) {id : ℤ} (h : id ∉ written.map Prod.fst) :
    bulkWrite timeTag written docs id = docs id := by
  unfold bulkWrite
  induction written generalizing docs with
  | nil => rfl
  | cons w rest ih =>
    rw [List.map_cons, List.mem_cons, not_or] at h
    rw [List.foldl_cons, ih h.2, if_neg h.1]

/-- The numbers of the engine are doubles. -/
theorem closed_isDouble : Closed IsDouble where
  add _ _ _ _ := isDouble_add
  sub _ _ _ _ := isDouble_sub
  mul _ _ _ _ := isDouble_mul
  div _ _ _ _ := isDouble_div
  neg _ h := isDouble_neg h
  const q := isDouble_round q
  sqrt _ _ := isDouble_sqrt
  abs _ h := isDouble_abs h

theorem calculate_isDouble {p : PointCalc} {r : Calculation Number} (htimer : p.formula ≠ 8)
    (hparcels : ∀ e ∈ p.idParcels, IsDouble (vals docs e))
    (h : calculate (vals docs) (invalids docs) now p = some r) : IsDouble r.val := by
  -- the other points do not count: read as zero they give the same
  let read (e : ℤ) : Number := if e ∈ p.idParcels then vals docs e else .fin 0
  have hread : ∀ e, IsDouble (read e) := by
    intro e
    change IsDouble (if e ∈ p.idParcels then vals docs e else .fin 0)
    split
    · next he => exact hparcels e he
    · exact isDouble_zero
  have hcongr : calculate read (invalids docs) (.fin 0) p = some r := by
    rw [← h]
    exact calculate_congr htimer (fun e he => if_pos he) fun _ _ => rfl
  exact calculate_closed closed_isDouble hread isDouble_zero hcongr

end JsonScada.Calculations.Engine
