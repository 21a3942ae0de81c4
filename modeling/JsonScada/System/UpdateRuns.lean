/- path: JsonScada/System/UpdateRuns
   source: processMongoUpdates and AutoCreateTag of src/mqtt-sparkplug
   digest: The queue of values, taken by runs of the update loop that overlap at their awaits. -/

import JsonScada.Lib.Machine
import JsonScada.MqttSparkplug.AutoTag

set_option autoImplicit false
set_option relaxedAutoImplicit false

namespace JsonScada.System.UpdateRuns

open JsonScada.Lib.Machine JsonScada.Lib.Collection JsonScada.Lib.Binary64
open JsonScada.Model.Documents JsonScada.Model.AutoKeys JsonScada.MqttSparkplug.AutoTag

/-- An entry of the queue; the number tells entries with equal data apart. -/
structure Entry where
  number : ℕ
  data : Data
  deriving DecidableEq

abbrev Entry.address (e : Entry) : String := e.data.protocolSourceObjectAddress

/-- What a suspended run waits for: the look-up of a tag, the insert of a document, or the
return of `AutoCreateTag`. An outcome waits for its turn too. -/
inductive Stage where
  | finding
  | found (any : Bool)
  | inserting (p : Point)
  | inserted (acknowledged : Bool)
  | rejected
  | returned

/-- A run that is suspended with an entry it has taken. -/
structure Run where
  entry : Entry
  stage : Stage

/-- The run goes on with the next entry of the queue. -/
def Stage.Ends : Stage → Prop
  | .returned | .rejected => True
  | _ => False

/-- The process, its runs by name, and the collection; for the trace, the entries enqueued,
those issued as updates, and the documents created. -/
structure State (ι : Type) where
  ValuesQueue : List Entry := []
  AutoCreateTags : Bool := true
  ListCreatedTags : List String := []
  AutoKeyId : Number
  collection : List Point
  runs : ι → Option Run := fun _ => none
  enqueued : List Entry := []
  issued : List Entry := []
  created : List Point := []

def start {ι : Type} (AutoKeyId : Number) (docs : List Point) : State ι :=
  { AutoKeyId := AutoKeyId, collection := docs }

/-- A value is queued; the connection to the database is made again, with its settings; the
timer starts a run; the database looks up, inserts or fails; a run goes on; another process
inserts. -/
inductive Label (ι : Type) where
  | enqueue (data : Data)
  | reconnect (autoCreateTags : Bool)
  | timer (r : ι)
  | lookUp (r : ι)
  | insert (r : ι) (acknowledged : Bool)
  | fail (r : ι)
  | resume (r : ι)
  | other (p : Point)

variable {ι : Type} [DecidableEq ι] (connectionNumber : ℤ)

/-- The run is suspended, or has ended. -/
def State.setRun (s : State ι) (r : ι) (run : Option Run) : State ι :=
  { s with runs := Function.update s.runs r run }

def State.list (s : State ι) (e : Entry) : State ι :=
  { s with ListCreatedTags := s.ListCreatedTags ++ [tagOf connectionNumber e.address] }

/-- `collection.updateOne`, which is not awaited. -/
def State.issue (s : State ι) (e : Entry) : State ι := { s with issued := s.issued ++ [e] }

/-- The loop over the queue, up to the next await. -/
def drain (r : ι) : List Entry → State ι → State ι
  | [], s => { s with ValuesQueue := [] }
  | e :: queue, s =>
    if s.AutoCreateTags then
      -- `AutoCreateTag` is awaited also where the tag is listed
      let stage := if tagOf connectionNumber e.address ∈ s.ListCreatedTags then .returned
        else .finding
      { s with ValuesQueue := queue }.setRun r (some ⟨e, stage⟩)
    else drain r queue (s.issue e)

def processMongoUpdates (r : ι) (s : State ι) : State ι :=
  drain connectionNumber r s.ValuesQueue s

/-- A suspended run goes on. -/
def resume (r : ι) (e : Entry) (s : State ι) : Stage → Option (State ι)
  | .found true => some ((s.list connectionNumber e).setRun r (some ⟨e, .returned⟩))
  | .found false =>
    let key := s.AutoKeyId.add (.fin 1)
    some ({ s with AutoKeyId := key }.setRun r
      (some ⟨e, .inserting (newTag (setGroups e.data) connectionNumber key)⟩))
  | .inserted true => some ((s.list connectionNumber e).setRun r (some ⟨e, .returned⟩))
  | .inserted false => some (s.setRun r (some ⟨e, .returned⟩))
  -- the exception is logged, and the entry is gone
  | .rejected => some (processMongoUpdates connectionNumber r (s.setRun r none))
  | .returned => some (processMongoUpdates connectionNumber r ((s.issue e).setRun r none))
  | .finding | .inserting _ => none

/-- The database inserts the document a run waits for, if the indexes take it. -/
def insert (r : ι) (acknowledged : Bool) (e : Entry) (p : Point) (s : State ι) : State ι :=
  if accepts s.collection p then
    { s with collection := s.collection ++ [p], created := s.created ++ [p] }.setRun r
      (some ⟨e, .inserted acknowledged⟩)
  else s.setRun r (some ⟨e, .rejected⟩)

def step (s : State ι) : Label ι → Option (State ι)
  | .enqueue data =>
    let e : Entry := ⟨s.enqueued.length, data⟩
    some { s with ValuesQueue := s.ValuesQueue ++ [e], enqueued := s.enqueued ++ [e] }
  | .reconnect autoCreateTags => some { s with
      AutoCreateTags := autoCreateTags
      AutoKeyId := GetAutoKeyInitialValue connectionNumber s.collection }
  | .timer r =>
    if (s.runs r).isNone then some (processMongoUpdates connectionNumber r s) else none
  | .lookUp r => (s.runs r).bind fun run => match run.stage with
    | .finding => some (s.setRun r (some ⟨run.entry,
        .found (s.collection.any (ofAddress connectionNumber run.entry.address))⟩))
    | _ => none
  | .insert r acknowledged => (s.runs r).bind fun run => match run.stage with
    | .inserting p => some (insert r acknowledged run.entry p s)
    | _ => none
  | .fail r => (s.runs r).bind fun run => match run.stage with
    | .finding | .inserting _ => some (s.setRun r (some ⟨run.entry, .rejected⟩))
    | _ => none
  | .resume r => (s.runs r).bind fun run => resume connectionNumber r run.entry s run.stage
  | .other p => if accepts s.collection p then some { s with collection := s.collection ++ [p] }
    else none

/-- The entries of an address. -/
def ofEntries (a : String) (es : List Entry) : List Entry := es.filter (·.address = a)

/-- What is wanted of the queue: for each address the updates are issued in the order of the
queue, all of them once no run is suspended, and no second document is created. -/
structure InOrder (s : State ι) : Prop where
  order : ∀ a, ofEntries a s.issued <+: ofEntries a s.enqueued
  complete : s.ValuesQueue = [] → (∀ r, s.runs r = none) →
    ∀ a, ofEntries a s.issued = ofEntries a s.enqueued
  unique : ∀ a, (s.created.filter (ofAddress connectionNumber a)).length ≤ 1

/-- The entries a run of the loop takes before it is suspended. -/
def taken (s : State ι) : List Entry :=
  if s.AutoCreateTags then s.ValuesQueue.take 1 else s.ValuesQueue

/-- No run but this one is suspended with an entry of the address. -/
def Free (s : State ι) (r : ι) (a : String) : Prop :=
  ∀ k, k ≠ r → ∀ run ∈ s.runs k, run.entry.address ≠ a

/-- The condition on the steps of a run: no entry is taken of an address another run is
suspended with, and the database does not reject. -/
def Condition (s : State ι) : Label ι → Prop
  | .timer r => ∀ e ∈ taken s, Free s r e.address
  | .resume r => ∀ run ∈ s.runs r, run.stage.Ends → ∀ e ∈ taken s, Free s r e.address
  | .insert r _ => ∀ run ∈ s.runs r, ∀ p, run.stage = .inserting p → accepts s.collection p = true
  | .fail _ => False
  | _ => True

section Holding

/-- At most one run is suspended with an entry of the address; that entry stands between
those issued and those still queued. -/
structure Holding (s : State ι) (a : String) (held : Option Entry) : Prop where
  holder : ∀ r, ∀ run ∈ s.runs r, run.entry.address = a → held = some run.entry
  of_held : ∀ e ∈ held, e.address = a ∧ ∃ r, ∃ run ∈ s.runs r, run.entry = e
  single : ∀ r k, ∀ run ∈ s.runs r, ∀ run' ∈ s.runs k, run.entry.address = a →
    run'.entry.address = a → r = k
  order : ofEntries a s.issued ++ held.toList ++ ofEntries a s.ValuesQueue =
    ofEntries a s.enqueued

def Held (s : State ι) : Prop := ∀ a, ∃ held, Holding s a held

variable {s : State ι} {r : ι} {e : Entry}

@[simp] theorem setRun_same (s : State ι) (r : ι) (run : Option Run) :
    (s.setRun r run).runs r = run := by
  show Function.update s.runs r run r = run
  rw [Function.update_self]

theorem setRun_other (s : State ι) {r k : ι} (run : Option Run) (h : k ≠ r) :
    (s.setRun r run).runs k = s.runs k := by
  show Function.update s.runs r run k = s.runs k
  rw [Function.update_of_ne h]

@[simp] theorem ofEntries_append (a : String) (es fs : List Entry) :
    ofEntries a (es ++ fs) = ofEntries a es ++ ofEntries a fs := List.filter_append es fs

theorem ofEntries_cons_same {a : String} (h : e.address = a) (es : List Entry) :
    ofEntries a (e :: es) = e :: ofEntries a es := by
  simp [ofEntries, h]

theorem ofEntries_cons_other {a : String} (h : e.address ≠ a) (es : List Entry) :
    ofEntries a (e :: es) = ofEntries a es := by
  simp [ofEntries, h]

omit [DecidableEq ι] in
/-- Only the runs, the queue, and the entries enqueued and issued matter. -/
theorem Held.of_eq {t : State ι} (h : Held s) (hruns : t.runs = s.runs)
    (hqueue : t.ValuesQueue = s.ValuesQueue) (henqueued : t.enqueued = s.enqueued)
    (hissued : t.issued = s.issued) : Held t := by
  intro a
  obtain ⟨held, hheld⟩ := h a
  refine ⟨held, ?_, ?_, ?_, ?_⟩
  · rw [hruns]
    exact hheld.holder
  · rw [hruns]
    exact hheld.of_held
  · rw [hruns]
    exact hheld.single
  · rw [hissued, hqueue, henqueued]
    exact hheld.order

/-- A run that stays suspended with its entry. -/
theorem held_stage (h : Held s) {stage stage' : Stage} (hr : s.runs r = some ⟨e, stage⟩) :
    Held (s.setRun r (some ⟨e, stage'⟩)) := by
  have hentry : ∀ k, ∀ run ∈ (s.setRun r (some ⟨e, stage'⟩)).runs k,
      ∃ run' ∈ s.runs k, run'.entry = run.entry := by
    intro k run hrun
    by_cases hk : k = r
    · subst hk
      rw [setRun_same] at hrun
      obtain rfl := Option.some.inj hrun
      exact ⟨_, hr, rfl⟩
    · rw [setRun_other s _ hk] at hrun
      exact ⟨run, hrun, rfl⟩
  intro a
  obtain ⟨held, hheld⟩ := h a
  refine ⟨held, fun k run hrun ha => ?_, fun x hx => ?_, fun k l run hrun run' hrun' ha ha' => ?_,
    hheld.order⟩
  · obtain ⟨old, hold, heq⟩ := hentry k run hrun
    rw [← heq] at ha ⊢
    exact hheld.holder k old hold ha
  · obtain ⟨hxa, k, run, hrun, hx'⟩ := hheld.of_held x hx
    refine ⟨hxa, k, ?_⟩
    by_cases hk : k = r
    · subst hk
      rw [hr] at hrun
      obtain rfl := Option.some.inj hrun
      exact ⟨⟨e, stage'⟩, setRun_same s k _, hx'⟩
    · exact ⟨run, (setRun_other s _ hk).trans hrun, hx'⟩
  · obtain ⟨old, hold, heq⟩ := hentry k run hrun
    obtain ⟨old', hold', heq'⟩ := hentry l run' hrun'
    rw [← heq] at ha
    rw [← heq'] at ha'
    exact hheld.single k l old hold old' hold' ha ha'

/-- The entry of a run is issued. -/
theorem held_release (h : Held s) {stage : Stage} (hr : s.runs r = some ⟨e, stage⟩) :
    Held ((s.issue e).setRun r none) := by
  have hrun : ∀ k, ∀ run ∈ ((s.issue e).setRun r none).runs k, k ≠ r ∧ s.runs k = some run := by
    intro k run hrun
    by_cases hk : k = r
    · subst hk
      rw [setRun_same] at hrun
      cases hrun
    · rw [setRun_other _ _ hk] at hrun
      exact ⟨hk, hrun⟩
  intro a
  obtain ⟨held, hheld⟩ := h a
  by_cases ha : e.address = a
  · have hheldr := hheld.holder r ⟨e, stage⟩ hr ha
    have hnone : ∀ k, ∀ run ∈ ((s.issue e).setRun r none).runs k, run.entry.address ≠ a := by
      intro k run hk hka
      obtain ⟨hne, hold⟩ := hrun k run hk
      exact hne (hheld.single k r run hold ⟨e, stage⟩ hr hka ha)
    refine ⟨none, fun k run hk hka => absurd hka (hnone k run hk), fun x hx => (by cases hx),
      fun k l run hk run' _ hka _ => absurd hka (hnone k run hk), ?_⟩
    have horder := hheld.order
    rw [hheldr] at horder
    show ofEntries a (s.issued ++ [e]) ++ [] ++ ofEntries a s.ValuesQueue = ofEntries a s.enqueued
    rw [ofEntries_append, ofEntries_cons_same ha, List.append_nil]
    exact horder
  · refine ⟨held, fun k run hk => hheld.holder k run (hrun k run hk).2, fun x hx => ?_,
      fun k l run hk run' hl => hheld.single k l run (hrun k run hk).2 run' (hrun l run' hl).2, ?_⟩
    · obtain ⟨hxa, k, run, hk, hx'⟩ := hheld.of_held x hx
      have hne : k ≠ r := by
        rintro rfl
        rw [hr] at hk
        obtain rfl := Option.some.inj hk
        obtain rfl := hx'
        exact ha hxa
      exact ⟨hxa, k, run, (setRun_other _ _ hne).trans hk, hx'⟩
    · show ofEntries a (s.issued ++ [e]) ++ held.toList ++ ofEntries a s.ValuesQueue =
        ofEntries a s.enqueued
      rw [ofEntries_append, ofEntries_cons_other ha, show ofEntries a [] = [] from rfl,
        List.append_nil]
      exact hheld.order

omit [DecidableEq ι] in
/-- No run is suspended with an entry of the address. -/
theorem held_none {a : String} (h : Held s) (hfree : ∀ k, ∀ run ∈ s.runs k, run.entry.address ≠ a) :
    ofEntries a s.issued ++ ofEntries a s.ValuesQueue = ofEntries a s.enqueued := by
  obtain ⟨held, hheld⟩ := h a
  cases held with
  | none => simpa using hheld.order
  | some e =>
    obtain ⟨he, k, run, hk, rfl⟩ := hheld.of_held e rfl
    exact absurd he (hfree k run hk)

/-- A run that is not suspended takes the first entry of the queue. -/
theorem held_take (h : Held s) (hr : s.runs r = none) (hfree : Free s r e.address)
    {queue : List Entry} (hqueue : s.ValuesQueue = e :: queue) (stage : Stage) :
    Held ({ s with ValuesQueue := queue }.setRun r (some ⟨e, stage⟩)) := by
  have hrun : ∀ k, ∀ run ∈ ({ s with ValuesQueue := queue }.setRun r (some ⟨e, stage⟩)).runs k,
      k = r ∧ run.entry = e ∨ k ≠ r ∧ s.runs k = some run := by
    intro k run hrun
    by_cases hk : k = r
    · subst hk
      rw [setRun_same] at hrun
      obtain rfl := Option.some.inj hrun
      exact .inl ⟨rfl, rfl⟩
    · rw [setRun_other _ _ hk] at hrun
      exact .inr ⟨hk, hrun⟩
  intro a
  by_cases ha : e.address = a
  · have hnone : ∀ k, ∀ run ∈ s.runs k, run.entry.address ≠ a := by
      intro k run hk
      have hne : k ≠ r := by
        rintro rfl
        rw [hr] at hk
        cases hk
      exact ha ▸ hfree k hne run hk
    have horder := held_none h hnone
    rw [hqueue, ofEntries_cons_same ha] at horder
    have hown : ∀ k, ∀ run ∈
        ({ s with ValuesQueue := queue }.setRun r (some ⟨e, stage⟩)).runs k,
        run.entry.address = a → k = r ∧ run.entry = e := by
      intro k run hk hka
      rcases hrun k run hk with hnew | ⟨-, hold⟩
      · exact hnew
      · exact absurd hka (hnone k run hold)
    refine ⟨some e, fun k run hk hka => ?_, fun x hx => ?_,
      fun k l run hk run' hl hka hla => ?_, ?_⟩
    · rw [(hown k run hk hka).2]
    · obtain rfl := Option.some.inj hx
      exact ⟨ha, r, ⟨e, stage⟩, setRun_same _ r _, rfl⟩
    · rw [(hown k run hk hka).1, (hown l run' hl hla).1]
    · show ofEntries a s.issued ++ [e] ++ ofEntries a queue = ofEntries a s.enqueued
      rw [List.append_assoc]
      exact horder
  · obtain ⟨held, hheld⟩ := h a
    have hold : ∀ k, ∀ run ∈
        ({ s with ValuesQueue := queue }.setRun r (some ⟨e, stage⟩)).runs k,
        run.entry.address = a → s.runs k = some run := by
      intro k run hk hka
      rcases hrun k run hk with ⟨-, hnew⟩ | ⟨-, hold⟩
      · exact absurd (hnew ▸ hka) ha
      · exact hold
    refine ⟨held, fun k run hk hka => hheld.holder k run (hold k run hk hka) hka, fun x hx => ?_,
      fun k l run hk run' hl hka hla =>
        hheld.single k l run (hold k run hk hka) run' (hold l run' hl hla) hka hla, ?_⟩
    · obtain ⟨hxa, k, run, hk, hx'⟩ := hheld.of_held x hx
      have hne : k ≠ r := by
        rintro rfl
        rw [hr] at hk
        cases hk
      exact ⟨hxa, k, run, (setRun_other _ _ hne).trans hk, hx'⟩
    · have horder := hheld.order
      rw [hqueue, ofEntries_cons_other ha] at horder
      exact horder

omit [DecidableEq ι] in
/-- The first entry of the queue is issued at once. -/
theorem held_pass (h : Held s) (hfree : ∀ k, ∀ run ∈ s.runs k, run.entry.address ≠ e.address)
    {queue : List Entry} (hqueue : s.ValuesQueue = e :: queue) :
    Held ({ s with ValuesQueue := queue }.issue e) := by
  intro a
  by_cases ha : e.address = a
  · subst ha
    have horder := held_none h hfree
    rw [hqueue, ofEntries_cons_same rfl] at horder
    refine ⟨none, fun k run hk hka => absurd hka (hfree k run hk), fun x hx => (by cases hx),
      fun k l run hk run' _ hka _ => absurd hka (hfree k run hk), ?_⟩
    show ofEntries e.address (s.issued ++ [e]) ++ [] ++ ofEntries e.address queue =
      ofEntries e.address s.enqueued
    rw [ofEntries_append, ofEntries_cons_same rfl, List.append_nil, List.append_assoc]
    exact horder
  · obtain ⟨held, hheld⟩ := h a
    refine ⟨held, hheld.holder, hheld.of_held, hheld.single, ?_⟩
    have horder := hheld.order
    rw [hqueue, ofEntries_cons_other ha] at horder
    show ofEntries a (s.issued ++ [e]) ++ held.toList ++ ofEntries a queue =
      ofEntries a s.enqueued
    rw [ofEntries_append, ofEntries_cons_other ha, show ofEntries a [] = [] from rfl,
      List.append_nil]
    exact horder

/-- The loop keeps the entries in order when no other run holds one of those it takes. -/
theorem held_drain {queue : List Entry} (h : Held { s with ValuesQueue := queue })
    (hr : s.runs r = none)
    (hfree : ∀ e ∈ taken { s with ValuesQueue := queue }, Free s r e.address) :
    Held (drain connectionNumber r queue s) := by
  induction queue generalizing s with
  | nil => exact h
  | cons e queue ih =>
    rw [drain]
    by_cases hauto : s.AutoCreateTags = true
    · rw [if_pos hauto]
      have he : Free s r e.address := hfree e (by simp [taken, hauto])
      exact held_take (s := { s with ValuesQueue := e :: queue }) h hr he rfl _
    · rw [if_neg hauto]
      have hmem : ∀ x ∈ e :: queue, Free s r x.address := by
        intro x hx
        exact hfree x (by simpa [taken, hauto] using hx)
      have hnone : ∀ k, ∀ run ∈ s.runs k, run.entry.address ≠ e.address := by
        intro k run hk
        have hne : k ≠ r := by
          rintro rfl
          rw [hr] at hk
          cases hk
        exact hmem e List.mem_cons_self k hne run hk
      refine ih (s := s.issue e) (held_pass (s := { s with ValuesQueue := e :: queue }) h hnone rfl)
        hr fun x hx => ?_
      have hx' : x ∈ queue := by simpa [taken, hauto, State.issue] using hx
      exact hmem x (List.mem_cons_of_mem e hx')

end Holding

section Created

/-- The tag of a document is that of its address. -/
def Tagged (p : Point) : Prop :=
  ∀ a, ofAddress connectionNumber a p = true → p.tag = tagOf connectionNumber a

/-- A run is not left with a rejection, and a document being inserted has the tag of its
address. -/
structure Good (run : Run) : Prop where
  kept : run.stage ≠ .rejected
  tagged : ∀ p, run.stage = .inserting p → Tagged connectionNumber p

structure Sound (s : State ι) : Prop where
  runs : ∀ r, ∀ run ∈ s.runs r, Good connectionNumber run
  stored : ∀ p ∈ s.created, p ∈ s.collection
  tagged : ∀ p ∈ s.created, Tagged connectionNumber p
  unique : ∀ a, (s.created.filter (ofAddress connectionNumber a)).length ≤ 1

variable {connectionNumber} {s : State ι} {r : ι}

theorem tagged_newTag (data : Data) (key : Number) :
    Tagged connectionNumber (newTag data connectionNumber key) := by
  intro a ha
  rw [ofAddress_inj ha (ofAddress_newTag data connectionNumber key)]
  rfl

theorem Sound.setRun (h : Sound connectionNumber s) {run : Option Run}
    (hrun : ∀ x ∈ run, Good connectionNumber x) : Sound connectionNumber (s.setRun r run) := by
  refine ⟨fun k x hx => ?_, h.stored, h.tagged, h.unique⟩
  by_cases hk : k = r
  · subst hk
    rw [setRun_same] at hx
    exact hrun x hx
  · rw [setRun_other _ _ hk] at hx
    exact h.runs k x hx

theorem sound_drain {queue : List Entry} (h : Sound connectionNumber s) :
    Sound connectionNumber (drain connectionNumber r queue s) := by
  induction queue generalizing s with
  | nil => exact ⟨h.runs, h.stored, h.tagged, h.unique⟩
  | cons e queue ih =>
    rw [drain]
    by_cases hauto : s.AutoCreateTags = true
    · rw [if_pos hauto]
      have hqueue : Sound connectionNumber { s with ValuesQueue := queue } :=
        ⟨h.runs, h.stored, h.tagged, h.unique⟩
      refine hqueue.setRun fun x hx => ?_
      obtain rfl := Option.some.inj hx
      constructor
      · simp only
        split_ifs <;> simp
      · simp only
        split_ifs <;> simp
    · rw [if_neg hauto]
      exact ih ⟨h.runs, h.stored, h.tagged, h.unique⟩

theorem sound_insert (h : Sound connectionNumber s) {e : Entry} {p : Point}
    (hp : Tagged connectionNumber p) (hacc : accepts s.collection p = true) (acknowledged : Bool) :
    Sound connectionNumber (insert r acknowledged e p s) := by
  rw [insert, if_pos hacc]
  refine Sound.setRun (s := { s with
    collection := s.collection ++ [p]
    created := s.created ++ [p] }) ⟨h.runs, ?_, ?_, fun a => ?_⟩ ?_
  · intro q hq
    rcases List.mem_append.mp hq with hold | hnew
    · exact List.mem_append_left _ (h.stored q hold)
    · exact List.mem_append_right _ hnew
  · intro q hq
    rcases List.mem_append.mp hq with hold | hnew
    · exact h.tagged q hold
    · obtain rfl := List.mem_singleton.mp hnew
      exact hp
  · refine (length_filter_append_le_one (h.unique a)).mpr fun ha hocc => ?_
    -- the unique index on the tags keeps a second document out
    obtain ⟨q, hq, hqa⟩ := hocc
    have hany : s.collection.any (fun q => hasKey p._id q || q.tag = p.tag) = true :=
      List.any_eq_true.mpr ⟨q, h.stored q hq, by simp [h.tagged q hq a hqa, hp a ha]⟩
    rw [accepts, hany] at hacc
    cases hacc
  · intro x hx
    obtain rfl := Option.some.inj hx
    exact ⟨by simp, by simp⟩

end Created

section Runs

structure Inv (s : State ι) : Prop where
  held : Held s
  sound : Sound connectionNumber s

variable {connectionNumber} {s t : State ι} {r : ι} {e : Entry}

omit [DecidableEq ι] in
theorem inv_start (AutoKeyId : Number) (docs : List Point) :
    Inv connectionNumber (start AutoKeyId docs : State ι) where
  held a := ⟨none, fun _ _ hrun => (by cases hrun), fun _ hx => (by cases hx),
    fun _ _ _ hrun => (by cases hrun), rfl⟩
  sound := ⟨fun _ _ hrun => (by cases hrun), fun _ hp => (by cases hp),
    fun _ hp => (by cases hp), fun _ => by simp [start]⟩

omit [DecidableEq ι] in
theorem Inv.inOrder (h : Inv connectionNumber s) : InOrder connectionNumber s where
  order a := by
    obtain ⟨held, hheld⟩ := h.held a
    rw [← hheld.order, List.append_assoc]
    exact List.prefix_append _ _
  complete hqueue hruns a := by
    have horder := held_none (a := a) h.held fun k run hrun => by
      rw [hruns k] at hrun
      cases hrun
    rw [hqueue] at horder
    simpa [ofEntries] using horder
  unique := h.sound.unique

theorem Inv.stage (h : Inv connectionNumber s) {stage stage' : Stage}
    (hr : s.runs r = some ⟨e, stage⟩) (hgood : Good connectionNumber ⟨e, stage'⟩) :
    Inv connectionNumber (s.setRun r (some ⟨e, stage'⟩)) := by
  refine ⟨held_stage h.held hr, h.sound.setRun fun x hx => ?_⟩
  obtain rfl := Option.some.inj hx
  exact hgood

theorem good_of_simple {stage : Stage} (hkept : stage ≠ .rejected)
    (hnone : ∀ p, stage ≠ .inserting p) : Good connectionNumber ⟨e, stage⟩ :=
  ⟨hkept, fun p hp => absurd hp (hnone p)⟩

theorem Inv.process (h : Inv connectionNumber s) (hr : s.runs r = none)
    (hfree : ∀ x ∈ taken s, Free s r x.address) :
    Inv connectionNumber (processMongoUpdates connectionNumber r s) :=
  ⟨held_drain connectionNumber h.held hr hfree, sound_drain h.sound⟩

theorem free_release {a : String} (h : Free s r a) : Free ((s.issue e).setRun r none) r a := by
  intro k hk run hrun
  rw [setRun_other _ _ hk] at hrun
  exact h k hk run hrun

/-- A run that goes on keeps the invariant. -/
theorem inv_resume (h : Inv connectionNumber s) {stage : Stage}
    (hr : s.runs r = some ⟨e, stage⟩)
    (hfree : stage.Ends → ∀ x ∈ taken s, Free s r x.address)
    (ht : resume connectionNumber r e s stage = some t) : Inv connectionNumber t := by
  have hlist : Inv connectionNumber (s.list connectionNumber e) :=
    ⟨h.held.of_eq rfl rfl rfl rfl, h.sound.runs, h.sound.stored, h.sound.tagged, h.sound.unique⟩
  cases stage with
  | finding => cases ht
  | found any =>
    cases any with
    | true =>
      obtain rfl := Option.some.inj ht
      exact hlist.stage hr (good_of_simple (by simp) (by simp))
    | false =>
      obtain rfl := Option.some.inj ht
      have hkey : Inv connectionNumber { s with AutoKeyId := s.AutoKeyId.add (.fin 1) } :=
        ⟨h.held.of_eq rfl rfl rfl rfl, h.sound.runs, h.sound.stored, h.sound.tagged,
          h.sound.unique⟩
      refine hkey.stage hr ⟨by simp, fun p hp => ?_⟩
      obtain rfl := Stage.inserting.inj hp
      exact tagged_newTag (setGroups e.data) _
  | inserting p => cases ht
  | inserted acknowledged =>
    cases acknowledged with
    | true =>
      obtain rfl := Option.some.inj ht
      exact hlist.stage hr (good_of_simple (by simp) (by simp))
    | false =>
      obtain rfl := Option.some.inj ht
      exact h.stage hr (good_of_simple (by simp) (by simp))
  | rejected => exact absurd rfl (h.sound.runs r _ hr).kept
  | returned =>
    obtain rfl := Option.some.inj ht
    have hissue : Sound connectionNumber (s.issue e) :=
      ⟨h.sound.runs, h.sound.stored, h.sound.tagged, h.sound.unique⟩
    have hrelease : Inv connectionNumber ((s.issue e).setRun r none) :=
      ⟨held_release h.held hr, hissue.setRun fun x hx => (by cases hx)⟩
    refine hrelease.process (setRun_same _ r none) fun x hx => ?_
    exact free_release (hfree trivial x hx)

theorem inv_step {a : Label ι} (h : Inv connectionNumber s) (hc : Condition s a)
    (ht : step connectionNumber s a = some t) : Inv connectionNumber t := by
  cases a with
  | enqueue data =>
    obtain rfl := Option.some.inj ht
    refine ⟨fun a => ?_, h.sound.runs, h.sound.stored, h.sound.tagged, h.sound.unique⟩
    obtain ⟨held, hheld⟩ := h.held a
    refine ⟨held, hheld.holder, hheld.of_held, hheld.single, ?_⟩
    simp only [ofEntries_append]
    rw [← List.append_assoc, hheld.order]
  | reconnect autoCreateTags =>
    obtain rfl := Option.some.inj ht
    exact ⟨h.held.of_eq rfl rfl rfl rfl, h.sound.runs, h.sound.stored, h.sound.tagged,
      h.sound.unique⟩
  | timer r =>
    rw [step] at ht
    split_ifs at ht with hr
    obtain rfl := Option.some.inj ht
    exact h.process (Option.isNone_iff_eq_none.mp hr) hc
  | lookUp r =>
    obtain ⟨run, hr, ht⟩ := Option.bind_eq_some_iff.mp ht
    obtain ⟨e, stage⟩ := run
    cases stage with
    | finding =>
      obtain rfl := Option.some.inj ht
      exact h.stage hr (good_of_simple (by simp) (by simp))
    | found any => cases ht
    | inserting p => cases ht
    | inserted acknowledged => cases ht
    | rejected => cases ht
    | returned => cases ht
  | insert r acknowledged =>
    obtain ⟨run, hr, ht⟩ := Option.bind_eq_some_iff.mp ht
    obtain ⟨e, stage⟩ := run
    cases stage with
    | inserting p =>
      obtain rfl := Option.some.inj ht
      have hacc : accepts s.collection p = true := hc ⟨e, .inserting p⟩ hr p rfl
      have htag : Tagged connectionNumber p := (h.sound.runs r _ hr).tagged p rfl
      refine ⟨?_, sound_insert h.sound htag hacc acknowledged⟩
      rw [insert, if_pos hacc]
      exact held_stage (s := { s with
        collection := s.collection ++ [p]
        created := s.created ++ [p] }) (h.held.of_eq rfl rfl rfl rfl) hr
    | finding => cases ht
    | found any => cases ht
    | inserted b => cases ht
    | rejected => cases ht
    | returned => cases ht
  | fail r => exact absurd hc id
  | resume r =>
    obtain ⟨run, hr, ht⟩ := Option.bind_eq_some_iff.mp ht
    exact inv_resume h hr (hc run hr) ht
  | other p =>
    rw [step] at ht
    split_ifs at ht
    obtain rfl := Option.some.inj ht
    exact ⟨h.held.of_eq rfl rfl rfl rfl, h.sound.runs, fun q hq => List.mem_append_left _ (h.sound.stored q hq),
      h.sound.tagged, h.sound.unique⟩

variable (connectionNumber)

/-- Runs that take no entry of an address another is suspended with, and are not rejected by
the database, issue the entries of each address in order and once. -/
theorem visits_inOrder {AutoKeyId : Number} {docs : List Point} {labels : List (Label ι)}
    (hc : Every (step connectionNumber) Condition (start AutoKeyId docs) labels)
    (ht : Visits (step connectionNumber) (start AutoKeyId docs) labels t) :
    InOrder connectionNumber t :=
  (visits_invariant (fun _ _ _ hc hi hs => inv_step hi hc hs) hc (inv_start AutoKeyId docs)
    ht).inOrder

end Runs

section Plant

/-- A value of the only metric. -/
def levelData (value : Number) : Data where
  protocolSourceObjectAddress := "spBv1.0/Plant/Pump/Level"
  value := value

/-- The timer starts a second run while the first waits for the look-up of the new tag. -/
def overlapping : List (Label Bool) := [
  .enqueue (levelData (.fin 1)), .timer false, .enqueue (levelData (.fin 2)), .timer true,
  .lookUp false, .lookUp true, .resume false, .resume true, .insert false true,
  .insert true true, .resume false, .resume false, .resume true]

/-- The last value is lost: its document is the second of the tag. -/
theorem overlapping_loses :
    ∃ t, run (step 1) (start (.fin 1000000) []) overlapping = some t ∧ ¬ InOrder 1 t := by
  have hrun : (run (step 1) (start (.fin 1000000) []) overlapping).map (fun t =>
      decide (t.ValuesQueue = [] ∧ (∀ r, (t.runs r).isNone = true) ∧
        t.issued.length = 1 ∧ t.enqueued.length = 2 ∧
        t.enqueued.all (·.address = "spBv1.0/Plant/Pump/Level"))) = some true := by
    decide +kernel
  obtain ⟨t, ht, hall⟩ := Option.map_eq_some_iff.mp hrun
  obtain ⟨hqueue, hruns, hissued, henqueued, haddress⟩ := of_decide_eq_true hall
  refine ⟨t, ht, fun h => ?_⟩
  have heq := h.complete hqueue (fun r => Option.isNone_iff_eq_none.mp (hruns r))
    "spBv1.0/Plant/Pump/Level"
  have hkeep : ofEntries "spBv1.0/Plant/Pump/Level" t.enqueued = t.enqueued :=
    List.filter_eq_self.mpr fun e he => List.all_eq_true.mp haddress e he
  have hle : (ofEntries "spBv1.0/Plant/Pump/Level" t.issued).length ≤ t.issued.length :=
    List.length_filter_le _ _
  rw [heq, hkeep] at hle
  omega

/-- One run creates the document and issues both values. -/
def oneRun : List (Label Unit) := [
  .enqueue (levelData (.fin 1)), .timer (), .enqueue (levelData (.fin 2)), .lookUp (),
  .resume (), .insert () true, .resume (), .resume (), .resume ()]

theorem oneRun_condition : Every (step 1) Condition (start (.fin 1000000) []) oneRun := by
  have hfree : ∀ (s : State Unit) (a : String), Free s () a := fun _ _ k hk => absurd rfl hk
  refine ⟨trivial, fun s₁ h₁ => ⟨fun _ _ => hfree _ _, fun s₂ h₂ => ⟨trivial, fun s₃ h₃ =>
    ⟨trivial, fun s₄ h₄ => ⟨fun _ _ _ _ _ => hfree _ _, fun s₅ h₅ => ⟨?_, fun s₆ _ =>
    ⟨fun _ _ _ _ _ => hfree _ _, fun s₇ _ => ⟨fun _ _ _ _ _ => hfree _ _, fun s₈ _ =>
    ⟨fun _ _ _ _ _ => hfree _ _, fun _ _ => trivial⟩⟩⟩⟩⟩⟩⟩⟩⟩
  obtain rfl := Option.some.inj h₁
  obtain rfl := Option.some.inj h₂
  obtain rfl := Option.some.inj h₃
  obtain rfl := Option.some.inj h₄
  obtain rfl := Option.some.inj h₅
  intro run _ p _
  rfl

theorem oneRun_inOrder :
    ∃ t, run (step 1) (start (.fin 1000000) []) oneRun = some t ∧ InOrder 1 t := by
  have hsome : (run (step 1) (start (.fin 1000000) []) oneRun).isSome = true := by decide +kernel
  obtain ⟨t, ht⟩ := Option.isSome_iff_exists.mp hsome
  exact ⟨t, ht, visits_inOrder 1 oneRun_condition ⟨oneRun, List.prefix_refl _, ht⟩⟩

end Plant

end JsonScada.System.UpdateRuns
