/- path: JsonScada/System/TelegrafQueue
   source: the update loop of src/telegraf-listener/index.js
   digest: A queue whose head is read before an await and removed after it. -/

import JsonScada.Lib.Machine
import JsonScada.Telegraf.Listener

set_option autoImplicit false
set_option relaxedAutoImplicit false

namespace JsonScada.System.TelegrafQueue

open JsonScada.Lib.Machine JsonScada.Lib.Binary64 JsonScada.Lib.JsObject
open JsonScada.Lib.JsObject.Value (toStringCall)
open JsonScada.Model.Documents JsonScada.Model.AutoKeys JsonScada.Telegraf.Listener

/-- An entry of the queue; the number tells equal entries apart. -/
structure Queued where
  number : ℕ
  entry : Entry

/-- What a suspended run waits for, and what it will find when it goes on. -/
inductive Stage where
  | finding
  | found (any : Bool)
  | findFailed
  | inserting (p : Point)
  | inserted (acknowledged : Bool)
  | insertFailed

/-- A run that is suspended with the entry it has read. -/
structure Run where
  data : Queued
  stage : Stage

/-- The process, its runs by name, and the collection; for the trace, the entries enqueued
and those issued as updates. -/
structure State (ι : Type) where
  ValuesQueue : List Queued := []
  AutoCreateTags : Bool := true
  ListCreatedTags : List String := []
  AutoKeyId : Number
  collection : List Point
  runs : ι → Option Run := fun _ => none
  enqueued : List Queued := []
  issued : List Queued := []

def start {ι : Type} (AutoKeyId : Number) (docs : List Point) : State ι :=
  { AutoKeyId := AutoKeyId, collection := docs }

/-- A message arrives; the connection to the database is made again, with the key and the
setting it finds; the timer starts a run; the database looks up, inserts or fails; a run goes
on; another process inserts. -/
inductive Label (ι : Type) where
  | message (data : Value)
  | reconnect (autoCreateTags : Bool) (AutoKeyId : Number)
  | timer (r : ι)
  | lookUp (r : ι)
  | insert (r : ι) (acknowledged : Bool)
  | fail (r : ι)
  | resume (r : ι)
  | other (p : Point)

/-- `data.value.toString()` throws. -/
def Throws (x : Queued) : Prop := toStringCall x.entry.value = none

instance (x : Queued) : Decidable (Throws x) := by unfold Throws; infer_instance

variable {ι : Type} [DecidableEq ι] (ConnectionNumber : Number)

def State.setRun (s : State ι) (r : ι) (run : Option Run) : State ι :=
  { s with runs := Function.update s.runs r run }

def State.list (s : State ι) (x : Queued) : State ι :=
  { s with ListCreatedTags := s.ListCreatedTags ++ [x.entry.tag] }

/-- `collection.updateOne`, which is not awaited. -/
def State.issue (s : State ι) (x : Queued) : State ι := { s with issued := s.issued ++ [x] }

/-- The entries of a message get the next numbers. -/
def State.enqueue (s : State ι) (es : List Entry) : State ι :=
  let xs := (es.zipIdx s.enqueued.length).map fun e => ⟨e.2, e.1⟩
  { s with ValuesQueue := s.ValuesQueue ++ xs, enqueued := s.enqueued ++ xs }

/-- The loop from its test on, up to the next await or an exception. Here the entry that is
removed is the one that was read. -/
def loop (r : ι) : List Queued → State ι → State ι
  | [], s => { s with ValuesQueue := [] }
  | x :: queue, s =>
    if s.AutoCreateTags ∧ x.entry.tag ∉ s.ListCreatedTags then
      { s with ValuesQueue := x :: queue }.setRun r (some ⟨x, .finding⟩)
    else if Throws x then { s with ValuesQueue := x :: queue }
    else loop r queue (s.issue x)

/-- The update of the entry of a run, and the loop again. What is removed is the head of the
queue as it is now. -/
def finish (r : ι) (x : Queued) (s : State ι) : State ι :=
  if Throws x then s.setRun r none
  else loop r s.ValuesQueue.tail ((s.setRun r none).issue x)

/-- A suspended run goes on. -/
def resume (r : ι) (x : Queued) (s : State ι) : Stage → Option (State ι)
  | .found true => some (finish r x (s.list x))
  | .found false =>
    let key := s.AutoKeyId.add (.fin 1)
    some ({ s with AutoKeyId := key }.setRun r
      ((rtData ConnectionNumber key x.entry).map fun p => ⟨x, .inserting p⟩))
  | .inserted true => some (finish r x (s.list x))
  | .inserted false | .insertFailed => some (finish r x s)
  -- the exception of the look-up ends the run
  | .findFailed => some (s.setRun r none)
  | .finding | .inserting _ => none

/-- The database inserts the document a run waits for, if the indexes take it. -/
def insert (r : ι) (acknowledged : Bool) (x : Queued) (p : Point) (s : State ι) : State ι :=
  if accepts s.collection p then
    { s with collection := s.collection ++ [p] }.setRun r (some ⟨x, .inserted acknowledged⟩)
  else s.setRun r (some ⟨x, .insertFailed⟩)

def step (s : State ι) : Label ι → Option (State ι)
  | .message data => some (s.enqueue (processMessageJSON data))
  | .reconnect autoCreateTags AutoKeyId =>
    some { s with AutoCreateTags := autoCreateTags, AutoKeyId := AutoKeyId }
  | .timer r => if (s.runs r).isNone then some (loop r s.ValuesQueue s) else none
  | .lookUp r => (s.runs r).bind fun run => match run.stage with
    | .finding => some (s.setRun r (some ⟨run.data,
        .found (s.collection.any (ofTag ConnectionNumber run.data.entry.tag))⟩))
    | _ => none
  | .insert r acknowledged => (s.runs r).bind fun run => match run.stage with
    | .inserting p => some (insert r acknowledged run.data p s)
    | _ => none
  | .fail r => (s.runs r).bind fun run => match run.stage with
    | .finding => some (s.setRun r (some ⟨run.data, .findFailed⟩))
    | .inserting _ => some (s.setRun r (some ⟨run.data, .insertFailed⟩))
    | _ => none
  | .resume r => (s.runs r).bind fun run => resume ConnectionNumber r run.data s run.stage
  | .other p => if accepts s.collection p then some { s with collection := s.collection ++ [p] }
    else none

/-- The labels of the update loop and of the answers it waits for. -/
def Label.OfLoop : Label ι → Prop
  | .timer _ | .lookUp _ | .insert _ _ | .resume _ => True
  | _ => False

/-- From this state the loop can issue all that was enqueued. -/
def Drains (s : State ι) : Prop :=
  ∃ labels t, (∀ a ∈ labels, Label.OfLoop a) ∧ run (step ConnectionNumber) s labels = some t ∧
    t.enqueued = s.enqueued ∧ t.issued = s.enqueued

def ofTagEntries (tag : String) (xs : List Queued) : List Queued :=
  xs.filter (·.entry.tag = tag)

/-- Every entry is issued exactly once: no entry twice, none removed without it, those of a
tag in order, and those still queued can be. -/
structure ExactlyOnce (s : State ι) : Prop where
  once : (s.issued.map (·.number)).Nodup
  enqueued : ∀ x ∈ s.issued, x ∈ s.enqueued
  dequeued : ∀ x ∈ s.enqueued, x ∈ s.ValuesQueue ∨ x ∈ s.issued
  order : ∀ tag, ofTagEntries tag s.issued <+: ofTagEntries tag s.enqueued
  drains : Drains ConnectionNumber s

/-- The condition on the steps of a run: the values that arrive have a text, and the timer
starts no run while one is suspended. -/
def Condition (s : State ι) : Label ι → Prop
  | .message data => ∀ e ∈ processMessageJSON data, toStringCall e.value ≠ none
  | .timer _ => ∀ k, s.runs k = none
  | _ => True

section Invariant

/-- At most one run is suspended, with the head of the queue. -/
structure Inv (s : State ι) : Prop where
  split : s.issued ++ s.ValuesQueue = s.enqueued
  numbers : s.enqueued.map (·.number) = List.range' 0 s.enqueued.length
  texts : ∀ x ∈ s.enqueued, ¬ Throws x
  single : ∀ r k, s.runs r ≠ none → s.runs k ≠ none → r = k
  head : ∀ r, ∀ run ∈ s.runs r, s.ValuesQueue.head? = some run.data

variable {s : State ι} {r : ι} {x : Queued}

omit [DecidableEq ι] in
theorem Inv.of_eq {t : State ι} (h : Inv s) (hruns : t.runs = s.runs)
    (hqueue : t.ValuesQueue = s.ValuesQueue) (henqueued : t.enqueued = s.enqueued)
    (hissued : t.issued = s.issued) : Inv t := by
  refine ⟨?_, ?_, ?_, ?_, ?_⟩
  · rw [hissued, hqueue, henqueued]
    exact h.split
  · rw [henqueued]
    exact h.numbers
  · rw [henqueued]
    exact h.texts
  · rw [hruns]
    exact h.single
  · rw [hruns, hqueue]
    exact h.head

@[simp] theorem setRun_same (s : State ι) (r : ι) (run : Option Run) :
    (s.setRun r run).runs r = run := by
  show Function.update s.runs r run r = run
  rw [Function.update_self]

theorem setRun_other (s : State ι) {r k : ι} (run : Option Run) (h : k ≠ r) :
    (s.setRun r run).runs k = s.runs k := by
  show Function.update s.runs r run k = s.runs k
  rw [Function.update_of_ne h]

/-- Without its run a state of the invariant has none. -/
theorem idle_setRun (h : ∀ k, s.runs k ≠ none → k = r) (k : ι) :
    (s.setRun r none).runs k = none := by
  by_cases hk : k = r
  · subst hk
    exact setRun_same s k none
  · rw [setRun_other s none hk]
    by_contra hne
    exact hk (h k hne)

/-- The only run stays suspended with its entry, or another run is the only one. -/
theorem Inv.setRun (h : Inv s) (honly : ∀ k, s.runs k ≠ none → k = r) {run : Run}
    (hhead : s.ValuesQueue.head? = some run.data) : Inv (s.setRun r (some run)) := by
  have hnone : ∀ k, (s.setRun r (some run)).runs k ≠ none → k = r := by
    intro k hk
    by_contra hne
    rw [setRun_other s _ hne] at hk
    exact hne (honly k hk)
  refine ⟨h.split, h.numbers, h.texts, fun k l hk hl => (hnone k hk).trans (hnone l hl).symm, ?_⟩
  intro k run' hrun'
  obtain rfl := hnone k (by rw [hrun']; simp)
  rw [setRun_same] at hrun'
  obtain rfl := Option.some.inj hrun'
  exact hhead

/-- A run that has ended. -/
theorem Inv.endRun (h : Inv s) (honly : ∀ k, s.runs k ≠ none → k = r) :
    Inv (s.setRun r none) := by
  have hidle := idle_setRun honly
  refine ⟨h.split, h.numbers, h.texts, fun k l hk => absurd (hidle k) hk, fun k run hrun => ?_⟩
  rw [hidle k] at hrun
  cases hrun

omit [DecidableEq ι] in
theorem Inv.only (h : Inv s) (hr : s.runs r ≠ none) (k : ι) (hk : s.runs k ≠ none) : k = r :=
  h.single k r hk hr

/-- The loop of the only run keeps the invariant. -/
theorem inv_loop {queue : List Queued} (h : Inv { s with ValuesQueue := queue })
    (hidle : ∀ k, s.runs k = none) : Inv (loop r queue s) := by
  induction queue generalizing s with
  | nil => exact h
  | cons x queue ih =>
    rw [loop]
    split_ifs with hfind hthrows
    · exact h.setRun (fun k hk => absurd (hidle k) hk) rfl
    · exact h
    · refine ih (s := s.issue x) ⟨?_, h.numbers, h.texts, h.single, fun k run hrun => ?_⟩ hidle
      · show s.issued ++ [x] ++ queue = s.enqueued
        rw [List.append_assoc]
        exact h.split
      · have hnone : s.runs k = some run := hrun
        rw [hidle k] at hnone
        cases hnone

theorem enqueued_loop (queue : List Queued) (s : State ι) :
    (loop r queue s).enqueued = s.enqueued := by
  induction queue generalizing s with
  | nil => rfl
  | cons x queue ih =>
    rw [loop]
    split_ifs
    · rfl
    · rfl
    · exact ih (s.issue x)

theorem length_loop (queue : List Queued) (s : State ι) :
    (loop r queue s).ValuesQueue.length ≤ queue.length := by
  induction queue generalizing s with
  | nil => exact le_refl _
  | cons x queue ih =>
    rw [loop]
    split_ifs
    · exact le_refl _
    · exact le_refl _
    · have hlen := ih (s.issue x)
      rw [List.length_cons]
      omega

/-- Where every value has a text, the loop ends with an empty queue or with a look-up. -/
theorem outcome_loop {queue : List Queued} (htexts : ∀ x ∈ queue, ¬ Throws x) (s : State ι) :
    (loop r queue s).ValuesQueue = [] ∨ ∃ x, (loop r queue s).runs r = some ⟨x, .finding⟩ := by
  induction queue generalizing s with
  | nil => exact .inl rfl
  | cons x queue ih =>
    rw [loop, if_neg (htexts x List.mem_cons_self)]
    split_ifs
    · exact .inr ⟨x, setRun_same _ r _⟩
    · exact ih (fun y hy => htexts y (List.mem_cons_of_mem x hy)) (s.issue x)

omit [DecidableEq ι] in
/-- What a run reads is the head of the queue, up to its update. -/
theorem Inv.queue_eq (h : Inv s) {stage : Stage} (hr : s.runs r = some ⟨x, stage⟩) :
    s.ValuesQueue = x :: s.ValuesQueue.tail := by
  have hhead := h.head r ⟨x, stage⟩ hr
  cases hqueue : s.ValuesQueue with
  | nil =>
    rw [hqueue] at hhead
    cases hhead
  | cons y queue =>
    rw [hqueue] at hhead
    obtain rfl := Option.some.inj hhead
    rfl

omit [DecidableEq ι] in
theorem Inv.texts_queue (h : Inv s) : ∀ y ∈ s.ValuesQueue, ¬ Throws y := by
  intro y hy
  refine h.texts y ?_
  rw [← h.split]
  exact List.mem_append_right _ hy

theorem finish_eq (h : Inv s) {stage : Stage} (hr : s.runs r = some ⟨x, stage⟩) :
    finish r x s = loop r s.ValuesQueue.tail ((s.setRun r none).issue x) := by
  have hx : ¬ Throws x := h.texts_queue x (by rw [h.queue_eq hr]; exact List.mem_cons_self)
  rw [finish, if_neg hx]

theorem inv_finish (h : Inv s) {stage : Stage} (hr : s.runs r = some ⟨x, stage⟩) :
    Inv (finish r x s) := by
  have honly := h.only (r := r) (by rw [hr]; simp)
  have hidle := idle_setRun honly
  rw [finish_eq h hr]
  refine inv_loop ⟨?_, h.numbers, h.texts, fun k l hk => absurd (hidle k) hk, ?_⟩ hidle
  · show s.issued ++ [x] ++ s.ValuesQueue.tail = s.enqueued
    rw [List.append_assoc, List.singleton_append, ← h.queue_eq hr]
    exact h.split
  · intro k run hrun
    have hnone : (s.setRun r none).runs k = some run := hrun
    rw [hidle k] at hnone
    cases hnone

omit [DecidableEq ι] in
theorem inv_enqueue (h : Inv s) {es : List Entry}
    (htexts : ∀ e ∈ es, toStringCall e.value ≠ none) : Inv (s.enqueue es) := by
  refine ⟨?_, ?_, fun y hy => ?_, h.single, fun r run hrun => ?_⟩
  · simp only [State.enqueue]
    rw [← List.append_assoc, h.split]
  · simp only [State.enqueue]
    rw [List.map_append, h.numbers, List.map_map, List.length_append, List.length_map,
      List.length_zipIdx]
    have hnumber : (Queued.number ∘ fun e : Entry × ℕ => ⟨e.2, e.1⟩) = Prod.snd := rfl
    rw [hnumber, List.zipIdx_map_snd]
    have hjoin : List.range' 0 s.enqueued.length ++ List.range' (0 + s.enqueued.length) es.length =
        List.range' 0 (s.enqueued.length + es.length) := List.range'_append_1
    rwa [Nat.zero_add] at hjoin
  · simp only [State.enqueue, List.mem_append, List.mem_map] at hy
    rcases hy with hold | ⟨e, he, rfl⟩
    · exact h.texts y hold
    · exact htexts e.1 (List.fst_mem_of_mem_zipIdx he)
  · have hhead := h.head r run hrun
    have happ : ∀ ys : List Queued, (s.ValuesQueue ++ ys).head? = some run.data := by
      intro ys
      rw [List.head?_append, hhead]
      rfl
    exact happ _

theorem Inv.stage (h : Inv s) {stage : Stage} (hr : s.runs r = some ⟨x, stage⟩)
    (stage' : Stage) : Inv (s.setRun r (some ⟨x, stage'⟩)) :=
  h.setRun (h.only (by rw [hr]; simp)) (h.head r ⟨x, stage⟩ hr)

theorem inv_resume {t : State ι} (h : Inv s) {stage : Stage} (hr : s.runs r = some ⟨x, stage⟩)
    (ht : resume ConnectionNumber r x s stage = some t) : Inv t := by
  have honly := h.only (r := r) (by rw [hr]; simp)
  have hlist : Inv (s.list x) := h.of_eq rfl rfl rfl rfl
  cases stage with
  | finding => cases ht
  | found any =>
    cases any with
    | true =>
      obtain rfl := Option.some.inj ht
      exact inv_finish hlist hr
    | false =>
      obtain rfl := Option.some.inj ht
      have hkey : Inv { s with AutoKeyId := s.AutoKeyId.add (.fin 1) } := h.of_eq rfl rfl rfl rfl
      cases hdoc : rtData ConnectionNumber (s.AutoKeyId.add (.fin 1)) x.entry with
      | none => exact hkey.endRun honly
      | some p => exact hkey.stage hr (.inserting p)
  | findFailed =>
    obtain rfl := Option.some.inj ht
    exact h.endRun honly
  | inserting p => cases ht
  | inserted acknowledged =>
    cases acknowledged with
    | true =>
      obtain rfl := Option.some.inj ht
      exact inv_finish hlist hr
    | false =>
      obtain rfl := Option.some.inj ht
      exact inv_finish h hr
  | insertFailed =>
    obtain rfl := Option.some.inj ht
    exact inv_finish h hr

theorem inv_step {t : State ι} {a : Label ι} (h : Inv s) (hc : Condition s a)
    (ht : step ConnectionNumber s a = some t) : Inv t := by
  cases a with
  | message data =>
    obtain rfl := Option.some.inj ht
    exact inv_enqueue h hc
  | reconnect autoCreateTags AutoKeyId =>
    obtain rfl := Option.some.inj ht
    exact h.of_eq rfl rfl rfl rfl
  | timer r =>
    rw [step] at ht
    split_ifs at ht
    obtain rfl := Option.some.inj ht
    exact inv_loop h hc
  | lookUp r =>
    obtain ⟨run, hr, ht⟩ := Option.bind_eq_some_iff.mp ht
    obtain ⟨x, stage⟩ := run
    cases stage with
    | finding =>
      obtain rfl := Option.some.inj ht
      exact h.stage hr _
    | found any => cases ht
    | findFailed => cases ht
    | inserting p => cases ht
    | inserted acknowledged => cases ht
    | insertFailed => cases ht
  | insert r acknowledged =>
    obtain ⟨run, hr, ht⟩ := Option.bind_eq_some_iff.mp ht
    obtain ⟨x, stage⟩ := run
    cases stage with
    | inserting p =>
      obtain rfl := Option.some.inj ht
      rw [insert]
      split_ifs
      · have hstored : Inv { s with collection := s.collection ++ [p] } := h.of_eq rfl rfl rfl rfl
        exact hstored.stage hr _
      · exact h.stage hr _
    | finding => cases ht
    | found any => cases ht
    | findFailed => cases ht
    | inserted acknowledged => cases ht
    | insertFailed => cases ht
  | fail r =>
    obtain ⟨run, hr, ht⟩ := Option.bind_eq_some_iff.mp ht
    obtain ⟨x, stage⟩ := run
    cases stage with
    | finding =>
      obtain rfl := Option.some.inj ht
      exact h.stage hr _
    | inserting p =>
      obtain rfl := Option.some.inj ht
      exact h.stage hr _
    | found any => cases ht
    | findFailed => cases ht
    | inserted acknowledged => cases ht
    | insertFailed => cases ht
  | resume r =>
    obtain ⟨run, hr, ht⟩ := Option.bind_eq_some_iff.mp ht
    exact inv_resume ConnectionNumber h hr ht
  | other p =>
    rw [step] at ht
    split_ifs at ht
    obtain rfl := Option.some.inj ht
    exact h.of_eq rfl rfl rfl rfl

end Invariant

section Draining

variable {ConnectionNumber} {s t : State ι} {r : ι} {x : Queued}

theorem Drains.step {a : Label ι} (h : Drains ConnectionNumber t)
    (hs : step ConnectionNumber s a = some t) (ha : a.OfLoop) (henqueued : t.enqueued = s.enqueued) :
    Drains ConnectionNumber s := by
  obtain ⟨labels, u, hloop, hrun, hkept, hissued⟩ := h
  refine ⟨a :: labels, u, fun b hb => ?_, run_cons_eq_some.mpr ⟨t, hs, hrun⟩,
    hkept.trans henqueued, hissued.trans henqueued⟩
  rcases List.mem_cons.mp hb with rfl | hb
  · exact ha
  · exact hloop b hb

theorem drains_of_empty (h : Inv s) (hqueue : s.ValuesQueue = []) :
    Drains ConnectionNumber s := by
  have hsplit := h.split
  rw [hqueue, List.append_nil] at hsplit
  exact ⟨[], s, fun a ha => (by cases ha), rfl, rfl, hsplit⟩

/-- The states of the invariant with at most `n` entries in the queue drain. -/
def DrainsUpTo (ConnectionNumber : Number) (ι : Type) [DecidableEq ι] (n : ℕ) : Prop :=
  ∀ s : State ι, Inv s → s.ValuesQueue.length ≤ n → Drains ConnectionNumber s

theorem enqueued_finish (h : Inv s) {stage : Stage} (hr : s.runs r = some ⟨x, stage⟩) :
    (finish r x s).enqueued = s.enqueued := by
  rw [finish_eq h hr, enqueued_loop]
  rfl

variable {n : ℕ}

/-- With its update a run leaves a shorter queue. -/
theorem drains_finish (hn : DrainsUpTo ConnectionNumber ι n) (h : Inv s) (hlength : s.ValuesQueue.length ≤ n + 1) {stage : Stage}
    (hr : s.runs r = some ⟨x, stage⟩) : Drains ConnectionNumber (finish r x s) := by
  refine hn _ (inv_finish h hr) ?_
  rw [finish_eq h hr]
  refine (length_loop _ _).trans ?_
  rw [List.length_tail]
  omega

theorem drains_inserted (hn : DrainsUpTo ConnectionNumber ι n) (h : Inv s)
    (hlength : s.ValuesQueue.length ≤ n + 1) {stage : Stage} (hr : s.runs r = some ⟨x, stage⟩)
    (hstage : stage = .insertFailed ∨ ∃ b, stage = .inserted b) :
    Drains ConnectionNumber s := by
  have hlist : Inv (s.list x) := h.of_eq rfl rfl rfl rfl
  have hresume : ∀ u, resume ConnectionNumber r x s stage = some u →
      step ConnectionNumber s (.resume r) = some u := by
    intro u hu
    rw [step, hr]
    exact hu
  rcases hstage with rfl | ⟨_ | _, rfl⟩
  · exact (drains_finish hn h hlength hr).step (hresume _ rfl) trivial (enqueued_finish h hr)
  · exact (drains_finish hn h hlength hr).step (hresume _ rfl) trivial (enqueued_finish h hr)
  · exact (drains_finish hn hlist hlength hr).step (hresume _ rfl) trivial
      (enqueued_finish hlist hr)

theorem drains_inserting (hn : DrainsUpTo ConnectionNumber ι n) (h : Inv s)
    (hlength : s.ValuesQueue.length ≤ n + 1) {p : Point}
    (hr : s.runs r = some ⟨x, .inserting p⟩) : Drains ConnectionNumber s := by
  have hstep : step ConnectionNumber s (.insert r true) = some (insert r true x p s) := by
    rw [step, hr]
    rfl
  by_cases hacc : accepts s.collection p = true
  · have hstored : Inv { s with collection := s.collection ++ [p] } := h.of_eq rfl rfl rfl rfl
    rw [insert, if_pos hacc] at hstep
    exact (drains_inserted hn (hstored.stage hr (.inserted true)) hlength (setRun_same _ r _)
      (.inr ⟨true, rfl⟩)).step hstep trivial rfl
  · rw [insert, if_neg hacc] at hstep
    exact (drains_inserted hn (h.stage hr .insertFailed) hlength (setRun_same _ r _)
      (.inl rfl)).step hstep trivial rfl

theorem drains_found (hn : DrainsUpTo ConnectionNumber ι n) (h : Inv s)
    (hlength : s.ValuesQueue.length ≤ n + 1) {any : Bool}
    (hr : s.runs r = some ⟨x, .found any⟩) : Drains ConnectionNumber s := by
  cases any with
  | true =>
    have hlist : Inv (s.list x) := h.of_eq rfl rfl rfl rfl
    have hstep : step ConnectionNumber s (.resume r) = some (finish r x (s.list x)) := by
      rw [step, hr]
      rfl
    exact (drains_finish hn hlist hlength hr).step hstep trivial (enqueued_finish hlist hr)
  | false =>
    have hx : ¬ Throws x := h.texts_queue x (by rw [h.queue_eq hr]; exact List.mem_cons_self)
    have hkey : Inv { s with AutoKeyId := s.AutoKeyId.add (.fin 1) } := h.of_eq rfl rfl rfl rfl
    cases htext : toStringCall x.entry.value with
    | none => exact absurd htext hx
    | some valueString =>
      obtain ⟨p, hp⟩ : ∃ p, rtData ConnectionNumber (s.AutoKeyId.add (.fin 1)) x.entry = some p := by
        rw [rtData, htext]
        exact ⟨_, rfl⟩
      have hstep : step ConnectionNumber s (.resume r) =
          some ({ s with AutoKeyId := s.AutoKeyId.add (.fin 1) }.setRun r
            (some ⟨x, .inserting p⟩)) := by
        rw [step, hr]
        show some _ = some _
        rw [hp]
        rfl
      exact (drains_inserting hn (hkey.stage hr (.inserting p)) hlength (setRun_same _ r _)).step
        hstep trivial rfl

theorem drains_finding (hn : DrainsUpTo ConnectionNumber ι n) (h : Inv s)
    (hlength : s.ValuesQueue.length ≤ n + 1) (hr : s.runs r = some ⟨x, .finding⟩) :
    Drains ConnectionNumber s := by
  have hstep : step ConnectionNumber s (.lookUp r) = some (s.setRun r
      (some ⟨x, .found (s.collection.any (ofTag ConnectionNumber x.entry.tag))⟩)) := by
    rw [step, hr]
    rfl
  exact (drains_found hn (h.stage hr _) hlength (setRun_same _ r _)).step hstep trivial rfl

/-- A timer tick takes the queue up to a look-up or to its end. -/
theorem drains_idle (hn : DrainsUpTo ConnectionNumber ι n) (h : Inv s)
    (hlength : s.ValuesQueue.length ≤ n + 1) (r : ι) (hidle : ∀ k, s.runs k = none) :
    Drains ConnectionNumber s := by
  have hstep : step ConnectionNumber s (.timer r) = some (loop r s.ValuesQueue s) := by
    rw [step, hidle r]
    rfl
  have hinv : Inv (loop r s.ValuesQueue s) := inv_loop h hidle
  have hkept : (loop r s.ValuesQueue s).enqueued = s.enqueued := enqueued_loop _ s
  have hshort : (loop r s.ValuesQueue s).ValuesQueue.length ≤ n + 1 :=
    (length_loop _ s).trans hlength
  rcases outcome_loop (r := r) h.texts_queue s with hempty | ⟨x, hr⟩
  · exact (drains_of_empty hinv hempty).step hstep trivial hkept
  · exact (drains_finding hn hinv hshort hr).step hstep trivial hkept

theorem drains_findFailed (hn : DrainsUpTo ConnectionNumber ι n) (h : Inv s)
    (hlength : s.ValuesQueue.length ≤ n + 1) (hr : s.runs r = some ⟨x, .findFailed⟩) :
    Drains ConnectionNumber s := by
  have honly := h.only (r := r) (by rw [hr]; simp)
  have hstep : step ConnectionNumber s (.resume r) = some (s.setRun r none) := by
    rw [step, hr]
    rfl
  exact (drains_idle hn (h.endRun honly) hlength r (idle_setRun honly)).step hstep trivial rfl

variable (ConnectionNumber)

theorem drainsUpTo (r : ι) (n : ℕ) : DrainsUpTo ConnectionNumber ι n := by
  induction n with
  | zero =>
    intro s h hlength
    exact drains_of_empty h (List.length_eq_zero_iff.mp (Nat.le_zero.mp hlength))
  | succ n hn =>
    intro s h hlength
    by_cases hidle : ∀ k, s.runs k = none
    · exact drains_idle hn h hlength r hidle
    · obtain ⟨k, hk⟩ := not_forall.mp hidle
      obtain ⟨⟨x, stage⟩, hrun⟩ := Option.ne_none_iff_exists'.mp hk
      cases stage with
      | finding => exact drains_finding hn h hlength hrun
      | found any => exact drains_found hn h hlength hrun
      | findFailed => exact drains_findFailed hn h hlength hrun
      | inserting p => exact drains_inserting hn h hlength hrun
      | inserted b => exact drains_inserted hn h hlength hrun (.inr ⟨b, rfl⟩)
      | insertFailed => exact drains_inserted hn h hlength hrun (.inl rfl)

end Draining

section Runs

variable {s t : State ι}

theorem Inv.exactlyOnce (h : Inv s) (r : ι) : ExactlyOnce ConnectionNumber s where
  once := by
    have hnodup : (s.enqueued.map (·.number)).Nodup := by
      rw [h.numbers]
      exact List.nodup_range'
    rw [← h.split, List.map_append] at hnodup
    exact hnodup.of_append_left
  enqueued x hx := by
    rw [← h.split]
    exact List.mem_append_left _ hx
  dequeued x hx := by
    rw [← h.split] at hx
    exact (List.mem_append.mp hx).symm
  order tag := by
    rw [← h.split, ofTagEntries, ofTagEntries, List.filter_append]
    exact List.prefix_append _ _
  drains := drainsUpTo ConnectionNumber r _ s h (le_refl _)

omit [DecidableEq ι] in
theorem inv_start (AutoKeyId : Number) (docs : List Point) :
    Inv (start AutoKeyId docs : State ι) where
  split := rfl
  numbers := rfl
  texts x hx := by cases hx
  single r k hr := absurd rfl hr
  head r run hrun := by cases hrun

/-- Where the values have texts and the runs of the timer do not overlap, every entry is
issued exactly once, whatever the database answers. -/
theorem visits_exactlyOnce [Nonempty ι] {AutoKeyId : Number} {docs : List Point}
    {labels : List (Label ι)}
    (hc : Every (step ConnectionNumber) Condition (start AutoKeyId docs) labels)
    (ht : Visits (step ConnectionNumber) (start AutoKeyId docs) labels t) :
    ExactlyOnce ConnectionNumber t := by
  obtain ⟨r⟩ := ‹Nonempty ι›
  refine Inv.exactlyOnce ConnectionNumber ?_ r
  exact visits_invariant (fun _ _ _ hc hi hs => inv_step ConnectionNumber hi hc hs) hc
    (inv_start AutoKeyId docs) ht

end Runs

section Plant

/-- A measurement of a host. -/
def measurement (value : Number) : Value := .obj [
  ("name", .str "cpu"),
  ("tags", .obj [("host", .str "gateway")]),
  ("fields", .obj [("usage_idle", .num value)]),
  ("timestamp", .num (.fin 1000))]

/-- The timer ticks again while the first run waits for the look-up. -/
def overlapping : List (Label Bool) := [
  .message (measurement (.fin 97)), .timer false, .timer true, .lookUp false, .lookUp true,
  .resume false, .resume true, .insert false true, .insert true true, .resume false,
  .resume true]

/-- Both runs issue the entry they have read. -/
theorem overlapping_issues_twice :
    ∃ t, run (step (.fin 7)) (start (.fin 700000) []) overlapping = some t ∧
      t.issued.map (·.number) = [0, 0] ∧ ¬ ExactlyOnce (.fin 7) t := by
  have hrun : (run (step (.fin 7)) (start (.fin 700000) []) overlapping).map
      (fun t => t.issued.map (·.number)) = some [0, 0] := by
    decide +kernel
  obtain ⟨t, ht, hissued⟩ := Option.map_eq_some_iff.mp hrun
  refine ⟨t, ht, hissued, fun h => ?_⟩
  have honce := h.once
  rw [hissued] at honce
  exact absurd honce (by decide)

/-- A second value arrives while the run waits, and the insert fails. -/
def oneRun : List (Label Unit) := [
  .message (measurement (.fin 97)), .timer (), .lookUp (), .message (measurement (.fin 98)),
  .resume (), .fail (), .resume (), .lookUp ()]

theorem oneRun_condition :
    Every (step (.fin 7)) Condition (start (.fin 700000) []) oneRun := by
  have htexts : ∀ value : Number, ∀ e ∈ processMessageJSON (measurement value),
      toStringCall e.value ≠ none := by
    intro value e he
    obtain rfl := List.mem_singleton.mp he
    exact Option.some_ne_none _
  refine ⟨htexts _, fun s₁ h₁ => ⟨?_, fun _ _ => ⟨trivial, fun _ _ => ⟨htexts _, fun _ _ =>
    ⟨trivial, fun _ _ => ⟨trivial, fun _ _ => ⟨trivial, fun _ _ => ⟨trivial, fun _ _ =>
    trivial⟩⟩⟩⟩⟩⟩⟩⟩
  obtain rfl := Option.some.inj h₁
  intro k
  rfl

theorem oneRun_exactlyOnce :
    ∃ t, run (step (.fin 7)) (start (.fin 700000) []) oneRun = some t ∧
      ExactlyOnce (.fin 7) t := by
  have hsome : (run (step (.fin 7)) (start (.fin 700000) []) oneRun).isSome = true := by
    decide +kernel
  obtain ⟨t, ht⟩ := Option.isSome_iff_exists.mp hsome
  exact ⟨t, ht, visits_exactlyOnce (.fin 7) oneRun_condition ⟨oneRun, List.prefix_refl _, ht⟩⟩

end Plant

end JsonScada.System.TelegrafQueue
