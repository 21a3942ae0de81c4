/- path: JsonScada/System/Addressing
   source: src/server_realtime_auth/index.js, Write a Value: Command
   digest: Which point a command sent to a tag concerns. -/

import JsonScada.Server.Command

set_option autoImplicit false
set_option relaxedAutoImplicit false

namespace JsonScada.System.Addressing

open JsonScada.Lib.Binary64 JsonScada.Lib.EcmaScript JsonScada.Model.Documents
open JsonScada.Server.Request JsonScada.Server.Database JsonScada.Server.Command

/-- The document has the key, the tag and the source addressing of the point. -/
structure Operates (h : Host) (p : Point) (c : Command) : Prop where
  pointKey : c.pointKey = p._id
  tag : c.tag = p.tag
  connection : c.protocolSourceConnectionNumber = p.protocolSourceConnectionNumber
  address : (c.protocolSourceCommonAddress, c.protocolSourceObjectAddress, c.protocolSourceASDU) =
    addressing h p
  duration : c.protocolSourceCommandDuration = p.protocolSourceCommandDuration.toNumber
  useSBO : c.protocolSourceCommandUseSBO = p.protocolSourceCommandUseSBO

/-- What an effect of a command sent to the tag of `p` has to do with it. -/
def Concerns (h : Host) (p : Point) : Effect → Prop
  | .canSendCommandTo data => data = p
  | .insertCommand c => Operates h p c
  | .insertSoe e => e.tag = p.tag ∧ e.pointKey = p._id ∧ e.group1 = p.group1
  | .logAction a => a.pointKey = .str p.tag ∧ a.tag = .str p.tag

/-- The command is looked up: the user may send commands, and the value is accepted. -/
def Reaches (h : Host) (s : Session) (n : Node) : Prop :=
  (s.authentication = true → s.canSendCommands = true) ∧
    (n.value.bind (commandValue h)).isSome = true

/-- Every effect of a command on the point its search finds concerns that point. -/
theorem concerns_sendCommand {h : Host} {s : Session} {points : List Point}
    {query : Point → Bool} {p : Point} {v vs : JsVal}
    (hfind : ∀ q, points.find? query = some q → q = p) {e : Effect}
    (he : e ∈ (sendCommand h s points query (.str p.tag) v vs).1) : Concerns h p e := by
  obtain ⟨data, hdata, hcases⟩ := mem_sendCommand he
  obtain rfl := hfind data hdata
  rcases hcases with rfl | rfl | rfl | rfl
  · rfl
  · exact ⟨rfl, rfl, rfl, rfl, rfl, rfl⟩
  · exact ⟨rfl, rfl, rfl⟩
  · exact ⟨rfl, rfl⟩

/-- A search that finds another point has an effect that shows it. -/
theorem not_concerns_sendCommand {h : Host} {s : Session} {points : List Point}
    {query : Point → Bool} {p q : Point} {v vs : JsVal} (hq : points.find? query = some q)
    (hne : q._id ≠ p._id) :
    ∃ e ∈ (sendCommand h s points query (.str p.tag) v vs).1, ¬ Concerns h p e := by
  cases ha : s.authentication with
  | true =>
    refine ⟨.canSendCommandTo q, ?_, ?_⟩
    · simp only [sendCommand, hq, ha, if_true]
      split_ifs <;> simp
    · rintro rfl
      exact hne rfl
  | false =>
    refine ⟨.insertCommand (commandDocument h s q v vs), ?_, fun hc => hne hc.pointKey⟩
    simp only [sendCommand, hq, ha, Bool.false_eq_true, if_false, Bool.false_and]
    split_ifs <;> simp

/-- A special tag does not begin like a number. -/
theorem parseInt_special {h : Host} {tag : String} (hs : isSpecial tag = true) :
    h.parseInt (.str tag) = .nan := by
  have hprefix : ['$', '$'].isPrefixOf tag.toList = true := hs
  obtain ⟨rest, hrest⟩ := List.isPrefixOf_iff_prefix.mp hprefix
  have htext : h.text (.str tag) = '$' :: '$' :: rest := hrest.symm
  unfold Host.parseInt
  rw [htext]
  exact parseInt_eq_nan ('$' :: rest) (by decide) (by decide) (by decide) (by decide)

section Node

variable {h : Host} {s : Session} {points : List Point} {p : Point} {n : Node}

/-- A command node before the search: it ends the request, or it goes on with its value. -/
theorem writeCommand_eq (hid : n.nodeId.bind NodeId.id = some (.str p.tag)) :
    (∃ flow, ¬ Reaches h s n ∧ writeCommand h s points n = ([], flow)) ∨
      ∃ v vs, Reaches h s n ∧ writeCommand h s points n =
        if (h.parseInt (.str p.tag)).isNaN then
          if isSpecial p.tag then sendSpecial h s p.tag v vs
          else sendCommand h s points (fun q => q.tag = p.tag) (.str p.tag) v vs
        else
          sendCommand h s points (fun q => q._id = h.parseInt (.str p.tag)) (.str p.tag) v vs := by
  by_cases hmay : s.authentication = true → s.canSendCommands = true
  · have hpass : (s.authentication && !s.canSendCommands) = false := by
      cases ha : s.authentication with
      | false => rfl
      | true => simp [hmay ha]
    cases hv : n.value.bind (commandValue h) with
    | none =>
      refine .inl ⟨.reply .BadNodeAttributesInvalid, fun hr => ?_, ?_⟩
      · have hsome := hr.2
        rw [hv] at hsome
        cases hsome
      · rw [writeCommand, hpass, hid, hv]
        rfl
    | some v =>
      refine .inr ⟨v.1, v.2, ⟨hmay, by rw [hv]; rfl⟩, ?_⟩
      rw [writeCommand, hpass, hid, hv]
      rfl
  · refine .inl ⟨.reply .BadUserAccessDenied, fun hr => hmay hr.1, ?_⟩
    have hdenied : (s.authentication && !s.canSendCommands) = true := by
      simpa using hmay
    rw [writeCommand, hdenied]
    rfl

theorem find?_tag (hu : Db.UniqueKeys points) (hp : p ∈ points) {q : Point}
    (hq : points.find? (fun q => q.tag = p.tag) = some q) : q = p := by
  have htag : q.tag = p.tag := by simpa using List.find?_some hq
  exact hu.tag q (List.mem_of_find?_eq_some hq) p hp htag

/-- Commands sent to the tag of a point concern that point in just these cases: nothing is
looked up; the tag is special and the point is like the special ones; or no other point has
the number the tag begins with for its key. -/
theorem writeCommand_concerns_iff (hu : Db.UniqueKeys points) (hp : p ∈ points)
    (hid : n.nodeId.bind NodeId.id = some (.str p.tag)) :
    (∀ e ∈ (writeCommand h s points n).1, Concerns h p e) ↔
      (Reaches h s n → if isSpecial p.tag = true then
          Operates h p (specialCommand h s p.tag .undefined .undefined)
        else ∀ q ∈ points, q._id = h.parseInt (.str p.tag) →
          (h.parseInt (.str p.tag)).isNaN = false → q = p) := by
  rcases @writeCommand_eq h s points p n hid with ⟨flow, hnot, heq⟩ | ⟨v, vs, hreach, heq⟩
  · rw [heq]
    constructor
    · intro _ hr
      exact absurd hr hnot
    · intro _ e he
      cases he
  · rw [heq]
    cases hs : isSpecial p.tag with
    | true =>
      have hnan : (h.parseInt (.str p.tag)).isNaN = true := by
        rw [parseInt_special hs]
        rfl
      rw [if_pos hnan, if_pos rfl, if_pos rfl]
      constructor
      · intro hall _
        obtain ⟨h1, h2, h3, h4, h5, h6⟩ := hall _ List.mem_cons_self
        exact ⟨h1, h2, h3, h4, h5, h6⟩
      · intro hlike e he
        obtain rfl := List.mem_singleton.mp he
        obtain ⟨h1, h2, h3, h4, h5, h6⟩ := hlike hreach
        exact ⟨h1, h2, h3, h4, h5, h6⟩
    | false =>
      rw [if_neg Bool.false_ne_true, if_neg Bool.false_ne_true]
      cases hnan : (h.parseInt (.str p.tag)).isNaN with
      | true =>
        rw [if_pos rfl]
        constructor
        · intro _ _ _ _ _ hcontra
          cases hcontra
        · intro _ e he
          exact concerns_sendCommand (fun q hq => find?_tag hu hp hq) he
      | false =>
        rw [if_neg Bool.false_ne_true]
        constructor
        · intro hall _ q hq hkey _
          by_contra hne
          have hfind : points.find? (fun q => q._id = h.parseInt (.str p.tag)) = some q := by
            cases hf : points.find? (fun q => q._id = h.parseInt (.str p.tag)) with
            | none =>
              have hnone := List.find?_eq_none.mp hf q hq
              exact absurd hkey (by simpa using hnone)
            | some r =>
              have hr : r._id = h.parseInt (.str p.tag) := by simpa using List.find?_some hf
              rw [hu._id r (List.mem_of_find?_eq_some hf) q hq (hr.trans hkey.symm)]
          have hid' : q._id ≠ p._id := fun heq => hne (hu._id q hq p hp heq)
          obtain ⟨e, he, hnot⟩ := @not_concerns_sendCommand h s points _ p q v vs hfind hid'
          exact hnot (hall e he)
        · intro hkeys e he
          refine concerns_sendCommand (fun q hq => ?_) he
          have hkey : q._id = h.parseInt (.str p.tag) := by simpa using List.find?_some hq
          exact hkeys hreach q (List.mem_of_find?_eq_some hq) hkey rfl

/-- A command sent to the tag of a point concerns that point, unless the tag begins like
the key of another one; a special tag is queued under itself, whatever points there are. -/
theorem command_concerns (hu : Db.UniqueKeys points) (hp : p ∈ points)
    (hid : n.nodeId.bind NodeId.id = some (.str p.tag)) :
    (isSpecial p.tag = false → (∀ q ∈ points, q._id = h.parseInt (.str p.tag) → q = p) →
        ∀ e ∈ (writeCommand h s points n).1, Concerns h p e) ∧
      (isSpecial p.tag = true → ∀ e ∈ (writeCommand h s points n).1,
        ∃ v vs, e = .insertCommand (specialCommand h s p.tag v vs)) := by
  constructor
  · intro hs hkeys
    rw [writeCommand_concerns_iff hu hp hid, hs]
    intro _ q hq hkey _
    exact hkeys q hq hkey
  · intro hs e he
    rcases @writeCommand_eq h s points p n hid with ⟨flow, -, heq⟩ | ⟨v, vs, -, heq⟩
    · rw [heq] at he
      cases he
    · have hnan : (h.parseInt (.str p.tag)).isNaN = true := by
        rw [parseInt_special hs]
        rfl
      rw [heq, if_pos hnan, if_pos hs] at he
      exact ⟨v, vs, List.mem_singleton.mp he⟩

end Node

section Example

def camera : Point := { _id := .fin 5, tag := "$$CAM001$$stop", type := .analog, group1 := "KAW2" }

/-- A command with the value one. -/
def commandTo (tag : String) : Node :=
  { attributeId := some (.num (.fin 13))
    nodeId := some ⟨.num (.fin 1), some (.str tag)⟩
    value := some { type := .num (.fin 11), body := .num (.fin 1) } }

theorem command_concerns_pump :
    (writeCommand Host.plain operator [breaker, pump, camera] (commandTo "PUMP")).1 ≠ [] ∧
      ∀ e ∈ (writeCommand Host.plain operator [breaker, pump, camera] (commandTo "PUMP")).1,
        Concerns Host.plain pump e := by
  refine ⟨by decide +kernel, ?_⟩
  refine (command_concerns (Db.uniqueKeys_of_nodup (by decide +kernel) (by decide +kernel))
    (by decide +kernel) rfl).1 (by decide +kernel) ?_
  intro q hq hkey
  have hnone : ∀ q ∈ [breaker, pump, camera], q._id ≠ Host.plain.parseInt (.str pump.tag) := by
    decide +kernel
  exact absurd hkey (hnone q hq)

/-- The command of a camera is queued under key zero, whatever point has its tag. -/
theorem not_command_concerns_special :
    ¬ ∀ (h : Host) (s : Session) (points : List Point) (p : Point) (n : Node),
      Db.UniqueKeys points → p ∈ points → n.nodeId.bind NodeId.id = some (.str p.tag) →
        ∀ e ∈ (writeCommand h s points n).1, Concerns h p e := by
  intro hall
  have hc := hall Host.plain operator [camera] camera (commandTo "$$CAM001$$stop")
    (Db.uniqueKeys_of_nodup (by decide +kernel) (by decide +kernel)) List.mem_cons_self rfl
    (.insertCommand (specialCommand Host.plain operator "$$CAM001$$stop" (.num (.fin 1))
      (.str "1"))) (by decide +kernel)
  have hkey : (0 : ℚ) = 5 := Number.fin.inj hc.pointKey
  norm_num at hkey

-- the digits a tag begins with are read as the key of another point
example : (writeCommand Host.plain operator [breaker, pump] (commandTo "12KPR")).1.head? =
    some (.canSendCommandTo pump) := by decide +kernel

end Example

end JsonScada.System.Addressing
