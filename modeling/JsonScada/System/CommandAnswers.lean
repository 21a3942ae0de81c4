/- path: JsonScada/System/CommandAnswers
   layer: system
   digest: When the answer to a write of an OPC-UA client tells what becomes of the command. -/

import JsonScada.OpcUaServer.Command

set_option autoImplicit false
set_option relaxedAutoImplicit false

namespace JsonScada.System.CommandAnswers

open JsonScada.Lib.Binary64 JsonScada.Lib.EcmaScript
open JsonScada.Model.Documents (Date)
open JsonScada.OpcUaServer.Convert JsonScada.OpcUaServer.Startup JsonScada.OpcUaServer.Command

section Requirement

/-- The number that is written. -/
def written : Variant → Number
  | .boolean value => if value then .fin 1 else .fin 0
  | .number value => value
  | .words high low => .fin (high * 2 ^ 32 + low : ℤ)
  | .string (some value) => parseFloat value.toList
  | .string none => .nan

/-- The command is the one of the tag, with the number that is written. -/
structure Carries (cmdRes : RtData) (variant : Variant) (cmd : RtCommand) : Prop where
  pointKey : cmd.pointKey = cmdRes._id
  tag : cmd.tag = cmdRes.tag
  connectionNumber : cmd.protocolSourceConnectionNumber = cmdRes.protocolSourceConnectionNumber
  commonAddress : cmd.protocolSourceCommonAddress = cmdRes.protocolSourceCommonAddress
  objectAddress : cmd.protocolSourceObjectAddress = cmdRes.protocolSourceObjectAddress
  asdu : cmd.protocolSourceASDU = cmdRes.protocolSourceASDU
  commandDuration : cmd.protocolSourceCommandDuration = cmdRes.protocolSourceCommandDuration
  commandUseSBO : cmd.protocolSourceCommandUseSBO = cmdRes.protocolSourceCommandUseSBO
  value : cmd.value = written variant

/-- The command tag is blocked, or the supervised point it has. -/
def Blocked (first second : List RtData) (tag : String) : Prop :=
  ∃ cmdRes : RtData, first.find? (fun doc => doc.tag = tag) = some cmdRes ∧
    (cmdRes.commandBlocked = some true ∨ (cmdRes.supervisedOfCommand ≠ .fin 0 ∧
      ∃ supRes : RtData,
        second.find? (fun doc => doc._id = cmdRes.supervisedOfCommand) = some supRes ∧
        supRes.commandBlocked = some true))

/-- The answer is good when one command is inserted, and only then; a blocked tag has none. -/
structure Truthful (first second : List RtData) (tag : String) (variant : Variant)
    (w : Write) : Prop where
  answered : w.answer = .good ↔ ∃ cmdRes cmd,
    first.find? (fun doc : RtData => doc.tag = tag) = some cmdRes ∧ w.sent.inserted = [cmd] ∧
      Carries cmdRes variant cmd
  blocked : Blocked first second tag → w.sent.inserted = []

end Requirement

section Answers

variable {connection : Connection} {first second : List RtData} {now : Date} {tag : String}
  {variant : Variant}

/-- The variant has a value, as one number or one text. -/
def Plain : Variant → Prop
  | .boolean _ => True
  | .number _ => True
  | .words _ _ => False
  | .string value => value.isSome

theorem nothing_of_blocked (h : Blocked first second tag) :
    (sendCommand connection first second now tag variant).inserted = [] := by
  by_contra hne
  obtain ⟨cmdRes, -, hpasses, -⟩ := passes_of_inserted hne
  obtain ⟨cmdRes', hfound, hblocked⟩ := h
  obtain rfl : cmdRes = cmdRes' := Option.some.inj (hpasses.found.symm.trans hfound)
  rcases hblocked with hblocked | ⟨-, supRes, hsup, hblocked⟩
  · have hfree := hpasses.free
    rw [hblocked] at hfree
    cases hfree
  · obtain ⟨supRes', hsup', hfree⟩ := hpasses.supervisedFree
    rw [Option.some.inj (hsup'.symm.trans hsup), hblocked] at hfree
    cases hfree

/-- What is sent has the number that is written just when the variant is plain. -/
theorem plain_iff : Plain variant ↔
    (strVal variant).isSome = true ∧ doubleVal variant = written variant := by
  cases variant with
  | boolean value => simp [Plain, strVal, doubleVal, written]
  | number value => simp [Plain, strVal, doubleVal, written]
  | words high low => simp [Plain, doubleVal, written]
  | string value => cases value <;> simp [Plain, strVal, doubleVal, written]

theorem carries_commandOf {cmdRes : RtData} {text : String}
    (hvalue : doubleVal variant = written variant) :
    Carries cmdRes variant (commandOf connection now cmdRes variant text) :=
  ⟨rfl, rfl, rfl, rfl, rfl, rfl, rfl, rfl, hvalue⟩

/-- The answer to a write is truthful just when the command passes and the variant is plain: every
write is answered good. -/
theorem truthful_iff (connection : Connection) (first second : List RtData) (now : Date)
    (element : RtData) (variant : Variant) :
    Truthful first second element.tag variant (set connection first second now element variant) ↔
      (∃ cmdRes, Passes first second element.tag cmdRes) ∧ Plain variant := by
  constructor
  · intro h
    obtain ⟨cmdRes, cmd, hfound, hinserted, hcarries⟩ := h.answered.mp rfl
    have hsent : (sendCommand connection first second now element.tag variant).inserted = [cmd] :=
      hinserted
    obtain ⟨cmdRes', text, hpasses, htext⟩ := passes_of_inserted (hsent ▸ List.cons_ne_nil _ _)
    rw [inserted_of_passes hpasses htext] at hsent
    obtain rfl := (List.cons.inj hsent).1
    exact ⟨⟨cmdRes', hpasses⟩, plain_iff.mpr ⟨by rw [htext]; rfl, hcarries.value⟩⟩
  · rintro ⟨⟨cmdRes, hpasses⟩, hplain⟩
    obtain ⟨hsome, hvalue⟩ := plain_iff.mp hplain
    obtain ⟨text, htext⟩ := Option.isSome_iff_exists.mp hsome
    exact ⟨iff_of_true rfl ⟨cmdRes, _, hpasses.found, inserted_of_passes hpasses htext,
      carries_commandOf hvalue⟩, nothing_of_blocked⟩

/-- A command that is not blocked and has no supervised point. -/
def blind : RtData where
  _id := .fin 64001
  tag := "KOR1TR1-2XCBR5238----K"
  type := "digital"
  value := .fin 0
  origin := "command"
  protocolSourceConnectionNumber := .fin 1

/-- It is published, and the write is answered good without a command. -/
theorem blind_not_truthful : ∃ connection,
    query connection blind = true ∧ blind.commandBlocked = some false ∧
    (set connection [blind] [blind] 0 blind (.boolean true)).answer = .good ∧
    (set connection [blind] [blind] 0 blind (.boolean true)).sent.inserted = [] ∧
    ¬ Truthful [blind] [blind] blind.tag (.boolean true)
      (set connection [blind] [blind] 0 blind (.boolean true)) := by
  refine ⟨⟨.fin 2, "OPCUA-SERVER", true, []⟩, by decide, rfl, rfl, rfl, fun h => ?_⟩
  obtain ⟨cmdRes, cmd, -, hinserted, -⟩ := h.answered.mp rfl
  cases hinserted

end Answers

end JsonScada.System.CommandAnswers
