/- path: JsonScada/System/CommandConfirmation
   source: src/lib60870.netcore/iec104server/AsduReceiveHandler.cs
   digest: When a command has one confirmation, which tells what became of it. -/

import JsonScada.Iec104Server.Handling

set_option autoImplicit false
set_option relaxedAutoImplicit false

namespace JsonScada.System.CommandConfirmation

open JsonScada.Lib.Binary64 JsonScada.Lib.DotNet
open JsonScada.Iec104.Types JsonScada.Iec104Server.Command JsonScada.Iec104Server.Handling

section Requirement

/-- The command has one confirmation; nothing is inserted where it is negative, and one
command where that of an execute is positive. -/
structure Answered (a : Asdu) (h : Handled) : Prop where
  once : h.confirmations.length = 1
  negative : true ∈ h.confirmations → h.inserted = []
  positive : false ∈ h.confirmations → IsExecute a → h.inserted.length = 1

def isBitstring : TypeID → Bool
  | .C_BO_NA_1 | .C_BO_TA_1 => true
  | _ => false

/-- The bits of a bitstring command can be taken for a number with a sign: where the
destination inverts, and where the source is a bitstring. -/
structure Converts (a : Asdu) (p : RtData) (d : Destination) (val : Number) : Prop where
  destination : isBitstring a.typeId = true → d.protocolDestinationKConv1 = .fin (-1) →
    (Convert.toInt32 val).isSome = true
  source : isBitstring (.ofCode (toInt32 p.protocolSourceASDU)) = true →
    ∀ v ∈ destinationValue a.typeId d val, (Convert.toInt32 v).isSome = true

/-- The execute finds its point selected, where a select is asked for, its value converts,
and the insert succeeds. -/
structure Queues (call : Call) (c : Comparison) (a : Asdu) (p : RtData) (d : Destination)
    (val : Number) : Prop where
  selected : d.protocolDestinationCommandUseSBO = true → c.LastPointKeySelectedOk = p._id
  converts : Converts a p d val
  inserts : call.inserts = true

end Requirement

section Conversions

variable {srv : Server} {call : Call} {c : Comparison} {a : Asdu} {p : RtData} {d : Destination}
  {val : Number}

theorem destinationValue_isSome : (destinationValue a.typeId d val).isSome = true ↔
    (isBitstring a.typeId = true → d.protocolDestinationKConv1 = .fin (-1) →
      (Convert.toInt32 val).isSome = true) := by
  by_cases hone : d.protocolDestinationKConv1 = .fin (-1)
  · cases a.typeId <;> simp [destinationValue, isBitstring, hone, Option.isSome_bind]
  · cases a.typeId <;> simp [destinationValue, isBitstring, hone]

theorem sourceValue_isSome {t : TypeID} : (sourceValue t p val).isSome = true ↔
    (isBitstring t = true → (Convert.toInt32 val).isSome = true) := by
  by_cases hone : p.kconv1 = .fin (-1)
  · cases t <;> simp [sourceValue, isBitstring, hone]
  · cases t <;> simp [sourceValue, isBitstring, hone]

theorem sourceCommand_isSome {now : ℤ} :
    (sourceCommand srv a p d val now).isSome = true ↔ Converts a p d val := by
  have hdestination := @destinationValue_isSome a d val
  unfold sourceCommand
  cases hv : destinationValue a.typeId d val with
  | none =>
    rw [hv] at hdestination
    exact iff_of_false (by simp) fun h => absurd (hdestination.mpr h.destination) (by simp)
  | some v =>
    rw [hv] at hdestination
    have hsource := @sourceValue_isSome p v (.ofCode (toInt32 p.protocolSourceASDU))
    have hconverts : Converts a p d val ↔
        (isBitstring (.ofCode (toInt32 p.protocolSourceASDU)) = true →
          (Convert.toInt32 v).isSome = true) := by
      constructor
      · intro h hbits
        exact h.source hbits v hv
      · intro h
        refine ⟨hdestination.mp rfl, fun hbits w hw => ?_⟩
        obtain rfl : v = w := Option.some.inj (hv.symm.trans hw)
        exact h hbits
    rw [hconverts, ← hsource]
    simp [Option.isSome_bind]

end Conversions

section Answers

variable {srv : Server} {call : Call} {c : Comparison} {a : Asdu}

/-- What an execute comes to once it is confirmed. -/
theorem queues_iff {p : RtData} {d : Destination} {val : Number} :
    Queues call c a p d val ↔
      (¬(d.protocolDestinationCommandUseSBO = true ∧ c.LastPointKeySelectedOk ≠ p._id)) ∧
        (if call.inserts then sourceCommand srv a p d val call.now else none).isSome = true := by
  constructor
  · intro h
    refine ⟨fun hne => hne.2 (h.selected hne.1), ?_⟩
    rw [if_pos h.inserts]
    exact sourceCommand_isSome.mpr h.converts
  · rintro ⟨hselected, hsome⟩
    cases hinserts : call.inserts with
    | false => simp [hinserts] at hsome
    | true =>
      rw [hinserts, if_pos rfl] at hsome
      exact ⟨fun hsbo => not_not.mp fun hne => hselected ⟨hsbo, hne⟩,
        sourceCommand_isSome.mp hsome, hinserts⟩

/-- A command has one confirmation, which tells what became of it, just when one can be
sent, and an execute that passes is queued. -/
theorem answered_iff (srv : Server) (call : Call) (c : Comparison) (a : Asdu) :
    Answered a (handle srv call c a) ↔
      ¬Silent call a ∧ ∀ p d val, Executes srv call a p d val → Queues call c a p d val := by
  rcases confirm_cases srv call a with ⟨hsilent, hconfirm⟩ |
    ⟨hs, hnone, negative, v, hconfirm, hv, hselect⟩ | ⟨hs, p, d, val, hexec, hconfirm⟩
  · refine iff_of_false (fun h => ?_) fun h => h.1 hsilent
    have honce := h.once
    rw [handle, hconfirm] at honce
    exact absurd honce (by simp [execute])
  · refine iff_of_true ?_ ⟨hs, fun p d val h => absurd h (hnone p d val)⟩
    have heq : handle srv call c a = { confirmations := [negative] } := by
      rw [handle, hconfirm]
      simp only [hv, List.append_nil]
    rw [heq]
    refine ⟨rfl, fun _ => rfl, fun hfalse hexecute => ?_⟩
    exact absurd hexecute (hselect (List.mem_singleton.mp hfalse).symm)
  · have hunique : (∀ q e w, Executes srv call a q e w → Queues call c a q e w) ↔
        Queues call c a p d val := by
      constructor
      · intro h
        exact h p d val hexec
      · intro h q e w hq
        obtain ⟨rfl, rfl, rfl⟩ := hexec.unique hq
        exact h
    rw [hunique, @queues_iff srv, and_iff_right hs, handle, hconfirm]
    generalize (if call.inserts then sourceCommand srv a p d val call.now else none) = command
    dsimp only
    have hisExecute := hexec.isExecute
    by_cases hselect : d.protocolDestinationCommandUseSBO = true ∧ c.LastPointKeySelectedOk ≠ p._id
    · -- confirmed twice, or confirmed and not queued
      refine iff_of_false (fun h => ?_) fun h => h.1 hselect
      have hpositive := h.positive (List.mem_append_left _ (List.mem_singleton.mpr rfl)) hisExecute
      simp [execute, hselect] at hpositive
    · have heq : execute c (.execute p._id d.protocolDestinationCommandUseSBO command) =
          { inserted := command.toList } := by rw [execute, if_neg hselect]
      rw [heq, and_iff_right hselect]
      cases command with
      | none =>
        refine iff_of_false (fun h => ?_) (by simp)
        exact absurd (h.positive (List.mem_singleton.mpr rfl) hisExecute) (by simp)
      | some rtcmd => exact iff_of_true ⟨rfl, fun h => absurd h (by simp), fun _ _ => rfl⟩ rfl

def station : Server where
  name := "SRV"
  protocolConnectionNumber := 1

/-- A breaker command whose destination asks for a select. -/
def breaker : RtData where
  _id := 64001
  protocolSourceASDU := .fin 45
  protocolDestinations := [{
    protocolDestinationConnectionNumber := .fin 1
    protocolDestinationCommonAddress := .fin 5
    protocolDestinationObjectAddress := .fin 100
    protocolDestinationASDU := .fin 45
    protocolDestinationCommandUseSBO := true }]

def close : Asdu where
  typeId := .C_SC_NA_1
  ca := 5
  objectAddress := 100
  state := 1

/-- An execute without its select is confirmed twice, positively first; without the database
there is no confirmation. -/
theorem close_not_answered :
    (handle station { documents := some [breaker] } ⟨0, true⟩ close).confirmations =
        [false, true] ∧
      ¬Answered close (handle station { documents := some [breaker] } ⟨0, true⟩ close) ∧
      ¬Answered close
        (handle station { isMongoLive := false, documents := some [breaker] } ⟨0, true⟩ close) := by
  have htwice : (handle station { documents := some [breaker] } ⟨0, true⟩ close).confirmations =
      [false, true] := by decide +kernel
  refine ⟨htwice, fun h => ?_, fun h => ?_⟩
  · have honce := h.once
    rw [htwice] at honce
    cases honce
  · have honce := h.once
    revert honce
    decide +kernel

end Answers

end JsonScada.System.CommandConfirmation
