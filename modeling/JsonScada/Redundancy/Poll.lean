/- path: JsonScada/Redundancy/Poll
   source: src/cs_data_processor/redundancy.js, src/mqtt-sparkplug/redundancy.js,
     src/calculations/calculations.go, src/i104m/i104m.go, src/iccp/iccp-server/config.go,
     src/lib60870.netcore/iec104client/Redundancy.cs
   digest: One poll of the instance document by the redundancy loop of each process. -/

import Mathlib.Data.Int.Notation
import JsonScada.Lib.Watchdog

set_option autoImplicit false
set_option relaxedAutoImplicit false

namespace JsonScada.Redundancy.Poll

open JsonScada.Lib.Watchdog

universe u
variable {τ : Type u} [DecidableEq τ]

/-- The document of a process or driver instance. -/
structure Instance (τ : Type u) where
  enabled : Bool := true
  nodeNames : List String := []
  activeNodeName : String
  activeNodeKeepAliveTimeTag : τ
  deriving DecidableEq

/-- A poll ends the process, or leaves the node in a state; a node that ends the poll
active writes its name and a fresh tag. -/
inductive Outcome (τ : Type u) where
  | exit
  | next (node : Watch τ) (writes : Bool)
  deriving DecidableEq

def Outcome.node : Outcome τ → Option (Watch τ)
  | .exit => none
  | .next node _ => some node

def observe (nodeName : String) (inst : Instance τ) : Sight τ :=
  if inst.activeNodeName = nodeName then .own else .other inst.activeNodeKeepAliveTimeTag

/-- The check of the active node, the same in every loop but for where the count of
keep-alives not updated starts over. -/
def checkActive (policy : Policy) (nodeName : String) (inst : Instance τ) (node : Watch τ) :
    Outcome τ :=
  let node := look policy node (observe nodeName inst)
  .next node node.active

/-- `strings.TrimSpace` -/
def trimSpace (s : String) : List Char :=
  let white (c : Char) : Bool :=
    c.toNat ∈ [9, 10, 11, 12, 13, 32, 0x85, 0xA0, 0x1680, 0x2028, 0x2029, 0x202F, 0x205F, 0x3000] ||
      (0x2000 ≤ c.toNat && c.toNat ≤ 0x200A)
  (((s.toList.dropWhile white).reverse).dropWhile white).reverse

/-- `contains` of the Go drivers -/
def contains (names : List String) (name : String) : Bool :=
  names.any fun n => trimSpace name == trimSpace n

/-- The node is not barred by a list of names. -/
def allowed (inst : Instance τ) (nodeName : String) : Bool :=
  inst.nodeNames.isEmpty || inst.nodeNames.contains nodeName

/-- The processes that run the JavaScript loop. -/
inductive Program where
  | csDataProcessor
  | mqttSparkplug
  deriving DecidableEq

/-- `ProcessRedundancy`, `countKeepAliveUpdatesLimit` being 4 -/
def nodeJs : Policy :=
  { limit := 4, ownResets := true, changeResets := true, fireResets := true }

/-- The data processor creates a missing document, the Sparkplug driver ignores it. -/
def Program.ProcessRedundancy (program : Program) (nodeName : String)
    (result : Option (Instance τ)) (node : Watch τ) : Outcome τ :=
  match result with
  | none =>
    match program with
    | .csDataProcessor => .next { node with active := true } true
    | .mqttSparkplug => .next node false
  | some inst =>
    if !inst.enabled then .exit
    else if !allowed inst nodeName then .exit
    else checkActive nodeJs nodeName inst node

/-- `time.Time` or `DateTime`, the zero value being 0 -/
abbrev Time := ℤ

namespace Calculations

def policy : Policy :=
  { limit := 4, ownResets := false, changeResets := false, fireResets := false }

/-- A missing document is created in the name of this node, which stays as it is. -/
def processRedundancy (nodeName : String) (found : Option (Instance Time)) (node : Watch Time) :
    Outcome Time :=
  match found with
  | none => .next node true
  | some inst =>
    if !inst.enabled then .exit
    else if !allowed inst nodeName then .exit
    else checkActive policy nodeName inst node

end Calculations

namespace I104m

def policy : Policy :=
  { limit := 4, ownResets := false, changeResets := false, fireResets := false }

/-- A failed query leaves the instance with its zero values, and the poll goes on. -/
def processRedundancy (nodeName : String) (found : Option (Instance Time)) (node : Watch Time) :
    Outcome Time :=
  let inst := found.getD { activeNodeName := "", activeNodeKeepAliveTimeTag := 0 }
  if !inst.nodeNames.isEmpty && !contains inst.nodeNames nodeName then .exit
  else checkActive policy nodeName inst node

end I104m

namespace Iec104Client

def policy : Policy :=
  { limit := 4, ownResets := true, changeResets := false, fireResets := false }

/-- Without an instance the node goes inactive. -/
def ProcessRedundancyMongo (nodeName : String) (found : Option (Instance Time))
    (node : Watch Time) : Outcome Time :=
  match found with
  | none => .next { node with active := false, count := node.held } false
  | some inst =>
    if !allowed inst nodeName then .exit
    else checkActive policy nodeName inst node

end Iec104Client

namespace IccpServer

def policy : Policy :=
  { limit := 4, ownResets := false, changeResets := false, fireResets := false }

/-- A failed query ends the poll. -/
def processRedundancy (nodeName : String) (found : Option (Instance Time)) (node : Watch Time) :
    Outcome Time :=
  match found with
  | none => .next node false
  | some inst =>
    if !inst.nodeNames.isEmpty && !contains inst.nodeNames nodeName then .exit
    else checkActive policy nodeName inst node

end IccpServer

/-- The processes that run the loop without a restart of the count. -/
inductive Driver where
  | calculations
  | i104m
  | iec104client
  | iccpServer
  deriving DecidableEq

namespace Driver

def policy : Driver → Policy
  | .calculations => Calculations.policy
  | .i104m => I104m.policy
  | .iec104client => Iec104Client.policy
  | .iccpServer => IccpServer.policy

def processRedundancy (d : Driver) (nodeName : String) (found : Option (Instance Time))
    (node : Watch Time) : Outcome Time :=
  match d with
  | .calculations => Calculations.processRedundancy nodeName found node
  | .i104m => I104m.processRedundancy nodeName found node
  | .iec104client => Iec104Client.ProcessRedundancyMongo nodeName found node
  | .iccpServer => IccpServer.processRedundancy nodeName found node

end Driver

/-- A poll that finds a document either ends the process or looks at the name and tag
in it. -/
theorem Program.processRedundancy_found (program : Program) (nodeName : String)
    (inst : Instance τ) (node : Watch τ) :
    program.ProcessRedundancy nodeName (some inst) node = .exit ∨
      program.ProcessRedundancy nodeName (some inst) node =
        checkActive nodeJs nodeName inst node := by
  unfold Program.ProcessRedundancy
  by_cases he : (!inst.enabled) = true
  · exact .inl (if_pos he)
  · by_cases ha : (!allowed inst nodeName) = true
    · exact .inl ((if_neg he).trans (if_pos ha))
    · exact .inr ((if_neg he).trans (if_neg ha))

theorem Driver.processRedundancy_found (d : Driver) (nodeName : String)
    (inst : Instance Time) (node : Watch Time) :
    d.processRedundancy nodeName (some inst) node = .exit ∨
      d.processRedundancy nodeName (some inst) node =
        checkActive d.policy nodeName inst node := by
  cases d with
  | calculations =>
    show Calculations.processRedundancy nodeName (some inst) node = _ ∨ _
    by_cases he : (!inst.enabled) = true
    · exact .inl (if_pos he)
    · by_cases ha : (!allowed inst nodeName) = true
      · exact .inl ((if_neg he).trans (if_pos ha))
      · exact .inr ((if_neg he).trans (if_neg ha))
  | i104m =>
    by_cases ha : (!inst.nodeNames.isEmpty && !contains inst.nodeNames nodeName) = true
    · exact .inl (if_pos ha)
    · exact .inr (if_neg ha)
  | iec104client =>
    by_cases ha : (!allowed inst nodeName) = true
    · exact .inl (if_pos ha)
    · exact .inr (if_neg ha)
  | iccpServer =>
    by_cases ha : (!inst.nodeNames.isEmpty && !contains inst.nodeNames nodeName) = true
    · exact .inl (if_pos ha)
    · exact .inr (if_neg ha)

theorem Driver.changeResets (d : Driver) : d.policy.changeResets = false := by
  cases d <;> rfl

theorem Driver.limit (d : Driver) : d.policy.limit = 4 := by
  cases d <;> rfl

end JsonScada.Redundancy.Poll
