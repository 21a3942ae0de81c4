/- path: JsonScada/Server/Signin
   source: src/server_realtime_auth/app/controllers/auth.controller.js, app/models/role.model.js
   digest: Roles of a user and the rights that are combined for the token. -/

import JsonScada.Server.Request

set_option autoImplicit false
set_option relaxedAutoImplicit false

namespace JsonScada.Server.Signin

open JsonScada.Lib.Binary64

inductive Right where
  | isAdmin
  | changePassword
  | sendCommands
  | enterAnnotations
  | enterNotes
  | enterManuals
  | enterLimits
  | substituteValues
  | ackEvents
  | ackAlarms
  | disableAlarms
  deriving DecidableEq

/-- A document of the roles collection. The schema gives a default to every path, so each test
whether a path is there succeeds. -/
structure Role where
  name : String := "new role"
  isAdmin : Bool := false
  changePassword : Bool := false
  sendCommands : Bool := false
  enterAnnotations : Bool := false
  enterNotes : Bool := false
  enterManuals : Bool := false
  enterLimits : Bool := false
  substituteValues : Bool := false
  ackEvents : Bool := false
  ackAlarms : Bool := false
  disableAlarms : Bool := false
  group1List : List String := []
  group1CommandList : List String := []
  displayList : List String := []
  maxSessionDays : Number := .fin 3
  deriving DecidableEq

/-- The rights in the token. -/
structure Rights where
  isAdmin : Bool := false
  changePassword : Bool := false
  sendCommands : Bool := false
  enterAnnotations : Bool := false
  enterNotes : Bool := false
  enterManuals : Bool := false
  enterLimits : Bool := false
  substituteValues : Bool := false
  ackEvents : Bool := false
  ackAlarms : Bool := false
  disableAlarms : Bool := false
  group1List : List String := []
  group1CommandList : List String := []
  displayList : List String := []
  maxSessionDays : Number := .fin 0
  deriving DecidableEq

def Role.grants (role : Role) : Right → Bool
  | .isAdmin => role.isAdmin
  | .changePassword => role.changePassword
  | .sendCommands => role.sendCommands
  | .enterAnnotations => role.enterAnnotations
  | .enterNotes => role.enterNotes
  | .enterManuals => role.enterManuals
  | .enterLimits => role.enterLimits
  | .substituteValues => role.substituteValues
  | .ackEvents => role.ackEvents
  | .ackAlarms => role.ackAlarms
  | .disableAlarms => role.disableAlarms

def Rights.grants (rights : Rights) : Right → Bool
  | .isAdmin => rights.isAdmin
  | .changePassword => rights.changePassword
  | .sendCommands => rights.sendCommands
  | .enterAnnotations => rights.enterAnnotations
  | .enterNotes => rights.enterNotes
  | .enterManuals => rights.enterManuals
  | .enterLimits => rights.enterLimits
  | .substituteValues => rights.substituteValues
  | .ackEvents => rights.ackEvents
  | .ackAlarms => rights.ackAlarms
  | .disableAlarms => rights.disableAlarms

/-- The role number `i` is added to the rights. -/
def addRole (i : ℕ) (rights : Rights) (role : Role) : Rights :=
  { isAdmin := rights.isAdmin || role.isAdmin
    changePassword := rights.changePassword || role.changePassword
    sendCommands := rights.sendCommands || role.sendCommands
    enterAnnotations := rights.enterAnnotations || role.enterAnnotations
    enterNotes := rights.enterNotes || role.enterNotes
    enterManuals := rights.enterManuals || role.enterManuals
    enterLimits := rights.enterLimits || role.enterLimits
    substituteValues := rights.substituteValues || role.substituteValues
    ackEvents := rights.ackEvents || role.ackEvents
    ackAlarms := rights.ackAlarms || role.ackAlarms
    disableAlarms := rights.disableAlarms || role.disableAlarms
    group1List :=
      if 0 < i ∧ (rights.group1List.length = 0 ∨ role.group1List.length = 0) then []
      else rights.group1List ++ role.group1List
    group1CommandList := rights.group1CommandList ++ role.group1CommandList
    displayList := rights.displayList ++ role.displayList
    maxSessionDays :=
      if Number.lt rights.maxSessionDays role.maxSessionDays then role.maxSessionDays
      else rights.maxSessionDays }

/-- The loop over the roles of the user, from the role number `i` on. -/
def addRoles : ℕ → Rights → List Role → Rights
  | _, rights, [] => rights
  | i, rights, role :: roles => addRoles (i + 1) (addRole i rights role) roles

/-- Combines all roles rights for the user. -/
def combined (roles : List Role) : Rights := addRoles 0 {} roles

/-- What the command checks read of a role. -/
def Role.forCommands (role : Role) : Request.Role := ⟨role.sendCommands, role.group1CommandList⟩

/-- What the services read of the rights. -/
def Rights.forServices (rights : Rights) : Request.Rights :=
  { group1List := rights.group1List
    ackEvents := rights.ackEvents
    ackAlarms := rights.ackAlarms
    disableAlarms := rights.disableAlarms
    enterAnnotations := rights.enterAnnotations
    enterLimits := rights.enterLimits
    enterNotes := rights.enterNotes
    substituteValues := rights.substituteValues }

section Loop

variable (i : ℕ) (rights : Rights) (role : Role) (roles : List Role)

@[simp] theorem addRole_grants (right : Right) :
    (addRole i rights role).grants right = (rights.grants right || role.grants right) := by
  cases right <;> rfl

theorem addRoles_grants (right : Right) :
    (addRoles i rights roles).grants right =
      (rights.grants right || roles.any fun role => role.grants right) := by
  induction roles generalizing i rights with
  | nil => exact (Bool.or_false _).symm
  | cons role roles ih =>
    rw [addRoles, ih, addRole_grants, Bool.or_assoc, List.any_cons]

theorem addRoles_group1CommandList :
    (addRoles i rights roles).group1CommandList =
      rights.group1CommandList ++ roles.flatMap Role.group1CommandList := by
  induction roles generalizing i rights with
  | nil => exact (List.append_nil _).symm
  | cons role roles ih =>
    rw [addRoles, ih, List.flatMap_cons, ← List.append_assoc]
    rfl

theorem addRoles_displayList :
    (addRoles i rights roles).displayList =
      rights.displayList ++ roles.flatMap Role.displayList := by
  induction roles generalizing i rights with
  | nil => exact (List.append_nil _).symm
  | cons role roles ih =>
    rw [addRoles, ih, List.flatMap_cons, ← List.append_assoc]
    rfl

/-- An empty list is kept once it is there. -/
theorem addRoles_group1List_nil (hi : 0 < i) (hempty : rights.group1List = []) :
    (addRoles i rights roles).group1List = [] := by
  induction roles generalizing i rights with
  | nil => exact hempty
  | cons role roles ih =>
    rw [addRoles]
    apply ih (i + 1) _ (Nat.succ_pos i)
    exact if_pos ⟨hi, Or.inl (List.length_eq_zero_iff.mpr hempty)⟩

theorem addRoles_group1List (hi : 0 < i) (hfull : rights.group1List ≠ []) :
    (addRoles i rights roles).group1List =
      if ∃ role ∈ roles, role.group1List = [] then []
      else rights.group1List ++ roles.flatMap Role.group1List := by
  induction roles generalizing i rights with
  | nil =>
    rw [if_neg, List.flatMap_nil, List.append_nil, addRoles]
    rintro ⟨role, hmem, -⟩
    cases hmem
  | cons role roles ih =>
    rw [addRoles]
    by_cases hempty : role.group1List = []
    · rw [if_pos ⟨role, List.mem_cons_self, hempty⟩]
      apply addRoles_group1List_nil (i + 1) _ roles (Nat.succ_pos i)
      exact if_pos ⟨hi, Or.inr (List.length_eq_zero_iff.mpr hempty)⟩
    · have hadded : (addRole i rights role).group1List = rights.group1List ++ role.group1List := by
        apply if_neg
        rintro ⟨-, hzero | hzero⟩
        · exact hfull (List.length_eq_zero_iff.mp hzero)
        · exact hempty (List.length_eq_zero_iff.mp hzero)
      have hlist : (addRole i rights role).group1List ≠ [] := by
        rw [hadded]
        exact List.append_ne_nil_of_left_ne_nil hfull _
      have hexists : (∃ r ∈ role :: roles, r.group1List = []) ↔ ∃ r ∈ roles, r.group1List = [] := by
        simp only [List.mem_cons, or_and_right, exists_or, exists_eq_left, hempty, false_or]
      rw [ih (i + 1) _ (Nat.succ_pos i) hlist, hadded, List.flatMap_cons, List.append_assoc]
      simp only [hexists]

end Loop

end JsonScada.Server.Signin
