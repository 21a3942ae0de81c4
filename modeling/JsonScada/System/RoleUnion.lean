/- path: JsonScada/System/RoleUnion
   source: src/server_realtime_auth/app/controllers/auth.controller.js, app/middlewares/authJwt.js
   digest: What the rights of a user are, in terms of the rights of the roles. -/

import JsonScada.Server.Signin
import Mathlib.Data.List.Perm.Basic

set_option autoImplicit false
set_option relaxedAutoImplicit false

namespace JsonScada.System.RoleUnion

open JsonScada.Lib.Binary64 JsonScada.Server.Signin
open JsonScada.Server.Request (Session)

section Closed

variable {roles : List Role}

theorem combined_grants (roles : List Role) (right : Right) :
    (combined roles).grants right = roles.any fun role => role.grants right := by
  rw [combined, addRoles_grants]
  cases right <;> exact Bool.false_or _

theorem combined_grants_iff (roles : List Role) (right : Right) :
    (combined roles).grants right = true ↔ ∃ role ∈ roles, role.grants right = true := by
  rw [combined_grants, List.any_eq_true]

/-- The groups are those of all roles, unless a role is free of them. -/
theorem combined_group1List (roles : List Role) :
    (combined roles).group1List =
      if ∃ role ∈ roles, role.group1List = [] then [] else roles.flatMap Role.group1List := by
  cases roles with
  | nil =>
    rw [List.flatMap_nil, ite_self]
    rfl
  | cons role roles =>
    rw [combined, addRoles]
    have hfirst : (addRole 0 {} role).group1List = role.group1List := by simp [addRole]
    by_cases hempty : role.group1List = []
    · rw [if_pos ⟨role, List.mem_cons_self, hempty⟩]
      exact addRoles_group1List_nil 1 _ roles Nat.one_pos (hfirst.trans hempty)
    · have hexists : (∃ r ∈ role :: roles, r.group1List = []) ↔ ∃ r ∈ roles, r.group1List = [] := by
        simp only [List.mem_cons, or_and_right, exists_or, exists_eq_left, hempty, false_or]
      rw [addRoles_group1List 1 _ roles Nat.one_pos (by rwa [hfirst]), hfirst, List.flatMap_cons]
      simp only [hexists]

theorem combined_group1CommandList (roles : List Role) :
    (combined roles).group1CommandList = roles.flatMap Role.group1CommandList :=
  addRoles_group1CommandList 0 {} roles

theorem combined_displayList (roles : List Role) :
    (combined roles).displayList = roles.flatMap Role.displayList :=
  addRoles_displayList 0 {} roles

theorem group1List_eq_nil_iff (hroles : roles ≠ []) :
    (combined roles).group1List = [] ↔ ∃ role ∈ roles, role.group1List = [] := by
  rw [combined_group1List]
  by_cases hempty : ∃ role ∈ roles, role.group1List = []
  · rw [if_pos hempty]
    exact iff_of_true rfl hempty
  · rw [if_neg hempty]
    refine iff_of_false (fun hnil => ?_) hempty
    obtain ⟨role, rest, rfl⟩ := List.exists_cons_of_ne_nil hroles
    exact hempty ⟨role, List.mem_cons_self, List.flatMap_eq_nil_iff.mp hnil role List.mem_cons_self⟩

theorem mem_group1List_iff (hfull : (combined roles).group1List ≠ []) (group1 : String) :
    group1 ∈ (combined roles).group1List ↔ ∃ role ∈ roles, group1 ∈ role.group1List := by
  rw [combined_group1List] at hfull ⊢
  by_cases hempty : ∃ role ∈ roles, role.group1List = []
  · exact absurd (if_pos hempty) hfull
  · rw [if_neg hempty, List.mem_flatMap]

end Closed

section Services

/-- A session with the token of the user sees a group when some role is free of groups or
has it. -/
theorem inGroup_iff {s : Session} {roles : List Role} (ha : s.authentication = true)
    (hroles : roles ≠ []) (hrights : s.rights = (combined roles).forServices) (group1 : String) :
    s.inGroup group1 = true ↔
      ∃ role ∈ roles, role.group1List = [] ∨ group1 ∈ role.group1List := by
  have hlist : s.rights.group1List = (combined roles).group1List := by rw [hrights]; rfl
  by_cases hnil : (combined roles).group1List = []
  · have hin : s.inGroup group1 = true := by simp [Session.inGroup, hlist, hnil]
    obtain ⟨role, hmem, hempty⟩ := (group1List_eq_nil_iff hroles).mp hnil
    exact iff_of_true hin ⟨role, hmem, Or.inl hempty⟩
  · rw [Session.inGroup_eq_true ha (by rwa [hlist]), hlist, mem_group1List_iff hnil]
    refine exists_congr fun role => and_congr_right fun hmem => (or_iff_right ?_).symm
    exact fun hempty => hnil ((group1List_eq_nil_iff hroles).mpr ⟨role, hmem, hempty⟩)

theorem canSendLoop_iff (group1 : String) (canCmd : Bool) (roles : List Role) :
    Session.canSendLoop group1 canCmd (roles.map Role.forCommands) = true ↔
      (canCmd = true ∧ ∀ role ∈ roles, role.group1CommandList = []) ∨
        ∃ role ∈ roles, group1 ∈ role.group1CommandList := by
  induction roles generalizing canCmd with
  | nil => simp [Session.canSendLoop]
  | cons role roles ih =>
    rw [List.map_cons, Session.canSendLoop]
    have hcontains : role.forCommands.group1CommandList.contains group1 = true ↔
        group1 ∈ role.group1CommandList := List.contains_iff_mem
    by_cases hmem : group1 ∈ role.group1CommandList
    · rw [if_pos (hcontains.mpr hmem)]
      exact iff_of_true rfl (Or.inr ⟨role, List.mem_cons_self, hmem⟩)
    · rw [if_neg (fun hin => hmem (hcontains.mp hin)), ih]
      by_cases hempty : role.group1CommandList = []
      · simp [Role.forCommands, hempty]
      · have hlength : 0 < role.group1CommandList.length := List.length_pos_iff.mpr hempty
        simp [Role.forCommands, hempty, hmem, hlength]

/-- The checks of a command against the roles found in the database are those of the token. -/
theorem canSendCommandTo_iff {s : Session} {roles found : List Role}
    (hfound : ∀ role, role ∈ found ↔ role ∈ roles) (hroles : roles ≠ [])
    (hs : s.roles = found.map Role.forCommands) (group1 : String) :
    s.canSendCommandTo group1 = true ↔ (combined roles).group1CommandList = [] ∨
      group1 ∈ (combined roles).group1CommandList := by
  obtain ⟨role, hmem⟩ := List.exists_mem_of_ne_nil roles hroles
  have hne : s.roles ≠ [] := by
    rw [hs]
    exact List.ne_nil_of_mem (List.mem_map_of_mem ((hfound role).mpr hmem))
  rw [Session.canSendCommandTo, if_neg hne, hs, canSendLoop_iff, combined_group1CommandList,
    List.flatMap_eq_nil_iff, List.mem_flatMap]
  simp only [true_and, hfound]

theorem canSendCommands_iff {s : Session} {roles found : List Role}
    (hfound : ∀ role, role ∈ found ↔ role ∈ roles) (hs : s.roles = found.map Role.forCommands) :
    s.canSendCommands = true ↔ (combined roles).grants .sendCommands = true := by
  rw [combined_grants_iff, Session.canSendCommands, hs, List.any_map, List.any_eq_true]
  simp only [hfound]
  rfl

end Services

section Order

/-- The longer of two sessions; a number of days that is none is passed over. -/
def longer (maxSessionDays : Number) (role : Role) : Number :=
  if Number.lt maxSessionDays role.maxSessionDays then role.maxSessionDays else maxSessionDays

theorem addRoles_maxSessionDays (i : ℕ) (rights : Rights) (roles : List Role) :
    (addRoles i rights roles).maxSessionDays = roles.foldl longer rights.maxSessionDays := by
  induction roles generalizing i rights with
  | nil => rfl
  | cons role roles ih =>
    rw [addRoles, ih]
    rfl

theorem longer_right_comm (d : Number) (r r' : Role) :
    longer (longer d r) r' = longer (longer d r') r := by
  by_cases hr : Number.lt d r.maxSessionDays = true
  · have hfirst : longer d r = r.maxSessionDays := if_pos hr
    by_cases hr' : Number.lt d r'.maxSessionDays = true
    · have hsecond : longer d r' = r'.maxSessionDays := if_pos hr'
      rw [hfirst, hsecond, longer, longer]
      by_cases hlt : Number.lt r.maxSessionDays r'.maxSessionDays = true
      · rw [if_pos hlt, if_neg (by rw [Number.lt_asymm hlt]; exact Bool.false_ne_true)]
      · rw [if_neg hlt]
        by_cases hlt' : Number.lt r'.maxSessionDays r.maxSessionDays = true
        · rw [if_pos hlt']
        · have hle := Number.le_of_not_lt (Number.ne_nan_of_lt hr).2 (Number.ne_nan_of_lt hr').2
            (Bool.eq_false_iff.mpr hlt)
          rw [Number.le, Bool.eq_false_iff.mpr hlt', Bool.false_or, Number.eqv_iff] at hle
          rw [if_neg hlt', hle.2]
    · have hsecond : longer d r' = d := if_neg hr'
      rw [hfirst, hsecond, hfirst, longer, if_neg]
      exact fun hlt => hr' (Number.lt_trans hr hlt)
  · have hfirst : longer d r = d := if_neg hr
    by_cases hr' : Number.lt d r'.maxSessionDays = true
    · have hsecond : longer d r' = r'.maxSessionDays := if_pos hr'
      rw [hfirst, hsecond, longer, if_neg]
      exact fun hlt => hr (Number.lt_trans hr' hlt)
    · have hsecond : longer d r' = d := if_neg hr'
      rw [hfirst, hsecond, hfirst]

instance : RightCommutative longer := ⟨longer_right_comm⟩

/-- Two rights that are the same but for the order of their lists. -/
structure SameRights (rights rights' : Rights) : Prop where
  grants : ∀ right, rights.grants right = rights'.grants right
  group1List : rights.group1List.Perm rights'.group1List
  group1CommandList : rights.group1CommandList.Perm rights'.group1CommandList
  displayList : rights.displayList.Perm rights'.displayList
  maxSessionDays : rights.maxSessionDays = rights'.maxSessionDays

theorem combined_perm {roles roles' : List Role} (hperm : roles.Perm roles') :
    SameRights (combined roles) (combined roles') := by
  refine ⟨fun right => ?_, ?_, ?_, ?_, ?_⟩
  · rw [combined_grants, combined_grants]
    exact hperm.any_eq
  · have hexists : (∃ role ∈ roles, role.group1List = []) ↔
        ∃ role ∈ roles', role.group1List = [] := by simp only [hperm.mem_iff]
    rw [combined_group1List, combined_group1List]
    by_cases hempty : ∃ role ∈ roles, role.group1List = []
    · rw [if_pos hempty, if_pos (hexists.mp hempty)]
    · rw [if_neg hempty, if_neg (fun h => hempty (hexists.mpr h))]
      exact hperm.flatMap_right _
  · rw [combined_group1CommandList, combined_group1CommandList]
    exact hperm.flatMap_right _
  · rw [combined_displayList, combined_displayList]
    exact hperm.flatMap_right _
  · rw [combined, combined, addRoles_maxSessionDays, addRoles_maxSessionDays]
    exact hperm.foldl_eq _

end Order

/-- What the combination gives, for the roles `found` again when a command is checked. -/
structure Combination (roles found : List Role) (s : Session) : Prop where
  grants : ∀ right, (combined roles).grants right = true ↔ ∃ role ∈ roles, role.grants right = true
  unrestricted : (combined roles).group1List = [] ↔ ∃ role ∈ roles, role.group1List = []
  groups : (combined roles).group1List ≠ [] → ∀ group1,
    group1 ∈ (combined roles).group1List ↔ ∃ role ∈ roles, group1 ∈ role.group1List
  commandsUnrestricted : (combined roles).group1CommandList = [] ↔
    ∀ role ∈ roles, role.group1CommandList = []
  commandGroups : ∀ group1, group1 ∈ (combined roles).group1CommandList ↔
    ∃ role ∈ roles, group1 ∈ role.group1CommandList
  displaysUnrestricted : (combined roles).displayList = [] ↔ ∀ role ∈ roles, role.displayList = []
  displays : ∀ display, display ∈ (combined roles).displayList ↔
    ∃ role ∈ roles, display ∈ role.displayList
  canSendCommands : s.canSendCommands = true ↔ (combined roles).sendCommands = true
  canSendCommandTo : ∀ group1, s.canSendCommandTo group1 = true ↔
    (combined roles).group1CommandList = [] ∨ group1 ∈ (combined roles).group1CommandList
  order : ∀ roles', roles.Perm roles' → SameRights (combined roles) (combined roles')

theorem combination {s : Session} {roles found : List Role} (hroles : roles ≠ [])
    (hfound : ∀ role, role ∈ found ↔ role ∈ roles) (hs : s.roles = found.map Role.forCommands) :
    Combination roles found s where
  grants := combined_grants_iff roles
  unrestricted := group1List_eq_nil_iff hroles
  groups := mem_group1List_iff
  commandsUnrestricted := by rw [combined_group1CommandList, List.flatMap_eq_nil_iff]
  commandGroups group1 := by rw [combined_group1CommandList, List.mem_flatMap]
  displaysUnrestricted := by rw [combined_displayList, List.flatMap_eq_nil_iff]
  displays display := by rw [combined_displayList, List.mem_flatMap]
  canSendCommands := canSendCommands_iff hfound hs
  canSendCommandTo := canSendCommandTo_iff hfound hroles hs
  order _ := combined_perm

section Example

/-- A role that commands everywhere, and one that sees the displays of one substation. -/
def dispatcher : Role := { name := "dispatcher", sendCommands := true }

def substation : Role :=
  { name := "substation", group1List := ["KAW2"], group1CommandList := ["KAW2"]
    displayList := ["KAW2.svg"] }

def dispatched : Session :=
  { authentication := true, username := "operator", originatorIpAddress := "10.0.0.7", now := 5000
    roles := [dispatcher.forCommands, substation.forCommands]
    rights := (combined [dispatcher, substation]).forServices }

theorem dispatched_combination :
    Combination [substation, dispatcher] [dispatcher, substation] dispatched ∧
      (combined [substation, dispatcher]).group1List = [] ∧
      dispatched.canSendCommandTo "KAW2" = true ∧ dispatched.canSendCommandTo "WATER" = false := by
  refine ⟨combination (by decide) (fun role => (List.Perm.swap _ _ []).mem_iff) rfl, ?_, ?_, ?_⟩
  · decide
  · decide
  · decide

/-- A role without command groups or displays does not free the user of those of another role,
and the check of the group does not ask whether commands are granted. -/
theorem not_unrestricted :
    (¬ ∀ roles : List Role, roles ≠ [] → ((combined roles).group1CommandList = [] ↔
      ∃ role ∈ roles, role.group1CommandList = [])) ∧
    (¬ ∀ roles : List Role, roles ≠ [] → ((combined roles).displayList = [] ↔
      ∃ role ∈ roles, role.displayList = [])) ∧
    ¬ ∀ (s : Session) (roles : List Role) (group1 : String), roles ≠ [] →
      s.roles = roles.map Role.forCommands →
        (s.canSendCommandTo group1 = true ↔ (combined roles).sendCommands = true ∧
          ((combined roles).group1CommandList = [] ∨
            group1 ∈ (combined roles).group1CommandList)) := by
  refine ⟨fun hall => ?_, fun hall => ?_, fun hall => ?_⟩
  · have hempty := (hall [dispatcher, substation] (by decide)).mpr
      ⟨dispatcher, List.mem_cons_self, rfl⟩
    exact absurd hempty (by decide)
  · have hempty := (hall [dispatcher, substation] (by decide)).mpr
      ⟨dispatcher, List.mem_cons_self, rfl⟩
    exact absurd hempty (by decide)
  · have hgranted := (hall { dispatched with roles := [substation.forCommands] } [substation] "KAW2"
      (by decide) rfl).mp (by decide)
    exact absurd hgranted.1 (by decide)

end Example

end JsonScada.System.RoleUnion
