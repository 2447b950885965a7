import RagService.Admin.Authorization
import RagService.Admin.Effects
import RagService.Properties.LoginUsers

/-!
# Permission codes and the permission gate

`get_codes` tells a user's browser which permissions the user has; `rbac_verify` lets a
request through by the permission of its route.  The gate puts the menus of the roles into a
dictionary first.  Both give the same verdict for every user that `get_jwt_user` returns.
-/

namespace RagService
namespace Admin

open Transitions

/-!
# Menus of a user

The dictionary by ids keeps every menu, since menus of a user with the same id are the same
menu.
-/

def UserDetail.menus (user : UserDetail) : List (Row Menu) :=
  user.roles.flatMap RoleDetail.menus

def UserDetail.MenusAgree (user : UserDetail) : Prop :=
  forall menu menu', menu ∈ user.menus -> menu' ∈ user.menus -> menu.id = menu'.id ->
    menu = menu'

theorem userDetail_menusAgree {db : AdminDb} (hids : db.menus.ids.Nodup) (user : Row User) :
    (db.userDetail user).MenusAgree := by
  have hrow : forall {menu}, menu ∈ (db.userDetail user).menus -> menu ∈ db.menus := by
    intro menu hmenu
    rcases List.mem_flatMap.mp hmenu with ⟨role, hrole, hmenu⟩
    rcases List.mem_map.mp hrole with ⟨row, -, rfl⟩
    exact (Table.mem_linked.mp hmenu).1
  intro menu menu' hmenu hmenu' hid
  exact List.inj_on_of_nodup_map hids (hrow hmenu) (hrow hmenu') hid

theorem mem_uniqueMenus {roles : List RoleDetail} {menu : Row Menu}
    (hagree : forall {menu menu'}, menu ∈ roles.flatMap RoleDetail.menus ->
      menu' ∈ roles.flatMap RoleDetail.menus -> menu.id = menu'.id -> menu = menu') :
    menu ∈ (uniqueMenus roles).values ↔ menu ∈ roles.flatMap RoleDetail.menus := by
  have hget : forall key value, (uniqueMenus roles).get key = some value ↔
      (key, value) ∈ (roles.flatMap RoleDetail.menus).map fun menu => (menu.id, menu) := by
    intro key value
    apply Dict.get_ofPairs_eq_some_of_unique
    intro v w hv hw
    rcases List.mem_map.mp hv with ⟨menu, hmenu, heq⟩
    rcases List.mem_map.mp hw with ⟨menu', hmenu', heq'⟩
    cases heq
    rw [Prod.mk.injEq] at heq'
    rw [← heq'.2]
    exact hagree hmenu hmenu' heq'.1.symm
  constructor
  · intro hmenu
    rcases List.mem_map.mp hmenu with ⟨p, hp, rfl⟩
    have hkeys : ((uniqueMenus roles).map Prod.fst).Nodup := Dict.nodup_keys_ofPairs _
    have hfound := (hget p.1 p.2).mp (Dict.get_eq_some_of_mem hkeys hp)
    rcases List.mem_map.mp hfound with ⟨menu, hmenu, heq⟩
    rw [← congrArg Prod.snd heq]
    exact hmenu
  · intro hmenu
    have hfound := (hget menu.id menu).mpr (List.mem_map.mpr ⟨menu, hmenu, rfl⟩)
    exact Dict.mem_values_of_get hfound

section

variable {user : UserDetail} {permission : Text}

theorem enabledRoles_sublist : (enabledRoles user).Sublist user.roles :=
  List.filter_sublist

theorem mem_allowPerms (h : user.MenusAgree) : permission ∈ allowPerms (enabledRoles user) ↔
    exists role, role ∈ enabledRoles user ∧ exists menu, menu ∈ role.menus ∧
      permission ∈ menuPerms menu := by
  have hmem : forall {menu}, menu ∈ (enabledRoles user).flatMap RoleDetail.menus ->
      menu ∈ user.menus := by
    intro menu hmenu
    rcases List.mem_flatMap.mp hmenu with ⟨role, hrole, hmenu⟩
    exact List.mem_flatMap.mpr ⟨role, enabledRoles_sublist.subset hrole, hmenu⟩
  have hvalues : forall menu, menu ∈ (uniqueMenus (enabledRoles user)).values ↔
      menu ∈ (enabledRoles user).flatMap RoleDetail.menus :=
    fun menu => mem_uniqueMenus fun hm hm' hid => h _ _ (hmem hm) (hmem hm') hid
  constructor
  · intro hallowed
    rcases List.mem_flatMap.mp hallowed with ⟨menu, hmenu, hperm⟩
    rcases List.mem_flatMap.mp ((hvalues menu).mp hmenu) with ⟨role, hrole, hmenu⟩
    exact ⟨role, hrole, menu, hmenu, hperm⟩
  · intro hexists
    rcases hexists with ⟨role, hrole, menu, hmenu, hperm⟩
    have hflat := List.mem_flatMap.mpr ⟨role, hrole, hmenu⟩
    exact List.mem_flatMap.mpr ⟨menu, (hvalues menu).mpr hflat, hperm⟩

theorem mem_getCodes (db : AdminDb) (hnot : user.isSuperuser = false) :
    permission ∈ AuthService.getCodes db user ↔
      exists role, role ∈ enabledRoles user ∧ exists menu, menu ∈ role.menus ∧
        permission ∈ menuPerms menu := by
  unfold AuthService.getCodes
  rw [hnot, if_neg (by decide), List.mem_dedup, List.mem_flatMap]
  simp only [List.mem_flatMap]

end

/-!
# The gate

What `rbac_verify` asks of a user who is no superuser.
-/

section

variable {cfg : AuthorizationSettings} {request : HttpRequest} {user : UserDetail}
variable {permission : Text}

structure Gated (cfg : AuthorizationSettings) (request : HttpRequest) (permission : Text) :
    Prop where
  mode : cfg.rbacRoleMenuMode = true
  bearer : cfg.security.hasBearer request = true
  path : pathExcluded cfg request.path = false
  nonempty : permission ≠ []
  included : permission ∉ cfg.rbacRoleMenuExclude

theorem roleMenuVerify_iff (h : Gated cfg request permission) {roles : List RoleDetail} :
    roleMenuVerify cfg (some permission) roles = .ok () ↔ permission ∈ allowPerms roles := by
  unfold roleMenuVerify
  dsimp only
  have hlooked : (permission.isEmpty || decide (permission ∈ cfg.rbacRoleMenuExclude)) = false := by
    rw [decide_eq_false h.included, List.isEmpty_eq_false_iff.mpr h.nonempty]
    rfl
  rw [hlooked, if_neg (by decide)]
  by_cases hallowed : permission ∈ allowPerms roles
  · simp [hallowed, pure, Except.pure]
  · simp [hallowed, throw, throwThe, MonadExceptOf.throw]

def MayUse (request : HttpRequest) (user : UserDetail) : Prop :=
  request.method = "GET".toList ∨ request.method = "OPTIONS".toList ∨ user.isStaff = true

theorem reject_bind {α : Type} {check : Bool} {e : Rejection} {f : Unit -> Except Rejection α}
    {a : α} : (reject check e >>= f) = .ok a ↔ check = false ∧ f () = .ok a := by
  cases check with
  | true => simp [reject, bind, Except.bind]
  | false => simp [reject, bind, Except.bind]

theorem verify_bind {α : Type} {x : Except Rejection Unit} {a : α} :
    (x >>= fun _ => pure a) = .ok a ↔ x = .ok () := by
  cases x with
  | error e => simp [bind, Except.bind]
  | ok u => simp [bind, Except.bind, pure, Except.pure]

theorem jwtAuthenticationVerify_user (hbearer : cfg.security.hasBearer request = true) :
    jwtAuthenticationVerify cfg request ⟨some user, none⟩ = .ok user := by
  simp [jwtAuthenticationVerify, hbearer, pure, Except.pure]

/-- What `rbac_verify` asks of a user who is no superuser. -/
theorem rbacVerify_eq_ok (h : Gated cfg request permission) (hnot : user.isSuperuser = false) :
    rbacVerify cfg (some permission) request ⟨some user, none⟩ = .ok user ↔
      (enabledRoles user).isEmpty = false ∧
      ((enabledRoles user).all fun role => role.menus.isEmpty) = false ∧
      (decide (request.method ≠ "GET".toList) && decide (request.method ≠ "OPTIONS".toList) &&
        !user.isStaff) = false ∧
      permission ∈ allowPerms (enabledRoles user) := by
  unfold rbacVerify permissionVerify
  rw [jwtAuthenticationVerify_user h.bearer]
  show (if pathExcluded cfg request.path = true then pure user
    else if user.isSuperuser = true then pure user else _) = _ ↔ _
  rw [h.path, hnot, h.mode, if_neg (by decide), if_neg (by decide), if_pos rfl, reject_bind,
    reject_bind, reject_bind, verify_bind, roleMenuVerify_iff h]

theorem rbacVerify_iff (h : Gated cfg request permission) (hagree : user.MenusAgree)
    (hnot : user.isSuperuser = false) :
    rbacVerify cfg (some permission) request ⟨some user, none⟩ = .ok user ↔
      permission ∈ allowPerms (enabledRoles user) ∧ MayUse request user := by
  have hmethod : (decide (request.method ≠ "GET".toList) &&
      decide (request.method ≠ "OPTIONS".toList) && !user.isStaff) = false ↔
      MayUse request user := by
    simp only [MayUse, Bool.and_eq_false_iff, decide_eq_false_iff_not, not_not,
      Bool.not_eq_false', or_assoc]
  rw [rbacVerify_eq_ok h hnot, hmethod]
  constructor
  · intro hall
    exact ⟨hall.2.2.2, hall.2.2.1⟩
  · intro hboth
    -- a permission that is allowed is one of a menu of an enabled role
    rcases (mem_allowPerms hagree).mp hboth.1 with ⟨role, hrole, menu, hmenu, -⟩
    constructor
    · exact List.isEmpty_eq_false_iff.mpr (List.ne_nil_of_mem hrole)
    · constructor
      · apply Bool.eq_false_iff.mpr
        intro hall
        have hempty := List.all_eq_true.mp hall role hrole
        rw [List.isEmpty_iff.mp hempty] at hmenu
        cases hmenu
      · exact ⟨hboth.2, hboth.1⟩

end

/-!
# Every user who logs in
-/

namespace LoginState

structure MenusKept (s : LoginState) : Prop where
  ids : s.db.menus.ids.Nodup
  cached : forall {userId user}, s.cache.lookup userId = some user -> user.MenusAgree

variable {s s' : LoginState}

theorem menuIds_kept {db : AdminDb} (h : db.menus.ids.Nodup) {r : AdminRequest}
    {out : Committed} (hfresh : r.FreshId db) (heffect : Effect db r out) :
    out.db.menus.ids.Nodup := by
  cases heffect with
  | createMenu htitle hparent => exact Table.nodup_ids_create h hfresh.2
  | updateMenu hfound htitle =>
      rw [Table.ids_update]
      exact h
  | deleteMenu =>
      rw [Table.ids_delete]
      exact h
  | _ => exact h

theorem MenusKept.getJwtUser (h : s.MenusKept) (u : ℕ+) : (Admin.getJwtUser s u).1.MenusKept ∧
    forall {user}, (Admin.getJwtUser s u).2 = .ok user -> user.MenusAgree := by
  unfold Admin.getJwtUser
  split
  · rename_i cachedUser hcached
    constructor
    · exact h
    · intro user huser
      cases huser
      exact h.cached hcached
  · split
    · rename_i user hcurrent
      have hagree : user.MenusAgree := by
        have hjoin := getJoin_of_getCurrentUser hcurrent
        unfold AdminDb.getJoin at hjoin
        rcases Option.map_eq_some_iff.mp hjoin with ⟨row, -, rfl⟩
        exact userDetail_menusAgree h.ids row
      constructor
      · constructor
        · exact h.ids
        · intro userId user' hlookup
          cases lookup_of_insert hlookup with
          | inl hnew =>
              rw [hnew.2]
              exact hagree
          | inr hold => exact h.cached hold
      · intro user' huser
        cases huser
        exact hagree
    · constructor
      · exact h
      · intro user huser
        cases huser

theorem MenusKept.step (h : s.MenusKept) {a : LoginAction} (hs : s.step a = some s') :
    s'.MenusKept := by
  cases a with
  | request r =>
      unfold LoginState.step at hs
      dsimp only at hs
      split at hs
      · rename_i hfresh
        cases hs
        unfold LoginState.request
        split
        · rename_i out hout
          constructor
          · exact menuIds_kept h.ids hfresh (perform_effect hout)
          · intro userId user hlookup
            exact h.cached (lookup_of_eraseAll hlookup).2
        · exact h
      · cases hs
  | getJwtUser userId =>
      cases hs
      exact (h.getJwtUser userId).1
  | expire userId =>
      cases hs
      exact ⟨h.ids, fun hlookup => h.cached (lookup_of_erase hlookup).2⟩

end LoginState
open LoginState

/--
In every state that requests, logins and expiring keys lead to, the permission gate lets a user
who is no superuser through exactly when `get_codes` lists the permission of the route, and the
user may use the administration or the request only reads.
-/
theorem permission_codes_match_gate (db : AdminDb) (hdb : db.menus.ids.Nodup) (s : LoginState)
    (hrun : Reaches LoginState.step (fun _ _ => True) (initial db) s) (userId : ℕ+)
    (user : UserDetail) (huser : (getJwtUser s userId).2 = .ok user)
    (hnot : user.isSuperuser = false) (cfg : AuthorizationSettings) (request : HttpRequest)
    (permission : Text) (hgated : Gated cfg request permission) :
    rbacVerify cfg (some permission) request ⟨some user, none⟩ = .ok user ↔
      permission ∈ AuthService.getCodes s.db user ∧ MayUse request user := by
  have hkept : s.MenusKept := by
    apply hrun.invariant MenusKept
    · constructor
      · exact hdb
      · intro userId user hlookup
        cases hlookup
    · intro s a s' h _ hs
      exact h.step hs
  have hagree : user.MenusAgree := (hkept.getJwtUser userId).2 huser
  rw [rbacVerify_iff hgated hagree hnot, mem_allowPerms hagree, mem_getCodes s.db hnot]

/-!
# Samples

The scheme ends at the first space, and credentials have a scheme `Bearer` and a token.
-/

def sampleSecurity : HttpSecurity where
  schemeParam authorization :=
    (authorization.takeWhile fun c => c ≠ ' ', (authorization.dropWhile fun c => c ≠ ' ').drop 1)
  hasBearer request := request.authorization.any fun authorization =>
    (Text.lowerAscii authorization).take 7 = "bearer ".toList && 7 < authorization.length

def sampleRequest : HttpRequest where
  path := "/api/v1/sys/roles".toList
  method := "POST".toList
  authorization := some "Bearer t".toList

/-- The menu of the user's role gets a second permission, and the gate opens for it. -/
theorem permission_codes_match_gate_menu : exists s user,
    Reaches LoginState.step (fun _ _ => True) (initial sampleAdminDb) s ∧
      (getJwtUser s 1).2 = .ok user ∧
      rbacVerify (defaultAuthorization sampleSecurity) (some ['q']) sampleRequest ⟨some user, none⟩ = .ok user := by
  obtain ⟨s, hrun, hcodes⟩ := exists_reaches LoginState.step (fun _ _ => True)
    (initial sampleAdminDb)
    [.getJwtUser 1, .request (.updateMenu 3 ⟨['m'], none, 1, some (some ['p', ',', 'q']), 1⟩)]
    (fun s => (getJwtUser s 1).2.toOption.any (fun user =>
      !user.isSuperuser && decide (['q'] ∈ AuthService.getCodes s.db user) && user.isStaff) = true)
    (by decide +kernel)
  rcases (Option.any_eq_true ..).mp hcodes with ⟨user, huser, hall⟩
  simp only [Bool.and_eq_true, Bool.not_eq_true', decide_eq_true_eq] at hall
  have hok : (getJwtUser s 1).2 = .ok user := by
    cases hresult : (getJwtUser s 1).2 with
    | error e =>
        rw [hresult] at huser
        cases huser
    | ok found =>
        rw [hresult] at huser
        cases huser
        rfl
  have hgated : Gated (defaultAuthorization sampleSecurity) sampleRequest ['q'] := by
    constructor <;> decide +kernel
  exact ⟨s, user, hrun, hok, (permission_codes_match_gate sampleAdminDb (by decide) s hrun 1 user
    hok hall.1.1 (defaultAuthorization sampleSecurity) sampleRequest ['q'] hgated).mpr
      ⟨hall.1.2, .inr (.inr hall.2)⟩⟩

end Admin
end RagService
