import RagService.Admin.Services

/-!
# What requests leave of other users

Links lead to rows that exist.  A request leaves what `get_join` returns for every user
whose key it does not clear, but for the deletion of a menu and the update of a department.
-/

namespace RagService
namespace Admin

open UserCacheManager

/-- Links and departments of users lead to rows that are there, deleted or not. -/
structure AdminDb.Linked (db : AdminDb) : Prop where
  userRole : forall {userId roleId}, (userId, roleId) ∈ db.userRole -> roleId ∈ db.roles.ids
  roleMenu : forall {roleId menuId}, (roleId, menuId) ∈ db.roleMenu -> menuId ∈ db.menus.ids
  roleScope : forall {roleId scopeId}, (roleId, scopeId) ∈ db.roleScope ->
    scopeId ∈ db.scopes.ids
  scopeRule : forall {scopeId ruleId}, (scopeId, ruleId) ∈ db.scopeRule -> ruleId ∈ db.rules.ids
  dept : forall {user deptId}, user ∈ db.users -> user.value.deptId = some deptId ->
    deptId ≠ 0 -> deptId ∈ db.depts.ids

/--
A request keeps the links, and what is read for the users whose keys it does not clear
when it is harmless for them.
-/
structure Keeps (db : AdminDb) (out : Committed) (harmless : UserDetail -> Prop) : Prop where
  linked : out.db.Linked
  join : forall (u : ℕ+) user, db.getJoin u = some user -> (u : Nat) ∉ out.cleared ->
    harmless user -> out.db.getJoin u = db.getJoin u

/-!
# Reading a request

The parts of a request that only look something up, or raise.
-/

section

variable {α β : Type} {row : Option α} {msg : Text} {check : Bool} {e : AdminError} {b : β}

theorem found_bind {f : α -> Except AdminError β} (h : (found row msg >>= f) = .ok b) :
    exists a, row = some a ∧ f a = .ok b := by
  cases row with
  | none => cases h
  | some a => exact ⟨a, rfl, h⟩

theorem refuse_bind {f : Unit -> Except AdminError β} (h : (refuse check e >>= f) = .ok b) :
    check = false ∧ f () = .ok b := by
  cases check with
  | true => cases h
  | false => exact ⟨rfl, h⟩

theorem mem_ids_of_sameIds {t : Table α} {ids : List Nat} {id : Nat}
    (h : (!ids.isEmpty && !sameIds (t.getAllByIds ids) ids) = false) (hid : id ∈ ids) :
    id ∈ t.ids := by
  cases ids with
  | nil => cases hid
  | cons first rest =>
      have hsame : sameIds (t.getAllByIds (first :: rest)) (first :: rest) = true := by
        simpa using h
      unfold sameIds at hsame
      have hall := List.all_eq_true.mp ((Bool.and_eq_true _ _).mp hsame).2 id hid
      rcases List.mem_map.mp (of_decide_eq_true hall) with ⟨row, hrow, rfl⟩
      exact List.mem_map_of_mem (List.mem_filter.mp hrow).1

theorem mem_roleIds {db : AdminDb} {roles : List Nat} {roleId : Nat}
    (h : roleId ∈ roleIds db roles) : roleId ∈ db.roles.ids := by
  rcases List.mem_map.mp h with ⟨row, hrow, rfl⟩
  exact List.mem_map_of_mem (List.mem_filter.mp hrow).1

end

/-!
# What is read for a user

What is read for a user depends on the row of the user, the links of the user and the rows that
these lead to; so it stays as it is where these do.
-/

variable {db db' : AdminDb} {u : ℕ+}

theorem getJoin_some {user : UserDetail} (h : db.getJoin u = some user) :
    exists row, db.users.get u = some row ∧ row.id = u ∧ user = db.userDetail row := by
  unfold AdminDb.getJoin at h
  rcases Option.map_eq_some_iff.mp h with ⟨row, hrow, rfl⟩
  exact ⟨row, hrow, (Table.get_mem hrow).2.2, rfl⟩

/-- What is read for a user depends on these rows alone. -/
theorem getJoin_congr (huser : db'.users.get u = db.users.get u)
    (hdept : forall row deptId, db.users.get u = some row -> row.value.deptId = some deptId ->
      db'.depts.get deptId = db.depts.get deptId)
    (hroles : db'.roles.linked db'.userRole u = db.roles.linked db.userRole u)
    (hmenus : forall role, role ∈ db.roles.linked db.userRole u ->
      db'.menus.linked db'.roleMenu role.id = db.menus.linked db.roleMenu role.id)
    (hscopes : forall role, role ∈ db.roles.linked db.userRole u ->
      db'.scopes.linked db'.roleScope role.id = db.scopes.linked db.roleScope role.id)
    (hrules : forall role scope, role ∈ db.roles.linked db.userRole u ->
      scope ∈ db.scopes.linked db.roleScope role.id ->
        db'.rules.linked db'.scopeRule scope.id = db.rules.linked db.scopeRule scope.id) :
    db'.getJoin u = db.getJoin u := by
  unfold AdminDb.getJoin
  rw [huser]
  cases hrow : db.users.get u with
  | none => rfl
  | some row =>
      have hid : row.id = u := (Table.get_mem hrow).2.2
      have hdeptDetail : row.value.deptId.bind db'.depts.get =
          row.value.deptId.bind db.depts.get := by
        cases hdeptId : row.value.deptId with
        | none => rfl
        | some deptId => exact hdept row deptId hrow hdeptId
      have hscope : forall role, role ∈ db.roles.linked db.userRole u ->
          (db.scopes.linked db.roleScope role.id).map db'.scopeDetail =
            (db.scopes.linked db.roleScope role.id).map db.scopeDetail := by
        intro role hrole
        apply List.map_congr_left
        intro scope hscope
        unfold AdminDb.scopeDetail
        rw [hrules role scope hrole hscope]
      have hrole : (db.roles.linked db.userRole u).map db'.roleDetail =
          (db.roles.linked db.userRole u).map db.roleDetail := by
        apply List.map_congr_left
        intro role hrole
        unfold AdminDb.roleDetail
        rw [hmenus role hrole, hscopes role hrole, hscope role hrole]
      rw [Option.map_some, Option.map_some]
      unfold AdminDb.userDetail
      rw [hid, hdeptDetail, hroles, hrole]

theorem getJoin_roles {roles : Table Role} {userRole : Links}
    (h : roles.linked userRole u = db.roles.linked db.userRole u) :
    ({ db with roles := roles, userRole := userRole } : AdminDb).getJoin u = db.getJoin u :=
  getJoin_congr rfl (fun _ _ _ _ => rfl) h (fun _ _ => rfl) (fun _ _ => rfl) fun _ _ _ _ => rfl

theorem getJoin_menus {menus : Table Menu} {roleMenu : Links}
    (h : forall role, role ∈ db.roles.linked db.userRole u ->
      menus.linked roleMenu role.id = db.menus.linked db.roleMenu role.id) :
    ({ db with menus := menus, roleMenu := roleMenu } : AdminDb).getJoin u = db.getJoin u :=
  getJoin_congr rfl (fun _ _ _ _ => rfl) rfl h (fun _ _ => rfl) fun _ _ _ _ => rfl

theorem getJoin_scopes {scopes : Table DataScope} {roleScope : Links}
    (h : forall role, role ∈ db.roles.linked db.userRole u ->
      scopes.linked roleScope role.id = db.scopes.linked db.roleScope role.id) :
    ({ db with scopes := scopes, roleScope := roleScope } : AdminDb).getJoin u = db.getJoin u :=
  getJoin_congr rfl (fun _ _ _ _ => rfl) rfl (fun _ _ => rfl) h fun _ _ _ _ => rfl

theorem getJoin_rules {rules : Table DataRule} {scopeRule : Links}
    (h : forall role scope, role ∈ db.roles.linked db.userRole u ->
      scope ∈ db.scopes.linked db.roleScope role.id ->
        rules.linked scopeRule scope.id = db.rules.linked db.scopeRule scope.id) :
    ({ db with rules := rules, scopeRule := scopeRule } : AdminDb).getJoin u = db.getJoin u :=
  getJoin_congr rfl (fun _ _ _ _ => rfl) rfl (fun _ _ => rfl) (fun _ _ => rfl) h

theorem getJoin_depts {depts : Table Dept}
    (h : forall row deptId, db.users.get u = some row -> row.value.deptId = some deptId ->
      depts.get deptId = db.depts.get deptId) :
    ({ db with depts := depts } : AdminDb).getJoin u = db.getJoin u :=
  getJoin_congr rfl h rfl (fun _ _ => rfl) (fun _ _ => rfl) fun _ _ _ _ => rfl

theorem getJoin_users {users : Table User} {userRole : Links}
    (huser : users.get u = db.users.get u)
    (hroles : db.roles.linked userRole u = db.roles.linked db.userRole u) :
    ({ db with users := users, userRole := userRole } : AdminDb).getJoin u = db.getJoin u :=
  getJoin_congr huser (fun _ _ _ _ => rfl) hroles (fun _ _ => rfl) (fun _ _ => rfl)
    fun _ _ _ _ => rfl

/-!
# Roles

A role that a user has is not the one whose users are cleared, so a change of a role is
harmless to the others.
-/

variable {out : Committed} {newId pk : Nat} {pks : List Nat}

theorem modifyRoles_keeps (h : db.Linked) {f : Row Role -> Row Role}
    (hid : forall row, (f row).id = row.id) :
    Keeps db ⟨{ db with roles := db.roles.modify pks f }, clearByRoleId db pks⟩
      fun _ => True := by
  constructor
  · constructor
    · intro userId roleId hlink
      show roleId ∈ (db.roles.modify pks f).ids
      rw [Table.ids_modify hid]
      exact h.userRole hlink
    · exact h.roleMenu
    · exact h.roleScope
    · exact h.scopeRule
    · exact h.dept
  · intro u user _ hcleared _
    apply getJoin_roles
    apply Table.linked_modify hid
    intro role _ _ hrole hlink
    exact hcleared (Links.mem_sources.mpr ⟨role.id, hrole, hlink⟩)

theorem createRole_keeps (h : db.Linked) {obj : Role}
    (hfresh : 0 < newId ∧ newId ∉ db.roles.ids) (hout : RoleService.create db newId obj = .ok out) :
    Keeps db out fun _ => True := by
  rcases refuse_bind hout with ⟨-, hout⟩
  cases hout
  constructor
  · constructor
    · intro userId roleId hlink
      exact Table.mem_ids_create (h.userRole hlink)
    · exact h.roleMenu
    · exact h.roleScope
    · exact h.scopeRule
    · exact h.dept
  · intro u user _ _ _
    apply getJoin_roles
    apply Table.linked_create
    intro hlink
    exact hfresh.2 (h.userRole hlink)

theorem updateRole_keeps (h : db.Linked) {obj : UpdateRoleParam}
    (hout : RoleService.update db pk obj = .ok out) : Keeps db out fun _ => True := by
  rcases found_bind hout with ⟨role, -, hout⟩
  rcases refuse_bind hout with ⟨-, hout⟩
  cases hout
  exact modifyRoles_keeps h fun _ => rfl

theorem deleteRoles_keeps (h : db.Linked) (hout : RoleService.delete db pks = .ok out) :
    Keeps db out fun _ => True := by
  cases hout
  exact modifyRoles_keeps h fun _ => rfl

theorem role_ne_of_not_cleared (hcleared : (u : Nat) ∉ clearByRoleId db [pk]) {role : Row Role}
    (hrole : role ∈ db.roles.linked db.userRole u) : role.id ≠ pk := by
  intro heq
  apply hcleared
  exact Links.mem_sources.mpr ⟨role.id, heq ▸ List.mem_singleton_self _,
    (Table.mem_linked.mp hrole).2.2⟩

theorem updateRoleMenu_keeps (h : db.Linked) {menus : List Nat}
    (hout : RoleService.updateRoleMenu db pk menus = .ok out) : Keeps db out fun _ => True := by
  rcases found_bind hout with ⟨role, -, hout⟩
  rcases refuse_bind hout with ⟨hsame, hout⟩
  cases hout
  constructor
  · constructor
    · exact h.userRole
    · intro roleId menuId hlink
      cases Links.mem_relink.mp hlink with
      | inl hold => exact h.roleMenu hold.2
      | inr hnew => exact mem_ids_of_sameIds hsame hnew.2
    · exact h.roleScope
    · exact h.scopeRule
    · exact h.dept
  · intro u user _ hcleared _
    apply getJoin_menus
    intro role hrole
    apply Table.linked_congr
    intro menu _ _
    exact Links.mem_relink_of_ne (role_ne_of_not_cleared hcleared hrole)

theorem updateRoleScope_keeps (h : db.Linked) {scopes : List Nat}
    (hout : RoleService.updateRoleScope db pk scopes = .ok out) : Keeps db out fun _ => True := by
  rcases found_bind hout with ⟨role, -, hout⟩
  rcases refuse_bind hout with ⟨hsame, hout⟩
  cases hout
  constructor
  · constructor
    · exact h.userRole
    · exact h.roleMenu
    · intro roleId scopeId hlink
      cases Links.mem_relink.mp hlink with
      | inl hold => exact h.roleScope hold.2
      | inr hnew => exact mem_ids_of_sameIds hsame hnew.2
    · exact h.scopeRule
    · exact h.dept
  · intro u user _ hcleared _
    apply getJoin_scopes
    intro role hrole
    apply Table.linked_congr
    intro scope _ _
    exact Links.mem_relink_of_ne (role_ne_of_not_cleared hcleared hrole)

/-!
# Menus

The links to a menu are gone when its users are looked up: the deletion of a menu clears no
key.
-/

theorem createMenu_keeps (h : db.Linked) {obj : Menu}
    (hfresh : 0 < newId ∧ newId ∉ db.menus.ids) (hout : MenuService.create db newId obj = .ok out) :
    Keeps db out fun _ => True := by
  rcases refuse_bind hout with ⟨-, hout⟩
  rcases refuse_bind hout with ⟨-, hout⟩
  cases hout
  constructor
  · constructor
    · exact h.userRole
    · intro roleId menuId hlink
      exact Table.mem_ids_create (h.roleMenu hlink)
    · exact h.roleScope
    · exact h.scopeRule
    · exact h.dept
  · intro u user _ _ _
    apply getJoin_menus
    intro role _
    apply Table.linked_create
    intro hlink
    exact hfresh.2 (h.roleMenu hlink)

theorem updateMenu_keeps (h : db.Linked) {obj : UpdateMenuParam}
    (hout : MenuService.update db pk obj = .ok out) : Keeps db out fun _ => True := by
  rcases found_bind hout with ⟨menu, -, hout⟩
  rcases refuse_bind hout with ⟨-, hout⟩
  rcases refuse_bind hout with ⟨-, hout⟩
  rcases refuse_bind hout with ⟨-, hout⟩
  cases hout
  constructor
  · constructor
    · exact h.userRole
    · intro roleId menuId hlink
      show menuId ∈ (db.menus.update [pk] obj.apply).ids
      rw [Table.ids_update]
      exact h.roleMenu hlink
    · exact h.roleScope
    · exact h.scopeRule
    · exact h.dept
  · intro u user _ hcleared _
    apply getJoin_menus
    intro role hrole
    refine Table.linked_modify (fun _ => rfl) ?_
    intro menu _ _ hmenu hlink
    apply hcleared
    exact Links.mem_sources.mpr ⟨role.id, Links.mem_sources.mpr ⟨menu.id, hmenu, hlink⟩,
      (Table.mem_linked.mp hrole).2.2⟩

def UserDetail.HasMenu (user : UserDetail) (pk : Nat) : Prop :=
  exists role, role ∈ user.roles ∧ exists menu, menu ∈ role.menus ∧ menu.id = pk

/-- The links are gone when the users of the menu are looked up: no key is cleared. -/
theorem deleteMenu_keeps (h : db.Linked) (hout : MenuService.delete db pk = .ok out) :
    Keeps db out fun user => ¬ user.HasMenu pk := by
  rcases refuse_bind hout with ⟨-, hout⟩
  cases hout
  constructor
  · constructor
    · exact h.userRole
    · intro roleId menuId hlink
      show menuId ∈ (db.menus.delete [pk]).ids
      rw [Table.ids_delete]
      exact h.roleMenu (Links.mem_unlink.mp hlink).2
    · exact h.roleScope
    · exact h.scopeRule
    · exact h.dept
  · intro u user hjoin _ hharmless
    rcases getJoin_some hjoin with ⟨row, -, hid, rfl⟩
    apply getJoin_menus
    intro role hrole
    have hnot : forall menu, menu ∈ db.menus.linked db.roleMenu role.id -> menu.id ≠ pk := by
      intro menu hmenu heq
      apply hharmless
      refine ⟨db.roleDetail role, ?_, menu, hmenu, heq⟩
      show db.roleDetail role ∈ (db.roles.linked db.userRole row.id).map db.roleDetail
      rw [hid]
      exact List.mem_map_of_mem hrole
    have hdeleted : (db.menus.delete [pk]).linked db.roleMenu role.id =
        db.menus.linked db.roleMenu role.id := by
      refine Table.linked_modify (fun _ => rfl) ?_
      intro menu hmem hlive hmenu hlink
      exact hnot menu (Table.mem_linked.mpr ⟨hmem, hlive, hlink⟩) (List.mem_singleton.mp hmenu)
    rw [← hdeleted]
    apply Table.linked_congr
    intro menu hmem hlive
    constructor
    · intro hlink
      exact (Links.mem_unlink.mp hlink).2
    · intro hlink
      have hmenu : menu ∈ db.menus.linked db.roleMenu role.id := by
        rw [← hdeleted]
        exact Table.mem_linked.mpr ⟨hmem, hlive, hlink⟩
      exact Links.mem_unlink.mpr ⟨hnot menu hmenu, hlink⟩

/-!
# Data scopes
-/

theorem modifyScopes_keeps (h : db.Linked) {f : Row DataScope -> Row DataScope}
    (hid : forall row, (f row).id = row.id) :
    Keeps db ⟨{ db with scopes := db.scopes.modify pks f }, clearByDataScopeId db pks⟩
      fun _ => True := by
  constructor
  · constructor
    · exact h.userRole
    · exact h.roleMenu
    · intro roleId scopeId hlink
      show scopeId ∈ (db.scopes.modify pks f).ids
      rw [Table.ids_modify hid]
      exact h.roleScope hlink
    · exact h.scopeRule
    · exact h.dept
  · intro u user _ hcleared _
    apply getJoin_scopes
    intro role hrole
    apply Table.linked_modify hid
    intro scope _ _ hscope hlink
    apply hcleared
    exact Links.mem_sources.mpr ⟨role.id, Links.mem_sources.mpr ⟨scope.id, hscope, hlink⟩,
      (Table.mem_linked.mp hrole).2.2⟩

theorem createDataScope_keeps (h : db.Linked) {obj : DataScope}
    (hfresh : 0 < newId ∧ newId ∉ db.scopes.ids)
    (hout : DataScopeService.create db newId obj = .ok out) : Keeps db out fun _ => True := by
  rcases refuse_bind hout with ⟨-, hout⟩
  cases hout
  constructor
  · constructor
    · exact h.userRole
    · exact h.roleMenu
    · intro roleId scopeId hlink
      exact Table.mem_ids_create (h.roleScope hlink)
    · exact h.scopeRule
    · exact h.dept
  · intro u user _ _ _
    apply getJoin_scopes
    intro role _
    apply Table.linked_create
    intro hlink
    exact hfresh.2 (h.roleScope hlink)

theorem updateDataScope_keeps (h : db.Linked) {obj : DataScope}
    (hout : DataScopeService.update db pk obj = .ok out) : Keeps db out fun _ => True := by
  rcases found_bind hout with ⟨scope, -, hout⟩
  rcases refuse_bind hout with ⟨-, hout⟩
  cases hout
  exact modifyScopes_keeps h fun _ => rfl

theorem deleteDataScopes_keeps (h : db.Linked) (hout : DataScopeService.delete db pks = .ok out) :
    Keeps db out fun _ => True := by
  cases hout
  exact modifyScopes_keeps h fun _ => rfl

theorem updateDataScopeRule_keeps (h : db.Linked) {rules : List Nat}
    (hout : DataScopeService.updateDataScopeRule db pk rules = .ok out) :
    Keeps db out fun _ => True := by
  rcases found_bind hout with ⟨scope, -, hout⟩
  rcases refuse_bind hout with ⟨hsame, hout⟩
  cases hout
  constructor
  · constructor
    · exact h.userRole
    · exact h.roleMenu
    · exact h.roleScope
    · intro scopeId ruleId hlink
      cases Links.mem_relink.mp hlink with
      | inl hold => exact h.scopeRule hold.2
      | inr hnew => exact mem_ids_of_sameIds hsame hnew.2
    · exact h.dept
  · intro u user _ hcleared _
    apply getJoin_rules
    intro role scope hrole hscope
    have hne : scope.id ≠ pk := by
      intro heq
      apply hcleared
      have hlink := (Table.mem_linked.mp hscope).2.2
      rw [heq] at hlink
      exact Links.mem_sources.mpr ⟨role.id, Links.mem_sources.mpr ⟨pk,
        List.mem_singleton_self _, hlink⟩, (Table.mem_linked.mp hrole).2.2⟩
    apply Table.linked_congr
    intro rule _ _
    exact Links.mem_relink_of_ne hne

/-!
# Data rules
-/

theorem modifyRules_keeps (h : db.Linked) {f : Row DataRule -> Row DataRule}
    (hid : forall row, (f row).id = row.id) :
    Keeps db ⟨{ db with rules := db.rules.modify pks f }, clearByDataRuleId db pks⟩
      fun _ => True := by
  constructor
  · constructor
    · exact h.userRole
    · exact h.roleMenu
    · exact h.roleScope
    · intro scopeId ruleId hlink
      show ruleId ∈ (db.rules.modify pks f).ids
      rw [Table.ids_modify hid]
      exact h.scopeRule hlink
    · exact h.dept
  · intro u user _ hcleared _
    apply getJoin_rules
    intro role scope hrole hscope
    apply Table.linked_modify hid
    intro rule _ _ hrule hlink
    apply hcleared
    have hscopeId := Links.mem_sources.mpr ⟨rule.id, hrule, hlink⟩
    have hroleId := Links.mem_sources.mpr ⟨scope.id, hscopeId, (Table.mem_linked.mp hscope).2.2⟩
    exact Links.mem_sources.mpr ⟨role.id, hroleId, (Table.mem_linked.mp hrole).2.2⟩

theorem createDataRule_keeps (h : db.Linked) {obj : DataRule}
    (hfresh : 0 < newId ∧ newId ∉ db.rules.ids)
    (hout : DataRuleService.create db newId obj = .ok out) : Keeps db out fun _ => True := by
  rcases refuse_bind hout with ⟨-, hout⟩
  cases hout
  constructor
  · constructor
    · exact h.userRole
    · exact h.roleMenu
    · exact h.roleScope
    · intro scopeId ruleId hlink
      exact Table.mem_ids_create (h.scopeRule hlink)
    · exact h.dept
  · intro u user _ _ _
    apply getJoin_rules
    intro role scope _ _
    apply Table.linked_create
    intro hlink
    exact hfresh.2 (h.scopeRule hlink)

theorem updateDataRule_keeps (h : db.Linked) {obj : DataRule}
    (hout : DataRuleService.update db pk obj = .ok out) : Keeps db out fun _ => True := by
  rcases found_bind hout with ⟨rule, -, hout⟩
  rcases refuse_bind hout with ⟨-, hout⟩
  cases hout
  exact modifyRules_keeps h fun _ => rfl

theorem deleteDataRules_keeps (h : db.Linked) (hout : DataRuleService.delete db pks = .ok out) :
    Keeps db out fun _ => True := by
  cases hout
  exact modifyRules_keeps h fun _ => rfl

/-!
# Departments

Departments are not taken away from users; an update of a department, though, clears no key.
-/

theorem AdminDb.Linked.setDepts (h : db.Linked) {depts : Table Dept}
    (hids : forall id, id ∈ db.depts.ids -> id ∈ depts.ids) :
    AdminDb.Linked { db with depts := depts } := by
  constructor
  · exact h.userRole
  · exact h.roleMenu
  · exact h.roleScope
  · exact h.scopeRule
  · intro user deptId hmem hdept hne
    exact hids deptId (h.dept hmem hdept hne)

theorem createDept_keeps (h : db.Linked) {obj : Dept}
    (hfresh : 0 < newId ∧ newId ∉ db.depts.ids) (hout : DeptService.create db newId obj = .ok out) :
    Keeps db out fun _ => True := by
  rcases refuse_bind hout with ⟨-, hout⟩
  rcases refuse_bind hout with ⟨-, hout⟩
  cases hout
  constructor
  · exact h.setDepts fun _ => Table.mem_ids_create
  · intro u user _ _ _
    apply getJoin_depts
    intro row deptId hrow hdept
    apply Table.get_create
    intro heq
    have hne : deptId ≠ 0 := fun hzero => absurd hfresh.1 (by omega)
    exact hfresh.2 (heq ▸ h.dept (Table.get_mem hrow).1 hdept hne)

def UserDetail.DeptKept (user : UserDetail) (pk : Nat) (obj : UpdateDeptParam) : Prop :=
  forall dept, user.dept = some dept -> dept.id = pk -> obj.apply dept.value = dept.value

theorem updateDept_keeps (h : db.Linked) {obj : UpdateDeptParam}
    (hout : DeptService.update db pk obj = .ok out) :
    Keeps db out fun user => user.DeptKept pk obj := by
  rcases found_bind hout with ⟨dept, -, hout⟩
  rcases refuse_bind hout with ⟨-, hout⟩
  rcases refuse_bind hout with ⟨-, hout⟩
  rcases refuse_bind hout with ⟨-, hout⟩
  cases hout
  constructor
  · apply h.setDepts
    intro deptId hdept
    rw [Table.ids_update]
    exact hdept
  · intro u user hjoin _ hharmless
    rcases getJoin_some hjoin with ⟨row, hrow, -, rfl⟩
    apply getJoin_depts
    intro row' deptId hrow' hdept
    cases Option.some.inj (hrow.symm.trans hrow')
    refine Table.get_modify (fun _ => rfl) ?_
    intro dept' hdept' hpk
    have hkept : obj.apply dept'.value = dept'.value := by
      apply hharmless dept'
      · show row.value.deptId.bind db.depts.get = some dept'
        rw [hdept]
        exact hdept'
      · rw [(Table.get_mem hdept').2.2]
        exact List.mem_singleton.mp hpk
    show ({ dept' with value := obj.apply dept'.value } : Row Dept) = dept'
    rw [hkept]

theorem deleteDept_keeps (h : db.Linked) (hout : DeptService.delete db pk = .ok out) :
    Keeps db out fun _ => True := by
  rcases found_bind hout with ⟨dept, hfound, hout⟩
  rcases refuse_bind hout with ⟨husers, hout⟩
  rcases refuse_bind hout with ⟨-, hout⟩
  cases hout
  constructor
  · apply h.setDepts
    intro deptId hdept
    rw [Table.ids_delete]
    exact hdept
  · intro u user _ _ _
    apply getJoin_depts
    intro row deptId hrow hdept
    refine Table.get_modify (fun _ => rfl) ?_
    intro dept' _ hpk
    -- a user of the department would have been found
    exfalso
    rcases Table.get_mem hrow with ⟨hmem, hlive, -⟩
    have hnone := List.find?_eq_none.mp (Option.isSome_eq_false_iff.mp husers |>
      Option.isNone_iff_eq_none.mp) row hmem
    apply hnone
    rw [(Table.get_mem hfound).2.2]
    simp [hlive, hdept, List.mem_singleton.mp hpk]

/-!
# Users

Columns of one user change, or the user is added or deleted with the links.
-/

theorem modifyUsers_keeps (h : db.Linked) {f : Row User -> Row User} {pk : Nat} {userRole : Links}
    (hid : forall row, (f row).id = row.id)
    (hdept : forall row deptId, row ∈ db.users -> (f row).value.deptId = some deptId ->
      deptId ≠ 0 -> deptId ∈ db.depts.ids)
    (hlinks : forall {userId roleId}, (userId, roleId) ∈ userRole -> roleId ∈ db.roles.ids)
    (hother : forall userId roleId, userId ≠ pk ->
      ((userId, roleId) ∈ userRole ↔ (userId, roleId) ∈ db.userRole)) :
    Keeps db ⟨{ db with users := db.users.modify [pk] f, userRole := userRole }, [pk]⟩
      fun _ => True := by
  constructor
  · constructor
    · exact hlinks
    · exact h.roleMenu
    · exact h.roleScope
    · exact h.scopeRule
    · intro user deptId hmem hdeptId hne
      rcases List.mem_map.mp hmem with ⟨row, hrow, rfl⟩
      split at hdeptId
      · exact hdept row deptId hrow hdeptId hne
      · exact h.dept hrow hdeptId hne
  · intro u user _ hcleared _
    have hu : (u : Nat) ≠ pk := fun heq => hcleared (heq ▸ List.mem_singleton_self _)
    apply getJoin_users
    · apply Table.get_modify hid
      intro row _ hpk
      exact absurd (List.mem_singleton.mp hpk) hu
    · apply Table.linked_congr
      intro role _ _
      exact hother u role.id hu

theorem createUser_keeps (h : db.Linked) {obj : AddUserParam}
    (hfresh : 0 < newId ∧ newId ∉ db.users.ids) (hout : UserService.create db newId obj = .ok out) :
    Keeps db out fun _ => True := by
  rcases refuse_bind hout with ⟨-, hout⟩
  rcases refuse_bind hout with ⟨-, hout⟩
  rcases refuse_bind hout with ⟨-, hout⟩
  rcases found_bind hout with ⟨dept, hdept, hout⟩
  rcases refuse_bind hout with ⟨-, hout⟩
  cases hout
  constructor
  · constructor
    · intro userId roleId hlink
      cases List.mem_append.mp hlink with
      | inl hold => exact h.userRole hold
      | inr hnew =>
          rcases List.mem_map.mp hnew with ⟨r, hr, heq⟩
          cases heq
          exact mem_roleIds hr
    · exact h.roleMenu
    · exact h.roleScope
    · exact h.scopeRule
    · intro user deptId hmem hdeptId hne
      cases List.mem_append.mp hmem with
      | inl hold => exact h.dept hold hdeptId hne
      | inr hnew =>
          rw [List.mem_singleton.mp hnew] at hdeptId
          cases hdeptId
          exact Table.mem_ids_of_get hdept
  · intro u user hjoin _ _
    rcases getJoin_some hjoin with ⟨row, hrow, -, -⟩
    have hne : (u : Nat) ≠ newId := fun heq => hfresh.2 (heq ▸ Table.mem_ids_of_get hrow)
    apply getJoin_users
    · exact Table.get_create hne
    · apply Table.linked_congr
      intro role _ _
      simp [Ne.symm hne]

theorem updateUser_keeps (h : db.Linked) {pk : ℕ+} {obj : UpdateUserParam}
    (hout : UserService.update db pk obj = .ok out) : Keeps db out fun _ => True := by
  rcases found_bind hout with ⟨user, hfound, hout⟩
  rcases refuse_bind hout with ⟨-, hout⟩
  rcases refuse_bind hout with ⟨-, hout⟩
  rcases refuse_bind hout with ⟨hdept, hout⟩
  rcases refuse_bind hout with ⟨-, hout⟩
  cases hout
  refine modifyUsers_keeps h (fun _ => rfl) ?_ ?_ ?_
  · intro row deptId hrow hdeptId hne
    have hdeptId : obj.deptId.getD row.value.deptId = some deptId := hdeptId
    cases hobj : obj.deptId with
    | none =>
        rw [hobj] at hdeptId
        exact h.dept hrow hdeptId hne
    | some given =>
        rw [hobj] at hdeptId
        have hgiven : given = some deptId := hdeptId
        rw [hobj, hgiven] at hdept
        by_cases hsame : user.value.deptId = some deptId
        · exact h.dept (Table.get_mem hfound).1 hsame hne
        · have hget : (db.depts.get deptId).isNone = false := by
            simpa [truthy, Option.filter, hne, hsame] using hdept
          cases hrowDept : db.depts.get deptId with
          | none =>
              rw [hrowDept] at hget
              cases hget
          | some dept => exact Table.mem_ids_of_get hrowDept
  · intro userId roleId hlink
    cases Links.mem_relink.mp hlink with
    | inl hold => exact h.userRole hold.2
    | inr hnew => exact mem_roleIds hnew.2
  · intro userId roleId hne
    exact Links.mem_relink_of_ne hne

theorem updateUsers_keeps (h : db.Linked) {f : User -> User}
    (hdept : forall user, (f user).deptId = user.deptId) :
    Keeps db ⟨{ db with users := db.users.update [pk] f }, [pk]⟩ fun _ => True := by
  refine modifyUsers_keeps h (fun _ => rfl) ?_ ?_ ?_
  · intro row deptId hrow hdeptId hne
    exact h.dept hrow ((hdept row.value).symm.trans hdeptId) hne
  · exact h.userRole
  · intro userId roleId _
    rfl

theorem updatePermission_keeps (h : db.Linked) {requestUser : RequestUser}
    {type : UserPermissionType}
    (hout : UserService.updatePermission db requestUser pk type = .ok out) :
    Keeps db out fun _ => True := by
  rcases found_bind hout with ⟨user, hfound, hout⟩
  have hpk : user.id = pk := (Table.get_mem hfound).2.2
  cases type with
  | superuser | staff | status =>
      rcases refuse_bind hout with ⟨-, hout⟩
      cases hout
      rw [hpk]
      exact updateUsers_keeps h fun _ => rfl
  | multiLogin =>
      cases hout
      rw [hpk]
      exact updateUsers_keeps h fun _ => rfl

theorem resetPassword_keeps (h : db.Linked) {validated : Except AdminError Unit}
    (hout : UserService.resetPassword db pk validated = .ok out) : Keeps db out fun _ => True := by
  rcases found_bind hout with ⟨user, -, hout⟩
  cases validated with
  | error e => cases hout
  | ok _ =>
      cases hout
      exact ⟨h, fun _ _ _ _ _ => rfl⟩

theorem updateNickname_keeps (h : db.Linked) {userId : Nat} {nickname : Text}
    (hout : UserService.updateNickname db userId nickname = .ok out) :
    Keeps db out fun _ => True := by
  cases hout
  exact updateUsers_keeps h fun _ => rfl

theorem updateAvatar_keeps (h : db.Linked) {userId : Nat} {avatar : Text}
    (hout : UserService.updateAvatar db userId avatar = .ok out) : Keeps db out fun _ => True := by
  cases hout
  exact updateUsers_keeps h fun _ => rfl

theorem updateEmail_keeps (h : db.Linked) {captchaCode captcha email : Text} {userId : Nat}
    (hout : UserService.updateEmail db captchaCode userId captcha email = .ok out) :
    Keeps db out fun _ => True := by
  rcases refuse_bind hout with ⟨-, hout⟩
  rcases refuse_bind hout with ⟨-, hout⟩
  rcases refuse_bind hout with ⟨-, hout⟩
  cases hout
  exact updateUsers_keeps h fun _ => rfl

theorem updatePassword_keeps (h : db.Linked) {userId : Nat} {changed : Except AdminError Unit}
    (hout : UserService.updatePassword db userId changed = .ok out) :
    Keeps db out fun _ => True := by
  cases changed with
  | error e => cases hout
  | ok _ =>
      cases hout
      exact ⟨h, fun _ _ _ _ _ => rfl⟩

theorem deleteUser_keeps (h : db.Linked) (hout : UserService.delete db pk = .ok out) :
    Keeps db out fun _ => True := by
  rcases found_bind hout with ⟨user, -, hout⟩
  cases hout
  refine modifyUsers_keeps h (fun _ => rfl) ?_ ?_ ?_
  · intro row deptId hrow hdeptId hne
    exact h.dept hrow hdeptId hne
  · intro userId roleId hlink
    cases Links.mem_relink.mp hlink with
    | inl hold => exact h.userRole hold.2
    | inr hnew => cases hnew.2
  · intro userId roleId hne
    exact Links.mem_relink_of_ne hne

end Admin
end RagService
