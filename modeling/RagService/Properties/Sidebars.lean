import RagService.Admin.Sidebar

/-!
# The sidebar and the menus of the user

Which menus the tree of the sidebar shows: the assigned ones, unless the user has roles and
none of them has a menu.
-/

namespace RagService
namespace Admin

/-!
# Assigned menus

What the user has been assigned through enabled roles, and what a tree of it should show.
-/

def SidebarType (row : Row SidebarMenu) : Prop :=
  row.value.type ∈ ([0, 1, 3, 4] : List Int) ∧ row.deleted = 0

instance (row : Row SidebarMenu) : Decidable (SidebarType row) :=
  inferInstanceAs (Decidable (_ ∧ _))

def sidebarMenus (menus : MenuTable) : List (Row SidebarMenu) :=
  menus.rows.filter fun row => SidebarType row

def HasMenu (user : UserDetail) (row : Row SidebarMenu) : Prop :=
  exists role, role ∈ user.roles ∧ role.role.value.status = 1 ∧
    exists menu, menu ∈ role.menus ∧ menu.id = row.id

instance (user : UserDetail) (row : Row SidebarMenu) : Decidable (HasMenu user row) :=
  inferInstanceAs (Decidable (exists role, role ∈ user.roles ∧ _))

def assignedMenus (menus : MenuTable) (user : UserDetail) : List (Row SidebarMenu) :=
  (sidebarMenus menus).filter fun row => HasMenu user row

abbrev MenuAbove (rows : List (Row SidebarMenu)) : Nat -> Nat -> Prop :=
  Forest.Above Row.id (parentOf SidebarMenu.parentId) rows

/--
Every node of the tree is an assigned menu, and every assigned menu whose ancestors, as far as
they are assigned, meet no cycle is one node of it.
-/
structure ShowsAssigned (menus : MenuTable) (user : UserDetail) : Prop where
  assigned : forall depth node, node ∈ (getSidebar menus user).rows depth ->
    exists row, row ∈ assignedMenus menus user ∧ vben5Node row = node
  once : forall row, row ∈ assignedMenus menus user ->
    Forest.Founded (MenuAbove (assignedMenus menus user)) row.id ->
      forall depth, menus.rows.length ≤ depth ->
        ((getSidebar menus user).rows depth).count (vben5Node row) = 1

/-!
# What the tree shows

The data of the tree are the assigned menus, or all when no role has a menu; a row whose way up
comes to an end is one node.
-/

section Shown

variable {rows : List (Row SidebarMenu)}

theorem mem_vben5Nodes {node : Row Vben5Menu} :
    node ∈ vben5Nodes rows ↔ exists row, row ∈ rows ∧ vben5Node row = node := by
  simp only [vben5Nodes, List.mem_map, Sorting.mem_sortOn]

theorem ids_vben5Nodes : ((vben5Nodes rows).map Row.id).Perm (rows.map Row.id) := by
  rw [vben5Nodes, List.map_map]
  exact (Sorting.perm_sortOn _ rows).map _

theorem above_vben5Nodes {x p : Nat}
    (h : Forest.Above Row.id (parentOf Vben5Menu.parentId) (vben5Nodes rows) x p) :
    MenuAbove rows x p := by
  rcases h with ⟨node, hnode, rfl, hparent⟩
  rcases mem_vben5Nodes.mp hnode with ⟨row, hrow, rfl⟩
  exact ⟨row, hrow, rfl, hparent⟩

theorem mem_rows_getVben5TreeData (hids : (rows.map Row.id).Nodup) {depth : Nat}
    {node : Row Vben5Menu} (h : node ∈ (getVben5TreeData rows).rows depth) :
    exists row, row ∈ rows ∧ vben5Node row = node := by
  rw [getVben5TreeData, rows_traversalToTree (ids_vben5Nodes.nodup_iff.mpr hids)] at h
  exact mem_vben5Nodes.mp
    (Forest.mem_of_mem_listing (fun n hn => Forest.mem_of_mem_rootsOf hn) h)

theorem count_rows_getVben5TreeData (hids : (rows.map Row.id).Nodup) {row : Row SidebarMenu}
    (hrow : row ∈ rows) (hfounded : Forest.Founded (MenuAbove rows) row.id) {depth : Nat}
    (hdepth : rows.length ≤ depth) :
    ((getVben5TreeData rows).rows depth).count (vben5Node row) = 1 := by
  have hids' : ((vben5Nodes rows).map Row.id).Nodup := ids_vben5Nodes.nodup_iff.mpr hids
  have hnode : vben5Node row ∈ vben5Nodes rows := mem_vben5Nodes.mpr ⟨row, hrow, rfl⟩
  have hfounded' : Forest.Founded
      (Forest.Above Row.id (parentOf Vben5Menu.parentId) (vben5Nodes rows))
        (vben5Node row).id :=
    hfounded.mono fun x p h => above_vben5Nodes h
  have hlength : (vben5Nodes rows).length = rows.length := by
    simpa using ids_vben5Nodes.length_eq
  have hheight := Forest.height_lt_length hnode hfounded'.self
  rw [getVben5TreeData, rows_traversalToTree hids']
  exact Forest.count_listing hids' hnode hfounded' (by omega)

end Shown

section Data

variable {menus : MenuTable} {user : UserDetail}

theorem mem_menuIds {id : Nat} : id ∈ menuIds user ↔ exists role, role ∈ user.roles ∧
    role.role.value.status = 1 ∧ exists menu, menu ∈ role.menus ∧ menu.id = id := by
  simp only [menuIds, enabledRoles, List.mem_dedup, List.mem_flatMap, List.mem_filter,
    List.mem_map, decide_eq_true_eq, and_assoc]

theorem wanted_eq : (menus.rows.filter fun row =>
    row.value.type ∈ ([0, 1, 3, 4] : List Int) && row.deleted = 0) = sidebarMenus menus :=
  List.filter_congr fun _ _ => (Bool.decide_and _ _).symm

theorem menuDaoGetSidebar_all {ids : Option (List Nat)} (h : ids = none ∨ ids = some []) :
    (menuDaoGetSidebar menus ids).Perm (sidebarMenus menus) := by
  rw [← wanted_eq]
  rcases h with rfl | rfl
  · exact Sorting.perm_sortOn _ _
  · exact Sorting.perm_sortOn _ _

theorem menuDaoGetSidebar_some {ids : List Nat} (h : ids ≠ []) :
    (menuDaoGetSidebar menus (some ids)).Perm
      ((sidebarMenus menus).filter fun row => row.id ∈ ids) := by
  rw [← wanted_eq]
  cases ids with
  | nil => exact absurd rfl h
  | cons id ids => exact Sorting.perm_sortOn _ _

theorem nodup_sidebarMenus : ((sidebarMenus menus).map Row.id).Nodup :=
  menus.keys.sublist (List.filter_sublist.map Row.id)

theorem length_assignedMenus : (assignedMenus menus user).length ≤ menus.rows.length :=
  (List.filter_sublist.trans List.filter_sublist).length_le

variable (menus) in
theorem sidebarData_perm (hsuper : user.isSuperuser = false) :
    (menuIds user ≠ [] -> (sidebarData menus user).Perm (assignedMenus menus user)) ∧
      (menuIds user = [] -> enabledRoles user ≠ [] ->
        (sidebarData menus user).Perm (sidebarMenus menus)) ∧
      (enabledRoles user = [] -> sidebarData menus user = []) := by
  unfold sidebarData
  rw [hsuper]
  refine ⟨fun hids => ?_, fun hids hroles => ?_, fun hroles => ?_⟩
  · have hroles : enabledRoles user ≠ [] := by
      intro hroles
      rw [menuIds, hroles] at hids
      exact hids rfl
    have hassigned : assignedMenus menus user =
        (sidebarMenus menus).filter fun row => row.id ∈ menuIds user :=
      List.filter_congr fun row _ => decide_eq_decide.mpr mem_menuIds.symm
    rw [if_neg Bool.false_ne_true, if_neg (by simpa using hroles), hassigned]
    exact menuDaoGetSidebar_some hids
  · rw [if_neg Bool.false_ne_true, if_neg (by simpa using hroles)]
    exact menuDaoGetSidebar_all (.inr (congrArg some hids))
  · rw [if_neg Bool.false_ne_true, hroles]
    rfl

theorem getSidebar_eq : getSidebar menus user =
    if sidebarData menus user = [] then ⟨[], fun _ => []⟩
    else getVben5TreeData (sidebarData menus user) := by
  unfold getSidebar
  simp only [List.isEmpty_iff]

end Data

/-!
# The exact condition

When no role has a menu, the menus that are shown are those of nobody, unless there is none to
be shown.
-/

section Condition

variable {menus : MenuTable} {user : UserDetail}

theorem rows_getSidebar {rows : List (Row SidebarMenu)} (hkeys : (rows.map Row.id).Nodup)
    (hperm : (sidebarData menus user).Perm rows) {depth : Nat} :
    (forall node, node ∈ (getSidebar menus user).rows depth ->
      exists row, row ∈ rows ∧ vben5Node row = node) ∧
    (forall row, row ∈ rows -> Forest.Founded (MenuAbove rows) row.id -> rows.length ≤ depth ->
      ((getSidebar menus user).rows depth).count (vben5Node row) = 1) := by
  have hids : ((sidebarData menus user).map Row.id).Nodup :=
    (hperm.map Row.id).nodup_iff.mpr hkeys
  rw [getSidebar_eq]
  split
  · rename_i hempty
    rw [hempty] at hperm
    rw [hperm.symm.eq_nil]
    constructor
    · intro node hnode
      cases depth with
      | zero => cases hnode
      | succ depth => cases hnode
    · intro row hrow
      cases hrow
  · constructor
    · intro node hnode
      rcases mem_rows_getVben5TreeData hids hnode with ⟨row, hrow, hrow'⟩
      exact ⟨row, hperm.mem_iff.mp hrow, hrow'⟩
    · intro row hrow hfounded hdepth
      have hfounded' : Forest.Founded (MenuAbove (sidebarData menus user)) row.id :=
        hfounded.mono fun x p ⟨n, hn, h⟩ => ⟨n, hperm.mem_iff.mp hn, h⟩
      exact count_rows_getVben5TreeData hids (hperm.mem_iff.mpr hrow) hfounded'
        (hperm.length_eq.trans_le hdepth)

theorem nodup_assignedMenus : ((assignedMenus menus user).map Row.id).Nodup :=
  nodup_sidebarMenus.sublist (List.filter_sublist.map Row.id)

theorem showsAssigned_of_perm (hperm : (sidebarData menus user).Perm (assignedMenus menus user)) :
    ShowsAssigned menus user where
  assigned _ node hnode := (rows_getSidebar nodup_assignedMenus hperm).1 node hnode
  once row hrow hfounded _ hdepth := (rows_getSidebar nodup_assignedMenus hperm).2 row hrow hfounded
    (length_assignedMenus.trans hdepth)

/-- Every menu of the sidebar is below another one. -/
def Rootless (menus : MenuTable) : Prop :=
  forall row, row ∈ sidebarMenus menus ->
    exists parent, parent ∈ sidebarMenus menus ∧ row.value.parentId = some parent.id

theorem assignedMenus_eq_nil (h : menuIds user = []) : assignedMenus menus user = [] := by
  refine List.filter_eq_nil_iff.mpr fun row _ hmenu => ?_
  have hid := mem_menuIds.mpr (of_decide_eq_true hmenu)
  rw [h] at hid
  cases hid

theorem mem_rootsOf {row : Row SidebarMenu} (hrow : row ∈ sidebarMenus menus)
    (hroot : ¬ exists parent, parent ∈ sidebarMenus menus ∧
      row.value.parentId = some parent.id) :
    row ∈ Forest.rootsOf Row.id (parentOf SidebarMenu.parentId) (sidebarMenus menus) := by
  refine List.mem_filter.mpr ⟨hrow, ?_⟩
  cases hparent : row.value.parentId with
  | none =>
      rw [parentOf, hparent]
      rfl
  | some p =>
      rw [parentOf, hparent, Option.all_some, decide_eq_true_eq]
      intro hp
      rcases List.mem_map.mp hp with ⟨parent, hmem, rfl⟩
      exact hroot ⟨parent, hmem, hparent⟩

theorem rows_getSidebar_rootless (hperm : (sidebarData menus user).Perm (sidebarMenus menus))
    (hrootless : Rootless menus) (depth : Nat) : (getSidebar menus user).rows depth = [] := by
  have hids : ((sidebarData menus user).map Row.id).Nodup :=
    (hperm.map Row.id).nodup_iff.mpr nodup_sidebarMenus
  have hroots : Forest.rootsOf Row.id (parentOf Vben5Menu.parentId)
      (vben5Nodes (sidebarData menus user)) = [] := by
    refine List.filter_eq_nil_iff.mpr fun node hnode hroot => ?_
    rcases mem_vben5Nodes.mp hnode with ⟨row, hrow, rfl⟩
    rcases hrootless row (hperm.mem_iff.mp hrow) with ⟨parent, hparent, hid⟩
    have hparent' : vben5Node parent ∈ vben5Nodes (sidebarData menus user) :=
      mem_vben5Nodes.mpr ⟨parent, hperm.mem_iff.mpr hparent, rfl⟩
    have hid' : parentOf Vben5Menu.parentId (vben5Node row) = some parent.id := hid
    rw [hid', Option.all_some, decide_eq_true_eq] at hroot
    exact hroot (List.mem_map.mpr ⟨_, hparent', rfl⟩)
  rw [getSidebar_eq]
  split
  · exact Forest.listing_nil _ depth
  · rw [getVben5TreeData, rows_traversalToTree (ids_vben5Nodes.nodup_iff.mpr hids), hroots]
    exact Forest.listing_nil _ depth

/-- When no role has a menu, the menus that are shown are those of nobody. -/
theorem showsAssigned_iff_rootless (hids : menuIds user = [])
    (hperm : (sidebarData menus user).Perm (sidebarMenus menus)) :
    ShowsAssigned menus user ↔ Rootless menus := by
  have hnone : assignedMenus menus user = [] := assignedMenus_eq_nil hids
  constructor
  · intro hshows row hrow
    by_contra hroot
    have hfounded := Forest.founded_of_mem_rootsOf nodup_sidebarMenus (mem_rootsOf hrow hroot)
    have honce := (rows_getSidebar nodup_sidebarMenus hperm).2 row hrow hfounded (Nat.le_refl _)
    have hshown := List.count_pos_iff.mp (Nat.lt_of_lt_of_eq Nat.zero_lt_one honce.symm)
    rcases hshows.assigned _ _ hshown with ⟨other, hother, -⟩
    rw [hnone] at hother
    cases hother
  · intro hrootless
    constructor
    · intro depth node hnode
      rw [rows_getSidebar_rootless hperm hrootless] at hnode
      cases hnode
    · intro row hrow
      rw [hnone] at hrow
      cases hrow

/--
The sidebar shows the assigned menus exactly if no role is enabled, an enabled role has a menu,
or there is no menu at the top that could be shown without being assigned.
-/
theorem sidebar_shows_assigned (hsuper : user.isSuperuser = false) :
    ShowsAssigned menus user ↔
      (forall role, role ∈ user.roles -> role.role.value.status ≠ 1) ∨
        (exists role, role ∈ user.roles ∧ role.role.value.status = 1 ∧ role.menus ≠ []) ∨
          Rootless menus := by
  rcases sidebarData_perm menus hsuper with ⟨hsome, hall, hno⟩
  have hroles : enabledRoles user = [] ↔
      forall role, role ∈ user.roles -> role.role.value.status ≠ 1 := by
    simp only [enabledRoles, List.filter_eq_nil_iff, decide_eq_true_eq, ne_eq]
  have hids : menuIds user ≠ [] ↔
      exists role, role ∈ user.roles ∧ role.role.value.status = 1 ∧ role.menus ≠ [] := by
    constructor
    · intro hne
      rcases List.exists_mem_of_ne_nil _ hne with ⟨id, hid⟩
      rcases mem_menuIds.mp hid with ⟨role, hrole, hstatus, menu, hmenu, -⟩
      exact ⟨role, hrole, hstatus, List.ne_nil_of_mem hmenu⟩
    · intro h
      rcases h with ⟨role, hrole, hstatus, hne⟩
      rcases List.exists_mem_of_ne_nil _ hne with ⟨menu, hmenu⟩
      exact List.ne_nil_of_mem (mem_menuIds.mpr ⟨role, hrole, hstatus, menu, hmenu, rfl⟩)
  rw [← hroles, ← hids]
  by_cases hmenus : menuIds user = []
  · by_cases henabled : enabledRoles user = []
    · have hdata : (sidebarData menus user).Perm (assignedMenus menus user) := by
        rw [hno henabled, assignedMenus_eq_nil hmenus]
      exact iff_of_true (showsAssigned_of_perm hdata) (.inl henabled)
    · rw [showsAssigned_iff_rootless hmenus (hall hmenus henabled)]
      simp only [hmenus, henabled, ne_eq, not_true_eq_false, false_or]
  · exact iff_of_true (showsAssigned_of_perm (hsome hmenus)) (.inr (.inl hmenus))

end Condition

/-!
# A role without menus

A user with one enabled role.
-/

def dashboard : Row SidebarMenu where
  id := 1
  deleted := 0
  value :=
    { title := "Dashboard".toList
      name := "Dashboard".toList
      path := none
      sort := 0
      icon := none
      type := 0
      component := none
      perms := none
      status := 1
      display := 1
      cache := 1
      link := none
      remark := none
      parentId := none }

def dashboardTable : MenuTable where
  rows := [dashboard]
  keys := List.nodup_singleton 1

def roleUser (menus : List (Row Menu)) : UserDetail where
  id := 1
  status := 1
  isSuperuser := false
  isStaff := true
  deptId := none
  dept := none
  roles :=
    [{ role := ⟨1, 0, { name := "staff".toList, status := 1, isFilterScopes := false }⟩
       menus := menus
       scopes := [] }]

def dashboardMenu : Row Menu where
  id := 1
  deleted := 0
  value :=
    { title := "Dashboard".toList
      parentId := none
      type := 0
      perms := none
      status := 1 }

theorem dashboard_sidebar_shows : ShowsAssigned dashboardTable (roleUser [dashboardMenu]) ↔
    (forall role, role ∈ (roleUser [dashboardMenu]).roles -> role.role.value.status ≠ 1) ∨
      (exists role, role ∈ (roleUser [dashboardMenu]).roles ∧ role.role.value.status = 1 ∧
        role.menus ≠ []) ∨ Rootless dashboardTable :=
  sidebar_shows_assigned rfl

/-- A user whose role has no menu sees a menu that is assigned to nobody. -/
theorem empty_role_shows_all : (roleUser []).isSuperuser = false ∧
    ¬ ShowsAssigned dashboardTable (roleUser []) := by
  refine ⟨rfl, fun hshows => ?_⟩
  rcases hshows.assigned 1 (vben5Node dashboard) (by decide) with ⟨row, hrow, -⟩
  have hnone : assignedMenus dashboardTable (roleUser []) = [] := by decide
  rw [hnone] at hrow
  cases hrow

end Admin
end RagService
