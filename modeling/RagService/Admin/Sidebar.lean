import Mathlib.Data.List.Dedup
import RagService.Admin.LoginUser
import RagService.Admin.Trees
import RagService.Foundation.Sorting

/-!
# The sidebar

`MenuService.get_sidebar`: the tree of the menus of a user.
-/

namespace RagService
namespace Admin

/-!
# Menus

The rows of `sys_menu` with the columns of the sidebar; their ids are different.
-/

structure SidebarMenu where
  title : Text
  name : Text
  path : Option Text
  sort : Int
  icon : Option Text
  type : Int
  component : Option Text
  perms : Option Text
  status : Int
  display : Int
  cache : Int
  link : Option Text
  remark : Option Text
  parentId : Option Nat
  deriving DecidableEq

structure MenuTable where
  rows : Table SidebarMenu
  keys : rows.ids.Nodup

/-- `menu_dao.get_sidebar(db, menu_ids)` -/
def menuDaoGetSidebar (menus : MenuTable) (menuIds : Option (List Nat)) :
    List (Row SidebarMenu) :=
  let types : List Int := [0, 1, 3, 4]
  let wanted := menus.rows.filter fun row => row.value.type ∈ types && row.deleted = 0
  let chosen := match menuIds with
    | none | some [] => wanted
    | some ids => wanted.filter fun row => row.id ∈ ids
  Sorting.sortOn (fun row => row.value.sort) chosen

/-!
# The tree

The menus of the enabled roles of the user, sorted by the column `sort`, are made into the
nodes of a tree with their key `meta`.
-/

structure MenuMeta where
  title : Text
  icon : Option Text
  iframeSrc : Option Text
  link : Option Text
  keepAlive : Int
  hideInMenu : Bool
  menuVisibleWithForbidden : Bool
  deriving DecidableEq

structure Vben5Menu where
  name : Text
  path : Option Text
  sort : Int
  type : Int
  component : Option Text
  perms : Option Text
  remark : Option Text
  parentId : Option Nat
  info : MenuMeta
  deriving DecidableEq

def vben5Node (node : Row SidebarMenu) : Row Vben5Menu where
  id := node.id
  deleted := node.deleted
  value :=
    { name := node.value.name
      path := node.value.path
      sort := node.value.sort
      type := node.value.type
      component := node.value.component
      perms := node.value.perms
      remark := node.value.remark
      parentId := node.value.parentId
      info :=
        { title := node.value.title
          icon := node.value.icon
          iframeSrc := if node.value.type = 3 then node.value.link else some []
          link := if node.value.type = 4 then node.value.link else some []
          keepAlive := node.value.cache
          hideInMenu := node.value.display = 0
          menuVisibleWithForbidden := node.value.status = 0 } }

/-- `get_tree_nodes(rows, is_sort=True, sort_key='sort')` and their `meta` -/
def vben5Nodes (rows : List (Row SidebarMenu)) : List (Row Vben5Menu) :=
  (Sorting.sortOn (fun row => row.value.sort) rows).map vben5Node

def getVben5TreeData (rows : List (Row SidebarMenu)) : TreeData Vben5Menu :=
  traversalToTree Vben5Menu.parentId (vben5Nodes rows)

def enabledRoles (user : UserDetail) : List RoleDetail :=
  user.roles.filter fun role => role.role.value.status = 1

def menuIds (user : UserDetail) : List Nat :=
  ((enabledRoles user).flatMap fun role => role.menus.map Row.id).dedup

/-- `menu_data` -/
def sidebarData (menus : MenuTable) (user : UserDetail) : List (Row SidebarMenu) :=
  if user.isSuperuser then menuDaoGetSidebar menus none
  else if (enabledRoles user).isEmpty then []
  else menuDaoGetSidebar menus (some (menuIds user))

def getSidebar (menus : MenuTable) (user : UserDetail) : TreeData Vben5Menu :=
  let menuData := sidebarData menus user
  if menuData.isEmpty then ⟨[], fun _ => []⟩ else getVben5TreeData menuData

end Admin
end RagService
