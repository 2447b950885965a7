import RagService.Admin.Frames

/-!
# What requests commit

A request that does not raise commits one of these: the checks that it passed, and the
database and the cleared keys that it leaves.
-/

namespace RagService
namespace Admin

open UserCacheManager

/-- What a type of permission changes, in a user who is to change. -/
def UserPermissionType.apply (requestUser : RequestUser) (user : Row User) (pk : Nat) :
    UserPermissionType -> User -> User
  | superuser, u => { u with isSuperuser := !user.value.isSuperuser }
  | staff, u => { u with isStaff := !user.value.isStaff }
  | status, u => { u with status := if user.value.status = 1 then 0 else 1 }
  | multiLogin, u =>
      { u with isMultiLogin :=
          !(if pk ≠ user.id then user.value.isMultiLogin else requestUser.isMultiLogin) }

inductive Effect (db : AdminDb) : AdminRequest -> Committed -> Prop where
  | createUser {newId : Nat} {obj : AddUserParam}
      (username : (db.users.getBy fun u => u.username = obj.username).isSome = false)
      (email : UserService.emailBound db obj.email = false) :
      Effect db (.createUser newId obj)
        ⟨{ db with
            users := db.users.create newId obj.user
            userRole := db.userRole ++ (roleIds db obj.roles).map fun roleId => (newId, roleId) },
          []⟩
  | updateUser {pk : ℕ+} {obj : UpdateUserParam} {user : Row User}
      (found : db.users.get pk = some user)
      (username : (decide (obj.username ≠ user.value.username) &&
        (db.users.getBy fun u => u.username = obj.username).isSome) = false)
      (email : (decide (obj.email.join ≠ user.value.email) &&
        UserService.emailBound db obj.email.join) = false) :
      Effect db (.updateUser pk obj)
        ⟨{ db with
            users := db.users.update [user.id] obj.apply
            userRole := db.userRole.relink user.id (roleIds db obj.roles) },
          [user.id]⟩
  | updatePermission {requestUser : RequestUser} {pk : Nat} {type : UserPermissionType}
      {user : Row User} (found : db.users.get pk = some user)
      (other : type ≠ .multiLogin -> pk ≠ requestUser.id) :
      Effect db (.updatePermission requestUser pk type)
        ⟨{ db with users := db.users.update [pk] (type.apply requestUser user pk) }, [user.id]⟩
  | resetPassword {pk : Nat} {validated : Except AdminError Unit} {user : Row User}
      (found : db.users.get pk = some user) :
      Effect db (.resetPassword pk validated) ⟨db, [user.id]⟩
  | updateNickname {userId : Nat} {nickname : Text} :
      Effect db (.updateNickname userId nickname)
        ⟨{ db with users := db.users.update [userId] fun u => { u with nickname := nickname } },
          [userId]⟩
  | updateAvatar {userId : Nat} {avatar : Text} :
      Effect db (.updateAvatar userId avatar)
        ⟨{ db with users := db.users.update [userId] fun u => { u with avatar := some avatar } },
          [userId]⟩
  | updateEmail {captchaCode captcha email : Text} {userId : Nat}
      (free : ((db.users.getBy fun u => u.email = some email).any fun user =>
        user.id ≠ userId) = false) :
      Effect db (.updateEmail captchaCode userId captcha email)
        ⟨{ db with users := db.users.update [userId] fun u => { u with email := some email } },
          [userId]⟩
  | updatePassword {userId : Nat} {changed : Except AdminError Unit} :
      Effect db (.updatePassword userId changed) ⟨db, [userId]⟩
  | deleteUser {pk : Nat} {user : Row User} (found : db.users.get pk = some user) :
      Effect db (.deleteUser pk)
        ⟨{ db with
            users := db.users.delete [user.id]
            userRole := db.userRole.relink user.id [] },
          [user.id]⟩
  | createRole {newId : Nat} {obj : Role} (name : RoleService.nameTaken db obj.name = false) :
      Effect db (.createRole newId obj) ⟨{ db with roles := db.roles.create newId obj }, []⟩
  | updateRole {pk : Nat} {obj : UpdateRoleParam} {role : Row Role}
      (found : db.roles.get pk = some role)
      (name : (decide (role.value.name ≠ obj.name) && RoleService.nameTaken db obj.name) = false) :
      Effect db (.updateRole pk obj)
        ⟨{ db with roles := db.roles.update [pk] obj.apply }, clearByRoleId db [pk]⟩
  | updateRoleMenu {pk : Nat} {menus : List Nat}
      (known : (!menus.isEmpty && !sameIds (db.menus.getAllByIds menus) menus) = false) :
      Effect db (.updateRoleMenu pk menus)
        ⟨{ db with roleMenu := db.roleMenu.relink pk menus }, clearByRoleId db [pk]⟩
  | updateRoleScope {pk : Nat} {scopes : List Nat}
      (known : (!scopes.isEmpty && !sameIds (db.scopes.getAllByIds scopes) scopes) = false) :
      Effect db (.updateRoleScope pk scopes)
        ⟨{ db with roleScope := db.roleScope.relink pk scopes }, clearByRoleId db [pk]⟩
  | deleteRoles {pks : List Nat} :
      Effect db (.deleteRoles pks)
        ⟨{ db with roles := db.roles.delete pks }, clearByRoleId db pks⟩
  | createMenu {newId : Nat} {obj : Menu} (title : MenuService.titleTaken db obj.title = false)
      (parent : MenuService.parentMissing db obj.parentId = false) :
      Effect db (.createMenu newId obj) ⟨{ db with menus := db.menus.create newId obj }, []⟩
  | updateMenu {pk : Nat} {obj : UpdateMenuParam} {menu : Row Menu}
      (found : db.menus.get pk = some menu)
      (title : (decide (menu.value.title ≠ obj.title) && MenuService.titleTaken db obj.title) =
        false) :
      Effect db (.updateMenu pk obj)
        ⟨{ db with menus := db.menus.update [pk] obj.apply }, clearByMenuId db [pk]⟩
  | deleteMenu {pk : Nat} {cleared : List Nat} :
      Effect db (.deleteMenu pk)
        ⟨{ db with roleMenu := db.roleMenu.unlink pk, menus := db.menus.delete [pk] }, cleared⟩
  | createDept {newId : Nat} {obj : Dept} (name : DeptService.nameTaken db obj.name = false) :
      Effect db (.createDept newId obj) ⟨{ db with depts := db.depts.create newId obj }, []⟩
  | updateDept {pk : Nat} {obj : UpdateDeptParam} {dept : Row Dept}
      (found : db.depts.get pk = some dept)
      (name : (decide (dept.value.name ≠ obj.name) && DeptService.nameTaken db obj.name) = false) :
      Effect db (.updateDept pk obj) ⟨{ db with depts := db.depts.update [pk] obj.apply }, []⟩
  | deleteDept {pk : Nat} {dept : Row Dept} (found : db.depts.get pk = some dept) :
      Effect db (.deleteDept pk) ⟨{ db with depts := db.depts.delete [pk] }, []⟩
  | createDataScope {newId : Nat} {obj : DataScope}
      (name : DataScopeService.nameTaken db obj.name = false) :
      Effect db (.createDataScope newId obj) ⟨{ db with scopes := db.scopes.create newId obj }, []⟩
  | updateDataScope {pk : Nat} {obj : DataScope} {dataScope : Row DataScope}
      (found : db.scopes.get pk = some dataScope)
      (name : (decide (dataScope.value.name ≠ obj.name) &&
        DataScopeService.nameTaken db obj.name) = false) :
      Effect db (.updateDataScope pk obj)
        ⟨{ db with scopes := db.scopes.update [pk] fun _ => obj }, clearByDataScopeId db [pk]⟩
  | updateDataScopeRule {pk : Nat} {rules : List Nat}
      (known : (!rules.isEmpty && !sameIds (db.rules.getAllByIds rules) rules) = false) :
      Effect db (.updateDataScopeRule pk rules)
        ⟨{ db with scopeRule := db.scopeRule.relink pk rules }, clearByDataScopeId db [pk]⟩
  | deleteDataScopes {pks : List Nat} :
      Effect db (.deleteDataScopes pks)
        ⟨{ db with scopes := db.scopes.delete pks }, clearByDataScopeId db pks⟩
  | createDataRule {newId : Nat} {obj : DataRule}
      (name : DataRuleService.nameTaken db obj.name = false) :
      Effect db (.createDataRule newId obj) ⟨{ db with rules := db.rules.create newId obj }, []⟩
  | updateDataRule {pk : Nat} {obj : DataRule} {dataRule : Row DataRule}
      (found : db.rules.get pk = some dataRule)
      (name : (decide (dataRule.value.name ≠ obj.name) &&
        DataRuleService.nameTaken db obj.name) = false) :
      Effect db (.updateDataRule pk obj)
        ⟨{ db with rules := db.rules.update [pk] fun _ => obj }, clearByDataRuleId db [pk]⟩
  | deleteDataRules {pks : List Nat} :
      Effect db (.deleteDataRules pks)
        ⟨{ db with rules := db.rules.delete pks }, clearByDataRuleId db pks⟩

variable {db : AdminDb} {out : Committed}

theorem updatePermission_effect {requestUser : RequestUser} {pk : Nat} {type : UserPermissionType}
    (hout : UserService.updatePermission db requestUser pk type = .ok out) :
    Effect db (.updatePermission requestUser pk type) out := by
  rcases found_bind hout with ⟨user, hfound, hout⟩
  cases type with
  | superuser | staff | status =>
      rcases refuse_bind hout with ⟨hother, hout⟩
      cases hout
      exact .updatePermission hfound fun _ => of_decide_eq_false hother
  | multiLogin =>
      cases hout
      exact .updatePermission hfound fun hne => absurd rfl hne

theorem perform_effect {r : AdminRequest} (hout : r.perform db = .ok out) : Effect db r out := by
  cases r with
  | createUser newId obj =>
      rcases refuse_bind hout with ⟨husername, hout⟩
      rcases refuse_bind hout with ⟨hemail, hout⟩
      rcases refuse_bind hout with ⟨-, hout⟩
      rcases found_bind hout with ⟨dept, -, hout⟩
      rcases refuse_bind hout with ⟨-, hout⟩
      cases hout
      exact .createUser husername hemail
  | updateUser pk obj =>
      rcases found_bind hout with ⟨user, hfound, hout⟩
      rcases refuse_bind hout with ⟨husername, hout⟩
      rcases refuse_bind hout with ⟨hemail, hout⟩
      rcases refuse_bind hout with ⟨-, hout⟩
      rcases refuse_bind hout with ⟨-, hout⟩
      cases hout
      exact .updateUser hfound husername hemail
  | updatePermission requestUser pk type => exact updatePermission_effect hout
  | resetPassword pk validated =>
      rcases found_bind hout with ⟨user, hfound, hout⟩
      cases validated with
      | error e => cases hout
      | ok _ =>
          cases hout
          exact .resetPassword hfound
  | updateNickname userId nickname =>
      cases hout
      exact .updateNickname
  | updateAvatar userId avatar =>
      cases hout
      exact .updateAvatar
  | updateEmail captchaCode userId captcha email =>
      rcases refuse_bind hout with ⟨-, hout⟩
      rcases refuse_bind hout with ⟨-, hout⟩
      rcases refuse_bind hout with ⟨hfree, hout⟩
      cases hout
      exact .updateEmail hfree
  | updatePassword userId changed =>
      cases changed with
      | error e => cases hout
      | ok _ =>
          cases hout
          exact .updatePassword
  | deleteUser pk =>
      rcases found_bind hout with ⟨user, hfound, hout⟩
      cases hout
      exact .deleteUser hfound
  | createRole newId obj =>
      rcases refuse_bind hout with ⟨hname, hout⟩
      cases hout
      exact .createRole hname
  | updateRole pk obj =>
      rcases found_bind hout with ⟨role, hfound, hout⟩
      rcases refuse_bind hout with ⟨hname, hout⟩
      cases hout
      exact .updateRole hfound hname
  | updateRoleMenu pk menus =>
      rcases found_bind hout with ⟨role, -, hout⟩
      rcases refuse_bind hout with ⟨hknown, hout⟩
      cases hout
      exact .updateRoleMenu hknown
  | updateRoleScope pk scopes =>
      rcases found_bind hout with ⟨role, -, hout⟩
      rcases refuse_bind hout with ⟨hknown, hout⟩
      cases hout
      exact .updateRoleScope hknown
  | deleteRoles pks =>
      cases hout
      exact .deleteRoles
  | createMenu newId obj =>
      rcases refuse_bind hout with ⟨htitle, hout⟩
      rcases refuse_bind hout with ⟨hparent, hout⟩
      cases hout
      exact .createMenu htitle hparent
  | updateMenu pk obj =>
      rcases found_bind hout with ⟨menu, hfound, hout⟩
      rcases refuse_bind hout with ⟨htitle, hout⟩
      rcases refuse_bind hout with ⟨-, hout⟩
      rcases refuse_bind hout with ⟨-, hout⟩
      cases hout
      exact .updateMenu hfound htitle
  | deleteMenu pk =>
      rcases refuse_bind hout with ⟨-, hout⟩
      cases hout
      exact .deleteMenu
  | createDept newId obj =>
      rcases refuse_bind hout with ⟨hname, hout⟩
      rcases refuse_bind hout with ⟨-, hout⟩
      cases hout
      exact .createDept hname
  | updateDept pk obj =>
      rcases found_bind hout with ⟨dept, hfound, hout⟩
      rcases refuse_bind hout with ⟨hname, hout⟩
      rcases refuse_bind hout with ⟨-, hout⟩
      rcases refuse_bind hout with ⟨-, hout⟩
      cases hout
      exact .updateDept hfound hname
  | deleteDept pk =>
      rcases found_bind hout with ⟨dept, hfound, hout⟩
      rcases refuse_bind hout with ⟨-, hout⟩
      rcases refuse_bind hout with ⟨-, hout⟩
      cases hout
      exact .deleteDept hfound
  | createDataScope newId obj =>
      rcases refuse_bind hout with ⟨hname, hout⟩
      cases hout
      exact .createDataScope hname
  | updateDataScope pk obj =>
      rcases found_bind hout with ⟨dataScope, hfound, hout⟩
      rcases refuse_bind hout with ⟨hname, hout⟩
      cases hout
      exact .updateDataScope hfound hname
  | updateDataScopeRule pk rules =>
      rcases found_bind hout with ⟨dataScope, -, hout⟩
      rcases refuse_bind hout with ⟨hknown, hout⟩
      cases hout
      exact .updateDataScopeRule hknown
  | deleteDataScopes pks =>
      cases hout
      exact .deleteDataScopes
  | createDataRule newId obj =>
      rcases refuse_bind hout with ⟨hname, hout⟩
      cases hout
      exact .createDataRule hname
  | updateDataRule pk obj =>
      rcases found_bind hout with ⟨dataRule, hfound, hout⟩
      rcases refuse_bind hout with ⟨hname, hout⟩
      cases hout
      exact .updateDataRule hfound hname
  | deleteDataRules pks =>
      cases hout
      exact .deleteDataRules

end Admin
end RagService
