import RagService.Admin.Frames
import RagService.Foundation.Transitions

/-!
# The cached login user

`get_jwt_user` returns what `get_current_user` would read from the current database, after
every sequence of requests in which no menu of a cached user is deleted and no department of a
cached user changes: every request keeps what is read for the users it neither clears nor
harms.
-/

namespace RagService
namespace Admin

open Transitions

inductive LoginAction where
  | request (r : AdminRequest)
  | getJwtUser (userId : ℕ+)
  /-- a key expires -/
  | expire (userId : Nat)

namespace LoginState

def initial (db : AdminDb) : LoginState where
  db := db
  cache := ∅

/-- A request that raises leaves everything as it is. -/
def request (s : LoginState) (r : AdminRequest) : LoginState :=
  match r.perform s.db with
  | .ok out => { db := out.db, cache := eraseAll s.cache out.cleared }
  | .error _ => s

def step (s : LoginState) : LoginAction -> Option LoginState
  | .request r => if r.FreshId s.db then some (s.request r) else none
  | .getJwtUser userId => some (getJwtUser s userId).1
  | .expire userId => some { s with cache := s.cache.erase userId }

def cachedUsers (s : LoginState) : List UserDetail :=
  s.cache.entries.map Sigma.snd

/--
A menu is deleted only when no cached user has it, and a department is updated only in a way
that leaves the department of every cached user as it is.
-/
def Harmless (s : LoginState) : LoginAction -> Prop
  | .request (.deleteMenu pk) => (MenuService.delete s.db pk).isOk = true ->
      forall user, user ∈ s.cachedUsers -> ¬ user.HasMenu pk
  | .request (.updateDept pk obj) => (DeptService.update s.db pk obj).isOk = true ->
      forall user, user ∈ s.cachedUsers -> user.DeptKept pk obj
  | _ => True

instance (user : UserDetail) (pk : Nat) : Decidable (user.HasMenu pk) := by
  unfold UserDetail.HasMenu
  infer_instance

instance (user : UserDetail) (pk : Nat) (obj : UpdateDeptParam) :
    Decidable (user.DeptKept pk obj) :=
  decidable_of_iff (forall dept, dept ∈ user.dept -> dept.id = pk ->
    obj.apply dept.value = dept.value) Iff.rfl

instance (s : LoginState) (a : LoginAction) : Decidable (s.Harmless a) := by
  unfold Harmless
  split <;> infer_instance

/-- What is cached for a user is what would be read now. -/
structure Current (s : LoginState) : Prop where
  linked : s.db.Linked
  cached : forall (u : ℕ+) user, s.cache.lookup (u : Nat) = some user ->
    getCurrentUser s.db u = .ok user

variable {s s' : LoginState}

theorem mem_cachedUsers {userId : Nat} {user : UserDetail}
    (h : s.cache.lookup userId = some user) : user ∈ s.cachedUsers :=
  List.mem_map.mpr ⟨⟨userId, user⟩, AList.mem_lookup_iff.mp h, rfl⟩

theorem getJoin_of_getCurrentUser {db : AdminDb} {u : ℕ+} {user : UserDetail}
    (h : getCurrentUser db u = .ok user) : db.getJoin u = some user := by
  unfold getCurrentUser at h
  split at h
  · cases h
  · rename_i user' hjoin
    repeat' split at h
    all_goals cases h
    exact hjoin

theorem getCurrentUser_congr {db db' : AdminDb} {u : ℕ+} (h : db'.getJoin u = db.getJoin u) :
    getCurrentUser db' u = getCurrentUser db u := by
  unfold getCurrentUser
  rw [h]

/-- Every request keeps what is read for the users it neither clears nor harms. -/
theorem perform_keeps {db : AdminDb} (h : db.Linked) {r : AdminRequest} {out : Committed}
    (hfresh : r.FreshId db) (hout : r.perform db = .ok out) :
    Keeps db out fun user =>
      match r with
      | .deleteMenu pk => ¬ user.HasMenu pk
      | .updateDept pk obj => user.DeptKept pk obj
      | _ => True := by
  cases r with
  | createUser newId obj => exact createUser_keeps h hfresh hout
  | updateUser pk obj => exact updateUser_keeps h hout
  | updatePermission requestUser pk type => exact updatePermission_keeps h hout
  | resetPassword pk validated => exact resetPassword_keeps h hout
  | updateNickname userId nickname => exact updateNickname_keeps h hout
  | updateAvatar userId avatar => exact updateAvatar_keeps h hout
  | updateEmail captchaCode userId captcha email => exact updateEmail_keeps h hout
  | updatePassword userId changed => exact updatePassword_keeps h hout
  | deleteUser pk => exact deleteUser_keeps h hout
  | createRole newId obj => exact createRole_keeps h hfresh hout
  | updateRole pk obj => exact updateRole_keeps h hout
  | updateRoleMenu pk menus => exact updateRoleMenu_keeps h hout
  | updateRoleScope pk scopes => exact updateRoleScope_keeps h hout
  | deleteRoles pks => exact deleteRoles_keeps h hout
  | createMenu newId obj => exact createMenu_keeps h hfresh hout
  | updateMenu pk obj => exact updateMenu_keeps h hout
  | deleteMenu pk => exact deleteMenu_keeps h hout
  | createDept newId obj => exact createDept_keeps h hfresh hout
  | updateDept pk obj => exact updateDept_keeps h hout
  | deleteDept pk => exact deleteDept_keeps h hout
  | createDataScope newId obj => exact createDataScope_keeps h hfresh hout
  | updateDataScope pk obj => exact updateDataScope_keeps h hout
  | updateDataScopeRule pk rules => exact updateDataScopeRule_keeps h hout
  | deleteDataScopes pks => exact deleteDataScopes_keeps h hout
  | createDataRule newId obj => exact createDataRule_keeps h hfresh hout
  | updateDataRule pk obj => exact updateDataRule_keeps h hout
  | deleteDataRules pks => exact deleteDataRules_keeps h hout

theorem Current.request (h : s.Current) {r : AdminRequest} (hfresh : r.FreshId s.db)
    (hcond : s.Harmless (.request r)) : (s.request r).Current := by
  unfold LoginState.request
  cases hout : r.perform s.db with
  | error e => exact h
  | ok out =>
      have hkeeps := perform_keeps h.linked hfresh hout
      constructor
      · exact hkeeps.linked
      · intro u user hlookup
        rcases lookup_of_eraseAll hlookup with ⟨hcleared, hcached⟩
        have hcurrent := h.cached u user hcached
        have hjoin := getJoin_of_getCurrentUser hcurrent
        have hmem := mem_cachedUsers hcached
        have hsame : out.db.getJoin u = s.db.getJoin u := by
          apply hkeeps.join u user hjoin hcleared
          cases r with
          | deleteMenu pk =>
              have hok : (MenuService.delete s.db pk).isOk = true := by
                rw [show MenuService.delete s.db pk = .ok out from hout]
                rfl
              exact hcond hok user hmem
          | updateDept pk obj =>
              have hok : (DeptService.update s.db pk obj).isOk = true := by
                rw [show DeptService.update s.db pk obj = .ok out from hout]
                rfl
              exact hcond hok user hmem
          | _ => trivial
        exact (getCurrentUser_congr hsame).trans hcurrent

theorem Current.getJwtUser (h : s.Current) (u : ℕ+) : (Admin.getJwtUser s u).1.Current := by
  unfold Admin.getJwtUser
  split
  · exact h
  · split
    · rename_i user hcurrent
      constructor
      · exact h.linked
      · intro u' user' hlookup
        cases lookup_of_insert hlookup with
        | inl hnew =>
            rw [PNat.coe_injective hnew.1, hnew.2]
            exact hcurrent
        | inr hold => exact h.cached u' user' hold
    · exact h

theorem Current.step (h : s.Current) {a : LoginAction} (hcond : s.Harmless a)
    (hs : s.step a = some s') : s'.Current := by
  cases a with
  | request r =>
      unfold LoginState.step at hs
      dsimp only at hs
      split at hs
      · rename_i hfresh
        cases hs
        exact h.request hfresh hcond
      · cases hs
  | getJwtUser u =>
      cases hs
      exact h.getJwtUser u
  | expire userId =>
      cases hs
      exact ⟨h.linked, fun u user hlookup => h.cached u user (lookup_of_erase hlookup).2⟩

end LoginState
open LoginState

def sampleAdminDb : AdminDb where
  users := [⟨1, 0, ⟨['a'], ['a'], none, none, 1, false, true, false, some 4⟩⟩]
  depts := [⟨4, 0, ⟨['d'], none, 1⟩⟩]
  roles := [⟨2, 0, ⟨['r'], 1, true⟩⟩]
  menus := [⟨3, 0, ⟨['m'], none, 1, some ['p'], 1⟩⟩]
  scopes := []
  rules := []
  userRole := [(1, 2)]
  roleMenu := [(2, 3)]
  roleScope := []
  scopeRule := []

end Admin
end RagService
