import RagService.Admin.Effects
import RagService.Foundation.UniqueKeys
import RagService.Properties.LoginUsers

/-!
# Unique names

User names, the e-mail addresses of users, and the names of roles, departments, data scopes
and data rules stay unique among the rows that are not deleted, whatever requests are made.
-/

namespace RagService
namespace Admin

open Transitions

def User.emailKey (user : User) : Option Text :=
  user.email.filter fun email => !email.isEmpty

structure AdminDb.Distinct (db : AdminDb) : Prop where
  usernames : db.users.Distinct fun user => some user.username
  emails : db.users.Distinct User.emailKey
  roles : db.roles.Distinct fun role => some role.name
  depts : db.depts.Distinct fun dept => some dept.name
  scopes : db.scopes.Distinct fun scope => some scope.name
  rules : db.rules.Distinct fun rule => some rule.name

/-!
# Free names

A name that may stay as it is, or is free.
-/

section

variable {α : Type} {t : Table α} {name : α -> Text} {text : Text}

theorem free_of_not_taken (h : (t.getBy fun v => name v = text).isSome = false) :
    Table.Free (fun v => some (name v)) t text := by
  apply Table.free_of_getBy _ h
  intro v hkey
  exact decide_eq_true (Option.some.inj hkey)

theorem free_of_renamed {old : Text}
    (h : (decide (old ≠ text) && (t.getBy fun v => name v = text).isSome) = false) :
    old = text ∨ Table.Free (fun v => some (name v)) t text := by
  cases Bool.and_eq_false_iff.mp h with
  | inl hsame => exact .inl (not_not.mp (of_decide_eq_false hsame))
  | inr hfree => exact .inr (free_of_not_taken hfree)

theorem distinct_create (h : t.Distinct fun v => some (name v)) {newId : Nat} {value : α}
    (hnew : newId ∉ t.ids) (hfree : (t.getBy fun v => name v = name value).isSome = false) :
    (t.create newId value).Distinct fun v => some (name v) := by
  apply h.create hnew
  intro k hk
  rw [← Option.some.inj hk]
  exact free_of_not_taken hfree

theorem distinct_update (h : t.Distinct fun v => some (name v)) {pk : Nat} {f : α -> α}
    {row : Row α} (hfound : t.get pk = some row)
    (hfree : (decide (name row.value ≠ name (f row.value)) &&
      (t.getBy fun v => name v = name (f row.value)).isSome) = false) :
    (t.update [pk] f).Distinct fun v => some (name v) := by
  apply h.update hfound
  intro k hk
  rw [← Option.some.inj hk]
  cases free_of_renamed hfree with
  | inl hsame => exact .inl (congrArg some hsame)
  | inr hfree => exact .inr hfree

end

/-!
# Addresses

A user sets an address that is free or the user's own.
-/

variable {db : AdminDb} {out : Committed}

theorem emailKey_eq_some {user : User} {email : Text} :
    user.emailKey = some email ↔ user.email = some email ∧ email.isEmpty = false := by
  simp [User.emailKey, Option.filter_eq_some_iff]

theorem free_of_not_bound {email : Text} (hne : email.isEmpty = false)
    (h : UserService.emailBound db (some email) = false) :
    Table.Free User.emailKey db.users email := by
  have hnone : (db.users.getBy fun u => u.email = some email).isSome = false := by
    simpa [UserService.emailBound, hne] using h
  apply Table.free_of_getBy _ hnone
  intro u hkey
  exact decide_eq_true (emailKey_eq_some.mp hkey).1

theorem emails_update (h : db.users.Distinct User.emailKey) {pk : Nat} {obj : UpdateUserParam}
    {user : Row User} (hfound : db.users.get pk = some user)
    (hemail : (decide (obj.email.join ≠ user.value.email) &&
      UserService.emailBound db obj.email.join) = false) :
    (db.users.update [pk] obj.apply).Distinct User.emailKey := by
  apply h.update hfound
  intro email hkey
  rcases emailKey_eq_some.mp hkey with ⟨hvalue, hne⟩
  have hgetD : obj.email.getD user.value.email = some email := hvalue
  cases hobj : obj.email with
  | none =>
      rw [hobj] at hgetD
      exact .inl (emailKey_eq_some.mpr ⟨hgetD, hne⟩)
  | some given =>
      have hjoin : obj.email.join = some email := by
        rw [hobj] at hgetD ⊢
        exact hgetD
      rw [hjoin] at hemail
      cases Bool.and_eq_false_iff.mp hemail with
      | inl hsame =>
          have heq := not_not.mp (of_decide_eq_false hsame)
          exact .inl (emailKey_eq_some.mpr ⟨heq.symm, hne⟩)
      | inr hfree => exact .inr (free_of_not_bound hne hfree)

/-- A user sets an address that is free or the user's own. -/
theorem emails_updateEmail (h : db.users.Distinct User.emailKey) {userId : Nat} {email : Text}
    (hfree : ((db.users.getBy fun u => u.email = some email).any fun user =>
      user.id ≠ userId) = false) :
    (db.users.update [userId] fun u => { u with email := some email }).Distinct
      User.emailKey := by
  cases hfound : db.users.get userId with
  | none =>
      rw [Table.update_of_get_none hfound]
      exact h
  | some user =>
      apply h.update hfound
      intro k hkey
      rcases emailKey_eq_some.mp hkey with ⟨hvalue, hne⟩
      cases hbound : db.users.getBy fun u => u.email = some email with
      | none =>
          rw [Option.some.inj hvalue] at hbound
          refine .inr (free_of_not_bound hne ?_)
          rw [UserService.emailBound, hbound]
          exact Bool.and_false _
      | some owner =>
          have howner := List.find?_some hbound
          simp only [Bool.and_eq_true, decide_eq_true_eq] at howner
          rw [hbound, Option.any_some] at hfree
          have hid : owner.id = userId := not_not.mp (of_decide_eq_false hfree)
          have hlive := Table.mem_live.mpr ⟨List.mem_of_find?_eq_some hbound, howner.1⟩
          have hsame := h.eq_of_id hlive (Table.mem_live_of_get hfound)
            (hid.trans (Table.get_mem hfound).2.2.symm)
          rw [← hsame]
          exact .inl (emailKey_eq_some.mpr ⟨howner.2.trans hvalue, hne⟩)

/-!
# Requests
-/

theorem usernames_kept (h : db.Distinct) {r : AdminRequest} (hfresh : r.FreshId db)
    (heffect : Effect db r out) : out.db.users.Distinct fun user => some user.username := by
  cases heffect with
  | createUser husername hemail => exact distinct_create h.usernames hfresh.2 husername
  | updateUser hfound husername hemail =>
      rename_i pk obj user
      rw [(Table.get_mem hfound).2.2]
      apply distinct_update h.usernames hfound
      show (decide (user.value.username ≠ obj.username) && _) = false
      rw [decide_eq_decide.mpr ne_comm]
      exact husername
  | updatePermission hfound hother =>
      rename_i requestUser pk type user
      exact h.usernames.update_of_key pk fun _ => by cases type <;> rfl
  | updateNickname | updateAvatar | updateEmail _ =>
      dsimp only
      exact h.usernames.update_of_key _ fun _ => rfl
  | deleteUser hfound => exact h.usernames.delete _
  | _ => exact h.usernames

theorem emails_kept (h : db.Distinct) {r : AdminRequest} (hfresh : r.FreshId db)
    (heffect : Effect db r out) : out.db.users.Distinct User.emailKey := by
  cases heffect with
  | createUser husername hemail =>
      apply h.emails.create hfresh.2
      intro email hkey
      rcases emailKey_eq_some.mp hkey with ⟨hvalue, hne⟩
      apply free_of_not_bound hne
      rw [← hvalue]
      exact hemail
  | updateUser hfound husername hemail =>
      rw [(Table.get_mem hfound).2.2]
      exact emails_update h.emails hfound hemail
  | updatePermission hfound hother =>
      rename_i requestUser pk type user
      exact h.emails.update_of_key pk fun _ => by cases type <;> rfl
  | updateNickname | updateAvatar =>
      dsimp only
      exact h.emails.update_of_key _ fun _ => rfl
  | updateEmail hfree => exact emails_updateEmail h.emails hfree
  | deleteUser hfound => exact h.emails.delete _
  | _ => exact h.emails

theorem roles_kept (h : db.Distinct) {r : AdminRequest} (hfresh : r.FreshId db)
    (heffect : Effect db r out) : out.db.roles.Distinct fun role => some role.name := by
  cases heffect with
  | createRole hname => exact distinct_create h.roles hfresh.2 hname
  | updateRole hfound hname => exact distinct_update h.roles hfound hname
  | deleteRoles => exact h.roles.delete _
  | _ => exact h.roles

theorem depts_kept (h : db.Distinct) {r : AdminRequest} (hfresh : r.FreshId db)
    (heffect : Effect db r out) : out.db.depts.Distinct fun dept => some dept.name := by
  cases heffect with
  | createDept hname => exact distinct_create h.depts hfresh.2 hname
  | updateDept hfound hname => exact distinct_update h.depts hfound hname
  | deleteDept hfound => exact h.depts.delete _
  | _ => exact h.depts

theorem scopes_kept (h : db.Distinct) {r : AdminRequest} (hfresh : r.FreshId db)
    (heffect : Effect db r out) : out.db.scopes.Distinct fun scope => some scope.name := by
  cases heffect with
  | createDataScope hname => exact distinct_create h.scopes hfresh.2 hname
  | updateDataScope hfound hname => exact distinct_update (f := fun _ => _) h.scopes hfound hname
  | deleteDataScopes => exact h.scopes.delete _
  | _ => exact h.scopes

theorem rules_kept (h : db.Distinct) {r : AdminRequest} (hfresh : r.FreshId db)
    (heffect : Effect db r out) : out.db.rules.Distinct fun rule => some rule.name := by
  cases heffect with
  | createDataRule hname => exact distinct_create h.rules hfresh.2 hname
  | updateDataRule hfound hname => exact distinct_update (f := fun _ => _) h.rules hfound hname
  | deleteDataRules => exact h.rules.delete _
  | _ => exact h.rules

theorem AdminDb.Distinct.kept (h : db.Distinct) {r : AdminRequest} (hfresh : r.FreshId db)
    (heffect : Effect db r out) : out.db.Distinct := by
  constructor
  · exact usernames_kept h hfresh heffect
  · exact emails_kept h hfresh heffect
  · exact roles_kept h hfresh heffect
  · exact depts_kept h hfresh heffect
  · exact scopes_kept h hfresh heffect
  · exact rules_kept h hfresh heffect

/--
After every sequence of requests, logins and expiring keys, user names, addresses and the names
of roles, departments, data scopes and data rules are unique, if they were at first.
-/
theorem names_stay_unique (db : AdminDb) (hdb : db.Distinct) (s : LoginState)
    (hrun : Reaches LoginState.step (fun _ _ => True) (LoginState.initial db) s) :
    s.db.Distinct := by
  apply hrun.invariant (fun s => s.db.Distinct) hdb
  intro s a s' h _ hs
  cases a with
  | request r =>
      unfold LoginState.step at hs
      dsimp only at hs
      split at hs
      · rename_i hfresh
        cases hs
        unfold LoginState.request
        split
        · rename_i out hout
          exact h.kept hfresh (perform_effect hout)
        · exact h
      · cases hs
  | getJwtUser userId =>
      cases hs
      unfold getJwtUser
      split
      · exact h
      · split
        · exact h
        · exact h
  | expire userId =>
      cases hs
      exact h

/-!
# Samples
-/

theorem distinct_one {α κ : Type} {key : α -> Option κ} (id : Nat) (value : α) :
    Table.Distinct key [⟨id, 0, value⟩] :=
  Table.Distinct.nil.create List.not_mem_nil fun _ _ _ hrow => absurd hrow List.not_mem_nil

theorem sampleAdminDb_distinct : sampleAdminDb.Distinct := by
  constructor
  · exact distinct_one 1 _
  · exact distinct_one 1 _
  · exact distinct_one 2 _
  · exact distinct_one 4 _
  · exact .nil
  · exact .nil

/-- A second role cannot be named as the first, before and after the first is renamed. -/
theorem names_stay_unique_roles : exists s,
    Reaches LoginState.step (fun _ _ => True) (LoginState.initial sampleAdminDb) s ∧
      s.db.Distinct ∧ s.db.roles.live.map (fun role => role.value.name) = [['q'], ['r']] := by
  obtain ⟨s, hrun, hnames⟩ := exists_reaches LoginState.step (fun _ _ => True)
    (LoginState.initial sampleAdminDb)
    [.request (.createRole 5 ⟨['r'], 1, true⟩), .request (.updateRole 2 ⟨['q'], 1, none⟩),
      .request (.createRole 6 ⟨['r'], 1, true⟩), .request (.updateRole 6 ⟨['q'], 1, none⟩)]
    (fun s => s.db.roles.live.map (fun role => role.value.name) = [['q'], ['r']])
    (by decide +kernel)
  exact ⟨s, hrun, names_stay_unique sampleAdminDb sampleAdminDb_distinct s hrun, hnames⟩

end Admin
end RagService
