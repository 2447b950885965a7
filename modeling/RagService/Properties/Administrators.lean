import RagService.Admin.Authorization
import RagService.Admin.Effects
import RagService.Foundation.UniqueKeys
import RagService.Properties.PermissionCodes

/-!
# Administrators

Requests pass the middleware and the dependencies of their routes before their handlers run.
An administrator is an enabled superuser who may use the administration.  Without one no user
is created, and no name, status, flag or department of one changes; with one there stays one,
as long as none is deleted.
-/

namespace RagService
namespace Admin

open Transitions

/-!
# The site

Requests of the administration pass the middleware, the dependencies of their route and the
handler; other requests only read, and keys of the cache may expire.
-/

structure Call where
  http : HttpRequest
  session : Text -> Except Text ℕ+
  request : AdminRequest

inductive SiteAction where
  | call (c : Call)
  /-- a request that only reads -/
  | visit (http : HttpRequest) (session : Text -> Except Text ℕ+)
  /-- a key expires -/
  | expire (userId : Nat)

namespace LoginState

def call (cfg : AuthorizationSettings) (s : LoginState) (c : Call) :
    LoginState × Except Rejection UserDetail :=
  match authenticate cfg c.session s c.http with
  | (s, .error e) => (s, .error e)
  | (s, .ok auth) =>
      match c.request.guard.verify cfg c.http auth with
      | .error e => (s, .error e)
      | .ok user => (s.request c.request, .ok user)

def siteStep (cfg : AuthorizationSettings) (s : LoginState) : SiteAction -> Option LoginState
  | .call c =>
      if c.http.method = c.request.method ∧ c.request.FreshId s.db then
        match s.call cfg c with
        | (s, .ok user) => if c.request.SentBy user then some s else none
        | (s, .error _) => some s
      else none
  | .visit http session => some (authenticate cfg session s http).1
  | .expire userId => some { s with cache := s.cache.erase userId }

end LoginState
open LoginState

/-- An enabled superuser who may use the administration. -/
structure User.IsAdministrator (user : User) : Prop where
  superuser : user.isSuperuser = true
  staff : user.isStaff = true
  enabled : user.status ≠ 0

def AdminDb.HasAdministrator (db : AdminDb) (id : Nat) : Prop :=
  exists row, row ∈ db.users.live ∧ row.id = id ∧ row.value.IsAdministrator

/-!
# The user of a request

The middleware changes no row, and the user that it finds is accurate: what the detail says of
the rights of the user is so in the database.
-/

structure UserDetail.Accurate (db : AdminDb) (id : Nat) (user : UserDetail) : Prop where
  id_eq : user.id = id
  row : exists row, db.users.get id = some row ∧ row.value.isSuperuser = user.isSuperuser ∧
    row.value.isStaff = user.isStaff ∧ row.value.status ≠ 0

def LoginState.Accurate (s : LoginState) : Prop :=
  forall {id user}, s.cache.lookup id = some user -> user.Accurate s.db id

section

variable {cfg : AuthorizationSettings} {session : Text -> Except Text ℕ+} {s s' : LoginState}
variable {http : HttpRequest} {user : UserDetail} {auth : Authenticated}

theorem accurate_of_getCurrentUser {db : AdminDb} {u : ℕ+} (h : getCurrentUser db u = .ok user) :
    user.Accurate db u := by
  have hjoin := getJoin_of_getCurrentUser h
  rcases Option.map_eq_some_iff.mp hjoin with ⟨row, hrow, rfl⟩
  constructor
  · exact (Table.get_mem hrow).2.2
  · have hstatus : row.value.status ≠ 0 := by
      intro hzero
      unfold getCurrentUser at h
      rw [hjoin] at h
      have hlocked : (db.userDetail row).status = 0 := hzero
      simp [hlocked, throw, throwThe, MonadExceptOf.throw] at h
    exact ⟨row, hrow, rfl, rfl, hstatus⟩

theorem getJwtUser_accurate (h : s.Accurate) (u : ℕ+) :
    (getJwtUser s u).1.db = s.db ∧ (getJwtUser s u).1.Accurate ∧
      forall {user}, (getJwtUser s u).2 = .ok user -> user.Accurate s.db u := by
  unfold getJwtUser
  split
  · rename_i cachedUser hcached
    refine ⟨rfl, h, ?_⟩
    intro user huser
    cases huser
    exact h hcached
  · split
    · rename_i current hcurrent
      have hcurrent := accurate_of_getCurrentUser hcurrent
      refine ⟨rfl, ?_, ?_⟩
      · intro id user hlookup
        cases lookup_of_insert hlookup with
        | inl hnew =>
            rw [hnew.1, hnew.2]
            exact hcurrent
        | inr hold => exact h hold
      · intro user huser
        cases huser
        exact hcurrent
    · refine ⟨rfl, h, ?_⟩
      intro user huser
      cases huser

theorem tokenError_user {msg : Text} (h : tokenError cfg msg = .ok auth) : auth.user = none := by
  unfold tokenError at h
  split at h
  · cases h
  · cases h
    rfl

/-- The middleware changes no row, and the user that it finds is accurate. -/
theorem authenticate_accurate (h : s.Accurate) :
    (authenticate cfg session s http).1.db = s.db ∧
      (authenticate cfg session s http).1.Accurate ∧
      forall {auth user}, (authenticate cfg session s http).2 = .ok auth -> auth.user = some user ->
        exists u : ℕ+, user.Accurate s.db u := by
  unfold authenticate
  split
  · refine ⟨rfl, h, ?_⟩
    intro auth user hauth huser
    cases hauth
    cases huser
  · split
    · refine ⟨rfl, h, ?_⟩
      intro auth user hauth huser
      rw [tokenError_user hauth] at huser
      cases huser
    · rename_i u hsession
      have hjwt := getJwtUser_accurate h u
      split
      · rename_i s₁ found hfound
        rw [hfound] at hjwt
        refine ⟨hjwt.1, hjwt.2.1, ?_⟩
        intro auth user hauth huser
        cases hauth
        cases huser
        exact ⟨u, hjwt.2.2 rfl⟩
      · rename_i s₁ msg hfound
        rw [hfound] at hjwt
        refine ⟨hjwt.1, hjwt.2.1, ?_⟩
        intro auth user hauth huser
        rw [tokenError_user hauth] at huser
        cases huser
      · rename_i s₁ e hne hfound
        rw [hfound] at hjwt
        refine ⟨hjwt.1, hjwt.2.1, ?_⟩
        intro auth user hauth huser
        cases hauth

theorem jwtAuthenticationVerify_ok (h : jwtAuthenticationVerify cfg http auth = .ok user) :
    auth.user = some user := by
  unfold jwtAuthenticationVerify at h
  split at h
  · cases h
  · split at h
    · rename_i found hfound
      cases h
      exact hfound
    · cases h

theorem superuserVerify_ok (h : superuserVerify cfg http auth = .ok user) :
    auth.user = some user ∧ user.isSuperuser = true ∧ user.isStaff = true := by
  unfold superuserVerify at h
  cases hjwt : jwtAuthenticationVerify cfg http auth with
  | error e =>
      rw [hjwt] at h
      cases h
  | ok sender =>
      rw [hjwt] at h
      have h : (if (!sender.isSuperuser || !sender.isStaff) = true then
        throw (Rejection.authorization "Permission Denied".toList) else pure sender) =
          Except.ok user := h
      split at h
      · cases h
      · rename_i hboth
        cases h
        have hboth : user.isSuperuser = true ∧ user.isStaff = true := by simpa using hboth
        exact ⟨jwtAuthenticationVerify_ok hjwt, hboth⟩

theorem rejected_bind {α β : Type} {x : Except Rejection α} {f : α -> Except Rejection β} {b : β}
    (h : (x >>= f) = .ok b) : exists a, x = .ok a ∧ f a = .ok b := by
  cases x with
  | error e => cases h
  | ok a => exact ⟨a, rfl, h⟩

theorem rbacVerify_ok {permission : Option Text}
    (h : rbacVerify cfg permission http auth = .ok user) : auth.user = some user := by
  unfold rbacVerify at h
  cases hjwt : jwtAuthenticationVerify cfg http auth with
  | error e =>
      rw [hjwt] at h
      cases h
  | ok sender =>
      rw [hjwt] at h
      have hsender := jwtAuthenticationVerify_ok hjwt
      have h : (if pathExcluded cfg http.path = true then pure sender
        else if sender.isSuperuser = true then pure sender else _) = Except.ok user := h
      split at h
      · cases h
        exact hsender
      · split at h
        · cases h
          exact hsender
        · rcases rejected_bind h with ⟨u₁, -, h⟩
          rcases rejected_bind h with ⟨u₂, -, h⟩
          rcases rejected_bind h with ⟨u₃, -, h⟩
          rcases rejected_bind h with ⟨u₄, -, h⟩
          cases h
          exact hsender

theorem verify_ok {guard : Guard} (h : guard.verify cfg http auth = .ok user) :
    auth.user = some user := by
  cases guard with
  | jwt => exact jwtAuthenticationVerify_ok h
  | superUser => exact (superuserVerify_ok h).1
  | rbac value => exact rbacVerify_ok h

end

/-!
# Requests

The rights of users whose keys are not cleared stay as they are.  A request of somebody who is
no administrator may delete users and change the profile of the own user; one of an
administrator, other than a deletion, does not take the rights of that user.
-/

section

variable {db : AdminDb} {out : Committed} {user : UserDetail} {id : Nat}

theorem effect_accurate {r : AdminRequest} (hfresh : r.FreshId db) (heffect : Effect db r out)
    (h : user.Accurate db id) (hcleared : id ∉ out.cleared) : user.Accurate out.db id := by
  rcases h with ⟨hid, row, hrow, hrights⟩
  have hkept : out.db.users.get id = db.users.get id := by
    cases heffect with
    | createUser husername hemail =>
        apply Table.get_create
        intro heq
        exact hfresh.2 (heq ▸ Table.mem_ids_of_get hrow)
    | updateUser hfound husername hemail =>
        exact Table.get_modify (fun _ => rfl) fun row _ hmem => absurd hmem hcleared
    | updatePermission hfound hother =>
        rw [(Table.get_mem hfound).2.2] at hcleared
        exact Table.get_modify (fun _ => rfl) fun row _ hmem => absurd hmem hcleared
    | updateNickname | updateAvatar | updateEmail _ | deleteUser _ =>
        exact Table.get_modify (fun _ => rfl) fun row _ hmem => absurd hmem hcleared
    | _ => rfl
  exact ⟨hid, row, hkept.trans hrow, hrights⟩

/-- The user has the same name, status, flags and department. -/
structure User.SameAccount (user old : User) : Prop where
  username : user.username = old.username
  status : user.status = old.status
  isSuperuser : user.isSuperuser = old.isSuperuser
  isStaff : user.isStaff = old.isStaff
  isMultiLogin : user.isMultiLogin = old.isMultiLogin
  deptId : user.deptId = old.deptId

theorem User.SameAccount.refl (user : User) : user.SameAccount user :=
  ⟨rfl, rfl, rfl, rfl, rfl, rfl⟩

theorem User.SameAccount.trans {user mid old : User} (h : user.SameAccount mid)
    (hmid : mid.SameAccount old) : user.SameAccount old where
  username := h.username.trans hmid.username
  status := h.status.trans hmid.status
  isSuperuser := h.isSuperuser.trans hmid.isSuperuser
  isStaff := h.isStaff.trans hmid.isStaff
  isMultiLogin := h.isMultiLogin.trans hmid.isMultiLogin
  deptId := h.deptId.trans hmid.deptId

theorem User.SameAccount.administrator {user old : User} (h : user.SameAccount old) :
    user.IsAdministrator ↔ old.IsAdministrator := by
  constructor
  · intro hrights
    exact ⟨h.isSuperuser ▸ hrights.superuser, h.isStaff ▸ hrights.staff,
      h.status ▸ hrights.enabled⟩
  · intro hrights
    exact ⟨h.isSuperuser.trans hrights.superuser, h.isStaff.trans hrights.staff,
      fun hzero => hrights.enabled (h.status.symm.trans hzero)⟩

theorem UserPermissionType.apply_administrator {requestUser : RequestUser} {row : Row User}
    {pk : Nat} {u : User} (h : u.IsAdministrator) :
    (UserPermissionType.multiLogin.apply requestUser row pk u).IsAdministrator :=
  ⟨h.superuser, h.staff, h.enabled⟩

theorem UpdateUserParam.apply_administrator {obj : UpdateUserParam} {u : User}
    (h : u.IsAdministrator) : (obj.apply u).IsAdministrator :=
  ⟨h.superuser, h.staff, h.enabled⟩

theorem hasAdministrator_update {pk : Nat} {f : User -> User} (h : db.HasAdministrator id)
    (hf : id = pk -> forall {u}, u.IsAdministrator -> (f u).IsAdministrator) :
    AdminDb.HasAdministrator { db with users := db.users.update [pk] f } id := by
  rcases h with ⟨row, hlive, hid, hrights⟩
  exists if row.id ∈ [pk] then { row with value := f row.value } else row
  constructor
  · rw [Table.live_update]
    exact List.mem_map.mpr ⟨row, hlive, rfl⟩
  · by_cases hmem : row.id ∈ [pk]
    · rw [if_pos hmem]
      exact ⟨hid, hf (hid.symm.trans (List.mem_singleton.mp hmem)) hrights⟩
    · rw [if_neg hmem]
      exact ⟨hid, hrights⟩

inductive Allowed (db : AdminDb) (r : AdminRequest) : Table User -> Prop
  | same : Allowed db r db.users
  | deleted {pk : Nat} (request : r = .deleteUser pk) : Allowed db r (db.users.delete [pk])
  | own {userId : Nat} {f : User -> User} (kept : forall u, (f u).SameAccount u) :
      Allowed db r (db.users.update [userId] f)

theorem allowed_of_guard {r : AdminRequest} (hguard : r.guard ≠ .superUser)
    (heffect : Effect db r out) : Allowed db r out.db.users := by
  cases heffect with
  | deleteUser hfound =>
      rw [(Table.get_mem hfound).2.2]
      exact .deleted rfl
  | createUser | updateUser | updatePermission | resetPassword => exact absurd rfl hguard
  | updateNickname | updateAvatar | updateEmail _ =>
      dsimp only
      exact .own fun _ => ⟨rfl, rfl, rfl, rfl, rfl, rfl⟩
  | _ => exact .same

/-- An administrator remains, unless one is deleted. -/
theorem Allowed.administrator {r : AdminRequest} {t : Table User} (h : Allowed db r t)
    (hspared : forall pk, r = .deleteUser pk -> ¬ db.HasAdministrator pk)
    (hadmin : db.HasAdministrator id) : exists row, row ∈ t.live ∧ row.value.IsAdministrator := by
  rcases hadmin with ⟨row, hlive, hid, hrights⟩
  cases h with
  | same => exact ⟨row, hlive, hrights⟩
  | deleted hrequest =>
      refine ⟨row, Table.live_delete_of_not_mem hlive fun hmem => ?_, hrights⟩
      exact hspared _ hrequest ⟨row, hlive, List.mem_singleton.mp hmem, hrights⟩
  | @own userId f hkept =>
      rw [Table.live_update]
      refine ⟨_, List.mem_map.mpr ⟨row, hlive, rfl⟩, ?_⟩
      split
      · exact (hkept row.value).administrator.mpr hrights
      · exact hrights

theorem administrator_kept {r : AdminRequest} (heffect : Effect db r out)
    (hsent : r.SentBy user) (hid : user.id = id) (hdelete : forall pk, r ≠ .deleteUser pk)
    (h : db.HasAdministrator id) : out.db.HasAdministrator id := by
  cases heffect with
  | createUser husername hemail =>
      rcases h with ⟨row, hlive, hrow⟩
      exists row
      constructor
      · rw [Table.live_create]
        exact List.mem_append_left _ hlive
      · exact hrow
  | updateUser hfound husername hemail =>
      exact hasAdministrator_update h fun _ _ hu => UpdateUserParam.apply_administrator hu
  | updatePermission hfound hother =>
      rename_i requestUser pk type row
      apply hasAdministrator_update h
      intro hpk u hu
      cases type with
      | multiLogin => exact UserPermissionType.apply_administrator hu
      | superuser | staff | status =>
          have hself : requestUser.id = user.id := hsent
          have hne : pk ≠ requestUser.id := hother (fun heq => by cases heq)
          exact absurd (hpk.symm.trans (hid.symm.trans hself.symm)) hne
  | updateNickname | updateAvatar | updateEmail _ =>
      dsimp only
      exact hasAdministrator_update h fun _ _ hu => ⟨hu.superuser, hu.staff, hu.enabled⟩
  | deleteUser hfound => exact absurd rfl (hdelete _)
  | _ => exact h

end

/-!
# Steps

A request changes nothing, or it was let through; and the user behind a request that only
administrators may make is one.
-/

section

variable {cfg : AuthorizationSettings} {s s' : LoginState} {user : UserDetail}

structure Admitted (s s' : LoginState) (r : AdminRequest) (user : UserDetail) (id : Nat) :
    Prop where
  accurate : user.Accurate s.db id
  sent : r.SentBy user
  superuser : r.guard = .superUser -> user.isSuperuser = true ∧ user.isStaff = true
  effect : exists out, Effect s.db r out ∧ s'.db = out.db

theorem request_accurate (h : s.Accurate) {r : AdminRequest} (hfresh : r.FreshId s.db) :
    (s.request r).Accurate := by
  unfold LoginState.request
  split
  · rename_i out hout
    intro id user hlookup
    rcases lookup_of_eraseAll hlookup with ⟨hcleared, hcached⟩
    exact effect_accurate hfresh (perform_effect hout) (h hcached) hcleared
  · exact h

/-- A request changes nothing, or it was let through. -/
theorem call_cases (h : s.Accurate) {c : Call} (hfresh : c.request.FreshId s.db) :
    (s.call cfg c).1.Accurate ∧
      ((s.call cfg c).1.db = s.db ∨ forall user, (s.call cfg c).2 = .ok user ->
        c.request.SentBy user -> exists id, Admitted s (s.call cfg c).1 c.request user id) ∧
      forall e, (s.call cfg c).2 = .error e -> (s.call cfg c).1.db = s.db := by
  have hauth := @authenticate_accurate cfg c.session s c.http h
  unfold LoginState.call
  split
  · rename_i s₁ e hfound
    rw [hfound] at hauth
    exact ⟨hauth.2.1, .inl hauth.1, fun _ _ => hauth.1⟩
  · rename_i s₁ auth hfound
    rw [hfound] at hauth
    rcases hauth with ⟨hdb, haccurate, husers⟩
    dsimp only at hdb haccurate husers
    split
    · exact ⟨haccurate, .inl hdb, fun _ _ => hdb⟩
    · rename_i user hverify
      have hfresh₁ : c.request.FreshId s₁.db := hdb.symm ▸ hfresh
      refine ⟨request_accurate haccurate hfresh₁, ?_, ?_⟩
      · cases hout : c.request.perform s₁.db with
        | error e =>
            refine .inl ?_
            unfold LoginState.request
            rw [hout]
            exact hdb
        | ok out =>
            refine .inr ?_
            intro user' huser' hsent
            cases huser'
            rcases husers rfl (verify_ok hverify) with ⟨u, hrights⟩
            exists u
            constructor
            · exact hrights
            · exact hsent
            · intro hguard
              rw [hguard] at hverify
              exact (superuserVerify_ok hverify).2
            · have heffect := perform_effect hout
              rw [hdb] at heffect
              refine ⟨out, heffect, ?_⟩
              unfold LoginState.request
              rw [hout]
      · intro e he
        cases he

theorem siteStep_cases (h : s.Accurate) {a : SiteAction} (hs : siteStep cfg s a = some s') :
    s'.Accurate ∧ (s'.db = s.db ∨ exists c user id, a = .call c ∧
      Admitted s s' c.request user id) := by
  cases a with
  | call c =>
      unfold siteStep at hs
      dsimp only at hs
      split at hs
      · rename_i hroute
        have hcases := @call_cases cfg s h c hroute.2
        split at hs
        · rename_i s₁ user hcall
          rw [hcall] at hcases
          split at hs
          · rename_i hsent
            cases hs
            refine ⟨hcases.1, ?_⟩
            cases hcases.2.1 with
            | inl hsame => exact .inl hsame
            | inr hadmitted =>
                rcases hadmitted user rfl hsent with ⟨id, hid⟩
                exact .inr ⟨c, user, id, rfl, hid⟩
          · cases hs
        · rename_i s₁ e hcall
          rw [hcall] at hcases
          cases hs
          exact ⟨hcases.1, .inl (hcases.2.2 e rfl)⟩
      · cases hs
  | visit http session =>
      cases hs
      have hauth := @authenticate_accurate cfg session s http h
      exact ⟨hauth.2.1, .inl hauth.1⟩
  | expire userId =>
      cases hs
      refine ⟨?_, .inl rfl⟩
      intro id user hlookup
      exact h (lookup_of_erase hlookup).2

theorem Admitted.administrator {r : AdminRequest} {id : Nat} (h : Admitted s s' r user id)
    (hguard : r.guard = .superUser) : s.db.HasAdministrator id := by
  rcases h.accurate.row with ⟨row, hrow, hsuper, hstaff, hstatus⟩
  have hboth := h.superuser hguard
  exact ⟨row, Table.mem_live_of_get hrow, (Table.get_mem hrow).2.2,
    hsuper.trans hboth.1, hstaff.trans hboth.2, hstatus⟩

end

/-!
# Runs

Without an administrator every user was there at first, with the same account.  With one there
stays one, as long as no administrator is deleted.
-/

theorem initial_accurate (db : AdminDb) : (initial db).Accurate := by
  intro id user hlookup
  cases hlookup

def Frozen (first now : Table User) : Prop :=
  forall row, row ∈ now.live ->
    exists old, old ∈ first.live ∧ old.id = row.id ∧ row.value.SameAccount old.value

theorem Frozen.allowed {first : Table User} {db : AdminDb} {r : AdminRequest} {t : Table User}
    (h : Frozen first db.users) (hallowed : Allowed db r t) : Frozen first t := by
  intro row hrow
  cases hallowed with
  | same => exact h row hrow
  | deleted _ => exact h row (Table.mem_live_delete hrow)
  | own hkept =>
      rcases Table.mem_live_update hrow with ⟨hold, -⟩ | ⟨mid, hmid, -, rfl⟩
      · exact h row hold
      · rcases h mid hmid with ⟨old, hold, hid, hsame⟩
        exact ⟨old, hold, hid, (hkept mid.value).trans hsame⟩

/--
While no enabled superuser may use the administration, no run of requests adds a user or changes
the name, the status, the flags or the department of one.
-/
theorem users_frozen_without_administrator (cfg : AuthorizationSettings) (db : AdminDb)
    (hnone : forall id, ¬ db.HasAdministrator id) (s : LoginState)
    (hrun : Reaches (siteStep cfg) (fun _ _ => True) (initial db) s) :
    forall row, row ∈ s.db.users.live ->
      exists first, first ∈ db.users.live ∧ first.id = row.id ∧
        row.value.SameAccount first.value := by
  have hkept : s.Accurate ∧ Frozen db.users s.db.users := by
    apply hrun.invariant fun s => s.Accurate ∧ Frozen db.users s.db.users
    · exact ⟨initial_accurate db, fun row hrow => ⟨row, hrow, rfl, .refl _⟩⟩
    · intro s a s' h _ hs
      rcases siteStep_cases h.1 hs with ⟨haccurate, hsame | ⟨c, user, id, -, hadmitted⟩⟩
      · exact ⟨haccurate, hsame ▸ h.2⟩
      · refine ⟨haccurate, ?_⟩
        by_cases hguard : c.request.guard = .superUser
        · rcases hadmitted.administrator hguard with ⟨row, hlive, -, hrights⟩
          rcases h.2 row hlive with ⟨first, hfirst, -, hsame⟩
          exact absurd ⟨first, hfirst, rfl, hsame.administrator.mp hrights⟩ (hnone first.id)
        · rcases hadmitted.effect with ⟨out, heffect, hdb⟩
          rw [hdb]
          exact h.2.allowed (allowed_of_guard hguard heffect)
  exact hkept.2

instance (user : User) : Decidable user.IsAdministrator :=
  decidable_of_iff (user.isSuperuser = true ∧ user.isStaff = true ∧ user.status ≠ 0)
    ⟨fun h => ⟨h.1, h.2.1, h.2.2⟩, fun h => ⟨h.superuser, h.staff, h.enabled⟩⟩

instance (db : AdminDb) (id : Nat) : Decidable (db.HasAdministrator id) := by
  unfold AdminDb.HasAdministrator
  infer_instance

def SparesAdministrators (s : LoginState) : SiteAction -> Prop
  | .call ⟨_, _, .deleteUser pk⟩ => ¬ s.db.HasAdministrator pk
  | _ => True

/--
In every run of requests in which no administrator is deleted there is always one, if there was
one at first.
-/
theorem administrator_remains (cfg : AuthorizationSettings) (db : AdminDb)
    (hadmin : exists id, db.HasAdministrator id) (s : LoginState)
    (hrun : Reaches (siteStep cfg) SparesAdministrators (initial db) s) :
    exists id, s.db.HasAdministrator id := by
  have hkept : s.Accurate ∧ exists id, s.db.HasAdministrator id := by
    apply hrun.invariant fun s => s.Accurate ∧ exists id, s.db.HasAdministrator id
    · exact ⟨initial_accurate db, hadmin⟩
    · intro s a s' h hspares hs
      rcases siteStep_cases h.1 hs with ⟨haccurate, hsame | ⟨c, user, id, rfl, hadmitted⟩⟩
      · exact ⟨haccurate, hsame ▸ h.2⟩
      · refine ⟨haccurate, ?_⟩
        rcases hadmitted.effect with ⟨out, heffect, hdb⟩
        rw [hdb]
        by_cases hguard : c.request.guard = .superUser
        · -- the administrator who made the request is one afterwards
          have hdelete : forall pk, c.request ≠ .deleteUser pk := by
            intro pk heq
            rw [heq] at hguard
            cases hguard
          exact ⟨id, administrator_kept heffect hadmitted.sent hadmitted.accurate.id_eq hdelete
            (hadmitted.administrator hguard)⟩
        · have hspared : forall pk, c.request = .deleteUser pk -> ¬ s.db.HasAdministrator pk := by
            intro pk hrequest
            rcases c with ⟨http, session, request⟩
            cases hrequest
            exact hspares
          rcases h.2 with ⟨id', hid'⟩
          rcases (allowed_of_guard hguard heffect).administrator hspared hid' with
            ⟨row, hlive, hrights⟩
          exact ⟨row.id, row, hlive, rfl, hrights⟩
  exact hkept.2

/-!
# Samples

User 1 may delete users by a menu of role 2, and so may nobody else.
-/

instance (s : LoginState) (a : SiteAction) : Decidable (SparesAdministrators s a) := by
  unfold SparesAdministrators
  split <;> infer_instance

def callBy (userId : ℕ+) (r : AdminRequest) : Call where
  http := ⟨"/api/v1/sys/users".toList, r.method, some "Bearer t".toList⟩
  session := fun _ => .ok userId
  request := r

def clerkDb : AdminDb where
  users := [⟨1, 0, ⟨['a'], ['a'], none, none, 1, false, true, false, none⟩⟩,
    ⟨2, 0, ⟨['b'], ['b'], none, none, 1, true, false, false, none⟩⟩]
  depts := [⟨4, 0, ⟨['d'], none, 1⟩⟩]
  roles := [⟨2, 0, ⟨['r'], 1, true⟩⟩]
  menus := [⟨3, 0, ⟨['m'], none, 1, some "sys:user:del".toList, 1⟩⟩]
  scopes := []
  rules := []
  userRole := [(1, 2)]
  roleMenu := [(2, 3)]
  roleScope := []
  scopeRule := []

/--
A superuser who may not use the administration cannot add a user; the clerk takes another
nickname and deletes the superuser.
-/
theorem users_frozen_without_administrator_clerk : exists s,
    Reaches (siteStep (defaultAuthorization sampleSecurity)) (fun _ _ => True) (initial clerkDb) s ∧
      (forall row, row ∈ s.db.users.live -> exists first, first ∈ clerkDb.users.live ∧
        first.id = row.id ∧ row.value.SameAccount first.value) ∧
      s.db.users.live.map (fun row => row.value.nickname) = [['n']] := by
  obtain ⟨s, hrun, hnames⟩ := exists_reaches (siteStep (defaultAuthorization sampleSecurity))
    (fun _ _ => True) (initial clerkDb)
    [.call (callBy 2 (.createUser 7 ⟨['c'], ['x'], none, none, 4, []⟩)),
      .call (callBy 1 (.updateUser 2 ⟨['c'], ['c'], none, none, none, []⟩)),
      .call (callBy 1 (.updateNickname 1 ['n'])),
      .call (callBy 1 (.deleteUser 2))]
    (fun s => s.db.users.live.map (fun row => row.value.nickname) = [['n']]) (by decide +kernel)
  have hnone : forall id, ¬ clerkDb.HasAdministrator id := by
    intro id hadmin
    rcases hadmin with ⟨row, hlive, -, hrights⟩
    have hall : forall row, row ∈ clerkDb.users.live -> ¬ row.value.IsAdministrator := by decide
    exact hall row hlive hrights
  exact ⟨s, hrun, users_frozen_without_administrator (defaultAuthorization sampleSecurity) clerkDb
    hnone s hrun, hnames⟩

def administeredDb : AdminDb :=
  { clerkDb with
    users := [⟨1, 0, ⟨['a'], ['a'], none, none, 1, true, true, false, none⟩⟩,
      ⟨2, 0, ⟨['b'], ['b'], none, none, 1, false, true, false, none⟩⟩] }

/-- User 1 promotes user 2, who then takes the rights of user 1. -/
theorem administrator_remains_promoted : exists s,
    Reaches (siteStep (defaultAuthorization sampleSecurity)) SparesAdministrators
        (initial administeredDb) s ∧
      (exists id, s.db.HasAdministrator id) ∧ ¬ s.db.HasAdministrator 1 := by
  obtain ⟨s, hrun, hlost⟩ := exists_reaches (siteStep (defaultAuthorization sampleSecurity))
    SparesAdministrators (initial administeredDb)
    [.call (callBy 1 (.updatePermission ⟨1, false⟩ 1 .superuser)),
      .call (callBy 1 (.updatePermission ⟨1, false⟩ 2 .superuser)),
      .call (callBy 2 (.updatePermission ⟨2, false⟩ 1 .status))]
    (fun s => ¬ s.db.HasAdministrator 1) (by decide +kernel)
  exact ⟨s, hrun, administrator_remains (defaultAuthorization sampleSecurity) administeredDb
    ⟨1, by decide⟩ s hrun, hlost⟩

end Admin
end RagService
