import RagService.Admin.Effects
import RagService.Foundation.Histories
import RagService.Foundation.Maps
import RagService.Foundation.UniqueKeys
import RagService.Plugin.OAuth2

/-!
# Social accounts

Whom a social account lets in: how a binding came about in a run, and that an account that is
bound stays with its user until the user unbinds it or is deleted.
-/

namespace RagService
namespace OAuth2

open Admin Transitions

/-!
# Bindings

A row is added where neither the user nor the account is bound.
-/

section

variable {t t' : Table UserSocial} {userId newId : Nat} {sid : Text} {source : UserSocialType}
variable {social : UserSocial}

def Bound (t : Table UserSocial) (social : UserSocial) : Prop :=
  exists row, row ∈ t.live ∧ row.value = social

theorem not_bound_of_find {p : UserSocial -> Bool} (h : t.getBy p = none) (hb : Bound t social) :
    p social = false := by
  rcases hb with ⟨row, hrow, rfl⟩
  rcases Table.mem_live.mp hrow with ⟨hmem, hdeleted⟩
  have hnot := List.find?_eq_none.mp h row hmem
  simpa [hdeleted] using hnot

theorem bound_create (newId : Nat) (new : UserSocial) :
    Bound (t.create newId new) social ↔ Bound t social ∨ social = new := by
  unfold Bound
  rw [Table.live_create]
  simp only [List.mem_append, List.mem_singleton]
  constructor
  · intro h
    rcases h with ⟨row, hold | rfl, rfl⟩
    · exact .inl ⟨row, hold, rfl⟩
    · exact .inr rfl
  · intro h
    rcases h with ⟨row, hold, rfl⟩ | rfl
    · exact ⟨row, .inl hold, rfl⟩
    · exact ⟨_, .inr rfl, rfl⟩

theorem bound_deleteWhere {p : UserSocial -> Bool} (hpos : forall id, id ∈ t.ids -> 0 < id) :
    Bound (t.deleteWhere p) social ↔ Bound t social ∧ p social = false := by
  constructor
  · intro h
    rcases h with ⟨row, hrow, rfl⟩
    rcases Table.mem_live_deleteWhere hpos hrow with ⟨hold, hp⟩
    exact ⟨⟨row, hold, rfl⟩, hp⟩
  · intro h
    rcases h with ⟨⟨row, hrow, rfl⟩, hp⟩
    rcases Table.mem_live.mp hrow with ⟨hmem, hdeleted⟩
    refine ⟨row, Table.mem_live.mpr ⟨?_, hdeleted⟩, rfl⟩
    apply List.mem_map.mpr
    exists row
    constructor
    · exact hmem
    · exact if_neg fun hhit => by rw [hp] at hhit; cases hhit.2

structure Unbound (t : Table UserSocial) (social : UserSocial) : Prop where
  user : UserSocialDao.checkBinding t social.userId social.source = none
  account : UserSocialDao.getBySid t social.sid social.source = none

theorem create_eq_ok (h : UserSocialDao.create t newId social = .ok t') :
    Unbound t social ∧ t' = t.create newId social := by
  unfold UserSocialDao.create at h
  split at h
  · cases h
  · rename_i hfree
    simp only [Bool.or_eq_true, not_or, Bool.not_eq_true, Option.isSome_eq_false_iff,
      Option.isNone_iff_eq_none] at hfree
    cases h
    exact ⟨⟨hfree.1, hfree.2⟩, rfl⟩

end

/-!
# Callbacks

A callback uses up the state, and changes the database only if it is a known one.
-/

variable {env : OAuthEnv} {s s' : OAuthState} {a : OAuthAction} {social : UserSocial}
variable {source : UserSocialType} {profile : SocialProfile} {draws : Draws} {userId : Nat}

inductive Owner (db : AdminDb) (profile : SocialProfile) (draws : Draws) : AdminDb -> Nat -> Prop
  /-- the user who has the address of the profile -/
  | address {email : Text} {user : Row User} (given : profile.email = some email)
      (found : db.users.getBy (fun u => u.email = some email) = some user) :
      Owner db profile draws db user.id
  /-- a user who is created -/
  | created {username nickname : Text} {email avatar : Option Text} {role : Nat} :
      Owner db profile draws
        { db with
          users := db.users.create draws.userId (newUser username nickname email avatar)
          userRole := db.userRole ++ [(draws.userId, role)] }
        draws.userId

theorem addByOauth2_eq_ok {db admin : AdminDb} {newId : Nat} {username : Text}
    {nickname email avatar : Option Text}
    (h : addByOauth2 db newId username nickname email avatar = .ok admin) :
    exists name role, admin = { db with
      users := db.users.create newId (newUser username name email avatar)
      userRole := db.userRole ++ [(newId, role)] } := by
  unfold addByOauth2 at h
  split at h
  · cases h
  · rename_i name
    split at h
    · cases h
    · split at h
      · cases h
      · rename_i role _
        cases h
        exact ⟨name, role.id, rfl⟩

theorem ok_bind {α β : Type} {x : Except OAuthError α} {f : α -> Except OAuthError β} {b : β}
    (h : (x >>= f) = .ok b) : exists a, x = .ok a ∧ f a = .ok b := by
  cases x with
  | error e => cases h
  | ok a => exact ⟨a, rfl, h⟩

theorem owner_of_userFor {db admin : AdminDb} {name : Text}
    (h : userFor env db profile draws = .ok (admin, userId, name)) :
    Owner db profile draws admin userId := by
  unfold userFor at h
  split at h
  · rename_i user huser
    cases h
    unfold userOfEmail at huser
    split at huser
    · cases huser
    · rename_i email hemail
      exact .address (Option.filter_eq_some_iff.mp hemail).1 huser
  · split at h
    · cases h
    · rename_i username _
      rcases ok_bind h with ⟨email, -, h⟩
      rcases ok_bind h with ⟨avatar, -, h⟩
      rcases ok_bind h with ⟨added, hadd, h⟩
      cases h
      rcases addByOauth2_eq_ok hadd with ⟨nickname, role, rfl⟩
      exact .created

inductive Used (db : OAuthDb) (source : UserSocialType) (profile : SocialProfile)
    (draws : Draws) : StateInfo -> OAuthDb -> Prop
  | binding {userId : Nat} (free : Unbound db.socials ⟨profile.sid, source, userId⟩) :
      Used db source profile draws (.binding userId)
        { db with socials := db.socials.create draws.socialId ⟨profile.sid, source, userId⟩ }
  | known {user : Row User} :
      Used db source profile draws .login
        { db with
          admin := setAvatar db.admin user profile.avatar
          loginLogs := db.loginLogs ++ [user.value.username] }
  | joined {admin : AdminDb} {userId : Nat} {name : Text}
      (owner : Owner db.admin profile draws admin userId)
      (free : Unbound db.socials ⟨profile.sid, source, userId⟩) :
      Used db source profile draws .login
        ⟨admin, db.socials.create draws.socialId ⟨profile.sid, source, userId⟩,
          db.loginLogs ++ [name]⟩

theorem used_of_binding {db db' : OAuthDb}
    (h : bindingWithOauth2 db userId profile.sid source draws.socialId = .ok db') :
    Used db source profile draws (.binding userId) db' := by
  unfold bindingWithOauth2 at h
  split at h
  · cases h
  · split at h
    · cases h
    · rcases ok_bind h with ⟨socials, hcreate, h⟩
      cases h
      rcases create_eq_ok hcreate with ⟨hfree, rfl⟩
      exact .binding hfree

theorem used_of_login {db db' : OAuthDb} (h : login env db source profile draws = .ok (db', userId)) :
    Used db source profile draws .login db' := by
  unfold login at h
  split at h
  · split at h
    · cases h
    · cases h
      exact .known
  · rcases ok_bind h with ⟨⟨admin, id, name⟩, huser, h⟩
    rcases ok_bind h with ⟨socials, hcreate, h⟩
    cases h
    rcases create_eq_ok hcreate with ⟨hfree, rfl⟩
    exact .joined (owner_of_userFor huser) hfree

theorem used_of_useState {db db' : OAuthDb} {info : StateInfo} {user : Option Nat}
    (h : useState env db source profile draws info = .ok (db', user)) :
    Used db source profile draws info db' := by
  unfold useState at h
  cases info with
  | binding userId =>
      dsimp only at h
      split at h
      · cases h
      · rcases ok_bind h with ⟨bound, hbinding, h⟩
        cases h
        exact used_of_binding hbinding
  | login =>
      rcases ok_bind h with ⟨⟨after, id⟩, hlogin, h⟩
      cases h
      exact used_of_login hlogin

inductive Called (s : OAuthState) (source : UserSocialType) (profile : SocialProfile)
    (draws : Draws) : Option Text -> OAuthState -> Prop
  | refused {given : Option Text}
      (hnone : forall state, given = some state -> state ≠ [] -> s.states.lookup state = none) :
      Called s source profile draws given s
  | failed {state : Text} : Called s source profile draws (some state)
      { s with states := s.states.erase state }
  | used {state : Text} {info : StateInfo} {db : OAuthDb} (hne : state ≠ [])
      (hinfo : s.states.lookup state = some info) (hused : Used s.db source profile draws info db) :
      Called s source profile draws (some state) ⟨db, s.states.erase state⟩

theorem called_loginOrBinding (env : OAuthEnv) (s : OAuthState) (source : UserSocialType)
    (profile : SocialProfile) (given : Option Text) (draws : Draws) :
    Called s source profile draws given (loginOrBinding env s source profile given draws).1 := by
  unfold loginOrBinding
  split
  · rename_i hnone
    apply Called.refused
    intro state hgiven hne
    rw [hgiven] at hnone
    simp [hne] at hnone
  · rename_i state hstate
    rcases Option.filter_eq_some_iff.mp hstate with ⟨rfl, hne⟩
    split
    · rename_i hlookup
      apply Called.refused
      intro state' hgiven _
      cases hgiven
      exact hlookup
    · rename_i info hlookup
      split
      · exact .failed
      · rename_i db user huse
        exact .used (by simpa using hne) hlookup (used_of_useState huse)

/-!
# Steps

What a step makes of the bindings: one may be added by a callback, or removed by the user or
with the user.
-/

def StateInfo.link : StateInfo -> Text -> OAuthAction
  | .login, state => .loginUrl state
  | .binding userId, state => .bindingUrl userId state

/-- The state is given to a callback, or expires. -/
def OAuthAction.Uses (state : Text) : OAuthAction -> Prop
  | .callback _ _ given _ => given = some state
  | .expire other => other = state
  | _ => False

/-- The binding is removed by its user, or with its user. -/
def OAuthAction.Removes (s : OAuthState) (social : UserSocial) : OAuthAction -> Prop
  | .unbinding userId source => userId = social.userId ∧ source = social.source
  | .request (.deleteUser pk) => pk = social.userId ∧ (s.db.admin.users.get pk).isSome = true
  | _ => False

instance (s : OAuthState) (social : UserSocial) (a : OAuthAction) :
    Decidable (a.Removes s social) := by
  unfold OAuthAction.Removes
  split <;> infer_instance

theorem states_step {state : Text} {info : StateInfo} (hne : state ≠ [])
    (h : step env s a = some s') (hinfo : s'.states.lookup state = some info) :
    a = info.link state ∨ s.states.lookup state = some info ∧ ¬ a.Uses state := by
  unfold step at h
  cases a with
  | request r =>
      dsimp only at h
      split at h
      · cases h
        exact .inr ⟨hinfo, fun hno => hno⟩
      · cases h
  | loginUrl other =>
      dsimp only at h
      split at h
      · cases h
      · cases h
        rcases lookup_of_insert hinfo with ⟨rfl, rfl⟩ | hold
        · exact .inl rfl
        · exact .inr ⟨hold, fun hno => hno⟩
  | bindingUrl userId other =>
      dsimp only at h
      split at h
      · cases h
      · cases h
        rcases lookup_of_insert hinfo with ⟨rfl, rfl⟩ | hold
        · exact .inl rfl
        · exact .inr ⟨hold, fun hno => hno⟩
  | callback source profile given draws =>
      dsimp only at h
      split at h
      · have hcalled := called_loginOrBinding env s source profile given draws
        rw [Option.some.inj h] at hcalled
        cases hcalled with
        | refused hnone =>
            refine .inr ⟨hinfo, ?_⟩
            intro hgiven
            rw [hnone state hgiven hne] at hinfo
            cases hinfo
        | failed =>
            rcases lookup_of_erase hinfo with ⟨hother, hold⟩
            exact .inr ⟨hold, fun hgiven => hother (Option.some.inj hgiven).symm⟩
        | used _ _ _ =>
            rcases lookup_of_erase hinfo with ⟨hother, hold⟩
            exact .inr ⟨hold, fun hgiven => hother (Option.some.inj hgiven).symm⟩
      · cases h
  | unbinding userId source =>
      dsimp only at h
      split at h
      · cases h
        exact .inr ⟨hinfo, fun hno => hno⟩
      · cases h
        exact .inr ⟨hinfo, fun hno => hno⟩
  | expire other =>
      cases h
      rcases lookup_of_erase hinfo with ⟨hother, hold⟩
      exact .inr ⟨hold, fun heq => hother heq.symm⟩

inductive Rebound (s : OAuthState) : OAuthAction -> Table UserSocial -> Prop
  | bound {source : UserSocialType} {profile : SocialProfile} {state : Text} {draws : Draws}
      {info : StateInfo} {userId : Nat} (hne : state ≠ [])
      (hinfo : s.states.lookup state = some info)
      (how : info = .binding userId ∨
        info = .login ∧ exists admin, Owner s.db.admin profile draws admin userId)
      (free : Unbound s.db.socials ⟨profile.sid, source, userId⟩)
      (fresh : draws.Fresh s.db) :
      Rebound s (.callback source profile (some state) draws)
        (s.db.socials.create draws.socialId ⟨profile.sid, source, userId⟩)
  | removed {a : OAuthAction} {p : UserSocial -> Bool}
      (hp : forall social, p social = true ↔ a.Removes s social) :
      Rebound s a (s.db.socials.deleteWhere p)
  | same {a : OAuthAction}
      (hkept : forall social, Bound s.db.socials social -> ¬ a.Removes s social) :
      Rebound s a s.db.socials

theorem rebound_request (s : OAuthState) (r : AdminRequest) :
    Rebound s (.request r) (s.db.request r).socials := by
  unfold OAuthDb.request
  split
  · rename_i e herror
    apply Rebound.same
    intro social _ hremoves
    cases r with
    | deleteUser pk =>
        rcases Option.isSome_iff_exists.mp hremoves.2 with ⟨user, huser⟩
        have hok : exists out, AdminRequest.perform s.db.admin (.deleteUser pk) = .ok out := by
          unfold AdminRequest.perform UserService.delete
          dsimp only
          rw [huser]
          exact ⟨_, rfl⟩
        rcases hok with ⟨out, hout⟩
        rw [hout] at herror
        cases herror
    | _ => exact hremoves
  · rename_i out hout
    split
    · rename_i pk
      cases perform_effect hout with
      | deleteUser hfound =>
          show Rebound s _ (s.db.socials.deleteWhere fun social => social.userId = pk)
          apply Rebound.removed
          intro social
          constructor
          · intro hp
            exact ⟨(of_decide_eq_true hp).symm, by rw [hfound]; rfl⟩
          · intro hremoves
            exact decide_eq_true hremoves.1.symm
    · rename_i hother
      apply Rebound.same
      intro social _ hremoves
      cases r with
      | deleteUser pk => exact hother pk rfl
      | _ => exact hremoves

theorem rebound_step (h : step env s a = some s') : Rebound s a s'.db.socials := by
  unfold step at h
  cases a with
  | request r =>
      dsimp only at h
      split at h
      · cases h
        exact rebound_request s r
      · cases h
  | loginUrl _ | bindingUrl _ _ =>
      dsimp only at h
      split at h
      · cases h
      · cases h
        exact .same fun _ _ hno => hno
  | callback source profile given draws =>
      dsimp only at h
      split at h
      · rename_i hfresh
        have hcalled := called_loginOrBinding env s source profile given draws
        rw [Option.some.inj h] at hcalled
        cases hcalled with
        | refused _ => exact .same fun _ _ hno => hno
        | failed => exact .same fun _ _ hno => hno
        | used hne hinfo hused =>
            cases hused with
            | binding hfree => exact .bound hne hinfo (.inl rfl) hfree hfresh
            | known => exact .same fun _ _ hno => hno
            | joined howner hfree =>
                exact .bound hne hinfo (.inr ⟨rfl, _, howner⟩) hfree hfresh
      · cases h
  | unbinding userId source =>
      dsimp only at h
      unfold unbinding at h
      split at h
      · rename_i db hdb
        split at hdb
        · cases hdb
        · cases hdb
          cases h
          show Rebound s _ (s.db.socials.deleteWhere fun social =>
            social.userId = userId && social.source = source)
          apply Rebound.removed
          intro social
          rw [Bool.and_eq_true, decide_eq_true_eq, decide_eq_true_eq]
          exact and_congr eq_comm eq_comm
      · rename_i e herror
        split at herror
        · rename_i hnone
          cases h
          apply Rebound.same
          intro social hbound hremoves
          have hnot := not_bound_of_find hnone hbound
          simp [hremoves.1, hremoves.2] at hnot
        · cases herror
  | expire _ =>
      cases h
      exact .same fun _ _ hno => hno

/-!
# Tables of bindings

Ids are positive, and no account is bound twice.
-/

def UserSocial.account (social : UserSocial) : Option (Text × UserSocialType) :=
  some (social.sid, social.source)

/-- Ids are positive, and no account is bound twice. -/
structure Sound (t : Table UserSocial) : Prop where
  positive : forall id, id ∈ t.ids -> 0 < id
  accounts : t.Distinct UserSocial.account

theorem Sound.step (hs : Sound s.db.socials) (h : step env s a = some s') :
    Sound s'.db.socials := by
  have hrebound := rebound_step h
  generalize s'.db.socials = t at hrebound ⊢
  cases hrebound with
  | @bound source profile state draws info userId hne hinfo how hfree hfresh =>
      have hnew := hfresh.2.2
      constructor
      · intro id hid
        rw [Table.ids, Table.create, List.map_append] at hid
        cases List.mem_append.mp hid with
        | inl hold => exact hs.positive id hold
        | inr hlast =>
            rw [List.mem_singleton.mp hlast]
            exact hnew.1
      · apply hs.accounts.create hnew.2
        intro account haccount row hrow hkey
        have hnot := not_bound_of_find hfree.account ⟨row, hrow, rfl⟩
        have hsame : row.value.account = UserSocial.account ⟨profile.sid, source, userId⟩ :=
          hkey.trans haccount.symm
        rcases Prod.mk.inj (Option.some.inj hsame) with ⟨hsid, hsource⟩
        simp [hsid, hsource] at hnot
  | removed hp =>
      constructor
      · rw [Table.ids_deleteWhere]
        exact hs.positive
      · exact hs.accounts.deleteWhere _ hs.positive
  | same _ => exact hs

theorem sound_of_reaches {db : AdminDb} {C : OAuthState -> OAuthAction -> Prop}
    (h : Reaches (step env) C (initial db) s) : Sound s.db.socials := by
  apply h.invariant fun s => Sound s.db.socials
  · constructor
    · intro id hid
      cases hid
    · exact .nil
  · intro s a s' hs _ h
    exact hs.step h

/-!
# How bindings come about

A binding has a history: the link was asked for, and its state was used for the first time by
the callback that made the binding.
-/

def Asked (state : Text) (info : StateInfo) : List (OAuthState × OAuthAction) -> Prop :=
  Since (fun _ _ a => a = info.link state) fun _ a => ¬ a.Uses state

theorem asked_of_lookup {db : AdminDb} {taken : List (OAuthState × OAuthAction)} {state : Text}
    {info : StateInfo} (hrun : History (step env) (initial db) taken s) (hne : state ≠ [])
    (h : s.states.lookup state = some info) : Asked state info taken := by
  refine hrun.since (fun s => s.states.lookup state = some info) ?_ ?_ h
  · intro hfirst
    cases hfirst
  · intro before s a s' _ hstep hinfo
    exact states_step hne hstep hinfo

/--
The callback of the account, with a link that the user asked for to bind an account, or with
the link of a login, when the user has the address of the account or is created for it.
-/
def Admits (social : UserSocial) (before : List (OAuthState × OAuthAction)) (s : OAuthState)
    (a : OAuthAction) : Prop :=
  exists profile state draws, a = .callback social.source profile (some state) draws ∧
    profile.sid = social.sid ∧
    (Asked state (.binding social.userId) before ∨
      Asked state .login before ∧
        ((exists user, user ∈ s.db.admin.users.live ∧ user.id = social.userId ∧
            user.value.email = profile.email ∧ profile.email.isSome = true) ∨
          social.userId = draws.userId ∧ social.userId ∉ s.db.admin.users.ids))

theorem admits_of_owner {before : List (OAuthState × OAuthAction)} {state : Text}
    {admin : AdminDb} (howner : Owner s.db.admin profile draws admin userId)
    (hnew : draws.userId ∉ s.db.admin.users.ids) (hasked : Asked state .login before) :
    Admits ⟨profile.sid, source, userId⟩ before s
      (.callback source profile (some state) draws) := by
  refine ⟨profile, state, draws, rfl, rfl, .inr ⟨hasked, ?_⟩⟩
  cases howner with
  | @address email user hgiven hfound =>
      have huser := List.find?_some hfound
      simp only [Bool.and_eq_true, decide_eq_true_eq] at huser
      refine .inl ⟨user, ?_, rfl, huser.2.trans hgiven.symm, ?_⟩
      · exact Table.mem_live.mpr ⟨List.mem_of_find?_eq_some hfound, huser.1⟩
      · rw [hgiven]
        rfl
  | created => exact .inr ⟨rfl, hnew⟩

/--
In every run that begins without bindings, each binding was made by a callback of its account,
with a binding link of its own user or a login link of the user's address or of a new user.
The link was used for the first time, and the binding was not removed since.
-/
theorem bindings_come_from_their_users (env : OAuthEnv) (db : AdminDb)
    {taken : List (OAuthState × OAuthAction)} {s : OAuthState}
    (hrun : History (step env) (initial db) taken s) {social : UserSocial}
    (hbound : Bound s.db.socials social) :
    Since (Admits social) (fun s a => ¬ a.Removes s social) taken := by
  refine hrun.since (fun s => Bound s.db.socials social) ?_ ?_ hbound
  · intro hfirst
    rcases hfirst with ⟨row, hrow, -⟩
    cases hrow
  · intro before s a s' hbefore hstep hb
    have hsound := sound_of_reaches hbefore.reaches
    have hrebound := rebound_step hstep
    generalize s'.db.socials = t at hrebound hb
    cases hrebound with
    | @bound source profile state draws info userId hne hinfo how hfree hfresh =>
        cases (bound_create _ _).mp hb with
        | inl hold => exact .inr ⟨hold, fun hno => hno⟩
        | inr hnew =>
            rw [hnew]
            have hasked := asked_of_lookup hbefore hne hinfo
            rcases how with rfl | ⟨rfl, admin, howner⟩
            · exact .inl ⟨profile, state, draws, rfl, rfl, .inl hasked⟩
            · exact .inl (admits_of_owner howner hfresh.2.1 hasked)
    | removed hp =>
        rcases (bound_deleteWhere hsound.positive).mp hb with ⟨hold, hnot⟩
        refine .inr ⟨hold, fun hremoves => ?_⟩
        rw [(hp social).mpr hremoves] at hnot
        cases hnot
    | same hkept => exact .inr ⟨hb, hkept social hb⟩

/-!
# Samples

The accounts have no address and no avatar.
-/

def sampleDb : AdminDb where
  users := [⟨1, 0, ⟨['a'], ['a'], none, none, 1, false, true, false, none⟩⟩]
  depts := []
  roles := [⟨2, 0, ⟨['r'], 1, true⟩⟩]
  menus := []
  scopes := []
  rules := []
  userRole := [(1, 2)]
  roleMenu := []
  roleScope := []
  scopeRule := []

def sampleEnv : OAuthEnv := ⟨fun _ => none, fun _ => none⟩

def sampleProfile : SocialProfile := ⟨['7'], some ['b'], some ['b'], none, none⟩

def sampleBinding : List OAuthAction :=
  [.bindingUrl 1 ['s'], .callback .github sampleProfile (some ['s']) ⟨5, 3, ['c'], []⟩]

/-- A login with an account that is not bound, for whom the user is created. -/
theorem bindings_come_from_their_users_created : exists taken s,
    History (step sampleEnv) (initial sampleDb) taken s ∧
      Since (Admits ⟨['7'], .google, 5⟩)
        (fun s a => ¬ a.Removes s ⟨['7'], .google, 5⟩) taken := by
  obtain ⟨taken, s, hrun, hsocials⟩ := exists_history (step sampleEnv) (initial sampleDb)
    (sampleBinding ++ [.loginUrl ['t'],
      .callback .google sampleProfile (some ['t']) ⟨5, 4, ['c'], []⟩, .unbinding 1 .github])
    (fun s => s.db.socials.live = [⟨4, 0, ⟨['7'], .google, 5⟩⟩]) (by decide +kernel)
  have hbound : Bound s.db.socials ⟨['7'], .google, 5⟩ := by
    refine ⟨⟨4, 0, _⟩, ?_, rfl⟩
    rw [hsocials]
    exact List.mem_singleton_self _
  exact ⟨taken, s, hrun, bindings_come_from_their_users sampleEnv sampleDb hrun hbound⟩

/-!
# Accounts that stay

The query by the account finds its only binding.
-/

end OAuth2
end RagService
