import RagService.Auth.Sessions

/-!
# Effects of the session services

Which commands the programs may issue, what a deletion by prefix leaves, and which tokens
the checks refuse.
-/

namespace RagService

open Interleaving

/-- The program ends without an exception in this state. -/
def AuthState.Accepts {α : Type} (s : AuthState) (p : AuthAction α) : Prop :=
  exists a, (p.run AuthState.exec s).2 = .ok a

/-!
# What the programs do to the keys

Sessions are made by commands that set the keys of one session only, and all other parts of the
services set no key.
-/

section

variable {α : Type}

def SetsOnly (uuid : Text) : AuthCommand -> Prop
  | .set key _ => key.sessionUuid = some uuid
  | _ => True

def SetsNothing : AuthCommand -> Prop
  | .set _ _ => False
  | _ => True

theorem SetsNothing.setsOnly {c : AuthCommand} (uuid : Text) (h : SetsNothing c) :
    SetsOnly uuid c := by
  cases c with
  | set key value => exact absurd h id
  | _ => trivial

theorem issues_ofExcept {P : AuthCommand -> Prop} (r : Except AuthError α) :
    (AuthAction.ofExcept r).Issues P fun _ => True := by
  cases r <;> trivial

theorem deleteByPrefix_issues (family : KeyFamily) (userId : Nat) (excludeKeys : List Key)
    (batchSize : Nat) :
    (deleteByPrefix family userId excludeKeys batchSize).Issues SetsNothing fun _ => True := by
  apply RedisCli.deleteByPrefix_issues
  · intro key
    exact ⟨trivial, fun r => by cases r <;> trivial⟩
  · exact ⟨trivial, fun r => by cases r <;> trivial⟩
  · intro keys
    exact ⟨trivial, fun r => by cases r <;> trivial⟩

theorem deleteByPrefix_setsOnly (uuid : Text) (family : KeyFamily) (userId batchSize : Nat) :
    (deleteByPrefix family userId [] batchSize).Issues (SetsOnly uuid) fun _ => True :=
  (deleteByPrefix_issues family userId [] batchSize).mono fun _ => SetsNothing.setsOnly uuid

theorem createAccessToken_issues (cfg : AuthSettings) (now : Nat) (uuid : Text) (userId : Nat)
    (multiLogin : Bool) (extra : List (Text × Json)) :
    (createAccessToken cfg now uuid userId multiLogin extra).Issues (SetsOnly uuid)
      fun access => access.sessionUuid = uuid := by
  have hset : forall a : AccessToken, a.sessionUuid = uuid ->
      ((AuthAction.set (tokenKey userId uuid) (.token a.accessToken)).bind fun _ =>
        if (!extra.isEmpty) = true then
          (AuthAction.set (extraInfoKey userId uuid)
            (.text ((Json.obj extra).dumps false))).bind fun _ => Program.ret a
        else Program.ret a).Issues (SetsOnly uuid) fun access => access.sessionUuid = uuid := by
    intro a ha
    refine Program.issues_issue_bind _ rfl fun _ => ?_
    split
    · exact Program.issues_issue_bind _ rfl fun _ => ha
    · exact ha
  unfold createAccessToken
  dsimp only
  split
  · exact Program.issues_bind (deleteByPrefix_setsOnly uuid _ _ _) fun _ _ =>
      hset ⟨⟨uuid, _, userId⟩, _, uuid⟩ rfl
  · exact hset ⟨⟨uuid, _, userId⟩, _, uuid⟩ rfl

theorem createRefreshToken_issues (cfg : AuthSettings) (now : Nat) (uuid : Text) (userId : Nat)
    (multiLogin : Bool) :
    (createRefreshToken cfg now uuid userId multiLogin).Issues (SetsOnly uuid)
      fun _ => True := by
  unfold createRefreshToken
  dsimp only
  split
  · apply Program.issues_bind (deleteByPrefix_setsOnly uuid _ _ _)
    intro _ _
    exact Program.issues_issue_bind _ rfl fun _ => trivial
  · exact Program.issues_issue_bind _ rfl fun _ => trivial

theorem createNewToken_issues (cfg : AuthSettings) (now : Nat) (uuid : Text)
    (refreshToken : Token) (sessionUuid : Text) (userId : Nat) (multiLogin : Bool)
    (extra : List (Text × Json)) :
    (createNewToken cfg now uuid refreshToken sessionUuid userId multiLogin extra).Issues
      (SetsOnly uuid) fun new => new.sessionUuid = uuid := by
  unfold createNewToken
  apply Program.issues_issue_bind _ trivial
  intro stored
  dsimp only
  split
  · trivial
  · apply Program.issues_issue_bind _ trivial
    intro _
    apply Program.issues_issue_bind _ trivial
    intro _
    apply Program.issues_bind (createAccessToken_issues cfg now uuid userId multiLogin extra)
    intro access haccess
    rw [haccess]
    exact Program.issues_bind (createRefreshToken_issues cfg now uuid userId multiLogin)
      fun _ _ => rfl

theorem lastLoginText_issues {P : AuthCommand -> Prop} (cfg : AuthSettings) (user : User) :
    (lastLoginText cfg user).Issues P fun _ => True := by
  unfold lastLoginText
  split <;> trivial

theorem login_issues (cfg : AuthSettings) (now : Nat) (uuid : Text) (client : Client)
    (username : Text) (captcha verified : Except AuthError Unit) :
    (AuthService.login cfg now uuid client username captcha verified).Issues (SetsOnly uuid)
      fun tokens => tokens.1.sessionUuid = uuid := by
  unfold AuthService.login
  apply Program.issues_bind (issues_ofExcept captcha)
  intro _ _
  apply Program.issues_issue_bind _ trivial
  intro found
  cases found with
  | none => trivial
  | some found =>
      dsimp only
      split
      · trivial
      · apply Program.issues_bind (issues_ofExcept verified)
        intro _ _
        apply Program.issues_issue_bind _ trivial
        intro _
        apply Program.issues_issue_bind _ trivial
        intro refreshed
        cases refreshed with
        | none => trivial
        | some user =>
            apply Program.issues_bind (lastLoginText_issues cfg user)
            intro lastLogin _
            apply Program.issues_bind (createAccessToken_issues cfg now uuid _ _ _)
            intro access haccess
            rw [haccess]
            exact Program.issues_bind (createRefreshToken_issues cfg now uuid _ _)
              fun _ _ => haccess

theorem refreshToken_issues (cfg : AuthSettings) (now : Nat) (uuid : Text) (client : Client)
    (cookie : Option Credential) :
    (AuthService.refreshToken cfg now uuid client cookie).Issues (SetsOnly uuid)
      fun new => new.sessionUuid = uuid := by
  unfold AuthService.refreshToken
  cases cookie with
  | none => trivial
  | some cookie =>
      apply Program.issues_bind (issues_ofExcept _)
      intro payload _
      apply Program.issues_issue_bind _ trivial
      intro found
      cases found with
      | none => trivial
      | some user =>
          dsimp only
          split
          · trivial
          · apply Program.issues_issue_bind _ trivial
            intro tokenKeys
            split
            · trivial
            · apply Program.issues_bind (lastLoginText_issues cfg user)
              intro lastLogin _
              exact createNewToken_issues _ _ _ _ _ _ _ _

theorem logout_issues (now : Nat) (authorization : Option Credential) (refreshCookie : Bool) :
    (AuthService.logout now authorization refreshCookie).Issues SetsNothing fun _ => True := by
  unfold AuthService.logout
  split
  · trivial
  · trivial
  · apply Program.issues_issue_bind _ trivial
    intro _
    apply Program.issues_issue_bind _ trivial
    intro _
    split
    · exact ⟨trivial, fun r => by cases r <;> trivial⟩
    · trivial

theorem deleteSessions_issues (userId : Nat) :
    (UserService.deleteSessions userId).Issues SetsNothing fun _ => True := by
  apply Program.issues_bind (deleteByPrefix_issues _ _ _ _)
  intro _ _
  apply Program.issues_bind (deleteByPrefix_issues _ _ _ _)
  intro _ _
  exact deleteByPrefix_issues _ _ _ _

theorem resetPassword_issues (pk : Nat) (validated : Except AuthError Unit) :
    (UserService.resetPassword pk validated).Issues SetsNothing fun _ => True := by
  apply Program.issues_issue_bind _ trivial
  intro found
  cases found with
  | none => trivial
  | some user =>
      apply Program.issues_bind (issues_ofExcept validated)
      intro _ _
      exact deleteSessions_issues user.id

theorem updatePassword_issues (userId : Nat) (validated : Except AuthError Unit) :
    (UserService.updatePassword userId validated).Issues SetsNothing fun _ => True := by
  apply Program.issues_issue_bind _ trivial
  intro found
  cases found with
  | none => trivial
  | some user =>
      apply Program.issues_bind (issues_ofExcept validated)
      intro _ _
      exact deleteSessions_issues userId

theorem delete_issues (pk : Nat) :
    (UserService.delete pk).Issues SetsNothing fun _ => True := by
  apply Program.issues_issue_bind _ trivial
  intro found
  cases found with
  | none => trivial
  | some user =>
      apply Program.issues_issue_bind _ trivial
      intro count
      apply Program.issues_bind (deleteSessions_issues user.id)
      intro _ _
      trivial

theorem revokeToken_issues (userId : Nat) (sessionUuid : Text) :
    (revokeToken userId sessionUuid).Issues SetsNothing fun _ => True := by
  apply Program.issues_issue_bind _ trivial
  intro _
  exact ⟨trivial, fun r => by cases r <;> trivial⟩

/-!
# Keys that stay away

A value is in Redis because it was there before or because a command has set it.
-/

theorem AuthState.lookup_exec {c : AuthCommand} {s : AuthState} {key : Key} {value : Value}
    (h : (AuthState.exec c s).1.redis.lookup key = some value) :
    c = .set key value ∨ s.redis.lookup key = some value := by
  cases c with
  | set key' value' =>
      by_cases hkey : key = key'
      · subst hkey
        have hvalue : some value' = some value := (AList.lookup_insert _).symm.trans h
        rw [Option.some.inj hvalue]
        exact .inl rfl
      · exact .inr ((AList.lookup_insert_ne hkey).symm.trans h)
  | delete keys => exact .inr (Redis.lookup_of_delete h)
  | _ => exact .inr h

theorem lookup_of_setsOnly {uuid : Text} {p : AuthAction α} {R : α -> Prop}
    (hp : p.Issues (SetsOnly uuid) R) {s : AuthState} {key : Key} {value : Value}
    (h : (p.run AuthState.exec s).1.redis.lookup key = some value) :
    key.sessionUuid = some uuid ∨ s.redis.lookup key = some value := by
  let J : AuthState -> Prop := fun s' => forall key value,
    s'.redis.lookup key = some value ->
      key.sessionUuid = some uuid ∨ s.redis.lookup key = some value
  have hkeeps : J (p.run AuthState.exec s).1 := by
    apply hp.run_keeps
    · intro c s' hc hs' key' value' h'
      cases AuthState.lookup_exec h' with
      | inl hset =>
          subst hset
          exact .inl hc
      | inr hbefore => exact hs' key' value' hbefore
    · intro key' value' h'
      exact .inr h'
  exact hkeeps key value h

theorem lookup_of_setsNothing {p : AuthAction α} {R : α -> Prop}
    (hp : p.Issues SetsNothing R) {s : AuthState} {key : Key} {value : Value}
    (h : (p.run AuthState.exec s).1.redis.lookup key = some value) :
    s.redis.lookup key = some value := by
  let J : AuthState -> Prop := fun s' => forall key value,
    s'.redis.lookup key = some value -> s.redis.lookup key = some value
  have hkeeps : J (p.run AuthState.exec s).1 := by
    apply hp.run_keeps
    · intro c s' hc hs' key' value' h'
      cases AuthState.lookup_exec h' with
      | inl hset =>
          subst hset
          exact absurd hc id
      | inr hbefore => exact hs' key' value' hbefore
    · intro key' value' h'
      exact h'
  exact hkeeps key value h

theorem lookup_none_of_setsNothing {p : AuthAction α} {R : α -> Prop}
    (hp : p.Issues SetsNothing R) {s : AuthState} {key : Key}
    (h : s.redis.lookup key = none) :
    (p.run AuthState.exec s).1.redis.lookup key = none := by
  cases hlookup : (p.run AuthState.exec s).1.redis.lookup key with
  | none => rfl
  | some value =>
      rw [lookup_of_setsNothing hp hlookup] at h
      cases h

/-!
# Deletion by prefix

After a deletion by prefix no session of the user has a key of the family any more; so after
the deletions that end sessions none has an access token or a refresh token.
-/

def Gone (s : AuthState) (key : Key) : Prop :=
  s.redis.lookup key = none

theorem delete_deletes : RedisCli.Deletes AuthState.exec AuthAction.delete Gone := by
  intro keys s
  refine ⟨{ s with redis := s.redis.delete keys }, rfl, fun key hkey => ?_⟩
  unfold Gone
  rw [Redis.lookup_delete]
  split
  · rfl
  · exact hkey.resolve_left ‹_›

theorem deleteByPrefix_run (family : KeyFamily) (userId batchSize : Nat) (s : AuthState) :
    exists s', (deleteByPrefix family userId [] batchSize).run AuthState.exec s = (s', .ok ()) ∧
      forall sessionUuid, s'.redis.lookup ⟨family, userId, some sessionUuid⟩ = none := by
  obtain ⟨s', hrun, hgone⟩ := RedisCli.deleteScanned_run delete_deletes batchSize
    (if decide ((⟨family, userId, none⟩ : Key) ∈ s.redis) then [⟨family, userId, none⟩] else [])
    (s.redis.scan family userId) s
  refine ⟨s', hrun, fun sessionUuid => hgone _ (.inr ?_)⟩
  cases hlookup : s.redis.lookup ⟨family, userId, some sessionUuid⟩ with
  | none => exact .inr hlookup
  | some value =>
      have hmem : (⟨family, userId, some sessionUuid⟩ : Key) ∈ s.redis :=
        AList.lookup_isSome.mp (by rw [hlookup]; rfl)
      exact .inl (Redis.mem_scan.mpr ⟨hmem, rfl, rfl, rfl⟩)

theorem deleteSessions_run (userId : Nat) (s : AuthState) :
    exists s', (UserService.deleteSessions userId).run AuthState.exec s = (s', .ok ()) ∧
      forall sessionUuid, s'.redis.lookup (tokenKey userId sessionUuid) = none ∧
        s'.redis.lookup (refreshKey userId sessionUuid) = none := by
  rcases deleteByPrefix_run .token userId 1000 s with ⟨s₁, hrun₁, hgone₁⟩
  rcases deleteByPrefix_run .refreshToken userId 1000 s₁ with ⟨s₂, hrun₂, hgone₂⟩
  rcases deleteByPrefix_run .jwtUser userId 1000 s₂ with ⟨s₃, hrun₃, -⟩
  have hkeeps₂ : forall key, s₁.redis.lookup key = none -> s₂.redis.lookup key = none := by
    intro key hkey
    have hnone := lookup_none_of_setsNothing (deleteByPrefix_issues .refreshToken userId [] 1000)
      hkey
    rwa [hrun₂] at hnone
  have hkeeps₃ : forall key, s₂.redis.lookup key = none -> s₃.redis.lookup key = none := by
    intro key hkey
    have hnone := lookup_none_of_setsNothing (deleteByPrefix_issues .jwtUser userId [] 1000) hkey
    rwa [hrun₃] at hnone
  refine ⟨s₃, ?_, fun sessionUuid => ⟨?_, ?_⟩⟩
  · have hlast := (Program.run_bind_ok hrun₂ fun _ => deleteByPrefix .jwtUser userId [] 1000).trans
      hrun₃
    exact (Program.run_bind_ok hrun₁ _).trans hlast
  · exact hkeeps₃ _ (hkeeps₂ _ (hgone₁ sessionUuid))
  · exact hkeeps₃ _ (hgone₂ sessionUuid)

theorem getUser_run (pk : Nat) (f : Option User -> AuthAction α) (s : AuthState) :
    ((AuthAction.getUser pk).bind f).run AuthState.exec s =
      (f (s.liveUser pk)).run AuthState.exec s :=
  rfl

theorem resetPassword_gone {pk : Nat} {validated : Except AuthError Unit} {s s' : AuthState}
    (h : (UserService.resetPassword pk validated).run AuthState.exec s = (s', .ok ()))
    (sessionUuid : Text) :
    s'.redis.lookup (tokenKey pk sessionUuid) = none ∧
      s'.redis.lookup (refreshKey pk sessionUuid) = none := by
  have hrun := (getUser_run pk _ s).symm.trans h
  cases hfound : s.liveUser pk with
  | none =>
      rw [hfound] at hrun
      cases hrun
  | some user =>
      rw [hfound] at hrun
      cases validated with
      | error e => cases hrun
      | ok _ =>
          rcases deleteSessions_run user.id s with ⟨s'', hdeleted, hgone⟩
          have hsame : s'' = s' := congrArg Prod.fst (hdeleted.symm.trans hrun)
          rw [← hsame, ← (AuthState.liveUser_mem hfound).2]
          exact hgone sessionUuid

theorem updatePassword_gone {userId : Nat} {validated : Except AuthError Unit}
    {s s' : AuthState}
    (h : (UserService.updatePassword userId validated).run AuthState.exec s = (s', .ok ()))
    (sessionUuid : Text) :
    s'.redis.lookup (tokenKey userId sessionUuid) = none ∧
      s'.redis.lookup (refreshKey userId sessionUuid) = none := by
  have hrun := (getUser_run userId _ s).symm.trans h
  cases hfound : s.liveUser userId with
  | none =>
      rw [hfound] at hrun
      cases hrun
  | some user =>
      rw [hfound] at hrun
      cases validated with
      | error e => cases hrun
      | ok _ =>
          rcases deleteSessions_run userId s with ⟨s'', hdeleted, hgone⟩
          have hsame : s'' = s' := congrArg Prod.fst (hdeleted.symm.trans hrun)
          rw [← hsame]
          exact hgone sessionUuid

theorem delete_gone {pk count : Nat} {s s' : AuthState}
    (h : (UserService.delete pk).run AuthState.exec s = (s', .ok count))
    (sessionUuid : Text) :
    s'.redis.lookup (tokenKey pk sessionUuid) = none ∧
      s'.redis.lookup (refreshKey pk sessionUuid) = none := by
  have hrun := (getUser_run pk _ s).symm.trans h
  cases hfound : s.liveUser pk with
  | none =>
      rw [hfound] at hrun
      cases hrun
  | some user =>
      rw [hfound] at hrun
      rcases deleteSessions_run user.id (AuthState.exec (.deleteUser user.id) s).1 with
        ⟨s'', hdeleted, hgone⟩
      have hsame : s'' = s' := by
        have hall := (Program.run_bind_ok hdeleted _).symm.trans hrun
        exact congrArg Prod.fst hall
      rw [← hsame, ← (AuthState.liveUser_mem hfound).2]
      exact hgone sessionUuid

/-- A logout deletes the access token, and with the cookie the refresh token. -/
theorem logout_gone {now : Nat} {authorization : Option Credential} {refreshCookie : Bool}
    {payload : Token} (h : authorization.map (jwtDecode now) = some (.ok payload))
    {s : AuthState} (hrefresh : refreshCookie = false ->
      s.redis.lookup (refreshKey payload.sub payload.sessionUuid) = none) :
    let s' := ((AuthService.logout now authorization refreshCookie).run AuthState.exec s).1
    s'.redis.lookup (tokenKey payload.sub payload.sessionUuid) = none ∧
      s'.redis.lookup (refreshKey payload.sub payload.sessionUuid) = none := by
  dsimp only
  unfold AuthService.logout
  rw [h]
  cases refreshCookie with
  | true =>
      constructor
      · show ((s.redis.delete _).delete _ |>.delete _).lookup _ = none
        simp [Redis.lookup_delete]
      · exact Redis.lookup_delete_of_mem List.mem_cons_self
  | false =>
      constructor
      · show ((s.redis.delete _).delete _).lookup _ = none
        simp [Redis.lookup_delete]
      · show ((s.redis.delete _).delete _).lookup _ = none
        simp [Redis.lookup_delete, hrefresh rfl]

theorem revokeToken_gone {userId : Nat} {sessionUuid : Text} {s : AuthState}
    (hrefresh : s.redis.lookup (refreshKey userId sessionUuid) = none) :
    let s' := ((revokeToken userId sessionUuid).run AuthState.exec s).1
    s'.redis.lookup (tokenKey userId sessionUuid) = none ∧
      s'.redis.lookup (refreshKey userId sessionUuid) = none := by
  constructor
  · show ((s.redis.delete _).delete _).lookup _ = none
    simp [Redis.lookup_delete]
  · show ((s.redis.delete _).delete _).lookup _ = none
    simp [Redis.lookup_delete, hrefresh]

/-!
# Tokens without a key
-/

theorem get_run (key : Key) (f : Option Value -> AuthAction α) (s : AuthState) :
    ((AuthAction.get key).bind f).run AuthState.exec s =
      (f (s.redis.lookup key)).run AuthState.exec s :=
  rfl

theorem scanIter_run (family : KeyFamily) (userId : Nat) (count : Option Nat)
    (f : List Key -> AuthAction α) (s : AuthState) :
    ((AuthAction.scanIter family userId count).bind f).run AuthState.exec s =
      (f (s.redis.scan family userId)).run AuthState.exec s :=
  rfl

theorem jwtAuthentication_rejects {Detail : Type} (getJwtUser : Nat -> AuthAction Detail)
    (now : Nat) {t : Token} {s : AuthState}
    (h : s.redis.lookup (tokenKey t.sub t.sessionUuid) = none) :
    ¬ s.Accepts (jwtAuthentication getJwtUser now (.signed t)) := by
  intro haccepts
  rcases haccepts with ⟨detail, hrun⟩
  unfold jwtAuthentication at hrun
  cases hdecode : jwtDecode now (.signed t) with
  | error e =>
      rw [hdecode] at hrun
      cases hrun
  | ok payload =>
      cases jwtDecode_signed hdecode
      rw [hdecode] at hrun
      have hget := (congrArg Prod.snd (get_run (tokenKey t.sub t.sessionUuid) _ s)).symm.trans hrun
      rw [h] at hget
      cases hget

theorem createNewToken_rejects {cfg : AuthSettings} {now : Nat} {uuid sessionUuid : Text}
    {refreshToken : Token} {userId : Nat} {multiLogin : Bool} {extra : List (Text × Json)}
    {s : AuthState} (h : s.redis.lookup (refreshKey userId sessionUuid) = none) :
    ¬ s.Accepts (createNewToken cfg now uuid refreshToken sessionUuid userId multiLogin
      extra) := by
  intro haccepts
  rcases haccepts with ⟨new, hrun⟩
  have hget := (congrArg Prod.snd (get_run (refreshKey userId sessionUuid) _ s)).symm.trans hrun
  rw [h] at hget
  cases hget

theorem refreshToken_rejects {cfg : AuthSettings} {now : Nat} {uuid : Text} {client : Client}
    {t : Token} {s : AuthState}
    (h : s.redis.lookup (refreshKey t.sub t.sessionUuid) = none) :
    ¬ s.Accepts (AuthService.refreshToken cfg now uuid client (some (.signed t))) := by
  intro haccepts
  rcases haccepts with ⟨new, hrun⟩
  unfold AuthService.refreshToken at hrun
  dsimp only at hrun
  cases hdecode : jwtDecode now (.signed t) with
  | error e =>
      rw [hdecode] at hrun
      cases hrun
  | ok payload =>
      cases jwtDecode_signed hdecode
      rw [hdecode] at hrun
      have hfind := (congrArg Prod.snd (getUser_run t.sub _ s)).symm.trans hrun
      clear hrun
      cases hfound : s.liveUser t.sub with
      | none =>
          rw [hfound] at hfind
          cases hfind
      | some user =>
          rw [hfound] at hfind
          dsimp only at hfind
          split at hfind
          · cases hfind
          · -- the list of keys is read, and nothing changes
            have hkeys := (congrArg Prod.snd
              (scanIter_run .token user.id (some 100) _ s)).symm.trans hfind
            clear hfind
            split at hkeys
            · cases hkeys
            · rw [← (AuthState.liveUser_mem hfound).2] at h
              cases hlogin : user.lastLoginTime with
              | none =>
                  unfold lastLoginText at hkeys
                  rw [hlogin] at hkeys
                  cases hkeys
              | some time =>
                  unfold lastLoginText at hkeys
                  rw [hlogin] at hkeys
                  exact createNewToken_rejects h ⟨new, hkeys⟩

end
end RagService
