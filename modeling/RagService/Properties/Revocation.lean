import RagService.Auth.Effects

/-!
# Revocation is final

Requests on sessions run one after another.  A session that has been ended is not
accepted again, as long as the forced logout and the logout without a refresh cookie meet
no refresh token of the session: neither of them deletes it.
-/

namespace RagService

open Interleaving Transitions

/-!
# Requests one after another

A request for new tokens touches the keys of its fresh session alone, and a request that ends
sessions sets no key.
-/

inductive SessionRequest where
  | login (now : Nat) (uuid : Text) (client : Client) (username : Text)
      (captcha verified : Except AuthError Unit)
  | refreshToken (now : Nat) (uuid : Text) (client : Client) (cookie : Option Credential)
  | logout (now : Nat) (authorization : Option Credential) (refreshCookie : Bool)
  | deleteSession (pk : Nat) (sessionUuid : Text)
  | resetPassword (pk : Nat) (validated : Except AuthError Unit)
  | updatePassword (userId : Nat) (validated : Except AuthError Unit)
  | delete (pk : Nat)

abbrev SessionId := Nat × Text

structure SessionHistory where
  auth : AuthState
  drawn : List Text
  opened : List SessionId
  ended : List SessionId

namespace SessionHistory

def initial (users : List User) : SessionHistory where
  auth := ⟨∅, users⟩
  drawn := []
  opened := []
  ended := []

/-- The access token is the one of its session. -/
def Valid (s : SessionHistory) (payload : Token) : Prop :=
  s.auth.redis.lookup (tokenKey payload.sub payload.sessionUuid) = some (.token payload)

instance (s : SessionHistory) (payload : Token) : Decidable (s.Valid payload) :=
  inferInstanceAs (Decidable (_ = _))

def opens {α : Type} (s : SessionHistory) (uuid : Text) (p : AuthAction α)
    (session : α -> SessionId) : Option SessionHistory :=
  if uuid ∈ s.drawn then none
  else
    match p.run AuthState.exec s.auth with
    | (auth, .ok a) =>
        some { s with auth := auth, drawn := uuid :: s.drawn, opened := session a :: s.opened }
    | (auth, .error _) => some { s with auth := auth, drawn := uuid :: s.drawn }

def ends {α : Type} (s : SessionHistory) (userId : Nat) (p : AuthAction α) : SessionHistory :=
  match p.run AuthState.exec s.auth with
  | (auth, .ok _) =>
      { s with auth := auth, ended := s.opened.filter (fun id => id.1 = userId) ++ s.ended }
  | (auth, .error _) => { s with auth := auth }

def step (cfg : AuthSettings) (s : SessionHistory) : SessionRequest -> Option SessionHistory
  | .login now uuid client username captcha verified =>
      s.opens uuid (AuthService.login cfg now uuid client username captcha verified)
        fun (access, _) => (access.accessToken.sub, access.sessionUuid)
  | .refreshToken now uuid client cookie =>
      s.opens uuid (AuthService.refreshToken cfg now uuid client cookie)
        fun new => (new.newAccessToken.sub, new.sessionUuid)
  | .logout now authorization refreshCookie =>
      let auth := ((AuthService.logout now authorization refreshCookie).run AuthState.exec
        s.auth).1
      match authorization.map (jwtDecode now) with
      | some (.ok payload) =>
          some { s with
            auth := auth
            ended := if s.Valid payload then (payload.sub, payload.sessionUuid) :: s.ended
              else s.ended }
      | _ => some { s with auth := auth }
  | .deleteSession pk sessionUuid =>
      some { s with
        auth := ((deleteSession pk sessionUuid).run AuthState.exec s.auth).1
        ended := if (pk, sessionUuid) ∈ s.opened then (pk, sessionUuid) :: s.ended
          else s.ended }
  | .resetPassword pk validated => some (s.ends pk (UserService.resetPassword pk validated))
  | .updatePassword userId validated =>
      some (s.ends userId (UserService.updatePassword userId validated))
  | .delete pk => some (s.ends pk (UserService.delete pk))

/--
The forced logout and the logout without a refresh cookie end only sessions without a
refresh token in Redis.
-/
def RefreshGone (s : SessionHistory) : SessionRequest -> Prop
  | .logout now authorization refreshCookie =>
      match authorization.map (jwtDecode now) with
      | some (.ok payload) => s.Valid payload -> refreshCookie = false ->
          s.auth.redis.lookup (refreshKey payload.sub payload.sessionUuid) = none
      | _ => True
  | .deleteSession pk sessionUuid =>
      (pk, sessionUuid) ∈ s.opened ->
        s.auth.redis.lookup (refreshKey pk sessionUuid) = none
  | _ => True

instance (s : SessionHistory) : (r : SessionRequest) -> Decidable (s.RefreshGone r)
  | .logout now authorization refreshCookie => by
      unfold RefreshGone
      dsimp only
      split <;> infer_instance
  | .deleteSession pk sessionUuid =>
      inferInstanceAs (Decidable ((pk, sessionUuid) ∈ s.opened -> _ = none))
  | .login .. | .refreshToken .. | .resetPassword .. | .updatePassword .. | .delete _ =>
      .isTrue trivial

structure EndedGone (s : SessionHistory) : Prop where
  gone : forall id, id ∈ s.ended -> id.2 ∈ s.drawn ∧
    s.auth.redis.lookup (tokenKey id.1 id.2) = none ∧
    s.auth.redis.lookup (refreshKey id.1 id.2) = none
  opened : forall id, id ∈ s.opened -> id.2 ∈ s.drawn
  stored : forall key value sessionUuid, s.auth.redis.lookup key = some value ->
    key.sessionUuid = some sessionUuid -> sessionUuid ∈ s.drawn

variable {α : Type} {cfg : AuthSettings} {s s' : SessionHistory}

theorem initial_endedGone (users : List User) : (initial users).EndedGone := by
  constructor
  · intro id hid
    cases hid
  · intro id hid
    cases hid
  · intro key value sessionUuid hlookup
    cases hlookup

/-- A request for new tokens touches the keys of its fresh session alone. -/
theorem EndedGone.opens (h : s.EndedGone) {uuid : Text} {p : AuthAction α}
    {session : α -> SessionId}
    (hp : p.Issues (SetsOnly uuid) fun a => (session a).2 = uuid)
    (hs : s.opens uuid p session = some s') : s'.EndedGone := by
  unfold SessionHistory.opens at hs
  split at hs
  · cases hs
  rename_i hfresh
  have hnone : forall key : Key, key.sessionUuid ≠ some uuid ->
      s.auth.redis.lookup key = none ->
        (p.run AuthState.exec s.auth).1.redis.lookup key = none := by
    intro key hkey hbefore
    cases hlookup : (p.run AuthState.exec s.auth).1.redis.lookup key with
    | none => rfl
    | some value =>
        cases lookup_of_setsOnly hp hlookup with
        | inl huuid => exact absurd huuid hkey
        | inr hold =>
            rw [hbefore] at hold
            cases hold
  -- what holds of the state whether the request succeeds or not
  have hgone : forall id, id ∈ s.ended -> id.2 ∈ uuid :: s.drawn ∧
      (p.run AuthState.exec s.auth).1.redis.lookup (tokenKey id.1 id.2) = none ∧
      (p.run AuthState.exec s.auth).1.redis.lookup (refreshKey id.1 id.2) = none := by
    intro id hid
    rcases h.gone id hid with ⟨hdrawn, htoken, hrefresh⟩
    have hne : some id.2 ≠ some uuid := fun heq => hfresh (Option.some.inj heq ▸ hdrawn)
    exact ⟨List.mem_cons_of_mem _ hdrawn, hnone _ hne htoken, hnone _ hne hrefresh⟩
  have hstored : forall key value sessionUuid,
      (p.run AuthState.exec s.auth).1.redis.lookup key = some value ->
        key.sessionUuid = some sessionUuid -> sessionUuid ∈ uuid :: s.drawn := by
    intro key value sessionUuid hlookup hkey
    cases lookup_of_setsOnly hp hlookup with
    | inl huuid =>
        rw [Option.some.inj (hkey.symm.trans huuid)]
        exact List.mem_cons_self
    | inr hold => exact List.mem_cons_of_mem _ (h.stored key value sessionUuid hold hkey)
  have hopened : forall id, id ∈ s.opened -> id.2 ∈ uuid :: s.drawn := fun id hid =>
    List.mem_cons_of_mem _ (h.opened id hid)
  split at hs
  · rename_i auth a hrun
    cases hs
    rw [hrun] at hgone hstored
    refine ⟨hgone, fun id hid => ?_, hstored⟩
    cases List.mem_cons.mp hid with
    | inl hnew =>
        rw [hnew, hp.run_result hrun]
        exact List.mem_cons_self
    | inr hold => exact hopened id hold
  · rename_i auth e hrun
    cases hs
    rw [hrun] at hgone hstored
    exact ⟨hgone, hopened, hstored⟩

theorem EndedGone.deletes (h : s.EndedGone) {p : AuthAction α} {R : α -> Prop}
    (hp : p.Issues SetsNothing R) (ended : List SessionId)
    (hended : forall id, id ∈ ended -> id ∈ s.ended ∨ id.2 ∈ s.drawn ∧
      (p.run AuthState.exec s.auth).1.redis.lookup (tokenKey id.1 id.2) = none ∧
      (p.run AuthState.exec s.auth).1.redis.lookup (refreshKey id.1 id.2) = none) :
    EndedGone { s with auth := (p.run AuthState.exec s.auth).1, ended := ended } := by
  constructor
  · intro id hid
    cases hended id hid with
    | inl hold =>
        rcases h.gone id hold with ⟨hdrawn, htoken, hrefresh⟩
        exact ⟨hdrawn, lookup_none_of_setsNothing hp htoken,
          lookup_none_of_setsNothing hp hrefresh⟩
    | inr hnew => exact hnew
  · exact h.opened
  · intro key value sessionUuid hlookup hkey
    exact h.stored key value sessionUuid (lookup_of_setsNothing hp hlookup) hkey

theorem EndedGone.ends (h : s.EndedGone) {userId : Nat} {p : AuthAction α} {R : α -> Prop}
    (hp : p.Issues SetsNothing R)
    (hgone : forall a auth, p.run AuthState.exec s.auth = (auth, .ok a) ->
      forall sessionUuid, auth.redis.lookup (tokenKey userId sessionUuid) = none ∧
        auth.redis.lookup (refreshKey userId sessionUuid) = none) :
    (s.ends userId p).EndedGone := by
  unfold SessionHistory.ends
  split
  · rename_i auth a hrun
    have hended : forall id, id ∈ s.opened.filter (fun id => id.1 = userId) ++ s.ended ->
        id ∈ s.ended ∨ id.2 ∈ s.drawn ∧
          (p.run AuthState.exec s.auth).1.redis.lookup (tokenKey id.1 id.2) = none ∧
          (p.run AuthState.exec s.auth).1.redis.lookup (refreshKey id.1 id.2) = none := by
      intro id hid
      cases List.mem_append.mp hid with
      | inr hold => exact .inl hold
      | inl hnew =>
          rcases List.mem_filter.mp hnew with ⟨hopened, huser⟩
          have huserId : id.1 = userId := of_decide_eq_true huser
          rw [hrun, huserId]
          exact .inr ⟨h.opened id hopened, hgone a auth hrun id.2⟩
    have hdeletes := h.deletes hp _ hended
    rwa [hrun] at hdeletes
  · rename_i auth e hrun
    have hdeletes := h.deletes hp s.ended fun id hid => .inl hid
    rwa [hrun] at hdeletes

theorem EndedGone.step (h : s.EndedGone) {r : SessionRequest} (hcond : s.RefreshGone r)
    (hs : s.step cfg r = some s') : s'.EndedGone := by
  cases r with
  | login now uuid client username captcha verified =>
      exact h.opens (login_issues cfg now uuid client username captcha verified) hs
  | refreshToken now uuid client cookie =>
      exact h.opens (refreshToken_issues cfg now uuid client cookie) hs
  | logout now authorization refreshCookie =>
      have hissues := logout_issues now authorization refreshCookie
      unfold SessionHistory.step at hs
      unfold RefreshGone at hcond
      dsimp only at hs hcond
      split at hs
      · rename_i payload hpayload
        rw [hpayload] at hcond
        cases hs
        apply h.deletes hissues
        intro id hid
        split at hid
        · rename_i hvalid
          cases List.mem_cons.mp hid with
          | inr hold => exact .inl hold
          | inl hnew =>
              rw [hnew]
              exact .inr ⟨h.stored _ _ _ hvalid rfl, logout_gone hpayload (hcond hvalid)⟩
        · exact .inl hid
      · cases hs
        exact h.deletes hissues _ fun id hid => .inl hid
  | deleteSession pk sessionUuid =>
      cases hs
      apply h.deletes (revokeToken_issues pk sessionUuid)
      intro id hid
      split at hid
      · rename_i hopened
        cases List.mem_cons.mp hid with
        | inr hold => exact .inl hold
        | inl hnew =>
            rw [hnew]
            exact .inr ⟨h.opened _ hopened, revokeToken_gone (hcond hopened)⟩
      · exact .inl hid
  | resetPassword pk validated =>
      cases hs
      exact h.ends (resetPassword_issues pk validated) fun _ _ => resetPassword_gone
  | updatePassword userId validated =>
      cases hs
      exact h.ends (updatePassword_issues userId validated) fun _ _ => updatePassword_gone
  | delete pk =>
      cases hs
      exact h.ends (delete_issues pk) fun _ _ => delete_gone

end SessionHistory
open SessionHistory

/--
A session that has been ended by a logout, a forced logout, a change of the password or
the deletion of its user is accepted nowhere, when no run takes a forced logout, or a
logout without the refresh cookie, of a session whose refresh token is in Redis.
-/
theorem ended_sessions_rejected (cfg : AuthSettings) (users : List User) (s : SessionHistory)
    (hrun : Reaches (SessionHistory.step cfg) RefreshGone (initial users) s) (t : Token)
    (hended : (t.sub, t.sessionUuid) ∈ s.ended) :
    (forall {Detail : Type} (getJwtUser : Nat -> AuthAction Detail) now,
      ¬ s.auth.Accepts (jwtAuthentication getJwtUser now (.signed t))) ∧
    forall now uuid client,
      ¬ s.auth.Accepts (AuthService.refreshToken cfg now uuid client (some (.signed t))) := by
  have hinv : s.EndedGone :=
    hrun.invariant SessionHistory.EndedGone (initial_endedGone users) fun h => h.step
  rcases hinv.gone _ hended with ⟨-, htoken, hrefresh⟩
  constructor
  · intro Detail getJwtUser now
    exact jwtAuthentication_rejects getJwtUser now htoken
  · intro now uuid client
    exact refreshToken_rejects hrefresh

def sampleLogin : SessionRequest :=
  .login 1 ['u'] sampleClient ['a'] (.ok ()) (.ok ())

theorem ended_sessions_rejected_logout : exists s,
    Reaches (SessionHistory.step sampleAuthSettings) RefreshGone (initial [sampleUser]) s ∧
      (1, ['u']) ∈ s.ended ∧
      ¬ s.auth.Accepts (AuthService.refreshToken sampleAuthSettings 2 ['v'] sampleClient
        (some (.signed sampleRefreshToken))) := by
  obtain ⟨s, hrun, hended⟩ := exists_reaches (SessionHistory.step sampleAuthSettings)
    RefreshGone (initial [sampleUser])
    [sampleLogin, .logout 2 (some (.signed ⟨['u'], 86401, 1⟩)) true]
    (fun s => (1, ['u']) ∈ s.ended) (by decide +kernel)
  exact ⟨s, hrun, hended, (ended_sessions_rejected sampleAuthSettings [sampleUser] s hrun
    sampleRefreshToken hended).2 2 ['v'] sampleClient⟩

/-- The refresh token of a session survives its forced logout. -/
theorem ended_sessions_rejected_fails : exists s,
    Reaches (SessionHistory.step sampleAuthSettings) (fun _ _ => True)
      (initial [sampleUser]) s ∧
      (1, ['u']) ∈ s.ended ∧
      s.auth.Accepts (AuthService.refreshToken sampleAuthSettings 3 ['v'] sampleClient
        (some (.signed sampleRefreshToken))) := by
  obtain ⟨s, hrun, hended, haccepts⟩ := exists_reaches (SessionHistory.step sampleAuthSettings)
    (fun _ _ => True) (initial [sampleUser]) [sampleLogin, .deleteSession 1 ['u']]
    (fun s => (1, ['u']) ∈ s.ended ∧
      ((AuthService.refreshToken sampleAuthSettings 3 ['v'] sampleClient
        (some (.signed sampleRefreshToken))).run AuthState.exec s.auth).2.isOk = true)
    (by decide +kernel)
  refine ⟨s, hrun, hended, ?_⟩
  unfold AuthState.Accepts
  revert haccepts
  cases ((AuthService.refreshToken sampleAuthSettings 3 ['v'] sampleClient
    (some (.signed sampleRefreshToken))).run AuthState.exec s.auth).2 with
  | ok new =>
      intro _
      exact ⟨new, rfl⟩
  | error e =>
      intro h
      cases h

end RagService
