import RagService.Auth.Sessions

/-!
# Interleaved logins and refreshes

Calls of `login` and `refresh_token` that are interleaved at their commands, with the
progress of each call: how far it has come in exchanging a refresh token and in replacing
the keys of the user.
-/

namespace RagService

open Interleaving

inductive SessionCall where
  | login (now : Nat) (uuid : Text) (client : Client) (username : Text)
      (captcha verified : Except AuthError Unit)
  | refreshToken (now : Nat) (uuid : Text) (client : Client) (cookie : Option Credential)

namespace SessionCall

def uuid : SessionCall -> Text
  | login _ uuid _ _ _ _ | refreshToken _ uuid _ _ => uuid

/-- The refresh token in the cookie of the call. -/
def Presents (op : SessionCall) (t : Token) : Prop :=
  match op with
  | login _ _ _ _ _ _ => False
  | refreshToken _ _ _ cookie => cookie = some (.signed t)

instance (op : SessionCall) (t : Token) : Decidable (op.Presents t) :=
  match op with
  | login _ _ _ _ _ _ => .isFalse id
  | refreshToken _ _ _ cookie => inferInstanceAs (Decidable (cookie = some (.signed t)))

theorem Presents.unique {op : SessionCall} {t t' : Token} (h : op.Presents t)
    (h' : op.Presents t') : t = t' := by
  cases op with
  | login => cases h
  | refreshToken now uuid client cookie =>
      unfold Presents at h h'
      dsimp only at h h'
      rw [h] at h'
      cases h'
      rfl

def body (cfg : AuthSettings) : SessionCall -> AuthAction Unit
  | login now uuid client username captcha verified => do
      let _ ← AuthService.login cfg now uuid client username captcha verified
  | refreshToken now uuid client cookie => do
      let _ ← AuthService.refreshToken cfg now uuid client cookie

end SessionCall

inductive CallProgress where
  | checking
  /-- the refresh token is the stored one, and not yet deleted -/
  | matched (t : Token)
  /-- the refresh token is deleted -/
  | exchanged (t : Token)
  /-- `delete_by_prefix` has scanned the keys of the user; these are left to delete -/
  | clearing (family : KeyFamily) (userId : Nat) (left : List Key)
  /-- the access token is set -/
  | opened (userId : Nat)
  /-- the refresh token is set -/
  | stored (userId : Nat)
  deriving DecidableEq

def CallProgress.next (op : SessionCall) (g : CallProgress) :
    (c : AuthCommand) -> Except AuthError c.Result -> CallProgress
  | .get key, .ok (some (.token t)) =>
      if op.Presents t ∧ key = refreshKey t.sub t.sessionUuid then matched t else g
  | .delete keys, _ =>
      match g with
      | matched t => exchanged t
      | clearing family userId left => clearing family userId (left.filter (· ∉ keys))
      | _ => g
  | .scanIter family userId none, .ok keys => clearing family userId keys
  | .set key _, _ =>
      match key.family with
      | .token => opened key.userId
      | .refreshToken => stored key.userId
      | _ => g
  | _, _ => g

def sessionCalls (cfg : AuthSettings) :
    CallSystem authInterface AuthState SessionCall Unit CallProgress where
  exec := AuthState.exec
  body := SessionCall.body cfg
  start := .checking
  next := CallProgress.next

/-- The user may not have several sessions. -/
def AuthState.SingleLogin (s : AuthState) (userId : Nat) : Prop :=
  forall user, user ∈ s.users -> user.id = userId -> user.isMultiLogin = false

instance (s : AuthState) (userId : Nat) : Decidable (s.SingleLogin userId) :=
  inferInstanceAs (Decidable (forall user, user ∈ s.users -> _))

/-!
# The protocol of a call

The commands of a call at a progress: the keys of a user without several sessions are scanned
and deleted before one is set, and a refresh token is looked up before it is exchanged.
-/

namespace CallProgress

variable {single : Nat -> Prop} {op : SessionCall}

inductive Ready (op : SessionCall) : CallProgress -> Prop where
  | login (h : forall t, ¬ op.Presents t) : Ready op .checking
  | exchanged (t : Token) : Ready op (.exchanged t)

/--
The commands of a call at a progress: the keys of a user without several sessions are
scanned and deleted before one is set.
-/
def Allowed (single : Nat -> Prop) (op : SessionCall) (g : CallProgress) :
    AuthCommand -> Prop
  | .get _ => g = .checking
  | .set key _ =>
      key.sessionUuid = some op.uuid ∧
        match key.family with
        | .token => g.Ready op ∧ ¬ single key.userId ∨ g = .clearing .token key.userId []
        | .tokenExtraInfo => exists userId, g = .opened userId
        | .refreshToken =>
            g = .opened key.userId ∧ ¬ single key.userId ∨
              g = .clearing .refreshToken key.userId []
        | .jwtUser => False
  | .delete keys =>
      match g with
      | .matched t => keys = [refreshKey t.sub t.sessionUuid]
      | .exchanged _ | .clearing _ _ _ => True
      | _ => False
  | .scanIter family userId none =>
      family = .token ∧ g.Ready op ∨ family = .refreshToken ∧ g = .opened userId
  | .scanIter _ _ (some _) | .exists _ => True
  | .getUser _ | .getUserByUsername _ | .updateLoginTime _ _ | .refreshUser _ => True
  | .deleteUser _ => False

def Possible (single : Nat -> Prop) :
    (c : AuthCommand) -> Except AuthError c.Result -> Prop
  | .getUser id, r => exists found : Option User, r = .ok found ∧
      forall user, found = some user ->
        user.id = id ∧ (single user.id -> user.isMultiLogin = false)
  | .getUserByUsername _, r | .refreshUser _, r =>
      exists found : Option User, r = .ok found ∧
        forall user, found = some user -> single user.id -> user.isMultiLogin = false
  | _, r => exists a, r = .ok a

def Ends (g : CallProgress) : Except AuthError Unit -> Prop
  | .ok _ => exists userId, g = .stored userId
  | .error _ => g = .checking

def protocol (single : Nat -> Prop) (op : SessionCall) : Protocol authInterface CallProgress :=
  ⟨Allowed single op, Possible single, CallProgress.next op⟩

/-!
# The services follow the protocol

Every call follows the protocol from its start to its end.  The loops over scanned keys delete
what is left of the scan, and a command with a single possible kind of result does not raise.
-/

variable {g : CallProgress} {α : Type}

theorem not_possible_error {c : AuthCommand} {e : AuthError}
    (h : Possible single c (.error e)) : False := by
  cases c with
  | getUser _ | getUserByUsername _ | refreshUser _ =>
      rcases h with ⟨a, ha, -⟩
      cases ha
  | _ =>
      rcases h with ⟨a, ha⟩
      cases ha

theorem follows_command (c : AuthCommand) {Q : CallProgress -> Except AuthError α -> Prop}
    {f : c.Result -> AuthAction α} (hallowed : Allowed single op g c)
    (hok : forall a, Possible single c (.ok a) ->
      (protocol single op).Follows Q (CallProgress.next op g c (.ok a)) (f a)) :
    (protocol single op).Follows Q g
      ((Program.issue (I := authInterface) c).bind f) :=
  Protocol.follows_issue_bind (T := protocol single op) (I := authInterface) c hallowed hok
    fun _ he => absurd he not_possible_error

theorem deleteScanned_follows {family : KeyFamily} {userId batchSize : Nat}
    {left batch keys : List Key} (hleft : forall key, key ∈ left -> key ∈ batch ∨ key ∈ keys) :
    (protocol single op).Follows
      (fun g r => r = .ok () ∧ g = .clearing family userId []) (.clearing family userId left)
      (RedisCli.deleteScanned AuthAction.delete [] batchSize batch keys) := by
  induction keys generalizing left batch with
  | nil =>
      have hbatch : forall key, key ∈ left -> key ∈ batch := fun key hkey =>
        (hleft key hkey).resolve_right List.not_mem_nil
      unfold RedisCli.deleteScanned
      split
      · rename_i hempty
        have hnone : left = [] := by
          rw [List.isEmpty_iff.mp hempty] at hbatch
          exact List.eq_nil_iff_forall_not_mem.mpr fun key hkey =>
            List.not_mem_nil (hbatch key hkey)
        rw [hnone]
        exact ⟨rfl, rfl⟩
      · refine ⟨trivial, fun r hr => ?_⟩
        rcases hr with ⟨a, rfl⟩
        refine ⟨rfl, ?_⟩
        have hfilter : left.filter (· ∉ batch) = [] := by
          rw [List.filter_eq_nil_iff]
          intro key hkey
          simp [hbatch key hkey]
        show CallProgress.clearing family userId (left.filter (· ∉ batch)) = _
        rw [hfilter]
  | cons key rest ih =>
      unfold RedisCli.deleteScanned
      split
      · rename_i hexcluded
        cases hexcluded
      · split
        · refine follows_command (.delete (batch ++ [key])) trivial fun _ _ => ?_
          apply ih
          intro key' hkey'
          rcases List.mem_filter.mp hkey' with ⟨hmem, hnot⟩
          have hnot : key' ∉ batch ++ [key] := of_decide_eq_true hnot
          cases hleft key' hmem with
          | inl hbatch => exact absurd (List.mem_append_left _ hbatch) hnot
          | inr hkeys =>
              cases List.mem_cons.mp hkeys with
              | inl heq =>
                  rw [heq] at hnot
                  exact absurd (List.mem_append_right _ List.mem_cons_self) hnot
              | inr hrest => exact .inr hrest
        · apply ih
          intro key' hkey'
          cases hleft key' hkey' with
          | inl hbatch => exact .inl (List.mem_append_left _ hbatch)
          | inr hkeys =>
              cases List.mem_cons.mp hkeys with
              | inl heq =>
                  rw [heq]
                  exact .inl (List.mem_append_right _ List.mem_cons_self)
              | inr hrest => exact .inr hrest

theorem deleteByPrefix_follows {family : KeyFamily} {userId batchSize : Nat}
    (hready : family = .token ∧ g.Ready op ∨ family = .refreshToken ∧ g = .opened userId) :
    (protocol single op).Follows (fun g r => r = .ok () ∧ g = .clearing family userId []) g
      (deleteByPrefix family userId [] batchSize) := by
  refine follows_command (.exists ⟨family, userId, none⟩) trivial fun found _ => ?_
  refine follows_command (.scanIter family userId none) hready fun keys _ => ?_
  exact deleteScanned_follows fun key hkey => .inr hkey

theorem createAccessToken_follows {cfg : AuthSettings} {now userId : Nat} {multiLogin : Bool}
    {extra : List (Text × Json)} (hready : g.Ready op)
    (hsingle : single userId -> multiLogin = false) :
    (protocol single op).Follows
      (fun g r => exists access, r = .ok access ∧ access.sessionUuid = op.uuid ∧
        g = .opened userId) g
      (createAccessToken cfg now op.uuid userId multiLogin extra) := by
  let token : Token := ⟨op.uuid, now + cfg.tokenExpireSeconds, userId⟩
  let access : AccessToken := ⟨token, now + cfg.tokenExpireSeconds, op.uuid⟩
  have hset : forall g' : CallProgress,
      g'.Ready op ∧ ¬ single userId ∨ g' = .clearing .token userId [] ->
      (protocol single op).Follows
        (fun g r => exists access, r = .ok access ∧ access.sessionUuid = op.uuid ∧
          g = .opened userId) g'
        ((AuthAction.set (tokenKey userId op.uuid) (.token token)).bind fun _ =>
          if (!extra.isEmpty) = true then
            (AuthAction.set (extraInfoKey userId op.uuid)
              (.text ((Json.obj extra).dumps false))).bind fun _ => Program.ret access
          else Program.ret access) := by
    intro g' hg'
    refine follows_command (.set (tokenKey userId op.uuid) _) ⟨rfl, hg'⟩ fun _ _ => ?_
    split
    · refine follows_command (.set (extraInfoKey userId op.uuid) _) ⟨rfl, userId, rfl⟩
        fun _ _ => ?_
      exact ⟨access, rfl, rfl, rfl⟩
    · exact ⟨access, rfl, rfl, rfl⟩
  unfold createAccessToken
  cases multiLogin with
  | false =>
      apply Protocol.follows_bind (deleteByPrefix_follows (.inl ⟨rfl, hready⟩))
      · intro g' _ hg'
        exact hset g' (.inr hg'.2)
      · intro g' e hg'
        cases hg'.1
  | true => exact hset _ (.inl ⟨hready, fun h => nomatch hsingle h⟩)

theorem createRefreshToken_follows {cfg : AuthSettings} {now userId : Nat} {multiLogin : Bool}
    (hsingle : single userId -> multiLogin = false) :
    (protocol single op).Follows
      (fun g r => exists refresh, r = .ok refresh ∧ g = .stored userId) (.opened userId)
      (createRefreshToken cfg now op.uuid userId multiLogin) := by
  have hset : forall g' : CallProgress,
      g' = .opened userId ∧ ¬ single userId ∨ g' = .clearing .refreshToken userId [] ->
      (protocol single op).Follows
        (fun g r => exists refresh, r = .ok refresh ∧ g = .stored userId) g'
        ((AuthAction.set (refreshKey userId op.uuid) (.token ⟨op.uuid, now +
          cfg.tokenRefreshExpireSeconds, userId⟩)).bind fun _ => Program.ret
            (⟨⟨op.uuid, now + cfg.tokenRefreshExpireSeconds, userId⟩, now +
              cfg.tokenRefreshExpireSeconds⟩ : RefreshToken)) := by
    intro g' hg'
    refine follows_command (.set (refreshKey userId op.uuid) _) ⟨rfl, hg'⟩ fun _ _ => ?_
    exact ⟨_, rfl, rfl⟩
  unfold createRefreshToken
  cases multiLogin with
  | false =>
      apply Protocol.follows_bind (deleteByPrefix_follows (.inr ⟨rfl, rfl⟩))
      · intro g' _ hg'
        exact hset g' (.inr hg'.2)
      · intro g' e hg'
        cases hg'.1
  | true => exact hset _ (.inl ⟨rfl, fun h => nomatch hsingle h⟩)

theorem createTokens_follows {cfg : AuthSettings} {now userId : Nat} {multiLogin : Bool}
    {extra : List (Text × Json)} {β : Type} (hready : g.Ready op)
    (hsingle : single userId -> multiLogin = false) (f : AccessToken -> RefreshToken -> β) :
    (protocol single op).Follows (fun g r => exists b, r = .ok b ∧ g = .stored userId) g
      ((createAccessToken cfg now op.uuid userId multiLogin extra).bind fun access =>
        (createRefreshToken cfg now access.sessionUuid userId multiLogin).bind fun refresh =>
          Program.ret (f access refresh)) := by
  apply Protocol.follows_bind (createAccessToken_follows hready hsingle)
  · intro g' access hg'
    rcases hg' with ⟨access', haccess, huuid, rfl⟩
    cases haccess
    rw [huuid]
    apply Protocol.follows_bind (createRefreshToken_follows hsingle)
    · intro g' refresh hg'
      rcases hg' with ⟨_, _, rfl⟩
      exact ⟨_, rfl, rfl⟩
    · intro g' e hg'
      rcases hg' with ⟨_, hok, _⟩
      cases hok
  · intro g' e hg'
    rcases hg' with ⟨_, hok, _⟩
    cases hok

def EndsLike {β : Type} (g : CallProgress) : Except AuthError β -> Prop
  | .ok _ => exists userId, g = .stored userId
  | .error _ => g = .checking

theorem createNewToken_follows {cfg : AuthSettings} {now : Nat} {t : Token} {userId : Nat}
    {multiLogin : Bool} {extra : List (Text × Json)} (hpresents : op.Presents t)
    (huser : userId = t.sub) (hsingle : single userId -> multiLogin = false) :
    (protocol single op).Follows EndsLike .checking
      (createNewToken cfg now op.uuid t t.sessionUuid userId multiLogin extra) := by
  subst huser
  refine follows_command (.get (refreshKey t.sub t.sessionUuid)) rfl fun stored _ => ?_
  dsimp only
  split
  · -- another token is stored, or none: nothing has been matched
    rename_i hne
    show CallProgress.next op .checking (.get (refreshKey t.sub t.sessionUuid)) (.ok stored) =
      .checking
    cases stored with
    | none => rfl
    | some value =>
        cases value with
        | text s => rfl
        | token t' =>
            show (if op.Presents t' ∧ _ then _ else _) = _
            rw [if_neg]
            intro hmatch
            rw [hpresents.unique hmatch.1] at hne
            exact hne rfl
  · rename_i heq
    have hstored : stored = some (.token t) := not_not.mp heq
    subst hstored
    have hnext : CallProgress.next op .checking (.get (refreshKey t.sub t.sessionUuid))
        (.ok (some (.token t))) = .matched t := if_pos ⟨hpresents, rfl⟩
    rw [hnext]
    refine follows_command (.delete [refreshKey t.sub t.sessionUuid]) rfl fun _ _ => ?_
    refine follows_command (.delete [tokenKey t.sub t.sessionUuid]) trivial fun _ _ => ?_
    apply Protocol.follows_mono (createTokens_follows (.exchanged t) hsingle _)
    intro g' o ho
    rcases ho with ⟨b, rfl, hg'⟩
    exact ⟨_, hg'⟩

theorem ofExcept_follows {β γ : Type} (r : Except AuthError β) {f : β -> AuthAction γ}
    (hok : forall b, r = .ok b -> (protocol single op).Follows EndsLike .checking (f b)) :
    (protocol single op).Follows EndsLike .checking ((AuthAction.ofExcept r).bind f) := by
  cases r with
  | ok b => exact hok b rfl
  | error e => rfl

theorem lastLoginText_follows {β : Type} (cfg : AuthSettings) (user : User)
    {f : Text -> AuthAction β}
    (hok : forall text, (protocol single op).Follows EndsLike .checking (f text)) :
    (protocol single op).Follows EndsLike .checking ((lastLoginText cfg user).bind f) := by
  unfold lastLoginText
  split
  · exact hok _
  · rfl

theorem login_follows {cfg : AuthSettings} {now : Nat} {uuid username : Text} {client : Client}
    {captcha verified : Except AuthError Unit}
    (hop : op = .login now uuid client username captcha verified) :
    (protocol single op).Follows EndsLike .checking
      (AuthService.login cfg now uuid client username captcha verified) := by
  have huuid : uuid = op.uuid := by rw [hop]; rfl
  have hready : CallProgress.checking.Ready op := .login fun t ht => by
    rw [hop] at ht
    exact ht
  unfold AuthService.login
  refine ofExcept_follows captcha fun _ _ => ?_
  refine follows_command (.getUserByUsername username) trivial fun found _ => ?_
  cases found with
  | none => rfl
  | some found =>
      dsimp only
      split
      · rfl
      · refine ofExcept_follows verified fun _ _ => ?_
        refine follows_command (.updateLoginTime username now) trivial fun _ _ => ?_
        refine follows_command (.refreshUser found.id) trivial fun refreshed hrow => ?_
        cases refreshed with
        | none => rfl
        | some user =>
            rcases hrow with ⟨row, hrow, hsingle⟩
            have hsame : some user = row := Except.ok.inj hrow
            refine lastLoginText_follows cfg user fun lastLogin => ?_
            rw [huuid]
            apply Protocol.follows_mono
              (createTokens_follows hready (hsingle user hsame.symm) _)
            intro g' o ho
            rcases ho with ⟨b, rfl, hg'⟩
            exact ⟨_, hg'⟩

theorem refreshToken_follows {cfg : AuthSettings} {now : Nat} {uuid : Text} {client : Client}
    {cookie : Option Credential} (hop : op = .refreshToken now uuid client cookie) :
    (protocol single op).Follows EndsLike .checking
      (AuthService.refreshToken cfg now uuid client cookie) := by
  have huuid : uuid = op.uuid := by rw [hop]; rfl
  unfold AuthService.refreshToken
  cases cookie with
  | none => rfl
  | some credential =>
      refine ofExcept_follows (jwtDecode now credential) fun payload hdecode => ?_
      have hpresents : op.Presents payload := by
        rw [hop, jwtDecode_signed hdecode]
        exact rfl
      refine follows_command (.getUser payload.sub) trivial fun found hrow => ?_
      cases found with
      | none => rfl
      | some user =>
          rcases hrow with ⟨row, hrow, hfacts⟩
          have hsame : some user = row := Except.ok.inj hrow
          rcases hfacts user hsame.symm with ⟨hid, hsingle⟩
          dsimp only
          split
          · rfl
          · refine follows_command (.scanIter .token user.id (some 100)) trivial
              fun tokenKeys _ => ?_
            split
            · rfl
            · refine lastLoginText_follows cfg user fun lastLogin => ?_
              rw [huuid]
              exact createNewToken_follows hpresents hid hsingle

/-- Every call follows the protocol from its start to its end. -/
theorem body_follows (cfg : AuthSettings) (op : SessionCall) :
    (protocol single op).Follows Ends .checking (op.body cfg) := by
  cases op with
  | login now uuid client username captcha verified =>
      exact Protocol.follows_bind (login_follows rfl) (fun _ _ hg => hg) fun _ _ hg => hg
  | refreshToken now uuid client cookie =>
      exact Protocol.follows_bind (refreshToken_follows rfl) (fun _ _ hg => hg) fun _ _ hg => hg

/-!
# What one command does

A command of a call that follows the protocol does one of a few things to Redis and to the
progress of the call.
-/

inductive Moves (single : Nat -> Prop) (op : SessionCall) (s s' : Redis) :
    CallProgress -> CallProgress -> Prop where
  | look {g : CallProgress} (hsame : s' = s) : Moves single op s s' g g
  | match {t : Token} (hsame : s' = s) (hpresents : op.Presents t)
      (hstored : s.lookup (refreshKey t.sub t.sessionUuid) = some (.token t)) :
      Moves single op s s' .checking (.matched t)
  | spend {t : Token} (hdelete : s' = s.delete [refreshKey t.sub t.sessionUuid]) :
      Moves single op s s' (.matched t) (.exchanged t)
  | drop {t : Token} {keys : List Key} (hdelete : s' = s.delete keys) :
      Moves single op s s' (.exchanged t) (.exchanged t)
  | scan {g : CallProgress} {family : KeyFamily} {userId : Nat} (hsame : s' = s)
      (hready : family = .token ∧ g.Ready op ∨ family = .refreshToken ∧ g = .opened userId) :
      Moves single op s s' g (.clearing family userId (s.scan family userId))
  | clear {family : KeyFamily} {userId : Nat} {left keys : List Key}
      (hdelete : s' = s.delete keys) :
      Moves single op s s' (.clearing family userId left)
        (.clearing family userId (left.filter (· ∉ keys)))
  | open {g : CallProgress} {userId : Nat} {value : Value}
      (hset : s' = s.insert (tokenKey userId op.uuid) value)
      (hready : g.Ready op ∧ ¬ single userId ∨ g = .clearing .token userId []) :
      Moves single op s s' g (.opened userId)
  | extra {userId : Nat} {key : Key} {value : Value} (hset : s' = s.insert key value)
      (hkey : key.family = .tokenExtraInfo) :
      Moves single op s s' (.opened userId) (.opened userId)
  | store {g : CallProgress} {userId : Nat} {value : Value}
      (hset : s' = s.insert (refreshKey userId op.uuid) value)
      (hready : g = .opened userId ∧ ¬ single userId ∨
        g = .clearing .refreshToken userId []) :
      Moves single op s s' g (.stored userId)

theorem Moves.of_allowed {s : AuthState} {c : AuthCommand} (h : Allowed single op g c) :
    Moves single op s.redis (AuthState.exec c s).1.redis g
      (CallProgress.next op g c (AuthState.exec c s).2) := by
  cases c with
  | get key =>
      have hchecking : g = .checking := h
      subst hchecking
      show Moves single op s.redis s.redis .checking
        (CallProgress.next op .checking (.get key) (.ok (s.redis.lookup key)))
      cases hlookup : s.redis.lookup key with
      | none => exact .look rfl
      | some value =>
          cases value with
          | text text => exact .look rfl
          | token t =>
              show Moves single op s.redis s.redis .checking
                (if op.Presents t ∧ key = refreshKey t.sub t.sessionUuid then .matched t
                  else .checking)
              split
              · rename_i hmatch
                rw [hmatch.2] at hlookup
                exact .match rfl hmatch.1 hlookup
              · exact .look rfl
  | set key value =>
      rcases key with ⟨family, userId, sessionUuid⟩
      rcases h with ⟨huuid, hkey⟩
      have hsession : sessionUuid = some op.uuid := huuid
      subst hsession
      cases family with
      | token => exact .open rfl hkey
      | tokenExtraInfo =>
          rcases hkey with ⟨user, rfl⟩
          exact .extra rfl rfl
      | refreshToken => exact .store rfl hkey
      | jwtUser => exact absurd hkey id
  | delete keys =>
      cases g with
      | matched t =>
          have hkeys : keys = [refreshKey t.sub t.sessionUuid] := h
          subst hkeys
          exact .spend rfl
      | exchanged t => exact .drop rfl
      | clearing family userId left => exact .clear rfl
      | checking | opened userId | stored userId => exact absurd h id
  | scanIter family userId count =>
      cases count with
      | none => exact .scan rfl h
      | some n => exact .look rfl
  | «exists» key => exact .look rfl
  | getUser id => exact .look rfl
  | getUserByUsername username => exact .look rfl
  | updateLoginTime username now => exact .look rfl
  | refreshUser id => exact .look rfl
  | deleteUser pk => exact absurd h id

end CallProgress

/-!
# The users

No command changes which users may have several sessions.
-/

theorem AuthState.updateUsers_singleLogin {s : AuthState} {p : User -> Bool} {f : User -> User}
    (hid : forall user, (f user).id = user.id)
    (hmulti : forall user, (f user).isMultiLogin = user.isMultiLogin) (userId : Nat) :
    (s.updateUsers p f).SingleLogin userId ↔ s.SingleLogin userId := by
  have hkeeps : forall user : User, (if p user then f user else user).id = user.id ∧
      (if p user then f user else user).isMultiLogin = user.isMultiLogin := by
    intro user
    split
    · exact ⟨hid user, hmulti user⟩
    · exact ⟨rfl, rfl⟩
  constructor
  · intro h user huser hsame
    rw [← (hkeeps user).2]
    apply h
    · exact List.mem_map_of_mem huser
    · rw [(hkeeps user).1, hsame]
  · intro h user huser hsame
    rcases List.mem_map.mp huser with ⟨row, hrow, rfl⟩
    rw [(hkeeps row).2]
    apply h row hrow
    rw [← (hkeeps row).1, hsame]

theorem AuthState.singleLogin_exec (c : AuthCommand) (s : AuthState) (userId : Nat) :
    (AuthState.exec c s).1.SingleLogin userId ↔ s.SingleLogin userId := by
  cases c with
  | updateLoginTime username now =>
      apply updateUsers_singleLogin <;> exact fun _ => rfl
  | deleteUser pk => apply updateUsers_singleLogin <;> exact fun _ => rfl
  | _ => exact Iff.rfl

theorem CallProgress.possible_exec {single : Nat -> Prop} {s : AuthState}
    (hsingle : forall userId, single userId -> s.SingleLogin userId) (c : AuthCommand) :
    Possible single c (AuthState.exec c s).2 := by
  have hrow : forall user : User, user ∈ s.users -> single user.id -> user.isMultiLogin = false :=
    fun user huser h => hsingle user.id h user huser rfl
  cases c with
  | getUser pk =>
      refine ⟨s.liveUser pk, rfl, fun user huser => ?_⟩
      rcases AuthState.liveUser_mem huser with ⟨hmem, hid⟩
      exact ⟨hid, hrow user hmem⟩
  | getUserByUsername username =>
      refine ⟨s.liveUserByUsername username, rfl, fun user huser => ?_⟩
      exact hrow user (List.mem_of_find?_eq_some huser)
  | refreshUser pk =>
      refine ⟨s.users.find? fun u => u.id = pk, rfl, fun user huser => ?_⟩
      exact hrow user (List.mem_of_find?_eq_some huser)
  | _ => exact ⟨_, rfl⟩

end RagService
