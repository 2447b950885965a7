import RagService.Auth.Concurrency

/-!
# Refresh tokens are used once, and one session at a time

Neither the comparison of a refresh token with its deletion nor the replacement of the
keys of a user is atomic.  Both rules hold as long as no other call comes in between.
-/

namespace RagService

open Interleaving Transitions CallProgress

abbrev SessionConfig := Calls authInterface AuthState SessionCall Unit CallProgress

abbrev RunningCall := Call authInterface SessionCall Unit CallProgress

namespace SessionConfig

def initial (users : List User) : SessionConfig := ⟨⟨∅, users⟩, []⟩

def Has (cfg : SessionConfig) (op : SessionCall) (g : CallProgress) : Prop :=
  exists call, call ∈ cfg.calls ∧ call.op = op ∧ call.progress = g

end SessionConfig

def Redis.Holds (s : Redis) (family : KeyFamily) (userId : Nat) (sessionUuid : Text) : Prop :=
  (⟨family, userId, some sessionUuid⟩ : Key) ∈ s

instance (s : Redis) (family : KeyFamily) (userId : Nat) (sessionUuid : Text) :
    Decidable (s.Holds family userId sessionUuid) :=
  inferInstanceAs (Decidable ((⟨family, userId, some sessionUuid⟩ : Key) ∈ s))

theorem Redis.holds_delete {s : Redis} {keys : List Key} {family : KeyFamily} {userId : Nat}
    {sessionUuid : Text} (h : (s.delete keys).Holds family userId sessionUuid) :
    s.Holds family userId sessionUuid ∧
      (⟨family, userId, some sessionUuid⟩ : Key) ∉ keys := by
  rcases Option.isSome_iff_exists.mp (AList.lookup_isSome.mpr h) with ⟨value, hvalue⟩
  constructor
  · exact AList.lookup_isSome.mp (by rw [Redis.lookup_of_delete hvalue]; rfl)
  · intro hmem
    rw [Redis.lookup_delete_of_mem hmem] at hvalue
    cases hvalue

def CallProgress.matchedToken : CallProgress -> Option Token
  | .matched t => some t
  | _ => none

/-- The call has scanned the keys of the family, and has not yet set its own. -/
def CallProgress.Clearing (g : CallProgress) (family : KeyFamily) (userId : Nat) : Prop :=
  match g with
  | .clearing family' userId' _ => family' = family ∧ userId' = userId
  | _ => False

instance (g : CallProgress) (family : KeyFamily) (userId : Nat) :
    Decidable (g.Clearing family userId) := by
  unfold CallProgress.Clearing
  split <;> infer_instance

namespace SessionConfig

/-!
# Conditions

`uuid4` values are fresh, and the other calls do not come in between.
-/

def FreshUuids (cfg : SessionConfig) : CallAction SessionCall -> Prop
  | .start op => forall call, call ∈ cfg.calls -> call.op.uuid ≠ op.uuid
  | .advance _ => True

/--
What the other calls are not doing when a call issues a command.  At the comparison of a
refresh token none of them has compared the token and not yet deleted it.  When a token of
a user without several sessions is set, none of them is between its scan of the same keys
and its own set; and when it is a refresh token, the access token of another session is
there only while the call of that session has yet to scan the refresh tokens.
-/
def Alone (cfg : SessionConfig) (op : SessionCall) : AuthCommand -> Prop
  | .get key =>
      forall call, call ∈ cfg.calls -> call.op.uuid ≠ op.uuid ->
        forall t, t ∈ call.progress.matchedToken -> op.Presents t ->
          cfg.shared.redis.lookup key ≠ some (.token t)
  | .set key _ =>
      cfg.shared.SingleLogin key.userId ->
        (forall call, call ∈ cfg.calls -> call.op.uuid ≠ op.uuid ->
          ¬ call.progress.Clearing key.family key.userId) ∧
        (key.family = .refreshToken ->
          forall stored, stored ∈ cfg.shared.redis.scan .token key.userId ->
            stored.sessionUuid ≠ key.sessionUuid ->
              exists call, call ∈ cfg.calls ∧ stored.sessionUuid = some call.op.uuid ∧
                call.progress = .opened key.userId)
  | _ => True

def NoOverlap (cfg : SessionConfig) : CallAction SessionCall -> Prop
  | .start op => cfg.FreshUuids (.start op)
  | .advance i =>
      match cfg.calls[i]? with
      | some ⟨op, .call c _, _⟩ => cfg.Alone op c
      | _ => True

instance (cfg : SessionConfig) : (a : CallAction SessionCall) -> Decidable (cfg.FreshUuids a)
  | .start _ => inferInstanceAs (Decidable (forall call, call ∈ cfg.calls -> _))
  | .advance _ => .isTrue trivial

instance decidableAlone (cfg : SessionConfig) (op : SessionCall) (c : AuthCommand) :
    Decidable (cfg.Alone op c) :=
  match c with
  | .get _ | .set _ _ => by
      unfold Alone
      infer_instance
  | .delete _ | .exists _ | .scanIter .. | .getUser _ | .getUserByUsername _
  | .updateLoginTime .. | .refreshUser _ | .deleteUser _ => .isTrue trivial

instance (cfg : SessionConfig) : (a : CallAction SessionCall) -> Decidable (cfg.NoOverlap a)
  | .start op => inferInstanceAs (Decidable (cfg.FreshUuids (.start op)))
  | .advance _ => by
      unfold NoOverlap
      dsimp only
      split
      · rename_i op c k g hcall
        exact decidableAlone cfg op c
      · infer_instance

end SessionConfig

/-!
# What the calls keep

The calls in progress say which keys are in Redis: a call that has stored its refresh token
issues no more commands that matter, and one that presents a refresh token begins by finding
it.
-/

structure TokensKept (single : Nat -> Prop) (s : Redis)
    (Has : SessionCall -> CallProgress -> Prop) : Prop where
  /-- a refresh token is compared by the call that presents it -/
  presented : forall op t, Has op (.matched t) -> op.Presents t
  /-- a refresh token in Redis has been set by the call of its session -/
  issued : forall userId sessionUuid, s.Holds .refreshToken userId sessionUuid ->
    exists op userId', Has op (.stored userId') ∧ op.uuid = sessionUuid
  known : forall op g t, Has op g -> op.Presents t -> g ≠ .checking ->
    exists op' userId, Has op' (.stored userId) ∧ op'.uuid = t.sessionUuid
  once : forall op g op' g' t, Has op g -> Has op' g' -> op.Presents t -> op'.Presents t ->
    g ≠ .checking -> g' ≠ .checking -> op.uuid = op'.uuid
  /-- a refresh token that has been deleted does not come back -/
  spent : forall op g t, Has op g -> op.Presents t -> g ≠ .checking -> g ≠ .matched t ->
    s.lookup (refreshKey t.sub t.sessionUuid) ≠ some (.token t)
  /-- what a scan has missed is not there -/
  cleared : forall op family userId left, Has op (.clearing family userId left) ->
    single userId -> family ≠ .tokenExtraInfo ->
      forall sessionUuid, s.Holds family userId sessionUuid ->
        (⟨family, userId, some sessionUuid⟩ : Key) ∈ left
  oneToken : forall userId a b, single userId -> s.Holds .token userId a ->
    s.Holds .token userId b -> a = b
  oneRefresh : forall userId a b, single userId -> s.Holds .refreshToken userId a ->
    s.Holds .refreshToken userId b -> a = b
  /-- tokens of two sessions are there only while the call of the newer one goes on -/
  same : forall userId a b, single userId -> s.Holds .token userId a ->
    s.Holds .refreshToken userId b -> a ≠ b ->
      exists op g, Has op g ∧ op.uuid = a ∧
        (g = .opened userId ∨ g.Clearing .refreshToken userId)

structure Undisturbed (single : Nat -> Prop) (s : Redis)
    (Has : SessionCall -> CallProgress -> Prop) (op : SessionCall) (g g' : CallProgress) :
    Prop where
  compared : forall t, g = .checking -> g' = .matched t -> forall op', Has op' (.matched t) ->
    op'.uuid = op.uuid
  opens : forall userId, single userId -> g' = .opened userId -> g ≠ .opened userId ->
    forall op' x, Has op' x -> op'.uuid ≠ op.uuid -> ¬ x.Clearing .token userId
  stores : forall userId, single userId -> g' = .stored userId -> g ≠ .stored userId ->
    (forall op' x, Has op' x -> op'.uuid ≠ op.uuid -> ¬ x.Clearing .refreshToken userId) ∧
      forall sessionUuid, s.Holds .token userId sessionUuid -> sessionUuid ≠ op.uuid ->
        exists op', Has op' (.opened userId) ∧ op'.uuid = sessionUuid

namespace TokensKept

variable {single : Nat -> Prop} {s s' : Redis} {Has Has' : SessionCall -> CallProgress -> Prop}

theorem initial : TokensKept single ∅ fun _ _ => False := by
  constructor <;> simp [Redis.Holds]

theorem start (h : TokensKept single s Has) (op : SessionCall)
    (hold : forall op' g, Has op' g -> Has' op' g)
    (hnew : forall op' g, Has' op' g -> op' = op ∧ g = .checking ∨ Has op' g) :
    TokensKept single s Has' := by
  have hback : forall op' g, Has' op' g -> g ≠ .checking -> Has op' g := by
    intro op' g hg hne
    exact (hnew op' g hg).resolve_left fun heq => hne heq.2
  constructor
  · intro op' t hg
    exact h.presented op' t (hback _ _ hg nofun)
  · intro userId sessionUuid hholds
    rcases h.issued userId sessionUuid hholds with ⟨op', userId', hop', huuid⟩
    exact ⟨op', userId', hold _ _ hop', huuid⟩
  · intro op' g t hg hpresents hne
    rcases h.known op' g t (hback _ _ hg hne) hpresents hne with ⟨op'', userId, hop'', huuid⟩
    exact ⟨op'', userId, hold _ _ hop'', huuid⟩
  · intro op₁ g₁ op₂ g₂ t h₁ h₂ hp₁ hp₂ hne₁ hne₂
    exact h.once op₁ g₁ op₂ g₂ t (hback _ _ h₁ hne₁) (hback _ _ h₂ hne₂) hp₁ hp₂ hne₁ hne₂
  · intro op' g t hg hpresents hne
    exact h.spent op' g t (hback _ _ hg hne) hpresents hne
  · intro op' family userId left hg
    exact h.cleared op' family userId left (hback _ _ hg nofun)
  · exact h.oneToken
  · exact h.oneRefresh
  · intro userId a b hsingle ha hb hne
    rcases h.same userId a b hsingle ha hb hne with ⟨op', g, hop', huuid⟩
    exact ⟨op', g, hold _ _ hop', huuid⟩

end TokensKept

structure Advances (Has Has' : SessionCall -> CallProgress -> Prop) (op : SessionCall)
    (g g' : CallProgress) : Prop where
  before : Has op g
  after : Has' op g'
  self : forall op' x, Has op' x -> op'.uuid = op.uuid -> op' = op ∧ x = g
  other : forall op' x, Has op' x -> op'.uuid ≠ op.uuid -> Has' op' x
  back : forall op' x, Has' op' x -> op' = op ∧ x = g' ∨ Has op' x ∧ op'.uuid ≠ op.uuid

namespace CallProgress.Moves

variable {single : Nat -> Prop} {s s' : Redis} {op : SessionCall} {g g' : CallProgress}

theorem lookup (h : Moves single op s s' g g') {family : KeyFamily} {userId : Nat}
    {sessionUuid : Text} {value : Value}
    (hlookup : s'.lookup ⟨family, userId, some sessionUuid⟩ = some value)
    (hfamily : family ≠ .tokenExtraInfo) :
    s.lookup ⟨family, userId, some sessionUuid⟩ = some value ∨
      sessionUuid = op.uuid ∧
        (family = .token ∧ g' = .opened userId ∧
            (g.Ready op ∧ ¬ single userId ∨ g = .clearing .token userId []) ∨
          family = .refreshToken ∧ g' = .stored userId ∧
            (g = .opened userId ∧ ¬ single userId ∨ g = .clearing .refreshToken userId [])) := by
  cases h with
  | look hsame | «match» hsame | scan hsame =>
      rw [hsame] at hlookup
      exact .inl hlookup
  | spend hdelete | drop hdelete | clear hdelete =>
      rw [hdelete] at hlookup
      exact .inl (Redis.lookup_of_delete hlookup)
  | @«open» _ user v hset hready =>
      by_cases hkey : (⟨family, userId, some sessionUuid⟩ : Key) = tokenKey user op.uuid
      · cases hkey
        exact .inr ⟨rfl, .inl ⟨rfl, rfl, hready⟩⟩
      · rw [hset, AList.lookup_insert_ne hkey] at hlookup
        exact .inl hlookup
  | @extra user key v hset hkey =>
      have hne : (⟨family, userId, some sessionUuid⟩ : Key) ≠ key := by
        intro heq
        rw [← heq] at hkey
        exact hfamily hkey
      rw [hset, AList.lookup_insert_ne hne] at hlookup
      exact .inl hlookup
  | @store _ user v hset hready =>
      by_cases hkey : (⟨family, userId, some sessionUuid⟩ : Key) = refreshKey user op.uuid
      · cases hkey
        exact .inr ⟨rfl, .inr ⟨rfl, rfl, hready⟩⟩
      · rw [hset, AList.lookup_insert_ne hkey] at hlookup
        exact .inl hlookup

theorem holds (h : Moves single op s s' g g') {family : KeyFamily} {userId : Nat}
    {sessionUuid : Text} (hholds : s'.Holds family userId sessionUuid)
    (hfamily : family ≠ .tokenExtraInfo) :
    s.Holds family userId sessionUuid ∨
      sessionUuid = op.uuid ∧
        (family = .token ∧ g' = .opened userId ∧
            (g.Ready op ∧ ¬ single userId ∨ g = .clearing .token userId []) ∨
          family = .refreshToken ∧ g' = .stored userId ∧
            (g = .opened userId ∧ ¬ single userId ∨ g = .clearing .refreshToken userId [])) := by
  rcases Option.isSome_iff_exists.mp (AList.lookup_isSome.mpr hholds) with ⟨value, hvalue⟩
  cases h.lookup hvalue hfamily with
  | inl hold => exact .inl (AList.lookup_isSome.mp (by rw [hold]; rfl))
  | inr hnew => exact .inr hnew

theorem of_stored {userId : Nat} (h : Moves single op s s' (.stored userId) g') :
    g' = .stored userId := by
  cases h with
  | look => rfl
  | scan _ hready =>
      rcases hready with ⟨_, hready⟩ | ⟨_, heq⟩
      · cases hready
      · cases heq
  | «open» _ hready =>
      rcases hready with ⟨hready, _⟩ | heq
      · cases hready
      · cases heq
  | store _ hready =>
      rcases hready with ⟨heq, _⟩ | heq <;> cases heq

theorem of_checking {t : Token} (h : Moves single op s s' .checking g')
    (hpresents : op.Presents t) (hne : g' ≠ .checking) :
    g' = .matched t ∧ s' = s ∧
      s.lookup (refreshKey t.sub t.sessionUuid) = some (.token t) := by
  have hnot : ¬ CallProgress.checking.Ready op := by
    intro hready
    cases hready with
    | login hlogin => exact hlogin t hpresents
  cases h with
  | look => exact absurd rfl hne
  | «match» hsame hpresents' hstored =>
      rw [hpresents.unique hpresents']
      exact ⟨rfl, hsame, hstored⟩
  | scan _ hready =>
      rcases hready with ⟨_, hready⟩ | ⟨_, heq⟩
      · exact absurd hready hnot
      · cases heq
  | «open» _ hready =>
      rcases hready with ⟨hready, _⟩ | heq
      · exact absurd hready hnot
      · cases heq
  | store _ hready =>
      rcases hready with ⟨heq, _⟩ | heq <;> cases heq

theorem of_matched {t : Token} (h : Moves single op s s' (.matched t) g') :
    g' = .matched t ∧ s' = s ∨
      g' = .exchanged t ∧ s' = s.delete [refreshKey t.sub t.sessionUuid] := by
  cases h with
  | look hsame => exact .inl ⟨rfl, hsame⟩
  | spend hdelete => exact .inr ⟨rfl, hdelete⟩
  | scan _ hready =>
      rcases hready with ⟨_, hready⟩ | ⟨_, heq⟩
      · cases hready
      · cases heq
  | «open» _ hready =>
      rcases hready with ⟨hready, _⟩ | heq
      · cases hready
      · cases heq
  | store _ hready =>
      rcases hready with ⟨heq, _⟩ | heq <;> cases heq

end CallProgress.Moves
/-!
# One step

A command of one call, with nobody in between, keeps the tokens in order: a call that has just
compared a token is the only one that has, and the key of that token is not set again.
-/

namespace TokensKept

variable {single : Nat -> Prop} {s s' : Redis} {Has Has' : SessionCall -> CallProgress -> Prop}
variable {op : SessionCall} {g g' : CallProgress}

theorem stored_kept (hadv : Advances Has Has' op g g') (hmove : Moves single op s s' g g')
    {sessionUuid : Text}
    (h : exists op' userId, Has op' (.stored userId) ∧ op'.uuid = sessionUuid) :
    exists op' userId, Has' op' (.stored userId) ∧ op'.uuid = sessionUuid := by
  rcases h with ⟨op', userId, hop', huuid⟩
  by_cases hsame : op'.uuid = op.uuid
  · rcases hadv.self op' _ hop' hsame with ⟨rfl, rfl⟩
    have hg' := hmove.of_stored
    subst hg'
    exact ⟨op', userId, hadv.after, huuid⟩
  · exact ⟨op', userId, hadv.other op' _ hop' hsame, huuid⟩

theorem lookup_kept (h : TokensKept single s Has) (hadv : Advances Has Has' op g g')
    (hmove : Moves single op s s' g g') {op' : SessionCall} {x : CallProgress} {t : Token}
    (hhas : Has op' x) (hpresents : op'.Presents t) (hx : x ≠ .checking)
    (hlookup : s'.lookup (refreshKey t.sub t.sessionUuid) = some (.token t)) :
    s.lookup (refreshKey t.sub t.sessionUuid) = some (.token t) := by
  cases hmove.lookup hlookup nofun with
  | inl hold => exact hold
  | inr hnew =>
      -- the session of the token is that of the call, which has stored its tokens before
      rcases hnew with ⟨huuid, hset⟩
      rcases h.known op' x t hhas hpresents hx with ⟨op'', userId, hop'', huuid''⟩
      rcases hadv.self op'' _ hop'' (huuid''.trans huuid) with ⟨rfl, rfl⟩
      rcases hset with ⟨hfamily, _⟩ | ⟨_, _, hg⟩
      · cases hfamily
      · rcases hg with ⟨hg, _⟩ | hg <;> cases hg

theorem presented_step (h : TokensKept single s Has) (hadv : Advances Has Has' op g g')
    (hmove : Moves single op s s' g g') (op' : SessionCall) (t : Token)
    (hhas : Has' op' (.matched t)) : op'.Presents t := by
  rcases hadv.back op' _ hhas with ⟨rfl, hg'⟩ | ⟨hold, _⟩
  · subst hg'
    cases hmove with
    | look => exact h.presented op' t hadv.before
    | «match» _ hpresents _ => exact hpresents
  · exact h.presented op' t hold

theorem issued_step (h : TokensKept single s Has) (hadv : Advances Has Has' op g g')
    (hmove : Moves single op s s' g g') (userId : Nat) (sessionUuid : Text)
    (hholds : s'.Holds .refreshToken userId sessionUuid) :
    exists op' userId', Has' op' (.stored userId') ∧ op'.uuid = sessionUuid := by
  cases hmove.holds hholds nofun with
  | inl hold => exact stored_kept hadv hmove (h.issued userId sessionUuid hold)
  | inr hnew =>
      rcases hnew with ⟨rfl, ⟨hfamily, _⟩ | ⟨_, rfl, _⟩⟩
      · cases hfamily
      · exact ⟨op, userId, hadv.after, rfl⟩

theorem known_step (h : TokensKept single s Has) (hadv : Advances Has Has' op g g')
    (hmove : Moves single op s s' g g') (op' : SessionCall) (x : CallProgress) (t : Token)
    (hhas : Has' op' x) (hpresents : op'.Presents t) (hx : x ≠ .checking) :
    exists op'' userId, Has' op'' (.stored userId) ∧ op''.uuid = t.sessionUuid := by
  apply stored_kept hadv hmove
  rcases hadv.back op' x hhas with ⟨rfl, rfl⟩ | ⟨hold, _⟩
  · by_cases hg : g = .checking
    · subst hg
      rcases hmove.of_checking hpresents hx with ⟨_, _, hstored⟩
      apply h.issued t.sub
      exact AList.lookup_isSome.mp (by rw [show (⟨.refreshToken, t.sub, some t.sessionUuid⟩ : Key) =
        refreshKey t.sub t.sessionUuid from rfl, hstored]; rfl)
    · exact h.known op' g t hadv.before hpresents hg
  · exact h.known op' x t hold hpresents hx

/-- A call that has just compared a token is the only one that has. -/
theorem once_step (h : TokensKept single s Has) (hadv : Advances Has Has' op g g')
    (hmove : Moves single op s s' g g') (hund : Undisturbed single s Has op g g')
    (op₁ : SessionCall) (x₁ : CallProgress) (op₂ : SessionCall) (x₂ : CallProgress) (t : Token)
    (h₁ : Has' op₁ x₁) (h₂ : Has' op₂ x₂) (hp₁ : op₁.Presents t) (hp₂ : op₂.Presents t)
    (hx₁ : x₁ ≠ .checking) (hx₂ : x₂ ≠ .checking) : op₁.uuid = op₂.uuid := by
  -- the case that the call of the step is one of the two and another call the other
  have hmixed : forall op' x', Has op' x' -> op'.Presents t -> x' ≠ .checking ->
      op.Presents t -> g' ≠ .checking -> op'.uuid = op.uuid := by
    intro op' x' hop' hp' hx' hp hg'
    by_cases hg : g = .checking
    · subst hg
      rcases hmove.of_checking hp hg' with ⟨rfl, _, hstored⟩
      by_cases hmatched : x' = .matched t
      · subst hmatched
        exact hund.compared t rfl rfl op' hop'
      · exact absurd hstored (h.spent op' x' t hop' hp' hx' hmatched)
    · exact h.once op' x' op g t hop' hadv.before hp' hp hx' hg
  rcases hadv.back op₁ x₁ h₁ with ⟨rfl, rfl⟩ | ⟨hold₁, _⟩
  · rcases hadv.back op₂ x₂ h₂ with ⟨rfl, rfl⟩ | ⟨hold₂, _⟩
    · rfl
    · exact (hmixed op₂ x₂ hold₂ hp₂ hx₂ hp₁ hx₁).symm
  · rcases hadv.back op₂ x₂ h₂ with ⟨rfl, rfl⟩ | ⟨hold₂, _⟩
    · exact hmixed op₁ x₁ hold₁ hp₁ hx₁ hp₂ hx₂
    · exact h.once op₁ x₁ op₂ x₂ t hold₁ hold₂ hp₁ hp₂ hx₁ hx₂

theorem spent_step (h : TokensKept single s Has) (hadv : Advances Has Has' op g g')
    (hmove : Moves single op s s' g g') (op' : SessionCall) (x : CallProgress) (t : Token)
    (hhas : Has' op' x) (hpresents : op'.Presents t) (hx : x ≠ .checking)
    (hmatched : x ≠ .matched t) :
    s'.lookup (refreshKey t.sub t.sessionUuid) ≠ some (.token t) := by
  intro hlookup
  rcases hadv.back op' x hhas with ⟨rfl, rfl⟩ | ⟨hold, _⟩
  · by_cases hg : g = .checking
    · subst hg
      exact hmatched (hmove.of_checking hpresents hx).1
    · by_cases hgt : g = .matched t
      · subst hgt
        rcases hmove.of_matched with ⟨rfl, _⟩ | ⟨_, hdelete⟩
        · exact hmatched rfl
        · rw [hdelete, Redis.lookup_delete_of_mem List.mem_cons_self] at hlookup
          cases hlookup
      · exact h.spent op' g t hadv.before hpresents hg hgt
          (h.lookup_kept hadv hmove hadv.before hpresents hg hlookup)
  · exact h.spent op' x t hold hpresents hx hmatched
      (h.lookup_kept hadv hmove hold hpresents hx hlookup)

theorem noRefresh (h : TokensKept single s Has) (hadv : Advances Has Has' op g g')
    {userId : Nat} (hsingle : single userId)
    (hready : g = .opened userId ∧ ¬ single userId ∨ g = .clearing .refreshToken userId [])
    (sessionUuid : Text) : ¬ s.Holds .refreshToken userId sessionUuid := by
  intro hholds
  rcases hready with ⟨_, hmulti⟩ | rfl
  · exact hmulti hsingle
  · exact List.not_mem_nil (h.cleared op _ _ _ hadv.before hsingle nofun sessionUuid hholds)

theorem cleared_step (h : TokensKept single s Has) (hadv : Advances Has Has' op g g')
    (hmove : Moves single op s s' g g') (hund : Undisturbed single s Has op g g')
    (op' : SessionCall) (family : KeyFamily) (userId : Nat) (left : List Key)
    (hhas : Has' op' (.clearing family userId left)) (hsingle : single userId)
    (hfamily : family ≠ .tokenExtraInfo) (sessionUuid : Text)
    (hholds : s'.Holds family userId sessionUuid) :
    (⟨family, userId, some sessionUuid⟩ : Key) ∈ left := by
  rcases hadv.back op' _ hhas with ⟨rfl, hg'⟩ | ⟨hold, hne⟩
  · subst hg'
    cases hmove with
    | look hsame =>
        rw [hsame] at hholds
        exact h.cleared op' family userId left hadv.before hsingle hfamily sessionUuid hholds
    | scan hsame =>
        rw [hsame] at hholds
        exact Redis.mem_scan.mpr ⟨hholds, rfl, rfl, rfl⟩
    | @clear _ _ left keys hdelete =>
        rw [hdelete] at hholds
        rcases Redis.holds_delete hholds with ⟨hbefore, hkept⟩
        apply List.mem_filter.mpr
        constructor
        · exact h.cleared op' family userId left hadv.before hsingle hfamily sessionUuid hbefore
        · exact decide_eq_true hkept
  · cases hmove.holds hholds hfamily with
    | inl hbefore => exact h.cleared op' family userId left hold hsingle hfamily _ hbefore
    | inr hnew =>
        -- the call of the step sets a key that another call has just scanned for
        rcases hnew with ⟨_, ⟨rfl, rfl, hready⟩ | ⟨rfl, rfl, hready⟩⟩
        · have hopens : g ≠ .opened userId := by
            intro heq
            subst heq
            rcases hready with ⟨hready, _⟩ | heq
            · cases hready
            · cases heq
          exact absurd ⟨rfl, rfl⟩ (hund.opens userId hsingle rfl hopens op' _ hold hne)
        · have hstores : g ≠ .stored userId := by
            intro heq
            subst heq
            rcases hready with ⟨heq, _⟩ | heq <;> cases heq
          exact absurd ⟨rfl, rfl⟩ ((hund.stores userId hsingle rfl hstores).1 op' _ hold hne)

theorem oneToken_step (h : TokensKept single s Has) (hadv : Advances Has Has' op g g')
    (hmove : Moves single op s s' g g') (userId : Nat) (a b : Text) (hsingle : single userId)
    (ha : s'.Holds .token userId a) (hb : s'.Holds .token userId b) : a = b := by
  -- a new token is set when no other is there
  have hnone : (g.Ready op ∧ ¬ single userId ∨ g = .clearing .token userId []) ->
      forall c, ¬ s.Holds .token userId c := by
    intro hready c hc
    rcases hready with ⟨_, hmulti⟩ | rfl
    · exact hmulti hsingle
    · exact List.not_mem_nil (h.cleared op _ _ _ hadv.before hsingle nofun c hc)
  rcases hmove.holds ha nofun with ha | ⟨rfl, ⟨_, _, hready⟩ | ⟨hfamily, _⟩⟩
  · rcases hmove.holds hb nofun with hb | ⟨rfl, ⟨_, _, hready⟩ | ⟨hfamily, _⟩⟩
    · exact h.oneToken userId a b hsingle ha hb
    · exact absurd ha (hnone hready a)
    · cases hfamily
  · rcases hmove.holds hb nofun with hb | ⟨rfl, _⟩
    · exact absurd hb (hnone hready b)
    · rfl
  · cases hfamily

theorem oneRefresh_step (h : TokensKept single s Has) (hadv : Advances Has Has' op g g')
    (hmove : Moves single op s s' g g') (userId : Nat) (a b : Text) (hsingle : single userId)
    (ha : s'.Holds .refreshToken userId a) (hb : s'.Holds .refreshToken userId b) : a = b := by
  have hnone := h.noRefresh hadv hsingle
  rcases hmove.holds ha nofun with ha | ⟨rfl, ⟨hfamily, _⟩ | ⟨_, _, hready⟩⟩
  · rcases hmove.holds hb nofun with hb | ⟨rfl, ⟨hfamily, _⟩ | ⟨_, _, hready⟩⟩
    · exact h.oneRefresh userId a b hsingle ha hb
    · cases hfamily
    · exact absurd ha (hnone hready a)
  · cases hfamily
  · rcases hmove.holds hb nofun with hb | ⟨rfl, _⟩
    · exact absurd hb (hnone hready b)
    · rfl

theorem same_step (h : TokensKept single s Has) (hadv : Advances Has Has' op g g')
    (hmove : Moves single op s s' g g') (hund : Undisturbed single s Has op g g')
    (userId : Nat) (a b : Text) (hsingle : single userId) (ha : s'.Holds .token userId a)
    (hb : s'.Holds .refreshToken userId b) (hne : a ≠ b) :
    exists op' x, Has' op' x ∧ op'.uuid = a ∧
      (x = .opened userId ∨ x.Clearing .refreshToken userId) := by
  rcases hmove.holds ha nofun with ha | ⟨rfl, ⟨_, rfl, _⟩ | ⟨hfamily, _⟩⟩
  · rcases hmove.holds hb nofun with hb | ⟨rfl, ⟨hfamily, _⟩ | ⟨_, rfl, hready⟩⟩
    · -- both were there: the call of the newer session goes on
      rcases h.same userId a b hsingle ha hb hne with ⟨op', x, hop', rfl, hx⟩
      by_cases hsame : op'.uuid = op.uuid
      · rcases hadv.self op' x hop' hsame with ⟨rfl, rfl⟩
        refine ⟨op', g', hadv.after, rfl, ?_⟩
        cases hmove with
        | look => exact hx
        | «match» | spend | drop =>
            rcases hx with heq | hclearing
            · cases heq
            · exact absurd hclearing id
        | scan _ hready =>
            rcases hready with ⟨_, hready⟩ | ⟨rfl, rfl⟩
            · rcases hx with rfl | hclearing
              · cases hready
              · cases hready <;> exact absurd hclearing id
            · rcases hx with heq | hclearing
              · cases heq
                exact .inr ⟨rfl, rfl⟩
              · exact absurd hclearing id
        | clear =>
            rcases hx with heq | hclearing
            · cases heq
            · exact .inr hclearing
        | «open» _ hready =>
            rcases hready with ⟨hready, _⟩ | rfl
            · rcases hx with rfl | hclearing
              · cases hready
              · cases hready <;> exact absurd hclearing id
            · rcases hx with heq | hclearing
              · cases heq
              · cases hclearing.1
        | extra => exact hx
        | @store _ user _ _ hready =>
            have huser : user = userId := by
              rcases hready with ⟨rfl, _⟩ | rfl
              · rcases hx with heq | hclearing
                · cases heq
                  rfl
                · exact absurd hclearing id
              · rcases hx with heq | hclearing
                · cases heq
                · exact hclearing.2
            subst huser
            exact absurd hb (h.noRefresh hadv hsingle hready b)
      · exact ⟨op', x, hadv.other op' x hop' hsame, rfl, hx⟩
    · cases hfamily
    · have hstores : g ≠ .stored userId := by
        intro heq
        subst heq
        rcases hready with ⟨heq, _⟩ | heq <;> cases heq
      rcases (hund.stores userId hsingle rfl hstores).2 a ha hne with ⟨op', hop', rfl⟩
      exact ⟨op', _, hadv.other op' _ hop' hne, rfl, .inl rfl⟩
  · exact ⟨op, _, hadv.after, rfl, .inl rfl⟩
  · cases hfamily

theorem step (h : TokensKept single s Has) (hadv : Advances Has Has' op g g')
    (hmove : Moves single op s s' g g') (hund : Undisturbed single s Has op g g') :
    TokensKept single s' Has' where
  presented := h.presented_step hadv hmove
  issued := h.issued_step hadv hmove
  known := h.known_step hadv hmove
  once := h.once_step hadv hmove hund
  spent := h.spent_step hadv hmove
  cleared := h.cleared_step hadv hmove hund
  oneToken := h.oneToken_step hadv hmove
  oneRefresh := h.oneRefresh_step hadv hmove
  same := h.same_step hadv hmove hund

end TokensKept

/-!
# Runs

Only a set makes a call open a session, so a call that has returned has stored its refresh
token.
-/

namespace SessionConfig

variable {single : Nat -> Prop} {cfg cfg' : SessionConfig}

structure Kept (settings : AuthSettings) (single : Nat -> Prop) (cfg : SessionConfig) : Prop where
  users : forall userId, single userId ↔ cfg.shared.SingleLogin userId
  followed : (sessionCalls settings).Followed (Allowed single) (Possible single)
    (fun _ => Ends) cfg
  distinct : (cfg.calls.map fun call => call.op.uuid).Nodup
  tokens : TokensKept single cfg.shared.redis cfg.Has

theorem getElem_of_uuid (h : (cfg.calls.map fun call => call.op.uuid).Nodup) {i j : Nat}
    {call call' : RunningCall}
    (hi : cfg.calls[i]? = some call) (hj : cfg.calls[j]? = some call')
    (huuid : call.op.uuid = call'.op.uuid) : i = j := by
  have hi' : (cfg.calls.map fun call => call.op.uuid)[i]? = some call.op.uuid := by
    rw [List.getElem?_map, hi]
    rfl
  have hj' : (cfg.calls.map fun call => call.op.uuid)[j]? = some call.op.uuid := by
    rw [List.getElem?_map, hj, huuid]
    rfl
  have hlt : i < (cfg.calls.map fun call => call.op.uuid).length :=
    (List.getElem?_eq_some_iff.mp hi').1
  exact (List.getElem?_inj hlt h).mp (hi'.trans hj'.symm)

theorem advances (h : (cfg.calls.map fun call => call.op.uuid).Nodup) {i : Nat}
    {op : SessionCall} {p p' : AuthAction Unit} {g g' : CallProgress}
    (hi : cfg.calls[i]? = some ⟨op, p, g⟩) (hcalls : cfg'.calls = cfg.calls.set i ⟨op, p', g'⟩) :
    Advances cfg.Has cfg'.Has op g g' := by
  have hlt : i < cfg.calls.length := (List.getElem?_eq_some_iff.mp hi).1
  constructor
  · exact ⟨_, List.mem_of_getElem? hi, rfl, rfl⟩
  · refine ⟨⟨op, p', g'⟩, ?_, rfl, rfl⟩
    rw [hcalls]
    exact List.mem_set hlt _
  · intro op' x hhas huuid
    rcases hhas with ⟨call, hcall, rfl, rfl⟩
    rcases List.getElem?_of_mem hcall with ⟨j, hj⟩
    cases getElem_of_uuid h hj hi huuid
    cases hj.symm.trans hi
    exact ⟨rfl, rfl⟩
  · intro op' x hhas huuid
    rcases hhas with ⟨call, hcall, rfl, rfl⟩
    rcases List.getElem?_of_mem hcall with ⟨j, hj⟩
    refine ⟨call, ?_, rfl, rfl⟩
    have hne : i ≠ j := by
      intro heq
      subst heq
      cases hj.symm.trans hi
      exact huuid rfl
    rw [hcalls]
    exact List.mem_of_getElem? ((List.getElem?_set_ne hne).trans hj)
  · intro op' x hhas
    rcases hhas with ⟨call, hcall, rfl, rfl⟩
    rw [hcalls] at hcall
    rcases List.getElem?_of_mem hcall with ⟨j, hj⟩
    by_cases hne : i = j
    · subst hne
      rw [List.getElem?_set_self hlt] at hj
      cases hj
      exact .inl ⟨rfl, rfl⟩
    · rw [List.getElem?_set_ne hne] at hj
      refine .inr ⟨⟨call, List.mem_of_getElem? hj, rfl, rfl⟩, fun huuid => ?_⟩
      exact hne (getElem_of_uuid h hi hj huuid.symm)

theorem matched_of_get {op : SessionCall} {key : Key} {value : Option Value} {t : Token}
    (h : CallProgress.next op .checking (.get key) (.ok value) = .matched t) :
    value = some (.token t) ∧ op.Presents t := by
  cases value with
  | none => cases h
  | some value =>
      cases value with
      | text text => cases h
      | token t' =>
          have hif : (if op.Presents t' ∧ key = refreshKey t'.sub t'.sessionUuid
              then CallProgress.matched t' else .checking) = .matched t := h
          split at hif
          · rename_i hmatch
            cases hif
            exact ⟨rfl, hmatch.1⟩
          · cases hif

theorem set_of_next {op : SessionCall} {g g' : CallProgress} {c : AuthCommand}
    {r : Except AuthError c.Result} {userId : Nat} (h : CallProgress.next op g c r = g')
    (hg' : g' = .opened userId ∨ g' = .stored userId) (hne : g ≠ g') :
    exists key value, c = .set key value ∧ key.userId = userId ∧
      (g' = .opened userId ∧ key.family = .token ∨
        g' = .stored userId ∧ key.family = .refreshToken) := by
  subst h
  cases c with
  | set key value =>
      refine ⟨key, value, rfl, ?_⟩
      rcases key with ⟨family, userId', sessionUuid⟩
      cases family with
      | token =>
          rcases hg' with heq | heq
          · cases heq
            exact ⟨rfl, .inl ⟨rfl, rfl⟩⟩
          · cases heq
      | refreshToken =>
          rcases hg' with heq | heq
          · cases heq
          · cases heq
            exact ⟨rfl, .inr ⟨rfl, rfl⟩⟩
      | tokenExtraInfo | jwtUser => exact absurd rfl hne
  | get key =>
      rcases r with e | value
      · exact absurd rfl hne
      · rcases value with _ | value
        · exact absurd rfl hne
        · cases value with
          | text text => exact absurd rfl hne
          | token t =>
              unfold CallProgress.next at hg' hne
              dsimp only at hg' hne
              split at hg'
              · rcases hg' with heq | heq <;> cases heq
              · rename_i hno
                rw [if_neg hno] at hne
                exact absurd rfl hne
  | delete keys =>
      cases g with
      | matched t => rcases hg' with heq | heq <;> cases heq
      | clearing family userId left => rcases hg' with heq | heq <;> cases heq
      | checking | exchanged t | opened userId | stored userId => exact absurd rfl hne
  | scanIter family userId count =>
      cases count with
      | some n => exact absurd rfl hne
      | none =>
          cases r with
          | error e => exact absurd rfl hne
          | ok keys => rcases hg' with heq | heq <;> cases heq
  | _ => exact absurd rfl hne

theorem undisturbed (hsingle : forall userId, single userId -> cfg.shared.SingleLogin userId)
    {op : SessionCall} {c : AuthCommand} {g : CallProgress} (hallowed : Allowed single op g c)
    (halone : cfg.Alone op c) :
    Undisturbed single cfg.shared.redis cfg.Has op g
      (CallProgress.next op g c (AuthState.exec c cfg.shared).2) := by
  constructor
  · intro t hg hg' op' hhas
    subst hg
    by_contra huuid
    rcases hhas with ⟨call, hcall, rfl, hmatched⟩
    cases c with
    | get key =>
        rcases matched_of_get hg' with ⟨hlookup, hpresents⟩
        exact halone call hcall huuid t (by rw [hmatched]; rfl) hpresents hlookup
    | set key value =>
        rcases key with ⟨family, userId, sessionUuid⟩
        cases family <;> cases hg'
    | scanIter family userId count => cases count <;> cases hg'
    | _ => cases hg'
  · intro userId huser hg' hg op' x hhas huuid hclearing
    rcases hhas with ⟨call, hcall, rfl, rfl⟩
    rcases set_of_next hg' (.inl rfl) hg with ⟨key, value, rfl, rfl, hfamily⟩
    rcases hfamily with ⟨_, hfamily⟩ | ⟨hstored, _⟩
    · refine (halone (hsingle _ huser)).1 call hcall huuid ?_
      rw [hfamily]
      exact hclearing
    · cases hstored
  · intro userId huser hg' hg
    rcases set_of_next hg' (.inr rfl) hg with ⟨key, value, rfl, rfl, hfamily⟩
    rcases hfamily with ⟨hopened, _⟩ | ⟨_, hfamily⟩
    · cases hopened
    · rcases halone (hsingle _ huser) with ⟨hothers, hnewer⟩
      have hsession : key.sessionUuid = some op.uuid := hallowed.1
      constructor
      · intro op' x hhas huuid hclearing
        rcases hhas with ⟨call, hcall, rfl, rfl⟩
        refine hothers call hcall huuid ?_
        rw [hfamily]
        exact hclearing
      · intro sessionUuid hholds hne
        have hscanned := Redis.mem_scan.mpr ⟨hholds, rfl, rfl, rfl⟩
        have hother : some sessionUuid ≠ key.sessionUuid := by
          rw [hsession]
          exact fun heq => hne (Option.some.inj heq)
        rcases hnewer hfamily _ hscanned hother with ⟨call, hcall, huuid, hprogress⟩
        exact ⟨call.op, ⟨call, hcall, rfl, hprogress⟩, (Option.some.inj huuid).symm⟩

theorem initial_kept (settings : AuthSettings) (users : List User) :
    (initial users).Kept settings (AuthState.SingleLogin ⟨∅, users⟩) := by
  constructor
  · intro userId
    exact Iff.rfl
  · intro call hcall
    cases hcall
  · exact List.nodup_nil
  · have hnone : (initial users).Has = fun _ _ => False := by
      funext op g
      apply propext
      constructor
      · intro h
        rcases h with ⟨call, hcall, _⟩
        cases hcall
      · exact False.elim
    rw [hnone]
    exact TokensKept.initial

theorem Kept.step {settings : AuthSettings} (h : cfg.Kept settings single)
    {a : CallAction SessionCall} (hcond : cfg.NoOverlap a)
    (hstep : (sessionCalls settings).step cfg a = some cfg') : cfg'.Kept settings single := by
  have hpossible := possible_exec (s := cfg.shared) fun userId => (h.users userId).mp
  have hbody : forall op, ((sessionCalls settings).protocol (Allowed single) (Possible single)
      op).Follows Ends (sessionCalls settings).start ((sessionCalls settings).body op) :=
    fun op => body_follows settings op
  have hfollowed := CallSystem.followed_step hbody hpossible h.followed hstep
  rcases CallSystem.step_cases hstep with
    ⟨op, rfl, hshared, hcalls⟩ | ⟨i, op, c, k, g, rfl, hi, hshared, hcalls⟩
  · constructor
    · rw [hshared]
      exact h.users
    · exact hfollowed
    · rw [hcalls, List.map_append]
      apply List.nodup_append.mpr
      refine ⟨h.distinct, List.nodup_singleton _, ?_⟩
      intro uuid hold uuid' hnew heq
      rcases List.mem_map.mp hold with ⟨call, hcall, rfl⟩
      rw [List.mem_singleton.mp hnew] at heq
      exact hcond call hcall heq
    · rw [hshared]
      apply h.tokens.start op
      · intro op' g hhas
        rcases hhas with ⟨call, hcall, hfacts⟩
        refine ⟨call, ?_, hfacts⟩
        rw [hcalls]
        exact List.mem_append_left _ hcall
      · intro op' g hhas
        rcases hhas with ⟨call, hcall, rfl, rfl⟩
        cases Calls.mem_start hcalls hcall with
        | inl hold => exact .inr ⟨call, hold, rfl, rfl⟩
        | inr hnew =>
            rw [hnew]
            exact .inl ⟨rfl, rfl⟩
  · have hallowed : Allowed single op g c := (h.followed _ (List.mem_of_getElem? hi)).1
    have halone : cfg.Alone op c := by
      unfold NoOverlap at hcond
      dsimp only at hcond
      rw [hi] at hcond
      exact hcond
    constructor
    · intro userId
      rw [hshared]
      exact (h.users userId).trans (AuthState.singleLogin_exec c cfg.shared userId).symm
    · exact hfollowed
    · have hmap : (cfg'.calls.map fun call => call.op.uuid) =
          cfg.calls.map fun call => call.op.uuid := by
        rw [hcalls, List.map_set]
        have hlt : i < (cfg.calls.map fun call => call.op.uuid).length := by
          rw [List.length_map]
          exact (List.getElem?_eq_some_iff.mp hi).1
        have hsame : (cfg.calls.map fun call => call.op.uuid)[i] = op.uuid := by
          rw [List.getElem_map, (List.getElem?_eq_some_iff.mp hi).2]
        rw [← hsame]
        exact List.set_getElem_self hlt
      rw [hmap]
      exact h.distinct
    · rw [hshared]
      exact h.tokens.step (advances h.distinct hi hcalls) (Moves.of_allowed hallowed)
        (undisturbed (fun userId => (h.users userId).mp) hallowed halone)

theorem Kept.of_returned {settings : AuthSettings} (h : cfg.Kept settings single)
    {call : RunningCall} (hcall : call ∈ cfg.calls)
    (hreturned : call.Returned) : exists userId, call.progress = .stored userId := by
  have hfollows := h.followed call hcall
  rcases call with ⟨op, program, g⟩
  cases program with
  | ret a => exact hfollows
  | raise e => exact absurd hreturned id
  | call c k => exact absurd hreturned id

theorem Kept.of_ended {settings : AuthSettings} (h : cfg.Kept settings single)
    {call : RunningCall} (hcall : call ∈ cfg.calls)
    (hended : call.Ended) :
    call.progress = .checking ∨ exists userId, call.progress = .stored userId := by
  have hfollows := h.followed call hcall
  rcases call with ⟨op, program, g⟩
  cases program with
  | ret a => exact .inr hfollows
  | raise e => exact .inl hfollows
  | call c k => exact absurd hended id

end SessionConfig

open SessionConfig

/--
In runs where no other call comes in between, a refresh token is exchanged once, and
when no call is in progress a user without several sessions has the tokens of one.
-/
theorem refresh_tokens_used_once (settings : AuthSettings) (users : List User)
    (final : SessionConfig)
    (hrun : Reaches (sessionCalls settings).step NoOverlap (initial users) final) :
    (forall (i j : Nat) (ci cj : RunningCall) t, final.calls[i]? = some ci ->
      final.calls[j]? = some cj -> ci.op.Presents t -> cj.op.Presents t -> ci.Returned -> cj.Returned -> i = j) ∧
    forall userId, final.shared.SingleLogin userId ->
      (forall call, call ∈ final.calls -> call.Ended) ->
        (forall a b, final.shared.redis.Holds .token userId a ->
          final.shared.redis.Holds .token userId b -> a = b) ∧
        (forall a b, final.shared.redis.Holds .refreshToken userId a ->
          final.shared.redis.Holds .refreshToken userId b -> a = b) ∧
        forall a b, final.shared.redis.Holds .token userId a ->
          final.shared.redis.Holds .refreshToken userId b -> a = b := by
  have hkept : Kept settings (AuthState.SingleLogin ⟨∅, users⟩) final :=
    hrun.invariant (Kept settings (AuthState.SingleLogin ⟨∅, users⟩))
      (initial_kept settings users) fun h => h.step
  constructor
  · intro i j ci cj t hi hj hpi hpj hri hrj
    have hmi := List.mem_of_getElem? hi
    have hmj := List.mem_of_getElem? hj
    rcases hkept.of_returned hmi hri with ⟨ui, hci⟩
    rcases hkept.of_returned hmj hrj with ⟨uj, hcj⟩
    have huuid := hkept.tokens.once ci.op _ cj.op _ t ⟨ci, hmi, rfl, hci⟩ ⟨cj, hmj, rfl, hcj⟩
      hpi hpj nofun nofun
    exact getElem_of_uuid hkept.distinct hi hj huuid
  · intro userId hsingle hended
    have huser := (hkept.users userId).mpr hsingle
    refine ⟨fun a b => hkept.tokens.oneToken userId a b huser,
      fun a b => hkept.tokens.oneRefresh userId a b huser, ?_⟩
    intro a b ha hb
    by_contra hne
    rcases hkept.tokens.same userId a b huser ha hb hne with
      ⟨op, g, ⟨call, hcall, -, rfl⟩, -, hgoing⟩
    rcases hkept.of_ended hcall (hended call hcall) with hg | ⟨user, hg⟩
    · rw [hg] at hgoing
      rcases hgoing with heq | hclearing
      · cases heq
      · exact hclearing
    · rw [hg] at hgoing
      rcases hgoing with heq | hclearing
      · cases heq
      · exact hclearing

def sampleLoginCall : SessionCall := .login 1 ['u'] sampleClient ['a'] (.ok ()) (.ok ())

def sampleRefreshCall (uuid : Text) : SessionCall :=
  .refreshToken 2 uuid sampleClient (some (.signed sampleRefreshToken))

theorem refresh_tokens_used_once_sample : exists final,
    Reaches (sessionCalls sampleAuthSettings).step NoOverlap (initial [sampleUser]) final ∧
      final.shared.redis.Holds .token 1 ['v'] ∧ final.shared.redis.Holds .refreshToken 1 ['v'] ∧
      forall a, final.shared.redis.Holds .token 1 a -> a = ['v'] := by
  obtain ⟨final, hrun, hsingle, hended, htoken, hrefresh⟩ := exists_reaches
    (sessionCalls sampleAuthSettings).step NoOverlap (initial [sampleUser])
    ([.start sampleLoginCall] ++ List.replicate 10 (.advance 0) ++
      [.start (sampleRefreshCall ['v'])] ++ List.replicate 12 (.advance 1))
    (fun final => final.shared.SingleLogin 1 ∧ (forall call, call ∈ final.calls -> call.Ended) ∧
      final.shared.redis.Holds .token 1 ['v'] ∧ final.shared.redis.Holds .refreshToken 1 ['v'])
    (by decide +kernel)
  refine ⟨final, hrun, htoken, hrefresh, fun a ha => ?_⟩
  exact ((refresh_tokens_used_once sampleAuthSettings [sampleUser] final hrun).2 1 hsingle
    hended).1 a ['v'] ha htoken

/-- Two refreshes with one token, interleaved, both succeed and leave two sessions. -/
theorem refresh_tokens_used_once_fails : exists final,
    Reaches (sessionCalls sampleAuthSettings).step FreshUuids (initial [sampleUser]) final ∧
      (exists i j : Nat, exists ci cj : RunningCall, i ≠ j ∧ final.calls[i]? = some ci ∧ final.calls[j]? = some cj ∧
        ci.op.Presents sampleRefreshToken ∧ cj.op.Presents sampleRefreshToken ∧
        ci.Returned ∧ cj.Returned) ∧
      final.shared.SingleLogin 1 ∧ (forall call, call ∈ final.calls -> call.Ended) ∧
      final.shared.redis.Holds .token 1 ['v'] ∧ final.shared.redis.Holds .token 1 ['w'] := by
  obtain ⟨final, hrun, hfirst, hsecond, hrest⟩ := exists_reaches
    (sessionCalls sampleAuthSettings).step FreshUuids (initial [sampleUser])
    ([.start sampleLoginCall] ++ List.replicate 10 (.advance 0) ++
      [.start (sampleRefreshCall ['v']), .start (sampleRefreshCall ['w'])] ++
      List.replicate 3 (.advance 1) ++ List.replicate 3 (.advance 2) ++
      List.replicate 4 (.advance 1) ++ List.replicate 4 (.advance 2) ++
      List.replicate 5 (.advance 1) ++ List.replicate 6 (.advance 2))
    (fun final =>
      (final.calls[1]?.any fun call : RunningCall =>
        decide (call.op.Presents sampleRefreshToken ∧ call.Returned)) = true ∧
      (final.calls[2]?.any fun call : RunningCall =>
        decide (call.op.Presents sampleRefreshToken ∧ call.Returned)) = true ∧
      final.shared.SingleLogin 1 ∧ (forall call, call ∈ final.calls -> call.Ended) ∧
      final.shared.redis.Holds .token 1 ['v'] ∧ final.shared.redis.Holds .token 1 ['w'])
    (by decide +kernel)
  refine ⟨final, hrun, ?_, hrest⟩
  rcases (Option.any_eq_true ..).mp hfirst with ⟨ci, hi, hci⟩
  rcases (Option.any_eq_true ..).mp hsecond with ⟨cj, hj, hcj⟩
  have hpi := of_decide_eq_true hci
  have hpj := of_decide_eq_true hcj
  exact ⟨1, 2, ci, cj, by decide, hi, hj, hpi.1, hpj.1, hpi.2, hpj.2⟩

end RagService
