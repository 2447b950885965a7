import RagService.Auth.Lockout

/-!
# Failed logins are counted

The count of failures is read, raised and set in three steps.  Below the threshold every
count is a different one as long as no other call sets it in between, so the threshold is
reached by the time that many calls have failed.
-/

namespace RagService

open Interleaving Transitions

abbrev VerifyConfig := Calls lockInterface LockKeys UserVerify Unit VerifyProgress

abbrev VerifyCall := Call lockInterface UserVerify Unit VerifyProgress

namespace VerifyConfig

def initial (keys : LockKeys) : VerifyConfig := ⟨keys, []⟩

def Failed (call : VerifyCall) : Prop :=
  call.op.right = false ∧ call.Ended

instance : DecidablePred Failed :=
  fun _ => inferInstanceAs (Decidable (_ ∧ _))

def failedCalls (cfg : VerifyConfig) : Nat :=
  cfg.calls.countP Failed

/-!
# Conditions

No count is lost and no lock lapses.
-/

/--
The password of a call that gets so far is wrong or has expired, a lock that is read has not
lapsed, and a count below the threshold is one more than the stored one.
-/
def Counted (settings : LockSettings) (cfg : VerifyConfig) (op : UserVerify) :
    LockCommand -> Prop
  | .verifyPassword => op.right = true -> op.expired = true
  | .getLock => forall lockedUntil, cfg.shared.lock = some lockedUntil ->
      op.checkedAt < lockedUntil
  | .setFailures count => count < settings.threshold ->
      count = cfg.shared.failures.getD 0 + 1
  | _ => True

def NoLostCount (settings : LockSettings) (cfg : VerifyConfig) : CallAction UserVerify -> Prop
  | .start _ => True
  | .advance i =>
      match cfg.calls[i]? with
      | some ⟨op, .call c _, _⟩ => cfg.Counted settings op c
      | _ => True

/-- A run without a successful login, in which no lock lapses. -/
def NoLogin (cfg : VerifyConfig) : CallAction UserVerify -> Prop
  | .start _ => True
  | .advance i =>
      match cfg.calls[i]? with
      | some ⟨op, .call .verifyPassword _, _⟩ => op.right = true -> op.expired = true
      | some ⟨op, .call .getLock _, _⟩ =>
          forall lockedUntil, cfg.shared.lock = some lockedUntil -> op.checkedAt < lockedUntil
      | _ => True

instance decidableCounted (settings : LockSettings) (cfg : VerifyConfig) (op : UserVerify)
    (c : LockCommand) : Decidable (cfg.Counted settings op c) :=
  match c with
  | .verifyPassword => inferInstanceAs (Decidable (op.right = true -> op.expired = true))
  | .getLock => inferInstanceAs (Decidable (forall lockedUntil,
      lockedUntil ∈ cfg.shared.lock -> op.checkedAt < lockedUntil))
  | .setFailures count => inferInstanceAs (Decidable (count < settings.threshold ->
      count = cfg.shared.failures.getD 0 + 1))
  | .setLock _ | .deleteLock | .getFailures | .deleteFailures => .isTrue trivial

instance (settings : LockSettings) (cfg : VerifyConfig) :
    (a : CallAction UserVerify) -> Decidable (cfg.NoLostCount settings a)
  | .start _ => .isTrue trivial
  | .advance _ => by
      unfold NoLostCount
      dsimp only
      split
      · rename_i op c k g hcall
        exact decidableCounted settings cfg op c
      · infer_instance

instance (cfg : VerifyConfig) : (a : CallAction UserVerify) -> Decidable (cfg.NoLogin a)
  | .start _ => .isTrue trivial
  | .advance _ => by
      unfold NoLogin
      dsimp only
      split
      · infer_instance
      · rename_i op k g hcall
        exact inferInstanceAs (Decidable (forall lockedUntil,
          lockedUntil ∈ cfg.shared.lock -> op.checkedAt < lockedUntil))
      · infer_instance

end VerifyConfig

open VerifyConfig

/-!
# The protocol of a call

`check_status` reads the lock and passes the call on or rejects it; a wrong password is then
counted, and at the threshold the lock is set.
-/

namespace VerifyProgress

def Allowed (settings : LockSettings) (op : UserVerify) (g : VerifyProgress) :
    LockCommand -> Prop
  | .getLock => g = checking
  | .deleteLock | .deleteFailures =>
      g = lapsed ∨ g = verified ∧ op.right = true ∧ op.expired = false
  | .verifyPassword => g = checking ∨ g = lapsed
  | .getFailures => g = verified ∧ op.right = false
  | .setFailures _ => g = verified ∧ op.right = false
  | .setLock _ => exists count, g = counted count ∧ settings.threshold ≤ count

def Possible (c : LockCommand) (r : Except AuthError c.Result) : Prop :=
  exists a, r = .ok a

/-- A call with a wrong password has been rejected, has counted below the threshold, or has
set the lock. -/
def Ends (settings : LockSettings) (op : UserVerify) (g : VerifyProgress)
    (_ : Except AuthError Unit) : Prop :=
  op.right = false -> g = rejected ∨ g = locked ∨
    exists count, g = counted count ∧ count < settings.threshold

end VerifyProgress

open VerifyProgress UserPasswordHistoryService

variable {settings : LockSettings} {userStatus : Nat}

theorem VerifyProgress.possible_exec (c : LockCommand) (s : LockKeys) : Possible c (s.exec c).2 := by
  cases c with
  | getLock | setLock _ | deleteLock | getFailures | setFailures _ | deleteFailures
  | verifyPassword => exact ⟨_, rfl⟩

abbrev verifyProtocol (settings : LockSettings) (userStatus : Nat) (op : UserVerify) :
    Protocol lockInterface VerifyProgress :=
  (verifyCalls settings userStatus).protocol (Allowed settings) Possible op

theorem handleLoginFailure_follows (hthreshold : 1 ≤ settings.threshold) {op : UserVerify}
    (hwrong : op.right = false) (now : Nat) :
    (verifyProtocol settings userStatus op).Follows (Ends settings op) .verified
      ((handleLoginFailure settings now).bind fun _ =>
        .raise (.authorization "用户名或密码有误".toList)) := by
  unfold handleLoginFailure
  rw [if_neg (by omega)]
  refine ⟨⟨rfl, hwrong⟩, fun r hr => ?_⟩
  rcases hr with ⟨stored, rfl⟩
  refine ⟨⟨rfl, hwrong⟩, fun r hr => ?_⟩
  rcases hr with ⟨_, rfl⟩
  show Protocol.Follows _ _ (VerifyProgress.counted (stored.getD 0 + 1))
    (Program.bind (if _ then _ else _) _)
  split
  · rename_i hlocks
    refine ⟨⟨_, rfl, hlocks⟩, fun r hr => ?_⟩
    rcases hr with ⟨_, rfl⟩
    intro _
    exact .inr (.inl rfl)
  · rename_i hbelow
    intro _
    exact .inr (.inr ⟨_, rfl, Nat.lt_of_not_le hbelow⟩)

theorem handleLoginSuccess_follows {op : UserVerify} (hright : op.right = true)
    (hexpired : op.expired = false) :
    (verifyProtocol settings userStatus op).Follows (Ends settings op) .verified
      handleLoginSuccess := by
  refine ⟨.inr ⟨rfl, hright, hexpired⟩, fun r hr => ?_⟩
  rcases hr with ⟨_, rfl⟩
  refine ⟨.inr ⟨rfl, hright, hexpired⟩, fun r hr => ?_⟩
  rcases hr with ⟨_, rfl⟩
  intro hwrong
  rw [hright] at hwrong
  cases hwrong

def verifyRest (settings : LockSettings) (op : UserVerify) : LockAction Unit := do
  lockCommand .verifyPassword
  if op.right then
    if op.expired then
      Program.raise (.authorization "密码已过期，请修改密码后重新登录".toList)
    else
      handleLoginSuccess
  else
    handleLoginFailure settings op.failedAt
    Program.raise (.authorization "用户名或密码有误".toList)

theorem verifyRest_follows (hthreshold : 1 ≤ settings.threshold) (op : UserVerify)
    {g : VerifyProgress} (hg : g = .checking ∨ g = .lapsed) :
    (verifyProtocol settings userStatus op).Follows (Ends settings op) g
      (verifyRest settings op) := by
  refine ⟨hg, fun r hr => ?_⟩
  rcases hr with ⟨_, rfl⟩
  show Protocol.Follows _ _ VerifyProgress.verified (if _ then _ else _)
  split
  · rename_i hright
    split
    · intro hwrong
      rw [hright] at hwrong
      cases hwrong
    · rename_i hexpired
      exact handleLoginSuccess_follows hright (Bool.eq_false_iff.mpr hexpired)
  · rename_i hwrong
    exact handleLoginFailure_follows hthreshold (Bool.eq_false_iff.mpr hwrong) op.failedAt

def CheckEnds (g : VerifyProgress) : Except AuthError Unit -> Prop
  | .ok _ => g = checking ∨ g = lapsed
  | .error _ => g = rejected

theorem checkStatus_follows (hstatus : userStatus ≠ 0) (op : UserVerify) :
    (verifyProtocol settings userStatus op).Follows CheckEnds .checking
      (checkStatus userStatus op.checkedAt) := by
  unfold checkStatus
  rw [if_neg hstatus]
  refine ⟨rfl, fun r hr => ?_⟩
  rcases hr with ⟨lock, rfl⟩
  cases lock with
  | none => exact .inl rfl
  | some lockedUntil =>
      show Protocol.Follows _ _ (if op.checkedAt < lockedUntil then rejected else lapsed)
        (if op.checkedAt < lockedUntil then _ else _)
      by_cases hlocked : op.checkedAt < lockedUntil
      · rw [if_pos hlocked, if_pos hlocked]
        rfl
      · rw [if_neg hlocked, if_neg hlocked]
        refine ⟨.inl rfl, fun r hr => ?_⟩
        rcases hr with ⟨_, rfl⟩
        refine ⟨.inl rfl, fun r hr => ?_⟩
        rcases hr with ⟨_, rfl⟩
        exact .inr rfl

theorem userVerify_eq (op : UserVerify) : AuthService.userVerify settings userStatus op =
    (checkStatus userStatus op.checkedAt).bind fun _ => verifyRest settings op :=
  rfl

theorem userVerify_follows (hthreshold : 1 ≤ settings.threshold) (hstatus : userStatus ≠ 0)
    (op : UserVerify) : (verifyProtocol settings userStatus op).Follows (Ends settings op)
      .checking (AuthService.userVerify settings userStatus op) := by
  rw [userVerify_eq]
  apply Protocol.follows_bind (checkStatus_follows hstatus op)
  · intro g _ hg
    exact verifyRest_follows hthreshold op hg
  · intro g _ hg _
    exact .inl hg

theorem userVerify_first (hstatus : userStatus ≠ 0) (op : UserVerify) :
    exists k, AuthService.userVerify settings userStatus op = .call .getLock k ∧
      forall lockedUntil, op.checkedAt < lockedUntil ->
        k (.ok (some lockedUntil)) = .raise (lockedError lockedUntil op.checkedAt) := by
  rw [userVerify_eq]
  unfold checkStatus
  rw [if_neg hstatus]
  refine ⟨_, rfl, ?_⟩
  intro lockedUntil hlocked
  show Program.bind (if op.checkedAt < lockedUntil then _ else _) _ = _
  rw [if_pos hlocked]
  rfl

/-!
# What the calls keep

Each call that fails below the threshold has a count of its own; so when as many calls have
failed as the threshold says, the account is locked.
-/

def VerifyProgress.below (threshold : Nat) : VerifyProgress -> Bool
  | counted count => count < threshold
  | _ => false

def VerifyConfig.below (settings : LockSettings) (cfg : VerifyConfig) : Nat :=
  cfg.calls.countP fun call => call.progress.below settings.threshold

structure CountsKept (settings : LockSettings) (userStatus : Nat) (cfg : VerifyConfig) : Prop where
  followed : (verifyCalls settings userStatus).Followed (Allowed settings) Possible
    (Ends settings) cfg
  /-- a call that was rejected or has set the lock has left a lock -/
  lock : forall call, call ∈ cfg.calls -> call.progress = rejected ∨ call.progress = locked ->
    cfg.shared.lock.isSome = true
  notLapsed : forall call, call ∈ cfg.calls -> call.progress ≠ lapsed
  expired : forall call, call ∈ cfg.calls -> call.progress = verified ->
    call.op.right = true -> call.op.expired = true
  /-- counts below the threshold are different, so there are not more than the highest -/
  counts : cfg.below settings ≤ cfg.shared.failures.getD 0
  threshold : cfg.below settings < settings.threshold

namespace CountsKept

variable {cfg cfg' : VerifyConfig}

theorem initial (hthreshold : 1 ≤ settings.threshold) (keys : LockKeys) :
    CountsKept settings userStatus (.initial keys) := by
  constructor
  · intro call hcall
    cases hcall
  · intro call hcall
    cases hcall
  · intro call hcall
    cases hcall
  · intro call hcall
    cases hcall
  · exact Nat.zero_le _
  · exact hthreshold

structure Advance (settings : LockSettings) (cfg : VerifyConfig) (s' : LockKeys)
    (op : UserVerify) (g' : VerifyProgress) : Prop where
  keeps : cfg.shared.lock.isSome = true -> s'.lock.isSome = true
  lock : g' = rejected ∨ g' = locked -> s'.lock.isSome = true
  notLapsed : g' ≠ lapsed
  expired : g' = verified -> op.right = true -> op.expired = true
  counts : cfg.below settings + (if g'.below settings.threshold then 1 else 0) ≤
    s'.failures.getD 0
  threshold : cfg.below settings + (if g'.below settings.threshold then 1 else 0) <
    settings.threshold

theorem Advance.same (h : CountsKept settings userStatus cfg) {s' : LockKeys} {op : UserVerify}
    {g' : VerifyProgress} (hbelow : g'.below settings.threshold = false)
    (hfailures : s'.failures = cfg.shared.failures)
    (hkeeps : cfg.shared.lock.isSome = true -> s'.lock.isSome = true)
    (hlock : g' = rejected ∨ g' = locked -> s'.lock.isSome = true) (hlapsed : g' ≠ lapsed)
    (hexpired : g' = verified -> op.right = true -> op.expired = true) :
    Advance settings cfg s' op g' := by
  constructor
  · exact hkeeps
  · exact hlock
  · exact hlapsed
  · exact hexpired
  · rw [hbelow, hfailures]
    exact h.counts
  · rw [hbelow]
    exact h.threshold

theorem advance (h : CountsKept settings userStatus cfg) {op : UserVerify} {c : LockCommand}
    {g : VerifyProgress} (hallowed : Allowed settings op g c)
    (hcond : cfg.Counted settings op c)
    (hlock : g = rejected ∨ g = locked -> cfg.shared.lock.isSome = true) (hlapsed : g ≠ lapsed)
    (hexpired : g = verified -> op.right = true -> op.expired = true) :
    g.below settings.threshold = false ∧ Advance settings cfg (cfg.shared.exec c).1 op
      (g.next op c (cfg.shared.exec c).2) := by
  cases c with
  | getLock =>
      have hg : g = checking := hallowed
      subst hg
      refine ⟨rfl, ?_⟩
      show Advance settings cfg cfg.shared op (VerifyProgress.next op checking .getLock
        (.ok cfg.shared.lock))
      cases hread : cfg.shared.lock with
      | none => exact .same h rfl rfl id (by simp [VerifyProgress.next]) nofun nofun
      | some lockedUntil =>
          have hnext : VerifyProgress.next op checking .getLock (.ok (some lockedUntil)) =
              rejected := if_pos (hcond lockedUntil hread)
          rw [hnext]
          exact .same h rfl rfl id (fun _ => by rw [hread]; rfl) nofun nofun
  | setLock lockedUntil =>
      rcases hallowed with ⟨count, rfl, hcount⟩
      refine ⟨decide_eq_false (Nat.not_lt.mpr hcount), ?_⟩
      exact .same h rfl rfl (fun _ => rfl) (fun _ => rfl) nofun nofun
  | deleteLock | deleteFailures =>
      cases hallowed with
      | inl hg => exact absurd hg hlapsed
      | inr hg =>
          have hover := hexpired hg.1 hg.2.1
          rw [hg.2.2] at hover
          cases hover
  | getFailures =>
      rcases hallowed with ⟨rfl, hwrong⟩
      refine ⟨rfl, ?_⟩
      exact .same h rfl rfl id hlock hlapsed hexpired
  | verifyPassword =>
      refine ⟨?_, ?_⟩
      · cases hallowed with
        | inl hg => rw [hg]; rfl
        | inr hg => rw [hg]; rfl
      · exact .same h rfl rfl id (by simp [VerifyProgress.next]) nofun fun _ => hcond
  | setFailures count =>
      rcases hallowed with ⟨rfl, hwrong⟩
      refine ⟨rfl, ?_⟩
      have hcounts := h.counts
      have hthreshold := h.threshold
      have hcond : count < settings.threshold -> count = cfg.shared.failures.getD 0 + 1 := hcond
      show Advance settings cfg { cfg.shared with failures := some count } op (counted count)
      constructor
      · exact id
      · simp
      · nofun
      · nofun
      · show cfg.below settings + (if decide (count < settings.threshold) then 1 else 0) ≤ count
        by_cases hbelow : count < settings.threshold
        · have hstored := hcond hbelow
          simp [hbelow]
          omega
        · simp [hbelow]
          omega
      · show cfg.below settings + (if decide (count < settings.threshold) then 1 else 0) <
          settings.threshold
        by_cases hbelow : count < settings.threshold
        · have hstored := hcond hbelow
          simp [hbelow]
          omega
        · simp [hbelow]
          omega

theorem step (hthreshold : 1 ≤ settings.threshold) (hstatus : userStatus ≠ 0)
    (h : CountsKept settings userStatus cfg) {a : CallAction UserVerify}
    (hcond : cfg.NoLostCount settings a)
    (hstep : (verifyCalls settings userStatus).step cfg a = some cfg') :
    CountsKept settings userStatus cfg' ∧
      (cfg.shared.lock.isSome = true -> cfg'.shared.lock.isSome = true) := by
  have hfollowed := CallSystem.followed_step (userVerify_follows hthreshold hstatus)
    (fun c => possible_exec c cfg.shared) h.followed hstep
  cases CallSystem.step_cases hstep with
  | inl hstart =>
      rcases hstart with ⟨op, rfl, hshared, hcalls⟩
      have hmem : forall call, call ∈ cfg'.calls -> call ∈ cfg.calls ∨
          call.progress = checking := by
        intro call hcall
        cases Calls.mem_start hcalls hcall with
        | inl hold => exact .inl hold
        | inr hnew =>
            rw [hnew]
            exact .inr rfl
      have hbelow : cfg'.below settings = cfg.below settings := by
        unfold VerifyConfig.below
        rw [hcalls, List.countP_append]
        rfl
      constructor
      · constructor
        · exact hfollowed
        · intro call hcall hprogress
          rw [hshared]
          cases hmem call hcall with
          | inl hold => exact h.lock call hold hprogress
          | inr hnew =>
              rw [hnew] at hprogress
              simp at hprogress
        · intro call hcall
          cases hmem call hcall with
          | inl hold => exact h.notLapsed call hold
          | inr hnew =>
              rw [hnew]
              nofun
        · intro call hcall hprogress
          cases hmem call hcall with
          | inl hold => exact h.expired call hold hprogress
          | inr hnew =>
              rw [hnew] at hprogress
              cases hprogress
        · rw [hbelow, hshared]
          exact h.counts
        · rw [hbelow]
          exact h.threshold
      · rw [hshared]
        exact id
  | inr hadvance =>
      rcases hadvance with ⟨i, op, c, k, g, rfl, hi, hshared, hcalls⟩
      have hcall := List.mem_of_getElem? hi
      have hissued : cfg.Counted settings op c := by
        unfold VerifyConfig.NoLostCount at hcond
        dsimp only at hcond
        rw [hi] at hcond
        exact hcond
      obtain ⟨hold, hnew⟩ := h.advance (h.followed _ hcall).1 hissued (h.lock _ hcall)
        (h.notLapsed _ hcall) (h.expired _ hcall)
      have hmem : forall call, call ∈ cfg'.calls -> call ∈ cfg.calls ∨
          call.op = op ∧ call.progress = g.next op c (cfg.shared.exec c).2 := by
        intro call hmem
        cases Calls.mem_advance hcalls hmem with
        | inl hold => exact .inl hold
        | inr hset =>
            rw [hset]
            exact .inr ⟨rfl, rfl⟩
      have hbelow : cfg'.below settings = cfg.below settings +
          if (g.next op c (cfg.shared.exec c).2).below settings.threshold then 1 else 0 := by
        rcases List.getElem?_eq_some_iff.mp hi with ⟨hlt, hget⟩
        unfold VerifyConfig.below
        rw [hcalls, List.countP_set hlt, hget]
        dsimp only
        rw [hold]
        rfl
      have hs : cfg'.shared = (cfg.shared.exec c).1 := hshared
      constructor
      · constructor
        · exact hfollowed
        · intro call hcall' hprogress
          rw [hs]
          cases hmem call hcall' with
          | inl hold => exact hnew.keeps (h.lock call hold hprogress)
          | inr hset =>
              rw [hset.2] at hprogress
              exact hnew.lock hprogress
        · intro call hcall'
          cases hmem call hcall' with
          | inl hold => exact h.notLapsed call hold
          | inr hset =>
              rw [hset.2]
              exact hnew.notLapsed
        · intro call hcall' hprogress
          cases hmem call hcall' with
          | inl hold => exact h.expired call hold hprogress
          | inr hset =>
              rw [hset.2] at hprogress
              rw [hset.1]
              exact hnew.expired hprogress
        · rw [hbelow, hs]
          exact hnew.counts
        · rw [hbelow]
          exact hnew.threshold
      · rw [hs]
        exact hnew.keeps

/-- When as many calls have failed as the threshold says, the account is locked. -/
theorem locked_of_failed (h : CountsKept settings userStatus cfg)
    (hfailed : settings.threshold ≤ cfg.failedCalls) : cfg.shared.lock.isSome = true := by
  by_cases hlock : cfg.shared.lock.isSome = true
  · exact hlock
  · -- otherwise each of them has set a count of its own below the threshold
    have hle : cfg.failedCalls ≤ cfg.below settings := by
      apply List.countP_mono_left
      intro call hcall hfailed
      rcases of_decide_eq_true hfailed with ⟨hwrong, hended⟩
      have hends : Ends settings call.op call.progress (.ok ()) := by
        have hfollows := h.followed call hcall
        rcases call with ⟨op, program, g⟩
        cases program with
        | ret a => exact hfollows
        | raise e => exact hfollows
        | call c k => cases hended
      cases hends hwrong with
      | inl hrejected => exact absurd (h.lock call hcall (.inl hrejected)) hlock
      | inr hrest =>
          cases hrest with
          | inl hlocked => exact absurd (h.lock call hcall (.inr hlocked)) hlock
          | inr hcounted =>
              rcases hcounted with ⟨count, hcount, hbelow⟩
              rw [hcount]
              exact decide_eq_true hbelow
    have hthreshold := h.threshold
    omega

end CountsKept

/-!
# Calls that start afterwards

A call that takes a step has not been rejected, so it begins, and finds the lock.
-/

/-- The password has not been verified: the call has not begun, or `check_status` has
rejected it. -/
def RejectedByStatus (settings : LockSettings) (userStatus : Nat) (call : VerifyCall) : Prop :=
  (call.progress = checking ∨ call.progress = rejected) ∧
    (call.program = AuthService.userVerify settings userStatus call.op ∨
      exists msg, call.program = .raise (.authorization msg))

def LaterRejected (settings : LockSettings) (userStatus : Nat) (n : Nat) (cfg : VerifyConfig) :
    Prop :=
  n ≤ cfg.calls.length ∧ forall i call, n ≤ i -> cfg.calls[i]? = some call ->
    RejectedByStatus settings userStatus call

/-- A call that takes a step has not been rejected, so it begins, and finds the lock. -/
theorem rejected_advance {cfg : VerifyConfig} {op : UserVerify} {c : LockCommand}
    {k : Except AuthError c.Result -> LockAction Unit} {g : VerifyProgress}
    (h : RejectedByStatus settings userStatus ⟨op, .call c k, g⟩)
    (hlocked : userStatus ≠ 0 -> cfg.shared.lock.isSome = true)
    (hcond : cfg.Counted settings op c) :
    RejectedByStatus settings userStatus
      ⟨op, k (cfg.shared.exec c).2, g.next op c (cfg.shared.exec c).2⟩ := by
  rcases h with ⟨-, hprogram⟩
  cases hprogram with
  | inr hraised =>
      rcases hraised with ⟨msg, hraised⟩
      cases hraised
  | inl hbegin =>
      have hbegin : .call c k = AuthService.userVerify settings userStatus op := hbegin
      by_cases hstatus : userStatus = 0
      · rw [hstatus] at hbegin
        cases hbegin
      · rcases userVerify_first hstatus op with ⟨k', hfirst, hends⟩
        rw [hfirst] at hbegin
        cases hbegin
        rcases Option.isSome_iff_exists.mp (hlocked hstatus) with ⟨lockedUntil, hlock⟩
        have hheld : op.checkedAt < lockedUntil := hcond lockedUntil hlock
        have hread : (cfg.shared.exec .getLock).2 = .ok (some lockedUntil) := by
          rw [← hlock]
          rfl
        rw [hread]
        constructor
        · exact .inr (if_pos hheld)
        · exact .inr ⟨_, hends lockedUntil hheld⟩

theorem laterRejected_step {cfg cfg' : VerifyConfig} {n : Nat}
    (h : LaterRejected settings userStatus n cfg)
    (hlocked : userStatus ≠ 0 -> cfg.shared.lock.isSome = true) {a : CallAction UserVerify}
    (hcond : cfg.NoLostCount settings a)
    (hstep : (verifyCalls settings userStatus).step cfg a = some cfg') :
    LaterRejected settings userStatus n cfg' := by
  rcases h with ⟨hn, hlater⟩
  cases CallSystem.step_cases hstep with
  | inl hstart =>
      rcases hstart with ⟨op, -, -, hcalls⟩
      constructor
      · rw [hcalls, List.length_append]
        omega
      · intro i call hi hcall
        rw [hcalls] at hcall
        by_cases hold : i < cfg.calls.length
        · rw [List.getElem?_append_left hold] at hcall
          exact hlater i call hi hcall
        · rw [List.getElem?_append_right (Nat.le_of_not_lt hold)] at hcall
          rcases List.getElem?_eq_some_iff.mp hcall with ⟨hlast, hcall⟩
          rw [List.getElem_singleton] at hcall
          rw [← hcall]
          exact ⟨.inl rfl, .inl rfl⟩
  | inr hadvance =>
      rcases hadvance with ⟨j, op, c, k, g, rfl, hj, -, hcalls⟩
      have hissued : cfg.Counted settings op c := by
        unfold VerifyConfig.NoLostCount at hcond
        dsimp only at hcond
        rw [hj] at hcond
        exact hcond
      constructor
      · rw [hcalls, List.length_set]
        exact hn
      · intro i call hi hcall
        rw [hcalls] at hcall
        by_cases hij : j = i
        · subst hij
          have hlt := (List.getElem?_eq_some_iff.mp hj).1
          rw [List.getElem?_set_self hlt] at hcall
          cases hcall
          exact rejected_advance (hlater j _ hi hj) hlocked hissued
        · rw [List.getElem?_set_ne hij] at hcall
          exact hlater i call hi hcall

/--
In every run without a successful login in which no lock lapses and no count below the
threshold is lost: when as many calls with a wrong password have ended as the threshold
says, `check_status` rejects every call that starts afterwards.
-/
theorem failed_logins_counted (settings : LockSettings) (hthreshold : 1 ≤ settings.threshold)
    (userStatus : Nat) (keys : LockKeys) (mid last : VerifyConfig)
    (hrun : Reaches (verifyCalls settings userStatus).step (NoLostCount settings)
      (VerifyConfig.initial keys) mid)
    (hfailed : settings.threshold ≤ mid.failedCalls)
    (hlater : Reaches (verifyCalls settings userStatus).step (NoLostCount settings) mid last) :
    forall i call, mid.calls.length ≤ i -> last.calls[i]? = some call ->
      RejectedByStatus settings userStatus call := by
  have hkept : userStatus ≠ 0 -> CountsKept settings userStatus mid := by
    intro hstatus
    apply hrun.invariant (CountsKept settings userStatus) (.initial hthreshold keys)
    intro s a s' h hcond hstep
    exact (h.step hthreshold hstatus hcond hstep).1
  have hlast : (userStatus ≠ 0 -> CountsKept settings userStatus last ∧
      last.shared.lock.isSome = true) ∧
        LaterRejected settings userStatus mid.calls.length last := by
    apply hlater.invariant (fun cfg => (userStatus ≠ 0 -> CountsKept settings userStatus cfg ∧
      cfg.shared.lock.isSome = true) ∧ LaterRejected settings userStatus mid.calls.length cfg)
    · constructor
      · intro hstatus
        exact ⟨hkept hstatus, (hkept hstatus).locked_of_failed hfailed⟩
      · constructor
        · exact Nat.le_refl _
        · intro i call hi hcall
          rw [List.getElem?_eq_none hi] at hcall
          cases hcall
    · intro s a s' h hcond hstep
      constructor
      · intro hstatus
        rcases h.1 hstatus with ⟨hs, hlocked⟩
        rcases hs.step hthreshold hstatus hcond hstep with ⟨hs', hkeeps⟩
        exact ⟨hs', hkeeps hlocked⟩
      · exact laterRejected_step h.2 (fun hstatus => (h.1 hstatus).2) hcond hstep
  exact hlast.2.2

/-!
# Samples

Wrong passwords one after another and at once.
-/

def wrongAt (time : Nat) : UserVerify :=
  ⟨false, false, time * 1000000, time * 1000000⟩

def WasRejected (call : VerifyCall) : Prop :=
  call.progress = rejected ∧ call.Ended

instance : DecidablePred WasRejected :=
  fun _ => inferInstanceAs (Decidable (_ ∧ _))

/-- Two wrong passwords one after another lock the account for the third. -/
theorem failed_logins_counted_sample : exists mid last : VerifyConfig,
    Reaches (verifyCalls ⟨2, 300⟩ 1).step (NoLostCount ⟨2, 300⟩)
      (VerifyConfig.initial ⟨none, none⟩) mid ∧
    (2 ≤ mid.failedCalls ∧ mid.calls.length = 2) ∧
    Reaches (verifyCalls ⟨2, 300⟩ 1).step (NoLostCount ⟨2, 300⟩) mid last ∧
    (exists call, last.calls[2]? = some call ∧ WasRejected call ∧
      RejectedByStatus ⟨2, 300⟩ 1 call) := by
  obtain ⟨mid, last, hmid, hfailed, hlast, hcall⟩ := exists_reaches_later
    (verifyCalls ⟨2, 300⟩ 1).step (NoLostCount ⟨2, 300⟩) (VerifyConfig.initial ⟨none, none⟩)
    [.start (wrongAt 10), .advance 0, .advance 0, .advance 0, .advance 0,
      .start (wrongAt 20), .advance 1, .advance 1, .advance 1, .advance 1, .advance 1]
    [.start (wrongAt 30), .advance 2]
    (fun mid : VerifyConfig => 2 ≤ mid.failedCalls ∧ mid.calls.length = 2)
    (fun last => last.calls[2]?.any fun call => WasRejected call) (by decide +kernel)
  rcases (Option.any_eq_true ..).mp hcall with ⟨call, hget, hrejected⟩
  exact ⟨mid, last, hmid, hfailed, hlast, call, hget, of_decide_eq_true hrejected,
    failed_logins_counted ⟨2, 300⟩ (by decide) 1 ⟨none, none⟩ mid last hmid hfailed.1 hlast 2 call
      hfailed.2.le hget⟩

/-- Two wrong passwords at once are counted as one, and the third is verified. -/
theorem failed_logins_counted_fails : ¬ forall (settings : LockSettings),
    1 ≤ settings.threshold -> forall (userStatus : Nat) (keys : LockKeys) (mid last : VerifyConfig),
      Reaches (verifyCalls settings userStatus).step NoLogin (VerifyConfig.initial keys) mid ->
      settings.threshold ≤ mid.failedCalls ->
      Reaches (verifyCalls settings userStatus).step NoLogin mid last ->
      forall i call, mid.calls.length ≤ i -> last.calls[i]? = some call ->
        RejectedByStatus settings userStatus call := by
  intro h
  obtain ⟨mid, last, hmid, hfailed, hlast, hcall⟩ := exists_reaches_later
    (verifyCalls ⟨2, 300⟩ 1).step NoLogin (VerifyConfig.initial ⟨none, none⟩)
    [.start (wrongAt 10), .start (wrongAt 10), .advance 0, .advance 1, .advance 0, .advance 1,
      .advance 0, .advance 1, .advance 0, .advance 1]
    [.start (wrongAt 20), .advance 2, .advance 2]
    (fun mid : VerifyConfig => 2 ≤ mid.failedCalls ∧ mid.calls.length = 2)
    (fun last => last.calls[2]?.any fun call => call.progress = verified) (by decide +kernel)
  rcases (Option.any_eq_true ..).mp hcall with ⟨call, hget, hverified⟩
  have hrejected := h ⟨2, 300⟩ (by decide) 1 ⟨none, none⟩ mid last hmid hfailed.1 hlast 2 call
    hfailed.2.le hget
  have hprogress := hrejected.1
  rw [of_decide_eq_true hverified] at hprogress
  exact absurd hprogress (by decide)

end RagService
