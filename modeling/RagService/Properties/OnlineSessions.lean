import RagService.Auth.Sockets

/-!
# Who is online

When no handler runs, the sessions in the online set are those of the sockets that are
connected, as long as clients name the session of their token, and no socket of a session
connects while a `disconnect` removes the session.
-/

namespace RagService

open Interleaving Transitions

abbrev SocketConfig := Calls socketInterface OnlineKeys SocketCall Bool SocketProgress

abbrev SocketHandler := Call socketInterface SocketCall Bool SocketProgress

abbrev SocketSlot := Bool × Text

def SocketCall.slot : SocketCall -> SocketSlot
  | connect sid _ => (true, sid)
  | disconnect sid => (false, sid)

/-!
# Conditions

What the clients do, and what a session meets while it goes.
-/

/-- A client names the session of its token. -/
def SocketAuth.NamesTokenSession (auth : SocketAuth) : Prop :=
  match auth.token, truthyText auth.sessionUuid with
  | some (.jwt (some session)), some sessionUuid => sessionUuid = session
  | _, _ => True

instance (auth : SocketAuth) : Decidable auth.NamesTokenSession := by
  unfold SocketAuth.NamesTokenSession
  split <;> infer_instance

namespace SocketConfig

def initial : SocketConfig := ⟨.empty, []⟩

/--
A socket connects once, without the anonymous marker, and disconnects at most once, after it
has connected or has been rejected.
-/
def Orderly (cfg : SocketConfig) : CallAction SocketCall -> Prop
  | .start (.connect sid auth) =>
      (true, sid) ∉ cfg.keys SocketCall.slot ∧
        forall a, a ∈ auth -> a.token ≠ some .noAuthMarker
  | .start (.disconnect sid) =>
      (false, sid) ∉ cfg.keys SocketCall.slot ∧
        exists call, call ∈ cfg.calls ∧ call.op.slot = (true, sid) ∧ call.Ended
  | .advance _ => True

/--
The sockets of a session are deleted when there are none, and a session is removed when no
socket of it has added it.
-/
def Unraced (cfg : SocketConfig) : SocketCommand -> Prop
  | .deleteSockets u => cfg.shared.sockets u = []
  | .removeOnline u => forall sid, sid ∈ cfg.shared.sockets u ->
      cfg.progressOf SocketCall.slot (true, sid) ≠ some (.connected u)
  | _ => True

def Careful (cfg : SocketConfig) : CallAction SocketCall -> Prop
  | .start (.connect _ auth) => forall a, a ∈ auth -> a.NamesTokenSession
  | .start (.disconnect _) => True
  | .advance i => forall call, call ∈ cfg.calls[i]? ->
      forall c, c ∈ call.command -> cfg.Unraced c

def OrderlyCareful (cfg : SocketConfig) (a : CallAction SocketCall) : Prop :=
  cfg.Orderly a ∧ cfg.Careful a

instance (cfg : SocketConfig) : (a : CallAction SocketCall) -> Decidable (cfg.Orderly a)
  | .start (.connect _ _) => inferInstanceAs (Decidable (_ ∧ _))
  | .start (.disconnect _) => inferInstanceAs (Decidable (_ ∧ _))
  | .advance _ => .isTrue trivial

instance (cfg : SocketConfig) : (c : SocketCommand) -> Decidable (cfg.Unraced c)
  | .deleteSockets u => inferInstanceAs (Decidable (cfg.shared.sockets u = []))
  | .removeOnline u => inferInstanceAs (Decidable (forall sid, sid ∈ cfg.shared.sockets u ->
      cfg.progressOf SocketCall.slot (true, sid) ≠ some (.connected u)))
  | .setSid _ _ | .getSid _ | .deleteSid _ | .addSocket _ _ | .removeSocket _ _ => .isTrue trivial
  | .countSockets _ | .addOnline _ => .isTrue trivial

instance (cfg : SocketConfig) : (a : CallAction SocketCall) -> Decidable (cfg.Careful a)
  | .start (.connect _ auth) =>
      inferInstanceAs (Decidable (forall a, a ∈ auth -> a.NamesTokenSession))
  | .start (.disconnect _) => .isTrue trivial
  | .advance i => inferInstanceAs (Decidable (forall call, call ∈ cfg.calls[i]? ->
      forall c, c ∈ call.command -> cfg.Unraced c))

instance (cfg : SocketConfig) (a : CallAction SocketCall) : Decidable (cfg.OrderlyCareful a) :=
  inferInstanceAs (Decidable (_ ∧ _))

/-- The socket was accepted with a token of the session, and has not disconnected. -/
def ConnectedBy (cfg : SocketConfig) (u : Text) : SocketHandler -> Prop
  | ⟨.connect sid (some auth), .ret true, _⟩ =>
      auth.token = some (.jwt (some u)) ∧ (false, sid) ∉ cfg.keys SocketCall.slot
  | _ => False

instance (cfg : SocketConfig) (u : Text) : DecidablePred (cfg.ConnectedBy u) := by
  intro call
  unfold ConnectedBy
  split <;> infer_instance

/-- A currently connected socket was accepted with a token of the session. -/
def Connected (cfg : SocketConfig) (u : Text) : Prop :=
  exists call, call ∈ cfg.calls ∧ cfg.ConnectedBy u call

instance (cfg : SocketConfig) : DecidablePred cfg.Connected :=
  fun u => inferInstanceAs (Decidable (exists call, call ∈ cfg.calls ∧ cfg.ConnectedBy u call))

end SocketConfig

open SocketConfig

/-!
# The protocol of a handler

A handler has one session from its start to its end: `connect` that of the token, and
`disconnect` the one that it has found.
-/

namespace SocketProgress

def Admits (auth : Option SocketAuth) (u : Text) : Prop :=
  exists a, auth = some a ∧ truthyText a.sessionUuid = some u ∧
    (a.token = some .noAuthMarker ∨ exists session, a.token = some (.jwt (some session)))

def Allowed : SocketCall -> SocketProgress -> SocketCommand -> Prop
  | .connect sid auth, g, .setSid sid' u => sid' = sid ∧ g = begun ∧ Admits auth u
  | .connect sid _, g, .addSocket u sid' => sid' = sid ∧ g = named u
  | .connect _ _, g, .addOnline u => g = counted u
  | .disconnect sid, g, .getSid sid' => sid' = sid ∧ g = begun
  | .disconnect sid, g, .deleteSid sid' => sid' = sid ∧ exists u, g = known u
  | .disconnect sid, g, .removeSocket u sid' => sid' = sid ∧ g = unnamed u
  | .disconnect _, g, .countSockets u => g = removed u
  | .disconnect _, g, .deleteSockets u => g = alone u
  | .disconnect _, g, .removeOnline u => g = dropped u
  | _, _, _ => False

def Ends : SocketCall -> SocketProgress -> Except Empty Bool -> Prop
  | .connect _ auth, g, .ok accepted =>
      if accepted then exists u, g = connected u ∧ Admits auth u else g = begun
  | .disconnect _, g, .ok _ => g = unknown ∨ exists u, g = left u ∨ g = gone u

end SocketProgress

open SocketProgress

def socketProtocol (prod : Bool) (op : SocketCall) :
    Protocol socketInterface SocketProgress :=
  (socketCalls prod).protocol Allowed (fun _ _ => True) op

theorem goOnline_follows {prod : Bool} {sid u : Text} {auth : Option SocketAuth}
    (hadmits : Admits auth u) : (socketProtocol prod (.connect sid auth)).Follows
      (Ends (.connect sid auth)) begun (goOnline sid u) := by
  apply Protocol.follows_issue_bind
  · exact ⟨rfl, rfl, hadmits⟩
  · intro _ _
    apply Protocol.follows_issue_bind
    · exact ⟨rfl, rfl⟩
    · intro _ _
      apply Protocol.follows_issue_bind
      · rfl
      · intro _ _
        exact ⟨u, rfl, hadmits⟩
      · nofun
    · nofun
  · nofun

theorem connect_follows (prod : Bool) (sid : Text) (auth : Option SocketAuth) :
    (socketProtocol prod (.connect sid auth)).Follows (Ends (.connect sid auth)) begun
      (connect prod sid auth) := by
  have hrejected : (socketProtocol prod (.connect sid auth)).Follows (Ends (.connect sid auth))
      begun (return false) := rfl
  cases auth with
  | none => exact hrejected
  | some a =>
      unfold connect
      dsimp only
      split
      · rename_i u htoken huuid
        split
        · exact hrejected
        · exact goOnline_follows ⟨a, rfl, huuid, .inl htoken⟩
      · rename_i session u htoken huuid
        exact goOnline_follows ⟨a, rfl, huuid, .inr ⟨session, htoken⟩⟩
      · exact hrejected

def Left (g : SocketProgress) (_ : Except Empty Unit) : Prop :=
  g = unknown ∨ exists u, g = left u ∨ g = gone u

theorem goOffline_follows (prod : Bool) (sid u : Text) :
    (socketProtocol prod (.disconnect sid)).Follows Left (known u) (goOffline sid u) := by
  apply Protocol.follows_issue_bind
  · exact ⟨rfl, u, rfl⟩
  · intro _ _
    apply Protocol.follows_issue_bind
    · exact ⟨rfl, rfl⟩
    · intro _ _
      apply Protocol.follows_issue_bind
      · rfl
      · intro count _
        show Protocol.Follows _ _ (if count = 0 then alone u else left u) (if count = 0 then _ else _)
        split
        · apply Protocol.follows_issue_bind
          · rfl
          · intro _ _
            refine ⟨rfl, fun r _ => ?_⟩
            cases r with
            | ok _ => exact .inr ⟨u, .inr rfl⟩
            | error e => nomatch e
          · nofun
        · exact .inr ⟨u, .inl rfl⟩
      · nofun
    · nofun
  · nofun

theorem disconnect_follows (prod : Bool) (sid : Text) :
    (socketProtocol prod (.disconnect sid)).Follows Left begun (disconnect sid) := by
  apply Protocol.follows_issue_bind
  · exact ⟨rfl, rfl⟩
  · intro stored _
    show Protocol.Follows _ _ (begun.next (.getSid sid) (.ok stored)) _
    rw [next_getSid]
    cases truthyText stored with
    | none => exact .inl rfl
    | some u => exact goOffline_follows prod sid u
  · nofun

theorem SocketProgress.body_follows (prod : Bool) (op : SocketCall) :
    (socketProtocol prod op).Follows (Ends op) begun ((socketCalls prod).body op) := by
  cases op with
  | connect sid auth => exact connect_follows prod sid auth
  | disconnect sid =>
      apply Protocol.follows_bind (disconnect_follows prod sid)
      · intro g _ hleft
        exact hleft
      · nofun

namespace SocketProgress

def found : SocketProgress -> Option Text
  | known u | unnamed u | removed u | left u | alone u | dropped u | gone u => some u
  | begun | named _ | counted _ | connected _ | unknown => none

def InSession (g : Option SocketProgress) (u : Text) : Prop :=
  g = some (counted u) ∨ g = some (connected u)

def HasName (g : Option SocketProgress) (u : Text) : Prop :=
  g = some (named u) ∨ InSession g u

def KeepsName (g : Option SocketProgress) : Prop :=
  g = none ∨ g = some begun ∨ exists u, g = some (known u)

def KeepsSocket (g : Option SocketProgress) : Prop :=
  KeepsName g ∨ exists u, g = some (unnamed u)

def Leaving (g : Option SocketProgress) (u : Text) : Prop :=
  g = some (removed u) ∨ g = some (alone u) ∨ g = some (dropped u)

end SocketProgress

open SocketProgress

/-- The keys agree with the handlers of the sockets. -/
structure OnlineKept (s : OnlineKeys) (P : SocketSlot -> Option SocketProgress) : Prop where
  name : forall sid u, s.sid sid = some u ↔
    HasName (P (true, sid)) u ∧ KeepsName (P (false, sid))
  filled : forall sid u, s.sid sid = some u -> u.isEmpty = false
  sockets : forall sid u, sid ∈ s.sockets u ↔
    InSession (P (true, sid)) u ∧ KeepsSocket (P (false, sid))
  online : forall sid u, P (true, sid) = some (connected u) -> KeepsSocket (P (false, sid)) ->
    u ∈ s.online
  /-- a session that is online has sockets, or a handler is about to remove it -/
  support : forall u, u ∈ s.online ->
    (exists sid, sid ∈ s.sockets u) ∨ exists sid, Leaving (P (false, sid)) u
  found : forall sid g u, P (false, sid) = some g -> g.found = some u ->
    P (true, sid) = some (connected u)
  unknown : forall sid, P (false, sid) = some unknown -> P (true, sid) = some begun
  /-- a socket disconnects after it has connected or has been rejected -/
  after : forall sid g, P (false, sid) = some g ->
    P (true, sid) = some begun ∨ exists u, P (true, sid) = some (connected u)

namespace OnlineKept

theorem initial : OnlineKept .empty fun _ => none := by
  constructor
  · intro sid u
    simp [OnlineKeys.empty, HasName, InSession]
  · nofun
  · intro sid u
    simp [OnlineKeys.empty, InSession]
  · nofun
  · nofun
  · nofun
  · nofun
  · nofun

end OnlineKept

/-!
# One socket

The keys of one socket agree with its two handlers, of which `disconnect` begins when `connect`
has ended; the commands of other sockets do not touch them.
-/

structure SocketKept (s : OnlineKeys) (sid : Text) (connect disconnect : Option SocketProgress) :
    Prop where
  name : forall u, s.sid sid = some u ↔ HasName connect u ∧ KeepsName disconnect
  filled : forall u, s.sid sid = some u -> u.isEmpty = false
  sockets : forall u, sid ∈ s.sockets u ↔ InSession connect u ∧ KeepsSocket disconnect
  online : forall u, connect = some (connected u) -> KeepsSocket disconnect -> u ∈ s.online
  found : forall g u, disconnect = some g -> g.found = some u -> connect = some (connected u)
  unknown : disconnect = some unknown -> connect = some begun
  after : forall g, disconnect = some g ->
    connect = some begun ∨ exists u, connect = some (connected u)

namespace SocketKept

variable {s s' : OnlineKeys} {sid u : Text} {c d : Option SocketProgress}

theorem congr (h : SocketKept s sid c d) (hsid : s'.sid sid = s.sid sid)
    (hsockets : forall u, sid ∈ s'.sockets u ↔ sid ∈ s.sockets u)
    (honline : forall u, sid ∈ s.sockets u -> c = some (connected u) -> u ∈ s.online ->
      u ∈ s'.online) : SocketKept s' sid c d := by
  constructor
  · intro u
    rw [hsid]
    exact h.name u
  · intro u hu
    rw [hsid] at hu
    exact h.filled u hu
  · intro u
    rw [hsockets]
    exact h.sockets u
  · intro u hc hkeeps
    exact honline u ((h.sockets u).mpr ⟨.inr hc, hkeeps⟩) hc (h.online u hc hkeeps)
  · exact h.found
  · exact h.unknown
  · exact h.after

theorem disconnect_none {g : SocketProgress} (h : SocketKept s sid (some g) d) (hbegun : g ≠ begun)
    (hconnected : forall u, g ≠ connected u) : d = none := by
  cases d with
  | none => rfl
  | some g' =>
      cases h.after g' rfl with
      | inl hsome => exact absurd (Option.some.inj hsome) hbegun
      | inr hsome =>
          rcases hsome with ⟨u, hsome⟩
          exact absurd (Option.some.inj hsome) (hconnected u)

theorem startConnect (h : SocketKept s sid none none) : SocketKept s sid (some begun) none := by
  constructor
  · intro u
    simpa [HasName, InSession] using h.name u
  · exact h.filled
  · intro u
    simpa [InSession] using h.sockets u
  · nofun
  · nofun
  · nofun
  · nofun

theorem setSid (h : SocketKept s sid (some begun) none) (hfull : u.isEmpty = false) :
    SocketKept { s with sid := Function.update s.sid sid (some u) } sid (some (named u)) none := by
  constructor
  · intro u'
    simp [HasName, InSession, KeepsName]
  · intro u' hu'
    have hsome : some u = some u' := (Function.update_self sid (some u) s.sid).symm.trans hu'
    rwa [← Option.some.inj hsome]
  · intro u'
    simpa [InSession] using h.sockets u'
  · nofun
  · nofun
  · nofun
  · nofun

theorem addSocket (h : SocketKept s sid (some (named u)) none) :
    SocketKept { s with sockets := Function.update s.sockets u ((s.sockets u).insert sid) } sid
      (some (counted u)) none := by
  constructor
  · intro u'
    simpa [HasName, InSession] using h.name u'
  · exact h.filled
  · intro u'
    show sid ∈ Function.update s.sockets u _ u' ↔ _
    rw [Function.update_apply]
    split
    · rename_i hsame
      simp [hsame, InSession, KeepsSocket, KeepsName]
    · rename_i hother
      simpa [InSession, Ne.symm hother] using h.sockets u'
  · nofun
  · nofun
  · nofun
  · nofun

theorem addOnline (h : SocketKept s sid (some (counted u)) none) :
    SocketKept { s with online := s.online.insert u } sid (some (connected u)) none := by
  constructor
  · intro u'
    simpa [HasName, InSession] using h.name u'
  · exact h.filled
  · intro u'
    simpa [InSession] using h.sockets u'
  · intro u' hu' _
    cases hu'
    exact List.mem_insert_self
  · nofun
  · nofun
  · nofun

theorem startDisconnect (h : SocketKept s sid c none)
    (hafter : c = some begun ∨ exists u, c = some (connected u)) :
    SocketKept s sid c (some begun) := by
  constructor
  · intro u
    simpa [KeepsName] using h.name u
  · exact h.filled
  · intro u
    simpa [KeepsSocket, KeepsName] using h.sockets u
  · intro u hc _
    exact h.online u hc (.inl (.inl rfl))
  · nofun
  · nofun
  · intro g _
    exact hafter

theorem found_name (h : SocketKept s sid c (some begun)) (hu : s.sid sid = some u) :
    SocketKept s sid c (some (known u)) := by
  have hconnected : c = some (connected u) := by
    have hname := ((h.name u).mp hu).1
    cases h.after begun rfl with
    | inl hbegun => simp [hbegun, HasName, InSession] at hname
    | inr hsome =>
        rcases hsome with ⟨u', rfl⟩
        simpa [HasName, InSession] using hname
  constructor
  · intro u'
    simpa [KeepsName] using h.name u'
  · exact h.filled
  · intro u'
    simpa [KeepsSocket, KeepsName] using h.sockets u'
  · intro u' hc _
    exact h.online u' hc (.inl (.inr (.inl rfl)))
  · intro g u' hg hfound
    cases hg
    cases hfound
    exact hconnected
  · nofun
  · intro g _
    exact .inr ⟨u, hconnected⟩

theorem found_none (h : SocketKept s sid c (some begun)) (hu : s.sid sid = none) :
    SocketKept s sid c (some SocketProgress.unknown) := by
  have hbegun : c = some begun := by
    cases h.after begun rfl with
    | inl hbegun => exact hbegun
    | inr hsome =>
        rcases hsome with ⟨u', rfl⟩
        have hname := (h.name u').mpr ⟨.inr (.inr rfl), .inr (.inl rfl)⟩
        rw [hu] at hname
        cases hname
  subst hbegun
  constructor
  · intro u'
    simpa [HasName, InSession] using h.name u'
  · exact h.filled
  · intro u'
    simpa [InSession] using h.sockets u'
  · nofun
  · intro g u' hg hfound
    cases hg
    cases hfound
  · intro _
    rfl
  · intro g _
    exact .inl rfl

theorem deleteSid (h : SocketKept s sid c (some (known u))) :
    SocketKept { s with sid := Function.update s.sid sid none } sid c (some (unnamed u)) := by
  rcases h.found _ u rfl rfl with rfl
  constructor
  · intro u'
    simp [KeepsName]
  · intro u' hu'
    cases (Function.update_self sid none s.sid).symm.trans hu'
  · intro u'
    simpa [KeepsSocket, KeepsName] using h.sockets u'
  · intro u' hc _
    exact h.online u' hc (.inl (.inr (.inr ⟨u, rfl⟩)))
  · intro g u' hg hfound
    cases hg
    cases hfound
    rfl
  · nofun
  · intro g _
    exact .inr ⟨u, rfl⟩

theorem advance_removed {g g' : SocketProgress} (h : SocketKept s sid c (some g))
    (hfound : g.found = some u) (hfound' : g'.found = some u) (hname : ¬ KeepsName (some g))
    (hname' : ¬ KeepsName (some g')) (hsocket' : ¬ KeepsSocket (some g'))
    (hsid : s'.sid sid = s.sid sid) (hsockets : forall u, sid ∉ s'.sockets u) :
    SocketKept s' sid c (some g') := by
  rcases h.found g u rfl hfound with rfl
  have hnone : forall u', s'.sid sid ≠ some u' := by
    intro u' hu'
    rw [hsid] at hu'
    exact hname ((h.name u').mp hu').2
  constructor
  · intro u'
    simp [hnone u', hname']
  · intro u' hu'
    exact absurd hu' (hnone u')
  · intro u'
    simp [hsockets u', hsocket']
  · intro u' _ hkeeps
    exact absurd hkeeps hsocket'
  · intro g'' u' hg hu'
    cases hg
    rw [hfound'] at hu'
    cases hu'
    rfl
  · intro hg
    cases hg
    cases hfound'
  · intro g _
    exact .inr ⟨u, rfl⟩

end SocketKept

/-!
# All sockets

A step of a handler keeps the other sockets.  A session stays online while one of its sockets
is connected, as long as none has been added since the sockets were counted.
-/

namespace OnlineKept

variable {s s' : OnlineKeys} {P : SocketSlot -> Option SocketProgress} {sid u : Text}
variable {g : SocketProgress}

theorem socket (h : OnlineKept s P) (sid : Text) :
    SocketKept s sid (P (true, sid)) (P (false, sid)) :=
  ⟨h.name sid, h.filled sid, h.sockets sid, h.online sid, h.found sid, h.unknown sid, h.after sid⟩

theorem of_sockets (h : forall sid, SocketKept s sid (P (true, sid)) (P (false, sid)))
    (hsupport : forall u, u ∈ s.online ->
      (exists sid, sid ∈ s.sockets u) ∨ exists sid, Leaving (P (false, sid)) u) :
    OnlineKept s P :=
  ⟨fun sid => (h sid).name, fun sid => (h sid).filled, fun sid => (h sid).sockets,
    fun sid => (h sid).online, hsupport, fun sid => (h sid).found, fun sid => (h sid).unknown,
    fun sid => (h sid).after⟩

theorem changeConnect (hself : SocketKept s' sid (some g) (P (false, sid)))
    (hothers : forall sid', sid' ≠ sid -> SocketKept s' sid' (P (true, sid')) (P (false, sid')))
    (hsupport : forall u, u ∈ s'.online ->
      (exists sid', sid' ∈ s'.sockets u) ∨ exists sid', Leaving (P (false, sid')) u) :
    OnlineKept s' (Function.update P (true, sid) (some g)) := by
  have hdisconnect : forall sid', Function.update P (true, sid) (some g) (false, sid') =
      P (false, sid') := fun sid' => Function.update_of_ne (by simp) _ _
  apply of_sockets
  · intro sid'
    rw [hdisconnect]
    rcases eq_or_ne sid' sid with rfl | hne
    · rw [Function.update_self]
      exact hself
    · rw [Function.update_of_ne (by simpa using hne)]
      exact hothers sid' hne
  · intro u hu
    cases hsupport u hu with
    | inl hsome => exact .inl hsome
    | inr hleaving =>
        rcases hleaving with ⟨sid', hsid'⟩
        exact .inr ⟨sid', by rwa [hdisconnect]⟩

theorem changeDisconnect (hself : SocketKept s' sid (P (true, sid)) (some g))
    (hothers : forall sid', sid' ≠ sid -> SocketKept s' sid' (P (true, sid')) (P (false, sid')))
    (hsupport : forall u, u ∈ s'.online -> (exists sid', sid' ∈ s'.sockets u) ∨
      Leaving (some g) u ∨ exists sid', sid' ≠ sid ∧ Leaving (P (false, sid')) u) :
    OnlineKept s' (Function.update P (false, sid) (some g)) := by
  have hconnect : forall sid', Function.update P (false, sid) (some g) (true, sid') =
      P (true, sid') := fun sid' => Function.update_of_ne (by simp) _ _
  have hother : forall sid', sid' ≠ sid ->
      Function.update P (false, sid) (some g) (false, sid') = P (false, sid') :=
    fun sid' hne => Function.update_of_ne (by simpa using hne) _ _
  apply of_sockets
  · intro sid'
    rw [hconnect]
    rcases eq_or_ne sid' sid with rfl | hne
    · rw [Function.update_self]
      exact hself
    · rw [hother sid' hne]
      exact hothers sid' hne
  · intro u hu
    rcases hsupport u hu with hsome | hleaving | ⟨sid', hne, hsid'⟩
    · exact .inl hsome
    · exact .inr ⟨sid, by rwa [Function.update_self]⟩
    · exact .inr ⟨sid', by rwa [hother sid' hne]⟩

/-- A session that is online, as a `disconnect` goes on that does not stop removing it. -/
theorem support_disconnect (h : OnlineKept s P)
    (hleaving : Leaving (P (false, sid)) u -> Leaving (some g) u) (hu : u ∈ s.online) :
    (exists sid', sid' ∈ s.sockets u) ∨
      Leaving (some g) u ∨ exists sid', sid' ≠ sid ∧ Leaving (P (false, sid')) u := by
  cases h.support u hu with
  | inl hsome => exact .inl hsome
  | inr hleaves =>
      rcases hleaves with ⟨sid', hsid'⟩
      rcases eq_or_ne sid' sid with rfl | hne
      · exact .inr (.inl (hleaving hsid'))
      · exact .inr (.inr ⟨sid', hne, hsid'⟩)

theorem startConnect (h : OnlineKept s P) (hnew : P (true, sid) = none)
    (hnone : P (false, sid) = none) :
    OnlineKept s (Function.update P (true, sid) (some begun)) := by
  have hsocket := h.socket sid
  rw [hnew, hnone] at hsocket
  apply changeConnect
  · rw [hnone]
    exact hsocket.startConnect
  · exact fun sid' _ => h.socket sid'
  · exact h.support

theorem startDisconnect (h : OnlineKept s P) (hnew : P (false, sid) = none)
    (hconnect : P (true, sid) = some begun ∨ exists u, P (true, sid) = some (connected u)) :
    OnlineKept s (Function.update P (false, sid) (some begun)) := by
  have hsocket := h.socket sid
  rw [hnew] at hsocket
  apply changeDisconnect
  · exact hsocket.startDisconnect hconnect
  · exact fun sid' _ => h.socket sid'
  · intro u hu
    apply h.support_disconnect _ hu
    simp [hnew, Leaving]

theorem setSid (h : OnlineKept s P) (hbegun : P (true, sid) = some begun)
    (hnone : P (false, sid) = none) (hfull : u.isEmpty = false) :
    OnlineKept { s with sid := Function.update s.sid sid (some u) }
      (Function.update P (true, sid) (some (named u))) := by
  have hsocket := h.socket sid
  rw [hbegun, hnone] at hsocket
  apply changeConnect
  · rw [hnone]
    exact hsocket.setSid hfull
  · intro sid' hne
    apply (h.socket sid').congr
    · exact Function.update_of_ne hne _ _
    · exact fun _ => Iff.rfl
    · exact fun _ _ _ honline => honline
  · exact h.support

theorem addSocket (h : OnlineKept s P) (hnamed : P (true, sid) = some (named u)) :
    OnlineKept
      { s with sockets := Function.update s.sockets u ((s.sockets u).insert sid) }
      (Function.update P (true, sid) (some (counted u))) := by
  have hsocket := h.socket sid
  rw [hnamed] at hsocket
  have hnone := hsocket.disconnect_none nofun nofun
  rw [hnone] at hsocket
  have hmem : forall sid' u', sid' ∈ Function.update s.sockets u ((s.sockets u).insert sid) u' ↔
      u' = u ∧ sid' = sid ∨ sid' ∈ s.sockets u' := by
    intro sid' u'
    rw [Function.update_apply]
    split
    · rename_i hsame
      rw [hsame, List.mem_insert_iff, eq_self, true_and]
    · rename_i hother
      simp [hother]
  apply changeConnect
  · rw [hnone]
    exact hsocket.addSocket
  · intro sid' hne
    apply (h.socket sid').congr
    · rfl
    · intro u'
      rw [hmem]
      exact or_iff_right fun hboth => hne hboth.2
    · exact fun _ _ _ honline => honline
  · intro u' hu'
    cases h.support u' hu' with
    | inl hsome =>
        rcases hsome with ⟨sid', hsid'⟩
        exact .inl ⟨sid', (hmem sid' u').mpr (.inr hsid')⟩
    | inr hleaving => exact .inr hleaving

theorem addOnline (h : OnlineKept s P) (hcounted : P (true, sid) = some (counted u)) :
    OnlineKept { s with online := s.online.insert u }
      (Function.update P (true, sid) (some (connected u))) := by
  have hsocket := h.socket sid
  rw [hcounted] at hsocket
  have hnone := hsocket.disconnect_none nofun nofun
  rw [hnone] at hsocket
  apply changeConnect
  · rw [hnone]
    exact hsocket.addOnline
  · intro sid' _
    apply (h.socket sid').congr
    · rfl
    · exact fun _ => Iff.rfl
    · exact fun _ _ _ honline => List.mem_insert_of_mem honline
  · intro u' hu'
    cases List.mem_insert_iff.mp hu' with
    | inl hsame =>
        rw [hsame]
        exact .inl ⟨sid, (hsocket.sockets u).mpr ⟨.inl rfl, .inl (.inl rfl)⟩⟩
    | inr hold => exact h.support u' hold

theorem found_name (h : OnlineKept s P) (hbegun : P (false, sid) = some begun)
    (hu : s.sid sid = some u) :
    OnlineKept s (Function.update P (false, sid) (some (known u))) := by
  have hsocket := h.socket sid
  rw [hbegun] at hsocket
  apply changeDisconnect
  · exact hsocket.found_name hu
  · exact fun sid' _ => h.socket sid'
  · intro u hu
    apply h.support_disconnect _ hu
    simp [hbegun, Leaving]

theorem found_none (h : OnlineKept s P) (hbegun : P (false, sid) = some begun)
    (hu : s.sid sid = none) :
    OnlineKept s (Function.update P (false, sid) (some SocketProgress.unknown)) := by
  have hsocket := h.socket sid
  rw [hbegun] at hsocket
  apply changeDisconnect
  · exact hsocket.found_none hu
  · exact fun sid' _ => h.socket sid'
  · intro u hu
    apply h.support_disconnect _ hu
    simp [hbegun, Leaving]

theorem deleteSid (h : OnlineKept s P) (hknown : P (false, sid) = some (known u)) :
    OnlineKept { s with sid := Function.update s.sid sid none }
      (Function.update P (false, sid) (some (unnamed u))) := by
  have hsocket := h.socket sid
  rw [hknown] at hsocket
  apply changeDisconnect
  · exact hsocket.deleteSid
  · intro sid' hne
    apply (h.socket sid').congr
    · exact Function.update_of_ne hne _ _
    · exact fun _ => Iff.rfl
    · exact fun _ _ _ honline => honline
  · intro u hu
    apply h.support_disconnect _ hu
    simp [hknown, Leaving]

theorem removeSocket (h : OnlineKept s P) (hunnamed : P (false, sid) = some (unnamed u)) :
    OnlineKept
      { s with sockets := Function.update s.sockets u ((s.sockets u).filter (· ≠ sid)) }
      (Function.update P (false, sid) (some (removed u))) := by
  have hsocket := h.socket sid
  rw [hunnamed] at hsocket
  have hmem : forall sid' u',
      sid' ∈ Function.update s.sockets u ((s.sockets u).filter (· ≠ sid)) u' ↔
        sid' ∈ s.sockets u' ∧ ¬ (u' = u ∧ sid' = sid) := by
    intro sid' u'
    rw [Function.update_apply]
    split
    · rename_i hsame
      simp [hsame]
    · rename_i hother
      simp [hother]
  apply changeDisconnect
  · apply hsocket.advance_removed rfl rfl
    · simp [KeepsName]
    · simp [KeepsName]
    · simp [KeepsSocket, KeepsName]
    · rfl
    · intro u' hin
      rcases (hmem sid u').mp hin with ⟨hold, hother⟩
      have hconnected := hsocket.found _ u rfl rfl
      have hsession := ((hsocket.sockets u').mp hold).1
      rw [hconnected] at hsession
      exact hother ⟨by simpa [InSession, eq_comm] using hsession, rfl⟩
  · intro sid' hne
    apply (h.socket sid').congr
    · rfl
    · intro u'
      rw [hmem]
      exact and_iff_left fun hboth => hne hboth.2
    · exact fun _ _ _ honline => honline
  · intro u' hu'
    have hleaving : Leaving (P (false, sid)) u' -> Leaving (some (removed u)) u' := by
      simp [hunnamed, Leaving]
    cases h.support_disconnect hleaving hu' with
    | inl hsome =>
        rcases hsome with ⟨sid', hsid'⟩
        rcases eq_or_ne u' u with rfl | hother
        · exact .inr (.inl (.inl rfl))
        · exact .inl ⟨sid', (hmem sid' u').mpr ⟨hsid', fun hboth => hother hboth.1⟩⟩
    | inr hleaves => exact .inr hleaves

theorem goOn (h : OnlineKept s P) {g' : SocketProgress} (hg : P (false, sid) = some g)
    (hfound : g.found = some u) (hfound' : g'.found = some u)
    (hkeeps : ¬ KeepsSocket (some g)) (hkeeps' : ¬ KeepsSocket (some g'))
    (hsid : s'.sid = s.sid) (hsockets : s'.sockets = s.sockets)
    (hothers : forall sid' u, sid' ∈ s.sockets u -> P (true, sid') = some (connected u) ->
      u ∈ s.online -> u ∈ s'.online)
    (hsupport : forall u, u ∈ s'.online -> (exists sid', sid' ∈ s.sockets u) ∨
      Leaving (some g') u ∨ exists sid', sid' ≠ sid ∧ Leaving (P (false, sid')) u) :
    OnlineKept s' (Function.update P (false, sid) (some g')) := by
  have hsocket := h.socket sid
  rw [hg] at hsocket
  apply changeDisconnect
  · apply hsocket.advance_removed hfound hfound'
    · exact fun hname => hkeeps (.inl hname)
    · exact fun hname => hkeeps' (.inl hname)
    · exact hkeeps'
    · rw [hsid]
    · intro u' hin
      rw [hsockets] at hin
      exact hkeeps ((hsocket.sockets u').mp hin).2
  · intro sid' _
    apply (h.socket sid').congr
    · rw [hsid]
    · intro u'
      rw [hsockets]
    · exact fun u' => hothers sid' u'
  · rw [hsockets]
    exact hsupport

theorem count_none (h : OnlineKept s P) (hremoved : P (false, sid) = some (removed u)) :
    OnlineKept s (Function.update P (false, sid) (some (alone u))) := by
  apply h.goOn hremoved rfl rfl
  · simp [KeepsSocket, KeepsName]
  · simp [KeepsSocket, KeepsName]
  · rfl
  · rfl
  · exact fun _ _ _ _ honline => honline
  · intro u' hu'
    apply h.support_disconnect _ hu'
    simp [hremoved, Leaving]

theorem count_some (h : OnlineKept s P) (hremoved : P (false, sid) = some (removed u))
    (hcount : s.sockets u ≠ []) :
    OnlineKept s (Function.update P (false, sid) (some (left u))) := by
  apply h.goOn hremoved rfl rfl
  · simp [KeepsSocket, KeepsName]
  · simp [KeepsSocket, KeepsName]
  · rfl
  · rfl
  · exact fun _ _ _ _ honline => honline
  · intro u' hu'
    by_cases hsame : u' = u
    · rw [hsame]
      exact .inl (List.exists_mem_of_ne_nil _ hcount)
    · apply h.support_disconnect _ hu'
      simp [hremoved, Leaving, Ne.symm hsame]

theorem deleteSockets (h : OnlineKept s P) (halone : P (false, sid) = some (alone u))
    (hempty : s.sockets u = []) :
    OnlineKept { s with sockets := Function.update s.sockets u [] }
      (Function.update P (false, sid) (some (dropped u))) := by
  apply h.goOn halone rfl rfl
  · simp [KeepsSocket, KeepsName]
  · simp [KeepsSocket, KeepsName]
  · rfl
  · rw [← hempty]
    exact Function.update_eq_self u s.sockets
  · exact fun _ _ _ _ honline => honline
  · intro u' hu'
    apply h.support_disconnect _ hu'
    simp [halone, Leaving]

theorem removeOnline (h : OnlineKept s P) (hdropped : P (false, sid) = some (dropped u))
    (hsafe : forall sid', sid' ∈ s.sockets u -> P (true, sid') ≠ some (connected u)) :
    OnlineKept { s with online := s.online.filter (· ≠ u) }
      (Function.update P (false, sid) (some (gone u))) := by
  apply h.goOn hdropped rfl rfl
  · simp [KeepsSocket, KeepsName]
  · simp [KeepsSocket, KeepsName]
  · rfl
  · rfl
  · intro sid' u' hsid' hconnected honline
    apply List.mem_filter.mpr
    refine ⟨honline, decide_eq_true fun hsame => ?_⟩
    rw [hsame] at hsid' hconnected
    exact hsafe sid' hsid' hconnected
  · intro u' hu'
    rcases List.mem_filter.mp hu' with ⟨honline, hother⟩
    apply h.support_disconnect _ honline
    have hne : u ≠ u' := Ne.symm (of_decide_eq_true hother)
    simp [hdropped, Leaving, hne]

variable {cfg cfg' : SocketConfig}

theorem advance (h : OnlineKept cfg.shared (cfg.progressOf SocketCall.slot)) {op : SocketCall}
    {c : SocketCommand} {g : SocketProgress} (hallowed : Allowed op g c)
    (hunraced : cfg.Unraced c) (hg : cfg.progressOf SocketCall.slot op.slot = some g)
    (hnone : forall sid, op.slot = (true, sid) ->
      cfg.progressOf SocketCall.slot (false, sid) = none) :
    OnlineKept (cfg.shared.exec c).1 (Function.update (cfg.progressOf SocketCall.slot) op.slot
      (some (g.next c (cfg.shared.exec c).2))) := by
  cases op with
  | connect sid auth =>
      cases c with
      | setSid sid' u =>
          rcases hallowed with ⟨rfl, rfl, a, -, huuid, -⟩
          apply h.setSid hg (hnone sid' rfl)
          rcases Option.filter_eq_some_iff.mp huuid with ⟨-, hfull⟩
          simpa using hfull
      | addSocket u sid' =>
          rcases hallowed with ⟨rfl, rfl⟩
          exact h.addSocket hg
      | addOnline u =>
          cases hallowed
          exact h.addOnline hg
      | getSid _ | deleteSid _ | removeSocket _ _ | countSockets _ | deleteSockets _
      | removeOnline _ => exact hallowed.elim
  | disconnect sid =>
      cases c with
      | getSid sid' =>
          rcases hallowed with ⟨rfl, rfl⟩
          show OnlineKept cfg.shared (Function.update _ _ (some
            (begun.next (.getSid sid') (.ok (cfg.shared.sid sid')))))
          rw [next_getSid]
          cases hstored : cfg.shared.sid sid' with
          | none => exact h.found_none hg hstored
          | some u =>
              have hfull : truthyText (some u) = some u := by
                simp [truthyText, Option.filter, h.filled sid' u hstored]
              rw [hfull]
              exact h.found_name hg hstored
      | deleteSid sid' =>
          rcases hallowed with ⟨rfl, u, rfl⟩
          exact h.deleteSid hg
      | removeSocket u sid' =>
          rcases hallowed with ⟨rfl, rfl⟩
          exact h.removeSocket hg
      | countSockets u =>
          cases hallowed
          show OnlineKept cfg.shared (Function.update _ _
            (some (if (cfg.shared.sockets u).length = 0 then alone u else .left u)))
          split
          · exact h.count_none hg
          · rename_i hcount
            exact h.count_some hg (mt List.length_eq_zero_iff.mpr hcount)
      | deleteSockets u =>
          cases hallowed
          exact h.deleteSockets hg hunraced
      | removeOnline u =>
          cases hallowed
          exact h.removeOnline hg hunraced
      | setSid _ _ | addSocket _ _ | addOnline _ => exact hallowed.elim

end OnlineKept

/-!
# Runs

When no handler runs, the progress of each socket is that of an ended handler.
-/

structure SocketsKept (prod : Bool) (cfg : SocketConfig) : Prop where
  followed : (socketCalls prod).Followed Allowed (fun _ _ => True) Ends cfg
  keys : (cfg.keys SocketCall.slot).Nodup
  kept : OnlineKept cfg.shared (cfg.progressOf SocketCall.slot)
  session : forall call, call ∈ cfg.calls -> forall sid auth, call.op = .connect sid (some auth) ->
    auth.NamesTokenSession ∧ auth.token ≠ some .noAuthMarker
  /-- a socket disconnects when its `connect` has ended -/
  ended : forall sid, (false, sid) ∈ cfg.keys SocketCall.slot ->
    exists call, call ∈ cfg.calls ∧ call.op.slot = (true, sid) ∧ call.Ended

namespace SocketsKept

variable {prod : Bool} {cfg cfg' : SocketConfig}

theorem initial (prod : Bool) : SocketsKept prod .initial := by
  constructor
  · nofun
  · exact .nil
  · exact OnlineKept.initial
  · nofun
  · nofun

theorem progress_of_ended (h : SocketsKept prod cfg) {call : SocketHandler} {sid : Text}
    (hcall : call ∈ cfg.calls) (hslot : call.op.slot = (true, sid)) (hended : call.Ended) :
    cfg.progressOf SocketCall.slot (true, sid) = some begun ∨
      exists u, cfg.progressOf SocketCall.slot (true, sid) = some (connected u) := by
  have hprogress : cfg.progressOf SocketCall.slot (true, sid) = some call.progress :=
    (Calls.progressOf_eq_some h.keys).mpr ⟨call, hcall, hslot, rfl⟩
  rw [hprogress]
  have hfollows := h.followed call hcall
  rcases call with ⟨op, program, g⟩
  cases op with
  | disconnect _ => cases hslot
  | connect _ auth =>
      cases program with
      | call c k => cases hended
      | raise e => nomatch e
      | ret accepted =>
          have hends : if accepted then exists u, g = connected u ∧ Admits auth u else g = begun :=
            hfollows
          split at hends
          · rcases hends with ⟨u, hg, -⟩
            exact .inr ⟨u, congrArg some hg⟩
          · exact .inl (congrArg some hends)

theorem kept_start (h : SocketsKept prod cfg) {op : SocketCall}
    (hcond : cfg.Orderly (.start op)) : OnlineKept cfg.shared
      (Function.update (cfg.progressOf SocketCall.slot) op.slot (some begun)) := by
  cases op with
  | connect sid auth =>
      apply h.kept.startConnect
      · exact Calls.progressOf_eq_none.mpr hcond.1
      · apply Calls.progressOf_eq_none.mpr
        intro hdisconnect
        rcases h.ended sid hdisconnect with ⟨call, hcall, hslot, -⟩
        apply hcond.1
        rw [← hslot]
        exact List.mem_map_of_mem (f := fun call => SocketCall.slot call.op) hcall
  | disconnect sid =>
      rcases hcond with ⟨hnew, call, hcall, hslot, hended⟩
      apply h.kept.startDisconnect
      · exact Calls.progressOf_eq_none.mpr hnew
      · exact h.progress_of_ended hcall hslot hended

theorem kept_advance (h : SocketsKept prod cfg) {i : Nat} {op : SocketCall} {c : SocketCommand}
    {k : Except Empty c.Result -> SocketAction Bool} {g : SocketProgress}
    (hi : cfg.calls[i]? = some ⟨op, .call c k, g⟩) (hunraced : cfg.Unraced c) :
    OnlineKept (cfg.shared.exec c).1 (Function.update (cfg.progressOf SocketCall.slot) op.slot
      (some (g.next c (cfg.shared.exec c).2))) := by
  have hcall := List.mem_of_getElem? hi
  apply h.kept.advance (h.followed _ hcall).1 hunraced
  · exact (Calls.progressOf_eq_some h.keys).mpr ⟨_, hcall, rfl, rfl⟩
  · intro sid hslot
    apply Calls.progressOf_eq_none.mpr
    intro hdisconnect
    rcases h.ended sid hdisconnect with ⟨call, hmem, hconnect, hended⟩
    -- the `connect` of the socket is this call, and has not ended
    have hsame := List.inj_on_of_nodup_map h.keys hmem hcall (hconnect.trans hslot.symm)
    rw [hsame] at hended
    exact hended

theorem step (h : SocketsKept prod cfg) {a : CallAction SocketCall}
    (hcond : cfg.OrderlyCareful a) (hstep : (socketCalls prod).step cfg a = some cfg') :
    SocketsKept prod cfg' := by
  have hfollowed := CallSystem.followed_step (body_follows prod) (fun _ => trivial)
    h.followed hstep
  have hsession : forall call, call ∈ cfg'.calls -> forall sid auth,
      call.op = .connect sid (some auth) ->
        auth.NamesTokenSession ∧ auth.token ≠ some .noAuthMarker := by
    intro call hcall sid auth hop
    cases CallSystem.op_of_step hstep hcall with
    | inl hold =>
        rcases hold with ⟨old, hmem, hsame⟩
        exact h.session old hmem sid auth (hsame.trans hop)
    | inr hnew =>
        rw [hop] at hnew
        rw [hnew] at hcond
        exact ⟨hcond.2 auth rfl, hcond.1.2 auth rfl⟩
  have hkeep : forall sid, (false, sid) ∈ cfg.keys SocketCall.slot ->
      exists call, call ∈ cfg'.calls ∧ call.op.slot = (true, sid) ∧ call.Ended := by
    intro sid hdisconnect
    rcases h.ended sid hdisconnect with ⟨call, hcall, hslot, hended⟩
    exact ⟨call, CallSystem.mem_of_ended hstep hcall hended, hslot, hended⟩
  cases CallSystem.step_cases hstep with
  | inl hstart =>
      rcases hstart with ⟨op, rfl, hshared, hcalls⟩
      have hnew : op.slot ∉ cfg.keys SocketCall.slot := by
        cases op with
        | connect sid auth => exact hcond.1.1
        | disconnect sid => exact hcond.1.1
      have hkeys : cfg'.keys SocketCall.slot = cfg.keys SocketCall.slot ++ [op.slot] :=
        Calls.keys_start hcalls
      constructor
      · exact hfollowed
      · exact Calls.nodup_keys_start h.keys hcalls hnew
      · rw [hshared, Calls.progressOf_start hcalls hnew]
        exact h.kept_start hcond.1
      · exact hsession
      · intro sid hdisconnect
        rw [hkeys] at hdisconnect
        cases List.mem_append.mp hdisconnect with
        | inl hold => exact hkeep sid hold
        | inr hlast =>
            have hop := List.mem_singleton.mp hlast
            cases op with
            | connect _ _ => cases hop
            | disconnect _ =>
                cases hop
                rcases hcond.1.2 with ⟨call, hcall, hslot, hended⟩
                exact ⟨call, CallSystem.mem_of_ended hstep hcall hended, hslot, hended⟩
  | inr hadvance =>
      rcases hadvance with ⟨i, op, c, k, g, rfl, hi, hshared, hcalls⟩
      rcases Calls.progressOf_advance h.keys hcalls hi rfl with ⟨hkeys, -, hprogress⟩
      constructor
      · exact hfollowed
      · rw [hkeys]
        exact h.keys
      · rw [hshared, hprogress]
        exact h.kept_advance hi (hcond.2 _ hi c rfl)
      · exact hsession
      · intro sid hdisconnect
        rw [hkeys] at hdisconnect
        exact hkeep sid hdisconnect

end SocketsKept
theorem SocketConfig.connected_iff {prod : Bool} {cfg : SocketConfig} (h : SocketsKept prod cfg)
    (hended : forall call, call ∈ cfg.calls -> call.Ended) (u : Text) :
    cfg.Connected u ↔ exists sid, cfg.progressOf SocketCall.slot (true, sid) = some (connected u) ∧
      cfg.progressOf SocketCall.slot (false, sid) = none := by
  constructor
  · intro hconnected
    rcases hconnected with ⟨call, hcall, hby⟩
    unfold ConnectedBy at hby
    split at hby
    case h_2 => exact hby.elim
    rename_i sid auth g
    rcases hby with ⟨htoken, hnone⟩
    exists sid
    constructor
    · rcases h.session _ hcall sid auth rfl with ⟨hnames, -⟩
      have hends : exists v, g = connected v ∧ Admits (some auth) v := h.followed _ hcall
      rcases hends with ⟨v, rfl, a, ha, huuid, -⟩
      cases ha
      unfold SocketAuth.NamesTokenSession at hnames
      rw [htoken, huuid] at hnames
      apply (Calls.progressOf_eq_some h.keys).mpr
      refine ⟨_, hcall, rfl, ?_⟩
      show connected v = connected u
      rw [show v = u from hnames]
    · exact Calls.progressOf_eq_none.mpr hnone
  · intro hslots
    rcases hslots with ⟨sid, hconnected, hnone⟩
    rcases (Calls.progressOf_eq_some h.keys).mp hconnected with ⟨call, hcall, hslot, hprogress⟩
    have hfollows := h.followed call hcall
    have hcallEnded := hended call hcall
    have hsession := h.session call hcall
    rcases call with ⟨op, program, g⟩
    cases op with
    | disconnect _ => cases hslot
    | connect sid' auth =>
        cases hslot
        cases program with
        | call c k => cases hcallEnded
        | raise e => nomatch e
        | ret accepted =>
            have hends : if accepted then exists v, g = connected v ∧ Admits auth v
              else g = begun := hfollows
            have hg : g = connected u := hprogress
            cases accepted with
            | false =>
                have hbegun : g = begun := hends
                rw [hg] at hbegun
                cases hbegun
            | true =>
                rcases hends with ⟨v, hv, a, rfl, huuid, hadmitted⟩
                rw [hg] at hv
                cases hv
                rcases hsession sid a rfl with ⟨hnames, hmarker⟩
                refine ⟨_, hcall, ?_, Calls.progressOf_eq_none.mp hnone⟩
                cases hadmitted with
                | inl hno => exact absurd hno hmarker
                | inr hjwt =>
                    rcases hjwt with ⟨session, htoken⟩
                    unfold SocketAuth.NamesTokenSession at hnames
                    rw [htoken, huuid] at hnames
                    rw [htoken, show u = session from hnames]

theorem in_session_of_ended {prod : Bool} {cfg : SocketConfig} (h : SocketsKept prod cfg)
    (hended : forall call, call ∈ cfg.calls -> call.Ended) {sid u : Text}
    (hin : InSession (cfg.progressOf SocketCall.slot (true, sid)) u) :
    cfg.progressOf SocketCall.slot (true, sid) = some (connected u) := by
  cases hin with
  | inr hconnected => exact hconnected
  | inl hcounted =>
      rcases (Calls.progressOf_eq_some h.keys).mp hcounted with ⟨call, hcall, hslot, -⟩
      have hprogress := h.progress_of_ended hcall hslot (hended call hcall)
      simp [hcounted] at hprogress

theorem ended_disconnect {prod : Bool} {cfg : SocketConfig} (h : SocketsKept prod cfg)
    (hended : forall call, call ∈ cfg.calls -> call.Ended) {sid : Text} {g : SocketProgress}
    (hg : cfg.progressOf SocketCall.slot (false, sid) = some g) :
    g = .unknown ∨ exists u, g = .left u ∨ g = .gone u := by
  rcases (Calls.progressOf_eq_some h.keys).mp hg with ⟨call, hcall, hslot, hprogress⟩
  have hfollows := h.followed call hcall
  have hcallEnded := hended call hcall
  rcases call with ⟨op, program, g'⟩
  cases op with
  | connect _ _ => cases hslot
  | disconnect _ =>
      cases program with
      | call c k => cases hcallEnded
      | raise e => nomatch e
      | ret accepted =>
          have hends : g' = .unknown ∨ exists u, g' = .left u ∨ g' = .gone u := hfollows
          rw [← hprogress]
          exact hends

/--
When clients name the sessions of their tokens and no socket connects while a `disconnect`
removes its session, the sessions that are online are those of the connected sockets.
-/
theorem online_sessions_connected (prod : Bool) (last : SocketConfig)
    (hrun : Reaches (socketCalls prod).step OrderlyCareful SocketConfig.initial last)
    (hended : forall call, call ∈ last.calls -> call.Ended) (u : Text) :
    u ∈ last.shared.online ↔ last.Connected u := by
  have h : SocketsKept prod last := by
    apply hrun.invariant (SocketsKept prod) (.initial prod)
    intro s a s' hs hcond hstep
    exact hs.step hcond hstep
  rw [connected_iff h hended]
  constructor
  · intro honline
    cases h.kept.support u honline with
    | inl hsome =>
        rcases hsome with ⟨sid, hsid⟩
        rcases (h.kept.sockets sid u).mp hsid with ⟨hin, hkeeps⟩
        exists sid
        constructor
        · exact in_session_of_ended h hended hin
        · cases hdisconnect : last.progressOf SocketCall.slot (false, sid) with
          | none => rfl
          | some g =>
              -- the handler that keeps its socket has not ended
              rw [hdisconnect] at hkeeps
              rcases ended_disconnect h hended hdisconnect with rfl | ⟨v, rfl | rfl⟩
              · simp [KeepsSocket, KeepsName] at hkeeps
              · simp [KeepsSocket, KeepsName] at hkeeps
              · simp [KeepsSocket, KeepsName] at hkeeps
    | inr hleaving =>
        rcases hleaving with ⟨sid, hsid⟩
        cases hdisconnect : last.progressOf SocketCall.slot (false, sid) with
        | none => simp [Leaving, hdisconnect] at hsid
        | some g =>
            rw [hdisconnect] at hsid
            rcases ended_disconnect h hended hdisconnect with rfl | ⟨v, rfl | rfl⟩
            · simp [Leaving] at hsid
            · simp [Leaving] at hsid
            · simp [Leaving] at hsid
  · intro hsockets
    rcases hsockets with ⟨sid, hconnected, hnone⟩
    exact h.kept.online sid u hconnected (.inl (.inl hnone))

/-!
# Samples

Two tabs of a session, and a client that names another session than that of its token.
-/

def AllEnded (cfg : SocketConfig) : Prop :=
  forall call, call ∈ cfg.calls -> call.Ended

instance : DecidablePred AllEnded :=
  fun cfg => inferInstanceAs (Decidable (forall call, call ∈ cfg.calls -> call.Ended))

def openTab (sid sessionUuid tokenSession : String) : CallAction SocketCall :=
  .start (.connect sid.toList
    (some ⟨some sessionUuid.toList, some (.jwt (some tokenSession.toList))⟩))

def closeTab (sid : String) : CallAction SocketCall :=
  .start (.disconnect sid.toList)

/-- Of two tabs of a session one is closed, and the session stays online. -/
theorem online_sessions_connected_sample : exists last : SocketConfig,
    Reaches (socketCalls true).step OrderlyCareful SocketConfig.initial last ∧
    (AllEnded last ∧ "x".toList ∈ last.shared.online) ∧ last.Connected "x".toList := by
  obtain ⟨last, hrun, hended, honline⟩ := exists_reaches (socketCalls true).step OrderlyCareful
    SocketConfig.initial
    [openTab "1" "x" "x", openTab "2" "x" "x", .advance 0, .advance 1, .advance 0, .advance 1,
      .advance 0, .advance 1, closeTab "1", .advance 2, .advance 2, .advance 2, .advance 2]
    (fun last : SocketConfig => AllEnded last ∧ "x".toList ∈ last.shared.online) (by decide +kernel)
  exact ⟨last, hrun, ⟨hended, honline⟩,
    (online_sessions_connected true last hrun hended "x".toList).mp honline⟩

/--
A `disconnect` counts no sockets of its session, another tab connects, and the `disconnect`
removes the session.
-/
theorem online_sessions_connected_fails : ¬ forall (prod : Bool) (last : SocketConfig),
    Reaches (socketCalls prod).step Orderly SocketConfig.initial last ->
    (forall call, call ∈ last.calls -> call.Ended) ->
      forall u, u ∈ last.shared.online ↔ last.Connected u := by
  intro h
  obtain ⟨last, hrun, hended, honline, hconnected⟩ := exists_reaches (socketCalls true).step
    Orderly SocketConfig.initial
    [openTab "1" "x" "x", .advance 0, .advance 0, .advance 0, closeTab "1", .advance 1,
      .advance 1, .advance 1, .advance 1, openTab "2" "x" "x", .advance 2, .advance 2,
      .advance 2, .advance 1, .advance 1]
    (fun last : SocketConfig =>
      AllEnded last ∧ "x".toList ∉ last.shared.online ∧ last.Connected "x".toList)
    (by decide +kernel)
  exact honline ((h true last hrun hended "x".toList).mpr hconnected)

/-- A client names another session than that of its token, and that session is online. -/
theorem other_session_online : exists last : SocketConfig,
    Reaches (socketCalls true).step Orderly SocketConfig.initial last ∧
    AllEnded last ∧ "y".toList ∈ last.shared.online ∧ ¬ last.Connected "y".toList :=
  exists_reaches (socketCalls true).step Orderly SocketConfig.initial
    [openTab "1" "y" "x", .advance 0, .advance 0, .advance 0]
    (fun last : SocketConfig =>
      AllEnded last ∧ "y".toList ∈ last.shared.online ∧ ¬ last.Connected "y".toList)
    (by decide +kernel)

end RagService
