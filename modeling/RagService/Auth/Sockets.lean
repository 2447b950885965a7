import RagService.Foundation.Calls
import RagService.Foundation.Text

/-!
# Sockets

The `connect` and `disconnect` handlers of the socket server over the keys of Redis that
say who is online: the session of each socket, the sockets of each session, and the set of
the sessions that are online.
-/

namespace RagService

open Interleaving

inductive SocketToken where
  /-- `settings.WS_NO_AUTH_MARKER` -/
  | noAuthMarker
  /-- any other token, with the session in its payload when `jwt_authentication` accepts it -/
  | jwt (session : Option Text)
  deriving DecidableEq

/-- The `auth` of a client, of which each part may be missing or falsy. -/
structure SocketAuth where
  sessionUuid : Option Text
  token : Option SocketToken
  deriving DecidableEq

inductive SocketCall where
  | connect (sid : Text) (auth : Option SocketAuth)
  | disconnect (sid : Text)
  deriving DecidableEq

inductive SocketCommand where
  | setSid (sid sessionUuid : Text)
  | getSid (sid : Text)
  | deleteSid (sid : Text)
  /-- `sadd`, `srem`, `scard` and `delete` of the sockets of a session -/
  | addSocket (sessionUuid sid : Text)
  | removeSocket (sessionUuid sid : Text)
  | countSockets (sessionUuid : Text)
  | deleteSockets (sessionUuid : Text)
  /-- `sadd` and `srem` of the set that is online -/
  | addOnline (sessionUuid : Text)
  | removeOnline (sessionUuid : Text)

abbrev SocketCommand.Result : SocketCommand -> Type
  | getSid _ => Option Text
  | countSockets _ => Nat
  | setSid _ _ | deleteSid _ | addSocket _ _ | removeSocket _ _ | deleteSockets _ => Unit
  | addOnline _ | removeOnline _ => Unit

abbrev socketInterface : Interface where
  Command := SocketCommand
  Result := SocketCommand.Result
  Error := Empty

abbrev SocketAction := Program socketInterface

structure OnlineKeys where
  sid : Text -> Option Text
  sockets : Text -> List Text
  online : List Text

namespace OnlineKeys

def empty : OnlineKeys := ⟨fun _ => none, fun _ => [], []⟩

def exec : (c : SocketCommand) -> OnlineKeys -> OnlineKeys × Except Empty c.Result
  | .setSid sid u, s => ({ s with sid := Function.update s.sid sid (some u) }, .ok ())
  | .getSid sid, s => (s, .ok (s.sid sid))
  | .deleteSid sid, s => ({ s with sid := Function.update s.sid sid none }, .ok ())
  | .addSocket u sid, s =>
      ({ s with sockets := Function.update s.sockets u ((s.sockets u).insert sid) }, .ok ())
  | .removeSocket u sid, s =>
      ({ s with sockets := Function.update s.sockets u ((s.sockets u).filter (· ≠ sid)) }, .ok ())
  | .countSockets u, s => (s, .ok (s.sockets u).length)
  | .deleteSockets u, s => ({ s with sockets := Function.update s.sockets u [] }, .ok ())
  | .addOnline u, s => ({ s with online := s.online.insert u }, .ok ())
  | .removeOnline u, s => ({ s with online := s.online.filter (· ≠ u) }, .ok ())

end OnlineKeys

def socketCommand (c : SocketCommand) : SocketAction c.Result :=
  @Program.issue socketInterface c

/-!
# Handlers

`connect` and `disconnect`, the progress of a handler, and the handlers of all sockets,
interleaved.  An accepted connection comes online by three commands.
-/

def truthyText (s : Option Text) : Option Text :=
  s.filter fun s => !s.isEmpty

def goOnline (sid sessionUuid : Text) : SocketAction Bool := do
  socketCommand (.setSid sid sessionUuid)
  socketCommand (.addSocket sessionUuid sid)
  socketCommand (.addOnline sessionUuid)
  return true

/-- `connect`; `prod` says that `ENVIRONMENT` is `prod`. -/
def connect (prod : Bool) (sid : Text) (auth : Option SocketAuth) : SocketAction Bool :=
  match auth with
  | none => return false
  | some auth =>
      match auth.token, truthyText auth.sessionUuid with
      | some .noAuthMarker, some sessionUuid =>
          if prod then return false else goOnline sid sessionUuid
      | some (.jwt (some _)), some sessionUuid => goOnline sid sessionUuid
      | _, _ => return false

/-- The rest of `disconnect`, for the session of the socket. -/
def goOffline (sid sessionUuid : Text) : SocketAction Unit := do
  socketCommand (.deleteSid sid)
  socketCommand (.removeSocket sessionUuid sid)
  let count ← socketCommand (.countSockets sessionUuid)
  if count = 0 then
    socketCommand (.deleteSockets sessionUuid)
    socketCommand (.removeOnline sessionUuid)
  else
    return ()

def disconnect (sid : Text) : SocketAction Unit := do
  let sessionUuid ← socketCommand (.getSid sid)
  match truthyText sessionUuid with
  | none => return ()
  | some sessionUuid => goOffline sid sessionUuid

namespace SocketCall

def body (prod : Bool) : SocketCall -> SocketAction Bool
  | connect sid auth => RagService.connect prod sid auth
  | disconnect sid => do
      RagService.disconnect sid
      return false

end SocketCall

inductive SocketProgress where
  | begun
  /-- `connect` has set the key of the socket, added the socket, added the session -/
  | named (sessionUuid : Text)
  | counted (sessionUuid : Text)
  | connected (sessionUuid : Text)
  /-- `disconnect` has found no session, or this one -/
  | unknown
  | known (sessionUuid : Text)
  /-- it has deleted the key of the socket, and removed the socket -/
  | unnamed (sessionUuid : Text)
  | removed (sessionUuid : Text)
  /-- it has counted other sockets, or none -/
  | left (sessionUuid : Text)
  | alone (sessionUuid : Text)
  /-- it has deleted the sockets, and removed the session -/
  | dropped (sessionUuid : Text)
  | gone (sessionUuid : Text)
  deriving DecidableEq

def SocketProgress.next (g : SocketProgress) :
    (c : SocketCommand) -> Except Empty c.Result -> SocketProgress
  | .setSid _ u, _ => named u
  | .addSocket u _, _ => counted u
  | .addOnline u, _ => connected u
  | .getSid _, .ok sessionUuid =>
      match truthyText sessionUuid with
      | some u => known u
      | none => unknown
  | .deleteSid _, _ =>
      match g with
      | known u => unnamed u
      | _ => g
  | .removeSocket u _, _ => removed u
  | .countSockets u, .ok count => if count = 0 then alone u else left u
  | .deleteSockets u, _ => dropped u
  | .removeOnline u, _ => gone u

theorem SocketProgress.next_getSid (g : SocketProgress) (sid : Text) (stored : Option Text) :
    g.next (.getSid sid) (.ok stored) = (truthyText stored).elim unknown known := by
  unfold SocketProgress.next
  dsimp only
  cases truthyText stored with
  | none => rfl
  | some u => rfl

def socketCalls (prod : Bool) :
    CallSystem socketInterface OnlineKeys SocketCall Bool SocketProgress where
  exec := OnlineKeys.exec
  body := SocketCall.body prod
  start := .begun
  next _ := SocketProgress.next

end RagService
