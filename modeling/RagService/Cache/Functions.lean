import RagService.Cache.Concurrency
import RagService.Foundation.Dicts
import RagService.Foundation.Json
import RagService.Foundation.Tagged

/-!
# Cached functions of one namespace

The functions that `cached` wraps with the namespaces of the configurations and of the
dictionaries, the keys of their calls, and calls of several functions that are interleaved on
one cache.
-/

namespace RagService
namespace CachedFunctions

open Interleaving Cache

/-!
# Keys

An f-string makes texts of the arguments that are not `None`, and `_build_cache_key` puts them
behind the namespace; `key` is the name of a parameter, without a dot.
-/

inductive Argument where
  | int (z : Int)
  | str (s : Text)
  deriving DecidableEq

def Argument.format : Argument -> Text
  | int z => Json.dumpInt z
  | str s => s

/-- `_build_cache_key` with `key`: the name of a parameter, without a dot. -/
def valueOfKey (key : Text) (kwargs : Dict Text (Option Argument)) : Except CacheError Text :=
  match kwargs.get key with
  | none => .error (.server ("缓存键构建失败，参数 \"".toList ++ key ++ "\" 不存在".toList))
  | some none => .ok "none".toList
  | some (some value) => .ok value.format

/-- Cached functions: what comes after the namespace in the key of a call, and what it returns. -/
structure Functions (Call Database Data : Type) where
  ns : Text
  value : Call -> Option (Except CacheError Text)
  func : Call -> Database -> Except CacheError (Option Data)

def Functions.cacheKey {Call Database Data : Type} (F : Functions Call Database Data)
    (call : Call) : Option Text :=
  (buildCacheKey F.ns (F.value call)).toOption

inductive ConfigCall where
  | get (pk : Int)
  | getAll (type : Option Text)
  deriving DecidableEq

def ConfigCall.value : ConfigCall -> Option (Except CacheError Text)
  | get pk => some (valueOfKey "pk".toList [("pk".toList, some (.int pk))])
  | getAll type => some (valueOfKey "type".toList [("type".toList, type.map .str)])

inductive DictCall where
  | get (pk : Int)
  | getByTypeCode (code : Text)
  deriving DecidableEq

def DictCall.value : DictCall -> Option (Except CacheError Text)
  | get pk => some (valueOfKey "pk".toList [("pk".toList, some (.int pk))])
  | getByTypeCode code => some (.ok ("type:".toList ++ code))

/-- `CACHE_CONFIG_REDIS_PREFIX` -/
def configFunctions {Database Data : Type}
    (func : ConfigCall -> Database -> Except CacheError (Option Data)) :
    Functions ConfigCall Database Data where
  ns := "fba:cache:config".toList
  value := ConfigCall.value
  func := func

/-- `CACHE_DICT_REDIS_PREFIX` -/
def dictFunctions {Database Data : Type}
    (func : DictCall -> Database -> Except CacheError (Option Data)) :
    Functions DictCall Database Data where
  ns := "fba:cache:dict".toList
  value := DictCall.value
  func := func

/-!
# Calls of several functions

Each call has its own function, so that of the settings of the namespace is void.
-/

variable {Process Database Data Call : Type}

inductive NamespaceOp (Process Database Call : Type) where
  | cached (p : Process) (call : Call)
  | cacheInvalidate (p : Process) (atomic : Bool) (written : Except CacheError Unit)
      (write : Database -> Database)

structure NamespaceState (Process Database Data Call : Type) where
  cache : CacheState Process Database Data
  returned : List (Call × Option Data)

inductive Hand (Data : Type) where
  | nothing
  | hot (value : Data)
  | redis (b : Text)
  | result (r : Option Data)

abbrev namespaceInterface (Process Database Data Call : Type) : Interface :=
  (cacheInterface Process Database Data).tagged (NamespaceOp Process Database Call)

def Functions.settings (F : Functions Call Database Data) (localEnabled : Bool)
    (serialize : Data -> Option Text) (deserialize : Text -> Option Data) :
    CacheSettings Database Data where
  ns := F.ns
  localEnabled := localEnabled
  serialize := serialize
  deserialize := deserialize
  func := fun _ _ => .ok none

def exec [DecidableEq Process] (cfg : CacheSettings Database Data)
    (F : Functions Call Database Data) :
    (c : (namespaceInterface Process Database Data Call).Command) ->
      NamespaceState Process Database Data Call ->
        NamespaceState Process Database Data Call ×
          Except CacheError ((namespaceInterface Process Database Data Call).Result c)
  | (.cached _ call, .query _), s =>
      match F.func call s.cache.db with
      | .ok result => ({ s with returned := s.returned ++ [(call, result)] }, .ok result)
      | .error e => (s, .error e)
  | (_, c), s =>
      ({ s with cache := (CacheState.exec cfg c s.cache).1 }, (CacheState.exec cfg c s.cache).2)

def body (cfg : CacheSettings Database Data) (F : Functions Call Database Data) :
    NamespaceOp Process Database Call ->
      Program (namespaceInterface Process Database Data Call) (Option Data)
  | .cached p call => (Cache.cached cfg p (F.value call)).tag (.cached p call)
  | .cacheInvalidate p atomic written write =>
      ((invalidatingService cfg p none atomic written write).bind fun _ => .ret none).tag
        (.cacheInvalidate p atomic written write)

def nextHand (g : Hand Data) : (c : (namespaceInterface Process Database Data Call).Command) ->
    Except CacheError ((namespaceInterface Process Database Data Call).Result c) -> Hand Data
  | (_, .localGet _ _), .ok (some value) => .hot value
  | (_, .get _), .ok (some b) => .redis b
  | (_, .query _), .ok result => .result result
  | _, _ => g

def namespaceCalls [DecidableEq Process] (cfg : CacheSettings Database Data)
    (F : Functions Call Database Data) :
    CallSystem (namespaceInterface Process Database Data Call)
      (NamespaceState Process Database Data Call) (NamespaceOp Process Database Call)
      (Option Data) (Hand Data) where
  exec := exec cfg F
  body := body cfg F
  start := .nothing
  next := fun _ => nextHand

abbrev NamespaceSystem (Process Database Data Call : Type) :=
  Calls (namespaceInterface Process Database Data Call)
    (NamespaceState Process Database Data Call) (NamespaceOp Process Database Call)
    (Option Data) (Hand Data)

inductive NamespaceEvent (Process Database Call : Type) where
  | call (a : CallAction (NamespaceOp Process Database Call))
  /-- a delivery to a listener, an expiry, or the connection to Redis -/
  | environment (e : CacheEvent Process Database)

namespace NamespaceSystem

variable [DecidableEq Process]

def initial (db : Database) : NamespaceSystem Process Database Data Call where
  shared := ⟨(CacheSystem.initial db).shared, []⟩
  calls := []

def step (cfg : CacheSettings Database Data) (F : Functions Call Database Data)
    (s : NamespaceSystem Process Database Data Call) :
    NamespaceEvent Process Database Call ->
      Option (NamespaceSystem Process Database Data Call)
  | .call a => (namespaceCalls cfg F).step s a
  | .environment e =>
      (CacheSystem.step cfg ⟨s.shared.cache, []⟩ e).map fun t =>
        { s with shared := { s.shared with cache := t.shared } }

def Called (s : NamespaceSystem Process Database Data Call) (call : Call) : Prop :=
  exists c p, c ∈ s.calls ∧ c.op = .cached p call

def Answered (s : NamespaceSystem Process Database Data Call) (call : Call) (x : Option Data) :
    Prop :=
  exists c p, c ∈ s.calls ∧ c.op = .cached p call ∧ c.program = .ret x

def Produced (s : NamespaceSystem Process Database Data Call) (call : Call) (r : Option Data) :
    Prop :=
  (call, r) ∈ s.shared.returned

end NamespaceSystem
end CachedFunctions
end RagService
