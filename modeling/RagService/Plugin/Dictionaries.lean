import Mathlib.Data.List.Sort
import RagService.Admin.Services
import RagService.Foundation.Maps

/-!
# Dictionaries

The plugin `dict`: types and their data, the services on them, and the cache of what is read.
A row of data has the code of its type, and the cache has keys with the code in them.
-/

namespace RagService
namespace Dictionaries

open Admin

/-!
# Rows

The rows of `sys_dict_type` and `sys_dict_data`, and the parameters of the requests on them
with their defaults filled in.
-/

structure DictType where
  name : Text
  code : Text
  remark : Option Text
  deriving DecidableEq

structure DictData where
  typeCode : Text
  label : Text
  value : Text
  color : Option Text
  sort : Int
  status : Nat
  remark : Option Text
  typeId : Nat
  deriving DecidableEq

structure DictDb where
  types : Table DictType
  data : Table DictData
  deriving DecidableEq

structure UpdateDictTypeParam where
  name : Text
  code : Text
  remark : Option (Option Text)

/-- A remark that is left out stays. -/
def UpdateDictTypeParam.apply (obj : UpdateDictTypeParam) (dictType : DictType) : DictType where
  name := obj.name
  code := obj.code
  remark := obj.remark.getD dictType.remark

structure DictDataParam where
  typeId : Nat
  label : Text
  value : Text
  color : Option Text
  sort : Int
  status : Nat
  remark : Option Text

/-- `obj.model_dump()` with the code of the type. -/
def DictDataParam.dump (obj : DictDataParam) (typeCode : Text) : DictData where
  typeCode := typeCode
  label := obj.label
  value := obj.value
  color := obj.color
  sort := obj.sort
  status := obj.status
  remark := obj.remark
  typeId := obj.typeId

/-!
# Services

The services on types and data.  Rows of data keep the code that they have when a type is
updated.
-/

namespace DictTypeService

def codeTaken (db : DictDb) (code : Text) : Bool :=
  (db.types.getBy fun dictType => dictType.code = code).isSome

def create (db : DictDb) (newId : Nat) (obj : DictType) : Except AdminError DictDb := do
  refuse (codeTaken db obj.code) (.conflict "字典类型已存在".toList)
  return { db with types := db.types.create newId obj }

/-- The rows of data keep the code that they have. -/
def update (db : DictDb) (pk : Nat) (obj : UpdateDictTypeParam) : Except AdminError DictDb := do
  let dictType ← found (db.types.get pk) "字典类型不存在".toList
  refuse (dictType.value.code ≠ obj.code && codeTaken db obj.code)
    (.conflict "字典类型已存在".toList)
  return { db with types := db.types.update [pk] obj.apply }

/-- `dict_data_dao.delete_by_type_id` goes first. -/
def delete (db : DictDb) (pks : List Nat) : DictDb where
  types := db.types.delete pks
  data := db.data.deleteWhere fun dictData => dictData.typeId ∈ pks

end DictTypeService

namespace DictDataService

def getByLabelAndTypeCode (db : DictDb) (label typeCode : Text) : Option (Row DictData) :=
  db.data.getBy fun dictData => dictData.label = label && dictData.typeCode = typeCode

def create (db : DictDb) (newId : Nat) (obj : DictDataParam) : Except AdminError DictDb := do
  let dictType ← found (db.types.get obj.typeId) "字典类型不存在".toList
  refuse (getByLabelAndTypeCode db obj.label dictType.value.code).isSome
    (.conflict "字典数据已存在".toList)
  return { db with data := db.data.create newId (obj.dump dictType.value.code) }

def update (db : DictDb) (pk : Nat) (obj : DictDataParam) : Except AdminError DictDb := do
  let dictData ← found (db.data.get pk) "字典数据不存在".toList
  let dictType ← found (db.types.get obj.typeId) "字典类型不存在".toList
  let moved := dictData.value.label ≠ obj.label || dictData.value.typeCode ≠ dictType.value.code
  refuse (moved && (getByLabelAndTypeCode db obj.label dictType.value.code).any
    fun newDictData => newDictData.id ≠ pk) (.conflict "字典数据已存在".toList)
  return { db with data := db.data.update [pk] fun _ => obj.dump dictType.value.code }

def delete (db : DictDb) (pks : List Nat) : DictDb :=
  { db with data := db.data.delete pks }

end DictDataService

/-!
# Cached reads

What is cached is a row or rows, under `pk` or under the code of a type.  A state has the
database, Redis, and for each process its hot cache with the number of messages that its
listener has not handled.
-/

/-- The keys of the namespace: `pk`, which is digits, and `type:` with a code. -/
inductive DictKey where
  | pk (pk : Nat)
  | typeCode (code : Text)
  deriving DecidableEq

inductive DictResult where
  | one (row : Row DictData)
  | many (rows : List (Row DictData))
  deriving DecidableEq

/-- `CRUDDictData.get_by_type_code`: enabled rows, the highest `sort` first. -/
def getByTypeCode (db : DictDb) (code : Text) : List (Row DictData) :=
  (db.data.filter fun row =>
    row.deleted = 0 && (row.value.typeCode = code && row.value.status = 1)).insertionSort
      fun x y => y.value.sort ≤ x.value.sort

/-- The wrapped functions `get` and `get_by_type_code`. -/
def uncached (db : DictDb) : DictKey -> Except AdminError DictResult
  | .pk pk => do
      let dictData ← found (db.data.get pk) "字典数据不存在".toList
      return .one dictData
  | .typeCode code => do
      let dictDatas := getByTypeCode db code
      refuse dictDatas.isEmpty (.notFound "字典数据不存在".toList)
      return .many dictDatas

abbrev DictCache := AList fun _ : DictKey => DictResult

structure DictState (Process : Type) where
  db : DictDb
  redis : DictCache
  hotCache : Process -> DictCache
  pending : Process -> Nat

variable {Process : Type} [DecidableEq Process]

namespace DictState

def setLocal (s : DictState Process) (p : Process) (key : DictKey) (result : DictResult) :
    DictState Process :=
  { s with hotCache := Function.update s.hotCache p ((s.hotCache p).insert key result) }

def cached (s : DictState Process) (p : Process) (key : DictKey) :
    DictState Process × Except AdminError DictResult :=
  match (s.hotCache p).lookup key with
  | some result => (s, .ok result)
  | none =>
      match s.redis.lookup key with
      | some result => (s.setLocal p key result, .ok result)
      | none =>
          match uncached s.db key with
          | .ok result =>
              ({ s.setLocal p key result with redis := s.redis.insert key result }, .ok result)
          | .error e => (s, .error e)

def invalidate (s : DictState Process) (p : Process) (db : DictDb) : DictState Process where
  db := db
  redis := ∅
  hotCache := Function.update s.hotCache p ∅
  pending q := if q = p then s.pending q else s.pending q + 1

end DictState

/-!
# Calls

A call in a process, or what happens to the caches between the calls.
-/

inductive DictAction (Process : Type) where
  | createType (newId : Nat) (obj : DictType)
  | updateType (pk : Nat) (obj : UpdateDictTypeParam)
  | deleteTypes (pks : List Nat)
  | createData (p : Process) (newId : Nat) (obj : DictDataParam)
  | updateData (p : Process) (pk : Nat) (obj : DictDataParam)
  | deleteData (p : Process) (pks : List Nat)
  /-- `get` or `get_by_type_code` -/
  | cached (p : Process) (key : DictKey)
  /-- a process handles a message -/
  | handle (p : Process)
  /-- an entry expires -/
  | expireRedis (key : DictKey)
  | expireLocal (p : Process) (key : DictKey)

namespace DictState

/-- The database draws a new id that is positive and not used in the table. -/
def FreshId (s : DictState Process) : DictAction Process -> Prop
  | .createType newId _ => 0 < newId ∧ newId ∉ s.db.types.ids
  | .createData _ newId _ => 0 < newId ∧ newId ∉ s.db.data.ids
  | _ => True

omit [DecidableEq Process] in
instance (s : DictState Process) (a : DictAction Process) : Decidable (s.FreshId a) := by
  unfold FreshId
  split <;> infer_instance

def committed (s : DictState Process) (outcome : Except AdminError DictDb)
    (commit : DictDb -> DictState Process) : DictState Process :=
  match outcome with
  | .ok db => commit db
  | .error _ => s

/-- The services for types have no cache to clear. -/
def perform (s : DictState Process) : DictAction Process -> DictState Process
  | .createType newId obj =>
      s.committed (DictTypeService.create s.db newId obj) fun db => { s with db := db }
  | .updateType pk obj =>
      s.committed (DictTypeService.update s.db pk obj) fun db => { s with db := db }
  | .deleteTypes pks => { s with db := DictTypeService.delete s.db pks }
  | .createData p newId obj =>
      s.committed (DictDataService.create s.db newId obj) (s.invalidate p)
  | .updateData p pk obj =>
      s.committed (DictDataService.update s.db pk obj) (s.invalidate p)
  | .deleteData p pks => s.invalidate p (DictDataService.delete s.db pks)
  | .cached p key => (s.cached p key).1
  | .handle p =>
      { s with
        hotCache := Function.update s.hotCache p ∅
        pending := Function.update s.pending p (s.pending p - 1) }
  | .expireRedis key => { s with redis := s.redis.erase key }
  | .expireLocal p key =>
      { s with hotCache := Function.update s.hotCache p ((s.hotCache p).erase key) }

def step (s : DictState Process) (a : DictAction Process) : Option (DictState Process) :=
  if s.FreshId a then some (s.perform a) else none

end DictState
end Dictionaries
end RagService
