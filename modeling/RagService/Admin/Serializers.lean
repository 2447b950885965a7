import RagService.Foundation.Groups
import RagService.Foundation.Splitting

/-!
# Serializing joined rows

`select_join_serialize` with `return_as_dict=True`.  The rows of a join are regrouped into
dictionaries that are nested as the relationships say.  Names of classes are compared in
lower case.
-/

namespace RagService
namespace Admin

/-!
# Objects and rows

A row of a join has an object of each model, or `None`; the address of an object is what `id`
of it is.
-/

structure ModelObj (V : Type) where
  typeName : Text
  id : Option Int
  address : Int
  attributes : Dict Text V
deriving DecidableEq

structure JoinedRow (V : Type) where
  first : Option (ModelObj V)
  rest : List (Option (ModelObj V))

inductive Data (V : Type) where
  | null
  | value (v : V)
  | record (fields : List (Text × Data V))
  | list (items : List (Data V))

section

variable {V : Type}

def JoinedRow.elements (row : JoinedRow V) : List (Option (ModelObj V)) :=
  row.first :: row.rest

def getObjId (targetObj : ModelObj V) : Int :=
  match targetObj.id with
  | some i => if i = 0 then targetObj.address else i
  | none => targetObj.address

def getModelColumns (modelObj : ModelObj V) : List Text :=
  modelObj.attributes.map Prod.fst

/-- `getattr(obj, col, None)` -/
def getColumn (modelObj : ModelObj V) (col : Text) : Data V :=
  match modelObj.attributes.get col with
  | some v => .value v
  | none => .null

def dedupeObjects (objList : List (ModelObj V)) : List (ModelObj V) :=
  Firsts.unseen ModelObj.id [] (objList.filter fun item => item.id.isSome)

/-- `{col: getattr(obj, col, None) for col in columns}` -/
def columnData (columns : List Text) (modelObj : ModelObj V) : Dict Text (Data V) :=
  Dict.ofPairs (columns.map fun col => (col, getColumn modelObj col))

end

/-!
# Relationships

A relationship is given as a text; a text that is no relationship is passed over.
-/

inductive RelationshipType where
  | o2m | m2o | o2o | m2m
deriving DecidableEq

def RelationshipType.ofText (s : Text) : Option RelationshipType :=
  if s = "o2m".toList then some .o2m
  else if s = "m2o".toList then some .m2o
  else if s = "o2o".toList then some .o2o
  else if s = "m2m".toList then some .m2m
  else none

def RelationshipType.isList : RelationshipType -> Bool
  | .o2m => true
  | .m2m => true
  | .m2o => false
  | .o2o => false

structure Relationship where
  source : Text
  type : RelationshipType
  target : Text
  custom : Option Text
deriving DecidableEq

def getRelationshipKey (model : Text) (type : RelationshipType) (customField : Option Text) : Text :=
  match customField with
  | some name => name
  | none => if type.isList then model ++ "s".toList else model

/-- The name of the field that shows the objects at the end of a relationship. -/
def Relationship.key (r : Relationship) : Text :=
  getRelationshipKey r.target r.type r.custom

def parseRelationship (lower : Text -> Text) (relStr : Text) : Option Relationship :=
  let relPart := Text.strip (relStr.takeWhile (· ≠ ':'))
  let customName :=
    match relStr.dropWhile (· ≠ ':') with
    | [] => none
    | _ :: rest => if Text.strip rest = [] then none else some (Text.strip rest)
  match Splitting.split "-".toList relPart with
  | [src, parsedType, dst] =>
      match RelationshipType.ofText (lower parsedType) with
      | some type => some ⟨lower src, type, lower dst, customName⟩
      | none => none
  | _ => none

def relationshipsOf (lower : Text -> Text) (relationshipList : List Text) : List Relationship :=
  relationshipList.filterMap (parseRelationship lower)

structure Relations where
  graph : Dict Text (Dict Text RelationshipType) := []
  reverse : Dict Text Text := []
  customs : Dict (Text × Text) Text := []

namespace Relations

/-- `relation_graph.get(model, \x7b\x7d)` -/
def targets (relations : Relations) (model : Text) : Dict Text RelationshipType :=
  (relations.graph.get model).getD []

def record (relations : Relations) (r : Relationship) : Relations where
  graph := relations.graph.set r.source ((relations.targets r.source).set r.target r.type)
  reverse := relations.reverse.set r.target r.source
  customs :=
    match r.custom with
    | some customName => relations.customs.set (r.source, r.target) customName
    | none => relations.customs

def key (relations : Relations) (source target : Text) (type : RelationshipType) : Text :=
  getRelationshipKey target type (relations.customs.get (source, target))

end Relations

def parseRelationships (lower : Text -> Text) (relationshipList : List Text) : Relations :=
  (relationshipsOf lower relationshipList).foldl Relations.record {}

/-!
# Grouping the rows

The objects of the rows by the id of the main object, their class and the id of their parent,
each once and in the order in which they come.
-/

section

variable {V : Type} (lower : Text -> Text)

/-- `type(obj).__name__.lower()` -/
def className (modelObj : ModelObj V) : Text :=
  lower modelObj.typeName

structure ModelInfo where
  columns : Dict Text (List Text) := []
  clsIdx : Dict Text Nat := []

def ModelInfo.see (info : ModelInfo) (cell : Option (ModelObj V) × Nat) : ModelInfo :=
  match cell with
  | (none, _) => info
  | (some element, idx) =>
      { columns := info.columns.setDefault (className lower element) (getModelColumns element)
        clsIdx := info.clsIdx.setDefault (className lower element) idx }

def modelInfo (rows : List (JoinedRow V)) : ModelInfo :=
  rows.foldl (fun info row => row.elements.zipIdx.foldl (ModelInfo.see lower) info) {}

abbrev Children (V : Type) := Dict Int (Dict Text (List (ModelObj V)))

def addChild (mainObj : ModelObj V) (children : Children V) (childObj : ModelObj V) : Children V :=
  children.set (getObjId mainObj)
    (((children.get (getObjId mainObj)).getD []).push (className lower childObj) childObj)

def addChildren (children : Children V) (row : JoinedRow V) : Children V :=
  match row.first with
  | none => children
  | some mainObj => row.rest.reduceOption.foldl (addChild lower mainObj) children

def childrenObjects (rows : List (JoinedRow V)) : Children V :=
  rows.foldl (addChildren lower) []

/-- The object in the row that a related object belongs to. -/
def parentIn (relations : Relations) (clsIdx : Dict Text Nat) (row : JoinedRow V)
    (mainObj relObj : ModelObj V) : Option (ModelObj V) :=
  match relations.reverse.get (className lower relObj) with
  | some parentType =>
      match clsIdx.get parentType with
      | some parentIdx => (row.elements[parentIdx]?).join
      | none => none
  | none =>
      if ((relations.targets (className lower mainObj)).get (className lower relObj)).isSome then
        some mainObj
      else none

abbrev Hierarchy (V : Type) := Dict (Int × Text × Int) (List (ModelObj V))

def addRelated (relations : Relations) (clsIdx : Dict Text Nat) (row : JoinedRow V)
    (mainObj : ModelObj V) (hierarchy : Hierarchy V) (relObj : ModelObj V) : Hierarchy V :=
  match parentIn lower relations clsIdx row mainObj relObj with
  | none => hierarchy
  | some parent =>
      match parent.id with
      | none => hierarchy
      | some parentPk =>
          hierarchy.push (getObjId mainObj, className lower relObj, parentPk) relObj

def hierarchyOf (relations : Relations) (clsIdx : Dict Text Nat) (rows : List (JoinedRow V)) :
    Hierarchy V :=
  rows.foldl
    (fun hierarchy row =>
      match row.first with
      | none => hierarchy
      | some mainObj =>
          row.rest.reduceOption.foldl (addRelated lower relations clsIdx row mainObj) hierarchy)
    []

end

/-!
# Building the answer

The answer is built from the groups, as deep as the relationships go, or flat when there are
none.
-/

section

variable {V : Type} (lower : Text -> Text)

def relatedData (type : RelationshipType) (instances : List (Data V)) : Data V :=
  if type.isList then .list instances else instances.head?.getD .null

/-- The fields for the relationships of a class are added to its data. -/
def addFields (relations : Relations) (clsName : Text) (build : Text -> Option (List (Data V)))
    (data : Dict Text (Data V)) : Option (Dict Text (Data V)) :=
  (relations.targets clsName).foldlM
    (fun data (subType, subRelType) => do
      let subList <- build subType
      some (data.set (relations.key clsName subType subRelType) (relatedData subRelType subList)))
    data

/-- `recursive_build` under one main object, as deep as this. -/
def recursiveBuild (columns : Dict Text (List Text)) (relations : Relations)
    (hierarchy : Hierarchy V) (targetId : Int) : Nat -> Text -> Int -> Option (List (Data V))
  | 0, _, _ => none
  | fuel + 1, clsName, pk =>
      (dedupeObjects (hierarchy.getList (targetId, clsName, pk))).mapM fun item =>
        let itemData := columnData (columns.getList clsName) item
        match item.id with
        | none => some (.record itemData)
        | some subPk => do
            let itemData <- addFields relations clsName
              (fun subType =>
                recursiveBuild columns relations hierarchy targetId fuel subType subPk)
              itemData
            some (.record itemData)

def buildNested (fuel : Nat) (columns : Dict Text (List Text)) (relations : Relations)
    (hierarchy : Hierarchy V) (primaryObjName : Text) (primaryColumns : List Text)
    (targetId : Int) (targetObj : ModelObj V) : Option (Dict Text (Data V)) :=
  addFields relations primaryObjName
    (fun topType => recursiveBuild columns relations hierarchy targetId fuel topType targetId)
    (columnData primaryColumns targetObj)

/-- The field for the objects of one class in the flat form. -/
def flatField (columns : List Text) (clsType : Text) (uniqueChildren : List (ModelObj V)) :
    Text × Data V :=
  match uniqueChildren with
  | [] => (clsType, .list [])
  | [child] => (clsType, .record (columnData columns child))
  | children =>
      (clsType ++ "s".toList, .list (children.map fun c => .record (columnData columns c)))

def buildFlat (columns : Dict Text (List Text)) (children : Dict Text (List (ModelObj V)))
    (primaryObjName : Text) (primaryColumns : List Text) (targetObj : ModelObj V) :
    Dict Text (Data V) :=
  children.foldl
    (fun result (clsType, childObjs) =>
      if clsType = primaryObjName then result
      else
        let (fieldKey, data) :=
          flatField (columns.getList clsType) clsType (dedupeObjects childObjs)
        result.set fieldKey data)
    (columnData primaryColumns targetObj)

def resultData (fuel : Nat) (relations : Relations) (rows : List (JoinedRow V))
    (primaryObj mainObj : ModelObj V) : Option (Dict Text (Data V)) :=
  let info := modelInfo lower rows
  if relations.graph ≠ [] then
    buildNested fuel info.columns relations (hierarchyOf lower relations info.clsIdx rows)
      (className lower primaryObj) (getModelColumns primaryObj) (getObjId mainObj) mainObj
  else
    some (buildFlat info.columns ((childrenObjects lower rows).get (getObjId mainObj) |>.getD [])
      (className lower primaryObj) (getModelColumns primaryObj) mainObj)

/-- `select_join_serialize(rows, relationships, return_as_dict=True)` -/
def selectJoinSerialize (fuel : Nat) (rows : List (JoinedRow V)) (relationships : List Text) :
    Option (Data V) :=
  match rows with
  | [] => some .null
  | firstRow :: _ =>
      match firstRow.first with
      | none => some .null
      | some primaryObj => do
          let relations := parseRelationships lower relationships
          let mainObjs := Firsts.unseen getObjId [] (rows.filterMap JoinedRow.first)
          let finalResults <- mainObjs.mapM fun mainObj => do
            let data <- resultData lower fuel relations rows primaryObj mainObj
            some (.record data)
          match finalResults with
          | [result] => some result
          | results => some (.list results)

end

end Admin
end RagService
