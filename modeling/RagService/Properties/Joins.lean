import Mathlib.Data.List.Forall2
import Mathlib.Data.List.Induction
import Mathlib.Data.List.ReduceOption
import RagService.Admin.Serializers
import RagService.Foundation.Forests
import RagService.Foundation.Traversals

/-!
# Joined rows are nested faithfully

The relationships form a tree of classes.  Every main object is shown once, and below each
object stand exactly the objects that are next to it in a row of the main object.
-/

namespace RagService
namespace Admin

/-!
# The rows and the relationships

Every column of a join has its own class, and ids tell the objects of a class apart.  The
relationships lead from the root to each class on one way.
-/

section

variable {V : Type} (lower : Text -> Text)

def objectsIn (rows : List (JoinedRow V)) : List (ModelObj V) :=
  rows.flatMap fun row => row.elements.reduceOption

/-- Rows of a join: every column has its own class, and ids tell the objects of a class apart. -/
structure IsJoin (classes : List Text) (rows : List (JoinedRow V)) : Prop where
  nonempty : rows ≠ []
  distinct : classes.Nodup
  layout : forall row, row ∈ rows ->
    List.Forall₂ (fun cell cls => forall o, cell = some o -> className lower o = cls)
      row.elements classes
  first : forall row, row ∈ rows -> row.first ≠ none
  ids : forall o, o ∈ objectsIn rows -> exists i, o.id = some i ∧ 1 ≤ i
  identify : forall o o', o ∈ objectsIn rows -> o' ∈ objectsIn rows ->
    className lower o = className lower o' -> o.id = o'.id -> o = o'

end

/-- The relationships lead from the root to each class on one way. -/
structure IsTree (root : Text) (edges : List Relationship) : Prop where
  oneParent : (edges.map Relationship.target).Nodup
  above : root ∉ edges.map Relationship.target
  reached : forall r, r ∈ edges ->
    Relation.ReflTransGen (fun x y => exists r, r ∈ edges ∧ r.source = x ∧ r.target = y)
      root r.source

/-!
# What the answer shows

A main object with all that belongs to it, in the order in which the rows have it first.
-/

section

variable {V : Type} [DecidableEq V] (lower : Text -> Text) (rows : List (JoinedRow V))

def mainObjects : List (ModelObj V) :=
  (rows.filterMap JoinedRow.first).eraseDups

/-- The different objects of a class that are next to an object in the rows of a main object. -/
def partners (main parent : ModelObj V) (cls : Text) : List (ModelObj V) :=
  ((rows.filter fun row => row.first = some main ∧ some parent ∈ row.elements).flatMap fun row =>
    row.elements.reduceOption.filter fun o => className lower o = cls).eraseDups

omit [DecidableEq V] in
def columnsOf (cls : Text) : List Text :=
  (((objectsIn rows).find? fun o => className lower o = cls).map getModelColumns).getD []

/-- The flat form has fields that are named after the classes. -/
def flatNames (classes : List Text) (edges : List Relationship) : List Text :=
  if edges = [] then classes ++ classes.map (· ++ "s".toList) else []

/-- Data that shows an object with all that belongs to it in the rows of a main object. -/
inductive Shows (hidden : List Text) (edges : List Relationship) (main : ModelObj V) :
    ModelObj V -> Data V -> Prop where
  | record {parent : ModelObj V} {fields : List (Text × Data V)}
      (lists : Relationship -> List (Data V))
      (columns : forall col, col ∈ columnsOf lower rows (className lower parent) -> col ∉ hidden ->
        Dict.get fields col = some (getColumn parent col))
      (shown : forall r, r ∈ edges -> r.source = className lower parent ->
        Dict.get fields r.key = some (.list (lists r)))
      (length : forall r, r ∈ edges -> r.source = className lower parent ->
        (lists r).length = (partners lower rows main parent r.target).length)
      (each : forall r, r ∈ edges -> r.source = className lower parent ->
        forall (i : Nat) (partner : ModelObj V) (data : Data V),
        (partners lower rows main parent r.target)[i]? = some partner ->
          (lists r)[i]? = some data -> Shows hidden edges main partner data) :
      Shows hidden edges main parent (.record fields)

end

/-- One result is returned alone. -/
def answerOf {V : Type} : List (Data V) -> Data V
  | [result] => result
  | results => .list results

/-!
# The dictionaries of the relationships

The targets of a class are those of the relationships from it.
-/

section

variable {edges : List Relationship}

theorem targets_record (relations : Relations) (r : Relationship) (model : Text) :
    (relations.record r).targets model =
      if r.source = model then (relations.targets model).set r.target r.type
      else relations.targets model := by
  unfold Relations.targets Relations.record
  dsimp only
  rw [Dict.get_set]
  split
  · rename_i hsource
    rw [hsource]
    rfl
  · rfl

theorem targets_eq (htargets : (edges.map Relationship.target).Nodup) (model : Text) :
    (edges.foldl Relations.record {}).targets model =
      (edges.filter fun r => r.source = model).map fun r => (r.target, r.type) := by
  induction edges using List.reverseRecOn with
  | nil => rfl
  | append_singleton rest r ih =>
      rw [List.map_append, List.nodup_append] at htargets
      rw [List.foldl_concat, targets_record, ih htargets.1, List.filter_append,
        List.filter_singleton]
      by_cases hsource : r.source = model
      · have hnew : r.target ∉
            ((rest.filter fun r => r.source = model).map fun r => (r.target, r.type)).map
              Prod.fst := by
          intro hmem
          rw [List.map_map] at hmem
          rcases List.mem_map.mp hmem with ⟨r', hr', htarget⟩
          exact htargets.2.2 r'.target (List.mem_map_of_mem (List.mem_filter.mp hr').1) r.target
            (List.mem_singleton_self _) htarget
        rw [if_pos hsource, Dict.set_of_not_mem hnew, decide_eq_true hsource,
          Bool.cond_true, List.map_append]
        rfl
      · rw [if_neg hsource, decide_eq_false hsource, Bool.cond_false, List.append_nil]

theorem get_of_not_target {t : Text} (ht : t ∉ edges.map Relationship.target) :
    (edges.foldl Relations.record {}).reverse.get t = none ∧
      forall s, (edges.foldl Relations.record {}).customs.get (s, t) = none := by
  induction edges using List.reverseRecOn with
  | nil => exact ⟨rfl, fun _ => rfl⟩
  | append_singleton rest r ih =>
      rw [List.map_append, List.mem_append, not_or] at ht
      have hne : r.target ≠ t := fun heq => ht.2 (List.mem_singleton.mpr heq.symm)
      rcases ih ht.1 with ⟨hreverse, hcustoms⟩
      rw [List.foldl_concat]
      unfold Relations.record
      dsimp only
      constructor
      · rw [Dict.get_set, if_neg hne]
        exact hreverse
      · intro s
        cases r.custom with
        | none => exact hcustoms s
        | some customName =>
            dsimp only
            rw [Dict.get_set, if_neg fun heq => hne (Prod.mk.inj heq).2]
            exact hcustoms s

theorem get_of_target (htargets : (edges.map Relationship.target).Nodup) {r : Relationship}
    (hr : r ∈ edges) :
    (edges.foldl Relations.record {}).reverse.get r.target = some r.source ∧
      (edges.foldl Relations.record {}).customs.get (r.source, r.target) = r.custom := by
  induction edges using List.reverseRecOn with
  | nil => cases hr
  | append_singleton rest last ih =>
      rw [List.map_append, List.nodup_append] at htargets
      rw [List.foldl_concat]
      unfold Relations.record
      dsimp only
      cases List.mem_append.mp hr with
      | inl hrest =>
          have hne : last.target ≠ r.target := fun heq =>
            htargets.2.2 r.target (List.mem_map_of_mem hrest) last.target
              (List.mem_singleton_self _) heq.symm
          rcases ih htargets.1 hrest with ⟨hreverse, hcustoms⟩
          constructor
          · rw [Dict.get_set, if_neg hne]
            exact hreverse
          · cases last.custom with
            | none => exact hcustoms
            | some customName =>
                dsimp only
                rw [Dict.get_set, if_neg fun heq => hne (Prod.mk.inj heq).2]
                exact hcustoms
      | inr hlast =>
          rw [List.mem_singleton.mp hlast]
          have hnew : last.target ∉ rest.map Relationship.target := fun hmem =>
            htargets.2.2 last.target hmem last.target (List.mem_singleton_self _) rfl
          constructor
          · rw [Dict.get_set, if_pos rfl]
          · cases hcustom : last.custom with
            | none => exact (get_of_not_target hnew).2 _
            | some customName =>
                dsimp only
                rw [Dict.get_set, if_pos rfl]

theorem graph_eq_nil_iff : (edges.foldl Relations.record {}).graph = [] ↔ edges = [] := by
  constructor
  · intro hgraph
    rcases List.eq_nil_or_concat' edges with hnil | ⟨rest, r, hedges⟩
    · exact hnil
    · rw [hedges, List.foldl_concat] at hgraph
      have hkey : r.source ∈ ((rest.foldl Relations.record {}).record r).graph.map Prod.fst :=
        Dict.mem_keys_set.mpr (.inl rfl)
      rw [hgraph] at hkey
      cases hkey
  · intro hedges
    rw [hedges]
    rfl

theorem key_eq (htargets : (edges.map Relationship.target).Nodup) {r : Relationship}
    (hr : r ∈ edges) :
    (edges.foldl Relations.record {}).key r.source r.target r.type = r.key := by
  unfold Relations.key Relationship.key
  rw [(get_of_target htargets hr).2]

end

/-!
# Where the classes are

The place of a class that has an object, and the columns of that object.
-/

section

variable {V : Type} {lower : Text -> Text} {rows : List (JoinedRow V)} {classes : List Text}

def cellsIn (rows : List (JoinedRow V)) : List (ModelObj V × Nat) :=
  rows.flatMap fun row => row.elements.zipIdx.filterMap fun cell => cell.1.map fun o => (o, cell.2)

theorem mem_cellsIn {o : ModelObj V} {idx : Nat} :
    (o, idx) ∈ cellsIn rows ↔ exists row, row ∈ rows ∧ row.elements[idx]? = some (some o) := by
  unfold cellsIn
  rw [List.mem_flatMap]
  apply exists_congr
  intro row
  apply and_congr_right
  intro _
  rw [List.mem_filterMap]
  constructor
  · intro h
    rcases h with ⟨⟨cell, i⟩, hcell, hmap⟩
    rcases Option.map_eq_some_iff.mp hmap with ⟨o', ho', heq⟩
    rw [Prod.mk.injEq] at heq
    rcases heq with ⟨rfl, rfl⟩
    rw [show cell = some o' from ho'] at hcell
    exact List.mem_zipIdx_iff_getElem?.mp hcell
  · intro h
    exists (some o, idx)
    constructor
    · exact List.mem_zipIdx_iff_getElem?.mpr h
    · rfl

theorem map_fst_cellsIn (rows : List (JoinedRow V)) :
    (cellsIn rows).map Prod.fst = objectsIn rows := by
  unfold cellsIn objectsIn List.reduceOption
  rw [List.map_flatMap]
  apply List.flatMap_congr
  intro row _
  have hcell : forall cell : Option (ModelObj V) × Nat,
      (cell.1.map fun o => (o, cell.2)).map Prod.fst = id cell.1 := by
    intro cell
    cases cell.1 with
    | none => rfl
    | some o => rfl
  calc ((row.elements.zipIdx.filterMap fun cell => cell.1.map fun o => (o, cell.2)).map Prod.fst)
      = row.elements.zipIdx.filterMap fun cell => id cell.1 := by
        rw [List.map_filterMap]
        exact congrArg (List.filterMap · _) (funext hcell)
    _ = (row.elements.zipIdx.map Prod.fst).filterMap id := by
        rw [List.filterMap_map]
        rfl
    _ = row.elements.filterMap id := by rw [List.zipIdx_map_fst]

theorem mem_objectsIn {o : ModelObj V} :
    o ∈ objectsIn rows ↔ exists row, row ∈ rows ∧ some o ∈ row.elements := by
  unfold objectsIn
  rw [List.mem_flatMap]
  simp only [List.reduceOption_mem_iff]

theorem modelInfo_eq :
    modelInfo lower rows =
      { columns := (cellsIn rows).foldl
          (fun d cell => d.setDefault (className lower cell.1) (getModelColumns cell.1)) []
        clsIdx := (cellsIn rows).foldl
          (fun d cell => d.setDefault (className lower cell.1) cell.2) [] } := by
  have hpairs : forall (cells : List (ModelObj V × Nat)) (info : ModelInfo),
      cells.foldl (fun info cell => ModelInfo.see lower info (some cell.1, cell.2)) info =
        { columns := cells.foldl
            (fun d cell => d.setDefault (className lower cell.1) (getModelColumns cell.1))
            info.columns
          clsIdx := cells.foldl
            (fun d cell => d.setDefault (className lower cell.1) cell.2) info.clsIdx } := by
    intro cells
    induction cells with
    | nil => exact fun _ => rfl
    | cons cell rest ih => exact fun info => ih _
  have hrow : forall (cells : List (Option (ModelObj V) × Nat)) (info : ModelInfo),
      cells.foldl (ModelInfo.see lower) info =
        (cells.filterMap fun cell => cell.1.map fun o => (o, cell.2)).foldl
          (fun info cell => ModelInfo.see lower info (some cell.1, cell.2)) info := by
    intro cells
    induction cells with
    | nil => exact fun _ => rfl
    | cons cell rest ih =>
        intro info
        rcases cell with ⟨cell, idx⟩
        rw [List.foldl_cons, ih, List.filterMap_cons]
        cases cell with
        | none => rfl
        | some o => rfl
  have hrows := hpairs (cellsIn rows) {}
  rw [← hrows]
  unfold modelInfo cellsIn
  rw [List.foldl_flatMap]
  congr 1
  funext info row
  exact hrow _ info

theorem columns_modelInfo (cls : Text) :
    (modelInfo lower rows).columns.getList cls = columnsOf lower rows cls := by
  have hpairs := Dict.get_setDefaults ([] : Dict Text (List Text))
    ((cellsIn rows).map fun cell => (className lower cell.1, getModelColumns cell.1)) cls
  rw [List.foldl_map, List.find?_map] at hpairs
  unfold Dict.getList columnsOf
  rw [modelInfo_eq, hpairs, ← map_fst_cellsIn, List.find?_map, Option.map_map, Option.map_map]
  rfl

theorem clsIdx_modelInfo (cls : Text) :
    (modelInfo lower rows).clsIdx.get cls =
      ((cellsIn rows).find? fun cell => className lower cell.1 = cls).map Prod.snd := by
  have hpairs := Dict.get_setDefaults ([] : Dict Text Nat)
    ((cellsIn rows).map fun cell => (className lower cell.1, cell.2)) cls
  rw [List.foldl_map, List.find?_map, Option.map_map] at hpairs
  rw [modelInfo_eq, hpairs]
  rfl

theorem IsJoin.class_at (hjoin : IsJoin lower classes rows) {row : JoinedRow V}
    (hrow : row ∈ rows) {idx : Nat} {o : ModelObj V} (ho : row.elements[idx]? = some (some o)) :
    classes[idx]? = some (className lower o) := by
  have hlayout := hjoin.layout row hrow
  rcases List.getElem?_eq_some_iff.mp ho with ⟨hidx, hcell⟩
  have hlength := hlayout.length_eq
  have hcls := hlayout.get hidx (hlength ▸ hidx) o hcell
  rw [hcls]
  exact List.getElem?_eq_getElem (hlength ▸ hidx)

theorem IsJoin.clsIdx (hjoin : IsJoin lower classes rows) {o : ModelObj V}
    (ho : o ∈ objectsIn rows) :
    exists idx, (modelInfo lower rows).clsIdx.get (className lower o) = some idx ∧
      classes[idx]? = some (className lower o) := by
  rw [clsIdx_modelInfo]
  rw [← map_fst_cellsIn] at ho
  rcases List.mem_map.mp ho with ⟨cell, hcell, rfl⟩
  cases hfind : (cellsIn rows).find? fun c => className lower c.1 = className lower cell.1 with
  | none =>
      have hnone := List.find?_eq_none.mp hfind cell hcell
      exact absurd (decide_eq_true rfl) hnone
  | some found =>
      exists found.2
      constructor
      · rfl
      · rcases mem_cellsIn.mp (List.mem_of_find?_eq_some hfind) with ⟨row, hrow, hfound⟩
        rw [hjoin.class_at hrow hfound]
        have hfoundCls := List.find?_some hfind
        have hcls : className lower found.1 = className lower cell.1 := of_decide_eq_true hfoundCls
        rw [hcls]

end

/-!
# What stands in the hierarchy

A row adds an entry to the hierarchy where it has the main object and the parent; so what the
hierarchy has for a parent under a main object are its partners.
-/

section

variable {V : Type} {lower : Text -> Text} {rows : List (JoinedRow V)} {classes : List Text}
variable {root : Text} {edges : List Relationship}

theorem mem_of_first {row : JoinedRow V} (hrow : row ∈ rows) {m : ModelObj V}
    (hfirst : row.first = some m) : m ∈ objectsIn rows := by
  apply mem_objectsIn.mpr
  exists row
  constructor
  · exact hrow
  · rw [← hfirst]
    exact List.mem_cons_self

theorem IsJoin.getObjId_eq (hjoin : IsJoin lower classes rows) {o : ModelObj V}
    (ho : o ∈ objectsIn rows) : o.id = some (getObjId o) := by
  rcases hjoin.ids o ho with ⟨i, hid, hpositive⟩
  unfold getObjId
  rw [hid]
  dsimp only
  rw [if_neg fun hzero => by rw [hzero] at hpositive; exact absurd hpositive (by decide)]

theorem IsJoin.class_first (hjoin : IsJoin lower (root :: classes) rows) {row : JoinedRow V}
    (hrow : row ∈ rows) {m : ModelObj V} (hfirst : row.first = some m) :
    className lower m = root := by
  have hcell : row.elements[0]? = some (some m) := by
    rw [← hfirst]
    rfl
  exact (Option.some.inj (hjoin.class_at hrow hcell)).symm

def entryOf (lower : Text -> Text) (relations : Relations) (clsIdx : Dict Text Nat)
    (row : JoinedRow V) (mainObj relObj : ModelObj V) :
    Option ((Int × Text × Int) × ModelObj V) :=
  (parentIn lower relations clsIdx row mainObj relObj).bind fun parent =>
    parent.id.map fun parentPk => ((getObjId mainObj, className lower relObj, parentPk), relObj)

def entriesOf (lower : Text -> Text) (relations : Relations) (clsIdx : Dict Text Nat)
    (row : JoinedRow V) : List ((Int × Text × Int) × ModelObj V) :=
  match row.first with
  | none => []
  | some mainObj =>
      row.rest.reduceOption.filterMap (entryOf lower relations clsIdx row mainObj)

theorem filter_entryOf {relations : Relations} {clsIdx : Dict Text Nat} {row : JoinedRow V}
    {mainObj relObj : ModelObj V} {parent : Option (ModelObj V)} {targetId parentPk : Int}
    {cls : Text} {C : Prop} [Decidable C]
    (hparent : className lower relObj = cls ->
      parentIn lower relations clsIdx row mainObj relObj = parent)
    (hC : (getObjId mainObj = targetId ∧ exists p, parent = some p ∧ p.id = some parentPk) ↔ C) :
    ((entryOf lower relations clsIdx row mainObj relObj).filter
        fun p => p.1 = (targetId, cls, parentPk)).map Prod.snd =
      Option.guard (fun o => className lower o = cls ∧ C) relObj := by
  have hentry : forall p, p ∈ entryOf lower relations clsIdx row mainObj relObj ->
      (p.1 = (targetId, cls, parentPk) ↔ className lower relObj = cls ∧ C) ∧ p.2 = relObj := by
    intro p hp
    rcases Option.bind_eq_some_iff.mp hp with ⟨found, hfound, hp⟩
    rcases Option.map_eq_some_iff.mp hp with ⟨pk, hpk, rfl⟩
    constructor
    · rw [Prod.mk.injEq, Prod.mk.injEq, ← hC]
      constructor
      · intro h
        refine ⟨h.2.1, h.1, found, ?_, h.2.2 ▸ hpk⟩
        rw [← hparent h.2.1]
        exact hfound
      · intro h
        rcases h with ⟨hcls, hid, p, hp, hpid⟩
        rw [hparent hcls, hp] at hfound
        rw [← Option.some.inj hfound, hpid] at hpk
        exact ⟨hid, hcls, (Option.some.inj hpk).symm⟩
    · rfl
  cases hfound : entryOf lower relations clsIdx row mainObj relObj with
  | none =>
      symm
      apply Option.guard_eq_none_iff.mpr
      apply decide_eq_false
      intro h
      rcases h with ⟨hcls, hc⟩
      rcases hC.mpr hc with ⟨_, p, hp, hpid⟩
      unfold entryOf at hfound
      rw [hparent hcls, hp, Option.bind_some, hpid] at hfound
      cases hfound
  | some p =>
      rcases hentry p hfound with ⟨hkey, hsnd⟩
      rw [Option.filter_some, Option.guard_eq_ite]
      by_cases h : className lower relObj = cls ∧ C
      · rw [if_pos (decide_eq_true (hkey.mpr h)), if_pos (decide_eq_true h), ← hsnd]
        rfl
      · rw [decide_eq_false (mt hkey.mp h), decide_eq_false h]
        rfl

theorem addRelated_eq (relations : Relations) (clsIdx : Dict Text Nat) (row : JoinedRow V)
    (mainObj : ModelObj V) (hierarchy : Hierarchy V) (relObj : ModelObj V) :
    addRelated lower relations clsIdx row mainObj hierarchy relObj =
      match entryOf lower relations clsIdx row mainObj relObj with
      | none => hierarchy
      | some entry => hierarchy.push entry.1 entry.2 := by
  unfold addRelated entryOf
  cases hparent : parentIn lower relations clsIdx row mainObj relObj with
  | none => rfl
  | some parent =>
      rw [Option.bind_some]
      dsimp only
      cases parent.id with
      | none => rfl
      | some parentPk => rfl

theorem hierarchyOf_eq (relations : Relations) (clsIdx : Dict Text Nat)
    (rows : List (JoinedRow V)) :
    hierarchyOf lower relations clsIdx rows =
      (rows.flatMap (entriesOf lower relations clsIdx)).foldl
        (fun hierarchy p => Dict.push hierarchy p.1 p.2) [] := by
  unfold hierarchyOf
  rw [List.foldl_flatMap]
  congr 1
  funext hierarchy row
  unfold entriesOf
  cases row.first with
  | none => rfl
  | some mainObj =>
      dsimp only
      rw [List.foldl_filterMap]
      congr 1
      funext hierarchy relObj
      rw [addRelated_eq]
      cases entryOf lower relations clsIdx row mainObj relObj with
      | none => rfl
      | some entry => rfl

theorem getList_hierarchyOf (relations : Relations) (clsIdx : Dict Text Nat)
    (rows : List (JoinedRow V)) (k : Int × Text × Int) :
    (hierarchyOf lower relations clsIdx rows).getList k =
      rows.flatMap fun row =>
        ((entriesOf lower relations clsIdx row).filter fun p => p.1 = k).map Prod.snd := by
  rw [hierarchyOf_eq, Dict.getList_pushes, List.filter_flatMap, List.map_flatMap]
  rfl

theorem parentIn_eq (htree : IsTree root edges) {clsIdx : Dict Text Nat} {row : JoinedRow V}
    {r : Relationship} (hr : r ∈ edges) {idx : Nat} (hidx : clsIdx.get r.source = some idx)
    {mainObj relObj : ModelObj V} (hrelObj : className lower relObj = r.target) :
    parentIn lower (edges.foldl Relations.record {}) clsIdx row mainObj relObj =
      (row.elements[idx]?).join := by
  unfold parentIn
  rw [hrelObj, (get_of_target htree.oneParent hr).1]
  dsimp only
  rw [hidx]

theorem IsJoin.filter_target (hjoin : IsJoin lower (root :: classes) rows)
    (htree : IsTree root edges) {row : JoinedRow V} (hrow : row ∈ rows) {r : Relationship}
    (hr : r ∈ edges) {mainObj : ModelObj V} (hfirst : row.first = some mainObj) :
    (row.elements.reduceOption.filter fun o => className lower o = r.target) =
      row.rest.reduceOption.filter fun o => className lower o = r.target := by
  unfold JoinedRow.elements
  rw [hfirst, List.reduceOption_cons_of_some, List.filter_cons, if_neg]
  intro heq
  apply htree.above
  rw [← hjoin.class_first hrow hfirst, of_decide_eq_true heq]
  exact List.mem_map_of_mem hr

theorem IsJoin.getObjId_first_iff (hjoin : IsJoin lower (root :: classes) rows)
    {row : JoinedRow V} (hrow : row ∈ rows) {main mainObj : ModelObj V}
    (hmain : some main ∈ rows.map JoinedRow.first) (hfirst : row.first = some mainObj) :
    getObjId mainObj = getObjId main ↔ row.first = some main := by
  rcases List.mem_map.mp hmain with ⟨row', hrow', hfirst'⟩
  have hmem := mem_of_first hrow hfirst
  have hmem' := mem_of_first hrow' hfirst'
  rw [hfirst]
  constructor
  · intro heq
    have hids : mainObj.id = main.id := by
      rw [hjoin.getObjId_eq hmem, hjoin.getObjId_eq hmem', heq]
    have hclasses : className lower mainObj = className lower main :=
      (hjoin.class_first hrow hfirst).trans (hjoin.class_first hrow' hfirst').symm
    rw [hjoin.identify _ _ hmem hmem' hclasses hids]
  · intro heq
    rw [Option.some.inj heq]

theorem IsJoin.cell_iff [DecidableEq V] (hjoin : IsJoin lower (root :: classes) rows)
    {row : JoinedRow V} (hrow : row ∈ rows) {parent : ModelObj V}
    (hparent : parent ∈ objectsIn rows) {idx : Nat}
    (hclass : (root :: classes)[idx]? = some (className lower parent)) :
    (exists p, (row.elements[idx]?).join = some p ∧ p.id = some (getObjId parent)) ↔
      some parent ∈ row.elements := by
  constructor
  · intro h
    rcases h with ⟨p, hp, hpid⟩
    have hcell := Option.join_eq_some_iff.mp hp
    have hpmem : some p ∈ row.elements := List.mem_of_getElem? hcell
    have hpclass : className lower p = className lower parent := by
      have hat := hjoin.class_at hrow hcell
      rw [hclass] at hat
      exact (Option.some.inj hat).symm
    have hobject : p ∈ objectsIn rows := mem_objectsIn.mpr ⟨row, hrow, hpmem⟩
    have hids : p.id = parent.id := hpid.trans (hjoin.getObjId_eq hparent).symm
    rw [← hjoin.identify p parent hobject hparent hpclass hids]
    exact hpmem
  · intro hin
    rcases List.mem_iff_getElem?.mp hin with ⟨i, hi⟩
    have hat := hjoin.class_at hrow hi
    have hsame : i = idx :=
      (List.getElem?_inj (List.getElem?_eq_some_iff.mp hat).1 hjoin.distinct).mp
        (hat.trans hclass.symm)
    exists parent
    constructor
    · rw [← hsame, hi]
      rfl
    · exact hjoin.getObjId_eq hparent

theorem IsJoin.entries_row [DecidableEq V] (hjoin : IsJoin lower (root :: classes) rows)
    (htree : IsTree root edges) {row : JoinedRow V} (hrow : row ∈ rows) {r : Relationship}
    (hr : r ∈ edges) {main parent : ModelObj V} (hmain : some main ∈ rows.map JoinedRow.first)
    (hparent : parent ∈ objectsIn rows) (hsource : className lower parent = r.source) :
    ((entriesOf lower (edges.foldl Relations.record {}) (modelInfo lower rows).clsIdx row).filter
        fun p => p.1 = (getObjId main, r.target, getObjId parent)).map Prod.snd =
      if row.first = some main ∧ some parent ∈ row.elements then
        row.elements.reduceOption.filter fun o => className lower o = r.target
      else [] := by
  rcases Option.ne_none_iff_exists'.mp (hjoin.first row hrow) with ⟨mainObj, hfirst⟩
  rcases hjoin.clsIdx hparent with ⟨idx, hidx, hclass⟩
  rw [hsource] at hidx
  have hcondition := and_congr (hjoin.getObjId_first_iff hrow hmain hfirst)
    (hjoin.cell_iff hrow hparent hclass)
  have hentry : forall relObj,
      ((entryOf lower (edges.foldl Relations.record {}) (modelInfo lower rows).clsIdx row mainObj
          relObj).filter fun p => p.1 = (getObjId main, r.target, getObjId parent)).map Prod.snd =
        Option.guard (fun o => className lower o = r.target ∧
          (row.first = some main ∧ some parent ∈ row.elements)) relObj :=
    fun relObj => filter_entryOf (fun hcls => parentIn_eq htree hr hidx hcls) hcondition
  have helements := hjoin.filter_target htree hrow hr hfirst
  unfold entriesOf
  rw [hfirst]
  dsimp only
  rw [List.filter_filterMap, List.map_filterMap, funext hentry, List.filterMap_eq_filter,
    helements, hfirst]
  split
  · rename_i hC
    apply List.filter_congr
    intro o _
    rw [decide_eq_decide]
    exact ⟨fun h => h.1, fun h => ⟨h, hC⟩⟩
  · rename_i hC
    apply List.filter_eq_nil_iff.mpr
    intro o _ h
    exact hC (of_decide_eq_true h).2

/-- What the hierarchy has for a parent under a main object. -/
theorem IsJoin.getList_eq [DecidableEq V] (hjoin : IsJoin lower (root :: classes) rows)
    (htree : IsTree root edges) {r : Relationship} (hr : r ∈ edges) {main parent : ModelObj V}
    (hmain : some main ∈ rows.map JoinedRow.first) (hparent : parent ∈ objectsIn rows)
    (hsource : className lower parent = r.source) :
    dedupeObjects ((hierarchyOf lower (edges.foldl Relations.record {})
        (modelInfo lower rows).clsIdx rows).getList (getObjId main, r.target, getObjId parent)) =
      partners lower rows main parent r.target := by
  have hlist : (hierarchyOf lower (edges.foldl Relations.record {})
      (modelInfo lower rows).clsIdx rows).getList (getObjId main, r.target, getObjId parent) =
        (rows.filter fun row => row.first = some main ∧ some parent ∈ row.elements).flatMap
          fun row => row.elements.reduceOption.filter fun o => className lower o = r.target := by
    rw [getList_hierarchyOf, Traversals.flatMap_filter_eq]
    apply List.flatMap_congr
    intro row hrow
    rw [hjoin.entries_row htree hrow hr hmain hparent hsource]
    by_cases h : row.first = some main ∧ some parent ∈ row.elements
    · rw [if_pos h, if_pos (decide_eq_true h)]
    · rw [if_neg h, decide_eq_false h]
      rfl
  have hmem : forall o, o ∈ (rows.filter fun row =>
      row.first = some main ∧ some parent ∈ row.elements).flatMap (fun row =>
        row.elements.reduceOption.filter fun o => className lower o = r.target) ->
      o ∈ objectsIn rows ∧ className lower o = r.target := by
    intro o ho
    rcases List.mem_flatMap.mp ho with ⟨row, hrow, ho⟩
    rcases List.mem_filter.mp ho with ⟨hin, hcls⟩
    constructor
    · exact List.mem_flatMap.mpr ⟨row, (List.mem_filter.mp hrow).1, hin⟩
    · exact of_decide_eq_true hcls
  unfold dedupeObjects partners
  rw [hlist, Firsts.unseen_nil, List.filter_eq_self.mpr]
  · apply Firsts.firsts_eq_eraseDups
    intro x y hx hy hids
    exact hjoin.identify x y (hmem x hx).1 (hmem y hy).1
      ((hmem x hx).2.trans (hmem y hy).2.symm) hids
  · intro o ho
    rw [hjoin.getObjId_eq (hmem o ho).1]
    rfl

end

/-!
# The relationships are a tree

No class on the way from the root is above itself.
-/

section

variable {root : Text} {edges : List Relationship}

def startOf (r : Relationship) : Option Text :=
  some r.source

theorem IsTree.not_above_self (htree : IsTree root edges) {x : Text}
    (hx : Relation.ReflTransGen (fun x y => exists r, r ∈ edges ∧ r.source = x ∧ r.target = y)
      root x) :
    ¬ Relation.TransGen (Forest.Above Relationship.target startOf edges) x x := by
  induction hx with
  | refl =>
      intro hcycle
      rcases Relation.TransGen.head'_iff.mp hcycle with ⟨p, ⟨r, hr, htarget, _⟩, _⟩
      apply htree.above
      rw [← htarget]
      exact List.mem_map_of_mem hr
  | @tail x y _ hedge ih =>
      intro hcycle
      rcases hedge with ⟨r, hr, hsource, htarget⟩
      rcases Relation.TransGen.head'_iff.mp hcycle with ⟨p, ⟨r', hr', htarget', hp⟩, hback⟩
      have hsame : r' = r :=
        List.inj_on_of_nodup_map htree.oneParent hr' hr (htarget'.trans htarget.symm)
      have hpx : p = x := by
        rw [← hsource, ← hsame]
        exact (Option.some.inj hp).symm
      rw [hpx] at hback
      exact ih (.tail' hback ⟨r, hr, htarget, congrArg some hsource⟩)

theorem IsTree.target_not_above_self (htree : IsTree root edges) {r : Relationship}
    (hr : r ∈ edges) :
    ¬ Relation.TransGen (Forest.Above Relationship.target startOf edges) r.target r.target :=
  htree.not_above_self (.tail (htree.reached r hr) ⟨r, hr, rfl, rfl⟩)

noncomputable def classHeight (edges : List Relationship) (cls : Text) : Nat :=
  Forest.height Relationship.target startOf edges cls

theorem IsTree.height_lt (htree : IsTree root edges) {r : Relationship} (hr : r ∈ edges) :
    classHeight edges r.target < edges.length :=
  Forest.height_lt_length hr (htree.target_not_above_self hr)

theorem IsTree.height_sub_lt (htree : IsTree root edges) {r sub : Relationship} (hr : r ∈ edges)
    (hsub : sub ∈ edges) (hsource : sub.source = r.target) :
    classHeight edges r.target < classHeight edges sub.target :=
  Forest.height_lt_height hsub hr (htree.target_not_above_self hr) (congrArg some hsource)

end

/-!
# The data of an object

The fields of a class are set one after the other, and the recursion comes to an end and shows
the partners of a parent.
-/

section

variable {V : Type} {lower : Text -> Text} {rows : List (JoinedRow V)} {classes : List Text}
variable {root : Text} {edges : List Relationship}

theorem addFields_eq (htree : IsTree root edges)
    (hlist : forall r, r ∈ edges -> r.type.isList = true)
    {cls : Text} {build : Text -> Option (List (Data V))} (lists : Relationship -> List (Data V))
    (hbuild : forall r, r ∈ edges -> r.source = cls -> build r.target = some (lists r))
    (data : Dict Text (Data V)) :
    addFields (edges.foldl Relations.record {}) cls build data =
      some ((edges.filter fun r => r.source = cls).foldl
        (fun d r => d.set r.key (.list (lists r))) data) := by
  have hsub : forall r, r ∈ edges.filter (fun r => r.source = cls) ->
      r ∈ edges ∧ r.source = cls := by
    intro r hr
    rcases List.mem_filter.mp hr with ⟨hmem, hsource⟩
    exact ⟨hmem, of_decide_eq_true hsource⟩
  unfold addFields
  rw [targets_eq htree.oneParent, List.foldlM_map]
  generalize edges.filter (fun r => r.source = cls) = subs at hsub
  induction subs generalizing data with
  | nil => rfl
  | cons r rest ih =>
      rcases hsub r (.head _) with ⟨hr, hsource⟩
      have hkey := key_eq htree.oneParent hr
      rw [hsource] at hkey
      rw [List.foldlM_cons]
      dsimp only
      rw [hbuild r hr hsource, hkey]
      unfold relatedData
      rw [hlist r hr]
      exact ih _ fun r hr => hsub r (.tail _ hr)

theorem get_columnData {columns : List Text} (o : ModelObj V) {col : Text} (hcol : col ∈ columns) :
    (columnData columns o).get col = some (getColumn o col) := by
  unfold columnData
  rw [Dict.get_ofPairs, List.filter_map, List.getLast?_map, Option.map_map]
  have hmem : col ∈ columns.filter fun c => c = col := List.mem_filter.mpr ⟨hcol, decide_eq_true rfl⟩
  cases hlast : (columns.filter fun c => c = col).getLast? with
  | none =>
      rw [List.getLast?_eq_none_iff.mp hlast] at hmem
      cases hmem
  | some c =>
      have hc : c = col :=
        of_decide_eq_true (List.mem_filter.mp (List.mem_of_getLast? hlast)).2
      have hfilter : ((fun p : Text × Data V => decide (p.1 = col)) ∘
          fun col => (col, getColumn o col)) = fun c => decide (c = col) := rfl
      rw [hfilter, hlast, hc]
      rfl

theorem shows_of_lists [DecidableEq V] (hkeys : (edges.map Relationship.key).Nodup)
    (hcolumns : forall r o, r ∈ edges -> o ∈ objectsIn rows -> r.key ∉ getModelColumns o)
    {hidden : List Text} {main parent : ModelObj V} {lists : Relationship -> List (Data V)}
    (hlists : forall r, r ∈ edges -> r.source = className lower parent ->
      List.Forall₂ (Shows lower rows hidden edges main)
        (partners lower rows main parent r.target) (lists r)) :
    Shows lower rows hidden edges main parent (.record
      ((edges.filter fun r => r.source = className lower parent).foldl
        (fun d r => Dict.set d r.key (.list (lists r)))
        (columnData (columnsOf lower rows (className lower parent)) parent))) := by
  have hsubs : ((edges.filter fun r => r.source = className lower parent).map
      Relationship.key).Nodup := hkeys.sublist (List.filter_sublist.map _)
  apply Shows.record lists
  · intro col hcol _
    rw [Dict.get_sets_of_not_mem]
    · exact get_columnData parent hcol
    · intro hkey
      rcases List.mem_map.mp hkey with ⟨r, hr, heq⟩
      unfold columnsOf at hcol
      cases hfind : (objectsIn rows).find? fun o => className lower o = className lower parent with
      | none =>
          rw [hfind] at hcol
          cases hcol
      | some o =>
          rw [hfind] at hcol
          rw [← heq] at hcol
          exact hcolumns r o (List.mem_filter.mp hr).1 (List.mem_of_find?_eq_some hfind) hcol
  · intro r hr hsource
    exact Dict.get_sets_of_mem _ hsubs (List.mem_filter.mpr ⟨hr, decide_eq_true hsource⟩)
  · intro r hr hsource
    exact (hlists r hr hsource).length_eq.symm
  · intro r hr hsource i partner data hpartner hdata
    rcases List.getElem?_eq_some_iff.mp hpartner with ⟨hi, rfl⟩
    rcases List.getElem?_eq_some_iff.mp hdata with ⟨hi', rfl⟩
    exact (hlists r hr hsource).get hi hi'

theorem exists_fields [DecidableEq V] (htree : IsTree root edges)
    (hlist : forall r, r ∈ edges -> r.type.isList = true)
    (hkeys : (edges.map Relationship.key).Nodup)
    (hcolumns : forall r o, r ∈ edges -> o ∈ objectsIn rows -> r.key ∉ getModelColumns o)
    {hidden : List Text} {main parent : ModelObj V} (build : Text -> Option (List (Data V)))
    (hbuild : forall r, r ∈ edges -> r.source = className lower parent -> exists out,
      build r.target = some out ∧
        List.Forall₂ (Shows lower rows hidden edges main)
          (partners lower rows main parent r.target) out) :
    exists fields,
      addFields (edges.foldl Relations.record {}) (className lower parent) build
        (columnData (columnsOf lower rows (className lower parent)) parent) = some fields ∧
      Shows lower rows hidden edges main parent (.record fields) := by
  have hlists : forall r, r ∈ edges -> r.source = className lower parent ->
      build r.target = some ((build r.target).getD []) := by
    intro r hr hsource
    rcases hbuild r hr hsource with ⟨out, hout, _⟩
    rw [hout]
    rfl
  rw [addFields_eq htree hlist (fun r => (build r.target).getD []) hlists]
  refine ⟨_, rfl, shows_of_lists hkeys hcolumns ?_⟩
  intro r hr hsource
  rcases hbuild r hr hsource with ⟨out, hout, hall⟩
  rw [hout]
  exact hall

theorem mem_partners [DecidableEq V] {main parent o : ModelObj V} {cls : Text}
    (ho : o ∈ partners lower rows main parent cls) :
    o ∈ objectsIn rows ∧ className lower o = cls := by
  unfold partners at ho
  rcases List.mem_flatMap.mp (List.mem_eraseDups.mp ho) with ⟨row, hrow, ho⟩
  rcases List.mem_filter.mp ho with ⟨hin, hcls⟩
  constructor
  · exact List.mem_flatMap.mpr ⟨row, (List.mem_filter.mp hrow).1, hin⟩
  · exact of_decide_eq_true hcls

theorem IsJoin.recursiveBuild [DecidableEq V] (hjoin : IsJoin lower (root :: classes) rows)
    (htree : IsTree root edges) (hlist : forall r, r ∈ edges -> r.type.isList = true)
    (hkeys : (edges.map Relationship.key).Nodup)
    (hcolumns : forall r o, r ∈ edges -> o ∈ objectsIn rows -> r.key ∉ getModelColumns o)
    (hidden : List Text) {main : ModelObj V} (hmain : some main ∈ rows.map JoinedRow.first)
    {fuel : Nat} {r : Relationship} (hr : r ∈ edges)
    (hfuel : edges.length ≤ fuel + classHeight edges r.target) {parent : ModelObj V}
    (hparent : parent ∈ objectsIn rows) (hsource : className lower parent = r.source) :
    exists out,
      Admin.recursiveBuild (modelInfo lower rows).columns (edges.foldl Relations.record {})
        (hierarchyOf lower (edges.foldl Relations.record {}) (modelInfo lower rows).clsIdx rows)
        (getObjId main) fuel r.target (getObjId parent) = some out ∧
      List.Forall₂ (Shows lower rows hidden edges main)
        (partners lower rows main parent r.target) out := by
  induction fuel generalizing r parent with
  | zero =>
      have hheight := htree.height_lt hr
      omega
  | succ fuel ih =>
      unfold Admin.recursiveBuild
      rw [hjoin.getList_eq htree hr hmain hparent hsource]
      apply Traversals.mapM_of_forall
      intro item hitem
      rcases mem_partners hitem with ⟨hobject, hcls⟩
      rw [hjoin.getObjId_eq hobject]
      dsimp only
      rw [columns_modelInfo]
      have hbelow : forall sub, sub ∈ edges -> sub.source = r.target -> exists out,
          Admin.recursiveBuild (modelInfo lower rows).columns (edges.foldl Relations.record {})
            (hierarchyOf lower (edges.foldl Relations.record {}) (modelInfo lower rows).clsIdx
              rows) (getObjId main) fuel sub.target (getObjId item) = some out ∧
          List.Forall₂ (Shows lower rows hidden edges main)
            (partners lower rows main item sub.target) out := by
        intro sub hsub hstart
        have hheight := htree.height_sub_lt hr hsub hstart
        apply ih hsub _ hobject (hcls.trans hstart.symm)
        omega
      rw [← hcls] at hbelow ⊢
      rcases exists_fields htree hlist hkeys hcolumns (fun subType =>
          Admin.recursiveBuild (modelInfo lower rows).columns (edges.foldl Relations.record {})
            (hierarchyOf lower (edges.foldl Relations.record {}) (modelInfo lower rows).clsIdx rows)
            (getObjId main) fuel subType (getObjId item)) hbelow with ⟨fields, hfields, hshows⟩
      rw [hfields]
      exact ⟨_, rfl, hshows⟩

end

/-!
# The whole answer

Without relationships the flat form shows an object by its columns alone; with them each main
object is shown by the recursion.
-/

section

variable {V : Type} {lower : Text -> Text} {rows : List (JoinedRow V)} {classes : List Text}
variable {root : Text} {edges : List Relationship}

theorem IsJoin.mains [DecidableEq V] (hjoin : IsJoin lower (root :: classes) rows) :
    Firsts.unseen getObjId [] (rows.filterMap JoinedRow.first) = mainObjects rows := by
  have hmem : forall m, m ∈ rows.filterMap JoinedRow.first ->
      m ∈ objectsIn rows ∧ className lower m = root := by
    intro m hm
    rcases List.mem_filterMap.mp hm with ⟨row, hrow, hfirst⟩
    exact ⟨mem_of_first hrow hfirst, hjoin.class_first hrow hfirst⟩
  rw [Firsts.unseen_nil]
  apply Firsts.firsts_eq_eraseDups
  intro x y hx hy heq
  apply hjoin.identify x y (hmem x hx).1 (hmem y hy).1 ((hmem x hx).2.trans (hmem y hy).2.symm)
  rw [hjoin.getObjId_eq (hmem x hx).1, hjoin.getObjId_eq (hmem y hy).1, heq]

def ClassesIn (classes : List Text) (children : Children V) : Prop :=
  forall i byClass, children.get i = some byClass ->
    forall cls, cls ∈ byClass.map Prod.fst -> cls ∈ classes

theorem ClassesIn.addChild {children : Children V} (h : ClassesIn classes children)
    (mainObj : ModelObj V) {o : ModelObj V} (ho : className lower o ∈ classes) :
    ClassesIn classes (addChild lower mainObj children o) := by
  intro i byClass hget cls hcls
  unfold Admin.addChild at hget
  rw [Dict.get_set] at hget
  split at hget
  · rw [← Option.some.inj hget] at hcls
    cases Dict.mem_keys_set.mp hcls with
    | inl hnew =>
        rw [hnew]
        exact ho
    | inr hold =>
        cases hfound : children.get (getObjId mainObj) with
        | none =>
            rw [hfound] at hold
            cases hold
        | some found =>
            rw [hfound] at hold
            exact h _ found hfound cls hold
  · exact h i byClass hget cls hcls

theorem ClassesIn.addChildren {children : Children V} (h : ClassesIn classes children)
    {row : JoinedRow V} (hrow : forall o, some o ∈ row.elements -> className lower o ∈ classes) :
    ClassesIn classes (addChildren lower children row) := by
  unfold Admin.addChildren
  cases row.first with
  | none => exact h
  | some mainObj =>
      have hobjects : forall o, o ∈ row.rest.reduceOption -> className lower o ∈ classes :=
        fun o ho => hrow o (List.mem_cons_of_mem _ (List.reduceOption_mem_iff.mp ho))
      dsimp only
      generalize row.rest.reduceOption = objects at hobjects
      induction objects generalizing children with
      | nil => exact h
      | cons o rest ih =>
          exact ih (h.addChild mainObj (hobjects o (.head _))) fun o ho => hobjects o (.tail _ ho)

theorem classesIn_childrenObjects (lower : Text -> Text) (classes : List Text)
    (hrows : forall row, row ∈ rows -> forall o, some o ∈ row.elements ->
      className lower o ∈ classes) : ClassesIn classes (childrenObjects lower rows) := by
  have hfold : forall children : Children V, ClassesIn classes children ->
      ClassesIn classes (rows.foldl (addChildren lower) children) := by
    induction rows with
    | nil => exact fun _ h => h
    | cons row rest ih =>
        intro children h
        exact ih (fun row hrow => hrows row (.tail _ hrow)) _
          (h.addChildren (hrows row (.head _)))
  apply hfold
  intro i byClass hget
  cases hget

theorem IsJoin.mem_classes (hjoin : IsJoin lower classes rows) {row : JoinedRow V}
    (hrow : row ∈ rows) {o : ModelObj V} (ho : some o ∈ row.elements) :
    className lower o ∈ classes := by
  rcases List.mem_iff_getElem?.mp ho with ⟨idx, hidx⟩
  exact List.mem_of_getElem? (hjoin.class_at hrow hidx)

theorem get_buildFlat {columns : Dict Text (List Text)} {children : Dict Text (List (ModelObj V))}
    {primaryObjName col : Text} {primaryColumns : List Text} {o : ModelObj V}
    (hcol : col ∈ primaryColumns)
    (hfree : forall cls, cls ∈ children.map Prod.fst -> col ≠ cls ∧ col ≠ cls ++ "s".toList) :
    (buildFlat columns children primaryObjName primaryColumns o).get col =
      some (getColumn o col) := by
  unfold buildFlat
  have hstart := get_columnData o hcol
  generalize columnData primaryColumns o = result at hstart
  induction children generalizing result with
  | nil => exact hstart
  | cons child rest ih =>
      rcases child with ⟨clsType, childObjs⟩
      rcases hfree clsType (.head _) with ⟨hname, hplural⟩
      rw [List.foldl_cons]
      apply ih fun cls hcls => hfree cls (.tail _ hcls)
      dsimp only
      split
      · exact hstart
      · rw [Dict.get_set, if_neg]
        · exact hstart
        · unfold flatField
          split
          · exact fun h => hname h.symm
          · exact fun h => hname h.symm
          · exact fun h => hplural h.symm

theorem IsJoin.primaryColumns (hjoin : IsJoin lower (root :: classes) rows) {row : JoinedRow V}
    {rest : List (JoinedRow V)} (hrows : rows = row :: rest) {m : ModelObj V}
    (hfirst : row.first = some m) : getModelColumns m = columnsOf lower rows root := by
  have hrow : row ∈ rows := by
    rw [hrows]
    exact .head _
  have hroot := hjoin.class_first hrow hfirst
  unfold columnsOf objectsIn JoinedRow.elements
  rw [hrows, List.flatMap_cons, hfirst, List.reduceOption_cons_of_some, List.cons_append,
    List.find?_cons, decide_eq_true hroot]
  rfl

theorem IsJoin.shows_flat [DecidableEq V] (hjoin : IsJoin lower (root :: classes) rows)
    (hnil : edges = []) {main mainObj : ModelObj V} (hcls : className lower mainObj = root)
    (columns : Dict Text (List Text)) (primaryObjName : Text) :
    Shows lower rows (flatNames (root :: classes) edges) edges main mainObj
      (.record (buildFlat columns
        ((childrenObjects lower rows).get (getObjId mainObj) |>.getD []) primaryObjName
        (columnsOf lower rows root) mainObj)) := by
  have hclasses := classesIn_childrenObjects lower (root :: classes)
    fun row hrow o ho => hjoin.mem_classes hrow ho
  have hnone : forall r, r ∈ edges -> False := by
    intro r hr
    rw [hnil] at hr
    cases hr
  apply Shows.record fun _ => []
  · intro col hcol hhidden
    unfold flatNames at hhidden
    rw [if_pos hnil, List.mem_append, not_or] at hhidden
    rw [hcls] at hcol
    apply get_buildFlat hcol
    intro cls hmem
    cases hget : (childrenObjects lower rows).get (getObjId mainObj) with
    | none =>
        rw [hget] at hmem
        cases hmem
    | some byClass =>
        rw [hget] at hmem
        have hin := hclasses _ byClass hget cls hmem
        constructor
        · intro heq
          exact hhidden.1 (heq ▸ hin)
        · intro heq
          exact hhidden.2 (heq ▸ List.mem_map_of_mem hin)
  · exact fun r hr => absurd hr (hnone r)
  · exact fun r hr => absurd hr (hnone r)
  · exact fun r hr => absurd hr (hnone r)

theorem IsJoin.resultData [DecidableEq V] (hjoin : IsJoin lower (root :: classes) rows)
    (htree : IsTree root edges) (hlist : forall r, r ∈ edges -> r.type.isList = true)
    (hkeys : (edges.map Relationship.key).Nodup)
    (hcolumns : forall r o, r ∈ edges -> o ∈ objectsIn rows -> r.key ∉ getModelColumns o)
    {fuel : Nat} (hfuel : edges.length ≤ fuel) {row : JoinedRow V} {rest : List (JoinedRow V)}
    (hrows : rows = row :: rest) {primaryObj : ModelObj V} (hprimary : row.first = some primaryObj)
    {main : ModelObj V} (hmain : some main ∈ rows.map JoinedRow.first) :
    exists fields,
      Admin.resultData lower fuel (edges.foldl Relations.record {}) rows primaryObj main =
        some fields ∧
      Shows lower rows (flatNames (root :: classes) edges) edges main main (.record fields) := by
  have hrow : row ∈ rows := by
    rw [hrows]
    exact .head _
  rcases List.mem_map.mp hmain with ⟨row', hrow', hfirst⟩
  have hobject := mem_of_first hrow' hfirst
  have hcls := hjoin.class_first hrow' hfirst
  unfold Admin.resultData
  dsimp only
  rw [hjoin.primaryColumns hrows hprimary, hjoin.class_first hrow hprimary]
  split
  · -- nested
    unfold buildNested
    rw [← hcls]
    apply exists_fields htree hlist hkeys hcolumns
    intro r hr hsource
    apply hjoin.recursiveBuild htree hlist hkeys hcolumns _ hmain hr _ hobject hsource.symm
    exact Nat.le_add_right_of_le hfuel
  · -- flat
    rename_i hgraph
    have hnil : edges = [] := graph_eq_nil_iff.mp (not_not.mp hgraph)
    exact ⟨_, rfl, hjoin.shows_flat hnil hcls _ _⟩

/--
Joined rows are nested faithfully: one result for each main object, in the order of the rows,
and the lists of each object show its different partners in the rows of the main object.
-/
theorem selectJoinSerialize_nests [DecidableEq V] (relationships : List Text)
    (hjoin : IsJoin lower (root :: classes) rows)
    (htree : IsTree root (relationshipsOf lower relationships))
    (hlist : forall r, r ∈ relationshipsOf lower relationships -> r.type.isList = true)
    (hkeys : ((relationshipsOf lower relationships).map Relationship.key).Nodup)
    (hcolumns : forall r o, r ∈ relationshipsOf lower relationships -> o ∈ objectsIn rows ->
      r.key ∉ getModelColumns o)
    {fuel : Nat} (hfuel : (relationshipsOf lower relationships).length ≤ fuel) :
    exists results,
      selectJoinSerialize lower fuel rows relationships = some (answerOf results) ∧
        List.Forall₂
          (fun main data => Shows lower rows
            (flatNames (root :: classes) (relationshipsOf lower relationships))
            (relationshipsOf lower relationships) main main data)
          (mainObjects rows) results := by
  have hparse : parseRelationships lower relationships =
      (relationshipsOf lower relationships).foldl Relations.record {} := rfl
  rcases List.exists_cons_of_ne_nil hjoin.nonempty with ⟨firstRow, rest, hrows⟩
  have hfirstRow : firstRow ∈ rows := by
    rw [hrows]
    exact .head _
  rcases Option.ne_none_iff_exists'.mp (hjoin.first firstRow hfirstRow) with ⟨primaryObj, hprimary⟩
  have hall : forall main, main ∈ mainObjects rows -> exists data,
      (do
        let data <- resultData lower fuel (parseRelationships lower relationships) rows primaryObj
          main
        some (Data.record data)) = some data ∧
      Shows lower rows (flatNames (root :: classes) (relationshipsOf lower relationships))
        (relationshipsOf lower relationships) main main data := by
    intro main hmem
    rcases List.mem_filterMap.mp (List.mem_eraseDups.mp hmem) with ⟨row, hrow, hfirst⟩
    have hmain : some main ∈ rows.map JoinedRow.first := by
      rw [← hfirst]
      exact List.mem_map_of_mem hrow
    rcases hjoin.resultData htree hlist hkeys hcolumns hfuel hrows hprimary hmain with
      ⟨fields, hfields, hshows⟩
    rw [hparse, hfields]
    exact ⟨_, rfl, hshows⟩
  rcases Traversals.mapM_of_forall hall with ⟨results, hresults, hshows⟩
  exists results
  constructor
  · rw [← hjoin.mains] at hresults
    have hanswer : forall results : List (Data V),
        (match results with
          | [result] => some result
          | results => some (.list results)) = some (answerOf results) := by
      intro results
      unfold answerOf
      split
      · rfl
      · rfl
    rw [hrows] at hresults ⊢
    unfold selectJoinSerialize
    dsimp only
    rw [hprimary]
    dsimp only
    rw [hresults]
    exact hanswer results
  · exact hshows

end

def roleRows : List (JoinedRow Nat) :=
  let user : ModelObj Nat := ⟨"User".toList, some 1, 100, [("id".toList, 1)]⟩
  [⟨some user, [some ⟨"Role".toList, some 2, 200, [("id".toList, 2)]⟩]⟩,
    ⟨some user, [some ⟨"Role".toList, some 3, 300, [("id".toList, 3)]⟩]⟩]

theorem isJoin_roleRows : IsJoin Text.lowerAscii ["user".toList, "role".toList] roleRows where
  nonempty := List.cons_ne_nil _ _
  distinct := by decide
  layout := by
    have hcell : forall (o : ModelObj Nat) (cls : Text), className Text.lowerAscii o = cls ->
        forall o', some o = some o' -> className Text.lowerAscii o' = cls := by
      intro o cls hcls o' ho'
      rw [← Option.some.inj ho']
      exact hcls
    intro row hrow
    rcases List.mem_cons.mp hrow with rfl | hrow
    · exact .cons (hcell _ _ (by decide)) (.cons (hcell _ _ (by decide)) .nil)
    · rw [List.mem_singleton.mp hrow]
      exact .cons (hcell _ _ (by decide)) (.cons (hcell _ _ (by decide)) .nil)
  first := by decide
  ids := by
    have hids : forall o, o ∈ objectsIn roleRows -> o.id.isSome ∧ 1 ≤ o.id.getD 0 := by decide
    intro o ho
    rcases Option.isSome_iff_exists.mp (hids o ho).1 with ⟨i, hi⟩
    have hpositive := (hids o ho).2
    rw [hi] at hpositive
    exact ⟨i, hi, hpositive⟩
  identify := by
    have hsame : forall o, o ∈ objectsIn roleRows -> forall o', o' ∈ objectsIn roleRows ->
        className Text.lowerAscii o = className Text.lowerAscii o' -> o.id = o'.id -> o = o' := by
      decide
    exact fun o o' ho ho' => hsame o ho o' ho'

theorem selectJoinSerialize_nests_roles :
    exists results,
      selectJoinSerialize Text.lowerAscii 1 roleRows ["User-m2m-Role".toList] =
        some (answerOf results) ∧
      List.Forall₂
        (fun main data => Shows Text.lowerAscii roleRows
          (flatNames ["user".toList, "role".toList]
            (relationshipsOf Text.lowerAscii ["User-m2m-Role".toList]))
          (relationshipsOf Text.lowerAscii ["User-m2m-Role".toList]) main main data)
        (mainObjects roleRows) results := by
  apply selectJoinSerialize_nests ["User-m2m-Role".toList] isJoin_roleRows
  · constructor
    · decide
    · decide
    · have hroot : forall r, r ∈ relationshipsOf Text.lowerAscii ["User-m2m-Role".toList] ->
          r.source = "user".toList := by decide
      intro r hr
      rw [hroot r hr]
  · decide
  · decide
  · have hfree : forall r, r ∈ relationshipsOf Text.lowerAscii ["User-m2m-Role".toList] ->
        forall o, o ∈ objectsIn roleRows -> r.key ∉ getModelColumns o := by decide
    exact fun r o hr ho => hfree r hr o ho
  · decide

end Admin
end RagService
