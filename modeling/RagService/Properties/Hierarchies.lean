import RagService.Admin.Frames
import RagService.Admin.Trees
import RagService.Foundation.Transitions

/-!
# Hierarchies stay forests

Departments and menus: no row is above itself, every parent is there, and the tree shows
every row once.  An update checks only that the new parent is there and is not the row
itself, and 0 passes for no parent at all.
-/

namespace RagService
namespace Admin

open Transitions Relation

section

variable {α : Type} {parentId : α -> Option Nat} {t : Table α}

abbrev ParentOf (parentId : α -> Option Nat) (t : Table α) : Nat -> Nat -> Prop :=
  Forest.Above Row.id (parentOf parentId) t.live

structure IsForest (parentId : α -> Option Nat) (t : Table α) : Prop where
  ids : t.ids.Nodup
  acyclic : Forest.Acyclic (ParentOf parentId t)
  parents : forall x p, ParentOf parentId t x p -> p ∈ t.live.map Row.id

/-- The tree of the live rows, read in any order, shows each of them once. -/
def ShowsEachOnce [DecidableEq α] (parentId : α -> Option Nat) (t : Table α) : Prop :=
  forall (sort : Row α -> Int) (rows : List (Row α)) (depth : Nat), rows.Perm t.live ->
    rows.length ≤ depth -> ((getTreeData parentId sort rows).rows depth).Perm t.live

namespace IsForest

theorem nil : IsForest parentId ([] : Table α) := by
  constructor
  · exact List.nodup_nil
  · intro a ha
    rcases (TransGen.head'_iff.mp ha) with ⟨_, h⟩
    rcases h with ⟨⟨n, hn, -⟩, -⟩
    cases hn
  · intro x p h
    rcases h with ⟨n, hn, -⟩
    cases hn

theorem live_nodup (h : IsForest parentId t) : (t.live.map Row.id).Nodup :=
  h.ids.sublist (List.filter_sublist.map Row.id)

theorem showsEachOnce [DecidableEq α] (h : IsForest parentId t) : ShowsEachOnce parentId t := by
  intro sort rows depth hrows hdepth
  have hids : (rows.map Row.id).Nodup := (hrows.map Row.id).nodup_iff.mpr h.live_nodup
  have hacyclic : Forest.Acyclic (Forest.Above Row.id (parentOf parentId) rows) := by
    apply h.acyclic.mono
    intro x y habove
    rcases habove with ⟨n, hn, habove⟩
    exact ⟨n, hrows.mem_iff.mp hn, habove⟩
  exact (rows_getTreeData sort hids hacyclic hdepth).trans hrows

theorem create (h : IsForest parentId t) {newId : Nat} {value : α} (hnew : newId ∉ t.ids)
    (hparent : forall p, parentId value = some p -> p ∈ t.live.map Row.id) :
    IsForest parentId (t.create newId value) := by
  have hlive : newId ∉ t.live.map Row.id := by
    intro hmem
    rcases List.mem_map.mp hmem with ⟨row, hrow, rfl⟩
    exact hnew (List.mem_map_of_mem (Table.mem_live.mp hrow).1)
  have hcases : forall x p, ParentOf parentId (t.create newId value) x p ->
      ParentOf parentId t x p ∨ x = newId ∧ parentId value = some p := by
    intro x p habove
    rcases habove with ⟨n, hn, rfl, hn'⟩
    rw [Table.live_create] at hn
    cases List.mem_append.mp hn with
    | inl hold => exact .inl ⟨n, hold, rfl, hn'⟩
    | inr hlast =>
        rw [List.mem_singleton.mp hlast] at hn' ⊢
        exact .inr ⟨rfl, hn'⟩
  have hmem : forall p, p ∈ t.live.map Row.id -> p ∈ (t.create newId value).live.map Row.id := by
    intro p hp
    rw [Table.live_create, List.map_append]
    exact List.mem_append_left _ hp
  constructor
  · exact Table.nodup_ids_create h.ids hnew
  · cases hvalue : parentId value with
    | none =>
        apply h.acyclic.mono
        intro x y habove
        cases hcases x y habove with
        | inl hold => exact hold
        | inr hlast =>
            rw [hvalue] at hlast
            cases hlast.2
    | some p =>
        apply h.acyclic.relink (a := newId) (p := p)
        · intro x y habove
          cases hcases x y habove with
          | inl hold => exact .inl hold
          | inr hlast =>
              rw [hvalue] at hlast
              exact .inr ⟨hlast.1, (Option.some.inj hlast.2).symm⟩
        · -- the new row is no parent yet
          intro hpath
          cases hpath with
          | refl => exact hlive (hparent newId hvalue)
          | tail _ hlast => exact hlive (h.parents _ _ hlast)
  · intro x p habove
    cases hcases x p habove with
    | inl hold => exact hmem p (h.parents x p hold)
    | inr hlast => exact hmem p (hparent p hlast.2)

theorem update (h : IsForest parentId t) {pk : Nat} {f : α -> α}
    (hparent : forall row, row ∈ t.live -> row.id = pk -> forall p,
      parentId (f row.value) = some p -> parentId row.value = some p ∨
        p ∈ t.live.map Row.id ∧ ¬ ReflTransGen (ParentOf parentId t) p pk) :
    IsForest parentId (t.update [pk] f) := by
  have hlive := Table.live_update (t := t) [pk] f
  have hids : (t.update [pk] f).live.map Row.id = t.live.map Row.id := by
    rw [hlive, List.map_map]
    apply List.map_congr_left
    intro row _
    dsimp only [Function.comp]
    split <;> rfl
  have hcases : forall x p, ParentOf parentId (t.update [pk] f) x p ->
      ParentOf parentId t x p ∨
        x = pk ∧ p ∈ t.live.map Row.id ∧ ¬ ReflTransGen (ParentOf parentId t) p pk ∧
          exists row, row ∈ t.live ∧ row.id = pk ∧ parentId (f row.value) = some p := by
    intro x p habove
    rcases habove with ⟨n, hn, rfl, hn'⟩
    rw [hlive] at hn
    rcases List.mem_map.mp hn with ⟨row, hrow, rfl⟩
    by_cases hpk : row.id ∈ [pk]
    · rw [if_pos hpk] at hn' ⊢
      have hid := List.mem_singleton.mp hpk
      cases hparent row hrow hid p hn' with
      | inl hold => exact .inl ⟨row, hrow, rfl, hold⟩
      | inr hnew => exact .inr ⟨hid, hnew.1, hnew.2, row, hrow, hid, hn'⟩
    · rw [if_neg hpk] at hn' ⊢
      exact .inl ⟨row, hrow, rfl, hn'⟩
  constructor
  · rw [Table.ids_update]
    exact h.ids
  · by_cases hmoved : exists p, ¬ ReflTransGen (ParentOf parentId t) p pk ∧
        exists row, row ∈ t.live ∧ row.id = pk ∧ parentId (f row.value) = some p
    · rcases hmoved with ⟨p, hp, row, hrow, hid, hvalue⟩
      refine h.acyclic.relink (fun x y habove => ?_) hp
      cases hcases x y habove with
      | inl hold => exact .inl hold
      | inr hnew =>
          -- ids are unique, so the row is the one that moves below p
          rcases hnew with ⟨hx, -, -, row', hrow', hid', hvalue'⟩
          have hsame := List.inj_on_of_nodup_map h.live_nodup hrow' hrow (hid'.trans hid.symm)
          rw [hsame, hvalue] at hvalue'
          exact .inr ⟨hx, (Option.some.inj hvalue').symm⟩
    · apply h.acyclic.mono
      intro x y habove
      cases hcases x y habove with
      | inl hold => exact hold
      | inr hnew => exact absurd ⟨y, hnew.2.2.1, hnew.2.2.2⟩ hmoved
  · intro x p habove
    rw [hids]
    cases hcases x p habove with
    | inl hold => exact h.parents x p hold
    | inr hnew => exact hnew.2.1

theorem delete (h : IsForest parentId t) {pk : Nat}
    (hchildren : forall row, row ∈ t.live -> parentId row.value ≠ some pk) :
    IsForest parentId (t.delete [pk]) := by
  have hle : forall x p, ParentOf parentId (t.delete [pk]) x p -> ParentOf parentId t x p := by
    intro x p habove
    rcases habove with ⟨n, hn, habove⟩
    exact ⟨n, Table.mem_live_delete hn, habove⟩
  constructor
  · rw [Table.ids_delete]
    exact h.ids
  · exact h.acyclic.mono hle
  · intro x p habove
    rcases habove with ⟨n, hn, -, hp⟩
    have hn' := Table.mem_live_delete hn
    rcases List.mem_map.mp (h.parents n.id p ⟨n, hn', rfl, hp⟩) with ⟨parent, hmem, rfl⟩
    have hne : parent.id ∉ [pk] := by
      intro heq
      rw [List.mem_singleton.mp heq] at hp
      exact hchildren n hn' hp
    exact List.mem_map_of_mem (Table.live_delete_of_not_mem hmem hne)

end IsForest
end

/-!
# Requests

An update that is not refused for the row or its name may set any parent but 0 and the rows
below the row itself.
-/

/-- An update that is not refused for the row or its name may set any parent but 0 and the
rows below the row itself. -/
def MayMove {α : Type} (parentId : α -> Option Nat) (t : Table α) (pk : Nat)
    (refused : Row α -> Bool) (newParent : Option (Option Nat)) : Prop :=
  forall row, t.get pk = some row -> refused row = false ->
    forall p, newParent = some (some p) -> p ≠ 0 ∧ ¬ TransGen (ParentOf parentId t) p pk

/-- The requests that keep the hierarchies: 0 is never stored as a parent, and no row moves
below itself. -/
def Placeable (db : AdminDb) : AdminRequest -> Prop
  | .createMenu _ obj => MenuService.titleTaken db obj.title = false -> obj.parentId ≠ some 0
  | .updateMenu pk obj => MayMove Menu.parentId db.menus pk
      (fun menu => menu.value.title ≠ obj.title && MenuService.titleTaken db obj.title)
      obj.parentId
  | .updateDept pk obj => MayMove Dept.parentId db.depts pk
      (fun dept => dept.value.name ≠ obj.name && DeptService.nameTaken db obj.name)
      obj.parentId
  | _ => True

def adminStep (db : AdminDb) (r : AdminRequest) : Option AdminDb :=
  if r.FreshId db then
    match r.perform db with
    | .ok out => some out.db
    | .error _ => some db
  else
    none

/-- The departments and the menus are forests, where they were at first. -/
structure Hierarchies (depts menus : Prop) (db : AdminDb) : Prop where
  depts : depts -> IsForest Dept.parentId db.depts
  menus : menus -> IsForest Menu.parentId db.menus

/-!
# What a request commits

A parent that is truthy has been found; and an update that may move the row moves it in the
forest.
-/

def Commits (P : AdminDb -> Prop) (x : Outcome) : Prop :=
  forall out, x = .ok out -> P out.db

section

variable {P : AdminDb -> Prop} {db : AdminDb} {depts menus : Prop}

theorem commits_ok {out : Committed} (h : P out.db) : Commits P (.ok out) := by
  intro out' hout
  cases hout
  exact h

theorem commits_bind {α : Type} {x : Except AdminError α} {f : α -> Outcome}
    (h : forall a, x = .ok a -> Commits P (f a)) : Commits P (x >>= f) := by
  cases x with
  | error e =>
      intro out hout
      cases hout
  | ok a => exact h a rfl

theorem commits_found {α : Type} {row : Option α} {msg : Text} {f : α -> Outcome}
    (h : forall a, row = some a -> Commits P (f a)) : Commits P (found row msg >>= f) := by
  apply commits_bind
  intro a ha
  apply h a
  cases row with
  | none => cases ha
  | some found =>
      cases ha
      rfl

theorem commits_refuse {check : Bool} {e : AdminError} {f : Unit -> Outcome}
    (h : check = false -> Commits P (f ())) : Commits P (refuse check e >>= f) := by
  apply commits_bind
  intro _ hpassed
  apply h
  cases check with
  | true => cases hpassed
  | false => rfl

theorem mem_ids_live_of_get {α : Type} {t : Table α} {p : Nat} (h : ¬ (t.get p).isNone = true) :
    p ∈ t.live.map Row.id := by
  cases hget : t.get p with
  | none =>
      rw [hget] at h
      exact absurd rfl h
  | some row =>
      rcases Table.get_mem hget with ⟨hmem, hlive, rfl⟩
      exact List.mem_map_of_mem (Table.mem_live.mpr ⟨hmem, hlive⟩)

theorem mem_ids_live_of_truthy {α : Type} {t : Table α} {parent : Option Nat} {p : Nat}
    (h : ((truthy parent).any fun parentId => (t.get parentId).isNone) = false)
    (hparent : parent = some p) (hp : p ≠ 0) : p ∈ t.live.map Row.id := by
  apply mem_ids_live_of_get
  rw [hparent, truthy, Option.filter_some, if_pos (decide_eq_true hp)] at h
  rw [Option.any_some] at h
  rw [h]
  decide

theorem no_children_of_getBy {α : Type} {t : Table α} {parentId : α -> Option Nat} {pk : Nat}
    (h : (t.getBy fun child => parentId child = some pk).isSome = false) :
    forall row, row ∈ t.live -> parentId row.value ≠ some pk := by
  intro row hrow hparent
  rw [Option.isSome_eq_false_iff, Option.isNone_iff_eq_none, Table.getBy,
    List.find?_eq_none] at h
  rcases Table.mem_live.mp hrow with ⟨hmem, hlive⟩
  apply h row hmem
  rw [decide_eq_true hlive, decide_eq_true hparent]
  rfl

/-- An update that may move the row moves it in the forest. -/
theorem IsForest.move {α : Type} {parentId : α -> Option Nat} {t : Table α}
    (h : IsForest parentId t) {pk : Nat} {row : Row α} (hrow : t.get pk = some row)
    {f : α -> α} {newParent : Option (Option Nat)}
    (hf : forall value, parentId (f value) = newParent.getD (parentId value))
    {refused : Row α -> Bool} (hrefused : refused row = false)
    (hmay : MayMove parentId t pk refused newParent)
    (hfound : ((truthy newParent.join).any fun p => (t.get p).isNone) = false)
    (hself : newParent.join ≠ some row.id) : IsForest parentId (t.update [pk] f) := by
  apply h.update
  intro row' _ _ p hp
  rw [hf] at hp
  cases newParent with
  | none => exact .inl hp
  | some parent =>
      have hparent : parent = some p := hp
      rcases hmay row hrow hrefused p (congrArg some hparent) with ⟨hzero, hbelow⟩
      have hmem := mem_ids_live_of_truthy hfound (congrArg Option.join (congrArg some hparent)) hzero
      refine .inr ⟨hmem, ?_⟩
      intro hpath
      cases reflTransGen_iff_eq_or_transGen.mp hpath with
      | inl heq =>
          apply hself
          rw [(Table.get_mem hrow).2.2, heq, hparent]
          rfl
      | inr hpath => exact hbelow hpath

theorem perform_hierarchies (h : Hierarchies depts menus db) {r : AdminRequest} (hfresh : r.FreshId db)
    (hplace : Placeable db r) : Commits (Hierarchies depts menus) (r.perform db) := by
  cases r with
  | createMenu newId obj =>
      apply commits_refuse
      intro htitle
      apply commits_refuse
      intro hparent
      apply commits_ok
      constructor
      · exact h.depts
      · intro hmenus
        apply (h.menus hmenus).create hfresh.2
        intro p hp
        apply mem_ids_live_of_truthy hparent hp
        intro hzero
        rw [hzero] at hp
        exact hplace htitle hp
  | updateMenu pk obj =>
      apply commits_found
      intro menu hmenu
      apply commits_refuse
      intro htitle
      apply commits_refuse
      intro hparent
      apply commits_refuse
      intro hself
      apply commits_ok
      constructor
      · exact h.depts
      · intro hmenus
        exact (h.menus hmenus).move hmenu (fun _ => rfl) htitle hplace hparent (of_decide_eq_false hself)
  | deleteMenu pk =>
      apply commits_refuse
      intro hchildren
      apply commits_ok
      constructor
      · exact h.depts
      · intro hmenus
        exact (h.menus hmenus).delete (no_children_of_getBy hchildren)
  | createDept newId obj =>
      apply commits_refuse
      intro _
      apply commits_refuse
      intro hparent
      apply commits_ok
      constructor
      · intro hdepts
        apply (h.depts hdepts).create hfresh.2
        intro p hp
        apply mem_ids_live_of_get
        rw [show obj.parentId = some p from hp, Option.any_some] at hparent
        rw [hparent]
        decide
      · exact h.menus
  | updateDept pk obj =>
      apply commits_found
      intro dept hdept
      apply commits_refuse
      intro hname
      apply commits_refuse
      intro hparent
      apply commits_refuse
      intro hself
      apply commits_ok
      constructor
      · intro hdepts
        exact (h.depts hdepts).move hdept (fun _ => rfl) hname hplace hparent (of_decide_eq_false hself)
      · exact h.menus
  | deleteDept pk =>
      apply commits_found
      intro _ _
      apply commits_refuse
      intro _
      apply commits_refuse
      intro hchildren
      apply commits_ok
      constructor
      · intro hdepts
        exact (h.depts hdepts).delete (no_children_of_getBy hchildren)
      · exact h.menus
  | updatePermission requestUser pk type =>
      apply commits_found
      intro _ _
      cases type with
      | superuser | staff | status => exact commits_refuse fun _ => commits_ok ⟨h.depts, h.menus⟩
      | multiLogin => exact commits_ok ⟨h.depts, h.menus⟩
  | _ =>
      -- the other requests leave the two tables as they are
      repeat
        apply commits_bind
        intro _ _
      exact commits_ok ⟨h.depts, h.menus⟩

theorem adminStep_hierarchies (h : Hierarchies depts menus db) {r : AdminRequest} (hplace : Placeable db r)
    {db' : AdminDb} (hstep : adminStep db r = some db') : Hierarchies depts menus db' := by
  unfold adminStep at hstep
  split at hstep
  · rename_i hfresh
    split at hstep
    · rename_i out hout
      cases hstep
      exact perform_hierarchies h hfresh hplace out hout
    · cases hstep
      exact h
  · cases hstep

end

/-- What is claimed of a table: it is a forest, and the tree shows its live rows once each. -/
def StaysTree {α : Type} [DecidableEq α] (parentId : α -> Option Nat) (t : Table α) : Prop :=
  Forest.Acyclic (ParentOf parentId t) ∧
    (forall x p, ParentOf parentId t x p -> p ∈ t.live.map Row.id) ∧ ShowsEachOnce parentId t

/--
Departments and menus stay trees over every sequence of requests in which no update moves a
row below itself, and 0 is never stored as a parent.
-/
theorem hierarchies_stay_trees (first db : AdminDb)
    (hrun : Reaches adminStep Placeable first db) :
    (first.depts = [] -> StaysTree Dept.parentId db.depts) ∧
      (first.menus = [] -> StaysTree Menu.parentId db.menus) := by
  have hfirst : Hierarchies (first.depts = []) (first.menus = []) first := by
    constructor
    · intro hdepts
      rw [hdepts]
      exact .nil
    · intro hmenus
      rw [hmenus]
      exact .nil
  have h : Hierarchies (first.depts = []) (first.menus = []) db := by
    apply hrun.invariant (Hierarchies (first.depts = []) (first.menus = [])) hfirst
    intro s a s' h hplace hstep
    exact adminStep_hierarchies h hplace hstep
  constructor
  · intro hdepts
    have hforest := h.depts hdepts
    exact ⟨hforest.acyclic, hforest.parents, hforest.showsEachOnce⟩
  · intro hmenus
    have hforest := h.menus hmenus
    exact ⟨hforest.acyclic, hforest.parents, hforest.showsEachOnce⟩

/-!
# Samples

Three departments in a line.
-/

def emptyAdminDb : AdminDb :=
  ⟨[], [], [], [], [], [], [], [], [], []⟩

def sampleDepts : Table Dept :=
  [⟨1, 0, ⟨['a'], none, 1⟩⟩, ⟨2, 0, ⟨['b'], some 1, 1⟩⟩, ⟨3, 0, ⟨['c'], some 2, 1⟩⟩]

theorem sampleDepts_mayMove : MayMove Dept.parentId sampleDepts 3 (fun _ => false)
    (some (some 1)) := by
  intro row _ _ p hp
  cases hp
  constructor
  · decide
  · -- the first department has no parent
    intro hpath
    rcases TransGen.head'_iff.mp hpath with ⟨c, ⟨n, hn, hid, hparent⟩, -⟩
    have hfirst : n = ⟨1, 0, ⟨['a'], none, 1⟩⟩ :=
      (by decide : forall n, n ∈ sampleDepts.live -> n.id = 1 -> n = ⟨1, 0, ⟨['a'], none, 1⟩⟩)
        n hn hid
    rw [hfirst] at hparent
    cases hparent

/-- The last department moves up to the first. -/
theorem hierarchies_stay_trees_sample : exists db, Reaches adminStep Placeable emptyAdminDb db ∧
    db.depts.map (fun row => row.value.parentId) = [none, some 1, some 1] ∧
      StaysTree Dept.parentId db.depts := by
  have hcreated : Reaches adminStep Placeable emptyAdminDb
      { emptyAdminDb with depts := sampleDepts } :=
    ((Reaches.refl.tail (a := .createDept 1 ⟨['a'], none, 1⟩) trivial rfl).tail
      (a := .createDept 2 ⟨['b'], some 1, 1⟩) trivial rfl).tail
      (a := .createDept 3 ⟨['c'], some 2, 1⟩) trivial rfl
  have hplace : Placeable { emptyAdminDb with depts := sampleDepts }
      (.updateDept 3 ⟨['c'], some (some 1), 1⟩) :=
    fun row hrow _ => sampleDepts_mayMove row hrow rfl
  have hmoved := hcreated.tail hplace rfl
  exact ⟨_, hmoved, rfl, (hierarchies_stay_trees _ _ hmoved).1 rfl⟩

/-- Two departments become each other's parent, and a menu gets the parent 0. -/
theorem hierarchies_stay_trees_fails :
    (exists db, Reaches adminStep (fun _ _ => True) emptyAdminDb db ∧
      ¬ StaysTree Dept.parentId db.depts) ∧
    exists db, Reaches adminStep (fun _ _ => True) emptyAdminDb db ∧
      ¬ StaysTree Menu.parentId db.menus := by
  constructor
  · obtain ⟨db, hrun, hdepts⟩ := exists_reaches adminStep (fun _ _ => True) emptyAdminDb
      [.createDept 1 ⟨['a'], none, 1⟩, .createDept 2 ⟨['b'], some 1, 1⟩,
        .updateDept 1 ⟨['a'], some (some 2), 1⟩]
      (fun db => db.depts = [⟨1, 0, ⟨['a'], some 2, 1⟩⟩, ⟨2, 0, ⟨['b'], some 1, 1⟩⟩])
      (by decide +kernel)
    refine ⟨db, hrun, ?_⟩
    intro htree
    have hacyclic := htree.1 1
    rw [hdepts] at hacyclic
    have hdown : ParentOf Dept.parentId
        [⟨1, 0, ⟨['a'], some 2, 1⟩⟩, ⟨2, 0, ⟨['b'], some 1, 1⟩⟩] 1 2 := ⟨_, .head _, rfl, rfl⟩
    exact hacyclic (.tail (.single hdown) ⟨_, .tail _ (.head _), rfl, rfl⟩)
  · obtain ⟨db, hrun, hmenus⟩ := exists_reaches adminStep (fun _ _ => True) emptyAdminDb
      [.createMenu 1 ⟨['m'], some 0, 0, none, 1⟩]
      (fun db => db.menus = [⟨1, 0, ⟨['m'], some 0, 0, none, 1⟩⟩]) (by decide +kernel)
    refine ⟨db, hrun, ?_⟩
    intro htree
    have hparent := htree.2.1 1 0
    rw [hmenus] at hparent
    exact absurd (hparent ⟨_, .head _, rfl, rfl⟩) (by decide)

end Admin
end RagService
