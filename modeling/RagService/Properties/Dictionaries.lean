import Mathlib.Data.Fintype.Defs
import Mathlib.Data.Fintype.Basic
import RagService.Admin.Frames
import RagService.Foundation.Transitions
import RagService.Plugin.Dictionaries

/-!
# Dictionaries agree with their types

Rows of data have the code of their type, and what is cached is what would be read, as long
as no type with data is renamed and no type is deleted whose data is cached.
-/

namespace RagService
namespace Dictionaries

open Admin Transitions

/-- Every row of data has a type with its code; ids are positive. -/
structure DictDb.Aligned (db : DictDb) : Prop where
  codes : forall row, row ∈ db.data.live -> exists dictType,
    db.types.get row.value.typeId = some dictType ∧ dictType.value.code = row.value.typeCode
  ids : forall id, id ∈ db.data.ids -> 0 < id

def DictResult.rows : DictResult -> List (Row DictData)
  | .one row => [row]
  | .many rows => rows

variable {Process : Type} [DecidableEq Process]

namespace DictState

variable {s s' : DictState Process}

omit [DecidableEq Process] in
/-- What is cached is what would be read; a hot cache that a message has not reached yet may
be behind. -/
structure Coherent (s : DictState Process) : Prop where
  redis : forall key result, s.redis.lookup key = some result -> uncached s.db key = .ok result
  hotCache : forall p key result, s.pending p = 0 -> (s.hotCache p).lookup key = some result ->
    uncached s.db key = .ok result

/-- No row of these types is cached. -/
def NotCached (s : DictState Process) (pks : List Nat) : Prop :=
  (forall entry, entry ∈ s.redis.entries -> forall row, row ∈ entry.2.rows ->
    row.value.typeId ∉ pks) ∧
  forall p, s.pending p = 0 -> forall entry, entry ∈ (s.hotCache p).entries ->
    forall row, row ∈ entry.2.rows -> row.value.typeId ∉ pks

/-- A type that gets a new code has no data, and a type that is deleted has none in a cache. -/
def Harmless (s : DictState Process) : DictAction Process -> Prop
  | .updateType pk obj => forall dictType, s.db.types.get pk = some dictType ->
      dictType.value.code ≠ obj.code -> DictTypeService.codeTaken s.db obj.code = false ->
        forall row, row ∈ s.db.data.live -> row.value.typeId ≠ pk
  | .deleteTypes pks => s.NotCached pks
  | _ => True

instance [Fintype Process] (s : DictState Process) (pks : List Nat) :
    Decidable (s.NotCached pks) := by
  unfold NotCached
  infer_instance

instance [Fintype Process] (s : DictState Process) (a : DictAction Process) :
    Decidable (s.Harmless a) :=
  match a with
  | .updateType pk obj => inferInstanceAs (Decidable (forall dictType,
      dictType ∈ s.db.types.get pk -> dictType.value.code ≠ obj.code ->
        DictTypeService.codeTaken s.db obj.code = false -> _))
  | .deleteTypes pks => inferInstanceAs (Decidable (s.NotCached pks))
  | .createType .. | .createData .. | .updateData .. | .deleteData .. | .cached ..
  | .handle _ | .expireRedis _ | .expireLocal .. => .isTrue trivial

/-- The database is aligned and the caches agree with it. -/
structure Agrees (s : DictState Process) : Prop where
  aligned : s.db.Aligned
  coherent : s.Coherent

/-!
# Cached reads

A hot cache is filled with what would be read.  After an invalidation nothing is cached that no
message will remove.
-/

theorem cached_current (h : s.Coherent) {p : Process} (hp : s.pending p = 0) (key : DictKey) :
    (s.cached p key).2 = uncached s.db key := by
  unfold cached
  split
  · rename_i result hlocal
    exact (h.hotCache p key result hp hlocal).symm
  · split
    · rename_i result hredis
      exact (h.redis key result hredis).symm
    · split
      · rename_i result hread
        exact hread.symm
      · rename_i e hread
        exact hread.symm

theorem Coherent.setLocal (h : s.Coherent) {key : DictKey} {result : DictResult}
    (hresult : uncached s.db key = .ok result) (p : Process) :
    (s.setLocal p key result).Coherent := by
  constructor
  · exact h.redis
  · intro q k r hq hlookup
    unfold DictState.setLocal at hlookup
    dsimp only at hlookup
    by_cases hqp : q = p
    · subst hqp
      rw [Function.update_self] at hlookup
      cases lookup_of_insert hlookup with
      | inl hnew =>
          rw [hnew.1, hnew.2]
          exact hresult
      | inr hold => exact h.hotCache q k r hq hold
    · rw [Function.update_of_ne hqp] at hlookup
      exact h.hotCache q k r hq hlookup

theorem Coherent.cached (h : s.Coherent) (p : Process) (key : DictKey) :
    (s.cached p key).1.Coherent := by
  unfold DictState.cached
  split
  · exact h
  · split
    · rename_i result hredis
      exact h.setLocal (h.redis key result hredis) p
    · split
      · rename_i result hread
        have hlocal := h.setLocal hread p
        constructor
        · intro k r hlookup
          cases lookup_of_insert hlookup with
          | inl hnew =>
              rw [hnew.1, hnew.2]
              exact hread
          | inr hold => exact h.redis k r hold
        · exact hlocal.hotCache
      · exact h

theorem db_cached (p : Process) (key : DictKey) : (s.cached p key).1.db = s.db := by
  unfold cached
  split
  · rfl
  · split
    · rfl
    · split <;> rfl

omit [DecidableEq Process] in
theorem Coherent.congr (h : s.Coherent) {db : DictDb}
    (hsame : forall key result, uncached s.db key = .ok result ->
      uncached db key = .ok result) : ({ s with db := db } : DictState Process).Coherent := by
  constructor
  · intro key result hlookup
    exact hsame key result (h.redis key result hlookup)
  · intro p key result hp hlookup
    exact hsame key result (h.hotCache p key result hp hlookup)

/-- After an invalidation nothing is cached that no message will remove. -/
theorem coherent_invalidate (s : DictState Process) (p : Process) (db : DictDb) :
    (s.invalidate p db).Coherent := by
  constructor
  · intro key result hlookup
    cases hlookup
  · intro q key result hq hlookup
    unfold DictState.invalidate at hq hlookup
    dsimp only at hq hlookup
    by_cases hqp : q = p
    · rw [hqp, Function.update_self] at hlookup
      cases hlookup
    · rw [if_neg hqp] at hq
      omega

end DictState

/-!
# Deleted types

What is read without rows of the types is read after their deletion.
-/

theorem uncached_pk {db : DictDb} {pk : Nat} {result : DictResult}
    (h : uncached db (.pk pk) = .ok result) :
    exists row, db.data.get pk = some row ∧ result = .one row := by
  rcases found_bind h with ⟨row, hrow, hresult⟩
  cases hresult
  exact ⟨row, hrow, rfl⟩

theorem uncached_typeCode {db : DictDb} {code : Text} {result : DictResult}
    (h : uncached db (.typeCode code) = .ok result) :
    (getByTypeCode db code).isEmpty = false ∧ result = .many (getByTypeCode db code) := by
  rcases refuse_bind h with ⟨hempty, hresult⟩
  cases hresult
  exact ⟨hempty, rfl⟩

theorem uncached_deleteTypes {db : DictDb} (hdb : db.Aligned) {pks : List Nat} {key : DictKey}
    {result : DictResult} (hresult : uncached db key = .ok result)
    (hrows : forall row, row ∈ result.rows -> row.value.typeId ∉ pks) :
    uncached (DictTypeService.delete db pks) key = .ok result := by
  cases key with
  | pk pk =>
      rcases uncached_pk hresult with ⟨row, hrow, rfl⟩
      have hkept : decide (row.value.typeId ∈ pks) = false :=
        decide_eq_false (hrows row (.head _))
      have hget := Table.get_deleteWhere (p := fun dictData => decide (dictData.typeId ∈ pks))
        hdb.ids hrow hkept
      show (found ((db.data.deleteWhere fun dictData => dictData.typeId ∈ pks).get pk) _ >>=
        fun dictData => Except.ok (DictResult.one dictData)) = _
      rw [hget]
      rfl
  | typeCode code =>
      rcases uncached_typeCode hresult with ⟨hempty, rfl⟩
      have hsame : getByTypeCode (DictTypeService.delete db pks) code = getByTypeCode db code := by
        unfold getByTypeCode DictTypeService.delete
        dsimp only
        rw [Table.filter_deleteWhere (p := fun dictData => decide (dictData.typeId ∈ pks))
          (q := fun dictData => dictData.typeCode = code && dictData.status = 1) hdb.ids]
        intro row hrow hlive hread
        apply decide_eq_false
        apply hrows row
        apply (List.mem_insertionSort _).mpr
        apply List.mem_filter.mpr
        constructor
        · exact hrow
        · rw [decide_eq_true hlive]
          exact hread
      show (refuse (getByTypeCode (DictTypeService.delete db pks) code).isEmpty _ >>=
        fun _ => Except.ok (DictResult.many
          (getByTypeCode (DictTypeService.delete db pks) code))) = _
      rw [hsame, hempty]
      rfl

/-!
# Calls

What a result is read from depends on the data alone, and a type keeps its code or has no data.
-/

namespace DictDb.Aligned

variable {db db' : DictDb}

theorem deleteTypes (h : db.Aligned) (pks : List Nat) : (DictTypeService.delete db pks).Aligned := by
  constructor
  · intro row hrow
    have hrow : row ∈ (db.data.deleteWhere fun dictData => dictData.typeId ∈ pks).live := hrow
    rcases Table.mem_live_deleteWhere h.ids hrow with ⟨hlive, htype⟩
    rcases h.codes row hlive with ⟨dictType, hget, hcode⟩
    refine ⟨dictType, ?_, hcode⟩
    show (db.types.delete pks).get row.value.typeId = some dictType
    rw [← hget]
    apply Table.get_modify
    · intro _
      rfl
    · intro _ _ hmem
      exact absurd hmem (of_decide_eq_false htype)
  · intro id hid
    have hid : id ∈ (db.data.deleteWhere fun dictData => dictData.typeId ∈ pks).ids := hid
    rw [Table.ids_deleteWhere] at hid
    exact h.ids id hid

theorem createType (h : db.Aligned) {newId : Nat} {obj : DictType} (hnew : newId ∉ db.types.ids)
    (hout : DictTypeService.create db newId obj = .ok db') : db'.Aligned := by
  rcases refuse_bind hout with ⟨-, hout⟩
  cases hout
  constructor
  · intro row hrow
    rcases h.codes row hrow with ⟨dictType, hget, hcode⟩
    refine ⟨dictType, ?_, hcode⟩
    have hne : row.value.typeId ≠ newId := by
      intro heq
      rw [heq] at hget
      exact hnew (Table.mem_ids_of_get hget)
    exact (Table.get_create hne).trans hget
  · exact h.ids

theorem createData (h : db.Aligned) {newId : Nat} {obj : DictDataParam} (hnew : 0 < newId)
    (hout : DictDataService.create db newId obj = .ok db') : db'.Aligned := by
  rcases found_bind hout with ⟨dictType, hget, hout⟩
  rcases refuse_bind hout with ⟨-, hout⟩
  cases hout
  constructor
  · intro row hrow
    have hrow : row ∈ (db.data.create newId (obj.dump dictType.value.code)).live := hrow
    rw [Table.live_create] at hrow
    cases List.mem_append.mp hrow with
    | inl hold => exact h.codes row hold
    | inr hlast =>
        rw [List.mem_singleton.mp hlast]
        exact ⟨dictType, hget, rfl⟩
  · intro id hid
    rcases List.mem_map.mp hid with ⟨row, hrow, rfl⟩
    cases List.mem_append.mp hrow with
    | inl hold => exact h.ids _ (List.mem_map_of_mem hold)
    | inr hlast =>
        rw [List.mem_singleton.mp hlast]
        exact hnew

theorem updateData (h : db.Aligned) {pk : Nat} {obj : DictDataParam}
    (hout : DictDataService.update db pk obj = .ok db') : db'.Aligned := by
  rcases found_bind hout with ⟨dictData, -, hout⟩
  rcases found_bind hout with ⟨dictType, hget, hout⟩
  rcases refuse_bind hout with ⟨-, hout⟩
  cases hout
  constructor
  · intro row hrow
    have hrow : row ∈ (db.data.update [pk] fun _ => obj.dump dictType.value.code).live := hrow
    rw [Table.live_update] at hrow
    rcases List.mem_map.mp hrow with ⟨old, hold, rfl⟩
    by_cases hpk : old.id ∈ [pk]
    · rw [if_pos hpk]
      exact ⟨dictType, hget, rfl⟩
    · rw [if_neg hpk]
      exact h.codes old hold
  · intro id hid
    have hid : id ∈ (db.data.update [pk] fun _ => obj.dump dictType.value.code).ids := hid
    rw [Table.ids_update] at hid
    exact h.ids id hid

theorem deleteData (h : db.Aligned) (pks : List Nat) : (DictDataService.delete db pks).Aligned := by
  constructor
  · intro row hrow
    exact h.codes row (Table.mem_live_delete hrow)
  · intro id hid
    have hid : id ∈ (db.data.delete pks).ids := hid
    rw [Table.ids_delete] at hid
    exact h.ids id hid

theorem updateType (h : db.Aligned) {pk : Nat} {obj : UpdateDictTypeParam}
    (hrename : forall dictType, db.types.get pk = some dictType ->
      dictType.value.code ≠ obj.code -> DictTypeService.codeTaken db obj.code = false ->
        forall row, row ∈ db.data.live -> row.value.typeId ≠ pk)
    (hout : DictTypeService.update db pk obj = .ok db') :
    db'.Aligned ∧ db'.data = db.data := by
  rcases found_bind hout with ⟨dictType, hget, hout⟩
  rcases refuse_bind hout with ⟨hfree, hout⟩
  cases hout
  constructor
  · constructor
    · intro row hrow
      rcases h.codes row hrow with ⟨rowType, hrowType, hcode⟩
      have hupdated : (db.types.update [pk] obj.apply).get row.value.typeId = _ :=
        Table.get_update [pk] obj.apply
      rw [hrowType, Option.map_some] at hupdated
      refine ⟨_, hupdated, ?_⟩
      split
      · rename_i hhit
        have hid := List.mem_singleton.mp hhit.2
        have hpk : row.value.typeId = pk := (Table.get_mem hrowType).2.2.symm.trans hid
        have hsame : rowType = dictType := by
          rw [hpk, hget] at hrowType
          exact (Option.some.inj hrowType).symm
        by_cases hkept : dictType.value.code = obj.code
        · rw [← hcode, hsame, hkept]
          rfl
        · have hnot : DictTypeService.codeTaken db obj.code = false := by
            rw [decide_eq_true hkept] at hfree
            exact hfree
          exact absurd hpk (hrename dictType hget hkept hnot row hrow)
      · exact hcode
    · exact h.ids
  · rfl

end DictDb.Aligned

namespace DictState

variable {s s' : DictState Process}

omit [DecidableEq Process] in
theorem uncached_congr {db db' : DictDb} (hdata : db'.data = db.data) (key : DictKey) :
    uncached db' key = uncached db key := by
  cases key with
  | pk pk =>
      unfold uncached
      rw [hdata]
  | typeCode code =>
      unfold uncached getByTypeCode
      rw [hdata]

omit [DecidableEq Process] in
theorem Agrees.withTypes (h : s.Agrees) {db : DictDb} (hdb : db.Aligned)
    (hdata : db.data = s.db.data) : ({ s with db := db } : DictState Process).Agrees := by
  constructor
  · exact hdb
  · apply h.coherent.congr
    intro key result hresult
    rw [uncached_congr hdata]
    exact hresult

omit [DecidableEq Process] in
theorem Agrees.committed (h : s.Agrees) {outcome : Except AdminError DictDb}
    {commit : DictDb -> DictState Process}
    (hcommit : forall db, outcome = .ok db -> (commit db).Agrees) :
    (s.committed outcome commit).Agrees := by
  cases outcome with
  | ok db => exact hcommit db rfl
  | error e => exact h

theorem Agrees.perform (h : s.Agrees) {a : DictAction Process} (hfresh : s.FreshId a)
    (hcond : s.Harmless a) : (s.perform a).Agrees := by
  cases a with
  | createType newId obj =>
      apply h.committed
      intro db hout
      apply h.withTypes (h.aligned.createType hfresh.2 hout)
      rcases refuse_bind hout with ⟨-, hout⟩
      cases hout
      rfl
  | updateType pk obj =>
      apply h.committed
      intro db hout
      rcases h.aligned.updateType hcond hout with ⟨hdb, hdata⟩
      exact h.withTypes hdb hdata
  | deleteTypes pks =>
      constructor
      · exact h.aligned.deleteTypes pks
      · constructor
        · intro key result hlookup
          apply uncached_deleteTypes h.aligned (h.coherent.redis key result hlookup)
          exact hcond.1 ⟨key, result⟩ (AList.mem_lookup_iff.mp hlookup)
        · intro p key result hp hlookup
          apply uncached_deleteTypes h.aligned (h.coherent.hotCache p key result hp hlookup)
          exact hcond.2 p hp ⟨key, result⟩ (AList.mem_lookup_iff.mp hlookup)
  | createData p newId obj =>
      apply h.committed
      intro db hout
      exact ⟨h.aligned.createData hfresh.1 hout, coherent_invalidate s p db⟩
  | updateData p pk obj =>
      apply h.committed
      intro db hout
      exact ⟨h.aligned.updateData hout, coherent_invalidate s p db⟩
  | deleteData p pks => exact ⟨h.aligned.deleteData pks, coherent_invalidate s p _⟩
  | cached p key =>
      constructor
      · show (s.cached p key).1.db.Aligned
        rw [db_cached]
        exact h.aligned
      · exact h.coherent.cached p key
  | handle p =>
      constructor
      · exact h.aligned
      · constructor
        · exact h.coherent.redis
        · intro q key result hq hlookup
          unfold DictState.perform at hq hlookup
          dsimp only at hq hlookup
          by_cases hqp : q = p
          · rw [hqp, Function.update_self] at hlookup
            cases hlookup
          · rw [Function.update_of_ne hqp] at hq hlookup
            exact h.coherent.hotCache q key result hq hlookup
  | expireRedis key =>
      constructor
      · exact h.aligned
      · constructor
        · intro k result hlookup
          exact h.coherent.redis k result (lookup_of_erase hlookup).2
        · exact h.coherent.hotCache
  | expireLocal p key =>
      constructor
      · exact h.aligned
      · constructor
        · exact h.coherent.redis
        · intro q k result hq hlookup
          unfold DictState.perform at hlookup
          dsimp only at hlookup
          by_cases hqp : q = p
          · subst hqp
            rw [Function.update_self] at hlookup
            exact h.coherent.hotCache q k result hq (lookup_of_erase hlookup).2
          · rw [Function.update_of_ne hqp] at hlookup
            exact h.coherent.hotCache q k result hq hlookup

omit [DecidableEq Process] in
def initial (db : DictDb) : DictState Process :=
  ⟨db, ∅, fun _ => ∅, fun _ => 0⟩

omit [DecidableEq Process] in
theorem agrees_initial {db : DictDb} (h : db.Aligned) : (initial db : DictState Process).Agrees := by
  constructor
  · exact h
  · constructor
    · intro key result hlookup
      cases hlookup
    · intro p key result _ hlookup
      cases hlookup

end DictState

open DictState

/--
After every sequence of calls in which no type with data is renamed and no type is deleted
whose data is cached, every row of data has a live type with its code, and the cached reads
give what the uncached ones would, once the messages to the process are handled.
-/
theorem dictionaries_agree (db : DictDb) (hdb : db.Aligned) (s : DictState Process)
    (hrun : Reaches DictState.step Harmless (initial db) s) :
    s.db.Aligned ∧ forall p, s.pending p = 0 -> forall key,
      (s.cached p key).2 = uncached s.db key := by
  have h : s.Agrees := by
    apply hrun.invariant Agrees (agrees_initial hdb)
    intro s a s' h hcond hstep
    unfold DictState.step at hstep
    split at hstep
    · rename_i hfresh
      cases hstep
      exact h.perform hfresh hcond
    · cases hstep
  constructor
  · exact h.aligned
  · intro p hp key
    exact cached_current h.coherent hp key

/-!
# Samples

One type with the code `c` and one row of its data.
-/

def sampleDictDb : DictDb where
  types := [⟨1, 0, ⟨['t'], ['c'], none⟩⟩]
  data := [⟨2, 0, ⟨['c'], ['l'], ['v'], none, 0, 1, none, 1⟩⟩]

theorem sampleDictDb_aligned : sampleDictDb.Aligned := by
  constructor
  · intro row hrow
    have hrow : row ∈ sampleDictDb.data := (Table.mem_live.mp hrow).1
    rw [List.mem_singleton.mp hrow]
    exact ⟨_, rfl, rfl⟩
  · decide

/-- One process reads the data of the type, another adds a row, and the type without data is
renamed and deleted. -/
theorem dictionaries_agree_sample : exists s : DictState Bool,
    Reaches DictState.step Harmless (initial sampleDictDb) s ∧
      (s.pending false = 0 ∧ (s.hotCache false).entries.length = 0 ∧
        (getByTypeCode s.db ['c']).length = 2) ∧
      (s.cached false (.typeCode ['c'])).2 = uncached s.db (.typeCode ['c']) := by
  obtain ⟨s, hrun, hs⟩ := exists_reaches DictState.step Harmless
    (initial sampleDictDb : DictState Bool)
    [.cached false (.typeCode ['c']), .createType 3 ⟨['u'], ['d'], none⟩,
      .createData true 4 ⟨1, ['m'], ['w'], none, 5, 1, none⟩, .handle false,
      .updateType 3 ⟨['u'], ['e'], none⟩, .deleteTypes [3]]
    (fun s => s.pending false = 0 ∧ (s.hotCache false).entries.length = 0 ∧
      (getByTypeCode s.db ['c']).length = 2) (by decide +kernel)
  exact ⟨s, hrun, hs,
    (dictionaries_agree sampleDictDb sampleDictDb_aligned s hrun).2 false hs.1 (.typeCode ['c'])⟩

/-- A renamed type leaves its data with the old code, and a deleted type its cached data. -/
theorem dictionaries_agree_fails :
    (exists s : DictState Bool,
      Reaches DictState.step (fun _ _ => True) (initial sampleDictDb) s ∧ ¬ s.db.Aligned) ∧
    exists s : DictState Bool,
      Reaches DictState.step (fun _ _ => True) (initial sampleDictDb) s ∧
        s.pending false = 0 ∧
          (s.cached false (.typeCode ['c'])).2 ≠ uncached s.db (.typeCode ['c']) := by
  constructor
  · obtain ⟨s, hrun, hs⟩ := exists_reaches DictState.step (fun _ _ => True)
      (initial sampleDictDb : DictState Bool) [.updateType 1 ⟨['t'], ['d'], none⟩]
      (fun s => s.db = { sampleDictDb with types := [⟨1, 0, ⟨['t'], ['d'], none⟩⟩] })
      (by decide +kernel)
    refine ⟨s, hrun, ?_⟩
    intro haligned
    rw [hs] at haligned
    rcases haligned.codes _ (.head _) with ⟨dictType, hget, hcode⟩
    cases hget
    exact absurd hcode (by decide)
  · exact exists_reaches DictState.step (fun _ _ => True) (initial sampleDictDb : DictState Bool)
      [.cached false (.typeCode ['c']), .deleteTypes [1]]
      (fun s => s.pending false = 0 ∧
        (s.cached false (.typeCode ['c'])).2 ≠ uncached s.db (.typeCode ['c'])) (by decide +kernel)

end Dictionaries
end RagService
