import RagService.Admin.DataPermission

/-!
# Data permissions and their rules

The condition that the filter builds against the meaning of the rules: which rules apply, what
their values denote, and which rows they let through.
-/

namespace RagService
namespace Admin

/-!
# What the rules mean

The user, the template variables and the literals give a rule its meaning, a set of rows; the
rules of the enabled scopes of the enabled roles are put together by their operators.  Times
and arrays of which texts are literals are given, as is the current time.
-/

section Meaning

variable (env : PermissionEnv) (user : UserDetail)

structure Literals where
  now : Int
  timeOf : Text -> Option Int
  arrayOf : Text -> Option (List (Option Text))
  /-- An item has a character of its own, and there are the braces. -/
  length_lt : forall s items, arrayOf s = some items -> items.length < s.length

def ColumnType.ofId : (ty : ColumnType) -> Nat -> Option ty.Value
  | integer bits, n => if InRange bits n then some (n : Int) else none
  | string, n => some (Text.decimal n)
  | float, n => some (Double.ofRat n)
  | untyped, n => some (Text.decimal n)
  | _, _ => none

def ColumnType.literal (literals : Literals) : (ty : ColumnType) -> Text -> Option ty.Value
  | integer bits, s => (Double.intOfText s).filter fun (z : Int) => decide (InRange bits z)
  | string, s => some s
  | boolean, s =>
      if Text.lowerAscii s ∈ ["0".toList, "false".toList] then some false
      else if Text.lowerAscii s ∈ ["1".toList, "true".toList] then some true
      else none
  | float, s => Double.ofText s
  | datetime, s => literals.timeOf s
  | array, s => literals.arrayOf s
  | untyped, s => some s
  | _, _ => none

def ColumnType.ofTime : (ty : ColumnType) -> Int -> Option ty.Value
  | datetime, now => some now
  | _, _ => none

/-- What the value of a rule denotes: nothing, `NULL`, or a value. -/
def denote (literals : Literals) (ty : ColumnType) (value : Text) : Option (Option ty.Value) :=
  if value = userIdKey then (ty.ofId user.id).map some
  else if value = deptIdKey then
    match user.deptId with
    | some deptId => (ty.ofId deptId).map some
    | none => some none
  else if value = nowKey then (ty.ofTime literals.now).map some
  else (ty.literal literals value).map some

/-- A value of a row compares to what the value of a rule denotes. -/
def Compares (literals : Literals) (ty : ColumnType) (c : Comparator) (cell : Option ty.Value)
    (value : Text) : Prop :=
  exists v w, cell = some v ∧ denote user literals ty value = some (some w) ∧
    ty.compare env c v w = true

def listed (value : Text) : List Text :=
  (value.splitOn ',').map Text.strip

def RuleHolds (literals : Literals) (rule : DataRule) (ty : ColumnType) (cell : Option ty.Value) :
    Prop :=
  match RuleExpression.ofNat rule.expression with
  | some (.compare c) => Compares env user literals ty c cell rule.value
  | some .isIn => exists value, value ∈ listed rule.value ∧
      Compares env user literals ty .eq cell value
  | some .notIn => forall value, value ∈ listed rule.value ->
      Compares env user literals ty .ne cell value
  | none => False

/-- The rule names the model, or all models. -/
def Targets (rule : DataRule) (target : TargetModel) : Prop :=
  rule.model = "__ALL__".toList ∨ rule.model = target.name

def columnOf (rule : DataRule) (target : TargetModel) : Option ColumnType :=
  if ruleColumn rule.column ∈ columnExclude then none
  else target.columns.get (ruleColumn rule.column)

def givenModels (models : List TargetModel) : List TargetModel :=
  if models = [] then env.allModels else models

/-- A rule of the user applies to a column of a given model. -/
structure Applies (models : List TargetModel) (rule : DataRule) (target : TargetModel)
    (ty : ColumnType) : Prop where
  granted : exists row, row ∈ dataRules user ∧ row.value = rule
  given : target ∈ givenModels env models
  targets : Targets rule target
  column : columnOf rule target = some ty
  expression : (RuleExpression.ofNat rule.expression).isSome
  operator : rule.operator = 0 ∨ rule.operator = 1

/-- The row that the rules let through. -/
def Selected (literals : Literals) (models : List TargetModel) (cells : Cells) : Prop :=
  dataRules user ≠ [] ∧
    ((forall rule target ty, ¬ Applies env user models rule target ty) ∨
      ((exists rule target ty, Applies env user models rule target ty ∧ rule.operator = 0) ∧
        forall rule target ty, Applies env user models rule target ty -> rule.operator = 0 ->
          RuleHolds env user literals rule ty (cells target.entity (ruleColumn rule.column) ty)) ∨
      exists rule target ty, Applies env user models rule target ty ∧ rule.operator = 1 ∧
        RuleHolds env user literals rule ty (cells target.entity (ruleColumn rule.column) ty))

/-- The filter is built, never fails, and selects the rows that the rules let through. -/
def FiltersByRules (literals : Literals) (models : List TargetModel) : Prop :=
  exists c, filterDataPermission env user models = .ok c ∧
    Condition.Means c (Selected env user literals models)

end Meaning

/-!
# Values that are read as they are meant

A text is read as it is meant when its cast is taken for what it denotes.  No key of a template
is a truth value, only columns of truth values take truth values, and only columns of arrays
take lists: and an array has fewer items than the characters that its literal is cast to.
-/

section Reading

variable {env : PermissionEnv} {user : UserDetail} {literals : Literals}

def Faithful (user : UserDetail) : ColumnType -> Text -> Prop
  | .integer bits, s =>
      (s = userIdKey ∧ InRange bits user.id) ∨
        (s = deptIdKey ∧ exists deptId, user.deptId = some deptId ∧ InRange bits deptId) ∨
        (s ∉ templateKeys ∧
          exists z, Double.intOfText s = some z ∧ InRange bits z)
  | .string, s => s ≠ nowKey ∧ (s = deptIdKey -> user.deptId ≠ none)
  | .boolean, s => Text.lowerAscii s ∈ ["1".toList, "true".toList]
  | .float, s =>
      s = userIdKey ∨ (s = deptIdKey ∧ user.deptId ≠ none) ∨
        (s ∉ templateKeys ∧ (Double.ofText s).isSome)
  | _, _ => False

theorem userIdKey_ne : userIdKey ≠ deptIdKey ∧ userIdKey ≠ nowKey := by
  decide

theorem deptIdKey_ne : deptIdKey ≠ userIdKey ∧ deptIdKey ≠ nowKey := by
  decide

theorem nowKey_ne : nowKey ≠ userIdKey ∧ nowKey ≠ deptIdKey := by
  decide

theorem resolve_deptIdKey : resolve user deptIdKey =
    (match user.deptId with
    | some deptId => .int deptId
    | none => .none) := by
  unfold resolve
  cases user.deptId with
  | none => rw [if_neg deptIdKey_ne.1, if_pos rfl]
  | some deptId => rw [if_neg deptIdKey_ne.1, if_pos rfl]

theorem mem_templateKeys {s : Text} :
    s ∈ templateKeys ↔ s = userIdKey ∨ s = deptIdKey ∨ s = nowKey := by
  simp only [templateKeys, List.mem_cons, List.not_mem_nil, or_false]

theorem resolve_text {s : Text} (h : s ∉ templateKeys) : resolve user s = .text s := by
  rw [mem_templateKeys, not_or, not_or] at h
  unfold resolve
  rw [if_neg h.1, if_neg h.2.1, if_neg h.2.2]

theorem key_not_true :
    Text.lowerAscii userIdKey ∉ ["1".toList, "true".toList] ∧
      Text.lowerAscii deptIdKey ∉ ["1".toList, "true".toList] ∧
      Text.lowerAscii nowKey ∉ ["1".toList, "true".toList] := by
  decide

def ReadsAs (env : PermissionEnv) (user : UserDetail) (literals : Literals) (ty : ColumnType)
    (s : Text) : Prop :=
  exists v, denote user literals ty s = some (some v) ∧
    ty.bind (castValue env user ty s) = some v

theorem readsAs_id {ty : ColumnType} {n : Nat} {s : Text} :
    (exists v, (ty.ofId n).map some = some (some v) ∧
      ty.bind ((construct env ty (.int n)).getD (.text s)) = some v) ↔
        (match ty with
        | .integer bits => InRange bits n
        | .string => True
        | .float => True
        | _ => False) := by
  cases ty with
  | integer bits =>
      simp only [ColumnType.ofId, construct, Option.getD_some, ColumnType.bind]
      split
      · rename_i h
        exact iff_of_true ⟨_, rfl, rfl⟩ h
      · rename_i h
        exact iff_of_false (fun ⟨v, hv, _⟩ => by cases hv) h
  | string => exact iff_of_true ⟨_, rfl, rfl⟩ trivial
  | float => exact iff_of_true ⟨_, rfl, rfl⟩ trivial
  | boolean => exact iff_of_false (fun ⟨v, hv, _⟩ => by cases hv) id
  | datetime => exact iff_of_false (fun ⟨v, hv, _⟩ => by cases hv) id
  | binary => exact iff_of_false (fun ⟨v, hv, _⟩ => by cases hv) id
  | json => exact iff_of_false (fun ⟨v, hv, _⟩ => by cases hv) id
  | array => exact iff_of_false (fun ⟨v, hv, _⟩ => by cases hv) id
  | untyped => exact iff_of_false (fun ⟨v, _, hv⟩ => by cases hv) id

theorem faithful_userId {ty : ColumnType} :
    Faithful user ty userIdKey ↔ ReadsAs env user literals ty userIdKey := by
  have hkey : userIdKey ∈ templateKeys := mem_templateKeys.mpr (.inl rfl)
  have hreads : ReadsAs env user literals ty userIdKey ↔
      exists v, (ty.ofId user.id).map some = some (some v) ∧
        ty.bind ((construct env ty (.int user.id)).getD (.text userIdKey)) = some v :=
    Iff.rfl
  rw [hreads, readsAs_id]
  cases ty with
  | boolean => exact iff_of_false key_not_true.1 id
  | integer bits => simp [Faithful, userIdKey_ne, hkey]
  | string => simp [Faithful, userIdKey_ne]
  | float => simp [Faithful]
  | datetime | binary | json | array | untyped => exact Iff.rfl

theorem faithful_deptId {ty : ColumnType} :
    Faithful user ty deptIdKey ↔ ReadsAs env user literals ty deptIdKey := by
  have hkey : deptIdKey ∈ templateKeys := mem_templateKeys.mpr (.inr (.inl rfl))
  cases hdept : user.deptId with
  | some deptId =>
      have hreads : ReadsAs env user literals ty deptIdKey ↔
          exists v, (ty.ofId deptId).map some = some (some v) ∧
            ty.bind ((construct env ty (.int deptId)).getD (.text deptIdKey)) = some v := by
        simp only [ReadsAs, denote, castValue, resolve_deptIdKey, hdept, deptIdKey_ne, if_false,
          if_true]
      rw [hreads, readsAs_id]
      cases ty with
      | boolean => exact iff_of_false key_not_true.2.1 id
      | integer bits => simp [Faithful, deptIdKey_ne, hdept, hkey]
      | string => simp [Faithful, deptIdKey_ne, hdept]
      | float => simp [Faithful, hdept]
      | datetime | binary | json | array | untyped => exact Iff.rfl
  | none =>
      have hnull : denote user literals ty deptIdKey = some none := by
        simp only [denote, hdept, deptIdKey_ne, if_false, if_true]
      refine iff_of_false ?_ ?_
      · cases ty with
        | boolean => exact key_not_true.2.1
        | integer bits => simp [Faithful, deptIdKey_ne, hdept, hkey]
        | string => simp [Faithful, hdept]
        | float => simp [Faithful, deptIdKey_ne, hdept, hkey]
        | datetime | binary | json | array | untyped => exact id
      · intro h
        rcases h with ⟨v, hv, -⟩
        rw [hnull] at hv
        cases hv

theorem faithful_now {ty : ColumnType} :
    Faithful user ty nowKey ↔ ReadsAs env user literals ty nowKey := by
  have hkey : nowKey ∈ templateKeys := mem_templateKeys.mpr (.inr (.inr rfl))
  have htime : denote user literals ty nowKey = (ty.ofTime literals.now).map some := by
    simp only [denote, nowKey_ne, if_false, if_true]
  refine iff_of_false ?_ ?_
  · cases ty with
    | boolean => exact key_not_true.2.2
    | integer bits => simp [Faithful, nowKey_ne, hkey]
    | string => simp [Faithful]
    | float => simp [Faithful, nowKey_ne, hkey]
    | datetime | binary | json | array | untyped => exact id
  · intro h
    rcases h with ⟨v, hv, hbind⟩
    rw [htime] at hv
    cases ty with
    | datetime => cases hbind
    | boolean | integer _ | string | float | binary | json | array | untyped => cases hv

theorem reads_integer {bits : Nat} {s : Text} :
    (exists v, ((ColumnType.integer bits).literal literals s).map some = some (some v) ∧
      (ColumnType.integer bits).bind ((construct env (.integer bits) (.text s)).getD (.text s)) =
        some v) ↔ exists z, Double.intOfText s = some z ∧ InRange bits z := by
  show (exists v : Int,
      ((Double.intOfText s).filter fun z => decide (InRange bits z)).map some = some (some v) ∧
        (ColumnType.integer bits).bind (((Double.intOfText s).map Operand.int).getD (.text s)) =
          some v) ↔ _
  cases Double.intOfText s with
  | none =>
      constructor
      · intro h
        rcases h with ⟨v, hv, -⟩
        cases hv
      · intro h
        rcases h with ⟨z, hz, -⟩
        cases hz
  | some z =>
      by_cases hrange : InRange bits z
      · refine iff_of_true ⟨z, ?_, if_pos hrange⟩ ⟨z, rfl, hrange⟩
        have hfilter : (some z).filter (fun z => decide (InRange bits z)) = some z := by
          simp [Option.filter, hrange]
        rw [hfilter]
        rfl
      · refine iff_of_false ?_ ?_
        · intro h
          rcases h with ⟨v, -, hv⟩
          rw [Option.map_some, Option.getD_some, ColumnType.bind, if_neg hrange] at hv
          cases hv
        · intro h
          rcases h with ⟨y, hy, hyrange⟩
          cases hy
          exact hrange hyrange

theorem reads_boolean {s : Text} :
    (exists v, (ColumnType.boolean.literal literals s).map some = some (some v) ∧
      ColumnType.boolean.bind ((construct env .boolean (.text s)).getD (.text s)) = some v) ↔
        Text.lowerAscii s ∈ ["1".toList, "true".toList] := by
  show (exists v : Bool, (if Text.lowerAscii s ∈ ["0".toList, "false".toList] then some false
      else if Text.lowerAscii s ∈ ["1".toList, "true".toList] then some true else none).map some =
        some (some v) ∧ some (!s.isEmpty) = some v) ↔ _
  constructor
  · intro h
    rcases h with ⟨v, hv, htruth⟩
    split at hv
    · rename_i hzero
      cases hv
      have hempty : s = [] := by simpa using htruth
      rw [hempty] at hzero
      exact absurd hzero (by decide)
    · split at hv
      · assumption
      · cases hv
  · intro hone
    have hzero : Text.lowerAscii s ∉ ["0".toList, "false".toList] := by
      rcases List.mem_cons.mp hone with h | h
      · rw [h]
        decide
      · rw [List.mem_singleton.mp h]
        decide
    have hnonempty : s.isEmpty = false := by
      cases s with
      | nil => exact absurd hone (by decide)
      | cons c rest => rfl
    refine ⟨true, ?_, by rw [hnonempty]; rfl⟩
    rw [if_neg hzero, if_pos hone]
    rfl

theorem reads_float {s : Text} :
    (exists v, (ColumnType.float.literal literals s).map some = some (some v) ∧
      ColumnType.float.bind ((construct env .float (.text s)).getD (.text s)) = some v) ↔
        (Double.ofText s).isSome := by
  show (exists v : Double, (Double.ofText s).map some = some (some v) ∧
    ColumnType.float.bind (((Double.ofText s).map Operand.float).getD (.text s)) = some v) ↔ _
  cases Double.ofText s with
  | none => exact iff_of_false (fun ⟨v, hv, _⟩ => by cases hv) Bool.false_ne_true
  | some x => exact iff_of_true ⟨x, rfl, rfl⟩ rfl

theorem not_reads_array {s : Text} :
    ¬ exists v, (ColumnType.array.literal literals s).map some = some (some v) ∧
      ColumnType.array.bind ((construct env .array (.text s)).getD (.text s)) = some v := by
  intro h
  rcases h with ⟨v, hv, hbind⟩
  have hliteral : literals.arrayOf s = some v := by
    rcases Option.map_eq_some_iff.mp hv with ⟨w, hw, heq⟩
    cases heq
    exact hw
  have hcharacters : (characters s).map some = v := Option.some.inj hbind
  have hlength := literals.length_lt s v hliteral
  rw [← hcharacters, List.length_map, characters, List.length_map] at hlength
  exact absurd hlength (Nat.lt_irrefl _)

theorem faithful_text {ty : ColumnType} {s : Text} (h : s ∉ templateKeys) :
    Faithful user ty s ↔ ReadsAs env user literals ty s := by
  have hne : s ≠ userIdKey ∧ s ≠ deptIdKey ∧ s ≠ nowKey := by
    rw [mem_templateKeys, not_or, not_or] at h
    exact h
  have hdenote : denote user literals ty s = (ty.literal literals s).map some := by
    simp only [denote, hne, if_false]
  have hcast : castValue env user ty s = (construct env ty (.text s)).getD (.text s) := by
    rw [castValue, resolve_text h]
  rw [ReadsAs, hdenote, hcast]
  cases ty with
  | integer bits =>
      rw [reads_integer]
      simp only [Faithful, hne, false_and, false_or, h, not_false_eq_true, true_and]
  | string =>
      exact iff_of_true ⟨hne.2.2, fun hdept => absurd hdept hne.2.1⟩ ⟨s, rfl, rfl⟩
  | boolean => exact reads_boolean.symm
  | float =>
      rw [reads_float]
      simp only [Faithful, hne, false_and, false_or, h, not_false_eq_true, true_and]
  | datetime => exact iff_of_false id (fun ⟨v, _, hv⟩ => by cases hv)
  | binary => exact iff_of_false id (fun ⟨v, hv, _⟩ => by cases hv)
  | json => exact iff_of_false id (fun ⟨v, hv, _⟩ => by cases hv)
  | array => exact iff_of_false id not_reads_array
  | untyped => exact iff_of_false id (fun ⟨v, _, hv⟩ => by cases hv)

variable (env literals) in
theorem faithful_iff {ty : ColumnType} {s : Text} :
    Faithful user ty s ↔ ReadsAs env user literals ty s := by
  by_cases h : s ∈ templateKeys
  · rcases mem_templateKeys.mp h with rfl | rfl | rfl
    · exact faithful_userId
    · exact faithful_deptId
    · exact faithful_now
  · exact faithful_text h

theorem bound_of_bind {ty : ColumnType} {operand : Operand} {w : ty.Value}
    (h : ty.bind operand = some w) : bound ty operand = .ok w := by
  rw [bound, h]

def comparing (env : PermissionEnv) (entity column : Text) (ty : ColumnType) (c : Comparator)
    (operand : Operand) : FilterCondition := fun cells => do
  let w ← bound ty operand
  return (cells entity column ty).map fun v => ty.compare env c v w

variable (env) in
theorem comparing_means {ty : ColumnType} {operand : Operand} {w : ty.Value}
    (entity column : Text) (c : Comparator) (hbind : ty.bind operand = some w) :
    (comparing env entity column ty c operand).Means fun cells =>
      exists v, cells entity column ty = some v ∧ ty.compare env c v w = true := by
  intro cells
  refine ⟨_, ?_, Option.map_eq_some_iff⟩
  rw [comparing, bound_of_bind hbind]
  rfl

theorem compareCondition_eq {ty : ColumnType} {operand : Operand} {c : Comparator}
    (entity column : Text) (h : (exists b, operand = .bool b) -> c = .eq ∨ c = .ne) :
    compareCondition env entity column ty c operand =
      .ok (comparing env entity column ty c operand) := by
  cases operand with
  | bool b =>
      rcases h ⟨b, rfl⟩ with rfl | rfl
      · rfl
      · rfl
  | int _ | text _ | float _ | bytes _ | dict | list _ => rfl

theorem boolean_of_bind {ty : ColumnType} {b : Bool} {w : ty.Value}
    (hbind : ty.bind (.bool b) = some w) : ty = .boolean := by
  cases ty with
  | boolean => rfl
  | integer _ | string | float | datetime | binary | json | array | untyped => cases hbind

theorem array_of_bind {ty : ColumnType} {items : List Text} {w : ty.Value}
    (hbind : ty.bind (.list items) = some w) : ty = .array := by
  cases ty with
  | array => rfl
  | integer _ | string | boolean | float | datetime | binary | json | untyped => cases hbind

theorem listOperands_eq {operand : Operand} (h : forall items, operand ≠ .list items)
    (rest : List Operand) : listOperands (operand :: rest) = operand :: rest := by
  cases operand with
  | list items => exact absurd rfl (h items)
  | int _ | text _ | bool _ | float _ | bytes _ | dict => rfl

theorem listOperands_castValue {ty : ColumnType} {values : List Text}
    (h : forall value, value ∈ values -> ReadsAs env user literals ty value) :
    listOperands (values.map (castValue env user ty)) = values.map (castValue env user ty) := by
  cases values with
  | nil => rfl
  | cons value rest =>
      have hreads := h value List.mem_cons_self
      refine listOperands_eq (fun items hlist => ?_) _
      rcases id hreads with ⟨w, -, hbind⟩
      rw [hlist] at hbind
      rw [array_of_bind hbind] at hreads
      exact (faithful_iff env literals).mpr hreads

theorem bound_list {ty : ColumnType} {values : List Text}
    (h : forall value, value ∈ values -> ReadsAs env user literals ty value) :
    exists ws, (values.map (castValue env user ty)).mapM (bound ty) = .ok ws ∧
      List.Forall₂ (fun value w => denote user literals ty value = some (some w)) values ws := by
  induction values with
  | nil => exact ⟨[], rfl, .nil⟩
  | cons value rest ih =>
      rw [List.forall_mem_cons] at h
      rcases h.1 with ⟨w, hdenote, hbind⟩
      rcases ih h.2 with ⟨ws, hws, hdenotes⟩
      refine ⟨w :: ws, ?_, .cons hdenote hdenotes⟩
      rw [List.map_cons, List.mapM_cons, bound_of_bind hbind, hws]
      rfl

theorem exists_denoted {ty : ColumnType} {values : List Text} {ws : List ty.Value}
    (h : List.Forall₂ (fun value w => denote user literals ty value = some (some w)) values ws)
    (p : ty.Value -> Prop) : (exists w, w ∈ ws ∧ p w) ↔
      exists value, value ∈ values ∧
        exists w, denote user literals ty value = some (some w) ∧ p w := by
  induction h with
  | nil => simp
  | cons hdenote _ ih =>
      rw [List.exists_mem_cons_iff, List.exists_mem_cons_iff, ih, hdenote]
      simp

theorem forall_denoted {ty : ColumnType} {values : List Text} {ws : List ty.Value}
    (h : List.Forall₂ (fun value w => denote user literals ty value = some (some w)) values ws)
    (p : ty.Value -> Prop) : (forall w, w ∈ ws -> p w) ↔
      forall value, value ∈ values ->
        exists w, denote user literals ty value = some (some w) ∧ p w := by
  induction h with
  | nil => simp
  | cons hdenote _ ih =>
      rw [List.forall_mem_cons, List.forall_mem_cons, ih, hdenote]
      simp

theorem compares_iff {ty : ColumnType} {c : Comparator} {cell : Option ty.Value} {value : Text} :
    Compares env user literals ty c cell value ↔
      exists w, denote user literals ty value = some (some w) ∧
        cell.map (fun v => ty.compare env c v w) = some true := by
  simp only [Compares, Option.map_eq_some_iff]
  constructor
  · intro h
    rcases h with ⟨v, w, hv, hw, hcompare⟩
    exact ⟨w, hw, v, hv, hcompare⟩
  · intro h
    rcases h with ⟨w, hw, v, hv, hcompare⟩
    exact ⟨v, w, hv, hw, hcompare⟩

theorem map_ne_iff {ty : ColumnType} {cell : Option ty.Value} {w : ty.Value} :
    cell.map (fun v => ty.compare env .ne v w) = some true ↔
      cell.map (fun v => ty.compare env .eq v w) = some false := by
  cases cell with
  | none => simp
  | some v => simp [ColumnType.compare]

theorem inCondition_eq {ty : ColumnType} {rule : DataRule} {ws : List ty.Value}
    (entity column : Text)
    (h : (listOperands (castValues env user ty rule.value)).mapM (bound ty) = .ok ws)
    (cells : Cells) :
    inCondition env entity column ty (castValues env user ty rule.value) cells =
      .ok (Truth.any (ws.map fun w =>
        (cells entity column ty).map fun v => ty.compare env .eq v w)) := by
  rw [inCondition, h]
  rfl

theorem castValues_eq (ty : ColumnType) (value : Text) :
    castValues env user ty value = (listed value).map (castValue env user ty) := by
  rw [castValues, listed, List.map_map]
  rfl

/-- The values of a rule on a column of a type are read as they are meant. -/
def RuleFaithful (user : UserDetail) (rule : DataRule) (ty : ColumnType) : Prop :=
  match RuleExpression.ofNat rule.expression with
  | some (.compare c) => Faithful user ty rule.value ∧ (ty = .boolean -> c = .eq ∨ c = .ne)
  | some .isIn | some .notIn => forall value, value ∈ listed rule.value -> Faithful user ty value
  | none => ty ≠ .untyped

variable (env literals) in
/-- The condition of a rule whose values are read as they are meant. -/
theorem ruleCondition_means {ty : ColumnType} {rule : DataRule} (entity column : Text)
    (hexpression : (RuleExpression.ofNat rule.expression).isSome)
    (hfaithful : RuleFaithful user rule ty) :
    exists condition, ruleCondition env user rule entity column ty = .ok (some condition) ∧
      condition.Means fun cells =>
        RuleHolds env user literals rule ty (cells entity column ty) := by
  unfold RuleFaithful at hfaithful
  unfold ruleCondition RuleHolds
  cases hrule : RuleExpression.ofNat rule.expression with
  | none =>
      rw [hrule] at hexpression
      cases hexpression
  | some expression =>
      rw [hrule] at hfaithful
      cases expression with
      | compare c =>
          rcases (faithful_iff env literals).mp hfaithful.1 with ⟨w, hdenote, hbind⟩
          have horder : (exists b, castValue env user ty rule.value = .bool b) ->
              c = .eq ∨ c = .ne := by
            intro h
            rcases h with ⟨b, hb⟩
            rw [hb] at hbind
            exact hfaithful.2 (boolean_of_bind hbind)
          refine ⟨_, ?_, (comparing_means env entity column c hbind).congr fun cells => ?_⟩
          · dsimp only
            rw [compareCondition_eq entity column horder]
            rfl
          · dsimp only
            rw [compares_iff, hdenote]
            constructor
            · intro h
              rcases h with ⟨v, hv, hcompare⟩
              exact ⟨w, rfl, Option.map_eq_some_iff.mpr ⟨v, hv, hcompare⟩⟩
            · intro h
              rcases h with ⟨x, hx, hcompare⟩
              cases hx
              exact Option.map_eq_some_iff.mp hcompare
      | isIn =>
          have hreads : forall value, value ∈ listed rule.value ->
              ReadsAs env user literals ty value :=
            fun value hvalue => (faithful_iff env literals).mp (hfaithful value hvalue)
          rcases bound_list hreads with ⟨ws, hws, hdenotes⟩
          rw [← listOperands_castValue hreads, ← castValues_eq] at hws
          refine ⟨_, rfl, fun cells => ⟨_, inCondition_eq entity column hws cells, ?_⟩⟩
          simp only [compares_iff]
          rw [Truth.any_eq_true, List.mem_map, exists_denoted hdenotes]
      | notIn =>
          have hreads : forall value, value ∈ listed rule.value ->
              ReadsAs env user literals ty value :=
            fun value hvalue => (faithful_iff env literals).mp (hfaithful value hvalue)
          rcases bound_list hreads with ⟨ws, hws, hdenotes⟩
          rw [← listOperands_castValue hreads, ← castValues_eq] at hws
          refine ⟨_, rfl, fun cells => ?_⟩
          refine ⟨_, by rw [inCondition_eq entity column hws cells]; rfl, ?_⟩
          simp only [compares_iff, map_ne_iff]
          rw [Truth.not_eq_true, Truth.any_eq_false, List.forall_mem_map, forall_denoted hdenotes]

theorem RuleFaithful.typed {ty : ColumnType} {rule : DataRule} (h : RuleFaithful user rule ty) :
    ty ≠ .untyped := by
  have hlisted : exists value, value ∈ listed rule.value :=
    List.exists_mem_of_ne_nil _ (mt List.map_eq_nil_iff.mp (List.splitOn_ne_nil ',' rule.value))
  intro heq
  subst heq
  unfold RuleFaithful at h
  split at h
  · exact h.1
  · rcases hlisted with ⟨value, hvalue⟩
    exact h value hvalue
  · rcases hlisted with ⟨value, hvalue⟩
    exact h value hvalue
  · exact h rfl

/-!
# One rule on one model

A rule gives no condition, or one that means what it says, and what the loop collects means the
rules of the two operators.
-/

variable {rule : DataRule} {target : TargetModel}

theorem clause_none (htable : target.isAlias = false) (hcolumn : columnOf rule target = none) :
    clause env user rule target = .ok none := by
  unfold columnOf at hcolumn
  unfold clause
  rw [htable, if_neg Bool.false_ne_true]
  dsimp only
  split at hcolumn
  · rename_i hexcluded
    split
    · rfl
    · exact if_pos hexcluded
  · rw [hcolumn]

theorem clause_some {ty : ColumnType} (htable : target.isAlias = false)
    (hcolumn : columnOf rule target = some ty) (htyped : ty ≠ .untyped) :
    clause env user rule target =
      ruleCondition env user rule target.entity (ruleColumn rule.column) ty := by
  unfold columnOf at hcolumn
  unfold clause
  rw [htable, if_neg Bool.false_ne_true]
  dsimp only
  split at hcolumn
  · cases hcolumn
  · rename_i hincluded
    rw [hcolumn]
    dsimp only
    rw [if_neg hincluded, if_neg htyped]

theorem clause_untyped (htable : target.isAlias = false)
    (hcolumn : columnOf rule target = some .untyped) :
    clause env user rule target = .error .notImplemented := by
  unfold columnOf at hcolumn
  unfold clause
  rw [htable, if_neg Bool.false_ne_true]
  dsimp only
  split at hcolumn
  · cases hcolumn
  · rename_i hincluded
    rw [hcolumn]
    dsimp only
    rw [if_neg hincluded, if_pos rfl]

def holding (env : PermissionEnv) (user : UserDetail) (literals : Literals) (operator : Nat)
    (pairs : List (DataRule × TargetModel)) : List (Cells -> Prop) :=
  pairs.filterMap fun (rule, target) =>
    if rule.operator = operator ∧ (RuleExpression.ofNat rule.expression).isSome then
      (columnOf rule target).map fun ty cells =>
        RuleHolds env user literals rule ty (cells target.entity (ruleColumn rule.column) ty)
    else none

theorem mem_holding {operator : Nat} {pairs : List (DataRule × TargetModel)} {p : Cells -> Prop} :
    p ∈ holding env user literals operator pairs ↔
      exists rule target ty, (rule, target) ∈ pairs ∧ rule.operator = operator ∧
        (RuleExpression.ofNat rule.expression).isSome ∧ columnOf rule target = some ty ∧
        p = fun cells =>
          RuleHolds env user literals rule ty
            (cells target.entity (ruleColumn rule.column) ty) := by
  rw [holding, List.mem_filterMap]
  constructor
  · intro h
    rcases h with ⟨⟨rule, target⟩, hpair, hp⟩
    dsimp only at hp
    split at hp
    · rename_i hrule
      rcases Option.map_eq_some_iff.mp hp with ⟨ty, hcolumn, rfl⟩
      exact ⟨rule, target, ty, hpair, hrule.1, hrule.2, hcolumn, rfl⟩
    · cases hp
  · intro h
    rcases h with ⟨rule, target, ty, hpair, hoperator, hexpression, hcolumn, rfl⟩
    refine ⟨(rule, target), hpair, ?_⟩
    dsimp only
    rw [if_pos ⟨hoperator, hexpression⟩, hcolumn]
    rfl

theorem holding_skip {operator : Nat} (rest : List (DataRule × TargetModel))
    (h : ¬ (rule.operator = operator ∧ (RuleExpression.ofNat rule.expression).isSome) ∨
      columnOf rule target = none) :
    holding env user literals operator ((rule, target) :: rest) =
      holding env user literals operator rest := by
  apply List.filterMap_cons_none
  dsimp only
  rcases h with hrule | hcolumn
  · exact if_neg hrule
  · rw [hcolumn]
    split
    · rfl
    · rfl

theorem holding_take {operator : Nat} {ty : ColumnType} (rest : List (DataRule × TargetModel))
    (hoperator : rule.operator = operator)
    (hexpression : (RuleExpression.ofNat rule.expression).isSome)
    (hcolumn : columnOf rule target = some ty) :
    holding env user literals operator ((rule, target) :: rest) =
      (fun cells =>
        RuleHolds env user literals rule ty (cells target.entity (ruleColumn rule.column) ty)) ::
          holding env user literals operator rest := by
  apply List.filterMap_cons_some
  dsimp only
  rw [if_pos ⟨hoperator, hexpression⟩, hcolumn]
  rfl

variable (env literals) in
theorem clause_means (htable : target.isAlias = false)
    (hvalues : forall ty, columnOf rule target = some ty -> RuleFaithful user rule ty) :
    (clause env user rule target = .ok none ∧
      (¬ (RuleExpression.ofNat rule.expression).isSome ∨ columnOf rule target = none)) ∨
    exists ty condition, columnOf rule target = some ty ∧
      (RuleExpression.ofNat rule.expression).isSome ∧
      clause env user rule target = .ok (some condition) ∧
      condition.Means fun cells : Cells =>
        RuleHolds env user literals rule ty (cells target.entity (ruleColumn rule.column) ty) := by
  cases hcolumn : columnOf rule target with
  | none => exact .inl ⟨clause_none htable hcolumn, .inr rfl⟩
  | some ty =>
      have hfaithful := hvalues ty hcolumn
      rw [clause_some htable hcolumn hfaithful.typed]
      by_cases hexpression : (RuleExpression.ofNat rule.expression).isSome
      · rcases ruleCondition_means env literals target.entity (ruleColumn rule.column)
          hexpression hfaithful with ⟨condition, hcondition, hmeans⟩
        exact .inr ⟨ty, condition, rfl, hexpression, hcondition, hmeans⟩
      · refine .inl ⟨?_, .inl hexpression⟩
        unfold ruleCondition
        rw [Option.not_isSome_iff_eq_none.mp hexpression]

variable (env literals) in
/-- What the loop collects means the rules of the two operators. -/
theorem collect_means {pairs : List (DataRule × TargetModel)}
    (htables : forall rule target, (rule, target) ∈ pairs -> target.isAlias = false)
    (hvalues : forall rule target, (rule, target) ∈ pairs -> forall ty,
      columnOf rule target = some ty -> RuleFaithful user rule ty) :
    exists whereAnd whereOr, collect env user pairs = .ok (whereAnd, whereOr) ∧
      List.Forall₂ Condition.Means whereAnd (holding env user literals 0 pairs) ∧
      List.Forall₂ Condition.Means whereOr (holding env user literals 1 pairs) := by
  induction pairs with
  | nil => exact ⟨[], [], rfl, .nil, .nil⟩
  | cons pair rest ih =>
      rcases pair with ⟨rule, target⟩
      rcases ih (fun r t h => htables r t (List.mem_cons_of_mem _ h))
        (fun r t h => hvalues r t (List.mem_cons_of_mem _ h)) with
        ⟨whereAnd, whereOr, hcollect, hand, hor⟩
      unfold collect
      rw [hcollect]
      rcases clause_means env literals (htables rule target List.mem_cons_self)
        (hvalues rule target List.mem_cons_self) with
        ⟨hclause, hskip⟩ | ⟨ty, condition, hcolumn, hexpression, hclause, hmeans⟩
      · have hskipped : forall operator : Nat,
            ¬ (rule.operator = operator ∧ (RuleExpression.ofNat rule.expression).isSome) ∨
              columnOf rule target = none :=
          fun _ => hskip.imp_left fun h hrule => h hrule.2
        rw [hclause, holding_skip rest (hskipped 0), holding_skip rest (hskipped 1)]
        exact ⟨whereAnd, whereOr, rfl, hand, hor⟩
      · rw [hclause]
        by_cases hzero : rule.operator = 0
        · have hone : ¬ rule.operator = 1 := by omega
          rw [holding_take rest hzero hexpression hcolumn,
            holding_skip rest (.inl fun h => hone h.1)]
          exact ⟨condition :: whereAnd, whereOr, if_pos hzero, .cons hmeans hand, hor⟩
        · rw [holding_skip rest (.inl fun h => hzero h.1)]
          by_cases hone : rule.operator = 1
          · rw [holding_take rest hone hexpression hcolumn]
            exact ⟨whereAnd, condition :: whereOr, (if_neg hzero).trans (if_pos hone), hand,
              .cons hmeans hor⟩
          · rw [holding_skip rest (.inl fun h => hone h.1)]
            exact ⟨whereAnd, whereOr, (if_neg hzero).trans (if_neg hone), hand, hor⟩

/-!
# The models of a call

Given models of one name are one model.
-/

/-- Given models of one name are one model. -/
def DistinctNames (env : PermissionEnv) (models : List TargetModel) : Prop :=
  forall m, m ∈ givenModels env models -> forall m', m' ∈ givenModels env models ->
    m.name = m'.name -> m = m'

variable {models : List TargetModel}

theorem get_targetModelMap (hnames : DistinctNames env models) {name : Text} {m : TargetModel} :
    (targetModelMap env models).get name = some m ↔
      m ∈ givenModels env models ∧ m.name = name := by
  have hfound : forall q, q ∈ ((givenModels env models).map fun m => (m.name, m)).filter
      (fun q => q.1 = name) -> q.2 ∈ givenModels env models ∧ q.2.name = name := by
    intro q hq
    rcases List.mem_filter.mp hq with ⟨hmem, hkey⟩
    rcases List.mem_map.mp hmem with ⟨m, hm, rfl⟩
    exact ⟨hm, of_decide_eq_true hkey⟩
  rw [targetModelMap, ← givenModels, Dict.get_ofPairs, Option.map_eq_some_iff]
  constructor
  · intro h
    rcases h with ⟨q, hlast, rfl⟩
    exact hfound q (List.mem_of_getLast? hlast)
  · intro h
    rcases h with ⟨hm, rfl⟩
    have hmem : (m.name, m) ∈ ((givenModels env models).map fun m => (m.name, m)).filter
        fun q => q.1 = m.name :=
      List.mem_filter.mpr ⟨List.mem_map_of_mem hm, decide_eq_true rfl⟩
    cases hlast : (((givenModels env models).map fun m => (m.name, m)).filter
        fun q => q.1 = m.name).getLast? with
    | none =>
        rw [List.getLast?_eq_none_iff.mp hlast] at hmem
        cases hmem
    | some q =>
        rcases hfound q (List.mem_of_getLast? hlast) with ⟨hq, hname⟩
        exact ⟨q, rfl, hnames q.2 hq m hm hname⟩

theorem mem_targetModels (hnames : DistinctNames env models) :
    target ∈ targetModels (targetModelMap env models) rule ↔
      target ∈ givenModels env models ∧ Targets rule target := by
  unfold targetModels Targets
  split
  · rename_i hall
    rw [Dict.values, List.mem_map]
    constructor
    · intro h
      rcases h with ⟨q, hq, rfl⟩
      have hget := Dict.get_eq_some_of_mem (Dict.nodup_keys_ofPairs _) hq
      exact ⟨((get_targetModelMap hnames).mp hget).1, .inl hall⟩
    · intro h
      rcases h with ⟨hgiven, -⟩
      have hget := (get_targetModelMap hnames).mpr ⟨hgiven, rfl⟩
      exact ⟨_, Dict.mem_of_get hget, rfl⟩
  · rename_i hnamed
    rw [Option.mem_toList, get_targetModelMap hnames]
    constructor
    · exact fun h => ⟨h.1, .inr h.2.symm⟩
    · exact fun h => ⟨h.1, (h.2.resolve_left hnamed).symm⟩

def rulePairs (env : PermissionEnv) (user : UserDetail) (models : List TargetModel) :
    List (DataRule × TargetModel) :=
  (dataRules user).flatMap fun rule =>
    (targetModels (targetModelMap env models) rule.value).map fun target => (rule.value, target)

theorem mem_rulePairs (hnames : DistinctNames env models) :
    (rule, target) ∈ rulePairs env user models ↔
      (exists row, row ∈ dataRules user ∧ row.value = rule) ∧
        target ∈ givenModels env models ∧ Targets rule target := by
  rw [rulePairs, List.mem_flatMap]
  constructor
  · intro h
    rcases h with ⟨row, hrow, hpair⟩
    rcases List.mem_map.mp hpair with ⟨t, ht, heq⟩
    cases heq
    exact ⟨⟨row, hrow, rfl⟩, (mem_targetModels hnames).mp ht⟩
  · intro h
    rcases h with ⟨⟨row, hrow, rfl⟩, htarget⟩
    exact ⟨row, hrow, List.mem_map.mpr ⟨target, (mem_targetModels hnames).mpr htarget, rfl⟩⟩

theorem applies_iff (hnames : DistinctNames env models) {ty : ColumnType} :
    Applies env user models rule target ty ↔ (rule, target) ∈ rulePairs env user models ∧
      (RuleExpression.ofNat rule.expression).isSome ∧ columnOf rule target = some ty ∧
      (rule.operator = 0 ∨ rule.operator = 1) := by
  rw [mem_rulePairs hnames]
  constructor
  · intro h
    rcases h with ⟨hgranted, hgiven, htargets, hcolumn, hexpression, hoperator⟩
    exact ⟨⟨hgranted, hgiven, htargets⟩, hexpression, hcolumn, hoperator⟩
  · intro h
    rcases h with ⟨⟨hgranted, hgiven, htargets⟩, hexpression, hcolumn, hoperator⟩
    exact ⟨hgranted, hgiven, htargets, hcolumn, hexpression, hoperator⟩

/-!
# The whole filter

The two lists select together what the rules let through.
-/

def Together (alls anys : List (Cells -> Prop)) (cells : Cells) : Prop :=
  (alls = [] ∧ anys = []) ∨ (alls ≠ [] ∧ forall p, p ∈ alls -> p cells) ∨
    exists p, p ∈ anys ∧ p cells

def combined (whereAnd whereOr : List FilterCondition) : FilterCondition :=
  let whereList := (if whereAnd.isEmpty then [] else [Condition.conj whereAnd]) ++
    (if whereOr.isEmpty then [] else [Condition.disj whereOr])
  if whereList.isEmpty then .const true else .disj whereList

theorem combined_means {whereAnd whereOr : List FilterCondition} {alls anys : List (Cells -> Prop)}
    (hand : List.Forall₂ Condition.Means whereAnd alls)
    (hor : List.Forall₂ Condition.Means whereOr anys) :
    (combined whereAnd whereOr).Means (Together alls anys) := by
  unfold combined
  have hconj := Condition.means_conj hand
  have hdisj := Condition.means_disj hor
  cases hand with
  | nil =>
      cases hor with
      | nil => exact (Condition.means_const true).congr fun cells => by simp [Together]
      | cons h hrest =>
          refine (Condition.means_disj (.cons hdisj .nil)).congr fun cells => ?_
          simp [Together]
  | cons g hrest =>
      cases hor with
      | nil =>
          refine (Condition.means_disj (.cons hconj .nil)).congr fun cells => ?_
          simp [Together]
      | cons h hrest' =>
          refine (Condition.means_disj (.cons hconj (.cons hdisj .nil))).congr fun cells => ?_
          simp [Together]

theorem mem_holding_pairs (hnames : DistinctNames env models) {operator : Nat}
    (hoperator : operator = 0 ∨ operator = 1) {p : Cells -> Prop} :
    p ∈ holding env user literals operator (rulePairs env user models) ↔
      exists rule target ty, Applies env user models rule target ty ∧ rule.operator = operator ∧
        p = fun cells =>
          RuleHolds env user literals rule ty
            (cells target.entity (ruleColumn rule.column) ty) := by
  rw [mem_holding]
  constructor
  · intro h
    rcases h with ⟨rule, target, ty, hpair, rfl, hexpression, hcolumn, rfl⟩
    exact ⟨rule, target, ty, (applies_iff hnames).mpr ⟨hpair, hexpression, hcolumn, hoperator⟩,
      rfl, rfl⟩
  · intro h
    rcases h with ⟨rule, target, ty, happlies, rfl, rfl⟩
    rcases (applies_iff hnames).mp happlies with ⟨hpair, hexpression, hcolumn, -⟩
    exact ⟨rule, target, ty, hpair, rfl, hexpression, hcolumn, rfl⟩

theorem forall_holding (hnames : DistinctNames env models) (cells : Cells) :
    (forall p, p ∈ holding env user literals 0 (rulePairs env user models) -> p cells) ↔
      forall rule target ty, Applies env user models rule target ty -> rule.operator = 0 ->
        RuleHolds env user literals rule ty (cells target.entity (ruleColumn rule.column) ty) := by
  constructor
  · intro h rule target ty happlies hoperator
    exact h _ ((mem_holding_pairs hnames (.inl rfl)).mpr
      ⟨rule, target, ty, happlies, hoperator, rfl⟩)
  · intro h p hp
    rcases (mem_holding_pairs hnames (.inl rfl)).mp hp with
      ⟨rule, target, ty, happlies, hoperator, rfl⟩
    exact h rule target ty happlies hoperator

theorem exists_holding (hnames : DistinctNames env models) (cells : Cells) :
    (exists p, p ∈ holding env user literals 1 (rulePairs env user models) ∧ p cells) ↔
      exists rule target ty, Applies env user models rule target ty ∧ rule.operator = 1 ∧
        RuleHolds env user literals rule ty (cells target.entity (ruleColumn rule.column) ty) := by
  constructor
  · intro h
    rcases h with ⟨p, hp, hcells⟩
    rcases (mem_holding_pairs hnames (.inr rfl)).mp hp with
      ⟨rule, target, ty, happlies, hoperator, rfl⟩
    exact ⟨rule, target, ty, happlies, hoperator, hcells⟩
  · intro h
    rcases h with ⟨rule, target, ty, happlies, hoperator, hholds⟩
    exact ⟨_, (mem_holding_pairs hnames (.inr rfl)).mpr
      ⟨rule, target, ty, happlies, hoperator, rfl⟩, hholds⟩

variable (user literals) in
theorem holding_ne_nil (hnames : DistinctNames env models) {operator : Nat}
    (hoperator : operator = 0 ∨ operator = 1) :
    holding env user literals operator (rulePairs env user models) ≠ [] ↔
      exists rule target ty, Applies env user models rule target ty ∧ rule.operator = operator := by
  constructor
  · intro hne
    rcases List.exists_mem_of_ne_nil _ hne with ⟨p, hp⟩
    rcases (mem_holding_pairs hnames hoperator).mp hp with ⟨rule, target, ty, happlies, h, -⟩
    exact ⟨rule, target, ty, happlies, h⟩
  · intro h
    rcases h with ⟨rule, target, ty, happlies, h⟩
    exact List.ne_nil_of_mem
      ((mem_holding_pairs hnames hoperator).mpr ⟨rule, target, ty, happlies, h, rfl⟩)

theorem together_iff (hnames : DistinctNames env models) (hrules : dataRules user ≠ [])
    (cells : Cells) :
    Together (holding env user literals 0 (rulePairs env user models))
        (holding env user literals 1 (rulePairs env user models)) cells ↔
      Selected env user literals models cells := by
  have hzero := holding_ne_nil user literals hnames (.inl rfl)
  have hone := holding_ne_nil user literals hnames (.inr rfl)
  have hnone : (holding env user literals 0 (rulePairs env user models) = [] ∧
      holding env user literals 1 (rulePairs env user models) = []) ↔
        forall rule target ty, ¬ Applies env user models rule target ty := by
    constructor
    · intro h rule target ty happlies
      rcases h with ⟨hnil, hnil'⟩
      rcases happlies.operator with h | h
      · exact hzero.mpr ⟨rule, target, ty, happlies, h⟩ hnil
      · exact hone.mpr ⟨rule, target, ty, happlies, h⟩ hnil'
    · intro h
      constructor
      · by_contra hne
        rcases hzero.mp hne with ⟨rule, target, ty, happlies, -⟩
        exact h rule target ty happlies
      · by_contra hne
        rcases hone.mp hne with ⟨rule, target, ty, happlies, -⟩
        exact h rule target ty happlies
  rw [Together, Selected, hnone, hzero, forall_holding hnames, exists_holding hnames,
    and_iff_right hrules]

/-- A user who is no superuser, and whose enabled roles all filter scopes. -/
structure Filtered (user : UserDetail) : Prop where
  ordinary : user.isSuperuser = false
  scopes : forall role, role ∈ user.roles -> role.role.value.status ≠ 0 ->
    role.role.value.isFilterScopes = true

theorem Filtered.none_open (h : Filtered user) : ¬ exists role, role ∈ user.roles ∧
    role.role.value.status ≠ 0 ∧ role.role.value.isFilterScopes = false := by
  intro h
  rcases h with ⟨role, hrole, hstatus, hopen⟩
  rw [h.scopes role hrole hstatus] at hopen
  cases hopen

theorem filter_eq (hfiltered : Filtered user) (hrules : dataRules user ≠ []) :
    filterDataPermission env user models =
      collect env user (rulePairs env user models) >>= fun lists =>
        .ok (combined lists.1 lists.2) := by
  unfold filterDataPermission
  rw [hfiltered.ordinary, if_neg Bool.false_ne_true, if_neg hfiltered.none_open]
  dsimp only
  rw [if_neg hrules]
  rfl

theorem filter_no_rules (hfiltered : Filtered user) (hrules : dataRules user = []) :
    filterDataPermission env user models = .ok (.const false) := by
  unfold filterDataPermission
  rw [hfiltered.ordinary, if_neg Bool.false_ne_true, if_neg hfiltered.none_open]
  dsimp only
  exact if_pos hrules

/-- Every value that the filter casts is read as it is meant. -/
structure ReadAsMeant (env : PermissionEnv) (user : UserDetail) (models : List TargetModel) :
    Prop where
  names : DistinctNames env models
  tables : forall row, row ∈ dataRules user -> forall target, target ∈ givenModels env models ->
    Targets row.value target -> target.isAlias = false
  values : forall row, row ∈ dataRules user -> forall target, target ∈ givenModels env models ->
    Targets row.value target -> forall ty, columnOf row.value target = some ty ->
      RuleFaithful user row.value ty

variable (literals) in
theorem filter_means (hfiltered : Filtered user) (hread : ReadAsMeant env user models) :
    FiltersByRules env user literals models := by
  by_cases hrules : dataRules user = []
  · refine ⟨_, filter_no_rules hfiltered hrules, ?_⟩
    refine (Condition.means_const false).congr fun cells => ?_
    exact iff_of_false Bool.false_ne_true fun h => h.1 hrules
  · have hpairs : forall rule target, (rule, target) ∈ rulePairs env user models ->
        exists row, row ∈ dataRules user ∧ row.value = rule ∧ target ∈ givenModels env models ∧
          Targets rule target := by
      intro rule target hpair
      rcases (mem_rulePairs hread.names).mp hpair with ⟨⟨row, hrow, hvalue⟩, hgiven, htargets⟩
      exact ⟨row, hrow, hvalue, hgiven, htargets⟩
    have htables : forall rule target, (rule, target) ∈ rulePairs env user models ->
        target.isAlias = false := by
      intro rule target hpair
      rcases hpairs rule target hpair with ⟨row, hrow, rfl, hgiven, htargets⟩
      exact hread.tables row hrow target hgiven htargets
    have hvalues : forall rule target, (rule, target) ∈ rulePairs env user models -> forall ty,
        columnOf rule target = some ty -> RuleFaithful user rule ty := by
      intro rule target hpair
      rcases hpairs rule target hpair with ⟨row, hrow, rfl, hgiven, htargets⟩
      exact hread.values row hrow target hgiven htargets
    rcases collect_means env literals htables hvalues with
      ⟨whereAnd, whereOr, hcollect, hand, hor⟩
    refine ⟨combined whereAnd whereOr, ?_, ?_⟩
    · rw [filter_eq hfiltered hrules, hcollect]
      rfl
    · exact (combined_means hand hor).congr (together_iff hread.names hrules)

/-!
# A rule alone

For the only rule of a user, with `==` on one column, the condition of the rule is the whole
filter.  A row whose cells are the operand is selected, so the operand has to be what the value
denotes.
-/

def cellsOf {ty : ColumnType} (v : ty.Value) : Cells := fun _ _ ty' =>
  if h : ty = ty' then some (h ▸ v) else none

theorem cellsOf_self {ty : ColumnType} (v : ty.Value) (entity column : Text) :
    cellsOf v entity column ty = some v :=
  dif_pos rfl

theorem same_iff {ty : ColumnType} {operand : Operand} {u v w : ty.Value}
    (hbind : ty.bind operand = some u) : ty.same v w = true ↔ v = w := by
  have hdecide : forall {α : Type} [DecidableEq α] (x y : α), decide (x = y) = true ↔ x = y :=
    fun _ _ => decide_eq_true_iff
  cases ty with
  | integer _ => exact hdecide (α := Int) v w
  | string => exact hdecide (α := Text) v w
  | boolean => exact hdecide (α := Bool) v w
  | float => exact hdecide (α := Double) v w
  | datetime => exact hdecide (α := Int) v w
  | binary => exact hdecide (α := Bytes) v w
  | json => cases hbind
  | array => exact hdecide (α := List (Option Text)) v w
  | untyped => exact hdecide (α := Text) v w

/-- One rule of the user, with an expression `==`, on one column of one given model. -/
structure Alone (env : PermissionEnv) (user : UserDetail) (models : List TargetModel)
    (rule : Row DataRule) (target : TargetModel) (ty : ColumnType) : Prop where
  rules : dataRules user = [rule]
  given : givenModels env models = [target]
  targets : Targets rule.value target
  column : columnOf rule.value target = some ty
  expression : rule.value.expression = 0
  operator : rule.value.operator = 0 ∨ rule.value.operator = 1

variable {row : Row DataRule} {ty : ColumnType}

theorem Alone.distinctNames (h : Alone env user models row target ty) :
    DistinctNames env models := by
  unfold DistinctNames
  rw [h.given]
  intro m hm m' hm' _
  rw [List.mem_singleton.mp hm, List.mem_singleton.mp hm']

theorem Alone.rulePairs_eq (h : Alone env user models row target ty) :
    rulePairs env user models = [(row.value, target)] := by
  have hmap : targetModelMap env models = [(target.name, target)] := by
    rw [targetModelMap, ← givenModels, h.given]
    rfl
  have htargets : targetModels [(target.name, target)] row.value = [target] := by
    unfold targetModels
    split
    · rfl
    · rename_i hnamed
      rw [Dict.get, if_pos (h.targets.resolve_left hnamed).symm]
      rfl
  rw [rulePairs, h.rules, hmap, List.flatMap_singleton, htargets]
  rfl

theorem Alone.filter_eq (h : Alone env user models row target ty) (hfiltered : Filtered user) :
    filterDataPermission env user models =
      collect env user [(row.value, target)] >>= fun lists =>
        .ok (combined lists.1 lists.2) := by
  have hrules : dataRules user ≠ [] := by
    rw [h.rules]
    exact List.cons_ne_nil _ _
  rw [Admin.filter_eq hfiltered hrules, h.rulePairs_eq]

theorem Alone.isAlias_eq (h : Alone env user models row target ty) (hfiltered : Filtered user)
    (hbuilt : FiltersByRules env user literals models) : target.isAlias = false := by
  rcases hbuilt with ⟨c, hc, -⟩
  rw [h.filter_eq hfiltered] at hc
  cases htable : target.isAlias with
  | false => rfl
  | true =>
      have hclause : clause env user row.value target = .error .attribute := if_pos htable
      unfold collect at hc
      rw [hclause] at hc
      cases hc

theorem Alone.expression_eq (h : Alone env user models row target ty) :
    RuleExpression.ofNat row.value.expression = some (.compare .eq) := by
  rw [h.expression]
  rfl

theorem Alone.applies_iff (h : Alone env user models row target ty) {rule' : DataRule}
    {target' : TargetModel} {ty' : ColumnType} : Applies env user models rule' target' ty' ↔
      rule' = row.value ∧ target' = target ∧ ty' = ty := by
  rw [Admin.applies_iff h.distinctNames, h.rulePairs_eq, List.mem_singleton, Prod.mk.injEq]
  constructor
  · intro h
    rcases h with ⟨⟨rfl, rfl⟩, -, hcolumn, -⟩
    rw [h.column] at hcolumn
    cases hcolumn
    exact ⟨rfl, rfl, rfl⟩
  · intro h
    rcases h with ⟨rfl, rfl, rfl⟩
    refine ⟨⟨rfl, rfl⟩, ?_, h.column, h.operator⟩
    rw [h.expression_eq]
    rfl

theorem Alone.selected_iff (h : Alone env user models row target ty) (cells : Cells) :
    Selected env user literals models cells ↔ RuleHolds env user literals row.value ty
      (cells target.entity (ruleColumn row.value.column) ty) := by
  have hrules : dataRules user ≠ [] := by
    rw [h.rules]
    exact List.cons_ne_nil _ _
  unfold Selected
  simp only [h.applies_iff]
  constructor
  · rintro ⟨-, hnone | ⟨⟨_, _, _, ⟨rfl, rfl, rfl⟩, hoperator⟩, hall⟩ |
      ⟨_, _, _, ⟨rfl, rfl, rfl⟩, -, hholds⟩⟩
    · exact absurd ⟨rfl, rfl, rfl⟩ (hnone row.value target ty)
    · exact hall _ _ _ ⟨rfl, rfl, rfl⟩ hoperator
    · exact hholds
  · intro hholds
    refine ⟨hrules, .inr ?_⟩
    rcases h.operator with hoperator | hoperator
    · refine .inl ⟨⟨_, _, _, ⟨rfl, rfl, rfl⟩, hoperator⟩, ?_⟩
      intro _ _ _ h _
      rcases h with ⟨rfl, rfl, rfl⟩
      exact hholds
    · exact .inr ⟨_, _, _, ⟨rfl, rfl, rfl⟩, hoperator, hholds⟩

def combinedAlone (operator : Nat) (condition : FilterCondition) : FilterCondition :=
  if operator = 0 then combined [condition] [] else combined [] [condition]

theorem combinedAlone_means {operator : Nat} {condition : FilterCondition} {p : Cells -> Prop}
    (h : condition.Means p) : (combinedAlone operator condition).Means p := by
  unfold combinedAlone
  split
  · exact (combined_means (.cons h .nil) .nil).congr fun cells => by simp [Together]
  · exact (combined_means .nil (.cons h .nil)).congr fun cells => by simp [Together]

theorem combinedAlone_fails {operator : Nat} {condition : FilterCondition} {e : FilterError}
    {cells : Cells} (h : condition cells = .error e) :
    combinedAlone operator condition cells = .error e := by
  have hmapM : [condition].mapM (fun c => c cells) = .error e := by
    rw [List.mapM_cons, h]
    rfl
  have hconj : Condition.conj [condition] cells = .error e := by
    rw [Condition.conj, hmapM]
    rfl
  have hdisj : Condition.disj [condition] cells = .error e := by
    rw [Condition.disj, hmapM]
    rfl
  unfold combinedAlone
  split
  · show Condition.disj [Condition.conj [condition]] cells = .error e
    rw [Condition.disj, List.mapM_cons, hconj]
    rfl
  · show Condition.disj [Condition.disj [condition]] cells = .error e
    rw [Condition.disj, List.mapM_cons, hdisj]
    rfl

def equality (env : PermissionEnv) (user : UserDetail) (rule : DataRule) (target : TargetModel)
    (ty : ColumnType) : FilterCondition :=
  comparing env target.entity (ruleColumn rule.column) ty .eq (castValue env user ty rule.value)

theorem Alone.clause_eq (h : Alone env user models row target ty) (htable : target.isAlias = false)
    (htyped : ty ≠ .untyped) :
    clause env user row.value target = .ok (some (equality env user row.value target ty)) := by
  rw [clause_some htable h.column htyped]
  unfold ruleCondition
  rw [h.expression_eq]
  dsimp only
  rw [compareCondition_eq _ _ fun _ => .inl rfl]
  rfl

theorem Alone.filter_of_clause (h : Alone env user models row target ty)
    (hfiltered : Filtered user) {condition : FilterCondition}
    (hclause : clause env user row.value target = .ok (some condition)) :
    filterDataPermission env user models =
      .ok (combinedAlone row.value.operator condition) := by
  rw [h.filter_eq hfiltered]
  unfold collect
  rw [hclause]
  rcases h.operator with hoperator | hoperator
  · rw [hoperator]
    rfl
  · rw [hoperator]
    rfl

theorem Alone.typed (h : Alone env user models row target ty) (hfiltered : Filtered user)
    (hbuilt : FiltersByRules env user literals models) : ty ≠ .untyped := by
  intro huntyped
  have hclause : clause env user row.value target = .error .notImplemented :=
    clause_untyped (h.isAlias_eq hfiltered hbuilt) (huntyped ▸ h.column)
  rcases hbuilt with ⟨c, hc, -⟩
  rw [h.filter_eq hfiltered] at hc
  unfold collect at hc
  rw [hclause] at hc
  cases hc

theorem Alone.equality_means (h : Alone env user models row target ty) (hfiltered : Filtered user)
    (hbuilt : FiltersByRules env user literals models) :
    (combinedAlone row.value.operator (equality env user row.value target ty)).Means
      (Selected env user literals models) := by
  have hclause := h.clause_eq (h.isAlias_eq hfiltered hbuilt) (h.typed hfiltered hbuilt)
  rcases hbuilt with ⟨c, hc, hmeans⟩
  rw [h.filter_of_clause hfiltered hclause] at hc
  cases hc
  exact hmeans

theorem Alone.exists_operand (h : Alone env user models row target ty) (hfiltered : Filtered user)
    (hbuilt : FiltersByRules env user literals models) :
    exists w, ty.bind (castValue env user ty row.value.value) = some w := by
  cases hbind : ty.bind (castValue env user ty row.value.value) with
  | some w => exact ⟨w, rfl⟩
  | none =>
      have hfails : equality env user row.value target ty (fun _ _ _ => none) =
          .error .statement := by
        rw [equality, comparing, bound, hbind]
        rfl
      rcases h.equality_means hfiltered hbuilt (fun _ _ _ => none) with ⟨t, ht, -⟩
      rw [combinedAlone_fails hfails] at ht
      cases ht

/-- The row whose cells are the operand is selected, so the operand is what the value denotes. -/
theorem Alone.readsAs (h : Alone env user models row target ty) (hfiltered : Filtered user)
    (hbuilt : FiltersByRules env user literals models) :
    ReadsAs env user literals ty row.value.value := by
  rcases h.exists_operand hfiltered hbuilt with ⟨w, hbind⟩
  have hequality := comparing_means env target.entity (ruleColumn row.value.column) .eq hbind
  have hself : ty.compare env .eq w w = true := (same_iff hbind).mpr rfl
  have hselected : Selected env user literals models (cellsOf w) :=
    ((combinedAlone_means hequality).unique (h.equality_means hfiltered hbuilt) _).mp
      ⟨w, cellsOf_self w _ _, hself⟩
  rw [h.selected_iff, RuleHolds, h.expression_eq, cellsOf_self] at hselected
  rcases hselected with ⟨v, w', hv, hdenote, hcompare⟩
  cases hv
  have hsame : w = w' := (same_iff hbind).mp hcompare
  rw [← hsame] at hdenote
  exact ⟨w, hdenote, hbind⟩

theorem Alone.readAsMeant (h : Alone env user models row target ty)
    (htable : target.isAlias = false) (hvalue : Faithful user ty row.value.value) :
    ReadAsMeant env user models where
  names := h.distinctNames
  tables row' hrow target' htarget _ := by
    rw [h.given] at htarget
    rw [List.mem_singleton.mp htarget]
    exact htable
  values row' hrow target' htarget _ ty' hcolumn := by
    rw [h.given] at htarget
    rw [h.rules] at hrow
    cases List.mem_singleton.mp htarget
    cases List.mem_singleton.mp hrow
    rw [h.column] at hcolumn
    cases hcolumn
    unfold RuleFaithful
    rw [h.expression]
    exact ⟨hvalue, fun _ => .inl rfl⟩

/--
The filter selects what the rules let through if every value is read as it is meant; for a rule
alone with `==`, only then.
-/
theorem data_permission_matches_rules (hfiltered : Filtered user) :
    (ReadAsMeant env user models -> FiltersByRules env user literals models) ∧
      forall row target ty, Alone env user models row target ty ->
        (FiltersByRules env user literals models ↔
          target.isAlias = false ∧ Faithful user ty row.value.value) := by
  refine ⟨filter_means literals hfiltered, fun row target ty halone => ⟨fun hbuilt => ?_, ?_⟩⟩
  · exact ⟨halone.isAlias_eq hfiltered hbuilt,
      (faithful_iff env literals).mpr (halone.readsAs hfiltered hbuilt)⟩
  · intro h
    rcases h with ⟨htable, hvalue⟩
    exact filter_means literals hfiltered (halone.readAsMeant htable hvalue)

end Reading

def plainEnv : PermissionEnv where
  nowText := "<bound method TimeZone.now>".toList
  allModels := []
  collation x y := decide (x < y)

def epoch : Literals where
  now := 0
  timeOf _ := none
  arrayOf _ := none
  length_lt _ _ h := by cases h

def equalityRule (model column value : Text) : Row DataRule where
  id := 1
  deleted := 0
  value :=
    { name := "rule".toList, model := model, column := column, operator := 0, expression := 0,
      value := value }

def ruledUser (rule : Row DataRule) : UserDetail where
  id := 7
  status := 1
  isSuperuser := false
  isStaff := true
  deptId := none
  dept := none
  roles :=
    [{ role := ⟨1, 0, { name := "staff".toList, status := 1, isFilterScopes := true }⟩
       menus := []
       scopes := [{ scope := ⟨1, 0, { name := "own".toList, status := 1 }⟩, rules := [rule] }] }]

theorem filtered_ruledUser (rule : Row DataRule) : Filtered (ruledUser rule) where
  ordinary := rfl
  scopes role hrole _ := by
    rw [List.mem_singleton.mp hrole]

def userModel : TargetModel where
  name := "User".toList
  entity := "sys_user".toList
  isAlias := false
  columns := [("id".toList, .integer 64), ("username".toList, .string),
    ("is_staff".toList, .boolean), ("dept_id".toList, .integer 64)]

theorem alone_username : Alone plainEnv (ruledUser (equalityRule "User".toList "username".toList
    "admin".toList)) [userModel] (equalityRule "User".toList "username".toList "admin".toList)
    userModel .string where
  rules := by decide
  given := rfl
  targets := .inr rfl
  column := by decide
  expression := rfl
  operator := .inl rfl

theorem username_rule_matches : FiltersByRules plainEnv (ruledUser (equalityRule "User".toList
    "username".toList "admin".toList)) epoch [userModel] :=
  (data_permission_matches_rules (filtered_ruledUser _)).1
    (alone_username.readAsMeant rfl ⟨by decide, fun h => absurd h (by decide)⟩)

theorem alone_isStaff : Alone plainEnv (ruledUser (equalityRule "User".toList "is_staff".toList
    "false".toList)) [userModel] (equalityRule "User".toList "is_staff".toList "false".toList)
    userModel .boolean where
  rules := by decide
  given := rfl
  targets := .inr rfl
  column := by decide
  expression := rfl
  operator := .inl rfl

/-- The rule `is_staff == false` lets the staff through: `bool('false')` is true. -/
theorem false_rule_mismatches :
    Filtered (ruledUser (equalityRule "User".toList "is_staff".toList "false".toList)) ∧
      ¬ FiltersByRules plainEnv (ruledUser (equalityRule "User".toList "is_staff".toList
        "false".toList)) epoch [userModel] := by
  refine ⟨filtered_ruledUser _, fun hbuilt => ?_⟩
  have hreads := alone_isStaff.readsAs (filtered_ruledUser _) hbuilt
  have hfalse : Text.lowerAscii "false".toList ∉ ["1".toList, "true".toList] := by decide
  exact hfalse ((faithful_iff plainEnv epoch).mpr hreads)

end Admin
end RagService
