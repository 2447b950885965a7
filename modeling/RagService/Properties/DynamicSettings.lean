import RagService.Admin.DynamicConfig

/-!
# Settings that remember earlier rows

A loader assigns the settings that have a row and leaves the others as they are, and a converter
that raises leaves what was assigned before it.  So a setting may be that of an earlier call.
-/

namespace RagService
namespace DynamicConfig

section

variable {configs : Dict Text Text} {ps before after : List (Text × Converter)}
variable {p : Text × Converter} {settings : Settings} {key value : Text} {x : Json}

/-!
# The loop

A setting with a row gets its value and one that is not assigned stays, up to the first failure
of the mapping.  The loop changes nothing exactly when the settings that have rows have their
values.
-/

def Fails (configs : Dict Text Text) (p : Text × Converter) : Prop :=
  exists value e, configs.get p.1 = some value ∧ p.2 value = .error e

theorem assign_cons_absent (hget : configs.get p.1 = none) :
    assignConfigs configs (p :: ps) settings = assignConfigs configs ps settings := by
  rw [assignConfigs, hget]

theorem assign_cons_ok (hget : configs.get p.1 = some value) (hconvert : p.2 value = .ok x) :
    assignConfigs configs (p :: ps) settings =
      assignConfigs configs ps (Function.update settings p.1 x) := by
  rw [assignConfigs, hget]
  dsimp only
  rw [hconvert]

theorem assign_cons_error {e : ConfigError} (hget : configs.get p.1 = some value)
    (hconvert : p.2 value = .error e) :
    assignConfigs configs (p :: ps) settings = (settings, .error e) := by
  rw [assignConfigs, hget]
  dsimp only
  rw [hconvert]

theorem turn_cases (configs : Dict Text Text) (p : Text × Converter) :
    configs.get p.1 = none ∨
      (exists value x, configs.get p.1 = some value ∧ p.2 value = .ok x) ∨ Fails configs p := by
  cases hget : configs.get p.1 with
  | none => exact .inl rfl
  | some value =>
      cases hconvert : p.2 value with
      | error e => exact .inr (.inr ⟨value, e, hget, hconvert⟩)
      | ok x => exact .inr (.inl ⟨value, x, rfl, hconvert⟩)

theorem assign_append (hbefore : forall q, q ∈ before -> ¬ Fails configs q) :
    assignConfigs configs (before ++ ps) settings =
      assignConfigs configs ps (assignConfigs configs before settings).1 := by
  induction before generalizing settings with
  | nil => rfl
  | cons q rest ih =>
      have hrest := fun r hr => hbefore r (.tail _ hr)
      rw [List.cons_append]
      rcases turn_cases configs q with hget | ⟨value, x, hget, hconvert⟩ | hfails
      · rw [assign_cons_absent hget, assign_cons_absent hget]
        exact ih hrest
      · rw [assign_cons_ok hget hconvert, assign_cons_ok hget hconvert]
        exact ih hrest
      · exact absurd hfails (hbefore q (.head _))

theorem assign_returns (h : forall q, q ∈ ps -> ¬ Fails configs q) :
    (assignConfigs configs ps settings).2 = .ok () := by
  have hend : assignConfigs configs (ps ++ []) settings =
      assignConfigs configs [] (assignConfigs configs ps settings).1 := assign_append h
  rw [List.append_nil] at hend
  rw [hend]
  rfl

theorem assign_fails (settings : Settings) (after : List (Text × Converter))
    (hbefore : forall q, q ∈ before -> ¬ Fails configs q)
    (hfails : Fails configs p) : exists e,
      assignConfigs configs (before ++ p :: after) settings =
        ((assignConfigs configs before settings).1, .error e) := by
  rcases hfails with ⟨value, e, hget, hconvert⟩
  refine ⟨e, ?_⟩
  rw [assign_append hbefore, assign_cons_error hget hconvert]

theorem assign_stays (h : configs.get key = none ∨ key ∉ ps.map Prod.fst) :
    (assignConfigs configs ps settings).1 key = settings key := by
  induction ps generalizing settings with
  | nil => rfl
  | cons q rest ih =>
      have hrest : configs.get key = none ∨ key ∉ rest.map Prod.fst :=
        h.imp_right fun hkey hin => hkey (.tail _ hin)
      rcases turn_cases configs q with hget | ⟨value, x, hget, hconvert⟩ | ⟨value, e, hget, hconvert⟩
      · rw [assign_cons_absent hget]
        exact ih hrest
      · have hne : key ≠ q.1 := by
          intro heq
          cases h with
          | inl hnone =>
              rw [heq, hget] at hnone
              cases hnone
          | inr hkey => exact hkey (List.mem_cons.mpr (.inl heq))
        rw [assign_cons_ok hget hconvert]
        exact (ih hrest).trans (Function.update_of_ne hne x settings)
      · rw [assign_cons_error hget hconvert]

theorem assign_present (hkeys : (ps.map Prod.fst).Nodup)
    (hclean : forall q, q ∈ ps -> ¬ Fails configs q) (hp : p ∈ ps)
    (hget : configs.get p.1 = some value) (hconvert : p.2 value = .ok x) :
    (assignConfigs configs ps settings).1 p.1 = x := by
  induction ps generalizing settings with
  | nil => cases hp
  | cons q rest ih =>
      rcases List.nodup_cons.mp hkeys with ⟨hq, hrest⟩
      have hcleanRest := fun r hr => hclean r (.tail _ hr)
      cases List.mem_cons.mp hp with
      | inl heq =>
          rw [← heq] at hq ⊢
          rw [assign_cons_ok hget hconvert]
          exact (assign_stays (.inr hq)).trans (Function.update_self ..)
      | inr hin =>
          rcases turn_cases configs q with hgetq | ⟨valueq, xq, hgetq, hconvertq⟩ | hfails
          · rw [assign_cons_absent hgetq]
            exact ih hrest hcleanRest hin
          · rw [assign_cons_ok hgetq hconvertq]
            exact ih hrest hcleanRest hin
          · exact absurd hfails (hclean q (.head _))

/-- The loop changes nothing exactly when the settings that have rows have their values. -/
theorem assign_same_iff (hkeys : (ps.map Prod.fst).Nodup)
    (hclean : forall q, q ∈ ps -> ¬ Fails configs q) :
    (assignConfigs configs ps settings).1 = settings ↔
      forall q, q ∈ ps -> forall value x, configs.get q.1 = some value -> q.2 value = .ok x ->
        settings q.1 = x := by
  constructor
  · intro hsame q hq value x hget hconvert
    rw [← hsame]
    exact assign_present hkeys hclean hq hget hconvert
  · intro hvalues
    funext key
    by_cases hkey : key ∈ ps.map Prod.fst
    · rcases List.mem_map.mp hkey with ⟨q, hq, heq⟩
      rw [← heq]
      cases hget : configs.get q.1 with
      | none => exact assign_stays (.inl hget)
      | some value =>
          cases hconvert : q.2 value with
          | error e => exact absurd ⟨value, e, hget, hconvert⟩ (hclean q hq)
          | ok x =>
              rw [assign_present hkeys hclean hq hget hconvert]
              exact (hvalues q hq value x hget hconvert).symm
    · exact assign_stays (.inr hkey)

theorem exists_first_failure (h : ¬ forall q, q ∈ ps -> ¬ Fails configs q) :
    exists before p after, ps = before ++ p :: after ∧
      (forall q, q ∈ before -> ¬ Fails configs q) ∧ Fails configs p := by
  induction ps with
  | nil => exact absurd nofun h
  | cons q rest ih =>
      by_cases hq : Fails configs q
      · exact ⟨[], q, rest, rfl, nofun, hq⟩
      · have hrest : ¬ forall r, r ∈ rest -> ¬ Fails configs r := by
          intro hclean
          apply h
          intro r hr
          cases List.mem_cons.mp hr with
          | inl heq =>
              rw [heq]
              exact hq
          | inr hin => exact hclean r hin
        rcases ih hrest with ⟨before, p, after, hsplit, hbefore, hp⟩
        refine ⟨q :: before, p, after, ?_, ?_, hp⟩
        · rw [hsplit]
          rfl
        · intro r hr
          cases List.mem_cons.mp hr with
          | inl heq =>
              rw [heq]
              exact hq
          | inr hin => exact hbefore r hin

end

/-!
# Calls

A call is either clean, or it has a value that cannot be converted.
-/

/--
After a call that returns, the settings of the mapping are as after a single call in a fresh
process; a call that raises leaves all settings as they were.
-/
def HistoryFree (defaults : Settings) (loader : Loader) (state : ConfigState)
    (settings : Settings) : Prop :=
  match (loader.load state settings).2 with
  | .ok _ => (loader.load state defaults).2 = .ok () ∧ forall p, p ∈ loader.mapping ->
      (loader.load state settings).1 p.1 = (loader.load state defaults).1 p.1
  | .error _ => (loader.load state settings).1 = settings

/--
Settings that the call does not assign have their defaults, and when a value cannot be converted,
those before it have the values of their rows.
-/
def Settled (defaults : Settings) (loader : Loader) (state : ConfigState)
    (settings : Settings) : Prop :=
  match dynamicConfigs state loader.configType loader.statusKey with
  | .error _ => True
  | .ok none => forall p, p ∈ loader.mapping -> settings p.1 = defaults p.1
  | .ok (some configs) =>
      ((forall p, p ∈ loader.mapping -> ¬ Fails configs p) ->
        forall p, p ∈ loader.mapping -> configs.get p.1 = none -> settings p.1 = defaults p.1) ∧
      forall before p after, loader.mapping = before ++ p :: after ->
        (forall q, q ∈ before -> ¬ Fails configs q) -> Fails configs p ->
        forall q, q ∈ before -> forall value x, configs.get q.1 = some value ->
          q.2 value = .ok x -> settings q.1 = x

theorem Loader.nodup_keys (loader : Loader) : (loader.mapping.map Prod.fst).Nodup := by
  cases loader with
  | userSecurity =>
      simp only [Loader.mapping, List.map_cons, List.map_nil]
      decide
  | login => exact List.nodup_singleton _

section

variable {defaults settings : Settings} {loader : Loader} {state : ConfigState}
variable {configs : Dict Text Text}

theorem load_eq (h : dynamicConfigs state loader.configType loader.statusKey = .ok (some configs)) :
    loader.load state settings = assignConfigs configs loader.mapping settings := by
  unfold Loader.load loadConfig
  rw [h]

theorem historyFree_clean
    (h : dynamicConfigs state loader.configType loader.statusKey = .ok (some configs))
    (hclean : forall p, p ∈ loader.mapping -> ¬ Fails configs p) :
    HistoryFree defaults loader state settings ↔
      forall p, p ∈ loader.mapping -> configs.get p.1 = none -> settings p.1 = defaults p.1 := by
  unfold HistoryFree
  rw [load_eq h, load_eq h, assign_returns hclean]
  dsimp only
  rw [and_iff_right (assign_returns hclean)]
  constructor
  · intro hsame p hp hget
    have hboth := hsame p hp
    rw [assign_stays (.inl hget), assign_stays (.inl hget)] at hboth
    exact hboth
  · intro habsent p hp
    rcases turn_cases configs p with hget | ⟨value, x, hget, hconvert⟩ | hfails
    · rw [assign_stays (.inl hget), assign_stays (.inl hget)]
      exact habsent p hp hget
    · rw [assign_present loader.nodup_keys hclean hp hget hconvert,
        assign_present loader.nodup_keys hclean hp hget hconvert]
    · exact absurd hfails (hclean p hp)

theorem historyFree_failing {before after : List (Text × Converter)} {p : Text × Converter}
    (h : dynamicConfigs state loader.configType loader.statusKey = .ok (some configs))
    (hsplit : loader.mapping = before ++ p :: after)
    (hbefore : forall q, q ∈ before -> ¬ Fails configs q) (hfails : Fails configs p) :
    HistoryFree defaults loader state settings ↔
      forall q, q ∈ before -> forall value x, configs.get q.1 = some value ->
        q.2 value = .ok x -> settings q.1 = x := by
  rcases assign_fails settings after hbefore hfails with ⟨e, heq⟩
  have hkeys : (before.map Prod.fst).Nodup := by
    have hall := loader.nodup_keys
    rw [hsplit, List.map_append] at hall
    exact hall.of_append_left
  unfold HistoryFree
  rw [load_eq h, hsplit, heq]
  exact assign_same_iff hkeys hbefore

theorem load_of_error {e : ConfigError} (settings : Settings)
    (h : dynamicConfigs state loader.configType loader.statusKey = .error e) :
    loader.load state settings = (settings, .error e) := by
  unfold Loader.load loadConfig
  rw [h]

theorem load_of_none (settings : Settings)
    (h : dynamicConfigs state loader.configType loader.statusKey = .ok none) :
    loader.load state settings = (settings, .ok ()) := by
  unfold Loader.load loadConfig
  rw [h]

theorem historyFree_iff : HistoryFree defaults loader state settings ↔
    Settled defaults loader state settings := by
  unfold Settled
  cases hread : dynamicConfigs state loader.configType loader.statusKey with
  | error e =>
      unfold HistoryFree
      rw [load_of_error settings hread]
      exact ⟨fun _ => trivial, fun _ => rfl⟩
  | ok found =>
      cases found with
      | none =>
          unfold HistoryFree
          rw [load_of_none settings hread, load_of_none defaults hread]
          exact ⟨And.right, fun hsame => ⟨rfl, hsame⟩⟩
      | some configs =>
          by_cases hclean : forall p, p ∈ loader.mapping -> ¬ Fails configs p
          · rw [historyFree_clean hread hclean]
            constructor
            · intro habsent
              refine ⟨fun _ => habsent, ?_⟩
              intro before p after hsplit _ hfails
              apply absurd hfails (hclean p _)
              rw [hsplit]
              exact List.mem_append_right _ (.head _)
            · exact fun hsettled => hsettled.1 hclean
          · rcases exists_first_failure hclean with ⟨before, p, after, hsplit, hbefore, hfails⟩
            constructor
            · intro hfree
              refine ⟨fun hall => absurd hall hclean, ?_⟩
              intro before' p' after' hsplit' hbefore' hfails'
              exact (historyFree_failing hread hsplit' hbefore' hfails').mp hfree
            · intro hsettled
              rw [historyFree_failing hread hsplit hbefore hfails]
              exact hsettled.2 before p after hsplit hbefore hfails

end

/-!
# Histories

In a sequence from the defaults each call finds what the calls before it have left.
-/

def Throughout (P : Loader -> ConfigState -> Settings -> Prop) (defaults : Settings)
    (calls : List (Loader × ConfigState)) : Prop :=
  forall before call after, calls = before ++ call :: after ->
    P call.1 call.2 (afterCalls defaults before)

/--
In a sequence of calls from the defaults each call is free of history exactly when it finds the
settings settled; and when it returns, any other sequence that ends with the same settled call
leaves the same values in the settings of its mapping.
-/
theorem dynamicSettings_settled (defaults : Settings) :
    (forall calls, Throughout (HistoryFree defaults) defaults calls ↔
      Throughout (Settled defaults) defaults calls) ∧
    (forall calls loader state, HistoryFree defaults loader state (afterCalls defaults calls) ↔
      Settled defaults loader state (afterCalls defaults calls)) ∧
    (forall calls calls' loader state,
      Settled defaults loader state (afterCalls defaults calls) ->
      Settled defaults loader state (afterCalls defaults calls') ->
      (loader.load state (afterCalls defaults calls)).2 = .ok () ->
      (loader.load state (afterCalls defaults calls')).2 = .ok () ->
      forall p, p ∈ loader.mapping ->
        (loader.load state (afterCalls defaults calls)).1 p.1 =
          (loader.load state (afterCalls defaults calls')).1 p.1) := by
  refine ⟨?_, fun _ _ _ => historyFree_iff, ?_⟩
  · intro calls
    constructor
    · intro hfree before call after hsplit
      exact historyFree_iff.mp (hfree before call after hsplit)
    · intro hsettled before call after hsplit
      exact historyFree_iff.mpr (hsettled before call after hsplit)
  · intro calls calls' loader state hsettled hsettled' hreturns hreturns' p hp
    have hfree := historyFree_iff.mpr hsettled
    have hfree' := historyFree_iff.mpr hsettled'
    unfold HistoryFree at hfree hfree'
    rw [hreturns] at hfree
    rw [hreturns'] at hfree'
    exact (hfree.2 p hp).trans (hfree'.2 p hp).symm

def rowsOf (type : ConfigType) (pairs : List (Text × Text)) : ConfigState where
  installed := true
  importable := true
  rows := .ok (pairs.zipIdx.map fun (pair, i) =>
    ⟨i + 1, 0, ⟨some type.value, pair.1, pair.2⟩⟩)

def confDefaults : Settings := fun key =>
  if key = "USER_LOCK_THRESHOLD".toList then .int 5
  else if key = "USER_LOCK_SECONDS".toList then .int 300
  else if key = "USER_PASSWORD_EXPIRY_DAYS".toList then .int 365
  else if key = "USER_PASSWORD_REMINDER_DAYS".toList then .int 7
  else if key = "USER_PASSWORD_HISTORY_CHECK_COUNT".toList then .int 3
  else if key = "USER_PASSWORD_MIN_LENGTH".toList then .int 6
  else if key = "USER_PASSWORD_MAX_LENGTH".toList then .int 32
  else .bool (key = "LOGIN_CAPTCHA_ENABLED".toList)

def captchaOff : ConfigState :=
  rowsOf .login [("LOGIN_CAPTCHA_ENABLED".toList, "false".toList)]

theorem dynamicSettings_settled_sample :
    HistoryFree confDefaults .login captchaOff
      (afterCalls confDefaults [(.login, captchaOff)]) := by
  apply ((dynamicSettings_settled confDefaults).2.1 [(.login, captchaOff)] .login captchaOff).mpr
  constructor
  · intro _ p hp hget
    rw [List.mem_singleton.mp hp] at hget
    cases hget
  · intro before p after hsplit _ _ q hq
    cases before with
    | nil => cases hq
    | cons first rest =>
        have hlength := congrArg List.length hsplit
        simp [Loader.mapping] at hlength

/-- A deleted row keeps its effect, and a value that raises leaves the one before it. -/
theorem dynamicSettings_remember :
    ¬ HistoryFree confDefaults .login (rowsOf .login [])
        (afterCalls confDefaults [(.login, captchaOff)]) ∧
      ¬ HistoryFree confDefaults .userSecurity (rowsOf .userSecurity
        [("USER_LOCK_THRESHOLD".toList, ['3']), ("USER_LOCK_SECONDS".toList, ['x'])])
        (afterCalls confDefaults []) := by
  constructor
  · intro hfree
    have hbool : Json.bool false = Json.bool true :=
      historyFree_iff.mp hfree ("LOGIN_CAPTCHA_ENABLED".toList, strToBool) (.head _)
    cases hbool
  · intro hfree
    have hint : Json.int 5 = Json.int 3 :=
      (historyFree_iff.mp hfree).2 [("USER_LOCK_THRESHOLD".toList, toInt)]
        ("USER_LOCK_SECONDS".toList, toInt) _ rfl
        (by
          intro q hq hfails
          rcases hfails with ⟨value, e, hget, hconvert⟩
          rw [List.mem_singleton.mp hq] at hget hconvert
          cases hget
          cases hconvert)
        ⟨['x'], .value, rfl, rfl⟩ ("USER_LOCK_THRESHOLD".toList, toInt) (.head _) ['3'] (.int 3)
        rfl rfl
    cases hint

end DynamicConfig
end RagService
