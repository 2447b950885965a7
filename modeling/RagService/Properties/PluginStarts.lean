import RagService.Plugin.Packages

/-!
# Starts with plugins

A start puts the plugins in order when the levels, the statuses and the dependencies of
the plugins agree.  Validation looks at one plugin at a time, and neither a new status nor
an uninstallation looks at the plugins that depend on another.
-/

namespace RagService
namespace Plugin

open Toml

namespace PluginPackage

def routed (package : PluginPackage) : Bool :=
  (field package.config "api".toList).isSome || (field package.config "app".toList).isSome

def isExtend (package : PluginPackage) : Bool :=
  (field package.config "api".toList).isSome

def isApp (package : PluginPackage) : Bool :=
  !(field package.config "api".toList).isSome && (field package.config "app".toList).isSome

def needs (package : PluginPackage) : List Text :=
  package.dependsOn.getD []

def dumps (package : PluginPackage) : Bool :=
  (fieldsToJson package.config).isSome

end PluginPackage

def Depends (packages : List PluginPackage) (a b : Text) : Prop :=
  exists package, package ∈ packages ∧ package.name = a ∧ b ∈ package.needs

/-- Validated plugins that do not depend on each other in a cycle. -/
structure Installed (isupper : Text -> Bool) (packages : List PluginPackage) : Prop where
  names : (packages.map PluginPackage.name).Nodup
  accepted : forall package, package ∈ packages -> exists level,
    validatePluginConfig isupper package.name package.config package.files = .ok level
  acyclic : Forest.Acyclic (Depends packages)

/--
The router finds an order, and so do the hooks after it; each plugin that is enabled is in
their order once, after the plugins it depends on.
-/
def StartsWell (isupper : Text -> Bool) (st : PluginState) : Prop :=
  exists ordered, (start isupper st).2 = .ok ordered ∧
    (forall package, package ∈ st.packages -> st.enabled package.name = true ->
      (ordered.map PluginEntry.name).count package.name = 1) ∧
    forall before entry after, ordered = before ++ entry :: after ->
      forall package, package ∈ st.packages -> package.name = entry.name ->
        forall name, name ∈ package.needs -> name ∈ before.map PluginEntry.name

/--
The plugin counts as enabled when the hooks are registered: the router has deleted the key
`changed` by then, and with it the status of a plugin of that name.
-/
def PluginState.enabledAtStart (st : PluginState) (plugin : Text) : Bool :=
  decide (plugin = "changed".toList) || st.enabled plugin

/--
Every enabled plugin has routes, a plugin with routes depends on installed plugins with
routes, which are enabled if it is, and no configuration has a date.
-/
structure Ready (st : PluginState) : Prop where
  routed : forall package, package ∈ st.packages -> st.enabled package.name = true ->
    package.routed = true
  dependencies : forall package, package ∈ st.packages -> package.routed = true ->
    forall name, name ∈ package.needs -> exists dependency, dependency ∈ st.packages ∧
      dependency.name = name ∧ dependency.routed = true ∧
      (st.enabledAtStart package.name = true -> st.enabledAtStart name = true)
  dumps : forall package, package ∈ st.packages -> package.dumps = true

/-!
# Configurations

The level of a validated plugin and its table `plugin`; its information can be dumped when its
configuration can.
-/

variable {isupper : Text -> Bool} {packages : List PluginPackage} {package : PluginPackage}

theorem schema_of_validate {name : Text} {config : List (Text × Toml)} {files : PluginFiles}
    {level : PluginLevelType} (h : validatePluginConfig isupper name config files = .ok level) :
    (pluginSchema isupper config).1 config = true ∧ (pluginSchema isupper config).2 = level := by
  unfold validatePluginConfig at h
  dsimp only at h
  split at h
  · cases h
  · rename_i hschema
    constructor
    · simpa using hschema
    · split at h
      · cases h
      · split at h
        · split at h
          · cases h
          · split at h
            · cases h
            · exact Except.ok.inj h
        · exact Except.ok.inj h

theorem table_of_accepts {database : List (Text × Toml) -> Bool} {v : Toml}
    (h : acceptsPluginInfo database v = true) : exists info, v = .table info := by
  cases v with
  | table info => exact ⟨info, rfl⟩
  | str _ | int _ | float _ | bool _ | date | arr _ => cases h

theorem level_of_validate {level : PluginLevelType}
    (h : validatePluginConfig isupper package.name package.config package.files = .ok level) :
    level = (if package.isExtend then .extend else if package.isApp then .app else .capability) ∧
      exists info, field package.config "plugin".toList = some (.table info) := by
  have htable : forall schema : Toml -> Bool,
      (forall v, schema v = true -> exists info, v = .table info) ->
      required package.config "plugin" schema = true ->
        exists info, field package.config "plugin".toList = some (.table info) := by
    intro schema hschema hrequired
    rcases (Option.any_eq_true ..).mp hrequired with ⟨v, hv, haccepts⟩
    rcases hschema v haccepts with ⟨info, rfl⟩
    exact ⟨info, hv⟩
  have hinfo := htable PluginInfoSchema fun _ hv => table_of_accepts hv
  have hcapability := htable CapabilityPluginInfoSchema fun _ hv => table_of_accepts hv
  rcases schema_of_validate h with ⟨hschema, hlevel⟩
  rw [← hlevel]
  unfold pluginSchema at hschema ⊢
  unfold PluginPackage.isApp PluginPackage.isExtend
  cases hapi : (field package.config "api".toList).isSome with
  | true =>
      rw [hapi] at hschema
      refine ⟨rfl, hinfo ?_⟩
      have hall : ExtendPluginConfigSchema isupper package.config = true := hschema
      simp only [ExtendPluginConfigSchema, Bool.and_eq_true] at hall
      exact hall.1.1.1
  | false =>
      rw [hapi] at hschema
      cases happ : (field package.config "app".toList).isSome with
      | true =>
          rw [happ] at hschema
          refine ⟨rfl, hinfo ?_⟩
          have hall : AppPluginConfigSchema isupper package.config = true := hschema
          simp only [AppPluginConfigSchema, Bool.and_eq_true] at hall
          exact hall.1.1
      | false =>
          rw [happ] at hschema
          refine ⟨rfl, hcapability ?_⟩
          have hall : CapabilityPluginConfigSchema isupper package.config = true := hschema
          simp only [CapabilityPluginConfigSchema, Bool.and_eq_true] at hall
          exact hall.1.1

theorem field_fieldsToJson {fields : List (Text × Toml)} {js : List (Text × Json)}
    (h : fieldsToJson fields = some js) {key : Text} {v : Toml} (hv : field fields key = some v) :
    exists j, v.toJson = some j ∧ Json.field js key = some j := by
  induction fields generalizing js with
  | nil => cases hv
  | cons f rest ih =>
      rcases f with ⟨k, w⟩
      unfold fieldsToJson at h
      cases hw : w.toJson with
      | none =>
          rw [hw] at h
          cases h
      | some j =>
          cases hrest : fieldsToJson rest with
          | none =>
              rw [hw, hrest] at h
              cases h
          | some js' =>
              rw [hw, hrest] at h
              cases h
              by_cases hk : k = key
              · have hfirst : w = v := by simpa [field, hk] using hv
                exists j
                rw [← hfirst]
                constructor
                · exact hw
                · simp [Json.field, hk]
              · have hlater : field rest key = some v := by simpa [field, hk] using hv
                rcases ih hrest hlater with ⟨j', hj', hfield⟩
                exists j'
                constructor
                · exact hj'
                · simpa [Json.field, hk] using hfield

theorem isSome_info {level : PluginLevelType}
    (h : validatePluginConfig isupper package.name package.config package.files = .ok level)
    (enable : Json) : (package.info enable).isSome = package.dumps := by
  rcases level_of_validate h with ⟨-, info, hinfo⟩
  unfold PluginPackage.info PluginPackage.dumps
  cases hconfig : fieldsToJson package.config with
  | none => rfl
  | some config =>
      rcases field_fieldsToJson hconfig hinfo with ⟨j, hj, hfield⟩
      simp only [toJson, Option.map_eq_some_iff] at hj
      rcases hj with ⟨plugin, -, rfl⟩
      simp only [hfield]
      rfl

/-!
# Entries

A plugin with routes has an entry.
-/

def PluginPackage.entry (package : PluginPackage) : PluginEntry :=
  if package.isExtend then package.extendEntry else package.appEntry

def entries (packages : List PluginPackage) : List PluginEntry :=
  (packages.filter PluginPackage.isExtend).map PluginPackage.extendEntry ++
    (packages.filter PluginPackage.isApp).map PluginPackage.appEntry

theorem entry_name (package : PluginPackage) : package.entry.name = package.name := by
  unfold PluginPackage.entry
  split
  · rfl
  · rfl

theorem entry_dependsOn (package : PluginPackage) :
    package.entry.dependsOn = package.dependsOn := by
  unfold PluginPackage.entry
  split
  · rfl
  · rfl

theorem mem_entries {entry : PluginEntry} : entry ∈ entries packages ↔
    exists package, package ∈ packages ∧ package.routed = true ∧ package.entry = entry := by
  unfold entries PluginPackage.routed PluginPackage.entry
  simp only [List.mem_append, List.mem_map, List.mem_filter]
  constructor
  · intro h
    cases h with
    | inl hextend =>
        rcases hextend with ⟨package, ⟨hmem, hkind⟩, hentry⟩
        refine ⟨package, hmem, ?_, ?_⟩
        · rw [show (field package.config "api".toList).isSome = true from hkind]
          rfl
        · rw [if_pos hkind]
          exact hentry
    | inr happ =>
        rcases happ with ⟨package, ⟨hmem, hkind⟩, hentry⟩
        rcases (Bool.and_eq_true _ _).mp hkind with ⟨hapi, hroutes⟩
        refine ⟨package, hmem, ?_, ?_⟩
        · rw [hroutes, Bool.or_true]
        · rw [if_neg (by simpa [PluginPackage.isExtend] using hapi)]
          exact hentry
  · intro h
    rcases h with ⟨package, hmem, hroutes, hentry⟩
    split at hentry
    · rename_i hextend
      exact .inl ⟨package, ⟨hmem, hextend⟩, hentry⟩
    · rename_i happ
      have hapi : (field package.config "api".toList).isSome = false := by
        simpa [PluginPackage.isExtend] using happ
      refine .inr ⟨package, ⟨hmem, ?_⟩, hentry⟩
      unfold PluginPackage.isApp
      rw [hapi] at hroutes ⊢
      exact hroutes

theorem nodup_entries (hnames : (packages.map PluginPackage.name).Nodup) :
    ((entries packages).map PluginEntry.name).Nodup := by
  unfold entries
  rw [List.map_append, List.map_map, List.map_map]
  apply List.Nodup.append
  · exact hnames.sublist (List.filter_sublist.map _)
  · exact hnames.sublist (List.filter_sublist.map _)
  · intro name hextend happ
    rcases List.mem_map.mp hextend with ⟨p, hp, rfl⟩
    rcases List.mem_map.mp happ with ⟨q, hq, hname⟩
    rcases List.mem_filter.mp hp with ⟨hpmem, hpkind⟩
    rcases List.mem_filter.mp hq with ⟨hqmem, hqkind⟩
    have hsame : q = p := List.inj_on_of_nodup_map hnames hqmem hpmem hname
    rw [hsame] at hqkind
    have hapi := ((Bool.and_eq_true _ _).mp hqkind).1
    rw [show (field p.config "api".toList).isSome = true from hpkind] at hapi
    cases hapi

theorem parsePlugins_eq (haccepted : forall package, package ∈ packages -> exists level,
      validatePluginConfig isupper package.name package.config package.files = .ok level)
    (redis : Text -> Option CachedInfo) :
    (parsePlugins isupper packages redis).2 =
      if packages.all PluginPackage.dumps then
        .ok ((packages.filter PluginPackage.isExtend).map PluginPackage.extendEntry,
          (packages.filter PluginPackage.isApp).map PluginPackage.appEntry)
      else .error .type := by
  induction packages generalizing redis with
  | nil => rfl
  | cons package rest ih =>
      rcases haccepted package (.head _) with ⟨level, hlevel⟩
      have hinfo := isSome_info hlevel (getPluginEnable (redis package.name) enableValue)
      rcases level_of_validate hlevel with ⟨hkind, -⟩
      have hrest := ih (fun p hp => haccepted p (.tail _ hp))
      unfold parsePlugins
      simp only [hlevel]
      cases hsome : package.info (getPluginEnable (redis package.name) enableValue) with
      | none =>
          have hdumps : package.dumps = false := by
            rw [← hinfo, hsome]
            rfl
          simp [hdumps]
      | some info =>
          have hdumps : package.dumps = true := by
            rw [← hinfo, hsome]
            rfl
          have hlater := hrest (Function.update redis package.name (some (some info)))
          simp only [List.all_cons, hdumps, Bool.true_and]
          generalize parsePlugins isupper rest _ = result at hlater ⊢
          rcases result with ⟨redis', result⟩
          have hresult : result = _ := hlater
          rw [hresult]
          cases rest.all PluginPackage.dumps with
          | false => rfl
          | true =>
              rw [hkind]
              cases hextend : package.isExtend with
              | true =>
                  have happ : package.isApp = false := by
                    unfold PluginPackage.isApp
                    rw [show (field package.config "api".toList).isSome = true from hextend]
                    rfl
                  simp [hextend, happ]
              | false =>
                  cases happ : package.isApp with
                  | true => simp [hextend, happ]
                  | false => simp [hextend, happ]

/-!
# Order

The plugins that are kept have an order when their dependencies are kept.
-/

def kept (keep : Text -> Bool) (packages : List PluginPackage) : List PluginEntry :=
  (entries packages).filter fun entry => keep entry.name

theorem mem_kept {keep : Text -> Bool} {entry : PluginEntry} : entry ∈ kept keep packages ↔
    exists package, package ∈ packages ∧ package.routed = true ∧ keep package.name = true ∧
      package.entry = entry := by
  unfold kept
  rw [List.mem_filter, mem_entries]
  constructor
  · intro h
    rcases h with ⟨⟨package, hmem, hroutes, rfl⟩, hkeep⟩
    rw [entry_name] at hkeep
    exact ⟨package, hmem, hroutes, hkeep, rfl⟩
  · intro h
    rcases h with ⟨package, hmem, hroutes, hkeep, rfl⟩
    rw [← entry_name] at hkeep
    exact ⟨⟨package, hmem, hroutes, rfl⟩, hkeep⟩

theorem indexed {plugins : List PluginEntry} (h : (plugins.map PluginEntry.name).Nodup) :
    (pluginGraph plugins).Indexed plugins := by
  constructor
  · exact h
  · intro name plugin
    have hkeys : ((plugins.map fun plugin => (plugin.name, plugin)).map Prod.fst).Nodup := by
      rw [List.map_map]
      exact h
    show (Dict.ofPairs (plugins.map fun plugin => (plugin.name, plugin))).get name = some plugin ↔ _
    rw [Dict.get_ofPairs_eq_some hkeys]
    constructor
    · intro hmem
      rcases List.mem_map.mp hmem with ⟨p, hp, heq⟩
      cases heq
      exact ⟨hp, rfl⟩
    · intro hmem
      rcases hmem with ⟨hp, hname⟩
      have hname : plugin.name = name := hname
      rw [← hname]
      exact List.mem_map_of_mem (f := fun plugin : PluginEntry => (plugin.name, plugin)) hp

theorem resolved_eq_ok {plugins ordered : List PluginEntry} :
    resolved plugins = .ok ordered ↔ (pluginGraph plugins).order plugins = .ok ordered := by
  unfold resolved resolvePluginOrder
  cases (pluginGraph plugins).order plugins with
  | error e => simp
  | ok ordered' => simp

namespace Installed

variable {keep : Text -> Bool}

theorem indexed_kept (h : Installed isupper packages) :
    (pluginGraph (kept keep packages)).Indexed (kept keep packages) := by
  apply indexed
  unfold kept
  exact (nodup_entries h.names).sublist (List.filter_sublist.map _)

theorem acyclic_kept (h : Installed isupper packages) :
    Forest.Acyclic ((pluginGraph (kept keep packages)).DependsOn (kept keep packages)) := by
  apply h.acyclic.mono
  intro a b hedge
  rcases hedge with ⟨entry, hentry, hname, hneeds⟩
  rcases mem_kept.mp hentry with ⟨package, hmem, -, -, rfl⟩
  refine ⟨package, hmem, ?_, ?_⟩
  · rw [← entry_name]
    exact hname
  · unfold PluginPackage.needs
    rw [← entry_dependsOn]
    exact hneeds

/-- The plugins that are kept have an order when their dependencies are kept. -/
theorem resolved_kept (h : Installed isupper packages) :
    (exists ordered, resolved (kept keep packages) = .ok ordered) ↔
      forall package, package ∈ packages -> package.routed = true -> keep package.name = true ->
        forall name, name ∈ package.needs -> exists dependency, dependency ∈ packages ∧
          dependency.name = name ∧ dependency.routed = true ∧ keep name = true := by
  simp only [resolved_eq_ok]
  rw [Dependencies.order_ok_iff h.indexed_kept h.acyclic_kept]
  constructor
  · intro hfound package hmem hroutes hkeep name hname
    have hentry : package.entry ∈ kept keep packages :=
      mem_kept.mpr ⟨package, hmem, hroutes, hkeep, rfl⟩
    have hneeds : name ∈ (pluginGraph (kept keep packages)).needs package.entry := by
      show name ∈ package.entry.dependsOn.getD []
      rw [entry_dependsOn]
      exact hname
    rcases List.mem_map.mp (hfound _ hentry name hneeds) with ⟨entry, hin, hkey⟩
    rcases mem_kept.mp hin with ⟨dependency, hdep, hdeproutes, hdepkeep, rfl⟩
    have hkey : dependency.entry.name = name := hkey
    rw [entry_name] at hkey
    rw [hkey] at hdepkeep
    exact ⟨dependency, hdep, hkey, hdeproutes, hdepkeep⟩
  · intro hfound entry hentry name hname
    rcases mem_kept.mp hentry with ⟨package, hmem, hroutes, hkeep, rfl⟩
    have hneeds : name ∈ package.needs := by
      unfold PluginPackage.needs
      rw [← entry_dependsOn]
      exact hname
    rcases hfound package hmem hroutes hkeep name hneeds with
      ⟨dependency, hdep, hdepname, hdeproutes, hdepkeep⟩
    rw [← hdepname] at hdepkeep ⊢
    rw [← entry_name]
    exact List.mem_map_of_mem (f := (pluginGraph (kept keep packages)).key)
      (mem_kept.mpr ⟨dependency, hdep, hdeproutes, hdepkeep, rfl⟩)

theorem kept_all : kept (fun _ => true) packages = entries packages :=
  List.filter_eq_self.mpr fun _ _ => rfl

end Installed

/-!
# Starts

The loop over the plugins keeps their statuses, but the router deletes the key `changed`.  A
start that succeeds is told by the two orders that it finds.
-/

variable {st : PluginState}

theorem parsePluginConfig_packages (isupper : Text -> Bool) (st : PluginState) :
    (parsePluginConfig isupper st).1.packages = st.packages := by
  unfold parsePluginConfig
  split
  · rfl
  · rfl

theorem parsePluginConfig_eq (h : Installed isupper st.packages) :
    (parsePluginConfig isupper st).2 =
      if st.packages.all PluginPackage.dumps then
        .ok ((st.packages.filter PluginPackage.isExtend).map PluginPackage.extendEntry,
          (st.packages.filter PluginPackage.isApp).map PluginPackage.appEntry)
      else .error .type := by
  rw [← parsePlugins_eq h.accepted fun key => if key ∈ st.names then st.redis key else none]
  unfold parsePluginConfig
  split
  · rename_i heq
    rw [heq]
  · rename_i heq
    rw [heq]

theorem getOrderedEnabledPlugins_packages (isupper : Text -> Bool) (st : PluginState) :
    (getOrderedEnabledPlugins isupper st).1.packages = st.packages := by
  rw [← parsePluginConfig_packages isupper st]
  unfold getOrderedEnabledPlugins
  dsimp only
  split
  · rename_i heq
    rw [heq]
  · rename_i heq
    rw [heq]

theorem getOrderedEnabledPlugins_eq (h : Installed isupper st.packages) :
    (getOrderedEnabledPlugins isupper st).2 =
      if st.packages.all PluginPackage.dumps then
        resolved (kept (fun name => name ∈ st.getEnabledPlugins) st.packages)
      else .error .type := by
  have hparsed := parsePluginConfig_eq h
  unfold getOrderedEnabledPlugins
  generalize parsePluginConfig isupper st = parsed at hparsed ⊢
  rcases parsed with ⟨st', parsed⟩
  rw [show parsed = _ from hparsed]
  cases st.packages.all PluginPackage.dumps with
  | false => rfl
  | true => rfl

theorem buildFinalRouter_eq (h : Installed isupper st.packages) :
    (buildFinalRouter isupper st).2 =
      if st.packages.all PluginPackage.dumps then resolved (entries st.packages)
      else .error .type := by
  have hparsed := parsePluginConfig_eq h
  unfold buildFinalRouter
  generalize parsePluginConfig isupper st = parsed at hparsed ⊢
  rcases parsed with ⟨st', parsed⟩
  rw [show parsed = _ from hparsed]
  cases st.packages.all PluginPackage.dumps with
  | false => rfl
  | true => rfl

theorem buildFinalRouter_packages (isupper : Text -> Bool) (st : PluginState) :
    (buildFinalRouter isupper st).1.packages = st.packages := by
  rw [← parsePluginConfig_packages isupper st]
  unfold buildFinalRouter
  split
  · rename_i heq
    rw [heq]
  · rename_i heq
    rw [heq]

theorem field_setField (fields : List (Text × Json)) (key : Text) (v : Json) :
    Json.field (Json.setField fields key v) key = some v := by
  unfold Json.setField
  split
  · rename_i hin
    rcases List.any_eq_true.mp hin with ⟨f, hmem, hkey⟩
    have hkey := of_decide_eq_true hkey
    clear hin
    induction fields with
    | nil => cases hmem
    | cons g rest ih =>
        by_cases hg : g.1 = key
        · simp [Json.field, hg]
        · have hrest : f ∈ rest := by
            cases List.mem_cons.mp hmem with
            | inl heq =>
                rw [heq] at hkey
                exact absurd hkey hg
            | inr hrest => exact hrest
          simpa [Json.field, hg] using ih hrest
  · rename_i hnew
    have hnone : forall f, f ∈ fields -> f.1 ≠ key := by
      intro f hmem hkey
      exact hnew (List.any_eq_true.mpr ⟨f, hmem, decide_eq_true hkey⟩)
    have hfind : fields.find? (fun f => f.1 = key) = none :=
      List.find?_eq_none.mpr fun f hmem hkey => hnone f hmem (of_decide_eq_true hkey)
    simp [Json.field, List.find?_append, hfind]

theorem getPluginEnable_eq {fields info : List (Text × Json)} {enable : Json}
    (hinfo : Json.field fields "plugin".toList = some (.obj info))
    (henable : Json.field info "enable".toList = some enable) (default : Text) :
    getPluginEnable (some (some (.obj fields))) default = enable := by
  show ((Json.field fields "plugin".toList).bind fun v => item v "enable").getD _ = enable
  rw [hinfo]
  show (Json.field info "enable".toList).getD _ = enable
  rw [henable]
  rfl

theorem getPluginEnable_info {enable info : Json} (h : package.info enable = some info)
    (default : Text) : getPluginEnable (some (some info)) default = enable := by
  unfold PluginPackage.info at h
  split at h
  · cases h
  · split at h
    · cases h
      exact getPluginEnable_eq (field_setField ..) (field_setField ..) default
    · cases h

theorem getPluginEnable_parsePlugins {redis redis' : Text -> Option CachedInfo}
    {out : List PluginEntry × List PluginEntry} (hnames : (packages.map PluginPackage.name).Nodup)
    (h : parsePlugins isupper packages redis = (redis', .ok out)) :
    (forall key, key ∉ packages.map PluginPackage.name -> redis' key = redis key) ∧
      forall package, package ∈ packages ->
        getPluginEnable (redis' package.name) enableValue =
          getPluginEnable (redis package.name) enableValue := by
  induction packages generalizing redis out with
  | nil =>
      cases h
      exact ⟨fun _ _ => rfl, nofun⟩
  | cons first rest ih =>
      rw [List.map_cons, List.nodup_cons] at hnames
      unfold parsePlugins at h
      split at h
      · cases h
      · split at h
        · cases h
        · rename_i info hinfo
          split at h
          · cases h
          · rename_i redis₁ extendPlugins appPlugins hrest
            have heq : redis₁ = redis' := by
              split at h
              · exact (Prod.mk.inj h).1
              · exact (Prod.mk.inj h).1
              · exact (Prod.mk.inj h).1
            rw [heq] at hrest
            rcases ih hnames.2 hrest with ⟨hother, hkept⟩
            constructor
            · intro key hkey
              rw [List.map_cons, List.mem_cons, not_or] at hkey
              rw [hother key hkey.2, Function.update_of_ne hkey.1]
            · intro package hmem
              rcases List.mem_cons.mp hmem with rfl | hmem
              · rw [hother _ hnames.1, Function.update_self]
                exact getPluginEnable_info hinfo _
              · rw [hkept package hmem, Function.update_of_ne]
                intro hname
                exact hnames.1 (hname ▸ List.mem_map_of_mem hmem)

theorem enabled_buildFinalRouter (h : Installed isupper st.packages) {routed : List PluginEntry}
    (hrouted : (buildFinalRouter isupper st).2 = .ok routed) (hmem : package ∈ st.packages) :
    (buildFinalRouter isupper st).1.enabled package.name =
      st.enabledAtStart package.name := by
  unfold buildFinalRouter parsePluginConfig at hrouted ⊢
  split at hrouted
  · cases hrouted
  · rename_i st' extendPlugins appPlugins hparsed
    split at hparsed
    · cases hparsed
    · rename_i redis' entries hentries
      cases hparsed
      have hkept := (getPluginEnable_parsePlugins h.names hentries).2 package hmem
      have hname : package.name ∈ st.names := List.mem_map_of_mem hmem
      rw [if_pos hname] at hkept
      unfold PluginState.enabledAtStart PluginState.enabled
      dsimp only
      by_cases hchanged : package.name = "changed".toList
      · rw [hchanged, Function.update_self]
        rfl
      · rw [Function.update_of_ne hchanged, hkept, decide_eq_false hchanged, Bool.false_or]

theorem mem_getEnabledPlugins (hmem : package ∈ st.packages) :
    package.name ∈ st.getEnabledPlugins ↔ st.enabled package.name = true := by
  unfold PluginState.getEnabledPlugins
  rw [List.mem_filter]
  constructor
  · exact And.right
  · intro henabled
    exact ⟨List.mem_map_of_mem hmem, henabled⟩

theorem kept_congr {keep keep' : Text -> Bool}
    (h : forall package, package ∈ packages -> keep package.name = keep' package.name) :
    kept keep packages = kept keep' packages := by
  apply List.filter_congr
  intro entry hentry
  rcases mem_entries.mp hentry with ⟨package, hmem, -, rfl⟩
  rw [entry_name, h package hmem]

/-- A start that succeeds, by the two orders that it finds. -/
theorem start_eq_ok (h : Installed isupper st.packages) {ordered : List PluginEntry} :
    (start isupper st).2 = .ok ordered ↔
      st.packages.all PluginPackage.dumps = true ∧
        (exists routed, resolved (entries st.packages) = .ok routed) ∧
        resolved (kept st.enabledAtStart st.packages) = .ok ordered := by
  have hrouter := buildFinalRouter_eq h
  have hpackages := buildFinalRouter_packages isupper st
  have henabled := fun routed hrouted package => @enabled_buildFinalRouter isupper package st h
    routed hrouted
  unfold start
  generalize buildFinalRouter isupper st = built at hrouter hpackages henabled ⊢
  rcases built with ⟨st', built⟩
  dsimp only at hrouter hpackages henabled
  rw [hrouter] at henabled ⊢
  cases hdumps : st.packages.all PluginPackage.dumps with
  | false => exact iff_of_false nofun fun hall => Bool.false_ne_true hall.1
  | true =>
      rw [hdumps, if_pos rfl] at henabled
      rw [if_pos rfl]
      cases hrouted : resolved (entries st.packages) with
      | error e => exact iff_of_false nofun fun hall => by rcases hall.2.1 with ⟨_, heq⟩; cases heq
      | ok routed =>
          have hnext : Installed isupper st'.packages := by
            rw [hpackages]
            exact h
          have hkept : kept (fun name => name ∈ st'.getEnabledPlugins) st'.packages =
              kept st.enabledAtStart st.packages := by
            rw [hpackages]
            apply kept_congr
            intro package hmem
            rw [← henabled routed hrouted package hmem]
            exact Bool.eq_iff_iff.mpr
              (decide_eq_true_iff.trans (mem_getEnabledPlugins (hpackages ▸ hmem)))
          dsimp only
          rw [getOrderedEnabledPlugins_eq hnext, hkept, hpackages, hdumps, if_pos rfl]
          exact ⟨fun hordered => ⟨rfl, ⟨routed, rfl⟩, hordered⟩, fun hall => hall.2.2⟩

theorem routed_of_kept (h : Installed isupper packages) {keep : Text -> Bool}
    (hmem : package ∈ packages) {entry : PluginEntry} (hentry : entry ∈ kept keep packages)
    (hname : entry.name = package.name) : entry = package.entry ∧ package.routed = true := by
  rcases mem_kept.mp hentry with ⟨other, hother, hroutes, -, rfl⟩
  rw [entry_name] at hname
  have hsame : other = package := List.inj_on_of_nodup_map h.names hother hmem hname
  rw [← hsame]
  exact ⟨rfl, hroutes⟩

theorem ready_of_startsWell (h : Installed isupper st.packages) (hwell : StartsWell isupper st) :
    Ready st := by
  rcases hwell with ⟨ordered, hstart, hcount, -⟩
  rcases (start_eq_ok h).mp hstart with ⟨hdumps, ⟨routed, hrouted⟩, hordered⟩
  rw [← Installed.kept_all] at hrouted
  rcases Dependencies.order_spec h.indexed_kept (resolved_eq_ok.mp hordered) with ⟨hperm, -⟩
  constructor
  · intro package hmem henabled
    have hin : package.name ∈ ordered.map PluginEntry.name := by
      apply List.count_pos_iff.mp
      rw [hcount package hmem henabled]
      exact Nat.one_pos
    rcases List.mem_map.mp hin with ⟨entry, hentry, hname⟩
    exact (routed_of_kept h hmem (hperm.mem_iff.mp hentry) hname).2
  · intro package hmem hroutes name hname
    rcases h.resolved_kept.mp ⟨routed, hrouted⟩ package hmem hroutes rfl name hname with
      ⟨dependency, hdep, hdepname, hdeproutes, -⟩
    refine ⟨dependency, hdep, hdepname, hdeproutes, ?_⟩
    intro henabled
    obtain ⟨-, -, -, -, hkeep⟩ := h.resolved_kept.mp ⟨ordered, hordered⟩ package hmem hroutes
      henabled name hname
    exact hkeep
  · exact List.all_eq_true.mp hdumps

theorem startsWell_of_ready (h : Installed isupper st.packages) (hready : Ready st) :
    StartsWell isupper st := by
  have hordered : exists ordered,
      resolved (kept st.enabledAtStart st.packages) = .ok ordered := by
    apply h.resolved_kept.mpr
    intro package hmem hroutes hkeep name hname
    rcases hready.dependencies package hmem hroutes name hname with
      ⟨dependency, hdep, hdepname, hdeproutes, henabled⟩
    exact ⟨dependency, hdep, hdepname, hdeproutes, henabled hkeep⟩
  have hrouted : exists ordered, resolved (kept (fun _ => true) st.packages) = .ok ordered := by
    apply h.resolved_kept.mpr
    intro package hmem hroutes _ name hname
    rcases hready.dependencies package hmem hroutes name hname with
      ⟨dependency, hdep, hdepname, hdeproutes, -⟩
    exact ⟨dependency, hdep, hdepname, hdeproutes, rfl⟩
  rcases hordered with ⟨ordered, hordered⟩
  rw [Installed.kept_all] at hrouted
  rcases Dependencies.order_spec h.indexed_kept (resolved_eq_ok.mp hordered) with ⟨hperm, hfirst⟩
  refine ⟨ordered, ?_, ?_, ?_⟩
  · exact (start_eq_ok h).mpr ⟨List.all_eq_true.mpr hready.dumps, hrouted, hordered⟩
  · intro package hmem henabled
    have hnodup : (ordered.map PluginEntry.name).Nodup :=
      (hperm.map PluginEntry.name).nodup_iff.mpr h.indexed_kept.keys
    have hkeep : st.enabledAtStart package.name = true := by
      rw [PluginState.enabledAtStart, henabled, Bool.or_true]
    have hentry : package.entry ∈ ordered :=
      hperm.mem_iff.mpr (mem_kept.mpr ⟨package, hmem, hready.routed package hmem henabled,
        hkeep, rfl⟩)
    rw [← entry_name]
    exact List.count_eq_one_of_mem hnodup (List.mem_map_of_mem hentry)
  · intro before entry after heq package hmem hname name hneeds
    have hentry : entry ∈ ordered := by
      rw [heq]
      exact List.mem_append_right _ (.head _)
    rcases routed_of_kept h hmem (hperm.mem_iff.mp hentry) hname.symm with ⟨hsame, -⟩
    apply hfirst before entry after heq name
    rw [hsame]
    show name ∈ package.entry.dependsOn.getD []
    rw [entry_dependsOn]
    exact hneeds

/-!
# Operations

An update of the status enables a plugin that was disabled, and disables any other; no
operation adds a plugin.
-/

theorem updateStatus_packages {st' : PluginState} {plugin : Text}
    (h : PluginService.updateStatus st plugin = .ok st') : st'.packages = st.packages := by
  unfold PluginService.updateStatus at h
  split at h
  · cases h
  · split at h
    · split at h
      · cases h
      · cases h
        rfl
    · cases h
  · cases h

theorem enabled_updateStatus {st' : PluginState} {plugin : Text}
    (h : PluginService.updateStatus st plugin = .ok st') (hname : plugin ≠ "changed".toList) :
    st'.enabled plugin =
      isText (getPluginEnable (st.redis plugin) enableValue) disableValue := by
  unfold PluginService.updateStatus at h
  split at h
  · cases h
  · rename_i fields hstored
    split at h
    · rename_i info hinfo
      split at h
      · cases h
      · rename_i enable henable
        cases h
        rw [hstored, getPluginEnable_eq hinfo henable]
        unfold PluginState.enabled markChanged
        dsimp only
        rw [Function.update_of_ne hname, Function.update_self,
          getPluginEnable_eq (field_setField ..) (field_setField ..)]
        cases isText enable disableValue with
        | false => rfl
        | true => rfl
    · cases h
  · cases h

theorem uninstall_packages {settings : PluginSettings} {st' : PluginState} {plugin : Text}
    (h : PluginService.uninstall settings st plugin = .ok st') :
    st'.packages = st.packages.filter fun package => package.name ≠ plugin := by
  unfold PluginService.uninstall at h
  split at h
  · cases h
  · split at h
    · cases h
    · split at h
      · cases h
      · cases h
        rfl

theorem start_packages (isupper : Text -> Bool) (st : PluginState) :
    (start isupper st).1.packages = st.packages := by
  have hrouted := buildFinalRouter_packages isupper st
  unfold start
  split
  · rename_i heq
    rw [heq] at hrouted
    exact hrouted
  · rename_i st' routed heq
    rw [heq] at hrouted
    exact (getOrderedEnabledPlugins_packages isupper st').trans hrouted

theorem perform_packages (isupper : Text -> Bool) (settings : PluginSettings) (st : PluginState)
    (op : PluginOp) : (perform isupper settings st op).packages.Sublist st.packages := by
  cases op with
  | updateStatus plugin =>
      unfold perform
      dsimp only
      cases hdone : PluginService.updateStatus st plugin with
      | error e => exact .refl _
      | ok st' =>
          show st'.packages.Sublist st.packages
          rw [updateStatus_packages hdone]
  | uninstall plugin =>
      unfold perform
      dsimp only
      cases hdone : PluginService.uninstall settings st plugin with
      | error e => exact .refl _
      | ok st' =>
          show st'.packages.Sublist st.packages
          rw [uninstall_packages hdone]
          exact List.filter_sublist
  | start =>
      show (start isupper st).1.packages.Sublist st.packages
      rw [start_packages]

theorem Installed.sublist {fewer : List PluginPackage} (h : Installed isupper packages)
    (hsub : fewer.Sublist packages) : Installed isupper fewer := by
  constructor
  · exact h.names.sublist (hsub.map _)
  · intro package hmem
    exact h.accepted package (hsub.mem hmem)
  · apply h.acyclic.mono
    intro a b hedge
    rcases hedge with ⟨package, hmem, hname, hneeds⟩
    exact ⟨package, hsub.mem hmem, hname, hneeds⟩

theorem Installed.performAll (settings : PluginSettings) (h : Installed isupper st.packages)
    (ops : List PluginOp) :
    Installed isupper (Plugin.performAll isupper settings st ops).packages := by
  induction ops generalizing st with
  | nil => exact h
  | cons op rest ih => exact ih (h.sublist (perform_packages isupper settings st op))

/--
After any operations, the plugins start well when every enabled plugin has routes, and each
plugin with routes depends on installed plugins with routes that are enabled if it is.
-/
theorem plugins_start_iff (isupper : Text -> Bool) (settings : PluginSettings) (st : PluginState)
    (h : Installed isupper st.packages) (ops : List PluginOp) :
    StartsWell isupper (performAll isupper settings st ops) ↔
      Ready (performAll isupper settings st ops) := by
  constructor
  · exact ready_of_startsWell (h.performAll settings ops)
  · exact startsWell_of_ready (h.performAll settings ops)

/-!
# Samples

The plugin `a` needs the plugin `b`, and `c` needs nothing.
-/

def appPackage (name : String) (dependsOn : List String) : PluginPackage where
  name := name.toList
  config := [
    ("plugin".toList, .table [
      ("summary".toList, .str "s".toList), ("version".toList, .str "0.0.1".toList),
      ("description".toList, .str "d".toList), ("author".toList, .str "a".toList),
      ("tags".toList, .arr [.str "other".toList]),
      ("database".toList, .arr [.str "mysql".toList]),
      ("depends_on".toList, .arr (dependsOn.map fun dep => .str dep.toList))]),
    ("app".toList, .table [("router".toList, .arr [.str "v1".toList])])]
  files := ⟨false, []⟩

def noUpper : Text -> Bool :=
  fun _ => false

def devSettings : PluginSettings where
  dev := true
  pluginRequired := ["dict".toList]
  rbacRoleMenuMode := true

def samplePackages : List PluginPackage :=
  [appPackage "a" ["b"], appPackage "b" [], appPackage "c" []]

theorem installed_sample : Installed noUpper samplePackages := by
  constructor
  · decide
  · have haccepted : samplePackages.all (fun package => match validatePluginConfig noUpper
        package.name package.config package.files with
        | .ok _ => true
        | .error _ => false) = true := by
      decide +kernel
    intro package hmem
    have hone := List.all_eq_true.mp haccepted package hmem
    split at hone
    · rename_i level hlevel
      exact ⟨level, hlevel⟩
    · cases hone
  · apply Forest.acyclic_of_rank fun name => if name = "a".toList then 1 else 0
    intro x y hedge
    rcases hedge with ⟨package, hmem, rfl, hneeds⟩
    revert y
    revert package
    decide +kernel

def sampleState : PluginState :=
  (start noUpper ⟨samplePackages, fun _ => none⟩).1

theorem installed_sampleState : Installed noUpper sampleState.packages := by
  rw [sampleState, start_packages]
  exact installed_sample

/-- The plugin that needs another is disabled, and a third one is uninstalled. -/
theorem plugins_start_sample :
    (Installed noUpper sampleState.packages ∧ (performAll noUpper devSettings sampleState
      [.updateStatus "a".toList, .uninstall "c".toList]).packages.length = 2) ∧
    StartsWell noUpper (performAll noUpper devSettings sampleState
      [.updateStatus "a".toList, .uninstall "c".toList]) := by
  constructor
  · exact ⟨installed_sampleState, by decide +kernel⟩
  · apply (plugins_start_iff noUpper devSettings sampleState installed_sampleState _).mpr
    constructor
    · decide +kernel
    · decide +kernel
    · decide +kernel

/-- Two plugins are installed, one needs the other, and the other is disabled. -/
theorem plugins_start_fails : ¬ forall (isupper : Text -> Bool) (settings : PluginSettings)
    (st : PluginState), Installed isupper st.packages ->
      (forall package, package ∈ st.packages -> forall name, name ∈ package.needs ->
        name ∈ st.names) ->
      forall ops, PluginOp.start ∉ ops ->
        StartsWell isupper (performAll isupper settings st ops) := by
  intro h
  have hwell := h noUpper devSettings sampleState installed_sampleState (by decide +kernel)
    [.updateStatus "b".toList] (by decide)
  have hready := ready_of_startsWell (installed_sampleState.performAll devSettings _) hwell
  have hneeds : forall package, package ∈ (performAll noUpper devSettings sampleState
      [.updateStatus "b".toList]).packages -> package.name = "a".toList ->
        package.routed = true ∧ "b".toList ∈ package.needs := by
    decide +kernel
  have hin : exists package, package ∈ (performAll noUpper devSettings sampleState
      [.updateStatus "b".toList]).packages ∧ package.name = "a".toList := by
    decide +kernel
  rcases hin with ⟨package, hmem, hname⟩
  rcases hneeds package hmem hname with ⟨hroutes, hneed⟩
  rcases hready.dependencies package hmem hroutes _ hneed with ⟨-, -, -, -, henabled⟩
  rw [hname] at henabled
  exact absurd (henabled (by decide +kernel)) (by decide +kernel)

end Plugin
end RagService
