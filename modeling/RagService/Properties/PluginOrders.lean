import RagService.Properties.PluginStarts

/-!
# The order of plugins

Plugins with names of their own are put in order exactly when every plugin that one depends on
is there and no plugin depends on itself in the end.  What is reported otherwise is so.
-/

namespace RagService
namespace Plugin

open Dependencies

section

variable {plugins : List PluginEntry}

def DependsOnPlugin (plugins : List PluginEntry) (a b : Text) : Prop :=
  exists plugin, plugin ∈ plugins ∧ plugin.name = a ∧ b ∈ plugin.dependsOn.getD []

def IsDependencyCycle (plugins : List PluginEntry) (path : List Text) : Prop :=
  exists name between, path = name :: between ++ [name] ∧ path.IsChain (DependsOnPlugin plugins)

/-- The error is about something that the plugins have. -/
inductive ReportsPlugins (plugins : List PluginEntry) : PluginConfigError -> Prop where
  | cycle {path : List Text} (h : IsDependencyCycle plugins path) :
      ReportsPlugins plugins (.cycle path)
  | missing {plugin dependency : Text} (needed : DependsOnPlugin plugins plugin dependency)
      (absent : dependency ∉ plugins.map PluginEntry.name) :
      ReportsPlugins plugins (.missingDependency plugin dependency)

theorem reportsPlugins_of_explains {failure : Failure Text}
    (h : (pluginGraph plugins).Explains plugins failure) :
    ReportsPlugins plugins (orderError failure) := by
  cases h with
  | cycle hcycle => exact .cycle hcycle
  | missing needed absent => exact .missing needed absent

theorem resolvePluginOrder_eq_ok {ordered : List PluginEntry} :
    resolvePluginOrder plugins = .ok ordered ↔ (pluginGraph plugins).order plugins = .ok ordered := by
  unfold resolvePluginOrder
  cases (pluginGraph plugins).order plugins with
  | error failure => exact ⟨nofun, nofun⟩
  | ok found => exact ⟨fun h => congrArg Except.ok (Except.ok.inj h),
      fun h => congrArg Except.ok (Except.ok.inj h)⟩

theorem resolvePluginOrder_eq_error {e : PluginConfigError} :
    resolvePluginOrder plugins = .error e ↔
      exists failure, (pluginGraph plugins).order plugins = .error failure ∧
        orderError failure = e := by
  unfold resolvePluginOrder
  cases (pluginGraph plugins).order plugins with
  | error failure =>
      constructor
      · intro h
        exact ⟨failure, rfl, Except.error.inj h⟩
      · intro h
        rcases h with ⟨failure', hfailure, rfl⟩
        rw [Except.error.inj hfailure]
  | ok found =>
      constructor
      · nofun
      · intro h
        rcases h with ⟨failure, hfailure, _⟩
        cases hfailure

/--
An order is not found exactly when a dependency is missing or there is a cycle, and then the
error reports one of these; an order has each plugin once, after the plugins it depends on.
-/
theorem resolvePluginOrder_sorts (hnames : (plugins.map PluginEntry.name).Nodup) :
    ((exists e, resolvePluginOrder plugins = .error e) ↔
      (exists plugin, plugin ∈ plugins ∧ exists dependency,
        dependency ∈ plugin.dependsOn.getD [] ∧ dependency ∉ plugins.map PluginEntry.name) ∨
      exists name, Relation.TransGen (DependsOnPlugin plugins) name name) ∧
    (forall e, resolvePluginOrder plugins = .error e -> ReportsPlugins plugins e) ∧
    (forall ordered, resolvePluginOrder plugins = .ok ordered ->
      ordered.Perm plugins ∧
        forall before plugin after, ordered = before ++ plugin :: after ->
          forall dependency, dependency ∈ plugin.dependsOn.getD [] ->
            dependency ∈ before.map PluginEntry.name) := by
  have hindexed := indexed hnames
  refine ⟨?_, ?_, ?_⟩
  · rw [show (exists e, resolvePluginOrder plugins = .error e) ↔
        exists failure, (pluginGraph plugins).order plugins = .error failure from ?_]
    · exact order_error_iff hindexed
    · constructor
      · intro h
        rcases h with ⟨e, he⟩
        rcases resolvePluginOrder_eq_error.mp he with ⟨failure, hfailure, _⟩
        exact ⟨failure, hfailure⟩
      · intro h
        rcases h with ⟨failure, hfailure⟩
        exact ⟨_, resolvePluginOrder_eq_error.mpr ⟨failure, hfailure, rfl⟩⟩
  · intro e he
    rcases resolvePluginOrder_eq_error.mp he with ⟨failure, hfailure, rfl⟩
    exact reportsPlugins_of_explains (order_error hindexed hfailure)
  · intro ordered hordered
    exact order_spec hindexed (resolvePluginOrder_eq_ok.mp hordered)

end

def twoPlugins : List PluginEntry :=
  [⟨"a".toList, some ["b".toList], none, none, none⟩, ⟨"b".toList, none, none, none, none⟩]

theorem resolvePluginOrder_sorts_two :
    ((exists e, resolvePluginOrder twoPlugins = .error e) ↔
      (exists plugin, plugin ∈ twoPlugins ∧ exists dependency,
        dependency ∈ plugin.dependsOn.getD [] ∧ dependency ∉ twoPlugins.map PluginEntry.name) ∨
      exists name, Relation.TransGen (DependsOnPlugin twoPlugins) name name) ∧
    (forall e, resolvePluginOrder twoPlugins = .error e -> ReportsPlugins twoPlugins e) ∧
    (forall ordered, resolvePluginOrder twoPlugins = .ok ordered ->
      ordered.Perm twoPlugins ∧
        forall before plugin after, ordered = before ++ plugin :: after ->
          forall dependency, dependency ∈ plugin.dependsOn.getD [] ->
            dependency ∈ before.map PluginEntry.name) :=
  resolvePluginOrder_sorts (by decide)

/-- Two plugins that depend on each other are reported in a cycle. -/
example : resolvePluginOrder [⟨"a".toList, some ["b".toList], none, none, none⟩,
    ⟨"b".toList, some ["a".toList], none, none, none⟩] =
      .error (.cycle ["a".toList, "b".toList, "a".toList]) := by
  rfl

end Plugin
end RagService
