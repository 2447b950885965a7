import RagService.Plugin.Hooks
import RagService.Properties.PluginOrders

/-!
# Lives of the application

A plugin starts after every plugin that it depends on, directly or through others, and after
the core, and stops before them, however the start or the stop goes.
-/

namespace RagService
namespace Plugin

open Dependencies ExitStack

variable {ι Exn : Type}

/-!
# Registration

A hook of its own comes after those that are registered before its plugin.
-/

def HasLifespan (modules : Text -> Option (HookModule ι Exn)) (plugin : Text) (f : ι) : Prop :=
  exists module, modules plugin = some module ∧ module.lifespan = .callable f

section

variable [DecidableEq ι] {str : Exn -> Text} {f g : ι} {m m' : LifespanManager ι}
variable {hooked rest : List (Text × HookModule ι Exn)} {module : HookModule ι Exn}

theorem mem_hooks_of_module (h : g ∈ (registerPluginLifespanHook m module).hooks) :
    g ∈ m.hooks ∨ module.lifespan = .callable g := by
  unfold registerPluginLifespanHook at h
  split at h
  · rename_i hook hhook
    cases LifespanManager.mem_hooks_register.mp h with
    | inl hold => exact .inl hold
    | inr hnew =>
        rw [hnew]
        exact .inr hhook
  · exact .inl h
  · exact .inl h

theorem sublist_of_module (m : LifespanManager ι) (module : HookModule ι Exn) :
    m.hooks.Sublist (registerPluginLifespanHook m module).hooks := by
  unfold registerPluginLifespanHook
  split
  · exact LifespanManager.sublist_hooks_register m _ _
  · exact .refl _
  · exact .refl _

structure Registered (m : LifespanManager ι) : Prop where
  nodup : m.hooks.Nodup
  tail : m.tail = []

theorem registered_core (registerInit : ι) : Registered (coreLifespans registerInit) := by
  constructor
  · exact LifespanManager.nodup_hooks_register List.nodup_nil
  · rfl

theorem Registered.withModule (h : Registered m) (module : HookModule ι Exn) :
    Registered (registerPluginLifespanHook m module) := by
  unfold registerPluginLifespanHook
  split
  · constructor
    · exact LifespanManager.nodup_hooks_register h.nodup
    · rw [LifespanManager.tail_register_plugin]
      exact h.tail
  · exact h
  · exact h

theorem runSetupHooks_cons {plugin : Text} :
    runSetupHooks str ((plugin, module) :: rest) m = .ok m' ↔
      runPluginSetupHook module = .ok () ∧
        runSetupHooks str rest (registerPluginLifespanHook m module) = .ok m' := by
  rw [runSetupHooks]
  split
  · rename_i e he
    rw [he]
    constructor
    · nofun
    · intro h
      cases h.1
  · rename_i hok
    exact ⟨fun h => ⟨hok, h⟩, And.right⟩

theorem runSetupHooks_append (h : runSetupHooks str (hooked ++ rest) m = .ok m') :
    exists mid, runSetupHooks str hooked m = .ok mid ∧ runSetupHooks str rest mid = .ok m' := by
  induction hooked generalizing m with
  | nil => exact ⟨m, rfl, h⟩
  | cons p hooked ih =>
      rcases p with ⟨plugin, module⟩
      rw [List.cons_append] at h
      rcases runSetupHooks_cons.mp h with ⟨hsetup, hrest⟩
      rcases ih hrest with ⟨mid, hmid, hlast⟩
      exact ⟨mid, runSetupHooks_cons.mpr ⟨hsetup, hmid⟩, hlast⟩

structure Extends (hooked : List (Text × HookModule ι Exn)) (m m' : LifespanManager ι) : Prop where
  registered : Registered m'
  sublist : m.hooks.Sublist m'.hooks
  old : forall f, f ∈ m'.hooks -> f ∈ m.hooks ∨ exists p, p ∈ hooked ∧ p.2.lifespan = .callable f
  new : forall p f, p ∈ hooked -> p.2.lifespan = .callable f -> f ∈ m'.hooks

theorem extends_of_runSetupHooks (hm : Registered m) (h : runSetupHooks str hooked m = .ok m') :
    Extends hooked m m' := by
  induction hooked generalizing m with
  | nil =>
      cases h
      exact ⟨hm, .refl _, fun f hf => .inl hf, nofun⟩
  | cons p rest ih =>
      rcases p with ⟨plugin, module⟩
      have hrest := ih (hm.withModule module) (runSetupHooks_cons.mp h).2
      constructor
      · exact hrest.registered
      · exact (sublist_of_module m module).trans hrest.sublist
      · intro f hf
        rcases hrest.old f hf with hold | ⟨p, hp, hlifespan⟩
        · cases mem_hooks_of_module hold with
          | inl hold => exact .inl hold
          | inr hnew => exact .inr ⟨(plugin, module), List.mem_cons_self, hnew⟩
        · exact .inr ⟨p, List.mem_cons_of_mem _ hp, hlifespan⟩
      · intro p f hp hlifespan
        cases List.mem_cons.mp hp with
        | inl heq =>
            subst heq
            apply hrest.sublist.subset
            have hmodule : registerPluginLifespanHook m module = m.register f .plugin := by
              unfold registerPluginLifespanHook
              rw [show module.lifespan = .callable f from hlifespan]
            rw [hmodule]
            exact LifespanManager.mem_hooks_register.mpr (.inr rfl)
        | inr hp => exact hrest.new p f hp hlifespan

theorem sublist_of_runSetupHooks {plugin : Text} (hm : Registered m)
    (h : runSetupHooks str (hooked ++ (plugin, module) :: rest) m = .ok m')
    (hf : module.lifespan = .callable f) (hcore : f ∉ m.hooks)
    (hown : forall p, p ∈ hooked -> p.2.lifespan ≠ .callable f)
    (hg : g ∈ m.hooks ∨ exists p, p ∈ hooked ∧ p.2.lifespan = .callable g) :
    [g, f].Sublist m'.hooks := by
  rcases runSetupHooks_append h with ⟨mid, hmid, hlast⟩
  have hbefore := extends_of_runSetupHooks hm hmid
  have hafter := extends_of_runSetupHooks (hbefore.registered.withModule module)
    (runSetupHooks_cons.mp hlast).2
  have hgmid : g ∈ mid.hooks := by
    rcases hg with hg | ⟨p, hp, hlifespan⟩
    · exact hbefore.sublist.subset hg
    · exact hbefore.new p g hp hlifespan
  have hfmid : f ∉ mid.hooks := by
    intro hin
    rcases hbefore.old f hin with hold | ⟨p, hp, hlifespan⟩
    · exact hcore hold
    · exact hown p hp hlifespan
  have hmodule : registerPluginLifespanHook mid module = mid.register f .plugin := by
    unfold registerPluginLifespanHook
    rw [hf]
  have hpair := LifespanManager.sublist_register_plugin hbefore.registered.tail hfmid hgmid
  rw [← hmodule] at hpair
  exact hpair.trans hafter.sublist

end

/-!
# The order of dependencies

What a plugin needs in the end comes before it.
-/

section

variable {isupper : Text -> Bool} {packages : List PluginPackage} {st st' : PluginState}
variable {redis redis' : Text -> Option CachedInfo} {extendPlugins appPlugins : List PluginEntry}
variable {ordered : List PluginEntry}

theorem names_of_parsePlugins
    (h : parsePlugins isupper packages redis = (redis', .ok (extendPlugins, appPlugins))) :
    ((extendPlugins ++ appPlugins).map PluginEntry.name).Subperm
      (packages.map PluginPackage.name) := by
  induction packages generalizing redis redis' extendPlugins appPlugins with
  | nil =>
      cases h
      exact .refl _
  | cons package rest ih =>
      unfold parsePlugins at h
      split at h
      · cases h
      · rename_i level hlevel
        split at h
        · cases h
        · split at h
          · cases h
          · rename_i redis₁ exts apps hrest
            have hsub := ih hrest
            cases level with
            | extend =>
                cases h
                exact (List.subperm_cons package.name).mpr hsub
            | app =>
                cases h
                have hperm : ((extendPlugins ++ package.appEntry :: apps).map
                    PluginEntry.name).Perm
                    (package.name :: (extendPlugins ++ apps).map PluginEntry.name) :=
                  List.perm_middle.map PluginEntry.name
                exact hperm.subperm.trans ((List.subperm_cons package.name).mpr hsub)
            | capability =>
                cases h
                exact hsub.cons_right package.name

theorem getOrderedEnabledPlugins_spec (hnames : (st.packages.map PluginPackage.name).Nodup)
    (h : getOrderedEnabledPlugins isupper st = (st', .ok ordered)) :
    (ordered.map PluginEntry.name).Nodup ∧
      forall before plugin after, ordered = before ++ plugin :: after ->
        forall name, name ∈ plugin.dependsOn.getD [] -> name ∈ before.map PluginEntry.name := by
  unfold getOrderedEnabledPlugins parsePluginConfig at h
  dsimp only at h
  split at h
  · cases h
  · rename_i st₁ extendPlugins appPlugins hparsed
    split at hparsed
    · cases hparsed
    · rename_i redis' entries hentries
      cases hparsed
      rcases names_of_parsePlugins hentries with ⟨names, hperm, hsub⟩
      have hkept := (hperm.nodup_iff.mp (hnames.sublist hsub)).sublist
        ((List.filter_sublist (p := fun plugin =>
          decide (plugin.name ∈ st.getEnabledPlugins))).map PluginEntry.name)
      rcases order_spec (indexed hkept) (resolved_eq_ok.mp (Prod.mk.inj h).2)
        with ⟨horder, hfirst⟩
      exact ⟨(horder.map PluginEntry.name).nodup_iff.mpr hkept, hfirst⟩

theorem needs_before (hnodup : (ordered.map PluginEntry.name).Nodup)
    (hfirst : forall before plugin after, ordered = before ++ plugin :: after ->
      forall name, name ∈ plugin.dependsOn.getD [] -> name ∈ before.map PluginEntry.name)
    {a b : Text} (h : Relation.TransGen (DependsOnPlugin ordered) a b) :
    forall before plugin after, ordered = before ++ plugin :: after -> plugin.name = a ->
      b ∈ before.map PluginEntry.name := by
  have hdirect : forall {a b : Text}, DependsOnPlugin ordered a b ->
      forall before plugin after, ordered = before ++ plugin :: after -> plugin.name = a ->
        b ∈ before.map PluginEntry.name := by
    intro a b hab before plugin after heq hname
    rcases hab with ⟨plugin', hmem, hname', hneeds⟩
    have hplugin : plugin ∈ ordered := by
      rw [heq]
      exact List.mem_append_right _ List.mem_cons_self
    have hsame := List.inj_on_of_nodup_map hnodup hmem hplugin (hname'.trans hname.symm)
    rw [hsame] at hneeds
    exact hfirst before plugin after heq b hneeds
  induction h using Relation.TransGen.head_induction_on with
  | single hab => exact hdirect hab
  | head hab _ ih =>
      intro before plugin after heq hname
      rcases List.mem_map.mp (hdirect hab before plugin after heq hname) with ⟨q, hq, hqname⟩
      rcases List.mem_iff_append.mp hq with ⟨first, second, rfl⟩
      have hin := ih first q (second ++ plugin :: after) (by rw [heq]; simp) hqname
      rw [List.map_append]
      exact List.mem_append_left _ hin

end

/-!
# Lives
-/

section

variable {modules : Text -> Option (HookModule ι Exn)} {plugins : List PluginEntry}
variable {p : Text × HookModule ι Exn}

theorem mem_getPluginHookModules : p ∈ getPluginHookModules modules plugins ↔
    exists plugin, plugin ∈ plugins ∧ modules plugin.name = some p.2 ∧ plugin.name = p.1 := by
  unfold getPluginHookModules
  rw [List.mem_filterMap]
  constructor
  · intro h
    rcases h with ⟨plugin, hmem, hmap⟩
    rcases Option.map_eq_some_iff.mp hmap with ⟨module, hmodule, rfl⟩
    exact ⟨plugin, hmem, hmodule, rfl⟩
  · intro h
    rcases h with ⟨plugin, hmem, hmodule, hname⟩
    refine ⟨plugin, hmem, ?_⟩
    rw [hmodule, hname]
    rfl

variable [DecidableEq ι] {isupper : Text -> Bool} {str : Exn -> Text} {st st' : PluginState}
variable {ordered : List PluginEntry} {m m' : LifespanManager ι}

theorem runSetupHooks_of_registerPluginHooks
    (hordered : getOrderedEnabledPlugins isupper st = (st', .ok ordered))
    (h : registerPluginHooks isupper str modules st m = (st', .ok m')) :
    runSetupHooks str (getPluginHookModules modules ordered) m = .ok m' := by
  unfold registerPluginHooks at h
  rw [hordered] at h
  exact (Prod.mk.inj h).2

end

/--
However the lifespans of the core and of the enabled plugins behave when they are entered and
left, each is entered and left at most once, each that was entered is left, and requests are
served after all have been entered and before any is left.  The lifespan of a plugin that has one of its own is inside that of
the core and those of all plugins that it needs, directly or through others.
-/
theorem plugins_live_inside_dependencies [DecidableEq ι] {Value : Type}
    (isupper : Text -> Bool) (str : Exn -> Text) (modules : Text -> Option (HookModule ι Exn))
    (registerInit : ι) {st st' : PluginState} (hnames : (st.packages.map PluginPackage.name).Nodup)
    {ordered : List PluginEntry}
    (hordered : getOrderedEnabledPlugins isupper st = (st', .ok ordered)) {m : LifespanManager ι}
    (hstart : registerPluginHooks isupper str modules st (coreLifespans registerInit) =
      (st', .ok m))
    (contexts : ι -> Context Exn (Option (Dict Text Value))) (didNotYield : Exn)
    (body : Option Exn) {events : List (Event ι)}
    (hevents : (m.live contexts didNotYield body).events = events) :
    events.Nodup ∧
      (forall f, .exited f ∈ events ↔ .entered f ∈ events) ∧
      (forall pre post, events = pre ++ .served :: post -> forall f,
        f = registerInit ∨
            (exists plugin, plugin ∈ ordered ∧ HasLifespan modules plugin.name f) ->
          .entered f ∈ pre ∧ .exited f ∈ post) ∧
      forall plugin f, plugin ∈ ordered -> HasLifespan modules plugin.name f ->
        f ≠ registerInit ->
          (forall other, other ∈ ordered -> HasLifespan modules other.name f -> other = plugin) ->
          Nested events registerInit f ∧
            forall name g, Relation.TransGen (DependsOnPlugin ordered) plugin.name name ->
              HasLifespan modules name g -> Nested events g f := by
  subst hevents
  have hbrackets := m.brackets_live contexts didNotYield body
  rcases getOrderedEnabledPlugins_spec hnames hordered with ⟨hnodup, hfirst⟩
  have hrun := runSetupHooks_of_registerPluginHooks hordered hstart
  have hcore := registered_core registerInit
  have hall := extends_of_runSetupHooks hcore hrun
  have hregistered : forall f, f = registerInit ∨
      (exists plugin, plugin ∈ ordered ∧ HasLifespan modules plugin.name f) -> f ∈ m.hooks := by
    intro f hf
    rcases hf with rfl | ⟨plugin, hplugin, module, hmodule, hlifespan⟩
    · exact hall.sublist.subset (LifespanManager.mem_hooks_register.mpr (.inr rfl))
    · exact hall.new (plugin.name, module) f
        (mem_getPluginHookModules.mpr ⟨plugin, hplugin, hmodule, rfl⟩) hlifespan
  refine ⟨hbrackets.nodup hall.registered.nodup, fun f => hbrackets.exited_iff, ?_, ?_⟩
  · intro pre post hserved f hf
    exact hbrackets.served_inside hserved (hregistered f hf)
  intro plugin f hplugin hf hinit hown
  rcases hf with ⟨module, hmodule, hlifespan⟩
  rcases List.mem_iff_append.mp hplugin with ⟨before, after, rfl⟩
  have hsplit : getPluginHookModules modules (before ++ plugin :: after) =
      getPluginHookModules modules before ++ (plugin.name, module) ::
        getPluginHookModules modules after := by
    simp [getPluginHookModules, hmodule]
  rw [hsplit] at hrun
  have hinside : forall g, g ∈ (coreLifespans registerInit).hooks ∨
      (exists p, p ∈ getPluginHookModules modules before ∧ p.2.lifespan = .callable g) ->
        Nested (m.live contexts didNotYield body).events g f := by
    intro g hg
    apply hbrackets.nested hall.registered.nodup
    refine sublist_of_runSetupHooks hcore hrun hlifespan ?_ ?_ hg
    · intro hin
      cases LifespanManager.mem_hooks_register.mp hin with
      | inl hnone => cases hnone
      | inr heq => exact hinit heq
    · intro p hp hsame
      rcases mem_getPluginHookModules.mp hp with ⟨other, hother, hmodule', -⟩
      have heq := hown other (List.mem_append_left _ hother) ⟨p.2, hmodule', hsame⟩
      rw [List.map_append] at hnodup
      have hapart := List.disjoint_of_nodup_append hnodup
      rw [heq] at hother
      exact hapart (List.mem_map_of_mem hother) List.mem_cons_self
  constructor
  · exact hinside registerInit (.inl (LifespanManager.mem_hooks_register.mpr (.inr rfl)))
  · intro name g hneeds hg
    rcases hg with ⟨dependency, hdependency, hlifespan'⟩
    rcases List.mem_map.mp (needs_before hnodup hfirst hneeds before plugin after rfl rfl)
      with ⟨other, hother, hname⟩
    rw [← hname] at hdependency
    exact hinside g (.inr ⟨(other.name, dependency),
      mem_getPluginHookModules.mpr ⟨other, hother, hdependency, rfl⟩, hlifespan'⟩)

/-!
# Samples

Two plugins have lifespans of their own, which raise when they are left, and the third one has
no module.
-/

def sampleModules (plugin : Text) : Option (HookModule Text Text) :=
  if plugin = "c".toList then none else some ⟨.callable plugin, .missing⟩

def sampleContexts (f : Text) : Context Text (Option (Dict Text Nat)) :=
  ⟨.ok none, fun _ => .error f⟩

theorem sample_needs : (getOrderedEnabledPlugins noUpper sampleState).2.toOption.any
    (fun ordered => ordered.any fun plugin => plugin.name = "a".toList &&
      "b".toList ∈ plugin.dependsOn.getD []) = true := by
  decide +kernel

theorem sample_registers : (registerPluginHooks noUpper id sampleModules sampleState
    (coreLifespans "init".toList)).2.toOption.isSome = true := by
  decide +kernel

/-- One plugin needs the other. -/
theorem plugins_live_inside_dependencies_sample : exists st' ordered m,
    getOrderedEnabledPlugins noUpper sampleState = (st', .ok ordered) ∧
      registerPluginHooks noUpper id sampleModules sampleState (coreLifespans "init".toList) =
        (st', .ok m) ∧
      Nested (m.live sampleContexts "RuntimeError".toList none).events "b".toList "a".toList := by
  have hneeds := sample_needs
  have hregisters := sample_registers
  unfold registerPluginHooks at hregisters
  rcases hordered : getOrderedEnabledPlugins noUpper sampleState with ⟨st', out⟩
  rw [hordered] at hneeds hregisters
  cases out with
  | error e => cases hneeds
  | ok ordered =>
      rcases Option.isSome_iff_exists.mp hregisters with ⟨m, hm⟩
      have hstart : registerPluginHooks noUpper id sampleModules sampleState
          (coreLifespans "init".toList) = (st', .ok m) := by
        unfold registerPluginHooks
        rw [hordered]
        dsimp only at hm ⊢
        cases hrun : runSetupHooks id (getPluginHookModules sampleModules ordered)
            (coreLifespans "init".toList) with
        | error e =>
            rw [hrun] at hm
            cases hm
        | ok m' =>
            rw [hrun] at hm
            cases hm
            rfl
      rcases List.any_eq_true.mp hneeds with ⟨plugin, hplugin, hboth⟩
      rcases (Bool.and_eq_true _ _).mp hboth with ⟨hname, hb⟩
      have hname := of_decide_eq_true hname
      have hnames := installed_sampleState.names
      have hnested := (plugins_live_inside_dependencies noUpper id sampleModules "init".toList
        hnames hordered hstart sampleContexts "RuntimeError".toList none rfl).2.2.2 plugin
        "a".toList hplugin ⟨⟨.callable "a".toList, .missing⟩, by rw [hname]; rfl, rfl⟩
      refine ⟨st', ordered, m, rfl, hstart, ?_⟩
      refine (hnested (by decide) ?_).2 "b".toList "b".toList (.single ?_) ?_
      · intro other hother hlifespan
        rcases hlifespan with ⟨module, hmodule, hcallable⟩
        unfold sampleModules at hmodule
        split at hmodule
        · cases hmodule
        · cases hmodule
          exact List.inj_on_of_nodup_map (getOrderedEnabledPlugins_spec hnames hordered).1 hother
            hplugin ((HookAttr.callable.inj hcallable).trans hname.symm)
      · exact ⟨plugin, hplugin, rfl, of_decide_eq_true hb⟩
      · exact ⟨⟨.callable "b".toList, .missing⟩, rfl, rfl⟩

end Plugin
end RagService
