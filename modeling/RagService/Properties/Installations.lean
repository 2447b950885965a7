import RagService.Plugin.Installer

/-!
# Failed installations

The installers write the directory of a plugin first and do not take it back: an installation
that raises leaves the system as it was exactly when it raises before it writes.
-/

namespace RagService
namespace Installer

open Text

variable {o : Outcomes} {s : System} {name : Text} {files : Files}

/-!
# What a failed installation should keep

Once the directory is written, the system is kept only if the installation succeeds.
-/

/-- There is no directory that was not there before, and `.env` is as it was. -/
structure Unchanged (before after : System) : Prop where
  dirs : forall name files, after.entries.get name = some (.dir files) ->
    exists old, before.entries.get name = some (.dir old)
  env : after.env = before.env

def AlreadyInstalled (result : Except InstallError Text) : Prop :=
  exists msg, result = .error (.conflict msg)

/--
When the installation raises, the system is unchanged, and another attempt is not rejected as
already installed unless it would have been before.
-/
def Kept (install : Outcomes -> System -> System × Except InstallError Text) (o : Outcomes)
    (s : System) : Prop :=
  forall e, (install o s).2 = .error e ->
    Unchanged s (install o s).1 ∧
    forall again, AlreadyInstalled (install again (install o s).1).2 ->
      AlreadyInstalled (install again s).2

theorem Unchanged.refl (s : System) : Unchanged s s where
  dirs := fun _ files h => ⟨files, h⟩
  env := rfl

section Keeping

variable {install : Outcomes -> System -> System × Except InstallError Text}

theorem kept_of_same (h : (install o s).1 = s) : Kept install o s := by
  intro e _
  rw [h]
  exact ⟨Unchanged.refl s, fun again hagain => hagain⟩

theorem get_eq_none_of_not_exists (h : s.exists name = false) : s.entries.get name = none := by
  unfold System.exists at h
  rw [Bool.or_eq_false_iff] at h
  exact Option.isNone_iff_eq_none.mp (Option.isSome_eq_false_iff.mp h.2)

theorem kept_iff_of_added (hnew : s.exists name = false)
    (hadded : (install o s).1.entries = s.entries.set name (.dir files)) :
    Kept install o s ↔ exists installed, (install o s).2 = .ok installed := by
  constructor
  · intro hkept
    cases hresult : (install o s).2 with
    | ok installed => exact ⟨installed, rfl⟩
    | error e =>
        have hdir : (install o s).1.entries.get name = some (.dir files) := by
          rw [hadded, Dict.get_set, if_pos rfl]
        rcases (hkept e hresult).1.dirs name files hdir with ⟨old, hold⟩
        rw [get_eq_none_of_not_exists hnew] at hold
        cases hold
  · intro hok e he
    rcases hok with ⟨installed, hinstalled⟩
    rw [hinstalled] at he
    cases he

end Keeping

/-!
# The steps after the directory is written

With the lock taken the block decides the state, and releasing the lock may still raise.
-/

/-- The example can be read, and there is nothing in it or `.env` can be read and written. -/
def Appendable (o : Outcomes) (files : Files) (env : Option Bytes) : Prop :=
  match files.get envExample with
  | none => (files.any fun (path, _) => (envExample ++ ['/']).isPrefixOf path) = false
  | some content =>
      exists text, readText o.readExample content = .ok text ∧
        (strip text ≠ [] ->
          (exists old, existingContent o env = .ok old) ∧ o.openEnv = none ∧ o.writeEnv = none)

structure Finishes (o : Outcomes) (files : Files) (env : Option Bytes) : Prop where
  appendable : Appendable o files env
  requirements : o.installRequirements = none
  changed : o.setChanged = none
  release : o.release = none

theorem appendEnvExample_ok_iff (o : Outcomes) (files : Files) (env : Option Bytes) :
    (exists u, (appendEnvExample o files env).2 = .ok u) ↔ Appendable o files env := by
  unfold appendEnvExample Appendable
  cases files.get envExample with
  | none =>
      dsimp only
      split
      · rename_i hdir
        simp [hdir]
      · rename_i hdir
        simp [hdir]
  | some content =>
      dsimp only
      cases readText o.readExample content with
      | error e => simp
      | ok text =>
          dsimp only
          split
          · rename_i hblank
            simp [hblank]
          · rename_i hblank
            cases existingContent o env with
            | error e => simp [hblank]
            | ok old =>
                dsimp only
                cases o.openEnv with
                | some msg => simp [hblank]
                | none =>
                    cases o.writeEnv with
                    | some failure => simp [hblank]
                    | none => simp

theorem attempt_none (s : System) (rest : System × Except InstallError Text) :
    attempt none s rest = rest :=
  rfl

theorem finishInstall_entries (o : Outcomes) (name : Text) (files : Files) (s : System) :
    (finishInstall o name files s).1.entries = s.entries := by
  unfold finishInstall
  rcases appendEnvExample o files s.env with ⟨env, result⟩
  cases result with
  | error e => rfl
  | ok u =>
      cases o.installRequirements with
      | some msg => rfl
      | none =>
          cases o.setChanged with
          | some msg => rfl
          | none => rfl

theorem finishInstall_ok_iff (o : Outcomes) (name : Text) (files : Files) (s : System) :
    (exists installed, (finishInstall o name files s).2 = .ok installed) ↔
      Appendable o files s.env ∧ o.installRequirements = none ∧ o.setChanged = none := by
  rw [← appendEnvExample_ok_iff]
  unfold finishInstall
  rcases appendEnvExample o files s.env with ⟨env, result⟩
  cases result with
  | error e => simp
  | ok u =>
      cases o.installRequirements with
      | some msg => simp [attempt]
      | none =>
          cases o.setChanged with
          | some msg => simp [attempt]
          | none => simp [attempt]

theorem finishInstall_name {installed : Text}
    (h : (finishInstall o name files s).2 = .ok installed) : installed = name := by
  unfold finishInstall at h
  rcases happend : appendEnvExample o files s.env with ⟨env, result⟩
  rw [happend] at h
  cases result with
  | error e => cases h
  | ok u =>
      dsimp only at h
      cases hrequirements : o.installRequirements with
      | some msg =>
          rw [hrequirements] at h
          cases h
      | none =>
          cases hchanged : o.setChanged with
          | some msg =>
              rw [hrequirements, hchanged] at h
              cases h
          | none =>
              rw [hrequirements, hchanged] at h
              cases h
              rfl

theorem ok_of_withReloadLock {block : System × Except InstallError Text} {installed : Text}
    (h : (withReloadLock o s block).2 = .ok installed) : block.2 = .ok installed := by
  unfold withReloadLock at h
  cases hacquire : o.acquire with
  | some msg =>
      rw [hacquire] at h
      cases h
  | none =>
      cases hrelease : o.release with
      | some msg =>
          rw [hacquire, hrelease] at h
          cases h
      | none =>
          rw [hacquire, hrelease] at h
          exact h

theorem withReloadLock_of_acquired (hacquire : o.acquire = none)
    (block : System × Except InstallError Text) :
    (withReloadLock o s block).1 = block.1 ∧
      ((exists installed, (withReloadLock o s block).2 = .ok installed) ↔
        (exists installed, block.2 = .ok installed) ∧ o.release = none) := by
  unfold withReloadLock
  rw [hacquire, attempt_none]
  cases o.release with
  | some msg => exact ⟨rfl, by simp [attempt]⟩
  | none => exact ⟨rfl, by simp [attempt]⟩

/-!
# The checks of an archive

An archive is accepted when it is installable, with what is below its directory; the loop over
the members never raises.
-/

def below (pluginDirName : Text) (members : List Member) : List Member :=
  (members.filter fun member =>
    (pluginDirName ++ ['/']).isPrefixOf member.filename &&
      decide (member.filename ≠ pluginDirName ++ ['/'])).map fun member =>
    { member with filename := member.filename.drop (pluginDirName ++ ['/']).length }

/-- An archive with the necessary files, under the name of a plugin that is not there yet. -/
structure Installable (file : ArchiveFile) (members : List Member) (s : System)
    (pluginDirName name : Text) : Prop where
  first : exists first rest, members = first :: rest ∧
    pluginDirName = strip (first.filename.takeWhile (· ≠ '/'))
  named_dir : pluginDirName ≠ []
  three_lt : 3 < members.length
  toml : pluginDirName ++ "/plugin.toml".toList ∈ members.map Member.filename
  readme : pluginDirName ++ "/README.md".toList ∈ members.map Member.filename
  named : pluginName file = .ok name
  new : s.exists name = false

theorem selectMembers_eq (pluginDirName : Text) (members : List Member) :
    selectMembers pluginDirName members = .ok (below pluginDirName members) := by
  induction members with
  | nil => rfl
  | cons member rest ih =>
      unfold below at ih
      unfold selectMembers below
      dsimp only
      rw [List.filter_cons]
      by_cases hstarts : (pluginDirName ++ ['/']).isPrefixOf member.filename = true
      · rcases List.isPrefixOf_iff_prefix.mp hstarts with ⟨relative, hfilename⟩
        have hdir : member.filename ≠ pluginDirName := by
          intro heq
          have hlength := congrArg List.length (hfilename.trans heq)
          rw [List.length_append, List.length_append, List.length_singleton] at hlength
          omega
        by_cases hwhole : member.filename = pluginDirName ++ ['/']
        · rw [if_pos (.inr hwhole), ih, hwhole]
          simp
        · have hrelative : member.filename.drop (pluginDirName ++ ['/']).length ≠ [] := by
            intro hnil
            apply hwhole
            rw [← hfilename, List.drop_left] at hnil
            rw [← hfilename, hnil, List.append_nil]
          have hskip : ¬ (member.filename = pluginDirName ∨
              member.filename = pluginDirName ++ ['/']) := by
            intro h
            exact h.elim hdir hwhole
          rw [if_neg hskip, hstarts, if_neg (by simp), if_neg hrelative, ih,
            decide_eq_true hwhole, Bool.and_self, if_pos rfl, List.map_cons]
          rfl
      · rw [Bool.not_eq_true] at hstarts
        rw [hstarts, Bool.false_and, if_neg Bool.false_ne_true, ih, Bool.not_false, if_pos rfl,
          ite_self]

theorem mem_below {pluginDirName relative : Text} {content : Bytes} {members : List Member} :
    ⟨relative, content⟩ ∈ below pluginDirName members ↔
      relative ≠ [] ∧ ⟨pluginDirName ++ '/' :: relative, content⟩ ∈ members := by
  unfold below
  rw [List.mem_map]
  constructor
  · intro h
    rcases h with ⟨member, hmember, heq⟩
    rcases List.mem_filter.mp hmember with ⟨hin, hcond⟩
    rw [Bool.and_eq_true, decide_eq_true_eq] at hcond
    rcases List.isPrefixOf_iff_prefix.mp hcond.1 with ⟨tail, htail⟩
    rw [Member.mk.injEq, ← htail, List.drop_left] at heq
    rw [← heq.1, ← heq.2]
    constructor
    · intro hnil
      rw [hnil, List.append_nil] at htail
      exact hcond.2 htail.symm
    · rw [List.append_assoc, List.singleton_append] at htail
      rw [htail]
      exact hin
  · intro h
    refine ⟨_, List.mem_filter.mpr ⟨h.2, ?_⟩, ?_⟩
    · rw [Bool.and_eq_true, decide_eq_true_eq]
      constructor
      · rw [List.isPrefixOf_iff_prefix]
        exact ⟨relative, by rw [List.append_assoc, List.singleton_append]⟩
      · intro heq
        exact h.1 (List.cons.inj (List.append_cancel_left heq)).2
    · rw [Member.mk.injEq]
      refine ⟨?_, rfl⟩
      show (pluginDirName ++ ([ '/' ] ++ relative)).drop (pluginDirName ++ ['/']).length = relative
      rw [← List.append_assoc, List.drop_left]

theorem checkNames_ok_iff {members : List Member} {pluginDirName : Text} :
    checkNames members = .ok pluginDirName ↔
      (exists first rest, members = first :: rest ∧
        pluginDirName = strip (first.filename.takeWhile (· ≠ '/'))) ∧
      pluginDirName ≠ [] ∧ 3 < members.length ∧
      pluginDirName ++ "/plugin.toml".toList ∈ members.map Member.filename ∧
      pluginDirName ++ "/README.md".toList ∈ members.map Member.filename := by
  cases members with
  | nil =>
      constructor
      · intro h
        cases h
      · intro h
        rcases h.1 with ⟨first, rest, hmembers, _⟩
        cases hmembers
  | cons first rest =>
      unfold checkNames
      dsimp only
      constructor
      · intro h
        split at h
        · cases h
        · rename_i hnamed
          split at h
          · cases h
          · rename_i hfiles
            rw [not_or, not_or, not_le, not_not, not_not] at hfiles
            cases h
            exact ⟨⟨first, rest, rfl, rfl⟩, hnamed, hfiles⟩
      · intro h
        rcases h with ⟨⟨first', rest', hmembers, hdir⟩, hnamed, hfiles⟩
        cases hmembers
        rw [← hdir, if_neg hnamed, if_neg]
        rw [not_or, not_or, not_le, not_not, not_not]
        exact hfiles

theorem Installable.below_ne_nil {file : ArchiveFile} {members : List Member}
    {pluginDirName : Text} (h : Installable file members s pluginDirName name) :
    below pluginDirName members ≠ [] := by
  intro hnil
  rcases List.mem_map.mp h.toml with ⟨member, hmember, hfilename⟩
  have hbelow : ⟨"plugin.toml".toList, member.content⟩ ∈ below pluginDirName members := by
    rw [mem_below]
    constructor
    · intro hempty
      cases hempty
    · show ⟨pluginDirName ++ "/plugin.toml".toList, member.content⟩ ∈ members
      rw [← hfilename]
      exact hmember
  rw [hnil] at hbelow
  cases hbelow

/-- The archive is accepted exactly when it is installable, with what is below its directory. -/
theorem checkArchive_ok_iff {file : ArchiveFile} {members selected : List Member} :
    checkArchive o file members s = .ok (name, selected) ↔
      o.pathExists = none ∧ exists pluginDirName,
        Installable file members s pluginDirName name ∧ selected = below pluginDirName members := by
  constructor
  · intro h
    unfold checkArchive at h
    cases hdir : checkNames members with
    | error e =>
        rw [hdir] at h
        cases h
    | ok pluginDirName =>
        rcases checkNames_ok_iff.mp hdir with ⟨hfirst, hnamed, hlength, htoml, hreadme⟩
        cases hname : pluginName file with
        | error e =>
            rw [hdir, hname] at h
            cases h
        | ok found =>
            cases hexists : o.pathExists with
            | some msg =>
                rw [hdir, hname, hexists] at h
                cases h
            | none =>
                rw [hdir, hname, hexists] at h
                dsimp only at h
                rw [selectMembers_eq] at h
                dsimp only at h
                split at h
                · cases h
                · rename_i hnew
                  split at h
                  · cases h
                  · cases h
                    rw [Bool.not_eq_true] at hnew
                    refine ⟨rfl, pluginDirName, ?_, rfl⟩
                    exact ⟨hfirst, hnamed, hlength, htoml, hreadme, hname, hnew⟩
  · intro h
    rcases h with ⟨hexists, pluginDirName, hinstall, hselected⟩
    have hdir : checkNames members = .ok pluginDirName :=
      checkNames_ok_iff.mpr ⟨hinstall.first, hinstall.named_dir, hinstall.three_lt,
        hinstall.toml, hinstall.readme⟩
    unfold checkArchive
    rw [hdir, hinstall.named, hexists, hselected]
    dsimp only
    rw [hinstall.new, if_neg Bool.false_ne_true, selectMembers_eq]
    exact if_neg hinstall.below_ne_nil

/-!
# The archive installer

The archive installer makes the directory after all checks, and what can fail from there on
leaves it behind.
-/

structure ZipBegins (o : Outcomes) (file : ArchiveFile) (contents : Contents) (s : System)
    (name : Text) (selected : List Member) : Prop where
  readFile : o.readFile = none
  acquire : o.acquire = none
  openArchive : o.openArchive = none
  pathExists : o.pathExists = none
  mkdir : o.mkdir = none
  accepted : exists members pluginDirName, contents = some members ∧
    Installable file members s pluginDirName name ∧ selected = below pluginDirName members

def Refused (s : System) (result : System × Except InstallError Text) : Prop :=
  result.1 = s ∧ exists e, result.2 = .error e

theorem Refused.withReloadLock {block : System × Except InstallError Text}
    (h : Refused s block) : Refused s (withReloadLock o s block) := by
  unfold Installer.withReloadLock
  cases o.acquire with
  | some msg => exact ⟨rfl, .raised msg, rfl⟩
  | none =>
      cases o.release with
      | some msg => exact ⟨h.1, .raised msg, rfl⟩
      | none => exact h

theorem installZipPlugin_refused_or (o : Outcomes) (file : ArchiveFile) (contents : Contents)
    (s : System) :
    Refused s (installZipPlugin o file contents s) ∨
      exists name selected, ZipBegins o file contents s name selected := by
  unfold installZipPlugin
  cases hread : o.readFile with
  | some msg => exact .inl ⟨rfl, .raised msg, rfl⟩
  | none =>
      cases contents with
      | none => exact .inl ⟨rfl, _, rfl⟩
      | some members =>
          rw [attempt_none]
          dsimp only
          cases hopen : o.openArchive with
          | some msg => exact .inl (Refused.withReloadLock ⟨rfl, .raised msg, rfl⟩)
          | none =>
              rw [attempt_none]
              cases hcheck : checkArchive o file members s with
              | error e => exact .inl (Refused.withReloadLock ⟨rfl, e, rfl⟩)
              | ok found =>
                  rcases found with ⟨name, selected⟩
                  rcases checkArchive_ok_iff.mp hcheck with ⟨hexists, d, hinstall, hselected⟩
                  cases hmkdir : o.mkdir with
                  | some msg => exact .inl (Refused.withReloadLock ⟨rfl, .raised msg, rfl⟩)
                  | none =>
                      cases hacquire : o.acquire with
                      | some msg =>
                          unfold withReloadLock
                          rw [hacquire]
                          exact .inl ⟨rfl, .raised msg, rfl⟩
                      | none =>
                          exact .inr ⟨name, selected, hread, hacquire, hopen, hexists, hmkdir,
                            members, d, rfl, hinstall, hselected⟩

theorem ZipBegins.run {file : ArchiveFile} {contents : Contents} {selected : List Member}
    (h : ZipBegins o file contents s name selected) :
    installZipPlugin o file contents s =
      withReloadLock o s
        (match o.extractall with
        | some (left, msg) => (s.addDir name left, .error (.raised msg))
        | none => finishInstall o name (extract selected) (s.addDir name (extract selected))) := by
  rcases h.accepted with ⟨members, d, hcontents, hinstall, hselected⟩
  have hcheck := checkArchive_ok_iff.mpr ⟨h.pathExists, d, hinstall, hselected⟩
  unfold installZipPlugin
  rw [h.readFile, hcontents, attempt_none]
  dsimp only
  rw [h.openArchive, attempt_none, hcheck]
  dsimp only
  rw [h.mkdir]
  rfl

theorem ZipBegins.new {file : ArchiveFile} {contents : Contents} {selected : List Member}
    (h : ZipBegins o file contents s name selected) : s.exists name = false := by
  rcases h.accepted with ⟨members, d, _, hinstall, _⟩
  exact hinstall.new

theorem ZipBegins.kept_iff {file : ArchiveFile} {contents : Contents} {selected : List Member}
    (h : ZipBegins o file contents s name selected) :
    Kept (fun o => installZipPlugin o file contents) o s ↔
      o.extractall = none ∧ Finishes o (extract selected) s.env := by
  cases hextract : o.extractall with
  | some failure =>
      rcases failure with ⟨left, msg⟩
      have hrun := h.run
      rw [hextract] at hrun
      have hlock := withReloadLock_of_acquired (s := s) h.acquire
        (s.addDir name left, .error (.raised msg))
      rw [← hrun] at hlock
      rw [kept_iff_of_added h.new (congrArg System.entries hlock.1), hlock.2]
      simp
  | none =>
      have hrun := h.run
      rw [hextract] at hrun
      have hlock := withReloadLock_of_acquired (s := s) h.acquire
        (finishInstall o name (extract selected) (s.addDir name (extract selected)))
      rw [← hrun] at hlock
      have hentries := congrArg System.entries hlock.1
      rw [finishInstall_entries] at hentries
      rw [kept_iff_of_added h.new hentries, hlock.2, finishInstall_ok_iff]
      constructor
      · intro hall
        exact ⟨rfl, hall.1.1, hall.1.2.1, hall.1.2.2, hall.2⟩
      · intro hall
        exact ⟨⟨hall.2.appendable, hall.2.requirements, hall.2.changed⟩, hall.2.release⟩

/-!
# The repository installer

The repository installer begins with a clone, which may leave something when it fails.
-/

structure GitBegins (o : Outcomes) (repoUrl : Text) (s : System) (name : Text) : Prop where
  repo : gitRepo repoUrl = some name
  pathExists : o.pathExists = none
  new : s.exists name = false
  acquire : o.acquire = none

def CloneFinishes (o : Outcomes) (env : Option Bytes) : Prop :=
  match o.clone with
  | .error left => left = none
  | .ok files => Finishes o files env

theorem installGitPlugin_refused_or (o : Outcomes) (repoUrl : Text) (s : System) :
    Refused s (installGitPlugin o repoUrl s) ∨ exists name, GitBegins o repoUrl s name := by
  unfold installGitPlugin
  cases hrepo : gitRepo repoUrl with
  | none => exact .inl ⟨rfl, _, rfl⟩
  | some name =>
      dsimp only
      cases hexists : o.pathExists with
      | some msg => exact .inl ⟨rfl, .raised msg, rfl⟩
      | none =>
          rw [attempt_none]
          split
          · exact .inl ⟨rfl, _, rfl⟩
          · rename_i hnew
            rw [Bool.not_eq_true] at hnew
            cases hacquire : o.acquire with
            | some msg =>
                unfold withReloadLock
                rw [hacquire]
                exact .inl ⟨rfl, .raised msg, rfl⟩
            | none => exact .inr ⟨name, hrepo, hexists, hnew, hacquire⟩

theorem GitBegins.run {repoUrl : Text} (h : GitBegins o repoUrl s name) :
    installGitPlugin o repoUrl s =
      withReloadLock o s
        (match o.clone with
        | .error none => (s, .error (.server "插件安装失败，请稍后重试".toList))
        | .error (some left) =>
            (s.addDir name left, .error (.server "插件安装失败，请稍后重试".toList))
        | .ok files => finishInstall o name files (s.addDir name files)) := by
  unfold installGitPlugin
  rw [h.repo]
  dsimp only
  rw [h.pathExists, attempt_none, h.new]
  exact if_neg Bool.false_ne_true

theorem GitBegins.kept_iff {repoUrl : Text} (h : GitBegins o repoUrl s name) :
    Kept (fun o => installGitPlugin o repoUrl) o s ↔ CloneFinishes o s.env := by
  have hrun := h.run
  unfold CloneFinishes
  cases hclone : o.clone with
  | error left =>
      cases left with
      | none =>
          rw [hclone] at hrun
          have hlock := withReloadLock_of_acquired (s := s) h.acquire
            (s, .error (.server "插件安装失败，请稍后重试".toList))
          rw [← hrun] at hlock
          exact iff_of_true (kept_of_same hlock.1) rfl
      | some left =>
          rw [hclone] at hrun
          have hlock := withReloadLock_of_acquired (s := s) h.acquire
            (s.addDir name left, .error (.server "插件安装失败，请稍后重试".toList))
          rw [← hrun] at hlock
          rw [kept_iff_of_added h.new (congrArg System.entries hlock.1), hlock.2]
          simp
  | ok files =>
      rw [hclone] at hrun
      have hlock := withReloadLock_of_acquired (s := s) h.acquire
        (finishInstall o name files (s.addDir name files))
      rw [← hrun] at hlock
      have hentries := congrArg System.entries hlock.1
      rw [finishInstall_entries] at hentries
      rw [kept_iff_of_added h.new hentries, hlock.2, finishInstall_ok_iff]
      constructor
      · intro hall
        exact ⟨hall.1.1, hall.1.2.1, hall.1.2.2, hall.2⟩
      · intro hall
        exact ⟨⟨hall.appendable, hall.requirements, hall.changed⟩, hall.release⟩

/-!
# Both installers
-/

/--
A failed installation leaves the system as it was exactly when nothing fails from the moment
the directory of the plugin is made, or, for a repository, when the clone that fails leaves
nothing.
-/
theorem installations_kept (o : Outcomes) (s : System) :
    (forall file contents,
      Kept (fun o => installZipPlugin o file contents) o s ↔
        forall name selected, ZipBegins o file contents s name selected ->
          o.extractall = none ∧ Finishes o (extract selected) s.env) ∧
    (forall repoUrl,
      Kept (fun o => installGitPlugin o repoUrl) o s ↔
        forall name, GitBegins o repoUrl s name -> CloneFinishes o s.env) := by
  constructor
  · intro file contents
    constructor
    · intro hkept name selected hbegins
      exact hbegins.kept_iff.mp hkept
    · intro hfinishes
      cases installZipPlugin_refused_or o file contents s with
      | inl hrefused => exact kept_of_same hrefused.1
      | inr hbegins =>
          rcases hbegins with ⟨name, selected, hbegins⟩
          exact hbegins.kept_iff.mpr (hfinishes name selected hbegins)
  · intro repoUrl
    constructor
    · intro hkept name hbegins
      exact hbegins.kept_iff.mp hkept
    · intro hfinishes
      cases installGitPlugin_refused_or o repoUrl s with
      | inl hrefused => exact kept_of_same hrefused.1
      | inr hbegins =>
          rcases hbegins with ⟨name, hbegins⟩
          exact hbegins.kept_iff.mpr (hfinishes name hbegins)

/-!
# An example that is not UTF-8

Every effect succeeds, and there are no plugins and no `.env` at first.
-/

def calm : Outcomes where
  readFile := none
  acquire := none
  release := none
  openArchive := none
  pathExists := none
  mkdir := none
  extractall := none
  clone := .ok []
  readExample := none
  readEnv := none
  openEnv := none
  writeEnv := none
  installRequirements := none
  setChanged := none

def bare : System where
  entries := []
  env := none
  changed := false

namespace Undecodable

def members : List Member :=
  [{ filename := "foo/plugin.toml".toList, content := [] },
    { filename := "foo/README.md".toList, content := [] },
    { filename := "foo/.env.example".toList, content := [0xff] },
    { filename := "foo/main.py".toList, content := [] }]

def upload : ArchiveFile :=
  .upload (some "foo.zip".toList)

end Undecodable

/-- The archive is refused after it is extracted, and then it is already installed. -/
theorem installZipPlugin_stays :
    ¬ forall o file contents s, Kept (fun o => installZipPlugin o file contents) o s := by
  intro h
  have hfirst : (installZipPlugin calm Undecodable.upload (some Undecodable.members) bare).2 =
      .error .unicode := by
    rfl
  have hkept := h calm Undecodable.upload (some Undecodable.members) bare .unicode hfirst
  rcases hkept.2 calm ⟨"此插件已安装".toList, by rfl⟩ with ⟨msg, hmsg⟩
  rw [hfirst] at hmsg
  cases hmsg

end Installer
end RagService
