import RagService.Properties.Installations

/-!
# Packing and installing

The archive of the directory of a plugin is installed as a directory with the same files, but
for those below a `__pycache__`; and what any archive installs is what it has below the
directory that its first entry names.
-/

namespace RagService
namespace Installer

open Listing
open Text

/-!
# Plain names

A path of plain names is read back from how it is written, and extracted to where it says.
-/

def IsPlain (name : Text) : Prop :=
  name ≠ [] ∧ '/' ∉ name ∧ name ≠ ".".toList ∧ name ≠ "..".toList

instance : DecidablePred IsPlain :=
  fun name => inferInstanceAs (Decidable (name ≠ [] ∧ '/' ∉ name ∧ _ ∧ _))

def pathText (path : List Text) : Text :=
  join ['/'] path

section Paths

variable {path : List Text}

theorem pathText_cons {path : List Text} (hne : path ≠ []) (name : Text) :
    pathText (name :: path) = name ++ '/' :: pathText path := by
  cases path with
  | nil => exact absurd rfl hne
  | cons next rest =>
      unfold pathText
      rw [join, List.append_assoc, List.singleton_append]

theorem split_pathText (hne : path ≠ []) (hplain : forall name, name ∈ path -> IsPlain name) :
    Splitting.split ['/'] (pathText path) = path :=
  Splitting.split_join '/' [] hne fun name hname => (hplain name hname).2.1

theorem pathText_injective {other : List Text} (hne : path ≠ []) (hother : other ≠ [])
    (hplain : forall name, name ∈ path -> IsPlain name)
    (hplain' : forall name, name ∈ other -> IsPlain name)
    (h : pathText path = pathText other) : path = other := by
  rw [← split_pathText hne hplain, h, split_pathText hother hplain']

theorem pathText_ne_nil (hne : path ≠ []) (hplain : forall name, name ∈ path -> IsPlain name) :
    pathText path ≠ [] := by
  cases path with
  | nil => exact absurd rfl hne
  | cons name rest =>
      have hname := (hplain name List.mem_cons_self).1
      cases rest with
      | nil => exact hname
      | cons next rest =>
          rw [pathText_cons (List.cons_ne_nil next rest)]
          intro hnil
          exact hname (List.append_eq_nil_iff.mp hnil).1

theorem getLast?_pathText (hne : path ≠ []) (hplain : forall name, name ∈ path -> IsPlain name) :
    (pathText path).getLast? ≠ some '/' := by
  induction path with
  | nil => exact absurd rfl hne
  | cons name rest ih =>
      cases rest with
      | nil =>
          intro hlast
          exact (hplain name List.mem_cons_self).2.1 (List.mem_of_getLast? hlast)
      | cons next rest =>
          have hrest := List.cons_ne_nil next rest
          have hplainRest : forall name, name ∈ next :: rest -> IsPlain name :=
            fun found hfound => hplain found (List.mem_cons_of_mem _ hfound)
          rw [pathText_cons hrest, ← List.singleton_append, ← List.append_assoc,
            List.getLast?_append_of_ne_nil _ (pathText_ne_nil hrest hplainRest)]
          exact ih hrest hplainRest

theorem extractedPath_pathText (hne : path ≠ [])
    (hplain : forall name, name ∈ path -> IsPlain name) (content : Bytes) :
    extractedPath ⟨pathText path, content⟩ = pathText path := by
  have hkeep : (path.filter fun part => part ∉ [[], ".".toList, "..".toList]) = path := by
    rw [List.filter_eq_self]
    intro name hname
    rcases hplain name hname with ⟨hempty, _, hdot, hdots⟩
    rw [decide_eq_true_eq]
    intro hmem
    rw [List.mem_cons, List.mem_cons, List.mem_singleton] at hmem
    rcases hmem with h | h | h
    · exact hempty h
    · exact hdot h
    · exact hdots h
  have hfile : (Member.mk (pathText path) content).isDir = false :=
    decide_eq_false (getLast?_pathText hne hplain)
  unfold extractedPath
  rw [hfile, split_pathText hne hplain, hkeep, if_neg Bool.false_ne_true, List.append_nil]
  rfl

end Paths

/-!
# What is packed

The archive has the packed files, each at its path below the name of the directory.
-/

def Packed (listing : PluginListing) (path : List Text) (content : Bytes) : Prop :=
  HasFile listing path content ∧ pycache ∉ path.dropLast

theorem mem_zipPlugin_file {root name : Text} {content : Bytes} {rest : PluginListing}
    {member : Member} :
    member ∈ zipPlugin root (.file name content rest) ↔
      member = ⟨root ++ '/' :: name, content⟩ ∨ member ∈ zipPlugin root rest := by
  unfold zipPlugin
  rw [filesAt, walkDirs, List.cons_append, List.mem_cons]

theorem mem_zipPlugin_dir {root name : Text} {children rest : PluginListing} {member : Member} :
    member ∈ zipPlugin root (.dir name children rest) ↔
      (name ≠ pycache ∧ member ∈ zipPlugin (root ++ '/' :: name) children) ∨
        member ∈ zipPlugin root rest := by
  unfold zipPlugin
  rw [filesAt, walkDirs]
  simp only [List.mem_append]
  by_cases hname : name = pycache
  · simp [hname]
  · rw [if_neg hname, List.mem_append]
    constructor
    · intro h
      rcases h with hfiles | hchildren | hdirs
      · exact .inr (.inl hfiles)
      · exact .inl ⟨hname, hchildren⟩
      · exact .inr (.inr hdirs)
    · intro h
      rcases h with hchildren | hfiles | hdirs
      · exact .inr (.inl hchildren.2)
      · exact .inl hfiles
      · exact .inr (.inr hdirs)

theorem packed_file_iff {name : Text} {first content : Bytes} {rest : PluginListing}
    {path : List Text} :
    Packed (.file name first rest) path content ↔
      (path = [name] ∧ content = first) ∨ Packed rest path content := by
  constructor
  · intro h
    rcases h with ⟨hfile, hcache⟩
    cases hfile with
    | here => exact .inl ⟨rfl, rfl⟩
    | afterFile _ _ hrest => exact .inr ⟨hrest, hcache⟩
  · intro h
    rcases h with ⟨hpath, hcontent⟩ | ⟨hrest, hcache⟩
    · rw [hpath, hcontent]
      exact ⟨.here name first rest, List.not_mem_nil⟩
    · exact ⟨.afterFile name first hrest, hcache⟩

theorem packed_dir_iff {name : Text} {content : Bytes} {children rest : PluginListing}
    {path : List Text} :
    Packed (.dir name children rest) path content ↔
      (name ≠ pycache ∧ exists below, path = name :: below ∧ Packed children below content) ∨
        Packed rest path content := by
  constructor
  · intro h
    rcases h with ⟨hfile, hcache⟩
    cases hfile with
    | inside _ _ hbelow =>
        rw [List.dropLast_cons_of_ne_nil hbelow.ne_nil, List.mem_cons, not_or] at hcache
        exact .inl ⟨fun heq => hcache.1 heq.symm, _, rfl, hbelow, hcache.2⟩
    | afterDir _ _ hrest => exact .inr ⟨hrest, hcache⟩
  · intro h
    rcases h with ⟨hname, below, hpath, hbelow, hcache⟩ | ⟨hrest, hcache⟩
    · rw [hpath]
      refine ⟨.inside name rest hbelow, ?_⟩
      rw [List.dropLast_cons_of_ne_nil hbelow.ne_nil, List.mem_cons, not_or]
      exact ⟨fun heq => hname heq.symm, hcache⟩
    · exact ⟨.afterDir name children hrest, hcache⟩

theorem mem_zipPlugin {root filename : Text} {content : Bytes} {listing : PluginListing} :
    ⟨filename, content⟩ ∈ zipPlugin root listing ↔
      exists path, Packed listing path content ∧ filename = root ++ '/' :: pathText path := by
  induction listing generalizing root with
  | nil =>
      constructor
      · intro h
        cases h
      · intro h
        rcases h with ⟨path, hpacked, _⟩
        cases hpacked.1
  | file name first rest ih =>
      rw [mem_zipPlugin_file, ih, Member.mk.injEq]
      constructor
      · intro h
        rcases h with ⟨hfilename, hcontent⟩ | ⟨path, hpacked, hfilename⟩
        · exact ⟨[name], packed_file_iff.mpr (.inl ⟨rfl, hcontent⟩), hfilename⟩
        · exact ⟨path, packed_file_iff.mpr (.inr hpacked), hfilename⟩
      · intro h
        rcases h with ⟨path, hpacked, hfilename⟩
        rcases packed_file_iff.mp hpacked with ⟨hpath, hcontent⟩ | hrest
        · rw [hpath] at hfilename
          exact .inl ⟨hfilename, hcontent⟩
        · exact .inr ⟨path, hrest, hfilename⟩
  | dir name children rest ihChildren ihRest =>
      rw [mem_zipPlugin_dir, ihChildren, ihRest]
      constructor
      · intro h
        rcases h with ⟨hname, path, hpacked, hfilename⟩ | ⟨path, hpacked, hfilename⟩
        · refine ⟨name :: path, packed_dir_iff.mpr (.inl ⟨hname, path, rfl, hpacked⟩), ?_⟩
          rw [hfilename, pathText_cons hpacked.1.ne_nil, List.append_assoc, List.cons_append]
        · exact ⟨path, packed_dir_iff.mpr (.inr hpacked), hfilename⟩
      · intro h
        rcases h with ⟨path, hpacked, hfilename⟩
        rcases packed_dir_iff.mp hpacked with ⟨hname, below, hpath, hbelow⟩ | hrest
        · refine .inl ⟨hname, below, hbelow, ?_⟩
          rw [hfilename, hpath, pathText_cons hbelow.1.ne_nil, List.append_assoc,
            List.cons_append]
        · exact .inr ⟨path, hrest, hfilename⟩

theorem length_zipPlugin (root : Text) (listing : PluginListing) :
    (zipPlugin root listing).length = listing.fileCount pycache := by
  induction listing generalizing root with
  | nil => rfl
  | file name content rest ih =>
      have hrest := ih root
      unfold zipPlugin at hrest ⊢
      rw [filesAt, walkDirs, List.cons_append, List.length_cons, hrest, fileCount, Nat.add_comm]
  | dir name children rest ihChildren ihRest =>
      have hchildren := ihChildren (root ++ '/' :: name)
      have hrest := ihRest root
      unfold zipPlugin at hchildren hrest ⊢
      rw [List.length_append] at hrest
      rw [filesAt, walkDirs, fileCount, List.length_append, List.length_append]
      split
      · rw [List.length_nil]
        omega
      · rw [hchildren]
        omega

/-!
# The directory of a plugin

Every member starts with the name of the directory, and the files that are extracted are those
that were packed.
-/

/--
A directory with plain names, its own without blanks around it, with at least four files outside
a `__pycache__`, and with `plugin.toml` and `README.md` at the top.
-/
structure PluginTree where
  dirName : Text
  listing : PluginListing
  plain_dirName : IsPlain dirName
  strip_dirName : strip dirName = dirName
  wellFormed : listing.WellFormed IsPlain
  three_lt : 3 < listing.fileCount pycache
  toml : exists content, HasFile listing ["plugin.toml".toList] content
  readme : exists content, HasFile listing ["README.md".toList] content

def PluginTree.archive (t : PluginTree) : List Member :=
  zipPlugin t.dirName t.listing

variable {t : PluginTree} {file : ArchiveFile} {path : List Text} {content : Bytes}

theorem PluginTree.plain_of_packed (t : PluginTree) (h : Packed t.listing path content) :
    forall name, name ∈ path -> IsPlain name :=
  h.1.forall_names t.wellFormed

theorem PluginTree.filename_mem_archive (t : PluginTree) {name : Text}
    (h : exists content, HasFile t.listing [name] content) :
    t.dirName ++ '/' :: name ∈ t.archive.map Member.filename := by
  rcases h with ⟨content, hfile⟩
  have hpacked : Packed t.listing [name] content := ⟨hfile, List.not_mem_nil⟩
  exact List.mem_map.mpr ⟨⟨_, content⟩, mem_zipPlugin.mpr ⟨[name], hpacked, rfl⟩, rfl⟩

theorem PluginTree.first_component (t : PluginTree) {member : Member} (h : member ∈ t.archive) :
    strip (member.filename.takeWhile (· ≠ '/')) = t.dirName := by
  rcases mem_zipPlugin.mp h with ⟨path, _, hfilename⟩
  have htop : forall c, c ∈ t.dirName -> decide (c ≠ '/') = true := by
    intro c hc
    rw [decide_eq_true_eq]
    intro heq
    exact t.plain_dirName.2.1 (heq ▸ hc)
  rw [hfilename, List.takeWhile_append_of_pos htop, List.takeWhile_cons_of_neg (by decide),
    List.append_nil]
  exact t.strip_dirName

theorem PluginTree.installable (t : PluginTree) (hnamed : pluginName file = .ok name)
    (hnew : s.exists name = false) : Installable file t.archive s t.dirName name where
  first := by
    have hlength : 3 < t.archive.length := by
      rw [PluginTree.archive, length_zipPlugin]
      exact t.three_lt
    cases harchive : t.archive with
    | nil =>
        rw [harchive] at hlength
        cases hlength
    | cons first rest =>
        have hfirst : first ∈ t.archive := by
          rw [harchive]
          exact List.mem_cons_self
        exact ⟨first, rest, rfl, (t.first_component hfirst).symm⟩
  named_dir := t.plain_dirName.1
  three_lt := by
    rw [PluginTree.archive, length_zipPlugin]
    exact t.three_lt
  toml := t.filename_mem_archive t.toml
  readme := t.filename_mem_archive t.readme
  named := hnamed
  new := hnew

theorem PluginTree.mem_below_archive (t : PluginTree) {relative : Text} :
    ⟨relative, content⟩ ∈ below t.dirName t.archive ↔
      exists path, Packed t.listing path content ∧ relative = pathText path := by
  rw [mem_below, PluginTree.archive, mem_zipPlugin]
  constructor
  · intro h
    rcases h with ⟨_, path, hpacked, hfilename⟩
    exact ⟨path, hpacked, (List.cons.inj (List.append_cancel_left hfilename)).2⟩
  · intro h
    rcases h with ⟨path, hpacked, hrelative⟩
    rw [hrelative]
    exact ⟨pathText_ne_nil hpacked.1.ne_nil (t.plain_of_packed hpacked), path, hpacked, rfl⟩

/-- The files that are extracted are those that were packed. -/
theorem PluginTree.extracted_iff (t : PluginTree) {key : Text} :
    (extract (below t.dirName t.archive)).get key = some content ↔
      exists path, Packed t.listing path content ∧ key = pathText path := by
  have hpairs : forall key content,
      (key, content) ∈ (below t.dirName t.archive).map
          (fun member => (extractedPath member, member.content)) ↔
        exists path, Packed t.listing path content ∧ key = pathText path := by
    intro key content
    rw [List.mem_map]
    constructor
    · intro h
      rcases h with ⟨⟨relative, found⟩, hmember, heq⟩
      rcases t.mem_below_archive.mp hmember with ⟨path, hpacked, hrelative⟩
      rw [hrelative, extractedPath_pathText hpacked.1.ne_nil (t.plain_of_packed hpacked),
        Prod.mk.injEq] at heq
      rw [← heq.2, ← heq.1]
      exact ⟨path, hpacked, rfl⟩
    · intro h
      rcases h with ⟨path, hpacked, hkey⟩
      refine ⟨⟨pathText path, content⟩, t.mem_below_archive.mpr ⟨path, hpacked, rfl⟩, ?_⟩
      rw [extractedPath_pathText hpacked.1.ne_nil (t.plain_of_packed hpacked), hkey]
  unfold extract
  rw [Dict.get_ofPairs_eq_some_of_unique, hpairs]
  intro v w hv hw
  rcases (hpairs key v).mp hv with ⟨path, hpacked, hpath⟩
  rcases (hpairs key w).mp hw with ⟨other, hpacked', hother⟩
  have hsame : path = other :=
    pathText_injective hpacked.1.ne_nil hpacked'.1.ne_nil (t.plain_of_packed hpacked)
      (t.plain_of_packed hpacked') (hpath.symm.trans hother)
  rw [← hsame] at hpacked'
  exact hpacked.1.unique t.wellFormed hpacked'.1

/-!
# Installing an archive

An installation that begins makes the directory with what is extracted, under the name that is
returned.
-/

structure Extracts (o : Outcomes) : Prop where
  readFile : o.readFile = none
  acquire : o.acquire = none
  openArchive : o.openArchive = none
  pathExists : o.pathExists = none
  mkdir : o.mkdir = none
  extractall : o.extractall = none

theorem ZipBegins.entries {contents : Contents} {selected : List Member}
    (h : ZipBegins o file contents s name selected) (hextract : o.extractall = none) :
    (installZipPlugin o file contents s).1.entries = s.entries.set name (.dir (extract selected)) := by
  rw [h.run, (withReloadLock_of_acquired h.acquire _).1, hextract]
  exact finishInstall_entries o name (extract selected) (s.addDir name (extract selected))

theorem ZipBegins.of_ok {contents : Contents} {selected : List Member} {installed : Text}
    (h : ZipBegins o file contents s name selected)
    (hok : (installZipPlugin o file contents s).2 = .ok installed) :
    installed = name ∧ o.extractall = none := by
  have hblock := h.run ▸ hok
  have hdone := ok_of_withReloadLock hblock
  cases hextract : o.extractall with
  | some failure =>
      rw [hextract] at hdone
      cases hdone
  | none =>
      rw [hextract] at hdone
      exact ⟨finishInstall_name hdone, rfl⟩

/--
Packing and installing are inverse but for what is below a `__pycache__`; and an archive that is
accepted is installed as what it has below the directory of the name that the first component of
its first entry has without the blanks around it.
-/
theorem archives_installed :
    (forall (t : PluginTree) (o : Outcomes) (file : ArchiveFile) (s : System) (name : Text),
      pluginName file = .ok name -> s.exists name = false -> Extracts o ->
        exists files,
          (installZipPlugin o file (some t.archive) s).1.entries =
            s.entries.set name (.dir files) ∧
          forall key content, files.get key = some content ↔
            exists path, key = pathText path ∧ HasFile t.listing path content ∧
              pycache ∉ path.dropLast) ∧
    (forall (o : Outcomes) (file : ArchiveFile) (members selected : List Member) (s : System)
        (name : Text),
      checkArchive o file members s = .ok (name, selected) ->
        exists first rest, members = first :: rest ∧
          selected = below (strip (first.filename.takeWhile (· ≠ '/'))) members) ∧
    (forall (o : Outcomes) (file : ArchiveFile) (members : List Member) (s : System) (name : Text),
      (installZipPlugin o file (some members) s).2 = .ok name ->
        exists first rest, members = first :: rest ∧
          (installZipPlugin o file (some members) s).1.entries =
            s.entries.set name
              (.dir (extract (below (strip (first.filename.takeWhile (· ≠ '/'))) members)))) := by
  refine ⟨?_, ?_, ?_⟩
  · intro t o file s name hnamed hnew hextracts
    have hbegins : ZipBegins o file (some t.archive) s name (below t.dirName t.archive) :=
      ⟨hextracts.readFile, hextracts.acquire, hextracts.openArchive, hextracts.pathExists,
        hextracts.mkdir, t.archive, t.dirName, rfl, t.installable hnamed hnew, rfl⟩
    refine ⟨_, hbegins.entries hextracts.extractall, ?_⟩
    intro key content
    rw [t.extracted_iff]
    constructor
    · intro h
      rcases h with ⟨path, hpacked, hkey⟩
      exact ⟨path, hkey, hpacked⟩
    · intro h
      rcases h with ⟨path, hkey, hpacked⟩
      exact ⟨path, hpacked, hkey⟩
  · intro o file members selected s name hcheck
    rcases checkArchive_ok_iff.mp hcheck with ⟨_, d, hinstall, hselected⟩
    rcases hinstall.first with ⟨first, rest, hmembers, hdir⟩
    rw [hselected, hdir]
    exact ⟨first, rest, hmembers, rfl⟩
  · intro o file members s name hok
    cases installZipPlugin_refused_or o file (some members) s with
    | inl hrefused =>
        rcases hrefused.2 with ⟨e, he⟩
        rw [he] at hok
        cases hok
    | inr hbegins =>
        rcases hbegins with ⟨found, selected, hbegins⟩
        rcases hbegins.of_ok hok with ⟨hname, hextract⟩
        rcases hbegins.accepted with ⟨accepted, d, hcontents, hinstall, hselected⟩
        rcases hinstall.first with ⟨first, rest, hmembers, hdir⟩
        cases hcontents
        refine ⟨first, rest, hmembers, ?_⟩
        rw [hbegins.entries hextract, hname, hselected, hdir]

namespace Samples

def listing : PluginListing :=
  .file "plugin.toml".toList [] <|
    .dir "__pycache__".toList (.file "main.pyc".toList [1] .nil) <|
      .dir "api".toList (.file "main.py".toList [2] .nil) <|
        .file "README.md".toList [] <| .file "conf.py".toList [] .nil

def tree : PluginTree where
  dirName := "foo".toList
  listing := listing
  plain_dirName := by decide
  strip_dirName := by decide
  wellFormed := by decide
  three_lt := by decide
  toml := ⟨[], .here _ _ _⟩
  readme := ⟨[], .afterFile _ _ (.afterDir _ _ (.afterDir _ _ (.here _ _ _)))⟩

def blankFirst : List Member :=
  [{ filename := " foo/notes.txt".toList, content := [] },
    { filename := "foo/plugin.toml".toList, content := [] },
    { filename := "foo/README.md".toList, content := [] },
    { filename := "foo/main.py".toList, content := [] }]

def upload : ArchiveFile :=
  .upload (some "foo.zip".toList)

end Samples

/-- The module is installed again, and of the other archive what is below the name without blank. -/
theorem archives_installed_samples :
    (exists files,
      (installZipPlugin calm Samples.upload (some Samples.tree.archive) bare).1.entries =
        [("foo".toList, .dir files)] ∧
      files.get "api/main.py".toList = some [2]) ∧
    (installZipPlugin calm Samples.upload (some Samples.blankFirst) bare).1.entries =
      [("foo".toList, .dir [("plugin.toml".toList, []), ("README.md".toList, []),
        ("main.py".toList, [])])] := by
  constructor
  · have hextracts : Extracts calm := ⟨rfl, rfl, rfl, rfl, rfl, rfl⟩
    rcases archives_installed.1 Samples.tree calm Samples.upload bare "foo".toList (by rfl) (by rfl)
      hextracts with ⟨files, hentries, hfiles⟩
    refine ⟨files, hentries, (hfiles _ _).mpr ⟨["api".toList, "main.py".toList], by rfl, ?_, ?_⟩⟩
    · exact .afterFile _ _ (.afterDir _ _ (.inside _ _ (.here _ _ _)))
    · decide
  · rcases archives_installed.2.2 calm Samples.upload Samples.blankFirst bare "foo".toList (by rfl)
      with ⟨first, rest, hmembers, hentries⟩
    cases hmembers
    exact hentries

/-- Nothing but the first entry is below the directory that it names with its blank. -/
theorem archives_installed_blank :
    ¬ forall (o : Outcomes) (file : ArchiveFile) (members : List Member) (s : System) (name : Text),
      (installZipPlugin o file (some members) s).2 = .ok name ->
        exists first rest, members = first :: rest ∧
          (installZipPlugin o file (some members) s).1.entries =
            s.entries.set name
              (.dir (extract (below (first.filename.takeWhile (· ≠ '/')) members))) := by
  intro h
  rcases h calm Samples.upload Samples.blankFirst bare "foo".toList (by rfl) with
    ⟨first, rest, hmembers, hentries⟩
  cases hmembers
  have hfound : (installZipPlugin calm Samples.upload (some Samples.blankFirst) bare).1.entries =
      [("foo".toList, .dir [("plugin.toml".toList, []), ("README.md".toList, []),
        ("main.py".toList, [])])] := by
    rfl
  rw [hfound] at hentries
  revert hentries
  decide

end Installer
end RagService
