import RagService.Foundation.Dicts
import RagService.Foundation.Directories
import RagService.Foundation.Splitting
import RagService.Foundation.Utf8
import RagService.Indexing.Chunking
import RagService.Plugin.Config

/-!
# Installing and packing plugins

The two installers, on the directory of the plugins and the main `.env` file, with what the
environment does at each of their effects; and the archive that is made of the directory of a
plugin.
-/

namespace RagService
namespace Installer

open Text

/-!
# State

The files below the directory of plugins by their paths, the main `.env` file, and what the
environment does at each effect.
-/

abbrev Files := Dict Text Bytes

inductive Entry where
  | file
  | dir (files : Files)
  deriving DecidableEq

structure System where
  /-- what there is in `PLUGIN_DIR` -/
  entries : Dict Text Entry
  /-- the content of `.env`, when there is one -/
  env : Option Bytes
  changed : Bool
  deriving DecidableEq

def System.exists (s : System) (name : Text) : Bool :=
  name = ".".toList || name = "..".toList || (s.entries.get name).isSome

def System.addDir (s : System) (name : Text) (files : Files) : System :=
  { s with entries := s.entries.set name (.dir files) }

inductive InstallError where
  | request (msg : Text)
  | conflict (msg : Text)
  | server (msg : Text)
  /-- a file of which the name is missing -/
  | attribute
  | unicode
  /-- `.env.example` is a directory -/
  | isADirectory
  /-- what an effect raises -/
  | raised (msg : Text)
  deriving DecidableEq

structure Outcomes where
  readFile : Option Text
  /-- the first and the last steps of `acquire_distributed_reload_lock` -/
  acquire : Option Text
  release : Option Text
  /-- `ZipFile(file_bytes)` -/
  openArchive : Option Text
  /-- `(PLUGIN_DIR / name).exists()` -/
  pathExists : Option Text
  mkdir : Option Text
  /-- what an `extractall` that raises leaves -/
  extractall : Option (Files × Text)
  /-- the files of the repository, or what a clone that raises leaves -/
  clone : Except (Option Files) Files
  readExample : Option Text
  readEnv : Option Text
  openEnv : Option Text
  /-- the writing raises after so many bytes -/
  writeEnv : Option (Nat × Text)
  installRequirements : Option Text
  setChanged : Option Text

def attempt (failure : Option Text) (s : System) (rest : System × Except InstallError Text) :
    System × Except InstallError Text :=
  match failure with
  | some msg => (s, .error (.raised msg))
  | none => rest

/-!
# The main `.env` file

The example of a plugin is put after the main `.env` file.  Opening that file for writing
empties it, and the lock around a reload may raise when it is released.
-/

def readText (failure : Option Text) (content : Bytes) : Except InstallError Text :=
  match failure with
  | some msg => .error (.raised msg)
  | none =>
      match decodeStrict content with
      | none => .error .unicode
      | some text => .ok (Chunking.normalizeNewlines text)

def envExample : Text := ".env.example".toList

/-- The content of the main `.env` file with an example after it. -/
def newContent (existingContent envExampleContent : Text) : Text :=
  let separator :=
    if existingContent ≠ [] ∧ existingContent.getLast? ≠ some '\n' then ['\n'] else []
  existingContent ++ separator ++ envExampleContent

def existingContent (o : Outcomes) (env : Option Bytes) : Except InstallError Text :=
  match env with
  | none => .ok []
  | some content => readText o.readEnv content

/-- `_append_env_example`; opening the file for writing empties it. -/
def appendEnvExample (o : Outcomes) (files : Files) (env : Option Bytes) :
    Option Bytes × Except InstallError Unit :=
  match files.get envExample with
  | none =>
      if files.any fun (path, _) => (envExample ++ ['/']).isPrefixOf path then
        (env, .error .isADirectory)
      else (env, .ok ())
  | some content =>
      match readText o.readExample content with
      | .error e => (env, .error e)
      | .ok envExampleContent =>
          if strip envExampleContent = [] then (env, .ok ())
          else
            match existingContent o env with
            | .error e => (env, .error e)
            | .ok existingContent =>
                match o.openEnv with
                | some msg => (env, .error (.raised msg))
                | none =>
                    let text := newContent existingContent envExampleContent
                    match o.writeEnv with
                    | some (n, msg) => (some ((encode text).take n), .error (.raised msg))
                    | none => (some (encode text), .ok ())

def finishInstall (o : Outcomes) (name : Text) (files : Files) (s : System) :
    System × Except InstallError Text :=
  match appendEnvExample o files s.env with
  | (env, .error e) => ({ s with env := env }, .error e)
  | (env, .ok _) =>
      let s := { s with env := env }
      attempt o.installRequirements s <|
        attempt o.setChanged s ({ s with changed := true }, .ok name)

def withReloadLock (o : Outcomes) (s : System) (block : System × Except InstallError Text) :
    System × Except InstallError Text :=
  attempt o.acquire s (attempt o.release block.1 block)

/-!
# Archives

An archive is checked before anything is written: the names in it, the name of the plugin, and
the members that belong to it.
-/

/-- An entry of an archive; the name of a directory ends with a slash. -/
structure Member where
  filename : Text
  content : Bytes
  deriving DecidableEq

def Member.isDir (member : Member) : Bool :=
  member.filename.getLast? = some '/'

abbrev Contents := Option (List Member)

inductive ArchiveFile where
  /-- `file.filename`, which may be `None` -/
  | upload (filename : Option Text)
  | path (file : Text)

def illegalArchive : InstallError :=
  .request "插件压缩包内容非法".toList

def checkNames (members : List Member) : Except InstallError Text :=
  match members with
  | [] => .error illegalArchive
  | first :: _ =>
      let pluginDirName := strip (first.filename.takeWhile (· ≠ '/'))
      if pluginDirName = [] then .error illegalArchive
      else if members.length ≤ 3 ∨
          pluginDirName ++ "/plugin.toml".toList ∉ members.map Member.filename ∨
          pluginDirName ++ "/README.md".toList ∉ members.map Member.filename then
        .error (.request "插件压缩包内缺少必要文件".toList)
      else .ok pluginDirName

/-- `re.match(r'^([a-zA-Z0-9_]+)', …)` on the name of the file. -/
def pluginName (file : ArchiveFile) : Except InstallError Text :=
  let named (filename : Text) :=
    let name := (strip (filename.takeWhile (· ≠ '.'))).takeWhile Plugin.isWordCharacter
    if name = [] then .error (.request "插件压缩包文件名非法".toList) else .ok name
  match file with
  | .upload none => .error .attribute
  | .upload (some filename) => named filename
  | .path file => named ((afterLast '/' file).getD file)

def selectMembers (pluginDirName : Text) : List Member -> Except InstallError (List Member)
  | [] => .ok []
  | member :: rest =>
      let keyPrefix := pluginDirName ++ ['/']
      if member.filename = pluginDirName ∨ member.filename = keyPrefix then
        selectMembers pluginDirName rest
      else if !keyPrefix.isPrefixOf member.filename then selectMembers pluginDirName rest
      else
        let relativeFilename := member.filename.drop keyPrefix.length
        if relativeFilename = [] then
          if member.isDir then selectMembers pluginDirName rest else .error illegalArchive
        else
          (selectMembers pluginDirName rest).map fun members =>
            { member with filename := relativeFilename } :: members

/-- What is checked before anything is written: the name of the plugin and the members for it. -/
def checkArchive (o : Outcomes) (file : ArchiveFile) (members : List Member) (s : System) :
    Except InstallError (Text × List Member) :=
  match checkNames members with
  | .error e => .error e
  | .ok pluginDirName =>
      match pluginName file with
      | .error e => .error e
      | .ok name =>
          match o.pathExists with
          | some msg => .error (.raised msg)
          | none =>
              if s.exists name then .error (.conflict "此插件已安装".toList)
              else
                match selectMembers pluginDirName members with
                | .error e => .error e
                | .ok members =>
                    if members = [] then .error illegalArchive else .ok (name, members)

/-- The path that `extractall` gives a member: some components are left out. -/
def extractedPath (member : Member) : Text :=
  let parts := (Splitting.split ['/'] member.filename).filter fun part =>
    part ∉ [[], ".".toList, "..".toList]
  join ['/'] parts ++ if member.isDir then ['/'] else []

def extract (members : List Member) : Files :=
  Dict.ofPairs (members.map fun member => (extractedPath member, member.content))

def installZipPlugin (o : Outcomes) (file : ArchiveFile) (contents : Contents) (s : System) :
    System × Except InstallError Text :=
  attempt o.readFile s <|
    match contents with
    | none => (s, .error (.request "插件压缩包格式非法".toList))
    | some members =>
        withReloadLock o s <|
          attempt o.openArchive s <|
            match checkArchive o file members s with
            | .error e => (s, .error e)
            | .ok (name, members) =>
                attempt o.mkdir s <|
                  match o.extractall with
                  | some (left, msg) => (s.addDir name left, .error (.raised msg))
                  | none => finishInstall o name (extract members) (s.addDir name (extract members))

/-!
# Repositories

The name of a plugin is the last part of the URL of its repository.
-/

/-- The end of a text that is left out, if there is something before it. -/
def withoutSuffix (suffix s : Text) : Option Text :=
  if suffix.isSuffixOf s ∧ suffix.length < s.length then some (s.take (s.length - suffix.length))
  else none

/--
The group `repo` of `is_git_url`: the part after the last slash, without `.git`, and without the
newline that `$` lets pass.
-/
def gitRepo (url : Text) : Option Text :=
  let afterScheme :=
    if "http://".toList.isPrefixOf url then some (url.drop 7)
    else if "https://".toList.isPrefixOf url then some (url.drop 8)
    else none
  (afterScheme.bind (afterLast '/')).bind fun last =>
    if last = [] then none
    else
      some ((((withoutSuffix ".git\n".toList last).orElse fun _ =>
        withoutSuffix ".git".toList last).orElse fun _ =>
          withoutSuffix "\n".toList last).getD last)

def installGitPlugin (o : Outcomes) (repoUrl : Text) (s : System) :
    System × Except InstallError Text :=
  match gitRepo repoUrl with
  | none => (s, .error (.request "Git 仓库地址格式非法，仅支持 HTTP/HTTPS 协议".toList))
  | some repoName =>
      attempt o.pathExists s <|
        if s.exists repoName then (s, .error (.conflict (repoName ++ " 插件已安装".toList)))
        else
          withReloadLock o s <|
            match o.clone with
            | .error none => (s, .error (.server "插件安装失败，请稍后重试".toList))
            | .error (some left) =>
                (s.addDir repoName left, .error (.server "插件安装失败，请稍后重试".toList))
            | .ok files => finishInstall o repoName files (s.addDir repoName files)

/-!
# Packing

`os.walk` over a directory gives the members of the archive.
-/

abbrev PluginListing := Listing Text Bytes

def pycache : Text := "__pycache__".toList

def filesAt (root : Text) : PluginListing -> List Member
  | .nil => []
  | .file name content rest =>
      { filename := root ++ '/' :: name, content := content } :: filesAt root rest
  | .dir _ _ rest => filesAt root rest

/-- What `os.walk` goes on to below the directories of a directory. -/
def walkDirs (root : Text) : PluginListing -> List Member
  | .nil => []
  | .file _ _ rest => walkDirs root rest
  | .dir name children rest =>
      (if name = pycache then []
        else filesAt (root ++ '/' :: name) children ++ walkDirs (root ++ '/' :: name) children) ++
      walkDirs root rest

/-- `zip_plugin` on the directory of a plugin; the names are relative to its parent. -/
def zipPlugin (pluginDirName : Text) (listing : PluginListing) : List Member :=
  filesAt pluginDirName listing ++ walkDirs pluginDirName listing

end Installer
end RagService
