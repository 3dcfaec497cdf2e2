-- SUMMARY: The files of one dataset and the operations of `RegistryStore` on them: config rows, skill folders and SKILL.md.
import AgentProtocol.Register.Model

/-!
# Dataset files

`RegistryStore` reads and writes the files of one dataset. A config file is the list of its
rows, and a skill folder maps relative paths to contents. The name of a skill is used as the
name of its folder, so what is said here about folders is meant for names that are a single
path component (`isPlain`); other names lead out of the `skills` directory.
-/

namespace AgentProtocol.Register

open Lib

abbrev SkillFolder := Dict String String

structure Files where
  userConfig : List ConfigRow := []
  apiConfig : List ConfigRow := []
  /-- `skills/<name>`. -/
  skills : Dict String SkillFolder := ∅
  removedSkills : Dict String SkillFolder := ∅
  serviceJson : Option (List OutputRow) := none
  /-- The `service_hash` in `taxonomy/build_config.json`. -/
  serviceHash : Option String := none
  /-- `taxonomy/taxonomy.json` is there. -/
  taxonomyJson : Bool := false

structure RegistryStore where
  files : Files := {}
  /-- `_api_entries`. -/
  apiEntries : Table Entry.serviceId := ∅

/-! ## SKILL.md -/

structure SkillMeta where
  name : String
  description : String
  license : String := ""

/-- The value in a frontmatter line, with surrounding quotes stripped. -/
def unquote (l : List Char) : List Char :=
  match l with
  | c :: rest =>
    if (c = '"' || c = Char.ofNat 39) && rest.getLast? = some c then rest.dropLast else l
  | [] => l

/-- The match of one frontmatter line: one of three keys and its value. -/
def frontmatterLine (line : List Char) : Option (String × String) :=
  let line := Text.stripChars Text.isSpace line
  (["name", "description", "license"].find? fun key => (key.toList ++ [':']).isPrefixOf line).bind fun key =>
    match line.drop (key.length + 1) with
    | [] => none
    | rest => some (key, String.ofList (unquote (Text.stripChars Text.isSpace rest)))

/-- The last line for a key counts. -/
def frontmatterValue (lines : List (String × String)) (key : String) : String :=
  ((lines.reverse.find? (·.1 = key)).map Prod.snd).getD ""

def parseSkillMdContent (content : String) : Option SkillMeta :=
  match Text.splitMax "---".toList 2 content.toList with
  | [_, frontmatter, _] =>
    let lines := (Text.splitLines (Text.stripChars Text.isSpace frontmatter)).filterMap frontmatterLine
    let name := frontmatterValue lines "name"
    let description := frontmatterValue lines "description"
    if name = "" || description = "" then none
    else some { name, description, license := frontmatterValue lines "license" }
  | _ => none

/-- A line of the form `key : value`, with the blanks around the key and the colon; `none` if
the line is not about that key. -/
def splitKeyLine (key : String) (line : List Char) : Option (List Char) :=
  let indent := line.takeWhile Text.isSpace
  let rest := line.drop indent.length
  if !key.toList.isPrefixOf rest then none
  else
    let rest := rest.drop key.length
    let before := rest.takeWhile Text.isSpace
    match rest.drop before.length with
    | ':' :: rest => some (indent ++ key.toList ++ before ++ ':' :: rest.takeWhile Text.isSpace)
    | _ => none

/-- A line of the frontmatter after the updates, and the key that it is about. -/
def rewriteLine (updates : List (String × String)) (line : List Char) : List Char × Option String :=
  match updates.findSome? fun p => (splitKeyLine p.1 line).map fun head => (head ++ p.2.toList, p.1) with
  | some (line, key) => (line, some key)
  | none => (line, none)

/-- The text that `update_skill_md` writes: lines of the given keys are replaced, and keys
without a line are appended. -/
def rewriteSkillMd (content : String) (updates : List (String × String)) : Option String :=
  match Text.splitMax "---".toList 2 content.toList with
  | [_, frontmatter, body] =>
    let lines := ((Text.stripChars (· = '\n') frontmatter).splitOn '\n').map (rewriteLine updates)
    let seen := lines.filterMap Prod.snd
    let appended := (updates.filter fun p => p.1 ∉ seen).map fun p => (p.1 ++ ": " ++ p.2).toList
    some ("---\n" ++ String.ofList (['\n'].intercalate (lines.map Prod.fst ++ appended)) ++ "\n---" ++ String.ofList body)
  | _ => none

/-! ## Skill archives -/

structure ZipInfo where
  filename : String
  content : String := ""

def ZipInfo.isDir (info : ZipInfo) : Bool := Text.endsWith info.filename "/"

/-- An uploaded archive, and how the file system takes it. -/
structure Zip where
  /-- The bytes are an archive. -/
  readable : Bool := true
  infolist : List ZipInfo
  /-- The top-level directories, in the order in which their set is iterated. -/
  topDirs : List String := []
  /-- Writing fails after so many files. -/
  failAfter : Option ℕ := none

namespace Zip

def contains (zip : Zip) (name : String) : Bool := zip.infolist.any (·.filename = name)

/-- The path of `SKILL.md` in the archive and what to strip from all paths. -/
def findSkillMd (zip : Zip) : Option (String × String) :=
  if zip.contains "SKILL.md" then some ("SKILL.md", "")
  else (zip.topDirs.find? fun dir => zip.contains (dir ++ "/SKILL.md")).map fun dir => (dir ++ "/SKILL.md", dir ++ "/")

/-- `zf.read`: of several members of one name, the last. -/
def read (zip : Zip) (name : String) : String :=
  ((zip.infolist.reverse.find? (·.filename = name)).map (·.content)).getD ""

/-- Where a member is written to, relative to the folder: not at all for a directory, and
elsewhere if an absolute path is left. -/
def destination (strip : String) (info : ZipInfo) : Option String :=
  if info.isDir then none
  else
    let rel := if Text.startsWith info.filename strip then info.filename.toList.drop strip.length else info.filename.toList
    match rel with
    | [] => none
    | '/' :: _ => none
    | rel => some (String.ofList (['/'].intercalate ((rel.splitOn '/').filter fun part => part ≠ [] ∧ part ≠ ['.'])))

/-- The folder after the members were written in order. -/
def extract (infos : List ZipInfo) (strip : String) : SkillFolder :=
  Dict.ofList (infos.filterMap fun info => (destination strip info).map fun path => (path, info.content))

/-- What the archive holds: the metadata of the skill, and what to strip from all paths. -/
def open? (zip : Zip) : Except Failure (SkillMeta × String) :=
  if !zip.readable then .error .badZip
  else match zip.infolist.find? fun info => Text.startsWith info.filename "/" || Text.contains info.filename ".." with
    | some info => .error (.unsafePath info.filename)
    | none => match zip.findSkillMd with
      | none => .error .noSkillMd
      | some (path, strip) => match parseSkillMdContent (zip.read path) with
        | none => .error .badSkillMd
        | some skill => .ok (skill, strip)

end Zip

/-- The name is a single path component. -/
def isPlain (name : String) : Bool := name ≠ "" && name ≠ "." && name ≠ ".." && '/' ∉ name.toList

def listSkillFiles (folder : SkillFolder) : List String := (folder.rows.map Prod.fst).insertionSort (· ≤ ·)

def skillData (skill : SkillMeta) (folder : SkillFolder) : SkillData :=
  { name := skill.name, description := skill.description, license := skill.license
    skillPath := "skills/" ++ skill.name, files := listSkillFiles folder }

/-- The entry of a skill folder, if it has a valid `SKILL.md`. -/
def loadSkill (folder : SkillFolder) : Option Entry := do
  let content ← folder.lookup "SKILL.md"
  let skill ← parseSkillMdContent content
  some { serviceId := generateServiceId "skill" skill.name, source := .skillFolder, payload := .skill (skillData skill folder) }

namespace Files

def loadUserConfig (f : Files) : List Entry := f.userConfig.filterMap (parseServiceEntry .userConfig)

def loadApiConfig (f : Files) : List Entry := f.apiConfig.filterMap (parseServiceEntry .apiConfig)

/-- `load_skills`, in the order of the folder names. -/
def loadSkills (f : Files) : List Entry :=
  ((f.skills.rows.filter fun p => isPlain p.1).insertionSort fun p q => p.1 ≤ q.1).filterMap fun p => loadSkill p.2

end Files

namespace RegistryStore

def flushApiConfig (s : RegistryStore) : RegistryStore :=
  { s with files := { s.files with apiConfig := s.apiEntries.rows.map Entry.toConfigRow } }

def saveApiEntry (s : RegistryStore) (entry : Entry) : RegistryStore :=
  flushApiConfig { s with apiEntries := s.apiEntries.insert entry }

def removeApiEntry (s : RegistryStore) (serviceId : String) : RegistryStore :=
  match s.apiEntries.get? serviceId with
  | none => s
  | some _ => flushApiConfig { s with apiEntries := s.apiEntries.erase serviceId }

def saveApiBatch (s : RegistryStore) (entries : List Entry) : RegistryStore :=
  flushApiConfig { s with apiEntries := (∅ : Table Entry.serviceId).insertAll entries }

def putSkill (s : RegistryStore) (name : String) (folder : SkillFolder) : RegistryStore :=
  { s with files := { s.files with skills := s.files.skills.set name folder } }

/-- `save_skill_zip`: the folder is emptied before the members are written, so a failure leaves
some of them. -/
def saveSkillZip (s : RegistryStore) (zip : Zip) : Except Failure SkillData × RegistryStore :=
  match zip.open? with
  | .error e => (.error e, s)
  | .ok (skill, strip) =>
    match zip.failAfter with
    | some n => (.error .fileError, s.putSkill skill.name (Zip.extract (zip.infolist.take n) strip))
    | none =>
      let folder := Zip.extract zip.infolist strip
      (.ok (skillData skill folder), s.putSkill skill.name folder)

/-- `remove_skill`: the folder is moved to `removed_skills`. -/
def removeSkill (s : RegistryStore) (name : String) : RegistryStore :=
  match s.files.skills.lookup name with
  | none => s
  | some folder => { s with files := { s.files with
      skills := s.files.skills.erase name
      removedSkills := s.files.removedSkills.set name folder } }

def renameSkill (s : RegistryStore) (old new : String) : Except Failure RegistryStore :=
  if new = "" || new = old then .ok s
  else match s.files.skills.lookup old with
    | none => .error (.skillFolderMissing old)
    | some folder =>
      if s.files.skills.contains new then .error (.skillFolderExists new)
      else .ok { s with files := { s.files with skills := Dict.set (s.files.skills.erase old) new folder } }

def updateSkillMd (s : RegistryStore) (name : String) (updates : List (String × String)) : Except Failure RegistryStore :=
  match s.files.skills.lookup name with
  | none => .error (.skillFolderMissing name)
  | some folder => match folder.lookup "SKILL.md" with
    | none => .error (.skillFolderMissing name)
    | some content => match rewriteSkillMd content updates with
      | none => .error .badSkillMd
      | some content => .ok (s.putSkill name (folder.set "SKILL.md" content))

def writeServiceJson (s : RegistryStore) (services : List OutputRow) : RegistryStore :=
  { s with files := { s.files with serviceJson := some services } }

end RegistryStore

end AgentProtocol.Register
