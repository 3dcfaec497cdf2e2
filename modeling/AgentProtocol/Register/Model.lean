-- SUMMARY: Registry entries with their type-specific data, partial updates of these, format validation, and the rows of config and output files.
import AgentProtocol.Lib.Json
import AgentProtocol.Lib.Sha256
import AgentProtocol.Lib.Encoding
import AgentProtocol.Lib.Text
import AgentProtocol.Register.Service

namespace AgentProtocol.Register

open Lib

/-! ## Service data -/

structure GenericServiceData where
  name : String
  description : String
  inputSchema : Json := .obj .nil
  url : Option String := none
  deriving DecidableEq

structure SkillData where
  name : String
  description : String
  license : String := ""
  skillPath : String := ""
  files : List String := []
  deriving DecidableEq

structure AgentSkill where
  id : String := ""
  name : String
  description : String := ""
  tags : List String := []
  examples : List String := []
  inputModes : List String := []
  outputModes : List String := []
  extra : List (String × Json) := []
  deriving DecidableEq

/-- `provider` and `capabilities` are kept as they were given. -/
structure AgentCard where
  name : String
  description : String
  version : String := ""
  protocolVersion : String := ""
  url : String := ""
  preferredTransport : String := ""
  provider : Option Json := none
  capabilities : Option Json := none
  skills : List AgentSkill := []
  defaultInputModes : List String := []
  defaultOutputModes : List String := []
  documentationUrl : String := ""
  iconUrl : String := ""
  extra : List (String × Json) := []
  deriving DecidableEq

/-- The type of an entry together with its data. -/
inductive Payload where
  | generic (data : GenericServiceData)
  /-- The card is missing if it is to be fetched and could not be. -/
  | a2a (card : Option AgentCard) (url : Option String)
  | skill (data : SkillData)
  deriving DecidableEq

def Payload.type : Payload → ServiceType
  | .generic _ => .generic
  | .a2a .. => .a2a
  | .skill _ => .skill

structure Entry where
  serviceId : String
  source : Source
  payload : Payload
  ownerId : Option String := none
  leaseTtl : Option ℤ := none
  deriving DecidableEq

/-- `hashlib.sha256(..).hexdigest()` of a text. -/
def hexdigest (s : String) : List Char :=
  (sha256 (utf8 s)).flatMap fun b => [Json.hexDigit (b.toNat / 16), Json.hexDigit (b.toNat % 16)]

def generateServiceId (typePrefix name : String) : String :=
  typePrefix ++ "_" ++ String.ofList ((hexdigest name).take 16)

/-! ## Failures -/

/-- What an operation raises. -/
inductive Failure where
  | notFound (serviceId : String)
  | userConfigEntry
  | skillEntry
  | typeNotAllowed (type : ServiceType)
  | invalid (type : ServiceType) (errors : List String)
  | noCardGiven
  | fetchFailed
  | unknownFields (fields : List String)
  | cardUnresolved
  /-- A field has a type that its model does not allow. -/
  | badField
  /-- A name that is no text is used as a path. -/
  | typeError
  | roleCannotRegister (role : Role)
  | unclaimed
  | ownedByAnother (serviceId : String)
  | badZip
  | unsafePath (path : String)
  | noSkillMd
  | badSkillMd
  | skillFolderMissing (name : String)
  | skillFolderExists (name : String)
  /-- The operating system refuses to read or write a file. -/
  | fileError
  deriving DecidableEq

/-- The class of the exception, as far as callers tell them apart. -/
def Failure.kind : Failure → Option RegistryError
  | .notFound _ => some .notFound
  | .roleCannotRegister _ | .unclaimed | .ownedByAnother _ => some .permissionError
  | .fetchFailed | .typeError | .badZip | .skillFolderMissing _ | .fileError => none
  | _ => some .valueError

/-! ## Partial updates

A model is dumped, the updates are put over it, and the result is parsed again. Fields are
independent of each other, so this is done field by field: `get?` is what the dump shows,
and `set` fails where parsing would. -/

abbrev Updates := Dict String Json

namespace GenericServiceData

def get? (d : GenericServiceData) : String → Option Json
  | "name" => some (.str d.name)
  | "description" => some (.str d.description)
  | "inputSchema" => some d.inputSchema
  | "url" => some (d.url.elim .null .str)
  | _ => none

def set (d : GenericServiceData) (key : String) (value : Json) : Option GenericServiceData :=
  match key, value with
  | "name", .str s => some { d with name := s }
  | "description", .str s => some { d with description := s }
  | "inputSchema", .obj fields => some { d with inputSchema := .obj fields }
  | "url", .str s => some { d with url := some s }
  | "url", .null => some { d with url := none }
  | _, _ => none

end GenericServiceData

namespace AgentSkill

def toJson (s : AgentSkill) : Json := .object
  ([("id", .str s.id), ("name", .str s.name), ("description", .str s.description), ("tags", .strs s.tags),
    ("examples", .strs s.examples), ("inputModes", .strs s.inputModes), ("outputModes", .strs s.outputModes)] ++ s.extra)

def set (s : AgentSkill) (key : String) (value : Json) : Option AgentSkill :=
  match key with
  | "id" => value.asStr.map fun v => { s with id := v }
  | "name" => value.asStr.map fun v => { s with name := v }
  | "description" => value.asStr.map fun v => { s with description := v }
  | "tags" => value.asStrs.map fun v => { s with tags := v }
  | "examples" => value.asStrs.map fun v => { s with examples := v }
  | "inputModes" => value.asStrs.map fun v => { s with inputModes := v }
  | "outputModes" => value.asStrs.map fun v => { s with outputModes := v }
  | key => some { s with extra := s.extra ++ [(key, value)] }

/-- The name is required. -/
def ofJson (j : Json) : Option AgentSkill :=
  match j.asObject with
  | none => none
  | some fields =>
    if fields.all (·.1 ≠ "name") then none
    else fields.foldlM (fun s p => s.set p.1 p.2) { name := "" }

end AgentSkill

namespace AgentCard

def extraField (c : AgentCard) (key : String) : Option Json := (c.extra.find? (·.1 = key)).map Prod.snd

def get? (c : AgentCard) : String → Option Json
  | "name" => some (.str c.name)
  | "description" => some (.str c.description)
  | "version" => some (.str c.version)
  | "protocolVersion" => some (.str c.protocolVersion)
  | "url" => some (.str c.url)
  | "preferredTransport" => some (.str c.preferredTransport)
  | "provider" => some (c.provider.getD .null)
  | "capabilities" => some (c.capabilities.getD .null)
  | "skills" => some (.list (c.skills.map AgentSkill.toJson))
  | "defaultInputModes" => some (.strs c.defaultInputModes)
  | "defaultOutputModes" => some (.strs c.defaultOutputModes)
  | "documentationUrl" => some (.str c.documentationUrl)
  | "iconUrl" => some (.str c.iconUrl)
  | key => c.extraField key

/-- `Optional[AgentProvider | dict]`. -/
def providerOf : Json → Option (Option Json)
  | .null => some none
  | .obj fields => some (some (.obj fields))
  | _ => none

/-- `Optional[AgentCapabilities | dict | list]`. -/
def capabilitiesOf : Json → Option (Option Json)
  | .null => some none
  | .obj fields => some (some (.obj fields))
  | .arr items => some (some (.arr items))
  | _ => none

/-- A field that the model does not declare is kept as an extra one. -/
def set (c : AgentCard) (key : String) (value : Json) : Option AgentCard :=
  match key with
  | "name" => value.asStr.map fun v => { c with name := v }
  | "description" => value.asStr.map fun v => { c with description := v }
  | "version" => value.asStr.map fun v => { c with version := v }
  | "protocolVersion" => value.asStr.map fun v => { c with protocolVersion := v }
  | "url" => value.asStr.map fun v => { c with url := v }
  | "preferredTransport" => value.asStr.map fun v => { c with preferredTransport := v }
  | "provider" => (providerOf value).map fun v => { c with provider := v }
  | "capabilities" => (capabilitiesOf value).map fun v => { c with capabilities := v }
  | "skills" => (value.asList.bind fun l => l.mapM AgentSkill.ofJson).map fun v => { c with skills := v }
  | "defaultInputModes" => value.asStrs.map fun v => { c with defaultInputModes := v }
  | "defaultOutputModes" => value.asStrs.map fun v => { c with defaultOutputModes := v }
  | "documentationUrl" => value.asStr.map fun v => { c with documentationUrl := v }
  | "iconUrl" => value.asStr.map fun v => { c with iconUrl := v }
  | key => some { c with extra := (c.extra.filter (·.1 ≠ key)) ++ [(key, value)] }

end AgentCard

namespace SkillData

def get? (d : SkillData) : String → Option Json
  | "name" => some (.str d.name)
  | "description" => some (.str d.description)
  | "license" => some (.str d.license)
  | _ => none

def set (d : SkillData) (key : String) (value : Json) : Option SkillData :=
  match key, value with
  | "name", .str s => some { d with name := s }
  | "description", .str s => some { d with description := s }
  | "license", .str s => some { d with license := s }
  | _, _ => none

end SkillData

/-- The keys whose value differs from what the dump shows. -/
def changedKeys (get? : String → Option Json) (updates : Updates) : List String :=
  (updates.rows.filter fun p => get? p.1 ≠ some p.2).map Prod.fst

def setAll {α : Type} (set : α → String → Json → Option α) (a : α) (updates : Updates) : Option α :=
  updates.rows.foldlM (fun a p => set a p.1 p.2) a

/-! ## Validation -/

inductive FormatVersion where
  | v0_0
  | v1_0
  deriving DecidableEq

/-- The effective `register_config.json`: the types that are allowed. Only a2a has more than
one version to start from. -/
structure FormatConfig where
  generic : Bool := true
  skill : Bool := true
  a2a : Option FormatVersion := some .v0_0
  /-- The allow-list of the constructor, which takes precedence for a2a. -/
  allowedA2aVersions : Option (List FormatVersion) := none

def hasText (s : String) : Bool := Text.strip s ≠ ""

def required (field : String) (present : Bool) : List String := if present then [] else [field ++ " is required"]

def checkNameDescription (name description : String) : List String :=
  required "name" (hasText name) ++ required "description" (hasText description)

def objectField (j : Json) (key : String) : String :=
  ((j.asObject.bind fun fields => fields.find? (·.1 = key)).bind fun p => p.2.asStr).getD ""

def checkSkill (i : ℕ) (s : AgentSkill) : List String :=
  let path := "skills[" ++ toString i ++ "]"
  required (path ++ ".id") (hasText s.id) ++ required (path ++ ".name") (hasText s.name) ++
    required (path ++ ".description") (hasText s.description) ++
    if s.tags = [] then [path ++ ".tags is required (at least one tag)"] else []

/-- `_v1_0`. -/
def checkFullCard (c : AgentCard) : List String :=
  checkNameDescription c.name c.description ++ required "version" (hasText c.version) ++
    required "url (or supported_interfaces)" (hasText c.url) ++
    (if c.capabilities = none then ["capabilities is required (can be empty object)"] else []) ++
    (if c.defaultInputModes = [] then ["defaultInputModes is required (e.g. [\"text/plain\"])"] else []) ++
    (if c.defaultOutputModes = [] then ["defaultOutputModes is required (e.g. [\"text/plain\"])"] else []) ++
    (if c.skills = [] then ["skills is required (at least one skill)"]
     else (c.skills.zipIdx.map fun p => checkSkill p.2 p.1).flatten) ++
    match c.provider with
    | none => []
    | some provider =>
      (if hasText (objectField provider "organization") then []
       else ["provider.organization is required when provider is present"]) ++
      if hasText (objectField provider "url") then [] else ["provider.url is required when provider is present"]

/-- Versions are tried from the given one on; the errors are those of the newest. -/
def checkCard (minVersion : FormatVersion) (c : AgentCard) : List String :=
  match minVersion with
  | .v0_0 => if checkNameDescription c.name c.description = [] then [] else checkFullCard c
  | .v1_0 => checkFullCard c

def oldest : List FormatVersion → Option FormatVersion
  | [] => none
  | versions => some (if .v0_0 ∈ versions then .v0_0 else .v1_0)

def checkA2a (cfg : FormatConfig) (minVersion : FormatVersion) (c : AgentCard) : List String :=
  match cfg.allowedA2aVersions with
  | none => checkCard minVersion c
  | some versions => match oldest versions with
    | none => ["No known A2A versions in allowed set"]
    | some version => checkCard version c

def FormatConfig.allows (cfg : FormatConfig) : ServiceType → Bool
  | .generic => cfg.generic
  | .a2a => cfg.a2a.isSome
  | .skill => cfg.skill

/-- `validate_service`, for a type that is allowed. -/
def validateService (cfg : FormatConfig) : Payload → List String
  | .generic d => checkNameDescription d.name d.description
  | .skill d => checkNameDescription d.name d.description
  | .a2a (some card) _ => checkA2a cfg (cfg.a2a.getD .v0_0) card
  | .a2a none _ => ["agent_card not present (URL fetch not yet completed)"]

def requireTypeAllowed (cfg : FormatConfig) (type : ServiceType) : Except Failure Unit :=
  if cfg.allows type then .ok () else .error (.typeNotAllowed type)

def requireValid (cfg : FormatConfig) (payload : Payload) : Except Failure Unit := do
  requireTypeAllowed cfg payload.type
  match validateService cfg payload with
  | [] => .ok ()
  | errors => .error (.invalid payload.type errors)

/-- `_validate_entry`: whether an entry from a file is kept. With `skipUrlOnly`, a card that is
yet to be fetched passes. -/
def validateEntry (cfg : FormatConfig) (skipUrlOnly : Bool) (payload : Payload) : Bool :=
  cfg.allows payload.type && match payload with
    | .a2a none _ => skipUrlOnly
    | payload => validateService cfg payload = []

/-! ## Output -/

def buildDescription (c : AgentCard) : String :=
  let own := if c.description = "" then [] else [Text.rstrip '.' c.description ++ "."]
  let skills := c.skills.map fun s => Text.strip ((if s.name = "" then "" else "[" ++ s.name ++ "]") ++ " " ++ s.description)
  " ".intercalate (own ++ if c.skills = [] then [] else ["Skills: " ++ "; ".intercalate skills])

inductive Metadata where
  | skill (skillPath license : String) (files : List String)
  | generic (inputSchema : Option Json) (url : Option String)
  | a2a (card : AgentCard)
  | unresolved
  deriving DecidableEq

/-- A row of `service.json`. -/
structure OutputRow where
  id : String
  type : ServiceType
  name : String
  description : String
  metadata : Metadata
  ownerId : Option String := none
  deriving DecidableEq

def Entry.toOutput (e : Entry) : OutputRow :=
  let ownerId := e.ownerId.filter (· ≠ "")
  match e.payload with
  | .skill d => { id := e.serviceId, type := .skill, name := d.name, description := d.description, ownerId
                  metadata := .skill d.skillPath d.license d.files }
  | .generic d => { id := e.serviceId, type := .generic, name := d.name, description := d.description, ownerId
                    metadata := .generic (if d.inputSchema = .obj .nil then none else some d.inputSchema) (d.url.filter (· ≠ "")) }
  | .a2a (some card) _ => { id := e.serviceId, type := .a2a, name := card.name, description := buildDescription card, ownerId
                            metadata := .a2a card }
  | .a2a none url => { id := e.serviceId, type := .a2a, name := e.serviceId, ownerId, metadata := .unresolved
                       description := "Unresolved agent card: " ++ (url.filter (· ≠ "")).getD "unknown" }

/-- Lexicographic, as tuples compare. -/
def pairLE (a b : String × String) : Prop := a.1 < b.1 ∨ (a.1 = b.1 ∧ a.2 ≤ b.2)

instance (a b : String × String) : Decidable (pairLE a b) := inferInstanceAs (Decidable (_ ∨ _))

/-- `_compute_build_hash`: over names and descriptions only, in sorted order. -/
def computeBuildHash (services : List OutputRow) : String :=
  let pairs := (services.map fun s => (s.name, s.description)).insertionSort pairLE
  String.ofList (hexdigest (Json.dumps (.list (pairs.map fun p => .strs [p.1, p.2]))))

/-! ## Config files -/

/-- A row of `user_config.json` or `api_config.json`; a missing text field is empty. -/
inductive ConfigRow where
  | generic (serviceId name description : String) (inputSchema : Json) (url : Option String) (ownerId : Option String)
      (leaseTtl : Option ℤ)
  | a2a (serviceId : String) (card : Option AgentCard) (url : Option String) (ownerId : Option String)
      (leaseTtl : Option ℤ)
  /-- Of another type, or with a field of a wrong type. -/
  | other

def parseServiceEntry (source : Source) : ConfigRow → Option Entry
  | .generic serviceId name description inputSchema url ownerId leaseTtl =>
    let name := Text.strip name
    let description := Text.strip description
    if name = "" || description = "" then none
    else some
      { serviceId := if serviceId = "" then generateServiceId "generic" name else serviceId
        source, ownerId := ownerId.filter (· ≠ ""), leaseTtl := leaseTtl.filter (0 < ·)
        payload := .generic { name, description, inputSchema, url } }
  | .a2a serviceId card url ownerId leaseTtl =>
    let name := match card with
      | some card => card.name
      | none => (url.filter (· ≠ "")).getD "unknown"
    some
      { serviceId := if serviceId = "" then generateServiceId "agent" name else serviceId
        source, ownerId := ownerId.filter (· ≠ ""), leaseTtl := leaseTtl.filter (0 < ·)
        payload := .a2a card url }
  | .other => none

def Entry.toConfigRow (e : Entry) : ConfigRow :=
  let ownerId := e.ownerId.filter (· ≠ "")
  let leaseTtl := e.leaseTtl.filter (· ≠ 0)
  match e.payload with
  | .generic d => .generic e.serviceId d.name d.description d.inputSchema (d.url.filter (· ≠ "")) ownerId leaseTtl
  | .a2a card url => .a2a e.serviceId card (url.filter (· ≠ "")) ownerId leaseTtl
  | .skill _ => .other

end AgentProtocol.Register
