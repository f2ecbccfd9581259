import Colloquy.CommandLine.Options
import Colloquy.Engine.Artifact
import Colloquy.Json.Decoder
import Colloquy.Session.Key

/-!
The configuration of a run. Its parts have defaults; a file may replace them, then the environment,
then the command line.
-/

set_option autoImplicit false

namespace Colloquy

structure Config where
  /-- Whether scripts leave artifacts. -/
  artifactsEnabled : Bool
  layout : Layout
  sessionKey : Option String
  /-- The level of the log. It goes to the error stream, and nothing else depends on it; what is
  logged is left out. -/
  logLevel : String
  deriving DecidableEq, Repr

namespace Config

def standard : Config :=
  ⟨false, .standard, none, "info"⟩

def toJson (config : Config) : Json :=
  .object [
    ("artifacts", .object [
      ("enabled", .bool config.artifactsEnabled),
      ("output_dir", .string config.layout.outputDir),
      ("code_extension", .string config.layout.codeExtension),
      ("symbol_extension", .string config.layout.symbolExtension)]),
    ("session", .object [
      ("key", match config.sessionKey with
        | none => .null
        | some key => .string key)]),
    ("logging", .object [("level", .string config.logLevel)])]

section

open Json

/-- The section on artifacts as it is read: whether they are enabled, and all other members. -/
structure ArtifactsRead where
  enabled : Option Bool
  others : List (String × Kept)

def artifactsMember (read : ArtifactsRead) (name : String) (node : Node) :
    Except ReadError ArtifactsRead :=
  if name = "enabled" then do
    return { read with enabled := ← Decode.once read.enabled (Decode.bool node) }
  else do
    -- Inside of two objects, two levels of nesting are used up.
    let kept ← node.keep (nestingLimit - 2)
    return { read with others := read.others ++ [(name, kept)] }

/-- A text among the members of a section, or its default. -/
def textMember (others : List (String × Kept)) (name fallback : String) :
    Except ReadError String :=
  match others.filter fun member => member.1 = name with
  | [] => .ok fallback
  | [(_, .string text)] => .ok text
  | _ => .error .mismatch

/-- The section on artifacts is only accepted as an object. -/
def artifactsSection : Node → Except ReadError (Bool × Layout)
  | .object members break? => do
    let read ← Decode.members artifactsMember ⟨none, []⟩ members break?
    let layout := Layout.standard
    let outputDir ← textMember read.others "output_dir" layout.outputDir
    let codeExtension ← textMember read.others "code_extension" layout.codeExtension
    let symbolExtension ← textMember read.others "symbol_extension" layout.symbolExtension
    return (read.enabled.getD false, ⟨outputDir, codeExtension, symbolExtension⟩)
  | node => node.mismatch

/-- A section with one field, as an object or as a list of at most one item. -/
def fieldSection {α : Type} (name : String) (decode : Node → Except ReadError α) (fallback : α) :
    Node → Except ReadError α
  | .object members break? => do
    let present ← Decode.members
      (fun present member node =>
        if member = name then Decode.once present (decode node)
        else do
          node.pass
          return present)
      none members break?
    return present.getD fallback
  | .list [] break? => do
    ending break?
    return fallback
  | .list (item :: rest) break? => do
    let value ← decode item
    Decode.noMore rest break?
    return value
  | node => node.mismatch

def sessionSection : Node → Except ReadError (Option String) :=
  fieldSection "key" (Decode.optional Decode.string) standard.sessionKey

def loggingSection : Node → Except ReadError String :=
  fieldSection "level" Decode.string standard.logLevel

structure Sections where
  artifacts : Option (Bool × Layout)
  session : Option (Option String)
  logging : Option String

def sectionMember (sections : Sections) (name : String) (node : Node) :
    Except ReadError Sections :=
  match name with
  | "artifacts" => do
    return { sections with
      artifacts := ← Decode.once sections.artifacts (artifactsSection node) }
  | "session" => do
    return { sections with session := ← Decode.once sections.session (sessionSection node) }
  | "logging" => do
    return { sections with logging := ← Decode.once sections.logging (loggingSection node) }
  | _ => do
    node.pass
    return sections

def Sections.config (sections : Sections) : Config :=
  let (enabled, layout) := sections.artifacts.getD (standard.artifactsEnabled, standard.layout)
  ⟨enabled, layout, sections.session.getD standard.sessionKey,
    sections.logging.getD standard.logLevel⟩

/-- The sections given as a list, of which the last ones may be left out. -/
def sectionItems (items : List Node) (break? : Option ReadError) : Except ReadError Sections :=
  match items with
  | [] => do
    ending break?
    return ⟨none, none, none⟩
  | artifacts :: items => do
    let artifacts ← artifactsSection artifacts
    match items with
    | [] => do
      ending break?
      return ⟨some artifacts, none, none⟩
    | session :: items => do
      let session ← sessionSection session
      match items with
      | [] => do
        ending break?
        return ⟨some artifacts, some session, none⟩
      | logging :: items => do
        let logging ← loggingSection logging
        Decode.noMore items break?
        return ⟨some artifacts, some session, some logging⟩

def decode : Node → Except ReadError Config
  | .object members break? => do
    let sections ← Decode.members sectionMember ⟨none, none, none⟩ members break?
    return sections.config
  | .list items break? => do
    let sections ← sectionItems items break?
    return sections.config
  | node => node.mismatch

def ofJson? (text : String) : Except ReadError Config :=
  Json.read decode text

end

end Config

/-- The variables of the environment that count, as bytes. -/
structure EnvironmentVariables where
  sessionKey : Option (List UInt8)
  logLevel : Option (List UInt8)
  /-- The log level of last resort. -/
  generalLogLevel : Option (List UInt8)

inductive ConfigError where
  | unreadable (failure : Failure)
  | notJson (e : ReadError)
  | invalid (field value : String)

def ReadError.message : ReadError → String
  | .ended => "unexpected end of text"
  | .malformed => "not a JSON text"
  | .mismatch => "unexpected content"

def ConfigError.message : ConfigError → String
  | .unreadable failure => "failed to read config file: " ++ failure.message
  | .notJson e => "failed to parse config file: " ++ e.message
  | .invalid field value => "invalid value for " ++ field ++ ": '" ++ value ++ "'"

namespace Config

/-- A variable that is no text counts as unset. -/
def variableText (bytes? : Option (List UInt8)) : Option String :=
  bytes?.bind Text.Utf8.decode?

def applyEnvironment (config : Config) (environment : EnvironmentVariables) : Config :=
  { config with
    sessionKey :=
      match variableText environment.sessionKey with
      | none | some "" => config.sessionKey
      | some key => some key
    logLevel :=
      ((variableText environment.logLevel).or
        (variableText environment.generalLogLevel)).getD config.logLevel }

def applyOptions (config : Config) (options : Options) : Config :=
  { config with
    artifactsEnabled := options.debug || config.artifactsEnabled
    sessionKey := options.session.or config.sessionKey
    logLevel := options.logLevel.getD config.logLevel }

/-- An extension is a part of one file name. -/
def isExtension (text : String) : Bool :=
  !text.isEmpty && text.toList.all fun c => c ≠ '/' && c ≠ '\\' && c ≠ '.'

/-- Refuses extensions that cannot name two files in the output directory. -/
def validate (config : Config) : Except ConfigError Unit :=
  let code := config.layout.codeExtension
  let symbols := config.layout.symbolExtension
  if !isExtension code then .error (.invalid "artifacts.code_extension" code)
  else if !isExtension symbols then .error (.invalid "artifacts.symbol_extension" symbols)
  else if code = symbols then .error (.invalid "artifacts.symbol_extension" symbols)
  else .ok ()

/-- The configuration of a run, given the text of its file if it has one. -/
def combine (file? : Option String) (environment : EnvironmentVariables) (options : Options) :
    Except ConfigError Config := do
  let base ←
    match file? with
    | none => pure standard
    | some text =>
      match ofJson? text with
      | .ok config => pure config
      | .error e => .error (.notJson e)
  let config := (base.applyEnvironment environment).applyOptions options
  config.validate
  return config

def load {m : Type → Type} [Monad m] [FileSystem m] (environment : EnvironmentVariables)
    (options : Options) : m (Except ConfigError Config) := do
  match options.config with
  | none => return combine none environment options
  | some path =>
    match ← FileSystem.readText path with
    | .error failure => return .error (.unreadable failure)
    | .ok text => return combine (some text) environment options

def layout? (config : Config) : Option Layout :=
  if config.artifactsEnabled then some config.layout else none

def key? (config : Config) : Option Key :=
  config.sessionKey.map Key.mk

end Config

end Colloquy
