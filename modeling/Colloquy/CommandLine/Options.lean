import Colloquy.Path
import Colloquy.Text.Blank
import Colloquy.Text.Quoted

/-!
Options on the command line. An argument is a sequence of bytes. A long option is written
`--name`, with a value `--name=value` or `--name value`; short options are single letters that may
share one dash, and the rest of such a cluster is the value of an option that takes one. What comes
after the first `--` belongs to the scripts.
-/

set_option autoImplicit false

namespace Colloquy

abbrev Argument := List UInt8

structure Options where
  scripts : List Path
  scriptArgs : List String
  debug : Bool
  session : Option String
  config : Option Path
  logLevel : Option String
  version : Bool
  help : Bool

inductive OptionError where
  | unknown (option : String)
  | missingValue (option : String)
  /-- A value for an option that takes none. -/
  | unexpectedValue (option : String) (value : Argument)
  /-- A value that is no text where a text is wanted. -/
  | notText (value : Argument)
  | invalid (field value : String)

namespace Options

def initial : Options :=
  ⟨[], [], false, none, none, none, false, false⟩

/-- A byte sequence between quotation marks, with all bytes that are no text escaped. -/
def quoteBytes (bytes : List UInt8) : String :=
  let escape : Text.Utf8.Piece → List Char
    | .char c => Text.escapeChar c
    | .broken bytes => bytes.flatMap fun b =>
        ['\\', 'x'] ++ (Nat.toDigits 16 b.toNat).map Char.toUpper
  String.ofList ('"' :: (Text.Utf8.scan bytes).flatMap escape ++ ['"'])

end Options

def OptionError.message : OptionError → String
  | .unknown option => "invalid option '" ++ option ++ "'"
  | .missingValue option => "missing argument for option '" ++ option ++ "'"
  | .unexpectedValue option value =>
    "unexpected argument for option '" ++ option ++ "': " ++ Options.quoteBytes value
  | .notText value => "argument is invalid unicode: " ++ Options.quoteBytes value
  | .invalid field value => "invalid value for " ++ field ++ ": '" ++ value ++ "'"

namespace Options

inductive Flag where
  | help
  | version
  | debug
  deriving DecidableEq, Repr

inductive Setting where
  | session
  | config
  | logLevel
  deriving DecidableEq, Repr

/-- What an option means: to set a flag, or to give a setting a value. -/
inductive Meaning where
  | flag (flag : Flag)
  | setting (setting : Setting)
  deriving DecidableEq, Repr

def short? : Char → Option Meaning
  | 'h' => some (.flag .help)
  | 'V' => some (.flag .version)
  | 'd' => some (.flag .debug)
  | 's' => some (.setting .session)
  | 'c' => some (.setting .config)
  | 'l' => some (.setting .logLevel)
  | _ => none

def long? : String → Option Meaning
  | "help" => some (.flag .help)
  | "version" => some (.flag .version)
  | "debug" => some (.flag .debug)
  | "session" => some (.setting .session)
  | "config" => some (.setting .config)
  | "log-level" => some (.setting .logLevel)
  | _ => none

def setFlag (options : Options) : Flag → Options
  | .help => { options with help := true }
  | .version => { options with version := true }
  | .debug => { options with debug := true }

/-- Gives a setting its value, which replaces an earlier one. A session key must not be blank. -/
def assign (options : Options) (setting : Setting) (value : Argument) :
    Except OptionError Options :=
  match Text.Utf8.decode? value with
  | none => .error (.notText value)
  | some text =>
    match setting with
    | .session =>
      if (Text.trim text.toList).isEmpty then .error (.invalid "session" text)
      else .ok { options with session := some text }
    | .config => .ok { options with config := some ⟨value⟩ }
    | .logLevel => .ok { options with logLevel := some text }

def shortName (c : Char) : String :=
  String.ofList ['-', c]

/-- The value in the rest of a cluster, which an equals sign may set off. -/
def attachedValue : List Text.Utf8.Piece → Argument
  | .char '=' :: rest => rest.flatMap Text.Utf8.Piece.bytes
  | rest => rest.flatMap Text.Utf8.Piece.bytes

/-- Reads a cluster of short options after `last`. The second part of the result is the setting,
with its letter, whose value is the next argument. -/
def readCluster (options : Options) (last : Option Char) :
    List Text.Utf8.Piece → Except OptionError (Options × Option (Setting × Char))
  | [] => .ok (options, none)
  | .broken _ :: _ => .error (.unknown (shortName '\uFFFD'))
  | .char c :: rest =>
    match if c = '=' then last else none with
    | some before =>
      .error (.unexpectedValue (shortName before) (rest.flatMap Text.Utf8.Piece.bytes))
    | none =>
      match short? c with
      | none => .error (.unknown (shortName c))
      | some (.flag flag) => readCluster (options.setFlag flag) (some c) rest
      | some (.setting setting) =>
        if rest.isEmpty then .ok (options, some (setting, c))
        else (options.assign setting (attachedValue rest)).map fun options => (options, none)

/-- How an argument is written. -/
inductive Form where
  | long (name : String) (value? : Option Argument)
  | cluster (pieces : List Text.Utf8.Piece)
  | plain

def dash : UInt8 := 0x2D

def equals : UInt8 := 0x3D

def Form.ofArgument (argument : Argument) : Form :=
  match argument with
  | [] => .plain
  | first :: rest =>
    if first ≠ dash || rest.isEmpty then .plain
    else if rest.head? = some dash then
      let name := rest.tail.takeWhile (· ≠ equals)
      let value := rest.tail.drop name.length
      .long (Text.Utf8.decodeLossy name) (if value.isEmpty then none else some value.tail)
    else .cluster (Text.Utf8.scan rest)

/-- What is still to be done for an argument. -/
inductive Pending where
  | done (options : Options)
  /-- The next argument is a value. -/
  | value (options : Options) (setting : Setting) (option : String)

def readArgument (options : Options) (argument : Argument) : Except OptionError Pending :=
  match Form.ofArgument argument with
  | .plain => .ok (.done { options with scripts := options.scripts ++ [⟨argument⟩] })
  | .long name value? =>
    let option := "--" ++ name
    match long? name, value? with
    | none, _ => .error (.unknown option)
    | some (.flag flag), none => .ok (.done (options.setFlag flag))
    | some (.flag _), some value => .error (.unexpectedValue option value)
    | some (.setting setting), some value => (options.assign setting value).map .done
    | some (.setting setting), none => .ok (.value options setting option)
  | .cluster pieces =>
    match readCluster options none pieces with
    | .error e => .error e
    | .ok (options, none) => .ok (.done options)
    | .ok (options, some (setting, c)) => .ok (.value options setting (shortName c))

def readAll (options : Options) : List Argument → Except OptionError Options
  | [] => .ok options
  | argument :: rest =>
    match readArgument options argument with
    | .error e => .error e
    | .ok (.done options) => readAll options rest
    | .ok (.value options setting option) =>
      match rest with
      | [] => .error (.missingValue option)
      | value :: rest =>
        match options.assign setting value with
        | .error e => .error e
        | .ok options => readAll options rest

def scriptArgument (argument : Argument) : Except OptionError String :=
  match Text.Utf8.decode? argument with
  | some text => .ok text
  | none => .error (.invalid "script argument" (Text.Utf8.decodeLossy argument))

def separator : Argument :=
  [dash, dash]

/-- Reads a command line, of which the first argument is the name of the program. -/
def parse (argv : List Argument) : Except OptionError Options := do
  let arguments := argv.tail
  let own := arguments.takeWhile (· ≠ separator)
  let scriptArgs ← (arguments.drop (own.length + 1)).mapM scriptArgument
  readAll { initial with scriptArgs } own

end Options

end Colloquy
