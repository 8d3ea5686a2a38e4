import SurrealZod.Generation.Summary
import SurrealZod.Settings.Basic

/-!
# Options of the command

The command takes options only. An option is written with two dashes and its name or with one dash and its letter, and
letters of options without a value may share a dash. The value of an option follows it in the same argument or is the
next one. Every option is given at most once.
-/

namespace SurrealZod

structure Options where
  /-- The settings given in place of those of the settings file. -/
  overrides : Overrides := {}
  /-- The settings file, if it is given. -/
  settingsFile : Option Path := none
  /-- Whether the schemas are printed instead of written. -/
  dryRun : Bool := false
  /-- The format of the summary, if it is given. -/
  format : Option SummaryFormat := none
  /-- Whether more is to be said about the run. It changes neither the files nor the summary. -/
  verbose : Bool := false
  deriving DecidableEq

inductive Request where
  | generate (options : Options)
  | version
  deriving DecidableEq

inductive Flag where
  | schemaFile
  | settingsFile
  | outputFolder
  | generateClient
  | lib
  | format
  | dryRun
  | verbose
  | version
  deriving DecidableEq

namespace Flag

def all : List Flag :=
  [.schemaFile, .settingsFile, .outputFolder, .generateClient, .lib, .format, .dryRun, .verbose, .version]

def name : Flag → Text
  | .schemaFile => "file"
  | .settingsFile => "config"
  | .outputFolder => "output-folder"
  | .generateClient => "generate-client"
  | .lib => "lib"
  | .format => "format"
  | .dryRun => "dry-run"
  | .verbose => "verbose"
  | .version => "version"

def letter? : Flag → Option Char
  | .schemaFile => some 'f'
  | .settingsFile => some 'c'
  | .outputFolder => some 'o'
  | .generateClient => some 'g'
  | .verbose => some 'v'
  | .version => some 'V'
  | .lib | .format | .dryRun => none

def ofName? (name : Text) : Option Flag := all.find? (·.name = name)

def ofLetter? (letter : Char) : Option Flag := all.find? (·.letter? = some letter)

def hasValue : Flag → Bool
  | .dryRun | .verbose | .version => false
  | _ => true

end Flag

namespace Options

def once? {α : Type} (known : Option α) (value : Option α) : Option (Option α) :=
  if known.isSome then none else value.map some

/-- A switch that is off, turned on. -/
def turnOn? (known : Bool) : Option Bool := if known then none else some true

/-- The path of a value, which must not be empty. -/
def pathValue? (value : Text) : Option Path := if value = [] then none else some { text := value }

def boolValue? (value : Text) : Option Bool :=
  if value = "true" then some true else if value = "false" then some false else none

def formatValue? (value : Text) : Option SummaryFormat :=
  if value = "yaml" then some .yaml else if value = "json" then some .json else none

/-- The options with one more of them, which is refused if it is given already or its value is of the wrong form. -/
def add? (options : Options) (value : Text) : Flag → Option Options
  | .schemaFile => do
    let schemaFile ← once? options.overrides.schemaFile (pathValue? value)
    return { options with overrides := { options.overrides with schemaFile } }
  | .settingsFile => do return { options with settingsFile := ← once? options.settingsFile (pathValue? value) }
  | .outputFolder => do
    let outputFolder ← once? options.overrides.outputFolder (pathValue? value)
    return { options with overrides := { options.overrides with outputFolder } }
  | .generateClient => do
    let generateClient ← once? options.overrides.generateClient (boolValue? value)
    return { options with overrides := { options.overrides with generateClient } }
  | .lib => do
    let lib ← once? options.overrides.lib (some value)
    return { options with overrides := { options.overrides with lib } }
  | .format => do return { options with format := ← once? options.format (formatValue? value) }
  | .dryRun => do return { options with dryRun := ← turnOn? options.dryRun }
  | .verbose => do return { options with verbose := ← turnOn? options.verbose }
  | .version => some options

end Options

namespace CommandLine

inductive Progress where
  /-- Up to the end of an argument. -/
  | read (options : Options)
  /-- Up to an option whose value is the next argument. -/
  | awaiting (flag : Flag) (options : Options)
  /-- Up to a request that nothing more is read for. -/
  | done (request : Request)

/-- Reads an option without a value. -/
def readSwitch (options : Options) (flag : Flag) : Option Progress :=
  if flag = .version then some (.done .version) else (options.add? [] flag).map .read

/-- Reads an argument behind two dashes: a name, or a name and a value with an equals sign between them. -/
def readName (options : Options) (argument : Text) : Option Progress := do
  let name := argument.takeWhile (· ≠ '=')
  let flag ← Flag.ofName? name
  match argument.drop name.length with
  | [] => if flag.hasValue then some (.awaiting flag options) else readSwitch options flag
  | _ :: value => if flag.hasValue then (options.add? value flag).map .read else none

/-- Reads the letters of an argument behind one dash. What follows the letter of an option with a value is the value, with
or without an equals sign before it. -/
def readLetters (options : Options) : Text → Option Progress
  | [] => some (.read options)
  | letter :: rest => do
    let flag ← Flag.ofLetter? letter
    if flag.hasValue then
      match rest with
      | [] => some (.awaiting flag options)
      | '=' :: value => (options.add? value flag).map .read
      | value => (options.add? value flag).map .read
    else
      match ← readSwitch options flag with
      | .read options => readLetters options rest
      | progress => some progress

/-- Whether an argument is taken for a value: it has no dash in front, or is one. -/
def isValue : Text → Bool
  | '-' :: _ :: _ => false
  | _ => true

def readArgument (options : Options) : Text → Option Progress
  | '-' :: '-' :: rest => readName options rest
  | '-' :: letter :: rest => readLetters options (letter :: rest)
  | _ => none

/-- Reads the arguments after those that are read already. Two dashes alone end the options. -/
def readFrom : Progress → List Text → Option Request
  | .done request, _ => some request
  | .read options, [] => some (.generate options)
  | .awaiting _ _, [] => none
  | .awaiting flag options, value :: rest =>
    if isValue value then
      match options.add? value flag with
      | some options => readFrom (.read options) rest
      | none => none
    else none
  | .read options, argument :: rest =>
    if argument = ['-', '-'] then (if rest = [] then some (.generate options) else none)
    else
      match readArgument options argument with
      | some progress => readFrom progress rest
      | none => none

/-- What the arguments ask for, unless they are not understood. -/
def request? (arguments : List Text) : Option Request := readFrom (.read {}) arguments

end CommandLine

end SurrealZod
