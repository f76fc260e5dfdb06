import Typings.Console
import Typings.Run

/-!
The command line. There are two commands: `generate` with sources and options, and `version`. Options may stand anywhere
after the command; two hyphens alone end them.
-/

namespace Typings.CommandLine

/-- The version. -/
def version : String := "0.1.0"

/-! ### Arguments -/

/-- What `generate` is told. -/
structure Request where
  /-- The sources. -/
  sources : List String
  /-- The settings file. -/
  config : Option String
  /-- The output file. -/
  output : Option String
  /-- Whether to tell about the work. -/
  verbose : Bool

/-- What the arguments ask for. -/
inductive Command where
  /-- How to use the program. -/
  | help
  /-- Its version. -/
  | version
  /-- Declarations. -/
  | generate (request : Request)
  /-- Nothing that can be done. -/
  | misuse

/-- The options of commands. -/
inductive Choice where
  /-- The settings file. -/
  | config
  /-- The output file. -/
  | output
  /-- Whether to tell about the work. -/
  | verbose
  /-- How to use the program. -/
  | help
  deriving DecidableEq

/-- Whether a value follows an option. -/
def Choice.hasValue : Choice → Bool
  | config | output => true
  | verbose | help => false

/-- An option with its names: one letter, and a word. -/
structure Named where
  /-- The option. -/
  choice : Choice
  /-- The letter. -/
  letter : Option Char
  /-- The word. -/
  word : String

/-- The options of `generate`. -/
def generateOptions : List Named :=
  [⟨.config, some 'c', "config"⟩, ⟨.output, some 'o', "output"⟩, ⟨.verbose, some 'v', "verbose"⟩, ⟨.help, none, "help"⟩]

/-- The options of `version`, and of the program without a command. -/
def helpOptions : List Named := [⟨.help, none, "help"⟩]

/-- Arguments taken apart: the options with their values, the last one first, and the others in order. -/
structure Parsed where
  /-- The options. -/
  chosen : List (Choice × String)
  /-- The other arguments. -/
  rest : List String

/-- Take an option in. -/
def Parsed.choose (p : Parsed) (choice : Choice) (value : String) : Parsed :=
  { p with chosen := (choice, value) :: p.chosen }

/-- Take letters of options apart; what follows the letter of an option with a value is its value, or else the next
argument is. -/
def letters (options : List Named) : List Char → Parsed → (next : List String) → Option (Parsed × List String)
  | [], p, next => some (p, next)
  | c :: cs, p, next =>
    match options.find? (·.letter = some c) with
    | none => none
    | some o =>
      if !o.choice.hasValue then letters options cs (p.choose o.choice "") next
      else if cs ≠ [] then some (p.choose o.choice (String.ofList cs), next)
      else match next with
        | value :: more => some (p.choose o.choice value, more)
        | [] => none

/-- Take the word of an option apart; its value comes after an equals sign or is the next argument. -/
def word (options : List Named) (cs : List Char) (p : Parsed) (next : List String) : Option (Parsed × List String) :=
  let (name, value) := cs.span (· ≠ '=')
  match options.find? (·.word.toList = name) with
  | none => none
  | some o =>
    match o.choice.hasValue, value with
    | true, _ :: v => some (p.choose o.choice (String.ofList v), next)
    | true, [] => match next with
      | v :: more => some (p.choose o.choice v, more)
      | [] => none
    | false, [] => some (p.choose o.choice "", next)
    | false, _ :: _ => none

/-- Take arguments apart; `fuel` is their number. Nothing if an option is not known or lacks its value. -/
def parse (options : List Named) : (fuel : Nat) → Parsed → List String → Option Parsed
  | 0, p, args => if args.isEmpty then some p else none
  | _ + 1, p, [] => some p
  | fuel + 1, p, arg :: next =>
    match arg.toList with
    | ['-', '-'] => some { p with rest := p.rest ++ next }
    | '-' :: '-' :: cs => (word options cs p next).bind fun (p, more) => parse options fuel p more
    | '-' :: c :: cs => (letters options (c :: cs) p next).bind fun (p, more) => parse options fuel p more
    | _ => parse options fuel { p with rest := p.rest ++ [arg] } next

/-- What the arguments of `generate` ask for. -/
def generateCommand (p : Parsed) : Command :=
  .generate
    { sources := p.rest
      config := p.chosen.lookup .config
      output := p.chosen.lookup .output
      verbose := (p.chosen.lookup .verbose).isSome }

/-- What the arguments of a command ask for. -/
def commandOf (name : String) (args : List String) : Command :=
  let run (options : List Named) (f : Parsed → Command) : Command :=
    match parse options args.length ⟨[], []⟩ args with
    | none => .misuse
    | some p => if (p.chosen.lookup .help).isSome then .help else f p
  if name = "generate" then run generateOptions generateCommand
  else if name = "version" then run helpOptions fun p => if p.rest.isEmpty then .version else .misuse
  else .misuse

/-- What the arguments of the program ask for. -/
def command : List String → Command
  | [] => .misuse
  | "--help" :: _ => .help
  | "--" :: name :: args => commandOf name args
  | name :: args => commandOf name args

/-! ### Running -/

/-- What there is to say at the end besides the declarations. -/
inductive Report where
  /-- Nothing. -/
  | silent
  /-- The declarations were written to a file. -/
  | written (path : String)
  /-- There was a failure. -/
  | failed (message : String)
  /-- A document or a settings file is of a form that the program does not expect. -/
  | crashed

/-- The words of a report, as they show on a terminal. -/
def Report.text : Report → String
  | silent => ""
  | written path => Console.message "Declarations written to " path
  | failed message => Console.message "Error: " message
  | crashed => "Error: unexpected form of a document or a settings file\n"

/-- How a run of the program ends. -/
structure Ending where
  /-- The exit code. -/
  code : Nat
  /-- The text for the standard output. -/
  output : String
  /-- What there is to say besides. -/
  report : Report
  /-- What there is to tell about the work, newest first. -/
  notices : List Notice

/-- The report on a failure. -/
def reportOn (f : Failure) : Report := if f.isForeseen then .failed f.message else .crashed

/-- How to use the program. -/
def usage : String :=
  "Usage: schema2dts [--help] COMMAND [ARGS]...\n\n" ++
    "Commands:\n  generate [SOURCES]... [-c CONFIG] [-o OUTPUT] [-v]\n  version\n"

section

variable {m : Type → Type} [Monad m]

/-- Do what `generate` is told. -/
def generate (origin : Origin m) (environment : Table String String) (request : Request) : m Ending := do
  let sources := if request.sources.isEmpty then .null else .arr (request.sources.map .str)
  let output := match request.output with
    | some path => .str path
    | none => .null
  match ← Settings.find origin.files environment request.config [("sources", sources), ("output", output)] with
  | .error f => return ⟨1, "", reportOn f, []⟩
  | .ok settings =>
    match ← Run.generate origin settings with
    | (.error f, told) => return ⟨1, "", reportOn f, told⟩
    | (.ok text, told) =>
      match given settings.output with
      | some path => return ⟨0, "", .written path, told⟩
      | none => return ⟨0, text, .silent, told⟩

/-- Do what the arguments ask for. -/
def run (origin : Origin m) (environment : Table String String) (args : List String) : m Ending :=
  match command args with
  | .help => pure ⟨0, usage, .silent, []⟩
  | .misuse => pure ⟨2, usage, .silent, []⟩
  | .version => pure ⟨0, "schema2dts version: " ++ version ++ "\n", .silent, []⟩
  | .generate request => generate origin environment request

end

end Typings.CommandLine
