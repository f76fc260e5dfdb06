import Typings.Decimal.Numeral
import Typings.Normal.Types
import Typings.Source
import Typings.Toml.Reader

/-!
Settings of a run. They come from a settings file, from values that are given explicitly, which count before those of the
file, and from environment variables, which count last. Without a file that is named, one of a known name is
looked for in the working folder.
-/

namespace Typings

/-- The settings of a run. -/
structure Settings where
  /-- The sources of documents. -/
  sources : List String
  /-- The file for the declarations. -/
  output : Option String
  /-- One step of indentation. -/
  indent : String
  /-- How lists of types are reduced. -/
  rules : Normal.TypeRules
  /-- How many seconds a request may take. -/
  timeout : Double

namespace Settings

/-! ### Checking values -/

/-- What is wrong with a setting. -/
structure Objection where
  /-- The words for it. -/
  words : String
  /-- The name of the setting. -/
  field : String

/-- The names of the settings. -/
def names : List String := ["sources", "output", "indent", "type_reduction", "timeout"]

/-- The sources in a list, of which the first is the one of this number. -/
def checkSources (number : Nat) : List Json → Except Objection (List String)
  | [] => .ok []
  | .str s :: rest => (checkSources (number + 1) rest).map (s :: ·)
  | _ :: _ => .error ⟨"Input should be a valid string", "sources." ++ Number.intText number⟩

/-- The sources. -/
def checkSourceList : Option Json → Except Objection (List String)
  | none => .error ⟨"Field required", "sources"⟩
  | some (.arr xs) => do
    let sources ← checkSources 0 xs
    if sources = [] then throw ⟨"Value error, at least one source is required", "sources"⟩ else return sources
  | some _ => .error ⟨"Input should be a valid list", "sources"⟩

/-- A text that may be `null`. -/
def checkOutput : Option Json → Except Objection (Option String)
  | none | some .null => .ok none
  | some (.str s) => .ok (some s)
  | some _ => .error ⟨"Input should be a valid string", "output"⟩

/-- The indentation, four spaces if nothing is said. -/
def checkIndent : Option Json → Except Objection String
  | none => .ok "    "
  | some (.str s) => .ok s
  | some _ => .error ⟨"Input should be a valid string", "indent"⟩

/-- The way in which lists of types are reduced. -/
def checkRules : Option Json → Except Objection Normal.TypeRules
  | none | some (.str "merge-numeric") => .ok .mergeNumeric
  | some (.str "distinct") => .ok .distinct
  | some _ => .error ⟨"Input should be 'merge-numeric' or 'distinct'", "type_reduction"⟩

/-- A number of seconds. -/
def seconds : Json → Except String Double
  | .num (.int n) => .ok (.ofInt n)
  | .num (.double x) => .ok x
  | .bool b => .ok (.ofInt (if b then 1 else 0))
  | .str s => match Double.ofText? s with
    | some x => .ok x
    | none => .error "Input should be a valid number, unable to parse string as a number"
  | _ => .error "Input should be a valid number"

/-- The time a request may take, thirty seconds if nothing is said. -/
def checkTimeout : Option Json → Except Objection Double
  | none => .ok (.ofInt 30)
  | some v => do
    let x ← (seconds v).mapError (⟨·, "timeout"⟩)
    if x.isPositive then return x else throw ⟨"Input should be greater than 0", "timeout"⟩

/-- The settings that members of an object give. -/
def ofFields (fs : Fields) : Except Objection Settings := do
  let sources ← checkSourceList (fs.get? "sources")
  let output ← checkOutput (fs.get? "output")
  let indent ← checkIndent (fs.get? "indent")
  let rules ← checkRules (fs.get? "type_reduction")
  let timeout ← checkTimeout (fs.get? "timeout")
  match fs.keys.find? (!names.contains ·) with
  | some other => throw ⟨"Extra inputs are not permitted", other⟩
  | none => return { sources, output, indent, rules, timeout }

/-! ### Environment variables -/

/-- What the names of the variables start with, in lower case. -/
def variableFront : String := "schema2dts_"

/-- Whether a variable is one of those for settings. -/
def isVariable (name : String) : Bool := variableFront.toList.isPrefixOf name.toLower.toList

/-- The value of a variable; upper and lower case do not differ in its name, and of several the last counts. -/
def lookup (environment : Table String String) (field : String) : Option String :=
  (environment.reverse.find? fun (k, _) => k.toLower = variableFront ++ field).map (·.2)

/-- The setting that a variable gives: a list of sources is written as JSON. -/
def ofVariable (field text : String) : Except Failure Json :=
  if field = "sources" then (Json.read text).mapError fun _ => .badVariable else .ok (.str text)

/-- The settings that variables give, for the settings of these names. -/
def ofVariables (environment : Table String String) : List String → Except Failure Fields
  | [] => .ok []
  | field :: rest => do
    let first ← match lookup environment field with
      | some text => do
        let v ← ofVariable field text
        pure (if v.isNull then [] else [(field, v)])
      | none => pure []
    return first ++ (← ofVariables environment rest)

/-- The settings that explicit values and variables give. -/
def ofValues (environment : Table String String) (values : Fields) : Except Failure (Except Objection Settings) := do
  return ofFields ((← ofVariables environment names).overlay values)

/-! ### Settings files -/

section

variable {m : Type → Type} [Monad m] (files : Files m)

/-- The text of a settings file. -/
def readText (path : String) : m (Except Failure (List Char)) := do
  match ← files.read path with
  | .ok octets => match Text.Utf8.read octets with
    | .ok cs => return .ok (Source.withLineFeeds cs)
    | .error _ => return .error .notText
  | .error _ => return .error .notFile

/-- The value of a settings file: JSON if its name says so, else YAML. In YAML, what counts as nothing is an empty
object, and all settings have to have texts as names. -/
def parseFile (path : Path) (cs : List Char) : Except Failure Json :=
  if path.ending.toLower = ".json" then (Json.read (String.ofList cs)).mapError fun _ => .notJson
  else match Yaml.Value.read cs with
    | .ok value =>
      let v := value.toNode.read []
      if !v.isGiven then .ok (.obj []) else if value.hasTextKeys then .ok v else .error .badKind
    | .error f => .error (.notYaml f)

/-- The value of the settings file of a path. -/
def loadFile (path : String) : m (Except Failure Json) := do
  let p := Path.ofText path
  if ← files.isThere p.text then return (← readText files p.text).bind (parseFile p)
  else return .error (.configuration "Configuration file not found" (some p.text) none)

/-- The settings in a project file: the table `schema2dts` in the table `tool`, if there is one. -/
def ofProject (project : Json) : Except Failure (Option Json) :=
  let name := "schema2dts"
  match project.get? "tool" with
  | none => .ok none
  | some (.obj fs) => .ok (Table.get? fs name)
  | some (.str s) => if Address.occurs name.toList s.toList then .error .badKind else .ok none
  | some (.arr xs) => if xs.contains (.str name) then .error .badKind else .ok none
  | some _ => .error .badKind

/-- The value of the first of the known settings files that is there. -/
def findFile : List String → m (Except Failure (Option Json))
  | [] => do
    if ← files.isThere "pyproject.toml" then
      return (← readText files "pyproject.toml").bind fun cs => match Toml.read cs with
        | some project => ofProject project
        | none => .error .notToml
    else return .ok none
  | name :: rest => do
    if ← files.isThere name then return (← loadFile files name).map some else findFile rest

/-- The value of the settings file that is named, or of one of a known name. -/
def findData (path : Option String) : m (Except Failure (Option Json)) := do
  match given path with
  | some p => return (← loadFile files p).map fun v => if v.isNull then none else some v
  | none => findFile files ["schema2dts.yaml", "schema2dts.yml"]

/-- The settings of a file, of explicit values and of the environment. A value `null` counts as not given. -/
def combine (environment : Table String String) (path : Option String) (values : Fields) (data : Option Json) :
    Except Failure Settings := do
  let values := values.filter (!·.2.isNull)
  if data.isNone && values.isEmpty && !environment.any (isVariable ·.1) then
    throw (.configuration "config not found" none none)
  let base ← match data with
    | some (.obj fs) => pure fs
    | some v => if v.isGiven then throw .badKind else pure []
    | none => pure []
  match ← ofValues environment (Table.overlay base values) with
  | .ok settings => return settings
  | .error o => throw (.configuration ("Invalid configuration: " ++ o.words) path (some o.field))

/-- Find the settings. -/
def find (environment : Table String String) (path : Option String) (values : Fields) : m (Except Failure Settings) := do
  return (← findData files path).bind (combine environment path values)

end

end Settings

end Typings
