import Typings.Node
import Typings.Text.Base64
import Typings.Yaml.Numeral
import Typings.Yaml.Timestamp

/-!
Tags of YAML nodes: what kind of value a node stands for. A plain scalar without a tag gets one from its text, by the rules
of YAML 1.1: `yes` and `off` are truth values, and numbers and timestamps are known by their form.
-/

namespace Typings.Yaml

/-- The kinds of values. -/
inductive Tag where
  /-- No value. -/
  | null
  /-- A truth value. -/
  | bool
  /-- A whole number. -/
  | int
  /-- A double. -/
  | float
  /-- A text. -/
  | str
  /-- A day or a time. -/
  | timestamp
  /-- Octets. -/
  | binary
  /-- The key under which other mappings are merged in. -/
  | merge
  /-- The sign for a default value. -/
  | default
  /-- A sequence. -/
  | seq
  /-- A mapping. -/
  | map
  /-- A mapping in order. -/
  | omap
  /-- Pairs in order. -/
  | pairs
  /-- A set. -/
  | set
  /-- None of these. -/
  | other
  deriving DecidableEq

namespace Tag

/-- What comes before the names of the common tags. -/
def common : String := "tag:yaml.org,2002:"

/-- The common tags by their names. -/
def names : Table String Tag :=
  [("null", null), ("bool", bool), ("int", int), ("float", float), ("str", str), ("timestamp", timestamp),
    ("binary", binary), ("merge", merge), ("value", default), ("seq", seq), ("map", map), ("omap", omap),
    ("pairs", pairs), ("set", set)]

/-- The tag of a name in full. -/
def ofName (name : String) : Tag := ((names.find? fun (short, _) => common ++ short = name).map (·.2)).getD other

/-- The words for truth values. -/
def truths : List (String × Bool) :=
  [("yes", true), ("no", false), ("true", true), ("false", false), ("on", true), ("off", false)]

/-- A word as it may be written: in lower case, in upper case, or with an upper-case initial. -/
def spellings (word : String) : List String := [word, word.capitalize, word.toUpper]

/-- A text without a line feed at its end, unless that is all. -/
def chomped (cs : List Char) : List Char := if 1 < cs.length && cs.getLast? = some '\n' then cs.dropLast else cs

/-- The tag of a plain scalar. A line feed at its end does not count. -/
def ofPlain (text : String) : Tag :=
  let cs := chomped text.toList
  let word := String.ofList cs
  if truths.any fun (truth, _) => (spellings truth).contains word then bool
  else if Numeral.isFloat cs then float
  else if Numeral.isInt cs then int
  else if word = "<<" then merge
  else if word = "" || word = "~" || (spellings "null").contains word then null
  else if (Timestamp.ofChars? cs).any (·.isPlain) then timestamp
  else if word = "=" then default
  else str

/-! ### Values -/

/-- The truth value that a text stands for. -/
def boolOf (text : String) : Except Misfit Bool :=
  match truths.lookup text.toLower with
  | some b => .ok b
  | none => .error (.truth text.toLower)

/-- The moment that a text stands for. -/
def momentOf (text : String) : Except Misfit Moment :=
  match Timestamp.ofChars? (chomped text.toList) with
  | some t => t.toMoment.mapError .moment
  | none => .error .timestamp

/-- The value of a scalar. -/
def atomOf (tag : Tag) (text : String) : Except Fault Atom :=
  match tag with
  | null => .ok .null
  | bool => ((boolOf text).map .bool).mapError .scalar
  | int => ((Numeral.intOf text).map fun n => .num (.int n)).mapError .scalar
  | float => ((Numeral.doubleOf text).map fun x => .num (.double x)).mapError .scalar
  | str => .ok (.str text)
  | timestamp => ((momentOf text).map fun m => .extra (.moment m)).mapError .scalar
  | binary => match Text.Base64.decode text.toList with
    | some octets => if text.toList.all (·.toNat < 0x80) then .ok (.extra (.octets octets)) else .error .value
    | none => .error .value
  | merge | default | seq | map | omap | pairs | set | other => .error .value

/-- Whether a tag is one of collections. -/
def isCollection : Tag → Bool
  | seq | map | omap | pairs | set => true
  | _ => false

end Tag

end Typings.Yaml
