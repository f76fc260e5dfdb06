import Typings.Table

/-!
Names of files: parts with slashes between them. A path is absolute if it starts with a slash; empty parts and parts that
are a full stop go away.
-/

namespace Typings

/-- A path. -/
structure Path where
  /-- The slashes at the start: none, one, or two. -/
  root : String
  /-- The parts. -/
  parts : List String
  deriving DecidableEq

namespace Path

/-- The slashes at the start of a path. Exactly two are kept, more count as one. -/
def rootOf : List Char → String
  | '/' :: '/' :: '/' :: _ => "/"
  | '/' :: '/' :: _ => "//"
  | '/' :: _ => "/"
  | _ => ""

/-- The path of a text. -/
def ofText (text : String) : Path :=
  { root := rootOf text.toList
    parts := ((text.toList.splitOn '/').filter fun p => p ≠ [] && p ≠ ['.']).map String.ofList }

/-- The text of a path. -/
def text (p : Path) : String :=
  if p.root = "" && p.parts.isEmpty then "." else p.root ++ "/".intercalate p.parts

/-- Whether it starts at the root. -/
def isAbsolute (p : Path) : Bool := p.root ≠ ""

/-- The path `q`, seen from `p`. -/
def join (p q : Path) : Path := if q.isAbsolute then q else { p with parts := p.parts ++ q.parts }

/-- The path without its last part. -/
def parent (p : Path) : Path := { p with parts := p.parts.dropLast }

/-- The ending of the last part, from its last full stop on; there is none if the full stop is its first or its last
character. -/
def ending (p : Path) : String :=
  let name := (p.parts.getLastD "").toList
  let back := name.reverse.takeWhile (· ≠ '.')
  if back.length + 1 < name.length && back ≠ [] then String.ofList ('.' :: back.reverse) else ""

/-- Whether the last part ends like the file of a YAML text. -/
def isYaml (p : Path) : Bool := p.ending.toLower = ".yaml" || p.ending.toLower = ".yml"

end Path

end Typings
