import Typings.Json.Printer
import Typings.Name
import Typings.Text.Blank
import Typings.Text.Line

/-!
A writer of declaration text that keeps track of nesting. A line is indented when its first piece is written.
-/

namespace Typings

/-- Text that is being written. -/
structure Writer where
  /-- One step of indentation. -/
  indent : String
  /-- How many blocks are open. -/
  level : Int
  /-- Whether something stands on the current line. -/
  lineStarted : Bool
  /-- The pieces so far, newest first. -/
  pieces : List String

namespace Writer

/-- Nothing written yet. -/
def new (indent : String) : Writer := ⟨indent, 0, false, []⟩

/-- Forget everything but the indentation. -/
def clear (w : Writer) : Writer := new w.indent

/-- The text so far. -/
def text (w : Writer) : String := String.join w.pieces.reverse

/-- The indentation of a line. -/
def margin (w : Writer) : String := String.join (List.replicate w.level.toNat w.indent)

/-- Begin the line, if nothing stands on it yet. -/
def begin (w : Writer) : Writer :=
  if w.lineStarted then w else { w with pieces := w.margin :: w.pieces, lineStarted := true }

/-- Write a piece. -/
def put (s : String) (w : Writer) : Writer := { w.begin with pieces := s :: w.begin.pieces }

/-- Write a piece and end the line. -/
def line (s : String) (w : Writer) : Writer := { w.put s with pieces := "\n" :: (w.put s).pieces, lineStarted := false }

/-- A property name: as it is if it is an identifier, else as a string literal. -/
def keyText (name : String) : String := if Name.isIdentifier name then name else (Json.str name).text

/-- Write a property name, with a question mark if the property may be missing. -/
def key (name : String) (optional : Bool) (w : Writer) : Writer :=
  let w := w.put (keyText name)
  if optional then w.put "?" else w

/-- Take the force out of comment ends: a backslash goes between star and slash. -/
def defused : List Char → List Char
  | [] => []
  | '*' :: '/' :: rest => '*' :: '\\' :: '/' :: defused rest
  | c :: rest => c :: defused rest

/-- The lines of a comment: the text of a string, the JSON text of any other value, nothing for `null` and the empty
string. -/
def commentLines : Json → List String
  | .null => []
  | .str s => Text.lines (String.ofList (defused s.toList))
  | v => Text.lines (String.ofList (defused v.chars))

/-- One line of a comment block. -/
def commentLine (s : String) : String := String.ofList (Text.trimEnd (" * ".toList ++ s.toList))

/-- Write lines. -/
def putLines : List String → Writer → Writer
  | [], w => w
  | s :: rest, w => putLines rest (w.line s)

/-- Write a comment block, if there is anything to say. -/
def comment (lines : List String) (w : Writer) : Writer :=
  if lines.isEmpty then w else (putLines (lines.map commentLine) (w.line "/**")).line " */"

/-- The word before a declaration: `declare` outside of all namespaces, `export` inside. -/
def declarationWord (w : Writer) : String := if w.level = 0 then "declare " else "export "

/-- Begin a type alias. -/
def typeAlias (name : String) (w : Writer) : Writer :=
  (((w.put w.declarationWord).put "type ").put name).put " = "

/-- One level deeper. -/
def deeper (w : Writer) : Writer := { w with level := w.level + 1 }

/-- One level up. -/
def higher (w : Writer) : Writer := { w with level := w.level - 1 }

/-- Open a block of braces. -/
def openBraces (w : Writer) : Writer := (w.line "\x7b").deeper

/-- Close a block of braces; `ended` says that the line ends there. -/
def closeBraces (ended : Bool) (w : Writer) : Writer :=
  let w := w.higher.put "\x7d"
  if ended then w.line ";" else w

/-- Open a namespace. -/
def openNamespace (name : String) (w : Writer) : Writer :=
  let w := if w.level = 0 then w.put "declare " else w
  (((w.put "namespace ").put name).line " \x7b").deeper

/-- Close a namespace. -/
def closeNamespace (w : Writer) : Writer := w.higher.line "\x7d"

/-- Open an interface. -/
def openInterface (name : String) (w : Writer) : Writer :=
  ((((w.put w.declarationWord).put "interface ").put name).put " ").openBraces

/-- Close an interface. -/
def closeInterface (w : Writer) : Writer := (w.closeBraces false).line ""

end Writer

end Typings
