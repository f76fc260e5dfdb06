import Typings.Writer

/-!
Declarations as trees, and their text. The text of a type depends on its place: at the end of a line it is closed by a
semicolon and its notes stand in a line comment; inside another type a union has parentheses and the notes stand in
a comment of their own.
-/

namespace Typings

/-- What comes before the type of a member of an object type. -/
inductive Head where
  /-- Any name. -/
  | anyName
  /-- A property: its comment, whether it is read-only, its name, and whether it may be missing. -/
  | property (comment : List String) (isReadonly : Bool) (name : String) (isOptional : Bool)

/-- A type, with the notes that stand behind it. -/
inductive TypeExpr where
  /-- A name or a literal. -/
  | plain (text : String) (notes : List String)
  /-- Alternatives. -/
  | union (alternatives : List TypeExpr) (notes : List String)
  /-- An array. -/
  | array (item : TypeExpr) (notes : List String)
  /-- Tuples of different lengths, as alternatives. -/
  | tuples (variants : List (List TypeExpr)) (notes : List String)
  /-- An object. -/
  | object (members : List (Head × TypeExpr))

/-- What a declaration says. -/
inductive Body where
  /-- A type alias. -/
  | typeAlias (type : TypeExpr)
  /-- An interface. -/
  | interface (members : List (Head × TypeExpr))

/-- A declaration. -/
structure Declaration where
  /-- The lines of its comment. -/
  comment : List String
  /-- Its name. -/
  name : String
  /-- What it says. -/
  body : Body

/-- Declarations and the namespaces around them. -/
inductive Item where
  /-- A declaration. -/
  | declare (declaration : Declaration)
  /-- A namespace. -/
  | block (name : String) (items : List Item)

namespace TypeExpr

/-- The notes behind a type; object types have none. -/
def notes : TypeExpr → List String
  | plain _ n | union _ n | array _ n | tuples _ n => n
  | object _ => []

/-- Write what follows a type: the end of the line if `ended`, and the notes. -/
def writeEnd (notes : List String) (ended : Bool) (w : Writer) : Writer :=
  let joined := " ".intercalate notes
  if ended then
    let w := w.put ";"
    (if notes.isEmpty then w else w.put (" // " ++ joined)).line ""
  else if notes.isEmpty then w else w.put (" /* " ++ joined ++ " */")

/-- Write what comes before the type of a member. -/
def writeHead : Head → Writer → Writer
  | .anyName, w => w.put "[name: string]: "
  | .property comment isReadonly name isOptional, w =>
    let w := w.comment comment
    let w := if isReadonly then w.put "readonly " else w
    (w.key name isOptional).put ": "

mutual

/-- Write a type. -/
def write (ended : Bool) : TypeExpr → Writer → Writer
  | plain text notes, w => writeEnd notes ended (w.put text)
  | union alternatives notes, w =>
    let w := if ended then w else w.put "("
    let w := writeAlternatives alternatives w
    writeEnd notes ended (if ended then w else w.put ")")
  | array item notes, w => writeEnd notes ended ((write false item w).put "[]")
  | tuples variants notes, w => writeEnd notes ended (writeVariants variants w)
  | object members, w => (writeMembers members w.openBraces).closeBraces ended

/-- Write alternatives. -/
def writeAlternatives : List TypeExpr → Writer → Writer
  | [], w => w
  | [t], w => write false t w
  | t :: u :: rest, w => writeAlternatives (u :: rest) ((write false t w).put " | ")

/-- Write the items of a tuple. -/
def writeSlots : List TypeExpr → Writer → Writer
  | [], w => w
  | [t], w => write false t w
  | t :: u :: rest, w => writeSlots (u :: rest) ((write false t w).put ", ")

/-- Write tuples as alternatives. -/
def writeVariants : List (List TypeExpr) → Writer → Writer
  | [], w => w
  | [v], w => (writeSlots v (w.put "[")).put "]"
  | v :: u :: rest, w => writeVariants (u :: rest) (((writeSlots v (w.put "[")).put "]").put " | ")

/-- Write the members of an object, one a line. -/
def writeMembers : List (Head × TypeExpr) → Writer → Writer
  | [], w => w
  | (h, t) :: rest, w => writeMembers rest (write true t (writeHead h w))

end

end TypeExpr

namespace Declaration

/-- Write a declaration. -/
def write (d : Declaration) (w : Writer) : Writer :=
  let w := w.comment d.comment
  match d.body with
  | .typeAlias type => type.write true (w.typeAlias d.name)
  | .interface members => (TypeExpr.writeMembers members (w.openInterface d.name)).closeInterface

end Declaration

namespace Item

mutual

/-- Write an item. -/
def write : Item → Writer → Writer
  | declare d, w => d.write w
  | block name items, w => (writeAll items (w.openNamespace name)).closeNamespace

/-- Write items, one after the other. -/
def writeAll : List Item → Writer → Writer
  | [], w => w
  | i :: rest, w => writeAll rest (write i w)

end

/-- The text of declarations. -/
def render (indent : String) (items : List Item) : String := (writeAll items (Writer.new indent)).text

end Item

end Typings
