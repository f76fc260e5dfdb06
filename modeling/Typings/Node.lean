import Typings.Json.Equality
import Typings.Pointer

/-!
Documents whose parts are shared. Schemas are parts of documents, and the same part may belong to several of them. Each
part carries a **mark** that tells it from all others; equal marks mean the very same part. Parts never change, except
for the text of a `$ref`: the current texts are kept beside the documents, by mark, so that a change is seen
wherever the part is.
-/

namespace Typings

/-- A value without parts. -/
inductive Atom where
  /-- The value `null`. -/
  | null
  /-- A truth value. -/
  | bool (value : Bool)
  /-- A number. -/
  | num (value : Number)
  /-- A string. -/
  | str (text : String)
  /-- A value for which JSON has no kind. -/
  | extra (value : Extra)
  deriving DecidableEq

/-- The atom as a JSON value. -/
def Atom.toJson : Atom → Json
  | null => .null
  | bool b => .bool b
  | num n => .num n
  | str s => .str s
  | extra x => .extra x

/-- A part of a document. -/
inductive Node where
  /-- A value without parts. -/
  | atom (mark : Nat) (value : Atom)
  /-- An array. -/
  | arr (mark : Nat) (items : List Node)
  /-- An object. -/
  | obj (mark : Nat) (fields : List (String × Node))

/-- The current texts of references, by the marks of the objects that hold them. -/
abbrev Refs := Table Nat String

namespace Node

/-! ### Marks -/

/-- The mark. -/
def mark : Node → Nat
  | atom m _ | arr m _ | obj m _ => m

mutual

/-- Mark the parts of a value from `next` on, the whole before its parts; the second result is the next free mark. -/
def label (next : Nat) : Json → Node × Nat
  | .null => (atom next .null, next + 1)
  | .bool b => (atom next (.bool b), next + 1)
  | .num n => (atom next (.num n), next + 1)
  | .str s => (atom next (.str s), next + 1)
  | .extra x => (atom next (.extra x), next + 1)
  | .arr xs => let (ys, after) := labelItems (next + 1) xs; (arr next ys, after)
  | .obj fs => let (gs, after) := labelFields (next + 1) fs; (obj next gs, after)

/-- Mark the items of an array. -/
def labelItems (next : Nat) : List Json → List Node × Nat
  | [] => ([], next)
  | x :: rest =>
    let (y, after) := label next x
    let (ys, last) := labelItems after rest
    (y :: ys, last)

/-- Mark the members of an object. -/
def labelFields (next : Nat) : List (String × Json) → List (String × Node) × Nat
  | [] => ([], next)
  | (k, x) :: rest =>
    let (y, after) := label next x
    let (ys, last) := labelFields after rest
    ((k, y) :: ys, last)

end

/-- A value as a document, marked from zero on. -/
def ofJson (v : Json) : Node := (label 0 v).1

mutual

/-- Add `n` to all marks. -/
def shift (n : Nat) : Node → Node
  | atom m a => atom (m + n) a
  | arr m xs => arr (m + n) (shiftItems n xs)
  | obj m fs => obj (m + n) (shiftFields n fs)

/-- Shift the items of an array. -/
def shiftItems (n : Nat) : List Node → List Node
  | [] => []
  | x :: rest => shift n x :: shiftItems n rest

/-- Shift the members of an object. -/
def shiftFields (n : Nat) : List (String × Node) → List (String × Node)
  | [] => []
  | (k, x) :: rest => (k, shift n x) :: shiftFields n rest

end

mutual

/-- A mark above all marks of a document. -/
def bound : Node → Nat
  | atom m _ => m + 1
  | arr m xs => max (m + 1) (boundItems xs)
  | obj m fs => max (m + 1) (boundFields fs)

/-- The bound of the items of an array. -/
def boundItems : List Node → Nat
  | [] => 0
  | x :: rest => max (bound x) (boundItems rest)

/-- The bound of the members of an object. -/
def boundFields : List (String × Node) → Nat
  | [] => 0
  | (_, x) :: rest => max (bound x) (boundFields rest)

end

/-- Values that exist only once: the constants, small numbers, the empty text and single characters up to U+00FF. -/
def isUnique : Atom → Bool
  | .null | .bool _ => true
  | .num (.int n) => -5 ≤ n && n ≤ 256
  | .num (.double _) | .extra _ => false
  | .str s => match s.toList with
    | [] => true
    | [c] => c.toNat ≤ 0xFF
    | _ => false

/-- Whether two nodes are the very same part. -/
def isSame : Node → Node → Bool
  | atom m a, atom n b => a = b && (m = n || isUnique a)
  | arr m _, arr n _ => m = n
  | obj m _, obj n _ => m = n
  | _, _ => false

/-! ### Size -/

mutual

/-- The number of parts. -/
def size : Node → Nat
  | atom _ _ => 1
  | arr _ xs => 1 + sizeItems xs
  | obj _ fs => 1 + sizeFields fs

/-- The number of parts of all items. -/
def sizeItems : List Node → Nat
  | [] => 0
  | x :: rest => size x + sizeItems rest

/-- The number of parts of all members. -/
def sizeFields : List (String × Node) → Nat
  | [] => 0
  | (_, x) :: rest => size x + sizeFields rest

end

/-! ### Reading -/

/-- The text of a string. -/
def str? : Node → Option String
  | atom _ (.str s) => some s
  | _ => none

/-- The members of an object, none for other nodes. -/
def fields : Node → Table String Node
  | obj _ fs => fs
  | _ => []

/-- The items of an array, none for other nodes. -/
def items : Node → List Node
  | arr _ xs => xs
  | _ => []

/-- Whether it is an object. -/
def isObject : Node → Bool
  | obj _ _ => true
  | _ => false

/-- Whether it is `null`. -/
def isNull : Node → Bool
  | atom _ .null => true
  | _ => false

/-- A member of the object with mark `m` as it stands: the text of a reference is the current one. -/
def current (refs : Refs) (m : Nat) (key : String) (value : Node) : Node :=
  match key, value with
  | "$ref", atom n (.str s) => atom n (.str ((refs.get? m).getD s))
  | _, v => v

/-- The member `key` of an object as it stands. -/
def get? (refs : Refs) (node : Node) (key : String) : Option Node :=
  match node with
  | obj m fs => (Table.get? fs key).map (current refs m key)
  | _ => none

/-- The current text of the reference that an object is. -/
def reference? (refs : Refs) (node : Node) : Option String := (node.get? refs "$ref").bind str?

mutual

/-- The value of a node as it stands. -/
def read (refs : Refs) : Node → Json
  | atom _ a => a.toJson
  | arr _ xs => .arr (readItems refs xs)
  | obj m fs => .obj (readFields refs m fs)

/-- The values of items. -/
def readItems (refs : Refs) : List Node → List Json
  | [] => []
  | x :: rest => read refs x :: readItems refs rest

/-- The values of the members of the object with mark `m`. -/
def readFields (refs : Refs) (m : Nat) : List (String × Node) → List (String × Json)
  | [] => []
  | (k, x) :: rest =>
    (k, match k, x with
      | "$ref", atom _ (.str s) => .str ((refs.get? m).getD s)
      | _, x => read refs x) :: readFields refs m rest

end

/-- One step into a node. -/
def step (refs : Refs) (token : String) (node : Node) : Except PointerFault Node :=
  match node with
  | obj _ _ => match node.get? refs token with
    | some v => .ok v
    | none => .error (.noMember token)
  | arr _ xs => match (Pointer.place? token xs.length).bind (xs[·]?) with
    | some v => .ok v
    | none => .error (.noItem token)
  | atom _ _ => .error (.noParts token)

/-- Follow tokens into a node. -/
def follow (refs : Refs) : List String → Node → Except PointerFault Node
  | [], node => .ok node
  | token :: rest, node => (step refs token node).bind (follow refs rest)

/-- A copy of an object under a mark of its own. Its members are the same parts; its reference is the one that it has
now, and changes to the one do not reach the other. -/
def copy (refs : Refs) (mark : Nat) : Node → Node
  | obj m fs => obj mark (fs.map fun e => (e.1, current refs m e.1 e.2))
  | node => node

/-- Write a member of an object. -/
def set (node : Node) (key : String) (value : Node) : Node :=
  match node with
  | obj m fs => obj m (Table.set fs key value)
  | node => node

/-- Remove a member of an object. -/
def erase (node : Node) (key : String) : Node :=
  match node with
  | obj m fs => obj m (Table.erase fs key)
  | node => node

end Node

end Typings
