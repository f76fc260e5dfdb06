import Typings.Name
import Typings.Namespace

/-!
How a declaration refers to another one. A dotted name is looked up from the innermost namespace outwards: its first
part binds in the nearest enclosing namespace that has a member of that name, and the others follow member by
member. Parts of the path that both sides share are left out, as long as the name still means its target; if even the
whole path does not, it is looked up from `globalThis`.
-/

namespace Typings.Naming

/-- A dotted name. -/
structure Reference where
  /-- Whether it is looked up from the outermost level. -/
  isGlobal : Bool
  /-- The parts of the name. -/
  parts : List String

/-- The text of a dotted name. -/
def Reference.text (r : Reference) : String :=
  (if r.isGlobal then "globalThis." else "") ++ ".".intercalate r.parts

variable {α : Type}

/-- Whether the namespace at a path has a member of this type name. -/
def declares (tree : Namespace α) (path : List String) (name : String) : Bool :=
  match tree.find? path with
  | some node => node.children.any fun e => Name.typeName e.1 = name
  | none => false

/-- Whether a namespace of `inside` that is nested deeper than `depth` has a member of this type name. -/
def isShadowed (tree : Namespace α) (inside : List String) (name : String) (depth : Nat) : Bool :=
  (List.range' (depth + 1) (inside.length - depth)).any fun level => declares tree (inside.take level) name

/-- How many names two paths share in front, the last name of the second one not counted. -/
def sharedNames : (inside target : List String) → Nat
  | a :: inside, b :: c :: target => if a = b then sharedNames inside (c :: target) + 1 else 0
  | _, _ => 0

/-- Take back shared names as long as the first name that remains means something else. -/
def settle (tree : Namespace α) (inside names : List String) : Nat → Nat
  | 0 => 0
  | shared + 1 =>
    if isShadowed tree inside (names.getD (shared + 1) "") (shared + 1) then settle tree inside names shared
    else shared + 1

/-- The name by which a declaration inside the namespaces `inside` refers to the one at the path `target`. -/
def refer (tree : Namespace α) (inside target : List String) : Reference :=
  let names := target.map Name.typeName
  let shared := settle tree inside names (sharedNames inside target)
  { isGlobal := shared = 0 && isShadowed tree inside (names.headD "") 0
    parts := names.drop shared }

end Typings.Naming
