import Typings.Path
import Typings.Text.Quoted

/-!
What the program asks of a file system, and how it writes a file. The operations are those of a monad `m`: of a disk in
memory, or of the machine.
-/

namespace Typings

/-- What a path may lead to. -/
inductive FileKind where
  /-- A file. -/
  | file
  /-- A folder. -/
  | folder
  deriving DecidableEq

/-- Why an operation on a path fails. -/
inductive FileFault where
  /-- There is nothing. -/
  | missing
  /-- There is something already. -/
  | present
  /-- Something on the way is not a folder. -/
  | notFolder
  /-- It is a folder. -/
  | isFolder
  deriving DecidableEq

/-- The message of a fault at a path. -/
def FileFault.message (f : FileFault) (path : String) : String :=
  let words := match f with
    | missing => "[Errno 2] No such file or directory"
    | present => "[Errno 17] File exists"
    | notFolder => "[Errno 20] Not a directory"
    | isFolder => "[Errno 21] Is a directory"
  words ++ ": " ++ Text.quoted path

/-- The operations of a file system. -/
structure Files (m : Type → Type) where
  /-- What a path leads to. -/
  kind? : String → m (Option FileKind)
  /-- The names in a folder, in any order; none if it cannot be read. -/
  names : String → m (List String)
  /-- The octets of a file. -/
  read : String → m (Except FileFault (List Nat))
  /-- Make a folder inside one that is there. -/
  makeFolder : String → m (Except FileFault Unit)
  /-- Make a file or replace its content. -/
  write : String → List Nat → m (Except FileFault Unit)

namespace Files

variable {m : Type → Type} [Monad m]

/-- Whether a path leads to something. -/
def isThere (files : Files m) (path : String) : m Bool := do return (← files.kind? path).isSome

/-- Whether a path leads to a folder. -/
def isFolder (files : Files m) (path : String) : m Bool := do return (← files.kind? path) = some .folder

/-- Make a folder and those around it, as far as they are missing; `depth` is the number of its parts. -/
def makeFolders (files : Files m) : (depth : Nat) → Path → m (Except (FileFault × String) Unit)
  | depth, path => do
    match ← files.makeFolder path.text with
    | .ok _ => return .ok ()
    | .error .missing =>
      match depth with
      | 0 => return .error (.missing, path.text)
      | depth + 1 =>
        match ← makeFolders files depth path.parent with
        | .error e => return .error e
        | .ok _ =>
          match ← files.makeFolder path.text with
          | .ok _ => return .ok ()
          | .error f => if ← files.isFolder path.text then return .ok () else return .error (f, path.text)
    | .error f => if ← files.isFolder path.text then return .ok () else return .error (f, path.text)

/-- Write a file; the folders around it are made if they are missing. -/
def save (files : Files m) (path : Path) (octets : List Nat) : m (Except (FileFault × String) Unit) := do
  match ← makeFolders files path.parts.length path.parent with
  | .error e => return .error e
  | .ok _ =>
    match ← files.write path.text octets with
    | .ok _ => return .ok ()
    | .error f => return .error (f, path.text)

end Files

end Typings
