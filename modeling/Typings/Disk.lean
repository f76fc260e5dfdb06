import Typings.Files

/-!
A file system in memory.
-/

namespace Typings

/-- Files and folders by the names on the way to them from the root, and the folder that relative paths start in. -/
structure Disk where
  /-- The working folder. -/
  here : List String
  /-- The folders besides the root. -/
  folders : List (List String)
  /-- The files with their octets. -/
  files : Table (List String) (List Nat)

namespace Disk

/-- Whether a folder is at a place. -/
def hasFolder (d : Disk) (place : List String) : Bool := place.isEmpty || d.folders.contains place

/-- Follow the parts of a path from a place; the last one need not be there. -/
def follow (d : Disk) (place : List String) : List String → Except FileFault (List String)
  | [] => .ok place
  | part :: rest =>
    if d.files.has place then .error .notFolder
    else if !d.hasFolder place then .error .missing
    else d.follow (if part = ".." then place.dropLast else place ++ [part]) rest

/-- The place that a path leads to. -/
def locate (d : Disk) (path : String) : Except FileFault (List String) :=
  let p := Path.ofText path
  d.follow (if p.isAbsolute then [] else d.here) p.parts

/-- What a path leads to. -/
def kind? (d : Disk) (path : String) : Option FileKind :=
  match d.locate path with
  | .ok place => if d.files.has place then some .file else if d.hasFolder place then some .folder else none
  | .error _ => none

/-- The names in a folder. -/
def names (d : Disk) (path : String) : List String :=
  match d.locate path with
  | .ok place =>
    if d.hasFolder place then
      ((d.folders ++ d.files.keys).filter fun q => q ≠ [] && q.dropLast = place).map (·.getLastD "")
    else []
  | .error _ => []

/-- The octets of a file. -/
def read (d : Disk) (path : String) : Except FileFault (List Nat) := do
  let place ← d.locate path
  match d.files.get? place with
  | some octets => return octets
  | none => throw (if d.hasFolder place then .isFolder else .missing)

/-- Make a folder. -/
def makeFolder (d : Disk) (path : String) : Except FileFault Disk := do
  let place ← d.locate path
  if d.files.has place || d.hasFolder place then throw .present
  return { d with folders := d.folders ++ [place] }

/-- Write a file. -/
def write (d : Disk) (path : String) (octets : List Nat) : Except FileFault Disk := do
  let place ← d.locate path
  if d.hasFolder place then throw .isFolder
  return { d with files := d.files.set place octets }

/-- A place and the places around it, without the root. -/
def around (place : List String) : List (List String) := (List.range place.length).map fun n => place.take (n + 1)

/-- A disk with nothing but its working folder. -/
def empty (here : List String) : Disk := ⟨here, around here, []⟩

/-- Put a file into the working folder, with the folders around it. -/
def put (d : Disk) (path : String) (octets : List Nat) : Disk :=
  let place := d.here ++ (Path.ofText path).parts
  { d with
    folders := d.folders ++ (around place.dropLast).filter (!d.hasFolder ·)
    files := d.files.set place octets }

/-- A change that may fail. -/
def change (f : Disk → Except FileFault Disk) : StateM Disk (Except FileFault Unit) := fun d =>
  match f d with
  | .ok d' => (.ok (), d')
  | .error e => (.error e, d)

/-- The operations on a disk. -/
def asFiles : Files (StateM Disk) :=
  { kind? := fun path => do return (← get).kind? path
    names := fun path => do return (← get).names path
    read := fun path => do return (← get).read path
    makeFolder := fun path => change (·.makeFolder path)
    write := fun path octets => change (·.write path octets) }

end Disk

end Typings
