import Typings.CommandLine

/-!
The program on the machine it runs on. The web is out of its reach: every URL counts as one without a reply.
-/

namespace Typings.Machine

/-- What a path leads to. -/
def kind? (path : String) : IO (Option FileKind) := do
  try
    let place ← IO.FS.realPath path
    return some (if ← place.isDir then .folder else .file)
  catch _ => return none

/-- The names in a folder. -/
def names (path : String) : IO (List String) := do
  try
    let place ← IO.FS.realPath path
    return (← place.readDir).toList.map (·.fileName)
  catch _ => return []

/-- The octets of a file. -/
def read (path : String) : IO (Except FileFault (List Nat)) := do
  if (← kind? path) = some .folder then return .error .isFolder
  try
    return .ok ((← IO.FS.readBinFile path).toList.map (·.toNat))
  catch _ => return .error .missing

/-- Make a folder. -/
def makeFolder (path : String) : IO (Except FileFault Unit) := do
  if (← kind? path).isSome then return .error .present
  try
    IO.FS.createDir path
    return .ok ()
  catch _ =>
    let around := (Path.ofText path).parent.text
    return .error (if (← kind? around) = some .file then .notFolder else .missing)

/-- Make a file or replace its content. -/
def write (path : String) (octets : List Nat) : IO (Except FileFault Unit) := do
  if (← kind? path) = some .folder then return .error .isFolder
  try
    IO.FS.writeBinFile path ⟨(octets.map Nat.toUInt8).toArray⟩
    return .ok ()
  catch _ => return .error .missing

/-- The operations of the file system. -/
def files : Files IO := { kind?, names, read, makeFolder, write }

/-- The environment variables for settings. -/
def environment : IO (Table String String) := do
  let found ← Settings.names.filterMapM fun field => do
    let name := (Settings.variableFront ++ field).toUpper
    return (← IO.getEnv name).map fun text => (name, text)
  return found

end Typings.Machine

open Typings in
/-- Run the program: the declarations go to the standard output, all else to the standard error. -/
def main (args : List String) : IO UInt32 := do
  let here := (← IO.currentDir).toString
  let origin : Origin IO := ⟨Machine.files, Path.ofText here, fun _ => none, true⟩
  let ending ← CommandLine.run origin (← Machine.environment) args
  let verbose := match CommandLine.command args with
    | .generate request => request.verbose
    | _ => false
  if verbose then
    for notice in ending.notices.reverse do
      IO.eprintln notice.text
  IO.eprint ending.report.text
  IO.print ending.output
  return UInt32.ofNat ending.code
