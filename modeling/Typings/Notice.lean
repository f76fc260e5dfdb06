import Typings.Schema

/-!
What the program tells about its work, at three levels.
-/

namespace Typings

/-- How important a notice is. -/
inductive Level where
  /-- Steps of the work. -/
  | debug
  /-- Results of the work. -/
  | info
  /-- Things that may not be meant. -/
  | warning
  deriving DecidableEq

/-- A notice. -/
inductive Notice where
  /-- A document was recognised. -/
  | recognised (dialect : Dialect) (openapi : Option OpenApi) (id : Option String)
  /-- A schema is being registered. -/
  | registering (id : String)
  /-- A schema took the place of another one. -/
  | superseded (id : String)
  /-- A round of resolution begins. -/
  | roundBegun (number pending : Nat)
  /-- A document was fetched. -/
  | fetched (url : String)
  /-- An operation is being replaced by schemas. -/
  | synthesizing (id : String)
  /-- So many schemas came from operations. -/
  | synthesized (count : Nat)
  /-- A stage of resolution is over. -/
  | stageDone (stage : String) (resolved : Nat)
  /-- A schema has no place in the namespaces. -/
  | unnamed
  /-- A schema took the place of another one in the namespaces. -/
  | replaced (path : List String) (old new : String)
  /-- The namespaces are complete. -/
  | namespacesBuilt (declarations : Nat)
  /-- A schema is being declared. -/
  | declaring (id : String)
  /-- Values of different kinds were merged. -/
  | kindMismatch (key : String)
  /-- A name means something else where it is used. -/
  | shadowed (name : String) (inside : List String)
  /-- A pattern stands for so many files. -/
  | expanded (source : String) (count : Nat)
  /-- A document is being fetched. -/
  | fetching (url : String)
  /-- So many documents were loaded. -/
  | loaded (count : Nat)
  /-- So many characters were written. -/
  | wrote (characters : Nat) (path : String)
  /-- The declarations were written. -/
  | finished (path : String)

namespace Notice

/-- The level of a notice. -/
def level : Notice → Level
  | superseded _ | unnamed => .warning
  | loaded _ | finished _ => .info
  | _ => .debug

/-- A number in digits. -/
def digits (n : Nat) : String := Number.intText n

/-- The words of a notice. -/
def text : Notice → String
  | recognised dialect openapi id =>
    "parsed document: dialect=" ++ dialect.name ++ ", openapi=" ++ ((openapi.map (digits ·.number)).getD "None") ++
      ", id=" ++ id.getD "None"
  | registering id => "register schema: schemaId=" ++ id
  | superseded id => "schema superseded: schemaId=" ++ id
  | roundBegun number pending =>
    "resolve round " ++ digits number ++ ": " ++ digits pending ++ " pending reference(s)"
  | .fetched url => "fetched document: " ++ url
  | synthesizing id => "synthesize operation: schemaId=" ++ id
  | synthesized count => "synthesized " ++ digits count ++ " operation schema(s)"
  | stageDone stage resolved => stage ++ " round: " ++ digits resolved ++ " reference(s) resolved"
  | unnamed => "schema without an id cannot be declared; add an id or $id to it"
  | replaced path old new => "namespace path " ++ "/".intercalate path ++ " replaced: " ++ old ++ " -> " ++ new
  | namespacesBuilt declarations => "namespace tree built: " ++ digits declarations ++ " declaration(s)"
  | declaring id => "emit schema: schemaId=" ++ id
  | kindMismatch key => "merge_schema: type mismatch for key=" ++ key
  | shadowed name inside => name ++ " is shadowed in " ++ ".".intercalate inside
  | expanded source count => "expanded " ++ source ++ " to " ++ digits count ++ " file(s)"
  | fetching url => "fetching " ++ url
  | loaded count => "loaded " ++ digits count ++ " document(s)"
  | wrote characters path => "wrote " ++ digits characters ++ " characters to " ++ path
  | finished path => "declarations written to " ++ path

end Notice

/-- A computation that may fail and that tells about its work, the newest notice first. What was told before a failure
stays. -/
abbrev Told := EStateM Failure (List Notice)

namespace Told

/-- Tell something. -/
def tell (n : Notice) : Told Unit := modify (n :: ·)

/-- The value of a computation that may fail. -/
def lift {α : Type} (e : Except Failure α) : Told α :=
  match e with
  | .ok a => pure a
  | .error f => throw f

end Told

end Typings
