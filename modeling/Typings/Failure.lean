import Typings.Yaml.Fault

/-!
What can go wrong, by cause. The wording of each cause is given once, in `message`.
-/

namespace Typings

/-- Why a pointer does not lead to a value. -/
inductive PointerFault where
  /-- It is not empty and does not start with a slash. -/
  | noSlash
  /-- The object has no such member. -/
  | noMember (token : String)
  /-- The array has no such item. -/
  | noItem (token : String)
  /-- The value is neither an object nor an array. -/
  | noParts (token : String)
  /-- For a reason given in words, or none. -/
  | other (reason : Option String)

/-- Why a reference has no target. -/
inductive ReferenceFault where
  /-- Nothing is registered under the id. -/
  | unregistered
  /-- No document that could hold the target is registered. -/
  | noDocument
  /-- The target's id has no names. -/
  | nameless
  /-- A round of resolution left references over, for these reasons. -/
  | leftOver (reasons : List String)
  /-- For a reason given in words, or none. -/
  | other (reason : Option String)

/-- Why a schema cannot be used. -/
inductive SchemaFault where
  /-- Its content is neither an object nor a truth value. -/
  | notObject (id : String)
  /-- Its `allOf` members refer to each other in a circle. -/
  | circular (reference : String)
  /-- It has an `allOf` reference, and there is no registry to look it up in. -/
  | noRegistry (reference : String)
  /-- No schema has a place in the namespaces. -/
  | nothingDeclared
  /-- For a reason given in words. -/
  | other (message : String)

/-- Why a document cannot be loaded. -/
inductive LoadCause where
  /-- For a reason given in words. -/
  | words (text : String)
  /-- It is not YAML. -/
  | notYaml

/-- A failure. -/
inductive Failure where
  /-- For a reason given in words. -/
  | general (message : String)
  /-- A schema cannot be used. -/
  | schema (fault : SchemaFault)
  /-- A pointer does not lead to a value. -/
  | pointer (pointer : String) (fault : PointerFault)
  /-- A document cannot be loaded. -/
  | load (source : String) (cause : Option LoadCause)
  /-- A reference has no target. -/
  | reference (reference : String) (fault : ReferenceFault)
  /-- No declaration can be written. -/
  | generation (message : String) (context cause : Option String)
  /-- A type is not one of JSON Schema. -/
  | unsupportedType (type : String) (schema : Option String)
  /-- The settings are wrong. -/
  | configuration (message : String) (path field : Option String)
  /-- The output cannot be written. -/
  | output (path : String) (cause : Option String)
  /-- A numeral has more digits than are read. -/
  | badNumeral
  /-- A URL names a host that cannot be. -/
  | badUrl
  /-- A value is of a kind that cannot serve as a type, a name or a count. -/
  | badKind
  /-- A settings file is not JSON. -/
  | notJson
  /-- A settings file is not YAML. -/
  | notYaml (fault : Yaml.Fault)
  /-- A settings file is not TOML. -/
  | notToml
  /-- A settings file is not UTF-8. -/
  | notText
  /-- A settings file is a folder. -/
  | notFile
  /-- An environment variable for a list is not JSON. -/
  | badVariable
  /-- Settings that are not looked up anywhere are wrong. -/
  | badSettings
  /-- The work does not come to an end within its bounds. -/
  | endless

/-- A text, unless it is empty. -/
def given (text : Option String) : Option String := text.filter (· ≠ "")

/-- `text` with `more`, if that is there, after a colon. -/
def withReason (text : String) (more : Option String) : String :=
  match more with
  | some reason => text ++ ": " ++ reason
  | none => text

/-- The reason in words. -/
def PointerFault.reason : PointerFault → Option String
  | noSlash => some "pointer must start with \"/\""
  | noMember token => some ("member '" ++ token ++ "' not found")
  | noItem token => some ("index '" ++ token ++ "' out of range")
  | noParts token => some ("cannot descend into '" ++ token ++ "'")
  | other reason => reason

/-- The reason in words. -/
def ReferenceFault.reason : ReferenceFault → Option String
  | unregistered => some "the $ref target is not registered"
  | noDocument => some "the $ref target's document is not registered"
  | nameless => some "target referenced id is nothing"
  | leftOver reasons => some ("\n".intercalate reasons)
  | other reason => reason

/-- The message. -/
def SchemaFault.message : SchemaFault → String
  | notObject id => "Schema content at '" ++ id ++ "' is not an object"
  | circular reference => "Circular allOf reference '" ++ reference ++ "'"
  | noRegistry reference => "Cannot dereference allOf member '" ++ reference ++ "'"
  | nothingDeclared => "There is no schema in the input contents."
  | other message => message

/-- The cause in words. -/
def LoadCause.text : LoadCause → String
  | words text => text
  | notYaml => "not a YAML document"

/-- A message with what was being generated and why it failed. -/
def generationMessage (message : String) (context cause : Option String) : String :=
  withReason (match given context with
    | some c => message ++ " (while generating " ++ c ++ ")"
    | none => message) cause

namespace Failure

/-- The message of a failure; those that arise from values or files of a wrong form have none. -/
def message : Failure → String
  | .general text => text
  | .schema fault => fault.message
  | .pointer p fault => withReason ("Failed to follow pointer '" ++ p ++ "'") (given fault.reason)
  | .load source cause => withReason ("Failed to load document from '" ++ source ++ "'") (cause.map (·.text))
  | .reference r fault => withReason ("Failed to resolve reference '" ++ r ++ "'") (given fault.reason)
  | .generation text context cause => generationMessage text context cause
  | .unsupportedType type context => generationMessage ("Unsupported schema type '" ++ type ++ "'") context none
  | .configuration text path field =>
    let located := match given path with
      | some p => text ++ " in '" ++ p ++ "'"
      | none => text
    match given field with
    | some f => located ++ " (field: " ++ f ++ ")"
    | none => located
  | .output path cause => withReason ("Failed to write output to '" ++ path ++ "'") cause
  | .badNumeral | .badUrl | .badKind | .notJson | .notYaml _ | .notToml | .notText | .notFile | .badVariable | .badSettings
  | .endless => ""

/-- Whether a failure is one that the program reports in words. -/
def isForeseen : Failure → Bool
  | .badNumeral | .badUrl | .badKind | .notJson | .notYaml _ | .notToml | .notText | .notFile | .badVariable | .badSettings
  | .endless => false
  | _ => true

/-- Whether a failure is about a schema, a document or a reference. -/
def isSchemaFailure : Failure → Bool
  | .schema _ | .pointer _ _ | .load _ _ | .reference _ _ => true
  | _ => false

end Failure

end Typings
