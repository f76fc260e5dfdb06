/-!
Tokens of a YAML text. Indentation is made explicit: a block collection has a token at its start and one at its end.
-/

namespace Typings.Yaml

/-- A token. -/
inductive Token where
  /-- The version directive, with the major number. -/
  | version (major : Nat)
  /-- A directive that gives a handle for tags. -/
  | handle (name front : String)
  /-- Any other directive. -/
  | directive
  /-- Three hyphens: a document starts. -/
  | documentStart
  /-- Three full stops: a document ends. -/
  | documentEnd
  /-- A block sequence starts. -/
  | blockSequence
  /-- A block mapping starts. -/
  | blockMapping
  /-- A block collection ends. -/
  | blockEnd
  /-- A bracket opens a sequence. -/
  | openSequence
  /-- A bracket closes a sequence. -/
  | closeSequence
  /-- A brace opens a mapping. -/
  | openMapping
  /-- A brace closes a mapping. -/
  | closeMapping
  /-- A hyphen: an entry of a block sequence. -/
  | item
  /-- A comma: an entry of a flow collection follows. -/
  | comma
  /-- A key follows. -/
  | key
  /-- A colon: a value follows. -/
  | value
  /-- The name of an anchor that is put down. -/
  | anchor (name : String)
  /-- The name of an anchor that is meant. -/
  | reference (name : String)
  /-- A tag: its handle, if it has one, and the rest. -/
  | tag (handle : Option String) (rest : String)
  /-- A scalar, and whether it is plain. -/
  | scalar (text : String) (isPlain : Bool)
  /-- The end of the text. -/
  | finish
  deriving DecidableEq

end Typings.Yaml
