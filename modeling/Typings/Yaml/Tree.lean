import Typings.Yaml.Tag
import Typings.Yaml.Token.Lexer

/-!
The nodes of a YAML document, as they are written. Each carries a mark; a node that is meant by its anchor is the very node that carries the
anchor, with the same mark.
-/

namespace Typings.Yaml

/-- A node of a document. -/
inductive Tree where
  /-- A scalar. -/
  | scalar (mark : Nat) (tag : Tag) (text : String)
  /-- A sequence. -/
  | seq (mark : Nat) (tag : Tag) (items : List Tree)
  /-- A mapping. -/
  | map (mark : Nat) (tag : Tag) (entries : List (Tree × Tree))

/-- The building of nodes, as far as it has come. -/
structure Build where
  /-- The tokens that are left. -/
  tokens : List Token
  /-- What is wrong after them. -/
  fault : Option Fault
  /-- What the handles of tags stand for. -/
  handles : Table String String
  /-- The anchors so far; the node is missing while it is being built. -/
  anchors : Table String (Option Tree)
  /-- The next free mark. -/
  next : Nat

/-- A step of the building. -/
abbrev Building := StateT Build (Except Fault)

namespace Building

/-- The next token. -/
def peek : Building Token := do
  let b ← get
  match b.tokens with
  | t :: _ => return t
  | [] => throw (b.fault.getD .layout)

/-- Go to the token after the next one. -/
def shift : Building Unit := modify fun b => { b with tokens := b.tokens.drop 1 }

/-- Whether the next token is one of some. -/
def isNext (ts : List Token) : Building Bool := do return ts.contains (← peek)

/-- Go past a token that has to come next. -/
def demand (t : Token) : Building Unit := do
  if (← peek) = t then shift else throw .layout

/-- A mark that is not in use. -/
def fresh : Building Nat := modifyGet fun b => (b.next, { b with next := b.next + 1 })

/-- A scalar of which nothing is written. -/
def missing : Building Tree := do return .scalar (← fresh) .null ""

/-! ### Properties -/

/-- The anchor that comes next, if one does. -/
def anchor? : Building (Option String) := do
  match ← peek with
  | .anchor name => do shift; return some name
  | _ => return none

/-- The name in full of the tag that comes next, if one does. -/
def tag? : Building (Option String) := do
  match ← peek with
  | .tag handle rest => do
    shift
    match handle with
    | none => return some rest
    | some h => match (← get).handles.get? h with
      | some front => return some (front ++ rest)
      | none => throw .layout
  | _ => return none

/-- Anchor and tag, in either order. -/
def properties : Building (Option String × Option String) := do
  let first ← anchor?
  let tag ← tag?
  let anchor ← if first.isSome then pure first else anchor?
  return (anchor, tag)

/-- A tag that is given, or else `usual`. -/
def tagOr (usual : Tag) (tag : Option String) : Tag :=
  match tag with
  | none | some "!" => usual
  | some name => Tag.ofName name

/-! ### Nodes -/

mutual

/-- A node; `block` says that it may be a block collection, `flush` that a block sequence may stand in the column of its
key. -/
def node : (fuel : Nat) → (block flush : Bool) → Building Tree
  | 0, _, _ => throw .layout
  | fuel + 1, block, flush => do
    match ← peek with
    | .reference name =>
      shift
      match (← get).anchors.get? name with
      | some (some t) => return t
      | _ => throw .anchor
    | _ =>
      let (anchor, tag) ← properties
      match anchor with
      | none => content fuel block flush none tag
      | some name =>
        if (← get).anchors.has name then throw .anchor
        modify fun b => { b with anchors := b.anchors.set name none }
        let t ← content fuel block flush anchor tag
        modify fun b => { b with anchors := b.anchors.set name (some t) }
        return t

/-- What a node consists of, after its properties. -/
def content : (fuel : Nat) → (block flush : Bool) → (anchor tag : Option String) → Building Tree
  | 0, _, _, _, _ => throw .layout
  | fuel + 1, block, flush, anchor, tag => do
    let mark ← fresh
    let t ← peek
    match t with
    | .scalar text isPlain =>
      shift
      let usual := if isPlain || tag = some "!" then Tag.ofPlain text else .str
      return .scalar mark (tagOr usual tag) text
    | .openSequence => do shift; return .seq mark (tagOr .seq tag) (← flowItems fuel true)
    | .openMapping => do shift; return .map mark (tagOr .map tag) (← flowEntries fuel true)
    | _ =>
      if t = .item && flush then return .seq mark (tagOr .seq tag) (← flushItems fuel)
      else if t = .blockSequence && block then do shift; return .seq mark (tagOr .seq tag) (← blockItems fuel)
      else if t = .blockMapping && block then do shift; return .map mark (tagOr .map tag) (← blockEntries fuel)
      else if anchor.isSome || tag.isSome then return .scalar mark (tagOr .null tag) ""
      else throw .layout

/-- The items of a block sequence. -/
def blockItems : (fuel : Nat) → Building (List Tree)
  | 0 => throw .layout
  | fuel + 1 => do
    if ← isNext [.item] then
      shift
      let first ← if ← isNext [.item, .blockEnd] then missing else node fuel true false
      return first :: (← blockItems fuel)
    else
      demand .blockEnd
      return []

/-- The items of a block sequence in the column of its key. -/
def flushItems : (fuel : Nat) → Building (List Tree)
  | 0 => throw .layout
  | fuel + 1 => do
    if ← isNext [.item] then
      shift
      let first ← if ← isNext [.item, .key, .value, .blockEnd] then missing else node fuel true false
      return first :: (← flushItems fuel)
    else return []

/-- The entries of a block mapping. -/
def blockEntries : (fuel : Nat) → Building (List (Tree × Tree))
  | 0 => throw .layout
  | fuel + 1 => do
    if ← isNext [.key] then
      shift
      let key ← if ← isNext [.key, .value, .blockEnd] then missing else node fuel true true
      let value ← blockValue fuel
      return (key, value) :: (← blockEntries fuel)
    else
      demand .blockEnd
      return []

/-- The value after a key of a block mapping. -/
def blockValue : (fuel : Nat) → Building Tree
  | 0 => throw .layout
  | fuel + 1 => do
    if ← isNext [.value] then
      shift
      if ← isNext [.key, .value, .blockEnd] then missing else node fuel true true
    else missing

/-- The items of a flow sequence; `first` says that none has come yet. -/
def flowItems : (fuel : Nat) → (first : Bool) → Building (List Tree)
  | 0, _ => throw .layout
  | fuel + 1, first => do
    if ← isNext [.closeSequence] then do shift; return []
    if !first then demand .comma
    if ← isNext [.key] then
      shift
      let mark ← fresh
      let key ← if ← isNext [.value, .comma, .closeSequence] then missing else node fuel false false
      let value ← flowValue fuel .closeSequence
      return .map mark .map [(key, value)] :: (← flowItems fuel false)
    else if ← isNext [.closeSequence] then do shift; return []
    else
      let item ← node fuel false false
      return item :: (← flowItems fuel false)

/-- The entries of a flow mapping; `first` says that none has come yet. -/
def flowEntries : (fuel : Nat) → (first : Bool) → Building (List (Tree × Tree))
  | 0, _ => throw .layout
  | fuel + 1, first => do
    if ← isNext [.closeMapping] then do shift; return []
    if !first then demand .comma
    if ← isNext [.key] then
      shift
      let key ← if ← isNext [.value, .comma, .closeMapping] then missing else node fuel false false
      let value ← flowValue fuel .closeMapping
      return (key, value) :: (← flowEntries fuel false)
    else if ← isNext [.closeMapping] then do shift; return []
    else
      let key ← node fuel false false
      let value ← missing
      return (key, value) :: (← flowEntries fuel false)

/-- The value after a key of a flow collection that `closing` closes. -/
def flowValue : (fuel : Nat) → (closing : Token) → Building Tree
  | 0, _ => throw .layout
  | fuel + 1, closing => do
    if ← isNext [.value] then
      shift
      if ← isNext [.comma, closing] then missing else node fuel false false
    else missing

end

/-! ### Documents -/

/-- Take in the directives before a document. -/
def directives : (fuel : Nat) → (versionSeen : Bool) → (names : List String) → Building Unit
  | 0, _, _ => throw .layout
  | fuel + 1, versionSeen, names => do
    match ← peek with
    | .version major =>
      if versionSeen || major ≠ 1 then throw .layout
      shift
      directives fuel true names
    | .handle name front =>
      if names.contains name then throw .layout
      modify fun b => { b with handles := b.handles.set name front }
      shift
      directives fuel versionSeen (name :: names)
    | .directive => do shift; directives fuel versionSeen names
    | _ => pure ()

/-- Go past the marks of the end of a document. -/
def skipEnds : (fuel : Nat) → Building Unit
  | 0 => pure ()
  | fuel + 1 => do if ← isNext [.documentEnd] then do shift; skipEnds fuel

/-- Whether a directive comes next. -/
def hasDirective : Building Bool := do
  match ← peek with
  | .version _ | .handle _ _ | .directive => return true
  | _ => return false

/-- The node of the only document, if there is one. -/
def document : Building (Option Tree) := do
  let fuel := 4 * (← get).tokens.length + 8
  if ← isNext [.finish] then return none
  let t ← if (← hasDirective) || (← isNext [.documentStart]) then do
      directives fuel false []
      demand .documentStart
      if (← hasDirective) || (← isNext [.documentStart, .documentEnd, .finish]) then missing else node fuel true false
    else node fuel true false
  skipEnds fuel
  if ← isNext [.finish] then return some t
  else if (← hasDirective) || (← isNext [.documentStart]) then throw .anchor
  else throw .layout

end Building

namespace Tree

/-- The node of the only document of a text, if there is one. -/
def ofChars (cs : List Char) : Except Fault (Option Tree) :=
  if !cs.all isAllowed then .error .character
  else
    let (tokens, fault) := Token.scan cs
    (Building.document.run ⟨tokens, fault, [("!", "!"), ("!!", Tag.common)], [], 0⟩).map (·.1)

end Tree

end Typings.Yaml
