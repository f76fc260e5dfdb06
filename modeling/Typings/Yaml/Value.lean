import Typings.Json.Display
import Typings.Yaml.Tree

/-!
The values of YAML nodes. Keys of mappings are values too: equal ones, such as `1` and `1.0`, are the same key. Other
mappings may be merged in, in front of a mapping's own entries.

Collections are built level by level, the whole before its parts. Of several faults the one that is met first counts: it
is the one on the least level, and on one level the one that is written first.
-/

namespace Typings.Yaml

/-- A value, with the mark of its node. -/
inductive Value where
  /-- A value without parts. -/
  | atom (mark : Nat) (value : Atom)
  /-- A sequence. -/
  | seq (mark : Nat) (items : List Value)
  /-- A mapping. -/
  | map (mark : Nat) (entries : List (Atom × Value))

/-- A result, or a fault and the level on which it is met. -/
abbrev Levelled := Except (Nat × Fault)

namespace Levelled

/-- Both results, or the fault that is met first. -/
def both {α β : Type} : Levelled α → Levelled β → Levelled (α × β)
  | .ok a, .ok b => .ok (a, b)
  | .error e, .ok _ | .ok _, .error e => .error e
  | .error e, .error f => .error (if f.1 < e.1 then f else e)

end Levelled

namespace Tree

/-- The tag. -/
def tag : Tree → Tag
  | scalar _ t _ | seq _ t _ | map _ t _ => t

/-- The mark. -/
def mark : Tree → Nat
  | scalar m _ _ | seq m _ _ | map m _ _ => m

mutual

/-- The text of a scalar; that of a mapping is the text of its default value. -/
def scalarText? : Tree → Option String
  | scalar _ _ text => some text
  | seq _ _ _ => none
  | map _ _ entries => defaultText? entries

/-- The text of the default value among entries. -/
def defaultText? : List (Tree × Tree) → Option String
  | [] => none
  | (key, t) :: rest => if key.tag = .default then scalarText? t else defaultText? rest

end

mutual

/-- Whether a node can be merged into a mapping: it is a mapping, or a sequence of mappings. -/
def isMergeable : Tree → Bool
  | scalar _ _ _ => false
  | seq _ _ items => areMappings items
  | map _ _ entries => isSound entries

/-- Whether all nodes are mappings that can be merged in. -/
def areMappings : List Tree → Bool
  | [] => true
  | .map _ _ entries :: rest => isSound entries && areMappings rest
  | _ :: _ => false

/-- Whether all that entries want to merge in can be. -/
def isSound : List (Tree × Tree) → Bool
  | [] => true
  | (key, t) :: rest => (key.tag ≠ .merge || isMergeable t) && isSound rest

end

/-- The value of a node that is tagged as a scalar. -/
def toAtom (level : Nat) (t : Tree) : Levelled Value :=
  match t.scalarText? with
  | some text => ((Tag.atomOf t.tag text).map (.atom t.mark)).mapError ((level, ·))
  | none => .error (level, .value)

/-- The key that a value is. -/
def asKey (level : Nat) : Value → Levelled Atom
  | .atom _ (.extra x) => if x.isKey then .ok (.extra x) else .error (level, .value)
  | .atom _ a => .ok a
  | _ => .error (level, .value)

/-- The key that a node stands for. -/
def toKey (level : Nat) (key : Tree) : Levelled Atom :=
  match key with
  | scalar _ .default text => .ok (.str text)
  | key => if key.tag.isCollection then .error (level, .value) else (key.toAtom level).bind (asKey level)

/-- Give a key its value. -/
def put (entries : List (Atom × Value)) (key : Atom) (v : Value) : List (Atom × Value) :=
  match entries with
  | [] => [(key, v)]
  | (k, w) :: rest => if k.toJson.same key.toJson then (k, v) :: rest else (k, w) :: put rest key v

/-- Entries in which each key comes once: where it comes first, with the value that it has last. -/
def distinct (entries : List (Atom × Value)) : List (Atom × Value) := entries.foldl (fun es (k, v) => put es k v) []

/-- The members of a set as they are shown. -/
def members (entries : List (Atom × Value)) : List String := (distinct entries).map fun (k, _) => k.toJson.shown

mutual

/-- The value of a node that is met on a level. -/
def toValue (level : Nat) : Tree → Levelled Value
  | scalar mark tag text =>
    if tag.isCollection then .error (level + 1, .value) else toAtom level (scalar mark tag text)
  | seq mark tag items =>
    if tag = .seq then (toItems (level + 1) items).map (.seq mark)
    else if tag = .omap || tag = .pairs then (toPairs (level + 1) items).map (.seq mark)
    else .error (if tag.isCollection then level + 1 else level, .value)
  | map mark tag entries =>
    if tag = .map then (toEntries (level + 1) entries).map fun es => .map mark (distinct es)
    else if tag = .set then (toEntries (level + 1) entries).map fun es => .atom mark (.extra (.set (members es)))
    else if tag.isCollection then .error (level + 1, .value)
    else toAtom level (map mark tag entries)

/-- The values of items. -/
def toItems (level : Nat) : List Tree → Levelled (List Value)
  | [] => .ok []
  | t :: rest => (Levelled.both (toValue level t) (toItems level rest)).map fun (v, vs) => v :: vs

/-- The pairs that mappings of one entry each stand for. -/
def toPairs (level : Nat) : List Tree → Levelled (List Value)
  | [] => .ok []
  | .map mark _ [(key, t)] :: rest =>
    let pair := (Levelled.both (toValue level key) (toValue level t)).map fun (k, v) => .seq mark [k, v]
    (Levelled.both pair (toPairs level rest)).map fun (v, vs) => v :: vs
  | _ :: _ => .error (level, .value)

/-- All entries of a mapping: those that are merged in, and its own. -/
def toEntries (level : Nat) (entries : List (Tree × Tree)) : Levelled (List (Atom × Value)) :=
  if isSound entries then (Levelled.both (toMerged level entries) (toOwn level entries)).map fun (es, fs) => es ++ fs
  else .error (level, .value)

/-- The entries that are merged in. -/
def toMerged (level : Nat) : List (Tree × Tree) → Levelled (List (Atom × Value))
  | [] => .ok []
  | (key, t) :: rest =>
    if key.tag = .merge then
      (Levelled.both (mergedFrom level t) (toMerged level rest)).map fun (es, fs) => es ++ fs
    else toMerged level rest

/-- The entries that a node gives when it is merged in. -/
def mergedFrom (level : Nat) : Tree → Levelled (List (Atom × Value))
  | scalar _ _ _ => .ok []
  | seq _ _ items => mergedFromAll level items
  | map _ _ entries => toEntries level entries

/-- The entries that nodes give when they are merged in: those of the last one come first. -/
def mergedFromAll (level : Nat) : List Tree → Levelled (List (Atom × Value))
  | [] => .ok []
  | t :: rest => (Levelled.both (mergedFromAll level rest) (mergedFrom level t)).map fun (es, fs) => es ++ fs

/-- A mapping's own entries. -/
def toOwn (level : Nat) : List (Tree × Tree) → Levelled (List (Atom × Value))
  | [] => .ok []
  | (key, t) :: rest =>
    if key.tag = .merge then toOwn level rest
    else
      let entry := Levelled.both (toKey level key) (toValue level t)
      (Levelled.both entry (toOwn level rest)).map fun (e, es) => e :: es

end

end Tree

namespace Value

/-- The text that a key counts as in a document. -/
def keyText : Atom → String
  | .null => "null"
  | .bool b => if b then "true" else "false"
  | .num n => n.text
  | .str s => s
  | .extra x => x.text

mutual

/-- A value as part of a document. -/
def toNode : Value → Node
  | atom mark a => .atom mark a
  | seq mark items => .arr mark (toNodes items)
  | map mark entries => .obj mark (Table.ofEntries (toFields entries))

/-- Items as parts of a document. -/
def toNodes : List Value → List Node
  | [] => []
  | v :: rest => toNode v :: toNodes rest

/-- Entries as members of an object. -/
def toFields : List (Atom × Value) → List (String × Node)
  | [] => []
  | (k, v) :: rest => (keyText k, toNode v) :: toFields rest

end

/-- Whether all keys of a mapping are texts. -/
def hasTextKeys : Value → Bool
  | map _ entries => entries.all fun (k, _) => match k with
    | .str _ => true
    | _ => false
  | _ => true

/-- Read the only document of a text; one that is not there is `null`. -/
def read (cs : List Char) : Except Fault Value := do
  match ← Tree.ofChars cs with
  | some t => (t.toValue 0).mapError (·.2)
  | none => return .atom 0 .null

end Value

/-- Read the only document of a text as a document of parts. -/
def read (cs : List Char) : Except Fault Node := (Value.read cs).map (·.toNode)

end Typings.Yaml
