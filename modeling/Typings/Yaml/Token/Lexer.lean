import Typings.Table
import Typings.Yaml.Scalar
import Typings.Yaml.Token

/-!
Reading the tokens of a YAML text. A key without a question mark is known as one only by the colon after it; so every
place where a key may start is remembered, and the token for the key is put in there when the colon comes.
-/

namespace Typings.Yaml

/-- A place where a key may start. -/
structure Candidate where
  /-- The number of tokens before it. -/
  number : Nat
  /-- Whether there has to be a key. -/
  required : Bool
  /-- The number of characters before it. -/
  index : Nat
  /-- Its line. -/
  line : Nat
  /-- Its column. -/
  column : Nat

/-- The reading of tokens, as far as it has come. -/
structure Lexer where
  /-- The place in the text. -/
  cursor : Cursor
  /-- The tokens so far, newest first. -/
  tokens : List Token
  /-- How many flow collections are open. -/
  depth : Nat
  /-- The column of the innermost open block collection; `-1` if there is none. -/
  indent : Int
  /-- The columns of the block collections around it. -/
  outer : List Int
  /-- Whether a key may start here. -/
  keyAllowed : Bool
  /-- The places where keys may have started, by the number of flow collections around them. -/
  candidates : Table Nat Candidate

/-- A step of the reading. -/
abbrev Lexing := StateT Lexer (Except Fault)

namespace Lexing

/-! ### Parts of the state -/

/-- The place in the text. -/
def place : Lexing Cursor := do return (← get).cursor

/-- Go on from another place. -/
def goTo (c : Cursor) : Lexing Unit := modify fun l => { l with cursor := c }

/-- Add a token. -/
def emit (t : Token) : Lexing Unit := modify fun l => { l with tokens := t :: l.tokens }

/-- Put a token where there were `number` tokens before it. -/
def insertAt (number : Nat) (t : Token) : Lexing Unit := modify fun l =>
  let after := l.tokens.take (l.tokens.length - number)
  { l with tokens := after ++ t :: l.tokens.drop (l.tokens.length - number) }

/-- Say whether a key may start next. -/
def allowKey (allowed : Bool) : Lexing Unit := modify fun l => { l with keyAllowed := allowed }

/-- Whether the place is inside a flow collection. -/
def inFlow : Lexing Bool := do return (← get).depth ≠ 0

/-! ### Places of keys -/

/-- Forget the places of keys that the reading has passed: a key stands on one line and is not longer than 1024
characters. -/
def dropStale : Lexing Unit := do
  let l ← get
  let isStale (k : Candidate) := k.line ≠ l.cursor.line || 1024 < l.cursor.index - k.index
  if l.candidates.any fun (_, k) => isStale k && k.required then throw .token
  set { l with candidates := l.candidates.filter fun (_, k) => !isStale k }

/-- Forget the place of a key in the present collection. -/
def dropCandidate : Lexing Unit := do
  let l ← get
  match l.candidates.get? l.depth with
  | some k => if k.required then throw .token else set { l with candidates := l.candidates.erase l.depth }
  | none => pure ()

/-- Remember that a key may start here. -/
def noteCandidate : Lexing Unit := do
  if (← get).keyAllowed then
    dropCandidate
    modify fun l =>
      let k : Candidate :=
        { number := l.tokens.length
          required := l.depth = 0 && l.indent = l.cursor.column
          index := l.cursor.index
          line := l.cursor.line
          column := l.cursor.column }
      { l with candidates := l.candidates.set l.depth k }

/-! ### Indentation -/

/-- The tokens and the state after the block collections right of a column are closed. -/
def unwindFrom (column : Int) : List Int → Lexer → Lexer
  | [], l => l
  | o :: rest, l =>
    if column < l.indent then unwindFrom column rest { l with indent := o, outer := rest, tokens := .blockEnd :: l.tokens }
    else l

/-- Close the block collections right of a column. -/
def unwind (column : Int) : Lexing Unit := modify fun l => if l.depth = 0 then unwindFrom column l.outer l else l

/-- Open a block collection at a column, unless one is open there; the result tells if it was opened. -/
def indentTo (column : Nat) : Lexing Bool := modifyGet fun l =>
  if l.indent < (column : Int) then (true, { l with indent := column, outer := l.indent :: l.outer }) else (false, l)

/-! ### Single tokens -/

/-- A token of one character. -/
def mark (t : Token) : Lexing Unit := do
  goTo (← place).next
  emit t

/-- The end of the text. -/
def readFinish : Lexing Unit := do
  unwind (-1)
  dropCandidate
  emit .finish

/-- The mark of a document. -/
def readDocumentMark (t : Token) : Lexing Unit := do
  unwind (-1)
  dropCandidate
  allowKey false
  goTo ((← place).advance 3)
  emit t

/-- The opening of a flow collection. -/
def readOpening (t : Token) : Lexing Unit := do
  noteCandidate
  modify fun l => { l with depth := l.depth + 1, keyAllowed := true }
  mark t

/-- The closing of a flow collection. -/
def readClosing (t : Token) : Lexing Unit := do
  dropCandidate
  modify fun l => { l with depth := l.depth - 1, keyAllowed := false }
  mark t

/-- A comma. -/
def readComma : Lexing Unit := do
  allowKey true
  dropCandidate
  mark .comma

/-- Open a block collection at the place, if keys and entries may start there. -/
def openBlock (t : Token) : Lexing Unit := do
  if !(← get).keyAllowed then throw .token
  if ← indentTo (← place).column then emit t

/-- A hyphen. -/
def readItem : Lexing Unit := do
  if !(← inFlow) then openBlock .blockSequence
  allowKey true
  dropCandidate
  mark .item

/-- A question mark. -/
def readKey : Lexing Unit := do
  let flow ← inFlow
  if !flow then openBlock .blockMapping
  allowKey (!flow)
  dropCandidate
  mark .key

/-- A colon. -/
def readValue : Lexing Unit := do
  let l ← get
  match l.candidates.get? l.depth with
  | some k =>
    set { l with candidates := l.candidates.erase l.depth }
    insertAt k.number .key
    if l.depth = 0 then
      if ← indentTo k.column then insertAt k.number .blockMapping
    allowKey false
  | none =>
    let flow ← inFlow
    if !flow then openBlock .blockMapping
    allowKey (!flow)
    dropCandidate
  mark .value

/-- The name of an anchor, after its sign. -/
def readName (f : String → Token) : Lexing Unit := do
  noteCandidate
  allowKey false
  let c := (← place).next
  let name := c.run isNameChar
  let after := c.advance name.length
  if name = [] || !(isBlank after.head || ['?', ':', ',', ']', Char.ofNat 0x7D, '%', '@', Char.ofNat 0x60].contains after.head)
  then throw .token
  goTo after
  emit (f (String.ofList name))

/-- Characters of a tag, besides letters and digits. -/
def tagChars : List Char := "-;/?:@&=+$,_.!~*'()[]%".toList

/-- The rest of a tag. -/
def tagRest (c : Cursor) : Except Fault (String × Cursor) :=
  let text := c.run fun ch => ch.isAlphanum || tagChars.contains ch
  if text = [] then .error .token else .ok (String.ofList text, c.advance text.length)

/-- A handle for tags: exclamation marks around a name, or one alone. -/
def tagHandle (c : Cursor) : Except Fault (String × Cursor) :=
  if c.head ≠ '!' then .error .token
  else
    let name := c.next.run isNameChar
    let after := c.next.advance name.length
    if after.head = '!' then .ok (String.ofList ('!' :: name ++ ['!']), after.next)
    else if name = [] then .ok ("!", c.next)
    else .error .token

/-- The parts of a tag. -/
def tagParts (c : Cursor) : Except Fault (Option String × String × Cursor) := do
  if c.peek 1 = '<' then
    let (rest, after) ← tagRest (c.advance 2)
    if after.head = '>' then return (none, rest, after.next) else throw .token
  else if isBlank (c.peek 1) then return (none, "!", c.next)
  else if (c.next.run (!isGap ·)).contains '!' then
    let (handle, after) ← tagHandle c
    let (rest, after) ← tagRest after
    return (some handle, rest, after)
  else
    let (rest, after) ← tagRest c.next
    return (some "!", rest, after)

/-- A tag. -/
def readTag : Lexing Unit := do
  noteCandidate
  allowKey false
  let (handle, rest, after) ← tagParts (← place)
  if !isGap after.head then throw .token
  goTo after
  emit (.tag handle rest)

/-- A block scalar. -/
def readBlock (folded : Bool) : Lexing Unit := do
  allowKey true
  dropCandidate
  let taken ← Scalar.block folded (← get).indent (← place)
  goTo taken.after
  emit (.scalar (String.ofList taken.text) false)

/-- A scalar in quotes. -/
def readQuoted : Lexing Unit := do
  noteCandidate
  allowKey false
  let taken ← Scalar.quoted (← place)
  goTo taken.after
  emit (.scalar (String.ofList taken.text) false)

/-- A plain scalar. -/
def readPlain : Lexing Unit := do
  noteCandidate
  let taken := Scalar.plain (← inFlow) (← get).indent (← place)
  allowKey taken.atLineStart
  goTo taken.after
  emit (.scalar (String.ofList taken.text) true)

/-! ### Directives -/

/-- The number at a place. -/
def number (c : Cursor) : Except Fault (Nat × Cursor) :=
  let digits := c.run (·.isDigit)
  if digits = [] then .error .token
  else .ok (digits.foldl (fun n d => 10 * n + (d.toNat - 0x30)) 0, c.advance digits.length)

/-- The version that a directive names. -/
def versionOf (c : Cursor) : Except Fault (Token × Cursor) := do
  let (major, c) ← number (c.skip (· = ' '))
  if c.head ≠ '.' then throw .token
  let (_, c) ← number c.next
  if isGap c.head then return (.version major, c) else throw .token

/-- The handle that a directive gives. -/
def handleOf (c : Cursor) : Except Fault (Token × Cursor) := do
  let (name, c) ← tagHandle (c.skip (· = ' '))
  if c.head ≠ ' ' then throw .token
  let (front, c) ← tagRest (c.skip (· = ' '))
  if isGap c.head then return (.handle name front, c) else throw .token

/-- A directive. -/
def readDirective : Lexing Unit := do
  unwind (-1)
  dropCandidate
  allowKey false
  let c := (← place).next
  let name := String.ofList (c.run isNameChar)
  let c := c.skip isNameChar
  if name = "" || !isGap c.head then throw .token
  let (t, c) ← if name = "YAML" then versionOf c
    else if name = "TAG" then handleOf c
    else pure (.directive, c.skip (!isLineEnd ·))
  let c := c.skip (· = ' ')
  let c := if c.head = '#' then c.skip (!isLineEnd ·) else c
  if !isLineEnd c.head then throw .token
  goTo c.lineBreak.2
  emit t

/-! ### All tokens -/

/-- Skip spaces, comments and line breaks; a new line outside of flow collections may start with a key. -/
def skipBlank : (fuel : Nat) → Lexing Unit
  | 0 => pure ()
  | fuel + 1 => do
    let c := (← place).skip (· = ' ')
    let c := if c.head = '#' then c.skip (!isLineEnd ·) else c
    if isBreak c.head then
      goTo c.lineBreak.2
      if !(← inFlow) then allowKey true
      skipBlank fuel
    else goTo c

/-- Whether a plain scalar starts here. -/
def startsPlain (flow : Bool) (c : Cursor) : Bool :=
  let special := isBlank c.head || isFlowMark c.head || "-?:#&*!|>'\"%@".toList.contains c.head || c.head = Char.ofNat 0x60
  !special || (!isBlank (c.peek 1) && (c.head = '-' || (!flow && (c.head = '?' || c.head = ':'))))

/-- Read the token at the place. -/
def readToken : Lexing Unit := do
  let c ← place
  let flow ← inFlow
  let ch := c.head
  let alone := isBlank (c.peek 1)
  if ch = '%' && c.column = 0 then readDirective
  else if c.column = 0 && c.hasMark '-' then readDocumentMark .documentStart
  else if c.column = 0 && c.hasMark '.' then readDocumentMark .documentEnd
  else if ch = '[' then readOpening .openSequence
  else if ch.toNat = 0x7B then readOpening .openMapping
  else if ch = ']' then readClosing .closeSequence
  else if ch.toNat = 0x7D then readClosing .closeMapping
  else if ch = ',' then readComma
  else if ch = '-' && alone then readItem
  else if ch = '?' && (flow || alone) then readKey
  else if ch = ':' && (flow || alone) then readValue
  else if ch = '*' then readName .reference
  else if ch = '&' then readName .anchor
  else if ch = '!' then readTag
  else if (ch = '|' || ch = '>') && !flow then readBlock (ch = '>')
  else if ch = '\'' || ch = '"' then readQuoted
  else if startsPlain flow c then readPlain
  else throw .token

/-- Go to the next token and read it; the result tells if there was one. -/
def step : Lexing Bool := do
  skipBlank ((← place).rest.length + 1)
  dropStale
  unwind (← place).column
  if (← place).head = theEnd then
    readFinish
    return false
  else
    readToken
    return true

end Lexing

namespace Token

/-- Read tokens until the end or a fault; the tokens before a fault are kept. -/
def readAll : (fuel : Nat) → Lexer → List Token × Option Fault
  | 0, l => (l.tokens.reverse, some .token)
  | fuel + 1, l =>
    match Lexing.step.run l with
    | .error f => (l.tokens.reverse, some f)
    | .ok (true, l) => readAll fuel l
    | .ok (false, l) => (l.tokens.reverse, none)

/-- The tokens of a text, and the fault that ended the reading early. -/
def scan (cs : List Char) : List Token × Option Fault :=
  let start := match cs with
    | c :: _ => if c.toNat = 0xFEFF then (Cursor.start cs).next else Cursor.start cs
    | [] => Cursor.start cs
  readAll (cs.length + 2) ⟨start, [], 0, -1, [], true, []⟩

end Token

end Typings.Yaml
