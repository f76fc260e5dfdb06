import Typings.Text.CodePoint
import Typings.Yaml.Cursor

/-!
Scalars as they are written: plain, in single or double quotes, and as blocks. Within a scalar of several lines a single
line break is a space, and of several breaks the first goes away; a literal block keeps all of them.
-/

namespace Typings.Yaml.Scalar

/-- A scalar and what comes after it. -/
structure Taken where
  /-- The text of the scalar. -/
  text : List Char
  /-- The place after it. -/
  after : Cursor
  /-- Whether the reading ended at the start of a line. -/
  atLineStart : Bool

/-! ### Quoted scalars -/

/-- What a character after a backslash stands for. -/
def escapes : List (Char × Nat) :=
  [('0', 0x0), ('a', 0x7), ('b', 0x8), ('t', 0x9), ('\t', 0x9), ('n', 0xA), ('v', 0xB), ('f', 0xC), ('r', 0xD),
    ('e', 0x1B), (' ', 0x20), ('"', 0x22), ('\\', 0x5C), ('/', 0x2F), ('N', 0x85), ('_', 0xA0), ('L', 0x2028),
    ('P', 0x2029)]

/-- How many hexadecimal digits come after a letter that announces a code point. -/
def codeWidth? (c : Char) : Option Nat :=
  if c = 'x' then some 2 else if c = 'u' then some 4 else if c = 'U' then some 8 else none

/-- The breaks at the start of lines, without the white space around them. -/
def quotedBreaks : (fuel : Nat) → Cursor → Except Fault (List Char × Cursor)
  | 0, c => .ok ([], c)
  | fuel + 1, c =>
    if c.hasDocumentMark then .error .token
    else
      let c := c.skip fun ch => ch = ' ' || ch = '\t'
      if isBreak c.head then do
        let (first, c) := c.lineBreak
        let (others, c) ← quotedBreaks fuel c
        return (first ++ others, c)
      else .ok ([], c)

/-- The text that the white space at a place within quotes stands for. -/
def quotedSpaces (c : Cursor) : Except Fault (List Char × Cursor) :=
  let spaces := c.run fun ch => ch = ' ' || ch = '\t'
  let c := c.advance spaces.length
  if c.head = theEnd then .error .token
  else if isBreak c.head then do
    let (first, c) := c.lineBreak
    let (breaks, c) ← quotedBreaks c.rest.length c
    if first ≠ ['\n'] then return (first ++ breaks, c)
    else if breaks = [] then return ([' '], c)
    else return (breaks, c)
  else .ok (spaces, c)

/-- Read an escape, after its backslash. -/
def escape (c : Cursor) : Except Fault (List Char × Cursor) :=
  match escapes.lookup c.head with
  | some n => .ok ([Char.ofNat n], c.next)
  | none =>
    match codeWidth? c.head with
    | some width =>
      let digits := c.next.rest.take width
      if digits.length = width && digits.all fun d => (Text.hexDigit? d).isSome then
        .ok ([Char.ofNat (Text.ofHex digits)], c.next.advance width)
      else .error .token
    | none =>
      if isBreak c.head then quotedBreaks c.rest.length c.lineBreak.2 else .error .token

/-- Characters that stand for themselves within quotes. -/
def isQuotedText (c : Char) : Bool := !isBlank c && c ≠ '\'' && c ≠ '"' && c ≠ '\\'

/-- Read up to the closing quote. -/
def quotedText (quote : Char) : (fuel : Nat) → Cursor → Except Fault (List Char × Cursor)
  | 0, _ => .error .token
  | fuel + 1, c => do
    let (piece, c) ←
      if isQuotedText c.head then pure (c.run isQuotedText, c.skip isQuotedText)
      else if c.head = quote then
        if quote = '\'' && c.peek 1 = quote then pure ([quote], c.advance 2) else return ([], c.next)
      else if c.head = '\\' && quote = '"' then escape c.next
      else if isBlank c.head then quotedSpaces c
      else pure ([c.head], c.next)
    let (others, c) ← quotedText quote fuel c
    return (piece ++ others, c)

/-- Read a scalar in quotes. -/
def quoted (c : Cursor) : Except Fault Taken := do
  let (text, after) ← quotedText c.head (c.rest.length + 1) c.next
  return ⟨text, after, false⟩

/-! ### Plain scalars -/

/-- The length of the plain text at a place: it ends at white space, at a colon before white space, and within flow
collections at their marks. -/
def plainLength (flow : Bool) : List Char → Nat
  | [] => 0
  | c :: rest =>
    let next := rest.head?.getD theEnd
    let ends := isBlank c || (c = ':' && (isBlank next || (flow && isFlowMark next))) ||
      (flow && (isFlowMark c || c = '?'))
    if ends then 0 else plainLength flow rest + 1

/-- The breaks at the start of lines, without the spaces around them; nothing if a document mark comes up. -/
def plainBreaks : (fuel : Nat) → Cursor → Option (List Char) × Cursor
  | 0, c => (some [], c)
  | fuel + 1, c =>
    let c := c.skip (· = ' ')
    if isBreak c.head then
      let (first, c) := c.lineBreak
      if c.hasDocumentMark then (none, c)
      else
        let (others, c) := plainBreaks fuel c
        (others.map (first ++ ·), c)
    else (some [], c)

/-- The text that the white space after a plain piece stands for, the place after it, and whether a line was left. -/
def plainSpaces (c : Cursor) : List Char × Cursor × Bool :=
  let spaces := c.run (· = ' ')
  let c := c.advance spaces.length
  if isBreak c.head then
    let (first, c) := c.lineBreak
    if c.hasDocumentMark then ([], c, true)
    else match plainBreaks c.rest.length c with
      | (none, c) => ([], c, true)
      | (some breaks, c) =>
        if first ≠ ['\n'] then (first ++ breaks, c, true)
        else if breaks = [] then ([' '], c, true)
        else (breaks, c, true)
  else (spaces, c, false)

/-- Read pieces of a plain scalar that belongs to a block of the given indentation; `spaces` is what stands between
them. -/
def plainText (flow : Bool) (indent : Int) : (fuel : Nat) → (spaces : List Char) → Cursor → Bool → Taken
  | 0, _, c, left => ⟨[], c, left⟩
  | fuel + 1, spaces, c, left =>
    let length := plainLength flow c.rest
    if c.head = '#' || length = 0 then ⟨[], c, left⟩
    else
      let piece := c.rest.take length
      let (more, after, left) := plainSpaces (c.advance length)
      if more = [] || after.head = '#' || (!flow && after.column < indent) then ⟨spaces ++ piece, after, left⟩
      else
        let others := plainText flow indent fuel more after left
        { others with text := spaces ++ piece ++ others.text }

/-- Read a plain scalar inside a block that is indented by `indent`. -/
def plain (flow : Bool) (indent : Int) (c : Cursor) : Taken :=
  plainText flow (indent + 1) (c.rest.length + 1) [] c false

/-! ### Block scalars -/

/-- What becomes of the line breaks at the end of a block. -/
inductive Chomping where
  /-- The first stays. -/
  | clip
  /-- All go away. -/
  | strip
  /-- All stay. -/
  | keep
  deriving DecidableEq

/-- The sign of a way of chomping. -/
def chomping? (c : Char) : Option Chomping := if c = '+' then some .keep else if c = '-' then some .strip else none

/-- The digit that gives an indentation. -/
def increment? (c : Char) : Option Nat := if c.isDigit then some (c.toNat - 0x30) else none

/-- Read the signs after the mark of a block: chomping and indentation, in either order. -/
def blockSigns (c : Cursor) : Except Fault (Chomping × Option Nat × Cursor) := do
  let (chomping, increment, c) :=
    match chomping? c.head, increment? c.head with
    | some ch, _ => match increment? (c.peek 1) with
      | some n => (ch, some n, c.advance 2)
      | none => (ch, none, c.next)
    | none, some n => match chomping? (c.peek 1) with
      | some ch => (ch, some n, c.advance 2)
      | none => (.clip, some n, c.next)
    | none, none => (.clip, none, c)
  if increment = some 0 || !isGap c.head then throw .token else return (chomping, increment, c)

/-- The place after spaces, a comment and the end of the line. -/
def blockHead (c : Cursor) : Except Fault Cursor :=
  let c := c.skip (· = ' ')
  let c := if c.head = '#' then c.skip (!isLineEnd ·) else c
  if isLineEnd c.head then .ok c.lineBreak.2 else .error .token

/-- The empty lines at a place, and the widest indentation among them. -/
def blockIndent : (fuel : Nat) → Nat → Cursor → List Char × Nat × Cursor
  | 0, widest, c => ([], widest, c)
  | fuel + 1, widest, c =>
    let c := c.skip (· = ' ')
    let widest := max widest c.column
    if isBreak c.head then
      let (first, c) := c.lineBreak
      let (others, widest, c) := blockIndent fuel widest c
      (first ++ others, widest, c)
    else ([], widest, c)

/-- The place after at most the indentation of a block. -/
def blockMargin (indent : Nat) (c : Cursor) : Cursor :=
  c.advance (min (indent - c.column) (c.run (· = ' ')).length)

/-- The empty lines at a place within a block. -/
def blockBreaks (indent : Nat) : (fuel : Nat) → Cursor → List Char × Cursor
  | 0, c => ([], c)
  | fuel + 1, c =>
    let c := blockMargin indent c
    if isBreak c.head then
      let (first, c) := c.lineBreak
      let (others, c) := blockBreaks indent fuel c
      (first ++ others, c)
    else ([], c)

/-- Whether a character starts a line that is indented further. -/
def isIndented (c : Char) : Bool := c = ' ' || c = '\t'

/-- Read the lines of a block; `breaks` are the empty lines before them. The results are the text without the last break,
that break, the empty lines at the end, and the place after them. -/
def blockLines (folded : Bool) (indent : Nat) :
    (fuel : Nat) → (breaks : List Char) → Cursor → List Char × List Char × List Char × Cursor
  | 0, breaks, c => ([], [], breaks, c)
  | fuel + 1, breaks, c =>
    let first := c.head
    let line := c.run (!isLineEnd ·)
    let (ending, c) := (c.advance line.length).lineBreak
    let (more, c) := blockBreaks indent (c.rest.length + 1) c
    if c.column = indent && c.head ≠ theEnd then
      let joint :=
        if folded && ending = ['\n'] && !isIndented first && !isIndented c.head then
          if more = [] then [' '] else []
        else ending
      let (others, last, tail, c) := blockLines folded indent fuel more c
      (breaks ++ line ++ joint ++ others, last, tail, c)
    else (breaks ++ line, ending, more, c)

/-- Read a block inside one that is indented by `outer`. -/
def block (folded : Bool) (outer : Int) (c : Cursor) : Except Fault Taken := do
  let (chomping, increment, c) ← blockSigns c.next
  let c ← blockHead c
  let least := (max 1 (outer + 1)).toNat
  let fuel := c.rest.length + 1
  let (breaks, indent, c) := match increment with
    | some n =>
      let indent := least + n - 1
      let (breaks, c) := blockBreaks indent fuel c
      (breaks, indent, c)
    | none =>
      let (breaks, widest, c) := blockIndent fuel 0 c
      (breaks, max least widest, c)
  let (text, last, tail, c) :=
    if c.column = indent && c.head ≠ theEnd then blockLines folded indent fuel breaks c else ([], [], breaks, c)
  return ⟨text ++ (if chomping = .strip then [] else last) ++ (if chomping = .keep then tail else []), c, true⟩

end Typings.Yaml.Scalar
