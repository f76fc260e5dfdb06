import Typings.Text.CodePoint
import Typings.Text.Digit
import Typings.Toml.Table

/-!
Reading of TOML. The result is a JSON object, in which there may also be days and times. Each part of the grammar has a
function that gives what it read and what comes after it, or nothing if the text is not TOML.
-/

namespace Typings.Toml

/-! ### White space and comments -/

/-- Drop spaces and tabs. -/
def skipSpaces (cs : List Char) : List Char := cs.dropWhile fun c => c = ' ' || c = '\t'

/-- Whether a character may not stand in comments and strings of one line. -/
def isForbidden (c : Char) : Bool := (c.toNat < 0x20 && c ≠ '\t') || c.toNat = 0x7F

/-- Drop a comment. -/
def skipComment (cs : List Char) : Option (List Char) :=
  match cs with
  | '#' :: rest =>
    let (text, after) := rest.span (· ≠ '\n')
    if text.any isForbidden then none else some after
  | _ => some cs

/-- Drop spaces, tabs, line feeds and comments. -/
def skipAll : (fuel : Nat) → List Char → Option (List Char)
  | 0, cs => some cs
  | fuel + 1, cs =>
    match cs.dropWhile fun c => c = ' ' || c = '\t' || c = '\n' with
    | '#' :: rest => (skipComment ('#' :: rest)).bind (skipAll fuel)
    | rest => some rest

/-! ### Strings -/

/-- What a character after a backslash stands for. -/
def escapes : List (Char × Nat) :=
  [('b', 0x8), ('t', 0x9), ('n', 0xA), ('f', 0xC), ('r', 0xD), ('"', 0x22), ('\\', 0x5C)]

/-- Read a code point of so many hexadecimal digits. -/
def codePoint (width : Nat) (cs : List Char) : Option (Char × List Char) :=
  let digits := cs.take width
  let n := Text.ofHex digits
  if digits.length = width && digits.all (fun d => (Text.hexDigit? d).isSome) && n.isValidChar
  then some (Char.ofNat n, cs.drop width)
  else none

/-- Read an escape, after its backslash. -/
def escape : List Char → Option (Char × List Char)
  | 'u' :: rest => codePoint 4 rest
  | 'U' :: rest => codePoint 8 rest
  | c :: rest => (escapes.lookup c).map fun n => (Char.ofNat n, rest)
  | [] => none

/-- Read a string of one line up to its closing quote; `acc` holds it backwards. -/
def lineString (quote : Char) : (fuel : Nat) → (acc : List Char) → List Char → Option (String × List Char)
  | 0, _, _ => none
  | _ + 1, _, [] => none
  | fuel + 1, acc, c :: rest =>
    if c = quote then some (String.ofList acc.reverse, rest)
    else if c = '\\' && quote = '"' then (escape rest).bind fun (d, after) => lineString quote fuel (d :: acc) after
    else if isForbidden c then none
    else lineString quote fuel (c :: acc) rest

/-- What comes after a backslash at the end of a line: spaces and line feeds are dropped. -/
def joined? (cs : List Char) : Option (List Char) :=
  match skipSpaces cs with
  | '\n' :: rest => some (rest.dropWhile fun c => c = ' ' || c = '\t' || c = '\n')
  | _ => none

/-- Read a string of several lines up to its three closing quotes, before which one or two more may stand. -/
def blockString (quote : Char) : (fuel : Nat) → (acc : List Char) → List Char → Option (String × List Char)
  | 0, _, _ => none
  | _ + 1, _, [] => none
  | fuel + 1, acc, c :: rest =>
    let quotes := (c :: rest).takeWhile (· = quote)
    if 3 ≤ quotes.length then
      let extra := min (quotes.length - 3) 2
      some (String.ofList (List.replicate extra quote ++ acc).reverse, (c :: rest).drop (extra + 3))
    else if c = '\\' && quote = '"' then
      match joined? rest with
      | some after => blockString quote fuel acc after
      | none => (escape rest).bind fun (d, after) => blockString quote fuel (d :: acc) after
    else if isForbidden c && c ≠ '\n' then none
    else blockString quote fuel (c :: acc) rest

/-- Read a string, from its opening quote on. -/
def string (quote : Char) (cs : List Char) : Option (String × List Char) :=
  if cs.take 3 = [quote, quote, quote] then
    let body := cs.drop 3
    blockString quote cs.length [] (if body.head? = some '\n' then body.drop 1 else body)
  else lineString quote cs.length [] (cs.drop 1)

/-! ### Keys -/

/-- Characters of a key without quotes. -/
def isKeyChar (c : Char) : Bool := c.isAlphanum || c = '-' || c = '_'

/-- Read one part of a key. -/
def keyPart (cs : List Char) : Option (String × List Char) :=
  match cs with
  | '"' :: rest => lineString '"' cs.length [] rest
  | '\'' :: rest => lineString '\'' cs.length [] rest
  | _ =>
    let name := cs.takeWhile isKeyChar
    if name = [] then none else some (String.ofList name, cs.drop name.length)

/-- Read a key: parts with full stops between them. -/
def key : (fuel : Nat) → List Char → Option (List String × List Char)
  | 0, _ => none
  | fuel + 1, cs => do
    let (first, rest) ← keyPart cs
    match skipSpaces rest with
    | '.' :: more =>
      let (others, after) ← key fuel (skipSpaces more)
      return (first :: others, after)
    | after => return ([first], after)

/-! ### Numbers, dates and times -/

/-- Read digits of a class, between which single low lines may stand. -/
def digitRun (p : Char → Bool) : List Char → List Char × List Char
  | [] => ([], [])
  | '_' :: c :: rest => if p c then let (ds, after) := digitRun p rest; (c :: ds, after) else ([], '_' :: c :: rest)
  | c :: rest => if p c then let (ds, after) := digitRun p rest; (c :: ds, after) else ([], c :: rest)

/-- Read at least one digit of a class. -/
def digits (p : Char → Bool) (cs : List Char) : Option (List Char × List Char) :=
  match cs with
  | c :: _ => if p c then some (digitRun p cs) else none
  | [] => none

/-- The number that digits stand for in a base. -/
def inBase (base : Nat) (ds : List Char) : Nat := ds.foldl (fun n c => base * n + (Text.hexDigit? c).getD 0) 0

/-- Read a number in base two, eight or sixteen, from its zero on. -/
def basedNumber (cs : List Char) : Option (Json × List Char) :=
  let take (base : Nat) (rest : List Char) : Option (Json × List Char) :=
    (digits (fun c => (Text.hexDigit? c).any (· < base)) rest).map fun (ds, after) =>
      (.int (inBase base ds), after)
  match cs with
  | '0' :: 'x' :: rest => take 16 rest
  | '0' :: 'o' :: rest => take 8 rest
  | '0' :: 'b' :: rest => take 2 rest
  | _ => none

/-- Read the part of a number after its point, if there is one. -/
def fractionPart (cs : List Char) : List Char × List Char :=
  match cs with
  | '.' :: rest => (digits (·.isDigit) rest).getD ([], cs)
  | _ => ([], cs)

/-- Read the exponent of a number, if there is one. -/
def exponentPart (cs : List Char) : Option Int × List Char :=
  match cs with
  | c :: rest =>
    if c = 'e' || c = 'E' then
      let (negative, body) := match rest with
        | '-' :: r => (true, r)
        | '+' :: r => (false, r)
        | r => (false, r)
      match digits (·.isDigit) body with
      | some (ds, after) => (some (if negative then -(inBase 10 ds : Int) else inBase 10 ds), after)
      | none => (none, cs)
    else (none, cs)
  | [] => (none, [])

/-- Read a number in base ten. -/
def decimalNumber (cs : List Char) : Option (Json × List Char) := do
  let (negative, body) := match cs with
    | '-' :: rest => (true, rest)
    | '+' :: rest => (false, rest)
    | rest => (false, rest)
  let (whole, rest) ← match body with
    | '0' :: r => some (['0'], r)
    | r => digits (·.isDigit) r
  let (part, rest) := fractionPart rest
  let (exponent, rest) := exponentPart rest
  let size := inBase 10 (whole ++ part)
  if part = [] && exponent.isNone then
    if whole.length > Text.maxDigits then none
    else return (.int (if negative then -(size : Int) else size), rest)
  else return (.num (.double (.ofDecimal negative size (exponent.getD 0 - part.length))), rest)

/-- Read a number of two digits, `most` at most. -/
def pair (most : Nat) : List Char → Option (Nat × List Char)
  | a :: b :: rest =>
    if a.isDigit && b.isDigit && inBase 10 [a, b] ≤ most then some (inBase 10 [a, b], rest) else none
  | _ => none

/-- Read a character. -/
def char (c : Char) : List Char → Option (List Char)
  | d :: rest => if c = d then some rest else none
  | [] => none

/-- Read a day. -/
def day (cs : List Char) : Option (Day × List Char) := do
  let (century, rest) ← pair 99 cs
  let (year, rest) ← pair 99 rest
  let (month, rest) ← pair 12 (← char '-' rest)
  let (day, rest) ← pair 31 (← char '-' rest)
  let d ← (Day.make (100 * century + year) month day).toOption
  return (d, rest)

/-- Read the fraction of a second, if there is one, in microseconds. -/
def fraction (cs : List Char) : Nat × List Char :=
  match cs with
  | '.' :: rest =>
    let ds := rest.takeWhile (·.isDigit)
    if ds = [] then (0, cs) else (inBase 10 ((ds ++ List.replicate 6 '0').take 6), rest.drop ds.length)
  | _ => (0, cs)

/-- Read a time of day. -/
def clock (cs : List Char) : Option (Clock × List Char) := do
  let (hour, rest) ← pair 23 cs
  let (minute, rest) ← pair 59 (← char ':' rest)
  let (second, rest) ← pair 59 (← char ':' rest)
  let (micro, rest) := fraction rest
  return (⟨hour, minute, second, micro⟩, rest)

/-- Read the offset of a time, if there is one, in minutes. -/
def offset (cs : List Char) : Option Int × List Char :=
  let size (rest : List Char) : Option (Nat × List Char) := do
    let (hours, rest) ← pair 23 rest
    let (minutes, rest) ← pair 59 (← char ':' rest)
    return (60 * hours + minutes, rest)
  match cs with
  | 'Z' :: rest | 'z' :: rest => (some 0, rest)
  | '+' :: rest => ((size rest).map fun (n, after) => (some (n : Int), after)).getD (none, cs)
  | '-' :: rest => ((size rest).map fun (n, after) => (some (-(n : Int)), after)).getD (none, cs)
  | _ => (none, cs)

/-- Read a day, a time, or both. -/
def moment (cs : List Char) : Option (Moment × List Char) :=
  match day cs with
  | none => (clock cs).map fun (c, rest) => (.clock c, rest)
  | some (d, rest) =>
    let time := match rest with
      | c :: more => if c = 'T' || c = 't' || c = ' ' then clock more else none
      | [] => none
    match time with
    | none => some (.day d, rest)
    | some (c, rest) => let (o, rest) := offset rest; some (.instant d c o, rest)

/-! ### Values -/

/-- Read a value without parts. -/
def atom (cs : List Char) : Option (Json × List Char) :=
  if "true".toList.isPrefixOf cs then some (.bool true, cs.drop 4)
  else if "false".toList.isPrefixOf cs then some (.bool false, cs.drop 5)
  else ((moment cs).map fun (m, rest) => (.extra (.moment m), rest)).or ((basedNumber cs).or (decimalNumber cs))

mutual

/-- Read a value. -/
def value : (fuel : Nat) → List Char → Option (Json × List Char)
  | 0, _ => none
  | fuel + 1, cs =>
    match cs with
    | [] => none
    | c :: rest =>
      if c = '"' || c = '\'' then (string c cs).map fun (s, after) => (.str s, after)
      else if c = '[' then (skipAll rest.length rest).bind (items fuel [])
      else if c.toNat = 0x7B then
        match skipSpaces rest with
        | d :: after => if d.toNat = 0x7D then some (.obj [], after) else members fuel [] (d :: after)
        | [] => none
      else atom cs

/-- Read the items of an array; `acc` holds those so far, backwards. -/
def items : (fuel : Nat) → (acc : List Json) → List Char → Option (Json × List Char)
  | 0, _, _ => none
  | fuel + 1, acc, cs =>
    match cs with
    | ']' :: after => some (.arr acc.reverse, after)
    | _ => do
      let (v, rest) ← value fuel cs
      match ← skipAll rest.length rest with
      | ',' :: more => items fuel (v :: acc) (← skipAll more.length more)
      | ']' :: after => return (.arr (v :: acc).reverse, after)
      | _ => none

/-- Read the members of a table in braces that has at least one more. -/
def members : (fuel : Nat) → (acc : Entries) → List Char → Option (Json × List Char)
  | 0, _, _ => none
  | fuel + 1, acc, cs => do
    let (keys, rest) ← key cs.length cs
    match rest with
    | '=' :: more =>
      let (v, rest) ← value fuel (skipSpaces more)
      let acc ← acc.assign keys.dropLast (keys.getLastD "") v
      match skipSpaces rest with
      | c :: after =>
        if c = ',' then members fuel acc (skipSpaces after)
        else if c.toNat = 0x7D then return (.obj (toFields acc), after)
        else none
      | [] => none
    | _ => none

end

/-! ### Statements -/

/-- What was read so far. -/
structure Progress where
  /-- The entries. -/
  entries : Entries
  /-- The keys of the present section. -/
  header : List String

/-- Read the keys of a header up to its closing bracket. -/
def headerKeys (cs : List Char) : Option (List String × List Char) := do
  let (keys, rest) ← key cs.length (skipSpaces cs)
  match rest with
  | ']' :: after => return (keys, after)
  | _ => none

/-- Read one statement. -/
def statement (p : Progress) (cs : List Char) : Option (Progress × List Char) :=
  match cs with
  | '[' :: '[' :: rest => do
    let (keys, after) ← headerKeys rest
    match after with
    | ']' :: after =>
      let entries ← Entries.append (settleAll p.entries) keys.dropLast (keys.getLastD "")
      return (⟨entries, keys⟩, after)
    | _ => none
  | '[' :: rest => do
    let (keys, after) ← headerKeys rest
    let entries ← Entries.declare (settleAll p.entries) keys.dropLast (keys.getLastD "")
    return (⟨entries, keys⟩, after)
  | _ => do
    let (keys, rest) ← key cs.length cs
    match rest with
    | '=' :: more =>
      let (v, after) ← value cs.length (skipSpaces more)
      let entries ← p.entries.inside p.header fun inner => inner.assign keys.dropLast (keys.getLastD "") v
      return ({ p with entries }, after)
    | _ => none

/-- Read statements, one a line. -/
def statements : (fuel : Nat) → Progress → List Char → Option Entries
  | 0, _, _ => none
  | fuel + 1, p, cs => do
    match skipSpaces cs with
    | [] => return p.entries
    | '\n' :: rest => statements fuel p rest
    | '#' :: rest =>
      match ← skipComment ('#' :: rest) with
      | '\n' :: after => statements fuel p after
      | _ => return p.entries
    | start =>
      let (p, rest) ← statement p start
      match ← skipComment (skipSpaces rest) with
      | [] => return p.entries
      | '\n' :: after => statements fuel p after
      | _ => none

/-- Read a text; nothing if it is not TOML. -/
def read (cs : List Char) : Option Json := (statements (cs.length + 2) ⟨[], []⟩ cs).map fun es => .obj (toFields es)

end Typings.Toml
