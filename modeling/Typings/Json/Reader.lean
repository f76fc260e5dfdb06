import Typings.Json.Literal
import Typings.Json.Value
import Typings.Text.Digit

/-!
Reading JSON texts. What is wrong with a text is told by its cause and its place. A name that comes twice keeps its
first place and its last value.
-/

namespace Typings.Json

/-- Why a text is not JSON. -/
inductive ReadCause where
  /-- It starts with a byte order mark. -/
  | byteOrderMark
  /-- Something follows the value. -/
  | extraData
  /-- No value where one has to be. -/
  | noValue
  /-- No member name where one has to be. -/
  | noName
  /-- No colon after a member name. -/
  | noColon
  /-- No comma between two items. -/
  | noComma
  /-- A control character in a string. -/
  | controlCharacter
  /-- A string without an end. -/
  | unterminated
  /-- An unknown escape. -/
  | badEscape
  /-- An escape without four hexadecimal digits. -/
  | badUnit
  /-- A whole number with too many digits. -/
  | tooLong (digits : Nat)

/-- A cause and the number of characters that stand from its place to the end of the text. -/
structure ReadError where
  /-- What is wrong. -/
  cause : ReadCause
  /-- How much of the text is left there. -/
  left : Nat

/-- The words for a cause. -/
def ReadCause.message : ReadCause → String
  | byteOrderMark => "Unexpected UTF-8 BOM (decode using utf-8-sig)"
  | extraData => "Extra data"
  | noValue => "Expecting value"
  | noName => "Expecting property name enclosed in double quotes"
  | noColon => "Expecting ':' delimiter"
  | noComma => "Expecting ',' delimiter"
  | controlCharacter => "Invalid control character at"
  | unterminated => "Unterminated string starting at"
  | badEscape => "Invalid \\escape"
  | badUnit => "Invalid \\uXXXX escape"
  | tooLong digits => Number.tooLong digits

/-- The words for an error, with line and column counted from one and the offset from zero. -/
def ReadError.message (e : ReadError) (text : List Char) : String :=
  match e.cause with
  | .tooLong _ => e.cause.message
  | cause =>
    let offset := text.length - e.left
    let before := text.take offset
    let line := before.count '\n' + 1
    let column := (before.reverse.takeWhile (· ≠ '\n')).length + 1
    cause.message ++ ": line " ++ Number.intText line ++ " column " ++ Number.intText column ++
      " (char " ++ Number.intText offset ++ ")"

/-- Blank, tab, line feed and carriage return. -/
def isSpace (c : Char) : Bool := c = ' ' || c = '\t' || c = '\n' || c = '\r'

/-- Skip white space. -/
def skip (cs : List Char) : List Char := cs.dropWhile isSpace

/-- The error `cause` where `cs` is left. -/
def failAt {α : Type} (cause : ReadCause) (cs : List Char) : Except ReadError α := .error ⟨cause, cs.length⟩

/-- Read a string after its opening quotation mark; `start` is what is left at that mark, `acc` the characters so far,
backwards. -/
def readString (start : Nat) (acc : List Char) (cs : List Char) : Except ReadError (String × List Char) :=
  match cs with
  | [] => .error ⟨.unterminated, start⟩
  | '"' :: rest => .ok (String.ofList acc.reverse, rest)
  | ['\\'] => .error ⟨.unterminated, start⟩
  | '\\' :: 'u' :: rest =>
    match Literal.unit? rest with
    | none => failAt .badUnit ('u' :: rest)
    | some n =>
      let after := rest.drop 4
      if after = [] then failAt .badUnit ('u' :: rest)
      else if Literal.isHigh n && 6 < after.length && after.take 2 = ['\\', 'u'] then
        match Literal.unit? (after.drop 2) with
        | none => failAt .badUnit (after.drop 1)
        | some m =>
          if Literal.isLow m then readString start (Literal.pair n m :: acc) (after.drop 6)
          else readString start (Literal.unitChar n :: acc) after
      else readString start (Literal.unitChar n :: acc) after
  | '\\' :: c :: rest =>
    match Literal.simpleEscape? c with
    | some d => readString start (d :: acc) rest
    | none => failAt .badEscape cs
  | c :: rest => if c.toNat < 0x20 then failAt .controlCharacter cs else readString start (c :: acc) rest
termination_by cs.length
decreasing_by all_goals simp_all; try omega

/-- Split off the ASCII digits at the start. -/
def spanDigits (cs : List Char) : List Char × List Char := cs.span fun c => c.isDigit

/-- Read an exponent: its value and what follows. -/
def readExponent (cs : List Char) : Option (Int × List Char) :=
  match cs with
  | c :: rest =>
    if c = 'e' ∨ c = 'E' then
      let (negative, body) := match rest with
        | '-' :: r => (true, r)
        | '+' :: r => (false, r)
        | r => (false, r)
      let (ds, after) := spanDigits body
      if ds = [] then none
      else
        let n : Int := Text.ofDigits (ds.map (·.toNat - 0x30))
        some (if negative then -n else n, after)
    else none
  | [] => none

/-- Read a number: no leading zeros, digits on both sides of a point. -/
def readNumber (cs : List Char) : Except ReadError (Number × List Char) :=
  let (negative, body) := match cs with
    | '-' :: rest => (true, rest)
    | _ => (false, cs)
  let (whole, rest) := match body with
    | '0' :: r => (['0'], r)
    | _ => spanDigits body
  if whole = [] then failAt .noValue cs
  else
    let (part, rest₁) := match rest with
      | '.' :: r => let (ds, after) := spanDigits r; if ds = [] then ([], rest) else (ds, after)
      | _ => ([], rest)
    let digits := Text.ofDigits ((whole ++ part).map (·.toNat - 0x30))
    match readExponent rest₁ with
    | some (e, after) => .ok (.double (.ofDecimal negative digits (e - part.length)), after)
    | none =>
      if part ≠ [] then .ok (.double (.ofDecimal negative digits (-(part.length : Int))), rest₁)
      else if whole.length > Text.maxDigits then failAt (.tooLong whole.length) cs
      else .ok (.int (if negative then -(digits : Int) else digits), rest₁)

/-- Read one of the constants, or a number. -/
def readAtom (cs : List Char) : Except ReadError (Json × List Char) :=
  if "null".toList.isPrefixOf cs then .ok (null, cs.drop 4)
  else if "true".toList.isPrefixOf cs then .ok (bool true, cs.drop 4)
  else if "false".toList.isPrefixOf cs then .ok (bool false, cs.drop 5)
  else match readNumber cs with
    | .ok (n, rest) => .ok (num n, rest)
    | .error e => .error e

mutual

/-- Read a value. -/
def readValue : (fuel : Nat) → List Char → Except ReadError (Json × List Char)
  | 0, cs => failAt .noValue cs
  | fuel + 1, cs =>
    match cs with
    | '"' :: rest =>
      match readString cs.length [] rest with
      | .ok (s, after) => .ok (str s, after)
      | .error e => .error e
    | '[' :: rest =>
      let body := skip rest
      match body with
      | ']' :: after => .ok (arr [], after)
      | _ => readItems fuel [] body
    | c :: rest =>
      if c.toNat = 0x7B then
        let body := skip rest
        if body.head? = some (Char.ofNat 0x7D) then .ok (obj [], body.drop 1) else readFields fuel [] body
      else readAtom cs
    | [] => failAt .noValue cs

/-- Read the items of an array that has at least one more; `acc` holds those so far, backwards. -/
def readItems : (fuel : Nat) → (acc : List Json) → List Char → Except ReadError (Json × List Char)
  | 0, _, cs => failAt .noValue cs
  | fuel + 1, acc, cs =>
    match readValue fuel cs with
    | .error e => .error e
    | .ok (v, rest) =>
      let after := skip rest
      match after with
      | ']' :: r => .ok (arr (v :: acc).reverse, r)
      | ',' :: r => readItems fuel (v :: acc) (skip r)
      | _ => failAt .noComma after

/-- Read the members of an object that has at least one more; `acc` holds those so far, backwards. -/
def readFields : (fuel : Nat) → (acc : List (String × Json)) → List Char → Except ReadError (Json × List Char)
  | 0, _, cs => failAt .noName cs
  | fuel + 1, acc, cs =>
    match cs with
    | '"' :: rest =>
      match readString cs.length [] rest with
      | .error e => .error e
      | .ok (key, rest₁) =>
        match skip rest₁ with
        | ':' :: rest₂ =>
          match readValue fuel (skip rest₂) with
          | .error e => .error e
          | .ok (v, rest₃) =>
            let after := skip rest₃
            if after.head? = some (Char.ofNat 0x7D) then
              .ok (obj (Table.ofEntries ((key, v) :: acc).reverse), after.drop 1)
            else match after with
              | ',' :: r => readFields fuel ((key, v) :: acc) (skip r)
              | _ => failAt .noComma after
        | other => failAt .noColon other
    | _ => failAt .noName cs

end

/-- Read a whole text. -/
def readChars (cs : List Char) : Except ReadError Json :=
  if cs.head? = some (Char.ofNat 0xFEFF) then failAt .byteOrderMark cs
  else match readValue (2 * cs.length + 2) (skip cs) with
    | .error e => .error e
    | .ok (v, rest) =>
      let after := skip rest
      if after = [] then .ok v else failAt .extraData after

/-- Read a text; on failure the message. -/
def read (text : String) : Except String Json :=
  (readChars text.toList).mapError (·.message text.toList)

end Typings.Json
