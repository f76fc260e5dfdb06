import Typings.Failure
import Typings.Json.Value
import Typings.Text.Digit
import Typings.Text.Percent

/-!
JSON pointers. A pointer is a slash before each of its tokens; inside a token `~` is written `~0` and a slash `~1`. In
the fragment of a URL the pointer is percent-encoded on top of that.
-/

namespace Typings.Pointer

/-- One character of a token. -/
def escapeChar (c : Char) : List Char :=
  if c = '~' then ['~', '0'] else if c = '/' then ['~', '1'] else [c]

/-- Write the characters of a token. -/
def escapeChars (cs : List Char) : List Char := cs.flatMap escapeChar

/-- Read the characters of a token. -/
def unescapeChars : List Char → List Char
  | [] => []
  | '~' :: '1' :: rest => '/' :: unescapeChars rest
  | '~' :: '0' :: rest => '~' :: unescapeChars rest
  | c :: rest => c :: unescapeChars rest

/-- Write a token. -/
def escape (token : String) : String := String.ofList (escapeChars token.toList)

/-- Read a token. -/
def unescape (token : String) : String := String.ofList (unescapeChars token.toList)

/-- Characters that a fragment may hold without an escape, besides the unreserved ones. -/
def fragmentSafe : List Char := ":@!$&'()*+,;=?".toList

/-- Write a token for a fragment. -/
def encodeToken (token : String) : String :=
  String.ofList (Text.Percent.encode fragmentSafe (escapeChars token.toList))

/-- The one spelling of a fragment: escapes are read and then written where they are needed. -/
def canonicalFragment (cs : List Char) : List Char :=
  Text.Percent.encode ('/' :: fragmentSafe) (Text.Percent.decode cs)

/-- The tokens of a pointer. A number sign in front marks the form for fragments. -/
def parse (pointer : String) : Except Failure (List String) :=
  let cs := match pointer.toList with
    | '#' :: rest => Text.Percent.decode rest
    | cs => cs
  match cs with
  | [] => .ok []
  | '/' :: rest => .ok ((rest.splitOn '/').map fun t => String.ofList (unescapeChars t))
  | _ => .error (.pointer (String.ofList cs) .noSlash)

/-- The pointer of tokens. -/
def ofTokens (tokens : List String) : String :=
  String.join (tokens.map fun t => "/" ++ escape t)

/-- The pointer of tokens, for a fragment. -/
def fragment (tokens : List String) : String :=
  String.join (tokens.map fun t => "/" ++ encodeToken t)

/-- The place of an item: negative numbers count from the end. -/
def place? (token : String) (size : Nat) : Option Nat :=
  match Text.int? token with
  | some n =>
    let i := if n < 0 then n + size else n
    if 0 ≤ i ∧ i < size then some i.toNat else none
  | none => none

/-- One step into a value. -/
def step (token : String) : Json → Except PointerFault Json
  | .obj fields => match Table.get? fields token with
    | some v => .ok v
    | none => .error (.noMember token)
  | .arr items => match (place? token items.length).bind (items[·]?) with
    | some v => .ok v
    | none => .error (.noItem token)
  | _ => .error (.noParts token)

/-- Follow tokens into a value. -/
def follow : List String → Json → Except PointerFault Json
  | [], v => .ok v
  | token :: rest, v => (step token v).bind (follow rest)

/-- Follow tokens into a value; failures name the pointer `shown`. -/
def get (v : Json) (tokens : List String) (shown : String) : Except Failure Json :=
  (follow tokens v).mapError (.pointer shown)

end Typings.Pointer
