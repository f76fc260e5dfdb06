import Typings.Text.CodePoint

/-!
UTF-8. Octets are numbers below 256. There are two ways of reading. `decode` never fails: each maximal part of the input
that starts a character and cannot be finished counts as one U+FFFD. `read` stops at the first such part.
-/

namespace Typings.Text.Utf8

/-- The octets of a character. -/
def encodeChar (c : Char) : List Nat :=
  let n := c.toNat
  if n < 0x80 then [n]
  else if n < 0x800 then [0xC0 + n / 64, 0x80 + n % 64]
  else if n < 0x10000 then [0xE0 + n / 4096, 0x80 + n / 64 % 64, 0x80 + n % 64]
  else [0xF0 + n / 262144, 0x80 + n / 4096 % 64, 0x80 + n / 64 % 64, 0x80 + n % 64]

/-- The octets of a text. -/
def encode (cs : List Char) : List Nat := cs.flatMap encodeChar

/-- An octet that continues a character. -/
def isTail (b : Nat) : Bool := 0x80 ≤ b && b ≤ 0xBF

/-- Whether `b` may follow the first octet `a` of a character of three or four octets: no longer form than needed, no
surrogates, nothing above U+10FFFF. -/
def mayFollow (a b : Nat) : Bool :=
  if a = 0xE0 then 0xA0 ≤ b && b ≤ 0xBF
  else if a = 0xED then 0x80 ≤ b && b ≤ 0x9F
  else if a = 0xF0 then 0x90 ≤ b && b ≤ 0xBF
  else if a = 0xF4 then 0x80 ≤ b && b ≤ 0x8F
  else isTail b

/-- What stands for octets that are no character. -/
def replacement : Char := Char.ofNat 0xFFFD

/-- The character that starts with the octet `a`, and how many of the following octets belong to it. -/
def next (a : Nat) (rest : List Nat) : Char × Nat :=
  if a < 0x80 then (Char.ofNat a, 0)
  else if 0xC2 ≤ a ∧ a ≤ 0xDF then
    match rest with
    | b :: _ => if isTail b then (Char.ofNat ((a - 0xC0) * 64 + (b - 0x80)), 1) else (replacement, 0)
    | [] => (replacement, 0)
  else if 0xE0 ≤ a ∧ a ≤ 0xEF then
    match rest with
    | b :: c :: _ =>
      if !mayFollow a b then (replacement, 0)
      else if !isTail c then (replacement, 1)
      else (Char.ofNat ((a - 0xE0) * 4096 + (b - 0x80) * 64 + (c - 0x80)), 2)
    | [b] => (replacement, if mayFollow a b then 1 else 0)
    | [] => (replacement, 0)
  else if 0xF0 ≤ a ∧ a ≤ 0xF4 then
    match rest with
    | b :: c :: d :: _ =>
      if !mayFollow a b then (replacement, 0)
      else if !isTail c then (replacement, 1)
      else if !isTail d then (replacement, 2)
      else (Char.ofNat ((a - 0xF0) * 262144 + (b - 0x80) * 4096 + (c - 0x80) * 64 + (d - 0x80)), 3)
    | [b, c] => (replacement, if !mayFollow a b then 0 else if !isTail c then 1 else 2)
    | [b] => (replacement, if mayFollow a b then 1 else 0)
    | [] => (replacement, 0)
  else (replacement, 0)

/-- The characters of a sequence of octets. -/
def decode (octets : List Nat) : List Char :=
  match octets with
  | [] => []
  | a :: rest => (next a rest).1 :: decode (rest.drop (next a rest).2)
termination_by octets.length
decreasing_by
  rw [List.length_drop, List.length_cons]
  omega

/-! ### Strict reading -/

/-- What is wrong with octets that are no character. -/
inductive Flaw where
  /-- No character starts with the first octet. -/
  | badStart
  /-- An octet does not continue the character. -/
  | badTail
  /-- The input ends within the character. -/
  | cut
  deriving DecidableEq

/-- The first octets that are no character. -/
structure Fault where
  /-- How many octets come before them. -/
  position : Nat
  /-- The octets. -/
  octets : List Nat
  /-- What is wrong with them. -/
  flaw : Flaw

/-- What is wrong with a character that starts with the octet `a`, and how many octets it concerns. -/
def flaw? (a : Nat) (rest : List Nat) : Option (Flaw × Nat) :=
  let tails := if a < 0x80 then some 0 else if 0xC2 ≤ a ∧ a ≤ 0xDF then some 1
    else if 0xE0 ≤ a ∧ a ≤ 0xEF then some 2 else if 0xF0 ≤ a ∧ a ≤ 0xF4 then some 3 else none
  match tails with
  | none => some (.badStart, 1)
  | some n =>
    let given := rest.take n
    let good := match given with
      | b :: more => if mayFollow a b then 1 + (more.takeWhile isTail).length else 0
      | [] => 0
    if good < given.length then some (.badTail, good + 1)
    else if given.length < n then some (.cut, good + 1)
    else none

/-- The characters of a sequence of octets, of which `position` were read before. -/
def readFrom (position : Nat) (octets : List Nat) : Except Fault (List Char) :=
  match octets with
  | [] => .ok []
  | a :: rest =>
    match flaw? a rest with
    | some (flaw, width) => .error ⟨position, octets.take width, flaw⟩
    | none =>
      let (c, n) := next a rest
      (readFrom (position + n + 1) (rest.drop n)).map (c :: ·)
termination_by octets.length
decreasing_by
  rw [List.length_drop, List.length_cons]
  omega

/-- The characters of a sequence of octets. -/
def read (octets : List Nat) : Except Fault (List Char) := readFrom 0 octets

/-- The reason in words. -/
def Flaw.reason : Flaw → String
  | badStart => "invalid start byte"
  | badTail => "invalid continuation byte"
  | cut => "unexpected end of data"

/-- The message of a fault. -/
def Fault.message (f : Fault) : String :=
  let digits (n : Nat) := String.ofList (Nat.toDigits 10 n)
  let what := match f.octets with
    | [b] => "byte 0x" ++ String.ofList (hexText 2 b) ++ " in position " ++ digits f.position
    | bs => "bytes in position " ++ digits f.position ++ "-" ++ digits (f.position + bs.length - 1)
  "'utf-8' codec can't decode " ++ what ++ ": " ++ f.flaw.reason

end Typings.Text.Utf8
