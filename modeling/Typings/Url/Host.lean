import Typings.Text.CodePoint
import Typings.Text.Decomposition

/-!
Which hosts a URL may name. Square brackets come in pairs and hold an IP address of version six or of a future
version; no other character may turn into a delimiter of the URL when its compatibility form is taken.
-/

namespace Typings.Url

/-- Whether a text is a number of an IPv4 address: one to three digits, no leading zero, at most 255. -/
def isByte (cs : List Char) : Bool :=
  cs ≠ [] && cs.all (·.isDigit) && cs.length ≤ 3 && (cs = ['0'] || cs.head? ≠ some '0') &&
    cs.foldl (fun n c => 10 * n + (c.toNat - 0x30)) 0 ≤ 255

/-- Whether a text is an IPv4 address. -/
def isIPv4 (cs : List Char) : Bool :=
  let parts := cs.splitOn '.'
  parts.length = 4 && parts.all isByte

/-- Whether a text is one of the groups of an IPv6 address. -/
def isGroup (cs : List Char) : Bool := cs ≠ [] && cs.length ≤ 4 && cs.all fun c => (Text.hexDigit? c).isSome

/-- Whether groups, split at their colons, make an IPv6 address. An empty group inside is the place of left-out
zeros: there is at most one, and it may take in an empty group at either end. -/
def areGroups (parts : List (List Char)) : Bool :=
  let inner := (parts.drop 1).dropLast
  if inner.all (· ≠ []) then parts.length = 8 && parts.all isGroup
  else
    let high := parts.takeWhile (· ≠ [])
    let front := if parts.head? = some [] then parts.take 1 else high
    let back := parts.drop (front.length + 1)
    let backOk := back = [[]] || back.all isGroup
    let frontOk := front = [[]] || front.all isGroup
    let count (side : List (List Char)) := if side = [[]] then 0 else side.length
    parts.length ≤ 9 && frontOk && backOk && count front + count back ≤ 7

/-- Whether a text is an IPv6 address; its last group may be an IPv4 address, and a zone may follow. -/
def isIPv6 (cs : List Char) : Bool :=
  let (address, zone) := cs.span (· ≠ '%')
  let zoneOk := zone = [] || (zone.length ≠ 1 && !(zone.drop 1).contains '%')
  let parts := address.splitOn ':'
  let last := parts.getLastD []
  let parts' := if last.contains '.' then parts.dropLast ++ [['0'], ['0']] else parts
  zoneOk && 3 ≤ parts.length && (!last.contains '.' || isIPv4 last) && areGroups parts'

/-- Whether a text is an address of a future version: `v`, hexadecimal digits, a full stop and more. -/
def isFutureAddress (cs : List Char) : Bool :=
  match cs with
  | 'v' :: rest =>
    let (version, tail) := rest.span fun c => (Text.hexDigit? c).isSome
    version ≠ [] && tail.head? = some '.' && 1 < tail.length
  | _ => false

/-- What may stand between brackets. -/
def isBracketHost (cs : List Char) : Bool := if cs.head? = some 'v' then isFutureAddress cs else isIPv6 cs

/-- What follows the last `@`: the host proper and what a colon adds to it, without a user. -/
def server (cs : List Char) : List Char := (cs.reverse.takeWhile (· ≠ '@')).reverse

/-- The address that a host proper names. Brackets stand around the whole of it, and only a colon may
follow them. -/
def address? (cs : List Char) : Option (List Char) :=
  match cs with
  | '[' :: rest =>
    let (address, tail) := rest.span (· ≠ ']')
    let after := tail.drop 1
    if after = [] || after.head? = some ':' then some address else none
  | _ => if cs.contains '[' then none else some (cs.takeWhile (· ≠ ':'))

/-- Whether the compatibility form of a host holds a delimiter that the host itself does not. -/
def hidesDelimiter (cs : List Char) : Bool :=
  (cs.filter fun c => !(['@', ':', '#', '?'].contains c)).any fun c =>
    0x80 ≤ c.toNat && (Text.starters c).any fun d => ['/', '?', '#', '@', ':'].contains d

/-- Whether a URL may name this host. Where there are brackets, be it in the user's part, the host proper has to be an
address that may stand between brackets. -/
def isHost (cs : List Char) : Bool :=
  (cs.contains '[' == cs.contains ']') && (!cs.contains '[' || (address? (server cs)).any isBracketHost) &&
    !hidesDelimiter cs

end Typings.Url
