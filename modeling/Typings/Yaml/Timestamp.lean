import Typings.Yaml.Fault

/-!
Timestamps in YAML: a day, or a day and a time. Between the two stands a letter `T` or white space; the time may have a
fraction, of which six digits count, and a zone, which is `Z` or an offset in hours and minutes.
-/

namespace Typings.Yaml

/-- The time of a timestamp. -/
structure StampTime where
  /-- The hour. -/
  hour : Nat
  /-- The minute. -/
  minute : Nat
  /-- The second. -/
  second : Nat
  /-- The microsecond. -/
  micro : Nat
  /-- The offset in minutes, if there is a zone. -/
  offset : Option Int

/-- A timestamp as it is written: its numbers need not be those of a day and a time. -/
structure Timestamp where
  /-- The year. -/
  year : Nat
  /-- The month. -/
  month : Nat
  /-- The day of the month. -/
  day : Nat
  /-- Whether month and day have two digits each. -/
  isFull : Bool
  /-- The time, if there is one. -/
  time : Option StampTime

namespace Timestamp

/-- Take digits off a text: as many as there are, at least `least` and at most `most`. -/
def takeDigits (least most : Nat) (cs : List Char) : Option (List Char × List Char) :=
  let ds := (cs.take most).takeWhile (·.isDigit)
  if ds.length < least then none else some (ds, cs.drop ds.length)

/-- Take a character off a text. -/
def takeChar (c : Char) : List Char → Option (List Char)
  | d :: rest => if c = d then some rest else none
  | [] => none

/-- The number that digits stand for. -/
def value (ds : List Char) : Nat := Text.ofDigits (ds.map (·.toNat - 0x30))

/-- Whether a character is a space or a tab. -/
def isGap (c : Char) : Bool := c = ' ' || c = '\t'

/-- The microseconds that the digits of a fraction stand for. -/
def micros (ds : List Char) : Nat := value ((ds ++ List.replicate 6 '0').take 6)

/-- Take what parts day and time off a text. -/
def takeGap : List Char → Option (List Char)
  | c :: rest =>
    if c = 'T' || c = 't' then some rest
    else if isGap c then some (rest.dropWhile isGap)
    else none
  | [] => none

/-- Take the fraction of a second off a text. -/
def takeFraction : List Char → Nat × List Char
  | '.' :: rest => (micros (rest.takeWhile (·.isDigit)), rest.dropWhile (·.isDigit))
  | cs => (0, cs)

/-- Read the zone at the end of a text, if there is one. -/
def zone? (cs : List Char) : Option (Option Int) :=
  match cs, cs.dropWhile isGap with
  | [], _ => some none
  | _, ['Z'] => some (some 0)
  | _, sign :: rest => do
    if sign ≠ '+' && sign ≠ '-' then none
    let (hours, rest) ← takeDigits 1 2 rest
    let minutes ← match rest with
      | [] => some []
      | ':' :: rest => do
        let (ds, rest) ← takeDigits 2 2 rest
        if rest = [] then some ds else none
      | _ => none
    let size : Int := (value hours * 60 + value minutes : Nat)
    return some (if sign = '-' then -size else size)
  | _, [] => none

/-- Read the time at the end of a text. -/
def time? (cs : List Char) : Option StampTime := do
  let (hour, rest) ← takeDigits 1 2 cs
  let (minute, rest) ← takeDigits 2 2 (← takeChar ':' rest)
  let (second, rest) ← takeDigits 2 2 (← takeChar ':' rest)
  let (micro, rest) := takeFraction rest
  let offset ← zone? rest
  return { hour := value hour, minute := value minute, second := value second, micro, offset }

/-- Read a timestamp. -/
def ofChars? (cs : List Char) : Option Timestamp := do
  let (year, rest) ← takeDigits 4 4 cs
  let (month, rest) ← takeDigits 1 2 (← takeChar '-' rest)
  let (day, rest) ← takeDigits 1 2 (← takeChar '-' rest)
  let time ← if rest = [] then some none else ((takeGap rest).bind time?).map some
  return { year := value year, month := value month, day := value day,
           isFull := month.length = 2 && day.length = 2, time }

/-- Whether a plain scalar of this form is a timestamp: without a time, month and day have to have two digits. -/
def isPlain (t : Timestamp) : Bool := t.isFull || t.time.isSome

/-- The moment of a timestamp. -/
def toMoment (t : Timestamp) : Except MomentFault Moment :=
  match t.time with
  | none => (Day.make t.year t.month t.day).map .day
  | some time => do
    let offset ← time.offset.mapM Offset.make
    let day ← Day.make t.year t.month t.day
    let clock ← Clock.make time.hour time.minute time.second time.micro
    return .instant day clock offset

end Timestamp

end Typings.Yaml
