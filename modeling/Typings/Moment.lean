import Typings.Json.Number

/-!
Days, times of day and points in time, as data formats other than JSON have them. Days are those of the Gregorian
calendar from the year 1 to the year 9999, times go down to microseconds, and a point in time may say how far its clock
is from universal time.
-/

namespace Typings

/-- Why a day or a time does not exist. -/
inductive MomentFault where
  /-- There is no such year. -/
  | year (value : Nat)
  /-- There is no such month. -/
  | month
  /-- The month has no such day. -/
  | day
  /-- There is no such hour. -/
  | hour
  /-- There is no such minute. -/
  | minute
  /-- There is no such second. -/
  | second
  /-- A clock is a day or more, in these minutes, from universal time. -/
  | offset (minutes : Int)

namespace Calendar

/-- Whether a year has a 29th of February. -/
def isLeap (year : Nat) : Bool := year % 4 = 0 && (year % 100 ≠ 0 || year % 400 = 0)

/-- How many days a month has. -/
def length (year month : Nat) : Nat :=
  if month = 2 then if isLeap year then 29 else 28
  else if month = 4 || month = 6 || month = 9 || month = 11 then 30
  else 31

/-- How many days come before a year. -/
def daysBefore (year : Nat) : Nat := let y := year - 1; 365 * y + y / 4 - y / 100 + y / 400

end Calendar

/-- A day. -/
structure Day where
  /-- The year. -/
  year : Nat
  /-- The month, from one on. -/
  month : Nat
  /-- The day of the month, from one on. -/
  day : Nat
  deriving DecidableEq

/-- A time of day. -/
structure Clock where
  /-- The hour. -/
  hour : Nat
  /-- The minute. -/
  minute : Nat
  /-- The second. -/
  second : Nat
  /-- The microsecond. -/
  micro : Nat
  deriving DecidableEq

/-- A day, a time of day, or both. -/
inductive Moment where
  /-- A day. -/
  | day (value : Day)
  /-- A time of day. -/
  | clock (value : Clock)
  /-- A time on a day; `offset` says by how many minutes its clock is ahead of universal time, if that is known. -/
  | instant (day : Day) (clock : Clock) (offset : Option Int)
  deriving DecidableEq

/-- A number in at least so many digits. -/
def padded (width n : Nat) : String :=
  let ds := Nat.toDigits 10 n
  String.ofList (List.replicate (width - ds.length) '0' ++ ds)

namespace Day

/-- The day of these numbers. -/
def make (year month day : Nat) : Except MomentFault Day :=
  if year = 0 || 9999 < year then .error (.year year)
  else if month = 0 || 12 < month then .error .month
  else if day = 0 || Calendar.length year month < day then .error .day
  else .ok ⟨year, month, day⟩

/-- The number of a day, counted from the first day of the year 1. -/
def number (d : Day) : Nat :=
  Calendar.daysBefore d.year + ((List.range' 1 (d.month - 1)).map (Calendar.length d.year)).foldl (· + ·) 0 + (d.day - 1)

/-- The text of a day: year, month and day. -/
def text (d : Day) : String := padded 4 d.year ++ "-" ++ padded 2 d.month ++ "-" ++ padded 2 d.day

/-- The numbers of a day. -/
def numbers (d : Day) : List Nat := [d.year, d.month, d.day]

end Day

namespace Clock

/-- The time of these numbers. -/
def make (hour minute second micro : Nat) : Except MomentFault Clock :=
  if 23 < hour then .error .hour
  else if 59 < minute then .error .minute
  else if 59 < second then .error .second
  else .ok ⟨hour, minute, second, micro⟩

/-- The text of a time, with the microseconds if there are any. -/
def text (c : Clock) : String :=
  padded 2 c.hour ++ ":" ++ padded 2 c.minute ++ ":" ++ padded 2 c.second ++
    (if c.micro = 0 then "" else "." ++ padded 6 c.micro)

/-- The numbers of a time: seconds and microseconds are there only if they or what follows them is not zero. -/
def numbers (c : Clock) : List Nat :=
  [c.hour, c.minute] ++
    (if c.micro ≠ 0 then [c.second, c.micro] else if c.second ≠ 0 then [c.second] else [])

/-- The microseconds since the start of the day. -/
def micros (c : Clock) : Nat := ((c.hour * 60 + c.minute) * 60 + c.second) * 1000000 + c.micro

end Clock

/-! ### Offsets -/

namespace Offset

/-- The text of an offset: a sign, hours and minutes. -/
def text (minutes : Int) : String :=
  (if minutes < 0 then "-" else "+") ++ padded 2 (minutes.natAbs / 60) ++ ":" ++ padded 2 (minutes.natAbs % 60)

/-- A span of minutes in full: days, which may be negative, and seconds that are added to them. -/
def span (minutes : Int) : String :=
  let days := minutes.fdiv 1440
  let seconds := minutes.fmod 1440 * 60
  let parts := (if days = 0 then [] else ["days=" ++ Number.intText days]) ++
    (if seconds = 0 then [] else ["seconds=" ++ Number.intText seconds])
  "datetime.timedelta(" ++ (if parts = [] then "0" else ", ".intercalate parts) ++ ")"

/-- An offset in full. -/
def shown (minutes : Int) : String :=
  if minutes = 0 then "datetime.timezone.utc" else "datetime.timezone(" ++ span minutes ++ ")"

/-- An offset of less than a day. -/
def make (minutes : Int) : Except MomentFault Int :=
  if minutes.natAbs < 1440 then .ok minutes else .error (.offset minutes)

end Offset

/-- The words for a fault. -/
def MomentFault.message : MomentFault → String
  | year value => "year " ++ Number.intText value ++ " is out of range"
  | month => "month must be in 1..12"
  | day => "day is out of range for month"
  | hour => "hour must be in 0..23"
  | minute => "minute must be in 0..59"
  | second => "second must be in 0..59"
  | offset minutes => "offset must be a timedelta strictly between -timedelta(hours=24) and timedelta(hours=24), not " ++
      Offset.span minutes ++ "."

namespace Moment

/-- The text of a moment. -/
def text : Moment → String
  | day d => d.text
  | clock c => c.text
  | instant d c offset => d.text ++ " " ++ c.text ++ ((offset.map Offset.text).getD "")

/-- A moment inside an array or an object: its numbers. -/
def shown : Moment → String
  | day d => "datetime.date(" ++ list d.numbers ++ ")"
  | clock c => "datetime.time(" ++ list c.numbers ++ ")"
  | instant d c offset => "datetime.datetime(" ++ list (d.numbers ++ c.numbers) ++
      ((offset.map fun m => ", tzinfo=" ++ Offset.shown m).getD "") ++ ")"
where
  /-- Numbers in a row. -/
  list (ns : List Nat) : String := ", ".intercalate (ns.map fun (n : Nat) => Number.intText n)

/-- The microseconds of an instant since the start of the calendar, by universal time if its offset is known. -/
def micros (d : Day) (c : Clock) (offset : Option Int) : Int :=
  (d.number * 86400000000 + c.micros : Nat) - offset.getD 0 * 60000000

/-- Whether two moments are the same: instants with known offsets are compared by universal time. -/
def same : Moment → Moment → Bool
  | instant d c (some m), instant e k (some n) => micros d c (some m) = micros e k (some n)
  | a, b => a = b

end Moment

end Typings
