import JavaRender.Text.Digit

/-!
Dates and times of day. Both are shown in two ways: as they are written, and as an expression that
names every part, which leaves out seconds and microseconds when these are zero at the end.
-/
namespace JavaRender.Toml

structure Date where
  year : Nat
  month : Nat
  day : Nat
deriving DecidableEq, Repr

structure Time where
  hour : Nat
  minute : Nat
  second : Nat
  micros : Nat
deriving DecidableEq, Repr

structure Moment where
  date : Date
  time : Time
  offset : Option Int
deriving DecidableEq, Repr

def isLeap (year : Nat) : Bool := (year % 4 = 0 && year % 100 ≠ 0) || year % 400 = 0

def daysIn (year month : Nat) : Nat :=
  if month = 2 then (if isLeap year then 29 else 28)
  else if month = 4 || month = 6 || month = 9 || month = 11 then 30
  else 31

def Date.isValid (d : Date) : Bool :=
  1 ≤ d.year && 1 ≤ d.month && d.month ≤ 12 && 1 ≤ d.day && d.day ≤ daysIn d.year d.month

def fixed (width n : Nat) : String := String.ofList (Digit.padded 10 width n)

def commas (ns : List Nat) : String := ", ".intercalate (ns.map toString)

namespace Date

def text (d : Date) : String := fixed 4 d.year ++ "-" ++ fixed 2 d.month ++ "-" ++ fixed 2 d.day

def parts (d : Date) : List Nat := [d.year, d.month, d.day]

def display (d : Date) : String := "datetime.date(" ++ commas d.parts ++ ")"

end Date

namespace Time

def text (t : Time) : String :=
  fixed 2 t.hour ++ ":" ++ fixed 2 t.minute ++ ":" ++ fixed 2 t.second ++
    (if t.micros = 0 then "" else "." ++ fixed 6 t.micros)

def parts (t : Time) : List Nat :=
  if t.micros ≠ 0 then [t.hour, t.minute, t.second, t.micros]
  else if t.second ≠ 0 then [t.hour, t.minute, t.second]
  else [t.hour, t.minute]

def display (t : Time) : String := "datetime.time(" ++ commas t.parts ++ ")"

end Time

namespace Moment

def offsetText (minutes : Int) : String :=
  (if minutes < 0 then "-" else "+") ++ fixed 2 (minutes.natAbs / 60) ++ ":" ++
    fixed 2 (minutes.natAbs % 60)

def text (m : Moment) : String :=
  m.date.text ++ " " ++ m.time.text ++ (m.offset.map offsetText).getD ""

/-- A zone by its offset, which counts full days back and seconds from there. -/
def zoneDisplay (minutes : Int) : String :=
  if minutes = 0 then "datetime.timezone.utc"
  else if minutes < 0 then
    "datetime.timezone(datetime.timedelta(days=-1, seconds=" ++
      toString (86400 + 60 * minutes) ++ "))"
  else "datetime.timezone(datetime.timedelta(seconds=" ++ toString (60 * minutes) ++ "))"

def display (m : Moment) : String :=
  "datetime.datetime(" ++ commas (m.date.parts ++ m.time.parts) ++
    (m.offset.map fun minutes => ", tzinfo=" ++ zoneDisplay minutes).getD "" ++ ")"

end Moment

end JavaRender.Toml
