/-
Days of the calendar and moments on them, with or without a distance from universal time.
-/

namespace TreeScript

/-- A day of the Gregorian calendar. -/
structure Date where
  year : Nat
  month : Nat
  day : Nat
deriving DecidableEq

namespace Date

def isLeap (year : Nat) : Bool := year % 4 == 0 && (year % 100 != 0 || year % 400 == 0)

def monthLength (year month : Nat) : Nat :=
  if month == 2 then (if isLeap year then 29 else 28)
  else if month == 4 || month == 6 || month == 9 || month == 11 then 30
  else 31

/-- Why numbers name no day or no moment. -/
inductive Fault where
  | year (year : Nat)
  | month
  | day
  | hour
  | minute
  | second
  | offset (minutes : Int)
deriving DecidableEq

/-- The day of that number in the month of that number, in the years 1 to 9999. -/
def ofParts (year month day : Nat) : Except Fault Date :=
  if year < 1 ∨ 9999 < year then .error (.year year)
  else if month < 1 ∨ 12 < month then .error .month
  else if day < 1 ∨ monthLength year month < day then .error .day
  else .ok ⟨year, month, day⟩

end Date

/-- A point of time on a day; `offset` counts minutes east of universal time. -/
structure Moment where
  date : Date
  hour : Nat
  minute : Nat
  second : Nat
  microsecond : Nat
  offset : Option Int
deriving DecidableEq

/-- The moment at that time of a day. -/
def Moment.ofParts (date : Date) (hour minute second microsecond : Nat) (offset : Option Int) :
    Except Date.Fault Moment :=
  if 23 < hour then .error .hour
  else if 59 < minute then .error .minute
  else if 59 < second then .error .second
  else .ok ⟨date, hour, minute, second, microsecond, offset⟩

/-- A distance from universal time is less than a day. -/
def Moment.checkOffset (minutes : Int) : Except Date.Fault Int :=
  if 1440 ≤ minutes.natAbs then .error (.offset minutes) else .ok minutes

/-! ## Instants -/

/-- How many days lie before a day, from the first day of the year 1 on. -/
def Date.number (d : Date) : Nat :=
  let years := d.year - 1
  let months := (List.range (d.month - 1)).map fun m => monthLength d.year (m + 1)
  years * 365 + years / 4 - years / 100 + years / 400 + months.foldl (· + ·) 0 + (d.day - 1)

/-- The millionths of a second up to a moment, in universal time if it has an offset. -/
def Moment.instant (m : Moment) : Int :=
  let minutes : Int := (m.date.number * 24 + m.hour) * 60 + m.minute
  ((minutes - m.offset.getD 0) * 60 + m.second) * 1000000 + m.microsecond

/-- Whether two moments are the same. One with an offset is never the same as one without. -/
def Moment.same (a b : Moment) : Bool := a.offset.isSome == b.offset.isSome && a.instant == b.instant

/-! ## Text -/

/-- Decimal digits, filled up with zeros to a width. -/
def paddedDigits (width n : Nat) : String :=
  let digits := Nat.toDigits 10 n
  String.ofList (List.replicate (width - digits.length) '0' ++ digits)

def Date.text (d : Date) : String :=
  paddedDigits 4 d.year ++ "-" ++ paddedDigits 2 d.month ++ "-" ++ paddedDigits 2 d.day

/-- A distance from universal time, as hours and minutes. -/
def offsetText (offset : Int) : String :=
  (if offset < 0 then "-" else "+") ++ paddedDigits 2 (offset.natAbs / 60) ++ ":" ++
    paddedDigits 2 (offset.natAbs % 60)

/-- The day, a blank and the time; the fraction of a second and the offset only where there is one. -/
def Moment.text (m : Moment) : String :=
  m.date.text ++ " " ++ paddedDigits 2 m.hour ++ ":" ++ paddedDigits 2 m.minute ++ ":" ++
    paddedDigits 2 m.second ++
    (if m.microsecond = 0 then "" else "." ++ paddedDigits 6 m.microsecond) ++
    (m.offset.map offsetText).getD ""

end TreeScript
