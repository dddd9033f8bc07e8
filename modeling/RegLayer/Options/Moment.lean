/-
# `RegLayer.Options.Moment` — dates and times in settings

A settings text can give a date, a time of day, or both, and then also how far the time is from
the universal one.  A moment is read in one notation and written in the same: `T` between date and
time, `Z` for universal time, and no zeros at the end of a fraction.

The notation is that of TOML 1.0.  Of the days of a month only the number is limited, to 31; a
second may be the sixtieth; a fraction is cut after nine digits; a distance from the universal
time has at most 23 hours.  These are the limits of the `toml` library (0.7), and they matter
because an option can hold the written form of a moment.
-/
import RegLayer.Text.Number

namespace RegLayer

/-- A date.  The month is not asked how many days it has. -/
structure Day where
  year : Nat
  month : Nat
  day : Nat
  deriving DecidableEq, Repr

/-- A time of day, to the nanosecond. -/
structure TimeOfDay where
  hour : Nat
  minute : Nat
  second : Nat
  nanosecond : Nat
  deriving DecidableEq, Repr

/-- How far a time is from the universal one. -/
inductive Zone where
  | universal
  | ahead (hours minutes : Nat)
  | behind (hours minutes : Nat)
  deriving DecidableEq, Repr

/-- A point in time, as far as it is given. -/
inductive Moment where
  | day (d : Day)
  | time (t : TimeOfDay)
  | dayTime (d : Day) (t : TimeOfDay) (z : Option Zone)
  deriving DecidableEq, Repr

namespace Moment

open Text Text.Reader

/-! ## Reading -/

/-- Takes two digits, whose number has to lie between the bounds. -/
def twoDigits (low high : Nat) : Reader Nat := do
  let n ← fixedDigits 10 2
  if low ≤ n && n ≤ high then return n else refuse

def readDay : Reader Day := do
  let year ← fixedDigits 10 4
  char '-'
  let month ← twoDigits 1 12
  char '-'
  return ⟨year, month, ← twoDigits 1 31⟩

/-- The digits that a fraction of a second can have; further ones do not count. -/
def fractionDigits : Nat := 9

/-- Takes a fraction of a second, if there is one. -/
def readFraction : Reader Nat := do
  if ← word? "." then
    let ds ← takeWhile Char.isDigit
    if ds.isEmpty then refuse
    let zeros := List.replicate fractionDigits '0'
    match digitsFrom? 10 0 ((ds ++ zeros).take fractionDigits) with
    | some n => return n
    | none => refuse
  return 0

/-- Takes a time of day, which may be a leap second. -/
def readTime : Reader TimeOfDay := do
  let hour ← twoDigits 0 23
  char ':'
  let minute ← twoDigits 0 59
  char ':'
  let second ← twoDigits 0 60
  return ⟨hour, minute, second, ← readFraction⟩

/-- Takes the hours and minutes of a zone, after its sign. -/
def readDistance (meaning : Nat → Nat → Zone) : Reader (Option Zone) := do
  let hours ← twoDigits 0 23
  char ':'
  return some (meaning hours (← twoDigits 0 59))

/-- Takes a zone, if there is one. -/
def readZone? : Reader (Option Zone) := do
  if ← word? "Z" then return some .universal
  else if ← word? "z" then return some .universal
  else if ← word? "+" then readDistance .ahead
  else if ← word? "-" then readDistance .behind
  else return none

/-- Whether a time follows a date: after a `T` or a space there is a digit. -/
def timeFollows : List Char → Bool
  | c :: d :: _ => (c == 'T' || c == 't' || c == ' ') && d.isDigit
  | _ => false

/-- Takes a date, and a time if one follows. -/
def readFromDay : Reader Moment := do
  let d ← readDay
  if timeFollows (← rest) then
    let _ ← next
    let t ← readTime
    return .dayTime d t (← readZone?)
  return .day d

def read : Reader Moment :=
  readFromDay <|> Moment.time <$> readTime

/-! ## Writing -/

def dayChars (d : Day) : List Char :=
  padded 4 d.year ++ '-' :: padded 2 d.month ++ '-' :: padded 2 d.day

/-- A fraction of a second, without zeros at its end. -/
def fractionChars (nanosecond : Nat) : List Char :=
  if nanosecond = 0 then []
  else '.' :: ((padded fractionDigits nanosecond).reverse.dropWhile (· == '0')).reverse

def timeChars (t : TimeOfDay) : List Char :=
  padded 2 t.hour ++ ':' :: padded 2 t.minute ++ ':' :: padded 2 t.second ++
    fractionChars t.nanosecond

/-- A zone; one without a distance is not behind. -/
def zoneChars : Zone → List Char
  | .universal => ['Z']
  | .ahead h m => '+' :: padded 2 h ++ ':' :: padded 2 m
  | .behind h m => (if h = 0 ∧ m = 0 then '+' else '-') :: padded 2 h ++ ':' :: padded 2 m

def chars : Moment → List Char
  | .day d => dayChars d
  | .time t => timeChars t
  | .dayTime d t z => dayChars d ++ 'T' :: timeChars t ++ (z.map zoneChars).getD []

/-- The text of a moment. -/
def text (m : Moment) : String :=
  String.ofList m.chars

end Moment

end RegLayer
