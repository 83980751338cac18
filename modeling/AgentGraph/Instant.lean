import AgentGraph.Json.Read
import AgentGraph.Text.Blank
import AgentGraph.Text.Search

/-!
# Points in time

An `Instant` counts nanoseconds from the start of 1970 in coordinated universal time. It is written
as `2020-01-02T03:04:05Z`, with three, six or nine digits of a fraction when there is one.

Reading is relaxed: fields may have fewer digits, blanks may stand around the punctuation, the date
and time may be joined by a blank, and the offset may be `Z`, `UTC` or hours and minutes with or
without a colon. The sixtieth second of a minute is a leap second: it counts as the 59th with a
fraction of a second or more.
-/

namespace AgentGraph

open Json Text

/-- A point in time; `nanos` reaches `2 * 10 ^ 9` in a leap second. -/
structure Instant where
  seconds : Int
  nanos : Nat
deriving DecidableEq, Repr

namespace Instant

/-- Earlier or the same. -/
def le (a b : Instant) : Bool :=
  a.seconds < b.seconds || (a.seconds = b.seconds && a.nanos ≤ b.nanos)

/-! ### The calendar -/

/-- A day of the Gregorian calendar. -/
structure Date where
  year : Int
  month : Nat
  day : Nat
deriving DecidableEq, Repr

def isLeapYear (year : Int) : Bool := (year % 4 = 0 && year % 100 ≠ 0) || year % 400 = 0

def daysInMonth (year : Int) (month : Nat) : Nat :=
  match month with
  | 2 => if isLeapYear year then 29 else 28
  | 4 | 6 | 9 | 11 => 30
  | _ => 31

/-- Days from the start of 1970. Years are counted from March, so that the leap day comes last. -/
def Date.toDays (d : Date) : Int :=
  let y : Int := if d.month ≤ 2 then d.year - 1 else d.year
  let m : Nat := (d.month + 9) % 12
  y * 365 + y.fdiv 4 - y.fdiv 100 + y.fdiv 400 + ((153 * m + 2) / 5 : Nat) + (d.day : Int) - 719469

/-- The day that many days after the start of 1970. -/
def Date.ofDays (days : Int) : Date :=
  let z := days + 719468
  let era := z.fdiv 146097
  let dayOfEra := (z - era * 146097).toNat
  let yearOfEra := (dayOfEra - dayOfEra / 1460 + dayOfEra / 36524 - dayOfEra / 146096) / 365
  let dayOfYear := dayOfEra - (365 * yearOfEra + yearOfEra / 4 - yearOfEra / 100)
  let m := (5 * dayOfYear + 2) / 153
  let month := if m < 10 then m + 3 else m - 9
  let year : Int := yearOfEra + era * 400
  ⟨if month ≤ 2 then year + 1 else year, month, dayOfYear - (153 * m + 2) / 5 + 1⟩

/-! ### Writing -/

/-- A number with leading zeros. -/
def padded (width n : Nat) : List Char :=
  let digits := Nat.toDigits 10 n
  List.replicate (width - digits.length) '0' ++ digits

/-- Years have four digits; beyond those they carry a sign. -/
def yearText (year : Int) : List Char :=
  if 0 ≤ year ∧ year ≤ 9999 then padded 4 year.toNat
  else (if year < 0 then '-' else '+') :: padded 4 year.natAbs

def date (t : Instant) : Date := .ofDays (t.seconds.fdiv 86400)

def secondOfDay (t : Instant) : Nat := (t.seconds.fmod 86400).toNat

def dateText (t : Instant) : List Char :=
  let d := t.date
  yearText d.year ++ '-' :: padded 2 d.month ++ '-' :: padded 2 d.day

/-- Hours and minutes. -/
def minuteText (t : Instant) : List Char :=
  padded 2 (t.secondOfDay / 3600) ++ ':' :: padded 2 (t.secondOfDay / 60 % 60)

/-- A fraction of a second with three, six or nine digits, or none at all. -/
def fractionText (nanos : Nat) : List Char :=
  if nanos = 0 then []
  else if nanos % 1000000 = 0 then '.' :: padded 3 (nanos / 1000000)
  else if nanos % 1000 = 0 then '.' :: padded 6 (nanos / 1000)
  else '.' :: padded 9 nanos

def toString (t : Instant) : String :=
  let second := t.secondOfDay % 60 + t.nanos / 1000000000
  String.ofList (t.dateText ++ 'T' :: t.minuteText ++ ':' :: padded 2 second ++
    fractionText (t.nanos % 1000000000) ++ ['Z'])

/-- The date, hours and minutes, for people. -/
def shortText (t : Instant) : String := String.ofList (t.dateText ++ ' ' :: t.minuteText)

instance : ToString Instant := ⟨toString⟩

/-! ### Reading -/

/-- Why a text is no point in time. -/
inductive Malformed where
  | outOfRange
  | badCharacter
  | tooShort
  | tooLong
deriving DecidableEq, Repr

def Malformed.message : Malformed → String
  | outOfRange => "input is out of range"
  | badCharacter => "input contains invalid characters"
  | tooShort => "premature end of input"
  | tooLong => "trailing input"

/-- A scanner takes a value from the front of the text. -/
abbrev Scan (α : Type) := StateT (List Char) (Except Malformed) α

def skipBlanks : Scan Unit := modify (·.dropWhile isBlankChar)

/-- Take between one and `most` digits. -/
def digits (most : Nat) : Scan (List Char) := do
  let cs ← get
  let found := (cs.take most).takeWhile Char.isDigit
  if found.isEmpty then throw (if cs.isEmpty then .tooShort else .badCharacter)
  set (cs.drop found.length)
  return found

/-- A number of at most `most` digits, which must be at least `least` and at most `greatest`. -/
def field (most least greatest : Nat) : Scan Nat := do
  skipBlanks
  let n := Numeric.digitsValue (← digits most)
  if n < least ∨ greatest < n then throw .outOfRange
  return n

/-- A given character, with blanks before it. -/
def mark (c : Char) : Scan Unit := do
  skipBlanks
  match ← get with
  | [] => throw .tooShort
  | d :: rest => if d = c then set rest else throw .badCharacter

/-- The greatest number of a year that is looked at. -/
def maxYear : Nat := 262142

/-- A year has four digits; with a sign it may have more. -/
def year : Scan Int := do
  skipBlanks
  let signed (sign : Int) (rest : List Char) : Scan Int := do
    set rest
    let ds ← digits rest.length
    if ds.length > 18 then throw .outOfRange
    return sign * Numeric.digitsValue ds
  match ← get with
  | '-' :: rest => signed (-1) rest
  | '+' :: rest => signed 1 rest
  | _ => return Numeric.digitsValue (← digits 4)

/-- The fraction of a second, if one follows; digits after the ninth are dropped. -/
def fraction : Scan Nat := do
  match ← get with
  | '.' :: rest => do
    set rest
    let ds ← digits 9
    modify (·.dropWhile Char.isDigit)
    return Numeric.digitsValue ds * Nat.pow 10 (9 - ds.length)
  | _ => return 0

/-- Two digits, the first at most `most`. -/
def pair (most : Char) : Scan Nat := do
  match ← get with
  | a :: b :: rest =>
    if ¬ (a.isDigit ∧ b.isDigit) then throw .badCharacter
    if most < a then throw .outOfRange
    set rest
    return Numeric.digitsValue [a, b]
  | [a] => throw (if a.toNat < 0x80 then .tooShort else .badCharacter)
  | [] => throw .tooShort

/-- The offset from universal time, in seconds. -/
def offset : Scan Int := do
  let cs ← get
  if (cs.take 3).map Char.toUpper = ['U', 'T', 'C'] then
    set (cs.drop 3)
    return 0
  match cs with
  | [] => throw .tooShort
  | c :: rest =>
    set rest
    if c = 'Z' ∨ c = 'z' then return 0
    let sign : Int ←
      if c = '+' then pure 1
      else if c = '-' ∨ c = '−' then pure (-1)
      else throw .badCharacter
    let hours ← pair '9'
    modify (·.dropWhile fun c => c = ':' || isBlankChar c)
    let minutes ← pair '5'
    return sign * (hours * 3600 + minutes * 60 : Nat)

/-- A date, a separator, a time and an offset. -/
def instant : Scan Instant := do
  let y ← year
  mark '-'
  let month ← field 2 1 12
  mark '-'
  let day ← field 2 1 31
  match ← get with
  | [] => throw .tooShort
  | c :: rest => if c = 'T' ∨ c = 't' ∨ c = ' ' then set rest else throw .badCharacter
  let hour ← field 2 0 23
  mark ':'
  let minute ← field 2 0 59
  mark ':'
  let second ← field 2 0 60
  let nanos ← fraction
  skipBlanks
  let shift ← offset
  skipBlanks
  unless (← get).isEmpty do throw .tooLong
  if y.natAbs > maxYear ∨ daysInMonth y month < day ∨ 86400 ≤ shift.natAbs then throw .outOfRange
  let (second, nanos) := if second = 60 then (59, nanos + 1000000000) else (second, nanos)
  let sinceMidnight : Nat := hour * 3600 + minute * 60 + second
  return ⟨Date.toDays ⟨y, month, day⟩ * 86400 + sinceMidnight - shift, nanos⟩

/-- Read a point in time. -/
def ofText (s : String) : Except Malformed Instant := (instant.run s.toList).map (·.1)

/-- Points in time stand in JSON as their text. -/
def format : Format Instant :=
  .coded "an RFC 3339 formatted date and time string"
    (fun s => (ofText s).mapError Malformed.message) toString

end Instant

end AgentGraph
