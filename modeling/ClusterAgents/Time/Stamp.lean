import ClusterAgents.Text.Basic

/-!
# Points in time

A `Stamp` is a point in time; `Stamp.text` writes it in the form of RFC 3339 in universal time, and
`Stamp.parse` reads that form with any offset.  Reading is lenient about blanks, about the sign and
the length of the year and about the case of its letters; a `StampFault` says why it stopped.
-/

namespace ClusterAgents.Time

open Text

inductive StampFault
  | outOfRange
  | impossible
  | invalid
  | tooShort
  | tooLong
  deriving DecidableEq, Repr

def StampFault.message : StampFault → String
  | .outOfRange => "input is out of range"
  | .impossible => "no possible date and time matching input"
  | .invalid => "input contains invalid characters"
  | .tooShort => "premature end of input"
  | .tooLong => "trailing input"

/-- A point in time: whole seconds since 1970 began, and nanoseconds.  In the last second of a day
they may exceed a second, for a leap second. -/
structure Stamp where
  seconds : Int
  nanos : Nat
  deriving DecidableEq, Repr

/-! ### the calendar -/

def isLeapYear (year : Int) : Bool :=
  year.emod 4 == 0 && (year.emod 100 != 0 || year.emod 400 == 0)

def daysInMonth (year : Int) (month : Nat) : Nat :=
  match month with
  | 2 => if isLeapYear year then 29 else 28
  | 4 | 6 | 9 | 11 => 30
  | _ => 31

/-- The days from 1970 on up to a date.  Years are counted from March on, so that a leap day is the
last day of its year. -/
def daysOfDate (year : Int) (month day : Nat) : Int :=
  let y := if month ≤ 2 then year - 1 else year
  let era := y.fdiv 400
  let yearOfEra := y - era * 400
  let shifted : Nat := if month ≤ 2 then month + 9 else month - 3
  let dayOfYear : Int := ((153 * shifted + 2) / 5 + day - 1 : Nat)
  let dayOfEra := yearOfEra * 365 + yearOfEra.fdiv 4 - yearOfEra.fdiv 100 + dayOfYear
  era * 146097 + dayOfEra - 719468

def dateOfDays (days : Int) : Int × Nat × Nat :=
  let z := days + 719468
  let era := z.fdiv 146097
  let dayOfEra := z - era * 146097
  let yearOfEra :=
    (dayOfEra - dayOfEra.fdiv 1460 + dayOfEra.fdiv 36524 - dayOfEra.fdiv 146096).fdiv 365
  let dayOfYear := (dayOfEra - (365 * yearOfEra + yearOfEra.fdiv 4 - yearOfEra.fdiv 100)).toNat
  let shifted := (5 * dayOfYear + 2) / 153
  let day := dayOfYear - (153 * shifted + 2) / 5 + 1
  let month := if shifted < 10 then shifted + 3 else shifted - 9
  let y := yearOfEra + era * 400
  (if month ≤ 2 then y + 1 else y, month, day)

/-- The years that a point in time may lie in. -/
def inCalendar (year : Int) : Bool := -262143 ≤ year && year ≤ 262142

/-! ### writing -/

/-- A year: four digits, or a sign and at least four if it has more or lies before the first. -/
def yearText (year : Int) : String :=
  if 0 ≤ year && year ≤ 9999 then pad 4 year.toNat
  else (if year < 0 then "-" else "+") ++ pad 4 year.natAbs

/-- The fraction of a second with 0, 3, 6 or 9 digits. -/
def fractionText (nanos : Nat) : String :=
  if nanos = 0 then ""
  else if nanos % 1000000 = 0 then "." ++ pad 3 (nanos / 1000000)
  else if nanos % 1000 = 0 then "." ++ pad 6 (nanos / 1000)
  else "." ++ pad 9 nanos

def Stamp.dateText (mark : String) (t : Stamp) : String :=
  let (year, month, day) := dateOfDays (t.seconds.fdiv 86400)
  yearText year ++ mark ++ pad 2 month ++ mark ++ pad 2 day

def Stamp.clockText (mark : String) (t : Stamp) : String :=
  let second := (t.seconds.fmod 86400).toNat
  let leap := t.nanos / 1000000000
  pad 2 (second / 3600) ++ mark ++ pad 2 (second % 3600 / 60) ++ mark ++ pad 2 (second % 60 + leap)

def Stamp.text (t : Stamp) : String :=
  t.dateText "-" ++ "T" ++ t.clockText ":" ++ fractionText (t.nanos % 1000000000) ++ "Z"

/-! ### reading -/

abbrev StampStep (α : Type) := List Char → Except StampFault (α × List Char)

/-- A number of one up to `most` digits.  Without a bound, one of more than 63 bits is too large. -/
def scanNumber (most : Option Nat) : StampStep Nat := fun cs =>
  let run := match most with
    | some n => (cs.take n).takeWhile isDigit
    | none => cs.takeWhile isDigit
  if cs.isEmpty then .error .tooShort
  else if run.isEmpty then .error .invalid
  else if digitsValue run < bitRange 63 then .ok (digitsValue run, cs.drop run.length)
  else .error .outOfRange

def scanPart (low high : Nat) : StampStep Nat := fun cs => do
  let (n, cs) ← scanNumber (some 2) (trimStart cs)
  if low ≤ n && n ≤ high then .ok (n, cs) else .error .outOfRange

def scanYear : StampStep Int := fun cs => do
  let (n, cs) ← match trimStart cs with
    | '-' :: rest => (do
      let (n, rest) ← scanNumber none rest
      .ok (-(n : Int), rest) : Except StampFault (Int × List Char))
    | '+' :: rest => do
      let (n, rest) ← scanNumber none rest
      .ok ((n : Int), rest)
    | rest => do
      let (n, rest) ← scanNumber (some 4) rest
      .ok ((n : Int), rest)
  if -(bitRange 31 : Int) ≤ n && n < (bitRange 31 : Int) then .ok (n, cs) else .error .outOfRange

def scanMark (c : Char) : StampStep Unit := fun cs =>
  match trimStart cs with
  | [] => .error .tooShort
  | d :: rest => if d = c then .ok ((), rest) else .error .invalid

/-- The fraction of a second in nanoseconds.  Digits behind the ninth do not count. -/
def scanFraction : StampStep Nat := fun cs =>
  match cs with
  | '.' :: rest => do
    let (n, rest') ← scanNumber (some 9) rest
    let used := rest.length - rest'.length
    .ok (n * Nat.pow 10 (9 - used), rest'.dropWhile isDigit)
  | cs => .ok (0, cs)

def hasTwoBytes : List Char → Bool
  | [] => false
  | [c] => 2 ≤ c.utf8Size
  | _ => true

def scanTwo (most : Nat) : StampStep Nat := fun cs =>
  if !hasTwoBytes cs then .error .tooShort
  else
    match cs with
    | a :: b :: rest =>
      if isDigit a && isDigit b then
        if digitValue a ≤ most then .ok (10 * digitValue a + digitValue b, rest)
        else .error .outOfRange
      else .error .invalid
    | _ => .error .invalid

def upper (c : Char) : Char := c.toUpper

/-- The offset from universal time, in seconds. -/
def scanOffset : StampStep Int := fun cs => do
  if (cs.take 3).map upper = ['U', 'T', 'C'] then .ok (0, cs.drop 3)
  else
    match cs with
    | [] => .error .tooShort
    | c :: rest =>
      if c = 'Z' || c = 'z' then .ok (0, rest)
      else if c = '+' || c = '-' || c.toNat = 0x2212 then
        let (hours, rest) ← scanTwo 9 rest
        let rest := rest.dropWhile fun c => c == ':' || isBlank c
        let (minutes, rest) ← scanTwo 5 rest
        let offset : Int := hours * 3600 + minutes * 60
        .ok (if c = '+' then offset else -offset, rest)
      else .error .invalid

def Stamp.parse (s : String) : Except StampFault Stamp := do
  let (year, cs) ← scanYear s.toList
  let (_, cs) ← scanMark '-' cs
  let (month, cs) ← scanPart 1 12 cs
  let (_, cs) ← scanMark '-' cs
  let (day, cs) ← scanPart 1 31 cs
  let cs ← match cs with
    | [] => .error .tooShort
    | c :: rest => if c = 't' || c = 'T' || c = ' ' then .ok rest else .error .invalid
  let (hour, cs) ← scanPart 0 23 cs
  let (_, cs) ← scanMark ':' cs
  let (minute, cs) ← scanPart 0 59 cs
  let (_, cs) ← scanMark ':' cs
  let (second, cs) ← scanPart 0 60 cs
  let (fraction, cs) ← scanFraction cs
  let (offset, cs) ← scanOffset (trimStart cs)
  if !(trimStart cs).isEmpty then throw .tooLong
  if !inCalendar year || daysInMonth year month < day then throw .outOfRange
  if 86400 ≤ offset.natAbs then throw .outOfRange
  let leap := if second = 60 then 1 else 0
  let clock : Int := hour * 3600 + minute * 60 + (second - leap : Nat)
  let seconds := daysOfDate year month day * 86400 + clock - offset
  if !inCalendar (dateOfDays (seconds.fdiv 86400)).1 then throw .impossible
  return ⟨seconds, fraction + leap * 1000000000⟩

end ClusterAgents.Time
