import ClusterAgents.Error

/-!
# Lengths of time

* `hms` writes a number of seconds as schedulers do, as `HH:MM:SS`; the hours are not bounded by a day.
* `millisOfVariable?` reads a time limit given in milliseconds by a variable of the environment.
* `Span.phrase` writes a length of time as a row of amounts with units, such as `1day 2h 30m`, and
  `Span.parse` reads such rows: each amount is a number, with a fraction or without, and a unit.
  Nothing is rounded: an amount that is no whole number of nanoseconds is refused.
-/

namespace ClusterAgents.Time

open Text

structure Span where
  seconds : Nat
  nanos : Nat := 0
  deriving DecidableEq, Repr

def Span.ofMillis (ms : Nat) : Span := ⟨ms / 1000, ms % 1000 * 1000000⟩

def Span.totalNanos (s : Span) : Nat := s.seconds * 1000000000 + s.nanos

/-- Hours, minutes and seconds, each with at least two digits. -/
def hms (seconds : Nat) : String :=
  pad 2 (seconds / 3600) ++ ":" ++ pad 2 (seconds % 3600 / 60) ++ ":" ++ pad 2 (seconds % 60)

/-- A time limit in milliseconds.  A value that is not a whole number counts as none. -/
def millisOfVariable? (value : String) : Option Span := (wholeOfText? value).map Span.ofMillis

/-! ### units -/

inductive TimeUnit
  | nanosecond
  | microsecond
  | millisecond
  | second
  | minute
  | hour
  | day
  | week
  | month
  | year
  deriving DecidableEq, Repr

namespace TimeUnit

def names : List (TimeUnit × List String) :=
  [(.nanosecond, ["nanos", "nsec", "ns"]),
    (.microsecond, ["usec", "us", "µs"]),
    (.millisecond, ["millis", "msec", "ms"]),
    (.second, ["seconds", "second", "secs", "sec", "s"]),
    (.minute, ["minutes", "minute", "min", "mins", "m"]),
    (.hour, ["hours", "hour", "hr", "hrs", "h"]),
    (.day, ["days", "day", "d"]),
    (.week, ["weeks", "week", "wk", "wks", "w"]),
    (.month, ["months", "month", "M"]),
    (.year, ["years", "year", "yr", "yrs", "y"])]

def ofName? (name : String) : Option TimeUnit := (names.find? (·.2.contains name)).map (·.1)

/-- The length of a unit from a second upwards.  A month is a twelfth of a year of 365 days and a
quarter, to the hundredth of a day. -/
def seconds : TimeUnit → Nat
  | .minute => 60
  | .hour => 3600
  | .day => 86400
  | .week => 604800
  | .month => 2630016
  | .year => 31557600
  | _ => 1

def nanos : TimeUnit → Nat
  | .microsecond => 1000
  | .millisecond => 1000000
  | _ => 1

def isShort : TimeUnit → Bool
  | .nanosecond => true
  | .microsecond => true
  | .millisecond => true
  | _ => false

end TimeUnit

/-! ### writing -/

/-- An amount of a unit that has a plural.  None of it is not mentioned. -/
def pluralItem (name : String) (n : Nat) : List String :=
  if n = 0 then [] else if n = 1 then [decimal n ++ name] else [decimal n ++ name ++ "s"]

def item (name : String) (n : Nat) : List String := if n = 0 then [] else [decimal n ++ name]

def Span.phrase (s : Span) : String :=
  let ofYear := s.seconds % TimeUnit.year.seconds
  let ofMonth := ofYear % TimeUnit.month.seconds
  let ofDay := ofMonth % TimeUnit.day.seconds
  let items :=
    pluralItem "year" (s.seconds / TimeUnit.year.seconds) ++
    pluralItem "month" (ofYear / TimeUnit.month.seconds) ++
    pluralItem "day" (ofMonth / TimeUnit.day.seconds) ++
    item "h" (ofDay / 3600) ++ item "m" (ofDay % 3600 / 60) ++ item "s" (ofDay % 60) ++
    item "ms" (s.nanos / 1000000) ++ item "us" (s.nanos / 1000 % 1000) ++ item "ns" (s.nanos % 1000)
  if items.isEmpty then "0s" else " ".intercalate items

/-! ### reading -/

def isUnitLetter (c : Char) : Bool :=
  ('a' ≤ c && c ≤ 'z') || ('A' ≤ c && c ≤ 'Z') || c.toNat = 0xB5

def bounded (n : Nat) : Except SpanFault Nat := if n ≤ wholeLimit then .ok n else .error .overflow

structure Fraction where
  numerator : Nat
  denominator : Nat

inductive Behind
  | nothing
  | letter (c : Char) (rest : List Char)
  | point (rest : List Char)

inductive Next
  | digit (c : Char) (rest : List Char)
  | other (rest : List Char)

/-- The first digit of the next number, and the place behind it.  There may be none. -/
def firstDigit? : Nat → List Char → Except SpanFault (Option (Nat × Nat × List Char))
  | _, [] => .ok none
  | place, c :: cs =>
    if isDigit c then .ok (some (digitValue c, place + 1, cs))
    else if isBlank c then firstDigit? (place + c.utf8Size) cs
    else .error (.numberExpected place)

/-- The further digits of a number that is `n` so far: the number, and the place where they end. -/
def scanWhole : Nat → Nat → List Char → Except SpanFault (Nat × Nat × Behind)
  | n, place, [] => .ok (n, place, .nothing)
  | n, place, c :: cs =>
    if isDigit c then
      if 10 * n + digitValue c ≤ wholeLimit then
        scanWhole (10 * n + digitValue c) (place + 1) cs
      else .error .overflow
    else if isBlank c then scanWhole n (place + c.utf8Size) cs
    else if isUnitLetter c then .ok (n, place, .letter c cs)
    else if c = '.' then .ok (n, place, .point cs)
    else .error (.invalidCharacter place)

/-- The digits behind a point: the fraction, and the place where they end.  `noted` is the place
that a complaint names: until a digit or a blank was read, that of the point. -/
def scanDecimals : Fraction → Nat → Nat → List Char → Except SpanFault (Fraction × Nat × Behind)
  | f, _, noted, [] => .ok (f, noted, .nothing)
  | f, place, noted, c :: cs =>
    if isDigit c then do
      let denominator ← bounded (10 * f.denominator)
      let numerator ← bounded (10 * f.numerator + digitValue c)
      scanDecimals ⟨numerator, denominator⟩ (place + 1) (place + 1) cs
    else if isBlank c then
      scanDecimals f (place + c.utf8Size) (place + c.utf8Size) cs
    else if isUnitLetter c then .ok (f, noted, .letter c cs)
    else .error (.invalidCharacter noted)

def scanUnit : List Char → Nat → List Char → Except SpanFault (List Char × Nat × Next)
  | unit, place, [] => .ok (unit, place, .other [])
  | unit, place, c :: cs =>
    if isDigit c then .ok (unit, place + 1, .digit c cs)
    else if isBlank c then .ok (unit, place + c.utf8Size, .other cs)
    else if isUnitLetter c then scanUnit (unit ++ [c]) (place + c.utf8Size) cs
    else .error (.invalidCharacter place)

def Span.plus (s : Span) (seconds nanos : Nat) : Except SpanFault Span := do
  let nanos ← bounded (s.nanos + nanos)
  let seconds ← bounded (s.seconds + seconds + nanos / 1000000000)
  .ok ⟨seconds, nanos % 1000000000⟩

def exactly (n d : Nat) : Except SpanFault Nat :=
  if n % d = 0 then .ok (n / d) else .error .overflow

def Span.plusFraction (s : Span) (u : TimeUnit) (f : Fraction) : Except SpanFault Span :=
  match u with
  | .nanosecond => .error .overflow
  | .microsecond | .millisecond => do
    s.plus 0 (← exactly (← bounded (f.numerator * u.nanos)) f.denominator)
  | .second | .minute => do
    s.plus 0 (← exactly (← bounded (f.numerator * (u.seconds * 1000000000))) f.denominator)
  | _ => do
    s.plus (← exactly (← bounded (f.numerator * u.seconds)) f.denominator) 0

def Span.plusAmount (s : Span) (n : Nat) (f : Option Fraction) (unit : List Char) :
    Except SpanFault Span := do
  match TimeUnit.ofName? (String.ofList unit) with
  | none => .error (if unit.isEmpty then .unitMissing n else .unitUnknown (String.ofList unit))
  | some u =>
    let s ← if u.isShort then s.plus 0 (← bounded (n * u.nanos))
      else s.plus (← bounded (n * u.seconds)) 0
    match f with
    | none => .ok s
    | some f => s.plusFraction u f

def readAmount (s : Span) (n place : Nat) (cs : List Char) :
    Except SpanFault (Span × Nat × Next) := do
  let (n, place, behind) ← scanWhole n place cs
  let (f, place, behind) ← match behind with
    | .point rest => do
      let (f, place, behind) ← scanDecimals ⟨0, 1⟩ (place + 1) place rest
      if f.denominator = 1 then throw (.invalidCharacter place)
      pure (some f, place, behind)
    | behind => pure (none, place, behind)
  match behind with
  | .letter c rest =>
    let (unit, place, next) ← scanUnit [c] (place + c.utf8Size) rest
    .ok (← s.plusAmount n f unit, place, next)
  | _ => .ok (← s.plusAmount n f [], place, .other [])

/-- The amounts from a number on whose first digit was read, of which there are no more than `fuel`.
-/
def readAmounts : Nat → Span → Nat → Nat → List Char → Except SpanFault Span
  | 0, s, _, _, _ => .ok s
  | fuel + 1, s, n, place, cs => do
    let (s, place, next) ← readAmount s n place cs
    match next with
    | .digit c rest => readAmounts fuel s (digitValue c) place rest
    | .other rest =>
      match ← firstDigit? place rest with
      | none => .ok s
      | some (n, place, rest) => readAmounts fuel s n place rest

/-- Reads a length of time.  The unit of a single zero may be left out. -/
def Span.parse (text : String) : Except SpanFault Span := do
  if text = "0" then return ⟨0, 0⟩
  match ← firstDigit? 0 text.toList with
  | none => .error .empty
  | some (n, place, cs) => readAmounts (cs.length + 1) ⟨0, 0⟩ n place cs

end ClusterAgents.Time
