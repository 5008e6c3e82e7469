import ClusterAgents.Document
import ClusterAgents.Time.Stamp
import ClusterAgents.Toml.Text

/-!
# Words of TOML texts

Whole numbers, doubles, truth values, dates and times are words without quotes; `scalar?` takes the
word at the front of a text and finds out which of them it is.  A moment is kept as a text, in one form
for each meaning (`moment?`).
-/

namespace ClusterAgents.Toml

open Number Text

/-! ### numbers -/

/-- Digits with single underscores between them, without the underscores. -/
def digits? (isDigit : Char → Bool) : List Char → Option (List Char)
  | [] => none
  | [c] => if isDigit c then some [c] else none
  | c :: '_' :: rest => if isDigit c then (digits? isDigit rest).map (c :: ·) else none
  | c :: rest => if isDigit c then (digits? isDigit rest).map (c :: ·) else none

/-- In base 10 only zero itself begins with a zero. -/
def plainDigits? (cs : List Char) : Option (List Char) := do
  let ds ← digits? isDigit cs
  if ds.head? = some '0' && 1 < cs.length then none else some ds

def sign : List Char → Bool × List Char
  | '-' :: rest => (true, rest)
  | '+' :: rest => (false, rest)
  | cs => (false, cs)

def isDigitBelow (base : Nat) (c : Char) : Bool := isDigit c && digitValue c < base

def valueIn (base : Nat) (ds : List Char) : Int :=
  ds.foldl (fun n c => base * n + ((hexValue? c).getD 0 : Nat)) 0

/-- A whole number: in base 10 with a sign or none, or in base 16, 8 or 2 behind `0x`, `0o` or `0b`.
-/
def whole? : List Char → Option Int
  | '0' :: 'x' :: ds => (digits? (fun c => (hexValue? c).isSome) ds).map (valueIn 16)
  | '0' :: 'o' :: ds => (digits? (isDigitBelow 8) ds).map (valueIn 8)
  | '0' :: 'b' :: ds => (digits? (isDigitBelow 2) ds).map (valueIn 2)
  | cs => do
    let (negative, cs) := sign cs
    let n := valueIn 10 (← plainDigits? cs)
    some (if negative then -n else n)

def realDoc (negative : Bool) (digits : Nat) (exponent : Int) : Doc :=
  match Binary64.ofDecimal negative digits exponent with
  | .finite d => .real (.finite d)
  | _ => .unfit (some (.other "floating-point number overflowed"))

def exponent? (cs : List Char) : Option Int := do
  let (negative, cs) := sign cs
  let n := valueIn 10 (← digits? isDigit cs)
  some (if negative then -n else n)

/-- A double: a whole number with a fraction, an exponent or both; or a word. -/
def real? (cs : List Char) : Option Doc := do
  let (negative, cs) := sign cs
  if cs = ['i', 'n', 'f'] then some (.real (.infinite negative))
  else if cs = ['n', 'a', 'n'] then some (.real .nan)
  else
    let inMantissa (c : Char) : Bool := c != 'e' && c != 'E'
    let mantissa := cs.takeWhile inMantissa
    let front ← plainDigits? (mantissa.takeWhile (· != '.'))
    let fraction ← match mantissa.dropWhile (· != '.') with
      | [] => some []
      | _ :: ds => digits? isDigit ds
    let exponent ← match cs.dropWhile inMantissa with
      | [] => some 0
      | _ :: ds => exponent? ds
    some (realDoc negative (digitsValue (front ++ fraction)) (exponent - fraction.length))

/-! ### moments -/

def fixed? (width : Nat) (cs : List Char) : Option (Nat × List Char) :=
  let ds := cs.take width
  if ds.length = width && ds.all isDigit then some (digitsValue ds, cs.drop width) else none

def marked? (mark : Char) (width : Nat) : List Char → Option (Nat × List Char)
  | [] => none
  | c :: cs => if c = mark then fixed? width cs else none

def date? (cs : List Char) : Option (String × List Char) := do
  let (year, cs) ← fixed? 4 cs
  let (month, cs) ← marked? '-' 2 cs
  let (day, cs) ← marked? '-' 2 cs
  if 1 ≤ month && month ≤ 12 && 1 ≤ day && day ≤ Time.daysInMonth year month then
    some (pad 4 year ++ "-" ++ pad 2 month ++ "-" ++ pad 2 day, cs)
  else none

def fractionText (ds : List Char) : String :=
  let ds := ((ds.take 9).reverse.dropWhile (· == '0')).reverse
  if ds.isEmpty then "" else "." ++ String.ofList ds

/-- The seconds of a time of day, which may be left out, and their fraction. -/
def seconds? : List Char → Option (String × List Char)
  | ':' :: cs => do
    let (second, cs) ← fixed? 2 cs
    let (fraction, cs) ← match cs with
      | '.' :: cs =>
        let ds := cs.takeWhile isDigit
        if ds.isEmpty then none else some (fractionText ds, cs.dropWhile isDigit)
      | cs => some ("", cs)
    if second ≤ 60 then some (pad 2 second ++ fraction, cs) else none
  | cs => some ("00", cs)

def time? (cs : List Char) : Option (String × List Char) := do
  let (hour, cs) ← fixed? 2 cs
  let (minute, cs) ← marked? ':' 2 cs
  let (second, cs) ← seconds? cs
  if hour ≤ 23 && minute ≤ 59 then some (pad 2 hour ++ ":" ++ pad 2 minute ++ ":" ++ second, cs)
  else none

/-- An offset from universal time, as a text.  No offset at all is allowed as well. -/
def offset? : List Char → Option String
  | [] => some ""
  | [c] => if c = 'Z' || c = 'z' then some "Z" else none
  | c :: cs => do
    let (hours, cs) ← fixed? 2 cs
    let (minutes, cs) ← marked? ':' 2 cs
    if (c = '+' || c = '-') && hours ≤ 23 && minutes ≤ 59 && cs.isEmpty then
      let mark := if c = '-' && 0 < hours + minutes then "-" else "+"
      some (mark ++ pad 2 hours ++ ":" ++ pad 2 minutes)
    else none

def isSeparator (c : Char) : Bool := c == 'T' || c == 't' || c == ' '

/-- A date, a time of day, or both with an offset or none: the text of the one form it has. -/
def moment? (cs : List Char) : Option String :=
  match date? cs with
  | none => do
    let (time, cs) ← time? cs
    if cs.isEmpty then some time else none
  | some (date, []) => some date
  | some (date, c :: cs) => do
    if isSeparator c then
      let (time, cs) ← time? cs
      let offset ← offset? cs
      some (date ++ "T" ++ time ++ offset)
    else none

/-! ### words -/

def inWord (c : Char) : Bool := c.isAlphanum || c == '_' || c == '+' || c == '-' || c == '.' || c == ':'

/-- The word at the front of a text.  A date and the time of day behind a blank are one word. -/
def word (cs : List Char) : List Char :=
  let front := cs.takeWhile inWord
  match cs.drop front.length with
  | ' ' :: c :: rest =>
    if isDigit c && (date? front).any (·.2.isEmpty) then
      front ++ ' ' :: (c :: rest).takeWhile inWord
    else front
  | _ => front

def ofWord? (w : List Char) : Option Doc :=
  if w = ['t', 'r', 'u', 'e'] then some (.bool true)
  else if w = ['f', 'a', 'l', 's', 'e'] then some (.bool false)
  else
    match whole? w with
    | some n => some (.whole n)
    | none =>
      match real? w with
      | some d => some d
      | none => (moment? w).map .moment

def scalar? (cs : List Char) : Option (Doc × List Char) :=
  let w := word cs
  (ofWord? w).map (·, cs.drop w.length)

end ClusterAgents.Toml
