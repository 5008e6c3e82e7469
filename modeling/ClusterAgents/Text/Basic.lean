/-!
# Blanks, lines and digits

* `isBlank` — the characters with the Unicode property White_Space;
* `trim` — a text without the blanks on either side;
* `firstLine?` — the first line of an output, without its line end;
* `wholeLimit` — the largest quantity, which 64 bits hold;
* `digitsValue` — the number a run of digits stands for;
* `wholeOfText?` — the reading of a whole number: a sign `+` or none, one or more digits, and no more
  than `wholeLimit`;
* `hexValue?`, `hexNumber?` — the same in base 16, for digits of either case;
* `pad`, `padHex` — a number with a least number of digits.
-/

namespace ClusterAgents.Text

/-! ### blanks and lines -/

/-- The characters with the property White_Space; U+200B and U+FEFF are not among them. -/
def isBlank (c : Char) : Bool :=
  let n := c.toNat
  (9 ≤ n && n ≤ 13) || n == 0x20 || n == 0x85 || n == 0xA0 || n == 0x1680 ||
    (0x2000 ≤ n && n ≤ 0x200A) || n == 0x2028 || n == 0x2029 || n == 0x202F || n == 0x205F ||
    n == 0x3000

def trimStart (cs : List Char) : List Char := cs.dropWhile isBlank

def trimEnd (cs : List Char) : List Char := (trimStart cs.reverse).reverse

def trim (s : String) : String := String.ofList (trimEnd (trimStart s.toList))

/-- A line end may be written `\r\n`: the `\r` belongs to it. -/
def dropReturn (cs : List Char) : List Char :=
  if cs.getLast? = some '\r' then cs.dropLast else cs

/-- The first line of a text, without its line end.  The empty text has no line.  A `\r` belongs to
the line end only in front of a `\n`. -/
def firstLine? (s : String) : Option String :=
  if s.isEmpty then none
  else
    let cs := s.toList
    let line := cs.takeWhile (· != '\n')
    some (String.ofList (if line.length < cs.length then dropReturn line else line))

/-! ### digits -/

def bitRange (bits : Nat) : Nat := Nat.pow 2 bits

/-- The largest whole number that a quantity can hold. -/
def wholeLimit : Nat := bitRange 64 - 1

def isDigit (c : Char) : Bool := '0' ≤ c && c ≤ '9'

def digitValue (c : Char) : Nat := c.toNat - 48

def digitsValue (ds : List Char) : Nat := ds.foldl (fun n c => 10 * n + digitValue c) 0

/-- A whole number: one or more digits, no more than `wholeLimit`. -/
def wholeOfDigits? (ds : List Char) : Option Nat :=
  if ds.isEmpty || !ds.all isDigit then none
  else if digitsValue ds ≤ wholeLimit then some (digitsValue ds) else none

def wholeOfChars? : List Char → Option Nat
  | '+' :: ds => wholeOfDigits? ds
  | ds => wholeOfDigits? ds

/-- A sign `+` or none, a whole number, and nothing around it. -/
def wholeOfText? (s : String) : Option Nat := wholeOfChars? s.toList

def hexValue? (c : Char) : Option Nat :=
  if isDigit c then some (digitValue c)
  else if 'a' ≤ c && c ≤ 'f' then some (c.toNat - 'a'.toNat + 10)
  else if 'A' ≤ c && c ≤ 'F' then some (c.toNat - 'A'.toNat + 10)
  else none

def hexNumber? (ds : List Char) : Option Nat :=
  ds.foldlM (fun n c => (hexValue? c).map (16 * n + ·)) 0

def decimal (n : Nat) : String := toString n

def hex (n : Nat) : List Char := Nat.toDigits 16 n

def padHex (width n : Nat) : List Char :=
  List.replicate (width - (hex n).length) '0' ++ hex n

def pad (width n : Nat) : String :=
  String.ofList (List.replicate (width - (decimal n).length) '0') ++ decimal n

end ClusterAgents.Text
