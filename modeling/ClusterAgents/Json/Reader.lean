import ClusterAgents.Document

/-!
# Reading JSON texts

`Doc.ofJsonText` reads a text as far as it makes sense: the `Doc` it answers is broken off at the
first place that no JSON text could continue.  Numbers without fraction and exponent are whole if 64
bits hold them; `-0` and all others are doubles (`numberDoc`).
-/

namespace ClusterAgents

open Number Text

namespace Json.Reader

def isGap (c : Char) : Bool := c == ' ' || c == '\n' || c == '\t' || c == '\r'

def skipGap (cs : List Char) : List Char := cs.dropWhile isGap

/-! ### numbers -/

/-- Appends digits to a number as long as it stays within `wholeLimit`.  Answers the number, how
many digits were appended, and how many were not. -/
def appendDigits : Nat → List Char → Nat × Nat × Nat
  | n, [] => (n, 0, 0)
  | n, d :: ds =>
    if 10 * n + digitValue d ≤ wholeLimit then
      let (m, taken, left) := appendDigits (10 * n + digitValue d) ds
      (m, taken + 1, left)
    else (n, 0, ds.length + 1)

/-- The parts of a number: digits in front of the point, behind it, and the exponent. -/
structure Parts where
  negative : Bool
  front : List Char
  fraction : Option (List Char)
  exponent : Option Int

/-- A double beyond the greatest one cannot be held. -/
def numberDoc (p : Parts) : Doc :=
  let (n, _, left) := appendDigits 0 p.front
  let double (digits : Nat) (exponent : Int) : Doc :=
    match Binary64.ofScaled? p.negative digits exponent with
    | some d => .real (.finite d)
    | none => .unfit none
  match p.fraction, p.exponent with
  | none, none =>
    if left = 0 then
      if !p.negative then .whole n
      else if 0 < n && n ≤ bitRange 63 then .whole (-(n : Int))
      else double n 0
    else double n left
  | fraction, exponent =>
    let (n, behind, _) := appendDigits n (fraction.getD [])
    double n ((left : Int) - behind + exponent.getD 0)

def readExponent (cs : List Char) : Option (Int × List Char) :=
  let (negative, cs) := match cs with
    | '+' :: rest => (false, rest)
    | '-' :: rest => (true, rest)
    | rest => (false, rest)
  let ds := cs.takeWhile isDigit
  if ds.isEmpty then none
  else
    let e : Int := digitsValue ds
    some (if negative then -e else e, cs.dropWhile isDigit)

def readExponent? (cs : List Char) : Option (Option Int × List Char) :=
  match cs with
  | 'e' :: rest => do
    let (e, cs) ← readExponent rest
    some (some e, cs)
  | 'E' :: rest => do
    let (e, cs) ← readExponent rest
    some (some e, cs)
  | cs => some (none, cs)

def readFraction? (cs : List Char) : Option (Option (List Char) × List Char) :=
  match cs with
  | '.' :: rest =>
    let ds := rest.takeWhile isDigit
    if ds.isEmpty then none else some (some ds, rest.dropWhile isDigit)
  | cs => some (none, cs)

/-- No digit may follow a leading zero. -/
def readNumber (cs : List Char) : Doc × List Char :=
  let (negative, cs) := match cs with
    | '-' :: rest => (true, rest)
    | rest => (false, rest)
  let front := cs.takeWhile isDigit
  if front.isEmpty || (front.head? = some '0' && 1 < front.length) then (.broken, [])
  else
    match readFraction? (cs.dropWhile isDigit) with
    | none => (.broken, [])
    | some (fraction, cs) =>
      match readExponent? cs with
      | none => (.broken, [])
      | some (exponent, cs) => (numberDoc ⟨negative, front, fraction, exponent⟩, cs)

/-! ### strings -/

def readUnit : List Char → Option (Nat × List Char)
  | a :: b :: c :: d :: rest => (hexNumber? [a, b, c, d]).map (·, rest)
  | _ => none

/-- The character behind `\u`: one code unit, or two for the characters beyond the first plane.
Half of such a pair is no character. -/
def readCodePoint (cs : List Char) : Option (Option Char × List Char) := do
  let (high, rest) ← readUnit cs
  if 0xDC00 ≤ high && high ≤ 0xDFFF then some (none, rest)
  else if 0xD800 ≤ high && high ≤ 0xDBFF then
    match rest with
    | '\\' :: 'u' :: more => do
      let (low, more) ← readUnit more
      if 0xDC00 ≤ low && low ≤ 0xDFFF then
        some (some (Char.ofNat (0x10000 + (high - 0xD800) * 0x400 + (low - 0xDC00))), more)
      else some (none, rest)
    | _ => some (none, rest)
  else some (some (Char.ofNat high), rest)

def escaped? (c : Char) : Option Char :=
  if c = '"' || c = '\\' || c = '/' then some c
  else if c = 'b' then some (Char.ofNat 8)
  else if c = 'f' then some (Char.ofNat 12)
  else if c = 'n' then some '\n'
  else if c = 'r' then some '\r'
  else if c = 't' then some '\t'
  else none

/-- The rest of a string behind its opening quote, read in at most `fuel` steps.  `fit` holds as
long as there was no half of a character. -/
def readString : Nat → Bool → List Char → List Char → Option (Bool × List Char × List Char)
  | 0, _, _, _ => none
  | _ + 1, _, _, [] => none
  | fuel + 1, fit, done, c :: cs =>
    if c = '"' then some (fit, done.reverse, cs)
    else if c = '\\' then
      match cs with
      | 'u' :: cs =>
        match readCodePoint cs with
        | some (some c, cs) => readString fuel fit (c :: done) cs
        | some (none, cs) => readString fuel false done cs
        | none => none
      | e :: cs =>
        match escaped? e with
        | some c => readString fuel fit (c :: done) cs
        | none => none
      | [] => none
    else if c.toNat < 0x20 then none
    else readString fuel fit (c :: done) cs

def string? (cs : List Char) : Option (Doc × List Char) :=
  (readString (cs.length + 1) true [] cs).map fun (fit, s, rest) =>
    (if fit then .text (String.ofList s) else .unfit none, rest)

/-! ### values -/

def dropWord? : List Char → List Char → Option (List Char)
  | [], cs => some cs
  | w :: ws, c :: cs => if w = c then dropWord? ws cs else none
  | _ :: _, [] => none

def readWord (word : String) (d : Doc) (cs : List Char) : Doc × List Char :=
  match dropWord? word.toList cs with
  | some rest => (d, rest)
  | none => (.broken, [])

mutual

/-- A value and the text behind it. -/
def readValue : Nat → List Char → Doc × List Char
  | 0, _ => (.broken, [])
  | fuel + 1, cs =>
    match skipGap cs with
    | [] => (.broken, [])
    | '"' :: rest =>
      match string? rest with
      | some (d, rest) => (d, rest)
      | none => (.broken, [])
    | '[' :: rest =>
      let (items, closed, rest) := readItems fuel true rest
      (.list items closed, rest)
    | '\x7b' :: rest =>
      let (entries, closed, rest) := readEntries fuel true rest
      (.table entries closed, rest)
    | c :: rest =>
      if c = 'n' then readWord "null" .null (c :: rest)
      else if c = 't' then readWord "true" (.bool true) (c :: rest)
      else if c = 'f' then readWord "false" (.bool false) (c :: rest)
      else if c = '-' || isDigit c then readNumber (c :: rest)
      else (.broken, [])

/-- The items of a list behind its bracket.  `first` holds as long as there is none. -/
def readItems : Nat → Bool → List Char → List Doc × Bool × List Char
  | 0, _, _ => ([], false, [])
  | fuel + 1, first, cs =>
    match skipGap cs with
    | ']' :: rest => ([], true, rest)
    | ',' :: rest =>
      if first then ([.broken], false, [])
      else
        match skipGap rest with
        | ']' :: _ => ([], false, [])
        | rest =>
          let (d, rest) := readValue fuel rest
          let (ds, closed, rest) := readItems fuel false rest
          (d :: ds, closed, rest)
    | [] => ([], false, [])
    | rest =>
      if first then
        let (d, rest) := readValue fuel rest
        let (ds, closed, rest) := readItems fuel false rest
        (d :: ds, closed, rest)
      else ([], false, [])

def readEntries : Nat → Bool → List Char → List (String × Doc) × Bool × List Char
  | 0, _, _ => ([], false, [])
  | fuel + 1, first, cs =>
    match skipGap cs with
    | '\x7d' :: rest => ([], true, rest)
    | ',' :: rest => if first then ([], false, []) else readEntry fuel (skipGap rest)
    | rest => if first then readEntry fuel rest else ([], false, [])

def readEntry : Nat → List Char → List (String × Doc) × Bool × List Char
  | 0, _ => ([], false, [])
  | fuel + 1, cs =>
    match cs with
    | '"' :: rest =>
      match string? rest with
      | some (.text name, rest) =>
        match skipGap rest with
        | ':' :: rest =>
          let (d, rest) := readValue fuel rest
          let (ds, closed, rest) := readEntries fuel false rest
          ((name, d) :: ds, closed, rest)
        | _ => ([(name, .broken)], false, [])
      | _ => ([], false, [])
    | _ => ([], false, [])

end

end Json.Reader

/-- A JSON text as a document, and whether nothing but blanks follows it. -/
def Doc.ofJsonText (s : String) : Doc × Bool :=
  let cs := s.toList
  let (d, rest) := Json.Reader.readValue (2 * cs.length + 2) cs
  (d, (Json.Reader.skipGap rest).isEmpty)

/-- How deep a JSON text may nest. -/
def Doc.jsonLevels : Nat := 127

def Doc.readJsonText {α : Type} (read : Doc → Doc.Reading α) (s : String) : Doc.Reading α := do
  let (d, complete) := Doc.ofJsonText s
  let a ← read d
  if complete then .ok a else .error .broken

def Json.parse? (s : String) : Option Json :=
  (Doc.readJsonText (Doc.toJson Doc.jsonLevels) s).toOption

end ClusterAgents
