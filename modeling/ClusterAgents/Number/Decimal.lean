import ClusterAgents.Number.Binary64
import ClusterAgents.Text.Basic

/-!
# Decimal texts of doubles

* `shortest` — the fewest decimal digits that read back as a double, and of those the nearest ones;
* `jsonText` — the text of a double in a JSON document;
* `plainText` — its text without an exponent;
* `ofDecimal` — the double nearest to a decimal number;
* `ofScaled?` — the double that two roundings give: one of the digits, one of their product with a
  power of ten, which is how JSON documents are read here.
-/

namespace ClusterAgents.Number

open Text

/-- Decimal digits `0.d₁d₂… · 10 ^ point`. -/
structure Digits where
  digits : List Char
  point : Int
  deriving Repr

namespace Decimal

def scaleTen (num den : Nat) (k : Int) : Nat × Nat :=
  if 0 ≤ k then (num * Nat.pow 10 k.toNat, den) else (num, den * Nat.pow 10 (-k).toNat)

def digitCount (n : Nat) : Nat := (Nat.toDigits 10 n).length

/-- The place of the decimal point: `10 ^ (p - 1) ≤ num / den < 10 ^ p`. -/
def pointOf (num den : Nat) : Int :=
  if den ≤ num then digitCount (num / den)
  else
    let c := digitCount (den / num)
    if den ≤ num * Nat.pow 10 (c - 1) then 2 - (c : Int) else 1 - (c : Int)

/-- Whether a decimal number `d · 10 ^ (-k)` reads back as the double `m · 2 ^ e`: it lies between
the middles to the neighbours, and a middle itself belongs to the even mantissa. -/
def readsBack (m : Nat) (e : Int) (d : Nat) (k : Int) : Bool :=
  let (p, q) := Binary64.powerOfTwo (e - 2)
  let low := if m = Nat.pow 2 (Binary64.bits - 1) && Binary64.minExponent < e then 4 * m - 1 else 4 * m - 2
  let high := 4 * m + 2
  -- compare `d / 10 ^ k` with `low · p / q` and `high · p / q`
  let (n, t) := scaleTen d 1 (-k)
  let value := n * q
  let lowest := low * p * t
  let highest := high * p * t
  if m % 2 = 0 then lowest ≤ value && value ≤ highest else lowest < value && value < highest

/-- The neighbours of `num / den` on the grid of `10 ^ (-k)`, the nearer one first, of two equally
near the even one. -/
def neighbours (num den : Nat) (k : Int) : List Nat :=
  let (n, d) := scaleTen num den k
  let below := n / d
  let rest := 2 * (n % d)
  if rest < d || (rest = d && below % 2 = 0) then [below, below + 1] else [below + 1, below]

/-- The first grid, from one digit on, that has a point which reads back. -/
def search (m : Nat) (e : Int) (num den : Nat) (point : Int) : List Nat → Option (Nat × Int)
  | [] => none
  | count :: more =>
    let k := (count : Int) - point
    match (neighbours num den k).find? (fun d => d != 0 && readsBack m e d k) with
    | some d => some (d, k)
    | none => search m e num den point more

def dropZeros (ds : List Char) : List Char := (ds.reverse.dropWhile (· == '0')).reverse

end Decimal

/-- The fewest decimal digits that read back as the absolute value of a double. -/
def Binary64.shortest (d : Binary64) : Digits :=
  if d.mantissa = 0 then ⟨['0'], 1⟩
  else
    let (num, den) := d.ratio
    let point := Decimal.pointOf num den
    match Decimal.search d.mantissa d.exponent num den point (List.range' 1 17) with
    | some (n, k) =>
      let ds := Nat.toDigits 10 n
      ⟨Decimal.dropZeros ds, (ds.length : Int) - k⟩
    | none => ⟨['0'], 1⟩

namespace Digits

def positional (s : Digits) : List Char :=
  if s.point ≤ 0 then
    '0' :: '.' :: List.replicate (-s.point).toNat '0' ++ s.digits
  else
    let n := s.point.toNat
    if s.digits.length ≤ n then
      s.digits ++ List.replicate (n - s.digits.length) '0' ++ ['.', '0']
    else s.digits.take n ++ '.' :: s.digits.drop n

def scientific (s : Digits) : List Char :=
  let e := s.point - 1
  let sign := if e < 0 then '-' else '+'
  (match s.digits with
    | [] => []
    | [d] => [d]
    | d :: ds => d :: '.' :: ds) ++ 'e' :: sign :: Nat.toDigits 10 e.natAbs

end Digits

namespace Binary64

def sign (d : Binary64) : List Char := if d.negative then ['-'] else []

/-- The text of a double in a JSON document: positional from `1e-5` up to below `1e16`. -/
def jsonText (d : Binary64) : String :=
  let s := d.shortest
  let body := if -5 < s.point && s.point ≤ 16 then s.positional else s.scientific
  String.ofList (d.sign ++ body)

def plainText (d : Binary64) : String := String.ofList (d.sign ++ d.shortest.positional)

/-- The double nearest to `± digits · 10 ^ exponent`.  What exceeds all of them is infinite. -/
def ofDecimal (negative : Bool) (digits : Nat) (exponent : Int) : Real64 :=
  if digits = 0 then .finite (zero negative)
  else
    let top := (Decimal.digitCount digits : Int) + exponent
    if 400 < top then .infinite negative
    else if top < -400 then .finite (zero negative)
    else
      let (num, den) := Decimal.scaleTen digits 1 exponent
      match ofRatio? negative num den with
      | some d => .finite d
      | none => .infinite negative

/-- Scales by a power of ten, `10 ^ 308` at a time and rounding each time; none where the result
would be infinite.  A quotient that has become zero stays zero. -/
def scaled? (d : Binary64) (exponent : Int) : Option Binary64 :=
  if exponent.natAbs ≤ 308 then do
    let power ← ofRatio? false (Nat.pow 10 exponent.natAbs) 1
    if 0 ≤ exponent then d.mul? power else d.div? power
  else if d.mantissa = 0 then some d
  else if 0 ≤ exponent then none
  else do
    let power ← ofRatio? false (Nat.pow 10 308) 1
    let d ← d.div? power
    d.scaled? (exponent + 308)
termination_by exponent.natAbs
decreasing_by omega

/-- The double of `± digits · 10 ^ exponent`: the digits are rounded first, then their product with
the power of ten. -/
def ofScaled? (negative : Bool) (digits : Nat) (exponent : Int) : Option Binary64 := do
  let d ← ofRatio? false digits 1
  let d ← d.scaled? exponent
  some { d with negative := negative }

end Binary64

end ClusterAgents.Number
