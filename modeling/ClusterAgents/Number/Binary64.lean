/-!
# Doubles as numbers

A finite double is `± mantissa · 2 ^ exponent`.  All that is done to it here is done on its mantissa
and its exponent, in exact whole-number arithmetic:

* `ofRatio?` — the double nearest to a quotient, of two equally near the one with an even mantissa;
* `mul?`, `div?` — products and quotients, rounded the same way;
* `wholeValue?` — the whole number a double stands for, if it stands for one.
-/

namespace ClusterAgents.Number

/-- A finite double, `± mantissa · 2 ^ exponent`.  The functions of this module build it in its
canonical form: the mantissa has 53 bits, or fewer and the least exponent. -/
structure Binary64 where
  negative : Bool
  mantissa : Nat
  exponent : Int
  deriving DecidableEq, Repr

namespace Binary64

def bits : Nat := 53

def minExponent : Int := -1074

def maxExponent : Int := 971

def zero (negative : Bool) : Binary64 := ⟨negative, 0, minExponent⟩

/-- A whole power of two as a quotient. -/
def powerOfTwo (e : Int) : Nat × Nat := if 0 ≤ e then (Nat.pow 2 e.toNat, 1) else (1, Nat.pow 2 (-e).toNat)

/-- The quotient `num / den` in units of `2 ^ e`, rounded to the nearest whole number, a half to the
even one. -/
def roundedQuotient (num den : Nat) (e : Int) : Nat :=
  let (p, q) := powerOfTwo e
  let n := num * q
  let d := den * p
  let whole := n / d
  let rest := 2 * (n % d)
  if rest < d then whole
  else if d < rest then whole + 1
  else whole + whole % 2

/-- The exponent in which `num / den` has a mantissa of 53 bits. -/
def exponentOf (num den : Nat) : Int :=
  let e : Int := (num.log2 : Int) - (den.log2 : Int) - 53
  let (p, q) := powerOfTwo (e + 53)
  let e := if den * p ≤ num * q then e + 1 else e
  if e < minExponent then minExponent else e

/-- The double nearest to `num / den`, or none if that is beyond the greatest one. -/
def ofRatio? (negative : Bool) (num den : Nat) : Option Binary64 :=
  if num = 0 then some (zero negative)
  else
    let e := exponentOf num den
    let m := roundedQuotient num den e
    let (m, e) := if m = Nat.pow 2 bits then (Nat.pow 2 (bits - 1), e + 1) else (m, e)
    if maxExponent < e then none else some ⟨negative, m, e⟩

def ratio (d : Binary64) : Nat × Nat :=
  let (p, q) := powerOfTwo d.exponent
  (d.mantissa * p, q)

def mul? (a b : Binary64) : Option Binary64 :=
  let (n₁, d₁) := a.ratio
  let (n₂, d₂) := b.ratio
  ofRatio? (a.negative != b.negative) (n₁ * n₂) (d₁ * d₂)

def div? (a b : Binary64) : Option Binary64 :=
  let (n₁, d₁) := a.ratio
  let (n₂, d₂) := b.ratio
  ofRatio? (a.negative != b.negative) (n₁ * d₂) (d₁ * n₂)

/-- The absolute value, if it is a whole number. -/
def wholeValue? (d : Binary64) : Option Nat :=
  let (n, q) := d.ratio
  if n % q = 0 then some (n / q) else none

end Binary64

/-- A double that may also be infinite or no number at all. -/
inductive Real64
  | finite (value : Binary64)
  | infinite (negative : Bool)
  | nan
  deriving DecidableEq, Repr

end ClusterAgents.Number
