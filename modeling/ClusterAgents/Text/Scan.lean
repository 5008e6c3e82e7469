import ClusterAgents.Error

/-!
# Numbers at the front of a text

* `Scan.whole` — takes the whole number at the front of a text;
* `Scan.triplet` — takes three whole numbers with a point between them, and nothing behind them;
* `firstDigits?` — the first run of digits in a line, which `jobId?` looks for on the first line of
  what a scheduler prints.
-/

namespace ClusterAgents.Text

namespace Scan

/-- A scan takes something from the front of a text and leaves the rest. -/
abbrev Step (α : Type) := List Char → Except ScanFault (α × List Char)

def whole : Step Nat := fun cs =>
  let ds := cs.takeWhile isDigit
  if ds.isEmpty then .error (.unmet .digit (String.ofList cs))
  else if digitsValue ds ≤ wholeLimit then .ok (digitsValue ds, cs.dropWhile isDigit)
  else .error (.tooLarge (String.ofList cs))

def char (c : Char) : Step Unit
  | d :: rest => if d = c then .ok ((), rest) else .error (.unmet .char (String.ofList (d :: rest)))
  | [] => .error (.unmet .char "")

/-- Three whole numbers with a point between them.  Nothing may follow. -/
def triplet (cs : List Char) : Except ScanFault (Nat × Nat × Nat) := do
  let (a, cs) ← whole cs
  let (_, cs) ← char '.' cs
  let (b, cs) ← whole cs
  let (_, cs) ← char '.' cs
  let (c, cs) ← whole cs
  if cs.isEmpty then .ok (a, b, c) else .error (.unmet .eof (String.ofList cs))

end Scan

def firstDigits? (cs : List Char) : Option (List Char) :=
  let ds := (cs.dropWhile (!isDigit ·)).takeWhile isDigit
  if ds.isEmpty then none else some ds

/-- The id that a scheduler printed for a new job: the first run of digits on the first line. -/
def jobId? (output : String) : Option String := do
  let line ← firstLine? output
  (firstDigits? line.toList).map String.ofList

end ClusterAgents.Text
