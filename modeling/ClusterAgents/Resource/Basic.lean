import ClusterAgents.Resource.Requirement
import ClusterAgents.Time.Clock

/-!
# Resources

A resource says how the amounts of one kind of request are read, checked, scaled and written:

* `amountOf` — the whole number that a value stands for;
* `Resource.parse` — the amount that a value asks for, if it is large enough for its kind;
* `Resource.batchAmount` — the amount for a batch of agents, in the unit it is written in;
* `Resource.format` — its text.

A `ResourceTable` holds the resources that a scheduler knows.
-/

namespace ClusterAgents

open Number Text

inductive ResourceKind
  | count
  /-- Given in bytes, and written in units of 1000 bytes. -/
  | memory
  /-- Given in seconds, and written as `HH:MM:SS`. -/
  | duration
  deriving DecidableEq, Repr

structure Resource where
  name : String
  kind : ResourceKind
  /-- Whether amounts may be multiplied by the number of agents. -/
  scales : Bool
  unit : String := ""
  deriving DecidableEq, Repr

/-- The whole number that a value stands for: a whole number, a double without a fraction, or a text
that holds a whole number between blanks.  What exceeds `wholeLimit` by rounding alone counts as
`wholeLimit`. -/
def amountOf : Json → Outcome Nat
  | .whole n =>
    if 0 ≤ n && n ≤ (wholeLimit : Int) then .ok n.toNat
    else .error (.format (.notWhole (Json.wholeText n)))
  | .real d =>
    let refused := Error.format (.notWhole d.jsonText)
    match d.wholeValue? with
    | some n =>
      if (d.negative && n != 0) || wholeLimit + 1 < n then .error refused
      else .ok (min n wholeLimit)
    | none => .error refused
  | .text s =>
    match wholeOfText? (trim s) with
    | some n => .ok n
    | none => .error (.format (.notWhole (quoted s)))
  | v => .error (.format (.notNumber v.render))

namespace Resource

def count (name : String) : Resource := ⟨name, .count, true, ""⟩

def memory (name unit : String) : Resource := ⟨name, .memory, true, unit⟩

def duration (name : String) : Resource := ⟨name, .duration, false, ""⟩

/-- The same resource, never multiplied by the number of agents. -/
def fixed (r : Resource) : Resource := { r with scales := false }

/-- The least amount that may be asked for.  Less than one unit of memory would be written as zero,
which schedulers take for all the memory there is. -/
def leastAmount (r : Resource) : Nat := if r.kind = .memory then 1000 else 1

def parse (r : Resource) (value : Json) : Outcome Nat := do
  let amount ← amountOf value
  if r.leastAmount ≤ amount then .ok amount
  else .error (.format (.amountRefused amount r.name))

def inUnits (r : Resource) (total : Nat) : Nat := if r.kind = .memory then total / 1000 else total

def multiplier (r : Resource) (batchSize : Nat) (scale : Bool) : Nat :=
  if scale && r.scales then batchSize else 1

/-- The amount to ask for on behalf of a whole batch. -/
def batchAmount (r : Resource) (batchSize : Nat) (scale : Bool) (amount : Nat) : Outcome Nat :=
  let total := amount * r.multiplier batchSize scale
  if total ≤ wholeLimit then .ok (r.inUnits total)
  else .error (.format (.amountOverflow r.name batchSize))

def format (r : Resource) (amount : Nat) : String :=
  match r.kind with
  | .duration => Time.hms amount
  | _ => decimal amount ++ r.unit

def render (r : Resource) (batchSize : Nat) (scale : Bool) (value : Json) : Outcome String := do
  let amount ← r.parse value
  let amount ← r.batchAmount batchSize scale amount
  .ok (r.format amount)

end Resource

/-- The resources that a scheduler knows, at most one of each name. -/
structure ResourceTable where
  entries : List Resource
  deriving Repr

namespace ResourceTable

def insert (t : ResourceTable) (r : Resource) : ResourceTable :=
  ⟨t.entries.filter (·.name != r.name) ++ [r]⟩

/-- The last resource of each name counts. -/
def ofList (rs : List Resource) : ResourceTable := rs.foldl insert ⟨[]⟩

def get? (t : ResourceTable) (name : String) : Option Resource :=
  t.entries.find? (·.name == name)

def size (t : ResourceTable) : Nat := t.entries.length

end ResourceTable

end ClusterAgents
