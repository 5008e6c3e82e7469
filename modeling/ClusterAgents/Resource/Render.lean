import ClusterAgents.Resource.Basic

/-!
# Requirements resolved for a batch

* `Requirement.render` — a requirement becomes a pair of texts; a resource that the table does not
  know is passed on as it was written;
* `renderAll` — all requirements of a batch, in their order, or the first fault;
* `checkAll` — whether the values of all known resources can be read;
* `walltime?` — the time limit among the requirements, never scaled.
-/

namespace ClusterAgents

structure Rendered where
  name : String
  value : String
  deriving DecidableEq, Repr

namespace Requirement

def render (table : ResourceTable) (batchSize : Nat) (r : Requirement) : Outcome Rendered :=
  match table.get? r.name with
  | some resource => do
    let value ← resource.render batchSize r.scale r.value
    .ok ⟨r.name, value⟩
  | none => .ok ⟨r.name, r.rawValue⟩

/-- Resolves requirements for a batch that is not empty. -/
def renderAll (table : ResourceTable) (batchSize : Nat) (rs : List Requirement) :
    Outcome (List Rendered) :=
  if batchSize = 0 then .error (.format .emptyBatch) else rs.mapM (render table batchSize)

def check (table : ResourceTable) (r : Requirement) : Outcome Unit :=
  match table.get? r.name with
  | some resource => do
    let _ ← resource.parse r.value
    .ok ()
  | none => .ok ()

def checkAll (table : ResourceTable) (rs : List Requirement) : Outcome Unit :=
  rs.forM (check table)

/-- The time limit: what the first requirement of that name asks for. -/
def walltime? (table : ResourceTable) (name : String) (rs : List Requirement) :
    Outcome (Option Nat) :=
  match rs.find? (·.name == name) with
  | none => .ok none
  | some r =>
    match table.get? name with
    | some resource => some <$> resource.parse r.value
    | none => some <$> amountOf r.value

end Requirement

end ClusterAgents
