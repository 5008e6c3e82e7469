import ClusterAgents.Error
import ClusterAgents.Schema.Version

/-!
# The schema gate

Persistent data has a version.  A `Store` knows the version of what it holds and can recreate it; a
`Gate` lets an operation reach the data only if that version serves the one required.  Only a reset
passes the gate unchecked.
-/

namespace ClusterAgents.Schema

/-- How the version of persistent data of type `σ` is found out and set. -/
structure Store (σ : Type) where
  /-- There is no version as long as nothing is installed. -/
  installed : σ → Outcome (Option Version)
  /-- Destroys the data and installs a version anew. -/
  recreate : Version → σ → Outcome Unit × σ

structure Gate (σ : Type) where
  store : Store σ
  required : Version

namespace Gate

variable {σ α : Type}

/-- Data that is not installed never serves. -/
def isCompatible (g : Gate σ) (data : σ) : Outcome Bool := do
  match ← g.store.installed data with
  | some v => .ok (v.isCompatible g.required)
  | none => .ok false

def versionText : Option Version → String
  | some v => v.text
  | none => "<none>"

def check (g : Gate σ) (data : σ) : Outcome Unit := do
  let installed ← g.store.installed data
  if (installed.map (·.isCompatible g.required)).getD false then .ok ()
  else .error (.schemaIncompatible (versionText installed) g.required.text)

/-- Runs an operation on the data if they serve. -/
def guard (g : Gate σ) (operation : σ → Outcome α × σ) (data : σ) : Outcome α × σ :=
  match g.check data with
  | .ok () => operation data
  | .error e => (.error e, data)

def reset (g : Gate σ) (data : σ) : Outcome Unit × σ := g.store.recreate g.required data

end Gate

end ClusterAgents.Schema
