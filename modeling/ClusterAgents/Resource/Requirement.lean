import ClusterAgents.Document

/-!
# Requirements

A requirement asks for an amount of a resource by its name, either for a whole batch of agents or for
each of them.  Its value is kept as it was written: what it means depends on the scheduler.
-/

namespace ClusterAgents

open Doc

structure Requirement where
  name : String
  /-- Whether the value counts for each agent and not for the whole batch. -/
  scale : Bool
  value : Json
  deriving Repr

namespace Requirement

structure Draft where
  name : Option String := none
  scale : Option Bool := none
  value : Option Json := none

/-- The value of a requirement may nest up to `levels` deep. -/
def shape (origin : Origin) (levels : Nat) : Shape Draft where
  title := "struct ResourceRequirement"
  fields := ["name", "scale", "value"]
  strict := true
  optional := ["scale"]
  set field d draft :=
    match field with
    | "name" => do return { draft with name := some (← d.asText origin) }
    | "scale" => do return { draft with scale := some (← d.asBool origin) }
    | _ => do return { draft with value := some (← d.toJson levels) }

def read (origin : Origin) (levels : Nat) (d : Doc) : Reading Requirement := do
  let draft ← (shape origin levels).read origin {} d
  let name ← required "name" draft.name
  let value ← required "value" draft.value
  return ⟨name, draft.scale.getD false, value⟩

def json (r : Requirement) : String :=
  "\x7b\"name\":" ++ Json.string r.name ++ ",\"scale\":" ++ (if r.scale then "true" else "false") ++
    ",\"value\":" ++ r.value.render ++ "\x7d"

/-- The text of a value that is passed on as it is. -/
def rawValue (r : Requirement) : String :=
  match r.value with
  | .text s => s
  | v => v.render

end Requirement

end ClusterAgents
