import ClusterAgents.Agent
import ClusterAgents.Document
import ClusterAgents.Time.Stamp

/-!
# Jobs

A `Job` is a batch of agents that the scheduler runs under one id.  A `JobRecord` is a job as it is
written down, with the time of its submission; `JobRecord.read` and `JobRecord.json` are its form as a
document.
-/

namespace ClusterAgents

open Doc

abbrev JobId := String

/-- Batches are numbered as they are taken.  No bound is kept here: a counter of 64 bits would end at
`2 ^ 64 - 1`, which no run reaches. -/
abbrev BatchId := Nat

inductive JobStatus
  | active
  /-- A cancel command for the job is in progress. -/
  | killing
  deriving DecidableEq, Repr

/-- The agents stand in the order in which they were submitted. -/
structure Job where
  id : JobId
  batch : BatchId
  agents : List AgentId
  status : JobStatus
  workingDir : String
  deriving DecidableEq, Repr

/-- A job and the time of its submission. -/
structure JobRecord extends Job where
  submitted : Time.Stamp
  deriving DecidableEq, Repr

namespace JobStatus

def name : JobStatus → String
  | .active => "Active"
  | .killing => "Killing"

def read (origin : Origin) (d : Doc) : Reading JobStatus := do
  let name ← d.asChoice origin [name .active, name .killing]
  return if name = JobStatus.name .active then .active else .killing

end JobStatus

def AgentId.read (origin : Origin) (d : Doc) : Reading AgentId := do
  let s ← d.asText origin "a UUID string"
  match AgentId.parse s with
  | .ok a => .ok a
  | .error cause => fail (.other ("UUID parsing failed: " ++ cause))

def Time.Stamp.read (origin : Origin) (d : Doc) : Reading Time.Stamp := do
  let s ← d.asText origin "an RFC 3339 formatted date and time string"
  match Time.Stamp.parse s with
  | .ok t => .ok t
  | .error cause => fail (.other cause.message)

namespace JobRecord

structure Draft where
  id : Option JobId := none
  batch : Option BatchId := none
  agents : Option (List AgentId) := none
  submitted : Option Time.Stamp := none
  status : Option JobStatus := none
  workingDir : Option String := none

def shape (origin : Origin) : Shape Draft where
  title := "struct JobRecord"
  fields := ["job_id", "batch_id", "agent_ids", "submitted_at", "status", "working_dir"]
  strict := false
  optional := []
  set field d draft :=
    match field with
    | "job_id" => do return { draft with id := some (← d.asText origin) }
    | "batch_id" => do
      return { draft with batch := some (← d.asWhole origin "u64" Text.wholeLimit) }
    | "agent_ids" => do
      return { draft with agents := some (← d.asList origin (AgentId.read origin)) }
    | "submitted_at" => do return { draft with submitted := some (← Time.Stamp.read origin d) }
    | "status" => do return { draft with status := some (← JobStatus.read origin d) }
    | _ => do return { draft with workingDir := some (← d.asText origin "path string") }

def read (origin : Origin) (d : Doc) : Reading JobRecord := do
  let draft ← (shape origin).read origin {} d
  let id ← required "job_id" draft.id
  let batch ← required "batch_id" draft.batch
  let agents ← required "agent_ids" draft.agents
  let submitted ← required "submitted_at" draft.submitted
  let status ← required "status" draft.status
  let workingDir ← required "working_dir" draft.workingDir
  return { id, batch, agents, submitted, status, workingDir }

def json (r : JobRecord) : String :=
  "\x7b\"job_id\":" ++ Json.string r.id ++ ",\"batch_id\":" ++ Text.decimal r.batch ++
    ",\"agent_ids\":" ++ (Json.list (r.agents.map fun a => .text a.text)).render ++
    ",\"submitted_at\":" ++ Json.string r.submitted.text ++
    ",\"status\":" ++ Json.string r.status.name ++
    ",\"working_dir\":" ++ Json.string r.workingDir ++ "\x7d"

end JobRecord

end ClusterAgents
