import ClusterAgents.Job

/-!
# Events

An `Event` tells what became of a batch or of a job.  `Event.read` reads the form in which events are
reported: the name of the kind beside its content.
-/

namespace ClusterAgents

open Doc

inductive Event
  | submitted (batch : BatchId) (job : JobId)
  | submissionFailed (batch : BatchId) (error : String)
  | killed (job : JobId)
  | killFailed (jobs : List JobId) (error : String)
  | finished (job : JobId)
  deriving DecidableEq, Repr

namespace Event

def kinds : List String :=
  ["JobSubmitted", "SubmissionFailed", "JobKilled", "KillFailed", "JobFinished"]

/-- The content of an event, as far as it has been read. -/
structure Draft where
  batch : Option BatchId := none
  job : Option JobId := none
  jobs : Option (List JobId) := none
  error : Option String := none

def shape (fields : List String) : Shape Draft where
  title := "struct variant"
  fields := fields
  strict := false
  optional := []
  set field d draft :=
    match field with
    | "batch_id" => do
      return { draft with batch := some (← d.asWhole .jsonValue "u64" Text.wholeLimit) }
    | "job_id" => do return { draft with job := some (← d.asText .jsonValue) }
    | "job_ids" => do return { draft with jobs := some (← d.asList .jsonValue (·.asText .jsonValue)) }
    | _ => do return { draft with error := some (← d.asText .jsonValue) }

def readFields (fields : List String) : Option Doc → Reading Draft
  | none => fail (.wrongType "unit variant" "struct variant")
  | some (.list items closed) => (Doc.list items closed).mismatch .jsonValue "struct variant"
  | some d => (shape fields).read .jsonValue {} d

/-- The content of an event that is nothing but a job. -/
def readJob : Option Doc → Reading JobId
  | none => fail (.wrongType "unit variant" "newtype variant")
  | some d => d.asText .jsonValue

def readKind (kind : String) (content : Option Doc) : Reading Event := do
  match ← chosen kinds kind with
  | "JobSubmitted" =>
    let d ← readFields ["batch_id", "job_id"] content
    return .submitted (← required "batch_id" d.batch) (← required "job_id" d.job)
  | "SubmissionFailed" =>
    let d ← readFields ["batch_id", "error"] content
    return .submissionFailed (← required "batch_id" d.batch) (← required "error" d.error)
  | "JobKilled" => return .killed (← readJob content)
  | "KillFailed" =>
    let d ← readFields ["job_ids", "error"] content
    return .killFailed (← required "job_ids" d.jobs) (← required "error" d.error)
  | _ => return .finished (← readJob content)

def read : Doc → Reading Event
  | .text kind => readKind kind none
  | .table [(kind, content)] _ => readKind kind (some content)
  | .table _ _ => fail (.wrongValue "map" "map with a single key")
  | d => d.mismatch .jsonValue "string or map"

end Event

end ClusterAgents
