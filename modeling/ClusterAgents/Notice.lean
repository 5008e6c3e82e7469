import ClusterAgents.Job
import ClusterAgents.Error

/-!
# Notices

Whatever deserves attention, but stops nothing, becomes a `Notice`; the notices of an operation are
part of its result, in their order.  `Notice.message` is their wording.
-/

namespace ClusterAgents

open Text

inductive Notice.Level
  | warning
  | error
  deriving DecidableEq, Repr

/-- Something that deserves attention. -/
inductive Notice
  | alreadyRequested (agent : AgentId)
  | unknownBatchFailed (batch : BatchId)
  | batchNotInFlight (batch : BatchId)
  | agentMoved (agent : AgentId) (source target : JobId)
  | duplicateJob (job : JobId)
  | submissionAbandoned (batch : BatchId)
  | submissionFailed (resource : String) (batch : BatchId) (cause : Error)
  | submissionRemark (resource program remark : String)
  | jobFileUnwritten (path : String) (cause : Error)
  | cancellationFailed (resource : String) (jobs : List JobId) (cause : String)
  | batchNotSubmitted (batch : BatchId) (size : Nat) (cause : Error)
  | failed (cause : String)
  deriving DecidableEq, Repr

namespace Notice

def level : Notice → Level
  | .submissionFailed _ _ _ => .error
  | .batchNotSubmitted _ _ _ => .error
  | .failed _ => .error
  | _ => .warning

def message : Notice → String
  | .alreadyRequested agent => "Agent " ++ agent.text ++ " was already requested, ignoring it"
  | .unknownBatchFailed batch => "Trying to fail unknown batch " ++ decimal batch
  | .batchNotInFlight batch => "Activating batch " ++ decimal batch ++ " that was not in flight"
  | .agentMoved agent source target =>
    "Agent " ++ agent.text ++ " moved from job " ++ source ++ " to " ++ target
  | .duplicateJob job => "Duplicate job detected: " ++ job
  | .submissionAbandoned batch =>
    "Submission of batch " ++ decimal batch ++ " was abandoned, its job state is unknown"
  | .submissionFailed resource batch cause =>
    "Resource " ++ resource ++ ": submission of batch " ++ decimal batch ++ " failed: " ++
      cause.message
  | .submissionRemark resource program remark =>
    "Resource " ++ resource ++ ": " ++ program ++ " reported: " ++ remark
  | .jobFileUnwritten path cause =>
    "Cannot write job id file " ++ path ++ ": " ++ cause.message
  | .cancellationFailed resource jobs cause =>
    "Resource " ++ resource ++ ": cancellation of job(s) " ++ ", ".intercalate jobs ++
      " failed: " ++ cause
  | .batchNotSubmitted batch size cause =>
    "Batch " ++ decimal batch ++ " with " ++ decimal size ++ " agent(s) was not submitted: " ++
      cause.message
  | .failed cause => cause

/-- A notice as a line of a log, without its time. -/
def line (n : Notice) : String :=
  (match n.level with
    | .warning => "WARN "
    | .error => "ERROR ") ++ n.message

end Notice

end ClusterAgents
