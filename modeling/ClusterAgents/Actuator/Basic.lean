import ClusterAgents.Batch.Script
import ClusterAgents.Job
import ClusterAgents.Remote.Channel
import ClusterAgents.Time.Clock

/-!
# Clusters and their actuators

A `Cluster` is a resource on which agents can be started: which scheduler it has, how its submission
host is reached, where batches keep their files there, and what every batch asks for.

An `Actuator` starts agents on one cluster.  It puts them into batches, each of which has a
directory of its own below the work directory: `work_dir/name/session/number`.  The session tells
apart actuators that share a work directory.
-/

namespace ClusterAgents

structure Cluster where
  name : String
  scheduler : SchedulerKind
  channel : Channel := .here
  /-- The directory on the submission host for scripts and outputs. -/
  workDir : String
  /-- The program that starts an agent, and its arguments. -/
  agentCommand : List String
  batchLimit : Nat := 16
  timeout : Time.Span := ⟨60, 0⟩
  requirements : List Requirement := []
  /-- Lines for the scheduler behind those of the requirements. -/
  extra : List String := []

/-- What starts the agents of one cluster, from the beginning of a session on. -/
structure Actuator where
  cluster : Cluster
  broker : Broker
  session : String

/-- Agents that are submitted as one job, in the order of their submission. -/
structure Batch where
  id : BatchId
  agents : List AgentId
  workingDir : String
  deriving DecidableEq, Repr

namespace Batch

def scriptPath (b : Batch) : String := Path.join b.workingDir "submit.sh"

def jobIdPath (b : Batch) : String := Path.join b.workingDir "jobid"

def stdoutPath (b : Batch) : String := Path.join b.workingDir "stdout"

def stderrPath (b : Batch) : String := Path.join b.workingDir "stderr"

end Batch

namespace Actuator

def scheduler (a : Actuator) : Scheduler := a.cluster.scheduler.scheduler

/-- How many agents a batch may have: at least one, whatever the cluster says. -/
def batchLimit (a : Actuator) : Nat := max a.cluster.batchLimit 1

/-- When the session began, and a number of 32 bits in base 16. -/
def sessionName (start : Time.Stamp) (n : Nat) : String :=
  start.dateText "" ++ "-" ++ start.clockText "" ++ "-" ++
    String.ofList (Text.padHex 8 (n % Text.bitRange 32))

def number (id : BatchId) : String := Text.pad 3 id

def directory (a : Actuator) (id : BatchId) : String :=
  Path.join (Path.join (Path.join a.cluster.workDir a.cluster.name) a.session) (number id)

def batch (a : Actuator) (id : BatchId) (agents : List AgentId) : Batch :=
  ⟨id, agents, a.directory id⟩

def jobName (a : Actuator) (id : BatchId) : String := a.cluster.name ++ "-" ++ number id

def header (a : Actuator) (b : Batch) : Batch.Header where
  jobName := a.jobName b.id
  stdout := b.stdoutPath
  stderr := b.stderrPath
  batchSize := b.agents.length
  requirements := a.cluster.requirements
  extra := a.cluster.extra

def render (a : Actuator) (b : Batch) : Outcome String :=
  Batch.script a.scheduler (a.header b) a.broker a.cluster.agentCommand b.agents

/-- A batch that is shown and not submitted.  It gets the number zero, which no other batch has. -/
def dryRun (a : Actuator) (agents : List AgentId) : Outcome (Batch × String) := do
  let b := a.batch 0 agents
  .ok (b, ← a.render b)

end Actuator

end ClusterAgents
