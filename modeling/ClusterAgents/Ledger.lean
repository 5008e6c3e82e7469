import ClusterAgents.Table
import ClusterAgents.Event
import ClusterAgents.Notice

/-!
# The ledger

A `Ledger` keeps account of the agents of one resource.  An agent that was requested is first
*pending*, then part of a batch that is *in flight* to the scheduler, then hosted by a *job*.  The
ledger also knows the job of each hosted agent and the latest events.

Each operation answers the new ledger; those that may find something odd answer notices beside it.
-/

namespace ClusterAgents

/-- The account of the agents of a resource. -/
structure Ledger where
  /-- Requested, and not yet part of a batch. -/
  pending : List AgentId := []
  /-- Batches that have no job yet. -/
  inFlight : Table BatchId (List AgentId) := {}
  jobs : Table JobId Job := {}
  /-- The job that hosts an agent. -/
  hosts : Table AgentId JobId := {}
  counter : Nat := 0
  /-- The latest events, the oldest of them first. -/
  events : List Event := []
  deriving DecidableEq, Repr

namespace Ledger

def eventLimit : Nat := 100

/-- Adds an event.  The oldest one has to go where there are too many. -/
def record (l : Ledger) (e : Event) : Ledger :=
  let events := l.events ++ [e]
  { l with events := events.drop (events.length - eventLimit) }

/-- Whether an agent is pending, in flight or hosted. -/
def knows (l : Ledger) (a : AgentId) : Bool :=
  l.pending.contains a || l.inFlight.values.any (·.contains a) || l.hosts.contains a

/-- Requests agents.  Those that are known already are passed over. -/
def enqueue (l : Ledger) : List AgentId → Ledger × List Notice
  | [] => (l, [])
  | a :: as =>
    if l.knows a then
      let (l, notices) := l.enqueue as
      (l, .alreadyRequested a :: notices)
    else { l with pending := l.pending ++ [a] }.enqueue as

def cancelPending (l : Ledger) (as : List AgentId) : Ledger :=
  { l with pending := l.pending.filter fun a => !as.contains a }

/-- Cuts a list into pieces of `size` entries, the last of which may be shorter. -/
def pieces {α : Type} (size : Nat) : List α → List (List α)
  | [] => []
  | a :: as => (a :: as).take (size - 1 + 1) :: pieces size ((a :: as).drop (size - 1 + 1))
termination_by as => as.length
decreasing_by simp only [List.length_drop, List.length_cons]; omega

/-- Puts a batch in flight under the next number.  The counter is not followed past `2 ^ 64 - 1`, where
one of 64 bits would end: no run takes so many batches. -/
def start (l : Ledger) (as : List AgentId) : Ledger × BatchId × List AgentId :=
  let id := l.counter + 1
  ({ l with counter := id, inFlight := l.inFlight.insert id as }, id, as)

def startAll (l : Ledger) : List (List AgentId) → Ledger × List (BatchId × List AgentId)
  | [] => (l, [])
  | as :: rest =>
    let (l, batch) := l.start as
    let (l, batches) := l.startAll rest
    (l, batch :: batches)

/-- Puts all pending agents in flight, in batches of at most `size` agents, and at least one. -/
def takeBatches (l : Ledger) (size : Nat) : Ledger × List (BatchId × List AgentId) :=
  { l with pending := [] }.startAll (pieces (max size 1) l.pending)

def failBatch (l : Ledger) (id : BatchId) (error : String) : Ledger × List Notice :=
  ({ l with inFlight := l.inFlight.erase id }.record (.submissionFailed id error),
    if l.inFlight.contains id then [] else [.unknownBatchFailed id])

def host (l : Ledger) (a : AgentId) (job : JobId) : Ledger × List Notice :=
  ({ l with hosts := l.hosts.insert a job },
    ((l.hosts.get? a).map fun old => .agentMoved a old job).toList)

def hostAll (l : Ledger) (job : JobId) : List AgentId → Ledger × List Notice
  | [] => (l, [])
  | a :: as =>
    let (l, first) := l.host a job
    let (l, rest) := l.hostAll job as
    (l, first ++ rest)

def activate (l : Ledger) (job : Job) : Ledger × List Notice :=
  let (l', moved) := { l with inFlight := l.inFlight.erase job.batch }.hostAll job.id job.agents
  let l'' := l'.record (.submitted job.batch job.id)
  ({ l'' with jobs := l''.jobs.insert job.id job },
    (if l.inFlight.contains job.batch then [] else [.batchNotInFlight job.batch]) ++ moved ++
      (if l.jobs.contains job.id then [.duplicateJob job.id] else []))

def job? (l : Ledger) (id : JobId) : Option Job := l.jobs.get? id

def jobOf? (l : Ledger) (a : AgentId) : Option JobId := l.hosts.get? a

/-- The entries of a list without their repetitions, in the order of their first occurrence. -/
def distinct {α : Type} [DecidableEq α] (xs : List α) : List α :=
  (xs.foldl (fun seen x => if seen.contains x then seen else x :: seen) []).reverse

/-- Each job stands once, in the order of the first agent that it hosts. -/
def jobsOf (l : Ledger) (as : List AgentId) : List JobId := distinct (as.filterMap l.jobOf?)

def setStatus (l : Ledger) (ids : List JobId) (status : JobStatus) : Ledger :=
  { l with jobs := ids.foldl (fun jobs id => jobs.modify id ({ · with status })) l.jobs }

def removeJob (l : Ledger) (id : JobId) : Option (Job × Ledger) :=
  (l.job? id).map fun job =>
    (job, { l with
      jobs := l.jobs.erase id
      hosts := job.agents.foldl (fun hosts a => hosts.erase a) l.hosts })

def liveJobs (l : Ledger) : List Job := l.jobs.values.mergeSort fun a b => a.batch ≤ b.batch

end Ledger

end ClusterAgents
