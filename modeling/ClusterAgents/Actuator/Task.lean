import ClusterAgents.Actuator.Basic
import ClusterAgents.Ledger
import ClusterAgents.Text.Scan

/-!
# Tasks

What an actuator does takes time: it asks something of the submission host and goes on when the
answer is there.  A `Task` is such an operation at a place where it waits; `Task.request` is what it
waits for, `Actuator.resume` goes on with the answer, and `Actuator.abandon` is for a task that nobody
waits for any more.  Between those places nothing can come in between, and any number of tasks may
be waiting at a time.  `Actuator.carryOut` goes through an operation with somebody at hand who answers
each of its requests at once, be it a machine of which only the state is known, or the world.

* A *flush* submits all pending agents.  Its batches are submitted one after the other, and a failure
  of one of them is no matter for the others.
* A *kill* cancels jobs, all of them with one command.
-/

namespace ClusterAgents

open Text

/-- A ledger, and the notices that its changes gave rise to. -/
structure Account where
  ledger : Ledger := {}
  notices : List Notice := []
  deriving DecidableEq, Repr

namespace Account

def note (s : Account) (n : Notice) : Account := { s with notices := s.notices ++ [n] }

def noteAll (s : Account) (ns : List Notice) : Account := { s with notices := s.notices ++ ns }

def update (s : Account) (f : Ledger → Ledger) : Account := { s with ledger := f s.ledger }

def amend (s : Account) (f : Ledger → Ledger × List Notice) : Account :=
  let (l, notices) := f s.ledger
  ⟨l, s.notices ++ notices⟩

end Account

structure Submission where
  batch : BatchId
  agents : List AgentId
  result : Outcome JobId

/-- How far the submission of a batch is. -/
inductive Stage
  | storing (script : String)
  | submitting
  /-- The id of the job is being written to a file. -/
  | noting (job : JobId)
  deriving DecidableEq, Repr

/-- The submission of several batches, one after the other. -/
structure Flush where
  batch : Batch
  stage : Stage
  rest : List (BatchId × List AgentId)
  done : List Submission

/-- An operation that waits for the submission host. -/
inductive Task
  | flush (f : Flush)
  | kill (jobs : List JobId)

inductive Progress
  | waiting (task : Task)
  | flushed (submissions : List Submission)
  | killed (success : Bool)

/-- How many answers an operation can wait for: three for each batch, one for a cancellation. -/
def Progress.answers : Progress → Nat
  | .waiting (.flush f) => 3 * (f.rest.length + 1)
  | .waiting (.kill _) => 1
  | _ => 0

def Task.request (s : Scheduler) : Task → Request
  | .flush f =>
    match f.stage with
    | .storing script => .write f.batch.scriptPath script
    | .submitting => .run s.submit [f.batch.scriptPath]
    | .noting job => .write f.batch.jobIdPath job
  | .kill jobs => .run s.cancel jobs

namespace Actuator

/-! ### submitting -/

def fail (a : Actuator) (s : Account) (b : Batch) (cause : Error) : Account :=
  (s.note (.submissionFailed a.cluster.name b.id cause)).amend (·.failBatch b.id cause.message)

def next (a : Actuator) : List (BatchId × List AgentId) → List Submission → Account →
    Account × Progress
  | [], done, s => (s, .flushed done)
  | (id, agents) :: rest, done, s =>
    let b := a.batch id agents
    match a.render b with
    | .ok script => (s, .waiting (.flush ⟨b, .storing script, rest, done⟩))
    | .error e => a.next rest (done ++ [⟨id, agents, .error e⟩]) (a.fail s b e)

def flush (a : Actuator) (s : Account) : Account × Progress :=
  let (l, batches) := s.ledger.takeBatches a.batchLimit
  a.next batches [] { s with ledger := l }

/-- Requests agents and submits all that are pending, whoever requested them. -/
def launch (a : Actuator) (agents : List AgentId) (s : Account) : Account × Progress :=
  a.flush (s.amend (·.enqueue agents))

def submitFailure (program : String) (o : Output) : Error :=
  .submission (program ++ " exited with code " ++ toString o.status ++ "\nStderr: " ++
    trim o.stderr ++ "\nStdout: " ++ trim o.stdout)

/-- What a submit command complained about although it succeeded. -/
def remarks (a : Actuator) (o : Output) : List Notice :=
  if (trim o.stderr).isEmpty then []
  else [.submissionRemark a.cluster.name a.scheduler.submit (trim o.stderr)]

/-- What the end of the submit command means for a batch: either there is a job, whose id is to be
written to a file, or the batch failed. -/
def submitted (a : Actuator) (o : Output) : List Notice × (Stage ⊕ Outcome JobId) :=
  if o.isSuccess then
    (a.remarks o,
      match jobId? o.stdout with
      | some job => .inl (.noting job)
      | none => .inr (.error (.jobIdMissing o.stdout)))
  else ([], .inr (.error (submitFailure a.scheduler.submit o)))

/-- What an answer means for a batch: either it goes on to another stage, or it is through.  The
file with the id of the job may be missing. -/
def judge (a : Actuator) (b : Batch) : Stage → Outcome Output →
    List Notice × (Stage ⊕ Outcome JobId)
  | .storing _, .ok _ => ([], .inl .submitting)
  | .submitting, .ok o => a.submitted o
  | .noting job, .ok _ => ([], .inr (.ok job))
  | .noting job, .error e => ([.jobFileUnwritten b.jobIdPath e], .inr (.ok job))
  | _, .error e => ([], .inr (.error e))

def job (b : Batch) (id : JobId) : Job := ⟨id, b.id, b.agents, .active, b.workingDir⟩

def settle (a : Actuator) (s : Account) (b : Batch) : Outcome JobId → Account
  | .ok id => s.amend (·.activate (job b id))
  | .error e => a.fail s b e

def advance (a : Actuator) (f : Flush) (answer : Outcome Output) (s : Account) :
    Account × Progress :=
  match a.judge f.batch f.stage answer with
  | (notices, .inl stage) => (s.noteAll notices, .waiting (.flush { f with stage }))
  | (notices, .inr result) =>
    a.next f.rest (f.done ++ [⟨f.batch.id, f.batch.agents, result⟩])
      (a.settle (s.noteAll notices) f.batch result)

/-! ### cancelling -/

/-- Cancels jobs, each of them once.  Without any there is nothing to do. -/
def killJobs (jobs : List JobId) (s : Account) : Account × Progress :=
  let jobs := Ledger.distinct jobs
  if jobs.isEmpty then (s, .killed true)
  else (s.update (·.setStatus jobs .killing), .waiting (.kill jobs))

/-- Cancels the jobs that host agents, and gives up those of the agents that are pending. -/
def killAgents (agents : List AgentId) (s : Account) : Account × Progress :=
  let s := s.update (·.cancelPending agents)
  killJobs (s.ledger.jobsOf agents) s

def killAll (s : Account) : Account × Progress :=
  killJobs (s.ledger.jobs.values.map (·.id)) s

def forget (l : Ledger) (job : JobId) : Ledger :=
  (match l.removeJob job with
    | some (_, l) => l
    | none => l).record (.killed job)

def killFailure? (program : String) : Outcome Output → Option String
  | .ok o =>
    if o.isSuccess then none
    else some (program ++ " exited with code " ++ toString o.status ++ ": " ++ trim o.stderr)
  | .error e => some e.message

/-- The cancel command ended.  If it failed, the jobs go on. -/
def killed (a : Actuator) (jobs : List JobId) (answer : Outcome Output) (s : Account) :
    Account × Progress :=
  match killFailure? a.scheduler.cancel answer with
  | none => (s.update fun l => jobs.foldl forget l, .killed true)
  | some cause =>
    ((s.note (.cancellationFailed a.cluster.name jobs cause)).update fun l =>
      (l.setStatus jobs .active).record (.killFailed jobs cause), .killed false)

/-- Forgets a job that is known to have come to its end. -/
def markTerminal (job : JobId) (l : Ledger) : Option (Job × Ledger) :=
  (l.removeJob job).map fun (record, l) => (record, l.record (.finished job))

/-! ### going on -/

def resume (a : Actuator) (t : Task) (answer : Outcome Output) (s : Account) : Account × Progress :=
  match t with
  | .flush f => a.advance f answer s
  | .kill jobs => a.killed jobs answer s

/-- Gives up a batch that nobody waits for any more. -/
def abandonBatch (s : Account) (id : BatchId) : Account :=
  (s.note (.submissionAbandoned id)).amend (·.failBatch id "Submission was abandoned")

/-- Gives up a task: batches that are not through are forgotten, and jobs go on. -/
def abandon (t : Task) (s : Account) : Account :=
  match t with
  | .flush f => (f.batch.id :: f.rest.map (·.1)).foldl abandonBatch s
  | .kill jobs => s.update (·.setStatus jobs .active)

/-! ### from start to end -/

section

variable {m : Type → Type} [Monad m]

def goOn (a : Actuator) (answer : Request → m (Outcome Output)) :
    Nat → Account × Progress → m (Account × Progress)
  | fuel + 1, (s, .waiting t) => do
    let reply ← answer (t.request a.scheduler)
    goOn a answer fuel (a.resume t reply s)
  | _, state => pure state

/-- Goes on with an operation until it waits for nothing. -/
def carryOut (a : Actuator) (answer : Request → m (Outcome Output)) (state : Account × Progress) :
    m (Account × Progress) :=
  goOn a answer state.2.answers state

end

end Actuator

end ClusterAgents
