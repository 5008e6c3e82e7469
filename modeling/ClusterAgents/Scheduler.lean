import ClusterAgents.Resource.Render

/-!
# Schedulers

A `Scheduler` is all that distinguishes one batch system from another: the resources it knows, its
commands, and how a request is written as an argument or as a line of a script.  `Scheduler.slurm` and
`Scheduler.pbs` are the two that are supported; the rest of the library asks a `Scheduler` and never
which one it is.
-/

namespace ClusterAgents

open Text

/-- The syntax of a batch system. -/
structure Scheduler where
  resources : ResourceTable
  /-- The command that submits a script and prints the id of the job. -/
  submit : String
  /-- The command that cancels the jobs given as its arguments. -/
  cancel : String
  /-- What a line of a script starts with that speaks to the scheduler. -/
  marker : String
  walltimeName : String
  argument : Rendered → List String
  directive : Rendered → String
  /-- The lines that name a job and redirect its output. -/
  jobDirectives : String → String → String → List String
  /-- A command that is to run once for each of so many agents. -/
  launch : Nat → String → String
  /-- The variable that holds the place of a process within its batch. -/
  rankVariable : String
  /-- Whether launched processes see the variables that a script exports. -/
  inheritsEnvironment : Bool

inductive SchedulerKind
  | pbs
  | slurm
  deriving DecidableEq, Repr

namespace Scheduler

def slurm : Scheduler where
  resources := .ofList [
    .count "nodes",
    .count "ntasks",
    .fixed (.count "ntasks-per-node"),
    .fixed (.count "cpus-per-task"),
    .count "gpus",
    .fixed (.count "gpus-per-node"),
    .memory "mem" "K",
    .fixed (.memory "mem-per-cpu" "K"),
    .duration "time"]
  submit := "sbatch"
  cancel := "scancel"
  marker := "#SBATCH"
  walltimeName := "time"
  argument r := ["--" ++ r.name, r.value]
  directive r := "--" ++ r.name ++ "=" ++ r.value
  jobDirectives name stdout stderr :=
    ["--job-name=" ++ name, "--output=" ++ stdout, "--error=" ++ stderr]
  launch n command :=
    if 1 < n then "srun --overlap --ntasks=" ++ decimal n ++ " " ++ command else command
  rankVariable := "SLURM_PROCID"
  inheritsEnvironment := true

def pbs : Scheduler where
  resources := .ofList [
    .count "select",
    .count "nodes",
    .fixed (.count "ncpus"),
    .fixed (.count "ngpus"),
    .memory "mem" "kb",
    .duration "walltime"]
  submit := "qsub"
  cancel := "qdel"
  marker := "#PBS"
  walltimeName := "walltime"
  argument r := ["-l", r.name ++ "=" ++ r.value]
  directive r := "-l " ++ r.name ++ "=" ++ r.value
  jobDirectives name stdout stderr := ["-N " ++ name, "-o " ++ stdout, "-e " ++ stderr]
  launch n command := if 1 < n then "pbsdsh -- " ++ command else command
  rankVariable := "PBS_VNODENUM"
  inheritsEnvironment := false

def arguments (s : Scheduler) (batchSize : Nat) (rs : List Requirement) : Outcome (List String) := do
  let rendered ← Requirement.renderAll s.resources batchSize rs
  .ok (rendered.flatMap s.argument)

def walltime? (s : Scheduler) (rs : List Requirement) : Outcome (Option Nat) :=
  Requirement.walltime? s.resources s.walltimeName rs

def check (s : Scheduler) (rs : List Requirement) : Outcome Unit :=
  Requirement.checkAll s.resources rs

end Scheduler

namespace SchedulerKind

def scheduler : SchedulerKind → Scheduler
  | .pbs => .pbs
  | .slurm => .slurm

def key : SchedulerKind → String
  | .pbs => "pbs"
  | .slurm => "slurm"

def title : SchedulerKind → String
  | .pbs => "PBS"
  | .slurm => "SLURM"

def all : List SchedulerKind := [.pbs, .slurm]

def read (origin : Doc.Origin) (d : Doc) : Doc.Reading SchedulerKind := do
  let name ← d.asChoice origin (all.map key)
  .ok (if name = key .pbs then .pbs else .slurm)

end SchedulerKind

end ClusterAgents
