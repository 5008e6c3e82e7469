import ClusterAgents.Actuator.Rehearsal
import ClusterAgents.CommandLine.Arguments
import ClusterAgents.Config
import ClusterAgents.Remote.Host
import ClusterAgents.Schema.Store

/-!
# The program behind the command line

`run` follows a command line and answers a `Report`: what is printed, what is noticed, and the status
that the program ends with.  All that the program needs of the world is in an `Outside`; `onHost` is
one for machines of which only the state is known.
-/

namespace ClusterAgents.CommandLine

structure Report where
  status : Nat := 0
  stdout : String := ""
  notices : List Notice := []
  /-- What is said of a failure before anything was done. -/
  complaint : String := ""

/-- What the program needs of the world. -/
structure Outside (m : Type → Type) where
  machine : Machine m
  /-- Whether what was asked of the machine last was answered within a length of time. -/
  inTime : Time.Span → m Bool
  readText : String → m (Outcome String)
  newAgents : Nat → m (List AgentId)
  checkSchema : SchemaSettings → m (Outcome Unit)
  resetSchema : SchemaSettings → m (Outcome Unit)

namespace Report

def failure (cause : String) (stdout : String := "") (notices : List Notice := []) : Report where
  status := 1
  stdout := stdout
  notices := notices ++ [.failed cause]

def orElse {α : Type} (o : Outcome α) (f : α → Report) : Report :=
  match o with
  | .ok a => f a
  | .error e => failure e.message

def after (stdout : String) (r : Report) : Report := { r with stdout := stdout ++ r.stdout }

end Report

def actuator (config : Config) (session resource : String) : Outcome Actuator := do
  .ok ⟨← config.cluster resource, config.broker, session⟩

/-! ### orders -/

def walltimeLine : Option Nat → String
  | some seconds => "Walltime: " ++ Time.hms seconds ++ "\n"
  | none => "Walltime: <not set>\n"

/-- Shows how a batch of new agents would be submitted. -/
def render (a : Actuator) (agents : List AgentId) : Report :=
  let requirements := a.cluster.requirements
  .orElse (a.scheduler.arguments agents.length requirements) fun arguments =>
    .after ("Arguments: " ++ " ".intercalate arguments ++ "\n") <|
      .orElse (a.scheduler.walltime? requirements) fun walltime =>
        .after (walltimeLine walltime) <|
          .orElse (a.dryRun agents) fun (batch, script) =>
            { stdout := "Script path: " ++ batch.scriptPath ++ "\n\n" ++ script }

def jobLines (s : Submission) : String :=
  match s.result with
  | .ok job => String.join (s.agents.map fun agent => job ++ "\t" ++ agent.text ++ "\n")
  | .error _ => ""

def failureNotice? (s : Submission) : Option Notice :=
  match s.result with
  | .ok _ => none
  | .error e => some (.batchNotSubmitted s.batch s.agents.length e)

def launched (notices : List Notice) (submissions : List Submission) : Report :=
  let stdout := String.join (submissions.map jobLines)
  let failures := submissions.filterMap failureNotice?
  if failures.isEmpty then { stdout, notices }
  else
    .failure (Text.decimal failures.length ++ " batch(es) could not be submitted") stdout
      (notices ++ failures)

def cancelled (jobs : List JobId) (notices : List Notice) (success : Bool) : Report :=
  if success then { notices }
  else .failure ("Cancellation of job(s) " ++ ", ".intercalate jobs ++ " failed") "" notices

def schemaReport (phrase : String) (settings : SchemaSettings) (result : Outcome Unit) : Report :=
  .orElse result fun _ => { stdout := phrase ++ " " ++ settings.required.text ++ "\n" }

def noSchema : Report := .failure "The configuration does not contain a [schema] section"

section

variable {m : Type → Type} [Monad m]

/-- Asks something of the submission host of a cluster.  What is not answered within its time limit
counts as a failure. -/
def ask (o : Outside m) (a : Actuator) (r : Request) : m (Outcome Output) := do
  let answer ← a.cluster.channel.perform o.machine r
  if ← o.inTime a.cluster.timeout then return answer
  else return .error (Rehearsal.overdue a.cluster.timeout)

def launch (o : Outside m) (a : Actuator) (agents : List AgentId) : m Report := do
  match ← a.carryOut (ask o a) (a.launch agents {}) with
  | (s, .flushed submissions) => return launched s.notices submissions
  | (s, _) => return launched s.notices []

def cancel (o : Outside m) (a : Actuator) (jobs : List JobId) : m Report := do
  match ← a.carryOut (ask o a) (Actuator.killJobs jobs {}) with
  | (s, .killed success) => return cancelled jobs s.notices success
  | (s, _) => return cancelled jobs s.notices false

def follow (o : Outside m) (session : String) (config : Config) : Order → m Report
  | .render resource n =>
    match actuator config session resource with
    | .ok a => do return render a (← o.newAgents n)
    | .error e => return .failure e.message
  | .launch resource n =>
    match actuator config session resource with
    | .ok a => do launch o a (← o.newAgents n)
    | .error e => return .failure e.message
  | .cancel resource jobs =>
    match actuator config session resource with
    | .ok a => cancel o a jobs
    | .error e => return .failure e.message
  | .checkSchema =>
    match config.schema with
    | some s => do return schemaReport "Schema is compatible with version" s (← o.checkSchema s)
    | none => return noSchema
  | .resetSchema =>
    match config.schema with
    | some s => do return schemaReport "Schema was reset to version" s (← o.resetSchema s)
    | none => return noSchema

def versionLine : String := "actuator 0.1.0\n"

def usageText : String :=
  "Usage: actuator [--verbose] --config <CONFIG> <COMMAND>\n\n" ++
    "Commands:\n" ++
    "  render <RESOURCE> [--agents <AGENTS>]\n" ++
    "  launch <RESOURCE> [--agents <AGENTS>]\n" ++
    "  cancel <RESOURCE> <JOB_IDS>...\n" ++
    "  schema check\n" ++
    "  schema reset\n"

def Halt.report : Halt → Report
  | .usage => { status := 2, complaint := usageText }
  | .help => { stdout := usageText }
  | .version => { stdout := versionLine }

def unloadable (path : String) (e : Error) : Report where
  status := 1
  complaint := "Error: Cannot load configuration " ++ path ++ "\n\nCaused by:\n    " ++ e.message ++
    "\n"

/-- Follows a command line. -/
def run (o : Outside m) (session : String) (environment : Environment) (arguments : List String) :
    m Report := do
  match Invocation.parse environment arguments with
  | .error halt => return halt.report
  | .ok i =>
    let timeout := (environment Config.timeoutVariable).bind Time.millisOfVariable?
    match (← o.readText i.config) >>= Config.parse timeout with
    | .error e => return unloadable i.config e
    | .ok config => follow o session config i.order

end

/-! ### machines of which only the state is known -/

def gateOf (s : SchemaSettings) : Schema.Gate FileTree :=
  ⟨.directory s.directory, s.required⟩

/-- The world of a machine with stand-ins, where nothing takes time.  New agents are counted from a
number on. -/
def onHost (firstAgent : Nat) : Outside (StateM Host) where
  machine := Host.machine
  inTime _ := pure true
  readText path h := ((h.files.readText path).mapError .system, h)
  newAgents n := pure (AgentId.range firstAgent n)
  checkSchema s h := ((gateOf s).check h.files, h)
  resetSchema s h :=
    let (result, files) := (gateOf s).reset h.files
    (result, { h with files })

end ClusterAgents.CommandLine
