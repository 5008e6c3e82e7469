import ClusterAgents.Broker
import ClusterAgents.Actuator.Basic
import ClusterAgents.File.Tree
import ClusterAgents.Schema.Version
import ClusterAgents.Time.Clock
import ClusterAgents.Toml.Reader

/-!
# Configurations

A `Config` holds everything that is set down before agents can be started: the broker, the clusters,
and the schema of the data if there are any.  `Config.parse` reads it from a TOML text and refuses a
configuration that contradicts itself; `Config.load` reads the text from a file.
-/

namespace ClusterAgents

open Doc

/-- Where data with a schema are kept, and which version of it is required. -/
structure SchemaSettings where
  directory : String
  required : Schema.Version
  deriving DecidableEq, Repr

/-- A configuration that was accepted. -/
structure Config where
  broker : Broker
  /-- No two of them have the same name. -/
  clusters : List Cluster
  schema : Option SchemaSettings

/-! ### reading -/

/-- A cluster as far as it has been read. -/
structure Cluster.Draft where
  name : Option String := none
  scheduler : Option SchedulerKind := none
  channel : Option Channel := none
  workDir : Option String := none
  agentCommand : Option (List String) := none
  batchLimit : Option Nat := none
  timeout : Option Time.Span := none
  requirements : Option (List Requirement) := none
  extra : Option (List String) := none

def Time.Span.read (origin : Origin) (d : Doc) : Reading Time.Span := do
  match Time.Span.parse (← d.asText origin) with
  | .ok s => .ok s
  | .error fault => fail (.span fault)

namespace Cluster

/-- How deep the value of a requirement may nest.  A text that nests deeper is no document. -/
def valueLevels : Nat := 1000

def shape (origin : Origin) : Shape Draft where
  title := "struct ResourceConfig"
  fields := ["name", "dialect", "channel", "work_dir", "agent_command", "max_batch_size",
    "command_timeout", "requirements", "extra"]
  strict := true
  optional := ["channel", "max_batch_size", "command_timeout", "requirements", "extra"]
  set field d draft :=
    match field with
    | "name" => do return { draft with name := some (← d.asText origin) }
    | "dialect" => do return { draft with scheduler := some (← SchedulerKind.read origin d) }
    | "channel" => do return { draft with channel := some (← Channel.read origin d) }
    | "work_dir" => do return { draft with workDir := some (← d.asText origin "path string") }
    | "agent_command" => do
      return { draft with agentCommand := some (← d.asList origin (·.asText origin)) }
    | "max_batch_size" => do
      return { draft with batchLimit := some (← d.asWhole origin "usize" Text.wholeLimit) }
    | "command_timeout" => do return { draft with timeout := some (← Time.Span.read origin d) }
    | "requirements" => do
      return { draft with
        requirements := some (← d.asList origin (Requirement.read origin valueLevels)) }
    | _ => do return { draft with extra := some (← d.asList origin (·.asText origin)) }

def read (origin : Origin) (d : Doc) : Reading Cluster := do
  let draft ← (shape origin).read origin {} d
  let name ← required "name" draft.name
  let scheduler ← required "dialect" draft.scheduler
  let workDir ← required "work_dir" draft.workDir
  let agentCommand ← required "agent_command" draft.agentCommand
  let base : Cluster := { name, scheduler, workDir, agentCommand }
  return { base with
    channel := draft.channel.getD base.channel
    batchLimit := draft.batchLimit.getD base.batchLimit
    timeout := draft.timeout.getD base.timeout
    requirements := draft.requirements.getD base.requirements
    extra := draft.extra.getD base.extra }

def check (c : Cluster) : Outcome Unit :=
  if c.name.isEmpty then .error (.configuration .resourceName)
  else if c.batchLimit = 0 then .error (.configuration (.batchLimit c.name))
  else if c.agentCommand.isEmpty then .error (.configuration (.agentCommand c.name))
  else c.scheduler.scheduler.check c.requirements

end Cluster

structure SchemaSettings.Draft where
  directory : Option String := none
  required : Option Schema.Version := none

namespace SchemaSettings

def shape (origin : Origin) : Shape Draft where
  title := "struct SchemaConfig"
  fields := ["directory", "required"]
  strict := true
  optional := []
  set field d draft :=
    match field with
    | "directory" => do return { draft with directory := some (← d.asText origin "path string") }
    | _ => do return { draft with required := some (← Schema.Version.read origin d) }

def read (origin : Origin) (d : Doc) : Reading SchemaSettings := do
  let draft ← (shape origin).read origin {} d
  return ⟨← Doc.required "directory" draft.directory, ← Doc.required "required" draft.required⟩

end SchemaSettings

structure Config.Draft where
  broker : Option Broker.Draft := none
  clusters : Option (List Cluster) := none
  schema : Option (Option SchemaSettings) := none

/-- A configuration as it is written, accepted or not. -/
structure Config.Written where
  broker : Broker.Draft
  clusters : List Cluster
  schema : Option SchemaSettings

namespace Config

def shape (origin : Origin) : Shape Draft where
  title := "struct ConfigFile"
  fields := ["broker", "resource", "schema"]
  strict := true
  optional := ["resource"]
  set field d draft :=
    match field with
    | "broker" => do return { draft with broker := some (← Broker.Draft.read origin d) }
    | "resource" => do
      return { draft with clusters := some (← d.asList origin (Cluster.read origin)) }
    | _ => do return { draft with schema := some (← d.asOption (SchemaSettings.read origin)) }

def read (origin : Origin) (d : Doc) : Reading Written := do
  let draft ← (shape origin).read origin {} d
  return ⟨← required "broker" draft.broker, draft.clusters.getD [], draft.schema.getD none⟩

/-! ### accepting -/

/-- Fails unless agents can be started on each cluster and the names tell the clusters apart.
`seen` are the names of those before. -/
def checkClusters : List String → List Cluster → Outcome Unit
  | _, [] => .ok ()
  | seen, c :: rest => do
    c.check
    if seen.contains c.name then .error (.configuration (.duplicateResource c.name))
    else checkClusters (c.name :: seen) rest

/-- Accepts what is written.  `timeout` counts instead of the time limits of the clusters, if it is
there. -/
def accept (timeout : Option Time.Span) (w : Written) : Outcome Config := do
  let broker ← w.broker.build.1
  checkClusters [] w.clusters
  .ok {
    broker := broker
    clusters := w.clusters.map fun c => { c with timeout := timeout.getD c.timeout }
    schema := w.schema }

def settingFault : Fault → SettingFault
  | .broken => .document
  | .shape cause => .shape cause

def parse (timeout : Option Time.Span) (content : String) : Outcome Config :=
  match Doc.ofToml? content with
  | none => .error (.configuration .document)
  | some d =>
    match read .toml d with
    | .ok w => accept timeout w
    | .error fault => .error (.configuration (settingFault fault))

def load (timeout : Option Time.Span) (path : String) (files : FileTree) : Outcome Config := do
  parse timeout (← (files.readText path).mapError .system)

def cluster (config : Config) (name : String) : Outcome Cluster :=
  match config.clusters.find? (·.name == name) with
  | some c => .ok c
  | none => .error (.configuration (.unknownResource name))

/-- The variable whose value counts instead of the time limits of all clusters, in milliseconds. -/
def timeoutVariable : String := "ACTUATOR_COMMAND_TIMEOUT_MS"

end Config

end ClusterAgents
