import ClusterAgents.Agent
import ClusterAgents.Broker
import ClusterAgents.Scheduler

/-!
# Scripts

`Header.text` is what speaks to the scheduler, and `Header.write` puts it behind a script that is there already.
`Batch.script` is a whole script: the header, the environment of the agents, and the command that starts one
agent for each id.  The ids travel in a variable; each process of a batch takes the one at its rank.
-/

namespace ClusterAgents.Batch

open Shell

structure Header where
  jobName : String
  stdout : String
  stderr : String
  batchSize : Nat
  requirements : List Requirement
  extra : List String

def line (s : String) : String := s ++ "\n"

/-- The lines of a header, without what starts them. -/
def Header.directives (h : Header) (s : Scheduler) (rendered : List Rendered) : List String :=
  s.jobDirectives h.jobName (Word.quote h.stdout) (Word.quote h.stderr) ++
    rendered.map s.directive ++ h.extra

def Header.text (h : Header) (s : Scheduler) : Outcome String := do
  let rendered ← Requirement.renderAll s.resources h.batchSize h.requirements
  .ok (line "#!/bin/bash" ++
    String.join ((h.directives s rendered).map fun d => line (s.marker ++ " " ++ d)))

/-- What is done to a script, and may fail. -/
abbrev Writing := ExceptT Error (StateM String)

def writeLines (ls : List String) : Writing Unit := ls.forM fun l => modify (· ++ line l)

/-- Puts the header behind a script, which stays as it is unless all requirements can be resolved.
-/
def Header.write (h : Header) (s : Scheduler) : Writing Unit := do
  let rendered ← ExceptT.mk (pure (Requirement.renderAll s.resources h.batchSize h.requirements))
  let mark := fun (directive : String) => s.marker ++ " " ++ directive
  writeLines ["#!/bin/bash"]
  writeLines ((s.jobDirectives h.jobName (Word.quote h.stdout) (Word.quote h.stderr)).map mark)
  writeLines (rendered.map fun r => mark (s.directive r))
  writeLines (h.extra.map mark)

def idsVariable : String := "ACTUATOR_AGENT_IDS"

/-- Sets a variable for the processes to come. -/
def exportStatement (name value : String) : String := "export " ++ name ++ "=" ++ Word.quote value

def exports (broker : Broker) (agents : List AgentId) : List String :=
  (broker.environment ++ [(idsVariable, " ".intercalate (agents.map AgentId.text))]).map
    fun (name, value) => exportStatement name value

/-- What each process of a batch executes: it picks the id at its rank and becomes the agent. -/
def pickScript (s : Scheduler) (agent : String) (exports : List String) : String :=
  (if s.inheritsEnvironment then "" else String.join (exports.map (· ++ "; "))) ++
    "set -- $" ++ idsVariable ++ "; shift \"$" ++ s.rankVariable ++ "\"; exec " ++ agent ++
    " --agent-id \"$1\""

def agentCommand (s : Scheduler) (command : List String) (agents : List AgentId)
    (exports : List String) : String :=
  let agent := Word.join command
  match agents with
  | [id] => agent ++ " --agent-id " ++ id.text
  | _ => "bash -c " ++ Word.quote (pickScript s agent exports)

/-- A script that starts one agent for each id. -/
def script (s : Scheduler) (h : Header) (broker : Broker) (command : List String)
    (agents : List AgentId) : Outcome String := do
  let header ← h.text s
  let exports := exports broker agents
  .ok (header ++ "\n" ++ String.join (exports.map line) ++ "\n" ++
    line (s.launch agents.length (agentCommand s command agents exports)))

end ClusterAgents.Batch
