import Std.Time.DateTime.Timestamp
import ClusterAgents.CommandLine.Program

/-!
# The command line

`main` follows a command line with the files of this machine.  It starts no other program: each command
for a scheduler or for `ssh` is written as one line to standard error, and one line with what the
command left behind is read from standard input.  It waits for that line as long as it takes.
-/

namespace ClusterAgents.World

def fault : IO.Error → SystemFault
  | .noFileOrDirectory _ _ _ => .notFound
  | .permissionDenied _ _ _ => .permissionDenied
  | .alreadyExists _ _ _ => .exists
  | e => .other (toString e)

def attempt {α : Type} (action : IO α) : IO (Except SystemFault α) := do
  try return .ok (← action)
  catch e => return .error (fault e)

/-- Hands a command to whoever runs this program. -/
def runCommand (c : Command) : IO Ending := do
  IO.eprintln c.line
  let answer ← (← IO.getStdin).getLine
  return Ending.ofLine answer

def storeFile (path contents : String) : IO (Except SystemFault Unit) :=
  attempt do
    match Path.parent? path with
    | some above => unless above.isEmpty do IO.FS.createDirAll above
    | none => pure ()
    IO.FS.writeFile path contents

def readBytes (path : String) : IO (Except SystemFault (List Nat)) := do
  return (← attempt (IO.FS.readBinFile path)).map fun bytes => bytes.toList.map UInt8.toNat

def randomNumber (bytes : USize) : IO Nat := do
  return (← IO.getRandomBytes bytes).toList.foldl (fun n b => 256 * n + b.toNat) 0

def checkSchema (s : SchemaSettings) : IO (Outcome Unit) := do
  let path := Schema.VersionFile.path s.directory
  match ← readBytes path with
  | .error .notFound => return (CommandLine.gateOf s).check {}
  | .error e => return .error (.system e)
  | .ok bytes => return (CommandLine.gateOf s).check (FileTree.Action.store path bytes {}).2

def resetSchema (s : SchemaSettings) : IO (Outcome Unit) := do
  match ← attempt (IO.FS.removeDirAll s.directory) with
  | .error .notFound => pure ()
  | .error e => return .error (.system e)
  | .ok () => pure ()
  let path := Schema.VersionFile.path s.directory
  return (← storeFile path (Schema.VersionFile.content s.required)).mapError .system

def outside : CommandLine.Outside IO where
  machine := ⟨runCommand, storeFile⟩
  inTime _ := return true
  readText path := do
    return ((← readBytes path) >>= FileTree.textOf).mapError .system
  newAgents n := (List.range n).mapM fun _ => do return AgentId.ofRandom (← randomNumber 16)
  checkSchema := checkSchema
  resetSchema := resetSchema

def newSession (now : Time.Stamp) : IO String := do
  return Actuator.sessionName now (← randomNumber 4)

/-- The variables of the environment that count. -/
def environment : IO CommandLine.Environment := do
  let names := [CommandLine.verboseVariable, CommandLine.configVariable, Config.timeoutVariable]
  let values ← names.mapM fun name => do return (name, ← IO.getEnv name)
  return fun name => (values.lookup name).join

end ClusterAgents.World

def main (arguments : List String) : IO UInt32 := do
  let now ← Std.Time.Timestamp.now
  let session ← ClusterAgents.World.newSession ⟨now.toSecondsSinceUnixEpoch.val, 0⟩
  let environment ← ClusterAgents.World.environment
  let report ←
    ClusterAgents.CommandLine.run ClusterAgents.World.outside session environment arguments
  IO.print report.stdout
  for notice in report.notices do
    IO.eprintln notice.line
  IO.eprint report.complaint
  return report.status.toUInt32
