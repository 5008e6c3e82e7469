import ClusterAgents.File.Path
import ClusterAgents.Remote.Machine

/-!
# Channels

Commands and files for a cluster go to the host that its jobs are submitted from.  A `Channel` says
how they get there: that host is this machine, or it is reached through `ssh`.  `Channel.perform`
answers a `Request` on any machine; a command that ends with a status other than zero is an answer, a
command that could not be run is a failure.
-/

namespace ClusterAgents

open Shell Text

inductive Request
  | run (program : String) (args : List String)
  | write (path contents : String)
  deriving DecidableEq, Repr

inductive Channel
  | here
  | ssh (host : String) (user : Option String) (port : Option Nat)
  deriving DecidableEq, Repr

namespace Channel

/-! ### the way through `ssh` -/

def destination (host : String) : Option String → String
  | some user => user ++ "@" ++ host
  | none => host

def sshCommand (host : String) (user : Option String) (port : Option Nat) (line stdin : String) :
    Command where
  program := "ssh"
  args := ["-o", "BatchMode=yes"] ++ ((port.map fun p => ["-p", decimal p]).getD []) ++
    [destination host user, "--", line]
  stdin := stdin

/-- The line that stores standard input in a file, below a directory that may have to be made. -/
def storeLine (path : String) : String :=
  match Path.parent? path with
  | none => "cat > " ++ Word.quote path
  | some above =>
    (if above.isEmpty then "" else "mkdir -p " ++ Word.quote above ++ " && ") ++
      "cat > " ++ Word.quote path

def line : Request → String
  | .run program args => Word.join (program :: args)
  | .write path _ => storeLine path

def input : Request → String
  | .run _ _ => ""
  | .write _ contents => contents

/-- The status with which `ssh` reports failures of its own. -/
def sshFailure : Int := 255

def unstarted (program : String) (cause : SystemFault) : Error :=
  .transport ("Cannot execute `" ++ program ++ "`: " ++ cause.message)

def outcome (program : String) : Ending → Outcome Output
  | .unstarted cause => .error (unstarted program cause)
  | .unread => .error (.system .brokenPipe)
  | .finished output => .ok output

/-- Tells the failures of `ssh` from those of the command on the host. -/
def checkConnection (host : String) (o : Output) : Outcome Output :=
  if o.status = sshFailure then
    .error (.transport ("SSH connection to " ++ host ++ " failed: " ++ trim o.stderr))
  else .ok o

/-- The answer to a request, given what the command on the host left behind. -/
def settle (host : String) : Request → Output → Outcome Output
  | .run _ _, o => .ok o
  | .write path _, o =>
    if o.isSuccess then .ok {}
    else .error (.transport ("Cannot write " ++ path ++ " on " ++ host ++ ": " ++ trim o.stderr))

/-! ### both ways -/

def stored (result : Except SystemFault Unit) : Outcome Output :=
  (result.mapError .system).map fun _ => {}

def received (host : String) (r : Request) (ending : Ending) : Outcome Output := do
  settle host r (← checkConnection host (← outcome "ssh" ending))

/-- A file that was written has an empty answer. -/
def perform {m : Type → Type} [Monad m] (machine : Machine m) (c : Channel) (r : Request) :
    m (Outcome Output) :=
  match c, r with
  | .here, .run program args => do return outcome program (← machine.run ⟨program, args, ""⟩)
  | .here, .write path contents => do return stored (← machine.store path contents)
  | .ssh host user port, r => do
    return received host r (← machine.run (sshCommand host user port (line r) (input r)))

/-! ### reading -/

open Doc

def kinds : List String := ["local", "ssh"]

structure Draft where
  host : Option String := none
  user : Option (Option String) := none
  port : Option (Option Nat) := none

def shape (origin : Origin) : Shape Draft where
  title := "struct variant ChannelConfig::Ssh"
  fields := ["host", "user", "port"]
  strict := true
  optional := []
  set field d draft :=
    match field with
    | "host" => do return { draft with host := some (← d.asText origin) }
    | "user" => do return { draft with user := some (← d.asOption (·.asText origin)) }
    | _ => do return { draft with port := some (← d.asOption (·.asWhole origin "u16" 65535)) }

def readKind (origin : Origin) (d : Doc) : Reading String := do
  chosen kinds (← d.asText origin "variant identifier")

def readContent (origin : Origin) (kind : String) (content : Doc) : Reading Channel := do
  if kind = "local" then
    match content with
    | .list (_ :: more) _ => fail (.wrongLength (more.length + 1) "0 elements in sequence")
    | _ => return .here
  else
    let draft ← (shape origin).read origin {} content true
    return .ssh (← required "host" draft.host) (draft.user.getD none) (draft.port.getD none)

/-- Finds the kind of a channel among its fields.  The others are its content. -/
def readEntries (origin : Origin) :
    Option String → List (String × Doc) → List (String × Doc) → Reading (Option String × List (String × Doc))
  | kind, content, [] => .ok (kind, content.reverse)
  | kind, content, (name, d) :: rest =>
    if name = "type" then do
      if kind.isSome then fail (.duplicateField name)
      readEntries origin (some (← readKind origin d)) content rest
    else do
      d.hold origin
      readEntries origin kind ((name, d) :: content) rest

/-- Reads a channel: a table with its kind in the field `type`, or a list with its kind in front. -/
def read (origin : Origin) : Doc → Reading Channel
  | .table entries _ => do
    let (kind, content) ← readEntries origin none [] entries
    readContent origin (← required "type" kind) (.table content true)
  | .moment _ => fail (.missingField "type")
  | .list [] _ => fail (.missingField "type")
  | .list (d :: rest) _ => do
    let kind ← readKind origin d
    rest.forM (·.hold origin)
    readContent origin kind (.list rest true)
  | d => d.mismatch origin "internally tagged enum ChannelConfig"

end Channel

end ClusterAgents
