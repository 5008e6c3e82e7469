import ClusterAgents.Json.Reader

/-!
# Commands and the machines that run them

A `Command` is a program with its arguments and what it is given to read; an `Ending` is what becomes
of it.  A `Machine` is whatever runs commands and stores files; everything above it is the same for
each of them, whether it is the world or a value that stands for it.

Where commands are not started but handed to somebody who runs them, each command is written as a line
of JSON (`Command.line`), and so is what it left behind (`Ending.ofLine`).
-/

namespace ClusterAgents

structure Command where
  program : String
  args : List String
  stdin : String := ""
  deriving DecidableEq, Repr

/-- What a command that came to its end left behind.  A status below zero stands for a signal. -/
structure Output where
  status : Int := 0
  stdout : String := ""
  stderr : String := ""
  deriving DecidableEq, Repr

namespace Output

def isSuccess (o : Output) : Bool := o.status == 0

end Output

inductive Ending
  | unstarted (cause : SystemFault)
  /-- It went without reading what it was given. -/
  | unread
  | finished (output : Output)
  deriving DecidableEq, Repr

/-- What runs commands and stores files, with effects of the kind `m`. -/
structure Machine (m : Type → Type) where
  run : Command → m Ending
  /-- Writes a file and makes the directories above it. -/
  store : String → String → m (Except SystemFault Unit)

/-! ### commands in writing -/

def Command.line (c : Command) : String :=
  (Json.ofFields [("program", .text c.program), ("args", .list (c.args.map .text)),
    ("stdin", .text c.stdin)]).render

namespace Output

/-- What a command left behind.  What the answer leaves out is empty. -/
def ofJson? (j : Json) : Option Output := do
  let status ← match (j.field? "status").getD (.whole 0) with
    | .whole n => some n
    | _ => none
  let textOf (name : String) : Option String :=
    match (j.field? name).getD (.text "") with
    | .text s => some s
    | _ => none
  some ⟨status, ← textOf "stdout", ← textOf "stderr"⟩

def ofLine? (line : String) : Option Output := (Json.parse? line).bind ofJson?

end Output

/-- Without a proper answer a command was not started. -/
def Ending.ofLine (line : String) : Ending :=
  match Output.ofLine? line with
  | some o => .finished o
  | none => .unstarted .notFound

end ClusterAgents
