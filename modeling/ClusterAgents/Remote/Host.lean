import ClusterAgents.File.Tree
import ClusterAgents.Remote.Machine
import ClusterAgents.Text.Utf8

/-!
# A machine with stand-ins

A `Host` is a machine whose programs are stand-ins: each command gets the next of the replies that
were laid down for it, and is kept in a list.  Its files are a `FileTree`.
-/

namespace ClusterAgents

structure StandIn where
  status : Int := 0
  stdout : List Nat := []
  stderr : List Nat := []
  /-- Whether it dies by a signal. -/
  killed : Bool := false
  /-- Whether it leaves unread what it is given. -/
  deaf : Bool := false

structure Host where
  files : FileTree := {}
  programs : List String := []
  replies : List StandIn := []
  /-- The commands that were run, with what they read. -/
  calls : List Command := []

namespace Host

/-- How many bytes a pipe holds that nobody reads. -/
def pipeCapacity : Nat := 65536

def obstacle? (h : Host) (c : Command) : Option SystemFault :=
  if (c.program :: c.args).any (·.toList.contains (Char.ofNat 0)) then some .nulInArgument
  else if c.program.toList.contains '/' then
    match h.files.locate c.program with
    | .ok (.found _ _) => some .permissionDenied
    | .ok (.free _) => some .notFound
    | .error e => some e
  else if h.programs.contains c.program then none
  else some .notFound

def ending (r : StandIn) : Output where
  status := if r.killed then -1 else r.status % 256
  stdout := Text.Utf8.lossy r.stdout
  stderr := Text.Utf8.lossy r.stderr

def run (c : Command) : StateM Host Ending := fun h =>
  match h.obstacle? c with
  | some fault => (.unstarted fault, h)
  | none =>
    let r := h.replies.head?.getD {}
    let read := if r.deaf then { c with stdin := "" } else c
    (if r.deaf && pipeCapacity < c.stdin.utf8ByteSize then .unread
      else .finished (ending r),
      { h with replies := h.replies.tail, calls := h.calls ++ [read] })

def store (path contents : String) : StateM Host (Except SystemFault Unit) := fun h =>
  let (result, files) := FileTree.Action.store path (Text.Utf8.encode contents) h.files
  (result, { h with files })

def machine : Machine (StateM Host) := ⟨run, store⟩

end Host

end ClusterAgents
