import ClusterAgents.Error
import ClusterAgents.File.Path
import ClusterAgents.Table
import ClusterAgents.Text.Utf8

/-!
# Trees of files

A `FileTree` holds directories and regular files below the root.  A path is followed from the root,
segment by segment (`FileTree.locate`); what is done to a tree is an action, which keeps what it has
done so far when it fails.
-/

namespace ClusterAgents

inductive FileNode
  | directory
  | file (content : List Nat)
  deriving DecidableEq, Repr

/-- The names that lead from the root to a place. -/
abbrev Place := List String

/-- The directories and files below the root. -/
structure FileTree where
  nodes : Table Place FileNode := {}
  deriving DecidableEq, Repr

namespace FileTree

abbrev Action := ExceptT SystemFault (StateM FileTree)

/-- The root is a directory. -/
def node? (t : FileTree) (p : Place) : Option FileNode :=
  if p.isEmpty then some .directory else t.nodes.get? p

/-! ### following a path -/

inductive Goal
  | found (place : Place) (node : FileNode)
  /-- A name that nothing has, in a directory that is there. -/
  | free (place : Place)
  deriving Repr

/-- The longest name, in bytes. -/
def nameLimit : Nat := 255

def step (t : FileTree) (here : Place) (segment : String) : Except SystemFault Goal :=
  match t.node? here with
  | none => .error .notFound
  | some (.file _) => .error .notDirectory
  | some .directory =>
    if segment = "" || segment = "." then .ok (.found here .directory)
    else if segment = ".." then .ok (.found here.dropLast .directory)
    else if nameLimit < segment.utf8ByteSize then .error .nameTooLong
    else
      match t.node? (here ++ [segment]) with
      | some node => .ok (.found (here ++ [segment]) node)
      | none => .ok (.free (here ++ [segment]))

/-- Follows segments.  Only the last one may lead to a free name, and empty segments behind it, for
slashes at the end, change nothing about that. -/
def follow (t : FileTree) : Goal → List String → Except SystemFault Goal
  | goal, [] => .ok goal
  | .found here _, s :: rest => do
    let goal ← t.step here s
    t.follow goal rest
  | .free place, s :: rest => if s = "" then t.follow (.free place) rest else .error .notFound

def locate (t : FileTree) (path : String) : Except SystemFault Goal :=
  if path.isEmpty then .error .notFound
  else if path.toList.contains (Char.ofNat 0) then .error .nulInPath
  else t.follow (.found [] .directory) ((Path.segments path.toList).map String.ofList)

def asksDirectory (path : String) : Bool := path.toList.getLast? = some '/'

def lastSegment (path : String) : String :=
  String.ofList (((Path.segments path.toList).filter (!·.isEmpty)).getLast?.getD [])

def isDirectory (t : FileTree) (path : String) : Bool :=
  match t.locate path with
  | .ok (.found _ .directory) => true
  | _ => false

def hasEntry (t : FileTree) (path : String) : Bool :=
  match t.locate path with
  | .ok (.found _ _) => true
  | _ => false

/-! ### reading -/

def read (t : FileTree) (path : String) : Except SystemFault (List Nat) := do
  match ← t.locate path with
  | .found _ (.file content) => .ok content
  | .found _ .directory => .error .isDirectory
  | .free _ => .error .notFound

def textOf (bytes : List Nat) : Except SystemFault String :=
  match Text.Utf8.text? bytes with
  | some s => .ok s
  | none => .error .notUtf8

def readText (t : FileTree) (path : String) : Except SystemFault String := do
  textOf (← t.read path)

/-- Everything below a directory: the names that lead there from the directory, and the node. -/
def below (t : FileTree) (root : Place) : List (Place × FileNode) :=
  t.nodes.entries.filterMap fun (p, n) =>
    if root.isPrefixOf p && root.length < p.length then some (p.drop root.length, n) else none

def names (t : FileTree) (root : Place) : List String :=
  (t.below root).filterMap fun (p, _) => if p.length = 1 then p.head? else none

/-! ### writing -/

def put (t : FileTree) (p : Place) (n : FileNode) : FileTree := { t with nodes := t.nodes.insert p n }

/-- Takes out everything below a place. -/
def clear (t : FileTree) (p : Place) : FileTree :=
  { t with nodes := ⟨t.nodes.entries.filter fun (q, _) => !(p.isPrefixOf q && p.length < q.length)⟩ }

def drop (t : FileTree) (p : Place) : FileTree := { t with nodes := t.nodes.erase p }

namespace Action

def locate (path : String) : Action Goal := do ExceptT.mk (pure ((← get).locate path))

/-- Writes a file, in place of the one that is there. -/
def write (path : String) (content : List Nat) : Action Unit := do
  match ← locate path with
  | .found _ .directory => throw .isDirectory
  | .found place (.file _) => modify (·.put place (.file content))
  | .free place =>
    if asksDirectory path then throw .isDirectory
    else modify (·.put place (.file content))

def makeDirectory (path : String) : Action Unit := do
  match ← locate path with
  | .found _ _ => throw .exists
  | .free place => modify (·.put place .directory)

def ensureOne (path : String) : Action Unit := fun t =>
  match makeDirectory path t with
  | (.ok (), t) => (.ok (), t)
  | (.error e, t) => if t.isDirectory path then (.ok (), t) else (.error e, t)

def ensureFrom : Nat → String → Action Unit
  | 0, _ => throw .notFound
  | fuel + 1, path => fun t =>
    match ensureOne path t with
    | (.error .notFound, t) =>
      match Path.parent? path with
      | some above => (do
        unless above.isEmpty do ensureFrom fuel above
        ensureOne path) t
      | none => (.error .notFound, t)
    | result => result

/-- Makes a directory and those above it, as far as they are not there. -/
def ensure (path : String) : Action Unit :=
  if path.isEmpty then pure () else ensureFrom (path.length + 1) path

def removeAll (path : String) : Action Unit := do
  match ← locate path with
  | .free _ => throw .notFound
  | .found _ (.file _) => throw .notDirectory
  | .found place .directory => do
    modify (·.clear place)
    if lastSegment path = "." then throw .invalid
    else if lastSegment path = ".." then throw .notFound
    else modify (·.drop place)

/-- Takes out a file, or a directory and everything below it. -/
def remove (path : String) : Action Unit := do
  match ← locate path with
  | .found place (.file _) => modify (·.drop place)
  | _ => removeAll path

/-- Writes a file and makes the directories above it. -/
def store (path : String) (content : List Nat) : Action Unit := do
  match Path.parent? path with
  | some above => ensure above
  | none => pure ()
  write path content

end Action

end FileTree

end ClusterAgents
