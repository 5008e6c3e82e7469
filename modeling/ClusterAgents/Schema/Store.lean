import ClusterAgents.File.Tree
import ClusterAgents.Schema.Gate
import ClusterAgents.Text.Basic

/-!
# Stores

`Store.directory` keeps data in a directory, with the version in a file of its own; `Store.memory`
keeps nothing but the version and a count, and may be told to fail.
-/

namespace ClusterAgents.Schema

open FileTree

namespace VersionFile

def path (directory : String) : String := Path.join directory "schema.version"

def content (v : Version) : String := v.text ++ "\n"

/-- There may be blanks around the version. -/
def parse (content : String) : Outcome Version :=
  (Version.parse (Text.trim content)).mapError .format

def installed (directory : String) (t : FileTree) : Outcome (Option Version) :=
  match t.readText (path directory) with
  | .ok content => some <$> parse content
  | .error .notFound => .ok none
  | .error e => .error (.system e)

/-- Empties a directory, or makes it, and puts the version into it. -/
def recreate (directory : String) (v : Version) : Action Unit := do
  if (← get).hasEntry directory then Action.removeAll directory
  Action.ensure directory
  Action.write (path directory) (Text.Utf8.encode (content v))

end VersionFile

namespace Store

def directory (path : String) : Store FileTree where
  installed := VersionFile.installed path
  recreate v t :=
    let (result, t) := VersionFile.recreate path v t
    (result.mapError .system, t)

/-- Data in memory: nothing but the version and a count. -/
structure Memory where
  version : Option Version := none
  writes : Nat := 0
  /-- What goes wrong whenever the version is asked for or set. -/
  fault : Option SystemFault := none

def memory : Store Memory where
  installed m :=
    match m.fault with
    | some fault => .error (.system fault)
    | none => .ok m.version
  recreate v m :=
    match m.fault with
    | some fault => (.error (.system fault), m)
    | none => (.ok (), { m with version := some v, writes := 0 })

end Store

end ClusterAgents.Schema
