import ClusterAgents.Document
import ClusterAgents.Text.Scan

/-!
# Versions of a schema

A version is three whole numbers, `major.minor.patch`.  `Version.parse` reads what `Version.text`
writes; versions are ordered from the major number down, and `isCompatible` says which installed
schema serves a program that requires another.
-/

namespace ClusterAgents.Schema

open Text

structure Version where
  major : Nat
  minor : Nat
  patch : Nat
  deriving DecidableEq, Repr

namespace Version

def text (v : Version) : String :=
  decimal v.major ++ "." ++ decimal v.minor ++ "." ++ decimal v.patch

def components (cs : List Char) : Nat := cs.count '.' + 1

/-- Exactly three components, each of them a whole number. -/
def parse (s : String) : Except FormatFault Version :=
  let cs := s.toList
  if components cs = 3 then
    match Scan.triplet cs with
    | .ok (a, b, c) => .ok ⟨a, b, c⟩
    | .error fault => .error (.versionText s fault)
  else .error (.versionArity s (components cs))

def read (origin : Doc.Origin) (d : Doc) : Doc.Reading Version := do
  let s ← d.asText origin
  match parse s with
  | .ok v => .ok v
  | .error fault => Doc.fail (.version fault)

def compare (a b : Version) : Ordering :=
  (Ord.compare a.major b.major).then <|
    (Ord.compare a.minor b.minor).then (Ord.compare a.patch b.patch)

/-- An installed version serves a required one iff it is on the same major line and neither its
minor nor its patch number is older. -/
def isCompatible (installed required : Version) : Bool :=
  installed.major == required.major && required.minor ≤ installed.minor &&
    required.patch ≤ installed.patch

end Version

end ClusterAgents.Schema
