/-!
# Paths

A path is a text; slashes divide it into segments.  `Path.join` puts a path behind another one,
and `Path.parent?` takes its last segment away.
-/

namespace ClusterAgents.Path

def segments : List Char → List (List Char)
  | [] => [[]]
  | c :: cs =>
    if c = '/' then [] :: segments cs
    else
      match segments cs with
      | [] => [[c]]
      | s :: ss => (c :: s) :: ss

def unite : List (List Char) → List Char
  | [] => []
  | [s] => s
  | s :: ss => s ++ '/' :: unite ss

def isAbsolute (p : String) : Bool := p.toList.head? = some '/'

/-- An absolute path replaces what is in front of it, and one slash divides the two unless there is
one. -/
def join (base p : String) : String :=
  if isAbsolute p || base.isEmpty then p
  else if base.toList.getLast? = some '/' then base ++ p
  else base ++ "/" ++ p

/-- A segment that leads nowhere. -/
def isIdle (s : List Char) : Bool := s.isEmpty || s == ['.']

/-- Segments in reverse order without the idle ones at the end.  The first segment of all counts, as
it tells an absolute path from a relative one. -/
def dropIdle : List (List Char) → List (List Char)
  | [] => []
  | [s] => [s]
  | s :: ss => if isIdle s then dropIdle ss else s :: ss

/-- The path without its last segment.  There is none for the root and for the empty path. -/
def parent? (p : String) : Option String :=
  match dropIdle (segments p.toList).reverse with
  | [] => none
  | [s] => if s.isEmpty then none else some ""
  | _ :: ss =>
    match dropIdle ss with
    | [[]] => some "/"
    | ss => some (String.ofList (unite ss.reverse))

end ClusterAgents.Path
