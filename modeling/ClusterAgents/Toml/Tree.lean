import ClusterAgents.Document
import ClusterAgents.Fields
import ClusterAgents.Toml.Text

/-!
# Tables of TOML texts

The lines of a text build up a tree of tables.  How a table came into being decides what may be added
to it later: `TableKind` keeps that, and `Branch.put?`, `Branch.define?` and `Branch.append?` are the
three things that a line can do to the tree.  Each of them refuses to say the same thing twice.
-/

namespace ClusterAgents.Toml

inductive TableKind
  /-- Named on the way in the header of another table. -/
  | passed
  /-- Named on the way in the key of a value. -/
  | dotted
  | header
  deriving DecidableEq, Repr

/-- A name of a tree has a value, a table, or tables in a row, the last of them in front. -/
inductive Node
  | value (doc : Doc)
  | table (kind : TableKind) (entries : List (String × Node))
  | tables (rows : List (List (String × Node)))

abbrev Branch := Fields Node

namespace Branch

/-- Gives the name at the end of a key a value.  The tables on the way are named by such keys only.
-/
def put? (doc : Doc) (last : String) : List String → Branch → Option Branch
  | [], branch =>
    match branch.get? last with
    | none => some (branch.set last (.value doc))
    | some _ => none
  | name :: names, branch =>
    match branch.get? name with
    | none => do
      let sub ← put? doc last names []
      some (branch.set name (.table .dotted sub))
    | some (.table .dotted entries) => do
      let sub ← put? doc last names entries
      some (branch.set name (.table .dotted sub))
    | some (.table .passed entries) => do
      if names.isEmpty then none
      else
        let sub ← put? doc last names entries
        some (branch.set name (.table .passed sub))
    | some _ => none

/-- Changes the table at the end of a path.  Tables that are missing on the way are made, and of
tables in a row the last one is meant. -/
def atPath? (change : Branch → Option Branch) : List String → Branch → Option Branch
  | [], branch => change branch
  | name :: names, branch =>
    match branch.get? name with
    | none => do
      let sub ← atPath? change names []
      some (branch.set name (.table .passed sub))
    | some (.table kind entries) => do
      let sub ← atPath? change names entries
      some (branch.set name (.table kind sub))
    | some (.tables (row :: rows)) => do
      let sub ← atPath? change names row
      some (branch.set name (.tables (sub :: rows)))
    | some _ => none

/-- A table that was only passed so far may still have a header. -/
def define? (name : String) (branch : Branch) : Option Branch :=
  match branch.get? name with
  | none => some (branch.set name (.table .header []))
  | some (.table .passed entries) => some (branch.set name (.table .header entries))
  | some _ => none

def append? (name : String) (branch : Branch) : Option Branch :=
  match branch.get? name with
  | none => some (branch.set name (.tables [[]]))
  | some (.tables rows) => some (branch.set name (.tables ([] :: rows)))
  | some _ => none

end Branch

mutual

def Node.doc : Node → Doc
  | .value d => d
  | .table _ entries => .table (entryDocs entries) true
  | .tables rows => .list (rowDocs rows).reverse true

def entryDocs : List (String × Node) → List (String × Doc)
  | [] => []
  | (name, node) :: rest => (name, node.doc) :: entryDocs rest

def rowDocs : List (List (String × Node)) → List Doc
  | [] => []
  | row :: rows => .table (entryDocs row) true :: rowDocs rows

end

end ClusterAgents.Toml
