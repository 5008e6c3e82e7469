import ClusterAgents.Toml.Scalar
import ClusterAgents.Toml.Tree

/-!
# Reading TOML texts

`Doc.ofToml?` reads a whole text as a table; its entries are sorted by name.  A text that makes no
sense anywhere is no document at all.
-/

namespace ClusterAgents.Toml

open Text

/-- How deep values may nest, and how many parts a key may have. -/
def levelLimit : Nat := 80

mutual

/-- A value that may nest up to `levels` deep, read in at most `fuel` steps. -/
def value? : Nat → Nat → List Char → Option (Doc × List Char)
  | 0, _, _ => none
  | fuel + 1, levels, cs =>
    match cs with
    | '[' :: rest => do
      if levels = 0 then none
      else
        let (items, rest) ← items? fuel (levels - 1) (skipLines false rest)
        some (.list items true, rest)
    | '\x7b' :: rest => do
      if levels = 0 then none
      else
        let (entries, rest) ← entries? fuel (levels - 1) [] (skipLines false rest)
        some (.table (entryDocs entries) true, rest)
    | '"' :: _ => (string? cs).map fun (s, rest) => (.text s, rest)
    | '\'' :: _ => (string? cs).map fun (s, rest) => (.text s, rest)
    | cs => scalar? cs

/-- The items of a list.  A comma may follow the last one. -/
def items? : Nat → Nat → List Char → Option (List Doc × List Char)
  | 0, _, _ => none
  | fuel + 1, levels, cs =>
    match cs with
    | ']' :: rest => some ([], rest)
    | cs => do
      let (d, rest) ← value? fuel levels cs
      match skipLines false rest with
      | ',' :: rest => do
        let (ds, rest) ← items? fuel levels (skipLines false rest)
        some (d :: ds, rest)
      | ']' :: rest => some ([d], rest)
      | _ => none

def entries? : Nat → Nat → Branch → List Char → Option (Branch × List Char)
  | 0, _, _, _ => none
  | fuel + 1, levels, branch, cs =>
    match cs with
    | '\x7d' :: rest => some (branch, rest)
    | cs => do
      let (branch, rest) ← entry? fuel levels branch cs
      match skipLines false rest with
      | ',' :: rest => entries? fuel levels branch (skipLines false rest)
      | '\x7d' :: rest => some (branch, rest)
      | _ => none

def entry? : Nat → Nat → Branch → List Char → Option (Branch × List Char)
  | 0, _, _, _ => none
  | fuel + 1, levels, branch, cs => do
    let (key, rest) ← key? levelLimit cs
    match rest with
    | '=' :: rest => do
      let (d, rest) ← value? fuel levels (skipGap rest)
      let branch ← branch.put? d key.last key.front
      some (branch, rest)
    | _ => none

end

def fuelFor (cs : List Char) : Nat := 3 * cs.length + 3

/-- The tree so far, and the path of the table that keys are added to. -/
structure Draft where
  root : Branch := []
  here : List String := []

/-- The header of a table or of one more table in a row, behind its first bracket. -/
def Draft.header? (draft : Draft) (cs : List Char) : Option (Draft × List Char) := do
  let row := cs.head? == some '['
  let (key, rest) ← key? levelLimit (skipGap (if row then cs.drop 1 else cs))
  let rest ← match rest, row with
    | ']' :: rest, false => endLine? rest
    | ']' :: ']' :: rest, true => endLine? rest
    | _, _ => none
  let change (branch : Branch) : Option Branch :=
    if row then branch.append? key.last else branch.define? key.last
  let root ← draft.root.atPath? change key.front
  some (⟨root, key.front ++ [key.last]⟩, rest)

def Draft.line? (draft : Draft) (cs : List Char) : Option (Draft × List Char) := do
  let (key, rest) ← key? levelLimit cs
  match rest with
  | '=' :: rest => do
    let (d, rest) ← value? (fuelFor rest) levelLimit (skipGap rest)
    let rest ← endLine? rest
    let root ← draft.root.atPath? (·.put? d key.last key.front) draft.here
    some ({ draft with root }, rest)
  | _ => none

def Draft.lines? : Nat → Draft → List Char → Option Draft
  | 0, _, _ => none
  | fuel + 1, draft, cs =>
    match skipLines false cs with
    | [] => some draft
    | '[' :: rest => do
      let (draft, rest) ← draft.header? rest
      lines? fuel draft rest
    | cs => do
      let (draft, rest) ← draft.line? cs
      lines? fuel draft rest

/-- A text may begin with the mark of the byte order. -/
def dropMark : List Char → List Char
  | c :: cs => if c.toNat = 0xFEFF then cs else c :: cs
  | [] => []

end ClusterAgents.Toml

namespace ClusterAgents

def Doc.ofToml? (s : String) : Option Doc := do
  let cs := Toml.dropMark s.toList
  let draft ← Toml.Draft.lines? (cs.length + 1) {} cs
  some (.table (Toml.entryDocs draft.root) true)

end ClusterAgents
