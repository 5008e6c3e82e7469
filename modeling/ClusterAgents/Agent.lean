import ClusterAgents.Error

/-!
# Agents

An agent is named by a number of 128 bits.  `AgentId.text` writes it as 32 digits of base 16 in five
groups; `AgentId.parse` reads that form, also without the hyphens, in braces or behind `urn:uuid:`,
and says what is wrong with any other text.
-/

namespace ClusterAgents

open Text

/-- Agents are told apart by a number. -/
structure AgentId where
  number : Nat
  deriving DecidableEq, Repr

namespace AgentId

def count : Nat := bitRange 128

def ofNat (n : Nat) : AgentId := ⟨n % count⟩

/-- An agent with a random name: of the number all bits count but six, which say that it is random.
-/
def ofRandom (n : Nat) : AgentId :=
  let low := n % bitRange 62 + bitRange 63
  let middle := n / bitRange 64 % bitRange 12 + 4 * bitRange 12
  let high := n / bitRange 80 % bitRange 48
  ⟨low + middle * bitRange 64 + high * bitRange 80⟩

def range (start length : Nat) : List AgentId := (List.range' start length).map ofNat

def groups : List Nat := [8, 4, 4, 4, 12]

def hyphenate : List Nat → List Char → List Char
  | [], ds => ds
  | [n], ds => ds.take n
  | n :: ns, ds => ds.take n ++ '-' :: hyphenate ns (ds.drop n)

def text (a : AgentId) : String :=
  String.ofList (hyphenate groups (padHex 32 a.number))

/-- The digits of a text that has hyphens between the groups. -/
def ungroup? : List Nat → List Char → Option (List Char)
  | [], _ => none
  | [n], cs => if cs.length = n then some cs else none
  | n :: ns, cs =>
    match cs.drop n with
    | '-' :: rest => (ungroup? ns rest).map (cs.take n ++ ·)
    | _ => none

/-- The marker in front of a name that is written as a resource name. -/
def urn : List Char := "urn:uuid:".toList

/-- The part of a text that holds the digits, where it starts, and whether the text has no frame. -/
def inside (cs : List Char) : List Char × Nat × Bool :=
  if cs.head? = some '\x7b' && cs.getLast? = some '\x7d' && 1 < cs.length then
    (cs.tail.dropLast, 1, false)
  else if cs.take urn.length = urn then (cs.drop urn.length, urn.length, false)
  else (cs, 0, true)

def byteLength (cs : List Char) : Nat := (String.ofList cs).utf8ByteSize

/-- The first character that no name holds, and its place in bytes. -/
def intruder? : Nat → List Char → Option (Char × Nat)
  | _, [] => none
  | i, c :: cs =>
    if c = '-' || (hexValue? c).isSome then intruder? (i + c.utf8Size) cs else some (c, i)

def hyphens (cs : List Char) : List Nat :=
  (cs.zipIdx.filter (·.1 = '-')).map (·.2)

def starts : List Nat := [0, 9, 14, 19, 24]

/-- The first group that the hyphens give a wrong length: its place, its length and the right one.
-/
def misfit? : List Nat → List (Nat × Nat) → Option (Nat × Nat × Nat)
  | _, [] => none
  | [], _ => none
  | h :: hs, (start, length) :: rest =>
    if h = start + length then misfit? hs rest
    else some (5 - (rest.length + 1), h - start, length)

def complaint (cs : List Char) : String :=
  let (body, offset, bare) := inside cs
  match intruder? 0 body with
  | some (c, i) =>
    "invalid character: expected an optional prefix of `urn:uuid:` followed by [0-9a-fA-F-], " ++
      "found `" ++ String.ofList [c] ++ "` at " ++ decimal (i + offset + 1)
  | none =>
    let places := hyphens body
    if places.isEmpty && bare then
      "invalid length: expected length 32 for simple format, found " ++ decimal (byteLength cs)
    else if places.length ≠ 4 then
      "invalid group count: expected 5, found " ++ decimal (places.length + 1)
    else
      let (group, found, expected) :=
        (misfit? (places ++ [byteLength cs]) (starts.zip groups)).getD
          (4, byteLength cs - 24, 12)
      "invalid group length in group " ++ decimal group ++ ": expected " ++ decimal expected ++
        ", found " ++ decimal found

def digits? (cs : List Char) : Option (List Char) :=
  let (body, _, bare) := inside cs
  if bare && cs.length = 32 then some cs else ungroup? groups body

/-- Reads an agent, or says what is wrong with the text. -/
def parse (s : String) : Except String AgentId :=
  match (digits? s.toList).bind hexNumber? with
  | some n => .ok ⟨n⟩
  | none => .error (complaint s.toList)

def parse? (s : String) : Option AgentId := (parse s).toOption

end AgentId

end ClusterAgents
