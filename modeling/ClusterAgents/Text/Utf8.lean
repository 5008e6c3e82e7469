/-!
# Bytes as text

`Utf8.decode` reads bytes as characters; where they are ill-formed, each longest piece that could
still have become a character stands for one that is missing.  `Utf8.text?` asks for a text without
such places, `Utf8.lossy` puts U+FFFD there.
-/

namespace ClusterAgents.Text.Utf8

/-- What may follow the first byte of a character: how many bytes, and the bounds of the first of
them. -/
structure Lead where
  more : Nat
  low : Nat
  high : Nat
  bits : Nat

def lead? (b : Nat) : Option Lead :=
  if 0xC2 ≤ b && b ≤ 0xDF then some ⟨1, 0x80, 0xBF, b - 0xC0⟩
  else if b = 0xE0 then some ⟨2, 0xA0, 0xBF, 0⟩
  else if b = 0xED then some ⟨2, 0x80, 0x9F, 0xD⟩
  else if 0xE1 ≤ b && b ≤ 0xEF then some ⟨2, 0x80, 0xBF, b - 0xE0⟩
  else if b = 0xF0 then some ⟨3, 0x90, 0xBF, 0⟩
  else if 0xF1 ≤ b && b ≤ 0xF3 then some ⟨3, 0x80, 0xBF, b - 0xF0⟩
  else if b = 0xF4 then some ⟨3, 0x80, 0x8F, 4⟩
  else none

/-- Reads `more` bytes behind a first one, the next of them between `low` and `high`: the number of
the character, if they complete it, and how many of the bytes belong to it. -/
def follow : Nat → Nat → Nat → Nat → List Nat → Option Nat × Nat
  | 0, _, _, bits, _ => (some bits, 0)
  | _ + 1, _, _, _, [] => (none, 0)
  | more + 1, low, high, bits, b :: rest =>
    if low ≤ b && b ≤ high then
      let (c, used) := follow more 0x80 0xBF (bits * 64 + b % 64) rest
      (c, used + 1)
    else (none, 0)

/-- The characters of bytes.  `none` stands where they are ill-formed. -/
def decode : List Nat → List (Option Char)
  | [] => []
  | b :: rest =>
    if b < 0x80 then some (Char.ofNat b) :: decode rest
    else
      match lead? b with
      | none => none :: decode rest
      | some l =>
        let (c, used) := follow l.more l.low l.high l.bits rest
        c.map Char.ofNat :: decode (rest.drop used)
termination_by bs => bs.length

def text? (bs : List Nat) : Option String := ((decode bs).mapM id).map String.ofList

/-- A text for any bytes, with U+FFFD where they are ill-formed. -/
def lossy (bs : List Nat) : String :=
  String.ofList ((decode bs).map (·.getD (Char.ofNat 0xFFFD)))

def encode (s : String) : List Nat := s.toUTF8.toList.map UInt8.toNat

end ClusterAgents.Text.Utf8
