import ClusterAgents.Number.Decimal
import ClusterAgents.Fields

/-!
# JSON values and their compact text

Numbers are whole or double; the fields of an object are kept sorted by name, with one value for each
name.  `Json.render` writes a value without any white space.
-/

namespace ClusterAgents

open Number

inductive Json
  | null
  | bool (value : Bool)
  | whole (value : Int)
  | real (value : Binary64)
  | text (value : String)
  | list (items : List Json)
  | object (fields : List (String × Json))
  deriving Repr

namespace Json

/-- The fields may come in any order.  The last of equal names counts. -/
def ofFields (fields : List (String × Json)) : Json := .object (Fields.ofList fields)

def field? (name : String) : Json → Option Json
  | .object fields => fields.lookup name
  | _ => none

/-- The letter after the backslash, for the characters that have one. -/
def letterOf? (c : Char) : Option Char :=
  if c = '"' then some '"'
  else if c = '\\' then some '\\'
  else if c.toNat = 8 then some 'b'
  else if c.toNat = 12 then some 'f'
  else if c = '\n' then some 'n'
  else if c = '\r' then some 'r'
  else if c = '\t' then some 't'
  else none

def hex4 (n : Nat) : List Char := Text.padHex 4 n

def escapeChar (c : Char) : List Char :=
  match letterOf? c with
  | some l => ['\\', l]
  | none => if c.toNat < 0x20 then '\\' :: 'u' :: hex4 c.toNat else [c]

def string (s : String) : String := String.ofList ('"' :: s.toList.flatMap escapeChar ++ ['"'])

def wholeText (n : Int) : String := toString n

mutual

/-- The text of a value without any blanks. -/
def render : Json → String
  | .null => "null"
  | .bool true => "true"
  | .bool false => "false"
  | .whole n => wholeText n
  | .real d => d.jsonText
  | .text s => string s
  | .list items => "[" ++ ",".intercalate (renderItems items) ++ "]"
  | .object fields => "\x7b" ++ ",".intercalate (renderFields fields) ++ "\x7d"

def renderItems : List Json → List String
  | [] => []
  | v :: rest => render v :: renderItems rest

def renderFields : List (String × Json) → List String
  | [] => []
  | (n, v) :: rest => (string n ++ ":" ++ render v) :: renderFields rest

end

end Json

end ClusterAgents
