import ClusterAgents.Error
import ClusterAgents.Json.Value

/-!
# Documents

A `Doc` is what a text holds, before anything is known of the value it is meant for.  A text may stop
making sense in the middle, and a reader of values may be content with what stands in front of that
place or may complain about it first; so the tree says where the sense ends: `Doc.broken` stands
where no value could be read, and a list or table that is not `closed` breaks off behind its entries.
-/

namespace ClusterAgents

open Number Text

inductive Doc
  | null
  | bool (value : Bool)
  | whole (value : Int)
  | real (value : Real64)
  | text (value : String)
  /-- A date, a time of day, or both. -/
  | moment (value : String)
  | list (items : List Doc) (closed : Bool)
  | table (entries : List (String × Doc)) (closed : Bool)
  /-- A value in good form that cannot be held: a number out of range, or half a character.  Where
  nothing particular is said of it, it makes as little sense as no value at all. -/
  | unfit (cause : Option ShapeFault)
  | broken
  deriving Repr

namespace Doc

/-- Where a document comes from decides how some of its faults are named. -/
inductive Origin
  /-- Read from a JSON text as far as is needed. -/
  | jsonText
  /-- A JSON value that has been read before. -/
  | jsonValue
  | toml
  deriving DecidableEq, Repr

inductive Fault
  /-- The text makes no sense at the place that was reached. -/
  | broken
  | shape (cause : ShapeFault)
  deriving DecidableEq, Repr

abbrev Reading := Except Fault

/-- The name under which a moment is held as a table. -/
def momentKey : String := "$__toml_private_datetime"

def realText (origin : Origin) : Real64 → String
  | .finite d => if origin = .toml then d.plainText else d.jsonText
  | .infinite negative => if negative then "-inf" else "inf"
  | .nan => "NaN"

/-- Whether a whole number fits 64 bits, with a sign or without. -/
def fitsWord (n : Int) : Bool := -(bitRange 63 : Int) ≤ n && n ≤ (wholeLimit : Int)

def fitsLong (n : Int) : Bool := -(bitRange 127 : Int) ≤ n && n < (bitRange 128 : Int)

def unfitFault : Option ShapeFault → Fault
  | some cause => .shape cause
  | none => .broken

/-- What stands here, for a message about it. -/
def describe (origin : Origin) : Doc → Reading String
  | .null => .ok (if origin = .toml then "unit value" else "null")
  | .bool b => .ok ("boolean `" ++ (if b then "true" else "false") ++ "`")
  | .whole n =>
    if fitsWord n then .ok ("integer `" ++ toString n ++ "`")
    else if n < (bitRange 127 : Int) && fitsLong n then .ok ("integer `" ++ toString n ++ "` as i128")
    else if fitsLong n then .ok ("integer `" ++ toString n ++ "` as u128")
    else .error (.shape (.other "integer number overflowed"))
  | .real r => .ok ("floating point `" ++ realText origin r ++ "`")
  | .text s => .ok ("string " ++ quoted s)
  | .moment _ => .ok "map"
  | .list _ _ => .ok "sequence"
  | .table _ _ => .ok "map"
  | .unfit cause => .error (unfitFault cause)
  | .broken => .error .broken

def mismatch {α : Type} (origin : Origin) (expected : String) (d : Doc) : Reading α := do
  let found ← d.describe origin
  .error (.shape (.wrongType found expected))

def fail {α : Type} (cause : ShapeFault) : Reading α := .error (.shape cause)

/-! ### plain values -/

def asText (origin : Origin) (d : Doc) (expected : String := "a string") : Reading String :=
  match d with
  | .text s => .ok s
  | d => d.mismatch origin expected

def asBool (origin : Origin) : Doc → Reading Bool
  | .bool b => .ok b
  | d => d.mismatch origin "a boolean"

/-- A whole number from zero to `limit`.  `expected` names its kind in a complaint. -/
def asWhole (origin : Origin) (expected : String) (limit : Nat) (d : Doc) : Reading Nat :=
  match d with
  | .whole n =>
    if fitsWord n then
      if 0 ≤ n && n ≤ (limit : Int) then .ok n.toNat
      else fail (.wrongValue ("integer `" ++ toString n ++ "`") expected)
    else d.mismatch origin expected
  | d => d.mismatch origin expected

def asOption {α : Type} (read : Doc → Reading α) : Doc → Reading (Option α)
  | .null => .ok none
  | d => some <$> read d

def asList {α : Type} (origin : Origin) (read : Doc → Reading α) : Doc → Reading (List α)
  | .list items closed => do
    let values ← items.mapM read
    if closed then .ok values else .error .broken
  | d => d.mismatch origin "a sequence"

mutual

/-- Whether a value can be put aside until its kind is known: its whole numbers have to fit 64 bits.
-/
def hold (origin : Origin) : Doc → Reading Unit
  | .whole n => if fitsWord n then .ok () else (Doc.whole n).mismatch origin "any value"
  | .list items _ => holdItems origin items
  | .table entries _ => holdEntries origin entries
  | .unfit (some cause) => .error (.shape cause)
  | _ => .ok ()

def holdItems (origin : Origin) : List Doc → Reading Unit
  | [] => .ok ()
  | d :: rest => do
    hold origin d
    holdItems origin rest

def holdEntries (origin : Origin) : List (String × Doc) → Reading Unit
  | [] => .ok ()
  | (_, d) :: rest => do
    hold origin d
    holdEntries origin rest

end

/-! ### records -/

/-- How a record is read: its fields in order, and what to do with the document of each. -/
structure Shape (σ : Type) where
  /-- What the record is called in a complaint. -/
  title : String
  fields : List String
  strict : Bool
  /-- The fields that a record written as a list may leave out. -/
  optional : List String
  set : String → Doc → σ → Reading σ

/-- A value that is skipped still has to make sense. -/
def skip : Doc → Reading Unit
  | .broken => .error .broken
  | .unfit (some cause) => .error (.shape cause)
  | .list _ closed => if closed then .ok () else .error .broken
  | .table _ closed => if closed then .ok () else .error .broken
  | _ => .ok ()

namespace Shape

variable {σ : Type}

def readEntries (s : Shape σ) : List String → List (String × Doc) → σ → Reading σ
  | _, [], draft => .ok draft
  | seen, (name, d) :: rest, draft =>
    if s.fields.contains name then
      if seen.contains name then fail (.duplicateField name)
      else do s.readEntries (name :: seen) rest (← s.set name d draft)
    else if s.strict then fail (.unknownField name s.fields)
    else do
      skip d
      s.readEntries seen rest draft

def tooShort (s : Shape σ) (length : Nat) : ShapeFault :=
  .wrongLength length
    (s.title ++ " with " ++ decimal s.fields.length ++
      (if s.fields.length = 1 then " element" else " elements"))

/-- Reads the fields of a record from the items of a list, and leaves the items behind them. -/
def readItems (s : Shape σ) (closed : Bool) :
    Nat → List String → List Doc → σ → Reading (σ × List Doc)
  | _, [], items, draft => .ok (draft, items)
  | i, name :: names, d :: items, draft => do
    s.readItems closed (i + 1) names items (← s.set name d draft)
  | i, name :: names, [], draft =>
    if !closed then .error .broken
    else if s.optional.contains name then s.readItems closed (i + 1) names [] draft
    else fail (s.tooShort i)

/-- What is said of the items behind a record that is written as a list.  A configuration file
passes over them. -/
def leftover (s : Shape σ) (origin : Origin) (held : Bool) (more : List Doc) (closed : Bool) :
    Reading Unit :=
  let read := s.fields.length
  if held then
    if more.isEmpty then .ok ()
    else fail (.wrongLength (read + more.length)
      (decimal read ++ (if read = 1 then " element" else " elements") ++ " in sequence"))
  else match origin with
    | .toml => .ok ()
    | .jsonText => if more.isEmpty && closed then .ok () else .error .broken
    | .jsonValue =>
      if more.isEmpty then .ok ()
      else fail (.wrongLength (read + more.length) "fewer elements in array")

/-- Reads a record from a table, or from a list of its fields in order. -/
def read (s : Shape σ) (origin : Origin) (init : σ) (d : Doc) (held : Bool := false) :
    Reading σ :=
  match d with
  | .table entries closed => do
    let draft ← s.readEntries [] entries init
    if closed then .ok draft else .error .broken
  | .moment m => s.readEntries [] [(momentKey, .text m)] init
  | .list items closed => do
    let (draft, more) ← s.readItems closed 0 s.fields items init
    s.leftover origin held more closed
    .ok draft
  | d => d.mismatch origin s.title

end Shape

def required {α : Type} (name : String) : Option α → Reading α
  | some a => .ok a
  | none => fail (.missingField name)

/-! ### names out of a fixed choice -/

def chosen (names : List String) (name : String) : Reading String :=
  if names.contains name then .ok name else fail (.unknownVariant name names)

/-- What stands here, for a message that asks for a table. -/
def kindText : Doc → String
  | .text _ => "string"
  | .whole _ => "integer"
  | .real _ => "float"
  | .bool _ => "boolean"
  | .moment _ => "datetime"
  | .list _ _ => "array"
  | .table _ _ => "table"
  | _ => "nothing"

/-- Nothing may be said of a name beside the name itself. -/
def asNothing (origin : Origin) (d : Doc) : Reading Unit :=
  match origin with
  | .toml =>
    match d with
    | .list items _ => if items.isEmpty then .ok () else fail (.other "expected empty array")
    | .table entries _ => if entries.isEmpty then .ok () else fail (.other "expected empty table")
    | d => fail (.other ("expected table, found " ++ d.kindText))
  | _ =>
    match d with
    | .null => .ok ()
    | d => d.mismatch origin "unit"

/-- A name out of a fixed choice: a text, or a table with the name as its only key. -/
def asChoice (origin : Origin) (names : List String) (d : Doc) : Reading String :=
  match d with
  | .text s => chosen names s
  | .table entries closed =>
    match origin, entries with
    | .jsonText, [] => .error .broken
    | .jsonText, (name, d) :: rest => do
      let name ← chosen names name
      d.asNothing origin
      if rest.isEmpty && closed then .ok name else .error .broken
    | .jsonValue, [(name, d)] => do
      let name ← chosen names name
      d.asNothing origin
      .ok name
    | .jsonValue, _ => fail (.wrongValue "map" "map with a single key")
    | .toml, [(name, d)] => do
      let name ← chosen names name
      d.asNothing origin
      .ok name
    | .toml, [] => fail (.other "wanted exactly 1 element, found 0 elements")
    | .toml, _ => fail (.other "wanted exactly 1 element, more than 1 element")
  | d =>
    match origin with
    | .jsonText => .error .broken
    | .jsonValue => d.mismatch origin "string or map"
    | .toml => fail (.other "wanted string or table")

/-! ### any value -/

mutual

/-- The JSON value of a document that may nest up to `levels` deep.  A double that is not finite
counts as null, a moment as a table, and the last of equal names. -/
def toJson : Nat → Doc → Reading Json
  | _, .null => .ok .null
  | _, .bool b => .ok (.bool b)
  | _, .whole n =>
    if fitsWord n then .ok (.whole n)
    else if fitsLong n then fail (.other "JSON number out of range")
    else fail (.other "integer number overflowed")
  | _, .real (.finite d) => .ok (.real d)
  | _, .real _ => .ok .null
  | _, .text s => .ok (.text s)
  | _, .moment m => .ok (.object [(momentKey, .text m)])
  | levels, .list items closed =>
    if levels = 0 then .error .broken
    else do
      let values ← itemsToJson (levels - 1) items
      if closed then .ok (.list values) else .error .broken
  | levels, .table entries closed =>
    if levels = 0 then .error .broken
    else do
      let fields ← entriesToJson (levels - 1) entries
      if closed then .ok (.ofFields fields) else .error .broken
  | _, .unfit cause => .error (unfitFault cause)
  | _, .broken => .error .broken

def itemsToJson : Nat → List Doc → Reading (List Json)
  | _, [] => .ok []
  | levels, d :: rest => do
    let v ← toJson levels d
    let vs ← itemsToJson levels rest
    .ok (v :: vs)

def entriesToJson : Nat → List (String × Doc) → Reading (List (String × Json))
  | _, [] => .ok []
  | levels, (n, d) :: rest => do
    let v ← toJson levels d
    let vs ← entriesToJson levels rest
    .ok ((n, v) :: vs)

end

mutual

def ofJson : Json → Doc
  | .null => .null
  | .bool b => .bool b
  | .whole n => .whole n
  | .real d => .real (.finite d)
  | .text s => .text s
  | .list items => .list (itemsOfJson items) true
  | .object fields => .table (entriesOfJson fields) true

def itemsOfJson : List Json → List Doc
  | [] => []
  | v :: rest => ofJson v :: itemsOfJson rest

def entriesOfJson : List (String × Json) → List (String × Doc)
  | [] => []
  | (n, v) :: rest => (n, ofJson v) :: entriesOfJson rest

end

end Doc

end ClusterAgents
