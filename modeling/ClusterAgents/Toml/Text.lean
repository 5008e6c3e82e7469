import ClusterAgents.Text.Basic

/-!
# Lines, keys and strings of TOML texts

* `skipLines`, `endLine?` — what stands between the parts of a text: blanks, comments, line ends;
* `string?` — the four kinds of strings;
* `key?` — keys, which may have several parts with points between them.

Each of them takes something from the front of a text and answers the rest, or nothing where the text
makes no sense.
-/

namespace ClusterAgents.Toml

open Text

/-! ### blanks and lines -/

def isGap (c : Char) : Bool := c == ' ' || c == '\t'

def skipGap (cs : List Char) : List Char := cs.dropWhile isGap

/-- A character that may stand in comments and strings: no control but the tab. -/
def isPlain (c : Char) : Bool := c == '\t' || (0x20 ≤ c.toNat && c.toNat != 0x7F)

def lineEnd? : List Char → Option (List Char)
  | '\n' :: rest => some rest
  | '\r' :: '\n' :: rest => some rest
  | _ => none

/-- Drops blanks, line ends and comments; `inComment` holds behind a `#`, up to the end of its line.
A control in a comment is left where it is, and nothing can be read from there. -/
def skipLines (inComment : Bool) : List Char → List Char
  | [] => []
  | '\n' :: rest => skipLines false rest
  | '\r' :: '\n' :: rest => skipLines false rest
  | c :: rest =>
    if inComment then if isPlain c then skipLines true rest else c :: rest
    else if isGap c then skipLines false rest
    else if c = '#' then skipLines true rest
    else c :: rest

def endLine? (cs : List Char) : Option (List Char) :=
  let cs := match skipGap cs with
    | '#' :: rest => rest.dropWhile isPlain
    | cs => cs
  if cs.isEmpty then some [] else lineEnd? cs

/-! ### strings -/

def literal? (cs : List Char) : Option (String × List Char) :=
  let inside (c : Char) : Bool := isPlain c && c != '\''
  match cs.dropWhile inside with
  | '\'' :: rest => some (String.ofList (cs.takeWhile inside), rest)
  | _ => none

/-- The end of a string of several lines, behind its three quotes: up to two more quotes belong to
the string.  `done` is the string, back to front. -/
def close (quote : Char) (done cs : List Char) : String × List Char :=
  let more := (cs.take 2).takeWhile (· == quote)
  (String.ofList (done.reverse ++ more), cs.drop more.length)

def longLiteral? (done : List Char) : List Char → Option (String × List Char)
  | [] => none
  | '\'' :: '\'' :: '\'' :: rest => some (close '\'' done rest)
  | '\r' :: '\n' :: rest => longLiteral? ('\n' :: '\r' :: done) rest
  | c :: rest => if isPlain c || c == '\n' then longLiteral? (c :: done) rest else none

/-- A code point that is a character: not half of a pair of code units. -/
def isCharacter (n : Nat) : Bool := n < 0xD800 || (0xE000 ≤ n && n < 0x110000)

def codePoint? (width : Nat) (cs : List Char) : Option (Char × Nat) := do
  let ds := cs.take width
  let n ← hexNumber? ds
  if ds.length = width && isCharacter n then some (Char.ofNat n, width) else none

def letter? (c : Char) : Option Char :=
  if c = '"' || c = '\\' then some c
  else if c = 'b' then some (Char.ofNat 8)
  else if c = 'e' then some (Char.ofNat 27)
  else if c = 'f' then some (Char.ofNat 12)
  else if c = 'n' then some '\n'
  else if c = 'r' then some '\r'
  else if c = 't' then some '\t'
  else none

/-- What an escape sequence stands for, and how many characters it has behind its backslash. -/
def escape? : List Char → Option (Char × Nat)
  | [] => none
  | c :: rest =>
    let digits (width : Nat) := (codePoint? width rest).map fun (e, used) => (e, used + 1)
    if c = 'u' then digits 4
    else if c = 'U' then digits 8
    else if c = 'x' then digits 2
    else (letter? c).map (·, 1)

/-- How many characters a folded line end has: behind a backslash at the end of a line, all blanks
and line ends are dropped. -/
def fold? (cs : List Char) : Option Nat := do
  let rest ← lineEnd? (skipGap cs)
  some (cs.length - (skipBreaks rest).length)
where
  skipBreaks : List Char → List Char
    | [] => []
    | '\r' :: '\n' :: rest => skipBreaks rest
    | c :: rest => if isGap c || c == '\n' then skipBreaks rest else c :: rest

/-- A basic string behind its quote.  The first `skip` characters belong to an escape sequence that
has been read; `done` is the string so far, back to front. -/
def basic? (skip : Nat) (done : List Char) : List Char → Option (String × List Char)
  | [] => none
  | c :: cs =>
    match skip with
    | skip + 1 => basic? skip done cs
    | 0 =>
      if c = '"' then some (String.ofList done.reverse, cs)
      else if c = '\\' then
        match escape? cs with
        | some (e, used) => basic? used (e :: done) cs
        | none => none
      else if isPlain c then basic? 0 (c :: done) cs
      else none

def longBasic? (skip : Nat) (done : List Char) : List Char → Option (String × List Char)
  | [] => none
  | c :: cs =>
    match skip with
    | skip + 1 => longBasic? skip done cs
    | 0 =>
      if c = '"' && cs.take 2 == ['"', '"'] then some (close '"' done (cs.drop 2))
      else if c = '\\' then
        match escape? cs, fold? cs with
        | some (e, used), _ => longBasic? used (e :: done) cs
        | none, some used => longBasic? used done cs
        | none, none => none
      else if c = '\r' && cs.head? == some '\n' then longBasic? 0 (c :: done) cs
      else if isPlain c || c == '\n' then longBasic? 0 (c :: done) cs
      else none

def dropLineEnd (cs : List Char) : List Char := (lineEnd? cs).getD cs

def string? : List Char → Option (String × List Char)
  | '"' :: '"' :: '"' :: rest => longBasic? 0 [] (dropLineEnd rest)
  | '\'' :: '\'' :: '\'' :: rest => longLiteral? [] (dropLineEnd rest)
  | '"' :: rest => basic? 0 [] rest
  | '\'' :: rest => literal? rest
  | _ => none

/-! ### keys -/

/-- A path of names, the last of them apart. -/
structure Key where
  front : List String
  last : String
  deriving DecidableEq, Repr

def isBare (c : Char) : Bool := c.isAlphanum || c == '_' || c == '-'

def keyPart? : List Char → Option (String × List Char)
  | '"' :: rest => basic? 0 [] rest
  | '\'' :: rest => literal? rest
  | cs =>
    let word := cs.takeWhile isBare
    if word.isEmpty then none else some (String.ofList word, cs.dropWhile isBare)

/-- A key of at most `parts` parts, and the text behind it and the blanks that follow it. -/
def key? : Nat → List Char → Option (Key × List Char)
  | 0, _ => none
  | parts + 1, cs => do
    let (name, rest) ← keyPart? cs
    match skipGap rest with
    | '.' :: rest => do
      let (key, rest) ← key? parts (skipGap rest)
      some ({ key with front := name :: key.front }, rest)
    | rest => some (⟨[], name⟩, rest)

end ClusterAgents.Toml
