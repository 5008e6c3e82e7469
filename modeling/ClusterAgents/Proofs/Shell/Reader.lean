import ClusterAgents.Text.Quoted

/-!
# How a shell reads a text

A `Lexer` takes one character after the other, in the way POSIX prescribes for words, quotes and
parameters.  It refuses what it does not know: pipes and redirections, patterns, tildes, comments, braces,
substitutions.  What it accepts it therefore reads as every shell does.

* `Piece`, `Token` — words in pieces, since parameters are expanded later, and what ends a command;
* `Lexer.step`, `Lexer.feed`, `tokens` — one character, several, and a whole text;
* `commands`, `parse` — the simple commands of a text, each as the list of its words;
* `Lexer.feed_behind` — what was read before does not matter;
* `Spells`, `Yields` — a text that becomes a part of a word, and one that becomes whole tokens.
-/

namespace ClusterAgents.Shell

/-- What a dollar sign stands for. -/
inductive Param
  | variable (name : String)
  /-- An argument of the shell, the first of which has the number 1. -/
  | argument (n : Nat)
  deriving DecidableEq, Repr

/-- A part of a word. -/
inductive Piece
  /-- A character that stands for itself. -/
  | char (c : Char)
  /-- Quotes were opened, so that the word is there even if nothing else is. -/
  | quotes
  | param (p : Param) (quoted : Bool)
  deriving DecidableEq, Repr

/-- What a text consists of. -/
inductive Token
  | word (ps : List Piece)
  | semicolon
  | newline
  deriving DecidableEq, Repr

/-- What the next character is part of. -/
inductive Mode
  | plain
  /-- Between single quotes. -/
  | single
  /-- Between double quotes. -/
  | double
  /-- Behind a backslash. -/
  | escape (quoted : Bool)
  /-- Behind a dollar sign. -/
  | dollar (quoted : Bool)
  /-- In the name of a variable. -/
  | name (quoted : Bool) (cs : List Char)
  deriving DecidableEq, Repr

/-- What was read of a text: whole tokens, and a word that goes on. -/
structure Lexer where
  mode : Mode := .plain
  word : List Piece := []
  tokens : List Token := []
  deriving DecidableEq, Repr

def quotes : Char := Char.ofNat 34

/-- The backquote, which starts a substitution. -/
def backquote : Char := Char.ofNat 96

/-- The characters that mean something which is not read here. -/
def foreign : List Char :=
  ['|', '&', '<', '>', '(', ')', '*', '?', '[', ']', '#', '~', '!', '\x7b', '\x7d', backquote]

/-- The characters that may start the name of a variable. -/
def startsName (c : Char) : Bool := c.isAlpha || c = '_'

/-- The characters a name goes on with. -/
def isNameChar (c : Char) : Bool := startsName c || c.isDigit

namespace Lexer

/-- Where a parameter or an escaped character is at its end. -/
def home (quoted : Bool) : Mode := if quoted then .double else .plain

def push (l : Lexer) (p : Piece) (mode : Mode) : Lexer := { l with mode, word := l.word ++ [p] }

/-- Ends the word, if there is one. -/
def endWord (l : Lexer) : Lexer :=
  if l.word.isEmpty then l else { l with word := [], tokens := l.tokens ++ [.word l.word] }

def endWith (l : Lexer) (t : Token) : Lexer :=
  { l.endWord with tokens := l.endWord.tokens ++ [t] }

def plain (l : Lexer) (c : Char) : Option Lexer :=
  if c = ' ' ∨ c = '\t' then some l.endWord
  else if c = '\n' then some (l.endWith .newline)
  else if c = ';' then some (l.endWith .semicolon)
  else if c = tick then some (l.push .quotes .single)
  else if c = quotes then some (l.push .quotes .double)
  else if c = '\\' then some { l with mode := .escape false }
  else if c = '$' then some { l with mode := .dollar false }
  else if c ∈ foreign then none
  else some (l.push (.char c) .plain)

def double (l : Lexer) (c : Char) : Option Lexer :=
  if c = quotes then some { l with mode := .plain }
  else if c = '\\' then some { l with mode := .escape true }
  else if c = '$' then some { l with mode := .dollar true }
  else if c = backquote then none
  else some (l.push (.char c) .double)

/-- One character behind a backslash.  It is taken as it is, but for the end of a line, which
disappears; between double quotes most characters do not need the backslash, and leave it there. -/
def escape (l : Lexer) (quoted : Bool) (c : Char) : Lexer :=
  if c = '\n' then { l with mode := home quoted }
  else if quoted && !(c = '$' || c = backquote || c = quotes || c = '\\') then
    (l.push (.char '\\') .double).push (.char c) .double
  else l.push (.char c) (home quoted)

def dollar (l : Lexer) (quoted : Bool) (c : Char) : Option Lexer :=
  if startsName c then some { l with mode := .name quoted [c] }
  else if c.isDigit then some (l.push (.param (.argument (c.toNat - 48)) quoted) (home quoted))
  else none

def endName (l : Lexer) (quoted : Bool) (cs : List Char) : Lexer :=
  l.push (.param (.variable (String.ofList cs)) quoted) (home quoted)

def step (l : Lexer) (c : Char) : Option Lexer :=
  match l.mode with
  | .plain => l.plain c
  | .single => some (if c = tick then { l with mode := .plain } else l.push (.char c) .single)
  | .double => l.double c
  | .escape quoted => some (l.escape quoted c)
  | .dollar quoted => l.dollar quoted c
  | .name quoted cs =>
    if isNameChar c then some { l with mode := .name quoted (cs ++ [c]) }
    else if quoted then (l.endName quoted cs).double c
    else (l.endName quoted cs).plain c

def feed (l : Lexer) (cs : List Char) : Option Lexer := cs.foldlM step l

/-- The tokens at the end of a text, unless something is left open. -/
def finish (l : Lexer) : Option (List Token) :=
  match l.mode with
  | .plain => some l.endWord.tokens
  | .name false cs => some (l.endName false cs).endWord.tokens
  | _ => none

end Lexer

def tokens (cs : List Char) : Option (List Token) := (Lexer.feed {} cs).bind Lexer.finish

/-- A simple command, as its words. -/
abbrev SimpleCommand := List (List Piece)

/-- The commands of a list of tokens, the first of which is under way.  An empty line is no command, and
a semicolon needs one. -/
def commands : SimpleCommand → List Token → Option (List SimpleCommand)
  | ws, [] => some (if ws.isEmpty then [] else [ws])
  | ws, .word ps :: ts => commands (ws ++ [ps]) ts
  | ws, .newline :: ts => if ws.isEmpty then commands [] ts else (ws :: ·) <$> commands [] ts
  | ws, .semicolon :: ts => if ws.isEmpty then none else (ws :: ·) <$> commands [] ts

def parse (s : String) : Option (List SimpleCommand) := (tokens s.toList).bind (commands [])

/-! ### What was read before -/

namespace Lexer

/-- A lexer that has read other tokens before. -/
def behind (ts : List Token) (l : Lexer) : Lexer := { l with tokens := ts ++ l.tokens }

@[simp] theorem feed_nil (l : Lexer) : l.feed [] = some l := rfl

@[simp] theorem feed_cons (l : Lexer) (c : Char) (cs : List Char) :
    l.feed (c :: cs) = (l.step c).bind (feed · cs) := rfl

theorem feed_append (l : Lexer) (cs ds : List Char) :
    l.feed (cs ++ ds) = (l.feed cs).bind (feed · ds) := List.foldlM_append

theorem endWord_behind (ts : List Token) (l : Lexer) :
    (l.behind ts).endWord = l.endWord.behind ts := by
  unfold endWord behind
  split <;> simp

theorem endWith_behind (ts : List Token) (l : Lexer) (t : Token) :
    (l.behind ts).endWith t = (l.endWith t).behind ts := by
  unfold endWith
  rw [endWord_behind]
  simp [behind]

theorem plain_behind (ts : List Token) (l : Lexer) (c : Char) :
    (l.behind ts).plain c = (l.plain c).map (behind ts) := by
  unfold plain
  rw [endWord_behind, endWith_behind, endWith_behind]
  simp only [apply_ite (Option.map (behind ts)), Option.map_some, Option.map_none]
  rfl

theorem double_behind (ts : List Token) (l : Lexer) (c : Char) :
    (l.behind ts).double c = (l.double c).map (behind ts) := by
  unfold double
  simp only [apply_ite (Option.map (behind ts)), Option.map_some, Option.map_none]
  rfl

theorem escape_behind (ts : List Token) (l : Lexer) (quoted : Bool) (c : Char) :
    (l.behind ts).escape quoted c = (l.escape quoted c).behind ts := by
  unfold escape
  simp only [apply_ite (behind ts)]
  rfl

theorem dollar_behind (ts : List Token) (l : Lexer) (quoted : Bool) (c : Char) :
    (l.behind ts).dollar quoted c = (l.dollar quoted c).map (behind ts) := by
  unfold dollar
  simp only [apply_ite (Option.map (behind ts)), Option.map_some, Option.map_none]
  rfl

theorem step_behind (ts : List Token) (l : Lexer) (c : Char) :
    (l.behind ts).step c = (l.step c).map (behind ts) := by
  unfold step
  rw [show (l.behind ts).mode = l.mode from rfl]
  cases l.mode with
  | plain => exact plain_behind ts l c
  | single =>
    simp only [Option.map_some, apply_ite (behind ts)]
    rfl
  | double => exact double_behind ts l c
  | escape quoted => exact congrArg some (escape_behind ts l quoted c)
  | dollar quoted => exact dollar_behind ts l quoted c
  | name quoted cs =>
    have hend : (l.behind ts).endName quoted cs = (l.endName quoted cs).behind ts := rfl
    simp only [hend, plain_behind, double_behind, apply_ite (Option.map (behind ts)), Option.map_some]
    rfl

/-- **What was read before does not matter.** -/
theorem feed_behind (ts : List Token) (l : Lexer) (cs : List Char) :
    (l.behind ts).feed cs = (l.feed cs).map (behind ts) := by
  induction cs generalizing l with
  | nil => rfl
  | cons c cs ih =>
    rw [feed_cons, feed_cons, step_behind]
    cases l.step c with
    | none => rfl
    | some l' => exact ih l'

theorem finish_behind (ts : List Token) (l : Lexer) :
    (l.behind ts).finish = l.finish.map (ts ++ ·) := by
  unfold finish
  rw [show (l.behind ts).mode = l.mode from rfl]
  split
  · rw [endWord_behind]
    rfl
  · next cs h =>
    have hend : (l.behind ts).endName false cs = (l.endName false cs).behind ts := rfl
    rw [hend, endWord_behind]
    rfl
  · rfl

end Lexer

/-! ### Texts that become tokens -/

/-- A text that becomes tokens, whatever comes before and behind it. -/
def Yields (cs : List Char) (ts : List Token) : Prop := Lexer.feed {} cs = some { tokens := ts }

instance (cs : List Char) (ts : List Token) : Decidable (Yields cs ts) := by
  unfold Yields
  infer_instance

namespace Yields

theorem nil : Yields [] [] := rfl

theorem append {cs ds : List Char} {ts us : List Token} (h : Yields cs ts) (h' : Yields ds us) :
    Yields (cs ++ ds) (ts ++ us) := by
  unfold Yields at *
  rw [Lexer.feed_append, h]
  have := Lexer.feed_behind ts {} ds
  rw [h'] at this
  simpa [Lexer.behind] using this

/-- What stands behind such a text is read as if it stood alone. -/
theorem tokens_append {cs : List Char} {ts : List Token} (h : Yields cs ts) (ds : List Char) :
    tokens (cs ++ ds) = (tokens ds).map (ts ++ ·) := by
  have hf := Lexer.feed_behind ts {} ds
  have hb : Lexer.behind ts {} = { tokens := ts } := by simp [Lexer.behind]
  unfold tokens
  rw [Lexer.feed_append, h, Option.bind_some, ← hb, hf]
  cases Lexer.feed {} ds with
  | none => rfl
  | some l => exact Lexer.finish_behind ts l

theorem tokens_eq {cs : List Char} {ts : List Token} (h : Yields cs ts) : tokens cs = some ts := by
  have := h.tokens_append []
  rw [List.append_nil] at this
  rw [this]
  simp [tokens, Lexer.finish, Lexer.endWord]

theorem flatMap {α : Type} {f : α → List Char} {g : α → List Token} {xs : List α}
    (h : ∀ x ∈ xs, Yields (f x) (g x)) : Yields (xs.flatMap f) (xs.flatMap g) := by
  induction xs with
  | nil => exact nil
  | cons x xs ih => exact (h x List.mem_cons_self).append (ih fun y hy => h y (List.mem_cons_of_mem _ hy))

end Yields

/-- A text that becomes a part of a word, wherever a word may be. -/
def Spells (cs : List Char) (ps : List Piece) : Prop :=
  ∀ l : Lexer, l.mode = .plain → l.feed cs = some { l with word := l.word ++ ps }

namespace Spells

theorem nil : Spells [] [] := fun l _ => by simp

theorem append {cs ds : List Char} {ps qs : List Piece} (h : Spells cs ps) (h' : Spells ds qs) :
    Spells (cs ++ ds) (ps ++ qs) := by
  intro l hl
  rw [Lexer.feed_append, h l hl, Option.bind_some, ← List.append_assoc]
  exact h' { l with word := l.word ++ ps } hl

section

variable {cs : List Char} {ps : List Piece}

/-- A word that does not go on. -/
theorem endWord_eq (hps : ps ≠ []) : Lexer.endWord { word := ps } = { tokens := [.word ps] } := by
  simp [Lexer.endWord, hps]

theorem space (h : Spells cs ps) (hps : ps ≠ []) : Yields (cs ++ [' ']) [.word ps] := by
  unfold Yields
  rw [Lexer.feed_append, h {} rfl, ← endWord_eq hps]
  rfl

/-- A word with nothing behind it. -/
theorem tokens_eq (h : Spells cs ps) (hps : ps ≠ []) : tokens cs = some [.word ps] := by
  unfold tokens
  rw [h {} rfl, Option.bind_some]
  simp only [Lexer.finish, List.nil_append, endWord_eq hps]

theorem endWith_eq (hps : ps ≠ []) (t : Token) :
    Lexer.endWith { word := ps } t = { tokens := [.word ps, t] } := by
  simp [Lexer.endWith, endWord_eq hps]

theorem newline (h : Spells cs ps) (hps : ps ≠ []) :
    Yields (cs ++ ['\n']) [.word ps, .newline] := by
  unfold Yields
  rw [Lexer.feed_append, h {} rfl, ← endWith_eq hps]
  rfl

theorem semicolon (h : Spells cs ps) (hps : ps ≠ []) :
    Yields (cs ++ [';']) [.word ps, .semicolon] := by
  unfold Yields
  rw [Lexer.feed_append, h {} rfl, ← endWith_eq hps]
  rfl

end

end Spells

/-! ### Tokens that become commands -/

theorem commands_words (ws vs : SimpleCommand) (ts : List Token) :
    commands ws (vs.map .word ++ ts) = commands (ws ++ vs) ts := by
  induction vs generalizing ws with
  | nil => rw [List.append_nil]; rfl
  | cons v vs ih =>
    rw [List.map_cons, List.cons_append, commands, ih, List.append_assoc]
    rfl

/-- A command that is ended. -/
theorem commands_ended {t : Token} (ht : t = .newline ∨ t = .semicolon) {ws : SimpleCommand} (h : ws ≠ [])
    (ts : List Token) :
    commands [] (ws.map .word ++ t :: ts) = (commands [] ts).map (ws :: ·) := by
  rw [commands_words, List.nil_append]
  have hws : ¬ ws.isEmpty = true := by simpa using h
  rcases ht with rfl | rfl
  · rw [commands, if_neg hws]
    rfl
  · rw [commands, if_neg hws]
    rfl

/-- Several commands, all of them ended in the same way. -/
theorem commands_flatMap {t : Token} (ht : t = .newline ∨ t = .semicolon) {cs : List SimpleCommand}
    (h : ∀ c ∈ cs, c ≠ []) (ts : List Token) :
    commands [] ((cs.flatMap fun c => c.map .word ++ [t]) ++ ts) = (commands [] ts).map (cs ++ ·) := by
  induction cs with
  | nil => exact Option.map_id'.symm
  | cons c cs ih =>
    rw [List.flatMap_cons, List.append_assoc, List.append_assoc, List.singleton_append,
      commands_ended ht (h c List.mem_cons_self), ih fun d hd => h d (List.mem_cons_of_mem _ hd),
      Option.map_map]
    rfl

/-- A command that nothing ends. -/
theorem commands_unended {ws : SimpleCommand} (h : ws ≠ []) : commands [] (ws.map .word) = some [ws] := by
  have := commands_words [] ws []
  rw [List.append_nil] at this
  rw [this, List.nil_append, commands, if_neg (by simpa using h)]

end ClusterAgents.Shell
