import ClusterAgents.Proofs.Shell.Words

/-!
# Commands joined by `&&`

A line that a shell is given may be more than words: operators stand between them.  A `LineReader` goes on where a
`WordReader` stops, and takes the characters there for operators, each of them as long as it can be.  `andList` makes
simple commands of what it finds, if there is nothing but `&&` between them and no redirection but that of the output to
a file; it refuses every other line.  Words are all that is read here: that a shell takes some of them for
assignments or for its own, as the first of a command, is left out.

* `Sign`, `LineReader`, `signsOf` — what a line consists of;
* `Simple`, `andList`, `commandsOf` — the commands on a line;
* `Plain`, `joined` — commands that are written with quoted words;
* `LineReader.feed_words`, `LineReader.Rests.feed_operator` — words without operators, and an operator between blanks;
* `commandsOf_joined` — what was written is read, whatever the words and the names of the files are.
-/

namespace ClusterAgents.Shell

/-! ### Reading a line -/

/-- What a line consists of. -/
inductive Sign
  | word (ms : List Mark)
  /-- A number right before a redirection says what is redirected. -/
  | descriptor (ms : List Mark)
  | operator (cs : List Char)
  deriving DecidableEq, Repr

/-- The operators of two characters. -/
def longOperators : List (List Char) :=
  [['&', '&'], ['|', '|'], [';', ';'], ['<', '<'], ['>', '>'], ['<', '&'], ['>', '&'], ['<', '>'], ['>', '|']]

/-- A line, as far as it was read: whole signs, then an operator that may go on or the words that are read. -/
structure LineReader where
  signs : List Sign := []
  operator : List Char := []
  words : WordReader := {}
  deriving DecidableEq, Repr

/-- Whether a character is read as a digit. -/
def Mark.isDigit : Mark → Bool
  | literal c => c.isDigit
  | special _ => false

/-- The word in front of an operator, with no blank between them. -/
def attached (c : Char) (ms : List Mark) : Sign :=
  if (c = '<' ∨ c = '>') ∧ ms.all Mark.isDigit then .descriptor ms else .word ms

namespace LineReader

/-- The signs that are whole if the operator does not go on. -/
def whole (l : LineReader) : List Sign := l.signs ++ if l.operator = [] then [] else [.operator l.operator]

/-- All signs, if the line does not go on. -/
def all (l : LineReader) : List Sign := l.whole ++ l.words.words.map .word

def interrupt (l : LineReader) (c : Char) : LineReader where
  signs := l.whole ++ l.words.ended.map .word ++ (l.words.current.map (attached c)).toList
  operator := [c]

def step (l : LineReader) (c : Char) : LineReader :=
  if (l.words.step c).place = .beyond then
    if l.operator ++ [c] ∈ longOperators then { l with operator := l.operator ++ [c] } else l.interrupt c
  else { signs := l.whole, words := l.words.step c }

def feed (l : LineReader) (cs : List Char) : LineReader := cs.foldl step l

end LineReader

/-- What a line consists of, unless quotes are left open. -/
def signsOf (s : String) : Option (List Sign) :=
  let l := LineReader.feed {} s.toList
  if l.words.place = .plain then some l.all else none

/-- A simple command: its words, and the file that its output goes to. -/
structure Simple where
  words : List (List Mark) := []
  target : Option (List Mark) := none
  deriving DecidableEq, Repr

/-- The commands of a list of signs, the first of which is under way.  Each has a word, and at most one file. -/
def andList : Simple → List Sign → Option (List Simple)
  | c, [] => if c.words = [] then none else some [c]
  | c, .word ms :: rest => andList { c with words := c.words ++ [ms] } rest
  | c, .operator ['>'] :: .word ms :: rest =>
    if c.target = none then andList { c with target := some ms } rest else none
  | c, .operator ['&', '&'] :: rest => if c.words = [] then none else (c :: ·) <$> andList {} rest
  | _, _ => none

def commandsOf (s : String) : Option (List Simple) := (signsOf s).bind (andList {})

/-! ### Writing a line -/

/-- A command of words that mean themselves. -/
structure Plain where
  program : String
  args : List String := []
  target : Option String := none
  deriving DecidableEq, Repr

namespace Plain

/-- How it is written: each word quoted, with a blank between them. -/
def text (p : Plain) : String :=
  match p.target with
  | none => Word.join (p.program :: p.args)
  | some file => Word.join (p.program :: p.args) ++ " > " ++ Word.quote file

def simple (p : Plain) : Simple := ⟨(p.program :: p.args).map literalWord, p.target.map literalWord⟩

/-- The signs that it consists of. -/
def signs (p : Plain) : List Sign :=
  (p.program :: p.args).map (.word ∘ literalWord) ++
    match p.target with
    | none => []
    | some file => [.operator ['>'], .word (literalWord file)]

end Plain

/-- Commands joined by `&&`. -/
def joined : List Plain → String
  | [] => ""
  | [p] => p.text
  | p :: ps => p.text ++ " && " ++ joined ps

def joinedSigns : List Plain → List Sign
  | [] => []
  | [p] => p.signs
  | p :: ps => p.signs ++ .operator ['&', '&'] :: joinedSigns ps

section

variable (p : Plain) {ps : List Plain}

theorem joined_cons (hps : ps ≠ []) : joined (p :: ps) = p.text ++ " && " ++ joined ps := by
  cases ps with
  | nil => exact absurd rfl hps
  | cons q qs => rfl

theorem joinedSigns_cons (hps : ps ≠ []) :
    joinedSigns (p :: ps) = p.signs ++ .operator ['&', '&'] :: joinedSigns ps := by
  cases ps with
  | nil => exact absurd rfl hps
  | cons q qs => rfl

end

/-! ### Words and operators on a line -/

/-- Behind the end of a command nothing is read. -/
theorem WordReader.feed_beyond {r : WordReader} (hr : r.place = .beyond) (cs : List Char) :
    (r.feed cs).place = .beyond := by
  induction cs generalizing r with
  | nil => exact hr
  | cons c cs ih =>
    rw [feed_cons]
    refine ih ?_
    rw [step, hr]
    exact hr

namespace LineReader

theorem feed_append (l : LineReader) (cs ds : List Char) : l.feed (cs ++ ds) = (l.feed cs).feed ds :=
  List.foldl_append

theorem whole_of_nil (ss : List Sign) (r : WordReader) : whole { signs := ss, words := r } = ss :=
  List.append_nil _

/-- **Words without operators** are read as a `WordReader` reads them. -/
theorem feed_words (ss : List Sign) {r : WordReader} {cs : List Char} (h : (r.feed cs).place ≠ .beyond) :
    feed { signs := ss, words := r } cs = { signs := ss, words := r.feed cs } := by
  induction cs generalizing r with
  | nil => rfl
  | cons c cs ih =>
    have hplace : (r.step c).place ≠ .beyond := fun hbeyond => h (WordReader.feed_beyond hbeyond cs)
    have hstep : step { signs := ss, words := r } c = { signs := ss, words := r.step c } := by
      rw [step, if_neg hplace, whole_of_nil]
    exact (congrArg (feed · cs) hstep).trans (ih h)

/-- A reader that is outside of quotes, behind words. -/
def Rests (l : LineReader) (ss : List Sign) : Prop :=
  l.operator = [] ∧ l.words.place = .plain ∧ l.signs ++ l.words.words.map .word = ss

/-- **An operator between blanks** ends the words before it. -/
theorem Rests.feed_operator {l : LineReader} {ss : List Sign} (h : l.Rests ss) {op : List Char}
    (hop : op ∈ [['>'], ['&', '&']]) : l.feed (' ' :: op ++ [' ']) = { signs := ss ++ [.operator op] } := by
  obtain ⟨before, _, r⟩ := l
  obtain ⟨rfl, hr : r.place = .plain, rfl⟩ := h
  have hblank : step { signs := before, words := r } ' ' = { signs := before, words := { ended := r.words } } := by
    have hcut : r.step ' ' = { ended := r.words } := by
      rw [WordReader.step, hr]
      rfl
    rw [step, hcut, whole_of_nil]
    rfl
  -- the word is ended, so that nothing is attached to the operator
  have hrest : feed { signs := before, words := { ended := r.words } } (op ++ [' ']) =
      { signs := before ++ [] ++ r.words.map .word ++ [] ++ [.operator op] } := by
    simp only [List.mem_cons, List.not_mem_nil, or_false] at hop
    obtain rfl | rfl := hop <;> rfl
  rw [List.append_nil, List.append_nil] at hrest
  exact (congrArg (feed · (op ++ [' '])) hblank).trans hrest

/-- Quoted words behind whatever there is. -/
theorem rests_join (ss : List Sign) (ws : List String) :
    Rests (feed { signs := ss } (Word.join ws).toList) (ss ++ ws.map (.word ∘ literalWord)) := by
  have hread : Literally (WordReader.feed {} (Word.join ws).toList) ws := wordsOf_join ws
  rw [feed_words ss (by rw [hread.1]; exact Place.noConfusion)]
  refine ⟨rfl, hread.1, ?_⟩
  rw [hread.2, List.map_map]

theorem rests_text (ss : List Sign) (p : Plain) : Rests (feed { signs := ss } p.text.toList) (ss ++ p.signs) := by
  unfold Plain.text Plain.signs
  have hwords := rests_join ss (p.program :: p.args)
  cases p.target with
  | none =>
    rw [List.append_nil]
    exact hwords
  | some file =>
    have hoperator := hwords.feed_operator List.mem_cons_self
    have hfile (front : List Sign) :
        Rests (feed { signs := front } (Word.quote file).toList) (front ++ [.word (literalWord file)]) :=
      rests_join front [file]
    have hrest := hfile (ss ++ (p.program :: p.args).map (.word ∘ literalWord) ++ [.operator ['>']])
    rw [String.toList_append, String.toList_append, feed_append, feed_append,
      show " > ".toList = ' ' :: ['>'] ++ [' '] from rfl, hoperator]
    simpa only [List.append_assoc, List.singleton_append] using hrest

theorem rests_joined (ss : List Sign) (ps : List Plain) :
    Rests (feed { signs := ss } (joined ps).toList) (ss ++ joinedSigns ps) := by
  induction ps using joined.induct generalizing ss with
  | case1 => exact ⟨rfl, rfl, rfl⟩
  | case2 p => exact rests_text ss p
  | case3 p ps hps ih =>
    have hoperator := (rests_text ss p).feed_operator (List.mem_cons_of_mem _ List.mem_cons_self)
    have hrest := ih (ss ++ p.signs ++ [.operator ['&', '&']])
    rw [joined_cons p hps, joinedSigns_cons p hps, String.toList_append, String.toList_append, feed_append,
      feed_append, show " && ".toList = ' ' :: ['&', '&'] ++ [' '] from rfl, hoperator]
    simpa only [List.append_assoc, List.singleton_append] using hrest

end LineReader

theorem signsOf_joined (ps : List Plain) : signsOf (joined ps) = some (joinedSigns ps) := by
  obtain ⟨hoperator, hplace, hsigns⟩ := LineReader.rests_joined [] ps
  unfold signsOf
  refine (if_pos hplace).trans (congrArg some ?_)
  rw [LineReader.all, LineReader.whole, if_pos hoperator, List.append_nil]
  exact hsigns

/-! ### Commands on a line -/

/-- The words at the front belong to the command that is under way. -/
theorem andList_words (c : Simple) (ws : List String) (rest : List Sign) :
    andList c (ws.map (.word ∘ literalWord) ++ rest) =
      andList { c with words := c.words ++ ws.map literalWord } rest := by
  induction ws generalizing c with
  | nil =>
    rw [List.map_nil, List.map_nil, List.append_nil]
    rfl
  | cons w ws ih =>
    rw [List.map_cons, List.cons_append, Function.comp_apply, andList, ih, List.map_cons]
    simp only [List.append_assoc, List.singleton_append]

/-- The signs of a command are the command, whatever comes behind it. -/
theorem andList_signs (p : Plain) (rest : List Sign) : andList {} (p.signs ++ rest) = andList p.simple rest := by
  unfold Plain.signs Plain.simple
  rw [List.append_assoc, andList_words]
  cases p.target <;> rfl

/-- **Commands that are joined are read as they are**, whatever words and files are in them. -/
theorem commandsOf_joined {ps : List Plain} (hps : ps ≠ []) :
    commandsOf (joined ps) = some (ps.map Plain.simple) := by
  rw [commandsOf, signsOf_joined, Option.bind_some]
  induction ps using joinedSigns.induct with
  | case1 => exact absurd rfl hps
  | case2 p =>
    have hsigns := andList_signs p []
    rw [List.append_nil] at hsigns
    exact hsigns
  | case3 p ps hne ih =>
    rw [joinedSigns_cons p hne, andList_signs, andList, ih hne]
    rfl

/-- What is not quoted is an operator, and a line with another one than those known here is refused. -/
example : commandsOf "cat >a'>b' && rm \\&\\& c" =
    some [Plain.simple ⟨"cat", [], some "a>b"⟩, Plain.simple ⟨"rm", ["&&", "c"], none⟩] ∧
    commandsOf "cat a; rm b" = none ∧ commandsOf "cat 2> a" = none := by decide +kernel

end ClusterAgents.Shell
