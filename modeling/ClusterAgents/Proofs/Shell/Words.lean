import ClusterAgents.Proofs.Shell.Quoting

/-!
# The words of a text

Whatever a text is, a shell takes words from the front of it: blanks separate them, a line end or an operator ends
the command, and a character that is not quoted may mean something else than itself.  A `WordReader` takes one
character after the other and marks those; it refuses nothing, so that what follows a word need not be readable.

* `Mark`, `WordReader`, `wordsOf` — what a character is read as, a reader, and what it makes of a text;
* `WordReader.feed_behind` — words that were read before do not matter;
* `WordReader.feed_quoteChars` — a quoted text is read as its characters, none of which is marked;
* `Literally`, `quoting_is_read_back` — a text that is read as words which mean themselves, and quoted words as such.
-/

namespace ClusterAgents.Shell

/-! ### Reading words -/

/-- What a character of a word is read as. -/
inductive Mark
  /-- It stands for itself: it means nothing else, or is quoted. -/
  | literal (c : Char)
  /-- It is not quoted, and means something else. -/
  | special (c : Char)
  deriving DecidableEq, Repr

/-- Where the next character stands. -/
inductive Place
  | plain
  /-- Between single quotes. -/
  | quoted
  /-- Behind a backslash. -/
  | escaped
  /-- Behind the end of the command. -/
  | beyond
  deriving DecidableEq, Repr

/-- The words at the front of a text, as far as it was read. -/
structure WordReader where
  place : Place := .plain
  /-- The words that are ended. -/
  ended : List (List Mark) := []
  /-- The word that goes on, which may be empty if it was quoted. -/
  current : Option (List Mark) := none
  deriving DecidableEq, Repr

/-- The characters that separate words. -/
def separators : List Char := [' ', '\t']

/-- The characters that end a command: the end of a line, and those that operators consist of. -/
def terminators : List Char := ['\n', ';', '&', '|', '<', '>', '(', ')']

/-- The characters that mean something else than themselves, unless they are quoted. -/
def specials : List Char :=
  ['$', backquote, '~', '*', '?', '[', ']', '\x7b', '\x7d', '#', '!', quotes]

namespace WordReader

/-- All words, the last of which may go on. -/
def words (r : WordReader) : List (List Mark) := r.ended ++ r.current.toList

def add (r : WordReader) (ms : List Mark) (place : Place) : WordReader :=
  { r with place, current := some (r.current.getD [] ++ ms) }

def cut (r : WordReader) (place : Place) : WordReader := { place, ended := r.words, current := none }

def plain (r : WordReader) (c : Char) : WordReader :=
  if c ∈ separators then r.cut .plain
  else if c ∈ terminators then r.cut .beyond
  else if c = tick then r.add [] .quoted
  else if c = '\\' then r.add [] .escaped
  else if c ∈ specials then r.add [.special c] .plain
  else r.add [.literal c] .plain

def step (r : WordReader) (c : Char) : WordReader :=
  match r.place with
  | .plain => r.plain c
  | .quoted => if c = tick then { r with place := .plain } else r.add [.literal c] .quoted
  | .escaped => r.add [.literal c] .plain
  | .beyond => r

def feed (r : WordReader) (cs : List Char) : WordReader := cs.foldl step r

end WordReader

def wordsOf (s : String) : WordReader := WordReader.feed {} s.toList

/-- A text as a word that means itself. -/
def literalWord (s : String) : List Mark := s.toList.map .literal

/-- A text is read as words that mean themselves: nothing special is in them, and no quotes are left open. -/
def Literally (r : WordReader) (ws : List String) : Prop := r.place = .plain ∧ r.words = ws.map literalWord

/-! ### What was read before -/

namespace WordReader

/-- A reader that has read other words before. -/
def behind (ws : List (List Mark)) (r : WordReader) : WordReader := { r with ended := ws ++ r.ended }

@[simp] theorem feed_nil (r : WordReader) : r.feed [] = r := rfl

@[simp] theorem feed_cons (r : WordReader) (c : Char) (cs : List Char) : r.feed (c :: cs) = (r.step c).feed cs := rfl

theorem feed_append (r : WordReader) (cs ds : List Char) : r.feed (cs ++ ds) = (r.feed cs).feed ds :=
  List.foldl_append

@[simp] theorem words_behind (ws : List (List Mark)) (r : WordReader) : (r.behind ws).words = ws ++ r.words :=
  List.append_assoc _ _ _

theorem cut_behind (ws : List (List Mark)) (r : WordReader) (place : Place) :
    (r.behind ws).cut place = (r.cut place).behind ws := by
  simp [cut, behind, words]

theorem plain_behind (ws : List (List Mark)) (r : WordReader) (c : Char) :
    (r.behind ws).plain c = (r.plain c).behind ws := by
  unfold plain
  simp only [cut_behind, apply_ite (behind ws)]
  rfl

theorem step_behind (ws : List (List Mark)) (r : WordReader) (c : Char) :
    (r.behind ws).step c = (r.step c).behind ws := by
  unfold step
  rw [show (r.behind ws).place = r.place from rfl]
  cases r.place with
  | plain => exact plain_behind ws r c
  | quoted =>
    simp only [apply_ite (behind ws)]
    rfl
  | escaped => rfl
  | beyond => rfl

/-- **Words that were read before do not matter.** -/
theorem feed_behind (ws : List (List Mark)) (r : WordReader) (cs : List Char) :
    (r.behind ws).feed cs = (r.feed cs).behind ws := by
  induction cs generalizing r with
  | nil => rfl
  | cons c cs ih => rw [feed_cons, feed_cons, step_behind, ih]

/-! ### Quoted texts -/

theorem add_add (r : WordReader) (ms ns : List Mark) (place place' : Place) :
    (r.add ms place).add ns place' = r.add (ms ++ ns) place' := by
  simp [add]

theorem plain_of_isSafe {c : Char} (h : isSafe c = true) (r : WordReader) :
    r.plain c = r.add [.literal c] .plain := by
  have hno : c ∉ separators ++ terminators ++ tick :: '\\' :: specials := not_mem_of_isSafe h (by decide)
  simp only [List.mem_append, List.mem_cons, not_or] at hno
  obtain ⟨⟨hseparator, hterminator⟩, htick, hbackslash, hspecial⟩ := hno
  unfold plain
  rw [if_neg hseparator, if_neg hterminator, if_neg htick, if_neg hbackslash, if_neg hspecial]

theorem feed_safe {cs : List Char} (h : ∀ c ∈ cs, isSafe c = true) (hne : cs ≠ []) {r : WordReader}
    (hr : r.place = .plain) : r.feed cs = r.add (cs.map .literal) .plain := by
  induction cs generalizing r with
  | nil => exact absurd rfl hne
  | cons c cs ih =>
    have hstep : r.step c = r.add [.literal c] .plain := by
      rw [step, hr]
      exact plain_of_isSafe (h c List.mem_cons_self) r
    rw [feed_cons, hstep]
    by_cases hcs : cs = []
    · rw [hcs]
      rfl
    · rw [ih (fun d hd => h d (List.mem_cons_of_mem _ hd)) hcs rfl, add_add]
      rfl

/-- Between single quotes every character is read as itself, also the one that ends them. -/
theorem feed_quoteChar (c : Char) {r : WordReader} (hr : r.place = .quoted) :
    r.feed (quoteChar c) = r.add [.literal c] .quoted := by
  unfold quoteChar
  split
  · next h =>
    subst h
    -- the quotes are left, the character stands escaped, and the quotes are entered again
    have hleave : r.step tick = { r with place := .plain } := by
      rw [step, hr]
      exact if_pos rfl
    have henter : WordReader.feed { r with place := .plain } ['\\', tick, tick] =
        ((WordReader.add { r with place := .plain } [] .escaped).add [.literal tick] .plain).add [] .quoted := rfl
    rw [feed_cons, hleave, henter, add_add, add_add]
    rfl
  · next h =>
    rw [feed_cons, step, hr]
    exact if_neg h

theorem feed_flatMap_quoteChar (cs : List Char) {r : WordReader} (hr : r.place = .quoted)
    (hcurrent : r.current ≠ none) :
    r.feed (cs.flatMap quoteChar) = r.add (cs.map .literal) .quoted := by
  induction cs generalizing r with
  | nil =>
    obtain ⟨ms, hms⟩ := Option.ne_none_iff_exists'.mp hcurrent
    rw [List.flatMap_nil, feed_nil, add, hms, ← hr, List.map_nil, Option.getD_some, List.append_nil, ← hms]
  | cons c cs ih =>
    rw [List.flatMap_cons, feed_append, feed_quoteChar c hr, ih rfl (Option.some_ne_none _), add_add]
    rfl

/-- **A quoted text is read as its characters**, none of them marked, in whatever word it stands. -/
theorem feed_quoteChars (cs : List Char) {r : WordReader} (hr : r.place = .plain) :
    r.feed (Word.quoteChars cs) = r.add (cs.map .literal) .plain := by
  unfold Word.quoteChars
  split
  · next h =>
    rw [Bool.and_eq_true, Bool.not_eq_true', List.isEmpty_eq_false_iff, List.all_eq_true] at h
    exact feed_safe h.2 h.1 hr
  · have hopen : r.step tick = r.add [] .quoted := by
      rw [step, hr]
      rfl
    rw [List.cons_append, feed_cons, hopen, feed_append, feed_flatMap_quoteChar cs rfl (Option.some_ne_none _),
      add_add, List.nil_append]
    rfl

end WordReader

/-! ### Quoted words -/

open WordReader

theorem wordsOf_quote (s : String) : wordsOf (Word.quote s) = { current := some (literalWord s) } := by
  unfold wordsOf
  rw [Word.toList_quote, feed_quoteChars s.toList rfl]
  rfl

/-- **A quoted word with a blank behind it** is read whatever comes next. -/
theorem wordsOf_quote_append (s : String) {blank : Char} (hblank : blank ∈ separators) (rest : String) :
    wordsOf (Word.quote s ++ String.singleton blank ++ rest) = (wordsOf rest).behind [literalWord s] := by
  have hstep : WordReader.step { current := some (literalWord s) } blank = behind [literalWord s] {} := if_pos hblank
  have hquote := wordsOf_quote s
  unfold wordsOf at hquote ⊢
  rw [String.toList_append, String.toList_append, String.toList_singleton, List.append_assoc, feed_append, hquote,
    List.singleton_append, feed_cons, hstep, feed_behind]

theorem wordsOf_join (ws : List String) : Literally (wordsOf (Word.join ws)) ws := by
  induction ws with
  | nil => exact ⟨rfl, rfl⟩
  | cons w ws ih =>
    by_cases hws : ws = []
    · subst hws
      have hone : Word.join [w] = Word.quote w := rfl
      rw [hone, wordsOf_quote]
      exact ⟨rfl, rfl⟩
    · have hjoin : Word.join (w :: ws) = Word.quote w ++ String.singleton ' ' ++ Word.join ws := by
        unfold Word.join
        rw [List.map_cons, String.intercalate_cons_of_ne_nil (by simpa using hws)]
        rfl
      rw [hjoin, wordsOf_quote_append w List.mem_cons_self]
      refine ⟨ih.1, ?_⟩
      rw [words_behind, ih.2]
      rfl

theorem literalWord_injective : Function.Injective literalWord := by
  intro s t h
  exact String.toList_inj.mp (List.map_injective_iff.mpr (fun _ _ => Mark.literal.inj) h)

/-- What quoting has to do for a text and for a command line. -/
structure ReadBack (s : String) (ws : List String) : Prop where
  /-- A quoted text is one word that means itself. -/
  alone : Literally (wordsOf (Word.quote s)) [s]
  /-- It is the first word of a text that goes on with a blank, whatever follows. -/
  before : ∀ (blank : Char), blank ∈ separators → ∀ rest : String,
    (wordsOf (Word.quote s ++ String.singleton blank ++ rest)).words = literalWord s :: (wordsOf rest).words ∧
      (wordsOf (Word.quote s ++ String.singleton blank ++ rest)).place = (wordsOf rest).place
  /-- A command line is its words. -/
  joined : Literally (wordsOf (Word.join ws)) ws
  told : ∀ vs, Word.join vs = Word.join ws → vs = ws

/-- **What was quoted is read back**, whatever is in it. -/
theorem quoting_is_read_back (s : String) (ws : List String) : ReadBack s ws where
  alone := by
    rw [wordsOf_quote]
    exact ⟨rfl, rfl⟩
  before blank hblank rest := by
    rw [wordsOf_quote_append s hblank rest]
    exact ⟨words_behind _ _, rfl⟩
  joined := wordsOf_join ws
  told vs h := by
    have hwords := (wordsOf_join vs).2
    rw [h, (wordsOf_join ws).2] at hwords
    exact (List.map_injective_iff.mpr literalWord_injective hwords).symm

/-- What is not quoted is marked, and what stands behind the command is not read. -/
example : (wordsOf "rm $HOME 'a'\\*; b").words =
    [literalWord "rm", .special '$' :: literalWord "HOME", literalWord "a*"] := by decide +kernel

end ClusterAgents.Shell
