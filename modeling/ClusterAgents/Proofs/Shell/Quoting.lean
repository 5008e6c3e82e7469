import ClusterAgents.Proofs.Shell.Session

/-!
# Quoted words are read back

* `Word.spelling` — the pieces that a quoted text is read as;
* `Spells.quote`, `Stands.spelling` — it is read as these pieces, and they stand for the text;
* `Yields.join`, `Yields.line`, `parse_join` — a command line is read as its words, with a blank, a line end or
  nothing behind it;
* `Session.words_spelling` — which are the words again in every session.
-/

namespace ClusterAgents.Shell

/-! ### Safe characters -/

theorem ne_of_isSafe {c d : Char} (h : isSafe c = true) (hd : isSafe d = false) : c ≠ d := by
  rintro rfl
  rw [h] at hd
  cases hd

theorem not_mem_of_isSafe {c : Char} (h : isSafe c = true) {cs : List Char}
    (hall : cs.all (fun d => !isSafe d) = true) : c ∉ cs := by
  intro hc
  have hd := List.all_eq_true.mp hall c hc
  rw [h] at hd
  cases hd

/-- A safe character stands for itself. -/
theorem Lexer.plain_of_isSafe {c : Char} (h : isSafe c = true) (l : Lexer) :
    l.plain c = some (l.push (.char c) .plain) := by
  have ne (d : Char) (hd : isSafe d = false) : ¬ c = d := ne_of_isSafe h hd
  have hblank : ¬ (c = ' ' ∨ c = '\t') := not_or.mpr ⟨ne _ (by decide), ne _ (by decide)⟩
  have hforeign : c ∉ foreign := not_mem_of_isSafe h (by decide)
  unfold Lexer.plain
  rw [if_neg hblank, if_neg (ne '\n' (by decide)), if_neg (ne ';' (by decide)),
    if_neg (ne tick (by decide)), if_neg (ne quotes (by decide)), if_neg (ne '\\' (by decide)),
    if_neg (ne '$' (by decide)), if_neg hforeign]

theorem Spells.safe {cs : List Char} (h : ∀ c ∈ cs, isSafe c = true) : Spells cs (cs.map .char) := by
  induction cs with
  | nil => exact Spells.nil
  | cons c cs ih =>
    have hc : Spells [c] [.char c] := by
      intro l hl
      rw [Lexer.feed_cons, Lexer.step, hl]
      simp only [Lexer.plain_of_isSafe (h c List.mem_cons_self), Option.bind_some, Lexer.feed_nil]
      rw [Lexer.push, ← hl]
    exact hc.append (ih fun d hd => h d (List.mem_cons_of_mem _ hd))

/-! ### Characters between quotes -/

/-- The pieces of one character between single quotes. -/
def spellChar (c : Char) : List Piece := if c = tick then [.char tick, .quotes] else [.char c]

/-- Between single quotes every character is read as itself, also the one that ends them. -/
theorem Lexer.feed_quoteChar (c : Char) (l : Lexer) (hl : l.mode = .single) :
    l.feed (quoteChar c) = some { l with word := l.word ++ spellChar c } := by
  unfold quoteChar spellChar
  split
  · rw [Lexer.feed_cons, Lexer.step, hl]
    simp only [if_pos, Option.bind_some]
    have hesc : Lexer.feed { l with mode := .plain } ['\\', tick, tick] =
        some (((Lexer.escape { l with mode := .escape false } false tick).push .quotes .single)) := rfl
    rw [hesc]
    simp only [Lexer.escape, Lexer.push, Lexer.home, Bool.false_and, Bool.false_eq_true, if_false,
      if_neg (show ¬ tick = '\n' by decide), List.append_assoc, List.cons_append, List.nil_append, ← hl]
  · next h =>
    rw [Lexer.feed_cons, Lexer.step, hl]
    simp only [if_neg h, Option.bind_some, Lexer.feed_nil]
    rw [Lexer.push, ← hl]

theorem Lexer.feed_quoteChars (cs : List Char) (l : Lexer) (hl : l.mode = .single) :
    l.feed (cs.flatMap quoteChar) = some { l with word := l.word ++ cs.flatMap spellChar } := by
  induction cs generalizing l with
  | nil => simp
  | cons c cs ih =>
    rw [List.flatMap_cons, Lexer.feed_append, Lexer.feed_quoteChar c l hl, Option.bind_some]
    rw [ih { l with word := l.word ++ spellChar c } hl, List.flatMap_cons, ← List.append_assoc]

theorem Spells.quoted (cs : List Char) :
    Spells (tick :: cs.flatMap quoteChar ++ [tick]) (.quotes :: cs.flatMap spellChar) := by
  intro l hl
  have hopen : l.step tick = some (l.push .quotes .single) := by
    unfold Lexer.step
    rw [hl]
    rfl
  rw [List.cons_append, Lexer.feed_cons, hopen, Option.bind_some, Lexer.feed_append,
    Lexer.feed_quoteChars cs _ rfl, Option.bind_some, Lexer.feed_cons]
  simp only [Lexer.step, Lexer.push, if_pos, Option.bind_some, Lexer.feed_nil, ← hl, List.append_assoc,
    List.singleton_append]

theorem Stands.spellChars (cs : List Char) : Stands (.quotes :: cs.flatMap spellChar) cs := by
  have hchar (c : Char) : Stands (spellChar c) [c] := by
    unfold spellChar
    split
    · next h =>
      rw [h]
      exact (Stands.char tick).append Stands.quotes
    · exact Stands.char c
  -- the quotes that were opened first are there even if nothing else is
  have hall : ∀ (ps : List Piece) (ds cs : List Char), Stands ps ds →
      Stands (ps ++ cs.flatMap spellChar) (ds ++ cs) := by
    intro ps ds cs hps
    induction cs generalizing ps ds with
    | nil => simpa using hps
    | cons c cs ih =>
      have := ih _ _ (hps.append (hchar c))
      simpa using this
  exact hall [.quotes] [] cs Stands.quotes

/-! ### Words -/

namespace Word

/-- The pieces that a quoted text is read as. -/
def spelling (s : String) : List Piece :=
  if !s.toList.isEmpty && s.toList.all isSafe then s.toList.map .char
  else .quotes :: s.toList.flatMap spellChar

theorem spelling_ne_nil (s : String) : spelling s ≠ [] := by
  unfold spelling
  split
  · next h =>
    rw [Bool.and_eq_true, Bool.not_eq_true', List.isEmpty_eq_false_iff] at h
    exact fun he => h.1 (List.map_eq_nil_iff.mp he)
  · exact List.cons_ne_nil _ _

theorem toList_quote (s : String) : (quote s).toList = quoteChars s.toList := String.toList_ofList

/-- A text of safe characters is a word as it is. -/
theorem quote_of_safe {s : String} (hne : s ≠ "") (h : ∀ c ∈ s.toList, isSafe c = true) :
    quote s = s := by
  have hs : (!s.toList.isEmpty && s.toList.all isSafe) = true := by
    rw [Bool.and_eq_true, Bool.not_eq_true', List.isEmpty_eq_false_iff, List.all_eq_true]
    exact ⟨fun he => hne (String.toList_eq_nil_iff.mp he), h⟩
  unfold quote quoteChars
  rw [if_pos hs, String.ofList_toList]

end Word

open Word

/-- A quoted text is a word. -/
theorem Spells.quote (s : String) : Spells (Word.quote s).toList (spelling s) := by
  rw [toList_quote]
  unfold quoteChars spelling
  split
  · next h =>
    rw [Bool.and_eq_true, List.all_eq_true] at h
    exact Spells.safe h.2
  · exact Spells.quoted s.toList

/-- **It stands for the text**, whatever is in it. -/
theorem Stands.spelling (s : String) : Stands (Word.spelling s) s.toList := by
  unfold Word.spelling
  split
  · next h =>
    rw [Bool.and_eq_true, Bool.not_eq_true', List.isEmpty_eq_false_iff] at h
    exact Stands.chars h.1
  · exact Stands.spellChars s.toList

/-- **The words of a command line are read back** in every session. -/
theorem Session.words_spelling (σ : Session) (ws : List String) :
    σ.words (ws.map spelling) = some ws := by
  induction ws with
  | nil => rfl
  | cons w ws ih =>
    rw [List.map_cons, words_cons, (Stands.spelling w).fields, ih, String.ofList_toList]
    rfl

/-! ### SimpleCommand lines -/

theorem toList_join_append (ws : List String) (w : String) :
    (join (ws ++ [w])).toList = (ws.flatMap fun v => (Word.quote v).toList ++ [' ']) ++
      (Word.quote w).toList := by
  unfold join
  induction ws with
  | nil => simp
  | cons v ws ih =>
    have hne : (ws ++ [w]).map Word.quote ≠ [] := by simp
    rw [List.cons_append, List.map_cons, String.intercalate_cons_of_ne_nil hne, String.toList_append,
      String.toList_append, ih, List.flatMap_cons]
    simp

/-- Words with a blank behind each of them. -/
theorem Yields.words (ws : List String) :
    Yields (ws.flatMap fun w => (Word.quote w).toList ++ [' ']) ((ws.map spelling).map .word) := by
  rw [List.map_map, List.map_eq_flatMap]
  exact Yields.flatMap fun w _ => (Spells.quote w).space (spelling_ne_nil w)

/-- A command line with a blank behind it. -/
theorem Yields.join (ws : List String) :
    Yields ((Word.join ws).toList ++ [' ']) ((ws.map spelling).map .word) := by
  rcases List.eq_nil_or_concat' ws with rfl | ⟨vs, w, rfl⟩
  · rfl
  · rw [toList_join_append, List.append_assoc, List.map_append, List.map_append]
    exact (Yields.words vs).append ((Spells.quote w).space (spelling_ne_nil w))

/-- A command line with the end of the line behind it. -/
theorem Yields.line (ws : List String) :
    Yields ((Word.join ws).toList ++ ['\n']) ((ws.map spelling).map .word ++ [.newline]) := by
  rcases List.eq_nil_or_concat' ws with rfl | ⟨vs, w, rfl⟩
  · rfl
  · rw [toList_join_append, List.append_assoc, List.map_append, List.map_append, List.append_assoc]
    exact (Yields.words vs).append ((Spells.quote w).newline (spelling_ne_nil w))

/-- **A command line with nothing behind it** is one command. -/
theorem parse_join {ws : List String} (h : ws ≠ []) : parse (Word.join ws) = some [ws.map spelling] := by
  obtain ⟨vs, w, rfl⟩ := (List.eq_nil_or_concat' ws).resolve_left h
  have htokens : tokens (Word.join (vs ++ [w])).toList = some (((vs ++ [w]).map spelling).map .word) := by
    rw [toList_join_append, (Yields.words vs).tokens_append, (Spells.quote w).tokens_eq (spelling_ne_nil w),
      List.map_append, List.map_append]
    rfl
  rw [parse, htokens, Option.bind_some]
  exact commands_unended (by simp)

/-- Words that a shell takes as they are, with blanks between them. -/
theorem join_of_quote {ws : List String} (h : ∀ w ∈ ws, Word.quote w = w) : Word.join ws = " ".intercalate ws := by
  rw [Word.join, List.map_congr_left h, List.map_id']

end ClusterAgents.Shell
