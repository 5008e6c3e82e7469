import ClusterAgents.Json.Value
import ClusterAgents.Proofs.Digits
import ClusterAgents.Text.Quoted
import ClusterAgents.Time.Clock

/-!
# The lines of a text

* `lines` — the lines of a text, and `lines_join`: what is written line by line is read line by line exactly
  if no line has a newline in it;
* `OneLine` — a text without a newline;
* `oneLine_decimal`, `oneLine_hms`, `oneLine_jsonText`, `oneLine_render` — numbers, times and JSON documents
  are such texts, whatever they hold;
* `oneLine_quote` — a quoted word is one only if the word is.
-/

namespace ClusterAgents.Text

/-- The lines of some characters; the last one need not be ended. -/
def linesOf : List Char → List (List Char)
  | [] => []
  | c :: cs =>
    if c = '\n' then [] :: linesOf cs
    else match linesOf cs with
      | [] => [[c]]
      | l :: ls => (c :: l) :: ls

def lines (s : String) : List String := (linesOf s.toList).map String.ofList

/-- A text without a newline. -/
def OneLine (s : String) : Prop := '\n' ∉ s.toList

instance (s : String) : Decidable (OneLine s) := inferInstanceAs (Decidable (¬ _ ∈ s.toList))

theorem linesOf_newline (cs : List Char) : linesOf ('\n' :: cs) = [] :: linesOf cs := rfl

theorem linesOf_append {l : List Char} (h : '\n' ∉ l) (rest : List Char) :
    linesOf (l ++ '\n' :: rest) = l :: linesOf rest := by
  induction l with
  | nil => exact linesOf_newline rest
  | cons c l ih =>
    obtain ⟨hc, hl⟩ := not_or.mp (mt List.mem_cons.mpr h)
    rw [List.cons_append, linesOf, if_neg (Ne.symm hc), ih hl]

theorem newline_not_mem_linesOf {cs l : List Char} (h : l ∈ linesOf cs) : '\n' ∉ l := by
  induction cs generalizing l with
  | nil => cases h
  | cons c cs ih =>
    rw [linesOf] at h
    split at h
    · rcases List.mem_cons.mp h with rfl | h
      · exact List.not_mem_nil
      · exact ih h
    · next hc =>
      have hc' : '\n' ≠ c := Ne.symm hc
      cases hls : linesOf cs with
      | nil =>
        rw [hls] at h
        obtain rfl := List.mem_singleton.mp h
        simpa using hc'
      | cons l' ls =>
        rw [hls] at h ih
        rcases List.mem_cons.mp h with rfl | h
        · exact List.not_mem_cons_of_ne_of_not_mem hc' (ih List.mem_cons_self)
        · exact ih (List.mem_cons_of_mem _ h)

theorem oneLine_of_mem_lines {s l : String} (h : l ∈ lines s) : OneLine l := by
  obtain ⟨cs, hcs, rfl⟩ := List.mem_map.mp h
  rw [OneLine, String.toList_ofList]
  exact newline_not_mem_linesOf hcs

theorem lines_append {l : String} (h : OneLine l) (rest : String) :
    lines (l ++ "\n" ++ rest) = l :: lines rest := by
  have hlist : (l ++ "\n" ++ rest).toList = l.toList ++ '\n' :: rest.toList := by simp
  rw [lines, hlist, linesOf_append h, List.map_cons, String.ofList_toList]
  rfl

/-- **What is written line by line is read line by line** exactly if no line has a newline in it. -/
theorem lines_join {ls : List String} :
    lines (String.join (ls.map (· ++ "\n"))) = ls ↔ ∀ l ∈ ls, OneLine l := by
  constructor
  · intro h l hl
    rw [← h] at hl
    exact oneLine_of_mem_lines hl
  · intro h
    induction ls with
    | nil => rfl
    | cons l ls ih =>
      obtain ⟨hl, hls⟩ := List.forall_mem_cons.mp h
      rw [List.map_cons, String.join_cons, lines_append hl, ih hls]

/-! ### Texts of one line -/

theorem oneLine_ofList {cs : List Char} : OneLine (String.ofList cs) ↔ '\n' ∉ cs := by
  rw [OneLine, String.toList_ofList]

theorem oneLine_append {s t : String} : OneLine (s ++ t) ↔ OneLine s ∧ OneLine t := by
  simp [OneLine, not_or]

theorem oneLine_intercalate {sep : String} {ss : List String} (hsep : OneLine sep)
    (h : ∀ s ∈ ss, OneLine s) : OneLine (sep.intercalate ss) := by
  induction ss with
  | nil => exact List.not_mem_nil
  | cons s ss ih =>
    obtain ⟨hs, hss⟩ := List.forall_mem_cons.mp h
    cases ss with
    | nil =>
      rw [String.intercalate_singleton]
      exact hs
    | cons t ss =>
      rw [String.intercalate_cons_cons]
      exact oneLine_append.mpr ⟨oneLine_append.mpr ⟨hs, hsep⟩, ih hss⟩

/-! ### Numbers -/

theorem newline_not_mem_digits {cs : List Char} (h : ∀ c ∈ cs, c.isDigit = true) : '\n' ∉ cs :=
  fun hmem => absurd (h _ hmem) (by decide)

theorem newline_not_mem_zeros (n : Nat) : '\n' ∉ List.replicate n '0' :=
  fun h => absurd (List.eq_of_mem_replicate h) (by decide)

theorem newline_not_mem_toDigits (n : Nat) : '\n' ∉ Nat.toDigits 10 n :=
  newline_not_mem_digits fun _ => Nat.isDigit_of_mem_toDigits (by decide) (by decide)

theorem oneLine_decimal (n : Nat) : OneLine (decimal n) :=
  newline_not_mem_digits fun _ => isDigit_of_mem_decimal

theorem oneLine_pad (width n : Nat) : OneLine (pad width n) :=
  oneLine_append.mpr ⟨oneLine_ofList.mpr (newline_not_mem_zeros _), oneLine_decimal n⟩

theorem oneLine_hms (seconds : Nat) : OneLine (Time.hms seconds) := by
  have hcolon : OneLine ":" := by decide +kernel
  unfold Time.hms
  simp only [oneLine_append, oneLine_pad, hcolon, and_self]

theorem oneLine_wholeText (n : Int) : OneLine (Json.wholeText n) := by
  cases n with
  | ofNat n => exact oneLine_decimal n
  | negSucc n =>
    have hsign : OneLine "-" := by decide +kernel
    exact oneLine_append.mpr ⟨hsign, oneLine_decimal (n + 1)⟩

/-! ### Doubles -/

open Number

theorem newline_not_mem_dropZeros {ds : List Char} (h : '\n' ∉ ds) : '\n' ∉ Decimal.dropZeros ds := by
  unfold Decimal.dropZeros
  rw [List.mem_reverse]
  exact fun hmem => h (List.mem_reverse.mp ((List.dropWhile_suffix _).mem hmem))

theorem newline_not_mem_shortest (d : Binary64) : '\n' ∉ d.shortest.digits := by
  have hzero : '\n' ∉ ['0'] := by decide
  unfold Binary64.shortest
  split
  · exact hzero
  · dsimp only
    split
    · exact newline_not_mem_dropZeros (newline_not_mem_toDigits _)
    · exact hzero

theorem newline_not_mem_positional {s : Digits} (h : '\n' ∉ s.digits) : '\n' ∉ s.positional := by
  have hzero := newline_not_mem_zeros
  unfold Digits.positional
  split
  · simp [h, hzero]
  · dsimp only
    split
    · simp [h, hzero]
    · have htake := fun n => mt (List.mem_of_mem_take (i := n)) h
      have hdrop := fun n => mt (List.mem_of_mem_drop (i := n)) h
      simp [htake, hdrop]

theorem newline_not_mem_scientific {s : Digits} (h : '\n' ∉ s.digits) : '\n' ∉ s.scientific := by
  have hexponent := newline_not_mem_toDigits (s.point - 1).natAbs
  unfold Digits.scientific
  dsimp only
  rw [List.mem_append, not_or]
  constructor
  · split
    · exact List.not_mem_nil
    · next hs => exact hs ▸ h
    · next hs =>
      rw [hs] at h
      simp_all
  · split <;> simp [hexponent]

theorem oneLine_jsonText (d : Binary64) : OneLine d.jsonText := by
  have hdigits := newline_not_mem_shortest d
  have hsign : '\n' ∉ d.sign := by
    unfold Binary64.sign
    split <;> decide
  unfold Binary64.jsonText
  dsimp only
  rw [oneLine_ofList, List.mem_append, not_or]
  refine ⟨hsign, ?_⟩
  split
  · exact newline_not_mem_positional hdigits
  · exact newline_not_mem_scientific hdigits

/-! ### JSON documents -/

theorem newline_not_mem_escapeChar (c : Char) : '\n' ∉ Json.escapeChar c := by
  unfold Json.escapeChar
  split
  · next l hl =>
    have hletter : l ≠ '\n' := by
      unfold Json.letterOf? at hl
      grind
    simp [Ne.symm hletter]
  · next hnone =>
    split
    · have hhex : '\n' ∉ Json.hex4 c.toNat := fun h => absurd (mem_padHex h) (by decide +kernel)
      simp [hhex]
    · have hc : c ≠ '\n' := by
        rintro rfl
        cases hnone
      simp [Ne.symm hc]

theorem oneLine_string (s : String) : OneLine (Json.string s) := by
  unfold Json.string
  rw [oneLine_ofList]
  simp [newline_not_mem_escapeChar]

mutual

/-- A document has no newline, whatever texts it holds. -/
theorem oneLine_render : ∀ v : Json, OneLine v.render
  | .null => by decide +kernel
  | .bool true => by decide +kernel
  | .bool false => by decide +kernel
  | .whole n => oneLine_wholeText n
  | .real d => oneLine_jsonText d
  | .text s => oneLine_string s
  | .list items => by
    have hitems := oneLine_intercalate (by decide : OneLine ",") (oneLine_renderItems items)
    have hopen : OneLine "[" := by decide
    have hclose : OneLine "]" := by decide
    rw [Json.render]
    simp only [oneLine_append, hitems, hopen, hclose, and_self]
  | .object fields => by
    have hfields := oneLine_intercalate (by decide : OneLine ",") (oneLine_renderFields fields)
    have hopen : OneLine "\x7b" := by decide
    have hclose : OneLine "\x7d" := by decide
    rw [Json.render]
    simp only [oneLine_append, hfields, hopen, hclose, and_self]

theorem oneLine_renderItems : ∀ items : List Json, ∀ s ∈ Json.renderItems items, OneLine s
  | [] => nofun
  | v :: rest => by
    rw [Json.renderItems]
    exact List.forall_mem_cons.mpr ⟨oneLine_render v, oneLine_renderItems rest⟩

theorem oneLine_renderFields : ∀ fields : List (String × Json), ∀ s ∈ Json.renderFields fields, OneLine s
  | [] => nofun
  | (name, v) :: rest => by
    have hcolon : OneLine ":" := by decide
    have hfield : OneLine (Json.string name ++ ":" ++ v.render) := by
      simp only [oneLine_append, oneLine_string, hcolon, oneLine_render v, and_self]
    rw [Json.renderFields]
    exact List.forall_mem_cons.mpr ⟨hfield, oneLine_renderFields rest⟩

end

/-! ### Words -/

open Shell

theorem newline_mem_quoteChar {c : Char} : '\n' ∈ quoteChar c ↔ c = '\n' := by
  unfold quoteChar
  split
  · next hc =>
    have hne : c ≠ '\n' := by rw [hc]; decide
    simp only [hne, iff_false]
    decide
  · simp [eq_comm]

/-- Quotes protect the characters of a word, but a newline stays a newline. -/
theorem oneLine_quote {s : String} : OneLine (Word.quote s) ↔ OneLine s := by
  unfold Word.quote Word.quoteChars
  rw [oneLine_ofList]
  refine not_congr ?_
  split
  · exact Iff.rfl
  · have htick : '\n' ≠ tick := by decide
    simp [htick, newline_mem_quoteChar]

end ClusterAgents.Text
