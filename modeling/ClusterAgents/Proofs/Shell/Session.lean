import ClusterAgents.Proofs.Tables
import ClusterAgents.Proofs.Shell.Reader

/-!
# What a shell makes of a text

A shell expands the words of a command to fields and obeys it.  Here it knows the commands that act on
the shell itself, `export`, `set --`, `shift` and `exec`, and nothing that starts another process.

* `Session` — the variables and the arguments of a shell;
* `Session.fields`, `Session.words` — a word and a command, expanded.  A parameter between quotes is one
  field with its neighbours; outside of quotes its value is split at blanks;
* `Session.act`, `run`, `become` — what a command does, what several do up to `exec`, and what becomes of a
  process that is given a text to obey;
* `Stands` — pieces of a word that mean the same in every session.
-/

namespace ClusterAgents.Shell

/-- The variables that a process is started with. -/
abbrev Environment := Table String String

def define (ps : List (String × String)) (e : Environment) : Environment :=
  ps.foldl (fun e p => e.insert p.1 p.2) e

/-- A shell that obeys commands. -/
structure Session where
  environment : Environment := {}
  arguments : List String := []

/-- The fields of a word so far: whole ones, and one that goes on. -/
structure Fields where
  done : List String := []
  current : Option (List Char) := none

namespace Fields

def add (f : Fields) (cs : List Char) : Fields := { f with current := some (f.current.getD [] ++ cs) }

def cut (f : Fields) : Fields :=
  match f.current with
  | none => f
  | some cs => { done := f.done ++ [String.ofList cs] }

/-- The characters at which values are split. -/
def isGap (c : Char) : Bool := c = ' ' || c = '\t' || c = '\n'

def split (f : Fields) (c : Char) : Fields := if isGap c then f.cut else f.add [c]

end Fields

/-- The characters that turn a field into a pattern for the names of files. -/
def isPattern (c : Char) : Bool := c = '*' || c = '?' || c = '[' || c = '\\'

/-- Whether a text is the name of a variable. -/
def isName : List Char → Bool
  | [] => false
  | c :: cs => startsName c && cs.all isNameChar

/-- A field that names a variable and its value. -/
def definition? (field : String) : Option (String × String) :=
  let name := field.toList.takeWhile (· ≠ '=')
  match field.toList.dropWhile (· ≠ '=') with
  | '=' :: value => if isName name then some (String.ofList name, String.ofList value) else none
  | _ => none

def count? (field : String) : Option Nat :=
  if field.toList ≠ [] ∧ field.toList.all Char.isDigit then some (Nat.ofDigitChars 10 field.toList 0)
  else none

namespace Session

variable (σ : Session)

/-- The value of a parameter, which is empty if nothing was set. -/
def value? : Param → Option String
  | .variable name => some ((σ.environment.get? name).getD "")
  | .argument 0 => none
  | .argument (n + 1) => some (σ.arguments[n]?.getD "")

def piece (f : Fields) : Piece → Option Fields
  | .char c => some (f.add [c])
  | .quotes => some (f.add [])
  | .param p true => (σ.value? p).map fun v => f.add v.toList
  | .param p false =>
    (σ.value? p).bind fun v => if v.toList.any isPattern then none else some (v.toList.foldl .split f)

def fields (ps : List Piece) : Option (List String) := (ps.foldlM σ.piece {}).map (·.cut.done)

def words (c : SimpleCommand) : Option (List String) := (c.mapM σ.fields).map List.flatten

/-- The variable that a command exports, with its value. -/
def exported? (c : SimpleCommand) : Option (String × String) :=
  match σ.words c with
  | some ["export", field] => definition? field
  | _ => none

/-- Obeys a command: the shell goes on, or the process becomes another program. -/
def act : List String → Option (Session ⊕ List String)
  | "export" :: fields =>
    (fields.mapM definition?).map fun ps => .inl { σ with environment := define ps σ.environment }
  | "set" :: "--" :: arguments => some (.inl { σ with arguments })
  | ["shift", field] =>
    match count? field with
    | some n =>
      if n ≤ σ.arguments.length then some (.inl { σ with arguments := σ.arguments.drop n }) else none
    | none => none
  | "exec" :: program :: arguments => some (.inr (program :: arguments))
  | _ => none

end Session

/-- A program that takes the place of the shell. -/
structure Launch where
  words : List String
  environment : Environment

/-- Obeys commands, up to the one that ends the shell. -/
def run : Session → List SimpleCommand → Option Launch
  | _, [] => none
  | σ, c :: cs =>
    match (σ.words c).bind σ.act with
    | none => none
    | some (.inl σ') => run σ' cs
    | some (.inr words) => some ⟨words, σ.environment⟩

/-- What becomes of a shell that is started to obey a text. -/
def become (e : Environment) (script : String) : Option Launch :=
  (parse script).bind (run { environment := e })

theorem run_next {σ σ' : Session} {c : SimpleCommand} {ws : List String} (hw : σ.words c = some ws)
    (ha : σ.act ws = some (.inl σ')) (cs : List SimpleCommand) : run σ (c :: cs) = run σ' cs := by
  rw [run, hw, Option.bind_some, ha]

theorem run_last {σ : Session} {c : SimpleCommand} {ws vs : List String} (hw : σ.words c = some ws)
    (ha : σ.act ws = some (.inr vs)) (cs : List SimpleCommand) :
    run σ (c :: cs) = some ⟨vs, σ.environment⟩ := by
  rw [run, hw, Option.bind_some, ha]

/-! ### Variables -/

@[simp] theorem define_cons (p : String × String) (ps : List (String × String)) (e : Environment) :
    define (p :: ps) e = define ps (e.insert p.1 p.2) := rfl

theorem get?_define_of_not_mem {ps : List (String × String)} {k : String} (h : k ∉ ps.map (·.1))
    (e : Environment) : (define ps e).get? k = e.get? k := by
  induction ps generalizing e with
  | nil => rfl
  | cons p ps ih =>
    rw [List.map_cons, List.mem_cons, not_or] at h
    rw [define_cons, ih h.2, Table.get?_insert_of_ne h.1]

theorem get?_define_of_mem {ps : List (String × String)} (hps : (ps.map (·.1)).Nodup)
    {p : String × String} (h : p ∈ ps) (e : Environment) : (define ps e).get? p.1 = some p.2 := by
  induction ps generalizing e with
  | nil => cases h
  | cons q ps ih =>
    rw [List.map_cons, List.nodup_cons] at hps
    rw [define_cons]
    rcases List.mem_cons.mp h with rfl | h
    · rw [get?_define_of_not_mem hps.1, Table.get?_insert_self]
    · exact ih hps.2 h _

/-- A name, an equality sign and a value are read back. -/
theorem definition?_append {name : String} (h : isName name.toList) (value : String) :
    definition? (name ++ "=" ++ value) = some (name, value) := by
  have hne : ∀ c ∈ name.toList, (decide (c ≠ '=')) = true := by
    intro c hc
    have hchar : isNameChar c = true := by
      cases hn : name.toList with
      | nil => rw [hn] at hc; cases hc
      | cons d ds =>
        rw [hn, isName, Bool.and_eq_true, List.all_eq_true] at h
        rw [hn] at hc
        rcases List.mem_cons.mp hc with rfl | hc
        · unfold isNameChar
          rw [h.1, Bool.true_or]
        · exact h.2 c hc
    rw [decide_eq_true_eq]
    rintro rfl
    exact absurd hchar (by decide)
  have htl : (name ++ "=" ++ value).toList = name.toList ++ '=' :: value.toList := by simp
  unfold definition?
  rw [htl, List.takeWhile_append_of_pos hne, List.dropWhile_append_of_pos hne]
  simp [h]

/-! ### Pieces that mean the same everywhere -/

/-- Pieces that stand for the same characters in every session. -/
def Stands (ps : List Piece) (cs : List Char) : Prop :=
  ∀ (σ : Session) (f : Fields), ps.foldlM σ.piece f = some (f.add cs)

namespace Fields

theorem add_add (f : Fields) (cs ds : List Char) : (f.add cs).add ds = f.add (cs ++ ds) := by
  simp [add]

end Fields

namespace Stands

theorem append {ps qs : List Piece} {cs ds : List Char} (h : Stands ps cs) (h' : Stands qs ds) :
    Stands (ps ++ qs) (cs ++ ds) := by
  intro σ f
  rw [List.foldlM_append, h, Option.bind_eq_bind, Option.bind_some, h', Fields.add_add]

theorem quotes : Stands [.quotes] [] := fun _ _ => rfl

theorem char (c : Char) : Stands [.char c] [c] := fun _ _ => rfl

theorem chars {cs : List Char} (h : cs ≠ []) : Stands (cs.map .char) cs := by
  induction cs with
  | nil => exact absurd rfl h
  | cons c cs ih =>
    by_cases hcs : cs = []
    · subst hcs
      exact char c
    · exact (char c).append (ih hcs)

theorem fields {ps : List Piece} {cs : List Char} (h : Stands ps cs) (σ : Session) :
    σ.fields ps = some [String.ofList cs] := by
  unfold Session.fields
  rw [h]
  rfl

end Stands

namespace Session

variable {σ : Session}

@[simp] theorem words_nil : σ.words [] = some [] := rfl

theorem words_cons (ps : List Piece) (c : SimpleCommand) :
    σ.words (ps :: c) = (σ.fields ps).bind fun fs => (σ.words c).map (fs ++ ·) := by
  unfold words
  rw [List.mapM_cons]
  cases σ.fields ps with
  | none => rfl
  | some fs =>
    cases c.mapM σ.fields with
    | none => rfl
    | some fss => rfl

theorem words_append (c d : SimpleCommand) :
    σ.words (c ++ d) = (σ.words c).bind fun fs => (σ.words d).map (fs ++ ·) := by
  induction c with
  | nil =>
    rw [List.nil_append, words_nil, Option.bind_some]
    exact Option.map_id'.symm
  | cons ps c ih =>
    rw [List.cons_append, words_cons, words_cons, ih]
    cases σ.fields ps with
    | none => rfl
    | some fs =>
      cases σ.words c with
      | none => rfl
      | some gs =>
        cases σ.words d with
        | none => rfl
        | some hs => simp

end Session

/-! ### Values that are split -/

namespace Fields

theorem foldl_split {cs : List Char} (h : ∀ c ∈ cs, isGap c = false) (hcs : cs ≠ []) (f : Fields) :
    cs.foldl split f = f.add cs := by
  induction cs generalizing f with
  | nil => exact absurd rfl hcs
  | cons c cs ih =>
    have hc : f.split c = f.add [c] := if_neg (by rw [h c List.mem_cons_self]; exact Bool.false_ne_true)
    rw [List.foldl_cons, hc]
    by_cases hcs : cs = []
    · rw [hcs, List.foldl_nil]
    · rw [ih (fun d hd => h d (List.mem_cons_of_mem _ hd)) hcs, add_add, List.singleton_append]

/-- Texts with blanks between them are split into those texts. -/
theorem foldl_split_intercalate {ws : List (List Char)} (hgap : ∀ w ∈ ws, ∀ c ∈ w, isGap c = false)
    (hne : ∀ w ∈ ws, w ≠ []) (done : List String) :
    (([' '].intercalate ws).foldl split { done }).cut.done = done ++ ws.map String.ofList := by
  induction ws generalizing done with
  | nil => simp [cut]
  | cons w ws ih =>
    have hw := foldl_split (hgap w List.mem_cons_self) (hne w List.mem_cons_self) { done }
    have ih' := ih (fun v hv => hgap v (List.mem_cons_of_mem _ hv))
      (fun v hv => hne v (List.mem_cons_of_mem _ hv)) (done ++ [String.ofList w])
    by_cases hws : ws = []
    · subst hws
      rw [List.intercalate_singleton, hw]
      rfl
    · have hgap' : split { done, current := some w } ' ' = { done := done ++ [String.ofList w] } := rfl
      rw [List.intercalate_cons_of_ne_nil hws, List.foldl_append, List.foldl_append, hw]
      simp only [List.foldl_cons, List.foldl_nil, add, Option.getD_none, List.nil_append]
      rw [hgap', ih']
      simp

end Fields

/-- The characters of texts with blanks between them. -/
theorem mem_intercalate_blank {ws : List (List Char)} {c : Char} (h : c ∈ [' '].intercalate ws) :
    c = ' ' ∨ ∃ w ∈ ws, c ∈ w := by
  induction ws with
  | nil => cases h
  | cons w ws ih =>
    by_cases hws : ws = []
    · rw [hws, List.intercalate_singleton] at h
      exact .inr ⟨w, List.mem_cons_self, h⟩
    · rw [List.intercalate_cons_of_ne_nil hws, List.mem_append, List.mem_append, List.mem_singleton] at h
      rcases h with (h | h) | h
      · exact .inr ⟨w, List.mem_cons_self, h⟩
      · exact .inl h
      · exact (ih h).imp id fun ⟨v, hv, hc⟩ => ⟨v, List.mem_cons_of_mem _ hv, hc⟩

namespace Session

variable {σ : Session}

/-- A parameter between quotes is one field. -/
theorem fields_quoted {p : Param} {value : String} (h : σ.value? p = some value) :
    σ.fields [.quotes, .param p true] = some [value] := by
  have hopen : [Piece.quotes, .param p true].foldlM σ.piece {} =
      [Piece.param p true].foldlM σ.piece (Fields.add {} []) := rfl
  unfold fields
  rw [hopen, List.foldlM_cons]
  simp only [piece, h, Option.map_some, Option.bind_eq_bind, Option.bind_some, List.foldlM_nil]
  simp [Fields.add, Fields.cut]

/-- A variable outside of quotes is as many fields as there are texts in it. -/
theorem fields_variable {name : String} {ws : List String}
    (h : σ.environment.get? name = some (" ".intercalate ws)) (hne : ∀ w ∈ ws, w.toList ≠ [])
    (hchar : ∀ w ∈ ws, ∀ c ∈ w.toList, Fields.isGap c = false ∧ isPattern c = false) :
    σ.fields [.param (.variable name) false] = some ws := by
  have hpattern : ¬ (" ".intercalate ws).toList.any isPattern = true := by
    rw [List.any_eq_true, String.toList_intercalate]
    rintro ⟨c, hc, hp⟩
    rcases mem_intercalate_blank hc with rfl | ⟨w, hw, hc⟩
    · exact absurd hp (by decide)
    · obtain ⟨v, hv, rfl⟩ := List.mem_map.mp hw
      rw [(hchar v hv c hc).2] at hp
      cases hp
  unfold fields
  rw [List.foldlM_cons]
  simp only [piece, value?, h, Option.getD_some, Option.bind_some, if_neg hpattern,
    Option.bind_eq_bind, List.foldlM_nil, Option.pure_def, Option.map_some]
  rw [String.toList_intercalate]
  have hgap : ∀ cs ∈ ws.map String.toList, ∀ c ∈ cs, Fields.isGap c = false := by
    intro cs hcs c hc
    obtain ⟨w, hw, rfl⟩ := List.mem_map.mp hcs
    exact (hchar w hw c hc).1
  have hnil : ∀ cs ∈ ws.map String.toList, cs ≠ [] := by
    intro cs hcs
    obtain ⟨w, hw, rfl⟩ := List.mem_map.mp hcs
    exact hne w hw
  have hsplit := Fields.foldl_split_intercalate hgap hnil []
  rw [show " ".toList = [' '] from rfl, hsplit, List.nil_append, List.map_map]
  simp

end Session

end ClusterAgents.Shell
