import ClusterAgents.Batch.Script
import ClusterAgents.Proofs.Shell.Quoting

/-!
# What a script exports

A script hands the connection and the ids to its agents through variables.  It writes one statement for each
of them, and a shell reads each statement as one command, whatever the value is.

* `pairs` — the variables that a script exports, with their values;
* `Carries` — variables are set as pairs say, and nothing else is changed;
* `exportCommand`, `yields_exportStatement`, `run_exports` — a statement, how it is read, and what becomes of
  a shell that obeys several.
-/

namespace ClusterAgents.Batch

open Shell

/-- The variables that a script exports, with their values. -/
def pairs (broker : Broker) (agents : List AgentId) : List (String × String) :=
  broker.environment ++ [(idsVariable, " ".intercalate (agents.map AgentId.text))]

/-- The variables are set as the pairs say, and all others as they were. -/
def Carries (ps : List (String × String)) (e e' : Environment) : Prop :=
  (∀ p ∈ ps, e'.get? p.1 = some p.2) ∧ ∀ k, k ∉ ps.map (·.1) → e'.get? k = e.get? k

/-! ### The variables -/

/-- The names of all variables that a script may export. -/
def exportable : List String :=
  ["ACTUATOR_BROKER_URI", "ACTUATOR_ROUTING_KEY", "ACTUATOR_BROKER_CERT", "ACTUATOR_NO_VERIFY_PEER",
    "ACTUATOR_NO_VERIFY_HOST", idsVariable]

section

variable (broker : Broker) (agents : List AgentId)

theorem pairs_sublist : ((pairs broker agents).map (·.1)).Sublist exportable := by
  unfold pairs Broker.environment
  cases broker.cert? <;> cases broker.noVerifyPeer <;> cases broker.noVerifyHost <;>
    simp [exportable]

theorem pairs_nodup : ((pairs broker agents).map (·.1)).Nodup :=
  (pairs_sublist broker agents).nodup (by decide)

theorem ids_mem_pairs : (idsVariable, " ".intercalate (agents.map AgentId.text)) ∈ pairs broker agents :=
  List.mem_append_right _ (List.mem_singleton.mpr rfl)

/-- All of them are names, and need no quotes. -/
theorem isName_of_mem_pairs {p : String × String} (h : p ∈ pairs broker agents) :
    isName p.1.toList = true ∧ ∀ c ∈ p.1.toList, isSafe c = true := by
  have hall : exportable.all (fun name => isName name.toList && name.toList.all isSafe) = true := by
    decide +kernel
  have hp := List.all_eq_true.mp hall p.1 ((pairs_sublist broker agents).subset (List.mem_map_of_mem h))
  rw [Bool.and_eq_true, List.all_eq_true] at hp
  exact hp

theorem rankVariable_not_mem_pairs (kind : SchedulerKind) :
    kind.scheduler.rankVariable ∉ (pairs broker agents).map (·.1) := by
  have hall : kind.scheduler.rankVariable ∉ exportable := by
    cases kind <;> decide +kernel
  exact fun h => hall ((pairs_sublist broker agents).subset h)

end

theorem carries_define {ps : List (String × String)} (h : (ps.map (·.1)).Nodup) (e : Environment) :
    Carries ps e (define ps e) :=
  ⟨fun _ hp => get?_define_of_mem h hp e, fun _ hk => get?_define_of_not_mem hk e⟩

/-! ### Exports -/

/-- The command that exports a variable. -/
def exportCommand (p : String × String) : SimpleCommand :=
  [Word.spelling "export", (p.1 ++ "=").toList.map .char ++ Word.spelling p.2]

theorem exportCommand_ne_nil (p : String × String) : exportCommand p ≠ [] := List.cons_ne_nil _ _

/-- A statement that exports a variable is read as that command, whatever the value is. -/
theorem yields_exportStatement {name : String} (h : ∀ c ∈ name.toList, isSafe c = true) (value : String)
    {stop : Char} {t : Token} (ht : stop = '\n' ∧ t = .newline ∨ stop = ';' ∧ t = .semicolon) :
    Yields ((exportStatement name value).toList ++ [stop])
      ((exportCommand (name, value)).map .word ++ [t]) := by
  have hname : Spells (name ++ "=").toList ((name ++ "=").toList.map .char) := by
    refine Spells.safe fun c hc => ?_
    rw [String.toList_append, List.mem_append] at hc
    rcases hc with hc | hc
    · exact h c hc
    · rw [List.mem_singleton.mp hc]
      decide
  have hword := hname.append (Spells.quote value)
  have hne : (name ++ "=").toList.map Piece.char ++ Word.spelling value ≠ [] :=
    List.append_ne_nil_of_right_ne_nil _ (Word.spelling_ne_nil value)
  have htext : (exportStatement name value).toList ++ [stop] =
      ("export".toList ++ [' ']) ++ (((name ++ "=").toList ++ (Word.quote value).toList) ++ [stop]) := by
    simp [exportStatement, String.toList_append]
  have hexport : Yields ("export".toList ++ [' ']) [.word (Word.spelling "export")] := by decide +kernel
  rw [htext]
  rcases ht with ⟨rfl, rfl⟩ | ⟨rfl, rfl⟩
  · exact hexport.append (hword.newline hne)
  · exact hexport.append (hword.semicolon hne)

theorem exported?_exportCommand {name : String} (h : isName name.toList = true) (value : String)
    (σ : Session) : σ.exported? (exportCommand (name, value)) = some (name, value) := by
  have hne : (name ++ "=").toList ≠ [] := by simp
  have hword := ((Stands.chars hne).append (Stands.spelling value)).fields σ
  have hwords : σ.words (exportCommand (name, value)) = some ["export", name ++ "=" ++ value] := by
    unfold exportCommand
    rw [Session.words_cons, Session.words_cons, hword, (Stands.spelling "export").fields]
    simp [String.ofList_append, String.append_assoc]
  unfold Session.exported?
  rw [hwords]
  exact definition?_append h value

theorem mapM_exported? {ps : List (String × String)} (h : ∀ p ∈ ps, isName p.1.toList = true)
    (σ : Session) : (ps.map exportCommand).mapM σ.exported? = some ps := by
  induction ps with
  | nil => rfl
  | cons p ps ih =>
    rw [List.map_cons, List.mapM_cons, exported?_exportCommand (h p List.mem_cons_self) p.2 σ,
      ih fun q hq => h q (List.mem_cons_of_mem _ hq)]
    rfl

/-- Obeying a command that exports a variable sets it. -/
theorem run_export {σ : Session} {c : SimpleCommand} {p : String × String} (h : σ.exported? c = some p)
    (cs : List SimpleCommand) :
    run σ (c :: cs) = run { σ with environment := define [p] σ.environment } cs := by
  unfold Session.exported? at h
  split at h
  · next field hw =>
    rw [run, hw]
    simp only [Option.bind_some, Session.act, List.mapM_cons, List.mapM_nil, h]
    rfl
  · cases h

/-- Obeying the commands that export variables sets them all. -/
theorem run_exports {ps : List (String × String)} (h : ∀ p ∈ ps, isName p.1.toList = true)
    (cs : List SimpleCommand) (σ : Session) :
    run σ (ps.map exportCommand ++ cs) = run { σ with environment := define ps σ.environment } cs := by
  induction ps generalizing σ with
  | nil => rfl
  | cons p ps ih =>
    rw [List.map_cons, List.cons_append, run_export (exported?_exportCommand (h p List.mem_cons_self) p.2 σ),
      ih fun q hq => h q (List.mem_cons_of_mem _ hq)]
    rfl

end ClusterAgents.Batch
