import Mathlib.Data.List.Induction
import ClusterAgents.Schema.Store

/-!
# Histories of a gate

A gate is asked again and again, and what passes it may change the version of the data behind it, so that what was
let through before tells nothing about what comes next.

* `Gate.Serves` — the data are there in a version that serves the one required, by its components;
* `Gate.look` — what the gate says of data, in both forms, for each way their version may turn out;
* `Call`, `Gate.after` — what may be asked of a gate, and the data after a history of such calls;
* `Counted` — data with the number of operations that have reached them, which tells whether an operation ran even
  if it left nothing behind;
* `NeverBypassed`, `gate_is_never_bypassed` — what may come after a history, whatever operations were in it.
-/

namespace ClusterAgents.Schema

/-! ### versions -/

namespace Version

theorem isCompatible_iff {v r : Version} :
    v.isCompatible r = true ↔ v.major = r.major ∧ r.minor ≤ v.minor ∧ r.patch ≤ v.patch := by
  simp [isCompatible, and_assoc]

theorem isCompatible_self (v : Version) : v.isCompatible v = true :=
  isCompatible_iff.mpr ⟨rfl, Nat.le_refl _, Nat.le_refl _⟩

theorem isCompatible_trans {v r r' : Version} (h : v.isCompatible r = true) (h' : r.isCompatible r' = true) :
    v.isCompatible r' = true := by
  obtain ⟨hmajor, hminor, hpatch⟩ := isCompatible_iff.mp h
  obtain ⟨hmajor', hminor', hpatch'⟩ := isCompatible_iff.mp h'
  exact isCompatible_iff.mpr
    ⟨hmajor.trans hmajor', Nat.le_trans hminor' hminor, Nat.le_trans hpatch' hpatch⟩

end Version

namespace Gate

variable {σ α : Type} {g : Gate σ} {d : σ}

/-! ### one look at the data -/

/-- **The data serve**: their version can be found out, there is one, it is on the required major line, and neither
its minor nor its patch number is below the required one. -/
def Serves (g : Gate σ) (d : σ) : Prop :=
  ∃ v, g.store.installed d = .ok (some v) ∧
    v.major = g.required.major ∧ g.required.minor ≤ v.minor ∧ g.required.patch ≤ v.patch

/-- What is said of data that do not serve: of their version, or that it cannot be found out. -/
def Refusal (g : Gate σ) (d : σ) (e : Error) : Prop :=
  g.store.installed d = .error e ∨
    ∃ v?, g.store.installed d = .ok v? ∧ e = .schemaIncompatible (versionText v?) g.required.text

/-- What a gate says of data, as an answer and as a check. -/
inductive Look (g : Gate σ) (d : σ) : Outcome Bool → Outcome Unit → Prop
  | serves (h : g.Serves d) : Look g d (.ok true) (.ok ())
  | differs {v? : Option Version} (h : g.store.installed d = .ok v?) (hno : ¬ g.Serves d) :
      Look g d (.ok false) (.error (.schemaIncompatible (versionText v?) g.required.text))
  | fails {e : Error} (h : g.store.installed d = .error e) (hno : ¬ g.Serves d) : Look g d (.error e) (.error e)

/-- **Both forms of the question get the same answer.** -/
theorem look (g : Gate σ) (d : σ) : Look g d (g.isCompatible d) (g.check d) := by
  unfold isCompatible check
  cases h : g.store.installed d with
  | error e => exact .fails h fun ⟨v, hv, _⟩ => by rw [h] at hv; cases hv
  | ok v? =>
    cases v? with
    | none => exact .differs h fun ⟨v, hv, _⟩ => by rw [h] at hv; cases hv
    | some v =>
      cases hc : v.isCompatible g.required with
      | true =>
        simp only [bind, Except.bind, hc, Option.map_some, Option.getD_some, if_true]
        exact .serves ⟨v, h, Version.isCompatible_iff.mp hc⟩
      | false =>
        simp only [bind, Except.bind, hc, Option.map_some, Option.getD_some, Bool.false_eq_true, if_false]
        refine .differs h fun ⟨v', hv, hserves⟩ => ?_
        rw [h] at hv
        cases hv
        rw [Version.isCompatible_iff.mpr hserves] at hc
        cases hc

theorem check_eq_ok : g.check d = .ok () ↔ g.Serves d := by
  have h := g.look d
  generalize g.isCompatible d = answer, g.check d = checked at h
  cases h with
  | serves h => exact ⟨fun _ => h, fun _ => rfl⟩
  | differs h hno => exact ⟨nofun, fun h' => absurd h' hno⟩
  | fails h hno => exact ⟨nofun, fun h' => absurd h' hno⟩

theorem check_eq_error {e : Error} (h : g.check d = .error e) : g.Refusal d e := by
  have hlook := g.look d
  generalize g.isCompatible d = answer, g.check d = checked at hlook h
  cases hlook with
  | serves _ => cases h
  | differs hv _ => cases h; exact .inr ⟨_, hv, rfl⟩
  | fails he _ => cases h; exact .inl he

/-- **An operation runs on data that serve.** -/
theorem guard_of_serves (h : g.Serves d) (op : σ → Outcome α × σ) : g.guard op d = op d := by
  rw [guard, check_eq_ok.mpr h]

/-- **On other data it does not run**, and nothing happens to them. -/
theorem guard_of_not_serves (h : ¬ g.Serves d) (op : σ → Outcome α × σ) :
    ∃ e, g.guard op d = (.error e, d) ∧ g.Refusal d e := by
  cases hc : g.check d with
  | ok _ => exact absurd (check_eq_ok.mp hc) h
  | error e => exact ⟨e, by rw [guard, hc], check_eq_error hc⟩

/-- The two forms of the question in terms of each other.  A check cannot tell an error of the store that is worded
like its own; where the store has no such error, the last field says that the forms are equivalent. -/
structure Agrees (g : Gate σ) (d : σ) : Prop where
  granted : g.isCompatible d = .ok true ↔ g.check d = .ok ()
  denied : g.isCompatible d = .ok false ↔ ∃ v?, g.store.installed d = .ok v? ∧
    g.check d = .error (.schemaIncompatible (versionText v?) g.required.text)
  failed : ∀ e, g.isCompatible d = .error e ↔ g.store.installed d = .error e ∧ g.check d = .error e
  distinct : (∀ i r, g.store.installed d ≠ .error (.schemaIncompatible i r)) →
    (g.isCompatible d = .ok false ↔ ∃ i r, g.check d = .error (.schemaIncompatible i r)) ∧
    ∀ e, g.isCompatible d = .error e ↔ g.check d = .error e ∧ ∀ i r, e ≠ .schemaIncompatible i r

theorem agrees (g : Gate σ) (d : σ) : Agrees g d := by
  have hlook := g.look d
  generalize hanswer : g.isCompatible d = answer, hchecked : g.check d = checked at hlook
  cases hlook with
  | serves h =>
    obtain ⟨v, hv, -⟩ := h
    -- the store has no error here, so that nothing is left of the last two fields
    constructor <;> simp [hanswer, hchecked, hv]
  | @differs v? hv hno =>
    refine ⟨?_, ?_, ?_, fun _ => ⟨?_, fun e => ?_⟩⟩ <;> simp [hanswer, hchecked, hv]
    rintro rfl
    exact ⟨_, _, rfl⟩
  | @fails e he hno =>
    refine ⟨by simp [hanswer, hchecked], by simp [hanswer, he], by simp [hanswer, hchecked, he], fun hown => ⟨?_, ?_⟩⟩
    · rw [hanswer, hchecked]
      refine ⟨nofun, fun ⟨i, r, hword⟩ => ?_⟩
      exact absurd (by rw [he, Except.error.inj hword]) (hown i r)
    · intro e'
      rw [hanswer, hchecked]
      constructor
      · rintro h
        cases h
        exact ⟨rfl, fun i r hword => hown i r (by rw [he, hword])⟩
      · exact fun h => by rw [Except.error.inj h.1]

end Gate

/-! ### histories -/

/-- What may be asked of a gate. -/
inductive Call (σ : Type) : Type 1
  | isCompatible
  | check
  /-- An operation is to run, which may change the data and may fail. -/
  | guard (α : Type) (operation : σ → Outcome α × σ)
  | reset

namespace Call

variable {σ : Type}

def Answer : Call σ → Type
  | .isCompatible => Bool
  | .guard α _ => α
  | _ => Unit

def perform (g : Gate σ) : (c : Call σ) → σ → Outcome c.Answer × σ
  | .isCompatible, d => (g.isCompatible d, d)
  | .check, d => (g.check d, d)
  | .guard _ operation, d => g.guard operation d
  | .reset, d => g.reset d

end Call

def Gate.after {σ : Type} (g : Gate σ) (d : σ) (cs : List (Call σ)) : σ := cs.foldl (fun d c => (c.perform g d).2) d

theorem Gate.after_concat {σ : Type} (g : Gate σ) (d : σ) (cs : List (Call σ)) (c : Call σ) :
    g.after d (cs ++ [c]) = (c.perform g (g.after d cs)).2 := by
  rw [after, List.foldl_append]
  rfl

/-! ### counting -/

/-- Data with the number of operations that have reached them. -/
structure Counted (σ : Type) where
  data : σ
  runs : Nat := 0

namespace Counted

variable {σ : Type}

/-- A store of counted data, which leaves the number alone. -/
def store (s : Store σ) : Store (Counted σ) where
  installed d := s.installed d.data
  recreate v d := ((s.recreate v d.data).1, ⟨(s.recreate v d.data).2, d.runs⟩)

def gate (g : Gate σ) : Gate (Counted σ) := ⟨store g.store, g.required⟩

/-- An operation that is counted when it runs. -/
def operation {α : Type} (op : σ → Outcome α × σ) (d : Counted σ) : Outcome α × Counted σ :=
  ((op d.data).1, ⟨(op d.data).2, d.runs + 1⟩)

def call : Call σ → Call (Counted σ)
  | .isCompatible => .isCompatible
  | .check => .check
  | .guard α op => .guard α (operation op)
  | .reset => .reset

theorem serves_gate (g : Gate σ) (d : Counted σ) : (gate g).Serves d ↔ g.Serves d.data := Iff.rfl

/-- An operation is counted if the data serve, and does to them what it does anyway. -/
theorem guard_operation (g : Gate σ) {α : Type} (op : σ → Outcome α × σ) (d : Counted σ) :
    ((gate g).guard (operation op) d).2.data = (g.guard op d.data).2 ∧
      (g.Serves d.data ∧ ((gate g).guard (operation op) d).2.runs = d.runs + 1 ∨
        ¬ g.Serves d.data ∧ ((gate g).guard (operation op) d).2.runs = d.runs) := by
  by_cases h : g.Serves d.data
  · rw [Gate.guard_of_serves h, Gate.guard_of_serves ((serves_gate g d).mpr h)]
    exact ⟨rfl, .inl ⟨h, rfl⟩⟩
  · obtain ⟨e, he, -⟩ := Gate.guard_of_not_serves h op
    obtain ⟨e', he', -⟩ := Gate.guard_of_not_serves (mt (serves_gate g d).mp h) (operation op)
    rw [he, he']
    exact ⟨rfl, .inr ⟨h, rfl⟩⟩

/-- **Counting does not interfere.** -/
theorem data_after (g : Gate σ) (d : Counted σ) (cs : List (Call σ)) :
    ((gate g).after d (cs.map call)).data = g.after d.data cs := by
  have hstep (c : Call σ) (d : Counted σ) : ((call c).perform (gate g) d).2.data = (c.perform g d.data).2 := by
    cases c with
    | guard α op => exact (guard_operation g op d).1
    | _ => rfl
  induction cs generalizing d with
  | nil => rfl
  | cons c cs ih => exact (ih _).trans (congrArg (g.after · cs) (hstep c d))

end Counted

variable {σ : Type}

def Gate.runs (g : Gate σ) (d : σ) (cs : List (Call σ)) : Nat :=
  ((Counted.gate g).after ⟨d, 0⟩ (cs.map Counted.call)).runs

/-- **An operation runs exactly if the data serve at that moment**, and no other call runs one. -/
theorem Gate.runs_concat (g : Gate σ) (d : σ) (cs : List (Call σ)) (c : Call σ) :
    g.runs d (cs ++ [c]) =
        g.runs d cs + 1 ∧ (∃ α op, c = .guard α op) ∧ g.Serves (g.after d cs) ∨
      g.runs d (cs ++ [c]) = g.runs d cs ∧ ((∃ α op, c = .guard α op) → ¬ g.Serves (g.after d cs)) := by
  -- the last call finds the counted data that the others left, and these hold what they would hold uncounted
  have hdata := Counted.data_after g ⟨d, 0⟩ cs
  unfold runs
  rw [List.map_append, List.map_singleton, after_concat]
  generalize (Counted.gate g).after ⟨d, 0⟩ (cs.map Counted.call) = counted at hdata
  dsimp only at hdata
  rw [← hdata]
  cases c with
  | guard α op =>
    rcases (Counted.guard_operation g op counted).2 with ⟨hserves, hruns⟩ | ⟨hno, hruns⟩
    · exact .inl ⟨hruns, ⟨α, op, rfl⟩, hserves⟩
    · exact .inr ⟨hruns, fun _ => hno⟩
  | _ => exact .inr ⟨rfl, fun ⟨_, _, h⟩ => nomatch h⟩

/-- What a call does to the data: nothing, unless it is a reset or an operation that was let through. -/
theorem Call.perform_cases (g : Gate σ) (c : Call σ) (d : σ) :
    (c.perform g d).2 = d ∨ c = .reset ∨ ∃ α op, c = .guard α op ∧ g.Serves d := by
  cases c with
  | isCompatible => exact .inl rfl
  | check => exact .inl rfl
  | reset => exact .inr (.inl rfl)
  | guard α op =>
    by_cases h : g.Serves d
    · exact .inr (.inr ⟨α, op, rfl, h⟩)
    · obtain ⟨e, he, -⟩ := Gate.guard_of_not_serves h op
      exact .inl (congrArg Prod.snd he)

/-- **Data that do not serve stay as they are** until they are reset. -/
theorem Gate.after_of_not_serves {g : Gate σ} {d : σ} (h : ¬ g.Serves d) {cs : List (Call σ)} (hcs : .reset ∉ cs) :
    g.after d cs = d := by
  induction cs with
  | nil => rfl
  | cons c cs ih =>
    obtain ⟨hc, hcs⟩ := not_or.mp (mt List.mem_cons.mpr hcs)
    have hstay : (c.perform g d).2 = d := by
      rcases c.perform_cases g d with hstay | rfl | ⟨α, op, -, hserves⟩
      · exact hstay
      · exact absurd rfl hc
      · exact absurd hserves h
    exact (congrArg (g.after · cs) hstay).trans (ih hcs)

theorem Gate.runs_of_not_serves {g : Gate σ} {d : σ} (h : ¬ g.Serves d) {cs : List (Call σ)} (hcs : .reset ∉ cs) :
    g.runs d cs = 0 := by
  induction cs using List.reverseRecOn with
  | nil => rfl
  | append_singleton cs c ih =>
    have hcs' : .reset ∉ cs := fun hmem => hcs (List.mem_append_left _ hmem)
    have hno := h
    rw [← g.after_of_not_serves h hcs'] at hno
    rcases g.runs_concat d cs c with ⟨-, -, hserves⟩ | ⟨hruns, -⟩
    · exact absurd hserves hno
    · rw [hruns, ih hcs']

/-! ### the gate -/

/-- **What may come after a history.** -/
structure NeverBypassed (g : Gate σ) (data : σ) (cs : List (Call σ)) : Prop where
  /-- An operation that is passed to the gate runs, once, exactly if the data serve at that moment. -/
  runs : ∀ α op, (g.runs data (cs ++ [.guard α op]) = g.runs data cs + 1 ↔ g.Serves (g.after data cs)) ∧
    (g.runs data (cs ++ [.guard α op]) = g.runs data cs ↔ ¬ g.Serves (g.after data cs))
  /-- Its answer and what it does to the data are those of the call. -/
  admitted : ∀ (α : Type) (op : σ → Outcome α × σ), g.Serves (g.after data cs) →
    g.guard op (g.after data cs) = op (g.after data cs)
  /-- Otherwise the data stay as they are, and the answer says why. -/
  refused : ∀ (α : Type) (op : σ → Outcome α × σ), ¬ g.Serves (g.after data cs) →
    ∃ e, g.guard op (g.after data cs) = (.error e, g.after data cs) ∧ g.Refusal (g.after data cs) e
  /-- Only a reset, or an operation that was let through, changes the data. -/
  changed : ∀ c, g.after data (cs ++ [c]) ≠ g.after data cs →
    c = .reset ∨ ∃ α op, c = .guard α op ∧ g.Serves (g.after data cs)
  /-- Data that do not serve stay as they are through any history without a reset. -/
  locked : ¬ g.Serves data → .reset ∉ cs → g.after data cs = data ∧ g.runs data cs = 0
  /-- Both forms of the question get the same answer. -/
  agrees : g.Agrees (g.after data cs)
  /-- Data that were recreated at the required version serve. -/
  renewed : g.store.installed (g.after data (cs ++ [.reset])) = .ok (some g.required) →
    g.check (g.after data (cs ++ [.reset])) = .ok ()
  /-- What serves a version serves all that this one serves. -/
  lowered : g.check (g.after data cs) = .ok () → ∀ r, g.required.isCompatible r = true →
    Gate.check ⟨g.store, r⟩ (g.after data cs) = .ok ()

/-- **The gate is never bypassed**, whatever the store is and whatever operations do to the data. -/
theorem gate_is_never_bypassed (g : Gate σ) (data : σ) (cs : List (Call σ)) : NeverBypassed g data cs where
  runs α op := by
    rcases g.runs_concat data cs (.guard α op) with ⟨hruns, -, hserves⟩ | ⟨hruns, hno⟩
    · rw [hruns]
      simp [hserves]
    · have hrefused : ¬ g.Serves (g.after data cs) := hno ⟨α, op, rfl⟩
      rw [hruns]
      simp [hrefused]
  admitted α op h := Gate.guard_of_serves h op
  refused α op h := Gate.guard_of_not_serves h op
  changed c hne := by
    rw [Gate.after_concat] at hne
    exact (c.perform_cases g (g.after data cs)).resolve_left hne
  locked h hcs := ⟨g.after_of_not_serves h hcs, g.runs_of_not_serves h hcs⟩
  agrees := g.agrees _
  renewed h :=
    Gate.check_eq_ok.mpr ⟨g.required, h, Version.isCompatible_iff.mp (Version.isCompatible_self g.required)⟩
  lowered h r hr := by
    obtain ⟨v, hv, hserves⟩ := Gate.check_eq_ok.mp h
    have hv' := Version.isCompatible_trans (Version.isCompatible_iff.mpr hserves) hr
    exact Gate.check_eq_ok.mpr ⟨v, hv, Version.isCompatible_iff.mp hv'⟩

/-- An operation that counts itself in the data, and fails then. -/
def failingWrite (m : Store.Memory) : Outcome Unit × Store.Memory :=
  (.error (.system .notFound), { m with writes := m.writes + 1 })

example :
    let g : Gate Store.Memory := ⟨Store.memory, ⟨2, 1, 0⟩⟩
    let history : List (Call Store.Memory) :=
      [.guard Unit failingWrite, .check, .reset, .guard Unit failingWrite, .isCompatible]
    (g.after { version := some ⟨2, 0, 9⟩ } history).writes = 1 ∧ g.runs { version := some ⟨2, 0, 9⟩ } history = 1 := by
  decide

end ClusterAgents.Schema
