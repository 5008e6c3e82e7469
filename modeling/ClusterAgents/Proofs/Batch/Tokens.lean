import ClusterAgents.Proofs.Batch.Sheets

/-!
# Arguments and directives

What is asked of a scheduler is shown as arguments of the submitting command, and submitted as directives of a
script.  A scheduler writes these in two ways that have nothing in common but the resolved requirement, and the
script they go into may hold something already.

* `couples`, `SchedulerKind.glued` — arguments two by two, and two of them as one directive;
* `Header.write_of_ok`, `Header.write_of_error` — what becomes of a script when a header is put behind it;
* `Header.Tallies`, `header_tallies` — the directives say what the arguments say.
-/

namespace ClusterAgents

/-- Texts two by two; one that is left over does not count. -/
def couples : List String → List (String × String)
  | a :: b :: rest => (a, b) :: couples rest
  | _ => []

namespace SchedulerKind

/-- The two arguments of a requirement. -/
def couple : SchedulerKind → Rendered → String × String
  | .slurm, x => ("--" ++ x.name, x.value)
  | .pbs, x => ("-l", x.name ++ "=" ++ x.value)

/-- What stands between two arguments where they are written as one directive. -/
def glue : SchedulerKind → String
  | .slurm => "="
  | .pbs => " "

/-- Two arguments as a directive. -/
def glued (kind : SchedulerKind) (p : String × String) : String := p.1 ++ kind.glue ++ p.2

variable (kind : SchedulerKind)

theorem argument_eq (x : Rendered) : kind.scheduler.argument x = [(kind.couple x).1, (kind.couple x).2] := by
  cases kind <;> rfl

/-- **Both ways to write a requirement** say the same. -/
theorem directive_eq (x : Rendered) : kind.scheduler.directive x = kind.glued (kind.couple x) := by
  cases kind with
  | slurm => rfl
  | pbs =>
    change "-l " ++ x.name ++ "=" ++ x.value = "-l" ++ " " ++ (x.name ++ "=" ++ x.value)
    rw [show "-l " = "-l" ++ " " from rfl]
    simp only [String.append_assoc]

/-- The arguments of several requirements are two by two those of each of them. -/
theorem couples_arguments (xs : List Rendered) :
    couples (xs.flatMap kind.scheduler.argument) = xs.map kind.couple := by
  induction xs with
  | nil => rfl
  | cons x xs ih =>
    rw [List.flatMap_cons, kind.argument_eq, List.map_cons, ← ih]
    rfl

theorem glued_arguments (xs : List Rendered) :
    (couples (xs.flatMap kind.scheduler.argument)).map kind.glued = xs.map kind.scheduler.directive := by
  rw [kind.couples_arguments, List.map_map]
  apply List.map_congr_left
  intro x _
  exact (kind.directive_eq x).symm

theorem length_arguments (xs : List Rendered) : (xs.flatMap kind.scheduler.argument).length = 2 * xs.length := by
  induction xs with
  | nil => rfl
  | cons x xs ih =>
    rw [List.flatMap_cons, List.length_append, kind.argument_eq, ih, List.length_cons]
    simp only [List.length_cons, List.length_nil]
    omega

end SchedulerKind

namespace Scheduler

variable {s : Scheduler} {b : Nat} {rs : List Requirement}

theorem arguments_eq_ok {args : List String} :
    s.arguments b rs = .ok args ↔
      ∃ xs, Requirement.renderAll s.resources b rs = .ok xs ∧ xs.flatMap s.argument = args := by
  unfold arguments
  simp only [bind_eq_ok, Except.ok.injEq]

theorem arguments_eq_error {e : Error} :
    s.arguments b rs = .error e ↔ Requirement.renderAll s.resources b rs = .error e := by
  unfold arguments
  simp only [bind_eq_error, reduceCtorEq, and_false, exists_false, or_false]

end Scheduler

namespace Batch

/-! ### Writing a header -/

theorem writeLines_run (ls : List String) (script : String) :
    writeLines ls script = (.ok (), script ++ String.join (ls.map line)) := by
  induction ls generalizing script with
  | nil =>
    change (Except.ok (), script) = (.ok (), script ++ "")
    rw [String.append_empty]
  | cons l ls ih =>
    change writeLines ls (script ++ line l) = _
    rw [ih, List.map_cons, String.join_cons, String.append_assoc]

variable {h : Header} {s : Scheduler}

/-- **A header is put behind what is there.** -/
theorem Header.write_of_ok {xs : List Rendered}
    (hxs : Requirement.renderAll s.resources h.batchSize h.requirements = .ok xs) (script : String) :
    h.write s script = (.ok (), script ++ h.written s (xs.map s.directive)) := by
  have hstart : (ExceptT.mk (pure (.ok xs)) : Writing (List Rendered)) script = (.ok xs, script) := rfl
  unfold write
  rw [hxs, run_bind_ok hstart]
  dsimp only
  rw [run_bind_ok (writeLines_run _ _), run_bind_ok (writeLines_run _ _), run_bind_ok (writeLines_run _ _),
    writeLines_run]
  unfold written
  simp [String.append_assoc, Function.comp_def]

/-- **Or nothing is written at all.** -/
theorem Header.write_of_error {e : Error}
    (he : Requirement.renderAll s.resources h.batchSize h.requirements = .error e) (script : String) :
    h.write s script = (.error e, script) := by
  have hstart : (ExceptT.mk (pure (.error e)) : Writing (List Rendered)) script = (.error e, script) := rfl
  unfold write
  rw [he, run_bind_error hstart]

/-- What is put behind an empty script is the header as it stands in the scripts that are submitted. -/
theorem Header.write_empty : h.write s "" = match h.text s with
    | .ok text => (.ok (), text)
    | .error e => (.error e, "") := by
  cases hxs : Requirement.renderAll s.resources h.batchSize h.requirements with
  | error e =>
    rw [Header.write_of_error hxs, Header.text_eq_error.mpr hxs]
  | ok xs =>
    rw [Header.write_of_ok hxs, Header.text_eq_ok.mpr ⟨xs, hxs, rfl⟩, String.empty_append]
    rfl

/-! ### Arguments and header -/

/-- **What a header that is put behind a script has to do with the arguments** for the same batch. -/
structure Header.Tallies (h : Header) (kind : SchedulerKind) (script : String) : Prop where
  /-- There is a header if there are arguments. -/
  succeeds : (h.write kind.scheduler script).1 = .ok () ↔
    ∃ args, kind.scheduler.arguments h.batchSize h.requirements = .ok args
  /-- What is wrong with the one is wrong with the other. -/
  fails : ∀ e, (h.write kind.scheduler script).1 = .error e ↔
    kind.scheduler.arguments h.batchSize h.requirements = .error e
  /-- After a failure the script is as before. -/
  untouched : ∀ e, (h.write kind.scheduler script).1 = .error e → (h.write kind.scheduler script).2 = script
  /-- The directives of the requirements are their arguments, two by two. -/
  written : ∀ args, kind.scheduler.arguments h.batchSize h.requirements = .ok args →
    (h.write kind.scheduler script).2 =
      script ++ h.written kind.scheduler ((couples args).map kind.glued)
  /-- Two arguments for each requirement, of its own name. -/
  counted : ∀ args, kind.scheduler.arguments h.batchSize h.requirements = .ok args →
    args.length = 2 * h.requirements.length ∧
      List.Forall₂ (fun r p => ∃ value, kind.scheduler.argument ⟨r.name, value⟩ = [p.1, p.2]) h.requirements (couples args)
  /-- A script that is submitted starts with the same header. -/
  submitted : ∀ broker command agents text, Batch.script kind.scheduler h broker command agents = .ok text →
    ∃ header, h.write kind.scheduler "" = (.ok (), header) ∧ header.toList <+: text.toList

/-- **The directives of a header say what the arguments say**, and a header that fails leaves no trace. -/
theorem header_tallies (h : Header) (kind : SchedulerKind) (script : String) : h.Tallies kind script := by
  cases hxs : Requirement.renderAll kind.scheduler.resources h.batchSize h.requirements with
  | error e =>
    have hwrite := Header.write_of_error hxs script
    have hargs := Scheduler.arguments_eq_error.mpr hxs
    refine ⟨?_, ?_, ?_, ?_, ?_, ?_⟩
    · rw [hwrite, hargs]
      simp
    · intro e'
      rw [hwrite, hargs]
      simp
    · intro _ _
      rw [hwrite]
    · intro args h'
      rw [hargs] at h'
      cases h'
    · intro args h'
      rw [hargs] at h'
      cases h'
    · intro broker command agents text ht
      have hfails : Batch.script kind.scheduler h broker command agents = .error e := script_eq_error.mpr hxs
      rw [ht] at hfails
      cases hfails
  | ok xs =>
    have hwrite := Header.write_of_ok hxs script
    have hargs := Scheduler.arguments_eq_ok.mpr ⟨xs, hxs, rfl⟩
    have hrendered := (Requirement.renderAll_eq_ok.mp hxs).2
    refine ⟨?_, ?_, ?_, ?_, ?_, ?_⟩
    · rw [hwrite, hargs]
      simp
    · intro e'
      rw [hwrite, hargs]
      simp
    · intro e' he
      rw [hwrite] at he
      cases he
    · intro args h'
      obtain rfl := Except.ok.inj (hargs.symm.trans h')
      rw [hwrite, kind.glued_arguments]
    · intro args h'
      obtain rfl := Except.ok.inj (hargs.symm.trans h')
      refine ⟨by rw [kind.length_arguments, hrendered.length_eq], ?_⟩
      rw [kind.couples_arguments, List.forall₂_map_right_iff]
      apply hrendered.imp
      intro r x hx
      refine ⟨x.value, ?_⟩
      rw [← Requirement.name_render hx, kind.argument_eq]
    · intro broker command agents text ht
      obtain ⟨header, hh, rfl⟩ := script_eq ht
      refine ⟨header, by rw [Header.write_empty, hh], ?_⟩
      rw [String.toList_append]
      exact List.prefix_append _ _

end Batch

end ClusterAgents
