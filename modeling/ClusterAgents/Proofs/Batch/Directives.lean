import ClusterAgents.Actuator.Basic
import ClusterAgents.Config
import ClusterAgents.Proofs.Batch.Header
import ClusterAgents.Proofs.Lines

/-!
# The lines of a header

A header says one thing on each line, and every line but the first speaks to the scheduler.  Some of the texts
of a configuration are written as they are, and a line ends where such a text has a newline; quotes around it
are no help.

* `Header.texts` — the texts that are written as they are;
* `OneLineEach` — what the lines of a header should be, and `oneLineEach_iff`, when they are;
* `header_obeyed_by_shell` — a configuration with a line that the scheduler does not see.
-/

namespace ClusterAgents

open Text

/-! ### One requirement -/

theorem Resource.oneLine_format {r : Resource} (h : OneLine r.unit) (n : Nat) : OneLine (r.format n) := by
  unfold format
  split
  · exact oneLine_hms n
  · exact oneLine_append.mpr ⟨oneLine_decimal n, h⟩

namespace Requirement

/-- The texts of a requirement that are written as they are: its name, and its value if it is a text and of no
resource that is known. -/
def texts (table : ResourceTable) (r : Requirement) : List String :=
  r.name :: match table.get? r.name, r.value with
    | none, .text t => [t]
    | _, _ => []

theorem oneLine_rawValue (r : Requirement) :
    OneLine r.rawValue ↔ ∀ t, r.value = .text t → OneLine t := by
  unfold rawValue
  split
  · next t ht => simp [ht]
  · next v hv => exact iff_of_true (Text.oneLine_render r.value) fun t ht => (hv t ht).elim

theorem oneLine_render {table : ResourceTable} (hunits : ∀ d ∈ table.entries, OneLine d.unit) {b : Nat}
    {r : Requirement} {x : Rendered} (h : r.render table b = .ok x) :
    OneLine x.name ∧ OneLine x.value ↔ ∀ t ∈ r.texts table, OneLine t := by
  rw [name_render h, texts, List.forall_mem_cons]
  refine and_congr_right fun _ => ?_
  cases ht : table.get? r.name with
  | none =>
    rw [render_of_unknown ht] at h
    cases h
    rw [oneLine_rawValue]
    cases r.value <;> simp
  | some d =>
    have hunit := hunits d (List.mem_of_find?_eq_some ht)
    obtain ⟨n, -, -, hx⟩ := Resource.render_eq_ok.mp (value_render_of_known ht h)
    have hvalue : OneLine x.value := hx ▸ Resource.oneLine_format hunit _
    simp [hvalue]

end Requirement

/-! ### The syntax of a scheduler -/

namespace SchedulerKind

variable (kind : SchedulerKind)

theorem oneLine_unit : ∀ d ∈ kind.scheduler.resources.entries, OneLine d.unit := by
  cases kind <;> decide +kernel

theorem oneLine_marker : OneLine (kind.scheduler.marker ++ " ") := by
  cases kind <;> decide +kernel

theorem oneLine_directive (x : Rendered) :
    OneLine (kind.scheduler.directive x) ↔ OneLine x.name ∧ OneLine x.value := by
  have hequals : OneLine "=" := by decide
  cases kind with
  | pbs =>
    have hoption : OneLine "-l " := by decide
    change OneLine ("-l " ++ x.name ++ "=" ++ x.value) ↔ _
    simp only [oneLine_append, hequals, hoption, true_and, and_true]
  | slurm =>
    have hoption : OneLine "--" := by decide
    change OneLine ("--" ++ x.name ++ "=" ++ x.value) ↔ _
    simp only [oneLine_append, hequals, hoption, true_and, and_true]

theorem length_jobDirectives (name stdout stderr : String) :
    (kind.scheduler.jobDirectives name stdout stderr).length = 3 := by
  cases kind <;> rfl

theorem oneLine_jobDirectives (name stdout stderr : String) :
    (∀ l ∈ kind.scheduler.jobDirectives name stdout stderr, OneLine l) ↔
      OneLine name ∧ OneLine stdout ∧ OneLine stderr := by
  cases kind with
  | pbs =>
    have hoptions : OneLine "-N " ∧ OneLine "-o " ∧ OneLine "-e " := by decide
    change (∀ l ∈ ["-N " ++ name, "-o " ++ stdout, "-e " ++ stderr], OneLine l) ↔ _
    simp [oneLine_append, hoptions]
  | slurm =>
    have hoptions : OneLine "--job-name=" ∧ OneLine "--output=" ∧ OneLine "--error=" := by decide
    change (∀ l ∈ ["--job-name=" ++ name, "--output=" ++ stdout, "--error=" ++ stderr], OneLine l) ↔ _
    simp [oneLine_append, hoptions]

end SchedulerKind

/-! ### The header -/

namespace Batch

/-- The texts of a header that are written as they are, or between quotes. -/
def Header.texts (h : Header) (table : ResourceTable) : List String :=
  [h.jobName, h.stdout, h.stderr] ++ h.requirements.flatMap (Requirement.texts table) ++ h.extra

/-- What the lines of a header should be. -/
structure OneLineEach (h : Header) (s : Scheduler) (text : String) : Prop where
  /-- One for the shell, three for the job, and one for each requirement and each further argument. -/
  count : (lines text).length = 4 + h.requirements.length + h.extra.length
  order : ∃ xs, Requirement.renderAll s.resources h.batchSize h.requirements = .ok xs ∧
    lines text = "#!/bin/bash" :: (s.jobDirectives h.jobName (Shell.Word.quote h.stdout) (Shell.Word.quote h.stderr) ++
      xs.map s.directive ++ h.extra).map (s.marker ++ " " ++ ·)
  /-- All but the first speak to the scheduler. -/
  marked : ∀ l ∈ (lines text).tail, (s.marker ++ " ").toList <+: l.toList

variable {h : Header} {kind : SchedulerKind}

theorem oneLine_rendered {xs : List Rendered} {b : Nat} {rs : List Requirement}
    (hxs : List.Forall₂ (fun r x => r.render kind.scheduler.resources b = .ok x) rs xs) :
    (∀ x ∈ xs, OneLine (kind.scheduler.directive x)) ↔
      ∀ t ∈ rs.flatMap (Requirement.texts kind.scheduler.resources), OneLine t := by
  induction hxs with
  | nil => simp
  | cons hx _ ih =>
    rw [List.forall_mem_cons, ih, kind.oneLine_directive, Requirement.oneLine_render kind.oneLine_unit hx,
      List.flatMap_cons]
    simp only [List.mem_append, or_imp, forall_and]

/-- The lines of a header are lines exactly if the texts that are written as they are have no newline. -/
theorem oneLine_plan {xs : List Rendered}
    (hxs : Requirement.renderAll kind.scheduler.resources h.batchSize h.requirements = .ok xs) :
    (∀ l ∈ h.plan kind.scheduler xs, OneLine l) ↔
      ∀ t ∈ h.texts kind.scheduler.resources, OneLine t := by
  have hshebang : OneLine "#!/bin/bash" := by decide
  have hmarker := kind.oneLine_marker
  have hrendered := oneLine_rendered (Requirement.renderAll_eq_ok.mp hxs).2
  unfold Header.plan Header.directives Header.texts
  simp only [List.forall_mem_cons, hshebang, true_and, List.forall_mem_map, oneLine_append, hmarker,
    List.mem_append, or_imp, forall_and, kind.oneLine_jobDirectives, oneLine_quote, hrendered]
  simp

theorem length_plan {xs : List Rendered}
    (hxs : Requirement.renderAll kind.scheduler.resources h.batchSize h.requirements = .ok xs) :
    (h.plan kind.scheduler xs).length = 4 + h.requirements.length + h.extra.length := by
  have hlength := (Requirement.renderAll_eq_ok.mp hxs).2.length_eq
  unfold Header.plan Header.directives
  simp only [List.length_cons, List.length_map, List.length_append, kind.length_jobDirectives]
  omega

/-- **Each line of a header says one thing to the scheduler** exactly if none of the texts that are written as
they are has a newline. -/
theorem oneLineEach_iff (kind : SchedulerKind) {h : Header} {text : String}
    (ht : h.text kind.scheduler = .ok text) :
    OneLineEach h kind.scheduler text ↔ ∀ t ∈ h.texts kind.scheduler.resources, OneLine t := by
  obtain ⟨xs, hxs, rfl⟩ := Header.text_eq_ok.mp ht
  rw [← oneLine_plan hxs, ← lines_join]
  constructor
  · rintro ⟨-, ⟨ys, hys, hlines⟩, -⟩
    rw [hxs] at hys
    cases hys
    exact hlines
  · intro (hlines : lines (String.join ((h.plan kind.scheduler xs).map line)) = h.plan kind.scheduler xs)
    refine ⟨?_, ⟨xs, hxs, hlines⟩, ?_⟩
    · rw [hlines]
      exact length_plan hxs
    · intro l hl
      rw [hlines] at hl
      obtain ⟨d, -, rfl⟩ := List.mem_map.mp hl
      refine ⟨d.toList, ?_⟩
      rw [← String.toList_append]

/-- A header with quotes in a path, a known resource that scales, and a value and an argument that are passed
on. -/
def quotedHeader : Header :=
  ⟨"c-001", "/w/it's/stdout", "/w/stderr", 2, [⟨"mem", true, .whole 1000⟩, ⟨"place", false, .text "pack\t"⟩], ["-q x"]⟩

/-- Its lines are what they should be. -/
theorem oneLineEach_quotedHeader :
    ∃ text, quotedHeader.text SchedulerKind.pbs.scheduler = .ok text ∧
      (∀ t ∈ quotedHeader.texts SchedulerKind.pbs.scheduler.resources, OneLine t) ∧
      OneLineEach quotedHeader SchedulerKind.pbs.scheduler text := by
  have hrun : (quotedHeader.text SchedulerKind.pbs.scheduler).toOption.isSome = true := by decide +kernel
  have htexts : ∀ t ∈ quotedHeader.texts SchedulerKind.pbs.scheduler.resources, OneLine t := by
    decide +kernel
  obtain ⟨text, htext⟩ := Option.isSome_iff_exists.mp hrun
  have ht := toOption_eq_some.mp htext
  exact ⟨text, ht, htexts, (oneLineEach_iff .pbs ht).mpr htexts⟩

/-- A configuration with a newline in the value of a requirement. -/
def brokenContent : String :=
  "[broker]\nuri = \"amqp://b\"\nrouting_key = \"k\"\n\n[[resource]]\nname = \"c\"\ndialect = \"slurm\"\n" ++
    "work_dir = \"/w\"\nagent_command = [\"agent\"]\nrequirements = [" ++
    "\x7b name = \"constraint\", value = \"gpu\\nrm -rf /w\" \x7d]\n"

/-- **The rest of a value becomes a command** of the shell that obeys the script: the configuration is accepted,
the header is written, and one of its lines does not speak to the scheduler. -/
theorem header_obeyed_by_shell :
    ∃ config c text, Config.parse none brokenContent = .ok config ∧ c ∈ config.clusters ∧
      (Actuator.header ⟨c, config.broker, "s"⟩ (Actuator.batch ⟨c, config.broker, "s"⟩ 0 [⟨1⟩])).text
        c.scheduler.scheduler = .ok text ∧
      "rm -rf /w" ∈ lines text ∧
      ¬ OneLineEach (Actuator.header ⟨c, config.broker, "s"⟩ (Actuator.batch ⟨c, config.broker, "s"⟩ 0 [⟨1⟩]))
        c.scheduler.scheduler text := by
  have hrun : ((Config.parse none brokenContent).toOption.bind fun config =>
      config.clusters.head?.bind fun c => (Batch.Header.text (Actuator.header ⟨c, config.broker, "s"⟩
        (Actuator.batch ⟨c, config.broker, "s"⟩ 0 [⟨1⟩])) c.scheduler.scheduler).toOption.map lines) =
      some ["#!/bin/bash", "#SBATCH --job-name=c-000", "#SBATCH --output=/w/c/s/000/stdout",
        "#SBATCH --error=/w/c/s/000/stderr", "#SBATCH --constraint=gpu", "rm -rf /w"] := by
    decide +kernel
  obtain ⟨config, hconfig, hrun⟩ := Option.bind_eq_some_iff.mp hrun
  obtain ⟨c, hc, hrun⟩ := Option.bind_eq_some_iff.mp hrun
  obtain ⟨text, htext, hlines⟩ := Option.map_eq_some_iff.mp hrun
  refine ⟨config, c, text, toOption_eq_some.mp hconfig, List.mem_of_head? hc, toOption_eq_some.mp htext, ?_, ?_⟩
  · rw [hlines]
    simp
  · intro honeLine
    have hmarked := honeLine.marked "rm -rf /w" (by rw [hlines]; simp)
    revert hmarked
    cases c.scheduler <;> decide +kernel

end Batch

end ClusterAgents
