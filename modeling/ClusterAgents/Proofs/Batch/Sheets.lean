import ClusterAgents.Proofs.Batch.FanOut
import ClusterAgents.Proofs.Batch.Header

/-!
# What a script says

A script is read in its parts: one directive for each requirement, the variables that are exported, and the command
that starts the agents.  The number of agents is in all three of them.

* `Sheet`, `Shows` — these parts, and the scripts that they are the parts of;
* `amountIn`, `amountIn_directive` — the amount that a directive asks for, which is read back;
* `Scaled`, `Unscaled` — the requirements that count for each agent, and those that count once;
* `exists_sheet` — every script has such parts, with the share of its own agents in the amounts.
-/

namespace ClusterAgents

open Text Shell

namespace Batch

/-! ### The parts of a script -/

/-- What a script says. -/
structure Sheet where
  /-- What it tells the scheduler, one for each requirement. -/
  directives : List String
  /-- What it tells the processes that are started. -/
  exported : List (String × String)
  /-- The words of the command that starts the agents. -/
  launch : List String

/-- The amount that a directive asks for: the number behind its equality sign. -/
def amountIn (directive : String) : Nat :=
  Nat.ofDigitChars 10 ((directive.toList.dropWhile (· ≠ '=')).tail.takeWhile Char.isDigit) 0

namespace Sheet

/-- The ids that are exported, as a shell takes them apart. -/
def ids (sheet : Sheet) : List String :=
  (Session.fields { environment := define sheet.exported {} } [.param (.variable idsVariable) false]).getD []

/-- The amount that is asked for by the requirement in a place. -/
def amount (sheet : Sheet) (i : Nat) : Nat := amountIn (sheet.directives[i]?.getD "")

end Sheet

/-- The text of a header that has the directives of its requirements. -/
def Header.written (h : Header) (s : Scheduler) (directives : List String) : String :=
  String.join (("#!/bin/bash" :: (s.jobDirectives h.jobName (Word.quote h.stdout) (Word.quote h.stderr) ++
    directives ++ h.extra).map (s.marker ++ " " ++ ·)).map line)

/-- **A script with its parts.** -/
structure Shows (kind : SchedulerKind) (h : Header) (text : String) (sheet : Sheet) : Prop where
  /-- The directives are those of the requirements, in their order. -/
  named : List.Forall₂ (fun r d => ∃ value, d = kind.scheduler.directive ⟨r.name, value⟩)
    h.requirements sheet.directives
  /-- Behind the header a shell reads the exports and one more command. -/
  parts : ∃ body exports launch, text = h.written kind.scheduler sheet.directives ++ body ∧
    parse body = some (exports ++ [launch]) ∧
    (∀ σ : Session, exports.mapM σ.exported? = some sheet.exported) ∧
    ∀ σ : Session, σ.words launch = some sheet.launch
  /-- Amounts are scaled by the number of ids. -/
  size : h.batchSize = sheet.ids.length

/-! ### Amounts -/

theorem amountIn_eq {directive : String} {front unit : List Char} {k : Nat}
    (hd : directive.toList = front ++ '=' :: ((decimal k).toList ++ unit)) (hfront : '=' ∉ front)
    (hunit : unit.takeWhile Char.isDigit = []) : amountIn directive = k := by
  have hskip : ∀ c ∈ front, decide (c ≠ '=') = true := by
    intro c hc
    rw [decide_eq_true_eq]
    rintro rfl
    exact hfront hc
  have hdigits : ∀ c ∈ (decimal k).toList, c.isDigit = true := fun _ hc => isDigit_of_mem_decimal hc
  unfold amountIn
  rw [hd, List.dropWhile_append_of_pos hskip, List.dropWhile_cons_of_neg (by simp), List.tail_cons,
    List.takeWhile_append_of_pos hdigits, hunit, List.append_nil, ofDigitChars_decimal]

end Batch

namespace SchedulerKind

variable (kind : SchedulerKind)

theorem equals_not_mem_name : ∀ d ∈ kind.scheduler.resources.entries, '=' ∉ d.name.toList := by
  cases kind <;> decide +kernel

theorem takeWhile_unit : ∀ d ∈ kind.scheduler.resources.entries, d.unit.toList.takeWhile Char.isDigit = [] := by
  cases kind <;> decide +kernel

theorem kind_of_scales : ∀ d ∈ kind.scheduler.resources.entries, d.scales = true → d.kind ≠ .duration := by
  cases kind <;> decide +kernel

theorem toList_directive (x : Rendered) :
    ∃ option : List Char, '=' ∉ option ∧
      (kind.scheduler.directive x).toList = (option ++ x.name.toList) ++ '=' :: x.value.toList := by
  cases kind with
  | pbs => exact ⟨"-l ".toList, by decide, by simp [scheduler, Scheduler.pbs]⟩
  | slurm => exact ⟨"--".toList, by decide, by simp [scheduler, Scheduler.slurm]⟩

end SchedulerKind

namespace Batch

variable {kind : SchedulerKind}

/-- **The amount of a directive is read back** from it. -/
theorem amountIn_directive {name : String} {d : Resource} (hd : kind.scheduler.resources.get? name = some d)
    (hkind : d.kind ≠ .duration) (k : Nat) : amountIn (kind.scheduler.directive ⟨name, d.format k⟩) = k := by
  have hmem : d ∈ kind.scheduler.resources.entries := List.mem_of_find?_eq_some hd
  have hname : '=' ∉ name.toList := ResourceTable.name_of_get? hd ▸ kind.equals_not_mem_name d hmem
  have hformat : d.format k = decimal k ++ d.unit := by
    unfold Resource.format
    split
    · next h => exact absurd h hkind
    · rfl
  obtain ⟨option, hoption, htext⟩ := kind.toList_directive ⟨name, d.format k⟩
  rw [hformat] at htext ⊢
  have hfront : '=' ∉ option ++ name.toList := fun h => (List.mem_append.mp h).elim hoption hname
  rw [String.toList_append] at htext
  exact amountIn_eq htext hfront (kind.takeWhile_unit d hmem)

/-! ### Requirements -/

/-- A requirement that counts for each agent, and the amount that its value stands for. -/
structure Scaled (kind : SchedulerKind) (r : Requirement) (d : Resource) (v : Nat) : Prop where
  known : kind.scheduler.resources.get? r.name = some d
  scale : r.scale = true
  scales : d.scales = true
  value : d.parse r.value = .ok v

/-- A requirement that counts once for each batch: it is asked for in that way, or its resource does not scale. -/
def Unscaled (kind : SchedulerKind) (r : Requirement) : Prop :=
  r.scale = false ∨ ∀ d, kind.scheduler.resources.get? r.name = some d → d.scales = false

variable {r : Requirement} {b : Nat} {x : Rendered}

/-- What counts for each agent is asked for in its unit. -/
theorem Scaled.render {d : Resource} {v : Nat} (h : Scaled kind r d v)
    (hx : r.render kind.scheduler.resources b = .ok x) : x = ⟨r.name, d.format (d.inUnits (v * b))⟩ := by
  obtain ⟨n, hn, -, hvalue⟩ := Resource.render_eq_ok.mp (Requirement.value_render_of_known h.known hx)
  obtain rfl : v = n := Except.ok.inj (h.value.symm.trans hn)
  have hscale : (r.scale && d.scales) = true := by rw [h.scale, h.scales]; rfl
  rw [Resource.total_of_scales hscale] at hvalue
  rw [hvalue, ← Requirement.name_render hx]

/-- What counts once does not depend on the batch. -/
theorem Unscaled.render (h : Unscaled kind r) (hx : r.render kind.scheduler.resources b = .ok x) (b' : Nat) :
    r.render kind.scheduler.resources b' = .ok x := by
  cases hd : kind.scheduler.resources.get? r.name with
  | none =>
    rw [Requirement.render_of_unknown hd] at hx ⊢
    exact hx
  | some d =>
    have hscale : (r.scale && d.scales) = false := by
      rcases h with h | h
      · rw [h, Bool.false_and]
      · rw [h d hd, Bool.and_false]
    have hvalue := Requirement.value_render_of_known hd hx
    have hsame : d.render b' r.scale r.value = .ok x.value := by
      obtain ⟨n, hn, hlimit, htext⟩ := Resource.render_eq_ok.mp hvalue
      rw [Resource.total_of_not_scales hscale] at hlimit htext
      refine Resource.render_eq_ok.mpr ⟨n, hn, ?_⟩
      rw [Resource.total_of_not_scales hscale]
      exact ⟨hlimit, htext⟩
    rw [Requirement.render_of_known hd, hsame, ← Requirement.name_render hx]
    rfl

/-! ### The parts of every script -/

/-- The sheet of a script whose requirements are resolved. -/
def sheet (kind : SchedulerKind) (broker : Broker) (command : List String) (agents : List AgentId)
    (xs : List Rendered) : Sheet where
  directives := xs.map kind.scheduler.directive
  exported := pairs broker agents
  launch := launchWords kind command agents (pickScript kind.scheduler (Word.join command) (exports broker agents))

variable {broker : Broker} {command : List String} {agents : List AgentId} {xs : List Rendered}

theorem ids_sheet : (sheet kind broker command agents xs).ids = agents.map AgentId.text := by
  have hids := get?_define_of_mem (pairs_nodup broker agents) (ids_mem_pairs broker agents) {}
  unfold Sheet.ids
  rw [show (sheet kind broker command agents xs).exported = pairs broker agents from rfl, fields_ids hids]
  rfl

theorem shows_sheet {h : Header} {text : String} (ht : script kind.scheduler h broker command agents = .ok text)
    (ha : agents ≠ []) (hsize : h.batchSize = agents.length) :
    ∃ xs, Requirement.renderAll kind.scheduler.resources h.batchSize h.requirements = .ok xs ∧
      Shows kind h text (sheet kind broker command agents xs) := by
  obtain ⟨header, hh, rfl⟩ := script_eq ht
  obtain ⟨xs, hxs, rfl⟩ := Header.text_eq_ok.mp hh
  refine ⟨xs, hxs, ?_, ⟨_, _, _, rfl, parse_body kind broker command ha, ?_, ?_⟩, ?_⟩
  · refine List.forall₂_map_right_iff.mpr ((Requirement.renderAll_eq_ok.mp hxs).2.imp fun r x hx => ?_)
    exact ⟨x.value, by rw [← Requirement.name_render hx]⟩
  · exact mapM_exported? fun _ hp => (isName_of_mem_pairs broker agents hp).1
  · exact fun σ => σ.words_spelling _
  · rw [ids_sheet, List.length_map, hsize]

/-- What a script asks for on behalf of its own agents. -/
structure Shares (kind : SchedulerKind) (rs : List Requirement) (sheet : Sheet) : Prop where
  scaled : ∀ (i : Nat) r d v, rs[i]? = some r → Scaled kind r d v → sheet.amount i = d.inUnits (v * sheet.ids.length)
  /-- It is as for a single agent. -/
  unscaled : ∀ (i : Nat) r, rs[i]? = some r → Unscaled kind r → ∃ x, r.render kind.scheduler.resources 1 = .ok x ∧
    sheet.directives[i]? = some (kind.scheduler.directive x)
  /-- Several processes are started, as many as there are ids. -/
  tasks : kind = .slurm → 2 ≤ sheet.ids.length →
    ["srun", "--overlap", "--ntasks=" ++ decimal sheet.ids.length] <+: sheet.launch

theorem shares_sheet {rs : List Requirement}
    (hxs : Requirement.renderAll kind.scheduler.resources agents.length rs = .ok xs) :
    Shares kind rs (sheet kind broker command agents xs) := by
  have hrender := (Requirement.renderAll_eq_ok.mp hxs).2
  have hlength : (sheet kind broker command agents xs).ids.length = agents.length := by
    rw [ids_sheet, List.length_map]
  have hdirective {i : Nat} {x : Rendered} (hx : xs[i]? = some x) :
      (sheet kind broker command agents xs).directives[i]? = some (kind.scheduler.directive x) := by
    rw [show (sheet kind broker command agents xs).directives = xs.map kind.scheduler.directive from rfl,
      List.getElem?_map, hx, Option.map_some]
  refine ⟨fun i r d v hr hscaled => ?_, fun i r hr hunscaled => ?_, ?_⟩
  · obtain ⟨x, hx, hrx⟩ := exists_of_getElem? hrender hr
    have hmem : d ∈ kind.scheduler.resources.entries := List.mem_of_find?_eq_some hscaled.known
    unfold Sheet.amount
    rw [hdirective hx, Option.getD_some, hscaled.render hrx, hlength]
    exact amountIn_directive hscaled.known (kind.kind_of_scales d hmem hscaled.scales) _
  · obtain ⟨x, hx, hrx⟩ := exists_of_getElem? hrender hr
    exact ⟨x, hunscaled.render hrx 1, hdirective hx⟩
  · rintro rfl htwo
    rw [hlength] at htwo ⊢
    unfold sheet
    dsimp only
    rw [launchWords_of_two_le .slurm command htwo]
    exact List.prefix_append _ _

/-- **Every script has such parts**, and a share of the whole in them that is that of its own agents. -/
theorem exists_sheet {h : Header} {text : String} (ht : script kind.scheduler h broker command agents = .ok text)
    (ha : agents ≠ []) (hsize : h.batchSize = agents.length) :
    ∃ sheet, Shows kind h text sheet ∧ Shares kind h.requirements sheet ∧ sheet.ids = agents.map AgentId.text := by
  obtain ⟨xs, hxs, hshows⟩ := shows_sheet ht ha hsize
  rw [hsize] at hxs
  exact ⟨_, hshows, shares_sheet hxs, ids_sheet⟩

end Batch

end ClusterAgents
