import Mathlib.Algebra.BigOperators.Group.List.Basic
import Mathlib.Algebra.BigOperators.Ring.List
import Mathlib.Algebra.Ring.Nat
import ClusterAgents.Actuator.Basic
import ClusterAgents.Proofs.Batch.Sheets
import ClusterAgents.Proofs.Ledgers

/-!
# What a launch asks for in all

Pending agents are cut into batches, and each batch asks for the resources of its own agents.  Taken together the
scripts ask for what the agents need, as if there were one batch; of memory each script may ask for less by a part
of one unit.

* `Actuator.scripts` — the scripts of all batches that the pending agents are cut into;
* `sum_div_le`, `lt_sum_div` — what is lost where each of several amounts is rounded down;
* `Accounted`, `launch_is_accounted` — the amounts of all scripts.
-/

namespace ClusterAgents

open Text Batch

/-- The scripts of all batches that the pending agents are cut into, unless one of them cannot be written. -/
def Actuator.scripts (a : Actuator) (l : Ledger) : Outcome (List (Batch × String)) :=
  (l.takeBatches a.batchLimit).2.mapM fun b => do
    let script ← a.render (a.batch b.1 b.2)
    .ok (a.batch b.1 b.2, script)

/-! ### Sums -/

/-- Where each of several amounts is rounded down, no more is left. -/
theorem sum_div_le (m : Nat) (ks : List Nat) : m * (ks.map (· / m)).sum ≤ ks.sum := by
  induction ks with
  | nil => simp
  | cons k ks ih =>
    have hk : m * (k / m) ≤ k := Nat.mul_div_le k m
    rw [List.map_cons, List.sum_cons, List.sum_cons, Nat.mul_add]
    omega

/-- What is lost is less than one unit for each of them. -/
theorem lt_sum_div {m : Nat} (hm : 0 < m) {ks : List Nat} (hks : ks ≠ []) :
    ks.sum < m * ((ks.map (· / m)).sum + ks.length) := by
  induction ks with
  | nil => exact absurd rfl hks
  | cons k ks ih =>
    have hk : k < m * (k / m + 1) := Nat.lt_mul_div_succ k hm
    rw [Nat.mul_add, Nat.mul_one] at hk
    rw [List.map_cons, List.sum_cons, List.sum_cons, List.length_cons, Nat.mul_add, Nat.mul_add, Nat.mul_add,
      Nat.mul_one]
    by_cases hrest : ks = []
    · subst hrest
      simpa using hk
    · have := ih hrest
      rw [Nat.mul_add] at this
      omega

/-! ### Batches -/

namespace Actuator

variable {a : Actuator} {l : Ledger} {scripts : List (Batch × String)}

/-- The batches have all pending agents in their order, and each of them has one at least. -/
theorem agents_takeBatches (a : Actuator) (l : Ledger) :
    ((l.takeBatches a.batchLimit).2.map (·.2)).flatten = l.pending ∧
      ∀ b ∈ (l.takeBatches a.batchLimit).2, b.2 ≠ [] := by
  have hagents := l.takeBatches_agents a.batchLimit
  refine ⟨?_, fun b hb => ?_⟩
  · rw [hagents, Ledger.pieces_flatten]
  · have hmem : b.2 ∈ (l.takeBatches a.batchLimit).2.map (·.2) := List.mem_map_of_mem hb
    rw [hagents] at hmem
    exact Ledger.ne_nil_of_mem_pieces hmem

theorem scripts_eq_ok (h : a.scripts l = .ok scripts) :
    (scripts.map (·.1.agents)).flatten = l.pending ∧
      ∀ s ∈ scripts, s.1.agents ≠ [] ∧ a.render s.1 = .ok s.2 := by
  obtain ⟨hflatten, hne⟩ := agents_takeBatches a l
  have hscripts := mapM_eq_ok.mp h
  generalize (l.takeBatches a.batchLimit).2 = batches at hflatten hne hscripts
  have heach : List.Forall₂ (fun (b : BatchId × List AgentId) (s : Batch × String) =>
      s.1 = a.batch b.1 b.2 ∧ a.render s.1 = .ok s.2) batches scripts := by
    refine hscripts.imp fun b s hs => ?_
    obtain ⟨script, hrender, hs⟩ := bind_eq_ok.mp hs
    cases hs
    exact ⟨rfl, hrender⟩
  rw [← hflatten]
  clear h hscripts hflatten
  induction heach with
  | nil => exact ⟨rfl, nofun⟩
  | @cons b s batches scripts hs _ ih =>
    obtain ⟨hbatch, hrender⟩ := hs
    obtain ⟨hb, hne⟩ := List.forall_mem_cons.mp hne
    obtain ⟨hflatten, hall⟩ := ih hne
    have hagents : s.1.agents = b.2 := by rw [hbatch]; rfl
    refine ⟨?_, List.forall_mem_cons.mpr ⟨⟨hagents ▸ hb, hrender⟩, hall⟩⟩
    rw [List.map_cons, List.map_cons, List.flatten_cons, List.flatten_cons, hflatten, hagents]

end Actuator

/-! ### Amounts -/

/-- What all scripts of a launch together ask for, on behalf of `n` agents. -/
structure Accounted (kind : SchedulerKind) (rs : List Requirement) (n : Nat) (sheets : List Sheet) : Prop where
  agents : (sheets.map (·.ids.length)).sum = n
  counts : ∀ (i : Nat) r d v, rs[i]? = some r → Scaled kind r d v → d.kind = .count →
    (sheets.map (·.amount i)).sum = v * n
  /-- Memory is asked for in units of 1000, of which each script may lose a part of one. -/
  memory : ∀ (i : Nat) r d v, rs[i]? = some r → Scaled kind r d v → d.kind = .memory →
    1000 * (sheets.map (·.amount i)).sum ≤ v * n ∧
      v * n < 1000 * ((sheets.map (·.amount i)).sum + sheets.length)
  /-- What does not count for each agent is the same in all scripts. -/
  unscaled : ∀ (i : Nat) r, rs[i]? = some r → Unscaled kind r →
    ∃ directive, ∀ sheet ∈ sheets, sheet.directives[i]? = some directive
  /-- Each script asks for its own agents, and starts as many processes. -/
  shares : ∀ sheet ∈ sheets, Shares kind rs sheet

variable {kind : SchedulerKind} {rs : List Requirement} {sheets : List Sheet}

theorem accounted_of_shares (hshares : ∀ sheet ∈ sheets, Shares kind rs sheet) (hne : sheets ≠ []) :
    Accounted kind rs (sheets.map (·.ids.length)).sum sheets := by
  have hamounts {i : Nat} {r : Requirement} {d : Resource} {v : Nat} (hr : rs[i]? = some r)
      (hscaled : Scaled kind r d v) :
      sheets.map (·.amount i) = (sheets.map (v * ·.ids.length)).map d.inUnits := by
    rw [List.map_map]
    exact List.map_congr_left fun sheet hsheet => (hshares sheet hsheet).scaled i r d v hr hscaled
  have htotal (v : Nat) : (sheets.map (v * ·.ids.length)).sum = v * (sheets.map (·.ids.length)).sum :=
    List.sum_map_mul_left sheets (·.ids.length) v
  refine ⟨rfl, fun i r d v hr hscaled hkind => ?_, fun i r d v hr hscaled hkind => ?_, fun i r hr hunscaled => ?_,
    hshares⟩
  · have hunits : d.inUnits = fun k => k := by
      funext k
      rw [Resource.inUnits, hkind]
      rfl
    rw [hamounts hr hscaled, hunits, List.map_id', htotal v]
  · have hunits : d.inUnits = (· / 1000) := by
      funext k
      rw [Resource.inUnits, if_pos hkind]
    have hlist : sheets.map (v * ·.ids.length) ≠ [] := by simpa using hne
    have hlength : (sheets.map (v * ·.ids.length)).length = sheets.length := List.length_map _
    rw [hamounts hr hscaled, hunits, ← htotal v, ← hlength]
    exact ⟨sum_div_le 1000 _, lt_sum_div (by decide) hlist⟩
  · obtain ⟨sheet, hsheet⟩ := List.exists_mem_of_ne_nil sheets hne
    obtain ⟨x, hx, -⟩ := (hshares sheet hsheet).unscaled i r hr hunscaled
    refine ⟨kind.scheduler.directive x, fun sheet' hsheet' => ?_⟩
    obtain ⟨x', hx', hdirective⟩ := (hshares sheet' hsheet').unscaled i r hr hunscaled
    obtain rfl : x = x' := Except.ok.inj (hx.symm.trans hx')
    exact hdirective

/-- Each script that is written has its sheet. -/
theorem exists_sheets {a : Actuator} {scripts : List (Batch × String)}
    (h : ∀ s ∈ scripts, s.1.agents ≠ [] ∧ a.render s.1 = .ok s.2) :
    ∃ sheets, List.Forall₂ (fun s sheet => Shows a.cluster.scheduler (a.header s.1) s.2 sheet) scripts sheets ∧
      (∀ sheet ∈ sheets, Shares a.cluster.scheduler a.cluster.requirements sheet) ∧
      sheets.map (·.ids.length) = scripts.map (·.1.agents.length) := by
  induction scripts with
  | nil => exact ⟨[], .nil, nofun, rfl⟩
  | cons s scripts ih =>
    obtain ⟨⟨hagents, hrender⟩, h⟩ := List.forall_mem_cons.mp h
    obtain ⟨sheet, hshows, hshares, hids⟩ := exists_sheet hrender hagents rfl
    obtain ⟨sheets, hall, hallShares, hlengths⟩ := ih h
    refine ⟨sheet :: sheets, .cons hshows hall, List.forall_mem_cons.mpr ⟨hshares, hallShares⟩, ?_⟩
    rw [List.map_cons, List.map_cons, hlengths, hids, List.length_map]

/-- **A launch asks for what its agents need**, in however many batches they are submitted. -/
theorem launch_is_accounted (a : Actuator) {l : Ledger} (hpending : l.pending ≠ [])
    {scripts : List (Batch × String)} (h : a.scripts l = .ok scripts) :
    (scripts.map (·.1.agents)).flatten = l.pending ∧
      ∃ sheets, List.Forall₂ (fun s sheet => Shows a.cluster.scheduler (a.header s.1) s.2 sheet) scripts sheets ∧
        Accounted a.cluster.scheduler a.cluster.requirements l.pending.length sheets := by
  obtain ⟨hflatten, heach⟩ := Actuator.scripts_eq_ok h
  obtain ⟨sheets, hshows, hshares, hlengths⟩ := exists_sheets heach
  have hsum : (sheets.map (·.ids.length)).sum = l.pending.length := by
    rw [hlengths, ← hflatten, List.length_flatten, List.map_map]
    rfl
  have hne : sheets ≠ [] := by
    rintro rfl
    exact hpending (List.length_eq_zero_iff.mp hsum.symm)
  refine ⟨hflatten, sheets, hshows, ?_⟩
  rw [← hsum]
  exact accounted_of_shares hshares hne

/-- An actuator whose batches have two agents, each of which needs three nodes and a unit and a half of memory. -/
def pairing : Actuator :=
  ⟨{ name := "c", scheduler := .slurm, workDir := "/w", agentCommand := ["agent"], batchLimit := 2
     requirements := [⟨"nodes", true, .whole 3⟩, ⟨"mem", true, .whole 1500⟩, ⟨"gpus-per-node", true, .text "1"⟩] },
    ⟨"amqp://b", "k", "", false, false⟩, "s"⟩

/-- Three agents are launched by it in two batches. -/
theorem launch_of_three : ∃ scripts, pairing.scripts { pending := [⟨1⟩, ⟨2⟩, ⟨3⟩] } = .ok scripts ∧
    (scripts.map (·.1.agents)).flatten = [⟨1⟩, ⟨2⟩, ⟨3⟩] ∧
      ∃ sheets, List.Forall₂ (fun s sheet => Shows .slurm (pairing.header s.1) s.2 sheet) scripts sheets ∧
        Accounted .slurm pairing.cluster.requirements 3 sheets := by
  have hsome : (pairing.scripts { pending := [⟨1⟩, ⟨2⟩, ⟨3⟩] }).toOption.isSome = true := by decide +kernel
  obtain ⟨scripts, hscripts⟩ := Option.isSome_iff_exists.mp hsome
  have h := toOption_eq_some.mp hscripts
  exact ⟨scripts, h, launch_is_accounted pairing (List.cons_ne_nil _ _) h⟩

end ClusterAgents
