import ClusterAgents.CommandLine.Program
import ClusterAgents.Proofs.Accepted
import ClusterAgents.Proofs.Batch.Tokens

/-!
# Time limits

Requirements are looked at three times: for the arguments, for the time limit among them, and for the script.  The
time limit is looked up by its name and not by its place, and nothing of a batch is known there.

* `Limited` — what the time limit of requirements has to do with their arguments;
* `shownAt_of_arguments`, `exists_limited` — where it is shown, and that it is found;
* `Printed` — what is printed for an order to show a batch;
* `shown_limit_is_found` — once there are arguments, nothing that comes behind them fails.
-/

namespace ClusterAgents

open CommandLine

namespace SchedulerKind

variable (kind : SchedulerKind)

/-- The resource of the time limit. -/
theorem exists_walltime : ∃ d, kind.scheduler.resources.get? kind.scheduler.walltimeName = some d ∧
    d.kind = .duration ∧ d.scales = false := by
  cases kind with
  | pbs => exact ⟨.duration "walltime", by decide, rfl, rfl⟩
  | slurm => exact ⟨.duration "time", by decide, rfl, rfl⟩

end SchedulerKind

namespace Requirement

/-- A time limit is written as it is read, for a batch of any size and with any scale. -/
theorem render_of_duration {table : ResourceTable} {d : Resource} {r : Requirement}
    (hd : table.get? r.name = some d) (hkind : d.kind = .duration) (hscales : d.scales = false) {b : Nat} {x : Rendered}
    (hx : r.render table b = .ok x) : ∃ s, d.parse r.value = .ok s ∧ x = ⟨r.name, Time.hms s⟩ := by
  obtain ⟨s, hs, -, hvalue⟩ := Resource.render_eq_ok.mp (value_render_of_known hd hx)
  have htotal : d.total b r.scale s = s := Resource.total_of_not_scales (by rw [hscales, Bool.and_false]) b s
  have hunits : d.inUnits s = s := by
    unfold Resource.inUnits
    rw [if_neg (by rw [hkind]; decide)]
  have hformat : d.format s = Time.hms s := by
    unfold Resource.format
    rw [hkind]
  rw [htotal, hunits, hformat] at hvalue
  refine ⟨s, hs, ?_⟩
  rw [hvalue, ← name_render hx]

/-- Requirements with other scales. -/
def rescaled (scales : Requirement → Bool) (rs : List Requirement) : List Requirement :=
  rs.map fun r => { r with scale := scales r }

theorem walltime?_rescaled (table : ResourceTable) (name : String) (scales : Requirement → Bool) (rs : List Requirement) :
    walltime? table name (rescaled scales rs) = walltime? table name rs := by
  have hfind : (rescaled scales rs).find? (·.name == name) =
      (rs.find? (·.name == name)).map fun r => { r with scale := scales r } := by
    unfold rescaled
    rw [List.find?_map]
    rfl
  unfold walltime?
  rw [hfind]
  cases rs.find? (·.name == name) with
  | none => rfl
  | some r => rfl

end Requirement

/-- The arguments of the requirement in a place show a time limit. -/
def ShownAt (kind : SchedulerKind) (args : List String) (i s : Nat) : Prop :=
  ∃ front back, args = front ++ kind.scheduler.argument ⟨kind.scheduler.walltimeName, Time.hms s⟩ ++ back ∧
    front.length = 2 * i

/-- **What the time limit of requirements has to do with their arguments.** -/
structure Limited (kind : SchedulerKind) (rs : List Requirement) (args : List String) (limit : Option Nat) : Prop where
  found : kind.scheduler.walltime? rs = .ok limit
  absent : limit = none ↔ ∀ r ∈ rs, r.name ≠ kind.scheduler.walltimeName
  /-- It is shown in the place of the first requirement of its name. -/
  shown : ∀ s, limit = some s →
    ∃ i, rs.findIdx? (·.name == kind.scheduler.walltimeName) = some i ∧ ShownAt kind args i s ∧
      -- and the same is shown there for a batch of any size, and whatever the scales are
      ∀ b scales args', kind.scheduler.arguments b (Requirement.rescaled scales rs) = .ok args' → ShownAt kind args' i s
  unscaled : ∀ scales, kind.scheduler.walltime? (Requirement.rescaled scales rs) = .ok limit

variable {kind : SchedulerKind} {b : Nat} {rs : List Requirement} {args : List String}

theorem shownAt_of_arguments (hargs : kind.scheduler.arguments b rs = .ok args) {d : Resource}
    (hd : kind.scheduler.resources.get? kind.scheduler.walltimeName = some d) (hkind : d.kind = .duration)
    (hscales : d.scales = false) {i : Nat} {r : Requirement} (hr : rs[i]? = some r)
    (hname : r.name = kind.scheduler.walltimeName) {s : Nat} (hs : d.parse r.value = .ok s) : ShownAt kind args i s := by
  obtain ⟨xs, hxs, rfl⟩ := Scheduler.arguments_eq_ok.mp hargs
  obtain ⟨x, hx, hrender⟩ := exists_of_getElem? (Requirement.renderAll_eq_ok.mp hxs).2 hr
  rw [← hname] at hd
  obtain ⟨s', hs', rfl⟩ := Requirement.render_of_duration hd hkind hscales hrender
  obtain rfl := Except.ok.inj (hs.symm.trans hs')
  obtain ⟨hi, hget⟩ := List.getElem?_eq_some_iff.mp hx
  have hcut : xs = xs.take i ++ ⟨r.name, Time.hms s⟩ :: xs.drop (i + 1) := by
    rw [← hget, List.getElem_cons_drop, List.take_append_drop]
  refine ⟨(xs.take i).flatMap kind.scheduler.argument, (xs.drop (i + 1)).flatMap kind.scheduler.argument, ?_, ?_⟩
  · conv_lhs => rw [hcut]
    rw [List.flatMap_append, List.flatMap_cons, hname, List.append_assoc]
  · rw [kind.length_arguments, List.length_take, Nat.min_eq_left (by omega)]

/-- The requirement that is found by a name, with its place. -/
theorem exists_place {name : String} {r : Requirement} (h : rs.find? (·.name == name) = some r) :
    ∃ i, rs.findIdx? (·.name == name) = some i ∧ rs[i]? = some r ∧ r.name = name := by
  obtain ⟨hname, i, hi, hget, hbefore⟩ := List.find?_eq_some_iff_getElem.mp h
  refine ⟨i, ?_, ?_, eq_of_beq hname⟩
  · apply List.findIdx?_eq_some_iff_getElem.mpr
    refine ⟨hi, by rw [hget]; exact hname, fun j hj => ?_⟩
    simpa using hbefore j hj
  · rw [List.getElem?_eq_getElem hi, hget]

/-- A requirement that can be resolved has a value that can be read. -/
theorem exists_parse_of_arguments (hargs : kind.scheduler.arguments b rs = .ok args) {r : Requirement} (hr : r ∈ rs)
    {d : Resource} (hd : kind.scheduler.resources.get? r.name = some d) : ∃ s, d.parse r.value = .ok s := by
  obtain ⟨xs, hxs, -⟩ := Scheduler.arguments_eq_ok.mp hargs
  obtain ⟨i, hi⟩ := List.mem_iff_getElem?.mp hr
  obtain ⟨x, -, hx⟩ := exists_of_getElem? (Requirement.renderAll_eq_ok.mp hxs).2 hi
  obtain ⟨s, hs, -⟩ := Resource.render_eq_ok.mp (Requirement.value_render_of_known hd hx)
  exact ⟨s, hs⟩

theorem exists_limited (hargs : kind.scheduler.arguments b rs = .ok args) : ∃ limit, Limited kind rs args limit := by
  obtain ⟨d, hd, hkind, hscales⟩ := kind.exists_walltime
  have hsame (scales : Requirement → Bool) :
      kind.scheduler.walltime? (Requirement.rescaled scales rs) = kind.scheduler.walltime? rs :=
    Requirement.walltime?_rescaled _ _ _ _
  cases hfind : rs.find? (·.name == kind.scheduler.walltimeName) with
  | none =>
    have hfound : kind.scheduler.walltime? rs = .ok none := by
      unfold Scheduler.walltime? Requirement.walltime?
      rw [hfind]
    refine ⟨none, hfound, ?_, nofun, fun scales => (hsame scales).trans hfound⟩
    simpa using List.find?_eq_none.mp hfind
  | some r =>
    obtain ⟨i, hplace, hr, hname⟩ := exists_place hfind
    have hmem := List.mem_of_getElem? hr
    obtain ⟨s, hs⟩ := exists_parse_of_arguments hargs hmem (hname ▸ hd)
    have hfound : kind.scheduler.walltime? rs = .ok (some s) := by
      unfold Scheduler.walltime? Requirement.walltime?
      rw [hfind, hd]
      dsimp only
      rw [hs]
      rfl
    refine ⟨some s, hfound, ?_, ?_, fun scales => (hsame scales).trans hfound⟩
    · constructor
      · nofun
      · intro hnone
        exact absurd hname (hnone r hmem)
    · intro s' hs'
      obtain rfl := Option.some.inj hs'
      refine ⟨i, hplace, shownAt_of_arguments hargs hd hkind hscales hr hname hs, ?_⟩
      intro b' scales args' hargs'
      -- the same value stands in the same place, so it is written the same way
      have hr' : (Requirement.rescaled scales rs)[i]? = some { r with scale := scales r } := by
        unfold Requirement.rescaled
        rw [List.getElem?_map, hr]
        rfl
      exact shownAt_of_arguments hargs' hd hkind hscales hr' hname hs

/-! ### Showing a batch -/

/-- **What is printed where a batch is to be shown**: nothing at all, or all of it. -/
structure Printed (config : Config) (session resource : String) (agents : List AgentId) (r : Report) : Prop where
  failed : r.status ≠ 0 → ∃ cause, r = { status := 1, stdout := "", notices := [.failed cause] }
  whole : r.status = 0 → ∃ a args limit batch script, actuator config session resource = .ok a ∧
    a.scheduler.arguments agents.length a.cluster.requirements = .ok args ∧
    a.scheduler.walltime? a.cluster.requirements = .ok limit ∧ a.dryRun agents = .ok (batch, script) ∧
    r = { stdout := "Arguments: " ++ " ".intercalate args ++ "\n" ++ walltimeLine limit ++
      "Script path: " ++ batch.scriptPath ++ "\n\n" ++ script }
  /-- With the arguments, all the rest is there as well. -/
  sure : ∀ a args, actuator config session resource = .ok a →
    a.scheduler.arguments agents.length a.cluster.requirements = .ok args →
      (∃ limit, a.scheduler.walltime? a.cluster.requirements = .ok limit) ∧ (∃ shown, a.dryRun agents = .ok shown) ∧
        r.status = 0

theorem exists_dryRun_of_arguments {a : Actuator} {agents : List AgentId}
    (hargs : a.scheduler.arguments agents.length a.cluster.requirements = .ok args) :
    ∃ batch script, a.dryRun agents = .ok (batch, script) := by
  obtain ⟨xs, hxs, -⟩ := Scheduler.arguments_eq_ok.mp hargs
  obtain ⟨script, hscript⟩ := (a.exists_render_eq_ok (a.batch 0 agents)).mpr ⟨xs, hxs⟩
  refine ⟨a.batch 0 agents, script, ?_⟩
  unfold Actuator.dryRun
  exact bind_eq_ok.mpr ⟨script, hscript, rfl⟩

theorem printed_render {config : Config} {session resource : String} {a : Actuator}
    (ha : actuator config session resource = .ok a) (agents : List AgentId) :
    Printed config session resource agents (render a agents) := by
  cases hargs : a.scheduler.arguments agents.length a.cluster.requirements with
  | error e =>
    have hrender : render a agents = .failure e.message := by
      unfold render
      dsimp only
      rw [hargs]
      rfl
    rw [hrender]
    refine ⟨fun _ => ⟨_, rfl⟩, nofun, fun a' args ha' hargs' => ?_⟩
    obtain rfl := Except.ok.inj (ha.symm.trans ha')
    rw [hargs] at hargs'
    cases hargs'
  | ok args =>
    obtain ⟨limit, hlimit⟩ := exists_limited hargs
    have hfound : a.scheduler.walltime? a.cluster.requirements = .ok limit := hlimit.found
    obtain ⟨batch, script, hdry⟩ := exists_dryRun_of_arguments hargs
    have hrender : render a agents = { stdout := "Arguments: " ++ " ".intercalate args ++ "\n" ++ walltimeLine limit ++
        "Script path: " ++ batch.scriptPath ++ "\n\n" ++ script } := by
      unfold render
      dsimp only
      rw [hargs, hfound, hdry]
      simp only [Report.orElse, Report.after, String.append_assoc]
    rw [hrender]
    refine ⟨fun h => absurd rfl h, fun _ => ⟨a, args, limit, batch, script, ha, hargs, hfound, hdry, rfl⟩, ?_⟩
    intro a' args' ha' hargs'
    obtain rfl := Except.ok.inj (ha.symm.trans ha')
    exact ⟨⟨limit, hfound⟩, ⟨_, hdry⟩, rfl⟩

theorem printed_follow {σ : Type} (o : Outside (StateM σ)) (world : σ) (config : Config) (session resource : String)
    (n : Nat) :
    Printed config session resource (o.newAgents n world).1 (follow o session config (.render resource n) world).1 := by
  cases ha : actuator config session resource with
  | error e =>
    have hfollow : follow o session config (.render resource n) world = (.failure e.message, world) := by
      unfold follow
      dsimp only
      rw [ha]
      rfl
    rw [hfollow]
    refine ⟨fun _ => ⟨_, rfl⟩, nofun, fun a args ha' _ => ?_⟩
    rw [ha] at ha'
    cases ha'
  | ok a =>
    have hfollow : (follow o session config (.render resource n) world).1 = render a (o.newAgents n world).1 := by
      unfold follow
      dsimp only
      rw [ha]
      rfl
    rw [hfollow]
    exact printed_render ha _

/-- **The time limit that is shown is the one that is submitted**, and where the arguments can be shown, nothing that
is shown behind them can fail. -/
theorem shown_limit_is_found (kind : SchedulerKind) (b : Nat) (rs : List Requirement) {σ : Type}
    (o : Outside (StateM σ)) (world : σ) (config : Config) (session resource : String) (n : Nat) :
    (∀ args, kind.scheduler.arguments b rs = .ok args → ∃ limit, Limited kind rs args limit) ∧
      Printed config session resource (o.newAgents n world).1 (follow o session config (.render resource n) world).1 := by
  constructor
  · intro args hargs
    exact exists_limited hargs
  · exact printed_follow o world config session resource n

/-- The time limit of the second of three requirements, although another one follows. -/
theorem second_of_three_is_shown : ∃ limit, Limited .slurm
    [⟨"ntasks", true, .text "3"⟩, ⟨"time", true, .text " 5400"⟩, ⟨"time", false, .whole 60⟩]
    ["--ntasks", "6", "--time", "01:30:00", "--time", "00:01:00"] limit :=
  (shown_limit_is_found .slurm 2 _ (onHost 0) {} ⟨⟨"", "", "", false, false⟩, [], none⟩ "" "" 0).1 _ (by decide +kernel)

end ClusterAgents
