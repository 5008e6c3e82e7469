import ClusterAgents.Actuator.Basic
import ClusterAgents.Config
import ClusterAgents.Proofs.Batch.Header

/-!
# Accepted configurations

A configuration is checked when it is read; requirements are resolved when agents are submitted, with the size
of the batch at hand.  What passes the check is resolved later, unless it becomes too large in between.

* `Requirement.Overflows` — an amount that has 64 bits, but not so for that many agents;
* `Requirement.renderAll_of_checkAll`, `Requirement.overflows_of_renderAll` — checked requirements;
* `Cluster.check_eq_ok`, `Config.check_of_accept` — what an accepted configuration has;
* `Submittable` — what can be relied on when its agents are submitted.
-/

namespace ClusterAgents

open Text

/-! ### Checked requirements -/

namespace Requirement

/-- The amount has 64 bits, but it counts for each of `n` agents, and then it has more. -/
def Overflows (table : ResourceTable) (n : Nat) (r : Requirement) : Prop :=
  ∃ d v, table.get? r.name = some d ∧ r.scale = true ∧ d.scales = true ∧ d.parse r.value = .ok v ∧
    2 ^ 64 ≤ v * n

variable {table : ResourceTable} {n : Nat} {r : Requirement}

/-- Only an amount that counts for each agent becomes too large. -/
theorem overflows_iff {d : Resource} {v : Nat} (hd : table.get? r.name = some d)
    (hv : d.parse r.value = .ok v) : r.Overflows table n ↔ 2 ^ 64 ≤ d.total n r.scale v := by
  have hlt := Resource.parse_lt hv
  constructor
  · rintro ⟨d', v', hd', hr, hs, hv', hlarge⟩
    obtain rfl := Option.some.inj (hd.symm.trans hd')
    obtain rfl := Except.ok.inj (hv.symm.trans hv')
    rw [Resource.total_of_scales (by simp [hr, hs])]
    exact hlarge
  · intro hlarge
    cases hs : r.scale && d.scales with
    | false =>
      rw [Resource.total_of_not_scales hs] at hlarge
      omega
    | true =>
      rw [Resource.total_of_scales hs] at hlarge
      obtain ⟨hr, hs⟩ := Bool.and_eq_true_iff.mp hs
      exact ⟨d, v, hd, hr, hs, hv, hlarge⟩

theorem not_overflows_one : ¬ r.Overflows table 1 := by
  rintro ⟨d, v, -, -, -, hv, hlarge⟩
  have := Resource.parse_lt hv
  omega

theorem exists_render_of_check (h : check table r = .ok ()) :
    (∃ x, r.render table n = .ok x) ↔ ¬ r.Overflows table n := by
  rw [exists_render_eq_ok]
  constructor
  · rintro hrender hover
    obtain ⟨d, v, hd, -, -, hv, -⟩ := id hover
    obtain ⟨s, hs⟩ := hrender d hd
    obtain ⟨v', hv', hfits, -⟩ := Resource.render_eq_ok.mp hs
    have hlarge := (overflows_iff hd hv').mp hover
    omega
  · intro hover d hd
    obtain ⟨v, hv⟩ := check_eq_ok.mp h d hd
    have hfits := mt (overflows_iff hd hv).mpr hover
    exact ⟨_, Resource.render_eq_ok.mpr ⟨v, hv, by omega, rfl⟩⟩

theorem overflows_of_render (h : check table r = .ok ()) {e : Error} (he : r.render table n = .error e) :
    r.Overflows table n ∧ e = .format (.amountOverflow r.name n) := by
  obtain ⟨d, hd, he⟩ := render_eq_error.mp he
  obtain ⟨v, hv⟩ := check_eq_ok.mp h d hd
  rcases Resource.render_eq_error.mp he with hbad | ⟨v', hv', hlarge, rfl⟩
  · rw [hv] at hbad
    cases hbad
  · exact ⟨(overflows_iff hd hv').mpr hlarge, by rw [ResourceTable.name_of_get? hd]⟩

variable {rs : List Requirement}

theorem renderAll_of_checkAll (h : checkAll table rs = .ok ()) (hn : 1 ≤ n) :
    (∃ xs, renderAll table n rs = .ok xs) ↔ ∀ r ∈ rs, ¬ r.Overflows table n := by
  have hcheck := forM_eq_ok.mp h
  rw [renderAll_of_pos hn, exists_mapM_eq_ok]
  exact forall₂_congr fun r hr => exists_render_of_check (hcheck r hr)

theorem overflows_of_renderAll (h : checkAll table rs = .ok ()) (hn : 1 ≤ n) {e : Error}
    (he : renderAll table n rs = .error e) :
    ∃ r ∈ rs, r.Overflows table n ∧ e = .format (.amountOverflow r.name n) := by
  rw [renderAll_of_pos hn] at he
  obtain ⟨before, r, after, rfl, -, he⟩ := mapM_eq_error.mp he
  have hr : r ∈ before ++ r :: after := by simp
  exact ⟨r, hr, overflows_of_render (forM_eq_ok.mp h r hr) he⟩

end Requirement

/-! ### What was accepted -/

theorem Cluster.check_eq_ok {c : Cluster} :
    c.check = .ok () ↔ c.name ≠ "" ∧ 1 ≤ c.batchLimit ∧ c.agentCommand ≠ [] ∧
      c.scheduler.scheduler.check c.requirements = .ok () := by
  unfold check
  by_cases hname : c.name = ""
  · simp [hname]
  by_cases hlimit : c.batchLimit = 0
  · simp [hname, hlimit]
  by_cases hcommand : c.agentCommand = []
  · simp [hname, hlimit, hcommand]
  have hpos : 1 ≤ c.batchLimit := by omega
  simp [hname, hlimit, hcommand, hpos]

theorem Broker.Draft.fields_of_build {d : Broker.Draft} {b : Broker} (h : d.build.1 = .ok b) :
    d.uri = some b.uri ∧ d.routingKey = some b.routingKey := by
  unfold Broker.Draft.build at h
  split at h
  · cases h
  · cases h
  · next uri key huri hkey =>
    cases h
    exact ⟨huri, hkey⟩

namespace Config

theorem check_of_checkClusters {seen : List String} {cs : List Cluster}
    (h : checkClusters seen cs = .ok ()) : ∀ c ∈ cs, c.check = .ok () := by
  induction cs generalizing seen with
  | nil => exact nofun
  | cons c cs ih =>
    obtain ⟨_, hc, h⟩ := bind_eq_ok.mp h
    split at h
    · cases h
    · exact List.forall_mem_cons.mpr ⟨hc, ih h⟩

theorem parse_eq_ok {timeout : Option Time.Span} {content : String} {config : Config} :
    parse timeout content = .ok config ↔
      ∃ d w, Doc.ofToml? content = some d ∧ read .toml d = .ok w ∧ accept timeout w = .ok config := by
  unfold parse
  cases Doc.ofToml? content with
  | none => simp
  | some d =>
    cases hr : read .toml d with
    | error fault => simp [hr]
    | ok w => simp [hr]

/-- Every cluster that was accepted was written down and checked, whatever its time limit became. -/
theorem check_of_accept {timeout : Option Time.Span} {w : Written} {config : Config}
    (h : accept timeout w = .ok config) :
    w.broker.build.1 = .ok config.broker ∧ ∀ c ∈ config.clusters, ∃ written ∈ w.clusters,
      written.check = .ok () ∧ c = { written with timeout := c.timeout } := by
  obtain ⟨broker, hbroker, h⟩ := bind_eq_ok.mp h
  obtain ⟨_, hclusters, h⟩ := bind_eq_ok.mp h
  cases h
  refine ⟨hbroker, fun c hc => ?_⟩
  obtain ⟨written, hw, rfl⟩ := List.mem_map.mp hc
  exact ⟨written, hw, check_of_checkClusters hclusters written hw, rfl⟩

end Config

/-! ### Submitting -/

namespace Actuator

variable (a : Actuator) (b : Batch)

theorem exists_render_eq_ok :
    (∃ script, a.render b = .ok script) ↔
      ∃ xs, Requirement.renderAll a.scheduler.resources b.agents.length a.cluster.requirements = .ok xs :=
  Batch.exists_script_eq_ok

theorem render_eq_error {e : Error} :
    a.render b = .error e ↔
      Requirement.renderAll a.scheduler.resources b.agents.length a.cluster.requirements = .error e :=
  Batch.script_eq_error

end Actuator

/-- What can be relied on when `n` agents of an accepted cluster are submitted. -/
structure Submittable (content : String) (broker : Broker) (c : Cluster) (n : Nat)
    (outcome : Outcome String) : Prop where
  /-- There is a script, unless an amount is too large for that many agents. -/
  succeeds : (∃ script, outcome = .ok script) ↔
    ∀ r ∈ c.requirements, ¬ r.Overflows c.scheduler.scheduler.resources n
  /-- Nothing else can be wrong. -/
  fails : ∀ e, outcome = .error e → ∃ r ∈ c.requirements,
    r.Overflows c.scheduler.scheduler.resources n ∧ e = .format (.amountOverflow r.name n) ∧
      e.message = "Format error: Resource `" ++ r.name ++ "` overflows for a batch of " ++ decimal n ++ " agents"
  /-- A single agent has a script. -/
  alone : n = 1 → ∃ script, outcome = .ok script
  /-- The amounts of known resources can be read. -/
  amounts : ∀ r ∈ c.requirements, ∀ d, c.scheduler.scheduler.resources.get? r.name = some d →
    ∃ v, d.parse r.value = .ok v
  /-- There is a command to start an agent with. -/
  command : c.agentCommand ≠ []
  /-- The connection to the broker was written down. -/
  connection : ∃ d w, Doc.ofToml? content = some d ∧ Config.read .toml d = .ok w ∧
    w.broker.uri = some broker.uri ∧ w.broker.routingKey = some broker.routingKey

/-- **What an accepted configuration gets wrong is known when it is read**, amounts apart that only become too
large for several agents. -/
theorem submittable_of_parse {timeout : Option Time.Span} {content : String} {config : Config}
    (h : Config.parse timeout content = .ok config) {c : Cluster} (hc : c ∈ config.clusters)
    (session : String) (id : BatchId) {agents : List AgentId} (ha : agents ≠ []) :
    Submittable content config.broker c agents.length
      (Actuator.render ⟨c, config.broker, session⟩
        (Actuator.batch ⟨c, config.broker, session⟩ id agents)) := by
  obtain ⟨d, w, hd, hw, haccept⟩ := Config.parse_eq_ok.mp h
  obtain ⟨hbroker, hclusters⟩ := Config.check_of_accept haccept
  obtain ⟨written, -, hcheck, hcw⟩ := hclusters c hc
  obtain ⟨-, -, hcommand, hvalues⟩ := Cluster.check_eq_ok.mp hcheck
  have hscheduler : written.scheduler = c.scheduler := by rw [hcw]
  have hrequirements : written.requirements = c.requirements := by rw [hcw]
  rw [hscheduler, hrequirements] at hvalues
  have hpos : 1 ≤ agents.length := List.length_pos_iff.mpr ha
  have hsucceeds : (∃ script, Actuator.render ⟨c, config.broker, session⟩
      (Actuator.batch ⟨c, config.broker, session⟩ id agents) = .ok script) ↔
      ∀ r ∈ c.requirements, ¬ r.Overflows c.scheduler.scheduler.resources agents.length :=
    (Actuator.exists_render_eq_ok _ _).trans (Requirement.renderAll_of_checkAll hvalues hpos)
  refine ⟨hsucceeds, fun e he => ?_, fun hone => ?_, Requirement.checkAll_eq_ok.mp hvalues, ?_, ?_⟩
  · obtain ⟨r, hr, hover, rfl⟩ :=
      Requirement.overflows_of_renderAll hvalues hpos ((Actuator.render_eq_error _ _).mp he)
    exact ⟨r, hr, hover, rfl, rfl⟩
  · refine hsucceeds.mpr fun r _ => ?_
    rw [hone]
    exact Requirement.not_overflows_one
  · rw [hcw]
    exact hcommand
  · obtain ⟨huri, hkey⟩ := Broker.Draft.fields_of_build hbroker
    exact ⟨d, w, hd, hw, huri, hkey⟩

/-- A cluster that asks for as many bytes as 64 bits can hold, and for a time limit. -/
def largeContent : String :=
  "[broker]\nuri = \"amqp://b\"\nrouting_key = \"k\"\n\n[[resource]]\nname = \"c\"\ndialect = \"slurm\"\n" ++
    "work_dir = \"/w\"\nagent_command = [\"agent\"]\nrequirements = [" ++
    "\x7b name = \"time\", scale = true, value = \"60\" \x7d, " ++
    "\x7b name = \"mem\", scale = true, value = \"18446744073709551615\" \x7d]\n"

/-- Two agents of it are refused, as they would be told. -/
theorem submittable_of_largeContent :
    ∃ config c, Config.parse none largeContent = .ok config ∧ c ∈ config.clusters ∧
      [(⟨1⟩ : AgentId), ⟨2⟩] ≠ [] ∧
      Submittable largeContent config.broker c 2 (Actuator.render ⟨c, config.broker, "s"⟩
        (Actuator.batch ⟨c, config.broker, "s"⟩ 1 [⟨1⟩, ⟨2⟩])) ∧
      Actuator.render ⟨c, config.broker, "s"⟩ (Actuator.batch ⟨c, config.broker, "s"⟩ 1 [⟨1⟩, ⟨2⟩]) =
        .error (.format (.amountOverflow "mem" 2)) := by
  have hagents : [(⟨1⟩ : AgentId), ⟨2⟩] ≠ [] := List.cons_ne_nil _ _
  have hrun : ((Config.parse none largeContent).toOption.bind fun config =>
      config.clusters.head?.map fun c => Actuator.render ⟨c, config.broker, "s"⟩
        (Actuator.batch ⟨c, config.broker, "s"⟩ 1 [⟨1⟩, ⟨2⟩])) =
      some (.error (.format (.amountOverflow "mem" 2))) := by
    decide +kernel
  obtain ⟨config, hconfig, hrun⟩ := Option.bind_eq_some_iff.mp hrun
  obtain ⟨c, hc, hrender⟩ := Option.map_eq_some_iff.mp hrun
  have hparse := toOption_eq_some.mp hconfig
  have hmem := List.mem_of_head? hc
  exact ⟨config, c, hparse, hmem, hagents, submittable_of_parse hparse hmem "s" 1 hagents, hrender⟩

end ClusterAgents
