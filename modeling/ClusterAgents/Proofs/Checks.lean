import ClusterAgents.Proofs.Accepted
import ClusterAgents.Proofs.Drafts
import ClusterAgents.Proofs.Numerals

/-!
# What is checked of a configuration

A configuration passes a number of checks, one behind another, and the first of them that it violates says why it is
refused.

* `Config.Check`, `Check.Violated` — the checks, and what each of them complains about;
* `Written.checks` — their order;
* `accept_eq_error` — a configuration is refused as if one check were run behind another;
* `Written.Acceptable` — what passes them, said without any order;
* `cluster_eq_ok`, `cluster_eq_error` — clusters that are told apart are found by their names.
-/

namespace ClusterAgents.Config

/-! ### The checks and their order -/

inductive Check
  | uri
  | routingKey
  | name (c : Cluster)
  | batchLimit (c : Cluster)
  | agentCommand (c : Cluster)
  | requirement (c : Cluster) (r : Requirement)
  /-- That no cluster before has the name. -/
  | fresh (before : List Cluster) (c : Cluster)

/-- A check complains, and how.  Requirements are read as far as the scheduler knows them. -/
def Check.Violated (w : Written) (e : Error) : Check → Prop
  | .uri => w.broker.uri = none ∧ e = .configuration .brokerUri
  | .routingKey => w.broker.routingKey = none ∧ e = .configuration .brokerRoutingKey
  | .name c => c.name = "" ∧ e = .configuration .resourceName
  | .batchLimit c => c.batchLimit = 0 ∧ e = .configuration (.batchLimit c.name)
  | .agentCommand c => c.agentCommand = [] ∧ e = .configuration (.agentCommand c.name)
  | .requirement c r => ∃ d, c.scheduler.scheduler.resources.get? r.name = some d ∧ d.parse r.value = .error e
  | .fresh before c => (∃ b ∈ before, b.name = c.name) ∧ e = .configuration (.duplicateResource c.name)

/-- The checks of a cluster that stands alone. -/
def ownChecks (c : Cluster) : List Check :=
  [.name c, .batchLimit c, .agentCommand c] ++ c.requirements.map (.requirement c)

/-- The checks of clusters behind others. -/
def checksBehind : List Cluster → List Cluster → List Check
  | _, [] => []
  | before, c :: cs => ownChecks c ++ .fresh before c :: checksBehind (before ++ [c]) cs

/-- All checks, in their order. -/
def Written.checks (w : Written) : List Check := [.uri, .routingKey] ++ checksBehind [] w.clusters

/-! ### Running them -/

/-- Fails if something is so. -/
def failIf (p : Prop) [Decidable p] (cause : SettingFault) : Outcome Unit :=
  if p then .error (.configuration cause) else .ok ()

theorem ite_eq_failIf (p : Prop) [Decidable p] (cause : SettingFault) (next : Outcome Unit) :
    (if p then .error (.configuration cause) else next) = (do failIf p cause; next) := by
  unfold failIf
  split <;> rfl

theorem failIf_eq_error {p : Prop} [Decidable p] {cause : SettingFault} {e : Error} :
    failIf p cause = .error e ↔ p ∧ e = .configuration cause := by
  unfold failIf
  split <;> simp [*, eq_comm]

def Check.run (w : Written) : Check → Outcome Unit
  | .uri => failIf (w.broker.uri = none) .brokerUri
  | .routingKey => failIf (w.broker.routingKey = none) .brokerRoutingKey
  | .name c => failIf (c.name = "") .resourceName
  | .batchLimit c => failIf (c.batchLimit = 0) (.batchLimit c.name)
  | .agentCommand c => failIf (c.agentCommand = []) (.agentCommand c.name)
  | .requirement c r => r.check c.scheduler.scheduler.resources
  | .fresh before c => failIf (∃ b ∈ before, b.name = c.name) (.duplicateResource c.name)

section

variable {w : Written} {e : Error}

theorem run_eq_error {k : Check} : k.run w = .error e ↔ k.Violated w e := by
  cases k with
  | requirement c r => exact Requirement.check_eq_error
  | _ => exact failIf_eq_error

theorem run_eq_ok {k : Check} : k.run w = .ok () ↔ ∀ e, ¬ k.Violated w e := by
  simp only [← run_eq_error]
  cases k.run w <;> simp

theorem forM_behind (ks ls : List Check) :
    (ks ++ ls).forM (Check.run w) = (do ks.forM (Check.run w); ls.forM (Check.run w)) :=
  List.forM_append

theorem check_eq (w : Written) (c : Cluster) : c.check = (ownChecks c).forM (Check.run w) := by
  have hvalues : (c.requirements.map (Check.requirement c)).forM (Check.run w) =
      c.scheduler.scheduler.check c.requirements := List.forM_map
  rw [ownChecks, forM_behind, hvalues]
  unfold Cluster.check
  simp only [String.isEmpty_iff, List.isEmpty_iff, ite_eq_failIf]
  simp only [List.forM, Check.run, bind_assoc, pure_bind]

/-- **Clusters are checked one behind another**; the names that were seen are those of the clusters before. -/
theorem checkClusters_eq {seen : List String} {before : List Cluster} (cs : List Cluster)
    (h : ∀ name, name ∈ seen ↔ ∃ b ∈ before, b.name = name) :
    checkClusters seen cs = (checksBehind before cs).forM (Check.run w) := by
  induction cs generalizing seen before with
  | nil => rfl
  | cons c cs ih =>
    have hseen : ∀ name, name ∈ c.name :: seen ↔ ∃ b ∈ before ++ [c], b.name = name := by
      intro name
      simp [h, or_and_right, exists_or, or_comm, eq_comm]
    rw [checksBehind, forM_behind, ← check_eq]
    unfold checkClusters
    rw [ih hseen]
    simp only [List.contains_iff_mem, h, ite_eq_failIf]
    rfl

theorem build_checks : w.broker.build.1 = .error e ↔ [Check.uri, .routingKey].forM (Check.run w) = .error e := by
  rw [Broker.Draft.build_eq_error]
  simp only [List.forM, Check.run]
  cases huri : w.broker.uri with
  | none => simp [failIf, bind, Except.bind, eq_comm]
  | some uri =>
    cases hkey : w.broker.routingKey with
    | none => simp [failIf, bind, Except.bind, eq_comm]
    | some key => simp [failIf, bind, Except.bind, pure, Except.pure]

/-- **A configuration is refused as by its checks**, run one behind another. -/
theorem accept_eq_error {timeout : Option Time.Span} :
    accept timeout w = .error e ↔ w.checks.forM (Check.run w) = .error e := by
  have hclusters : checkClusters [] w.clusters = (checksBehind [] w.clusters).forM (Check.run w) :=
    checkClusters_eq w.clusters fun _ => by simp
  have hbuild := exists_eq_ok_congr fun e => build_checks (w := w) (e := e)
  rw [Written.checks, forM_behind, accept, bind_eq_error, bind_eq_error, build_checks, hclusters]
  refine or_congr_right ?_
  simp only [bind_eq_error, reduceCtorEq, and_false, exists_false, or_false, exists_and_right]
  rw [hbuild]

theorem exists_accept {timeout : Option Time.Span} :
    (∃ config, accept timeout w = .ok config) ↔ ∀ k ∈ w.checks, ∀ e, ¬ k.Violated w e := by
  rw [exists_eq_ok_congr fun e => accept_eq_error]
  simp only [← run_eq_ok, ← forM_eq_ok]
  exact ⟨fun ⟨_, h⟩ => h, fun h => ⟨(), h⟩⟩

end

/-! ### What is accepted -/

/-- Agents can be started on a cluster. -/
structure Startable (c : Cluster) : Prop where
  named : c.name ≠ ""
  room : 1 ≤ c.batchLimit
  command : c.agentCommand ≠ []
  /-- The values of what the scheduler knows can be read. -/
  values : ∀ r ∈ c.requirements, ∀ d, c.scheduler.scheduler.resources.get? r.name = some d →
    ∃ n, d.parse r.value = .ok n

/-- What is written down can be worked with. -/
structure Written.Acceptable (w : Written) : Prop where
  uri : ∃ uri, w.broker.uri = some uri
  routingKey : ∃ key, w.broker.routingKey = some key
  startable : ∀ c ∈ w.clusters, Startable c
  /-- No two clusters have the same name. -/
  distinct : w.clusters.Pairwise fun c c' => c.name ≠ c'.name

section

variable {w : Written}

theorem startable_iff_check {c : Cluster} : Startable c ↔ c.check = .ok () := by
  rw [Cluster.check_eq_ok]
  exact ⟨fun ⟨hname, hroom, hcommand, hvalues⟩ => ⟨hname, hroom, hcommand, Requirement.checkAll_eq_ok.mpr hvalues⟩,
    fun ⟨hname, hroom, hcommand, hvalues⟩ => ⟨hname, hroom, hcommand, Requirement.checkAll_eq_ok.mp hvalues⟩⟩

theorem startable_iff {c : Cluster} : Startable c ↔ ∀ k ∈ ownChecks c, ∀ e, ¬ k.Violated w e := by
  simp only [← run_eq_ok]
  rw [← forM_eq_ok, ← check_eq, startable_iff_check]

theorem forall_not_and_eq {p : Prop} {e₀ : Error} : (∀ e, ¬ (p ∧ e = e₀)) ↔ ¬ p :=
  ⟨fun h hp => h e₀ ⟨hp, rfl⟩, fun h _ he => h he.1⟩

/-- What the checks of clusters behind others ask for. -/
theorem forall_checksBehind {before : List Cluster} (cs : List Cluster) :
    (∀ k ∈ checksBehind before cs, ∀ e, ¬ k.Violated w e) ↔
      (∀ c ∈ cs, Startable c) ∧ (∀ b ∈ before, ∀ c ∈ cs, b.name ≠ c.name) ∧
        cs.Pairwise fun c c' => c.name ≠ c'.name := by
  induction cs generalizing before with
  | nil => simp [checksBehind]
  | cons c cs ih =>
    have hfresh : (∀ e, ¬ (Check.fresh before c).Violated w e) ↔ ∀ b ∈ before, b.name ≠ c.name :=
      forall_not_and_eq.trans (by simp)
    rw [checksBehind, List.forall_mem_append, List.forall_mem_cons, ← startable_iff, hfresh, ih]
    simp only [List.forall_mem_cons, List.forall_mem_append, List.pairwise_cons, forall_and]
    tauto

theorem acceptable_iff : w.Acceptable ↔ ∀ k ∈ w.checks, ∀ e, ¬ k.Violated w e := by
  have huri : (∀ e, ¬ Check.uri.Violated w e) ↔ ∃ uri, w.broker.uri = some uri :=
    forall_not_and_eq.trans Option.ne_none_iff_exists'
  have hkey : (∀ e, ¬ Check.routingKey.Violated w e) ↔ ∃ key, w.broker.routingKey = some key :=
    forall_not_and_eq.trans Option.ne_none_iff_exists'
  rw [Written.checks, List.forall_mem_append, forall_checksBehind, List.forall_mem_cons, List.forall_mem_singleton,
    huri, hkey]
  exact ⟨fun ⟨huri, hkey, hstartable, hdistinct⟩ => ⟨⟨huri, hkey⟩, hstartable, nofun, hdistinct⟩,
    fun ⟨⟨huri, hkey⟩, hstartable, _, hdistinct⟩ => ⟨huri, hkey, hstartable, hdistinct⟩⟩

end

/-! ### Names -/

section

variable {config : Config} {name : String}

/-- **Clusters that are told apart are found by their names.** -/
theorem cluster_eq_ok (h : config.clusters.Pairwise fun c c' => c.name ≠ c'.name) {c : Cluster} :
    config.cluster name = .ok c ↔ config.clusters.filter (·.name == name) = [c] := by
  have hfind : config.cluster name = .ok c ↔ (config.clusters.filter (·.name == name)).head? = some c := by
    rw [List.head?_filter, cluster]
    cases config.clusters.find? (·.name == name) <;> simp
  rw [hfind]
  have hnamed : ∀ x ∈ config.clusters.filter (·.name == name), x.name = name :=
    fun x hx => beq_iff_eq.mp (List.mem_filter.mp hx).2
  have hpair := List.Pairwise.filter (·.name == name) h
  generalize config.clusters.filter (·.name == name) = found at hnamed hpair ⊢
  match found with
  | [] => simp
  | [x] => simp
  | x :: y :: rest =>
    -- two clusters of the name are not told apart
    have hne := (List.pairwise_cons.mp hpair).1 y List.mem_cons_self
    exact absurd ((hnamed x List.mem_cons_self).trans (hnamed y (by simp)).symm) hne

theorem cluster_eq_error {e : Error} : config.cluster name = .error e ↔
    (∀ c ∈ config.clusters, c.name ≠ name) ∧ e = .configuration (.unknownResource name) := by
  unfold cluster
  cases hfind : config.clusters.find? (·.name == name) with
  | none =>
    have hnone : ∀ c ∈ config.clusters, c.name ≠ name := by simpa using List.find?_eq_none.mp hfind
    exact ⟨fun h => ⟨hnone, (Except.error.inj h).symm⟩, fun h => by rw [h.2]⟩
  | some c =>
    have hc := List.find?_some hfind
    have hmem := List.mem_of_find?_eq_some hfind
    simp only [reduceCtorEq, false_iff, not_and]
    intro h
    exact absurd (beq_iff_eq.mp hc) (h c hmem)

end

/-! ### What becomes of it -/

/-- The number of milliseconds that the variable says, if it does. -/
def Overridden (value : Option String) (n : Nat) : Prop :=
  ∃ text, value = some text ∧ Text.Numeric text.toList n ∧ n < 2 ^ 64

/-- What an accepted configuration is made of. -/
structure Kept (value : Option String) (w : Written) (config : Config) : Prop where
  /-- The clusters are those that were written down, in their order, but with the time limit of the variable. -/
  overridden : ∀ n, Overridden value n → ∃ limit, limit.totalNanos = n * 1000000 ∧ limit.nanos < 1000000000 ∧
    config.clusters = w.clusters.map fun c => { c with timeout := limit }
  /-- A variable that is not there or says no number changes nothing. -/
  unchanged : (∀ n, ¬ Overridden value n) → config.clusters = w.clusters
  found : ∀ name c, config.cluster name = .ok c ↔ config.clusters.filter (·.name == name) = [c]
  missing : ∀ name e, config.cluster name = .error e ↔
    (∀ c ∈ config.clusters, c.name ≠ name) ∧ e = .configuration (.unknownResource name)
  broker : w.broker.build.1 = .ok config.broker
  schema : config.schema = w.schema

/-- How a configuration that is written down is judged. -/
structure Judged (value : Option String) (w : Written) (outcome : Outcome Config) : Prop where
  accepted : (∃ config, outcome = .ok config) ↔ w.Acceptable
  /-- The first check that is violated says why it is refused. -/
  refused : ∀ e, outcome = .error e ↔ ∃ before k after, w.checks = before ++ k :: after ∧
    (∀ k' ∈ before, ∀ e', ¬ k'.Violated w e') ∧ k.Violated w e
  kept : ∀ config, outcome = .ok config → Kept value w config

theorem millisOfVariable?_eq_some {value : Option String} {limit : Time.Span} :
    value.bind Time.millisOfVariable? = some limit ↔ ∃ n, Overridden value n ∧ limit = .ofMillis n := by
  unfold Overridden Time.millisOfVariable? Text.wholeOfText?
  simp only [Option.bind_eq_some_iff, Option.map_eq_some_iff, Text.wholeOfChars?_eq_some]
  constructor
  · rintro ⟨text, htext, n, hn, rfl⟩
    exact ⟨n, ⟨text, htext, hn⟩, rfl⟩
  · rintro ⟨n, ⟨text, htext, hn⟩, rfl⟩
    exact ⟨text, htext, n, hn, rfl⟩

theorem totalNanos_ofMillis (n : Nat) :
    (Time.Span.ofMillis n).totalNanos = n * 1000000 ∧ (Time.Span.ofMillis n).nanos < 1000000000 := by
  unfold Time.Span.ofMillis Time.Span.totalNanos
  dsimp only
  omega

/-- The names of the clusters that were accepted tell them apart. -/
theorem distinct_of_accept {timeout : Option Time.Span} {w : Written} {config : Config}
    (h : accept timeout w = .ok config) : config.clusters.Pairwise fun c c' => c.name ≠ c'.name := by
  have hw := (acceptable_iff.mpr (exists_accept.mp ⟨config, h⟩)).distinct
  obtain ⟨broker, -, h⟩ := bind_eq_ok.mp h
  obtain ⟨_, -, h⟩ := bind_eq_ok.mp h
  cases h
  exact List.pairwise_map.mpr hw

theorem startable_of_mem {timeout : Option Time.Span} {content : String} {config : Config}
    (h : parse timeout content = .ok config) {c : Cluster} (hc : c ∈ config.clusters) : Startable c := by
  obtain ⟨d, w, -, -, haccept⟩ := parse_eq_ok.mp h
  obtain ⟨-, hclusters⟩ := check_of_accept haccept
  obtain ⟨written, -, hcheck, hcw⟩ := hclusters c hc
  have hwritten := startable_iff_check.mpr hcheck
  rw [hcw]
  exact ⟨hwritten.named, hwritten.room, hwritten.command, hwritten.values⟩

/-- **A cluster of a configuration that was accepted is found by its name.** -/
theorem cluster_of_mem {timeout : Option Time.Span} {content : String} {config : Config}
    (h : parse timeout content = .ok config) {c : Cluster} (hc : c ∈ config.clusters) :
    config.cluster c.name = .ok c := by
  obtain ⟨d, w, -, -, haccept⟩ := parse_eq_ok.mp h
  cases hfound : config.cluster c.name with
  | error e => exact absurd rfl ((cluster_eq_error.mp hfound).1 c hc)
  | ok c' =>
    have hfilter := (cluster_eq_ok (distinct_of_accept haccept)).mp hfound
    have hmem : c ∈ config.clusters.filter (·.name == c.name) := List.mem_filter.mpr ⟨hc, beq_self_eq_true _⟩
    rw [hfilter, List.mem_singleton] at hmem
    rw [hmem]

theorem kept_of_accept {value : Option String} {w : Written} {config : Config}
    (h : accept (value.bind Time.millisOfVariable?) w = .ok config) : Kept value w config := by
  have hdistinct := distinct_of_accept h
  obtain ⟨broker, hbroker, h⟩ := bind_eq_ok.mp h
  obtain ⟨_, -, h⟩ := bind_eq_ok.mp h
  obtain rfl := Except.ok.inj h
  refine ⟨fun n hn => ?_, fun hnone => ?_, fun name c => cluster_eq_ok hdistinct, fun name e => cluster_eq_error,
    hbroker, rfl⟩
  · obtain ⟨htotal, hnanos⟩ := totalNanos_ofMillis n
    refine ⟨.ofMillis n, htotal, hnanos, ?_⟩
    rw [millisOfVariable?_eq_some.mpr ⟨n, hn, rfl⟩]
    rfl
  · have hvalue : value.bind Time.millisOfVariable? = none := by
      rw [Option.eq_none_iff_forall_ne_some]
      intro limit hlimit
      obtain ⟨n, hn, -⟩ := millisOfVariable?_eq_some.mp hlimit
      exact hnone n hn
    rw [hvalue]
    exact List.map_id _

theorem parse_of_read {content : String} {d : Doc} {w : Written} (timeout : Option Time.Span)
    (hd : Doc.ofToml? content = some d) (hw : read .toml d = .ok w) : parse timeout content = accept timeout w := by
  unfold parse
  rw [hd]
  dsimp only
  rw [hw]

/-- **A configuration is accepted exactly if nothing is wrong with it**, and refused for the first thing that is
wrong. -/
theorem judged_of_read {content : String} {d : Doc} {w : Written} (value : Option String)
    (hd : Doc.ofToml? content = some d) (hw : read .toml d = .ok w) :
    Judged value w (parse (value.bind Time.millisOfVariable?) content) := by
  rw [parse_of_read _ hd hw]
  refine ⟨exists_accept.trans acceptable_iff.symm, fun e => ?_, fun config => kept_of_accept⟩
  rw [accept_eq_error, forM_eq_error]
  simp only [run_eq_ok, run_eq_error]

/-- A cluster without a command, and before it one of the same name with a value that is too small. -/
def faultyContent : String :=
  "[broker]\nuri=\"u\"\nrouting_key=\"k\"\n[[resource]]\nname=\"c\"\ndialect=\"pbs\"\nwork_dir=\"w\"\n" ++
    "agent_command=[\"a\"]\nrequirements=[\x7bname=\"mem\",value=999\x7d]\n[[resource]]\nname=\"c\"\n" ++
    "dialect=\"slurm\"\nwork_dir=\"w\"\nagent_command=[]\n"

/-- It is refused for the value. -/
theorem judged_of_faultyContent :
    ∃ d w, Doc.ofToml? faultyContent = some d ∧ read .toml d = .ok w ∧
      Judged (some "1500") w (parse ((some "1500").bind Time.millisOfVariable?) faultyContent) ∧
      parse ((some "1500").bind Time.millisOfVariable?) faultyContent =
        .error (.format (.amountRefused 999 "mem")) := by
  have hrun : ((Doc.ofToml? faultyContent).bind fun d => (read .toml d).toOption.map fun w =>
      match accept ((some "1500").bind Time.millisOfVariable?) w with
      | .ok _ => none
      | .error e => some e) = some (some (.format (.amountRefused 999 "mem"))) := by
    decide +kernel
  obtain ⟨d, hd, hrun⟩ := Option.bind_eq_some_iff.mp hrun
  obtain ⟨w, hw, hrun⟩ := Option.map_eq_some_iff.mp hrun
  have hw := toOption_eq_some.mp hw
  refine ⟨d, w, hd, hw, judged_of_read (some "1500") hd hw, ?_⟩
  rw [parse_of_read _ hd hw]
  split at hrun
  · cases hrun
  · next he => rw [he, Option.some.inj hrun]

end ClusterAgents.Config
