import ClusterAgents.CommandLine.Program
import ClusterAgents.Proofs.Checks
import ClusterAgents.Proofs.Course.Flush
import ClusterAgents.Proofs.Course.Notices
import ClusterAgents.Proofs.Lines
import ClusterAgents.Proofs.Overlap.Recovered

/-!
# What is reported of a launch

A launch ends with a report: lines for the agents that have a job, notices for the batches that have none, and a status.

* `Submission.hosted`, `Submission.failure?` — what a batch adds to it;
* `stdout_launched`, `logged_launched`, `status_launched`, `failed_launched` — the parts of a report, for any batches;
* `Concluded.isJobId` — the id of a job was found in what the scheduler printed, so that it is one word of a line;
* `run_launch`, `launch_eq` — from a command line to the batches that were submitted;
* `Accounted`, `launch_accounts` — each agent has its line, or its batch has its notice.
-/

namespace ClusterAgents

open Notice Text

/-! ### What a batch adds to a report -/

namespace Submission

/-- The agents of a batch with their job, if there is one. -/
def hosted (sub : Submission) : List (JobId × AgentId) :=
  match sub.result with
  | .ok job => sub.agents.map (job, ·)
  | .error _ => []

/-- The number and the size of a batch that has no job, and why. -/
def failure? (sub : Submission) : Option (BatchId × Nat × Error) :=
  match sub.result with
  | .ok _ => none
  | .error e => some (sub.batch, sub.agents.length, e)

theorem mem_hosted {sub : Submission} {job : JobId} {x : AgentId} :
    (job, x) ∈ sub.hosted ↔ sub.result = .ok job ∧ x ∈ sub.agents := by
  unfold hosted
  cases sub.result with
  | ok id => simp [and_comm]
  | error e => simp

theorem hosted_sublist (sub : Submission) : (sub.hosted.map (·.2)).Sublist sub.agents := by
  unfold hosted
  cases sub.result with
  | ok job => simp
  | error e => exact List.nil_sublist _

theorem failure?_eq_none {sub : Submission} : sub.failure? = none ↔ ∃ job, sub.result = .ok job := by
  unfold failure?
  cases sub.result <;> simp

/-- The agents of several batches that have a job are some of all their agents. -/
theorem flatMap_hosted_sublist (subs : List Submission) :
    ((subs.flatMap hosted).map (·.2)).Sublist (subs.map (·.agents)).flatten := by
  induction subs with
  | nil => exact .slnil
  | cons sub subs ih =>
    rw [List.flatMap_cons, List.map_append, List.map_cons, List.flatten_cons]
    exact sub.hosted_sublist.append ih

/-- An agent has no job exactly if its batch failed. -/
theorem missing_iff {subs : List Submission} (honce : (subs.map (·.agents)).flatten.Nodup) {x : AgentId}
    (hx : x ∈ (subs.map (·.agents)).flatten) :
    (∀ job, (job, x) ∉ subs.flatMap hosted) ↔ ∃ sub ∈ subs, x ∈ sub.agents ∧ ∃ e, sub.result = .error e := by
  constructor
  · intro hnone
    obtain ⟨as, has, hx⟩ := List.mem_flatten.mp hx
    obtain ⟨sub, hsub, rfl⟩ := List.mem_map.mp has
    refine ⟨sub, hsub, hx, exists_eq_error fun job hjob => ?_⟩
    exact hnone job (List.mem_flatMap.mpr ⟨sub, hsub, mem_hosted.mpr ⟨hjob, hx⟩⟩)
  · rintro ⟨sub, hsub, hx, e, he⟩ job hp
    obtain ⟨sub', hsub', hp⟩ := List.mem_flatMap.mp hp
    obtain ⟨hjob, hx'⟩ := mem_hosted.mp hp
    obtain rfl := Overlap.eq_of_mem_agents honce hsub hsub' hx hx'
    rw [he] at hjob
    cases hjob

end Submission

namespace CommandLine

def agentLine (p : JobId × AgentId) : String := p.1 ++ "\t" ++ p.2.text

/-- The notice of a batch that was not submitted. -/
def failureNotice (f : BatchId × Nat × Error) : Notice := .batchNotSubmitted f.1 f.2.1 f.2.2

variable (notices : List Notice) (subs : List Submission)

theorem join_jobLines : String.join (subs.map jobLines) =
    String.join ((subs.flatMap Submission.hosted).map fun p => agentLine p ++ "\n") := by
  have hbatch (sub : Submission) : jobLines sub = String.join (sub.hosted.map fun p => agentLine p ++ "\n") := by
    unfold jobLines Submission.hosted
    cases sub.result with
    | ok job => rw [List.map_map]; rfl
    | error e => rfl
  induction subs with
  | nil => rfl
  | cons sub subs ih => rw [List.map_cons, String.join_cons, ih, List.flatMap_cons, List.map_append, String.join_append, hbatch]

theorem filterMap_failureNotice? : subs.filterMap failureNotice? = (subs.filterMap Submission.failure?).map failureNotice := by
  rw [List.map_filterMap]
  refine List.filterMap_congr fun sub _ => ?_
  unfold failureNotice? Submission.failure?
  cases sub.result <;> rfl

theorem launched_of_success (h : subs.filterMap Submission.failure? = []) :
    launched notices subs =
      { stdout := String.join ((subs.flatMap Submission.hosted).map fun p => agentLine p ++ "\n"), notices } := by
  unfold launched
  rw [filterMap_failureNotice?, h, join_jobLines]
  rfl

theorem launched_of_failures (h : subs.filterMap Submission.failure? ≠ []) :
    launched notices subs =
      { status := 1
        stdout := String.join ((subs.flatMap Submission.hosted).map fun p => agentLine p ++ "\n")
        notices := notices ++ (subs.filterMap Submission.failure?).map failureNotice ++
          [.failed (decimal (subs.filterMap Submission.failure?).length ++ " batch(es) could not be submitted")] } := by
  have hsome : ((subs.filterMap Submission.failure?).map failureNotice).isEmpty = false := by simpa using h
  unfold launched
  rw [filterMap_failureNotice?, join_jobLines]
  dsimp only
  rw [hsome, List.length_map]
  rfl

theorem stdout_launched : (launched notices subs).stdout =
    String.join (((subs.flatMap Submission.hosted).map agentLine).map (· ++ "\n")) := by
  rw [List.map_map]
  by_cases h : subs.filterMap Submission.failure? = []
  · rw [launched_of_success notices subs h]
    rfl
  · rw [launched_of_failures notices subs h]
    rfl

theorem status_launched : (launched notices subs).status = 0 ↔ ∀ sub ∈ subs, ∃ job, sub.result = .ok job := by
  simp only [← Submission.failure?_eq_none]
  rw [← List.filterMap_eq_nil_iff]
  by_cases h : subs.filterMap Submission.failure? = []
  · rw [launched_of_success notices subs h]
    simp [h]
  · rw [launched_of_failures notices subs h]
    simp [h]

theorem complaint_launched : (launched notices subs).complaint = "" := by
  by_cases h : subs.filterMap Submission.failure? = []
  · rw [launched_of_success notices subs h]
  · rw [launched_of_failures notices subs h]

theorem failed_launched (h : ∃ sub ∈ subs, ∃ e, sub.result = .error e) :
    (launched notices subs).status = 1 ∧ (launched notices subs).notices.getLast? =
      some (.failed (decimal (subs.filterMap Submission.failure?).length ++ " batch(es) could not be submitted")) := by
  have hne : subs.filterMap Submission.failure? ≠ [] := by
    obtain ⟨sub, hsub, e, he⟩ := h
    intro hnone
    obtain ⟨job, hjob⟩ := Submission.failure?_eq_none.mp (List.filterMap_eq_nil_iff.mp hnone sub hsub)
    rw [he] at hjob
    cases hjob
  rw [launched_of_failures notices subs hne]
  exact ⟨rfl, List.getLast?_concat⟩

/-- A batch that failed has its notice, if there was none before. -/
theorem logged_launched (hquiet : Quiet notices) :
    (launched notices subs).notices.filterMap unsubmitted? = subs.filterMap Submission.failure? := by
  have hbefore : notices.filterMap unsubmitted? = [] := List.filterMap_eq_nil_iff.mpr hquiet
  have hnotice : unsubmitted? ∘ failureNotice = some := rfl
  by_cases h : subs.filterMap Submission.failure? = []
  · rw [launched_of_success notices subs h, h]
    exact hbefore
  · rw [launched_of_failures notices subs h]
    dsimp only
    rw [List.filterMap_append, List.filterMap_append, hbefore, List.filterMap_map, hnotice, List.filterMap_some]
    simp [unsubmitted?]

end CommandLine

/-! ### Ids of jobs -/

namespace Overlap

open Actuator

/-- A batch that has a job has got the id from what the scheduler printed. -/
theorem Ends.isJobId {a : Actuator} {b : Batch} {st : Stage} {said : Talk} {id : JobId}
    (h : Ends a b st said (.ok id)) :
    st = .noting id ∨ ∃ r o, (r, .ok o) ∈ said ∧ o.status = 0 ∧ IsJobId o.stdout id := by
  induction said generalizing st with
  | nil => cases h
  | cons e said ih =>
    obtain ⟨-, ⟨hj, -⟩ | ⟨st', hj, h⟩⟩ := ends_cons.mp h
    · exact .inl (judge_eq_ok hj)
    · rcases ih h with rfl | ⟨r, o, ho, hid⟩
      · obtain ⟨-, o, ho, hstatus, hid⟩ := judge_noting hj
        refine .inr ⟨e.1, o, ?_, hstatus, jobId?_eq_some.mp hid⟩
        rw [← ho]
        exact List.mem_cons_self
      · exact .inr ⟨r, o, List.mem_cons_of_mem _ ho, hid⟩

theorem Concluded.isJobId {a : Actuator} {b : Batch} {said : Talk} {id : JobId} (h : Concluded a b said (.ok id)) :
    ∃ r o, (r, .ok o) ∈ said ∧ o.status = 0 ∧ IsJobId o.stdout id := by
  rcases concluded_iff.mp h with ⟨e, -, -, he⟩ | ⟨script, -, h⟩
  · cases he
  · rcases h.isJobId with hst | hid
    · cases hst
    · exact hid

end Overlap

theorem oneLine_jobId {output id : String} (h : IsJobId output id) : OneLine id :=
  fun hmem => absurd (h.isDigit _ hmem) (by decide)

theorem AgentId.oneLine_text (x : AgentId) : OneLine x.text :=
  fun hmem => absurd (AgentId.mem_text hmem) (by decide)

/-! ### Launches -/

namespace CommandLine

open Overlap Actuator

/-- How each agent of a launch is accounted for, after what was said to the submission host. -/
structure Accounted (a : Actuator) (n : Nat) (agents : List AgentId) (subs : List Submission) (talk : Talk)
    (report : Report) : Prop where
  /-- The agents are cut into batches, in their order. -/
  parts : (subs.map (·.agents)).flatten = agents
  count : subs.length = n ⌈/⌉ a.cluster.batchLimit
  sizes : ∀ sub ∈ subs, 1 ≤ sub.agents.length ∧ sub.agents.length ≤ a.cluster.batchLimit
  numbers : subs.map (·.batch) = List.range' 1 subs.length
  /-- What comes of a batch follows from what was heard of it. -/
  results : ∀ sub ∈ subs, Concluded a (a.batchOf sub) (talk.about (a.batchOf sub)) sub.result
  /-- One line for each agent that has a job, batch by batch. -/
  printed : lines report.stdout = (subs.flatMap Submission.hosted).map agentLine
  ended : report.stdout = String.join ((lines report.stdout).map (· ++ "\n"))
  once : ((subs.flatMap Submission.hosted).map (·.2)).Nodup
  /-- An agent without a line is one of a batch that failed. -/
  missing : ∀ x ∈ agents, (∀ job, (job, x) ∉ subs.flatMap Submission.hosted) ↔
    ∃ sub ∈ subs, x ∈ sub.agents ∧ ∃ e, sub.result = .error e
  /-- One notice for each batch that failed. -/
  logged : report.notices.filterMap Notice.unsubmitted? = subs.filterMap Submission.failure?
  succeeded : report.status = 0 ↔ ∀ sub ∈ subs, ∃ job, sub.result = .ok job
  failed : (∃ sub ∈ subs, ∃ e, sub.result = .error e) → report.status = 1 ∧ report.notices.getLast? =
    some (.failed (decimal (subs.filterMap Submission.failure?).length ++ " batch(es) could not be submitted"))
  /-- Without agents nothing is said at all. -/
  nothing : n = 0 → report = {}
  complaint : report.complaint = ""

section

variable {σ : Type} (o : Outside (StateM σ)) (session : String) {environment : Environment} {arguments : List String}
  {world w₁ w₂ : σ} {i : Invocation} {content : String} {config : Config} {c : Cluster} {n : Nat}
  {agents : List AgentId}

theorem run_launch (hi : Invocation.parse environment arguments = .ok i) (horder : i.order = .launch c.name n)
    (hread : (o.readText i.config).run world = (.ok content, w₁))
    (hconfig : Config.parse ((environment Config.timeoutVariable).bind Time.millisOfVariable?) content = .ok config)
    (hc : c ∈ config.clusters) (hagents : (o.newAgents n).run w₁ = (agents, w₂)) :
    (run o session environment arguments).run world = (launch o ⟨c, config.broker, session⟩ agents).run w₂ := by
  have hactuator : actuator config session c.name = .ok ⟨c, config.broker, session⟩ := by
    unfold actuator
    rw [Config.cluster_of_mem hconfig hc]
    rfl
  have hloaded : ((.ok content : Outcome String) >>=
      Config.parse ((environment Config.timeoutVariable).bind Time.millisOfVariable?)) = .ok config := hconfig
  have hrun : (run o session environment arguments).run world = (follow o session config i.order).run w₁ := by
    unfold run
    rw [hi]
    dsimp only
    rw [run_bind, hread]
    dsimp only
    rw [hloaded]
  rw [hrun, horder]
  unfold follow
  dsimp only
  rw [hactuator]
  dsimp only
  rw [run_bind, hagents]

/-- A launch is a flush that nobody disturbs. -/
theorem launch_eq (a : Actuator) (agents : List AgentId) (world : σ) :
    ∃ (s : Account) (subs : List Submission) (talk : Talk),
      Answered (ask o a) world talk ((launch o a agents).run world).2 ∧ Quiet s.notices ∧
      Flushed a (({} : Ledger).enqueue agents).1 s.ledger subs talk ∧
      ((launch o a agents).run world).1 = launched s.notices subs := by
  obtain ⟨host, hrun, hanswered⟩ := carryOut_answered a (ask o a) (a.launch agents {}) world
  obtain ⟨s, subs, talk, hflush, hsubmits⟩ := undisturbed_flush a host (({} : Account).amend (·.enqueue agents))
  have hsound : (({} : Account).amend (·.enqueue agents)).ledger.Sound := Ledger.Sound.empty.enqueue agents
  have hundisturbed : a.undisturbed host (a.launch agents {}) = ((s, .flushed subs), talk) := hflush
  rw [hundisturbed] at hrun hanswered
  have hquiet := a.quiet_launch (ask o a) agents world
  rw [hrun] at hquiet
  have hlaunch : (launch o a agents).run world =
      (launched s.notices subs, ((a.carryOut (ask o a) (a.launch agents {})).run world).2) := by
    unfold launch
    rw [run_bind, hrun]
    rfl
  rw [hlaunch]
  exact ⟨s, subs, talk, hanswered, hquiet, hsubmits.flushed hsound, rfl⟩

/-- Without agents there is nothing to launch. -/
theorem launch_nobody (a : Actuator) (world : σ) : (launch o a []).run world = ({}, world) := by
  have hlaunch : a.launch [] {} = ({}, .flushed []) := by
    simp only [Actuator.launch, Account.amend, Ledger.enqueue, flush, Ledger.takeBatches, Ledger.pieces, Ledger.startAll]
    rfl
  unfold launch carryOut
  rw [hlaunch]
  rfl

theorem launch_accounts (hi : Invocation.parse environment arguments = .ok i) (horder : i.order = .launch c.name n)
    (hread : (o.readText i.config).run world = (.ok content, w₁))
    (hconfig : Config.parse ((environment Config.timeoutVariable).bind Time.millisOfVariable?) content = .ok config)
    (hc : c ∈ config.clusters) (hagents : (o.newAgents n).run w₁ = (agents, w₂)) (hlength : agents.length = n)
    (hdistinct : agents.Nodup) :
    ∃ subs talk, Answered (ask o ⟨c, config.broker, session⟩) w₂ talk
        ((run o session environment arguments).run world).2 ∧
      Accounted ⟨c, config.broker, session⟩ n agents subs talk
        ((run o session environment arguments).run world).1 := by
  rw [run_launch o session hi horder hread hconfig hc hagents]
  obtain ⟨s, subs, talk, hanswered, hquiet, hflushed, hreport⟩ := launch_eq o ⟨c, config.broker, session⟩ agents w₂
  refine ⟨subs, talk, hanswered, ?_⟩
  rw [hreport]
  have hledger : ({} : Ledger).enqueue agents = ({ pending := agents }, []) := Ledger.enqueue_new hdistinct fun _ _ => rfl
  have hlimit : Actuator.batchLimit ⟨c, config.broker, session⟩ = c.batchLimit :=
    Nat.max_eq_left (Config.startable_of_mem hconfig hc).room
  rw [hledger] at hflushed
  have hparts : (subs.map (·.agents)).flatten = agents := hflushed.agents
  have hprinted := stdout_launched s.notices subs
  have hlines : lines (launched s.notices subs).stdout = (subs.flatMap Submission.hosted).map agentLine := by
    rw [hprinted]
    refine lines_join.mpr fun l hl => ?_
    obtain ⟨⟨job, x⟩, hp, rfl⟩ := List.mem_map.mp hl
    obtain ⟨sub, hsub, hp⟩ := List.mem_flatMap.mp hp
    have hconcluded := hflushed.concluded sub hsub
    rw [(Submission.mem_hosted.mp hp).1] at hconcluded
    obtain ⟨r, out, -, -, hjob⟩ := hconcluded.isJobId
    exact oneLine_append.mpr ⟨oneLine_append.mpr ⟨oneLine_jobId hjob, by decide +kernel⟩, x.oneLine_text⟩
  constructor
  · exact hparts
  · rw [hflushed.count, hlength, hlimit]
  · exact hlimit ▸ hflushed.sizes
  · exact hflushed.numbers
  · exact hflushed.concluded
  · exact hlines
  · rw [hlines]
    exact hprinted
  · exact (Submission.flatMap_hosted_sublist subs).nodup (hparts ▸ hdistinct)
  · intro x hx
    refine Submission.missing_iff (hparts ▸ hdistinct) (hparts ▸ hx)
  · exact logged_launched s.notices subs hquiet
  · exact status_launched s.notices subs
  · exact failed_launched s.notices subs
  · rintro rfl
    rw [← hreport, List.length_eq_zero_iff.mp hlength, launch_nobody]
  · exact complaint_launched s.notices subs

end

/-- A cluster with batches of two agents. -/
def pairsContent : String :=
  "[broker]\nuri=\"u\"\nrouting_key=\"k\"\n[[resource]]\nname=\"c\"\ndialect=\"pbs\"\nwork_dir=\"/w\"\n" ++
    "agent_command=[\"a\"]\nmax_batch_size=2\n"

/-- A machine that accepts the first job and refuses the second one. -/
def pairsHost : Host where
  files := { nodes := ⟨[(["f"], .file (Utf8.encode pairsContent))]⟩ }
  programs := ["qsub"]
  replies := [{ stdout := Utf8.encode "17.pbs\n" }, { status := 1 }]

/-- Three agents, two of which get a job. -/
def pairsArguments : List String := ["--config", "/f", "launch", "c", "--agents", "3"]

theorem launch_accounts_three : ∃ (i : Invocation) (config : Config) (c : Cluster) (agents : List AgentId),
    Invocation.parse (fun _ => none) pairsArguments = .ok i ∧ i.order = .launch c.name 3 ∧
      ((onHost 1).readText i.config).run pairsHost = (.ok pairsContent, pairsHost) ∧
      Config.parse ((none : Option String).bind Time.millisOfVariable?) pairsContent = .ok config ∧ c ∈ config.clusters ∧
      ((onHost 1).newAgents 3).run pairsHost = (agents, pairsHost) ∧ agents.length = 3 ∧ agents.Nodup ∧
      (∃ subs talk, Answered (ask (onHost 1) ⟨c, config.broker, "s"⟩) pairsHost talk
          ((run (onHost 1) "s" (fun _ => none) pairsArguments).run pairsHost).2 ∧
        Accounted ⟨c, config.broker, "s"⟩ 3 agents subs talk
          ((run (onHost 1) "s" (fun _ => none) pairsArguments).run pairsHost).1) ∧
      ((run (onHost 1) "s" (fun _ => none) pairsArguments).run pairsHost).1.stdout =
        "17\t00000000-0000-0000-0000-000000000001\n17\t00000000-0000-0000-0000-000000000002\n" := by
  have hi : Invocation.parse (fun _ => none) pairsArguments = .ok ⟨"/f", false, .launch "c" 3⟩ := by decide +kernel
  have hread : ((onHost 1).readText "/f").run pairsHost = (.ok pairsContent, pairsHost) := by
    have htext : pairsHost.files.readText "/f" = .ok pairsContent := by decide +kernel
    change ((pairsHost.files.readText "/f").mapError Error.system, pairsHost) = _
    rw [htext]
    rfl
  have hrun : ((Config.parse none pairsContent).toOption.bind fun config =>
      config.clusters.head?.map (·.name)) = some "c" := by decide +kernel
  obtain ⟨config, hconfig, hrun⟩ := Option.bind_eq_some_iff.mp hrun
  obtain ⟨c, hc, hname⟩ := Option.map_eq_some_iff.mp hrun
  have hparse := toOption_eq_some.mp hconfig
  have hmem := List.mem_of_head? hc
  have horder : (⟨"/f", false, .launch "c" 3⟩ : Invocation).order = .launch c.name 3 := by rw [hname]
  have hdistinct : (AgentId.range 1 3).Nodup := by decide +kernel
  refine ⟨_, config, c, AgentId.range 1 3, hi, horder, hread, hparse, hmem, rfl, rfl, hdistinct,
    launch_accounts (onHost 1) "s" hi horder hread hparse hmem rfl rfl hdistinct, ?_⟩
  decide +kernel

end CommandLine

end ClusterAgents
