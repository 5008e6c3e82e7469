import ClusterAgents.Proofs.Course.Cancellation
import ClusterAgents.Proofs.Overlap.Cancelled

/-!
# Cancellations of agents that nobody disturbs

Whoever cancels agents means the jobs that list them.  The ledger finds these jobs by its index of agents, so that
the right ones are cancelled as long as the index is the inverse of the lists.  A job goes as a whole, with agents
that nobody wanted to cancel.

* `World.Led.jobOf?_iff` — a job lists an agent exactly if the index leads from the agent to the job;
* `Affected` — the jobs that list some agents, in the order of these agents;
* `cancelled_agents_are_gone` — what becomes of the agents and of the jobs, whether the command succeeds or not.
-/

namespace ClusterAgents

namespace Ledger

theorem Sound.takeOut {l : Ledger} (h : l.Sound) (ids : List JobId) : (l.takeOut ids).Sound :=
  (Change.forgotten ids).sound (h.setStatus ids .killing) nofun

theorem jobOf?_takeOut {l : Ledger} {x : AgentId} (hx : l.jobOf? x = none) (ids : List JobId) :
    (l.takeOut ids).jobOf? x = none := by
  rw [jobOf?, takeOut_hosts]
  split
  · rfl
  · exact hx

end Ledger

namespace Overlap

open Actuator Ledger

/-- **The index is the inverse of the lists** where it leads every agent to a job that hosts it. -/
theorem World.Led.jobOf?_iff {w : World} (h : w.Led) (hw : w.Sound) {x : AgentId} {id : JobId} :
    w.ledger.jobOf? x = some id ↔ w.ledger.lists id x = true := by
  rw [lists_iff]
  constructor
  · intro hx
    exact h.hosted hx
  · rintro ⟨job, hj, hx⟩
    exact hw.ledger.hosted hj x hx

/-- The jobs that list some agents, each once, in the order of the first agent that they list. -/
structure Affected (l : Ledger) (as : List AgentId) (ids : List JobId) : Prop where
  mem : ∀ id, id ∈ ids ↔ ∃ x ∈ as, l.lists id x = true
  sorted : ids.Pairwise fun i j => as.findIdx (l.lists i) < as.findIdx (l.lists j)

theorem World.Led.affected {w : World} (h : w.Led) (hw : w.Sound) (as : List AgentId) :
    Affected w.ledger as (w.ledger.jobsOf as) where
  mem id := by
    rw [mem_jobsOf]
    exact exists_congr fun x => and_congr_right fun _ => h.jobOf?_iff hw
  sorted := by
    have hfind (id : JobId) : (fun x => w.ledger.jobOf? x == some id) = w.ledger.lists id := by
      funext x
      rw [Bool.eq_iff_iff, beq_iff_eq]
      exact h.jobOf?_iff hw
    have hsorted := pairwise_distinct_filterMap w.ledger.jobOf? as
    simp only [hfind] at hsorted
    exact hsorted

/-- What becomes of agents that are cancelled, and of the jobs that list them. -/
structure CancelsAgents (a : Actuator) (as : List AgentId) (l l' : Ledger) (ids : List JobId) (success : Bool)
    (talk : Talk) : Prop where
  affected : Affected l as ids
  pending : l'.pending = l.pending.filter (· ∉ as)
  asked : talk.map (·.1) = if ids = [] then [] else [.run a.scheduler.cancel ids]
  /-- A command is needed exactly if a job lists one of the agents. -/
  needed : talk ≠ [] ↔ ∃ id, ∃ x ∈ as, l.lists id x = true
  succeeds : success = true ↔ talk = [] ∨ ∃ o, talk = [(.run a.scheduler.cancel ids, .ok o)] ∧ o.status = 0
  /-- After success the agents are gone, and with them all others of their jobs. -/
  gone : success = true → ∀ x, (x ∈ as ∨ ∃ id ∈ ids, l.lists id x = true) →
    l'.jobOf? x = none ∧ ∀ id, l'.lists id x = false
  spared : success = true → ∀ id, (∀ x ∈ as, l.lists id x = false) →
    l'.job? id = l.job? id ∧ ∀ x, l.lists id x = true → l'.jobOf? x = some id
  /-- After a failure all jobs are as they were. -/
  failed : success = false → l'.jobs = l.jobs ∧ l'.hosts = l.hosts

/-- **What a successful cancellation means for agents**: they are gone with all others of their jobs, and the rest of
the jobs stay. -/
theorem Affected.takesOut {l l' : Ledger} {as : List AgentId} {ids : List JobId} (h : Affected l as ids)
    (hl' : l'.Sound) (htaken : l.TakesOut l' ids) (hfree : ∀ x, l.jobOf? x = none → l'.jobOf? x = none)
    (hled : ∀ x id, l.jobOf? x = some id → l.lists id x = true) :
    (∀ x, (x ∈ as ∨ ∃ id ∈ ids, l.lists id x = true) → l'.jobOf? x = none ∧ ∀ id, l'.lists id x = false) ∧
      ∀ id, (∀ x ∈ as, l.lists id x = false) →
        l'.job? id = l.job? id ∧ ∀ x, l.lists id x = true → l'.jobOf? x = some id := by
  have listed {id : JobId} {x : AgentId} (hid : id ∈ ids) (hlists : l.lists id x = true) : l'.jobOf? x = none := by
    obtain ⟨job, hj, hx⟩ := lists_iff.mp hlists
    exact htaken.freed id job hid hj x hx
  constructor
  · intro x hx
    have hnone : l'.jobOf? x = none := by
      rcases hx with hx | ⟨id, hid, hlists⟩
      · cases hjob : l.jobOf? x with
        | none => exact hfree x hjob
        | some id =>
          have hlists := hled x id hjob
          exact listed ((h.mem id).mpr ⟨x, hx, hlists⟩) hlists
      · exact listed hid hlists
    exact ⟨hnone, hl'.lists_eq_false hnone⟩
  · intro id hspared
    have hid : id ∉ ids := by
      intro hid
      obtain ⟨x, hx, hlists⟩ := (h.mem id).mp hid
      rw [hspared x hx] at hlists
      cases hlists
    refine ⟨htaken.others id hid, fun x hlists => ?_⟩
    obtain ⟨job, hj, hx⟩ := lists_iff.mp hlists
    exact htaken.hosted id job hid hj x hx

/-- **How a cancellation of agents ends**: it is one of jobs, after the agents that are pending were given up. -/
theorem killAgents_ends (a : Actuator) (host : Respondent) (as : List AgentId) {s : Account} (h : s.ledger.Calm) :
    ∃ s' success talk, a.undisturbed host (killAgents as s) = ((s', .killed success), talk) ∧
      talk.map (·.1) =
        (if s.ledger.jobsOf as = [] then [] else [.run a.scheduler.cancel (s.ledger.jobsOf as)]) ∧
      (success = true ↔ s.ledger.jobsOf as = [] ∨
        ∃ o, talk = [(.run a.scheduler.cancel (s.ledger.jobsOf as), .ok o)] ∧ o.status = 0) ∧
      (success = true → s'.ledger = (s.ledger.cancelPending as).takeOut (s.ledger.jobsOf as)) ∧
      (success = false → ∃ cause,
        s'.ledger = (s.ledger.cancelPending as).record (.killFailed (s.ledger.jobsOf as) cause)) := by
  have hids := distinct_of_nodup (nodup_jobsOf s.ledger as)
  have hnext : killAgents as s = killJobs (s.ledger.jobsOf as) (s.update (·.cancelPending as)) := rfl
  have hcalm : (s.update (·.cancelPending as)).ledger.Calm := h.of_jobs rfl
  have htalk := a.undisturbed_killJobs host (s.ledger.jobsOf as) (s.update (·.cancelPending as))
  obtain ⟨s', success, hend, hsuccess, hdone, hfailed⟩ :=
    a.killJobs_ends host (s.ledger.jobsOf as) (s.update (·.cancelPending as))
  simp only [cancelRequest, hids] at htalk hsuccess hdone hfailed
  rw [hnext]
  refine ⟨s', success, _, Prod.ext hend rfl, ?_, hsuccess, hdone, ?_⟩
  · rw [htalk]
    split <;> rfl
  · intro hfalse
    obtain ⟨cause, hledger⟩ := hfailed hfalse
    rw [hcalm.unmark] at hledger
    exact ⟨cause, hledger⟩

/-- **Agents that are cancelled are gone** once that has succeeded, as long as the scheduler does not print the id of
a job that is there, and no other cancellation is under way. -/
theorem cancelled_agents_are_gone (a : Actuator) {ms : List Move} (hfresh : World.fresh a {} ms = true)
    (hidle : ∀ c ∈ (World.after a ms).calls, c.cancels = false) (as : List AgentId) (host : Respondent) :
    ∃ s' ids success talk,
      a.undisturbed host (killAgents as (World.after a ms).account) = ((s', .killed success), talk) ∧
      CancelsAgents a as (World.after a ms).ledger s'.ledger ids success talk := by
  have hw := World.sound_after a ms
  have hled := World.led_after a hfresh
  have hcalm := World.calm_after a hidle
  generalize World.after a ms = w at hw hled hcalm
  have haffected := hled.affected hw as
  have hlists (x : AgentId) (id : JobId) : w.ledger.jobOf? x = some id → w.ledger.lists id x = true :=
    (hled.jobOf?_iff hw).mp
  obtain ⟨s', success, talk, hend, hasked, hsuccess, hdone, hfailed⟩ := killAgents_ends a host as hcalm
  generalize w.ledger.jobsOf as = ids at haffected hasked hsuccess hdone hfailed
  refine ⟨s', ids, success, talk, hend, ?_⟩
  -- giving up the agents that are pending matters to no job
  have hpending : (w.ledger.cancelPending as).pending = w.ledger.pending.filter (· ∉ as) := by simp [cancelPending]
  have hsound := hw.ledger.cancelPending as
  have htaken : (w.ledger.cancelPending as).TakesOut ((w.ledger.cancelPending as).takeOut ids) ids :=
    hsound.takesOut hw.events_latest ids
  have hsame : Affected (w.ledger.cancelPending as) as ids := ⟨haffected.mem, haffected.sorted⟩
  have hgone := hsame.takesOut (hsound.takeOut ids) htaken (fun x hx => jobOf?_takeOut hx ids) hlists
  have hneeded : talk = [] ↔ ids = [] := by
    rw [← List.map_eq_nil_iff (f := fun e => e.1), hasked]
    by_cases hnone : ids = [] <;> simp [hnone]
  constructor
  · exact haffected
  · cases success with
    | true => rw [hdone rfl, htaken.pending, hpending]
    | false =>
      obtain ⟨cause, hledger⟩ := hfailed rfl
      rw [hledger, record_pending, hpending]
  · exact hasked
  · rw [ne_eq, hneeded]
    constructor
    · intro hne
      obtain ⟨id, hid⟩ := List.exists_mem_of_ne_nil ids hne
      exact ⟨id, (haffected.mem id).mp hid⟩
    · rintro ⟨id, hid⟩
      exact List.ne_nil_of_mem ((haffected.mem id).mpr hid)
  · rw [hsuccess, hneeded]
  · intro htrue
    rw [hdone htrue]
    exact hgone.1
  · intro htrue
    rw [hdone htrue]
    exact hgone.2
  · intro hfalse
    obtain ⟨cause, hledger⟩ := hfailed hfalse
    rw [hledger, record_jobs, record_hosts]
    exact ⟨rfl, rfl⟩

/-- Two jobs with one agent each, and a third agent that is pending. -/
def twoJobs : List Move :=
  firstOfTwo ++ [.answer 0 (.ok { stdout := "Submitted batch job 7\n" }), .answer 0 (.ok {}), .goOn 0,
    .answer 0 (.ok {}), .answer 0 (.ok { stdout := "Submitted batch job 8\n" }), .answer 0 (.ok {}), .enqueue [⟨3⟩]]

theorem second_and_third_agent_are_gone :
    World.fresh oneByOne {} twoJobs = true ∧ (∀ c ∈ (World.after oneByOne twoJobs).calls, c.cancels = false) ∧
      ∃ s' ids success talk,
        oneByOne.undisturbed (fun _ _ => some (.ok {}))
          (killAgents [⟨3⟩, ⟨2⟩, ⟨4⟩] (World.after oneByOne twoJobs).account) = ((s', .killed success), talk) ∧
        CancelsAgents oneByOne [⟨3⟩, ⟨2⟩, ⟨4⟩] (World.after oneByOne twoJobs).ledger s'.ledger ids success talk :=
  have hfresh : World.fresh oneByOne {} twoJobs = true := by decide +kernel
  have hidle : ∀ c ∈ (World.after oneByOne twoJobs).calls, c.cancels = false := by decide +kernel
  ⟨hfresh, hidle, cancelled_agents_are_gone oneByOne hfresh hidle _ _⟩

end Overlap

end ClusterAgents
