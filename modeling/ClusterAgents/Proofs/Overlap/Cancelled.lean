import ClusterAgents.Proofs.Overlap.Agents
import ClusterAgents.Proofs.Overlap.Index

/-!
# Agents that are cancelled

A call that cancels agents gives up those that are pending, and then has the jobs cancelled that host the
others.  It does so while other calls go on, so an agent may change its place before the call returns.

* `World.fresh` — in a run no batch is submitted under the id of a job that is there;
* `Cancelling` — how far a call is that cancels some jobs;
* `World.Doomed` — where an agent can be once a call has begun to cancel it, if it was not in flight:
  nowhere, or in one of the jobs that the call takes out before it succeeds.  Every move keeps that;
* `stays_cancelled_iff` — success means that the agent is gone, and stays away until it is accepted again,
  exactly if it was not in flight when the call began.  The calls that cancel agents do not look at the
  batches in flight: such an agent is submitted as if nobody had cancelled it
  (`cancelled_agent_is_submitted`).
-/

namespace ClusterAgents

namespace Overlap

open Actuator Ledger

/-! ### job ids that are not repeated -/

namespace World

/-- A move submits a batch under the id of a job that is there. -/
def repeats (a : Actuator) (w : World) (m : Move) : Bool :=
  (w.tells a m).any fun
    | .submitted _ id => w.ledger.jobs.contains id
    | _ => false

/-- A run in which no move does so. -/
def fresh (a : Actuator) : World → List Move → Bool
  | _, [] => true
  | w, m :: ms => !w.repeats a m && fresh a (w.move a m) ms

/-- The index leads every agent to a job that hosts it. -/
def Led (w : World) : Prop := ∀ x id, ¬ w.ledger.Stranded x id

theorem Sound.led_move {w : World} (h : w.Sound) (hled : w.Led) (a : Actuator) {m : Move}
    (hm : w.repeats a m = false) : (w.move a m).Led := by
  intro x id hs
  rcases (h.stranded_move a m).mp hs with hold | ⟨⟨b, hb⟩, job, hj, -⟩
  · exact hled x id hold
  · have hc : w.ledger.jobs.contains id = true := by
      rw [Table.contains, show w.ledger.jobs.get? id = some job from hj]
      rfl
    simp [repeats, tells, hb, hc] at hm

theorem Sound.led_run {w : World} (h : w.Sound) (hled : w.Led) (a : Actuator) {ms : List Move}
    (hms : fresh a w ms = true) : (w.run a ms).Led := by
  induction ms generalizing w with
  | nil => exact hled
  | cons m ms ih =>
    rw [fresh, Bool.and_eq_true, Bool.not_eq_true'] at hms
    exact ih (h.move a m) (h.led_move hled a hms.1) hms.2

theorem led_after (a : Actuator) {ms : List Move} (hms : fresh a {} ms = true) : (after a ms).Led :=
  Sound.empty.led_run (fun _ _ hs => by cases hs.1) a hms

/-- Where the index leads, there is a job that hosts the agent. -/
theorem Led.hosted {w : World} (h : w.Led) {x : AgentId} {id : JobId}
    (hx : w.ledger.hosts.get? x = some id) : ∃ job, w.ledger.jobs.get? id = some job ∧ x ∈ job.agents := by
  by_contra hno
  exact h x id ⟨hx, fun job hj hm => hno ⟨job, hj, hm⟩⟩

end World

/-! ### how far a cancellation is -/

/-- A call that cancels these jobs, or did, or tried to. -/
inductive Cancelling (jobs : List JobId) : Call → Prop
  | chosen : Cancelling jobs (.chosen jobs)
  | waiting : Cancelling jobs (.reached (.waiting (.kill (distinct jobs))))
  | failing (cause : String) : Cancelling jobs (.failing (distinct jobs) cause)
  | ended (success : Bool) : Cancelling jobs (.reached (.killed success))
  | dropped : Cancelling jobs .dropped

/-- A cancellation that is over and succeeded. -/
def Call.granted : Call → Bool
  | .reached (.killed true) => true
  | _ => false

/-- What a step does that leads a cancellation on. -/
structure Leads (jobs : List JobId) (s : Account) (c : Call) (r : Account × Call × List Event) :
    Prop where
  cancelling : Cancelling jobs r.2.1
  /-- It succeeds only by taking all its jobs out. -/
  granted : r.2.1.granted = true →
    c.granted = true ∨ jobs = [] ∨ r.1.ledger = (distinct jobs).foldl forget s.ledger
  inFlight : r.1.ledger.inFlight = s.ledger.inFlight
  silent : ∀ b id, .submitted b id ∉ r.2.2

/-- A step leads every cancellation on. -/
def Cancels (step : Account → Call → Account × Call × List Event) : Prop :=
  ∀ s c jobs, Cancelling jobs c → Leads jobs s c (step s c)

theorem Leads.stay {jobs : List JobId} {s : Account} {c : Call} (h : Cancelling jobs c) :
    Leads jobs s c (s, c, []) :=
  ⟨h, .inl, rfl, fun _ _ he => by cases he⟩

theorem goOn_cancels (a : Actuator) : Cancels (Call.goOn a) := by
  rintro s c jobs h
  cases h with
  | chosen =>
    simp only [Call.goOn, killJobs]
    split
    · next hnone =>
      have hjobs : jobs = [] := List.eq_nil_iff_forall_not_mem.mpr fun id hid => by
        have hid' := mem_distinct.mpr hid
        rw [List.isEmpty_iff.mp hnone] at hid'
        cases hid'
      exact ⟨.ended true, fun _ => .inr (.inl hjobs), rfl, by simp⟩
    · exact ⟨.waiting, nofun, rfl, nofun⟩
  | waiting => exact .stay .waiting
  | failing cause =>
    exact ⟨.ended false, nofun, record_inFlight _ _, fun _ _ he => nomatch List.mem_singleton.mp he⟩
  | ended success => exact .stay (.ended success)
  | dropped => exact .stay .dropped

theorem answer_cancels (a : Actuator) (reply : Outcome Output) : Cancels (Call.answer a reply) := by
  rintro s c jobs h
  cases h with
  | chosen => exact .stay .chosen
  | waiting =>
    simp only [Call.answer]
    split
    · exact ⟨.ended true, fun _ => .inr (.inr rfl), (foldl_forget_frame _ _).2.1, by simp⟩
    · exact ⟨.failing _, nofun, rfl, by simp⟩
  | failing cause => exact .stay (.failing cause)
  | ended success => exact .stay (.ended success)
  | dropped => exact .stay .dropped

theorem drop_cancels : Cancels Call.drop := by
  rintro s c jobs h
  cases h with
  | chosen => exact .stay .chosen
  | waiting => exact ⟨.dropped, nofun, rfl, nofun⟩
  | failing cause => exact .stay (.failing cause)
  | ended success => exact .stay (.ended success)
  | dropped => exact .stay .dropped

/-- A cancellation that nobody disturbs is over after two steps, and succeeds. -/
theorem granted_answer (a : Actuator) (s s' : Account) (jobs : List JobId) :
    (Call.answer a (.ok {}) s' (Call.goOn a s (.chosen jobs)).2.1).2.1.granted = true := by
  simp only [Call.goOn, killJobs]
  split
  · rfl
  · rfl

/-! ### what is cancelled -/

namespace World

/-- Where an agent can be when a call, the `i`-th of all, has begun to cancel the jobs that host it: nowhere,
or in one of these jobs, and not there any more once the call has succeeded. -/
structure Doomed (w : World) (i : Nat) (jobs : List JobId) (x : AgentId) : Prop where
  pending : x ∉ w.ledger.pending
  flying : x ∉ w.ledger.flying
  hosted : ∃ c, w.calls[i]? = some c ∧ Cancelling jobs c ∧
    (w.ledger.hosts.get? x = none ∨
      c.granted = false ∧ ∃ id ∈ jobs, w.ledger.hosts.get? x = some id)

namespace Doomed

variable {a : Actuator} {w : World} {i : Nat} {jobs : List JobId} {x : AgentId}

/-- A call that has just begun. -/
theorem begun (w : World) {as : List AgentId} (hx : x ∈ as) (hf : x ∉ w.ledger.flying) :
    Doomed (w.move a (.killAgents as)) w.calls.length (w.ledger.jobsOf as) x where
  pending hp := by
    have hp' : x ∈ w.ledger.pending.filter fun y => !as.contains y := hp
    simp [hx] at hp'
  flying := hf
  hosted := by
    refine ⟨.chosen (w.ledger.jobsOf as), by simp [World.move, World.begin], .chosen, ?_⟩
    cases hh : w.ledger.hosts.get? x with
    | none => exact .inl hh
    | some id => exact .inr ⟨rfl, id, mem_jobsOf.mpr ⟨x, hx, hh⟩, hh⟩

theorem turn (h : w.Doomed i jobs x) (hled : w.Led)
    {step : Account → Call → Account × Call × List Event} (hs : Cancels step)
    (hh : (w.turn i step).ledger.hosts.get? x = w.ledger.hosts.get? x ∨
      (w.turn i step).ledger.hosts.get? x = none) :
    ∃ c, (w.turn i step).calls[i]? = some c ∧ Cancelling jobs c ∧
      ((w.turn i step).ledger.hosts.get? x = none ∨
        c.granted = false ∧ ∃ id ∈ jobs, (w.turn i step).ledger.hosts.get? x = some id) := by
  obtain ⟨c, hc, hcan, hplace⟩ := h.hosted
  obtain ⟨hcan', hgrant, -, -⟩ := hs w.account c jobs hcan
  refine ⟨_, turn_getElem? hc step, hcan', ?_⟩
  rcases hplace with hnone | ⟨hng, id, hid, hhost⟩
  · rw [hnone, or_self] at hh
    exact .inl hh
  rcases hh with hkeep | hnone
  · rw [hkeep, hhost]
    refine .inr ⟨?_, id, hid, rfl⟩
    -- if the call succeeded, its jobs are gone, and so is the one that hosts the agent
    by_contra hg
    rcases hgrant (by simpa using hg) with hg' | rfl | hl
    · rw [hng] at hg'
      cases hg'
    · cases hid
    · obtain ⟨job, hj, hx⟩ := hled.hosted hhost
      have hl' : (w.turn i step).ledger = (distinct jobs).foldl forget w.ledger := by
        rw [← hl, World.ledger, (turn_eq hc step).1]
      rw [hl', foldl_forget_hosts, if_pos ⟨id, mem_distinct.mpr hid, job, hj, hx⟩, hhost] at hkeep
      cases hkeep
  · exact .inl hnone

/-- **A move keeps an agent doomed** unless it accepts it. -/
theorem move (h : w.Doomed i jobs x) (hw : w.Sound) (hled : w.Led) (a : Actuator) {m : Move}
    (hm : x ∉ w.accepts m) : (w.move a m).Doomed i jobs x := by
  obtain ⟨hp, hf, hh⟩ := hw.aground_move h.flying a h.pending hm
  refine ⟨hp, hf, ?_⟩
  -- either the call that cancels makes the move, or it stays where it is
  by_cases hi : m.call? = some i
  · cases m with
    | goOn j => cases hi; exact h.turn hled (goOn_cancels a) hh
    | answer j reply => cases hi; exact h.turn hled (answer_cancels a reply) hh
    | drop j => cases hi; exact h.turn hled drop_cancels hh
    | _ => cases hi
  · obtain ⟨c, hc, hcan, hplace⟩ := h.hosted
    refine ⟨c, move_getElem? hc hi, hcan, ?_⟩
    rcases hh with hkeep | hnone
    · rwa [hkeep]
    · exact .inl hnone

theorem run (h : w.Doomed i jobs x) (hw : w.Sound) (hled : w.Led) (a : Actuator) {ms : List Move}
    (hfresh : fresh a w ms = true) (hm : x ∉ along a accepts w ms) : (w.run a ms).Doomed i jobs x := by
  induction ms generalizing w with
  | nil => exact h
  | cons m ms ih =>
    rw [fresh, Bool.and_eq_true, Bool.not_eq_true'] at hfresh
    rw [along, List.mem_append, not_or] at hm
    exact ih (h.move hw hled a hm.1) (hw.move a m) (hw.led_move hled a hfresh.1) hfresh.2 hm.2

/-- Once the call has succeeded, nobody knows the agent. -/
theorem unknown (h : w.Doomed i jobs x) (hg : (w.calls[i]?).any Call.granted = true) :
    w.ledger.knows x = false := by
  obtain ⟨c, hc, -, hplace⟩ := h.hosted
  rw [hc, Option.any_some] at hg
  refine knows_eq_false_iff.mpr ⟨h.pending, h.flying, hplace.resolve_right fun hno => ?_⟩
  rw [hg] at hno
  cases hno.1

end Doomed

end World

/-- **What success promises**: once a call that cancels agents is over and has succeeded, nobody knows an
agent, unless it was accepted after the call began. -/
def StaysCancelled (a : Actuator) (w : World) (as : List AgentId) (x : AgentId) : Prop :=
  ∀ ms, w.fresh a (.killAgents as :: ms) = true →
    ((w.run a (.killAgents as :: ms)).calls[w.calls.length]?).any Call.granted = true →
    x ∉ w.along a World.accepts (.killAgents as :: ms) →
    (w.run a (.killAgents as :: ms)).ledger.knows x = false

namespace World

theorem repeats_eq_false {a : Actuator} {w : World} {m : Move}
    (h : ∀ b id, .submitted b id ∉ w.tells a m) : w.repeats a m = false := by
  rw [repeats, List.any_eq_false]
  intro e he
  cases e with
  | submitted b id => exact absurd he (h b id)
  | _ => exact Bool.false_ne_true

/-- A move of a cancellation submits nothing, and leaves alone what is in flight. -/
theorem quiet_move {a : Actuator} {w : World} {i : Nat} {c : Call} {jobs : List JobId} {m : Move}
    {step : Account → Call → Account × Call × List Event} (hm : w.move a m = w.turn i step)
    (hc : w.calls[i]? = some c) (hjobs : Cancelling jobs c) (hs : Cancels step) :
    w.repeats a m = false ∧ (w.move a m).ledger.flying = w.ledger.flying := by
  obtain ⟨-, -, hf, hsilent⟩ := hs w.account c jobs hjobs
  constructor
  · refine repeats_eq_false fun b id => ?_
    rw [tells, hm, turn_history hc, List.drop_left]
    exact hsilent b id
  · rw [hm, World.ledger, (turn_eq hc step).1, flying, hf]
    rfl

/-- A call that cancels agents may succeed before anybody else moves, and what is in flight stays there. -/
theorem killAgents_granted (a : Actuator) (w : World) (as : List AgentId) :
    ∃ ms, w.fresh a (.killAgents as :: ms) = true ∧
      ((w.run a (.killAgents as :: ms)).calls[w.calls.length]?).any Call.granted = true ∧
      w.along a accepts (.killAgents as :: ms) = [] ∧
      (w.run a (.killAgents as :: ms)).ledger.flying = w.ledger.flying := by
  let i := w.calls.length
  let w₁ := w.move a (.killAgents as)
  let w₂ := w₁.move a (.goOn i)
  have h₁ : w₁.calls[i]? = some (.chosen (w.ledger.jobsOf as)) := by simp [w₁, i, move, begin]
  have h₂ : w₂.calls[i]? = some _ := turn_getElem? h₁ (Call.goOn a)
  have h₃ : (w₂.move a (.answer i (.ok {}))).calls[i]? = some _ :=
    turn_getElem? h₂ (Call.answer a (.ok {}))
  have q₀ : w.repeats a (.killAgents as) = false :=
    repeats_eq_false fun b id => by simp [tells, move, begin]
  obtain ⟨q₁, f₁⟩ : w₁.repeats a (.goOn i) = false ∧ w₂.ledger.flying = w₁.ledger.flying :=
    quiet_move rfl h₁ .chosen (goOn_cancels a)
  obtain ⟨q₂, f₂⟩ : w₂.repeats a (.answer i (.ok {})) = false ∧
      (w₂.move a (.answer i (.ok {}))).ledger.flying = w₂.ledger.flying :=
    quiet_move rfl h₂ (goOn_cancels a _ _ _ .chosen).cancelling (answer_cancels a (.ok {}))
  refine ⟨[.goOn i, .answer i (.ok {})], ?_, ?_, rfl, f₂.trans f₁⟩
  · rw [fresh, fresh, fresh, fresh, q₀, q₁, q₂]
    rfl
  · exact (congrArg (Option.any Call.granted) h₃).trans (granted_answer a _ _ _)

end World

/-- **Cancelled agents stay away exactly if they were not in flight.**  As long as the scheduler does not
print the id of a job that is there, success of a call that cancels agents keeps its promise for those that
are pending, hosted by a job or unknown when the call begins, and for no other ones. -/
theorem stays_cancelled_iff (a : Actuator) {ms₀ : List Move} (hfresh : World.fresh a {} ms₀ = true)
    {as : List AgentId} {x : AgentId} (hx : x ∈ as) :
    StaysCancelled a (World.after a ms₀) as x ↔ x ∉ (World.after a ms₀).ledger.flying := by
  have hw := World.sound_after a ms₀
  constructor
  · intro hstays hf
    obtain ⟨ms, hms, hg, hacc, hfly⟩ := (World.after a ms₀).killAgents_granted a as
    have hu := hstays ms hms hg (by rw [hacc]; exact List.not_mem_nil)
    exact (knows_eq_false_iff.mp hu).2.1 (hfly.symm ▸ hf)
  · intro hf ms hms hg hacc
    rw [World.fresh, Bool.and_eq_true, Bool.not_eq_true'] at hms
    have hled := hw.led_move (World.led_after a hfresh) a hms.1
    exact ((World.Doomed.begun _ hx hf).run (hw.move a _) hled a hms.2 hacc).unknown hg

/-- A job that hosts the first agent, and a batch in flight with the second one. -/
def hostedAndFlying : List Move := submission 0 ⟨1⟩ ++ [.enqueue [⟨2⟩], .flush]

theorem hosted_agent_stays_cancelled :
    StaysCancelled lonely (World.after lonely hostedAndFlying) [⟨1⟩, ⟨2⟩] ⟨1⟩ ∧
      ¬ StaysCancelled lonely (World.after lonely hostedAndFlying) [⟨1⟩, ⟨2⟩] ⟨2⟩ :=
  have hfresh : World.fresh lonely {} hostedAndFlying = true := by decide +kernel
  ⟨(stays_cancelled_iff lonely hfresh (by decide)).mpr (by decide +kernel),
    fun h => (stays_cancelled_iff lonely hfresh (by decide)).mp h (by decide +kernel)⟩

/-- An actuator that submits every agent on its own. -/
def oneByOne : Actuator := { lonely with cluster := { lonely.cluster with batchLimit := 1 } }

/-- Two agents are to be submitted, and the submit command runs for the first one. -/
def firstOfTwo : List Move := [.enqueue [⟨1⟩, ⟨2⟩], .flush, .goOn 0, .answer 0 (.ok {})]

/-- The second one is cancelled, which succeeds at once, and the flush goes on. -/
def cancelSecond : List Move :=
  [.killAgents [⟨2⟩], .goOn 1, .answer 0 (.ok { stdout := "Submitted batch job 7\n" }), .answer 0 (.ok {}),
    .goOn 0, .answer 0 (.ok {}), .answer 0 (.ok { stdout := "Submitted batch job 8\n" }), .answer 0 (.ok {})]

/-- An agent is submitted after it was cancelled: its batch was waiting for the one before it. -/
theorem cancelled_agent_is_submitted :
    ((World.after oneByOne firstOfTwo).run oneByOne cancelSecond).ledger.jobOf? ⟨2⟩ = some "8" ∧
      ¬ StaysCancelled oneByOne (World.after oneByOne firstOfTwo) [⟨2⟩] ⟨2⟩ := by
  have hjob : ((World.after oneByOne firstOfTwo).run oneByOne cancelSecond).ledger.jobOf? ⟨2⟩ =
    some "8" := by decide +kernel
  refine ⟨hjob, fun hstays => ?_⟩
  have hu : ((World.after oneByOne firstOfTwo).run oneByOne cancelSecond).ledger.knows ⟨2⟩ = false :=
    hstays cancelSecond.tail (by decide +kernel) (by decide +kernel) (by decide +kernel)
  rw [jobOf?, (knows_eq_false_iff.mp hu).2.2] at hjob
  cases hjob

end Overlap

end ClusterAgents
