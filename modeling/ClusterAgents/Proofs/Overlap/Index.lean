import ClusterAgents.Proofs.Overlap.Sound

/-!
# The index of agents

The hosts of a ledger are to be the inverse of its jobs.  In the direction from jobs to agents that is
part of `Ledger.Sound`.  In the other direction it holds as long as the scheduler does not print the id
of a job that is there already: the new job takes the place of the old one, and the agents of the old
one go on leading to an id whose job does not host them.

* `Ledger.Stranded` — an agent that the index leads to a job which is not there or does not host it;
* `Replaced` — somewhere in a run a batch was submitted under the id of a job that hosted the agent;
* `stranded_iff_replaced` — the two are the same: there is no other way to be stranded, and no way back.
-/

namespace ClusterAgents

namespace Ledger

/-- An agent that the index leads to a job which is not there or does not host it. -/
def Stranded (l : Ledger) (x : AgentId) (id : JobId) : Prop :=
  l.jobOf? x = some id ∧ ∀ job, l.job? id = some job → x ∉ job.agents

/-- A ledger with the same index, and jobs with the same agents, strands the same agents. -/
theorem stranded_congr {l l' : Ledger} (hh : l'.hosts = l.hosts)
    (hj : ∀ id, (l'.jobs.get? id).map (·.agents) = (l.jobs.get? id).map (·.agents)) {x : AgentId}
    {id : JobId} : l'.Stranded x id ↔ l.Stranded x id := by
  have hall : ∀ k : Ledger, (∀ job, k.job? id = some job → x ∉ job.agents) ↔
      ∀ as, (k.jobs.get? id).map (·.agents) = some as → x ∉ as := by
    intro k
    constructor
    · rintro h as has
      obtain ⟨job, hjob, rfl⟩ := Option.map_eq_some_iff.mp has
      exact h job hjob
    · exact fun h job hjob => h _ (congrArg (Option.map (·.agents)) hjob)
  unfold Stranded jobOf?
  rw [hall, hall, hj, hh]

/-- Taking a job out frees its agents, and strands nobody. -/
theorem stranded_removeJob {l l' : Ledger} (hl : l.Sound) {id' : JobId} {job : Job}
    (hr : l.removeJob id' = some (job, l')) {x : AgentId} {id : JobId} :
    l'.Stranded x id ↔ l.Stranded x id := by
  obtain ⟨hj, rfl⟩ := removeJob_spec hr
  unfold Stranded jobOf? job?
  simp only [Table.get?_foldl_erase, Table.get?_erase]
  constructor
  · rintro ⟨hx, hno⟩
    split at hx
    · cases hx
    · next hxj =>
      refine ⟨hx, fun k hk => ?_⟩
      by_cases e : id = id'
      · rw [e, hj] at hk
        cases hk
        exact hxj
      · exact hno k (by rw [if_neg e]; exact hk)
  · rintro ⟨hx, hno⟩
    have hxj : x ∉ job.agents := fun hm => by
      have hid := hl.hosted hj x hm
      rw [hx] at hid
      cases hid
      exact hno job hj hm
    refine ⟨by rw [if_neg hxj]; exact hx, fun k hk => ?_⟩
    split at hk
    · cases hk
    · exact hno k hk

theorem stranded_record {l : Ledger} {e : Event} {x : AgentId} {id : JobId} :
    (l.record e).Stranded x id ↔ l.Stranded x id :=
  stranded_congr (record_hosts l e) fun _ => by rw [record_jobs]

theorem stranded_forget {l : Ledger} (hl : l.Sound) {id' : JobId} {x : AgentId} {id : JobId} :
    (Actuator.forget l id').Stranded x id ↔ l.Stranded x id := by
  rcases forget_cases l id' with ⟨job, l', hr, hf⟩ | ⟨-, hf⟩
  · rw [hf, stranded_record, stranded_removeJob hl hr]
  · rw [hf, stranded_record]

/-- A job that is entered strands the agents of the job whose place it takes. -/
theorem stranded_activate {l : Ledger} (hl : l.Sound) {job : Job}
    (hb : (job.batch, job.agents) ∈ l.inFlight.entries) {x : AgentId} {id : JobId} :
    (l.activate job).1.Stranded x id ↔
      l.Stranded x id ∨ job.id = id ∧ ∃ old, l.job? id = some old ∧ x ∈ old.agents := by
  have hfree : ∀ {k}, l.hosts.get? x = some k → x ∉ job.agents := fun hx hm => by
    rw [hl.free x (List.mem_append_right _ (mem_flying.mpr ⟨_, hb, hm⟩))] at hx
    cases hx
  rw [activate_fst, stranded_record]
  unfold Stranded jobOf? job?
  simp only [Table.get?_foldl_insert, Table.get?_insert]
  constructor
  · rintro ⟨hx, hno⟩
    split at hx
    · next hxj =>
      cases hx
      exact absurd hxj (hno job (if_pos rfl))
    · by_cases e : id = job.id
      · by_cases ho : ∃ old, l.jobs.get? id = some old ∧ x ∈ old.agents
        · exact .inr ⟨e.symm, ho⟩
        · exact .inl ⟨hx, fun old hold hm => ho ⟨old, hold, hm⟩⟩
      · exact .inl ⟨hx, fun k hk => hno k (by rw [if_neg e]; exact hk)⟩
  · rintro (⟨hx, hno⟩ | ⟨rfl, old, hold, hm⟩)
    · refine ⟨by rw [if_neg (hfree hx)]; exact hx, fun k hk => ?_⟩
      split at hk
      · cases hk
        exact hfree hx
      · exact hno k hk
    · have hx := hl.hosted hold x hm
      refine ⟨by rw [if_neg (hfree hx)]; exact hx, fun k hk => ?_⟩
      rw [if_pos rfl] at hk
      cases hk
      exact hfree hx

/-- **What strands an agent** is a submission under the id of the job that hosts it. -/
theorem Change.stranded {l l' : Ledger} {bs : List (BatchId × List AgentId)} {es : List Event}
    (h : Change l l' bs es) (hl : l.Sound) (hb : ∀ b ∈ bs, b ∈ l.inFlight.entries) {x : AgentId}
    {id : JobId} :
    l'.Stranded x id ↔ l.Stranded x id ∨
      (∃ b, es = [.submitted b id]) ∧ ∃ job, l.job? id = some job ∧ x ∈ job.agents := by
  have other (hs : l'.Stranded x id ↔ l.Stranded x id) (he : ∀ b, .submitted b id ∉ es) :
      l'.Stranded x id ↔ l.Stranded x id ∨
        (∃ b, es = [.submitted b id]) ∧ ∃ job, l.job? id = some job ∧ x ∈ job.agents := by
    rw [hs]
    refine ⟨.inl, fun h' => h'.resolve_right ?_⟩
    rintro ⟨⟨b, rfl⟩, -⟩
    exact he b (List.mem_singleton.mpr rfl)
  cases h with
  | nothing => exact other Iff.rfl (by simp)
  | failed bs error =>
    obtain ⟨-, hj, hh, -⟩ := failAll_frame l bs error
    exact other (stranded_congr hh fun _ => by rw [hj]) (by simp)
  | activated job =>
    rw [stranded_activate hl (hb _ (List.mem_singleton.mpr rfl))]
    simp
  | marked ids status =>
    have hh : (l.setStatus ids status).hosts = l.hosts := rfl
    refine other (stranded_congr hh fun k => ?_) (by simp)
    rw [setStatus_get?, Option.map_map]
    congr 1
    funext job
    simp only [Function.comp]
    split <;> rfl
  | forgotten ids =>
    have hkeeps := List.foldlRecOn (motive := fun k => k.Sound ∧ (k.Stranded x id ↔ l.Stranded x id))
      ids Actuator.forget ⟨hl, Iff.rfl⟩ fun _ hk id' _ =>
        ⟨hk.1.forget id', (stranded_forget hk.1).trans hk.2⟩
    exact other hkeeps.2 (by simp)
  | reported ids cause => exact other stranded_record (by simp)

end Ledger

namespace Overlap

open Ledger

/-- A move submits a batch under the id of a job that hosts the agent. -/
def Replaces (a : Actuator) (w : World) (m : Move) (x : AgentId) (id : JobId) : Prop :=
  (∃ b, (w.move a m).history = w.history ++ [.submitted b id]) ∧
    ∃ job, w.ledger.job? id = some job ∧ x ∈ job.agents

/-- Somewhere in a run a batch was submitted under the id of a job that hosted the agent. -/
def Replaced (a : Actuator) (ms : List Move) (x : AgentId) (id : JobId) : Prop :=
  ∃ ms₁ m ms₂, ms = ms₁ ++ m :: ms₂ ∧ Replaces a (World.after a ms₁) m x id

theorem replaced_concat {a : Actuator} {ms : List Move} {m : Move} {x : AgentId} {id : JobId} :
    Replaced a (ms ++ [m]) x id ↔ Replaced a ms x id ∨ Replaces a (World.after a ms) m x id := by
  constructor
  · rintro ⟨ms₁, m', ms₂, he, hr⟩
    rcases List.eq_nil_or_concat ms₂ with rfl | ⟨ms₃, m'', rfl⟩
    · obtain ⟨rfl, hm⟩ := List.append_inj' he rfl
      cases hm
      exact .inr hr
    · have he' : ms ++ [m] = (ms₁ ++ m' :: ms₃) ++ [m''] := by simpa using he
      exact .inl ⟨ms₁, m', ms₃, (List.append_inj' he' rfl).1, hr⟩
  · rintro (⟨ms₁, m', ms₂, rfl, hr⟩ | hr)
    · exact ⟨ms₁, m', ms₂ ++ [m], by simp, hr⟩
    · exact ⟨ms, m, [], rfl, hr⟩

/-- What strands an agent in one move. -/
theorem World.Sound.stranded_move {w : World} (h : w.Sound) (a : Actuator) (m : Move) {x : AgentId}
    {id : JobId} :
    (w.move a m).ledger.Stranded x id ↔ w.ledger.Stranded x id ∨ Replaces a w m x id := by
  -- a move that tells of nothing but the end of jobs
  have other {w' : World} (hw : w.move a m = w') (hs : w'.ledger.Stranded x id ↔ w.ledger.Stranded x id)
      (he : ∀ b, w'.history ≠ w.history ++ [.submitted b id]) :
      (w.move a m).ledger.Stranded x id ↔ w.ledger.Stranded x id ∨ Replaces a w m x id := by
    rw [hw, hs]
    refine ⟨.inl, fun h' => h'.resolve_right ?_⟩
    rintro ⟨⟨b, hb⟩, -⟩
    exact he b (hw ▸ hb)
  have still (b : BatchId) : w.history ≠ w.history ++ [.submitted b id] := by simp
  have turn (i : Nat) {step : Account → Call → Account × Call × List Event} (hs : Steps step)
      (hw : w.move a m = w.turn i step) :
      (w.move a m).ledger.Stranded x id ↔ w.ledger.Stranded x id ∨ Replaces a w m x id := by
    unfold Replaces
    rw [hw]
    refine World.turn_keeps (P := fun w' => w'.ledger.Stranded x id ↔ w.ledger.Stranded x id ∨
      (∃ b, w'.history = w.history ++ [.submitted b id]) ∧
        ∃ job, w.ledger.job? id = some job ∧ x ∈ job.agents) ?_ hs i ?_
    · exact ⟨.inl, fun h' => h'.resolve_right fun hr => still _ hr.1.choose_spec⟩
    · intro xs c ys bs s' c' es hcalls hc hch
      have hperm := h.finished_perm hcalls hc hch
      rw [show (_ : World).ledger = s'.ledger from rfl,
        hch.stranded h.ledger fun b hb => hperm.symm.subset (List.mem_append_left _ hb)]
      simp only [List.append_cancel_left_eq]
  cases m with
  | enqueue as =>
    obtain ⟨new, hl, -, -⟩ := w.ledger.enqueue_spec as
    refine other rfl ?_ still
    rw [show (_ : World).ledger = (w.ledger.enqueue as).1 from rfl, hl]
    exact stranded_congr rfl fun _ => rfl
  | flush =>
    obtain ⟨hl, -, -⟩ := w.ledger.takeBatches_spec h.ledger.low a.batchLimit
    refine other rfl ?_ still
    rw [show (_ : World).ledger = (w.ledger.takeBatches a.batchLimit).1 from rfl, hl]
    exact stranded_congr rfl fun _ => rfl
  | killJobs jobs => exact other rfl Iff.rfl still
  | killAgents as => exact other rfl (stranded_congr rfl fun _ => rfl) still
  | killAll => exact other rfl Iff.rfl still
  | markTerminal id' =>
    rcases w.move_markTerminal a id' with ⟨-, hw⟩ | ⟨job, l', hr, hw⟩
    · exact other hw Iff.rfl still
    · exact other hw (stranded_record.trans (stranded_removeJob h.ledger hr)) (by simp)
  | goOn i => exact turn i (goOn_steps a) rfl
  | answer i reply => exact turn i (answer_steps a reply) rfl
  | drop i => exact turn i drop_steps rfl

/-- **The index is the inverse of the jobs but for replaced ones.**  An agent leads to a job that is not
there or does not host it if and only if a batch was submitted under the id of a job that hosted it. -/
theorem stranded_iff_replaced (a : Actuator) (ms : List Move) (x : AgentId) (id : JobId) :
    (World.after a ms).ledger.Stranded x id ↔ Replaced a ms x id := by
  induction ms using List.reverseRecOn with
  | nil =>
    constructor
    · rintro ⟨hx, -⟩
      cases hx
    · rintro ⟨ms₁, m, ms₂, he, -⟩
      simp at he
  | append_singleton ms m ih =>
    rw [World.after_concat, (World.sound_after a ms).stranded_move, ih, replaced_concat]

/-- An actuator for a cluster with a scheduler of its own. -/
def lonely : Actuator where
  cluster := { name := "c", scheduler := .slurm, workDir := "/w", agentCommand := ["agent"] }
  broker := ⟨"amqp://b", "k", "", false, false⟩
  session := "s"

/-- The moves that submit one agent, for which the scheduler prints the id 7. -/
def submission (call : Nat) (x : AgentId) : List Move :=
  [.enqueue [x], .flush, .goOn call, .answer call (.ok {}),
    .answer call (.ok { stdout := "Submitted batch job 7\n" }), .answer call (.ok {})]

/-- The moves that submit two agents, one after the other. -/
def sameIdTwice : List Move := submission 0 ⟨1⟩ ++ submission 1 ⟨2⟩

/-- If the scheduler prints one id twice, the first agent leads to a job that does not host it. -/
theorem repeated_id_strands_agent :
    ¬ ∀ x id, (World.after lonely sameIdTwice).ledger.jobOf? x = some id →
      ∃ job, (World.after lonely sameIdTwice).ledger.job? id = some job ∧ x ∈ job.agents := by
  intro h
  have leads : (World.after lonely sameIdTwice).ledger.jobOf? ⟨1⟩ = some "7" := by decide +kernel
  have hosts : ((World.after lonely sameIdTwice).ledger.job? "7").map (·.agents) = some [⟨2⟩] := by
    decide +kernel
  obtain ⟨job, hjob, hx⟩ := h ⟨1⟩ "7" leads
  rw [hjob, Option.map_some] at hosts
  rw [Option.some.inj hosts] at hx
  exact absurd hx (by decide)

end Overlap

end ClusterAgents
