import ClusterAgents.Proofs.Overlap.Changes

/-!
# Jobs that are marked for cancellation

A job has the status `killing` while a cancel command for it is under way, and no longer.  Several
cancellations may be at one job at a time; each of them marks it, and the first one that fails or is
given up takes the mark away from the others.  So a mark may be missing while a command runs, but it
never stays behind.

* `Call.marks` — the jobs that a call has marked, and that it will take out or mark as active;
* `KeepsMarks` — a step of a call marks jobs of its own only, and leaves none of its marks behind
  (`goOn_keepsMarks`, `answer_keepsMarks`, `drop_keepsMarks`);
* `World.Marked` — each job with the status `killing` is among the marks of a call, which every move
  keeps.
-/

namespace ClusterAgents

namespace Overlap

open Actuator Ledger

/-- The jobs for which a call waits to hear that they are cancelled. -/
def Call.marks : Call → List JobId
  | .reached (.waiting (.kill jobs)) => jobs
  | _ => []

/-- A cancellation that began, is not over and was not given up. -/
def Call.cancels : Call → Bool
  | .chosen _ => true
  | .reached (.waiting (.kill _)) => true
  | .failing _ _ => true
  | _ => false

theorem Call.cancels_of_mem_marks {c : Call} {id : JobId} (h : id ∈ c.marks) : c.cancels = true := by
  unfold Call.marks at h
  split at h
  · rfl
  · cases h

/-! ### what a step of a call does to the marks -/

/-- A job that is there when the outcome of a batch was entered was there before, or is the one of
that batch. -/
theorem settle_jobs {a : Actuator} {s : Account} {b : Batch} {result : Outcome JobId} {id : JobId}
    {k : Job} (h : (a.settle s b result).ledger.jobs.get? id = some k) :
    s.ledger.jobs.get? id = some k ∨ result = .ok id ∧ k = job b id := by
  cases result with
  | ok id' =>
    rw [show (a.settle s b (.ok id')).ledger = (s.ledger.activate (job b id')).1 from rfl,
      activate_fst, record_jobs, Table.get?_insert] at h
    split at h
    · next e =>
      have e' : id = id' := e
      subst e'
      exact .inr ⟨rfl, (Option.some.inj h).symm⟩
    · exact .inl h
  | error e =>
    rw [show (a.settle s b (.error e)).ledger = (s.ledger.failBatch b.id e.message).1 from rfl,
      failBatch_fst, record_jobs] at h
    exact .inl h

/-- A job has the status `killing`. -/
def KillingIn (l : Ledger) (id : JobId) : Prop :=
  ∃ job, l.jobs.get? id = some job ∧ job.status = .killing

/-- Where the status of jobs was set, those jobs have it and the others have the one they had. -/
theorem killingIn_setStatus {l : Ledger} {ids : List JobId} {status : JobStatus} {id : JobId}
    (h : KillingIn (l.setStatus ids status) id) :
    id ∈ ids ∧ status = .killing ∨ id ∉ ids ∧ KillingIn l id := by
  obtain ⟨job, hj, hk⟩ := h
  rw [setStatus_get?] at hj
  obtain ⟨old, hold, rfl⟩ := Option.map_eq_some_iff.mp hj
  by_cases hid : id ∈ ids
  · rw [if_pos hid] at hk
    exact .inl ⟨hid, hk⟩
  · rw [if_neg hid] at hk
    exact .inr ⟨hid, old, hold, hk⟩

theorem killingIn_settle {a : Actuator} {s : Account} {b : Batch} {result : Outcome JobId}
    {id : JobId} (h : KillingIn (a.settle s b result).ledger id) : KillingIn s.ledger id := by
  obtain ⟨k, hk, hs⟩ := h
  rcases settle_jobs hk with hold | ⟨-, rfl⟩
  · exact ⟨k, hold, hs⟩
  · cases hs

/-- After a step of a call, a job with the status `killing` is among its marks, or it has that status
from before and not from this call. -/
def KeepsMarks (step : Account → Call → Account × Call × List Event) : Prop :=
  ∀ s c id, KillingIn (step s c).1.ledger id →
    id ∈ (step s c).2.1.marks ∨ id ∉ c.marks ∧ KillingIn s.ledger id

theorem goOn_keepsMarks (a : Actuator) : KeepsMarks (Call.goOn a) := by
  intro s c id h
  unfold Call.goOn at h ⊢
  split at h
  · exact .inr ⟨List.not_mem_nil, h⟩
  · split at h
    · exact .inr ⟨List.not_mem_nil, h⟩
    · exact .inr ⟨List.not_mem_nil, killingIn_settle h⟩
  · next jobs =>
    unfold killJobs at h ⊢
    dsimp only at h ⊢
    split at h
    · exact .inr ⟨List.not_mem_nil, h⟩
    · next hne =>
      rw [if_neg hne]
      rcases killingIn_setStatus h with ⟨hid, -⟩ | ⟨-, hold⟩
      · exact .inl hid
      · exact .inr ⟨List.not_mem_nil, hold⟩
  · exact .inr ⟨List.not_mem_nil, h⟩
  · exact (Decidable.em _).imp_right fun hid => ⟨hid, h⟩

theorem answer_keepsMarks (a : Actuator) (reply : Outcome Output) :
    KeepsMarks (Call.answer a reply) := by
  intro s c id h
  unfold Call.answer at h ⊢
  split at h
  · split at h
    · exact .inr ⟨List.not_mem_nil, h⟩
    · next notices result _ =>
      have hold : KillingIn (s.noteAll notices).ledger id := killingIn_settle h
      exact .inr ⟨List.not_mem_nil, hold⟩
  · next jobs =>
    split at h
    · -- the jobs of the call are taken out
      obtain ⟨job, hj, hk⟩ := h
      have hj' : (jobs.foldl forget s.ledger).jobs.get? id = some job := hj
      rw [foldl_forget_jobs] at hj'
      split at hj'
      · cases hj'
      · next hid => exact .inr ⟨hid, job, hj', hk⟩
    · rcases killingIn_setStatus h with ⟨-, hs⟩ | hold
      · cases hs
      · exact .inr hold
  · exact (Decidable.em _).imp_right fun hid => ⟨hid, h⟩

theorem drop_keepsMarks : KeepsMarks Call.drop := by
  intro s c id h
  unfold Call.drop at h ⊢
  split at h
  · next f =>
    obtain ⟨job, hj, hk⟩ := h
    have hl : (abandon (.flush f) s).ledger = s.ledger.failAll f.unfinished "Submission was abandoned" :=
      abandonBatches_ledger s f.unfinished
    rw [hl, (failAll_frame _ _ _).2.1] at hj
    exact .inr ⟨List.not_mem_nil, job, hj, hk⟩
  · rcases killingIn_setStatus h with ⟨-, hs⟩ | hold
    · cases hs
    · exact .inr hold
  · exact (Decidable.em _).imp_right fun hid => ⟨hid, h⟩

/-! ### what every move keeps -/

namespace World

/-- **No mark stays behind**: a job with the status `killing` is among the marks of a call. -/
def Marked (w : World) : Prop := ∀ id, KillingIn w.ledger id → ∃ c ∈ w.calls, id ∈ c.marks

theorem Marked.turn {w : World} (h : w.Marked) (i : Nat)
    {step : Account → Call → Account × Call × List Event} (hs : KeepsMarks step) :
    Marked (w.turn i step) := by
  unfold World.turn
  split
  · exact h
  · next c hc =>
    obtain ⟨xs, ys, hw, hset⟩ := calls_split hc
    intro id hk
    rw [hset]
    rcases hs w.account c id hk with hid | ⟨hid, hold⟩
    · exact ⟨_, List.mem_append_right _ List.mem_cons_self, hid⟩
    · -- the mark is that of another call, which is still there
      obtain ⟨c₀, hc₀, hid₀⟩ := h id hold
      rw [hw, List.mem_append, List.mem_cons] at hc₀
      rcases hc₀ with hx | rfl | hy
      · exact ⟨c₀, List.mem_append_left _ hx, hid₀⟩
      · exact absurd hid₀ hid
      · exact ⟨c₀, List.mem_append_right _ (List.mem_cons_of_mem _ hy), hid₀⟩

/-- A move that gives no job another status and adds at most a call keeps the marks. -/
theorem Marked.mono {w w' : World} (h : w.Marked)
    (hl : ∀ id job, w'.ledger.jobs.get? id = some job → w.ledger.jobs.get? id = some job)
    (hc : ∀ c ∈ w.calls, c ∈ w'.calls) : w'.Marked := by
  rintro id ⟨job, hj, hk⟩
  obtain ⟨c, hcw, hid⟩ := h id ⟨job, hl id job hj, hk⟩
  exact ⟨c, hc c hcw, hid⟩

theorem Marked.move {w : World} (h : w.Marked) (a : Actuator) (m : Move) : (w.move a m).Marked := by
  cases m with
  | enqueue as =>
    obtain ⟨new, hl, -, -⟩ := w.ledger.enqueue_spec as
    refine h.mono (fun id job hj => ?_) fun c hc => hc
    rw [show (w.move a (.enqueue as)).ledger = (w.ledger.enqueue as).1 from rfl, hl] at hj
    exact hj
  | flush =>
    refine h.mono (fun id job hj => ?_) fun c hc => List.mem_append_left _ hc
    rwa [← takeBatches_jobs w.ledger a.batchLimit]
  | killJobs jobs => exact h.mono (fun _ _ hj => hj) fun c hc => List.mem_append_left _ hc
  | killAgents as => exact h.mono (fun _ _ hj => hj) fun c hc => List.mem_append_left _ hc
  | killAll => exact h.mono (fun _ _ hj => hj) fun c hc => List.mem_append_left _ hc
  | markTerminal id =>
    rcases w.move_markTerminal a id with ⟨-, hw⟩ | ⟨job, l', hr, hw⟩
    · rwa [hw]
    · obtain ⟨-, rfl⟩ := removeJob_spec hr
      rw [hw]
      refine h.mono (fun id' job' hj => ?_) fun c hc => hc
      simp only [World.ledger, record_jobs, Table.get?_erase] at hj
      split at hj
      · cases hj
      · exact hj
  | goOn i => exact h.turn i (goOn_keepsMarks a)
  | answer i reply => exact h.turn i (answer_keepsMarks a reply)
  | drop i => exact h.turn i drop_keepsMarks

theorem marked_after (a : Actuator) (ms : List Move) : (after a ms).Marked :=
  run_keeps (fun _ m h => h.move a m) (fun _ ⟨_, hj, _⟩ => by cases hj) ms

end World

/-- Jobs are marked only while they are being cancelled. -/
structure Unstuck (w : World) : Prop where
  /-- A job that is marked is one of those for which a cancellation waits. -/
  marked : ∀ {id job}, w.ledger.job? id = some job → job.status = .killing →
    ∃ jobs, Call.reached (.waiting (.kill jobs)) ∈ w.calls ∧ id ∈ jobs
  /-- As soon as no cancellation is under way, all jobs are active. -/
  idle : (∀ c ∈ w.calls, c.cancels = false) →
    ∀ {id job}, w.ledger.job? id = some job → job.status = .active

/-- **No job is ever stuck in its cancellation**, whatever calls overlap and however they end. -/
theorem no_job_stays_marked (a : Actuator) (ms : List Move) : Unstuck (World.after a ms) := by
  have h := World.marked_after a ms
  generalize World.after a ms = w at h
  refine ⟨fun {id job} hj hk => ?_, fun hidle {id job} hj => ?_⟩
  · obtain ⟨c, hc, hid⟩ := h id ⟨job, hj, hk⟩
    unfold Call.marks at hid
    split at hid
    · next jobs => exact ⟨jobs, hc, hid⟩
    · cases hid
  · cases hs : job.status with
    | active => rfl
    | killing =>
      obtain ⟨c, hc, hid⟩ := h id ⟨job, hj, hs⟩
      cases (hidle c hc).symm.trans (Call.cancels_of_mem_marks hid)

end Overlap

end ClusterAgents
