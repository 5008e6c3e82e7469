import ClusterAgents.Proofs.Overlap.Agents
import ClusterAgents.Proofs.Overlap.Index
import ClusterAgents.Proofs.Overlap.Marks

/-!
# What is shown of a job

The status of a job is one entry that all cancellations write.  Each of them marks its jobs when its command
starts, and takes the mark back when the command fails or is given up; none of them looks at the others.  So a
job shows what was written last.

* `World.gives?` — the status that a move gives to a job, if it gives one;
* `World.Sound.job_run` — a job that stays shows the status that it was given last;
* `Runs`, `TakenBack`, `shown_killing_iff` — while a cancellation runs, its jobs are shown as being cancelled,
  exactly unless another one took the mark back and nobody set it again;
* `failure_hides_cancellation` — two cancellations of one job, the first of which fails.
-/

namespace ClusterAgents

namespace Overlap

open Actuator Ledger

/-- The status that a call gives to a job when its command starts. -/
def Call.starts? (id : JobId) : Call → Option JobStatus
  | .chosen jobs => if id ∈ jobs then some .killing else none
  | _ => none

/-- The status that a call gives to a job when its command fails, or when it is given up. -/
def Call.ends? (id : JobId) (c : Call) : Option JobStatus := if id ∈ c.marks then some .active else none

/-- The status that a move gives to a job, if it gives one. -/
def World.gives? (a : Actuator) (id : JobId) (w : World) : Move → Option JobStatus
  | .goOn i => w.calls[i]?.bind (Call.starts? id)
  | .answer i reply => w.calls[i]?.bind fun c =>
    if (killFailure? a.scheduler.cancel reply).isSome then c.ends? id else none
  | .drop i => w.calls[i]?.bind (Call.ends? id)
  | _ => none

/-! ### one step -/

/-- A job after a step was there before and has the status that it was given, or the step tells of it. -/
def Shows (l : Ledger) (id : JobId) (given : Option JobStatus) (es : List Event) (new : Job) : Prop :=
  (∃ old, l.jobs.get? id = some old ∧ new = { old with status := given.getD old.status }) ∨
    .submitted new.batch id ∈ es

section

variable {l : Ledger} {id : JobId} {es : List Event} {new : Job}

/-- A job that nothing happened to. -/
theorem Shows.same {given : Option JobStatus} (hgiven : given = none) (h : l.jobs.get? id = some new) :
    Shows l id given es new := by
  subst hgiven
  exact .inl ⟨new, h, rfl⟩

theorem shows_setStatus {ids : List JobId} {status : JobStatus}
    (h : (l.setStatus ids status).jobs.get? id = some new) :
    Shows l id (if id ∈ ids then some status else none) es new := by
  rw [setStatus_get?] at h
  obtain ⟨old, hold, rfl⟩ := Option.map_eq_some_iff.mp h
  refine .inl ⟨old, hold, ?_⟩
  split <;> rfl

theorem shows_settle {a : Actuator} {s : Account} {b : Batch} {result : Outcome JobId}
    (h : (a.settle s b result).ledger.jobs.get? id = some new) :
    Shows s.ledger id none [verdict b.id result] new := by
  rcases settle_jobs h with hold | ⟨rfl, rfl⟩
  · exact .same rfl hold
  · exact .inr (List.mem_singleton.mpr rfl)

theorem Call.ends?_of_marks {c : Call} (h : c.marks = []) : c.ends? id = none := by
  rw [Call.ends?, h, if_neg List.not_mem_nil]

theorem shows_goOn {a : Actuator} {s : Account} {c : Call}
    (h : (c.goOn a s).1.ledger.jobs.get? id = some new) :
    Shows s.ledger id (c.starts? id) (c.goOn a s).2.2 new := by
  cases c with
  | turning rest done =>
    cases rest with
    | nil => exact .same rfl h
    | cons b rest =>
      obtain ⟨batch, agents⟩ := b
      simp only [Call.goOn] at h ⊢
      split at h
      · exact .same rfl h
      · exact shows_settle h
  | chosen jobs =>
    have hgiven : (Call.chosen jobs).starts? id = if id ∈ distinct jobs then some .killing else none :=
      if_congr mem_distinct.symm rfl rfl
    rw [hgiven]
    simp only [Call.goOn, killJobs] at h
    split at h
    · next hnone =>
      rw [List.isEmpty_iff.mp hnone]
      exact .same (if_neg List.not_mem_nil) h
    · exact shows_setStatus h
  | failing jobs cause => exact .same rfl (by rwa [← record_jobs])
  | _ => exact .same rfl h

theorem shows_answer {a : Actuator} {reply : Outcome Output} {s : Account} {c : Call}
    (h : (c.answer a reply s).1.ledger.jobs.get? id = some new) :
    Shows s.ledger id (if (killFailure? a.scheduler.cancel reply).isSome then c.ends? id else none)
      (c.answer a reply s).2.2 new := by
  -- a call that waits for no cancel command gives no status
  have other (hmarks : c.marks = []) :
      (if (killFailure? a.scheduler.cancel reply).isSome then c.ends? id else none) = none := by
    rw [Call.ends?_of_marks hmarks, ite_self]
  cases c with
  | reached p =>
    cases p with
    | waiting t =>
      cases t with
      | flush f =>
        simp only [Call.answer] at h ⊢
        split at h
        · exact .same (other rfl) h
        · next notices _ _ =>
          rw [other rfl]
          exact shows_settle (s := s.noteAll notices) h
      | kill jobs =>
        simp only [Call.answer] at h ⊢
        split at h
        · next hgood =>
          have hjobs : (jobs.foldl forget s.ledger).jobs.get? id = some new := h
          rw [foldl_forget_jobs] at hjobs
          split at hjobs
          · cases hjobs
          · exact .same (by rw [hgood]; rfl) hjobs
        · next cause hbad =>
          rw [hbad]
          exact shows_setStatus h
    | _ => exact .same (other rfl) h
  | _ => exact .same (other rfl) h

theorem shows_drop {s : Account} {c : Call} (h : (c.drop s).1.ledger.jobs.get? id = some new) :
    Shows s.ledger id (c.ends? id) (c.drop s).2.2 new := by
  cases c with
  | reached p =>
    cases p with
    | waiting t =>
      cases t with
      | flush f =>
        have hl : (abandon (.flush f) s).ledger = s.ledger.failAll f.unfinished "Submission was abandoned" :=
          abandonBatches_ledger s f.unfinished
        simp only [Call.drop] at h
        rw [hl, (failAll_frame _ _ _).2.1] at h
        exact .same (Call.ends?_of_marks rfl) h
      | kill jobs => exact shows_setStatus h
    | _ => exact .same (Call.ends?_of_marks rfl) h
  | _ => exact .same (Call.ends?_of_marks rfl) h

end

/-! ### one move -/

namespace World

variable {a : Actuator} {w : World} {m : Move} {id : JobId} {new : Job}

theorem shows_turn {i : Nat} {step : Account → Call → Account × Call × List Event}
    {given? : Call → Option JobStatus}
    (hs : ∀ s c, (step s c).1.ledger.jobs.get? id = some new →
      Shows s.ledger id (given? c) (step s c).2.2 new)
    (h : (w.turn i step).ledger.jobs.get? id = some new) :
    Shows w.ledger id (w.calls[i]?.bind given?) ((w.turn i step).history.drop w.history.length) new := by
  cases hc : w.calls[i]? with
  | none =>
    unfold turn at h
    rw [hc] at h
    exact .same rfl h
  | some c =>
    rw [World.ledger, (turn_eq hc step).1] at h
    rw [turn_history hc, List.drop_left]
    exact hs w.account c h

/-- **What a move does to a job**: it tells that the job was submitted, or the job was there before and has the
status that the move gives it. -/
theorem shows_move (h : (w.move a m).ledger.jobs.get? id = some new) :
    Shows w.ledger id (w.gives? a id m) (w.tells a m) new := by
  cases m with
  | enqueue as =>
    obtain ⟨more, hl, -, -⟩ := w.ledger.enqueue_spec as
    rw [show (w.move a (.enqueue as)).ledger = (w.ledger.enqueue as).1 from rfl, hl] at h
    exact .same rfl h
  | flush =>
    rw [show (w.move a .flush).ledger.jobs = w.ledger.jobs from takeBatches_jobs _ _] at h
    exact .same rfl h
  | markTerminal id' =>
    rcases w.move_markTerminal a id' with ⟨-, hw⟩ | ⟨job, l', hr, hw⟩
    · rw [hw] at h
      exact .same rfl h
    · obtain ⟨-, rfl⟩ := removeJob_spec hr
      rw [hw] at h
      simp only [World.ledger, record_jobs, Table.get?_erase] at h
      split at h
      · cases h
      · exact .same rfl h
  | goOn i => exact shows_turn (fun _ _ => shows_goOn) h
  | answer i reply => exact shows_turn (fun _ _ => shows_answer) h
  | drop i => exact shows_turn (fun _ _ => shows_drop) h
  | _ => exact .same rfl h

/-- A job whose submission was told stays the same job, and changes its status at most. -/
theorem Sound.job_move (hw : w.Sound) (a : Actuator) (m : Move) (htold : .submitted new.batch id ∈ w.history)
    (h : (w.move a m).ledger.jobs.get? id = some new) :
    ∃ old, w.ledger.jobs.get? id = some old ∧
      new = { old with status := (w.gives? a id m).getD old.status } := by
  refine (shows_move h).resolve_right fun hagain => ?_
  -- the outcome of a batch is told once
  have hhistory : (w.move a m).history = w.history ++ w.tells a m := by
    obtain ⟨es, hes⟩ := history_move a w m
    rw [tells, ← hes, List.drop_left]
  have hnodup := (List.nodup_append'.mp (hw.move a m).told_nodup).1
  rw [hhistory, List.filterMap_append] at hnodup
  exact (List.nodup_append'.mp hnodup).2.2 (List.mem_filterMap.mpr ⟨_, htold, rfl⟩)
    (List.mem_filterMap.mpr ⟨_, hagain, rfl⟩)

/-- The statuses that a job is given along a run. -/
def given (a : Actuator) (id : JobId) (w : World) (ms : List Move) : List JobStatus :=
  along a (fun w m => (w.gives? a id m).toList) w ms

theorem given_cons (a : Actuator) (id : JobId) (w : World) (m : Move) (ms : List Move) :
    w.given a id (m :: ms) = (w.gives? a id m).toList ++ (w.move a m).given a id ms := rfl

theorem given_append (a : Actuator) (id : JobId) (w : World) (ms ms' : List Move) :
    w.given a id (ms ++ ms') = w.given a id ms ++ (w.run a ms).given a id ms' := along_append a _ w ms ms'

/-- **A job that stays shows the status that it was given last.** -/
theorem Sound.job_run (hw : w.Sound) (a : Actuator) (ms : List Move) (htold : .submitted new.batch id ∈ w.history)
    (h : (w.run a ms).ledger.jobs.get? id = some new) :
    ∃ old, w.ledger.jobs.get? id = some old ∧
      new = { old with status := (w.given a id ms).getLastD old.status } := by
  induction ms generalizing w with
  | nil => exact ⟨new, h, rfl⟩
  | cons m ms ih =>
    obtain ⟨mid, hmid, hnew⟩ := ih (hw.move a m) ((history_move a w m).subset htold) h
    have hbatch : new.batch = mid.batch := by rw [hnew]
    rw [hbatch] at htold
    obtain ⟨old, hold, hmid⟩ := hw.job_move a m htold hmid
    refine ⟨old, hold, ?_⟩
    rw [hnew, hmid, given_cons]
    cases w.gives? a id m with
    | none => rfl
    | some status => rw [Option.toList_some, List.singleton_append, List.getLastD_cons]; rfl

/-- The last status that a job was given comes from a move behind which it was given none. -/
theorem exists_of_getLast?_given {status : JobStatus} {ms : List Move}
    (h : (w.given a id ms).getLast? = some status) :
    ∃ ms₁ m ms₂, ms = ms₁ ++ m :: ms₂ ∧ (w.run a ms₁).gives? a id m = some status ∧
      ((w.run a ms₁).move a m).given a id ms₂ = [] := by
  induction ms using List.reverseRecOn with
  | nil => cases h
  | append_singleton ms m ih =>
    rw [given_append, given_cons] at h
    cases hm : (w.run a ms).gives? a id m with
    | some status' =>
      rw [hm] at h
      have hstatus : status' = status := by simpa [given, along] using h
      exact ⟨ms, m, [], rfl, hstatus ▸ hm, rfl⟩
    | none =>
      rw [hm] at h
      obtain ⟨ms₁, m', ms₂, rfl, hm', hnone⟩ := ih (by simpa [given, along] using h)
      refine ⟨ms₁, m', ms₂ ++ [m], by simp, hm', ?_⟩
      rw [run_append] at hm
      have hlast : (((w.run a ms₁).move a m').run a ms₂).gives? a id m = none := hm
      rw [given_append, hnone, given_cons, hlast]
      rfl

theorem getLast?_given {status : JobStatus} {ms₁ ms₂ : List Move} {m : Move}
    (hm : (w.run a ms₁).gives? a id m = some status)
    (hnone : ((w.run a ms₁).move a m).given a id ms₂ = []) :
    (w.given a id (ms₁ ++ m :: ms₂)).getLast? = some status := by
  rw [given_append, given_cons, hm, hnone]
  simp

end World

/-! ### while a cancellation runs -/

theorem Call.waiting_of_ends? {id : JobId} {c : Call} {status : JobStatus} (h : c.ends? id = some status) :
    ∃ jobs, c = .reached (.waiting (.kill jobs)) := by
  unfold Call.ends? Call.marks at h
  split at h
  · next jobs => exact ⟨jobs, rfl⟩
  · cases h

/-- A cancellation whose command is over, or that was given up. -/
inductive Call.Past : Call → Prop
  | failing (jobs : List JobId) (cause : String) : Past (.failing jobs cause)
  | killed (success : Bool) : Past (.reached (.killed success))
  | dropped : Past .dropped

theorem Call.Past.goOn {c : Call} (h : c.Past) (a : Actuator) (s : Account) : (c.goOn a s).2.1.Past := by
  cases h with
  | failing jobs cause => exact .killed false
  | killed success => exact .killed success
  | dropped => exact .dropped

theorem Call.Past.answer {c : Call} (h : c.Past) (a : Actuator) (reply : Outcome Output) (s : Account) :
    (c.answer a reply s).2.1.Past := by
  cases h with
  | failing jobs cause => exact .failing jobs cause
  | killed success => exact .killed success
  | dropped => exact .dropped

theorem Call.Past.drop {c : Call} (h : c.Past) (s : Account) : (c.drop s).2.1.Past := by
  cases h with
  | failing jobs cause => exact .failing jobs cause
  | killed success => exact .killed success
  | dropped => exact .dropped

/-- The mark of a job was taken back: the last move that gave it a status made it active, and that was no move
of the `i`-th call. -/
def TakenBack (a : Actuator) (w : World) (i : Nat) (id : JobId) (ms : List Move) : Prop :=
  ∃ ms₁ m ms₂, ms = ms₁ ++ m :: ms₂ ∧ m.call? ≠ some i ∧
    (w.run a ms₁).gives? a id m = some .active ∧ ((w.run a ms₁).move a m).given a id ms₂ = []

namespace World

variable {a : Actuator} {w : World} {i : Nat}

/-- The `i`-th call is a cancellation that is past. -/
def Past (w : World) (i : Nat) : Prop := ∃ c, w.calls[i]? = some c ∧ c.Past

theorem Past.turn (h : w.Past i) {step : Account → Call → Account × Call × List Event}
    (hs : ∀ s c, c.Past → (step s c).2.1.Past) : (w.turn i step).Past i := by
  obtain ⟨c, hc, hpast⟩ := h
  exact ⟨_, turn_getElem? hc step, hs w.account c hpast⟩

theorem Past.move (h : w.Past i) (a : Actuator) (m : Move) : (w.move a m).Past i := by
  by_cases hm : m.call? = some i
  · cases m with
    | goOn j => cases hm; exact h.turn fun s c hc => hc.goOn a s
    | answer j reply => cases hm; exact h.turn fun s c hc => hc.answer a reply s
    | drop j => cases hm; exact h.turn fun s c hc => hc.drop s
    | _ => cases hm
  · obtain ⟨c, hc, hpast⟩ := h
    exact ⟨c, move_getElem? hc hm, hpast⟩

theorem Past.run (h : w.Past i) (a : Actuator) (ms : List Move) : (w.run a ms).Past i :=
  run_keeps (P := fun w => w.Past i) (fun _ m h => h.move a m) h ms

/-- A call that takes a mark back is past. -/
theorem past_of_gives {m : Move} {id : JobId} (h : w.gives? a id m = some .active) (hm : m.call? = some i) :
    (w.move a m).Past i := by
  cases m with
  | goOn j =>
    -- a call that goes on takes nothing back
    obtain ⟨c, -, hc⟩ := Option.bind_eq_some_iff.mp h
    unfold Call.starts? at hc
    split at hc
    · split at hc <;> cases hc
    · cases hc
  | answer j reply =>
    cases hm
    obtain ⟨c, hget, hc⟩ := Option.bind_eq_some_iff.mp h
    split at hc
    · next hbad =>
      obtain ⟨jobs, rfl⟩ := Call.waiting_of_ends? hc
      obtain ⟨cause, hcause⟩ := Option.isSome_iff_exists.mp hbad
      refine ⟨_, turn_getElem? hget _, ?_⟩
      simp only [Call.answer, hcause]
      exact .failing jobs cause
    · cases hc
  | drop j =>
    cases hm
    obtain ⟨c, hget, hc⟩ := Option.bind_eq_some_iff.mp h
    obtain ⟨jobs, rfl⟩ := Call.waiting_of_ends? hc
    exact ⟨_, turn_getElem? hget _, .dropped⟩
  | _ => cases hm

end World

/-- A cancellation, the `i`-th call, runs: it found the job when it marked its jobs, its command has neither ended
nor been given up, and the job is still there. -/
structure Runs (a : Actuator) (ms₀ ms : List Move) (i : Nat) (jobs : List JobId) (id : JobId) (job : Job) :
    Prop where
  began : (World.after a ms₀).calls[i]? = some (.chosen jobs)
  listed : id ∈ jobs
  found : ∃ old, (World.after a ms₀).ledger.job? id = some old ∧ old.batch = job.batch
  waits : (World.after a (ms₀ ++ .goOn i :: ms)).calls[i]? = some (.reached (.waiting (.kill (distinct jobs))))
  stays : (World.after a (ms₀ ++ .goOn i :: ms)).ledger.job? id = some job

/-- **While a cancellation runs, its jobs are shown as being cancelled**, unless the last to write their status was
another cancellation that failed or was given up; and then they are not. -/
theorem shown_killing_iff {a : Actuator} {ms₀ ms : List Move} {i : Nat} {jobs : List JobId} {id : JobId}
    {job : Job} (h : Runs a ms₀ ms i jobs id job) :
    job.status = .killing ↔ ¬ TakenBack a (World.after a (ms₀ ++ [.goOn i])) i id ms := by
  obtain ⟨hbegan, hid, ⟨found, hfound, hsame⟩, hwaits, hstays⟩ := h
  have hw := World.sound_after a ms₀
  rw [World.after_append] at hwaits hstays
  rw [World.after_concat]
  generalize World.after a ms₀ = w at *
  change ((w.move a (.goOn i)).run a ms).calls[i]? = _ at hwaits
  have htold : .submitted job.batch id ∈ w.history := hsame ▸ hw.entered hfound
  obtain ⟨old, -, hjob⟩ := hw.job_run a (.goOn i :: ms) htold hstays
  -- the call has marked the job, and later moves may have changed that
  have hmarks : w.gives? a id (.goOn i) = some .killing := by
    simp [World.gives?, hbegan, Call.starts?, hid]
  have hstatus : job.status = ((w.move a (.goOn i)).given a id ms).getLastD .killing := by
    rw [hjob, World.given_cons, hmarks, Option.toList_some, List.singleton_append, List.getLastD_cons]
  rw [hstatus, List.getLastD_eq_getLast?]
  constructor
  · rintro hkilling ⟨ms₁, m, ms₂, rfl, -, hm, hnone⟩
    rw [World.getLast?_given hm hnone] at hkilling
    cases hkilling
  · intro hkept
    cases hlast : ((w.move a (.goOn i)).given a id ms).getLast? with
    | none => rfl
    | some status =>
      cases status with
      | killing => rfl
      | active =>
        obtain ⟨ms₁, m, ms₂, rfl, hm, hnone⟩ := World.exists_of_getLast?_given hlast
        refine absurd ⟨ms₁, m, ms₂, rfl, fun hown => ?_, hm, hnone⟩ hkept
        -- the call itself still waits, and so has taken nothing back
        rw [World.run_append] at hwaits
        obtain ⟨c, hc, hpast⟩ := (World.past_of_gives hm hown).run a ms₂
        cases hwaits.symm.trans hc
        cases hpast

/-- A job that two calls are to cancel. -/
def twoCancellations : List Move := submission 0 ⟨1⟩ ++ [.killJobs ["7"], .killJobs ["7"]]

/-- The second call starts behind the first one, and its command fails. -/
def secondFails : List Move := [.goOn 2, .answer 2 (.ok { status := 1 })]

/-- The job itself. -/
def cancelledJob (status : JobStatus) : Job := ⟨"7", 1, [⟨1⟩], status, lonely.directory 1⟩

theorem runs_secondFails : Runs lonely twoCancellations secondFails 1 ["7"] "7" (cancelledJob .active) where
  began := rfl
  listed := by decide
  found := ⟨cancelledJob .active, by decide +kernel, rfl⟩
  waits := rfl
  stays := by decide +kernel

/-- If a third call starts behind the failure of the second one, the job is shown as being cancelled again. -/
theorem mark_is_set_again :
    Runs lonely twoCancellations (secondFails ++ [.killJobs ["7"], .goOn 3]) 1 ["7"] "7"
        (cancelledJob .killing) ∧
      ¬ TakenBack lonely (World.after lonely (twoCancellations ++ [.goOn 1])) 1 "7"
        (secondFails ++ [.killJobs ["7"], .goOn 3]) := by
  have hruns : Runs lonely twoCancellations (secondFails ++ [.killJobs ["7"], .goOn 3]) 1 ["7"] "7"
      (cancelledJob .killing) :=
    { began := rfl
      listed := by decide
      found := ⟨cancelledJob .active, by decide +kernel, rfl⟩
      waits := rfl
      stays := by decide +kernel }
  exact ⟨hruns, (shown_killing_iff hruns).mp rfl⟩

/-- **A failure hides a cancellation that goes on**: the second call fails, and while the command of the first one
runs, the job is shown as active. -/
theorem failure_hides_cancellation :
    ¬ ∀ a ms₀ ms i jobs id job, Runs a ms₀ ms i jobs id job → job.status = .killing := by
  intro h
  have hshown := h _ _ _ _ _ _ _ runs_secondFails
  cases hshown

end Overlap

end ClusterAgents
