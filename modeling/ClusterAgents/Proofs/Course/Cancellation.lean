import ClusterAgents.Proofs.Course.Talk
import ClusterAgents.Proofs.Overlap.Tidy
import ClusterAgents.Proofs.Overlap.Marks

/-!
# Cancellations that nobody disturbs

A cancellation marks its jobs, runs one command for all of them, and then takes them out or takes the marks back.
The command may fail in several ways, and whoever waits for it may leave; a failure is told of, and that is all it
leaves behind.

* `FirstSeen` — the entries of a list, each once, in the order in which they first occur;
* `Ledger.Calm` — no job is marked, so that marks can be taken back without a trace (`Ledger.Calm.unmark`);
* `failed_cancellation_is_undone` — a cancellation that fails changes nothing but the events, and trying again is
  as good as trying once;
* `bulk_cancellation_is_exact` — a cancellation that succeeds takes out its jobs with their agents, and no others.
-/

namespace ClusterAgents

/-- A list has the entries of another one, each of them once and in the order in which they first occur there. -/
structure FirstSeen {α : Type} [DecidableEq α] (xs ys : List α) : Prop where
  mem : ∀ x, x ∈ ys ↔ x ∈ xs
  sorted : ys.Pairwise fun x y => xs.idxOf x < xs.idxOf y

theorem firstSeen_distinct {α : Type} [DecidableEq α] (xs : List α) : FirstSeen xs (Ledger.distinct xs) where
  mem _ := Ledger.mem_distinct
  sorted := by
    have h := Ledger.pairwise_distinct_filterMap some xs
    simpa [List.idxOf] using h

namespace Ledger

/-! ### marks that are taken back -/

/-- No job is marked, and no id stands twice. -/
structure Calm (l : Ledger) : Prop where
  keyed : l.jobs.keys.Nodup
  active : ∀ {id job}, l.jobs.get? id = some job → job.status = .active

theorem Calm.of_jobs {l l' : Ledger} (h : l.Calm) (hj : l'.jobs = l.jobs) : l'.Calm := by
  constructor
  · rw [hj]
    exact h.keyed
  · intro id job hjob
    rw [hj] at hjob
    exact h.active hjob

theorem setStatus_entries (l : Ledger) (ids : List JobId) (status : JobStatus) :
    (l.setStatus ids status).jobs.entries =
      l.jobs.entries.map fun e => (e.1, if e.1 ∈ ids then { e.2 with status } else e.2) :=
  Table.entries_foldl_modify l.jobs ids (fun job : Job => { job with status }) fun _ => rfl

/-- **Marks that are taken back leave no trace** where no job was marked before. -/
theorem Calm.unmark {l : Ledger} (h : l.Calm) (ids : List JobId) :
    (l.setStatus ids .killing).setStatus ids .active = l := by
  have hentries : ((l.setStatus ids .killing).setStatus ids .active).jobs.entries = l.jobs.entries := by
    rw [setStatus_entries, setStatus_entries, List.map_map]
    refine (List.map_congr_left fun e he => ?_).trans (List.map_id _)
    have hactive : e.2.status = .active := h.active ((Table.get?_eq_some_iff h.keyed).mpr he)
    obtain ⟨id, job⟩ := e
    by_cases hid : id ∈ ids
    · simp [hid, ← hactive]
    · simp [hid]
  have hjobs : ((l.setStatus ids .killing).setStatus ids .active).jobs = l.jobs := congrArg Table.mk hentries
  unfold setStatus at hjobs ⊢
  dsimp only at hjobs ⊢
  rw [hjobs]

/-- What a ledger says, but for the events. -/
def books (l : Ledger) : Ledger := { l with events := [] }

@[simp] theorem record_books (l : Ledger) (e : Event) : (l.record e).books = l.books := by
  simp only [books, record]

theorem books_forget (l : Ledger) (id : JobId) : (Actuator.forget l id).books = (Actuator.forget l.books id).books := by
  have hjob : l.books.job? id = l.job? id := rfl
  simp only [Actuator.forget, removeJob, hjob, record_books]
  cases l.job? id with
  | none => rfl
  | some job => rfl

theorem books_foldl_forget (l : Ledger) (ids : List JobId) :
    (ids.foldl Actuator.forget l).books = (ids.foldl Actuator.forget l.books).books := by
  induction ids generalizing l with
  | nil => rfl
  | cons id ids ih =>
    rw [List.foldl_cons, List.foldl_cons, ih, books_forget, ← ih]

/-- The ledger after jobs were marked and then taken out. -/
def takeOut (l : Ledger) (ids : List JobId) : Ledger := ids.foldl Actuator.forget (l.setStatus ids .killing)

theorem books_takeOut {l l' : Ledger} (h : l.books = l'.books) (ids : List JobId) :
    (l.takeOut ids).books = (l'.takeOut ids).books := by
  have hmark : ∀ k : Ledger, (k.setStatus ids .killing).books = k.books.setStatus ids .killing := fun _ => rfl
  rw [takeOut, takeOut, books_foldl_forget, hmark, h, ← hmark, ← books_foldl_forget]

/-! ### jobs that are taken out -/

theorem setStatus_agents {l : Ledger} {ids : List JobId} {status : JobStatus} {id : JobId} {x : AgentId} :
    (∃ job, (l.setStatus ids status).jobs.get? id = some job ∧ x ∈ job.agents) ↔
      ∃ job, l.jobs.get? id = some job ∧ x ∈ job.agents := by
  rw [setStatus_get?]
  cases l.jobs.get? id with
  | none => simp
  | some job => by_cases hid : id ∈ ids <;> simp [hid]

theorem takeOut_jobs (l : Ledger) (ids : List JobId) (id : JobId) :
    (l.takeOut ids).jobs.get? id = if id ∈ ids then none else l.jobs.get? id := by
  rw [takeOut, foldl_forget_jobs, setStatus_get?]
  by_cases hid : id ∈ ids <;> simp [hid]

theorem takeOut_hosts (l : Ledger) (ids : List JobId) (x : AgentId) :
    (l.takeOut ids).hosts.get? x =
      if ∃ id ∈ ids, ∃ job, l.jobs.get? id = some job ∧ x ∈ job.agents then none else l.hosts.get? x := by
  rw [takeOut, foldl_forget_hosts]
  simp only [setStatus_agents]
  rfl

/-- Jobs were taken out of a ledger, and nothing else. -/
structure TakesOut (l l' : Ledger) (ids : List JobId) : Prop where
  gone : ∀ id ∈ ids, l'.job? id = none
  others : ∀ id, id ∉ ids → l'.job? id = l.job? id
  hosted : ∀ id job, id ∉ ids → l.job? id = some job → ∀ x ∈ job.agents, l'.jobOf? x = some id
  freed : ∀ id job, id ∈ ids → l.job? id = some job → ∀ x ∈ job.agents, l'.jobOf? x = none
  pending : l'.pending = l.pending
  inFlight : l'.inFlight = l.inFlight
  counter : l'.counter = l.counter
  /-- Each of them is told of, whether there was such a job or not. -/
  told : l'.events = latest (l.events ++ ids.map .killed)

/-- **Taking jobs out** leaves the others with their agents, since no agent has two jobs. -/
theorem Sound.takesOut {l : Ledger} (h : l.Sound) (hlatest : l.events = latest l.events) (ids : List JobId) :
    l.TakesOut (l.takeOut ids) ids := by
  obtain ⟨hpending, hinFlight, hcounter⟩ := foldl_forget_frame (l.setStatus ids .killing) ids
  constructor
  · intro id hid
    rw [job?, takeOut_jobs, if_pos hid]
  · intro id hid
    rw [job?, takeOut_jobs, if_neg hid, job?]
  · intro id job hid hj x hx
    have hother : ¬ ∃ id' ∈ ids, ∃ job', l.jobs.get? id' = some job' ∧ x ∈ job'.agents := by
      rintro ⟨id', hid', job', hj', hx'⟩
      have hsame := (h.hosted hj x hx).symm.trans (h.hosted hj' x hx')
      rw [Option.some.inj hsame] at hid
      exact hid hid'
    rw [jobOf?, takeOut_hosts, if_neg hother]
    exact h.hosted hj x hx
  · intro id job hid hj x hx
    rw [jobOf?, takeOut_hosts, if_pos ⟨id, hid, job, hj, hx⟩]
  · exact hpending
  · exact hinFlight
  · exact hcounter
  · exact (Change.forgotten (l := l.setStatus ids .killing) ids).latest hlatest

end Ledger

namespace Overlap.World

open Ledger

theorem calm_after (a : Actuator) {ms : List Move} (hidle : ∀ c ∈ (after a ms).calls, c.cancels = false) :
    (after a ms).ledger.Calm where
  keyed := (tidy_after a ms).jobs
  active {id job} hj := by
    -- a mark would be that of a call that is under way
    by_contra hne
    have hk : job.status = .killing := by
      cases hs : job.status with
      | active => exact absurd hs hne
      | killing => rfl
    obtain ⟨c, hc, hid⟩ := marked_after a ms id ⟨job, hj, hk⟩
    have := hidle c hc
    rw [Call.cancels_of_mem_marks hid] at this
    cases this

end Overlap.World

namespace Actuator

open Ledger Overlap

variable {a : Actuator} {s : Account} {jobs : List JobId}

/-! ### how the command ends -/

/-- A cancel command succeeds if it ends in time, and with the status zero. -/
theorem killFailure?_heard {reply : Option (Outcome Output)} {program : String} :
    killFailure? program (a.heard reply) = none ↔ ∃ o, reply = some (.ok o) ∧ o.status = 0 := by
  cases reply with
  | none => simp [heard, killFailure?]
  | some answer =>
    cases answer with
    | error e => simp [heard, killFailure?]
    | ok o => simp [heard, killFailure?, Output.isSuccess]

theorem distinct_ne_nil (h : jobs ≠ []) : distinct jobs ≠ [] := by
  obtain ⟨id, hid⟩ := List.exists_mem_of_ne_nil jobs h
  exact List.ne_nil_of_mem (mem_distinct.mpr hid)

theorem undisturbed_killJobs_nil (host : Respondent) : a.undisturbed host (killJobs [] s) = ((s, .killed true), []) :=
  a.undisturbed_killJobs host [] s

/-- A cancellation whose command succeeds takes out its jobs. -/
theorem undisturbed_killJobs_ok (host : Respondent) (s : Account) (h : jobs ≠ [])
    (ho : ∃ o, host [] (a.cancelRequest jobs) = some (.ok o) ∧ o.status = 0) :
    (a.undisturbed host (killJobs jobs s)).1 = (s.update (·.takeOut (distinct jobs)), .killed true) := by
  rw [undisturbed_killJobs, if_neg (distinct_ne_nil h), killed, killFailure?_heard.mpr ho]
  rfl

/-- A cancellation whose command fails takes its marks back and tells of it. -/
theorem undisturbed_killJobs_error (host : Respondent) (s : Account) (h : jobs ≠ [])
    (ho : ¬ ∃ o, host [] (a.cancelRequest jobs) = some (.ok o) ∧ o.status = 0) :
    ∃ s' cause, killFailure? a.scheduler.cancel (a.heard (host [] (a.cancelRequest jobs))) = some cause ∧
      (a.undisturbed host (killJobs jobs s)).1 = (s', .killed false) ∧
      s'.ledger = ((s.ledger.setStatus (distinct jobs) .killing).setStatus (distinct jobs) .active).record
        (.killFailed (distinct jobs) cause) := by
  cases hk : killFailure? a.scheduler.cancel (a.heard (host [] (a.cancelRequest jobs))) with
  | none => exact absurd (killFailure?_heard.mp hk) ho
  | some cause =>
    rw [undisturbed_killJobs, if_neg (distinct_ne_nil h), killed, hk]
    exact ⟨_, cause, rfl, rfl, rfl⟩

/-- **How a cancellation ends**, and what that means for the ledger. -/
theorem killJobs_ends (a : Actuator) (host : Respondent) (jobs : List JobId) (s : Account) :
    ∃ s' success, (a.undisturbed host (killJobs jobs s)).1 = (s', .killed success) ∧
      (success = true ↔ jobs = [] ∨
        ∃ o, (a.undisturbed host (killJobs jobs s)).2 = [(a.cancelRequest jobs, .ok o)] ∧ o.status = 0) ∧
      (success = true → s'.ledger = s.ledger.takeOut (distinct jobs)) ∧
      (success = false → ∃ cause, s'.ledger =
        ((s.ledger.setStatus (distinct jobs) .killing).setStatus (distinct jobs) .active).record
          (.killFailed (distinct jobs) cause)) := by
  by_cases hne : jobs = []
  · subst hne
    rw [undisturbed_killJobs_nil]
    exact ⟨s, true, rfl, by simp, fun _ => rfl, nofun⟩
  · have htalk : (a.undisturbed host (killJobs jobs s)).2 =
        [(a.cancelRequest jobs, a.heard (host [] (a.cancelRequest jobs)))] := by
      rw [undisturbed_killJobs, if_neg (distinct_ne_nil hne)]
    have hanswer : (∃ o, (a.undisturbed host (killJobs jobs s)).2 = [(a.cancelRequest jobs, .ok o)] ∧ o.status = 0) ↔
        ∃ o, host [] (a.cancelRequest jobs) = some (.ok o) ∧ o.status = 0 := by
      simp only [htalk, List.cons.injEq, Prod.mk.injEq, true_and, and_true, heard_eq_ok]
    rw [hanswer]
    by_cases ho : ∃ o, host [] (a.cancelRequest jobs) = some (.ok o) ∧ o.status = 0
    · exact ⟨_, true, undisturbed_killJobs_ok host s hne ho, by simp [ho], fun _ => rfl, nofun⟩
    · obtain ⟨s', cause, -, hend, hledger⟩ := undisturbed_killJobs_error host s hne ho
      exact ⟨s', false, hend, by simp [ho, hne], nofun, fun _ => ⟨cause, hledger⟩⟩

/-! ### cancellations that fail -/

/-- What becomes of a cancellation: its command ends so, or its time runs out, or whoever waits for it leaves. -/
inductive Fate
  | heard (reply : Option (Outcome Output))
  | dropped

/-- A cancellation that does not succeed. -/
def Fate.Fails : Fate → Prop
  | .heard reply => ¬ ∃ o, reply = some (.ok o) ∧ o.status = 0
  | .dropped => True

/-- A cancellation that nobody disturbs: the account at its end, and how far it got if somebody stayed. -/
def cancellation (a : Actuator) (jobs : List JobId) (s : Account) : Fate → Account × Option Progress
  | .heard reply =>
    let ending := (a.undisturbed (fun _ _ => reply) (killJobs jobs s)).1
    (ending.1, some ending.2)
  | .dropped =>
    match killJobs jobs s with
    | (s', .waiting t) => (abandon t s', none)
    | (s', p) => (s', some p)

/-- Several cancellations, one after the other. -/
def cancellations (a : Actuator) (s : Account) (tries : List (List JobId × Fate)) : Account :=
  tries.foldl (fun s t => (a.cancellation t.1 s t.2).1) s

theorem cancellation_dropped (h : s.ledger.Calm) (hne : jobs ≠ []) :
    a.cancellation jobs s .dropped = (s, none) := by
  have hsome : (distinct jobs).isEmpty = false := by simpa using distinct_ne_nil hne
  have hback : abandon (.kill (distinct jobs)) (s.update (·.setStatus (distinct jobs) .killing)) = s := by
    have hl := h.unmark (distinct jobs)
    simp only [abandon, Account.update, hl]
  simp only [cancellation, killJobs, hsome, Bool.false_eq_true, if_false, hback]

theorem cancellation_failed (h : s.ledger.Calm) (hne : jobs ≠ []) {reply : Option (Outcome Output)}
    (hfails : (Fate.heard reply).Fails) :
    ∃ s' cause, killFailure? a.scheduler.cancel (a.heard reply) = some cause ∧
      a.cancellation jobs s (.heard reply) = (s', some (.killed false)) ∧
      s'.ledger = s.ledger.record (.killFailed (distinct jobs) cause) := by
  obtain ⟨s', cause, hcause, hend, hledger⟩ :=
    undisturbed_killJobs_error (fun _ _ => reply) s hne hfails
  rw [h.unmark] at hledger
  refine ⟨s', cause, hcause, ?_, hledger⟩
  simp only [cancellation, hend]

/-- A cancellation that does not succeed changes nothing but the events. -/
theorem cancellation_fails (h : s.ledger.Calm) (jobs : List JobId) {fate : Fate} (hfails : fate.Fails) :
    (a.cancellation jobs s fate).1.ledger.books = s.ledger.books := by
  by_cases hne : jobs = []
  · subst hne
    cases fate with
    | heard reply => simp only [cancellation, undisturbed_killJobs_nil]
    | dropped => rfl
  · cases fate with
    | heard reply =>
      obtain ⟨s', cause, -, hend, hledger⟩ := cancellation_failed (a := a) h hne hfails
      rw [hend, hledger, record_books]
    | dropped => rw [cancellation_dropped h hne]

theorem jobs_of_books {l l' : Ledger} (h : l.books = l'.books) : l.jobs = l'.jobs :=
  show l.books.jobs = l'.books.jobs from congrArg Ledger.jobs h

theorem cancellations_fail (h : s.ledger.Calm) {tries : List (List JobId × Fate)}
    (hfail : ∀ t ∈ tries, t.2.Fails) : (a.cancellations s tries).ledger.books = s.ledger.books := by
  induction tries generalizing s with
  | nil => rfl
  | cons t tries ih =>
    obtain ⟨ht, htries⟩ := List.forall_mem_cons.mp hfail
    have hbooks := cancellation_fails (a := a) h t.1 ht
    rw [cancellations, List.foldl_cons]
    exact (ih (h.of_jobs (jobs_of_books hbooks)) htries).trans hbooks

theorem cancellation_succeeded {o : Output} (ho : o.status = 0) (jobs : List JobId) (s : Account) :
    (a.cancellation jobs s (.heard (some (.ok o)))).2 = some (.killed true) ∧
      (a.cancellation jobs s (.heard (some (.ok o)))).1.ledger = s.ledger.takeOut (distinct jobs) := by
  by_cases hne : jobs = []
  · subst hne
    simp only [cancellation, undisturbed_killJobs_nil]
    exact ⟨trivial, rfl⟩
  · have hend := undisturbed_killJobs_ok (a := a) (fun _ _ => some (.ok o)) s hne ⟨o, rfl, ho⟩
    simp only [cancellation, hend]
    exact ⟨trivial, rfl⟩

end Actuator

namespace Overlap

open Actuator Ledger

/-- What cancellations that do not succeed leave behind. -/
structure Undone (a : Actuator) (s : Account) : Prop where
  /-- A failure is told of, with the ids that were to be cancelled, and nothing else remains of it. -/
  failed : ∀ jobs reply, jobs ≠ [] → (Fate.heard reply).Fails → ∃ s' ids cause, FirstSeen jobs ids ∧
    killFailure? a.scheduler.cancel (a.heard reply) = some cause ∧
    a.cancellation jobs s (.heard reply) = (s', some (.killed false)) ∧
    s'.ledger = s.ledger.record (.killFailed ids cause)
  /-- Nothing at all remains if whoever waits leaves. -/
  dropped : ∀ jobs, jobs ≠ [] → a.cancellation jobs s .dropped = (s, none)
  /-- Success means the same however often it was tried before. -/
  retried : ∀ jobs tries o, (∀ t ∈ tries, t.2.Fails) → o.status = 0 →
    (a.cancellation jobs (a.cancellations s tries) (.heard (some (.ok o)))).2 = some (.killed true) ∧
    (a.cancellation jobs (a.cancellations s tries) (.heard (some (.ok o)))).1.ledger.books =
      (a.cancellation jobs s (.heard (some (.ok o)))).1.ledger.books

/-- **A cancellation that fails is undone**, in whatever way it fails, if no other one is under way. -/
theorem failed_cancellation_is_undone (a : Actuator) {ms : List Move}
    (hidle : ∀ c ∈ (World.after a ms).calls, c.cancels = false) : Undone a (World.after a ms).account := by
  have hcalm := World.calm_after a hidle
  constructor
  · intro jobs reply hne hfails
    obtain ⟨s', cause, hcause, hend, hledger⟩ := cancellation_failed (a := a) hcalm hne hfails
    exact ⟨s', distinct jobs, cause, firstSeen_distinct jobs, hcause, hend, hledger⟩
  · intro jobs hne
    exact cancellation_dropped hcalm hne
  · intro jobs tries o hfail ho
    have hbooks := cancellations_fail (a := a) hcalm hfail
    obtain ⟨hend, hledger⟩ := cancellation_succeeded (a := a) ho jobs (a.cancellations (World.after a ms).account tries)
    obtain ⟨-, honce⟩ := cancellation_succeeded (a := a) ho jobs (World.after a ms).account
    refine ⟨hend, ?_⟩
    rw [hledger, honce]
    exact books_takeOut hbooks _

/-- A job that somebody began to cancel and left, and a batch in flight. -/
def leftAlone : List Move :=
  submission 0 ⟨1⟩ ++ [.killJobs ["7"], .goOn 1, .drop 1, .enqueue [⟨2⟩], .flush]

theorem undone_leftAlone : (∀ c ∈ (World.after lonely leftAlone).calls, c.cancels = false) ∧
    Undone lonely (World.after lonely leftAlone).account :=
  have hidle : ∀ c ∈ (World.after lonely leftAlone).calls, c.cancels = false := by decide +kernel
  ⟨hidle, failed_cancellation_is_undone lonely hidle⟩

/-- What a cancellation does to the jobs that it is to cancel, and to no others. -/
structure CancelsExactly (a : Actuator) (s : Account) (host : Respondent) (jobs ids : List JobId) : Prop where
  listed : FirstSeen jobs ids
  /-- Without any job nothing is asked, and nothing changes. -/
  nothing : jobs = [] → a.undisturbed host (killJobs jobs s) = ((s, .killed true), [])
  /-- There is one command for all of them. -/
  asked : jobs ≠ [] → (a.undisturbed host (killJobs jobs s)).2.map (·.1) = [.run a.scheduler.cancel ids]
  succeeded : ∀ o, (a.undisturbed host (killJobs jobs s)).2 = [(.run a.scheduler.cancel ids, .ok o)] → o.status = 0 →
    ∃ s', (a.undisturbed host (killJobs jobs s)).1 = (s', .killed true) ∧ s.ledger.TakesOut s'.ledger ids

theorem World.Sound.events_latest {w : World} (h : w.Sound) : w.ledger.events = Ledger.latest w.ledger.events := by
  rw [h.latest, latest_latest]

/-- **A cancellation takes out exactly what was asked for**, in whatever state it begins. -/
theorem bulk_cancellation_is_exact (a : Actuator) (ms : List Move) (host : Respondent) (jobs : List JobId) :
    ∃ ids, CancelsExactly a (World.after a ms).account host jobs ids := by
  have hw := World.sound_after a ms
  refine ⟨distinct jobs, firstSeen_distinct jobs, ?_, ?_, ?_⟩
  · rintro rfl
    exact undisturbed_killJobs_nil host
  · intro hne
    rw [undisturbed_killJobs, if_neg (distinct_ne_nil hne)]
    rfl
  · intro o htalk ho
    obtain ⟨s', success, hend, hsuccess, hledger, -⟩ := a.killJobs_ends host jobs (World.after a ms).account
    have htrue : success = true := hsuccess.mpr (.inr ⟨o, htalk, ho⟩)
    subst htrue
    refine ⟨s', hend, ?_⟩
    rw [hledger rfl]
    exact hw.ledger.takesOut hw.events_latest (distinct jobs)

end Overlap

end ClusterAgents
