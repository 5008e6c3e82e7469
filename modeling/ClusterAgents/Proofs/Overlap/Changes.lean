import ClusterAgents.Proofs.Ledgers
import ClusterAgents.Proofs.Overlap.World

/-!
# What one move changes

Whatever a call does in one go, it changes the ledger in one of six ways (`Change`): several batches
are given up, a batch becomes a job, jobs get another status, jobs are taken out, a failed
cancellation is reported, or nothing happens.  A change says which batches it finishes and which events
it tells, and a call finishes batches of its own only, the first ones of those it has left
(`goOn_steps`, `answer_steps`, `drop_steps`).

All that is proved about calls that overlap is proved for the six changes, and for the moves with which
calls begin; `World.turn_cases` and `World.turn_keeps` lead from the one to the other.
-/

namespace ClusterAgents

namespace Ledger

/-- Several batches failed for one reason. -/
def failAll (l : Ledger) (bs : List (BatchId × List AgentId)) (error : String) : Ledger :=
  bs.foldl (fun l b => (l.failBatch b.1 error).1) l

/-- The ledger after a change, the batches that it finishes and the events that it tells. -/
inductive Change (l : Ledger) : Ledger → List (BatchId × List AgentId) → List Event → Prop
  | nothing : Change l l [] []
  | failed (bs : List (BatchId × List AgentId)) (error : String) :
      Change l (l.failAll bs error) bs (bs.map fun b => .submissionFailed b.1 error)
  | activated (job : Job) :
      Change l (l.activate job).1 [(job.batch, job.agents)] [.submitted job.batch job.id]
  | marked (ids : List JobId) (status : JobStatus) : Change l (l.setStatus ids status) [] []
  | forgotten (ids : List JobId) :
      Change l (ids.foldl Actuator.forget l) [] (ids.map .killed)
  | reported (ids : List JobId) (cause : String) :
      Change l (l.record (.killFailed ids cause)) [] [.killFailed ids cause]

theorem failAll_cons (l : Ledger) (b : BatchId × List AgentId) (bs : List (BatchId × List AgentId))
    (error : String) : l.failAll (b :: bs) error = (l.failBatch b.1 error).1.failAll bs error := rfl

/-- Giving up batches takes them out of flight. -/
theorem failAll_inFlight (l : Ledger) (bs : List (BatchId × List AgentId)) (error : String) :
    (l.failAll bs error).inFlight.entries =
      l.inFlight.entries.filter fun e => e.1 ∉ bs.map (·.1) := by
  induction bs generalizing l with
  | nil => simp [failAll]
  | cons b bs ih =>
    rw [failAll_cons, ih, failBatch_fst, record_inFlight]
    simp only [Table.erase, List.filter_filter]
    refine List.filter_congr fun e _ => ?_
    by_cases h : e.1 = b.1 <;> simp [h]

/-- Giving up batches touches nothing else. -/
theorem failAll_frame (l : Ledger) (bs : List (BatchId × List AgentId)) (error : String) :
    (l.failAll bs error).pending = l.pending ∧ (l.failAll bs error).jobs = l.jobs ∧
      (l.failAll bs error).hosts = l.hosts ∧ (l.failAll bs error).counter = l.counter := by
  induction bs generalizing l with
  | nil => exact ⟨rfl, rfl, rfl, rfl⟩
  | cons b bs ih =>
    rw [failAll_cons]
    obtain ⟨h1, h2, h3, h4⟩ := ih (l.failBatch b.1 error).1
    rw [h1, h2, h3, h4]
    simp

/-- What taking a job out leaves. -/
theorem forget_cases (l : Ledger) (id : JobId) :
    (∃ job l', l.removeJob id = some (job, l') ∧ Actuator.forget l id = l'.record (.killed id)) ∨
      l.removeJob id = none ∧ Actuator.forget l id = l.record (.killed id) := by
  rw [Actuator.forget]
  cases h : l.removeJob id with
  | none => exact .inr ⟨rfl, rfl⟩
  | some p => exact .inl ⟨p.1, p.2, rfl, rfl⟩

/-- Taking a job out touches jobs and hosts only. -/
theorem forget_frame (l : Ledger) (id : JobId) :
    (Actuator.forget l id).pending = l.pending ∧ (Actuator.forget l id).inFlight = l.inFlight ∧
      (Actuator.forget l id).counter = l.counter := by
  rcases forget_cases l id with ⟨job, l', hr, hf⟩ | ⟨-, hf⟩
  · obtain ⟨-, rfl⟩ := removeJob_spec hr
    rw [hf]
    exact ⟨rfl, rfl, rfl⟩
  · rw [hf]
    exact ⟨rfl, rfl, rfl⟩

theorem Sound.forget {l : Ledger} (h : l.Sound) (id : JobId) : (Actuator.forget l id).Sound := by
  rcases forget_cases l id with ⟨job, l', hr, hf⟩ | ⟨-, hf⟩
  · rw [hf]
    exact (h.removeJob hr).record _
  · rw [hf]
    exact h.record _

theorem foldl_forget_frame (l : Ledger) (ids : List JobId) :
    (ids.foldl Actuator.forget l).pending = l.pending ∧
      (ids.foldl Actuator.forget l).inFlight = l.inFlight ∧
      (ids.foldl Actuator.forget l).counter = l.counter := by
  induction ids generalizing l with
  | nil => exact ⟨rfl, rfl, rfl⟩
  | cons id ids ih =>
    obtain ⟨h1, h2, h3⟩ := ih (Actuator.forget l id)
    obtain ⟨f1, f2, f3⟩ := forget_frame l id
    exact ⟨h1.trans f1, h2.trans f2, h3.trans f3⟩

/-- The jobs that are left when one was taken out. -/
theorem forget_jobs (l : Ledger) (id id' : JobId) :
    (Actuator.forget l id).jobs.get? id' = if id' = id then none else l.jobs.get? id' := by
  rcases forget_cases l id with ⟨job, l', hr, hf⟩ | ⟨hr, hf⟩
  · obtain ⟨-, rfl⟩ := removeJob_spec hr
    rw [hf, record_jobs, Table.get?_erase]
  · have hn : l.jobs.get? id = none := Option.map_eq_none_iff.mp hr
    rw [hf, record_jobs]
    split
    · next e => rw [e, hn]
    · rfl

/-- The hosts that are left when a job was taken out. -/
theorem forget_hosts (l : Ledger) (id : JobId) (x : AgentId) :
    (Actuator.forget l id).hosts.get? x =
      if ∃ job, l.jobs.get? id = some job ∧ x ∈ job.agents then none else l.hosts.get? x := by
  rcases forget_cases l id with ⟨job, l', hr, hf⟩ | ⟨hr, hf⟩
  · obtain ⟨hj, rfl⟩ := removeJob_spec hr
    rw [hf, record_hosts, Table.get?_foldl_erase]
    exact if_congr (by simp [hj]) rfl rfl
  · have hn : l.jobs.get? id = none := Option.map_eq_none_iff.mp hr
    rw [hf, record_hosts, if_neg (by simp [hn])]

/-- Taking jobs out takes out exactly these. -/
theorem foldl_forget_jobs (l : Ledger) (ids : List JobId) (id : JobId) :
    (ids.foldl Actuator.forget l).jobs.get? id = if id ∈ ids then none else l.jobs.get? id := by
  induction ids generalizing l with
  | nil => simp
  | cons i ids ih =>
    rw [List.foldl_cons, ih, forget_jobs]
    by_cases h : id = i <;> simp [h]

/-- Taking jobs out frees exactly the agents that they host. -/
theorem foldl_forget_hosts (l : Ledger) (ids : List JobId) (x : AgentId) :
    (ids.foldl Actuator.forget l).hosts.get? x =
      if ∃ id ∈ ids, ∃ job, l.jobs.get? id = some job ∧ x ∈ job.agents then none
      else l.hosts.get? x := by
  induction ids generalizing l with
  | nil => simp
  | cons i ids ih =>
    rw [List.foldl_cons, ih, forget_hosts]
    simp only [forget_jobs]
    by_cases hi : ∃ job, l.jobs.get? i = some job ∧ x ∈ job.agents
    · have hm : ∃ id ∈ i :: ids, ∃ job, l.jobs.get? id = some job ∧ x ∈ job.agents :=
        ⟨i, List.mem_cons_self, hi⟩
      rw [if_pos hi, if_pos hm, ite_self]
    · rw [if_neg hi]
      refine if_congr ⟨?_, ?_⟩ rfl rfl
      · rintro ⟨id, hid, job, hj, hx⟩
        split at hj
        · cases hj
        · exact ⟨id, List.mem_cons_of_mem _ hid, job, hj, hx⟩
      · rintro ⟨id, hid, job, hj, hx⟩
        have hne : id ≠ i := fun e => hi ⟨job, e ▸ hj, hx⟩
        refine ⟨id, (List.mem_cons.mp hid).resolve_left hne, job, ?_, hx⟩
        rw [if_neg hne]
        exact hj

namespace Change

variable {l l' : Ledger} {bs : List (BatchId × List AgentId)} {es : List Event}

/-- A change takes out of flight what it finishes, and nothing else. -/
theorem inFlight (h : Change l l' bs es) :
    l'.inFlight.entries = l.inFlight.entries.filter fun e => e.1 ∉ bs.map (·.1) := by
  cases h with
  | failed bs error => exact failAll_inFlight l bs error
  | activated job => simp [activate_fst, Table.erase]
  | forgotten ids => rw [(foldl_forget_frame l ids).2.1]; simp
  | _ => simp [setStatus]

theorem pending (h : Change l l' bs es) : l'.pending = l.pending := by
  cases h with
  | failed bs error => exact (failAll_frame l bs error).1
  | activated job => rw [activate_fst, record_pending]
  | forgotten ids => exact (foldl_forget_frame l ids).1
  | reported ids cause => rw [record_pending]
  | _ => rfl

theorem counter (h : Change l l' bs es) : l'.counter = l.counter := by
  cases h with
  | failed bs error => exact (failAll_frame l bs error).2.2.2
  | activated job => rw [activate_fst, record_counter]
  | forgotten ids => exact (foldl_forget_frame l ids).2.2
  | reported ids cause => rw [record_counter]
  | _ => rfl

/-- A change tells one outcome of each batch that it finishes, and of no other. -/
theorem told (h : Change l l' bs es) : es.filterMap Event.batch? = bs.map (·.1) := by
  cases h with
  | failed bs error => simp [List.filterMap_map, Function.comp_def, Event.batch?]
  | forgotten ids => simp [List.filterMap_map, Function.comp_def, Event.batch?]
  | _ => simp [Event.batch?]

/-- A change records the events that it tells. -/
theorem latest (h : Change l l' bs es) {history : List Event}
    (hl : l.events = Ledger.latest history) : l'.events = Ledger.latest (history ++ es) := by
  cases h with
  | failed bs error =>
    induction bs generalizing l history with
    | nil => simpa [failAll] using hl
    | cons b bs ih =>
      have := ih (l := (l.failBatch b.1 error).1) (record_events hl (.submissionFailed b.1 error))
      simpa [failAll_cons] using this
  | activated job =>
    rw [activate_fst]
    exact record_events hl _
  | forgotten ids =>
    induction ids generalizing l history with
    | nil => simpa using hl
    | cons id ids ih =>
      have hf : (Actuator.forget l id).events = Ledger.latest (history ++ [.killed id]) := by
        rcases forget_cases l id with ⟨job, l', hr, hf⟩ | ⟨-, hf⟩
        · obtain ⟨-, rfl⟩ := removeJob_spec hr
          rw [hf]
          exact record_events hl _
        · rw [hf]
          exact record_events hl _
      simpa using ih hf
  | reported ids cause => exact record_events hl _
  | nothing => rwa [List.append_nil]
  | marked ids status => rwa [List.append_nil]

/-- A job that is there after a change was there before, or the change told of it. -/
theorem jobs (h : Change l l' bs es) {id : JobId} {job : Job} (hj : l'.jobs.get? id = some job) :
    (∃ job', l.jobs.get? id = some job' ∧ job'.batch = job.batch) ∨
      Event.submitted job.batch id ∈ es := by
  cases h with
  | nothing => exact .inl ⟨job, hj, rfl⟩
  | failed bs error => exact .inl ⟨job, (failAll_frame l bs error).2.1 ▸ hj, rfl⟩
  | activated job' =>
    rw [activate_fst, record_jobs, Table.get?_insert] at hj
    split at hj
    · next e => cases hj; exact .inr (by simp [e])
    · exact .inl ⟨job, hj, rfl⟩
  | marked ids status =>
    rw [setStatus_get?] at hj
    obtain ⟨job', hj', rfl⟩ := Option.map_eq_some_iff.mp hj
    refine .inl ⟨job', hj', ?_⟩
    split <;> rfl
  | forgotten ids =>
    rw [foldl_forget_jobs] at hj
    split at hj
    · cases hj
    · exact .inl ⟨job, hj, rfl⟩
  | reported ids cause => exact .inl ⟨job, by rwa [record_jobs] at hj, rfl⟩

/-- A change keeps a ledger in order if what it finishes is in flight. -/
theorem sound (h : Change l l' bs es) (hl : l.Sound) (hb : ∀ b ∈ bs, b ∈ l.inFlight.entries) :
    l'.Sound := by
  cases h with
  | nothing => exact hl
  | failed bs error =>
    clear hb
    induction bs generalizing l with
    | nil => exact hl
    | cons b bs ih => exact ih (hl.failBatch b.1 error)
  | activated job => exact hl.activate (hb _ (List.mem_singleton.mpr rfl))
  | marked ids status => exact hl.setStatus ids status
  | forgotten ids => exact List.foldlRecOn ids Actuator.forget hl fun _ hl id _ => hl.forget id
  | reported ids cause => exact hl.record _

end Change

end Ledger

namespace Overlap

open Actuator Ledger

/-! ### steps of a call -/

/-- A step of a call is a change that finishes the first ones of the batches it has left. -/
def Steps (step : Account → Call → Account × Call × List Event) : Prop :=
  ∀ s c, ∃ bs, c.batches = bs ++ (step s c).2.1.batches ∧
    Change s.ledger (step s c).1.ledger bs (step s c).2.2

/-- Entering what became of a batch is a change. -/
theorem settle_change (a : Actuator) (s : Account) (b : Batch) (result : Outcome JobId) :
    Change s.ledger (a.settle s b result).ledger [(b.id, b.agents)] [verdict b.id result] := by
  cases result with
  | ok id => exact .activated (job b id)
  | error e => exact .failed [(b.id, b.agents)] e.message

theorem goOn_steps (a : Actuator) : Steps (Call.goOn a) := by
  intro s c
  unfold Call.goOn
  split
  · exact ⟨[], rfl, .nothing⟩
  · next id agents rest done =>
    split
    · exact ⟨[], rfl, .nothing⟩
    · next e _ => exact ⟨[(id, agents)], rfl, settle_change a s (a.batch id agents) (.error e)⟩
  · next jobs =>
    refine ⟨[], ?_, ?_⟩ <;> unfold killJobs <;> dsimp only <;> split
    · rfl
    · rfl
    · exact .nothing
    · exact .marked _ .killing
  · exact ⟨[], rfl, .reported _ _⟩
  · exact ⟨[], rfl, .nothing⟩

theorem answer_steps (a : Actuator) (reply : Outcome Output) : Steps (Call.answer a reply) := by
  intro s c
  unfold Call.answer
  split
  · next f =>
    split
    · exact ⟨[], rfl, .nothing⟩
    · next notices result _ =>
      exact ⟨[(f.batch.id, f.batch.agents)], rfl,
        settle_change a (s.noteAll notices) f.batch result⟩
  · next jobs =>
    split
    · exact ⟨[], rfl, .forgotten jobs⟩
    · exact ⟨[], rfl, .marked jobs .active⟩
  · exact ⟨[], rfl, .nothing⟩

/-- Giving up batches one after the other. -/
theorem abandonBatches_ledger (s : Account) (bs : List (BatchId × List AgentId)) :
    ((bs.map (·.1)).foldl abandonBatch s).ledger =
      s.ledger.failAll bs "Submission was abandoned" := by
  induction bs generalizing s with
  | nil => rfl
  | cons b bs ih =>
    rw [List.map_cons, List.foldl_cons, ih]
    rfl

theorem drop_steps : Steps Call.drop := by
  intro s c
  unfold Call.drop
  split
  · next f =>
    refine ⟨f.unfinished, by simp [Call.batches], ?_⟩
    have hc := Change.failed (l := s.ledger) f.unfinished "Submission was abandoned"
    rw [← abandonBatches_ledger] at hc
    exact hc
  · exact ⟨[], rfl, .marked _ .active⟩
  · exact ⟨[], rfl, .nothing⟩

/-! ### steps of a world -/

namespace World

/-- A call in its place among the others. -/
theorem calls_split {w : World} {i : Nat} {c : Call} (h : w.calls[i]? = some c) :
    ∃ xs ys, w.calls = xs ++ c :: ys ∧ ∀ c', w.calls.set i c' = xs ++ c' :: ys := by
  obtain ⟨hi, hc⟩ := List.getElem?_eq_some_iff.mp h
  refine ⟨w.calls.take i, w.calls.drop (i + 1), ?_, fun c' => ?_⟩
  · rw [← hc, List.getElem_cons_drop, List.take_append_drop]
  · rw [List.set_eq_take_append_cons_drop, if_pos hi]

/-- **What a step of a call does**: nothing, or a change that finishes batches of that call. -/
theorem turn_cases (w : World) {step : Account → Call → Account × Call × List Event} (hs : Steps step)
    (i : Nat) :
    w.turn i step = w ∨ ∃ xs c ys bs s' c' es, w.calls = xs ++ c :: ys ∧ c.batches = bs ++ c'.batches ∧
      Change w.ledger s'.ledger bs es ∧
      w.turn i step = { w with account := s', calls := xs ++ c' :: ys, history := w.history ++ es } := by
  unfold turn
  split
  · exact .inl rfl
  · next c hc =>
    obtain ⟨xs, ys, hw, hset⟩ := calls_split hc
    obtain ⟨bs, hbs, hch⟩ := hs w.account c
    exact .inr ⟨xs, c, ys, bs, _, _, _, hw, hbs, hch, by rw [hset]⟩

/-- **What every change keeps, a step of a call keeps.** -/
theorem turn_keeps {P : World → Prop} {w : World} (h : P w)
    {step : Account → Call → Account × Call × List Event} (hs : Steps step) (i : Nat)
    (hP : ∀ xs c ys bs s' c' es, w.calls = xs ++ c :: ys → c.batches = bs ++ c'.batches →
      Change w.ledger s'.ledger bs es →
      P { w with account := s', calls := xs ++ c' :: ys, history := w.history ++ es }) :
    P (w.turn i step) := by
  rcases w.turn_cases hs i with he | ⟨xs, c, ys, bs, s', c', es, hw, hbs, hch, he⟩
  · rwa [he]
  · rw [he]
    exact hP xs c ys bs s' c' es hw hbs hch

/-- A job that is known to have ended is taken out, if there is one of that id. -/
theorem move_markTerminal (a : Actuator) (w : World) (id : JobId) :
    (w.ledger.removeJob id = none ∧ w.move a (.markTerminal id) = w) ∨
      ∃ job l', w.ledger.removeJob id = some (job, l') ∧ w.move a (.markTerminal id) =
        { w with
          account := { w.account with ledger := l'.record (.finished id) }
          history := w.history ++ [.finished id] } := by
  cases hr : w.ledger.removeJob id with
  | none => exact .inl ⟨rfl, by simp [move, Actuator.markTerminal, hr]⟩
  | some p => exact .inr ⟨p.1, p.2, rfl, by simp [move, Actuator.markTerminal, hr]⟩

end World

end Overlap

end ClusterAgents
