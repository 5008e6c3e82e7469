import ClusterAgents.Proofs.Course.Lockstep

/-!
# What does not depend on the order of tables

Calls one after the other, with the same replies to what they ask, leave the same behind in whatever order tables are
found.  Only a cancellation of all jobs names the jobs as it finds them, to the scheduler and in the events.

* `Cancellation`, `World.Completes.cancels` — a cancellation from its beginning to its end;
* `Permuted`, `Cancellation.permuted` — what differs if its jobs stand in another order;
* `World.Serves.same`, `World.Serves.alike` — what a call returns, says and tells in two worlds that say the same;
* `Served.Alike`, `results_keep_no_order` — the same for calls one after the other.
-/

namespace ClusterAgents.Overlap

open Actuator Ledger

/-! ### cancellations -/

/-- A cancellation of jobs from a ledger on: whether it succeeds, what is said, which events are told, and the ledger
that it leaves. -/
inductive Cancellation (a : Actuator) (rs : List (Outcome Output)) (jobs : List JobId) (l : Ledger) :
    Bool → Talk → List Event → Ledger → Prop
  | nobody {l' : Ledger} (hnone : jobs = []) (hl : l.Same l') : Cancellation a rs jobs l true [] [] l'
  | cancelled {l' : Ledger} (hjobs : jobs ≠ [])
      (hcause : killFailure? a.scheduler.cancel (a.heard rs.head?) = none)
      (hl : (jobs.foldl forget (l.setStatus jobs .killing)).Same l') :
      Cancellation a rs jobs l true [(.run a.scheduler.cancel jobs, a.heard rs.head?)] (jobs.map .killed) l'
  | failed {l' : Ledger} {cause : String} (hjobs : jobs ≠ [])
      (hcause : killFailure? a.scheduler.cancel (a.heard rs.head?) = some cause)
      (hl : ((l.setStatus jobs .killing).setStatus jobs .active).Same l') :
      Cancellation a rs jobs l false [(.run a.scheduler.cancel jobs, a.heard rs.head?)] [.killFailed jobs cause] l'

/-- What is said and told of jobs that stand in one order or in another: one command at most, and either a failure or
the end of each job. -/
inductive Permuted (a : Actuator) : Talk → List Event → Talk → List Event → Prop
  | nothing : Permuted a [] [] [] []
  | killed {jobs jobs' : List JobId} (h : jobs.Perm jobs') (heard : Outcome Output) :
      Permuted a [(.run a.scheduler.cancel jobs, heard)] (jobs.map .killed)
        [(.run a.scheduler.cancel jobs', heard)] (jobs'.map .killed)
  | failed {jobs jobs' : List JobId} (h : jobs.Perm jobs') (heard : Outcome Output) (cause : String) :
      Permuted a [(.run a.scheduler.cancel jobs, heard)] [.killFailed jobs cause]
        [(.run a.scheduler.cancel jobs', heard)] [.killFailed jobs' cause]

/-- **The order of the jobs is seen in the command and in the events only.** -/
theorem Cancellation.permuted {a : Actuator} {rs : List (Outcome Output)} {jobs jobs' : List JobId} {l l' k k' : Ledger}
    {success success' : Bool} {talk talk' : Talk} {told told' : List Event}
    (h : Cancellation a rs jobs l success talk told k) (h' : Cancellation a rs jobs' l' success' talk' told' k')
    (hjobs : jobs.Perm jobs') (hs : l.Same l') (ht : l.Tidy) :
    success' = success ∧ k.Same k' ∧ Permuted a talk told talk' told' := by
  have hmem : ∀ id, id ∈ jobs ↔ id ∈ jobs' := fun _ => hjobs.mem_iff
  have hmarked := hs.setStatus hmem .killing
  cases h with
  | nobody hnone hl =>
    subst hnone
    obtain rfl := hjobs.nil_eq
    cases h' with
    | nobody _ hl' => exact ⟨rfl, hl.symm.trans (hs.trans hl'), .nothing⟩
    | cancelled hne => exact absurd rfl hne
    | failed hne => exact absurd rfl hne
  | cancelled hne hcause hl =>
    cases h' with
    | nobody hnone =>
      subst hnone
      exact absurd hjobs.eq_nil hne
    | cancelled _ _ hl' =>
      exact ⟨rfl, hl.symm.trans ((hmarked.forgets (ht.setStatus _ _) hmem).trans hl'), .killed hjobs _⟩
    | failed _ hcause' =>
      rw [hcause] at hcause'
      cases hcause'
  | failed hne hcause hl =>
    cases h' with
    | nobody hnone =>
      subst hnone
      exact absurd hjobs.eq_nil hne
    | cancelled _ hcause' =>
      rw [hcause] at hcause'
      cases hcause'
    | failed _ hcause' hl' =>
      rw [hcause] at hcause'
      cases hcause'
      exact ⟨rfl, hl.symm.trans ((hmarked.setStatus hmem .active).trans hl'), .failed hjobs _ _⟩

namespace World

variable {a : Actuator} {w w' w₁ w₁' : World} {i : Nat} {rs : List (Outcome Output)} {talk talk' : Talk}

/-- A step of a call, before which the tables are found in any order. -/
theorem turn_relists {w₀ : World} {c : Call} (hc : w.calls[i]? = some c) (hr : w.Relists w₀)
    (step : Account → Call → Account × Call × List Event) :
    (w₀.turn i step).ledger = (step w₀.account c).1.ledger ∧
      (w₀.turn i step).calls[i]? = some (step w₀.account c).2.1 ∧
      (w₀.turn i step).history = w.history ++ (step w₀.account c).2.2 := by
  have hc₀ : w₀.calls[i]? = some c := hr.calls ▸ hc
  refine ⟨?_, turn_getElem? hc₀ step, ?_⟩
  · rw [World.ledger, (turn_eq hc₀ step).1]
  · rw [turn_history hc₀, hr.history]

theorem killJobs_eq (jobs : List JobId) (s : Account) :
    killJobs jobs s =
      if distinct jobs = [] then (s, .killed true)
      else (s.update (·.setStatus (distinct jobs) .killing), .waiting (.kill (distinct jobs))) := by
  simp only [killJobs, List.isEmpty_iff]

/-- A cancellation whose command is under way. -/
theorem Completes.cancels_waiting {jobs : List JobId} (hne : jobs ≠ []) {l : Ledger} (ht : l.Tidy)
    (hl : (l.setStatus jobs .killing).Same w.ledger) (h : Completes a i w rs talk w')
    (hc : w.calls[i]? = some (.reached (.waiting (.kill jobs)))) :
    ∃ success told, Cancellation a rs jobs l success talk told w'.ledger ∧
      w'.history = w.history ++ told ∧ w'.calls[i]? = some (.reached (.killed success)) := by
  obtain ⟨w₀, rest, hr, hnext, rfl⟩ := h.of_waiting hc
  obtain ⟨hledger, hcall, hhistory⟩ := turn_relists hc hr (Call.answer a (a.heard rs.head?))
  have hl₀ := hl.trans hr.same
  cases hcause : killFailure? a.scheduler.cancel (a.heard rs.head?) with
  | none =>
    simp only [Call.answer, hcause] at hledger hcall hhistory
    obtain ⟨rfl, rfl⟩ := hnext.of_over hcall trivial
    refine ⟨true, jobs.map .killed, .cancelled hne hcause ?_, hhistory, hcall⟩
    rw [hledger]
    exact hl₀.forgets (ht.setStatus _ _) fun _ => Iff.rfl
  | some cause =>
    simp only [Call.answer, hcause, List.append_nil] at hledger hcall hhistory
    -- the failure is reported by a move of its own
    obtain ⟨w₁, hr₁, hlast⟩ := hnext.of_restless hcall trivial
    obtain ⟨hledger₁, hcall₁, hhistory₁⟩ := turn_relists hcall hr₁ (Call.goOn a)
    obtain ⟨rfl, rfl⟩ := hlast.of_over hcall₁ trivial
    refine ⟨false, [.killFailed jobs cause], .failed hne hcause ?_, ?_, hcall₁⟩
    · have hunmarked := (hl₀.setStatus (fun _ => Iff.rfl) .active).trans (hledger ▸ hr₁.same)
      rw [hledger₁]
      exact hunmarked.trans (Same.record_self _ _)
    · rw [hhistory₁, hhistory]
      rfl

/-- **A cancellation from its beginning to its end.** -/
theorem Completes.cancels {jobs : List JobId} (h : Completes a i w rs talk w') (hw : w.InOrder)
    (hc : w.calls[i]? = some (.chosen jobs)) :
    ∃ success told, Cancellation a rs (distinct jobs) w.ledger success talk told w'.ledger ∧
      w'.history = w.history ++ told ∧ w'.calls[i]? = some (.reached (.killed success)) := by
  obtain ⟨w₀, hr, hnext⟩ := h.of_restless hc trivial
  obtain ⟨hledger, hcall, hhistory⟩ := turn_relists hc hr (Call.goOn a)
  simp only [Call.goOn, killJobs_eq, List.append_nil] at hledger hcall hhistory
  by_cases hnone : distinct jobs = []
  · simp only [if_pos hnone] at hledger hcall
    obtain ⟨rfl, rfl⟩ := hnext.of_over hcall trivial
    exact ⟨true, [], .nobody hnone (hledger ▸ hr.same), by rw [hhistory, List.append_nil], hcall⟩
  · simp only [if_neg hnone] at hledger hcall
    have hmarked := hr.same.setStatus (fun id => Iff.rfl (a := id ∈ distinct jobs)) .killing
    have hrest := hnext.cancels_waiting hnone hw.tidy (hledger ▸ hmarked) hcall
    rwa [hhistory] at hrest

/-! ### one call in two worlds -/

/-- A call that is over at once. -/
theorem atOnce_same {u : Use} {result result' : Result} (h : u.atOnce a w = some (result, w₁))
    (h' : u.atOnce a w' = some (result', w₁')) (hw : w.InOrder) (hw' : w'.InOrder) (hs : w.ledger.Same w'.ledger) :
    result' = result ∧ w₁.ledger.Same w₁'.ledger ∧ ToldAlike w w' w₁ w₁' := by
  have ht := hw.tidy
  cases u with
  | enqueue agents =>
    cases h
    cases h'
    obtain ⟨hledger, hadded⟩ := hs.enqueue ht agents
    exact ⟨congrArg Result.added hadded, hledger, .nothing rfl rfl⟩
  | markTerminal id =>
    cases h
    cases h'
    rcases hs.removeJob ht id with ⟨hnone, hnone'⟩ | ⟨job, k, k', hsome, hsome', hk⟩
    · simp only [move, Actuator.markTerminal, hnone, hnone', Option.map_none]
      exact ⟨trivial, hs, .nothing rfl rfl⟩
    · simp only [move, Actuator.markTerminal, hsome, hsome', Option.map_some]
      exact ⟨trivial, hk.record _ _, [.finished id], rfl, rfl⟩
  | liveJobs =>
    cases h
    cases h'
    exact ⟨congrArg Result.jobs (hw.liveJobs hw' hs), hs, .nothing rfl rfl⟩
  | job id =>
    cases h
    cases h'
    exact ⟨congrArg Result.job (hs.job? ht id), hs, .nothing rfl rfl⟩
  | jobOf x =>
    cases h
    cases h'
    exact ⟨congrArg Result.host (hs.jobOf? ht x), hs, .nothing rfl rfl⟩
  | agentsOf id =>
    cases h
    cases h'
    refine ⟨?_, hs, .nothing rfl rfl⟩
    rw [hs.job? ht id]
  | _ => cases h

/-- **A call returns the same in two worlds that say the same**, and asks and tells the same, unless it cancels all
jobs. -/
theorem Serves.same {u : Use} (hu : u ≠ .killAll) {result result' : Result} (h : w.Serves a rs u result talk w₁)
    (h' : w'.Serves a rs u result' talk' w₁') (hw : w.InOrder) (hw' : w'.InOrder) (hs : w.ledger.Same w'.ledger) :
    result' = result ∧ w₁.ledger.Same w₁'.ledger ∧ talk' = talk ∧ ToldAlike w w' w₁ w₁' := by
  cases h with
  | atOnce hr hfirst =>
    cases h' with
    | atOnce hr' hfirst' =>
      have hfound := hr.same.symm.trans (hs.trans hr'.same)
      obtain ⟨hresult, hledger, htold⟩ := atOnce_same hfirst hfirst' (hw.relists hr) (hw'.relists hr') hfound
      exact ⟨hresult, hledger, rfl, (ToldAlike.nothing hr.history hr'.history).trans htold⟩
    | call hms' =>
      rw [Use.opening_eq_none hfirst] at hms'
      cases hms'
  | call hms hopen hc hp =>
    cases h' with
    | atOnce hr' hfirst' =>
      rw [Use.opening_eq_none hfirst'] at hms
      cases hms
    | call hms' hopen' hc' hp' =>
      obtain rfl := Option.some.inj (hms.symm.trans hms')
      obtain ⟨hstep, htalk⟩ := hc.same_of_opening hu hms hopen hopen' hw hs hc'
      have hend := hstep.call
      rw [hp, hp'] at hend
      cases hend
      exact ⟨rfl, hstep.ledger, htalk, hstep.told⟩

/-- A cancellation of all jobs, in the order in which it finds them. -/
theorem Serves.cancels_all {result : Result} (h : w.Serves a rs .killAll result talk w₁) (hw : w.InOrder) :
    ∃ jobs l success told, jobs.Perm (distinct (w.ledger.jobs.values.map (·.id))) ∧ w.ledger.Same l ∧
      Cancellation a rs jobs l success talk told w₁.ledger ∧ w₁.history = w.history ++ told ∧
      result = .reached (.killed success) := by
  cases h with
  | atOnce hr hfirst => cases hfirst
  | @call _ w₂ _ _ _ hms hopen hc hp =>
    cases hms
    obtain ⟨_, ⟨w₀, hr, rfl⟩, hfound⟩ := hopen
    have hfound : (w₀.move a .killAll).Relists w₂ := hfound
    have hledger : w.ledger.Same w₂.ledger := hr.same.trans hfound.same
    have hcall : w₂.calls[w.calls.length]? = some (.chosen (w₀.ledger.jobs.values.map (·.id))) := by
      rw [hfound.calls, ← hr.calls]
      exact List.getElem?_concat_length
    have hbegun : w₂.InOrder := (hw.moves ⟨w₀, hr, rfl⟩).relists hfound
    obtain ⟨success, told, hcancels, htold, hend⟩ := hc.cancels hbegun hcall
    refine ⟨_, _, success, told, distinct_perm (hr.same.jobs.values.symm.map _), hledger, hcancels, ?_, ?_⟩
    · rw [htold, hfound.history]
      exact congrArg (· ++ told) hr.history
    · rw [hp] at hend
      cases hend
      rfl

theorem Serves.permuted {result result' : Result} (h : w.Serves a rs .killAll result talk w₁)
    (h' : w'.Serves a rs .killAll result' talk' w₁') (hw : w.InOrder) (hw' : w'.InOrder)
    (hs : w.ledger.Same w'.ledger) :
    result' = result ∧ w₁.ledger.Same w₁'.ledger ∧ ∃ told told', Permuted a talk told talk' told' ∧
      w₁.history = w.history ++ told ∧ w₁'.history = w'.history ++ told' := by
  obtain ⟨jobs, l, success, told, hjobs, hl, hcancels, htold, rfl⟩ := h.cancels_all hw
  obtain ⟨jobs', l', success', told', hjobs', hl', hcancels', htold', rfl⟩ := h'.cancels_all hw'
  have hperm : jobs.Perm jobs' := hjobs.trans ((distinct_perm (hs.jobs.values.map _)).trans hjobs'.symm)
  obtain ⟨rfl, hledger, hpermuted⟩ :=
    hcancels.permuted hcancels' hperm (hl.symm.trans (hs.trans hl')) (hl.tidy hw.tidy)
  exact ⟨rfl, hledger, told, told', hpermuted, htold, htold'⟩

end World

/-! ### calls one after the other -/

/-- **What a call leaves in one order of the tables and in another.** -/
structure Served.Alike (a : Actuator) (r r' : Served) : Prop where
  use : r'.use = r.use
  result : r'.result = r.result
  same : r.use ≠ .killAll → r'.talk = r.talk ∧ r'.told = r.told
  permuted : r.use = .killAll → Permuted a r.talk r.told r'.talk r'.told

namespace World

variable {a : Actuator} {w w' w₁ w₁' : World}

/-- One call in two worlds, with what each of them has told meanwhile. -/
theorem Serves.alike {u : Use} {rs : List (Outcome Output)} {result result' : Result} {talk talk' : Talk}
    {told told' : List Event} (h : w.Serves a rs u result talk w₁) (h' : w'.Serves a rs u result' talk' w₁')
    (htold : w₁.history = w.history ++ told) (htold' : w₁'.history = w'.history ++ told') (hw : w.InOrder)
    (hw' : w'.InOrder) (hs : w.ledger.Same w'.ledger) :
    Served.Alike a ⟨u, result, talk, told⟩ ⟨u, result', talk', told'⟩ ∧ w₁.ledger.Same w₁'.ledger := by
  by_cases hu : u = .killAll
  · subst hu
    obtain ⟨hresult, hledger, es, es', hpermuted, hes, hes'⟩ := h.permuted h' hw hw' hs
    obtain rfl := List.append_cancel_left (htold.symm.trans hes)
    obtain rfl := List.append_cancel_left (htold'.symm.trans hes')
    exact ⟨⟨rfl, hresult, fun hne => absurd rfl hne, fun _ => hpermuted⟩, hledger⟩
  · obtain ⟨hresult, hledger, htalk, es, hes, hes'⟩ := h.same hu h' hw hw' hs
    obtain rfl := List.append_cancel_left (htold.symm.trans hes)
    obtain rfl := List.append_cancel_left (htold'.symm.trans hes')
    exact ⟨⟨rfl, hresult, fun _ => ⟨htalk, rfl⟩, fun he => absurd he hu⟩, hledger⟩

theorem Serial.alike {us : List (Use × List (Outcome Output))} {served served' : List Served}
    (h : w.Serial a us served w₁) (h' : w'.Serial a us served' w₁') (hw : w.InOrder) (hw' : w'.InOrder)
    (hs : w.ledger.Same w'.ledger) :
    List.Forall₂ (Served.Alike a) served served' ∧ w₁.ledger.Same w₁'.ledger := by
  induction h generalizing w' served' with
  | nil w =>
    cases h'
    exact ⟨.nil, hs⟩
  | cons h htold hrest ih =>
    cases h' with
    | cons h' htold' hrest' =>
      obtain ⟨ms, hms⟩ := h.runs
      obtain ⟨ms', hms'⟩ := h'.runs
      obtain ⟨halike, hledger⟩ := h.alike h' htold htold' hw hw' hs
      obtain ⟨hall, hend⟩ := ih hrest' (hw.runs hms) (hw'.runs hms') hledger
      exact ⟨.cons halike hall, hend⟩

end World

/-- Two ledgers of which every question has the same answer. -/
structure SaysSame (l l' : Ledger) : Prop where
  pending : l'.pending = l.pending
  inFlight : ∀ id, l'.inFlight.get? id = l.inFlight.get? id
  jobs : ∀ id, l'.job? id = l.job? id
  hosts : ∀ x, l'.jobOf? x = l.jobOf? x
  counter : l'.counter = l.counter

/-- That no order in which tables are found can be told from what an actuator does. -/
structure KeepsNoOrder (a : Actuator) : Prop where
  /-- Whatever calls overlap, every job is listed once, in the order of the batches. -/
  listed : ∀ ms w, World.Runs a {} ms w → (∀ job, job ∈ w.ledger.liveJobs ↔ ∃ id, w.ledger.job? id = some job) ∧
    w.ledger.liveJobs.Pairwise (fun j j' => j.batch < j'.batch) ∧
    ∀ w', w.Relists w' → w'.ledger.liveJobs = w.ledger.liveJobs
  /-- Calls one after the other come to their end, whatever they find and hear. -/
  served : ∀ w us, ∃ served w', World.Serial a w us served w'
  /-- They are runs, and the events of a run are those that its calls tell. -/
  told : ∀ us served w, World.Serial a {} us served w →
    (∃ ms, World.Runs a {} ms w) ∧ w.history = served.flatMap (·.told)
  /-- In two orders they leave the same behind. -/
  reproduced : ∀ us served served' w w', World.Serial a {} us served w → World.Serial a {} us served' w' →
    List.Forall₂ (Served.Alike a) served served' ∧ SaysSame w.ledger w'.ledger

/-- **The results do not depend on the order of tables.** -/
theorem results_keep_no_order (a : Actuator) : KeepsNoOrder a where
  listed ms w hrun := by
    have hw := World.InOrder.empty.runs hrun
    exact ⟨hw.mem_liveJobs, hw.liveJobs_increasing, fun w' hr => hw.liveJobs (hw.relists hr) hr.same⟩
  served w us := World.exists_serial a w us
  told us served w h := h.runs
  reproduced us served served' w w' h h' := by
    obtain ⟨halike, hs⟩ := h.alike h' .empty .empty (.refl _)
    obtain ⟨⟨ms, hms⟩, -⟩ := h.runs
    have ht : w.ledger.Tidy := (World.InOrder.empty.runs hms).tidy
    exact ⟨halike, hs.pending, hs.inFlight.get? ht.inFlight, hs.job? ht, hs.jobOf? ht, hs.counter⟩

end ClusterAgents.Overlap
