import ClusterAgents.Actuator.Rehearsal
import ClusterAgents.Proofs.Overlap.Agents
import ClusterAgents.Proofs.Overlap.Index

/-!
# How a batch is submitted

The submission of a batch asks three things of the submission host, one after the other: to keep the
script, to run the submit command, and to keep the id of the job.  Each of them may be answered in any
way, or not at all, and in between other calls go on.

* `Actuator.protocol` — what is asked, and what comes of it: only the first two answers matter;
* `attend` — the same step by step, where a submission is that gets some answers;
* `World.Settles` — a move enters the result into the ledger: the batch becomes a job, or it is forgotten;
* `World.Sound.attends` — along a run a submission goes where its answers lead it, whatever else moves;
* `submission_follows_protocol` — all of this for a whole submission.
-/

namespace ClusterAgents

namespace Text

/-- A job id is found exactly where there is a digit on the first line. -/
theorem jobId?_isSome_iff {output : String} :
    (jobId? output).isSome ↔ ∃ line, firstLine? output = some line ∧ ∃ c ∈ line.toList, isDigit c := by
  have found (cs : List Char) : (firstDigits? cs).isSome ↔ ∃ c ∈ cs, isDigit c := by
    unfold firstDigits?
    induction cs with
    | nil => simp
    | cons c cs ih =>
      by_cases hc : isDigit c
      · simp [hc]
      · simp only [hc, List.dropWhile_cons, Bool.not_false, if_true]
        simpa [hc] using ih
  unfold jobId?
  cases firstLine? output with
  | none => simp
  | some line => simpa using found line.toList

end Text

namespace Actuator

open Text

variable {a : Actuator} {b : Batch}

/-- What a call gets to hear from the submission host: the reply, or that its time is up. -/
def heard (a : Actuator) (reply : Option (Outcome Output)) : Outcome Output :=
  reply.getD (.error (Rehearsal.overdue a.cluster.timeout))

theorem heard_eq_ok {reply : Option (Outcome Output)} {o : Output} :
    a.heard reply = .ok o ↔ reply = some (.ok o) := by
  cases reply <;> simp [heard]

/-- **The protocol of a submission**: what is asked of the submission host, and what comes of it, if this
is heard of the script and of the submit command. -/
def protocol (a : Actuator) (b : Batch) (stored started : Outcome Output) :
    List Request × Outcome JobId :=
  match a.render b with
  | .error e => ([], .error e)
  | .ok script =>
    match stored with
    | .error e => ([.write b.scriptPath script], .error e)
    | .ok _ =>
      match started with
      | .error e => ([.write b.scriptPath script, .run a.scheduler.submit [b.scriptPath]], .error e)
      | .ok o =>
        if o.status = 0 then
          match jobId? o.stdout with
          | some id =>
            ([.write b.scriptPath script, .run a.scheduler.submit [b.scriptPath], .write b.jobIdPath id],
              .ok id)
          | none =>
            ([.write b.scriptPath script, .run a.scheduler.submit [b.scriptPath]],
              .error (.jobIdMissing o.stdout))
        else
          ([.write b.scriptPath script, .run a.scheduler.submit [b.scriptPath]],
            .error (submitFailure a.scheduler.submit o))

/-- A submission succeeds if there is a script that was kept, and the submit command succeeded and printed
the id of a job. -/
theorem protocol_eq_ok {stored started : Outcome Output} {id : JobId} :
    (a.protocol b stored started).2 = .ok id ↔
      (∃ script, a.render b = .ok script) ∧ (∃ o, stored = .ok o) ∧
        ∃ o, started = .ok o ∧ o.status = 0 ∧ jobId? o.stdout = some id := by
  unfold protocol
  cases a.render b with
  | error e => simp
  | ok script =>
    cases stored with
    | error e => simp
    | ok o =>
      cases started with
      | error e => simp
      | ok o =>
        by_cases hs : o.status = 0
        · cases hj : jobId? o.stdout <;> simp [hs, hj]
        · simp [hs]

end Actuator

namespace Overlap

open Actuator Ledger

/-! ### answers -/

/-- What a submission at some stage asks for. -/
def asks (a : Actuator) (b : Batch) (st : Stage) : Request :=
  Task.request a.scheduler (.flush ⟨b, st, [], []⟩)

/-- What a submission at some stage asks for, and where it is after some answers. -/
def attend (a : Actuator) (b : Batch) : Stage → List (Outcome Output) →
    List Request × (Stage ⊕ Outcome JobId)
  | st, [] => ([], .inl st)
  | st, reply :: replies =>
    match (a.judge b st reply).2 with
    | .inl st' => (asks a b st :: (attend a b st' replies).1, (attend a b st' replies).2)
    | .inr result => ([asks a b st], .inr result)

/-- After three answers a submission is over, as the protocol says. -/
theorem attend_eq_protocol {a : Actuator} {b : Batch} {script : String} (h : a.render b = .ok script)
    (stored started noted : Outcome Output) :
    attend a b (.storing script) [stored, started, noted] =
      ((a.protocol b stored started).1, .inr (a.protocol b stored started).2) := by
  unfold protocol
  rw [h]
  cases stored with
  | error e => rfl
  | ok o =>
    cases started with
    | error e => rfl
    | ok o =>
      by_cases hs : o.status = 0
      · have hs' : o.isSuccess = true := by simpa [Output.isSuccess] using hs
        cases hj : Text.jobId? o.stdout with
        | none => simp [attend, judge, submitted, hs, hs', hj, asks, Task.request]
        | some id => cases noted <;> simp [attend, judge, submitted, hs, hs', hj, asks, Task.request]
      · have hs' : o.isSuccess = false := by simpa [Output.isSuccess] using hs
        simp [attend, judge, submitted, hs, hs', asks, Task.request]

/-! ### the moves of one call -/

/-- The moves of a run that one call makes. -/
def movesOf (i : Nat) (ms : List Move) : List Move := ms.filter (·.call? == some i)

section MovesOf

variable {i : Nat} {m : Move} {ms ns : List Move}

theorem movesOf_eq_nil : movesOf i ms = [] ↔ ∀ m ∈ ms, m.call? ≠ some i := by
  simp [movesOf, List.filter_eq_nil_iff]

/-- The first move that a call makes in a run, with those of others in front. -/
theorem movesOf_eq_cons : movesOf i ms = m :: ns ↔
    ∃ us vs, ms = us ++ m :: vs ∧ (∀ u ∈ us, u.call? ≠ some i) ∧ m.call? = some i ∧ movesOf i vs = ns := by
  simp [movesOf, List.filter_eq_cons_iff]

end MovesOf

namespace World

variable {a : Actuator} {w : World} {i : Nat} {b : Batch} {rest : List (BatchId × List AgentId)}
  {done : List Submission}

/-- What a call that waits asks for. -/
def waitsFor? (s : Scheduler) (w : World) (i : Nat) : Option Request :=
  match w.calls[i]? with
  | some (.reached (.waiting t)) => some (t.request s)
  | _ => none

/-- What a call asked for when it gets an answer. -/
def asked (a : Actuator) (i : Nat) (w : World) : Move → List Request
  | .answer j _ => if j = i then (w.waitsFor? a.scheduler i).toList else []
  | _ => []

theorem asked_of_ne {m : Move} (hm : m.call? ≠ some i) : asked a i w m = [] := by
  cases m with
  | answer j reply => exact if_neg fun e => hm (congrArg some e)
  | _ => rfl

theorem along_asked_of_ne {ms : List Move} (hms : ∀ m ∈ ms, m.call? ≠ some i) :
    along a (asked a i) w ms = [] := by
  induction ms generalizing w with
  | nil => rfl
  | cons m ms ih =>
    obtain ⟨hm, hms⟩ := List.forall_mem_cons.mp hms
    rw [along, asked_of_ne hm, ih hms, List.append_nil]

/-! ### what is entered -/

/-- A move enters what became of a batch: the batch, which was in flight, becomes a job or is forgotten. -/
structure Settles (a : Actuator) (w : World) (m : Move) (b : Batch) (result : Outcome JobId) : Prop where
  flying : w.ledger.inFlight.get? b.id = some b.agents
  landed : (w.move a m).ledger.inFlight.get? b.id = none
  told : w.tells a m = [verdict b.id result]
  /-- A batch that was submitted is a job from now on, which hosts its agents. -/
  submitted : ∀ id, result = .ok id →
    (∀ id', (w.move a m).ledger.job? id' =
      if id' = id then some ⟨id, b.id, b.agents, .active, b.workingDir⟩ else w.ledger.job? id') ∧
    ∀ x, (w.move a m).ledger.jobOf? x = if x ∈ b.agents then some id else w.ledger.jobOf? x
  /-- A batch that failed changes no job and no host. -/
  failed : ∀ e, result = .error e →
    (w.move a m).ledger.jobs = w.ledger.jobs ∧ (w.move a m).ledger.hosts = w.ledger.hosts

theorem Sound.settles (h : w.Sound) {m : Move} {c : Call} {result : Outcome JobId}
    {step : Account → Call → Account × Call × List Event} (hm : w.move a m = w.turn i step)
    (hc : w.calls[i]? = some c) (hb : (b.id, b.agents) ∈ c.batches)
    (hl : (step w.account c).1.ledger = (a.settle w.account b result).ledger)
    (he : (step w.account c).2.2 = [verdict b.id result]) : Settles a w m b result := by
  have hledger : (w.move a m).ledger = (a.settle w.account b result).ledger := by
    rw [hm, World.ledger, (turn_eq hc step).1, hl]
  have hch := settle_change a w.account b result
  rw [← hledger] at hch
  refine ⟨?_, ?_, ?_, ?_, ?_⟩
  · exact (Table.get?_eq_some_iff h.ledger.keyed).mpr (h.mem_inFlight (List.mem_of_getElem? hc) hb)
  · rw [Table.get?_eq_none_iff, Table.keys, hch.inFlight]
    simp
  · rw [tells, hm, turn_history hc, List.drop_left, he]
  · rintro id rfl
    have hentered : (w.move a m).ledger = (w.ledger.activate (job b id)).1 := hledger
    simp only [hentered, activate_fst, job?, jobOf?, record_jobs, record_hosts]
    exact ⟨fun id' => Table.get?_insert _ _ _ _, fun x => Table.get?_foldl_insert _ _ _ _⟩
  · rintro e rfl
    have hforgot : (w.move a m).ledger = (w.ledger.failBatch b.id e.message).1 := hledger
    rw [hforgot, failBatch_fst, record_jobs, record_hosts]
    exact ⟨rfl, rfl⟩

/-! ### a whole submission -/

/-- A submission that is over after a run: what it asked for, what came of it, and that one move entered
this into the ledger. -/
structure Attended (a : Actuator) (w : World) (i : Nat) (b : Batch) (rest : List (BatchId × List AgentId))
    (done : List Submission) (ms : List Move) (requests : List Request) (result : Outcome JobId) :
    Prop where
  asked : along a (World.asked a i) w ms = requests
  /-- The call goes on to its next batch, and will answer what became of this one. -/
  ended : (w.run a ms).calls[i]? = some (.turning rest (done ++ [⟨b.id, b.agents, result⟩]))
  settled : ∃ us u vs, ms = us ++ u :: vs ∧ Settles a (w.run a us) u b result

/-- A call that has turned to its next batch hears no answers. -/
theorem resting_run (hc : w.calls[i]? = some (.turning rest done)) {replies : List (Outcome Output)}
    {ms : List Move} (hown : movesOf i ms = replies.map (.answer i)) :
    (w.run a ms).calls[i]? = some (.turning rest done) ∧ along a (asked a i) w ms = [] := by
  induction replies generalizing w ms with
  | nil =>
    have hms := movesOf_eq_nil.mp hown
    exact ⟨run_getElem? hc hms, along_asked_of_ne hms⟩
  | cons reply replies ih =>
    obtain ⟨us, vs, rfl, hus, -, hvs⟩ := movesOf_eq_cons.mp hown
    have hc₁ : (w.run a us).calls[i]? = some (.turning rest done) := run_getElem? hc hus
    have hc₂ : ((w.run a us).move a (.answer i reply)).calls[i]? = some (.turning rest done) :=
      turn_getElem? hc₁ (Call.answer a reply)
    have hno : asked a i (w.run a us) (.answer i reply) = [] := by
      simp [asked, waitsFor?, hc₁]
    obtain ⟨hover, hasked⟩ := ih hc₂ hvs
    refine ⟨?_, ?_⟩
    · rw [run_append]
      exact hover
    · rw [along_append, along_asked_of_ne hus, along, hno, hasked]
      rfl

namespace Attended

variable {ms : List Move} {requests : List Request} {result : Outcome JobId}

theorem append (us : List Move) (h : Attended a (w.run a us) i b rest done ms requests result) :
    Attended a w i b rest done (us ++ ms) (along a (World.asked a i) w us ++ requests) result := by
  obtain ⟨hasked, hover, us', u, vs, rfl, hs⟩ := h
  refine ⟨?_, ?_, us ++ us', u, vs, by rw [List.append_assoc], ?_⟩
  · rw [along_append, hasked]
  · rw [run_append]
    exact hover
  · rw [run_append]
    exact hs

theorem others {us : List Move} (hus : ∀ u ∈ us, u.call? ≠ some i)
    (h : Attended a (w.run a us) i b rest done ms requests result) :
    Attended a w i b rest done (us ++ ms) requests result := by
  have := h.append us
  rwa [along_asked_of_ne hus, List.nil_append] at this

/-- The move that enters the result is the last one that matters. -/
theorem last {m : Move} (hs : Settles a w m b result)
    (hc : (w.move a m).calls[i]? = some (.turning rest (done ++ [⟨b.id, b.agents, result⟩])))
    {replies : List (Outcome Output)} (hown : movesOf i ms = replies.map (.answer i)) :
    Attended a w i b rest done (m :: ms) (World.asked a i w m) result := by
  obtain ⟨hover, hasked⟩ := resting_run hc hown (a := a)
  refine ⟨?_, hover, [], m, ms, rfl, hs⟩
  rw [along, hasked, List.append_nil]

/-- A batch whose submission failed never becomes a job. -/
theorem not_job (h : Attended a w i b rest done ms requests result) (hw : w.Sound) {e : Error}
    (he : result = .error e) {ms' : List Move} {id : JobId} {job : Job}
    (hj : ((w.run a ms).run a ms').ledger.job? id = some job) : job.batch ≠ b.id := by
  obtain ⟨-, -, us, u, vs, rfl, hs⟩ := h
  rw [run_append] at hj
  have hfailed : .submissionFailed b.id e.message ∈ ((w.run a us).move a u).history := by
    have htold := hs.told
    rw [he] at htold
    exact List.mem_of_mem_drop (htold ▸ List.mem_singleton.mpr rfl)
  have hstill := ((history_run a _ vs).trans (history_run a _ ms')).subset hfailed
  have hend := (((hw.run a us).move a u).run a vs).run a ms'
  intro hb
  -- two outcomes would have been told of the batch
  cases told_once (List.nodup_append'.mp hend.told_nodup).1 (hend.entered hj) hstill
    (congrArg some hb) rfl

end Attended

/-- **A submission goes where its answers lead it**, whatever else moves. -/
theorem Sound.attends (h : w.Sound) {st : Stage} {replies : List (Outcome Output)} {ms : List Move}
    (hc : w.calls[i]? = some (.reached (.waiting (.flush ⟨b, st, rest, done⟩))))
    (hown : movesOf i ms = replies.map (.answer i)) {requests : List Request} {result : Outcome JobId}
    (hp : attend a b st replies = (requests, .inr result)) :
    Attended a w i b rest done ms requests result := by
  -- answer by answer; what others do before an answer leaves the call where it is
  induction replies generalizing w st ms requests with
  | nil => cases hp
  | cons reply replies ih =>
    obtain ⟨us, vs, rfl, hus, -, hvs⟩ := movesOf_eq_cons.mp hown
    refine .others hus ?_
    have hw := h.run a us
    have hc₁ : (w.run a us).calls[i]? = _ := run_getElem? hc hus
    generalize w.run a us = w₁ at hw hc₁
    have hasked : asked a i w₁ (.answer i reply) = [asks a b st] := by
      simp [asked, waitsFor?, hc₁, asks, Task.request]
    have hc₂ : (w₁.move a (.answer i reply)).calls[i]? = _ := turn_getElem? hc₁ (Call.answer a reply)
    rw [attend, ← hasked] at hp
    rcases hj : a.judge b st reply with ⟨notices, st' | result'⟩
    · -- the submission asks for something else and waits again
      simp only [hj] at hp
      obtain ⟨rfl, hresult⟩ := Prod.mk.inj hp
      simp only [Call.answer, hj] at hc₂
      have hrest := (ih (hw.move a _) hc₂ hvs (Prod.ext rfl hresult)).append [.answer i reply]
      rwa [along, along, List.append_nil, hasked] at hrest
    · -- the submission is over, and further answers find nobody who waits for them
      simp only [hj] at hp
      obtain ⟨rfl, hresult⟩ := Prod.mk.inj hp
      cases hresult
      simp only [Call.answer, hj] at hc₂
      refine .last (hw.settles rfl hc₁ (by simp [Call.batches, Flush.unfinished]) ?_ ?_) hc₂ hvs
      · simp only [Call.answer, hj]
        cases result <;> rfl
      · simp only [Call.answer, hj]

theorem Sound.submits (h : w.Sound) {id : BatchId} {agents : List AgentId}
    (hc : w.calls[i]? = some (.turning ((id, agents) :: rest) done)) (stored started noted : Outcome Output)
    {ms : List Move} (hown : movesOf i ms = .goOn i :: [stored, started, noted].map (.answer i)) :
    Attended a w i (a.batch id agents) rest done ms (a.protocol (a.batch id agents) stored started).1
      (a.protocol (a.batch id agents) stored started).2 := by
  obtain ⟨us, vs, rfl, hus, -, hvs⟩ := movesOf_eq_cons.mp hown
  refine .others hus ?_
  have hw := h.run a us
  have hc₁ : (w.run a us).calls[i]? = _ := run_getElem? hc hus
  generalize w.run a us = w₁ at hw hc₁
  have hc₂ : (w₁.move a (.goOn i)).calls[i]? = _ := turn_getElem? hc₁ (Call.goOn a)
  cases hr : a.render (a.batch id agents) with
  | error e =>
    -- nothing is asked at all
    have hp : a.protocol (a.batch id agents) stored started = ([], .error e) := by rw [protocol, hr]
    simp only [Call.goOn, hr] at hc₂
    rw [hp]
    refine .last (m := .goOn i) (hw.settles rfl hc₁ List.mem_cons_self ?_ ?_) hc₂ hvs
    · simp only [Call.goOn, hr]
    · simp only [Call.goOn, hr]
      rfl
  | ok script =>
    simp only [Call.goOn, hr] at hc₂
    exact ((hw.move a _).attends hc₂ hvs (attend_eq_protocol hr stored started noted)).append [.goOn i]

end World

/-- **How a batch is submitted** by a call that turns to it, where this is the reply to keeping the script
and to the submit command. -/
structure FollowsProtocol (a : Actuator) (w : World) (i : Nat) (b : Batch)
    (rest : List (BatchId × List AgentId)) (done : List Submission)
    (stored started : Option (Outcome Output)) (ms : List Move) : Prop where
  /-- What is asked, what comes of it, and how that is entered. -/
  attended : World.Attended a w i b rest done ms
    (a.protocol b (a.heard stored) (a.heard started)).1 (a.protocol b (a.heard stored) (a.heard started)).2
  /-- A batch that failed does not become a job, whatever happens afterwards. -/
  forgotten : ∀ e, (a.protocol b (a.heard stored) (a.heard started)).2 = .error e →
    ∀ ms' id job, ((w.run a ms).run a ms').ledger.job? id = some job → job.batch ≠ b.id
  /-- When the submission succeeds, and what the id of the job is. -/
  succeeds : ∀ id, (a.protocol b (a.heard stored) (a.heard started)).2 = .ok id ↔
    (∃ script, a.render b = .ok script) ∧ (∃ o, stored = some (.ok o)) ∧
      ∃ o, started = some (.ok o) ∧ o.status = 0 ∧ Text.jobId? o.stdout = some id
  /-- It is enough that there is a digit on the first line. -/
  digit : (∃ id, (a.protocol b (a.heard stored) (a.heard started)).2 = .ok id) ↔
    (∃ script, a.render b = .ok script) ∧ (∃ o, stored = some (.ok o)) ∧
      ∃ o, started = some (.ok o) ∧ o.status = 0 ∧
        ∃ line, Text.firstLine? o.stdout = some line ∧ ∃ c ∈ line.toList, Text.isDigit c

/-- **Every submission follows the protocol**: whatever the replies to its three requests are, if there are
any, and whatever other calls do meanwhile. -/
theorem submission_follows_protocol (a : Actuator) {ms₀ : List Move} {i : Nat} {id : BatchId}
    {agents : List AgentId} {rest : List (BatchId × List AgentId)} {done : List Submission}
    (hc : (World.after a ms₀).calls[i]? = some (.turning ((id, agents) :: rest) done))
    (stored started noted : Option (Outcome Output)) {ms : List Move}
    (hown : movesOf i ms =
      [.goOn i, .answer i (a.heard stored), .answer i (a.heard started), .answer i (a.heard noted)]) :
    FollowsProtocol a (World.after a ms₀) i (a.batch id agents) rest done stored started ms where
  attended := (World.sound_after a ms₀).submits hc _ _ _ hown
  forgotten _ he _ _ _ :=
    ((World.sound_after a ms₀).submits hc _ _ _ hown).not_job (World.sound_after a ms₀) he
  succeeds job := by simp only [protocol_eq_ok, heard_eq_ok]
  digit := by
    simp only [protocol_eq_ok, heard_eq_ok, ← Text.jobId?_isSome_iff, Option.isSome_iff_exists]
    constructor
    · rintro ⟨job, hscript, hstored, o, ho, hs, hj⟩
      exact ⟨hscript, hstored, o, ho, hs, job, hj⟩
    · rintro ⟨hscript, hstored, o, ho, hs, job, hj⟩
      exact ⟨job, hscript, hstored, o, ho, hs, hj⟩

/-- A submission whose agent is cancelled meanwhile; nobody says whether the id of the job was kept. -/
def silentSubmission : List Move :=
  [.goOn 0, .answer 0 (lonely.heard (some (.ok {}))), .killAgents [⟨1⟩],
    .answer 0 (lonely.heard (some (.ok { stdout := "Submitted batch job 7\n" }))), .goOn 1,
    .answer 0 (lonely.heard none)]

theorem silentSubmission_followsProtocol :
    FollowsProtocol lonely (World.after lonely [.enqueue [⟨1⟩], .flush]) 0 (lonely.batch 1 [⟨1⟩]) [] []
      (some (.ok {})) (some (.ok { stdout := "Submitted batch job 7\n" })) silentSubmission := by
  have htaken : ((World.after lonely [.enqueue [⟨1⟩]]).ledger.takeBatches lonely.batchLimit).2 =
    [(1, [⟨1⟩])] := by decide +kernel
  refine submission_follows_protocol lonely ?_ _ _ none rfl
  rw [← htaken]
  rfl

end Overlap

end ClusterAgents
