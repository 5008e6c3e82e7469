import ClusterAgents.Proofs.JobIds
import ClusterAgents.Proofs.Overlap.Cancelled
import ClusterAgents.Proofs.Overlap.Requests

/-!
# The ids that are cancelled

Whoever cancels agents does not say which jobs; the actuator finds them in its ledger.  There it only has ids that
it read from what a submit command printed, so that nothing else gets onto the command line, whatever schedulers
print and whatever calls overlap.

* `World.outputs` — what the submit commands of a run printed that succeeded;
* `Recovered` — an id that one of them shows;
* `Recovers` — all ids of a ledger are recovered, and so are those that calls are about to enter; a move keeps
  that (`Recovers.move`), and so does a run;
* `only_recovered_ids_are_cancelled` — what a call asks for that cancels agents, or all of them.
-/

namespace ClusterAgents

open Text Shell

/-! ### ids in a ledger -/

/-- All ids that a ledger has are of some kind. -/
structure Ledger.Names (P : JobId → Prop) (l : Ledger) : Prop where
  jobs : ∀ e ∈ l.jobs.entries, P e.1 ∧ P e.2.id
  hosts : ∀ e ∈ l.hosts.entries, P e.2

namespace Ledger.Names

variable {P Q : JobId → Prop} {l l' : Ledger}

theorem mono (h : l.Names P) (hP : ∀ id, P id → Q id) : l.Names Q where
  jobs e he := (h.jobs e he).imp (hP _) (hP _)
  hosts e he := hP _ (h.hosts e he)

theorem subset (h : l.Names P) (hj : l'.jobs.entries ⊆ l.jobs.entries)
    (hh : l'.hosts.entries ⊆ l.hosts.entries) : l'.Names P where
  jobs e he := h.jobs e (hj he)
  hosts e he := h.hosts e (hh he)

theorem record (h : l.Names P) (e : Event) : (l.record e).Names P :=
  h.subset (by rw [record_jobs]; exact List.Subset.refl _) (by rw [record_hosts]; exact List.Subset.refl _)

theorem removeJob (h : l.Names P) {id : JobId} {job : Job} (hr : l.removeJob id = some (job, l')) :
    l'.Names P := by
  obtain ⟨-, rfl⟩ := removeJob_spec hr
  exact h.subset (l.jobs.erase_subset id) (l.hosts.foldl_erase_subset job.agents)

theorem forget (h : l.Names P) (id : JobId) : (Actuator.forget l id).Names P := by
  rcases forget_cases l id with ⟨job, l', hr, hf⟩ | ⟨-, hf⟩
  · rw [hf]
    exact (h.removeJob hr).record _
  · rw [hf]
    exact h.record _

theorem setStatus (h : l.Names P) (ids : List JobId) (status : JobStatus) : (l.setStatus ids status).Names P where
  jobs := by
    -- the entries keep their keys, and the jobs their ids
    refine List.foldlRecOn (motive := fun t : Table JobId Job => ∀ e ∈ t.entries, P e.1 ∧ P e.2.id) ids
      _ h.jobs fun t ht id _ e he => ?_
    obtain ⟨e', he', rfl⟩ := List.mem_map.mp he
    dsimp only
    split
    · exact ht e' he'
    · exact ht e' he'
  hosts := h.hosts

theorem activate (h : l.Names P) {job : Job} (hid : P job.id) : (l.activate job).1.Names P := by
  rw [activate_fst]
  refine record ⟨fun e he => ?_, ?_⟩ _
  · rcases Table.mem_insert he with he | rfl
    · exact h.jobs e he
    · exact ⟨hid, hid⟩
  · refine List.foldlRecOn (motive := fun t : Table AgentId JobId => ∀ e ∈ t.entries, P e.2) job.agents
      _ h.hosts fun t ht x _ e he => ?_
    rcases Table.mem_insert he with he | rfl
    · exact ht e he
    · exact hid

/-- **A change names no other ids** but those that it tells of. -/
theorem change (h : l.Names P) {bs : List (BatchId × List AgentId)} {es : List Event} (hch : Change l l' bs es)
    (hes : ∀ b id, .submitted b id ∈ es → P id) : l'.Names P := by
  cases hch with
  | nothing => exact h
  | failed bs error =>
    obtain ⟨-, hj, hh, -⟩ := failAll_frame l bs error
    exact h.subset (by rw [hj]; exact List.Subset.refl _) (by rw [hh]; exact List.Subset.refl _)
  | activated job => exact h.activate (hes _ _ (List.mem_singleton.mpr rfl))
  | marked ids status => exact h.setStatus ids status
  | forgotten ids => exact List.foldlRecOn ids Actuator.forget h fun _ hk id _ => hk.forget id
  | reported ids cause => exact h.record _

end Ledger.Names

/-! ### outputs -/

/-- What the submit command printed, if that is what was asked for, and if it succeeded. -/
def Actuator.printed (a : Actuator) : Request → Outcome Output → List String
  | .run program _, .ok o => if program = a.scheduler.submit ∧ o.status = 0 then [o.stdout] else []
  | _, _ => []

/-- An id that an output shows. -/
def Recovered (outputs : List String) (id : JobId) : Prop := ∃ output ∈ outputs, IsJobId output id

theorem Recovered.mono {outputs outputs' : List String} {id : JobId} (h : Recovered outputs id)
    (hsub : outputs ⊆ outputs') : Recovered outputs' id := by
  obtain ⟨output, ho, hid⟩ := h
  exact ⟨output, hsub ho, hid⟩

namespace Overlap

open Actuator Ledger

/-- The ids that a call is about to enter. -/
def Call.noted : Call → List JobId
  | .reached (.waiting (.flush ⟨_, .noting id, _, _⟩)) => [id]
  | _ => []

/-- What a step of a call enters was noted, and what it notes is recovered. -/
structure Notes (outputs : List String) (c : Call) (r : Account × Call × List Event) : Prop where
  told : ∀ b id, .submitted b id ∈ r.2.2 → id ∈ c.noted
  noted : ∀ id ∈ r.2.1.noted, id ∈ c.noted ∨ Recovered outputs id

theorem Notes.silent {outputs : List String} {c c' : Call} {s : Account} {es : List Event}
    (hes : ∀ b id, .submitted b id ∉ es) (hc : c'.noted = []) : Notes outputs c (s, c', es) where
  told b id h := absurd h (hes b id)
  noted id h := by
    rw [show (s, c', es).2.1.noted = [] from hc] at h
    cases h

theorem Notes.stay {outputs : List String} {c : Call} {s : Account} : Notes outputs c (s, c, []) :=
  ⟨fun _ _ h => absurd h List.not_mem_nil, fun _ h => .inl h⟩

theorem goOn_notes (a : Actuator) (s : Account) (c : Call) : Notes [] c (Call.goOn a s c) := by
  unfold Call.goOn
  split
  · exact .silent (by simp) rfl
  · split
    · exact .silent (by simp) rfl
    · exact .silent (by simp [verdict]) rfl
  · refine .silent (by simp) ?_
    unfold killJobs
    dsimp only
    split <;> rfl
  · exact .silent (by simp) rfl
  · exact .stay

/-- A submission that comes to note an id has just read it. -/
theorem judge_noting {a : Actuator} {b : Batch} {st : Stage} {reply : Outcome Output} {id : JobId}
    (h : (a.judge b st reply).2 = .inl (.noting id)) :
    st = .submitting ∧ ∃ o, reply = .ok o ∧ o.status = 0 ∧ jobId? o.stdout = some id := by
  cases reply with
  | error e => cases st <;> cases h
  | ok o =>
    cases st with
    | storing script => cases h
    | noting job => cases h
    | submitting =>
      simp only [judge, submitted] at h
      split at h
      · next hsuccess =>
        refine ⟨rfl, o, rfl, by simpa [Output.isSuccess] using hsuccess, ?_⟩
        cases hj : jobId? o.stdout with
        | none => simp [hj] at h
        | some job => simpa [hj] using h
      · cases h

/-- A submission that succeeds has noted the id. -/
theorem judge_eq_ok {a : Actuator} {b : Batch} {st : Stage} {reply : Outcome Output} {id : JobId}
    (h : (a.judge b st reply).2 = .inr (.ok id)) : st = .noting id := by
  cases st with
  | storing script => cases reply <;> cases h
  | noting job => cases reply <;> cases h <;> rfl
  | submitting =>
    cases reply with
    | error e => cases h
    | ok o =>
      simp only [judge, submitted] at h
      split at h
      · cases hj : jobId? o.stdout <;> simp [hj] at h
      · cases h

theorem answer_notes (a : Actuator) (reply : Outcome Output) (s : Account) (c : Call) :
    Notes ((c.request? a.scheduler).toList.flatMap (a.printed · reply)) c (Call.answer a reply s c) := by
  unfold Call.answer
  split
  · next f =>
    rcases hj : a.judge f.batch f.stage reply with ⟨notices, stage | result⟩
    · refine ⟨fun _ _ h => absurd h List.not_mem_nil, fun id hid => .inr ?_⟩
      cases stage with
      | noting job =>
        obtain rfl := List.mem_singleton.mp hid
        obtain ⟨hstage, o, rfl, hstatus, hjob⟩ := judge_noting (congrArg Prod.snd hj)
        refine ⟨o.stdout, ?_, jobId?_eq_some.mp hjob⟩
        simp [Call.request?, Task.request, hstage, Actuator.printed, hstatus]
      | storing script => cases hid
      | submitting => cases hid
    · refine ⟨fun b id h => ?_, fun id hid => by cases hid⟩
      cases result with
      | error e => cases List.mem_singleton.mp h
      | ok job =>
        cases List.mem_singleton.mp h
        obtain ⟨batch, stage, rest, done⟩ := f
        obtain rfl : stage = .noting id := judge_eq_ok (congrArg Prod.snd hj)
        exact List.mem_singleton.mpr rfl
  · split
    · exact .silent (by simp) rfl
    · exact .silent (by simp) rfl
  · exact .stay

theorem drop_notes (s : Account) (c : Call) : Notes [] c (Call.drop s c) := by
  unfold Call.drop
  split
  · exact .silent (by simp [Event.abandoned]) rfl
  · exact .silent (by simp) rfl
  · exact .stay

/-! ### runs -/

namespace World

/-- What the submit command printed that a move is the answer to, if it succeeded. -/
def printed (a : Actuator) (w : World) : Move → List String
  | .answer i reply => (w.waitsFor? a.scheduler i).toList.flatMap (a.printed · reply)
  | _ => []

/-- **What the submit commands of a run printed** that succeeded. -/
def outputs (a : Actuator) (ms : List Move) : List String := along a (printed a) {} ms

end World

/-- **The invariant of ids**: those in the ledger, and those that calls are about to enter, were read from what
submit commands printed. -/
structure Recovers (w : World) (outputs : List String) : Prop where
  ledger : w.ledger.Names (Recovered outputs)
  noted : ∀ c ∈ w.calls, ∀ id ∈ c.noted, Recovered outputs id

namespace Recovers

variable {a : Actuator} {w w' : World} {outputs : List String}

theorem mono (h : Recovers w outputs) (new : List String) : Recovers w (outputs ++ new) where
  ledger := h.ledger.mono fun _ hid => hid.mono (List.subset_append_left _ _)
  noted c hc id hid := (h.noted c hc id hid).mono (List.subset_append_left _ _)

theorem turn (h : Recovers w outputs) {i : Nat} {step : Account → Call → Account × Call × List Event}
    (hstep : Steps step) {new : List String}
    (hnotes : ∀ c, w.calls[i]? = some c → Notes new c (step w.account c)) :
    Recovers (w.turn i step) (outputs ++ new) := by
  cases hc : w.calls[i]? with
  | none =>
    rw [World.turn_of_none hc]
    exact h.mono new
  | some c =>
    obtain ⟨htold, hnoted⟩ := hnotes c hc
    obtain ⟨haccount, hcalls⟩ := World.turn_eq hc step
    obtain ⟨bs, -, hch⟩ := hstep w.account c
    have hmem := List.mem_of_getElem? hc
    have hold := h.mono new
    constructor
    · rw [World.ledger, haccount]
      exact hold.ledger.change hch fun b id he => hold.noted c hmem id (htold b id he)
    · intro c' hc' id hid
      rw [hcalls] at hc'
      rcases List.mem_or_eq_of_mem_set hc' with hc' | rfl
      · exact hold.noted c' hc' id hid
      · rcases hnoted id hid with hid | hid
        · exact hold.noted c hmem id hid
        · exact hid.mono (List.subset_append_right _ _)

theorem begin (h : Recovers w outputs) {c : Call} (hc : c.noted = []) : Recovers (w.begin c) outputs where
  ledger := h.ledger
  noted c' hc' id hid := by
    rcases List.mem_append.mp hc' with hc' | hc'
    · exact h.noted c' hc' id hid
    · rw [List.mem_singleton.mp hc', hc] at hid
      cases hid

/-- **A move brings no id** but one that a submit command printed. -/
theorem move (h : Recovers w outputs) (hw : w.Sound) (m : Move) :
    Recovers (w.move a m) (outputs ++ w.printed a m) := by
  -- what nobody answers, and what leaves the ids of the ledger alone
  have quiet {w' : World} (h' : Recovers w' outputs) : Recovers w' (outputs ++ []) := h'.mono []
  cases m with
  | enqueue as =>
    obtain ⟨new, hl, -, -⟩ := w.ledger.enqueue_spec as
    refine quiet ⟨?_, h.noted⟩
    rw [show (w.move a (.enqueue as)).ledger = _ from hl]
    exact h.ledger.subset (List.Subset.refl _) (List.Subset.refl _)
  | flush =>
    obtain ⟨hl, -, -⟩ := w.ledger.takeBatches_spec hw.ledger.low a.batchLimit
    have htaken : Recovers
        { w with
          account := { w.account with ledger := (w.ledger.takeBatches a.batchLimit).1 }
          handedOut := w.handedOut ++ (w.ledger.takeBatches a.batchLimit).2 } outputs := by
      refine ⟨?_, h.noted⟩
      rw [World.ledger, hl]
      exact h.ledger.subset (List.Subset.refl _) (List.Subset.refl _)
    exact quiet (htaken.begin rfl)
  | killJobs jobs => exact quiet (h.begin rfl)
  | killAgents as =>
    have hgiven : Recovers { w with account := w.account.update (·.cancelPending as) } outputs :=
      ⟨h.ledger.subset (List.Subset.refl _) (List.Subset.refl _), h.noted⟩
    exact quiet (hgiven.begin rfl)
  | killAll => exact quiet (h.begin rfl)
  | markTerminal id =>
    rcases w.move_markTerminal a id with ⟨-, hm⟩ | ⟨job, l', hr, hm⟩
    · exact quiet (by rwa [hm])
    · rw [hm]
      exact quiet ⟨(h.ledger.removeJob hr).record _, h.noted⟩
  | goOn i => exact h.turn (goOn_steps a) fun c _ => goOn_notes a w.account c
  | answer i reply =>
    refine h.turn (answer_steps a reply) fun c hc => ?_
    rw [World.printed, World.waitsFor?_eq hc]
    exact answer_notes a reply w.account c
  | drop i => exact h.turn drop_steps fun c _ => drop_notes w.account c

end Recovers

theorem recovers_after (a : Actuator) (ms : List Move) : Recovers (World.after a ms) (World.outputs a ms) := by
  have hstart : Recovers {} [] := ⟨⟨by simp, by simp⟩, by simp⟩
  exact World.Sound.empty.along_keeps (fun _ _ m hw h => h.move hw m) hstart ms

/-! ### cancellations -/

namespace World

def sentBy (a : Actuator) (i : Nat) (w : World) (m : Move) : List Request :=
  if m.call? = some i then w.sends a m else []

variable {a : Actuator} {w : World} {i : Nat} {c : Call} {jobs : List JobId}

/-- A cancellation asks for nothing but to cancel its jobs. -/
theorem request?_cancelling (s : Scheduler) (h : Cancelling jobs c) :
    ∀ r ∈ c.request? s, r = .run s.cancel (distinct jobs) := by
  intro r hr
  cases h with
  | waiting => exact (Option.some.inj hr).symm
  | _ => cases hr

/-- A cancellation stays one, and sends no other request. -/
theorem cancelling_move (hc : w.calls[i]? = some c) (hjobs : Cancelling jobs c) (m : Move) :
    (∃ c', (w.move a m).calls[i]? = some c' ∧ Cancelling jobs c') ∧
      ∀ r ∈ w.sentBy a i m, r = .run a.scheduler.cancel (distinct jobs) := by
  by_cases hm : m.call? = some i
  · -- its own moves; what they send is read off the cancellation that they lead to
    have turned {step : Account → Call → Account × Call × List Event} (hstep : Cancels step) :
        ∃ c', (w.turn i step).calls[i]? = some c' ∧ Cancelling jobs c' :=
      ⟨_, turn_getElem? hc step, (hstep w.account c jobs hjobs).cancelling⟩
    rw [sentBy, if_pos hm]
    cases m with
    | goOn j =>
      cases hm
      refine ⟨turned (goOn_cancels a), fun r hr => ?_⟩
      rw [sends_goOn hc, Call.asksAnew] at hr
      split at hr
      · cases hr
      · exact request?_cancelling _ ((goOn_cancels a) w.account c jobs hjobs).cancelling r (Option.mem_toList.mp hr)
    | answer j reply =>
      cases hm
      refine ⟨turned (answer_cancels a reply), fun r hr => ?_⟩
      rw [sends_answer hc] at hr
      exact request?_cancelling _ ((answer_cancels a reply) w.account c jobs hjobs).cancelling r
        (Option.mem_toList.mp hr)
    | drop j =>
      cases hm
      exact ⟨turned drop_cancels, fun r hr => by cases hr⟩
    | _ => cases hm
  · rw [sentBy, if_neg hm]
    exact ⟨⟨c, move_getElem? hc hm, hjobs⟩, fun r hr => by cases hr⟩

theorem cancelling_run (hc : w.calls[i]? = some c) (hjobs : Cancelling jobs c) (ms : List Move) :
    ∀ r ∈ along a (sentBy a i) w ms, r = .run a.scheduler.cancel (distinct jobs) := by
  induction ms generalizing w c with
  | nil => exact nofun
  | cons m ms ih =>
    obtain ⟨⟨c', hc', hjobs'⟩, hsent⟩ := cancelling_move (a := a) hc hjobs m
    intro r hr
    rcases List.mem_append.mp hr with hr | hr
    · exact hsent r hr
    · exact ih hc' hjobs' r hr

/-- The jobs that a move chooses by itself, to cancel them. -/
def chooses (w : World) : Move → Option (List JobId)
  | .killAgents as => some (w.ledger.jobsOf as)
  | .killAll => some (w.ledger.jobs.values.map (·.id))
  | _ => none

theorem getElem?_of_chooses {m : Move} (h : w.chooses m = some jobs) :
    (w.move a m).calls[w.calls.length]? = some (.chosen jobs) := by
  cases m with
  | killAgents as =>
    cases h
    simp [move, begin]
  | killAll =>
    cases h
    simp [move, begin]
  | _ => cases h

end World

theorem Recovers.chosen {w : World} {outputs : List String} (h : Recovers w outputs) {m : Move}
    {jobs : List JobId} (hm : w.chooses m = some jobs) : ∀ id ∈ jobs, Recovered outputs id := by
  intro id hid
  cases m with
  | killAgents as =>
    cases hm
    obtain ⟨x, -, hx⟩ := mem_jobsOf.mp hid
    exact h.ledger.hosts _ (Table.mem_entries_of_get? hx)
  | killAll =>
    cases hm
    obtain ⟨job, hjob, rfl⟩ := List.mem_map.mp hid
    obtain ⟨e, he, rfl⟩ := List.mem_map.mp hjob
    exact (h.ledger.jobs e he).2
  | _ => cases hm

/-- **A cancel command that names jobs and says nothing else**, here and on another host. -/
structure NamesJobs (s : Scheduler) (ids : List JobId) : Prop where
  /-- An id consists of digits, is no option, and needs no quotes. -/
  plain : ∀ id ∈ ids, id ≠ "" ∧ (∀ c ∈ id.toList, isDigit c = true) ∧ id.toList.head? ≠ some '-' ∧
    Word.quote id = id
  /-- The line for another host is made of the ids as they are. -/
  line : Channel.line (.run s.cancel ids) = " ".intercalate (s.cancel :: ids)
  /-- Another host gets the line as it is. -/
  sent : ∀ host user port, ∃ options,
    (Channel.sshCommand host user port (Channel.line (.run s.cancel ids)) "").args =
      options ++ ["--", Channel.line (.run s.cancel ids)]
  /-- Its shell reads the line as one command with these words. -/
  words : ∃ c, parse (Channel.line (.run s.cancel ids)) = some [c] ∧
    ∀ σ : Session, σ.words c = some (s.cancel :: ids)

theorem quote_cancel (kind : SchedulerKind) : Word.quote kind.scheduler.cancel = kind.scheduler.cancel := by
  cases kind <;> decide

theorem namesJobs_of_recovered (kind : SchedulerKind) {outputs : List String} {ids : List JobId}
    (h : ∀ id ∈ ids, Recovered outputs id) : NamesJobs kind.scheduler ids where
  plain id hid := by
    obtain ⟨output, -, hshown⟩ := h id hid
    exact ⟨hshown.ne_empty, hshown.isDigit, hshown.not_option, hshown.quote⟩
  line := by
    refine join_of_quote (List.forall_mem_cons.mpr ⟨quote_cancel kind, fun id hid => ?_⟩)
    obtain ⟨output, -, hshown⟩ := h id hid
    exact hshown.quote
  sent host user port := by
    refine ⟨["-o", "BatchMode=yes"] ++ (port.map fun p => ["-p", decimal p]).getD [] ++
      [Channel.destination host user], ?_⟩
    rw [List.append_assoc _ [Channel.destination host user]]
    rfl
  words := ⟨_, parse_join (List.cons_ne_nil _ _), fun σ => σ.words_spelling _⟩

/-- **The actuator only knows ids that it recovered**, and only cancels these of its own accord. -/
structure OnlyRecovered (a : Actuator) (ms : List Move) : Prop where
  jobs : ∀ id ∈ (World.after a ms).ledger.jobs.keys, Recovered (World.outputs a ms) id
  hosts : ∀ id ∈ (World.after a ms).ledger.hosts.values, Recovered (World.outputs a ms) id
  /-- A call that begins now to cancel agents, or all of them, only ever names jobs whose ids were printed before. -/
  cancels : ∀ m, m = .killAll ∨ (∃ as, m = .killAgents as) → ∀ ms',
    ∀ r ∈ World.along a (World.sentBy a (World.after a ms).calls.length) (World.after a (ms ++ [m])) ms',
      ∃ ids, r = .run a.scheduler.cancel ids ∧ (∀ id ∈ ids, Recovered (World.outputs a ms) id) ∧
        NamesJobs a.scheduler ids

/-- **Only recovered ids are cancelled**, whatever schedulers print and whatever calls overlap. -/
theorem only_recovered_ids_are_cancelled (a : Actuator) (ms : List Move) : OnlyRecovered a ms := by
  have h := recovers_after a ms
  refine ⟨fun id hid => ?_, fun id hid => ?_, fun m hm ms' r hr => ?_⟩
  · obtain ⟨e, he, rfl⟩ := List.mem_map.mp hid
    exact (h.ledger.jobs e he).1
  · obtain ⟨e, he, rfl⟩ := List.mem_map.mp hid
    exact h.ledger.hosts e he
  · obtain ⟨jobs, hjobs⟩ : ∃ jobs, (World.after a ms).chooses m = some jobs := by
      rcases hm with rfl | ⟨as, rfl⟩ <;> exact ⟨_, rfl⟩
    have hids : ∀ id ∈ distinct jobs, Recovered (World.outputs a ms) id := fun id hid =>
      h.chosen hjobs id (mem_distinct.mp hid)
    rw [World.after_concat] at hr
    exact ⟨distinct jobs, World.cancelling_run (World.getElem?_of_chooses hjobs) .chosen ms' r hr, hids,
      namesJobs_of_recovered a.cluster.scheduler hids⟩

example :
    World.outputs lonely (submission 0 ⟨1⟩) = ["Submitted batch job 7\n"] ∧
      World.along lonely (World.sentBy lonely 1) (World.after lonely (submission 0 ⟨1⟩ ++ [.killAll])) [.goOn 1] =
        [.run "scancel" ["7"]] := by
  decide +kernel

end Overlap

end ClusterAgents
