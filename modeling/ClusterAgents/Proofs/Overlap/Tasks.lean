import ClusterAgents.Proofs.Overlap.World

/-!
# The operations of an actuator as moves

Each operation of `Actuator` is made of moves, of a call that begins, gets an answer or is given up and
then goes on until it waits again (`flush_moves`, `resume_moves`, ..).  So whatever such operations lead
to, however they overlap, moves lead to as well (`Held.after`), and what holds after all moves holds of
them.  The moves allow more: between two batches that cannot be rendered, or between choosing jobs and
marking them, other calls may come in.
-/

namespace ClusterAgents

namespace Overlap

open Actuator

namespace World

variable {a : Actuator} {w : World}

/-- A flush goes on until it waits: one move for each batch that cannot be rendered. -/
theorem next_moves {rest : List (BatchId × List AgentId)} {done : List Submission} {i : Nat}
    (h : w.calls[i]? = some (.turning rest done)) :
    ∃ n, (w.run a (List.replicate n (.goOn i))).account = (a.next rest done w.account).1 ∧
      (w.run a (List.replicate n (.goOn i))).calls =
        w.calls.set i (.reached (a.next rest done w.account).2) := by
  induction rest generalizing w done with
  | nil => exact ⟨1, turn_eq h (Call.goOn a)⟩
  | cons b rest ih =>
    obtain ⟨id, agents⟩ := b
    have ht := turn_eq h (Call.goOn a)
    unfold next
    cases hr : a.render (a.batch id agents) with
    | ok script =>
      simp only [Call.goOn, hr] at ht ⊢
      exact ⟨1, ht⟩
    | error e =>
      simp only [Call.goOn, hr] at ht ⊢
      have hc : (w.move a (.goOn i)).calls[i]? =
          some (.turning rest (done ++ [⟨id, agents, .error e⟩])) :=
        (congrArg (·[i]?) ht.2).trans (getElem?_set_of_some h _)
      obtain ⟨n, h1, h2⟩ := ih hc
      refine ⟨n + 1, h1.trans ?_, h2.trans ?_⟩
      · rw [show (w.move a (.goOn i)).account = _ from ht.1]
        rfl
      · rw [show (w.move a (.goOn i)).account = _ from ht.1,
          show (w.move a (.goOn i)).calls = _ from ht.2, List.set_set]
        rfl

theorem flush_moves (a : Actuator) (w : World) :
    ∃ ms, (w.run a ms).account = (a.flush w.account).1 ∧
      (w.run a ms).calls = w.calls ++ [.reached (a.flush w.account).2] := by
  have hc : (w.move a .flush).calls[w.calls.length]? =
      some (.turning (w.ledger.takeBatches a.batchLimit).2 []) := by
    simp [move, begin]
  obtain ⟨n, h1, h2⟩ := next_moves (a := a) hc
  refine ⟨.flush :: List.replicate n (.goOn w.calls.length), h1, h2.trans ?_⟩
  simp only [move, begin, flush]
  rw [List.set_append_right _ _ (Nat.le_refl _), Nat.sub_self]
  rfl

theorem launch_moves (a : Actuator) (w : World) (agents : List AgentId) :
    ∃ ms, (w.run a ms).account = (a.launch agents w.account).1 ∧
      (w.run a ms).calls = w.calls ++ [.reached (a.launch agents w.account).2] := by
  obtain ⟨ms, h1, h2⟩ := flush_moves a (w.move a (.enqueue agents))
  exact ⟨.enqueue agents :: ms, h1, h2⟩

/-- A cancellation that has chosen its jobs marks them. -/
theorem chosen_moves (a : Actuator) (w : World) (jobs : List JobId) :
    ((w.begin (.chosen jobs)).move a (.goOn w.calls.length)).account =
        (killJobs jobs w.account).1 ∧
      ((w.begin (.chosen jobs)).move a (.goOn w.calls.length)).calls =
        w.calls ++ [.reached (killJobs jobs w.account).2] := by
  have hc : (w.begin (.chosen jobs)).calls[w.calls.length]? = some (.chosen jobs) := by
    simp [begin]
  obtain ⟨h1, h2⟩ := turn_eq hc (Call.goOn a)
  refine ⟨h1, h2.trans ?_⟩
  simp only [begin]
  rw [List.set_append_right _ _ (Nat.le_refl _), Nat.sub_self]
  rfl

theorem killJobs_moves (a : Actuator) (w : World) (jobs : List JobId) :
    ∃ ms, (w.run a ms).account = (killJobs jobs w.account).1 ∧
      (w.run a ms).calls = w.calls ++ [.reached (killJobs jobs w.account).2] :=
  ⟨[.killJobs jobs, .goOn w.calls.length], chosen_moves a w jobs⟩

theorem killAgents_moves (a : Actuator) (w : World) (agents : List AgentId) :
    ∃ ms, (w.run a ms).account = (killAgents agents w.account).1 ∧
      (w.run a ms).calls = w.calls ++ [.reached (killAgents agents w.account).2] :=
  ⟨[.killAgents agents, .goOn w.calls.length],
    chosen_moves a { w with account := w.account.update (·.cancelPending agents) }
      (w.ledger.jobsOf agents)⟩

theorem killAll_moves (a : Actuator) (w : World) :
    ∃ ms, (w.run a ms).account = (killAll w.account).1 ∧
      (w.run a ms).calls = w.calls ++ [.reached (killAll w.account).2] :=
  ⟨[.killAll, .goOn w.calls.length], chosen_moves a w _⟩

/-- A task whose answer is there goes on until it waits again. -/
theorem resume_moves (a : Actuator) {i : Nat} {t : Task}
    (h : w.calls[i]? = some (.reached (.waiting t))) (reply : Outcome Output) :
    ∃ ms, (w.run a ms).account = (a.resume t reply w.account).1 ∧
      (w.run a ms).calls = w.calls.set i (.reached (a.resume t reply w.account).2) := by
  have ht := turn_eq h (Call.answer a reply)
  cases t with
  | flush f =>
    unfold resume advance
    rcases hj : a.judge f.batch f.stage reply with ⟨notices, stage | result⟩
    · simp only [Call.answer, hj] at ht ⊢
      exact ⟨[.answer i reply], ht⟩
    · simp only [Call.answer, hj] at ht ⊢
      have hc : (w.move a (.answer i reply)).calls[i]? = some (.turning f.rest
          (f.done ++ [⟨f.batch.id, f.batch.agents, result⟩])) :=
        (congrArg (·[i]?) ht.2).trans (getElem?_set_of_some h _)
      obtain ⟨n, h1, h2⟩ := next_moves (a := a) hc
      refine ⟨.answer i reply :: List.replicate n (.goOn i), h1.trans ?_, h2.trans ?_⟩
      · rw [show (w.move a (.answer i reply)).account = _ from ht.1]
      · rw [show (w.move a (.answer i reply)).account = _ from ht.1,
          show (w.move a (.answer i reply)).calls = _ from ht.2, List.set_set]
  | kill jobs =>
    unfold resume killed
    cases hk : killFailure? a.scheduler.cancel reply with
    | none =>
      simp only [Call.answer, hk] at ht ⊢
      exact ⟨[.answer i reply], ht⟩
    | some cause =>
      simp only [Call.answer, hk] at ht ⊢
      have hc : (w.move a (.answer i reply)).calls[i]? = some (.failing jobs cause) :=
        (congrArg (·[i]?) ht.2).trans (getElem?_set_of_some h _)
      obtain ⟨h1, h2⟩ := turn_eq hc (Call.goOn a)
      refine ⟨[.answer i reply, .goOn i], h1.trans ?_, h2.trans ?_⟩
      · rw [show (w.move a (.answer i reply)).account = _ from ht.1]
        rfl
      · rw [show (w.move a (.answer i reply)).calls = _ from ht.2, List.set_set]
        rfl

/-- A task is given up. -/
theorem abandon_moves (a : Actuator) {i : Nat} {t : Task}
    (h : w.calls[i]? = some (.reached (.waiting t))) :
    (w.move a (.drop i)).account = abandon t w.account ∧
      (w.move a (.drop i)).calls = w.calls.set i .dropped := by
  have ht := turn_eq h Call.drop
  cases t <;> exact ht

end World

/-! ### operations that overlap -/

/-- What the operations of an actuator lead to, any number of which may be waiting: the account, and
for each operation how far it got. -/
inductive Held (a : Actuator) : Account → List Call → Prop
  | start : Held a {} []
  | enqueue {s cs} (h : Held a s cs) (agents : List AgentId) :
      Held a (s.amend (·.enqueue agents)) cs
  | launch {s cs} (h : Held a s cs) (agents : List AgentId) :
      Held a (a.launch agents s).1 (cs ++ [.reached (a.launch agents s).2])
  | flush {s cs} (h : Held a s cs) : Held a (a.flush s).1 (cs ++ [.reached (a.flush s).2])
  | killJobs {s cs} (h : Held a s cs) (jobs : List JobId) :
      Held a (killJobs jobs s).1 (cs ++ [.reached (killJobs jobs s).2])
  | killAgents {s cs} (h : Held a s cs) (agents : List AgentId) :
      Held a (killAgents agents s).1 (cs ++ [.reached (killAgents agents s).2])
  | killAll {s cs} (h : Held a s cs) : Held a (killAll s).1 (cs ++ [.reached (killAll s).2])
  | markTerminal {s cs l} {job : JobId} {record : Job} (h : Held a s cs)
      (hm : markTerminal job s.ledger = some (record, l)) : Held a { s with ledger := l } cs
  | resume {s cs} {i : Nat} {t : Task} (h : Held a s cs) (hi : cs[i]? = some (.reached (.waiting t)))
      (reply : Outcome Output) :
      Held a (a.resume t reply s).1 (cs.set i (.reached (a.resume t reply s).2))
  | abandon {s cs} {i : Nat} {t : Task} (h : Held a s cs)
      (hi : cs[i]? = some (.reached (.waiting t))) : Held a (abandon t s) (cs.set i .dropped)

/-- **Whatever operations lead to, moves lead to.** -/
theorem Held.after {a : Actuator} {s : Account} {cs : List Call} (h : Held a s cs) :
    ∃ ms, (World.after a ms).account = s ∧ (World.after a ms).calls = cs := by
  -- moves that go on from the world of the operations before
  have more : ∀ {ms : List Move} {s' : Account} {cs' : List Call},
      (∃ ms', ((World.after a ms).run a ms').account = s' ∧
        ((World.after a ms).run a ms').calls = cs') →
      ∃ ms, (World.after a ms).account = s' ∧ (World.after a ms).calls = cs' := by
    rintro ms s' cs' ⟨ms', h1, h2⟩
    exact ⟨ms ++ ms', by rw [World.after_append]; exact ⟨h1, h2⟩⟩
  induction h with
  | start => exact ⟨[], rfl, rfl⟩
  | enqueue _ agents ih => obtain ⟨ms, rfl, rfl⟩ := ih; exact more ⟨[.enqueue agents], rfl, rfl⟩
  | launch _ agents ih => obtain ⟨ms, rfl, rfl⟩ := ih; exact more (World.launch_moves a _ agents)
  | flush _ ih => obtain ⟨ms, rfl, rfl⟩ := ih; exact more (World.flush_moves a _)
  | killJobs _ jobs ih => obtain ⟨ms, rfl, rfl⟩ := ih; exact more (World.killJobs_moves a _ jobs)
  | killAgents _ agents ih =>
    obtain ⟨ms, rfl, rfl⟩ := ih
    exact more (World.killAgents_moves a _ agents)
  | killAll _ ih => obtain ⟨ms, rfl, rfl⟩ := ih; exact more (World.killAll_moves a _)
  | @markTerminal s cs l job record _ hm ih =>
    obtain ⟨ms, rfl, rfl⟩ := ih
    have hw : ((World.after a ms).move a (.markTerminal job)).account =
        { (World.after a ms).account with ledger := l } ∧
        ((World.after a ms).move a (.markTerminal job)).calls = (World.after a ms).calls := by
      simp [World.move, hm]
    exact more ⟨[.markTerminal job], hw⟩
  | resume _ hi reply ih => obtain ⟨ms, rfl, rfl⟩ := ih; exact more (World.resume_moves a hi reply)
  | @abandon s cs i t _ hi ih =>
    obtain ⟨ms, rfl, rfl⟩ := ih
    exact more ⟨[.drop i], World.abandon_moves a hi⟩

end Overlap

end ClusterAgents
