import ClusterAgents.Proofs.Course.Worlds

/-!
# What is said of batches on the way

While batches are submitted, notices are made of all kinds of things.  That a batch was not submitted is said only when
all of them are through, by whoever ordered the launch.

* `Notice.unsubmitted?`, `Notice.Quiet` — notices that a batch was not submitted, and those that say nothing of it;
* `quiet_enqueue`, `quiet_activate` — the ledger is quiet;
* `quiet_resume` — no answer is followed by such a notice;
* `quiet_launch` — nor is any of them made until a launch is over.
-/

namespace ClusterAgents

namespace Notice

/-- The batch that a notice says was not submitted, its size, and why. -/
def unsubmitted? : Notice → Option (BatchId × Nat × Error)
  | .batchNotSubmitted id size cause => some (id, size, cause)
  | _ => none

/-- Notices none of which is about a batch that was not submitted. -/
def Quiet (ns : List Notice) : Prop := ∀ n ∈ ns, n.unsubmitted? = none

theorem quiet_nil : Quiet [] := nofun

theorem quiet_singleton {n : Notice} (h : n.unsubmitted? = none) : Quiet [n] := by
  intro n' hn
  rw [List.mem_singleton.mp hn]
  exact h

theorem quiet_append {ns ns' : List Notice} : Quiet (ns ++ ns') ↔ Quiet ns ∧ Quiet ns' := List.forall_mem_append

end Notice

open Notice

namespace Ledger

theorem quiet_enqueue (l : Ledger) (as : List AgentId) : Quiet (l.enqueue as).2 := by
  induction as generalizing l with
  | nil => exact quiet_nil
  | cons x as ih =>
    rw [enqueue]
    split
    · exact List.forall_mem_cons.mpr ⟨rfl, ih l⟩
    · exact ih _

theorem quiet_failBatch (l : Ledger) (id : BatchId) (error : String) : Quiet (l.failBatch id error).2 := by
  unfold failBatch
  dsimp only
  split
  · exact quiet_nil
  · exact quiet_singleton rfl

theorem quiet_hostAll (l : Ledger) (job : JobId) (as : List AgentId) : Quiet (l.hostAll job as).2 := by
  induction as generalizing l with
  | nil => exact quiet_nil
  | cons x as ih =>
    have hmoved : Quiet (l.host x job).2 := by
      unfold host
      cases l.hosts.get? x with
      | none => exact quiet_nil
      | some old => exact quiet_singleton rfl
    exact quiet_append.mpr ⟨hmoved, ih _⟩

theorem quiet_activate (l : Ledger) (job : Job) : Quiet (l.activate job).2 := by
  have hunknown : Quiet (if l.inFlight.contains job.batch then [] else [.batchNotInFlight job.batch]) := by
    split
    · exact quiet_nil
    · exact quiet_singleton rfl
  have hdouble : Quiet (if l.jobs.contains job.id then [.duplicateJob job.id] else []) := by
    split
    · exact quiet_singleton rfl
    · exact quiet_nil
  exact quiet_append.mpr ⟨quiet_append.mpr ⟨hunknown, quiet_hostAll _ _ _⟩, hdouble⟩

end Ledger

namespace Actuator

variable (a : Actuator)

theorem quiet_amend {s : Account} {f : Ledger → Ledger × List Notice} (hs : Quiet s.notices)
    (hf : Quiet (f s.ledger).2) : Quiet (s.amend f).notices := quiet_append.mpr ⟨hs, hf⟩

theorem quiet_settle {s : Account} (hs : Quiet s.notices) (b : Batch) (result : Outcome JobId) :
    Quiet (a.settle s b result).notices := by
  cases result with
  | ok id => exact quiet_amend hs (Ledger.quiet_activate _ _)
  | error e => exact quiet_amend (quiet_append.mpr ⟨hs, quiet_singleton rfl⟩) (Ledger.quiet_failBatch _ _ _)

theorem quiet_judge (b : Batch) (st : Stage) (reply : Outcome Output) : Quiet (a.judge b st reply).1 := by
  cases reply with
  | error e => cases st <;> first | exact quiet_nil | exact quiet_singleton rfl
  | ok o =>
    cases st with
    | storing script => exact quiet_nil
    | noting job => exact quiet_nil
    | submitting =>
      simp only [judge, submitted, remarks]
      split
      · split
        · exact quiet_nil
        · exact quiet_singleton rfl
      · exact quiet_nil

theorem quiet_next (batches : List (BatchId × List AgentId)) (done : List Submission) {s : Account}
    (hs : Quiet s.notices) : Quiet (a.next batches done s).1.notices := by
  induction batches generalizing done s with
  | nil => exact hs
  | cons b batches ih =>
    obtain ⟨id, agents⟩ := b
    rw [next]
    cases a.render (a.batch id agents) with
    | ok script => exact hs
    | error e => exact ih _ (a.quiet_settle hs (a.batch id agents) (.error e))

/-- No answer leads to a notice that a batch was not submitted. -/
theorem quiet_resume (t : Task) (reply : Outcome Output) (s : Account) (hs : Quiet s.notices) :
    Quiet (a.resume t reply s).1.notices := by
  cases t with
  | flush f =>
    have hnotices : Quiet (s.noteAll (a.judge f.batch f.stage reply).1).notices :=
      quiet_append.mpr ⟨hs, a.quiet_judge f.batch f.stage reply⟩
    simp only [resume, advance]
    split
    · next hj =>
      rw [hj] at hnotices
      exact hnotices
    · next hj =>
      rw [hj] at hnotices
      exact a.quiet_next _ _ (a.quiet_settle hnotices _ _)
  | kill jobs =>
    simp only [resume, killed]
    split
    · exact hs
    · exact quiet_append.mpr ⟨hs, quiet_singleton rfl⟩

/-- A launch says nothing of the batches that were not submitted before it is over. -/
theorem quiet_launch {σ : Type} (answer : Request → StateM σ (Outcome Output)) (agents : List AgentId) (w : σ) :
    Quiet ((a.carryOut answer (a.launch agents {})).run w).1.1.notices := by
  have hrequested : Quiet (({} : Account).amend (·.enqueue agents)).notices :=
    quiet_amend quiet_nil (Ledger.quiet_enqueue _ _)
  refine goOn_keeps (P := fun s => Quiet s.notices) a.quiet_resume _ ?_ w
  exact a.quiet_next _ _ hrequested

end Actuator

end ClusterAgents
