import ClusterAgents.Actuator.Task
import ClusterAgents.Proofs.Overlap.Protocol

/-!
# Operations that nobody disturbs

An operation that has an actuator to itself talks to the submission host alone: it asks, hears a reply or that its
time is up, and asks again.  Nothing is known of the host.  What it replies may depend on all that was said before,
so that every way in which it can behave is the way of some `Respondent`.

* `Talk` — what was asked, and what was heard of it;
* `Actuator.undisturbed` — an operation from some place to its end, with all that was said;
* `undisturbed_killJobs` — a cancellation: there is one thing to ask, or none.
-/

namespace ClusterAgents

/-- What was asked of the submission host, and what was heard of it, in order. -/
abbrev Talk := List (Request × Outcome Output)

/-- A submission host, by what it replies to a request after all that was said, if it does so in time. -/
abbrev Respondent := Talk → Request → Option (Outcome Output)

namespace Actuator

def consult (a : Actuator) (host : Respondent) (r : Request) : StateM Talk (Outcome Output) := fun talk =>
  (a.heard (host talk r), talk ++ [(r, a.heard (host talk r))])

/-- **An operation that nobody disturbs**, from some place to its end. -/
def undisturbed (a : Actuator) (host : Respondent) (state : Account × Progress) : (Account × Progress) × Talk :=
  (a.carryOut (a.consult host) state).run []

variable {a : Actuator} {host : Respondent}

theorem goOn_waiting (fuel : Nat) (s : Account) (t : Task) (talk : Talk) :
    (goOn a (a.consult host) (fuel + 1) (s, .waiting t)).run talk =
      (goOn a (a.consult host) fuel (a.resume t (a.heard (host talk (t.request a.scheduler))) s)).run
        (talk ++ [(t.request a.scheduler, a.heard (host talk (t.request a.scheduler)))]) := rfl

theorem goOn_flushed (fuel : Nat) (s : Account) (all : List Submission) (talk : Talk) :
    (goOn a (a.consult host) fuel (s, .flushed all)).run talk = ((s, .flushed all), talk) := by
  cases fuel <;> rfl

/-- What a cancellation asks for. -/
def cancelRequest (a : Actuator) (jobs : List JobId) : Request := .run a.scheduler.cancel (Ledger.distinct jobs)

/-- **A cancellation asks for one thing**, or for nothing if there is no job to cancel. -/
theorem undisturbed_killJobs (a : Actuator) (host : Respondent) (jobs : List JobId) (s : Account) :
    a.undisturbed host (killJobs jobs s) =
      if Ledger.distinct jobs = [] then ((s, .killed true), [])
      else
        (a.killed (Ledger.distinct jobs) (a.heard (host [] (a.cancelRequest jobs)))
          (s.update (·.setStatus (Ledger.distinct jobs) .killing)),
          [(a.cancelRequest jobs, a.heard (host [] (a.cancelRequest jobs)))]) := by
  by_cases hnone : Ledger.distinct jobs = []
  · simp only [killJobs, hnone, List.isEmpty_nil, if_true]
    rfl
  · have hsome : (Ledger.distinct jobs).isEmpty = false := by simpa using hnone
    simp only [killJobs, hsome, Bool.false_eq_true, if_false, if_neg hnone]
    rfl

end Actuator

end ClusterAgents
