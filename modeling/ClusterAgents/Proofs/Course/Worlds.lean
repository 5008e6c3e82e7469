import ClusterAgents.Proofs.Course.Talk

/-!
# Answers that come from a world

Whoever answers the requests of an operation may have a state of its own, which changes with each of them: the world.
Of this state the operation sees the answers only, so that it goes on as with somebody who had the same answers ready
beforehand.

* `Answered` — what a world was asked and what it answered, from one state to another;
* `Respondent.prompted` — somebody who gives answers in turn, whatever is asked;
* `carryOut_answered` — an operation in a world is an operation that nobody disturbs;
* `goOn_keeps` — what every answer keeps is kept from start to end.
-/

namespace ClusterAgents

variable {σ : Type}

/-- What a world was asked, and what it answered, from one state to another. -/
def Answered (answer : Request → StateM σ (Outcome Output)) : σ → Talk → σ → Prop
  | w, [], w' => w' = w
  | w, e :: talk, w' => ∃ w₁, (answer e.1).run w = (e.2, w₁) ∧ Answered answer w₁ talk w'

/-- Somebody who gives answers in turn. -/
def Respondent.prompted (replies : List (Outcome Output)) : Respondent := fun talk _ => replies[talk.length]?

namespace Actuator

variable {a : Actuator} {answer : Request → StateM σ (Outcome Output)}

theorem goOn_waiting_run (fuel : Nat) (s : Account) (t : Task) (w : σ) :
    (goOn a answer (fuel + 1) (s, .waiting t)).run w =
      (goOn a answer fuel (a.resume t ((answer (t.request a.scheduler)).run w).1 s)).run
        ((answer (t.request a.scheduler)).run w).2 := rfl

/-- **A world is as good as answers laid down beforehand.** -/
theorem goOn_answered (a : Actuator) (answer : Request → StateM σ (Outcome Output)) (fuel : Nat)
    (state : Account × Progress) (w : σ) :
    ∃ said, Answered answer w said ((goOn a answer fuel state).run w).2 ∧
      ∀ (replies : List (Outcome Output)) (talk : Talk), replies.drop talk.length = said.map (·.2) →
        (goOn a (a.consult (.prompted replies)) fuel state).run talk =
          (((goOn a answer fuel state).run w).1, talk ++ said) := by
  induction fuel generalizing state w with
  | zero => exact ⟨[], rfl, fun replies talk _ => by rw [List.append_nil]; rfl⟩
  | succ fuel ih =>
    obtain ⟨s, p⟩ := state
    cases p with
    | flushed all => exact ⟨[], rfl, fun replies talk _ => by rw [List.append_nil]; rfl⟩
    | killed success => exact ⟨[], rfl, fun replies talk _ => by rw [List.append_nil]; rfl⟩
    | waiting t =>
      rw [goOn_waiting_run]
      generalize hreply : (answer (t.request a.scheduler)).run w = reply
      obtain ⟨said, hsaid, hrun⟩ := ih (a.resume t reply.1 s) reply.2
      refine ⟨(t.request a.scheduler, reply.1) :: said, ⟨reply.2, hreply, hsaid⟩, fun replies talk hdrop => ?_⟩
      -- the next of the replies is the one that the world gave
      have hnext : replies[talk.length]? = some reply.1 := by
        rw [← List.head?_drop, hdrop]
        rfl
      have hheard : a.heard (Respondent.prompted replies talk (t.request a.scheduler)) = reply.1 := by
        rw [Respondent.prompted, hnext]
        rfl
      have hrest : replies.drop (talk ++ [(t.request a.scheduler, reply.1)]).length = said.map (·.2) := by
        rw [List.length_append, List.length_singleton, ← List.tail_drop, hdrop]
        rfl
      rw [goOn_waiting, hheard, hrun replies _ hrest, List.append_assoc]
      rfl

/-- **An operation in a world** is an operation that nobody disturbs, with somebody who answers as the world does. -/
theorem carryOut_answered (a : Actuator) (answer : Request → StateM σ (Outcome Output)) (state : Account × Progress)
    (w : σ) :
    ∃ host, ((a.carryOut answer state).run w).1 = (a.undisturbed host state).1 ∧
      Answered answer w (a.undisturbed host state).2 ((a.carryOut answer state).run w).2 := by
  obtain ⟨said, hsaid, hrun⟩ := goOn_answered a answer state.2.answers state w
  have hrun := hrun (said.map (·.2)) [] rfl
  refine ⟨.prompted (said.map (·.2)), ?_⟩
  unfold undisturbed carryOut
  rw [hrun]
  exact ⟨rfl, hsaid⟩

/-- What every answer keeps is kept from start to end. -/
theorem goOn_keeps {P : Account → Prop} (hstep : ∀ t reply s, P s → P (a.resume t reply s).1) (fuel : Nat)
    {state : Account × Progress} (hstart : P state.1) (w : σ) : P ((goOn a answer fuel state).run w).1.1 := by
  induction fuel generalizing state w with
  | zero => exact hstart
  | succ fuel ih =>
    obtain ⟨s, p⟩ := state
    cases p with
    | flushed all => exact hstart
    | killed success => exact hstart
    | waiting t =>
      rw [goOn_waiting_run]
      exact ih (hstep t _ s hstart) _

end Actuator

end ClusterAgents
