import Mathlib.Data.List.Induction
import ClusterAgents.Actuator.Task

/-!
# Calls that overlap

Any number of calls of one actuator may be under way at a time.  Each of them changes the ledger
only now and then, and what it does between two such moments is nothing to the others.  A `Move` is
what happens in one go, while nobody else can get at the ledger; between two moves of a call every
other call may make as many moves as it likes.

* `Call` — how far a call got, including the places where it waits for nobody but has let go of the
  ledger: a flush between two batches, a cancellation that has chosen its jobs and not marked them, a
  cancellation that failed and has not reported it;
* `World` — the account of an actuator, its calls, and what is remembered for good: the batches that
  were handed out and all events;
* `World.move`, `World.run`, `World.after` — one move, several, and several from the very beginning.

A move of a call that is not at the right place changes nothing, so that every list of moves is a run.
That the operations of `Actuator` make such moves and no others is shown in `Overlap.Tasks`.
-/

namespace ClusterAgents

/-- The batch an event tells the outcome of. -/
def Event.batch? : Event → Option BatchId
  | .submitted id _ => some id
  | .submissionFailed id _ => some id
  | _ => none

namespace Actuator

/-- The event that tells what became of a batch. -/
def verdict (id : BatchId) : Outcome JobId → Event
  | .ok job => .submitted id job
  | .error e => .submissionFailed id e.message

end Actuator

/-- The batches of a flush that are not through, the current one first. -/
def Flush.unfinished (f : Flush) : List (BatchId × List AgentId) :=
  (f.batch.id, f.batch.agents) :: f.rest

/-- The event of a batch that nobody waits for any more. -/
def Event.abandoned (id : BatchId) : Event := .submissionFailed id "Submission was abandoned"

namespace Overlap

open Actuator

/-- How far a call got. -/
inductive Call
  /-- A flush that turns to the next of its batches. -/
  | turning (rest : List (BatchId × List AgentId)) (done : List Submission)
  /-- A cancellation that has chosen its jobs and not marked them yet. -/
  | chosen (jobs : List JobId)
  /-- A cancellation that failed: its jobs are active again, and the event is still to come. -/
  | failing (jobs : List JobId) (cause : String)
  /-- A call that waits for the submission host, or is over. -/
  | reached (p : Progress)
  /-- A call that nobody waits for any more. -/
  | dropped

namespace Call

/-- The batches that a call has taken and not finished. -/
def batches : Call → List (BatchId × List AgentId)
  | .turning rest _ => rest
  | .reached (.waiting (.flush f)) => f.unfinished
  | _ => []

/-- A call that waits for nobody goes on. -/
def goOn (a : Actuator) (s : Account) : Call → Account × Call × List Event
  | .turning [] done => (s, .reached (.flushed done), [])
  | .turning ((id, agents) :: rest) done =>
    match a.render (a.batch id agents) with
    | .ok script => (s, .reached (.waiting (.flush ⟨a.batch id agents, .storing script, rest, done⟩)), [])
    | .error e =>
      (a.settle s (a.batch id agents) (.error e), .turning rest (done ++ [⟨id, agents, .error e⟩]),
        [verdict id (.error e)])
  | .chosen jobs => ((killJobs jobs s).1, .reached (killJobs jobs s).2, [])
  | .failing jobs cause =>
    (s.update (·.record (.killFailed jobs cause)), .reached (.killed false), [.killFailed jobs cause])
  | c => (s, c, [])

/-- A call gets the answer it waits for; that its time is up is an answer as well. -/
def answer (a : Actuator) (reply : Outcome Output) (s : Account) :
    Call → Account × Call × List Event
  | .reached (.waiting (.flush f)) =>
    match a.judge f.batch f.stage reply with
    | (notices, .inl stage) =>
      (s.noteAll notices, .reached (.waiting (.flush { f with stage })), [])
    | (notices, .inr result) =>
      (a.settle (s.noteAll notices) f.batch result,
        .turning f.rest (f.done ++ [⟨f.batch.id, f.batch.agents, result⟩]),
        [verdict f.batch.id result])
  | .reached (.waiting (.kill jobs)) =>
    match killFailure? a.scheduler.cancel reply with
    | none => (s.update fun l => jobs.foldl forget l, .reached (.killed true), jobs.map .killed)
    | some cause =>
      ((s.note (.cancellationFailed a.cluster.name jobs cause)).update (·.setStatus jobs .active),
        .failing jobs cause, [])
  | c => (s, c, [])

/-- A call that waits is given up. -/
def drop (s : Account) : Call → Account × Call × List Event
  | .reached (.waiting (.flush f)) =>
    (abandon (.flush f) s, .dropped, f.unfinished.map fun b => .abandoned b.1)
  | .reached (.waiting (.kill jobs)) => (abandon (.kill jobs) s, .dropped, [])
  | c => (s, c, [])

end Call

/-- An actuator in the midst of its calls. -/
structure World where
  account : Account := {}
  /-- All calls that ever began, in the order in which they did. -/
  calls : List Call := []
  /-- All batches that were handed out, in the same way. -/
  handedOut : List (BatchId × List AgentId) := []
  /-- All events, of which the ledger keeps the latest. -/
  history : List Event := []

/-- What happens while nobody else can get at the ledger. -/
inductive Move
  | enqueue (agents : List AgentId)
  /-- A flush begins, and takes its batches. -/
  | flush
  | killJobs (jobs : List JobId)
  /-- Agents are to be cancelled: those that are pending are given up, and jobs are chosen. -/
  | killAgents (agents : List AgentId)
  | killAll
  | markTerminal (job : JobId)
  /-- A call goes on that waits for nobody. -/
  | goOn (call : Nat)
  /-- A call gets the answer it waits for. -/
  | answer (call : Nat) (reply : Outcome Output)
  /-- A call is given up. -/
  | drop (call : Nat)

/-- The call that makes a move, if it is one that is under way. -/
def Move.call? : Move → Option Nat
  | .goOn i => some i
  | .answer i _ => some i
  | .drop i => some i
  | _ => none

namespace World

abbrev ledger (w : World) : Ledger := w.account.ledger

def begin (w : World) (c : Call) : World := { w with calls := w.calls ++ [c] }

/-- A call makes a step of its own. -/
def turn (w : World) (i : Nat) (step : Account → Call → Account × Call × List Event) : World :=
  match w.calls[i]? with
  | none => w
  | some c =>
    { w with
      account := (step w.account c).1
      calls := w.calls.set i (step w.account c).2.1
      history := w.history ++ (step w.account c).2.2 }

def move (a : Actuator) (w : World) : Move → World
  | .enqueue agents => { w with account := w.account.amend (·.enqueue agents) }
  | .flush =>
    { w with
      account := { w.account with ledger := (w.ledger.takeBatches a.batchLimit).1 }
      handedOut := w.handedOut ++ (w.ledger.takeBatches a.batchLimit).2 }.begin
      (.turning (w.ledger.takeBatches a.batchLimit).2 [])
  | .killJobs jobs => w.begin (.chosen jobs)
  | .killAgents agents =>
    { w with account := w.account.update (·.cancelPending agents) }.begin
      (.chosen (w.ledger.jobsOf agents))
  | .killAll => w.begin (.chosen (w.ledger.jobs.values.map (·.id)))
  | .markTerminal job =>
    match Actuator.markTerminal job w.ledger with
    | some (_, l) =>
      { w with account := { w.account with ledger := l }, history := w.history ++ [.finished job] }
    | none => w
  | .goOn i => w.turn i (Call.goOn a)
  | .answer i reply => w.turn i (Call.answer a reply)
  | .drop i => w.turn i Call.drop

def run (a : Actuator) (w : World) (ms : List Move) : World := ms.foldl (move a) w

/-- Several moves from the very beginning. -/
def after (a : Actuator) (ms : List Move) : World := run a {} ms

variable {a : Actuator}

theorem run_append (w : World) (ms ms' : List Move) :
    run a w (ms ++ ms') = run a (run a w ms) ms' := List.foldl_append

theorem after_append (ms ms' : List Move) : after a (ms ++ ms') = run a (after a ms) ms' :=
  run_append _ _ _

theorem after_concat (ms : List Move) (m : Move) : after a (ms ++ [m]) = (after a ms).move a m :=
  after_append _ _

/-- What a step of a call does, where there is that call. -/
theorem turn_eq {w : World} {i : Nat} {c : Call} (h : w.calls[i]? = some c)
    (step : Account → Call → Account × Call × List Event) :
    (w.turn i step).account = (step w.account c).1 ∧
      (w.turn i step).calls = w.calls.set i (step w.account c).2.1 := by
  unfold turn
  rw [h]
  exact ⟨rfl, rfl⟩

theorem turn_history {w : World} {i : Nat} {c : Call} (h : w.calls[i]? = some c)
    (step : Account → Call → Account × Call × List Event) :
    (w.turn i step).history = w.history ++ (step w.account c).2.2 := by
  unfold turn
  rw [h]

theorem getElem?_set_of_some {w : World} {i : Nat} {c : Call} (h : w.calls[i]? = some c) (c' : Call) :
    (w.calls.set i c')[i]? = some c' :=
  List.getElem?_set_self (List.getElem?_eq_some_iff.mp h).1

theorem turn_getElem? {w : World} {i : Nat} {c : Call} (h : w.calls[i]? = some c)
    (step : Account → Call → Account × Call × List Event) :
    (w.turn i step).calls[i]? = some (step w.account c).2.1 := by
  rw [(turn_eq h step).2]
  exact getElem?_set_of_some h _

/-- What was told stays told. -/
theorem history_move (a : Actuator) (w : World) (m : Move) : w.history <+: (w.move a m).history := by
  have turned (i : Nat) (step : Account → Call → Account × Call × List Event) :
      w.history <+: (w.turn i step).history := by
    unfold turn
    split
    · exact List.prefix_rfl
    · exact List.prefix_append _ _
  cases m with
  | markTerminal id =>
    simp only [move]
    split
    · exact List.prefix_append _ _
    · exact List.prefix_rfl
  | goOn i => exact turned i _
  | answer i reply => exact turned i _
  | drop i => exact turned i _
  | _ => exact List.prefix_rfl

theorem history_run (a : Actuator) (w : World) (ms : List Move) :
    w.history <+: (w.run a ms).history := by
  induction ms generalizing w with
  | nil => exact List.prefix_rfl
  | cons m ms ih => exact (history_move a w m).trans (ih _)

/-- A call stays where it is while others move. -/
theorem move_getElem? {w : World} {i : Nat} {c : Call} (h : w.calls[i]? = some c) {m : Move}
    (hm : m.call? ≠ some i) : (w.move a m).calls[i]? = some c := by
  have begun (w' : World) (c' : Call) (hw : w'.calls = w.calls) : (w'.begin c').calls[i]? = some c := by
    rw [begin, hw, List.getElem?_append_left (List.getElem?_eq_some_iff.mp h).1, h]
  have turned (j : Nat) (step : Account → Call → Account × Call × List Event) (hj : j ≠ i) :
      (w.turn j step).calls[i]? = some c := by
    unfold turn
    split
    · exact h
    · rw [List.getElem?_set_ne hj]
      exact h
  have other {j : Nat} (hj : some j ≠ some i) : j ≠ i := fun e => hj (congrArg some e)
  cases m with
  | enqueue as => exact h
  | markTerminal id =>
    simp only [move]
    split <;> exact h
  | flush => exact begun _ _ rfl
  | killJobs jobs => exact begun _ _ rfl
  | killAgents as => exact begun _ _ rfl
  | killAll => exact begun _ _ rfl
  | goOn j => exact turned j _ (other hm)
  | answer j reply => exact turned j _ (other hm)
  | drop j => exact turned j _ (other hm)

theorem run_getElem? {w : World} {i : Nat} {c : Call} (h : w.calls[i]? = some c) {ms : List Move}
    (hms : ∀ m ∈ ms, m.call? ≠ some i) : (w.run a ms).calls[i]? = some c := by
  induction ms generalizing w with
  | nil => exact h
  | cons m ms ih =>
    obtain ⟨hm, hms⟩ := List.forall_mem_cons.mp hms
    exact ih (move_getElem? h hm) hms

/-- **What a move keeps, a run keeps.** -/
theorem run_keeps {P : World → Prop} (step : ∀ w m, P w → P (w.move a m)) {w : World} (h : P w)
    (ms : List Move) : P (run a w ms) := by
  induction ms generalizing w with
  | nil => exact h
  | cons m ms ih => exact ih (step w m h)

end World

end Overlap

end ClusterAgents
