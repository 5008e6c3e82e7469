import ClusterAgents.Proofs.Overlap.Protocol

/-!
# What calls ask for

A call asks something of the submission host whenever it comes to wait: when it goes on after it waited for
nobody, or when an answer leads it to its next request.  A call that waits already asks for nothing anew.

* `World.sends` — the requests that one move sends; `World.along` gathers those of a run;
* `World.sends_goOn`, `World.sends_answer` — in terms of the call that makes the move;
* `World.Sound.along_keeps` — an invariant of worlds and of what was gathered before them, from one move to a run.
-/

namespace ClusterAgents

namespace Overlap

open Actuator

/-- What a call waits for. -/
def Call.request? (s : Scheduler) : Call → Option Request
  | .reached (.waiting t) => some (t.request s)
  | _ => none

/-- What a call asks for when it becomes another one: nothing if it waits already. -/
def Call.asksAnew (s : Scheduler) (c c' : Call) : List Request :=
  if (c.request? s).isSome then [] else (c'.request? s).toList

namespace World

variable {a : Actuator} {w : World} {i : Nat} {c : Call}

/-- The requests that a move sends. -/
def sends (a : Actuator) (w : World) : Move → List Request
  | .goOn i =>
    if (w.waitsFor? a.scheduler i).isSome then []
    else ((w.move a (.goOn i)).waitsFor? a.scheduler i).toList
  | .answer i reply => ((w.move a (.answer i reply)).waitsFor? a.scheduler i).toList
  | _ => []

theorem waitsFor?_eq (hc : w.calls[i]? = some c) (s : Scheduler) : w.waitsFor? s i = c.request? s := by
  unfold waitsFor?
  rw [hc]
  cases c with
  | reached p => cases p <;> rfl
  | _ => rfl

theorem sends_goOn (hc : w.calls[i]? = some c) :
    w.sends a (.goOn i) = c.asksAnew a.scheduler (Call.goOn a w.account c).2.1 := by
  have hc' : (w.move a (.goOn i)).calls[i]? = _ := turn_getElem? hc (Call.goOn a)
  rw [sends, waitsFor?_eq hc, waitsFor?_eq hc', Call.asksAnew]

theorem sends_answer (hc : w.calls[i]? = some c) (reply : Outcome Output) :
    w.sends a (.answer i reply) = ((Call.answer a reply w.account c).2.1.request? a.scheduler).toList := by
  have hc' : (w.move a (.answer i reply)).calls[i]? = _ := turn_getElem? hc (Call.answer a reply)
  rw [sends, waitsFor?_eq hc']

/-- Where there is no call, nothing happens. -/
theorem turn_of_none (hi : w.calls[i]? = none) (step : Account → Call → Account × Call × List Event) :
    w.turn i step = w := by
  unfold turn
  rw [hi]

theorem sends_eq_nil (hi : w.calls[i]? = none) {m : Move} (hm : m.call? = some i) : w.sends a m = [] := by
  have hnone : w.waitsFor? a.scheduler i = none := by
    unfold waitsFor?
    rw [hi]
  cases m with
  | goOn j =>
    cases hm
    have hw : w.move a (.goOn i) = w := turn_of_none hi _
    rw [sends, hw, hnone, Option.toList_none, ite_self]
  | answer j reply =>
    cases hm
    have hw : w.move a (.answer i reply) = w := turn_of_none hi _
    rw [sends, hw, hnone, Option.toList_none]
  | _ => rfl

/-- **What a move keeps together with what it adds**, a run keeps together with what it gathers. -/
theorem Sound.along_keeps {α : Type} {f : World → Move → List α} {P : World → List α → Prop}
    (step : ∀ w past m, w.Sound → P w past → P (w.move a m) (past ++ f w m)) (hw : w.Sound) {past : List α}
    (h : P w past) (ms : List Move) : P (w.run a ms) (past ++ along a f w ms) := by
  induction ms generalizing w past with
  | nil => rwa [along, List.append_nil]
  | cons m ms ih =>
    rw [along, ← List.append_assoc]
    exact ih (hw.move a m) (step w past m hw h)

end World

end Overlap

end ClusterAgents
