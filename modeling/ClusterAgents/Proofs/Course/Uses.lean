import ClusterAgents.Proofs.Course.Batches
import ClusterAgents.Proofs.Overlap.Orders

/-!
# Calls one after the other

Whoever uses an actuator alone waits for each call before the next one begins.  Each time anything is read or changed,
the tables of the ledger may be found in another order.

* `Use`, `Result` — the calls, and what they return;
* `World.Completes` — a call goes on to its end, with replies that were laid down for it;
* `World.Serves`, `World.Serial` — one call, and several;
* `World.exists_completes`, `World.exists_serial` — every call comes to its end, whatever it hears;
* `World.Serial.runs` — calls one after the other are a run of moves like any other.
-/

namespace ClusterAgents

/-- Nothing is waited for any more. -/
def Progress.Over : Progress → Prop
  | .waiting _ => False
  | _ => True

namespace Overlap

open Actuator

inductive Use
  | enqueue (agents : List AgentId)
  | flush
  | launch (agents : List AgentId)
  | killJobs (jobs : List JobId)
  | killAgents (agents : List AgentId)
  | killAll
  | markTerminal (job : JobId)
  | liveJobs
  | job (id : JobId)
  | jobOf (agent : AgentId)
  | agentsOf (job : JobId)
  deriving DecidableEq

/-- What a call returns. -/
inductive Result
  /-- How many agents were added. -/
  | added (count : Nat)
  /-- What became of the batches, or whether jobs were cancelled. -/
  | reached (p : Progress)
  /-- The job that was taken out, if there was one. -/
  | ended (job : Option Job)
  | jobs (jobs : List Job)
  | job (job : Option Job)
  | host (id : Option JobId)
  | agents (agents : Option (List AgentId))

/-- The moves with which a call begins that goes on afterwards. -/
def Use.opening : Use → Option (List Move)
  | .flush => some [.flush]
  | .launch agents => some [.enqueue agents, .flush]
  | .killJobs jobs => some [.killJobs jobs]
  | .killAgents agents => some [.killAgents agents]
  | .killAll => some [.killAll]
  | _ => none

/-- What a call returns that is over at once, and what it leaves behind. -/
def Use.atOnce (a : Actuator) (w : World) : Use → Option (Result × World)
  | .enqueue agents => some (.added (w.ledger.added agents), w.move a (.enqueue agents))
  | .markTerminal id =>
    some (.ended ((Actuator.markTerminal id w.ledger).map (·.1)), w.move a (.markTerminal id))
  | .liveJobs => some (.jobs w.ledger.liveJobs, w)
  | .job id => some (.job (w.ledger.job? id), w)
  | .jobOf x => some (.host (w.ledger.jobOf? x), w)
  | .agentsOf id => some (.agents ((w.ledger.job? id).map (·.agents)), w)
  | _ => none

theorem Use.opening_eq_none {a : Actuator} {w : World} {u : Use} {r : Result × World} (h : u.atOnce a w = some r) :
    u.opening = none := by
  cases u with
  | flush => cases h
  | launch agents => cases h
  | killJobs jobs => cases h
  | killAgents agents => cases h
  | killAll => cases h
  | _ => rfl

/-- A call that goes on by itself. -/
def Call.Restless : Call → Prop
  | .turning _ _ => True
  | .chosen _ => True
  | .failing _ _ => True
  | _ => False

namespace World

variable {a : Actuator} {i : Nat} {w w' : World} {rs : List (Outcome Output)} {talk : Talk}

/-- **A call goes on to its end.**  It hears the replies in turn, and that its time is up when there are no more. -/
inductive Completes (a : Actuator) (i : Nat) : World → List (Outcome Output) → Talk → World → Prop
  | rests {w : World} {rs : List (Outcome Output)} {p : Progress} (hc : w.calls[i]? = some (.reached p))
      (hp : p.Over) : Completes a i w rs [] w
  | goesOn {w w₁ w' : World} {rs : List (Outcome Output)} {talk : Talk} {c : Call} (hc : w.calls[i]? = some c)
      (hrestless : c.Restless) (hm : w.Moves a (.goOn i) w₁) (h : Completes a i w₁ rs talk w') :
      Completes a i w rs talk w'
  | hears {w w₁ w' : World} {rs : List (Outcome Output)} {talk : Talk} {t : Task}
      (hc : w.calls[i]? = some (.reached (.waiting t))) (hm : w.Moves a (.answer i (a.heard rs.head?)) w₁)
      (h : Completes a i w₁ rs.tail talk w') :
      Completes a i w rs ((t.request a.scheduler, a.heard rs.head?) :: talk) w'

/-- **A call from its beginning to its end**, with what it returns and what was said meanwhile. -/
inductive Serves (a : Actuator) (w : World) (rs : List (Outcome Output)) (u : Use) :
    Result → Talk → World → Prop
  | atOnce {w₀ w' : World} {result : Result} (hr : w.Relists w₀) (hu : u.atOnce a w₀ = some (result, w')) :
      Serves a w rs u result [] w'
  | call {ms : List Move} {w₁ w' : World} {talk : Talk} {p : Progress} (hms : u.opening = some ms)
      (hopen : w.Runs a ms w₁) (h : Completes a w.calls.length w₁ rs talk w')
      (hp : w'.calls[w.calls.length]? = some (.reached p)) : Serves a w rs u (.reached p) talk w'

end World

/-- A call that was served: what it returned, what was said meanwhile, and which events were told. -/
structure Served where
  use : Use
  result : Result
  talk : Talk
  told : List Event

namespace World

/-- **Calls one after the other**, each with the replies that it hears. -/
inductive Serial (a : Actuator) : World → List (Use × List (Outcome Output)) → List Served → World → Prop
  | nil (w : World) : Serial a w [] [] w
  | cons {w w₁ w' : World} {u : Use} {rs : List (Outcome Output)} {result : Result} {talk : Talk} {told : List Event}
      {us : List (Use × List (Outcome Output))} {served : List Served} (h : w.Serves a rs u result talk w₁)
      (htold : w₁.history = w.history ++ told) (hrest : Serial a w₁ us served w') :
      Serial a w ((u, rs) :: us) (⟨u, result, talk, told⟩ :: served) w'

/-! ### every call comes to its end -/

end World

/-- How many moves a call can make. -/
def Call.movesLeft : Call → Nat
  | .turning rest _ => 4 * rest.length + 1
  | .chosen _ => 3
  | .failing _ _ => 1
  | .reached (.waiting (.flush f)) => 4 * f.rest.length + 1 + answersLeft f.stage
  | .reached (.waiting (.kill _)) => 2
  | _ => 0

theorem Call.movesLeft_goOn (a : Actuator) (s : Account) {c : Call} (hc : c.Restless) :
    (c.goOn a s).2.1.movesLeft < c.movesLeft := by
  cases c with
  | turning rest done =>
    cases rest with
    | nil => exact Nat.one_pos
    | cons b rest =>
      simp only [Call.goOn]
      split
      · simp only [movesLeft, answersLeft, List.length_cons]
        omega
      · simp only [movesLeft, List.length_cons]
        omega
  | chosen jobs =>
    simp only [Call.goOn, killJobs]
    split
    · exact Nat.succ_pos 2
    · exact Nat.lt_succ_self 2
  | failing jobs cause => exact Nat.one_pos
  | reached p => cases hc
  | dropped => cases hc

theorem Call.movesLeft_answer (a : Actuator) (reply : Outcome Output) (s : Account) (t : Task) :
    (Call.answer a reply s (.reached (.waiting t))).2.1.movesLeft < (Call.reached (.waiting t)).movesLeft := by
  cases t with
  | flush f =>
    simp only [Call.answer]
    rcases hj : a.judge f.batch f.stage reply with ⟨notices, stage | result⟩
    · have hless := answersLeft_judge (congrArg Prod.snd hj)
      simp only [movesLeft]
      omega
    · have hpos := answersLeft_pos f.stage
      simp only [movesLeft]
      omega
  | kill jobs =>
    simp only [Call.answer]
    split
    · exact Nat.two_pos
    · exact Nat.one_lt_two

/-- A call that was given up goes on no more, and neither does one that is over. -/
theorem Call.cases_left (c : Call) :
    c.Restless ∨ (∃ t, c = .reached (.waiting t)) ∨ (∃ p : Progress, p.Over ∧ c = .reached p) ∨ c = .dropped := by
  cases c with
  | reached p =>
    cases p with
    | waiting t => exact .inr (.inl ⟨t, rfl⟩)
    | flushed done => exact .inr (.inr (.inl ⟨.flushed done, trivial, rfl⟩))
    | killed success => exact .inr (.inr (.inl ⟨.killed success, trivial, rfl⟩))
  | dropped => exact .inr (.inr (.inr rfl))
  | _ => exact .inl trivial

/-- No call gives itself up. -/
theorem Call.goOn_ne_dropped (a : Actuator) (s : Account) {c : Call} (hc : c ≠ .dropped) :
    (c.goOn a s).2.1 ≠ .dropped := by
  unfold goOn
  split
  · exact Call.noConfusion
  · split <;> exact Call.noConfusion
  · exact Call.noConfusion
  · exact Call.noConfusion
  · exact hc

theorem Call.answer_ne_dropped (a : Actuator) (reply : Outcome Output) (s : Account) {c : Call} (hc : c ≠ .dropped) :
    (Call.answer a reply s c).2.1 ≠ .dropped := by
  unfold answer
  split
  · split <;> exact Call.noConfusion
  · split <;> exact Call.noConfusion
  · exact hc

namespace World

/-- **Every call comes to its end**, whatever it hears. -/
theorem exists_completes (a : Actuator) (i : Nat) (n : Nat) {w : World} {c : Call} (hn : c.movesLeft < n)
    (hc : w.calls[i]? = some c) (hkept : c ≠ .dropped) (rs : List (Outcome Output)) :
    ∃ talk w' p, Completes a i w rs talk w' ∧ w'.calls[i]? = some (.reached p) := by
  induction n generalizing w c rs with
  | zero => exact absurd hn (Nat.not_lt_zero _)
  | succ n ih =>
    rcases c.cases_left with hrestless | ⟨t, rfl⟩ | ⟨p, hp, rfl⟩ | rfl
    · have hless := c.movesLeft_goOn a w.account hrestless
      obtain ⟨talk, w', p, h, hp⟩ := ih (by omega) (turn_getElem? hc (Call.goOn a))
        (c.goOn_ne_dropped a w.account hkept) rs
      exact ⟨talk, w', p, .goesOn hc hrestless ⟨w, .refl w, rfl⟩ h, hp⟩
    · have hless := Call.movesLeft_answer a (a.heard rs.head?) w.account t
      obtain ⟨talk, w', p, h, hp⟩ := ih (by omega) (turn_getElem? hc (Call.answer a (a.heard rs.head?)))
        (Call.answer_ne_dropped a _ w.account hkept) rs.tail
      exact ⟨_, w', p, .hears hc ⟨w, .refl w, rfl⟩ h, hp⟩
    · exact ⟨[], w, p, .rests hc hp, hc⟩
    · exact absurd rfl hkept

/-- A call that goes on has begun behind all others. -/
theorem exists_opened {u : Use} {ms : List Move} (hms : u.opening = some ms) (a : Actuator) (w : World) :
    ∃ c, c ≠ Call.dropped ∧ (w.run a ms).calls[w.calls.length]? = some c := by
  have last (c : Call) (w' : World) (hw : w'.calls = w.calls) : (w'.begin c).calls[w.calls.length]? = some c := by
    rw [← hw]
    exact List.getElem?_concat_length
  cases u with
  | flush =>
    cases hms
    exact ⟨_, Call.noConfusion, last _ _ rfl⟩
  | launch agents =>
    cases hms
    exact ⟨_, Call.noConfusion, last _ _ rfl⟩
  | killJobs jobs =>
    cases hms
    exact ⟨_, Call.noConfusion, last _ _ rfl⟩
  | killAgents agents =>
    cases hms
    exact ⟨_, Call.noConfusion, last _ _ rfl⟩
  | killAll =>
    cases hms
    exact ⟨_, Call.noConfusion, last _ _ rfl⟩
  | _ => cases hms

theorem exists_serves (a : Actuator) (w : World) (u : Use) (rs : List (Outcome Output)) :
    ∃ result talk w', w.Serves a rs u result talk w' := by
  have call {ms : List Move} (hms : u.opening = some ms) : ∃ result talk w', w.Serves a rs u result talk w' := by
    obtain ⟨c, hkept, hc⟩ := exists_opened hms a w
    obtain ⟨talk, w', p, h, hp⟩ := exists_completes a w.calls.length _ (Nat.lt_succ_self _) hc hkept rs
    exact ⟨_, talk, w', .call hms (runs_run a w ms) h hp⟩
  cases u with
  | enqueue agents => exact ⟨_, _, _, .atOnce (.refl w) rfl⟩
  | markTerminal id => exact ⟨_, _, _, .atOnce (.refl w) rfl⟩
  | liveJobs => exact ⟨_, _, _, .atOnce (.refl w) rfl⟩
  | job id => exact ⟨_, _, _, .atOnce (.refl w) rfl⟩
  | jobOf x => exact ⟨_, _, _, .atOnce (.refl w) rfl⟩
  | agentsOf id => exact ⟨_, _, _, .atOnce (.refl w) rfl⟩
  | _ => exact call rfl

/-! ### what a call does next -/

section Next

variable {a : Actuator} {i : Nat} {w w' : World} {rs : List (Outcome Output)} {talk : Talk}
  (h : Completes a i w rs talk w')
include h

/-- A call that is over does nothing. -/
theorem Completes.of_over {p : Progress} (hc : w.calls[i]? = some (.reached p)) (hp : p.Over) :
    w' = w ∧ talk = [] := by
  cases h with
  | rests hc' hp' => exact ⟨rfl, rfl⟩
  | goesOn hc' hrestless hm h =>
    cases hc.symm.trans hc'
    cases hrestless
  | hears hc' hm h =>
    cases hc.symm.trans hc'
    cases hp

/-- A call that waits for nobody goes on. -/
theorem Completes.of_restless {c : Call} (hc : w.calls[i]? = some c) (hrestless : c.Restless) :
    ∃ w₀, w.Relists w₀ ∧ Completes a i (w₀.turn i (Call.goOn a)) rs talk w' := by
  cases h with
  | rests hc' hp =>
    cases hc.symm.trans hc'
    cases hrestless
  | goesOn hc' hrestless' hm h =>
    obtain ⟨w₀, hr, rfl⟩ := hm
    exact ⟨w₀, hr, h⟩
  | hears hc' hm h =>
    cases hc.symm.trans hc'
    cases hrestless

/-- A call that waits gets the next reply. -/
theorem Completes.of_waiting {t : Task} (hc : w.calls[i]? = some (.reached (.waiting t))) :
    ∃ w₀ rest, w.Relists w₀ ∧ Completes a i (w₀.turn i (Call.answer a (a.heard rs.head?))) rs.tail rest w' ∧
      talk = (t.request a.scheduler, a.heard rs.head?) :: rest := by
  cases h with
  | rests hc' hp =>
    cases hc.symm.trans hc'
    cases hp
  | goesOn hc' hrestless hm h =>
    cases hc.symm.trans hc'
    cases hrestless
  | hears hc' hm h =>
    cases hc.symm.trans hc'
    obtain ⟨w₀, hr, rfl⟩ := hm
    exact ⟨w₀, _, hr, h, rfl⟩

end Next

/-! ### calls one after the other are a run -/

variable {a : Actuator} {i : Nat} {w w' : World} {rs : List (Outcome Output)} {talk : Talk}

theorem Completes.runs (h : Completes a i w rs talk w') : ∃ ms, w.Runs a ms w' := by
  induction h with
  | rests hc hp => exact ⟨[], .refl _⟩
  | goesOn hc hrestless hm h ih =>
    obtain ⟨ms, hms⟩ := ih
    exact ⟨_ :: ms, _, hm, hms⟩
  | hears hc hm h ih =>
    obtain ⟨ms, hms⟩ := ih
    exact ⟨_ :: ms, _, hm, hms⟩

theorem runs_atOnce {u : Use} {result : Result} (h : u.atOnce a w = some (result, w')) : ∃ ms, w.Runs a ms w' := by
  cases u with
  | enqueue agents =>
    cases h
    exact ⟨_, runs_run a w [.enqueue agents]⟩
  | markTerminal id =>
    cases h
    exact ⟨_, runs_run a w [.markTerminal id]⟩
  | liveJobs =>
    cases h
    exact ⟨[], .refl w⟩
  | job id =>
    cases h
    exact ⟨[], .refl w⟩
  | jobOf x =>
    cases h
    exact ⟨[], .refl w⟩
  | agentsOf id =>
    cases h
    exact ⟨[], .refl w⟩
  | _ => cases h

theorem Serves.runs {u : Use} {result : Result} (h : w.Serves a rs u result talk w') : ∃ ms, w.Runs a ms w' := by
  cases h with
  | atOnce hr hu =>
    obtain ⟨ms, hms⟩ := runs_atOnce hu
    exact ⟨ms, hr.runs hms⟩
  | call hms hopen h hp =>
    obtain ⟨ms, hms⟩ := h.runs
    exact ⟨_, hopen.append hms⟩

/-- **Calls one after the other are a run**, whose events are those that the calls tell. -/
theorem Serial.runs {us : List (Use × List (Outcome Output))} {served : List Served} (h : w.Serial a us served w') :
    (∃ ms, w.Runs a ms w') ∧ w'.history = w.history ++ served.flatMap (·.told) := by
  induction h with
  | nil w => exact ⟨⟨[], .refl w⟩, (List.append_nil _).symm⟩
  | cons h htold hrest ih =>
    obtain ⟨ms, hms⟩ := h.runs
    obtain ⟨⟨ms', hms'⟩, hhistory⟩ := ih
    refine ⟨⟨_, hms.append hms'⟩, ?_⟩
    rw [hhistory, htold, List.append_assoc]
    rfl

theorem exists_serial (a : Actuator) (w : World) (us : List (Use × List (Outcome Output))) :
    ∃ served w', w.Serial a us served w' := by
  induction us generalizing w with
  | nil => exact ⟨[], w, .nil w⟩
  | cons use us ih =>
    obtain ⟨result, talk, w₁, h⟩ := exists_serves a w use.1 use.2
    obtain ⟨ms, hms⟩ := h.runs
    obtain ⟨told, htold⟩ := hms.history
    obtain ⟨served, w', hrest⟩ := ih w₁
    exact ⟨_, w', .cons h htold.symm hrest⟩

end World

end Overlap

end ClusterAgents
