import ClusterAgents.Proofs.Course.Uses

/-!
# Two worlds in step

Two actuators get the same call, and the same replies to what they ask.  Their ledgers say the same, but each of them
finds its tables in an order of its own.  Then they go through the call in step.

* `Call.goOn_alike`, `Call.answer_alike` — a step of a call in two ledgers that say the same;
* `World.InStep`, `World.Completes.same` — a call that goes on to its end in two worlds;
* `World.Begun`, `World.Completes.same_of_opening` — the same from the beginning of the call, unless it is that
  of a cancellation of all jobs.
-/

namespace ClusterAgents.Overlap

open Actuator Ledger

/-! ### a step in two ledgers -/

/-- Two steps that leave ledgers which say the same, and are the same otherwise. -/
def StepAlike (r r' : Account × Call × List Event) : Prop := r.1.ledger.Same r'.1.ledger ∧ r'.2 = r.2

section

variable {a : Actuator} {s s' : Account}

theorem settle_same (hs : s.ledger.Same s'.ledger) (b : Batch) (result : Outcome JobId) :
    (a.settle s b result).ledger.Same (a.settle s' b result).ledger := by
  cases result with
  | ok id => exact hs.activate (job b id)
  | error e => exact hs.failBatch b.id e.message

theorem Call.goOn_alike (a : Actuator) (hs : s.ledger.Same s'.ledger) (c : Call) :
    StepAlike (c.goOn a s) (c.goOn a s') := by
  unfold goOn
  split
  · exact ⟨hs, rfl⟩
  · split
    · exact ⟨hs, rfl⟩
    · exact ⟨settle_same hs _ _, rfl⟩
  · next jobs =>
    unfold killJobs
    dsimp only
    split
    · exact ⟨hs, rfl⟩
    · exact ⟨hs.setStatus (fun _ => Iff.rfl) .killing, rfl⟩
  · exact ⟨hs.record _ _, rfl⟩
  · exact ⟨hs, rfl⟩

theorem Call.answer_alike (a : Actuator) (reply : Outcome Output) (hs : s.ledger.Same s'.ledger)
    (ht : s.ledger.Tidy) (c : Call) : StepAlike (c.answer a reply s) (c.answer a reply s') := by
  unfold answer
  split
  · split
    · exact ⟨hs, rfl⟩
    · next notices result _ =>
      have hnoted : (s.noteAll notices).ledger.Same (s'.noteAll notices).ledger := hs
      exact ⟨settle_same hnoted _ _, rfl⟩
  · split
    · exact ⟨hs.forgets ht fun _ => Iff.rfl, rfl⟩
    · exact ⟨hs.setStatus (fun _ => Iff.rfl) .active, rfl⟩
  · exact ⟨hs, rfl⟩

end

namespace World

variable {a : Actuator} {w w' w₁ w₁' : World} {i i' : Nat}

/-- What was told from two worlds on is the same. -/
def ToldAlike (w w' w₁ w₁' : World) : Prop := ∃ told, w₁.history = w.history ++ told ∧ w₁'.history = w'.history ++ told

theorem ToldAlike.nothing (h : w₁.history = w.history) (h' : w₁'.history = w'.history) : ToldAlike w w' w₁ w₁' :=
  ⟨[], by rw [h, List.append_nil], by rw [h', List.append_nil]⟩

theorem ToldAlike.trans {w₂ w₂' : World} (h : ToldAlike w w' w₁ w₁') (h' : ToldAlike w₁ w₁' w₂ w₂') :
    ToldAlike w w' w₂ w₂' := by
  obtain ⟨es, he, he'⟩ := h
  obtain ⟨fs, hf, hf'⟩ := h'
  exact ⟨es ++ fs, by rw [hf, he, List.append_assoc], by rw [hf', he', List.append_assoc]⟩

/-- Two worlds that say the same, where two calls are at the same place and have told the same since. -/
structure InStep (w w' : World) (i i' : Nat) (w₁ w₁' : World) : Prop where
  ledger : w₁.ledger.Same w₁'.ledger
  call : w₁'.calls[i']? = w₁.calls[i]?
  told : ToldAlike w w' w₁ w₁'

theorem inStep_turn {c : Call} (hc : w.calls[i]? = some c) (hc' : w'.calls[i']? = some c)
    {step : Account → Call → Account × Call × List Event} (h : StepAlike (step w.account c) (step w'.account c)) :
    InStep w w' i i' (w.turn i step) (w'.turn i' step) where
  ledger := by
    unfold World.ledger
    rw [(turn_eq hc step).1, (turn_eq hc' step).1]
    exact h.1
  call := by rw [turn_getElem? hc, turn_getElem? hc', h.2]
  told := ⟨(step w.account c).2.2, turn_history hc step, by rw [turn_history hc', h.2]⟩

theorem InStep.trans {w₂ w₂' : World} (h : InStep w w' i i' w₁ w₁') (h' : InStep w₁ w₁' i i' w₂ w₂') :
    InStep w w' i i' w₂ w₂' := ⟨h'.ledger, h'.call, h.told.trans h'.told⟩

/-- The tables may be found in any order before a step. -/
theorem inStep_relists (hw : w.InOrder) (hs : w.ledger.Same w'.ledger) {c : Call} (hc : w.calls[i]? = some c)
    (hc' : w'.calls[i']? = some c) {step : Account → Call → Account × Call × List Event}
    (hstep : ∀ s s' : Account, s.ledger.Same s'.ledger → s.ledger.Tidy → StepAlike (step s c) (step s' c))
    {w₀ w₀' : World} (hr : w.Relists w₀) (hr' : w'.Relists w₀') :
    InStep w w' i i' (w₀.turn i step) (w₀'.turn i' step) := by
  have hc₀ : w₀.calls[i]? = some c := hr.calls ▸ hc
  have hc₀' : w₀'.calls[i']? = some c := hr'.calls ▸ hc'
  have hs₀ : w₀.ledger.Same w₀'.ledger := hr.same.symm.trans (hs.trans hr'.same)
  have hturn := inStep_turn hc₀ hc₀' (hstep _ _ hs₀ (hr.same.tidy hw.tidy))
  exact ⟨hturn.ledger, hturn.call, (ToldAlike.nothing hr.history hr'.history).trans hturn.told⟩

/-- **A call goes on to the same end in two worlds that say the same**, and asks the same on its way. -/
theorem Completes.same {rs : List (Outcome Output)} {talk talk' : Talk} (h : Completes a i w rs talk w₁)
    (h' : Completes a i' w' rs talk' w₁') (hw : w.InOrder) (hs : w.ledger.Same w'.ledger)
    (hcall : w'.calls[i']? = w.calls[i]?) : InStep w w' i i' w₁ w₁' ∧ talk' = talk := by
  induction h generalizing w' talk' with
  | rests hc hp =>
    obtain ⟨rfl, rfl⟩ := h'.of_over (hcall.trans hc) hp
    exact ⟨⟨hs, hcall, .nothing rfl rfl⟩, rfl⟩
  | goesOn hc hrestless hm h ih =>
    obtain ⟨w₀', hr', hnext⟩ := h'.of_restless (hcall.trans hc) hrestless
    obtain ⟨w₀, hr, rfl⟩ := hm
    have hstep := inStep_relists hw hs hc (hcall.trans hc) (fun _ _ hsame _ => Call.goOn_alike a hsame _) hr hr'
    obtain ⟨hrest, htalk⟩ := ih hnext (hw.moves ⟨w₀, hr, rfl⟩) hstep.ledger hstep.call
    exact ⟨hstep.trans hrest, htalk⟩
  | @hears _ _ _ rs _ _ hc hm h ih =>
    obtain ⟨w₀', rest, hr', hnext, rfl⟩ := h'.of_waiting (hcall.trans hc)
    obtain ⟨w₀, hr, rfl⟩ := hm
    have hstep := inStep_relists hw hs hc (hcall.trans hc)
      (fun _ _ hsame ht => Call.answer_alike a (a.heard rs.head?) hsame ht _) hr hr'
    obtain ⟨hrest, htalk⟩ := ih hnext (hw.moves ⟨w₀, hr, rfl⟩) hstep.ledger hstep.call
    exact ⟨hstep.trans hrest, congrArg _ htalk⟩

/-! ### how calls begin -/

end World

/-- A move with which a call begins that does not go through all jobs. -/
def Move.Opens : Move → Prop
  | .enqueue _ => True
  | .flush => True
  | .killJobs _ => True
  | .killAgents _ => True
  | _ => False

theorem Use.opens_of_opening {u : Use} {ms : List Move} (hms : u.opening = some ms) (hu : u ≠ .killAll) :
    ∀ m ∈ ms, m.Opens := by
  cases u with
  | flush =>
    cases hms
    exact List.forall_mem_singleton.mpr trivial
  | launch agents =>
    cases hms
    exact List.forall_mem_cons.mpr ⟨trivial, List.forall_mem_singleton.mpr trivial⟩
  | killJobs jobs =>
    cases hms
    exact List.forall_mem_singleton.mpr trivial
  | killAgents agents =>
    cases hms
    exact List.forall_mem_singleton.mpr trivial
  | killAll => exact absurd rfl hu
  | _ => cases hms

namespace World

variable {a : Actuator} {w w' w₁ w₁' : World} {i i' : Nat}

/-- Two worlds that say the same, where the same calls have begun and nothing was told since. -/
structure Begun (w w' w₁ w₁' : World) : Prop where
  ledger : w₁.ledger.Same w₁'.ledger
  told : w₁.history = w.history ∧ w₁'.history = w'.history
  calls : ∃ cs, w₁.calls = w.calls ++ cs ∧ w₁'.calls = w'.calls ++ cs

theorem Begun.trans {w₂ w₂' : World} (h : Begun w w' w₁ w₁') (h' : Begun w₁ w₁' w₂ w₂') : Begun w w' w₂ w₂' := by
  obtain ⟨cs, hcs, hcs'⟩ := h.calls
  obtain ⟨ds, hds, hds'⟩ := h'.calls
  exact
    { ledger := h'.ledger
      told := ⟨h'.told.1.trans h.told.1, h'.told.2.trans h.told.2⟩
      calls := ⟨cs ++ ds, by rw [hds, hcs, List.append_assoc], by rw [hds', hcs', List.append_assoc]⟩ }

/-- The call that has begun stands behind those that were there. -/
theorem Begun.inStep (h : Begun w w' w₁ w₁') : InStep w w' w.calls.length w'.calls.length w₁ w₁' where
  ledger := h.ledger
  call := by
    obtain ⟨cs, hcs, hcs'⟩ := h.calls
    rw [hcs, hcs', List.getElem?_append_right (Nat.le_refl _), List.getElem?_append_right (Nat.le_refl _),
      Nat.sub_self, Nat.sub_self]
  told := .nothing h.told.1 h.told.2

theorem begun_relists (hs : w.ledger.Same w'.ledger) (hr : w.Relists w₁) (hr' : w'.Relists w₁') :
    Begun w w' w₁ w₁' where
  ledger := hr.same.symm.trans (hs.trans hr'.same)
  told := ⟨hr.history, hr'.history⟩
  calls := ⟨[], by rw [hr.calls, List.append_nil], by rw [hr'.calls, List.append_nil]⟩

/-- The same calls begin in worlds that say the same. -/
theorem begun_move {m : Move} (hm : m.Opens) (ht : w.ledger.Tidy) (hs : w.ledger.Same w'.ledger) :
    Begun w w' (w.move a m) (w'.move a m) := by
  cases m with
  | enqueue as =>
    exact ⟨(hs.enqueue ht as).1, ⟨rfl, rfl⟩, [], (List.append_nil _).symm, (List.append_nil _).symm⟩
  | flush =>
    obtain ⟨htaken, hbatches⟩ := hs.takeBatches a.batchLimit
    refine ⟨htaken, ⟨rfl, rfl⟩, _, rfl, ?_⟩
    rw [← hbatches]
    rfl
  | killJobs jobs => exact ⟨hs, ⟨rfl, rfl⟩, _, rfl, rfl⟩
  | killAgents as =>
    refine ⟨hs.cancelPending as, ⟨rfl, rfl⟩, _, rfl, ?_⟩
    rw [← hs.jobsOf ht]
    rfl
  | _ => cases hm

theorem Runs.begun {ms : List Move} (hms : ∀ m ∈ ms, m.Opens) (h : w.Runs a ms w₁) (h' : w'.Runs a ms w₁')
    (hw : w.InOrder) (hs : w.ledger.Same w'.ledger) : Begun w w' w₁ w₁' := by
  induction ms generalizing w w' with
  | nil => exact begun_relists hs h h'
  | cons m ms ih =>
    obtain ⟨hm, hms⟩ := List.forall_mem_cons.mp hms
    obtain ⟨_, ⟨w₀, hr, rfl⟩, hrest⟩ := h
    obtain ⟨_, ⟨w₀', hr', rfl⟩, hrest'⟩ := h'
    have hfound := begun_relists hs hr hr'
    have hmoved : Begun w₀ w₀' (w₀.move a m) (w₀'.move a m) := begun_move hm (hr.same.tidy hw.tidy) hfound.ledger
    exact (hfound.trans hmoved).trans (ih hms hrest hrest' (hw.moves ⟨w₀, hr, rfl⟩) hmoved.ledger)

/-- **A call that goes on is the same from its beginning to its end**, but for a cancellation of all jobs. -/
theorem Completes.same_of_opening {u : Use} (hu : u ≠ .killAll) {ms : List Move} (hms : u.opening = some ms)
    {w₂ w₂' : World} (hopen : w.Runs a ms w₁) (hopen' : w'.Runs a ms w₁') (hw : w.InOrder)
    (hs : w.ledger.Same w'.ledger) {rs : List (Outcome Output)} {talk talk' : Talk}
    (h : Completes a w.calls.length w₁ rs talk w₂) (h' : Completes a w'.calls.length w₁' rs talk' w₂') :
    InStep w w' w.calls.length w'.calls.length w₂ w₂' ∧ talk' = talk := by
  have hbegun := (hopen.begun (u.opens_of_opening hms hu) hopen' hw hs).inStep
  obtain ⟨hrest, htalk⟩ := h.same h' (hw.runs hopen) hbegun.ledger hbegun.call
  exact ⟨hbegun.trans hrest, htalk⟩

end World

end ClusterAgents.Overlap
