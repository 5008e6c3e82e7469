import ClusterAgents.Proofs.Course.Batches
import ClusterAgents.Proofs.Overlap.Sound
import Mathlib.Algebra.Order.Floor.Div
import Mathlib.Data.List.Pairwise

/-!
# Flushes that nobody disturbs

A flush cuts what is pending into batches of one size, but for the last, and submits them one after the other.  Some
of them become jobs and some fail, in any way.  What comes of a batch is nobody else's matter.

* `length_pieces`, `length_of_mem_pieces` — how many batches there are, and how large they are;
* `Submits.jobOf?_iff` — the index grows by the agents of the batches that became jobs;
* `flush_goes_through` — what a flush does to the ledger, and what two of them from one state have in common.
-/

namespace ClusterAgents

namespace Ledger

/-! ### how many batches there are -/

theorem length_pieces {α : Type} {size : Nat} (hsize : 0 < size) (xs : List α) :
    (pieces size xs).length = xs.length ⌈/⌉ size := by
  induction xs using pieces.induct size with
  | case1 => simp [pieces]
  | case2 x xs ih =>
    rw [pieces, List.length_cons, ih, Nat.sub_add_cancel hsize, List.length_drop, Nat.ceilDiv_eq_add_pred_div,
      Nat.ceilDiv_eq_add_pred_div]
    have hlen : 0 < (x :: xs).length := Nat.succ_pos _
    generalize (x :: xs).length = n at hlen
    have hn : n + size - 1 = n - 1 + size := by omega
    rw [hn, Nat.add_div_right _ hsize]
    by_cases hle : n ≤ size
    · -- one batch holds them all
      rw [Nat.sub_eq_zero_of_le hle, Nat.div_eq_of_lt (by omega : 0 + size - 1 < size),
        Nat.div_eq_of_lt (by omega : n - 1 < size)]
    · have hn : n - size + size - 1 = n - 1 := by omega
      rw [hn]

theorem length_of_mem_pieces {α : Type} {size : Nat} (hsize : 0 < size) (xs : List α) {ps : List α} (h : ps ∈ pieces size xs) :
    1 ≤ ps.length ∧ ps.length ≤ size := by
  refine ⟨List.length_pos_iff.mpr (ne_nil_of_mem_pieces h), ?_⟩
  induction xs using pieces.induct size with
  | case1 => simp [pieces] at h
  | case2 x xs ih =>
    rw [pieces, Nat.sub_add_cancel hsize] at h
    rcases List.mem_cons.mp h with rfl | h
    · exact List.length_take_le _ _
    · rw [Nat.sub_add_cancel hsize] at ih
      exact ih h

/-- All pieces but the last are full. -/
theorem length_of_mem_dropLast_pieces {α : Type} {size : Nat} (hsize : 0 < size) (xs : List α) {ps : List α}
    (h : ps ∈ (pieces size xs).dropLast) : ps.length = size := by
  induction xs using pieces.induct size with
  | case1 => simp [pieces] at h
  | case2 x xs ih =>
    rw [Nat.sub_add_cancel hsize] at ih
    rw [pieces, Nat.sub_add_cancel hsize] at h
    cases hrest : pieces size ((x :: xs).drop size) with
    | nil => simp [hrest] at h
    | cons qs rest =>
      rw [hrest, List.dropLast_cons_cons] at h
      rcases List.mem_cons.mp h with rfl | h
      · -- there is something left behind it
        have hlong : size < (x :: xs).length := by
          by_contra hshort
          rw [List.drop_eq_nil_of_le (by omega), pieces] at hrest
          cases hrest
        rw [List.length_take]
        omega
      · rw [hrest] at ih
        exact ih h

/-- An agent that is nowhere can be requested. -/
theorem Sound.nowhere {l : Ledger} (h : l.Sound) {x : AgentId} (hpending : x ∉ l.pending) (hflying : x ∉ l.flying)
    (hnone : l.jobOf? x = none) :
    l.knows x = false ∧ (∀ id, l.lists id x = false) ∧ ∀ as, x ∈ as → x ∈ (l.enqueue as).1.pending := by
  have hunknown : l.knows x = false := knows_eq_false_iff.mpr ⟨hpending, hflying, hnone⟩
  refine ⟨hunknown, h.lists_eq_false hnone, fun as hx => ?_⟩
  obtain ⟨new, hnew, -, hmem⟩ := l.enqueue_spec as
  rw [hnew]
  exact List.mem_append_right _ ((hmem x).mpr ⟨hx, hunknown⟩)

end Ledger

namespace Overlap

open Actuator Ledger

/-! ### what batches that are through leave -/

/-- The index after a batch, none of whose agents had a job. -/
theorem settle_jobOf? (a : Actuator) (s : Account) (b : Batch) (result : Outcome JobId) (x : AgentId) (id : JobId)
    (hfree : x ∈ b.agents → s.ledger.jobOf? x = none) :
    (a.settle s b result).ledger.jobOf? x = some id ↔
      s.ledger.jobOf? x = some id ∨ x ∈ b.agents ∧ result = .ok id := by
  cases result with
  | ok job =>
    have hledger : (a.settle s b (.ok job)).ledger = (s.ledger.activate (Actuator.job b job)).1 := rfl
    have hhosts : (a.settle s b (.ok job)).ledger.jobOf? x =
        if x ∈ b.agents then some job else s.ledger.jobOf? x := by
      rw [hledger, activate_fst, jobOf?, record_hosts]
      exact Table.get?_foldl_insert _ _ _ _
    rw [hhosts]
    by_cases hx : x ∈ b.agents
    · simp [hx, hfree hx]
    · simp [hx]
  | error e =>
    have hledger : (a.settle s b (.error e)).ledger = (s.ledger.failBatch b.id e.message).1 := rfl
    rw [hledger, failBatch_fst, jobOf?, record_hosts]
    simp [jobOf?]

/-- No two batches have an agent in common. -/
theorem eq_of_mem_agents {subs : List Submission} (honce : (subs.map (·.agents)).flatten.Nodup) {sub sub' : Submission}
    (hsub : sub ∈ subs) (hsub' : sub' ∈ subs) {x : AgentId} (hx : x ∈ sub.agents) (hx' : x ∈ sub'.agents) :
    sub = sub' := by
  by_contra hne
  have hapart := List.pairwise_map.mp (List.nodup_flatten.mp honce).2
  have : Std.Symm fun sub sub' : Submission => sub.agents.Disjoint sub'.agents := ⟨fun _ _ h => h.symm⟩
  exact hapart.forall hsub hsub' hne hx hx'

namespace Submits

variable {a : Actuator} {s s' : Account} {batches : List (BatchId × List AgentId)} {talk : Talk}
  {subs : List Submission}

/-- Batches that are through are not in flight any more, and nothing else is taken out of flight. -/
theorem frame (h : Submits a s batches talk subs s') :
    s'.ledger.pending = s.ledger.pending ∧ s'.ledger.counter = s.ledger.counter ∧
      s'.ledger.inFlight.entries = s.ledger.inFlight.entries.filter fun e => e.1 ∉ batches.map (·.1) := by
  induction h with
  | nil s => simp
  | @cons s s' id agents rest said talk result subs notices now later ih =>
    have hchange := settle_change a (s.noteAll notices) (a.batch id agents) result
    obtain ⟨hpending, hcounter, hinFlight⟩ := ih
    refine ⟨hpending.trans hchange.pending, hcounter.trans hchange.counter, ?_⟩
    rw [hinFlight, hchange.inFlight, List.filter_filter]
    refine List.filter_congr fun e _ => ?_
    by_cases he : e.1 = id <;> simp [he, Actuator.batch]

theorem sound (h : Submits a s batches talk subs s') (hs : s.ledger.Sound)
    (hflying : ∀ b ∈ batches, b ∈ s.ledger.inFlight.entries) (hids : (batches.map (·.1)).Nodup) : s'.ledger.Sound := by
  induction h with
  | nil => exact hs
  | @cons s s' id agents rest said talk result subs notices now later ih =>
    have hchange := settle_change a (s.noteAll notices) (a.batch id agents) result
    obtain ⟨hnow, hlater⟩ := List.forall_mem_cons.mp hflying
    obtain ⟨hid, hids⟩ := List.nodup_cons.mp hids
    refine ih (hchange.sound hs ?_) (fun b hb => ?_) hids
    · intro b hb
      obtain rfl := List.mem_singleton.mp hb
      exact hnow
    · have hmem : b.1 ∈ rest.map (·.1) := List.mem_map_of_mem hb
      have hne : b.1 ≠ id := ne_of_mem_of_not_mem hmem hid
      rw [hchange.inFlight]
      exact List.mem_filter.mpr ⟨hlater b hb, by simpa [Actuator.batch] using hne⟩

/-- **The index grows by the agents of the batches that became jobs**, if these agents had no job before. -/
theorem jobOf?_iff (h : Submits a s batches talk subs s') (honce : (batches.map (·.2)).flatten.Nodup)
    (hfree : ∀ x ∈ (batches.map (·.2)).flatten, s.ledger.jobOf? x = none) (x : AgentId) (id : JobId) :
    s'.ledger.jobOf? x = some id ↔
      s.ledger.jobOf? x = some id ∨ ∃ sub ∈ subs, x ∈ sub.agents ∧ sub.result = .ok id := by
  induction h with
  | nil => simp
  | @cons s s' id' agents rest said talk result subs notices now later ih =>
    rw [List.map_cons, List.flatten_cons] at honce hfree
    obtain ⟨-, honce, hapart⟩ := List.nodup_append'.mp honce
    obtain ⟨hnow, hlater⟩ := List.forall_mem_append.mp hfree
    have hsettle (y : AgentId) (job : JobId) :=
      settle_jobOf? a (s.noteAll notices) (a.batch id' agents) result y job (hnow y)
    rw [ih honce ?_, hsettle, or_assoc, List.exists_mem_cons_iff]
    · rfl
    · intro y hy
      refine Option.eq_none_iff_forall_ne_some.mpr fun job hjob => ?_
      rcases (hsettle y job).mp hjob with hold | ⟨hmem, -⟩
      · rw [show (s.noteAll notices).ledger.jobOf? y = none from hlater y hy] at hold
        cases hold
      · exact hapart hmem hy

/-- An agent of a batch that failed has no job, since it is in no other batch. -/
theorem jobOf?_failed (h : Submits a s batches talk subs s') (honce : (batches.map (·.2)).flatten.Nodup)
    (hfree : ∀ x ∈ (batches.map (·.2)).flatten, s.ledger.jobOf? x = none) {sub : Submission} (hsub : sub ∈ subs)
    {e : Error} (hresult : sub.result = .error e) {x : AgentId} (hx : x ∈ sub.agents) : s'.ledger.jobOf? x = none := by
  have hlists : subs.map (·.agents) = batches.map (·.2) := h.agents_eq
  refine Option.eq_none_iff_forall_ne_some.mpr fun id hid => ?_
  rcases (h.jobOf?_iff honce hfree x id).mp hid with hold | ⟨sub', hsub', hx', hresult'⟩
  · have hmem : x ∈ (subs.map (·.agents)).flatten := List.mem_flatten_of_mem (List.mem_map_of_mem hsub) hx
    rw [hfree x (hlists ▸ hmem)] at hold
    cases hold
  · obtain rfl := eq_of_mem_agents (hlists ▸ honce) hsub hsub' hx hx'
    rw [hresult] at hresult'
    cases hresult'

/-- Batches that were put in flight behind others leave these when they are through. -/
theorem inFlight_eq (h : Submits a s batches talk subs s') {before : Table BatchId (List AgentId)}
    (hbefore : s.ledger.inFlight.entries = before.entries ++ batches)
    (hnew : ∀ k ∈ before.keys, k ∉ batches.map (·.1)) : s'.ledger.inFlight = before := by
  refine congrArg Table.mk ?_
  rw [h.frame.2.2, hbefore, List.filter_append, List.filter_eq_self.mpr ?_, List.filter_eq_nil_iff.mpr ?_,
    List.append_nil]
  · intro e he
    have hmem : e.1 ∈ batches.map (·.1) := List.mem_map_of_mem he
    rw [decide_eq_true_iff]
    exact not_not_intro hmem
  · intro e he
    exact decide_eq_true (hnew e.1 (List.mem_map_of_mem he))

end Submits

/-! ### whole flushes -/

/-- What a flush does to the ledger, and what it answers after what was said. -/
structure Flushed (a : Actuator) (l l' : Ledger) (subs : List Submission) (talk : Talk) : Prop where
  count : subs.length = l.pending.length ⌈/⌉ a.batchLimit
  numbers : subs.map (·.batch) = List.range' (l.counter + 1) subs.length
  agents : (subs.map (·.agents)).flatten = l.pending
  sizes : ∀ sub ∈ subs, 1 ≤ sub.agents.length ∧ sub.agents.length ≤ a.batchLimit
  full : ∀ sub ∈ subs.dropLast, sub.agents.length = a.batchLimit
  pending : l'.pending = []
  counter : l'.counter = l.counter + subs.length
  inFlight : l'.inFlight = l.inFlight
  hosts : ∀ x id, l'.jobOf? x = some id ↔
    l.jobOf? x = some id ∨ ∃ sub ∈ subs, x ∈ sub.agents ∧ sub.result = .ok id
  /-- Agents of a batch that failed are nowhere, and can be requested again. -/
  failed : ∀ sub ∈ subs, ∀ e, sub.result = .error e → ∀ x ∈ sub.agents,
    l'.knows x = false ∧ (∀ id, l'.lists id x = false) ∧ ∀ as, x ∈ as → x ∈ (l'.enqueue as).1.pending
  /-- What was said of a batch is all that matters for it. -/
  concluded : ∀ sub ∈ subs, Concluded a (a.batchOf sub) (talk.about (a.batchOf sub)) sub.result

/-- Every other flush from the same state that hears the same of a batch says the same of it, with the same script, and
answers the same. -/
def Separates (a : Actuator) (s : Account) (subs : List Submission) (talk : Talk) : Prop :=
  ∀ (host : Respondent) (s' : Account) (subs' : List Submission) (talk' : Talk),
    a.undisturbed host (a.flush s) = ((s', .flushed subs'), talk') →
    ∀ (k : Nat) (sub sub' : Submission), subs[k]? = some sub → subs'[k]? = some sub' →
      (talk.about (a.batchOf sub)).Alike (talk'.about (a.batchOf sub)) →
      sub = sub' ∧ talk.about (a.batchOf sub) = talk'.about (a.batchOf sub)

theorem batchLimit_pos (a : Actuator) : 0 < a.batchLimit := Nat.le_max_right _ _

theorem takeBatches_pieces (a : Actuator) (l : Ledger) :
    (l.takeBatches a.batchLimit).2.map (·.2) = pieces a.batchLimit l.pending := by
  rw [takeBatches_agents, Nat.max_eq_left (batchLimit_pos a)]

theorem Submits.flushed {a : Actuator} {s s' : Account} {talk : Talk} {subs : List Submission} (hl : s.ledger.Sound)
    (h : Submits a { s with ledger := (s.ledger.takeBatches a.batchLimit).1 } (s.ledger.takeBatches a.batchLimit).2 talk
      subs s') : Flushed a s.ledger s'.ledger subs talk := by
  obtain ⟨htaken, hids, hagents⟩ := s.ledger.takeBatches_spec hl.low a.batchLimit
  have hpieces := takeBatches_pieces a s.ledger
  have hsound := hl.takeBatches a.batchLimit
  generalize (s.ledger.takeBatches a.batchLimit).2 = batches at h htaken hids hagents hpieces
  rw [htaken] at h hsound
  have hlen : subs.length = batches.length := by rw [← h.batches_eq, List.length_map]
  have hnumbers : (batches.map (·.1)).Nodup := by
    rw [hids]
    exact List.nodup_range'
  have honce : (batches.map (·.2)).flatten.Nodup := by
    rw [hagents]
    exact (List.nodup_append'.mp hl.once).1
  have hfree (x : AgentId) (hx : x ∈ (batches.map (·.2)).flatten) : s.ledger.jobOf? x = none :=
    hl.free x (List.mem_append_left _ (hagents ▸ hx))
  have hpending : s'.ledger.pending = [] := h.frame.1
  have hinFlight : s'.ledger.inFlight = s.ledger.inFlight := by
    refine h.inFlight_eq rfl fun k hk hnew => ?_
    -- what was in flight before has a lower number
    rw [hids, List.mem_range'_1] at hnew
    exact Nat.not_le_of_lt hnew.1 (hl.low k hk)
  constructor
  · rw [hlen, ← length_pieces (batchLimit_pos a), ← hpieces, List.length_map]
  · rw [hlen, ← hids, ← h.batches_eq, List.map_map]
    rfl
  · rw [h.agents_eq, hagents]
  · intro sub hsub
    refine length_of_mem_pieces (batchLimit_pos a) s.ledger.pending ?_
    rw [← hpieces, ← h.agents_eq]
    exact List.mem_map_of_mem hsub
  · intro sub hsub
    refine length_of_mem_dropLast_pieces (batchLimit_pos a) s.ledger.pending ?_
    rw [← hpieces, ← h.agents_eq, ← List.map_dropLast]
    exact List.mem_map_of_mem hsub
  · exact hpending
  · rw [h.frame.2.1, hlen]
  · exact hinFlight
  · exact h.jobOf?_iff honce hfree
  · intro sub hsub e hresult x hx
    have hmem : x ∈ (subs.map (·.agents)).flatten := List.mem_flatten_of_mem (List.mem_map_of_mem hsub) hx
    have hsound' := h.sound hsound (fun b hb => List.mem_append_right _ hb) hnumbers
    refine hsound'.nowhere ?_ ?_ (h.jobOf?_failed honce hfree hsub hresult hx)
    · rw [hpending]
      exact List.not_mem_nil
    · rw [flying, hinFlight]
      exact (List.nodup_append'.mp hl.once).2.2 (by rwa [← hagents, ← h.agents_eq])
  · exact h.about hnumbers

/-- **A flush goes through**, whatever it hears. -/
theorem flush_goes_through (a : Actuator) (ms : List Move) (host : Respondent) :
    ∃ s' subs talk,
      a.undisturbed host (a.flush (World.after a ms).account) = ((s', .flushed subs), talk) ∧
      Flushed a (World.after a ms).ledger s'.ledger subs talk ∧ Separates a (World.after a ms).account subs talk := by
  have hl : (World.after a ms).ledger.Sound := (World.sound_after a ms).ledger
  obtain ⟨s', subs, talk, hrun, hsubmits⟩ := undisturbed_flush a host (World.after a ms).account
  refine ⟨s', subs, talk, hrun, hsubmits.flushed hl, ?_⟩
  intro host₁ s₁ subs₁ talk₁ hrun₁ k sub sub₁ hsub hsub₁ halike
  obtain ⟨s₂, subs₂, talk₂, hrun₂, hsubmits₂⟩ := undisturbed_flush a host₁ (World.after a ms).account
  rw [hrun₁] at hrun₂
  cases hrun₂
  refine hsubmits.alike hsubmits₂ ?_ hsub hsub₁ halike
  rw [((World.after a ms).ledger.takeBatches_spec hl.low a.batchLimit).2.1]
  exact List.nodup_range'

end Overlap

end ClusterAgents
