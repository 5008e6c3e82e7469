import ClusterAgents.Proofs.Overlap.Changes

/-!
# What holds of all calls that overlap

`World.Sound` is the invariant that every move keeps (`World.Sound.move`), and so every run
(`World.sound_after`).  Its heart is that the batches in flight are those which the calls have taken and
not finished, told apart by their numbers.  A call that finishes a batch relies on that: the batch is
still in flight then, with the agents it was handed out with, so that its agents pass from the flight to
the job and to no other place.

`agents_stand_in_one_place` says what this means for the ledger alone.
-/

namespace ClusterAgents

namespace Overlap

open Ledger

namespace World

/-- **The invariant of calls that overlap.** -/
structure Sound (w : World) : Prop where
  ledger : w.ledger.Sound
  /-- What is in flight is what the calls have left. -/
  flying : w.ledger.inFlight.entries.Perm (w.calls.flatMap Call.batches)
  numbered : w.handedOut.map (·.1) = List.range' 1 w.ledger.counter
  /-- What is in flight was handed out. -/
  taken : ∀ b ∈ w.ledger.inFlight.entries, b ∈ w.handedOut
  /-- Of each batch one outcome was told, unless it is in flight. -/
  told : (w.history.filterMap Event.batch? ++ w.ledger.inFlight.keys).Perm (w.handedOut.map (·.1))
  /-- The submission of each job was told. -/
  entered : ∀ {id job}, w.ledger.jobs.get? id = some job → Event.submitted job.batch id ∈ w.history
  latest : w.ledger.events = Ledger.latest w.history

namespace Sound

variable {w : World}

theorem empty : Sound {} where
  ledger := .empty
  flying := List.Perm.nil
  numbered := rfl
  taken := by simp
  told := List.Perm.nil
  entered := by simp
  latest := rfl

/-- The batches of a call are in flight. -/
theorem mem_inFlight (h : w.Sound) {c : Call} (hc : c ∈ w.calls) {b : BatchId × List AgentId}
    (hb : b ∈ c.batches) : b ∈ w.ledger.inFlight.entries :=
  h.flying.symm.subset (List.mem_flatMap.mpr ⟨c, hc, hb⟩)

/-- The numbers of all batches are told apart, those told of and those in flight. -/
theorem told_nodup (h : w.Sound) :
    (w.history.filterMap Event.batch? ++ w.ledger.inFlight.keys).Nodup := by
  rw [h.told.nodup_iff, h.numbered]
  exact List.nodup_range'

/-- The place of a call's batches among those in flight. -/
theorem flying_split (h : w.Sound) {xs ys : List Call} {c c' : Call}
    {bs : List (BatchId × List AgentId)} (hw : w.calls = xs ++ c :: ys)
    (hc : c.batches = bs ++ c'.batches) :
    w.ledger.inFlight.entries.Perm (xs.flatMap Call.batches ++
      (bs ++ (c'.batches ++ ys.flatMap Call.batches))) := by
  have := h.flying
  rwa [hw, List.flatMap_append, List.flatMap_cons, hc, List.append_assoc] at this

/-- What a step of a call finishes and what it leaves in flight were in flight before. -/
theorem finished_perm (h : w.Sound) {xs ys : List Call} {c c' : Call}
    {bs : List (BatchId × List AgentId)} {l' : Ledger} {es : List Event}
    (hw : w.calls = xs ++ c :: ys) (hc : c.batches = bs ++ c'.batches)
    (hch : Change w.ledger l' bs es) :
    w.ledger.inFlight.entries.Perm (bs ++ l'.inFlight.entries) := by
  rw [hch.inFlight]
  exact part_filter_perm (h.flying_split hw hc) h.ledger.keyed

theorem change (h : w.Sound) {xs ys : List Call} {c c' : Call}
    {bs : List (BatchId × List AgentId)} {s' : Account} {es : List Event}
    (hw : w.calls = xs ++ c :: ys) (hc : c.batches = bs ++ c'.batches)
    (hch : Change w.ledger s'.ledger bs es) :
    Sound { w with account := s', calls := xs ++ c' :: ys, history := w.history ++ es } := by
  have hperm := h.finished_perm hw hc hch
  have hbs : ∀ b ∈ bs, b ∈ w.ledger.inFlight.entries := fun b hb =>
    hperm.symm.subset (List.mem_append_left _ hb)
  refine ⟨hch.sound h.ledger hbs, ?_, ?_, fun b hb => ?_, ?_, fun {id job} hj => ?_,
    hch.latest h.latest⟩
  · rw [hch.inFlight, List.flatMap_append, List.flatMap_cons]
    exact filter_keys_perm (h.flying_split hw hc) h.ledger.keyed
  · rw [show w.handedOut.map (·.1) = _ from h.numbered, ← hch.counter]
  · exact h.taken b (hperm.symm.subset (List.mem_append_right _ hb))
  · -- the numbers that leave the flight are the ones that are told of
    have hkeys : w.ledger.inFlight.keys.Perm (bs.map (·.1) ++ s'.ledger.inFlight.keys) := by
      simpa [Table.keys] using hperm.map (·.1)
    refine List.Perm.trans ?_ h.told
    rw [List.filterMap_append, hch.told, List.append_assoc]
    exact hkeys.symm.append_left _
  · rcases hch.jobs hj with ⟨job', hj', hb⟩ | he
    · exact List.mem_append_left _ (hb ▸ h.entered hj')
    · exact List.mem_append_right _ he

/-- A call that has taken nothing begins. -/
theorem begin (h : w.Sound) {c : Call} (hc : c.batches = []) : Sound (w.begin c) :=
  { h with
    flying := by
      rw [World.begin, List.flatMap_append, List.flatMap_singleton, hc, List.append_nil]
      exact h.flying }

theorem takeBatches (h : w.Sound) (a : Actuator) : Sound (w.move a .flush) := by
  obtain ⟨hl, hk, -⟩ := w.ledger.takeBatches_spec h.ledger.low a.batchLimit
  have hL := h.ledger.takeBatches a.batchLimit
  refine ⟨hL, ?_, ?_, ?_, ?_, ?_, ?_⟩ <;>
    simp only [World.move, World.begin, World.ledger] at hl hk ⊢ <;> rw [hl]
  · rw [List.flatMap_append, List.flatMap_singleton]
    exact h.flying.append_right _
  · rw [List.map_append, hk, h.numbered, Nat.add_comm w.account.ledger.counter 1,
      List.range'_append_1]
  · intro b hb
    rcases List.mem_append.mp hb with hb | hb
    · exact List.mem_append_left _ (h.taken b hb)
    · exact List.mem_append_right _ hb
  · simp only [Table.keys, List.map_append]
    rw [← List.append_assoc]
    exact h.told.append_right _
  · exact h.entered
  · exact h.latest

/-- **A move keeps the invariant.** -/
theorem move (h : w.Sound) (a : Actuator) (m : Move) : Sound (w.move a m) := by
  cases m with
  | enqueue as =>
    obtain ⟨new, hl, -, -⟩ := w.ledger.enqueue_spec as
    have hL := h.ledger.enqueue as
    refine ⟨hL, ?_, ?_, ?_, ?_, ?_, ?_⟩ <;>
      simp only [World.move, World.ledger, Account.amend] at hl ⊢ <;> rw [hl]
    exacts [h.flying, h.numbered, h.taken, h.told, h.entered, h.latest]
  | flush => exact h.takeBatches a
  | killJobs jobs => exact h.begin rfl
  | killAgents as =>
    have hc : Sound { w with account := w.account.update (·.cancelPending as) } :=
      { h with ledger := h.ledger.cancelPending as }
    exact hc.begin rfl
  | killAll => exact h.begin rfl
  | markTerminal id =>
    rcases w.move_markTerminal a id with ⟨-, hm⟩ | ⟨job, l', hr, hm⟩
    · rwa [hm]
    · have hL := (h.ledger.removeJob hr).record (.finished id)
      obtain ⟨-, rfl⟩ := removeJob_spec hr
      rw [hm]
      refine ⟨hL, h.flying, h.numbered, h.taken, ?_, fun {id' job'} hj => ?_,
        record_events h.latest _⟩
      · rw [List.filterMap_append, List.append_assoc]
        exact h.told
      · simp only [World.ledger, record_jobs, Table.get?_erase] at hj
        split at hj
        · cases hj
        · exact List.mem_append_left _ (h.entered hj)
  | goOn i => exact turn_keeps h (goOn_steps a) i fun _ _ _ _ _ _ _ hw hc hch => h.change hw hc hch
  | answer i reply =>
    exact turn_keeps h (answer_steps a reply) i fun _ _ _ _ _ _ _ hw hc hch => h.change hw hc hch
  | drop i => exact turn_keeps h drop_steps i fun _ _ _ _ _ _ _ hw hc hch => h.change hw hc hch

theorem run (h : w.Sound) (a : Actuator) (ms : List Move) : Sound (w.run a ms) :=
  run_keeps (fun _ m h => h.move a m) h ms

end Sound

/-- **The invariant holds whatever calls overlap.** -/
theorem sound_after (a : Actuator) (ms : List Move) : Sound (after a ms) := Sound.empty.run a ms

end World

/-! ### every agent has its place -/

/-- Every agent stands in one place: it is pending, in one batch in flight, or hosted by one job; and
every batch has a number of its own. -/
structure OnePlace (l : Ledger) : Prop where
  pending_nodup : l.pending.Nodup
  batch_nodup : ∀ {id as}, l.inFlight.get? id = some as → as.Nodup
  batches_disjoint : ∀ {id as id' as'}, l.inFlight.get? id = some as →
    l.inFlight.get? id' = some as' → id ≠ id' → as.Disjoint as'
  pending_inFlight : ∀ {id as}, l.inFlight.get? id = some as → l.pending.Disjoint as
  pending_hosts : ∀ x ∈ l.pending, l.hosts.get? x = none
  inFlight_hosts : ∀ {id as}, l.inFlight.get? id = some as → ∀ x ∈ as, l.hosts.get? x = none
  jobs_own : ∀ {id job}, l.jobs.get? id = some job → job.id = id
  jobs_hosts : ∀ {id job}, l.jobs.get? id = some job → ∀ x ∈ job.agents, l.hosts.get? x = some id
  jobs_disjoint : ∀ {id job id' job'}, l.jobs.get? id = some job → l.jobs.get? id' = some job' →
    id ≠ id' → job.agents.Disjoint job'.agents
  numbers_nodup : l.inFlight.keys.Nodup
  inFlight_jobs : ∀ {id job}, l.jobs.get? id = some job → l.inFlight.get? job.batch = none
  jobs_batches : ∀ {id job id' job'}, l.jobs.get? id = some job → l.jobs.get? id' = some job' →
    id ≠ id' → job.batch ≠ job'.batch
  inFlight_numbers : ∀ {id}, id ∈ l.inFlight.keys → 1 ≤ id ∧ id ≤ l.counter
  jobs_numbers : ∀ {id job}, l.jobs.get? id = some job → 1 ≤ job.batch ∧ job.batch ≤ l.counter

/-- Two events that tell the outcome of one batch are one event, if outcomes are told only once. -/
theorem told_once {history : List Event} (h : (history.filterMap Event.batch?).Nodup)
    {e e' : Event} (he : e ∈ history) (he' : e' ∈ history) {id : BatchId}
    (hb : e.batch? = some id) (hb' : e'.batch? = some id) : e = e' := by
  induction history with
  | nil => cases he
  | cons x xs ih =>
    have hx : ∀ y ∈ xs, y.batch? = some id → x.batch? ≠ some id := by
      intro y hy hyb hxb
      rw [List.filterMap_cons_some hxb] at h
      exact (List.nodup_cons.mp h).1 (List.mem_filterMap.mpr ⟨y, hy, hyb⟩)
    have hxs : (xs.filterMap Event.batch?).Nodup :=
      h.sublist ((List.sublist_cons_self x xs).filterMap _)
    rcases List.mem_cons.mp he with rfl | h₁ <;> rcases List.mem_cons.mp he' with rfl | h₂
    · rfl
    · exact absurd hb (hx e' h₂ hb')
    · exact absurd hb' (hx e h₁ hb)
    · exact ih hxs h₁ h₂

/-- **Every agent stands in one place**, whatever calls overlap and whatever job ids the scheduler
prints. -/
theorem agents_stand_in_one_place (a : Actuator) (ms : List Move) :
    OnePlace (World.after a ms).ledger := by
  have h := World.sound_after a ms
  generalize World.after a ms = w at h
  have hl := h.ledger
  have hmem : ∀ {id as}, w.ledger.inFlight.get? id = some as → (id, as) ∈ w.ledger.inFlight.entries :=
    Table.mem_entries_of_get?
  have hfly : ∀ {id as}, w.ledger.inFlight.get? id = some as → ∀ x ∈ as, x ∈ w.ledger.flying :=
    fun hb x hx => mem_flying.mpr ⟨_, hmem hb, hx⟩
  have hout := List.nodup_append'.mp h.told_nodup
  have hnum : ∀ {id}, id ∈ w.history.filterMap Event.batch? ++ w.ledger.inFlight.keys →
      1 ≤ id ∧ id ≤ w.ledger.counter := fun hid => by
    have := h.told.subset hid
    rw [h.numbered, List.mem_range'_1] at this
    exact ⟨this.1, Nat.lt_one_add_iff.mp this.2⟩
  have htold : ∀ {id job}, w.ledger.jobs.get? id = some job →
      job.batch ∈ w.history.filterMap Event.batch? := fun hj =>
    List.mem_filterMap.mpr ⟨_, h.entered hj, rfl⟩
  refine
    { pending_nodup := (List.nodup_append'.mp hl.once).1
      batch_nodup := fun hb => hl.batch_nodup (hmem hb)
      batches_disjoint := fun hb hb' => hl.batches_disjoint (hmem hb) (hmem hb')
      pending_inFlight := fun hb x hx hx' => (List.nodup_append'.mp hl.once).2.2 hx (hfly hb x hx')
      pending_hosts := fun x hx => hl.free x (List.mem_append_left _ hx)
      inFlight_hosts := fun hb x hx => hl.free x (List.mem_append_right _ (hfly hb x hx))
      jobs_own := hl.own
      jobs_hosts := hl.hosted
      jobs_disjoint := fun hj hj' hne x hx hx' => ?_
      numbers_nodup := hl.keyed
      inFlight_jobs := fun hj => Table.get?_eq_none_iff.mpr (hout.2.2 (htold hj))
      jobs_batches := fun hj hj' hne hb => ?_
      inFlight_numbers := fun hid => hnum (List.mem_append_right _ hid)
      jobs_numbers := fun hj => hnum (List.mem_append_left _ (htold hj)) }
  · have := hl.hosted hj x hx
    rw [hl.hosted hj' x hx'] at this
    exact hne (Option.some.inj this).symm
  · have he := told_once hout.1 (h.entered hj) (h.entered hj') rfl (congrArg some hb.symm)
    exact hne (Event.submitted.inj he).2

end Overlap

end ClusterAgents
