import ClusterAgents.Proofs.Overlap.Agents

/-!
# One outcome for each batch

A batch that was handed out is in flight as long as its flush is at it, and told of by one event from
then on.  That event is written in three places, where a batch becomes a job, where it fails, and where
a flush is given up that still had it before it; `every_batch_has_one_outcome` says that no batch passes
two of them and none gets by all three.

An agent that is known nowhere stays so until a request for it is accepted.  Hence the agents of a flush
that was given up can be requested again, however much time has passed.
-/

namespace ClusterAgents

namespace Overlap

open Actuator Ledger

/-- A flush that is not over. -/
def Call.flushes : Call → Bool
  | .turning _ _ => true
  | .reached (.waiting (.flush _)) => true
  | _ => false

theorem Call.flushes_of_mem {c : Call} {b : BatchId × List AgentId} (h : b ∈ c.batches) :
    c.flushes = true := by
  unfold Call.batches at h
  split at h
  · rfl
  · rfl
  · cases h

namespace World

namespace Sound

variable {w : World}

/-- A key is in flight with the batch of a call that has it left. -/
theorem get?_iff (h : w.Sound) {id : BatchId} {as : List AgentId} :
    w.ledger.inFlight.get? id = some as ↔ ∃ c ∈ w.calls, (id, as) ∈ c.batches := by
  rw [Table.get?_eq_some_iff h.ledger.keyed, h.flying.mem_iff, List.mem_flatMap]

/-- The outcomes that were told of a batch are counted. -/
theorem count_told (h : w.Sound) (id : BatchId) :
    (w.history.filterMap Event.batch?).count id =
      if id ∈ w.handedOut.map (·.1) ∧ w.ledger.inFlight.contains id = false then 1 else 0 := by
  have hn := h.told_nodup
  have hout := List.nodup_append'.mp hn
  have hc := h.told.mem_iff (a := id)
  rw [List.mem_append, ← Table.contains_iff] at hc
  rw [hout.1.count]
  refine if_congr ⟨fun ht => ⟨hc.mp (.inl ht), ?_⟩, fun ⟨hi, hf⟩ => ?_⟩ rfl rfl
  · rw [← Bool.not_eq_true, Table.contains_iff]
    exact hout.2.2 ht
  · exact (hc.mpr hi).resolve_right (by simp [hf])

end Sound

/-! ### giving up a flush -/

/-- What giving up a flush does. -/
structure GivesUp (a : Actuator) (w : World) (i : Nat) (f : Flush) : Prop where
  /-- One failure is told for each of its batches that was not through. -/
  told : (w.move a (.drop i)).history = w.history ++ f.unfinished.map fun b => .abandoned b.1
  /-- These batches are no longer in flight, and all others are. -/
  inFlight : ∀ id as, (w.move a (.drop i)).ledger.inFlight.get? id = some as ↔
    w.ledger.inFlight.get? id = some as ∧ (id, as) ∉ f.unfinished
  /-- Other calls keep their place and their batches. -/
  others : ∀ j c, j ≠ i → w.calls[j]? = some c → (w.move a (.drop i)).calls[j]? = some c ∧
    ∀ b ∈ c.batches, (w.move a (.drop i)).ledger.inFlight.get? b.1 = some b.2
  /-- The agents are accepted by the next request for them. -/
  again : ∀ b ∈ f.unfinished, ∀ x ∈ b.2, ∀ ms as, (∀ as', .enqueue as' ∈ ms → x ∉ as') → x ∈ as →
    x ∉ ((w.move a (.drop i)).run a ms).ledger.pending ∧
      x ∈ (((w.move a (.drop i)).run a ms).move a (.enqueue as)).ledger.pending

/-- A request for an agent that is unknown is accepted. -/
theorem mem_pending_enqueue {w : World} (a : Actuator) {x : AgentId} {as : List AgentId}
    (hx : w.ledger.knows x = false) (has : x ∈ as) :
    x ∈ (w.move a (.enqueue as)).ledger.pending := by
  rw [show (w.move a (.enqueue as)).ledger = _ from w.ledger.enqueue_fst as]
  exact List.mem_append_right _ (mem_accepted.mpr ⟨has, hx⟩)

theorem Sound.givesUp {w : World} (h : w.Sound) (a : Actuator) {i : Nat} {f : Flush}
    (hi : w.calls[i]? = some (.reached (.waiting (.flush f)))) : GivesUp a w i f := by
  have hw : w.move a (.drop i) =
      { w with
        account := abandon (.flush f) w.account
        calls := w.calls.set i .dropped
        history := w.history ++ f.unfinished.map fun b => .abandoned b.1 } := by
    simp [World.move, turn, hi, Call.drop]
  have hl : (w.move a (.drop i)).ledger =
      w.ledger.failAll f.unfinished "Submission was abandoned" := by
    rw [hw]
    exact abandonBatches_ledger w.account f.unfinished
  have h' := h.move a (.drop i)
  obtain ⟨xs, ys, hcalls, -⟩ := calls_split hi
  have hch := Change.failed (l := w.ledger) f.unfinished "Submission was abandoned"
  have hbatches : (Call.reached (.waiting (.flush f))).batches = f.unfinished ++ Call.dropped.batches :=
    (List.append_nil _).symm
  have hperm := h.finished_perm hcalls hbatches hch
  rw [← hl] at hperm
  have hnodup : (f.unfinished ++ (w.move a (.drop i)).ledger.inFlight.entries).Nodup :=
    hperm.nodup_iff.mp (List.Nodup.of_map _ h.ledger.keyed)
  refine ⟨by rw [hw], fun id as => ?_, fun j c hj hc => ?_, fun b hb x hx ms as hms has => ?_⟩
  · rw [Table.get?_eq_some_iff h.ledger.keyed, Table.get?_eq_some_iff h'.ledger.keyed,
      hperm.mem_iff, List.mem_append]
    refine ⟨fun hm => ⟨.inr hm, fun hu => (List.nodup_append'.mp hnodup).2.2 hu hm⟩, ?_⟩
    exact fun hm => hm.1.resolve_left hm.2
  · have hc' : (w.move a (.drop i)).calls[j]? = some c := by
      rw [hw, List.getElem?_set_ne (Ne.symm hj)]
      exact hc
    refine ⟨hc', fun b hb => (Table.get?_eq_some_iff h'.ledger.keyed).mpr ?_⟩
    exact h'.mem_inFlight (List.mem_of_getElem? hc') hb
  · -- the agent was in flight, and in no other place
    have hfl : x ∈ w.ledger.flying := mem_flying.mpr
      ⟨b, h.mem_inFlight (List.mem_of_getElem? hi) hb, hx⟩
    have hdis := Sound.agents_perm hperm
    have hunk : (w.move a (.drop i)).ledger.knows x = false := by
      refine knows_eq_false_iff.mpr ⟨?_, fun hm => ?_, ?_⟩
      · rw [hl, (failAll_frame _ _ _).1]
        exact fun hp => (List.nodup_append'.mp h.ledger.once).2.2 hp hfl
      · have hn := hdis.nodup_iff.mp (List.nodup_append'.mp h.ledger.once).2.1
        refine (List.nodup_append'.mp hn).2.2 (List.mem_flatten.mpr ⟨b.2, ?_, hx⟩) hm
        exact List.mem_map_of_mem hb
      · rw [hl, (failAll_frame _ _ _).2.2.1]
        exact h.ledger.free x (List.mem_append_right _ hfl)
    have hrun := h'.unknown_run a hunk (not_mem_along_accepts hms)
    exact ⟨(knows_eq_false_iff.mp hrun).1, mem_pending_enqueue a hrun has⟩

end World

/-! ### all batches -/

/-- Every batch is in flight as long as its flush is at it, and has one outcome from then on. -/
structure Accounted (a : Actuator) (w : World) : Prop where
  /-- What is in flight is what the flushes that are not over have left. -/
  inFlight : ∀ id as, w.ledger.inFlight.get? id = some as ↔
    ∃ c ∈ w.calls, c.flushes = true ∧ (id, as) ∈ c.batches
  idle : (∀ c ∈ w.calls, c.flushes = false) → w.ledger.inFlight.entries = []
  taken : ∀ c ∈ w.calls, ∀ b ∈ c.batches, b ∈ w.handedOut
  /-- One outcome is told of each batch that was handed out and is not in flight, and none of others. -/
  outcomes : ∀ id, (w.history.filterMap Event.batch?).count id =
    if id ∈ w.handedOut.map (·.1) ∧ w.ledger.inFlight.contains id = false then 1 else 0
  givesUp : ∀ i f, w.calls[i]? = some (.reached (.waiting (.flush f))) → World.GivesUp a w i f
  /-- The ledger keeps the last hundred events. -/
  events : w.ledger.events = w.history.drop (w.history.length - 100)
  events_length : w.ledger.events.length = min 100 w.history.length

/-- **No batch is lost, stuck or told of twice**, whatever calls overlap. -/
theorem every_batch_has_one_outcome (a : Actuator) (ms : List Move) :
    Accounted a (World.after a ms) := by
  have h := World.sound_after a ms
  generalize World.after a ms = w at h
  refine ⟨fun id as => ?_, fun hidle => ?_, fun c hc b hb => h.taken b (h.mem_inFlight hc hb),
    h.count_told, fun i f hi => h.givesUp a hi, h.latest, ?_⟩
  · rw [h.get?_iff]
    refine exists_congr fun c => and_congr_right fun _ => ?_
    exact ⟨fun hb => ⟨Call.flushes_of_mem hb, hb⟩, fun hb => hb.2⟩
  · refine List.eq_nil_iff_forall_not_mem.mpr fun b hb => ?_
    obtain ⟨c, hc, hbc⟩ := List.mem_flatMap.mp (h.flying.subset hb)
    cases (hidle c hc).symm.trans (Call.flushes_of_mem hbc)
  · rw [h.latest, Ledger.latest, List.length_drop]
    have : eventLimit = 100 := rfl
    omega

end Overlap

end ClusterAgents
