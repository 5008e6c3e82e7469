import ClusterAgents.Proofs.Overlap.Agents

/-!
# No agent is lost, and none is submitted twice

A launch asks for agents and then flushes what is pending, and lets go of the ledger in between; so one
call may hand out what another one asked for, or withdraw it before either gets to it.  The books balance
all the same: what requests have accepted is pending, was withdrawn, or stands in one of the batches that
were handed out, and each time in one of these places only (`agents_balance`).  An agent is accepted
again only after it was released.
-/

namespace ClusterAgents

namespace Overlap

open Ledger

namespace World

theorem handedOut_run (a : Actuator) (w : World) (ms : List Move) :
    (w.run a ms).handedOut = w.handedOut ++ along a (hands a) w ms := by
  induction ms generalizing w with
  | nil => exact (List.append_nil _).symm
  | cons m ms ih =>
    rw [show w.run a (m :: ms) = (w.move a m).run a ms from rfl, ih, handedOut_move, along,
      List.append_assoc]

/-- **The books of a run**: `Sound.pending_move`, move after move. -/
theorem Sound.pending_run {w : World} (h : w.Sound) (a : Actuator) (ms : List Move) :
    (w.ledger.pending ++ along a accepts w ms).Perm
      ((w.run a ms).ledger.pending ++
        (along a withdraws w ms ++ (along a (hands a) w ms).flatMap (·.2))) := by
  induction ms generalizing w with
  | nil => exact .refl _
  | cons m ms ih =>
    refine List.perm_iff_count.mpr fun x => ?_
    have step := (h.pending_move a m).count_eq x
    have rest := (ih (h.move a m)).count_eq x
    rw [show w.run a (m :: ms) = (w.move a m).run a ms from rfl]
    simp only [along, List.flatMap_append, List.count_append] at step rest ⊢
    omega

/-- No batch lists an agent twice, since none is pending twice. -/
theorem Sound.hands_nodup {w : World} (h : w.Sound) (a : Actuator) {m : Move}
    {b : BatchId × List AgentId} (hb : b ∈ w.hands a m) : b.2.Nodup := by
  cases m with
  | flush =>
    have hp := (w.ledger.takeBatches_spec h.ledger.low a.batchLimit).2.2
    have hn : (((w.ledger.takeBatches a.batchLimit).2.map (·.2)).flatten).Nodup :=
      hp ▸ (List.nodup_append'.mp h.ledger.once).1
    exact (List.nodup_flatten.mp hn).1 b.2 (List.mem_map_of_mem hb)
  | _ => cases hb

theorem Sound.along_hands_nodup {w : World} (h : w.Sound) (a : Actuator) {ms : List Move}
    {b : BatchId × List AgentId} (hb : b ∈ along a (hands a) w ms) : b.2.Nodup := by
  induction ms generalizing w with
  | nil => cases hb
  | cons m ms ih =>
    rcases List.mem_append.mp hb with hb | hb
    · exact h.hands_nodup a hb
    · exact ih (h.move a m) hb

end World

/-- Counting an agent in batches is counting the batches that list it, if none lists it twice. -/
theorem count_flatMap_batches {bs : List (BatchId × List AgentId)} (h : ∀ b ∈ bs, b.2.Nodup)
    (x : AgentId) : (bs.flatMap (·.2)).count x = bs.countP (x ∈ ·.2) := by
  induction bs with
  | nil => rfl
  | cons b bs ih =>
    obtain ⟨hb, hbs⟩ := List.forall_mem_cons.mp h
    rw [List.flatMap_cons, List.count_append, ih hbs, List.countP_cons, hb.count, Nat.add_comm]
    simp

/-- The books of an agent after a run. -/
structure Balanced (a : Actuator) (ms : List Move) (x : AgentId) : Prop where
  /-- As often as it was accepted it is pending, was withdrawn, or is in a batch that was handed out. -/
  balance : (World.along a World.accepts {} ms).count x =
    (if x ∈ (World.after a ms).ledger.pending then 1 else 0) +
      (World.along a World.withdraws {} ms).count x + (World.after a ms).handedOut.countP (x ∈ ·.2)
  once : ∀ b ∈ (World.after a ms).handedOut, x ∈ b.2 → b.2.count x = 1
  /-- Between two moves that accept it, one releases it, and up to there it is known. -/
  released : ∀ ms₁ m ms₂ m' ms₃, ms = ms₁ ++ m :: (ms₂ ++ m' :: ms₃) →
    x ∈ (World.after a ms₁).accepts m → x ∈ (World.after a (ms₁ ++ m :: ms₂)).accepts m' →
    ∃ us u vs, ms₂ = us ++ u :: vs ∧
      (∀ ts, ts <+: us → (World.after a (ms₁ ++ m :: ts)).ledger.knows x = true) ∧
      Releases a (World.after a (ms₁ ++ m :: us)) u x ∧
      (World.after a (ms₁ ++ m :: (us ++ [u]))).ledger.knows x = false

/-- What a move accepts was unknown before and is known afterwards. -/
theorem World.known_of_mem_accepts {a : Actuator} {w : World} {m : Move} {x : AgentId}
    (h : x ∈ w.accepts m) : w.ledger.knows x = false ∧ (w.move a m).ledger.knows x = true := by
  cases m with
  | enqueue as =>
    refine ⟨(mem_accepted.mp h).2, knows_eq_true_iff.mpr (.inl ?_)⟩
    rw [show (w.move a (.enqueue as)).ledger = _ from w.ledger.enqueue_fst as]
    exact List.mem_append_right _ h
  | _ => cases h

/-- **The books of every agent balance**, whatever calls overlap and however they end. -/
theorem agents_balance (a : Actuator) (ms : List Move) (x : AgentId) : Balanced a ms x := by
  have hrun : (World.after a ms).handedOut = World.along a (World.hands a) {} ms :=
    World.handedOut_run a {} ms
  have hnodup : ∀ b ∈ (World.after a ms).handedOut, b.2.Nodup := fun b hb =>
    World.Sound.empty.along_hands_nodup a (hrun ▸ hb)
  refine ⟨?_, fun b hb hx => ?_, fun ms₁ m ms₂ m' ms₃ _ hm hm' => ?_⟩
  · have hp := (World.Sound.empty.pending_run a ms).count_eq x
    have hpend := (List.nodup_append'.mp (World.sound_after a ms).ledger.once).1.count (a := x)
    rw [← count_flatMap_batches hnodup, ← hpend, hrun]
    simp only [List.count_append] at hp
    rw [show World.after a ms = World.run a {} ms from rfl, Nat.add_assoc, ← hp]
    exact (Nat.zero_add _).symm
  · rw [(hnodup b hb).count, if_pos hx]
  · have hafter (ts : List Move) :
        World.after a (ms₁ ++ m :: ts) = ((World.after a ms₁).move a m).run a ts :=
      World.after_append ms₁ (m :: ts)
    have hsound := (World.sound_after a ms₁).move a m
    have hk := (World.known_of_mem_accepts (a := a) hm).2
    have hu := (World.known_of_mem_accepts (a := a) hm').1
    rw [hafter] at hu
    obtain ⟨us, u, vs, hs, hus, hr, hn⟩ := hsound.released_run a hk hu
    refine ⟨us, u, vs, hs, fun ts hts => ?_, ?_, ?_⟩
    · rw [hafter]
      exact hus ts hts
    · rw [hafter]
      exact hr
    · rw [hafter, World.run_append]
      exact hn

end Overlap

end ClusterAgents
