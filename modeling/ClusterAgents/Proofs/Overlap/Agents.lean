import ClusterAgents.Proofs.Admission
import ClusterAgents.Proofs.Overlap.Sound

/-!
# The way of an agent

An agent that nobody knows becomes known in one way only: a request accepts it, and it is pending.
From there it goes in flight, and from there to the job that its batch becomes.  What brings it back to
where nobody knows it is a *release*: it is withdrawn while it is pending, its batch fails, or its job is
taken out.

* `World.accepts`, `World.withdraws`, `World.hands` — the agents that one move accepts and withdraws, and
  the batches that it hands out; `World.along` gathers such things along a run;
* `World.Sound.pending_move` — none of these agents is lost or doubled;
* `World.Sound.aground_move` — an agent that is neither pending nor in flight stays with its host or loses
  it, and gets no other one, until it is accepted again;
* `Releases`, `World.Sound.released_turn`, `World.Sound.released_move` — what it takes to forget an agent.
-/

namespace ClusterAgents

namespace Ledger

/-! ### requests -/

/-- The agents that a request puts behind those that are pending. -/
def accepted (l : Ledger) (as : List AgentId) : List AgentId :=
  (l.enqueue as).1.pending.drop l.pending.length

section Accepted

variable {l : Ledger} {as : List AgentId}

theorem enqueue_fst (l : Ledger) (as : List AgentId) :
    (l.enqueue as).1 = { l with pending := l.pending ++ l.accepted as } := by
  obtain ⟨new, hl, -, -⟩ := l.enqueue_spec as
  rw [accepted, hl, List.drop_left]

theorem accepted_spec : (l.accepted as).Nodup ∧
    ∀ x, x ∈ l.accepted as ↔ x ∈ as ∧ l.knows x = false := by
  obtain ⟨new, hl, hn, hm⟩ := l.enqueue_spec as
  rw [accepted, hl, List.drop_left]
  exact ⟨hn, hm⟩

/-- A request accepts those of its agents that nobody knows. -/
theorem mem_accepted {x : AgentId} : x ∈ l.accepted as ↔ x ∈ as ∧ l.knows x = false :=
  accepted_spec.2 x

end Accepted

/-- The agents that are pending and to be given up. -/
def withdrawn (l : Ledger) (as : List AgentId) : List AgentId := l.pending.filter (as.contains ·)

theorem withdrawn_perm (l : Ledger) (as : List AgentId) :
    l.pending.Perm ((l.cancelPending as).pending ++ l.withdrawn as) :=
  (List.filter_append_perm (as.contains ·) l.pending).symm.trans List.perm_append_comm

theorem knows_eq_true_iff {l : Ledger} {x : AgentId} :
    l.knows x = true ↔ x ∈ l.pending ∨ x ∈ l.flying ∨ ∃ id, l.hosts.get? x = some id := by
  rw [← Bool.not_eq_false, knows_eq_false_iff, ← Option.isSome_iff_exists, Option.isSome_iff_ne_none]
  tauto

/-- A flush puts in flight what is pending. -/
theorem flying_takeBatches (l : Ledger) (hl : ∀ k ∈ l.inFlight.keys, k ≤ l.counter) (size : Nat) :
    (l.takeBatches size).1.flying = l.flying ++ l.pending := by
  obtain ⟨h1, -, h3⟩ := l.takeBatches_spec hl size
  rw [h1, ← h3]
  simp [flying, Table.values]

/-! ### who is forgotten -/

section Forgotten

variable {l : Ledger} {x : AgentId} (hk : l.knows x = true)
include hk

/-- A flush forgets nobody. -/
theorem knows_of_takeBatches (hl : ∀ k ∈ l.inFlight.keys, k ≤ l.counter) (size : Nat) :
    (l.takeBatches size).1.knows x = true := by
  have hhosts : (l.takeBatches size).1.hosts = l.hosts := congrArg (·.hosts) (l.takeBatches_spec hl size).1
  rw [knows_eq_true_iff, flying_takeBatches l hl, hhosts, List.mem_append]
  -- who was pending is in flight now
  rcases knows_eq_true_iff.mp hk with hp | hf | hh
  · exact .inr (.inl (.inr hp))
  · exact .inr (.inl (.inl hf))
  · exact .inr (.inr hh)

/-- Giving up pending agents forgets nobody else. -/
theorem mem_withdrawn {as : List AgentId} (hu : (l.cancelPending as).knows x = false) :
    x ∈ l.withdrawn as := by
  obtain ⟨hp, hf, hh⟩ := knows_eq_false_iff.mp hu
  rcases knows_eq_true_iff.mp hk with hx | hx | ⟨id, hid⟩
  · exact (List.mem_append.mp ((l.withdrawn_perm as).subset hx)).resolve_left hp
  · exact absurd hx hf
  · cases hid.symm.trans hh

/-- Taking a job out forgets its agents and nobody else. -/
theorem mem_agents_of_removeJob {id : JobId} {job : Job} {l' : Ledger}
    (hr : l.removeJob id = some (job, l')) (hu : l'.knows x = false) : x ∈ job.agents := by
  obtain ⟨-, rfl⟩ := removeJob_spec hr
  obtain ⟨hp, hf, hh⟩ := knows_eq_false_iff.mp hu
  by_contra hno
  rw [Table.get?_foldl_erase, if_neg hno] at hh
  cases hk.symm.trans (knows_eq_false_iff.mpr ⟨hp, hf, hh⟩)

end Forgotten

/-! ### changes -/

namespace Change

variable {l l' : Ledger} {bs : List (BatchId × List AgentId)} {es : List Event} {x : AgentId}

/-- An agent that a change does not finish keeps its host, or loses it. -/
theorem hosts_keep (h : Change l l' bs es) (hb : ∀ b ∈ bs, x ∉ b.2) :
    l'.hosts.get? x = l.hosts.get? x ∨ l'.hosts.get? x = none := by
  cases h with
  | nothing => exact .inl rfl
  | failed bs error => exact .inl (by rw [(failAll_frame l bs error).2.2.1])
  | activated job =>
    rw [activate_fst, record_hosts, Table.get?_foldl_insert, if_neg (hb _ (List.mem_singleton.mpr rfl))]
    exact .inl rfl
  | marked ids status => exact .inl rfl
  | forgotten ids =>
    rw [foldl_forget_hosts]
    split
    · exact .inr rfl
    · exact .inl rfl
  | reported ids cause => exact .inl (by rw [record_hosts])

/-- What a change forgets is in a batch that it gives up, or hosted by a job that it takes out. -/
theorem forgets (h : Change l l' bs es) (hk : (∃ b ∈ bs, x ∈ b.2) ∨ ∃ id, l.hosts.get? x = some id)
    (hu : l'.hosts.get? x = none) :
    (∃ b ∈ bs, x ∈ b.2 ∧ ∃ error, .submissionFailed b.1 error ∈ es) ∨
      ∃ id job, l.jobs.get? id = some job ∧ x ∈ job.agents ∧ l'.jobs.get? id = none ∧ .killed id ∈ es := by
  -- a change that touches no host finishes the batch of the agent
  have finished (he : l'.hosts = l.hosts) : ∃ b ∈ bs, x ∈ b.2 := by
    refine hk.resolve_right ?_
    rintro ⟨id, hid⟩
    rw [he, hid] at hu
    cases hu
  cases h with
  | nothing => exact absurd (finished rfl) (by simp)
  | failed bs error =>
    obtain ⟨b, hb, hx⟩ := finished (failAll_frame l bs error).2.2.1
    exact .inl ⟨b, hb, hx, error, List.mem_map.mpr ⟨b, hb, rfl⟩⟩
  | activated job =>
    rw [activate_fst, record_hosts, Table.get?_foldl_insert] at hu
    split at hu
    · cases hu
    · next hx =>
      rcases hk with ⟨b, hb, hxb⟩ | ⟨id, hid⟩
      · rw [List.mem_singleton.mp hb] at hxb
        exact absurd hxb hx
      · rw [hid] at hu
        cases hu
  | marked ids status => exact absurd (finished rfl) (by simp)
  | forgotten ids =>
    rw [foldl_forget_hosts] at hu
    split at hu
    · next hid =>
      obtain ⟨id, hmem, job, hj, hx⟩ := hid
      refine .inr ⟨id, job, hj, hx, ?_, List.mem_map_of_mem hmem⟩
      rw [foldl_forget_jobs, if_pos hmem]
    · rcases hk with ⟨b, hb, -⟩ | ⟨id, hid⟩
      · cases hb
      · rw [hid] at hu
        cases hu
  | reported ids cause => exact absurd (finished (record_hosts _ _)) (by simp)

end Change

end Ledger

namespace Overlap

open Actuator Ledger

namespace World

/-! ### what a move does to agents -/

def accepts (w : World) : Move → List AgentId
  | .enqueue as => w.ledger.accepted as
  | _ => []

/-- The agents that a move gives up while they are pending. -/
def withdraws (w : World) : Move → List AgentId
  | .killAgents as => w.ledger.withdrawn as
  | _ => []

def hands (a : Actuator) (w : World) : Move → List (BatchId × List AgentId)
  | .flush => (w.ledger.takeBatches a.batchLimit).2
  | _ => []

/-- The events that a move tells. -/
def tells (a : Actuator) (w : World) (m : Move) : List Event :=
  (w.move a m).history.drop w.history.length

/-- What is gathered along a run, move by move. -/
def along {α : Type} (a : Actuator) (f : World → Move → List α) : World → List Move → List α
  | _, [] => []
  | w, m :: ms => f w m ++ along a f (w.move a m) ms

theorem along_append {α : Type} (a : Actuator) (f : World → Move → List α) (w : World)
    (ms ms' : List Move) :
    along a f w (ms ++ ms') = along a f w ms ++ along a f (w.run a ms) ms' := by
  induction ms generalizing w with
  | nil => rfl
  | cons m ms ih => rw [List.cons_append, along, ih, along, List.append_assoc]; rfl

/-- An agent that nobody requests is not accepted. -/
theorem not_mem_along_accepts {a : Actuator} {w : World} {ms : List Move} {x : AgentId}
    (h : ∀ as, .enqueue as ∈ ms → x ∉ as) : x ∉ along a accepts w ms := by
  induction ms generalizing w with
  | nil => exact List.not_mem_nil
  | cons m ms ih =>
    rw [along, List.mem_append, not_or]
    refine ⟨fun hx => ?_, ih fun as has => h as (List.mem_cons_of_mem _ has)⟩
    cases m with
    | enqueue as => exact h as List.mem_cons_self (mem_accepted.mp hx).1
    | _ => cases hx

/-- A step of a call accepts, withdraws and hands out nothing. -/
theorem turn_frame (w : World) {step : Account → Call → Account × Call × List Event} (hs : Steps step)
    (i : Nat) :
    (w.turn i step).ledger.pending = w.ledger.pending ∧ (w.turn i step).handedOut = w.handedOut :=
  turn_keeps (P := fun w' => w'.ledger.pending = w.ledger.pending ∧ w'.handedOut = w.handedOut)
    ⟨rfl, rfl⟩ hs i fun _ _ _ _ _ _ _ _ _ hch => ⟨hch.pending, rfl⟩

theorem handedOut_move (a : Actuator) (w : World) (m : Move) :
    (w.move a m).handedOut = w.handedOut ++ w.hands a m := by
  cases m with
  | flush => rfl
  | markTerminal id =>
    rcases w.move_markTerminal a id with ⟨-, hw⟩ | ⟨job, l', -, hw⟩ <;> rw [hw] <;>
      exact (List.append_nil _).symm
  | goOn i => exact (w.turn_frame (goOn_steps a) i).2.trans (List.append_nil _).symm
  | answer i reply => exact (w.turn_frame (answer_steps a reply) i).2.trans (List.append_nil _).symm
  | drop i => exact (w.turn_frame drop_steps i).2.trans (List.append_nil _).symm
  | _ => exact (List.append_nil _).symm

namespace Sound

variable {w : World}

/-- The agents of what is finished, and of what stays in flight, are the agents that were in flight. -/
theorem agents_perm {l l' : Ledger} {bs : List (BatchId × List AgentId)}
    (h : l.inFlight.entries.Perm (bs ++ l'.inFlight.entries)) :
    l.flying.Perm ((bs.map (·.2)).flatten ++ l'.flying) := by
  have := (h.map (·.2)).flatten
  rwa [List.map_append, List.flatten_append] at this

/-- **No agent is lost or doubled by a move**: those that are pending and those that it accepts are still
pending, withdrawn, or in a batch that it hands out. -/
theorem pending_move (h : w.Sound) (a : Actuator) (m : Move) :
    (w.ledger.pending ++ w.accepts m).Perm
      ((w.move a m).ledger.pending ++ (w.withdraws m ++ (w.hands a m).flatMap (·.2))) := by
  have still {w' : World} (hp : w'.ledger.pending = w.ledger.pending) :
      (w.ledger.pending ++ []).Perm (w'.ledger.pending ++ ([] ++ [])) := by
    rw [hp]
    exact .refl _
  cases m with
  | enqueue as =>
    have he : (w.move a (.enqueue as)).ledger.pending = w.ledger.pending ++ w.ledger.accepted as :=
      congrArg Ledger.pending (w.ledger.enqueue_fst as)
    rw [he]
    exact .of_eq (List.append_nil _).symm
  | flush =>
    obtain ⟨hl, -, hp⟩ := w.ledger.takeBatches_spec h.ledger.low a.batchLimit
    have he : (w.move a .flush).ledger.pending = [] := congrArg Ledger.pending hl
    have hf : (w.hands a .flush).flatMap (·.2) = w.ledger.pending := by
      rw [List.flatMap_def]
      exact hp
    rw [he, hf]
    exact .of_eq (List.append_nil _)
  | killAgents as =>
    rw [show (w.hands a (.killAgents as)).flatMap (·.2) = [] from rfl, List.append_nil]
    exact (List.Perm.of_eq (List.append_nil _)).trans (w.ledger.withdrawn_perm as)
  | markTerminal id =>
    refine still ?_
    rcases w.move_markTerminal a id with ⟨-, hw⟩ | ⟨job, l', hr, hw⟩
    · rw [hw]
    · obtain ⟨-, rfl⟩ := removeJob_spec hr
      rw [hw]
      rfl
  | goOn i => exact still (w.turn_frame (goOn_steps a) i).1
  | answer i reply => exact still (w.turn_frame (answer_steps a reply) i).1
  | drop i => exact still (w.turn_frame drop_steps i).1
  | killJobs jobs => exact still rfl
  | killAll => exact still rfl

section Aground

variable (h : w.Sound) {x : AgentId} (hf : x ∉ w.ledger.flying)
include h hf

/-- No step of a call puts an agent in flight or gives it another host. -/
theorem aground_turn {step : Account → Call → Account × Call × List Event} (hs : Steps step) (i : Nat) :
    x ∉ (w.turn i step).ledger.flying ∧
      ((w.turn i step).ledger.hosts.get? x = w.ledger.hosts.get? x ∨
        (w.turn i step).ledger.hosts.get? x = none) := by
  refine turn_keeps (P := fun w' => x ∉ w'.ledger.flying ∧
    (w'.ledger.hosts.get? x = w.ledger.hosts.get? x ∨ w'.ledger.hosts.get? x = none))
    ⟨hf, .inl rfl⟩ hs i fun xs c ys bs s' c' es hw hc hch => ?_
  have hno : x ∉ (bs.map (·.2)).flatten ++ s'.ledger.flying := fun hx =>
    hf ((agents_perm (h.finished_perm hw hc hch)).symm.subset hx)
  refine ⟨fun hx => hno (List.mem_append_right _ hx), hch.hosts_keep fun b hb hx => hno ?_⟩
  exact List.mem_append_left _ (List.mem_flatten.mpr ⟨b.2, List.mem_map_of_mem hb, hx⟩)

/-- **An agent that is neither pending nor in flight** stays so until a move accepts it, and keeps its
host or loses it. -/
theorem aground_move (a : Actuator) (hp : x ∉ w.ledger.pending) {m : Move} (hm : x ∉ w.accepts m) :
    x ∉ (w.move a m).ledger.pending ∧ x ∉ (w.move a m).ledger.flying ∧
      ((w.move a m).ledger.hosts.get? x = w.ledger.hosts.get? x ∨
        (w.move a m).ledger.hosts.get? x = none) := by
  have hpend : x ∉ (w.move a m).ledger.pending := fun hx => by
    have := (h.pending_move a m).symm.subset (List.mem_append_left _ hx)
    exact (List.mem_append.mp this).elim hp hm
  refine ⟨hpend, ?_⟩
  cases m with
  | enqueue as =>
    rw [show (w.move a (.enqueue as)).ledger = _ from w.ledger.enqueue_fst as]
    exact ⟨hf, .inl rfl⟩
  | flush =>
    have hfly := w.ledger.flying_takeBatches h.ledger.low a.batchLimit
    refine ⟨fun hx => ?_, .inl ?_⟩
    · rw [show (w.move a .flush).ledger.flying = _ from hfly] at hx
      exact (List.mem_append.mp hx).elim hf hp
    · exact congrArg (·.hosts.get? x) (w.ledger.takeBatches_spec h.ledger.low a.batchLimit).1
  | markTerminal id =>
    rcases w.move_markTerminal a id with ⟨-, hw⟩ | ⟨job, l', hr, hw⟩
    · rw [hw]
      exact ⟨hf, .inl rfl⟩
    · obtain ⟨-, rfl⟩ := removeJob_spec hr
      rw [hw]
      refine ⟨hf, ?_⟩
      simp only [World.ledger, record_hosts, Table.get?_foldl_erase]
      split
      · exact .inr rfl
      · exact .inl rfl
  | goOn i => exact h.aground_turn hf (goOn_steps a) i
  | answer i reply => exact h.aground_turn hf (answer_steps a reply) i
  | drop i => exact h.aground_turn hf drop_steps i
  | killJobs jobs => exact ⟨hf, .inl rfl⟩
  | killAgents as => exact ⟨hf, .inl rfl⟩
  | killAll => exact ⟨hf, .inl rfl⟩

end Aground

/-- An agent that nobody knows stays unknown until a move accepts it. -/
theorem unknown_move (h : w.Sound) (a : Actuator) {x : AgentId} (hx : w.ledger.knows x = false)
    {m : Move} (hm : x ∉ w.accepts m) : (w.move a m).ledger.knows x = false := by
  obtain ⟨hp, hf, hh⟩ := knows_eq_false_iff.mp hx
  obtain ⟨hp', hf', hh'⟩ := h.aground_move hf a hp hm
  rw [hh, or_self] at hh'
  exact knows_eq_false_iff.mpr ⟨hp', hf', hh'⟩

theorem unknown_run (h : w.Sound) (a : Actuator) {x : AgentId} (hx : w.ledger.knows x = false)
    {ms : List Move} (hm : x ∉ along a accepts w ms) : (w.run a ms).ledger.knows x = false := by
  induction ms generalizing w with
  | nil => exact hx
  | cons m ms ih =>
    rw [along, List.mem_append, not_or] at hm
    exact ih (h.move a m) (h.unknown_move a hx hm.1) hm.2

end Sound

end World

/-! ### releases -/

/-- A move takes an agent out of the place where it is. -/
inductive Releases (a : Actuator) (w : World) (m : Move) (x : AgentId) : Prop
  /-- It was pending, and is given up. -/
  | withdrawn (h : x ∈ w.withdraws m)
  /-- It was in flight, and its batch failed or was given up. -/
  | failed {id : BatchId} {as : List AgentId} {error : String}
      (hb : w.ledger.inFlight.get? id = some as) (hx : x ∈ as)
      (he : .submissionFailed id error ∈ w.tells a m)
  /-- Its job was taken out. -/
  | removed {id : JobId} {job : Job} (hj : w.ledger.job? id = some job) (hx : x ∈ job.agents)
      (hn : (w.move a m).ledger.job? id = none)
      (he : .killed id ∈ w.tells a m ∨ .finished id ∈ w.tells a m)

namespace World.Sound

variable {w : World}

section Released

variable (h : w.Sound) {a : Actuator} {m : Move} {x : AgentId} (hk : w.ledger.knows x = true)
include h hk

/-- A step of a call that forgets an agent releases it: its batch is finished, or its job is taken out. -/
theorem released_turn {step : Account → Call → Account × Call × List Event} (hs : Steps step) {i : Nat}
    (hw : w.move a m = w.turn i step) (hu : (w.move a m).ledger.knows x = false) : Releases a w m x := by
  rcases w.turn_cases hs i with he | ⟨xs, c, ys, bs, s', c', es, hcalls, hc, hch, he⟩
  · rw [hw, he, hk] at hu
    cases hu
  rw [← hw] at he
  have hperm := h.finished_perm hcalls hc hch
  have htells : w.tells a m = es := by rw [tells, he, List.drop_left]
  obtain ⟨hp', hf', hh'⟩ := knows_eq_false_iff.mp hu
  rw [he] at hp' hf' hh'
  -- the agent was not pending, and what was in flight is finished now
  have hplace := (knows_eq_true_iff.mp hk).resolve_left fun hx => hp' (hch.pending ▸ hx)
  have hk' : (∃ b ∈ bs, x ∈ b.2) ∨ ∃ id, w.ledger.hosts.get? x = some id := by
    refine hplace.imp_left fun hx => ?_
    have hmem := (List.mem_append.mp ((agents_perm hperm).subset hx)).resolve_right hf'
    obtain ⟨as, has, hxa⟩ := List.mem_flatten.mp hmem
    obtain ⟨b, hb, rfl⟩ := List.mem_map.mp has
    exact ⟨b, hb, hxa⟩
  rcases hch.forgets hk' hh' with ⟨b, hb, hx, error, hev⟩ | ⟨id, job, hj, hx, hn, hev⟩
  · have hmem := hperm.symm.subset (List.mem_append_left _ hb)
    exact .failed ((Table.get?_eq_some_iff h.ledger.keyed).mpr hmem) hx (htells ▸ hev)
  · refine .removed hj hx ?_ (.inl (htells ▸ hev))
    rw [he]
    exact hn

/-- **To forget an agent takes a release.** -/
theorem released_move (hu : (w.move a m).ledger.knows x = false) : Releases a w m x := by
  -- a move that leaves the agent known forgets nobody
  have known (hk' : (w.move a m).ledger.knows x = true) : Releases a w m x := by
    cases hk'.symm.trans hu
  cases m with
  | enqueue as => exact known (knows_enqueue.mpr (.inl hk))
  | flush => exact known (knows_of_takeBatches hk h.ledger.low a.batchLimit)
  | killJobs jobs => exact known hk
  | killAll => exact known hk
  | killAgents as => exact .withdrawn (mem_withdrawn hk hu)
  | markTerminal id =>
    rcases w.move_markTerminal a id with ⟨-, hw⟩ | ⟨job, l', hr, hw⟩
    · exact known (by rwa [hw])
    · rw [hw] at hu
      refine .removed (removeJob_spec hr).1 (mem_agents_of_removeJob hk hr hu) ?_ (.inr ?_)
      · obtain ⟨-, rfl⟩ := removeJob_spec hr
        rw [hw]
        simp [Ledger.job?, World.ledger]
      · rw [tells, hw, List.drop_left]
        exact List.mem_singleton.mpr rfl
  | goOn i => exact h.released_turn hk (goOn_steps a) rfl hu
  | answer i reply => exact h.released_turn hk (answer_steps a reply) rfl hu
  | drop i => exact h.released_turn hk drop_steps rfl hu

end Released

/-- Where a run forgets an agent, it releases it, and the agent is known up to then. -/
theorem released_run (h : w.Sound) (a : Actuator) {ms : List Move} {x : AgentId}
    (hk : w.ledger.knows x = true) (hu : (w.run a ms).ledger.knows x = false) :
    ∃ us u vs, ms = us ++ u :: vs ∧ (∀ ts, ts <+: us → (w.run a ts).ledger.knows x = true) ∧
      Releases a (w.run a us) u x ∧ ((w.run a us).move a u).ledger.knows x = false := by
  induction ms generalizing w with
  | nil => exact absurd (hk.symm.trans hu) (by simp)
  | cons m ms ih =>
    cases hm : (w.move a m).ledger.knows x with
    | false =>
      refine ⟨[], m, ms, rfl, fun ts hts => ?_, h.released_move hk hm, hm⟩
      rw [List.prefix_nil.mp hts]
      exact hk
    | true =>
      obtain ⟨us, u, vs, rfl, hus, hr⟩ := ih (h.move a m) hm hu
      refine ⟨m :: us, u, vs, rfl, fun ts hts => ?_, hr⟩
      cases ts with
      | nil => exact hk
      | cons t ts =>
        obtain ⟨rfl, hts'⟩ := List.cons_prefix_cons.mp hts
        exact hus ts hts'

end World.Sound

end Overlap

end ClusterAgents
