import Mathlib.Data.List.Flatten
import Mathlib.Data.List.Induction
import Mathlib.Data.List.Perm.Basic
import ClusterAgents.Actuator.Task
import ClusterAgents.Proofs.Tables

/-!
# What the operations of a ledger do

* For each operation of `Ledger` that is not plain from its definition, one statement that says all it
  does; what an operation does not touch is known to `simp`.
* `Ledger.Sound` — the ledger is in order: an agent stands in one place only, and a job and the agents
  it hosts know of each other.  Every operation keeps that, each of them under the condition that its
  callers see to; those are the lemmas `Ledger.Sound.enqueue`, `Ledger.Sound.activate` and so on.
-/

namespace ClusterAgents

namespace Ledger

/-- The agents of the batches in flight. -/
def flying (l : Ledger) : List AgentId := l.inFlight.values.flatten

theorem mem_flying {l : Ledger} {x : AgentId} :
    x ∈ l.flying ↔ ∃ b ∈ l.inFlight.entries, x ∈ b.2 := by
  rw [flying, Table.values, ← List.flatMap_def, List.mem_flatMap]

/-! ### events -/

/-- The events that are kept of all that happened. -/
def latest (history : List Event) : List Event := history.drop (history.length - eventLimit)

theorem latest_latest (history : List Event) : latest (latest history) = latest history := by
  have hlength : (latest history).length ≤ eventLimit := by
    simp only [latest, List.length_drop]
    omega
  rw [latest, Nat.sub_eq_zero_of_le hlength, List.drop_zero]

section Record

variable (l : Ledger) (e : Event)

@[simp] theorem record_pending : (l.record e).pending = l.pending := by simp only [record]
@[simp] theorem record_inFlight : (l.record e).inFlight = l.inFlight := by simp only [record]
@[simp] theorem record_jobs : (l.record e).jobs = l.jobs := by simp only [record]
@[simp] theorem record_hosts : (l.record e).hosts = l.hosts := by simp only [record]
@[simp] theorem record_counter : (l.record e).counter = l.counter := by simp only [record]

end Record

theorem drop_concat {α : Type} (xs : List α) (x : α) (n : Nat) :
    (xs.drop (xs.length - n) ++ [x]).drop ((xs.drop (xs.length - n) ++ [x]).length - n) =
      (xs ++ [x]).drop ((xs ++ [x]).length - n) := by
  rw [← List.drop_append_of_le_length (by omega), List.drop_drop]
  congr 1
  simp only [List.length_drop, List.length_append, List.length_singleton]
  omega

/-- Recording an event keeps the latest ones. -/
theorem record_events {l : Ledger} {history : List Event} (h : l.events = latest history) (e : Event) :
    (l.record e).events = latest (history ++ [e]) := by
  simp only [record, h]
  exact drop_concat history e eventLimit

/-! ### requesting agents -/

theorem knows_eq_false_iff {l : Ledger} {x : AgentId} :
    l.knows x = false ↔ x ∉ l.pending ∧ x ∉ l.flying ∧ l.hosts.get? x = none := by
  have hf : x ∉ l.flying ↔ ∀ as ∈ l.inFlight.values, ¬ as.contains x = true := by
    simp [flying, List.mem_flatten]
  have hp : l.pending.contains x = false ↔ x ∉ l.pending := by simp
  have hh : l.hosts.contains x = false ↔ l.hosts.get? x = none := by simp [Table.contains]
  rw [knows, Bool.or_eq_false_iff, Bool.or_eq_false_iff, List.any_eq_false, hf, hp, hh, and_assoc]

/-- Agents that were known before are passed over, the others are pending afterwards. -/
theorem enqueue_spec (l : Ledger) (as : List AgentId) :
    ∃ new : List AgentId, (l.enqueue as).1 = { l with pending := l.pending ++ new } ∧ new.Nodup ∧
      ∀ x, x ∈ new ↔ x ∈ as ∧ l.knows x = false := by
  induction as generalizing l with
  | nil => exact ⟨[], by simp [enqueue], List.nodup_nil, by simp⟩
  | cons a as ih =>
    by_cases ha : l.knows a = true
    · obtain ⟨new, hl, hn, hm⟩ := ih l
      refine ⟨new, by simp [enqueue, ha, hl], hn, fun x => ?_⟩
      rw [hm, List.mem_cons]
      constructor
      · exact fun h => ⟨.inr h.1, h.2⟩
      · rintro ⟨rfl | h, hk⟩
        · rw [ha] at hk
          cases hk
        · exact ⟨h, hk⟩
    · obtain ⟨new, hl, hn, hm⟩ := ih { l with pending := l.pending ++ [a] }
      have hk : ∀ x, ({ l with pending := l.pending ++ [a] } : Ledger).knows x = false ↔
          l.knows x = false ∧ x ≠ a := by
        intro x
        simp only [knows_eq_false_iff, List.mem_append, List.mem_singleton, flying, not_or]
        tauto
      refine ⟨a :: new, by simp [enqueue, ha, hl], List.nodup_cons.mpr ⟨?_, hn⟩, fun x => ?_⟩
      · rw [hm, hk]
        exact fun h => h.2.2 rfl
      · rw [List.mem_cons, List.mem_cons, hm, hk]
        constructor
        · rintro (rfl | ⟨h, hx, -⟩)
          · exact ⟨.inl rfl, by simpa using ha⟩
          · exact ⟨.inr h, hx⟩
        · rintro ⟨rfl | h, hx⟩
          · exact .inl rfl
          · by_cases e : x = a
            · exact .inl e
            · exact .inr ⟨h, hx, e⟩

/-- New agents are pending afterwards, as they were given. -/
theorem enqueue_new {l : Ledger} {as : List AgentId} (honce : as.Nodup) (hnew : ∀ x ∈ as, l.knows x = false) :
    l.enqueue as = ({ l with pending := l.pending ++ as }, []) := by
  induction as generalizing l with
  | nil => simp [enqueue]
  | cons a as ih =>
    obtain ⟨ha, honce⟩ := List.nodup_cons.mp honce
    obtain ⟨hfirst, hnew⟩ := List.forall_mem_cons.mp hnew
    have hrest : ∀ x ∈ as, ({ l with pending := l.pending ++ [a] } : Ledger).knows x = false := by
      intro x hx
      have hxa : x ≠ a := ne_of_mem_of_not_mem hx ha
      simpa [knows, hxa] using hnew x hx
    rw [enqueue, hfirst, ih honce hrest]
    simp

/-! ### batches -/

theorem pieces_flatten {α : Type} (size : Nat) (xs : List α) : (pieces size xs).flatten = xs := by
  induction xs using pieces.induct size with
  | case1 => simp [pieces]
  | case2 a as ih => rw [pieces, List.flatten_cons, ih, List.take_append_drop]

theorem ne_nil_of_mem_pieces {α : Type} {size : Nat} {xs ps : List α} (h : ps ∈ pieces size xs) : ps ≠ [] := by
  induction xs using pieces.induct size with
  | case1 =>
    rw [pieces] at h
    cases h
  | case2 a as ih =>
    rw [pieces] at h
    rcases List.mem_cons.mp h with rfl | h
    · exact List.cons_ne_nil _ _
    · exact ih h

theorem startAll_agents (l : Ledger) (ps : List (List AgentId)) : (l.startAll ps).2.map (·.2) = ps := by
  induction ps generalizing l with
  | nil => rfl
  | cons as ps ih =>
    simp only [startAll, List.map_cons, ih]
    rfl

/-- Batches go in flight under the next numbers, in their order, and nothing else changes. -/
theorem startAll_spec (l : Ledger) (hl : ∀ k ∈ l.inFlight.keys, k ≤ l.counter)
    (ps : List (List AgentId)) :
    (l.startAll ps).1 =
        { l with
          inFlight := ⟨l.inFlight.entries ++ (l.startAll ps).2⟩
          counter := l.counter + ps.length } ∧
      (l.startAll ps).2.map (·.1) = List.range' (l.counter + 1) ps.length ∧
      (l.startAll ps).2.map (·.2) = ps := by
  induction ps generalizing l with
  | nil => simp [startAll]
  | cons as ps ih =>
    have hnew : l.counter + 1 ∉ l.inFlight.keys := fun h => Nat.not_succ_le_self _ (hl _ h)
    have he : (l.inFlight.insert (l.counter + 1) as) = ⟨l.inFlight.entries ++ [(l.counter + 1, as)]⟩ :=
      congrArg Table.mk (Table.insert_entries hnew as)
    have hl' : ∀ k ∈ (l.start as).1.inFlight.keys, k ≤ (l.start as).1.counter := by
      intro k hk
      simp only [start, he, Table.keys, List.map_append, List.map_cons, List.map_nil, List.mem_append,
        List.mem_singleton] at hk ⊢
      rcases hk with hk | rfl
      · exact Nat.le_succ_of_le (hl k hk)
      · exact Nat.le_refl _
    obtain ⟨h1, h2, -⟩ := ih (l.start as).1 hl'
    refine ⟨?_, ?_, startAll_agents l (as :: ps)⟩
    · have hc : l.counter + 1 + ps.length = l.counter + (ps.length + 1) := by omega
      simp only [startAll]
      rw [h1]
      simp only [start, he, List.append_assoc, List.singleton_append, List.length_cons, hc]
    · simp only [startAll, List.map_cons, h2, List.length_cons, List.range'_succ]
      rfl

/-- Putting batches in flight leaves the jobs alone. -/
theorem startAll_jobs (l : Ledger) (ps : List (List AgentId)) : (l.startAll ps).1.jobs = l.jobs := by
  induction ps generalizing l with
  | nil => rfl
  | cons as ps ih => exact ih (l.start as).1

theorem takeBatches_jobs (l : Ledger) (size : Nat) : (l.takeBatches size).1.jobs = l.jobs :=
  startAll_jobs _ _

theorem takeBatches_agents (l : Ledger) (size : Nat) :
    (l.takeBatches size).2.map (·.2) = pieces (max size 1) l.pending :=
  startAll_agents _ _

/-- **What a flush takes**: all pending agents in their order, in batches that have the next numbers. -/
theorem takeBatches_spec (l : Ledger) (hl : ∀ k ∈ l.inFlight.keys, k ≤ l.counter) (size : Nat) :
    (l.takeBatches size).1 =
        { l with
          pending := []
          inFlight := ⟨l.inFlight.entries ++ (l.takeBatches size).2⟩
          counter := l.counter + (l.takeBatches size).2.length } ∧
      (l.takeBatches size).2.map (·.1) =
        List.range' (l.counter + 1) (l.takeBatches size).2.length ∧
      ((l.takeBatches size).2.map (·.2)).flatten = l.pending := by
  obtain ⟨h1, h2, h3⟩ := startAll_spec { l with pending := [] } hl (pieces (max size 1) l.pending)
  have hlen : (pieces (max size 1) l.pending).length = (l.takeBatches size).2.length := by
    rw [← h3, List.length_map]
    rfl
  refine ⟨?_, ?_, ?_⟩
  · rw [← hlen]
    exact h1
  · rw [← hlen]
    exact h2
  · exact (congrArg List.flatten h3).trans (pieces_flatten _ _)

@[simp] theorem failBatch_fst (l : Ledger) (id : BatchId) (error : String) :
    (l.failBatch id error).1 =
      { l with inFlight := l.inFlight.erase id }.record (.submissionFailed id error) := rfl

/-! ### jobs -/

theorem hostAll_fst (l : Ledger) (job : JobId) (as : List AgentId) :
    (l.hostAll job as).1 = { l with hosts := as.foldl (fun hosts a => hosts.insert a job) l.hosts } := by
  induction as generalizing l with
  | nil => rfl
  | cons a as ih => simp only [hostAll, ih, host, List.foldl_cons]

theorem activate_fst (l : Ledger) (job : Job) :
    (l.activate job).1 =
      { l with
        inFlight := l.inFlight.erase job.batch
        hosts := job.agents.foldl (fun hosts a => hosts.insert a job.id) l.hosts
        jobs := l.jobs.insert job.id job }.record (.submitted job.batch job.id) := by
  simp only [activate, hostAll_fst]
  rfl

theorem setStatus_get? (l : Ledger) (ids : List JobId) (status : JobStatus) (id : JobId) :
    (l.setStatus ids status).jobs.get? id =
      (l.jobs.get? id).map fun job => if id ∈ ids then { job with status } else job :=
  Table.get?_foldl_modify l.jobs ids (fun job : Job => { job with status }) (fun _ => rfl) id

/-- Taking a job out takes out what hosts its agents, and nothing else. -/
theorem removeJob_spec {l l' : Ledger} {id : JobId} {job : Job} (h : l.removeJob id = some (job, l')) :
    l.jobs.get? id = some job ∧
      l' =
        { l with
          jobs := l.jobs.erase id
          hosts := job.agents.foldl (fun hosts a => hosts.erase a) l.hosts } := by
  obtain ⟨job', hj, he⟩ := Option.map_eq_some_iff.mp h
  obtain ⟨rfl, rfl⟩ := Prod.mk.inj he
  exact ⟨hj, rfl⟩

theorem mem_distinct {α : Type} [DecidableEq α] {x : α} {xs : List α} : x ∈ distinct xs ↔ x ∈ xs := by
  have seen (ys : List α) :
      x ∈ xs.foldl (fun seen x => if seen.contains x then seen else x :: seen) ys ↔ x ∈ ys ∨ x ∈ xs := by
    induction xs generalizing ys with
    | nil => simp
    | cons z zs ih =>
      rw [List.foldl_cons, ih, List.mem_cons]
      split
      · next hz =>
        have hz' : z ∈ ys := by simpa using hz
        refine ⟨fun h => h.imp_right .inr, ?_⟩
        rintro (hx | rfl | hx)
        exacts [.inl hx, .inl hz', .inr hx]
      · rw [List.mem_cons]
        tauto
  rw [distinct, List.mem_reverse, seen]
  simp

theorem distinct_concat {α : Type} [DecidableEq α] (xs : List α) (x : α) :
    distinct (xs ++ [x]) = if x ∈ xs then distinct xs else distinct xs ++ [x] := by
  have hseen : (xs.foldl (fun seen x => if seen.contains x then seen else x :: seen) []).contains x = true ↔
      x ∈ xs := by
    rw [List.contains_iff_mem, ← List.mem_reverse]
    exact mem_distinct
  rw [distinct, List.foldl_append, List.foldl_cons, List.foldl_nil]
  by_cases hx : x ∈ xs
  · rw [if_pos (hseen.mpr hx), if_pos hx, distinct]
  · rw [if_neg (mt hseen.mp hx), if_neg hx, List.reverse_cons, distinct]

theorem distinct_of_nodup {α : Type} [DecidableEq α] {xs : List α} (h : xs.Nodup) : distinct xs = xs := by
  induction xs using List.reverseRecOn with
  | nil => rfl
  | append_singleton xs x ih =>
    obtain ⟨hxs, -, hx⟩ := List.nodup_append'.mp h
    have hnew : x ∉ xs := fun hmem => hx hmem (List.mem_singleton.mpr rfl)
    rw [distinct_concat, if_neg hnew, ih hxs]

/-- What entries lead to, each once, stands in the order of the first entry that leads to it. -/
theorem pairwise_distinct_filterMap {α β : Type} [DecidableEq β] (f : α → Option β) (xs : List α) :
    (distinct (xs.filterMap f)).Pairwise fun i j =>
      xs.findIdx (f · == some i) < xs.findIdx (f · == some j) := by
  induction xs using List.reverseRecOn with
  | nil => exact List.Pairwise.nil
  | append_singleton xs x ih =>
    -- what was found before is found in the same place
    have before {i : β} (hi : i ∈ xs.filterMap f) :
        xs.findIdx (f · == some i) < xs.length ∧
          (xs ++ [x]).findIdx (f · == some i) = xs.findIdx (f · == some i) := by
      have hlt : xs.findIdx (f · == some i) < xs.length := by
        obtain ⟨y, hy, hfy⟩ := List.mem_filterMap.mp hi
        exact List.findIdx_lt_length_of_exists ⟨y, hy, by simp [hfy]⟩
      exact ⟨hlt, by rw [List.findIdx_append, if_pos hlt]⟩
    have hold : (distinct (xs.filterMap f)).Pairwise fun i j =>
        (xs ++ [x]).findIdx (f · == some i) < (xs ++ [x]).findIdx (f · == some j) := by
      refine ih.imp_of_mem fun {i j} hi hj hij => ?_
      rw [(before (mem_distinct.mp hi)).2, (before (mem_distinct.mp hj)).2]
      exact hij
    rw [List.filterMap_append]
    cases hx : f x with
    | none => simpa [hx] using hold
    | some k =>
      rw [List.filterMap_cons_some hx, List.filterMap_nil, distinct_concat]
      by_cases hk : k ∈ xs.filterMap f
      · rw [if_pos hk]
        exact hold
      · rw [if_neg hk]
        have hnone : ∀ y ∈ xs, (f y == some k) = false := by
          intro y hy
          rw [beq_eq_false_iff_ne]
          exact fun hfy => hk (List.mem_filterMap.mpr ⟨y, hy, hfy⟩)
        have hlast : xs.length ≤ (xs ++ [x]).findIdx (f · == some k) := by
          rw [List.findIdx_append, if_neg (by simp [List.findIdx_eq_length.mpr hnone])]
          omega
        refine List.pairwise_append.mpr ⟨hold, List.pairwise_singleton _ _, ?_⟩
        intro i hi j hj
        obtain rfl := List.mem_singleton.mp hj
        obtain ⟨hlt, hsame⟩ := before (mem_distinct.mp hi)
        omega

theorem mem_jobsOf {l : Ledger} {as : List AgentId} {id : JobId} :
    id ∈ l.jobsOf as ↔ ∃ x ∈ as, l.jobOf? x = some id := by
  rw [jobsOf, mem_distinct, List.mem_filterMap]

theorem nodup_jobsOf (l : Ledger) (as : List AgentId) : (l.jobsOf as).Nodup := by
  refine (pairwise_distinct_filterMap l.jobOf? as).imp ?_
  rintro i j hlt rfl
  exact Nat.lt_irrefl _ hlt

/-- A job that is there lists an agent. -/
def lists (l : Ledger) (id : JobId) (x : AgentId) : Bool := (l.job? id).any (·.agents.contains x)

theorem lists_iff {l : Ledger} {id : JobId} {x : AgentId} :
    l.lists id x = true ↔ ∃ job, l.job? id = some job ∧ x ∈ job.agents := by
  simp [lists, Option.any_eq_true]

/-! ### a ledger that is in order -/

/-- **A ledger in order.** -/
structure Sound (l : Ledger) : Prop where
  /-- No number is in flight twice. -/
  keyed : l.inFlight.keys.Nodup
  /-- What is in flight was numbered. -/
  low : ∀ k ∈ l.inFlight.keys, k ≤ l.counter
  /-- An agent is pending or in flight at most once. -/
  once : (l.pending ++ l.flying).Nodup
  /-- Such an agent has no job. -/
  free : ∀ x ∈ l.pending ++ l.flying, l.hosts.get? x = none
  own : ∀ {id job}, l.jobs.get? id = some job → job.id = id
  /-- The agents of a job know that it hosts them. -/
  hosted : ∀ {id job}, l.jobs.get? id = some job → ∀ x ∈ job.agents, l.hosts.get? x = some id

namespace Sound

variable {l : Ledger}

theorem lists_eq_false (h : l.Sound) {x : AgentId} (hx : l.jobOf? x = none) (id : JobId) : l.lists id x = false := by
  rw [← Bool.not_eq_true, lists_iff]
  rintro ⟨job, hj, hmem⟩
  have hhost : l.jobOf? x = some id := h.hosted hj x hmem
  rw [hx] at hhost
  cases hhost

theorem empty : Sound {} where
  keyed := List.nodup_nil
  low := by simp [Table.keys]
  once := List.nodup_nil
  free := by simp [flying, Table.values]
  own := by simp
  hosted := by simp

theorem record (h : l.Sound) (e : Event) : (l.record e).Sound := by
  refine ⟨?_, ?_, ?_, ?_, ?_, ?_⟩ <;>
    simp only [flying, record_pending, record_inFlight, record_jobs, record_hosts, record_counter]
  exacts [h.keyed, h.low, h.once, h.free, h.own, h.hosted]

theorem enqueue (h : l.Sound) (as : List AgentId) : (l.enqueue as).1.Sound := by
  obtain ⟨new, hl, hn, hm⟩ := l.enqueue_spec as
  rw [hl]
  have hnew : ∀ x ∈ new, x ∉ l.pending ∧ x ∉ l.flying ∧ l.hosts.get? x = none := fun x hx =>
    knows_eq_false_iff.mp ((hm x).mp hx).2
  have hp : ((l.pending ++ new) ++ l.flying).Perm (l.pending ++ l.flying ++ new) := by
    rw [List.append_assoc, List.append_assoc]
    exact List.perm_append_comm.append_left _
  refine { h with once := hp.nodup_iff.mpr ?_, free := fun x hx => ?_ }
  · refine List.nodup_append'.mpr ⟨h.once, hn, fun x hx hx' => ?_⟩
    rcases List.mem_append.mp hx with hx | hx
    · exact (hnew x hx').1 hx
    · exact (hnew x hx').2.1 hx
  · rcases List.mem_append.mp (hp.subset hx) with hx | hx
    · exact h.free x hx
    · exact (hnew x hx).2.2

theorem cancelPending (h : l.Sound) (as : List AgentId) : (l.cancelPending as).Sound := by
  have hs : (l.pending.filter fun a => !as.contains a).Sublist l.pending := List.filter_sublist
  exact { h with
    once := h.once.sublist (hs.append_right _)
    free := fun x hx => h.free x ((hs.append_right _).subset hx) }

theorem takeBatches (h : l.Sound) (size : Nat) : (l.takeBatches size).1.Sound := by
  obtain ⟨hl, hk, hf⟩ := l.takeBatches_spec h.low size
  rw [hl]
  have hfly : ({ l with
      pending := []
      inFlight := ⟨l.inFlight.entries ++ (l.takeBatches size).2⟩ } : Ledger).flying =
      l.flying ++ l.pending := by
    simp [flying, Table.values, hf]
  have hp : (l.flying ++ l.pending).Perm (l.pending ++ l.flying) := List.perm_append_comm
  have hkeys : ∀ k ∈ (l.takeBatches size).2.map (·.1),
      l.counter < k ∧ k ≤ l.counter + (l.takeBatches size).2.length := by
    intro k hk'
    rw [hk, List.mem_range'_1] at hk'
    omega
  refine { h with keyed := ?_, low := ?_, once := ?_, free := ?_ }
  · simp only [Table.keys, List.map_append]
    refine List.nodup_append'.mpr ⟨h.keyed, ?_, fun k hk₁ hk₂ => ?_⟩
    · rw [hk]
      exact List.nodup_range'
    · exact Nat.not_le_of_lt (hkeys k hk₂).1 (h.low k hk₁)
  · intro k hk'
    simp only [Table.keys, List.map_append, List.mem_append] at hk' ⊢
    rcases hk' with hk' | hk'
    · exact Nat.le_trans (h.low k hk') (Nat.le_add_right _ _)
    · exact (hkeys k hk').2
  · exact hfly ▸ hp.nodup_iff.mpr h.once
  · exact fun x hx => h.free x (hp.subset (hfly ▸ hx))

/-- Taking a batch out of flight: its agents are nowhere then, and the others where they were. -/
theorem flying_erase_sublist (id : BatchId) :
    ({ l with inFlight := l.inFlight.erase id } : Ledger).flying.Sublist l.flying :=
  (List.filter_sublist.map _).flatten

theorem erase (h : l.Sound) (id : BatchId) : Sound { l with inFlight := l.inFlight.erase id } :=
  { h with
    keyed := h.keyed.sublist (List.filter_sublist.map _)
    low := fun k hk => h.low k ((List.filter_sublist.map _).subset hk)
    once := h.once.sublist ((flying_erase_sublist id).append_left _)
    free := fun x hx => h.free x (((flying_erase_sublist id).append_left _).subset hx) }

theorem failBatch (h : l.Sound) (id : BatchId) (error : String) : (l.failBatch id error).1.Sound :=
  (h.erase id).record _

/-- The agents of a batch are told apart from all that are pending or in flight beside them. -/
theorem flying_perm (h : l.Sound) {id : BatchId} {as : List AgentId}
    (hb : (id, as) ∈ l.inFlight.entries) :
    l.flying.Perm (as ++ ({ l with inFlight := l.inFlight.erase id } : Ledger).flying) := by
  obtain ⟨xs, ys, he⟩ := List.append_of_mem hb
  have hf : (l.inFlight.erase id).entries.Perm (xs ++ ys) := by
    have hp : l.inFlight.entries.Perm (xs ++ ([(id, as)] ++ ys)) := List.Perm.of_eq he
    simpa [Table.erase] using filter_keys_perm hp h.keyed
  have hv : (l.inFlight.entries.map (·.2)).Perm (as :: (l.inFlight.erase id).entries.map (·.2)) := by
    rw [he]
    have hm : (xs ++ (id, as) :: ys).Perm ((id, as) :: (l.inFlight.erase id).entries) :=
      List.perm_middle.trans (hf.symm.cons _)
    exact hm.map (·.2)
  exact hv.flatten

theorem split_nodup (h : l.Sound) {id : BatchId} {as : List AgentId}
    (hb : (id, as) ∈ l.inFlight.entries) :
    (as ++ ({ l with inFlight := l.inFlight.erase id } : Ledger).flying).Nodup :=
  (h.flying_perm hb).nodup_iff.mp (List.nodup_append'.mp h.once).2.1

theorem batch_nodup (h : l.Sound) {id : BatchId} {as : List AgentId}
    (hb : (id, as) ∈ l.inFlight.entries) : as.Nodup :=
  (List.nodup_append'.mp (h.split_nodup hb)).1

/-- Batches in flight that have different numbers share no agent. -/
theorem batches_disjoint (h : l.Sound) {id id' : BatchId} {as as' : List AgentId}
    (hb : (id, as) ∈ l.inFlight.entries) (hb' : (id', as') ∈ l.inFlight.entries) (hne : id ≠ id') :
    as.Disjoint as' := by
  intro x hx hx'
  refine (List.nodup_append'.mp (h.split_nodup hb)).2.2 hx (mem_flying.mpr ⟨(id', as'), ?_, hx'⟩)
  exact List.mem_filter.mpr ⟨hb', decide_eq_true (Ne.symm hne)⟩

theorem activate (h : l.Sound) {job : Job} (hb : (job.batch, job.agents) ∈ l.inFlight.entries) :
    (l.activate job).1.Sound := by
  have he := h.erase job.batch
  have hn : (job.agents ++ (l.pending ++
      ({ l with inFlight := l.inFlight.erase job.batch } : Ledger).flying)).Nodup := by
    refine (List.Perm.nodup_iff ?_).mp h.once
    refine ((h.flying_perm hb).append_left _).trans ?_
    rw [← List.append_assoc, ← List.append_assoc]
    exact List.perm_append_comm.append_right _
  have hfree : ∀ x ∈ job.agents, l.hosts.get? x = none := fun x hx =>
    h.free x (List.mem_append_right _ (mem_flying.mpr ⟨_, hb, hx⟩))
  rw [activate_fst]
  apply Sound.record
  refine ⟨he.keyed, he.low, he.once, fun x hx => ?_, ?_, ?_⟩
  · have hx' : x ∉ job.agents := fun hm => (List.nodup_append'.mp hn).2.2 hm hx
    rw [Table.get?_foldl_insert, if_neg hx']
    exact he.free x hx
  · intro id job' hj
    rw [Table.get?_insert] at hj
    split at hj
    · next e => cases hj; exact e.symm
    · exact h.own hj
  · intro id job' hj x hx
    rw [Table.get?_insert] at hj
    rw [Table.get?_foldl_insert]
    split at hj
    · next e => cases hj; rw [if_pos hx, e]
    · have hx' : x ∉ job.agents := fun hm => by
        have := h.hosted hj x hx
        rw [hfree x hm] at this
        cases this
      rw [if_neg hx']
      exact h.hosted hj x hx

theorem setStatus (h : l.Sound) (ids : List JobId) (status : JobStatus) :
    (l.setStatus ids status).Sound := by
  have hj : ∀ {id job}, (l.setStatus ids status).jobs.get? id = some job →
      ∃ job', l.jobs.get? id = some job' ∧ job.id = job'.id ∧ job.agents = job'.agents := by
    intro id job hj
    rw [setStatus_get?] at hj
    obtain ⟨job', hj', rfl⟩ := Option.map_eq_some_iff.mp hj
    refine ⟨job', hj', ?_⟩
    split <;> exact ⟨rfl, rfl⟩
  refine { h with own := fun hg => ?_, hosted := fun hg x hx => ?_ }
  · obtain ⟨job', hj', e, -⟩ := hj hg
    exact e.trans (h.own hj')
  · obtain ⟨job', hj', -, e⟩ := hj hg
    exact h.hosted hj' x (e ▸ hx)

theorem removeJob (h : l.Sound) {id : JobId} {job : Job} {l' : Ledger}
    (hr : l.removeJob id = some (job, l')) : l'.Sound := by
  obtain ⟨hj, rfl⟩ := removeJob_spec hr
  refine { h with free := fun x hx => ?_, own := fun hg => ?_, hosted := fun {id' job'} hg x hx => ?_ }
  · rw [Table.get?_foldl_erase, h.free x hx, ite_self]
  · rw [Table.get?_erase] at hg
    split at hg
    · cases hg
    · exact h.own hg
  · rw [Table.get?_erase] at hg
    split at hg
    · cases hg
    · next e =>
      have hx' : x ∉ job.agents := fun hm => by
        have := h.hosted hg x hx
        rw [h.hosted hj x hm] at this
        exact e (Option.some.inj this).symm
      rw [Table.get?_foldl_erase, if_neg hx']
      exact h.hosted hg x hx

end Sound

end Ledger

end ClusterAgents
