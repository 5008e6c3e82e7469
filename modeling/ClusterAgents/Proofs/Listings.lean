import ClusterAgents.Proofs.Overlap.Tidy

/-!
# Tables whose entries stand in another order

What a table says does not depend on the order in which it lists its entries, but three operations go through a
table from the first entry to the last.  Here stands what becomes of two ledgers that say the same.

* `Table.Same` — two tables with the same entries; whatever changes one of them changes the other alike;
* `Ledger.Same` — two ledgers that say the same, and an operation of `Ledger` after the other that keeps it so;
* `Ledger.Same.forgets`, `Ledger.Same.setStatus` — it does not matter either in which order jobs are gone through.
-/

namespace ClusterAgents

namespace Table

variable {κ ν : Type}

/-- Two tables with the same entries. -/
def Same (t t' : Table κ ν) : Prop := t.entries.Perm t'.entries

namespace Same

variable {t t' : Table κ ν}

theorem refl (t : Table κ ν) : t.Same t := List.Perm.refl _

theorem symm (h : t.Same t') : t'.Same t := List.Perm.symm h

theorem trans {t'' : Table κ ν} (h : t.Same t') (h' : t'.Same t'') : t.Same t'' := List.Perm.trans h h'

theorem keys (h : t.Same t') : t.keys.Perm t'.keys := h.map _

theorem values (h : t.Same t') : t.values.Perm t'.values := h.map _

variable [DecidableEq κ]

theorem erase (h : t.Same t') (k : κ) : (t.erase k).Same (t'.erase k) := h.filter _

theorem insert (h : t.Same t') (k : κ) (v : ν) : (t.insert k v).Same (t'.insert k v) := (h.erase k).append_right _

theorem foldl_erase (h : t.Same t') (ks : List κ) :
    (ks.foldl (fun t k => t.erase k) t).Same (ks.foldl (fun t k => t.erase k) t') := by
  induction ks generalizing t t' with
  | nil => exact h
  | cons k ks ih => exact ih (h.erase k)

theorem foldl_insert (h : t.Same t') (ks : List κ) (v : ν) :
    (ks.foldl (fun t k => t.insert k v) t).Same (ks.foldl (fun t k => t.insert k v) t') := by
  induction ks generalizing t t' with
  | nil => exact h
  | cons k ks ih => exact ih (h.insert k v)

/-- Values are changed under the same keys, whatever the order of the keys. -/
theorem foldl_modify (h : t.Same t') {ks ks' : List κ} (hks : ∀ k, k ∈ ks ↔ k ∈ ks') {f : ν → ν}
    (hf : ∀ v, f (f v) = f v) :
    (ks.foldl (fun t k => t.modify k f) t).Same (ks'.foldl (fun t k => t.modify k f) t') := by
  unfold Same
  rw [entries_foldl_modify t ks f hf, entries_foldl_modify t' ks' f hf]
  simp only [hks]
  exact h.map _

/-- Tables with the same entries say the same of every key. -/
theorem get? (h : t.Same t') (ht : t.keys.Nodup) (k : κ) : t'.get? k = t.get? k := by
  have ht' : t'.keys.Nodup := h.keys.nodup_iff.mp ht
  refine Option.ext fun v => ?_
  rw [get?_eq_some_iff ht', get?_eq_some_iff ht]
  exact h.symm.mem_iff

end Same

variable [DecidableEq κ]

/-- Tables that say the same of every key have the same entries. -/
theorem same_of_get? {t t' : Table κ ν} (ht : t.keys.Nodup) (ht' : t'.keys.Nodup)
    (h : ∀ k, t'.get? k = t.get? k) : t.Same t' := by
  refine (List.perm_ext_iff_of_nodup (List.Nodup.of_map _ ht) (List.Nodup.of_map _ ht')).mpr fun e => ?_
  rw [← get?_eq_some_iff ht, ← get?_eq_some_iff ht', h]

end Table

namespace Ledger

theorem nodup_distinct {α : Type} [DecidableEq α] (xs : List α) : (distinct xs).Nodup := by
  have hfirst := pairwise_distinct_filterMap some xs
  rw [List.filterMap_some] at hfirst
  refine hfirst.imp ?_
  rintro x y hlt rfl
  exact Nat.lt_irrefl _ hlt

theorem distinct_perm {α : Type} [DecidableEq α] {xs ys : List α} (h : xs.Perm ys) :
    (distinct xs).Perm (distinct ys) := by
  refine (List.perm_ext_iff_of_nodup (nodup_distinct xs) (nodup_distinct ys)).mpr fun x => ?_
  rw [mem_distinct, mem_distinct, h.mem_iff]

/-! ### ledgers that say the same -/

/-- **Two ledgers that say the same.**  Their latest events may differ. -/
structure Same (l l' : Ledger) : Prop where
  pending : l'.pending = l.pending
  counter : l'.counter = l.counter
  inFlight : l.inFlight.Same l'.inFlight
  jobs : l.jobs.Same l'.jobs
  hosts : l.hosts.Same l'.hosts

namespace Same

variable {l l' : Ledger}

theorem refl (l : Ledger) : l.Same l := ⟨rfl, rfl, .refl _, .refl _, .refl _⟩

theorem symm (h : l.Same l') : l'.Same l :=
  ⟨h.pending.symm, h.counter.symm, h.inFlight.symm, h.jobs.symm, h.hosts.symm⟩

theorem trans {l'' : Ledger} (h : l.Same l') (h' : l'.Same l'') : l.Same l'' :=
  ⟨h'.pending.trans h.pending, h'.counter.trans h.counter, h.inFlight.trans h'.inFlight, h.jobs.trans h'.jobs,
    h.hosts.trans h'.hosts⟩

theorem tidy (h : l.Same l') (ht : l.Tidy) : l'.Tidy :=
  ⟨h.inFlight.keys.nodup_iff.mp ht.inFlight, h.jobs.keys.nodup_iff.mp ht.jobs, h.hosts.keys.nodup_iff.mp ht.hosts⟩

theorem record (h : l.Same l') (e e' : Event) : (l.record e).Same (l'.record e') :=
  ⟨h.pending, h.counter, h.inFlight, h.jobs, h.hosts⟩

/-- An event is nothing to what a ledger says. -/
theorem record_self (l : Ledger) (e : Event) : l.Same (l.record e) := ⟨rfl, rfl, .refl _, .refl _, .refl _⟩

theorem job? (h : l.Same l') (ht : l.Tidy) (id : JobId) : l'.job? id = l.job? id := h.jobs.get? ht.jobs id

theorem jobOf? (h : l.Same l') (ht : l.Tidy) (x : AgentId) : l'.jobOf? x = l.jobOf? x := h.hosts.get? ht.hosts x

theorem jobsOf (h : l.Same l') (ht : l.Tidy) (as : List AgentId) : l'.jobsOf as = l.jobsOf as := by
  unfold Ledger.jobsOf
  rw [funext (h.jobOf? ht)]

theorem knows (h : l.Same l') (ht : l.Tidy) (x : AgentId) : l'.knows x = l.knows x := by
  have hfly : l'.inFlight.values.any (·.contains x) = l.inFlight.values.any (·.contains x) :=
    h.inFlight.values.symm.any_eq
  unfold Ledger.knows Table.contains
  rw [h.pending, hfly, h.hosts.get? ht.hosts]

/-- A request adds the same agents. -/
theorem newcomers (h : l.Same l') (ht : l.Tidy) (as : List AgentId) : l'.newcomers as = l.newcomers as := by
  unfold Ledger.newcomers
  simp only [h.knows ht]

theorem enqueue (h : l.Same l') (ht : l.Tidy) (as : List AgentId) :
    (l.enqueue as).1.Same (l'.enqueue as).1 ∧ l'.added as = l.added as := by
  rw [added_eq, added_eq, enqueue_eq, enqueue_eq, h.newcomers ht]
  exact ⟨⟨congrArg (· ++ l.newcomers as) h.pending, h.counter, h.inFlight, h.jobs, h.hosts⟩, rfl⟩

theorem cancelPending (h : l.Same l') (as : List AgentId) : (l.cancelPending as).Same (l'.cancelPending as) :=
  ⟨congrArg (List.filter fun a => !as.contains a) h.pending, h.counter, h.inFlight, h.jobs, h.hosts⟩

theorem startAll (h : l.Same l') (ps : List (List AgentId)) :
    (l.startAll ps).1.Same (l'.startAll ps).1 ∧ (l'.startAll ps).2 = (l.startAll ps).2 := by
  induction ps generalizing l l' with
  | nil => exact ⟨h, rfl⟩
  | cons as ps ih =>
    have hstart : (l.start as).1.Same (l'.start as).1 := by
      refine ⟨h.pending, congrArg (· + 1) h.counter, ?_, h.jobs, h.hosts⟩
      unfold Ledger.start
      rw [h.counter]
      exact h.inFlight.insert _ _
    have hfirst : (l'.start as).2 = (l.start as).2 := by
      unfold Ledger.start
      rw [h.counter]
    obtain ⟨hrest, hbatches⟩ := ih hstart
    exact ⟨hrest, congrArg₂ List.cons hfirst hbatches⟩

theorem takeBatches (h : l.Same l') (size : Nat) :
    (l.takeBatches size).1.Same (l'.takeBatches size).1 ∧ (l'.takeBatches size).2 = (l.takeBatches size).2 := by
  have hempty : Same { l with pending := [] } { l' with pending := [] } :=
    ⟨rfl, h.counter, h.inFlight, h.jobs, h.hosts⟩
  unfold Ledger.takeBatches
  rw [h.pending]
  exact hempty.startAll _

theorem failBatch (h : l.Same l') (id : BatchId) (error : String) :
    (l.failBatch id error).1.Same (l'.failBatch id error).1 :=
  ⟨h.pending, h.counter, h.inFlight.erase id, h.jobs, h.hosts⟩

theorem activate (h : l.Same l') (job : Job) : (l.activate job).1.Same (l'.activate job).1 := by
  rw [activate_fst, activate_fst]
  exact ⟨h.pending, h.counter, h.inFlight.erase _, h.jobs.insert _ _, h.hosts.foldl_insert _ _⟩

theorem setStatus (h : l.Same l') {ids ids' : List JobId} (hids : ∀ id, id ∈ ids ↔ id ∈ ids') (status : JobStatus) :
    (l.setStatus ids status).Same (l'.setStatus ids' status) :=
  ⟨h.pending, h.counter, h.inFlight, h.jobs.foldl_modify hids fun _ => rfl, h.hosts⟩

/-- The same job is taken out, or none. -/
theorem removeJob (h : l.Same l') (ht : l.Tidy) (id : JobId) :
    l.removeJob id = none ∧ l'.removeJob id = none ∨
      ∃ job k k', l.removeJob id = some (job, k) ∧ l'.removeJob id = some (job, k') ∧ k.Same k' := by
  unfold Ledger.removeJob
  rw [h.job? ht]
  cases l.job? id with
  | none => exact .inl ⟨rfl, rfl⟩
  | some job =>
    exact .inr ⟨job, _, _, rfl, rfl, h.pending, h.counter, h.inFlight, h.jobs.erase id, h.hosts.foldl_erase job.agents⟩

/-- **It does not matter in which order jobs are taken out.** -/
theorem forgets (h : l.Same l') (ht : l.Tidy) {ids ids' : List JobId} (hids : ∀ id, id ∈ ids ↔ id ∈ ids') :
    (ids.foldl Actuator.forget l).Same (ids'.foldl Actuator.forget l') := by
  obtain ⟨hpending, hflight, hcounter⟩ := foldl_forget_frame l ids
  obtain ⟨hpending', hflight', hcounter'⟩ := foldl_forget_frame l' ids'
  have htidy : (ids.foldl Actuator.forget l).Tidy := ht.change (.forgotten ids)
  have htidy' : (ids'.foldl Actuator.forget l').Tidy := (h.tidy ht).change (.forgotten ids')
  refine ⟨?_, ?_, ?_, ?_, ?_⟩
  · rw [hpending, hpending', h.pending]
  · rw [hcounter, hcounter', h.counter]
  · rw [hflight, hflight']
    exact h.inFlight
  · refine Table.same_of_get? htidy.jobs htidy'.jobs fun id => ?_
    rw [foldl_forget_jobs, foldl_forget_jobs, h.jobs.get? ht.jobs]
    simp only [hids]
  · refine Table.same_of_get? htidy.hosts htidy'.hosts fun x => ?_
    rw [foldl_forget_hosts, foldl_forget_hosts, h.hosts.get? ht.hosts]
    simp only [hids, h.jobs.get? ht.jobs]

end Same

end Ledger

end ClusterAgents
