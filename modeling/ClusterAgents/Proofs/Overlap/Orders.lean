import ClusterAgents.Proofs.Listings
import ClusterAgents.Proofs.Overlap.Sound

/-!
# Runs whose tables are listed in any order

Nothing is known of the order in which a table lists its entries: it may be another one whenever somebody looks.  So a
run of moves finds the tables of the ledger in some order before each of its moves, and leads to one world or another.

* `World.Relists`, `World.Moves`, `World.Runs` — another order, and a move and a run when any order may be found;
* `World.InOrder` — the invariant of the moves does not depend on the order of the tables, so that it holds all along;
* `World.InOrder.liveJobs` — which leaves one order for the list of all jobs, that of their batches.
-/

namespace ClusterAgents

/-- The same ledger, with its tables listed in another order. -/
def Ledger.Relists (l l' : Ledger) : Prop := l.Same l' ∧ l'.events = l.events

/-- A ledger in order stays so when its tables are listed in another order. -/
theorem Ledger.Same.sound {l l' : Ledger} (h : l.Same l') (ht : l.Tidy) (hl : l.Sound) : l'.Sound := by
  have hflying : l.flying.Perm l'.flying := h.inFlight.values.flatten
  have hplaced : (l.pending ++ l.flying).Perm (l'.pending ++ l'.flying) := by
    rw [h.pending]
    exact hflying.append_left _
  have hjobs := h.jobs.get? ht.jobs
  have hhosts := h.hosts.get? ht.hosts
  exact
    { keyed := (h.tidy ht).inFlight
      low := fun k hk => by
        rw [h.counter]
        exact hl.low k (h.inFlight.keys.mem_iff.mpr hk)
      once := hplaced.nodup_iff.mp hl.once
      free := fun x hx => by
        rw [hhosts]
        exact hl.free x (hplaced.mem_iff.mpr hx)
      own := fun {id job} hj => hl.own (by rwa [hjobs] at hj)
      hosted := fun {id job} hj x hx => by
        rw [hhosts]
        exact hl.hosted (by rwa [hjobs] at hj) x hx }

namespace Overlap.World

open Ledger

variable {a : Actuator} {w w' : World}

/-- The same world, with the tables of its ledger listed in another order. -/
def Relists (w w' : World) : Prop :=
  ∃ l, w.ledger.Relists l ∧ w' = { w with account := { w.account with ledger := l } }

theorem Relists.refl (w : World) : w.Relists w := ⟨w.ledger, ⟨.refl _, rfl⟩, rfl⟩

section

variable (h : w.Relists w')
include h

theorem Relists.same : w.ledger.Same w'.ledger := by
  obtain ⟨l, hl, rfl⟩ := h
  exact hl.1

theorem Relists.history : w'.history = w.history := by
  obtain ⟨l, -, rfl⟩ := h
  rfl

theorem Relists.calls : w'.calls = w.calls := by
  obtain ⟨l, -, rfl⟩ := h
  rfl

theorem Relists.trans {w₁ : World} (h' : w'.Relists w₁) : w.Relists w₁ := by
  obtain ⟨l, ⟨hsame, hevents⟩, rfl⟩ := h
  obtain ⟨l', ⟨hsame', hevents'⟩, rfl⟩ := h'
  exact ⟨l', ⟨hsame.trans hsame', hevents'.trans hevents⟩, rfl⟩

end

/-- One move, in whatever order it finds the tables. -/
def Moves (a : Actuator) (w : World) (m : Move) (w' : World) : Prop := ∃ w₀, w.Relists w₀ ∧ w' = w₀.move a m

/-- Several moves, each of which may find the tables in another order, as may whoever looks at them afterwards. -/
def Runs (a : Actuator) : World → List Move → World → Prop
  | w, [], w' => w.Relists w'
  | w, m :: ms, w' => ∃ w₁, w.Moves a m w₁ ∧ Runs a w₁ ms w'

theorem Relists.runs {w₁ : World} {ms : List Move} (h : w.Relists w₁) (h' : w₁.Runs a ms w') : w.Runs a ms w' := by
  cases ms with
  | nil => exact h.trans h'
  | cons m ms =>
    obtain ⟨w₂, ⟨w₀, hr, hm⟩, hms⟩ := h'
    exact ⟨w₂, ⟨w₀, h.trans hr, hm⟩, hms⟩

theorem Runs.append {w₁ : World} {ms ms' : List Move} (h : w.Runs a ms w₁) (h' : w₁.Runs a ms' w') :
    w.Runs a (ms ++ ms') w' := by
  induction ms generalizing w with
  | nil => exact Relists.runs h h'
  | cons m ms ih =>
    obtain ⟨w₂, hm, hms⟩ := h
    exact ⟨w₂, hm, ih hms⟩

/-- A run that finds its tables as it left them is one of these. -/
theorem runs_run (a : Actuator) (w : World) (ms : List Move) : w.Runs a ms (w.run a ms) := by
  induction ms generalizing w with
  | nil => exact .refl w
  | cons m ms ih => exact ⟨w.move a m, ⟨w, .refl w, rfl⟩, ih _⟩

/-- What was told stays told. -/
theorem Runs.history {ms : List Move} (h : w.Runs a ms w') : w.history <+: w'.history := by
  induction ms generalizing w with
  | nil => exact Relists.history h ▸ List.prefix_rfl
  | cons m ms ih =>
    obtain ⟨_, ⟨w₀, hr, rfl⟩, hms⟩ := h
    rw [← hr.history]
    exact (history_move a w₀ m).trans (ih hms)

/-! ### the invariant -/

/-- **A world in order**, whatever the order of its tables. -/
structure InOrder (w : World) : Prop where
  sound : w.Sound
  tidy : w.ledger.Tidy

theorem InOrder.empty : InOrder {} := ⟨.empty, List.nodup_nil, List.nodup_nil, List.nodup_nil⟩

namespace InOrder

theorem relists (h : w.InOrder) (hr : w.Relists w') : w'.InOrder := by
  obtain ⟨l, ⟨hsame, hevents⟩, rfl⟩ := hr
  have hsound : Sound { w with account := { w.account with ledger := l } } :=
    { ledger := hsame.sound h.tidy h.sound.ledger
      flying := hsame.inFlight.symm.trans h.sound.flying
      numbered := h.sound.numbered.trans (by rw [hsame.counter])
      taken := fun b hb => h.sound.taken b (hsame.inFlight.mem_iff.mpr hb)
      told := (hsame.inFlight.keys.symm.append_left _).trans h.sound.told
      entered := fun {id job} hj => h.sound.entered (by rwa [hsame.jobs.get? h.tidy.jobs] at hj)
      latest := hevents.trans h.sound.latest }
  exact ⟨hsound, hsame.tidy h.tidy⟩

theorem moves (h : w.InOrder) {m : Move} (hm : w.Moves a m w') : w'.InOrder := by
  obtain ⟨w₀, hr, rfl⟩ := hm
  have h₀ := h.relists hr
  exact ⟨h₀.sound.move a m, tidy_move h₀.tidy a m⟩

theorem runs (h : w.InOrder) {ms : List Move} (hms : w.Runs a ms w') : w'.InOrder := by
  induction ms generalizing w with
  | nil => exact h.relists hms
  | cons m ms ih =>
    obtain ⟨w₁, hm, hms⟩ := hms
    exact ih (h.moves hm) hms

/-! ### the list of all jobs -/

/-- **The batches of all jobs are told apart**, also where ids were told twice. -/
theorem nodup_batches (h : w.InOrder) : (w.ledger.jobs.values.map (·.batch)).Nodup := by
  have htold := (List.nodup_append'.mp h.sound.told_nodup).1
  have hbatch : ∀ e ∈ w.ledger.jobs.entries, ∀ e' ∈ w.ledger.jobs.entries, e.2.batch = e'.2.batch → e = e' := by
    intro e he e' he' heq
    have hj := (Table.get?_eq_some_iff h.tidy.jobs).mpr he
    have hj' := (Table.get?_eq_some_iff h.tidy.jobs).mpr he'
    -- the submission of a batch is told once, and with one id
    have hevent := told_once htold (h.sound.entered hj) (h.sound.entered hj') rfl (congrArg some heq.symm)
    have hid : e.1 = e'.1 := (Event.submitted.inj hevent).2
    rw [hid, hj'] at hj
    exact Prod.ext hid (Option.some.inj hj).symm
  have hvalues : w.ledger.jobs.values.map (·.batch) = w.ledger.jobs.entries.map (·.2.batch) := List.map_map
  rw [hvalues]
  exact (List.Nodup.of_map _ h.tidy.jobs).map_on hbatch

/-- All jobs stand in the order of their batches. -/
theorem liveJobs_increasing (h : w.InOrder) : w.ledger.liveJobs.Pairwise fun j j' => j.batch < j'.batch := by
  have hperm := List.mergeSort_perm w.ledger.jobs.values fun j j' => decide (j.batch ≤ j'.batch)
  have hne : w.ledger.liveJobs.Pairwise fun j j' => j.batch ≠ j'.batch :=
    List.pairwise_map.mp ((hperm.map _).nodup_iff.mpr h.nodup_batches)
  have hle : w.ledger.liveJobs.Pairwise fun j j' => decide (j.batch ≤ j'.batch) = true :=
    List.pairwise_mergeSort (fun _ _ _ => by simpa using Nat.le_trans) (fun _ _ => by simpa using Nat.le_total _ _) _
  exact (hle.and hne).imp fun hboth => Nat.lt_of_le_of_ne (of_decide_eq_true hboth.1) hboth.2

/-- Every job is listed, and nothing else is. -/
theorem mem_liveJobs (h : w.InOrder) (job : Job) : job ∈ w.ledger.liveJobs ↔ ∃ id, w.ledger.job? id = some job := by
  rw [liveJobs, (List.mergeSort_perm _ _).mem_iff, Table.values, List.mem_map]
  constructor
  · rintro ⟨e, he, rfl⟩
    exact ⟨e.1, (Table.get?_eq_some_iff h.tidy.jobs).mpr he⟩
  · rintro ⟨id, hj⟩
    exact ⟨(id, job), Table.mem_entries_of_get? hj, rfl⟩

/-- **Two worlds that say the same list all jobs in the same way.** -/
theorem liveJobs (h : w.InOrder) (h' : w'.InOrder) (hsame : w.ledger.Same w'.ledger) :
    w'.ledger.liveJobs = w.ledger.liveJobs := by
  have hperm : w'.ledger.liveJobs.Perm w.ledger.liveJobs :=
    (List.mergeSort_perm _ _).trans (hsame.jobs.values.symm.trans (List.mergeSort_perm _ _).symm)
  exact hperm.eq_of_pairwise (fun j j' _ _ hlt hgt => absurd hlt (Nat.lt_asymm hgt)) h'.liveJobs_increasing
    h.liveJobs_increasing

end InOrder

end Overlap.World

end ClusterAgents
