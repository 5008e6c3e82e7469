import ClusterAgents.Proofs.Admission
import ClusterAgents.Proofs.Overlap.Changes

/-!
# No key stands twice

What is entered takes the place of what had its key: a batch, a job under the id that the scheduler printed, and the
job of an agent.  So the entries of every table are told apart by their keys, whatever ids a scheduler prints, and what
holds of all that can be looked up holds of every entry.

* `Ledger.Tidy` — no key stands twice, so that a table says one thing of each key;
* `Ledger.Tidy.change`, `World.tidy_move` — a change and a move keep the keys apart;
* `World.tidy_after` — and so does every run.
-/

namespace ClusterAgents

namespace Table

variable {κ ν : Type} [DecidableEq κ]

theorem nodup_keys_foldl_erase {t : Table κ ν} (h : t.keys.Nodup) (ks : List κ) :
    (ks.foldl (fun t k => t.erase k) t).keys.Nodup :=
  List.foldlRecOn (motive := fun t : Table κ ν => t.keys.Nodup) ks _ h fun _ ht k _ => nodup_keys_erase ht k

theorem nodup_keys_foldl_insert {t : Table κ ν} (h : t.keys.Nodup) (ks : List κ) (v : ν) :
    (ks.foldl (fun t k => t.insert k v) t).keys.Nodup :=
  List.foldlRecOn (motive := fun t : Table κ ν => t.keys.Nodup) ks _ h fun _ ht k _ => nodup_keys_insert ht k v

end Table

namespace Ledger

@[simp] theorem setStatus_keys (l : Ledger) (ids : List JobId) (status : JobStatus) :
    (l.setStatus ids status).jobs.keys = l.jobs.keys := by
  refine List.foldlRecOn (motive := fun t : Table JobId Job => t.keys = l.jobs.keys) ids _ rfl ?_
  intro t ht id _
  rw [Table.keys_modify, ht]

/-- **No key stands twice** in a table of the ledger. -/
structure Tidy (l : Ledger) : Prop where
  inFlight : l.inFlight.keys.Nodup
  jobs : l.jobs.keys.Nodup
  hosts : l.hosts.keys.Nodup

namespace Tidy

variable {l : Ledger}

theorem record (h : l.Tidy) (e : Event) : (l.record e).Tidy := ⟨h.inFlight, h.jobs, h.hosts⟩

theorem startAll (h : l.Tidy) (ps : List (List AgentId)) : (l.startAll ps).1.Tidy := by
  induction ps generalizing l with
  | nil => exact h
  | cons as ps ih => exact ih ⟨Table.nodup_keys_insert h.inFlight _ _, h.jobs, h.hosts⟩

theorem removeJob (h : l.Tidy) {id : JobId} {job : Job} {l' : Ledger} (hr : l.removeJob id = some (job, l')) :
    l'.Tidy := by
  obtain ⟨-, rfl⟩ := removeJob_spec hr
  exact ⟨h.inFlight, Table.nodup_keys_erase h.jobs id, Table.nodup_keys_foldl_erase h.hosts job.agents⟩

theorem forget (h : l.Tidy) (id : JobId) : (Actuator.forget l id).Tidy := by
  rcases forget_cases l id with ⟨job, l', hr, hf⟩ | ⟨-, hf⟩
  · rw [hf]
    exact (h.removeJob hr).record _
  · rw [hf]
    exact h.record _

theorem setStatus (h : l.Tidy) (ids : List JobId) (status : JobStatus) : (l.setStatus ids status).Tidy :=
  ⟨h.inFlight, by rw [setStatus_keys]; exact h.jobs, h.hosts⟩

theorem failAll (h : l.Tidy) (bs : List (BatchId × List AgentId)) (error : String) : (l.failAll bs error).Tidy :=
  List.foldlRecOn (motive := Tidy) bs _ h fun l hl b _ =>
    Tidy.record (l := { l with inFlight := l.inFlight.erase b.1 })
      ⟨Table.nodup_keys_erase hl.inFlight b.1, hl.jobs, hl.hosts⟩ _

theorem activate (h : l.Tidy) (job : Job) : (l.activate job).1.Tidy := by
  rw [activate_fst]
  exact record ⟨Table.nodup_keys_erase h.inFlight _, Table.nodup_keys_insert h.jobs _ _,
    Table.nodup_keys_foldl_insert h.hosts _ _⟩ _

theorem change {l' : Ledger} {bs : List (BatchId × List AgentId)} {es : List Event} (h : l.Tidy)
    (hch : Change l l' bs es) : l'.Tidy := by
  cases hch with
  | nothing => exact h
  | failed bs error => exact h.failAll bs error
  | activated job => exact h.activate job
  | marked ids status => exact h.setStatus ids status
  | forgotten ids => exact List.foldlRecOn (motive := Tidy) ids Actuator.forget h fun _ hl id _ => hl.forget id
  | reported ids cause => exact h.record _

end Tidy

end Ledger

namespace Overlap.World

open Ledger

variable {w : World}

theorem tidy_move (h : w.ledger.Tidy) (a : Actuator) (m : Move) : (w.move a m).ledger.Tidy := by
  have turn (i : Nat) {step : Account → Call → Account × Call × List Event} (hs : Steps step) :
      (w.turn i step).ledger.Tidy :=
    turn_keeps (P := fun w' => w'.ledger.Tidy) h hs i fun _ _ _ _ _ _ _ _ _ hch => h.change hch
  cases m with
  | enqueue as =>
    rw [show (w.move a (.enqueue as)).ledger = (w.ledger.enqueue as).1 from rfl, enqueue_eq]
    exact ⟨h.inFlight, h.jobs, h.hosts⟩
  | flush => exact Tidy.startAll (l := { w.ledger with pending := [] }) ⟨h.inFlight, h.jobs, h.hosts⟩ _
  | killJobs jobs => exact h
  | killAgents as => exact ⟨h.inFlight, h.jobs, h.hosts⟩
  | killAll => exact h
  | markTerminal id =>
    rcases w.move_markTerminal a id with ⟨-, hw⟩ | ⟨job, l', hr, hw⟩
    · rwa [hw]
    · rw [hw]
      exact (h.removeJob hr).record _
  | goOn i => exact turn i (goOn_steps a)
  | answer i reply => exact turn i (answer_steps a reply)
  | drop i => exact turn i drop_steps

/-- **No key stands twice in a table**, whatever calls overlap. -/
theorem tidy_after (a : Actuator) (ms : List Move) : (after a ms).ledger.Tidy :=
  run_keeps (P := fun w => w.ledger.Tidy) (w := {}) (fun _ m h => tidy_move h a m)
    ⟨List.nodup_nil, List.nodup_nil, List.nodup_nil⟩ ms

end Overlap.World

end ClusterAgents
