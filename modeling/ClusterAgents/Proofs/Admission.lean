import ClusterAgents.Proofs.Ledgers

/-!
# Requests for agents

A request goes through its agents one after the other and adds those that are new to it.  What is new changes on the
way, since an agent that was added is known from then on; still it makes no difference where a request is cut in two.

* `Ledger.enqueue_eq` — a request adds the agents that nobody knew before, each once, as they are first asked for;
* `Ledger.enqueue_append` — two requests are as good as one;
* `Intake` — a request that gathers at its beginning whom it takes for known, and `Ledger.intake_eq`, that this is
  the same;
* `requests_admit_new_agents` — what a request adds, what it answers, and how it is taken back.
-/

namespace ClusterAgents

namespace Ledger

/-! ### what a request adds -/

/-- After a request for agents all of them are known, and nobody else is whom nobody knew before. -/
theorem knows_enqueue {l : Ledger} {as : List AgentId} {x : AgentId} :
    (l.enqueue as).1.knows x = true ↔ l.knows x = true ∨ x ∈ as := by
  obtain ⟨new, hl, -, hnew⟩ := l.enqueue_spec as
  have hknows : (l.enqueue as).1.knows x = true ↔ x ∈ new ∨ l.knows x = true := by
    rw [hl]
    simp only [knows, List.contains_eq_mem, List.mem_append, Bool.or_eq_true, decide_eq_true_eq]
    tauto
  rw [hknows, hnew]
  cases l.knows x <;> simp

theorem enqueue_append (l : Ledger) (as bs : List AgentId) :
    (l.enqueue (as ++ bs)).1 = ((l.enqueue as).1.enqueue bs).1 := by
  induction as generalizing l with
  | nil => rfl
  | cons a as ih =>
    rw [List.cons_append, enqueue, enqueue]
    split
    · exact ih l
    · exact ih _

theorem enqueue_singleton (l : Ledger) (a : AgentId) :
    (l.enqueue [a]).1 = if l.knows a then l else { l with pending := l.pending ++ [a] } := by
  rw [enqueue]
  split <;> rfl

/-- The agents of a request that nobody knows, each once. -/
def newcomers (l : Ledger) (as : List AgentId) : List AgentId :=
  distinct (as.filterMap fun x => if l.knows x then none else some x)

theorem mem_newcomers {l : Ledger} {as : List AgentId} {x : AgentId} :
    x ∈ l.newcomers as ↔ x ∈ as ∧ l.knows x = false := by
  simp [newcomers, mem_distinct]

/-- **A request adds whom nobody knew before**, each once, and changes nothing else. -/
theorem enqueue_eq (l : Ledger) (as : List AgentId) :
    (l.enqueue as).1 = { l with pending := l.pending ++ l.newcomers as } := by
  induction as using List.reverseRecOn with
  | nil => simp [enqueue, newcomers, distinct]
  | append_singleton as a ih =>
    have hadds : l.newcomers (as ++ [a]) =
        if l.knows a = true ∨ a ∈ as then l.newcomers as else l.newcomers as ++ [a] := by
      rw [newcomers, List.filterMap_append]
      by_cases hknown : l.knows a = true
      · simp [hknown, newcomers]
      · by_cases hmem : a ∈ as <;> simp [hknown, hmem, newcomers, distinct_concat]
    rw [enqueue_append, enqueue_singleton, if_congr knows_enqueue rfl rfl, hadds, ih]
    split
    · rfl
    · rw [List.append_assoc]

/-- They stand in the order in which they are first asked for. -/
theorem pairwise_newcomers (l : Ledger) (as : List AgentId) :
    (l.newcomers as).Pairwise fun x y => as.idxOf x < as.idxOf y := by
  have hfind {x : AgentId} (hx : l.knows x = false) :
      as.findIdx (fun y => (if l.knows y then none else some y) == some x) = as.idxOf x := by
    rw [List.idxOf]
    congr 1
    funext y
    by_cases hy : y = x
    · simp [hy, hx]
    · by_cases hk : l.knows y = true <;> simp [hy, hk]
  refine (pairwise_distinct_filterMap _ as).imp_of_mem fun {x y} hx hy hlt => ?_
  rwa [hfind (mem_newcomers.mp hx).2, hfind (mem_newcomers.mp hy).2] at hlt

/-- How many agents a request adds. -/
def added (l : Ledger) (as : List AgentId) : Nat := (l.enqueue as).1.pending.length - l.pending.length

/-- How many agents are given up while they are pending. -/
def cancelled (l : Ledger) (as : List AgentId) : Nat := l.pending.length - (l.cancelPending as).pending.length

theorem added_eq (l : Ledger) (as : List AgentId) : l.added as = (l.newcomers as).length := by
  rw [added, enqueue_eq, List.length_append, Nat.add_sub_cancel_left]

theorem length_enqueue (l : Ledger) (as : List AgentId) :
    (l.enqueue as).1.pending.length = l.pending.length + l.added as := by
  rw [added_eq, enqueue_eq, List.length_append]

theorem added_append (l : Ledger) (as bs : List AgentId) :
    l.added (as ++ bs) = l.added as + (l.enqueue as).1.added bs := by
  have hboth := l.length_enqueue (as ++ bs)
  rw [enqueue_append, length_enqueue, length_enqueue] at hboth
  omega

/-- Whoever is known already is passed over. -/
theorem enqueue_known {l : Ledger} {as : List AgentId} (h : ∀ x ∈ as, l.knows x = true) : (l.enqueue as).1 = l := by
  have hnone : l.newcomers as = [] := by
    refine List.eq_nil_iff_forall_not_mem.mpr fun x hx => ?_
    obtain ⟨hmem, hunknown⟩ := mem_newcomers.mp hx
    rw [h x hmem] at hunknown
    cases hunknown
  rw [enqueue_eq, hnone, List.append_nil]

/-- **A request is taken back** by giving up its agents, if none of them was pending before. -/
theorem cancelPending_enqueue {l : Ledger} {as : List AgentId} (h : ∀ x ∈ as, x ∉ l.pending) :
    (l.enqueue as).1.cancelPending as = l := by
  have hkept : l.pending.filter (fun x => !as.contains x) = l.pending := by
    refine List.filter_eq_self.mpr fun x hx => ?_
    simpa using fun hmem => h x hmem hx
  have hgone : (l.newcomers as).filter (fun x => !as.contains x) = [] := by
    refine List.filter_eq_nil_iff.mpr fun x hx => ?_
    simpa using (mem_newcomers.mp hx).1
  rw [enqueue_eq, cancelPending]
  dsimp only
  rw [List.filter_append, hkept, hgone, List.append_nil]

end Ledger

/-! ### a request on its way -/

/-- A request on its way: whom it takes for known besides those who have a job, the ledger, and how many agents it
added. -/
structure Intake where
  known : List AgentId
  ledger : Ledger
  added : Nat := 0

namespace Intake

/-- The next agent of a request. -/
def take (i : Intake) (a : AgentId) : Intake :=
  if i.ledger.hosts.contains a || i.known.contains a then i
  else
    { known := a :: i.known
      ledger := { i.ledger with pending := i.ledger.pending ++ [a] }
      added := i.added + 1 }

/-- Who is pending or in flight is taken for known, and nobody else. -/
def Aware (i : Intake) : Prop := ∀ x, x ∈ i.known ↔ x ∈ i.ledger.pending ∨ x ∈ i.ledger.flying

theorem Aware.knows {i : Intake} (h : i.Aware) (a : AgentId) :
    (i.ledger.hosts.contains a || i.known.contains a) = i.ledger.knows a := by
  have hflying : a ∈ i.ledger.flying ↔ i.ledger.inFlight.values.any (·.contains a) = true := by
    simp [Ledger.flying]
  rw [Bool.eq_iff_iff, Ledger.knows, Bool.or_eq_true, Bool.or_eq_true, Bool.or_eq_true, ← hflying,
    List.contains_iff_mem, List.contains_iff_mem, h a]
  tauto

/-- One agent: whoever is known goes by, and a new one is known from then on. -/
theorem Aware.take {i : Intake} (h : i.Aware) (a : AgentId) :
    (i.take a).Aware ∧ (i.take a).ledger = (i.ledger.enqueue [a]).1 ∧
      (i.take a).added = i.added + i.ledger.added [a] := by
  rw [Intake.take, h.knows, Ledger.added, Ledger.enqueue_singleton]
  split
  · exact ⟨h, rfl, by simp⟩
  · refine ⟨fun x => ?_, rfl, by simp⟩
    have hflying : ({ i.ledger with pending := i.ledger.pending ++ [a] } : Ledger).flying = i.ledger.flying := rfl
    rw [List.mem_cons, h x, List.mem_append, List.mem_singleton, hflying]
    tauto

theorem Aware.foldl_take {i : Intake} (h : i.Aware) (as : List AgentId) :
    (as.foldl Intake.take i).ledger = (i.ledger.enqueue as).1 ∧
      (as.foldl Intake.take i).added = i.added + i.ledger.added as := by
  induction as generalizing i with
  | nil => exact ⟨rfl, by simp [Ledger.added, Ledger.enqueue]⟩
  | cons a as ih =>
    obtain ⟨haware, hledger, hadded⟩ := h.take a
    obtain ⟨ihledger, ihadded⟩ := ih haware
    have hledgers := i.ledger.enqueue_append [a] as
    have hadds := i.ledger.added_append [a] as
    rw [List.singleton_append] at hledgers hadds
    rw [List.foldl_cons, ihledger, ihadded, hadded, hledger, hledgers, hadds, Nat.add_assoc]
    exact ⟨rfl, rfl⟩

end Intake

namespace Ledger

/-- A request that gathers at its beginning who is pending or in flight. -/
def intake (l : Ledger) (as : List AgentId) : Intake :=
  as.foldl Intake.take { known := l.pending ++ l.flying, ledger := l }

theorem intake_eq (l : Ledger) (as : List AgentId) :
    (l.intake as).ledger = (l.enqueue as).1 ∧ (l.intake as).added = l.added as := by
  have haware : Intake.Aware { known := l.pending ++ l.flying, ledger := l } := fun x => List.mem_append
  obtain ⟨hledger, hadded⟩ := haware.foldl_take as
  exact ⟨hledger, hadded.trans (Nat.zero_add _)⟩

/-- What a request for agents does. -/
structure Admits (l : Ledger) (as : List AgentId) : Prop where
  /-- Agents that are new stand behind the others, in the order in which they are first asked for. -/
  admitted : ∃ new, (l.enqueue as).1 = { l with pending := l.pending ++ new } ∧ l.added as = new.length ∧
    new.Pairwise (fun x y => as.idxOf x < as.idxOf y) ∧
    ∀ x, x ∈ new ↔ x ∈ as ∧ x ∉ l.pending ∧ (∀ b ∈ l.inFlight.entries, x ∉ b.2) ∧ l.jobOf? x = none
  /-- It is enough to gather at the beginning who is known. -/
  gathered : (l.intake as).ledger = (l.enqueue as).1 ∧ (l.intake as).added = l.added as
  parted : ∀ bs, (l.enqueue (as ++ bs)).1 = ((l.enqueue as).1.enqueue bs).1 ∧
    l.added (as ++ bs) = l.added as + (l.enqueue as).1.added bs
  repeated : ((l.enqueue as).1.enqueue as).1 = (l.enqueue as).1 ∧ (l.enqueue as).1.added as = 0
  withdrawn : (∀ x ∈ as, x ∉ l.pending) →
    (l.enqueue as).1.cancelPending as = l ∧ (l.enqueue as).1.cancelled as = l.added as

/-- **A request admits the agents that are new**, whatever the ledger says. -/
theorem requests_admit_new_agents (l : Ledger) (as : List AgentId) : l.Admits as where
  admitted := by
    refine ⟨l.newcomers as, l.enqueue_eq as, l.added_eq as, l.pairwise_newcomers as, fun x => ?_⟩
    rw [mem_newcomers, knows_eq_false_iff, mem_flying]
    simp only [not_exists, not_and]
    rfl
  gathered := l.intake_eq as
  parted bs := ⟨l.enqueue_append as bs, l.added_append as bs⟩
  repeated := by
    have hsame : ((l.enqueue as).1.enqueue as).1 = (l.enqueue as).1 :=
      enqueue_known fun x hx => knows_enqueue.mpr (.inr hx)
    rw [added, hsame]
    exact ⟨rfl, Nat.sub_self _⟩
  withdrawn h := by
    have hback := cancelPending_enqueue h
    rw [cancelled, hback, added]
    exact ⟨rfl, rfl⟩

/-- Of five agents that are asked for, one is pending and one is asked for twice. -/
example : ({ pending := [⟨2⟩] } : Ledger).added [⟨3⟩, ⟨2⟩, ⟨1⟩, ⟨3⟩, ⟨4⟩] = 3 ∧
    (({ pending := [⟨2⟩] } : Ledger).enqueue [⟨3⟩, ⟨2⟩, ⟨1⟩, ⟨3⟩, ⟨4⟩]).1.pending = [⟨2⟩, ⟨3⟩, ⟨1⟩, ⟨4⟩] := by decide

end Ledger

end ClusterAgents
