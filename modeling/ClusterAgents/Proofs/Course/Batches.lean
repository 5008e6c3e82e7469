import ClusterAgents.Proofs.Course.Talk
import ClusterAgents.Proofs.Overlap.Files

/-!
# A flush goes through its batches

A flush that nobody disturbs submits one batch after the other.  What is said of a batch depends on this batch and on
what was heard of it, and it can be found in all that is said by the files that it is about.

* `Concluded` — what is said of a batch from its start to its end, and what comes of it;
* `Submits` — the same for several batches, with what it means for the account;
* `undisturbed_flush` — a flush goes through the batches that it takes;
* `Submits.about`, `Submits.alike` — what is said of each batch, and that nothing else matters for it.
-/

namespace ClusterAgents

/-- The batch that was submitted. -/
def Actuator.batchOf (a : Actuator) (sub : Submission) : Batch := a.batch sub.batch sub.agents

/-- A request that has to do with the files of a batch. -/
def Request.concerns (b : Batch) : Request → Bool
  | .write path _ => path ∈ b.documents
  | .run _ args => args.any (· ∈ b.documents)

/-- What was said about a batch. -/
def Talk.about (talk : Talk) (b : Batch) : Talk := talk.filter (·.1.concerns b)

theorem Talk.about_append (talk talk' : Talk) (b : Batch) :
    (talk ++ talk' : Talk).about b = talk.about b ++ talk'.about b := List.filter_append _ _

/-- Where the same is asked, the same is heard. -/
def Talk.Alike (talk talk' : Talk) : Prop :=
  ∀ (n : Nat) (r : Request) (o o' : Outcome Output), talk[n]? = some (r, o) → talk'[n]? = some (r, o') → o = o'

namespace Overlap

open Actuator Ledger

variable {a : Actuator} {b : Batch} {st : Stage} {host : Respondent}

/-! ### one batch -/

/-- A submission at some stage is over after some talk, with this result. -/
def Ends (a : Actuator) (b : Batch) (st : Stage) (said : Talk) (result : Outcome JobId) : Prop :=
  attend a b st (said.map (·.2)) = (said.map (·.1), .inr result)

theorem ends_cons {e : Request × Outcome Output} {said : Talk} {result : Outcome JobId} :
    Ends a b st (e :: said) result ↔ e.1 = asks a b st ∧
      ((a.judge b st e.2).2 = .inr result ∧ said = [] ∨
        ∃ st', (a.judge b st e.2).2 = .inl st' ∧ Ends a b st' said result) := by
  simp only [Ends, List.map_cons, attend]
  cases (a.judge b st e.2).2 with
  | inl st' =>
    simp only [Prod.ext_iff, List.cons.injEq, Sum.inl.injEq, reduceCtorEq, false_and, false_or, exists_eq_left']
    rw [eq_comm (a := asks a b st), and_assoc]
  | inr result' =>
    simp only [Prod.mk.injEq, List.cons.injEq, Sum.inr.injEq, reduceCtorEq, false_and, exists_false, or_false]
    rw [eq_comm (a := asks a b st), eq_comm (a := []), List.map_eq_nil_iff]
    tauto

theorem Ends.alike {said said' : Talk} {result result' : Outcome JobId} (h : Ends a b st said result)
    (h' : Ends a b st said' result') (halike : Talk.Alike said said') : said = said' ∧ result = result' := by
  induction said generalizing said' st with
  | nil => cases h
  | cons e said ih =>
    cases said' with
    | nil => cases h'
    | cons e' said' =>
      obtain ⟨hask, h⟩ := ends_cons.mp h
      obtain ⟨hask', h'⟩ := ends_cons.mp h'
      -- the same is asked first, and so the same is heard of it
      have heq : e = e' := Prod.ext (hask.trans hask'.symm) (halike 0 (asks a b st) _ _ (by simp [← hask]) (by simp [← hask']))
      subst heq
      have htail : Talk.Alike said said' := fun n r o o' ho ho' => halike (n + 1) r o o' ho ho'
      rcases h with ⟨hj, rfl⟩ | ⟨st', hj, h⟩
      · rcases h' with ⟨hj', rfl⟩ | ⟨st', hj', -⟩
        · rw [hj] at hj'
          exact ⟨rfl, Sum.inr.inj hj'⟩
        · rw [hj] at hj'
          cases hj'
      · rcases h' with ⟨hj', -⟩ | ⟨st'', hj', h'⟩
        · rw [hj] at hj'
          cases hj'
        · rw [hj] at hj'
          obtain rfl := Sum.inl.inj hj'
          obtain ⟨rfl, hresult⟩ := ih h h' htail
          exact ⟨rfl, hresult⟩

theorem Ends.asked {said : Talk} {result : Outcome JobId} (h : Ends a b st said result) {e : Request × Outcome Output}
    (he : e ∈ said) : ∃ st', e.1 = asks a b st' := by
  induction said generalizing st with
  | nil => cases he
  | cons e' said ih =>
    obtain ⟨hask, h⟩ := ends_cons.mp h
    rcases List.mem_cons.mp he with rfl | he
    · exact ⟨st, hask⟩
    · rcases h with ⟨-, rfl⟩ | ⟨st', -, h⟩
      · cases he
      · exact ih h he

/-- All that is said of a batch, and what comes of it. -/
def Concluded (a : Actuator) (b : Batch) (said : Talk) (result : Outcome JobId) : Prop :=
  match a.render b with
  | .error e => said = [] ∧ result = .error e
  | .ok script => Ends a b (.storing script) said result

theorem concluded_iff {said : Talk} {result : Outcome JobId} : Concluded a b said result ↔
    (∃ e, a.render b = .error e ∧ said = [] ∧ result = .error e) ∨
      ∃ script, a.render b = .ok script ∧ Ends a b (.storing script) said result := by
  unfold Concluded
  cases a.render b <;> simp

theorem Concluded.alike {said said' : Talk} {result result' : Outcome JobId} (h : Concluded a b said result)
    (h' : Concluded a b said' result') (halike : Talk.Alike said said') : said = said' ∧ result = result' := by
  unfold Concluded at h h'
  cases hr : a.render b with
  | error e =>
    rw [hr] at h h'
    obtain ⟨rfl, rfl⟩ := h
    obtain ⟨rfl, rfl⟩ := h'
    exact ⟨rfl, rfl⟩
  | ok script =>
    rw [hr] at h h'
    exact h.alike h' halike

theorem Concluded.asked {said : Talk} {result : Outcome JobId} (h : Concluded a b said result)
    {e : Request × Outcome Output} (he : e ∈ said) : ∃ st, e.1 = asks a b st := by
  rcases concluded_iff.mp h with ⟨-, -, rfl, -⟩ | ⟨script, -, h⟩
  · cases he
  · exact h.asked he

/-- How many answers a submission can wait for at some stage. -/
def answersLeft : Stage → Nat
  | .storing _ => 3
  | .submitting => 2
  | .noting _ => 1

theorem answersLeft_pos (st : Stage) : 0 < answersLeft st := by cases st <;> exact Nat.succ_pos _

theorem answersLeft_judge {reply : Outcome Output} {st' : Stage} (h : (a.judge b st reply).2 = .inl st') :
    answersLeft st' < answersLeft st := by
  cases st with
  | storing script =>
    cases reply <;> cases h
    exact Nat.lt_succ_self 2
  | submitting =>
    cases reply with
    | error e => cases h
    | ok o =>
      simp only [judge, submitted] at h
      split at h
      · split at h
        · cases h
          exact Nat.lt_succ_self 1
        · cases h
      · cases h
  | noting job => cases reply <;> cases h

/-- **A submission ends** while there are answers for it, and the flush goes on to the batches that are left. -/
theorem goOn_batch (a : Actuator) (host : Respondent) (b : Batch) (rest : List (BatchId × List AgentId))
    (done : List Submission) (st : Stage) (s : Account) (talk : Talk) {fuel : Nat}
    (hfuel : answersLeft st + 3 * rest.length ≤ fuel) :
    ∃ left notices said result, 3 * rest.length ≤ left ∧ Ends a b st said result ∧
      (goOn a (a.consult host) fuel (s, .waiting (.flush ⟨b, st, rest, done⟩))).run talk =
        (goOn a (a.consult host) left (a.next rest (done ++ [⟨b.id, b.agents, result⟩])
          (a.settle (s.noteAll notices) b result))).run (talk ++ said) := by
  induction fuel generalizing st s talk with
  | zero =>
    have := answersLeft_pos st
    omega
  | succ fuel ih =>
    rw [goOn_waiting]
    generalize a.heard (host talk (Task.request a.scheduler (.flush ⟨b, st, rest, done⟩))) = reply
    have hask : Task.request a.scheduler (.flush ⟨b, st, rest, done⟩) = asks a b st := rfl
    rw [hask]
    rcases hj : a.judge b st reply with ⟨notices, st' | result⟩
    · have hless := answersLeft_judge (congrArg Prod.snd hj)
      obtain ⟨left, notices', said, result, hleft, hends, hrun⟩ :=
        ih st' (s.noteAll notices) (talk ++ [(asks a b st, reply)]) (by omega)
      refine ⟨left, notices ++ notices', (asks a b st, reply) :: said, result, hleft, ?_, ?_⟩
      · exact ends_cons.mpr ⟨rfl, .inr ⟨st', congrArg Prod.snd hj, hends⟩⟩
      · simp only [resume, advance, hj]
        rw [hrun]
        simp only [Account.noteAll, List.append_assoc, List.singleton_append]
    · refine ⟨fuel, notices, [(asks a b st, reply)], result, ?_, ?_, ?_⟩
      · have := answersLeft_pos st
        omega
      · exact ends_cons.mpr ⟨rfl, .inl ⟨congrArg Prod.snd hj, rfl⟩⟩
      · simp only [resume, advance, hj]

/-! ### several batches -/

/-- **Batches are submitted one after the other**, whatever becomes of each of them. -/
inductive Submits (a : Actuator) :
    Account → List (BatchId × List AgentId) → Talk → List Submission → Account → Prop
  | nil (s : Account) : Submits a s [] [] [] s
  | cons {s s' : Account} {id : BatchId} {agents : List AgentId} {rest : List (BatchId × List AgentId)}
      {said talk : Talk} {result : Outcome JobId} {subs : List Submission} (notices : List Notice)
      (now : Concluded a (a.batch id agents) said result)
      (later : Submits a (a.settle (s.noteAll notices) (a.batch id agents) result) rest talk subs s') :
      Submits a s ((id, agents) :: rest) (said ++ talk) (⟨id, agents, result⟩ :: subs) s'

theorem answers_next_le (a : Actuator) (batches : List (BatchId × List AgentId)) (done : List Submission)
    (s : Account) : (a.next batches done s).2.answers ≤ 3 * batches.length := by
  induction batches generalizing done s with
  | nil => exact Nat.le_refl 0
  | cons b batches ih =>
    obtain ⟨id, agents⟩ := b
    rw [next]
    cases a.render (a.batch id agents) with
    | error e =>
      have := ih (done ++ [⟨id, agents, .error e⟩]) (a.fail s (a.batch id agents) e)
      simp only [List.length_cons]
      omega
    | ok script => exact Nat.le_refl _

theorem goOn_next (a : Actuator) (host : Respondent) (batches : List (BatchId × List AgentId))
    (done : List Submission) (s : Account) (talk : Talk) {fuel : Nat}
    (hfuel : (a.next batches done s).2.answers ≤ fuel) :
    ∃ s' subs said, (goOn a (a.consult host) fuel (a.next batches done s)).run talk =
        ((s', .flushed (done ++ subs)), talk ++ said) ∧ Submits a s batches said subs s' := by
  induction batches generalizing fuel s done talk with
  | nil =>
    refine ⟨s, [], [], ?_, .nil s⟩
    rw [List.append_nil, List.append_nil]
    exact goOn_flushed fuel s done talk
  | cons b batches ih =>
    obtain ⟨id, agents⟩ := b
    rw [next] at hfuel ⊢
    cases hr : a.render (a.batch id agents) with
    | error e =>
      -- there is no script, and the next batch comes at once
      rw [hr] at hfuel
      obtain ⟨s', subs, said, hrun, hsubmits⟩ := ih _ _ talk hfuel
      refine ⟨s', ⟨id, agents, .error e⟩ :: subs, said, ?_, ?_⟩
      · simpa using hrun
      · have hquiet : s.noteAll [] = s := by simp [Account.noteAll]
        refine List.nil_append said ▸ .cons [] (concluded_iff.mpr (.inl ⟨e, hr, rfl, rfl⟩)) ?_
        rw [hquiet]
        exact hsubmits
    | ok script =>
      rw [hr] at hfuel
      have hanswers : answersLeft (.storing script) + 3 * batches.length ≤ fuel := by
        simp only [Progress.answers] at hfuel
        simp only [answersLeft]
        omega
      obtain ⟨left, notices, said, result, hleft, hends, hrun⟩ :=
        goOn_batch a host (a.batch id agents) batches done (.storing script) s talk hanswers
      obtain ⟨s', subs, said', hrun', hsubmits⟩ :=
        ih _ _ (talk ++ said) ((answers_next_le a batches _ _).trans hleft)
      refine ⟨s', ⟨id, agents, result⟩ :: subs, said ++ said', ?_, ?_⟩
      · dsimp only
        rw [hrun, hrun', List.append_assoc, List.append_assoc]
        rfl
      · exact .cons notices (concluded_iff.mpr (.inr ⟨script, hr, hends⟩)) hsubmits

/-- **A flush goes through the batches that it takes**, and comes to its end whatever it hears. -/
theorem undisturbed_flush (a : Actuator) (host : Respondent) (s : Account) :
    ∃ s' subs talk, a.undisturbed host (a.flush s) = ((s', .flushed subs), talk) ∧
      Submits a { s with ledger := (s.ledger.takeBatches a.batchLimit).1 } (s.ledger.takeBatches a.batchLimit).2 talk
        subs s' := by
  obtain ⟨s', subs, talk, hrun, hsubmits⟩ := goOn_next a host (s.ledger.takeBatches a.batchLimit).2 []
    { s with ledger := (s.ledger.takeBatches a.batchLimit).1 } [] (Nat.le_refl _)
  exact ⟨s', subs, talk, hrun, hsubmits⟩

/-! ### what is said of each batch -/

theorem concerns_asks (a : Actuator) (b : Batch) (st : Stage) : (asks a b st).concerns b = true := by
  cases st <;> simp [asks, Task.request, Request.concerns, Batch.documents]

/-- A request of one batch has nothing to do with the files of another. -/
theorem concerns_asks_ne {id id' : BatchId} (hne : id ≠ id') (as as' : List AgentId) (st : Stage) :
    (asks a (a.batch id as) st).concerns (a.batch id' as') = false := by
  have hfile : ∀ p ∈ (a.batch id as).documents, p ∉ (a.batch id' as').documents :=
    fun p hp hp' => hne (documents_inj hp hp')
  cases st with
  | storing script => simpa [asks, Task.request, Request.concerns] using hfile _ (by simp [Batch.documents])
  | submitting => simpa [asks, Task.request, Request.concerns] using hfile _ (by simp [Batch.documents])
  | noting job => simpa [asks, Task.request, Request.concerns] using hfile _ (by simp [Batch.documents])

theorem about_self {said : Talk} (h : ∀ e ∈ said, ∃ st, e.1 = asks a b st) : said.about b = said := by
  refine List.filter_eq_self.mpr fun e he => ?_
  obtain ⟨st, hst⟩ := h e he
  rw [hst]
  exact concerns_asks a b st

theorem about_others {said : Talk} {id : BatchId} {agents : List AgentId}
    (h : ∀ e ∈ said, ∃ id' agents' st, id' ≠ id ∧ e.1 = asks a (a.batch id' agents') st) :
    said.about (a.batch id agents) = [] := by
  refine List.filter_eq_nil_iff.mpr fun e he => ?_
  obtain ⟨id', agents', st, hne, hst⟩ := h e he
  rw [hst, concerns_asks_ne hne]
  exact Bool.false_ne_true

namespace Submits

variable {s s' : Account} {batches : List (BatchId × List AgentId)} {talk : Talk} {subs : List Submission}

theorem batches_eq (h : Submits a s batches talk subs s') : subs.map (fun sub => (sub.batch, sub.agents)) = batches := by
  induction h with
  | nil => rfl
  | cons _ _ _ ih => rw [List.map_cons, ih]

theorem agents_eq (h : Submits a s batches talk subs s') : subs.map (·.agents) = batches.map (·.2) := by
  rw [← h.batches_eq, List.map_map]
  rfl

theorem asked (h : Submits a s batches talk subs s') {e : Request × Outcome Output} (he : e ∈ talk) :
    ∃ b ∈ batches, ∃ st, e.1 = asks a (a.batch b.1 b.2) st := by
  induction h with
  | nil => cases he
  | cons _ now _ ih =>
    rcases List.mem_append.mp he with he | he
    · exact ⟨_, List.mem_cons_self, now.asked he⟩
    · obtain ⟨b, hb, hst⟩ := ih he
      exact ⟨b, List.mem_cons_of_mem _ hb, hst⟩

/-- **What is said of each batch** makes up what comes of it, if no two batches have one number. -/
theorem about (h : Submits a s batches talk subs s') (hids : (batches.map (·.1)).Nodup) :
    ∀ sub ∈ subs, Concluded a (a.batchOf sub) (talk.about (a.batchOf sub)) sub.result := by
  induction h with
  | nil => exact fun sub hsub => nomatch hsub
  | @cons s s' id agents rest said talk result subs notices now later ih =>
    obtain ⟨hid, hids⟩ := List.nodup_cons.mp hids
    refine List.forall_mem_cons.mpr ⟨?_, fun sub hsub => ?_⟩
    · have hrest : Talk.about talk (a.batch id agents) = [] := by
        refine about_others fun e he => ?_
        obtain ⟨b, hb, st, hst⟩ := later.asked he
        exact ⟨b.1, b.2, st, ne_of_mem_of_not_mem (List.mem_map_of_mem hb) hid, hst⟩
      have htalk : Talk.about (said ++ talk) (a.batch id agents) = said := by
        rw [Talk.about_append, about_self fun e he => now.asked he, hrest, List.append_nil]
      exact htalk.symm ▸ now
    · have hmem : sub.batch ∈ rest.map (·.1) := by
        rw [← later.batches_eq, List.map_map]
        exact List.mem_map_of_mem hsub
      have hfirst : Talk.about said (a.batchOf sub) = [] := by
        refine about_others fun e he => ?_
        obtain ⟨st, hst⟩ := now.asked he
        exact ⟨id, agents, st, (ne_of_mem_of_not_mem hmem hid).symm, hst⟩
      rw [Talk.about_append, hfirst, List.nil_append]
      exact ih hids sub hsub

/-- **Nothing else matters for a batch**: where two flushes of the same batches hear the same of one of them, the same
is said of it, and the same comes of it. -/
theorem alike {s₁ s₁' : Account} {talk₁ : Talk} {subs₁ : List Submission} (h : Submits a s batches talk subs s')
    (h₁ : Submits a s₁ batches talk₁ subs₁ s₁') (hids : (batches.map (·.1)).Nodup) {k : Nat} {sub sub₁ : Submission}
    (hsub : subs[k]? = some sub) (hsub₁ : subs₁[k]? = some sub₁)
    (halike : (talk.about (a.batchOf sub)).Alike (talk₁.about (a.batchOf sub))) :
    sub = sub₁ ∧ talk.about (a.batchOf sub) = talk₁.about (a.batchOf sub) := by
  have hbatch : (sub.batch, sub.agents) = (sub₁.batch, sub₁.agents) := by
    have hk := congrArg (·[k]?) (h.batches_eq.trans h₁.batches_eq.symm)
    simpa [hsub, hsub₁] using hk
  obtain ⟨id, agents, result⟩ := sub
  obtain ⟨id₁, agents₁, result₁⟩ := sub₁
  obtain ⟨rfl, rfl⟩ := Prod.mk.inj hbatch
  have hconcluded := h.about hids _ (List.mem_of_getElem? hsub)
  have hconcluded₁ := h₁.about hids _ (List.mem_of_getElem? hsub₁)
  obtain ⟨htalk, rfl⟩ := hconcluded.alike hconcluded₁ halike
  exact ⟨rfl, htalk⟩

end Submits

end Overlap

end ClusterAgents
