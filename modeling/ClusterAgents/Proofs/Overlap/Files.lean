import ClusterAgents.Proofs.Directories
import ClusterAgents.Proofs.Overlap.Requests

/-!
# The files that are written

A submission writes two files, the script when it begins and the id of the job when the submit command has ended.
Whether they are written or not, and whatever calls overlap, no file is written twice: what a call may still
write is its own, and a move takes from it what it writes.

* `World.written` — the paths that a run has files written to;
* `Call.ahead` — the paths that a call may still have files written to;
* `Writing` — the paths of both kinds are different, and belong to batches that were handed out; a move keeps
  that (`Writing.move`), and so does a run;
* `batches_keep_apart` — what this means for the files of all batches, and for actuators that differ in their
  sessions.
-/

namespace ClusterAgents

open ClusterAgents.Path

/-- The file that a request writes. -/
def Request.path? : Request → Option String
  | .write path _ => some path
  | .run _ _ => none

/-- The files of a batch that its submission writes. -/
def Batch.documents (b : Batch) : List String := [b.scriptPath, b.jobIdPath]

theorem Batch.documents_subset_files (b : Batch) : b.documents ⊆ b.files := by
  simp [Batch.documents, Batch.files]

/-- What a submission may still write after what it writes now. -/
def Stage.ahead (b : Batch) : Stage → List String
  | .noting _ => []
  | _ => [b.jobIdPath]

namespace Actuator

variable {a : Actuator} {id id' : BatchId} {as as' : List AgentId} {p p' : String}

/-- **Different files of one actuator are in different places**, and those of different batches are different. -/
theorem files_inj (hp : p ∈ (a.batch id as).files) (hp' : p' ∈ (a.batch id' as').files)
    (h : place p = place p') : id = id' ∧ p = p' := by
  obtain ⟨s, hs, rfl⟩ := mem_files_batch.mp hp
  obtain ⟨s', hs', rfl⟩ := mem_files_batch.mp hp'
  obtain ⟨hid, hname⟩ :=
    place_file_inj (Batch.isSegment_of_mem_fileNames hs) (Batch.isSegment_of_mem_fileNames hs') h
  exact ⟨hid, by rw [hid, hname]⟩

theorem documents_inj (hp : p ∈ (a.batch id as).documents) (hp' : p ∈ (a.batch id' as').documents) : id = id' :=
  (files_inj (Batch.documents_subset_files _ hp) (Batch.documents_subset_files _ hp') rfl).1

theorem documents_nodup (a : Actuator) (id : BatchId) (as : List AgentId) : (a.batch id as).documents.Nodup := by
  have hscript : IsSegment "submit.sh" := by decide
  have hid : IsSegment "jobid" := by decide
  have hne : (a.batch id as).scriptPath ≠ (a.batch id as).jobIdPath := by
    rw [Batch.scriptPath, Batch.jobIdPath, workingDir_batch]
    exact fun h => absurd (place_file_inj hscript hid (congrArg place h)).2 (by decide)
  exact List.nodup_cons.mpr ⟨fun h => hne (List.mem_singleton.mp h), List.nodup_singleton _⟩

def documentsOf (a : Actuator) (bs : List (BatchId × List AgentId)) : List String :=
  bs.flatMap fun b => (a.batch b.1 b.2).documents

theorem documentsOf_append (a : Actuator) (bs bs' : List (BatchId × List AgentId)) :
    a.documentsOf (bs ++ bs') = a.documentsOf bs ++ a.documentsOf bs' := List.flatMap_append

theorem mem_documentsOf {bs : List (BatchId × List AgentId)} :
    p ∈ a.documentsOf bs ↔ ∃ b ∈ bs, p ∈ (a.batch b.1 b.2).documents := List.mem_flatMap

theorem documentsOf_nodup {bs : List (BatchId × List AgentId)} (h : (bs.map (·.1)).Nodup) :
    (a.documentsOf bs).Nodup := by
  refine List.nodup_flatMap.mpr ⟨fun b _ => a.documents_nodup b.1 b.2, ?_⟩
  refine (List.pairwise_map.mp h).imp fun hne p hp hp' => hne (documents_inj hp hp')

end Actuator

namespace Overlap

open Actuator

/-- The paths that a call may still have files written to, besides the one that it waits for. -/
def Call.ahead (a : Actuator) : Call → List String
  | .turning rest _ => a.documentsOf rest
  | .reached (.waiting (.flush f)) => f.stage.ahead f.batch ++ a.documentsOf f.rest
  | _ => []

namespace Call

/-- A call that goes on takes what it writes from what was ahead of it. -/
theorem ahead_goOn (a : Actuator) (s : Account) (c : Call) :
    ((c.asksAnew a.scheduler (Call.goOn a s c).2.1).filterMap Request.path? ++
      (Call.goOn a s c).2.1.ahead a).Sublist (c.ahead a) := by
  cases c with
  | turning rest done =>
    cases rest with
    | nil => exact List.Sublist.refl _
    | cons b rest =>
      have hdocs : (Call.turning (b :: rest) done).ahead a =
          (a.batch b.1 b.2).documents ++ a.documentsOf rest := rfl
      rw [hdocs]
      cases hr : a.render (a.batch b.1 b.2) with
      | ok script =>
        simp only [Call.goOn, hr]
        exact List.Sublist.refl _
      | error e =>
        -- a batch without a script writes nothing
        simp only [Call.goOn, hr]
        exact List.sublist_append_right _ _
  | chosen jobs =>
    by_cases hnone : (Ledger.distinct jobs).isEmpty = true
    · simp only [Call.goOn, killJobs, if_pos hnone]
      exact List.Sublist.refl _
    · simp only [Call.goOn, killJobs, if_neg hnone]
      exact List.Sublist.refl _
  | failing jobs cause => exact List.Sublist.refl _
  | reached p => cases p <;> exact List.Sublist.refl _
  | dropped => exact List.Sublist.refl _

/-- A submission that goes on to another stage takes what it writes there from what was ahead of it. -/
theorem ahead_judge {a : Actuator} {b : Batch} {st st' : Stage} {reply : Outcome Output}
    (h : (a.judge b st reply).2 = .inl st') :
    (((asks a b st').path?).toList ++ st'.ahead b).Sublist (st.ahead b) := by
  cases reply with
  | error e => cases st <;> cases h
  | ok o =>
    cases st with
    | storing script =>
      cases h
      exact List.Sublist.refl _
    | submitting =>
      simp only [judge, submitted] at h
      split at h
      · cases hj : Text.jobId? o.stdout with
        | none => simp [hj] at h
        | some id =>
          simp only [hj, Sum.inl.injEq] at h
          rw [← h]
          exact List.Sublist.refl _
      · cases h
    | noting job => cases h

theorem ahead_answer (a : Actuator) (reply : Outcome Output) (s : Account) (c : Call) :
    (((Call.answer a reply s c).2.1.request? a.scheduler).toList.filterMap Request.path? ++
      (Call.answer a reply s c).2.1.ahead a).Sublist (c.ahead a) := by
  cases c with
  | reached p =>
    cases p with
    | waiting t =>
      cases t with
      | flush f =>
        rcases hj : a.judge f.batch f.stage reply with ⟨notices, stage | result⟩
        · have hstage := (ahead_judge (congrArg Prod.snd hj)).append_right (a.documentsOf f.rest)
          have hask : ((Call.answer a reply s (.reached (.waiting (.flush f)))).2.1.request? a.scheduler) =
              some (asks a f.batch stage) := by
            simp only [Call.answer, hj]
            rfl
          have hahead : (Call.answer a reply s (.reached (.waiting (.flush f)))).2.1.ahead a =
              stage.ahead f.batch ++ a.documentsOf f.rest := by
            simp only [Call.answer, hj]
            rfl
          rw [hask, hahead, ← List.append_assoc]
          exact hstage
        · -- the batch has its outcome, and what else it might have written is left out
          simp only [Call.answer, hj]
          exact List.sublist_append_right _ _
      | kill jobs =>
        cases hk : killFailure? a.scheduler.cancel reply with
        | none =>
          simp only [Call.answer, hk]
          exact List.Sublist.refl _
        | some cause =>
          simp only [Call.answer, hk]
          exact List.Sublist.refl _
    | _ => exact List.Sublist.refl _
  | _ => exact List.Sublist.refl _

theorem ahead_drop (a : Actuator) (s : Account) (c : Call) :
    ((Call.drop s c).2.1.ahead a).Sublist (c.ahead a) := by
  unfold Call.drop
  split
  · exact List.nil_sublist _
  · exact List.nil_sublist _
  · exact List.Sublist.refl _

end Call

/-! ### runs -/

namespace World

def writes (a : Actuator) (w : World) (m : Move) : List String := (w.sends a m).filterMap Request.path?

/-- **The paths that a run has files written to**, whether they are written or not. -/
def written (a : Actuator) (ms : List Move) : List String := along a (writes a) {} ms

/-- The paths that all calls may still have files written to. -/
def ahead (a : Actuator) (w : World) : List String := w.calls.flatMap (Call.ahead a)

end World

/-- **The invariant of writing**: what was written and what may still be written are different paths, of batches
that were handed out. -/
structure Writing (a : Actuator) (w : World) (past : List String) : Prop where
  apart : (past ++ w.ahead a).Nodup
  owned : past ++ w.ahead a ⊆ a.documentsOf w.handedOut

namespace Writing

variable {a : Actuator} {w w' : World} {past past' : List String}

/-- Some of what may still be written is written, and some is left out. -/
theorem thin (h : Writing a w past) (hw : w'.handedOut = w.handedOut)
    (hs : (past' ++ w'.ahead a).Subperm (past ++ w.ahead a)) : Writing a w' past' where
  apart := by
    obtain ⟨l, hl, hsub⟩ := hs
    exact hl.nodup_iff.mp (h.apart.sublist hsub)
  owned := by
    rw [hw]
    exact List.Subset.trans hs.subset h.owned

theorem turn (h : Writing a w past) {i : Nat} {step : Account → Call → Account × Call × List Event}
    (hstep : Steps step) {sent : List String} (hnone : w.calls[i]? = none → sent = [])
    (hsome : ∀ c, w.calls[i]? = some c → (sent ++ (step w.account c).2.1.ahead a).Sublist (c.ahead a)) :
    Writing a (w.turn i step) (past ++ sent) := by
  refine h.thin (w.turn_frame hstep i).2 ?_
  cases hc : w.calls[i]? with
  | none =>
    rw [World.turn_of_none hc, hnone hc, List.append_nil]
  | some c =>
    obtain ⟨xs, ys, hcalls, hset⟩ := World.calls_split hc
    -- what is written moves to the front, past what other calls have ahead of them
    have hperm : (past ++ sent ++ (w.turn i step).ahead a).Perm
        (past ++ (xs.flatMap (Call.ahead a) ++
          ((sent ++ (step w.account c).2.1.ahead a) ++ ys.flatMap (Call.ahead a)))) := by
      rw [World.ahead, (World.turn_eq hc step).2, hset, List.flatMap_append, List.flatMap_cons, List.append_assoc,
        List.append_assoc]
      exact (List.perm_append_comm_assoc _ _ _).append_left _
    have hold : w.ahead a =
        xs.flatMap (Call.ahead a) ++ (c.ahead a ++ ys.flatMap (Call.ahead a)) := by
      rw [World.ahead, hcalls, List.flatMap_append, List.flatMap_cons]
    rw [hold]
    exact hperm.subperm.trans
      ((((hsome c hc).append_right _).append_left _).append_left _).subperm

theorem begin (h : Writing a w past) {c : Call} (hc : c.ahead a = []) : Writing a (w.begin c) past := by
  have hsame : (w.begin c).ahead a = w.ahead a := by
    rw [World.ahead, World.begin, List.flatMap_append, List.flatMap_singleton, hc, List.append_nil, World.ahead]
  exact h.thin rfl (by rw [hsame])

/-- A flush has the files of new batches ahead of it. -/
theorem flush (h : Writing a w past) (hw : w.Sound) : Writing a (w.move a .flush) past := by
  have hout := w.handedOut_move a .flush
  have hahead : (w.move a .flush).ahead a = w.ahead a ++ a.documentsOf (w.hands a .flush) := by
    rw [World.ahead, World.move, World.begin, List.flatMap_append, List.flatMap_singleton]
    rfl
  have hnumbers : ((w.handedOut ++ w.hands a .flush).map (·.1)).Nodup := by
    rw [← hout, (hw.move a .flush).numbered]
    exact List.nodup_range'
  have hdocs : (a.documentsOf w.handedOut ++ a.documentsOf (w.hands a .flush)).Nodup := by
    rw [← documentsOf_append]
    exact documentsOf_nodup hnumbers
  obtain ⟨-, hnew, hdisjoint⟩ := List.nodup_append'.mp hdocs
  constructor
  · rw [hahead, ← List.append_assoc]
    exact List.nodup_append'.mpr ⟨h.apart, hnew, fun p hp => hdisjoint (h.owned hp)⟩
  · rw [hahead, hout, documentsOf_append, ← List.append_assoc]
    exact List.append_subset.mpr
      ⟨List.Subset.trans h.owned (List.subset_append_left _ _), List.subset_append_right _ _⟩

/-- **A move writes what was ahead**, and nothing else. -/
theorem move (h : Writing a w past) (hw : w.Sound) (m : Move) :
    Writing a (w.move a m) (past ++ w.writes a m) := by
  -- what sends nothing and leaves the calls alone, but for one that begins
  have quiet {w' : World} (h' : Writing a w' past) : Writing a w' (past ++ []) := by
    rwa [List.append_nil]
  cases m with
  | enqueue as => exact quiet (h.thin rfl (List.Subperm.refl _))
  | flush => exact quiet (h.flush hw)
  | killJobs jobs => exact quiet (h.begin rfl)
  | killAgents as =>
    have hgiven : Writing a { w with account := w.account.update (·.cancelPending as) } past :=
      h.thin rfl (List.Subperm.refl _)
    exact quiet (hgiven.begin rfl)
  | killAll => exact quiet (h.begin rfl)
  | markTerminal id =>
    rcases w.move_markTerminal a id with ⟨-, hm⟩ | ⟨job, l', -, hm⟩
    · exact quiet (by rwa [hm])
    · rw [hm]
      exact quiet (h.thin rfl (List.Subperm.refl _))
  | goOn i =>
    refine h.turn (goOn_steps a) (fun hi => ?_) fun c hc => ?_
    · rw [World.writes, World.sends_eq_nil hi rfl, List.filterMap_nil]
    · rw [World.writes, World.sends_goOn hc]
      exact c.ahead_goOn a w.account
  | answer i reply =>
    refine h.turn (answer_steps a reply) (fun hi => ?_) fun c hc => ?_
    · rw [World.writes, World.sends_eq_nil hi rfl, List.filterMap_nil]
    · rw [World.writes, World.sends_answer hc]
      exact c.ahead_answer a reply w.account
  | drop i => exact h.turn drop_steps (fun _ => rfl) fun c _ => c.ahead_drop a w.account

end Writing

theorem writing_after (a : Actuator) (ms : List Move) : Writing a (World.after a ms) (World.written a ms) := by
  have hstart : Writing a {} [] := ⟨List.nodup_nil, List.nil_subset _⟩
  exact World.Sound.empty.along_keeps (fun _ _ m hw h => h.move hw m) hstart ms

/-! ### batches and sessions -/

/-- The files of two batches have nothing to do with each other. -/
structure Apart (a : Actuator) (b b' : BatchId × List AgentId) : Prop where
  directory : place (a.directory b.1) ≠ place (a.directory b'.1)
  files : ∀ p ∈ (a.batch b.1 b.2).files, ∀ p' ∈ (a.batch b'.1 b'.2).files, place p ≠ place p'
  jobName : a.jobName b.1 ≠ a.jobName b'.1

theorem apart_of_ne (a : Actuator) {b b' : BatchId × List AgentId} (h : b.1 ≠ b'.1) : Apart a b b' where
  directory hplace := h (place_directory_inj hplace)
  files _ hp _ hp' hplace := h (files_inj hp hp' hplace).1
  jobName hname := h (jobName_injective hname)

/-- **Nobody overwrites the files of another.** -/
structure KeepsApart (a : Actuator) (ms : List Move) : Prop where
  /-- Files are written to one place at most once. -/
  once : ((World.written a ms).map place).Nodup
  /-- What is written are documents of batches that were handed out. -/
  own : ∀ p ∈ World.written a ms, ∃ b ∈ (World.after a ms).handedOut, p ∈ (a.batch b.1 b.2).documents
  /-- No two batches share a directory, a file or the name of a job. -/
  batches : (World.after a ms).handedOut.Pairwise (Apart a)
  /-- What another actuator for the cluster writes in a session of its own is elsewhere. -/
  sessions : ∀ a' : Actuator, a'.cluster.workDir = a.cluster.workDir → a'.cluster.name = a.cluster.name →
    IsSegment a.session → IsSegment a'.session → a.session ≠ a'.session →
    ∀ ms', ∀ p ∈ World.written a ms, ∀ p' ∈ World.written a' ms', place p ≠ place p'

theorem mem_written {a : Actuator} {ms : List Move} {p : String} (hp : p ∈ World.written a ms) :
    ∃ b ∈ (World.after a ms).handedOut, p ∈ (a.batch b.1 b.2).documents :=
  mem_documentsOf.mp ((writing_after a ms).owned (List.mem_append_left _ hp))

/-- **No batch overwrites the files of another**, whatever calls overlap, whatever they get to hear and wherever
they are given up. -/
theorem batches_keep_apart (a : Actuator) (ms : List Move) : KeepsApart a ms where
  once := by
    refine (List.nodup_append'.mp (writing_after a ms).apart).1.map_on fun p hp p' hp' hplace => ?_
    obtain ⟨b, -, hb⟩ := mem_written hp
    obtain ⟨b', -, hb'⟩ := mem_written hp'
    exact (files_inj (Batch.documents_subset_files _ hb) (Batch.documents_subset_files _ hb') hplace).2
  own _ hp := mem_written hp
  batches := by
    have hnumbers : ((World.after a ms).handedOut.map (·.1)).Nodup := by
      rw [(World.sound_after a ms).numbered]
      exact List.nodup_range'
    exact (List.pairwise_map.mp hnumbers).imp (apart_of_ne a)
  sessions a' hdir hname ha ha' hne ms' p hp p' hp' := by
    obtain ⟨b, -, hb⟩ := mem_written hp
    obtain ⟨b', -, hb'⟩ := mem_written hp'
    obtain ⟨s, hs, rfl⟩ := mem_files_batch.mp (Batch.documents_subset_files _ hb)
    obtain ⟨s', hs', rfl⟩ := mem_files_batch.mp (Batch.documents_subset_files _ hb')
    exact place_file_ne_of_session hdir.symm hname.symm ha ha' hne (Batch.isSegment_of_mem_fileNames hs)
      (Batch.isSegment_of_mem_fileNames hs')

example : World.written lonely (submission 0 ⟨1⟩ ++ submission 1 ⟨2⟩) =
    ["/w/c/s/001/submit.sh", "/w/c/s/001/jobid", "/w/c/s/002/submit.sh", "/w/c/s/002/jobid"] := by
  decide +kernel

end Overlap

end ClusterAgents
