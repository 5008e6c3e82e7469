import ClusterAgents.Actuator.Basic
import ClusterAgents.Proofs.Digits
import ClusterAgents.Proofs.Paths

/-!
# The directories of batches

A batch has a directory of its own, and four files in it.  Their places end in the number of the batch and the
name of the file, and the one in front of these is the session; so whatever the work directory and the name of
the cluster are, the last three segments tell all files apart.

* `Actuator.number_injective`, `Actuator.isSegment_number`, `Actuator.isSegment_sessionName` — the two names
  that an actuator makes up are segments;
* `Actuator.place_file` — where a file of a batch is;
* `Actuator.place_file_inj`, `Actuator.place_file_ne_of_session` — files of different batches, and of actuators
  that differ in their sessions, are in different places.
-/

namespace ClusterAgents

open Text ClusterAgents.Path

namespace Batch

/-- The names of the files of a batch. -/
def fileNames : List String := ["submit.sh", "jobid", "stdout", "stderr"]

/-- The files of a batch. -/
def files (b : Batch) : List String := [b.scriptPath, b.jobIdPath, b.stdoutPath, b.stderrPath]

theorem isSegment_of_mem_fileNames {s : String} (h : s ∈ fileNames) : IsSegment s := by
  have hall : ∀ s ∈ fileNames, IsSegment s := by decide
  exact hall s h

theorem mem_files {b : Batch} {p : String} : p ∈ b.files ↔ ∃ s ∈ fileNames, p = join b.workingDir s := by
  rw [show b.files = fileNames.map (join b.workingDir) from rfl, List.mem_map]
  exact exists_congr fun s => and_congr_right fun _ => eq_comm

end Batch

namespace Actuator

/-! ### names that are made up -/

theorem number_injective {id id' : BatchId} (h : number id = number id') : id = id' := by
  rw [← ofDigitChars_pad 3 id, ← ofDigitChars_pad 3 id']
  exact congrArg (fun s : String => Nat.ofDigitChars 10 s.toList 0) h

theorem ne_of_isDigit {c d : Char} (h : c.isDigit = true) (hd : d.isDigit = false) : c ≠ d := by
  rintro rfl
  rw [h] at hd
  cases hd

theorem isSegment_number (id : BatchId) : IsSegment (number id) := by
  obtain ⟨c, hc⟩ := List.exists_mem_of_ne_nil _ (pad_ne_nil 3 id)
  refine isSegment_of_mem (fun h => ?_) hc (ne_of_isDigit (isDigit_of_mem_pad hc) (by decide))
  exact ne_of_isDigit (isDigit_of_mem_pad h) (by decide) rfl

theorem slash_not_mem_pad (width n : Nat) : '/' ∉ (pad width n).toList := fun h =>
  ne_of_isDigit (isDigit_of_mem_pad h) (by decide) rfl

theorem slash_not_mem_yearText (year : Int) : '/' ∉ (Time.yearText year).toList := by
  unfold Time.yearText
  split
  · exact slash_not_mem_pad _ _
  · rw [String.toList_append, List.mem_append, not_or]
    refine ⟨?_, slash_not_mem_pad _ _⟩
    split <;> decide

/-- **The name of a session is one segment**, whenever it began. -/
theorem isSegment_sessionName (start : Time.Stamp) (n : Nat) : IsSegment (sessionName start n) := by
  have hhex : '/' ∉ padHex 8 (n % bitRange 32) := fun h => absurd (mem_padHex h) (by decide)
  refine isSegment_of_mem (c := '-') ?_ ?_ (by decide)
  · simp [sessionName, Time.Stamp.dateText, Time.Stamp.clockText, slash_not_mem_pad, slash_not_mem_yearText, hhex]
  · simp [sessionName]

/-! ### where the files are -/

variable {a : Actuator} {id id' : BatchId} {s s' : String}

def sessionDirectory (a : Actuator) : String := join (join a.cluster.workDir a.cluster.name) a.session

theorem place_directory (a : Actuator) (id : BatchId) :
    place (a.directory id) = place a.sessionDirectory ++ [(number id).toList] :=
  place_join_segment _ (isSegment_number id)

theorem place_file (a : Actuator) (id : BatchId) (hs : IsSegment s) :
    place (join (a.directory id) s) = place a.sessionDirectory ++ [(number id).toList, s.toList] := by
  rw [place_join_segment _ hs, place_directory, List.append_assoc]
  rfl

theorem place_sessionDirectory (h : IsSegment a.session) :
    place a.sessionDirectory = place (join a.cluster.workDir a.cluster.name) ++ [a.session.toList] :=
  place_join_segment _ h

theorem workingDir_batch (a : Actuator) (id : BatchId) (as : List AgentId) :
    (a.batch id as).workingDir = a.directory id := by
  rw [batch]

theorem mem_files_batch {as : List AgentId} {p : String} :
    p ∈ (a.batch id as).files ↔ ∃ s ∈ Batch.fileNames, p = join (a.directory id) s := by
  rw [Batch.mem_files, workingDir_batch]

/-- **Files of different batches are in different places**, and so are files of different names. -/
theorem place_file_inj (hs : IsSegment s) (hs' : IsSegment s')
    (h : place (join (a.directory id) s) = place (join (a.directory id') s')) : id = id' ∧ s = s' := by
  rw [place_file a id hs, place_file a id' hs'] at h
  have hend := List.append_cancel_left h
  simp only [List.cons.injEq, String.toList_inj, and_true] at hend
  exact ⟨number_injective hend.1, hend.2⟩

theorem place_directory_inj (h : place (a.directory id) = place (a.directory id')) : id = id' := by
  rw [place_directory, place_directory] at h
  have hend := List.append_cancel_left h
  simp only [List.cons.injEq, String.toList_inj, and_true] at hend
  exact number_injective hend

theorem jobName_injective (h : a.jobName id = a.jobName id') : id = id' :=
  number_injective ((String.append_right_inj _).mp h)

/-- **Files of different sessions are in different places**, if the sessions are those of one cluster. -/
theorem place_file_ne_of_session {a' : Actuator} (hdir : a.cluster.workDir = a'.cluster.workDir)
    (hname : a.cluster.name = a'.cluster.name) (ha : IsSegment a.session) (ha' : IsSegment a'.session)
    (hne : a.session ≠ a'.session) (hs : IsSegment s) (hs' : IsSegment s') :
    place (join (a.directory id) s) ≠ place (join (a'.directory id') s') := by
  intro h
  rw [place_file a id hs, place_file a' id' hs', place_sessionDirectory ha, place_sessionDirectory ha', hdir, hname,
    List.append_assoc, List.append_assoc] at h
  have hend := List.append_cancel_left h
  simp only [List.cons_append, List.nil_append, List.cons.injEq, String.toList_inj] at hend
  exact hne hend.1

end Actuator

end ClusterAgents
