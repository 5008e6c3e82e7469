import ClusterAgents.Config
import ClusterAgents.Proofs.Overlap.Files
import ClusterAgents.Proofs.Steps

/-!
# Where the files of a cluster are

The directories of batches are to be below the work directory of their cluster.  What stands between the two is
the name of the cluster, which a configuration may choose freely as long as there is one: a name that is absolute
takes the place of the work directory, and one with segments that lead back may lead out of it.

* `Confined` — the files of all batches are below the work directory;
* `Placed` — where the directories are, and that the files are confined exactly if the name of the cluster leads
  to the work directory or below it;
* `absolute_name_leads_away` — a configuration that is accepted although its name leads elsewhere.
-/

namespace ClusterAgents

open Text ClusterAgents.Path

namespace Overlap

open Actuator

/-- **The files of all batches are below the work directory**, whatever the session and whatever calls overlap. -/
structure Confined (c : Cluster) (broker : Broker) : Prop where
  /-- The files that are written. -/
  written : ∀ session, IsSegment session → ∀ ms, ∀ p ∈ World.written ⟨c, broker, session⟩ ms, Below c.workDir p
  /-- The files that a script has its job print to. -/
  printed : ∀ session, IsSegment session → ∀ id as,
    Below c.workDir (header ⟨c, broker, session⟩ (batch ⟨c, broker, session⟩ id as)).stdout ∧
      Below c.workDir (header ⟨c, broker, session⟩ (batch ⟨c, broker, session⟩ id as)).stderr

/-- Where the directories of the batches of a cluster are. -/
structure Placed (c : Cluster) (broker : Broker) : Prop where
  /-- They are named after the cluster, the session and the number, unless the name of the cluster is absolute. -/
  relative : isAbsolute c.name = false → ∀ session, IsSegment session → ∀ id,
    place (directory ⟨c, broker, session⟩ id) =
      place (c.workDir ++ "/" ++ c.name ++ "/" ++ session ++ "/" ++ number id)
  /-- An absolute name leaves nothing of the work directory. -/
  absolute : isAbsolute c.name = true → ∀ session, IsSegment session → ∀ id,
    place (directory ⟨c, broker, session⟩ id) = place (c.name ++ "/" ++ session ++ "/" ++ number id)
  /-- The number has at least three digits. -/
  numbered : ∀ id, 3 ≤ (number id).length ∧ (∀ d ∈ (number id).toList, d.isDigit = true) ∧
    Nat.ofDigitChars 10 (number id).toList 0 = id
  confined : Confined c broker ↔ place c.workDir <+: place (join c.workDir c.name)
  /-- It is enough that the name is relative and never leads back. -/
  forward : isAbsolute c.name = false → back ∉ segments c.name.toList → Confined c broker

section

variable {c : Cluster} {broker : Broker} {session s : String} {id : BatchId}

/-- What several lists begin with that differ behind a common part is in the common part. -/
theorem prefix_of_append_eq {α : Type} {ds bs rest rest' xs xs' : List α} {x x' : α}
    (h : ds ++ rest = bs ++ x :: xs) (h' : ds ++ rest' = bs ++ x' :: xs') (hne : x ≠ x') : ds <+: bs := by
  rcases List.append_eq_append_iff.mp h with ⟨more, rfl, -⟩ | ⟨more, rfl, hmore⟩
  · exact List.prefix_append _ _
  · cases more with
    | nil => rw [List.append_nil]
    | cons y ys =>
      rw [List.append_assoc, List.append_cancel_left_eq] at h'
      exact absurd ((List.cons.inj hmore).1.trans (List.cons.inj h').1) hne

theorem place_batch_file (hsession : IsSegment session) (hs : IsSegment s) :
    place (join (directory ⟨c, broker, session⟩ id) s) =
      place (join c.workDir c.name) ++ [session.toList, (number id).toList, s.toList] := by
  rw [place_file _ _ hs, place_sessionDirectory hsession, List.append_assoc]
  rfl

/-- The directory of a batch, in terms of where the name of the cluster leads. -/
theorem place_directory_of_place {p : String} (hp : p ≠ "") (hplace : place (join c.workDir c.name) = place p)
    (hsession : IsSegment session) :
    place (directory ⟨c, broker, session⟩ id) = place (p ++ "/" ++ session ++ "/" ++ number id) := by
  have hne : p ++ "/" ++ session ≠ "" := by simp
  rw [place_directory, place_sessionDirectory hsession, hplace, place_slash hne, place_slash hp,
    trail_segment _ hsession, trail_segment _ (isSegment_number id)]

/-- A name that stays in the work directory keeps all files there. -/
theorem confined_of_prefix (h : place c.workDir <+: place (join c.workDir c.name)) (broker : Broker) :
    Confined c broker := by
  obtain ⟨rest, hrest⟩ := h
  have hfile : ∀ session, IsSegment session → ∀ id as,
      ∀ p ∈ (batch ⟨c, broker, session⟩ id as).files, Below c.workDir p := by
    intro session hsession id as p hp
    obtain ⟨s, hs, rfl⟩ := mem_files_batch.mp hp
    refine ⟨rest ++ [session.toList, (number id).toList, s.toList], by simp, ?_⟩
    rw [place_batch_file hsession (Batch.isSegment_of_mem_fileNames hs), ← hrest, List.append_assoc]
  constructor
  · intro session hsession ms p hp
    obtain ⟨b, -, hb⟩ := mem_written hp
    exact hfile session hsession b.1 b.2 p (Batch.documents_subset_files _ hb)
  · intro session hsession id as
    have hall := hfile session hsession id as
    exact ⟨hall _ (by simp [header, Batch.files]), hall _ (by simp [header, Batch.files])⟩

/-- Files that are below the work directory in two different sessions are there because of the name. -/
theorem prefix_of_confined (h : Confined c broker) : place c.workDir <+: place (join c.workDir c.name) := by
  have hends : ∀ session, IsSegment session → ∃ rest, place c.workDir ++ rest =
      place (join c.workDir c.name) ++ [session.toList, (number 0).toList, "stdout".toList] := by
    intro session hsession
    obtain ⟨rest, -, hrest⟩ := (h.printed session hsession 0 []).1
    have hout : (header ⟨c, broker, session⟩ (batch ⟨c, broker, session⟩ 0 [])).stdout =
        join (directory ⟨c, broker, session⟩ 0) "stdout" := by
      unfold header Batch.stdoutPath
      rw [workingDir_batch]
    have hfile : place (join (directory ⟨c, broker, session⟩ 0) "stdout") = _ :=
      place_batch_file hsession (by decide)
    exact ⟨rest, by rw [← hfile, ← hrest, hout]⟩
  obtain ⟨rest, hrest⟩ := hends "a" (by decide)
  obtain ⟨rest', hrest'⟩ := hends "b" (by decide)
  exact prefix_of_append_eq hrest hrest' (by decide)

end

/-- **Where the files of a cluster are**, if its work directory is absolute. -/
theorem cluster_is_placed (c : Cluster) (broker : Broker) (hdir : isAbsolute c.workDir = true) :
    Placed c broker where
  relative hname session hsession id := by
    refine place_directory_of_place (by simp) ?_ hsession
    rw [place_join c.workDir hname, place_slash (ne_empty_of_isAbsolute hdir)]
  absolute hname session hsession id := by
    refine place_directory_of_place (ne_empty_of_isAbsolute hname) ?_ hsession
    rw [join_of_isAbsolute c.workDir hname]
  numbered id := ⟨le_length_pad 3 id, fun _ => isDigit_of_mem_pad, ofDigitChars_pad 3 id⟩
  confined := ⟨prefix_of_confined, fun h => confined_of_prefix h broker⟩
  forward hname hback := by
    refine confined_of_prefix ?_ broker
    rw [place_join c.workDir hname]
    exact prefix_trail hback

/-- The usual name of a cluster keeps its files in the work directory. -/
theorem lonely_is_confined :
    isAbsolute lonely.cluster.workDir = true ∧ Confined lonely.cluster lonely.broker := by
  have hdir : isAbsolute lonely.cluster.workDir = true := by decide
  exact ⟨hdir, (cluster_is_placed lonely.cluster lonely.broker hdir).confined.mpr (by decide)⟩

/-- A configuration whose cluster is named by an absolute path. -/
def strayContent : String :=
  "[broker]\nuri = \"amqp://b\"\nrouting_key = \"k\"\n\n[[resource]]\nname = \"/etc\"\ndialect = \"slurm\"\n" ++
    "work_dir = \"/w\"\nagent_command = [\"agent\"]\n"

/-- **An absolute name leads away from the work directory**: the configuration is accepted, and what a submission
writes and has its job print to is elsewhere. -/
theorem absolute_name_leads_away :
    ∃ config c, Config.parse none strayContent = .ok config ∧ c ∈ config.clusters ∧ c.workDir = "/w" ∧
      World.written ⟨c, config.broker, "s"⟩ (submission 0 ⟨1⟩) = ["/etc/s/001/submit.sh", "/etc/s/001/jobid"] ∧
      (header ⟨c, config.broker, "s"⟩ (batch ⟨c, config.broker, "s"⟩ 1 [⟨1⟩])).stdout = "/etc/s/001/stdout" ∧
      (∀ p ∈ World.written ⟨c, config.broker, "s"⟩ (submission 0 ⟨1⟩), ¬ Below c.workDir p) ∧
      ¬ Confined c config.broker := by
  have hrun : ((Config.parse none strayContent).toOption.bind fun config => config.clusters.head?.map fun c =>
      (c.workDir, World.written ⟨c, config.broker, "s"⟩ (submission 0 ⟨1⟩),
        (header ⟨c, config.broker, "s"⟩ (batch ⟨c, config.broker, "s"⟩ 1 [⟨1⟩])).stdout)) =
      some ("/w", ["/etc/s/001/submit.sh", "/etc/s/001/jobid"], "/etc/s/001/stdout") := by
    decide +kernel
  obtain ⟨config, hconfig, hrun⟩ := Option.bind_eq_some_iff.mp hrun
  obtain ⟨c, hc, hrun⟩ := Option.map_eq_some_iff.mp hrun
  obtain ⟨hdir, hwritten, hstdout⟩ : _ ∧ _ ∧ _ := by simpa only [Prod.mk.injEq] using hrun
  have haway : ∀ p ∈ World.written ⟨c, config.broker, "s"⟩ (submission 0 ⟨1⟩), ¬ Below c.workDir p := by
    rw [hwritten, hdir]
    have hplaces : ∀ p ∈ ["/etc/s/001/submit.sh", "/etc/s/001/jobid"], ¬ place "/w" <+: place p := by decide
    exact fun p hp hbelow => hplaces p hp (place_prefix_of_below hbelow)
  refine ⟨config, c, toOption_eq_some.mp hconfig, List.mem_of_head? hc, hdir, hwritten, hstdout, haway, ?_⟩
  intro hconfined
  have hmem : "/etc/s/001/submit.sh" ∈ World.written ⟨c, config.broker, "s"⟩ (submission 0 ⟨1⟩) := by
    rw [hwritten]
    exact List.mem_cons_self
  exact haway _ hmem (hconfined.written "s" (by decide) _ _ hmem)

end Overlap

end ClusterAgents
