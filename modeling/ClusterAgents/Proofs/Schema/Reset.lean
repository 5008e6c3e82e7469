import ClusterAgents.Proofs.Files.Changes
import ClusterAgents.Proofs.Schema.History
import ClusterAgents.Proofs.Schema.Texts
import ClusterAgents.Proofs.Utf8

/-!
# Resets

The version of data in a directory is the text of a file in it.  The data are reset by taking the directory out and
making it anew, and what was there before does not matter, not even whether its version could be read.  The path of
the directory is followed each time, in a tree that is not the same any more, and that does matter.

* `IsVersionFile`, `Known` — files that hold a version, and what is known of the version of a directory;
* `Recovered`, `Refused` — a tree after a reset, and after one that failed, by what stands where;
* `reset_recovers` — a reset along a path that leads to the directory whether or not it is there;
* `reset_leaves_table` — one along a path that leads out of a directory that is missing.
-/

namespace ClusterAgents.Schema

open FileTree Text ClusterAgents.Path

namespace VersionFile

/-- The name of the file that holds the version. -/
def fileName : String := "schema.version"

/-- **A file that holds a version**: the bytes of its text, with blanks around it or none. -/
def IsVersionFile (bytes : List Nat) (v : Version) : Prop :=
  ∃ before s after x y z, Utf8.encode (before ++ s ++ after) = bytes ∧ Version.Written s v x y z ∧
    (∀ c ∈ before.toList, isBlank c = true) ∧ ∀ c ∈ after.toList, isBlank c = true

/-- **What is known of the version of a directory.** -/
structure Known (directory : String) (place : Place) (t : FileTree) : Prop where
  version : ∀ v, installed directory t = .ok (some v) ↔
    ∃ bytes, t.node? (place ++ [fileName]) = some (.file bytes) ∧ IsVersionFile bytes v
  absent : installed directory t = .ok none ↔ t.node? (place ++ [fileName]) = none
  /-- Everything else is an error. -/
  broken : (∃ e, installed directory t = .error e) ↔ ∃ node, t.node? (place ++ [fileName]) = some node ∧
    ∀ bytes v, node = .file bytes → ¬ IsVersionFile bytes v

/-- Outside a place nothing has changed, unless directories are made above it. -/
def SameOutside (place : Place) (t t' : FileTree) : Prop :=
  ∀ q, ¬ place <+: q → t'.node? q = t.node? q ∨ q <+: place ∧ t.node? q = none ∧ t'.node? q = some .directory

/-- **A tree in which a directory was recovered**, and what it was before. -/
structure Recovered (directory : String) (place : Place) (v : Version) (t t' : FileTree) : Prop where
  /-- The directory holds the file of the version and nothing else. -/
  inside : ∀ q, t'.node? (place ++ q) = if q = [] then some .directory
    else if q = [fileName] then some (.file (Utf8.encode (v.text ++ "\n"))) else none
  outside : SameOutside place t t'
  tree : t'.IsTree
  installed : (Store.directory directory).installed t' = .ok (some v)
  check : Gate.check ⟨.directory directory, v⟩ t' = .ok ()

/-- **A tree in which a directory could not be recovered**, and what it was before. -/
structure Refused (directory : String) (place : Place) (t t' : FileTree) : Prop where
  /-- Nothing is left in the directory. -/
  inside : ∀ q, t'.node? (place ++ q) = if q = [] then t.node? place else none
  outside : SameOutside place t t'
  tree : t'.IsTree
  installed : (Store.directory directory).installed t' = .ok none

/-- **What a reset does**, by the last segment of the path. -/
structure Resets (directory : String) (place : Place) (v : Version) (t : FileTree) : Prop where
  recovers : lastSegment directory ≠ "." → ∃ t', VersionFile.recreate directory v t = (.ok (), t') ∧
    Gate.reset ⟨.directory directory, v⟩ t = (.ok (), t') ∧ Recovered directory place v t t'
  /-- No system takes out or makes a directory by a point. -/
  refuses : lastSegment directory = "." → ∃ e t', VersionFile.recreate directory v t = (.error e, t') ∧
    Gate.reset ⟨.directory directory, v⟩ t = (.error (.system e), t') ∧
    e = (if t.node? place = none then .notFound else .invalid) ∧ Refused directory place t t'

variable {directory : String} {place : Place} {t t' : FileTree} {v : Version} {bytes : List Nat}

/-! ### The version of a directory -/

theorem ends_path (ht : t.IsTree) (h : Leads t directory place) (hplace : place ≠ []) :
    Ends t (path directory) place fileName :=
  h.join ht (h.ne_empty ht hplace) (by decide) (by decide) (by decide)

theorem isBlank_of_written {s : String} {x y z : List Char} (hs : Version.Written s v x y z) :
    ∀ c ∈ s.toList, isBlank c = false := by
  intro c hc
  rw [hs.parts] at hc
  have hpoint : isBlank '.' = false := by decide
  rcases List.mem_append.mp hc with hc | hc
  · exact isBlank_of_isDigit (hs.major.1.digits c hc)
  rcases List.mem_cons.mp hc with rfl | hc
  · exact hpoint
  rcases List.mem_append.mp hc with hc | hc
  · exact isBlank_of_isDigit (hs.minor.1.digits c hc)
  rcases List.mem_cons.mp hc with rfl | hc
  · exact hpoint
  · exact isBlank_of_isDigit (hs.patch.1.digits c hc)

theorem trim_eq_of_written {content s : String} {x y z : List Char} (hs : Version.Written s v x y z) :
    trim content = s ↔ ∃ before after, content = before ++ s ++ after ∧ (∀ c ∈ before.toList, isBlank c = true) ∧
      ∀ c ∈ after.toList, isBlank c = true := by
  have hblank := isBlank_of_written hs
  have hne : s.toList ≠ [] := by
    rw [hs.parts]
    simp
  rw [← String.toList_inj, trim_eq_iff hne (fun c hc => hblank c (List.mem_of_head? hc))
    (fun c hc => hblank c (List.mem_of_getLast? hc))]
  constructor
  · rintro ⟨before, after, hcontent, hbefore, hafter⟩
    refine ⟨String.ofList before, String.ofList after, ?_, ?_, ?_⟩
    · rw [← String.toList_inj, hcontent]
      simp
    · rwa [String.toList_ofList]
    · rwa [String.toList_ofList]
  · rintro ⟨before, after, rfl, hbefore, hafter⟩
    exact ⟨before.toList, after.toList, by simp, hbefore, hafter⟩

theorem parse_eq_ok {content : String} : parse content = .ok v ↔ ∃ before s after x y z, content = before ++ s ++ after ∧
    Version.Written s v x y z ∧ (∀ c ∈ before.toList, isBlank c = true) ∧ ∀ c ∈ after.toList, isBlank c = true := by
  have hparse : parse content = .ok v ↔ Version.parse (trim content) = .ok v := by
    unfold parse
    cases Version.parse (trim content) with
    | ok w => simp [Except.mapError]
    | error e => simp [Except.mapError]
  rw [hparse, Version.parse_eq_ok]
  constructor
  · rintro ⟨x, y, z, hs⟩
    obtain ⟨before, after, hcontent, hbefore, hafter⟩ := (trim_eq_of_written hs).mp rfl
    exact ⟨before, _, after, x, y, z, hcontent, hs, hbefore, hafter⟩
  · rintro ⟨before, s, after, x, y, z, hcontent, hs, hbefore, hafter⟩
    refine ⟨x, y, z, ?_⟩
    rw [(trim_eq_of_written hs).mpr ⟨before, after, hcontent, hbefore, hafter⟩]
    exact hs

theorem installed_eq (ht : t.IsTree) (h : Leads t directory place) (hplace : place ≠ []) (hopen : t.Open place) :
    installed directory t = match t.node? (place ++ [fileName]) with
      | none => .ok none
      | some .directory => .error (.system .isDirectory)
      | some (.file bytes) => match Utf8.text? bytes with
        | none => .error (.system .notUtf8)
        | some content => some <$> parse content := by
  unfold installed readText
  rw [read_eq ht (ends_path ht h hplace) hopen]
  cases t.node? (place ++ [fileName]) with
  | none => rfl
  | some node =>
    cases node with
    | directory => rfl
    | file bytes =>
      simp only [bind, Except.bind, textOf]
      cases Utf8.text? bytes with
      | none => rfl
      | some content => rfl

theorem isVersionFile_iff :
    IsVersionFile bytes v ↔ ∃ content, Utf8.text? bytes = some content ∧ parse content = .ok v := by
  simp only [Utf8.text?_eq_some, parse_eq_ok]
  constructor
  · rintro ⟨before, s, after, x, y, z, hbytes, hs⟩
    exact ⟨_, hbytes, before, s, after, x, y, z, rfl, hs⟩
  · rintro ⟨_, hbytes, before, s, after, x, y, z, rfl, hs⟩
    exact ⟨before, s, after, x, y, z, hbytes, hs⟩

theorem installed_of_file (hinstalled : installed directory t = match Utf8.text? bytes with
      | none => .error (.system .notUtf8)
      | some content => some <$> parse content) :
    (∃ e, installed directory t = .error e ∧ ∀ v, ¬ IsVersionFile bytes v) ∨
      ∃ v, installed directory t = .ok (some v) ∧ ∀ w, IsVersionFile bytes w ↔ v = w := by
  simp only [isVersionFile_iff]
  cases htext : Utf8.text? bytes with
  | none =>
    rw [htext] at hinstalled
    exact .inl ⟨_, hinstalled, by simp⟩
  | some content =>
    rw [htext] at hinstalled
    dsimp only at hinstalled
    cases hparse : parse content with
    | error e =>
      rw [hparse] at hinstalled
      exact .inl ⟨_, hinstalled, by simp [hparse]⟩
    | ok v =>
      rw [hparse] at hinstalled
      exact .inr ⟨v, hinstalled, by simp [hparse]⟩

theorem known (ht : t.IsTree) (h : Leads t directory place) (hplace : place ≠ []) (hopen : t.Open place) :
    Known directory place t := by
  have hinstalled := installed_eq ht h hplace hopen
  cases hnode : t.node? (place ++ [fileName]) with
  | none =>
    rw [hnode] at hinstalled
    constructor <;> simp [hinstalled, hnode]
  | some node =>
    cases node with
    | directory =>
      rw [hnode] at hinstalled
      constructor <;> simp [hinstalled, hnode]
    | file bytes =>
      rw [hnode] at hinstalled
      rcases installed_of_file hinstalled with ⟨e, he, hno⟩ | ⟨v, hv, hyes⟩
      · refine ⟨by simp [he, hnode, hno], by simp [he, hnode], fun _ => ?_, fun _ => ⟨e, he⟩⟩
        refine ⟨_, hnode, fun bytes' w hbytes => ?_⟩
        cases hbytes
        exact hno w
      · refine ⟨by simp [hv, hnode, hyes], by simp [hv, hnode], ?_, ?_⟩
        · rintro ⟨e, he⟩
          rw [hv] at he
          cases he
        · rintro ⟨node, hnode', hno⟩
          obtain rfl := Option.some.inj (hnode.symm.trans hnode')
          exact absurd ((hyes v).mpr rfl) (hno bytes v rfl)

/-! ### Resets -/

/-- A path that leads to a place whether or not it is there. -/
theorem leads_of_without (ht : t.IsTree) (h : Leads (t.without place) directory place) (hplace : place ≠ [])
    (ht' : ∀ q, ¬ place <+: q → t.node? q = some .directory → t'.node? q = some .directory) :
    Leads t' directory place :=
  h.keeps ((removed_without hplace t).isTree ht) ((removed_without hplace t).keeps ht')

/-- What stands where when a directory has been made anew. -/
def Recreated (place : Place) (v : Version) (t t' : FileTree) : Prop :=
  ∀ q, t'.node? q =
    if q = place ++ [fileName] then some (.file (Utf8.encode (content v)))
    else if q <+: place then some .directory
    else if place <+: q then none
    else t.node? q

/-- A directory with nothing below it is made, if it is not there, and gets its file. -/
theorem refill_eq (ht : t.IsTree) (h : Spells t directory place) (hplace : place ≠ []) (hopen : t.Open place)
    (hnone : t.node? (place ++ [fileName]) = none) (bytes : List Nat) :
    ∃ t', (do Action.ensure directory; Action.write (path directory) bytes : Action Unit) t = (.ok (), t') ∧
      t'.IsTree ∧ ∀ q, t'.node? q = if q = place ++ [fileName] then some (.file bytes)
        else if q <+: place then some .directory else t.node? q := by
  obtain ⟨t₁, hrun, ht₁⟩ := Action.ensure_eq ht h hplace hopen
  have htree := ht₁.isTree ht
  have hends := ends_path htree (h.toLeads.keeps ht ht₁.keeps) hplace
  have hdir : t₁.node? place = some .directory := by rw [ht₁, if_pos List.prefix_rfl]
  have hfree : t₁.node? (place ++ [fileName]) = none := by
    rw [ht₁, if_neg, hnone]
    exact fun hpre => absurd hpre.length_le (by simp)
  have hnode (q : Place) := node?_put (t := t₁) (p := place ++ [fileName]) (by simp) (.file bytes) q
  refine ⟨t₁.put (place ++ [fileName]) (.file bytes), ?_, ?_, fun q => ?_⟩
  · rw [run_bind_ok hrun]
    exact Action.write_eq htree hends hdir hfree bytes
  · exact isTree_put htree hdir hfree _
  · rw [hnode, ht₁]

theorem recreate_eq (ht : t.IsTree) (h : Spells (t.without place) directory place) (hplace : place ≠ [])
    (hopen : t.Open place) (v : Version) :
    ∃ t', recreate directory v t = (.ok (), t') ∧ t'.IsTree ∧ Recreated place v t t' := by
  have hget : (get : Action FileTree) t = (.ok t, t) := rfl
  have hleads := leads_of_without ht h.toLeads hplace fun q _ hq => hq
  unfold recreate
  rw [run_bind_ok hget, hasEntry_eq ht hleads hplace hopen]
  rcases hopen.cases List.prefix_rfl with hnone | hdir
  · rw [hnone]
    have hremoved := Removed.refl ht hnone
    have hfree : t.node? (place ++ [fileName]) = none := ht.below hnone
    obtain ⟨t', hrun, htree, ht'⟩ := refill_eq ht ⟨hleads, h.last⟩ hplace hopen hfree (Utf8.encode (content v))
    refine ⟨t', hrun, htree, fun q => ?_⟩
    rw [ht', ← hremoved]
  · rw [hdir]
    have hremoved := removed_without hplace t
    have hfree : (t.without place).node? (place ++ [fileName]) = none := by
      rw [hremoved, if_pos (List.prefix_append _ _)]
    obtain ⟨t', hrun, htree, ht'⟩ := refill_eq (hremoved.isTree ht) h hplace (hremoved.isOpen hopen) hfree
      (Utf8.encode (content v))
    refine ⟨t', ?_, htree, fun q => ?_⟩
    · rw [Option.isSome_some, if_pos rfl, run_bind_ok (Action.removeAll_eq ht h hplace hdir)]
      exact hrun
    · rw [ht', hremoved]

theorem recovered (hplace : place ≠ []) (hopen : t.Open place) (hleads : Leads t' directory place)
    (hv : v.Fits) (htree : t'.IsTree) (ht' : Recreated place v t t') : Recovered directory place v t t' := by
  have hfile : t'.node? (place ++ [fileName]) = some (.file (Utf8.encode (content v))) := by rw [ht', if_pos rfl]
  have hopen' : t'.Open place := by
    intro p bytes hp hbytes
    have hne : p ≠ place ++ [fileName] := by
      rintro rfl
      exact absurd hp.length_le (by simp)
    rw [ht', if_neg hne, if_pos hp] at hbytes
    cases hbytes
  have hinstalled : installed directory t' = .ok (some v) := by
    have hblank : ∀ c ∈ "\n".toList, isBlank c = true := by
      intro c hc
      obtain rfl : c = '\n' := List.mem_singleton.mp hc
      rfl
    refine ((known htree hleads hplace hopen').version v).mpr ⟨_, hfile, "", v.text, "\n", _, _, _, ?_,
      Version.written_text hv, nofun, hblank⟩
    rw [String.empty_append]
    rfl
  refine ⟨fun q => ?_, fun q hq => ?_, htree, hinstalled, ?_⟩
  · rw [ht']
    by_cases hnil : q = []
    · rw [hnil, List.append_nil, if_neg (by simp), if_pos List.prefix_rfl, if_pos rfl]
    · have hbelow : ¬ place ++ q <+: place := by
        intro hpre
        have hlength := hpre.length_le
        rw [List.length_append] at hlength
        exact hnil (List.length_eq_zero_iff.mp (by omega))
      by_cases hname : q = [fileName]
      · rw [hname, if_pos rfl, if_neg (by simp), if_pos rfl]
        rfl
      · rw [if_neg (by simpa using hname), if_neg hbelow, if_pos (List.prefix_append _ _), if_neg hnil, if_neg hname]
  · have hne : q ≠ place ++ [fileName] := by
      rintro rfl
      exact hq (List.prefix_append _ _)
    rw [ht', if_neg hne]
    split
    · next habove => exact (hopen.cases habove).elim (fun hnone => .inr ⟨habove, hnone, rfl⟩) (fun hdir => .inl hdir.symm)
    · exact .inl rfl
  · exact Gate.check_eq_ok.mpr ⟨v, hinstalled, rfl, Nat.le_refl _, Nat.le_refl _⟩

theorem leads_of_recreated (ht : t.IsTree) (h : Leads (t.without place) directory place) (hplace : place ≠ [])
    (ht' : Recreated place v t t') : Leads t' directory place := by
  refine leads_of_without ht h hplace fun q hq hdir => ?_
  have hne : q ≠ place ++ [fileName] := by
    rintro rfl
    exact hq (List.prefix_append _ _)
  rw [ht', if_neg hne, if_neg hq, hdir, ite_self]

theorem recreate_of_point (ht : t.IsTree) (h : Leads (t.without place) directory place) (hplace : place ≠ [])
    (hopen : t.Open place) (hlast : lastSegment directory = ".") (v : Version) :
    ∃ t', recreate directory v t = (.error (if t.node? place = none then .notFound else .invalid), t') ∧
      (∀ q, t'.node? (place ++ q) = if q = [] then t.node? place else none) ∧ SameOutside place t t' ∧ t'.IsTree ∧
      t'.Open place := by
  have hget : (get : Action FileTree) t = (.ok t, t) := rfl
  have hleads := leads_of_without ht h hplace fun q _ hq => hq
  unfold recreate
  rw [run_bind_ok hget, hasEntry_eq ht hleads hplace hopen]
  rcases hopen.cases List.prefix_rfl with hnone | hdir
  · rw [hnone]
    obtain ⟨t', hrun, ht'⟩ := Action.ensure_of_point ht hleads hlast hopen hnone
    obtain ⟨ms, n, rfl⟩ := exists_concat hplace
    rw [List.dropLast_concat] at ht'
    refine ⟨t', run_bind_error hrun, fun q => ?_, fun q hq => ?_, ht'.isTree ht, ht'.isOpen hopen⟩
    · rw [ite_self, ht', if_neg, ht.below hnone]
      intro hpre
      have hlength := hpre.length_le
      simp only [List.length_append, List.length_singleton] at hlength
      omega
    · rw [ht']
      split
      · next habove =>
        have hpre := habove.trans (List.prefix_append _ [n])
        exact (hopen.cases hpre).elim (fun hnone => .inr ⟨hpre, hnone, rfl⟩) (fun hdir => .inl hdir.symm)
      · exact .inl rfl
  · rw [hdir]
    have hrun := Action.removeAll_of_point ht hleads hplace hlast hdir
    refine ⟨t.clear place, run_bind_error hrun, fun q => ?_, fun q hq => .inl ?_, isTree_clear ht hdir, ?_⟩
    · rw [node?_clear]
      by_cases hq : q = []
      · rw [hq, List.append_nil, if_neg (fun h => h.2 rfl), if_pos rfl, hdir]
      · rw [if_pos ⟨List.prefix_append _ _, by simpa using hq⟩, if_neg hq]
    · rw [node?_clear, if_neg (fun h => hq h.1)]
    · refine hopen.mono fun q content _ hfile => ?_
      rw [node?_clear] at hfile
      split at hfile
      · cases hfile
      · exact hfile

/-- A path that ends in a point empties a directory and then fails, or fails after making what is above it. -/
theorem refused (ht : t.IsTree) (h : Leads (t.without place) directory place) (hplace : place ≠ [])
    (hopen : t.Open place) (hlast : lastSegment directory = ".") (v : Version) :
    ∃ t', recreate directory v t = (.error (if t.node? place = none then .notFound else .invalid), t') ∧
      Refused directory place t t' := by
  obtain ⟨t', hrun, hinside, houtside, htree, hopen'⟩ := recreate_of_point ht h hplace hopen hlast v
  refine ⟨t', hrun, hinside, houtside, htree, ?_⟩
  have hleads : Leads t' directory place := by
    refine leads_of_without ht h hplace fun q hq hdir => ?_
    rcases houtside q hq with hsame | ⟨-, hnone, -⟩
    · rw [hsame, hdir]
    · rw [hdir] at hnone
      cases hnone
  exact (known htree hleads hplace hopen').absent.mpr (hinside [fileName])

end VersionFile

open VersionFile

/-- **A reset recovers whatever is there**, if the path of the directory leads to it whether or not it is there, and
does not end in a point. -/
theorem reset_recovers {directory : String} {place : Place} {t : FileTree} (ht : t.IsTree)
    (h : Leads (t.without place) directory place) (hplace : place ≠ []) (hopen : t.Open place) {v : Version}
    (hv : v.Fits) : Resets directory place v t ∧ Known directory place t := by
  refine ⟨⟨fun hlast => ?_, fun hlast => ?_⟩, ?_⟩
  · obtain ⟨t', hrun, htree, ht'⟩ := recreate_eq ht ⟨h, hlast⟩ hplace hopen v
    refine ⟨t', hrun, ?_, recovered hplace hopen (leads_of_recreated ht h hplace ht') hv htree ht'⟩
    unfold Gate.reset Store.directory
    dsimp only
    rw [hrun]
    rfl
  · obtain ⟨t', hrun, hrefused⟩ := refused ht h hplace hopen hlast v
    refine ⟨_, t', hrun, ?_, rfl, hrefused⟩
    unfold Gate.reset Store.directory
    dsimp only
    rw [hrun]
    rfl
  · exact known ht (leads_of_without ht h hplace fun q _ hq => hq) hplace hopen

/-- A tree in which the version of a directory is broken, and other things are in it. -/
def brokenTree : FileTree := ⟨⟨[(["srv"], .directory), (["srv", "db"], .directory), (["srv", "old"], .directory),
  (["srv", "db", "schema.version"], .file [49, 46, 255]), (["srv", "db", "rows"], .directory),
  (["srv", "db", "rows", "1"], .file [])]⟩⟩

theorem reset_recovers_brokenTree :
    (∃ t', VersionFile.recreate "/srv/old/.././db/" ⟨2, 0, 1⟩ brokenTree = (.ok (), t') ∧
      Gate.reset ⟨.directory "/srv/old/.././db/", ⟨2, 0, 1⟩⟩ brokenTree = (.ok (), t') ∧
      Recovered "/srv/old/.././db/" ["srv", "db"] ⟨2, 0, 1⟩ brokenTree t') ∧
    Known "/srv/old/.././db/" ["srv", "db"] brokenTree := by
  have h : Leads (brokenTree.without ["srv", "db"]) "/srv/old/.././db/" ["srv", "db"] := by
    refine ⟨⟨["".toList, "srv".toList, "old".toList, "..".toList], [".".toList, "db".toList, []], ["srv"], ?_, rfl, ?_,
      rfl⟩, by decide⟩
    · decide
    · intro s hs
      obtain rfl : s = "db" := List.mem_singleton.mp hs
      exact ⟨by decide, by decide, by decide⟩
  have ht : brokenTree.IsTree := isTree_of_entries (by decide)
  have hopen : brokenTree.Open ["srv", "db"] := .of_directory ht (by decide)
  obtain ⟨hresets, hknown⟩ := reset_recovers ht h (by decide) hopen (v := ⟨2, 0, 1⟩)
    ⟨by decide, by decide, by decide⟩
  exact ⟨hresets.recovers (by decide), hknown⟩

/-- A tree with data of an old version. -/
def oldTree : FileTree := ⟨⟨[(["db"], .directory), (["db", "schema.version"], .file (Utf8.encode "1.0.0\n")),
  (["db", "table"], .file (Utf8.encode "data"))]⟩⟩

/-- The same data behind a new version. -/
def mixedTree : FileTree := ⟨⟨[(["db"], .directory), (["db", "table"], .file (Utf8.encode "data")), (["new"], .directory),
  (["db", "schema.version"], .file (Utf8.encode "2.0.0\n"))]⟩⟩

/-- **A reset leaves what it should take out** if the path of the directory leads back out of one that is missing:
nothing is found at first, and when the missing one has been made the path leads to what is there.  The gate is open
from then on. -/
theorem reset_leaves_table :
    oldTree.IsTree ∧ oldTree.Open ["db"] ∧ oldTree.locate "new/../db" = .error .notFound ∧
      Gate.reset ⟨.directory "new/../db", ⟨2, 0, 0⟩⟩ oldTree = (.ok (), mixedTree) ∧
      mixedTree.locate "new/../db" = .ok (.found ["db"] .directory) ∧
      mixedTree.node? ["db", "table"] = oldTree.node? ["db", "table"] ∧
      Gate.check ⟨.directory "new/../db", ⟨2, 0, 0⟩⟩ mixedTree = .ok () := by
  have ht : oldTree.IsTree := isTree_of_entries (by decide)
  refine ⟨ht, Open.of_directory ht rfl, rfl, rfl, rfl, rfl, ?_⟩
  · have hread : mixedTree.read (path "new/../db") = .ok (Utf8.encode "2.0.0\n") := rfl
    have htext : textOf (Utf8.encode "2.0.0\n") = .ok "2.0.0\n" := by
      unfold textOf
      rw [Utf8.text?_eq_some.mpr rfl]
    have hinstalled : installed "new/../db" mixedTree = .ok (some ⟨2, 0, 0⟩) := by
      unfold installed readText
      rw [hread]
      simp only [bind, Except.bind, htext]
      rfl
    exact Gate.check_eq_ok.mpr ⟨_, hinstalled, rfl, Nat.le_refl _, Nat.le_refl _⟩

end ClusterAgents.Schema
