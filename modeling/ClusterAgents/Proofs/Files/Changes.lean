import ClusterAgents.Proofs.Files.Ways

/-!
# Changes of trees

What an action makes of a tree, along a path that leads to a place.

* `ensure_eq`, `ensure_of_point` — directories that are made, and those that cannot be;
* `removeAll_eq`, `removeAll_of_point` — directories that are taken out, and those that are only emptied;
* `write_eq` — files that are written.
-/

namespace ClusterAgents.FileTree.Action

open ClusterAgents.Path

variable {t t' : FileTree} {path : String} {place ms : Place} {n : String}

theorem locate_run {goal : Goal} (h : t.locate path = .ok goal) : locate path t = (.ok goal, t) := congrArg (·, t) h

/-! ### Directories that are made -/

theorem ensureOne_of_directory (h : t.locate path = .ok (.found place .directory)) : ensureOne path t = (.ok (), t) := by
  have hmake : makeDirectory path t = (.error .exists, t) := by
    unfold makeDirectory
    rw [run_bind_ok (locate_run h)]
    rfl
  unfold ensureOne isDirectory
  rw [hmake]
  dsimp only
  rw [h]
  rfl

theorem ensureOne_of_notFound (h : t.locate path = .error .notFound) : ensureOne path t = (.error .notFound, t) := by
  have hrun : locate path t = (.error .notFound, t) := congrArg (·, t) h
  have hmake : makeDirectory path t = (.error .notFound, t) := by
    unfold makeDirectory
    rw [run_bind_error hrun]
  unfold ensureOne isDirectory
  rw [hmake]
  dsimp only
  rw [h]
  rfl

/-- A directory is made where there is none, if the one above is there. -/
theorem ensureOne_eq (ht : t.IsTree) (h : Spells t path (ms ++ [n])) (habove : t.node? ms = some .directory)
    (hopen : t.Open (ms ++ [n])) :
    ∃ t', ensureOne path t = (.ok (), t') ∧ ∀ q, t'.node? q = if q = ms ++ [n] then some .directory else t.node? q := by
  rcases hopen.cases List.prefix_rfl with hnone | hdir
  · have hmake : makeDirectory path t = (.ok (), t.put (ms ++ [n]) .directory) := by
      unfold makeDirectory
      rw [run_bind_ok (locate_run (locate_of_free ht h habove hnone))]
      rfl
    refine ⟨t.put (ms ++ [n]) .directory, ?_, fun q => node?_put (by simp) _ _ _⟩
    unfold ensureOne
    rw [hmake]
  · refine ⟨t, ensureOne_of_directory (locate_of_directory ht h.toLeads (by simp) hdir), fun q => ?_⟩
    split
    · next hq => rw [hq, hdir]
    · rfl

theorem ensureFrom_of_ensureOne {fuel : Nat} (h : ensureOne path t = (.ok (), t')) :
    ensureFrom (fuel + 1) path t = (.ok (), t') := by
  rw [ensureFrom]
  dsimp only
  rw [h]

/-- A directory that is missing is made when those above it have been made. -/
theorem ensureFrom_of_missing {fuel : Nat} {above : String} {t₁ : FileTree} (hmissing : t.locate path = .error .notFound)
    (hparent : parent? path = some above) (hne : above ≠ "") (habove : ensureFrom fuel above t = (.ok (), t₁)) :
    ensureFrom (fuel + 1) path t = ensureOne path t₁ := by
  rw [ensureFrom]
  dsimp only
  rw [ensureOne_of_notFound hmissing]
  dsimp only
  rw [hparent]
  dsimp only
  rw [if_neg (by simpa using hne), run_bind_ok habove]

theorem ensureFrom_of_single {fuel : Nat} (hmissing : t.locate path = .error .notFound)
    (hparent : parent? path = some "") : ensureFrom (fuel + 1) path t = (.error .notFound, t) := by
  rw [ensureFrom]
  dsimp only
  rw [ensureOne_of_notFound hmissing]
  dsimp only
  rw [hparent]
  exact ensureOne_of_notFound hmissing

theorem ensureFrom_eq {fuel : Nat} (ht : t.IsTree) (h : Spells t path place) (hplace : place ≠ [])
    (hopen : t.Open place) (hfuel : (segments path.toList).length ≤ fuel) :
    ∃ t', ensureFrom fuel path t = (.ok (), t') ∧ Ensured t place t' := by
  induction fuel generalizing path place with
  | zero => exact absurd (List.length_eq_zero_iff.mp (Nat.le_zero.mp hfuel)) (segments_ne_nil _)
  | succ fuel ih =>
    obtain ⟨ms, n, rfl⟩ := exists_concat hplace
    rcases hopen.above.cases List.prefix_rfl with hnone | hdir
    · -- the directory above is made first, and after that the last step is the only one
      obtain ⟨above, hparent, hspells, hlength⟩ := h.exists_parent ht hnone
      have hms := ne_nil_of_none hnone
      obtain ⟨t₁, hrun₁, ht₁⟩ := ih hspells hms hopen.above (by omega)
      have hdir : t₁.node? ms = some .directory := by rw [ht₁, if_pos List.prefix_rfl]
      obtain ⟨t', hrun, ht'⟩ := ensureOne_eq (ht₁.isTree ht) (h.keeps ht ht₁.keeps) hdir (ht₁.isOpen hopen)
      refine ⟨t', ?_, ht₁.concat ht'⟩
      have hmissing := locate_of_missing ht h.toLeads hopen.above hnone
      rw [ensureFrom_of_missing hmissing hparent (hspells.ne_empty ht hms) hrun₁, hrun]
    · obtain ⟨t', hrun, ht'⟩ := ensureOne_eq ht h hdir hopen
      exact ⟨t', ensureFrom_of_ensureOne hrun, (Ensured.refl ht hdir).concat ht'⟩

/-- **A directory is made with those above it.** -/
theorem ensure_eq (ht : t.IsTree) (h : Spells t path place) (hplace : place ≠ []) (hopen : t.Open place) :
    ∃ t', ensure path t = (.ok (), t') ∧ Ensured t place t' := by
  have hfuel := length_segments_le path.toList
  rw [String.length_toList] at hfuel
  unfold ensure
  rw [if_neg (by simpa using h.ne_empty ht hplace)]
  exact ensureFrom_eq ht h hplace hopen hfuel

/-- What is above a directory that is there, as far as it can be written, is there. -/
theorem parent_of_directory (ht : t.IsTree) (h : Leads t path (ms ++ [n])) (hnone : t.node? (ms ++ [n]) = none)
    (hdir : t.node? ms = some .directory) :
    parent? path = some "" ∨ ∃ above, parent? path = some above ∧ above ≠ "" ∧
      t.locate above = .ok (.found ms .directory) := by
  obtain ⟨front, back, hsegments, hfront, hname, hback⟩ := h.way.exists_last ht hnone
  by_cases hne : front = []
  · exact .inl (parent?_of_nil hsegments hname.leads hback hne)
  · obtain ⟨above, keep, idle, idle', hparent, habove, rfl, hkeep, hidle, hchars⟩ :=
      exists_parent hsegments hname.leads hback hne
    refine .inr ⟨above, hparent, habove, ?_⟩
    have hplain : Char.ofNat 0 ∉ above.toList := by
      intro hmem
      rcases hchars _ hmem with hmem | hmem
      · cases hmem
      · exact h.plain hmem
    rw [locate_eq habove hplain, hkeep]
    refine Way.directory ?_ ht hdir
    have hway := hfront.of_idles ht fun s hs => hidle s (List.mem_append_left _ hs)
    have hnil : namesOf idle' = [] := by
      unfold namesOf
      rw [List.filter_eq_nil_iff.mpr fun s hs => by simp [hidle s (List.mem_append_right _ hs)]]
      rfl
    have hnames : ∀ s ∈ namesOf idle', IsName s := by
      rw [hnil]
      nofun
    have happend := hway.append hnames
    rwa [hnil, List.append_nil] at happend

/-- **No directory is made by a path that ends in a point**; those above are. -/
theorem ensure_of_point (ht : t.IsTree) (h : Leads t path place) (hlast : lastSegment path = ".")
    (hopen : t.Open place) (hnone : t.node? place = none) :
    ∃ t', ensure path t = (.error .notFound, t') ∧ Ensured t place.dropLast t' := by
  obtain ⟨ms, n, rfl⟩ := exists_concat (ne_nil_of_none hnone)
  rw [List.dropLast_concat]
  have hmissing := locate_of_point ht h hlast hopen hnone
  have hfuel := length_segments_le path.toList
  have hne := h.ne_empty ht (by simp)
  obtain ⟨fuel, hlength⟩ := Nat.exists_eq_succ_of_ne_zero (mt String.length_eq_zero_iff.mp hne)
  rw [String.length_toList] at hfuel
  unfold ensure
  rw [if_neg (by simpa using hne)]
  rcases hopen.above.cases List.prefix_rfl with habove | hdir
  · obtain ⟨above, hparent, hspells, hless⟩ := h.exists_parent ht habove
    have hms := ne_nil_of_none habove
    have hfuel' : (segments above.toList).length ≤ path.length := by omega
    obtain ⟨t₁, hrun₁, ht₁⟩ := ensureFrom_eq ht hspells hms hopen.above hfuel'
    have hnone₁ : t₁.node? (ms ++ [n]) = none := by
      rw [ht₁, if_neg (fun hpre => absurd hpre.length_le (by simp)), hnone]
    refine ⟨t₁, ?_, ht₁⟩
    rw [ensureFrom_of_missing hmissing hparent (hspells.ne_empty ht hms) hrun₁]
    exact ensureOne_of_notFound
      (locate_of_point (ht₁.isTree ht) (h.keeps ht ht₁.keeps) hlast (ht₁.isOpen hopen) hnone₁)
  · refine ⟨t, ?_, Ensured.refl ht hdir⟩
    rcases parent_of_directory ht h hnone hdir with hparent | ⟨above, hparent, habove, hlocate⟩
    · exact ensureFrom_of_single hmissing hparent
    · rw [hlength, ensureFrom_of_missing hmissing hparent habove
        (ensureFrom_of_ensureOne (ensureOne_of_directory hlocate)), ensureOne_of_notFound hmissing]

/-! ### Directories that are taken out -/

/-- **A directory is taken out** with all that is in it, by a path that does not go through it. -/
theorem removeAll_eq (ht : t.IsTree) (h : Spells (t.without place) path place) (hplace : place ≠ [])
    (hdir : t.node? place = some .directory) : removeAll path t = (.ok (), t.without place) := by
  have hremoved := removed_without hplace t
  have hkeeps : Keeps (t.without place) t := hremoved.keeps fun q _ hq => hq
  have hleads := h.toLeads.keeps (hremoved.isTree ht) hkeeps
  have hback : lastSegment path ≠ ".." := by
    obtain ⟨ms, n, rfl⟩ := exists_concat hplace
    have hnone : (t.without (ms ++ [n])).node? (ms ++ [n]) = none := by rw [hremoved, if_pos List.prefix_rfl]
    obtain ⟨-, -, -, -, hname, -⟩ := h.way.exists_last (hremoved.isTree ht) hnone
    rw [h.lastSegment_eq (hremoved.isTree ht) hnone]
    exact hname.forward
  unfold removeAll
  rw [run_bind_ok (locate_run (locate_of_directory ht hleads hplace hdir))]
  dsimp only
  rw [if_neg h.last, if_neg hback]
  rfl

/-- **A directory is emptied and not taken out** by a path that ends in a point. -/
theorem removeAll_of_point (ht : t.IsTree) (h : Leads t path place) (hplace : place ≠ [])
    (hlast : lastSegment path = ".") (hdir : t.node? place = some .directory) :
    removeAll path t = (.error .invalid, t.clear place) := by
  unfold removeAll
  rw [run_bind_ok (locate_run (locate_of_directory ht h hplace hdir))]
  dsimp only
  rw [if_pos hlast]
  rfl

/-! ### Files -/

/-- **A file is written** where there is nothing. -/
theorem write_eq (ht : t.IsTree) (h : Ends t path ms n) (hdir : t.node? ms = some .directory)
    (hnone : t.node? (ms ++ [n]) = none) (content : List Nat) :
    write path content t = (.ok (), t.put (ms ++ [n]) (.file content)) := by
  have hlocate := h.locate_eq ht hdir
  rw [hnone] at hlocate
  obtain ⟨front, hsegments, -⟩ := h.way
  unfold write
  rw [run_bind_ok (locate_run hlocate)]
  dsimp only
  rw [asksDirectory_of_segments hsegments h.name.leads, if_neg Bool.false_ne_true]
  rfl

end ClusterAgents.FileTree.Action
