import ClusterAgents.Proofs.Files.Spelling
import ClusterAgents.Proofs.Files.Trees
import ClusterAgents.Proofs.Steps

/-!
# Where a path leads

A path leads through directories that are there, back and forth, and from one of them on from name to name.  The
names need not be there; whatever else is changed in a tree, as long as the directories are kept the path leads to
the same place.

* `Way`, `Leads` — segments and paths that lead to a place, as all do that never lead back (`leads_of_forward`);
* `Spells`, `Ends` — paths that do not end in a point, and paths that end in a name;
* `Leads.join`, `Leads.exists_parent` — what is in the place, and the directory in which the place is;
* `locate_of_directory`, `locate_of_none`, `locate_of_free`, `locate_of_missing`, `locate_of_point` — what is found;
* `read_eq`, `hasEntry_eq` — what is read, and whether something is there.
-/

namespace ClusterAgents.FileTree

open ClusterAgents.Path

variable {t u : FileTree} {p q : Place} {node : FileNode}

/-! ### One segment -/

theorem step_idle {s : List Char} (hp : t.node? p = some .directory) (hs : isIdle s = true) :
    t.step p (String.ofList s) = .ok (.found p .directory) := by
  have hempty : String.ofList s = "" ∨ String.ofList s = "." := by
    rcases isIdle_iff.mp hs with rfl | rfl
    · exact .inl rfl
    · exact .inr rfl
  unfold step
  rw [hp]
  dsimp only
  rw [if_pos (by simpa using hempty)]

/-- A name that something can have. -/
structure IsName (s : String) : Prop where
  leads : isIdle s.toList = false
  forward : s ≠ ".."
  short : s.utf8ByteSize ≤ nameLimit

theorem isName_of_isSegment {s : String} (h : IsSegment s) (hshort : s.utf8ByteSize ≤ nameLimit) : IsName s := by
  refine ⟨h.2.1, ?_, hshort⟩
  rintro rfl
  exact h.2.2 rfl

theorem step_name {s : String} (hp : t.node? p = some .directory) (hs : IsName s) :
    t.step p s = .ok (match t.node? (p ++ [s]) with
      | some node => .found (p ++ [s]) node
      | none => .free (p ++ [s])) := by
  have hidle : ¬ (decide (s = "") || decide (s = ".")) = true := by
    intro h
    have hleads := hs.leads
    rcases Bool.or_eq_true_iff.mp h with h | h <;>
      · rw [of_decide_eq_true h] at hleads
        cases hleads
  unfold step
  rw [hp]
  dsimp only
  rw [if_neg hidle, if_neg hs.forward, if_neg (Nat.not_lt_of_le hs.short)]
  cases t.node? (p ++ [s]) with
  | none => rfl
  | some node => rfl

/-- A step is made from a directory, to what is there. -/
theorem of_step (ht : t.IsTree) {s : String} (h : t.step p s = .ok (.found q node)) :
    t.node? p = some .directory ∧ t.node? q = some node := by
  unfold step at h
  split at h
  · cases h
  · cases h
  · next hp =>
    refine ⟨hp, ?_⟩
    split at h
    · cases h
      exact hp
    split at h
    · cases h
      rcases List.eq_nil_or_concat' p with rfl | ⟨p, s, rfl⟩
      · rfl
      · rw [List.dropLast_concat]
        exact ht p s (by rw [hp]; exact Option.some_ne_none _)
    split at h
    · cases h
    split at h
    · next hnode =>
      cases h
      exact hnode
    · cases h

theorem step_keeps (h : Keeps t u) {s : String} (hstep : t.step p s = .ok (.found q .directory)) :
    u.step p s = .ok (.found q .directory) := by
  unfold step at hstep ⊢
  split at hstep
  · cases hstep
  · cases hstep
  · next hp =>
    rw [h p hp]
    dsimp only
    split at hstep
    · next hs => rwa [if_pos hs]
    next hs =>
    rw [if_neg hs]
    split at hstep
    · next hs => rwa [if_pos hs]
    next hs =>
    rw [if_neg hs]
    split at hstep
    · cases hstep
    next hs =>
    rw [if_neg hs]
    split at hstep
    · next hnode =>
      cases hstep
      rw [h _ hnode]
    · cases hstep

/-! ### Segments -/

theorem follow_append (t : FileTree) (goal : Goal) (xs ys : List String) :
    t.follow goal (xs ++ ys) = t.follow goal xs >>= fun goal => t.follow goal ys := by
  induction xs generalizing goal with
  | nil => cases goal <;> rfl
  | cons x xs ih =>
    cases goal with
    | found here node =>
      rw [List.cons_append, follow, follow, bind_assoc]
      congr 1
      funext goal
      exact ih goal
    | free place =>
      rw [List.cons_append, follow, follow]
      split
      · exact ih _
      · rfl

/-- From a free name a path leads nowhere else. -/
theorem follow_free (t : FileTree) (p : Place) (ss : List String) :
    t.follow (.free p) ss = .ok (.free p) ∨ t.follow (.free p) ss = .error .notFound := by
  induction ss with
  | nil => exact .inl rfl
  | cons s ss ih =>
    rw [follow]
    split
    · exact ih
    · exact .inr rfl

theorem follow_slashes_free (t : FileTree) (p : Place) (k : Nat) :
    t.follow (.free p) (List.replicate k "") = .ok (.free p) := by
  induction k with
  | zero => rfl
  | succ k ih => rw [List.replicate_succ, follow, if_pos rfl, ih]

theorem not_found_of_free {ss : List String} : t.follow (.free p) ss ≠ .ok (.found q node) := by
  intro h
  rcases follow_free t p ss with hfree | hfree <;>
    · rw [hfree] at h
      cases h

theorem of_follow (ht : t.IsTree) {ss : List String} {node' : FileNode} (hp : t.node? p = some node')
    (h : t.follow (.found p node') ss = .ok (.found q node)) : t.node? q = some node := by
  induction ss generalizing p node' with
  | nil =>
    cases h
    exact hp
  | cons s ss ih =>
    obtain ⟨goal, hstep, hrest⟩ := bind_eq_ok.mp h
    cases goal with
    | found p' node'' => exact ih (of_step ht hstep).2 hrest
    | free p' => exact absurd hrest not_found_of_free

/-- The same way through more directories. -/
theorem follow_keeps (ht : t.IsTree) (h : Keeps t u) {ss : List String}
    (hfollow : t.follow (.found p .directory) ss = .ok (.found q .directory)) :
    u.follow (.found p .directory) ss = .ok (.found q .directory) := by
  induction ss generalizing p with
  | nil => exact hfollow
  | cons s ss ih =>
    obtain ⟨goal, hstep, hrest⟩ := bind_eq_ok.mp hfollow
    cases goal with
    | free p' => exact absurd hrest not_found_of_free
    | found p' node' =>
      cases node' with
      | directory =>
        rw [follow, step_keeps h hstep]
        exact ih hrest
      | file content =>
        -- nothing leads on from a file
        cases ss with
        | nil => cases hrest
        | cons s' ss =>
          obtain ⟨goal, hstep', hrest⟩ := bind_eq_ok.mp hrest
          have hfile := (of_step ht hstep).2
          unfold step at hstep'
          rw [hfile] at hstep'
          cases hstep'

/-- An idle segment at the end leads nowhere. -/
theorem follow_of_idle (ht : t.IsTree) {ss : List (List Char)} {s : List Char} (hs : isIdle s = true)
    (h : t.follow (.found [] .directory) ((ss ++ [s]).map String.ofList) = .ok (.found q node)) :
    t.follow (.found [] .directory) (ss.map String.ofList) = .ok (.found q node) := by
  rw [List.map_append, follow_append] at h
  obtain ⟨goal, hfollow, hlast⟩ := bind_eq_ok.mp h
  cases goal with
  | free p => exact absurd hlast not_found_of_free
  | found p node' =>
    have hnode := of_follow ht rfl hfollow
    obtain ⟨goal, hstep, hnil⟩ := bind_eq_ok.mp hlast
    cases goal with
    | free p' => cases hnil
    | found p' node'' =>
      cases hnil
      have hdir := (of_step ht hstep).1
      rw [hnode] at hdir
      cases hdir
      rw [step_idle hnode hs] at hstep
      cases hstep
      exact hfollow

/-- From directory to directory. -/
theorem follow_directory (ht : t.IsTree) {ss : List (List Char)} (hnames : ∀ s ∈ namesOf ss, IsName s)
    (hdir : t.node? (p ++ namesOf ss) = some .directory) :
    t.follow (.found p .directory) (ss.map String.ofList) = .ok (.found (p ++ namesOf ss) .directory) := by
  induction ss generalizing p with
  | nil => rw [namesOf_nil, List.append_nil]; rfl
  | cons s ss ih =>
    have hp := ht.directory hdir
    rw [List.map_cons, follow]
    cases hs : isIdle s with
    | true =>
      rw [namesOf_cons_of_idle hs] at hnames hdir ⊢
      rw [step_idle hp hs]
      exact ih hnames hdir
    | false =>
      rw [namesOf_cons_of_name hs] at hnames hdir ⊢
      rw [List.append_cons] at hdir ⊢
      obtain ⟨hname, hnames⟩ := List.forall_mem_cons.mp hnames
      rw [step_name hp hname, ht.directory hdir]
      exact ih hnames hdir

/-- Segments stop where something on their way is missing, or at what would be the last name. -/
theorem follow_missing {ss : List (List Char)} (hnames : ∀ s ∈ namesOf ss, IsName s)
    (hp : t.node? p = some .directory) (hopen : t.Open (p ++ namesOf ss)) (hnone : t.node? (p ++ namesOf ss) = none) :
    (∃ q, t.follow (.found p .directory) (ss.map String.ofList) = .ok (.free q)) ∨
      t.follow (.found p .directory) (ss.map String.ofList) = .error .notFound := by
  induction ss generalizing p with
  | nil =>
    rw [namesOf_nil, List.append_nil, hp] at hnone
    cases hnone
  | cons s ss ih =>
    rw [List.map_cons, follow]
    cases hs : isIdle s with
    | true =>
      rw [namesOf_cons_of_idle hs] at hnames hopen hnone
      rw [step_idle hp hs]
      exact ih hnames hp hopen hnone
    | false =>
      rw [namesOf_cons_of_name hs] at hnames hopen hnone
      rw [List.append_cons] at hopen hnone
      obtain ⟨hname, hnames⟩ := List.forall_mem_cons.mp hnames
      rw [step_name hp hname]
      cases hnode : t.node? (p ++ [String.ofList s]) with
      | none =>
        rcases follow_free t (p ++ [String.ofList s]) (ss.map String.ofList) with h | h
        · exact .inl ⟨_, h⟩
        · exact .inr h
      | some node =>
        cases node with
        | directory => exact ih hnames hnode hopen hnone
        | file content => exact absurd hnode (hopen _ _ (List.prefix_append _ _))

/-- Names and points cannot be followed from what is not there. -/
theorem follow_of_stopped {goal : Goal} {xs ys : List String}
    (h : (∃ q, t.follow goal xs = .ok (.free q)) ∨ t.follow goal xs = .error .notFound) (hys : ∃ s ∈ ys, s ≠ "") :
    t.follow goal (xs ++ ys) = .error .notFound := by
  have hstuck (q : Place) : t.follow (.free q) ys = .error .notFound := by
    induction ys with
    | nil =>
      obtain ⟨s, hs, -⟩ := hys
      cases hs
    | cons y ys ih =>
      rw [follow]
      split
      · next hy =>
        obtain ⟨s, hs, hne⟩ := hys
        rcases List.mem_cons.mp hs with rfl | hs
        · exact absurd hy hne
        · exact ih ⟨s, hs, hne⟩
      · rfl
  rw [follow_append]
  rcases h with ⟨q, hq⟩ | hq
  · rw [hq]
    exact hstuck q
  · rw [hq]
    rfl

/-! ### Ways -/

/-- **A way to a place**: through directories that are there, and from the last of them on from name to name. -/
def Way (t : FileTree) (ss : List (List Char)) (place : Place) : Prop :=
  ∃ start rest base, ss = start ++ rest ∧
    t.follow (.found [] .directory) (start.map String.ofList) = .ok (.found base .directory) ∧
    (∀ s ∈ namesOf rest, IsName s) ∧ base ++ namesOf rest = place

namespace Way

variable {ss : List (List Char)} {place ms : Place} {n : String}

theorem keeps (h : t.Way ss place) (ht : t.IsTree) (hkeeps : Keeps t u) : u.Way ss place := by
  obtain ⟨start, rest, base, hparts, hstart, hnames, hplace⟩ := h
  exact ⟨start, rest, base, hparts, follow_keeps ht hkeeps hstart, hnames, hplace⟩

theorem of_idle (ht : t.IsTree) {s : List Char} (hs : isIdle s = true) (h : t.Way (ss ++ [s]) place) :
    t.Way ss place := by
  obtain ⟨start, rest, base, hparts, hstart, hnames, hplace⟩ := h
  rcases List.eq_nil_or_concat' rest with rfl | ⟨rest, s', rfl⟩
  · rw [List.append_nil] at hparts
    exact ⟨ss, [], base, (List.append_nil _).symm, follow_of_idle ht hs (hparts ▸ hstart), nofun, hplace⟩
  · rw [← List.append_assoc] at hparts
    obtain ⟨rfl, hlast⟩ := List.append_inj' hparts rfl
    obtain rfl := List.singleton_inj.mp hlast
    have hrest : namesOf (rest ++ [s]) = namesOf rest := by
      rw [namesOf_append, namesOf_cons_of_idle hs, namesOf_nil, List.append_nil]
    rw [hrest] at hnames hplace
    exact ⟨start, rest, base, rfl, hstart, hnames, hplace⟩

theorem of_idles (ht : t.IsTree) {idle : List (List Char)} (hidle : ∀ s ∈ idle, isIdle s = true)
    (h : t.Way (ss ++ idle) place) : t.Way ss place := by
  induction idle using List.reverseRecOn with
  | nil => rwa [List.append_nil] at h
  | append_singleton idle s ih =>
    rw [← List.append_assoc] at h
    exact ih (fun s hs => hidle s (List.mem_append_left _ hs)) (of_idle ht (hidle s (by simp)) h)

theorem append (h : t.Way ss place) {xs : List (List Char)} (hxs : ∀ s ∈ namesOf xs, IsName s) :
    t.Way (ss ++ xs) (place ++ namesOf xs) := by
  obtain ⟨start, rest, base, rfl, hstart, hnames, rfl⟩ := h
  refine ⟨start, rest ++ xs, base, List.append_assoc _ _ _, hstart, ?_, ?_⟩
  · rw [namesOf_append]
    exact fun s hs => (List.mem_append.mp hs).elim (hnames s) (hxs s)
  · rw [namesOf_append, List.append_assoc]

theorem name (h : t.Way ss place) (hn : IsName n) : t.Way (ss ++ [n.toList]) (place ++ [n]) := by
  have hnames : namesOf [n.toList] = [n] := by
    rw [namesOf_cons_of_name hn.leads, String.ofList_toList, namesOf_nil]
  have hall : ∀ s ∈ namesOf [n.toList], IsName s := by
    rw [hnames]
    exact fun s hs => List.mem_singleton.mp hs ▸ hn
  rw [← hnames]
  exact h.append hall

/-- The last name of what is not there is in the way. -/
theorem exists_last (h : t.Way ss (ms ++ [n])) (ht : t.IsTree) (hnone : t.node? (ms ++ [n]) = none) :
    ∃ front back, ss = front ++ n.toList :: back ∧ t.Way front ms ∧ IsName n ∧ ∀ s ∈ back, isIdle s = true := by
  obtain ⟨start, rest, base, rfl, hstart, hnames, hplace⟩ := h
  have hbase := of_follow ht rfl hstart
  rcases List.eq_nil_or_concat' (namesOf rest) with hnil | ⟨ns, m, hns⟩
  · rw [hnil, List.append_nil] at hplace
    rw [hplace, hnone] at hbase
    cases hbase
  · rw [hns, ← List.append_assoc] at hplace
    obtain ⟨rfl, hlast⟩ := List.append_inj' hplace rfl
    obtain rfl := List.singleton_inj.mp hlast
    obtain ⟨front, back, rfl, hfront, -, hback⟩ := exists_of_namesOf hns
    rw [hns] at hnames
    refine ⟨start ++ front, back, (List.append_assoc _ _ _).symm, ?_, hnames m (by simp), hback⟩
    refine ⟨start, front, base, rfl, hstart, ?_, by rw [hfront]⟩
    rw [hfront]
    exact fun s hs => hnames s (List.mem_append_left _ hs)

theorem directory (h : t.Way ss place) (ht : t.IsTree) (hdir : t.node? place = some .directory) :
    t.follow (.found [] .directory) (ss.map String.ofList) = .ok (.found place .directory) := by
  obtain ⟨start, rest, base, rfl, hstart, hnames, rfl⟩ := h
  rw [List.map_append, follow_append, hstart]
  exact follow_directory ht hnames hdir

theorem missing (h : t.Way ss place) (ht : t.IsTree) (hopen : t.Open place) (hnone : t.node? place = none) :
    (∃ q, t.follow (.found [] .directory) (ss.map String.ofList) = .ok (.free q)) ∨
      t.follow (.found [] .directory) (ss.map String.ofList) = .error .notFound := by
  obtain ⟨start, rest, base, rfl, hstart, hnames, rfl⟩ := h
  rw [List.map_append, follow_append, hstart]
  exact follow_missing hnames (of_follow ht rfl hstart) hopen hnone

end Way

/-! ### Paths -/

/-- **A path that leads to a place.** -/
structure Leads (t : FileTree) (path : String) (place : Place) : Prop where
  way : t.Way (segments path.toList) place
  plain : Char.ofNat 0 ∉ path.toList

/-- And it does not end in a point. -/
structure Spells (t : FileTree) (path : String) (place : Place) : Prop extends Leads t path place where
  last : lastSegment path ≠ "."

/-- And it ends in the name of something in a place. -/
structure Ends (t : FileTree) (path : String) (place : Place) (n : String) : Prop where
  way : ∃ front, segments path.toList = front ++ [n.toList] ∧ t.Way front place
  name : IsName n
  plain : Char.ofNat 0 ∉ path.toList

section

variable {path : String} {place ms : Place} {n : String}

theorem exists_concat (h : place ≠ []) : ∃ ms n, place = ms ++ [n] := ⟨_, _, (List.dropLast_append_getLast h).symm⟩

theorem ne_nil_of_none (h : t.node? place = none) : place ≠ [] := by
  rintro rfl
  cases h

/-- In every tree a path that never leads back leads to where its names do. -/
theorem leads_of_forward (hnamed : namesOf (segments path.toList) = place) (hforward : ".." ∉ place)
    (hshort : ∀ s ∈ place, s.utf8ByteSize ≤ nameLimit) (hplain : Char.ofNat 0 ∉ path.toList) : Leads t path place := by
  refine ⟨⟨[], segments path.toList, [], rfl, rfl, fun s hs => ?_, hnamed⟩, hplain⟩
  have hmem := hs
  rw [hnamed] at hmem
  obtain ⟨cs, hcs, rfl⟩ := List.mem_map.mp hs
  refine ⟨?_, fun h => hforward (h ▸ hmem), hshort _ hmem⟩
  rw [String.toList_ofList]
  simpa using (List.mem_filter.mp hcs).2

theorem Leads.keeps (h : Leads t path place) (ht : t.IsTree) (hkeeps : Keeps t u) : Leads u path place :=
  ⟨h.way.keeps ht hkeeps, h.plain⟩

theorem Spells.keeps (h : Spells t path place) (ht : t.IsTree) (hkeeps : Keeps t u) : Spells u path place :=
  ⟨h.toLeads.keeps ht hkeeps, h.last⟩

theorem Leads.ne_empty (h : Leads t path place) (ht : t.IsTree) (hplace : place ≠ []) : path ≠ "" := by
  rintro rfl
  have hway : t.Way ([] ++ [[]]) place := h.way
  obtain ⟨start, rest, base, hparts, hstart, -, rfl⟩ := hway.of_idle ht rfl
  obtain ⟨rfl, rfl⟩ := List.append_eq_nil_iff.mp hparts.symm
  cases hstart
  exact hplace rfl

theorem Ends.leads (h : Ends t path ms n) : Leads t path (ms ++ [n]) := by
  obtain ⟨front, hsegments, hway⟩ := h.way
  exact ⟨hsegments ▸ hway.name h.name, h.plain⟩

/-- **The path of something in a place.** -/
theorem Leads.join (h : Leads t path place) (ht : t.IsTree) (hpath : path ≠ "") {s : String} (hs : IsSegment s)
    (hshort : s.utf8ByteSize ≤ nameLimit) (hplain : Char.ofNat 0 ∉ s.toList) : Ends t (Path.join path s) place s := by
  obtain ⟨front, hsegments, hfront, hchars⟩ := segments_join hpath hs
  refine ⟨⟨front, hsegments, ?_⟩, isName_of_isSegment hs hshort, fun hmem => ?_⟩
  · have hway := h.way
    rcases hfront with hfront | hfront
    · rwa [hfront] at hway
    · rw [hfront] at hway
      exact hway.of_idle ht rfl
  · rcases hchars _ hmem with hmem | hmem | hmem
    · exact h.plain hmem
    · cases hmem
    · exact hplain hmem

/-- Behind the last name of a path that does not end in a point there are slashes. -/
theorem Spells.exists_slashes (h : Spells t path (ms ++ [n])) (ht : t.IsTree) (hnone : t.node? (ms ++ [n]) = none) :
    ∃ front k, segments path.toList = front ++ n.toList :: List.replicate k [] ∧ t.Way front ms ∧ IsName n := by
  obtain ⟨front, back, hsegments, hfront, hname, hback⟩ := h.way.exists_last ht hnone
  have hempty : ∀ s ∈ back, s = [] := by
    intro s hs
    by_contra hfull
    exact h.last ((point_mem_iff hsegments hname.leads hback).mpr ⟨s, hs, hfull⟩)
  exact ⟨front, back.length, by rw [← List.eq_replicate_iff.mpr ⟨rfl, hempty⟩, hsegments], hfront, hname⟩

theorem Spells.lastSegment_eq (h : Spells t path (ms ++ [n])) (ht : t.IsTree) (hnone : t.node? (ms ++ [n]) = none) :
    lastSegment path = n := by
  obtain ⟨front, k, hsegments, -, hname⟩ := h.exists_slashes ht hnone
  have hnil : (List.replicate k ([] : List Char)).filter (!·.isEmpty) = [] := by simp
  rw [Path.lastSegment_eq hsegments hname.leads, hnil, List.getLast?_nil, Option.getD_none, String.ofList_toList]

/-- **The directory in which a place is**, if it is not there either. -/
theorem Leads.exists_parent (h : Leads t path (ms ++ [n])) (ht : t.IsTree) (hnone : t.node? ms = none) :
    ∃ above, parent? path = some above ∧ Spells t above ms ∧
      (segments above.toList).length < (segments path.toList).length := by
  obtain ⟨front, back, hsegments, hfront, hname, hback⟩ := h.way.exists_last ht (ht.below hnone)
  obtain ⟨ms, m, rfl⟩ := exists_concat (ne_nil_of_none hnone)
  obtain ⟨front, idle, rfl, hfront, hm, hidle⟩ := hfront.exists_last ht hnone
  have hparts : segments path.toList = (front ++ [m.toList]) ++ (idle ++ n.toList :: back) := by
    rw [hsegments]
    simp
  have habove : segments (String.ofList (unite (front ++ [m.toList]))).toList = front ++ [m.toList] := by
    rw [String.toList_ofList, segments_unite (by simp)]
    exact fun s hs => not_mem_of_mem_segments (hparts ▸ List.mem_append_left _ hs)
  refine ⟨_, parent?_of_name hsegments hname.leads hback rfl hm.leads hidle, ⟨⟨?_, fun hmem => h.plain ?_⟩, ?_⟩, ?_⟩
  · rw [habove]
    exact hfront.name hm
  · rw [String.toList_ofList] at hmem
    rw [← unite_segments path.toList, hparts]
    exact mem_unite_append hmem _
  · intro hlast
    obtain ⟨s, hs, -⟩ := (point_mem_iff habove hm.leads nofun).mp hlast
    cases hs
  · rw [habove, hparts]
    simp only [List.length_append, List.length_cons]
    omega

theorem locate_eq {path : String} (hne : path ≠ "") (hplain : Char.ofNat 0 ∉ path.toList) (t : FileTree) :
    t.locate path = t.follow (.found [] .directory) ((segments path.toList).map String.ofList) := by
  unfold locate
  rw [if_neg (by simpa using hne), if_neg (by simpa using hplain)]

theorem Leads.locate_eq (h : Leads t path place) (ht : t.IsTree) (hplace : place ≠ []) :
    t.locate path = t.follow (.found [] .directory) ((segments path.toList).map String.ofList) :=
  FileTree.locate_eq (h.ne_empty ht hplace) h.plain t

/-- **A path to a directory.** -/
theorem locate_of_directory (ht : t.IsTree) (h : Leads t path place) (hplace : place ≠ [])
    (hdir : t.node? place = some .directory) : t.locate path = .ok (.found place .directory) :=
  (h.locate_eq ht hplace).trans (h.way.directory ht hdir)

/-- **A path to nothing.** -/
theorem locate_of_none (ht : t.IsTree) (h : Leads t path place) (hopen : t.Open place) (hnone : t.node? place = none) :
    (∃ q, t.locate path = .ok (.free q)) ∨ t.locate path = .error .notFound := by
  rw [h.locate_eq ht (ne_nil_of_none hnone)]
  exact h.way.missing ht hopen hnone

/-- Above what a directory holds there is nothing but that directory, which is left for one of the names in it. -/
theorem follow_of_above (ht : t.IsTree) {front : List (List Char)} (hway : t.Way front ms)
    (hdir : t.node? ms = some .directory) (hn : IsName n) (back : List (List Char)) :
    t.follow (.found [] .directory) ((front ++ n.toList :: back).map String.ofList) =
      t.follow (match t.node? (ms ++ [n]) with
        | some node => .found (ms ++ [n]) node
        | none => .free (ms ++ [n])) (back.map String.ofList) := by
  rw [List.map_append, List.map_cons, String.ofList_toList, follow_append, hway.directory ht hdir]
  change t.follow (.found ms .directory) (n :: _) = _
  rw [follow, step_name hdir hn]
  rfl

/-- **A path to a name that is free.** -/
theorem locate_of_free (ht : t.IsTree) (h : Spells t path (ms ++ [n])) (hdir : t.node? ms = some .directory)
    (hnone : t.node? (ms ++ [n]) = none) : t.locate path = .ok (.free (ms ++ [n])) := by
  obtain ⟨front, k, hsegments, hfront, hn⟩ := h.exists_slashes ht hnone
  rw [h.locate_eq ht (by simp), hsegments, follow_of_above ht hfront hdir hn, hnone, List.map_replicate]
  exact follow_slashes_free t _ k

/-- A path that ends in a name, if the directory is there. -/
theorem Ends.locate_eq (h : Ends t path ms n) (ht : t.IsTree) (hdir : t.node? ms = some .directory) :
    t.locate path = .ok (match t.node? (ms ++ [n]) with
      | some node => .found (ms ++ [n]) node
      | none => .free (ms ++ [n])) := by
  obtain ⟨front, hsegments, hway⟩ := h.way
  rw [h.leads.locate_eq ht (by simp), hsegments, follow_of_above ht hway hdir h.name]
  split <;> rfl

/-- **A path into a directory that is not there.** -/
theorem locate_of_missing (ht : t.IsTree) (h : Leads t path (ms ++ [n])) (hopen : t.Open ms) (hnone : t.node? ms = none) :
    t.locate path = .error .notFound := by
  obtain ⟨front, back, hsegments, hfront, hname, -⟩ := h.way.exists_last ht (ht.below hnone)
  rw [h.locate_eq ht (by simp), hsegments, List.map_append]
  refine follow_of_stopped (hfront.missing ht hopen hnone) ⟨n, by simp, ?_⟩
  rintro rfl
  cases hname.leads

/-- **A path to a point** in a directory that is not there. -/
theorem locate_of_point (ht : t.IsTree) (h : Leads t path place) (hlast : lastSegment path = ".")
    (hopen : t.Open place) (hnone : t.node? place = none) : t.locate path = .error .notFound := by
  obtain ⟨ms, n, rfl⟩ := exists_concat (ne_nil_of_none hnone)
  obtain ⟨front, back, hsegments, hfront, hname, hback⟩ := h.way.exists_last ht hnone
  obtain ⟨s, hs, hfull⟩ := (point_mem_iff hsegments hname.leads hback).mp hlast
  have hparts : segments path.toList = (front ++ [n.toList]) ++ back := by
    rw [hsegments]
    simp
  rw [h.locate_eq ht (by simp), hparts, List.map_append]
  refine follow_of_stopped ((hfront.name hname).missing ht hopen hnone) ⟨String.ofList s, List.mem_map_of_mem hs, ?_⟩
  intro hempty
  exact hfull (by simpa using congrArg String.toList hempty)

/-- **What is read** where a path leads that ends in a name. -/
theorem read_eq (ht : t.IsTree) (h : Ends t path ms n) (hopen : t.Open ms) :
    t.read path = match t.node? (ms ++ [n]) with
      | none => .error .notFound
      | some .directory => .error .isDirectory
      | some (.file content) => .ok content := by
  unfold read
  rcases hopen.cases List.prefix_rfl with hnone | hdir
  · rw [locate_of_missing ht h.leads hopen hnone, ht.below hnone]
    rfl
  · rw [h.locate_eq ht hdir]
    cases t.node? (ms ++ [n]) with
    | none => rfl
    | some node => cases node <;> rfl

/-- **Whether something is there** where a path leads. -/
theorem hasEntry_eq (ht : t.IsTree) (h : Leads t path place) (hplace : place ≠ []) (hopen : t.Open place) :
    t.hasEntry path = (t.node? place).isSome := by
  unfold hasEntry
  rcases hopen.cases List.prefix_rfl with hnone | hdir
  · rw [hnone]
    rcases locate_of_none ht h hopen hnone with ⟨q, hq⟩ | hq
    · rw [hq]
      rfl
    · rw [hq]
      rfl
  · rw [hdir, locate_of_directory ht h hplace hdir]
    rfl

end

end ClusterAgents.FileTree
