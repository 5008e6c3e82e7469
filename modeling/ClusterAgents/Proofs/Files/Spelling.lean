import ClusterAgents.File.Tree
import ClusterAgents.Proofs.Paths

/-!
# Names in paths

A tree is followed by names, a path is a text.  Between the names there may be more slashes than are needed, and idle
segments; behind the last one as well, and there it matters whether one of them is a point.

* `segments_unite`, `unite_segments` — segments, and the text that they are divided from;
* `namesOf` — the names among segments, with `exists_of_namesOf` for the last of them;
* `point_mem_iff` — the paths that end in a point;
* `segments_join`, `parent?_eq` — the segments of what is behind a path, and the path without the last of them.
-/

namespace ClusterAgents.Path

open FileTree

/-! ### Segments and slashes -/

theorem not_mem_of_mem_segments {cs s : List Char} (h : s ∈ segments cs) : '/' ∉ s := by
  induction cs generalizing s with
  | nil =>
    obtain rfl := List.mem_singleton.mp h
    exact List.not_mem_nil
  | cons c cs ih =>
    rw [segments] at h
    split at h
    · rcases List.mem_cons.mp h with rfl | h
      · exact List.not_mem_nil
      · exact ih h
    · next hc =>
      obtain ⟨first, rest, hsegments⟩ := List.exists_cons_of_ne_nil (segments_ne_nil cs)
      rw [hsegments] at h ih
      rcases List.mem_cons.mp h with rfl | h
      · rw [List.mem_cons, not_or]
        exact ⟨Ne.symm hc, ih List.mem_cons_self⟩
      · exact ih (List.mem_cons_of_mem _ h)

theorem length_segments_le (cs : List Char) : (segments cs).length ≤ cs.length + 1 := by
  induction cs with
  | nil => exact Nat.le_refl _
  | cons c cs ih =>
    rw [segments]
    split
    · simpa using ih
    · obtain ⟨first, rest, hsegments⟩ := List.exists_cons_of_ne_nil (segments_ne_nil cs)
      rw [hsegments] at ih ⊢
      simp only [List.length_cons] at ih ⊢
      omega

theorem unite_cons {s : List Char} {ss : List (List Char)} (h : ss ≠ []) : unite (s :: ss) = s ++ '/' :: unite ss := by
  cases ss with
  | nil => exact absurd rfl h
  | cons _ _ => rfl

theorem unite_append {xs ys : List (List Char)} (hx : xs ≠ []) (hy : ys ≠ []) :
    unite (xs ++ ys) = unite xs ++ '/' :: unite ys := by
  induction xs with
  | nil => exact absurd rfl hx
  | cons s ss ih =>
    cases ss with
    | nil => exact unite_cons hy
    | cons s' ss =>
      have hmore : s' :: ss ++ ys ≠ [] := by simp
      rw [List.cons_append, unite_cons hmore, ih (List.cons_ne_nil _ _), unite_cons (List.cons_ne_nil _ _),
        List.append_assoc, List.cons_append]

/-- Nothing is lost when segments are put behind others. -/
theorem mem_unite_append {xs : List (List Char)} {c : Char} (hc : c ∈ unite xs) (ys : List (List Char)) :
    c ∈ unite (xs ++ ys) := by
  by_cases hy : ys = []
  · rwa [hy, List.append_nil]
  · have hx : xs ≠ [] := by
      rintro rfl
      cases hc
    rw [unite_append hx hy]
    exact List.mem_append_left _ hc

theorem segments_unite {ss : List (List Char)} (hne : ss ≠ []) (h : ∀ s ∈ ss, '/' ∉ s) : segments (unite ss) = ss := by
  induction ss with
  | nil => exact absurd rfl hne
  | cons s ss ih =>
    obtain ⟨hs, hss⟩ := List.forall_mem_cons.mp h
    cases ss with
    | nil => exact segments_of_not_mem hs
    | cons s' ss =>
      rw [unite_cons (List.cons_ne_nil _ _), segments_append, segments_of_not_mem hs, ih (List.cons_ne_nil _ _) hss]
      rfl

theorem unite_segments (cs : List Char) : unite (segments cs) = cs := by
  induction cs with
  | nil => rfl
  | cons c cs ih =>
    obtain ⟨first, rest, hsegments⟩ := List.exists_cons_of_ne_nil (segments_ne_nil cs)
    rw [segments]
    split
    · next hc => rw [unite_cons (segments_ne_nil cs), ih, hc, List.nil_append]
    · rw [hsegments] at ih ⊢
      dsimp only
      cases rest with
      | nil => rw [← ih]; rfl
      | cons _ _ =>
        rw [unite_cons (List.cons_ne_nil _ _)] at ih ⊢
        rw [← ih, List.cons_append]

/-! ### Names -/

theorem isIdle_iff {s : List Char} : isIdle s = true ↔ s = [] ∨ s = ['.'] := by
  unfold isIdle
  rw [Bool.or_eq_true, List.isEmpty_iff, beq_iff_eq]

/-- The names among segments. -/
def namesOf (ss : List (List Char)) : Place := (ss.filter fun s => !isIdle s).map String.ofList

@[simp] theorem namesOf_nil : namesOf [] = [] := rfl

theorem namesOf_append (xs ys : List (List Char)) : namesOf (xs ++ ys) = namesOf xs ++ namesOf ys := by
  unfold namesOf
  rw [List.filter_append, List.map_append]

theorem namesOf_cons_of_idle {s : List Char} (h : isIdle s = true) (ss : List (List Char)) :
    namesOf (s :: ss) = namesOf ss := by
  unfold namesOf
  rw [List.filter_cons_of_neg (by simp [h])]

theorem namesOf_cons_of_name {s : List Char} (h : isIdle s = false) (ss : List (List Char)) :
    namesOf (s :: ss) = String.ofList s :: namesOf ss := by
  unfold namesOf
  rw [List.filter_cons_of_pos (by simp [h]), List.map_cons]

/-- Where the last name stands, and what is behind it. -/
theorem exists_of_namesOf {ss : List (List Char)} {ms : Place} {n : String} (h : namesOf ss = ms ++ [n]) :
    ∃ front back, ss = front ++ n.toList :: back ∧ namesOf front = ms ∧ isIdle n.toList = false ∧
      ∀ s ∈ back, isIdle s = true := by
  unfold namesOf at h
  obtain ⟨xs, ys, hfilter, hxs, hys⟩ := List.map_eq_append_iff.mp h
  obtain ⟨y, rfl, rfl⟩ := List.map_eq_singleton_iff.mp hys
  obtain ⟨front, rest, rfl, hfront, hrest⟩ := List.filter_eq_append_iff.mp hfilter
  obtain ⟨idle, back, rfl, hidle, hy, hback⟩ := List.filter_eq_cons_iff.mp hrest
  refine ⟨front ++ idle, back, ?_, ?_, ?_, ?_⟩
  · rw [String.toList_ofList, List.append_assoc]
  · have hnone : namesOf idle = [] := by
      unfold namesOf
      rw [List.filter_eq_nil_iff.mpr hidle]
      rfl
    rw [namesOf_append, hnone, List.append_nil]
    unfold namesOf
    rw [hfront, hxs]
  · simpa using hy
  · intro s hs
    simpa using List.filter_eq_nil_iff.mp hback s hs

/-! ### The last segment -/

variable {path : String}

theorem lastSegment_eq {front back : List (List Char)} {name : List Char}
    (h : segments path.toList = front ++ name :: back) (hname : isIdle name = false) :
    lastSegment path = String.ofList ((back.filter (!·.isEmpty)).getLast?.getD name) := by
  have hne : name.isEmpty = false := (Bool.or_eq_false_iff.mp hname).1
  unfold lastSegment
  rw [h, List.filter_append, List.filter_cons_of_pos (by simp [hne]), List.getLast?_append, List.getLast?_cons,
    Option.some_or, Option.getD_some]

/-- A path that ends in a point has one behind its last name. -/
theorem point_mem_iff {front back : List (List Char)} {name : List Char}
    (h : segments path.toList = front ++ name :: back) (hname : isIdle name = false)
    (hback : ∀ s ∈ back, isIdle s = true) : lastSegment path = "." ↔ ∃ s ∈ back, s ≠ [] := by
  rw [lastSegment_eq h hname]
  cases hlast : (back.filter (!·.isEmpty)).getLast? with
  | none =>
    have hnone := List.filter_eq_nil_iff.mp (List.getLast?_eq_none_iff.mp hlast)
    constructor
    · intro hpoint
      rw [Option.getD_none] at hpoint
      have hlist : name = ['.'] := by simpa using congrArg String.toList hpoint
      rw [hlist] at hname
      cases hname
    · rintro ⟨s, hs, hfull⟩
      exact absurd (hnone s hs) (by simpa using hfull)
  | some point =>
    obtain ⟨hmem, hfull⟩ := List.mem_filter.mp (List.mem_of_getLast? hlast)
    rcases isIdle_iff.mp (hback point hmem) with rfl | rfl
    · cases hfull
    · exact ⟨fun _ => ⟨_, hmem, List.cons_ne_nil _ _⟩, fun _ => rfl⟩

theorem asksDirectory_of_segments {front : List (List Char)} {name : List Char}
    (h : segments path.toList = front ++ [name]) (hname : isIdle name = false) : asksDirectory path = false := by
  unfold asksDirectory
  rw [decide_eq_false_iff_not]
  intro hslash
  obtain ⟨cs, hcs⟩ := List.getLast?_eq_some_iff.mp hslash
  have hend : segments path.toList = segments cs ++ [[]] := by
    rw [hcs]
    exact segments_append cs []
  have hlast : name = [] := (List.append_inj' (h.symm.trans hend) rfl).2 |> List.singleton_inj.mp
  rw [hlast] at hname
  cases hname

/-- A segment behind a path is the last one; there may have been an empty one in its place. -/
theorem segments_join {s : String} (hpath : path ≠ "") (hs : IsSegment s) :
    ∃ front, segments (join path s).toList = front ++ [s.toList] ∧
      (segments path.toList = front ∨ segments path.toList = front ++ [[]]) ∧
      ∀ c ∈ (join path s).toList, c ∈ path.toList ∨ c = '/' ∨ c ∈ s.toList := by
  unfold join
  rw [isAbsolute_of_isSegment hs, Bool.false_or, if_neg (by simpa using hpath)]
  split
  · next hslash =>
    obtain ⟨front, hfront⟩ := List.getLast?_eq_some_iff.mp hslash
    refine ⟨segments front, ?_, .inr ?_, ?_⟩
    · rw [String.toList_append, hfront, List.append_assoc, List.singleton_append, segments_append,
        segments_of_not_mem hs.1]
    · rw [hfront, segments_append]
      rfl
    · intro c hc
      rcases List.mem_append.mp (String.toList_append ▸ hc) with hc | hc
      · exact .inl hc
      · exact .inr (.inr hc)
  · have hlist : (path ++ "/" ++ s).toList = path.toList ++ '/' :: s.toList := by
      rw [String.toList_append, String.toList_append, List.append_assoc]
      rfl
    rw [hlist]
    refine ⟨segments path.toList, ?_, .inl rfl, ?_⟩
    · rw [segments_append, segments_of_not_mem hs.1]
    · intro c hc
      rcases List.mem_append.mp hc with hc | hc
      · exact .inl hc
      · exact .inr (List.mem_cons.mp hc)

/-! ### The directory above -/

theorem dropIdle_append {back : List (List Char)} (hback : ∀ s ∈ back, isIdle s = true) {name : List Char}
    (hname : isIdle name = false) (front : List (List Char)) : dropIdle (back ++ name :: front) = name :: front := by
  induction back with
  | nil =>
    rw [List.nil_append]
    cases front with
    | nil => rfl
    | cons s front =>
      rw [dropIdle, hname]
      · exact if_neg Bool.false_ne_true
      · exact List.cons_ne_nil _ _
  | cons s back ih =>
    obtain ⟨hs, hback⟩ := List.forall_mem_cons.mp hback
    rw [List.cons_append, dropIdle, if_pos hs, ih hback]
    simp

/-- Above all there is at least one segment, and what is dropped is idle. -/
theorem exists_dropIdle {ss : List (List Char)} (hne : ss ≠ []) :
    ∃ idle, ss = idle ++ dropIdle ss ∧ dropIdle ss ≠ [] ∧ ∀ s ∈ idle, isIdle s = true := by
  induction ss with
  | nil => exact absurd rfl hne
  | cons s ss ih =>
    cases ss with
    | nil => exact ⟨[], rfl, List.cons_ne_nil _ _, nofun⟩
    | cons s' ss =>
      rw [dropIdle]
      split
      · next hs =>
        obtain ⟨idle, hparts, hdrop, hidle⟩ := ih (List.cons_ne_nil _ _)
        exact ⟨s :: idle, by rw [List.cons_append, ← hparts], hdrop, List.forall_mem_cons.mpr ⟨hs, hidle⟩⟩
      · exact ⟨[], rfl, List.cons_ne_nil _ _, nofun⟩
      · simp

section

variable {front back : List (List Char)} {name : List Char} (h : segments path.toList = front ++ name :: back)
  (hname : isIdle name = false) (hback : ∀ s ∈ back, isIdle s = true)
include h hname hback

theorem dropIdle_segments : dropIdle (segments path.toList).reverse = name :: front.reverse := by
  rw [h, List.reverse_append, List.reverse_cons, List.append_assoc, List.singleton_append]
  exact dropIdle_append (fun s hs => hback s (List.mem_reverse.mp hs)) hname _

/-- Above a name at the front there is nothing that can be written. -/
theorem parent?_of_nil (hfront : front = []) : parent? path = some "" := by
  unfold parent?
  rw [dropIdle_segments h hname hback, hfront]
  dsimp only [List.reverse_nil]
  rw [(Bool.or_eq_false_iff.mp hname).1, if_neg Bool.false_ne_true]

theorem parent?_eq (hfront : front ≠ []) :
    parent? path = match dropIdle front.reverse with
      | [[]] => some "/"
      | ss => some (String.ofList (unite ss.reverse)) := by
  unfold parent?
  rw [dropIdle_segments h hname hback]
  split
  · next h => cases h
  · next h => exact absurd (List.reverse_eq_nil_iff.mp (List.cons.inj h).2) hfront
  · next h =>
    obtain ⟨-, rfl⟩ := List.cons.inj h
    rfl

/-- Above a name that stands behind another one there is the path that ends in that one. -/
theorem parent?_of_name {front' idle : List (List Char)} {name' : List Char} (hfront : front = front' ++ name' :: idle)
    (hname' : isIdle name' = false) (hidle : ∀ s ∈ idle, isIdle s = true) :
    parent? path = some (String.ofList (unite (front' ++ [name']))) := by
  have hlast : dropIdle front.reverse = name' :: front'.reverse := by
    rw [hfront, List.reverse_append, List.reverse_cons, List.append_assoc, List.singleton_append]
    exact dropIdle_append (fun s hs => hidle s (List.mem_reverse.mp hs)) hname' _
  rw [parent?_eq h hname hback (by simp [hfront]), hlast]
  split
  · next h =>
    rw [(List.cons.inj h).1] at hname'
    cases hname'
  · rw [List.reverse_cons, List.reverse_reverse]

/-- In any case there is what is in front of a name, with or without idle segments behind it. -/
theorem exists_parent (hfront : front ≠ []) : ∃ above keep idle idle', parent? path = some above ∧ above ≠ "" ∧
    front = keep ++ idle ∧ segments above.toList = keep ++ idle' ∧ (∀ s ∈ idle ++ idle', isIdle s = true) ∧
    ∀ c ∈ above.toList, c = '/' ∨ c ∈ path.toList := by
  obtain ⟨idle, hparts, hdrop, hidle⟩ := exists_dropIdle (mt List.reverse_eq_nil_iff.mp hfront)
  have hkeep : front = (dropIdle front.reverse).reverse ++ idle.reverse := by
    rw [← List.reverse_append, ← hparts, List.reverse_reverse]
  have hparent := parent?_eq h hname hback hfront
  generalize hss : dropIdle front.reverse = ss at hparent hkeep hdrop
  split at hparent
  · refine ⟨"/", [[]], idle.reverse, [[]], hparent, by decide, hkeep, rfl, ?_, ?_⟩
    · intro s hs
      rcases List.mem_append.mp hs with hs | hs
      · exact hidle s (List.mem_reverse.mp hs)
      · rw [List.mem_singleton.mp hs]
        rfl
    · exact fun c hc => .inl (List.mem_singleton.mp hc)
  · next hroot =>
    have hne : ss.reverse ≠ [] := mt List.reverse_eq_nil_iff.mp hdrop
    have hpath : segments path.toList = ss.reverse ++ (idle.reverse ++ name :: back) := by
      rw [h, hkeep, List.append_assoc]
    have hslash : ∀ s ∈ ss.reverse, '/' ∉ s := fun s hs =>
      not_mem_of_mem_segments (hpath ▸ List.mem_append_left _ hs)
    have hsegments : segments (String.ofList (unite ss.reverse)).toList = ss.reverse := by
      rw [String.toList_ofList, segments_unite hne hslash]
    refine ⟨_, ss.reverse, idle.reverse, [], hparent, ?_, hkeep, ?_, ?_, ?_⟩
    · intro hempty
      rw [hempty] at hsegments
      apply hroot
      exact (List.reverse_eq_iff.mp hsegments.symm).trans rfl
    · rw [hsegments, List.append_nil]
    · intro s hs
      rw [List.append_nil] at hs
      exact hidle s (List.mem_reverse.mp hs)
    · intro c hc
      right
      rw [← unite_segments path.toList, hpath]
      rw [String.toList_ofList] at hc
      exact mem_unite_append hc _

end

end ClusterAgents.Path
