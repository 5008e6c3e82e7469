import Mathlib.Data.List.Infix
import ClusterAgents.File.Path

/-!
# Where a path leads

A path leads along its segments, from the root or from wherever one is.  An idle segment leads nowhere, and a
segment of two points leads back by one segment; from the root there is no way back.  That is all a path says by
itself: links, which only a host knows of, are left out.

* `place` — the segments that are left of a path when it has been followed; that of the root is empty, so that
  the places of absolute paths begin with an empty segment;
* `place_join` — a path behind another one leads on from where that one leads, unless it is absolute;
* `IsSegment`, `place_join_segment` — a name that is nothing but one segment leads one segment further;
* `Below` — a path that leads to somewhere below a directory.
-/

namespace ClusterAgents.Path

/-! ### segments -/

theorem segments_ne_nil (cs : List Char) : segments cs ≠ [] := by
  cases cs with
  | nil => exact List.cons_ne_nil _ _
  | cons c cs =>
    rw [segments]
    split
    · exact List.cons_ne_nil _ _
    · split <;> exact List.cons_ne_nil _ _

/-- A slash divides segments from segments. -/
theorem segments_append (cs ds : List Char) : segments (cs ++ '/' :: ds) = segments cs ++ segments ds := by
  induction cs with
  | nil => rfl
  | cons c cs ih =>
    rw [List.cons_append, segments, segments]
    split
    · rw [ih, List.cons_append]
    · obtain ⟨s, ss, hs⟩ := List.exists_cons_of_ne_nil (segments_ne_nil cs)
      rw [ih, hs]
      rfl

theorem segments_of_not_mem {cs : List Char} (h : '/' ∉ cs) : segments cs = [cs] := by
  induction cs with
  | nil => rfl
  | cons c cs ih =>
    obtain ⟨hc, hcs⟩ := not_or.mp (mt List.mem_cons.mpr h)
    rw [segments, if_neg (Ne.symm hc), ih hcs]

/-! ### places -/

/-- The segment that leads back. -/
def back : List Char := ['.', '.']

/-- One segment back.  The root stays where it is, and where there is nothing to go back over the way back is
kept. -/
def climb (here : List (List Char)) : List (List Char) :=
  match here.getLast? with
  | none => [back]
  | some s => if s.isEmpty then here else if s = back then here ++ [back] else here.dropLast

def follow (here : List (List Char)) (s : List Char) : List (List Char) :=
  if isIdle s then here else if s = back then climb here else here ++ [s]

/-- Where the segments of a path lead to. -/
def trail (here : List (List Char)) (p : String) : List (List Char) := (segments p.toList).foldl follow here

/-- **Where a path leads.** -/
def place (p : String) : List (List Char) := trail (if isAbsolute p then [[]] else []) p

example : place "/w/../scratch//./c" = [[], "scratch".toList, ['c']] := by decide

theorem trail_empty (here : List (List Char)) : trail here "" = here := rfl

theorem trail_slash (here : List (List Char)) (p q : String) :
    trail here (p ++ "/" ++ q) = trail (trail here p) q := by
  have hlist : (p ++ "/" ++ q).toList = p.toList ++ '/' :: q.toList := by simp
  rw [trail, hlist, segments_append, List.foldl_append]
  rfl

theorem ne_empty_of_isAbsolute {p : String} (h : isAbsolute p = true) : p ≠ "" := by
  rintro rfl
  cases h

theorem isAbsolute_append {p : String} (hp : p ≠ "") (q : String) : isAbsolute (p ++ q) = isAbsolute p := by
  unfold isAbsolute
  rw [String.toList_append, List.head?_append_of_ne_nil _ (mt String.toList_eq_nil_iff.mp hp)]

theorem place_slash {p : String} (hp : p ≠ "") (q : String) : place (p ++ "/" ++ q) = trail (place p) q := by
  rw [place, place, trail_slash, String.append_assoc, isAbsolute_append hp]

/-- A slash at the end of a path leads nowhere. -/
theorem place_append_of_slash {p : String} (hp : p.toList.getLast? = some '/') (q : String) :
    place (p ++ q) = trail (place p) q := by
  obtain ⟨cs, hcs⟩ := List.getLast?_eq_some_iff.mp hp
  obtain ⟨base, rfl⟩ : ∃ base, p = base ++ "/" :=
    ⟨String.ofList cs, by rw [← String.toList_inj]; simp [hcs]⟩
  have hne : base ++ "/" ≠ "" := by
    intro e
    rw [e] at hp
    cases hp
  have hend (here : List (List Char)) : trail here (base ++ "/") = trail here base := by
    simpa [trail_empty] using trail_slash here base ""
  rw [place, place, isAbsolute_append hne, trail_slash, hend]

/-- **A path behind another one** leads on from there. -/
theorem place_join (base : String) {p : String} (hp : isAbsolute p = false) :
    place (join base p) = trail (place base) p := by
  unfold join
  split
  · next h =>
    have hbase : base = "" := by simpa [hp] using h
    rw [hbase, place, hp]
    rfl
  · next h =>
    have hbase : base ≠ "" := fun e => h (by simp [e])
    split
    · next hslash => exact place_append_of_slash hslash p
    · exact place_slash hbase p

theorem join_of_isAbsolute (base : String) {p : String} (hp : isAbsolute p = true) : join base p = p := by
  rw [join, hp]
  rfl

/-! ### single segments -/

/-- A name that is one segment of a path, and leads on. -/
def IsSegment (s : String) : Prop := '/' ∉ s.toList ∧ isIdle s.toList = false ∧ s.toList ≠ back

instance (s : String) : Decidable (IsSegment s) := inferInstanceAs (Decidable (_ ∧ _ ∧ _))

/-- A name in which something stands beside points and slashes is one segment, if no slash does. -/
theorem isSegment_of_mem {s : String} (hs : '/' ∉ s.toList) {c : Char} (hc : c ∈ s.toList) (hne : c ≠ '.') :
    IsSegment s := by
  refine ⟨hs, ?_, ?_⟩
  · rw [isIdle, Bool.or_eq_false_iff, List.isEmpty_eq_false_iff, beq_eq_false_iff_ne]
    refine ⟨List.ne_nil_of_mem hc, fun e => ?_⟩
    rw [e] at hc
    exact hne (List.mem_singleton.mp hc)
  · intro e
    rw [e] at hc
    simp [back, hne] at hc

theorem isAbsolute_of_isSegment {s : String} (h : IsSegment s) : isAbsolute s = false := by
  rw [isAbsolute, decide_eq_false_iff_not]
  exact fun e => h.1 (List.mem_of_head? e)

theorem trail_segment (here : List (List Char)) {s : String} (h : IsSegment s) :
    trail here s = here ++ [s.toList] := by
  rw [trail, segments_of_not_mem h.1, List.foldl_cons, List.foldl_nil, follow, h.2.1, if_neg Bool.false_ne_true,
    if_neg h.2.2]

/-- **A single segment** leads one segment further. -/
theorem place_join_segment (base : String) {s : String} (h : IsSegment s) :
    place (join base s) = place base ++ [s.toList] := by
  rw [place_join base (isAbsolute_of_isSegment h), trail_segment _ h]

/-! ### below a directory -/

/-- A path that leads to somewhere below a directory. -/
def Below (directory p : String) : Prop := ∃ rest ≠ [], place p = place directory ++ rest

theorem place_prefix_of_below {directory p : String} (h : Below directory p) : place directory <+: place p := by
  obtain ⟨rest, -, hrest⟩ := h
  rw [hrest]
  exact List.prefix_append _ _

theorem prefix_trail {here : List (List Char)} {p : String} (h : back ∉ segments p.toList) :
    here <+: trail here p := by
  have hall : ∀ ss : List (List Char), back ∉ ss → here <+: ss.foldl follow here := by
    intro ss hss
    induction ss using List.reverseRecOn with
    | nil => exact List.prefix_rfl
    | append_singleton ss s ih =>
      rw [List.mem_append, not_or, List.mem_singleton] at hss
      rw [List.foldl_append, List.foldl_cons, List.foldl_nil, follow]
      split
      · exact ih hss.1
      · rw [if_neg (Ne.symm hss.2)]
        exact (ih hss.1).trans (List.prefix_append _ _)
  exact hall _ h

end ClusterAgents.Path
