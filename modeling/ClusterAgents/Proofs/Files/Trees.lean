import Mathlib.Data.List.Infix
import ClusterAgents.File.Tree
import ClusterAgents.Proofs.Tables

/-!
# What stands where

A tree is known by what stands at each place.  In a tree there is a directory above everything, and where something is
to be made no file may be in the way.

* `IsTree`, `Open` — a directory above everything, and no file in the way;
* `node?_put`, `node?_drop`, `node?_clear` — what stands where after a change;
* `without`, `Removed`, `Ensured` — a tree without all that is at a place, and with a directory at it;
* `Keeps` — a tree that has the directories of another one.
-/

namespace ClusterAgents.FileTree

/-! ### What stands where -/

/-- A directory is above everything. -/
def IsTree (t : FileTree) : Prop := ∀ p s, t.node? (p ++ [s]) ≠ none → t.node? p = some .directory

/-- Neither at a place nor above it is a file. -/
def Open (t : FileTree) (place : Place) : Prop := ∀ p content, p <+: place → t.node? p ≠ some (.file content)

@[simp] theorem node?_nil (t : FileTree) : t.node? [] = some .directory := rfl

variable {t t' : FileTree} {p q : Place} {node : FileNode}

theorem node?_of_ne (t : FileTree) (hp : p ≠ []) : t.node? p = t.nodes.get? p := by
  unfold node?
  rw [if_neg (by simpa using hp)]

theorem node?_put (hp : p ≠ []) (t : FileTree) (node : FileNode) (q : Place) :
    (t.put p node).node? q = if q = p then some node else t.node? q := by
  by_cases hq : q = []
  · rw [hq, if_neg (Ne.symm hp)]
    rfl
  · rw [node?_of_ne _ hq, node?_of_ne _ hq]
    exact Table.get?_insert _ _ _ _

theorem node?_drop (hp : p ≠ []) (t : FileTree) (q : Place) :
    (t.drop p).node? q = if q = p then none else t.node? q := by
  by_cases hq : q = []
  · rw [hq, if_neg (Ne.symm hp)]
    rfl
  · rw [node?_of_ne _ hq, node?_of_ne _ hq]
    exact Table.get?_erase _ _ _

theorem node?_clear (t : FileTree) (p q : Place) :
    (t.clear p).node? q = if p <+: q ∧ q ≠ p then none else t.node? q := by
  by_cases hq : q = []
  · subst hq
    rw [if_neg (fun h => h.2 (List.prefix_nil.mp h.1).symm)]
    rfl
  · rw [node?_of_ne _ hq, node?_of_ne _ hq]
    have hbelow : (p.isPrefixOf q && decide (p.length < q.length)) = true ↔ p <+: q ∧ q ≠ p := by
      rw [Bool.and_eq_true, List.isPrefixOf_iff_prefix, decide_eq_true_iff]
      constructor
      · rintro ⟨hpre, hlt⟩
        exact ⟨hpre, fun h => Nat.lt_irrefl _ (h ▸ hlt)⟩
      · rintro ⟨hpre, hne⟩
        exact ⟨hpre, Nat.lt_of_le_of_ne hpre.length_le fun h => hne (hpre.eq_of_length h).symm⟩
    have hlookup := Table.lookup_filter (fun q : Place => !(p.isPrefixOf q && decide (p.length < q.length)))
      t.nodes.entries q
    refine hlookup.trans ?_
    by_cases h : p <+: q ∧ q ≠ p
    · rw [if_pos h, hbelow.mpr h]
      rfl
    · rw [if_neg h, Bool.eq_false_iff.mpr (mt hbelow.mp h)]
      rfl

namespace IsTree

theorem above (h : t.IsTree) (hq : q ≠ []) (hnode : t.node? (p ++ q) ≠ none) : t.node? p = some .directory := by
  induction q using List.reverseRecOn with
  | nil => exact absurd rfl hq
  | append_singleton q s ih =>
    rw [← List.append_assoc] at hnode
    have hdir := h _ _ hnode
    by_cases hq : q = []
    · rwa [hq, List.append_nil] at hdir
    · exact ih hq (by rw [hdir]; exact Option.some_ne_none _)

theorem directory (h : t.IsTree) (hnode : t.node? (p ++ q) = some .directory) : t.node? p = some .directory := by
  by_cases hq : q = []
  · rwa [hq, List.append_nil] at hnode
  · exact h.above hq (by rw [hnode]; exact Option.some_ne_none _)

theorem below (h : t.IsTree) (hp : t.node? p = none) : t.node? (p ++ q) = none := by
  by_contra hnode
  by_cases hq : q = []
  · rw [hq, List.append_nil] at hnode
    exact hnode hp
  · have := h.above hq hnode
    rw [hp] at this
    cases this

end IsTree

namespace Open

theorem above (h : t.Open (p ++ q)) : t.Open p :=
  fun _ content hpre => h _ content (hpre.trans (List.prefix_append _ _))

/-- No file is in the way to a directory. -/
theorem of_directory (ht : t.IsTree) (hp : t.node? p = some .directory) : t.Open p := by
  rintro q content ⟨rest, rfl⟩ hfile
  rw [ht.directory hp] at hfile
  cases hfile

/-- What is not a file is a directory, if it is there. -/
theorem cases (h : t.Open p) (hq : q <+: p) : t.node? q = none ∨ t.node? q = some .directory := by
  cases hnode : t.node? q with
  | none => exact .inl rfl
  | some node =>
    cases node with
    | directory => exact .inr rfl
    | file content => exact absurd hnode (h q content hq)

/-- No file is in the way that was not. -/
theorem mono (h : t.Open p)
    (hfiles : ∀ q content, q <+: p → t'.node? q = some (.file content) → t.node? q = some (.file content)) : t'.Open p :=
  fun q content hq hfile => h q content hq (hfiles q content hq hfile)

end Open

/-- A tree can be told by its entries. -/
theorem isTree_of_entries (h : ∀ e ∈ t.nodes.entries, t.node? e.1.dropLast = some .directory) : t.IsTree := by
  intro p s hnode
  rw [node?_of_ne t (by simp)] at hnode
  obtain ⟨node, hget⟩ := Option.ne_none_iff_exists'.mp hnode
  have hdir := h _ (Table.mem_entries_of_get? hget)
  rwa [List.dropLast_concat] at hdir

/-- Something may be put at a free name in a directory. -/
theorem isTree_put {s : String} (ht : t.IsTree) (hdir : t.node? p = some .directory) (hnone : t.node? (p ++ [s]) = none)
    (node : FileNode) : (t.put (p ++ [s]) node).IsTree := by
  have hput (q : Place) := node?_put (p := p ++ [s]) (by simp) t node q
  intro q s' hq
  rw [hput] at hq ⊢
  by_cases hlast : q ++ [s'] = p ++ [s]
  · obtain ⟨rfl, -⟩ := List.append_inj' hlast rfl
    rw [if_neg (by simp), hdir]
  · rw [if_neg hlast] at hq
    have habove := ht q s' hq
    by_cases hfull : q = p ++ [s]
    · rw [hfull, hnone] at habove
      cases habove
    · rw [if_neg hfull, habove]

/-! ### Directories that are made and taken out -/

/-- A tree that has the directories of another one. -/
def Keeps (t u : FileTree) : Prop := ∀ p, t.node? p = some .directory → u.node? p = some .directory

/-- What stands where when a directory and those above it are there. -/
def Ensured (t : FileTree) (place : Place) (t' : FileTree) : Prop :=
  ∀ q, t'.node? q = if q <+: place then some .directory else t.node? q

namespace Ensured

variable {place : Place}

theorem isTree (h : Ensured t place t') (ht : t.IsTree) : t'.IsTree := by
  intro p s hnode
  rw [h] at hnode ⊢
  split
  · rfl
  · next hp =>
    rw [if_neg (fun hs => hp ((List.prefix_append _ _).trans hs))] at hnode
    exact ht p s hnode

theorem isOpen (h : Ensured t place t') (hopen : t.Open p) : t'.Open p := by
  refine hopen.mono fun q content _ hfile => ?_
  rw [h] at hfile
  split at hfile
  · cases hfile
  · exact hfile

theorem keeps (h : Ensured t place t') : Keeps t t' := by
  intro q hq
  rw [h, hq, ite_self]

theorem refl (ht : t.IsTree) (hdir : t.node? place = some .directory) : Ensured t place t := by
  intro q
  split
  · next hq =>
    obtain ⟨rest, rfl⟩ := hq
    exact ht.directory hdir
  · rfl

theorem concat {t₁ : FileTree} {s : String} (h : Ensured t p t₁)
    (hlast : ∀ q, t'.node? q = if q = p ++ [s] then some .directory else t₁.node? q) : Ensured t (p ++ [s]) t' := by
  intro q
  rw [hlast, h]
  by_cases hq : q = p ++ [s]
  · rw [if_pos hq, hq, if_pos List.prefix_rfl]
  · by_cases hpre : q <+: p
    · rw [if_neg hq, if_pos hpre, if_pos (hpre.trans (List.prefix_append _ _))]
    · rw [if_neg hq, if_neg hpre, if_neg (fun h => (List.prefix_concat_iff.mp h).elim hq hpre)]

end Ensured

/-- What stands where when all that is at a place has been taken out. -/
def Removed (t : FileTree) (place : Place) (t' : FileTree) : Prop :=
  ∀ q, t'.node? q = if place <+: q then none else t.node? q

/-- The tree without all that is at a place. -/
def without (t : FileTree) (place : Place) : FileTree := (t.clear place).drop place

theorem removed_without {place : Place} (hplace : place ≠ []) (t : FileTree) : Removed t place (t.without place) := by
  intro q
  unfold without
  rw [node?_drop hplace, node?_clear]
  by_cases hq : q = place
  · rw [if_pos hq, hq, if_pos List.prefix_rfl]
  · by_cases hpre : place <+: q
    · rw [if_neg hq, if_pos ⟨hpre, hq⟩, if_pos hpre]
    · rw [if_neg hq, if_neg (fun h => hpre h.1), if_neg hpre]

namespace Removed

variable {place : Place}

theorem isTree (h : Removed t place t') (ht : t.IsTree) : t'.IsTree := by
  intro p s hnode
  rw [h] at hnode ⊢
  split at hnode
  · exact absurd rfl hnode
  · next hp =>
    rw [if_neg fun hpre => hp (hpre.trans (List.prefix_append _ _))]
    exact ht p s hnode

theorem isOpen (h : Removed t place t') (hopen : t.Open p) : t'.Open p := by
  refine hopen.mono fun q content _ hfile => ?_
  rw [h] at hfile
  split at hfile
  · cases hfile
  · exact hfile

/-- What is not there need not be taken out. -/
theorem refl (ht : t.IsTree) (hnone : t.node? place = none) : Removed t place t := by
  intro q
  split
  · next hq =>
    obtain ⟨rest, rfl⟩ := hq
    exact ht.below hnone
  · rfl

/-- Directories that are there without what is at a place are there with whatever is at it. -/
theorem keeps {u : FileTree} (h : Removed t place t')
    (hu : ∀ q, ¬ place <+: q → t.node? q = some .directory → u.node? q = some .directory) : Keeps t' u := by
  intro q hq
  rw [h] at hq
  split at hq
  · cases hq
  · next hpre => exact hu q hpre hq

end Removed

/-- A directory that is emptied. -/
theorem isTree_clear (ht : t.IsTree) (hdir : t.node? p = some .directory) : (t.clear p).IsTree := by
  intro q s hnode
  rw [node?_clear] at hnode ⊢
  split at hnode
  · exact absurd rfl hnode
  · next hq =>
    rw [if_neg fun h => hq ⟨h.1.trans (List.prefix_append _ _), ?_⟩]
    · exact ht q s hnode
    · rintro rfl
      exact absurd h.1.length_le (by simp)

end ClusterAgents.FileTree
