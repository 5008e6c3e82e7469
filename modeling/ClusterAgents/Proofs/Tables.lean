import Mathlib.Data.List.Perm.Basic
import Mathlib.Data.List.Nodup
import ClusterAgents.Table

/-!
# The entries of a table

A table that lists no key twice is the same as the list of its entries: a key has a value exactly if
the table has that entry (`Table.get?_eq_some_iff`).  Below that stand the two facts about lists which
the changes of a table come down to: an entry under a new key goes to the end, and taking some keys out
of entries that are told apart by their keys leaves the others.
-/

namespace ClusterAgents

namespace Table

variable {κ ν : Type} [DecidableEq κ]

def keys (t : Table κ ν) : List κ := t.entries.map (·.1)

@[simp] theorem get?_empty (k : κ) : ({} : Table κ ν).get? k = none := rfl

theorem mem_entries_of_get? {t : Table κ ν} {k : κ} {v : ν} (h : t.get? k = some v) :
    (k, v) ∈ t.entries := by
  obtain ⟨xs, ys, e, -⟩ := List.lookup_eq_some_iff.mp h
  rw [e]
  simp

theorem get?_eq_none_iff {t : Table κ ν} {k : κ} : t.get? k = none ↔ k ∉ t.keys := by
  simp only [get?, keys, List.lookup_eq_none_iff, List.mem_map, bne_iff_ne]
  constructor
  · rintro h ⟨e, he, rfl⟩
    exact h e he rfl
  · rintro h e he rfl
    exact h ⟨e, he, rfl⟩

theorem contains_iff {t : Table κ ν} {k : κ} : t.contains k = true ↔ k ∈ t.keys := by
  rw [contains, Option.isSome_iff_ne_none, ne_eq, get?_eq_none_iff, not_not]

/-- Where no key stands twice, the value of a key is that of its entry. -/
theorem get?_eq_some_iff {t : Table κ ν} (ht : t.keys.Nodup) {k : κ} {v : ν} :
    t.get? k = some v ↔ (k, v) ∈ t.entries := by
  refine ⟨mem_entries_of_get?, fun h => ?_⟩
  cases hg : t.get? k with
  | none => exact absurd (List.mem_map_of_mem h) (get?_eq_none_iff.mp hg)
  | some w =>
    have e : (k, w) = (k, v) := List.inj_on_of_nodup_map ht (mem_entries_of_get? hg) h rfl
    rw [(Prod.mk.inj e).2]

/-- Entries are taken out by their keys. -/
theorem lookup_filter (keep : κ → Bool) (entries : List (κ × ν)) (k : κ) :
    (entries.filter fun e => keep e.1).lookup k = if keep k then entries.lookup k else none := by
  induction entries with
  | nil => simp
  | cons e entries ih =>
    obtain ⟨k', v⟩ := e
    by_cases hk : k = k'
    · subst hk
      cases hkeep : keep k with
      | true => simp [hkeep]
      | false => simpa [hkeep] using ih
    · have hne : (k == k') = false := beq_eq_false_iff_ne.mpr hk
      cases hkeep : keep k' with
      | true => simpa [hkeep, List.lookup_cons, hne] using ih
      | false => simpa [hkeep, List.lookup_cons, hne] using ih

theorem get?_erase (t : Table κ ν) (k k' : κ) :
    (t.erase k).get? k' = if k' = k then none else t.get? k' := by
  split
  · next h => rw [h, get?_erase_self]
  · next h => exact get?_erase_of_ne h t

theorem get?_insert (t : Table κ ν) (k k' : κ) (v : ν) :
    (t.insert k v).get? k' = if k' = k then some v else t.get? k' := by
  split
  · next h => rw [h, get?_insert_self]
  · next h => exact get?_insert_of_ne h t v

/-- An entry under a key that is new goes to the end. -/
theorem insert_entries {t : Table κ ν} {k : κ} (h : k ∉ t.keys) (v : ν) :
    (t.insert k v).entries = t.entries ++ [(k, v)] := by
  have hk : ∀ e ∈ t.entries, decide (e.1 ≠ k) = true := fun e he =>
    decide_eq_true fun hek => h (hek ▸ List.mem_map_of_mem he)
  simp only [insert, erase]
  rw [List.filter_eq_self.mpr hk]

theorem erase_subset (t : Table κ ν) (k : κ) : (t.erase k).entries ⊆ t.entries := List.filter_sublist.subset

theorem keys_erase (t : Table κ ν) (k : κ) : (t.erase k).keys = t.keys.filter (· ≠ k) := by
  simp only [keys, erase, List.filter_map]
  rfl

@[simp] theorem keys_modify (t : Table κ ν) (k : κ) (f : ν → ν) : (t.modify k f).keys = t.keys := by
  simp only [keys, modify, List.map_map]
  rfl

theorem nodup_keys_erase {t : Table κ ν} (h : t.keys.Nodup) (k : κ) : (t.erase k).keys.Nodup := by
  rw [keys_erase]
  exact h.filter _

theorem nodup_keys_insert {t : Table κ ν} (h : t.keys.Nodup) (k : κ) (v : ν) : (t.insert k v).keys.Nodup := by
  have hk : k ∉ (t.erase k).keys := by simp [keys_erase]
  have hkeys : (t.insert k v).keys = (t.erase k).keys ++ [k] := by simp [keys, insert]
  rw [hkeys]
  exact List.nodup_append'.mpr ⟨nodup_keys_erase h k, List.nodup_singleton k, by simpa using hk⟩

theorem foldl_erase_subset (t : Table κ ν) (ks : List κ) :
    (ks.foldl (fun t k => t.erase k) t).entries ⊆ t.entries := by
  induction ks generalizing t with
  | nil => exact List.Subset.refl _
  | cons k ks ih => exact List.Subset.trans (ih (t.erase k)) (t.erase_subset k)

theorem mem_insert {t : Table κ ν} {k : κ} {v : ν} {e : κ × ν} (h : e ∈ (t.insert k v).entries) :
    e ∈ t.entries ∨ e = (k, v) := by
  rcases List.mem_append.mp h with h | h
  · exact .inl (t.erase_subset k h)
  · exact .inr (List.mem_singleton.mp h)

/-- Taking a key out several times over the list of keys. -/
theorem get?_foldl_erase (t : Table κ ν) (ks : List κ) (k : κ) :
    (ks.foldl (fun t k => t.erase k) t).get? k = if k ∈ ks then none else t.get? k := by
  induction ks generalizing t with
  | nil => simp
  | cons k' ks ih =>
    rw [List.foldl_cons, ih, get?_erase]
    by_cases h : k = k' <;> simp [h]

/-- Setting several keys to one value. -/
theorem get?_foldl_insert (t : Table κ ν) (ks : List κ) (v : ν) (k : κ) :
    (ks.foldl (fun t k => t.insert k v) t).get? k = if k ∈ ks then some v else t.get? k := by
  induction ks generalizing t with
  | nil => simp
  | cons k' ks ih =>
    rw [List.foldl_cons, ih, get?_insert]
    by_cases h : k = k' <;> simp [h]

/-- Changing the values of several keys. -/
theorem get?_foldl_modify (t : Table κ ν) (ks : List κ) (f : ν → ν) (hf : ∀ v, f (f v) = f v)
    (k : κ) :
    (ks.foldl (fun t k => t.modify k f) t).get? k =
      (t.get? k).map fun v => if k ∈ ks then f v else v := by
  induction ks generalizing t with
  | nil => simp
  | cons k' ks ih =>
    rw [List.foldl_cons, ih, get?_modify, Option.map_map]
    congr 1
    funext v
    by_cases h : k = k' <;> by_cases h' : k ∈ ks <;> simp [h, h', hf]

theorem entries_foldl_modify (t : Table κ ν) (ks : List κ) (f : ν → ν) (hf : ∀ v, f (f v) = f v) :
    (ks.foldl (fun t k => t.modify k f) t).entries =
      t.entries.map fun e => (e.1, if e.1 ∈ ks then f e.2 else e.2) := by
  induction ks generalizing t with
  | nil => simp
  | cons k ks ih =>
    rw [List.foldl_cons, ih, modify, List.map_map]
    refine List.map_congr_left fun e _ => ?_
    by_cases h : e.1 = k <;> by_cases h' : e.1 ∈ ks <;> simp [h, h', hf]

end Table

/-! ### entries that are told apart by their keys -/

section Keyed

variable {κ ν : Type} [DecidableEq κ]

/-- Taking out the keys of a part of the entries takes out that part. -/
theorem filter_keys_perm {entries xs part ys : List (κ × ν)}
    (h : entries.Perm (xs ++ (part ++ ys))) (hk : (entries.map (·.1)).Nodup) :
    (entries.filter fun e => e.1 ∉ part.map (·.1)).Perm (xs ++ ys) := by
  have hk' : ((xs ++ (part ++ ys)).map (·.1)).Nodup := (h.map _).nodup_iff.mp hk
  simp only [List.map_append] at hk'
  obtain ⟨-, hpy, hx⟩ := List.nodup_append'.mp hk'
  obtain ⟨-, -, hpart⟩ := List.nodup_append'.mp hpy
  refine (h.filter _).trans ?_
  rw [List.filter_append, List.filter_append]
  have hxs : xs.filter (fun e => decide (e.1 ∉ part.map (·.1))) = xs :=
    List.filter_eq_self.mpr fun e he => decide_eq_true fun hm =>
      hx (List.mem_map_of_mem he) (List.mem_append_left _ hm)
  have hys : ys.filter (fun e => decide (e.1 ∉ part.map (·.1))) = ys :=
    List.filter_eq_self.mpr fun e he => decide_eq_true fun hm => hpart hm (List.mem_map_of_mem he)
  have hp : part.filter (fun e => decide (e.1 ∉ part.map (·.1))) = [] :=
    List.filter_eq_nil_iff.mpr fun e he => by simpa using ⟨e.2, he⟩
  rw [hxs, hys, hp, List.nil_append]

/-- A part of the entries and what is left without its keys are all of them. -/
theorem part_filter_perm {entries xs part ys : List (κ × ν)}
    (h : entries.Perm (xs ++ (part ++ ys))) (hk : (entries.map (·.1)).Nodup) :
    entries.Perm (part ++ entries.filter fun e => e.1 ∉ part.map (·.1)) := by
  have hp : (xs ++ (part ++ ys)).Perm (part ++ (xs ++ ys)) := by
    rw [← List.append_assoc, ← List.append_assoc]
    exact List.perm_append_comm.append_right ys
  exact (h.trans hp).trans ((filter_keys_perm h hk).symm.append_left part)

end Keyed

end ClusterAgents
