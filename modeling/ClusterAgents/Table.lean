/-!
# Finite maps

A `Table` maps some keys to values.  It lists its entries, the one that was set last behind the
others, and no key twice as long as it is built by `insert`.
-/

namespace ClusterAgents

/-- A finite map.  Entries stand in the order in which they were set last. -/
structure Table (κ ν : Type) where
  entries : List (κ × ν) := []
  deriving Repr, DecidableEq

namespace Table

variable {κ ν : Type} [DecidableEq κ]

def get? (t : Table κ ν) (k : κ) : Option ν := t.entries.lookup k

def contains (t : Table κ ν) (k : κ) : Bool := (t.get? k).isSome

def erase (t : Table κ ν) (k : κ) : Table κ ν := ⟨t.entries.filter (·.1 ≠ k)⟩

def insert (t : Table κ ν) (k : κ) (v : ν) : Table κ ν := ⟨(t.erase k).entries ++ [(k, v)]⟩

def modify (t : Table κ ν) (k : κ) (f : ν → ν) : Table κ ν :=
  ⟨t.entries.map fun (k', v) => (k', if k' = k then f v else v)⟩

def size (t : Table κ ν) : Nat := t.entries.length

def values (t : Table κ ν) : List ν := t.entries.map (·.2)

/-- The last of equal keys counts. -/
def ofList (kvs : List (κ × ν)) : Table κ ν := kvs.foldl (fun t (k, v) => t.insert k v) {}

/-! ### what each operation does to the values -/

theorem lookup_filter_self (k : κ) (entries : List (κ × ν)) :
    (entries.filter (·.1 ≠ k)).lookup k = none := by
  induction entries with
  | nil => rfl
  | cons e rest ih =>
    obtain ⟨k', v⟩ := e
    by_cases h : k' = k
    · simpa [List.filter_cons, h] using ih
    · have hb : (k == k') = false := by simpa using Ne.symm h
      simpa [List.filter_cons, h, List.lookup_cons, hb] using ih

theorem lookup_filter_of_ne {k k' : κ} (h : k' ≠ k) (entries : List (κ × ν)) :
    (entries.filter (·.1 ≠ k)).lookup k' = entries.lookup k' := by
  induction entries with
  | nil => rfl
  | cons e rest ih =>
    obtain ⟨j, v⟩ := e
    by_cases hj : j = k
    · have hb : (k' == j) = false := by simpa [hj] using h
      simpa [List.filter_cons, hj, List.lookup_cons, show (k' == k) = false by simpa using h] using ih
    · cases hb : (k' == j)
      · simpa [List.filter_cons, hj, List.lookup_cons, hb] using ih
      · simp [hj, List.lookup_cons, hb]

theorem lookup_append_single (k k' : κ) (v : ν) (entries : List (κ × ν)) :
    (entries ++ [(k, v)]).lookup k' =
      ((entries.lookup k').or (if k' = k then some v else none)) := by
  induction entries with
  | nil =>
    by_cases h : k' = k
    · simp [h]
    · have hb : (k' == k) = false := by simpa using h
      simp [List.lookup_cons, hb, h]
  | cons e rest ih =>
    obtain ⟨j, w⟩ := e
    cases hb : (k' == j) <;> simp [List.lookup_cons, hb, ih]

@[simp] theorem get?_erase_self (t : Table κ ν) (k : κ) : (t.erase k).get? k = none :=
  lookup_filter_self k t.entries

theorem get?_erase_of_ne {k k' : κ} (h : k' ≠ k) (t : Table κ ν) :
    (t.erase k).get? k' = t.get? k' :=
  lookup_filter_of_ne h t.entries

@[simp] theorem get?_insert_self (t : Table κ ν) (k : κ) (v : ν) :
    (t.insert k v).get? k = some v := by
  have h : (t.erase k).entries.lookup k = none := lookup_filter_self k t.entries
  simp [get?, insert, lookup_append_single, h]

theorem get?_insert_of_ne {k k' : κ} (h : k' ≠ k) (t : Table κ ν) (v : ν) :
    (t.insert k v).get? k' = t.get? k' := by
  have e : (t.erase k).entries.lookup k' = t.entries.lookup k' := lookup_filter_of_ne h t.entries
  simp [get?, insert, lookup_append_single, h, e]

theorem get?_modify (t : Table κ ν) (k k' : κ) (f : ν → ν) :
    (t.modify k f).get? k' = (t.get? k').map fun v => if k' = k then f v else v := by
  obtain ⟨entries⟩ := t
  induction entries with
  | nil => rfl
  | cons e rest ih =>
    obtain ⟨j, v⟩ := e
    simp only [get?, modify, List.map_cons, List.lookup_cons] at ih ⊢
    cases hb : (k' == j)
    · simpa using ih
    · have hj : k' = j := by simpa using hb
      subst hj
      simp

end Table

end ClusterAgents
