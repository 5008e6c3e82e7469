/-!
# Named values in order

`Fields` are values that have names, sorted by name, each name once.  Names are compared character by
character; that is the order of the bytes they are encoded in as well.
-/

namespace ClusterAgents

/-- Values sorted by name. -/
abbrev Fields (α : Type) := List (String × α)

namespace Fields

variable {α : Type}

def get? (name : String) (fields : Fields α) : Option α := fields.lookup name

/-- Gives a name a value and keeps the names sorted. -/
def set (name : String) (value : α) : Fields α → Fields α
  | [] => [(name, value)]
  | (n, v) :: rest =>
    if name = n then (name, value) :: rest
    else if name < n then (name, value) :: (n, v) :: rest
    else (n, v) :: set name value rest

/-- The values may come in any order.  The last of equal names counts. -/
def ofList (fields : List (String × α)) : Fields α :=
  fields.foldl (fun acc (n, v) => set n v acc) []

theorem get?_set_self (name : String) (value : α) (fields : Fields α) :
    get? name (set name value fields) = some value := by
  induction fields with
  | nil => simp [get?, set]
  | cons f rest ih =>
    obtain ⟨n, v⟩ := f
    simp only [set]
    split
    · simp [get?]
    · next h =>
      have hb : (name == n) = false := by simpa using h
      split
      · simp [get?]
      · simpa [get?, List.lookup_cons, hb] using ih

theorem get?_set_of_ne {name other : String} (h : other ≠ name) (value : α) (fields : Fields α) :
    get? other (set name value fields) = get? other fields := by
  have hb : (other == name) = false := by simpa using h
  induction fields with
  | nil => simp [get?, set, List.lookup_cons, hb]
  | cons f rest ih =>
    obtain ⟨n, v⟩ := f
    simp only [set]
    split
    · next e => subst e; simp [get?, List.lookup_cons, hb]
    · split
      · simp [get?, List.lookup_cons, hb]
      · simp only [get?, List.lookup_cons] at ih ⊢
        rw [ih]

end Fields

end ClusterAgents
