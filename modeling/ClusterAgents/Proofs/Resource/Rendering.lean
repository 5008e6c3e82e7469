import ClusterAgents.Proofs.Resource.Amounts

/-!
# What requirements are resolved to

Amounts are multiplied, checked against 64 bits and divided; a table may define a name more than once; and
the first requirement that cannot be resolved ends everything.  Here the result is said without any of that:
from the definitions that the table was made of, with amounts that know no bounds.

* `Definition` — the ways in which a resource is defined, and `Definition.last?`, the one that counts;
* `Fits`, `Offends`, `Says` — what becomes of one requirement;
* `Specified` — what becomes of all of them, and `renderAll_specified`: they do.
-/

namespace ClusterAgents

open Text

/-- The ways in which a resource is defined. -/
inductive Definition
  | count (name : String)
  | memory (name unit : String)
  | duration (name : String)
  | fixed (d : Definition)

namespace Definition

def resource : Definition → Resource
  | count name => .count name
  | memory name unit => .memory name unit
  | duration name => .duration name
  | fixed d => d.resource.fixed

def name : Definition → String
  | count name => name
  | memory name _ => name
  | duration name => name
  | fixed d => d.name

/-- Whether amounts may count for each agent. -/
def scales : Definition → Bool
  | count _ => true
  | memory _ _ => true
  | duration _ => false
  | fixed _ => false

/-- How an amount is written: memory in units of 1000 bytes, a duration in hours, minutes and seconds. -/
def text : Definition → Nat → String
  | count _, t => decimal t
  | memory _ unit, t => decimal (t / 1000) ++ unit
  | duration _, t => pad 2 (t / 3600) ++ ":" ++ pad 2 (t % 3600 / 60) ++ ":" ++ pad 2 (t % 60)
  | fixed d, t => d.text t

def total (d : Definition) (b : Nat) (scale : Bool) (n : Nat) : Nat :=
  n * if scale && d.scales then b else 1

def table (ds : List Definition) : ResourceTable := .ofList (ds.map resource)

/-- The last definition of a name. -/
def last? (ds : List Definition) (name : String) : Option Definition :=
  ds.reverse.find? (·.name == name)

/-! ### What a definition defines -/

theorem name_resource (d : Definition) : d.resource.name = d.name := by
  induction d with
  | fixed d ih => exact ih
  | _ => rfl

theorem scales_resource (d : Definition) : d.resource.scales = d.scales := by
  cases d <;> rfl

theorem total_resource (d : Definition) (b : Nat) (scale : Bool) (n : Nat) :
    d.resource.total b scale n = d.total b scale n := by
  unfold Resource.total Resource.multiplier total
  rw [scales_resource]

theorem format_resource (d : Definition) (t : Nat) :
    d.resource.format (d.resource.inUnits t) = d.text t := by
  induction d with
  | count name => simp [resource, Resource.count, Resource.format, Resource.inUnits, text]
  | memory name unit => simp [resource, Resource.memory, Resource.format, Resource.inUnits, text]
  | duration name => rfl
  | fixed d ih => exact ih

theorem get?_table (ds : List Definition) (name : String) :
    (table ds).get? name = (last? ds name).map resource := by
  rw [table, ResourceTable.get?_ofList, ← List.map_reverse, List.find?_map, last?]
  simp only [Function.comp_def, name_resource]

end Definition

open Definition

section

variable (ds : List Definition) (b : Nat)

/-- The value of a requirement is accepted, and its amount for the batch has 64 bits. -/
def Fits (r : Requirement) : Prop :=
  ∀ d, last? ds r.name = some d → ∃ n, d.resource.parse r.value = .ok n ∧ d.total b r.scale n < 2 ^ 64

/-- What is wrong with a requirement. -/
def Offends (r : Requirement) (e : Error) : Prop :=
  ∃ d, last? ds r.name = some d ∧ (d.resource.parse r.value = .error e ∨
    ∃ n, d.resource.parse r.value = .ok n ∧ 2 ^ 64 ≤ d.total b r.scale n ∧
      e = .format (.amountOverflow d.name b))

/-- What is written for a requirement: its value as it stands, or its amount for the batch. -/
def Says (r : Requirement) (s : String) : Prop :=
  match last? ds r.name with
  | none => s = match r.value with
    | .text t => t
    | v => v.render
  | some d => ∃ n, d.resource.parse r.value = .ok n ∧ s = d.text (d.total b r.scale n)

/-- What requirements have to be resolved to. -/
structure Specified (rs : List Requirement) (outcome : Outcome (List Rendered)) : Prop where
  succeeds : (∃ xs, outcome = .ok xs) ↔ 1 ≤ b ∧ ∀ r ∈ rs, Fits ds b r
  /-- The failure is that of the first one that is wrong, but an empty batch comes before all. -/
  fails : ∀ e, outcome = .error e ↔ b = 0 ∧ e = .format .emptyBatch ∨
    1 ≤ b ∧ ∃ before r after, rs = before ++ r :: after ∧ (∀ r' ∈ before, Fits ds b r') ∧ Offends ds b r e
  names : ∀ xs, outcome = .ok xs → xs.map (·.name) = rs.map (·.name)
  values : ∀ xs, outcome = .ok xs → List.Forall₂ (fun r x => Says ds b r x.value) rs xs

variable {ds : List Definition} {b : Nat} {r : Requirement}

theorem fits_iff : Fits ds b r ↔ ∃ x, r.render (table ds) b = .ok x := by
  simp only [Requirement.exists_render_eq_ok, get?_table, Resource.render_eq_ok]
  constructor
  · intro h _ hr
    obtain ⟨d, hd, rfl⟩ := Option.map_eq_some_iff.mp hr
    obtain ⟨n, hn, ht⟩ := h d hd
    rw [← total_resource] at ht
    exact ⟨_, n, hn, ht, rfl⟩
  · intro h d hd
    obtain ⟨s, n, hn, ht, -⟩ := h d.resource (by rw [hd]; rfl)
    rw [total_resource] at ht
    exact ⟨n, hn, ht⟩

theorem offends_iff {e : Error} : Offends ds b r e ↔ r.render (table ds) b = .error e := by
  simp only [Requirement.render_eq_error, get?_table, Resource.render_eq_error]
  constructor
  · rintro ⟨d, hd, h⟩
    refine ⟨d.resource, by rw [hd]; rfl, ?_⟩
    simpa only [total_resource, name_resource] using h
  · rintro ⟨_, hr, h⟩
    obtain ⟨d, hd, rfl⟩ := Option.map_eq_some_iff.mp hr
    refine ⟨d, hd, ?_⟩
    simpa only [total_resource, name_resource] using h

theorem says_of_render {x : Rendered} (h : r.render (table ds) b = .ok x) : Says ds b r x.value := by
  unfold Says
  cases hd : last? ds r.name with
  | none =>
    have ht : (table ds).get? r.name = none := by rw [get?_table, hd]; rfl
    rw [Requirement.render_of_unknown ht] at h
    cases h
    rfl
  | some d =>
    have ht : (table ds).get? r.name = some d.resource := by rw [get?_table, hd]; rfl
    obtain ⟨n, hn, -, hx⟩ := Resource.render_eq_ok.mp (Requirement.value_render_of_known ht h)
    rw [total_resource, format_resource] at hx
    exact ⟨n, hn, hx.symm⟩

end

/-- **Requirements are resolved as specified**, whatever the table defines and however large the batch is. -/
theorem renderAll_specified (ds : List Definition) (b : Nat) (rs : List Requirement) :
    Specified ds b rs (Requirement.renderAll (table ds) b rs) := by
  rcases Nat.eq_zero_or_pos b with rfl | hb
  · rw [Requirement.renderAll_zero]
    exact ⟨by simp, by simp [eq_comm], nofun, nofun⟩
  · have hb0 : b ≠ 0 := by omega
    have hb1 : 1 ≤ b := hb
    rw [Requirement.renderAll_of_pos hb]
    refine ⟨?_, fun e => ?_, fun xs h => ?_, fun xs h => ?_⟩
    · simp only [exists_mapM_eq_ok, fits_iff, hb1, true_and]
    · simp only [mapM_eq_error, fits_iff, offends_iff, hb0, hb1, false_and, true_and, false_or]
    · have hx := (mapM_eq_ok.mp h).imp fun _ _ => Requirement.name_render
      rw [← List.forall₂_eq_eq_eq, List.forall₂_map_left_iff, List.forall₂_map_right_iff]
      exact hx.flip
    · exact (mapM_eq_ok.mp h).imp fun _ _ => says_of_render

example :
    Requirement.renderAll (table [.count "mem", .memory "mem" "K", .duration "time"]) 4
      [⟨"mem", true, .whole 2000500⟩, ⟨"time", true, .text "3661"⟩, ⟨"place", true, .text "pack"⟩] =
      .ok [⟨"mem", "8002K"⟩, ⟨"time", "01:01:01"⟩, ⟨"place", "pack"⟩] := by
  decide +kernel

end ClusterAgents
