import Mathlib.Data.List.Induction
import ClusterAgents.Proofs.Numerals
import ClusterAgents.Proofs.Steps
import ClusterAgents.Resource.Render

/-!
# Amounts and tables

What can be said of amounts and of tables of resources without knowing which resources there are.

* `amountOf_lt` — an amount fits 64 bits;
* `Resource.render_eq_ok`, `Resource.render_eq_error` — a value is refused for what it is, or for what it
  becomes in a batch;
* `ResourceTable.get?_ofList` — of several resources of one name a table has the last;
* `Requirement.checkAll_eq_ok`, `Requirement.renderAll_eq_ok` — what holds of all requirements.
-/

namespace ClusterAgents

open Text

theorem amountOf_lt {v : Json} {n : Nat} (h : amountOf v = .ok n) : n < 2 ^ 64 := by
  unfold amountOf at h
  split at h
  · next m =>
    split at h
    · next hm =>
      cases h
      rw [← le_wholeLimit_iff]
      simp at hm
      omega
    · cases h
  · next d =>
    split at h
    · next m _ =>
      split at h
      · cases h
      · cases h
        exact le_wholeLimit_iff.mp (Nat.min_le_right m wholeLimit)
    · cases h
  · next s =>
    split at h
    · next m hm =>
      cases h
      unfold wholeOfText? wholeOfChars? at hm
      split at hm <;> exact (wholeOfDigits?_eq_some.mp hm).2
    · cases h
  · cases h

namespace Resource

theorem parse_lt {r : Resource} {v : Json} {n : Nat} (h : r.parse v = .ok n) : n < 2 ^ 64 := by
  obtain ⟨m, hm, h⟩ := bind_eq_ok.mp h
  split at h
  · cases h
    exact amountOf_lt hm
  · cases h

/-- What an amount becomes in a batch, before it is put into its unit. -/
def total (r : Resource) (b : Nat) (scale : Bool) (n : Nat) : Nat := n * r.multiplier b scale

theorem total_of_not_scales {r : Resource} {scale : Bool} (h : (scale && r.scales) = false) (b n : Nat) :
    r.total b scale n = n := by
  simp [total, multiplier, h]

theorem total_of_scales {r : Resource} {scale : Bool} (h : (scale && r.scales) = true) (b n : Nat) :
    r.total b scale n = n * b := by
  simp [total, multiplier, h]

section

variable {r : Resource} {b n k : Nat} {scale : Bool} {e : Error}

theorem batchAmount_eq_ok :
    r.batchAmount b scale n = .ok k ↔ r.total b scale n < 2 ^ 64 ∧ r.inUnits (r.total b scale n) = k := by
  rw [← le_wholeLimit_iff, batchAmount, total]
  split <;> simp [*]

theorem batchAmount_eq_error :
    r.batchAmount b scale n = .error e ↔
      2 ^ 64 ≤ r.total b scale n ∧ e = .format (.amountOverflow r.name b) := by
  rw [← Nat.not_lt, ← le_wholeLimit_iff, batchAmount, total]
  split <;> simp [*, eq_comm]

theorem render_eq_ok {v : Json} {s : String} :
    r.render b scale v = .ok s ↔
      ∃ n, r.parse v = .ok n ∧ r.total b scale n < 2 ^ 64 ∧ r.format (r.inUnits (r.total b scale n)) = s := by
  unfold render
  simp only [bind_eq_ok, batchAmount_eq_ok, Except.ok.injEq]
  constructor
  · rintro ⟨n, hn, k, ⟨ht, rfl⟩, hs⟩
    exact ⟨n, hn, ht, hs⟩
  · rintro ⟨n, hn, ht, hs⟩
    exact ⟨n, hn, _, ⟨ht, rfl⟩, hs⟩

theorem render_eq_error {v : Json} :
    r.render b scale v = .error e ↔ r.parse v = .error e ∨
      ∃ n, r.parse v = .ok n ∧ 2 ^ 64 ≤ r.total b scale n ∧ e = .format (.amountOverflow r.name b) := by
  unfold render
  simp only [bind_eq_error, batchAmount_eq_error, reduceCtorEq, and_false, exists_false, or_false]

end

end Resource

namespace ResourceTable

theorem name_of_get? {t : ResourceTable} {name : String} {d : Resource} (h : t.get? name = some d) :
    d.name = name := by
  simpa using List.find?_some h

theorem get?_insert (t : ResourceTable) (r : Resource) (name : String) :
    (t.insert r).get? name = if r.name = name then some r else t.get? name := by
  obtain ⟨rs⟩ := t
  simp only [insert, get?, List.find?_append]
  by_cases h : r.name = name
  · have hnone : (rs.filter (·.name != r.name)).find? (·.name == name) = none := by
      simp [List.find?_eq_none, h]
    rw [hnone]
    simp [h]
  · have hsame : (rs.filter (·.name != r.name)).find? (·.name == name) =
        rs.find? (·.name == name) := by
      rw [List.find?_filter]
      congr 1
      funext a
      by_cases ha : a.name = name <;> simp [ha, Ne.symm h]
    rw [hsame]
    simp [h]

theorem get?_ofList (rs : List Resource) (name : String) :
    (ofList rs).get? name = rs.reverse.find? (·.name == name) := by
  induction rs using List.reverseRecOn with
  | nil => rfl
  | append_singleton rs r ih =>
    rw [ofList, List.foldl_append, List.foldl_cons, List.foldl_nil, get?_insert, ← ofList, ih,
      List.reverse_append, List.reverse_singleton, List.singleton_append, List.find?_cons]
    by_cases h : r.name = name
    · simp [h]
    · have hb : (r.name == name) = false := by simpa using h
      simp [h, hb]

end ResourceTable

namespace Requirement

section

variable {table : ResourceTable} {b : Nat} {r : Requirement}

theorem render_of_unknown (h : table.get? r.name = none) :
    r.render table b = .ok ⟨r.name, r.rawValue⟩ := by
  unfold render
  rw [h]

theorem render_of_known {d : Resource} (h : table.get? r.name = some d) :
    r.render table b = (d.render b r.scale r.value).bind fun value => .ok ⟨r.name, value⟩ := by
  unfold render
  rw [h]
  rfl

/-- A requirement fails only for the resource that it asks for. -/
theorem render_eq_error {e : Error} :
    r.render table b = .error e ↔
      ∃ d, table.get? r.name = some d ∧ d.render b r.scale r.value = .error e := by
  cases h : table.get? r.name with
  | none => simp [render_of_unknown h]
  | some d =>
    rw [render_of_known h]
    cases hr : d.render b r.scale r.value <;> simp [Except.bind, hr]

theorem exists_render_eq_ok :
    (∃ x, r.render table b = .ok x) ↔
      ∀ d, table.get? r.name = some d → ∃ s, d.render b r.scale r.value = .ok s := by
  cases h : table.get? r.name with
  | none => simp [render_of_unknown h]
  | some d =>
    rw [render_of_known h]
    cases hr : d.render b r.scale r.value <;> simp [Except.bind, hr]

theorem name_render {x : Rendered} (h : r.render table b = .ok x) : x.name = r.name := by
  cases ht : table.get? r.name with
  | none =>
    rw [render_of_unknown ht] at h
    cases h
    rfl
  | some d =>
    rw [render_of_known ht] at h
    obtain ⟨s, -, h⟩ := bind_eq_ok.mp h
    cases h
    rfl

theorem value_render_of_known {d : Resource} (ht : table.get? r.name = some d) {x : Rendered}
    (h : r.render table b = .ok x) : d.render b r.scale r.value = .ok x.value := by
  rw [render_of_known ht] at h
  obtain ⟨s, hs, h⟩ := bind_eq_ok.mp h
  cases h
  exact hs

theorem check_eq_ok :
    check table r = .ok () ↔ ∀ d, table.get? r.name = some d → ∃ n, d.parse r.value = .ok n := by
  unfold check
  cases table.get? r.name with
  | none => simp
  | some d => simp [bind_eq_ok]

theorem check_eq_error {e : Error} :
    check table r = .error e ↔ ∃ d, table.get? r.name = some d ∧ d.parse r.value = .error e := by
  unfold check
  cases table.get? r.name with
  | none => simp
  | some d => simp [bind_eq_error]

end

variable {table : ResourceTable} {b : Nat} {rs : List Requirement}

theorem checkAll_eq_ok :
    checkAll table rs = .ok () ↔
      ∀ r ∈ rs, ∀ d, table.get? r.name = some d → ∃ n, d.parse r.value = .ok n := by
  simp only [checkAll, forM_eq_ok, check_eq_ok]

theorem renderAll_zero (table : ResourceTable) (rs : List Requirement) :
    renderAll table 0 rs = .error (.format .emptyBatch) := rfl

theorem renderAll_of_pos (h : 1 ≤ b) (table : ResourceTable) (rs : List Requirement) :
    renderAll table b rs = rs.mapM (render table b) := if_neg (by omega)

theorem renderAll_eq_ok {xs : List Rendered} :
    renderAll table b rs = .ok xs ↔
      1 ≤ b ∧ List.Forall₂ (fun r x => r.render table b = .ok x) rs xs := by
  rcases Nat.eq_zero_or_pos b with rfl | hb
  · simp [renderAll_zero]
  · rw [renderAll_of_pos hb, mapM_eq_ok]
    exact (and_iff_right hb).symm

end Requirement

end ClusterAgents
