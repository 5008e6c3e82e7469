import ClusterAgents.Proofs.Clocks
import ClusterAgents.Proofs.Resource.Rendering
import ClusterAgents.Proofs.Resource.Values

/-!
# Bounds of amounts

An amount is checked as it was given, then multiplied, and put into its unit at the end.  So what is asked for never
vanishes, although memory is rounded down, and it never exceeds what is needed.

* `Resource.le_total`, `Resource.total_mono` — what multiplying does to an amount;
* `Resource.inUnits_pos`, `Resource.inUnits_mono`, `Resource.inUnits_bounds` — what rounding does to it;
* `Resource.format_injective` — different amounts are never written alike;
* `Resource.one_le_of_parse`, `Resource.exists_format_of_render` — what is accepted never vanishes;
* `Bounded`, `batch_amount_bounded` — the amount for a batch, from a value to its text.
-/

namespace ClusterAgents

open Text

namespace Resource

variable {r : Resource} {b b' n n' t t' : Nat} {scale : Bool}

theorem le_total (hb : 1 ≤ b) : n ≤ r.total b scale n := by
  have hmultiplier : 1 ≤ r.multiplier b scale := by
    unfold multiplier
    split
    · exact hb
    · exact Nat.le_refl 1
  exact Nat.le_mul_of_pos_right n hmultiplier

theorem total_mono (hb : b ≤ b') (hn : n ≤ n') : r.total b scale n ≤ r.total b' scale n' := by
  have hmultiplier : r.multiplier b scale ≤ r.multiplier b' scale := by
    unfold multiplier
    split
    · exact hb
    · exact Nat.le_refl 1
  exact Nat.mul_le_mul hn hmultiplier

/-- What is not scaled is what one agent needs. -/
theorem total_unscaled (r : Resource) (b n : Nat) : r.total b false n = n :=
  total_of_not_scales (Bool.false_and _) b n

theorem inUnits_mono (h : t ≤ t') : r.inUnits t ≤ r.inUnits t' := by
  unfold inUnits
  split
  · exact Nat.div_le_div_right h
  · exact h

/-- What may be asked for at all is not rounded down to nothing. -/
theorem inUnits_pos (h : r.leastAmount ≤ t) : 1 ≤ r.inUnits t := by
  unfold leastAmount at h
  unfold inUnits
  split
  · next hkind =>
    rw [if_pos hkind] at h
    exact (Nat.one_le_div_iff (by decide)).mpr h
  · next hkind =>
    rw [if_neg hkind] at h
    exact h

theorem inUnits_of_ne (h : r.kind ≠ .memory) (t : Nat) : r.inUnits t = t := if_neg h

theorem inUnits_bounds (h : r.kind = .memory) (t : Nat) : 1000 * r.inUnits t ≤ t ∧ t < 1000 * (r.inUnits t + 1) := by
  rw [inUnits, if_pos h]
  exact ⟨Nat.mul_div_le t 1000, Nat.lt_mul_div_succ t (by decide)⟩

theorem format_of_memory (h : r.kind = .memory) (k : Nat) : r.format k = decimal k ++ r.unit := by
  unfold format
  rw [h]

theorem format_of_duration (h : r.kind = .duration) (k : Nat) : r.format k = Time.hms k := by
  unfold format
  rw [h]

/-- **Different amounts are never written alike.** -/
theorem format_injective {k k' : Nat} (h : r.format k = r.format k') : k = k' := by
  have hdecimal : decimal k ++ r.unit = decimal k' ++ r.unit → k = k' := by
    intro h
    have hlist := congrArg String.toList h
    rw [String.toList_append, String.toList_append] at hlist
    rw [← ofDigitChars_decimal k, List.append_cancel_right hlist, ofDigitChars_decimal]
  unfold format at h
  cases hkind : r.kind with
  | count =>
    rw [hkind] at h
    exact hdecimal h
  | memory =>
    rw [hkind] at h
    exact hdecimal h
  | duration =>
    rw [hkind] at h
    exact Time.hms_injective h

theorem format_ne_zero {k : Nat} (hk : 1 ≤ k) : r.format k ≠ r.format 0 := fun h => by
  have := format_injective h
  omega

/-- **What is accepted is not rounded down to nothing** in any batch. -/
theorem one_le_of_parse {v : Json} (hv : r.parse v = .ok n) (hb : 1 ≤ b) : 1 ≤ r.inUnits (r.total b scale n) :=
  inUnits_pos ((parse_eq_ok.mp hv).2.trans (le_total hb))

theorem exists_format_of_render {v : Json} {s : String} (hb : 1 ≤ b) (hs : r.render b scale v = .ok s) :
    ∃ k, 1 ≤ k ∧ s = r.format k := by
  obtain ⟨n, hv, -, rfl⟩ := render_eq_ok.mp hs
  exact ⟨_, one_le_of_parse hv hb, rfl⟩

end Resource

namespace Definition

def kind : Definition → ResourceKind
  | count _ => .count
  | memory _ _ => .memory
  | duration _ => .duration
  | fixed d => d.kind

theorem kind_resource (d : Definition) : d.resource.kind = d.kind := by
  induction d with
  | fixed d ih => exact ih
  | _ => rfl

end Definition

/-- **What is asked for on behalf of `b` agents**, where the value of a requirement is accepted as `n`. -/
structure Bounded (d : Definition) (v : Json) (n b : Nat) (scale : Bool) : Prop where
  /-- Nothing is refused but an amount of more than 64 bits. -/
  fails : ∀ e, d.resource.batchAmount b scale n = .error e ↔
    2 ^ 64 ≤ d.total b scale n ∧ e = .format (.amountOverflow d.name b)
  succeeds : (∃ k, d.resource.batchAmount b scale n = .ok k) ↔ d.total b scale n < 2 ^ 64
  positive : ∀ k, d.resource.batchAmount b scale n = .ok k → 1 ≤ k
  exact : d.kind ≠ .memory → ∀ k, d.resource.batchAmount b scale n = .ok k → k = d.total b scale n
  rounded : d.kind = .memory → ∀ k, d.resource.batchAmount b scale n = .ok k →
    1000 * k ≤ d.total b scale n ∧ d.total b scale n < 1000 * (k + 1)
  /-- No less is asked for more agents, or where more is needed. -/
  monotone : ∀ b' n' k k', b ≤ b' → n ≤ n' → d.resource.batchAmount b scale n = .ok k →
    d.resource.batchAmount b' scale n' = .ok k' → k ≤ k'
  unscaled : ∃ k, d.resource.batchAmount b false n = .ok k
  scaled : ∀ k k', d.resource.batchAmount b false n = .ok k → d.resource.batchAmount b true n = .ok k' → k ≤ k'
  /-- What is written is never what would be written for nothing. -/
  written : ∀ s, d.resource.render b scale v = .ok s → s ≠ d.text 0
  memory : d.kind = .memory → ∀ s, d.resource.render b scale v = .ok s →
    ∃ k, 1 ≤ k ∧ s = decimal k ++ d.resource.unit
  duration : d.kind = .duration → ∀ s, d.resource.render b scale v = .ok s → s ≠ "00:00:00"

/-- **Nothing that is needed is written as zero**, and nothing grows by rounding. -/
theorem batch_amount_bounded (d : Definition) {v : Json} {n b : Nat} (scale : Bool) (hv : d.resource.parse v = .ok n)
    (hb : 1 ≤ b) : Bounded d v n b scale := by
  constructor
  · intro e
    rw [Resource.batchAmount_eq_error, Definition.total_resource, Definition.name_resource]
  · simp only [Resource.batchAmount_eq_ok, Definition.total_resource]
    exact ⟨fun ⟨_, ht, _⟩ => ht, fun ht => ⟨_, ht, rfl⟩⟩
  · intro k hk
    obtain ⟨-, rfl⟩ := Resource.batchAmount_eq_ok.mp hk
    exact Resource.one_le_of_parse hv hb
  · intro hkind k hk
    obtain ⟨-, rfl⟩ := Resource.batchAmount_eq_ok.mp hk
    rw [← d.kind_resource] at hkind
    rw [Resource.inUnits_of_ne hkind, d.total_resource]
  · intro hkind k hk
    obtain ⟨-, rfl⟩ := Resource.batchAmount_eq_ok.mp hk
    rw [← d.kind_resource] at hkind
    rw [← d.total_resource]
    exact Resource.inUnits_bounds hkind _
  · intro b' n' k k' hb' hn' hk hk'
    obtain ⟨-, rfl⟩ := Resource.batchAmount_eq_ok.mp hk
    obtain ⟨-, rfl⟩ := Resource.batchAmount_eq_ok.mp hk'
    exact Resource.inUnits_mono (Resource.total_mono hb' hn')
  · refine ⟨_, Resource.batchAmount_eq_ok.mpr ⟨?_, rfl⟩⟩
    rw [Resource.total_unscaled]
    exact Resource.parse_lt hv
  · intro k k' hk hk'
    obtain ⟨-, rfl⟩ := Resource.batchAmount_eq_ok.mp hk
    obtain ⟨-, rfl⟩ := Resource.batchAmount_eq_ok.mp hk'
    rw [Resource.total_unscaled]
    exact Resource.inUnits_mono (Resource.le_total hb)
  · intro s hs
    obtain ⟨k, hk, rfl⟩ := Resource.exists_format_of_render hb hs
    have hnothing : d.resource.inUnits 0 = 0 := by
      unfold Resource.inUnits
      split <;> rfl
    rw [← d.format_resource, hnothing]
    exact Resource.format_ne_zero hk
  · intro hkind s hs
    obtain ⟨k, hk, rfl⟩ := Resource.exists_format_of_render hb hs
    rw [← d.kind_resource] at hkind
    exact ⟨k, hk, Resource.format_of_memory hkind k⟩
  · intro hkind s hs
    obtain ⟨k, hk, rfl⟩ := Resource.exists_format_of_render hb hs
    rw [← d.kind_resource] at hkind
    have hnothing : d.resource.format 0 = "00:00:00" := by
      rw [Resource.format_of_duration hkind]
      decide +kernel
    rw [← hnothing]
    exact Resource.format_ne_zero hk

/-- Three agents need two units of memory less one byte each, which are five units together and a part of one. -/
theorem odd_memory_is_bounded : (Definition.memory "mem" "K").resource.parse (.text " 1999") = .ok 1999 ∧ 1 ≤ 3 ∧
    Bounded (.memory "mem" "K") (.text " 1999") 1999 3 true ∧
      (Definition.memory "mem" "K").resource.batchAmount 3 true 1999 = .ok 5 :=
  have hv : (Definition.memory "mem" "K").resource.parse (.text " 1999") = .ok 1999 := by decide +kernel
  ⟨hv, by decide, batch_amount_bounded _ true hv (by decide), by decide +kernel⟩

end ClusterAgents
