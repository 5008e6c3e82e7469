import Mathlib.Algebra.Order.Field.Power
import Mathlib.Data.Rat.Cast.Order
import Mathlib.Tactic.Linarith
import Mathlib.Tactic.NormNum
import Mathlib.Tactic.Positivity
import ClusterAgents.Json.Reader
import ClusterAgents.Proofs.Resource.Amounts

/-!
# What values stand for

An amount is given as a whole number, as a double or as a text, and is taken for the whole number that it is, never
for one nearby.  There is a single double for which this fails: the one above all numbers of 64 bits.

* `Binary64.value` — a double as the exact rational number that it is;
* `Numeric`, `Denotes` — the texts and the values that stand for a whole number;
* `amountOf_eq_ok`, `amountOf_eq_error` — what is read from a value;
* `ReadsExactly`, `readsExactly_iff` — values that are never coerced, and which they are;
* `limit_is_coerced` — a JSON text that is taken for another number.
-/

namespace ClusterAgents

open Number Text

/-! ### Doubles -/

namespace Number.Binary64

/-- The exact value of a double. -/
def value (d : Binary64) : ℚ := (if d.negative then -1 else 1) * (d.mantissa * 2 ^ d.exponent)

theorem powerOfTwo_pos (e : Int) : 0 < (powerOfTwo e).2 := by
  unfold powerOfTwo
  split
  · exact Nat.one_pos
  · exact Nat.two_pow_pos _

theorem powerOfTwo_eq (e : Int) : ((powerOfTwo e).1 : ℚ) / (powerOfTwo e).2 = 2 ^ e := by
  unfold powerOfTwo
  split
  · next h =>
    lift e to Nat using h
    simp
  · next h =>
    obtain ⟨k, rfl⟩ : ∃ k : Nat, e = -(k : Int) := ⟨(-e).toNat, by omega⟩
    simp

theorem ratio_eq (d : Binary64) : (d.ratio.1 : ℚ) / d.ratio.2 = d.mantissa * 2 ^ d.exponent := by
  rw [← powerOfTwo_eq, ← mul_div_assoc, ← Nat.cast_mul]
  rfl

theorem wholeValue?_eq_some {d : Binary64} {n : Nat} :
    d.wholeValue? = some n ↔ (d.mantissa : ℚ) * 2 ^ d.exponent = n := by
  have hpos : 0 < d.ratio.2 := powerOfTwo_pos d.exponent
  have hne : (d.ratio.2 : ℚ) ≠ 0 := by exact_mod_cast hpos.ne'
  rw [← ratio_eq, div_eq_iff hne]
  have hcast : (d.ratio.1 : ℚ) = n * d.ratio.2 ↔ d.ratio.1 = n * d.ratio.2 := by exact_mod_cast Iff.rfl
  rw [hcast]
  unfold wholeValue?
  dsimp only
  split
  · next hdvd =>
    rw [Option.some.injEq, Nat.div_eq_iff_eq_mul_left hpos (Nat.dvd_of_mod_eq_zero hdvd)]
  · next hdvd =>
    refine iff_of_false (Option.some_ne_none n).symm fun h => hdvd ?_
    rw [h, Nat.mul_mod_left]

/-- A double is a whole number from zero on if its absolute value is one, and only zero may have a sign. -/
theorem value_eq_iff {d : Binary64} {n : Nat} :
    d.value = n ↔ d.wholeValue? = some n ∧ (d.negative = true → n = 0) := by
  rw [wholeValue?_eq_some]
  unfold value
  generalize hv : (d.mantissa : ℚ) * 2 ^ d.exponent = v
  have hv0 : 0 ≤ v := by
    rw [← hv]
    positivity
  have hn0 : (0 : ℚ) ≤ n := Nat.cast_nonneg n
  cases d.negative with
  | false => simp
  | true =>
    simp only [if_true, neg_one_mul, forall_const]
    constructor
    · intro h
      have hn : (n : ℚ) = 0 := by linarith
      exact ⟨by linarith, by exact_mod_cast hn⟩
    · rintro ⟨h, rfl⟩
      rw [h]
      simp

theorem value_eq_limit_iff {d : Binary64} :
    d.value = 2 ^ 64 ↔ d.wholeValue? = some (2 ^ 64) ∧ d.negative = false := by
  have hcast : ((2 ^ 64 : Nat) : ℚ) = 2 ^ 64 := by norm_num
  have hne : (2 ^ 64 : Nat) ≠ 0 := by decide
  rw [← hcast, value_eq_iff, imp_iff_not hne, Bool.not_eq_true]

end Number.Binary64

/-! ### Amounts -/

/-- **The values that stand for a whole number**: the number itself, a double that is exactly this number, and a
numeral of it between blanks. -/
def Denotes (n : Nat) : Json → Prop
  | .whole m => m = n
  | .real d => d.value = n
  | .text s => ∃ before cs after, s.toList = before ++ cs ++ after ∧ Numeric cs n ∧
      (∀ c ∈ before, isBlank c = true) ∧ ∀ c ∈ after, isBlank c = true
  | _ => False

/-- The values that exceed the numbers of 64 bits by one, and are doubles. -/
def AtLimit (v : Json) : Prop := ∃ d, v = .real d ∧ d.value = 2 ^ 64

section

variable {n : Nat}

theorem amountOf_whole {m : Int} : amountOf (.whole m) = .ok n ↔ m = n ∧ n < 2 ^ 64 := by
  rw [← le_wholeLimit_iff]
  simp only [amountOf, Bool.and_eq_true, decide_eq_true_eq]
  split
  · rw [Except.ok.injEq]
    omega
  · simp only [reduceCtorEq, false_iff]
    omega

/-- A double is taken for what it is, but for the one that is rounded down. -/
theorem amountOf_real {d : Binary64} :
    amountOf (.real d) = .ok n ↔ d.value = n ∧ n < 2 ^ 64 ∨ d.value = 2 ^ 64 ∧ n = 2 ^ 64 - 1 := by
  have hlimit : wholeLimit = 2 ^ 64 - 1 := rfl
  rw [Binary64.value_eq_iff, Binary64.value_eq_limit_iff, amountOf]
  cases d.wholeValue? with
  | none => simp
  | some m =>
    simp only [Option.some.injEq, hlimit, Bool.or_eq_true, Bool.and_eq_true, bne_iff_ne, decide_eq_true_eq]
    -- a sign is refused on every number but zero
    cases d.negative with
    | false =>
      simp only [Bool.false_eq_true, false_and, false_or, false_implies, and_true]
      split
      · simp only [reduceCtorEq, false_iff]
        omega
      · rw [Except.ok.injEq]
        omega
    | true =>
      simp only [true_and, forall_const, Bool.true_eq_false, and_false, false_and, or_false]
      split
      · simp only [reduceCtorEq, false_iff]
        omega
      · rw [Except.ok.injEq]
        omega

theorem amountOf_text {s : String} : amountOf (.text s) = .ok n ↔ Denotes n (.text s) ∧ n < 2 ^ 64 := by
  have hread : amountOf (.text s) = .ok n ↔ wholeOfChars? (trim s).toList = some n := by
    rw [amountOf, wholeOfText?]
    cases wholeOfChars? (trim s).toList <;> simp
  rw [hread, wholeOfChars?_eq_some]
  refine and_congr_left fun _ => ⟨fun h => ?_, fun ⟨before, cs, after, hs, hcs, hbefore, hafter⟩ => ?_⟩
  · obtain ⟨hne, hfirst, hlast⟩ := h.ends
    obtain ⟨before, after, hs, hbefore, hafter⟩ := (trim_eq_iff hne hfirst hlast).mp rfl
    exact ⟨before, _, after, hs, h, hbefore, hafter⟩
  · obtain ⟨hne, hfirst, hlast⟩ := hcs.ends
    rw [(trim_eq_iff hne hfirst hlast).mpr ⟨before, after, hs, hbefore, hafter⟩]
    exact hcs

/-- **What is read from a value.** -/
theorem amountOf_eq_ok {v : Json} :
    amountOf v = .ok n ↔ Denotes n v ∧ n < 2 ^ 64 ∨ AtLimit v ∧ n = 2 ^ 64 - 1 := by
  cases v with
  | whole m => simp [amountOf_whole, AtLimit, Denotes]
  | real d => simp [amountOf_real, AtLimit, Denotes]
  | text s => simp [amountOf_text, AtLimit]
  | null => simp [amountOf, AtLimit, Denotes]
  | bool b => simp [amountOf, AtLimit, Denotes]
  | list items => simp [amountOf, AtLimit, Denotes]
  | object fields => simp [amountOf, AtLimit, Denotes]

theorem amountOf_eq_error {v : Json} {e : Error} (h : amountOf v = .error e) : ∃ fault, e = .format fault := by
  unfold amountOf at h
  split at h
  · split at h
    · cases h
    · exact ⟨_, (Except.error.inj h).symm⟩
  · dsimp only at h
    split at h
    · split at h
      · exact ⟨_, (Except.error.inj h).symm⟩
      · cases h
    · exact ⟨_, (Except.error.inj h).symm⟩
  · split at h
    · cases h
    · exact ⟨_, (Except.error.inj h).symm⟩
  · exact ⟨_, (Except.error.inj h).symm⟩

theorem Resource.parse_eq_ok {r : Resource} {v : Json} :
    r.parse v = .ok n ↔ amountOf v = .ok n ∧ r.leastAmount ≤ n := by
  unfold parse
  rw [bind_eq_ok]
  constructor
  · rintro ⟨m, hm, h⟩
    split at h
    · next hleast =>
      cases h
      exact ⟨hm, hleast⟩
    · cases h
  · rintro ⟨hn, hleast⟩
    exact ⟨n, hn, if_pos hleast⟩

theorem Resource.parse_eq_error {r : Resource} {v : Json} {e : Error} (h : r.parse v = .error e) :
    ∃ fault, e = .format fault := by
  unfold parse at h
  rcases bind_eq_error.mp h with h | ⟨m, -, h⟩
  · exact amountOf_eq_error h
  · split at h
    · cases h
    · exact ⟨_, (Except.error.inj h).symm⟩

end

/-- What is to be read from a value: the number that it stands for, and nothing from a value that stands for none. -/
structure ReadsExactly (v : Json) : Prop where
  accepted : ∀ n, amountOf v = .ok n ↔ Denotes n v ∧ n < 2 ^ 64
  refused : (∀ n < 2 ^ 64, ¬ Denotes n v) → ∃ fault, amountOf v = .error (.format fault)
  /-- A resource asks for one at least, or for one unit of memory. -/
  checked : ∀ (r : Resource) n, r.parse v = .ok n ↔
    (Denotes n v ∧ n < 2 ^ 64) ∧ if r.kind = .memory then 1000 ≤ n else 0 < n
  /-- Everything else is refused. -/
  declined : ∀ r : Resource, (∀ n, r.parse v ≠ .ok n) → ∃ fault, r.parse v = .error (.format fault)

/-- **Values are never coerced**, except for the double next above the numbers of 64 bits: it is taken for the
greatest of them. -/
theorem readsExactly_iff (v : Json) :
    (ReadsExactly v ↔ ¬ AtLimit v) ∧ (AtLimit v → amountOf v = .ok (2 ^ 64 - 1)) := by
  have hlimit : AtLimit v → amountOf v = .ok (2 ^ 64 - 1) := fun h => amountOf_eq_ok.mpr (.inr ⟨h, rfl⟩)
  refine ⟨⟨fun h hat => ?_, fun h => ?_⟩, hlimit⟩
  · obtain ⟨hdenotes, -⟩ := (h.accepted _).mp (hlimit hat)
    obtain ⟨d, rfl, hd⟩ := hat
    have hsame : ((2 ^ 64 - 1 : Nat) : ℚ) = 2 ^ 64 := hdenotes.symm.trans hd
    norm_num at hsame
  · have haccepted (n : Nat) : amountOf v = .ok n ↔ Denotes n v ∧ n < 2 ^ 64 := by
      rw [amountOf_eq_ok, or_iff_left fun hat => h hat.1]
    refine ⟨haccepted, fun hno => ?_, fun r n => ?_, fun r hno => ?_⟩
    · obtain ⟨e, he⟩ := exists_eq_error fun n hn => hno n ((haccepted n).mp hn).2 ((haccepted n).mp hn).1
      obtain ⟨fault, rfl⟩ := amountOf_eq_error he
      exact ⟨fault, he⟩
    · rw [Resource.parse_eq_ok, haccepted, Resource.leastAmount]
      split <;> rfl
    · obtain ⟨e, he⟩ := exists_eq_error hno
      obtain ⟨fault, rfl⟩ := Resource.parse_eq_error he
      exact ⟨fault, he⟩

/-- A document that asks for `18446744073709551616`, which is the double next above the numbers of 64 bits. -/
def limitText : String := "18446744073709551616"

/-- **A document asks for one number and is taken for another.** -/
theorem limit_is_coerced :
    ∃ v, Json.parse? limitText = some v ∧ Denotes 18446744073709551616 v ∧
      (Resource.count "nodes").parse v = .ok 18446744073709551615 ∧ ¬ ReadsExactly v := by
  have hparse : ∃ d, Json.parse? limitText = some (.real d) ∧ d = ⟨false, 2 ^ 52, 12⟩ := by
    have hrun : ((Json.parse? limitText).bind fun v => match v with
        | .real d => some d
        | _ => none) = some ⟨false, 2 ^ 52, 12⟩ := by decide +kernel
    obtain ⟨v, hv, hd⟩ := Option.bind_eq_some_iff.mp hrun
    split at hd
    · next d => exact ⟨d, hv, Option.some.inj hd⟩
    · cases hd
  obtain ⟨d, hv, rfl⟩ := hparse
  have hvalue : Binary64.value ⟨false, 2 ^ 52, 12⟩ = 2 ^ 64 := by
    norm_num [Binary64.value]
  have hat : AtLimit (.real ⟨false, 2 ^ 52, 12⟩) := ⟨_, rfl, hvalue⟩
  have hread : amountOf (.real ⟨false, 2 ^ 52, 12⟩) = .ok 18446744073709551615 := amountOf_eq_ok.mpr (.inr ⟨hat, rfl⟩)
  refine ⟨_, hv, ?_, Resource.parse_eq_ok.mpr ⟨hread, by decide⟩, fun h => ?_⟩
  · change Binary64.value _ = _
    rw [hvalue]
    norm_num
  · obtain ⟨hdenotes, -⟩ := (h.accepted _).mp hread
    change Binary64.value _ = _ at hdenotes
    rw [hvalue] at hdenotes
    norm_num at hdenotes

end ClusterAgents
