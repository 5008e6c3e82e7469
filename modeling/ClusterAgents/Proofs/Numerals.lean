import Mathlib.Algebra.Group.Nat.Defs
import Mathlib.Data.List.Basic
import Mathlib.Data.List.Induction
import Mathlib.Data.List.TakeWhile
import ClusterAgents.Proofs.Digits
import ClusterAgents.Text.Basic

/-!
# Numerals

A numeral is a run of one or more digits.  Every number has one, its decimal text, and has others with zeros in
front of it.

* `Numeral` — a run of digits and its number;
* `Superfluous` — a zero in front of other digits;
* `Numeral.decimal_eq_iff` — the one numeral of a number without such a zero is its decimal text;
* `wholeOfDigits?_eq_some`, `wholeOfChars?_eq_some` — the numerals that are read as whole numbers, and `Numeric`,
  those with a sign;
* `trim_eq_iff` — what is left of a text without the blanks on either side.
-/

namespace ClusterAgents.Text

theorem isDigit_eq (c : Char) : isDigit c = c.isDigit := rfl

theorem toNat_of_isDigit {c : Char} (h : c.isDigit = true) : 48 ≤ c.toNat ∧ c.toNat ≤ 57 := by
  simpa [Char.isDigit, UInt32.le_iff_toNat_le] using h

theorem le_wholeLimit_iff {n : Nat} : n ≤ wholeLimit ↔ n < 2 ^ 64 := by
  change n ≤ 2 ^ 64 - 1 ↔ n < 2 ^ 64
  omega

/-- A run of one or more digits, and the number that it stands for. -/
structure Numeral (ds : List Char) (n : Nat) : Prop where
  nonempty : ds ≠ []
  digits : ∀ c ∈ ds, c.isDigit = true
  value : Nat.ofDigitChars 10 ds 0 = n

theorem Numeral.not_mem {ds : List Char} {n : Nat} (h : Numeral ds n) {c : Char} (hc : c.isDigit = false) : c ∉ ds := by
  intro hmem
  rw [h.digits c hmem] at hc
  cases hc

/-- A zero stands in front of other digits. -/
def Superfluous (ds : List Char) : Prop := ds.head? = some '0' ∧ 2 ≤ ds.length

theorem numeral_decimal (n : Nat) : Numeral (decimal n).toList n :=
  ⟨decimal_ne_nil n, fun _ hc => isDigit_of_mem_decimal hc, ofDigitChars_decimal n⟩

theorem wholeOfDigits?_eq_some {ds : List Char} {n : Nat} :
    wholeOfDigits? ds = some n ↔ Numeral ds n ∧ n < 2 ^ 64 := by
  have hvalue : digitsValue ds = Nat.ofDigitChars 10 ds 0 := rfl
  unfold wholeOfDigits?
  split
  · next hno =>
    refine iff_of_false (Option.some_ne_none n).symm fun ⟨h, _⟩ => ?_
    have hall : ds.all isDigit = true := List.all_eq_true.mpr h.digits
    rw [Bool.or_eq_true, List.isEmpty_iff, hall] at hno
    exact h.nonempty (hno.resolve_right Bool.false_ne_true)
  · next hall =>
    rw [Bool.or_eq_true, not_or, List.isEmpty_iff, Bool.not_eq_true', Bool.not_eq_false, List.all_eq_true] at hall
    rw [hvalue]
    split
    · next hlimit =>
      rw [Option.some.injEq]
      constructor
      · rintro rfl
        exact ⟨⟨hall.1, hall.2, rfl⟩, le_wholeLimit_iff.mp hlimit⟩
      · exact fun h => h.1.value
    · next hlimit =>
      refine iff_of_false (Option.some_ne_none n).symm fun ⟨h, hn⟩ => hlimit ?_
      rw [h.value]
      exact le_wholeLimit_iff.mpr hn

/-! ### One digit -/

theorem digitChar_of_isDigit {c : Char} (h : c.isDigit = true) :
    c.toNat - '0'.toNat < 10 ∧ (c.toNat - '0'.toNat).digitChar = c := by
  have hc := toNat_of_isDigit h
  have hlt : c.toNat - '0'.toNat < 10 := by
    change c.toNat - 48 < 10
    omega
  refine ⟨hlt, Char.toNat_inj.mp ?_⟩
  rw [Nat.toNat_digitChar_of_lt_ten hlt]
  change 48 + (c.toNat - 48) = c.toNat
  omega

theorem toDigits_of_isDigit {c : Char} (h : c.isDigit = true) : Nat.toDigits 10 (c.toNat - '0'.toNat) = [c] := by
  obtain ⟨hlt, hchar⟩ := digitChar_of_isDigit h
  rw [Nat.toDigits_of_lt_base hlt, hchar]

theorem pos_of_isDigit {c : Char} (h : c.isDigit = true) (hzero : c ≠ '0') : 0 < c.toNat - '0'.toNat := by
  refine Nat.pos_of_ne_zero fun he => hzero ?_
  rw [← (digitChar_of_isDigit h).2, he]
  rfl

/-! ### Zeros in front -/

/-- Digits that do not start with a zero are the digits of their number, which is not zero. -/
theorem toDigits_ofDigitChars {ds : List Char} (hne : ds ≠ []) (hdigits : ∀ c ∈ ds, c.isDigit = true)
    (hzero : ds.head? ≠ some '0') :
    0 < Nat.ofDigitChars 10 ds 0 ∧ Nat.toDigits 10 (Nat.ofDigitChars 10 ds 0) = ds := by
  induction ds using List.reverseRecOn with
  | nil => exact absurd rfl hne
  | append_singleton ds c ih =>
    have hc : c.isDigit = true := hdigits c (List.mem_append_right ds List.mem_cons_self)
    have hvalue : Nat.ofDigitChars 10 (ds ++ [c]) 0 = 10 * Nat.ofDigitChars 10 ds 0 + (c.toNat - '0'.toNat) := by
      rw [Nat.ofDigitChars_append, Nat.ofDigitChars_cons, Nat.ofDigitChars_nil]
    rw [hvalue]
    by_cases hds : ds = []
    · subst hds
      rw [Nat.ofDigitChars_nil, Nat.mul_zero, Nat.zero_add]
      exact ⟨pos_of_isDigit hc fun h => hzero (by rw [h]; rfl), toDigits_of_isDigit hc⟩
    · have hhead : ds.head? ≠ some '0' := by rwa [List.head?_append_of_ne_nil ds hds] at hzero
      obtain ⟨hpos, hih⟩ := ih hds (fun d hd => hdigits d (List.mem_append_left _ hd)) hhead
      refine ⟨by omega, ?_⟩
      rw [← Nat.toDigits_append_toDigits (by decide) hpos (digitChar_of_isDigit hc).1, hih, toDigits_of_isDigit hc]

theorem head?_toDigits {n : Nat} (h : 0 < n) : (Nat.toDigits 10 n).head? ≠ some '0' := by
  induction n using Nat.base_induction 10 (by decide) with
  | single d hd =>
    have hall : ∀ d < 10, 0 < d → d.digitChar ≠ '0' := by decide
    rw [Nat.toDigits_of_lt_base hd, List.head?_cons]
    exact fun he => hall d hd h (Option.some.inj he)
  | digit m d hd hm ih =>
    have hne : Nat.toDigits 10 m ≠ [] := Nat.toDigits_ne_nil
    rw [← Nat.toDigits_append_toDigits (by decide) hm hd, List.head?_append_of_ne_nil _ hne]
    exact ih hm

/-- **The decimal text of a number is the one numeral of it** that has no zero too many. -/
theorem Numeral.decimal_eq_iff {ds : List Char} {n : Nat} (h : Numeral ds n) :
    (decimal n).toList = ds ↔ ¬ Superfluous ds := by
  rw [toList_decimal]
  constructor
  · rintro rfl ⟨hhead, hlength⟩
    rcases Nat.eq_zero_or_pos n with rfl | hpos
    · revert hlength
      decide
    · exact head?_toDigits hpos hhead
  · intro hno
    by_cases hhead : ds.head? = some '0'
    · -- the zero is the only digit
      obtain ⟨rest, rfl⟩ := List.head?_eq_some_iff.mp hhead
      have hrest : rest = [] := by
        refine List.length_eq_zero_iff.mp (Nat.eq_zero_of_not_pos fun hpos => hno ⟨hhead, ?_⟩)
        rw [List.length_cons]
        omega
      subst hrest
      rw [← h.value]
      rfl
    · rw [← h.value]
      exact (toDigits_ofDigitChars h.nonempty h.digits hhead).2

/-! ### Signs and blanks -/

theorem isBlank_of_isDigit {c : Char} (h : c.isDigit = true) : isBlank c = false := by
  have hc := toNat_of_isDigit h
  simp [isBlank]
  omega

/-- A numeral with a sign `+` or none. -/
def Numeric (cs : List Char) (n : Nat) : Prop :=
  ∃ sign ds, cs = sign ++ ds ∧ (sign = [] ∨ sign = ['+']) ∧ Numeral ds n

theorem wholeOfChars?_eq_some {cs : List Char} {n : Nat} :
    wholeOfChars? cs = some n ↔ Numeric cs n ∧ n < 2 ^ 64 := by
  have hplus {ds : List Char} : ¬ Numeral ('+' :: ds) n := fun h => h.not_mem (by decide) List.mem_cons_self
  unfold wholeOfChars?
  split
  · next ds =>
    rw [wholeOfDigits?_eq_some]
    refine and_congr_left fun _ => ⟨fun h => ⟨['+'], ds, rfl, .inr rfl, h⟩, ?_⟩
    rintro ⟨sign, es, heq, rfl | rfl, hes⟩
    · rw [List.nil_append] at heq
      exact absurd (heq ▸ hes) hplus
    · cases heq
      exact hes
  · next _ hno =>
    rw [wholeOfDigits?_eq_some]
    refine and_congr_left fun _ => ⟨fun h => ⟨[], cs, rfl, .inl rfl, h⟩, ?_⟩
    rintro ⟨sign, es, rfl, rfl | rfl, hes⟩
    · exact hes
    · exact absurd rfl (hno es)

theorem Numeric.ends {cs : List Char} {n : Nat} (h : Numeric cs n) :
    cs ≠ [] ∧ (∀ c ∈ cs.head?, isBlank c = false) ∧ ∀ c ∈ cs.getLast?, isBlank c = false := by
  obtain ⟨sign, ds, rfl, hsign, hds⟩ := h
  have hall : ∀ c ∈ sign ++ ds, isBlank c = false := by
    intro c hc
    rcases List.mem_append.mp hc with hc | hc
    · rcases hsign with rfl | rfl
      · cases hc
      · rw [List.mem_singleton.mp hc]
        decide
    · exact isBlank_of_isDigit (hds.digits c hc)
  exact ⟨List.append_ne_nil_of_right_ne_nil _ hds.nonempty, fun c hc => hall c (List.mem_of_head? hc),
    fun c hc => hall c (List.mem_of_getLast? hc)⟩

theorem run_of_head? {p : Char → Bool} {cs : List Char} (h : ∀ c ∈ cs.head?, p c = false) :
    cs.takeWhile p = [] ∧ cs.dropWhile p = cs := by
  cases cs with
  | nil => exact ⟨rfl, rfl⟩
  | cons c cs =>
    have hc : ¬ p c = true := Bool.not_eq_true _ ▸ h c rfl
    exact ⟨List.takeWhile_cons_of_neg hc, List.dropWhile_cons_of_neg hc⟩

theorem trimStart_append {before cs : List Char} (hbefore : ∀ c ∈ before, isBlank c = true)
    (hcs : ∀ c ∈ cs.head?, isBlank c = false) : trimStart (before ++ cs) = cs := by
  unfold trimStart
  rw [List.dropWhile_append_of_pos hbefore, (run_of_head? hcs).2]

theorem exists_trimStart (cs : List Char) : ∃ before, cs = before ++ trimStart cs ∧ ∀ c ∈ before, isBlank c = true :=
  ⟨cs.takeWhile isBlank, List.takeWhile_append_dropWhile.symm, fun _ hc => List.mem_takeWhile_imp hc⟩

/-- **Trimming takes the blanks away and nothing else.** -/
theorem trim_eq_iff {s : String} {cs : List Char} (hne : cs ≠ []) (hfirst : ∀ c ∈ cs.head?, isBlank c = false)
    (hlast : ∀ c ∈ cs.getLast?, isBlank c = false) :
    (trim s).toList = cs ↔ ∃ before after, s.toList = before ++ cs ++ after ∧
      (∀ c ∈ before, isBlank c = true) ∧ ∀ c ∈ after, isBlank c = true := by
  rw [trim, String.toList_ofList]
  constructor
  · rintro rfl
    obtain ⟨before, hbefore, hblank⟩ := exists_trimStart s.toList
    obtain ⟨after, hafter, hblank'⟩ := exists_trimStart (trimStart s.toList).reverse
    refine ⟨before, after.reverse, ?_, hblank, fun c hc => hblank' c (List.mem_reverse.mp hc)⟩
    rw [trimEnd, List.append_assoc, ← List.reverse_append, ← hafter, List.reverse_reverse, ← hbefore]
  · rintro ⟨before, after, hs, hbefore, hafter⟩
    have hhead : ∀ c ∈ (cs ++ after).head?, isBlank c = false := by
      rw [List.head?_append_of_ne_nil cs hne]
      exact hfirst
    have hreverse : ∀ c ∈ cs.reverse.head?, isBlank c = false := by
      rw [List.head?_reverse]
      exact hlast
    rw [hs, List.append_assoc, trimStart_append hbefore hhead, trimEnd, List.reverse_append,
      trimStart_append (fun c hc => hafter c (List.mem_reverse.mp hc)) hreverse, List.reverse_reverse]

end ClusterAgents.Text
