import ClusterAgents.Agent

/-!
# The characters of numbers and names

* `isDigit_of_mem_decimal`, `ofDigitChars_decimal` — a decimal text consists of digits, and is read back;
* `isDigit_of_mem_pad`, `ofDigitChars_pad` — so does a text with zeros in front;
* `mem_hexDigits` — the digits of a number in base 16;
* `AgentId.mem_text` — the written form of an agent consists of such digits and of hyphens.
-/

namespace ClusterAgents

namespace Text

theorem toList_decimal (n : Nat) : (decimal n).toList = Nat.toDigits 10 n := Nat.toList_repr

theorem decimal_ne_nil (n : Nat) : (decimal n).toList ≠ [] := by
  rw [toList_decimal]
  exact Nat.toDigits_ne_nil

theorem isDigit_of_mem_decimal {n : Nat} {c : Char} (h : c ∈ (decimal n).toList) : c.isDigit = true := by
  rw [toList_decimal] at h
  exact Nat.isDigit_of_mem_toDigits (by decide) (by decide) h

theorem ofDigitChars_decimal (n : Nat) : Nat.ofDigitChars 10 (decimal n).toList 0 = n := by
  rw [toList_decimal]
  exact Nat.ofDigitChars_toDigits (by decide) (by decide)

theorem toList_pad (width n : Nat) :
    (pad width n).toList = List.replicate (width - (decimal n).length) '0' ++ (decimal n).toList := by
  rw [pad, String.toList_append, String.toList_ofList]

theorem isDigit_of_mem_pad {width n : Nat} {c : Char} (h : c ∈ (pad width n).toList) : c.isDigit = true := by
  rw [toList_pad, List.mem_append] at h
  rcases h with h | h
  · rw [List.eq_of_mem_replicate h]
    decide
  · exact isDigit_of_mem_decimal h

theorem pad_ne_nil (width n : Nat) : (pad width n).toList ≠ [] := by
  rw [toList_pad]
  exact List.append_ne_nil_of_right_ne_nil _ (decimal_ne_nil n)

theorem le_length_pad (width n : Nat) : width ≤ (pad width n).length := by
  rw [← String.length_toList, toList_pad, List.length_append, List.length_replicate, String.length_toList]
  omega

/-- Zeros in front change nothing. -/
theorem ofDigitChars_pad (width n : Nat) : Nat.ofDigitChars 10 (pad width n).toList 0 = n := by
  rw [toList_pad, Nat.ofDigitChars_append, Nat.ofDigitChars_replicate_zero, Nat.mul_zero, ofDigitChars_decimal]

/-- The digits of base 16, in lower case. -/
def hexDigits : List Char := "0123456789abcdef".toList

theorem digitChar_mem_hexDigits {d : Nat} (h : d < 16) : d.digitChar ∈ hexDigits := by
  have hall : ∀ d < 16, d.digitChar ∈ hexDigits := by decide +kernel
  exact hall d h

theorem mem_hexDigits {n : Nat} {c : Char} (h : c ∈ hex n) : c ∈ hexDigits := by
  unfold hex at h
  induction n using Nat.base_induction 16 (by decide) with
  | single d hd =>
    rw [Nat.toDigits_of_lt_base hd, List.mem_singleton] at h
    rw [h]
    exact digitChar_mem_hexDigits hd
  | digit m d hd hm ih =>
    rw [← Nat.toDigits_append_toDigits (by decide) hm hd, List.mem_append] at h
    rcases h with h | h
    · exact ih h
    · rw [Nat.toDigits_of_lt_base hd, List.mem_singleton] at h
      rw [h]
      exact digitChar_mem_hexDigits hd

theorem mem_padHex {width n : Nat} {c : Char} (h : c ∈ padHex width n) : c ∈ hexDigits := by
  unfold padHex at h
  rcases List.mem_append.mp h with h | h
  · rw [(List.mem_replicate.mp h).2]
    decide
  · exact mem_hexDigits h

end Text

namespace AgentId

open Text

theorem mem_hyphenate {ns : List Nat} {ds : List Char} {c : Char} (h : c ∈ hyphenate ns ds) :
    c = '-' ∨ c ∈ ds := by
  induction ns, ds using hyphenate.induct with
  | case1 ds => exact .inr h
  | case2 ds n => exact .inr (List.mem_of_mem_take h)
  | case3 ds n ns hns ih =>
    rw [hyphenate, List.mem_append, List.mem_cons] at h
    · rcases h with h | h | h
      · exact .inr (List.mem_of_mem_take h)
      · exact .inl h
      · exact (ih h).imp id List.mem_of_mem_drop
    · exact hns

/-- The written form of an agent consists of digits of base 16 and hyphens. -/
theorem mem_text {a : AgentId} {c : Char} (h : c ∈ a.text.toList) : c ∈ '-' :: hexDigits := by
  unfold text at h
  rw [String.toList_ofList] at h
  rcases mem_hyphenate h with rfl | h
  · exact List.mem_cons_self
  · exact List.mem_cons_of_mem _ (mem_padHex h)

theorem text_ne_nil (a : AgentId) : a.text.toList ≠ [] := by
  have h : '-' ∈ a.text.toList := by
    unfold text
    rw [String.toList_ofList, groups, hyphenate]
    · exact List.mem_append_right _ List.mem_cons_self
    · exact List.cons_ne_nil _ _
  exact List.ne_nil_of_mem h

end AgentId

end ClusterAgents
