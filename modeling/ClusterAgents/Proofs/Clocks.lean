import ClusterAgents.Proofs.Numerals
import ClusterAgents.Time.Clock

/-!
# Times as texts

Hours, minutes and seconds are numbers with zeros in front, and a colon stands behind each of them but the last.  No
digit is a colon, so that the three can be found in the text again, and minutes and seconds always have two digits, so
that among texts of one length the first difference decides.

* `ofDigitChars_order` — digits of one length are in the order of their numbers;
* `Time.Shown` — what a text of a time looks like, and `Time.ofHms?`, which reads it;
* `Time.hms_injective` — different times are never written alike;
* `Time.times_are_legible` — what a time is written as, read back, told apart and put in order.
-/

namespace ClusterAgents

namespace Text

/-! ### The order of digits -/

/-- Texts of one length that stand in front decide the order, unless they are the same. -/
theorem append_lt_append_iff {xs ys : List Char} (hlength : xs.length = ys.length) (xs' ys' : List Char) :
    xs ++ xs' < ys ++ ys' ↔ xs < ys ∨ xs = ys ∧ xs' < ys' := by
  induction xs generalizing ys with
  | nil =>
    obtain rfl := List.length_eq_zero_iff.mp hlength.symm
    simp
  | cons x xs ih =>
    obtain ⟨y, ys, rfl⟩ := List.exists_cons_of_length_eq_add_one hlength.symm
    rw [List.cons_append, List.cons_append, List.cons_lt_cons_iff, List.cons_lt_cons_iff, List.cons.injEq,
      ih (Nat.succ.inj hlength)]
    tauto

theorem digit_order {c d : Char} (hc : c.isDigit = true) (hd : d.isDigit = true) :
    (c = d ↔ c.toNat - '0'.toNat = d.toNat - '0'.toNat) ∧ (c < d ↔ c.toNat - '0'.toNat < d.toNat - '0'.toNat) := by
  have hc := toNat_of_isDigit hc
  have hd := toNat_of_isDigit hd
  rw [← Char.toNat_inj]
  change (_ ↔ c.toNat - 48 = d.toNat - 48) ∧ (c.toNat < d.toNat ↔ c.toNat - 48 < d.toNat - 48)
  omega

/-- **Digits of one length are in the order of their numbers.** -/
theorem ofDigitChars_order {ds es : List Char} (hlength : ds.length = es.length)
    (hds : ∀ c ∈ ds, c.isDigit = true) (hes : ∀ c ∈ es, c.isDigit = true) :
    (ds = es ↔ Nat.ofDigitChars 10 ds 0 = Nat.ofDigitChars 10 es 0) ∧
      (ds < es ↔ Nat.ofDigitChars 10 ds 0 < Nat.ofDigitChars 10 es 0) := by
  -- from the end, since the number of more digits is ten times that of the digits in front and the last one
  induction ds using List.reverseRecOn generalizing es with
  | nil =>
    obtain rfl := List.length_eq_zero_iff.mp hlength.symm
    simp
  | append_singleton ds c ih =>
    rcases List.eq_nil_or_concat' es with rfl | ⟨es, d, rfl⟩
    · simp at hlength
    · have hlength : ds.length = es.length := by simpa using hlength
      have hc := hds c (List.mem_append_right _ List.mem_cons_self)
      have hd := hes d (List.mem_append_right _ List.mem_cons_self)
      obtain ⟨heq, hlt⟩ := ih hlength (fun x hx => hds x (List.mem_append_left _ hx))
        fun x hx => hes x (List.mem_append_left _ hx)
      obtain ⟨hsame, hless⟩ := digit_order hc hd
      have hc := (digitChar_of_isDigit hc).1
      have hd := (digitChar_of_isDigit hd).1
      have hone : ds ++ [c] = es ++ [d] ↔ ds = es ∧ c = d := by simp
      rw [hone, append_lt_append_iff hlength, List.cons_lt_cons_iff, Nat.ofDigitChars_append, Nat.ofDigitChars_append,
        Nat.ofDigitChars_cons, Nat.ofDigitChars_cons, Nat.ofDigitChars_nil, Nat.ofDigitChars_nil, heq, hlt, hsame,
        hless]
      simp only [List.not_lt_nil, and_false, or_false]
      omega

/-! ### Numbers with zeros in front -/

theorem length_pad (width n : Nat) : (pad width n).toList.length = max width (decimal n).toList.length := by
  rw [toList_pad, List.length_append, List.length_replicate, String.length_toList]
  omega

/-- Zeros are put in front up to the width, and none beyond it. -/
theorem head?_pad {width n : Nat} (hlong : width < (pad width n).toList.length) (hwidth : 1 ≤ width) :
    (pad width n).toList.head? ≠ some '0' := by
  have hnone : width - (decimal n).length = 0 := by
    rw [length_pad, String.length_toList] at hlong
    omega
  have hsame : (pad width n).toList = (decimal n).toList := by
    rw [toList_pad, hnone, List.replicate_zero, List.nil_append]
  rw [hsame] at hlong ⊢
  intro hhead
  exact (numeral_decimal n).decimal_eq_iff.mp rfl ⟨hhead, by omega⟩

theorem pad_order {width n n' : Nat} (hlength : (pad width n).toList.length = (pad width n').toList.length) :
    ((pad width n).toList = (pad width n').toList ↔ n = n') ∧
      ((pad width n).toList < (pad width n').toList ↔ n < n') := by
  have horder := ofDigitChars_order hlength (fun _ => isDigit_of_mem_pad) fun _ => isDigit_of_mem_pad
  rwa [ofDigitChars_pad, ofDigitChars_pad] at horder

theorem digitsValue_pad (width n : Nat) : digitsValue (pad width n).toList = n := ofDigitChars_pad width n

end Text

namespace Time

open Text

theorem toList_hms (n : Nat) : (hms n).toList = (pad 2 (n / 3600)).toList ++ ':' ::
    ((pad 2 (n % 3600 / 60)).toList ++ ':' :: (pad 2 (n % 60)).toList) := by
  simp [hms]

theorem length_pad_of_lt {n : Nat} (h : n < 60) : (pad 2 n).toList.length = 2 := by
  have hall : ∀ n < 60, (pad 2 n).toList.length = 2 := by decide +kernel
  exact hall n h

/-! ### What a time looks like -/

/-- The digits of hours, minutes and seconds, as schedulers write them. -/
structure Shows (hh mm ss : List Char) (n : Nat) : Prop where
  digits : ∀ c ∈ hh ++ mm ++ ss, c.isDigit = true
  /-- The hours have two digits, and more only if they need more. -/
  wide : 2 ≤ hh.length
  tight : 2 < hh.length → hh.head? ≠ some '0'
  two : mm.length = 2 ∧ ss.length = 2
  below : digitsValue mm < 60 ∧ digitsValue ss < 60
  total : 3600 * digitsValue hh + 60 * digitsValue mm + digitsValue ss = n

/-- A text shows a time. -/
def Shown (s : String) (n : Nat) : Prop :=
  ∃ hh mm ss, s.toList = hh ++ ':' :: (mm ++ ':' :: ss) ∧ Shows hh mm ss n

theorem shown_hms (n : Nat) : Shown (hms n) n := by
  refine ⟨_, _, _, toList_hms n, ?_⟩
  have hminutes : n % 3600 / 60 < 60 := by omega
  have hseconds : n % 60 < 60 := by omega
  constructor
  · intro c hc
    rw [List.mem_append, List.mem_append] at hc
    rcases hc with (hc | hc) | hc <;> exact isDigit_of_mem_pad hc
  · rw [length_pad]
    exact Nat.le_max_left _ _
  · exact fun hlong => head?_pad hlong (by decide)
  · exact ⟨length_pad_of_lt hminutes, length_pad_of_lt hseconds⟩
  · rw [digitsValue_pad, digitsValue_pad]
    exact ⟨hminutes, hseconds⟩
  · rw [digitsValue_pad, digitsValue_pad, digitsValue_pad]
    omega

/-! ### Reading a time -/

/-- Reads a time: three whole numbers with colons between them. -/
def ofHms? (s : String) : Option Nat :=
  match s.toList.splitOn ':' with
  | [hh, mm, ss] => do
    return 3600 * (← wholeOfDigits? hh) + 60 * (← wholeOfDigits? mm) + (← wholeOfDigits? ss)
  | _ => none

/-- **A text that shows a time is read**, as far as a quantity can hold it. -/
theorem Shown.ofHms? {s : String} {n : Nat} (h : Shown s n) (hn : n < 2 ^ 64) : ofHms? s = some n := by
  obtain ⟨hh, mm, ss, hs, h⟩ := h
  have hdigits := h.digits
  rw [List.forall_mem_append, List.forall_mem_append] at hdigits
  obtain ⟨⟨hhours, hminutes⟩, hseconds⟩ := hdigits
  have hcolon {ds : List Char} (hds : ∀ c ∈ ds, c.isDigit = true) : ':' ∉ ds := fun hmem => by
    cases (hds ':' hmem).symm.trans (by decide : ':'.isDigit = false)
  have hcut : s.toList.splitOn ':' = [hh, mm, ss] := by
    have hs' : s.toList = [':'].intercalate [hh, mm, ss] := by simp [hs, List.intercalate]
    rw [hs', List.splitOn_intercalate]
    · intro ds hds
      simp only [List.mem_cons, List.not_mem_nil, or_false] at hds
      rcases hds with rfl | rfl | rfl
      exacts [hcolon hhours, hcolon hminutes, hcolon hseconds]
    · exact List.cons_ne_nil _ _
  have hread {ds : List Char} (hds : ∀ c ∈ ds, c.isDigit = true) (hlength : 2 ≤ ds.length)
      (hvalue : digitsValue ds ≤ n) : wholeOfDigits? ds = some (digitsValue ds) :=
    wholeOfDigits?_eq_some.mpr
      ⟨⟨List.ne_nil_of_length_pos (by omega), hds, rfl⟩, Nat.lt_of_le_of_lt hvalue hn⟩
  have htotal := h.total
  unfold Time.ofHms?
  rw [hcut]
  dsimp only
  rw [hread hhours h.wide (by omega), hread hminutes h.two.1.ge (by omega), hread hseconds h.two.2.ge (by omega)]
  exact congrArg some htotal

/-! ### Texts of one length -/

/-- **Among texts of one length the order of the texts is that of the times.** -/
theorem hms_lt_iff {n n' : Nat} (hlength : (hms n).length = (hms n').length) : hms n < hms n' ↔ n < n' := by
  have hminutes (n : Nat) : (pad 2 (n % 3600 / 60)).toList.length = 2 := length_pad_of_lt (by omega)
  have hseconds (n : Nat) : (pad 2 (n % 60)).toList.length = 2 := length_pad_of_lt (by omega)
  have hhours : (pad 2 (n / 3600)).toList.length = (pad 2 (n' / 3600)).toList.length := by
    rw [← String.length_toList, ← String.length_toList, toList_hms, toList_hms] at hlength
    simp only [List.length_append, List.length_cons, hminutes, hseconds] at hlength
    omega
  obtain ⟨hsame, hless⟩ := pad_order hhours
  obtain ⟨hsame', hless'⟩ := pad_order ((hminutes n).trans (hminutes n').symm)
  have hless'' := (pad_order ((hseconds n).trans (hseconds n').symm)).2
  rw [String.lt_iff, toList_hms, toList_hms, append_lt_append_iff hhours, List.cons_lt_cons_iff,
    append_lt_append_iff ((hminutes n).trans (hminutes n').symm), List.cons_lt_cons_iff, hsame, hless, hsame', hless',
    hless'']
  simp only [Char.lt_irrefl, false_or, true_and]
  omega

/-- **Different times are never written alike.** -/
theorem hms_injective {n n' : Nat} (h : hms n = hms n') : n = n' := by
  have hlength : (hms n).length = (hms n').length := congrArg String.length h
  have hless := hms_lt_iff hlength
  have hless' := hms_lt_iff hlength.symm
  rw [h] at hless hless'
  have hirrefl : ¬ hms n' < hms n' := String.lt_irrefl _
  rcases Nat.lt_trichotomy n n' with hlt | heq | hlt
  · exact absurd (hless.mpr hlt) hirrefl
  · exact heq
  · exact absurd (hless'.mpr hlt) hirrefl

/-- What is owed to whoever reads a time. -/
structure Legible (n : Nat) : Prop where
  shown : Shown (hms n) n
  read : n < 2 ^ 64 → ofHms? (hms n) = some n
  told : ∀ n', hms n' = hms n → n' = n
  /-- Texts of one length are put in order as the times are. -/
  ordered : ∀ n', (hms n').length = (hms n).length → (hms n' < hms n ↔ n' < n)

/-- **Times are legible**: each can be read in its text, and compared by texts of one length. -/
theorem times_are_legible (n : Nat) : Legible n where
  shown := shown_hms n
  read := (shown_hms n).ofHms?
  told _ := hms_injective
  ordered _ := hms_lt_iff

/-- A hundred hours need three digits. -/
example : hms 359999 = "99:59:59" ∧ hms 360000 = "100:00:00" ∧ ofHms? "100:00:00" = some 360000 := by decide +kernel

end Time

end ClusterAgents
