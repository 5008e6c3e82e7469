import Mathlib.Data.List.Basic
import ClusterAgents.Text.Utf8

/-!
# Bytes of texts

Bytes are read from the front, a character at a time, and much that may stand there is none.  A character takes one
to four bytes; which, depends on its number.

* `numberBytes`, `encode_ofList` — the bytes of a character, and those of a text;
* `of_follow`, `exists_follow` — several bytes are read as a character exactly if they are its bytes;
* `decode_number`, `of_decode_cons` — the same for a character in front of others;
* `text?_eq_some` — so the bytes that have a text are just the bytes of that text;
* `lossy_encode` — of which nothing is lost.
-/

namespace ClusterAgents.Text.Utf8

/-! ### Writing -/

/-- The bytes of the character of a number. -/
def numberBytes (n : Nat) : List Nat :=
  if n < 0x80 then [n]
  else if n < 0x800 then [0xC0 + n / 64, 0x80 + n % 64]
  else if n < 0x10000 then [0xE0 + n / 4096, 0x80 + n / 64 % 64, 0x80 + n % 64]
  else [0xF0 + n / 262144, 0x80 + n / 4096 % 64, 0x80 + n / 64 % 64, 0x80 + n % 64]

/-- The numbers that characters have. -/
def IsNumber (n : Nat) : Prop := n < 0xD800 ∨ 0xDFFF < n ∧ n < 0x110000

theorem isNumber_toNat (c : Char) : IsNumber c.toNat := c.valid

theorem toNat_ofNat {n : Nat} (h : IsNumber n) : (Char.ofNat n).toNat = n := by
  unfold Char.ofNat
  rw [dif_pos (show n.isValidChar from h)]
  rfl

theorem map_utf8EncodeChar (c : Char) : (String.utf8EncodeChar c).map UInt8.toNat = numberBytes c.toNat := by
  have hc : c.val.toNat < 0x110000 := by
    have hnumber := isNumber_toNat c
    unfold IsNumber Char.toNat at hnumber
    omega
  unfold Char.toNat String.utf8EncodeChar numberBytes
  dsimp only
  generalize c.val.toNat = n at hc
  -- both ask the same questions, and the numbers of the bytes are below 256
  split_ifs
  all_goals try omega
  all_goals
    simp only [List.map_cons, List.map_nil, UInt8.toNat_ofNat', List.cons.injEq, and_true]
    omega

theorem toList_loop (bs : ByteArray) (i : Nat) (front : List UInt8) :
    ByteArray.toList.loop bs i front = front.reverse ++ bs.data.toList.drop i := by
  fun_induction ByteArray.toList.loop bs i front with
  | case1 i front hi ih =>
    have hget : bs.get! i = bs.data[i] := getElem!_pos bs.data i hi
    rw [ih, List.drop_eq_getElem_cons hi, hget, Array.getElem_toList, List.reverse_cons, List.append_assoc]
    rfl
  | case2 i front hi =>
    have hend : bs.data.toList.length ≤ i := Nat.le_of_not_lt hi
    rw [List.drop_eq_nil_of_le hend, List.append_nil]

/-- **The bytes of a text** are those of its characters. -/
theorem encode_ofList (cs : List Char) : encode (String.ofList cs) = cs.flatMap fun c => numberBytes c.toNat := by
  have hlist (bs : ByteArray) : bs.toList = bs.data.toList := toList_loop bs 0 []
  unfold encode String.toUTF8
  rw [hlist, String.toByteArray_ofList, List.utf8Encode, List.toList_data_toByteArray, List.map_flatMap]
  simp only [map_utf8EncodeChar]

/-! ### Several bytes of a character -/

theorem follow_cons (more low high bits b : Nat) (rest : List Nat) :
    follow (more + 1) low high bits (b :: rest) =
      if low ≤ b ∧ b ≤ high then
        ((follow more 0x80 0xBF (bits * 64 + b % 64) rest).1, (follow more 0x80 0xBF (bits * 64 + b % 64) rest).2 + 1)
      else (none, 0) := by
  rw [follow]
  simp only [Bool.and_eq_true, decide_eq_true_eq]

theorem follow_succ_eq_some {more low high bits : Nat} {bs : List Nat} {n used : Nat} :
    follow (more + 1) low high bits bs = (some n, used) ↔ ∃ b rest k, bs = b :: rest ∧ (low ≤ b ∧ b ≤ high) ∧
      follow more 0x80 0xBF (bits * 64 + b % 64) rest = (some n, k) ∧ used = k + 1 := by
  cases bs with
  | nil => simp [follow]
  | cons b rest =>
    rw [follow_cons]
    constructor
    · intro h
      split at h
      · next hb =>
        obtain ⟨hn, hused⟩ := Prod.mk.inj h
        exact ⟨b, rest, _, rfl, hb, Prod.ext hn rfl, hused.symm⟩
      · cases h
    · rintro ⟨_, _, k, he, hb, hf, rfl⟩
      cases he
      rw [if_pos hb, hf]

theorem follow_zero_eq_some {low high bits : Nat} {bs : List Nat} {n used : Nat} :
    follow 0 low high bits bs = (some n, used) ↔ n = bits ∧ used = 0 := by
  simp [follow, eq_comm]

section

variable {b n : Nat}

theorem lead?_two (h : 0xC2 ≤ b ∧ b ≤ 0xDF) : lead? b = some ⟨1, 0x80, 0xBF, b - 0xC0⟩ := by
  unfold lead?
  simp only [Bool.and_eq_true, decide_eq_true_eq]
  rw [if_pos h]

theorem lead?_three (h : 0xE0 ≤ b ∧ b ≤ 0xEF) :
    lead? b = some ⟨2, if b = 0xE0 then 0xA0 else 0x80, if b = 0xED then 0x9F else 0xBF, b - 0xE0⟩ := by
  unfold lead?
  simp only [Bool.and_eq_true, decide_eq_true_eq]
  rw [if_neg (by omega)]
  by_cases hfirst : b = 0xE0
  · subst hfirst
    rfl
  by_cases hgap : b = 0xED
  · subst hgap
    rfl
  rw [if_neg hfirst, if_neg hgap, if_pos (by omega), if_neg hfirst, if_neg hgap]

theorem lead?_four (h : 0xF0 ≤ b ∧ b ≤ 0xF4) :
    lead? b = some ⟨3, if b = 0xF0 then 0x90 else 0x80, if b = 0xF4 then 0x8F else 0xBF, b - 0xF0⟩ := by
  unfold lead?
  simp only [Bool.and_eq_true, decide_eq_true_eq]
  rw [if_neg (by omega), if_neg (by omega), if_neg (by omega), if_neg (by omega)]
  by_cases hfirst : b = 0xF0
  · subst hfirst
    rfl
  by_cases hlast : b = 0xF4
  · subst hlast
    rfl
  rw [if_neg hfirst, if_pos (by omega), if_neg hfirst, if_neg hlast]

theorem lead?_range {l : Lead} (h : lead? b = some l) :
    (0xC2 ≤ b ∧ b ≤ 0xDF) ∨ (0xE0 ≤ b ∧ b ≤ 0xEF) ∨ 0xF0 ≤ b ∧ b ≤ 0xF4 := by
  unfold lead? at h
  simp only [Bool.and_eq_true, decide_eq_true_eq] at h
  split_ifs at h <;> omega

theorem numberBytes_one (h : n < 0x80) : numberBytes n = [n] := if_pos h

theorem numberBytes_two (h : 0x80 ≤ n ∧ n < 0x800) : numberBytes n = [0xC0 + n / 64, 0x80 + n % 64] := by
  unfold numberBytes
  rw [if_neg (by omega), if_pos h.2]

theorem numberBytes_three (h : 0x800 ≤ n ∧ n < 0x10000) :
    numberBytes n = [0xE0 + n / 4096, 0x80 + n / 64 % 64, 0x80 + n % 64] := by
  unfold numberBytes
  rw [if_neg (by omega), if_neg (by omega), if_pos h.2]

theorem numberBytes_four (h : 0x10000 ≤ n) :
    numberBytes n = [0xF0 + n / 262144, 0x80 + n / 4096 % 64, 0x80 + n / 64 % 64, 0x80 + n % 64] := by
  unfold numberBytes
  rw [if_neg (by omega), if_neg (by omega), if_neg (by omega)]

/-- **What is read from several bytes** is the character that these are the bytes of. -/
theorem of_follow {l : Lead} (hl : lead? b = some l) {rest : List Nat} {k : Nat}
    (h : follow l.more l.low l.high l.bits rest = (some n, k)) :
    IsNumber n ∧ b :: rest = numberBytes n ++ rest.drop k := by
  unfold IsNumber
  rcases lead?_range hl with hb | hb | hb
  · obtain rfl := Option.some.inj (hl.symm.trans (lead?_two hb))
    dsimp only at h
    obtain ⟨x, rest, _, rfl, hx, h₁, rfl⟩ := follow_succ_eq_some.mp h
    obtain ⟨rfl, rfl⟩ := follow_zero_eq_some.mp h₁
    refine ⟨by omega, ?_⟩
    rw [numberBytes_two ⟨by omega, by omega⟩]
    simp only [List.drop_succ_cons, List.drop_zero, List.cons_append, List.nil_append, List.cons.injEq, and_true]
    omega
  · obtain rfl := Option.some.inj (hl.symm.trans (lead?_three hb))
    dsimp only at h
    obtain ⟨x, rest, _, rfl, hx, h₁, rfl⟩ := follow_succ_eq_some.mp h
    obtain ⟨y, rest, _, rfl, hy, h₂, rfl⟩ := follow_succ_eq_some.mp h₁
    obtain ⟨rfl, rfl⟩ := follow_zero_eq_some.mp h₂
    -- the bounds of the second byte leave out small numbers and the gap
    refine ⟨by split_ifs at hx <;> omega, ?_⟩
    rw [numberBytes_three ⟨by split_ifs at hx <;> omega, by omega⟩]
    simp only [List.drop_succ_cons, List.drop_zero, List.cons_append, List.nil_append, List.cons.injEq, and_true]
    split_ifs at hx <;> omega
  · obtain rfl := Option.some.inj (hl.symm.trans (lead?_four hb))
    dsimp only at h
    obtain ⟨x, rest, _, rfl, hx, h₁, rfl⟩ := follow_succ_eq_some.mp h
    obtain ⟨y, rest, _, rfl, hy, h₂, rfl⟩ := follow_succ_eq_some.mp h₁
    obtain ⟨z, rest, _, rfl, hz, h₃, rfl⟩ := follow_succ_eq_some.mp h₂
    obtain ⟨rfl, rfl⟩ := follow_zero_eq_some.mp h₃
    refine ⟨by split_ifs at hx <;> omega, ?_⟩
    rw [numberBytes_four (by split_ifs at hx <;> omega)]
    simp only [List.drop_succ_cons, List.drop_zero, List.cons_append, List.nil_append, List.cons.injEq, and_true]
    split_ifs at hx <;> omega

/-- **Bytes of a character** are read as that character, if there are several of them. -/
theorem exists_follow (hmany : 0x80 ≤ n) (hn : IsNumber n) {rest back : List Nat} (h : b :: rest = numberBytes n ++ back) :
    0x80 ≤ b ∧ ∃ l k, lead? b = some l ∧ follow l.more l.low l.high l.bits rest = (some n, k) ∧ rest.drop k = back := by
  unfold IsNumber at hn
  rcases Nat.lt_or_ge n 0x800 with htwo | hmore
  · rw [numberBytes_two ⟨hmany, htwo⟩] at h
    obtain ⟨rfl, rfl⟩ := List.cons.inj h
    refine ⟨by omega, _, 1, lead?_two ⟨by omega, by omega⟩, ?_, rfl⟩
    dsimp only
    refine follow_succ_eq_some.mpr ⟨_, _, 0, rfl, ⟨by omega, by omega⟩, ?_, rfl⟩
    exact follow_zero_eq_some.mpr ⟨by omega, rfl⟩
  rcases Nat.lt_or_ge n 0x10000 with hthree | hfour
  · rw [numberBytes_three ⟨hmore, hthree⟩] at h
    obtain ⟨rfl, rfl⟩ := List.cons.inj h
    refine ⟨by omega, _, 2, lead?_three ⟨by omega, by omega⟩, ?_, rfl⟩
    dsimp only
    refine follow_succ_eq_some.mpr ⟨_, _, 1, rfl, ⟨by split_ifs <;> omega, by split_ifs <;> omega⟩, ?_, rfl⟩
    refine follow_succ_eq_some.mpr ⟨_, _, 0, rfl, ⟨by omega, by omega⟩, ?_, rfl⟩
    exact follow_zero_eq_some.mpr ⟨by omega, rfl⟩
  · rw [numberBytes_four hfour] at h
    obtain ⟨rfl, rfl⟩ := List.cons.inj h
    refine ⟨by omega, _, 3, lead?_four ⟨by omega, by omega⟩, ?_, rfl⟩
    dsimp only
    refine follow_succ_eq_some.mpr ⟨_, _, 2, rfl, ⟨by split_ifs <;> omega, by split_ifs <;> omega⟩, ?_, rfl⟩
    refine follow_succ_eq_some.mpr ⟨_, _, 1, rfl, ⟨by omega, by omega⟩, ?_, rfl⟩
    refine follow_succ_eq_some.mpr ⟨_, _, 0, rfl, ⟨by omega, by omega⟩, ?_, rfl⟩
    exact follow_zero_eq_some.mpr ⟨by omega, rfl⟩

theorem decode_of_lead? (hmany : 0x80 ≤ b) {l : Lead} (hl : lead? b = some l) {rest : List Nat} {c : Option Nat} {k : Nat}
    (hf : follow l.more l.low l.high l.bits rest = (c, k)) :
    decode (b :: rest) = c.map Char.ofNat :: decode (rest.drop k) := by
  rw [decode, if_neg (by omega), hl]
  dsimp only
  rw [hf]

end

/-! ### Reading -/

/-- The bytes of a character in front of others are read as that character in front of them. -/
theorem decode_number {n : Nat} (h : IsNumber n) (rest : List Nat) :
    decode (numberBytes n ++ rest) = some (Char.ofNat n) :: decode rest := by
  rcases Nat.lt_or_ge n 0x80 with hone | hmany
  · rw [numberBytes_one hone, List.cons_append, List.nil_append, decode, if_pos hone]
  · obtain ⟨b, back, hb⟩ : ∃ b back, numberBytes n ++ rest = b :: back := by
      apply List.exists_cons_of_ne_nil
      unfold numberBytes
      split_ifs <;> simp
    obtain ⟨hfirst, l, k, hl, hf, hrest⟩ := exists_follow hmany h hb.symm
    rw [hb, decode_of_lead? hfirst hl hf, hrest]
    rfl

/-- A character that is read has its bytes in front. -/
theorem of_decode_cons {bs : List Nat} {c : Char} {cs : List (Option Char)} (h : decode bs = some c :: cs) :
    ∃ rest, bs = numberBytes c.toNat ++ rest ∧ decode rest = cs := by
  cases bs with
  | nil => simp [decode] at h
  | cons b rest =>
    rcases Nat.lt_or_ge b 0x80 with hone | hmany
    · rw [decode, if_pos hone] at h
      obtain ⟨hc, rfl⟩ := List.cons.inj h
      obtain rfl := Option.some.inj hc
      refine ⟨rest, ?_, rfl⟩
      rw [toNat_ofNat (.inl (by omega)), numberBytes_one hone]
      rfl
    · cases hl : lead? b with
      | none =>
        rw [decode, if_neg (by omega), hl] at h
        cases h
      | some l =>
        rw [decode_of_lead? hmany hl rfl] at h
        obtain ⟨hc, rfl⟩ := List.cons.inj h
        obtain ⟨n, hn, rfl⟩ := Option.map_eq_some_iff.mp hc
        obtain ⟨hnumber, hbytes⟩ := of_follow hl (Prod.ext hn rfl)
        exact ⟨_, by rw [toNat_ofNat hnumber]; exact hbytes, rfl⟩

theorem decode_eq_map_some {bs : List Nat} {cs : List Char} :
    decode bs = cs.map some ↔ bs = cs.flatMap fun c => numberBytes c.toNat := by
  induction cs generalizing bs with
  | nil =>
    cases bs with
    | nil => simp [decode]
    | cons b rest =>
      rw [decode]
      split
      · simp
      · split <;> simp
  | cons c cs ih =>
    rw [List.map_cons, List.flatMap_cons]
    constructor
    · intro h
      obtain ⟨rest, rfl, hrest⟩ := of_decode_cons h
      rw [ih.mp hrest]
    · rintro rfl
      rw [decode_number (isNumber_toNat c), Char.ofNat_toNat, ih.mpr rfl]

theorem mapM_id_eq_some {xs : List (Option Char)} {cs : List Char} : xs.mapM id = some cs ↔ xs = cs.map some := by
  induction xs generalizing cs with
  | nil => cases cs <;> simp
  | cons x xs ih =>
    cases x with
    | none => cases cs <;> simp
    | some c =>
      simp only [List.mapM_cons, Option.bind_eq_bind, Option.bind_eq_some_iff, ih]
      cases cs with
      | nil => simp
      | cons c' cs => simp [and_comm]

/-- **Bytes have a text** if they are its bytes. -/
theorem text?_eq_some {bs : List Nat} {s : String} : text? bs = some s ↔ encode s = bs := by
  obtain ⟨cs, rfl⟩ : ∃ cs, s = String.ofList cs := ⟨s.toList, String.ofList_toList.symm⟩
  unfold text?
  rw [encode_ofList]
  constructor
  · intro h
    obtain ⟨cs', hcs', he⟩ := Option.map_eq_some_iff.mp h
    obtain rfl := String.ofList_injective he
    exact (decode_eq_map_some.mp (mapM_id_eq_some.mp hcs')).symm
  · intro h
    rw [mapM_id_eq_some.mpr (decode_eq_map_some.mpr h.symm)]
    rfl

/-- **Of the bytes of a text nothing is lost.** -/
theorem lossy_encode (s : String) : lossy (encode s) = s := by
  have htext : text? (encode s) = some s := text?_eq_some.mpr rfl
  obtain ⟨cs, hcs, rfl⟩ := Option.map_eq_some_iff.mp htext
  rw [lossy, mapM_id_eq_some.mp hcs, List.map_map]
  exact congrArg String.ofList (List.map_id cs)

end ClusterAgents.Text.Utf8
