import Mathlib.Data.List.TakeWhile
import ClusterAgents.Proofs.Numerals
import ClusterAgents.Proofs.Steps
import ClusterAgents.Schema.Version

/-!
# Texts of versions

A text is taken for a version in two passes: its points are counted, and then it is scanned from the front.  What
both together accept is said here without either of them.

* `Version.Written` — three numerals with points between them, and the version that they stand for;
* `Scan.whole_eq_ok`, `Scan.triplet_eq_ok`, `Version.parse_eq_ok` — one number, three of them, and a whole text;
* `Version.text_eq_iff` — the texts that are written again as they were read;
* `Version.ReadsBack`, `Version.reads_back` — reading and writing as inverses.
-/

namespace ClusterAgents

open Text

namespace Text.Scan

/-! ### Scans -/

/-- A numeral is scanned up to where it ends. -/
theorem whole_eq_ok {cs rest : List Char} {n : Nat} :
    whole cs = .ok (n, rest) ↔
      ∃ ds, cs = ds ++ rest ∧ Numeral ds n ∧ n < 2 ^ 64 ∧ ∀ c ∈ rest.head?, c.isDigit = false := by
  constructor
  · intro h
    unfold whole at h
    dsimp only at h
    split at h
    · cases h
    · next hne =>
      split at h
      · next hlimit =>
        cases h
        refine ⟨cs.takeWhile isDigit, List.takeWhile_append_dropWhile.symm, ⟨by simpa using hne, ?_, rfl⟩,
          le_wholeLimit_iff.mp hlimit, ?_⟩
        · exact fun c hc => List.mem_takeWhile_imp hc
        · intro c hc
          have hnot := List.head?_dropWhile_not isDigit cs
          rw [Option.mem_def.mp hc] at hnot
          simpa [isDigit_eq] using hnot
      · cases h
  · rintro ⟨ds, rfl, hds, hlimit, hrest⟩
    have hstop : rest.takeWhile isDigit = [] ∧ rest.dropWhile isDigit = rest := run_of_head? hrest
    have hall : ∀ c ∈ ds, isDigit c = true := hds.digits
    unfold whole
    rw [List.takeWhile_append_of_pos hall, List.dropWhile_append_of_pos hall, hstop.1, hstop.2, List.append_nil]
    dsimp only
    rw [if_neg (by simpa using hds.nonempty), show digitsValue ds = n from hds.value,
      if_pos (le_wholeLimit_iff.mpr hlimit)]

theorem char_eq_ok {c : Char} {cs rest : List Char} {u : Unit} :
    char c cs = .ok (u, rest) ↔ cs = c :: rest := by
  cases cs with
  | nil => simp [char]
  | cons d ds =>
    by_cases h : d = c <;> simp [char, h]

/-- Three numerals with points between them are scanned, and nothing else is. -/
theorem triplet_eq_ok {cs : List Char} {a b c : Nat} :
    triplet cs = .ok (a, b, c) ↔
      ∃ x y z, cs = x ++ '.' :: (y ++ '.' :: z) ∧ (Numeral x a ∧ a < 2 ^ 64) ∧ (Numeral y b ∧ b < 2 ^ 64) ∧
        Numeral z c ∧ c < 2 ^ 64 := by
  have hpoint (rest : List Char) : ∀ c ∈ ('.' :: rest).head?, c.isDigit = false := by
    rintro c hc
    obtain rfl := Option.some.inj hc
    rfl
  unfold triplet
  simp only [bind_eq_ok, Prod.exists, whole_eq_ok, char_eq_ok]
  constructor
  · rintro ⟨a', r₁, ⟨x, rfl, hx, hxl, -⟩, _, r₂, rfl, b', r₃, ⟨y, rfl, hy, hyl, -⟩, _, r₄, rfl, c', r₅,
      ⟨z, rfl, hz, hzl, -⟩, h⟩
    split at h
    · next hnil =>
      obtain rfl := List.isEmpty_iff.mp hnil
      cases h
      exact ⟨x, y, z, by rw [List.append_nil], ⟨hx, hxl⟩, ⟨hy, hyl⟩, hz, hzl⟩
    · cases h
  · rintro ⟨x, y, z, rfl, ⟨hx, hxl⟩, ⟨hy, hyl⟩, hz, hzl⟩
    exact ⟨a, _, ⟨x, rfl, hx, hxl, hpoint _⟩, (), _, rfl, b, _, ⟨y, rfl, hy, hyl, hpoint _⟩, (), _, rfl, c, [],
      ⟨z, (List.append_nil z).symm, hz, hzl, by simp⟩, rfl⟩

end Text.Scan

namespace Schema.Version

/-! ### Written versions -/

/-- **A text that stands for a version**: three numerals with points between them, each of a number of 64 bits. -/
structure Written (s : String) (v : Version) (x y z : List Char) : Prop where
  parts : s.toList = x ++ '.' :: (y ++ '.' :: z)
  major : Numeral x v.major ∧ v.major < 2 ^ 64
  minor : Numeral y v.minor ∧ v.minor < 2 ^ 64
  patch : Numeral z v.patch ∧ v.patch < 2 ^ 64

/-- A version whose numbers have 64 bits. -/
def Fits (v : Version) : Prop := v.major < 2 ^ 64 ∧ v.minor < 2 ^ 64 ∧ v.patch < 2 ^ 64

variable {s : String} {v : Version} {x y z : List Char}

theorem Written.components (h : Written s v x y z) : components s.toList = 3 := by
  have hno {ds : List Char} {n : Nat} (hds : Numeral ds n) : ds.count '.' = 0 :=
    List.count_eq_zero.mpr (hds.not_mem (by decide))
  unfold Version.components
  rw [h.parts, List.count_append, List.count_cons_self, List.count_append, List.count_cons_self, hno h.major.1,
    hno h.minor.1, hno h.patch.1]

theorem Written.splitOn (h : Written s v x y z) : s.toList.splitOn '.' = [x, y, z] := by
  have hno {ds : List Char} {n : Nat} (hds : Numeral ds n) : '.' ∉ ds := hds.not_mem (by decide)
  have hjoin : s.toList = ['.'].intercalate [x, y, z] := by
    rw [h.parts]
    simp [List.intercalate_cons_of_ne_nil]
  rw [hjoin]
  refine List.splitOn_intercalate '.' ?_ (List.cons_ne_nil _ _)
  simp only [List.forall_mem_cons]
  exact ⟨hno h.major.1, hno h.minor.1, hno h.patch.1, nofun⟩

theorem parse_eq_ok : parse s = .ok v ↔ ∃ x y z, Written s v x y z := by
  constructor
  · intro h
    unfold parse at h
    dsimp only at h
    split at h
    · split at h
      · next a b c htriplet =>
        cases h
        obtain ⟨x, y, z, hparts, hx, hy, hz⟩ := Scan.triplet_eq_ok.mp htriplet
        exact ⟨x, y, z, hparts, hx, hy, hz⟩
      · cases h
    · cases h
  · rintro ⟨x, y, z, h⟩
    have htriplet := Scan.triplet_eq_ok.mpr ⟨x, y, z, h.parts, h.major, h.minor, h.patch⟩
    unfold parse
    dsimp only
    rw [if_pos h.components, htriplet]

/-- What is not a version is refused for the number of its components, or else for one of them. -/
theorem parse_eq_error (h : ∀ v, parse s ≠ .ok v) :
    parse s = .error (.versionArity s (components s.toList)) ∧ components s.toList ≠ 3 ∨
      ∃ cause, parse s = .error (.versionText s cause) ∧ components s.toList = 3 := by
  unfold parse at h ⊢
  dsimp only at h ⊢
  split
  · next hthree =>
    rw [if_pos hthree] at h
    cases htriplet : Scan.triplet s.toList with
    | ok numbers =>
      obtain ⟨a, b, c⟩ := numbers
      rw [htriplet] at h
      exact absurd rfl (h ⟨a, b, c⟩)
    | error cause => exact .inr ⟨cause, rfl, hthree⟩
  · next hother => exact .inl ⟨rfl, hother⟩

theorem toList_text (v : Version) :
    v.text.toList = (decimal v.major).toList ++ '.' :: ((decimal v.minor).toList ++ '.' :: (decimal v.patch).toList) := by
  simp [text]

theorem written_text (h : v.Fits) :
    Written v.text v (decimal v.major).toList (decimal v.minor).toList (decimal v.patch).toList :=
  ⟨toList_text v, ⟨numeral_decimal _, h.1⟩, ⟨numeral_decimal _, h.2.1⟩, ⟨numeral_decimal _, h.2.2⟩⟩

theorem Written.fits (h : Written s v x y z) : v.Fits := ⟨h.major.2, h.minor.2, h.patch.2⟩

/-- **A text is written again as it was read** exactly if no component has a zero too many. -/
theorem Written.text_eq_iff (h : Written s v x y z) :
    v.text = s ↔ ∀ ds ∈ s.toList.splitOn '.', ¬ Superfluous ds := by
  have htext : v.text = s ↔
      (decimal v.major).toList = x ∧ (decimal v.minor).toList = y ∧ (decimal v.patch).toList = z := by
    constructor
    · intro heq
      have hsplit := (written_text h.fits).splitOn
      rw [heq, h.splitOn] at hsplit
      simp only [List.cons.injEq, and_true] at hsplit
      exact ⟨hsplit.1.symm, hsplit.2.1.symm, hsplit.2.2.symm⟩
    · rintro ⟨hx, hy, hz⟩
      refine String.toList_inj.mp ?_
      rw [toList_text, h.parts, hx, hy, hz]
  rw [htext, h.splitOn, h.major.1.decimal_eq_iff, h.minor.1.decimal_eq_iff, h.patch.1.decimal_eq_iff]
  simp only [List.forall_mem_cons]
  exact ⟨fun ⟨hx, hy, hz⟩ => ⟨hx, hy, hz, nofun⟩, fun ⟨hx, hy, hz, _⟩ => ⟨hx, hy, hz⟩⟩

/-- What reading and writing have to do with a text and a version. -/
structure ReadsBack (s : String) (v : Version) : Prop where
  accepted : parse s = .ok v ↔ ∃ x y z, Written s v x y z
  /-- Whatever else the text is, it is refused for its form. -/
  refused : (∀ v x y z, ¬ Written s v x y z) → ∃ fault, parse s = .error fault ∧
    (fault = .versionArity s (components s.toList) ∨ ∃ cause, fault = .versionText s cause)
  printed : v.Fits → parse v.text = .ok v
  /-- What was read is written again, unless a component has a zero too many. -/
  canonical : parse s = .ok v → (v.text = s ↔ ∀ ds ∈ s.toList.splitOn '.', ¬ Superfluous ds)

/-- **Versions are read as they are written**, and nothing else is read as a version. -/
theorem reads_back (s : String) (v : Version) : ReadsBack s v where
  accepted := parse_eq_ok
  refused h := by
    have hno : ∀ v, parse s ≠ .ok v := by
      intro v hv
      obtain ⟨x, y, z, hw⟩ := parse_eq_ok.mp hv
      exact h v x y z hw
    rcases parse_eq_error hno with ⟨herror, -⟩ | ⟨cause, herror, -⟩
    · exact ⟨_, herror, .inl rfl⟩
    · exact ⟨_, herror, .inr ⟨cause, rfl⟩⟩
  printed h := parse_eq_ok.mpr ⟨_, _, _, written_text h⟩
  canonical h := by
    obtain ⟨x, y, z, hw⟩ := parse_eq_ok.mp h
    exact hw.text_eq_iff

end Schema.Version

end ClusterAgents
