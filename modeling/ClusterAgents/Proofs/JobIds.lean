import Mathlib.Data.List.TakeWhile
import ClusterAgents.Proofs.Shell.Quoting
import ClusterAgents.Text.Scan

/-!
# The ids of jobs

What a scheduler prints for a new job is nothing to rely on, but for its first line, and of that the first run of
digits is taken.  Whatever was printed, the id consists of digits, and a shell takes it as it is.

* `FirstRun` — a run of digits that is the first one of a list;
* `IsJobId`, `jobId?_eq_some` — what is found in an output;
* `Recognised`, `first_run_is_recognised` — the same by the parts of the output, and what makes no difference;
* `IsJobId.quote`, `IsJobId.not_option` — a job id on a command line.
-/

namespace ClusterAgents.Text

/-- The first run of digits: no digit stands in front of it, and none directly behind. -/
structure FirstRun (cs before run after : List Char) : Prop where
  parts : cs = before ++ run ++ after
  before : ∀ c ∈ before, isDigit c = false
  nonempty : run ≠ []
  digits : ∀ c ∈ run, isDigit c = true
  after : ∀ c ∈ after.head?, isDigit c = false

theorem FirstRun.firstDigits? {cs before run after : List Char} (h : FirstRun cs before run after) :
    firstDigits? cs = some run := by
  have hskip : cs.dropWhile (!isDigit ·) = run ++ after := by
    rw [h.parts, List.append_assoc, List.dropWhile_append_of_pos fun c hc => by simp [h.before c hc]]
    obtain ⟨d, ds, rfl⟩ := List.exists_cons_of_ne_nil h.nonempty
    rw [List.cons_append, List.dropWhile_cons_of_neg (by simp [h.digits d List.mem_cons_self])]
  have hstop : after.takeWhile isDigit = [] := by
    cases after with
    | nil => rfl
    | cons c cs => rw [List.takeWhile_cons_of_neg (by simp [h.after c rfl])]
  have htake : (run ++ after).takeWhile isDigit = run := by
    rw [List.takeWhile_append_of_pos h.digits, hstop, List.append_nil]
  unfold Text.firstDigits?
  simp only [hskip, htake]
  rw [if_neg (by simpa using h.nonempty)]

theorem exists_firstRun {cs run : List Char} (h : firstDigits? cs = some run) :
    ∃ before after, FirstRun cs before run after := by
  unfold firstDigits? at h
  dsimp only at h
  split at h
  · cases h
  · next hne =>
    obtain rfl := Option.some.inj h
    refine ⟨cs.takeWhile (!isDigit ·), (cs.dropWhile (!isDigit ·)).dropWhile isDigit, ?_, ?_, ?_, ?_, ?_⟩
    · rw [List.append_assoc, List.takeWhile_append_dropWhile, List.takeWhile_append_dropWhile]
    · intro c hc
      simpa using List.mem_takeWhile_imp hc
    · simpa using hne
    · exact fun c hc => List.mem_takeWhile_imp hc
    · intro c hc
      have := List.head?_dropWhile_not isDigit (cs.dropWhile (!isDigit ·))
      rw [Option.mem_def.mp hc] at this
      simpa using this

theorem firstDigits?_eq_some {cs run : List Char} :
    firstDigits? cs = some run ↔ ∃ before after, FirstRun cs before run after :=
  ⟨exists_firstRun, fun ⟨_, _, h⟩ => h.firstDigits?⟩

/-- What stands at the end and is no digit does not matter. -/
theorem firstDigits?_concat (cs : List Char) {c : Char} (hc : isDigit c = false) :
    firstDigits? (cs ++ [c]) = firstDigits? cs := by
  refine Option.ext fun run => ?_
  rw [firstDigits?_eq_some, firstDigits?_eq_some]
  constructor
  · rintro ⟨before, after, hparts, hbefore, hne, hdigits, hafter⟩
    -- the run ends in a digit, so that the last character belongs to what is behind it
    have hlast : after ≠ [] := by
      rintro rfl
      rw [List.append_nil] at hparts
      have hend : (before ++ run).getLast? = some c := by rw [← hparts, List.getLast?_concat]
      rw [List.getLast?_append_of_ne_nil _ hne] at hend
      rw [hdigits c (List.mem_of_getLast? hend)] at hc
      cases hc
    obtain ⟨rest, d, rfl⟩ := (List.eq_nil_or_concat' after).resolve_left hlast
    rw [← List.append_assoc] at hparts
    obtain ⟨hparts, -⟩ := List.append_inj' hparts rfl
    refine ⟨before, rest, hparts, hbefore, hne, hdigits, fun e he => hafter e ?_⟩
    rw [Option.mem_def] at he ⊢
    rw [List.head?_append, he, Option.some_or]
  · rintro ⟨before, after, hparts, hbefore, hne, hdigits, hafter⟩
    refine ⟨before, after ++ [c], by rw [hparts, List.append_assoc _ after], hbefore, hne, hdigits, fun e he => ?_⟩
    cases after with
    | nil =>
      obtain rfl := Option.some.inj he
      exact hc
    | cons d ds => exact hafter e he

/-! ### outputs -/

/-- **The id that an output shows**: the first run of digits, which is on the first line. -/
def IsJobId (output id : String) : Prop :=
  ∃ before after, FirstRun output.toList before id.toList after ∧ '\n' ∉ before

/-- How the first line ends does not matter. -/
theorem jobId?_eq (output : String) :
    jobId? output = (firstDigits? (output.toList.takeWhile (· != '\n'))).map String.ofList := by
  unfold jobId? firstLine?
  split
  · next h =>
    rw [String.isEmpty_iff] at h
    rw [h]
    rfl
  · have hreturn (cs : List Char) : firstDigits? (dropReturn cs) = firstDigits? cs := by
      unfold dropReturn
      split
      · next h =>
        obtain ⟨ds, rfl⟩ := List.getLast?_eq_some_iff.mp h
        rw [List.dropLast_concat, firstDigits?_concat ds (by decide)]
      · rfl
    dsimp only [bind, Option.bind_some]
    rw [String.toList_ofList]
    split
    · rw [hreturn]
    · rfl

theorem newline_not_mem_run {cs before run after : List Char} (h : FirstRun cs before run after) : '\n' ∉ run :=
  fun hmem => absurd (h.digits _ hmem) (by decide)

/-- The first run of digits of a first line. -/
theorem firstDigits?_line {cs run : List Char} :
    firstDigits? (cs.takeWhile (· != '\n')) = some run ↔
      ∃ before after, FirstRun cs before run after ∧ '\n' ∉ before := by
  rw [firstDigits?_eq_some]
  constructor
  · rintro ⟨before, after, h⟩
    have hbefore : '\n' ∉ before := fun hmem => by
      have hline : '\n' ∈ cs.takeWhile (· != '\n') := by
        rw [h.parts]
        exact List.mem_append_left _ (List.mem_append_left _ hmem)
      simpa using List.mem_takeWhile_imp hline
    refine ⟨before, after ++ cs.dropWhile (· != '\n'), ⟨?_, h.before, h.nonempty, h.digits, ?_⟩, hbefore⟩
    · rw [← List.append_assoc, ← h.parts, List.takeWhile_append_dropWhile]
    · intro c hc
      cases after with
      | nil =>
        have hnot := List.head?_dropWhile_not (· != '\n') cs
        rw [List.nil_append, Option.mem_def] at hc
        rw [hc] at hnot
        obtain rfl : c = '\n' := by simpa using hnot
        decide
      | cons d ds => exact h.after c hc
  · rintro ⟨before, after, h, hbefore⟩
    have hline : ∀ c ∈ before ++ run, (c != '\n') = true := by
      intro c hc
      have hne : c ≠ '\n' := by
        rintro rfl
        exact (List.mem_append.mp hc).elim hbefore (newline_not_mem_run h)
      simpa using hne
    refine ⟨before, after.takeWhile (· != '\n'), ?_, h.before, h.nonempty, h.digits, ?_⟩
    · rw [h.parts, List.takeWhile_append_of_pos hline]
    · intro c hc
      cases after with
      | nil => cases hc
      | cons d ds =>
        rw [List.takeWhile_cons] at hc
        split at hc
        · exact h.after c hc
        · cases hc

/-- **What is found in an output** is the id that it shows. -/
theorem jobId?_eq_some {output id : String} : jobId? output = some id ↔ IsJobId output id := by
  unfold IsJobId
  rw [jobId?_eq, Option.map_eq_some_iff, ← firstDigits?_line]
  constructor
  · rintro ⟨ds, hds, rfl⟩
    rw [hds, String.toList_ofList]
  · exact fun h => ⟨_, h, String.ofList_toList⟩

/-- A text that shows no id and ends no line. -/
def Mute (p : String) : Prop := ∀ c ∈ p.toList, isDigit c = false ∧ c ≠ '\n'

/-- One or more digits, whatever number they make. -/
def AllDigits (id : String) : Prop := id ≠ "" ∧ ∀ c ∈ id.toList, isDigit c = true

theorem isJobId_iff {output id : String} :
    IsJobId output id ↔
      ∃ p q, output = p ++ id ++ q ∧ Mute p ∧ AllDigits id ∧ ∀ c ∈ q.toList.head?, isDigit c = false := by
  constructor
  · rintro ⟨before, after, ⟨hparts, hbefore, hne, hdigits, hafter⟩, hline⟩
    refine ⟨String.ofList before, String.ofList after, ?_, ?_, ⟨?_, hdigits⟩, ?_⟩
    · apply String.toList_inj.mp
      simp [hparts]
    · intro c hc
      rw [String.toList_ofList] at hc
      refine ⟨hbefore c hc, ?_⟩
      rintro rfl
      exact hline hc
    · exact fun e => hne (String.toList_eq_nil_iff.mpr e)
    · rw [String.toList_ofList]
      exact hafter
  · rintro ⟨p, q, rfl, hp, ⟨hne, hdigits⟩, hq⟩
    refine ⟨p.toList, q.toList, ⟨by simp, fun c hc => (hp c hc).1, ?_, hdigits, hq⟩, fun hc => (hp _ hc).2 rfl⟩
    exact fun e => hne (String.toList_eq_nil_iff.mp e)

theorem firstDigits?_mute {p : String} (hp : Mute p) (cs : List Char) :
    firstDigits? (p.toList ++ cs) = firstDigits? cs := by
  have hskip : ∀ c ∈ p.toList, (!isDigit c) = true := by
    intro c hc
    simp [(hp c hc).1]
  unfold firstDigits?
  rw [List.dropWhile_append_of_pos hskip]

theorem takeWhile_mute {p : String} (hp : Mute p) (cs : List Char) :
    (p.toList ++ cs).takeWhile (· != '\n') = p.toList ++ cs.takeWhile (· != '\n') := by
  apply List.takeWhile_append_of_pos
  intro c hc
  simpa using (hp c hc).2

theorem jobId?_eq_none {output : String} :
    jobId? output = none ↔ ∀ c ∈ output.toList.takeWhile (· != '\n'), isDigit c = false := by
  rw [jobId?_eq, Option.map_eq_none_iff]
  generalize output.toList.takeWhile (· != '\n') = cs
  unfold firstDigits?
  dsimp only
  constructor
  · intro h
    split at h
    · next hnil =>
      -- the run that would begin behind the first characters is empty, so that there is nothing behind them
      have hstop : cs.dropWhile (!isDigit ·) = [] := by
        rw [List.isEmpty_iff, List.takeWhile_eq_nil_iff] at hnil
        by_contra hne
        have hpos := List.length_pos_iff.mpr hne
        have hdigit := List.dropWhile_get_zero_not (!isDigit ·) cs hpos
        exact hnil hpos (by simpa using hdigit)
      intro c hc
      simpa using List.dropWhile_eq_nil_iff.mp hstop c hc
    · cases h
  · intro h
    have hstop : cs.dropWhile (!isDigit ·) = [] := by
      rw [List.dropWhile_eq_nil_iff]
      intro c hc
      simp [h c hc]
    rw [hstop]
    rfl

/-- A line end in an output is the end of what is looked at, however it is written. -/
theorem jobId?_line {line : String} (hline : '\n' ∉ line.toList) (rest : String) :
    jobId? (line ++ "\n" ++ rest) = jobId? line ∧ jobId? (line ++ "\r\n" ++ rest) = jobId? line := by
  have hall : ∀ c ∈ line.toList, (c != '\n') = true := by
    intro c hc
    rw [bne_iff_ne]
    rintro rfl
    exact hline hc
  have hself : line.toList.takeWhile (· != '\n') = line.toList := List.takeWhile_eq_self_iff.mpr hall
  constructor
  · have hcut : (line ++ "\n" ++ rest).toList.takeWhile (· != '\n') = line.toList := by
      simp [List.takeWhile_append_of_pos hall]
    rw [jobId?_eq, jobId?_eq, hcut, hself]
  · have hcut : (line ++ "\r\n" ++ rest).toList.takeWhile (· != '\n') = line.toList ++ ['\r'] := by
      simp [List.takeWhile_append_of_pos hall]
    rw [jobId?_eq, jobId?_eq, hcut, hself, firstDigits?_concat _ (by decide)]

/-- What is recognised in an output. -/
structure Recognised (output : String) : Prop where
  found : ∀ id, jobId? output = some id ↔
    ∃ p q, output = p ++ id ++ q ∧ Mute p ∧ AllDigits id ∧ ∀ c ∈ q.toList.head?, isDigit c = false
  missing : jobId? output = none ↔ ∀ c ∈ output.toList.takeWhile (· != '\n'), isDigit c = false
  /-- What is on other lines does not matter, nor how lines end. -/
  lines : '\n' ∉ output.toList → ∀ rest,
    jobId? (output ++ "\n" ++ rest) = jobId? output ∧ jobId? (output ++ "\r\n" ++ rest) = jobId? output
  /-- What stands in front and is no digit does not matter, be it a digit of another script. -/
  front : ∀ p, Mute p → jobId? (p ++ output) = jobId? output
  /-- Neither does what comes behind the first run, with more digits in it or none. -/
  behind : ∀ p q, Mute p → AllDigits output → (∀ c ∈ q.toList.head?, isDigit c = false) →
    jobId? (p ++ output ++ q) = some output

/-- **The first run of digits on the first line is recognised**, and nothing else is. -/
theorem first_run_is_recognised (output : String) : Recognised output where
  found id := by rw [jobId?_eq_some, isJobId_iff]
  missing := jobId?_eq_none
  lines h rest := jobId?_line h rest
  front p hp := by rw [jobId?_eq, jobId?_eq, String.toList_append, takeWhile_mute hp, firstDigits?_mute hp]
  behind p q hp hdigits hq := jobId?_eq_some.mpr (isJobId_iff.mpr ⟨p, q, rfl, hp, hdigits, hq⟩)

example : jobId? "queued as ٣/0042.pbs-7\r\n13\n" = some "0042" := by decide +kernel

/-! ### ids on a command line -/

theorem isSafe_of_isDigit {c : Char} (h : isDigit c = true) : Shell.isSafe c = true := by
  have hdigit : c.isDigit = true := by simpa [isDigit, Char.isDigit, Char.le_def] using h
  simp [Shell.isSafe, Char.isAlphanum, hdigit]

section

variable {output id : String}

theorem IsJobId.ne_empty (h : IsJobId output id) : id ≠ "" := by
  obtain ⟨before, after, h, -⟩ := h
  exact fun e => h.nonempty (String.toList_eq_nil_iff.mpr e)

theorem IsJobId.isDigit (h : IsJobId output id) : ∀ c ∈ id.toList, isDigit c = true := by
  obtain ⟨before, after, h, -⟩ := h
  exact h.digits

/-- **A shell takes a job id as it is.** -/
theorem IsJobId.quote (h : IsJobId output id) : Shell.Word.quote id = id :=
  Shell.Word.quote_of_safe h.ne_empty fun c hc => isSafe_of_isDigit (h.isDigit c hc)

/-- And no program takes it for an option. -/
theorem IsJobId.not_option (h : IsJobId output id) : id.toList.head? ≠ some '-' := by
  intro he
  have := h.isDigit '-' (List.mem_of_head? he)
  exact absurd this (by decide)

end

end ClusterAgents.Text
