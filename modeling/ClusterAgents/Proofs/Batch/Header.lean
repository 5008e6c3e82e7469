import ClusterAgents.Batch.Script
import ClusterAgents.Proofs.Resource.Amounts

/-!
# Headers

A header, and with it a script, is written unless a requirement cannot be resolved.

* `Header.plan` — the lines of a header whose requirements are resolved;
* `Header.text_eq_ok`, `Header.text_eq_error`, `exists_script_eq_ok`, `script_eq_error` — when there is a text.
-/

namespace ClusterAgents.Batch

/-- The lines of a header whose requirements are resolved. -/
def Header.plan (h : Header) (s : Scheduler) (rendered : List Rendered) : List String :=
  "#!/bin/bash" :: (h.directives s rendered).map (s.marker ++ " " ++ ·)

variable {h : Header} {s : Scheduler}

theorem Header.text_eq_ok {text : String} :
    h.text s = .ok text ↔
      ∃ xs, Requirement.renderAll s.resources h.batchSize h.requirements = .ok xs ∧
        String.join ((h.plan s xs).map line) = text := by
  unfold Header.text plan
  simp only [bind_eq_ok, Except.ok.injEq, List.map_cons, List.map_map, String.join_cons]
  rfl

theorem Header.text_eq_error {e : Error} :
    h.text s = .error e ↔ Requirement.renderAll s.resources h.batchSize h.requirements = .error e := by
  unfold Header.text
  simp only [bind_eq_error, reduceCtorEq, and_false, exists_false, or_false]

variable {broker : Broker} {command : List String} {agents : List AgentId}

theorem exists_script_eq_ok :
    (∃ text, script s h broker command agents = .ok text) ↔
      ∃ xs, Requirement.renderAll s.resources h.batchSize h.requirements = .ok xs := by
  unfold script
  simp only [bind_eq_ok, Header.text_eq_ok, Except.ok.injEq]
  constructor
  · rintro ⟨_, _, ⟨xs, hxs, -⟩, -⟩
    exact ⟨xs, hxs⟩
  · rintro ⟨xs, hxs⟩
    exact ⟨_, _, ⟨xs, hxs, rfl⟩, rfl⟩

theorem script_eq_error {e : Error} :
    script s h broker command agents = .error e ↔
      Requirement.renderAll s.resources h.batchSize h.requirements = .error e := by
  unfold script
  simp only [bind_eq_error, Header.text_eq_error, reduceCtorEq, and_false, exists_false, or_false]

end ClusterAgents.Batch
