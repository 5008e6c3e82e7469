import Mathlib.Data.List.Induction
import ClusterAgents.Broker

/-!
# Histories of a draft

A draft is filled, completed, and filled again.  What a completed connection holds was set since the draft was
completed before, and nothing else of its history matters.

* `Draft.after` — the draft after some uses;
* `Draft.last`, `Draft.gathered` — what was set last of each field;
* `Since` — the uses since the draft was last completed;
* `after_eq_gathered` — the draft holds what was set since then;
* `trace` — the answers to all uses, and `Thins`, a history without some of the uses that failed or were about copies;
* `drafts_leak_nothing` — what completed connections hold, in any history.
-/

namespace ClusterAgents

namespace Broker

namespace Setting

def uri? : Setting → Option String
  | .uri value => some value
  | _ => none

theorem uri?_eq_some (s : Setting) (value : String) : s.uri? = some value ↔ s = .uri value := by
  cases s <;> simp [uri?]

def routingKey? : Setting → Option String
  | .routingKey value => some value
  | _ => none

theorem routingKey?_eq_some (s : Setting) (value : String) :
    s.routingKey? = some value ↔ s = .routingKey value := by
  cases s <;> simp [routingKey?]

def certPath? : Setting → Option String
  | .certPath value => some value
  | _ => none

def noVerifyPeer? : Setting → Option Bool
  | .noVerifyPeer value => some value
  | _ => none

def noVerifyHost? : Setting → Option Bool
  | .noVerifyHost value => some value
  | _ => none

end Setting

namespace Draft

def afterFrom (d : Draft) (us : List Use) : Draft := us.foldl (fun d u => (d.use u).2) d

/-- The draft after some uses, from its creation on. -/
def after (us : List Use) : Draft := afterFrom {} us

/-- What a use sets of a field. -/
def Use.sets? {α : Type} (field : Setting → Option α) : Use → Option α
  | .set s => field s
  | _ => none

/-- What was set last of a field. -/
def last {α : Type} (field : Setting → Option α) (us : List Use) : Option α := (us.filterMap (Use.sets? field)).getLast?

/-- The draft that holds what was set last of each field. -/
def gathered (us : List Use) : Draft where
  uri := last Setting.uri? us
  routingKey := last Setting.routingKey? us
  certPath := last Setting.certPath? us
  noVerifyPeer := (last Setting.noVerifyPeer? us).getD false
  noVerifyHost := (last Setting.noVerifyHost? us).getD false

/-! ### What was set last -/

section

variable {α : Type} {field : Setting → Option α} {us : List Use}

theorem last_concat (us : List Use) (u : Use) : last field (us ++ [u]) = (u.sets? field).or (last field us) := by
  unfold last
  rw [List.filterMap_append]
  cases hu : u.sets? field with
  | none => simp [hu]
  | some value => simp [hu]

variable {make : α → Setting}

/-- A field that was set has a value that was set last. -/
theorem exists_last_iff (hfield : ∀ s value, field s = some value ↔ s = make value) :
    (∃ value, last field us = some value) ↔ ∃ value, .set (make value) ∈ us := by
  constructor
  · rintro ⟨value, h⟩
    obtain ⟨u, hu, hsets⟩ := List.mem_filterMap.mp (List.mem_of_getLast? h)
    cases u with
    | set s => exact ⟨value, (hfield s value).mp hsets ▸ hu⟩
    | build => cases hsets
    | buildCopy => cases hsets
  · rintro ⟨value, h⟩
    have hmem : value ∈ us.filterMap (Use.sets? field) :=
      List.mem_filterMap.mpr ⟨_, h, (hfield _ value).mpr rfl⟩
    exact ⟨_, List.getLast?_eq_some_getLast (List.ne_nil_of_mem hmem)⟩

theorem last_eq_none_iff (hfield : ∀ s value, field s = some value ↔ s = make value) :
    last field us = none ↔ ∀ value, .set (make value) ∉ us := by
  rw [Option.eq_none_iff_forall_ne_some, ← not_exists, exists_last_iff hfield, not_exists]

end

theorem gathered_set (us : List Use) (s : Setting) : gathered (us ++ [.set s]) = (gathered us).set s := by
  cases s <;> simp only [gathered, last_concat] <;> rfl

theorem gathered_of_not_set (us : List Use) {u : Use} (hu : ∀ s, u ≠ .set s) : gathered (us ++ [u]) = gathered us := by
  cases u with
  | set s => exact absurd rfl (hu s)
  | build => simp only [gathered, last_concat]; rfl
  | buildCopy => simp only [gathered, last_concat]; rfl

/-! ### Completing -/

variable {d : Draft}

theorem build_eq_ok {b : Broker} : d.build.1 = .ok b ↔ d.uri = some b.uri ∧ d.routingKey = some b.routingKey ∧
    b.certPath = d.certPath.getD "" ∧ b.noVerifyPeer = d.noVerifyPeer ∧ b.noVerifyHost = d.noVerifyHost := by
  obtain ⟨uri, key, cert, peer, host⟩ := d
  obtain ⟨uri', key', cert', peer', host'⟩ := b
  cases uri with
  | none => simp [build]
  | some uri =>
    cases key with
    | none => simp [build]
    | some key => simp [build, eq_comm]

theorem build_eq_error {e : Error} : d.build.1 = .error e ↔
    d.uri = none ∧ e = .configuration .brokerUri ∨
      (∃ uri, d.uri = some uri) ∧ d.routingKey = none ∧ e = .configuration .brokerRoutingKey := by
  obtain ⟨uri, key, cert, peer, host⟩ := d
  cases uri with
  | none => simp [build, eq_comm]
  | some uri =>
    cases key with
    | none => simp [build, eq_comm]
    | some key => simp [build]

/-- A draft that is completed is empty. -/
theorem build_of_ok {b : Broker} (h : d.build.1 = .ok b) : d.build.2 = {} := by
  unfold build at h ⊢
  split at h
  · cases h
  · cases h
  · rfl

/-- A draft that cannot be completed stays as it is. -/
theorem build_of_error {e : Error} (h : d.build.1 = .error e) : d.build.2 = d := by
  unfold build at h ⊢
  split at h
  · rfl
  · rfl
  · cases h

theorem afterFrom_cons (d : Draft) (u : Use) (us : List Use) : afterFrom d (u :: us) = afterFrom (d.use u).2 us := rfl

theorem after_concat (us : List Use) (u : Use) : after (us ++ [u]) = ((after us).use u).2 := by
  rw [after, afterFrom, List.foldl_append]
  rfl

/-! ### Histories -/

/-- A history, cut behind the use that completed the draft last; there may be none. -/
structure Since (us old new : List Use) : Prop where
  cut : us = old ++ new
  fresh : old = [] ∨ ∃ earlier b, old = earlier ++ [.build] ∧ (after earlier).build.1 = .ok b
  failing : ∀ before rest, new = before ++ .build :: rest → ∃ e, (after (old ++ before)).build.1 = .error e

theorem Since.after_old {us old new : List Use} (h : Since us old new) : after old = {} := by
  rcases h.fresh with rfl | ⟨earlier, b, rfl, hb⟩
  · rfl
  · rw [after_concat]
    exact build_of_ok hb

theorem exists_since (us : List Use) : ∃ old new, Since us old new := by
  induction us using List.reverseRecOn with
  | nil => exact ⟨[], [], rfl, .inl rfl, by simp⟩
  | append_singleton us u ih =>
    obtain ⟨old, new, hcut, hfresh, hfailing⟩ := ih
    by_cases hu : u = .build ∧ ∃ b, (after us).build.1 = .ok b
    · obtain ⟨rfl, b, hb⟩ := hu
      exact ⟨us ++ [.build], [], by simp, .inr ⟨us, b, rfl, hb⟩, by simp⟩
    · refine ⟨old, new ++ [u], by rw [hcut, List.append_assoc], hfresh, fun before rest hnew => ?_⟩
      rcases List.eq_nil_or_concat rest with rfl | ⟨rest, u', rfl⟩
      · -- the new use itself
        obtain ⟨rfl, hend⟩ := List.append_inj' hnew rfl
        obtain rfl := (List.cons.inj hend).1
        cases hbuild : (after (old ++ new)).build.1 with
        | ok b => exact absurd ⟨rfl, b, hcut ▸ hbuild⟩ hu
        | error e => exact ⟨e, rfl⟩
      · rw [List.concat_eq_append, ← List.cons_append, ← List.append_assoc] at hnew
        obtain ⟨hnew, -⟩ := List.append_inj' hnew rfl
        exact hfailing before rest hnew

/-- **A draft holds what was set since it was last completed.** -/
theorem after_eq_gathered {us old new : List Use} (h : Since us old new) : after us = gathered new := by
  obtain ⟨rfl, -, hfailing⟩ := id h
  have hold := h.after_old
  clear h
  induction new using List.reverseRecOn with
  | nil =>
    rw [List.append_nil, hold]
    rfl
  | append_singleton new u ih =>
    have hnew : after (old ++ new) = gathered new := by
      refine ih fun before rest hcut => hfailing before (rest ++ [u]) ?_
      rw [hcut, List.append_assoc, List.cons_append]
    rw [← List.append_assoc, after_concat, hnew]
    cases u with
    | set s => exact (gathered_set new s).symm
    | build =>
      obtain ⟨e, he⟩ := hfailing new [] rfl
      rw [hnew] at he
      rw [gathered_of_not_set new (by simp)]
      exact build_of_error he
    | buildCopy => exact (gathered_of_not_set new (by simp)).symm

def trace : Draft → List Use → List (Use × Option (Outcome Broker))
  | _, [] => []
  | d, u :: us => (u, (d.use u).1) :: trace (d.use u).2 us

theorem trace_concat (d : Draft) (us : List Use) (u : Use) :
    trace d (us ++ [u]) = trace d us ++ [(u, ((afterFrom d us).use u).1)] := by
  induction us generalizing d with
  | nil => rfl
  | cons u' us ih =>
    rw [List.cons_append, trace, ih, trace, List.cons_append]
    rfl

/-- A history without some of the uses that failed to complete the draft, or were about a copy. -/
inductive Thins : List (Use × Option (Outcome Broker)) → List (Use × Option (Outcome Broker)) → Prop
  | nil : Thins [] []
  | keep {t t' : List (Use × Option (Outcome Broker))} (use : Use × Option (Outcome Broker)) (h : Thins t t') :
      Thins (use :: t) (use :: t')
  | failed {t t' : List (Use × Option (Outcome Broker))} (e : Error) (h : Thins t t') :
      Thins ((.build, some (.error e)) :: t) t'
  | copy {t t' : List (Use × Option (Outcome Broker))} (answer : Option (Outcome Broker)) (h : Thins t t') :
      Thins ((.buildCopy, answer) :: t) t'

/-- **What is left out of a history is not missed**: all other answers are the same, and so is the draft. -/
theorem trace_of_thins {us : List Use} {t : List (Use × Option (Outcome Broker))} (h : Thins (trace d us) t) :
    trace d (t.map (·.1)) = t ∧ afterFrom d (t.map (·.1)) = afterFrom d us := by
  induction us generalizing d t with
  | nil =>
    cases h
    exact ⟨rfl, rfl⟩
  | cons u us ih =>
    rw [trace] at h
    generalize hanswer : (d.use u).1 = answer at h
    cases h with
    | keep _ h =>
      obtain ⟨htrace, hafter⟩ := ih h
      refine ⟨?_, hafter⟩
      rw [List.map_cons, trace, htrace, hanswer]
    | failed e h =>
      -- the draft is what it was, so that the rest goes on from it
      have hsame : (d.use .build).2 = d := build_of_error (Option.some.inj hanswer)
      rw [hsame] at h
      obtain ⟨htrace, hafter⟩ := ih h
      refine ⟨htrace, hafter.trans ?_⟩
      rw [afterFrom_cons, hsame]
    | copy _ h => exact ih h

/-! ### What completed connections hold -/

/-- There is a certificate where a path was set that is not empty. -/
theorem cert?_eq {b : Broker} {path : Option String} (h : b.certPath = path.getD "") :
    b.cert? = path.filter (· ≠ "") := by
  unfold cert?
  rw [h]
  cases path with
  | none => rfl
  | some path => by_cases hpath : path = "" <;> simp [hpath, Option.filter]

theorem getD_eq_true {flag : Option Bool} : flag.getD false = true ↔ flag = some true := by
  cases flag <;> simp

/-- What is answered when a draft is completed after these uses since the last time. -/
structure Holds (new : List Use) (outcome : Outcome Broker) : Prop where
  succeeds : (∃ b, outcome = .ok b) ↔ (∃ uri, .set (.uri uri) ∈ new) ∧ ∃ key, .set (.routingKey key) ∈ new
  fails : ∀ e, outcome = .error e ↔
    (∀ uri, .set (.uri uri) ∉ new) ∧ e = .configuration .brokerUri ∨
      (∃ uri, .set (.uri uri) ∈ new) ∧ (∀ key, .set (.routingKey key) ∉ new) ∧ e = .configuration .brokerRoutingKey
  uri : ∀ b, outcome = .ok b → last Setting.uri? new = some b.uri
  routingKey : ∀ b, outcome = .ok b → last Setting.routingKey? new = some b.routingKey
  /-- Nothing is there unless it was set. -/
  certPath : ∀ b, outcome = .ok b → b.certPath = (last Setting.certPath? new).getD ""
  certificate : ∀ b, outcome = .ok b → b.cert? = (last Setting.certPath? new).filter (· ≠ "")
  noVerifyPeer : ∀ b, outcome = .ok b → b.noVerifyPeer = (last Setting.noVerifyPeer? new).getD false
  noVerifyHost : ∀ b, outcome = .ok b → b.noVerifyHost = (last Setting.noVerifyHost? new).getD false
  /-- The variables in their order, and none for a certificate without a path or for a flag that is not set. -/
  environment : ∀ b, outcome = .ok b → b.environment =
    [("ACTUATOR_BROKER_URI", b.uri), ("ACTUATOR_ROUTING_KEY", b.routingKey)] ++
      ((last Setting.certPath? new).toList.filter (· ≠ "")).map (("ACTUATOR_BROKER_CERT", ·)) ++
      (if last Setting.noVerifyPeer? new = some true then [("ACTUATOR_NO_VERIFY_PEER", "1")] else []) ++
      (if last Setting.noVerifyHost? new = some true then [("ACTUATOR_NO_VERIFY_HOST", "1")] else [])

theorem holds_build (new : List Use) : Holds new (gathered new).build.1 := by
  constructor
  · rw [← exists_last_iff Setting.uri?_eq_some, ← exists_last_iff Setting.routingKey?_eq_some]
    constructor
    · rintro ⟨b, hb⟩
      obtain ⟨huri, hkey, -⟩ := build_eq_ok.mp hb
      exact ⟨⟨_, huri⟩, _, hkey⟩
    · rintro ⟨⟨uri, huri⟩, key, hkey⟩
      exact ⟨⟨uri, key, _, _, _⟩, build_eq_ok.mpr ⟨huri, hkey, rfl, rfl, rfl⟩⟩
  · intro e
    rw [build_eq_error, ← last_eq_none_iff Setting.uri?_eq_some, ← last_eq_none_iff Setting.routingKey?_eq_some,
      ← exists_last_iff Setting.uri?_eq_some]
    exact Iff.rfl
  · intro b hb
    obtain ⟨huri, -⟩ := build_eq_ok.mp hb
    exact huri
  · intro b hb
    obtain ⟨-, hkey, -⟩ := build_eq_ok.mp hb
    exact hkey
  · intro b hb
    obtain ⟨-, -, hcert, -⟩ := build_eq_ok.mp hb
    exact hcert
  · intro b hb
    obtain ⟨-, -, hcert, -⟩ := build_eq_ok.mp hb
    exact cert?_eq hcert
  · intro b hb
    obtain ⟨-, -, -, hpeer, -⟩ := build_eq_ok.mp hb
    exact hpeer
  · intro b hb
    obtain ⟨-, -, -, -, hhost⟩ := build_eq_ok.mp hb
    exact hhost
  · intro b hb
    obtain ⟨-, -, hcert, hpeer, hhost⟩ := build_eq_ok.mp hb
    rw [environment, cert?_eq hcert, hpeer, hhost, Option.toList_map, Option.toList_filter]
    simp only [gathered, getD_eq_true]

/-- **What can be relied on after any uses of a draft.** -/
structure Tight (us : List Use) : Prop where
  /-- What is answered to the next use depends on the draft alone. -/
  next : ∀ u, trace {} (us ++ [u]) = trace {} us ++ [(u, ((after us).use u).1)]
  since : ∃ old new, Since us old new
  /-- The draft is completed with what was set since then, and so is a copy. -/
  answers : ∀ old new, Since us old new →
    ∃ outcome, ((after us).use .build).1 = some outcome ∧ ((after us).use .buildCopy).1 = some outcome ∧
      Holds new outcome
  failed : ∀ e, ((after us).use .build).1 = some (.error e) → after (us ++ [.build]) = after us
  copied : after (us ++ [.buildCopy]) = after us
  thinned : ∀ t, Thins (trace {} us) t → trace {} (t.map (·.1)) = t ∧ after (t.map (·.1)) = after us

/-- **Drafts leak nothing** from one connection into the next, whatever is done with them. -/
theorem drafts_leak_nothing (us : List Use) : Tight us := by
  constructor
  · exact trace_concat {} us
  · exact exists_since us
  · intro old new h
    refine ⟨_, rfl, rfl, ?_⟩
    rw [after_eq_gathered h]
    exact holds_build new
  · intro e he
    rw [after_concat]
    exact build_of_error (Option.some.inj he)
  · rw [after_concat]
    rfl
  · intro t h
    exact trace_of_thins h

example : trace {} [.set (.uri "a"), .set (.routingKey "k"), .set (.noVerifyHost true), .build, .set (.uri "b"), .build,
      .set (.routingKey "k"), .build] =
    [(.set (.uri "a"), none), (.set (.routingKey "k"), none), (.set (.noVerifyHost true), none),
      (.build, some (.ok ⟨"a", "k", "", false, true⟩)), (.set (.uri "b"), none),
      (.build, some (.error (.configuration .brokerRoutingKey))), (.set (.routingKey "k"), none),
      (.build, some (.ok ⟨"b", "k", "", false, false⟩))] := rfl

end Draft

end Broker

end ClusterAgents
