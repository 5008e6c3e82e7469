import ClusterAgents.Proofs.Shell.AndLists
import ClusterAgents.Proofs.Utf8
import ClusterAgents.Remote.Channel
import ClusterAgents.Remote.Host

/-!
# What goes through `ssh`

A request becomes a line for a shell on its way through `ssh`, and a status and two texts come back.  Operators stand
in the line, and the texts of the request right beside them.

* `Request.orders`, `line_eq_joined` — what the host is to do, and that the line says so;
* `Asked`, `asked_sshCommand` — the command that is started;
* `Answers`, `answers_received` — what comes back, with the status that `ssh` keeps for itself told apart;
* `channel_is_transparent` — the host is told every request as it is, and the answer is what it says.
-/

namespace ClusterAgents

open Shell Text

/-! ### The line -/

/-- The directory that has to be made for a file: the one above it, unless there is none or it has no name. -/
def above (path : String) : Option String := (Path.parent? path).filter (· ≠ "")

/-- What the host is to do. -/
def Request.orders : Request → List Plain
  | .run program args => [{ program, args }]
  | .write path _ =>
    (above path).toList.map (fun p => { program := "mkdir", args := ["-p", p] }) ++
      [{ program := "cat", target := some path }]

namespace Channel

theorem text_mkdir (p : String) :
    Plain.text { program := "mkdir", args := ["-p", p] } = "mkdir -p " ++ Word.quote p := by
  have hjoin : Word.join ["mkdir", "-p", p] =
      Word.quote "mkdir" ++ " " ++ (Word.quote "-p" ++ " " ++ Word.quote p) := by
    unfold Word.join
    rw [List.map_cons, List.map_cons, List.map_cons, String.intercalate_cons_of_ne_nil (List.cons_ne_nil _ _),
      String.intercalate_cons_of_ne_nil (List.cons_ne_nil _ _), String.append_assoc]
    rfl
  have hmkdir : Word.quote "mkdir" ++ " " = "mkdir " := by decide +kernel
  have hparents : Word.quote "-p" ++ " " = "-p " := by decide +kernel
  refine hjoin.trans ?_
  rw [hmkdir, hparents, ← String.append_assoc]
  rfl

theorem text_cat (path : String) :
    Plain.text { program := "cat", target := some path } = "cat > " ++ Word.quote path := by
  have hcat : Word.join ["cat"] ++ " > " = "cat > " := by decide +kernel
  exact congrArg (· ++ Word.quote path) hcat

/-- **The line says what the host is to do.** -/
theorem line_eq_joined (r : Request) : line r = joined r.orders := by
  cases r with
  | run program args => rfl
  | write path contents =>
    have hcat : joined [{ program := "cat", target := some path }] = "cat > " ++ Word.quote path := text_cat path
    rw [line, storeLine, Request.orders, above]
    cases Path.parent? path with
    | none => exact hcat.symm
    | some p =>
      by_cases hp : p = ""
      · subst hp
        exact (congrArg (· ++ Word.quote path) String.empty_append).trans hcat.symm
      · have hnamed : p.isEmpty = false := by simpa [String.isEmpty_iff] using hp
        have hkept : (some p).filter (· ≠ "") = some p := by simpa using hp
        rw [hkept, Option.toList_some, List.map_singleton, List.singleton_append,
          joined_cons _ (List.cons_ne_nil _ _), text_mkdir, hcat]
        simp only [hnamed, Bool.false_eq_true, if_false, String.append_assoc]

/-! ### The command -/

/-- The arguments by which `ssh` is told a port. -/
def portArgs : Option Nat → List String
  | none => []
  | some p => ["-p", decimal p]

/-- A command that asks for what a request asks for. -/
structure Asked (host : String) (user : Option String) (port : Option Nat) (r : Request) (c : Command) : Prop where
  program : c.program = "ssh"
  /-- Behind the options and the destination there is one argument, and a shell reads the request from it. -/
  args : ∃ line, c.args = "-o" :: "BatchMode=yes" :: (portArgs port ++ [destination host user, "--", line]) ∧
    commandsOf line = some (r.orders.map Plain.simple)
  stdin : c.stdin = input r

theorem orders_ne_nil (r : Request) : r.orders ≠ [] := by
  cases r with
  | run program args => exact List.cons_ne_nil _ _
  | write path contents => exact List.append_ne_nil_of_right_ne_nil _ (List.cons_ne_nil _ _)

theorem asked_sshCommand (host : String) (user : Option String) (port : Option Nat) (r : Request) :
    Asked host user port r (sshCommand host user port (line r) (input r)) where
  program := rfl
  args := by
    refine ⟨line r, ?_, ?_⟩
    · cases port <;> rfl
    · rw [line_eq_joined]
      exact commandsOf_joined (orders_ne_nil r)
  stdin := rfl

/-! ### The answer -/

/-- The failure of a connection. -/
def lost (host : String) (o : Output) : Error :=
  .transport ("SSH connection to " ++ host ++ " failed: " ++ trim o.stderr)

/-- The failure of a file that could not be written. -/
def unwritten (host path : String) (o : Output) : Error :=
  .transport ("Cannot write " ++ path ++ " on " ++ host ++ ": " ++ trim o.stderr)

/-- The answer to a request whose command has left an output behind. -/
def Answers (host : String) (o : Output) : Request → Outcome Output → Prop
  | .run _ _, answer => answer = if o.status = 255 then .error (lost host o) else .ok o
  | .write path _, answer =>
    answer = if o.status = 0 then .ok {} else if o.status = 255 then .error (lost host o)
      else .error (unwritten host path o)

theorem answers_received (host : String) (o : Output) (r : Request) :
    Answers host o r (received host r (.finished o)) := by
  have hreceived : received host r (.finished o) =
      if o.status = 255 then .error (lost host o) else settle host r o := by
    change (checkConnection host o).bind (settle host r) = _
    unfold checkConnection
    rw [apply_ite (Except.bind · (settle host r))]
    rfl
  rw [hreceived]
  cases r with
  | run program args => rfl
  | write path contents =>
    unfold Answers settle Output.isSuccess
    by_cases hzero : o.status = 0
    · simp [hzero]
    · simp [hzero, unwritten]

/-! ### A machine that has `ssh` -/

/-- What a program that came to its end has said: its status, or that a signal ended it, and its bytes as text. -/
structure Said (reply : StandIn) (o : Output) : Prop where
  status : reply.killed = false → 0 ≤ reply.status → reply.status < 256 → o.status = reply.status
  killed : reply.killed = true → o.status = -1
  stdout : o.stdout = Utf8.lossy reply.stdout
  stderr : o.stderr = Utf8.lossy reply.stderr
  /-- What is text is kept. -/
  text : ∀ s, (reply.stdout = Utf8.encode s → o.stdout = s) ∧ (reply.stderr = Utf8.encode s → o.stderr = s)

theorem said_ending (reply : StandIn) : Said reply (Host.ending reply) where
  status halive hlow hhigh := by
    unfold Host.ending
    simp only [halive, Bool.false_eq_true, if_false]
    exact Int.emod_eq_of_lt hlow hhigh
  killed h := by
    unfold Host.ending
    simp only [h, if_true]
  stdout := rfl
  stderr := rfl
  text s := by
    constructor
    · intro h
      exact (congrArg Utf8.lossy h).trans (Utf8.lossy_encode s)
    · intro h
      exact (congrArg Utf8.lossy h).trans (Utf8.lossy_encode s)

/-- What becomes of a request on a machine: one command is run and replied to, and the answer is what was said. -/
def Relayed (host : String) (r : Request) (c : Command) (h : Host) (result : Outcome Output × Host) : Prop :=
  result.2 = { h with replies := h.replies.tail, calls := h.calls ++ [c] } ∧
    ∃ o, Said (h.replies.head?.getD {}) o ∧ Answers host o r result.1

section

variable (host : String) (user : Option String) (port : Option Nat) (r : Request)

theorem perform_ssh {m : Type → Type} [Monad m] [LawfulMonad m] (machine : Machine m) :
    (ssh host user port).perform machine r =
      received host r <$> machine.run (sshCommand host user port (line r) (input r)) := by
  rw [map_eq_pure_bind]
  cases r <;> rfl

theorem run_of_attentive {h : Host} {c : Command} (hstart : h.obstacle? c = none)
    (hread : (h.replies.head?.getD {}).deaf = false) :
    Host.run c h = (.finished (Host.ending (h.replies.head?.getD {})),
      { h with replies := h.replies.tail, calls := h.calls ++ [c] }) := by
  unfold Host.run
  simp only [hstart, hread, Bool.false_and, Bool.false_eq_true, if_false]

theorem relayed_ssh {h : Host} (hstart : h.obstacle? (sshCommand host user port (line r) (input r)) = none)
    (hread : (h.replies.head?.getD {}).deaf = false) :
    Relayed host r (sshCommand host user port (line r) (input r)) h
      ((ssh host user port).perform Host.machine r h) := by
  rw [perform_ssh]
  have hrun := run_of_attentive hstart hread
  change Relayed host r _ h (let x := Host.run _ h; (received host r x.1, x.2))
  rw [hrun]
  exact ⟨rfl, _, said_ending _, answers_received host _ r⟩

end

/-- What the way through `ssh` has to do for a request. -/
structure Transparent (host : String) (user : Option String) (port : Option Nat) (r : Request) (c : Command) :
    Prop where
  asked : Asked host user port r c
  /-- On every machine the command is all that is run, and its end is all that the answer depends on. -/
  alone : ∀ {m : Type → Type} [Monad m] [LawfulMonad m] (machine : Machine m),
    (ssh host user port).perform machine r = received host r <$> machine.run c
  answered : ∀ o, Answers host o r (received host r (.finished o))
  /-- Where `ssh` can be started and reads its input, the answer is what it says. -/
  relayed : ∀ h : Host, h.obstacle? c = none → (h.replies.head?.getD {}).deaf = false →
    Relayed host r c h ((ssh host user port).perform Host.machine r h)

end Channel

/-- **The way through `ssh` is transparent**: whatever texts a request consists of, the host reads them as they are,
with nothing but the operators that were meant, and what the host says comes back. -/
theorem channel_is_transparent (host : String) (user : Option String) (port : Option Nat) (r : Request) :
    ∃ c, Channel.Transparent host user port r c := by
  refine ⟨Channel.sshCommand host user port (Channel.line r) (Channel.input r), ?_⟩
  exact
    { asked := Channel.asked_sshCommand host user port r
      alone := Channel.perform_ssh host user port r
      answered := fun o => Channel.answers_received host o r
      relayed := fun _ hstart hread => Channel.relayed_ssh host user port r hstart hread }

/-- Nothing in a path can end the word it stands in. -/
example : (Request.write "a b/$x; rm>'y'&&" "z").orders.map Plain.simple =
      [⟨[literalWord "mkdir", literalWord "-p", literalWord "a b"], none⟩,
        ⟨[literalWord "cat"], some (literalWord "a b/$x; rm>'y'&&")⟩] ∧
    Channel.line (.write "a b/c;" "z") = "mkdir -p 'a b' && cat > 'a b/c;'" := by decide +kernel

end ClusterAgents
