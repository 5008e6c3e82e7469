import ClusterAgents.Actuator.Task
import ClusterAgents.Remote.Host
import ClusterAgents.Time.Clock

/-!
# Rehearsals

A rehearsal plays steps with an actuator whose submission host is a script: the answers to its
commands are laid down beforehand, with the time each of them takes.  Nothing else takes time.  While
a command is running other steps may be played, so that operations overlap.

Time stands still until all that can happen at a moment has happened.  Whoever waits is answered or
gives up at the first moment at which either is due, and is answered if both are; of several that are
due to give up at one moment the one that was called last comes first.
-/

namespace ClusterAgents.Rehearsal

inductive Call
  | launch (agents : List AgentId)
  | flush
  | killJobs (jobs : List JobId)
  | killAgents (agents : List AgentId)
  | killAll

mutual

inductive Step
  /-- An operation, and how many milliseconds somebody waits for it. -/
  | call (call : Call) (patience : Option Nat)
  | enqueue (agents : List AgentId)
  | markTerminal (job : JobId)
  | name
  | pendingCount
  | jobOf (agent : AgentId)
  | agentsOf (job : JobId)
  | job (job : JobId)
  | liveJobs
  | events
  | dryRun (agents : List AgentId)
  | expect (commands files : List Reply)

/-- The answer to a command: what is done while it is running, how many milliseconds it takes after
that, and how it ends, if it does. -/
inductive Reply
  | mk (during : List Step) (delay : Nat) (ending : Option (Outcome Output))

end

inductive Result
  | done
  | dropped
  | count (n : Nat)
  | success (value : Bool)
  | name (name kind : String)
  | submissions (all : List Submission)
  | jobId (id : Option JobId)
  | agents (all : Option (List AgentId))
  | job (job : Option Job)
  | jobs (all : List Job)
  | events (all : List Event)
  | script (rendered : Outcome (Batch × String))

/-- A command that was run, and what the steps that were played meanwhile answered. -/
structure Record where
  program : String
  args : List String
  during : List Result := []

structure Stage where
  account : Account := {}
  /-- In milliseconds. -/
  now : Nat := 0
  replies : List Reply := []
  fileReplies : List Reply := []
  /-- A machine that takes the part of the script, and the way to it. -/
  host : Option Host := none
  calls : List Record := []
  writes : List (String × String) := []
  /-- Whether several jobs were cancelled that nobody named. -/
  killedAll : Bool := false

/-! ### sizes -/

mutual

/-- The number of steps and replies that it holds. -/
def Step.weight : Step → Nat
  | .expect commands files => 1 + repliesWeight commands + repliesWeight files
  | _ => 1

def Reply.weight : Reply → Nat
  | .mk during _ _ => 1 + stepsWeight during

def stepsWeight : List Step → Nat
  | [] => 0
  | s :: rest => s.weight + stepsWeight rest

def repliesWeight : List Reply → Nat
  | [] => 0
  | r :: rest => r.weight + repliesWeight rest

end

/-! ### time -/

/-- The earlier one of two moments, either of which may never come. -/
def earlier : Option Nat → Option Nat → Option Nat
  | some a, some b => some (min a b)
  | some a, none => some a
  | none, b => b

/-- Whether a moment comes, and not behind another one. -/
def isDue (moment limit : Option Nat) : Bool :=
  match moment, limit with
  | some a, some b => a ≤ b
  | some _, none => true
  | none, _ => false

def millis (s : Time.Span) : Nat := (s.totalNanos + 999999) / 1000000

def overdue (timeout : Time.Span) : Error :=
  .transport ("Remote command did not finish within " ++ timeout.phrase)

/-! ### playing -/

/-- Plays steps up to a moment.  There is no answer if it comes first. -/
abbrev Play := Option Nat → List Step → Stage → Option (List Result) × Stage

namespace Stage

def take (channel : Channel) (st : Stage) : Request → Reply × Stage
  | r =>
    match st.host, r with
    | some host, r =>
      let (answer, host) := (channel.perform Host.machine r).run host
      (.mk [] 0 (some answer), { st with host := some host })
    | none, .run program args =>
      (st.replies.head?.getD (.mk [] 0 (some (.ok {}))),
        { st with replies := st.replies.tail, calls := st.calls ++ [⟨program, args, []⟩] })
    | none, .write path contents =>
      (st.fileReplies.head?.getD (.mk [] 0 (some (.ok {}))),
        { st with fileReplies := st.fileReplies.tail, writes := st.writes ++ [(path, contents)] })

def noteDuring (st : Stage) (index : Nat) (results : List Result) : Stage :=
  { st with calls := st.calls.modify index ({ · with during := results }) }

end Stage

def await (limit : Option Nat) (delay : Nat) (ending : Option (Outcome Output)) (st : Stage) :
    Option (Outcome Output) × Stage :=
  match ending with
  | some answer =>
    if isDue (some (st.now + delay)) limit then (some answer, { st with now := st.now + delay })
    else (none, { st with now := limit.getD st.now })
  | none => (none, { st with now := limit.getD st.now })

/-- Asks something of the submission host.  There is no answer if the moment comes first up to which
anybody waits. -/
def ask (nested : Play) (a : Actuator) (limit : Option Nat) (r : Request) (st : Stage) :
    Option (Outcome Output) × Stage :=
  let deadline := some (st.now + millis a.cluster.timeout)
  let index := st.calls.length
  let (.mk during delay ending, st) := st.take a.cluster.channel r
  let (answer, st) :=
    match during with
    | [] => await (earlier deadline limit) delay ending st
    | during =>
      match nested (earlier deadline limit) during st with
      | (some results, st) =>
        await (earlier deadline limit) delay ending (st.noteDuring index results)
      | (none, st) => (none, st)
  match answer with
  | some answer => (some answer, st)
  | none => (if isDue deadline limit then some (.error (overdue a.cluster.timeout)) else none, st)

/-- Carries an operation through, with at most `fuel` answers.  It is given up if the moment comes
first up to which anybody waits. -/
def drive (nested : Play) (a : Actuator) (limit : Option Nat) :
    Nat → Progress → Stage → Option Result × Stage
  | _, .flushed all, st => (some (.submissions all), st)
  | _, .killed success, st => (some (.success success), st)
  | 0, .waiting _, st => (none, st)
  | fuel + 1, .waiting t, st =>
    match ask nested a limit (t.request a.scheduler) st with
    | (some answer, st) =>
      let (account, p) := a.resume t answer st.account
      drive nested a limit fuel p { st with account }
    | (none, st) => (none, { st with account := Actuator.abandon t st.account })

def start (a : Actuator) (c : Call) (s : Account) : Account × Progress :=
  match c with
  | .launch agents => a.launch agents s
  | .flush => a.flush s
  | .killJobs jobs => Actuator.killJobs jobs s
  | .killAgents agents => Actuator.killAgents agents s
  | .killAll => Actuator.killAll s

def playCall (nested : Play) (a : Actuator) (limit : Option Nat) (c : Call) (patience : Option Nat)
    (st : Stage) : Option Result × Stage :=
  let own := patience.map (st.now + ·)
  let several := match c with
    | .killAll => 1 < st.account.ledger.jobs.size
    | _ => false
  let (account, p) := start a c st.account
  let st := { st with account, killedAll := st.killedAll || several }
  match drive nested a (earlier own limit) p.answers p st with
  | (some r, st) => (some r, st)
  | (none, st) => (if isDue own limit then some .dropped else none, st)

def playStep (nested : Play) (a : Actuator) (limit : Option Nat) (step : Step) (st : Stage) :
    Option Result × Stage :=
  let l := st.account.ledger
  match step with
  | .call c patience => playCall nested a limit c patience st
  | .enqueue agents =>
    let account := st.account.amend (·.enqueue agents)
    (some (.count (account.ledger.pending.length - l.pending.length)), { st with account })
  | .markTerminal job =>
    match Actuator.markTerminal job l with
    | some (record, l) => (some (.job (some record)), { st with account := st.account.update fun _ => l })
    | none => (some (.job none), st)
  | .name => (some (.name a.cluster.name a.cluster.scheduler.title), st)
  | .pendingCount => (some (.count l.pending.length), st)
  | .jobOf agent => (some (.jobId (l.jobOf? agent)), st)
  | .agentsOf job => (some (.agents ((l.job? job).map (·.agents))), st)
  | .job job => (some (.job (l.job? job)), st)
  | .liveJobs => (some (.jobs l.liveJobs), st)
  | .events => (some (.events l.events), st)
  | .dryRun agents => (some (.script (a.dryRun agents)), st)
  | .expect commands files =>
    (some .done, { st with replies := st.replies ++ commands, fileReplies := st.fileReplies ++ files })

def playEach (nested : Play) (a : Actuator) : Play
  | _, [], st => (some [], st)
  | limit, step :: rest, st =>
    match playStep nested a limit step st with
    | (none, st) => (none, st)
    | (some r, st) =>
      match playEach nested a limit rest st with
      | (none, st) => (none, st)
      | (some rs, st) => (some (r :: rs), st)

/-- While a command of the steps is running, others may be played, and others again while one of
theirs is, down to `depth`. -/
def playDeep (a : Actuator) : Nat → Play
  | 0, _, _, st => (none, st)
  | depth + 1, limit, steps, st => playEach (playDeep a depth) a limit steps st

/-- Each reply is used up once, so that their number bounds how deep steps are nested. -/
def play (a : Actuator) (step : Step) (st : Stage) : Result × Stage :=
  let depth := step.weight + repliesWeight st.replies + repliesWeight st.fileReplies
  let (r, st) := playStep (playDeep a depth) a none step st
  (r.getD .dropped, st)

end ClusterAgents.Rehearsal
