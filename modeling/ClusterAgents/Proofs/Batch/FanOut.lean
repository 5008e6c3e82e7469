import ClusterAgents.Proofs.Batch.Exports
import ClusterAgents.Proofs.Digits

/-!
# What a script does

A script is read as a shell reads it: it exports the connection and the ids, and starts one agent for each
id.  Several agents are started by a launcher, each of whose processes obeys a text of its own; that text is
quoted in the script, and has quoted words in it.

* `launcher`, `rankEnvironment` — the command that starts several processes, and what each is started with;
* `FansOut` — what the commands of a script have to do;
* `script_fans_out` — they do it.
-/

namespace ClusterAgents.Batch

open Shell Text

/-! ### What is to be done -/

/-- The words that start a command once for each of several agents. -/
def launcher : SchedulerKind → Nat → List String
  | .slurm, n => ["srun", "--overlap", "--ntasks=" ++ decimal n]
  | .pbs, _ => ["pbsdsh", "--"]

/-- What the process of a rank is started with: the rank, beside the variables of the script or those that the
host has anyway. -/
def rankEnvironment (s : Scheduler) (script host : Environment) (rank : Nat) : Environment :=
  (if s.inheritsEnvironment then script else host).insert s.rankVariable (decimal rank)

/-- What the commands of a script have to do. -/
structure FansOut (kind : SchedulerKind) (ps : List (String × String)) (command : List String)
    (agents : List AgentId) (exports : List SimpleCommand) (launch : SimpleCommand) : Prop where
  /-- The first ones export the pairs. -/
  exported : ∀ σ : Session, exports.mapM σ.exported? = some ps
  /-- A shell that obeys them has the variables. -/
  obeyed : ∀ (σ : Session) (cs : List SimpleCommand),
    run σ (exports ++ cs) = run { σ with environment := define ps σ.environment } cs
  /-- A single agent is started by the script itself. -/
  alone : ∀ id, agents = [id] →
    ∀ σ : Session, σ.words launch = some (command ++ ["--agent-id", id.text])
  /-- Several agents are started by a launcher, each of whose processes becomes the agent of its rank. -/
  together : 2 ≤ agents.length → ∃ inner,
    (∀ σ : Session, σ.words launch = some (launcher kind agents.length ++ ["bash", "-c", inner])) ∧
    ∀ (script host : Environment) (rank : Nat) (h : rank < agents.length), ∃ e,
      become (rankEnvironment kind.scheduler (define ps script) host rank) inner =
        some ⟨command ++ ["--agent-id", agents[rank].text], e⟩ ∧
      Carries ps (rankEnvironment kind.scheduler (define ps script) host rank) e

/-! ### Picking an id -/

/-- The command that makes the ids the arguments of a process. -/
def setCommand : SimpleCommand :=
  [Word.spelling "set", Word.spelling "--", [.param (.variable idsVariable) false]]

/-- The command that drops the ids of lower ranks. -/
def shiftCommand (s : Scheduler) : SimpleCommand :=
  [Word.spelling "shift", [.quotes, .param (.variable s.rankVariable) true]]

/-- The command with which a process becomes the agent. -/
def execCommand (command : List String) : SimpleCommand :=
  (Word.spelling "exec" :: command.map Word.spelling) ++
    [Word.spelling "--agent-id", [.quotes, .param (.argument 1) true]]

/-- The commands with which a process picks its id and becomes the agent. -/
def pickCommands (s : Scheduler) (command : List String) : List SimpleCommand :=
  [setCommand, shiftCommand s, execCommand command]

theorem count?_decimal (n : Nat) : count? (decimal n) = some n := by
  have hall : (decimal n).toList.all Char.isDigit = true :=
    List.all_eq_true.mpr fun _ hc => isDigit_of_mem_decimal hc
  unfold count?
  rw [if_pos ⟨decimal_ne_nil n, hall⟩, ofDigitChars_decimal]

/-- The ids are taken apart at the blanks between them. -/
theorem fields_ids {σ : Session} {agents : List AgentId}
    (h : σ.environment.get? idsVariable = some (" ".intercalate (agents.map AgentId.text))) :
    σ.fields [.param (.variable idsVariable) false] = some (agents.map AgentId.text) := by
  have hall : ('-' :: hexDigits).all (fun c => !Fields.isGap c && !isPattern c) = true := by
    decide +kernel
  refine Session.fields_variable h ?_ ?_
  · intro w hw
    obtain ⟨a, -, rfl⟩ := List.mem_map.mp hw
    exact a.text_ne_nil
  · intro w hw c hc
    obtain ⟨a, -, rfl⟩ := List.mem_map.mp hw
    simpa using List.all_eq_true.mp hall c (AgentId.mem_text hc)

theorem words_setCommand {σ : Session} {agents : List AgentId}
    (h : σ.environment.get? idsVariable = some (" ".intercalate (agents.map AgentId.text))) :
    σ.words setCommand = some ("set" :: "--" :: agents.map AgentId.text) := by
  unfold setCommand
  rw [Session.words_cons, Session.words_cons, Session.words_cons, fields_ids h,
    (Stands.spelling "set").fields, (Stands.spelling "--").fields]
  simp

theorem words_shiftCommand {s : Scheduler} {σ : Session} {value : String}
    (h : σ.environment.get? s.rankVariable = some value) :
    σ.words (shiftCommand s) = some ["shift", value] := by
  have hvalue : σ.value? (.variable s.rankVariable) = some value := by
    rw [Session.value?, h, Option.getD_some]
  unfold shiftCommand
  rw [Session.words_cons, Session.words_cons, Session.fields_quoted hvalue,
    (Stands.spelling "shift").fields]
  simp

theorem words_execCommand {σ : Session} {id : String} (h : σ.arguments[0]? = some id)
    (command : List String) :
    σ.words (execCommand command) = some ("exec" :: command ++ ["--agent-id", id]) := by
  have hvalue : σ.value? (.argument 1) = some id := by
    rw [Session.value?, h, Option.getD_some]
  have hcommand := σ.words_spelling ("exec" :: command)
  rw [List.map_cons] at hcommand
  unfold execCommand
  rw [Session.words_append, hcommand, Session.words_cons, Session.words_cons,
    Session.fields_quoted hvalue, (Stands.spelling "--agent-id").fields]
  simp

theorem act_shift {σ : Session} {n : Nat} (h : n ≤ σ.arguments.length) :
    σ.act ["shift", decimal n] = some (.inl { σ with arguments := σ.arguments.drop n }) := by
  simp only [Session.act, count?_decimal, if_pos h]

/-- **A process becomes the agent of its rank** if it knows the ids and its rank. -/
theorem run_pickCommands (s : Scheduler) (command : List String) {agents : List AgentId} {e : Environment}
    {rank : Nat} (hids : e.get? idsVariable = some (" ".intercalate (agents.map AgentId.text)))
    (hrank : e.get? s.rankVariable = some (decimal rank)) (h : rank < agents.length) :
    run { environment := e } (pickCommands s command) =
      some ⟨command ++ ["--agent-id", agents[rank].text], e⟩ := by
  have hset := words_setCommand (σ := { environment := e }) hids
  have hshift := words_shiftCommand (σ := { environment := e, arguments := agents.map AgentId.text }) hrank
  have hdrop : Session.act { environment := e, arguments := agents.map AgentId.text }
      ["shift", decimal rank] =
      some (.inl { environment := e, arguments := (agents.map AgentId.text).drop rank }) := by
    refine act_shift ?_
    rw [List.length_map]
    exact Nat.le_of_lt h
  have hfirst : ((agents.map AgentId.text).drop rank)[0]? = some agents[rank].text := by
    simp [h]
  have hexec := words_execCommand
    (σ := { environment := e, arguments := (agents.map AgentId.text).drop rank }) hfirst command
  have hlast : Session.act { environment := e, arguments := (agents.map AgentId.text).drop rank }
      ("exec" :: command ++ ["--agent-id", agents[rank].text]) =
      some (.inr (command ++ ["--agent-id", agents[rank].text])) := by
    cases command <;> rfl
  unfold pickCommands
  rw [run_next hset rfl, run_next hshift hdrop, run_last hexec hlast]

/-- The fixed part of the text of a process. -/
def prologue (s : Scheduler) : String :=
  "set -- $" ++ idsVariable ++ "; shift \"$" ++ s.rankVariable ++ "\"; exec "

theorem yields_prologue (kind : SchedulerKind) :
    Yields (prologue kind.scheduler).toList
      (([setCommand, shiftCommand kind.scheduler].flatMap fun c => c.map .word ++ [.semicolon]) ++
        [.word (Word.spelling "exec")]) := by
  cases kind <;> decide +kernel

/-- The text of a process is read as the exports that it starts with, and the commands that pick an id. -/
theorem parse_pickScript (kind : SchedulerKind) (command : List String) {ps : List (String × String)}
    (h : ∀ p ∈ ps, ∀ c ∈ p.1.toList, isSafe c = true) :
    parse (pickScript kind.scheduler (Word.join command) (ps.map fun p => exportStatement p.1 p.2)) =
      some ((if kind.scheduler.inheritsEnvironment then [] else ps.map exportCommand) ++
        pickCommands kind.scheduler command) := by
  have hstatement : ∀ p ∈ ps, Yields ((exportStatement p.1 p.2).toList ++ [';'] ++ [' '])
      ((exportCommand p).map .word ++ [.semicolon]) := by
    intro p hp
    have hblank : Yields [' '] [] := rfl
    have := (yields_exportStatement (h p hp) p.2 (.inr ⟨rfl, rfl⟩)).append hblank
    rwa [List.append_nil] at this
  have hexports : Yields
      (if kind.scheduler.inheritsEnvironment then ""
        else String.join ((ps.map fun p => exportStatement p.1 p.2).map (· ++ "; "))).toList
      ((if kind.scheduler.inheritsEnvironment then [] else ps.map exportCommand).flatMap
        fun c => c.map .word ++ [.semicolon]) := by
    split
    · exact Yields.nil
    · have := Yields.flatMap hstatement
      rw [List.flatMap_map]
      simpa [List.flatMap_map] using this
  have hend : tokens "--agent-id \"$1\"".toList =
      some [.word (Word.spelling "--agent-id"), .word [.quotes, .param (.argument 1) true]] := by
    decide +kernel
  have htext : (pickScript kind.scheduler (Word.join command)
      (ps.map fun p => exportStatement p.1 p.2)).toList =
      (if kind.scheduler.inheritsEnvironment then ""
        else String.join ((ps.map fun p => exportStatement p.1 p.2).map (· ++ "; "))).toList ++
      ((prologue kind.scheduler).toList ++
        (((Word.join command).toList ++ [' ']) ++ "--agent-id \"$1\"".toList)) := by
    simp [pickScript, prologue]
  have hne : ∀ c ∈ (if kind.scheduler.inheritsEnvironment then [] else ps.map exportCommand) ++
      [setCommand, shiftCommand kind.scheduler], c ≠ [] := by
    intro c hc
    rcases List.mem_append.mp hc with hc | hc
    · split at hc
      · cases hc
      · obtain ⟨p, -, rfl⟩ := List.mem_map.mp hc
        exact exportCommand_ne_nil p
    · rcases List.mem_pair.mp hc with rfl | rfl <;> exact List.cons_ne_nil _ _
  have hexec : execCommand command ≠ [] := List.cons_ne_nil _ _
  have hcommands := commands_flatMap (.inr rfl) hne ((execCommand command).map .word)
  rw [commands_unended hexec, Option.map_some, List.append_assoc] at hcommands
  unfold parse
  rw [htext, hexports.tokens_append, (yields_prologue kind).tokens_append,
    (Yields.join command).tokens_append, hend]
  refine Eq.trans (congrArg (commands []) ?_) hcommands
  simp [execCommand]

/-! ### The launch -/

def launchWords (kind : SchedulerKind) (command : List String) (agents : List AgentId) (inner : String) :
    List String :=
  match agents with
  | [id] => command ++ ["--agent-id", id.text]
  | _ => launcher kind agents.length ++ ["bash", "-c", inner]

theorem launchWords_of_two_le (kind : SchedulerKind) (command : List String) {agents : List AgentId}
    (h : 2 ≤ agents.length) (inner : String) :
    launchWords kind command agents inner = launcher kind agents.length ++ ["bash", "-c", inner] := by
  match agents, h with
  | _ :: _ :: _, _ => rfl

theorem quote_text (id : AgentId) : Word.quote id.text = id.text := by
  have hall : ('-' :: hexDigits).all isSafe = true := by decide +kernel
  refine Word.quote_of_safe (fun h => id.text_ne_nil ?_) fun c hc =>
    List.all_eq_true.mp hall c (AgentId.mem_text hc)
  rw [h]
  rfl

theorem quote_ntasks (n : Nat) : Word.quote ("--ntasks=" ++ decimal n) = "--ntasks=" ++ decimal n := by
  have hall : "--ntasks=".toList.all isSafe = true := by decide +kernel
  refine Word.quote_of_safe (by simp) fun c hc => ?_
  rw [String.toList_append, List.mem_append] at hc
  rcases hc with hc | hc
  · exact List.all_eq_true.mp hall c hc
  · unfold isSafe
    rw [Char.isAlphanum, isDigit_of_mem_decimal hc]
    simp

/-- A launcher and its words. -/
theorem launch_eq (kind : SchedulerKind) {n : Nat} (h : 2 ≤ n) (inner : String) :
    kind.scheduler.launch n ("bash -c " ++ Word.quote inner) =
      Word.join (launcher kind n ++ ["bash", "-c", inner]) := by
  have hplain : ∀ w ∈ ["srun", "--overlap", "pbsdsh", "--", "bash", "-c"], Word.quote w = w := by
    decide +kernel
  have hn : 1 < n := h
  refine String.toList_inj.mp ?_
  cases kind with
  | slurm =>
    simp [SchedulerKind.scheduler, Scheduler.slurm, hn, launcher, Word.join, quote_ntasks, hplain]
  | pbs => simp [SchedulerKind.scheduler, Scheduler.pbs, hn, launcher, Word.join, hplain]

theorem yields_launch (kind : SchedulerKind) (command : List String) {agents : List AgentId}
    (h : agents ≠ []) (exports : List String) :
    Yields (line (kind.scheduler.launch agents.length
        (agentCommand kind.scheduler command agents exports))).toList
      (((launchWords kind command agents
        (pickScript kind.scheduler (Word.join command) exports)).map Word.spelling).map .word ++
          [.newline]) := by
  match agents, h with
  | [id], _ =>
    have hone : kind.scheduler.launch 1 (Word.join command ++ " --agent-id " ++ id.text) =
        Word.join command ++ " --agent-id " ++ id.text := by
      cases kind <;> rfl
    have hflag : Word.quote "--agent-id" = "--agent-id" := by decide +kernel
    have htext : (line (Word.join command ++ " --agent-id " ++ id.text)).toList =
        ((Word.join command).toList ++ [' ']) ++ ((Word.join ["--agent-id", id.text]).toList ++ ['\n']) := by
      simp [line, Word.join, hflag, quote_text]
    have hwords : launchWords kind command [id] (pickScript kind.scheduler (Word.join command) exports) =
        command ++ ["--agent-id", id.text] := rfl
    have htokens := (Yields.join command).append (Yields.line ["--agent-id", id.text])
    unfold agentCommand
    rw [hwords, List.length_singleton, hone, htext, List.map_append, List.map_append]
    simpa only [List.append_assoc] using htokens
  | a :: b :: rest, _ =>
    have htwo : 2 ≤ (a :: b :: rest).length := Nat.le_add_left 2 rest.length
    have htokens := Yields.line
      (launchWords kind command (a :: b :: rest) (pickScript kind.scheduler (Word.join command) exports))
    unfold agentCommand line
    rw [launch_eq kind htwo, String.toList_append]
    exact htokens

/-! ### The whole script -/

/-- The part of a script behind its header. -/
def body (s : Scheduler) (broker : Broker) (command : List String) (agents : List AgentId) : String :=
  "\n" ++ String.join ((exports broker agents).map line) ++ "\n" ++
    line (s.launch agents.length (agentCommand s command agents (exports broker agents)))

theorem script_eq {s : Scheduler} {h : Header} {broker : Broker} {command : List String}
    {agents : List AgentId} {text : String} (ht : script s h broker command agents = .ok text) :
    ∃ header, h.text s = .ok header ∧ text = header ++ body s broker command agents := by
  unfold script at ht
  cases hh : h.text s with
  | error e =>
    rw [hh] at ht
    cases ht
  | ok header =>
    rw [hh] at ht
    refine ⟨header, rfl, ?_⟩
    have := Except.ok.inj ht
    rw [← this]
    simp [body, String.append_assoc]

theorem parse_body (kind : SchedulerKind) (broker : Broker) (command : List String)
    {agents : List AgentId} (h : agents ≠ []) :
    parse (body kind.scheduler broker command agents) =
      some ((pairs broker agents).map exportCommand ++ [(launchWords kind command agents
        (pickScript kind.scheduler (Word.join command) (exports broker agents))).map Word.spelling]) := by
  have hempty : Yields ['\n'] [.newline] := rfl
  have hexports : Yields (String.join ((exports broker agents).map line)).toList
      (((pairs broker agents).map exportCommand).flatMap fun c => c.map .word ++ [.newline]) := by
    have hstatement : ∀ p ∈ pairs broker agents, Yields (line (exportStatement p.1 p.2)).toList
        ((exportCommand p).map .word ++ [.newline]) := by
      intro p hp
      unfold line
      rw [String.toList_append]
      exact yields_exportStatement (isName_of_mem_pairs broker agents hp).2 p.2 (.inl ⟨rfl, rfl⟩)
    have := Yields.flatMap hstatement
    rw [List.flatMap_map]
    simpa [exports, pairs, List.flatMap_map] using this
  have hlaunch : (launchWords kind command agents (pickScript kind.scheduler (Word.join command)
      (exports broker agents))).map Word.spelling ≠ [] := by
    unfold launchWords
    split <;> simp
  have htokens := ((hempty.append hexports).append hempty).append
    (yields_launch kind command h (exports broker agents))
  have hne : ∀ c ∈ (pairs broker agents).map exportCommand, c ≠ [] := by
    intro c hc
    obtain ⟨p, -, rfl⟩ := List.mem_map.mp hc
    exact exportCommand_ne_nil p
  have htext : (body kind.scheduler broker command agents).toList =
      (['\n'] ++ (String.join ((exports broker agents).map line)).toList ++ ['\n']) ++
        (line (kind.scheduler.launch agents.length
          (agentCommand kind.scheduler command agents (exports broker agents)))).toList := by
    simp [body]
  have hblank : ∀ ts, commands [] (.newline :: ts) = commands [] ts := fun _ => rfl
  unfold parse
  rw [htext, htokens.tokens_eq, Option.bind_some, List.append_assoc, List.append_assoc,
    List.singleton_append, hblank, commands_flatMap (.inl rfl) hne, List.singleton_append, hblank,
    commands_ended (.inl rfl) hlaunch]
  rfl

/-! ### The processes of a launcher -/

/-- A process of a launcher becomes the agent of its rank, and has all variables of the script. -/
theorem become_pickScript (kind : SchedulerKind) (broker : Broker) (command : List String)
    {agents : List AgentId} (script host : Environment) {rank : Nat} (h : rank < agents.length) :
    ∃ e, become (rankEnvironment kind.scheduler (define (pairs broker agents) script) host rank)
        (pickScript kind.scheduler (Word.join command) (exports broker agents)) =
        some ⟨command ++ ["--agent-id", agents[rank].text], e⟩ ∧
      Carries (pairs broker agents)
        (rankEnvironment kind.scheduler (define (pairs broker agents) script) host rank) e := by
  have hname := fun p hp => isName_of_mem_pairs (p := p) broker agents hp
  have hnodup := pairs_nodup broker agents
  have hrank := rankVariable_not_mem_pairs broker agents kind
  generalize hstart : rankEnvironment kind.scheduler (define (pairs broker agents) script) host rank = start
  have hstartRank : start.get? kind.scheduler.rankVariable = some (decimal rank) := by
    rw [← hstart]
    exact Table.get?_insert_self _ _ _
  -- the variables are there from the start, or the process exports them itself
  have hexports : ∃ e, Carries (pairs broker agents) start e ∧ ∀ cs,
      run { environment := start }
        ((if kind.scheduler.inheritsEnvironment then [] else (pairs broker agents).map exportCommand) ++ cs) =
      run { environment := e } cs := by
    cases hi : kind.scheduler.inheritsEnvironment with
    | true =>
      refine ⟨start, ⟨fun p hp => ?_, fun _ _ => rfl⟩, fun _ => rfl⟩
      have hne : p.1 ≠ kind.scheduler.rankVariable := fun he => hrank (he ▸ List.mem_map_of_mem hp)
      rw [← hstart, rankEnvironment, hi, if_pos rfl, Table.get?_insert_of_ne hne]
      exact get?_define_of_mem hnodup hp script
    | false =>
      exact ⟨_, carries_define hnodup start, fun cs => run_exports (fun p hp => (hname p hp).1) cs _⟩
  obtain ⟨e, hcarries, hrun⟩ := hexports
  refine ⟨e, ?_, hcarries⟩
  have hids := hcarries.1 _ (ids_mem_pairs broker agents)
  have hrank' := (hcarries.2 _ hrank).trans hstartRank
  have hparse := parse_pickScript kind command fun p hp => (hname p hp).2
  unfold become
  rw [show exports broker agents = (pairs broker agents).map fun p => exportStatement p.1 p.2 from rfl,
    hparse, Option.bind_some, hrun]
  exact run_pickCommands kind.scheduler command hids hrank' h

/-- **A script starts one agent for each id.** -/
theorem script_fans_out (kind : SchedulerKind) (h : Header) (broker : Broker) (command : List String)
    {agents : List AgentId} (ha : agents ≠ []) {text : String}
    (ht : script kind.scheduler h broker command agents = .ok text) :
    ∃ header rest exports launch, h.text kind.scheduler = .ok header ∧ text = header ++ rest ∧
      parse rest = some (exports ++ [launch]) ∧
      FansOut kind (pairs broker agents) command agents exports launch := by
  obtain ⟨header, hh, rfl⟩ := script_eq ht
  have hname : ∀ p ∈ pairs broker agents, isName p.1.toList = true :=
    fun _ hp => (isName_of_mem_pairs broker agents hp).1
  refine ⟨header, _, _, _, hh, rfl, parse_body kind broker command ha, ?_⟩
  refine ⟨mapM_exported? hname, fun σ cs => run_exports hname cs σ, ?_, fun htwo => ?_⟩
  · rintro id rfl σ
    exact σ.words_spelling (command ++ ["--agent-id", id.text])
  · refine ⟨_, fun σ => ?_, fun script host rank hr =>
      become_pickScript kind broker command script host hr⟩
    rw [launchWords_of_two_le kind command htwo]
    exact σ.words_spelling _

/-- A header for two agents. -/
def twoHeader : Header := ⟨"c-001", "/w/stdout", "/w/stderr", 2, [], []⟩

/-- A connection with quotes and parameters in it. -/
def quotedBroker : Broker := ⟨"amqp://it's $HOME", "key; 'rm'", "", true, false⟩

/-- Two agents, with quotes and parameters in their command as well. -/
theorem script_fans_out_two :
    ∃ text, script SchedulerKind.pbs.scheduler twoHeader quotedBroker ["run", "it's", "$1"] [⟨1⟩, ⟨2⟩] =
        .ok text ∧
      ∃ header rest exports launch, twoHeader.text SchedulerKind.pbs.scheduler = .ok header ∧
        text = header ++ rest ∧ parse rest = some (exports ++ [launch]) ∧
        FansOut .pbs (pairs quotedBroker [⟨1⟩, ⟨2⟩]) ["run", "it's", "$1"] [⟨1⟩, ⟨2⟩] exports launch := by
  have hagents : [(⟨1⟩ : AgentId), ⟨2⟩] ≠ [] := List.cons_ne_nil _ _
  obtain ⟨text, ht⟩ : ∃ text, script SchedulerKind.pbs.scheduler twoHeader quotedBroker
      ["run", "it's", "$1"] [⟨1⟩, ⟨2⟩] = .ok text := ⟨_, rfl⟩
  exact ⟨text, ht, script_fans_out .pbs twoHeader quotedBroker _ hagents ht⟩

end ClusterAgents.Batch
