import ClusterAgents.Job

/-!
# Arguments of the command line

`Invocation.parse` finds out what a command line asks for.  A command line has levels: a word such as
`schema` begins a new one, with options of its own.  Within a level options and other arguments may
come in any order; `--` makes everything behind it an argument that is no option.
-/

namespace ClusterAgents.CommandLine

inductive Order
  | render (resource : String) (agents : Nat)
  | launch (resource : String) (agents : Nat)
  | cancel (resource : String) (jobs : List JobId)
  | checkSchema
  | resetSchema
  deriving DecidableEq, Repr

structure Invocation where
  config : String
  verbose : Bool
  order : Order
  deriving DecidableEq, Repr

/-- Why a command line is not followed. -/
inductive Halt
  /-- It makes no sense. -/
  | usage
  | help
  | version
  deriving DecidableEq, Repr

/-! ### levels -/

/-- What is understood at a level of the command line. -/
structure Level where
  options : List String := []
  /-- The words that begin a level of their own. -/
  words : List String := []
  /-- The most other arguments there may be. -/
  places : Option Nat := some 0
  version : Bool := false

inductive Piece
  | word
  | escape
  | verbose
  | option (name : String) (value : Option String)
  | place
  | halt (cause : Halt)
  deriving DecidableEq, Repr

/-- An option of several letters, behind its two hyphens. -/
def Level.long (l : Level) (cs : List Char) : Piece :=
  let name := String.ofList (cs.takeWhile (· != '='))
  match cs.dropWhile (· != '=') with
  | _ :: value =>
    if l.options.contains name then .option name (some (String.ofList value)) else .halt .usage
  | [] =>
    if l.options.contains name then .option name none
    else if name = "verbose" then .verbose
    else if name = "help" then .halt .help
    else if name = "version" && l.version then .halt .version
    else .halt .usage

def Level.piece (l : Level) (argument : String) : Piece :=
  if l.words.contains argument then .word
  else
    match argument.toList with
    | ['-', '-'] => .escape
    | '-' :: '-' :: cs => l.long cs
    | '-' :: c :: _ =>
      if c = 'h' then .halt .help
      else if c = 'V' && l.version then .halt .version
      else .halt .usage
    | _ => .place

structure Found where
  values : List (String × String) := []
  verbose : Bool := false
  places : List String := []
  /-- The word that begins the next level, and what stands behind it. -/
  next : Option (String × List String) := none

namespace Found

/-- No option may be there twice. -/
def addValue (f : Found) (name value : String) : Except Halt Found :=
  if (f.values.lookup name).isSome then .error .usage
  else .ok { f with values := f.values ++ [(name, value)] }

def addPlace (f : Found) (l : Level) (argument : String) : Except Halt Found :=
  if l.places.all (f.places.length < ·) then .ok { f with places := f.places ++ [argument] }
  else .error .usage

def setVerbose (f : Found) : Except Halt Found :=
  if f.verbose then .error .usage else .ok { f with verbose := true }

end Found

def isOption (argument : String) : Bool :=
  match argument.toList with
  | '-' :: _ :: _ => true
  | _ => false

def Level.find (l : Level) (f : Found) : List String → Except Halt Found
  | [] => .ok f
  | argument :: rest =>
    match l.piece argument with
    | .word => .ok { f with next := some (argument, rest) }
    | .escape => rest.foldlM (·.addPlace l) f
    | .verbose => do l.find (← f.setVerbose) rest
    | .option name (some value) => do l.find (← f.addValue name value) rest
    | .option name none =>
      match rest with
      | [] => .error .usage
      | value :: rest =>
        if isOption value then .error .usage else do l.find (← f.addValue name value) rest
    | .place => do l.find (← f.addPlace l argument) rest
    | .halt cause => .error cause

/-! ### the levels of this program -/

abbrev Environment := String → Option String

def verboseVariable : String := "ACTUATOR_DEBUG"

def configVariable : String := "ACTUATOR_CONFIG"

/-- A flag asks to say more, or else a variable. -/
def Found.isVerbose (f : Found) (environment : Environment) : Except Halt Bool :=
  if f.verbose then .ok true
  else
    match environment verboseVariable with
    | none => .ok false
    | some "true" => .ok true
    | some "false" => .ok false
    | some _ => .error .usage

/-- What may stand in front of the first word. -/
def rootLevel : Level where
  options := ["config"]
  words := ["render", "launch", "cancel", "schema"]
  version := true

/-- A number of agents: a sign or none and digits, no more than 32 bits hold. -/
def agentCount? (s : String) : Option Nat :=
  let (negative, ds) := match s.toList with
    | '+' :: ds => (false, ds)
    | '-' :: ds => (true, ds)
    | ds => (false, ds)
  if ds.isEmpty || !ds.all Text.isDigit then none
  else
    let n := Text.digitsValue ds
    if n < Text.bitRange 32 && (!negative || n = 0) then some n else none

def readBatch (order : String → Nat → Order) (environment : Environment) (arguments : List String) :
    Except Halt (Bool × Order) := do
  let f ← ({ options := ["agents"], places := some 1 } : Level).find {} arguments
  let verbose ← f.isVerbose environment
  match f.places, f.values.lookup "agents" with
  | [resource], none => .ok (verbose, order resource 1)
  | [resource], some text =>
    match agentCount? text with
    | some n => .ok (verbose, order resource n)
    | none => .error .usage
  | _, _ => .error .usage

def readCancel (environment : Environment) (arguments : List String) :
    Except Halt (Bool × Order) := do
  let f ← ({ places := none } : Level).find {} arguments
  let verbose ← f.isVerbose environment
  match f.places with
  | resource :: job :: jobs => .ok (verbose, .cancel resource (job :: jobs))
  | _ => .error .usage

def readSchema (environment : Environment) (arguments : List String) :
    Except Halt (Bool × Order) := do
  let orders := ["check", "reset"]
  let f ← ({ words := "help" :: orders } : Level).find {} arguments
  match f.next with
  | none => .error .usage
  | some ("help", []) => .error .help
  | some ("help", [word]) => .error (if ("help" :: orders).contains word then .help else .usage)
  | some ("help", _) => .error .usage
  | some (word, rest) => do
    let below ← ({} : Level).find {} rest
    let belowVerbose ← below.isVerbose environment
    let verbose ← f.isVerbose environment
    .ok (verbose || belowVerbose, if word = "check" then .checkSchema else .resetSchema)

def readOrder (environment : Environment) (word : String) (arguments : List String) :
    Except Halt (Bool × Order) :=
  match word with
  | "render" => readBatch .render environment arguments
  | "launch" => readBatch .launch environment arguments
  | "cancel" => readCancel environment arguments
  | _ => readSchema environment arguments

/-- Finds out what a command line asks for. -/
def Invocation.parse (environment : Environment) (arguments : List String) :
    Except Halt Invocation := do
  let f ← rootLevel.find {} arguments
  match f.next with
  | none => .error .usage
  | some (word, rest) => do
    let (belowVerbose, order) ← readOrder environment word rest
    let verbose ← f.isVerbose environment
    match f.values.lookup "config" <|> environment configVariable with
    | none => .error .usage
    | some config =>
      if config.isEmpty then .error .usage
      else .ok ⟨config, verbose || belowVerbose, order⟩

end ClusterAgents.CommandLine
