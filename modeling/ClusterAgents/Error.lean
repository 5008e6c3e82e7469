import ClusterAgents.Text.Quoted

/-!
# What can go wrong

Every failure of this library is a value of `Error`, which keeps its cause apart from its wording:
`Error.message` is the only place where a cause becomes a text.  The causes come in layers.

* `ScanFault` — a number or a version was looked for in a text and not found.
* `FormatFault` — a value that was read is not of the form its meaning asks for.
* `ShapeFault` — a document is well formed, but does not have the shape of the value wanted.
* `SettingFault` — a configuration contradicts itself or leaves out what it must say.
* `SystemFault` — a file or a program could not be used.
-/

namespace ClusterAgents

open Text

inductive Wanted
  | digit
  | char
  | eof
  deriving DecidableEq, Repr

inductive ScanFault
  /-- Something else stands at the front of the rest. -/
  | unmet (what : Wanted) (rest : String)
  /-- The number at the front of the rest exceeds `wholeLimit`. -/
  | tooLarge (rest : String)
  deriving DecidableEq, Repr

/-- Why a value is not of the form that its meaning asks for. -/
inductive FormatFault
  | versionArity (text : String) (found : Nat)
  | versionText (text : String) (cause : ScanFault)
  | notWhole (shown : String)
  | notNumber (shown : String)
  | amountRefused (amount : Nat) (resource : String)
  | amountOverflow (resource : String) (batchSize : Nat)
  | emptyBatch
  | other (text : String)
  deriving DecidableEq, Repr

inductive SpanFault
  | empty
  | numberExpected (offset : Nat)
  | invalidCharacter (offset : Nat)
  | unitMissing (number : Nat)
  | unitUnknown (unit : String)
  | overflow
  deriving DecidableEq, Repr

inductive ShapeFault
  | wrongType (found expected : String)
  | wrongValue (found expected : String)
  | wrongLength (length : Nat) (expected : String)
  | unknownField (name : String) (known : List String)
  | unknownVariant (name : String) (known : List String)
  | missingField (name : String)
  | duplicateField (name : String)
  | version (cause : FormatFault)
  | span (cause : SpanFault)
  | other (text : String)
  deriving DecidableEq, Repr

inductive SettingFault
  /-- The text is not a document at all. -/
  | document
  | shape (cause : ShapeFault)
  | brokerUri
  | brokerRoutingKey
  | resourceName
  | batchLimit (resource : String)
  | agentCommand (resource : String)
  | duplicateResource (name : String)
  | unknownResource (name : String)
  deriving DecidableEq, Repr

inductive SystemFault
  | notFound
  | permissionDenied
  | exists
  | notDirectory
  | isDirectory
  | invalid
  | brokenPipe
  | nameTooLong
  | nulInPath
  | nulInArgument
  | notUtf8
  | other (text : String)
  deriving DecidableEq, Repr

inductive Error
  | configuration (cause : SettingFault)
  | submission (text : String)
  | jobIdMissing (output : String)
  | schemaIncompatible (installed required : String)
  | format (cause : FormatFault)
  | transport (text : String)
  | system (cause : SystemFault)
  deriving DecidableEq, Repr

abbrev Outcome := Except Error

/-! ### wording -/

def Wanted.name : Wanted → String
  | .digit => "Digit"
  | .char => "Char"
  | .eof => "Eof"

def ScanFault.message : ScanFault → String
  | .unmet what rest => "Parser error at '" ++ quoted rest ++ "': expecting " ++ what.name
  | .tooLarge rest =>
    "Semantic error at '" ++ rest ++ "': number too large to fit in target type"

def FormatFault.text : FormatFault → String
  | .versionArity text found =>
    "Version `" ++ text ++ "` must have exactly three components, found " ++ decimal found
  | .versionText text cause => "Invalid version `" ++ text ++ "`: " ++ cause.message
  | .notWhole shown => "Expected a non-negative integer, found " ++ shown
  | .notNumber shown => "Expected a number, found " ++ shown
  | .amountRefused amount resource =>
    "Invalid value " ++ decimal amount ++ " of resource `" ++ resource ++ "`"
  | .amountOverflow resource batchSize =>
    "Resource `" ++ resource ++ "` overflows for a batch of " ++ decimal batchSize ++ " agents"
  | .emptyBatch => "Batch size has to be positive"
  | .other text => text

/-- The wording is headed by the kind of the failure. -/
def FormatFault.message (f : FormatFault) : String := "Format error: " ++ f.text

def SpanFault.message : SpanFault → String
  | .empty => "value was empty"
  | .numberExpected offset => "expected number at " ++ decimal offset
  | .invalidCharacter offset => "invalid character at " ++ decimal offset
  | .unitMissing number =>
    "time unit needed, for example " ++ decimal number ++ "sec or " ++ decimal number ++ "ms"
  | .unitUnknown unit =>
    "unknown time unit " ++ quoted unit ++ ", supported units: ns, us/µs, ms, sec, min, hours, " ++
      "days, weeks, months, years (and few variations)"
  | .overflow =>
    "number is too large or cannot be represented without a lack of precision " ++
      "(values below 1ns are not supported)"

/-- The names that would have been understood, as a phrase. -/
def oneOf : List String → String
  | [] => ""
  | [a] => "`" ++ a ++ "`"
  | [a, b] => "`" ++ a ++ "` or `" ++ b ++ "`"
  | names => "one of " ++ ", ".intercalate (names.map fun a => "`" ++ a ++ "`")

/-- The wording of an unknown name, after what it is a name of. -/
def unknownName (what name : String) (known : List String) : String :=
  "unknown " ++ what ++ " `" ++ name ++ "`, " ++
    (if known.isEmpty then "there are no " ++ what ++ "s" else "expected " ++ oneOf known)

def ShapeFault.message : ShapeFault → String
  | .wrongType found expected => "invalid type: " ++ found ++ ", expected " ++ expected
  | .wrongValue found expected => "invalid value: " ++ found ++ ", expected " ++ expected
  | .wrongLength length expected =>
    "invalid length " ++ decimal length ++ ", expected " ++ expected
  | .unknownField name known => unknownName "field" name known
  | .unknownVariant name known => unknownName "variant" name known
  | .missingField name => "missing field `" ++ name ++ "`"
  | .duplicateField name => "duplicate field `" ++ name ++ "`"
  | .version cause => cause.message
  | .span cause => cause.message
  | .other text => text

def SettingFault.text : SettingFault → String
  | .document => "the text is not a document"
  | .shape cause => cause.message
  | .brokerUri => "Broker URI was not set"
  | .brokerRoutingKey => "Broker routing key was not set"
  | .resourceName => "Resource name cannot be empty"
  | .batchLimit resource => "Resource `" ++ resource ++ "`: max_batch_size has to be positive"
  | .agentCommand resource => "Resource `" ++ resource ++ "`: agent_command cannot be empty"
  | .duplicateResource name => "Duplicate resource `" ++ name ++ "`"
  | .unknownResource name => "Resource `" ++ name ++ "` is not configured"

def SystemFault.message : SystemFault → String
  | .notFound => "No such file or directory (os error 2)"
  | .permissionDenied => "Permission denied (os error 13)"
  | .exists => "File exists (os error 17)"
  | .notDirectory => "Not a directory (os error 20)"
  | .isDirectory => "Is a directory (os error 21)"
  | .invalid => "Invalid argument (os error 22)"
  | .brokenPipe => "Broken pipe (os error 32)"
  | .nameTooLong => "File name too long (os error 36)"
  | .nulInPath => "file name contained an unexpected NUL byte"
  | .nulInArgument => "nul byte found in provided data"
  | .notUtf8 => "stream did not contain valid UTF-8"
  | .other text => text

def Error.message : Error → String
  | .configuration cause => "Configuration error: " ++ cause.text
  | .submission text => "Submission error: " ++ text
  | .jobIdMissing output => "Cannot parse job id from scheduler output " ++ quoted output
  | .schemaIncompatible installed required =>
    "Schema version " ++ installed ++ " is not compatible with required version " ++ required
  | .format cause => cause.message
  | .transport text => "Transport error: " ++ text
  | .system cause => cause.message

end ClusterAgents
