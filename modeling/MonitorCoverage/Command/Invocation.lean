import MonitorCoverage.Command.Flag

/-!
# What a command line asks for

The first word that is no flag and no value of one may name another command; else a class file is to
be analysed.
-/

namespace MonitorCoverage.Command

def configFlag : Flag := ⟨"config", some 'c', .text⟩

def verboseFlag : Flag := ⟨"verbose", some 'v', .bool⟩

def helpFlag : Flag := ⟨"help", some 'h', .bool⟩

/-- The flags of every command. -/
def sharedFlags : List Flag := [configFlag, verboseFlag]

/-- The flags of an analysis. -/
def analysisFlags : List Flag :=
  [⟨"format", some 'f', .text⟩, ⟨"workers", some 'w', .int⟩, ⟨"no-color", none, .bool⟩,
    ⟨"metrics-out", none, .text⟩] ++ sharedFlags

def versionName : Bytes := utf8 "version"

/-- What was asked for an analysis. -/
structure Request where
  path : Bytes
  configPath : Bytes
  isVerbose : Bool
  format : Option Bytes
  workers : Option Int64
  noColor : Bool
  /-- Where metrics are written; nowhere if it is empty. -/
  metricsPath : Bytes
  deriving DecidableEq, Repr

inductive Invocation where
  | analyze (request : Request)
  | version
  | help
  deriving DecidableEq, Repr

inductive UsageError where
  | flag (cause : FlagError)
  | argumentCount (count : Nat)
  | unexpectedWord (word : Bytes)
  deriving DecidableEq, Repr

def UsageError.message : UsageError → Bytes
  | flag cause => cause.message
  | argumentCount count => utf8 ("accepts 1 arg(s), received " ++ Decimal.text count)
  | unexpectedWord word =>
    utf8 ("unknown command " ++ Text.quote word ++ " for \"lockcov version\"")

/-! ## Other commands -/

/-- Whether a word is a flag whose value is the next word. A name that is that of no flag is taken
for one. -/
def awaitsValue (flags : List Flag) (word : Bytes) : Bool :=
  !word.contains 0x3D && match word with
    | 0x2D :: 0x2D :: name => !flags.any fun flag => flag.hasName name && flag.kind = .bool
    | [0x2D, letter] => !flags.any fun flag => flag.hasLetter letter && flag.kind = .bool
    | _ => false

def startsWithDash (word : Bytes) : Bool := word.head? = some 0x2D

/-- The first word that is neither a flag nor a value of one. -/
def leadingWord? (flags : List Flag) (isValue : Bool) : List Bytes → Option Bytes
  | [] => none
  | word :: rest =>
    if isValue then leadingWord? flags false rest
    else if word = [0x2D, 0x2D] then none
    else if awaitsValue flags word then
      if rest.length ≤ 1 then none else leadingWord? flags true rest
    else if !word.isEmpty && !startsWithDash word then some word
    else leadingWord? flags false rest

/-- A command line without the first occurrence of a word as neither a flag nor a value of one. -/
def eraseWord (flags : List Flag) (erased : Bytes) (isValue : Bool) : List Bytes → List Bytes
  | [] => []
  | word :: rest =>
    if isValue then word :: eraseWord flags erased false rest
    else if word = [0x2D, 0x2D] then word :: rest
    else if awaitsValue flags word then word :: eraseWord flags erased true rest
    else if word = erased then rest
    else word :: eraseWord flags erased false rest

/-! ## Invocations -/

def Request.ofWords (words : Words) (path : Bytes) : Request :=
  { path
    configPath := (words.text? "config").getD []
    isVerbose := words.isSet "verbose"
    format := words.text? "format"
    workers := words.int? "workers"
    noColor := words.isSet "no-color"
    metricsPath := (words.text? "metrics-out").getD [] }

/-- Reads words with the flags of a command; a request for help comes before the other words are
looked at. -/
def readCommand (flags : List Flag) (line : List Bytes)
    (use : Words → Except UsageError Invocation) : Except UsageError Invocation :=
  match readWords (flags ++ [helpFlag]) line with
  | .error cause => .error (.flag cause)
  | .ok words => if words.isSet "help" then .ok .help else use words

/-- What a command line asks for. -/
def Invocation.ofLine (line : List Bytes) : Except UsageError Invocation :=
  if leadingWord? analysisFlags false line = some versionName then
    readCommand sharedFlags (eraseWord analysisFlags versionName false line) fun words =>
      match words.others.reverse with
      | [] => .ok .version
      | word :: _ => .error (.unexpectedWord word)
  else
    readCommand analysisFlags line fun words =>
      match words.others with
      | [path] => .ok (.analyze (.ofWords words path))
      | others => .error (.argumentCount others.length)

end MonitorCoverage.Command
