import MonitorCoverage.Decimal.Literal
import MonitorCoverage.Settings.Value
import MonitorCoverage.Text.Quoted

/-!
# Flags of a command line

A flag is given by its name behind two dashes or by its letter behind one; letters may be joined.
The value of a flag follows in the same word or in the next one. Flags may stand before and after
the other words; a word of two dashes ends them.
-/

namespace MonitorCoverage.Command

/-- What a flag takes. -/
inductive FlagKind where
  | text
  | int
  /-- The value may be left out, and is then true. -/
  | bool
  deriving DecidableEq, Repr

structure Flag where
  name : String
  letter : Option Char
  kind : FlagKind
  deriving DecidableEq, Repr

namespace Flag

/-- How a flag is named in messages. -/
def title (flag : Flag) : String :=
  match flag.letter with
  | some letter => "-" ++ String.singleton letter ++ ", --" ++ flag.name
  | none => "--" ++ flag.name

def hasName (flag : Flag) (name : Bytes) : Bool := utf8 flag.name = name

def hasLetter (flag : Flag) (byte : UInt8) : Bool :=
  flag.letter.any fun letter => letter.toNat = byte.toNat

end Flag

inductive FlagValue where
  | text (bytes : Bytes)
  | int (i : Int64)
  | bool (b : Bool)
  deriving DecidableEq, Repr

inductive FlagError where
  | badSyntax (word : Bytes)
  | unknown (name : Bytes)
  /-- A letter is that of no flag; `letters` goes on from it. -/
  | unknownLetter (letter : UInt8) (letters : Bytes)
  | missingValue (name : Bytes)
  | missingLetterValue (letter : UInt8) (letters : Bytes)
  | badInt (flag : Flag) (value : Bytes) (cause : Decimal.LiteralError)
  | badBool (flag : Flag) (value : Bytes)
  deriving DecidableEq, Repr

namespace FlagError

/-- A character in single quotes. -/
def quoteLetter (letter : UInt8) : String :=
  let c := Char.ofNat letter.toNat
  let inside := if c = '\'' then ['\\', '\''] else if c = '"' then ['"'] else Text.quoteChar c
  "'" ++ String.ofList inside ++ "'"

def invalidArgument (flag : Flag) (value : Bytes) (cause : String) : Bytes :=
  utf8 ("invalid argument " ++ Text.quote value ++ " for " ++ Text.quote (utf8 flag.title)
    ++ " flag: "
    ++ cause)

def message : FlagError → Bytes
  | badSyntax word => utf8 "bad flag syntax: " ++ word
  | unknown name => utf8 "unknown flag: --" ++ name
  | unknownLetter letter letters =>
    utf8 ("unknown shorthand flag: " ++ quoteLetter letter ++ " in -") ++ letters
  | missingValue name => utf8 "flag needs an argument: --" ++ name
  | missingLetterValue letter letters =>
    utf8 ("flag needs an argument: " ++ quoteLetter letter ++ " in -") ++ letters
  | badInt flag value cause =>
    invalidArgument flag value ("strconv.ParseInt: parsing " ++ Text.quote value ++
      match cause with
      | .malformed => ": invalid syntax"
      | .outOfRange => ": value out of range")
  | badBool flag value =>
    invalidArgument flag value
      ("strconv.ParseBool: parsing " ++ Text.quote value ++ ": invalid syntax")

end FlagError

/-- A value as its flag takes it. -/
def Flag.read (flag : Flag) (value : Bytes) : Except FlagError FlagValue :=
  match flag.kind with
  | .text => .ok (.text value)
  | .int =>
    match Decimal.readLiteral (Text.lossyChars value) with
    | .ok i => .ok (.int i)
    | .error cause => .error (.badInt flag value cause)
  | .bool =>
    match Settings.Value.wordBool? value with
    | some b => .ok (.bool b)
    | none => .error (.badBool flag value)

/-- The flags and the other words of a command line, the latest first. -/
structure Words where
  flags : List (Flag × FlagValue) := []
  others : List Bytes := []
  deriving DecidableEq, Repr

namespace Words

/-- Adds a flag with a value. -/
def set (words : Words) (flag : Flag) (value : Bytes) : Except FlagError Words := do
  return { words with flags := (flag, ← flag.read value) :: words.flags }

def addOthers (words : Words) (others : List Bytes) : Words :=
  { words with others := others.reverse ++ words.others }

/-- What was given last for a flag. -/
def value? (words : Words) (name : String) : Option FlagValue :=
  (words.flags.find? fun entry => entry.1.name = name).map Prod.snd

def text? (words : Words) (name : String) : Option Bytes :=
  match words.value? name with
  | some (.text bytes) => some bytes
  | _ => none

def int? (words : Words) (name : String) : Option Int64 :=
  match words.value? name with
  | some (.int i) => some i
  | _ => none

def isSet (words : Words) (name : String) : Bool := words.value? name = some (.bool true)

end Words

/-- Letters that start so are meant for someone else and are passed over. -/
def foreignLetters : Bytes := utf8 "test."

/-- Reads the letters of a word, and the word after it where a value is needed. -/
def readLetters (flags : List Flag) (words : Words) (rest : List Bytes) :
    Bytes → Except FlagError (Words × List Bytes)
  | [] => .ok (words, rest)
  | letter :: more =>
    if foreignLetters.isPrefixOf (letter :: more) then .ok (words, rest)
    else
      match flags.find? fun flag => flag.hasLetter letter with
      | none => .error (.unknownLetter letter (letter :: more))
      | some flag =>
        match more with
        | 0x3D :: first :: value => do return (← words.set flag (first :: value), rest)
        | _ =>
          if flag.kind = .bool then
            match words.set flag (utf8 "true") with
            | .ok words => readLetters flags words rest more
            | .error cause => .error cause
          else if !more.isEmpty then do return (← words.set flag more, rest)
          else
            match rest with
            | value :: rest => do return (← words.set flag value, rest)
            | [] => .error (.missingLetterValue letter (letter :: more))

/-- Reads the name of a flag, and the word after it where a value is needed. -/
def readName (flags : List Flag) (words : Words) (rest : List Bytes) (name : Bytes) :
    Except FlagError (Words × List Bytes) :=
  let bare := name.takeWhile (· ≠ 0x3D)
  if bare.isEmpty || bare.head? = some 0x2D then .error (.badSyntax (utf8 "--" ++ name))
  else
    match flags.find? fun flag => flag.hasName bare with
    | none => .error (.unknown bare)
    | some flag =>
      if bare.length < name.length then do
        return (← words.set flag (name.drop (bare.length + 1)), rest)
      else if flag.kind = .bool then do return (← words.set flag (utf8 "true"), rest)
      else
        match rest with
        | value :: rest => do return (← words.set flag value, rest)
        | [] => .error (.missingValue bare)

/-- Reads words one by one. -/
def readWordsFrom (flags : List Flag) : Nat → Words → List Bytes → Except FlagError Words
  | 0, words, _ => .ok words
  | _ + 1, words, [] => .ok words
  | fuel + 1, words, word :: rest =>
    match word with
    | [0x2D, 0x2D] => .ok (words.addOthers rest)
    | 0x2D :: 0x2D :: name => do
      let (words, rest) ← readName flags words rest name
      readWordsFrom flags fuel words rest
    | 0x2D :: letter :: more => do
      let (words, rest) ← readLetters flags words rest (letter :: more)
      readWordsFrom flags fuel words rest
    | _ => readWordsFrom flags fuel (words.addOthers [word]) rest

/-- Reads the words of a command line. -/
def readWords (flags : List Flag) (line : List Bytes) : Except FlagError Words :=
  readWordsFrom flags (line.length + 1) {} line

end MonitorCoverage.Command
