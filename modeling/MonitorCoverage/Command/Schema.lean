import MonitorCoverage.Command.Run

/-!
# Writing the schema of reports

The schema goes to the output, or to a file that a flag `o` names. The flag may have one or two
dashes; the first word that is no flag ends the flags.
-/

namespace MonitorCoverage.Command

inductive SchemaFailure where
  | badSyntax (word : Bytes)
  | unknownFlag (name : Bytes)
  | missingValue
  | file (path : Bytes) (obstacle : Files.Obstacle)
  | output (reason : Bytes)
  deriving DecidableEq, Repr

def SchemaFailure.message : SchemaFailure → Bytes
  | badSyntax word => utf8 "bad flag syntax: " ++ word
  | unknownFlag name => utf8 "flag provided but not defined: -" ++ name
  | missingValue => utf8 "flag needs an argument: -o"
  | file path obstacle => Files.openMessage path obstacle
  | output reason => reason

/-- The name behind the dashes of a word, if the word is a flag. -/
def flagName? : Bytes → Option Bytes
  | 0x2D :: 0x2D :: name => some name
  | 0x2D :: first :: name => some (first :: name)
  | _ => none

/-- The path that a command line names last, or `path` if it names none. -/
def schemaPath (path : Bytes) : Nat → List Bytes → Except SchemaFailure Bytes
  | 0, _ => .ok path
  | _ + 1, [] => .ok path
  | fuel + 1, word :: rest =>
    match flagName? word with
    | none => .ok path
    | some [] => .ok path
    | some (first :: more) =>
      let bare := first :: more.takeWhile (· ≠ 0x3D)
      if first = 0x2D || first = 0x3D then .error (.badSyntax word)
      else if bare ≠ [0x6F] then .error (.unknownFlag bare)
      else if bare.length ≤ more.length then schemaPath (more.drop bare.length) fuel rest
      else
        match rest with
        | value :: rest => schemaPath value fuel rest
        | [] => .error .missingValue

/-- Writes the schema of reports to where a command line says. -/
def writeSchema {m : Type → Type} [Monad m] (effects : Effects m) (line : List Bytes) :
    m (Except SchemaFailure Unit) := do
  let document := utf8 Report.schemaDocument
  match schemaPath [] (line.length + 1) line with
  | .error cause => return .error cause
  | .ok [] =>
    match ← effects.writeOutput document with
    | .ok () => return .ok ()
    | .error reason => return .error (.output reason)
  | .ok path =>
    match ← effects.createFile path with
    | .error obstacle => return .error (.file path obstacle)
    | .ok () =>
      let written ← effects.appendFile path document
      let closed ← effects.closeFile path
      match reasonsOf [written, closed] with
      | [] => return .ok ()
      | reason :: _ => return .error (.output reason)

end MonitorCoverage.Command
