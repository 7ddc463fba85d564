import MonitorCoverage.ByteSize
import MonitorCoverage.ByteStream
import MonitorCoverage.Files
import MonitorCoverage.Lz4.Frame
import MonitorCoverage.Range

/-!
# Loading a class

A class is read from a file that may be compressed. Both what is stored and what it expands to are
bounded, and what is plainly no compiled class is refused. How frames are expanded and how the
languages of source texts are told is left to a reader of frames and a recogniser.
-/

namespace MonitorCoverage

structure Input where
  path : Bytes
  data : Bytes
  /-- The size of the file, before it is expanded. -/
  storedSize : Nat
  isCompressed : Bool
  deriving DecidableEq, Repr

inductive ReadFault where
  | empty
  /-- What is stored exceeds the limit. -/
  | tooLarge (limit : UInt64)
  /-- What the frame expands to exceeds the limit. -/
  | expandsTooLarge (limit : UInt64)
  | malformedFrame
  /-- What is stored cannot be read to its end. -/
  | interrupted (reason : Bytes)
  | limitOutOfRange (cause : RangeError)
  deriving DecidableEq, Repr

namespace ReadFault

def limitMessage (limit : UInt64) : String :=
  "input exceeds size limit: more than " ++ ByteSize.text .binary limit

def message : ReadFault → Bytes
  | empty => utf8 "input is empty"
  | tooLarge limit => utf8 (limitMessage limit)
  | expandsTooLarge limit => utf8 ("lz4: " ++ limitMessage limit)
  | malformedFrame => utf8 "lz4: read: malformed frame"
  | interrupted reason => utf8 "read: " ++ reason
  | limitOutOfRange cause => utf8 cause.message

end ReadFault

/-- Expands frames: gives the first bytes of what a frame holds, as many as are asked for, or all of
them if there are fewer, and none if the frame fails before. -/
structure FrameReader where
  first? : (count : Nat) → (frame : Bytes) → Option Bytes

/-- Tells the language of a source text by its name and its bytes, if it is one. -/
abbrev Recognizer := (name text : Bytes) → Option String

namespace Input

/-- One byte more than the limit is asked for, so that an excess is noticed. The sum wraps; of a
negative number of bytes none is asked for. -/
def askedFor (limit : Int64) : Nat := (limit + 1).toInt.toNat

/-- The data, unless there is more of it than the limit allows. -/
def withinLimit (limit : Int64) (excess : UInt64 → ReadFault) (data : Bytes) :
    Except ReadFault Bytes :=
  if limit.toInt < data.length then
    match Range.ofSize limit with
    | .ok size => .error (excess size)
    | .error cause => .error (.limitOutOfRange cause)
  else .ok data

/-- What a frame expands to, within a limit. -/
def expanded (frames : FrameReader) (limit : Int64) (frame : Bytes) : Except ReadFault Bytes :=
  match frames.first? (askedFor limit) frame with
  | none => .error .malformedFrame
  | some data => withinLimit limit .expandsTooLarge data

/-- Reads what is stored; a frame is expanded. -/
def readFrom (frames : FrameReader) (limit : Int64) (source : ByteStream) :
    Except ReadFault Input := do
  let front ← (source.first (askedFor limit)).mapError .interrupted
  let raw ← withinLimit limit .tooLarge front
  let isCompressed := Lz4.magic.isPrefixOf raw
  let data ← if isCompressed then expanded frames limit raw else .ok raw
  if data.isEmpty then .error .empty
  else .ok { path := [], data, storedSize := raw.length, isCompressed }

/-- Frames as they are defined here. -/
def lz4Frames : FrameReader := ⟨Lz4.first?⟩

/-- Reads stored data that ends where it stops. -/
def read (limit : Int64) (stored : Bytes) : Except ReadFault Input :=
  readFrom lz4Frames limit { content := stored }

end Input

inductive LoadFault where
  | invalidLimit (limit : Int64)
  | cannotOpen (path : Bytes) (obstacle : Files.Obstacle)
  | isDirectory (path : Bytes)
  | unreadable (path : Bytes) (cause : ReadFault)
  /-- The name promises a frame, and there is none. -/
  | notCompressed (path : Bytes)
  | sourceFile (path : Bytes) (language : String)
  deriving DecidableEq, Repr

def LoadFault.message : LoadFault → Bytes
  | invalidLimit limit => utf8 ("size limit must be positive: " ++ Decimal.text limit.toInt)
  | cannotOpen path obstacle => utf8 "open class file: " ++ Files.openMessage path obstacle
  | isDirectory path => path ++ utf8 ": is a directory"
  | unreadable path cause => path ++ utf8 ": " ++ cause.message
  | notCompressed path => path ++ utf8 ": missing lz4 frame header"
  | sourceFile path language =>
    utf8 "input is a source file, not a compiled class: " ++ path
      ++ utf8 (" looks like " ++ language)

namespace Input

/-- The part of a path after the last slash that is not at its end. -/
def baseName (path : Bytes) : Bytes :=
  let trimmed := (path.reverse.dropWhile (· = 0x2F)).reverse
  if path.isEmpty then [0x2E]
  else if trimmed.isEmpty then [0x2F]
  else (trimmed.reverse.takeWhile (· ≠ 0x2F)).reverse

/-- The last part of the name at the end of a path, from its point on. -/
def extension (path : Bytes) : Bytes :=
  let name := path.reverse.takeWhile (· ≠ 0x2F)
  if name.contains 0x2E then 0x2E :: (name.takeWhile (· ≠ 0x2E)).reverse else []

/-- Letters without their case, where the text is of letters `a` to `z`. -/
def asciiLower (bytes : Bytes) : Bytes :=
  bytes.map fun byte => if 0x41 ≤ byte && byte ≤ 0x5A then byte + 0x20 else byte

/-- The endings of the names of source files, and their languages. -/
def languages : List (String × String) :=
  [(".java", "Java"), (".kt", "Kotlin"), (".go", "Go"), (".scala", "Scala"), (".groovy", "Groovy")]

/-- The language of a file of a name, by the first point from which on the name is known. -/
def languageOf? : List Char → Option String
  | [] => none
  | c :: cs =>
    match languages.lookup (String.ofList (c :: cs)) with
    | some language => some language
    | none => languageOf? cs

/-- The recogniser that looks at names only, whatever their case. -/
def languageByName : Recognizer := fun name _ =>
  languageOf? ((Text.lossyChars name).map Text.toLowerCase)

/-- The first bytes of every class. -/
def classMagic : Bytes := [0xCA, 0xFE, 0xBA, 0xBE]

/-- Data is binary if there is a zero among its first 8000 bytes. -/
def isBinary (data : Bytes) : Bool := (data.take 8000).contains 0

/-- The language of which data is a source text, if it is one. -/
def sourceLanguage? (recognize : Recognizer) (path data : Bytes) : Option String :=
  if classMagic.isPrefixOf data || isBinary data then none else recognize (baseName path) data

/-- Loads what is stored in the file at a path. -/
def loadFrom (recognize : Recognizer) (limit : Int64) (path : Bytes) (source : ByteStream) :
    Except LoadFault Input :=
  match readFrom lz4Frames limit source with
  | .error cause => .error (.unreadable path cause)
  | .ok input =>
    if !input.isCompressed && asciiLower (extension path) = utf8 ".lz4" then
      .error (.notCompressed path)
    else
      match sourceLanguage? recognize path input.data with
      | some language => .error (.sourceFile path language)
      | none => .ok { input with path, storedSize := source.content.length }

/-- Loads the file at a path. The limit bounds what is stored and what it expands to. -/
def load (recognize : Recognizer) (entry : Bytes → Files.Entry) (limit : Int64) (path : Bytes) :
    Except LoadFault Input :=
  if limit ≤ 0 then .error (.invalidLimit limit)
  else
    match entry path with
    | .none obstacle => .error (.cannotOpen path obstacle)
    | .directory => .error (.isDirectory path)
    | .file content => loadFrom recognize limit path { content }
    | .damaged content reason =>
      loadFrom recognize limit path { content, fault? := some (Files.readMessage path reason) }

end Input

end MonitorCoverage
