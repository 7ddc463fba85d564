import MonitorCoverage.Bytes

/-!
# Streams

What is read from its beginning to its end is a stream: bytes, and then an end or a fault. A reader
that asks for a number of bytes meets the fault only if it comes before that many.
-/

namespace MonitorCoverage

structure ByteStream where
  content : Bytes
  /-- Why nothing can be read behind the content, unless the stream ends there. -/
  fault? : Option Bytes := none
  deriving DecidableEq, Repr

/-- The first bytes of a stream, as many as are asked for, or all of them if there are fewer. -/
def ByteStream.first (stream : ByteStream) (count : Nat) : Except Bytes Bytes :=
  if count ≤ stream.content.length then .ok (stream.content.take count)
  else
    match stream.fault? with
    | none => .ok stream.content
    | some reason => .error reason

end MonitorCoverage
