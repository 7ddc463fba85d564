import MonitorCoverage.Lz4.Block
import MonitorCoverage.Lz4.Checksum

/-!
# Compressed frames

A frame is a header and a row of blocks, closed by a mark and, if the header says so, a checksum of
the whole content. A frame is read as a stream: bytes, and then an end or a fault. Data that stops
between two parts of a frame ends the stream as the mark does; data that stops inside a part is a
fault. What follows the frame is not looked at.
-/

namespace MonitorCoverage.Lz4

/-- The bytes every frame starts with. -/
def magic : Bytes := [0x04, 0x22, 0x4D, 0x18]

structure Header where
  /-- Whether no block refers to the output of an earlier one. -/
  isIndependent : Bool
  hasBlockChecksum : Bool
  hasContentChecksum : Bool
  /-- The greatest size of a block, stored or expanded. -/
  blockSize : Nat
  deriving DecidableEq, Repr

/-- What the next part of a frame is. -/
inductive Part (α : Type) where
  /-- The data stops before the part. -/
  | absent
  /-- The data stops inside the part, or the part is no such part. -/
  | malformed
  | read (value : α) (rest : Bytes)

/-- A part of a number of bytes. -/
def takePart (size : Nat) (data : Bytes) : Part Bytes :=
  let (part, rest) := data.splitAt size
  if part.length = size then .read part rest else if part.isEmpty then .absent else .malformed

/-- A word, the lowest byte first. -/
def takeWord (data : Bytes) : Part UInt32 :=
  match data with
  | a :: b :: c :: d :: rest => .read (word32 a b c d) rest
  | [] => .absent
  | _ => .malformed

def hasBit (flags : UInt8) (bit : UInt8) : Bool := flags &&& bit ≠ 0

/-- The block size that bits 4 to 6 of the second header byte stand for: 64 KiB to 4 MiB. -/
def blockSize? (byte : UInt8) : Option Nat :=
  let index := byte.toNat / 16 % 8
  if index < 4 then none else some (Nat.pow 2 (8 + 2 * index))

/-- The header that its bytes describe, if the last of them is their checksum. -/
def Header.ofBytes? (flags sizes : UInt8) (contentSize : Bytes) (sum : UInt8) : Option Header :=
  if (checksum (flags :: sizes :: contentSize) >>> 8).toUInt8 ≠ sum then none
  else
    (blockSize? sizes).map fun blockSize =>
      { isIndependent := hasBit flags 0x20
        hasBlockChecksum := hasBit flags 0x10
        hasContentChecksum := hasBit flags 0x04
        blockSize }

/-- The header of a frame, after its first four bytes. The size of the content, where it is given,
is not compared with the content. -/
def Header.take (data : Bytes) : Part Header :=
  let finish (header : Option Header) (rest : Bytes) : Part Header :=
    match header with
    | some header => .read header rest
    | none => .malformed
  match data with
  | flags :: sizes :: next :: rest =>
    if hasBit flags 0x08 then
      match takePart 8 rest with
      | .read tail rest =>
        let described := next :: tail
        finish (Header.ofBytes? flags sizes (described.take 8) (described.getLastD 0)) rest
      | .absent => .absent
      | .malformed => .malformed
    else finish (Header.ofBytes? flags sizes [] next) rest
  | [] => .absent
  | _ => .malformed

/-- How a stream ends. -/
inductive Ending where
  | complete
  | malformed
  /-- Enough was delivered; nothing is known of the rest. -/
  | unread
  deriving DecidableEq, Repr

/-- What a stream delivers, and how it ends. -/
structure Delivery where
  content : ByteArray
  ending : Ending

/-- Closes a frame: the checksum of the content has to agree, if there is one. -/
def closeFrame (header : Header) (data : Bytes) (content : ByteArray) : Delivery :=
  if header.hasContentChecksum then
    match takeWord data with
    | .absent => ⟨content, .complete⟩
    | .malformed => ⟨content, .malformed⟩
    | .read sum _ =>
      ⟨content, if checksum content.data.toList = sum then .complete else .malformed⟩
  else ⟨content, .complete⟩

/-- Adds what a stored block holds to the content. The highest bit of its size word says that it is
stored as it is. -/
def addBlock (header : Header) (size : UInt32) (block : Bytes) (content : ByteArray) :
    Option ByteArray :=
  if size < 0x80000000 then
    expand (if header.isIndependent then content.size else 0) (content.size + header.blockSize)
      block content
  else some (block.foldl ByteArray.push content)

/-- Reads blocks until the frame ends or `isEnough` holds of the size of the content. -/
def readBlocks (header : Header) (isEnough : Nat → Bool) : Nat → Bytes → ByteArray → Delivery
  | 0, _, content => ⟨content, .unread⟩
  | fuel + 1, data, content =>
    if isEnough content.size then ⟨content, .unread⟩
    else
      match takeWord data with
      | .absent => ⟨content, .complete⟩
      | .malformed => ⟨content, .malformed⟩
      | .read size data =>
        if size = 0 then closeFrame header data content
        else
          let stored := (size &&& 0x7FFFFFFF).toNat
          if header.blockSize < stored then ⟨content, .malformed⟩
          else
            match takePart stored data with
            | .absent => ⟨content, .complete⟩
            | .malformed => ⟨content, .malformed⟩
            | .read block data =>
              let sum :=
                if header.hasBlockChecksum then takeWord data else .read (checksum block) data
              match sum with
              | .absent => ⟨content, .complete⟩
              | .malformed => ⟨content, .malformed⟩
              | .read sum data =>
                if header.hasBlockChecksum && checksum block ≠ sum then ⟨content, .malformed⟩
                else
                  match addBlock header size block content with
                  | none => ⟨content, .malformed⟩
                  | some content => readBlocks header isEnough fuel data content

/-- What the stream of a frame delivers, up to the block with which `isEnough` holds of its length.
-/
def deliver (isEnough : Nat → Bool) (frame : Bytes) : Delivery :=
  match Header.take (frame.drop magic.length) with
  | .absent => ⟨.empty, .complete⟩
  | .malformed => ⟨.empty, .malformed⟩
  | .read header data => readBlocks header isEnough (data.length + 1) data .empty

/-- The first `limit` bytes of what a frame holds, or all of it if it is shorter. There are none if
the stream fails before that many were delivered. -/
def first? (limit : Nat) (frame : Bytes) : Option Bytes :=
  let delivery := deliver (limit ≤ ·) frame
  if limit ≤ delivery.content.size then some (delivery.content.data.toList.take limit)
  else if delivery.ending = .malformed then none
  else some delivery.content.data.toList

end MonitorCoverage.Lz4
