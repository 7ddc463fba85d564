import MonitorCoverage.Input
import MonitorCoverage.Proofs.Outcome
import MonitorCoverage.Proofs.OutputGrowth

/-!
# Inputs are loaded whole

The limit of a size is checked on one byte more than it allows. So a class that is loaded within the
limit is all that its file holds, and does not depend on the limit: a plain file is its own content,
and a frame was read to its end. Of the reader of frames only this is used: what it delivers for a
frame is a stream, whose fault it meets behind all the bytes before the fault.
-/

namespace MonitorCoverage

namespace Lz4

variable {header : Header} {isEnough : Nat → Bool} {data : Bytes} {content : ByteArray} {fuel : Nat}

theorem length_of_takeWord {word : UInt32} {rest : Bytes} (h : takeWord data = .read word rest) :
    data.length = rest.length + 4 := by
  unfold takeWord at h
  split at h
  · cases h
    simp
  · cases h
  · cases h

theorem length_le_of_takePart {size : Nat} {part rest : Bytes}
    (h : takePart size data = .read part rest) : rest.length ≤ data.length := by
  simp only [takePart, List.splitAt_eq] at h
  split at h
  · cases h
    simp
  · split at h <;> cases h

theorem ending_closeFrame_ne_unread : (closeFrame header data content).ending ≠ .unread := by
  unfold closeFrame
  split
  · split
    · nofun
    · nofun
    · split <;> nofun
  · nofun

theorem content_closeFrame : (closeFrame header data content).content = content := by
  unfold closeFrame
  split
  · split <;> rfl
  · rfl

theorem readBlocks_of_isEnough (h : isEnough content.size = true) :
    readBlocks header isEnough (fuel + 1) data content = ⟨content, .unread⟩ := by
  simp [readBlocks, h]

/-- One turn of the reader: unless enough was delivered, the stream either ends in a way that does
not depend on what is enough, with what it delivered so far, or goes on with less data and behind
what it delivered so far. -/
theorem readBlocks_succ (header : Header) (data : Bytes) (content : ByteArray) :
    (∃ delivery : Delivery, delivery.ending ≠ .unread ∧ delivery.content = content ∧
      ∀ isEnough fuel, isEnough content.size = false →
        readBlocks header isEnough (fuel + 1) data content = delivery) ∨
    ∃ rest more, rest.length < data.length ∧ Extends more content ∧
      ∀ isEnough fuel, isEnough content.size = false →
        readBlocks header isEnough (fuel + 1) data content =
          readBlocks header isEnough fuel rest more := by
  cases hword : takeWord data with
  | absent =>
    exact .inl ⟨⟨content, .complete⟩, nofun, rfl, fun _ _ h => by simp [readBlocks, h, hword]⟩
  | malformed =>
    exact .inl ⟨⟨content, .malformed⟩, nofun, rfl, fun _ _ h => by simp [readBlocks, h, hword]⟩
  | read size afterSize =>
    by_cases hlast : size = 0
    · exact .inl ⟨closeFrame header afterSize content, ending_closeFrame_ne_unread,
        content_closeFrame, fun _ _ h => by simp [readBlocks, h, hword, hlast]⟩
    by_cases hlarge : header.blockSize < (size &&& 0x7FFFFFFF).toNat
    · exact .inl ⟨⟨content, .malformed⟩, nofun, rfl,
        fun _ _ h => by simp [-UInt32.toNat_and, readBlocks, h, hword, hlast, hlarge]⟩
    cases hpart : takePart (size &&& 0x7FFFFFFF).toNat afterSize with
    | absent =>
      exact .inl ⟨⟨content, .complete⟩, nofun, rfl,
        fun _ _ h => by simp [-UInt32.toNat_and, readBlocks, h, hword, hlast, hlarge, hpart]⟩
    | malformed =>
      exact .inl ⟨⟨content, .malformed⟩, nofun, rfl,
        fun _ _ h => by simp [-UInt32.toNat_and, readBlocks, h, hword, hlast, hlarge, hpart]⟩
    | read block afterBlock =>
      cases hsum : if header.hasBlockChecksum then takeWord afterBlock
          else .read (checksum block) afterBlock with
      | absent =>
        exact .inl ⟨⟨content, .complete⟩, nofun, rfl,
          fun _ _ h => by
            simp [-UInt32.toNat_and, readBlocks, h, hword, hlast, hlarge, hpart, hsum]⟩
      | malformed =>
        exact .inl ⟨⟨content, .malformed⟩, nofun, rfl,
          fun _ _ h => by
            simp [-UInt32.toNat_and, readBlocks, h, hword, hlast, hlarge, hpart, hsum]⟩
      | read sum rest =>
        by_cases hbad : (header.hasBlockChecksum && checksum block ≠ sum) = true
        · exact .inl ⟨⟨content, .malformed⟩, nofun, rfl, fun _ _ h => by
            simp only [readBlocks, h, hword, hlast, hlarge, hpart, hsum, hbad]
            rfl⟩
        cases hadd : addBlock header size block content with
        | none =>
          exact .inl ⟨⟨content, .malformed⟩, nofun, rfl, fun _ _ h => by
            simp only [readBlocks, h, hword, hlast, hlarge, hpart, hsum, hbad, hadd]
            simp⟩
        | some more =>
          refine .inr ⟨rest, more, ?_, .addBlock hadd, fun _ _ h => by
            simp only [readBlocks, h, hword, hlast, hlarge, hpart, hsum, hbad, hadd]
            simp⟩
          have hsize := length_of_takeWord hword
          have hblock := length_le_of_takePart hpart
          split at hsum
          · have hlength := length_of_takeWord hsum
            omega
          · cases hsum
            omega

/-- A reader that has fuel for all of its data stops early only when enough was delivered. -/
theorem isEnough_of_unread (hfuel : data.length < fuel)
    (h : (readBlocks header isEnough fuel data content).ending = .unread) :
    isEnough (readBlocks header isEnough fuel data content).content.size = true := by
  induction fuel generalizing data content with
  | zero => omega
  | succ fuel ih =>
    cases henough : isEnough content.size with
    | true => rwa [readBlocks_of_isEnough henough]
    | false =>
      obtain ⟨delivery, hending, -, hread⟩ | ⟨rest, more, hlength, -, hread⟩ :=
        readBlocks_succ header data content
      · rw [hread _ _ henough] at h
        exact absurd h hending
      · rw [hread _ _ henough] at h ⊢
        exact ih (by omega) h

/-- A stream that was read to its end delivers the same where nothing is ever enough. -/
theorem readBlocks_never (h : (readBlocks header isEnough fuel data content).ending ≠ .unread) :
    readBlocks header (fun _ => false) fuel data content =
      readBlocks header isEnough fuel data content := by
  induction fuel generalizing data content with
  | zero => exact absurd rfl h
  | succ fuel ih =>
    cases henough : isEnough content.size with
    | true => exact absurd (congrArg Delivery.ending (readBlocks_of_isEnough henough)) h
    | false =>
      obtain ⟨delivery, hending, -, hread⟩ | ⟨rest, more, hlength, -, hread⟩ :=
        readBlocks_succ header data content
      · rw [hread _ _ henough, hread _ _ rfl]
      · rw [hread _ _ henough] at h ⊢
        rw [hread _ _ rfl]
        exact ih h

theorem isEnough_of_deliver_unread {frame : Bytes}
    (h : (deliver isEnough frame).ending = .unread) :
    isEnough (deliver isEnough frame).content.size = true := by
  unfold deliver at h ⊢
  split at h
  · cases h
  · cases h
  · exact isEnough_of_unread (Nat.lt_succ_self _) h

theorem deliver_never {frame : Bytes} (h : (deliver isEnough frame).ending ≠ .unread) :
    deliver (fun _ => false) frame = deliver isEnough frame := by
  unfold deliver at h ⊢
  split
  · rfl
  · rfl
  · rename_i hheader
    simp only [hheader] at h
    exact readBlocks_never h

theorem readBlocks_extends :
    Extends (readBlocks header isEnough fuel data content).content content := by
  induction fuel generalizing data content with
  | zero => exact .refl content
  | succ fuel ih =>
    cases henough : isEnough content.size with
    | true =>
      rw [readBlocks_of_isEnough henough]
      exact .refl content
    | false =>
      obtain ⟨delivery, -, hcontent, hread⟩ | ⟨rest, more, -, hmore, hread⟩ :=
        readBlocks_succ header data content
      · rw [hread _ _ henough, hcontent]
        exact .refl content
      · rw [hread _ _ henough]
        exact ih.trans hmore

/-- What was delivered when enough of it was read is the beginning of all that is delivered. -/
theorem readBlocks_never_extends :
    Extends (readBlocks header (fun _ => false) fuel data content).content
      (readBlocks header isEnough fuel data content).content := by
  induction fuel generalizing data content with
  | zero => exact .refl content
  | succ fuel ih =>
    cases henough : isEnough content.size with
    | true =>
      rw [readBlocks_of_isEnough henough]
      exact readBlocks_extends
    | false =>
      obtain ⟨delivery, -, -, hread⟩ | ⟨rest, more, -, -, hread⟩ :=
        readBlocks_succ header data content
      · rw [hread _ _ henough, hread _ _ rfl]
        exact .refl _
      · rw [hread _ _ henough, hread _ _ rfl]
        exact ih

theorem deliver_never_extends (isEnough : Nat → Bool) (frame : Bytes) :
    Extends (deliver (fun _ => false) frame).content (deliver isEnough frame).content := by
  unfold deliver
  split
  · exact .refl _
  · exact .refl _
  · exact readBlocks_never_extends

/-- The first bytes of a frame are the first bytes of its whole stream: they come as far as the
stream has them, and a fault is met only if it comes before as many as were asked for. -/
theorem first?_eq (limit : Nat) (frame : Bytes) :
    first? limit frame =
      if limit ≤ (deliver (fun _ => false) frame).content.size then
        some ((deliver (fun _ => false) frame).content.data.toList.take limit)
      else if (deliver (fun _ => false) frame).ending = .complete then
        some (deliver (fun _ => false) frame).content.data.toList
      else none := by
  unfold first?
  by_cases h : limit ≤ (deliver (limit ≤ ·) frame).content.size
  · have hgrown := deliver_never_extends (limit ≤ ·) frame
    simp only [if_pos h, if_pos (Nat.le_trans h hgrown.size_le), hgrown.take_eq h]
  · have hunread : (deliver (limit ≤ ·) frame).ending ≠ .unread := by
      intro hending
      exact h (of_decide_eq_true (isEnough_of_deliver_unread hending))
    rw [deliver_never hunread]
    simp only [if_neg h]
    cases hending : (deliver (limit ≤ ·) frame).ending with
    | complete => rfl
    | malformed => rfl
    | unread => exact absurd hending hunread

/-- All that a frame holds, as a stream: what is delivered when nothing is ever enough. -/
def streamOf (frame : Bytes) : ByteStream :=
  let delivery := deliver (fun _ => false) frame
  { content := delivery.content.data.toList
    fault? := if delivery.ending = .complete then none else some (utf8 "malformed frame") }

theorem length_streamOf (frame : Bytes) :
    (streamOf frame).content.length = (deliver (fun _ => false) frame).content.size :=
  Array.length_toList

theorem fault?_streamOf_eq_none_iff {frame : Bytes} :
    (streamOf frame).fault? = none ↔ (deliver (fun _ => false) frame).ending = .complete := by
  simp [streamOf]

end Lz4

/-- The behaviour of a reader of frames: it has a stream for each frame, of which it gives the first
bytes, and the fault of the stream shows only where more bytes are asked for than come before it. -/
def FrameReader.Delivers (frames : FrameReader) (streamOf : Bytes → ByteStream) : Prop :=
  ∀ count frame, frames.first? count frame = ((streamOf frame).first count).toOption

theorem Input.lz4Frames_delivers : lz4Frames.Delivers Lz4.streamOf := by
  intro count frame
  have hlength := Lz4.length_streamOf frame
  show Lz4.first? count frame = _
  rw [Lz4.first?_eq, ByteStream.first, hlength]
  split
  · rfl
  · by_cases hcomplete : (Lz4.deliver (fun _ => false) frame).ending = .complete
    · rw [if_pos hcomplete, Lz4.fault?_streamOf_eq_none_iff.mpr hcomplete]
      rfl
    · rw [if_neg hcomplete]
      simp [Lz4.streamOf, hcomplete, Except.toOption]

/-- Whether a fault is one of what is read, and not of the limit. -/
def ReadFault.IsOfInput : ReadFault → Prop
  | empty | tooLarge _ | expandsTooLarge _ | malformedFrame | interrupted _ => True
  | limitOutOfRange _ => False

def LoadFault.IsOfInput : LoadFault → Prop
  | cannotOpen .. | isDirectory _ | notCompressed _ | sourceFile .. => True
  | unreadable _ cause => cause.IsOfInput
  | invalidLimit _ => False

namespace Input

/-- The class in a file: what its frame expands to, if it is one, or else the content as it is. -/
def classBytes? (stored : Bytes) : Option Bytes :=
  if Lz4.magic.isPrefixOf stored then
    let delivery := Lz4.deliver (fun _ => false) stored
    if delivery.ending = .complete then some delivery.content.data.toList else none
  else some stored

/-- The class in a file as a stream, where frames have some streams. -/
def classStream (streamOf : Bytes → ByteStream) (stored : Bytes) : ByteStream :=
  if Lz4.magic.isPrefixOf stored then streamOf stored else { content := stored }

variable {frames : FrameReader} {streamOf : Bytes → ByteStream} {limit : Int64} {stored : Bytes}
  {source : ByteStream}

theorem classStream_of_frame (h : Lz4.magic.isPrefixOf stored = true) :
    classStream streamOf stored = streamOf stored :=
  if_pos h

theorem classStream_of_plain (h : Lz4.magic.isPrefixOf stored = false) :
    classStream streamOf stored = { content := stored } :=
  if_neg (by simp [h])

/-- The class in a file is all of its stream, unless that has a fault. -/
theorem classBytes?_eq_some (h : (classStream Lz4.streamOf stored).fault? = none) :
    classBytes? stored = some (classStream Lz4.streamOf stored).content := by
  unfold classBytes?
  split
  · rename_i hframe
    rw [classStream_of_frame hframe] at h ⊢
    exact if_pos (Lz4.fault?_streamOf_eq_none_iff.mp h)
  · rename_i hplain
    rw [classStream_of_plain (Bool.not_eq_true _ ▸ hplain)]

/-! ## Limits -/

/-- A limit that is positive and can be raised by one. -/
structure IsUsable (limit : Int64) : Prop where
  pos : 0 < limit.toInt
  lt : limit.toInt < 9223372036854775807

theorem IsUsable.toInt_succ (h : IsUsable limit) : (limit + 1).toInt = limit.toInt + 1 := by
  obtain ⟨hpos, hlt⟩ := h
  have hone : (1 : Int64).toInt = 1 := rfl
  rw [Int64.toInt_add, hone]
  exact Int.bmod_eq_of_le (by omega) (by omega)

theorem IsUsable.askedFor_eq (h : IsUsable limit) : (askedFor limit : Int) = limit.toInt + 1 := by
  have hpos := h.pos
  rw [askedFor, h.toInt_succ]
  omega

theorem withinLimit_eq (hlimit : IsUsable limit) (excess : UInt64 → ReadFault) (raw : Bytes) :
    withinLimit limit excess raw =
      if limit.toInt < raw.length then .error (excess limit.toUInt64) else .ok raw := by
  have hsize : Range.ofSize limit = .ok limit.toUInt64 := by
    refine if_neg ?_
    rw [Int64.lt_iff_toInt_lt]
    exact Int.not_lt.mpr (Int.le_of_lt hlimit.pos)
  rw [withinLimit, hsize]

/-- A stream that is longer than the limit is refused for its size before it matters how it ends. -/
theorem first_of_lt (hlimit : IsUsable limit) (hlarge : limit.toInt < source.content.length)
    (excess : UInt64 → ReadFault) :
    ∃ front, source.first (askedFor limit) = .ok front ∧
      withinLimit limit excess front = .error (excess limit.toUInt64) := by
  have hasked := hlimit.askedFor_eq
  refine ⟨source.content.take (askedFor limit), if_pos (by omega), ?_⟩
  have hlength : (source.content.take (askedFor limit)).length = askedFor limit := by
    rw [List.length_take]
    omega
  rw [withinLimit_eq hlimit, if_pos (by omega)]

/-- A stream within the limit is read to its end. -/
theorem first_of_le (hlimit : IsUsable limit) (hle : (source.content.length : Int) ≤ limit.toInt) :
    source.first (askedFor limit) =
      match source.fault? with
      | none => .ok source.content
      | some reason => .error reason := by
  have hasked := hlimit.askedFor_eq
  exact if_neg (by omega)

/-! ## Reading -/

theorem expanded_of_lt (hdelivers : frames.Delivers streamOf) (hlimit : IsUsable limit)
    (hlarge : limit.toInt < (streamOf stored).content.length) :
    expanded frames limit stored = .error (.expandsTooLarge limit.toUInt64) := by
  obtain ⟨front, hfront, hexcess⟩ := first_of_lt hlimit hlarge .expandsTooLarge
  rw [expanded, hdelivers, hfront]
  exact hexcess

theorem expanded_of_le (hdelivers : frames.Delivers streamOf) (hlimit : IsUsable limit)
    (hle : ((streamOf stored).content.length : Int) ≤ limit.toInt) :
    expanded frames limit stored =
      if (streamOf stored).fault? = none then .ok (streamOf stored).content
      else .error .malformedFrame := by
  rw [expanded, hdelivers, first_of_le hlimit hle]
  cases hfault : (streamOf stored).fault? with
  | none =>
    have hwithin := withinLimit_eq hlimit .expandsTooLarge (streamOf stored).content
    rw [if_neg (Int.not_lt.mpr hle)] at hwithin
    simpa [Except.toOption] using hwithin
  | some reason => simp [Except.toOption]

/-- What reading comes to, where the limit can be raised by one: the limit is compared with all that
is stored and with all that a frame expands to, and what passes is the class in the file. -/
theorem readFrom_eq (hdelivers : frames.Delivers streamOf) (hlimit : IsUsable limit)
    (source : ByteStream) :
    readFrom frames limit source =
      if limit.toInt < source.content.length then .error (.tooLarge limit.toUInt64)
      else
        match source.fault? with
        | some reason => .error (.interrupted reason)
        | none =>
          let stream := classStream streamOf source.content
          if limit.toInt < stream.content.length then .error (.expandsTooLarge limit.toUInt64)
          else if stream.fault? ≠ none then .error .malformedFrame
          else if stream.content.isEmpty then .error .empty
          else .ok ⟨[], stream.content, source.content.length,
            Lz4.magic.isPrefixOf source.content⟩ := by
  by_cases hstored : limit.toInt < source.content.length
  · obtain ⟨front, hfront, hexcess⟩ := first_of_lt hlimit hstored .tooLarge
    rw [readFrom, hfront, if_pos hstored]
    simp only [Except.mapError, Bind.bind, Except.bind, hexcess]
  rw [readFrom, first_of_le hlimit (Int.not_lt.mp hstored), if_neg hstored]
  cases hfault : source.fault? with
  | some reason => rfl
  | none =>
    have hraw := withinLimit_eq hlimit .tooLarge source.content
    rw [if_neg hstored] at hraw
    simp only [Except.mapError, Bind.bind, Except.bind, hraw]
    cases hframe : Lz4.magic.isPrefixOf source.content with
    | false => simp [classStream_of_plain hframe, hstored]
    | true =>
      rw [classStream_of_frame hframe]
      by_cases hlarge : limit.toInt < (streamOf source.content).content.length
      · simp [expanded_of_lt hdelivers hlimit hlarge, hlarge]
      · by_cases hend : (streamOf source.content).fault? = none
        · simp [expanded_of_le hdelivers hlimit (Int.not_lt.mp hlarge), hlarge, hend]
        · simp [expanded_of_le hdelivers hlimit (Int.not_lt.mp hlarge), hlarge, hend]

/-- What was read of a source within a limit: the class in the file, which does not depend on the
limit. Neither what is stored nor the class in it was cut short by a fault. -/
structure IsReadWithin (streamOf : Bytes → ByteStream) (limit : Int64) (source : ByteStream)
    (input : Input) : Prop where
  stored_intact : source.fault? = none
  class_intact : (classStream streamOf source.content).fault? = none
  data_eq : input.data = (classStream streamOf source.content).content
  nonempty : input.data ≠ []
  isCompressed : input.isCompressed = Lz4.magic.isPrefixOf source.content
  stored_le : (source.content.length : Int) ≤ limit.toInt
  data_le : (input.data.length : Int) ≤ limit.toInt

theorem readFrom_eq_ok {input : Input} (hdelivers : frames.Delivers streamOf)
    (hlimit : IsUsable limit) (h : readFrom frames limit source = .ok input) :
    IsReadWithin streamOf limit source input := by
  rw [readFrom_eq hdelivers hlimit] at h
  split at h
  · cases h
  rename_i hstored
  split at h
  · cases h
  rename_i hfault
  dsimp only at h
  split at h
  · cases h
  rename_i hlarge
  split at h
  · cases h
  rename_i hend
  split at h
  · cases h
  rename_i hempty
  cases h
  exact ⟨hfault, not_ne_iff.mp hend, rfl, fun h => hempty (List.isEmpty_iff.mpr h), rfl,
    Int.not_lt.mp hstored, Int.not_lt.mp hlarge⟩

theorem readFrom_eq_error {cause : ReadFault} (hdelivers : frames.Delivers streamOf)
    (hlimit : IsUsable limit) (h : readFrom frames limit source = .error cause) :
    cause.IsOfInput := by
  rw [readFrom_eq hdelivers hlimit] at h
  split at h
  · cases h
    trivial
  split at h
  · cases h
    trivial
  dsimp only at h
  split at h
  · cases h
    trivial
  split at h
  · cases h
    trivial
  split at h <;> cases h
  trivial

/-! ## Loading -/

variable {recognize : Recognizer} {entry : Bytes → Files.Entry} {path : Bytes}

theorem loadFrom_eq_ok {input : Input} (hlimit : IsUsable limit)
    (h : loadFrom recognize limit path source = .ok input) :
    source.fault? = none ∧ classBytes? source.content = some input.data ∧
      (input.data.length : Int) ≤ limit.toInt := by
  unfold loadFrom at h
  split at h
  · cases h
  rename_i hread
  have hwithin := readFrom_eq_ok lz4Frames_delivers hlimit hread
  split at h
  · cases h
  split at h
  · cases h
  cases h
  refine ⟨hwithin.stored_intact, ?_, hwithin.data_le⟩
  rw [classBytes?_eq_some hwithin.class_intact, ← hwithin.data_eq]

theorem loadFrom_eq_error {cause : LoadFault} (hlimit : IsUsable limit)
    (h : loadFrom recognize limit path source = .error cause) : cause.IsOfInput := by
  unfold loadFrom at h
  split at h
  · rename_i hread
    cases h
    exact readFrom_eq_error lz4Frames_delivers hlimit hread
  · split at h
    · cases h
      trivial
    · split at h <;> cases h
      trivial

/-- What is loaded is all of the class in an undamaged file. -/
theorem load_eq_ok {input : Input} (hlimit : IsUsable limit)
    (h : load recognize entry limit path = .ok input) :
    ∃ stored, entry path = .file stored ∧ classBytes? stored = some input.data ∧
      (input.data.length : Int) ≤ limit.toInt := by
  unfold load at h
  split at h
  · cases h
  split at h
  · cases h
  · cases h
  · rename_i stored hentry
    exact ⟨stored, hentry, (loadFrom_eq_ok hlimit h).2⟩
  · cases (loadFrom_eq_ok hlimit h).1

theorem load_eq_error {cause : LoadFault} (hlimit : IsUsable limit)
    (h : load recognize entry limit path = .error cause) : cause.IsOfInput := by
  have hpos : ¬ limit ≤ 0 := by
    rw [Int64.le_iff_toInt_le]
    exact Int.not_le.mpr hlimit.pos
  simp only [load, if_neg hpos] at h
  split at h
  · cases h
    trivial
  · cases h
    trivial
  · exact loadFrom_eq_error hlimit h
  · exact loadFrom_eq_error hlimit h

end Input

end MonitorCoverage
